import SqlSelect.Token
namespace SqlSelect.Phrase

def word (k : Keyword) : Tokens := [.keyword k]

def mark (s : Symbol) : Tokens := [.symbol s]

/-- Reserved words with a space between them. -/
def words : List Keyword → Tokens
  | [] => []
  | [k] => [.keyword k]
  | k :: rest => .keyword k :: .space :: words rest

/-- The pieces with the separator between them. -/
def joined (separator : Tokens) : List Tokens → Tokens
  | [] => []
  | first :: rest => first ++ rest.flatMap (separator ++ ·)

def commas (pieces : List Tokens) : Tokens := joined [.symbol .comma, .space] pieces

def parens (inner : Tokens) : Tokens := .symbol .openParen :: (inner ++ [.symbol .closeParen])

/-- The phrase after a space. -/
def spaced (phrase : Tokens) : Tokens := .space :: phrase

/-- The phrase before a space. -/
def thenSpace (phrase : Tokens) : Tokens := phrase ++ [.space]

def onlyIf (flag : Bool) (phrase : Tokens) : Tokens := if flag then phrase else []

def optional (phrase : α → Tokens) : Option α → Tokens
  | none => []
  | some a => phrase a

def nonempty (phrase : List α → Tokens) (items : List α) : Tokens :=
  if items.isEmpty then [] else phrase items

@[simp] theorem joined_singleton (separator piece : Tokens) :
    joined separator [piece] = piece := by
  simp [joined]

theorem joined_concat {separator piece : Tokens} {pieces : List Tokens} (some : pieces ≠ []) :
    joined separator (pieces ++ [piece]) = joined separator pieces ++ (separator ++ piece) := by
  cases pieces with
  | nil => contradiction
  | cons first rest => simp [joined, List.flatMap_append]

theorem chars_joined (d : Dialect) (separator : Tokens) (pieces : List Tokens) :
    (joined separator pieces).chars d =
      (separator.chars d).intercalate (pieces.map (Tokens.chars d)) := by
  cases pieces with
  | nil => rfl
  | cons first rest =>
      induction rest generalizing first with
      | nil => simp
      | cons second rest ih =>
          have step : joined separator (first :: second :: rest) =
              first ++ (separator ++ joined separator (second :: rest)) := by
            simp [joined]
          rw [step, Tokens.chars_append, Tokens.chars_append, ih]
          simp [List.intercalate]

end SqlSelect.Phrase
