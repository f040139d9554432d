import SqlSelect.Text.Quoted
namespace SqlSelect

/-! A reader of a statement goes through it from left to right.  A quotation mark
opens a quoted piece, a doubled mark inside it stands for one, and a single mark
closes it.  Identifiers stand between the marks of the dialect and string
literals between single quotes.
-/

/-- What a scan finds: a character outside quotes, or the contents of a quoted
    piece and the mark around it. -/
inductive Piece where
  | plain (c : Char)
  | quoted (mark : Char) (contents : List Char)
  deriving DecidableEq

namespace Piece

/-- The contents of a piece that is quoted by a mark. -/
def contents? (mark : Char) : Piece → Option String
  | .plain _ => none
  | .quoted m contents => if m = mark then some (String.ofList contents) else none

/-- The piece with what is quoted left out. -/
def blank : Piece → Piece
  | .plain c => .plain c
  | .quoted mark _ => .quoted mark []

end Piece

namespace Scan

inductive State where
  | outside
  | inside (mark : Char) (contents : List Char)
  /-- After a mark that closes the piece, unless it is doubled. -/
  | closing (mark : Char) (contents : List Char)

def enter (quote c : Char) : State × List Piece :=
  if c = quote ∨ c = '\'' then (.inside c [], []) else (.outside, [.plain c])

/-- The state after one character, and the pieces that it completes. -/
def step (quote : Char) : State → Char → State × List Piece
  | .outside, c => enter quote c
  | .inside mark contents, c =>
      if c = mark then (.closing mark contents, []) else (.inside mark (contents ++ [c]), [])
  | .closing mark contents, c =>
      if c = mark then (.inside mark (contents ++ [c]), [])
      else ((enter quote c).1, .quoted mark contents :: (enter quote c).2)

/-- The pieces of a text from a state on, unless the text ends inside quotes. -/
def scanFrom? (quote : Char) : State → List Char → Option (List Piece)
  | .outside, [] => some []
  | .closing mark contents, [] => some [.quoted mark contents]
  | .inside _ _, [] => none
  | state, c :: rest =>
      (scanFrom? quote (step quote state c).1 rest).map ((step quote state c).2 ++ ·)

/-- The pieces of a text, unless it ends inside quotes. -/
def scan? (quote : Char) (text : List Char) : Option (List Piece) := scanFrom? quote .outside text

variable {quote mark : Char} {text rest : List Char}

theorem scan?_cons {c : Char} (notQuote : c ≠ quote) (notSingle : c ≠ '\'') :
    scan? quote (c :: rest) = (scan? quote rest).map (.plain c :: ·) := by
  have enters : enter quote c = (.outside, [.plain c]) := if_neg (by simp [notQuote, notSingle])
  simp only [scan?, scanFrom?, step, enters]
  rfl

theorem scan?_plain (plain : ∀ c ∈ text, c ≠ quote ∧ c ≠ '\'') :
    scan? quote (text ++ rest) = (scan? quote rest).map (text.map .plain ++ ·) := by
  induction text with
  | nil => simp
  | cons c cs ih =>
      have first := plain c List.mem_cons_self
      rw [List.cons_append, scan?_cons first.1 first.2,
        ih fun d member => plain d (List.mem_cons_of_mem c member), Option.map_map]
      rfl

theorem scanFrom?_escape (contents : List Char) :
    scanFrom? quote (.inside mark contents) (Quoted.escape mark text ++ mark :: rest) =
      scanFrom? quote (.closing mark (contents ++ text)) rest := by
  induction text generalizing contents with
  | nil => simp [scanFrom?, step]
  | cons c cs ih =>
      rw [Quoted.escape]
      by_cases same : c = mark
      · rw [if_pos same, same]
        simp only [List.cons_append, scanFrom?, step, if_true, List.nil_append, Option.map_id']
        rw [ih, List.append_assoc]
        rfl
      · rw [if_neg same]
        simp only [List.cons_append, scanFrom?, step, if_neg same, List.nil_append, Option.map_id']
        rw [ih, List.append_assoc]
        rfl

/-- A quoted piece is complete when no further mark follows. -/
theorem scanFrom?_closing {contents : List Char} (apart : rest.head? ≠ some mark) :
    scanFrom? quote (.closing mark contents) rest =
      (scan? quote rest).map (.quoted mark contents :: ·) := by
  cases rest with
  | nil => rfl
  | cons c cs =>
      have other : c ≠ mark := fun same => apart (congrArg some same)
      simp only [scan?, scanFrom?, step, if_neg other, Option.map_map]
      rfl

theorem scan?_wrap (quotes : mark = quote ∨ mark = '\'') (apart : rest.head? ≠ some mark) :
    scan? quote (Quoted.wrap mark text ++ rest) =
      (scan? quote rest).map (.quoted mark text :: ·) := by
  have opened : scan? quote (Quoted.wrap mark text ++ rest) =
      scanFrom? quote (.inside mark []) (Quoted.escape mark text ++ mark :: rest) := by
    simp [Quoted.wrap, scan?, scanFrom?, step, enter, quotes]
  rw [opened, scanFrom?_escape, List.nil_append, scanFrom?_closing apart]

end Scan
end SqlSelect
