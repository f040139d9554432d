import SqlSelect.Token.Keyword
namespace SqlSelect.Condition

/-!
# Reading conditions

A condition is a text of words and parentheses.  It is read from left to right as
SQL reads it: what stands in parentheses first, then `NOT`, then `AND`, then `OR`.
-/

inductive Mark where
  | opening | closing
  | not | and | or
  /-- A word that is true or false. -/
  | atom (word : String)
  deriving DecidableEq

namespace Mark

def ofWord (word : List Char) : Mark :=
  if word = Keyword.chars .NOT then .not
  else if word = Keyword.chars .AND then .and
  else if word = Keyword.chars .OR then .or
  else .atom (String.ofList word)

/-- The word before a space or a parenthesis, if there is one. -/
def ending : List Char → List Mark
  | [] => []
  | word => [ofWord word]

/-- The words and the parentheses of a text, of whose first word a part has been
    read. -/
def listFrom (word : List Char) : List Char → List Mark
  | [] => ending word
  | c :: rest =>
      if c = ' ' then ending word ++ listFrom [] rest
      else if c = '(' then ending word ++ .opening :: listFrom [] rest
      else if c = ')' then ending word ++ .closing :: listFrom [] rest
      else listFrom (word ++ [c]) rest

def list (text : String) : List Mark := listFrom [] text.toList

/-- How many parentheses are open after a mark. -/
def depth (before : Nat) : Mark → Nat
  | .opening => before + 1
  | .closing => before - 1
  | _ => before

/-- The marks that stand in no parentheses, after some that are open. -/
def outside (before : Nat) : List Mark → List Mark
  | [] => []
  | m :: rest => (if before = 0 then [m] else []) ++ outside (m.depth before) rest

/-- A text is listed up to where the one after it ends the last word. -/
theorem listFrom_append {after : List Char} {marks : List Mark}
    (ends : ∀ word, listFrom word after = ending word ++ marks) (word text : List Char) :
    listFrom word (text ++ after) = listFrom word text ++ marks := by
  induction text generalizing word with
  | nil => exact ends word
  | cons c cs ih =>
      simp only [List.cons_append, listFrom]
      split
      · rw [ih, List.append_assoc]
      · split
        · rw [ih, List.append_assoc, List.cons_append]
        · split
          · rw [ih, List.append_assoc, List.cons_append]
          · rw [ih]

theorem listFrom_space (word text rest : List Char) :
    listFrom word (text ++ ' ' :: rest) = listFrom word text ++ listFrom [] rest :=
  listFrom_append (fun word => by simp [listFrom]) word text

end Mark

/-- What has been read of a condition up to its next operand. -/
structure Level where
  /-- Whether an alternative before the last `OR` holds. -/
  any : Bool := false
  /-- Whether everything since then holds. -/
  all : Bool := true

namespace Level

def value (l : Level) : Bool := l.any || l.all

def conjoin (l : Level) (holds : Bool) : Level := { l with all := l.all && holds }

def alternative (l : Level) : Level := ⟨l.value, true⟩

end Level

inductive Stage where
  /-- An operand comes next, which is negated or not. -/
  | operand (negated : Bool)
  | operator

structure State where
  /-- What waits for a closing parenthesis, innermost first: the level before the
      parenthesis, and whether the value of what stands in it is negated. -/
  outer : List (Level × Bool) := []
  level : Level := {}
  stage : Stage := .operand false

variable (v : String → Bool)

def step : State → Mark → Option State
  | ⟨outer, level, .operand negated⟩, .not => some ⟨outer, level, .operand !negated⟩
  | ⟨outer, level, .operand negated⟩, .atom word =>
      some ⟨outer, level.conjoin (v word ^^ negated), .operator⟩
  | ⟨outer, level, .operand negated⟩, .opening => some ⟨(level, negated) :: outer, {}, .operand false⟩
  | ⟨outer, level, .operator⟩, .and => some ⟨outer, level, .operand false⟩
  | ⟨outer, level, .operator⟩, .or => some ⟨outer, level.alternative, .operand false⟩
  | ⟨(before, negated) :: outer, level, .operator⟩, .closing =>
      some ⟨outer, before.conjoin (level.value ^^ negated), .operator⟩
  | _, _ => none

def run (s : State) (marks : List Mark) : Option State := marks.foldlM (step v) s

def State.value? : State → Option Bool
  | ⟨[], level, .operator⟩ => some level.value
  | _ => none

def value? (marks : List Mark) : Option Bool := (run v {} marks).bind State.value?

/-- The value of a text, unless it is no condition. -/
def reading (text : String) : Option Bool := value? v (Mark.list text)

variable {v}

theorem run_cons (s : State) (m : Mark) (rest : List Mark) :
    run v s (m :: rest) = (step v s m).bind (run v · rest) := rfl

theorem run_append (s : State) (first rest : List Mark) :
    run v s (first ++ rest) = (run v s first).bind (run v · rest) :=
  List.foldlM_append ..

end SqlSelect.Condition
