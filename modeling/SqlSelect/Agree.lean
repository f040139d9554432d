namespace SqlSelect

/-! Two compound values agree when they have the same shape and their parts agree
under a given test.  The parts of the two sides may have different types.
-/

variable {α α' : Type}

/-- Lists agree when they are equally long and agree place by place. -/
def agreeList (part : α → α' → Bool) : List α → List α' → Bool
  | [], [] => true
  | a :: rest, a' :: rest' => part a a' && agreeList part rest rest'
  | _, _ => false

/-- Optional values agree when both are missing, or both are present and agree. -/
def agreeOption (part : α → α' → Bool) : Option α → Option α' → Bool
  | none, none => true
  | some a, some a' => part a a'
  | _, _ => false

end SqlSelect
