namespace SqlSelect.Quoted

/-- The text with every occurrence of the mark doubled. -/
def escape (mark : Char) : List Char → List Char
  | [] => []
  | c :: rest =>
      if c = mark then mark :: mark :: escape mark rest else c :: escape mark rest

/-- The escaped text between two marks. -/
def wrap (mark : Char) (text : List Char) : List Char :=
  mark :: (escape mark text ++ [mark])

@[simp] theorem escape_nil (mark : Char) : escape mark [] = [] := rfl

theorem escape_of_not_mem {mark : Char} {text : List Char} (absent : mark ∉ text) :
    escape mark text = text := by
  induction text with
  | nil => rfl
  | cons c rest ih =>
      simp only [List.mem_cons, not_or] at absent
      rw [escape, if_neg (Ne.symm absent.1), ih absent.2]

end SqlSelect.Quoted
