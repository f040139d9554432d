import SqlSelect.Token
namespace SqlSelect

/-- A character of reserved words and numbers. -/
def isPlain (c : Char) : Bool := Keyword.isWordChar c || c == '.' || c == '-'

theorem isPlain_of_isWordChar {c : Char} (word : Keyword.isWordChar c = true) :
    isPlain c = true := by
  simp [isPlain, word]

/-- The characters that mark where text begins or ends. -/
def isDelimiter (c : Char) : Bool := c == ' ' || c == '\'' || c == '"' || c == '\x60'

theorem isDelimiter_of_isPlain {c : Char} (plain : isPlain c = true) : isDelimiter c = false := by
  have apart : ∀ delimiter, isPlain delimiter = false → c ≠ delimiter := by
    rintro _ notPlain rfl
    exact Bool.false_ne_true (notPlain.symm.trans plain)
  simp [isDelimiter, apart ' ' rfl, apart '\'' rfl, apart '"' rfl, apart '\x60' rfl]

theorem isWordChar_of_isDigit {c : Char} (digit : c.isDigit = true) :
    Keyword.isWordChar c = true := by
  simp [Keyword.isWordChar, Char.isAlphanum, digit]

theorem isWordChar_of_mem_natText {n : Nat} {c : Char} (member : c ∈ natText n) :
    Keyword.isWordChar c = true :=
  isWordChar_of_isDigit (Nat.isDigit_of_mem_toDigits (by decide) (by decide) member)

theorem natText_ne_nil (n : Nat) : natText n ≠ [] := Nat.toDigits_ne_nil

theorem isPlain_of_mem_natText {n : Nat} {c : Char} (member : c ∈ natText n) :
    isPlain c = true :=
  isPlain_of_isWordChar (isWordChar_of_mem_natText member)

theorem isPlain_of_mem_intText {i : Int} {c : Char} (member : c ∈ intText i) :
    isPlain c = true := by
  unfold intText at member
  split at member
  · rcases List.mem_cons.mp member with rfl | member
    · rfl
    · exact isPlain_of_mem_natText member
  · exact isPlain_of_mem_natText member

theorem intText_ne_nil (i : Int) : intText i ≠ [] := by
  unfold intText
  split
  · nofun
  · exact natText_ne_nil _

/-- A decimal is written with digits and at most a point. -/
theorem Decimal.mem_positional {d : Decimal} {c : Char} (member : c ∈ d.positional) :
    c.isDigit = true ∨ c = '.' := by
  have digit : ∀ c ∈ Nat.toDigits 10 d.digits, c.isDigit = true := fun c member =>
    Nat.isDigit_of_mem_toDigits (by decide) (by decide) member
  have zero {count : Nat} (member : c ∈ List.replicate count '0') : c.isDigit = true := by
    rw [List.eq_of_mem_replicate member]
    rfl
  simp only [Decimal.positional] at member
  split at member
  · rcases List.mem_append.mp member with member | member
    · exact .inl (digit c member)
    · exact .inl (zero member)
  · split at member
    · rcases List.mem_append.mp member with member | member
      · exact .inl (digit c (List.mem_of_mem_take member))
      · rcases List.mem_cons.mp member with point | member
        · exact .inr point
        · exact .inl (digit c (List.mem_of_mem_drop member))
    · rcases List.mem_cons.mp member with rfl | member
      · exact .inl rfl
      · rcases List.mem_cons.mp member with point | member
        · exact .inr point
        · rcases List.mem_append.mp member with member | member
          · exact .inl (zero member)
          · exact .inl (digit c member)

theorem Decimal.positional_ne_nil (d : Decimal) : d.positional ≠ [] := by
  have digits : Nat.toDigits 10 d.digits ≠ [] := Nat.toDigits_ne_nil
  simp only [Decimal.positional]
  split
  · simp [digits]
  · split <;> simp

theorem Binary64.mem_text {x : Binary64} {c : Char} (member : c ∈ x.text) :
    c.isDigit = true ∨ c ∈ ['-', '.', 'N', 'a', 'i', 'n', 'f'] := by
  have unsigned : c = '-' ∨ c ∈ ['N', 'a', 'N'] ∨ c ∈ ['i', 'n', 'f'] ∨ c ∈ ['0'] ∨
      ∃ decimal : Decimal, c ∈ decimal.positional := by
    unfold Binary64.text at member
    dsimp only at member
    split at member <;> split at member <;> grind
  rcases unsigned with rfl | member | member | member | ⟨decimal, member⟩
  · exact .inr (by decide)
  · exact .inr ((by decide : ['N', 'a', 'N'] ⊆ ['-', '.', 'N', 'a', 'i', 'n', 'f']) member)
  · exact .inr ((by decide : ['i', 'n', 'f'] ⊆ ['-', '.', 'N', 'a', 'i', 'n', 'f']) member)
  · obtain rfl := List.mem_singleton.mp member
    exact .inl rfl
  · rcases Decimal.mem_positional member with digit | rfl
    · exact .inl digit
    · exact .inr (by decide)

theorem Binary64.isPlain_of_mem_text {x : Binary64} {c : Char} (member : c ∈ x.text) :
    isPlain c = true := by
  rcases x.mem_text member with digit | letter
  · exact isPlain_of_isWordChar (isWordChar_of_isDigit digit)
  · exact List.all_eq_true.mp
      (show ['-', '.', 'N', 'a', 'i', 'n', 'f'].all isPlain = true from rfl) c letter

theorem Binary64.text_ne_nil (d : Binary64) : d.text ≠ [] := by
  unfold Binary64.text
  dsimp only
  split
  · nofun
  · split <;> simp [Decimal.positional_ne_nil]

theorem Keyword.isPlain_of_mem_chars {k : Keyword} {c : Char} (member : c ∈ k.chars) :
    isPlain c = true :=
  isPlain_of_isWordChar (k.isWordChar_of_mem_chars member)

/-- No mark has a letter, a digit or an underscore, and none has a delimiter. -/
theorem Symbol.apart_of_mem_chars {s : Symbol} {c : Char} (member : c ∈ s.chars) :
    Keyword.isWordChar c = false ∧ isDelimiter c = false := by
  have every : s.chars.all (fun c => !Keyword.isWordChar c && !isDelimiter c) = true := by
    cases s <;> decide
  simpa using List.all_eq_true.mp every c member

end SqlSelect
