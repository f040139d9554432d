namespace SqlSelect

variable {α : Type} [BEq α]

/-- For each entry, whether it is equal to none of those seen before it. -/
def noveltyAfter (seen : List α) : List α → List Bool
  | [] => []
  | a :: rest => (!seen.contains a) :: noveltyAfter (a :: seen) rest

/-- For each entry, whether it occurs there for the first time. -/
def novelty (entries : List α) : List Bool := noveltyAfter [] entries

def distinctCount (entries : List α) : Nat := (novelty entries).count true

theorem getElem?_noveltyAfter (seen entries : List α) (i : Nat) :
    (noveltyAfter seen entries)[i]? =
      entries[i]?.map fun a => !(seen.contains a || (entries.take i).contains a) := by
  induction entries generalizing seen i with
  | nil => rfl
  | cons entry rest ih =>
      cases i with
      | zero => simp [noveltyAfter]
      | succ i =>
          have moved (a : α) : ((entry :: seen).contains a || (rest.take i).contains a) =
              (seen.contains a || (entry :: rest.take i).contains a) := by
            rw [List.contains_cons, List.contains_cons, Bool.or_assoc, Bool.or_left_comm]
          simp only [noveltyAfter, List.getElem?_cons_succ, ih, List.take_succ_cons, moved]

/-- An entry is new when none of those before it is equal to it. -/
theorem getElem?_novelty (entries : List α) (i : Nat) :
    (novelty entries)[i]? = entries[i]?.map fun a => !(entries.take i).contains a := by
  rw [novelty, getElem?_noveltyAfter]
  rfl

theorem count_noveltyAfter [LawfulBEq α] (seen entries : List α) :
    (noveltyAfter seen entries).count true =
      (entries.filter fun a => !seen.contains a).eraseDups.length := by
  induction entries generalizing seen with
  | nil => rfl
  | cons entry rest ih =>
      rw [noveltyAfter, List.count_cons, ih]
      cases old : seen.contains entry with
      | true =>
          have same (a : α) : (entry :: seen).contains a = seen.contains a := by
            rw [List.contains_cons]
            by_cases equal : a = entry
            · rw [equal, old, Bool.or_true]
            · rw [beq_false_of_ne equal, Bool.false_or]
          simp only [List.filter_cons, old, same]
          rfl
      | false =>
          have apart : (rest.filter fun a => !seen.contains a).filter (fun a => !a == entry) =
              rest.filter fun a => !(entry :: seen).contains a := by
            simp only [List.filter_filter, List.contains_cons, Bool.not_or]
          simp only [List.filter_cons, old, Bool.not_false, if_true, List.eraseDups_cons, apart]
          rfl

/-- As many entries are new as there are different ones. -/
theorem distinctCount_eq_length_eraseDups [LawfulBEq α] (entries : List α) :
    distinctCount entries = entries.eraseDups.length := by
  have all : entries.filter (fun a => !([] : List α).contains a) = entries :=
    List.filter_eq_self.mpr fun _ _ => rfl
  rw [distinctCount, novelty, count_noveltyAfter, all]

end SqlSelect
