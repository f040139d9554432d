import SqlSelect.Written
namespace SqlSelect

/-- Cut a text at every occurrence of a mark: the first piece, and the others. -/
def cutAt (mark : Char) : List Char → List Char × List (List Char)
  | [] => ([], [])
  | c :: rest =>
      let pieces := cutAt mark rest
      if c = mark then ([], pieces.1 :: pieces.2) else (c :: pieces.1, pieces.2)

section

variable {mark : Char}

/-- The pieces with the mark between them are the text again. -/
theorem append_flatMap_cutAt (mark : Char) (text : List Char) :
    (cutAt mark text).1 ++ (cutAt mark text).2.flatMap (mark :: ·) = text := by
  induction text with
  | nil => rfl
  | cons c rest ih =>
      by_cases same : c = mark
      · subst same
        simp [cutAt, ih]
      · simpa [cutAt, same] using ih

theorem not_mem_cutAt (mark : Char) (text : List Char) :
    ∀ piece ∈ (cutAt mark text).1 :: (cutAt mark text).2, mark ∉ piece := by
  induction text with
  | nil => simp [cutAt]
  | cons c rest ih =>
      intro piece member
      by_cases same : c = mark
      · simp only [cutAt, if_pos same, List.mem_cons] at member
        rcases member with rfl | member
        · exact List.not_mem_nil
        · exact ih piece (List.mem_cons.mpr member)
      · simp only [cutAt, if_neg same, List.mem_cons] at member
        rcases member with rfl | member
        · have first := ih _ List.mem_cons_self
          simp [Ne.symm same, first]
        · exact ih piece (List.mem_cons_of_mem _ member)

theorem cutAt_append {first : List Char} (free : mark ∉ first) (rest : List Char) :
    cutAt mark (first ++ rest) = (first ++ (cutAt mark rest).1, (cutAt mark rest).2) := by
  induction first with
  | nil => rfl
  | cons c cs ih =>
      rw [List.mem_cons, not_or] at free
      rw [List.cons_append, cutAt, ih free.2]
      simp [Ne.symm free.1]

/-- Pieces without the mark are what their text is cut into. -/
theorem cutAt_append_flatMap {first : List Char} {others : List (List Char)}
    (clean : ∀ piece ∈ first :: others, mark ∉ piece) :
    cutAt mark (first ++ others.flatMap (mark :: ·)) = (first, others) := by
  rw [List.forall_mem_cons] at clean
  obtain ⟨free, clean⟩ := clean
  induction others generalizing first with
  | nil => simpa [cutAt] using cutAt_append free []
  | cons second rest ih =>
      rw [List.forall_mem_cons] at clean
      have cut : cutAt mark (second ++ rest.flatMap (mark :: ·)) = (second, rest) :=
        ih clean.1 clean.2
      rw [cutAt_append free, List.flatMap_cons, List.cons_append, cutAt, cut]
      simp

end

/-- A name, possibly qualified.  A column is referred to by its name. -/
structure Name where
  parts : List String
  deriving DecidableEq, Hashable

namespace Name

/-- The name whose parts are the pieces between the dots of a text. -/
def ofText (text : String) : Name :=
  let pieces := cutAt '.' text.toList
  ⟨(pieces.1 :: pieces.2).map String.ofList⟩

def base? (n : Name) : Option String := n.parts.getLast?

def isQualified (n : Name) : Bool := n.parts.length > 1

def tokens (n : Name) : Tokens :=
  Phrase.joined [.symbol .dot] (n.parts.map fun part => [.ident part])

instance : Written Name := ⟨tokens⟩

end Name
end SqlSelect
