import SqlSelect.Name
namespace SqlSelect.Name

variable {d : Dialect} {mark : Char}

/-- Where a reader is in a name. -/
inductive Stage where
  /-- After a dot. -/
  | dotted
  /-- In a quoted part, of which some characters have been read. -/
  | inside (contents : List Char)
  /-- After a mark that closes the part, unless it is doubled. -/
  | closing (contents : List Char)

/-- The parts that are read from a stage on, and the text after the last of
    them. -/
def partsFrom? (mark : Char) : Stage → List Char → Option (List String × List Char)
  | .dotted, [] | .inside _, [] => none
  | .closing contents, [] => some ([String.ofList contents], [])
  | .dotted, c :: rest => if c = mark then partsFrom? mark (.inside []) rest else none
  | .inside contents, c :: rest =>
      if c = mark then partsFrom? mark (.closing contents) rest
      else partsFrom? mark (.inside (contents ++ [c])) rest
  | .closing contents, c :: rest =>
      if c = mark then partsFrom? mark (.inside (contents ++ [c])) rest
      else if c = '.' then
        (partsFrom? mark .dotted rest).map fun more => (String.ofList contents :: more.1, more.2)
      else some ([String.ofList contents], c :: rest)

/-- The name at the beginning of a text, and the rest of the text.  A text that
    begins with no quoted part begins with the name without parts. -/
def read? (mark : Char) (text : String) : Option (Name × String) :=
  match text.toList with
  | [] => some (⟨[]⟩, text)
  | c :: rest =>
      if c = mark then
        (partsFrom? mark (.inside []) rest).map fun found => (⟨found.1⟩, String.ofList found.2)
      else some (⟨[]⟩, text)

theorem partsFrom?_escape (contents part after : List Char) :
    partsFrom? mark (.inside contents) (Quoted.escape mark part ++ mark :: after) =
      partsFrom? mark (.closing (contents ++ part)) after := by
  induction part generalizing contents with
  | nil => simp [partsFrom?]
  | cons c cs ih =>
      rw [Quoted.escape]
      by_cases same : c = mark
      · rw [if_pos same, same]
        simp only [List.cons_append, partsFrom?, if_true]
        rw [ih, List.append_assoc]
        rfl
      · rw [if_neg same]
        simp only [List.cons_append, partsFrom?, if_neg same]
        rw [ih, List.append_assoc]
        rfl

/-- The text of the parts after the first one. -/
def further (mark : Char) (parts : List String) : List Char :=
  parts.flatMap fun part => '.' :: Quoted.wrap mark part.toList

theorem partsFrom?_further (notDot : mark ≠ '.') {rest : List Char}
    (ends : ∀ c ∈ rest.head?, c ≠ '.' ∧ c ≠ mark) (contents : List Char) (parts : List String) :
    partsFrom? mark (.closing contents) (further mark parts ++ rest) =
      some (String.ofList contents :: parts, rest) := by
  induction parts generalizing contents with
  | nil =>
      cases rest with
      | nil => rfl
      | cons c cs =>
          obtain ⟨undotted, unquoted⟩ := ends c rfl
          simp [further, partsFrom?, undotted, unquoted]
  | cons part more ih =>
      have written : further mark (part :: more) ++ rest =
          '.' :: mark :: (Quoted.escape mark part.toList ++ mark :: (further mark more ++ rest)) := by
        simp [further, Quoted.wrap]
      rw [written, partsFrom?, if_neg (Ne.symm notDot), if_pos rfl, partsFrom?, if_pos rfl,
        partsFrom?_escape, List.nil_append, ih]
      simp

theorem chars_tokens (d : Dialect) (part : String) (more : List String) :
    (Name.tokens ⟨part :: more⟩).chars d =
      d.ident part.toList ++ more.flatMap fun part => '.' :: d.ident part.toList := by
  have rest : Tokens.chars d ((more.map fun part => [Token.ident part]).flatMap
      ([.symbol .dot] ++ ·)) = more.flatMap fun part => '.' :: d.ident part.toList := by
    simp [Tokens.chars, List.flatMap_map, List.flatMap_assoc, Token.chars, Symbol.chars, Symbol.text]
  rw [Name.tokens, List.map_cons, Phrase.joined, Tokens.chars_append, rest]
  simp [Token.chars]

/-- In a dialect that quotes identifiers a name is read back from its text,
    whatever comes after it that can be told from a further part. -/
theorem read?_render (quoting : d.mark? = some mark) (n : Name) {rest : String}
    (ends : ∀ c ∈ rest.toList.head?, c ≠ '.' ∧ c ≠ mark) :
    read? mark (render d n ++ rest) = some (n, rest) := by
  have notDot : mark ≠ '.' := by
    cases d <;> cases quoting <;> decide
  obtain ⟨parts⟩ := n
  cases parts with
  | nil =>
      have alone : render d (⟨[]⟩ : Name) ++ rest = rest := String.empty_append
      rw [alone, read?]
      cases text : rest.toList with
      | nil => rfl
      | cons c cs =>
          have unquoted : c ≠ mark := (ends c (by simp [text])).2
          simp only [if_neg unquoted]
  | cons part more =>
      have quoted (name : List Char) : d.ident name = Quoted.wrap mark name := by
        rw [Dialect.ident, quoting]
      have text : (render d (⟨part :: more⟩ : Name) ++ rest).toList =
          mark :: (Quoted.escape mark part.toList ++ mark :: (further mark more ++ rest.toList)) := by
        rw [String.toList_append, render, String.toList_ofList, Written.tokens, instWritten,
          chars_tokens]
        simp only [quoted, further, Quoted.wrap, List.cons_append, List.append_assoc,
          List.nil_append]
      rw [read?, text]
      simp only [if_true, partsFrom?_escape, List.nil_append, partsFrom?_further notDot ends,
        Option.map_some, String.ofList_toList]

theorem eq_of_render_eq (quoting : d.mark? = some mark) {a b : Name}
    (same : render d a = render d b) : a = b := by
  have first : read? mark (render d a ++ "") = some (a, "") := read?_render quoting a nofun
  have second : read? mark (render d b ++ "") = some (b, "") := read?_render quoting b nofun
  rw [same, second] at first
  cases first
  rfl

theorem toList_render_generic (part : String) (more : List String) :
    (render .generic (⟨part :: more⟩ : Name)).toList =
      part.toList ++ (more.map String.toList).flatMap ('.' :: ·) := by
  rw [render, String.toList_ofList, Written.tokens, instWritten, chars_tokens, List.flatMap_map]
  rfl

theorem ofText_eq (text : String) :
    ofText text =
      ⟨String.ofList (cutAt '.' text.toList).1 :: (cutAt '.' text.toList).2.map String.ofList⟩ :=
  rfl

theorem render_ofText (text : String) : render .generic (ofText text) = text := by
  rw [← String.toList_inj, ofText_eq, toList_render_generic]
  simp only [List.map_map, Function.comp_def, String.toList_ofList, List.map_id']
  exact append_flatMap_cutAt '.' text.toList

/-- Without quotes a dot in a part cannot be told from one between parts. -/
theorem ofText_render_iff (n : Name) :
    ofText (render .generic n) = n ↔
      n.parts ≠ [] ∧ ∀ part ∈ n.parts, '.' ∉ part.toList := by
  constructor
  · intro same
    rw [← same, ofText_eq]
    refine ⟨List.cons_ne_nil _ _, fun part member => ?_⟩
    have pieces := not_mem_cutAt '.' (render .generic n).toList
    rw [← List.map_cons] at member
    obtain ⟨piece, cut, rfl⟩ := List.mem_map.mp member
    rw [String.toList_ofList]
    exact pieces piece cut
  · rintro ⟨named, clean⟩
    obtain ⟨parts⟩ := n
    cases parts with
    | nil => exact absurd rfl named
    | cons part more =>
        have pieces : ∀ piece ∈ part.toList :: more.map String.toList, '.' ∉ piece := by
          rw [← List.map_cons]
          exact List.forall_mem_map.mpr clean
        rw [ofText_eq, toList_render_generic, cutAt_append_flatMap pieces]
        simp [List.map_map, Function.comp_def]

/-- Where identifiers are quoted, the parts of a name are read back from its text
    and the text after it is left.  Without quotes the name that a text stands for
    is written as that text, and a name is what its text stands for when it has
    parts and none of them has a dot. -/
theorem recovered_from_text (quoting : d.mark? = some mark) :
    (∀ (n : Name) (rest : String), (∀ c ∈ rest.toList.head?, c ≠ '.' ∧ c ≠ mark) →
      read? mark (render d n ++ rest) = some (n, rest)) ∧
    (∀ a b : Name, render d a = render d b → a = b) ∧
    (∀ text : String, render .generic (ofText text) = text) ∧
    ∀ n : Name, ofText (render .generic n) = n ↔
      n.parts ≠ [] ∧ ∀ part ∈ n.parts, '.' ∉ part.toList :=
  ⟨fun n _ ends => read?_render quoting n ends, fun _ _ same => eq_of_render_eq quoting same,
    render_ofText, ofText_render_iff⟩

/-- A name with a mark, a dot and an empty part, and an operator after it. -/
theorem recovered_before_operator :
    let n : Name := ⟨["a\x60.\x60", "", "b"]⟩
    Dialect.mysql.mark? = some '\x60' ∧ (∀ c ∈ " = 1".toList.head?, c ≠ '.' ∧ c ≠ '\x60') ∧
      read? '\x60' (render .mysql n ++ " = 1") = some (n, " = 1") := by
  have ends : ∀ c ∈ " = 1".toList.head?, c ≠ '.' ∧ c ≠ '\x60' := by
    intro c first
    obtain rfl : ' ' = c := Option.some.inj first
    exact ⟨by decide, by decide⟩
  exact ⟨rfl, ends, (recovered_from_text rfl).1 _ _ ends⟩

end SqlSelect.Name
