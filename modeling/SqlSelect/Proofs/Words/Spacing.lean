import SqlSelect.Proofs.Statement
import SqlSelect.Proofs.Words.Runs
namespace SqlSelect

variable {w : WordClass}

def NotBothSpaces (a b : Char) : Prop := ¬(a = ' ' ∧ b = ' ')

theorem not_infix_of_isChain {text : List Char} (single : text.IsChain NotBothSpaces) :
    ¬[' ', ' '] <:+: text := by
  rintro ⟨before, after, rfl⟩
  rw [List.append_assoc, List.isChain_append] at single
  exact (List.isChain_cons_cons.mp single.2.1).1 ⟨rfl, rfl⟩

theorem isChain_of_ne_space {text : List Char} (noSpace : ∀ c ∈ text, c ≠ ' ') :
    text.IsChain NotBothSpaces := by
  induction text with
  | nil => exact .nil
  | cons c rest ih =>
      rw [List.isChain_cons]
      exact ⟨fun d _ both => noSpace c List.mem_cons_self both.1,
        ih fun d member => noSpace d (List.mem_cons_of_mem c member)⟩

namespace Token

theorem mem_chars_of_mem_head? {t : Token} (word : t.IsWord w) (seen : t.omitted? = none)
    {rest : List Char} {c : Char} (first : c ∈ (t.chars .generic ++ rest).head?) :
    c ∈ t.chars .generic := by
  rw [List.head?_append_of_ne_nil _ (chars_ne_nil word seen)] at first
  exact List.mem_of_mem_head? first

theorem isChain_chars {t : Token} (word : t.IsWord w) :
    (t.chars .generic).IsChain NotBothSpaces := by
  by_cases space : t = .space
  · rw [space]
    exact .singleton _
  · exact isChain_of_ne_space fun c member => ne_space_of_mem_chars word space member

end Token

namespace Tokens

/-- The words of a token list whose words are kept apart are those of its tokens. -/
theorem runs_chars {ts : Tokens} (leaves : ∀ t ∈ ts, t.IsWord w)
    (seen : ∀ t ∈ ts, t.omitted? = none)
    (apart : ts.IsChain (Token.Neighbours True)) :
    w.runs (ts.chars .generic) = ts.flatMap (Token.words w) := by
  induction ts with
  | nil => rfl
  | cons t rest ih =>
      rw [List.isChain_cons] at apart
      have later := ih (fun u member => leaves u (List.mem_cons_of_mem t member))
        (fun u member => seen u (List.mem_cons_of_mem t member)) apart.2
      have first := leaves t List.mem_cons_self
      rw [chars_cons, List.flatMap_cons, ← later, ← Token.runs_chars first]
      by_cases spoken : t.isContent = true
      · refine WordClass.runs_append_of_head fun c head => ?_
        cases rest with
        | nil => cases head
        | cons u rest =>
            have quiet := Token.Neighbours.quiet_right (apart.1 u rfl) spoken
            have here := Token.mem_chars_of_mem_head? (leaves u (by simp)) (seen u (by simp)) head
            exact Token.contains_eq_false_of_mem_chars quiet here
      · have quiet : ∀ c ∈ t.chars .generic, w.contains c = false := fun c member =>
          Token.contains_eq_false_of_mem_chars (by simpa using spoken) member
        rw [WordClass.runs_append_of_last quiet, WordClass.runs_of_apart quiet]
        rfl

theorem isChain_chars {ts : Tokens} (leaves : ∀ t ∈ ts, t.IsWord w)
    (seen : ∀ t ∈ ts, t.omitted? = none) (apart : ts.IsChain (Token.Neighbours True)) :
    (ts.chars .generic).IsChain NotBothSpaces := by
  induction ts with
  | nil => exact .nil
  | cons t rest ih =>
      rw [List.isChain_cons] at apart
      have later := ih (fun u member => leaves u (List.mem_cons_of_mem t member))
        (fun u member => seen u (List.mem_cons_of_mem t member)) apart.2
      rw [chars_cons, List.isChain_append]
      refine ⟨Token.isChain_chars (leaves t List.mem_cons_self), later, fun a last b head => ?_⟩
      rintro ⟨rfl, rfl⟩
      cases rest with
      | nil => cases head
      | cons u rest =>
          have here := Token.mem_chars_of_mem_head? (leaves u (by simp)) (seen u (by simp)) head
          refine (apart.1 u rfl).2 trivial ⟨?_, ?_⟩
          · by_contra notSpace
            exact Token.ne_space_of_mem_chars (leaves t (by simp)) notSpace
              (List.mem_of_mem_getLast? last) rfl
          · by_contra notSpace
            exact Token.ne_space_of_mem_chars (leaves u (by simp)) notSpace here rfl

theorem head?_chars {ts : Tokens} (leaves : ∀ t ∈ ts, t.IsWord w)
    (seen : ∀ t ∈ ts, t.omitted? = none) (starts : ∀ t ∈ ts.head?, t ≠ .space) :
    (ts.chars .generic).head? ≠ some ' ' := by
  cases ts with
  | nil => nofun
  | cons t rest =>
      intro first
      have here := Token.mem_chars_of_mem_head? (leaves t (by simp)) (seen t (by simp)) first
      exact Token.ne_space_of_mem_chars (leaves t (by simp)) (starts t rfl) here rfl

theorem getLast?_chars {ts : Tokens} (leaves : ∀ t ∈ ts, t.IsWord w)
    (seen : ∀ t ∈ ts, t.omitted? = none) (ends : ∀ t ∈ ts.getLast?, t ≠ .space) :
    (ts.chars .generic).getLast? ≠ some ' ' := by
  rcases List.eq_nil_or_concat ts with rfl | ⟨before, t, rfl⟩
  · nofun
  · rw [List.concat_eq_append] at *
    have last : t ∈ before ++ [t] := by simp
    have written := Token.chars_ne_nil (leaves t last) (seen t last)
    rw [chars_append, chars_cons, chars_nil, List.append_nil,
      List.getLast?_append_of_ne_nil _ written]
    intro final
    exact Token.ne_space_of_mem_chars (leaves t last) (ends t (by simp))
      (List.mem_of_mem_getLast? final) rfl

end Tokens

namespace Statement

/-- In the generic text of a filled statement whose leaves are words there is no
    space at either end and no two side by side, and the words are the reserved
    words and leaves of the outline: none is run together with another, left out
    or out of order. -/
theorem render_words (w : WordClass) {s : Statement} (filled : s.Filled)
    (leaves : ∀ t ∈ s.outline, t.IsWord w) :
    (render .generic s).toList.head? ≠ some ' ' ∧
      (render .generic s).toList.getLast? ≠ some ' ' ∧
      ¬[' ', ' '] <:+: (render .generic s).toList ∧
      w.runs (render .generic s).toList = s.outline.flatMap (Token.words w) := by
  have bounded := (s.shaped fun _ : True => filled).bounded
  have seen : ∀ t ∈ s.tokens.visible, t.omitted? = none := fun t member =>
    Tokens.omitted?_of_mem_visible member
  have words : ∀ t ∈ s.tokens.visible, t.IsWord w := fun t member =>
    forall_tokens (fun _ => Token.isWord_of_quiet) leaves t (List.mem_of_mem_filter member)
  have text : (render .generic s).toList = s.tokens.visible.chars .generic := by
    rw [Tokens.chars, Tokens.flatMap_visible fun _ => rfl, render, String.toList_ofList]
    rfl
  rw [text]
  refine ⟨Tokens.head?_chars words seen (bounded.starts Place.noConfusion trivial),
    Tokens.getLast?_chars words seen (bounded.ends (.inl rfl) trivial),
    not_infix_of_isChain (Tokens.isChain_chars words seen bounded.neighbours), ?_⟩
  rw [Tokens.runs_chars words seen bounded.neighbours, Tokens.flatMap_visible fun _ => rfl,
    ← s.content_tokens, Tokens.flatMap_content fun _ => Token.words_of_quiet]

/-- Two selects with an order around them. -/
def ordered : Statement :=
  .query ⟨{ orderBy? := some ⟨[⟨.column ⟨["id"]⟩, none, none⟩], false⟩ },
    .combined .union true
      [.select (.fromSource (.table (.ofName ⟨["s", "a"]⟩))),
        .select (.filtered (.table (.ofName ⟨["b"]⟩))
          (.binary .eq (.column ⟨["c"]⟩) (.literal (.string "x"))))]⟩

theorem filled_ordered : ordered.Filled := by
  have named (part : String) : Name.Filled ⟨[part]⟩ := nofun
  have table {n : Name} (filled : n.Filled) : (Relation.table (.ofName n) :
      Relation Prop Prop).Filled := filled
  have first := Select.filled_fromSource (table (n := ⟨["s", "a"]⟩) nofun)
  have second := Select.filled_filtered (table (named "b")) (And.intro (named "c") trivial)
  refine ⟨?envelope, nofun, List.forall_mem_cons.mpr ⟨first, List.forall_mem_singleton.mpr second⟩⟩
  constructor <;>
    simp [Interpretation.ofEnvelope_eq, Envelope.map, OrderBy.map, OrderBy.Filled,
      SortKey.map, SortKey.Filled, Interpretation.ofExpr, Filled.interpretation, named]

theorem leaves_ordered : ∀ t ∈ ordered.outline, t.IsWord .asciiOnly := by
  have outline : ordered.outline = [.keyword .SELECT, .keyword .FROM, .ident "s", .ident "a",
      .keyword .UNION, .keyword .ALL, .keyword .SELECT, .keyword .FROM, .ident "b",
      .keyword .WHERE, .ident "c", .string "x", .keyword .ORDER, .keyword .BY, .ident "id"] := rfl
  simp [outline, Token.IsWord, WordClass.asciiOnly, Keyword.isWordChar]

theorem words_ordered : ordered.Filled ∧ (∀ t ∈ ordered.outline, t.IsWord .asciiOnly) ∧
    (render .generic ordered).toList.head? ≠ some ' ' ∧
    (render .generic ordered).toList.getLast? ≠ some ' ' ∧
    ¬[' ', ' '] <:+: (render .generic ordered).toList ∧
    WordClass.asciiOnly.runs (render .generic ordered).toList =
      ordered.outline.flatMap (Token.words .asciiOnly) :=
  ⟨filled_ordered, leaves_ordered, render_words .asciiOnly filled_ordered leaves_ordered⟩

end Statement
end SqlSelect
