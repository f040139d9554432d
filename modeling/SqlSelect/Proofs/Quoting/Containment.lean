import SqlSelect.Proofs.Quoting.Blank
import SqlSelect.Proofs.Quoting.Scan
import SqlSelect.Proofs.Statement
import SqlSelect.Proofs.Text.Plain
namespace SqlSelect

open Scan

variable {d : Dialect} {mark : Char}

/-- Text that is written without quotes opens and closes none. -/
def Token.Vetted (mark : Char) : Token → Prop
  | .verbatim _ => False
  | .bare part => ∀ c ∈ part.toList, c ≠ mark ∧ c ≠ '\''
  | _ => True

/-- What a reader finds where a token is written. -/
def Token.pieces (mark : Char) : Token → List Piece
  | .ident name => [.quoted mark name.toList]
  | .string contents => [.quoted '\'' contents.toList]
  | t => (t.chars .generic).map .plain

theorem Dialect.isDelimiter_mark (quoting : d.mark? = some mark) : isDelimiter mark = true := by
  cases d <;> cases quoting <;> rfl

theorem Dialect.mark_ne_single (quoting : d.mark? = some mark) : mark ≠ '\'' := by
  cases d <;> cases quoting <;> decide

theorem ne_of_not_isDelimiter {c delimiter : Char} (delimits : isDelimiter delimiter = true)
    (other : isDelimiter c = false) : c ≠ delimiter := by
  rintro rfl
  exact Bool.false_ne_true (other.symm.trans delimits)

namespace Token

theorem ne_mark_of_mem_chars (quoting : d.mark? = some mark) {t : Token} (vetted : t.Vetted mark)
    (notIdent : t.ident? = none) (notString : t.string? = none) {c : Char}
    (member : c ∈ t.chars d) :
    c ≠ mark ∧ c ≠ '\'' := by
  have other (free : isDelimiter c = false ∨ c = ' ') : c ≠ mark ∧ c ≠ '\'' := by
    rcases free with free | rfl
    · exact ⟨ne_of_not_isDelimiter (d.isDelimiter_mark quoting) free,
        ne_of_not_isDelimiter rfl free⟩
    · refine ⟨?_, by decide⟩
      rintro rfl
      cases d <;> cases quoting
  cases t with
  | keyword word =>
      exact other (.inl (isDelimiter_of_isPlain (Keyword.isPlain_of_mem_chars member)))
  | symbol s => exact other (.inl (Symbol.apart_of_mem_chars member).2)
  | space => exact other (.inr (List.mem_singleton.mp member))
  | ident name => cases notIdent
  | string contents => cases notString
  | int value => exact other (.inl (isDelimiter_of_isPlain (isPlain_of_mem_intText member)))
  | count value => exact other (.inl (isDelimiter_of_isPlain (isPlain_of_mem_natText member)))
  | double value =>
      exact other (.inl (isDelimiter_of_isPlain (Binary64.isPlain_of_mem_text member)))
  | bare part => exact vetted c member
  | verbatim text => exact vetted.elim
  | omitted hint => cases member

/-- What delimits a word is no quotation mark. -/
theorem head?_chars_ne (quoting : d.mark? = some mark) {t : Token} (quiet : t.isContent = false)
    (seen : t.omitted? = none) (rest : List Char) :
    (t.chars d ++ rest).head? ≠ some mark ∧ (t.chars d ++ rest).head? ≠ some '\'' := by
  have written : t.chars d ≠ [] := by
    cases t with
    | symbol s => exact s.chars_ne_nil
    | space => nofun
    | omitted hint => cases seen
    | _ => cases quiet
  have plain : ∀ c ∈ t.chars d, c ≠ mark ∧ c ≠ '\'' := fun c member => by
    refine ne_mark_of_mem_chars quoting ?_ ?_ ?_ member <;> cases t <;> trivial
  obtain ⟨c, cs, text⟩ := List.exists_cons_of_ne_nil written
  have first := plain c (by rw [text]; exact List.mem_cons_self)
  rw [text]
  exact ⟨fun same => first.1 (Option.some.inj same), fun same => first.2 (Option.some.inj same)⟩

/-- A token is scanned to its pieces, when no quotation mark comes right after it. -/
theorem scan?_chars (quoting : d.mark? = some mark) {t : Token} (vetted : t.Vetted mark)
    {rest : List Char}
    (apart : t.isContent = true → rest.head? ≠ some mark ∧ rest.head? ≠ some '\'') :
    scan? mark (t.chars d ++ rest) = (scan? mark rest).map (t.pieces mark ++ ·) := by
  have plain (notIdent : t.ident? = none) (notString : t.string? = none) :
      scan? mark (t.chars d ++ rest) = (scan? mark rest).map ((t.chars d).map .plain ++ ·) :=
    scan?_plain fun c member => ne_mark_of_mem_chars quoting vetted notIdent notString member
  cases t with
  | ident name =>
      have written : Token.chars d (.ident name) = Quoted.wrap mark name.toList := by
        simp [Token.chars, Dialect.ident, quoting]
      rw [written, scan?_wrap (.inl rfl) (apart rfl).1]
      rfl
  | string contents =>
      rw [Token.chars, scan?_wrap (.inr rfl) (apart rfl).2]
      rfl
  | _ => exact plain rfl rfl

end Token

namespace Tokens

/-- A token list is scanned to the pieces of its tokens. -/
theorem scan?_chars (quoting : d.mark? = some mark) {ts : Tokens} (vetted : ∀ t ∈ ts, t.Vetted mark)
    (seen : ∀ t ∈ ts, t.omitted? = none) (apart : ts.IsChain (Token.Neighbours False)) :
    scan? mark (ts.chars d) = some (ts.flatMap (Token.pieces mark)) := by
  induction ts with
  | nil => rfl
  | cons t rest ih =>
      rw [List.isChain_cons] at apart
      have next (spoken : t.isContent = true) :
          (chars d rest).head? ≠ some mark ∧ (chars d rest).head? ≠ some '\'' := by
        cases rest with
        | nil => exact ⟨nofun, nofun⟩
        | cons u rest =>
            have quiet := Token.Neighbours.quiet_right (apart.1 u rfl) spoken
            exact u.head?_chars_ne quoting quiet (seen u (by simp)) _
      rw [chars_cons, Token.scan?_chars quoting (vetted t List.mem_cons_self) next,
        ih (fun u member => vetted u (List.mem_cons_of_mem t member))
          (fun u member => seen u (List.mem_cons_of_mem t member)) apart.2]
      rfl

theorem identifiers_pieces (single : mark ≠ '\'') (ts : Tokens) :
    (ts.flatMap (Token.pieces mark)).filterMap (Piece.contents? mark) =
      ts.filterMap Token.ident? := by
  induction ts with
  | nil => rfl
  | cons t rest ih =>
      rw [List.flatMap_cons, List.filterMap_append, ih, List.filterMap_cons]
      cases t <;>
        simp [Token.pieces, Piece.contents?, Token.ident?, List.filterMap_map, Function.comp_def,
          single.symm]

theorem strings_pieces (single : mark ≠ '\'') (ts : Tokens) :
    (ts.flatMap (Token.pieces mark)).filterMap (Piece.contents? '\'') =
      ts.filterMap Token.string? := by
  induction ts with
  | nil => rfl
  | cons t rest ih =>
      rw [List.flatMap_cons, List.filterMap_append, ih, List.filterMap_cons]
      cases t <;>
        simp [Token.pieces, Piece.contents?, Token.string?, List.filterMap_map, Function.comp_def,
          single]

theorem blank_pieces (mark : Char) (ts : Tokens) :
    (ts.flatMap (Token.pieces mark)).map Piece.blank = ts.blank.flatMap (Token.pieces mark) := by
  induction ts with
  | nil => rfl
  | cons t rest ih =>
      rw [List.flatMap_cons, List.map_append, ih, blank_cons, List.flatMap_cons]
      cases t <;> simp [Token.pieces, Token.blank, Piece.blank, Token.chars, Function.comp_def]

end Tokens

theorem Token.vetted_of_quiet {t : Token} (quiet : t.isContent = false) : t.Vetted mark := by
  cases t <;> trivial

theorem Token.vetted_blank {t : Token} : t.blank.Vetted mark ↔ t.Vetted mark := by
  cases t <;> exact Iff.rfl

namespace Statement

def blank : Statement → Statement
  | .query q => .query q.blank
  | .select s => .select s.blankTree

theorem tokens_blank (s : Statement) : s.blank.tokens = s.tokens.blank := by
  cases s with
  | query q => exact q.tokens_blank
  | select s => exact s.tokens_blankTree

theorem scan?_render (quoting : d.mark? = some mark) {s : Statement}
    (vetted : ∀ t ∈ s.tokens, t.Vetted mark) :
    scan? mark (render d s).toList = some (s.tokens.flatMap (Token.pieces mark)) := by
  have shaped : Shaped False true .piece s.tokens := s.shaped False.elim
  have apart := shaped.bounded.neighbours
  have checked : ∀ t ∈ s.tokens.visible, t.Vetted mark := fun t member =>
    vetted t (List.mem_of_mem_filter member)
  have scanned := Tokens.scan?_chars quoting checked
    (fun t member => Tokens.omitted?_of_mem_visible member) apart
  rw [Tokens.chars, Tokens.flatMap_visible fun _ => rfl, Tokens.flatMap_visible fun _ => rfl]
    at scanned
  rw [render, String.toList_ofList]
  exact scanned

/-- Scanning a rendered statement ends outside quotes.  It finds the identifiers
    and the strings of the outline, each once and in order, and a statement that
    differs only in them differs only inside the quotes. -/
theorem quotes_contain_caller_text (quoting : d.mark? = some mark) {s : Statement}
    (vetted : ∀ t ∈ s.outline, t.Vetted mark) :
    ∃ pieces, scan? mark (render d s).toList = some pieces ∧
      pieces.filterMap (Piece.contents? mark) = s.outline.identifiers ∧
      pieces.filterMap (Piece.contents? '\'') = s.outline.strings ∧
      ∀ other : Statement, other.blank = s.blank →
        ∃ others, scan? mark (render d other).toList = some others ∧
          others.map Piece.blank = pieces.map Piece.blank := by
  have single := d.mark_ne_single quoting
  have checked := forall_tokens (fun _ => Token.vetted_of_quiet) vetted
  refine ⟨_, scan?_render quoting checked, ?_, ?_, fun other same => ?_⟩
  · rw [Tokens.identifiers_pieces single, ← s.content_tokens, Tokens.identifiers_content]
  · rw [Tokens.strings_pieces single, ← s.content_tokens, Tokens.strings_content]
  · have blanks : other.tokens.blank = s.tokens.blank := by
      rw [← other.tokens_blank, same, s.tokens_blank]
    have otherChecked : ∀ t ∈ other.tokens, t.Vetted mark := fun t member => by
      have shared : t.blank ∈ s.tokens.blank := by
        rw [← blanks]
        exact List.mem_map_of_mem member
      obtain ⟨u, written, sameBlank⟩ := List.mem_map.mp shared
      rw [← Token.vetted_blank, ← sameBlank, Token.vetted_blank]
      exact checked u written
    refine ⟨_, scan?_render quoting otherChecked, ?_⟩
    rw [Tokens.blank_pieces, Tokens.blank_pieces, blanks]

/-- A select with quotation marks in its names and in its string. -/
def marked : Statement :=
  .select (.filtered (.table (.ofName ⟨["o'clock", "a\"b"]⟩))
    (.binary .eq (.call ⟨⟨["lower"]⟩, [.column ⟨["\"\""]⟩], false⟩)
      (.literal (.string "it's \"'"))))

theorem vetted_marked : ∀ t ∈ marked.outline, t.Vetted '"' := by
  have outline : marked.outline = [.keyword .SELECT, .keyword .FROM, .ident "o'clock",
      .ident "a\"b", .keyword .WHERE, .bare "lower", .ident "\"\"", .string "it's \"'"] := rfl
  simp [outline, Token.Vetted]

theorem quotes_contain_marked : Dialect.sqlite.mark? = some '"' ∧
    (∀ t ∈ marked.outline, t.Vetted '"') ∧
    ∃ pieces, scan? '"' (render .sqlite marked).toList = some pieces ∧
      pieces.filterMap (Piece.contents? '"') = marked.outline.identifiers ∧
      pieces.filterMap (Piece.contents? '\'') = marked.outline.strings ∧
      ∀ other : Statement, other.blank = marked.blank →
        ∃ others, scan? '"' (render .sqlite other).toList = some others ∧
          others.map Piece.blank = pieces.map Piece.blank :=
  ⟨rfl, vetted_marked, quotes_contain_caller_text rfl vetted_marked⟩

end Statement
end SqlSelect
