import SqlSelect.Proofs.Quoting.Containment
import SqlSelect.Proofs.Tree.Nesting
namespace SqlSelect

open Scan

variable {d : Dialect} {mark : Char}

def Piece.text : Piece → List Char
  | .plain c => [c]
  | .quoted mark contents => Quoted.wrap mark contents

/-- Outside quotes, every parenthesis that is opened is closed, and none is closed
    before it is opened. -/
structure Balanced (pieces : List Piece) : Prop where
  closed : pieces.count (.plain ')') = pieces.count (.plain '(')
  opened : ∀ front rest, front ++ rest = pieces →
    front.count (.plain ')') ≤ front.count (.plain '(')

namespace Balanced

variable {x y : List Piece}

theorem of_flat (flat : ∀ p ∈ x, p ≠ .plain '(' ∧ p ≠ .plain ')') : Balanced x where
  closed := by
    rw [List.count_eq_zero.mpr fun member => (flat _ member).2 rfl,
      List.count_eq_zero.mpr fun member => (flat _ member).1 rfl]
  opened front rest whole := by
    have unclosed : front.count (.plain ')') = 0 :=
      List.count_eq_zero.mpr fun member =>
        (flat _ (whole ▸ List.mem_append_left rest member)).2 rfl
    omega

theorem append (first : Balanced x) (rest : Balanced y) : Balanced (x ++ y) where
  closed := by rw [List.count_append, List.count_append, first.closed, rest.closed]
  opened front back whole := by
    rcases List.append_eq_append_iff.mp whole with ⟨more, inFirst, -⟩ | ⟨more, rfl, inRest⟩
    · exact first.opened front more inFirst.symm
    · have ahead := rest.opened more back inRest.symm
      rw [List.count_append, List.count_append, first.closed]
      omega

theorem parens (inside : Balanced x) :
    Balanced (.plain '(' :: (x ++ [.plain ')'])) where
  closed := by
    have same := inside.closed
    simp [List.count_append, same]
  opened front back whole := by
    cases front with
    | nil => exact Nat.le_refl 0
    | cons p front =>
        obtain ⟨rfl, tail⟩ := List.cons.inj whole
        -- The parenthesis before them makes up for the one that may end what is in front.
        have extra : front.count (.plain ')') ≤ front.count (.plain '(') + 1 := by
          rcases List.append_eq_append_iff.mp tail with
            ⟨more, inInside, -⟩ | ⟨more, rfl, closing⟩
          · have ahead := inside.opened front more inInside.symm
            omega
          · have last : more.count (.plain ')') ≤ 1 := by
              have single : more.Sublist [.plain ')'] :=
                closing ▸ List.sublist_append_left more back
              simpa using single.count_le (.plain ')')
            rw [List.count_append, List.count_append, inside.closed]
            omega
        simp only [List.count_cons]
        simpa using extra

end Balanced

/-- Text that is written without quotes holds no quotation mark and no
    parenthesis. -/
def Token.Unbracketed (mark : Char) : Token → Prop
  | .verbatim _ => False
  | .bare part => ∀ c ∈ part.toList, c ≠ mark ∧ c ≠ '\'' ∧ c ≠ '(' ∧ c ≠ ')'
  | _ => True

namespace Token

theorem Unbracketed.vetted {t : Token} (unbracketed : t.Unbracketed mark) : t.Vetted mark := by
  cases t with
  | bare part => exact fun c member => ⟨(unbracketed c member).1, (unbracketed c member).2.1⟩
  | verbatim text => exact unbracketed
  | _ => trivial

theorem unbracketed_of_quiet {t : Token} (quiet : t.isContent = false) : t.Unbracketed mark := by
  cases t <;> trivial

/-- Only the two parentheses have a parenthesis among their pieces. -/
theorem pieces_flat {t : Token} (unbracketed : t.Unbracketed mark)
    (single : t ≠ .symbol .openParen ∧ t ≠ .symbol .closeParen) :
    ∀ p ∈ t.pieces mark, p ≠ .plain '(' ∧ p ≠ .plain ')' := by
  have written {cs : List Char} (free : ∀ c ∈ cs, c ≠ '(' ∧ c ≠ ')') :
      ∀ p ∈ cs.map Piece.plain, p ≠ .plain '(' ∧ p ≠ .plain ')' := by
    refine List.forall_mem_map.mpr fun c member => ?_
    simpa using free c member
  have plain {c : Char} (plain : isPlain c = true) : c ≠ '(' ∧ c ≠ ')' := by
    constructor <;> rintro rfl <;> cases plain
  cases t with
  | keyword word => exact written fun c member => plain (Keyword.isPlain_of_mem_chars member)
  | symbol s =>
      refine written fun c member => ?_
      have every : s.chars.all (fun c => c ≠ '(' && c ≠ ')') = true := by
        cases s with
        | openParen => exact absurd rfl single.1
        | closeParen => exact absurd rfl single.2
        | _ => decide
      simpa using List.all_eq_true.mp every c member
  | space | omitted hint => exact written (by simp [chars])
  | ident name | string contents => simp [pieces]
  | int value => exact written fun c member => plain (isPlain_of_mem_intText member)
  | count value => exact written fun c member => plain (isPlain_of_mem_natText member)
  | double value => exact written fun c member => plain (Binary64.isPlain_of_mem_text member)
  | bare part => exact written fun c member => (unbracketed c member).2.2
  | verbatim text => exact unbracketed.elim

theorem text_pieces (quoting : d.mark? = some mark) (t : Token) :
    (t.pieces mark).flatMap Piece.text = t.chars d := by
  have plain (cs : List Char) : (cs.map Piece.plain).flatMap Piece.text = cs := by
    induction cs with
    | nil => rfl
    | cons c rest ih => exact congrArg (c :: ·) ih
  cases t with
  | ident name => simp [pieces, Piece.text, chars, Dialect.ident, quoting]
  | string contents => simp [pieces, Piece.text, chars]
  | _ => exact plain _

end Token

theorem Tokens.text_pieces (quoting : d.mark? = some mark) (ts : Tokens) :
    (ts.flatMap (Token.pieces mark)).flatMap Piece.text = ts.chars d := by
  rw [List.flatMap_assoc, Tokens.chars]
  exact congrArg (ts.flatMap ·) (funext (Token.text_pieces quoting))

/-- What is laid out by the rules is put together from tokens that are no
    parentheses and from phrases in parentheses. -/
theorem Shaped.compose {P : Tokens → Prop} (nothing : P [])
    (token : ∀ t, t ≠ .symbol .openParen ∧ t ≠ .symbol .closeParen → P [t])
    (append : ∀ x y, P x → P y → P (x ++ y)) (parens : ∀ x, P x → P (Phrase.parens x))
    {full : Prop} {sets : Bool} {place : Place} {ts : Tokens}
    (shaped : Shaped full sets place ts) : P ts := by
  have symbol {s : Symbol} (single : s.isParen = false) : P [.symbol s] :=
    token _ ⟨(by rintro ⟨⟩; cases single), (by rintro ⟨⟩; cases single)⟩
  have space : P [.space] := token _ ⟨nofun, nofun⟩
  induction shaped with
  | nothing | noLead | noTrail => exact nothing
  | token spoken => exact token _ ⟨(by rintro rfl; cases spoken), (by rintro rfl; cases spoken)⟩
  | mark single => exact symbol single
  | omitted => exact token _ ⟨nofun, nofun⟩
  | enclosed _ inside | attached _ inside => exact parens _ inside
  | led _ _ first rest | trailed _ _ first rest | leads _ _ first rest | trails _ _ first rest =>
      exact append _ _ first rest
  | before _ first => exact append _ _ first space
  | after _ rest => exact append _ _ space rest
  | glued single _ rest | marked single _ rest => exact append _ _ (symbol single) rest
  | innerPiece _ inside | innerLead _ inside => exact inside

theorem Shaped.balanced {full : Prop} {sets : Bool} {place : Place} {ts : Tokens}
    (shaped : Shaped full sets place ts) (unbracketed : ∀ t ∈ ts, t.Unbracketed mark) :
    Balanced (ts.flatMap (Token.pieces mark)) := by
  revert unbracketed
  refine compose (P := fun ts => (∀ t ∈ ts, t.Unbracketed mark) →
      Balanced (ts.flatMap (Token.pieces mark))) (fun _ => .of_flat nofun)
    (fun t single unbracketed => ?token) (fun x y first rest unbracketed => ?append)
    (fun x inside unbracketed => ?parens) shaped
  case token =>
      rw [List.flatMap_singleton]
      exact .of_flat (t.pieces_flat (unbracketed t (List.mem_singleton_self t)) single)
  case append =>
      rw [List.flatMap_append]
      exact .append (first fun t member => unbracketed t (List.mem_append_left y member))
        (rest fun t member => unbracketed t (List.mem_append_right x member))
  case parens =>
      have pieces : (Phrase.parens x).flatMap (Token.pieces mark) =
          .plain '(' :: (x.flatMap (Token.pieces mark) ++ [.plain ')']) := by
        rw [Phrase.parens, List.flatMap_cons, List.flatMap_append]
        rfl
      rw [pieces]
      exact .parens (inside fun t member => unbracketed t (by simp [Phrase.parens, member]))

namespace Statement

/-- The parentheses of a rendered statement are balanced, and each query nested in
    it is written between two that match, with nothing else between them. -/
theorem parentheses_enclose_queries (quoting : d.mark? = some mark) {s : Statement}
    (unbracketed : ∀ t ∈ s.outline, t.Unbracketed mark) :
    ∃ pieces, scan? mark (render d s).toList = some pieces ∧
      pieces.flatMap Piece.text = (render d s).toList ∧ Balanced pieces ∧
      ∀ q, s.Nests q → ∃ before inside after,
        pieces = before ++ .plain '(' :: (inside ++ .plain ')' :: after) ∧
        inside.flatMap Piece.text = (render d q).toList ∧ Balanced inside := by
  have checked := forall_tokens (fun _ => Token.unbracketed_of_quiet) unbracketed
  have vetted : ∀ t ∈ s.tokens, t.Vetted mark := fun t member => (checked t member).vetted
  have shaped : Shaped False true .piece s.tokens := s.shaped False.elim
  refine ⟨_, scan?_render quoting vetted, ?_, shaped.balanced checked, fun q nested => ?_⟩
  · rw [Tokens.text_pieces quoting, render, String.toList_ofList]
    rfl
  · obtain ⟨before, after, text⟩ := nested.infix
    have inner : ∀ t ∈ q.tokens, t.Unbracketed mark := fun t member =>
      checked t (text ▸ by simp [Phrase.parens, member])
    have nestedShaped : Shaped False true .piece q.tokens := Query.shaped False.elim
    refine ⟨before.flatMap (Token.pieces mark), q.tokens.flatMap (Token.pieces mark),
      after.flatMap (Token.pieces mark), ?_, ?_, nestedShaped.balanced inner⟩
    · rw [← text, List.flatMap_append, List.flatMap_append, Phrase.parens, List.flatMap_cons,
        List.flatMap_append, List.append_assoc]
      simp [Token.pieces, Token.chars, Symbol.chars, Symbol.text]
    · rw [Tokens.text_pieces quoting, render, String.toList_ofList]
      rfl

def sorted : Query :=
  { envelope := { orderBy? := some (.ofKey (.of (.column ⟨["a)"]⟩))) }
    body := .select (.fromSource (.table (.ofText "u"))) }

/-- The sorted query as the condition of a select whose names have parentheses in
    them. -/
def bracketed : Statement :=
  .select (.filtered (.table (.ofText "(t"))
    (.binary .eq (.call ⟨⟨["lower"]⟩, [.column ⟨["("]⟩], false⟩) (.subquery sorted)))

theorem unbracketed_bracketed : ∀ t ∈ bracketed.outline, t.Unbracketed '"' := by
  have outline : bracketed.outline = [.keyword .SELECT, .keyword .FROM, .ident "(t",
      .keyword .WHERE, .bare "lower", .ident "(", .keyword .SELECT, .keyword .FROM, .ident "u",
      .keyword .ORDER, .keyword .BY, .ident "a)"] := rfl
  rw [outline]
  simp [Token.Unbracketed]

theorem bracketed_nests : bracketed.Nests sorted := by
  have inCondition : Subtree.Below (.query sorted) (.expr (.subquery sorted)) :=
    .single List.mem_cons_self
  have inComparison : Subtree.Below (.query sorted)
      (.expr (.binary .eq (.call ⟨⟨["lower"]⟩, [.column ⟨["("]⟩], false⟩) (.subquery sorted))) :=
    .tail inCondition (List.mem_cons_of_mem _ List.mem_cons_self)
  exact .tail inComparison List.mem_cons_self

theorem parentheses_enclose_sorted : Dialect.postgresql.mark? = some '"' ∧
    (∀ t ∈ bracketed.outline, t.Unbracketed '"') ∧ bracketed.Nests sorted ∧
    ∃ pieces before inside after,
      scan? '"' (render .postgresql bracketed).toList = some pieces ∧ Balanced pieces ∧
      pieces = before ++ .plain '(' :: (inside ++ .plain ')' :: after) ∧
      inside.flatMap Piece.text = (render .postgresql sorted).toList ∧ Balanced inside := by
  obtain ⟨pieces, scanned, -, balanced, nested⟩ :=
    parentheses_enclose_queries (d := .postgresql) rfl unbracketed_bracketed
  obtain ⟨before, inside, after, found⟩ := nested sorted bracketed_nests
  exact ⟨rfl, unbracketed_bracketed, bracketed_nests, pieces, before, inside, after, scanned,
    balanced, found⟩

end Statement
end SqlSelect
