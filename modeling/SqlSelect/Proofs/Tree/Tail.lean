import SqlSelect.Proofs.Tree.Bodies
namespace SqlSelect

open Phrase

variable {ε κ : Type}

namespace Select

def withoutTail (s : Select ε κ) : Select ε κ := { s with optimizeFor? := none, xmlPath? := none }

/-- The text of the clauses that come last. -/
def tailText (s : Select ε κ) : String :=
  (match s.optimizeFor? with
    | none => ""
    | some o => " OPTIMIZE FOR " ++ toString o.rows.toNat ++ " ROWS") ++
  (match s.xmlPath? with
    | none => ""
    | some path => " FOR XML PATH(" ++ path ++ ")")

theorem chars_tail (d : Dialect) (s : Select ε κ) : s.tail.chars d = s.tailText.toList := by
  rw [tail, tailText, Tokens.chars_append, String.toList_append]
  congr 1
  · cases s.optimizeFor? with
    | none => rfl
    | some o =>
        have digits : (toString o.rows.toNat).toList = natText o.rows.toNat := by
          simp [natText, Nat.repr]
        rw [String.toList_append, String.toList_append, digits]
        simp [Phrase.optional, OptimizeFor.tokens, words, word, spaced, Token.chars, Keyword.chars,
          Keyword.text]
  · cases s.xmlPath? with
    | none => rfl
    | some path =>
        rw [String.toList_append, String.toList_append]
        simp [Phrase.optional, parens, words, word, spaced, Token.chars, Keyword.chars,
          Keyword.text, Symbol.chars, Symbol.text]

end Select

theorem Envelope.eq_of_isBare {e : Envelope ε κ} (bare : e.isBare = true) : e = {} := by
  obtain ⟨with?, orderBy?, limit?, offset?, fetch?, locks⟩ := e
  simpa [isBare, and_assoc] using bare

theorem Query.tokens_of_isBare {q : Query} (bare : q.isBare = true) :
    q.tokens = q.body.tokens := by
  obtain ⟨envelope, body⟩ := q
  obtain rfl := Envelope.eq_of_isBare bare
  rw [tokens_mk]
  simp [Envelope.map, Envelope.leading, Envelope.trailing, Phrase.optional, Body.tokens,
    Parts.whole]

theorem Body.tokens_ofQuery (q : Query) :
    (Body.ofQuery q).tokens = if q.isBare then q.tokens else parens q.tokens := by
  rw [ofQuery]
  cases bare : q.isBare with
  | true => simp only [if_true, Query.tokens_of_isBare bare]
  | false =>
      simp only [Bool.false_eq_true, if_false]
      exact tokens_enclosed q

section

variable {d : Dialect}

/-- Texts that differ in the last clauses of one select. -/
theorem Select.render_of_tail {τ : Type} [Written τ] {node rest : τ} {s : Select Expr Query}
    (written : Written.tokens node = Written.tokens rest ++ s.tail) :
    render d node = render d rest ++ s.tailText := by
  rw [render, render, written, Tokens.chars_append, chars_tail, String.ofList_append,
    String.ofList_toList]

theorem Select.render_eq_withoutTail (s : Select Expr Query) :
    render d s = render d s.withoutTail ++ s.tailText := by
  have rest : Written.tokens s.withoutTail = (s.map Expr.tokens Query.tokens).main :=
    List.append_nil _
  refine render_of_tail ?_
  rw [rest]
  rfl

theorem Query.render_eq_withoutTail (envelope : Envelope Expr Query) (s : Select Expr Query) :
    render d (Query.mk envelope (.select s)) =
      render d (Query.mk envelope (.select s.withoutTail)) ++ s.tailText := by
  have rest : Written.tokens (Query.mk envelope (.select s.withoutTail)) =
      (envelope.map Expr.tokens Query.tokens).leading ++ (s.map Expr.tokens Query.tokens).main ++
        (envelope.map Expr.tokens Query.tokens).trailing := by
    refine (Query.tokens_mk ..).trans ?_
    rw [Body.parts_select]
    exact List.append_nil _
  refine Select.render_of_tail ?_
  rw [rest]
  refine (Query.tokens_mk ..).trans ?_
  rw [Body.parts_select]
  rfl

theorem Body.render_ofQuery (q : Query) :
    render d (Body.ofQuery q) = if q.isBare then render d q else "(" ++ render d q ++ ")" := by
  have text : render d (Body.ofQuery q) = String.ofList ((Body.ofQuery q).tokens.chars d) := rfl
  rw [text, tokens_ofQuery]
  cases bare : q.isBare with
  | true => rfl
  | false =>
      have enclosed : (parens q.tokens).chars d = '(' :: ((render d q).toList ++ [')']) := by
        rw [render, String.toList_ofList]
        simp [parens, Token.chars, Symbol.chars, Symbol.text, Written.tokens]
      simp only [Bool.false_eq_true, if_false, enclosed]
      apply String.ext
      simp

end

/-- A select is written by itself as it is inside a query, except that the query
    puts its clauses before the last ones of the select.  As an operand a query is
    written as by itself, in parentheses when it has clauses of its own. -/
theorem Select.routes_agree (d : Dialect) (s : Select Expr Query) :
    render d s = render d s.withoutTail ++ s.tailText ∧
      (∀ envelope : Envelope Expr Query,
        render d (Query.mk envelope (.select s)) =
          render d (Query.mk envelope (.select s.withoutTail)) ++ s.tailText) ∧
      (∀ q : Query, render d (Body.ofQuery q) =
        if q.isBare then render d q else "(" ++ render d q ++ ")") ∧
      ∀ b : Body, Body.ofQuery (Query.of b) = b :=
  ⟨s.render_eq_withoutTail, fun envelope => Query.render_eq_withoutTail envelope s,
    Body.render_ofQuery, fun _ => rfl⟩

end SqlSelect
