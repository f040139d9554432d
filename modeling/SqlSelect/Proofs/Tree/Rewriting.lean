import SqlSelect.Proofs.Parallel.Select
import SqlSelect.Proofs.Tree.Bodies
import SqlSelect.Proofs.Tree.Homomorphism
namespace SqlSelect

/-! A rewriting changes the slots of selects and envelopes, at every depth of a tree,
without regard to the parts in them.  When each change by itself leaves the text
of its clause as it is, the text of the whole tree stays as it is.
-/

structure Rewriting where
  select {ε κ : Type} : Select ε κ → Select ε κ
  envelope {ε κ : Type} : Envelope ε κ → Envelope ε κ
  select_map {ε κ α β : Type} (f : ε → α) (g : κ → β) (s : Select ε κ) :
    (select s).map f g = select (s.map f g)
  envelope_map {ε κ α β : Type} (f : ε → α) (g : κ → β) (e : Envelope ε κ) :
    (envelope e).map f g = envelope (e.map f g)

namespace Rewriting

variable (r : Rewriting) {d : Dialect}

def interpretation : Interpretation Expr Body Query where
  all := .all
  any := .any
  binary := .binary
  column := .column
  call := .call
  inList := .inList
  isNull := .isNull
  nested := .nested
  not := .not
  raw := .raw
  subquery := .subquery
  literal := .literal
  select s := .select (r.select s)
  combined := .combined
  enclosed := .enclosed
  query envelope body := ⟨r.envelope envelope, body⟩

/-- How a node is written once its own slots are rewritten. -/
def writing : Interpretation Tokens Parts Tokens :=
  { Writing.interpretation with
    select s := ⟨(r.select s).main, (r.select s).tail⟩
    query envelope body := Writing.interpretation.query (r.envelope envelope) body }

theorem writing_hom :
    Interpretation.Hom r.interpretation r.writing Expr.tokens Body.parts Query.tokens where
  all operands := congrArg Writing.interpretation.all (Interpretation.ofExprs_eq _ operands)
  any operands := congrArg Writing.interpretation.any (Interpretation.ofExprs_eq _ operands)
  binary op left right := rfl
  column name := rfl
  call c := congrArg Writing.interpretation.call (Interpretation.ofCall_eq _ c)
  inList subject members negated :=
    congrArg (Writing.interpretation.inList subject.tokens · negated)
      (Interpretation.ofExprs_eq _ members)
  isNull subject negated := rfl
  nested inner := rfl
  not operand := rfl
  raw text := rfl
  subquery query := rfl
  literal value := rfl
  select s := by
    have written := Body.parts_select (r.select s)
    rw [r.select_map] at written
    exact written
  combined op all operands :=
    congrArg (Writing.interpretation.combined op all) (Interpretation.ofBodies_eq _ operands)
  enclosed query := rfl
  query envelope body := by
    have written := Query.tokens_mk (r.envelope envelope) body
    rw [r.envelope_map] at written
    exact written

/-- The rewriting of one clause changes no character of its text. -/
structure Unseen (d : Dialect) : Prop where
  main (s : Select Tokens Tokens) : (r.select s).main.chars d = s.main.chars d
  tail (s : Select Tokens Tokens) : (r.select s).tail.chars d = s.tail.chars d
  leading (e : Envelope Tokens Tokens) : (r.envelope e).leading.chars d = e.leading.chars d
  trailing (e : Envelope Tokens Tokens) : (r.envelope e).trailing.chars d = e.trailing.chars d

variable {r}

section

variable {ε : Type} {f f' : ε → Tokens} (parts : ∀ e, (f e).chars d = (f' e).chars d)
include parts

theorem chars_joined (separator : Tokens) (es : List ε) :
    (Phrase.joined separator (es.map f)).chars d = (Phrase.joined separator (es.map f')).chars d := by
  have texts : Parallel f f' (fun _ : Unit => []) (fun _ => [])
      (Phrase.joined separator (es.map f)) (Phrase.joined separator (es.map f'))
      (es.flatMap fun e => [.expr e]) :=
    .joined fun e _ => .expr e
  exact texts.chars_eq parts fun _ => rfl

theorem chars_call (c : Call ε) : (c.map f).tokens.chars d = (c.map f').tokens.chars d := by
  have texts : Parallel f f' (fun _ : Unit => []) (fun _ => []) (c.map f).tokens (c.map f').tokens
      c.written := c.parallel
  exact texts.chars_eq parts fun _ => rfl

end

theorem Unseen.related (unseen : r.Unseen d) :
    Interpretation.Related Writing.interpretation r.writing
      (fun ts ts' => ts.chars d = ts'.chars d)
      (fun b b' => b.main.chars d = b'.main.chars d ∧ b.tail.chars d = b'.tail.chars d)
      (fun ts ts' => ts.chars d = ts'.chars d) where
  all f f' parts operands := chars_joined parts _ operands
  any f f' parts operands := chars_joined parts _ operands
  binary op _ _ _ _ left right := by
    simp [Writing.interpretation, writing, Phrase.spaced, left, right]
  column name := rfl
  call f f' parts c := chars_call parts c
  inList f f' parts subject members negated := by
    have listed := chars_joined parts [.symbol .comma, .space] members
    simp only [Writing.interpretation, writing, Phrase.commas, Phrase.parens, Phrase.spaced,
      Tokens.chars_append, Tokens.chars_cons, parts subject, listed]
  isNull negated _ _ subject := by simp [Writing.interpretation, writing, subject]
  nested inner := by simp [Writing.interpretation, writing, Phrase.parens, inner]
  not operand := by simp [Writing.interpretation, writing, Phrase.spaced, operand]
  raw text := rfl
  subquery query := by simp [Writing.interpretation, writing, Phrase.parens, query]
  literal value := rfl
  select f f' parts g g' queries s := by
    refine ⟨?_, (unseen.tail (s.map f' g')).symm⟩
    exact (s.parallel_main.chars_eq parts queries).trans (unseen.main (s.map f' g')).symm
  combined op all ε f f' parts operands := by
    have whole (b : ε) : (f b).whole.chars d = (f' b).whole.chars d := by
      simp only [Parts.whole, Tokens.chars_append, parts b]
    refine ⟨?_, rfl⟩
    simp only [Writing.interpretation, writing, List.map_map]
    exact chars_joined whole _ operands
  enclosed query := by simp [Writing.interpretation, writing, Phrase.parens, query]
  query f f' parts g g' queries envelope b b' body := by
    have leading : (envelope.map f g).leading.chars d =
        (r.envelope (envelope.map f' g')).leading.chars d :=
      (envelope.parallel_leading.chars_eq parts queries).trans (unseen.leading _).symm
    have trailing : (envelope.map f g).trailing.chars d =
        (r.envelope (envelope.map f' g')).trailing.chars d :=
      (envelope.parallel_trailing.chars_eq parts queries).trans (unseen.trailing _).symm
    simp only [Writing.interpretation, writing, Tokens.chars_append, leading, trailing, body]

variable (r)

def expr (e : Expr) : Expr := r.interpretation.ofExpr e

def query (q : Query) : Query := r.interpretation.ofQuery q

def selectTree (s : Select Expr Query) : Select Expr Query := r.select (s.map r.expr r.query)

variable {r}

theorem Unseen.chars_expr (unseen : r.Unseen d) (e : Expr) :
    (r.expr e).tokens.chars d = e.tokens.chars d := by
  rw [expr, r.writing_hom.ofExpr]
  exact (unseen.related.ofExpr e).symm

theorem Unseen.chars_query (unseen : r.Unseen d) (q : Query) :
    (r.query q).tokens.chars d = q.tokens.chars d := by
  rw [query, r.writing_hom.ofQuery]
  exact (unseen.related.ofQuery q).symm

theorem parts_selectTree (s : Select Expr Query) :
    (Body.select (r.selectTree s)).parts = r.writing.ofBody (.select s) := by
  have body : r.interpretation.ofBody (.select s) = .select (r.selectTree s) := by
    rw [Interpretation.ofBody, Interpretation.ofSelect_eq]
    rfl
  rw [← body, r.writing_hom.ofBody]

theorem Unseen.chars_select (unseen : r.Unseen d) (s : Select Expr Query) :
    (Written.tokens (r.selectTree s)).chars d = (Written.tokens s).chars d := by
  obtain ⟨main, tail⟩ := unseen.related.ofBody (.select s)
  rw [← Body.tokens_select, ← Body.tokens_select, Body.tokens, Body.tokens, parts_selectTree,
    Parts.whole, Parts.whole, Tokens.chars_append, Tokens.chars_append, ← main, ← tail]
  rfl

end Rewriting
end SqlSelect
