import SqlSelect.Proofs.Joins.Woven
import SqlSelect.Proofs.Tree.Homomorphism
import SqlSelect.Tree.Tokens
namespace SqlSelect

open Phrase

def Join.withParts (j : Join (List JoinShape) (List JoinShape)) : List JoinShape :=
  j.shape :: partJoins j.written

/-- A select without a source writes none of its joins. -/
def Select.writtenJoins (s : Select (List JoinShape) (List JoinShape)) : List JoinShape :=
  partJoins s.headWritten ++ partJoins (s.items.flatMap Item.written) ++
    match s.source? with
    | some source =>
        partJoins (s.openingWritten source) ++ s.joins.flatMap Join.withParts ++
          partJoins s.closingWritten
    | none => partJoins (Select.conditionWritten s.filter?)

namespace Joins

def interpretation : Interpretation (List JoinShape) (List JoinShape) (List JoinShape) where
  all operands := operands.flatten
  any operands := operands.flatten
  binary _ left right := left ++ right
  column _ := []
  call c := c.args.flatten
  inList subject members _ := subject ++ members.flatten
  isNull subject _ := subject
  nested inner := inner
  not operand := operand
  raw _ := []
  subquery query := query
  literal _ := []
  select s := s.writtenJoins
  combined _ _ operands := operands.flatten
  enclosed query := query
  query envelope body :=
    partJoins envelope.leadingWritten ++ body ++ partJoins envelope.trailingWritten

end Joins

def Expr.joins (e : Expr) : List JoinShape := Joins.interpretation.ofExpr e

def Body.joins (b : Body) : List JoinShape := Joins.interpretation.ofBody b

def Query.joins (q : Query) : List JoinShape := Joins.interpretation.ofQuery q

section

variable {ε κ : Type} {f : ε → Tokens} {g : κ → Tokens} {h : ε → List JoinShape}
variable {k : κ → List JoinShape}
variable (exprs : ∀ e, Woven (f e) (h e)) (queries : ∀ q, Woven (g q) (k q))
include exprs

theorem Call.woven (c : Call ε) : Woven (c.map f).tokens (c.args.flatMap h) := by
  have woven : Woven (c.map f).tokens (partJoins (c.map h).written) :=
    .parallel c.parallel c.map_written c.unmarked exprs fun _ : Unit => .rest (unmarked_silent ())
  simpa [partJoins, written, map, List.flatMap_map, Part.joins] using woven

include queries

/-- A join stands in its text before the joins of its parts. -/
theorem Join.woven (j : Join ε κ) : Woven (j.map f g).tokens (j.map h k).withParts := by
  have own : (onlyIf j.global (thenSpace (word .GLOBAL))).Unmarked := by simp
  have source : Woven (j.map f g).source.tokens (partJoins (j.map h k).source.written) :=
    .parallel j.source.parallel j.source.map_written j.source.unmarked exprs queries
  have conditions : Woven (j.map f g).conditions (partJoins ((j.map h k).on.map .expr)) :=
    .parallel j.parallel_conditions (by simp [map]) j.unmarked_conditions exprs queries
  have rest := (source.before (j.map f g).unmarked_window).append conditions
  rw [← partJoins_append] at rest
  rw [withParts, shape_map, tokens, List.append_assoc, List.append_assoc,
    ← List.append_assoc (Join.source _).tokens]
  exact .join own j.shape rest

theorem Join.woven_listed (j : Join ε κ) : Woven (j.map f g).listed (j.map h k).withParts :=
  .after (by simp) (.spaced (j.woven exprs queries))

theorem Select.woven_fromClause (s : Select ε κ) (source : Relation ε κ) :
    Woven ((s.map f g).fromClause (source.map f g))
      (partJoins ((s.map h k).openingWritten (source.map h k)) ++
        (s.map h k).joins.flatMap Join.withParts ++ partJoins (s.map h k).closingWritten) := by
  rw [fromClause_eq]
  refine .append (.append ?opening ?joins) ?closing
  case opening =>
      exact .parallel (s.parallel_opening source) (s.map_openingWritten source)
        (s.unmarked_opening source) exprs queries
  case joins =>
      simp only [map, List.flatMap_map]
      exact .flatMap (fun j => j.woven_listed exprs queries) s.joins
  case closing =>
      exact .parallel s.parallel_closing s.map_closingWritten s.unmarked_closing exprs queries

theorem Select.woven_main (s : Select ε κ) : Woven (s.map f g).main (s.map h k).writtenJoins := by
  refine .before (.append (.before (.append (.after (by simp) ?head) ?items) (by simp)) ?source)
    (by simp)
  case head => exact .parallel s.parallel_head s.map_headWritten s.unmarked_head exprs queries
  case items =>
      have written : (s.items.flatMap Item.written).map (Part.map h k) =
          (s.map h k).items.flatMap Item.written := by
        simp [map, List.map_flatMap, List.flatMap_map]
      exact .parallel (.commas Item.parallel s.items) written (by simp) exprs queries
  case source =>
      cases present : s.source? with
      | none =>
          have written : (conditionWritten s.filter?).map (Part.map h k) =
              conditionWritten (s.filter?.map h) := by
            simp [conditionWritten, Option.toList_map]
          have woven : Woven (clause .WHERE (s.filter?.map f)) _ :=
            .parallel (parallel_clause .WHERE s.filter?) written (by simp [clause]) exprs queries
          simpa only [map, present, Option.map_none] using woven
      | some source =>
          have woven := s.woven_fromClause exprs queries source
          simpa only [map, present, Option.map_some] using woven

end

theorem Joins.related :
    Interpretation.Related Writing.interpretation Joins.interpretation Woven
      (fun p js => Woven p.main js ∧ p.tail.Unmarked) Woven where
  all f f' parts operands := .joined (by simp) parts operands
  any f f' parts operands := .joined (by simp) parts operands
  binary op _ _ _ _ left right :=
    (left.before (unmarked_spaced.mpr op.unmarked)).append right.spaced
  column name := .rest name.unmarked
  call f f' parts c := c.woven parts
  inList f f' parts subject members negated := by
    have listed : Woven (commas (members.map f)) (members.flatMap f') :=
      .joined (by simp) parts members
    exact (((parts subject).before (by simp)).before (by simp)).append listed.parens.spaced
  isNull negated _ _ subject :=
    ((subject.before (by simp)).before (by simp)).before (by simp)
  nested inner := inner.parens
  not operand := .after (by simp) operand.spaced
  raw text := .rest (by simp [Writing.interpretation])
  subquery query := query.parens
  literal value := .rest value.unmarked
  select f f' parts g g' queries s := ⟨s.woven_main parts queries, (s.map f g).unmarked_tail⟩
  combined op all ε f f' parts operands := by
    have whole (b : ε) : Woven (f b).whole (f' b) := (parts b).1.before (parts b).2
    have own : (Writing.separator op all).Unmarked := by
      cases op <;> simp [Writing.separator, SetOperator.keyword]
    refine ⟨?_, unmarked_nil⟩
    simp only [Writing.interpretation, List.map_map]
    exact .joined own whole operands
  enclosed query := ⟨query.parens, unmarked_nil⟩
  query f f' parts g g' queries envelope b b' body := by
    have leading : Woven (envelope.map f g).leading _ :=
      .parallel envelope.parallel_leading envelope.map_leadingWritten envelope.unmarked_leading
        parts queries
    have trailing : Woven (envelope.map f g).trailing _ :=
      .parallel envelope.parallel_trailing envelope.map_trailingWritten envelope.unmarked_trailing
        parts queries
    exact ((leading.append body.1).append trailing).before body.2

theorem Expr.woven (e : Expr) : Woven e.tokens e.joins := Joins.related.ofExpr e

theorem Query.woven (q : Query) : Woven q.tokens q.joins := Joins.related.ofQuery q

theorem Body.woven (b : Body) : Woven b.tokens b.joins :=
  (Joins.related.ofBody b).1.before (Joins.related.ofBody b).2

end SqlSelect
