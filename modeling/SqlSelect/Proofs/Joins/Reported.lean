import SqlSelect.Event
import SqlSelect.Proofs.Joins.Tree
import SqlSelect.Proofs.Node
import SqlSelect.Proofs.Tree.Rewriting
namespace SqlSelect

open Phrase

namespace Node

/-- The joins in the parts of a node. -/
def joinsIn (ps : List (Part Expr Query)) : List JoinShape :=
  partJoins (ps.map (Part.map Expr.joins Query.joins))

theorem woven_clause {x x' : Tokens} {ps : List (Part Expr Query)}
    (texts : Parallel Expr.tokens silent Query.tokens silent x x' ps) (own : x'.Unmarked) :
    Woven x (joinsIn ps) :=
  .parallel texts rfl own Expr.woven Query.woven

/-- The joins that are written for a node, at any depth, in the order of the text. -/
def joins : Node → List JoinShape
  | .body b => b.joins
  | .distinct d => joinsIn d.written
  | .expr e => e.joins
  | .fetch x => joinsIn x.written
  | .first x => joinsIn x.written
  | .groupBy b => joinsIn b.written
  | .hierarchy h => joinsIn h.written
  | .item i => joinsIn i.written
  | .join j => j.shape :: joinsIn j.written
  | .lateralView v => joinsIn v.written
  | .limit l => joinsIn l.written
  | .namedWindow w => joinsIn w.written
  | .offset o => joinsIn o.written
  | .orderBy o => joinsIn o.written
  | .preferring p => joinsIn p.written
  | .query q => q.joins
  | .relation r => joinsIn r.written
  | .select s => (Body.select s).joins
  | .skip s => joinsIn s.written
  | .top t => joinsIn t.written
  | .withClause w => joinsIn w.written
  | .aliased _ | .duration _ | .joinHint _ | .literal _ | .lock _ | .name _ | .optimizeFor _
  | .optimizerHint _ | .streamWindow _ | .table _ | .within _ => []

theorem woven (n : Node) : Woven n.tokens n.joins := by
  cases n with
  | aliased a => exact .rest a.unmarked
  | duration d => exact .rest d.unmarked
  | joinHint hint => exact .rest hint.unmarked
  | literal v => exact .rest v.unmarked
  | lock l => exact .rest l.unmarked
  | name n => exact .rest n.unmarked
  | optimizeFor o => exact .rest o.unmarked
  | optimizerHint hint => exact .rest hint.unmarked
  | streamWindow w => exact .rest w.unmarked
  | table t => exact .rest t.unmarked
  | within w => exact .rest w.unmarked
  | body b => exact b.woven
  | expr e => exact e.woven
  | query q => exact q.woven
  | select s =>
      have woven := (Body.select s).woven
      rwa [Body.tokens_select] at woven
  | join j =>
      have woven := j.woven Expr.woven Query.woven
      rwa [Join.withParts, Join.shape_map, ← Join.map_written] at woven
  | distinct d => exact woven_clause d.parallel d.unmarked
  | fetch x => exact woven_clause x.parallel x.unmarked
  | first x => exact woven_clause x.parallel x.unmarked
  | groupBy b => exact woven_clause b.parallel b.unmarked
  | hierarchy h => exact woven_clause h.parallel h.unmarked
  | item i => exact woven_clause i.parallel i.unmarked
  | lateralView v => exact woven_clause v.parallel v.unmarked
  | limit l => exact woven_clause l.parallel l.unmarked
  | namedWindow w => exact woven_clause w.parallel w.unmarked
  | offset o => exact woven_clause o.parallel o.unmarked
  | orderBy o => exact woven_clause o.parallel o.unmarked
  | preferring p => exact woven_clause p.parallel p.unmarked
  | relation r => exact woven_clause r.parallel r.unmarked
  | skip s => exact woven_clause s.parallel s.unmarked
  | top t => exact woven_clause t.parallel t.unmarked
  | withClause w => exact woven_clause w.parallel w.unmarked

end Node

/-- A select without a source has no joins. -/
def Select.detached {ε κ : Type} (s : Select ε κ) : Select ε κ :=
  { s with joins := if s.source?.isSome then s.joins else [] }

theorem Select.detached_map {ε κ α β : Type} (f : ε → α) (g : κ → β) (s : Select ε κ) :
    s.detached.map f g = (s.map f g).detached := by
  cases present : s.source? <;> simp [detached, map, present]

theorem Select.main_detached (s : Select Tokens Tokens) : s.detached.main = s.main := by
  cases present : s.source? <;> simp [main, detached, present, head, fromClause]

def detaching : Rewriting where
  select := Select.detached
  envelope := id
  select_map := Select.detached_map
  envelope_map _ _ _ := rfl

theorem detaching_writing : detaching.writing = Writing.interpretation := by
  have select : (fun s : Select Tokens Tokens => (⟨s.detached.main, s.detached.tail⟩ : Parts)) =
      Writing.interpretation.select :=
    funext fun s => congrArg (Parts.mk · s.tail) s.main_detached
  simp only [Rewriting.writing, detaching, select, id_eq]

/-- Without the joins of its selects without a source, at any depth, a query has the
    same text. -/
theorem tokens_detaching (q : Query) : (detaching.query q).tokens = q.tokens := by
  rw [Rewriting.query, detaching.writing_hom.ofQuery, detaching_writing, Query.tokens]

namespace Event

def suppressed? : Event → Option SuppressedHint
  | .hintNotRendered hint => some hint
  | _ => none

theorem filterMap_suppressed? (hints : List SuppressedHint) :
    (hints.map hintNotRendered).filterMap suppressed? = hints := by
  rw [List.filterMap_map]
  exact List.filterMap_some

end Event

/-- The joins of a text stand in it in their order, and in every dialect a hint is
    reported for just those of them that are not mere list entries, have a hint and
    are written with another word than `JOIN`, in the same order.  Without the joins
    of the selects that have no source the same is reported. -/
theorem Node.hints_reported :
    (∀ n : Node, Woven n.tokens n.joins ∧
      renderEvents n = (n.joins.filterMap Join.suppressed?).map .hintNotRendered ∧
      ∀ d, (statementEvents d n).filterMap Event.suppressed? =
        n.joins.filterMap Join.suppressed?) ∧
    ∀ q : Query, renderEvents (detaching.query q) = renderEvents q := by
  have rendered (n : Node) :
      renderEvents n = (n.joins.filterMap Join.suppressed?).map .hintNotRendered :=
    congrArg (List.map Event.hintNotRendered) n.woven.suppressedHints
  refine ⟨fun n => ⟨n.woven, rendered n, fun d => ?_⟩, fun q => ?_⟩
  · rw [statementEvents, rendered, List.filterMap_cons_none rfl, List.filterMap_append,
      Event.filterMap_suppressed?, List.filterMap_cons_none rfl, List.filterMap_nil,
      List.append_nil]
  · exact congrArg (fun ts => (Tokens.suppressedHints ts).map Event.hintNotRendered)
      (tokens_detaching q)

/-- A straight join with a hint, in a set operation after a select without a source
    that has another one. -/
example :
    let hinted : Join Expr Query :=
      { source := .table (.ofText "u"), straight := true, hint? := some .hash }
    renderEvents (Body.combined .union false
        [.select { items := [.wildcard], joins := [hinted] },
          .select { Select.fromSource (.table (.ofText "t")) with joins := [hinted] }]) =
      [.hintNotRendered ⟨.hash, true, false⟩] := by
  decide

end SqlSelect
