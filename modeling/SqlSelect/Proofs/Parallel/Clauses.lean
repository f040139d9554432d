import SqlSelect.Clause.Envelope
import SqlSelect.Clause.Select
import SqlSelect.Proofs.Parallel.Basic
namespace SqlSelect

open Phrase

variable {ε κ : Type} {f f' : ε → Tokens} {g g' : κ → Tokens}

def Call.written (c : Call ε) : List (Part ε κ) := c.args.map .expr

theorem Call.parallel (c : Call ε) :
    Parallel f f' g g' (c.map f).tokens (c.map f').tokens c.written :=
  .after (.own _) (.parens (.after (.own _) (.exprs c.args)))

def Item.written : Item ε → List (Part ε κ)
  | .wildcard | .wildcardOf _ => []
  | .expr value _ => [.expr value]

theorem Item.parallel (i : Item ε) :
    Parallel f f' g g' (i.map f).tokens (i.map f').tokens i.written := by
  cases i with
  | wildcard | wildcardOf relation => exact .own _
  | expr value alias? => exact .before (.expr value) (.own _)

def Relation.written : Relation ε κ → List (Part ε κ)
  | .table _ => []
  | .subquery query _ _ => [.query query]
  | .function call _ => call.written

theorem Relation.parallel (r : Relation ε κ) :
    Parallel f f' g g' (r.map f g).tokens (r.map f' g').tokens r.written := by
  cases r with
  | table t => exact .own _
  | subquery query alias? lateral => exact .before (.after (.own _) (.query query)) (.own _)
  | function call alias? => exact .before call.parallel (.own _)

def Join.written (j : Join ε κ) : List (Part ε κ) := j.source.written ++ j.on.map .expr

theorem Join.parallel_conditions (j : Join ε κ) :
    Parallel f f' g g' (j.map f g).conditions (j.map f' g').conditions (j.on.map .expr) := by
  refine .before (.of_eq (.several (fun e => ?_) j.on) List.map_eq_flatMap) (.own _)
  exact .after (.own _) (.spaced (.expr e))

theorem Join.parallel (j : Join ε κ) :
    Parallel f f' g g' (j.map f g).tokens (j.map f' g').tokens j.written := by
  refine .append (.before (.after (.own _) j.source.parallel) ?window) j.parallel_conditions
  exact .own _

theorem Join.parallel_listed (j : Join ε κ) :
    Parallel f f' g g' (j.map f g).listed (j.map f' g').listed j.written :=
  .after (.own _) (.spaced j.parallel)

def LateralView.written (v : LateralView ε) : List (Part ε κ) := v.generator.written

theorem LateralView.parallel (v : LateralView ε) :
    Parallel f f' g g' (v.map f).tokens (v.map f').tokens v.written :=
  .before (.before (.after (.own _) (.spaced v.generator.parallel)) (.own _)) (.own _)

def GroupBy.written (g : GroupBy ε) : List (Part ε κ) :=
  g.exprs.map .expr ++ g.sets.flatMap (·.map .expr)

theorem GroupBy.parallel (b : GroupBy ε) :
    Parallel f f' g g' (b.map f).tokens (b.map f').tokens b.written := by
  refine .append (.after (.own _) (.exprs b.exprs)) ?_
  simp only [GroupBy.map, List.isEmpty_map]
  refine .nonempty (.after (.own _) (.spaced (.parens ?_)))
  refine .commas (fun set => ?_) b.sets
  exact .parens (.exprs set)

def SortKey.written (k : SortKey ε) : List (Part ε κ) := [.expr k.expr]

theorem SortKey.parallel (k : SortKey ε) :
    Parallel f f' g g' (k.map f).tokens (k.map f').tokens k.written :=
  .before (.before (.expr k.expr) (.own _)) (.own _)

def Distinct.written (d : Distinct ε) : List (Part ε κ) := d.on.flatMap Item.written

theorem Distinct.parallel (d : Distinct ε) :
    Parallel f f' g g' (d.map f).tokens (d.map f').tokens d.written :=
  .after (.own _) (.nonempty (.after (.own _) (.spaced (.parens (.commas Item.parallel d.on)))))

def Top.written (t : Top ε) : List (Part ε κ) := [.expr t.quantity]

theorem Top.parallel (t : Top ε) :
    Parallel f f' g g' (t.map f).tokens (t.map f').tokens t.written := by
  obtain ⟨quantity, parenthesized, percent, withTies⟩ := t
  refine .before (.before (.after (.own _) (.spaced ?_)) (.own _)) (.own _)
  cases parenthesized with
  | false => exact .expr quantity
  | true => exact .parens (.expr quantity)

def Preference.written : Preference ε → List (Part ε κ)
  | .high value | .low value | .expr value => [.expr value]
  | .inverse term => term.written
  | .plus left right | .priorTo left right => left.written ++ right.written

theorem Preference.parallel (p : Preference ε) :
    Parallel f f' g g' (p.map f).tokens (p.map f').tokens p.written := by
  induction p with
  | high value | low value => exact .after (.own _) (.spaced (.expr value))
  | expr value => exact .expr value
  | inverse term ih => exact .after (.own _) (.spaced (.parens ih))
  | plus left right leftIh rightIh | priorTo left right leftIh rightIh =>
      exact .append (.before leftIh (.own _)) (.spaced rightIh)

def Preferring.written (p : Preferring ε) : List (Part ε κ) :=
  p.term.written ++ p.partition.map .expr

theorem Preferring.parallel (p : Preferring ε) :
    Parallel f f' g g' (p.map f).tokens (p.map f').tokens p.written := by
  have partition : Parallel f f' g g' (commas (p.partition.map f)) (commas (p.partition.map f'))
      (p.partition.flatMap fun e => [.expr e]) :=
    .of_eq (.exprs p.partition) List.map_eq_flatMap.symm
  exact .append (.after (.own _) (.spaced p.term.parallel))
    (.of_eq (.nonempty (.after (.own _) (.spaced partition))) List.map_eq_flatMap)

def WindowSpec.written (s : WindowSpec ε) : List (Part ε κ) :=
  s.partition.map .expr ++ s.order.flatMap SortKey.written

theorem WindowSpec.parallel (s : WindowSpec ε) :
    Parallel f f' g g' (s.map f).tokens (s.map f').tokens s.written := by
  obtain ⟨base?, partition, order⟩ := s
  let pieces : List (Tokens × Tokens × List (Part ε κ)) :=
    (base?.map fun name => ([.ident name], [.ident name], [])).toList ++
      (if partition.isEmpty then []
        else [(thenSpace (words [.PARTITION, .BY]) ++ commas (partition.map f),
          thenSpace (words [.PARTITION, .BY]) ++ commas (partition.map f'),
          partition.map .expr)]) ++
      (if order.isEmpty then []
        else [(thenSpace (words [.ORDER, .BY]) ++ commas ((order.map (·.map f)).map SortKey.tokens),
          thenSpace (words [.ORDER, .BY]) ++ commas ((order.map (·.map f')).map SortKey.tokens),
          order.flatMap SortKey.written)])
  have each : ∀ piece ∈ pieces, Parallel f f' g g' piece.1 piece.2.1 piece.2.2 := by
    intro piece member
    simp only [pieces, List.mem_append] at member
    rcases member with (base | parted) | ordered
    · cases base? with
      | none => cases base
      | some name =>
          obtain rfl := List.mem_singleton.mp base
          exact .own _
    · split at parted
      · cases parted
      · obtain rfl := List.mem_singleton.mp parted
        exact .after (.own _) (.exprs partition)
    · split at ordered
      · cases ordered
      · obtain rfl := List.mem_singleton.mp ordered
        exact .after (.own _) (.commas SortKey.parallel order)
  have left : pieces.map (·.1) = (WindowSpec.map f ⟨base?, partition, order⟩).pieces := by
    cases base? <;> cases partition <;> cases order <;> rfl
  have right : pieces.map (·.2.1) = (WindowSpec.map f' ⟨base?, partition, order⟩).pieces := by
    cases base? <;> cases partition <;> cases order <;> rfl
  have parts : pieces.flatMap (·.2.2) = WindowSpec.written ⟨base?, partition, order⟩ := by
    cases base? <;> cases partition <;> cases order <;> simp [pieces, WindowSpec.written]
  rw [WindowSpec.tokens, WindowSpec.tokens, ← left, ← right, ← parts]
  exact .joined each

def NamedWindow.written (w : NamedWindow ε) : List (Part ε κ) := w.spec.written

theorem NamedWindow.parallel (w : NamedWindow ε) :
    Parallel f f' g g' (w.map f).tokens (w.map f').tokens w.written :=
  .after (.own _) (.spaced (.parens w.spec.parallel))

def Hierarchy.written (h : Hierarchy ε) : List (Part ε κ) :=
  if h.connectFirst then .expr h.connectBy :: h.startWith?.toList.map .expr
  else h.startWith?.toList.map .expr ++ [.expr h.connectBy]

theorem Hierarchy.parallel (h : Hierarchy ε) :
    Parallel f f' g g' (h.map f).tokens (h.map f').tokens h.written := by
  have start : Parallel f f' g g' (h.map f).startTokens (h.map f').startTokens
      (h.startWith?.toList.map .expr) := by
    refine .of_eq (.optional (fun e => ?_) h.startWith?) List.map_eq_flatMap
    exact .after (.own _) (.spaced (.expr e))
  have connect : Parallel f f' g g' (h.map f).connectTokens (h.map f').connectTokens
      [.expr h.connectBy] :=
    .after (.own _) (.spaced (.expr h.connectBy))
  obtain ⟨startWith?, connectBy, noCycle, connectFirst⟩ := h
  cases connectFirst with
  | false => exact .append start connect
  | true => exact .append connect start

def Skip.written (s : Skip ε) : List (Part ε κ) := [.expr s.rows]

theorem Skip.parallel (s : Skip ε) :
    Parallel f f' g g' (s.map f).tokens (s.map f').tokens s.written :=
  .after (.own _) (.spaced (.expr s.rows))

def First.written (x : First ε) : List (Part ε κ) := [.expr x.rows]

theorem First.parallel (x : First ε) :
    Parallel f f' g g' (x.map f).tokens (x.map f').tokens x.written :=
  .after (.own _) (.spaced (.expr x.rows))

def InformixClauses.written (i : InformixClauses ε) : List (Part ε κ) :=
  i.skip?.toList.flatMap Skip.written ++ i.first?.toList.flatMap First.written

theorem InformixClauses.parallel_head (i : InformixClauses ε) :
    Parallel f f' g g' (i.map f).headTokens (i.map f').headTokens i.written := by
  refine .append (.optional (fun s => ?skip) i.skip?) (.optional (fun x => ?first) i.first?)
  case skip => exact .thenSpace s.parallel
  case first => exact .thenSpace x.parallel

def OrderBy.written (o : OrderBy ε) : List (Part ε κ) := o.keys.flatMap SortKey.written

theorem OrderBy.parallel (o : OrderBy ε) :
    Parallel f f' g g' (o.map f).tokens (o.map f').tokens o.written :=
  .after (.own _) (.commas SortKey.parallel o.keys)

def Limit.written : Limit ε → List (Part ε κ)
  | .all => []
  | .count rows => [.expr rows]

theorem Limit.parallel (l : Limit ε) :
    Parallel f f' g g' (l.map f).tokens (l.map f').tokens l.written := by
  cases l with
  | all => exact .own _
  | count rows => exact .after (.own _) (.spaced (.expr rows))

def Offset.written (o : Offset ε) : List (Part ε κ) := [.expr o.rows]

theorem Offset.parallel (o : Offset ε) :
    Parallel f f' g g' (o.map f).tokens (o.map f').tokens o.written :=
  .before (.after (.own _) (.spaced (.expr o.rows))) (.own _)

def Fetch.written (x : Fetch ε) : List (Part ε κ) := x.quantity?.toList.map .expr

theorem Fetch.parallel (x : Fetch ε) :
    Parallel f f' g g' (x.map f).tokens (x.map f').tokens x.written := by
  refine .before (.before (.before (.after (.own _) ?_) (.own _)) (.own _)) (.own _)
  refine .of_eq (.optional (fun e => ?_) x.quantity?) List.map_eq_flatMap
  exact .spaced (.expr e)

def Cte.written (c : Cte κ) : List (Part ε κ) := [.query c.query]

theorem Cte.parallel (c : Cte κ) :
    Parallel f f' g g' (c.map g).tokens (c.map g').tokens c.written :=
  .after (.own _) (.spaced (.query c.query))

def With.written (w : With κ) : List (Part ε κ) := w.ctes.flatMap Cte.written

theorem With.parallel (w : With κ) :
    Parallel f f' g g' (w.map g).tokens (w.map g').tokens w.written :=
  .after (.own _) (.commas Cte.parallel w.ctes)

namespace Envelope

def leadingWritten (e : Envelope ε κ) : List (Part ε κ) := e.with?.toList.flatMap With.written

theorem parallel_leading (e : Envelope ε κ) :
    Parallel f f' g g' (e.map f g).leading (e.map f' g').leading e.leadingWritten := by
  refine .optional (fun w => ?_) e.with?
  exact .thenSpace w.parallel

def trailingWritten (e : Envelope ε κ) : List (Part ε κ) :=
  e.orderBy?.toList.flatMap OrderBy.written ++ e.limit?.toList.flatMap Limit.written ++
    e.offset?.toList.flatMap Offset.written ++ e.fetch?.toList.flatMap Fetch.written

theorem parallel_trailing (e : Envelope ε κ) :
    Parallel f f' g g' (e.map f g).trailing (e.map f' g').trailing e.trailingWritten := by
  refine .before (.append (.append (.append (.optional (fun o => ?orderBy) e.orderBy?)
    (.optional (fun l => ?limit) e.limit?)) (.optional (fun o => ?offset) e.offset?))
    (.optional (fun x => ?fetch) e.fetch?)) (.own _)
  case orderBy => exact .spaced o.parallel
  case limit => exact .spaced l.parallel
  case offset => exact .spaced o.parallel
  case fetch => exact .spaced x.parallel

end Envelope
end SqlSelect
