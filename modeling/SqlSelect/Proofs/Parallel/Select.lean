import SqlSelect.Proofs.Parallel.Clauses
namespace SqlSelect.Select

open Phrase

variable {ε κ : Type} {f f' : ε → Tokens} {g g' : κ → Tokens}

def headWritten (s : Select ε κ) : List (Part ε κ) :=
  s.informix?.toList.flatMap InformixClauses.written ++
    s.distinct?.toList.flatMap Distinct.written ++ s.top?.toList.flatMap Top.written

theorem parallel_head (s : Select ε κ) :
    Parallel f f' g g' (s.map f g).head (s.map f' g').head s.headWritten := by
  refine .before (.append (.before (.append (.after (.after (.own _)
    (.optionalOwn (fun o => ?hint) s.oracle?)) (.optional (fun i => ?informix) s.informix?))
    (.optional (fun d => ?distinct) s.distinct?)) (.own _)) (.optional (fun t => ?top) s.top?))
    (.own _)
  case hint => rfl
  case informix => exact i.parallel_head
  case distinct => exact .thenSpace d.parallel
  case top => exact .thenSpace t.parallel

def conditionWritten (e? : Option ε) : List (Part ε κ) := e?.toList.map .expr

theorem parallel_clause (k : Keyword) (e? : Option ε) :
    Parallel f f' g g' (clause k (e?.map f)) (clause k (e?.map f')) (conditionWritten e?) := by
  refine .of_eq (.optional (fun e => ?_) e?) List.map_eq_flatMap
  exact .after (.own _) (.spaced (.expr e))

def opening (s : Select Tokens Tokens) (source : Relation Tokens Tokens) : Tokens :=
  spaced (word .FROM) ++ onlyIf s.only (spaced (word .ONLY)) ++ spaced source.tokens ++
    s.lateralViews.flatMap (fun v => spaced v.tokens)

def closing (s : Select Tokens Tokens) : Tokens :=
  onlyIf s.merged (spaced (word .FINAL)) ++
    optional (fun c => optional (fun w => spaced (word .WINDOW) ++ spaced w.tokens) c.window?)
      s.stream? ++
    clause .WHERE s.filter? ++
    optional (fun o => optional Hierarchy.tokens o.hierarchy?) s.oracle? ++
    optional (fun p => spaced p.tokens) s.preferring? ++
    optional (fun g => spaced g.tokens) s.groupBy? ++
    clause .HAVING s.having? ++ clause .QUALIFY s.qualify? ++
    nonempty (fun ws => spaced (word .WINDOW) ++ spaced (commas (ws.map NamedWindow.tokens)))
      s.windows ++
    optional (fun c => onlyIf c.emitChanges (spaced (words [.EMIT, .CHANGES]))) s.stream?

theorem fromClause_eq (s : Select Tokens Tokens) (source : Relation Tokens Tokens) :
    s.fromClause source = s.opening source ++ s.joins.flatMap Join.listed ++ s.closing := by
  simp only [fromClause, opening, closing, List.append_assoc]

def openingWritten (s : Select ε κ) (source : Relation ε κ) : List (Part ε κ) :=
  source.written ++ s.lateralViews.flatMap LateralView.written

theorem parallel_opening (s : Select ε κ) (source : Relation ε κ) :
    Parallel f f' g g' ((s.map f g).opening (source.map f g))
      ((s.map f' g').opening (source.map f' g')) (s.openingWritten source) := by
  refine .append (.after (.own _) ?source) (.several (fun v => ?views) s.lateralViews)
  case source => exact .spaced source.parallel
  case views => exact .spaced v.parallel

def closingWritten (s : Select ε κ) : List (Part ε κ) :=
  conditionWritten s.filter? ++
    s.oracle?.toList.flatMap (fun o => o.hierarchy?.toList.flatMap Hierarchy.written) ++
    s.preferring?.toList.flatMap Preferring.written ++ s.groupBy?.toList.flatMap GroupBy.written ++
    conditionWritten s.having? ++ conditionWritten s.qualify? ++
    s.windows.flatMap NamedWindow.written

theorem parallel_closing (s : Select ε κ) :
    Parallel f f' g g' (s.map f g).closing (s.map f' g').closing s.closingWritten := by
  refine .before (.append (.append (.append (.append (.append (.append (.after (.own _) ?filter)
    (.optional (fun o => ?hierarchy) s.oracle?)) (.optional (fun r => ?preferring) s.preferring?))
    (.optional (fun b => ?groupBy) s.groupBy?)) ?having) ?qualify) (.nonempty ?windows)) (.own _)
  case filter => exact parallel_clause .WHERE s.filter?
  case hierarchy => exact .optional Hierarchy.parallel o.hierarchy?
  case preferring => exact .spaced r.parallel
  case groupBy => exact .spaced b.parallel
  case having => exact parallel_clause .HAVING s.having?
  case qualify => exact parallel_clause .QUALIFY s.qualify?
  case windows => exact .after (.own _) (.spaced (.commas NamedWindow.parallel s.windows))

/-- The parts of the clauses that only a select with a source writes, and of its
    filter. -/
def fromWritten (s : Select ε κ) (source : Relation ε κ) : List (Part ε κ) :=
  source.written ++ s.lateralViews.flatMap LateralView.written ++ s.joins.flatMap Join.written ++
    conditionWritten s.filter? ++
    s.oracle?.toList.flatMap (fun o => o.hierarchy?.toList.flatMap Hierarchy.written) ++
    s.preferring?.toList.flatMap Preferring.written ++ s.groupBy?.toList.flatMap GroupBy.written ++
    conditionWritten s.having? ++ conditionWritten s.qualify? ++
    s.windows.flatMap NamedWindow.written

theorem fromWritten_eq (s : Select ε κ) (source : Relation ε κ) :
    s.fromWritten source =
      s.openingWritten source ++ s.joins.flatMap Join.written ++ s.closingWritten := by
  simp only [fromWritten, openingWritten, closingWritten, List.append_assoc]

theorem parallel_fromClause (s : Select ε κ) (source : Relation ε κ) :
    Parallel f f' g g' ((s.map f g).fromClause (source.map f g))
      ((s.map f' g').fromClause (source.map f' g')) (s.fromWritten source) := by
  rw [fromClause_eq, fromClause_eq, fromWritten_eq]
  exact .append (.append (s.parallel_opening source) (.several Join.parallel_listed s.joins))
    s.parallel_closing

def written (s : Select ε κ) : List (Part ε κ) :=
  s.headWritten ++ s.items.flatMap Item.written ++
    (match s.source? with
      | some source => s.fromWritten source
      | none => conditionWritten s.filter?)

theorem parallel_main (s : Select ε κ) :
    Parallel f f' g g' (s.map f g).main (s.map f' g').main s.written := by
  refine .before (.append (.before (.append (.after (.own _) s.parallel_head) ?items) (.own _))
    ?source) (.optionalOwn (fun i => ?temp) s.informix?)
  case items => exact .commas Item.parallel s.items
  case source =>
      cases present : s.source? with
      | none =>
          simp only [map, present, Option.map_none]
          exact parallel_clause .WHERE s.filter?
      | some source =>
          have clause : Parallel f f' g g' ((s.map f g).fromClause (source.map f g))
              ((s.map f' g').fromClause (source.map f' g')) (s.fromWritten source) :=
            s.parallel_fromClause source
          simpa only [map, present, Option.map_some] using clause
  case temp => rfl

end SqlSelect.Select
