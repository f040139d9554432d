import SqlSelect.Proofs.Outline.Clauses
namespace SqlSelect

open Outline

variable {ε κ : Type}

def Distinct.outline (d : Distinct Outline) : Outline :=
  words [if d.unique then .UNIQUE else .DISTINCT] ++ listed [.ON] (d.on.map Item.outline)

theorem Distinct.content_tokens (d : Distinct Tokens) :
    d.tokens.content = (d.map Tokens.content).outline := by
  obtain ⟨unique, on⟩ := d
  simp only [Distinct.map]
  simp [Distinct.tokens, Distinct.outline, listed, Item.content_tokens, Function.comp_def]

def Top.outline (t : Top Outline) : Outline :=
  words [.TOP] ++ t.quantity ++ flagged t.percent [.PERCENT] ++ flagged t.withTies [.WITH, .TIES]

theorem Top.content_tokens (t : Top Tokens) :
    t.tokens.content = (t.map Tokens.content).outline := by
  obtain ⟨quantity, parenthesized, percent, withTies⟩ := t
  simp only [Top.map]
  cases parenthesized <;> simp [Top.tokens, Top.outline, flagged]

def GroupBy.outline (g : GroupBy Outline) : Outline :=
  words [.GROUP, .BY] ++ g.exprs.flatten ++
    listed [.GROUPING, .SETS] (g.sets.map List.flatten)

theorem GroupBy.content_tokens (g : GroupBy Tokens) :
    g.tokens.content = (g.map Tokens.content).outline := by
  obtain ⟨exprs, sets⟩ := g
  simp only [GroupBy.map]
  cases exprs <;> simp [GroupBy.tokens, GroupBy.outline, listed, Function.comp_def]

def SortOrder.outline : SortOrder → Outline
  | .ascending => words [.ASC]
  | .descending => words [.DESC]

theorem SortOrder.words_keyword (o : SortOrder) : words [o.keyword] = o.outline := by
  cases o <;> rfl

def NullsPlace.outline : NullsPlace → Outline
  | .first => words [.NULLS, .FIRST]
  | .last => words [.NULLS, .LAST]

theorem NullsPlace.words_keyword (p : NullsPlace) : words [.NULLS, p.keyword] = p.outline := by
  cases p <;> rfl

def SortKey.outline (k : SortKey Outline) : Outline :=
  k.expr ++ k.order?.elim [] SortOrder.outline ++ k.nulls?.elim [] NullsPlace.outline

theorem SortKey.content_tokens (k : SortKey Tokens) :
    k.tokens.content = (k.map Tokens.content).outline := by
  simp [SortKey.tokens, SortKey.map, SortKey.outline, SortOrder.words_keyword,
    NullsPlace.words_keyword]

def Preference.outline : Preference Outline → Outline
  | .high value => words [.HIGH] ++ value
  | .low value => words [.LOW] ++ value
  | .inverse term => words [.INVERSE] ++ term.outline
  | .plus left right => left.outline ++ words [.PLUS] ++ right.outline
  | .priorTo left right => left.outline ++ words [.PRIOR, .TO] ++ right.outline
  | .expr value => value

theorem Preference.content_tokens (p : Preference Tokens) :
    p.tokens.content = (p.map Tokens.content).outline := by
  induction p with
  | high value | low value | expr value => simp [Preference.tokens, map, outline]
  | inverse term ih => simp [Preference.tokens, map, outline, ih]
  | plus left right leftIh rightIh | priorTo left right leftIh rightIh =>
      simp [Preference.tokens, map, outline, leftIh, rightIh]

def Preferring.outline (p : Preferring Outline) : Outline :=
  words [.PREFERRING] ++ p.term.outline ++ listed [.PARTITION, .BY] p.partition

theorem Preferring.content_tokens (p : Preferring Tokens) :
    p.tokens.content = (p.map Tokens.content).outline := by
  obtain ⟨term, partition⟩ := p
  simp [Preferring.tokens, Preferring.map, Preferring.outline, Preference.content_tokens, listed]

def WindowSpec.outline (s : WindowSpec Outline) : Outline :=
  names s.base?.toList ++ listed [.PARTITION, .BY] s.partition ++
    listed [.ORDER, .BY] (s.order.map SortKey.outline)

theorem WindowSpec.content_tokens (s : WindowSpec Tokens) :
    s.tokens.content = (s.map Tokens.content).outline := by
  obtain ⟨base?, partition, order⟩ := s
  rw [WindowSpec.tokens, Tokens.content_joined_marks rfl]
  cases base? <;> cases partition <;> cases order <;>
    simp [WindowSpec.pieces, WindowSpec.map, WindowSpec.outline, SortKey.content_tokens, listed,
      names, Function.comp_def]

def NamedWindow.outline (w : NamedWindow Outline) : Outline :=
  names [w.name] ++ words [.AS] ++ w.spec.outline

theorem NamedWindow.content_tokens (w : NamedWindow Tokens) :
    w.tokens.content = (w.map Tokens.content).outline := by
  simp [NamedWindow.tokens, NamedWindow.map, NamedWindow.outline, WindowSpec.content_tokens, names]

namespace Hierarchy

def startOutline (h : Hierarchy Outline) : Outline :=
  h.startWith?.elim [] (words [.START, .WITH] ++ ·)

def connectOutline (h : Hierarchy Outline) : Outline :=
  words [.CONNECT, .BY] ++ flagged h.noCycle [.NOCYCLE] ++ h.connectBy

def outline (h : Hierarchy Outline) : Outline :=
  if h.connectFirst then h.connectOutline ++ h.startOutline else h.startOutline ++ h.connectOutline

theorem content_tokens (h : Hierarchy Tokens) :
    h.tokens.content = (h.map Tokens.content).outline := by
  obtain ⟨startWith?, connectBy, noCycle, connectFirst⟩ := h
  simp only [map]
  cases connectFirst <;> cases startWith? <;>
    simp [tokens, startTokens, connectTokens, outline, startOutline, connectOutline, flagged]

end Hierarchy

def CacheUse.outline : CacheUse → Outline
  | .use => words [.SQL_CACHE]
  | .bypass => words [.SQL_NO_CACHE]

theorem CacheUse.content_tokens (c : CacheUse) : (Written.tokens c).content = c.outline := by
  cases c <;> rfl

def RowShape.outline : RowShape → Outline
  | .struct => words [.AS, .STRUCT]
  | .value => words [.AS, .VALUE]

theorem RowShape.words_keyword (s : RowShape) : words [.AS, s.keyword] = s.outline := by
  cases s <;> rfl

def OptimizerHint.outline (h : OptimizerHint) : Outline := [.verbatim h.text]

theorem OptimizerHint.content_tokens (h : OptimizerHint) :
    (Written.tokens h).content = h.outline := rfl

def Skip.outline (s : Skip Outline) : Outline := words [.SKIP] ++ s.rows

theorem Skip.content_tokens (s : Skip Tokens) :
    s.tokens.content = (s.map Tokens.content).outline := by
  simp [Skip.tokens, Skip.map, Skip.outline]

def First.outline (x : First Outline) : Outline :=
  words [if x.limit then .LIMIT else .FIRST] ++ x.rows

theorem First.content_tokens (x : First Tokens) :
    x.tokens.content = (x.map Tokens.content).outline := by
  obtain ⟨limit, rows⟩ := x
  simp only [First.map]
  simp [First.tokens, First.outline]

def OptimizeFor.outline (o : OptimizeFor) : Outline :=
  words [.OPTIMIZE, .FOR] ++ [.count o.rows] ++ words [.ROWS]

theorem OptimizeFor.content_tokens (o : OptimizeFor) : o.tokens.content = o.outline := rfl

namespace Select

/-- The places of a select that hold something to write. -/
inductive Slot where
  | select | straightJoin | hint | skip | first | distinct | shape | top | cache | foundRows
  | items | into | source | lateralViews | joins | final | streamWindow | filter | hierarchy
  | preferring | groupBy | having | qualify | windows | emitChanges | intoTemp | noLog
  | optimizeFor | xmlPath
  deriving DecidableEq

namespace Slot

/-- The slots up to the clauses that end a statement. -/
def main : List Slot :=
  [.select, .straightJoin, .hint, .skip, .first, .distinct, .shape, .top, .cache, .foundRows,
    .items, .into, .source, .lateralViews, .joins, .final, .streamWindow, .filter, .hierarchy,
    .preferring, .groupBy, .having, .qualify, .windows, .emitChanges, .intoTemp, .noLog]

def tail : List Slot := [.optimizeFor, .xmlPath]

/-- Whether the slot is left out of a select without a source. -/
def needsSource : Slot → Bool
  | .source | .lateralViews | .joins | .final | .streamWindow | .hierarchy | .preferring
  | .groupBy | .having | .qualify | .windows | .emitChanges => true
  | _ => false

end Slot

/-- What the select says in one slot. -/
def slotOutline (s : Select Outline Outline) : Slot → Outline
  | .select => words [.SELECT]
  | .straightJoin => s.mysql?.elim [] fun m => flagged m.straightJoin [.STRAIGHT_JOIN]
  | .hint => (s.oracle?.bind (·.hint?)).elim [] OptimizerHint.outline
  | .skip => (s.informix?.bind (·.skip?)).elim [] Skip.outline
  | .first => (s.informix?.bind (·.first?)).elim [] First.outline
  | .distinct => s.distinct?.elim [] Distinct.outline
  | .shape => s.shape?.elim [] RowShape.outline
  | .top => s.top?.elim [] Top.outline
  | .cache => (s.mysql?.bind (·.cache?)).elim [] CacheUse.outline
  | .foundRows => s.mysql?.elim [] fun m => flagged m.calcFoundRows [.SQL_CALC_FOUND_ROWS]
  | .items => (s.items.map Item.outline).flatten
  | .into => listed [.INTO] (s.into.map Table.outline)
  | .source => s.source?.elim [] fun source =>
      words [.FROM] ++ flagged s.only [.ONLY] ++ source.outline
  | .lateralViews => (s.lateralViews.map LateralView.outline).flatten
  | .joins => (s.joins.map Join.outline).flatten
  | .final => flagged s.merged [.FINAL]
  | .streamWindow => (s.stream?.bind (·.window?)).elim [] fun w => words [.WINDOW] ++ w.outline
  | .filter => s.filter?.elim [] (words [.WHERE] ++ ·)
  | .hierarchy => (s.oracle?.bind (·.hierarchy?)).elim [] Hierarchy.outline
  | .preferring => s.preferring?.elim [] Preferring.outline
  | .groupBy => s.groupBy?.elim [] GroupBy.outline
  | .having => s.having?.elim [] (words [.HAVING] ++ ·)
  | .qualify => s.qualify?.elim [] (words [.QUALIFY] ++ ·)
  | .windows => listed [.WINDOW] (s.windows.map NamedWindow.outline)
  | .emitChanges => s.stream?.elim [] fun c => flagged c.emitChanges [.EMIT, .CHANGES]
  | .intoTemp => (s.informix?.bind (·.intoTemp?)).elim [] fun t => words [.INTO, .TEMP] ++ t.outline
  | .noLog => s.informix?.elim [] fun i => flagged i.noLog [.WITH, .NO, .LOG]
  | .optimizeFor => s.optimizeFor?.elim [] OptimizeFor.outline
  | .xmlPath => s.xmlPath?.elim [] fun path => words [.FOR, .XML, .PATH] ++ [.verbatim path]

def slotsOutline (s : Select Outline Outline) (slots : List Slot) : Outline :=
  (slots.filter fun slot => s.source?.isSome || !slot.needsSource).flatMap s.slotOutline

def outline (s : Select Outline Outline) : Outline := s.slotsOutline (Slot.main ++ Slot.tail)

theorem slotsOutline_append (s : Select Outline Outline) (left right : List Slot) :
    s.slotsOutline (left ++ right) = s.slotsOutline left ++ s.slotsOutline right := by
  rw [slotsOutline, List.filter_append, List.flatMap_append]
  rfl

theorem content_clause (k : Keyword) (e : Option Tokens) :
    (clause k e).content = e.elim [] fun e => words [k] ++ e.content := by
  simp [clause]

theorem content_head (s : Select Tokens Tokens) :
    s.head.content = (s.map Tokens.content Tokens.content).slotsOutline
      [.straightJoin, .hint, .skip, .first, .distinct, .shape, .top, .cache, .foundRows] := by
  obtain ⟨items, source?, joins, views, filter?, groupBy?, having?, qualify?, distinct?, shape?,
    top?, optimizeFor?, preferring?, xmlPath?, windows, merged, only, into, mysql?, oracle?,
    informix?, stream?⟩ := s
  simp only [map]
  cases mysql? <;> cases oracle? <;> cases informix? <;>
    simp [head, slotsOutline, Slot.needsSource, slotOutline, flagged, OptimizerHint.content_tokens,
      OracleClauses.map, InformixClauses.map, InformixClauses.headTokens, Function.comp_def,
      CacheUse.content_tokens, RowShape.words_keyword, Distinct.content_tokens,
      Top.content_tokens, Skip.content_tokens, First.content_tokens]

theorem content_fromClause (s : Select Tokens Tokens) {source : Relation Tokens Tokens}
    (present : s.source? = some source) :
    (s.fromClause source).content = (s.map Tokens.content Tokens.content).slotsOutline
      [.source, .lateralViews, .joins, .final, .streamWindow, .filter, .hierarchy, .preferring,
        .groupBy, .having, .qualify, .windows, .emitChanges] := by
  obtain ⟨items, source?, joins, views, filter?, groupBy?, having?, qualify?, distinct?, shape?,
    top?, optimizeFor?, preferring?, xmlPath?, windows, merged, only, into, mysql?, oracle?,
    informix?, stream?⟩ := s
  obtain rfl : source? = some source := present
  simp only [map]
  cases oracle? <;> cases stream? <;>
    simp [fromClause, slotsOutline, slotOutline, flagged, listed, content_clause,
      OracleClauses.map, Function.comp_def, Relation.content_tokens, LateralView.content_tokens,
      Join.content_tokens, StreamWindow.content_tokens, Hierarchy.content_tokens,
      Preferring.content_tokens, GroupBy.content_tokens, NamedWindow.content_tokens]

theorem content_intoTokens (s : Select Tokens Tokens) :
    (Phrase.optional InformixClauses.intoTokens s.informix?).content =
      (s.map Tokens.content Tokens.content).slotsOutline [.intoTemp, .noLog] := by
  obtain ⟨items, source?, joins, views, filter?, groupBy?, having?, qualify?, distinct?, shape?,
    top?, optimizeFor?, preferring?, xmlPath?, windows, merged, only, into, mysql?, oracle?,
    informix?, stream?⟩ := s
  simp only [map]
  cases informix? <;>
    simp [InformixClauses.intoTokens, InformixClauses.map, slotsOutline, Slot.needsSource,
      slotOutline, flagged, Table.content_tokens]

theorem content_main (s : Select Tokens Tokens) :
    s.main.content = (s.map Tokens.content Tokens.content).slotsOutline Slot.main := by
  have order : Slot.main = [Slot.select] ++
      [Slot.straightJoin, .hint, .skip, .first, .distinct, .shape, .top, .cache, .foundRows] ++
      [Slot.items] ++ [Slot.into] ++
      [Slot.source, .lateralViews, .joins, .final, .streamWindow, .filter, .hierarchy, .preferring,
        .groupBy, .having, .qualify, .windows, .emitChanges] ++ [Slot.intoTemp, .noLog] := rfl
  rw [order]
  simp only [main, Tokens.content_append, slotsOutline_append, content_head, content_intoTokens]
  congr 1
  congr 1
  · simp [slotsOutline, Slot.needsSource, slotOutline, listed, map, Function.comp_def,
      Item.content_tokens, Table.content_tokens]
  · cases present : s.source? with
    | some source => exact s.content_fromClause present
    | none =>
        simp [slotsOutline, Slot.needsSource, slotOutline, map, present, content_clause,
          Function.comp_def]

theorem content_tail (s : Select Tokens Tokens) :
    s.tail.content = (s.map Tokens.content Tokens.content).slotsOutline Slot.tail := by
  simp [tail, Slot.tail, slotsOutline, Slot.needsSource, slotOutline, map, words,
    OptimizeFor.content_tokens]

end Select
end SqlSelect
