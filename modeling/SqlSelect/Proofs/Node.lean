import SqlSelect.Proofs.Statement
namespace SqlSelect

/-- The nodes of a tree that can be rendered by themselves. -/
inductive Node where
  | aliased (second : Alias)
  | body (body : Body)
  | distinct (distinct : Distinct Expr)
  | duration (duration : Duration)
  | expr (expr : Expr)
  | fetch (fetch : Fetch Expr)
  | first (first : First Expr)
  | groupBy (groupBy : GroupBy Expr)
  | hierarchy (hierarchy : Hierarchy Expr)
  | item (item : Item Expr)
  | join (join : Join Expr Query)
  | joinHint (hint : JoinHint)
  | lateralView (view : LateralView Expr)
  | limit (limit : Limit Expr)
  | literal (value : Literal)
  | lock (lock : Lock)
  | name (name : Name)
  | namedWindow (window : NamedWindow Expr)
  | offset (offset : Offset Expr)
  | optimizeFor (rows : OptimizeFor)
  | optimizerHint (hint : OptimizerHint)
  | orderBy (orderBy : OrderBy Expr)
  | preferring (preferring : Preferring Expr)
  | query (query : Query)
  | relation (relation : Relation Expr Query)
  | select (select : Select Expr Query)
  | skip (skip : Skip Expr)
  | streamWindow (window : StreamWindow)
  | table (table : Table)
  | top (top : Top Expr)
  | withClause (clause : With Query)
  | within (window : Within)

namespace Node

def tokens : Node → Tokens
  | .aliased a => Written.tokens a
  | .body b => Written.tokens b
  | .distinct d => Written.tokens d
  | .duration d => Written.tokens d
  | .expr e => Written.tokens e
  | .fetch x => Written.tokens x
  | .first x => Written.tokens x
  | .groupBy g => Written.tokens g
  | .hierarchy h => Written.tokens h
  | .item i => Written.tokens i
  | .join j => Written.tokens j
  | .joinHint h => Written.tokens h
  | .lateralView v => Written.tokens v
  | .limit l => Written.tokens l
  | .literal v => Written.tokens v
  | .lock l => Written.tokens l
  | .name n => Written.tokens n
  | .namedWindow w => Written.tokens w
  | .offset o => Written.tokens o
  | .optimizeFor o => Written.tokens o
  | .optimizerHint h => Written.tokens h
  | .orderBy o => Written.tokens o
  | .preferring p => Written.tokens p
  | .query q => Written.tokens q
  | .relation r => Written.tokens r
  | .select s => Written.tokens s
  | .skip s => Written.tokens s
  | .streamWindow w => Written.tokens w
  | .table t => Written.tokens t
  | .top t => Written.tokens t
  | .withClause w => Written.tokens w
  | .within w => Written.tokens w

instance : Written Node := ⟨tokens⟩

def outline : Node → Outline
  | .aliased a => a.outline
  | .body b => b.outline
  | .distinct d => (d.map Expr.outline).outline
  | .duration d => d.outline
  | .expr e => e.outline
  | .fetch x => (x.map Expr.outline).outline
  | .first x => (x.map Expr.outline).outline
  | .groupBy g => (g.map Expr.outline).outline
  | .hierarchy h => (h.map Expr.outline).outline
  | .item i => (i.map Expr.outline).outline
  | .join j => (j.map Expr.outline Query.outline).outline
  | .joinHint h => h.outline
  | .lateralView v => (v.map Expr.outline).outline
  | .limit l => (l.map Expr.outline).outline
  | .literal v => v.outline
  | .lock l => l.outline
  | .name n => n.outline
  | .namedWindow w => (w.map Expr.outline).outline
  | .offset o => (o.map Expr.outline).outline
  | .optimizeFor o => o.outline
  | .optimizerHint h => h.outline
  | .orderBy o => (o.map Expr.outline).outline
  | .preferring p => (p.map Expr.outline).outline
  | .query q => q.outline
  | .relation r => (r.map Expr.outline Query.outline).outline
  | .select s => s.treeOutline
  | .skip s => (s.map Expr.outline).outline
  | .streamWindow w => w.outline
  | .table t => t.outline
  | .top t => (t.map Expr.outline).outline
  | .withClause w => (w.map Query.outline).outline
  | .within w => w.outline

/-- What is written for a node is what its outline says. -/
theorem content_tokens (n : Node) : n.tokens.content = n.outline := by
  cases n with
  | aliased a => exact a.content_tokens
  | body b => exact b.content_tokens
  | duration d => exact d.content_tokens
  | expr e => exact e.content_tokens
  | joinHint h => exact h.content_tokens
  | literal v => exact v.content_tokens
  | lock l => exact l.content_tokens
  | name n => exact n.content_tokens
  | optimizeFor o => exact o.content_tokens
  | optimizerHint h => exact h.content_tokens
  | query q => exact q.content_tokens
  | select s => exact s.content_written
  | streamWindow w => exact w.content_tokens
  | table t => exact t.content_tokens
  | within w => exact w.content_tokens
  | distinct d =>
      have parts := Writing.content_hom.ofDistinct d
      rw [Interpretation.ofDistinct_eq, Interpretation.ofDistinct_eq] at parts
      exact (Distinct.content_tokens _).trans (congrArg Distinct.outline parts)
  | fetch x =>
      have parts := Writing.content_hom.ofFetch x
      rw [Interpretation.ofFetch_eq, Interpretation.ofFetch_eq] at parts
      exact (Fetch.content_tokens _).trans (congrArg Fetch.outline parts)
  | first x =>
      have parts := Writing.content_hom.ofFirst x
      rw [Interpretation.ofFirst_eq, Interpretation.ofFirst_eq] at parts
      exact (First.content_tokens _).trans (congrArg First.outline parts)
  | groupBy g =>
      have parts := Writing.content_hom.ofGroupBy g
      rw [Interpretation.ofGroupBy_eq, Interpretation.ofGroupBy_eq] at parts
      exact (GroupBy.content_tokens _).trans (congrArg GroupBy.outline parts)
  | hierarchy h =>
      have parts := Writing.content_hom.ofHierarchy h
      rw [Interpretation.ofHierarchy_eq, Interpretation.ofHierarchy_eq] at parts
      exact (Hierarchy.content_tokens _).trans (congrArg Hierarchy.outline parts)
  | item i =>
      have parts := Writing.content_hom.ofItem i
      rw [Interpretation.ofItem_eq, Interpretation.ofItem_eq] at parts
      exact (Item.content_tokens _).trans (congrArg Item.outline parts)
  | join j =>
      have parts := Writing.content_hom.ofJoin j
      rw [Interpretation.ofJoin_eq, Interpretation.ofJoin_eq] at parts
      exact (Join.content_tokens _).trans (congrArg Join.outline parts)
  | lateralView v =>
      have parts := Writing.content_hom.ofLateralView v
      rw [Interpretation.ofLateralView_eq, Interpretation.ofLateralView_eq] at parts
      exact (LateralView.content_tokens _).trans (congrArg LateralView.outline parts)
  | limit l =>
      have parts := Writing.content_hom.ofLimit l
      rw [Interpretation.ofLimit_eq, Interpretation.ofLimit_eq] at parts
      exact (Limit.content_tokens _).trans (congrArg Limit.outline parts)
  | namedWindow w =>
      have parts := Writing.content_hom.ofNamedWindow w
      rw [Interpretation.ofNamedWindow_eq, Interpretation.ofNamedWindow_eq] at parts
      exact (NamedWindow.content_tokens _).trans (congrArg NamedWindow.outline parts)
  | offset o =>
      have parts := Writing.content_hom.ofOffset o
      rw [Interpretation.ofOffset_eq, Interpretation.ofOffset_eq] at parts
      exact (Offset.content_tokens _).trans (congrArg Offset.outline parts)
  | orderBy o =>
      have parts := Writing.content_hom.ofOrderBy o
      rw [Interpretation.ofOrderBy_eq, Interpretation.ofOrderBy_eq] at parts
      exact (OrderBy.content_tokens _).trans (congrArg OrderBy.outline parts)
  | preferring p =>
      have parts := Writing.content_hom.ofPreferring p
      rw [Interpretation.ofPreferring_eq, Interpretation.ofPreferring_eq] at parts
      exact (Preferring.content_tokens _).trans (congrArg Preferring.outline parts)
  | relation r =>
      have parts := Writing.content_hom.ofRelation r
      rw [Interpretation.ofRelation_eq, Interpretation.ofRelation_eq] at parts
      exact (Relation.content_tokens _).trans (congrArg Relation.outline parts)
  | skip s =>
      have parts := Writing.content_hom.ofSkip s
      rw [Interpretation.ofSkip_eq, Interpretation.ofSkip_eq] at parts
      exact (Skip.content_tokens _).trans (congrArg Skip.outline parts)
  | top t =>
      have parts := Writing.content_hom.ofTop t
      rw [Interpretation.ofTop_eq, Interpretation.ofTop_eq] at parts
      exact (Top.content_tokens _).trans (congrArg Top.outline parts)
  | withClause w =>
      have parts := Writing.content_hom.ofWith w
      rw [Interpretation.ofWith_eq, Interpretation.ofWith_eq] at parts
      exact (With.content_tokens _).trans (congrArg With.outline parts)

end Node
end SqlSelect
