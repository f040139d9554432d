import SqlSelect.Tree.Clauses
namespace SqlSelect

/-! A tree is filled when every list that its text depends on has a member: the
parts of names, select lists, operands, common table expressions, sort keys and
grouping.  Over propositions in place of its expressions and queries, a clause
is filled when they hold and its own lists have members.
-/

variable {κ : Type}

def Name.Filled (n : Name) : Prop := n.parts ≠ []

def Table.Filled (t : Table) : Prop := t.name.Filled

def Call.Filled (c : Call Prop) : Prop := c.function.Filled ∧ ∀ e ∈ c.args, e

def Item.Filled : Item Prop → Prop
  | .wildcard => True
  | .wildcardOf relation => relation.Filled
  | .expr value _ => value

def Relation.Filled : Relation Prop Prop → Prop
  | .table t => t.Filled
  | .subquery query _ _ => query
  | .function call _ => call.Filled

def Join.Filled (j : Join Prop Prop) : Prop :=
  j.source.Filled ∧ (∀ e ∈ j.on, e) ∧ ∀ n ∈ j.usingColumns, n.Filled

def LateralView.Filled (v : LateralView Prop) : Prop := v.generator.Filled

def GroupBy.Filled (g : GroupBy Prop) : Prop :=
  (g.exprs ≠ [] ∨ g.sets ≠ []) ∧ (∀ e ∈ g.exprs, e) ∧ ∀ set ∈ g.sets, ∀ e ∈ set, e

def SortKey.Filled (k : SortKey Prop) : Prop := k.expr

def OrderBy.Filled (o : OrderBy Prop) : Prop := o.keys ≠ [] ∧ ∀ k ∈ o.keys, k.Filled

def Distinct.Filled (d : Distinct Prop) : Prop := ∀ i ∈ d.on, i.Filled

def Top.Filled (t : Top Prop) : Prop := t.quantity

def Preference.Filled : Preference Prop → Prop
  | .high value | .low value | .expr value => value
  | .inverse term => term.Filled
  | .plus left right | .priorTo left right => left.Filled ∧ right.Filled

def Preferring.Filled (p : Preferring Prop) : Prop := p.term.Filled ∧ ∀ e ∈ p.partition, e

def WindowSpec.Filled (s : WindowSpec Prop) : Prop :=
  (∀ e ∈ s.partition, e) ∧ ∀ k ∈ s.order, k.Filled

def NamedWindow.Filled (w : NamedWindow Prop) : Prop := w.spec.Filled

def Hierarchy.Filled (h : Hierarchy Prop) : Prop := (∀ e ∈ h.startWith?, e) ∧ h.connectBy

def OracleClauses.Filled (o : OracleClauses Prop) : Prop := ∀ h ∈ o.hierarchy?, h.Filled

def InformixClauses.Filled (i : InformixClauses Prop) : Prop :=
  (∀ s ∈ i.skip?, s.rows) ∧ (∀ x ∈ i.first?, x.rows) ∧ ∀ t ∈ i.intoTemp?, t.Filled

structure Select.Filled (s : Select Prop Prop) : Prop where
  projects : s.items ≠ []
  items : ∀ i ∈ s.items, i.Filled
  source : ∀ r ∈ s.source?, r.Filled
  joins : ∀ j ∈ s.joins, j.Filled
  lateralViews : ∀ v ∈ s.lateralViews, v.Filled
  filter : ∀ e ∈ s.filter?, e
  groupBy : ∀ g ∈ s.groupBy?, g.Filled
  having : ∀ e ∈ s.having?, e
  qualify : ∀ e ∈ s.qualify?, e
  distinct : ∀ d ∈ s.distinct?, d.Filled
  top : ∀ t ∈ s.top?, t.Filled
  preferring : ∀ p ∈ s.preferring?, p.Filled
  windows : ∀ w ∈ s.windows, w.Filled
  into : ∀ t ∈ s.into, t.Filled
  oracle : ∀ o ∈ s.oracle?, o.Filled
  informix : ∀ i ∈ s.informix?, i.Filled

theorem Select.filled_fromSource {source : Relation Prop Prop} (filled : source.Filled) :
    (fromSource source).Filled := by
  constructor <;> simp [fromSource, Item.Filled, filled]

theorem Select.filled_filtered {source : Relation Prop Prop} (filled : source.Filled)
    {condition : Prop} (holds : condition) : (filtered source condition).Filled :=
  { filled_fromSource filled with filter := fun _ here => Option.some.inj here ▸ holds }

def Limit.Filled : Limit Prop → Prop
  | .all => True
  | .count rows => rows

def Lock.Filled (l : Lock) : Prop := ∀ t ∈ l.tables, t.Filled

def With.Filled (w : With Prop) : Prop := w.ctes ≠ [] ∧ ∀ c ∈ w.ctes, c.query

structure Envelope.Filled (e : Envelope Prop Prop) : Prop where
  withClause : ∀ w ∈ e.with?, w.Filled
  orderBy : ∀ o ∈ e.orderBy?, o.Filled
  limit : ∀ l ∈ e.limit?, l.Filled
  offset : ∀ o ∈ e.offset?, o.rows
  fetch : ∀ x ∈ e.fetch?, ∀ q ∈ x.quantity?, q
  locks : ∀ l ∈ e.locks, l.Filled

/-- Which nodes are filled, given which of their parts are. -/
def Filled.interpretation : Interpretation Prop Prop Prop where
  all operands := operands ≠ [] ∧ ∀ e ∈ operands, e
  any operands := operands ≠ [] ∧ ∀ e ∈ operands, e
  binary _ left right := left ∧ right
  column name := name.Filled
  call c := c.Filled
  inList subject members _ := subject ∧ ∀ e ∈ members, e
  isNull subject _ := subject
  nested inner := inner
  not operand := operand
  raw _ := True
  subquery query := query
  literal _ := True
  select s := s.Filled
  combined _ _ operands := operands ≠ [] ∧ ∀ b ∈ operands, b
  enclosed query := query
  query envelope body := envelope.Filled ∧ body

def Expr.Filled (e : Expr) : Prop := Filled.interpretation.ofExpr e

def Query.Filled (q : Query) : Prop := Filled.interpretation.ofQuery q

end SqlSelect
