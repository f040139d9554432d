import SqlSelect.Tree.Interpretation
namespace SqlSelect.Interpretation

variable {α β κ : Type} (I : Interpretation α β κ)

@[simp] theorem ofExprs_eq (es : List Expr) : I.ofExprs es = es.map I.ofExpr := by
  induction es with
  | nil => rfl
  | cons e rest ih => simp [ofExprs, ih]

@[simp] theorem ofBodies_eq (bs : List Body) : I.ofBodies bs = bs.map I.ofBody := by
  induction bs with
  | nil => rfl
  | cons b rest ih => simp [ofBodies, ih]

@[simp] theorem ofExprLists_eq (sets : List (List Expr)) :
    I.ofExprLists sets = sets.map (·.map I.ofExpr) := by
  induction sets with
  | nil => rfl
  | cons es rest ih => simp [ofExprLists, ih]

@[simp] theorem ofExpr?_eq (e : Option Expr) : I.ofExpr? e = e.map I.ofExpr := by
  cases e <;> rfl

@[simp] theorem ofCall_eq (x : Call Expr) : I.ofCall x = x.map I.ofExpr := by
  cases x
  simp [ofCall, Call.map]

@[simp] theorem ofItem_eq (x : Item Expr) : I.ofItem x = x.map I.ofExpr := by
  cases x <;> simp [ofItem, Item.map]

@[simp] theorem ofItems_eq (xs : List (Item Expr)) : I.ofItems xs = xs.map (·.map I.ofExpr) := by
  induction xs with
  | nil => rfl
  | cons x rest ih => simp [ofItems, ih]

@[simp] theorem ofRelation_eq (x : Relation Expr Query) : I.ofRelation x = x.map I.ofExpr I.ofQuery := by
  cases x <;> simp [ofRelation, Relation.map]

@[simp] theorem ofRelation?_eq (x : Option (Relation Expr Query)) : I.ofRelation? x = x.map (·.map I.ofExpr I.ofQuery) := by
  cases x <;> simp [ofRelation?]

@[simp] theorem ofJoin_eq (x : Join Expr Query) : I.ofJoin x = x.map I.ofExpr I.ofQuery := by
  cases x
  simp [ofJoin, Join.map]

@[simp] theorem ofJoins_eq (xs : List (Join Expr Query)) : I.ofJoins xs = xs.map (·.map I.ofExpr I.ofQuery) := by
  induction xs with
  | nil => rfl
  | cons x rest ih => simp [ofJoins, ih]

@[simp] theorem ofLateralView_eq (x : LateralView Expr) : I.ofLateralView x = x.map I.ofExpr := by
  cases x
  simp [ofLateralView, LateralView.map]

@[simp] theorem ofLateralViews_eq (xs : List (LateralView Expr)) : I.ofLateralViews xs = xs.map (·.map I.ofExpr) := by
  induction xs with
  | nil => rfl
  | cons x rest ih => simp [ofLateralViews, ih]

@[simp] theorem ofGroupBy_eq (x : GroupBy Expr) : I.ofGroupBy x = x.map I.ofExpr := by
  cases x
  simp [ofGroupBy, GroupBy.map]

@[simp] theorem ofGroupBy?_eq (x : Option (GroupBy Expr)) : I.ofGroupBy? x = x.map (·.map I.ofExpr) := by
  cases x <;> simp [ofGroupBy?]

@[simp] theorem ofSortKey_eq (x : SortKey Expr) : I.ofSortKey x = x.map I.ofExpr := by
  cases x
  simp [ofSortKey, SortKey.map]

@[simp] theorem ofSortKeys_eq (xs : List (SortKey Expr)) : I.ofSortKeys xs = xs.map (·.map I.ofExpr) := by
  induction xs with
  | nil => rfl
  | cons x rest ih => simp [ofSortKeys, ih]

@[simp] theorem ofOrderBy_eq (x : OrderBy Expr) : I.ofOrderBy x = x.map I.ofExpr := by
  cases x
  simp [ofOrderBy, OrderBy.map]

@[simp] theorem ofOrderBy?_eq (x : Option (OrderBy Expr)) : I.ofOrderBy? x = x.map (·.map I.ofExpr) := by
  cases x <;> simp [ofOrderBy?]

@[simp] theorem ofDistinct_eq (x : Distinct Expr) : I.ofDistinct x = x.map I.ofExpr := by
  cases x
  simp [ofDistinct, Distinct.map]

@[simp] theorem ofDistinct?_eq (x : Option (Distinct Expr)) : I.ofDistinct? x = x.map (·.map I.ofExpr) := by
  cases x <;> simp [ofDistinct?]

@[simp] theorem ofTop_eq (x : Top Expr) : I.ofTop x = x.map I.ofExpr := by
  cases x
  simp [ofTop, Top.map]

@[simp] theorem ofTop?_eq (x : Option (Top Expr)) : I.ofTop? x = x.map (·.map I.ofExpr) := by
  cases x <;> simp [ofTop?]

@[simp] theorem ofPreference_eq (x : Preference Expr) : I.ofPreference x = x.map I.ofExpr := by
  induction x <;> simp_all [ofPreference, Preference.map]

@[simp] theorem ofPreferring_eq (x : Preferring Expr) : I.ofPreferring x = x.map I.ofExpr := by
  cases x
  simp [ofPreferring, Preferring.map]

@[simp] theorem ofPreferring?_eq (x : Option (Preferring Expr)) : I.ofPreferring? x = x.map (·.map I.ofExpr) := by
  cases x <;> simp [ofPreferring?]

@[simp] theorem ofWindowSpec_eq (x : WindowSpec Expr) : I.ofWindowSpec x = x.map I.ofExpr := by
  cases x
  simp [ofWindowSpec, WindowSpec.map]

@[simp] theorem ofNamedWindow_eq (x : NamedWindow Expr) : I.ofNamedWindow x = x.map I.ofExpr := by
  cases x
  simp [ofNamedWindow, NamedWindow.map]

@[simp] theorem ofNamedWindows_eq (xs : List (NamedWindow Expr)) : I.ofNamedWindows xs = xs.map (·.map I.ofExpr) := by
  induction xs with
  | nil => rfl
  | cons x rest ih => simp [ofNamedWindows, ih]

@[simp] theorem ofHierarchy_eq (x : Hierarchy Expr) : I.ofHierarchy x = x.map I.ofExpr := by
  cases x
  simp [ofHierarchy, Hierarchy.map]

@[simp] theorem ofHierarchy?_eq (x : Option (Hierarchy Expr)) : I.ofHierarchy? x = x.map (·.map I.ofExpr) := by
  cases x <;> simp [ofHierarchy?]

@[simp] theorem ofOracleClauses_eq (x : OracleClauses Expr) : I.ofOracleClauses x = x.map I.ofExpr := by
  cases x
  simp [ofOracleClauses, OracleClauses.map]

@[simp] theorem ofOracleClauses?_eq (x : Option (OracleClauses Expr)) : I.ofOracleClauses? x = x.map (·.map I.ofExpr) := by
  cases x <;> simp [ofOracleClauses?]

@[simp] theorem ofSkip_eq (x : Skip Expr) : I.ofSkip x = x.map I.ofExpr := by
  cases x
  simp [ofSkip, Skip.map]

@[simp] theorem ofSkip?_eq (x : Option (Skip Expr)) : I.ofSkip? x = x.map (·.map I.ofExpr) := by
  cases x <;> simp [ofSkip?]

@[simp] theorem ofFirst_eq (x : First Expr) : I.ofFirst x = x.map I.ofExpr := by
  cases x
  simp [ofFirst, First.map]

@[simp] theorem ofFirst?_eq (x : Option (First Expr)) : I.ofFirst? x = x.map (·.map I.ofExpr) := by
  cases x <;> simp [ofFirst?]

@[simp] theorem ofInformixClauses_eq (x : InformixClauses Expr) : I.ofInformixClauses x = x.map I.ofExpr := by
  cases x
  simp [ofInformixClauses, InformixClauses.map]

@[simp] theorem ofInformixClauses?_eq (x : Option (InformixClauses Expr)) : I.ofInformixClauses? x = x.map (·.map I.ofExpr) := by
  cases x <;> simp [ofInformixClauses?]

@[simp] theorem ofSelect_eq (x : Select Expr Query) : I.ofSelect x = x.map I.ofExpr I.ofQuery := by
  cases x
  simp [ofSelect, Select.map]

@[simp] theorem ofLimit_eq (x : Limit Expr) : I.ofLimit x = x.map I.ofExpr := by
  cases x <;> simp [ofLimit, Limit.map]

@[simp] theorem ofLimit?_eq (x : Option (Limit Expr)) : I.ofLimit? x = x.map (·.map I.ofExpr) := by
  cases x <;> simp [ofLimit?]

@[simp] theorem ofOffset_eq (x : Offset Expr) : I.ofOffset x = x.map I.ofExpr := by
  cases x
  simp [ofOffset, Offset.map]

@[simp] theorem ofOffset?_eq (x : Option (Offset Expr)) : I.ofOffset? x = x.map (·.map I.ofExpr) := by
  cases x <;> simp [ofOffset?]

@[simp] theorem ofFetch_eq (x : Fetch Expr) : I.ofFetch x = x.map I.ofExpr := by
  cases x
  simp [ofFetch, Fetch.map]

@[simp] theorem ofFetch?_eq (x : Option (Fetch Expr)) : I.ofFetch? x = x.map (·.map I.ofExpr) := by
  cases x <;> simp [ofFetch?]

@[simp] theorem ofCte_eq (x : Cte Query) : I.ofCte x = x.map I.ofQuery := by
  cases x
  simp [ofCte, Cte.map]

@[simp] theorem ofCtes_eq (xs : List (Cte Query)) : I.ofCtes xs = xs.map (·.map I.ofQuery) := by
  induction xs with
  | nil => rfl
  | cons x rest ih => simp [ofCtes, ih]

@[simp] theorem ofWith_eq (x : With Query) : I.ofWith x = x.map I.ofQuery := by
  cases x
  simp [ofWith, With.map]

@[simp] theorem ofWith?_eq (x : Option (With Query)) : I.ofWith? x = x.map (·.map I.ofQuery) := by
  cases x <;> simp [ofWith?]

@[simp] theorem ofEnvelope_eq (x : Envelope Expr Query) : I.ofEnvelope x = x.map I.ofExpr I.ofQuery := by
  cases x
  simp [ofEnvelope, Envelope.map]

/-- A query means what its envelope and its body mean together. -/
theorem ofQuery_eq (q : Query) :
    I.ofQuery q = I.query (q.envelope.map I.ofExpr I.ofQuery) (I.ofBody q.body) := by
  obtain ⟨envelope, body⟩ := q
  simp [ofQuery]

end SqlSelect.Interpretation
