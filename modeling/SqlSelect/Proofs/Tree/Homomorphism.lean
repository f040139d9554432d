import SqlSelect.Tree.Clauses
namespace SqlSelect

/-!
# Homomorphisms of interpretations

A map that carries each kind of node of one interpretation to the same kind of
node of another carries the meanings of whole trees.  With it, a relation that
every kind of node preserves holds between the meanings of every tree: this is
the induction over trees.
-/

variable {α β κ α' β' κ' : Type}

namespace Interpretation

/-- `f`, `g` and `k` carry the nodes of `I` to the nodes of `J`. -/
structure Hom (I : Interpretation α β κ) (J : Interpretation α' β' κ')
    (f : α → α') (g : β → β') (k : κ → κ') : Prop where
  all (operands : List α) : f (I.all operands) = J.all (operands.map f)
  any (operands : List α) : f (I.any operands) = J.any (operands.map f)
  binary (op : Operator) (left right : α) :
    f (I.binary op left right) = J.binary op (f left) (f right)
  column (name : Name) : f (I.column name) = J.column name
  call (c : Call α) : f (I.call c) = J.call (c.map f)
  inList (subject : α) (members : List α) (negated : Bool) :
    f (I.inList subject members negated) = J.inList (f subject) (members.map f) negated
  isNull (subject : α) (negated : Bool) :
    f (I.isNull subject negated) = J.isNull (f subject) negated
  nested (inner : α) : f (I.nested inner) = J.nested (f inner)
  not (operand : α) : f (I.not operand) = J.not (f operand)
  raw (text : String) : f (I.raw text) = J.raw text
  subquery (query : κ) : f (I.subquery query) = J.subquery (k query)
  literal (value : Literal) : f (I.literal value) = J.literal value
  select (s : Select α κ) : g (I.select s) = J.select (s.map f k)
  combined (op : SetOperator) (all : Bool) (operands : List β) :
    g (I.combined op all operands) = J.combined op all (operands.map g)
  enclosed (query : κ) : g (I.enclosed query) = J.enclosed (k query)
  query (envelope : Envelope α κ) (body : β) :
    k (I.query envelope body) = J.query (envelope.map f k) (g body)

variable {I : Interpretation α β κ} {J : Interpretation α' β' κ'}
variable {f : α → α'} {g : β → β'} {k : κ → κ'}

mutual

theorem Hom.ofExpr (h : Hom I J f g k) : ∀ e : Expr, f (I.ofExpr e) = J.ofExpr e
  | .all operands => by simp only [Interpretation.ofExpr, h.all, h.ofExprs operands]
  | .any operands => by simp only [Interpretation.ofExpr, h.any, h.ofExprs operands]
  | .binary op left right => by
      simp only [Interpretation.ofExpr, h.binary, h.ofExpr left, h.ofExpr right]
  | .column name => by simp only [Interpretation.ofExpr, h.column]
  | .call c => by simp only [Interpretation.ofExpr, h.call, h.ofCall c]
  | .inList subject members negated => by
      simp only [Interpretation.ofExpr, h.inList, h.ofExpr subject, h.ofExprs members]
  | .isNull subject negated => by simp only [Interpretation.ofExpr, h.isNull, h.ofExpr subject]
  | .nested inner => by simp only [Interpretation.ofExpr, h.nested, h.ofExpr inner]
  | .not operand => by simp only [Interpretation.ofExpr, h.not, h.ofExpr operand]
  | .raw text => by simp only [Interpretation.ofExpr, h.raw]
  | .subquery query => by simp only [Interpretation.ofExpr, h.subquery, h.ofQuery query]
  | .literal value => by simp only [Interpretation.ofExpr, h.literal]

theorem Hom.ofBody (h : Hom I J f g k) : ∀ b : Body, g (I.ofBody b) = J.ofBody b
  | .select s => by simp only [Interpretation.ofBody, h.select, h.ofSelect s]
  | .combined op all operands => by
      simp only [Interpretation.ofBody, h.combined, h.ofBodies operands]
  | .enclosed query => by simp only [Interpretation.ofBody, h.enclosed, h.ofQuery query]

theorem Hom.ofQuery (h : Hom I J f g k) : ∀ q : Query, k (I.ofQuery q) = J.ofQuery q
  | ⟨envelope, body⟩ => by
      simp only [Interpretation.ofQuery, h.query, h.ofEnvelope envelope, h.ofBody body]

theorem Hom.ofExprs (h : Hom I J f g k) : ∀ es : List Expr, (I.ofExprs es).map f = J.ofExprs es
  | [] => rfl
  | e :: rest => by
      simp only [Interpretation.ofExprs, List.map_cons, h.ofExpr e, h.ofExprs rest]

theorem Hom.ofBodies (h : Hom I J f g k) : ∀ bs : List Body, (I.ofBodies bs).map g = J.ofBodies bs
  | [] => rfl
  | b :: rest => by
      simp only [Interpretation.ofBodies, List.map_cons, h.ofBody b, h.ofBodies rest]

theorem Hom.ofExpr? (h : Hom I J f g k) : ∀ e : Option Expr, (I.ofExpr? e).map f = J.ofExpr? e
  | none => rfl
  | some e => by simp only [Interpretation.ofExpr?, Option.map_some, h.ofExpr e]

theorem Hom.ofExprLists (h : Hom I J f g k) :
    ∀ sets : List (List Expr), (I.ofExprLists sets).map (·.map f) = J.ofExprLists sets
  | [] => rfl
  | es :: rest => by
      simp only [Interpretation.ofExprLists, List.map_cons, h.ofExprs es, h.ofExprLists rest]

theorem Hom.ofCall (h : Hom I J f g k) : ∀ x : Call Expr, (I.ofCall x).map f = J.ofCall x
  | ⟨function, args, distinct⟩ => by
      simp only [Interpretation.ofCall, Call.map, h.ofExprs args]

theorem Hom.ofItem (h : Hom I J f g k) : ∀ x : Item Expr, (I.ofItem x).map f = J.ofItem x
  | .wildcard => rfl
  | .wildcardOf _ => rfl
  | .expr value _ => by simp only [Interpretation.ofItem, Item.map, h.ofExpr value]

theorem Hom.ofItems (h : Hom I J f g k) :
    ∀ xs : List (Item Expr), (I.ofItems xs).map (·.map f) = J.ofItems xs
  | [] => rfl
  | x :: rest => by
      simp only [Interpretation.ofItems, List.map_cons, h.ofItem x, h.ofItems rest]

theorem Hom.ofRelation (h : Hom I J f g k) :
    ∀ x : Relation Expr Query, (I.ofRelation x).map f k = J.ofRelation x
  | .table _ => rfl
  | .subquery query _ _ => by simp only [Interpretation.ofRelation, Relation.map, h.ofQuery query]
  | .function call _ => by simp only [Interpretation.ofRelation, Relation.map, h.ofCall call]

theorem Hom.ofRelation? (h : Hom I J f g k) :
    ∀ x : Option (Relation Expr Query), (I.ofRelation? x).map (·.map f k) = J.ofRelation? x
  | none => rfl
  | some x => by
      simp only [Interpretation.ofRelation?, Option.map_some, h.ofRelation x]

theorem Hom.ofJoin (h : Hom I J f g k) : ∀ x : Join Expr Query, (I.ofJoin x).map f k = J.ofJoin x
  | ⟨source, kind, global, straight, apply, simple, hint?, on, columns, within?⟩ => by
      simp only [Interpretation.ofJoin, Join.map, h.ofRelation source, h.ofExprs on]

theorem Hom.ofJoins (h : Hom I J f g k) :
    ∀ xs : List (Join Expr Query), (I.ofJoins xs).map (·.map f k) = J.ofJoins xs
  | [] => rfl
  | x :: rest => by
      simp only [Interpretation.ofJoins, List.map_cons, h.ofJoin x, h.ofJoins rest]

theorem Hom.ofLateralView (h : Hom I J f g k) :
    ∀ x : LateralView Expr, (I.ofLateralView x).map f = J.ofLateralView x
  | ⟨outer, generator, relation?, columns⟩ => by
      simp only [Interpretation.ofLateralView, LateralView.map, h.ofCall generator]

theorem Hom.ofLateralViews (h : Hom I J f g k) :
    ∀ xs : List (LateralView Expr), (I.ofLateralViews xs).map (·.map f) = J.ofLateralViews xs
  | [] => rfl
  | x :: rest => by
      simp only [Interpretation.ofLateralViews, List.map_cons, h.ofLateralView x,
        h.ofLateralViews rest]

theorem Hom.ofGroupBy (h : Hom I J f g k) :
    ∀ x : GroupBy Expr, (I.ofGroupBy x).map f = J.ofGroupBy x
  | ⟨exprs, sets⟩ => by
      simp only [Interpretation.ofGroupBy, GroupBy.map, h.ofExprs exprs, h.ofExprLists sets]

theorem Hom.ofGroupBy? (h : Hom I J f g k) :
    ∀ x : Option (GroupBy Expr), (I.ofGroupBy? x).map (·.map f) = J.ofGroupBy? x
  | none => rfl
  | some x => by
      simp only [Interpretation.ofGroupBy?, Option.map_some, h.ofGroupBy x]

theorem Hom.ofSortKey (h : Hom I J f g k) :
    ∀ x : SortKey Expr, (I.ofSortKey x).map f = J.ofSortKey x
  | ⟨expr, order?, nulls?⟩ => by
      simp only [Interpretation.ofSortKey, SortKey.map, h.ofExpr expr]

theorem Hom.ofSortKeys (h : Hom I J f g k) :
    ∀ xs : List (SortKey Expr), (I.ofSortKeys xs).map (·.map f) = J.ofSortKeys xs
  | [] => rfl
  | x :: rest => by
      simp only [Interpretation.ofSortKeys, List.map_cons, h.ofSortKey x, h.ofSortKeys rest]

theorem Hom.ofOrderBy (h : Hom I J f g k) :
    ∀ x : OrderBy Expr, (I.ofOrderBy x).map f = J.ofOrderBy x
  | ⟨keys, siblings⟩ => by
      simp only [Interpretation.ofOrderBy, OrderBy.map, h.ofSortKeys keys]

theorem Hom.ofOrderBy? (h : Hom I J f g k) :
    ∀ x : Option (OrderBy Expr), (I.ofOrderBy? x).map (·.map f) = J.ofOrderBy? x
  | none => rfl
  | some x => by
      simp only [Interpretation.ofOrderBy?, Option.map_some, h.ofOrderBy x]

theorem Hom.ofDistinct (h : Hom I J f g k) :
    ∀ x : Distinct Expr, (I.ofDistinct x).map f = J.ofDistinct x
  | ⟨unique, on⟩ => by
      simp only [Interpretation.ofDistinct, Distinct.map, h.ofItems on]

theorem Hom.ofDistinct? (h : Hom I J f g k) :
    ∀ x : Option (Distinct Expr), (I.ofDistinct? x).map (·.map f) = J.ofDistinct? x
  | none => rfl
  | some x => by
      simp only [Interpretation.ofDistinct?, Option.map_some, h.ofDistinct x]

theorem Hom.ofTop (h : Hom I J f g k) : ∀ x : Top Expr, (I.ofTop x).map f = J.ofTop x
  | ⟨quantity, parenthesized, percent, withTies⟩ => by
      simp only [Interpretation.ofTop, Top.map, h.ofExpr quantity]

theorem Hom.ofTop? (h : Hom I J f g k) :
    ∀ x : Option (Top Expr), (I.ofTop? x).map (·.map f) = J.ofTop? x
  | none => rfl
  | some x => by
      simp only [Interpretation.ofTop?, Option.map_some, h.ofTop x]

theorem Hom.ofPreference (h : Hom I J f g k) :
    ∀ x : Preference Expr, (I.ofPreference x).map f = J.ofPreference x
  | .high value => by simp only [Interpretation.ofPreference, Preference.map, h.ofExpr value]
  | .low value => by simp only [Interpretation.ofPreference, Preference.map, h.ofExpr value]
  | .inverse term => by simp only [Interpretation.ofPreference, Preference.map, h.ofPreference term]
  | .plus left right => by
      simp only [Interpretation.ofPreference, Preference.map, h.ofPreference left,
        h.ofPreference right]
  | .priorTo left right => by
      simp only [Interpretation.ofPreference, Preference.map, h.ofPreference left,
        h.ofPreference right]
  | .expr value => by simp only [Interpretation.ofPreference, Preference.map, h.ofExpr value]

theorem Hom.ofPreferring (h : Hom I J f g k) :
    ∀ x : Preferring Expr, (I.ofPreferring x).map f = J.ofPreferring x
  | ⟨term, partition⟩ => by
      simp only [Interpretation.ofPreferring, Preferring.map, h.ofPreference term,
        h.ofExprs partition]

theorem Hom.ofPreferring? (h : Hom I J f g k) :
    ∀ x : Option (Preferring Expr), (I.ofPreferring? x).map (·.map f) = J.ofPreferring? x
  | none => rfl
  | some x => by
      simp only [Interpretation.ofPreferring?, Option.map_some, h.ofPreferring x]

theorem Hom.ofWindowSpec (h : Hom I J f g k) :
    ∀ x : WindowSpec Expr, (I.ofWindowSpec x).map f = J.ofWindowSpec x
  | ⟨base?, partition, order⟩ => by
      simp only [Interpretation.ofWindowSpec, WindowSpec.map, h.ofExprs partition,
        h.ofSortKeys order]

theorem Hom.ofNamedWindow (h : Hom I J f g k) :
    ∀ x : NamedWindow Expr, (I.ofNamedWindow x).map f = J.ofNamedWindow x
  | ⟨name, spec⟩ => by
      simp only [Interpretation.ofNamedWindow, NamedWindow.map, h.ofWindowSpec spec]

theorem Hom.ofNamedWindows (h : Hom I J f g k) :
    ∀ xs : List (NamedWindow Expr), (I.ofNamedWindows xs).map (·.map f) = J.ofNamedWindows xs
  | [] => rfl
  | x :: rest => by
      simp only [Interpretation.ofNamedWindows, List.map_cons, h.ofNamedWindow x,
        h.ofNamedWindows rest]

theorem Hom.ofHierarchy (h : Hom I J f g k) :
    ∀ x : Hierarchy Expr, (I.ofHierarchy x).map f = J.ofHierarchy x
  | ⟨startWith?, connectBy, noCycle, connectFirst⟩ => by
      simp only [Interpretation.ofHierarchy, Hierarchy.map, h.ofExpr? startWith?,
        h.ofExpr connectBy]

theorem Hom.ofHierarchy? (h : Hom I J f g k) :
    ∀ x : Option (Hierarchy Expr), (I.ofHierarchy? x).map (·.map f) = J.ofHierarchy? x
  | none => rfl
  | some x => by
      simp only [Interpretation.ofHierarchy?, Option.map_some, h.ofHierarchy x]

theorem Hom.ofOracleClauses (h : Hom I J f g k) :
    ∀ x : OracleClauses Expr, (I.ofOracleClauses x).map f = J.ofOracleClauses x
  | ⟨hint?, hierarchy?⟩ => by
      simp only [Interpretation.ofOracleClauses, OracleClauses.map, h.ofHierarchy? hierarchy?]

theorem Hom.ofOracleClauses? (h : Hom I J f g k) :
    ∀ x : Option (OracleClauses Expr), (I.ofOracleClauses? x).map (·.map f) = J.ofOracleClauses? x
  | none => rfl
  | some x => by
      simp only [Interpretation.ofOracleClauses?, Option.map_some, h.ofOracleClauses x]

theorem Hom.ofSkip (h : Hom I J f g k) : ∀ x : Skip Expr, (I.ofSkip x).map f = J.ofSkip x
  | ⟨rows⟩ => by
      simp only [Interpretation.ofSkip, Skip.map, h.ofExpr rows]

theorem Hom.ofSkip? (h : Hom I J f g k) :
    ∀ x : Option (Skip Expr), (I.ofSkip? x).map (·.map f) = J.ofSkip? x
  | none => rfl
  | some x => by
      simp only [Interpretation.ofSkip?, Option.map_some, h.ofSkip x]

theorem Hom.ofFirst (h : Hom I J f g k) : ∀ x : First Expr, (I.ofFirst x).map f = J.ofFirst x
  | ⟨limit, rows⟩ => by
      simp only [Interpretation.ofFirst, First.map, h.ofExpr rows]

theorem Hom.ofFirst? (h : Hom I J f g k) :
    ∀ x : Option (First Expr), (I.ofFirst? x).map (·.map f) = J.ofFirst? x
  | none => rfl
  | some x => by
      simp only [Interpretation.ofFirst?, Option.map_some, h.ofFirst x]

theorem Hom.ofInformixClauses (h : Hom I J f g k) :
    ∀ x : InformixClauses Expr, (I.ofInformixClauses x).map f = J.ofInformixClauses x
  | ⟨skip?, first?, intoTemp?, noLog⟩ => by
      simp only [Interpretation.ofInformixClauses, InformixClauses.map, h.ofSkip? skip?,
        h.ofFirst? first?]

theorem Hom.ofInformixClauses? (h : Hom I J f g k) :
    ∀ x : Option (InformixClauses Expr),
      (I.ofInformixClauses? x).map (·.map f) = J.ofInformixClauses? x
  | none => rfl
  | some x => by
      simp only [Interpretation.ofInformixClauses?, Option.map_some, h.ofInformixClauses x]

theorem Hom.ofSelect (h : Hom I J f g k) :
    ∀ x : Select Expr Query, (I.ofSelect x).map f k = J.ofSelect x
  | ⟨items, source?, joins, views, filter?, groupBy?, having?, qualify?, distinct?, shape?, top?,
      optimizeFor?, preferring?, xmlPath?, windows, merged, only, into, mysql?, oracle?,
      informix?, stream?⟩ => by
      simp only [Interpretation.ofSelect, Select.map, h.ofItems items, h.ofRelation? source?,
        h.ofJoins joins, h.ofLateralViews views, h.ofExpr? filter?, h.ofGroupBy? groupBy?,
        h.ofExpr? having?, h.ofExpr? qualify?, h.ofDistinct? distinct?, h.ofTop? top?,
        h.ofPreferring? preferring?, h.ofNamedWindows windows, h.ofOracleClauses? oracle?,
        h.ofInformixClauses? informix?]

theorem Hom.ofLimit (h : Hom I J f g k) : ∀ x : Limit Expr, (I.ofLimit x).map f = J.ofLimit x
  | .all => rfl
  | .count rows => by simp only [Interpretation.ofLimit, Limit.map, h.ofExpr rows]

theorem Hom.ofLimit? (h : Hom I J f g k) :
    ∀ x : Option (Limit Expr), (I.ofLimit? x).map (·.map f) = J.ofLimit? x
  | none => rfl
  | some x => by
      simp only [Interpretation.ofLimit?, Option.map_some, h.ofLimit x]

theorem Hom.ofOffset (h : Hom I J f g k) : ∀ x : Offset Expr, (I.ofOffset x).map f = J.ofOffset x
  | ⟨rows, word?⟩ => by
      simp only [Interpretation.ofOffset, Offset.map, h.ofExpr rows]

theorem Hom.ofOffset? (h : Hom I J f g k) :
    ∀ x : Option (Offset Expr), (I.ofOffset? x).map (·.map f) = J.ofOffset? x
  | none => rfl
  | some x => by
      simp only [Interpretation.ofOffset?, Option.map_some, h.ofOffset x]

theorem Hom.ofFetch (h : Hom I J f g k) : ∀ x : Fetch Expr, (I.ofFetch x).map f = J.ofFetch x
  | ⟨quantity?, percent, withTies⟩ => by
      simp only [Interpretation.ofFetch, Fetch.map, h.ofExpr? quantity?]

theorem Hom.ofFetch? (h : Hom I J f g k) :
    ∀ x : Option (Fetch Expr), (I.ofFetch? x).map (·.map f) = J.ofFetch? x
  | none => rfl
  | some x => by
      simp only [Interpretation.ofFetch?, Option.map_some, h.ofFetch x]

theorem Hom.ofCte (h : Hom I J f g k) : ∀ x : Cte Query, (I.ofCte x).map k = J.ofCte x
  | ⟨name, columns, query⟩ => by
      simp only [Interpretation.ofCte, Cte.map, h.ofQuery query]

theorem Hom.ofCtes (h : Hom I J f g k) :
    ∀ xs : List (Cte Query), (I.ofCtes xs).map (·.map k) = J.ofCtes xs
  | [] => rfl
  | x :: rest => by
      simp only [Interpretation.ofCtes, List.map_cons, h.ofCte x, h.ofCtes rest]

theorem Hom.ofWith (h : Hom I J f g k) : ∀ x : With Query, (I.ofWith x).map k = J.ofWith x
  | ⟨recursive, ctes⟩ => by
      simp only [Interpretation.ofWith, With.map, h.ofCtes ctes]

theorem Hom.ofWith? (h : Hom I J f g k) :
    ∀ x : Option (With Query), (I.ofWith? x).map (·.map k) = J.ofWith? x
  | none => rfl
  | some x => by
      simp only [Interpretation.ofWith?, Option.map_some, h.ofWith x]

theorem Hom.ofEnvelope (h : Hom I J f g k) :
    ∀ x : Envelope Expr Query, (I.ofEnvelope x).map f k = J.ofEnvelope x
  | ⟨with?, orderBy?, limit?, offset?, fetch?, locks⟩ => by
      simp only [Interpretation.ofEnvelope, Envelope.map, h.ofWith? with?, h.ofOrderBy? orderBy?,
        h.ofLimit? limit?, h.ofOffset? offset?, h.ofFetch? fetch?]

end

/-- A relation between the nodes of two interpretations that every kind of node
    preserves.  The parts of a clause come from a type of their own, all members
    of which are related. -/
structure Related (I : Interpretation α β κ) (J : Interpretation α' β' κ')
    (P : α → α' → Prop) (Q : β → β' → Prop) (R : κ → κ' → Prop) : Prop where
  all {ε : Type} (f : ε → α) (f' : ε → α') (parts : ∀ e, P (f e) (f' e)) (operands : List ε) :
    P (I.all (operands.map f)) (J.all (operands.map f'))
  any {ε : Type} (f : ε → α) (f' : ε → α') (parts : ∀ e, P (f e) (f' e)) (operands : List ε) :
    P (I.any (operands.map f)) (J.any (operands.map f'))
  binary (op : Operator) {left right : α} {left' right' : α'} :
    P left left' → P right right' → P (I.binary op left right) (J.binary op left' right')
  column (name : Name) : P (I.column name) (J.column name)
  call {ε : Type} (f : ε → α) (f' : ε → α') (parts : ∀ e, P (f e) (f' e)) (c : Call ε) :
    P (I.call (c.map f)) (J.call (c.map f'))
  inList {ε : Type} (f : ε → α) (f' : ε → α') (parts : ∀ e, P (f e) (f' e)) (subject : ε)
    (members : List ε) (negated : Bool) :
    P (I.inList (f subject) (members.map f) negated)
      (J.inList (f' subject) (members.map f') negated)
  isNull (negated : Bool) {subject : α} {subject' : α'} :
    P subject subject' → P (I.isNull subject negated) (J.isNull subject' negated)
  nested {inner : α} {inner' : α'} : P inner inner' → P (I.nested inner) (J.nested inner')
  not {operand : α} {operand' : α'} : P operand operand' → P (I.not operand) (J.not operand')
  raw (text : String) : P (I.raw text) (J.raw text)
  subquery {query : κ} {query' : κ'} : R query query' → P (I.subquery query) (J.subquery query')
  literal (value : Literal) : P (I.literal value) (J.literal value)
  select {ε χ : Type} (f : ε → α) (f' : ε → α') (parts : ∀ e, P (f e) (f' e))
    (g : χ → κ) (g' : χ → κ') (queries : ∀ q, R (g q) (g' q)) (s : Select ε χ) :
    Q (I.select (s.map f g)) (J.select (s.map f' g'))
  combined (op : SetOperator) (all : Bool) {ε : Type} (f : ε → β) (f' : ε → β')
    (parts : ∀ b, Q (f b) (f' b)) (operands : List ε) :
    Q (I.combined op all (operands.map f)) (J.combined op all (operands.map f'))
  enclosed {query : κ} {query' : κ'} : R query query' → Q (I.enclosed query) (J.enclosed query')
  query {ε χ : Type} (f : ε → α) (f' : ε → α') (parts : ∀ e, P (f e) (f' e))
    (g : χ → κ) (g' : χ → κ') (queries : ∀ q, R (g q) (g' q)) (envelope : Envelope ε χ)
    {body : β} {body' : β'} : Q body body' →
    R (I.query (envelope.map f g) body) (J.query (envelope.map f' g') body')

namespace Related

variable {P : α → α' → Prop} {Q : β → β' → Prop} {R : κ → κ' → Prop}

/-- Both interpretations at once, with the proof that they are related. -/
def pair (h : Related I J P Q R) :
    Interpretation {p : α × α' // P p.1 p.2} {p : β × β' // Q p.1 p.2}
      {p : κ × κ' // R p.1 p.2} where
  all operands := ⟨(_, _), h.all (·.1.1) (·.1.2) (·.2) operands⟩
  any operands := ⟨(_, _), h.any (·.1.1) (·.1.2) (·.2) operands⟩
  binary op left right := ⟨(_, _), h.binary op left.2 right.2⟩
  column name := ⟨(_, _), h.column name⟩
  call c := ⟨(_, _), h.call (·.1.1) (·.1.2) (·.2) c⟩
  inList subject members negated :=
    ⟨(_, _), h.inList (·.1.1) (·.1.2) (·.2) subject members negated⟩
  isNull subject negated := ⟨(_, _), h.isNull negated subject.2⟩
  nested inner := ⟨(_, _), h.nested inner.2⟩
  not operand := ⟨(_, _), h.not operand.2⟩
  raw text := ⟨(_, _), h.raw text⟩
  subquery query := ⟨(_, _), h.subquery query.2⟩
  literal value := ⟨(_, _), h.literal value⟩
  select s := ⟨(_, _), h.select (·.1.1) (·.1.2) (·.2) (·.1.1) (·.1.2) (·.2) s⟩
  combined op all operands := ⟨(_, _), h.combined op all (·.1.1) (·.1.2) (·.2) operands⟩
  enclosed query := ⟨(_, _), h.enclosed query.2⟩
  query envelope body :=
    ⟨(_, _), h.query (·.1.1) (·.1.2) (·.2) (·.1.1) (·.1.2) (·.2) envelope body.2⟩

theorem fst (h : Related I J P Q R) : Hom h.pair I (·.1.1) (·.1.1) (·.1.1) := by
  constructor <;> intros <;> rfl

theorem snd (h : Related I J P Q R) : Hom h.pair J (·.1.2) (·.1.2) (·.1.2) := by
  constructor <;> intros <;> rfl

theorem ofExpr (h : Related I J P Q R) (e : Expr) : P (I.ofExpr e) (J.ofExpr e) := by
  have both := (h.pair.ofExpr e).2
  rwa [h.fst.ofExpr, h.snd.ofExpr] at both

theorem ofBody (h : Related I J P Q R) (b : Body) : Q (I.ofBody b) (J.ofBody b) := by
  have both := (h.pair.ofBody b).2
  rwa [h.fst.ofBody, h.snd.ofBody] at both

theorem ofQuery (h : Related I J P Q R) (q : Query) : R (I.ofQuery q) (J.ofQuery q) := by
  have both := (h.pair.ofQuery q).2
  rwa [h.fst.ofQuery, h.snd.ofQuery] at both

end Related

end Interpretation
end SqlSelect
