import SqlSelect.Tree.Basic
namespace SqlSelect

/-!
# Interpretations of a tree

An interpretation says what each kind of expression, body and query means, given
the meanings of its parts.  `ofExpr`, `ofBody` and `ofQuery` extend it to whole
trees.  This is the only recursion over trees: a function of a whole tree is an
interpretation, and a fact about all trees is one about each kind of node.
-/

/-- A meaning for every kind of node: `α` for expressions, `β` for bodies and `κ`
    for queries. -/
structure Interpretation (α β κ : Type) where
  all : List α → α
  any : List α → α
  binary : Operator → α → α → α
  column : Name → α
  call : Call α → α
  inList : α → List α → Bool → α
  isNull : α → Bool → α
  nested : α → α
  not : α → α
  raw : String → α
  subquery : κ → α
  literal : Literal → α
  select : Select α κ → β
  combined : SetOperator → Bool → List β → β
  enclosed : κ → β
  query : Envelope α κ → β → κ

namespace Interpretation

variable {α β κ : Type}

mutual

def ofExpr (I : Interpretation α β κ) : Expr → α
  | .all operands => I.all (ofExprs I operands)
  | .any operands => I.any (ofExprs I operands)
  | .binary op left right => I.binary op (ofExpr I left) (ofExpr I right)
  | .column name => I.column name
  | .call c => I.call (ofCall I c)
  | .inList subject members negated => I.inList (ofExpr I subject) (ofExprs I members) negated
  | .isNull subject negated => I.isNull (ofExpr I subject) negated
  | .nested inner => I.nested (ofExpr I inner)
  | .not operand => I.not (ofExpr I operand)
  | .raw text => I.raw text
  | .subquery query => I.subquery (ofQuery I query)
  | .literal value => I.literal value

def ofBody (I : Interpretation α β κ) : Body → β
  | .select s => I.select (ofSelect I s)
  | .combined op all operands => I.combined op all (ofBodies I operands)
  | .enclosed query => I.enclosed (ofQuery I query)

def ofQuery (I : Interpretation α β κ) : Query → κ
  | ⟨envelope, body⟩ => I.query (ofEnvelope I envelope) (ofBody I body)

def ofExprs (I : Interpretation α β κ) : List Expr → List α
  | [] => []
  | x :: rest => ofExpr I x :: ofExprs I rest

def ofBodies (I : Interpretation α β κ) : List Body → List β
  | [] => []
  | x :: rest => ofBody I x :: ofBodies I rest

def ofExpr? (I : Interpretation α β κ) : Option Expr → Option α
  | none => none
  | some x => some (ofExpr I x)

def ofExprLists (I : Interpretation α β κ) : List (List Expr) → List (List α)
  | [] => []
  | x :: rest => ofExprs I x :: ofExprLists I rest

def ofCall (I : Interpretation α β κ) : Call Expr → Call α
  | ⟨function, args, distinct⟩ => ⟨function, ofExprs I args, distinct⟩

def ofItem (I : Interpretation α β κ) : Item Expr → Item α
  | .wildcard => .wildcard
  | .wildcardOf relation => .wildcardOf relation
  | .expr value alias? => .expr (ofExpr I value) alias?

def ofItems (I : Interpretation α β κ) : List (Item Expr) → List (Item α)
  | [] => []
  | x :: rest => ofItem I x :: ofItems I rest

def ofRelation (I : Interpretation α β κ) : Relation Expr Query → Relation α κ
  | .table t => .table t
  | .subquery query alias? lateral => .subquery (ofQuery I query) alias? lateral
  | .function call alias? => .function (ofCall I call) alias?

def ofRelation? (I : Interpretation α β κ) : Option (Relation Expr Query) → Option (Relation α κ)
  | none => none
  | some x => some (ofRelation I x)

def ofJoin (I : Interpretation α β κ) : Join Expr Query → Join α κ
  | ⟨source, kind, global, straight, apply, simple, hint?, on, columns, within?⟩ =>
      ⟨ofRelation I source, kind, global, straight, apply, simple, hint?, ofExprs I on,
        columns, within?⟩

def ofJoins (I : Interpretation α β κ) : List (Join Expr Query) → List (Join α κ)
  | [] => []
  | x :: rest => ofJoin I x :: ofJoins I rest

def ofLateralView (I : Interpretation α β κ) : LateralView Expr → LateralView α
  | ⟨outer, generator, relation?, columns⟩ => ⟨outer, ofCall I generator, relation?, columns⟩

def ofLateralViews (I : Interpretation α β κ) : List (LateralView Expr) → List (LateralView α)
  | [] => []
  | x :: rest => ofLateralView I x :: ofLateralViews I rest

def ofGroupBy (I : Interpretation α β κ) : GroupBy Expr → GroupBy α
  | ⟨exprs, sets⟩ => ⟨ofExprs I exprs, ofExprLists I sets⟩

def ofGroupBy? (I : Interpretation α β κ) : Option (GroupBy Expr) → Option (GroupBy α)
  | none => none
  | some x => some (ofGroupBy I x)

def ofSortKey (I : Interpretation α β κ) : SortKey Expr → SortKey α
  | ⟨expr, order?, nulls?⟩ => ⟨ofExpr I expr, order?, nulls?⟩

def ofSortKeys (I : Interpretation α β κ) : List (SortKey Expr) → List (SortKey α)
  | [] => []
  | x :: rest => ofSortKey I x :: ofSortKeys I rest

def ofOrderBy (I : Interpretation α β κ) : OrderBy Expr → OrderBy α
  | ⟨keys, siblings⟩ => ⟨ofSortKeys I keys, siblings⟩

def ofOrderBy? (I : Interpretation α β κ) : Option (OrderBy Expr) → Option (OrderBy α)
  | none => none
  | some x => some (ofOrderBy I x)

def ofDistinct (I : Interpretation α β κ) : Distinct Expr → Distinct α
  | ⟨unique, on⟩ => ⟨unique, ofItems I on⟩

def ofDistinct? (I : Interpretation α β κ) : Option (Distinct Expr) → Option (Distinct α)
  | none => none
  | some x => some (ofDistinct I x)

def ofTop (I : Interpretation α β κ) : Top Expr → Top α
  | ⟨quantity, parenthesized, percent, withTies⟩ =>
      ⟨ofExpr I quantity, parenthesized, percent, withTies⟩

def ofTop? (I : Interpretation α β κ) : Option (Top Expr) → Option (Top α)
  | none => none
  | some x => some (ofTop I x)

def ofPreference (I : Interpretation α β κ) : Preference Expr → Preference α
  | .high value => .high (ofExpr I value)
  | .low value => .low (ofExpr I value)
  | .inverse term => .inverse (ofPreference I term)
  | .plus left right => .plus (ofPreference I left) (ofPreference I right)
  | .priorTo left right => .priorTo (ofPreference I left) (ofPreference I right)
  | .expr value => .expr (ofExpr I value)

def ofPreferring (I : Interpretation α β κ) : Preferring Expr → Preferring α
  | ⟨term, partition⟩ => ⟨ofPreference I term, ofExprs I partition⟩

def ofPreferring? (I : Interpretation α β κ) : Option (Preferring Expr) → Option (Preferring α)
  | none => none
  | some x => some (ofPreferring I x)

def ofWindowSpec (I : Interpretation α β κ) : WindowSpec Expr → WindowSpec α
  | ⟨base?, partition, order⟩ => ⟨base?, ofExprs I partition, ofSortKeys I order⟩

def ofNamedWindow (I : Interpretation α β κ) : NamedWindow Expr → NamedWindow α
  | ⟨name, spec⟩ => ⟨name, ofWindowSpec I spec⟩

def ofNamedWindows (I : Interpretation α β κ) : List (NamedWindow Expr) → List (NamedWindow α)
  | [] => []
  | x :: rest => ofNamedWindow I x :: ofNamedWindows I rest

def ofHierarchy (I : Interpretation α β κ) : Hierarchy Expr → Hierarchy α
  | ⟨startWith?, connectBy, noCycle, connectFirst⟩ =>
      ⟨ofExpr? I startWith?, ofExpr I connectBy, noCycle, connectFirst⟩

def ofHierarchy? (I : Interpretation α β κ) : Option (Hierarchy Expr) → Option (Hierarchy α)
  | none => none
  | some x => some (ofHierarchy I x)

def ofOracleClauses (I : Interpretation α β κ) : OracleClauses Expr → OracleClauses α
  | ⟨hint?, hierarchy?⟩ => ⟨hint?, ofHierarchy? I hierarchy?⟩

def ofOracleClauses? (I : Interpretation α β κ) : Option (OracleClauses Expr) → Option (OracleClauses α)
  | none => none
  | some x => some (ofOracleClauses I x)

def ofSkip (I : Interpretation α β κ) : Skip Expr → Skip α
  | ⟨rows⟩ => ⟨ofExpr I rows⟩

def ofSkip? (I : Interpretation α β κ) : Option (Skip Expr) → Option (Skip α)
  | none => none
  | some x => some (ofSkip I x)

def ofFirst (I : Interpretation α β κ) : First Expr → First α
  | ⟨limit, rows⟩ => ⟨limit, ofExpr I rows⟩

def ofFirst? (I : Interpretation α β κ) : Option (First Expr) → Option (First α)
  | none => none
  | some x => some (ofFirst I x)

def ofInformixClauses (I : Interpretation α β κ) : InformixClauses Expr → InformixClauses α
  | ⟨skip?, first?, intoTemp?, noLog⟩ => ⟨ofSkip? I skip?, ofFirst? I first?, intoTemp?, noLog⟩

def ofInformixClauses? (I : Interpretation α β κ) : Option (InformixClauses Expr) → Option (InformixClauses α)
  | none => none
  | some x => some (ofInformixClauses I x)

def ofSelect (I : Interpretation α β κ) : Select Expr Query → Select α κ
  | ⟨items, source?, joins, views, filter?, groupBy?, having?, qualify?, distinct?, shape?,
      top?, optimizeFor?, preferring?, xmlPath?, windows, merged, only, into, mysql?,
      oracle?, informix?, stream?⟩ =>
      ⟨ofItems I items, ofRelation? I source?, ofJoins I joins, ofLateralViews I views,
        ofExpr? I filter?, ofGroupBy? I groupBy?, ofExpr? I having?, ofExpr? I qualify?,
        ofDistinct? I distinct?, shape?, ofTop? I top?, optimizeFor?,
        ofPreferring? I preferring?, xmlPath?, ofNamedWindows I windows, merged, only, into,
        mysql?, ofOracleClauses? I oracle?, ofInformixClauses? I informix?, stream?⟩

def ofLimit (I : Interpretation α β κ) : Limit Expr → Limit α
  | .all => .all
  | .count rows => .count (ofExpr I rows)

def ofLimit? (I : Interpretation α β κ) : Option (Limit Expr) → Option (Limit α)
  | none => none
  | some x => some (ofLimit I x)

def ofOffset (I : Interpretation α β κ) : Offset Expr → Offset α
  | ⟨rows, word?⟩ => ⟨ofExpr I rows, word?⟩

def ofOffset? (I : Interpretation α β κ) : Option (Offset Expr) → Option (Offset α)
  | none => none
  | some x => some (ofOffset I x)

def ofFetch (I : Interpretation α β κ) : Fetch Expr → Fetch α
  | ⟨quantity?, percent, withTies⟩ => ⟨ofExpr? I quantity?, percent, withTies⟩

def ofFetch? (I : Interpretation α β κ) : Option (Fetch Expr) → Option (Fetch α)
  | none => none
  | some x => some (ofFetch I x)

def ofCte (I : Interpretation α β κ) : Cte Query → Cte κ
  | ⟨name, columns, query⟩ => ⟨name, columns, ofQuery I query⟩

def ofCtes (I : Interpretation α β κ) : List (Cte Query) → List (Cte κ)
  | [] => []
  | x :: rest => ofCte I x :: ofCtes I rest

def ofWith (I : Interpretation α β κ) : With Query → With κ
  | ⟨recursive, ctes⟩ => ⟨recursive, ofCtes I ctes⟩

def ofWith? (I : Interpretation α β κ) : Option (With Query) → Option (With κ)
  | none => none
  | some x => some (ofWith I x)

def ofEnvelope (I : Interpretation α β κ) : Envelope Expr Query → Envelope α κ
  | ⟨with?, orderBy?, limit?, offset?, fetch?, locks⟩ =>
      ⟨ofWith? I with?, ofOrderBy? I orderBy?, ofLimit? I limit?, ofOffset? I offset?,
        ofFetch? I fetch?, locks⟩

end

end Interpretation
end SqlSelect
