import SqlSelect.Clause.Distinct
import SqlSelect.Clause.GroupBy
import SqlSelect.Clause.Join
import SqlSelect.Clause.LateralView
import SqlSelect.Clause.Preference
import SqlSelect.Clause.Top
import SqlSelect.Clause.Vendor
import SqlSelect.Clause.Window
namespace SqlSelect

variable {ε ε' α κ κ' β : Type}

/-- What a row is returned as. -/
inductive RowShape where
  | struct | value
  deriving DecidableEq

def RowShape.keyword : RowShape → Keyword
  | .struct => .STRUCT
  | .value => .VALUE

structure OptimizeFor where
  rows : UInt64
  deriving DecidableEq

namespace OptimizeFor

open Phrase

/-- The clause brings the space before it. -/
def tokens (o : OptimizeFor) : Tokens :=
  spaced (words [.OPTIMIZE, .FOR]) ++ spaced [.count o.rows] ++ spaced (word .ROWS)

instance : Written OptimizeFor := ⟨tokens⟩

end OptimizeFor

/-- The clauses of one `SELECT`, apart from what a query adds around it. -/
structure Select (ε κ : Type) where
  items : List (Item ε) := []
  source? : Option (Relation ε κ) := none
  joins : List (Join ε κ) := []
  lateralViews : List (LateralView ε) := []
  filter? : Option ε := none
  groupBy? : Option (GroupBy ε) := none
  having? : Option ε := none
  qualify? : Option ε := none
  distinct? : Option (Distinct ε) := none
  shape? : Option RowShape := none
  top? : Option (Top ε) := none
  optimizeFor? : Option OptimizeFor := none
  preferring? : Option (Preferring ε) := none
  xmlPath? : Option String := none
  windows : List (NamedWindow ε) := []
  /-- Merge the versions of each row. -/
  merged : Bool := false
  /-- Leave out the tables that inherit from the source. -/
  only : Bool := false
  into : List Table := []
  mysql? : Option MySqlClauses := none
  oracle? : Option (OracleClauses ε) := none
  informix? : Option (InformixClauses ε) := none
  stream? : Option StreamClauses := none

namespace Select

open Phrase

def fromSource (source : Relation ε κ) : Select ε κ :=
  { items := [.wildcard], source? := some source }

def filtered (source : Relation ε κ) (condition : ε) : Select ε κ :=
  { fromSource source with filter? := some condition }

def project (exprs : List ε) (source : Relation ε κ) : Select ε κ :=
  { items := exprs.map .ofExpr, source? := some source }

def map (f : ε → α) (g : κ → β) (s : Select ε κ) : Select α β where
  items := s.items.map (·.map f)
  source? := s.source?.map (·.map f g)
  joins := s.joins.map (·.map f g)
  lateralViews := s.lateralViews.map (·.map f)
  filter? := s.filter?.map f
  groupBy? := s.groupBy?.map (·.map f)
  having? := s.having?.map f
  qualify? := s.qualify?.map f
  distinct? := s.distinct?.map (·.map f)
  shape? := s.shape?
  top? := s.top?.map (·.map f)
  optimizeFor? := s.optimizeFor?
  preferring? := s.preferring?.map (·.map f)
  xmlPath? := s.xmlPath?
  windows := s.windows.map (·.map f)
  merged := s.merged
  only := s.only
  into := s.into
  mysql? := s.mysql?
  oracle? := s.oracle?.map (·.map f)
  informix? := s.informix?.map (·.map f)
  stream? := s.stream?

def agree (expr : ε → ε' → Bool) (query : κ → κ' → Bool)
    (a : Select ε κ) (b : Select ε' κ') : Bool :=
  agreeList (Item.agree expr) a.items b.items &&
    agreeOption (Relation.agree expr query) a.source? b.source? &&
    agreeList (Join.agree expr query) a.joins b.joins &&
    agreeList (LateralView.agree expr) a.lateralViews b.lateralViews &&
    agreeOption expr a.filter? b.filter? &&
    agreeOption (GroupBy.agree expr) a.groupBy? b.groupBy? &&
    agreeOption expr a.having? b.having? && agreeOption expr a.qualify? b.qualify? &&
    agreeOption (Distinct.agree expr) a.distinct? b.distinct? && a.shape? == b.shape? &&
    agreeOption (Top.agree expr) a.top? b.top? && a.optimizeFor? == b.optimizeFor? &&
    agreeOption (Preferring.agree expr) a.preferring? b.preferring? &&
    a.xmlPath? == b.xmlPath? && agreeList (NamedWindow.agree expr) a.windows b.windows &&
    a.merged == b.merged && a.only == b.only && a.into == b.into && a.mysql? == b.mysql? &&
    agreeOption (OracleClauses.agree expr) a.oracle? b.oracle? &&
    agreeOption (InformixClauses.agree expr) a.informix? b.informix? && a.stream? == b.stream?

instance [BEq ε] [BEq κ] : BEq (Select ε κ) := ⟨agree (· == ·) (· == ·)⟩

/-- What stands between `SELECT` and the items.  Each part brings the space
    after it. -/
def head (s : Select Tokens κ) : Tokens :=
  optional (fun m => onlyIf m.straightJoin (thenSpace (word .STRAIGHT_JOIN))) s.mysql? ++
    optional (fun o => optional (fun h => thenSpace (Written.tokens h)) o.hint?) s.oracle? ++
    optional InformixClauses.headTokens s.informix? ++
    optional (fun d => thenSpace d.tokens) s.distinct? ++
    optional (fun shape => thenSpace (words [.AS, shape.keyword])) s.shape? ++
    optional (fun t => thenSpace t.tokens) s.top? ++
    optional (fun m => optional (fun c => thenSpace (Written.tokens c)) m.cache? ++
      onlyIf m.calcFoundRows (thenSpace (word .SQL_CALC_FOUND_ROWS))) s.mysql?

def clause (k : Keyword) : Option Tokens → Tokens :=
  optional fun e => spaced (word k) ++ spaced e

/-- Everything that is written only for a select that has a source. -/
def fromClause (s : Select Tokens Tokens) (source : Relation Tokens Tokens) : Tokens :=
  spaced (word .FROM) ++ onlyIf s.only (spaced (word .ONLY)) ++ spaced source.tokens ++
    s.lateralViews.flatMap (fun v => spaced v.tokens) ++ s.joins.flatMap Join.listed ++
    onlyIf s.merged (spaced (word .FINAL)) ++
    optional (fun c => optional (fun w => spaced (word .WINDOW) ++ spaced w.tokens) c.window?)
      s.stream? ++
    clause .WHERE s.filter? ++
    optional (fun o => optional Hierarchy.tokens o.hierarchy?) s.oracle? ++
    optional (fun p => spaced p.tokens) s.preferring? ++
    optional (fun g => spaced g.tokens) s.groupBy? ++
    clause .HAVING s.having? ++ clause .QUALIFY s.qualify? ++
    nonempty (fun ws => spaced (word .WINDOW) ++ spaced (commas (ws.map NamedWindow.tokens)))
      s.windows ++
    optional (fun c => onlyIf c.emitChanges (spaced (words [.EMIT, .CHANGES]))) s.stream?

/-- The select up to the clauses that end a statement. -/
def main (s : Select Tokens Tokens) : Tokens :=
  thenSpace (word .SELECT) ++ s.head ++ commas (s.items.map Item.tokens) ++
    nonempty (fun tables => spaced (word .INTO) ++ spaced (commas (tables.map Table.tokens)))
      s.into ++
    (match s.source? with
      | some source => s.fromClause source
      | none => clause .WHERE s.filter?) ++
    optional InformixClauses.intoTokens s.informix?

/-- The clauses that come last, also after those of the query around the select. -/
def tail (s : Select ε κ) : Tokens :=
  optional OptimizeFor.tokens s.optimizeFor? ++
    optional (fun path => spaced (words [.FOR, .XML]) ++ spaced (word .PATH) ++
      parens [.verbatim path]) s.xmlPath?

def tokens (s : Select Tokens Tokens) : Tokens := s.main ++ s.tail

end Select
end SqlSelect
