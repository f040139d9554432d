import SqlSelect.Edit.Join
import SqlSelect.Expr
namespace SqlSelect

variable {ε κ : Type}

inductive SelectEdit (ε κ : Type) where
  | item (item : Item ε)
  | source (source : Relation ε κ)
  | only
  | join (join : Join ε κ)
  | lateralView (view : LateralView ε)
  /-- A further condition, which has to hold with the ones before it. -/
  | filter (condition : ε)
  | groupBy (groupBy : GroupBy ε)
  /-- A further expression to group by. -/
  | groupByExpr (expr : ε)
  | having (condition : ε)
  | qualify (condition : ε)
  | distinct (distinct : Distinct ε)
  | shape (shape : RowShape)
  | top (top : Top ε)
  | optimizeFor (rows : UInt64)
  | preferring (preferring : Preferring ε)
  | xmlPath (path : String)
  | window (window : NamedWindow ε)
  | merged
  | into (table : Table)
  | straightJoin
  | calcFoundRows
  | cache (cacheUse : CacheUse)
  | hint (text : String)
  | hierarchy (hierarchy : Hierarchy ε)
  | skip (rows : ε)
  | first (first : First ε)
  | intoTemp (table : Table)
  | noLog
  | streamWindow (window : StreamWindow)
  | emitChanges

namespace Select

def withMySql (s : Select ε κ) (f : MySqlClauses → MySqlClauses) : Select ε κ :=
  { s with mysql? := some (f (s.mysql?.getD {})) }

def withOracle (s : Select ε κ) (f : OracleClauses ε → OracleClauses ε) : Select ε κ :=
  { s with oracle? := some (f (s.oracle?.getD {})) }

def withInformix (s : Select ε κ) (f : InformixClauses ε → InformixClauses ε) : Select ε κ :=
  { s with informix? := some (f (s.informix?.getD {})) }

def withStream (s : Select ε κ) (f : StreamClauses → StreamClauses) : Select ε κ :=
  { s with stream? := some (f (s.stream?.getD {})) }

/-- A condition together with one that may already be there. -/
def conjoin (present? : Option Expr) (condition : Expr) : Expr :=
  match present? with
  | none => condition
  | some present => present.and condition

def edit (s : Select Expr κ) : SelectEdit Expr κ → Select Expr κ
  | .item item => { s with items := s.items ++ [item] }
  | .source source => { s with source? := some source }
  | .only => { s with only := true }
  | .join join => { s with joins := s.joins ++ [join] }
  | .lateralView view => { s with lateralViews := s.lateralViews ++ [view] }
  | .filter condition => { s with filter? := some (conjoin s.filter? condition) }
  | .groupBy groupBy => { s with groupBy? := some groupBy }
  | .groupByExpr expr => { s with groupBy? := some ((s.groupBy?.getD {}).push expr) }
  | .having condition => { s with having? := some condition }
  | .qualify condition => { s with qualify? := some condition }
  | .distinct distinct => { s with distinct? := some distinct }
  | .shape shape => { s with shape? := some shape }
  | .top top => { s with top? := some top }
  | .optimizeFor rows => { s with optimizeFor? := some ⟨rows⟩ }
  | .preferring preferring => { s with preferring? := some preferring }
  | .xmlPath path => { s with xmlPath? := some path }
  | .window window => { s with windows := s.windows ++ [window] }
  | .merged => { s with merged := true }
  | .into table => { s with into := s.into ++ [table] }
  | .straightJoin => s.withMySql ({ · with straightJoin := true })
  | .calcFoundRows => s.withMySql ({ · with calcFoundRows := true })
  | .cache cacheUse => s.withMySql ({ · with cache? := some cacheUse })
  | .hint text => s.withOracle ({ · with hint? := some ⟨text⟩ })
  | .hierarchy hierarchy => s.withOracle ({ · with hierarchy? := some hierarchy })
  | .skip rows => s.withInformix ({ · with skip? := some ⟨rows⟩ })
  | .first first => s.withInformix ({ · with first? := some first })
  | .intoTemp table => s.withInformix ({ · with intoTemp? := some table })
  | .noLog => s.withInformix ({ · with noLog := true })
  | .streamWindow window => s.withStream ({ · with window? := some window })
  | .emitChanges => s.withStream ({ · with emitChanges := true })

def run (s : Select Expr κ) (edits : List (SelectEdit Expr κ)) : Select Expr κ :=
  edits.foldl edit s

/-- Further conditions join the one that is there, one after another. -/
theorem run_filters (s : Select Expr κ) (present : Expr) (further : List Expr) :
    ({ s with filter? := some present } : Select Expr κ).run (further.map .filter) =
      { s with filter? := some (further.foldl Expr.and present) } := by
  induction further generalizing present with
  | nil => rfl
  | cons e rest ih => exact ih (present.and e)

theorem run_filters_of_none {s : Select Expr κ} (unfiltered : s.filter? = none) (first : Expr)
    (further : List Expr) :
    s.run ((first :: further).map .filter) =
      { s with filter? := some (further.foldl Expr.and first) } := by
  have start : s.edit (.filter first) = { s with filter? := some first } := by
    simp only [edit, unfiltered, conjoin]
  rw [List.map_cons, run, List.foldl_cons, start]
  exact run_filters s first further

def itemAt (s : Select ε κ) (index : Nat) : Except AccessError (Item ε) :=
  entryAt "projection" s.items index

def joinAt (s : Select ε κ) (index : Nat) : Except AccessError (Join ε κ) :=
  entryAt "joins" s.joins index

def firstJoin (s : Select ε κ) : Except AccessError (Join ε κ) :=
  (s.joinAt 0).mapError (.context "PlainSelect::first_join")

end Select
end SqlSelect
