import SqlSelect.Clause.Duration
import SqlSelect.Clause.Hierarchy
import SqlSelect.Table
namespace SqlSelect

variable {ε ε' α : Type}

open Phrase

/-- Whether a result may come from the query cache. -/
inductive CacheUse where
  | use | bypass
  deriving DecidableEq

def CacheUse.keyword : CacheUse → Keyword
  | .use => .SQL_CACHE
  | .bypass => .SQL_NO_CACHE

instance : Written CacheUse := ⟨fun c => [.keyword c.keyword]⟩

structure MySqlClauses where
  straightJoin : Bool := false
  calcFoundRows : Bool := false
  cache? : Option CacheUse := none
  deriving DecidableEq

/-- Advice to the optimizer, in a comment. -/
structure OptimizerHint where
  text : String
  deriving DecidableEq

instance : Written OptimizerHint :=
  ⟨fun h => mark .hintOpen ++ spaced [.verbatim h.text] ++ spaced (mark .hintClose)⟩

structure OracleClauses (ε : Type) where
  hint? : Option OptimizerHint := none
  hierarchy? : Option (Hierarchy ε) := none

namespace OracleClauses

def map (f : ε → α) (o : OracleClauses ε) : OracleClauses α := ⟨o.hint?, o.hierarchy?.map (·.map f)⟩

def agree (expr : ε → ε' → Bool) (a : OracleClauses ε) (b : OracleClauses ε') : Bool :=
  a.hint? == b.hint? && agreeOption (Hierarchy.agree expr) a.hierarchy? b.hierarchy?

instance [BEq ε] : BEq (OracleClauses ε) := ⟨agree (· == ·)⟩

end OracleClauses

structure Skip (ε : Type) where
  rows : ε

namespace Skip

def map (f : ε → α) (s : Skip ε) : Skip α := ⟨f s.rows⟩

def agree (expr : ε → ε' → Bool) (a : Skip ε) (b : Skip ε') : Bool := expr a.rows b.rows

def tokens (s : Skip Tokens) : Tokens := word .SKIP ++ spaced s.rows

instance [Written ε] : Written (Skip ε) := ⟨fun s => (s.map Written.tokens).tokens⟩

end Skip

structure First (ε : Type) where
  /-- Written `LIMIT` instead of `FIRST`. -/
  limit : Bool := false
  rows : ε

namespace First

def ofFirst (rows : ε) : First ε := ⟨false, rows⟩

def ofLimit (rows : ε) : First ε := ⟨true, rows⟩

def map (f : ε → α) (x : First ε) : First α := ⟨x.limit, f x.rows⟩

def agree (expr : ε → ε' → Bool) (a : First ε) (b : First ε') : Bool :=
  a.limit == b.limit && expr a.rows b.rows

def tokens (x : First Tokens) : Tokens :=
  word (if x.limit then .LIMIT else .FIRST) ++ spaced x.rows

instance [Written ε] : Written (First ε) := ⟨fun x => (x.map Written.tokens).tokens⟩

end First

structure InformixClauses (ε : Type) where
  skip? : Option (Skip ε) := none
  first? : Option (First ε) := none
  intoTemp? : Option Table := none
  noLog : Bool := false

namespace InformixClauses

def map (f : ε → α) (i : InformixClauses ε) : InformixClauses α :=
  ⟨i.skip?.map (·.map f), i.first?.map (·.map f), i.intoTemp?, i.noLog⟩

def agree (expr : ε → ε' → Bool) (a : InformixClauses ε) (b : InformixClauses ε') : Bool :=
  agreeOption (Skip.agree expr) a.skip? b.skip? && agreeOption (First.agree expr) a.first? b.first? &&
    a.intoTemp? == b.intoTemp? && a.noLog == b.noLog

instance [BEq ε] : BEq (InformixClauses ε) := ⟨agree (· == ·)⟩

def headTokens (i : InformixClauses Tokens) : Tokens :=
  optional (fun s => thenSpace s.tokens) i.skip? ++ optional (fun x => thenSpace x.tokens) i.first?

def intoTokens (i : InformixClauses ε) : Tokens :=
  optional (fun t => spaced (words [.INTO, .TEMP]) ++ spaced t.tokens) i.intoTemp? ++
    onlyIf i.noLog (spaced (words [.WITH, .NO, .LOG]))

end InformixClauses

structure StreamClauses where
  window? : Option StreamWindow := none
  emitChanges : Bool := false
  deriving DecidableEq

end SqlSelect
