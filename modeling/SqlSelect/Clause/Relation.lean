import SqlSelect.Clause.Call
import SqlSelect.Table
namespace SqlSelect

variable {ε ε' α κ κ' β : Type}

/-- What can stand in a `FROM` list: a table, a query in parentheses, or a function
    that returns rows. -/
inductive Relation (ε κ : Type) where
  | table (table : Table)
  | subquery (query : κ) (alias? : Option Alias) (lateral : Bool)
  | function (call : Call ε) (alias? : Option Alias)

namespace Relation

open Phrase

def ofName (name : Name) : Relation ε κ := .table (.ofName name)

/-- The table whose name is written with dots between its parts. -/
def ofText (text : String) : Relation ε κ := .table (.ofText text)

/-- A query whose rows do not depend on the relations before it. -/
def ofQuery (query : κ) (alias? : Option Alias) : Relation ε κ := .subquery query alias? false

def alias? : Relation ε κ → Option Alias
  | .table t => t.alias?
  | .subquery _ a _ => a
  | .function _ a => a

def table? : Relation ε κ → Option Table
  | .table t => some t
  | _ => none

def map (f : ε → α) (g : κ → β) : Relation ε κ → Relation α β
  | .table t => .table t
  | .subquery query alias? lateral => .subquery (g query) alias? lateral
  | .function call alias? => .function (call.map f) alias?

def agree (expr : ε → ε' → Bool) (query : κ → κ' → Bool) : Relation ε κ → Relation ε' κ' → Bool
  | .table t, .table t' => t == t'
  | .subquery q a l, .subquery q' a' l' => query q q' && a == a' && l == l'
  | .function c a, .function c' a' => c.agree expr c' && a == a'
  | _, _ => false

instance [BEq ε] [BEq κ] : BEq (Relation ε κ) := ⟨agree (· == ·) (· == ·)⟩

def tokens : Relation Tokens Tokens → Tokens
  | .table t => t.tokens
  | .subquery query alias? lateral =>
      onlyIf lateral (thenSpace (word .LATERAL)) ++ parens query ++ Alias.suffix alias?
  | .function call alias? => call.tokens ++ Alias.suffix alias?

instance [Written ε] [Written κ] : Written (Relation ε κ) :=
  ⟨fun r => (r.map Written.tokens Written.tokens).tokens⟩

end Relation
end SqlSelect
