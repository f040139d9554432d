import SqlSelect.Agree
import SqlSelect.Written
namespace SqlSelect

variable {κ κ' β : Type}

/-- A query with a name, and names for its columns. -/
structure Cte (κ : Type) where
  name : String
  columns : List String := []
  query : κ

namespace Cte

open Phrase

def of (name : String) (query : κ) : Cte κ := { name, query }

def column (c : Cte κ) (name : String) : Cte κ := { c with columns := c.columns ++ [name] }

def map (g : κ → β) (c : Cte κ) : Cte β := { c with query := g c.query }

def agree (query : κ → κ' → Bool) (a : Cte κ) (b : Cte κ') : Bool :=
  a.name == b.name && a.columns == b.columns && query a.query b.query

instance [BEq κ] : BEq (Cte κ) := ⟨agree (· == ·)⟩

def tokens (c : Cte Tokens) : Tokens :=
  [.ident c.name] ++
    nonempty (fun columns => spaced (parens (commas (columns.map fun name => [.ident name]))))
      c.columns ++
    spaced (word .AS) ++ spaced (parens c.query)

end Cte

/-- The named queries that a statement can refer to. -/
structure With (κ : Type) where
  recursive : Bool := false
  ctes : List (Cte κ) := []

namespace With

open Phrase

def of (ctes : List (Cte κ)) : With κ := { ctes }

def asRecursive (w : With κ) : With κ := { w with recursive := true }

def map (g : κ → β) (w : With κ) : With β := ⟨w.recursive, w.ctes.map (·.map g)⟩

def agree (query : κ → κ' → Bool) (a : With κ) (b : With κ') : Bool :=
  a.recursive == b.recursive && agreeList (Cte.agree query) a.ctes b.ctes

instance [BEq κ] : BEq (With κ) := ⟨agree (· == ·)⟩

def tokens (w : With Tokens) : Tokens :=
  thenSpace (word .WITH) ++ onlyIf w.recursive (thenSpace (word .RECURSIVE)) ++
    commas (w.ctes.map Cte.tokens)

instance [Written κ] : Written (With κ) := ⟨fun w => (w.map Written.tokens).tokens⟩

end With
end SqlSelect
