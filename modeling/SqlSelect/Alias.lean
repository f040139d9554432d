import SqlSelect.Written
namespace SqlSelect

/-- A second name for a relation or a column, written with `AS` or without. -/
structure Alias where
  name : String
  keyword : Bool
  deriving DecidableEq, Hashable

namespace Alias

open Phrase

def as (name : String) : Alias := ⟨name, true⟩

def bare (name : String) : Alias := ⟨name, false⟩

def tokens (a : Alias) : Tokens :=
  onlyIf a.keyword (thenSpace (word .AS)) ++ [.ident a.name]

instance : Written Alias := ⟨tokens⟩

/-- What follows a thing that may have an alias. -/
def suffix : Option Alias → Tokens := optional fun a => spaced a.tokens

end Alias
end SqlSelect
