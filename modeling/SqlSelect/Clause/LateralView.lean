import SqlSelect.Clause.Call
namespace SqlSelect

variable {ε ε' α : Type}

/-- The rows that a function returns for each row before it. -/
structure LateralView (ε : Type) where
  /-- Keep a row for which the function returns nothing. -/
  outer : Bool := false
  generator : Call ε
  relation? : Option String := none
  columns : List String := []

namespace LateralView

open Phrase

def of (generator : Call ε) : LateralView ε := { generator }

def keepingEmpty (v : LateralView ε) : LateralView ε := { v with outer := true }

def named (v : LateralView ε) (relation : String) : LateralView ε :=
  { v with relation? := some relation }

def column (v : LateralView ε) (name : String) : LateralView ε :=
  { v with columns := v.columns ++ [name] }

def map (f : ε → α) (v : LateralView ε) : LateralView α := { v with generator := v.generator.map f }

def agree (expr : ε → ε' → Bool) (a : LateralView ε) (b : LateralView ε') : Bool :=
  a.outer == b.outer && a.generator.agree expr b.generator && a.relation? == b.relation? &&
    a.columns == b.columns

instance [BEq ε] : BEq (LateralView ε) := ⟨agree (· == ·)⟩

def tokens (v : LateralView Tokens) : Tokens :=
  words [.LATERAL, .VIEW] ++ onlyIf v.outer (spaced (word .OUTER)) ++ spaced v.generator.tokens ++
    optional (fun name => spaced [.ident name]) v.relation? ++
    nonempty (fun columns => spaced (word .AS) ++
      spaced (commas (columns.map fun name => [.ident name]))) v.columns

instance [Written ε] : Written (LateralView ε) := ⟨fun v => (v.map Written.tokens).tokens⟩

end LateralView
end SqlSelect
