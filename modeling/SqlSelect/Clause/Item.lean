import SqlSelect.Agree
import SqlSelect.Alias
import SqlSelect.Name
namespace SqlSelect

variable {ε ε' α : Type}

/-- One item of a select list. -/
inductive Item (ε : Type) where
  /-- Every column. -/
  | wildcard
  /-- Every column of one relation. -/
  | wildcardOf (relation : Name)
  | expr (value : ε) (alias? : Option Alias)

namespace Item

open Phrase

def ofExpr (e : ε) : Item ε := .expr e none

def aliased (e : ε) (a : Alias) : Item ε := .expr e (some a)

def isWildcard : Item ε → Bool
  | .wildcard | .wildcardOf _ => true
  | .expr _ _ => false

def map (f : ε → α) : Item ε → Item α
  | .wildcard => .wildcard
  | .wildcardOf relation => .wildcardOf relation
  | .expr value alias? => .expr (f value) alias?

def agree (expr : ε → ε' → Bool) : Item ε → Item ε' → Bool
  | .wildcard, .wildcard => true
  | .wildcardOf r, .wildcardOf r' => r == r'
  | .expr e a, .expr e' a' => expr e e' && a == a'
  | _, _ => false

instance [BEq ε] : BEq (Item ε) := ⟨agree (· == ·)⟩

def tokens : Item Tokens → Tokens
  | .wildcard => [.symbol .star]
  | .wildcardOf relation => relation.tokens ++ [.symbol .dot, .symbol .star]
  | .expr value alias? => value ++ Alias.suffix alias?

instance [Written ε] : Written (Item ε) := ⟨fun i => (i.map Written.tokens).tokens⟩

end Item
end SqlSelect
