import SqlSelect.Agree
import SqlSelect.Written
namespace SqlSelect

variable {ε ε' α : Type}

/-- Which of two rows is the better one. -/
inductive Preference (ε : Type) where
  | high (value : ε)
  | low (value : ε)
  | inverse (term : Preference ε)
  | plus (left right : Preference ε)
  | priorTo (left right : Preference ε)
  | expr (value : ε)

namespace Preference

open Phrase

def map (f : ε → α) : Preference ε → Preference α
  | .high value => .high (f value)
  | .low value => .low (f value)
  | .inverse term => .inverse (term.map f)
  | .plus left right => .plus (left.map f) (right.map f)
  | .priorTo left right => .priorTo (left.map f) (right.map f)
  | .expr value => .expr (f value)

def agree (expr : ε → ε' → Bool) : Preference ε → Preference ε' → Bool
  | .high e, .high e' => expr e e'
  | .low e, .low e' => expr e e'
  | .inverse p, .inverse p' => p.agree expr p'
  | .plus p q, .plus p' q' => p.agree expr p' && q.agree expr q'
  | .priorTo p q, .priorTo p' q' => p.agree expr p' && q.agree expr q'
  | .expr e, .expr e' => expr e e'
  | _, _ => false

instance [BEq ε] : BEq (Preference ε) := ⟨agree (· == ·)⟩

/-- Terms are put side by side without parentheses; only `INVERSE` brings its
    own. -/
def tokens : Preference Tokens → Tokens
  | .high value => word .HIGH ++ spaced value
  | .low value => word .LOW ++ spaced value
  | .inverse term => word .INVERSE ++ spaced (parens term.tokens)
  | .plus left right => left.tokens ++ spaced (word .PLUS) ++ spaced right.tokens
  | .priorTo left right => left.tokens ++ spaced (words [.PRIOR, .TO]) ++ spaced right.tokens
  | .expr value => value

end Preference

/-- Keep only the best rows, of each part when there is a partition. -/
structure Preferring (ε : Type) where
  term : Preference ε
  partition : List ε := []

namespace Preferring

open Phrase

def of (term : Preference ε) : Preferring ε := { term }

def partitionBy (p : Preferring ε) (e : ε) : Preferring ε :=
  { p with partition := p.partition ++ [e] }

def map (f : ε → α) (p : Preferring ε) : Preferring α := ⟨p.term.map f, p.partition.map f⟩

def agree (expr : ε → ε' → Bool) (a : Preferring ε) (b : Preferring ε') : Bool :=
  a.term.agree expr b.term && agreeList expr a.partition b.partition

instance [BEq ε] : BEq (Preferring ε) := ⟨agree (· == ·)⟩

def tokens (p : Preferring Tokens) : Tokens :=
  word .PREFERRING ++ spaced p.term.tokens ++
    nonempty (fun exprs => spaced (words [.PARTITION, .BY]) ++ spaced (commas exprs)) p.partition

instance [Written ε] : Written (Preferring ε) := ⟨fun p => (p.map Written.tokens).tokens⟩

end Preferring
end SqlSelect
