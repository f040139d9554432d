import SqlSelect.Clause.Lock
import SqlSelect.Clause.OrderBy
import SqlSelect.Clause.Paging
import SqlSelect.Clause.With
namespace SqlSelect

variable {ε ε' α κ κ' β : Type}

/-- The clauses that a query puts around its body. -/
structure Envelope (ε κ : Type) where
  with? : Option (With κ) := none
  orderBy? : Option (OrderBy ε) := none
  limit? : Option (Limit ε) := none
  offset? : Option (Offset ε) := none
  fetch? : Option (Fetch ε) := none
  locks : List Lock := []

namespace Envelope

open Phrase

def isBare (e : Envelope ε κ) : Bool :=
  e.with?.isNone && e.orderBy?.isNone && e.limit?.isNone && e.offset?.isNone &&
    e.fetch?.isNone && e.locks.isEmpty

def map (f : ε → α) (g : κ → β) (e : Envelope ε κ) : Envelope α β where
  with? := e.with?.map (·.map g)
  orderBy? := e.orderBy?.map (·.map f)
  limit? := e.limit?.map (·.map f)
  offset? := e.offset?.map (·.map f)
  fetch? := e.fetch?.map (·.map f)
  locks := e.locks

def agree (expr : ε → ε' → Bool) (query : κ → κ' → Bool)
    (a : Envelope ε κ) (b : Envelope ε' κ') : Bool :=
  agreeOption (With.agree query) a.with? b.with? &&
    agreeOption (OrderBy.agree expr) a.orderBy? b.orderBy? &&
    agreeOption (Limit.agree expr) a.limit? b.limit? &&
    agreeOption (Offset.agree expr) a.offset? b.offset? &&
    agreeOption (Fetch.agree expr) a.fetch? b.fetch? && a.locks == b.locks

def leading (e : Envelope ε Tokens) : Tokens :=
  optional (fun w => thenSpace w.tokens) e.with?

def trailing (e : Envelope Tokens κ) : Tokens :=
  optional (fun o => spaced o.tokens) e.orderBy? ++ optional (fun l => spaced l.tokens) e.limit? ++
    optional (fun o => spaced o.tokens) e.offset? ++ optional (fun x => spaced x.tokens) e.fetch? ++
    e.locks.flatMap (fun l => spaced l.tokens)

end Envelope
end SqlSelect
