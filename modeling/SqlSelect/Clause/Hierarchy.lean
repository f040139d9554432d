import SqlSelect.Agree
import SqlSelect.Written
namespace SqlSelect

variable {ε ε' α : Type}

/-- How rows hang under one another. -/
structure Hierarchy (ε : Type) where
  startWith? : Option ε := none
  connectBy : ε
  /-- Stop at a row that leads back to itself. -/
  noCycle : Bool := false
  /-- Write `CONNECT BY` before `START WITH`. -/
  connectFirst : Bool := false

namespace Hierarchy

open Phrase

def of (connectBy : ε) : Hierarchy ε := { connectBy }

def startingWith (h : Hierarchy ε) (e : ε) : Hierarchy ε := { h with startWith? := some e }

def withoutCycles (h : Hierarchy ε) : Hierarchy ε := { h with noCycle := true }

def connectingFirst (h : Hierarchy ε) : Hierarchy ε := { h with connectFirst := true }

def map (f : ε → α) (h : Hierarchy ε) : Hierarchy α :=
  ⟨h.startWith?.map f, f h.connectBy, h.noCycle, h.connectFirst⟩

def agree (expr : ε → ε' → Bool) (a : Hierarchy ε) (b : Hierarchy ε') : Bool :=
  agreeOption expr a.startWith? b.startWith? && expr a.connectBy b.connectBy &&
    a.noCycle == b.noCycle && a.connectFirst == b.connectFirst

instance [BEq ε] : BEq (Hierarchy ε) := ⟨agree (· == ·)⟩

def startTokens (h : Hierarchy Tokens) : Tokens :=
  optional (fun e => spaced (words [.START, .WITH]) ++ spaced e) h.startWith?

def connectTokens (h : Hierarchy Tokens) : Tokens :=
  spaced (words [.CONNECT, .BY]) ++ onlyIf h.noCycle (spaced (word .NOCYCLE)) ++ spaced h.connectBy

/-- Each of the two parts brings the space before it. -/
def tokens (h : Hierarchy Tokens) : Tokens :=
  if h.connectFirst then h.connectTokens ++ h.startTokens else h.startTokens ++ h.connectTokens

instance [Written ε] : Written (Hierarchy ε) := ⟨fun h => (h.map Written.tokens).tokens⟩

end Hierarchy
end SqlSelect
