import SqlSelect.Table
namespace SqlSelect

inductive LockStrength where
  | update | share
  deriving DecidableEq

def LockStrength.keyword : LockStrength → Keyword
  | .update => .UPDATE
  | .share => .SHARE

/-- What to do about rows that are locked already. -/
inductive LockPatience where
  | nowait | skipLocked
  deriving DecidableEq

def LockPatience.keywords : LockPatience → List Keyword
  | .nowait => [.NOWAIT]
  | .skipLocked => [.SKIP, .LOCKED]

structure Lock where
  strength : LockStrength
  tables : List Table := []
  patience? : Option LockPatience := none
  deriving DecidableEq

namespace Lock

open Phrase

def of (strength : LockStrength) : Lock := { strength }

def table (l : Lock) (t : Table) : Lock := { l with tables := l.tables ++ [t] }

def nowait (l : Lock) : Lock := { l with patience? := some .nowait }

def skipLocked (l : Lock) : Lock := { l with patience? := some .skipLocked }

def tokens (l : Lock) : Tokens :=
  words [.FOR, l.strength.keyword] ++
    nonempty (fun tables => spaced (word .OF) ++ spaced (commas (tables.map Table.tokens)))
      l.tables ++
    optional (fun p => spaced (words p.keywords)) l.patience?

instance : Written Lock := ⟨tokens⟩

end Lock
end SqlSelect
