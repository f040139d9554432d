import SqlSelect.Alias
import SqlSelect.Name
namespace SqlSelect

/-- A table by name. -/
structure Table where
  name : Name
  alias? : Option Alias
  deriving DecidableEq, Hashable

namespace Table

def ofName (name : Name) : Table := ⟨name, none⟩

/-- The table whose name is written with dots between its parts. -/
def ofText (text : String) : Table := ofName (.ofText text)

def withAlias (t : Table) (a : Alias) : Table := { t with alias? := some a }

def tokens (t : Table) : Tokens := t.name.tokens ++ Alias.suffix t.alias?

instance : Written Table := ⟨tokens⟩

end Table
end SqlSelect
