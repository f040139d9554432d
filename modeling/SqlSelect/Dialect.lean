namespace SqlSelect

/-- The dialects differ in one thing only: how an identifier is quoted. -/
inductive Dialect where
  | generic
  | postgresql
  | sqlite
  | mysql
  deriving DecidableEq

namespace Dialect

/-- The mark around identifiers.  The generic dialect writes them bare. -/
def mark? : Dialect → Option Char
  | .generic => none
  | .postgresql | .sqlite => some '"'
  | .mysql => some '\x60'

/-- The name under which a dialect is reported. -/
def label : Dialect → String
  | .generic => "Generic"
  | .postgresql => "Postgresql"
  | .sqlite => "Sqlite"
  | .mysql => "Mysql"

end Dialect
end SqlSelect
