namespace SqlSelect

/-- A reserved word, named by its text. -/
inductive Keyword where
  | SELECT | STRAIGHT_JOIN | SKIP | FIRST | LIMIT | DISTINCT | UNIQUE | ON | AS | STRUCT
  | VALUE | TOP | PERCENT | WITH | TIES | SQL_CACHE | SQL_NO_CACHE | SQL_CALC_FOUND_ROWS | INTO
  | FROM | ONLY
  | LATERAL | VIEW | OUTER
  | GLOBAL | NATURAL | RIGHT | FULL | LEFT | CROSS | INNER | SEMI | APPLY | LOOP | HASH | MERGE
  | REMOTE | JOIN | WITHIN | USING
  | FINAL | WINDOW | HOPPING | SIZE | ADVANCE | SESSION | TUMBLING
  | MILLISECOND | MILLISECONDS | SECOND | SECONDS | MINUTE | MINUTES | HOUR | HOURS | DAY
  | DAYS
  | WHERE | START | CONNECT | BY | NOCYCLE | PREFERRING | HIGH | LOW | INVERSE | PLUS | PRIOR
  | TO | PARTITION
  | GROUP | GROUPING | SETS | HAVING | QUALIFY | EMIT | CHANGES | TEMP | NO | LOG | OPTIMIZE
  | FOR | ROWS | XML | PATH
  | RECURSIVE | UNION | INTERSECT | EXCEPT | MINUS | ALL
  | ORDER | SIBLINGS | ASC | DESC | NULLS | LAST | OFFSET | ROW | FETCH | UPDATE | SHARE | OF
  | NOWAIT | LOCKED
  | AND | OR | NOT | IN | IS | LIKE | NULL | TRUE | FALSE
  deriving DecidableEq

namespace Keyword

def text : Keyword → String
  | .SELECT => "SELECT"
  | .STRAIGHT_JOIN => "STRAIGHT_JOIN"
  | .SKIP => "SKIP"
  | .FIRST => "FIRST"
  | .LIMIT => "LIMIT"
  | .DISTINCT => "DISTINCT"
  | .UNIQUE => "UNIQUE"
  | .ON => "ON"
  | .AS => "AS"
  | .STRUCT => "STRUCT"
  | .VALUE => "VALUE"
  | .TOP => "TOP"
  | .PERCENT => "PERCENT"
  | .WITH => "WITH"
  | .TIES => "TIES"
  | .SQL_CACHE => "SQL_CACHE"
  | .SQL_NO_CACHE => "SQL_NO_CACHE"
  | .SQL_CALC_FOUND_ROWS => "SQL_CALC_FOUND_ROWS"
  | .INTO => "INTO"
  | .FROM => "FROM"
  | .ONLY => "ONLY"
  | .LATERAL => "LATERAL"
  | .VIEW => "VIEW"
  | .OUTER => "OUTER"
  | .GLOBAL => "GLOBAL"
  | .NATURAL => "NATURAL"
  | .RIGHT => "RIGHT"
  | .FULL => "FULL"
  | .LEFT => "LEFT"
  | .CROSS => "CROSS"
  | .INNER => "INNER"
  | .SEMI => "SEMI"
  | .APPLY => "APPLY"
  | .LOOP => "LOOP"
  | .HASH => "HASH"
  | .MERGE => "MERGE"
  | .REMOTE => "REMOTE"
  | .JOIN => "JOIN"
  | .WITHIN => "WITHIN"
  | .USING => "USING"
  | .FINAL => "FINAL"
  | .WINDOW => "WINDOW"
  | .HOPPING => "HOPPING"
  | .SIZE => "SIZE"
  | .ADVANCE => "ADVANCE"
  | .SESSION => "SESSION"
  | .TUMBLING => "TUMBLING"
  | .MILLISECOND => "MILLISECOND"
  | .MILLISECONDS => "MILLISECONDS"
  | .SECOND => "SECOND"
  | .SECONDS => "SECONDS"
  | .MINUTE => "MINUTE"
  | .MINUTES => "MINUTES"
  | .HOUR => "HOUR"
  | .HOURS => "HOURS"
  | .DAY => "DAY"
  | .DAYS => "DAYS"
  | .WHERE => "WHERE"
  | .START => "START"
  | .CONNECT => "CONNECT"
  | .BY => "BY"
  | .NOCYCLE => "NOCYCLE"
  | .PREFERRING => "PREFERRING"
  | .HIGH => "HIGH"
  | .LOW => "LOW"
  | .INVERSE => "INVERSE"
  | .PLUS => "PLUS"
  | .PRIOR => "PRIOR"
  | .TO => "TO"
  | .PARTITION => "PARTITION"
  | .GROUP => "GROUP"
  | .GROUPING => "GROUPING"
  | .SETS => "SETS"
  | .HAVING => "HAVING"
  | .QUALIFY => "QUALIFY"
  | .EMIT => "EMIT"
  | .CHANGES => "CHANGES"
  | .TEMP => "TEMP"
  | .NO => "NO"
  | .LOG => "LOG"
  | .OPTIMIZE => "OPTIMIZE"
  | .FOR => "FOR"
  | .ROWS => "ROWS"
  | .XML => "XML"
  | .PATH => "PATH"
  | .RECURSIVE => "RECURSIVE"
  | .UNION => "UNION"
  | .INTERSECT => "INTERSECT"
  | .EXCEPT => "EXCEPT"
  | .MINUS => "MINUS"
  | .ALL => "ALL"
  | .ORDER => "ORDER"
  | .SIBLINGS => "SIBLINGS"
  | .ASC => "ASC"
  | .DESC => "DESC"
  | .NULLS => "NULLS"
  | .LAST => "LAST"
  | .OFFSET => "OFFSET"
  | .ROW => "ROW"
  | .FETCH => "FETCH"
  | .UPDATE => "UPDATE"
  | .SHARE => "SHARE"
  | .OF => "OF"
  | .NOWAIT => "NOWAIT"
  | .LOCKED => "LOCKED"
  | .AND => "AND"
  | .OR => "OR"
  | .NOT => "NOT"
  | .IN => "IN"
  | .IS => "IS"
  | .LIKE => "LIKE"
  | .NULL => "NULL"
  | .TRUE => "TRUE"
  | .FALSE => "FALSE"

def chars (k : Keyword) : List Char := k.text.toList

/-- A character of a word: a letter, a digit or an underscore. -/
def isWordChar (c : Char) : Bool := c.isAlphanum || c == '_'

theorem chars_ne_nil (k : Keyword) : k.chars ≠ [] := by
  cases k <;> decide

theorem isWordChar_of_mem_chars (k : Keyword) {c : Char} (member : c ∈ k.chars) :
    isWordChar c = true := by
  have every : k.chars.all isWordChar = true := by cases k <;> decide
  exact List.all_eq_true.mp every c member

end Keyword
end SqlSelect
