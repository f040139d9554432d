namespace SqlSelect

/-- A lookup of a place that a list does not have. -/
structure OutOfRange where
  list : String
  index : Nat
  length : Nat
  deriving DecidableEq

def OutOfRange.message : OutOfRange → String
  | ⟨list, index, length⟩ => s!"index out of range: {list}[{index}] (len {length})"

/-- What an error says by itself. -/
inductive ErrorKind where
  /-- An accessor handed an error on. -/
  | accessor (name : String)
  | indexOutOfRange (lookup : OutOfRange)
  deriving DecidableEq

namespace ErrorKind

def message : ErrorKind → String
  | accessor name => s!"{name}()"
  | indexOutOfRange lookup => lookup.message

def isIndexOutOfRange : ErrorKind → Bool
  | accessor _ => false
  | indexOutOfRange _ => true

end ErrorKind

/-- Why a value could not be returned. -/
inductive AccessError where
  | root (kind : ErrorKind)
  | wrapping (kind : ErrorKind) (cause : AccessError)
  deriving DecidableEq

namespace AccessError

def indexOutOfRange (list : String) (index length : Nat) : AccessError :=
  .root (.indexOutOfRange ⟨list, index, length⟩)

/-- The error as the caller of an accessor sees it. -/
def context (accessor : String) (cause : AccessError) : AccessError :=
  .wrapping (.accessor accessor) cause

def kind : AccessError → ErrorKind
  | root kind => kind
  | wrapping kind _ => kind

/-- The error, the one that it is wrapped around, and so on to the innermost. -/
def chain : AccessError → List AccessError
  | root kind => [root kind]
  | wrapping kind cause => wrapping kind cause :: cause.chain

/-- What the errors say, with a mark after each that another one follows. -/
def messages : List AccessError → String
  | [] => ""
  | e :: rest => e.kind.message ++ (if rest.isEmpty then "" else ": ") ++ messages rest

def message (e : AccessError) : String := messages e.chain

def isIndexOutOfRange (e : AccessError) : Bool := e.chain.any (·.kind.isIndexOutOfRange)

end AccessError

/-- What an error goes back to. -/
inductive ErrorSource where
  | error (e : AccessError)
  | lookup (lookup : OutOfRange)
  deriving DecidableEq

/-- The error inside, or the lookup that failed when there is none. -/
def AccessError.source? : AccessError → Option ErrorSource
  | wrapping _ cause => some (.error cause)
  | root (.indexOutOfRange lookup) => some (.lookup lookup)
  | root (.accessor _) => none

namespace ErrorSource

def message : ErrorSource → String
  | error e => e.message
  | lookup l => l.message

def source? : ErrorSource → Option ErrorSource
  | error e => e.source?
  | lookup _ => none

/-- How many sources there can be from here on. -/
def depth : ErrorSource → Nat
  | error e => e.chain.length
  | lookup _ => 0

theorem depth_lt_of_source? {s next : ErrorSource} (found : s.source? = some next) :
    next.depth < s.depth := by
  cases s with
  | lookup l => cases found
  | error e =>
      cases e with
      | wrapping kind cause =>
          cases found
          exact Nat.lt_add_one _
      | root kind =>
          cases kind with
          | accessor name => cases found
          | indexOutOfRange l =>
              cases found
              exact Nat.lt_add_one _

/-- The sources one after another, until there is none. -/
def trace (s : ErrorSource) : List ErrorSource :=
  match _ : s.source? with
  | none => []
  | some next => next :: next.trace
termination_by s.depth
decreasing_by exact depth_lt_of_source? ‹_›

end ErrorSource

namespace AccessError

def trace (e : AccessError) : List ErrorSource := ErrorSource.trace (.error e)

/-- The messages of what the error goes back to. -/
def sources (e : AccessError) : List String := e.trace.map ErrorSource.message

/-- A block of lines, the inner ones indented. -/
def block (opener : String) (inner : List String) (closer : String) : List String :=
  opener :: (inner.map ("    " ++ ·) ++ [closer])

def kindLines : ErrorKind → List String
  | .accessor name =>
      block "kind: Accessor("
        (block "AccessorError \x7b" [s!"name: \"{name}\","] "\x7d,") "),"
  | .indexOutOfRange ⟨list, index, length⟩ =>
      block "kind: IndexOutOfRange("
        (block "IndexOutOfRangeError \x7b"
          [s!"list: \"{list}\",", s!"index: {index},", s!"len: {length},"] "\x7d,") "),"

/-- The structure of the error, line by line, the last line given. -/
def detailLines (closer : String) : AccessError → List String
  | root kind => block "Error \x7b" (kindLines kind ++ ["cause: None,"]) closer
  | wrapping kind cause =>
      block "Error \x7b"
        (kindLines kind ++ block "cause: Some(" (cause.detailLines "\x7d,") "),") closer

def detail (e : AccessError) : String := "\n".intercalate (e.detailLines "\x7d")

end AccessError

/-- The entry at a place of a named list. -/
def entryAt (list : String) (entries : List α) (index : Nat) : Except AccessError α :=
  match entries[index]? with
  | some entry => .ok entry
  | none => .error (.indexOutOfRange list index entries.length)

end SqlSelect
