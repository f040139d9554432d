import SqlSelect.Edit.Join
namespace SqlSelect

/-- What is reported while trees are edited and written. -/
inductive Event where
  /-- An edit changed the kind of a join. -/
  | kindUpdated (change : KindChange)
  /-- A join was written without its hint. -/
  | hintNotRendered (hint : SuppressedHint)
  /-- A statement is about to be written. -/
  | serialize (dialect : Dialect)
  /-- A statement of so many bytes has been written. -/
  | serialized (length : Nat)
  deriving DecidableEq

namespace Event

inductive Level where
  | trace | debug
  deriving DecidableEq

def Level.label : Level → String
  | .trace => "TRACE"
  | .debug => "DEBUG"

def level : Event → Level
  | .hintNotRendered _ => .debug
  | .kindUpdated _ | .serialize _ | .serialized _ => .trace

def message : Event → String
  | .kindUpdated _ => "join kind updated"
  | .hintNotRendered _ => "join hint not rendered"
  | .serialize _ => "serialize"
  | .serialized _ => "serialized statement"

/-- Whether the event opens the time in which a statement is written. -/
def isSpan : Event → Bool
  | .serialize _ => true
  | _ => false

end Event

/-- The qualifiers in the order in which they are reported. -/
def Qualifier.labels : List (String × Qualifier) :=
  [("natural", .natural), ("left", .left), ("right", .right), ("full", .full),
    ("cross", .cross), ("outer", .outer), ("inner", .inner), ("semi", .semi)]

def JoinKind.describe (k : JoinKind) : String :=
  let flags := Qualifier.labels.map fun (label, q) => s!"{label}: " ++ toString (k.has q)
  "JoinKind \x7b " ++ ", ".intercalate flags ++ " \x7d"

def Join.events (j : Join ε κ) (edits : List (JoinEdit ε)) : List Event :=
  (j.changes edits).map .kindUpdated

/-- The events of writing a node.  They are the same in every dialect. -/
def renderEvents [Written τ] (node : τ) : List Event :=
  (Written.tokens node).suppressedHints.map .hintNotRendered

def statementEvents [Written τ] (d : Dialect) (node : τ) : List Event :=
  .serialize d :: (renderEvents node ++ [.serialized (statement d node).utf8ByteSize])

end SqlSelect
