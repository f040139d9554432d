namespace SqlSelect

/-- The algorithm a join asks for. -/
inductive JoinHint where
  | loop | hash | merge | remote
  deriving DecidableEq

/-- The name under which a hint is reported. -/
def JoinHint.label : JoinHint → String
  | .loop => "Loop"
  | .hash => "Hash"
  | .merge => "Merge"
  | .remote => "Remote"

/-- A hint that a written join has no room for, and which of the two keywords
    took its place. -/
structure SuppressedHint where
  hint : JoinHint
  straight : Bool
  apply : Bool
  deriving DecidableEq

end SqlSelect
