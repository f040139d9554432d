import SqlSelect.Token.Keyword
namespace SqlSelect

inductive Qualifier where
  | natural | left | right | full | cross | outer | inner | semi
  deriving DecidableEq

/-- The qualifiers that are switched off when a qualifier is switched on. -/
def Qualifier.excludes : Qualifier → List Qualifier
  | .inner => [.left, .right, .outer, .cross, .natural]
  | .outer => [.inner]
  | .left => [.inner, .right]
  | .right => [.inner, .left]
  | .natural | .full | .cross | .semi => []

/-- The qualifiers of a join.  `JoinKind.set` keeps some of them from being on
    together: switching one on switches off those that it rules out. -/
structure JoinKind where
  natural : Bool := false
  left : Bool := false
  right : Bool := false
  full : Bool := false
  cross : Bool := false
  outer : Bool := false
  inner : Bool := false
  semi : Bool := false
  deriving DecidableEq

/-- The word for the rows that are kept without a partner. -/
inductive Side where
  | left | right | full | cross
  deriving DecidableEq

def Side.keyword : Side → Keyword
  | .left => .LEFT
  | .right => .RIGHT
  | .full => .FULL
  | .cross => .CROSS

/-- The word after the side. -/
inductive Manner where
  | outer | inner | semi
  deriving DecidableEq

def Manner.keyword : Manner → Keyword
  | .outer => .OUTER
  | .inner => .INNER
  | .semi => .SEMI

namespace JoinKind

def has (k : JoinKind) : Qualifier → Bool
  | .natural => k.natural
  | .left => k.left
  | .right => k.right
  | .full => k.full
  | .cross => k.cross
  | .outer => k.outer
  | .inner => k.inner
  | .semi => k.semi

/-- The kind with one qualifier switched and the others as they are. -/
def put (k : JoinKind) (on : Bool) : Qualifier → JoinKind
  | .natural => { k with natural := on }
  | .left => { k with left := on }
  | .right => { k with right := on }
  | .full => { k with full := on }
  | .cross => { k with cross := on }
  | .outer => { k with outer := on }
  | .inner => { k with inner := on }
  | .semi => { k with semi := on }

/-- Switch a qualifier, and switch off what it excludes when it is switched on. -/
def set (k : JoinKind) (q : Qualifier) (on : Bool) : JoinKind :=
  ((if on then q.excludes else []).foldl (fun k other => k.put false other) k).put on q

/-- The side that is written when several are on. -/
def side? (k : JoinKind) : Option Side :=
  if k.right then some .right
  else if k.full then some .full
  else if k.left then some .left
  else if k.cross then some .cross
  else none

/-- The manner that is written when several are on. -/
def manner? (k : JoinKind) : Option Manner :=
  if k.outer then some .outer
  else if k.inner then some .inner
  else if k.semi then some .semi
  else none

/-- Whether the join keeps only pairs of rows: it says so, or says nothing else. -/
def isInnerJoin (k : JoinKind) : Bool :=
  k.inner || !(k.left || k.right || k.full || k.outer || k.cross || k.natural)

theorem has_put (k : JoinKind) (on : Bool) (q r : Qualifier) :
    (k.put on q).has r = if r = q then on else k.has r := by
  cases q <;> cases r <;> rfl

theorem ext_has {a b : JoinKind} (same : ∀ q, a.has q = b.has q) : a = b := by
  obtain ⟨_, _, _, _, _, _, _, _⟩ := a
  obtain ⟨_, _, _, _, _, _, _, _⟩ := b
  simp only [mk.injEq]
  exact ⟨same .natural, same .left, same .right, same .full, same .cross, same .outer,
    same .inner, same .semi⟩

end JoinKind
end SqlSelect
