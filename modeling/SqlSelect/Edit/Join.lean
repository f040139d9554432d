import SqlSelect.AccessError
import SqlSelect.Clause.Join
namespace SqlSelect

variable {ε κ : Type}

/-- One edit of a join over conditions of type `ε`. -/
inductive JoinEdit (ε : Type) where
  | switch (qualifier : Qualifier) (on : Bool)
  | global
  | straight
  | apply
  | simple
  | hint (hint : JoinHint)
  /-- Add a condition after the others. -/
  | addOn (condition : ε)
  /-- Add a condition before the others. -/
  | putOn (condition : ε)
  | setOn (conditions : List ε)
  | addUsing (column : Name)
  | setUsing (columns : List Name)
  | within (window : Within)

/-- The kinds of a join before and after an edit that changed it. -/
structure KindChange where
  before : JoinKind
  after : JoinKind
  deriving DecidableEq

namespace Join

def edit (j : Join ε κ) : JoinEdit ε → Join ε κ
  | .switch qualifier on => { j with kind := j.kind.set qualifier on }
  | .global => { j with global := true }
  | .straight => { j with straight := true }
  | .apply => { j with apply := true }
  | .simple => { j with simple := true }
  | .hint hint => { j with hint? := some hint }
  | .addOn condition => { j with on := j.on ++ [condition] }
  | .putOn condition => { j with on := condition :: j.on }
  | .setOn conditions => { j with on := conditions }
  | .addUsing column => { j with usingColumns := j.usingColumns ++ [column] }
  | .setUsing columns => { j with usingColumns := columns }
  | .within window => { j with within? := some window }

def run (j : Join ε κ) (edits : List (JoinEdit ε)) : Join ε κ := edits.foldl edit j

def change? (j : Join ε κ) (e : JoinEdit ε) : Option KindChange :=
  if (j.edit e).kind = j.kind then none else some ⟨j.kind, (j.edit e).kind⟩

/-- The record of a run: the changes of the kind, in order. -/
def changes (j : Join ε κ) : List (JoinEdit ε) → List KindChange
  | [] => []
  | e :: rest => (j.change? e).toList ++ (j.edit e).changes rest

def firstOn (j : Join ε κ) : Except AccessError ε :=
  (entryAt "on" j.on 0).mapError (.context "Join::on_expr")

def listEdits : List (JoinEdit ε) := [.simple]

/-- The edits that make a join keep the rows on its left, with a condition. -/
def leftEdits (condition : ε) : List (JoinEdit ε) := [.switch .left true, .addOn condition]

/-- The edits that make a join keep only pairs of rows, with a condition. -/
def innerEdits (condition : ε) : List (JoinEdit ε) := [.switch .inner true, .addOn condition]

def comma (source : Relation ε κ) : Join ε κ := (of source).run listEdits

def left (source : Relation ε κ) (condition : ε) : Join ε κ := (of source).run (leftEdits condition)

def inner (source : Relation ε κ) (condition : ε) : Join ε κ :=
  (of source).run (innerEdits condition)

theorem run_append (j : Join ε κ) (first second : List (JoinEdit ε)) :
    j.run (first ++ second) = (j.run first).run second :=
  List.foldl_append

end Join
end SqlSelect
