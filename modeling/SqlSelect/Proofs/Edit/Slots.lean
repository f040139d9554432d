import SqlSelect.Edit.Query
import SqlSelect.Tree.Tokens
namespace SqlSelect

/-!
# Slots

Every edit writes one slot of what it edits.  Edits of different slots commute,
so the result of a run depends only on the edits of each slot and their order,
not on how the slots are interleaved.
-/

variable {α ς σ : Type}

/-- Two sequences of edits that hold the same edits of each slot, in the same
    order. -/
def Slotwise [DecidableEq ς] (slot : α → ς) (xs ys : List α) : Prop :=
  ∀ place, xs.filter (slot · = place) = ys.filter (slot · = place)

section

variable {slot : α → ς} {edit : σ → α → σ}

/-- An edit can be made before those in front of it, when they are edits of other
    slots. -/
theorem foldl_move_first
    (commute : ∀ s a b, slot a ≠ slot b → edit (edit s a) b = edit (edit s b) a)
    {front back : List α} {a : α} (others : ∀ b ∈ front, slot b ≠ slot a) (s : σ) :
    (front ++ a :: back).foldl edit s = (a :: (front ++ back)).foldl edit s := by
  induction front generalizing s with
  | nil => rfl
  | cons b rest ih =>
      have apart := others b List.mem_cons_self
      have later : ∀ c ∈ rest, slot c ≠ slot a := fun c member =>
        others c (List.mem_cons_of_mem b member)
      rw [List.cons_append, List.foldl_cons, ih later]
      simp only [List.foldl_cons, List.cons_append, commute s b a apart]

variable [DecidableEq ς]

/-- The first edit of a sequence is in the other one too, behind edits of other
    slots only, and without it the two are slotwise the same. -/
theorem Slotwise.split {a : α} {xs ys : List α} (same : Slotwise slot (a :: xs) ys) :
    ∃ front back, ys = front ++ a :: back ∧ (∀ b ∈ front, slot b ≠ slot a) ∧
      Slotwise slot xs (front ++ back) := by
  have here := same (slot a)
  rw [List.filter_cons_of_pos (by simp)] at here
  obtain ⟨front, back, rfl, absent, -, rest⟩ := List.filter_eq_cons_iff.mp here.symm
  have others : ∀ b ∈ front, slot b ≠ slot a := fun b member => by simpa using absent b member
  refine ⟨front, back, rfl, others, fun place => ?_⟩
  by_cases inSlot : slot a = place
  · subst inSlot
    have skipped : front.filter (slot · = slot a) = [] :=
      List.filter_eq_nil_iff.mpr absent
    rw [List.filter_append, skipped, List.nil_append, rest]
  · have elsewhere := same place
    rw [List.filter_append, List.filter_cons_of_neg (by simpa using inSlot),
      List.filter_cons_of_neg (by simpa using inSlot)] at elsewhere
    rw [elsewhere, List.filter_append]

theorem Slotwise.eq_nil {ys : List α} (same : Slotwise slot [] ys) : ys = [] := by
  cases ys with
  | nil => rfl
  | cons b rest =>
      have here := same (slot b)
      rw [List.filter_cons_of_pos (by simp)] at here
      cases here

/-- Where edits of different slots commute, runs that are slotwise the same end
    alike. -/
theorem Slotwise.foldl_eq
    (commute : ∀ s a b, slot a ≠ slot b → edit (edit s a) b = edit (edit s b) a)
    {xs ys : List α} (same : Slotwise slot xs ys) (s : σ) :
    xs.foldl edit s = ys.foldl edit s := by
  induction xs generalizing s ys with
  | nil => rw [same.eq_nil]
  | cons a rest ih =>
      obtain ⟨front, back, rfl, others, later⟩ := same.split
      rw [foldl_move_first commute others, List.foldl_cons, List.foldl_cons, ih later]

end

inductive SelectSlot where
  | items | source | only | joins | lateralViews | filter | groupBy | having | qualify | distinct
  | shape | top | optimizeFor | preferring | xmlPath | windows | merged | into
  | straightJoin | calcFoundRows | cache
  | hint | hierarchy
  | skip | first | intoTemp | noLog
  | streamWindow | emitChanges
  deriving DecidableEq

variable {ε κ : Type}

def SelectEdit.slot : SelectEdit ε κ → SelectSlot
  | .item _ => .items
  | .source _ => .source
  | .only => .only
  | .join _ => .joins
  | .lateralView _ => .lateralViews
  | .filter _ => .filter
  | .groupBy _ | .groupByExpr _ => .groupBy
  | .having _ => .having
  | .qualify _ => .qualify
  | .distinct _ => .distinct
  | .shape _ => .shape
  | .top _ => .top
  | .optimizeFor _ => .optimizeFor
  | .preferring _ => .preferring
  | .xmlPath _ => .xmlPath
  | .window _ => .windows
  | .merged => .merged
  | .into _ => .into
  | .straightJoin => .straightJoin
  | .calcFoundRows => .calcFoundRows
  | .cache _ => .cache
  | .hint _ => .hint
  | .hierarchy _ => .hierarchy
  | .skip _ => .skip
  | .first _ => .first
  | .intoTemp _ => .intoTemp
  | .noLog => .noLog
  | .streamWindow _ => .streamWindow
  | .emitChanges => .emitChanges

/-- Two edits of one vendor's clauses commute although either may be the first to
    bring the group in: the group is there after both. -/
theorem Select.edit_comm (s : Select Expr κ) (e f : SelectEdit Expr κ) (apart : e.slot ≠ f.slot) :
    (s.edit e).edit f = (s.edit f).edit e := by
  cases e <;> cases f <;> first | rfl | exact absurd rfl apart

inductive JoinSlot where
  /-- All qualifiers, because they rule one another out. -/
  | kind
  | global | straight | apply | simple | hint | on | usingColumns | within
  deriving DecidableEq

def JoinEdit.slot : JoinEdit ε → JoinSlot
  | .switch _ _ => .kind
  | .global => .global
  | .straight => .straight
  | .apply => .apply
  | .simple => .simple
  | .hint _ => .hint
  | .addOn _ | .putOn _ | .setOn _ => .on
  | .addUsing _ | .setUsing _ => .usingColumns
  | .within _ => .within

theorem Join.edit_comm (j : Join ε κ) (e f : JoinEdit ε) (apart : e.slot ≠ f.slot) :
    (j.edit e).edit f = (j.edit f).edit e := by
  cases e <;> cases f <;> first | rfl | exact absurd rfl apart

inductive EnvelopeSlot where
  | withClause | orderBy | limit | offset | fetch | locks
  deriving DecidableEq

def EnvelopeEdit.slot : EnvelopeEdit ε κ → EnvelopeSlot
  | .withClause _ => .withClause
  | .orderBy _ => .orderBy
  | .limit _ => .limit
  | .offset _ => .offset
  | .fetch _ => .fetch
  | .lock _ | .locks _ => .locks

theorem Envelope.edit_comm (e : Envelope ε κ) (a b : EnvelopeEdit ε κ) (apart : a.slot ≠ b.slot) :
    (e.edit a).edit b = (e.edit b).edit a := by
  cases a <;> cases b <;> first | rfl | exact absurd rfl apart

theorem Query.edit_comm (q : Query) (a b : EnvelopeEdit Expr Query) (apart : a.slot ≠ b.slot) :
    (q.edit a).edit b = (q.edit b).edit a :=
  congrArg (fun envelope => { q with envelope }) (q.envelope.edit_comm a b apart)

/-- Runs of a select, of a join and of a query that are slotwise the same have the
    same result, and so the same text in every dialect. -/
theorem run_eq_of_slotwise :
    (∀ (s : Select Expr Query) (xs ys : List (SelectEdit Expr Query)),
      Slotwise SelectEdit.slot xs ys →
        s.run xs = s.run ys ∧ ∀ d, render d (s.run xs) = render d (s.run ys)) ∧
    (∀ (j : Join Expr Query) (xs ys : List (JoinEdit Expr)),
      Slotwise JoinEdit.slot xs ys →
        j.run xs = j.run ys ∧ ∀ d, render d (j.run xs) = render d (j.run ys)) ∧
    (∀ (q : Query) (xs ys : List (EnvelopeEdit Expr Query)),
      Slotwise EnvelopeEdit.slot xs ys →
        q.run xs = q.run ys ∧ ∀ d, render d (q.run xs) = render d (q.run ys)) := by
  refine ⟨fun s xs ys same => ?_, fun j xs ys same => ?_, fun q xs ys same => ?_⟩
  · have result : s.run xs = s.run ys := same.foldl_eq Select.edit_comm s
    exact ⟨result, fun d => congrArg (render d) result⟩
  · have result : j.run xs = j.run ys := same.foldl_eq Join.edit_comm j
    exact ⟨result, fun d => congrArg (render d) result⟩
  · have result : q.run xs = q.run ys := same.foldl_eq Query.edit_comm q
    exact ⟨result, fun d => congrArg (render d) result⟩

/-- Conditions that gather, around vendor clauses of which either brings in the
    group. -/
def conditionsTogether : List (SelectEdit Expr Query) :=
  [.filter (.column ⟨["a"]⟩), .filter (.column ⟨["b"]⟩), .straightJoin, .calcFoundRows]

def conditionsApart : List (SelectEdit Expr Query) :=
  [.calcFoundRows, .filter (.column ⟨["a"]⟩), .straightJoin, .filter (.column ⟨["b"]⟩)]

def joinedTable : Join Expr Query := .of (.ofText "t")

/-- Qualifiers that rule one another out, around conditions. -/
def qualifiersTogether : List (JoinEdit Expr) :=
  [.addOn (.bool true), .addOn (.bool false), .switch .inner true, .switch .left true]

def qualifiersApart : List (JoinEdit Expr) :=
  [.switch .inner true, .addOn (.bool true), .switch .left true, .addOn (.bool false)]

/-- Locks that are set and added to, around a limit. -/
def locksTogether : List (EnvelopeEdit Expr Query) :=
  [.locks [.of .share], .lock (.of .update), .limit .all]

def locksApart : List (EnvelopeEdit Expr Query) :=
  [.locks [.of .share], .limit .all, .lock (.of .update)]

theorem run_together_eq_run_apart :
    (Slotwise SelectEdit.slot conditionsTogether conditionsApart ∧
      Slotwise JoinEdit.slot qualifiersTogether qualifiersApart ∧
      Slotwise EnvelopeEdit.slot locksTogether locksApart) ∧
    (Select.run {} conditionsTogether = Select.run {} conditionsApart ∧
      ∀ d, render d (Select.run {} conditionsTogether) = render d (Select.run {} conditionsApart)) ∧
    (joinedTable.run qualifiersTogether = joinedTable.run qualifiersApart ∧
      ∀ d, render d (joinedTable.run qualifiersTogether) =
        render d (joinedTable.run qualifiersApart)) ∧
    (Query.run default locksTogether = Query.run default locksApart ∧
      ∀ d, render d (Query.run default locksTogether) =
        render d (Query.run default locksApart)) := by
  have select : Slotwise SelectEdit.slot conditionsTogether conditionsApart := by
    intro place
    cases place <;> rfl
  have join : Slotwise JoinEdit.slot qualifiersTogether qualifiersApart := by
    intro place
    cases place <;> rfl
  have query : Slotwise EnvelopeEdit.slot locksTogether locksApart := by
    intro place
    cases place <;> rfl
  exact ⟨⟨select, join, query⟩, run_eq_of_slotwise.1 {} _ _ select,
    run_eq_of_slotwise.2.1 joinedTable _ _ join, run_eq_of_slotwise.2.2 default _ _ query⟩

end SqlSelect
