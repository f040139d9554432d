import Mathlib.Data.Multiset.Dedup
namespace SqlSelect

/-!
# Grouping of unions

A text without parentheses groups unions to the left.  Here is exactly when that
gives the rows of a union that is grouped in another way.  A union is a binary
tree, and the rows of an operand can depend on its place from the left and on
what is written for it.
-/

/-- How unions are grouped.  Each one keeps repeated rows or removes them. -/
inductive Grouping (τ : Type) where
  | leaf (operand : τ)
  | node (all : Bool) (left right : Grouping τ)

variable {τ ρ : Type}

section

theorem not_nodup_add {left right : Multiset ρ} {x : ρ} (inLeft : x ∈ left) (inRight : x ∈ right) :
    ¬(left + right).Nodup := by
  intro single
  exact Multiset.disjoint_left.mp (Multiset.nodup_add.mp single).2.2 inLeft inRight

variable [Inhabited ρ]

/-- The same row at two places, and no other row. -/
def sameRowAt (i j : Nat) : Nat → τ → Multiset ρ := fun k _ =>
  if k = i ∨ k = j then {default} else 0

theorem sameRowAt_of_ne {i j k : Nat} (first : k ≠ i) (second : k ≠ j) (t : τ) :
    (sameRowAt i j k t : Multiset ρ) = 0 :=
  if_neg (not_or.mpr ⟨first, second⟩)

theorem mem_sameRowAt_left (i j : Nat) (t : τ) : (default : ρ) ∈ sameRowAt i j i t := by
  simp [sameRowAt]

theorem mem_sameRowAt_right (i j : Nat) (t : τ) : (default : ρ) ∈ sameRowAt i j j t := by
  simp [sameRowAt]

end

variable [DecidableEq ρ]

def unite (all : Bool) (left right : Multiset ρ) : Multiset ρ :=
  if all then left + right else (left + right).dedup

/-- The rows of a sequence of unions without parentheses, after the rows of the
    first operand. -/
def leftToRight (first : Multiset ρ) (rows : Nat → τ → Multiset ρ) :
    List (Bool × τ) → Multiset ρ
  | [] => first
  | (all, operand) :: rest =>
      leftToRight (unite all first (rows 0 operand)) (fun i => rows (i + 1)) rest

namespace Grouping

def size : Grouping τ → Nat
  | .leaf _ => 1
  | .node _ left right => left.size + right.size

def first : Grouping τ → τ
  | .leaf operand => operand
  | .node _ left _ => left.first

/-- The further operands from left to right, each after its union. -/
def rest : Grouping τ → List (Bool × τ)
  | .leaf _ => []
  | .node all left right => left.rest ++ (all, right.first) :: right.rest

def unions : Grouping τ → List Bool
  | .leaf _ => []
  | .node all left right => left.unions ++ all :: right.unions

/-- The rows of the grouping. -/
def bag (rows : Nat → τ → Multiset ρ) : Grouping τ → Multiset ρ
  | .leaf operand => rows 0 operand
  | .node all left right => unite all (left.bag rows) (right.bag fun i => rows (left.size + i))

/-- The rows that are read when the parentheses are left out. -/
def reading (rows : Nat → τ → Multiset ρ) (g : Grouping τ) : Multiset ρ :=
  leftToRight (rows 0 g.first) (fun i => rows (i + 1)) g.rest

/-- When leaving out the parentheses changes no rows: a union that keeps repeated
    rows has none that removes them on its right, and one that removes them has
    none that keeps them as the last on its right. -/
def Faithful : Grouping τ → Prop
  | .leaf _ => True
  | .node true left right => left.Faithful ∧ false ∉ right.unions
  | .node false _ right => right.unions.getLast? ≠ some true

instance decidableFaithful : (g : Grouping τ) → Decidable g.Faithful
  | .leaf _ => isTrue trivial
  | .node true left right =>
      have := left.decidableFaithful
      inferInstanceAs (Decidable (left.Faithful ∧ false ∉ right.unions))
  | .node false _ right => inferInstanceAs (Decidable (right.unions.getLast? ≠ some true))

theorem map_fst_rest (g : Grouping τ) : g.rest.map Prod.fst = g.unions := by
  induction g with
  | leaf operand => rfl
  | node all left right leftIh rightIh =>
      rw [rest, List.map_append, List.map_cons, leftIh, rightIh, unions]

theorem length_rest (g : Grouping τ) : g.rest.length + 1 = g.size := by
  induction g with
  | leaf operand => rfl
  | node all left right leftIh rightIh =>
      simp only [rest, size, List.length_append, List.length_cons]
      omega

theorem getLast?_unions_node (all : Bool) (left right : Grouping τ) :
    (node all left right).unions.getLast? = right.unions.getLast?.or (some all) := by
  rw [unions, List.getLast?_append, List.getLast?_cons]
  cases right.unions.getLast? <;> rfl

theorem exists_last {g : Grouping τ} {all : Bool} (last : g.unions.getLast? = some all) :
    ∃ xs operand, g.rest = xs ++ [(all, operand)] := by
  rw [← g.map_fst_rest, List.getLast?_map] at last
  obtain ⟨⟨_, operand⟩, final, rfl⟩ := Option.map_eq_some_iff.mp last
  obtain ⟨xs, ends⟩ := List.getLast?_eq_some_iff.mp final
  exact ⟨xs, operand, ends⟩

end Grouping

theorem mem_unite {all : Bool} {left right : Multiset ρ} {x : ρ} :
    x ∈ unite all left right ↔ x ∈ left ∨ x ∈ right := by
  cases all <;> simp [unite]

theorem leftToRight_append (first : Multiset ρ) (rows : Nat → τ → Multiset ρ)
    (xs ys : List (Bool × τ)) :
    leftToRight first rows (xs ++ ys) =
      leftToRight (leftToRight first rows xs) (fun i => rows (xs.length + i)) ys := by
  induction xs generalizing first rows with
  | nil => simp [leftToRight]
  | cons x rest ih =>
      rw [List.cons_append, leftToRight, ih, leftToRight]
      congr 1
      funext i
      congr 1
      simp only [List.length_cons]
      omega

theorem leftToRight_concat (first : Multiset ρ) (rows : Nat → τ → Multiset ρ)
    (xs : List (Bool × τ)) (x : Bool × τ) :
    leftToRight first rows (xs ++ [x]) =
      unite x.1 (leftToRight first rows xs) (rows xs.length x.2) := by
  rw [leftToRight_append]
  rfl

theorem mem_leftToRight {first : Multiset ρ} {rows : Nat → τ → Multiset ρ}
    {xs : List (Bool × τ)} {x : ρ} (member : x ∈ first) : x ∈ leftToRight first rows xs := by
  induction xs generalizing first rows with
  | nil => exact member
  | cons y rest ih => exact ih (mem_unite.mpr (.inl member))

theorem nodup_leftToRight {first : Multiset ρ} (single : first.Nodup)
    {rows : Nat → τ → Multiset ρ} {xs : List (Bool × τ)} (empty : ∀ i t, rows i t = 0) :
    (leftToRight first rows xs).Nodup := by
  induction xs generalizing first rows with
  | nil => exact single
  | cons x rest ih =>
      obtain ⟨all, operand⟩ := x
      refine ih ?_ fun i t => empty (i + 1) t
      cases all with
      | true => simpa [unite, empty] using single
      | false => simp [unite]

namespace Grouping

variable {rows : Nat → τ → Multiset ρ}

theorem leftToRight_node (before all : Bool) (left right : Grouping τ) (start : Multiset ρ)
    (rows : Nat → τ → Multiset ρ) :
    leftToRight start rows ((before, (node all left right).first) :: (node all left right).rest) =
      leftToRight (leftToRight start rows ((before, left.first) :: left.rest))
        (fun i => rows (left.size + i)) ((all, right.first) :: right.rest) := by
  have regroup : (before, (node all left right).first) :: (node all left right).rest =
      ((before, left.first) :: left.rest) ++ (all, right.first) :: right.rest := rfl
  have length : ((before, left.first) :: left.rest).length = left.size := left.length_rest
  rw [regroup, leftToRight_append, length]

/-- Where every union keeps repeated rows, grouping does not matter. -/
theorem leftToRight_all {g : Grouping τ} (keeps : false ∉ g.unions) (start : Multiset ρ)
    (rows : Nat → τ → Multiset ρ) :
    leftToRight start rows ((true, g.first) :: g.rest) = start + g.bag rows := by
  induction g generalizing start rows with
  | leaf operand => rfl
  | node all left right leftIh rightIh =>
      simp only [unions, List.mem_append, List.mem_cons, not_or] at keeps
      obtain rfl : all = true := by simpa using keeps.2.1
      rw [leftToRight_node, leftIh keeps.1, rightIh keeps.2.2, Multiset.add_assoc]
      rfl

/-- Which rows there are does not depend on the grouping. -/
theorem mem_leftToRight_iff {g : Grouping τ} {before : Bool} {start : Multiset ρ} {x : ρ} :
    x ∈ leftToRight start rows ((before, g.first) :: g.rest) ↔ x ∈ start ∨ x ∈ g.bag rows := by
  induction g generalizing before start rows with
  | leaf operand => exact mem_unite
  | node all left right leftIh rightIh =>
      rw [leftToRight_node, rightIh, leftIh, bag, mem_unite, or_assoc]

/-- The rows that are read are those of the left part, and then what the text
    after it adds. -/
theorem reading_node (all : Bool) (left right : Grouping τ) (rows : Nat → τ → Multiset ρ) :
    (node all left right).reading rows =
      leftToRight (left.reading rows) (fun i => rows (left.size + i))
        ((all, right.first) :: right.rest) := by
  rw [reading, rest, leftToRight_append, ← left.length_rest]
  refine congrArg₂ (fun start rows => leftToRight start rows _) rfl (funext fun i => ?_)
  congr 1
  omega

theorem mem_reading_iff {g : Grouping τ} {x : ρ} : x ∈ g.reading rows ↔ x ∈ g.bag rows := by
  induction g generalizing rows with
  | leaf operand => rfl
  | node all left right leftIh _ => rw [reading_node, mem_leftToRight_iff, leftIh, bag, mem_unite]

theorem nodup_reading {g : Grouping τ} (last : g.unions.getLast? = some false) :
    (g.reading rows).Nodup := by
  obtain ⟨xs, operand, ends⟩ := exists_last last
  rw [reading, ends, leftToRight_concat]
  exact Multiset.nodup_dedup _

theorem reading_eq_bag {g : Grouping τ} (faithful : g.Faithful) : g.reading rows = g.bag rows := by
  induction g with
  | leaf operand => rfl
  | node all left right leftIh rightIh =>
      cases all with
      | true =>
          rw [reading_node, leftToRight_all faithful.2, leftIh faithful.1]
          rfl
      | false =>
          -- The last union removes repeated rows on both sides.
          have last : (node false left right).unions.getLast? = some false := by
            rw [getLast?_unions_node]
            cases ends : right.unions.getLast? with
            | none => rfl
            | some all =>
                cases all with
                | true => exact absurd ends faithful
                | false => rfl
          have single : ((node false left right).bag rows).Nodup := Multiset.nodup_dedup _
          exact (Multiset.Nodup.ext (nodup_reading last) single).mpr fun x => mem_reading_iff

theorem mem_bag_of_first {g : Grouping τ} {x : ρ} (member : x ∈ rows 0 g.first) :
    x ∈ g.bag rows := by
  induction g generalizing rows with
  | leaf operand => exact member
  | node all left right leftIh _ => exact mem_unite.mpr (.inl (leftIh member))

end Grouping

variable [Inhabited ρ]

namespace Grouping

/-- A union on the right that removes repeated rows would remove those that a
    union before it keeps. -/
theorem keeps_of_reading_eq_bag {left right : Grouping τ}
    (same : ∀ rows : Nat → τ → Multiset ρ, (node true left right).reading rows =
      (node true left right).bag rows) : false ∉ right.unions := by
  intro removes
  rw [← right.map_fst_rest] at removes
  obtain ⟨⟨_, operand⟩, member, rfl⟩ := List.mem_map.mp removes
  obtain ⟨xs, ys, split⟩ := List.append_of_mem member
  have length := left.length_rest
  let rows : Nat → τ → Multiset ρ := sameRowAt 0 left.size
  have single : ((node true left right).reading rows).Nodup := by
    have regroup : (node true left right).rest =
        (left.rest ++ (true, right.first) :: xs ++ [(false, operand)]) ++ ys := by
      simp [rest, split]
    rw [reading, regroup, leftToRight_append]
    refine nodup_leftToRight ?_ fun i t => ?_
    · rw [leftToRight_concat]
      exact Multiset.nodup_dedup _
    · simp only [List.length_append, List.length_cons, List.length_nil]
      exact sameRowAt_of_ne (by omega) (by omega) t
  rw [same] at single
  refine not_nodup_add (mem_bag_of_first (mem_sameRowAt_left _ _ _)) ?_ single
  exact mem_bag_of_first (mem_sameRowAt_right _ _ _)

/-- A last union that keeps repeated rows would keep those that the union before
    it removes. -/
theorem removes_of_reading_eq_bag {left right : Grouping τ}
    (same : ∀ rows : Nat → τ → Multiset ρ, (node false left right).reading rows =
      (node false left right).bag rows) : right.unions.getLast? ≠ some true := by
  intro last
  obtain ⟨xs, operand, ends⟩ := exists_last last
  have regroup : (node false left right).rest =
      (left.rest ++ (false, right.first) :: xs) ++ [(true, operand)] := by
    simp [rest, ends]
  let rows : Nat → τ → Multiset ρ :=
    sameRowAt 0 ((left.rest ++ (false, right.first) :: xs).length + 1)
  have single : ((node false left right).bag rows).Nodup := Multiset.nodup_dedup _
  rw [← same, reading, regroup, leftToRight_concat] at single
  refine not_nodup_add ?_ (mem_sameRowAt_right _ _ _) single
  exact mem_leftToRight (mem_sameRowAt_left _ _ _)

/-- Without parentheses a grouping is read with its own rows, whatever rows its
    operands have, exactly when it is faithful. -/
theorem reading_eq_bag_iff (g : Grouping τ) :
    (∀ rows : Nat → τ → Multiset ρ, g.reading rows = g.bag rows) ↔ g.Faithful := by
  refine ⟨fun same => ?_, fun faithful _ => reading_eq_bag faithful⟩
  induction g with
  | leaf operand => trivial
  | node all left right leftIh _ =>
      cases all with
      | false => exact removes_of_reading_eq_bag same
      | true =>
          have keeps := keeps_of_reading_eq_bag same
          refine ⟨leftIh fun rows => ?_, keeps⟩
          have both := same rows
          rw [reading_node, leftToRight_all keeps] at both
          exact Multiset.add_left_inj.mp both

end Grouping
end SqlSelect
