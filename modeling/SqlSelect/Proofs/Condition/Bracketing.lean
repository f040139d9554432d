import SqlSelect.Edit.Select
import SqlSelect.Proofs.Reader.Grammar
namespace SqlSelect

open Phrase

/-- What joins conditions. -/
inductive Connective where
  | and | or

namespace Connective

def other : Connective → Connective
  | .and => .or
  | .or => .and

def join : Connective → Expr → Expr → Expr
  | .and => .and
  | .or => .or

/-- The flat expression over its operands. -/
def flat : Connective → List Expr → Expr
  | .and => .all
  | .or => .any

/-- The operands of an expression of this kind.  Any other expression is a single
    operand. -/
def operands : Connective → Expr → List Expr
  | .and, .all es => es
  | .or, .any es => es
  | _, e => [e]

/-- What stands between two operands. -/
def separator : Connective → String
  | .and => " AND "
  | .or => " OR "

variable (c : Connective)

@[simp] theorem operands_flat (es : List Expr) : c.operands (c.flat es) = es := by
  cases c <;> rfl

theorem operands_other (es : List Expr) : c.operands (c.other.flat es) = [c.other.flat es] := by
  cases c <;> rfl

theorem join_eq (left right : Expr) :
    c.join left right = c.flat (c.operands left ++ c.operands right) := by
  cases c with
  | and =>
      have conjuncts (e : Expr) : e.conjuncts = operands .and e := by cases e <;> rfl
      rw [← conjuncts, ← conjuncts]
      exact Expr.and_eq left right
  | or =>
      have disjuncts (e : Expr) : e.disjuncts = operands .or e := by cases e <;> rfl
      rw [← disjuncts, ← disjuncts]
      exact Expr.or_eq left right

theorem join_assoc (x y z : Expr) : c.join (c.join x y) z = c.join x (c.join y z) := by
  simp only [join_eq, operands_flat, List.append_assoc]

theorem tokens_flat (es : List Expr) :
    ∃ between : Tokens, (∀ d, between.chars d = c.separator.toList) ∧
      (c.flat es).tokens = joined between (es.map Expr.tokens) := by
  cases c with
  | and => exact ⟨_, fun d => by cases d <;> decide, Expr.tokens_all es⟩
  | or => exact ⟨_, fun d => by cases d <;> decide, Expr.tokens_any es⟩

theorem render_flat (d : Dialect) (es : List Expr) :
    render d (c.flat es) = c.separator.intercalate (es.map (render d)) := by
  obtain ⟨between, text, written⟩ := c.tokens_flat es
  have each : (es.map (render d)).map String.toList =
      (es.map Expr.tokens).map (Tokens.chars d) := by
    simp [render, Written.tokens]
  rw [← String.toList_inj, String.toList_intercalate, each, ← text d, ← chars_joined,
    ← written]
  exact String.toList_ofList

end Connective

/-- A way of bracketing expressions that are joined two at a time. -/
inductive Bracketing where
  | leaf (e : Expr)
  | node (left right : Bracketing)

namespace Bracketing

def leaves : Bracketing → List Expr
  | .leaf e => [e]
  | .node left right => left.leaves ++ right.leaves

def build (c : Connective) : Bracketing → Expr
  | .leaf e => e
  | .node left right => c.join (left.build c) (right.build c)

/-- One expression after another, each joined to all before it. -/
def leftmost (first : Expr) (rest : List Expr) : Bracketing :=
  rest.foldl (fun b e => .node b (.leaf e)) (.leaf first)

theorem operands_build (c : Connective) (b : Bracketing) :
    c.operands (b.build c) = b.leaves.flatMap c.operands := by
  induction b with
  | leaf e => simp [build, leaves]
  | node left right leftIh rightIh =>
      rw [build, c.join_eq, c.operands_flat, leftIh, rightIh, leaves, List.flatMap_append]

theorem build_eq_flat (c : Connective) {b : Bracketing} (several : 2 ≤ b.leaves.length) :
    b.build c = c.flat (b.leaves.flatMap c.operands) := by
  cases b with
  | leaf e =>
      simp only [leaves, List.length_singleton] at several
      omega
  | node left right =>
      rw [build, c.join_eq, operands_build, operands_build, leaves, List.flatMap_append]

theorem leaves_leftmost (first : Expr) (rest : List Expr) :
    (leftmost first rest).leaves = first :: rest := by
  have grown (b : Bracketing) :
      (rest.foldl (fun b e => .node b (.leaf e)) b).leaves = b.leaves ++ rest := by
    induction rest generalizing b with
    | nil => simp
    | cons e more ih => rw [List.foldl_cons, ih]; simp [leaves]
  exact grown (.leaf first)

theorem build_leftmost (c : Connective) (first : Expr) (rest : List Expr) :
    (leftmost first rest).build c = rest.foldl c.join first := by
  have grown (b : Bracketing) :
      (rest.foldl (fun b e => .node b (.leaf e)) b).build c = rest.foldl c.join (b.build c) := by
    induction rest generalizing b with
    | nil => rfl
    | cons e more ih => rw [List.foldl_cons, ih]; rfl
  exact grown (.leaf first)

/-- Adding expressions to an empty filter brackets them to the left. -/
theorem run_filters {κ : Type} {s : Select Expr κ} (unfiltered : s.filter? = none)
    {b : Bracketing} (several : 2 ≤ b.leaves.length) :
    s.run (b.leaves.map .filter) = { s with filter? := some (b.build .and) } := by
  rw [build_eq_flat .and several]
  match same : b.leaves with
  | [] => simp [same] at several
  | first :: rest =>
      have several : 2 ≤ (leftmost first rest).leaves.length := by
        rwa [leaves_leftmost, ← same]
      rw [Select.run_filters_of_none unfiltered, ← leaves_leftmost first rest,
        ← build_eq_flat .and several, build_leftmost]
      rfl

/-- Two or more expressions, joined two at a time in any bracketing, make one
    flat expression over the operands of all of them, written with the connective
    between the operands.  Expressions of the other kind are operands as they are.
    Added to an empty filter, the expressions make the same conjunction. -/
theorem build_flat (c : Connective) (b : Bracketing) (several : 2 ≤ b.leaves.length) :
    b.build c = c.flat (b.leaves.flatMap c.operands) ∧
    (∀ d, render d (b.build c) =
      c.separator.intercalate ((b.leaves.flatMap c.operands).map (render d))) ∧
    (∀ x y z, c.join (c.join x y) z = c.join x (c.join y z)) ∧
    (∀ es, c.operands (c.other.flat es) = [c.other.flat es]) ∧
    ∀ s : Select Expr Query, s.filter? = none →
      s.run (b.leaves.map .filter) = { s with filter? := some (b.build .and) } := by
  have flat := build_eq_flat c several
  refine ⟨flat, fun d => ?_, c.join_assoc, c.operands_other,
    fun s unfiltered => run_filters unfiltered several⟩
  rw [flat, c.render_flat]

/-- An empty conjunction, a disjunction and a conjunction of one, bracketed to the
    right. -/
def mixed : Bracketing :=
  .node (.leaf (.all [])) (.node (.leaf (.any [.raw "a", .raw "b"])) (.leaf (.all [.raw "c"])))

theorem build_flat_mixed :
    let s : Select Expr Query := .fromSource (.table (.ofText "t"))
    2 ≤ mixed.leaves.length ∧ s.filter? = none ∧
      mixed.build .and = .all [.any [.raw "a", .raw "b"], .raw "c"] ∧
      (∀ d, render d (mixed.build .and) =
        " AND ".intercalate [render d (Expr.any [.raw "a", .raw "b"]), render d (Expr.raw "c")]) ∧
      s.run (mixed.leaves.map .filter) = { s with filter? := some (mixed.build .and) } := by
  obtain ⟨flat, text, -, -, filters⟩ := build_flat .and mixed (by decide)
  exact ⟨by decide, rfl, flat, text, filters _ rfl⟩

end Bracketing
end SqlSelect
