import Mathlib.Logic.Relation
import SqlSelect.Proofs.Parallel.Select
import SqlSelect.Proofs.Reader.Grammar
import SqlSelect.Proofs.Statement
import SqlSelect.Proofs.Tree.Bodies
namespace SqlSelect

open Phrase

/-- A tree of any sort, as it stands inside another. -/
inductive Subtree where
  | expr (e : Expr)
  | body (b : Body)
  | query (q : Query)

def Part.subtree : Part Expr Query → Subtree
  | .expr e => .expr e
  | .query q => .query q

def Expr.written : Expr → List (Part Expr Query)
  | .all operands | .any operands => operands.map .expr
  | .binary _ left right => [.expr left, .expr right]
  | .column _ | .raw _ | .literal _ => []
  | .call c => c.written
  | .inList subject members _ => .expr subject :: members.map .expr
  | .isNull inner _ | .nested inner | .not inner => [.expr inner]
  | .subquery q => [.query q]

theorem Expr.parallel (e : Expr) :
    Parallel Expr.tokens Expr.tokens Query.tokens Query.tokens e.tokens e.tokens e.written := by
  cases e with
  | all operands =>
      rw [tokens_all]
      exact .of_eq (.joined fun e _ => .expr e) List.map_eq_flatMap
  | any operands =>
      rw [tokens_any]
      exact .of_eq (.joined fun e _ => .expr e) List.map_eq_flatMap
  | binary op left right => exact .append (.before (.expr left) (.own _)) (.spaced (.expr right))
  | column name | raw text | literal value => exact .own _
  | call c =>
      rw [tokens_call]
      exact c.parallel
  | inList subject members negated =>
      rw [tokens_inList]
      exact .append (.before (.before (.expr subject) (.own _)) (.own _))
        (.spaced (.parens (.exprs members)))
  | isNull inner negated =>
      exact .before (.before (.before (.expr inner) (.own _)) (.own _)) (.own _)
  | nested inner => exact .parens (.expr inner)
  | not inner => exact .after (.own _) (.spaced (.expr inner))
  | subquery q => exact .query q

namespace Subtree

def children : Subtree → List Subtree
  | .expr e => e.written.map Part.subtree
  | .body (.select s) => s.written.map Part.subtree
  | .body (.combined _ _ operands) => operands.map .body
  | .body (.enclosed q) => [.query q]
  | .query ⟨envelope, b⟩ =>
      envelope.leadingWritten.map Part.subtree ++ .body b ::
        envelope.trailingWritten.map Part.subtree

/-- The text of a tree, of a body without its last clauses. -/
def tokens : Subtree → Tokens
  | .expr e => e.tokens
  | .body b => b.parts.main
  | .query q => q.tokens

/-- The text of a tree inside another one. -/
def inside : Subtree → Tokens
  | .query q => parens q.tokens
  | t => t.tokens

theorem tokens_infix_inside (t : Subtree) : t.tokens <:+: t.inside := by
  cases t with
  | expr e | body b => exact List.infix_rfl
  | query q => exact ⟨[.symbol .openParen], [.symbol .closeParen], rfl⟩

theorem inside_part (p : Part Expr Query) : p.subtree.inside = p.tokens Expr.tokens Query.tokens := by
  cases p <;> rfl

/-- The parts that are written for a text stand in it. -/
theorem infix_of_written {ts ts' : Tokens} {ps : List (Part Expr Query)}
    (texts : Parallel Expr.tokens Expr.tokens Query.tokens Query.tokens ts ts' ps) {child : Subtree}
    (below : child ∈ ps.map Part.subtree) : child.inside <:+: ts := by
  obtain ⟨p, member, rfl⟩ := List.mem_map.mp below
  rw [inside_part]
  exact texts.infix_of_mem member

theorem infix_of_child {t child : Subtree} (below : child ∈ t.children) :
    child.inside <:+: t.tokens := by
  cases t with
  | expr e => exact infix_of_written e.parallel below
  | body b =>
      cases b with
      | select s =>
          rw [tokens, Body.parts_select]
          exact infix_of_written s.parallel_main below
      | combined op all operands =>
          obtain ⟨b, member, rfl⟩ := List.mem_map.mp below
          have texts : Parallel Body.tokens Body.tokens Query.tokens Query.tokens
              (joined (Writing.separator op all) (operands.map Body.tokens))
              (joined (Writing.separator op all) (operands.map Body.tokens))
              (operands.map .expr) :=
            .of_eq (.joined fun e _ => .expr e) List.map_eq_flatMap
          have whole : b.tokens <:+: joined (Writing.separator op all) (operands.map Body.tokens) :=
            texts.infix_of_mem (List.mem_map_of_mem member)
          rw [tokens, Body.parts_combined]
          exact (List.prefix_append ..).isInfix.trans whole
      | enclosed q =>
          obtain rfl := List.mem_singleton.mp below
          exact List.infix_rfl
  | query q =>
      obtain ⟨envelope, b⟩ := q
      rw [tokens, Query.tokens_mk]
      rcases List.mem_append.mp below with leading | below
      · have found := infix_of_written envelope.parallel_leading leading
        rw [List.append_assoc, List.append_assoc]
        exact found.trans (List.prefix_append ..).isInfix
      · rcases List.mem_cons.mp below with rfl | trailing
        · rw [List.append_assoc]
          exact List.infix_append ..
        · have found := infix_of_written envelope.parallel_trailing trailing
          exact found.trans (List.infix_append ..)

def Below : Subtree → Subtree → Prop := Relation.TransGen fun child t => child ∈ t.children

theorem Below.infix {t t' : Subtree} (below : t.Below t') : t.inside <:+: t'.tokens := by
  induction below with
  | single child => exact infix_of_child child
  | tail _ child ih => exact (ih.trans (tokens_infix_inside _)).trans (infix_of_child child)

end Subtree

namespace Statement

def root : Statement → Subtree
  | .query q => .query q
  | .select s => .body (.select s)

/-- The query stands somewhere inside the statement, with another one around it. -/
def Nests (s : Statement) (q : Query) : Prop := (Subtree.query q).Below s.root

theorem Nests.infix {s : Statement} {q : Query} (nested : s.Nests q) :
    parens q.tokens <:+: s.tokens := by
  have found := Subtree.Below.infix nested
  cases s with
  | query q => exact found
  | select s =>
      rw [root, Subtree.tokens, Body.parts_select] at found
      exact found.trans (List.prefix_append ..).isInfix

end Statement
end SqlSelect
