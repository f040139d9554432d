import SqlSelect.Edit.Select
import SqlSelect.Proofs.Condition.Conjunction
import SqlSelect.Proofs.Reader.Grammar
import SqlSelect.Proofs.Tree.Bodies
namespace SqlSelect

open Condition Phrase

variable {d : Dialect}

theorem Phrase.joined_append {separator : Tokens} {xs ys : List Tokens} (first : xs ≠ [])
    (rest : ys ≠ []) :
    joined separator (xs ++ ys) = joined separator xs ++ (separator ++ joined separator ys) := by
  cases xs with
  | nil => contradiction
  | cons x xs =>
      cases ys with
      | nil => contradiction
      | cons y ys => simp [joined, List.flatMap_append]

namespace Expr

theorem tokens_conjuncts (e : Expr) :
    e.tokens = joined (spaced (thenSpace (word .AND))) (e.conjuncts.map tokens) := by
  cases e with
  | all operands => exact tokens_all operands
  | _ => exact (joined_singleton ..).symm

theorem conjuncts_and_ne_nil {left : Expr} (present : left.conjuncts ≠ []) (right : Expr) :
    (left.and right).conjuncts ≠ [] := by
  rw [conjuncts_and]
  exact fun none => present (List.append_eq_nil_iff.mp none).1

theorem tokens_and {left right : Expr} (first : left.conjuncts ≠ []) (rest : right.conjuncts ≠ []) :
    (left.and right).tokens =
      left.tokens ++ (spaced (thenSpace (word .AND)) ++ right.tokens) := by
  rw [and_eq, tokens_all, List.map_append, joined_append, ← tokens_conjuncts, ← tokens_conjuncts]
  · exact fun none => first (List.map_eq_nil_iff.mp none)
  · exact fun none => rest (List.map_eq_nil_iff.mp none)

theorem marks_and {left right : Expr} (first : left.conjuncts ≠ []) (rest : right.conjuncts ≠ []) :
    Mark.list (render d (left.and right)) =
      Mark.list (render d left) ++ .and :: Mark.list (render d right) := by
  have text : (render d (left.and right)).toList =
      (render d left).toList ++ ' ' :: (['A', 'N', 'D'] ++ ' ' :: (render d right).toList) := by
    simp only [render, Written.tokens, String.toList_ofList, tokens_and first rest,
      Tokens.chars_append]
    rfl
  rw [Mark.list, text, Mark.listFrom_space, Mark.listFrom_space]
  rfl

theorem marks_raw (text : String) : Mark.list (render d (.raw text : Expr)) = Mark.list text := by
  have same : (render d (.raw text : Expr)).toList = text.toList := by
    rw [render, String.toList_ofList]
    exact List.append_nil _
  rw [Mark.list, same, Mark.list]

theorem marks_nested (inner : Expr) :
    Mark.list (render d inner.nested) =
      .opening :: (Mark.list (render d inner) ++ [.closing]) := by
  have text : (render d inner.nested).toList = '(' :: ((render d inner).toList ++ [')']) := by
    simp only [render, Written.tokens, String.toList_ofList, tokens_nested]
    simp [parens, Token.chars, Symbol.chars, Symbol.text]
  have closing (word : List Char) :
      Mark.listFrom word [')'] = Mark.ending word ++ [.closing] := by
    simp [Mark.listFrom, Mark.ending]
  have opening : Mark.list (render d inner.nested) =
      .opening :: Mark.listFrom [] ((render d inner).toList ++ [')']) := by
    rw [Mark.list, text]
    rfl
  rw [opening, Mark.listFrom_append closing]
  rfl

end Expr

/-- A word that is none of `NOT`, `AND` and `OR`. -/
structure Condition.Atom where
  word : String
  single : Mark.list word = [.atom word]

/-- How a condition is built from words that are true or false. -/
inductive Condition where
  | atom (atom : Condition.Atom)
  | and (left right : Condition)
  | or (left right : Condition)
  | not (operand : Condition)
  | nested (inner : Condition)

namespace Condition

def expr : Condition → Expr
  | .atom a => .raw a.word
  | .and left right => left.expr.and right.expr
  | .or left right => left.expr.or right.expr
  | .not operand => .not operand.expr
  | .nested inner => .nested inner.expr

def holds (v : String → Bool) : Condition → Bool
  | .atom a => v a.word
  | .and left right => left.holds v && right.holds v
  | .or left right => left.holds v || right.holds v
  | .not operand => !operand.holds v
  | .nested inner => inner.holds v

/-- The text of the condition by itself is read as what the condition means. -/
def Clear (d : Dialect) (c : Condition) : Prop :=
  ∀ v, reading v (render d c.expr) = some (c.holds v)

/-- Every `OR` of the text stands in parentheses. -/
def Closed (d : Dialect) (c : Condition) : Prop :=
  .or ∉ Mark.outside 0 (Mark.list (render d c.expr))

theorem clear_atom (a : Atom) : (atom a).Clear d := by
  intro v
  rw [reading, expr, Expr.marks_raw, a.single]
  simp [value?, run, step, Level.conjoin, Level.value, State.value?, holds]

theorem closed_atom (a : Atom) : (atom a).Closed d := by
  rw [Closed, expr, Expr.marks_raw, a.single]
  simp [Mark.outside]

theorem Clear.nested {c : Condition} (clear : c.Clear d) : c.nested.Clear d := by
  intro v
  rw [reading, expr, Expr.marks_nested]
  exact value?_enclosed (clear v)

/-- In parentheses any condition can be one of several. -/
theorem Clear.closed_nested {c : Condition} (clear : c.Clear d) : c.nested.Closed d := by
  rw [Closed, expr, Expr.marks_nested, outside_enclosed (clear fun _ => true)]
  simp

theorem conjuncts_ne_nil (c : Condition) : c.expr.conjuncts ≠ [] := by
  induction c with
  | and left right leftIh _ => exact Expr.conjuncts_and_ne_nil leftIh right.expr
  | or left right =>
      rw [expr, Expr.or_eq]
      exact List.cons_ne_nil _ _
  | _ => exact List.cons_ne_nil _ _

/-- The conditions one after another, as a filter takes them up. -/
def conjoined (e : Expr) (rest : List Condition) : Expr := rest.foldl (fun e c => e.and c.expr) e

/-- A filter that is read as a conjunct takes up further conditions as conjuncts. -/
theorem conjunct_conjoined {v : String → Bool} {e : Expr} {b : Bool} (present : e.conjuncts ≠ [])
    (first : Conjunct v (Mark.list (render d e)) b) {rest : List Condition}
    (further : ∀ c ∈ rest, Conjunct v (Mark.list (render d c.expr)) (c.holds v)) :
    Conjunct v (Mark.list (render d (conjoined e rest))) (b && rest.all (·.holds v)) := by
  induction rest generalizing e b with
  | nil => simpa [conjoined] using first
  | cons c rest ih =>
      have both : (e.and c.expr).conjuncts ≠ [] := Expr.conjuncts_and_ne_nil present c.expr
      have next : Conjunct v (Mark.list (render d (e.and c.expr))) (b && c.holds v) := by
        rw [Expr.marks_and present c.conjuncts_ne_nil]
        exact first.and (further c List.mem_cons_self)
      rw [List.all_cons, ← Bool.and_assoc]
      exact ih both next fun c' member => further c' (List.mem_cons_of_mem c member)

/-- The condition `a OR b`. -/
def eitherOf : Condition := .or (.atom ⟨"a", by decide⟩) (.atom ⟨"b", by decide⟩)

def oneMore : Condition := .atom ⟨"c", by decide⟩

theorem clear_eitherOf : eitherOf.Clear .generic := by
  intro v
  have marks : Mark.list (render .generic eitherOf.expr) = [.atom "a", .or, .atom "b"] := by decide
  rw [reading, marks]
  simp [value?, run, step, Level.conjoin, Level.alternative, Level.value, State.value?, holds,
    eitherOf]

end Condition

/-- A text in which one phrase has a fixed place. -/
inductive Phrase.Around {α : Type} (phrase : α → Tokens) : (α → Tokens) → Prop where
  | here : Around phrase phrase
  | after (x : Tokens) {text : α → Tokens} (rest : Around phrase text) :
      Around phrase fun a => x ++ text a
  | before (y : Tokens) {text : α → Tokens} (first : Around phrase text) :
      Around phrase fun a => text a ++ y

theorem Phrase.Around.exists_append {α : Type} {phrase text : α → Tokens}
    (around : Around phrase text) :
    ∃ before after, ∀ a, text a = before ++ (phrase a ++ after) := by
  induction around with
  | here => exact ⟨[], [], fun a => (List.append_nil _).symm⟩
  | after x _ ih =>
      obtain ⟨before, after, place⟩ := ih
      exact ⟨x ++ before, after, fun a => by simp only [place, List.append_assoc]⟩
  | before y _ ih =>
      obtain ⟨before, after, place⟩ := ih
      exact ⟨before, after ++ y, fun a => by simp only [place, List.append_assoc]⟩

namespace Select

/-- The filter of a select is written in a place of its own, after `WHERE`. -/
theorem around_filter (s : Select Tokens Tokens) :
    Around (clause .WHERE) fun e? => ({ s with filter? := e? } : Select Tokens Tokens).tokens := by
  cases s.source? with
  | none =>
      simp only [tokens, main, head, tail]
      exact .before _ (.before _ (.after _ .here))
  | some source =>
      have inClause : Around (clause .WHERE) fun e? =>
          ({ s with filter? := e? } : Select Tokens Tokens).fromClause source := by
        simp only [fromClause]
        exact .before _ (.before _ (.before _ (.before _ (.before _ (.before _ (.before _
          (.after _ .here)))))))
      simp only [tokens, main, head, tail]
      exact .before _ (.before _ (.after _ inClause))

theorem run_conditions {κ : Type} {s : Select Expr κ} (unfiltered : s.filter? = none)
    (first : Condition) (rest : List Condition) :
    s.run ((first :: rest).map fun c : Condition => .filter c.expr) =
      { s with filter? := some (conjoined first.expr rest) } := by
  have run := run_filters_of_none unfiltered first.expr (rest.map Condition.expr)
  rwa [← List.map_cons, List.map_map, List.foldl_map] at run

theorem render_filter {s : Select Expr Query} (unfiltered : s.filter? = none) :
    ∃ before after, render d s = before ++ after ∧ ∀ e : Expr,
      render d ({ s with filter? := some e } : Select Expr Query) =
        before ++ " WHERE " ++ render d e ++ after := by
  obtain ⟨before, after, place⟩ := (around_filter (s.map Expr.tokens Query.tokens)).exists_append
  have written (e? : Option Expr) :
      Written.tokens ({ s with filter? := e? } : Select Expr Query) =
        before ++ (clause .WHERE (e?.map Expr.tokens) ++ after) := place (e?.map Expr.tokens)
  have bare : ({ s with filter? := none } : Select Expr Query) = s := by rw [← unfiltered]
  have clauseText (e : Expr) : (clause .WHERE (some e.tokens)).chars d =
      " WHERE ".toList ++ (render d e).toList := by
    simp [clause, Phrase.optional, word, spaced, Token.chars, Keyword.chars, Keyword.text, render,
      Written.tokens]
  refine ⟨String.ofList (before.chars d), String.ofList (after.chars d), ?_, fun e => ?_⟩
  · have text := written none
    rw [bare] at text
    rw [render, text]
    simp [clause, Phrase.optional]
  · have text := written (some e)
    rw [render, text, Option.map_some, Tokens.chars_append, Tokens.chars_append, clauseText]
    apply String.ext
    simp only [String.toList_append, String.toList_ofList, List.append_assoc]

/-- Conditions that are added to a select without a filter, each read as what it
    means, are read together as their conjunction, unless there are several and an
    `OR` of one of them stands outside parentheses. -/
theorem filters_conjoin {s : Select Expr Query} (unfiltered : s.filter? = none)
    {conditions : List Condition} (present : conditions ≠ [])
    (clear : ∀ c ∈ conditions, c.Clear d)
    (closed : 2 ≤ conditions.length → ∀ c ∈ conditions, c.Closed d) :
    ∃ filter before after,
      (s.run (conditions.map fun c => .filter c.expr)).filter? = some filter ∧
      render d s = before ++ after ∧
      render d (s.run (conditions.map fun c => .filter c.expr)) =
        before ++ " WHERE " ++ render d filter ++ after ∧
      ∀ v, reading v (render d filter) = some (conditions.all (·.holds v)) := by
  cases conditions with
  | nil => contradiction
  | cons first rest =>
      obtain ⟨before, after, without, filtered⟩ := render_filter (d := d) unfiltered
      refine ⟨conjoined first.expr rest, before, after, ?_, without, ?_, fun v => ?_⟩
      · rw [run_conditions unfiltered]
      · rw [run_conditions unfiltered, filtered]
      · cases rest with
        | nil =>
            rw [List.all_cons, List.all_nil, Bool.and_true]
            exact clear first List.mem_cons_self v
        | cons second rest =>
            have several : 2 ≤ (first :: second :: rest).length := by
              simp only [List.length_cons]
              omega
            have conjunct : ∀ c ∈ first :: second :: rest,
                Conjunct v (Mark.list (render d c.expr)) (c.holds v) := fun c member =>
              .of_value? (clear c member v) (closed several c member)
            rw [List.all_cons]
            exact (conjunct_conjoined first.conjuncts_ne_nil (conjunct first List.mem_cons_self)
              fun c member => conjunct c (List.mem_cons_of_mem first member)).value?

/-- A disjunction in parentheses takes part in the conjunction as a whole. -/
theorem filters_conjoin_nested :
    let s : Select Expr Query := fromSource (.table (.ofText "t"))
    let conditions : List Condition := [.nested eitherOf, oneMore]
    s.filter? = none ∧ conditions ≠ [] ∧ (∀ c ∈ conditions, c.Clear .generic) ∧
      (2 ≤ conditions.length → ∀ c ∈ conditions, c.Closed .generic) ∧
      ∃ filter before after,
        (s.run (conditions.map fun c => .filter c.expr)).filter? = some filter ∧
        render .generic s = before ++ after ∧
        render .generic (s.run (conditions.map fun c => .filter c.expr)) =
          before ++ " WHERE " ++ render .generic filter ++ after ∧
        ∀ v, reading v (render .generic filter) = some (conditions.all (·.holds v)) := by
  have clear : ∀ c ∈ [.nested eitherOf, oneMore], c.Clear .generic := by
    simp only [List.forall_mem_cons]
    exact ⟨clear_eitherOf.nested, clear_atom _, nofun⟩
  have closed : ∀ c ∈ [.nested eitherOf, oneMore], c.Closed .generic := by
    simp only [List.forall_mem_cons]
    exact ⟨clear_eitherOf.closed_nested, closed_atom _, nofun⟩
  exact ⟨rfl, nofun, clear, fun _ => closed,
    filters_conjoin rfl (List.cons_ne_nil _ _) clear fun _ => closed⟩

/-- A disjunction that is not in parentheses is torn apart by the condition after
    it: `a OR b AND c` is true when `a` alone is. -/
theorem filters_torn :
    (fromSource (.table (.ofText "t")) : Select Expr Query).filter? = none ∧
      (∀ c ∈ [eitherOf, oneMore], c.Clear .generic) ∧
      ∃ filter,
        ((fromSource (.table (.ofText "t")) : Select Expr Query).run
          ([eitherOf, oneMore].map fun c => .filter c.expr)).filter? = some filter ∧
        reading (· = "a") (render .generic filter) = some true ∧
        [eitherOf, oneMore].all (·.holds (· = "a")) = false := by
  refine ⟨rfl, ?_, _, rfl, ?_, ?_⟩
  · simp only [List.forall_mem_cons]
    exact ⟨clear_eitherOf, clear_atom _, nofun⟩
  · decide
  · decide

end Select
end SqlSelect
