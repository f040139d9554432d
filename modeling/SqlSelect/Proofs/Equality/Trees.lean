import SqlSelect.Proofs.Equality.Agreement
import SqlSelect.Proofs.Equality.Zeros
import SqlSelect.Proofs.Reader.Grammar
import SqlSelect.Proofs.Tree.Inert
import SqlSelect.Tree.Equality
namespace SqlSelect

open Phrase Writing

theorem Phrase.unsigned_joined (separator : Tokens) (pieces : List Tokens) :
    (joined separator pieces).unsigned =
      (joined separator (pieces.map Tokens.unsigned)).unsigned := by
  have texts : Parallel id Tokens.unsigned (fun _ : Unit => []) (fun _ => [])
      (joined separator (pieces.map id)) (joined separator (pieces.map Tokens.unsigned))
      (pieces.flatMap fun piece => [.expr piece]) :=
    .joined fun piece _ => .expr piece
  rw [List.map_id] at texts
  exact Tokens.unsigned_eq_of_parallel texts

/-- What a test says about a text: it is that of every tree that passes the test,
    but for the signs of zeros. -/
def Reflects (text : τ → Tokens) (test : τ → Bool) (ts : Tokens) : Prop :=
  ∀ t, test t = true → ts.unsigned = (text t).unsigned

def BodyReflects (test : Body → Bool) (parts : Parts) : Prop :=
  Reflects (·.parts.main) test parts.main ∧ Reflects (·.parts.tail) test parts.tail

theorem Literal.unsigned_tokens {value value' : Literal} (same : (value == value') = true) :
    value.tokens.unsigned = value'.tokens.unsigned := by
  change value.eq value' = true at same
  cases value <;> cases value' <;> simp only [Literal.eq, beq_iff_eq] at same
  case null.null => rfl
  case bool.bool | int.int | string.string => rw [same]
  case double.double x y =>
    exact congrArg (fun z => [Token.double z]) (Binary64.unsigned_eq_of_numericEq same)
  all_goals contradiction

namespace Comparison

section

variable {ε τ : Type} {expr : ε → τ → Bool} {f : ε → Tokens} {text : τ → Tokens}
variable (parts : ∀ e, Reflects text (expr e) (f e))
include parts

theorem unsigned_joined {separator : Tokens} {es : List ε} {ts : List τ}
    (agreed : agreeList expr es ts = true) :
    (joined separator (es.map f)).unsigned = (joined separator (ts.map text)).unsigned := by
  have pieces : es.map (fun e => (f e).unsigned) = ts.map fun t => (text t).unsigned :=
    agreeList_map_eq parts agreed
  rw [Phrase.unsigned_joined, Phrase.unsigned_joined separator (ts.map text), List.map_map,
    List.map_map]
  exact congrArg (fun pieces => (joined separator pieces).unsigned) pieces

theorem unsigned_call {c : Call ε} {c' : Call τ} (agreed : c.agree expr c' = true) :
    (c.map f).tokens.unsigned = (c'.map text).tokens.unsigned := by
  have clause : (c.map fun e => (f e).unsigned) = c'.map fun t => (text t).unsigned :=
    Call.map_eq_of_agree parts agreed
  have left : (c.map f).tokens.unsigned = (c.map fun e => (f e).unsigned).tokens.unsigned :=
    Tokens.unsigned_eq_of_parallel (g := fun _ : Unit => []) c.parallel
  have right : (c'.map text).tokens.unsigned = (c'.map fun t => (text t).unsigned).tokens.unsigned :=
    Tokens.unsigned_eq_of_parallel (g := fun _ : Unit => []) c'.parallel
  rw [left, clause, ← right]

variable {χ υ : Type} {query : χ → υ → Bool} {g : χ → Tokens} {inner : υ → Tokens}
variable (queries : ∀ q, Reflects inner (query q) (g q))
include queries

theorem unsigned_join {j : Join ε χ} {j' : Join τ υ} (agreed : j.agree expr query j' = true) :
    (j.map f g).tokens.unsigned = (j'.map text inner).tokens.unsigned := by
  have clause : (j.map (fun e => (f e).unsigned) fun q => (g q).unsigned) =
      j'.map (fun t => (text t).unsigned) fun q => (inner q).unsigned :=
    Join.map_eq_of_agree queries parts agreed
  rw [Tokens.unsigned_eq_of_parallel j.parallel, clause,
    ← Tokens.unsigned_eq_of_parallel j'.parallel]

theorem unsigned_select {s : Select ε χ} {s' : Select τ υ}
    (agreed : s.agree expr query s' = true) :
    (s.map f g).main.unsigned = (s'.map text inner).main.unsigned ∧
      (s.map f g).tail.unsigned = (s'.map text inner).tail.unsigned := by
  have clause : (s.map (fun e => (f e).unsigned) fun q => (g q).unsigned) =
      s'.map (fun t => (text t).unsigned) fun q => (inner q).unsigned :=
    Select.map_eq_of_agree queries parts agreed
  constructor
  · rw [Tokens.unsigned_eq_of_parallel s.parallel_main, clause,
      ← Tokens.unsigned_eq_of_parallel s'.parallel_main]
  · exact congrArg (fun s => s.tail.unsigned) clause

theorem unsigned_envelope {x : Envelope ε χ} {x' : Envelope τ υ}
    (agreed : x.agree expr query x' = true) :
    (x.map f g).leading.unsigned = (x'.map text inner).leading.unsigned ∧
      (x.map f g).trailing.unsigned = (x'.map text inner).trailing.unsigned := by
  have clause : (x.map (fun e => (f e).unsigned) fun q => (g q).unsigned) =
      x'.map (fun t => (text t).unsigned) fun q => (inner q).unsigned :=
    Envelope.map_eq_of_agree queries parts agreed
  constructor
  · rw [Tokens.unsigned_eq_of_parallel x.parallel_leading, clause,
      ← Tokens.unsigned_eq_of_parallel x'.parallel_leading]
  · rw [Tokens.unsigned_eq_of_parallel x.parallel_trailing, clause,
      ← Tokens.unsigned_eq_of_parallel x'.parallel_trailing]

end

theorem reflects :
    Interpretation.Related interpretation Writing.interpretation (Reflects Expr.tokens)
      BodyReflects (Reflects Query.tokens) where
  all f f' parts operands := by
    intro e agreed
    cases e with
    | all operands' =>
        simp only [interpretation, agreeList_map] at agreed
        rw [Expr.tokens_all]
        exact unsigned_joined parts agreed
    | _ => exact absurd agreed Bool.false_ne_true
  any f f' parts operands := by
    intro e agreed
    cases e with
    | any operands' =>
        simp only [interpretation, agreeList_map] at agreed
        rw [Expr.tokens_any]
        exact unsigned_joined parts agreed
    | _ => exact absurd agreed Bool.false_ne_true
  binary op left left' right right' leftReflects rightReflects := by
    intro e agreed
    cases e with
    | binary op' x y =>
        simp only [interpretation, Bool.and_eq_true, beq_iff_eq] at agreed
        obtain ⟨⟨rfl, first⟩, second⟩ := agreed
        simp only [Writing.interpretation, Expr.tokens_binary, spaced, Tokens.unsigned_append,
          Tokens.unsigned_cons, leftReflects x first, rightReflects y second]
    | _ => exact absurd agreed Bool.false_ne_true
  column name := by
    intro e agreed
    cases e with
    | column name' =>
        obtain rfl : name = name' := by simpa [interpretation] using agreed
        rfl
    | _ => exact absurd agreed Bool.false_ne_true
  call f f' parts c := by
    intro e agreed
    cases e with
    | call c' =>
        simp only [interpretation, Call.agree_map] at agreed
        rw [Expr.tokens_call]
        exact unsigned_call parts agreed
    | _ => exact absurd agreed Bool.false_ne_true
  inList f f' parts subject members negated := by
    intro e agreed
    cases e with
    | inList subject' members' negated' =>
        simp only [interpretation, agreeList_map, Bool.and_eq_true, beq_iff_eq] at agreed
        obtain ⟨⟨tested, listed⟩, rfl⟩ := agreed
        have members : (joined [.symbol .comma, .space] (members.map f')).unsigned =
            (joined [.symbol .comma, .space] (members'.map Expr.tokens)).unsigned :=
          unsigned_joined parts listed
        simp only [Writing.interpretation, Expr.tokens_inList, spaced, Phrase.parens, commas,
          Tokens.unsigned_append, Tokens.unsigned_cons, parts subject subject' tested, members]
    | _ => exact absurd agreed Bool.false_ne_true
  isNull negated subject subject' subjectReflects := by
    intro e agreed
    cases e with
    | isNull inner negated' =>
        simp only [interpretation, Bool.and_eq_true, beq_iff_eq] at agreed
        obtain ⟨tested, rfl⟩ := agreed
        simp only [Writing.interpretation, Expr.tokens_isNull, Tokens.unsigned_append,
          subjectReflects inner tested]
    | _ => exact absurd agreed Bool.false_ne_true
  nested innerReflects := by
    intro e agreed
    cases e with
    | nested inner =>
        simp only [Writing.interpretation, Expr.tokens_nested, Phrase.parens, Tokens.unsigned_append,
          Tokens.unsigned_cons, innerReflects inner agreed]
    | _ => exact absurd agreed Bool.false_ne_true
  not operandReflects := by
    intro e agreed
    cases e with
    | not operand =>
        simp only [Writing.interpretation, Expr.tokens_not, spaced, Tokens.unsigned_append,
          Tokens.unsigned_cons, operandReflects operand agreed]
    | _ => exact absurd agreed Bool.false_ne_true
  raw text := by
    intro e agreed
    cases e with
    | raw text' =>
        obtain rfl : text = text' := by simpa [interpretation] using agreed
        rfl
    | _ => exact absurd agreed Bool.false_ne_true
  subquery queryReflects := by
    intro e agreed
    cases e with
    | subquery q =>
        change (Phrase.parens _).unsigned = (Phrase.parens q.tokens).unsigned
        simp only [Phrase.parens, Tokens.unsigned_append, Tokens.unsigned_cons,
          queryReflects q agreed]
    | _ => exact absurd agreed Bool.false_ne_true
  literal value := by
    intro e agreed
    cases e with
    | literal value' => exact Literal.unsigned_tokens agreed
    | _ => exact absurd agreed Bool.false_ne_true
  select f f' parts g g' queries s := by
    constructor
    all_goals
      intro b agreed
      cases b with
      | select s' =>
          simp only [interpretation, Select.agree_map] at agreed
          obtain ⟨main, tail⟩ := unsigned_select parts queries agreed
          simp only [Body.parts_select]
          first
          | exact main
          | exact tail
      | _ => exact absurd agreed Bool.false_ne_true
  combined op all ε f f' parts operands := by
    constructor
    · intro b agreed
      cases b with
      | combined op' all' operands' =>
          simp only [interpretation, agreeList_map, Bool.and_eq_true, beq_iff_eq] at agreed
          obtain ⟨⟨rfl, rfl⟩, listed⟩ := agreed
          have whole (b : ε) : Reflects Body.tokens (f b) (f' b).whole := by
            intro b' tested
            obtain ⟨main, tail⟩ := parts b
            simp only [Parts.whole, Body.tokens, Tokens.unsigned_append, main b' tested,
              tail b' tested]
          simp only [Body.parts_combined, Writing.interpretation, List.map_map]
          exact unsigned_joined whole listed
      | _ => exact absurd agreed Bool.false_ne_true
    · intro b agreed
      cases b with
      | combined op' all' operands' => rfl
      | _ => exact absurd agreed Bool.false_ne_true
  enclosed queryReflects := by
    constructor
    · intro b agreed
      cases b with
      | enclosed q =>
          change (Phrase.parens _).unsigned = (Phrase.parens q.tokens).unsigned
          simp only [Phrase.parens, Tokens.unsigned_append, Tokens.unsigned_cons,
            queryReflects q agreed]
      | _ => exact absurd agreed Bool.false_ne_true
    · intro b agreed
      cases b with
      | enclosed q => rfl
      | _ => exact absurd agreed Bool.false_ne_true
  query f f' parts g g' queries envelope body body' bodyReflects := by
    intro q agreed
    obtain ⟨envelope', b⟩ := q
    simp only [interpretation, Envelope.agree_map, Bool.and_eq_true] at agreed
    obtain ⟨leading, trailing⟩ := unsigned_envelope parts queries agreed.1
    obtain ⟨main, tail⟩ := bodyReflects
    simp only [Writing.interpretation, Query.tokens_mk, Tokens.unsigned_append, leading, trailing,
      main b agreed.2, tail b agreed.2]

end Comparison

theorem Expr.reflects (e : Expr) : Reflects Expr.tokens (e == ·) e.tokens :=
  Comparison.reflects.ofExpr e

theorem Query.reflects (q : Query) : Reflects Query.tokens (q == ·) q.tokens :=
  Comparison.reflects.ofQuery q

theorem Join.reflects (j : Join Expr Query) :
    Reflects Written.tokens (j == ·) (Written.tokens j) :=
  fun _ => Comparison.unsigned_join Expr.reflects Query.reflects

theorem Select.reflects (s : Select Expr Query) :
    Reflects Written.tokens (s == ·) (Written.tokens s) := by
  intro s' same
  have ⟨main, tail⟩ := Comparison.unsigned_select Expr.reflects Query.reflects same
  have written (s : Select Expr Query) : Written.tokens s =
      (s.map Expr.tokens Query.tokens).main ++ (s.map Expr.tokens Query.tokens).tail := rfl
  rw [written, written, Tokens.unsigned_append, Tokens.unsigned_append, main, tail]

namespace Tree

/-- Trees of one sort are equal as trees of that sort. -/
def eq : Tree → Tree → Bool
  | .query a, .query b => a == b
  | .select a, .select b => a == b
  | .join a, .join b => a == b
  | .expr a, .expr b => a == b
  | _, _ => false

instance : BEq Tree := ⟨eq⟩

theorem unsigned_tokens_of_beq {a b : Tree} (same : (a == b) = true) :
    a.tokens.unsigned = b.tokens.unsigned := by
  change a.eq b = true at same
  cases a <;> cases b <;> simp only [eq] at same
  case query.query => exact Query.reflects _ _ same
  case select.select => exact Select.reflects _ _ same
  case join.join => exact Join.reflects _ _ same
  case expr.expr => exact Expr.reflects _ _ same
  all_goals contradiction

/-- Equal trees are written alike but for the signs of zeros, and have the same
    text exactly when these are the same too. -/
theorem render_eq_iff_of_beq {a b : Tree} (same : (a == b) = true) :
    a.tokens.unsigned = b.tokens.unsigned ∧
      ∀ d : Dialect, (render d a = render d b ↔ a.tokens.zeroSigns = b.tokens.zeroSigns) ∧
        (a.tokens.zeroSigns = [] → render d a = render d b) := by
  have alike := unsigned_tokens_of_beq same
  refine ⟨alike, fun d => ?_⟩
  have texts : render d a = render d b ↔ a.tokens.zeroSigns = b.tokens.zeroSigns :=
    String.ofList_inj.trans (Tokens.chars_eq_iff_zeroSigns alike)
  refine ⟨texts, fun none => texts.mpr ?_⟩
  have count := Tokens.length_zeroSigns alike
  rw [none, List.length_nil, eq_comm, List.length_eq_zero_iff] at count
  rw [none, count]

/-- The condition that a number is zero, with the zero of either sign. -/
def isZero (bits : UInt64) : Tree :=
  .select (.filtered (.table (.ofText "t"))
    (.binary .eq (.column (.ofText "x")) (.literal (.double ⟨bits⟩))))

theorem render_eq_iff_of_isZero :
    let positive := isZero 0
    let negative := isZero 0x8000000000000000
    (positive == negative) = true ∧
      (render .mysql positive = render .mysql negative ↔ [false] = [true]) :=
  ⟨rfl, ((render_eq_iff_of_beq rfl).2 .mysql).1⟩

/-- The zeros are equal as numbers, and no dialect writes them alike. -/
theorem zeros_written_apart :
    let positive : Tree := .expr (.literal (.double ⟨0⟩))
    let negative : Tree := .expr (.literal (.double ⟨0x8000000000000000⟩))
    (positive == negative) = true ∧
      ∀ d, render d positive = "0" ∧ render d negative = "-0" :=
  ⟨rfl, fun _ => ⟨rfl, rfl⟩⟩

end Tree
end SqlSelect
