import SqlSelect.Expr
import SqlSelect.Proofs.Text.Plain
import SqlSelect.Tree.Clauses
import SqlSelect.Tree.Tokens
namespace SqlSelect

/-!
# Grouped expressions

Operators are written without parentheses of their own.  An expression is
grouped when every operand binds as tightly as its place asks for, so that
parentheses stand wherever an operand would otherwise be torn apart.
-/

namespace Operator

/-- How tightly the operator binds. -/
def level : Operator → Nat
  | .eq | .ne | .ge | .gt | .le | .lt | .like => 3
  | .add | .sub | .concat => 4
  | .mul | .div => 5

/-- How tightly the left operand has to bind.  Sums and products continue to the
    left, and comparisons do not. -/
def leftLevel : Operator → Nat
  | .eq | .ne | .ge | .gt | .le | .lt | .like => 4
  | .add | .sub | .concat => 4
  | .mul | .div => 5

theorem level_le_leftLevel (op : Operator) : op.level ≤ op.leftLevel := by
  cases op <;> decide

end Operator

/-- The reserved words of expressions. -/
def Keyword.ofExpressions : List Keyword :=
  [.NOT, .AND, .OR, .IN, .IS, .LIKE, .NULL, .TRUE, .FALSE, .DISTINCT]

/-- A character that punctuation and operators are made of. -/
def Symbol.isMarkChar (c : Char) : Bool :=
  ['(', ')', ',', '.', '*', '=', '<', '>', '+', '-', '/', '|'].contains c

/-- A character that words are made of: every letter, digit and underscore, and
    whatever else neither quotes, nor separates, nor belongs to a mark. -/
def isNameChar (c : Char) : Bool := !isDelimiter c && !Symbol.isMarkChar c

/-- A part of a function name: a word that has no other meaning. -/
structure IsFunctionWord (part : String) : Prop where
  some : part.toList ≠ []
  word : ∀ c ∈ part.toList, isNameChar c = true
  free : ∀ k ∈ Keyword.ofExpressions, part ≠ k.text

theorem isNameChar_of_isWordChar {c : Char} (word : Keyword.isWordChar c = true) :
    isNameChar c = true := by
  have apart : ∀ mark, Keyword.isWordChar mark = false → c ≠ mark := by
    rintro _ notWord rfl
    exact Bool.false_ne_true (notWord.symm.trans word)
  have plain := isDelimiter_of_isPlain (isPlain_of_isWordChar word)
  simp [isNameChar, plain, Symbol.isMarkChar, apart '(' rfl, apart ')' rfl, apart ',' rfl,
    apart '.' rfl, apart '*' rfl, apart '=' rfl, apart '<' rfl, apart '>' rfl, apart '+' rfl,
    apart '-' rfl, apart '/' rfl, apart '|' rfl]

theorem isDelimiter_of_isNameChar {c : Char} (name : isNameChar c = true) :
    isDelimiter c = false := by
  simp only [isNameChar, Bool.and_eq_true, Bool.not_eq_true'] at name
  exact name.1

theorem Symbol.isNameChar_of_mem_chars {s : Symbol} {c : Char} (member : c ∈ s.chars) :
    isNameChar c = false := by
  have every : s.chars.all (fun c => !isNameChar c) = true := by cases s <;> decide
  simpa using List.all_eq_true.mp every c member

namespace Expr

/-- How tightly the expression holds together. -/
def level : Expr → Nat
  | .any _ => 0
  | .all _ => 1
  | .not _ => 2
  | .inList .. | .isNull .. => 3
  | .binary op _ _ => op.level
  | .column _ | .call _ | .nested _ | .raw _ | .subquery _ | .literal _ => 6

/-- Every operand binds as tightly as its place asks for.  What stands between
    parentheses or commas may bind as loosely as it likes. -/
inductive Grouped : Expr → Prop where
  | column {name : Name} (named : name.parts ≠ []) : Grouped (.column name)
  | literal {value : Literal} (exact : ∀ x, value ≠ .double x) : Grouped (.literal value)
  | call {c : Call Expr} (named : c.function.parts ≠ [])
      (words : ∀ part ∈ c.function.parts, IsFunctionWord part)
      (args : ∀ e ∈ c.args, Grouped e) : Grouped (.call c)
  | nested {inner : Expr} (inside : Grouped inner) : Grouped (.nested inner)
  | inList {subject : Expr} {members : List Expr} {negated : Bool} (tight : 4 ≤ subject.level)
      (tested : Grouped subject) (listed : ∀ e ∈ members, Grouped e) :
      Grouped (.inList subject members negated)
  | isNull {subject : Expr} {negated : Bool} (tight : 4 ≤ subject.level)
      (tested : Grouped subject) : Grouped (.isNull subject negated)
  | not {operand : Expr} (tight : 2 ≤ operand.level) (negated : Grouped operand) :
      Grouped (.not operand)
  | all {operands : List Expr} (several : 2 ≤ operands.length)
      (tight : ∀ e ∈ operands, 2 ≤ e.level) (each : ∀ e ∈ operands, Grouped e) :
      Grouped (.all operands)
  | any {operands : List Expr} (several : 2 ≤ operands.length)
      (tight : ∀ e ∈ operands, 1 ≤ e.level) (each : ∀ e ∈ operands, Grouped e) :
      Grouped (.any operands)
  | binary {op : Operator} {left right : Expr} (leftTight : op.leftLevel ≤ left.level)
      (rightTight : op.level + 1 ≤ right.level) (first : Grouped left) (second : Grouped right) :
      Grouped (.binary op left right)

open Phrase

theorem tokens_all (operands : List Expr) :
    (all operands).tokens = joined (spaced (thenSpace (word .AND))) (operands.map tokens) := by
  rw [tokens, Interpretation.ofExpr, Interpretation.ofExprs_eq]
  rfl

theorem tokens_any (operands : List Expr) :
    (any operands).tokens = joined (spaced (thenSpace (word .OR))) (operands.map tokens) := by
  rw [tokens, Interpretation.ofExpr, Interpretation.ofExprs_eq]
  rfl

theorem tokens_binary (op : Operator) (left right : Expr) :
    (binary op left right).tokens = left.tokens ++ spaced [op.token] ++ spaced right.tokens := rfl

theorem tokens_column (name : Name) : (column name).tokens = name.tokens := rfl

theorem tokens_call (c : Call Expr) : (call c).tokens = (c.map tokens).tokens := by
  rw [tokens, Interpretation.ofExpr, Interpretation.ofCall_eq]
  rfl

theorem tokens_inList (subject : Expr) (members : List Expr) (negated : Bool) :
    (inList subject members negated).tokens =
      subject.tokens ++ onlyIf negated (spaced (word .NOT)) ++ spaced (word .IN) ++
        spaced (parens (commas (members.map tokens))) := by
  rw [tokens, Interpretation.ofExpr, Interpretation.ofExprs_eq]
  rfl

theorem tokens_isNull (subject : Expr) (negated : Bool) :
    (isNull subject negated).tokens =
      subject.tokens ++ spaced (word .IS) ++ onlyIf negated (spaced (word .NOT)) ++
        spaced (word .NULL) := rfl

theorem tokens_nested (inner : Expr) : (nested inner).tokens = parens inner.tokens := rfl

theorem tokens_not (operand : Expr) : (not operand).tokens = word .NOT ++ spaced operand.tokens :=
  rfl

theorem tokens_literal (value : Literal) : (literal value).tokens = value.tokens := rfl

end Expr
end SqlSelect
