import SqlSelect.Proofs.Layout.Tree
import SqlSelect.Proofs.Reader.Lexemes
namespace SqlSelect

open Phrase

variable {α : Type}

namespace Tokens.Legible

theorem word {k : Keyword} (known : k ∈ Keyword.ofExpressions) : Legible (word k) :=
  .token (.keyword known) rfl

theorem mark {s : Symbol} (known : s ∈ Symbol.ofExpressions)
    (plain : (Token.symbol s).isOperator = false) : Legible (mark s) :=
  .token (.symbol known) plain

theorem space : Legible [.space] := .token .space rfl

theorem spaced {x : Tokens} (legible : Legible x) : Legible (spaced x) := .append space legible

theorem thenSpace {x : Tokens} (legible : Legible x) : Legible (thenSpace x) :=
  .append legible space

theorem onlyIf {flag : Bool} {x : Tokens} (legible : Legible x) : Legible (onlyIf flag x) := by
  cases flag with
  | false => exact .nothing
  | true => exact legible

theorem parens {x : Tokens} (legible : Legible x) : Legible (parens x) :=
  .append (mark (s := .openParen) (by decide) rfl)
    (.append legible (mark (s := .closeParen) (by decide) rfl))

theorem flatMap {f : α → Tokens} {xs : List α} (each : ∀ x ∈ xs, Legible (f x)) :
    Legible (xs.flatMap f) := by
  induction xs with
  | nil => exact .nothing
  | cons x rest ih =>
      rw [List.flatMap_cons]
      exact .append (each x List.mem_cons_self)
        (ih fun y member => each y (List.mem_cons_of_mem x member))

theorem joined {separator : Tokens} {xs : List Tokens} (between : Legible separator)
    (each : ∀ x ∈ xs, Legible x) : Legible (joined separator xs) := by
  cases xs with
  | nil => exact .nothing
  | cons x rest =>
      exact .append (each x List.mem_cons_self)
        (.flatMap fun y member => .append between (each y (List.mem_cons_of_mem x member)))

theorem dotted {xs : List Tokens} (each : ∀ x ∈ xs, Legible x) :
    Legible (Phrase.joined [.symbol .dot] xs) :=
  .joined (mark (s := .dot) (by decide) rfl) each

theorem commas {xs : List Tokens} (each : ∀ x ∈ xs, Legible x) : Legible (commas xs) :=
  .joined (.append (mark (s := .comma) (by decide) rfl) space) each

end Tokens.Legible

theorem Literal.legible {value : Literal} (exact : ∀ x, value ≠ .double x) :
    value.tokens.Legible := by
  cases value with
  | null => exact .word (by decide)
  | bool value =>
      cases value with
      | false => exact .word (by decide)
      | true => exact .word (by decide)
  | int value => exact .token (.int value) rfl
  | double value => exact absurd rfl (exact value)
  | string contents => exact .token (.string contents) rfl

theorem Expr.Grouped.legible {e : Expr} (grouped : e.Grouped) : e.tokens.Legible := by
  induction grouped with
  | column named =>
      rw [tokens_column]
      exact .dotted (List.forall_mem_map.mpr fun part _ => .token (.ident part) rfl)
  | literal exact =>
      rw [tokens_literal]
      exact Literal.legible exact
  | call named words _ args =>
      rw [tokens_call]
      refine .append (.dotted (List.forall_mem_map.mpr fun part member => ?_)) (.parens ?_)
      · exact .token (.bare (words part member)) rfl
      · exact .append (.onlyIf (.thenSpace (.word (by decide))))
          (.commas (List.forall_mem_map.mpr args))
  | nested _ inside =>
      rw [tokens_nested]
      exact .parens inside
  | inList _ _ _ tested listed =>
      rw [tokens_inList]
      have members := Tokens.Legible.commas (List.forall_mem_map.mpr listed)
      exact .append (.append (.append tested (.onlyIf (.spaced (.word (by decide)))))
        (.spaced (.word (by decide)))) (.spaced (.parens members))
  | isNull _ _ tested =>
      rw [tokens_isNull]
      exact .append (.append (.append tested (.spaced (.word (by decide))))
        (.onlyIf (.spaced (.word (by decide))))) (.spaced (.word (by decide)))
  | not _ _ negated =>
      rw [tokens_not]
      exact .append (.word (by decide)) (.spaced negated)
  | all _ _ _ each =>
      rw [tokens_all]
      exact .joined (.spaced (.thenSpace (.word (by decide)))) (List.forall_mem_map.mpr each)
  | any _ _ _ each =>
      rw [tokens_any]
      exact .joined (.spaced (.thenSpace (.word (by decide)))) (List.forall_mem_map.mpr each)
  | binary _ _ _ _ first second =>
      have between (t : Token) (x y : Tokens) :
          x ++ Phrase.spaced [t] ++ Phrase.spaced y = x ++ ([.space, t, .space] ++ y) := by
        simp [Phrase.spaced]
      rw [tokens_binary, between]
      exact .append first (.append (.operator _) second)

namespace Tokens

@[simp] theorem lexemes_nil : lexemes [] = [] := rfl

@[simp] theorem lexemes_append (x y : Tokens) : lexemes (x ++ y) = lexemes x ++ lexemes y :=
  List.filterMap_append

@[simp] theorem lexemes_keyword (k : Keyword) (rest : Tokens) :
    lexemes (.keyword k :: rest) = .keyword k :: lexemes rest := rfl

@[simp] theorem lexemes_operator (op : Operator) : lexemes [op.token] = [op.token] := by
  cases op <;> rfl

@[simp] theorem lexemes_spaced (x : Tokens) : lexemes (spaced x) = lexemes x := rfl

@[simp] theorem lexemes_thenSpace (x : Tokens) : lexemes (thenSpace x) = lexemes x := by
  simp [thenSpace, lexemes, Token.lexeme?]

@[simp] theorem lexemes_onlyIf (flag : Bool) (x : Tokens) :
    lexemes (onlyIf flag x) = onlyIf flag (lexemes x) := by
  cases flag <;> rfl

@[simp] theorem lexemes_parens (x : Tokens) : lexemes (parens x) = parens (lexemes x) := by
  simp [parens, lexemes, Token.lexeme?]

theorem lexemes_flatMap (f : α → Tokens) (xs : List α) :
    lexemes (xs.flatMap f) = xs.flatMap fun x => lexemes (f x) :=
  List.filterMap_flatMap ..

theorem lexemes_joined (separator : Tokens) (xs : List Tokens) :
    lexemes (joined separator xs) = joined (lexemes separator) (xs.map lexemes) := by
  cases xs with
  | nil => rfl
  | cons x rest =>
      simp [joined, lexemes_flatMap, List.flatMap_map]

theorem lexemes_dotted {f : String → Token} (kept : ∀ part, (f part).lexeme? = some (f part))
    (parts : List String) :
    lexemes (joined [.symbol .dot] (parts.map fun part => [f part])) =
      joined [.symbol .dot] (parts.map fun part => [f part]) := by
  have each (part : String) : lexemes [f part] = [f part] := by simp [lexemes, kept]
  rw [lexemes_joined, List.map_map]
  exact congrArg _ (List.map_congr_left fun part _ => each part)

theorem joined_parts (written : String → Token) (part : String) (more : List String) :
    joined [.symbol .dot] ((part :: more).map fun part => [written part]) =
      written part :: more.flatMap fun part => [.symbol .dot, written part] := by
  simp [joined, List.flatMap_map]

end Tokens

namespace Expr

def lexemes (e : Expr) : Tokens := e.tokens.lexemes

theorem lexemes_joined (separator : Tokens) (es : List Expr) :
    Tokens.lexemes (joined separator (es.map tokens)) =
      joined separator.lexemes (es.map lexemes) := by
  rw [Tokens.lexemes_joined, List.map_map]
  rfl

theorem lexemes_commas (es : List Expr) :
    Tokens.lexemes (commas (es.map tokens)) = joined [.symbol .comma] (es.map lexemes) :=
  lexemes_joined _ es

theorem joined_lexemes (t : Token) (e : Expr) (es : List Expr) :
    joined [t] ((e :: es).map lexemes) =
      e.lexemes ++ es.flatMap fun e => t :: e.lexemes := by
  simp [joined, List.flatMap_map]

theorem lexemes_all (operands : List Expr) :
    (all operands).lexemes = joined (word .AND) (operands.map lexemes) := by
  rw [lexemes, tokens_all, lexemes_joined]
  rfl

theorem lexemes_any (operands : List Expr) :
    (any operands).lexemes = joined (word .OR) (operands.map lexemes) := by
  rw [lexemes, tokens_any, lexemes_joined]
  rfl

theorem lexemes_binary (op : Operator) (left right : Expr) :
    (binary op left right).lexemes = left.lexemes ++ op.token :: right.lexemes := by
  simp [lexemes, tokens_binary]

theorem lexemes_column (name : Name) :
    (column name).lexemes = joined [.symbol .dot] (name.parts.map fun part => [.ident part]) :=
  Tokens.lexemes_dotted (fun _ => rfl) name.parts

theorem lexemes_call (c : Call Expr) :
    (call c).lexemes =
      joined [.symbol .dot] (c.function.parts.map fun part => [.bare part]) ++
        parens (onlyIf c.distinct (word .DISTINCT) ++
          joined [.symbol .comma] (c.args.map lexemes)) := by
  have function : Tokens.lexemes (joined [.symbol .dot] (c.function.parts.map fun part =>
      [.bare part])) = joined [.symbol .dot] (c.function.parts.map fun part => [.bare part]) :=
    Tokens.lexemes_dotted (fun _ => rfl) c.function.parts
  simp [lexemes, tokens_call, Call.tokens, Call.map, function, lexemes_commas, word]

theorem lexemes_inList (subject : Expr) (members : List Expr) (negated : Bool) :
    (inList subject members negated).lexemes =
      subject.lexemes ++ (onlyIf negated (word .NOT) ++ .keyword .IN ::
        parens (joined [.symbol .comma] (members.map lexemes))) := by
  simp [lexemes, tokens_inList, lexemes_commas, word]

theorem lexemes_isNull (subject : Expr) (negated : Bool) :
    (isNull subject negated).lexemes =
      subject.lexemes ++ .keyword .IS :: (onlyIf negated (word .NOT) ++ word .NULL) := by
  simp [lexemes, tokens_isNull, word]

theorem lexemes_nested (inner : Expr) : (nested inner).lexemes = parens inner.lexemes := by
  simp [lexemes, tokens_nested]

theorem lexemes_not (operand : Expr) :
    (not operand).lexemes = .keyword .NOT :: operand.lexemes := by
  simp [lexemes, tokens_not, word]

/-- The text of a grouped expression is cut into its lexemes. -/
theorem Grouped.lex?_render {d : Dialect} {mark : Char} (quoting : d.mark? = some mark) {e : Expr}
    (grouped : e.Grouped) : lex? mark (render d e).toList = some e.lexemes := by
  have shaped : Shaped False false .piece e.tokens := e.shaped False.elim
  have visible : e.tokens.visible = e.tokens := List.filter_eq_self.mpr fun t member => by
    rw [grouped.legible.omitted?_eq_none t member]
    rfl
  have neighbours := shaped.bounded.neighbours
  rw [visible] at neighbours
  rw [render, String.toList_ofList]
  exact grouped.legible.lex?_chars quoting neighbours

end Expr
end SqlSelect
