import SqlSelect.Proofs.Preference.Regrouping
import SqlSelect.Proofs.Reader.Written
namespace SqlSelect

open Phrase

variable {d : Dialect} {mark : Char}

/-- The reserved words of preferences. -/
def Keyword.ofPreferences : List Keyword :=
  [.PREFERRING, .HIGH, .LOW, .INVERSE, .PLUS, .PRIOR, .TO]

namespace Token

/-- A token that a preference over columns is written with. -/
inductive OfPreferences : Token → Prop where
  | keyword {k : Keyword} (known : k ∈ Keyword.ofPreferences) : OfPreferences (.keyword k)
  | ident (name : String) : OfPreferences (.ident name)
  | dot : OfPreferences (.symbol .dot)
  | opening : OfPreferences (.symbol .openParen)
  | closing : OfPreferences (.symbol .closeParen)
  | space : OfPreferences .space

/-- A reserved word as a mere word. -/
def spelled : Token → Token
  | .keyword k => .bare k.text
  | t => t

/-- A word as the reserved word of preferences that it may be. -/
def reserved : Token → Token
  | .bare part =>
      match Keyword.ofPreferences.find? (·.text = part) with
      | some k => .keyword k
      | none => .bare part
  | t => t

theorem chars_spelled (d : Dialect) (t : Token) : t.spelled.chars d = t.chars d := by
  cases t <;> rfl

theorem isContent_spelled (t : Token) : t.spelled.isContent = t.isContent := by
  cases t <;> rfl

namespace OfPreferences

variable {t : Token}

theorem readable (known : t.OfPreferences) : t.spelled.Readable ∧ t.spelled.isOperator = false := by
  cases known with
  | @keyword k known =>
      have word (c : Char) (member : c ∈ k.text.toList) : isNameChar c = true :=
        isNameChar_of_isWordChar (k.isWordChar_of_mem_chars member)
      have free : ∀ k ∈ Keyword.ofPreferences, ∀ k' ∈ Keyword.ofExpressions, k.text ≠ k'.text := by
        decide
      exact ⟨.bare ⟨k.chars_ne_nil, word, free k known⟩, rfl⟩
  | ident name => exact ⟨.ident name, rfl⟩
  | dot | opening | closing => exact ⟨.symbol (by decide), rfl⟩
  | space => exact ⟨.space, rfl⟩

theorem reserved_spelled (known : t.OfPreferences) :
    t.spelled.lexeme?.map reserved = t.lexeme? := by
  cases known with
  | @keyword k known =>
      have every : ∀ k ∈ Keyword.ofPreferences, reserved (.bare k.text) = .keyword k := by decide
      exact congrArg some (every k known)
  | ident name => rfl
  | dot | opening | closing | space => rfl

end OfPreferences
end Token

theorem Tokens.Legible.of_forall {ts : Tokens}
    (each : ∀ t ∈ ts, t.Readable ∧ t.isOperator = false) : ts.Legible := by
  induction ts with
  | nil => exact .nothing
  | cons t rest ih =>
      have first := each t List.mem_cons_self
      exact .append (.token first.1 first.2)
        (ih fun u member => each u (List.mem_cons_of_mem t member))

namespace Tokens

def spelled (ts : Tokens) : Tokens := ts.map Token.spelled

def reserved (ts : Tokens) : Tokens := ts.map Token.reserved

theorem chars_spelled (d : Dialect) (ts : Tokens) : ts.spelled.chars d = ts.chars d := by
  rw [spelled, chars, chars, List.flatMap_map]
  exact List.flatMap_congr fun t _ => t.chars_spelled d

/-- The text of tokens of preferences is cut into their lexemes, once words that
    are not quoted are taken for reserved words. -/
theorem lex?_chars_reserved (quoting : d.mark? = some mark) {ts : Tokens}
    (known : ∀ t ∈ ts, t.OfPreferences) (neighbours : ts.IsChain (Token.Neighbours False)) :
    (lex? mark (ts.chars d)).map reserved = some ts.lexemes := by
  have legible : ts.spelled.Legible :=
    .of_forall (List.forall_mem_map.mpr fun t member => (known t member).readable)
  have apart : ts.spelled.IsChain (Token.Neighbours False) := by
    rw [spelled, List.isChain_map]
    refine neighbours.imp fun t u beside => ?_
    rw [Token.Neighbours, Token.isContent_spelled, Token.isContent_spelled]
    exact ⟨beside.1, False.elim⟩
  have back : ts.spelled.lexemes.reserved = ts.lexemes := by
    rw [lexemes, spelled, reserved, List.filterMap_map, List.map_filterMap]
    exact List.filterMap_congr fun t member => (known t member).reserved_spelled
  rw [← chars_spelled, legible.lex?_chars quoting apart, Option.map_some, back]

end Tokens

namespace Preference

def values : Preference ε → List ε
  | .high value | .low value | .expr value => [value]
  | .inverse term => term.values
  | .plus left right | .priorTo left right => left.values ++ right.values

/-- The values of the term are columns whose names have parts. -/
def OverColumns (p : Preference Expr) : Prop :=
  ∀ e ∈ p.values, ∃ part more, e = .column ⟨part :: more⟩

theorem overColumns_join {j : Joint} {left right : Preference Expr}
    (columns : (join j left right).OverColumns) : left.OverColumns ∧ right.OverColumns := by
  cases j <;> exact List.forall_mem_append.mp columns

def Joint.tokens : Joint → Tokens
  | .plus => word .PLUS
  | .priorTo => words [.PRIOR, .TO]

theorem tokens_join (j : Joint) (left right : Preference Tokens) :
    (join j left right).tokens = left.tokens ++ spaced j.tokens ++ spaced right.tokens := by
  cases j <;> rfl

theorem map_join (f : ε → α) (j : Joint) (left right : Preference ε) :
    (join j left right).map f = join j (left.map f) (right.map f) := by
  cases j <;> rfl

def lexemes (p : Preference Expr) : Tokens := (p.map Expr.tokens).tokens.lexemes

theorem lexemes_join (j : Joint) (left right : Preference Expr) :
    (join j left right).lexemes = left.lexemes ++ (j.tokens.lexemes ++ right.lexemes) := by
  simp [lexemes, map_join, tokens_join]

theorem lexemes_high (value : Expr) :
    (high value).lexemes = .keyword .HIGH :: value.tokens.lexemes := rfl

theorem lexemes_low (value : Expr) :
    (low value).lexemes = .keyword .LOW :: value.tokens.lexemes := rfl

theorem lexemes_expr (value : Expr) : (expr value).lexemes = value.tokens.lexemes := rfl

theorem lexemes_inverse (term : Preference Expr) :
    (inverse term).lexemes = .keyword .INVERSE :: parens term.lexemes := by
  simp [lexemes, map, tokens, word]

theorem tokens_column (part : String) (more : List String) :
    (Expr.column ⟨part :: more⟩).tokens =
      .ident part :: more.flatMap fun part => [.symbol .dot, .ident part] := by
  rw [Expr.tokens_column, Name.tokens, Tokens.joined_parts]

theorem lexemes_column (part : String) (more : List String) :
    (Expr.column ⟨part :: more⟩).tokens.lexemes =
      .ident part :: more.flatMap fun part => [.symbol .dot, .ident part] := by
  rw [← Tokens.joined_parts, ← Expr.lexemes_column, Expr.lexemes]

theorem ofPreferences_column {e : Expr} (named : ∃ part more, e = .column ⟨part :: more⟩) :
    ∀ t ∈ e.tokens, t.OfPreferences := by
  obtain ⟨part, more, rfl⟩ := named
  rw [tokens_column]
  refine List.forall_mem_cons.mpr ⟨.ident part, List.forall_mem_flatMap.mpr fun part _ => ?_⟩
  simpa using ⟨.dot, .ident part⟩

theorem Joint.ofPreferences_tokens (j : Joint) : ∀ t ∈ j.tokens, t.OfPreferences := by
  have every : ∀ t ∈ j.tokens, t = .space ∨ ∃ k ∈ Keyword.ofPreferences, t = .keyword k := by
    cases j <;> decide
  intro t member
  obtain rfl | ⟨k, known, rfl⟩ := every t member
  · exact .space
  · exact .keyword known

theorem ofPreferences_join {j : Joint} {left right : Preference Expr}
    (first : ∀ t ∈ (left.map Expr.tokens).tokens, t.OfPreferences)
    (second : ∀ t ∈ (right.map Expr.tokens).tokens, t.OfPreferences) :
    ∀ t ∈ ((join j left right).map Expr.tokens).tokens, t.OfPreferences := by
  rw [map_join, tokens_join]
  simp only [spaced, List.forall_mem_append, List.forall_mem_cons]
  exact ⟨⟨first, .space, j.ofPreferences_tokens⟩, .space, second⟩

theorem ofPreferences_tokens {p : Preference Expr} (columns : p.OverColumns) :
    ∀ t ∈ (p.map Expr.tokens).tokens, t.OfPreferences := by
  have ranked {k : Keyword} (known : k ∈ Keyword.ofPreferences) {ts : Tokens}
      (each : ∀ t ∈ ts, t.OfPreferences) : ∀ t ∈ word k ++ spaced ts, t.OfPreferences := by
    simpa [word, spaced] using ⟨.keyword known, .space, each⟩
  induction p with
  | high value | low value =>
      exact ranked (by decide) (ofPreferences_column (columns value (.head _)))
  | expr value => exact ofPreferences_column (columns value (.head _))
  | inverse term ih =>
      refine ranked (by decide) (List.forall_mem_cons.mpr ⟨.opening, ?_⟩)
      exact List.forall_mem_append.mpr ⟨ih columns, by simpa using .closing⟩
  | plus left right first second =>
      have each := overColumns_join (j := .plus) columns
      exact ofPreferences_join (j := .plus) (first each.1) (second each.2)
  | priorTo left right first second =>
      have each := overColumns_join (j := .priorTo) columns
      exact ofPreferences_join (j := .priorTo) (first each.1) (second each.2)

theorem tokens_of (p : Preference Expr) :
    Written.tokens (Preferring.of p) = word .PREFERRING ++ spaced (p.map Expr.tokens).tokens :=
  List.append_nil _

/-- The text of a clause over columns is cut into its lexemes. -/
theorem lex?_render (quoting : d.mark? = some mark) {p : Preference Expr}
    (columns : p.OverColumns) :
    (lex? mark (render d (Preferring.of p)).toList).map Tokens.reserved =
      some (.keyword .PREFERRING :: p.lexemes) := by
  have known : ∀ t ∈ Written.tokens (Preferring.of p), t.OfPreferences := by
    rw [tokens_of]
    exact List.forall_mem_cons.mpr ⟨.keyword (by decide),
      List.forall_mem_cons.mpr ⟨.space, ofPreferences_tokens columns⟩⟩
  have shaped : Shaped False false .piece (Written.tokens (Preferring.of p)) :=
    Preferring.shaped (p := Expr.Filled) (fun e filled => e.shaped filled) False.elim
  have visible : (Written.tokens (Preferring.of p)).visible = Written.tokens (Preferring.of p) :=
    List.filter_eq_self.mpr fun t member => by cases known t member <;> rfl
  have neighbours := shaped.bounded.neighbours
  rw [visible] at neighbours
  rw [render, String.toList_ofList, Tokens.lex?_chars_reserved quoting known neighbours, tokens_of]
  rfl

end Preference
end SqlSelect
