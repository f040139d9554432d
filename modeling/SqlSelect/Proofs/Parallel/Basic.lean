import SqlSelect.Written
namespace SqlSelect

/-!
# Parallel texts

A clause is written from tokens of its own and from the texts of its parts.  Two
texts of one clause run in parallel when they differ in the texts of the parts
only.
-/

/-- A part of a clause: an expression, or a query, which is written in
    parentheses. -/
inductive Part (ε κ : Type) where
  | expr (e : ε)
  | query (q : κ)

def Part.tokens (f : ε → Tokens) (g : κ → Tokens) : Part ε κ → Tokens
  | .expr e => f e
  | .query q => Phrase.parens (g q)

/-- Two texts with the same tokens of their own, and the parts that both have in
    between, written by `f` and `g` in one and by `f'` and `g'` in the other. -/
inductive Parallel (f f' : ε → Tokens) (g g' : κ → Tokens) :
    Tokens → Tokens → List (Part ε κ) → Prop where
  | own (ts : Tokens) : Parallel f f' g g' ts ts []
  | part (p : Part ε κ) : Parallel f f' g g' (p.tokens f g) (p.tokens f' g') [p]
  | append {x x' y y' : Tokens} {ps qs : List (Part ε κ)} (first : Parallel f f' g g' x x' ps)
      (rest : Parallel f f' g g' y y' qs) : Parallel f f' g g' (x ++ y) (x' ++ y') (ps ++ qs)

namespace Parallel

variable {ε κ α β : Type} {f f' : ε → Tokens} {g g' : κ → Tokens}
variable {x x' y y' : Tokens} {ps : List (Part ε κ)}

theorem expr (e : ε) : Parallel f f' g g' (f e) (f' e) [.expr e] := .part (.expr e)

theorem query (q : κ) :
    Parallel f f' g g' (Phrase.parens (g q)) (Phrase.parens (g' q)) [.query q] :=
  .part (.query q)

theorem of_eq {qs : List (Part ε κ)} (texts : Parallel f f' g g' x x' qs) (same : ps = qs) :
    Parallel f f' g g' x x' ps := same ▸ texts

/-- Tokens of the clause after its parts. -/
theorem before (first : Parallel f f' g g' x x' ps) (rest : Parallel f f' g g' y y' []) :
    Parallel f f' g g' (x ++ y) (x' ++ y') ps :=
  .of_eq (.append first rest) (List.append_nil ps).symm

/-- Tokens of the clause before its parts. -/
theorem after (first : Parallel f f' g g' x x' []) (rest : Parallel f f' g g' y y' ps) :
    Parallel f f' g g' (x ++ y) (x' ++ y') ps :=
  .append first rest

theorem spaced (rest : Parallel f f' g g' x x' ps) :
    Parallel f f' g g' (Phrase.spaced x) (Phrase.spaced x') ps :=
  .after (.own [.space]) rest

theorem thenSpace (first : Parallel f f' g g' x x' ps) :
    Parallel f f' g g' (Phrase.thenSpace x) (Phrase.thenSpace x') ps :=
  .before first (.own [.space])

theorem parens (inside : Parallel f f' g g' x x' ps) :
    Parallel f f' g g' (Phrase.parens x) (Phrase.parens x') ps :=
  .after (.own [.symbol .openParen]) (.before inside (.own [.symbol .closeParen]))

theorem flatMap {h h' : α → Tokens} {parts : α → List (Part ε κ)} {as : List α}
    (each : ∀ a ∈ as, Parallel f f' g g' (h a) (h' a) (parts a)) :
    Parallel f f' g g' (as.flatMap h) (as.flatMap h') (as.flatMap parts) := by
  induction as with
  | nil => exact .own []
  | cons a rest ih =>
      exact .append (each a List.mem_cons_self)
        (ih fun b member => each b (List.mem_cons_of_mem a member))

theorem joined {separator : Tokens} {h h' : α → Tokens} {parts : α → List (Part ε κ)}
    {as : List α} (each : ∀ a ∈ as, Parallel f f' g g' (h a) (h' a) (parts a)) :
    Parallel f f' g g' (Phrase.joined separator (as.map h)) (Phrase.joined separator (as.map h'))
      (as.flatMap parts) := by
  cases as with
  | nil => exact .own []
  | cons a rest =>
      simp only [List.map_cons, Phrase.joined, List.flatMap_map]
      refine .append (each a List.mem_cons_self) (.flatMap fun b member => ?_)
      exact .after (.own separator) (each b (List.mem_cons_of_mem a member))

section

variable {h : β → Tokens} {k k' : α → β} {parts : α → List (Part ε κ)}

theorem optional (each : ∀ a, Parallel f f' g g' (h (k a)) (h (k' a)) (parts a)) (a? : Option α) :
    Parallel f f' g g' (Phrase.optional h (a?.map k)) (Phrase.optional h (a?.map k'))
      (a?.toList.flatMap parts) := by
  cases a? with
  | none => exact .own []
  | some a => exact .of_eq (each a) (List.flatMap_singleton parts a)

/-- A slot whose text has nothing to do with the parts in it. -/
theorem optionalOwn (same : ∀ a, h (k a) = h (k' a)) (a? : Option α) :
    Parallel f f' g g' (Phrase.optional h (a?.map k)) (Phrase.optional h (a?.map k')) [] := by
  cases a? with
  | none => exact .own []
  | some a =>
      simp only [Option.map_some, Phrase.optional, same a]
      exact .own _

theorem several (each : ∀ a, Parallel f f' g g' (h (k a)) (h (k' a)) (parts a)) (as : List α) :
    Parallel f f' g g' ((as.map k).flatMap h) ((as.map k').flatMap h) (as.flatMap parts) := by
  rw [List.flatMap_map, List.flatMap_map]
  exact .flatMap fun a _ => each a

theorem commas (each : ∀ a, Parallel f f' g g' (h (k a)) (h (k' a)) (parts a)) (as : List α) :
    Parallel f f' g g' (Phrase.commas ((as.map k).map h)) (Phrase.commas ((as.map k').map h))
      (as.flatMap parts) := by
  rw [List.map_map, List.map_map]
  exact .joined fun a _ => each a

theorem nonempty {h : List β → Tokens} {as : List α}
    (some : Parallel f f' g g' (h (as.map k)) (h (as.map k')) (as.flatMap parts)) :
    Parallel f f' g g' (Phrase.nonempty h (as.map k)) (Phrase.nonempty h (as.map k'))
      (as.flatMap parts) := by
  cases as with
  | nil => exact .own []
  | cons a rest => exact some

end

theorem exprs (es : List ε) :
    Parallel f f' g g' (Phrase.commas (es.map f)) (Phrase.commas (es.map f')) (es.map .expr) :=
  .of_eq (.joined fun e _ => .expr e) List.map_eq_flatMap

theorem chars_eq {d : Dialect} (texts : Parallel f f' g g' x x' ps)
    (exprs : ∀ e, (f e).chars d = (f' e).chars d) (queries : ∀ q, (g q).chars d = (g' q).chars d) :
    x.chars d = x'.chars d := by
  induction texts with
  | own ts => rfl
  | part p =>
      cases p with
      | expr e => exact exprs e
      | query q => simp [Part.tokens, Phrase.parens, queries q]
  | append _ _ first rest => rw [Tokens.chars_append, Tokens.chars_append, first, rest]

theorem map_eq {φ : Token → Token} (texts : Parallel f f' g g' x x' ps)
    (exprs : ∀ e, (f e).map φ = (f' e).map φ) (queries : ∀ q, (g q).map φ = (g' q).map φ) :
    x.map φ = x'.map φ := by
  induction texts with
  | own ts => rfl
  | part p =>
      cases p with
      | expr e => exact exprs e
      | query q => simp [Part.tokens, Phrase.parens, queries q]
  | append _ _ first rest => rw [List.map_append, List.map_append, first, rest]

theorem infix_of_mem (texts : Parallel f f' g g' x x' ps) {p : Part ε κ} (member : p ∈ ps) :
    p.tokens f g <:+: x := by
  induction texts with
  | own ts => cases member
  | part q =>
      obtain rfl := List.mem_singleton.mp member
      exact List.infix_rfl
  | append _ _ first rest =>
      rcases List.mem_append.mp member with member | member
      · exact (first member).trans (List.prefix_append ..).isInfix
      · exact (rest member).trans (List.suffix_append ..).isInfix

end Parallel
end SqlSelect
