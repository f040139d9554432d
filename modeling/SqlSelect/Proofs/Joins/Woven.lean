import SqlSelect.Proofs.Joins.Unmarked
import SqlSelect.Proofs.Parallel.Map
namespace SqlSelect

/-!
# Joins in a text

A text with joins is what it is without them, with the words of each join in front
of its relation.  So it tells which hints were left out, and in which order.
-/

/-- A join without the expressions and queries in it. -/
abbrev JoinShape := Join Unit Unit

variable {ε κ : Type}

namespace Join

open Phrase

def shape (j : Join ε κ) : JoinShape := j.map (fun _ => ()) fun _ => ()

theorem shape_map {α β : Type} (f : ε → α) (g : κ → β) (j : Join ε κ) :
    (j.map f g).shape = j.shape := by
  obtain ⟨source, kind, global, straight, apply, simple, hint?, on, columns, within?⟩ := j
  cases source <;> simp [shape, map, Relation.map, Call.map, Function.comp_def]

/-- The hint of a join that is written with another word in the place of the
    hint. -/
def suppressed? (j : Join ε κ) : Option SuppressedHint :=
  if !j.simple && (j.straight || j.apply) then
    j.hint?.map fun hint => ⟨hint, j.straight, j.apply⟩
  else none

theorem suppressedHints_hintTokens (j : Join ε κ) :
    j.hintTokens.suppressedHints =
      if j.straight || j.apply then
        (j.hint?.map fun hint => ⟨hint, j.straight, j.apply⟩).toList
      else [] := by
  unfold hintTokens
  split <;> cases j.hint? <;> rfl

theorem suppressedHints_head (j : Join ε κ) : j.head.suppressedHints = j.suppressed?.toList := by
  have flagged (flag : Bool) (k : Keyword) :
      (onlyIf flag (thenSpace (word k))).suppressedHints = [] := by
    cases flag <;> rfl
  have chosen {α : Type} (k : α → Keyword) (a? : Option α) :
      (optional (fun a => thenSpace (word (k a))) a?).suppressedHints = [] := by
    cases a? <;> rfl
  have keyword : (thenSpace (word j.keyword)).suppressedHints = [] := rfl
  cases simple : j.simple with
  | true => simp [head, suppressed?, simple, flagged]
  | false =>
      simp only [head, simple, Bool.false_eq_true, if_false, Tokens.suppressedHints_append, flagged,
        chosen, keyword, suppressedHints_hintTokens, List.nil_append, List.append_nil]
      cases worded : j.straight || j.apply <;> simp [suppressed?, simple, worded]

end Join

theorem Tokens.Unmarked.suppressedHints {ts : Tokens} (own : ts.Unmarked) :
    ts.suppressedHints = [] := by
  refine List.filterMap_eq_nil_iff.mpr fun t member => ?_
  have plain := own t member
  cases t with
  | omitted hint => cases plain
  | _ => rfl

/-- The joins stand in the text in their order, each with its words in front of its
    relation, and nothing between them is a mark of a join. -/
inductive Woven : Tokens → List JoinShape → Prop where
  | rest {ts : Tokens} (own : ts.Unmarked) : Woven ts []
  | join {gap ts : Tokens} {js : List JoinShape} (own : gap.Unmarked) (j : JoinShape)
      (later : Woven ts js) : Woven (gap ++ j.head ++ ts) (j :: js)

def Part.joins : Part (List JoinShape) (List JoinShape) → List JoinShape
  | .expr js | .query js => js

/-- The joins in the parts of a clause, in the order of the parts. -/
def partJoins (ps : List (Part (List JoinShape) (List JoinShape))) : List JoinShape :=
  ps.flatMap Part.joins

@[simp] theorem partJoins_append (ps qs : List (Part (List JoinShape) (List JoinShape))) :
    partJoins (ps ++ qs) = partJoins ps ++ partJoins qs :=
  List.flatMap_append

namespace Woven

variable {x x' y : Tokens} {js ks : List JoinShape}

theorem after (own : x.Unmarked) (rest : Woven y js) : Woven (x ++ y) js := by
  cases rest with
  | rest later => exact .rest (unmarked_append.mpr ⟨own, later⟩)
  | join gap j later =>
      rw [← List.append_assoc, ← List.append_assoc]
      exact .join (unmarked_append.mpr ⟨own, gap⟩) j later

theorem append (first : Woven x js) (rest : Woven y ks) : Woven (x ++ y) (js ++ ks) := by
  induction first with
  | rest own => exact rest.after own
  | join own j _ ih =>
      rw [List.append_assoc]
      exact .join own j ih

theorem before (first : Woven x js) (own : y.Unmarked) : Woven (x ++ y) js := by
  simpa using first.append (.rest own)

theorem flatMap {α : Type} {f : α → Tokens} {h : α → List JoinShape}
    (each : ∀ a, Woven (f a) (h a)) (as : List α) : Woven (as.flatMap f) (as.flatMap h) := by
  induction as with
  | nil => exact .rest unmarked_nil
  | cons a rest ih => exact (each a).append ih

theorem spaced (rest : Woven x js) : Woven (Phrase.spaced x) js :=
  .after (x := [.space]) (by simp) rest

theorem parens (inside : Woven x js) : Woven (Phrase.parens x) js :=
  .after (x := [.symbol .openParen]) (by simp)
    (inside.before (by simp))

theorem joined {α : Type} {separator : Tokens} {f : α → Tokens} {h : α → List JoinShape}
    (own : separator.Unmarked) (each : ∀ a, Woven (f a) (h a)) (as : List α) :
    Woven (Phrase.joined separator (as.map f)) (as.flatMap h) := by
  cases as with
  | nil => exact .rest unmarked_nil
  | cons a rest =>
      simp only [List.map_cons, Phrase.joined, List.flatMap_map]
      exact (each a).append (.flatMap (fun b => (each b).after own) rest)

/-- A clause is woven from its parts. -/
theorem parallel {f : ε → Tokens} {g : κ → Tokens} {h : ε → List JoinShape}
    {k : κ → List JoinShape} {ps : List (Part ε κ)}
    {qs : List (Part (List JoinShape) (List JoinShape))}
    (texts : Parallel f Phrase.silent g Phrase.silent x x' ps)
    (written : ps.map (Part.map h k) = qs) (own : x'.Unmarked)
    (exprs : ∀ e, Woven (f e) (h e)) (queries : ∀ q, Woven (g q) (k q)) :
    Woven x (partJoins qs) := by
  subst written
  induction texts with
  | own ts => exact .rest own
  | part p =>
      rw [List.map_singleton, partJoins, List.flatMap_singleton]
      cases p with
      | expr e => exact exprs e
      | query q => exact (queries q).parens
  | append _ _ first rest =>
      rw [unmarked_append] at own
      rw [List.map_append, partJoins_append]
      exact (first own.1).append (rest own.2)

/-- The hints left out of a text are those of its joins, in their order. -/
theorem suppressedHints (woven : Woven x js) :
    x.suppressedHints = js.filterMap Join.suppressed? := by
  induction woven with
  | rest own => exact own.suppressedHints
  | join own j _ ih =>
      rw [Tokens.suppressedHints_append, Tokens.suppressedHints_append, own.suppressedHints,
        j.suppressedHints_head, ih, List.nil_append]
      cases suppressed : j.suppressed? <;> simp [suppressed]

end Woven
end SqlSelect
