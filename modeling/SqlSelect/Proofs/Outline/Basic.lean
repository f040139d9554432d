import SqlSelect.Literal
import SqlSelect.Operator
import SqlSelect.Table
namespace SqlSelect

/-!
# Outlines

The outline of a statement is what it says: its reserved words and what it takes
from the tree, in order.  Spaces and punctuation are left out.  Every clause has
an outline that is read off its slots, and it is the content of what is written.
-/

abbrev Outline := List Token

/-- Whether the token says something, other than where something else begins or
    ends. -/
def Token.isContent : Token → Bool
  | .symbol _ | .space | .omitted _ => false
  | _ => true

def Token.ident? : Token → Option String
  | .ident name => some name
  | _ => none

def Token.string? : Token → Option String
  | .string contents => some contents
  | _ => none

namespace Outline

def words (ks : List Keyword) : Outline := ks.map .keyword

/-- Reserved words that depend on a flag. -/
def flagged (flag : Bool) (ks : List Keyword) : Outline := if flag then words ks else []

/-- The word of the first flag that is on. -/
def firstOf (choices : List (Bool × Keyword)) : Outline :=
  match choices.find? (·.1) with
  | some (_, k) => words [k]
  | none => []

/-- A list behind reserved words, both left out when the list is empty. -/
def listed (ks : List Keyword) (items : List Outline) : Outline :=
  if items.isEmpty then [] else words ks ++ items.flatten

def names (ns : List String) : Outline := ns.map .ident

/-- The names that are quoted where the dialect quotes. -/
def identifiers (o : Outline) : List String := o.filterMap Token.ident?

def strings (o : Outline) : List String := o.filterMap Token.string?

end Outline

namespace Tokens

open Phrase

/-- What a token list says. -/
def content (ts : Tokens) : Outline := ts.filter Token.isContent

variable {α : Type}

@[simp] theorem content_nil : content [] = [] := rfl

@[simp] theorem content_append (left right : Tokens) :
    content (left ++ right) = content left ++ content right :=
  List.filter_append ..

theorem content_cons (t : Token) (rest : Tokens) :
    content (t :: rest) = if t.isContent then t :: content rest else content rest := by
  simp [content, List.filter_cons]

@[simp] theorem content_space (rest : Tokens) : content (.space :: rest) = content rest := rfl

@[simp] theorem content_symbol (s : Symbol) (rest : Tokens) :
    content (.symbol s :: rest) = content rest := rfl

@[simp] theorem content_omitted (h : SuppressedHint) (rest : Tokens) :
    content (.omitted h :: rest) = content rest := rfl

@[simp] theorem content_keyword (k : Keyword) (rest : Tokens) :
    content (.keyword k :: rest) = .keyword k :: content rest := rfl

@[simp] theorem content_ident (name : String) (rest : Tokens) :
    content (.ident name :: rest) = .ident name :: content rest := rfl

@[simp] theorem content_count (n : UInt64) (rest : Tokens) :
    content (.count n :: rest) = .count n :: content rest := rfl

@[simp] theorem content_verbatim (text : String) (rest : Tokens) :
    content (.verbatim text :: rest) = .verbatim text :: content rest := rfl

@[simp] theorem content_bare (part : String) (rest : Tokens) :
    content (.bare part :: rest) = .bare part :: content rest := rfl

@[simp] theorem content_word (k : Keyword) : content (word k) = Outline.words [k] := rfl

@[simp] theorem content_mark (s : Symbol) : content (mark s) = [] := rfl

@[simp] theorem content_words (ks : List Keyword) : content (words ks) = Outline.words ks := by
  induction ks with
  | nil => rfl
  | cons k rest ih =>
      cases rest with
      | nil => rfl
      | cons k' rest => simp only [words, content_keyword, content_space, ih]; rfl

@[simp] theorem content_spaced (x : Tokens) : content (spaced x) = content x := rfl

@[simp] theorem content_thenSpace (x : Tokens) : content (thenSpace x) = content x := by
  simp [thenSpace]

@[simp] theorem content_parens (x : Tokens) : content (parens x) = content x := by
  simp [parens]

@[simp] theorem content_onlyIf (flag : Bool) (x : Tokens) :
    content (onlyIf flag x) = if flag then content x else [] := by
  cases flag <;> rfl

@[simp] theorem content_optional (f : α → Tokens) (a : Option α) :
    content (optional f a) = a.elim [] (fun a => content (f a)) := by
  cases a <;> rfl

@[simp] theorem content_nonempty (f : List α → Tokens) (items : List α) :
    content (nonempty f items) = if items.isEmpty then [] else content (f items) := by
  rw [nonempty]
  split <;> rfl

theorem content_flatten (xs : List Tokens) : content xs.flatten = (xs.map content).flatten :=
  List.filter_flatten

@[simp] theorem content_flatMap (f : α → Tokens) (xs : List α) :
    content (xs.flatMap f) = (xs.map fun x => content (f x)).flatten := by
  rw [List.flatMap_def, content_flatten, List.map_map]
  rfl

theorem content_joined (separator : Tokens) (xs : List Tokens) :
    content (joined separator xs) = ((xs.map content).intersperse (content separator)).flatten := by
  cases xs with
  | nil => rfl
  | cons x rest =>
      induction rest generalizing x with
      | nil => simp
      | cons y rest ih =>
          have step : joined separator (x :: y :: rest) =
              x ++ (separator ++ joined separator (y :: rest)) := by
            simp [joined]
          rw [step, content_append, content_append, ih]
          simp

theorem content_joined_marks {separator : Tokens} (silent : content separator = [])
    (xs : List Tokens) : content (joined separator xs) = (xs.map content).flatten := by
  cases xs with
  | nil => rfl
  | cons x rest =>
      rw [joined, content_append, content_flatMap]
      simp [silent]

@[simp] theorem content_commas (xs : List Tokens) :
    content (commas xs) = (xs.map content).flatten :=
  content_joined_marks rfl xs

theorem filterMap_content {f : Token → Option α} (silent : ∀ t, t.isContent = false → f t = none)
    (ts : Tokens) : ts.content.filterMap f = ts.filterMap f := by
  induction ts with
  | nil => rfl
  | cons t rest ih =>
      rw [content_cons, List.filterMap_cons]
      cases spoken : t.isContent with
      | false => simp [silent t spoken, ih]
      | true => simp [List.filterMap_cons, ih]

theorem flatMap_content {f : Token → List α} (silent : ∀ t, t.isContent = false → f t = [])
    (ts : Tokens) : ts.content.flatMap f = ts.flatMap f := by
  induction ts with
  | nil => rfl
  | cons t rest ih =>
      rw [content_cons, List.flatMap_cons]
      cases spoken : t.isContent with
      | false => simp [silent t spoken, ih]
      | true => simp [ih]

theorem identifiers_content (ts : Tokens) :
    Outline.identifiers ts.content = ts.filterMap Token.ident? :=
  filterMap_content (fun t quiet => by cases t <;> first | rfl | cases quiet) ts

theorem strings_content (ts : Tokens) : Outline.strings ts.content = ts.filterMap Token.string? :=
  filterMap_content (fun t quiet => by cases t <;> first | rfl | cases quiet) ts

end Tokens
end SqlSelect
