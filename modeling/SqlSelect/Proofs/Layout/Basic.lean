import Mathlib.Data.List.Chain
import SqlSelect.Proofs.Outline.Basic
namespace SqlSelect

/-!
# Layout

Every phrase of a statement is built by a few rules that say where its spaces
and its marks are.  What is laid out by the rules has no two words side by side,
and when no part of it is empty its spaces are single and inside.
-/

/-- Where a phrase stands: by itself, before another phrase, after one, or inside
    parentheses. -/
inductive Place where
  | piece | lead | trail | inner

def Symbol.isParen : Symbol → Bool
  | .openParen | .closeParen => true
  | _ => false

/-- Whether the token is the word of a set operation. -/
def Token.combines : Token → Bool
  | .keyword .UNION | .keyword .INTERSECT | .keyword .EXCEPT | .keyword .MINUS => true
  | _ => false

open Phrase

/-- The rules of layout.  With `full` no piece is empty; with `sets` the words of
    set operations can stand outside parentheses. -/
inductive Shaped (full : Prop) : Bool → Place → Tokens → Prop where
  | nothing {sets : Bool} (allowed : ¬full) : Shaped full sets .piece []
  | token {sets : Bool} {t : Token} (spoken : t.isContent = true)
      (plain : (sets || !t.combines) = true) : Shaped full sets .piece [t]
  | mark {sets : Bool} {s : Symbol} (single : s.isParen = false) :
      Shaped full sets .piece [.symbol s]
  | enclosed {sets : Bool} {x : Tokens} (inside : Shaped full true .inner x) :
      Shaped full sets .piece (parens x)
  | led {sets : Bool} {x y : Tokens} (first : Shaped full sets .lead x)
      (rest : Shaped full sets .piece y) : Shaped full sets .piece (x ++ y)
  | trailed {sets : Bool} {x y : Tokens} (first : Shaped full sets .piece x)
      (rest : Shaped full sets .trail y) : Shaped full sets .piece (x ++ y)
  | noLead {sets : Bool} : Shaped full sets .lead []
  | omitted {sets : Bool} {hint : SuppressedHint} : Shaped full sets .lead [.omitted hint]
  | before {sets : Bool} {x : Tokens} (first : Shaped full sets .piece x) :
      Shaped full sets .lead (thenSpace x)
  | leads {sets : Bool} {x y : Tokens} (first : Shaped full sets .lead x)
      (rest : Shaped full sets .lead y) : Shaped full sets .lead (x ++ y)
  | noTrail {sets : Bool} : Shaped full sets .trail []
  | after {sets : Bool} {x : Tokens} (rest : Shaped full sets .piece x) :
      Shaped full sets .trail (spaced x)
  | attached {sets : Bool} {x : Tokens} (inside : Shaped full true .inner x) :
      Shaped full sets .trail (parens x)
  | glued {sets : Bool} {s : Symbol} {x : Tokens} (single : s.isParen = false)
      (rest : Shaped full sets .piece x) : Shaped full sets .trail (.symbol s :: x)
  | marked {sets : Bool} {s : Symbol} {x : Tokens} (single : s.isParen = false)
      (rest : Shaped full sets .trail x) : Shaped full sets .trail (.symbol s :: x)
  | trails {sets : Bool} {x y : Tokens} (first : Shaped full sets .trail x)
      (rest : Shaped full sets .trail y) : Shaped full sets .trail (x ++ y)
  | innerPiece {sets : Bool} {x : Tokens} (inside : Shaped full sets .piece x) :
      Shaped full sets .inner x
  | innerLead {sets : Bool} {x : Tokens} (inside : Shaped full sets .lead x) :
      Shaped full sets .inner x

namespace Shaped

variable {full : Prop} {sets : Bool} {place : Place} {α : Type}

/-- What has no set operation outside parentheses is also laid out where one is
    allowed. -/
theorem weaken {ts : Tokens} (shaped : Shaped full sets place ts) :
    Shaped full true place ts := by
  induction shaped with
  | nothing allowed => exact .nothing allowed
  | token spoken _ => exact .token spoken rfl
  | mark single => exact .mark single
  | enclosed inside _ => exact .enclosed inside
  | led _ _ first rest => exact .led first rest
  | trailed _ _ first rest => exact .trailed first rest
  | noLead => exact .noLead
  | omitted => exact .omitted
  | before _ first => exact .before first
  | leads _ _ first rest => exact .leads first rest
  | noTrail => exact .noTrail
  | after _ rest => exact .after rest
  | attached inside _ => exact .attached inside
  | glued single _ rest => exact .glued single rest
  | marked single _ rest => exact .marked single rest
  | trails _ _ first rest => exact .trails first rest
  | innerPiece _ inside => exact .innerPiece inside
  | innerLead _ inside => exact .innerLead inside

theorem word {k : Keyword} (plain : (sets || !(Token.keyword k).combines) = true) :
    Shaped full sets .piece (word k) :=
  .token rfl plain

theorem words {ks : List Keyword} (some : ks ≠ [])
    (plain : (ks.all fun k => sets || !(Token.keyword k).combines) = true) :
    Shaped full sets .piece (words ks) := by
  induction ks with
  | nil => contradiction
  | cons k rest ih =>
      rw [List.all_cons, Bool.and_eq_true] at plain
      cases rest with
      | nil => exact .token rfl plain.1
      | cons k' rest =>
          exact .trailed (x := [.keyword k]) (.token rfl plain.1) (.after (ih nofun plain.2))

theorem optional {f : α → Tokens} {a : Option α} (absent : Shaped full sets place [])
    (present : ∀ x ∈ a, Shaped full sets place (f x)) :
    Shaped full sets place (optional f a) := by
  cases a with
  | none => exact absent
  | some x => exact present x rfl

theorem optionalMap {β : Type} {f : β → Tokens} {h : α → β} {a : Option α}
    (absent : Shaped full sets place [])
    (present : ∀ x ∈ a, Shaped full sets place (f (h x))) :
    Shaped full sets place (Phrase.optional f (a.map h)) := by
  cases a with
  | none => exact absent
  | some x => exact present x rfl

theorem onlyIf {flag : Bool} {ts : Tokens} (absent : Shaped full sets place [])
    (present : Shaped full sets place ts) : Shaped full sets place (onlyIf flag ts) := by
  cases flag with
  | false => exact absent
  | true => exact present

theorem nonempty {f : List α → Tokens} {xs : List α} (absent : Shaped full sets place [])
    (present : xs ≠ [] → Shaped full sets place (f xs)) :
    Shaped full sets place (nonempty f xs) := by
  cases xs with
  | nil => exact absent
  | cons x rest => exact present nofun

theorem flatMap {f : α → Tokens} {xs : List α}
    (each : ∀ x ∈ xs, Shaped full sets .trail (f x)) : Shaped full sets .trail (xs.flatMap f) := by
  induction xs with
  | nil => exact .noTrail
  | cons x rest ih =>
      rw [List.flatMap_cons]
      exact .trails (each x List.mem_cons_self)
        (ih fun y member => each y (List.mem_cons_of_mem x member))

theorem joined {separator : Tokens} {xs : List Tokens} (some : full → xs ≠ [])
    (each : ∀ x ∈ xs, Shaped full sets .piece x)
    (further : ∀ x, Shaped full sets .piece x → Shaped full sets .trail (separator ++ x)) :
    Shaped full sets .piece (joined separator xs) := by
  cases xs with
  | nil => exact .nothing fun isFull => some isFull rfl
  | cons x rest =>
      refine .trailed (each x List.mem_cons_self) (.flatMap fun y member => ?_)
      exact further y (each y (List.mem_cons_of_mem x member))

theorem commas {xs : List Tokens} (some : full → xs ≠ [])
    (each : ∀ x ∈ xs, Shaped full sets .piece x) : Shaped full sets .piece (commas xs) :=
  .joined some each fun _ piece => .marked rfl (.after piece)

theorem commasInside {xs : List Tokens} (each : ∀ x ∈ xs, Shaped full sets .piece x) :
    Shaped full sets .inner (Phrase.commas xs) := by
  cases xs with
  | nil => exact .innerLead .noLead
  | cons x rest => exact .innerPiece (.commas (fun _ => nofun) each)

theorem ledInside {x y : Tokens} (first : Shaped full sets .lead x)
    (rest : Shaped full sets .inner y) : Shaped full sets .inner (x ++ y) := by
  cases rest with
  | innerPiece rest => exact .innerPiece (.led first rest)
  | innerLead rest => exact .innerLead (.leads first rest)

theorem dotted {xs : List Tokens} (some : full → xs ≠ [])
    (each : ∀ x ∈ xs, Shaped full sets .piece x) :
    Shaped full sets .piece (Phrase.joined [.symbol .dot] xs) :=
  .joined some each fun _ piece => .glued rfl piece

end Shaped

/-- The tokens that have a place in the text. -/
def Tokens.visible (ts : Tokens) : Tokens := ts.filter fun t => t.omitted?.isNone

@[simp] theorem Tokens.visible_append (x y : Tokens) :
    visible (x ++ y) = visible x ++ visible y :=
  List.filter_append ..

theorem Tokens.visible_cons_symbol (s : Symbol) (rest : Tokens) :
    visible (.symbol s :: rest) = .symbol s :: visible rest := rfl

theorem Tokens.omitted?_of_mem_visible {ts : Tokens} {t : Token} (member : t ∈ ts.visible) :
    t.omitted? = none := by
  simpa using (List.mem_filter.mp member).2

/-- Omitted hints leave no trace in what they add nothing to. -/
theorem Tokens.flatMap_visible {α : Type} {f : Token → List α}
    (absent : ∀ hint, f (.omitted hint) = []) (ts : Tokens) :
    ts.visible.flatMap f = ts.flatMap f := by
  induction ts with
  | nil => rfl
  | cons t rest ih =>
      cases t with
      | omitted hint =>
          have hidden : visible (.omitted hint :: rest) = visible rest := rfl
          rw [hidden, ih, List.flatMap_cons, absent, List.nil_append]
      | _ => exact congrArg (f _ ++ ·) ih

/-- What two tokens side by side can be: not both words or values, and in a full
    layout not both spaces. -/
def Token.Neighbours (full : Prop) (t u : Token) : Prop :=
  ¬(t.isContent = true ∧ u.isContent = true) ∧ (full → ¬(t = .space ∧ u = .space))

/-- What a place asks of the tokens in it, and of the first and the last of them. -/
structure Place.Bounded (full : Prop) (place : Place) (ts : Tokens) : Prop where
  neighbours : ts.IsChain (Token.Neighbours full)
  /-- A piece of a full layout is there and has no space around it. -/
  filled : place = .piece → full → ts ≠ []
  starts : place ≠ .trail → full → ∀ t ∈ ts.head?, t ≠ .space
  ends : place = .piece ∨ place = .trail → full → ∀ t ∈ ts.getLast?, t ≠ .space
  /-- A lead keeps what comes after it apart, and a trail what comes before. -/
  leads : place = .lead → ∀ t ∈ ts.getLast?, t = .space
  trails : place = .trail → ∀ t ∈ ts.head?, t.isContent = false

namespace Token.Neighbours

variable {full : Prop} {t u : Token}

theorem of_space_left (notSpace : full → u ≠ .space) : Neighbours full .space u :=
  ⟨fun both => Bool.false_ne_true both.1, fun isFull both => notSpace isFull both.2⟩

theorem of_trail_right (notSpace : full → t ≠ .space) (apart : u.isContent = false) :
    Neighbours full t u :=
  ⟨fun both => by simp [apart] at both, fun isFull both => notSpace isFull both.1⟩

/-- After a word or a value comes neither. -/
theorem quiet_right (apart : Neighbours full t u) (spoken : t.isContent = true) :
    u.isContent = false :=
  Bool.eq_false_iff.mpr fun said => apart.1 ⟨spoken, said⟩

theorem of_symbol_left (s : Symbol) : Neighbours full (.symbol s) u :=
  ⟨fun both => Bool.false_ne_true both.1, fun _ both => nomatch both.1⟩

theorem of_symbol_right (s : Symbol) : Neighbours full t (.symbol s) :=
  ⟨fun both => Bool.false_ne_true both.2, fun _ both => nomatch both.2⟩

end Token.Neighbours

namespace Place.Bounded

variable {full : Prop} {place : Place} {x y : Tokens}

theorem mem_head?_append {t : Token} (first : t ∈ (x ++ y).head?) : t ∈ x.head? ∨ t ∈ y.head? := by
  cases x with
  | nil => exact .inr first
  | cons u rest => exact .inl first

theorem mem_getLast?_append {t : Token} (last : t ∈ (x ++ y).getLast?) :
    t ∈ x.getLast? ∨ t ∈ y.getLast? := by
  rw [List.getLast?_append] at last
  cases final : y.getLast? with
  | none => exact .inl (by simpa [final] using last)
  | some u => exact .inr (by simpa [final] using last)

theorem none (notPiece : place ≠ .piece) : place.Bounded full [] :=
  ⟨.nil, fun isPiece => absurd isPiece notPiece, nofun, nofun, nofun, nofun⟩

theorem nothing (allowed : ¬full) : Place.piece.Bounded full [] :=
  ⟨.nil, fun _ isFull => absurd isFull allowed, nofun, nofun, nofun, nofun⟩

theorem single {t : Token} (notSpace : t ≠ .space) : Place.piece.Bounded full [t] := by
  refine ⟨.singleton t, nofun, fun _ _ u first => ?_, fun _ _ u last => ?_, nofun, nofun⟩
  · obtain rfl : t = u := Option.some.inj first
    exact notSpace
  · obtain rfl : t = u := Option.some.inj last
    exact notSpace

theorem parens (inside : Place.inner.Bounded full x) (notLead : place ≠ .lead) :
    place.Bounded full (.symbol .openParen :: (x ++ [.symbol .closeParen])) where
  neighbours := by
    rw [List.isChain_cons, List.isChain_append]
    refine ⟨fun u _ => .of_symbol_left _, inside.neighbours, .singleton _, fun t _ u last => ?_⟩
    obtain rfl : Token.symbol .closeParen = u := Option.some.inj last
    exact .of_symbol_right _
  filled := nofun
  starts _ _ t first := by
    obtain rfl : Token.symbol .openParen = t := Option.some.inj first
    nofun
  ends _ _ t last := by
    rw [← List.cons_append, List.getLast?_concat] at last
    obtain rfl : Token.symbol .closeParen = t := Option.some.inj last
    nofun
  leads isLead := absurd isLead notLead
  trails _ t first := by
    obtain rfl : Token.symbol .openParen = t := Option.some.inj first
    rfl

theorem led (first : Place.lead.Bounded full x) (rest : Place.piece.Bounded full y) :
    Place.piece.Bounded full (x ++ y) where
  neighbours := by
    rw [List.isChain_append]
    refine ⟨first.neighbours, rest.neighbours, fun t last u head => ?_⟩
    obtain rfl := first.leads rfl t last
    exact .of_space_left fun isFull => rest.starts nofun isFull u head
  filled isPiece isFull empty := rest.filled isPiece isFull (List.append_eq_nil_iff.mp empty).2
  starts _ isFull t head := by
    rcases mem_head?_append head with head | head
    · exact first.starts nofun isFull t head
    · exact rest.starts nofun isFull t head
  ends isPiece isFull t last := by
    rw [List.getLast?_append_of_ne_nil x (rest.filled rfl isFull)] at last
    exact rest.ends isPiece isFull t last
  leads := nofun
  trails := nofun

theorem trailed (first : Place.piece.Bounded full x) (rest : Place.trail.Bounded full y) :
    Place.piece.Bounded full (x ++ y) where
  neighbours := by
    rw [List.isChain_append]
    exact ⟨first.neighbours, rest.neighbours, fun t last u head =>
      .of_trail_right (fun isFull => first.ends (.inl rfl) isFull t last) (rest.trails rfl u head)⟩
  filled isPiece isFull empty := first.filled isPiece isFull (List.append_eq_nil_iff.mp empty).1
  starts isPiece isFull t head := by
    rw [List.head?_append_of_ne_nil x (first.filled rfl isFull)] at head
    exact first.starts isPiece isFull t head
  ends _ isFull t last := by
    rcases mem_getLast?_append last with last | last
    · exact first.ends (.inl rfl) isFull t last
    · exact rest.ends (.inr rfl) isFull t last
  leads := nofun
  trails := nofun

theorem before (first : Place.piece.Bounded full x) : Place.lead.Bounded full (x ++ [.space]) where
  neighbours := by
    rw [List.isChain_append]
    refine ⟨first.neighbours, .singleton _, fun t last u head => ?_⟩
    obtain rfl : Token.space = u := Option.some.inj head
    exact .of_trail_right (fun isFull => first.ends (.inl rfl) isFull t last) rfl
  filled := nofun
  starts _ isFull t head := by
    rw [List.head?_append_of_ne_nil x (first.filled rfl isFull)] at head
    exact first.starts nofun isFull t head
  ends := nofun
  leads _ t last := by simpa using last.symm
  trails := nofun

theorem twoLeads (first : Place.lead.Bounded full x) (rest : Place.lead.Bounded full y) :
    Place.lead.Bounded full (x ++ y) where
  neighbours := by
    rw [List.isChain_append]
    refine ⟨first.neighbours, rest.neighbours, fun t last u head => ?_⟩
    obtain rfl := first.leads rfl t last
    exact .of_space_left fun isFull => rest.starts nofun isFull u head
  filled := nofun
  starts _ isFull t head := by
    rcases mem_head?_append head with head | head
    · exact first.starts nofun isFull t head
    · exact rest.starts nofun isFull t head
  ends := nofun
  leads _ t last := by
    rcases mem_getLast?_append last with last | last
    · exact first.leads rfl t last
    · exact rest.leads rfl t last
  trails := nofun

theorem after (rest : Place.piece.Bounded full x) : Place.trail.Bounded full (.space :: x) where
  neighbours := by
    rw [List.isChain_cons]
    exact ⟨fun u head => .of_space_left fun isFull => rest.starts nofun isFull u head,
      rest.neighbours⟩
  filled := nofun
  starts := nofun
  ends _ isFull t last := by
    rw [List.getLast?_cons_of_ne_nil (rest.filled rfl isFull)] at last
    exact rest.ends (.inl rfl) isFull t last
  leads := nofun
  trails _ t head := by
    obtain rfl : Token.space = t := Option.some.inj head
    rfl

theorem marked {s : Symbol} (rest : place.Bounded full x)
    (after : place = .piece ∨ place = .trail) :
    Place.trail.Bounded full (.symbol s :: x) where
  neighbours := by
    rw [List.isChain_cons]
    exact ⟨fun u _ => .of_symbol_left s, rest.neighbours⟩
  filled := nofun
  starts := nofun
  ends _ isFull t last := by
    rcases mem_getLast?_append (x := [.symbol s]) last with last | last
    · obtain rfl : Token.symbol s = t := Option.some.inj last
      nofun
    · exact rest.ends after isFull t last
  leads := nofun
  trails _ t head := by
    obtain rfl : Token.symbol s = t := Option.some.inj head
    rfl

theorem twoTrails (first : Place.trail.Bounded full x) (rest : Place.trail.Bounded full y) :
    Place.trail.Bounded full (x ++ y) where
  neighbours := by
    rw [List.isChain_append]
    exact ⟨first.neighbours, rest.neighbours, fun t last u head =>
      .of_trail_right (fun isFull => first.ends (.inr rfl) isFull t last) (rest.trails rfl u head)⟩
  filled := nofun
  starts := nofun
  ends _ isFull t last := by
    rcases mem_getLast?_append last with last | last
    · exact first.ends (.inr rfl) isFull t last
    · exact rest.ends (.inr rfl) isFull t last
  leads := nofun
  trails _ t head := by
    rcases mem_head?_append head with head | head
    · exact first.trails rfl t head
    · exact rest.trails rfl t head

theorem inner (inside : place.Bounded full x) (notTrail : place ≠ .trail) :
    Place.inner.Bounded full x :=
  ⟨inside.neighbours, nofun, fun _ => inside.starts notTrail, nofun, nofun, nofun⟩

theorem token {t : Token} (spoken : t.isContent = true) :
    Place.piece.Bounded full (Tokens.visible [t]) := by
  have shown : Tokens.visible [t] = [t] := by
    cases t <;> first | rfl | cases spoken
  rw [shown]
  refine .single fun isSpace => ?_
  rw [isSpace] at spoken
  cases spoken

end Place.Bounded

/-- Everything that is laid out by the rules keeps to what its place asks. -/
theorem Shaped.bounded {full : Prop} {sets : Bool} {place : Place} {ts : Tokens}
    (shaped : Shaped full sets place ts) : place.Bounded full ts.visible := by
  induction shaped with
  | nothing allowed => exact .nothing allowed
  | token spoken _ => exact .token spoken
  | mark single => exact .single Token.noConfusion
  | enclosed _ inside | attached _ inside =>
      rw [parens, Tokens.visible_cons_symbol, Tokens.visible_append]
      exact .parens inside Place.noConfusion
  | led _ _ first rest =>
      rw [Tokens.visible_append]
      exact .led first rest
  | trailed _ _ first rest =>
      rw [Tokens.visible_append]
      exact .trailed first rest
  | noLead | noTrail | omitted => exact .none Place.noConfusion
  | before _ first =>
      rw [thenSpace, Tokens.visible_append]
      exact .before first
  | leads _ _ first rest =>
      rw [Tokens.visible_append]
      exact .twoLeads first rest
  | after _ rest => exact .after rest
  | glued _ _ rest => exact .marked rest (.inl rfl)
  | marked _ _ rest => exact .marked rest (.inr rfl)
  | trails _ _ first rest =>
      rw [Tokens.visible_append]
      exact .twoTrails first rest
  | innerPiece _ inside => exact .inner inside Place.noConfusion
  | innerLead _ inside => exact .inner inside Place.noConfusion

end SqlSelect
