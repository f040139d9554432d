import Mathlib.Data.List.Flatten
import SqlSelect.Proofs.Statement
import SqlSelect.Proofs.Tree.Rewriting
namespace SqlSelect

/-! A clause in a slot of its own writes its words before it looks at its list, so a
`GROUP BY`, an `ORDER BY` or a `WITH` with nothing to list leaves them over.
Pruning a tree empties these slots, at every depth.  The text of the tree is the
text of the pruned tree and what is left over.
-/

open Phrase

/-- What is written for a clause whose list is empty. -/
inductive Leftover where
  | groupBy
  | orderBy (siblings : Bool)
  | withClause (recursive : Bool)

namespace Leftover

def text : Leftover → String
  | .groupBy => " GROUP BY "
  | .orderBy false => " ORDER BY "
  | .orderBy true => " ORDER SIBLINGS BY "
  | .withClause false => "WITH  "
  | .withClause true => "WITH RECURSIVE  "

/-- The clause with the space that its slot puts before or after it. -/
def tokens : Leftover → Tokens
  | .groupBy => spaced (GroupBy.tokens {})
  | .orderBy siblings => spaced (OrderBy.tokens { siblings })
  | .withClause recursive => thenSpace (With.tokens { recursive })

theorem chars_tokens (d : Dialect) (l : Leftover) : Tokens.chars d l.tokens = l.text.toList := by
  match l with
  | .groupBy => rfl
  | .orderBy false => rfl
  | .orderBy true => rfl
  | .withClause false => rfl
  | .withClause true => rfl

theorem text_ne_nil (l : Leftover) : l.text.toList ≠ [] := by
  match l with
  | .groupBy => decide
  | .orderBy false => decide
  | .orderBy true => decide
  | .withClause false => decide
  | .withClause true => decide

end Leftover

/-- The first tokens are the second with the leftovers among them. -/
structure Shed (x x' : Tokens) (ls : List Leftover) : Prop where
  sublist : x'.Sublist x
  perm : x.Perm (x' ++ ls.flatMap Leftover.tokens)

namespace Shed

variable {x x' x'' y y' : Tokens} {ls ms : List Leftover} {d : Dialect}

theorem refl (ts : Tokens) : Shed ts ts [] :=
  ⟨.refl ts, by simp⟩

theorem append (first : Shed x x' ls) (rest : Shed y y' ms) :
    Shed (x ++ y) (x' ++ y') (ls ++ ms) := by
  refine ⟨first.sublist.append rest.sublist, List.perm_iff_count.mpr fun t => ?_⟩
  have left := List.perm_iff_count.mp first.perm t
  have right := List.perm_iff_count.mp rest.perm t
  simp only [List.flatMap_append, List.count_append] at left right ⊢
  omega

theorem trans (first : Shed x x' ls) (rest : Shed x' x'' ms) : Shed x x'' (ls ++ ms) := by
  refine ⟨rest.sublist.trans first.sublist, List.perm_iff_count.mpr fun t => ?_⟩
  have left := List.perm_iff_count.mp first.perm t
  have right := List.perm_iff_count.mp rest.perm t
  simp only [List.flatMap_append, List.count_append] at left right ⊢
  omega

theorem before (first : Shed x x' ls) (ts : Tokens) : Shed (x ++ ts) (x' ++ ts) ls := by
  simpa using first.append (refl ts)

theorem after (ts : Tokens) (rest : Shed x x' ls) : Shed (ts ++ x) (ts ++ x') ls :=
  (refl ts).append rest

/-- A slot that is emptied of a clause with nothing to list. -/
theorem slot {α : Type} {f : α → Tokens} {isEmpty : α → Bool} {leftover : α → Leftover}
    (bare : ∀ a, isEmpty a = true → f a = (leftover a).tokens) (a? : Option α) :
    Shed (optional f a?) (optional f (a?.filter fun a => !isEmpty a))
      ((a?.filter isEmpty).map leftover).toList := by
  cases a? with
  | none => exact refl []
  | some a =>
      cases empty : isEmpty a with
      | false =>
          simp only [Option.filter_some, empty]
          exact refl _
      | true =>
          simp only [Option.filter_some, empty]
          refine ⟨List.nil_sublist _, ?_⟩
          simp [Phrase.optional, bare a empty]

theorem parallel {ε κ : Type} {f f' : ε → Tokens} {g g' : κ → Tokens} {h : Part ε κ → List Leftover}
    {ps : List (Part ε κ)} (texts : Parallel f f' g g' x x' ps)
    (exprs : ∀ e, Shed (f e) (f' e) (h (.expr e)))
    (queries : ∀ q, Shed (g q) (g' q) (h (.query q))) :
    Shed x x' (ps.flatMap h) := by
  induction texts with
  | own ts => exact refl ts
  | part p =>
      rw [List.flatMap_singleton]
      cases p with
      | expr e => exact exprs e
      | query q => exact after [.symbol .openParen] ((queries q).before [.symbol .closeParen])
  | append _ _ first rest =>
      rw [List.flatMap_append]
      exact first.append rest

theorem chars_sublist (shed : Shed x x' ls) (d : Dialect) : (x'.chars d).Sublist (x.chars d) :=
  shed.sublist.flatMap _

theorem chars_perm (shed : Shed x x' ls) (d : Dialect) :
    (x.chars d).Perm (x'.chars d ++ ls.flatMap (·.text.toList)) := by
  have texts := shed.perm.flatMap_right (Token.chars d)
  rw [List.flatMap_append, List.flatMap_assoc] at texts
  have words : (ls.flatMap fun l => l.tokens.flatMap (Token.chars d)) =
      ls.flatMap (·.text.toList) :=
    List.flatMap_congr fun l _ => l.chars_tokens d
  rwa [words] at texts

/-- Nothing left over is silent. -/
theorem chars_eq_iff (shed : Shed x x' ls) (d : Dialect) : x.chars d = x'.chars d ↔ ls = [] := by
  have lengths := (shed.chars_perm d).length_eq
  rw [List.length_append] at lengths
  constructor
  · intro same
    rw [same] at lengths
    have silent : ls.flatMap (·.text.toList) = [] := List.length_eq_zero_iff.mp (by omega)
    cases ls with
    | nil => rfl
    | cons l rest =>
        rw [List.flatMap_cons, List.append_eq_nil_iff] at silent
        exact absurd silent.1 l.text_ne_nil
  · rintro rfl
    exact ((shed.chars_sublist d).eq_of_length (by simpa using lengths.symm)).symm

end Shed

variable {ε α κ β : Type}

namespace Select

/-- Without a `GROUP BY` that has nothing to list. -/
def pruned (s : Select ε κ) : Select ε κ := { s with groupBy? := s.groupBy?.filter (!·.isEmpty) }

/-- What the select itself leaves over: without a source it does not write the
    clause at all. -/
def leftovers (s : Select ε κ) : List Leftover :=
  match s.source? with
  | none => []
  | some _ => ((s.groupBy?.filter (·.isEmpty)).map fun _ => Leftover.groupBy).toList

theorem pruned_map (f : ε → α) (g : κ → β) (s : Select ε κ) :
    s.pruned.map f g = (s.map f g).pruned := by
  simp [pruned, map, Option.filter_map, Function.comp_def, GroupBy.map, GroupBy.isEmpty]

theorem leftovers_map (f : ε → α) (g : κ → β) (s : Select ε κ) :
    (s.map f g).leftovers = s.leftovers := by
  cases present : s.source? with
  | none => simp [leftovers, map, present]
  | some source =>
      simp [leftovers, map, present, Option.filter_map, Function.comp_def, GroupBy.map,
        GroupBy.isEmpty]

theorem shed_fromClause (s : Select Tokens Tokens) (source : Relation Tokens Tokens) :
    Shed (s.fromClause source) (s.pruned.fromClause source)
      ((s.groupBy?.filter (·.isEmpty)).map fun _ => Leftover.groupBy).toList := by
  have bare (g : GroupBy Tokens) (empty : g.isEmpty = true) :
      spaced g.tokens = Leftover.groupBy.tokens := by
    obtain ⟨exprs, sets⟩ := g
    obtain ⟨rfl, rfl⟩ : exprs = [] ∧ sets = [] := by simpa [GroupBy.isEmpty] using empty
    rfl
  exact .before (.before (.before (.before (.after _ (.slot bare s.groupBy?)) _) _) _) _

theorem shed_main (s : Select Tokens Tokens) : Shed s.main s.pruned.main s.leftovers := by
  refine .before (.after _ ?_) _
  cases present : s.source? with
  | none =>
      simp only [leftovers, pruned, present]
      exact .refl _
  | some source =>
      simp only [leftovers, present]
      have source' : s.pruned.source? = some source := present
      simp only [source']
      exact s.shed_fromClause source

end Select

namespace Envelope

/-- Without a `WITH` or an `ORDER BY` that has nothing to list. -/
def pruned (e : Envelope ε κ) : Envelope ε κ :=
  { e with
    with? := e.with?.filter (!·.ctes.isEmpty)
    orderBy? := e.orderBy?.filter (!·.keys.isEmpty) }

def leadingLeftovers (e : Envelope ε κ) : List Leftover :=
  ((e.with?.filter (·.ctes.isEmpty)).map fun w => Leftover.withClause w.recursive).toList

def trailingLeftovers (e : Envelope ε κ) : List Leftover :=
  ((e.orderBy?.filter (·.keys.isEmpty)).map fun o => Leftover.orderBy o.siblings).toList

theorem pruned_map (f : ε → α) (g : κ → β) (e : Envelope ε κ) :
    e.pruned.map f g = (e.map f g).pruned := by
  simp [pruned, map, Option.filter_map, Function.comp_def, With.map, OrderBy.map]

theorem leadingLeftovers_map (f : ε → α) (g : κ → β) (e : Envelope ε κ) :
    (e.map f g).leadingLeftovers = e.leadingLeftovers := by
  simp [leadingLeftovers, map, Option.filter_map, Function.comp_def, With.map]

theorem trailingLeftovers_map (f : ε → α) (g : κ → β) (e : Envelope ε κ) :
    (e.map f g).trailingLeftovers = e.trailingLeftovers := by
  simp [trailingLeftovers, map, Option.filter_map, Function.comp_def, OrderBy.map]

theorem shed_leading (e : Envelope ε Tokens) :
    Shed e.leading e.pruned.leading e.leadingLeftovers := by
  have bare (w : With Tokens) (empty : w.ctes.isEmpty = true) :
      thenSpace w.tokens = (Leftover.withClause w.recursive).tokens := by
    obtain ⟨recursive, ctes⟩ := w
    obtain rfl : ctes = [] := by simpa using empty
    rfl
  exact .slot bare e.with?

theorem shed_trailing (e : Envelope Tokens κ) :
    Shed e.trailing e.pruned.trailing e.trailingLeftovers := by
  have bare (o : OrderBy Tokens) (empty : o.keys.isEmpty = true) :
      spaced o.tokens = (Leftover.orderBy o.siblings).tokens := by
    obtain ⟨keys, siblings⟩ := o
    obtain rfl : keys = [] := by simpa using empty
    rfl
  exact .before (.before (.before (.before (.slot bare e.orderBy?) _) _) _) _

end Envelope

def pruning : Rewriting where
  select := Select.pruned
  envelope := Envelope.pruned
  select_map := Select.pruned_map
  envelope_map := Envelope.pruned_map

/-- The text of a tree as it is and when it is pruned, and what is left over. -/
structure Trace where
  text : Tokens
  pruned : Tokens
  leftovers : List Leftover
  shed : Shed text pruned leftovers

namespace Trace

def ofPart : Part Trace Trace → List Leftover
  | .expr t | .query t => t.leftovers

/-- A clause whose parts are traced. -/
def clause {x x' : Tokens} {ps : List (Part Trace Trace)}
    (texts : Parallel text pruned text pruned x x' ps) : Trace :=
  ⟨x, x', ps.flatMap ofPart, .parallel texts shed shed⟩

theorem parallel_joined (separator : Tokens) (ts : List Trace) :
    Parallel text pruned text pruned (Phrase.joined separator (ts.map text))
      (Phrase.joined separator (ts.map pruned)) (ts.flatMap fun t => [.expr t]) :=
  .joined fun t _ => .expr t

/-- A select apart from its last clauses. -/
def select (s : Select Trace Trace) : Trace where
  text := (s.map text text).main
  pruned := (s.map pruned pruned).pruned.main
  leftovers := s.written.flatMap ofPart ++ s.leftovers
  shed := by
    have parts : Shed (s.map text text).main (s.map pruned pruned).main
        (s.written.flatMap ofPart) :=
      .parallel s.parallel_main shed shed
    have own := (s.map pruned pruned).shed_main
    rw [Select.leftovers_map] at own
    exact parts.trans own

def query (envelope : Envelope Trace Trace) (main : Trace) (tail : Tokens) : Trace where
  text := (envelope.map text text).leading ++ main.text ++ (envelope.map text text).trailing ++ tail
  pruned :=
    (envelope.map pruned pruned).pruned.leading ++ main.pruned ++
      (envelope.map pruned pruned).pruned.trailing ++ tail
  leftovers :=
    envelope.leadingWritten.flatMap ofPart ++ envelope.leadingLeftovers ++ main.leftovers ++
      (envelope.trailingWritten.flatMap ofPart ++ envelope.trailingLeftovers)
  shed := by
    have leading : Shed (envelope.map text text).leading (envelope.map pruned pruned).leading
        (envelope.leadingWritten.flatMap ofPart) :=
      .parallel envelope.parallel_leading shed shed
    have trailing : Shed (envelope.map text text).trailing (envelope.map pruned pruned).trailing
        (envelope.trailingWritten.flatMap ofPart) :=
      .parallel envelope.parallel_trailing shed shed
    have ownLeading := (envelope.map pruned pruned).shed_leading
    have ownTrailing := (envelope.map pruned pruned).shed_trailing
    rw [Envelope.leadingLeftovers_map] at ownLeading
    rw [Envelope.trailingLeftovers_map] at ownTrailing
    exact .before (.append (.append (leading.trans ownLeading) main.shed)
      (trailing.trans ownTrailing)) tail

/-- A body in two parts, of which the last clauses have nothing to prune. -/
structure Body where
  main : Trace
  tail : Tokens := []

namespace Body

def whole (b : Body) : Trace where
  text := b.main.text ++ b.tail
  pruned := b.main.pruned ++ b.tail
  leftovers := b.main.leftovers
  shed := b.main.shed.before b.tail

def text (b : Body) : Parts := ⟨b.main.text, b.tail⟩

def pruned (b : Body) : Parts := ⟨b.main.pruned, b.tail⟩

end Body

def interpretation : Interpretation Trace Body Trace where
  all operands := clause (parallel_joined (spaced (thenSpace (word .AND))) operands)
  any operands := clause (parallel_joined (spaced (thenSpace (word .OR))) operands)
  binary op left right :=
    clause (.append (.before (.expr left) (.own (spaced [op.token]))) (.spaced (.expr right)))
  column name := clause (.own name.tokens)
  call c := clause c.parallel
  inList subject members negated :=
    clause (.append (.before (.before (.expr subject) (.own (onlyIf negated (spaced (word .NOT)))))
      (.own (spaced (word .IN)))) (.spaced (.parens (.exprs members))))
  isNull subject negated :=
    clause (.before (.before (.before (.expr subject) (.own (spaced (word .IS))))
      (.own (onlyIf negated (spaced (word .NOT))))) (.own (spaced (word .NULL))))
  nested inner := clause (.parens (.expr inner))
  not operand := clause (.after (.own (word .NOT)) (.spaced (.expr operand)))
  raw text := clause (.own [.verbatim text])
  subquery query := clause (.query query)
  literal value := clause (.own value.tokens)
  select s := ⟨Trace.select s, s.tail⟩
  combined op all operands :=
    { main := clause (parallel_joined (Writing.separator op all) (operands.map Body.whole)) }
  enclosed query := { main := clause (.query query) }
  query envelope body := Trace.query envelope body.main body.tail

theorem text_hom :
    Interpretation.Hom interpretation Writing.interpretation text Body.text text := by
  constructor
  case combined =>
    intro op all operands
    simp [interpretation, Writing.interpretation, Body.text, clause, Function.comp_def, Body.whole,
      Parts.whole]
  all_goals
    intros
    rfl

theorem pruned_hom :
    Interpretation.Hom interpretation pruning.writing pruned Body.pruned pruned := by
  constructor
  case combined =>
    intro op all operands
    simp [interpretation, Rewriting.writing, Writing.interpretation, Body.pruned, clause,
      Function.comp_def, Body.whole, Parts.whole]
  all_goals
    intros
    rfl

end Trace

namespace Statement

def pruned : Statement → Statement
  | .query q => .query (pruning.query q)
  | .select s => .select (pruning.selectTree s)

def trace : Statement → Trace
  | .query q => Trace.interpretation.ofQuery q
  | .select s => (Trace.interpretation.ofBody (.select s)).whole

/-- What the clauses with nothing to list leave over in the text, of those that are
    written at all. -/
def leftovers (t : Statement) : List Leftover := t.trace.leftovers

theorem trace_text (t : Statement) : t.trace.text = t.tokens := by
  cases t with
  | query q => exact Trace.text_hom.ofQuery q
  | select s =>
      have parts : (Trace.interpretation.ofBody (.select s)).text = (Body.select s).parts :=
        Trace.text_hom.ofBody (.select s)
      exact (congrArg Parts.whole parts).trans (Body.tokens_select s)

theorem trace_pruned (t : Statement) : t.trace.pruned = t.pruned.tokens := by
  cases t with
  | query q => exact (Trace.pruned_hom.ofQuery q).trans (pruning.writing_hom.ofQuery q).symm
  | select s =>
      have parts : (Trace.interpretation.ofBody (.select s)).pruned =
          (Body.select (pruning.selectTree s)).parts :=
        (Trace.pruned_hom.ofBody (.select s)).trans (Rewriting.parts_selectTree s).symm
      exact (congrArg Parts.whole parts).trans (Body.tokens_select _)

/-- A statement has the text of the pruned one, with what is left over among it, and
    the two texts are equal only when there is nothing left over. -/
theorem render_pruned (t : Statement) (d : Dialect) :
    (render d t.pruned).toList.Sublist (render d t).toList ∧
      (render d t).toList.Perm
        ((render d t.pruned).toList ++ t.leftovers.flatMap (·.text.toList)) ∧
      (render d t = render d t.pruned ↔ t.leftovers = []) := by
  have shed : Shed t.tokens t.pruned.tokens t.leftovers := by
    rw [← trace_text, ← trace_pruned]
    exact t.trace.shed
  have text (t : Statement) : (render d t).toList = t.tokens.chars d := String.toList_ofList
  refine ⟨?_, ?_, ?_⟩
  · rw [text, text]
    exact shed.chars_sublist d
  · rw [text, text]
    exact shed.chars_perm d
  · rw [← String.toList_inj, text, text]
    exact shed.chars_eq_iff d

/-- A clause with nothing to list in each of the three slots, written out as
    `WITH  SELECT * FROM t GROUP BY  ORDER BY `. -/
example :
    leftovers (.query ⟨{ with? := some {}, orderBy? := some {} },
      .select { Select.fromSource (.table (.ofText "t")) with groupBy? := some {} }⟩) =
      [.withClause false, .groupBy, .orderBy false] :=
  rfl

end Statement
end SqlSelect
