import SqlSelect.Edit.Query
import SqlSelect.Proofs.Layout.Tree
import SqlSelect.Proofs.Tree.Bodies
import SqlSelect.Proofs.Union.Shape
namespace SqlSelect

/-! A query of unions is written without parentheses around the unions in it.  The
text is read as SQL reads it: parentheses first, and the unions outside of them
from left to right.
-/

/-- How many parentheses are open after a token. -/
def Token.depth (before : Nat) : Token → Nat
  | .symbol .openParen => before + 1
  | .symbol .closeParen => before - 1
  | _ => before

namespace Tokens

def solid (ts : Tokens) : Tokens := ts.filter (· ≠ .space)

/-- The parts between the unions that are in no parentheses. -/
def cut (depth : Nat) : Tokens → List Tokens
  | [] => [[]]
  | t :: rest =>
      if depth = 0 ∧ t = .keyword .UNION then [] :: cut 0 rest
      else (cut (t.depth depth) rest).modifyHead (t :: ·)

/-- Whether the union before a part keeps repeated rows, and the operand after it. -/
def operand : Tokens → Bool × Tokens
  | .keyword .ALL :: rest => (true, rest)
  | ts => (false, ts)

variable {ρ : Type} [DecidableEq ρ]

/-- The rows of a text that has no set operations but unions outside parentheses.
    Those of an operand can depend on its place and on what is written there. -/
def reading (rows : Nat → Tokens → Multiset ρ) (ts : Tokens) : Multiset ρ :=
  match cut 0 ts.solid with
  | [] => 0
  | first :: rest => leftToRight (rows 0 first) (fun i => rows (i + 1)) (rest.map operand)

end Tokens

/-- The bag that a set operation makes of two. -/
def SetOperator.apply {ρ : Type} [DecidableEq ρ] (all : Bool) (left right : Multiset ρ) :
    SetOperator → Multiset ρ
  | .union => unite all left right
  | .intersect => if all then left ∩ right else (left ∩ right).dedup
  | .except | .minus => if all then left - right else left.dedup - right

namespace Body

mutual

/-- How many operands a body has that are no set operations. -/
def size : Body → Nat
  | .select _ => 1
  | .combined _ _ operands => sizes operands
  | .enclosed _ => 1

def sizes : List Body → Nat
  | [] => 0
  | b :: rest => b.size + sizes rest

end

variable {ρ : Type} [DecidableEq ρ]

mutual

/-- The rows of a body: its operands are combined from left to right. -/
def bag (rows : Nat → Tokens → Multiset ρ) : Body → Multiset ρ
  | .select s => rows 0 (Body.select s).tokens.solid
  | .combined _ _ [] => 0
  | .combined op all (b :: rest) =>
      bagAfter op all (b.bag rows) (fun i => rows (b.size + i)) rest
  | .enclosed q => rows 0 (Body.enclosed q).tokens.solid

def bagAfter (op : SetOperator) (all : Bool) (first : Multiset ρ)
    (rows : Nat → Tokens → Multiset ρ) : List Body → Multiset ρ
  | [] => first
  | b :: rest =>
      bagAfter op all (op.apply all first (b.bag rows)) (fun i => rows (b.size + i)) rest

end

end Body

/-- How a query is made of selects by unions.  An operand on the right that has
    clauses around its body is written in parentheses, whatever its body is. -/
inductive Combination where
  | one (s : Select Expr Query)
  | both (all : Bool) (left right : Combination)
  | aside (all : Bool) (left : Combination) (query : Query) (closed : query.isBare = false)

namespace Combination

def query : Combination → Query
  | .one s => .ofSelect s
  | .both true left right => left.query.unionAll right.query
  | .both false left right => left.query.union right.query
  | .aside true left query _ => left.query.unionAll query
  | .aside false left query _ => left.query.union query

def grouping : Combination → Grouping Tokens
  | .one s => .leaf (Body.select s).tokens.solid
  | .both all left right => .node all left.grouping right.grouping
  | .aside all left query _ => .node all left.grouping (.leaf (Body.enclosed query).tokens.solid)

end Combination

namespace Tokens

@[simp] theorem solid_append (x y : Tokens) : solid (x ++ y) = solid x ++ solid y :=
  List.filter_append ..

@[simp] theorem solid_nil : solid [] = [] := rfl

@[simp] theorem solid_space (rest : Tokens) : solid (.space :: rest) = solid rest := rfl

@[simp] theorem solid_keyword (k : Keyword) (rest : Tokens) :
    solid (.keyword k :: rest) = .keyword k :: solid rest := rfl

@[simp] theorem solid_symbol (s : Symbol) (rest : Tokens) :
    solid (.symbol s :: rest) = .symbol s :: solid rest := rfl

theorem cut_cons {depth : Nat} {t : Token} (plain : depth = 0 → t ≠ .keyword .UNION)
    (rest : Tokens) : cut depth (t :: rest) = (cut (t.depth depth) rest).modifyHead (t :: ·) :=
  if_neg fun both => plain both.1 both.2

theorem cut_symbol (depth : Nat) (s : Symbol) (rest : Tokens) :
    cut depth (.symbol s :: rest) =
      (cut ((Token.symbol s).depth depth) rest).modifyHead (.symbol s :: ·) :=
  cut_cons (fun _ => Token.noConfusion) rest

/-- A phrase inside which the text is not cut. -/
def Whole (depth : Nat) (ts : Tokens) : Prop :=
  ∀ rest, cut depth (ts.solid ++ rest) = (cut depth rest).modifyHead (ts.solid ++ ·)

namespace Whole

variable {depth : Nat} {x y : Tokens}

theorem nil : Whole depth [] := by
  intro rest
  exact (congrFun List.modifyHead_id (cut depth rest)).symm

theorem append (first : Whole depth x) (second : Whole depth y) : Whole depth (x ++ y) := by
  intro rest
  rw [solid_append, List.append_assoc, first, second, List.modifyHead_modifyHead]
  congr 1
  funext part
  exact (List.append_assoc ..).symm

theorem token {t : Token} (level : t.depth depth = depth)
    (plain : depth = 0 → t ≠ .keyword .UNION) : Whole depth [t] := by
  intro rest
  by_cases isSpace : t = .space
  · subst isSpace
    exact nil rest
  · have alone : solid [t] = [t] := by simp [solid, isSpace]
    rw [alone, List.singleton_append, cut_cons plain, level]
    rfl

theorem parens (inside : Whole (depth + 1) x) : Whole depth (Phrase.parens x) := by
  intro rest
  have written : (Phrase.parens x).solid ++ rest =
      .symbol .openParen :: (x.solid ++ .symbol .closeParen :: rest) := by
    simp [Phrase.parens]
  have opened : (Token.symbol .openParen).depth depth = depth + 1 := rfl
  have closed : (Token.symbol .closeParen).depth (depth + 1) = depth := rfl
  rw [written, cut_symbol, opened, inside, cut_symbol, closed, List.modifyHead_modifyHead,
    List.modifyHead_modifyHead]
  congr 1
  funext part
  simp [Phrase.parens]

end Whole

end Tokens

theorem Token.depth_symbol {s : Symbol} (single : s.isParen = false) (before : Nat) :
    (Token.symbol s).depth before = before := by
  cases s <;> first | rfl | cases single

theorem Token.depth_of_isContent {t : Token} (spoken : t.isContent = true) (before : Nat) :
    t.depth before = before := by
  cases t <;> first | rfl | cases spoken

/-- What is laid out by the rules is not cut, unless a set operation stands outside
    parentheses. -/
theorem Shaped.whole {full : Prop} {sets : Bool} {place : Place} {ts : Tokens}
    (shaped : Shaped full sets place ts) {depth : Nat} (apart : sets = false ∨ 0 < depth) :
    ts.Whole depth := by
  induction shaped generalizing depth with
  | nothing => exact .nil
  | token spoken plain =>
      refine .token (Token.depth_of_isContent spoken depth) ?_
      rintro rfl rfl
      rcases apart with rfl | inside
      · exact Bool.false_ne_true plain
      · exact Nat.lt_irrefl 0 inside
  | mark single => exact .token (Token.depth_symbol single depth) fun _ => nofun
  | enclosed _ inside => exact .parens (inside (.inr depth.succ_pos))
  | led _ _ first rest => exact .append (first apart) (rest apart)
  | trailed _ _ first rest => exact .append (first apart) (rest apart)
  | noLead => exact .nil
  | omitted => exact .token rfl fun _ => nofun
  | before _ first => exact .append (first apart) (.token rfl fun _ => nofun)
  | leads _ _ first rest => exact .append (first apart) (rest apart)
  | noTrail => exact .nil
  | after _ rest => exact .append (x := [.space]) (.token rfl fun _ => nofun) (rest apart)
  | attached _ inside => exact .parens (inside (.inr depth.succ_pos))
  | glued single _ rest =>
      exact .append (.token (Token.depth_symbol single depth) fun _ => nofun) (rest apart)
  | marked single _ rest =>
      exact .append (.token (Token.depth_symbol single depth) fun _ => nofun) (rest apart)
  | trails _ _ first rest => exact .append (first apart) (rest apart)
  | innerPiece _ inside => exact inside apart
  | innerLead _ inside => exact inside apart

namespace Tokens

open Phrase Writing

/-- What a text is cut into, at its end and before one more union. -/
structure Cut (ts : Tokens) (parts : List Tokens) : Prop where
  ends : cut 0 ts.solid = parts
  goesOn : ∀ rest, cut 0 (ts.solid ++ .keyword .UNION :: rest) = parts ++ cut 0 rest

theorem Whole.cut {ts : Tokens} (whole : ts.Whole 0) : Cut ts [ts.solid] where
  ends := by
    have closed := whole []
    rw [List.append_nil] at closed
    rw [closed]
    exact congrArg (fun part => [part]) (List.append_nil ts.solid)
  goesOn rest := by
    rw [whole]
    exact congrArg (fun part => part :: Tokens.cut 0 rest) (List.append_nil ts.solid)

/-- A text is cut into the operands of a grouping, each further one with its
    union. -/
def CutAs (ts : Tokens) (g : Grouping Tokens) : Prop :=
  ∃ parts, parts.map operand = g.rest ∧ ts.Cut (g.first :: parts)

theorem Whole.cutAs {ts : Tokens} (whole : ts.Whole 0) : ts.CutAs (.leaf ts.solid) :=
  ⟨[], rfl, whole.cut⟩

theorem operand_mark (all : Bool) {ts : Tokens} (starts : ts.head? ≠ some (.keyword .ALL)) :
    operand (onlyIf all (word .ALL) ++ ts) = (all, ts) := by
  cases all with
  | true => rfl
  | false =>
      show operand ts = (false, ts)
      unfold operand
      split
      · exact absurd rfl starts
      · rfl

/-- A text and one more operand are cut where each is, and between the two. -/
theorem CutAs.node {x y : Tokens} {g h : Grouping Tokens} (left : x.CutAs g) (right : y.CutAs h)
    (starts : h.first.head? ≠ some (.keyword .ALL)) (all : Bool) :
    (x ++ (separator .union all ++ y)).CutAs (.node all g h) := by
  obtain ⟨first, firstRest, leftCut⟩ := left
  obtain ⟨second, secondRest, rightCut⟩ := right
  have written : (x ++ (separator .union all ++ y)).solid =
      x.solid ++ .keyword .UNION :: (onlyIf all (word .ALL) ++ y.solid) := by
    rw [solid_append, solid_append]
    cases all <;> rfl
  have kept (ts : Tokens) : cut 0 (onlyIf all (word .ALL) ++ ts) =
      (cut 0 ts).modifyHead (onlyIf all (word .ALL) ++ ·) := by
    cases all with
    | false => exact Whole.nil ts
    | true => exact cut_cons (by nofun) ts
  refine ⟨first ++ (onlyIf all (word .ALL) ++ h.first) :: second, ?_, ⟨?_, fun rest => ?_⟩⟩
  · rw [List.map_append, List.map_cons, firstRest, secondRest, operand_mark all starts]
    rfl
  · rw [written, leftCut.goesOn, kept, rightCut.ends]
    rfl
  · rw [written, List.append_assoc, List.cons_append, leftCut.goesOn, List.append_assoc, kept,
      rightCut.goesOn, ← List.cons_append, List.append_assoc]
    rfl

end Tokens

namespace Body

open Writing

theorem whole_select (s : Select Expr Query) : (Body.select s).tokens.Whole 0 := by
  have shaped : Shaped False false .piece (Written.tokens s) :=
    .trailed (Select.shaped_main (fun _ => Expr.shaped) (fun _ => Query.shaped) False.elim)
      (Select.shaped_tail _)
  rw [tokens_select]
  exact shaped.whole (.inl rfl)

theorem whole_enclosed (q : Query) : (Body.enclosed q).tokens.Whole 0 := by
  have shaped : Shaped False false .piece (Phrase.parens q.tokens) :=
    .enclosed (.innerPiece (Query.shaped False.elim))
  rw [tokens_enclosed]
  exact shaped.whole (.inl rfl)

section

variable {op : SetOperator} {all : Bool} {b : Body}

theorem combine_cases (b operand : Body) (op : SetOperator) (all : Bool) :
    (∃ operands, b = .combined op all operands ∧
      b.combine op all operand = .combined op all (operands ++ [operand])) ∨
    b.combine op all operand = .combined op all [b, operand] := by
  cases b with
  | select s => exact .inr rfl
  | enclosed q => exact .inr rfl
  | combined op' all' operands =>
      rw [combine]
      by_cases same : op' = op ∧ all' = all
      · obtain ⟨rfl, rfl⟩ := same
        exact .inl ⟨operands, rfl, if_pos ⟨rfl, rfl⟩⟩
      · exact .inr (if_neg same)

theorem combine_ne (operand : Body) (op' : SetOperator) (all' : Bool) :
    b.combine op all operand ≠ .combined op' all' [] := by
  rcases combine_cases b operand op all with ⟨operands, -, joins⟩ | starts
  · rw [joins]
    simp
  · rw [starts]
    nofun

theorem tokens_combine (some : b ≠ .combined op all []) (operand : Body) :
    (b.combine op all operand).tokens = b.tokens ++ (separator op all ++ operand.tokens) := by
  rcases combine_cases b operand op all with ⟨operands, rfl, joins⟩ | starts
  · have present : operands.map Body.tokens ≠ [] := by
      intro none
      obtain rfl := List.map_eq_nil_iff.mp none
      exact some rfl
    rw [joins, tokens_combined, List.map_append, List.map_singleton,
      Phrase.joined_concat present, ← tokens_combined]
  · rw [starts, tokens_combined]
    simp [Phrase.joined]

theorem sizes_concat (operands : List Body) (operand : Body) :
    sizes (operands ++ [operand]) = sizes operands + operand.size := by
  induction operands with
  | nil => simp [sizes]
  | cons b rest ih =>
      rw [List.cons_append, sizes, sizes, ih]
      omega

theorem size_combine (operand : Body) :
    (b.combine op all operand).size = b.size + operand.size := by
  rcases combine_cases b operand op all with ⟨operands, rfl, joins⟩ | starts
  · rw [joins, size, size, sizes_concat]
  · rw [starts]
    simp [size, sizes]

variable {ρ : Type} [DecidableEq ρ]

theorem bagAfter_concat (first : Multiset ρ) (rows : Nat → Tokens → Multiset ρ)
    (operands : List Body) (operand : Body) :
    bagAfter op all first rows (operands ++ [operand]) =
      op.apply all (bagAfter op all first rows operands)
        (operand.bag fun i => rows (sizes operands + i)) := by
  induction operands generalizing first rows with
  | nil => simp [bagAfter, sizes]
  | cons b rest ih =>
      rw [List.cons_append, bagAfter, ih, bagAfter, sizes]
      simp only [Nat.add_assoc]

theorem bag_combine (some : b ≠ .combined op all []) (operand : Body)
    (rows : Nat → Tokens → Multiset ρ) :
    (b.combine op all operand).bag rows =
      op.apply all (b.bag rows) (operand.bag fun i => rows (b.size + i)) := by
  rcases combine_cases b operand op all with ⟨operands, rfl, joins⟩ | starts
  · rw [joins]
    cases operands with
    | nil => contradiction
    | cons first rest =>
        rw [List.cons_append, bag, bagAfter_concat, bag, size, sizes]
        simp only [Nat.add_assoc]
  · rw [starts, bag, bagAfter, bagAfter]

end

end Body

namespace Combination

open Writing

theorem envelope_query (c : Combination) : c.query.envelope = {} := by
  induction c with
  | one s => rfl
  | both all left right leftIh _ => cases all <;> exact leftIh
  | aside all left query closed leftIh => cases all <;> exact leftIh

theorem tokens_query (c : Combination) : Written.tokens c.query = c.query.body.tokens := by
  have none := c.envelope_query
  generalize c.query = q at none ⊢
  obtain ⟨envelope, body⟩ := q
  obtain rfl : envelope = {} := none
  simp [Written.tokens, Query.tokens, Interpretation.ofQuery_eq, interpretation, Envelope.map,
    Envelope.leading, Envelope.trailing, Phrase.optional, Body.tokens, Body.parts, Parts.whole]

theorem ofQuery_query (c : Combination) : Body.ofQuery c.query = c.query.body := by
  have bare : c.query.isBare = true := by
    rw [Query.isBare, envelope_query]
    rfl
  exact if_pos bare

theorem body_both (all : Bool) (left right : Combination) :
    (both all left right).query.body = left.query.body.combine .union all right.query.body := by
  rw [← right.ofQuery_query]
  cases all <;> rfl

theorem body_aside (all : Bool) (left : Combination) {q : Query} (closed : q.isBare = false) :
    (aside all left q closed).query.body = left.query.body.combine .union all (.enclosed q) := by
  have operand : Body.ofQuery q = .enclosed q := if_neg (Bool.eq_false_iff.mp closed)
  rw [← operand]
  cases all <;> rfl

theorem body_ne (c : Combination) (all : Bool) : c.query.body ≠ .combined .union all [] := by
  cases c with
  | one s => nofun
  | both all' left right =>
      rw [body_both]
      exact Body.combine_ne _ _ _
  | aside all' left query closed =>
      rw [body_aside]
      exact Body.combine_ne _ _ _

theorem head?_first (c : Combination) :
    c.grouping.first.head? = some (.keyword .SELECT) := by
  induction c with
  | one s =>
      rw [grouping, Grouping.first, Body.tokens_select]
      rfl
  | both all left right leftIh _ => exact leftIh
  | aside all left query closed leftIh => exact leftIh

/-- The text is cut into the operands that the calls were given. -/
theorem cut_body (c : Combination) : c.query.body.tokens.CutAs c.grouping := by
  induction c with
  | one s => exact (Body.whole_select s).cutAs
  | both all left right leftIh rightIh =>
      rw [body_both, Body.tokens_combine (left.body_ne all)]
      refine leftIh.node rightIh ?_ all
      rw [head?_first]
      nofun
  | aside all left query closed leftIh =>
      rw [body_aside, Body.tokens_combine (left.body_ne all)]
      refine leftIh.node (Body.whole_enclosed query).cutAs ?_ all
      rw [Grouping.first, Body.tokens_enclosed]
      nofun

theorem size_body (c : Combination) : c.query.body.size = c.grouping.size := by
  induction c with
  | one s => rfl
  | both all left right leftIh rightIh =>
      rw [body_both, Body.size_combine, leftIh, rightIh]
      rfl
  | aside all left query closed leftIh =>
      rw [body_aside, Body.size_combine, leftIh]
      rfl

section

variable {ρ : Type} [DecidableEq ρ]

theorem reading_query (c : Combination) (rows : Nat → Tokens → Multiset ρ) :
    (Written.tokens c.query).reading rows = c.grouping.reading rows := by
  obtain ⟨parts, operands, cut⟩ := c.cut_body
  rw [Tokens.reading, tokens_query, cut.ends, Grouping.reading, ← operands]

theorem bag_body (c : Combination) (rows : Nat → Tokens → Multiset ρ) :
    c.query.body.bag rows = c.grouping.bag rows := by
  induction c generalizing rows with
  | one s => rfl
  | both all left right leftIh rightIh =>
      rw [body_both, Body.bag_combine (left.body_ne all), leftIh, rightIh, size_body]
      rfl
  | aside all left query closed leftIh =>
      rw [body_aside, Body.bag_combine (left.body_ne all), leftIh, size_body]
      rfl

variable [Inhabited ρ]

/-- The text of a query of unions is read with the rows of the query, whatever
    rows its operands have, exactly when the parentheses that are not written do
    not matter: when no union that keeps repeated rows has one that removes them
    on its right, and none that removes them ends on its right with one that keeps
    them. -/
theorem reads_as_meant_iff (c : Combination) :
    (∀ rows : Nat → Tokens → Multiset ρ,
      (Written.tokens c.query).reading rows = c.query.body.bag rows) ↔ c.grouping.Faithful := by
  simp only [reading_query, bag_body]
  exact c.grouping.reading_eq_bag_iff

/-- A union on the right that removes repeated rows needs its parentheses after
    one that keeps them. -/
example (s t u : Select Expr Query) :
    ¬(both true (one s) (both false (one t) (one u))).grouping.Faithful := by
  simp [grouping, Grouping.Faithful, Grouping.unions]

end

end Combination
end SqlSelect
