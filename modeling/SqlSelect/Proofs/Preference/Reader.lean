import SqlSelect.Proofs.Preference.Lexemes
namespace SqlSelect.Preference

/-! No parentheses are written around a join, so a reader of a term makes each join
as soon as it can.  What it reads differs from what was written in the grouping
only.
-/

open Phrase

variable {d : Dialect} {mark : Char} {ε : Type}

namespace Reader

/-- What stands before a term: the terms that have been joined so far, and the
    join that waits for its right term. -/
abbrev Before := Option (Joint × Preference Expr)

inductive Rank where
  | high | low | plain

def Rank.of : Rank → Expr → Preference Expr
  | .high => .high
  | .low => .low
  | .plain => .expr

/-- What has been read since the last join or parenthesis. -/
inductive Stage where
  | operand
  /-- Parts of a column name, after which another part has to come. -/
  | column (rank : Rank) (parts : List String)
  /-- Parts of a column name that can be whole. -/
  | part (rank : Rank) (parts : List String)
  | inverse
  | done (term : Preference Expr)
  /-- The first word of `PRIOR TO`. -/
  | prior (term : Preference Expr)

/-- What stands before each open parenthesis, with the innermost first, and what
    has been read inside. -/
structure State where
  outer : List Before
  before : Before
  stage : Stage

/-- Go on after a term, which has been joined with what stands before it. -/
def afterTerm (outer : List Before) (term : Preference Expr) : Token → Option State
  | .keyword .PLUS => some ⟨outer, some (.plus, term), .operand⟩
  | .keyword .PRIOR => some ⟨outer, none, .prior term⟩
  | .symbol .closeParen =>
      match outer with
      | before :: outer => some ⟨outer, none, .done (after before (.inverse term))⟩
      | [] => none
  | _ => none

def step (state : State) (t : Token) : Option State :=
  match state.stage, t with
  | .operand, .keyword .HIGH => some { state with stage := .column .high [] }
  | .operand, .keyword .LOW => some { state with stage := .column .low [] }
  | .operand, .keyword .INVERSE => some { state with stage := .inverse }
  | .operand, .ident part => some { state with stage := .part .plain [part] }
  | .column rank parts, .ident part => some { state with stage := .part rank (parts ++ [part]) }
  | .part rank parts, .symbol .dot => some { state with stage := .column rank parts }
  | .part rank parts, t => afterTerm state.outer (after state.before (rank.of (.column ⟨parts⟩))) t
  | .inverse, .symbol .openParen => some ⟨state.before :: state.outer, none, .operand⟩
  | .done term, t => afterTerm state.outer term t
  | .prior term, .keyword .TO => some ⟨state.outer, some (.priorTo, term), .operand⟩
  | _, _ => none

def run (state : State) (ts : Tokens) : Option State := ts.foldlM step state

def State.inner? : State → Option (Preference Expr)
  | ⟨[], _, .done (.inverse inner)⟩ => some inner
  | _ => none

/-- The term that the tokens are, read as the inside of parentheses. -/
def read? (ts : Tokens) : Option (Preference Expr) :=
  (run ⟨[none], none, .operand⟩ (ts ++ [.symbol .closeParen])).bind State.inner?

variable {outer : List Before} {before : Before} {t : Token} {rest : Tokens}

theorem run_cons (state : State) (t : Token) (rest : Tokens) :
    run state (t :: rest) = (step state t).bind (run · rest) :=
  List.foldlM_cons

theorem step_part {rank : Rank} {parts : List String} (ends : t ≠ .symbol .dot) :
    step ⟨outer, before, .part rank parts⟩ t =
      afterTerm outer (after before (rank.of (.column ⟨parts⟩))) t := by
  unfold step
  split <;> simp_all

theorem run_parts (rank : Rank) (parts more : List String) :
    run ⟨outer, before, .part rank parts⟩
        ((more.flatMap fun part => [.symbol .dot, .ident part]) ++ rest) =
      run ⟨outer, before, .part rank (parts ++ more)⟩ rest := by
  induction more generalizing parts with
  | nil => rw [List.append_nil]; rfl
  | cons part more ih =>
      have further := ih (parts ++ [part])
      rw [List.append_assoc] at further
      exact further

/-- A column ends at what is no dot. -/
theorem run_column {rank : Rank} {part : String} {more : List String} (ends : t ≠ .symbol .dot) :
    run ⟨outer, before, .part rank [part]⟩
        ((more.flatMap fun part => [.symbol .dot, .ident part]) ++ t :: rest) =
      (afterTerm outer (after before (rank.of (.column ⟨part :: more⟩))) t).bind (run · rest) := by
  rw [run_parts, run_cons, step_part ends]
  rfl

/-- Where a term begins it is read to its end, and comes out grouped to the left. -/
theorem run_lexemes {p : Preference Expr} (columns : p.OverColumns) (outer : List Before)
    (before : Before) {t : Token} (ends : t ≠ .symbol .dot) (rest : Tokens) :
    run ⟨outer, before, .operand⟩ (p.lexemes ++ t :: rest) =
      (afterTerm outer (leftward before p) t).bind (run · rest) := by
  induction p generalizing outer before t rest with
  | high value =>
      obtain ⟨part, more, rfl⟩ := columns value (.head _)
      rw [lexemes_high, lexemes_column]
      exact run_column ends
  | low value =>
      obtain ⟨part, more, rfl⟩ := columns value (.head _)
      rw [lexemes_low, lexemes_column]
      exact run_column ends
  | expr value =>
      obtain ⟨part, more, rfl⟩ := columns value (.head _)
      rw [lexemes_expr, lexemes_column]
      exact run_column ends
  | inverse term ih =>
      have closing : Token.symbol .closeParen ≠ .symbol .dot := by simp
      have inside := ih columns (before :: outer) none closing (t :: rest)
      rw [lexemes_inverse, parens, List.cons_append, List.cons_append, List.append_assoc]
      exact inside
  | plus left right first second =>
      have each := overColumns_join (j := .plus) columns
      have between : (plus left right).lexemes = left.lexemes ++ .keyword .PLUS :: right.lexemes :=
        lexemes_join .plus left right
      have plus : Token.keyword .PLUS ≠ .symbol .dot := by simp
      rw [between, List.append_assoc, List.cons_append, first each.1 outer before plus]
      exact second each.2 outer (some (.plus, leftward before left)) ends rest
  | priorTo left right first second =>
      have each := overColumns_join (j := .priorTo) columns
      have between : (priorTo left right).lexemes =
          left.lexemes ++ .keyword .PRIOR :: .keyword .TO :: right.lexemes :=
        lexemes_join .priorTo left right
      have prior : Token.keyword .PRIOR ≠ .symbol .dot := by simp
      rw [between, List.append_assoc, List.cons_append, first each.1 outer before prior]
      exact second each.2 outer (some (.priorTo, leftward before left)) ends rest

theorem read?_lexemes {p : Preference Expr} (columns : p.OverColumns) :
    read? p.lexemes = some (leftward none p) := by
  have closing : Token.symbol .closeParen ≠ .symbol .dot := nofun
  rw [read?, run_lexemes columns [none] none closing []]
  rfl

end Reader

/-- Regrouping does not move a token. -/
theorem Regrouped.tokens_eq {alike : Joint → Joint → Prop} {p q : Preference ε} (f : ε → Tokens)
    (same : Regrouped alike p q) : (p.map f).tokens = (q.map f).tokens := by
  induction same with
  | refl p => rfl
  | symm _ ih => exact ih.symm
  | trans _ _ first second => exact first.trans second
  | assoc _ p q r => simp [map_join, tokens_join, spaced]
  | inverse _ ih => simp [map, tokens, ih]
  | join j _ _ left right => simp [map_join, tokens_join, left, right]

theorem regrouped_of_render_eq (quoting : d.mark? = some mark) {p q : Preference Expr}
    (first : p.OverColumns) (second : q.OverColumns)
    (same : render d (Preferring.of p) = render d (Preferring.of q)) :
    Regrouped AnyJoints p q := by
  have lexemes : p.lexemes = q.lexemes := by
    have texts := lex?_render quoting first
    rw [same, lex?_render quoting second] at texts
    exact (List.cons.inj (Option.some.inj texts)).2.symm
  have grouped : leftward none p = leftward none q := by
    have read := Reader.read?_lexemes first
    rw [lexemes, Reader.read?_lexemes second] at read
    exact (Option.some.inj read).symm
  have left := regrouped_leftward none p
  rw [grouped] at left
  exact .trans left (.symm (regrouped_leftward none q))

theorem Regrouped.render_eq {alike : Joint → Joint → Prop} {p q : Preference Expr}
    (d : Dialect) (same : Regrouped alike p q) :
    render d (Preferring.of p) = render d (Preferring.of q) := by
  rw [render, render, tokens_of, tokens_of, same.tokens_eq]

/-- Where identifiers are quoted, two terms over columns have the same text exactly
    when they differ in the grouping of neighbouring joins.  Joins of both kinds are
    neighbours, so only in a term that does not mix them the kinds stay apart. -/
theorem render_eq_iff_regrouped (quoting : d.mark? = some mark) {p q : Preference Expr}
    (first : p.OverColumns) (second : q.OverColumns) :
    (render d (Preferring.of p) = render d (Preferring.of q) ↔ Regrouped AnyJoints p q) ∧
      (p.Uniform →
        (render d (Preferring.of p) = render d (Preferring.of q) ↔ Regrouped (· = ·) p q)) := by
  have regrouped := regrouped_of_render_eq quoting first second
  constructor
  · exact ⟨regrouped, fun same => same.render_eq d⟩
  · intro uniform
    exact ⟨fun same => (regrouped same).uniform.2 uniform, fun same => same.render_eq d⟩

def highOf (column : String) : Preference Expr := .high (.column ⟨[column]⟩)

/-- Joins of one kind, and one of the other kind that `INVERSE` keeps to itself. -/
def plusOnLeft : Preference Expr :=
  plus (plus (highOf "a") (highOf "b")) (inverse (priorTo (highOf "c") (highOf "a")))

def plusOnRight : Preference Expr :=
  plus (highOf "a") (plus (highOf "b") (inverse (priorTo (highOf "c") (highOf "a"))))

theorem plusOnLeft_regrouped :
    plusOnLeft.OverColumns ∧ plusOnRight.OverColumns ∧ plusOnLeft.Uniform ∧
      render .postgresql (Preferring.of plusOnLeft) =
        render .postgresql (Preferring.of plusOnRight) ∧
      Regrouped (· = ·) plusOnLeft plusOnRight := by
  have first : plusOnLeft.OverColumns := by
    simp [plusOnLeft, OverColumns, values, highOf]
  have second : plusOnRight.OverColumns := by
    simp [plusOnRight, OverColumns, values, highOf]
  have uniform : plusOnLeft.Uniform := by
    simp [plusOnLeft, Uniform, Fits, root?, highOf]
  have law := render_eq_iff_regrouped (d := .postgresql) rfl first second
  have same : render .postgresql (Preferring.of plusOnLeft) =
      render .postgresql (Preferring.of plusOnRight) :=
    law.1.mpr (.assoc (i := .plus) (j := .plus) trivial _ _ _)
  exact ⟨first, second, uniform, same, (law.2 uniform).mp same⟩

def mixedOnLeft : Preference Expr := priorTo (plus (highOf "a") (highOf "b")) (highOf "c")

def mixedOnRight : Preference Expr := plus (highOf "a") (priorTo (highOf "b") (highOf "c"))

/-- Joins of different kinds are not kept apart. -/
theorem mixedOnLeft_not_regrouped :
    mixedOnLeft.OverColumns ∧ mixedOnRight.OverColumns ∧
      render .postgresql (Preferring.of mixedOnLeft) =
        render .postgresql (Preferring.of mixedOnRight) ∧
      ¬Regrouped (· = ·) mixedOnLeft mixedOnRight := by
  have same : Regrouped AnyJoints mixedOnLeft mixedOnRight :=
    .assoc (i := .plus) (j := .priorTo) trivial (highOf "a") (highOf "b") (highOf "c")
  refine ⟨?_, ?_, same.render_eq .postgresql, fun alike => ?_⟩
  · simp [mixedOnLeft, OverColumns, values, highOf]
  · simp [mixedOnRight, OverColumns, values, highOf]
  · exact Joint.noConfusion (Option.some.inj alike.root?_eq)

end SqlSelect.Preference
