import Mathlib
import SqlSelect.Proofs.Reader.Machine
import SqlSelect.Proofs.Reader.Written
namespace SqlSelect

open Phrase

namespace Expr

theorem conjuncts_of_level {e : Expr} (tight : 2 ≤ e.level) : e.conjuncts = [e] := by
  cases e with
  | all operands => exact absurd tight (by decide : ¬2 ≤ 1)
  | _ => rfl

theorem disjuncts_of_level {e : Expr} (tight : 1 ≤ e.level) : e.disjuncts = [e] := by
  cases e with
  | any operands => exact absurd tight (by decide : ¬1 ≤ 0)
  | _ => rfl

/-- Operands put together one by one make one list, when joining joins lists. -/
theorem foldl_flat {join : Expr → Expr → Expr} {build : List Expr → Expr} {parts : Expr → List Expr}
    (joins : ∀ a b, join a b = build (parts a ++ parts b)) (whole : ∀ es, parts (build es) = es)
    (first second : Expr) (more : List Expr) :
    (second :: more).foldl join first = build ((first :: second :: more).flatMap parts) := by
  induction more generalizing first second with
  | nil => simp [joins]
  | cons third more ih =>
      rw [List.foldl_cons, ih]
      simp [joins, whole]

end Expr

namespace Reader

variable {frames : List Frame} {rest : Tokens} {e : Expr} {j : Joint} {level : Nat}

/-- What waits before an expression does not tear it apart. -/
def Admits (level : Nat) : List Frame → Prop
  | .joint j _ :: _ => j.level < level
  | .not :: _ => 2 ≤ level
  | _ => True

/-- What comes after an expression does not tear it apart. -/
def Follows (level : Nat) (rest : Tokens) : Prop :=
  ∃ t later k, rest = t :: later ∧ reach? t = some k ∧ k ≤ level

theorem Admits.mono {higher : Nat} (admits : Admits level frames) (tighter : level ≤ higher) :
    Admits higher frames := by
  cases frames with
  | nil => trivial
  | cons frame frames =>
      cases frame with
      | joint j left => exact Nat.lt_of_lt_of_le admits tighter
      | not => exact Nat.le_trans admits tighter
      | opened bracket items => trivial

theorem Follows.mono {higher : Nat} (follows : Follows level rest) (tighter : level ≤ higher) :
    Follows higher rest := by
  obtain ⟨t, later, k, written, reaches, bound⟩ := follows
  exact ⟨t, later, k, written, reaches, Nat.le_trans bound tighter⟩

theorem Follows.of_reach {t : Token} {k : Nat} (reaches : reach? t = some k) (bound : k ≤ level)
    (later : Tokens) : Follows level (t :: later) :=
  ⟨t, later, k, rfl, reaches, bound⟩

theorem Follows.flatMap {t : Token} (reaches : reach? t = some level) (follows : Follows level rest)
    (es : List Expr) : Follows level (es.flatMap (fun e => t :: e.lexemes) ++ rest) := by
  cases es with
  | nil => exact follows
  | cons e es => exact .of_reach reaches (Nat.le_refl _) _

theorem follows_closeParen (rest : Tokens) : Follows 0 (.symbol .closeParen :: rest) :=
  .of_reach rfl (Nat.le_refl 0) rest

/-- What binds less tightly is left waiting.  Nothing has the level of a negation
    to its left. -/
theorem close_of_admits (admits : Admits level frames) (notNegation : level ≠ 2) :
    close level frames e = (frames, e) := by
  cases frames with
  | nil => rfl
  | cons frame frames =>
      cases frame with
      | joint j left => exact if_neg (Nat.not_le.mpr admits)
      | not =>
          have tighter : 2 ≤ level := admits
          exact if_neg (by omega)
      | opened bracket items => rfl

/-- An expression is read back where it can stand.  Something always comes after
    it, because it is read inside parentheses. -/
def Reads (e : Expr) : Prop :=
  ∀ frames rest, Admits e.level frames → Follows e.level rest →
    run ⟨frames, .operand⟩ (e.lexemes ++ rest) = run ⟨frames, .done e⟩ rest

theorem run_step {state next : State} {t : Token} (stepped : step state t = some next)
    (rest : Tokens) : run state (t :: rest) = run next rest := by
  rw [run_cons, stepped]
  rfl

theorem run_congr {state state' : State} {t : Token} (same : step state t = step state' t)
    (rest : Tokens) : run state (t :: rest) = run state' (t :: rest) := by
  rw [run_cons, run_cons, same]

theorem run_joint {left : Expr} (follows : Follows j.level rest) :
    run ⟨.joint j left :: frames, .done e⟩ rest = run ⟨frames, .done (j.join left e)⟩ rest := by
  obtain ⟨t, later, k, rfl, reaches, bound⟩ := follows
  exact run_congr (step_joint reaches bound) later

theorem run_not (follows : Follows 2 rest) :
    run ⟨.not :: frames, .done e⟩ rest = run ⟨frames, .done (.not e)⟩ rest := by
  obtain ⟨t, later, k, rfl, reaches, bound⟩ := follows
  exact run_congr (step_not reaches bound) later

theorem ofList_intText (i : Int) : String.ofList (intText i) = i.repr := by
  cases i with
  | ofNat n =>
      have notNegative : ¬(n : Int) < 0 := by omega
      simp [intText, Int.repr, natText, Nat.repr_eq_ofList_toDigits, notNegative]
  | negSucc n =>
      simp [intText, Int.repr, natText, Nat.repr_eq_ofList_toDigits, Int.negSucc_lt_zero]

theorem number?_intText (value : Int64) :
    number? [String.ofList (intText value.toInt)] = some (.literal (.int value)) := by
  rw [ofList_intText, number?, Int.toInt?_repr, Option.map_some, Int64.ofInt_toInt]

theorem run_word {parts : List String} (number : number? parts = some e)
    (follows : Follows level rest) :
    run ⟨frames, .word parts⟩ rest = run ⟨frames, .done e⟩ rest := by
  obtain ⟨t, later, k, rfl, reaches, bound⟩ := follows
  exact run_congr (step_word reaches number) later

/-- Parts with dots between them are collected one by one. -/
theorem run_parts (here dot : List String → Stage) (written : String → Token)
    (dots : ∀ parts, step ⟨frames, here parts⟩ (.symbol .dot) = some ⟨frames, dot parts⟩)
    (next : ∀ parts part, step ⟨frames, dot parts⟩ (written part) =
      some ⟨frames, here (parts ++ [part])⟩) (parts more : List String) :
    run ⟨frames, here parts⟩
        (more.flatMap (fun part => [.symbol .dot, written part]) ++ rest) =
      run ⟨frames, here (parts ++ more)⟩ rest := by
  induction more generalizing parts with
  | nil => simp
  | cons part more ih =>
      simp only [List.flatMap_cons, List.cons_append, List.nil_append]
      rw [run_step (dots parts), run_step (next parts part), ih, List.append_assoc]
      rfl

/-- Operands between joints of one level are put together from the left. -/
theorem run_joints (notNegation : j.level ≠ 2) (admits : Admits j.level frames)
    {operands : List Expr} (tight : ∀ e ∈ operands, j.level < e.level)
    (each : ∀ e ∈ operands, Reads e) (follows : Follows j.level rest) (first : Expr) :
    run ⟨frames, .done first⟩ (operands.flatMap (fun e => j.token :: e.lexemes) ++ rest) =
      run ⟨frames, .done (operands.foldl j.join first)⟩ rest := by
  induction operands generalizing first with
  | nil => rfl
  | cons e operands ih =>
      -- The operand is read while the joint waits, and what comes next puts the two together.
      have later := follows.flatMap (reach?_token j) operands
      have waits : step ⟨frames, .done first⟩ j.token =
          some ⟨.joint j first :: frames, .operand⟩ := by
        rw [step_done (reach?_token j), close_of_admits admits notNegation, resume_token]
      have tighter := tight e List.mem_cons_self
      rw [List.flatMap_cons, List.append_assoc, List.cons_append, run_step waits,
        each e List.mem_cons_self (.joint j first :: frames) _ tighter
          (later.mono (Nat.le_of_lt tighter)),
        run_joint later]
      exact ih (fun e' member => tight e' (List.mem_cons_of_mem e member))
        (fun e' member => each e' (List.mem_cons_of_mem e member)) (j.join first e)

theorem run_joined {first : Expr} {es : List Expr} (notNegation : j.level ≠ 2)
    (loose : j.level ≤ first.level) (tight : ∀ e ∈ es, j.level < e.level) (begins : Reads first)
    (each : ∀ e ∈ es, Reads e) (admits : Admits j.level frames) (follows : Follows j.level rest) :
    run ⟨frames, .operand⟩ (joined [j.token] ((first :: es).map Expr.lexemes) ++ rest) =
      run ⟨frames, .done (es.foldl j.join first)⟩ rest := by
  have later := follows.flatMap (reach?_token j) es
  rw [Expr.joined_lexemes, List.append_assoc, begins _ _ (admits.mono loose) (later.mono loose),
    run_joints notNegation admits tight each follows]

/-- The items inside parentheses are collected up to the closing one. -/
theorem run_items {bracket : Bracket} {items more : List Expr} (each : ∀ e ∈ more, Reads e) :
    run ⟨.opened bracket items :: frames, .done e⟩
        (more.flatMap (fun e => .symbol .comma :: e.lexemes) ++ .symbol .closeParen :: rest) =
      (closeParen (.opened bracket items :: frames) (e :: more)).bind (run · rest) := by
  induction more generalizing items e with
  | nil => exact run_cons ..
  | cons e' more ih =>
      have later := Follows.flatMap (t := .symbol .comma) rfl (follows_closeParen rest) more
      have comma : step ⟨.opened bracket items :: frames, .done e⟩ (.symbol .comma) =
          some ⟨.opened bracket (items ++ [e]) :: frames, .operand⟩ := rfl
      rw [List.flatMap_cons, List.append_assoc, List.cons_append, run_step comma,
        each e' List.mem_cons_self (.opened bracket (items ++ [e]) :: frames) _ trivial
          (later.mono (Nat.zero_le _)),
        ih fun e'' member => each e'' (List.mem_cons_of_mem e' member)]
      simp [closeParen]

theorem run_list {bracket : Bracket} {es : List Expr} {closed : Expr} (each : ∀ e ∈ es, Reads e)
    (closes : bracket.close? es = some closed) :
    run ⟨.opened bracket [] :: frames, .operand⟩
        (joined [.symbol .comma] (es.map Expr.lexemes) ++ .symbol .closeParen :: rest) =
      run ⟨frames, .done closed⟩ rest := by
  have ended : closeParen (.opened bracket [] :: frames) es = some ⟨frames, .done closed⟩ := by
    simp [closeParen, closes]
  cases es with
  | nil =>
      have empty : step ⟨.opened bracket [] :: frames, .operand⟩ (.symbol .closeParen) =
          some ⟨frames, .done closed⟩ := ended
      exact run_step empty rest
  | cons e es =>
      have later := Follows.flatMap (t := .symbol .comma) rfl (follows_closeParen rest) es
      rw [Expr.joined_lexemes, List.append_assoc,
        each e List.mem_cons_self (.opened bracket [] :: frames) _ trivial
          (later.mono (Nat.zero_le _)),
        run_items fun e' member => each e' (List.mem_cons_of_mem e member), ended]
      rfl

theorem Reads.column {name : Name} (named : name.parts ≠ []) : Reads (.column name) := by
  intro frames rest _ _
  obtain ⟨parts⟩ := name
  obtain ⟨part, more, rfl⟩ := List.exists_cons_of_ne_nil named
  have begins : step ⟨frames, .operand⟩ (.ident part) =
      some ⟨frames, .done (.column ⟨[part]⟩)⟩ := rfl
  rw [Expr.lexemes_column, Tokens.joined_parts, List.cons_append, run_step begins]
  exact run_parts (fun parts => .done (.column ⟨parts⟩)) .columnDot .ident (fun _ => rfl)
    (fun _ _ => rfl) [part] more

theorem Reads.literal {value : Literal} (exact : ∀ x, value ≠ .double x) :
    Reads (.literal value) := by
  intro frames rest _ follows
  cases value with
  | null => exact run_step rfl rest
  | bool value =>
      cases value with
      | false => exact run_step rfl rest
      | true => exact run_step rfl rest
  | int value =>
      have begins : step ⟨frames, .operand⟩ (.bare (String.ofList (intText value.toInt))) =
          some ⟨frames, .word [String.ofList (intText value.toInt)]⟩ := rfl
      exact (run_step begins rest).trans (run_word (number?_intText value) follows)
  | double value => exact absurd rfl (exact value)
  | string contents => exact run_step rfl rest

theorem Reads.call {c : Call Expr} (named : c.function.parts ≠ []) (args : ∀ e ∈ c.args, Reads e) :
    Reads (.call c) := by
  intro frames rest _ _
  obtain ⟨⟨parts⟩, es, distinct⟩ := c
  obtain ⟨part, more, rfl⟩ := List.exists_cons_of_ne_nil named
  let items : Tokens := joined [.symbol .comma] (es.map Expr.lexemes) ++ .symbol .closeParen :: rest
  have written : (Expr.call ⟨⟨part :: more⟩, es, distinct⟩).lexemes ++ rest =
      Token.bare part :: (more.flatMap (fun part => [Token.symbol .dot, .bare part]) ++
        Token.symbol .openParen :: (onlyIf distinct (word .DISTINCT) ++ items)) := by
    rw [Expr.lexemes_call, Tokens.joined_parts]
    simp [parens, items]
  have listed : run ⟨.opened (.args ⟨part :: more⟩ distinct) [] :: frames, .operand⟩ items =
      run ⟨frames, .done (.call ⟨⟨part :: more⟩, es, distinct⟩)⟩ rest := run_list args rfl
  rw [written]
  calc
    _ = run ⟨frames, .word [part]⟩ _ := run_step rfl _
    _ = run ⟨frames, .word (part :: more)⟩ _ :=
        run_parts .word .wordDot .bare (fun _ => rfl) (fun _ _ => rfl) [part] more
    _ = run ⟨.opened (.args ⟨part :: more⟩ false) [] :: frames, .operand⟩ _ := run_step rfl _
    _ = run ⟨.opened (.args ⟨part :: more⟩ distinct) [] :: frames, .operand⟩ items := by
        cases distinct with
        | false => rfl
        | true => exact run_step rfl _
    _ = _ := listed

theorem Reads.nested {inner : Expr} (inside : Reads inner) : Reads (.nested inner) := by
  intro frames rest _ _
  have opens : step ⟨frames, .operand⟩ (.symbol .openParen) =
      some ⟨.opened .nested [] :: frames, .operand⟩ := rfl
  have later : Follows inner.level (.symbol .closeParen :: rest) :=
    (follows_closeParen rest).mono (Nat.zero_le _)
  rw [Expr.lexemes_nested, parens, List.cons_append, run_step opens, List.append_assoc,
    List.singleton_append, inside (.opened .nested [] :: frames) _ trivial later]
  exact run_step rfl rest

/-- The words of a test come after the whole expression that is tested. -/
theorem Reads.tested {subject : Expr} (tight : 4 ≤ subject.level) (tested : Reads subject)
    (admits : Admits 3 frames) {t : Token} (reaches : reach? t = some 3) (later : Tokens) :
    run ⟨frames, .operand⟩ (subject.lexemes ++ t :: later) =
      (resume frames subject t).bind (run · later) := by
  have looser : 3 ≤ subject.level := Nat.le_of_succ_le tight
  rw [tested frames _ (admits.mono looser) (.of_reach reaches looser later), run_cons,
    step_done reaches, close_of_admits admits (by decide)]

theorem Reads.inList {subject : Expr} {members : List Expr} {negated : Bool}
    (tight : 4 ≤ subject.level) (tested : Reads subject) (listed : ∀ e ∈ members, Reads e) :
    Reads (.inList subject members negated) := by
  intro frames rest admits _
  let items : Tokens :=
    joined [.symbol .comma] (members.map Expr.lexemes) ++ .symbol .closeParen :: rest
  have written : (Expr.inList subject members negated).lexemes ++ rest =
      subject.lexemes ++
        (onlyIf negated (word .NOT) ++ .keyword .IN :: .symbol .openParen :: items) := by
    rw [Expr.lexemes_inList]
    simp [parens, items]
  rw [written]
  calc
    _ = run ⟨frames, .afterIn subject negated⟩ (.symbol .openParen :: items) := by
        cases negated with
        | false => exact tested.tested tight admits rfl _
        | true => exact (tested.tested tight admits rfl _).trans (run_step rfl _)
    _ = run ⟨.opened (.members subject negated) [] :: frames, .operand⟩ items := run_step rfl _
    _ = _ := run_list listed rfl

theorem Reads.isNull {subject : Expr} {negated : Bool} (tight : 4 ≤ subject.level)
    (tested : Reads subject) : Reads (.isNull subject negated) := by
  intro frames rest admits _
  rw [Expr.lexemes_isNull, List.append_assoc]
  refine (tested.tested tight admits rfl _).trans ?_
  cases negated with
  | false => exact run_step rfl rest
  | true => exact (run_step rfl _).trans (run_step rfl rest)

theorem Reads.not {operand : Expr} (tight : 2 ≤ operand.level) (negated : Reads operand) :
    Reads (.not operand) := by
  intro frames rest _ follows
  have begins : step ⟨frames, .operand⟩ (.keyword .NOT) = some ⟨.not :: frames, .operand⟩ := rfl
  rw [Expr.lexemes_not, List.cons_append, run_step begins,
    negated (.not :: frames) rest tight (follows.mono tight), run_not follows]

/-- Conjunctions and disjunctions are read as one list of operands, because none
    of the operands is a list of the same kind. -/
theorem Reads.flat {build : List Expr → Expr} {parts : Expr → List Expr}
    (notNegation : j.level ≠ 2) (level : ∀ es, (build es).level = j.level)
    (written : ∀ es, (build es).lexemes = joined [j.token] (es.map Expr.lexemes))
    (joins : ∀ a b, j.join a b = build (parts a ++ parts b)) (whole : ∀ es, parts (build es) = es)
    (alone : ∀ e, j.level < e.level → parts e = [e]) {operands : List Expr}
    (several : 2 ≤ operands.length) (tight : ∀ e ∈ operands, j.level < e.level)
    (each : ∀ e ∈ operands, Reads e) : Reads (build operands) := by
  intro frames rest admits follows
  rw [level] at admits follows
  have flat : operands.flatMap parts = operands := by
    rw [List.flatMap_congr fun e member => alone e (tight e member), List.flatMap_singleton']
  match operands, several with
  | first :: second :: more, _ =>
      rw [written, run_joined notNegation (Nat.le_of_lt (tight first List.mem_cons_self))
        (fun e member => tight e (List.mem_cons_of_mem first member))
        (each first List.mem_cons_self)
        (fun e member => each e (List.mem_cons_of_mem first member)) admits follows,
        Expr.foldl_flat joins whole, flat]

theorem Reads.all {operands : List Expr} (several : 2 ≤ operands.length)
    (tight : ∀ e ∈ operands, 2 ≤ e.level) (each : ∀ e ∈ operands, Reads e) :
    Reads (.all operands) :=
  .flat (j := .and) (by decide) (fun _ => rfl) Expr.lexemes_all Expr.and_eq (fun _ => rfl)
    (fun _ => Expr.conjuncts_of_level) several tight each

theorem Reads.any {operands : List Expr} (several : 2 ≤ operands.length)
    (tight : ∀ e ∈ operands, 1 ≤ e.level) (each : ∀ e ∈ operands, Reads e) :
    Reads (.any operands) :=
  .flat (j := .or) (by decide) (fun _ => rfl) Expr.lexemes_any Expr.or_eq (fun _ => rfl)
    (fun _ => Expr.disjuncts_of_level) several tight each

theorem Reads.binary {op : Operator} {left right : Expr} (leftTight : op.leftLevel ≤ left.level)
    (rightTight : op.level + 1 ≤ right.level) (first : Reads left) (second : Reads right) :
    Reads (.binary op left right) := by
  intro frames rest admits follows
  have notNegation : (Joint.operator op).level ≠ 2 := by cases op <;> decide
  have written : (Expr.binary op left right).lexemes =
      joined [(Joint.operator op).token] ([left, right].map Expr.lexemes) := by
    simp [Expr.lexemes_binary, joined, Joint.token]
  rw [written]
  exact run_joined notNegation (Nat.le_trans op.level_le_leftLevel leftTight)
    (List.forall_mem_singleton.mpr rightTight) first (List.forall_mem_singleton.mpr second) admits
    follows

end Reader

namespace Expr

variable {d : Dialect} {mark : Char} {a b e : Expr}

theorem Grouped.reads (grouped : e.Grouped) : Reader.Reads e := by
  induction grouped with
  | column named => exact .column named
  | literal exact => exact .literal exact
  | call named _ _ args => exact .call named args
  | nested _ inside => exact .nested inside
  | inList tight _ _ tested listed => exact .inList tight tested listed
  | isNull tight _ tested => exact .isNull tight tested
  | not tight _ negated => exact .not tight negated
  | all several tight _ each => exact .all several tight each
  | any several tight _ each => exact .any several tight each
  | binary leftTight rightTight _ _ first second => exact .binary leftTight rightTight first second

theorem Grouped.read?_lexemes (grouped : e.Grouped) : Reader.read? e.lexemes = some e := by
  have follows : Reader.Follows e.level [.symbol .closeParen] :=
    (Reader.follows_closeParen []).mono (Nat.zero_le _)
  rw [Reader.read?, grouped.reads [.opened .nested []] _ trivial follows]
  rfl

/-- The expression that a text is, in a dialect that quotes identifiers. -/
def read? (mark : Char) (text : String) : Option Expr :=
  (lex? mark text.toList).bind Reader.read?

/-- A grouped expression is read back from its text. -/
theorem Grouped.read?_render (quoting : d.mark? = some mark) (grouped : e.Grouped) :
    read? mark (render d e) = some e := by
  rw [read?, grouped.lex?_render quoting, Option.bind_some, grouped.read?_lexemes]

/-- Where identifiers are quoted, grouped expressions with the same text are the
    same. -/
theorem render_inj_of_grouped (quoting : d.mark? = some mark) (first : a.Grouped)
    (second : b.Grouped) : render d a = render d b ↔ a = b := by
  constructor
  · intro same
    have read := first.read?_render quoting
    rw [same, second.read?_render quoting] at read
    exact (Option.some.inj read).symm
  · rintro rfl
    rfl

/-- `a - b - -1 IN ()`. -/
def fromLeft : Expr :=
  .inList (.binary .sub (.binary .sub (.column ⟨["a"]⟩) (.column ⟨["b"]⟩)) (.literal (.int (-1))))
    [] false

/-- `a - (b - -1) IN ()`. -/
def fromRight : Expr :=
  .inList (.binary .sub (.column ⟨["a"]⟩)
    (.nested (.binary .sub (.column ⟨["b"]⟩) (.literal (.int (-1)))))) [] false

theorem grouped_fromLeft : fromLeft.Grouped := by
  have column (part : String) : Grouped (.column ⟨[part]⟩) := .column nofun
  have one : Grouped (.literal (.int (-1))) := .literal nofun
  refine .inList (by decide) (.binary (by decide) (by decide) ?_ one) nofun
  exact .binary (by decide) (by decide) (column "a") (column "b")

theorem grouped_fromRight : fromRight.Grouped := by
  have column (part : String) : Grouped (.column ⟨[part]⟩) := .column nofun
  have one : Grouped (.literal (.int (-1))) := .literal nofun
  refine .inList (by decide) (.binary (by decide) (by decide) (column "a") (.nested ?_)) nofun
  exact .binary (by decide) (by decide) (column "b") one

theorem render_inj_differences : Dialect.mysql.mark? = some '\x60' ∧ fromLeft.Grouped ∧
    fromRight.Grouped ∧
    (render .mysql fromLeft = render .mysql fromRight ↔ fromLeft = fromRight) :=
  ⟨rfl, grouped_fromLeft, grouped_fromRight,
    render_inj_of_grouped rfl grouped_fromLeft grouped_fromRight⟩

/-- An operand that does not bind tightly enough is torn apart. -/
example (d : Dialect) (a b c : Expr) :
    render d (Expr.binary .sub a (.binary .sub b c)) =
      render d (Expr.binary .sub (.binary .sub a b) c) := by
  simp [render, Written.tokens, tokens_binary, spaced]

end Expr
end SqlSelect
