import SqlSelect.Proofs.Tree.Rewriting
namespace SqlSelect

/-!
# Inert slots

Some slots are not written: most clauses of a select without a source, the
qualifiers of a join that others outrank, a group of vendor clauses in which
nothing is set.  A tree is settled when every such slot is empty, and settling it
does not change its text.
-/

open Phrase

variable {ε κ α β : Type} {d : Dialect}

namespace JoinKind

/-- Only the side and the manner that are written. -/
def settled (k : JoinKind) : JoinKind where
  natural := k.natural
  right := k.right
  full := k.full && !k.right
  left := k.left && !(k.right || k.full)
  cross := k.cross && !(k.right || k.full || k.left)
  outer := k.outer
  inner := k.inner && !k.outer
  semi := k.semi && !(k.outer || k.inner)

theorem side?_settled (k : JoinKind) : k.settled.side? = k.side? := by
  obtain ⟨natural, left, right, full, cross, outer, inner, semi⟩ := k
  cases right <;> cases full <;> cases left <;> cases cross <;> rfl

theorem manner?_settled (k : JoinKind) : k.settled.manner? = k.manner? := by
  obtain ⟨natural, left, right, full, cross, outer, inner, semi⟩ := k
  cases outer <;> cases inner <;> cases semi <;> rfl

end JoinKind

namespace Join

/-- A list entry keeps only whether it is outer.  Of the words that stand for
    `JOIN` the first one set is written, and a hint only without either. -/
def settled (j : Join ε κ) : Join ε κ :=
  if j.simple then
    { j with
      kind := { outer := j.kind.outer }
      straight := false
      apply := false
      hint? := none
      within? := none }
  else
    { j with
      kind := j.kind.settled
      apply := j.apply && !j.straight
      hint? := if j.straight || j.apply then none else j.hint? }

theorem settled_map (f : ε → α) (g : κ → β) (j : Join ε κ) :
    j.settled.map f g = (j.map f g).settled := by
  unfold settled
  cases simple : j.simple <;> simp [map, simple]

theorem hintTokens_settled {j : Join ε κ} (worded : j.simple = false) :
    j.settled.hintTokens.chars d = j.hintTokens.chars d := by
  obtain ⟨source, kind, global, straight, apply, simple, hint?, on, columns, within?⟩ := j
  subst worded
  cases straight <;> cases apply <;> cases hint? <;> rfl

theorem keyword_settled {j : Join ε κ} (worded : j.simple = false) :
    j.settled.keyword = j.keyword := by
  obtain ⟨source, kind, global, straight, apply, simple, hint?, on, columns, within?⟩ := j
  subst worded
  cases straight <;> cases apply <;> rfl

theorem head_settled (j : Join ε κ) : j.settled.head.chars d = j.head.chars d := by
  cases simple : j.simple with
  | true => simp [head, settled, simple]
  | false =>
      have worded : j.settled.simple = false := by simp [settled, simple]
      have kind : j.settled.kind = j.kind.settled := by simp [settled, simple]
      have natural : j.kind.settled.natural = j.kind.natural := rfl
      simp only [head, simple, worded, kind, natural, Bool.false_eq_true, if_false,
        Tokens.chars_append, JoinKind.side?_settled, JoinKind.manner?_settled,
        hintTokens_settled simple, keyword_settled simple]

theorem chars_settled (j : Join Tokens Tokens) : j.settled.tokens.chars d = j.tokens.chars d := by
  have same : j.settled.global = j.global ∧ j.settled.source = j.source ∧
      j.settled.windowTokens = j.windowTokens ∧ j.settled.conditions = j.conditions := by
    unfold settled
    cases simple : j.simple <;> simp [windowTokens, conditions, simple]
  obtain ⟨global, source, window, conditions⟩ := same
  simp only [tokens, Tokens.chars_append, global, source, window, conditions, head_settled]

theorem listed_settled (j : Join Tokens Tokens) :
    j.settled.listed.chars d = j.listed.chars d := by
  have simple : j.settled.simple = j.simple := by
    unfold settled
    split <;> rfl
  simp only [listed, spaced, simple, Tokens.chars_append, Tokens.chars_cons, chars_settled]

end Join

theorem Phrase.optional_filter {f : α → Tokens} {keep : α → Bool}
    (silent : ∀ a, keep a = false → f a = []) (a? : Option α) :
    optional f (a?.filter keep) = optional f a? := by
  cases a? with
  | none => rfl
  | some a =>
      cases kept : keep a with
      | true => rw [Option.filter_some_pos kept]
      | false =>
          rw [Option.filter_some_neg (by simp [kept])]
          exact (silent a kept).symm

def MySqlClauses.settled (m? : Option MySqlClauses) : Option MySqlClauses := m?.filter (· != {})

theorem MySqlClauses.optional_settled {f : MySqlClauses → Tokens} (silent : f {} = [])
    (m? : Option MySqlClauses) : optional f (settled m?) = optional f m? := by
  refine optional_filter (fun m unset => ?_) m?
  obtain rfl : m = {} := by simpa using unset
  exact silent

def OracleClauses.settled (o? : Option (OracleClauses ε)) : Option (OracleClauses ε) :=
  o?.filter fun o => o.hint?.isSome || o.hierarchy?.isSome

theorem OracleClauses.settled_map (f : ε → α) (o? : Option (OracleClauses ε)) :
    (settled o?).map (·.map f) = settled (o?.map (·.map f)) := by
  simp [settled, map, Option.filter_map, Function.comp_def]

theorem OracleClauses.optional_settled {f : OracleClauses ε → Tokens} (silent : f {} = [])
    (o? : Option (OracleClauses ε)) : optional f (settled o?) = optional f o? := by
  refine optional_filter (fun o unset => ?_) o?
  obtain ⟨hint?, hierarchy?⟩ := o
  obtain ⟨rfl, rfl⟩ : hint? = none ∧ hierarchy? = none := by simpa using unset
  exact silent

def InformixClauses.settled (i? : Option (InformixClauses ε)) : Option (InformixClauses ε) :=
  i?.filter fun i => i.skip?.isSome || i.first?.isSome || i.intoTemp?.isSome || i.noLog

theorem InformixClauses.settled_map (f : ε → α) (i? : Option (InformixClauses ε)) :
    (settled i?).map (·.map f) = settled (i?.map (·.map f)) := by
  simp [settled, map, Option.filter_map, Function.comp_def]

theorem InformixClauses.optional_settled {f : InformixClauses ε → Tokens} (silent : f {} = [])
    (i? : Option (InformixClauses ε)) : optional f (settled i?) = optional f i? := by
  refine optional_filter (fun i unset => ?_) i?
  obtain ⟨skip?, first?, intoTemp?, noLog⟩ := i
  obtain ⟨⟨⟨rfl, rfl⟩, rfl⟩, rfl⟩ :
      ((skip? = none ∧ first? = none) ∧ intoTemp? = none) ∧ noLog = false := by
    simpa using unset
  exact silent

def StreamClauses.settled (c? : Option StreamClauses) : Option StreamClauses := c?.filter (· != {})

theorem StreamClauses.optional_settled {f : StreamClauses → Tokens} (silent : f {} = [])
    (c? : Option StreamClauses) : optional f (settled c?) = optional f c? := by
  refine optional_filter (fun c unset => ?_) c?
  obtain rfl : c = {} := by simpa using unset
  exact silent

namespace Select

/-- A select without a source has none of the clauses that need one. -/
def gated (s : Select ε κ) : Select ε κ :=
  match s.source? with
  | some _ => s
  | none =>
      { s with
        joins := []
        lateralViews := []
        groupBy? := none
        having? := none
        qualify? := none
        preferring? := none
        windows := []
        merged := false
        only := false
        oracle? := s.oracle?.map ({ · with hierarchy? := none })
        stream? := none }

theorem gated_map (f : ε → α) (g : κ → β) (s : Select ε κ) :
    s.gated.map f g = (s.map f g).gated := by
  cases present : s.source? with
  | some source => simp [gated, map, present]
  | none => simp [gated, map, present, OracleClauses.map, Function.comp_def]

theorem main_gated (s : Select Tokens Tokens) : s.gated.main = s.main := by
  cases present : s.source? with
  | some source => simp only [gated, present]
  | none =>
      have head : s.gated.head = s.head := by
        simp only [gated, present, Select.head]
        cases s.oracle? <;> rfl
      simp only [main, head]
      simp only [gated, present]

theorem tail_gated (s : Select ε κ) : s.gated.tail = s.tail := by
  cases present : s.source? <;> simp only [gated, present, tail]

/-- Joins and vendor clauses without what they do not write. -/
def trimmed (s : Select ε κ) : Select ε κ :=
  { s with
    joins := s.joins.map Join.settled
    mysql? := MySqlClauses.settled s.mysql?
    oracle? := OracleClauses.settled s.oracle?
    informix? := InformixClauses.settled s.informix?
    stream? := StreamClauses.settled s.stream? }

theorem trimmed_map (f : ε → α) (g : κ → β) (s : Select ε κ) :
    s.trimmed.map f g = (s.map f g).trimmed := by
  simp [trimmed, map, OracleClauses.settled_map, InformixClauses.settled_map, Join.settled_map,
    Function.comp_def]

theorem head_trimmed (s : Select Tokens κ) : s.trimmed.head = s.head := by
  rw [head, head]
  simp only [trimmed]
  rw [OracleClauses.optional_settled, InformixClauses.optional_settled,
    MySqlClauses.optional_settled, MySqlClauses.optional_settled] <;> rfl

theorem chars_joins_settled (js : List (Join Tokens Tokens)) :
    Tokens.chars d ((js.map Join.settled).flatMap Join.listed) =
      Tokens.chars d (js.flatMap Join.listed) := by
  induction js with
  | nil => rfl
  | cons j rest ih =>
      simp only [List.map_cons, List.flatMap_cons, Tokens.chars_append, Join.listed_settled, ih]

theorem fromClause_trimmed (s : Select Tokens Tokens) (source : Relation Tokens Tokens) :
    (s.trimmed.fromClause source).chars d = (s.fromClause source).chars d := by
  rw [fromClause, fromClause]
  simp only [trimmed]
  rw [OracleClauses.optional_settled, StreamClauses.optional_settled,
    StreamClauses.optional_settled]
  · simp only [Tokens.chars_append, chars_joins_settled]
  all_goals rfl

theorem main_trimmed (s : Select Tokens Tokens) : s.trimmed.main.chars d = s.main.chars d := by
  have temp : optional InformixClauses.intoTokens s.trimmed.informix? =
      optional InformixClauses.intoTokens s.informix? :=
    InformixClauses.optional_settled rfl s.informix?
  have items : s.trimmed.items = s.items := rfl
  have into : s.trimmed.into = s.into := rfl
  have source : s.trimmed.source? = s.source? := rfl
  have filter : s.trimmed.filter? = s.filter? := rfl
  simp only [main, head_trimmed, temp, items, into, source, filter, Tokens.chars_append]
  cases s.source? with
  | none => rfl
  | some relation => simp only [fromClause_trimmed]

def settled (s : Select ε κ) : Select ε κ := s.gated.trimmed

theorem settled_map (f : ε → α) (g : κ → β) (s : Select ε κ) :
    s.settled.map f g = (s.map f g).settled := by
  rw [settled, trimmed_map, gated_map, settled]

theorem main_settled (s : Select Tokens Tokens) : s.settled.main.chars d = s.main.chars d := by
  rw [settled, main_trimmed, main_gated]

theorem tail_settled (s : Select ε κ) : s.settled.tail = s.tail := tail_gated s

end Select

def settling : Rewriting where
  select := Select.settled
  envelope e := e
  select_map := Select.settled_map
  envelope_map _ _ _ := rfl

theorem settling_unseen : settling.Unseen d where
  main := Select.main_settled
  tail s := congrArg (Tokens.chars d) s.tail_settled
  leading _ := rfl
  trailing _ := rfl

def Join.settledTree (j : Join Expr Query) : Join Expr Query :=
  (j.map settling.expr settling.query).settled

theorem Join.chars_settledTree (j : Join Expr Query) :
    (Written.tokens j.settledTree).chars d = (Written.tokens j).chars d := by
  have parts : (j.map settling.expr settling.query).map Expr.tokens Query.tokens =
      j.map settling.writing.ofExpr settling.writing.ofQuery := by
    have parts := settling.writing_hom.ofJoin j
    rw [Interpretation.ofJoin_eq, Interpretation.ofJoin_eq] at parts
    exact parts
  have written : Written.tokens j.settledTree =
      (j.map settling.writing.ofExpr settling.writing.ofQuery).settled.tokens := by
    rw [← parts, ← Join.settled_map]
    rfl
  rw [written, Join.chars_settled]
  exact (j.parallel.chars_eq settling_unseen.related.ofExpr settling_unseen.related.ofQuery).symm

/-- A tree that can be rendered by itself. -/
inductive Tree where
  | query (query : Query)
  | select (select : Select Expr Query)
  | join (join : Join Expr Query)
  | expr (expr : Expr)

namespace Tree

def tokens : Tree → Tokens
  | .query q => Written.tokens q
  | .select s => Written.tokens s
  | .join j => Written.tokens j
  | .expr e => Written.tokens e

instance : Written Tree := ⟨tokens⟩

/-- The tree with every slot empty that is not written. -/
def settled : Tree → Tree
  | .query q => .query (settling.query q)
  | .select s => .select (settling.selectTree s)
  | .join j => .join j.settledTree
  | .expr e => .expr (settling.expr e)

theorem render_settled (t : Tree) : render d t.settled = render d t := by
  have chars : t.settled.tokens.chars d = t.tokens.chars d := by
    cases t with
    | query q => exact settling_unseen.chars_query q
    | select s => exact settling_unseen.chars_select s
    | join j => exact j.chars_settledTree
    | expr e => exact settling_unseen.chars_expr e
  exact congrArg String.ofList chars

/-- Trees that differ in inert slots only, at any depth, have the same text. -/
theorem render_eq_of_settled {a b : Tree} (alike : a.settled = b.settled) (d : Dialect) :
    render d a = render d b := by
  rw [← render_settled a, alike, render_settled b]

/-- A join onto a subquery, at each end of which something is not written. -/
def overloaded (side : JoinKind) (clauses? : Option MySqlClauses) (inner : Select Expr Query) :
    Tree :=
  .query (.ofSelect
    { Select.fromSource (.table (.ofText "t")) with
      joins := [{ source := .subquery (.ofSelect inner) none false, kind := side, straight := true }]
      mysql? := clauses? })

theorem render_eq_of_overloaded :
    let bare : Tree := overloaded { right := true } none {}
    let dressed : Tree := overloaded { right := true, left := true, cross := true } (some {})
      { joins := [{ source := .table (.ofText "u"), simple := true }], merged := true }
    dressed.settled = bare.settled ∧ render .mysql dressed = render .mysql bare :=
  ⟨rfl, render_eq_of_settled rfl .mysql⟩

end Tree
end SqlSelect
