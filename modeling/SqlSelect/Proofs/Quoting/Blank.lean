import SqlSelect.Proofs.Tree.Homomorphism
import SqlSelect.Tree.Tokens
namespace SqlSelect

/-! A blanked tree has empty text wherever the caller gave a name or a string.  Trees
with the same blanked tree differ only in the contents of names and strings, and
so do the tokens written for them.
-/

variable {ε κ α β : Type}

/-- The token without the contents of a name or a string. -/
def Token.blank : Token → Token
  | .ident _ => .ident ""
  | .string _ => .string ""
  | t => t

namespace Tokens

open Phrase

def blank (ts : Tokens) : Tokens := ts.map Token.blank

@[simp] theorem blank_nil : blank [] = [] := rfl

@[simp] theorem blank_append (x y : Tokens) : blank (x ++ y) = blank x ++ blank y :=
  List.map_append

@[simp] theorem blank_cons (t : Token) (rest : Tokens) :
    blank (t :: rest) = t.blank :: blank rest := rfl

@[simp] theorem blank_word (k : Keyword) : blank (word k) = word k := rfl

@[simp] theorem blank_mark (s : Symbol) : blank (mark s) = mark s := rfl

@[simp] theorem blank_words (ks : List Keyword) : blank (words ks) = words ks := by
  induction ks with
  | nil => rfl
  | cons k rest ih =>
      cases rest with
      | nil => rfl
      | cons k' rest => simp only [words, blank_cons, ih, Token.blank]

@[simp] theorem blank_spaced (x : Tokens) : blank (spaced x) = spaced (blank x) := rfl

@[simp] theorem blank_thenSpace (x : Tokens) : blank (thenSpace x) = thenSpace (blank x) := by
  simp [thenSpace, Token.blank]

@[simp] theorem blank_parens (x : Tokens) : blank (parens x) = parens (blank x) := by
  simp [parens, Token.blank]

@[simp] theorem blank_onlyIf (flag : Bool) (x : Tokens) :
    blank (onlyIf flag x) = onlyIf flag (blank x) := by
  cases flag <;> rfl

@[simp] theorem blank_optional (f : α → Tokens) (a : Option α) :
    blank (optional f a) = optional (fun x => blank (f x)) a := by
  cases a <;> rfl

@[simp] theorem optional_map (f : α → Tokens) (h : β → α) (a : Option β) :
    optional f (a.map h) = optional (fun x => f (h x)) a := by
  cases a <;> rfl

@[simp] theorem blank_nonempty (f : List α → Tokens) (xs : List α) :
    blank (nonempty f xs) = nonempty (fun xs => blank (f xs)) xs := by
  cases xs <;> rfl

@[simp] theorem nonempty_map (f : List α → Tokens) (h : β → α) (xs : List β) :
    nonempty f (xs.map h) = nonempty (fun xs => f (xs.map h)) xs := by
  cases xs <;> rfl

@[simp] theorem blank_flatMap (f : α → Tokens) (xs : List α) :
    blank (xs.flatMap f) = xs.flatMap fun x => blank (f x) :=
  List.map_flatMap ..

theorem blank_joined (separator : Tokens) (xs : List Tokens) :
    blank (joined separator xs) = joined (blank separator) (xs.map blank) := by
  cases xs with
  | nil => rfl
  | cons x rest => simp [joined, List.flatMap_map]

@[simp] theorem blank_commas (xs : List Tokens) : blank (commas xs) = commas (xs.map blank) :=
  blank_joined _ xs

end Tokens

def blankNames (names : List String) : List String := names.map fun _ => ""

theorem blank_idents (names : List String) :
    (blankNames names).map (fun name => [Token.ident name]) =
      (names.map fun name => [Token.ident name]).map Tokens.blank := by
  rw [blankNames, List.map_map, List.map_map]
  rfl

theorem nonempty_blankNames (f : List String → Tokens) (names : List String) :
    Phrase.nonempty f (blankNames names) = Phrase.nonempty (fun xs => f (blankNames xs)) names :=
  Tokens.nonempty_map f _ names

def Name.blank (n : Name) : Name := ⟨blankNames n.parts⟩

@[simp] theorem Name.tokens_blank (n : Name) : n.blank.tokens = n.tokens.blank := by
  rw [Name.tokens, Name.tokens, Tokens.blank_joined, Name.blank, blank_idents]
  rfl

def Alias.blank (a : Alias) : Alias := { a with name := "" }

@[simp] theorem Alias.tokens_blank (a : Alias) : a.blank.tokens = a.tokens.blank := by
  simp [Alias.tokens, Alias.blank, Token.blank]

@[simp] theorem Alias.suffix_blank (a : Option Alias) :
    Alias.suffix (a.map Alias.blank) = (Alias.suffix a).blank := by
  simp [Alias.suffix]

def Table.blank (t : Table) : Table := ⟨t.name.blank, t.alias?.map Alias.blank⟩

@[simp] theorem Table.tokens_blank (t : Table) : t.blank.tokens = t.tokens.blank := by
  simp [Table.tokens, Table.blank]

def Literal.blank : Literal → Literal
  | .string _ => .string ""
  | v => v

@[simp] theorem Literal.tokens_blank (v : Literal) : v.blank.tokens = v.tokens.blank := by
  cases v with
  | bool value => cases value <;> rfl
  | _ => rfl

@[simp] theorem Call.tokens_blank (c : Call Tokens) :
    (c.map Tokens.blank).tokens = c.tokens.blank := by
  simp [Call.tokens, Call.map, Tokens.blank_joined, Token.blank, Function.comp_def]

def Item.blank : Item ε → Item ε
  | .wildcard => .wildcard
  | .wildcardOf relation => .wildcardOf relation.blank
  | .expr value alias? => .expr value (alias?.map Alias.blank)

@[simp] theorem Item.tokens_blank (i : Item Tokens) :
    (i.map Tokens.blank).blank.tokens = i.tokens.blank := by
  cases i <;> simp [Item.tokens, Item.map, Item.blank, Token.blank]

def Relation.blank : Relation ε κ → Relation ε κ
  | .table t => .table t.blank
  | .subquery query alias? lateral => .subquery query (alias?.map Alias.blank) lateral
  | .function call alias? => .function call (alias?.map Alias.blank)

@[simp] theorem Relation.tokens_blank (r : Relation Tokens Tokens) :
    (r.map Tokens.blank Tokens.blank).blank.tokens = r.tokens.blank := by
  cases r <;> simp [Relation.tokens, Relation.map, Relation.blank]

def LateralView.blank (v : LateralView ε) : LateralView ε :=
  { v with relation? := v.relation?.map fun _ => "", columns := blankNames v.columns }

@[simp] theorem LateralView.tokens_blank (v : LateralView Tokens) :
    (v.map Tokens.blank).blank.tokens = v.tokens.blank := by
  simp [LateralView.tokens, LateralView.map, LateralView.blank, nonempty_blankNames, blank_idents,
    Token.blank]

def Join.blank (j : Join ε κ) : Join ε κ :=
  { j with source := j.source.blank, usingColumns := j.usingColumns.map Name.blank }

@[simp] theorem Duration.blank_tokens (d : Duration) : d.tokens.blank = d.tokens := rfl

@[simp] theorem Within.blank_tokens (w : Within) : w.tokens.blank = w.tokens := by
  obtain ⟨before, after?⟩ := w
  cases after? <;> simp [Within.tokens]

@[simp] theorem StreamWindow.blank_tokens (w : StreamWindow) : w.tokens.blank = w.tokens := by
  cases w <;> simp [StreamWindow.tokens]

@[simp] theorem Join.tokens_blank (j : Join Tokens Tokens) :
    (j.map Tokens.blank Tokens.blank).blank.tokens = j.tokens.blank := by
  have head : j.head.blank = j.head := by
    unfold Join.head Join.hintTokens
    cases j.simple <;> cases j.straight <;> cases j.apply <;> cases j.hint? <;>
      simp [Token.blank]
  have columns : (j.usingColumns.map Name.blank).map Name.tokens =
      (j.usingColumns.map Name.tokens).map Tokens.blank := by
    simp
  have window : j.windowTokens.blank = j.windowTokens := by
    unfold Join.windowTokens
    split <;> simp
  have source := j.source.tokens_blank
  have sameHead : (j.map Tokens.blank Tokens.blank).blank.head = j.head := rfl
  have sameWindow : (j.map Tokens.blank Tokens.blank).blank.windowTokens = j.windowTokens := rfl
  rw [Join.tokens, Join.tokens, sameHead, sameWindow]
  simp [Join.conditions, Join.map, Join.blank, head, window, List.flatMap_map, Function.comp_def]

@[simp] theorem Join.listed_blank (j : Join Tokens Tokens) :
    (j.map Tokens.blank Tokens.blank).blank.listed = j.listed.blank := by
  simp only [Join.listed, Tokens.blank_append, Tokens.blank_onlyIf, Tokens.blank_mark,
    Tokens.blank_spaced, Join.tokens_blank]
  rfl

def Distinct.blank (d : Distinct ε) : Distinct ε := { d with on := d.on.map Item.blank }

@[simp] theorem Distinct.tokens_blank (d : Distinct Tokens) :
    (d.map Tokens.blank).blank.tokens = d.tokens.blank := by
  simp [Distinct.tokens, Distinct.map, Distinct.blank, Function.comp_def]

@[simp] theorem Top.tokens_blank (t : Top Tokens) :
    (t.map Tokens.blank).tokens = t.tokens.blank := by
  obtain ⟨quantity, parenthesized, percent, withTies⟩ := t
  cases parenthesized <;> simp [Top.tokens, Top.map]

@[simp] theorem GroupBy.tokens_blank (g : GroupBy Tokens) :
    (g.map Tokens.blank).tokens = g.tokens.blank := by
  obtain ⟨exprs, sets⟩ := g
  cases exprs <;> simp [GroupBy.tokens, GroupBy.map, Token.blank, Function.comp_def]

@[simp] theorem SortKey.tokens_blank (k : SortKey Tokens) :
    (k.map Tokens.blank).tokens = k.tokens.blank := by
  simp [SortKey.tokens, SortKey.map]

@[simp] theorem Preference.tokens_blank (p : Preference Tokens) :
    (p.map Tokens.blank).tokens = p.tokens.blank := by
  induction p <;> simp_all [Preference.tokens, Preference.map]

@[simp] theorem Preferring.tokens_blank (p : Preferring Tokens) :
    (p.map Tokens.blank).tokens = p.tokens.blank := by
  simp [Preferring.tokens, Preferring.map]

def WindowSpec.blank (s : WindowSpec ε) : WindowSpec ε :=
  { s with base? := s.base?.map fun _ => "" }

theorem WindowSpec.tokens_blank (s : WindowSpec Tokens) :
    (s.map Tokens.blank).blank.tokens = s.tokens.blank := by
  obtain ⟨base?, partition, order⟩ := s
  rw [WindowSpec.tokens, WindowSpec.tokens, Tokens.blank_joined]
  cases base? <;> cases partition <;> cases order <;>
    simp [WindowSpec.pieces, WindowSpec.map, WindowSpec.blank, Token.blank, Function.comp_def]

def NamedWindow.blank (w : NamedWindow ε) : NamedWindow ε := ⟨"", w.spec.blank⟩

@[simp] theorem NamedWindow.tokens_blank (w : NamedWindow Tokens) :
    (w.map Tokens.blank).blank.tokens = w.tokens.blank := by
  simp [NamedWindow.tokens, NamedWindow.map, NamedWindow.blank, Token.blank,
    WindowSpec.tokens_blank]

@[simp] theorem Hierarchy.tokens_blank (h : Hierarchy Tokens) :
    (h.map Tokens.blank).tokens = h.tokens.blank := by
  obtain ⟨startWith?, connectBy, noCycle, connectFirst⟩ := h
  cases connectFirst <;>
    simp [Hierarchy.tokens, Hierarchy.startTokens, Hierarchy.connectTokens, Hierarchy.map]

@[simp] theorem Skip.tokens_blank (s : Skip Tokens) :
    (s.map Tokens.blank).tokens = s.tokens.blank := by
  simp [Skip.tokens, Skip.map]

@[simp] theorem First.tokens_blank (x : First Tokens) :
    (x.map Tokens.blank).tokens = x.tokens.blank := by
  obtain ⟨limit, rows⟩ := x
  cases limit <;> simp [First.tokens, First.map]

def InformixClauses.blank (i : InformixClauses ε) : InformixClauses ε :=
  { i with intoTemp? := i.intoTemp?.map Table.blank }

@[simp] theorem InformixClauses.headTokens_blank (i : InformixClauses Tokens) :
    (i.map Tokens.blank).blank.headTokens = i.headTokens.blank := by
  simp [InformixClauses.headTokens, InformixClauses.map, InformixClauses.blank]

@[simp] theorem InformixClauses.intoTokens_blank (i : InformixClauses Tokens) :
    (i.map Tokens.blank).blank.intoTokens = i.intoTokens.blank := by
  simp [InformixClauses.intoTokens, InformixClauses.map, InformixClauses.blank]

namespace Select

def blank (s : Select ε κ) : Select ε κ :=
  { s with
    items := s.items.map Item.blank
    source? := s.source?.map Relation.blank
    joins := s.joins.map Join.blank
    lateralViews := s.lateralViews.map LateralView.blank
    distinct? := s.distinct?.map Distinct.blank
    windows := s.windows.map NamedWindow.blank
    into := s.into.map Table.blank
    informix? := s.informix?.map InformixClauses.blank }

theorem head_blank (s : Select Tokens Tokens) :
    (s.map Tokens.blank Tokens.blank).blank.head = s.head.blank := by
  simp [head, map, blank, OracleClauses.map, Written.tokens, Token.blank]

theorem clause_blank (k : Keyword) (e : Option Tokens) :
    clause k (e.map Tokens.blank) = (clause k e).blank := by
  simp [clause]

theorem fromClause_blank (s : Select Tokens Tokens) (source : Relation Tokens Tokens) :
    (s.map Tokens.blank Tokens.blank).blank.fromClause
      (source.map Tokens.blank Tokens.blank).blank = (s.fromClause source).blank := by
  simp [fromClause, map, blank, OracleClauses.map, clause_blank, List.flatMap_map,
    Function.comp_def]

theorem main_blank (s : Select Tokens Tokens) :
    (s.map Tokens.blank Tokens.blank).blank.main = s.main.blank := by
  have source : (s.map Tokens.blank Tokens.blank).blank.source? =
      (s.source?.map (·.map Tokens.blank Tokens.blank)).map Relation.blank := rfl
  rw [main, main, head_blank]
  cases present : s.source? with
  | none =>
      rw [present] at source
      simp only [source, Option.map_none]
      simp [map, blank, clause_blank, Function.comp_def]
  | some relation =>
      rw [present] at source
      simp only [source, Option.map_some, fromClause_blank]
      simp [map, blank, Function.comp_def]

theorem tail_blank (s : Select Tokens Tokens) :
    (s.map Tokens.blank Tokens.blank).blank.tail = s.tail.blank := by
  have optimizeFor : (fun o : OptimizeFor => o.tokens.blank) = OptimizeFor.tokens := by
    funext o
    rfl
  simp [tail, map, blank, optimizeFor, Token.blank]

end Select

def Lock.blank (l : Lock) : Lock := { l with tables := l.tables.map Table.blank }

@[simp] theorem Lock.tokens_blank (l : Lock) : l.blank.tokens = l.tokens.blank := by
  simp [Lock.tokens, Lock.blank, Function.comp_def]

@[simp] theorem OrderBy.tokens_blank (o : OrderBy Tokens) :
    (o.map Tokens.blank).tokens = o.tokens.blank := by
  simp [OrderBy.tokens, OrderBy.map, Function.comp_def]

@[simp] theorem Limit.tokens_blank (l : Limit Tokens) :
    (l.map Tokens.blank).tokens = l.tokens.blank := by
  cases l <;> simp [Limit.tokens, Limit.map]

@[simp] theorem Offset.tokens_blank (o : Offset Tokens) :
    (o.map Tokens.blank).tokens = o.tokens.blank := by
  simp [Offset.tokens, Offset.map]

@[simp] theorem Fetch.tokens_blank (x : Fetch Tokens) :
    (x.map Tokens.blank).tokens = x.tokens.blank := by
  obtain ⟨quantity?, percent, withTies⟩ := x
  cases withTies <;> simp [Fetch.tokens, Fetch.map]

def Cte.blank (c : Cte κ) : Cte κ := { c with name := "", columns := blankNames c.columns }

@[simp] theorem Cte.tokens_blank (c : Cte Tokens) :
    (c.map Tokens.blank).blank.tokens = c.tokens.blank := by
  simp [Cte.tokens, Cte.map, Cte.blank, nonempty_blankNames, blank_idents, Token.blank]

def With.blank (w : With κ) : With κ := { w with ctes := w.ctes.map Cte.blank }

@[simp] theorem With.tokens_blank (w : With Tokens) :
    (w.map Tokens.blank).blank.tokens = w.tokens.blank := by
  simp [With.tokens, With.map, With.blank, Function.comp_def]

namespace Envelope

def blank (e : Envelope ε κ) : Envelope ε κ :=
  { e with with? := e.with?.map With.blank, locks := e.locks.map Lock.blank }

theorem leading_blank (e : Envelope Tokens Tokens) :
    (e.map Tokens.blank Tokens.blank).blank.leading = e.leading.blank := by
  simp [leading, map, blank]

theorem trailing_blank (e : Envelope Tokens Tokens) :
    (e.map Tokens.blank Tokens.blank).blank.trailing = e.trailing.blank := by
  simp [trailing, map, blank, List.flatMap_map]

end Envelope

/-- The tree with every name and every string in it empty. -/
def Blank.interpretation : Interpretation Expr Body Query where
  all := .all
  any := .any
  binary := .binary
  column name := .column name.blank
  call := .call
  inList := .inList
  isNull := .isNull
  nested := .nested
  not := .not
  raw := .raw
  subquery := .subquery
  literal value := .literal value.blank
  select s := .select s.blank
  combined := .combined
  enclosed := .enclosed
  query envelope body := ⟨envelope.blank, body⟩

def Expr.blank (e : Expr) : Expr := Blank.interpretation.ofExpr e

def Query.blank (q : Query) : Query := Blank.interpretation.ofQuery q

def Parts.blank (p : Parts) : Parts := ⟨p.main.blank, p.tail.blank⟩

/-- How a node is written once the names and strings in its own slots are empty. -/
def Blank.writing : Interpretation Tokens Parts Tokens :=
  { Writing.interpretation with
    column name := name.blank.tokens
    literal value := value.blank.tokens
    select s := ⟨s.blank.main, s.blank.tail⟩
    query envelope body := Writing.interpretation.query envelope.blank body }

/-- Blank tokens are written for blanked nodes. -/
theorem Blank.tokens_hom :
    Interpretation.Hom Writing.interpretation Blank.writing Tokens.blank Parts.blank
      Tokens.blank where
  all operands := Tokens.blank_joined _ operands
  any operands := Tokens.blank_joined _ operands
  binary op left right := by
    have token : op.token.blank = op.token := by cases op <;> rfl
    simp [Writing.interpretation, Blank.writing, token]
  column name := name.tokens_blank.symm
  call c := c.tokens_blank.symm
  inList subject members negated := by simp [Writing.interpretation, Blank.writing]
  isNull subject negated := by simp [Writing.interpretation, Blank.writing]
  nested inner := Tokens.blank_parens inner
  not operand := by simp [Writing.interpretation, Blank.writing]
  raw text := rfl
  subquery query := Tokens.blank_parens query
  literal value := value.tokens_blank.symm
  select s := by
    simp [Writing.interpretation, Blank.writing, Parts.blank, Select.main_blank, Select.tail_blank]
  combined op all operands := by
    have separator : (Writing.separator op all).blank = Writing.separator op all := by
      simp [Writing.separator, Token.blank]
    simp [Writing.interpretation, Blank.writing, Parts.blank, Parts.whole, Tokens.blank_joined,
      separator, Function.comp_def]
  enclosed query := by simp [Writing.interpretation, Blank.writing, Parts.blank]
  query envelope body := by
    simp [Writing.interpretation, Blank.writing, Parts.blank, Envelope.leading_blank,
      Envelope.trailing_blank]

section

variable (f : ε → α) (g : κ → β)

@[simp] theorem Item.map_blank (i : Item ε) : i.blank.map f = (i.map f).blank := by
  cases i <;> rfl

@[simp] theorem Relation.map_blank (r : Relation ε κ) : r.blank.map f g = (r.map f g).blank := by
  cases r <;> rfl

@[simp] theorem Join.map_blank (j : Join ε κ) : j.blank.map f g = (j.map f g).blank := by
  simp [Join.map, Join.blank]

@[simp] theorem LateralView.map_blank (v : LateralView ε) : v.blank.map f = (v.map f).blank := rfl

@[simp] theorem Distinct.map_blank (d : Distinct ε) : d.blank.map f = (d.map f).blank := by
  simp [Distinct.map, Distinct.blank]

@[simp] theorem NamedWindow.map_blank (w : NamedWindow ε) : w.blank.map f = (w.map f).blank := rfl

@[simp] theorem InformixClauses.map_blank (i : InformixClauses ε) :
    i.blank.map f = (i.map f).blank := rfl

theorem Select.map_blank (s : Select ε κ) : s.blank.map f g = (s.map f g).blank := by
  simp [Select.map, Select.blank, Function.comp_def]

@[simp] theorem Cte.map_blank (c : Cte κ) : c.blank.map g = (c.map g).blank := rfl

@[simp] theorem With.map_blank (w : With κ) : w.blank.map g = (w.map g).blank := by
  simp [With.map, With.blank]

theorem Envelope.map_blank (e : Envelope ε κ) : e.blank.map f g = (e.map f g).blank := by
  simp [Envelope.map, Envelope.blank, Function.comp_def]

end

/-- The tokens of a blanked tree are put together from those of its parts. -/
theorem Blank.writing_hom :
    Interpretation.Hom Blank.interpretation Blank.writing Expr.tokens Body.parts Query.tokens where
  all operands := congrArg Writing.interpretation.all (Interpretation.ofExprs_eq _ operands)
  any operands := congrArg Writing.interpretation.any (Interpretation.ofExprs_eq _ operands)
  binary op left right := rfl
  column name := rfl
  call c := congrArg Writing.interpretation.call (Interpretation.ofCall_eq _ c)
  inList subject members negated :=
    congrArg (Writing.interpretation.inList subject.tokens · negated)
      (Interpretation.ofExprs_eq _ members)
  isNull subject negated := rfl
  nested inner := rfl
  not operand := rfl
  raw text := rfl
  subquery query := rfl
  literal value := rfl
  select s := by
    have written : Body.parts (.select s.blank) =
        ⟨(s.blank.map Expr.tokens Query.tokens).main,
          (s.blank.map Expr.tokens Query.tokens).tail⟩ := by
      rw [Body.parts, Interpretation.ofBody, Interpretation.ofSelect_eq]
      rfl
    rw [Select.map_blank] at written
    exact written
  combined op all operands :=
    congrArg (Writing.interpretation.combined op all) (Interpretation.ofBodies_eq _ operands)
  enclosed query := rfl
  query envelope body := by
    have written : Query.tokens ⟨envelope.blank, body⟩ =
        Writing.interpretation.query (envelope.blank.map Expr.tokens Query.tokens) body.parts := by
      rw [Query.tokens, Interpretation.ofQuery_eq]
      rfl
    rw [Envelope.map_blank] at written
    exact written

theorem Query.tokens_blank (q : Query) : q.blank.tokens = q.tokens.blank :=
  (Blank.writing_hom.ofQuery q).trans (Blank.tokens_hom.ofQuery q).symm

def Select.blankTree (s : Select Expr Query) : Select Expr Query :=
  (s.map Expr.blank Query.blank).blank

theorem Select.tokens_blankTree (s : Select Expr Query) :
    Written.tokens s.blankTree = (Written.tokens s).blank := by
  have body : Blank.interpretation.ofBody (.select s) = .select s.blankTree := by
    rw [Interpretation.ofBody, Interpretation.ofSelect_eq]
    rfl
  have written (x : Select Expr Query) : Written.tokens x = (Body.parts (.select x)).whole := by
    rw [Body.parts, Interpretation.ofBody, Interpretation.ofSelect_eq]
    rfl
  have parts : Body.parts (.select s.blankTree) = (Body.parts (.select s)).blank := by
    rw [← body]
    exact (Blank.writing_hom.ofBody _).trans (Blank.tokens_hom.ofBody _).symm
  rw [written, written, parts, Parts.whole, Parts.whole, Tokens.blank_append]
  rfl

end SqlSelect
