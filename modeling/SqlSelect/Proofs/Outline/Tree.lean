import SqlSelect.Proofs.Outline.Select
import SqlSelect.Proofs.Tree.Homomorphism
import SqlSelect.Tree.Tokens
namespace SqlSelect

open Outline

variable {ε κ : Type}

def LockStrength.outline : LockStrength → Outline
  | .update => words [.FOR, .UPDATE]
  | .share => words [.FOR, .SHARE]

theorem LockStrength.words_keyword (s : LockStrength) : words [.FOR, s.keyword] = s.outline := by
  cases s <;> rfl

def LockPatience.outline : LockPatience → Outline
  | .nowait => words [.NOWAIT]
  | .skipLocked => words [.SKIP, .LOCKED]

theorem LockPatience.words_keywords (p : LockPatience) : words p.keywords = p.outline := by
  cases p <;> rfl

def Lock.outline (l : Lock) : Outline :=
  l.strength.outline ++ listed [.OF] (l.tables.map Table.outline) ++
    l.patience?.elim [] LockPatience.outline

theorem Lock.content_tokens (l : Lock) : l.tokens.content = l.outline := by
  simp [Lock.tokens, Lock.outline, listed, Table.content_tokens, LockStrength.words_keyword,
    LockPatience.words_keywords, Function.comp_def]

def OrderBy.outline (o : OrderBy Outline) : Outline :=
  words [.ORDER] ++ flagged o.siblings [.SIBLINGS] ++ words [.BY] ++
    (o.keys.map SortKey.outline).flatten

theorem OrderBy.content_tokens (o : OrderBy Tokens) :
    o.tokens.content = (o.map Tokens.content).outline := by
  obtain ⟨keys, siblings⟩ := o
  simp only [OrderBy.map]
  simp [OrderBy.tokens, OrderBy.outline, flagged, SortKey.content_tokens, Function.comp_def]

def Limit.outline : Limit Outline → Outline
  | .all => words [.LIMIT, .ALL]
  | .count rows => words [.LIMIT] ++ rows

theorem Limit.content_tokens (l : Limit Tokens) :
    l.tokens.content = (l.map Tokens.content).outline := by
  cases l <;> simp [Limit.tokens, Limit.map, Limit.outline]

def RowWord.outline : RowWord → Outline
  | .row => words [.ROW]
  | .rows => words [.ROWS]

theorem RowWord.words_keyword (w : RowWord) : words [w.keyword] = w.outline := by
  cases w <;> rfl

def Offset.outline (o : Offset Outline) : Outline :=
  words [.OFFSET] ++ o.rows ++ o.word?.elim [] RowWord.outline

theorem Offset.content_tokens (o : Offset Tokens) :
    o.tokens.content = (o.map Tokens.content).outline := by
  simp [Offset.tokens, Offset.map, Offset.outline, RowWord.words_keyword]

def Fetch.outline (x : Fetch Outline) : Outline :=
  words [.FETCH, .FIRST] ++ x.quantity?.getD [] ++ flagged x.percent [.PERCENT] ++ words [.ROWS] ++
    words (if x.withTies then [.WITH, .TIES] else [.ONLY])

theorem Fetch.content_tokens (x : Fetch Tokens) :
    x.tokens.content = (x.map Tokens.content).outline := by
  obtain ⟨quantity?, percent, withTies⟩ := x
  simp only [Fetch.map]
  cases quantity? <;> cases withTies <;> simp [Fetch.tokens, Fetch.outline, flagged]

def Cte.outline (c : Cte Outline) : Outline := names (c.name :: c.columns) ++ words [.AS] ++ c.query

theorem Cte.content_tokens (c : Cte Tokens) :
    c.tokens.content = (c.map Tokens.content).outline := by
  obtain ⟨name, columns, query⟩ := c
  have written : (columns.map fun name => [Token.ident name]).flatten = names columns := by
    rw [names]
    induction columns with
    | nil => rfl
    | cons name rest ih => simpa using ih
  cases columns <;> simp_all [Cte.tokens, Cte.map, Cte.outline, names, Function.comp_def]

def With.outline (w : With Outline) : Outline :=
  words [.WITH] ++ flagged w.recursive [.RECURSIVE] ++ (w.ctes.map Cte.outline).flatten

theorem With.content_tokens (w : With Tokens) :
    w.tokens.content = (w.map Tokens.content).outline := by
  obtain ⟨recursive, ctes⟩ := w
  simp only [With.map]
  simp [With.tokens, With.outline, flagged, Cte.content_tokens, Function.comp_def]

namespace Envelope

def leadingOutline (e : Envelope ε Outline) : Outline := e.with?.elim [] With.outline

def trailingOutline (e : Envelope Outline κ) : Outline :=
  e.orderBy?.elim [] OrderBy.outline ++ e.limit?.elim [] Limit.outline ++
    e.offset?.elim [] Offset.outline ++ e.fetch?.elim [] Fetch.outline ++
    (e.locks.map Lock.outline).flatten

theorem content_leading (e : Envelope Tokens Tokens) :
    e.leading.content = (e.map Tokens.content Tokens.content).leadingOutline := by
  simp [leading, leadingOutline, map, With.content_tokens, Function.comp_def]

theorem content_trailing (e : Envelope Tokens Tokens) :
    e.trailing.content = (e.map Tokens.content Tokens.content).trailingOutline := by
  simp [trailing, trailingOutline, map, OrderBy.content_tokens, Limit.content_tokens,
    Offset.content_tokens, Fetch.content_tokens, Lock.content_tokens, Function.comp_def]

end Envelope

def SetOperator.outline : SetOperator → Outline
  | .union => words [.UNION]
  | .intersect => words [.INTERSECT]
  | .except => words [.EXCEPT]
  | .minus => words [.MINUS]

theorem SetOperator.content_separator (op : SetOperator) (all : Bool) :
    (Writing.separator op all).content = op.outline ++ flagged all [.ALL] := by
  cases op <;> cases all <;> rfl

namespace Outline

/-- Pieces with the same words between them. -/
def between (separator : Outline) (pieces : List Outline) : Outline :=
  (pieces.intersperse separator).flatten

def interpretation : Interpretation Outline Parts Outline where
  all operands := between (words [.AND]) operands
  any operands := between (words [.OR]) operands
  binary op left right := left ++ op.outline ++ right
  column name := name.outline
  call c := c.outline
  inList subject members negated :=
    subject ++ flagged negated [.NOT] ++ words [.IN] ++ members.flatten
  isNull subject negated := subject ++ words [.IS] ++ flagged negated [.NOT] ++ words [.NULL]
  nested inner := inner
  not operand := words [.NOT] ++ operand
  raw text := [.verbatim text]
  subquery query := query
  literal value := value.outline
  select s := ⟨s.slotsOutline Select.Slot.main, s.slotsOutline Select.Slot.tail⟩
  combined op all operands :=
    { main := between (op.outline ++ flagged all [.ALL]) (operands.map Parts.whole) }
  enclosed query := { main := query }
  query envelope body :=
    envelope.leadingOutline ++ body.main ++ envelope.trailingOutline ++ body.tail

end Outline

def Expr.outline (e : Expr) : Outline := Outline.interpretation.ofExpr e

def Query.outline (q : Query) : Outline := Outline.interpretation.ofQuery q

def Body.outline (b : Body) : Outline := (Outline.interpretation.ofBody b).whole

def Parts.content (p : Parts) : Parts := ⟨p.main.content, p.tail.content⟩

@[simp] theorem Parts.whole_content (p : Parts) : p.content.whole = p.whole.content := by
  simp [Parts.whole, Parts.content]

theorem Tokens.content_between (separator : Tokens) (pieces : List Tokens) :
    (Phrase.joined separator pieces).content = between separator.content (pieces.map content) := by
  rw [content_joined, between]

/-- What is written for each kind of node has the outline of that kind of node. -/
theorem Writing.content_hom :
    Interpretation.Hom Writing.interpretation Outline.interpretation
      Tokens.content Parts.content Tokens.content where
  all operands := Tokens.content_between _ operands
  any operands := Tokens.content_between _ operands
  binary op left right := by
    simp [Writing.interpretation, Outline.interpretation, Operator.content_token]
  column name := name.content_tokens
  call c := c.content_tokens
  inList subject members negated := by
    simp [Writing.interpretation, Outline.interpretation, flagged]
  isNull subject negated := by simp [Writing.interpretation, Outline.interpretation, flagged]
  nested inner := Tokens.content_parens inner
  not operand := by simp [Writing.interpretation, Outline.interpretation]
  raw text := rfl
  subquery query := Tokens.content_parens query
  literal value := value.content_tokens
  select s := by
    simp [Writing.interpretation, Outline.interpretation, Parts.content, Select.content_main,
      Select.content_tail]
  combined op all operands := by
    have wholes : (operands.map Parts.content).map Parts.whole =
        (operands.map Parts.whole).map Tokens.content := by
      simp [Function.comp_def]
    simp only [Writing.interpretation, Outline.interpretation, wholes]
    rw [Parts.content, Tokens.content_between, op.content_separator]
    rfl
  enclosed query := by simp [Writing.interpretation, Outline.interpretation, Parts.content]
  query envelope body := by
    simp [Writing.interpretation, Outline.interpretation, Parts.content,
      Envelope.content_leading, Envelope.content_trailing]

theorem Expr.content_tokens (e : Expr) : e.tokens.content = e.outline :=
  Writing.content_hom.ofExpr e

theorem Query.content_tokens (q : Query) : q.tokens.content = q.outline :=
  Writing.content_hom.ofQuery q

theorem Body.content_tokens (b : Body) : b.tokens.content = b.outline := by
  rw [Body.tokens, ← Parts.whole_content, Body.parts, Writing.content_hom.ofBody, Body.outline]

end SqlSelect
