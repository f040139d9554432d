import SqlSelect.Clause.Envelope
import SqlSelect.Clause.Select
import SqlSelect.Proofs.Outline.Basic
namespace SqlSelect

open Outline

variable {κ : Type}

def Name.outline (n : Name) : Outline := names n.parts

theorem Name.content_tokens (n : Name) : n.tokens.content = n.outline := by
  rw [Name.tokens, Tokens.content_joined_marks rfl, List.map_map, Name.outline, names]
  induction n.parts with
  | nil => rfl
  | cons part rest ih => simpa using ih

def Alias.outline (a : Alias) : Outline := flagged a.keyword [.AS] ++ names [a.name]

@[simp] theorem Alias.content_tokens (a : Alias) : a.tokens.content = a.outline := by
  simp [Alias.tokens, Alias.outline, flagged, names]

@[simp] theorem Alias.content_suffix (a : Option Alias) :
    (Alias.suffix a).content = a.elim [] Alias.outline := by
  simp [Alias.suffix]

def Table.outline (t : Table) : Outline := t.name.outline ++ t.alias?.elim [] Alias.outline

theorem Table.content_tokens (t : Table) : t.tokens.content = t.outline := by
  simp [Table.tokens, Table.outline, Name.content_tokens]

/-- An operator that is written as a word. -/
def Operator.outline (op : Operator) : Outline := flagged (op == .like) [.LIKE]

theorem Operator.content_token (op : Operator) : Tokens.content [op.token] = op.outline := by
  cases op <;> rfl

def Literal.outline : Literal → Outline
  | .null => words [.NULL]
  | .bool value => words [if value then .TRUE else .FALSE]
  | .int value => [.int value]
  | .double value => [.double value]
  | .string contents => [.string contents]

theorem Literal.content_tokens (v : Literal) : v.tokens.content = v.outline := by
  cases v with
  | bool value => cases value <;> rfl
  | _ => rfl

def Call.outline (c : Call Outline) : Outline :=
  c.function.parts.map .bare ++ flagged c.distinct [.DISTINCT] ++ c.args.flatten

theorem Call.content_tokens (c : Call Tokens) :
    c.tokens.content = (c.map Tokens.content).outline := by
  have function : (Phrase.joined [.symbol .dot]
      (c.function.parts.map fun part => [.bare part])).content = c.function.parts.map .bare := by
    rw [Tokens.content_joined_marks rfl, List.map_map]
    induction c.function.parts with
    | nil => rfl
    | cons part rest ih => simpa using ih
  obtain ⟨name, args, distinct⟩ := c
  simp only [Call.tokens, Call.map, Tokens.content_append, function]
  simp [Call.outline, flagged]

def Item.outline : Item Outline → Outline
  | .wildcard => []
  | .wildcardOf relation => relation.outline
  | .expr value alias? => value ++ alias?.elim [] Alias.outline

theorem Item.content_tokens (i : Item Tokens) :
    i.tokens.content = (i.map Tokens.content).outline := by
  cases i <;> simp [Item.tokens, Item.map, Item.outline, Name.content_tokens]

def Relation.outline : Relation Outline Outline → Outline
  | .table t => t.outline
  | .subquery query alias? lateral =>
      flagged lateral [.LATERAL] ++ query ++ alias?.elim [] Alias.outline
  | .function call alias? => call.outline ++ alias?.elim [] Alias.outline

theorem Relation.content_tokens (r : Relation Tokens Tokens) :
    r.tokens.content = (r.map Tokens.content Tokens.content).outline := by
  cases r <;>
    simp [Relation.tokens, Relation.map, Relation.outline, Table.content_tokens,
      Call.content_tokens, flagged]

def LateralView.outline (v : LateralView Outline) : Outline :=
  words [.LATERAL, .VIEW] ++ flagged v.outer [.OUTER] ++ v.generator.outline ++
    names v.relation?.toList ++ listed [.AS] (v.columns.map fun name => names [name])

theorem LateralView.content_tokens (v : LateralView Tokens) :
    v.tokens.content = (v.map Tokens.content).outline := by
  obtain ⟨outer, generator, relation?, columns⟩ := v
  simp only [LateralView.map]
  cases relation? <;>
    simp [LateralView.tokens, LateralView.outline, Call.content_tokens, flagged, listed, names,
      Function.comp_def]

/-- A unit is named in the singular after exactly one, and in the plural otherwise. -/
def TimeUnit.outline (count : UInt64) : TimeUnit → Outline
  | .millisecond => words [if count = 1 then .MILLISECOND else .MILLISECONDS]
  | .second => words [if count = 1 then .SECOND else .SECONDS]
  | .minute => words [if count = 1 then .MINUTE else .MINUTES]
  | .hour => words [if count = 1 then .HOUR else .HOURS]
  | .day => words [if count = 1 then .DAY else .DAYS]

theorem TimeUnit.words_keyword (u : TimeUnit) (count : UInt64) :
    words [u.keyword count] = u.outline count := by
  by_cases one : count = 1
  · cases u <;> simp [TimeUnit.outline, TimeUnit.keyword, one]
  · have several : (count == 1) = false := beq_false_of_ne one
    cases u <;> simp [TimeUnit.outline, TimeUnit.keyword, one, several]

def Duration.outline (d : Duration) : Outline := .count d.count :: d.unit.outline d.count

theorem Duration.content_tokens (d : Duration) : d.tokens.content = d.outline := by
  rw [Duration.outline, ← TimeUnit.words_keyword]
  rfl

def Within.outline (w : Within) : Outline :=
  w.before.outline ++ w.after?.elim [] Duration.outline

theorem Within.content_tokens (w : Within) : w.tokens.content = w.outline := by
  obtain ⟨before, after?⟩ := w
  cases after? <;> simp [Within.tokens, Within.outline, Duration.content_tokens]

def StreamWindow.outline : StreamWindow → Outline
  | .hopping size advance =>
      words [.HOPPING, .SIZE] ++ size.outline ++ words [.ADVANCE, .BY] ++ advance.outline
  | .session gap => words [.SESSION] ++ gap.outline
  | .tumbling size => words [.TUMBLING, .SIZE] ++ size.outline

theorem StreamWindow.content_tokens (w : StreamWindow) : w.tokens.content = w.outline := by
  cases w <;> simp [StreamWindow.tokens, StreamWindow.outline, Duration.content_tokens, words]

def JoinKind.sideOutline (k : JoinKind) : Outline :=
  firstOf [(k.right, .RIGHT), (k.full, .FULL), (k.left, .LEFT), (k.cross, .CROSS)]

def JoinKind.mannerOutline (k : JoinKind) : Outline :=
  firstOf [(k.outer, .OUTER), (k.inner, .INNER), (k.semi, .SEMI)]

theorem JoinKind.sideOutline_eq (k : JoinKind) :
    k.sideOutline = k.side?.elim [] fun side => words [side.keyword] := by
  obtain ⟨natural, left, right, full, cross, outer, inner, semi⟩ := k
  cases right <;> cases full <;> cases left <;> cases cross <;> rfl

theorem JoinKind.mannerOutline_eq (k : JoinKind) :
    k.mannerOutline = k.manner?.elim [] fun manner => words [manner.keyword] := by
  obtain ⟨natural, left, right, full, cross, outer, inner, semi⟩ := k
  cases outer <;> cases inner <;> cases semi <;> rfl

def JoinHint.outline : JoinHint → Outline
  | .loop => words [.LOOP]
  | .hash => words [.HASH]
  | .merge => words [.MERGE]
  | .remote => words [.REMOTE]

theorem JoinHint.words_keyword (h : JoinHint) : words [h.keyword] = h.outline := by
  cases h <;> rfl

theorem JoinHint.content_tokens (h : JoinHint) : (Written.tokens h).content = h.outline :=
  h.words_keyword

namespace Join

/-- The words before the source of a join with a join keyword.  A hint goes with
    `JOIN` only. -/
def keywordOutline (j : Join Outline κ) : Outline :=
  flagged j.kind.natural [.NATURAL] ++ j.kind.sideOutline ++ j.kind.mannerOutline ++
    (if j.straight then words [.STRAIGHT_JOIN]
      else if j.apply then words [.APPLY]
      else j.hint?.elim [] JoinHint.outline ++ words [.JOIN])

def outline (j : Join Outline Outline) : Outline :=
  flagged j.global [.GLOBAL] ++
    (if j.simple then flagged j.kind.outer [.OUTER] else j.keywordOutline) ++
    j.source.outline ++
    (if j.simple then [] else j.within?.elim [] fun w => words [.WITHIN] ++ w.outline) ++
    (j.on.map (words [.ON] ++ ·)).flatten ++
    Outline.listed [.USING] (j.usingColumns.map Name.outline)

theorem content_head (j : Join Tokens Tokens) :
    j.head.content = if j.simple then flagged j.kind.outer [.OUTER]
      else (j.map Tokens.content Tokens.content).keywordOutline := by
  obtain ⟨source, kind, global, straight, apply, simple, hint?, on, columns, within?⟩ := j
  simp only [head, hintTokens, keyword, keywordOutline, map, JoinKind.sideOutline_eq,
    JoinKind.mannerOutline_eq]
  cases simple <;> cases straight <;> cases apply <;> cases hint? <;>
    simp [flagged, JoinHint.words_keyword]

theorem content_tokens (j : Join Tokens Tokens) :
    j.tokens.content = (j.map Tokens.content Tokens.content).outline := by
  have head := j.content_head
  obtain ⟨source, kind, global, straight, apply, simple, hint?, conditions, columns, within?⟩ := j
  simp only [map] at head
  simp only [tokens, Tokens.content_append, head, Join.conditions, outline, map]
  cases simple <;>
    simp [windowTokens, flagged, Outline.listed, Relation.content_tokens, Name.content_tokens,
      Within.content_tokens, Function.comp_def]

@[simp] theorem content_listed (j : Join Tokens Tokens) : j.listed.content = j.tokens.content := by
  simp [Join.listed]

end Join
end SqlSelect
