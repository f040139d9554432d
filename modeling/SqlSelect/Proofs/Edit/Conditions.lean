import Mathlib.Data.List.DropRight
import SqlSelect.Proofs.Access.Chain
import SqlSelect.Proofs.Edit.Slots
namespace SqlSelect

open Phrase

variable {ε κ : Type}

/-- A phrase after a word of its own. -/
theorem Phrase.render_introduced (d : Dialect) (k : Keyword) (phrase : Tokens) :
    render d (spaced (word k) ++ spaced phrase) = " " ++ k.text ++ " " ++ render d phrase := by
  rw [← String.toList_inj]
  simp [render, Written.tokens, spaced, word, Token.chars, Keyword.chars]

theorem Name.render_list (d : Dialect) (columns : List Name) :
    render d (parens (commas (columns.map Name.tokens))) =
      "(" ++ ", ".intercalate (columns.map (render d)) ++ ")" := by
  have each : (columns.map Name.tokens).map (Tokens.chars d) =
      (columns.map (render d)).map String.toList := by
    simp [render, Written.tokens]
  have comma : Tokens.chars d [.symbol .comma, .space] = ", ".toList := by
    cases d <;> decide
  rw [← String.toList_inj, String.toList_append, String.toList_append, String.toList_intercalate,
    ← each, ← comma, ← chars_joined]
  simp [render, Written.tokens, parens, commas, Token.chars, Symbol.chars, Symbol.text]

namespace JoinEdit

/-- The conditions that an edit puts in place of all others. -/
def replacement? : JoinEdit ε → Option (List ε)
  | .setOn conditions => some conditions
  | _ => none

/-- The condition that an edit puts before the others. -/
def putFirst? : JoinEdit ε → Option ε
  | .putOn condition => some condition
  | _ => none

/-- The condition that an edit adds after the others. -/
def addedLast? : JoinEdit ε → Option ε
  | .addOn condition => some condition
  | _ => none

/-- The edits after the last one that replaces the conditions. -/
def sinceReplacement (edits : List (JoinEdit ε)) : List (JoinEdit ε) :=
  edits.rtakeWhile (·.replacement?.isNone)

/-- What a run of edits makes of the conditions at its start. -/
def conditionsAfter (start : List ε) (edits : List (JoinEdit ε)) : List ε :=
  ((sinceReplacement edits).filterMap putFirst?).reverse ++
    (edits.filterMap replacement?).getLast?.getD start ++
    (sinceReplacement edits).filterMap addedLast?

variable {start : List ε} {edits : List (JoinEdit ε)}

theorem conditionsAfter_setOn (conditions : List ε) :
    conditionsAfter start (edits ++ [.setOn conditions]) = conditions := by
  have none : sinceReplacement (edits ++ [.setOn conditions]) = [] :=
    List.rtakeWhile_concat_neg _ _ _ (by simp [replacement?])
  simp [conditionsAfter, none, replacement?]

/-- An edit that does not replace the conditions is after the last one that does. -/
theorem conditionsAfter_concat {e : JoinEdit ε} (keeps : e.replacement? = none) :
    conditionsAfter start (edits ++ [e]) =
      e.putFirst?.toList ++ conditionsAfter start edits ++ e.addedLast?.toList := by
  have since : sinceReplacement (edits ++ [e]) = sinceReplacement edits ++ [e] :=
    List.rtakeWhile_concat_pos _ _ _ (by simp [keeps])
  have front : [e].filterMap putFirst? = e.putFirst?.toList := by
    cases h : e.putFirst? <;> simp [h]
  have back : [e].filterMap addedLast? = e.addedLast?.toList := by
    cases h : e.addedLast? <;> simp [h]
  have single : e.putFirst?.toList.reverse = e.putFirst?.toList := by
    cases e.putFirst? <;> rfl
  simp only [conditionsAfter, since, List.filterMap_append, front, back, List.reverse_append,
    single, List.append_assoc, List.filterMap_cons, keeps, List.filterMap_nil, List.append_nil]

end JoinEdit

namespace Join

open JoinEdit

theorem on_edit (j : Join ε κ) {e : JoinEdit ε} (keeps : e.replacement? = none) :
    (j.edit e).on = e.putFirst?.toList ++ j.on ++ e.addedLast?.toList := by
  cases e with
  | setOn conditions => cases keeps
  | addOn condition => rfl
  | _ => exact (List.append_nil _).symm

theorem on_run (j : Join ε κ) (edits : List (JoinEdit ε)) :
    (j.run edits).on = conditionsAfter j.on edits := by
  induction edits using List.reverseRecOn with
  | nil => exact (List.append_nil _).symm
  | append_singleton earlier e ih =>
      have step : (j.run (earlier ++ [e])).on = ((j.run earlier).edit e).on := by
        rw [run_append]
        rfl
      cases replaces : e.replacement? with
      | none => rw [step, on_edit _ replaces, ih, conditionsAfter_concat replaces]
      | some conditions =>
          obtain rfl : e = .setOn conditions := by
            cases e <;> simp_all [replacement?]
          rw [step, conditionsAfter_setOn]
          rfl

/-- Edits of the conditions change nothing else. -/
theorem run_eq_of_on {calls : List (JoinEdit ε)} (onlyOn : ∀ e ∈ calls, e.slot = .on)
    (j : Join ε κ) : j.run calls = { j with on := (j.run calls).on } := by
  induction calls generalizing j with
  | nil => rfl
  | cons e rest ih =>
      rw [List.forall_mem_cons] at onlyOn
      obtain ⟨first, later⟩ := onlyOn
      have step : j.run (e :: rest) = (j.edit e).run rest := rfl
      have others : { j.edit e with on := ((j.edit e).run rest).on } =
          { j with on := ((j.edit e).run rest).on } := by
        cases e <;> first | rfl | cases first
      rw [step, ← others]
      exact ih later (j.edit e)

theorem firstOn_eq_ok_iff (j : Join ε κ) (e : ε) : j.firstOn = .ok e ↔ j.on.head? = some e := by
  cases conditions : j.on <;> simp [firstOn, entryAt, conditions, Except.mapError]

theorem firstOn_eq_error_iff (j : Join ε κ) (err : AccessError) :
    j.firstOn = .error err ↔ j.on = [] ∧ err = .raised "on" 0 0 ["Join::on_expr"] := by
  cases conditions : j.on with
  | nil => simp [firstOn, entryAt, conditions, Except.mapError, AccessError.raised, eq_comm]
  | cons e rest => simp [firstOn, entryAt, conditions, Except.mapError]

/-- The words before the source. -/
def leadText (d : Dialect) (j : Join ε κ) : String :=
  render d (onlyIf j.global (thenSpace (word .GLOBAL)) ++ j.head)

/-- The window, which a list entry does not have. -/
def windowText (d : Dialect) (j : Join ε κ) : String :=
  match j.simple, j.within? with
  | false, some w => " WITHIN " ++ render d w
  | _, _ => ""

/-- The shared columns, if there are any. -/
def usingText (d : Dialect) : List Name → String
  | [] => ""
  | columns => " USING (" ++ ", ".intercalate (columns.map (render d)) ++ ")"

variable {d : Dialect}

theorem render_windowTokens (j : Join ε κ) : render d j.windowTokens = j.windowText d := by
  rw [windowTokens, windowText]
  cases j.simple with
  | true => rfl
  | false =>
      cases j.within? with
      | none => rfl
      | some w => exact render_introduced d .WITHIN w.tokens

theorem render_using (columns : List Name) :
    render d (nonempty (fun columns => spaced (word .USING) ++
      spaced (parens (commas (columns.map Name.tokens)))) columns) = usingText d columns := by
  cases columns with
  | nil => rfl
  | cons first rest =>
      refine (render_introduced d .USING _).trans ?_
      rw [Name.render_list, ← String.append_assoc, ← String.append_assoc]
      rfl

/-- What is written after the source and the window of a join. -/
theorem render_eq (d : Dialect) (j : Join Expr Query) :
    render d j = j.leadText d ++ render d j.source ++ j.windowText d ++
      String.join (j.on.map fun e => " ON " ++ render d e) ++ usingText d j.usingColumns := by
  have conditions : render d ((j.on.map Expr.tokens).flatMap
      fun e => spaced (word .ON) ++ spaced e) =
        String.join (j.on.map fun e => " ON " ++ render d e) := by
    rw [render_flatMap, List.map_map]
    refine congrArg String.join (List.map_congr_left fun e _ => ?_)
    exact render_introduced d .ON e.tokens
  have pieces : render d j = render d ((onlyIf j.global (thenSpace (word .GLOBAL)) ++ j.head) ++
      (j.source.map Expr.tokens Query.tokens).tokens ++ j.windowTokens ++
      ((j.on.map Expr.tokens).flatMap (fun e => spaced (word .ON) ++ spaced e) ++
        nonempty (fun columns => spaced (word .USING) ++
          spaced (parens (commas (columns.map Name.tokens)))) j.usingColumns)) := rfl
  have source : render d (j.source.map Expr.tokens Query.tokens).tokens = render d j.source := rfl
  simp only [pieces, leadText, render_append, source, render_windowTokens, conditions,
    render_using, String.append_assoc]

/-- In a run of edits of the conditions, the conditions are those put first since
    the last replacement, latest first, the ones of the replacement or of the start,
    and those added since, and nothing else of the join changes.  The first of them is
    found unless there is none, and then it is the place that is reported missing.
    They are written after the source and the window, each after its own `ON`, and
    before the shared columns. -/
theorem conditions_of_run {calls : List (JoinEdit Expr)} (onlyOn : ∀ e ∈ calls, e.slot = .on)
    (j : Join Expr Query) :
    j.run calls = { j with on := conditionsAfter j.on calls } ∧
    (∀ e, (j.run calls).firstOn = .ok e ↔ (conditionsAfter j.on calls).head? = some e) ∧
    ((∃ err, (j.run calls).firstOn = .error err) ↔ conditionsAfter j.on calls = []) ∧
    (∀ err, (j.run calls).firstOn = .error err → err.isIndexOutOfRange = true ∧
      err.message = "Join::on_expr(): index out of range: on[0] (len 0)") ∧
    ∀ d, render d (j.run calls) = j.leadText d ++ render d j.source ++ j.windowText d ++
      String.join ((conditionsAfter j.on calls).map fun e => " ON " ++ render d e) ++
      usingText d j.usingColumns := by
  have result : j.run calls = { j with on := conditionsAfter j.on calls } := by
    rw [run_eq_of_on onlyOn, on_run]
  have list : (j.run calls).on = conditionsAfter j.on calls := on_run j calls
  refine ⟨result, fun e => ?_, ?_, fun err failed => ?_, fun d => ?_⟩
  · rw [firstOn_eq_ok_iff, list]
  · simp only [firstOn_eq_error_iff, list, exists_and_left, exists_eq, and_true]
  · obtain ⟨-, rfl⟩ := (firstOn_eq_error_iff _ _).mp failed
    exact ⟨rfl, rfl⟩
  · rw [result, render_eq]
    rfl

/-- A list entry with a condition and a shared column. -/
def listedTable : Join Expr Query :=
  { source := .ofText "t", simple := true, on := [.column ⟨["a"]⟩], usingColumns := [⟨["id"]⟩] }

/-- Conditions that are added, replaced and put first. -/
def mixedConditions : List (JoinEdit Expr) :=
  [.addOn (.column ⟨["b"]⟩), .setOn [.column ⟨["c"]⟩], .putOn (.column ⟨["d"]⟩),
    .addOn (.column ⟨["e"]⟩), .putOn (.column ⟨["f"]⟩)]

theorem conditions_of_mixed_run :
    let conditions : List Expr :=
      [.column ⟨["f"]⟩, .column ⟨["d"]⟩, .column ⟨["c"]⟩, .column ⟨["e"]⟩]
    (∀ e ∈ mixedConditions, e.slot = .on) ∧
    listedTable.run mixedConditions = { listedTable with on := conditions } ∧
    (listedTable.run mixedConditions).firstOn = .ok (.column ⟨["f"]⟩) ∧
    ∀ d, render d (listedTable.run mixedConditions) =
      listedTable.leadText d ++ render d listedTable.source ++ listedTable.windowText d ++
        String.join (conditions.map fun e => " ON " ++ render d e) ++
        usingText d listedTable.usingColumns := by
  have onlyOn : ∀ e ∈ mixedConditions, e.slot = .on := by
    simp [mixedConditions, JoinEdit.slot]
  obtain ⟨result, first, -, -, text⟩ := conditions_of_run onlyOn listedTable
  exact ⟨onlyOn, result, (first _).mpr rfl, text⟩

end Join
end SqlSelect
