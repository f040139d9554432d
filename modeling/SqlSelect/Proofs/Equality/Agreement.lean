import SqlSelect.Clause.Envelope
import SqlSelect.Clause.Select
namespace SqlSelect

/-!
# What agreement says

Two clauses that agree have the same slots, and a part in each slot that has one.
So when the test is passed only by parts with the same image, the two clauses have
the same image.  A clause of images agrees when the parts agree under the test of
their images.
-/

section

variable {α α' β : Type} {part : α → α' → Bool} {h : α → β} {h' : α' → β}
variable (alike : ∀ a a', part a a' = true → h a = h' a')
include alike

theorem agreeList_map_eq ⦃xs : List α⦄ ⦃ys : List α'⦄
    (agreed : agreeList part xs ys = true) : xs.map h = ys.map h' := by
  induction xs generalizing ys with
  | nil =>
      cases ys with
      | nil => rfl
      | cons y ys => simp [agreeList] at agreed
  | cons x xs ih =>
      cases ys with
      | nil => simp [agreeList] at agreed
      | cons y ys =>
          simp only [agreeList, Bool.and_eq_true] at agreed
          rw [List.map_cons, List.map_cons, alike x y agreed.1, ih agreed.2]

theorem agreeOption_map_eq ⦃x : Option α⦄ ⦃y : Option α'⦄
    (agreed : agreeOption part x y = true) : x.map h = y.map h' := by
  cases x with
  | none =>
      cases y with
      | none => rfl
      | some y => simp [agreeOption] at agreed
  | some x =>
      cases y with
      | none => simp [agreeOption] at agreed
      | some y => exact congrArg some (alike x y agreed)

end

section

variable {ε ε' α : Type} {expr : ε → ε' → Bool} {h : ε → α} {h' : ε' → α}
variable (alike : ∀ e e', expr e e' = true → h e = h' e')
include alike

theorem Call.map_eq_of_agree ⦃c : Call ε⦄ ⦃c' : Call ε'⦄
    (agreed : c.agree expr c' = true) : c.map h = c'.map h' := by
  obtain ⟨function, args, distinct⟩ := c
  obtain ⟨function', args', distinct'⟩ := c'
  simp only [agree, Bool.and_eq_true, beq_iff_eq] at agreed
  obtain ⟨⟨rfl, args⟩, rfl⟩ := agreed
  rw [map, map, agreeList_map_eq alike args]

theorem Item.map_eq_of_agree ⦃i : Item ε⦄ ⦃i' : Item ε'⦄
    (agreed : i.agree expr i' = true) : i.map h = i'.map h' := by
  cases i <;> cases i' <;> simp only [agree, Bool.and_eq_true, beq_iff_eq] at agreed
  case wildcard.wildcard => rfl
  case wildcardOf.wildcardOf => rw [map, map, agreed]
  case expr.expr => rw [map, map, alike _ _ agreed.1, agreed.2]
  all_goals contradiction

theorem LateralView.map_eq_of_agree ⦃v : LateralView ε⦄ ⦃v' : LateralView ε'⦄
    (agreed : v.agree expr v' = true) : v.map h = v'.map h' := by
  obtain ⟨outer, generator, relation?, columns⟩ := v
  obtain ⟨outer', generator', relation?', columns'⟩ := v'
  simp only [agree, Bool.and_eq_true, beq_iff_eq] at agreed
  obtain ⟨⟨⟨rfl, generator⟩, rfl⟩, rfl⟩ := agreed
  simp only [map, Call.map_eq_of_agree alike generator]

theorem GroupBy.map_eq_of_agree ⦃b : GroupBy ε⦄ ⦃b' : GroupBy ε'⦄
    (agreed : b.agree expr b' = true) : b.map h = b'.map h' := by
  obtain ⟨exprs, sets⟩ := b
  obtain ⟨exprs', sets'⟩ := b'
  simp only [agree, Bool.and_eq_true] at agreed
  rw [map, map, agreeList_map_eq alike agreed.1,
    agreeList_map_eq (agreeList_map_eq alike) agreed.2]

theorem SortKey.map_eq_of_agree ⦃s : SortKey ε⦄ ⦃s' : SortKey ε'⦄
    (agreed : s.agree expr s' = true) : s.map h = s'.map h' := by
  obtain ⟨e, order?, nulls?⟩ := s
  obtain ⟨e', order?', nulls?'⟩ := s'
  simp only [agree, Bool.and_eq_true, beq_iff_eq] at agreed
  obtain ⟨⟨key, rfl⟩, rfl⟩ := agreed
  rw [map, map, alike _ _ key]

theorem OrderBy.map_eq_of_agree ⦃o : OrderBy ε⦄ ⦃o' : OrderBy ε'⦄
    (agreed : o.agree expr o' = true) : o.map h = o'.map h' := by
  obtain ⟨keys, siblings⟩ := o
  obtain ⟨keys', siblings'⟩ := o'
  simp only [agree, Bool.and_eq_true, beq_iff_eq] at agreed
  obtain ⟨keys, rfl⟩ := agreed
  rw [map, map, agreeList_map_eq (SortKey.map_eq_of_agree alike) keys]

theorem Distinct.map_eq_of_agree ⦃d : Distinct ε⦄ ⦃d' : Distinct ε'⦄
    (agreed : d.agree expr d' = true) : d.map h = d'.map h' := by
  obtain ⟨unique, on⟩ := d
  obtain ⟨unique', on'⟩ := d'
  simp only [agree, Bool.and_eq_true, beq_iff_eq] at agreed
  obtain ⟨rfl, on⟩ := agreed
  rw [map, map, agreeList_map_eq (Item.map_eq_of_agree alike) on]

theorem Top.map_eq_of_agree ⦃t : Top ε⦄ ⦃t' : Top ε'⦄
    (agreed : t.agree expr t' = true) : t.map h = t'.map h' := by
  obtain ⟨quantity, parenthesized, percent, withTies⟩ := t
  obtain ⟨quantity', parenthesized', percent', withTies'⟩ := t'
  simp only [agree, Bool.and_eq_true, beq_iff_eq] at agreed
  obtain ⟨⟨⟨quantity, rfl⟩, rfl⟩, rfl⟩ := agreed
  rw [map, map, alike _ _ quantity]

theorem Preference.map_eq_of_agree ⦃p : Preference ε⦄ ⦃p' : Preference ε'⦄
    (agreed : p.agree expr p' = true) : p.map h = p'.map h' := by
  induction p generalizing p' <;> cases p' <;>
    simp only [agree, Bool.and_eq_true] at agreed
  case high.high | low.low | expr.expr => rw [map, map, alike _ _ agreed]
  case inverse.inverse ih _ => rw [map, map, ih agreed]
  case plus.plus leftIh rightIh _ _ | priorTo.priorTo leftIh rightIh _ _ =>
    rw [map, map, leftIh agreed.1, rightIh agreed.2]
  all_goals contradiction

theorem Preferring.map_eq_of_agree ⦃p : Preferring ε⦄ ⦃p' : Preferring ε'⦄
    (agreed : p.agree expr p' = true) : p.map h = p'.map h' := by
  obtain ⟨term, partition⟩ := p
  obtain ⟨term', partition'⟩ := p'
  simp only [agree, Bool.and_eq_true] at agreed
  rw [map, map, Preference.map_eq_of_agree alike agreed.1, agreeList_map_eq alike agreed.2]

theorem WindowSpec.map_eq_of_agree ⦃s : WindowSpec ε⦄ ⦃s' : WindowSpec ε'⦄
    (agreed : s.agree expr s' = true) : s.map h = s'.map h' := by
  obtain ⟨base?, partition, order⟩ := s
  obtain ⟨base?', partition', order'⟩ := s'
  simp only [agree, Bool.and_eq_true, beq_iff_eq] at agreed
  obtain ⟨⟨rfl, partition⟩, order⟩ := agreed
  rw [map, map, agreeList_map_eq alike partition,
    agreeList_map_eq (SortKey.map_eq_of_agree alike) order]

theorem NamedWindow.map_eq_of_agree ⦃w : NamedWindow ε⦄ ⦃w' : NamedWindow ε'⦄
    (agreed : w.agree expr w' = true) : w.map h = w'.map h' := by
  obtain ⟨name, spec⟩ := w
  obtain ⟨name', spec'⟩ := w'
  simp only [agree, Bool.and_eq_true, beq_iff_eq] at agreed
  obtain ⟨rfl, spec⟩ := agreed
  rw [map, map, WindowSpec.map_eq_of_agree alike spec]

theorem Hierarchy.map_eq_of_agree ⦃x : Hierarchy ε⦄ ⦃x' : Hierarchy ε'⦄
    (agreed : x.agree expr x' = true) : x.map h = x'.map h' := by
  obtain ⟨startWith?, connectBy, noCycle, connectFirst⟩ := x
  obtain ⟨startWith?', connectBy', noCycle', connectFirst'⟩ := x'
  simp only [agree, Bool.and_eq_true, beq_iff_eq] at agreed
  obtain ⟨⟨⟨start, connect⟩, rfl⟩, rfl⟩ := agreed
  rw [map, map, agreeOption_map_eq alike start, alike _ _ connect]

theorem OracleClauses.map_eq_of_agree ⦃o : OracleClauses ε⦄ ⦃o' : OracleClauses ε'⦄
    (agreed : o.agree expr o' = true) : o.map h = o'.map h' := by
  obtain ⟨hint?, hierarchy?⟩ := o
  obtain ⟨hint?', hierarchy?'⟩ := o'
  simp only [agree, Bool.and_eq_true, beq_iff_eq] at agreed
  obtain ⟨rfl, hierarchy⟩ := agreed
  rw [map, map, agreeOption_map_eq (Hierarchy.map_eq_of_agree alike) hierarchy]

theorem Skip.map_eq_of_agree ⦃s : Skip ε⦄ ⦃s' : Skip ε'⦄
    (agreed : s.agree expr s' = true) : s.map h = s'.map h' :=
  congrArg Skip.mk (alike s.rows s'.rows agreed)

theorem First.map_eq_of_agree ⦃x : First ε⦄ ⦃x' : First ε'⦄
    (agreed : x.agree expr x' = true) : x.map h = x'.map h' := by
  obtain ⟨limit, rows⟩ := x
  obtain ⟨limit', rows'⟩ := x'
  simp only [agree, Bool.and_eq_true, beq_iff_eq] at agreed
  obtain ⟨rfl, rows⟩ := agreed
  rw [map, map, alike _ _ rows]

theorem InformixClauses.map_eq_of_agree ⦃i : InformixClauses ε⦄ ⦃i' : InformixClauses ε'⦄
    (agreed : i.agree expr i' = true) : i.map h = i'.map h' := by
  obtain ⟨skip?, first?, intoTemp?, noLog⟩ := i
  obtain ⟨skip?', first?', intoTemp?', noLog'⟩ := i'
  simp only [agree, Bool.and_eq_true, beq_iff_eq] at agreed
  obtain ⟨⟨⟨skip, first⟩, rfl⟩, rfl⟩ := agreed
  rw [map, map, agreeOption_map_eq (Skip.map_eq_of_agree alike) skip,
    agreeOption_map_eq (First.map_eq_of_agree alike) first]

theorem Limit.map_eq_of_agree ⦃l : Limit ε⦄ ⦃l' : Limit ε'⦄
    (agreed : l.agree expr l' = true) : l.map h = l'.map h' := by
  cases l <;> cases l' <;> simp only [agree] at agreed
  case all.all => rfl
  case count.count => rw [map, map, alike _ _ agreed]
  all_goals contradiction

theorem Offset.map_eq_of_agree ⦃o : Offset ε⦄ ⦃o' : Offset ε'⦄
    (agreed : o.agree expr o' = true) : o.map h = o'.map h' := by
  obtain ⟨rows, word?⟩ := o
  obtain ⟨rows', word?'⟩ := o'
  simp only [agree, Bool.and_eq_true, beq_iff_eq] at agreed
  obtain ⟨rows, rfl⟩ := agreed
  rw [map, map, alike _ _ rows]

theorem Fetch.map_eq_of_agree ⦃x : Fetch ε⦄ ⦃x' : Fetch ε'⦄
    (agreed : x.agree expr x' = true) : x.map h = x'.map h' := by
  obtain ⟨quantity?, percent, withTies⟩ := x
  obtain ⟨quantity?', percent', withTies'⟩ := x'
  simp only [agree, Bool.and_eq_true, beq_iff_eq] at agreed
  obtain ⟨⟨quantity, rfl⟩, rfl⟩ := agreed
  rw [map, map, agreeOption_map_eq alike quantity]

end

section

variable {κ κ' β : Type} {query : κ → κ' → Bool} {g : κ → β} {g' : κ' → β}
variable (alikeQueries : ∀ q q', query q q' = true → g q = g' q')
include alikeQueries

theorem Cte.map_eq_of_agree ⦃c : Cte κ⦄ ⦃c' : Cte κ'⦄
    (agreed : c.agree query c' = true) : c.map g = c'.map g' := by
  obtain ⟨name, columns, q⟩ := c
  obtain ⟨name', columns', q'⟩ := c'
  simp only [agree, Bool.and_eq_true, beq_iff_eq] at agreed
  obtain ⟨⟨rfl, rfl⟩, inner⟩ := agreed
  simp only [map, alikeQueries _ _ inner]

theorem With.map_eq_of_agree ⦃w : With κ⦄ ⦃w' : With κ'⦄
    (agreed : w.agree query w' = true) : w.map g = w'.map g' := by
  obtain ⟨recursive, ctes⟩ := w
  obtain ⟨recursive', ctes'⟩ := w'
  simp only [agree, Bool.and_eq_true, beq_iff_eq] at agreed
  obtain ⟨rfl, ctes⟩ := agreed
  rw [map, map, agreeList_map_eq (Cte.map_eq_of_agree alikeQueries) ctes]

variable {ε ε' α : Type} {expr : ε → ε' → Bool} {h : ε → α} {h' : ε' → α}
variable (alike : ∀ e e', expr e e' = true → h e = h' e')
include alike

theorem Relation.map_eq_of_agree ⦃r : Relation ε κ⦄ ⦃r' : Relation ε' κ'⦄
    (agreed : r.agree expr query r' = true) : r.map h g = r'.map h' g' := by
  cases r <;> cases r' <;> simp only [agree, Bool.and_eq_true, beq_iff_eq] at agreed
  case table.table => rw [map, map, agreed]
  case subquery.subquery =>
    obtain ⟨⟨inner, rfl⟩, rfl⟩ := agreed
    rw [map, map, alikeQueries _ _ inner]
  case function.function => rw [map, map, Call.map_eq_of_agree alike agreed.1, agreed.2]
  all_goals contradiction

theorem Join.map_eq_of_agree ⦃j : Join ε κ⦄ ⦃j' : Join ε' κ'⦄
    (agreed : j.agree expr query j' = true) : j.map h g = j'.map h' g' := by
  obtain ⟨source, kind, global, straight, apply, simple, hint?, on, columns, within?⟩ := j
  obtain ⟨source', kind', global', straight', apply', simple', hint?', on', columns', within?'⟩ := j'
  simp only [agree, Bool.and_eq_true, beq_iff_eq] at agreed
  obtain ⟨⟨⟨⟨⟨⟨⟨⟨⟨source, rfl⟩, rfl⟩, rfl⟩, rfl⟩, rfl⟩, rfl⟩, on⟩, rfl⟩, rfl⟩ := agreed
  simp only [map, Relation.map_eq_of_agree alikeQueries alike source, agreeList_map_eq alike on]

theorem Select.map_eq_of_agree ⦃s : Select ε κ⦄ ⦃s' : Select ε' κ'⦄
    (agreed : s.agree expr query s' = true) : s.map h g = s'.map h' g' := by
  simp only [agree, Bool.and_eq_true, beq_iff_eq] at agreed
  obtain ⟨⟨⟨⟨⟨⟨⟨⟨⟨⟨⟨⟨⟨⟨⟨⟨⟨⟨⟨⟨⟨items, source⟩, joins⟩, views⟩, filter⟩, groupBy⟩, having⟩,
    qualify⟩, distinct⟩, shape⟩, top⟩, optimizeFor⟩, preferring⟩, xmlPath⟩, windows⟩, merged⟩,
    only⟩, into⟩, mysql⟩, oracle⟩, informix⟩, stream⟩ := agreed
  simp only [map, agreeList_map_eq (Item.map_eq_of_agree alike) items,
    agreeOption_map_eq (Relation.map_eq_of_agree alikeQueries alike) source,
    agreeList_map_eq (Join.map_eq_of_agree alikeQueries alike) joins,
    agreeList_map_eq (LateralView.map_eq_of_agree alike) views,
    agreeOption_map_eq alike filter,
    agreeOption_map_eq (GroupBy.map_eq_of_agree alike) groupBy,
    agreeOption_map_eq alike having, agreeOption_map_eq alike qualify,
    agreeOption_map_eq (Distinct.map_eq_of_agree alike) distinct, shape,
    agreeOption_map_eq (Top.map_eq_of_agree alike) top, optimizeFor,
    agreeOption_map_eq (Preferring.map_eq_of_agree alike) preferring, xmlPath,
    agreeList_map_eq (NamedWindow.map_eq_of_agree alike) windows, merged, only, into,
    mysql, agreeOption_map_eq (OracleClauses.map_eq_of_agree alike) oracle,
    agreeOption_map_eq (InformixClauses.map_eq_of_agree alike) informix, stream]

theorem Envelope.map_eq_of_agree ⦃e : Envelope ε κ⦄ ⦃e' : Envelope ε' κ'⦄
    (agreed : e.agree expr query e' = true) : e.map h g = e'.map h' g' := by
  simp only [agree, Bool.and_eq_true, beq_iff_eq] at agreed
  obtain ⟨⟨⟨⟨⟨with?, orderBy⟩, limit⟩, offset⟩, fetch⟩, locks⟩ := agreed
  simp only [map, agreeOption_map_eq (With.map_eq_of_agree alikeQueries) with?,
    agreeOption_map_eq (OrderBy.map_eq_of_agree alike) orderBy,
    agreeOption_map_eq (Limit.map_eq_of_agree alike) limit,
    agreeOption_map_eq (Offset.map_eq_of_agree alike) offset,
    agreeOption_map_eq (Fetch.map_eq_of_agree alike) fetch, locks]

end

section

variable {α α' β : Type} (part : β → α' → Bool) (k : α → β)

@[simp] theorem agreeList_map (xs : List α) :
    agreeList part (xs.map k) = agreeList (fun a => part (k a)) xs := by
  funext ys
  induction xs generalizing ys with
  | nil => cases ys <;> rfl
  | cons x xs ih =>
      cases ys with
      | nil => rfl
      | cons y ys => simp only [List.map_cons, agreeList, ih]

@[simp] theorem agreeOption_map (x : Option α) :
    agreeOption part (x.map k) = agreeOption (fun a => part (k a)) x := by
  funext y
  cases x <;> cases y <;> rfl

end

section

variable {ε ε' α : Type} (expr : α → ε' → Bool) (h : ε → α)

@[simp] theorem Call.agree_map (c : Call ε) :
    (c.map h).agree expr = c.agree fun e => expr (h e) := by
  funext c'
  simp [map, agree]

@[simp] theorem Item.agree_map (i : Item ε) :
    (i.map h).agree expr = i.agree fun e => expr (h e) := by
  funext i'
  cases i <;> cases i' <;> simp [map, agree]

@[simp] theorem LateralView.agree_map (v : LateralView ε) :
    (v.map h).agree expr = v.agree fun e => expr (h e) := by
  funext v'
  simp [map, agree]

@[simp] theorem GroupBy.agree_map (b : GroupBy ε) :
    (b.map h).agree expr = b.agree fun e => expr (h e) := by
  funext b'
  simp [map, agree]

@[simp] theorem SortKey.agree_map (s : SortKey ε) :
    (s.map h).agree expr = s.agree fun e => expr (h e) := by
  funext s'
  simp [map, agree]

@[simp] theorem OrderBy.agree_map (o : OrderBy ε) :
    (o.map h).agree expr = o.agree fun e => expr (h e) := by
  funext o'
  simp [map, agree]

@[simp] theorem Distinct.agree_map (d : Distinct ε) :
    (d.map h).agree expr = d.agree fun e => expr (h e) := by
  funext d'
  simp [map, agree]

@[simp] theorem Top.agree_map (t : Top ε) :
    (t.map h).agree expr = t.agree fun e => expr (h e) := by
  funext t'
  simp [map, agree]

@[simp] theorem Preference.agree_map (p : Preference ε) :
    (p.map h).agree expr = p.agree fun e => expr (h e) := by
  induction p <;> funext p' <;> cases p' <;> simp_all [map, agree]

@[simp] theorem Preferring.agree_map (p : Preferring ε) :
    (p.map h).agree expr = p.agree fun e => expr (h e) := by
  funext p'
  simp [map, agree]

@[simp] theorem WindowSpec.agree_map (s : WindowSpec ε) :
    (s.map h).agree expr = s.agree fun e => expr (h e) := by
  funext s'
  simp [map, agree]

@[simp] theorem NamedWindow.agree_map (w : NamedWindow ε) :
    (w.map h).agree expr = w.agree fun e => expr (h e) := by
  funext w'
  simp [map, agree]

@[simp] theorem Hierarchy.agree_map (x : Hierarchy ε) :
    (x.map h).agree expr = x.agree fun e => expr (h e) := by
  funext x'
  simp [map, agree]

@[simp] theorem OracleClauses.agree_map (o : OracleClauses ε) :
    (o.map h).agree expr = o.agree fun e => expr (h e) := by
  funext o'
  simp [map, agree]

@[simp] theorem Skip.agree_map (s : Skip ε) :
    (s.map h).agree expr = s.agree fun e => expr (h e) := by
  funext s'
  simp [map, agree]

@[simp] theorem First.agree_map (x : First ε) :
    (x.map h).agree expr = x.agree fun e => expr (h e) := by
  funext x'
  simp [map, agree]

@[simp] theorem InformixClauses.agree_map (i : InformixClauses ε) :
    (i.map h).agree expr = i.agree fun e => expr (h e) := by
  funext i'
  simp [map, agree]

@[simp] theorem Limit.agree_map (l : Limit ε) :
    (l.map h).agree expr = l.agree fun e => expr (h e) := by
  funext l'
  cases l <;> cases l' <;> simp [map, agree]

@[simp] theorem Offset.agree_map (o : Offset ε) :
    (o.map h).agree expr = o.agree fun e => expr (h e) := by
  funext o'
  simp [map, agree]

@[simp] theorem Fetch.agree_map (x : Fetch ε) :
    (x.map h).agree expr = x.agree fun e => expr (h e) := by
  funext x'
  simp [map, agree]

variable {κ κ' β : Type} (query : β → κ' → Bool) (g : κ → β)

@[simp] theorem Cte.agree_map (c : Cte κ) :
    (c.map g).agree query = c.agree fun q => query (g q) := by
  funext c'
  simp [map, agree]

@[simp] theorem With.agree_map (w : With κ) :
    (w.map g).agree query = w.agree fun q => query (g q) := by
  funext w'
  simp [map, agree]

@[simp] theorem Relation.agree_map (r : Relation ε κ) :
    (r.map h g).agree expr query = r.agree (fun e => expr (h e)) fun q => query (g q) := by
  funext r'
  cases r <;> cases r' <;> simp [map, agree]

@[simp] theorem Join.agree_map (j : Join ε κ) :
    (j.map h g).agree expr query = j.agree (fun e => expr (h e)) fun q => query (g q) := by
  funext j'
  simp [map, agree]

@[simp] theorem Select.agree_map (s : Select ε κ) :
    (s.map h g).agree expr query = s.agree (fun e => expr (h e)) fun q => query (g q) := by
  funext s'
  simp [map, agree]

@[simp] theorem Envelope.agree_map (e : Envelope ε κ) :
    (e.map h g).agree expr query = e.agree (fun e => expr (h e)) fun q => query (g q) := by
  funext e'
  simp [map, agree]

end

end SqlSelect
