import SqlSelect.Proofs.Layout.Clauses
namespace SqlSelect

open Phrase

variable {full : Prop} {ε κ : Type} {f : ε → Tokens} {p : ε → Prop} {g : κ → Tokens} {q : κ → Prop}

theorem OptimizerHint.shaped (h : OptimizerHint) : Shaped full false .piece (Written.tokens h) :=
  .trailed (.trailed (.mark rfl) (.after (.token rfl rfl))) (.after (.mark rfl))

theorem OptimizeFor.shaped (o : OptimizeFor) : Shaped full false .trail o.tokens :=
  .trails (.trails (.after (.words (List.cons_ne_nil _ _) rfl)) (.after (.token rfl rfl))) (.after (.word rfl))

theorem InformixClauses.shaped_into {i : InformixClauses ε} (filled : full → (i.map p).Filled) :
    Shaped full false .trail (i.map f).intoTokens := by
  refine .trails (.optional .noTrail fun t present => ?_)
    (.onlyIf .noTrail (.after (.words (List.cons_ne_nil _ _) rfl)))
  exact .trails (.after (.words (List.cons_ne_nil _ _) rfl))
    (.after (Table.shaped fun isFull => (filled isFull).2.2 t present))

section

variable (parts : ∀ e, (full → p e) → Shaped full false .piece (f e))
include parts

theorem SortKey.shaped {k : SortKey ε} (filled : full → (k.map p).Filled) :
    Shaped full false .piece (k.map f).tokens := by
  refine .trailed (.trailed (parts k.expr filled) ?_) ?_
  · refine .optional .noTrail fun order _ => .after (.word ?_)
    cases order <;> rfl
  · refine .optional .noTrail fun nulls _ => .after (.words nofun ?_)
    cases nulls <;> rfl

theorem SortKey.shaped_list {ks : List (SortKey ε)} (some : full → ks ≠ [])
    (filled : full → ∀ k ∈ ks.map (·.map p), k.Filled) :
    Shaped full false .piece (commas ((ks.map (·.map f)).map SortKey.tokens)) := by
  rw [List.map_map]
  refine .commas (fun isFull empty => some isFull (List.map_eq_nil_iff.mp empty)) ?_
  refine List.forall_mem_map.mpr fun k member => SortKey.shaped parts fun isFull => ?_
  exact filled isFull _ (List.mem_map_of_mem member)

theorem Distinct.shaped {d : Distinct ε} (filled : full → (d.map p).Filled) :
    Shaped full false .piece (d.map f).tokens := by
  refine .trailed (.word ?_) (.nonempty .noTrail fun _ => .trails (.after (.word rfl)) ?_)
  · cases (d.map f).unique <;> rfl
  · refine .after (.enclosed (.commasInside ?_))
    refine List.forall_mem_map.mpr (List.forall_mem_map.mpr fun i member => ?_)
    exact (Item.shaped parts fun isFull =>
      filled isFull _ (List.mem_map_of_mem member)).weaken

theorem Top.shaped {t : Top ε} (filled : full → (t.map p).Filled) :
    Shaped full false .piece (t.map f).tokens := by
  refine .trailed (.trailed (.trailed (.word rfl) (.after ?_)) ?_) ?_
  · split
    · exact .enclosed (.innerPiece (parts t.quantity filled).weaken)
    · exact parts t.quantity filled
  · exact .onlyIf .noTrail (.after (.word rfl))
  · exact .onlyIf .noTrail (.after (.words (List.cons_ne_nil _ _) rfl))

theorem GroupBy.shaped {g : GroupBy ε} (filled : full → (g.map p).Filled) :
    Shaped full false .piece (g.map f).tokens := by
  obtain ⟨exprs, sets⟩ := g
  have head : Shaped full false .lead (thenSpace (words [.GROUP, .BY])) :=
    .before (.words (List.cons_ne_nil _ _) rfl)
  have list : Shaped full false .piece (words [.GROUPING, .SETS] ++
      spaced (parens (commas ((sets.map (·.map f)).map (parens <| commas ·))))) := by
    refine .trailed (.words (List.cons_ne_nil _ _) rfl) (.after (.enclosed (.commasInside ?_)))
    refine List.forall_mem_map.mpr (List.forall_mem_map.mpr fun set member => .enclosed ?_)
    exact .exprsInside parts fun isFull =>
      (filled isFull).2.2 _ (List.mem_map_of_mem member)
  cases exprs with
  | nil =>
      cases sets with
      | nil =>
          refine .trailed (.led head (.nothing fun isFull => ?_)) .noTrail
          simpa [map] using (filled isFull).1
      | cons set rest => exact .led (.leads head .noLead) list
  | cons e rest =>
      refine .trailed
        (.led head (.exprs parts (fun _ => List.cons_ne_nil _ _) fun isFull => (filled isFull).2.1))
        ?_
      exact .nonempty .noTrail fun _ => .after list

theorem Preference.shaped {r : Preference ε} (filled : full → (r.map p).Filled) :
    Shaped full false .piece (r.map f).tokens := by
  induction r with
  | high value | low value => exact .trailed (.word rfl) (.after (parts value filled))
  | expr value => exact parts value filled
  | inverse term ih =>
      exact .trailed (.word rfl) (.after (.enclosed (.innerPiece (ih filled).weaken)))
  | plus left right leftIh rightIh =>
      exact .trailed (.trailed (leftIh fun isFull => (filled isFull).1) (.after (.word rfl)))
        (.after (rightIh fun isFull => (filled isFull).2))
  | priorTo left right leftIh rightIh =>
      exact .trailed (.trailed (leftIh fun isFull => (filled isFull).1) (.after (.words (List.cons_ne_nil _ _) rfl)))
        (.after (rightIh fun isFull => (filled isFull).2))

theorem Preferring.shaped {r : Preferring ε} (filled : full → (r.map p).Filled) :
    Shaped full false .piece (r.map f).tokens := by
  refine .trailed (.trailed (.word rfl) (.after ?_)) (.nonempty .noTrail fun some => ?_)
  · exact Preference.shaped parts fun isFull => (filled isFull).1
  · refine .trails (.after (.words (List.cons_ne_nil _ _) rfl))
      (.after (.exprs parts ?_ fun isFull => (filled isFull).2))
    exact fun _ empty => some (List.map_eq_nil_iff.mpr empty)

theorem WindowSpec.shaped_pieces {s : WindowSpec ε} (filled : full → (s.map p).Filled) :
    ∀ x ∈ (s.map f).pieces, Shaped full false .piece x := by
  obtain ⟨base?, partition, order⟩ := s
  intro x member
  simp only [pieces, map, List.mem_append, List.isEmpty_map] at member
  rcases member with (base | parted) | ordered
  · cases base? with
    | none => cases base
    | some name =>
        obtain rfl : x = [.ident name] := by simpa using base
        exact .token rfl rfl
  · split at parted
    · cases parted
    · obtain rfl := List.mem_singleton.mp parted
      exact .led (.before (.words (List.cons_ne_nil _ _) rfl))
        (.exprs parts (fun _ => by simp_all) fun isFull => (filled isFull).1)
  · split at ordered
    · cases ordered
    · obtain rfl := List.mem_singleton.mp ordered
      exact .led (.before (.words (List.cons_ne_nil _ _) rfl))
        (SortKey.shaped_list parts (fun _ => by simp_all) fun isFull => (filled isFull).2)

theorem WindowSpec.shaped {s : WindowSpec ε} (filled : full → (s.map p).Filled) :
    Shaped full true .inner (s.map f).tokens := by
  have each := WindowSpec.shaped_pieces parts filled
  unfold WindowSpec.tokens
  cases pieces : (s.map f).pieces with
  | nil => exact .innerLead .noLead
  | cons x rest =>
      rw [pieces] at each
      exact .innerPiece (.joined (fun _ => nofun) (fun y member => (each y member).weaken)
        fun _ piece => .after piece)

theorem NamedWindow.shaped {w : NamedWindow ε} (filled : full → (w.map p).Filled) :
    Shaped full false .piece (w.map f).tokens :=
  .trailed (.trailed (.token rfl rfl) (.after (.word rfl)))
    (.after (.enclosed (WindowSpec.shaped parts filled)))

theorem Hierarchy.shaped {h : Hierarchy ε} (filled : full → (h.map p).Filled) :
    Shaped full false .trail (h.map f).tokens := by
  have start : Shaped full false .trail (h.map f).startTokens := by
    refine .optionalMap .noTrail fun e present => ?_
    refine .trails (.after (.words (List.cons_ne_nil _ _) rfl)) (.after (parts e fun isFull => ?_))
    exact (filled isFull).1 _ (Option.mem_map_of_mem p present)
  have connect : Shaped full false .trail (h.map f).connectTokens :=
    .trails (.trails (.after (.words (List.cons_ne_nil _ _) rfl)) (.onlyIf .noTrail (.after (.word rfl))))
      (.after (parts h.connectBy fun isFull => (filled isFull).2))
  unfold Hierarchy.tokens
  split
  · exact .trails connect start
  · exact .trails start connect

theorem InformixClauses.shaped_head {i : InformixClauses ε} (filled : full → (i.map p).Filled) :
    Shaped full false .lead (i.map f).headTokens := by
  refine .leads (.optionalMap .noLead fun s present => ?_)
    (.optionalMap .noLead fun x present => ?_)
  · refine .before (.trailed (.word rfl) (.after (parts s.rows fun isFull => ?_)))
    exact (filled isFull).1 _ (Option.mem_map_of_mem _ present)
  · refine .before (.trailed (.word ?_) (.after (parts x.rows fun isFull => ?_)))
    · cases (x.map f).limit <;> rfl
    · exact (filled isFull).2.1 _ (Option.mem_map_of_mem _ present)

end

namespace Select

theorem shaped_head (parts : ∀ e, (full → p e) → Shaped full false .piece (f e)) {s : Select ε κ}
    (filled : full → (s.map p q).Filled) : Shaped full false .lead (s.map f g).head := by
  refine .leads (.leads (.leads (.leads (.leads (.leads ?_ ?_) ?_) ?_) ?_) ?_) ?_
  · exact .optional .noLead fun _ _ => .onlyIf .noLead (.before (.word rfl))
  · exact .optional .noLead fun o _ => .optional .noLead fun h _ => .before h.shaped
  · exact .optionalMap .noLead fun i present => InformixClauses.shaped_head parts fun isFull =>
      (filled isFull).informix _ (Option.mem_map_of_mem _ present)
  · exact .optionalMap .noLead fun d present => .before (Distinct.shaped parts fun isFull =>
      (filled isFull).distinct _ (Option.mem_map_of_mem _ present))
  · refine .optional .noLead fun shape _ => .before (.words nofun ?_)
    cases shape <;> rfl
  · exact .optionalMap .noLead fun t present => .before (Top.shaped parts fun isFull =>
      (filled isFull).top _ (Option.mem_map_of_mem _ present))
  · refine .optional .noLead fun m _ => .leads (.optional .noLead fun c _ => .before (.word ?_))
      (.onlyIf .noLead (.before (.word rfl)))
    cases c <;> rfl

theorem shaped_clause (parts : ∀ e, (full → p e) → Shaped full false .piece (f e)) {k : Keyword}
    (plain : (!(Token.keyword k).combines) = true) {e : Option ε}
    (filled : full → ∀ x ∈ e.map p, x) :
    Shaped full false .trail (clause k (e.map f)) :=
  .optionalMap .noTrail fun x present => .trails (.after (.word plain))
    (.after (parts x fun isFull => filled isFull _ (Option.mem_map_of_mem _ present)))

section

variable (parts : ∀ e, (full → p e) → Shaped full false .piece (f e))
variable (queries : ∀ c, (full → q c) → Shaped full true .piece (g c))
include parts queries

theorem shaped_fromClause {s : Select ε κ} {source : Relation ε κ}
    (present : s.source? = some source)
    (filled : full → (s.map p q).Filled) :
    Shaped full false .trail ((s.map f g).fromClause (source.map f g)) := by
  refine .trails (.trails (.trails (.trails (.trails (.trails (.trails (.trails (.trails (.trails
    (.trails (.trails (.trails (.trails (.after (.word rfl)) ?only) ?source) ?views) ?joins) ?final)
      ?window) ?filter) ?hierarchy) ?preferring) ?groupBy) ?having) ?qualify) ?windows) ?changes
  case only => exact .onlyIf .noTrail (.after (.word rfl))
  case source =>
      exact .after (Relation.shaped parts queries fun isFull =>
        (filled isFull).source _ (Option.mem_map_of_mem _ present))
  case views =>
      refine .flatMap (List.forall_mem_map.mpr fun v member => .after ?_)
      exact LateralView.shaped parts fun isFull =>
        (filled isFull).lateralViews _ (List.mem_map_of_mem member)
  case joins =>
      refine .flatMap (List.forall_mem_map.mpr fun j member => ?_)
      exact Join.shaped_listed parts queries fun isFull =>
        (filled isFull).joins _ (List.mem_map_of_mem member)
  case final => exact .onlyIf .noTrail (.after (.word rfl))
  case window =>
      exact .optional .noTrail fun c _ => .optional .noTrail fun w _ =>
        .trails (.after (.word rfl)) (.after w.shaped)
  case filter => exact shaped_clause parts rfl fun isFull => (filled isFull).filter
  case hierarchy =>
      refine .optionalMap .noTrail fun o here => .optionalMap .noTrail fun h there => ?_
      exact Hierarchy.shaped parts fun isFull =>
        (filled isFull).oracle _ (Option.mem_map_of_mem _ here) _ (Option.mem_map_of_mem _ there)
  case preferring =>
      exact .optionalMap .noTrail fun r here => .after (Preferring.shaped parts fun isFull =>
        (filled isFull).preferring _ (Option.mem_map_of_mem _ here))
  case groupBy =>
      exact .optionalMap .noTrail fun r here => .after (GroupBy.shaped parts fun isFull =>
        (filled isFull).groupBy _ (Option.mem_map_of_mem _ here))
  case having => exact shaped_clause parts rfl fun isFull => (filled isFull).having
  case qualify => exact shaped_clause parts rfl fun isFull => (filled isFull).qualify
  case windows =>
      refine .nonempty .noTrail fun some => .trails (.after (.word rfl)) (.after ?_)
      refine .commas (fun _ empty => some (List.map_eq_nil_iff.mp empty)) ?_
      refine List.forall_mem_map.mpr (List.forall_mem_map.mpr fun w member => ?_)
      exact NamedWindow.shaped parts fun isFull =>
        (filled isFull).windows _ (List.mem_map_of_mem member)
  case changes =>
      exact .optional .noTrail fun _ _ => .onlyIf .noTrail (.after (.words (List.cons_ne_nil _ _) rfl))

theorem shaped_main {s : Select ε κ} (filled : full → (s.map p q).Filled) :
    Shaped full false .piece (s.map f g).main := by
  have items : Shaped full false .piece (commas ((s.map f g).items.map Item.tokens)) := by
    refine .commas (fun isFull empty => (filled isFull).projects ?_) ?_
    · simpa [map] using empty
    · refine List.forall_mem_map.mpr (List.forall_mem_map.mpr fun i member => ?_)
      exact Item.shaped parts fun isFull => (filled isFull).items _ (List.mem_map_of_mem member)
  have head : Shaped full false .lead (s.map f g).head := shaped_head parts filled
  refine .trailed (.trailed (.trailed (.led (.leads (.before (.word rfl)) head) items) ?into) ?body)
    ?temp
  case into =>
      refine .nonempty .noTrail fun some => .trails (.after (.word rfl)) ?_
      exact Table.shaped_list some fun isFull => (filled isFull).into
  case body =>
      cases present : s.source? with
      | none =>
          simp only [map, present, Option.map_none]
          exact shaped_clause parts rfl fun isFull => (filled isFull).filter
      | some source =>
          have clause := shaped_fromClause parts queries present filled
          simpa only [map, present, Option.map_some] using clause
  case temp =>
      exact .optionalMap .noTrail fun i here => InformixClauses.shaped_into fun isFull =>
        (filled isFull).informix _ (Option.mem_map_of_mem _ here)

end

theorem shaped_tail (s : Select ε κ) : Shaped full false .trail s.tail := by
  refine .trails (.optional .noTrail fun o _ => o.shaped) (.optional .noTrail fun _ _ => ?_)
  exact .trails (.trails (.after (.words (List.cons_ne_nil _ _) rfl)) (.after (.word rfl)))
    (.attached (.innerPiece (.token rfl rfl)))

end Select
end SqlSelect
