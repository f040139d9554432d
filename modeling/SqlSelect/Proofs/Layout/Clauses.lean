import SqlSelect.Proofs.Layout.Basic
import SqlSelect.Proofs.Layout.Filled
namespace SqlSelect

open Phrase

section

variable {full : Prop} {ε κ : Type} {f : ε → Tokens} {p : ε → Prop} {g : κ → Tokens} {q : κ → Prop}

theorem Name.shaped {n : Name} (filled : full → n.Filled) : Shaped full false .piece n.tokens := by
  refine .dotted (fun isFull empty => filled isFull (List.map_eq_nil_iff.mp empty)) ?_
  exact List.forall_mem_map.mpr fun _ _ => .token rfl rfl

theorem Alias.shaped (a : Alias) : Shaped full false .piece a.tokens :=
  .led (.onlyIf .noLead (.before (.word rfl))) (.token rfl rfl)

theorem Alias.shaped_suffix (a : Option Alias) : Shaped full false .trail (Alias.suffix a) :=
  .optional .noTrail fun a _ => .after a.shaped

theorem Table.shaped {t : Table} (filled : full → t.Filled) : Shaped full false .piece t.tokens :=
  .trailed (Name.shaped filled) (Alias.shaped_suffix t.alias?)

theorem Table.shaped_list {ts : List Table} (some : ts ≠ []) (filled : full → ∀ t ∈ ts, t.Filled) :
    Shaped full false .trail (spaced (commas (ts.map Table.tokens))) :=
  .after (.commas (fun _ empty => some (List.map_eq_nil_iff.mp empty))
    (List.forall_mem_map.mpr fun t member => t.shaped fun isFull => filled isFull t member))

theorem Shaped.idents {names : List String} (some : names ≠ []) :
    Shaped full false .piece (Phrase.commas (names.map fun name => [.ident name])) :=
  .commas (fun _ empty => some (List.map_eq_nil_iff.mp empty))
    (List.forall_mem_map.mpr fun _ _ => .token rfl rfl)

theorem Literal.shaped (v : Literal) : Shaped full false .piece v.tokens := by
  cases v with
  | bool value => cases value <;> exact .token rfl rfl
  | _ => exact .token rfl rfl

theorem Operator.shaped (op : Operator) : Shaped full false .piece [op.token] := by
  cases op <;> first | exact .mark rfl | exact .token rfl rfl

theorem Duration.shaped (d : Duration) : Shaped full false .piece d.tokens := by
  have unit : (false || !(Token.keyword d.keyword).combines) = true := by
    obtain ⟨count, unit⟩ := d
    cases unit <;> cases one : count == 1 <;> simp [Duration.keyword, TimeUnit.keyword, one,
      Token.combines]
  exact .trailed (x := [.count d.count]) (.token rfl rfl) (.after (.token rfl unit))

theorem Within.shaped (w : Within) : Shaped full false .piece w.tokens := by
  obtain ⟨before, after?⟩ := w
  refine .enclosed (.commasInside ?_)
  cases after? with
  | none => simpa using before.shaped.weaken
  | some after => simpa using ⟨before.shaped.weaken, after.shaped.weaken⟩

theorem StreamWindow.shaped (w : StreamWindow) : Shaped full false .piece w.tokens := by
  cases w with
  | hopping size advance =>
      refine .trailed (.word rfl) (.after (.enclosed (.commasInside ?_)))
      simp only [List.forall_mem_cons, List.not_mem_nil, false_implies, implies_true, and_true]
      exact ⟨.trailed (.word rfl) (.after size.shaped.weaken),
        .trailed (.words (List.cons_ne_nil _ _) rfl) (.after advance.shaped.weaken)⟩
  | session gap => exact .trailed (.word rfl) (.after (.enclosed (.innerPiece gap.shaped.weaken)))
  | tumbling size =>
      exact .trailed (.word rfl) (.after (.enclosed
        (.innerPiece (.trailed (.word rfl) (.after size.shaped.weaken)))))

theorem Lock.shaped {l : Lock} (filled : full → l.Filled) : Shaped full false .piece l.tokens := by
  obtain ⟨strength, tables, patience?⟩ := l
  refine .trailed (.trailed (.words nofun ?_) (.nonempty .noTrail fun some => ?_))
    (.optional .noTrail fun patience _ => .after (.words ?_ ?_))
  · cases strength <;> rfl
  · exact .trails (.after (.word rfl)) (Table.shaped_list some filled)
  · cases patience <;> nofun
  · cases patience <;> rfl

theorem Join.shaped_head (j : Join ε κ) : Shaped full false .lead j.head := by
  unfold Join.head
  split
  · exact .onlyIf .noLead (.before (.word rfl))
  · refine .leads (.leads (.leads (.leads ?_ ?_) ?_) ?_) (.before (.word ?_))
    · exact .onlyIf .noLead (.before (.word rfl))
    · refine .optional .noLead fun side _ => .before (.word ?_)
      cases side <;> rfl
    · refine .optional .noLead fun manner _ => .before (.word ?_)
      cases manner <;> rfl
    · unfold Join.hintTokens
      split
      · exact .optional .noLead fun _ _ => .omitted
      · refine .optional .noLead fun hint _ => .before (.word ?_)
        cases hint <;> rfl
    · unfold Join.keyword
      split
      · rfl
      · split <;> rfl

section

variable (parts : ∀ e, (full → p e) → Shaped full false .piece (f e))
include parts

theorem Shaped.exprs {es : List ε} (some : full → es ≠ []) (filled : full → ∀ e ∈ es.map p, e) :
    Shaped full false .piece (Phrase.commas (es.map f)) :=
  .commas (fun isFull empty => some isFull (List.map_eq_nil_iff.mp empty))
    (List.forall_mem_map.mpr fun e member =>
      parts e fun isFull => filled isFull (p e) (List.mem_map_of_mem member))

theorem Shaped.exprsInside {es : List ε} (filled : full → ∀ e ∈ es.map p, e) :
    Shaped full true .inner (Phrase.commas (es.map f)) :=
  .commasInside (List.forall_mem_map.mpr fun e member =>
    (parts e fun isFull => filled isFull (p e) (List.mem_map_of_mem member)).weaken)

theorem Call.shaped {c : Call ε} (filled : full → (c.map p).Filled) :
    Shaped full false .piece (c.map f).tokens := by
  refine .trailed
    (.dotted (fun isFull empty => (filled isFull).1 (List.map_eq_nil_iff.mp empty)) ?_)
    (.attached (.ledInside ?_ ?_))
  · exact List.forall_mem_map.mpr fun _ _ => .token rfl rfl
  · exact .onlyIf .noLead (.before (.word rfl))
  · exact .exprsInside parts fun isFull => (filled isFull).2

theorem Item.shaped {i : Item ε} (filled : full → (i.map p).Filled) :
    Shaped full false .piece (i.map f).tokens := by
  cases i with
  | wildcard => exact .mark rfl
  | wildcardOf relation => exact .trailed (Name.shaped filled) (.glued rfl (.mark rfl))
  | expr value alias? => exact .trailed (parts value filled) (Alias.shaped_suffix alias?)

theorem LateralView.shaped {v : LateralView ε} (filled : full → (v.map p).Filled) :
    Shaped full false .piece (v.map f).tokens := by
  refine .trailed (.trailed (.trailed (.trailed (.words (List.cons_ne_nil _ _) rfl) ?_) ?_) ?_) ?_
  · exact .onlyIf .noTrail (.after (.word rfl))
  · exact .after (Call.shaped parts filled)
  · exact .optional .noTrail fun _ _ => .after (.token rfl rfl)
  · exact .nonempty .noTrail fun some => .trails (.after (.word rfl)) (.after (.idents some))

end

section

variable (parts : ∀ e, (full → p e) → Shaped full false .piece (f e))
variable (queries : ∀ c, (full → q c) → Shaped full true .piece (g c))
include parts queries

theorem Relation.shaped {r : Relation ε κ} (filled : full → (r.map p q).Filled) :
    Shaped full false .piece (r.map f g).tokens := by
  cases r with
  | table t => exact Table.shaped filled
  | subquery query alias? lateral =>
      refine .trailed (.led ?_ (.enclosed (.innerPiece (queries query filled))))
        (Alias.shaped_suffix alias?)
      exact .onlyIf .noLead (.before (.word rfl))
  | function call alias? =>
      exact .trailed (Call.shaped parts filled) (Alias.shaped_suffix alias?)

theorem Join.shaped {j : Join ε κ} (filled : full → (j.map p q).Filled) :
    Shaped full false .piece (j.map f g).tokens := by
  refine .trailed (.trailed (.led (.leads ?_ (j.map f g).shaped_head) ?_) ?_) (.trails ?_ ?_)
  · exact .onlyIf .noLead (.before (.word rfl))
  · exact Relation.shaped parts queries fun isFull => (filled isFull).1
  · unfold Join.windowTokens
    split
    · exact .noTrail
    · exact .optional .noTrail fun w _ => .trails (.after (.word rfl)) (.after w.shaped)
  · refine .flatMap (List.forall_mem_map.mpr fun e member => ?_)
    refine .trails (.after (.word rfl)) (.after (parts e fun isFull => ?_))
    exact (filled isFull).2.1 (p e) (List.mem_map_of_mem member)
  · refine .nonempty .noTrail fun _ => .trails (.after (.word rfl)) (.after (.enclosed ?_))
    refine .commasInside (List.forall_mem_map.mpr fun n member => ?_)
    exact (Name.shaped fun isFull => (filled isFull).2.2 n member).weaken

theorem Join.shaped_listed {j : Join ε κ} (filled : full → (j.map p q).Filled) :
    Shaped full false .trail (j.map f g).listed := by
  have rest : Shaped full false .trail (spaced (j.map f g).tokens) :=
    .after (Join.shaped parts queries filled)
  unfold Join.listed
  cases (j.map f g).simple with
  | false => exact rest
  | true => exact .marked rfl rest

end

end
end SqlSelect
