import SqlSelect.Proofs.Layout.Select
import SqlSelect.Proofs.Tree.Homomorphism
import SqlSelect.Tree.Tokens
namespace SqlSelect

open Phrase

variable {full : Prop} {ε κ : Type} {f : ε → Tokens} {p : ε → Prop} {g : κ → Tokens} {q : κ → Prop}

section

variable (parts : ∀ e, (full → p e) → Shaped full false .piece (f e))
variable (queries : ∀ c, (full → q c) → Shaped full true .piece (g c))

include parts in
theorem OrderBy.shaped {o : OrderBy ε} (filled : full → (o.map p).Filled) :
    Shaped full false .piece (o.map f).tokens := by
  refine .led (.leads (.leads (.before (.word rfl)) ?_) (.before (.word rfl))) ?_
  · exact .onlyIf .noLead (.before (.word rfl))
  · refine SortKey.shaped_list parts (fun isFull empty => (filled isFull).1 ?_) fun isFull =>
      (filled isFull).2
    exact List.map_eq_nil_iff.mpr empty

include parts in
theorem Limit.shaped {l : Limit ε} (filled : full → (l.map p).Filled) :
    Shaped full false .piece (l.map f).tokens := by
  cases l with
  | all => exact .words (List.cons_ne_nil _ _) rfl
  | count rows => exact .trailed (.word rfl) (.after (parts rows filled))

include parts in
theorem Offset.shaped {o : Offset ε} (filled : full → (o.map p).rows) :
    Shaped full false .piece (o.map f).tokens := by
  refine .trailed (.trailed (.word rfl) (.after (parts o.rows filled))) ?_
  refine .optional .noTrail fun word _ => .after (.word ?_)
  cases word <;> rfl

include parts in
theorem Fetch.shaped {x : Fetch ε} (filled : full → ∀ e ∈ (x.map p).quantity?, e) :
    Shaped full false .piece (x.map f).tokens := by
  refine .trailed (.trailed (.trailed (.trailed (.words (List.cons_ne_nil _ _) rfl) ?_) ?_) (.after (.word rfl)))
    (.after ?_)
  · exact .optionalMap .noTrail fun e here => .after (parts e fun isFull =>
      filled isFull _ (Option.mem_map_of_mem p here))
  · exact .onlyIf .noTrail (.after (.word rfl))
  · split
    · exact .words (List.cons_ne_nil _ _) rfl
    · exact .word rfl

include queries in
theorem With.shaped {w : With κ} (filled : full → (w.map q).Filled) :
    Shaped full false .piece (w.map g).tokens := by
  refine .led (.leads (.before (.word rfl)) (.onlyIf .noLead (.before (.word rfl)))) ?_
  refine .commas (fun isFull empty => (filled isFull).1 (by simpa [map] using empty)) ?_
  refine List.forall_mem_map.mpr (List.forall_mem_map.mpr fun c member => ?_)
  have query : Shaped full true .piece (g c.query) :=
    queries c.query fun isFull => by
      simpa [map, Cte.map] using (filled isFull).2 _ (List.mem_map_of_mem member)
  refine .trailed (.trailed (.trailed (.token rfl rfl) ?_) (.after (.word rfl)))
    (.after (.enclosed (.innerPiece query)))
  exact .nonempty .noTrail fun some => .after (.enclosed (.innerPiece (Shaped.idents some).weaken))

include queries in
theorem Envelope.shaped_leading {e : Envelope ε κ} (filled : full → (e.map p q).Filled) :
    Shaped full false .lead (e.map f g).leading :=
  .optionalMap .noLead fun _ here => .before (With.shaped queries fun isFull =>
    (filled isFull).withClause _ (Option.mem_map_of_mem _ here))

include parts in
theorem Envelope.shaped_trailing {e : Envelope ε κ} (filled : full → (e.map p q).Filled) :
    Shaped full false .trail (e.map f g).trailing := by
  refine .trails (.trails (.trails (.trails ?_ ?_) ?_) ?_) ?_
  · exact .optionalMap .noTrail fun o here => .after (OrderBy.shaped parts fun isFull =>
      (filled isFull).orderBy _ (Option.mem_map_of_mem _ here))
  · exact .optionalMap .noTrail fun l here => .after (Limit.shaped parts fun isFull =>
      (filled isFull).limit _ (Option.mem_map_of_mem _ here))
  · exact .optionalMap .noTrail fun o here => .after (Offset.shaped parts fun isFull =>
      (filled isFull).offset _ (Option.mem_map_of_mem _ here))
  · exact .optionalMap .noTrail fun x here => .after (Fetch.shaped parts fun isFull =>
      (filled isFull).fetch _ (Option.mem_map_of_mem _ here))
  · exact .flatMap fun l here => .after (Lock.shaped fun isFull => (filled isFull).locks l here)

end

structure Parts.Shaped (full : Prop) (b : Parts) : Prop where
  main : SqlSelect.Shaped full true .piece b.main
  tail : SqlSelect.Shaped full true .trail b.tail

theorem Parts.Shaped.whole {b : Parts} (shaped : b.Shaped full) :
    SqlSelect.Shaped full true .piece b.whole :=
  .trailed shaped.main shaped.tail

/-- What stands between two operands of a set operation makes a trail of the
    second. -/
theorem Writing.shaped_separator (op : SetOperator) (all : Bool) {x : Tokens}
    (operand : Shaped full true .piece x) : Shaped full true .trail (separator op all ++ x) := by
  have joint : separator op all ++ x =
      spaced (thenSpace (word op.keyword ++ onlyIf all (spaced (word .ALL))) ++ x) := by
    simp [separator, thenSpace, spaced]
  rw [joint]
  exact .after (.led (.before (.trailed (.word rfl) (.onlyIf .noTrail (.after (.word rfl)))))
    operand)

/-- Each kind of node is laid out by the rules when its parts are. -/
theorem Writing.shaped_related (full : Prop) :
    Interpretation.Related Writing.interpretation Filled.interpretation
      (fun ts filled => (full → filled) → Shaped full false .piece ts)
      (fun b filled => (full → filled) → b.Shaped full)
      (fun ts filled => (full → filled) → Shaped full true .piece ts) where
  all f p parts operands filled := by
    refine .joined (fun isFull empty => (filled isFull).1 (by simpa using empty)) ?_
      fun x piece => .after (.led (.before (.word rfl)) piece)
    exact List.forall_mem_map.mpr fun e member => parts e fun isFull =>
      (filled isFull).2 _ (List.mem_map_of_mem member)
  any f p parts operands filled := by
    refine .joined (fun isFull empty => (filled isFull).1 (by simpa using empty)) ?_
      fun x piece => .after (.led (.before (.word rfl)) piece)
    exact List.forall_mem_map.mpr fun e member => parts e fun isFull =>
      (filled isFull).2 _ (List.mem_map_of_mem member)
  binary op _ _ _ _ left right filled :=
    .trailed (.trailed (left fun isFull => (filled isFull).1) (.after op.shaped))
      (.after (right fun isFull => (filled isFull).2))
  column name filled := Name.shaped filled
  call f p parts c filled := Call.shaped parts filled
  inList f p parts subject members negated filled :=
    .trailed (.trailed (.trailed (parts subject fun isFull => (filled isFull).1)
      (.onlyIf .noTrail (.after (.word rfl)))) (.after (.word rfl)))
      (.after (.enclosed (.exprsInside parts fun isFull => (filled isFull).2)))
  isNull negated _ _ subject filled :=
    .trailed (.trailed (.trailed (subject filled) (.after (.word rfl)))
      (.onlyIf .noTrail (.after (.word rfl)))) (.after (.word rfl))
  nested inner filled := .enclosed (.innerPiece (inner filled).weaken)
  not operand filled := .trailed (.word rfl) (.after (operand filled))
  raw text _ := .token rfl rfl
  subquery query filled := .enclosed (.innerPiece (query filled))
  literal value _ := value.shaped
  select f p parts g q queries s filled :=
    ⟨(Select.shaped_main parts queries filled).weaken, (Select.shaped_tail _).weaken⟩
  combined op all _ f p parts operands filled := by
    refine ⟨.joined (fun isFull empty => (filled isFull).1 (by simpa using empty)) ?_
      fun x piece => shaped_separator op all piece, .noTrail⟩
    refine List.forall_mem_map.mpr (List.forall_mem_map.mpr fun b member => ?_)
    exact (parts b fun isFull => (filled isFull).2 _ (List.mem_map_of_mem member)).whole
  enclosed query filled := ⟨.enclosed (.innerPiece (query filled)), .noTrail⟩
  query f p parts g q queries envelope _ _ body filled := by
    have inside := body fun isFull => (filled isFull).2
    refine .trailed (.trailed (.led ?_ inside.main) ?_) inside.tail
    · exact (Envelope.shaped_leading queries fun isFull => (filled isFull).1).weaken
    · exact (Envelope.shaped_trailing parts fun isFull => (filled isFull).1).weaken

theorem Expr.shaped {e : Expr} (filled : full → e.Filled) : Shaped full false .piece e.tokens :=
  (Writing.shaped_related full).ofExpr e filled

theorem Query.shaped {q : Query} (filled : full → q.Filled) : Shaped full true .piece q.tokens :=
  (Writing.shaped_related full).ofQuery q filled

end SqlSelect
