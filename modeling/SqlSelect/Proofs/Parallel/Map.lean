import SqlSelect.Proofs.Parallel.Select
namespace SqlSelect

variable {ε κ α β : Type} {f : ε → α} {g : κ → β}

def Part.map (f : ε → α) (g : κ → β) : Part ε κ → Part α β
  | .expr e => .expr (f e)
  | .query q => .query (g q)

@[simp] theorem Part.map_expr (e : ε) : (Part.expr e).map f g = .expr (f e) := rfl

@[simp] theorem Part.map_query (q : κ) : (Part.query q).map f g = .query (g q) := rfl

@[simp] theorem Call.map_written (c : Call ε) :
    c.written.map (Part.map f g) = (c.map f).written := by
  simp [written, map]

@[simp] theorem Item.map_written (i : Item ε) :
    i.written.map (Part.map f g) = (i.map f).written := by
  cases i <;> simp [written, map]

@[simp] theorem Relation.map_written (r : Relation ε κ) :
    r.written.map (Part.map f g) = (r.map f g).written := by
  cases r <;> simp [written, map]

@[simp] theorem Join.map_written (j : Join ε κ) :
    j.written.map (Part.map f g) = (j.map f g).written := by
  simp [written, map]

@[simp] theorem LateralView.map_written (v : LateralView ε) :
    v.written.map (Part.map f g) = (v.map f).written := by
  simp [written, map]

@[simp] theorem GroupBy.map_written (b : GroupBy ε) :
    b.written.map (Part.map f g) = (b.map f).written := by
  simp [written, map, List.map_flatMap, List.flatMap_map, Function.comp_def]

@[simp] theorem SortKey.map_written (k : SortKey ε) :
    k.written.map (Part.map f g) = (k.map f).written := rfl

@[simp] theorem Distinct.map_written (d : Distinct ε) :
    d.written.map (Part.map f g) = (d.map f).written := by
  simp [written, map, List.map_flatMap, List.flatMap_map]

@[simp] theorem Top.map_written (t : Top ε) :
    t.written.map (Part.map f g) = (t.map f).written := rfl

@[simp] theorem Preference.map_written (p : Preference ε) :
    p.written.map (Part.map f g) = (p.map f).written := by
  induction p <;> simp_all [written, map]

@[simp] theorem Preferring.map_written (p : Preferring ε) :
    p.written.map (Part.map f g) = (p.map f).written := by
  simp [written, map]

@[simp] theorem WindowSpec.map_written (s : WindowSpec ε) :
    s.written.map (Part.map f g) = (s.map f).written := by
  simp [written, map, List.map_flatMap, List.flatMap_map]

@[simp] theorem NamedWindow.map_written (w : NamedWindow ε) :
    w.written.map (Part.map f g) = (w.map f).written := by
  simp [written, map]

@[simp] theorem Hierarchy.map_written (h : Hierarchy ε) :
    h.written.map (Part.map f g) = (h.map f).written := by
  cases first : h.connectFirst <;> simp [written, map, first, Option.toList_map]

@[simp] theorem Skip.map_written (s : Skip ε) :
    s.written.map (Part.map f g) = (s.map f).written := rfl

@[simp] theorem First.map_written (x : First ε) :
    x.written.map (Part.map f g) = (x.map f).written := rfl

@[simp] theorem InformixClauses.map_written (i : InformixClauses ε) :
    i.written.map (Part.map f g) = (i.map f).written := by
  simp [written, map, List.map_flatMap, List.flatMap_map, Option.toList_map]

@[simp] theorem OrderBy.map_written (o : OrderBy ε) :
    o.written.map (Part.map f g) = (o.map f).written := by
  simp [written, map, List.map_flatMap, List.flatMap_map]

@[simp] theorem Limit.map_written (l : Limit ε) :
    l.written.map (Part.map f g) = (l.map f).written := by
  cases l <;> rfl

@[simp] theorem Offset.map_written (o : Offset ε) :
    o.written.map (Part.map f g) = (o.map f).written := rfl

@[simp] theorem Fetch.map_written (x : Fetch ε) :
    x.written.map (Part.map f g) = (x.map f).written := by
  simp [written, map, Option.toList_map]

@[simp] theorem Cte.map_written (c : Cte κ) :
    c.written.map (Part.map f g) = (c.map g).written := rfl

@[simp] theorem With.map_written (w : With κ) :
    w.written.map (Part.map f g) = (w.map g).written := by
  simp [written, map, List.map_flatMap, List.flatMap_map]

theorem Envelope.map_leadingWritten (e : Envelope ε κ) :
    e.leadingWritten.map (Part.map f g) = (e.map f g).leadingWritten := by
  simp [leadingWritten, map, List.map_flatMap, List.flatMap_map, Option.toList_map]

theorem Envelope.map_trailingWritten (e : Envelope ε κ) :
    e.trailingWritten.map (Part.map f g) = (e.map f g).trailingWritten := by
  simp [trailingWritten, map, List.map_flatMap, List.flatMap_map, Option.toList_map]

theorem Select.map_openingWritten (s : Select ε κ) (source : Relation ε κ) :
    (s.openingWritten source).map (Part.map f g) =
      (s.map f g).openingWritten (source.map f g) := by
  simp [openingWritten, map, List.map_flatMap, List.flatMap_map]

theorem Select.map_closingWritten (s : Select ε κ) :
    s.closingWritten.map (Part.map f g) = (s.map f g).closingWritten := by
  simp [closingWritten, conditionWritten, map, OracleClauses.map, List.map_flatMap,
    List.flatMap_map, Option.toList_map, Function.comp_def]

theorem Select.map_headWritten (s : Select ε κ) :
    s.headWritten.map (Part.map f g) = (s.map f g).headWritten := by
  simp [headWritten, map, List.map_flatMap, List.flatMap_map, Option.toList_map]

end SqlSelect
