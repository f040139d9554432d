import Mathlib.Data.List.Induction
import SqlSelect.AccessError
namespace SqlSelect

namespace AccessError

/-- A failed lookup after so many accessors have handed it on, the innermost first. -/
def raised (list : String) (index length : Nat) (accessors : List String) : AccessError :=
  accessors.foldl (fun e accessor => e.context accessor) (indexOutOfRange list index length)

theorem messages_eq_intercalate (es : List AccessError) :
    messages es = ": ".intercalate (es.map (·.kind.message)) := by
  induction es with
  | nil => exact String.intercalate_nil.symm
  | cons e rest ih =>
      cases rest with
      | nil => simp [messages]
      | cons next more =>
          have marked : messages (e :: next :: more) =
              e.kind.message ++ ": " ++ messages (next :: more) := rfl
          rw [marked, ih, List.map_cons, List.map_cons, List.map_cons, String.intercalate_cons_cons]

/-- An error says what the kinds along its chain say. -/
theorem message_eq_intercalate (e : AccessError) :
    e.message = ": ".intercalate ((e.chain.map kind).map ErrorKind.message) := by
  rw [message, messages_eq_intercalate, List.map_map]
  rfl

theorem isIndexOutOfRange_eq_any (e : AccessError) :
    e.isIndexOutOfRange = (e.chain.map kind).any ErrorKind.isIndexOutOfRange := by
  rw [isIndexOutOfRange, List.any_map]
  rfl

theorem kinds_wrapping (k : ErrorKind) (e : AccessError) :
    (wrapping k e).chain.map kind = k :: e.chain.map kind := rfl

theorem trace_root_lookup (l : OutOfRange) : (root (.indexOutOfRange l)).trace = [.lookup l] := by
  simp [trace, ErrorSource.trace, ErrorSource.source?, source?]

theorem trace_wrapping (k : ErrorKind) (e : AccessError) :
    (wrapping k e).trace = .error e :: e.trace := by
  rw [trace, ErrorSource.trace]
  rfl

section

variable {list : String} {index length : Nat} {accessors : List String}

theorem raised_concat (accessor : String) :
    raised list index length (accessors ++ [accessor]) =
      (raised list index length accessors).context accessor :=
  List.foldl_append

theorem kinds_raised :
    (raised list index length accessors).chain.map kind =
      accessors.reverse.map .accessor ++ [.indexOutOfRange ⟨list, index, length⟩] := by
  induction accessors using List.reverseRecOn with
  | nil => rfl
  | append_singleton inner accessor ih =>
      rw [raised_concat, context, kinds_wrapping, ih, List.reverse_concat, List.map_cons,
        List.cons_append]

theorem trace_raised :
    (raised list index length accessors).trace =
      (List.range accessors.length).reverse.map
          (fun count => .error (raised list index length (accessors.take count))) ++
        [.lookup ⟨list, index, length⟩] := by
  induction accessors using List.reverseRecOn with
  | nil => exact trace_root_lookup _
  | append_singleton inner accessor ih =>
      have earlier : ∀ count ∈ (List.range inner.length).reverse,
          (inner ++ [accessor]).take count = inner.take count := by
        intro count below
        rw [List.mem_reverse, List.mem_range] at below
        exact List.take_append_of_le_length (Nat.le_of_lt below)
      have inners : (List.range inner.length).reverse.map
            (fun count => ErrorSource.error
              (raised list index length ((inner ++ [accessor]).take count))) =
          (List.range inner.length).reverse.map
            (fun count => .error (raised list index length (inner.take count))) :=
        List.map_congr_left fun count member => by rw [earlier count member]
      rw [raised_concat, context, trace_wrapping, ih, List.length_append, List.length_singleton,
        List.range_succ, List.reverse_concat, List.map_cons, inners, List.take_left,
        List.cons_append]

end

/-- A failed lookup that any number of accessors have handed on names the accessors
    from the outside in and then the lookup, is recognized as a failed lookup, and
    goes back to each of the errors it was before, the last one first, and then to
    the lookup. -/
theorem raised_described (list : String) (index length : Nat) (accessors : List String) :
    (raised list index length accessors).message =
      ": ".intercalate (accessors.reverse.map (fun accessor => accessor ++ "()") ++
        [s!"index out of range: {list}[{index}] (len {length})"]) ∧
    (raised list index length accessors).isIndexOutOfRange = true ∧
    (raised list index length accessors).trace =
      (List.range accessors.length).reverse.map
          (fun count => .error (raised list index length (accessors.take count))) ++
        [.lookup ⟨list, index, length⟩] := by
  refine ⟨?_, ?_, trace_raised⟩
  · rw [message_eq_intercalate, kinds_raised, List.map_append, List.map_map]
    rfl
  · rw [isIndexOutOfRange_eq_any, kinds_raised, List.any_append]
    exact Bool.or_true _

example : (raised "joins" 0 0 ["first_join", "caller"]).message =
    "caller(): first_join(): index out of range: joins[0] (len 0)" := by
  decide

end AccessError
end SqlSelect
