import Mathlib.Data.List.SplitBy
import SqlSelect.Proofs.Union.Reading
namespace SqlSelect

/-- A query to unite with, and whether repeated rows are kept. -/
structure UnionCall where
  all : Bool
  query : Query

namespace UnionCall

def operand (c : UnionCall) : Body := .ofQuery c.query

/-- What stands before the operand in the text. -/
def separator (c : UnionCall) : String := if c.all then " UNION ALL " else " UNION "

/-- The longest blocks of calls of one kind. -/
def blocks (calls : List UnionCall) : List (List UnionCall) :=
  calls.splitBy fun c next => c.all == next.all

/-- The set operation over a body and the operands of a block. -/
def node (b : Body) : List UnionCall → Body
  | [] => b
  | c :: rest => .combined .union c.all (b :: (c :: rest).map operand)

end UnionCall

def Body.unite (b : Body) (c : UnionCall) : Body := b.combine .union c.all c.operand

namespace Query

def unite (q : Query) (c : UnionCall) : Query :=
  if c.all then q.unionAll c.query else q.union c.query

def unions (q : Query) (calls : List UnionCall) : Query := calls.foldl unite q

theorem unite_eq (q : Query) (c : UnionCall) : q.unite c = { q with body := q.body.unite c } := by
  obtain ⟨all, query⟩ := c
  cases all <;> rfl

theorem unions_eq (q : Query) (calls : List UnionCall) :
    q.unions calls = { q with body := calls.foldl Body.unite q.body } := by
  induction calls generalizing q with
  | nil =>
      cases q
      rfl
  | cons c rest ih =>
      have step : q.unions (c :: rest) = (q.unite c).unions rest := rfl
      rw [step, ih, unite_eq]
      rfl

end Query

namespace Body

open Writing

/-- A body that is no set operation without operands. -/
def HasOperands (b : Body) : Prop := ∀ op all, b ≠ .combined op all []

theorem tokens_unite {b : Body} (some : b.HasOperands) (c : UnionCall) :
    (b.unite c).tokens = b.tokens ++ (separator .union c.all ++ c.operand.tokens) :=
  tokens_combine (some .union c.all) c.operand

theorem hasOperands_unite (b : Body) (c : UnionCall) : (b.unite c).HasOperands := fun op all =>
  combine_ne c.operand op all

theorem tokens_foldl_unite {b : Body} (some : b.HasOperands) (calls : List UnionCall) :
    (calls.foldl unite b).tokens =
      b.tokens ++ calls.flatMap fun c => separator .union c.all ++ c.operand.tokens := by
  induction calls generalizing b with
  | nil => simp
  | cons c rest ih =>
      rw [List.foldl_cons, ih (b.hasOperands_unite c), tokens_unite some, List.flatMap_cons]
      simp only [List.append_assoc]

theorem chars_separator (d : Dialect) (all : Bool) :
    Tokens.chars d (separator .union all) =
      (if all then " UNION ALL " else " UNION ").toList := by
  cases d <;> cases all <;> decide

theorem foldl_unite_alike {all : Bool} {calls : List UnionCall} (alike : ∀ c ∈ calls, c.all = all)
    (operands : List Body) :
    calls.foldl unite (.combined .union all operands) =
      .combined .union all (operands ++ calls.map UnionCall.operand) := by
  induction calls generalizing operands with
  | nil => simp
  | cons c rest ih =>
      obtain rfl := alike c List.mem_cons_self
      have joins : (Body.combined .union c.all operands).unite c =
          .combined .union c.all (operands ++ [c.operand]) := if_pos ⟨rfl, rfl⟩
      rw [List.foldl_cons, joins, ih fun c member => alike c (List.mem_cons_of_mem _ member)]
      simp

/-- A block of calls makes one set operation, on a body that is not of its kind. -/
theorem foldl_unite_block {b : Body} {c : UnionCall} {rest : List UnionCall}
    (apart : ∀ operands, b ≠ .combined .union c.all operands)
    (alike : ∀ next ∈ rest, next.all = c.all) :
    (c :: rest).foldl unite b = UnionCall.node b (c :: rest) := by
  have starts : b.unite c = .combined .union c.all [b, c.operand] := by
    rcases combine_cases b c.operand .union c.all with ⟨operands, same, -⟩ | starts
    · exact absurd same (apart operands)
    · exact starts
  rw [List.foldl_cons, starts, foldl_unite_alike alike]
  rfl

end Body

namespace UnionCall

theorem alike_of_isChain {c : UnionCall} {rest : List UnionCall}
    (chain : (c :: rest).IsChain fun c next => (c.all == next.all) = true) :
    ∀ next ∈ rest, next.all = c.all := by
  induction rest generalizing c with
  | nil => nofun
  | cons first rest ih =>
      rw [List.isChain_cons_cons, beq_iff_eq] at chain
      intro next member
      rcases List.mem_cons.mp member with rfl | member
      · exact chain.1.symm
      · rw [ih chain.2 next member, chain.1]

/-- Each block finds a body that is not of its kind, because the block before it
    is of the other. -/
theorem foldl_unite_flatten {blocks : List (List UnionCall)} (some : [] ∉ blocks)
    (alike : ∀ block ∈ blocks, block.IsChain fun c next => (c.all == next.all) = true)
    (apart : blocks.IsChain fun block next =>
      ∃ ended started, ((block.getLast ended).all == (next.head started).all) = false)
    {b : Body} (fresh : ∀ block ∈ blocks.head?, ∀ c ∈ block.head?,
      ∀ operands, b ≠ .combined .union c.all operands) :
    blocks.flatten.foldl Body.unite b = blocks.foldl node b := by
  induction blocks generalizing b with
  | nil => rfl
  | cons block rest ih =>
      obtain ⟨c, calls, rfl⟩ : ∃ c calls, block = c :: calls := by
        cases block with
        | nil => exact absurd List.mem_cons_self some
        | cons c calls => exact ⟨c, calls, rfl⟩
      have same := alike_of_isChain (alike _ List.mem_cons_self)
      rw [List.isChain_cons] at apart
      rw [List.flatten_cons, List.foldl_append,
        Body.foldl_unite_block (fresh _ rfl c rfl) same, List.foldl_cons]
      refine ih (fun empty => some (List.mem_cons_of_mem _ empty))
        (fun block member => alike block (List.mem_cons_of_mem _ member)) apart.2 ?_
      intro next isNext first isFirst operands clash
      obtain ⟨ended, started, differ⟩ := apart.1 next isNext
      have kind : ((c :: calls).getLast ended).all = c.all := by
        rcases List.mem_cons.mp (List.getLast_mem ended) with last | last
        · rw [last]
        · exact same _ last
      have head : next.head started = first := by
        rw [List.head_eq_iff_head?_eq_some]
        exact isFirst
      rw [kind, head] at differ
      injection clash with _ equal
      rw [equal] at differ
      simp at differ

theorem foldl_unite_eq_blocks {b : Body} (single : b.isCombined = false) (calls : List UnionCall) :
    calls.foldl Body.unite b = (blocks calls).foldl node b := by
  have fresh : ∀ all operands, b ≠ .combined .union all operands := by
    rintro all operands rfl
    cases single
  have borders :=
    List.isChain_getLast_head_splitBy (fun c next : UnionCall => c.all == next.all) calls
  have whole := foldl_unite_flatten (List.nil_notMem_splitBy _ calls)
    (fun _ => List.isChain_of_mem_splitBy) borders fun _ _ c _ => fresh c.all
  rw [List.flatten_splitBy] at whole
  exact whole

end UnionCall

namespace Query

/-- A run of unions keeps the clauses around the body, and writes each operand
    after the body so far.  When the body is no set operation to begin with, each
    block of calls of one kind becomes one set operation, of the body so far and
    the operands of the block. -/
theorem unions_extend_body {q : Query} (some : q.body.HasOperands) (calls : List UnionCall) :
    (q.unions calls).envelope = q.envelope ∧
    (∀ d, (render d (q.unions calls).body).toList = (render d q.body).toList ++
      calls.flatMap fun c => c.separator.toList ++ (render d c.operand).toList) ∧
    (q.body.isCombined = false →
      (q.unions calls).body = (UnionCall.blocks calls).foldl UnionCall.node q.body) := by
  rw [q.unions_eq calls]
  refine ⟨rfl, fun d => ?_, fun single => UnionCall.foldl_unite_eq_blocks single calls⟩
  have written (b : Body) : (render d b).toList = b.tokens.chars d := String.toList_ofList
  simp only [written, Body.tokens_foldl_unite some, Tokens.chars_append]
  congr 1
  rw [Tokens.chars, List.flatMap_assoc]
  refine congrArg calls.flatMap (funext fun c => ?_)
  rw [UnionCall.separator, ← Body.chars_separator d]
  exact Tokens.chars_append d ..

def ofTable (name : String) : Query := ofSelect (.fromSource (.ofText name))

/-- Three calls, of which the last keeps repeated rows. -/
def threeCalls : List UnionCall :=
  [⟨false, ofTable "b"⟩, ⟨false, ofTable "c"⟩, ⟨true, ofTable "d"⟩]

theorem threeCalls_extend_body : (ofTable "a").body.HasOperands ∧
    (ofTable "a").body.isCombined = false ∧
    ((ofTable "a").unions threeCalls).envelope = {} ∧
    (∀ d, (render d ((ofTable "a").unions threeCalls).body).toList =
      (render d (ofTable "a").body).toList ++
        threeCalls.flatMap fun c => c.separator.toList ++ (render d c.operand).toList) ∧
    ((ofTable "a").unions threeCalls).body =
      .combined .union true
        [.combined .union false [(ofTable "a").body, (ofTable "b").body, (ofTable "c").body],
          (ofTable "d").body] := by
  have some : (ofTable "a").body.HasOperands := fun _ _ => nofun
  obtain ⟨envelope, text, shape⟩ := unions_extend_body some threeCalls
  exact ⟨some, rfl, envelope, text, shape rfl⟩

end Query
end SqlSelect
