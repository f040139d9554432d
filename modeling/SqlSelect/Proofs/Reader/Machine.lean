import SqlSelect.Expr
import SqlSelect.Proofs.Reader.Grammar
namespace SqlSelect.Reader

/-! A reader of an expression keeps what waits for its right end on a stack.  At a
word or mark that ends an operand, everything that binds at least as tightly as
what comes next is put together first.
-/

/-- What stands between two operands. -/
inductive Joint where
  | operator (op : Operator)
  | and
  | or

namespace Joint

def token : Joint → Token
  | .operator op => op.token
  | .and => .keyword .AND
  | .or => .keyword .OR

def level : Joint → Nat
  | .operator op => op.level
  | .and => 1
  | .or => 0

def join : Joint → Expr → Expr → Expr
  | .operator op => .binary op
  | .and => .and
  | .or => .or

def ofToken? : Token → Option Joint
  | .symbol .equal => some (.operator .eq)
  | .symbol .notEqual => some (.operator .ne)
  | .symbol .greaterEqual => some (.operator .ge)
  | .symbol .greater => some (.operator .gt)
  | .symbol .lessEqual => some (.operator .le)
  | .symbol .less => some (.operator .lt)
  | .symbol .plus => some (.operator .add)
  | .symbol .minus => some (.operator .sub)
  | .symbol .star => some (.operator .mul)
  | .symbol .slash => some (.operator .div)
  | .symbol .bars => some (.operator .concat)
  | .keyword .LIKE => some (.operator .like)
  | .keyword .AND => some .and
  | .keyword .OR => some .or
  | _ => none

end Joint

/-- What a parenthesis was opened for. -/
inductive Bracket where
  | nested
  | args (function : Name) (distinct : Bool)
  | members (subject : Expr) (negated : Bool)

/-- The expression that ends with the closing parenthesis. -/
def Bracket.close? : Bracket → List Expr → Option Expr
  | .nested, [inner] => some (.nested inner)
  | .nested, _ => none
  | .args function distinct, items => some (.call ⟨function, items, distinct⟩)
  | .members subject negated, items => some (.inList subject items negated)

/-- What waits for its right end. -/
inductive Frame where
  | joint (joint : Joint) (left : Expr)
  | not
  | opened (bracket : Bracket) (items : List Expr)

/-- What has been read since the last frame. -/
inductive Stage where
  /-- Nothing: an operand begins. -/
  | operand
  /-- Words with dots between them, a number or a function name. -/
  | word (parts : List String)
  | wordDot (parts : List String)
  | columnDot (parts : List String)
  | done (operand : Expr)
  | afterNot (subject : Expr)
  | afterIn (subject : Expr) (negated : Bool)
  | afterIs (subject : Expr) (negated : Bool)

structure State where
  frames : List Frame
  stage : Stage

/-- How far back a word or mark after an operand reaches: it leaves what binds
    less tightly waiting. -/
def reach? : Token → Option Nat
  | .symbol .closeParen | .symbol .comma => some 0
  | .keyword .NOT | .keyword .IN | .keyword .IS => some 3
  | t => (Joint.ofToken? t).map Joint.level

/-- Put together what binds at least as tightly as a level. -/
def close (level : Nat) : List Frame → Expr → List Frame × Expr
  | .joint j left :: frames, e =>
      if level ≤ j.level then close level frames (j.join left e) else (.joint j left :: frames, e)
  | .not :: frames, e => if level ≤ 2 then close level frames (.not e) else (.not :: frames, e)
  | frames, e => (frames, e)

def closeParen : List Frame → List Expr → Option State
  | .opened bracket items :: frames, last =>
      (bracket.close? (items ++ last)).map fun e => ⟨frames, .done e⟩
  | _, _ => none

/-- Go on after an operand whose waiting parts have been put together. -/
def resume (frames : List Frame) (e : Expr) : Token → Option State
  | .symbol .closeParen => closeParen frames [e]
  | .symbol .comma =>
      match frames with
      | .opened bracket items :: frames =>
          some ⟨.opened bracket (items ++ [e]) :: frames, .operand⟩
      | _ => none
  | .keyword .NOT => some ⟨frames, .afterNot e⟩
  | .keyword .IN => some ⟨frames, .afterIn e false⟩
  | .keyword .IS => some ⟨frames, .afterIs e false⟩
  | t => (Joint.ofToken? t).map fun j => ⟨.joint j e :: frames, .operand⟩

def afterOperand (frames : List Frame) (e : Expr) (t : Token) : Option State :=
  (reach? t).bind fun level => resume (close level frames e).1 (close level frames e).2 t

def number? : List String → Option Expr
  | [digits] => digits.toInt?.map fun i => .literal (.int (Int64.ofInt i))
  | _ => none

/-- The first word or mark of an operand. -/
def begin (frames : List Frame) : Token → Option State
  | .ident part => some ⟨frames, .done (.column ⟨[part]⟩)⟩
  | .string contents => some ⟨frames, .done (.literal (.string contents))⟩
  | .bare part => some ⟨frames, .word [part]⟩
  | .keyword .NULL => some ⟨frames, .done (.literal .null)⟩
  | .keyword .TRUE => some ⟨frames, .done (.literal (.bool true))⟩
  | .keyword .FALSE => some ⟨frames, .done (.literal (.bool false))⟩
  | .keyword .NOT => some ⟨.not :: frames, .operand⟩
  | .keyword .DISTINCT =>
      match frames with
      | .opened (.args function false) [] :: frames =>
          some ⟨.opened (.args function true) [] :: frames, .operand⟩
      | _ => none
  | .symbol .openParen => some ⟨.opened .nested [] :: frames, .operand⟩
  | .symbol .closeParen => closeParen frames []
  | _ => none

def afterWord (frames : List Frame) (parts : List String) : Token → Option State
  | .symbol .dot => some ⟨frames, .wordDot parts⟩
  | .symbol .openParen => some ⟨.opened (.args ⟨parts⟩ false) [] :: frames, .operand⟩
  | t => (number? parts).bind fun e => afterOperand frames e t

def afterDone (frames : List Frame) (e : Expr) : Token → Option State
  | .symbol .dot => e.column?.map fun name => ⟨frames, .columnDot name.parts⟩
  | t => afterOperand frames e t

def step (state : State) (t : Token) : Option State :=
  match state.stage with
  | .operand => begin state.frames t
  | .word parts => afterWord state.frames parts t
  | .wordDot parts =>
      match t with
      | .bare part => some ⟨state.frames, .word (parts ++ [part])⟩
      | _ => none
  | .columnDot parts =>
      match t with
      | .ident part => some ⟨state.frames, .done (.column ⟨parts ++ [part]⟩)⟩
      | _ => none
  | .done e => afterDone state.frames e t
  | .afterNot subject =>
      if t = .keyword .IN then some ⟨state.frames, .afterIn subject true⟩ else none
  | .afterIn subject negated =>
      if t = .symbol .openParen then
        some ⟨.opened (.members subject negated) [] :: state.frames, .operand⟩
      else none
  | .afterIs subject negated =>
      if t = .keyword .NULL then some ⟨state.frames, .done (.isNull subject negated)⟩
      else if t = .keyword .NOT ∧ negated = false then some ⟨state.frames, .afterIs subject true⟩
      else none

def run (state : State) (ts : Tokens) : Option State := ts.foldlM step state

def State.inner? : State → Option Expr
  | ⟨[], .done (.nested inner)⟩ => some inner
  | _ => none

/-- The expression that the tokens are, read as the inside of parentheses. -/
def read? (ts : Tokens) : Option Expr :=
  (run ⟨[.opened .nested []], .operand⟩ (ts ++ [.symbol .closeParen])).bind State.inner?

variable {frames : List Frame} {e left : Expr} {j : Joint} {t : Token} {level : Nat}

theorem run_cons (state : State) (t : Token) (rest : Tokens) :
    run state (t :: rest) = (step state t).bind (run · rest) :=
  List.foldlM_cons

theorem reach?_token (j : Joint) : reach? j.token = some j.level := by
  cases j with
  | operator op => cases op <;> rfl
  | and => rfl
  | or => rfl

theorem resume_token (j : Joint) :
    resume frames e j.token = some ⟨.joint j e :: frames, .operand⟩ := by
  cases j with
  | operator op => cases op <;> rfl
  | and => rfl
  | or => rfl

theorem close_joint (reaches : level ≤ j.level) :
    close level (.joint j left :: frames) e = close level frames (j.join left e) :=
  if_pos reaches

theorem close_not (reaches : level ≤ 2) :
    close level (.not :: frames) e = close level frames (.not e) :=
  if_pos reaches

/-- A mark with a reach comes after a whole operand. -/
theorem step_done (reaches : reach? t = some level) :
    step ⟨frames, .done e⟩ t = resume (close level frames e).1 (close level frames e).2 t := by
  have after : step ⟨frames, .done e⟩ t = afterOperand frames e t := by
    change afterDone frames e t = _
    unfold afterDone
    split
    · cases reaches
    · rfl
  rw [after, afterOperand, reaches]
  rfl

theorem step_word {parts : List String} (reaches : reach? t = some level)
    (number : number? parts = some e) :
    step ⟨frames, .word parts⟩ t = step ⟨frames, .done e⟩ t := by
  have after : step ⟨frames, .word parts⟩ t = afterOperand frames e t := by
    change afterWord frames parts t = _
    unfold afterWord
    split
    · cases reaches
    · cases reaches
    · rw [number]
      rfl
  rw [after, step_done reaches, afterOperand, reaches]
  rfl

/-- What waits is put together at the next mark that reaches it. -/
theorem step_joint (reaches : reach? t = some level) (loose : level ≤ j.level) :
    step ⟨.joint j left :: frames, .done e⟩ t = step ⟨frames, .done (j.join left e)⟩ t := by
  rw [step_done reaches, step_done reaches, close_joint loose]

theorem step_not (reaches : reach? t = some level) (loose : level ≤ 2) :
    step ⟨.not :: frames, .done e⟩ t = step ⟨frames, .done (.not e)⟩ t := by
  rw [step_done reaches, step_done reaches, close_not loose]

end SqlSelect.Reader
