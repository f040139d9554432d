import SqlSelect.Literal
import SqlSelect.Proofs.Decimal.Written
import SqlSelect.Proofs.Quoting.Segments
namespace SqlSelect.Literal

inductive Kind where
  | null | bool | int | double | string
  deriving DecidableEq

def kind : Literal → Kind
  | .null => .null
  | .bool _ => .bool
  | .int _ => .int
  | .double _ => .double
  | .string _ => .string

/-- An integer and a double that is written as that integer. -/
def Collide (a b : Literal) : Prop :=
  ∃ n x, (a = .int n ∧ b = .double x ∨ a = .double x ∧ b = .int n) ∧ x.WrittenAs n.toInt

/-- The text, which is the same in every dialect. -/
def text (v : Literal) : List Char := v.tokens.chars .generic

theorem chars_tokens (d : Dialect) (v : Literal) : v.tokens.chars d = v.text := by
  cases v with
  | bool b => cases b <;> rfl
  | _ => rfl

theorem text_int (n : Int64) : (int n).text = intText n.toInt := List.append_nil _

theorem text_double (x : Binary64) : (double x).text = x.text := List.append_nil _

theorem text_string (s : String) : (string s).text = Quoted.wrap '\'' s.toList := List.append_nil _

def Kind.isNumber : Kind → Bool
  | .int | .double => true
  | _ => false

/-- The kind that a text shows, when it is not that of a number. -/
def Kind.read? (text : List Char) : Option Kind :=
  if '\'' ∈ text then some .string
  else if 'E' ∈ text then some .bool
  else if 'L' ∈ text then some .null
  else none

theorem Kind.apart_of_mark {c : Char} (mark : c ∈ ['\'', 'E', 'L']) :
    c.isDigit = false ∧ c ∉ ['-', '.', 'N', 'a', 'i', 'n', 'f'] := by
  simp only [List.mem_cons, List.not_mem_nil, or_false] at mark
  rcases mark with rfl | rfl | rfl <;> decide

theorem Kind.read?_of_number {text : List Char} (apart : ∀ c ∈ ['\'', 'E', 'L'], c ∉ text) :
    Kind.read? text = none := by
  simp only [List.forall_mem_cons] at apart
  simp only [Kind.read?, apart.1, apart.2.1, apart.2.2.1, if_false]

theorem read?_text (v : Literal) :
    Kind.read? v.text = if v.kind.isNumber then none else some v.kind := by
  cases v with
  | null => rfl
  | bool b => cases b <;> rfl
  | string s =>
      have quote : '\'' ∈ (string s).text := by
        rw [text_string]
        exact List.mem_cons_self
      exact if_pos quote
  | int n =>
      refine Kind.read?_of_number fun c mark => ?_
      have ⟨letter, apart⟩ := Kind.apart_of_mark mark
      rw [text_int]
      exact not_mem_intText letter (List.ne_of_not_mem_cons apart)
  | double x =>
      refine Kind.read?_of_number fun c mark member => ?_
      have ⟨letter, apart⟩ := Kind.apart_of_mark mark
      rw [text_double] at member
      rcases x.mem_text member with digit | member
      · exact Bool.false_ne_true (letter.symm.trans digit)
      · exact apart member

/-- Literals of different kinds have the same text only when both are numbers. -/
theorem isNumber_of_text_eq {a b : Literal} (apart : a.kind ≠ b.kind) (texts : a.text = b.text) :
    a.kind.isNumber = true ∧ b.kind.isNumber = true := by
  have kinds : (if a.kind.isNumber then none else some a.kind) =
      if b.kind.isNumber then none else some b.kind := by
    rw [← read?_text, texts, read?_text]
  split at kinds <;> split at kinds
  case isTrue.isTrue left right => exact ⟨left, right⟩
  case isFalse.isFalse => exact absurd (Option.some.inj kinds) apart
  all_goals cases kinds

theorem text_eq_iff_of_kind_ne {a b : Literal} (apart : a.kind ≠ b.kind) :
    a.text = b.text ↔ Collide a b := by
  constructor
  · intro texts
    have ⟨left, right⟩ := isNumber_of_text_eq apart texts
    cases a <;> cases b
    case int.double n x =>
      rw [text_int, text_double] at texts
      exact ⟨n, x, .inl ⟨rfl, rfl⟩, (x.text_eq_intText_iff _).mp texts.symm⟩
    case double.int x n =>
      rw [text_int, text_double] at texts
      exact ⟨n, x, .inr ⟨rfl, rfl⟩, (x.text_eq_intText_iff _).mp texts⟩
    all_goals first | exact absurd rfl apart | contradiction
  · rintro ⟨n, x, ⟨rfl, rfl⟩ | ⟨rfl, rfl⟩, written⟩
    · rw [text_int, text_double, (x.text_eq_intText_iff _).mpr written]
    · rw [text_int, text_double, (x.text_eq_intText_iff _).mpr written]

theorem text_int_inj {m n : Int64} (texts : (int m).text = (int n).text) : m = n := by
  rw [text_int, text_int] at texts
  exact Int64.toInt_inj.mp (intText_inj texts)

theorem text_string_inj {s t : String} (texts : (string s).text = (string t).text) : s = t := by
  rw [text_string, text_string] at texts
  have contents := congrArg (Quoted.unwrap '\'') texts
  rw [Quoted.unwrap_wrap, Quoted.unwrap_wrap] at contents
  exact String.toList_inj.mp contents

theorem render_eq_iff (d : Dialect) (a b : Literal) : render d a = render d b ↔ a.text = b.text := by
  rw [← chars_tokens d a, ← chars_tokens d b]
  exact String.ofList_inj

/-- Literals of different kinds have different texts, apart from an integer and a
    double that is written as it; such a double is that whole number up to the size
    from which doubles are more than one apart.  Integers and strings can be told
    from their texts. -/
theorem render_tells_kinds (d : Dialect) :
    (∀ a b : Literal, a.kind ≠ b.kind → (render d a = render d b ↔ Collide a b)) ∧
      (∀ m n : Int64, render d (int m) = render d (int n) ↔ m = n) ∧
      (∀ s t : String, render d (string s) = render d (string t) ↔ s = t) ∧
      (∀ x : Binary64, (∃ n, x.WrittenAs n) ↔
        (∃ n : ℤ, x.value? = some (n : ℚ)) ∧ x.isNegativeZero = false) ∧
      ∀ (x : Binary64) (n : ℤ), n.natAbs < 2 ^ 53 → x.value? = some (n : ℚ) →
        x.isNegativeZero = false → x.WrittenAs n := by
  refine ⟨fun a b apart => ?_, fun m n => ?_, fun s t => ?_, Binary64.exists_writtenAs_iff,
    fun x n small whole signed => Binary64.writtenAs_of_small whole small signed⟩
  · rw [render_eq_iff]
    exact text_eq_iff_of_kind_ne apart
  · rw [render_eq_iff]
    exact ⟨text_int_inj, fun same => same ▸ rfl⟩
  · rw [render_eq_iff]
    exact ⟨text_string_inj, fun same => same ▸ rfl⟩

/-- The double one. -/
def doubleOne : Binary64 := ⟨0x3ff0000000000000⟩

theorem value?_doubleOne : doubleOne.value? = some ((1 : ℤ) : ℚ) := by
  have magnitude : doubleOne.magnitude = .finite (2 ^ 52) (-52) := rfl
  have sign : doubleOne.isNegative = false := rfl
  simp only [Binary64.value?, magnitude, sign]
  norm_num

theorem render_tells_kinds_of_one :
    (render .mysql (int 1) = render .mysql (double doubleOne) ↔
      Collide (int 1) (double doubleOne)) ∧
    (render .mysql (int 1) = render .mysql (string "1") ↔ Collide (int 1) (string "1")) ∧
    doubleOne.WrittenAs 1 :=
  ⟨(render_tells_kinds .mysql).1 _ _ (by decide), (render_tells_kinds .mysql).1 _ _ (by decide),
    (render_tells_kinds .mysql).2.2.2.2 doubleOne 1 (by decide) value?_doubleOne rfl⟩

theorem one_written_alike :
    (int 1).kind ≠ (double doubleOne).kind ∧
      ∀ d, render d (int 1) = "1" ∧ render d (double doubleOne) = "1" :=
  ⟨by decide, fun _ => ⟨rfl, rfl⟩⟩

end SqlSelect.Literal
