import SqlSelect.Proofs.Decimal.Zero
import SqlSelect.Proofs.Parallel.Basic
namespace SqlSelect

namespace Token

/-- The token with no sign on a zero. -/
def unsigned : Token → Token
  | .double x => .double x.unsigned
  | t => t

/-- Whether the zero is negative, when the token is one. -/
def zeroSign? : Token → Option Bool
  | .double x => if x.isZero then some x.isNegative else none
  | _ => none

/-- Tokens that are alike but for a sign are the same, or they are zeros. -/
theorem eq_or_zeros_of_unsigned {t t' : Token} (alike : t.unsigned = t'.unsigned) :
    t = t' ∨ ∃ x y : Binary64, x.isZero = true ∧ y.isZero = true ∧ t = .double x ∧ t' = .double y := by
  cases t with
  | double x =>
      cases t' with
      | double y =>
          have same : x.unsigned = y.unsigned := Token.double.inj alike
          unfold Binary64.unsigned at same
          have zero : (⟨0⟩ : Binary64).isZero = true := rfl
          split at same <;> split at same
          case isTrue.isTrue left right => exact .inr ⟨x, y, left, right, rfl, rfl⟩
          case isTrue.isFalse left right => exact absurd (same ▸ zero) right
          case isFalse.isTrue left right => exact absurd (same ▸ zero) left
          case isFalse.isFalse left right => exact .inl (congrArg Token.double same)
      | _ => cases alike
  | _ => cases t' <;> first | exact .inl alike | cases alike

@[simp] theorem unsigned_unsigned (t : Token) : t.unsigned.unsigned = t.unsigned := by
  cases t <;> simp [unsigned]

end Token

namespace Tokens

def unsigned (ts : Tokens) : Tokens := ts.map Token.unsigned

@[simp] theorem unsigned_append (left right : Tokens) :
    unsigned (left ++ right) = unsigned left ++ unsigned right := List.map_append

@[simp] theorem unsigned_cons (t : Token) (rest : Tokens) :
    unsigned (t :: rest) = t.unsigned :: unsigned rest := rfl

@[simp] theorem unsigned_unsigned (ts : Tokens) : ts.unsigned.unsigned = ts.unsigned := by
  simp [unsigned]

/-- Parts written without signs leave all else as it is. -/
theorem unsigned_eq_of_parallel {ε κ : Type} {f : ε → Tokens} {g : κ → Tokens} {ts ts' : Tokens}
    {ps : List (Part ε κ)} (texts : Parallel f (fun e => (f e).unsigned) g
      (fun q => (g q).unsigned) ts ts' ps) : ts.unsigned = ts'.unsigned :=
  texts.map_eq (fun e => (unsigned_unsigned (f e)).symm) fun q => (unsigned_unsigned (g q)).symm

/-- The signs of the zeros, in the order of the text. -/
def zeroSigns (ts : Tokens) : List Bool := ts.filterMap Token.zeroSign?

theorem length_zeroSigns {ts ts' : Tokens} (alike : ts.unsigned = ts'.unsigned) :
    ts.zeroSigns.length = ts'.zeroSigns.length := by
  induction ts generalizing ts' with
  | nil => rw [(List.map_eq_nil_iff.mp alike.symm)]
  | cons t rest ih =>
      cases ts' with
      | nil => cases alike
      | cons t' rest' =>
          obtain ⟨first, others⟩ := List.cons.inj alike
          have counts := ih others
          rcases Token.eq_or_zeros_of_unsigned first with rfl | ⟨x, y, left, right, rfl, rfl⟩
          · simp only [zeroSigns, List.filterMap_cons] at counts ⊢
            split
            · exact counts
            · rw [List.length_cons, List.length_cons, counts]
          · simpa [zeroSigns, Token.zeroSign?, left, right] using counts

/-- A sign is lost with the sign of a zero, and with nothing else. -/
theorem eq_of_zeroSigns {ts ts' : Tokens} (alike : ts.unsigned = ts'.unsigned)
    (signs : ts.zeroSigns = ts'.zeroSigns) : ts = ts' := by
  induction ts generalizing ts' with
  | nil => exact (List.map_eq_nil_iff.mp alike.symm).symm
  | cons t rest ih =>
      cases ts' with
      | nil => cases alike
      | cons t' rest' =>
          obtain ⟨first, others⟩ := List.cons.inj alike
          rcases Token.eq_or_zeros_of_unsigned first with rfl | ⟨x, y, left, right, rfl, rfl⟩
          · have signs : zeroSigns rest = zeroSigns rest' := by
              simp only [zeroSigns, List.filterMap_cons] at signs
              split at signs
              · exact signs
              · exact (List.cons.inj signs).2
            rw [ih others signs]
          · simp only [zeroSigns, List.filterMap_cons, Token.zeroSign?, left, right, if_true] at signs
            obtain ⟨sign, signs⟩ := List.cons.inj signs
            rw [Binary64.eq_of_isZero left right sign, ih others signs]

/-- Where the signs of two zeros differ, so do the texts. -/
theorem eq_of_chars {d : Dialect} {ts ts' : Tokens} (alike : ts.unsigned = ts'.unsigned)
    (texts : ts.chars d = ts'.chars d) : ts = ts' := by
  induction ts generalizing ts' with
  | nil => exact (List.map_eq_nil_iff.mp alike.symm).symm
  | cons t rest ih =>
      cases ts' with
      | nil => cases alike
      | cons t' rest' =>
          obtain ⟨first, others⟩ := List.cons.inj alike
          rcases Token.eq_or_zeros_of_unsigned first with rfl | ⟨x, y, left, right, rfl, rfl⟩
          · rw [ih others (List.append_cancel_left texts)]
          · simp only [chars_cons, Token.chars, Binary64.text_of_isZero left,
              Binary64.text_of_isZero right] at texts
            have signs : x.isNegative = y.isNegative := by
              cases negative : x.isNegative <;> cases negative' : y.isNegative <;>
                simp [negative, negative'] at texts ⊢
            rw [signs] at texts
            rw [Binary64.eq_of_isZero left right signs, ih others (List.append_cancel_left texts)]

theorem chars_eq_iff_zeroSigns {d : Dialect} {ts ts' : Tokens} (alike : ts.unsigned = ts'.unsigned) :
    ts.chars d = ts'.chars d ↔ ts.zeroSigns = ts'.zeroSigns := by
  constructor
  · intro texts
    rw [eq_of_chars alike texts]
  · intro signs
    rw [eq_of_zeroSigns alike signs]

end Tokens

end SqlSelect
