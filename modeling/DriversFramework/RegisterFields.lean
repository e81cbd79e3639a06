import Mathlib.Data.BitVec

/-! A field is given by a mask and the number of places by which the mask is shifted; what is
shifted out of the register is no part of the field. -/
namespace RegisterFields

variable {w : ℕ}

def replace (old mask value : BitVec w) : BitVec w := (old &&& ~~~mask) ||| (value &&& mask)

def field (register mask : BitVec w) (shift : ℕ) : BitVec w := (register >>> shift) &&& mask

variable {x y old mask other value : BitVec w} {shift : ℕ}

theorem replace_outside (old mask value : BitVec w) :
 replace old mask value &&& ~~~mask = old &&& ~~~mask := by
 ext i
 simp only [replace, BitVec.getElem_and, BitVec.getElem_or, BitVec.getElem_not]
 cases mask[i] <;> simp

theorem replace_inside (old mask value : BitVec w) :
 replace old mask value &&& mask = value &&& mask := by
 ext i
 simp only [replace, BitVec.getElem_and, BitVec.getElem_or, BitVec.getElem_not]
 cases mask[i] <;> simp

theorem replace_disjoint (apart : mask &&& other = 0#w) :
 replace old mask value &&& other = old &&& other := by
 ext i hi
 have bit : (mask &&& other)[i] = (0#w)[i] := by rw [apart]
 simp only [BitVec.getElem_and, BitVec.getElem_zero] at bit
 simp only [replace, BitVec.getElem_and, BitVec.getElem_or, BitVec.getElem_not]
 cases hm : mask[i] <;> simp_all

theorem replace_replace (old mask value value' : BitVec w) :
 replace (replace old mask value) mask value' = replace old mask value' := by
 rw [replace, replace_outside, replace]

theorem replace_same (same : value &&& mask = old &&& mask) : replace old mask value = old := by
 rw [replace, same]
 ext i
 simp only [BitVec.getElem_and, BitVec.getElem_or, BitVec.getElem_not]
 cases mask[i] <;> simp

theorem and_not_or_left (x y : BitVec w) : x &&& ~~~(x ||| y) = 0#w := by
 ext i
 simp only [BitVec.getElem_and, BitVec.getElem_not, BitVec.getElem_or, BitVec.getElem_zero]
 cases x[i] <;> simp

theorem and_not_or_right (x y : BitVec w) : y &&& ~~~(x ||| y) = 0#w := by
 rw [BitVec.or_comm]
 exact and_not_or_left y x

theorem field_eq (x mask : BitVec w) (shift : ℕ) :
 field x mask shift = (x &&& (mask <<< shift)) >>> shift := by
 ext i hi
 simp only [field, BitVec.getElem_and, BitVec.getElem_ushiftRight, BitVec.getLsbD_and,
  BitVec.getLsbD_shiftLeft]
 by_cases inside : shift + i < w
 · rw [decide_eq_true inside, decide_eq_false (by omega), Nat.add_sub_cancel_left,
    BitVec.getLsbD_eq_getElem hi]
   simp
 · rw [BitVec.getLsbD_of_ge x (shift + i) (by omega)]
   simp

theorem field_inj :
 field x mask shift = field y mask shift ↔ x &&& (mask <<< shift) = y &&& (mask <<< shift) := by
 constructor
 · intro same
   ext i hi
   by_cases low : i < shift
   · simp only [BitVec.getElem_and, BitVec.getElem_shiftLeft, decide_eq_true low]
     simp
   · have bit : (field x mask shift)[i - shift] = (field y mask shift)[i - shift] := by rw [same]
     simp only [field_eq, BitVec.getElem_ushiftRight, show shift + (i - shift) = i by omega,
      BitVec.getLsbD_eq_getElem hi] at bit
     exact bit
 · intro same
   rw [field_eq, field_eq, same]

theorem field_replace (old mask value : BitVec w) (shift : ℕ) :
 field (replace old (mask <<< shift) value) mask shift = field value mask shift :=
 field_inj.mpr (replace_inside old (mask <<< shift) value)

theorem field_field (x mask : BitVec w) (shift : ℕ) :
 field (field x mask shift <<< shift) mask shift = field x mask shift := by
 ext i hi
 simp only [field, BitVec.getElem_and, BitVec.getElem_ushiftRight, BitVec.getLsbD_shiftLeft,
  BitVec.getLsbD_and, BitVec.getLsbD_ushiftRight]
 by_cases inside : shift + i < w
 · rw [decide_eq_true inside, decide_eq_false (by omega), Nat.add_sub_cancel_left,
    BitVec.getLsbD_eq_getElem (x := mask) hi]
   cases mask[i] <;> simp
 · rw [BitVec.getLsbD_of_ge x (shift + i) (by omega)]
   simp [inside]

end RegisterFields
