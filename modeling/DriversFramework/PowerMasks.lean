import Mathlib.Data.BitVec
import Mathlib.Data.Nat.Log
import Mathlib.Data.Nat.Bitwise

namespace PowerMasks

def maskRest (size a : ℕ) : ℕ := size - (a &&& (size - 1))

variable {size a : ℕ}

theorem maskRest_pos (pos : 0 < size) : 0 < maskRest size a := by
 have masked : a &&& (size - 1) ≤ size - 1 := Nat.and_le_right
 unfold maskRest
 omega

theorem maskRest_zero : maskRest size 0 = size := by
 rw [maskRest, Nat.zero_and, Nat.sub_zero]

theorem maskRest_two_pow (e a : ℕ) : maskRest (2 ^ e) a = 2 ^ e - a % 2 ^ e := by
 rw [maskRest, Nat.and_two_pow_sub_one_eq_mod]

theorem exists_masked (pos : 0 < size) (other : ¬∃ e, size = 2 ^ e) :
 ∃ a, 0 < a ∧ a < size ∧ a &&& (size - 1) < a := by
 have low : 2 ^ Nat.log 2 size ≤ size := Nat.pow_log_le_self 2 (Nat.ne_of_gt pos)
 have high : size < 2 ^ (Nat.log 2 size + 1) := Nat.lt_pow_succ_log_self (by decide) size
 have between : 2 ^ Nat.log 2 size ≠ size := fun same => other ⟨_, same.symm⟩
 generalize Nat.log 2 size = k at low high between
 have twice : 2 ^ (k + 1) = 2 ^ k * 2 := Nat.pow_succ 2 k
 have some : 2 ^ k ≠ 1 := by omega
 have unit : 0 < 2 ^ k := Nat.two_pow_pos k
 refine ⟨2 ^ k - 1, by omega, by omega, ?_⟩
 rw [Nat.and_comm, Nat.and_two_pow_sub_one_eq_mod]
 have rest : (size - 1) % 2 ^ k = size - 1 - 2 ^ k := by
  rw [Nat.mod_eq_sub_mod (by omega), Nat.mod_eq_of_lt (by omega)]
 omega

variable {w : ℕ} {x y : BitVec w}

theorem toNat_sub_one (pos : y ≠ 0) : (y - 1).toNat = y.toNat - 1 := by
 have value : y.toNat ≠ 0 := fun zero => pos (BitVec.eq_of_toNat_eq (by simpa using zero))
 have bound := y.isLt
 have wide : 1 < 2 ^ w := by omega
 have one : (1 : BitVec w).toNat = 1 := Nat.mod_eq_of_lt wide
 rw [BitVec.toNat_sub_of_le (by rw [BitVec.le_def, one]; omega), one]

theorem toNat_mask (pos : y ≠ 0) : (x &&& (y - 1)).toNat = x.toNat &&& (y.toNat - 1) := by
 rw [BitVec.toNat_and, toNat_sub_one pos]

theorem toNat_rest (pos : y ≠ 0) : (y - (x &&& (y - 1))).toNat = maskRest y.toNat x.toNat := by
 have masked := toNat_mask (x := x) pos
 have less : x.toNat &&& (y.toNat - 1) ≤ y.toNat - 1 := Nat.and_le_right
 rw [BitVec.toNat_sub_of_le (by rw [BitVec.le_def, masked]; omega), masked, maskRest]

theorem toNat_clear (pos : y ≠ 0) :
 (x &&& ~~~(y - 1)).toNat = x.toNat - (x.toNat &&& (y.toNat - 1)) := by
 have apart : (x &&& ~~~(y - 1)) &&& (x &&& (y - 1)) = 0#w := by
  ext i
  simp only [BitVec.getElem_and, BitVec.getElem_not, BitVec.getElem_zero]
  cases x[i] <;> cases (y - 1)[i] <;> rfl
 have whole : (x &&& ~~~(y - 1)) ||| (x &&& (y - 1)) = x := by
  ext i
  simp only [BitVec.getElem_or, BitVec.getElem_and, BitVec.getElem_not]
  cases x[i] <;> cases (y - 1)[i] <;> rfl
 have sum := BitVec.toNat_add_of_and_eq_zero apart
 rw [BitVec.add_eq_or_of_and_eq_zero _ _ apart, whole, toNat_mask pos] at sum
 omega

end PowerMasks
