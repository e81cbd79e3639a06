import Mathlib.Algebra.Order.Field.Rat
import Mathlib.Data.BitVec
import Mathlib.Tactic.Ring

/-! `MmcParseBits` of `mmc_protocol.c`. A register is given as words, the highest one first. -/
namespace DriversFramework.MmcCapacity

abbrev Word := BitVec 32

def mmcParseBits (data : ℕ → Word) (bitsLen start size : ℕ) : Word :=
 if bitsLen ≤ start ∨ size = 0 then 0
 else if 32 < size then 0
 else
  let index := bitsLen / 32 - start / 32 - 1
  let shift := start % 32
  let ret :=
   if 32 < size + shift then data index >>> shift ||| data (index - 1) <<< (32 - shift)
   else data index >>> shift
  if size < 32 then ret &&& ((1 : Word) <<< size - 1) else ret

/-- The number in the first `k` words. -/
def registerValue (data : ℕ → Word) : ℕ → ℕ
 | 0 => 0
 | k + 1 => registerValue data k * 2 ^ 32 + (data k).toNat

theorem registerValue_lt (data : ℕ → Word) (k : ℕ) : registerValue data k < 2 ^ (32 * k) := by
 induction k with
 | zero => exact Nat.one_pos
 | succ k ih =>
  have word := (data k).isLt
  rw [registerValue, Nat.mul_succ, Nat.pow_add]
  omega

theorem registerValue_bit (data : ℕ → Word) {k i j : ℕ} (word : i < k) (bit : j < 32) :
 (registerValue data k).testBit (32 * (k - 1 - i) + j) = (data i).getLsbD j := by
 induction k with
 | zero => exact absurd word (Nat.not_lt_zero i)
 | succ k ih =>
  rw [registerValue, Nat.mul_comm, ← BitVec.testBit_toNat]
  rcases Nat.lt_succ_iff_lt_or_eq.mp word with before | rfl
  · have place : 32 * (k + 1 - 1 - i) + j = 32 + (32 * (k - 1 - i) + j) := by omega
    rw [place, Nat.testBit_two_pow_mul_add _ (data k).isLt, if_neg (by omega),
     Nat.add_sub_cancel_left, ih before, BitVec.testBit_toNat]
  · have place : 32 * (i + 1 - 1 - i) + j = j := by omega
    rw [place, Nat.testBit_two_pow_mul_add _ (data i).isLt, if_pos bit]

theorem mask_bit {size j : ℕ} (small : size < 32) :
 ((1 : Word) <<< size - 1).getLsbD j = decide (j < size) := by
 have power : 2 ^ size < 2 ^ 32 := Nat.pow_lt_pow_right (by omega) small
 have positive : 0 < 2 ^ size := Nat.two_pow_pos size
 have number : ((1 : Word) <<< size - 1).toNat = 2 ^ size - 1 := by
  have one : ((1 : Word) <<< size).toNat = 2 ^ size := by
   rw [BitVec.toNat_shiftLeft, Nat.shiftLeft_eq]
   exact (congrArg (· % 2 ^ 32) (Nat.one_mul _)).trans (Nat.mod_eq_of_lt power)
  rw [BitVec.toNat_sub, one]
  change (2 ^ 32 - 1 + 2 ^ size) % 2 ^ 32 = _
  omega
 rw [← BitVec.testBit_toNat, number, Nat.testBit_two_pow_sub_one]

section Parse

variable (data : ℕ → Word) {k start size : ℕ} (inside : start + size ≤ 32 * k) (pos : 0 < size)
include inside pos

theorem ret_bit {j : ℕ} (bit : j < size) (small : size ≤ 32) :
 (if 32 < size + start % 32 then
  data (32 * k / 32 - start / 32 - 1) >>> (start % 32) |||
   data (32 * k / 32 - start / 32 - 1 - 1) <<< (32 - start % 32)
 else data (32 * k / 32 - start / 32 - 1) >>> (start % 32)).getLsbD j =
  (registerValue data k).testBit (start + j) := by
 have words : 32 * k / 32 = k := Nat.mul_div_cancel_left k (by decide)
 rw [words]
 have low : start % 32 + j < 32 → (data (k - start / 32 - 1) >>> (start % 32)).getLsbD j =
  (registerValue data k).testBit (start + j) := fun less => by
  have place : start + j = 32 * (k - 1 - (k - start / 32 - 1)) + (start % 32 + j) := by omega
  rw [BitVec.getLsbD_ushiftRight, place, registerValue_bit data (by omega) less]
 have none : ¬start % 32 + j < 32 →
  (data (k - start / 32 - 1) >>> (start % 32)).getLsbD j = false := fun more => by
  rw [BitVec.getLsbD_ushiftRight]
  exact BitVec.getLsbD_of_ge _ _ (by omega)
 split
 · rename_i crosses
   rw [BitVec.getLsbD_or, BitVec.getLsbD_shiftLeft]
   by_cases less : start % 32 + j < 32
   · have below : j < 32 - start % 32 := by omega
     rw [low less, decide_eq_true below]
     simp only [Bool.not_true, Bool.and_false, Bool.false_and, Bool.or_false]
   have behind : ¬j < 32 - start % 32 := by omega
   have next : start + j =
    32 * (k - 1 - (k - start / 32 - 1 - 1)) + (j - (32 - start % 32)) := by omega
   have inWord : j < 32 := by omega
   rw [none less, decide_eq_false behind, decide_eq_true inWord, next,
    registerValue_bit data (by omega) (by omega)]
   simp only [Bool.not_false, Bool.and_true, Bool.true_and, Bool.false_or]
 · exact low (by omega)

theorem mmcParseBits_bit (small : size ≤ 32) (j : ℕ) :
 (mmcParseBits data (32 * k) start size).getLsbD j =
  (decide (j < size) && (registerValue data k).testBit (start + j)) := by
 have valid : ¬(32 * k ≤ start ∨ size = 0) := by omega
 have narrow : ¬32 < size := by omega
 unfold mmcParseBits
 rw [if_neg valid, if_neg narrow]
 change (if size < 32 then (if 32 < size + start % 32 then _ else _) &&& _
  else if 32 < size + start % 32 then _ else _ : Word).getLsbD j = _
 by_cases bit : j < size
 · have ret := ret_bit data inside pos bit small
   rw [decide_eq_true bit, Bool.true_and, ← ret]
   by_cases less : size < 32
   · rw [if_pos less, BitVec.getLsbD_and, mask_bit less, decide_eq_true bit, Bool.and_true]
   · rw [if_neg less]
 · rw [decide_eq_false bit, Bool.false_and]
   by_cases less : size < 32
   · rw [if_pos less, BitVec.getLsbD_and, mask_bit less, decide_eq_false bit, Bool.and_false]
   · rw [if_neg less]
     exact BitVec.getLsbD_of_ge _ _ (by omega)

theorem mmcParseBits_value (small : size ≤ 32) :
 (mmcParseBits data (32 * k) start size).toNat =
  registerValue data k / 2 ^ start % 2 ^ size := by
 refine Nat.eq_of_testBit_eq fun j => ?_
 rw [BitVec.testBit_toNat, mmcParseBits_bit data inside pos small, Nat.testBit_mod_two_pow,
  Nat.testBit_div_two_pow, Nat.add_comm]

end Parse

end DriversFramework.MmcCapacity
