import Mathlib.Data.UInt

namespace ByteFields

variable {x x' y y' m n : UInt8}

def Within (m x : UInt8) : Prop := x &&& m = x

theorem within_iff :
 Within m x ↔ ∀ i, x.toBitVec.getLsbD i = true → m.toBitVec.getLsbD i = true := by
 rw [Within, ← UInt8.toBitVec_inj, UInt8.toBitVec_and]
 constructor
 · intro same i bit
   rw [← same, BitVec.getLsbD_and, Bool.and_eq_true] at bit
   exact bit.2
 · intro bits
   refine BitVec.eq_of_getLsbD_eq fun i _ => ?_
   rw [BitVec.getLsbD_and]
   cases bit : x.toBitVec.getLsbD i
   · rfl
   · rw [bits i bit]
     rfl

theorem and_within (x m : UInt8) : Within m (x &&& m) := by
 rw [Within, UInt8.and_assoc, UInt8.and_self]

theorem Within.or (hx : Within m x) (hy : Within n y) : Within (m ||| n) (x ||| y) := by
 rw [within_iff] at *
 intro i bit
 rw [UInt8.toBitVec_or, BitVec.getLsbD_or, Bool.or_eq_true] at *
 exact bit.imp (hx i) (hy i)

theorem Within.or_inj (hx : Within m x) (hx' : Within m x') (hy : Within n y) (hy' : Within n y')
 (apart : m &&& n = 0) (same : x ||| y = x' ||| y') : x = x' ∧ y = y' := by
 have split {a b : UInt8} (ha : Within m a) (hb : Within n b) :
  (a ||| b) &&& m = a ∧ (a ||| b) &&& n = b := by
  have distrib (k : UInt8) : (a ||| b) &&& k = a &&& k ||| b &&& k :=
   UInt8.toBitVec_inj.mp BitVec.and_or_distrib_right
  have left : a &&& n = 0 := by rw [← ha, UInt8.and_assoc, apart, UInt8.and_zero]
  have right : b &&& m = 0 := by
   rw [← hb, UInt8.and_assoc, UInt8.and_comm n, apart, UInt8.and_zero]
  rw [distrib, distrib, left, right, ha, hb, UInt8.or_zero, UInt8.zero_or]
  exact ⟨rfl, rfl⟩
 obtain ⟨left, right⟩ := split hx hy
 obtain ⟨left', right'⟩ := split hx' hy'
 rw [same] at left right
 exact ⟨left.symm.trans left', right.symm.trans right'⟩

def slice (low width number : ℕ) : ℕ := number / 2 ^ low % 2 ^ width

theorem slice_or (low width a b : ℕ) :
 slice low width (a ||| b) = slice low width a ||| slice low width b := by
 rw [slice, Nat.or_div_two_pow, Nat.or_mod_two_pow, slice, slice]

theorem slice_of_dvd {low width number : ℕ} (multiple : 2 ^ (low + width) ∣ number) :
 slice low width number = 0 := by
 obtain ⟨k, rfl⟩ := multiple
 rw [slice, Nat.pow_add, Nat.mul_assoc, Nat.mul_div_cancel_left _ (Nat.two_pow_pos low)]
 exact Nat.mul_mod_right _ _

theorem slice_of_lt {low number : ℕ} (width : ℕ) (small : number < 2 ^ low) :
 slice low width number = 0 := by
 rw [slice, Nat.div_eq_of_lt small, Nat.zero_mod]

theorem slice_mul {low width number : ℕ} (small : number < 2 ^ width) :
 slice low width (number * 2 ^ low) = number := by
 rw [slice, Nat.mul_div_cancel _ (Nat.two_pow_pos low), Nat.mod_eq_of_lt small]

end ByteFields
