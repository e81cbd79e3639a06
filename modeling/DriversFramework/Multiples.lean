import Mathlib.Algebra.Group.Nat.Defs

namespace Multiples

variable {size n x : ℕ}

def down (size n : ℕ) : ℕ := n - n % size

def up (size n : ℕ) : ℕ := if n % size = 0 then n else n + (size - n % size)

theorem dvd_down : size ∣ down size n := Nat.dvd_sub_mod n

theorem down_le : down size n ≤ n := Nat.sub_le _ _

theorem dvd_up (pos : 0 < size) : size ∣ up size n := by
 have whole := Nat.div_add_mod n size
 have rest := Nat.mod_lt n pos
 rw [up]
 split
 · next exact_ => exact Nat.dvd_of_mod_eq_zero exact_
 · refine ⟨n / size + 1, ?_⟩
   rw [Nat.mul_add_one]
   omega

theorem le_up (pos : 0 < size) : n ≤ up size n := by
 have rest := Nat.mod_lt n pos
 rw [up]
 split <;> omega

theorem le_down_iff (pos : 0 < size) (multiple : size ∣ x) : x ≤ down size n ↔ x ≤ n := by
 have rest := Nat.mod_lt n pos
 have part := Nat.mod_le n size
 refine ⟨fun h => Nat.le_trans h down_le, fun h =>
  Nat.le_of_lt_add_of_dvd ?_ multiple dvd_down⟩
 rw [down]
 omega

theorem up_le_iff (pos : 0 < size) (multiple : size ∣ x) : up size n ≤ x ↔ n ≤ x := by
 have rest := Nat.mod_lt n pos
 refine ⟨fun h => Nat.le_trans (le_up pos) h, fun h =>
  Nat.le_of_lt_add_of_dvd ?_ (dvd_up pos) multiple⟩
 rw [up]
 split <;> omega

theorem down_of_dvd (multiple : size ∣ n) : down size n = n := by
 rw [down, Nat.mod_eq_zero_of_dvd multiple, Nat.sub_zero]

theorem up_eq_down_add (pos : 0 < size) (between : ¬size ∣ n) : up size n = down size n + size := by
 have rest : n % size ≠ 0 := fun h => between (Nat.dvd_of_mod_eq_zero h)
 have part := Nat.mod_le n size
 have short := Nat.mod_lt n pos
 rw [up, down, if_neg rest]
 omega

end Multiples
