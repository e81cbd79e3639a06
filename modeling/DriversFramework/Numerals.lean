import Mathlib.Algebra.Order.Group.Nat
import Mathlib.Tactic.ByContra

namespace DriversFramework.Numerals

def readDecimal (cs : List Char) : Option ℕ :=
 if cs ≠ [] ∧ cs.all Char.isDigit ∧ (cs.head? = some '0' → cs.length = 1) then
  some (Nat.ofDigitChars 10 cs 0)
 else none

theorem toDigits_snoc {b n : ℕ} (base : 1 < b) (large : b ≤ n) :
 Nat.toDigits b n = Nat.toDigits b (n / b) ++ [Nat.digitChar (n % b)] :=
 Nat.toDigits_of_base_le base large

theorem toDigits_head {b : ℕ} (base : 1 < b) (low : b ≤ 16) : ∀ (n : ℕ), 0 < n →
 (Nat.toDigits b n).head? ≠ some '0' := by
 intro n
 induction n using Nat.strongRecOn with
 | ind n ih =>
  intro pos
  by_cases small : n < b
  · rw [Nat.toDigits_of_lt_base small]
    have inside : n < 16 := small.trans_le low
    have digits : ∀ k < 16, 0 < k → some (Nat.digitChar k) ≠ some '0' := by decide
    exact digits n inside pos
  have large := Nat.not_lt.mp small
  have less : n / b < n := Nat.div_lt_self pos base
  have rest := ih (n / b) less (Nat.div_pos large (Nat.zero_lt_of_lt base))
  rw [toDigits_snoc base large, List.head?_append]
  cases first : (Nat.toDigits b (n / b)).head? with
  | none => exact absurd (List.head?_eq_none_iff.mp first) Nat.toDigits_ne_nil
  | some c =>
   rw [first] at rest
   exact rest

theorem readDecimal_toDigits {n : ℕ} : readDecimal (Nat.toDigits 10 n) = some n := by
 have digits : (Nat.toDigits 10 n).all Char.isDigit = true :=
  List.all_eq_true.mpr fun c mem =>
   Nat.isDigit_of_mem_toDigits (by decide) (by decide) mem
 have head : (Nat.toDigits 10 n).head? = some '0' → (Nat.toDigits 10 n).length = 1 := by
  intro zero
  have none' : n = 0 := by
   by_contra some'
   exact toDigits_head (by decide) (by decide) n (Nat.pos_of_ne_zero some') zero
  rw [none', Nat.toDigits_zero]
  rfl
 rw [readDecimal, if_pos ⟨Nat.toDigits_ne_nil, digits, head⟩, Nat.ofDigitChars_ten_toDigits]

theorem readDecimal_small {n : ℕ} (small : n < 10) :
 readDecimal (Nat.toDigits 16 n) = some n := by
 have same : Nat.toDigits 16 n = Nat.toDigits 10 n := by
  rw [Nat.toDigits_of_lt_base small, Nat.toDigits_of_lt_base (small.trans (by decide))]
 rw [same]
 exact readDecimal_toDigits

theorem ofDigitChars_toDigits_le : ∀ (n : ℕ), (Nat.toDigits 16 n).all Char.isDigit = true →
 Nat.ofDigitChars 10 (Nat.toDigits 16 n) 0 ≤ n ∧
  (n < 10 ∨ Nat.ofDigitChars 10 (Nat.toDigits 16 n) 0 < n) ∧
  (0 < n → 0 < Nat.ofDigitChars 10 (Nat.toDigits 16 n) 0) := by
 intro n
 induction n using Nat.strongRecOn with
 | ind n ih =>
  intro digits
  by_cases small : n < 16
  · rw [Nat.toDigits_of_lt_base small] at digits ⊢
    have single : ∀ k < 16, [Nat.digitChar k].all Char.isDigit = true →
     k < 10 ∧ Nat.ofDigitChars 10 [Nat.digitChar k] 0 = k := by decide
    obtain ⟨low, value⟩ := single n small digits
    rw [value]
    exact ⟨le_rfl, .inl low, id⟩
  have large := Nat.not_lt.mp small
  rw [toDigits_snoc (by decide) large] at digits ⊢
  rw [List.all_append, Bool.and_eq_true] at digits
  obtain ⟨front, last⟩ := digits
  have single : ∀ k < 16, [Nat.digitChar k].all Char.isDigit = true → k < 10 := by decide
  have low := single (n % 16) (Nat.mod_lt n (by decide)) last
  obtain ⟨le, -, pos⟩ := ih (n / 16) (Nat.div_lt_self (by omega) (by decide)) front
  have positive := pos (Nat.div_pos large (by decide))
  rw [Nat.ofDigitChars_append, Nat.ofDigitChars_cons_digitChar_of_lt_ten low,
   Nat.ofDigitChars_nil]
  have whole := Nat.div_add_mod n 16
  omega

theorem readDecimal_hex {n m : ℕ} (read : readDecimal (Nat.toDigits 16 n) = some m) :
 m ≤ n ∧ (n < 10 ∨ m < n) ∧ (0 < n → 0 < m) := by
 unfold readDecimal at read
 split at read
 · next shape =>
   obtain rfl := Option.some.inj read
   exact ofDigitChars_toDigits_le n shape.2.1
 · cases read

end DriversFramework.Numerals
