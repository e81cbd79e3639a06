import Mathlib.Algebra.BigOperators.Group.List.Basic
import Mathlib.Algebra.GroupWithZero.Nat

namespace AddressPieces

variable {w : ℕ}

def sizes (length max : ℕ) : List ℕ :=
 List.replicate (length / max) max ++ if length % max = 0 then [] else [length % max]

variable (start : BitVec w) (length max : ℕ)

theorem sum_sizes : (sizes length max).sum = length := by
 have whole := Nat.div_add_mod' length max
 unfold sizes
 by_cases exact : length % max = 0
 · rw [if_pos exact, List.append_nil, List.sum_replicate_nat]
   omega
 · rw [if_neg exact, List.sum_append, List.sum_replicate_nat, List.sum_singleton]
   exact whole

theorem mem_sizes {length max size : ℕ} (pos : 0 < max) (member : size ∈ sizes length max) :
 0 < size ∧ size ≤ max := by
 rcases List.mem_append.mp member with full | rest
 · obtain rfl := List.eq_of_mem_replicate full
   exact ⟨pos, Nat.le_refl _⟩
 · by_cases exact : length % max = 0
   · rw [if_pos exact] at rest
     cases rest
   · rw [if_neg exact, List.mem_singleton] at rest
     have below := Nat.mod_lt length pos
     omega

theorem length_sizes :
 (sizes length max).length = length / max + if length % max > 0 then 1 else 0 := by
 unfold sizes
 by_cases exact : length % max = 0
 · simp [exact]
 · simp [exact, Nat.pos_of_ne_zero exact]

theorem sizes_eq_map : sizes length max = (List.range (sizes length max).length).map fun i =>
  if i < (sizes length max).length - 1 ∨ length % max = 0 then max else length % max := by
 have count := length_sizes length max
 apply List.ext_getElem
 · simp
 · intro i inside _
   rw [List.getElem_map, List.getElem_range]
   by_cases exact : length % max = 0
   · simp [sizes, exact]
   rw [if_pos (Nat.pos_of_ne_zero exact)] at count
   rw [count, Nat.add_sub_cancel]
   by_cases front : i < length / max
   · rw [if_pos (Or.inl front)]
     simp [sizes, exact, front]
   · rw [if_neg (not_or.mpr ⟨front, exact⟩)]
     simp [sizes, exact, List.getElem_append, front]

theorem sizes_zero : sizes 0 max = [] := by
 simp [sizes]

theorem sizes_of_lt {length max : ℕ} (pos : 0 < length) (less : length < max) :
 sizes length max = [length] := by
 unfold sizes
 rw [Nat.div_eq_of_lt less, Nat.mod_eq_of_lt less, if_neg (Nat.ne_of_gt pos)]
 rfl

theorem sizes_of_le {length max : ℕ} (pos : 0 < max) (fits : max ≤ length) :
 sizes length max = max :: sizes (length - max) max := by
 have quotient : length / max = (length - max) / max + 1 := Nat.div_eq_sub_div pos fits
 have rest : length % max = (length - max) % max := Nat.mod_eq_sub_mod fits
 unfold sizes
 rw [quotient, rest, List.replicate_succ, List.cons_append]

inductive Consecutive : BitVec w → List (BitVec w × ℕ) → BitVec w → Prop where
 | nil (start : BitVec w) : Consecutive start [] start
 | cons {start stop : BitVec w} {size : ℕ} {pieces : List (BitVec w × ℕ)}
   (rest : Consecutive (start + BitVec.ofNat w size) pieces stop) :
   Consecutive start ((start, size) :: pieces) stop

structure Cuts (start : BitVec w) (length max : ℕ) (pieces : List (BitVec w × ℕ)) : Prop where
 consecutive : Consecutive start pieces (start + BitVec.ofNat w length)
 total : (pieces.map Prod.snd).sum = length
 bounded : ∀ piece ∈ pieces, 0 < piece.2 ∧ piece.2 ≤ max

def pieces (start : BitVec w) : List ℕ → List (BitVec w × ℕ)
 | [] => []
 | size :: rest => (start, size) :: pieces (start + BitVec.ofNat w size) rest

theorem map_snd_pieces (list : List ℕ) :
 (pieces start list).map Prod.snd = list := by
 induction list generalizing start with
 | nil => rfl
 | cons size rest ih => exact congrArg (size :: ·) (ih _)

theorem consecutive_pieces (list : List ℕ) :
 Consecutive start (pieces start list) (start + BitVec.ofNat w list.sum) := by
 induction list generalizing start with
 | nil =>
  have stays : start + BitVec.ofNat w 0 = start := BitVec.add_zero start
  rw [List.sum_nil, stays]
  exact Consecutive.nil start
 | cons size rest ih =>
  rw [List.sum_cons, BitVec.ofNat_add, ← BitVec.add_assoc]
  exact Consecutive.cons (ih _)

theorem cuts_pieces {max : ℕ} (pos : 0 < max) :
 Cuts start length max (pieces start (sizes length max)) where
 consecutive := by
  have whole := consecutive_pieces start (sizes length max)
  rw [sum_sizes] at whole
  exact whole
 total := by rw [map_snd_pieces, sum_sizes]
 bounded piece member := by
  have listed := List.mem_map_of_mem (f := Prod.snd) member
  rw [map_snd_pieces] at listed
  exact mem_sizes pos listed

end AddressPieces
