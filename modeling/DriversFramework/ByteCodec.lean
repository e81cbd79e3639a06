import Mathlib.Data.List.TakeDrop
import Mathlib.Data.List.TakeWhile
import Mathlib.Tactic.Ring

/-! Little-endian words of a fixed width, rounding up to a multiple of four, and
the bytes of a memory block that one write or one read touches. -/
namespace ByteCodec

def leBytes : ℕ → ℕ → List UInt8
 | 0, _ => []
 | w + 1, n => UInt8.ofNat n :: leBytes w (n / 256)

def leNat : List UInt8 → ℕ
 | [] => 0
 | b :: bs => b.toNat + 256 * leNat bs

@[simp] theorem leBytes_length (w n : ℕ) : (leBytes w n).length = w := by
 induction w generalizing n with
 | zero => rfl
 | succ w ih => simp only [leBytes, List.length_cons, ih]

theorem leNat_leBytes (w n : ℕ) : leNat (leBytes w n) = n % 256 ^ w := by
 induction w generalizing n with
 | zero => simp only [leBytes, leNat, pow_zero, Nat.mod_one]
 | succ w ih =>
  have low : (UInt8.ofNat n).toNat = n % 256 := UInt8.toNat_ofNat'
  rw [leBytes, leNat, ih, low, pow_succ' 256 w, Nat.mod_mul]

theorem leNat_leBytes_of_lt {w n : ℕ} (h : n < 256 ^ w) : leNat (leBytes w n) = n := by
 rw [leNat_leBytes, Nat.mod_eq_of_lt h]

theorem leBytes_mod (w n : ℕ) : leBytes w (n % 256 ^ w) = leBytes w n := by
 induction w generalizing n with
 | zero => rfl
 | succ w ih =>
  have low : UInt8.ofNat (n % 256 ^ (w + 1)) = UInt8.ofNat n := by
   refine UInt8.toNat.inj ?_
   rw [UInt8.toNat_ofNat', UInt8.toNat_ofNat', pow_succ', Nat.mod_mul_right_mod]
  rw [leBytes, low, pow_succ', Nat.mod_mul_right_div_self, ih, leBytes]

theorem leNat_lt (bs : List UInt8) : leNat bs < 256 ^ bs.length := by
 induction bs with
 | nil => exact Nat.one_pos
 | cons b bs ih =>
  have hb : b.toNat < 256 := b.toNat_lt
  rw [leNat, List.length_cons, pow_succ]
  omega

theorem leBytes_append_zeros (w k n : ℕ) (h : n < 256 ^ w) :
 leBytes w n ++ List.replicate k 0 = leBytes (w + k) n := by
 induction w generalizing n with
 | zero =>
  obtain rfl : n = 0 := by simpa using h
  rw [leBytes, List.nil_append, Nat.zero_add]
  induction k with
  | zero => rfl
  | succ k ih => rw [List.replicate_succ, ih]; rfl
 | succ w ih =>
  have hdiv : n / 256 < 256 ^ w := by
   rw [pow_succ] at h
   omega
  rw [Nat.succ_add, leBytes, leBytes, List.cons_append, ih _ hdiv]

def align4 (n : ℕ) : ℕ := (n + 3) / 4 * 4

theorem le_align4 (n : ℕ) : n ≤ align4 n := by
 unfold align4
 omega

theorem align4_lt (n : ℕ) : align4 n < n + 4 := by
 unfold align4
 omega

variable {α : Type*}

/-- The `len` cells from `pos` on, fewer where the block ends. -/
def slice (data : List α) (pos len : ℕ) : List α := (data.drop pos).take len

def splice (data : List α) (pos : ℕ) (new : List α) : List α :=
 data.take pos ++ new ++ data.drop (pos + new.length)

variable {data : List α} {pos : ℕ}

variable {new xs : List α}

theorem splice_length (h : pos + new.length ≤ data.length) :
 (splice data pos new).length = data.length := by
 simp only [splice, List.length_append, List.length_take, List.length_drop]
 omega

theorem take_splice {n : ℕ} (hn : n ≤ pos) (hpos : pos ≤ data.length) :
 (splice data pos new).take n = data.take n := by
 have front : n ≤ (data.take pos).length := by
  rw [List.length_take]
  omega
 rw [splice, List.append_assoc, List.take_append_of_le_length front, List.take_take,
  min_eq_left hn]

theorem take_splice_behind {n : ℕ} (hn : pos + new.length ≤ n)
 (hpos : pos ≤ data.length) :
 (splice data pos new).take n =
  data.take pos ++ (new ++ (data.drop (pos + new.length)).take (n - (pos + new.length))) := by
 have hlen : (data.take pos ++ new).length = pos + new.length := by
  rw [List.length_append, List.length_take, min_eq_left hpos]
 rw [splice, List.take_append, List.take_of_length_le (hlen.le.trans hn), hlen,
  List.append_assoc]

theorem slice_take {len n : ℕ} (h : pos + len ≤ n) :
 slice (data.take n) pos len = slice data pos len := by
 rw [slice, slice, List.drop_take, List.take_take, min_eq_left (by omega)]

theorem slice_eq_of_drop_eq {front rest : List α}
 (h : data.drop pos = front ++ rest) : slice data pos front.length = front := by
 rw [slice, h, List.take_left]

/-- `xs` lies in the block from `pos` on. -/
def Holds (data : List α) (pos : ℕ) (xs : List α) : Prop := xs <+: data.drop pos

theorem Holds.slice_eq (h : Holds data pos xs) : slice data pos xs.length = xs := by
 obtain ⟨rest, hrest⟩ := h
 exact slice_eq_of_drop_eq hrest.symm

theorem Holds.left {ys : List α} (h : Holds data pos (xs ++ ys)) : Holds data pos xs :=
 (List.prefix_append xs ys).trans h

theorem Holds.right {ys : List α} (h : Holds data pos (xs ++ ys)) :
 Holds data (pos + xs.length) ys := by
 obtain ⟨rest, hrest⟩ := h
 refine ⟨rest, ?_⟩
 rw [← List.drop_drop, ← hrest, List.append_assoc, List.drop_left]

theorem Holds.end_le (h : Holds data pos xs) (hpos : 0 < xs.length) :
 pos + xs.length ≤ data.length := by
 have := h.length_le
 rw [List.length_drop] at this
 omega

theorem holds_of_append (front xs rest : List α) :
 Holds (front ++ (xs ++ rest)) front.length xs := by
 rw [Holds, List.drop_left]
 exact List.prefix_append xs rest

/-- The bytes in front of the first NUL. -/
def cString (mem : List UInt8) : List UInt8 := mem.takeWhile (· ≠ 0)

theorem cString_append {bs : List UInt8} (h : 0 ∉ bs) (rest : List UInt8) :
 cString (bs ++ 0 :: rest) = bs := by
 rw [cString, List.takeWhile_append_of_pos]
 · simp only [ne_eq, not_true_eq_false, decide_false, Bool.false_eq_true, not_false_eq_true,
    List.takeWhile_cons_of_neg, List.append_nil]
 · intro b hb
   exact decide_eq_true (ne_of_mem_of_not_mem hb h)

theorem cString_length_le {mem : List UInt8} {i : ℕ} (h : mem[i]? = some 0) :
 (cString mem).length ≤ i := by
 by_contra long
 have before : i < (mem.takeWhile (· ≠ 0)).length := not_le.mp long
 have seen := List.mem_takeWhile_imp (List.getElem_mem before)
 obtain ⟨hi, zero⟩ := List.getElem?_eq_some_iff.mp h
 rw [(List.takeWhile_prefix _).getElem before, zero] at seen
 simp at seen

end ByteCodec
