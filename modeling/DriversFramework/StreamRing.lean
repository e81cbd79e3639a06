import Mathlib.Data.Nat.ModEq

/-! Element `i` of a stream is kept at place `i % size`. A block that is copied behind the stream
without crossing the end of the memory keeps what has not been read, as long as there is room. -/
namespace StreamRing

universe u
variable {β : Type u}

def put (mem : ℕ → β) (start : ℕ) (xs : List β) (a : ℕ) : β :=
 if start ≤ a then xs.getD (a - start) (mem a) else mem a

/-- What `m` reads from place `p` on give -/
def read (mem : ℕ → β) (size p m : ℕ) : List β :=
 (List.range m).map fun k => mem ((p + k) % size)

/-- The part of the stream from `p` on is in its places. -/
def Keeps (mem : ℕ → β) (size : ℕ) (stream : List β) (p : ℕ) : Prop :=
 ∀ i, p ≤ i → i < stream.length → stream[i]? = some (mem (i % size))

theorem put_outside (mem : ℕ → β) (start : ℕ) (xs : List β) (a : ℕ)
 (h : a < start ∨ start + xs.length ≤ a) : put mem start xs a = mem a := by
 unfold put
 split
 · rw [List.getD_eq_getElem?_getD, List.getElem?_eq_none (by omega), Option.getD_none]
 · rfl

theorem put_inside (mem : ℕ → β) (start : ℕ) (xs : List β) (k : ℕ) (h : k < xs.length) :
 some (put mem start xs (start + k)) = xs[k]? := by
 simp [put, h]

theorem Keeps.mono {mem : ℕ → β} {size p q : ℕ} {stream : List β}
 (h : Keeps mem size stream p) (hpq : p ≤ q) : Keeps mem size stream q :=
 fun i hi hlen => h i (hpq.trans hi) hlen

theorem place_add {size len k : ℕ} (h : len % size + k < size) :
 (len + k) % size = len % size + k := by
 rw [Nat.add_mod, Nat.mod_eq_of_lt (a := k) (by omega)]
 exact Nat.mod_eq_of_lt h

theorem place_outside {size len n p i : ℕ} (hend : len % size + n ≤ size)
 (hroom : len + n ≤ p + size) (hpi : p ≤ i) (hi : i < len) :
 i % size < len % size ∨ len % size + n ≤ i % size := by
 by_contra hcon
 obtain ⟨hlow, hhigh⟩ := not_or.mp hcon
 have hmod : (len + (i % size - len % size)) % size = i % size := by
  rw [place_add (by omega)]
  omega
 have hdvd : size ∣ len + (i % size - len % size) - i :=
  (Nat.modEq_iff_dvd' (by omega)).mp (show i % size = _ from hmod.symm)
 have hle := Nat.le_of_dvd (by omega) hdvd
 omega

theorem Keeps.put {mem : ℕ → β} {size p : ℕ} {stream : List β} (h : Keeps mem size stream p)
 (xs : List β) (hend : stream.length % size + xs.length ≤ size)
 (hroom : stream.length + xs.length ≤ p + size) :
 Keeps (put mem (stream.length % size) xs) size (stream ++ xs) p := by
 intro i hpi hi
 rw [List.length_append] at hi
 by_cases hold : i < stream.length
 · rw [List.getElem?_append_left hold, h i hpi hold,
    put_outside _ _ _ _ (place_outside hend hroom hpi hold)]
 · obtain ⟨k, rfl⟩ := Nat.exists_eq_add_of_le (Nat.le_of_not_lt hold)
   have hk : k < xs.length := by omega
   rw [List.getElem?_append_right (Nat.le_of_not_lt hold), Nat.add_sub_cancel_left,
    place_add (by omega), put_inside _ _ _ _ hk]

theorem Keeps.read {mem : ℕ → β} {size p m : ℕ} {stream : List β} (h : Keeps mem size stream p)
 (hm : p + m ≤ stream.length) : stream.take p ++ read mem size p m = stream.take (p + m) := by
 induction m with
 | zero => simp [StreamRing.read]
 | succ m ih =>
  have hlt : p + m < stream.length := by omega
  have hnext : stream[p + m] = mem ((p + m) % size) := by
   have := h (p + m) (Nat.le_add_right p m) hlt
   rw [List.getElem?_eq_getElem hlt] at this
   exact Option.some.inj this
  have hread : StreamRing.read mem size p (m + 1)
   = StreamRing.read mem size p m ++ [mem ((p + m) % size)] := by
   simp [StreamRing.read, List.range_succ]
  rw [hread, ← List.append_assoc, ih (by omega), ← Nat.add_assoc, List.take_add_one,
   List.getElem?_eq_getElem hlt, hnext]
  rfl

end StreamRing
