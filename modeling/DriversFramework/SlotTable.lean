import Mathlib.Data.List.Nodup
import Mathlib.Data.List.Perm.Subperm

/-! A table is a list of entries, of which some are empty. A value is entered at the first place
that is empty or has the value already. When all values of a list are entered in a table that has
some of them, no value is entered twice if each one that is there is met before a hole. -/
namespace SlotTable

universe u
variable {α : Type u} [DecidableEq α]

def slot (t : List (Option α)) (x : α) : ℕ := t.findIdx fun e => e = none || e = some x

def holesBefore (t : List (Option α)) (x : α) : ℕ := (t.takeWhile fun e => e ≠ some x).count none

def Once (t : List (Option α)) : Prop := ∀ x, t.count (some x) ≤ 1

def InOrder (t : List (Option α)) (xs : List α) : Prop :=
 ∀ pre x post, xs = pre ++ x :: post → some x ∈ t →
  holesBefore t x ≤ pre.countP fun y => some y ∉ t

variable {t : List (Option α)} {x y : α} {xs : List α} {a b : List (Option α)}

theorem slot_append (h : none ∉ a) (hx : some x ∉ a) : slot (a ++ b) x = a.length + slot b x := by
 have other : ∀ e ∈ a, (e = none || e = some x) = false := by
  intro e he
  have h1 : e ≠ none := fun same => h (same ▸ he)
  have h2 : e ≠ some x := fun same => hx (same ▸ he)
  simp [h1, h2]
 have far : a.findIdx (fun e => e = none || e = some x) = a.length := List.findIdx_eq_length.mpr other
 rw [slot, List.findIdx_append, far, if_neg (Nat.lt_irrefl _), Nat.add_comm]
 rfl

theorem slot_hole (h : none ∉ a) (hx : some x ∉ a) : slot (a ++ none :: b) x = a.length := by
 rw [slot_append h hx]
 simp [slot, List.findIdx_cons]

theorem slot_found (h : none ∉ a) (hx : some x ∉ a) : slot (a ++ some x :: b) x = a.length := by
 rw [slot_append h hx]
 simp [slot, List.findIdx_cons]

theorem slot_full (h : none ∉ t) (hx : some x ∉ t) : slot t x = t.length := by
 have all := slot_append (b := []) h hx
 simpa [slot] using all

omit [DecidableEq α] in
theorem set_slot (e e' : Option α) : (a ++ e :: b).set a.length e' = a ++ e' :: b := by
 simp

theorem holesBefore_append_mem (hx : some x ∈ a) : holesBefore (a ++ b) x = holesBefore a x := by
 obtain ⟨pre, post, rfl, hpre⟩ := List.eq_append_cons_of_mem hx
 have stop : ∀ rest : List (Option α), (pre ++ some x :: rest).takeWhile (fun e => decide (e ≠ some x)) = pre := by
  intro rest
  rw [List.takeWhile_append_of_pos]
  · simp
  · intro e he
    have other : e ≠ some x := fun same => hpre (same ▸ he)
    simpa using other
 rw [holesBefore, holesBefore, List.append_assoc, List.cons_append, stop, stop]

theorem holesBefore_append (hx : some x ∉ a) :
 holesBefore (a ++ b) x = a.count none + holesBefore b x := by
 rw [holesBefore, List.takeWhile_append_of_pos, List.count_append]
 · rfl
 · intro e he
   have other : e ≠ some x := fun same => hx (same ▸ he)
   simpa using other

theorem holesBefore_full (h : none ∉ a) : holesBefore a x = 0 := by
 rw [holesBefore, List.count_eq_zero]
 intro hmem
 exact h (List.takeWhile_subset _ hmem)

theorem holesBefore_fill (h : none ∉ a) (hne : y ≠ x) :
 holesBefore (a ++ some y :: b) x = holesBefore (a ++ none :: b) x - 1 := by
 by_cases hx : some x ∈ a
 · rw [holesBefore_append_mem hx, holesBefore_append_mem hx, holesBefore_full h]
 · rw [holesBefore_append hx, holesBefore_append hx, List.count_eq_zero.mpr h]
   simp [holesBefore, hne]

theorem split_found (hx : some x ∈ t) (hzero : holesBefore t x = 0) :
 ∃ a b, t = a ++ some x :: b ∧ none ∉ a ∧ some x ∉ a := by
 obtain ⟨a, b, rfl, ha⟩ := List.eq_append_cons_of_mem hx
 refine ⟨a, b, rfl, ?_, ha⟩
 rw [holesBefore_append ha] at hzero
 exact List.count_eq_zero.mp (by omega)

theorem count_fill (e : Option α) (x : α) (hne : e ≠ some x) :
 (a ++ e :: b).count (some x) + 1 = (a ++ some x :: b).count (some x) := by
 simp [List.count_append, hne]
 omega

theorem once_fill (h : Once (a ++ none :: b)) (hx : some x ∉ a ++ none :: b) :
 Once (a ++ some x :: b) := by
 intro z
 by_cases same : z = x
 · subst same
   have none_ := List.count_eq_zero.mpr hx
   have one := count_fill (a := a) (b := b) none z (by simp)
   omega
 · have old := h z
   simp [List.count_append, Ne.symm same] at old ⊢
   exact old

theorem once_clear (h : Once (a ++ some x :: b)) : Once (a ++ none :: b) ∧ some x ∉ a ++ none :: b := by
 have one := h x
 have fill := count_fill (a := a) (b := b) none x (by simp)
 refine ⟨?_, List.count_eq_zero.mp (by omega)⟩
 intro z
 have old := h z
 simp [List.count_append, List.count_cons] at old ⊢
 omega

theorem once_append_holes (h : Once t) (n : ℕ) : Once (t ++ List.replicate n none) := by
 intro z
 have none_ : (List.replicate n (none : Option α)).count (some z) = 0 :=
  List.count_eq_zero.mpr (by simp)
 rw [List.count_append, none_]
 exact h z

theorem length_lt (h : none ∉ t) (once : Once t) (known : ∀ z, some z ∈ t → z ∈ xs) (hy : y ∈ xs)
 (hnot : some y ∉ t) : t.length < xs.length := by
 have nodup : t.Nodup := by
  rw [List.nodup_iff_count_le_one]
  intro e
  cases e with
  | none => rw [List.count_eq_zero.mpr h]; omega
  | some z => exact once z
 have sub : some y :: t ⊆ xs.map some := by
  intro e he
  rcases List.mem_cons.mp he with rfl | he
  · exact List.mem_map_of_mem hy
  · cases e with
    | none => exact absurd he h
    | some z => exact List.mem_map_of_mem (known z he)
 have short := (List.subperm_of_subset (List.nodup_cons.mpr ⟨hnot, nodup⟩) sub).length_le
 rw [List.length_cons, List.length_map] at short
 exact short

theorem InOrder.tail_mem (h : InOrder t (x :: xs)) (hx : some x ∈ t) :
 holesBefore t x = 0 ∧ InOrder t xs := by
 refine ⟨Nat.le_zero.mp (h [] x xs rfl hx), ?_⟩
 intro pre z post split hz
 have old := h (x :: pre) z post (by rw [split, List.cons_append]) hz
 rwa [List.countP_cons_of_neg (by simpa using hx)] at old

theorem InOrder.tail_fill (h : InOrder (a ++ none :: b) (x :: xs)) (hfull : none ∉ a)
 (hx : some x ∉ a ++ none :: b) (nodup : (x :: xs).Nodup) : InOrder (a ++ some x :: b) xs := by
 intro pre z post split hz
 have hne : ∀ y ∈ xs, y ≠ x := by
  rintro y hy rfl
  exact (List.nodup_cons.mp nodup).1 hy
 have zne : z ≠ x := hne z (by simp [split])
 have hz' : some z ∈ a ++ none :: b := by
  simpa [zne] using hz
 have old := h (x :: pre) z post (by rw [split, List.cons_append]) hz'
 have same : (pre.countP fun y => some y ∉ a ++ some x :: b) =
  pre.countP fun y => some y ∉ a ++ none :: b := by
  apply List.countP_congr
  intro y hy
  have yne := hne y (by simp [split, hy])
  simp [yne]
 rw [List.countP_cons_of_pos (by simpa using hx)] at old
 rw [holesBefore_fill hfull zne.symm, same]
 omega

theorem InOrder.append_holes (h : InOrder t xs) (n : ℕ) : InOrder (t ++ List.replicate n none) xs := by
 intro pre z post split hz
 have hz' : some z ∈ t := by simpa using hz
 have same : (pre.countP fun y => some y ∉ t ++ List.replicate n none) = pre.countP fun y => some y ∉ t := by
  apply List.countP_congr
  intro y _
  simp
 rw [holesBefore_append_mem hz', same]
 exact h pre z post split hz'

theorem InOrder.snoc (h : InOrder t xs) (hx : some x ∉ t) : InOrder t (xs ++ [x]) := by
 intro pre z post split hz
 rcases List.eq_nil_or_concat post with rfl | ⟨post', last, rfl⟩
 · have same := List.append_inj_right' split rfl
   cases same
   exact absurd hz hx
 · have regroup : xs ++ [x] = (pre ++ z :: post') ++ [last] := by simpa using split
   exact h pre z post' (List.append_inj' regroup rfl).1 hz

end SlotTable
