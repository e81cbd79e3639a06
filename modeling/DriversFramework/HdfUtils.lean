import Mathlib.Data.List.Basic

/-! `HdfStringMakeHashKey` with `char` unsigned, and the operations of `hdf_slist.c`
that change one element. A list is searched with `List.find?`, grows at its head
or in order, and loses an element with `List.eraseP`. -/
namespace DriversFramework

/-- The key of a string that is not null: the bytes before the zero. -/
def hdfStringMakeHashKey (key : List UInt8) (mask : UInt32) : UInt32 :=
 key.foldl (fun hashValue c => hashValue * 131 + c.toUInt32) 0 &&& 0x7FFFFFFF ||| mask

namespace HdfSList

universe u
variable {α : Type u}

def updateFirst (p : α → Bool) (f : α → α) : List α → List α
 | [] => []
 | a :: as => if p a then f a :: as else a :: updateFirst p f as

def insertBetween (comparer : α → α → Bool) (link : α) : List α → List α
 | [] => [link]
 | [last] => [last, link]
 | a :: b :: rest =>
  if comparer a link && comparer link b then a :: link :: b :: rest
  else a :: insertBetween comparer link (b :: rest)

/-- `HdfSListAddOrder` for an element that is not in the list. -/
def addOrder (comparer : α → α → Bool) (list : List α) (link : α) : List α :=
 match list with
 | [] => [link]
 | root :: rest =>
  if comparer link root then link :: root :: rest
  else insertBetween comparer link (root :: rest)

variable {p : α → Bool} {f : α → α}

theorem find?_updateFirst (as : List α) (hp : ∀ a, as.find? p = some a → p (f a) = true) :
 (updateFirst p f as).find? p = (as.find? p).map f := by
 induction as with
 | nil => rfl
 | cons a as ih =>
  by_cases here : p a
  · have kept := hp a (by simp [here])
    simp [updateFirst, here, kept]
  · simp only [List.find?_cons, here] at hp
    simpa [updateFirst, here] using ih hp

theorem updateFirst_split (f : α → α) {as : List α} {a : α} (h : as.find? p = some a) :
 ∃ front back, as = front ++ a :: back ∧ updateFirst p f as = front ++ f a :: back ∧
  p a = true ∧ ∀ x ∈ front, p x = false := by
 induction as with
 | nil => cases h
 | cons b as ih =>
  by_cases here : p b
  · simp only [List.find?_cons, here, Option.some.injEq] at h
    subst h
    exact ⟨[], as, rfl, by simp [updateFirst, here], here, by simp⟩
  · simp only [List.find?_cons, here] at h
    obtain ⟨front, back, rfl, changed, found, before⟩ := ih h
    refine ⟨b :: front, back, rfl, by simp [updateFirst, here, changed], found, ?_⟩
    exact List.forall_mem_cons.mpr ⟨by simpa using here, before⟩

theorem updateFirst_of_none {as : List α} (h : as.find? p = none) : updateFirst p f as = as := by
 induction as with
 | nil => rfl
 | cons b as ih =>
  by_cases here : p b
  · simp [here] at h
  · simp only [List.find?_cons, here] at h
    simp [updateFirst, here, ih h]

theorem mem_updateFirst {as : List α} {b : α} (h : b ∈ updateFirst p f as) :
 b ∈ as ∨ ∃ a ∈ as, p a = true ∧ b = f a := by
 induction as with
 | nil => cases h
 | cons a as ih =>
  rw [updateFirst] at h
  split_ifs at h with here
  · rcases List.mem_cons.mp h with rfl | behind
    · exact Or.inr ⟨a, List.mem_cons_self, here, rfl⟩
    · exact Or.inl (List.mem_cons_of_mem _ behind)
  · rcases List.mem_cons.mp h with rfl | behind
    · exact Or.inl List.mem_cons_self
    · rcases ih behind with old | ⟨c, hc, hp, rfl⟩
      · exact Or.inl (List.mem_cons_of_mem _ old)
      · exact Or.inr ⟨c, List.mem_cons_of_mem _ hc, hp, rfl⟩

theorem getElem?_updateFirst (as : List α) (i : ℕ) :
 (updateFirst p f as)[i]? = if i = as.findIdx p then as[i]?.map f else as[i]? := by
 induction as generalizing i with
 | nil => simp [updateFirst]
 | cons a as ih =>
  rw [updateFirst, List.findIdx_cons]
  by_cases here : p a = true
  · rw [if_pos here, here]
    cases i with
    | zero => rfl
    | succ i => rfl
  rw [if_neg here, Bool.eq_false_iff.mpr here]
  cases i with
  | zero => rfl
  | succ i =>
   rw [List.getElem?_cons_succ, List.getElem?_cons_succ, ih]
   simp

theorem getElem?_findIdx {as : List α} {a : α} (h : as.find? p = some a) :
 as[as.findIdx p]? = some a := by
 induction as with
 | nil => cases h
 | cons b as ih =>
  rw [List.findIdx_cons]
  by_cases here : p b = true
  · rw [List.find?_cons_of_pos here] at h
    rw [here]
    exact h
  · rw [List.find?_cons_of_neg here] at h
    rw [Bool.eq_false_iff.mpr here]
    exact ih h

theorem map_updateFirst {β : Type u} {g : α → β} (as : List α) (h : ∀ a, g (f a) = g a) :
 (updateFirst p f as).map g = as.map g := by
 induction as with
 | nil => rfl
 | cons a as ih =>
  rw [updateFirst]
  split_ifs
  · rw [List.map_cons, List.map_cons, h]
  · rw [List.map_cons, List.map_cons, ih]

theorem insertBetween_perm (comparer : α → α → Bool) (link : α) (list : List α) :
 (insertBetween comparer link list).Perm (link :: list) := by
 induction list with
 | nil => exact List.Perm.refl _
 | cons a rest ih =>
  cases rest with
  | nil => exact List.Perm.swap link a []
  | cons b rest =>
   rw [insertBetween]
   split_ifs
   · exact List.Perm.swap link a (b :: rest)
   · exact (ih.cons a).trans (List.Perm.swap link a (b :: rest))

theorem addOrder_perm (comparer : α → α → Bool) (list : List α) (link : α) :
 (addOrder comparer list link).Perm (link :: list) := by
 cases list with
 | nil => exact List.Perm.refl _
 | cons root rest =>
  rw [addOrder]
  split_ifs
  · exact List.Perm.refl _
  · exact insertBetween_perm comparer link (root :: rest)

end HdfSList

end DriversFramework
