import Mathlib.Data.List.Perm.Basic

/-! A table is the list of its chains; `idx` tells the chain an element belongs to. -/
namespace HashChains

universe u
variable {α : Type u} {idx : α → ℕ} {chains : List (List α)}

def Placed (idx : α → ℕ) (chains : List (List α)) : Prop :=
 ∀ i chain, chains[i]? = some chain → ∀ a ∈ chain, idx a = i

/-- A new element becomes the first of its chain. -/
def add (idx : α → ℕ) (chains : List (List α)) (a : α) : List (List α) :=
 chains.modify (idx a) (a :: ·)

theorem Placed.mem_chain {a : α} (h : Placed idx chains) (ha : a ∈ chains.flatten) :
 ∃ chain, chains[idx a]? = some chain ∧ a ∈ chain := by
 obtain ⟨chain, hchain, hmem⟩ := List.mem_flatten.mp ha
 obtain ⟨i, hi⟩ := List.mem_iff_getElem?.mp hchain
 rw [h i chain hi a hmem]
 exact ⟨chain, hi, hmem⟩

theorem mem_flatten_of_chain {i : ℕ} {chain : List α} {a : α} (hi : chains[i]? = some chain)
 (ha : a ∈ chain) : a ∈ chains.flatten :=
 List.mem_flatten.mpr ⟨chain, List.mem_of_getElem? hi, ha⟩

theorem Placed.set {i : ℕ} {chain : List α} (h : Placed idx chains)
 (hchain : ∀ a ∈ chain, idx a = i) : Placed idx (chains.set i chain) := by
 intro j other hj a ha
 rw [List.getElem?_set] at hj
 split_ifs at hj with same inside
 · cases hj
   exact (hchain a ha).trans same
 · exact h j other hj a ha

theorem flatten_set {i : ℕ} {chain : List α} (hi : chains[i]? = some chain) (new : List α) :
 ∃ front back : List α, chains.flatten = front ++ (chain ++ back) ∧
  (chains.set i new).flatten = front ++ (new ++ back) := by
 obtain ⟨hlt, rfl⟩ := List.getElem?_eq_some_iff.mp hi
 refine ⟨(chains.take i).flatten, (chains.drop (i + 1)).flatten, ?_, ?_⟩
 · conv_lhs => rw [← List.take_append_drop i chains, List.drop_eq_getElem_cons hlt]
   rw [List.flatten_append, List.flatten_cons]
 · rw [List.set_eq_take_append_cons_drop, if_pos hlt, List.flatten_append, List.flatten_cons]

theorem add_eq_set {a : α} {chain : List α} (hi : chains[idx a]? = some chain) :
 add idx chains a = chains.set (idx a) (a :: chain) := by
 obtain ⟨hlt, rfl⟩ := List.getElem?_eq_some_iff.mp hi
 rw [add, List.modify_eq_take_cons_drop hlt, List.set_eq_take_append_cons_drop, if_pos hlt]

theorem add_length (a : α) : (add idx chains a).length = chains.length :=
 List.length_modify _ _ _

theorem add_perm {a : α} (ha : idx a < chains.length) :
 (add idx chains a).flatten.Perm (a :: chains.flatten) := by
 have hi := List.getElem?_eq_getElem ha
 obtain ⟨front, back, old, new⟩ := flatten_set hi (a :: chains[idx a])
 rw [add_eq_set hi, new, old]
 exact List.perm_middle

theorem Placed.add {a : α} (h : Placed idx chains) : Placed idx (add idx chains a) := by
 rcases Nat.lt_or_ge (idx a) chains.length with ha | ha
 · have hi := List.getElem?_eq_getElem ha
   rw [add_eq_set hi]
   exact h.set (List.forall_mem_cons.mpr ⟨rfl, h _ _ hi⟩)
 · rw [HashChains.add, List.modify_eq_self ha]
   exact h

theorem Placed.addAll {n : ℕ} (h : Placed idx chains) (hlength : chains.length = n)
 (hidx : ∀ a, idx a < n) (as : List α) :
 (as.foldl (HashChains.add idx) chains).length = n ∧
  Placed idx (as.foldl (HashChains.add idx) chains) ∧
  (as.foldl (HashChains.add idx) chains).flatten.Perm (as.reverse ++ chains.flatten) := by
 induction as generalizing chains with
 | nil => exact ⟨hlength, h, List.Perm.refl _⟩
 | cons a as ih =>
  obtain ⟨length, placed, perm⟩ := ih h.add ((add_length a).trans hlength)
  refine ⟨length, placed, perm.trans ?_⟩
  rw [List.reverse_cons, List.append_assoc]
  exact (add_perm (hlength ▸ hidx a)).append_left _

theorem placed_replicate (n : ℕ) : Placed idx (List.replicate n []) := by
 intro i chain hi a ha
 rw [List.getElem?_replicate] at hi
 split_ifs at hi
 cases hi
 cases ha

end HashChains
