import Mathlib.Data.List.Induction
import Mathlib.Data.List.Nodup

namespace FirstNumbers

universe u v
variable {α : Type u} {κ : Type v} [DecidableEq α] [DecidableEq κ]

def firsts (calls : List α) : List α :=
 calls.foldl (fun seen a => if a ∈ seen then seen else seen ++ [a]) []

variable (key : α → κ)

def peers (calls : List α) (k : κ) : List α := (firsts calls).filter fun a => key a = k

/-- The number of an object among those of its key, from one on; 0 for one that was not called. -/
def number (calls : List α) (a : α) : ℕ :=
 if a ∈ calls then (peers key calls (key a)).idxOf a + 1 else 0

section firsts
variable {calls : List α} {a : α}

theorem firsts_snoc : firsts (calls ++ [a]) =
 if a ∈ firsts calls then firsts calls else firsts calls ++ [a] := by
 rw [firsts, List.foldl_append]
 rfl

@[simp] theorem mem_firsts : a ∈ firsts calls ↔ a ∈ calls := by
 induction calls using List.reverseRecOn with
 | nil => rfl
 | append_singleton calls b ih =>
  rw [firsts_snoc, List.mem_append, List.mem_singleton]
  split
  · next old =>
    rw [ih]
    refine ⟨.inl, fun mem => mem.elim id ?_⟩
    rintro rfl
    exact ih.mp old
  · rw [List.mem_append, List.mem_singleton, ih]

end firsts

section places
variable {key} {calls : List α} {a b : α} {k : κ}

theorem mem_peers : a ∈ peers key calls k ↔ a ∈ calls ∧ key a = k := by
 rw [peers, List.mem_filter, mem_firsts, decide_eq_true_iff]

theorem peers_again (old : a ∈ calls) (k : κ) :
 peers key (calls ++ [a]) k = peers key calls k := by
 rw [peers, firsts_snoc, if_pos (mem_firsts.mpr old), peers]

theorem peers_new (new : a ∉ calls) :
 peers key (calls ++ [a]) (key a) = peers key calls (key a) ++ [a] := by
 have here : [a].filter (fun b => key b = key a) = [a] := by
  rw [List.filter_cons_of_pos (by simp), List.filter_nil]
 rw [peers, firsts_snoc, if_neg (mem_firsts.not.mpr new), List.filter_append, here, peers]

theorem peers_other (other : key a ≠ k) : peers key (calls ++ [a]) k = peers key calls k := by
 rw [peers, firsts_snoc]
 split
 · rfl
 · rw [List.filter_append, List.filter_cons_of_neg (by simpa using other), List.filter_nil,
    List.append_nil, peers]

theorem number_of_mem (mem : a ∈ calls) :
 number key calls a = (peers key calls (key a)).idxOf a + 1 := if_pos mem

theorem number_eq_zero_iff : number key calls a = 0 ↔ a ∉ calls := by
 rw [number]
 split
 · next mem => exact iff_of_false (Nat.succ_ne_zero _) (not_not.mpr mem)
 · next absent => exact iff_of_true rfl absent

theorem number_again (old : b ∈ calls) (a : α) :
 number key (calls ++ [b]) a = number key calls a := by
 have mem : a ∈ calls ++ [b] ↔ a ∈ calls := by
  rw [List.mem_append, List.mem_singleton]
  refine ⟨fun either => either.elim id ?_, .inl⟩
  rintro rfl
  exact old
 simp only [number, mem, peers_again old]

theorem number_snoc (other : a ≠ b) : number key (calls ++ [b]) a = number key calls a := by
 by_cases again : b ∈ calls
 · exact number_again again a
 by_cases mem : a ∈ calls
 · have inside : a ∈ peers key calls (key a) := mem_peers.mpr ⟨mem, rfl⟩
   rw [number_of_mem mem, number_of_mem (List.mem_append_left [b] mem)]
   by_cases same : key b = key a
   · rw [← same] at inside ⊢
     rw [peers_new again, List.idxOf_append_of_mem inside]
   · rw [peers_other same]
 · have absent : a ∉ calls ++ [b] := by
    rw [List.mem_append, List.mem_singleton]
    exact not_or.mpr ⟨mem, other⟩
   rw [number_eq_zero_iff.mpr mem, number_eq_zero_iff.mpr absent]

theorem number_append (mem : a ∈ calls) (more : List α) :
 number key (calls ++ more) a = number key calls a := by
 induction more using List.reverseRecOn with
 | nil => rw [List.append_nil]
 | append_singleton more b ih =>
  rw [← List.append_assoc]
  by_cases same : a = b
  · rw [← same, number_again (List.mem_append_left more mem), ih]
  · rw [number_snoc same, ih]

theorem number_new (new : a ∉ calls) :
 number key (calls ++ [a]) a = (peers key calls (key a)).length + 1 := by
 have absent : a ∉ peers key calls (key a) := fun mem => new (mem_peers.mp mem).1
 rw [number_of_mem (List.mem_append_right calls List.mem_cons_self), peers_new new,
  List.idxOf_append_of_notMem absent, List.idxOf_cons_self, Nat.add_zero]

theorem number_eq_one_iff (mem : a ∈ calls) :
 number key calls a = 1 ↔ (peers key calls (key a)).head? = some a := by
 have inside : a ∈ peers key calls (key a) := mem_peers.mpr ⟨mem, rfl⟩
 rw [number_of_mem mem]
 cases list : peers key calls (key a) with
 | nil =>
  rw [list] at inside
  cases inside
 | cons b rest =>
  rw [List.head?_cons, Option.some_inj, Nat.add_eq_right]
  by_cases same : b = a
  · rw [same, List.idxOf_cons_self]
    exact iff_of_true rfl rfl
  · rw [List.idxOf_cons_ne rest same]
    exact iff_of_false (Nat.succ_ne_zero _) same

theorem number_inj (mem : a ∈ calls) (mem' : b ∈ calls) (same : key a = key b)
 (numbers : number key calls a = number key calls b) : a = b := by
 rw [number_of_mem mem, number_of_mem mem', same, Nat.add_right_cancel_iff] at numbers
 exact (List.idxOf_inj (mem_peers.mpr ⟨mem, same⟩)).mp numbers

end places

end FirstNumbers
