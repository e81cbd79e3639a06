import Mathlib.Data.List.Nodup
import Mathlib.Logic.Relation

/-! Places in memory, each of which holds the place of the next one. The last one holds none. -/
namespace LinkedChains

universe u
variable {α : Type u}

/-- Each place of the list holds the place behind it. -/
def Linked (next : α → Option α) (list : List α) : Prop :=
 ∀ front a back, list = front ++ a :: back → next a = back.head?

variable {next : α → Option α} {front back list : List α} {a b : α}

theorem Linked.next_eq (linked : Linked next (front ++ a :: back)) : next a = back.head? :=
 linked front a back rfl

theorem Linked.behind (linked : Linked next (front ++ back)) : Linked next back := by
 intro front' a back' split
 refine linked (front ++ front') a back' ?_
 rw [split, List.append_assoc]

variable [DecidableEq α]

theorem Linked.update_outside {value : Option α} (linked : Linked next list) (outside : a ∉ list) :
 Linked (Function.update next a value) list := by
 intro front b back split
 have other : b ≠ a := by
  rintro rfl
  apply outside
  rw [split]
  exact List.mem_append_right _ List.mem_cons_self
 rw [Function.update_of_ne other]
 exact linked front b back split

theorem Linked.unlink (linked : Linked next (front ++ b :: a :: back))
 (nodup : (front ++ b :: a :: back).Nodup) :
 Linked (Function.update next b back.head?) (front ++ b :: back) := by
 have before := List.nodup_append.mp nodup
 have behind : b ∉ back := fun mem =>
  (List.nodup_cons.mp before.2.1).1 (List.mem_cons_of_mem a mem)
 intro front' c back' split
 by_cases here : c = b
 · subst here
   have same := List.append_cons_inj_of_notMem
    (fun mem => before.2.2 c mem c List.mem_cons_self rfl) behind |>.mp split
   rw [Function.update_self, same.2.2]
 rw [Function.update_of_ne here]
 rcases List.append_eq_append_iff.mp split with ⟨rest, rfl, tail⟩ | ⟨rest, rfl, tail⟩
 · cases rest with
   | nil => exact absurd (List.cons.inj tail).1.symm here
   | cons d rest =>
    obtain ⟨rfl, rfl⟩ := List.cons.inj tail
    refine linked (front ++ b :: a :: rest) c back' ?_
    rw [List.append_assoc]
    rfl
 · cases rest with
   | nil => exact absurd (List.cons.inj tail).1 here
   | cons d rest =>
    obtain ⟨rfl, rfl⟩ := List.cons.inj tail
    have old := linked front' c (rest ++ b :: a :: back) (by simp)
    rw [old]
    cases rest with
    | nil => rfl
    | cons e rest => rfl

theorem Linked.insert (linked : Linked next (front ++ b :: back))
 (nodup : (front ++ b :: back).Nodup) (outside : a ∉ front ++ b :: back) :
 Linked (Function.update (Function.update next a back.head?) b (some a))
  (front ++ b :: a :: back) := by
 have other : a ≠ b := by
  rintro rfl
  exact outside (List.mem_append_right _ List.mem_cons_self)
 have before := List.nodup_append.mp nodup
 have behind : b ∉ back := (List.nodup_cons.mp before.2.1).1
 have ahead : b ∉ front := fun mem => before.2.2 b mem b List.mem_cons_self rfl
 intro front' c back' split
 by_cases here : c = b
 · subst here
   have same := List.append_cons_inj_of_notMem ahead
    (fun mem => (List.mem_cons.mp mem).elim (fun eq => other eq.symm) behind) |>.mp split
   rw [Function.update_self, ← same.2.2]
   rfl
 rw [Function.update_of_ne here]
 rcases List.append_eq_append_iff.mp split with ⟨rest, rfl, tail⟩ | ⟨rest, rfl, tail⟩
 · rcases rest with _ | ⟨d, rest⟩
   · exact absurd (List.cons.inj tail).1.symm here
   · obtain ⟨rfl, later⟩ : b = d ∧ a :: back = rest ++ c :: back' := List.cons.inj tail
     rcases rest with _ | ⟨e, rest⟩
     · obtain ⟨rfl, rfl⟩ : a = c ∧ back = back' := List.cons.inj later
       rw [Function.update_self]
     · obtain ⟨rfl, rfl⟩ : a = e ∧ back = rest ++ c :: back' := List.cons.inj later
       have apart : c ≠ a := by
        rintro rfl
        exact outside (by simp)
       rw [Function.update_of_ne apart]
       refine linked (front ++ b :: rest) c back' ?_
       rw [List.append_assoc]
       rfl
 · rcases rest with _ | ⟨d, rest⟩
   · exact absurd (List.cons.inj tail).1 here
   · obtain ⟨rfl, rfl⟩ := List.cons.inj tail
     have apart : c ≠ a := by
      rintro rfl
      exact outside (by simp)
     rw [Function.update_of_ne apart, linked front' c (rest ++ b :: back) (by simp)]
     cases rest <;> rfl

end LinkedChains
