import Mathlib.Data.List.Nodup
import Mathlib.Data.Nat.Basic
import Mathlib.Logic.Relation
import Mathlib.Order.Basic
import DriversFramework.HcAstExpand

namespace DriversFramework.HcAst

def ObjectType.Scalar (t : ObjectType) : Prop := t.code ≤ ObjectType.string.code

instance (t : ObjectType) : Decidable t.Scalar := inferInstanceAs (Decidable (_ ≤ _))

/-- The types of the children of an object. -/
def ObjectType.Holds : ObjectType → ObjectType → Prop
 | .confNode, c => c = .confNode ∨ c = .confTerm
 | .confTerm, c => c ≠ .confNode ∧ c ≠ .confTerm
 | .array, c => c.Scalar
 | _, _ => False

theorem ObjectType.Holds.node_iff {p c : ObjectType} (hh : p.Holds c) :
 p = .confNode ↔ c = .confNode ∨ c = .confTerm := by
 cases p <;> cases c <;> simp_all [Holds, Scalar, code]

structure WellFormed (h : AstHeap) : Prop where
 lt_size : ∀ {p c : ℕ}, c ∈ (h.get p).children → c < h.size
 older : ∀ {p c : ℕ}, c ∈ (h.get p).children → p < c
 parent : ∀ {p c : ℕ}, c ∈ (h.get p).children → (h.get c).parent = some p
 nodup : ∀ p : ℕ, (h.get p).children.Nodup
 holds : ∀ {p c : ℕ}, c ∈ (h.get p).children → (h.get p).type.Holds (h.get c).type

/-- `o` stands in the tree under `a`. -/
def Below (h : AstHeap) : ℕ → ℕ → Prop :=
 Relation.ReflTransGen fun p c => c ∈ (h.get p).children

namespace Below

variable {h : AstHeap} {a b o p c : ℕ}

theorem refl (h : AstHeap) (a : ℕ) : Below h a a := Relation.ReflTransGen.refl

theorem of_child (hc : c ∈ (h.get p).children) : Below h p c := Relation.ReflTransGen.single hc

theorem trans (hab : Below h a b) (hbo : Below h b o) : Below h a o :=
 Relation.ReflTransGen.trans hab hbo

theorem step (hap : Below h a p) (hc : c ∈ (h.get p).children) : Below h a c :=
 Relation.ReflTransGen.tail hap hc

theorem le (hw : WellFormed h) (hab : Below h a b) : a ≤ b := by
 induction hab with
 | refl => exact Nat.le_refl a
 | tail _ hc ih => exact Nat.le_trans ih (Nat.le_of_lt (hw.older hc))

theorem lt_size (hw : WellFormed h) (ha : a < h.size) (hab : Below h a b) : b < h.size := by
 cases hab with
 | refl => exact ha
 | tail _ hc => exact hw.lt_size hc

theorem parent_of_ne (hw : WellFormed h) (hac : Below h a c) (hc : c ∈ (h.get p).children)
 (hne : a ≠ c) : Below h a p := by
 cases hac with
 | refl => exact absurd rfl hne
 | tail hap hc' =>
  have same : some _ = some p := (hw.parent hc').symm.trans (hw.parent hc)
  rw [Option.some.inj same] at hap
  exact hap

theorem total (hw : WellFormed h) (hao : Below h a o) (hbo : Below h b o) :
 Below h a b ∨ Below h b a := by
 induction hao with
 | refl => exact .inr hbo
 | @tail p c hap hc ih =>
  by_cases hb : b = c
  · rw [hb]
    exact .inl (Below.step hap hc)
  · exact ih (hbo.parent_of_ne hw hc hb)

theorem eq_of_siblings (hw : WellFormed h) (ha : a ∈ (h.get p).children)
 (hb : b ∈ (h.get p).children) (hao : Below h a o) (hbo : Below h b o) : a = b := by
 by_contra hne
 rcases total hw hao hbo with hab | hba
 · have low := (hab.parent_of_ne hw hb hne).le hw
   exact absurd (hw.older ha) (by omega)
 · have low := (hba.parent_of_ne hw ha (Ne.symm hne)).le hw
   exact absurd (hw.older hb) (by omega)

end Below

namespace AstHeap

variable {β : Type} (g : AstObject → β)

theorem modify_keep {f : AstObject → AstObject}
 (hf : ∀ o, g (f o) = g o) (h : AstHeap) (a b : ℕ) : g ((h.modify a f).get b) = g (h.get b) := by
 rw [get_modify]
 split
 · exact hf _
 · rfl

theorem addChild_keep (hc : ∀ o cs, g (AstObject.setChildren o cs) = g o)
 (hp : ∀ o p, g (AstObject.setParent o p) = g o) (h : AstHeap) (a childObj b : ℕ) :
 g ((h.addChild a childObj).get b) = g (h.get b) :=
 (modify_keep g (fun o => hp o a) _ childObj b).trans
  (modify_keep g (fun o => hc o (o.children ++ [childObj])) h a b)

theorem addChild_children {h : AstHeap} {a : ℕ} (ha : a < h.size) (childObj b : ℕ) :
 ((h.addChild a childObj).get b).children =
  if b = a then (h.get a).children ++ [childObj] else (h.get b).children := by
 refine (@modify_keep _ AstObject.children (fun o => o.setParent a) (fun _ => rfl) _ childObj b).trans ?_
 split
 · next hb => rw [hb, get_modify_self ha]; rfl
 · next hb => rw [get_modify_ne h (Ne.symm hb)]

theorem addChild_parent {h : AstHeap} {childObj : ℕ} (hc : childObj < h.size) (a b : ℕ) :
 ((h.addChild a childObj).get b).parent =
  if b = childObj then some a else (h.get b).parent := by
 rw [addChild]
 split
 · next hb => rw [hb, get_modify_self (by rw [size_modify]; exact hc)]; rfl
 · next hb =>
   rw [get_modify_ne _ (Ne.symm hb)]
   exact @modify_keep _ AstObject.parent (fun o => o.setChildren (o.children ++ [childObj]))
    (fun _ => rfl) h a b

theorem addChild_ne (h : AstHeap) {a childObj b : ℕ} (ha : b ≠ a) (hc : b ≠ childObj) :
 (h.addChild a childObj).get b = h.get b := by
 rw [addChild, get_modify_ne _ (Ne.symm hc), get_modify_ne _ (Ne.symm ha)]

theorem separate_keep (hc : ∀ o cs, g (AstObject.setChildren o cs) = g o) (h : AstHeap) (a b : ℕ) :
 g ((h.separate a).get b) = g (h.get b) := by
 unfold separate
 split
 · rfl
 · next p _ => exact modify_keep g (fun o => hc o (o.children.erase a)) h p b

theorem separate_children (h : AstHeap) (a b : ℕ) :
 ((h.separate a).get b).children =
  if (h.get a).parent = some b then (h.get b).children.erase a else (h.get b).children := by
 unfold separate
 split
 · next hp => rw [hp, if_neg (Option.some_ne_none b).symm]
 · next p hp =>
   rw [hp]
   by_cases hb : p = b
   · subst hb
     rw [if_pos rfl, get_modify]
     split
     · rfl
     · next hsize =>
       rw [get_of_size_le (by omega)]
       rfl
   · rw [get_modify_ne h hb, if_neg (fun heq => hb (Option.some.inj heq))]

theorem remove_keep (hc : ∀ o cs, g (AstObject.setChildren o cs) = g o) (h : AstHeap) (a b : ℕ) :
 g ((h.remove a).get b) = g (h.get b) :=
 (modify_keep g (fun o => hc o []) _ a b).trans (separate_keep g hc h a b)

theorem remove_children (h : AstHeap) (a b : ℕ) :
 ((h.remove a).get b).children = if b = a then [] else ((h.separate a).get b).children := by
 rw [remove, get_modify]
 by_cases hb : a = b
 · subst hb
   split
   · rw [if_pos rfl]
     rfl
   · next hsize =>
     rw [if_pos rfl, get_of_size_le (by omega)]
     rfl
 · rw [if_neg (fun heq => hb heq.1), if_neg (Ne.symm hb)]

end AstHeap

section WellFormedUpdates

variable {h : AstHeap}

open AstHeap

theorem WellFormed.of_keep {h' : AstHeap} (hw : WellFormed h) (hsize : h.size ≤ h'.size)
 (hchildren : ∀ p, (h'.get p).children.Sublist (h.get p).children)
 (hparent : ∀ o, (h'.get o).parent = (h.get o).parent)
 (htype : ∀ o, (h'.get o).type = (h.get o).type) : WellFormed h' where
 lt_size hc := Nat.lt_of_lt_of_le (hw.lt_size ((hchildren _).subset hc)) hsize
 older hc := hw.older ((hchildren _).subset hc)
 parent hc := (hparent _).trans (hw.parent ((hchildren _).subset hc))
 nodup p := (hw.nodup p).sublist (hchildren p)
 holds hc := by
  rw [htype, htype]
  exact hw.holds ((hchildren _).subset hc)

theorem Below.of_sublist {h' : AstHeap}
 (hchildren : ∀ p, (h'.get p).children.Sublist (h.get p).children) {a o : ℕ}
 (hb : Below h' a o) : Below h a o :=
 Relation.ReflTransGen.mono (fun p _ hc => (hchildren p).subset hc) _ _ hb

theorem separate_sublist (h : AstHeap) (a p : ℕ) :
 ((h.separate a).get p).children.Sublist (h.get p).children := by
 rw [separate_children]
 split
 · exact List.erase_sublist
 · exact List.Sublist.refl _

theorem remove_sublist (h : AstHeap) (a p : ℕ) :
 ((h.remove a).get p).children.Sublist (h.get p).children := by
 rw [remove_children]
 split
 · exact List.nil_sublist _
 · exact separate_sublist h a p

theorem WellFormed.separate (hw : WellFormed h) (a : ℕ) : WellFormed (h.separate a) :=
 hw.of_keep (Nat.le_of_eq (size_separate h a).symm) (separate_sublist h a)
  (separate_keep AstObject.parent (fun _ _ => rfl) h a)
  (separate_keep AstObject.type (fun _ _ => rfl) h a)

theorem WellFormed.remove (hw : WellFormed h) (a : ℕ) : WellFormed (h.remove a) :=
 hw.of_keep (Nat.le_of_eq (size_remove h a).symm) (remove_sublist h a)
  (remove_keep AstObject.parent (fun _ _ => rfl) h a)
  (remove_keep AstObject.type (fun _ _ => rfl) h a)

theorem WellFormed.separate_not_mem (hw : WellFormed h) (a p : ℕ) :
 a ∉ ((h.separate a).get p).children := by
 rw [separate_children]
 split
 · exact (hw.nodup p).not_mem_erase
 · next hp => exact fun hc => hp (hw.parent hc)

theorem WellFormed.remove_not_mem (hw : WellFormed h) (a p : ℕ) :
 a ∉ ((h.remove a).get p).children := by
 rw [remove_children]
 split
 · exact List.not_mem_nil
 · exact hw.separate_not_mem a p

theorem WellFormed.modify (hw : WellFormed h) (a : ℕ) {f : AstObject → AstObject}
 (hc : ∀ o, (f o).children = o.children) (hp : ∀ o, (f o).parent = o.parent)
 (ht : ∀ o, (f o).type = o.type) : WellFormed (h.modify a f) :=
 hw.of_keep (Nat.le_of_eq (size_modify h a f).symm)
  (fun p => (modify_keep AstObject.children hc h a p).symm ▸ List.Sublist.refl _)
  (modify_keep AstObject.parent hp h a) (modify_keep AstObject.type ht h a)

theorem alloc_children {o : AstObject} (ho : o.children = []) (p : ℕ) :
 ((h.alloc o).get p).children = (h.get p).children := by
 rcases Nat.lt_trichotomy p h.size with hp | hp | hp
 · rw [get_alloc_of_lt hp]
 · subst hp
   rw [get_alloc_new, ho, get_of_size_le le_rfl]
   rfl
 · rw [get_of_size_le (by rw [size_alloc]; exact hp), get_of_size_le (Nat.le_of_lt hp)]

theorem WellFormed.alloc (hw : WellFormed h) {o : AstObject} (ho : o.children = []) :
 WellFormed (h.alloc o) where
 lt_size hc := by
  rw [alloc_children ho] at hc
  rw [size_alloc]
  exact Nat.lt_succ_of_lt (hw.lt_size hc)
 older hc := hw.older (by rwa [alloc_children ho] at hc)
 parent hc := by
  rw [alloc_children ho] at hc
  rw [get_alloc_of_lt (hw.lt_size hc)]
  exact hw.parent hc
 nodup p := by
  rw [alloc_children ho]
  exact hw.nodup p
 holds {p c} hc := by
  rw [alloc_children ho] at hc
  have hlt := hw.lt_size hc
  rw [get_alloc_of_lt hlt, get_alloc_of_lt (Nat.lt_trans (hw.older hc) hlt)]
  exact hw.holds hc

theorem WellFormed.addChild (hw : WellFormed h) {a c : ℕ} (hac : a < c) (hc : c < h.size)
 (hfree : (h.get c).parent = none) (hholds : (h.get a).type.Holds (h.get c).type) :
 WellFormed (h.addChild a c) := by
 have ha : a < h.size := Nat.lt_trans hac hc
 have hnot : ∀ p, c ∉ (h.get p).children := fun p hmem => by
  rw [hw.parent hmem] at hfree
  exact Option.some_ne_none p hfree
 have htype : ∀ o, ((h.addChild a c).get o).type = (h.get o).type :=
  addChild_keep AstObject.type (fun _ _ => rfl) (fun _ _ => rfl) h a c
 have hmem : ∀ {p o : ℕ}, o ∈ ((h.addChild a c).get p).children →
  o ∈ (h.get p).children ∨ p = a ∧ o = c := by
  intro p o ho
  rw [addChild_children ha] at ho
  split at ho
  · next hp =>
    rw [hp]
    rcases List.mem_append.mp ho with ho | ho
    · exact .inl ho
    · exact .inr ⟨rfl, List.mem_singleton.mp ho⟩
  · exact .inl ho
 refine ⟨fun {p o} ho => ?_, fun {p o} ho => ?_, fun {p o} ho => ?_, fun p => ?_,
  fun {p o} ho => ?_⟩
 · rw [size_addChild]
   rcases hmem ho with ho | ⟨_, rfl⟩
   · exact hw.lt_size ho
   · exact hc
 · rcases hmem ho with ho | ⟨rfl, rfl⟩
   · exact hw.older ho
   · exact hac
 · rw [addChild_parent hc]
   rcases hmem ho with old | ⟨rfl, rfl⟩
   · rw [if_neg (by rintro rfl; exact hnot p old)]
     exact hw.parent old
   · rw [if_pos rfl]
 · rw [addChild_children ha]
   split
   · exact List.nodup_append.mpr ⟨hw.nodup a, List.nodup_singleton c, fun x hx y hy => by
      rintro rfl
      exact hnot a (List.mem_singleton.mp hy ▸ hx)⟩
   · exact hw.nodup p
 · rw [htype, htype]
   rcases hmem ho with ho | ⟨rfl, rfl⟩
   · exact hw.holds ho
   · exact hholds

end WellFormedUpdates

end DriversFramework.HcAst
