import DriversFramework.HcAstTree

namespace DriversFramework.HcAst

open AstHeap

def AstObject.Plain (o : AstObject) : Prop :=
 (o.type = .confNode → o.nodeType ≠ .copy ∧ o.nodeType ≠ .ref ∧ o.nodeType ≠ .delete) ∧
  o.type ≠ .nodeRef ∧ o.type ≠ .delete

instance (o : AstObject) : Decidable o.Plain := inferInstanceAs (Decidable (_ ∧ _))

theorem AstObject.copied_type (o : AstObject) : o.copied.type = o.type := by
 unfold copied
 split <;> simp_all

theorem AstObject.copied_children (o : AstObject) : o.copied.children = [] := by
 unfold copied
 split <;> rfl

theorem AstObject.copied_parent (o : AstObject) : o.copied.parent = none := by
 unfold copied
 split <;> rfl

theorem AstObject.copied_plain {o : AstObject} (ho : o.Plain) : o.copied.Plain := by
 refine ⟨fun ht => ?_, by rw [copied_type]; exact ho.2⟩
 rw [copied_type] at ht
 have hnode : o.copied.nodeType = o.nodeType := by
  unfold copied
  rw [ht]
 rw [hnode]
 exact ho.1 ht

theorem AstObject.plain_congr {o o' : AstObject} (ht : o'.type = o.type)
 (hn : o'.nodeType = o.nodeType) : o'.Plain ↔ o.Plain := by
 unfold Plain
 rw [ht, hn]

theorem Below.of_old {h h' : AstHeap} (hw' : WellFormed h')
 (hold : ∀ {p c : ℕ}, c < h.size → c ∈ (h'.get p).children → c ∈ (h.get p).children)
 {a o : ℕ} (ho : o < h.size) (hb : Below h' a o) : Below h a o := by
 induction hb with
 | refl => exact .refl h a
 | @tail p c _ hc ih => exact (ih ((hw'.older hc).trans ho)).step (hold ho hc)

theorem Below.of_subset {h h' : AstHeap}
 (hsub : ∀ p, (h.get p).children ⊆ (h'.get p).children) {a o : ℕ} (hb : Below h a o) :
 Below h' a o :=
 Relation.ReflTransGen.mono (fun p _ hc => hsub p hc) _ _ hb

structure Built (h h' : AstHeap) (dst : ℕ) : Prop where
 wellFormed : WellFormed h'
 size_le : h.size ≤ h'.size
 frame : ∀ {o : ℕ}, o < h.size → o ≠ dst → h'.get o = h.get o
 grown : ∃ news, h'.get dst = (h.get dst).setChildren ((h.get dst).children ++ news) ∧
  ∀ n ∈ news, h.size ≤ n
 below : ∀ {o : ℕ}, h.size ≤ o → o < h'.size → Below h' dst o

namespace Built

variable {h h₁ h' : AstHeap} {dst : ℕ}

theorem refl (hw : WellFormed h) (dst : ℕ) : Built h h dst :=
 ⟨hw, le_rfl, fun _ _ => rfl, ⟨[], by rw [List.append_nil]; exact ⟨rfl, fun _ hn => by cases hn⟩⟩,
  fun hle hlt => absurd hle (by omega)⟩

theorem keep {β : Type} (g : AstObject → β) (hg : ∀ o cs, g (AstObject.setChildren o cs) = g o)
 (hb : Built h h' dst) {o : ℕ} (ho : o < h.size) : g (h'.get o) = g (h.get o) := by
 by_cases hd : o = dst
 · obtain ⟨news, hnews, -⟩ := hb.grown
   rw [hd, hnews, hg]
 · rw [hb.frame ho hd]

theorem subset (hb : Built h h' dst) (p : ℕ) : (h.get p).children ⊆ (h'.get p).children := by
 by_cases hp : p < h.size
 · by_cases hd : p = dst
   · obtain ⟨news, hnews, -⟩ := hb.grown
     rw [hd, hnews]
     exact List.subset_append_left _ _
   · rw [hb.frame hp hd]
     exact List.Subset.refl _
 · rw [get_of_size_le (by omega)]
   exact List.nil_subset _

theorem old (hb : Built h h' dst) {p c : ℕ} (hc : c < h.size) (hmem : c ∈ (h'.get p).children) :
 c ∈ (h.get p).children := by
 by_cases hd : p = dst
 · obtain ⟨news, hnews, hnew⟩ := hb.grown
   rw [hd, hnews] at hmem
   rw [hd]
   rcases List.mem_append.mp hmem with hmem | hmem
   · exact hmem
   · exact absurd (hnew c hmem) (by omega)
 · rwa [hb.frame ((hb.wellFormed.older hmem).trans hc) hd] at hmem

theorem trans (hb : Built h h₁ dst) (hb' : Built h₁ h' dst) : Built h h' dst := by
 refine ⟨hb'.wellFormed, hb.size_le.trans hb'.size_le, fun {o} ho hne => ?_, ?_,
  fun {o} hle hlt => ?_⟩
 · rw [hb'.frame (ho.trans_le hb.size_le) hne, hb.frame ho hne]
 · obtain ⟨news, hnews, hnew⟩ := hb.grown
   obtain ⟨news', hnews', hnew'⟩ := hb'.grown
   refine ⟨news ++ news', ?_, fun n hn => ?_⟩
   · rw [hnews', hnews]
     simp [AstObject.setChildren]
   · rcases List.mem_append.mp hn with hn | hn
     · exact hnew n hn
     · exact hb.size_le.trans (hnew' n hn)
 · by_cases ho : o < h₁.size
   · exact (hb.below hle ho).of_subset hb'.subset
   · exact hb'.below (by omega) hlt

end Built

theorem built_addChild {h h₁ : AstHeap} {dst : ℕ} {o : AstObject} (hd : dst < h.size)
 (hp : o.parent = none) (hb : Built (h.alloc o) h₁ h.size)
 (hholds : (h.get dst).type.Holds o.type) : Built h (h₁.addChild dst h.size) dst := by
 have hsize : (h.alloc o).size = h.size + 1 := size_alloc h o
 have hnewlt : h.size < h₁.size := by
  have := hb.size_le
  omega
 have hne : dst ≠ h.size := by omega
 have hdst : h₁.get dst = h.get dst := by
  rw [hb.frame (by omega) hne, get_alloc_of_lt hd]
 have hnew : ∀ {β : Type} (g : AstObject → β),
  (∀ x cs, g (AstObject.setChildren x cs) = g x) → g (h₁.get h.size) = g o := by
  intro β g hg
  rw [hb.keep g hg (by omega), get_alloc_new]
 have hw := hb.wellFormed.addChild (by omega : dst < h.size) hnewlt
  (by rw [hnew AstObject.parent (fun _ _ => rfl), hp])
  (by rw [hdst, hnew AstObject.type (fun _ _ => rfl)]; exact hholds)
 have hchildren := addChild_children (hd.trans hnewlt) h.size (h := h₁) (a := dst)
 have hsub : ∀ p, (h₁.get p).children ⊆ ((h₁.addChild dst h.size).get p).children := by
  intro p
  rw [hchildren]
  split
  · next hpd => rw [hpd]; exact List.subset_append_left _ _
  · exact List.Subset.refl _
 have hmem : h.size ∈ ((h₁.addChild dst h.size).get dst).children := by
  rw [hchildren, if_pos rfl]
  exact List.mem_append_right _ (List.mem_singleton.mpr rfl)
 refine ⟨hw, by rw [size_addChild]; omega, fun {p} hlt hpd => ?_, ⟨[h.size], ?_, ?_⟩,
  fun {p} hle hlt => ?_⟩
 · rw [addChild_ne h₁ hpd (by omega), hb.frame (by omega) (by omega), get_alloc_of_lt hlt]
 · rw [addChild, get_modify_ne _ hne.symm, get_modify_self (hd.trans hnewlt), hdst]
 · intro n hn
   rw [List.mem_singleton.mp hn]
 · rw [size_addChild] at hlt
   have hroot := Below.of_child hmem
   by_cases hp' : p = h.size
   · rw [hp']
     exact hroot
   · exact hroot.trans ((hb.below (by omega) hlt).of_subset hsub)

inductive Builds : AstHeap → ℕ → List ℕ → AstHeap → Prop where
 | nil {h : AstHeap} {dst : ℕ} : Builds h dst [] h
 | cons {h h₁ h' : AstHeap} {dst c : ℕ} {cs : List ℕ}
   (inner : Builds (h.alloc (h.get c).copied) h.size (h.get c).children h₁)
   (rest : Builds (h₁.addChild dst h.size) dst cs h') : Builds h dst (c :: cs) h'

theorem builds_of_run (fuel : ℕ) : ∀ {h h' : AstHeap} {dst : ℕ} {children : List ℕ},
 buildChildren fuel h dst children = .ok h' → Builds h dst children h' := by
 induction fuel with
 | zero =>
  intro h h' dst children hrun
  cases children with
  | nil => cases hrun; exact .nil
  | cons c cs => cases hrun
 | succ fuel ih =>
  intro h h' dst children hrun
  cases children with
  | nil => cases hrun; exact .nil
  | cons c cs =>
   rw [buildChildren] at hrun
   cases hin : buildChildren fuel (h.alloc (h.get c).copied) h.size (h.get c).children with
   | error e => rw [hin] at hrun; cases hrun
   | ok h₁ =>
    rw [hin] at hrun
    exact .cons (ih hin) (ih hrun)

def Suits (h : AstHeap) (dst : ℕ) (children : List ℕ) : Prop :=
 ∀ c ∈ children, c < h.size ∧ (h.get dst).type.Holds (h.get c).type

theorem Suits.inner {h : AstHeap} (hw : WellFormed h) (c : ℕ) :
 Suits (h.alloc (h.get c).copied) h.size (h.get c).children := by
 intro x hx
 have hlt := hw.lt_size hx
 rw [size_alloc, get_alloc_new, AstObject.copied_type, get_alloc_of_lt hlt]
 exact ⟨by omega, hw.holds hx⟩

theorem Suits.grown {h h₁ : AstHeap} {dst c : ℕ} {cs : List ℕ} (hs : Suits h dst (c :: cs))
 (hd : dst < h.size) (hb : Built h h₁ dst) : Suits h₁ dst cs := by
 intro x hx
 obtain ⟨hlt, hholds⟩ := hs x (List.mem_cons_of_mem c hx)
 rw [hb.keep AstObject.type (fun _ _ => rfl) hd, hb.keep AstObject.type (fun _ _ => rfl) hlt]
 exact ⟨hlt.trans_le hb.size_le, hholds⟩

theorem Builds.built {h h' : AstHeap} {dst : ℕ} {children : List ℕ}
 (hrun : Builds h dst children h') (hw : WellFormed h) (hd : dst < h.size)
 (hs : Suits h dst children) : Built h h' dst := by
 induction hrun with
 | nil => exact .refl hw _
 | @cons h h₁ h' dst c cs _ _ ihInner ihRest =>
  have inner := ihInner (hw.alloc (AstObject.copied_children _))
   (by rw [size_alloc]; exact Nat.lt_succ_self _) (.inner hw c)
  have first := built_addChild hd (AstObject.copied_parent _) inner
   (by rw [AstObject.copied_type]; exact (hs c List.mem_cons_self).2)
  exact first.trans (ihRest first.wellFormed (hd.trans_le first.size_le) (hs.grown hd first))

theorem Builds.plain {h h' : AstHeap} {dst : ℕ} {children : List ℕ}
 (hrun : Builds h dst children h') (hw : WellFormed h) (hd : dst < h.size)
 (hs : Suits h dst children)
 (hplain : ∀ c ∈ children, ∀ o, Below h c o → (h.get o).Plain) :
 ∀ {o : ℕ}, h.size ≤ o → o < h'.size → (h'.get o).Plain := by
 induction hrun with
 | nil => exact fun hle hlt => absurd hle (by omega)
 | @cons h h₁ h' dst c cs innerRun restRun ihInner ihRest =>
  intro o hle hlt
  have hwAlloc := hw.alloc (AstObject.copied_children (h.get c))
  have hnew : h.size < (h.alloc (h.get c).copied).size := by
   rw [size_alloc]
   exact Nat.lt_succ_self _
  have inner := innerRun.built hwAlloc hnew (.inner hw c)
  have first := built_addChild hd (AstObject.copied_parent _) inner
   (by rw [AstObject.copied_type]; exact (hs c List.mem_cons_self).2)
  have rest := restRun.built first.wellFormed (hd.trans_le first.size_le) (hs.grown hd first)
  have keepPlain : ∀ {h h' : AstHeap} {d x : ℕ}, Built h h' d → x < h.size →
   (h.get x).Plain → (h'.get x).Plain := fun hb hx =>
   (AstObject.plain_congr (hb.keep AstObject.type (fun _ _ => rfl) hx)
    (hb.keep AstObject.nodeType (fun _ _ => rfl) hx)).mpr
  -- what the first child adds is plain
  have firstPlain : ∀ {x : ℕ}, h.size ≤ x → x < h₁.size →
   ((h₁.addChild dst h.size).get x).Plain := by
   intro x hx hxlt
   refine (AstObject.plain_congr (addChild_keep AstObject.type (fun _ _ => rfl) (fun _ _ => rfl)
    _ _ _ _) (addChild_keep AstObject.nodeType (fun _ _ => rfl) (fun _ _ => rfl) _ _ _ _)).mpr ?_
   by_cases hxnew : x = h.size
   · subst hxnew
     refine keepPlain inner hnew ?_
     rw [get_alloc_new]
     exact AstObject.copied_plain (hplain c List.mem_cons_self c (.refl h c))
   refine ihInner hwAlloc hnew (.inner hw c) (fun y hy z hyz => ?_) (by rw [size_alloc]; omega)
    hxlt
   have below : Below h y z :=
    hyz.of_subset fun p => by
     rw [alloc_children (AstObject.copied_children _)]
     exact List.Subset.refl _
   rw [get_alloc_of_lt (below.lt_size hw (hw.lt_size hy))]
   exact hplain c List.mem_cons_self z ((Below.of_child hy).trans below)
  by_cases ho : o < h₁.size
  · exact keepPlain rest (by rw [size_addChild]; exact ho) (firstPlain hle ho)
  refine ihRest first.wellFormed (hd.trans_le first.size_le) (hs.grown hd first)
   (fun y hy z hyz => ?_) (by rw [size_addChild]; omega) hlt
  by_cases hz : z < h.size
  · exact keepPlain first hz (hplain y (List.mem_cons_of_mem c hy) z
     (hyz.of_old first.wellFormed first.old hz))
  · have hzlt := hyz.lt_size first.wellFormed
     ((hs y (List.mem_cons_of_mem c hy)).1.trans_le first.size_le)
    rw [size_addChild] at hzlt
    exact firstPlain (by omega) hzlt

theorem addElements_built {a : ℕ} (elements : List AstObject) : ∀ {h : AstHeap}, WellFormed h →
 a < h.size → (h.get a).type = .array →
 (∀ o ∈ elements, o.type.Scalar ∧ o.children = [] ∧ o.parent = none) →
 Built h (addElements a elements h) a := by
 induction elements with
 | nil => exact fun hw _ _ _ => .refl hw a
 | cons o elements ih =>
  intro h hw ha ht helements
  obtain ⟨hscalar, hchildren, hparent⟩ := helements o List.mem_cons_self
  have first := built_addChild ha hparent (.refl (hw.alloc hchildren) h.size)
   (by rw [ht]; exact hscalar)
  exact first.trans (ih first.wellFormed (ha.trans_le first.size_le)
   ((first.keep AstObject.type (fun _ _ => rfl) ha).trans ht)
   fun x hx => helements x (List.mem_cons_of_mem o hx))

theorem fitIntegerValueType_scalar (value : UInt64) : (fitIntegerValueType value).Scalar := by
 unfold fitIntegerValueType
 split
 · decide
 · split
   · decide
   · split <;> decide

theorem SourceValue.elements_scalar {value : SourceValue} :
 ∀ o ∈ value.elements, o.type.Scalar ∧ o.children = [] ∧ o.parent = none := by
 intro o ho
 cases value with
 | numberArray numvals =>
  obtain ⟨numval, -, rfl⟩ := List.mem_map.mp ho
  exact ⟨fitIntegerValueType_scalar numval, rfl, rfl⟩
 | stringArray strvals =>
  obtain ⟨strval, -, rfl⟩ := List.mem_map.mp ho
  exact ⟨Nat.le_refl _, rfl, rfl⟩
 | _ => cases ho

theorem SourceValue.object_children (value : SourceValue) : value.object.children = [] := by
 cases value <;> rfl

theorem SourceValue.object_parent (value : SourceValue) : value.object.parent = none := by
 cases value <;> rfl

theorem SourceValue.object_holds (value : SourceValue) :
 ObjectType.confTerm.Holds value.object.type := by
 cases value with
 | number numval =>
  change ObjectType.confTerm.Holds (fitIntegerValueType numval)
  have hscalar := fitIntegerValueType_scalar numval
  constructor <;> intro heq <;> rw [heq] at hscalar <;> exact absurd hscalar (by decide)
 | _ => exact ⟨ObjectType.noConfusion, ObjectType.noConfusion⟩

theorem addValue_built {h : AstHeap} (hw : WellFormed h) (value : SourceValue) :
 Built (h.alloc value.object) (addValue h value) h.size := by
 have hwAlloc := hw.alloc value.object_children
 have hlt : h.size < (h.alloc value.object).size := by
  rw [size_alloc]
  exact Nat.lt_succ_self _
 by_cases harray : value.object.type = .array
 · exact addElements_built _ hwAlloc hlt (by rw [get_alloc_new]; exact harray)
    SourceValue.elements_scalar
 · have hnone : value.elements = [] := by
    cases value <;> first | rfl | exact absurd rfl harray
   rw [addValue, hnone]
   exact .refl hwAlloc h.size

theorem addSource_built (source : SourceObjects) : ∀ {a : ℕ} {h : AstHeap}, WellFormed h →
 a < h.size → (h.get a).type = .confNode → Built h (addSource a source h) a := by
 induction source with
 | nil => exact fun hw _ _ => .refl hw _
 | term name value next ih =>
  intro a h hw ha ht
  have hwTerm : WellFormed (h.alloc { type := .confTerm, name := name }) := hw.alloc rfl
  have hlt : h.size < (h.alloc { type := .confTerm, name := name }).size := by
   rw [size_alloc]
   exact Nat.lt_succ_self _
  have valueBuilt := built_addChild hlt value.object_parent (addValue_built hwTerm value)
   (by rw [get_alloc_new]; exact value.object_holds)
  have first := built_addChild ha rfl valueBuilt (by rw [ht]; exact .inr rfl)
  exact first.trans (ih first.wellFormed (ha.trans_le first.size_le)
   ((first.keep AstObject.type (fun _ _ => rfl) ha).trans ht))
 | node name nodeType refPath child next ihChild ihNext =>
  intro a h hw ha ht
  have hwNode : WellFormed (h.alloc
   { type := .confNode, name := name, nodeType := nodeType, refNodePath := refPath }) :=
   hw.alloc rfl
  have childBuilt := ihChild (a := h.size) hwNode
   (by rw [size_alloc]; exact Nat.lt_succ_self _) (by rw [get_alloc_new])
  have first := built_addChild ha rfl childBuilt (by rw [ht]; exact .inl rfl)
  exact first.trans (ihNext first.wellFormed (ha.trans_le first.size_le)
   ((first.keep AstObject.type (fun _ _ => rfl) ha).trans ht))

theorem rootHeap_wellFormed {o : AstObject} (ho : o.children = []) : WellFormed ⟨[o]⟩ := by
 have hempty : WellFormed ⟨[]⟩ := by
  refine ⟨fun {p c} hc => ?_, fun {p c} hc => ?_, fun {p c} hc => ?_, fun p => ?_,
   fun {p c} hc => ?_⟩
  all_goals first | cases hc | exact List.nodup_nil
 exact hempty.alloc ho

theorem ofSource_built (redefineChecked : Bool) (source : SourceObjects) :
 Built ⟨[{ type := .confNode, name := rootName }]⟩ (Ast.ofSource redefineChecked source).heap 0 :=
 addSource_built source (rootHeap_wellFormed rfl) Nat.zero_lt_one rfl

end DriversFramework.HcAst
