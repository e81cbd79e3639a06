import DriversFramework.HcAstArrays

namespace DriversFramework.HcAst

open AstHeap

def AstObject.instances (o : AstObject) : UInt32 × UInt32 × List ℕ :=
 (o.inheritIndex, o.inheritCount, o.subClasses)

structure Instanced (h : AstHeap) : Prop where
 count : ∀ t, (h.get t).inheritCount = UInt32.ofNat (h.get t).subClasses.length
 index : ∀ t place c, (h.get t).subClasses[place]? = some c →
  (h.get c).inheritIndex = UInt32.ofNat place

structure SameInstances (h h' : AstHeap) : Prop where
 instances : ∀ o, (h'.get o).instances = (h.get o).instances

namespace SameInstances

variable {h h₁ h' : AstHeap}

theorem refl (h : AstHeap) : SameInstances h h := ⟨fun _ => rfl⟩

theorem trans (first : SameInstances h h₁) (second : SameInstances h₁ h') : SameInstances h h' :=
 ⟨fun o => (second.instances o).trans (first.instances o)⟩

theorem inheritIndex (same : SameInstances h h') (o : ℕ) :
 (h'.get o).inheritIndex = (h.get o).inheritIndex := congrArg (·.1) (same.instances o)

theorem inheritCount (same : SameInstances h h') (o : ℕ) :
 (h'.get o).inheritCount = (h.get o).inheritCount := congrArg (·.2.1) (same.instances o)

theorem subClasses (same : SameInstances h h') (o : ℕ) :
 (h'.get o).subClasses = (h.get o).subClasses := congrArg (·.2.2) (same.instances o)

theorem modify {f : AstObject → AstObject} (same : ∀ o, (f o).instances = o.instances)
 (h : AstHeap) (a : ℕ) : SameInstances h (h.modify a f) :=
 ⟨modify_keep AstObject.instances same h a⟩

theorem addChild (h : AstHeap) (a c : ℕ) : SameInstances h (h.addChild a c) :=
 ⟨addChild_keep AstObject.instances (fun _ _ => rfl) (fun _ _ => rfl) h a c⟩

theorem separate (h : AstHeap) (a : ℕ) : SameInstances h (h.separate a) :=
 ⟨separate_keep AstObject.instances (fun _ _ => rfl) h a⟩

theorem remove (h : AstHeap) (a : ℕ) : SameInstances h (h.remove a) :=
 ⟨remove_keep AstObject.instances (fun _ _ => rfl) h a⟩

theorem alloc {o : AstObject} (new : o.instances = (0, 0, [])) (h : AstHeap) :
 SameInstances h (h.alloc o) := by
 refine ⟨fun a => ?_⟩
 rw [get_alloc]
 split
 · next same =>
   rw [same, get_of_size_le le_rfl]
   exact new
 · rfl

end SameInstances

theorem AstObject.copied_instances (o : AstObject) : o.copied.instances = (0, 0, []) := by
 unfold AstObject.copied
 split <;> rfl

variable {h h' : AstHeap}

theorem Builds.sameInstances {dst : ℕ} {cs : List ℕ} (run : Builds h dst cs h') :
 SameInstances h h' := by
 induction run with
 | nil => exact .refl _
 | @cons h h₁ h' dst c cs _ _ ihInner ihRest =>
  exact (((SameInstances.alloc (AstObject.copied_instances _) h).trans ihInner).trans
   (.addChild h₁ dst h.size)).trans ihRest

theorem overwriteValue_sameInstances {dst src : ℕ}
 (run : overwriteValue h dst src = .ok h') : SameInstances h h' := by
 unfold overwriteValue at run
 split at run
 · split at run
   · cases run
     exact .modify (fun _ => by rfl) h dst
   · cases run
 · cases run
   exact .modify (fun _ => by rfl) h dst

theorem copyTerm_sameInstances {dst src : ℕ} {overwrite : Bool}
 (run : copyTerm h dst src overwrite = .ok h') : SameInstances h h' := by
 unfold copyTerm at run
 split at run
 · split at run
   · split at run
     · cases run
     · exact overwriteValue_sameInstances run
   · cases run
 · cases run
   exact .refl h

structure Lengthens (h h' : AstHeap) : Prop where
 size_le : h.size ≤ h'.size
 children : ∀ p, (h.get p).children <+: (h'.get p).children

namespace Lengthens

variable {h h₁ h' : AstHeap}

theorem refl (h : AstHeap) : Lengthens h h := ⟨le_rfl, fun _ => List.prefix_refl _⟩

theorem trans (first : Lengthens h h₁) (second : Lengthens h₁ h') : Lengthens h h' :=
 ⟨first.size_le.trans second.size_le, fun p => (first.children p).trans (second.children p)⟩

theorem of_same (size : h'.size = h.size)
 (children : ∀ p, (h'.get p).children = (h.get p).children) : Lengthens h h' :=
 ⟨size.ge, fun p => ⟨[], by rw [List.append_nil, children]⟩⟩

theorem below {a o : ℕ} (longer : Lengthens h h') (path : Below h a o) : Below h' a o := by
 induction path with
 | refl => exact .refl h' a
 | tail _ child ih => exact ih.step ((longer.children _).subset child)

end Lengthens

theorem Builds.lengthens {dst : ℕ} {cs : List ℕ} (run : Builds h dst cs h')
 (place : dst < h.size) : Lengthens h h' := by
 induction run with
 | nil => exact .refl _
 | @cons h h₁ h' dst c cs inner _ ihInner ihRest =>
  have size : (h.alloc (h.get c).copied).size = h.size + 1 := size_alloc h _
  have first : Lengthens h (h.alloc (h.get c).copied) :=
   ⟨by omega, fun p =>
    ⟨[], by rw [List.append_nil, alloc_children (AstObject.copied_children _)]⟩⟩
  have second := ihInner (by omega)
  have place₁ : dst < h₁.size := place.trans_le (first.trans second).size_le
  have third : Lengthens h₁ (h₁.addChild dst h.size) := by
   refine ⟨(size_addChild ..).ge, fun p => ?_⟩
   rw [addChild_children place₁]
   split
   · next same =>
     rw [same]
     exact List.prefix_append _ _
   · exact List.prefix_refl _
  refine ((first.trans second).trans third).trans (ihRest ?_)
  rw [size_addChild]
  exact place₁

theorem copyNode_sameInstances (fuel : ℕ) : ∀ {h h' : AstHeap} {dst : ℕ} {child : Option ℕ}
 {overwrite : Bool}, copyNode fuel h dst child overwrite = .ok h' → dst < h.size →
 SameInstances h h' ∧ h.size ≤ h'.size ∧ (overwrite = false → Lengthens h h') := by
 induction fuel with
 | zero =>
  intro h h' dst child overwrite run _
  cases child with
  | none =>
   cases run
   exact ⟨.refl h, le_rfl, fun _ => .refl h⟩
  | some c => cases run
 | succ fuel ih =>
  intro h h' dst child overwrite run place
  cases child with
  | none =>
   cases run
   exact ⟨.refl h, le_rfl, fun _ => .refl h⟩
  | some c =>
   rw [copyNode_succ] at run
   cases round : copyChild fuel h dst c overwrite with
   | error e => rw [round] at run; cases run
   | ok h₁ =>
    rw [round] at run
    have first : SameInstances h h₁ ∧ h.size ≤ h₁.size ∧
     (overwrite = false → Lengthens h h₁) := by
     rw [copyChild] at round
     cases found : h.lookupChild dst (h.get c).name (some (h.get c).type) with
     | none =>
      rw [found] at round
      have builds := builds_of_run fuel round
      exact ⟨builds.sameInstances, (builds.lengthens place).size_le, fun _ =>
       builds.lengthens place⟩
     | some peer =>
      rw [found] at round
      dsimp only at round
      split at round
      · next isNode => exact ih round (lt_size_of_node (isNode_iff.mp isNode))
      · split at round
        · refine ⟨copyTerm_sameInstances round, ?_, fun keeps => ?_⟩
          · exact (copyTerm_edits round).keeps.size_le
          · rw [keeps, copyTerm, if_neg Bool.false_ne_true] at round
            cases round
            exact .refl h
        · split at round
          · next replacing =>
            refine ⟨overwriteValue_sameInstances round,
             (Trims.of_overwriteValue round).size.ge, fun keeps => ?_⟩
            rw [keeps] at replacing
            cases replacing
          · cases round
            exact ⟨.refl h, le_rfl, fun _ => .refl h⟩
    obtain ⟨same, larger, grows⟩ := first
    obtain ⟨same', larger', grows'⟩ := ih run (place.trans_le larger)
    exact ⟨same.trans same', larger.trans larger', fun keeps =>
     (grows keeps).trans (grows' keeps)⟩

theorem moveValue_sameInstances {dst : ℕ} {src : Option ℕ}
 (run : moveValue h dst src = .ok h') : SameInstances h h' := by
 cases src with
 | none => cases run
 | some src =>
  rw [moveValue] at run
  cases write : overwriteValue h dst src with
  | error e => rw [write] at run; cases run
  | ok h₁ =>
   rw [write] at run
   cases run
   exact (overwriteValue_sameInstances write).trans (.separate h₁ src)

variable {fuel : ℕ}

theorem move_sameInstances {dst src : ℕ}
 (run : move fuel h dst src = .ok h') : SameInstances h h' := by
 unfold move at run
 split at run
 · next isNode =>
   cases copy : copyNode fuel h dst (h.child src) true with
   | error e => rw [copy] at run; cases run
   | ok h₁ =>
    rw [copy] at run
    cases run
    have place := lt_size_of_node (isNode_iff.mp isNode)
    exact (copyNode_sameInstances fuel copy place).1.trans (.separate h₁ src)
 · split at run
   · split at run
     · cases run
     · exact moveValue_sameInstances run
   · exact moveValue_sameInstances run

theorem nodeExpandAt_sameInstances {root c : ℕ}
 (run : nodeExpandAt fuel root h c = .ok h') : SameInstances h h' := by
 cases nodeCall_of_run run with
 | other | node | term => exact .refl h
 | removeNode | removeTerm => exact .remove h c
 | bind => exact .modify (fun _ => by rfl) h c
 | move _ _ _ _ run => exact move_sameInstances run
 | copy isNode _ _ _ run =>
  have mark : SameInstances h (h.modify c fun o => { o with nodeType := .noRef }) :=
   .modify (fun _ => by rfl) h c
  refine mark.trans (copyNode_sameInstances fuel run ?_).1
  rw [size_modify]
  exact lt_size_of_node isNode

theorem addElements_sameInstances {a : ℕ} (elements : List AstObject) : ∀ {h : AstHeap},
 (∀ o ∈ elements, o.instances = (0, 0, [])) → SameInstances h (addElements a elements h) := by
 induction elements with
 | nil => exact fun _ => .refl _
 | cons o elements ih =>
  intro h new
  obtain ⟨first, rest⟩ := List.forall_mem_cons.mp new
  exact ((SameInstances.alloc first h).trans (.addChild _ a h.size)).trans (ih rest)

theorem SourceValue.instances (value : SourceValue) : value.object.instances = (0, 0, []) ∧
 ∀ o ∈ value.elements, o.instances = (0, 0, []) := by
 cases value with
 | numberArray numvals =>
  refine ⟨rfl, fun o mem => ?_⟩
  obtain ⟨numval, -, rfl⟩ := List.mem_map.mp mem
  rfl
 | stringArray strvals =>
  refine ⟨rfl, fun o mem => ?_⟩
  obtain ⟨strval, -, rfl⟩ := List.mem_map.mp mem
  rfl
 | number | string | nodeRef | delete => exact ⟨rfl, fun o mem => by cases mem⟩

theorem addSource_sameInstances (source : SourceObjects) : ∀ {a : ℕ} {h : AstHeap},
 SameInstances h (addSource a source h) := by
 induction source with
 | nil => exact .refl _
 | term name value next ih =>
  intro a h
  obtain ⟨object, elements⟩ := value.instances
  have term := SameInstances.alloc (o := { type := .confTerm, name := name }) rfl h
  have placed := term.trans (SameInstances.alloc object _)
  have filled := placed.trans (addElements_sameInstances (a := h.size + 1) _ elements)
  rw [addSource, addValue, size_alloc]
  exact ((filled.trans (.addChild _ _ _)).trans (.addChild _ _ _)).trans ih
 | node name nodeType refPath child next ihChild ihNext =>
  intro a h
  have node := SameInstances.alloc
   (o := { type := .confNode, name := name, nodeType := nodeType, refNodePath := refPath }) rfl h
  exact ((node.trans ihChild).trans (.addChild _ _ _)).trans ihNext

theorem inheritExpandAt_lengthens {root c : ℕ}
 (run : inheritExpandAt fuel root h c = .ok h') : Lengthens h h' := by
 cases inheritCall_of_run run with
 | other => exact .refl h
 | @inherit ref h₁ isNode _ _ copy =>
  have grows := (copyNode_sameInstances fuel copy (lt_size_of_node isNode)).2.2 rfl
  exact grows.trans (.of_same (addSubClass_size h₁ c ref) (addSubClass_children h₁ c ref))

theorem inheritExpandAt_linked {root c : ℕ}
 (run : inheritExpandAt fuel root h c = .ok h') (linked : Linked h) : Linked h' :=
 (inheritExpandAt_edits run).invariant Linked.edit linked

theorem WalksForward.once {root : ℕ} {start : Option ℕ} {calls : List (AstHeap × ℕ)}
 (run : WalksForward (inheritExpandAt fuel root) h start calls h') :
 ∀ {p : ℕ} {done rest : List ℕ}, Linked h → (h.get p).children = done ++ rest →
  start = rest.head? →
  Linked h' ∧ Lengthens h h' ∧ (calls.map Prod.snd).Nodup ∧
   ∀ x ∈ calls.map Prod.snd, ∃ z ∈ (h'.get p).children, z ∉ done ∧ Below h' z x := by
 induction run with
 | done =>
  intro p done rest linked _ _
  exact ⟨linked, .refl _, List.nodup_nil, fun x mem => by cases mem⟩
 | @visit h h₁ h₂ h₃ c under behind call _ _ ihDescend ihProceed =>
  intro p done rest linked children head
  obtain ⟨rest, rfl⟩ := List.head?_eq_some_iff.mp head.symm
  have grows₁ := inheritExpandAt_lengthens call
  have linked₁ := inheritExpandAt_linked call linked
  obtain ⟨linked₂, grows₂, nodupUnder, belowUnder⟩ :=
   ihDescend linked₁ (List.nil_append _).symm rfl
  obtain ⟨more, grown⟩ := (grows₁.trans grows₂).children p
  have children₂ : (h₂.get p).children = done ++ c :: (rest ++ more) := by
   rw [← grown, children, List.append_assoc, List.cons_append]
  have next : (h₂.get p).children = (done ++ [c]) ++ (rest ++ more) := by
   rw [children₂, List.append_assoc]
   rfl
  obtain ⟨linked₃, grows₃, nodupBehind, belowBehind⟩ :=
   ihProceed linked₂ next (linked₂.next_of_children children₂)
  obtain ⟨later, grown₃⟩ := grows₃.children p
  have here : c ∈ (h₃.get p).children := by
   rw [← grown₃, children₂]
   simp
  have fresh : c ∉ done := by
   have nodup := linked₂.nodup p
   rw [children₂] at nodup
   exact fun mem => (List.nodup_append.mp nodup).2.2 c mem c List.mem_cons_self rfl
  -- what is called below `c`
  have down : ∀ x ∈ under.map Prod.snd, Below h₃ c x ∧ c < x := by
   intro x mem
   obtain ⟨z, child, -, path⟩ := belowUnder x mem
   have whole := (Below.of_child child).trans path
   exact ⟨grows₃.below whole,
    (linked₂.older child).trans_le (linked₂.le_of_below path)⟩
  have apart : ∀ x ∈ behind.map Prod.snd, ¬ Below h₃ c x := by
   intro x mem path
   obtain ⟨z, child, outside, path'⟩ := belowBehind x mem
   have same := linked₃.eq_of_siblings here child path path'
   exact outside (by rw [same]; simp)
  refine ⟨linked₃, (grows₁.trans grows₂).trans grows₃, ?_, ?_⟩
  · rw [List.map_cons, List.map_append, List.nodup_cons, List.mem_append, not_or]
    refine ⟨⟨fun mem => Nat.lt_irrefl c (down c mem).2, fun mem => apart c mem (.refl h₃ c)⟩, ?_⟩
    refine List.nodup_append.mpr ⟨nodupUnder, nodupBehind, fun x first y second same => ?_⟩
    rw [← same] at second
    exact apart x second (down x first).1
  · intro x mem
    rw [List.map_cons, List.map_append, List.mem_cons, List.mem_append] at mem
    rcases mem with rfl | mem | mem
    · exact ⟨x, here, fresh, .refl h₃ x⟩
    · exact ⟨c, here, fresh, (down x mem).1⟩
    · obtain ⟨z, child, outside, path⟩ := belowBehind x mem
      exact ⟨z, child, fun old => outside (List.mem_append_left _ old), path⟩

theorem inheritCalls_once {root : ℕ} {calls : List (AstHeap × ℕ)}
 (run : WalksForward (inheritExpandAt fuel root) h (some 0) calls h') (linked : Linked h) :
 (calls.map Prod.snd).Nodup := by
 cases run with
 | @visit _ h₁ h₂ _ _ under behind call descend proceed =>
  have linked₁ := inheritExpandAt_linked call linked
  obtain ⟨linked₂, -, nodup, below⟩ := descend.once linked₁ (List.nil_append _).symm rfl
  have last : h₂.next 0 = none := by
   rw [AstHeap.next, linked₂.root]
   rfl
  rw [last] at proceed
  cases proceed
  rw [List.append_nil, List.map_cons, List.nodup_cons]
  refine ⟨fun mem => ?_, nodup⟩
  obtain ⟨z, child, -, path⟩ := below 0 mem
  exact absurd ((linked₂.older child).trans_le (linked₂.le_of_below path)) (Nat.lt_irrefl 0)

theorem Instanced.same {h h' : AstHeap} (instanced : Instanced h) (same : SameInstances h h') :
 Instanced h' := by
 refine ⟨fun t => ?_, fun t place c found => ?_⟩
 · rw [same.inheritCount, same.subClasses]
   exact instanced.count t
 · rw [same.subClasses] at found
   rw [same.inheritIndex]
   exact instanced.index t place c found

theorem Instanced.addSubClass {h : AstHeap} (instanced : Instanced h) {node template : ℕ}
 (inside : node < h.size) (new : ∀ t, node ∉ (h.get t).subClasses) :
 Instanced (addSubClass h node template) := by
 let mark (o : AstObject) : AstObject := { o with inheritIndex := (h.get template).inheritCount }
 let marked := h.modify node mark
 have index : ∀ c, ((DriversFramework.HcAst.addSubClass h node template).get c).inheritIndex =
  if c = node then (h.get template).inheritCount else (h.get c).inheritIndex := by
  intro c
  refine (modify_keep AstObject.inheritIndex (f := fun o => { o with
   inheritCount := (h.get template).inheritCount + 1, subClasses := o.subClasses ++ [node] })
   (fun _ => rfl) marked template c).trans ?_
  split
  · next same =>
    rw [same]
    exact congrArg AstObject.inheritIndex (get_modify_self inside mark)
  · next other => exact congrArg AstObject.inheritIndex (get_modify_ne h (Ne.symm other) mark)
 have unmarked : ∀ t, (marked.get t).subClasses = (h.get t).subClasses :=
  modify_keep AstObject.subClasses (f := mark) (fun _ => rfl) h node
 have kept : ∀ t, (marked.get t).inheritCount = (h.get t).inheritCount :=
  modify_keep AstObject.inheritCount (f := mark) (fun _ => rfl) h node
 have after : ∀ t, (DriversFramework.HcAst.addSubClass h node template).get t =
  if template = t ∧ t < marked.size then
   { marked.get t with
    inheritCount := (h.get template).inheritCount + 1
    subClasses := (marked.get t).subClasses ++ [node] }
  else marked.get t := fun t => get_modify marked template t _
 refine ⟨fun t => ?_, fun t place c found => ?_⟩
 · rw [after]
   split
   · next here =>
     obtain ⟨rfl, -⟩ := here
     dsimp only
     rw [unmarked, List.length_append, instanced.count]
     simp
   · rw [kept, unmarked]
     exact instanced.count t
 · rw [index]
   rw [after] at found
   split at found
   · next here =>
     obtain ⟨rfl, -⟩ := here
     dsimp only at found
     rw [unmarked] at found
     by_cases early : place < (h.get template).subClasses.length
     · rw [List.getElem?_append_left early] at found
       have other : c ≠ node := by
        rintro rfl
        exact new template (List.mem_of_getElem? found)
       rw [if_neg other]
       exact instanced.index template place c found
     rw [List.getElem?_append_right (Nat.not_lt.mp early)] at found
     obtain ⟨at0, rfl⟩ := List.getElem?_eq_some_iff.mp found
     have last : place = (h.get template).subClasses.length := by
      have : place - (h.get template).subClasses.length < 1 := at0
      omega
     rw [List.getElem_singleton, if_pos rfl, instanced.count, last]
   · rw [unmarked] at found
     have other : c ≠ node := by
      rintro rfl
      exact new t (List.mem_of_getElem? found)
     rw [if_neg other]
     exact instanced.index t place c found

theorem addSubClass_subset {node template t c : ℕ}
 (mem : c ∈ ((addSubClass h node template).get t).subClasses) :
 c ∈ (h.get t).subClasses ∨ c = node := by
 have unmarked := modify_keep AstObject.subClasses
  (f := fun o => { o with inheritIndex := (h.get template).inheritCount }) (fun _ => rfl) h node t
 rw [addSubClass, get_modify] at mem
 split at mem
 · dsimp only at mem
   rw [unmarked] at mem
   exact (List.mem_append.mp mem).imp_right List.mem_singleton.mp
 · rw [unmarked] at mem
   exact .inl mem

theorem WalksForward.instanced {fuel root : ℕ} {h h' : AstHeap} {start : Option ℕ}
 {calls : List (AstHeap × ℕ)}
 (run : WalksForward (inheritExpandAt fuel root) h start calls h') :
 (calls.map Prod.snd).Nodup → Instanced h →
  (∀ x ∈ calls.map Prod.snd, ∀ t, x ∉ (h.get t).subClasses) →
  Instanced h' ∧ ∀ t, ∀ x ∈ (h'.get t).subClasses,
   x ∈ (h.get t).subClasses ∨ x ∈ calls.map Prod.snd := by
 induction run with
 | done => exact fun _ instanced _ => ⟨instanced, fun t x mem => .inl mem⟩
 | @visit h h₁ h₂ h₃ c under behind call _ _ ihDescend ihProceed =>
  intro nodup instanced new
  rw [List.map_cons, List.map_append, List.nodup_cons, List.mem_append, not_or] at nodup
  obtain ⟨⟨outUnder, outBehind⟩, nodup⟩ := nodup
  obtain ⟨nodupUnder, nodupBehind, apart⟩ := List.nodup_append.mp nodup
  rw [List.map_cons, List.map_append, List.forall_mem_cons, List.forall_mem_append] at new
  obtain ⟨newHere, newUnder, newBehind⟩ := new
  have first : Instanced h₁ ∧ ∀ t, ∀ x ∈ (h₁.get t).subClasses,
   x ∈ (h.get t).subClasses ∨ x = c := by
   cases inheritCall_of_run call with
   | other => exact ⟨instanced, fun t x mem => .inl mem⟩
   | @inherit ref h₀ isNode _ _ copy =>
    obtain ⟨same, larger, -⟩ := copyNode_sameInstances fuel copy (lt_size_of_node isNode)
    have subClasses := same.subClasses
    refine ⟨(instanced.same same).addSubClass ((lt_size_of_node isNode).trans_le larger)
     fun t => ?_, fun t x mem => ?_⟩
    · rw [subClasses]
      exact newHere t
    · rw [← subClasses]
      exact addSubClass_subset mem
  obtain ⟨instanced₁, grown₁⟩ := first
  obtain ⟨instanced₂, grown₂⟩ := ihDescend nodupUnder instanced₁ fun x mem t old => by
   rcases grown₁ t x old with old | rfl
   · exact newUnder x mem t old
   · exact outUnder mem
  obtain ⟨instanced₃, grown₃⟩ := ihProceed nodupBehind instanced₂ fun x mem t old => by
   rcases grown₂ t x old with old | called
   · rcases grown₁ t x old with old | rfl
     · exact newBehind x mem t old
     · exact outBehind mem
   · exact apart x called x mem rfl
  refine ⟨instanced₃, fun t x mem => ?_⟩
  rw [List.map_cons, List.map_append, List.mem_cons, List.mem_append]
  rcases grown₃ t x mem with mem | mem
  · rcases grown₂ t x mem with mem | mem
    · exact (grown₁ t x mem).imp_right .inl
    · exact .inr (.inr (.inl mem))
  · exact .inr (.inr (.inr mem))

theorem instanced_of_none (none' : ∀ o, (h.get o).instances = (0, 0, [])) : Instanced h := by
 have subClasses : ∀ t, (h.get t).subClasses = [] := fun t => congrArg (·.2.2) (none' t)
 refine ⟨fun t => ?_, fun t place c found => ?_⟩
 · rw [subClasses, show (h.get t).inheritCount = 0 from congrArg (·.2.1) (none' t)]
   rfl
 · rw [subClasses] at found
   cases found

theorem WalksBackward.sameInstances {root : ℕ} {start : Option ℕ} {calls : List (AstHeap × ℕ)}
 (run : WalksBackward (nodeExpandAt fuel root) h start calls h') : SameInstances h h' := by
 induction run with
 | done => exact .refl _
 | visit _ call _ ihDescend ihProceed =>
  exact (ihDescend.trans (nodeExpandAt_sameInstances call)).trans ihProceed

theorem WalksBackward.linked {fuel root : ℕ} {h h' : AstHeap} {start : Option ℕ}
 {calls : List (AstHeap × ℕ)}
 (run : WalksBackward (nodeExpandAt fuel root) h start calls h') (linked : Linked h) :
 Linked h' := by
 induction run with
 | done => exact linked
 | visit _ call _ ihDescend ihProceed =>
  exact ihProceed ((nodeExpandAt_edits call).invariant Linked.edit (ihDescend linked))

theorem parse_instanced {parseOne : Str → Option SourceFile} {sourceName : Str}
 {ast : Ast} (run : parse parseOne fuel sourceName = .ok ast) : Instanced ast.heap := by
 rw [parse] at run
 cases merged : parseMerged parseOne fuel sourceName with
 | error e => rw [merged] at run; cases run
 | ok root =>
  rw [merged] at run
  cases root with
  | none => cases run
  | some source =>
   change (Ast.ofSource true source).expand fuel = .ok ast at run
   obtain ⟨h₁, nodes, inherits, -⟩ := expand_walks run
   have before := walksBackward_of_run _ fuel nodes
   have walk := walksForward_of_run _ fuel inherits
   have start : SameInstances ⟨[{ type := .confNode, name := rootName }]⟩ h₁ :=
    addSource_sameInstances source |>.trans before.sameInstances
   have none' : ∀ o, (h₁.get o).instances = (0, 0, []) := by
    intro o
    rw [start.instances o]
    cases o with
    | zero | succ o => rfl
   have once := inheritCalls_once walk (before.linked (ofSource_linked true source))
   refine (walk.instanced once (instanced_of_none none') fun x _ t => ?_).1
   rw [show (h₁.get t).subClasses = [] from congrArg (·.2.2) (none' t)]
   exact List.not_mem_nil

end DriversFramework.HcAst
