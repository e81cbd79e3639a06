import DriversFramework.HcAstUnique

namespace DriversFramework.HcAst

open AstHeap

def AstObject.label (o : AstObject) : ObjectType × Str × Option ℕ × UInt32 :=
 (o.type, o.name, o.parent, o.arraySize)

structure Grafts (h h' : AstHeap) (dst c p : ℕ) : Prop where
 node : (h.get dst).type = .confNode
 child : c ∈ (h.get p).children
 lacks : h.lookupChild dst (h.get c).name (some (h.get c).type) = none
 build : Builds h dst [c] h'

inductive Edit : AstHeap → AstHeap → Prop where
 | overwrite {h h' : AstHeap} {v src : ℕ} (run : overwriteValue h v src = .ok h') : Edit h h'
 | mark {h : AstHeap} (a : ℕ) {f : AstObject → AstObject} (label : ∀ o, (f o).label = o.label)
   (children : ∀ o, (f o).children = o.children) : Edit h (h.modify a f)
 /-- What leaves is a node or a term, or stands in a node. -/
 | separate {h : AstHeap} {a : ℕ}
   (placed : (h.get a).type = .confNode ∨ (h.get a).type = .confTerm ∨
    ∃ p, (h.get p).type = .confNode ∧ a ∈ (h.get p).children) : Edit h (h.separate a)
 | remove {h : AstHeap} {a : ℕ}
   (kind : (h.get a).type = .confNode ∨ (h.get a).type = .confTerm) : Edit h (h.remove a)
 | graft {h h' : AstHeap} {dst c p : ℕ} (grafts : Grafts h h' dst c p) : Edit h h'

abbrev Edits : AstHeap → AstHeap → Prop := Relation.ReflTransGen Edit

structure Trims (h h' : AstHeap) : Prop where
 size : h'.size = h.size
 label : ∀ o, (h'.get o).label = (h.get o).label
 sublist : ∀ p, (h'.get p).children.Sublist (h.get p).children

namespace Trims

variable {h h' : AstHeap}

theorem type (trims : Trims h h') (o : ℕ) : (h'.get o).type = (h.get o).type :=
 congrArg (·.1) (trims.label o)

theorem name (trims : Trims h h') (o : ℕ) : (h'.get o).name = (h.get o).name :=
 congrArg (·.2.1) (trims.label o)

theorem parent (trims : Trims h h') (o : ℕ) : (h'.get o).parent = (h.get o).parent :=
 congrArg (·.2.2.1) (trims.label o)

theorem arraySize (trims : Trims h h') (o : ℕ) : (h'.get o).arraySize = (h.get o).arraySize :=
 congrArg (·.2.2.2) (trims.label o)

theorem of_modify (h : AstHeap) (a : ℕ) {f : AstObject → AstObject}
 (label : ∀ o, (f o).label = o.label) (children : ∀ o, (f o).children.Sublist o.children) :
 Trims h (h.modify a f) where
 size := size_modify h a f
 label := modify_keep AstObject.label label h a
 sublist p := by
  rw [get_modify]
  split
  · exact children _
  · exact List.Sublist.refl _

theorem of_overwriteValue {v src : ℕ} (run : overwriteValue h v src = .ok h') : Trims h h' := by
 unfold overwriteValue at run
 split at run
 · split at run
   · cases run
     exact of_modify h v (fun _ => rfl) fun _ => List.nil_sublist _
   · cases run
 · cases run
   exact of_modify h v (fun _ => rfl) fun _ => List.Sublist.refl _

theorem of_separate (h : AstHeap) (a : ℕ) : Trims h (h.separate a) where
 size := size_separate h a
 label := separate_keep AstObject.label (fun _ _ => rfl) h a
 sublist := separate_sublist h a

theorem of_remove (h : AstHeap) (a : ℕ) : Trims h (h.remove a) where
 size := size_remove h a
 label := remove_keep AstObject.label (fun _ _ => rfl) h a
 sublist := remove_sublist h a

theorem keeps (trims : Trims h h') : Keeps h h' :=
 ⟨trims.size.ge, fun _ => trims.type _, fun _ => trims.name _⟩

end Trims

variable {h h' : AstHeap}

theorem Edit.trims_or_grafts (edit : Edit h h') : Trims h h' ∨ ∃ dst c p, Grafts h h' dst c p := by
 cases edit with
 | overwrite run => exact .inl (.of_overwriteValue run)
 | mark a label children =>
  exact .inl (.of_modify h a label fun o => by rw [children o])
 | separate _ => exact .inl (.of_separate h _)
 | remove _ => exact .inl (.of_remove h _)
 | graft grafts => exact .inr ⟨_, _, _, grafts⟩

theorem Edit.keeps (edit : Edit h h') : Keeps h h' := by
 rcases edit.trims_or_grafts with trims | ⟨dst, c, p, grafts⟩
 · exact trims.keeps
 · exact grafts.build.keeps.1

theorem Edits.keeps (edits : Edits h h') : Keeps h h' := by
 induction edits with
 | refl => exact .of_shrinks (.refl h)
 | tail _ edit ih => exact ih.trans edit.keeps

theorem Edits.invariant {Inv : AstHeap → Prop} (edits : Edits h h')
 (edit : ∀ {h h' : AstHeap}, Edit h h' → Inv h → Inv h') (start : Inv h) : Inv h' := by
 induction edits with
 | refl => exact start
 | tail _ last ih => exact edit last ih

theorem next_mem {c x : ℕ} (next : h.next c = some x) : ∃ p, x ∈ (h.get p).children := by
 obtain ⟨p, -, behind⟩ := Option.bind_eq_some_iff.mp next
 exact ⟨p, mem_of_successor behind⟩

theorem copyTerm_edits {dst src : ℕ} {overwrite : Bool}
 (run : copyTerm h dst src overwrite = .ok h') : Edits h h' := by
 unfold copyTerm at run
 split at run
 · split at run
   · split at run
     · cases run
     · exact .single (.overwrite run)
   · cases run
 · cases run
   exact .refl

theorem copyNode_edits (fuel : ℕ) : ∀ {h h' : AstHeap} {dst : ℕ} {child : Option ℕ}
 {overwrite : Bool}, copyNode fuel h dst child overwrite = .ok h' →
 (h.get dst).type = .confNode → (∀ c, child = some c → ∃ p, c ∈ (h.get p).children) →
 Edits h h' := by
 induction fuel with
 | zero =>
  intro h h' dst child overwrite run _ _
  cases child with
  | none => cases run; exact .refl
  | some c => cases run
 | succ fuel ih =>
  intro h h' dst child overwrite run node mem
  cases child with
  | none => cases run; exact .refl
  | some c =>
   rw [copyNode_succ] at run
   cases round : copyChild fuel h dst c overwrite with
   | error e => rw [round] at run; cases run
   | ok h₁ =>
    rw [round] at run
    obtain ⟨p, here⟩ := mem c rfl
    have first : Edits h h₁ := by
     rw [copyChild] at round
     cases found : h.lookupChild dst (h.get c).name (some (h.get c).type) with
     | none =>
      rw [found] at round
      exact .single (.graft ⟨node, here, found, builds_of_run fuel round⟩)
     | some peer =>
      rw [found] at round
      dsimp only at round
      split at round
      · next isNode =>
        exact ih round (isNode_iff.mp isNode) fun x hx => ⟨c, child_mem hx⟩
      · split at round
        · exact copyTerm_edits round
        · split at round
          · exact .single (.overwrite round)
          · cases round
            exact .refl
    have node₁ : (h₁.get dst).type = .confNode :=
     (first.keeps.type (lt_size_of_node node)).trans node
    exact first.trans (ih run node₁ fun x hx => next_mem hx)

theorem moveValue_edits {dst src : ℕ}
 (run : moveValue h dst (some src) = .ok h') (kind : (h.get src).type = .confNode ∨
  ∃ p, (h.get p).type = .confNode ∧ src ∈ (h.get p).children) : Edits h h' := by
 rw [moveValue] at run
 cases write : overwriteValue h dst src with
 | error e => rw [write] at run; cases run
 | ok h₁ =>
  rw [write] at run
  cases run
  have types := (Trims.of_overwriteValue write).type
  refine .tail (.single (.overwrite write)) (.separate ?_)
  rw [types src]
  rcases kind with node | ⟨p, node, mem⟩
  · exact .inl node
  · -- the values of an array go, but `p` is a node
    refine .inr (.inr ⟨p, (types p).trans node, ?_⟩)
    rw [overwriteValue] at write
    split at write
    · next array =>
      split at write
      · cases write
        have other : dst ≠ p := by
         rintro rfl
         rw [array] at node
         cases node
        rwa [get_modify_ne h other]
      · cases write
    · cases write
      rw [get_modify]
      split
      · exact mem
      · exact mem

theorem move_edits {fuel : ℕ} {dst src : ℕ} (run : move fuel h dst src = .ok h')
 (node : (h.get src).type = .confNode) : Edits h h' := by
 unfold move at run
 split at run
 · next isNode =>
   cases copy : copyNode fuel h dst (h.child src) true with
   | error e => rw [copy] at run; cases run
   | ok h₁ =>
    rw [copy] at run
    cases run
    have edits := copyNode_edits fuel copy (isNode_iff.mp isNode) fun x hx => ⟨src, child_mem hx⟩
    exact edits.tail (.separate (.inl ((edits.keeps.type (lt_size_of_node node)).trans node)))
 · split at run
   · split at run
     · cases run
     · cases first : h.child src with
       | none => rw [first] at run; cases run
       | some c =>
        rw [first] at run
        exact moveValue_edits run (.inr ⟨src, node, child_mem first⟩)
   · exact moveValue_edits run (.inl node)

theorem nodeExpandAt_edits {fuel root c : ℕ}
 (run : nodeExpandAt fuel root h c = .ok h') : Edits h h' := by
 cases nodeCall_of_run run with
 | other => exact .refl
 | node => exact .refl
 | term => exact .refl
 | removeNode isNode => exact .single (.remove (.inl isNode))
 | removeTerm isTerm => exact .single (.remove (.inr isTerm))
 | bind => exact .single (.mark c (fun _ => rfl) fun _ => rfl)
 | move isNode _ _ _ run => exact move_edits run isNode
 | @copy ref _ isNode _ _ _ run =>
  have mark : Edit h (h.modify c fun o => { o with nodeType := .noRef }) :=
   .mark c (fun _ => rfl) fun _ => rfl
  refine .trans (.single mark) (copyNode_edits fuel run ?_ fun x hx => ?_)
  · exact (mark.keeps.type (lt_size_of_node isNode)).trans isNode
  · refine ⟨ref, ?_⟩
    have children := modify_keep AstObject.children
     (f := fun o => { o with nodeType := .noRef }) (fun _ => rfl) h c ref
    rw [children]
    exact child_mem hx

theorem inheritExpandAt_edits {fuel root c : ℕ}
 (run : inheritExpandAt fuel root h c = .ok h') : Edits h h' := by
 cases inheritCall_of_run run with
 | other => exact .refl
 | @inherit ref h₁ isNode _ _ copy =>
  have copied := copyNode_edits fuel copy isNode fun x hx => ⟨ref, child_mem hx⟩
  refine (copied.tail (.mark c (f := fun o =>
   { o with inheritIndex := (h₁.get ref).inheritCount }) (fun _ => rfl) fun _ => rfl)).tail ?_
  exact .mark ref (f := fun o => { o with
   inheritCount := (h₁.get ref).inheritCount + 1, subClasses := o.subClasses ++ [c] })
   (fun _ => rfl) fun _ => rfl

theorem Runs.invariant {Inv : AstHeap → Prop} {fuel root : ℕ}
 {calls : List (Pass × AstHeap × ℕ)} (runs : Runs fuel root h calls h')
 (edit : ∀ {h h' : AstHeap}, Edit h h' → Inv h → Inv h') (start : Inv h) : Inv h' := by
 refine @Runs.keeps fuel root h h' calls Inv (fun _ _ _ => True) runs start
  (fun {pass _ _ _} inv _ call => ?_) fun _ _ => trivial
 cases pass with
 | node => exact (nodeExpandAt_edits call).invariant edit inv
 | inherit => exact (inheritExpandAt_edits call).invariant edit inv

/-- Every object is younger than its parent and stands once among its children; the root has
no parent. -/
structure Linked (h : AstHeap) : Prop where
 lt_size : ∀ {p c : ℕ}, c ∈ (h.get p).children → c < h.size
 older : ∀ {p c : ℕ}, c ∈ (h.get p).children → p < c
 parent : ∀ {p c : ℕ}, c ∈ (h.get p).children → (h.get c).parent = some p
 nodup : ∀ p : ℕ, (h.get p).children.Nodup
 root : (h.get 0).parent = none

namespace Linked

variable {h h' : AstHeap}

theorem of_keep (linked : Linked h) (size : h.size ≤ h'.size)
 (children : ∀ p, (h'.get p).children.Sublist (h.get p).children)
 (parent : ∀ o, (h'.get o).parent = (h.get o).parent) : Linked h' where
 lt_size mem := (linked.lt_size ((children _).subset mem)).trans_le size
 older mem := linked.older ((children _).subset mem)
 parent mem := (parent _).trans (linked.parent ((children _).subset mem))
 nodup p := (linked.nodup p).sublist (children p)
 root := (parent 0).trans linked.root

theorem alloc (linked : Linked h) {o : AstObject} (childless : o.children = [])
 (free : o.parent = none) : Linked (h.alloc o) where
 lt_size mem := by
  rw [alloc_children childless] at mem
  rw [size_alloc]
  exact Nat.lt_succ_of_lt (linked.lt_size mem)
 older mem := linked.older (by rwa [alloc_children childless] at mem)
 parent mem := by
  rw [alloc_children childless] at mem
  rw [get_alloc_of_lt (linked.lt_size mem)]
  exact linked.parent mem
 nodup p := by
  rw [alloc_children childless]
  exact linked.nodup p
 root := by
  rw [get_alloc]
  split
  · exact free
  · exact linked.root

theorem addChild (linked : Linked h) {a c : ℕ} (younger : a < c) (inside : c < h.size)
 (free : (h.get c).parent = none) : Linked (h.addChild a c) := by
 have place : a < h.size := younger.trans inside
 have nowhere : ∀ p, c ∉ (h.get p).children := fun p mem => by
  rw [linked.parent mem] at free
  cases free
 have cases' : ∀ {p o : ℕ}, o ∈ ((h.addChild a c).get p).children →
  o ∈ (h.get p).children ∨ p = a ∧ o = c := by
  intro p o mem
  rw [addChild_children place] at mem
  split at mem
  · next same =>
    rw [same]
    rcases List.mem_append.mp mem with mem | mem
    · exact .inl mem
    · exact .inr ⟨rfl, List.mem_singleton.mp mem⟩
  · exact .inl mem
 refine ⟨fun {p o} mem => ?_, fun {p o} mem => ?_, fun {p o} mem => ?_, fun p => ?_, ?_⟩
 · rw [size_addChild]
   rcases cases' mem with mem | ⟨-, rfl⟩
   · exact linked.lt_size mem
   · exact inside
 · rcases cases' mem with mem | ⟨rfl, rfl⟩
   · exact linked.older mem
   · exact younger
 · rw [addChild_parent inside]
   rcases cases' mem with old | ⟨rfl, rfl⟩
   · rw [if_neg (by rintro rfl; exact nowhere p old)]
     exact linked.parent old
   · rw [if_pos rfl]
 · rw [addChild_children place]
   split
   · refine List.nodup_append.mpr ⟨linked.nodup a, List.nodup_singleton c, fun x old y new => ?_⟩
     rintro rfl
     exact nowhere a (List.mem_singleton.mp new ▸ old)
   · exact linked.nodup p
 · rw [addChild_parent inside, if_neg (by omega)]
   exact linked.root

theorem trims (linked : Linked h) (trims : Trims h h') : Linked h' :=
 linked.of_keep trims.size.ge trims.sublist trims.parent

variable {a b c o p : ℕ}

theorem le_of_below (linked : Linked h) (path : Below h a o) : a ≤ o := by
 induction path with
 | refl => exact le_rfl
 | tail _ child ih => exact ih.trans (linked.older child).le

theorem below_lt_size (linked : Linked h) (inside : a < h.size) (path : Below h a o) :
 o < h.size := by
 cases path with
 | refl => exact inside
 | tail _ child => exact linked.lt_size child

theorem below_parent (linked : Linked h) (path : Below h a c) (child : c ∈ (h.get p).children)
 (other : a ≠ c) : Below h a p := by
 cases path with
 | refl => exact absurd rfl other
 | tail path child' =>
  have same : some _ = some p := (linked.parent child').symm.trans (linked.parent child)
  rw [Option.some.inj same] at path
  exact path

theorem eq_of_siblings (linked : Linked h) (ha : a ∈ (h.get p).children)
 (hb : b ∈ (h.get p).children) (pathA : Below h a o) (pathB : Below h b o) : a = b := by
 have compare : Below h a b ∨ Below h b a := by
  induction pathA with
  | refl => exact .inr pathB
  | @tail q c path child ih =>
   by_cases same : b = c
   · rw [same]
     exact .inl (Below.step path child)
   · exact ih (linked.below_parent pathB child same)
 by_contra other
 rcases compare with path | path
 · have low := linked.le_of_below (linked.below_parent path hb other)
   have lt := linked.older ha
   omega
 · have low := linked.le_of_below (linked.below_parent path ha (Ne.symm other))
   have lt := linked.older hb
   omega

theorem next_of_children (linked : Linked h) {done rest : List ℕ}
 (children : (h.get p).children = done ++ c :: rest) : h.next c = rest.head? := by
 have nodup := linked.nodup p
 rw [children] at nodup
 have outside : c ∉ done := fun mem =>
  (List.nodup_append.mp nodup).2.2 c mem c List.mem_cons_self rfl
 have mem : c ∈ (h.get p).children := by
  rw [children]
  exact List.mem_append_right _ List.mem_cons_self
 rw [AstHeap.next, linked.parent mem]
 change successor c (h.get p).children = _
 rw [children, successor_append outside]

end Linked

theorem Builds.grown {h h' : AstHeap} {dst : ℕ} {cs : List ℕ} (run : Builds h dst cs h')
 (place : dst < h.size) :
 ∃ news, h'.get dst = (h.get dst).setChildren ((h.get dst).children ++ news) ∧
  news.length = cs.length ∧ ∀ n ∈ news, h.size ≤ n := by
 induction run with
 | nil => exact ⟨[], by rw [List.append_nil]; rfl, rfl, fun n mem => by cases mem⟩
 | @cons h h₁ h' dst c cs inner _ _ ih =>
  have size : (h.alloc (h.get c).copied).size = h.size + 1 := size_alloc h _
  obtain ⟨keeps, frame⟩ := inner.keeps
  have larger := keeps.size_le
  have place₁ : dst < h₁.size := by omega
  have old : h₁.get dst = h.get dst := by
   rw [frame dst (by omega) (by omega), get_alloc_of_lt place]
  obtain ⟨news, grown, length, young⟩ := ih (by rw [size_addChild]; exact place₁)
  rw [size_addChild] at young
  refine ⟨h.size :: news, ?_, congrArg (· + 1) length, fun n mem => ?_⟩
  · rw [grown, AstHeap.addChild, get_modify_ne _ (by omega), get_modify_self place₁, old]
    simp [AstObject.setChildren]
  · rcases List.mem_cons.mp mem with rfl | mem
    · exact le_rfl
    · have := young n mem
      omega

theorem Builds.linked {h h' : AstHeap} {dst : ℕ} {cs : List ℕ} (run : Builds h dst cs h')
 (linked : Linked h) (place : dst < h.size) : Linked h' := by
 induction run with
 | nil => exact linked
 | @cons h h₁ h' dst c cs inner _ ihInner ihRest =>
  have new : h.size < (h.alloc (h.get c).copied).size := by
   rw [size_alloc]
   exact Nat.lt_succ_self _
  have larger := inner.keeps.1.size_le
  have linked₁ := ihInner (linked.alloc (AstObject.copied_children _) (AstObject.copied_parent _)) new
  obtain ⟨news, grown, -⟩ := inner.grown new
  have free : (h₁.get h.size).parent = none := by
   rw [grown, get_alloc_new]
   exact AstObject.copied_parent _
  refine ihRest (linked₁.addChild place (by omega) free) ?_
  rw [size_addChild]
  omega

theorem Linked.edit {h h' : AstHeap} (edit : Edit h h') (linked : Linked h) : Linked h' := by
 rcases edit.trims_or_grafts with trims | ⟨dst, c, p, grafts⟩
 · exact linked.trims trims
 · exact grafts.build.linked linked (lt_size_of_node grafts.node)

theorem ofSource_linked (redefineChecked : Bool) (source : SourceObjects) :
 Linked (Ast.ofSource redefineChecked source).heap := by
 have built := ofSource_built redefineChecked source
 refine ⟨built.wellFormed.lt_size, built.wellFormed.older, built.wellFormed.parent,
  built.wellFormed.nodup, ?_⟩
 rw [built.keep AstObject.parent (fun _ _ => rfl) Nat.zero_lt_one]
 rfl

end DriversFramework.HcAst
