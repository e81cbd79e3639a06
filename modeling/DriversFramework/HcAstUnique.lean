import DriversFramework.HcAstInherit
import DriversFramework.HcAstRedefine

/-! `Merge` and `Copy` look a child up by its name and its type, so they add a child whose
name the destination has already, with the other type. Nothing checks the tree after
that: `RedefineCheck` has run before. -/
namespace DriversFramework.HcAst

open AstHeap

def copyChild (fuel : ℕ) (h : AstHeap) (dst child : ℕ) (overwrite : Bool) : Result :=
 match h.lookupChild dst (h.get child).name (some (h.get child).type) with
 | none => buildChildren fuel h dst [child]
 | some peer =>
  if (h.get peer).isNode then copyNode fuel h peer (h.child child) overwrite
  else if (h.get peer).isTerm then copyTerm h peer child overwrite
  else if overwrite then overwriteValue h peer child
  else .ok h

theorem copyNode_succ (fuel : ℕ) (h : AstHeap) (dst child : ℕ) (overwrite : Bool) :
 copyNode (fuel + 1) h dst (some child) overwrite =
  copyChild fuel h dst child overwrite >>= fun h =>
   copyNode fuel h dst (h.next child) overwrite := by
 rw [copyNode, copyChild]
 cases h.lookupChild dst (h.get child).name (some (h.get child).type) with
 | none => rfl
 | some peer =>
  dsimp only
  cases (h.get peer).isNode with
  | true => rfl
  | false =>
   cases (h.get peer).isTerm with
   | true => rfl
   | false => cases overwrite <;> rfl

/-- Is every child that `copyNode` adds the first of its name where it is added? -/
def copyFits : ℕ → AstHeap → ℕ → Option ℕ → Bool → Bool
 | _, _, _, none, _ => true
 | 0, _, _, some _, _ => true
 | fuel + 1, h, dst, some child, overwrite =>
  ((h.lookupChild dst (h.get child).name (some (h.get child).type)).elim
   (SourceObjects.isNew (h.get child).copied.name (childNames h dst))
   fun peer => !(h.get peer).isNode || copyFits fuel h peer (h.child child) overwrite) &&
  (copyChild fuel h dst child overwrite).toOption.all fun h =>
   copyFits fuel h dst (h.next child) overwrite

def expandFits (fuel root : ℕ) (pass : Pass) (h : AstHeap) (c : ℕ) : Bool :=
 match lookup h root c (h.get c).refNodePath with
 | none => true
 | some ref =>
  match pass, (h.get c).nodeType with
  | .node, .ref => !(h.get ref).isNode || copyFits fuel h ref (h.child c) true
  | .node, .copy =>
   copyFits fuel (h.modify c fun o => { o with nodeType := .noRef }) c (h.child ref) false
  | .inherit, .inherit => copyFits fuel h c (h.child ref) false
  | _, _ => true

def mergeAstsFit : Option SourceObjects → List (Option SourceObjects) → Bool
 | _, [] => true
 | astRoot, root :: astList =>
  (astRoot.elim true fun dst => root.elim true fun src => dst.mergeFits src) &&
   mergeAstsFit (mergeRoot astRoot root) astList

/-- Wherever `Parse` adds a child to a node that lacks it, by name and type, the node has no
child of that name at all. -/
structure ParseFits (parseOne : Str → Option SourceFile) (fuel : ℕ) (sourceName : Str) : Prop where
 merge : ∀ astList, readSources parseOne fuel [sourceName] = .ok astList →
  mergeAstsFit (mainLast astList).head?.join (mainLast astList).tail = true
 expand : ∀ source, parseMerged parseOne fuel sourceName = .ok (some source) →
  ∀ call ∈ (Ast.ofSource true source).calls fuel,
   expandFits fuel 0 call.1 call.2.1 call.2.2 = true

structure UniqueTree (h : AstHeap) : Prop where
 lt_size : ∀ {p c : ℕ}, c ∈ (h.get p).children → c < h.size
 unnamed : ∀ o, (h.get o).type = .array → (h.get o).name = []
 unique : UniqueFrom h 0

theorem UniqueTree.copied_name {h : AstHeap} (hu : UniqueTree h) (o : ℕ) :
 (h.get o).copied.name = (h.get o).name := by
 have hname := hu.unnamed o
 unfold AstObject.copied
 split
 · rfl
 · rfl
 · next ht => exact (hname ht).symm
 · rfl

structure Shrinks (h h' : AstHeap) : Prop where
 size : h'.size = h.size
 type : ∀ o, (h'.get o).type = (h.get o).type
 name : ∀ o, (h'.get o).name = (h.get o).name
 sublist : ∀ p, (h'.get p).children.Sublist (h.get p).children

namespace Shrinks

variable {h h₁ h' : AstHeap}

theorem refl (h : AstHeap) : Shrinks h h :=
 ⟨rfl, fun _ => rfl, fun _ => rfl, fun _ => List.Sublist.refl _⟩

theorem trans (hs : Shrinks h h₁) (hs' : Shrinks h₁ h') : Shrinks h h' where
 size := hs'.size.trans hs.size
 type o := (hs'.type o).trans (hs.type o)
 name o := (hs'.name o).trans (hs.name o)
 sublist p := (hs'.sublist p).trans (hs.sublist p)

theorem uniqueTree (hs : Shrinks h h') (hu : UniqueTree h) : UniqueTree h' where
 lt_size {p c} hc := by
  rw [hs.size]
  exact hu.lt_size ((hs.sublist p).subset hc)
 unnamed o ht := (hs.name o).trans (hu.unnamed o ((hs.type o).symm.trans ht))
 unique o ho hnode := by
  have hsub : (childNames h' o).Sublist (childNames h o) := by
   rw [childNames, childNames, List.map_congr_left fun c _ => hs.name c]
   exact (hs.sublist o).map _
  exact (hu.unique o ho ((hs.type o).symm.trans hnode)).sublist hsub

theorem of_modify (h : AstHeap) (a : ℕ) {f : AstObject → AstObject}
 (ht : ∀ o, (f o).type = o.type) (hn : ∀ o, (f o).name = o.name)
 (hc : ∀ o, (f o).children.Sublist o.children) : Shrinks h (h.modify a f) where
 size := size_modify h a f
 type := modify_keep AstObject.type ht h a
 name := modify_keep AstObject.name hn h a
 sublist p := by
  rw [get_modify]
  split
  · exact hc _
  · exact List.Sublist.refl _

theorem of_separate (h : AstHeap) (a : ℕ) : Shrinks h (h.separate a) where
 size := size_separate h a
 type := separate_keep AstObject.type (fun _ _ => rfl) h a
 name := separate_keep AstObject.name (fun _ _ => rfl) h a
 sublist := separate_sublist h a

theorem of_remove (h : AstHeap) (a : ℕ) : Shrinks h (h.remove a) where
 size := size_remove h a
 type := remove_keep AstObject.type (fun _ _ => rfl) h a
 name := remove_keep AstObject.name (fun _ _ => rfl) h a
 sublist := remove_sublist h a

theorem of_overwriteValue {dst src : ℕ} (hrun : overwriteValue h dst src = .ok h') :
 Shrinks h h' := by
 unfold overwriteValue at hrun
 split at hrun
 · split at hrun
   · cases hrun
     exact of_modify h dst (fun _ => rfl) (fun _ => rfl) fun _ => List.nil_sublist _
   · cases hrun
 · cases hrun
   exact of_modify h dst (fun _ => rfl) (fun _ => rfl) fun _ => List.Sublist.refl _

theorem of_copyTerm {dst src : ℕ} {overwrite : Bool}
 (hrun : copyTerm h dst src overwrite = .ok h') : Shrinks h h' := by
 unfold copyTerm at hrun
 split at hrun
 · split at hrun
   · split at hrun
     · cases hrun
     · exact of_overwriteValue hrun
   · cases hrun
 · cases hrun
   exact refl h

theorem of_moveValue {dst : ℕ} {src : Option ℕ} (hrun : moveValue h dst src = .ok h') :
 Shrinks h h' := by
 cases src with
 | none => cases hrun
 | some src =>
  rw [moveValue] at hrun
  cases hover : overwriteValue h dst src with
  | error e => rw [hover] at hrun; cases hrun
  | ok h₁ =>
   rw [hover] at hrun
   cases hrun
   exact (of_overwriteValue hover).trans (of_separate h₁ src)

end Shrinks

structure Keeps (h h' : AstHeap) : Prop where
 size_le : h.size ≤ h'.size
 type : ∀ {o}, o < h.size → (h'.get o).type = (h.get o).type
 name : ∀ {o}, o < h.size → (h'.get o).name = (h.get o).name

namespace Keeps

variable {h h₁ h' : AstHeap}

theorem trans (hk : Keeps h h₁) (hk' : Keeps h₁ h') : Keeps h h' where
 size_le := hk.size_le.trans hk'.size_le
 type ho := (hk'.type (ho.trans_le hk.size_le)).trans (hk.type ho)
 name ho := (hk'.name (ho.trans_le hk.size_le)).trans (hk.name ho)

theorem of_shrinks (hs : Shrinks h h') : Keeps h h' :=
 ⟨hs.size.ge, fun _ => hs.type _, fun _ => hs.name _⟩

end Keeps

theorem Builds.keeps {h h' : AstHeap} {dst : ℕ} {cs : List ℕ} (hrun : Builds h dst cs h') :
 Keeps h h' ∧ ∀ o < h.size, o ≠ dst → h'.get o = h.get o := by
 induction hrun with
 | nil => exact ⟨.of_shrinks (.refl _), fun _ _ _ => rfl⟩
 | @cons h h₁ h' dst c cs _ _ ihInner ihRest =>
  have hsize : (h.alloc (h.get c).copied).size = h.size + 1 := size_alloc h _
  obtain ⟨inner, innerFrame⟩ := ihInner
  obtain ⟨rest, restFrame⟩ := ihRest
  have hle : h.size < h₁.size := by
   have := inner.size_le
   omega
  have old : ∀ o < h.size, h₁.get o = h.get o := fun o ho => by
   rw [innerFrame o (by omega) (by omega), get_alloc_of_lt ho]
  have hlt : ∀ o < h.size, o < (h₁.addChild dst h.size).size := fun o ho => by
   rw [size_addChild]
   omega
  refine ⟨⟨?_, fun {o} ho => ?_, fun {o} ho => ?_⟩, fun o ho hne => ?_⟩
  · exact (hle.le.trans (size_addChild h₁ dst h.size).ge).trans rest.size_le
  · rw [rest.type (hlt o ho), addChild_type, old o ho]
  · rw [rest.name (hlt o ho), addChild_name, old o ho]
  · rw [restFrame o (hlt o ho) hne, addChild_ne h₁ hne (by omega), old o ho]

theorem UniqueTree.addChild {h : AstHeap} {a c : ℕ} (hu : UniqueTree h) (ha : a < h.size)
 (hc : c < h.size) (hnew : (h.get a).type = .confNode → (h.get c).name ∉ childNames h a) :
 UniqueTree (h.addChild a c) where
 lt_size {p x} hx := by
  rw [addChild_children ha] at hx
  rw [size_addChild]
  split at hx
  · rcases List.mem_append.mp hx with hx | hx
    · exact hu.lt_size hx
    · rw [List.mem_singleton.mp hx]
      exact hc
  · exact hu.lt_size hx
 unnamed o := by
  rw [addChild_type, addChild_name]
  exact hu.unnamed o
 unique o ho := by
  rw [addChild_type, childNames_addChild ha]
  intro hnode
  split
  · next hoa =>
    subst hoa
    exact (SourceObjects.nodup_added_iff (hu.unique o ho hnode)).mpr (hnew hnode)
  · exact hu.unique o ho hnode

theorem get_alloc (h : AstHeap) (o : AstObject) (p : ℕ) :
 (h.alloc o).get p = if p = h.size then o else h.get p := by
 split
 · next hp => rw [hp, get_alloc_new]
 · next hp =>
   by_cases hlt : p < h.size
   · exact get_alloc_of_lt hlt o
   · rw [get_of_size_le (by rw [size_alloc]; omega), get_of_size_le (by omega)]

theorem UniqueTree.alloc {h : AstHeap} {o : AstObject} (hu : UniqueTree h) (ho : o.children = [])
 (hname : o.type = .array → o.name = []) : UniqueTree (h.alloc o) where
 lt_size {p c} hc := by
  rw [get_alloc] at hc
  rw [size_alloc]
  split at hc
  · rw [ho] at hc
    cases hc
  · exact (hu.lt_size hc).trans (Nat.lt_succ_self _)
 unnamed p := by
  rw [get_alloc]
  split
  · exact hname
  · exact hu.unnamed p
 unique p hp := by
  rw [childNames, get_alloc]
  split
  · intro _
    rw [ho]
    exact List.nodup_nil
  · intro hnode
    have hold : (h.get p).children.map (fun c => ((h.alloc o).get c).name) = childNames h p :=
     List.map_congr_left fun c hc => by rw [get_alloc_of_lt (hu.lt_size hc)]
    rw [hold]
    exact hu.unique p hp hnode

theorem Builds.uniqueTree {h h' : AstHeap} {dst : ℕ} {cs : List ℕ} (hrun : Builds h dst cs h')
 (hu : UniqueTree h) (hd : dst < h.size) (hcs : ∀ c ∈ cs, c < h.size)
 (hnew : (h.get dst).type = .confNode →
  (childNames h dst ++ cs.map fun c => (h.get c).name).Nodup) : UniqueTree h' := by
 induction hrun with
 | nil => exact hu
 | @cons h h₁ h' dst c cs innerRun restRun ihInner ihRest =>
  have hsize : (h.alloc (h.get c).copied).size = h.size + 1 := size_alloc h _
  have hc := hcs c List.mem_cons_self
  have hlabel : (h.get c).copied.name = (h.get c).name := hu.copied_name c
  obtain ⟨inner, innerFrame⟩ := innerRun.keeps
  have hle : h.size < h₁.size := by
   have := inner.size_le
   omega
  have old : ∀ o < h.size, h₁.get o = h.get o := fun o ho => by
   rw [innerFrame o (by omega) (by omega), get_alloc_of_lt ho]
  have newName : (h₁.get h.size).name = (h.get c).name := by
   rw [inner.name (by omega), get_alloc_new, hlabel]
  have oldNames : childNames h₁ dst = childNames h dst := by
   rw [childNames, childNames, old dst hd]
   exact List.map_congr_left fun x hx => by rw [old x (hu.lt_size hx)]
  -- what stands under the new child
  have hu₁ : UniqueTree h₁ := by
   refine ihInner (hu.alloc (AstObject.copied_children _) fun ht => ?_) (by omega)
    (fun x hx => (hu.lt_size hx).trans (by omega)) fun ht => ?_
   · rw [hlabel]
     exact hu.unnamed c ((AstObject.copied_type _).symm.trans ht)
   · rw [get_alloc_new, AstObject.copied_type] at ht
     have hempty : childNames (h.alloc (h.get c).copied) h.size = [] := by
      rw [childNames, get_alloc_new, AstObject.copied_children]
      rfl
     have hold : (h.get c).children.map (fun x => ((h.alloc (h.get c).copied).get x).name) =
      childNames h c :=
      List.map_congr_left fun x hx => by rw [get_alloc_of_lt (hu.lt_size hx)]
     rw [hempty, List.nil_append, hold]
     exact hu.unique c (Nat.zero_le c) ht
  have hd₁ : dst < h₁.size := hd.trans hle
  refine ihRest (hu₁.addChild hd₁ hle fun ht => ?_) (by rw [size_addChild]; exact hd₁)
   (fun x hx => ?_) fun ht => ?_
  · rw [old dst hd] at ht
    rw [newName, oldNames]
    have hnodup := hnew ht
    rw [List.map_cons] at hnodup
    exact fun hmem => (List.nodup_append.mp hnodup).2.2 _ hmem _ List.mem_cons_self rfl
  · rw [size_addChild]
    exact (hcs x (List.mem_cons_of_mem c hx)).trans hle
  · rw [addChild_type, old dst hd] at ht
    have hrest : cs.map (fun x => ((h₁.addChild dst h.size).get x).name) =
     cs.map fun x => (h.get x).name :=
     List.map_congr_left fun x hx => by
      rw [addChild_name, old x (hcs x (List.mem_cons_of_mem c hx))]
    rw [childNames_addChild hd₁, if_pos rfl, oldNames, newName, hrest, List.append_assoc]
    exact hnew ht

theorem mem_of_successor {a b : ℕ} {peers : List ℕ} (hs : successor a peers = some b) :
 b ∈ peers := by
 induction peers with
 | nil => cases hs
 | cons peer peers ih =>
  rw [successor] at hs
  split at hs
  · exact List.mem_cons_of_mem _ (List.mem_of_head? hs)
  · exact List.mem_cons_of_mem _ (ih hs)

theorem UniqueTree.next_lt {h : AstHeap} (hu : UniqueTree h) {c x : ℕ} (hx : h.next c = some x) :
 x < h.size := by
 obtain ⟨p, -, hs⟩ := Option.bind_eq_some_iff.mp hx
 exact hu.lt_size (mem_of_successor hs)

theorem UniqueTree.child_lt {h : AstHeap} (hu : UniqueTree h) {c x : ℕ} (hx : h.child c = some x) :
 x < h.size := hu.lt_size (child_mem hx)

theorem copyNode_uniqueTree (fuel : ℕ) : ∀ {h h' : AstHeap} {dst : ℕ} {child : Option ℕ}
 {overwrite : Bool}, copyNode fuel h dst child overwrite = .ok h' →
 copyFits fuel h dst child overwrite = true → UniqueTree h → dst < h.size →
 (∀ c, child = some c → c < h.size) → UniqueTree h' ∧ Keeps h h' := by
 induction fuel with
 | zero =>
  intro h h' dst child overwrite hrun _ hu _ _
  cases child with
  | none => cases hrun; exact ⟨hu, .of_shrinks (.refl h)⟩
  | some c => cases hrun
 | succ fuel ih =>
  intro h h' dst child overwrite hrun hfits hu hd hchild
  cases child with
  | none => cases hrun; exact ⟨hu, .of_shrinks (.refl h)⟩
  | some c =>
   rw [copyNode_succ] at hrun
   rw [copyFits, Bool.and_eq_true] at hfits
   cases hround : copyChild fuel h dst c overwrite with
   | error e => rw [hround] at hrun; cases hrun
   | ok h₁ =>
    rw [hround] at hrun hfits
    have hc := hchild c rfl
    have round : UniqueTree h₁ ∧ Keeps h h₁ := by
     obtain ⟨here, -⟩ := hfits
     rw [copyChild] at hround
     cases hfound : h.lookupChild dst (h.get c).name (some (h.get c).type) with
     | none =>
      rw [hfound] at hround here
      have builds := builds_of_run fuel hround
      refine ⟨builds.uniqueTree hu hd (fun x hx => ?_) fun ht => ?_, builds.keeps.1⟩
      · rw [List.mem_singleton.mp hx]
        exact hc
      · rw [List.map_singleton, ← hu.copied_name c]
        exact (SourceObjects.nodup_added_iff (hu.unique dst (Nat.zero_le dst) ht)).mpr
         (SourceObjects.isNew_iff.mp here)
     | some peer =>
      rw [hfound] at hround here
      dsimp only [Option.elim] at hround here
      have shrinks : ∀ {h₁}, Shrinks h h₁ → UniqueTree h₁ ∧ Keeps h h₁ :=
       fun hs => ⟨hs.uniqueTree hu, .of_shrinks hs⟩
      split at hround
      · next isNode =>
        rw [isNode, Bool.not_true, Bool.false_or] at here
        exact ih hround here hu (hu.lt_size (peer_mem hfound)) fun x hx => hu.child_lt hx
      · split at hround
        · exact shrinks (.of_copyTerm hround)
        · split at hround
          · exact shrinks (.of_overwriteValue hround)
          · cases hround
            exact shrinks (.refl h)
    obtain ⟨hu₁, hk⟩ := round
    obtain ⟨hu', hk'⟩ := ih hrun hfits.2 hu₁ (hd.trans_le hk.size_le) fun x hx => hu₁.next_lt hx
    exact ⟨hu', hk.trans hk'⟩

theorem nodeExpandAt_uniqueTree {fuel root c : ℕ} {h h' : AstHeap} (hu : UniqueTree h)
 (hfits : expandFits fuel root .node h c = true) (hrun : nodeExpandAt fuel root h c = .ok h') :
 UniqueTree h' := by
 cases nodeCall_of_run hrun with
 | other | node | term => exact hu
 | removeNode | removeTerm => exact (Shrinks.of_remove h c).uniqueTree hu
 | @bind value ref =>
  exact (Shrinks.of_modify h c (f := fun o => { o with refNode := some ref }) (fun _ => rfl)
   (fun _ => rfl) fun _ => List.Sublist.refl _).uniqueTree hu
 | @move ref _ isNode isRef hlookup elders run =>
  rw [expandFits, hlookup] at hfits
  dsimp only at hfits
  rw [isRef] at hfits
  unfold move at run
  split at run
  · next refNode =>
    cases hcopy : copyNode fuel h ref (h.child c) true with
    | error e => rw [hcopy] at run; cases run
    | ok h₁ =>
     rw [hcopy] at run
     cases run
     rw [refNode, Bool.not_true, Bool.false_or] at hfits
     have copied := copyNode_uniqueTree fuel hcopy hfits hu (lt_size_of_node (isNode_iff.mp refNode))
      fun x hx => hu.child_lt hx
     exact (Shrinks.of_separate h₁ c).uniqueTree copied.1
  · split at run
    · split at run
      · cases run
      · exact (Shrinks.of_moveValue run).uniqueTree hu
    · exact (Shrinks.of_moveValue run).uniqueTree hu
 | @copy ref _ isNode isCopy hlookup elders run =>
  rw [expandFits, hlookup] at hfits
  dsimp only at hfits
  rw [isCopy] at hfits
  have marked := Shrinks.of_modify h c (f := fun o => { o with nodeType := .noRef })
   (fun _ => rfl) (fun _ => rfl) fun _ => List.Sublist.refl _
  refine (copyNode_uniqueTree fuel run hfits (marked.uniqueTree hu) ?_ fun x hx => ?_).1
  · rw [marked.size]
    exact lt_size_of_node isNode
  · rw [marked.size]
    exact hu.child_lt hx

theorem inheritExpandAt_uniqueTree {fuel root c : ℕ} {h h' : AstHeap} (hu : UniqueTree h)
 (hfits : expandFits fuel root .inherit h c = true)
 (hrun : inheritExpandAt fuel root h c = .ok h') : UniqueTree h' := by
 cases inheritCall_of_run hrun with
 | other => exact hu
 | @inherit ref h₁ isNode isInherit hlookup run =>
  rw [expandFits, hlookup] at hfits
  dsimp only at hfits
  rw [isInherit] at hfits
  have copied := copyNode_uniqueTree fuel run hfits hu (lt_size_of_node isNode)
   fun x hx => hu.child_lt hx
  have counted : Shrinks h₁ (addSubClass h₁ c ref) :=
   ⟨addSubClass_size h₁ c ref, fun o => congrArg (·.1) (addSubClass_fixed h₁ c ref o),
    fun o => congrArg (·.2.1) (addSubClass_fixed h₁ c ref o),
    fun p => by rw [addSubClass_children]⟩
  exact counted.uniqueTree copied.1

theorem expand_uniqueTree {fuel : ℕ} {ast ast' : Ast} (hrun : ast.expand fuel = .ok ast')
 (hu : UniqueTree ast.heap) (hfits : ∀ call ∈ ast.calls fuel,
  expandFits fuel ast.astRoot call.1 call.2.1 call.2.2 = true) : UniqueTree ast'.heap := by
 refine @Runs.keeps fuel ast.astRoot _ _ _ UniqueTree
  (fun pass h c => expandFits fuel ast.astRoot pass h c = true) (Runs.of_expand hrun) hu
  (fun {pass h h' c} hu hfits hcall => ?_) hfits
 cases pass with
 | node => exact nodeExpandAt_uniqueTree hu hfits hcall
 | inherit => exact inheritExpandAt_uniqueTree hu hfits hcall

theorem addElements_unnamed {a : ℕ} (elements : List AstObject) : ∀ {h : AstHeap},
 (∀ o ∈ elements, o.name = []) → (∀ o, (h.get o).type = .array → (h.get o).name = []) →
 ∀ o, ((addElements a elements h).get o).type = .array →
  ((addElements a elements h).get o).name = [] := by
 induction elements with
 | nil => exact fun _ hh => hh
 | cons e elements ih =>
  intro h he hh
  refine ih (fun o ho => he o (List.mem_cons_of_mem e ho)) fun o => ?_
  rw [addChild_type, addChild_name, get_alloc]
  split
  · exact fun _ => he e List.mem_cons_self
  · exact hh o

theorem SourceValue.elements_unnamed {value : SourceValue} : ∀ o ∈ value.elements, o.name = [] := by
 intro o ho
 cases value with
 | numberArray numvals =>
  obtain ⟨numval, -, rfl⟩ := List.mem_map.mp ho
  rfl
 | stringArray strvals =>
  obtain ⟨strval, -, rfl⟩ := List.mem_map.mp ho
  rfl
 | _ => cases ho

theorem addSource_unnamed (source : SourceObjects) : ∀ {a : ℕ} {h : AstHeap},
 (∀ o, (h.get o).type = .array → (h.get o).name = []) →
 ∀ o, ((addSource a source h).get o).type = .array → ((addSource a source h).get o).name = [] := by
 induction source with
 | nil => exact fun hh => hh
 | term name value next ih =>
  intro a h hh
  refine ih fun o => ?_
  rw [addChild_type, addChild_name, addChild_type, addChild_name]
  refine addElements_unnamed value.elements SourceValue.elements_unnamed (fun x => ?_) o
  rw [get_alloc]
  split
  · intro _
    cases value <;> rfl
  · rw [get_alloc]
    split
    · exact fun ht => ObjectType.noConfusion ht
    · exact hh x
 | node name nodeType refPath child next ihChild ihNext =>
  intro a h hh
  refine ihNext fun o => ?_
  rw [addChild_type, addChild_name]
  refine ihChild (fun x => ?_) o
  rw [get_alloc]
  split
  · exact fun ht => ObjectType.noConfusion ht
  · exact hh x

theorem ofSource_uniqueTree {source : SourceObjects} (redefineChecked : Bool)
 (hs : source.UniqueNames) : UniqueTree (Ast.ofSource redefineChecked source).heap where
 lt_size := (ofSource_built redefineChecked source).wellFormed.lt_size
 unnamed := by
  refine addSource_unnamed source fun o => ?_
  cases o with
  | zero | succ o => exact fun ht => ObjectType.noConfusion ht
 unique := (ofSource_unique_iff redefineChecked source).mpr hs

theorem mergeAsts_unique {fuel : ℕ} {astList : List (Option SourceObjects)} :
 ∀ {astRoot root : Option SourceObjects}, mergeAsts fuel astRoot astList = .ok root →
  mergeAstsFit astRoot astList = true → (∀ s, astRoot = some s → s.UniqueNames) →
  ∀ s, root = some s → s.UniqueNames := by
 induction astList with
 | nil =>
  intro astRoot root hrun _ hu
  cases hrun
  exact hu
 | cons file astList ih =>
  intro astRoot root hrun hfits hu
  rw [mergeAsts] at hrun
  rw [mergeAstsFit, Bool.and_eq_true] at hfits
  cases hcheck : redefineCheckFile fuel file with
  | error e => rw [hcheck] at hrun; cases hrun
  | ok _ =>
   rw [hcheck] at hrun
   refine ih hrun hfits.2 fun s hs => ?_
   cases file with
   | none =>
    cases astRoot with
    | none => cases hs
    | some dst => exact hu s hs
   | some src =>
    have hsrc : src.UniqueNames := unique_of_redefineCheckFile hcheck
    cases astRoot with
    | none =>
     cases hs
     exact hsrc
    | some dst =>
     cases hs
     exact (SourceObjects.merge_uniqueNames_iff (hu dst rfl) hsrc.2).mpr hfits.1

theorem parseMerged_unique {parseOne : Str → Option SourceFile} {fuel : ℕ} {sourceName : Str}
 {source : SourceObjects} (hrun : parseMerged parseOne fuel sourceName = .ok (some source))
 (hfits : ParseFits parseOne fuel sourceName) : source.UniqueNames := by
 rw [parseMerged] at hrun
 cases hread : readSources parseOne fuel [sourceName] with
 | error e => rw [hread] at hrun; cases hrun
 | ok astList =>
  rw [hread] at hrun
  change mergeAst fuel (mainLast astList).head?.join (mainLast astList).tail = _ at hrun
  rw [mergeAst] at hrun
  cases hcheck : redefineCheckFile fuel (mainLast astList).head?.join with
  | error e => rw [hcheck] at hrun; cases hrun
  | ok _ =>
   rw [hcheck] at hrun
   refine mergeAsts_unique hrun (hfits.merge astList hread) (fun s hs => ?_) source rfl
   rw [hs] at hcheck
   exact unique_of_redefineCheckFile hcheck

/-- No node of the tree that `Parse` leaves has two children of one name, where every child
that is merged, copied or moved to a node fits. -/
theorem parse_names_unique {parseOne : Str → Option SourceFile} {fuel : ℕ} {sourceName : Str}
    {ast : Ast} (hrun : parse parseOne fuel sourceName = .ok ast)
    (hfits : ParseFits parseOne fuel sourceName) :
    ∀ o, Below ast.heap ast.astRoot o → (ast.heap.get o).type = .confNode →
      (childNames ast.heap o).Nodup := by
  rw [parse] at hrun
  cases hmerged : parseMerged parseOne fuel sourceName with
  | error e => rw [hmerged] at hrun; cases hrun
  | ok root =>
    rw [hmerged] at hrun
    cases root with
    | none => cases hrun
    | some source =>
      have hu := ofSource_uniqueTree true (parseMerged_unique hmerged hfits)
      change (Ast.ofSource true source).expand fuel = .ok ast at hrun
      have expanded := expand_uniqueTree hrun hu (hfits.expand source hmerged)
      exact fun o _ hnode => expanded.unique o (Nat.zero_le o) hnode

/-- `#include "b" root { module = "m"; n { y = 2; } a : n { } }` and, as `b`,
`root { n { x = 1; } }`. -/
def includedNode (src : Str) : Option SourceFile :=
 if src = [0x62] then
  some ⟨[], some (.node [0x6E] .noRef [] (.term [0x78] (.number 1) .nil) .nil)⟩
 else
  some ⟨[[0x62]], some (.term Ast.moduleName (.string [0x6D]) <|
   .node [0x6E] .noRef [] (.term [0x79] (.number 2) .nil) <|
    .node [0x61] .copy [0x6E] .nil .nil)⟩

def includedMerged : SourceObjects :=
 .node [0x6E] .noRef [] (.term [0x78] (.number 1) <| .term [0x79] (.number 2) .nil) <|
  .term Ast.moduleName (.string [0x6D]) <| .node [0x61] .copy [0x6E] .nil .nil

theorem includedNode_names_unique : ∃ ast, parse includedNode 30 [0x6D] = .ok ast ∧
    ∀ o, Below ast.heap ast.astRoot o → (ast.heap.get o).type = .confNode →
      (childNames ast.heap o).Nodup := by
  have hmerge : (readSources includedNode 30 [[0x6D]]).toOption.all (fun astList =>
      mergeAstsFit (mainLast astList).head?.join (mainLast astList).tail) = true := by decide +kernel
  have hmerged : parseMerged includedNode 30 [0x6D] = .ok (some includedMerged) := by decide +kernel
  have hexpand : ∀ call ∈ (Ast.ofSource true includedMerged).calls 30,
      expandFits 30 0 call.1 call.2.1 call.2.2 = true := by decide +kernel
  have hok : (parse includedNode 30 [0x6D]).isOk = true := by decide +kernel
  have hfits : ParseFits includedNode 30 [0x6D] := by
    refine ⟨fun astList hread => ?_, fun source hsource => ?_⟩
    · rw [hread] at hmerge
      exact hmerge
    · rw [hmerged] at hsource
      cases hsource
      exact hexpand
  cases hrun : parse includedNode 30 [0x6D] with
  | error e =>
    rw [hrun] at hok
    cases hok
  | ok ast => exact ⟨ast, rfl, parse_names_unique hrun hfits⟩

def copiedOverNode : SourceObjects :=
 .term Ast.moduleName (.string [0x6D]) <|
  .node [0x62] .noRef [] (.term [0x78] (.number 1) .nil) <|
   .node [0x61] .copy [0x62] (.node [0x78] .noRef [] .nil .nil) .nil

/-- The node `a` ends with a node `x` and an attribute `x`. -/
theorem copied_over_node_twice : ¬ ∀ (parseOne : Str → Option SourceFile) (fuel : ℕ)
    (sourceName : Str) (ast : Ast), parse parseOne fuel sourceName = .ok ast →
    ∀ o, Below ast.heap ast.astRoot o → (ast.heap.get o).type = .confNode →
      (childNames ast.heap o).Nodup := by
  intro hall
  have facts : (parse (fun _ => some ⟨[], some copiedOverNode⟩) 30 [0x6D]).toOption.any (fun ast =>
      decide (ast.astRoot = 0 ∧ 6 ∈ (ast.heap.get 0).children ∧ (ast.heap.get 6).type = .confNode ∧
        ¬ (childNames ast.heap 6).Nodup)) = true := by
    decide +kernel
  cases hrun : parse (fun _ => some ⟨[], some copiedOverNode⟩) 30 [0x6D] with
  | error e =>
    rw [hrun] at facts
    cases facts
  | ok ast =>
    rw [hrun] at facts
    obtain ⟨hroot, hnode, htype, hdup⟩ := of_decide_eq_true facts
    refine hdup (hall _ 30 [0x6D] ast hrun 6 ?_ htype)
    rw [hroot]
    exact .of_child hnode

end DriversFramework.HcAst
