import DriversFramework.HcAstWalk

namespace DriversFramework.HcAst

open AstHeap

theorem isNode_iff {o : AstObject} : o.isNode = true ↔ o.type = .confNode := decide_eq_true_iff

theorem isTerm_iff {o : AstObject} : o.isTerm = true ↔ o.type = .confTerm := decide_eq_true_iff

theorem lt_size_of_node {h : AstHeap} {o : ℕ} (ho : (h.get o).type = .confNode) : o < h.size := by
 by_contra hge
 rw [get_of_size_le (by omega)] at ho
 cases ho

theorem source_of_nodes {h : AstHeap} {dst src : ℕ} (hd : (h.get dst).type = .confNode)
 (hs : (h.get src).type = .confNode) : Source h dst src (h.get src).children :=
 ⟨lt_size_of_node hd, hd, lt_size_of_node hs, hs, ⟨[], rfl⟩⟩

theorem Below.congr {h h' : AstHeap} (hc : ∀ p, (h'.get p).children = (h.get p).children)
 {a o : ℕ} : Below h' a o ↔ Below h a o :=
 ⟨fun hb => hb.of_subset fun p => by rw [hc p]; exact List.Subset.refl _,
  fun hb => hb.of_subset fun p => by rw [hc p]; exact List.Subset.refl _⟩

theorem Below.not_node {h : AstHeap} (hw : WellFormed h) {c o : ℕ} (hb : Below h c o)
 (hc : (h.get c).type ≠ .confNode) : (h.get o).type ≠ .confNode := by
 induction hb with
 | refl => exact hc
 | tail _ hx ih => exact fun hnode => ih ((hw.holds hx).node_iff.mpr (.inl hnode))

/-- `h'` is `h` without `c`, whose own children do not matter any more. -/
structure Drops (h h' : AstHeap) (c : ℕ) : Prop where
 wellFormed : WellFormed h'
 sublist : ∀ p, (h'.get p).children.Sublist (h.get p).children
 not_mem : ∀ p, c ∉ (h'.get p).children
 others : ∀ p, (h.get c).parent ≠ some p → p ≠ c → (h'.get p).children = (h.get p).children
 here : ∀ p, (h.get c).parent = some p → p ≠ c →
  (h'.get p).children = (h.get p).children.erase c
 fixed : ∀ o, (h'.get o).fixed = (h.get o).fixed

theorem drops_separate {h : AstHeap} (hw : WellFormed h) (c : ℕ) : Drops h (h.separate c) c where
 wellFormed := hw.separate c
 sublist := separate_sublist h c
 not_mem := hw.separate_not_mem c
 others p hp _ := by rw [separate_children, if_neg hp]
 here p hp _ := by rw [separate_children, if_pos hp]
 fixed := separate_keep AstObject.fixed (fun _ _ => rfl) h c

theorem drops_remove {h : AstHeap} (hw : WellFormed h) (c : ℕ) : Drops h (h.remove c) c where
 wellFormed := hw.remove c
 sublist := remove_sublist h c
 not_mem := hw.remove_not_mem c
 others p hp hne := by rw [remove_children, if_neg hne, separate_children, if_neg hp]
 here p hp hne := by rw [remove_children, if_neg hne, separate_children, if_pos hp]
 fixed := remove_keep AstObject.fixed (fun _ _ => rfl) h c

namespace Drops

variable {h h' : AstHeap} {root a c o p : ℕ}

theorem type (hd : Drops h h' c) (o : ℕ) : (h'.get o).type = (h.get o).type :=
 congrArg (·.1) (hd.fixed o)

theorem nodeType (hd : Drops h h' c) (o : ℕ) : (h'.get o).nodeType = (h.get o).nodeType :=
 congrArg (·.2.2.2.1) (hd.fixed o)

theorem refNode (hd : Drops h h' c) (o : ℕ) : (h'.get o).refNode = (h.get o).refNode :=
 congrArg (·.2.2.2.2.2) (hd.fixed o)

theorem below_old (hd : Drops h h' c) (hb : Below h' a o) : Below h a o :=
 hb.of_sublist hd.sublist

theorem not_below (hd : Drops h h' c) (hw : WellFormed h) (hc : c ∈ (h.get p).children)
 (hroot : Below h root p) (hb : Below h' root o) : ¬ Below h c o := by
 induction hb with
 | refl =>
  intro hcr
  have := hcr.le hw
  have := hroot.le hw
  have := hw.older hc
  omega
 | @tail q x _ hx ih =>
  intro hcx
  have hne : c ≠ x := by
   rintro rfl
   exact hd.not_mem q hx
  exact ih (hcx.parent_of_ne hw ((hd.sublist q).subset hx) hne)

theorem stays (hd : Drops h h' c) (hb : Below h a o) (hc : ¬ Below h c o) : Below h' a o := by
 induction hb with
 | refl => exact .refl h' a
 | @tail q x _ hx ih =>
  have hq : ¬ Below h c q := fun hcq => hc (hcq.step hx)
  have hqc : q ≠ c := by
   rintro rfl
   exact hq (.refl h q)
  have hxc : x ≠ c := by
   rintro rfl
   exact hc (.refl h x)
  refine (ih hq).step ?_
  by_cases hp : (h.get c).parent = some q
  · rw [hd.here q hp hqc]
    exact (List.mem_erase_of_ne hxc).mpr hx
  · rw [hd.others q hp hqc]
    exact hx

theorem child (hd : Drops h h' c) (hw : WellFormed h) (hc : c ∈ (h.get p).children)
 (hop : o ≠ p) (hne : o ≠ c) : h'.child o = h.child o := by
 unfold AstHeap.child
 rw [hd.others o ?_ hne]
 rw [hw.parent hc]
 exact fun heq => hop (Option.some.inj heq).symm

end Drops

theorem isElders_not_below {h : AstHeap} (hw : WellFormed h) {a : ℕ} (fuel : ℕ) :
 ∀ {c : ℕ}, isElders fuel h a (some c) = .ok false → ¬ Below h a c := by
 induction fuel with
 | zero =>
  intro c hrun
  cases hrun
 | succ fuel ih =>
  intro c hrun hb
  rw [isElders] at hrun
  split at hrun
  · cases hrun
  · next hne =>
    cases hb with
    | refl => exact hne rfl
    | tail hap hc =>
     rw [hw.parent hc] at hrun
     exact ih hrun hap

theorem lookupNames_below {h : AstHeap} {root : ℕ} (names : List Str) : ∀ {t r : ℕ},
 Below h root t → names.foldl (fun target name => target.bind fun t => h.lookupChild t name none)
  (some t) = some r → Below h root r := by
 induction names with
 | nil =>
  intro t r ht hr
  cases hr
  exact ht
 | cons name names ih =>
  intro t r ht hr
  rw [List.foldl_cons, Option.bind_some] at hr
  cases hfound : h.lookupChild t name none with
  | none =>
   rw [hfound] at hr
   have hnone : names.foldl (fun target name => target.bind fun t => h.lookupChild t name none)
    none = none := by
    clear hr ih
    induction names with
    | nil => rfl
    | cons _ _ ih => exact ih
   rw [hnone] at hr
   cases hr
  | some t' =>
   rw [hfound] at hr
   exact ih (ht.step (peer_mem hfound)) hr

theorem lookup_below {h : AstHeap} (hw : WellFormed h) {root p c r : ℕ} {path : Str}
 (hc : c ∈ (h.get p).children) (hroot : Below h root p)
 (hlookup : lookup h root c path = some r) : Below h root r := by
 unfold lookup at hlookup
 split at hlookup
 · rw [hw.parent hc] at hlookup
   exact hroot.step (peer_mem hlookup)
 · split at hlookup
   · cases hlookup
   · split at hlookup
     · cases hlookup
     · exact lookupNames_below _ (.refl h root) hlookup

section OneCall

variable {fuel root c : ℕ} {h h' : AstHeap}

inductive NodeCall (fuel root : ℕ) (h : AstHeap) (c : ℕ) : AstHeap → Prop where
 | other (notNode : (h.get c).type ≠ .confNode) (notTerm : (h.get c).type ≠ .confTerm) :
   NodeCall fuel root h c h
 | node (isNode : (h.get c).type = .confNode) (notRef : (h.get c).nodeType ≠ .ref)
   (notCopy : (h.get c).nodeType ≠ .copy) (notDelete : (h.get c).nodeType ≠ .delete) :
   NodeCall fuel root h c h
 | term {value : ℕ} (isTerm : (h.get c).type = .confTerm) (hvalue : h.child c = some value)
   (notDelete : (h.get value).type ≠ .delete) (notRef : (h.get value).type ≠ .nodeRef) :
   NodeCall fuel root h c h
 | removeNode (isNode : (h.get c).type = .confNode) (isDelete : (h.get c).nodeType = .delete) :
   NodeCall fuel root h c (h.remove c)
 | removeTerm {value : ℕ} (isTerm : (h.get c).type = .confTerm) (hvalue : h.child c = some value)
   (isDelete : (h.get value).type = .delete) : NodeCall fuel root h c (h.remove c)
 | move {ref : ℕ} {h' : AstHeap} (isNode : (h.get c).type = .confNode)
   (isRef : (h.get c).nodeType = .ref) (hlookup : lookup h root c (h.get c).refNodePath = some ref)
   (elders : isElders fuel h ref (some c) = .ok false) (run : move fuel h ref c = .ok h') :
   NodeCall fuel root h c h'
 | copy {ref : ℕ} {h' : AstHeap} (isNode : (h.get c).type = .confNode)
   (isCopy : (h.get c).nodeType = .copy)
   (hlookup : lookup h root c (h.get c).refNodePath = some ref)
   (elders : isElders fuel h ref (some c) = .ok false)
   (run : copyNode fuel (h.modify c fun o => { o with nodeType := .noRef }) c (h.child ref) false
    = .ok h') : NodeCall fuel root h c h'
 | bind {value ref : ℕ} (isTerm : (h.get c).type = .confTerm) (hvalue : h.child c = some value)
   (isRef : (h.get value).type = .nodeRef)
   (hlookup : lookup h root c (h.get value).stringValue = some ref)
   (refers : (h.get ref).type = .confNode) :
   NodeCall fuel root h c (h.modify c fun o => { o with refNode := some ref })

theorem nodeCall_of_run (hrun : nodeExpandAt fuel root h c = .ok h') :
 NodeCall fuel root h c h' := by
 unfold nodeExpandAt at hrun
 dsimp only at hrun
 split at hrun
 · next isNode =>
   have hnode := isNode_iff.mp isNode
   split at hrun
   · next hdelete =>
     cases hrun
     exact .removeNode hnode hdelete
   · next hdelete =>
     split at hrun
     · next hother =>
       cases hrun
       exact .node hnode hother.1 hother.2 hdelete
     · next hother =>
       cases hlookup : lookup h root c (h.get c).refNodePath with
       | none => rw [hlookup] at hrun; cases hrun
       | some ref =>
        rw [hlookup, nodeRefExpand] at hrun
        cases helders : isElders fuel h ref (some c) with
        | error e => rw [helders] at hrun; cases hrun
        | ok elders =>
         rw [helders] at hrun
         cases elders with
         | true => cases hrun
         | false =>
          change (if (h.get c).nodeType = .ref then DriversFramework.HcAst.move fuel h ref c
           else if (h.get c).nodeType = .copy then
            copyNode fuel (h.modify c fun o => { o with nodeType := .noRef }) c (h.child ref)
             false
           else .ok h : Result) = _ at hrun
          split at hrun
          · next isRef => exact .move hnode isRef hlookup helders hrun
          · next notRef =>
            split at hrun
            · next isCopy => exact .copy hnode isCopy hlookup helders hrun
            · next notCopy => exact absurd ⟨notRef, notCopy⟩ hother
 · next notNode =>
   split at hrun
   · next isTerm =>
     have hterm := isTerm_iff.mp isTerm
     split at hrun
     · cases hrun
     · next value hvalue =>
       split at hrun
       · next hdelete =>
         cases hrun
         exact .removeTerm hterm hvalue hdelete
       · next hdelete =>
         split at hrun
         · next hnodeRef =>
           cases hlookup : lookup h root c (h.get value).stringValue with
           | none => rw [hlookup] at hrun; cases hrun
           | some ref =>
            rw [hlookup, termRefExpand] at hrun
            split at hrun
            · next hrefers =>
              simp only [refersTo, Bool.and_eq_true] at hrefers
              cases hrun
              exact .bind hterm hvalue hnodeRef hlookup (isNode_iff.mp hrefers.1.1.1)
            · cases hrun
         · next hnodeRef =>
           cases hrun
           exact .term hterm hvalue hdelete hnodeRef
   · next notTerm =>
     cases hrun
     exact .other (fun heq => notNode (isNode_iff.mpr heq)) fun heq =>
      notTerm (isTerm_iff.mpr heq)

inductive InheritCall (fuel root : ℕ) (h : AstHeap) (c : ℕ) : AstHeap → Prop where
 | other (notInherit : ¬ ((h.get c).type = .confNode ∧ (h.get c).nodeType = .inherit)) :
   InheritCall fuel root h c h
 | inherit {ref : ℕ} {h₁ : AstHeap} (isNode : (h.get c).type = .confNode)
   (isInherit : (h.get c).nodeType = .inherit)
   (hlookup : lookup h root c (h.get c).refNodePath = some ref)
   (run : copyNode fuel h c (h.child ref) false = .ok h₁) :
   InheritCall fuel root h c (addSubClass h₁ c ref)

theorem inheritCall_of_run (hrun : inheritExpandAt fuel root h c = .ok h') :
 InheritCall fuel root h c h' := by
 unfold inheritExpandAt at hrun
 dsimp only at hrun
 split at hrun
 · next hinherit =>
   cases hlookup : lookup h root c (h.get c).refNodePath with
   | none => rw [hlookup] at hrun; cases hrun
   | some ref =>
    rw [hlookup, inheritExpand] at hrun
    cases hcopy : copyNode fuel h c (h.child ref) false with
    | error e => rw [hcopy] at hrun; cases hrun
    | ok h₁ =>
     rw [hcopy] at hrun
     change (if (h₁.get ref).isNode then
      compare fuel h₁ c (h₁.get c).children >>= fun same =>
       if same then .ok (DriversFramework.HcAst.addSubClass h₁ c ref)
       else .error .returnsFalse
      else .error .crash : Result) = _ at hrun
     split at hrun
     · cases hcompare : compare fuel h₁ c (h₁.get c).children with
       | error e => rw [hcompare] at hrun; cases hrun
       | ok same =>
        rw [hcompare] at hrun
        cases same with
        | false => cases hrun
        | true =>
         cases hrun
         exact .inherit (isNode_iff.mp hinherit.1) hinherit.2 hlookup hcopy
     · cases hrun
 · next notInherit =>
   cases hrun
   exact .other fun hboth => notInherit ⟨isNode_iff.mpr hboth.1, hboth.2⟩

theorem move_copies {ref : ℕ} (href : (h.get ref).type = .confNode)
 (hrun : move fuel h ref c = .ok h') :
 ∃ h₁, Copies true h ref (h.child c) h₁ ∧ h' = h₁.separate c := by
 rw [move, if_pos (isNode_iff.mpr href)] at hrun
 cases hcopy : copyNode fuel h ref (h.child c) true with
 | error e => rw [hcopy] at hrun; cases hrun
 | ok h₁ =>
  rw [hcopy] at hrun
  cases hrun
  exact ⟨h₁, copies_of_run fuel hcopy, rfl⟩

end OneCall

theorem addSubClass_keep {β : Type} (g : AstObject → β)
 (hindex : ∀ o n, g { o with inheritIndex := n } = g o)
 (hcount : ∀ o n l, g { o with inheritCount := n, subClasses := l } = g o)
 (h : AstHeap) (node template b : ℕ) : g ((addSubClass h node template).get b) = g (h.get b) :=
 (modify_keep g (fun o => hcount o _ _) _ template b).trans
  (modify_keep g (fun o => hindex o _) h node b)

theorem addSubClass_size (h : AstHeap) (node template : ℕ) :
 (addSubClass h node template).size = h.size :=
 (size_modify _ _ _).trans (size_modify _ _ _)

theorem addSubClass_children (h : AstHeap) (node template p : ℕ) :
 ((addSubClass h node template).get p).children = (h.get p).children :=
 addSubClass_keep AstObject.children (fun _ _ => rfl) (fun _ _ _ => rfl) h node template p

theorem addSubClass_fixed (h : AstHeap) (node template o : ℕ) :
 ((addSubClass h node template).get o).fixed = (h.get o).fixed :=
 addSubClass_keep AstObject.fixed (fun _ _ => rfl) (fun _ _ _ => rfl) h node template o

theorem WellFormed.addSubClass {h : AstHeap} (hw : WellFormed h) (node template : ℕ) :
 WellFormed (addSubClass h node template) :=
 hw.of_keep (addSubClass_size h node template).ge
  (fun p => by rw [addSubClass_children])
  (fun o => congrArg (·.2.2.1) (addSubClass_fixed h node template o))
  (fun o => congrArg (·.1) (addSubClass_fixed h node template o))

def Ast.nodeCalls (fuel : ℕ) (ast : Ast) : List (AstHeap × ℕ) :=
 callsBackward (nodeExpandAt fuel ast.astRoot) fuel ast.heap (some ast.astRoot)

/-- The calls of the walk of `Ast::InheritExpand`, over the tree that `Ast::NodeExpand`
leaves. -/
def Ast.inheritCalls (fuel : ℕ) (ast : Ast) : List (AstHeap × ℕ) :=
 match walkBackward (nodeExpandAt fuel ast.astRoot) fuel ast.heap (some ast.astRoot) with
 | .error _ => []
 | .ok h => callsForward (inheritExpandAt fuel ast.astRoot) fuel h (some ast.astRoot)

theorem redefineCheckAt_same {h h' : AstHeap} {c : ℕ} (hrun : redefineCheckAt h c = .ok h') :
 h' = h := by
 unfold redefineCheckAt at hrun
 split at hrun <;> cases hrun
 rfl

theorem redefineCheck_same {fuel : ℕ} {ast ast' : Ast} (hrun : ast.redefineCheck fuel = .ok ast') :
 ast'.heap = ast.heap ∧ ast'.astRoot = ast.astRoot := by
 unfold Ast.redefineCheck at hrun
 split at hrun
 · cases hrun
   exact ⟨rfl, rfl⟩
 · cases hwalk : walkForward redefineCheckAt fuel ast.heap (some ast.astRoot) with
   | error e => rw [hwalk] at hrun; cases hrun
   | ok h' =>
    rw [hwalk] at hrun
    cases hrun
    refine ⟨?_, rfl⟩
    have keep : ∀ {h h' : AstHeap} {c : ℕ}, h = ast.heap → True → redefineCheckAt h c = .ok h' →
     h' = ast.heap := fun hinv _ hcall => (redefineCheckAt_same hcall).trans hinv
    exact (walksForward_of_run _ fuel hwalk).keeps keep rfl fun _ _ => trivial

theorem expand_walks {fuel : ℕ} {ast ast' : Ast} (hrun : ast.expand fuel = .ok ast') :
 ∃ h₁, walkBackward (nodeExpandAt fuel ast.astRoot) fuel ast.heap (some ast.astRoot) = .ok h₁ ∧
  walkForward (inheritExpandAt fuel ast.astRoot) fuel h₁ (some ast.astRoot) = .ok ast'.heap ∧
  ast'.astRoot = ast.astRoot := by
 rw [Ast.expand] at hrun
 cases hcheck : ast.redefineCheck fuel with
 | error e => rw [hcheck] at hrun; cases hrun
 | ok ast₁ =>
  rw [hcheck] at hrun
  obtain ⟨hheap, hroot⟩ := redefineCheck_same hcheck
  rw [← hheap, ← hroot]
  dsimp only [bind, Except.bind] at hrun
  split at hrun
  · cases hrun
  · rw [Ast.nodeExpand] at hrun
    cases hnode : walkBackward (nodeExpandAt fuel ast₁.astRoot) fuel ast₁.heap
     (some ast₁.astRoot) with
    | error e => rw [hnode] at hrun; cases hrun
    | ok h₁ =>
     rw [hnode] at hrun
     change Ast.inheritExpand fuel { ast₁ with heap := h₁ } = _ at hrun
     rw [Ast.inheritExpand] at hrun
     cases hinherit : walkForward (inheritExpandAt fuel ast₁.astRoot) fuel h₁
      (some ast₁.astRoot) with
     | error e => rw [hinherit] at hrun; cases hrun
     | ok h₂ =>
      rw [hinherit] at hrun
      cases hrun
      exact ⟨h₁, rfl, hinherit, rfl⟩

end DriversFramework.HcAst
