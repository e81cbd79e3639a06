import DriversFramework.HcAstCalls
import DriversFramework.HcAstContent

namespace DriversFramework.HcAst

open AstHeap

inductive Pass where
 | node | inherit
 deriving DecidableEq

/-- The callback of the walk of a pass. -/
def expandAt (fuel root : ℕ) : Pass → AstHeap → ℕ → Result
 | .node => nodeExpandAt fuel root
 | .inherit => inheritExpandAt fuel root

def Pass.form : Pass → NodeRefType
 | .node => .copy
 | .inherit => .inherit

/-- All calls of an expansion, each with the tree before it. -/
def Ast.calls (fuel : ℕ) (ast : Ast) : List (Pass × AstHeap × ℕ) :=
 (ast.nodeCalls fuel).map (fun call => (.node, call)) ++
  (ast.inheritCalls fuel).map (fun call => (.inherit, call))

/-- The calls follow one another, from the first tree to the last. -/
inductive Runs (fuel root : ℕ) : AstHeap → List (Pass × AstHeap × ℕ) → AstHeap → Prop where
 | nil {h : AstHeap} : Runs fuel root h [] h
 | cons {pass : Pass} {h h₁ h' : AstHeap} {c : ℕ} {calls : List (Pass × AstHeap × ℕ)}
   (call : expandAt fuel root pass h c = .ok h₁) (rest : Runs fuel root h₁ calls h') :
   Runs fuel root h ((pass, h, c) :: calls) h'

namespace Runs

variable {fuel root : ℕ} {h h₁ h' : AstHeap} {calls calls' : List (Pass × AstHeap × ℕ)}

theorem append (hr : Runs fuel root h calls h₁) (hr' : Runs fuel root h₁ calls' h') :
  Runs fuel root h (calls ++ calls') h' := by
 induction hr with
 | nil => exact hr'
 | cons call _ ih => exact .cons call (ih hr')

theorem of_backward {start : Option ℕ} {walk : List (AstHeap × ℕ)}
  (hw : WalksBackward (nodeExpandAt fuel root) h start walk h') :
  Runs fuel root h (walk.map fun call => (.node, call)) h' := by
 induction hw with
 | done => exact .nil
 | visit _ call _ ihDescend ihProceed =>
  rw [List.map_append, List.map_cons]
  exact ihDescend.append (.cons call ihProceed)

theorem of_forward {start : Option ℕ} {walk : List (AstHeap × ℕ)}
  (hw : WalksForward (inheritExpandAt fuel root) h start walk h') :
  Runs fuel root h (walk.map fun call => (.inherit, call)) h' := by
 induction hw with
 | done => exact .nil
 | visit call _ _ ihDescend ihProceed =>
  rw [List.map_cons, List.map_append]
  exact .cons call (ihDescend.append ihProceed)

theorem of_expand {ast ast' : Ast} (hrun : ast.expand fuel = .ok ast') :
  Runs fuel ast.astRoot ast.heap (ast.calls fuel) ast'.heap := by
 obtain ⟨h₁, hnode, hinherit, -⟩ := expand_walks hrun
 rw [Ast.calls, Ast.inheritCalls, hnode]
 exact (of_backward (walksBackward_of_run _ fuel hnode)).append
  (of_forward (walksForward_of_run _ fuel hinherit))

theorem keeps {Inv : AstHeap → Prop} {Allowed : Pass → AstHeap → ℕ → Prop}
  (hr : Runs fuel root h calls h') (hinv : Inv h)
  (hcall : ∀ {pass : Pass} {h h' : AstHeap} {c : ℕ}, Inv h → Allowed pass h c →
   expandAt fuel root pass h c = .ok h' → Inv h')
  (hallowed : ∀ call ∈ calls, Allowed call.1 call.2.1 call.2.2) : Inv h' := by
 induction hr with
 | nil => exact hinv
 | cons call _ ih =>
  rw [List.forall_mem_cons] at hallowed
  exact ih (hcall hinv hallowed.1 call) hallowed.2

theorem split {pass : Pass} {c : ℕ} (hr : Runs fuel root h calls h') {k : ℕ}
  (hk : calls[k]? = some (pass, h₁, c)) : ∃ h₂, Runs fuel root h (calls.take k) h₁ ∧
   expandAt fuel root pass h₁ c = .ok h₂ ∧ Runs fuel root h₂ (calls.drop (k + 1)) h' := by
 induction hr generalizing k with
 | nil => cases hk
 | cons call rest ih =>
  cases k with
  | zero =>
   cases hk
   exact ⟨_, .nil, call, rest⟩
  | succ k =>
   obtain ⟨h₂, before, here, behind⟩ := ih hk
   exact ⟨h₂, .cons call before, here, behind⟩

end Runs

/-- A node that refers to another names a node. -/
def Resolves (root : ℕ) (h : AstHeap) (c : ℕ) : Prop :=
 (h.get c).isNode = true → (h.get c).nodeType ∈ [NodeRefType.copy, .ref, .inherit] →
  ∀ ref ∈ lookup h root c (h.get c).refNodePath, (h.get ref).isNode = true

instance (root : ℕ) (h : AstHeap) (c : ℕ) : Decidable (Resolves root h c) :=
 inferInstanceAs (Decidable (_ → _ → _))

/-- Neither object stands under the other. -/
def Unrelated (h : AstHeap) (a b : ℕ) : Prop := ¬ Below h a b ∧ ¬ Below h b a

/-- The call at `y` leaves the content of `p` alone: what it expands or removes, and what it
moves to, is unrelated to `p`. -/
def Spares (root : ℕ) : Pass → AstHeap → ℕ → ℕ → Prop
 | .node, h, y, p =>
  ((h.get y).type = .confNode → (h.get y).nodeType ∈ [NodeRefType.delete, .ref, .copy] →
   Unrelated h y p) ∧
  ((h.get y).type = .confNode → (h.get y).nodeType = .ref →
   ∀ ref ∈ lookup h root y (h.get y).refNodePath, Unrelated h ref p) ∧
  ((h.get y).type = .confTerm → ∀ v ∈ h.child y, (h.get v).type = .delete → Unrelated h y p)
 | .inherit, h, y, p =>
  (h.get y).type = .confNode → (h.get y).nodeType = .inherit → Unrelated h y p

/-- What stands under `p`, and what it is, is the same in `h'`. -/
def SameUnder (h h' : AstHeap) (p : ℕ) : Prop :=
 ∀ o, Below h p o → (h'.get o).copied = (h.get o).copied ∧ (h'.get o).children = (h.get o).children

theorem SameUnder.shows {h h' : AstHeap} {p : ℕ} {content : Content} (hs : SameUnder h h' p)
  (hp : Shows h (h.get p).children content) : Shows h' (h'.get p).children content := by
 rw [(hs p (.refl h p)).2]
 exact hp.frame fun c hc o ho => hs o ((Below.of_child hc).trans ho)

section OneCall

variable {fuel root c p : ℕ} {h h₁ h' : AstHeap}

theorem Grows.sameUnder {q : ℕ} (hg : Grows h h' (Below h q)) (hw : WellFormed h)
  (hp : p < h.size) (hqp : Unrelated h q p) : SameUnder h h' p := by
 intro o ho
 rw [hg.frame (ho.lt_size hw hp) fun hq => (Below.total hw hq ho).elim hqp.1 hqp.2]
 exact ⟨rfl, rfl⟩

theorem Drops.sameUnder (hd : Drops h h' c)
  (hsame : ∀ o, (h'.get o).copied = (h.get o).copied) (hcp : Unrelated h c p) :
  SameUnder h h' p := by
 intro o ho
 have hoc : o ≠ c := fun heq => hcp.2 (heq ▸ ho)
 refine ⟨hsame o, ?_⟩
 by_cases hparent : (h.get c).parent = some o
 · rw [hd.here o hparent hoc, List.erase_of_not_mem fun hc => hcp.2 (ho.step hc)]
 · exact hd.others o hparent hoc

theorem copies_of_copy {ref : ℕ} (hw : WellFormed h) (hnode : (h.get c).type = .confNode)
  (href : (h.get ref).type = .confNode)
  (hrun : copyNode fuel (h.modify c fun o => { o with nodeType := .noRef }) c (h.child ref) false
   = .ok h') :
  ∃ h₁, Copies false h₁ c (h₁.child ref) h' ∧ WellFormed h₁ ∧ Source h₁ c ref (h₁.get ref).children ∧
   h₁.size = h.size ∧ (∀ o, (h₁.get o).children = (h.get o).children) ∧
   ∀ o, o ≠ c → h₁.get o = h.get o := by
 have htype : ∀ o, ((h.modify c fun o => { o with nodeType := .noRef }).get o).type =
   (h.get o).type :=
  modify_keep AstObject.type (f := fun o => { o with nodeType := .noRef }) (fun _ => rfl) h c
 have hchildren : ∀ o, ((h.modify c fun o => { o with nodeType := .noRef }).get o).children =
   (h.get o).children :=
  modify_keep AstObject.children (f := fun o => { o with nodeType := .noRef }) (fun _ => rfl) h c
 refine ⟨h.modify c fun o => { o with nodeType := .noRef }, ?_,
  hw.modify c (fun _ => rfl) (fun _ => rfl) (fun _ => rfl),
  source_of_nodes ((htype c).trans hnode) ((htype ref).trans href), size_modify _ _ _, hchildren,
  fun o ho => get_modify_ne h (Ne.symm ho) _⟩
 rw [AstHeap.child, hchildren]
 exact copies_of_run fuel hrun

theorem addSubClass_copied (h : AstHeap) (node template o : ℕ) :
  ((addSubClass h node template).get o).copied = (h.get o).copied := by
 refine addSubClass_keep AstObject.copied (fun o n => ?_) (fun o n l => ?_) h node template o <;>
 · unfold AstObject.copied
   cases o.type <;> rfl

theorem expandAt_spares {pass : Pass} (hw : WellFormed h) (hr : Resolves root h c)
  (hrun : expandAt fuel root pass h c = .ok h') :
  WellFormed h' ∧ h.size ≤ h'.size ∧
   ∀ {p : ℕ}, p < h.size → Spares root pass h c p → SameUnder h h' p := by
 have same : WellFormed h ∧ h.size ≤ h.size ∧
   ∀ {p : ℕ}, p < h.size → Spares root pass h c p → SameUnder h h p :=
  ⟨hw, le_rfl, fun _ _ o _ => ⟨rfl, rfl⟩⟩
 have named : ∀ {ref : ℕ}, (h.get c).type = .confNode →
   (h.get c).nodeType ∈ [NodeRefType.copy, .ref, .inherit] →
   lookup h root c (h.get c).refNodePath = some ref → (h.get ref).type = .confNode :=
  fun hnode ht hlookup => isNode_iff.mp (hr (isNode_iff.mpr hnode) ht _ hlookup)
 have removed : ∀ o, ((h.remove c).get o).copied = (h.get o).copied :=
  remove_keep AstObject.copied AstObject.copied_setChildren h c
 cases pass with
 | node =>
  cases nodeCall_of_run hrun with
  | other | node | term => exact same
  | removeNode isNode isDelete =>
   have hd := drops_remove hw c
   refine ⟨hd.wellFormed, (size_remove h c).ge, fun _ hs => hd.sameUnder removed (hs.1 isNode ?_)⟩
   rw [isDelete]
   decide
  | removeTerm isTerm hvalue isDelete =>
   have hd := drops_remove hw c
   exact ⟨hd.wellFormed, (size_remove h c).ge, fun _ hs =>
    hd.sameUnder removed (hs.2.2 isTerm _ hvalue isDelete)⟩
  | @move ref _ isNode isRef hlookup elders run =>
   have href := named isNode (by rw [isRef]; decide) hlookup
   obtain ⟨h₁, copies, rfl⟩ := move_copies href run
   have hg := copies.grows hw (source_of_nodes href isNode) rfl
   have hd := drops_separate hg.wellFormed c
   refine ⟨hd.wellFormed, (size_separate h₁ c).ge.trans' hg.size_le, fun {p} hp hs => ?_⟩
   have hcp := hs.1 isNode (by rw [isRef]; decide)
   have first := hg.sameUnder hw hp (hs.2.1 isNode isRef ref hlookup)
   have hcp₁ : Unrelated h₁ c p := ⟨fun hb => hcp.1 (hg.below_old hp hb),
    fun hb => hcp.2 (hg.below_old (lt_size_of_node isNode) hb)⟩
   have second := hd.sameUnder
    (separate_keep AstObject.copied AstObject.copied_setChildren h₁ c) hcp₁
   intro o ho
   obtain ⟨hlabel, hchildren⟩ := first o ho
   have ho₁ : Below h₁ p o := by
    clear hlabel hchildren
    induction ho with
    | refl => exact .refl h₁ p
    | @tail q x hq hx ih =>
     refine ih.step ?_
     rw [(first q hq).2]
     exact hx
   obtain ⟨hlabel', hchildren'⟩ := second o ho₁
   exact ⟨hlabel'.trans hlabel, hchildren'.trans hchildren⟩
  | @copy ref _ isNode isCopy hlookup elders run =>
   have href := named isNode (by rw [isCopy]; decide) hlookup
   obtain ⟨h₁, copies, hw₁, hs₁, hsize, hchildren, hother⟩ := copies_of_copy hw isNode href run
   have hg := copies.grows hw₁ hs₁ rfl
   refine ⟨hg.wellFormed, hsize.ge.trans hg.size_le, fun {p} hp hs => ?_⟩
   have hcp := hs.1 isNode (by rw [isCopy]; decide)
   intro o ho
   have hoc : o ≠ c := fun heq => hcp.2 (heq ▸ ho)
   obtain ⟨hlabel, hcs⟩ := hg.sameUnder hw₁ (hsize.symm ▸ hp)
    ⟨fun hb => hcp.1 ((Below.congr hchildren).mp hb),
     fun hb => hcp.2 ((Below.congr hchildren).mp hb)⟩ o ((Below.congr hchildren).mpr ho)
   rw [hlabel, hcs, hother o hoc]
   exact ⟨rfl, rfl⟩
  | @bind value ref isTerm hvalue isRef hlookup refers =>
   refine ⟨hw.modify c (fun _ => rfl) (fun _ => rfl) (fun _ => rfl), (size_modify _ _ _).ge,
    fun _ _ o _ => ⟨modify_keep AstObject.copied (fun o => ?_) h c o,
     modify_keep AstObject.children (f := fun o => { o with refNode := some ref })
      (fun _ => rfl) h c o⟩⟩
   unfold AstObject.copied
   cases o.type <;> rfl
 | inherit =>
  cases inheritCall_of_run hrun with
  | other => exact same
  | @inherit ref h₁ isNode isInherit hlookup run =>
   have href := named isNode (by rw [isInherit]; decide) hlookup
   have hg := (copies_of_run fuel run).grows hw (source_of_nodes isNode href) rfl
   refine ⟨hg.wellFormed.addSubClass c ref, ?_, fun hp hs o ho => ?_⟩
   · rw [addSubClass_size]
     exact hg.size_le
   · rw [addSubClass_copied, addSubClass_children]
     exact hg.sameUnder hw hp (hs isNode isInherit) o ho

/-- The pass makes the node `x` inherit from the node `b`. -/
def HeirOf (root : ℕ) (h : AstHeap) (pass : Pass) (x b : ℕ) : Prop :=
 (h.get x).type = .confNode ∧ (h.get x).nodeType = pass.form ∧
  lookup h root x (h.get x).refNodePath = some b ∧ (h.get b).type = .confNode

instance (root : ℕ) (h : AstHeap) (pass : Pass) (x b : ℕ) : Decidable (HeirOf root h pass x b) :=
 inferInstanceAs (Decidable (_ ∧ _ ∧ _ ∧ _))

theorem heir_shows {pass : Pass} {x b : ℕ} {own base : Content} (hw : WellFormed h)
  (hh : HeirOf root h pass x b) (hxb : Unrelated h x b)
  (hrun : expandAt fuel root pass h x = .ok h') (hown : Shows h (h.get x).children own)
  (hbase : Shows h (h.get b).children base) :
  Shows h' (h'.get x).children (own.deepUnion base) ∧
   ∀ o < h.size, ¬ Below h x o →
    (h'.get o).copied = (h.get o).copied ∧ (h'.get o).children = (h.get o).children := by
 obtain ⟨hx, hform, hbLookup, hb⟩ := hh
 cases pass with
 | node =>
  change (h.get x).nodeType = .copy at hform
  cases nodeCall_of_run hrun with
  | other notNode => exact absurd hx notNode
  | node _ _ notCopy => exact absurd hform notCopy
  | term isTerm | removeTerm isTerm | bind isTerm => rw [hx] at isTerm; cases isTerm
  | removeNode _ isDelete => rw [hform] at isDelete; cases isDelete
  | move _ isRef => rw [hform] at isRef; cases isRef
  | @copy ref _ _ _ hlookup _ run =>
   obtain rfl : b = ref := Option.some.inj (hbLookup.symm.trans hlookup)
   obtain ⟨h₁, copies, hw₁, hs₁, hsize, hchildren, hother⟩ := copies_of_copy hw hx hb run
   have hbelow := fun a o => (Below.congr hchildren : Below h₁ a o ↔ Below h a o)
   have hg := copies.grows hw₁ hs₁ rfl
   have hown₁ : Shows h₁ (h₁.get x).children own := by
    rw [hchildren]
    refine hown.frame fun y hy o ho => ?_
    have := hw.older hy
    have := ho.le hw
    rw [hother o (by omega)]
    exact ⟨rfl, rfl⟩
   have hbase₁ : Shows h₁ (h₁.get b).children base := by
    rw [hchildren]
    refine hbase.frame fun y hy o ho => ?_
    rw [hother o fun heq => hxb.2 (heq ▸ (Below.of_child hy).trans ho)]
    exact ⟨rfl, rfl⟩
   refine ⟨copies.shows hw₁ hs₁ rfl (fun hbx => hxb.2 ((hbelow _ _).mp hbx))
    (fun hxb' => hxb.1 ((hbelow _ _).mp hxb')) hown₁ hbase₁, fun o ho hxo => ?_⟩
   rw [hg.frame (hsize.symm ▸ ho) fun hb => hxo ((hbelow _ _).mp hb),
    hother o fun heq => hxo (heq ▸ .refl h o)]
   exact ⟨rfl, rfl⟩
 | inherit =>
  change (h.get x).nodeType = .inherit at hform
  cases inheritCall_of_run hrun with
  | other notInherit => exact absurd ⟨hx, hform⟩ notInherit
  | @inherit ref h₁ _ _ hlookup run =>
   obtain rfl : b = ref := Option.some.inj (hbLookup.symm.trans hlookup)
   have copies := copies_of_run fuel run
   have hs := source_of_nodes hx hb
   have hg := copies.grows hw hs rfl
   have union := copies.shows hw hs rfl hxb.2 hxb.1 hown hbase
   refine ⟨?_, fun o ho hxo => ?_⟩
   · rw [addSubClass_children]
     exact union.frame fun _ _ o _ => ⟨addSubClass_copied h₁ x b o, addSubClass_children h₁ x b o⟩
   · rw [addSubClass_copied, addSubClass_children, hg.frame ho hxo]
     exact ⟨rfl, rfl⟩

end OneCall

theorem Runs.spares {fuel root p : ℕ} {h h' : AstHeap} {calls : List (Pass × AstHeap × ℕ)}
  {content : Content} (hr : Runs fuel root h calls h')
  (hresolves : ∀ call ∈ calls, Resolves root call.2.1 call.2.2)
  (hspares : ∀ call ∈ calls, Spares root call.1 call.2.1 call.2.2 p)
  (hw : WellFormed h) (hp : p < h.size) (hs : Shows h (h.get p).children content) :
  Shows h' (h'.get p).children content := by
 have run := @Runs.keeps fuel root h h' calls
  (fun h => WellFormed h ∧ p < h.size ∧ Shows h (h.get p).children content)
  (fun pass h c => Resolves root h c ∧ Spares root pass h c p) hr ⟨hw, hp, hs⟩
  (fun {pass h h' c} hinv hcall hrun => by
   obtain ⟨hw, hp, hs⟩ := hinv
   obtain ⟨hw', hsize, hsame⟩ := expandAt_spares hw hcall.1 hrun
   exact ⟨hw', hp.trans_le hsize, (hsame hp hcall.2).shows hs⟩)
  fun call hmem => ⟨hresolves call hmem, hspares call hmem⟩
 exact run.2.2

/-- At its turn an heir gets the union of its own content and of what its base holds at
that time. It is what the expansion ends with when no later call touches the two. -/
theorem heir_gets_union {fuel : ℕ} {redefineChecked : Bool} {source : SourceObjects} {ast' : Ast}
    (hrun : (Ast.ofSource redefineChecked source).expand fuel = .ok ast')
    (hresolves : ∀ call ∈ (Ast.ofSource redefineChecked source).calls fuel,
      Resolves 0 call.2.1 call.2.2)
    {k x b : ℕ} {pass : Pass} {h : AstHeap}
    (hk : ((Ast.ofSource redefineChecked source).calls fuel)[k]? = some (pass, h, x))
    (hh : HeirOf 0 h pass x b) (hxb : Unrelated h x b) :
    ∃ h' own base, expandAt fuel 0 pass h x = .ok h' ∧ Shows h (h.get x).children own ∧
      Shows h (h.get b).children base ∧ Shows h' (h'.get x).children (own.deepUnion base) ∧
      (∀ o < h.size, ¬ Below h x o →
        (h'.get o).copied = (h.get o).copied ∧ (h'.get o).children = (h.get o).children) ∧
      ((∀ call ∈ ((Ast.ofSource redefineChecked source).calls fuel).drop (k + 1),
          Spares 0 call.1 call.2.1 call.2.2 x ∧ Spares 0 call.1 call.2.1 call.2.2 b) →
        Shows ast'.heap (ast'.heap.get x).children (own.deepUnion base) ∧
          Shows ast'.heap (ast'.heap.get b).children base) := by
  have runs : Runs fuel 0 (Ast.ofSource redefineChecked source).heap
      ((Ast.ofSource redefineChecked source).calls fuel) ast'.heap := Runs.of_expand hrun
  obtain ⟨h', before, call, behind⟩ := runs.split hk
  have hw : WellFormed h := @Runs.keeps fuel 0 _ h _ WellFormed (fun _ h c => Resolves 0 h c) before
    (ofSource_built redefineChecked source).wellFormed
    (fun hw hr hrun => (expandAt_spares hw hr hrun).1)
    fun call hmem => hresolves call (List.mem_of_mem_take hmem)
  have hx := lt_size_of_node hh.1
  have hb := lt_size_of_node hh.2.2.2
  obtain ⟨own, hown⟩ := Shows.exists_of_wellFormed hw (h.get x).children
  obtain ⟨base, hbase⟩ := Shows.exists_of_wellFormed hw (h.get b).children
  obtain ⟨hunion, hframe⟩ := heir_shows hw hh hxb call hown hbase
  refine ⟨h', own, base, call, hown, hbase, hunion, hframe, fun hspares => ?_⟩
  have hcall := hresolves (pass, h, x) (List.mem_of_getElem? hk)
  obtain ⟨hw', hsize, -⟩ := expandAt_spares hw hcall call
  have hlater : ∀ call ∈ ((Ast.ofSource redefineChecked source).calls fuel).drop (k + 1),
      Resolves 0 call.2.1 call.2.2 := fun call hmem => hresolves call (List.mem_of_mem_drop hmem)
  -- the base is not touched by the call
  have hbase' : Shows h' (h'.get b).children base := by
    refine SameUnder.shows (fun o ho => hframe o (ho.lt_size hw hb) fun hxo => ?_) hbase
    exact (Below.total hw hxo ho).elim hxb.1 hxb.2
  exact ⟨behind.spares hlater (fun call hmem => (hspares call hmem).1) hw' (hx.trans_le hsize) hunion,
    behind.spares hlater (fun call hmem => (hspares call hmem).2) hw' (hb.trans_le hsize) hbase'⟩

theorem spares_of_idle {root y p : ℕ} {pass : Pass} {h : AstHeap}
  (hnode : (h.get y).nodeType = .noRef) (hvalue : ∀ v ∈ h.child y, (h.get v).type ≠ .delete) :
  Spares root pass h y p := by
 cases pass with
 | node =>
  refine ⟨fun _ ht => ?_, fun _ ht => ?_, fun _ v hv ht => absurd ht (hvalue v hv)⟩
  · rw [hnode] at ht
    exact absurd ht (by decide)
  · rw [hnode] at ht
    cases ht
 | inherit =>
  intro _ ht
  rw [hnode] at ht
  cases ht

def ClosedUnder (h : AstHeap) (l : List ℕ) : Prop := ∀ o ∈ l, ∀ c ∈ (h.get o).children, c ∈ l

instance (h : AstHeap) (l : List ℕ) : Decidable (ClosedUnder h l) :=
 inferInstanceAs (Decidable (∀ o ∈ l, ∀ c ∈ (h.get o).children, c ∈ l))

theorem ClosedUnder.not_below {h : AstHeap} {a b : ℕ} {l : List ℕ} (hclosed : ClosedUnder h l)
  (ha : a ∈ l) (hb : b ∉ l) : ¬ Below h a b := by
 intro hab
 refine hb ?_
 clear hb
 induction hab with
 | refl => exact ha
 | tail _ hc ih => exact hclosed _ ih _ hc

/-- `root { module = "m"; c { x = 1; } b : c { } a : b { } }` -/
def baseFirst : SourceObjects :=
 .term Ast.moduleName (.string [0x6D]) <|
  .node [0x63] .noRef [] (.term [0x78] (.number 1) .nil) <|
   .node [0x62] .copy [0x63] .nil <| .node [0x61] .copy [0x62] .nil .nil

theorem baseFirst_heir_gets_union :
    ∃ ast' own base, (Ast.ofSource false baseFirst).expand 20 = .ok ast' ∧
      Shows ast'.heap (ast'.heap.get 7).children (Content.deepUnion own base) ∧
      Shows ast'.heap (ast'.heap.get 6).children base := by
  have hresolves : ∀ call ∈ (Ast.ofSource false baseFirst).calls 20, Resolves 0 call.2.1 call.2.2 := by
    decide +kernel
  have hidle : ∀ call ∈ ((Ast.ofSource false baseFirst).calls 20).drop 7,
      (call.2.1.get call.2.2).nodeType = .noRef ∧
        ∀ v ∈ call.2.1.child call.2.2, (call.2.1.get v).type ≠ .delete := by decide +kernel
  have hcall : (((Ast.ofSource false baseFirst).calls 20)[6]?).any (fun call =>
      decide (call.1 = .node ∧ call.2.2 = 7 ∧ HeirOf 0 call.2.1 .node 7 6 ∧
        ClosedUnder call.2.1 [7] ∧ ClosedUnder call.2.1 [6, 8, 9])) = true := by decide +kernel
  have hok : ((Ast.ofSource false baseFirst).expand 20).isOk = true := by decide +kernel
  cases hrun : (Ast.ofSource false baseFirst).expand 20 with
  | error e =>
    rw [hrun] at hok
    cases hok
  | ok ast' =>
    cases hk : ((Ast.ofSource false baseFirst).calls 20)[6]? with
    | none =>
      rw [hk] at hcall
      cases hcall
    | some call =>
      obtain ⟨pass, h, x⟩ := call
      rw [hk] at hcall
      obtain ⟨hpass, hx, hh, hclosed, hclosed'⟩ := of_decide_eq_true hcall
      change pass = .node at hpass
      change x = 7 at hx
      subst hpass hx
      obtain ⟨h', own, base, -, -, -, -, -, hend⟩ := heir_gets_union hrun hresolves hk hh
        ⟨hclosed.not_below (by decide) (by decide), hclosed'.not_below (by decide) (by decide)⟩
      exact ⟨ast', own, base, rfl, hend fun call hmem => by
        obtain ⟨hnode, hvalue⟩ := hidle call hmem
        exact ⟨spares_of_idle hnode hvalue, spares_of_idle hnode hvalue⟩⟩

/-- The declarations of a source, each without those behind it. -/
def SourceObjects.declarations : SourceObjects → List SourceObjects
 | .nil => []
 | .term name value next => .term name value .nil :: next.declarations
 | .node name nodeType refPath child next =>
  .node name nodeType refPath child .nil :: next.declarations

def heirFirst : SourceObjects :=
 .term Ast.moduleName (.string [0x6D]) <|
  .node [0x61] .copy [0x62] .nil <| .node [0x62] .copy [0x63] .nil <|
   .node [0x63] .noRef [] (.term [0x78] (.number 1) .nil) .nil

/-- In the other order `a` has nothing of what `b` has. -/
theorem order_changes_content : ¬ ∀ (fuel : ℕ) (source source' : SourceObjects) (ast ast' : Ast),
    source.declarations.Perm source'.declarations →
    (∀ call ∈ (Ast.ofSource false source).calls fuel, Resolves 0 call.2.1 call.2.2) →
    (∀ call ∈ (Ast.ofSource false source').calls fuel, Resolves 0 call.2.1 call.2.2) →
    (Ast.ofSource false source).expand fuel = .ok ast →
    (Ast.ofSource false source').expand fuel = .ok ast' →
    ∀ (name : Str) (a a' : ℕ), ast.heap.lookupChild 0 name (some .confNode) = some a →
      ast'.heap.lookupChild 0 name (some .confNode) = some a' →
      ∀ (term : Str), (ast.heap.lookupChild a term (some .confTerm)).isSome =
        (ast'.heap.lookupChild a' term (some .confTerm)).isSome := by
  intro hall
  have first : ((Ast.ofSource false baseFirst).expand 20).toOption.any (fun ast =>
      decide (ast.heap.lookupChild 0 [0x61] (some .confNode) = some 7 ∧
        (ast.heap.lookupChild 7 [0x78] (some .confTerm)).isSome = true)) = true := by decide +kernel
  have second : ((Ast.ofSource false heirFirst).expand 20).toOption.any (fun ast =>
      decide (ast.heap.lookupChild 0 [0x61] (some .confNode) = some 3 ∧
        (ast.heap.lookupChild 3 [0x78] (some .confTerm)).isSome = false)) = true := by decide +kernel
  cases hrun : (Ast.ofSource false baseFirst).expand 20 with
  | error e => rw [hrun] at first; cases first
  | ok ast =>
    cases hrun' : (Ast.ofSource false heirFirst).expand 20 with
    | error e => rw [hrun'] at second; cases second
    | ok ast' =>
      rw [hrun] at first
      rw [hrun'] at second
      obtain ⟨hfound, hhas⟩ := of_decide_eq_true first
      obtain ⟨hfound', hhas'⟩ := of_decide_eq_true second
      have same := hall 20 baseFirst heirFirst ast ast' (by decide +kernel) (by decide +kernel)
        (by decide +kernel) hrun hrun' [0x61] 7 3 hfound hfound' [0x78]
      rw [hhas, hhas'] at same
      cases same

end DriversFramework.HcAst
