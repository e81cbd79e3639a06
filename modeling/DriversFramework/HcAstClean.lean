import DriversFramework.HcAstCalls

namespace DriversFramework.HcAst

open AstHeap

/-- The term `t` is bound to a node that can be reached from the root. -/
def Bound (h : AstHeap) (root t : ℕ) : Prop :=
 ∃ r, (h.get t).refNode = some r ∧ Below h root r ∧ (h.get r).type = .confNode

def Settled (root : ℕ) (h : AstHeap) (o : ℕ) : Prop :=
 ((h.get o).type = .confNode → (h.get o).Plain) ∧
  ((h.get o).type = .confTerm → ∀ v, h.child o = some v →
   (h.get v).type ≠ .delete ∧ ((h.get v).type = .nodeRef → Bound h root o))

/-- Every object that can be reached from the root is settled. -/
def Clean (h : AstHeap) (root : ℕ) : Prop := ∀ o, Below h root o → Settled root h o

def Unreferred (h : AstHeap) (root c : ℕ) : Prop :=
 ∀ t r, Below h root t → ¬ Below h c t → (h.get t).type = .confTerm →
  (h.get t).refNode = some r → ¬ Below h c r

/-- The call of `Ast::NodeExpand` at `c` does not go wrong: what it removes is not
referred to, what it copies is from a node, and whatever the destination lacks is plain,
or is added where the walk comes to it later, or is removed with `c`. -/
def NodeExpandSafe (root : ℕ) (h : AstHeap) (c : ℕ) : Prop :=
 (h.get c).isNode = true →
  match (h.get c).nodeType with
  | .delete => Unreferred h root c
  | .ref => Unreferred h root c ∧ ∀ ref, lookup h root c (h.get c).refNodePath = some ref →
    (h.get ref).isNode = true ∧ ∀ d o, Lacks h ref (h.get c).children d o →
     (h.get o).Plain ∨ Under (Later h c) h d ∨ Below h c d
  | .copy => ∀ ref, lookup h root c (h.get c).refNodePath = some ref →
    (h.get ref).isNode = true ∧
     ∀ d o, Lacks h c (h.get ref).children d o → (h.get o).Plain
  | _ => True

/-- The call of `Ast::InheritExpand` at `c` does not go wrong: whatever the node lacks
of the template is plain. -/
def InheritExpandSafe (root : ℕ) (h : AstHeap) (c : ℕ) : Prop :=
 (h.get c).isNode = true ∧ (h.get c).nodeType = .inherit →
  ∀ ref, lookup h root c (h.get c).refNodePath = some ref →
   (h.get ref).isNode = true ∧
    ∀ d o, Lacks h c (h.get ref).children d o → (h.get o).Plain

/-- No call of the two walks goes wrong. -/
structure ExpandSafe (fuel : ℕ) (ast : Ast) : Prop where
 node : ∀ call ∈ ast.nodeCalls fuel, NodeExpandSafe ast.astRoot call.1 call.2
 inherit : ∀ call ∈ ast.inheritCalls fuel, InheritExpandSafe ast.astRoot call.1 call.2

theorem node_plain {o : AstObject} (ht : o.type = .confNode) :
  o.Plain ↔ o.nodeType ≠ .copy ∧ o.nodeType ≠ .ref ∧ o.nodeType ≠ .delete := by
 simp [AstObject.Plain, ht]

theorem settled_of_other {root o : ℕ} {h : AstHeap} (hn : (h.get o).type ≠ .confNode)
  (ht : (h.get o).type ≠ .confTerm) : Settled root h o :=
 ⟨fun heq => absurd heq hn, fun heq => absurd heq ht⟩

theorem Settled.of_same {root o : ℕ} {h h' : AstHeap} (hs : Settled root h o)
  (htype : (h'.get o).type = (h.get o).type) (hnode : (h'.get o).nodeType = (h.get o).nodeType)
  (hvalue : (h.get o).type = .confTerm → h'.child o = h.child o ∧
   ∀ v, h.child o = some v → (h'.get v).type = (h.get v).type)
  (hbound : (h.get o).type = .confTerm → Bound h root o → Bound h' root o) :
  Settled root h' o := by
 refine ⟨fun ht => ?_, fun ht v hv => ?_⟩
 · exact (AstObject.plain_congr htype hnode).mpr (hs.1 (htype.symm.trans ht))
 · have hterm := htype.symm.trans ht
   obtain ⟨hchild, hsame⟩ := hvalue hterm
   rw [hchild] at hv
   obtain ⟨hdelete, hnodeRef⟩ := hs.2 hterm v hv
   rw [hsame v hv]
   exact ⟨hdelete, fun heq => hbound hterm (hnodeRef heq)⟩

theorem Bound.grows {h h' : AstHeap} {touched : ℕ → Prop} (hg : Grows h h' touched)
  (hw : WellFormed h) {root o : ℕ} (ho : o < h.size) (hroot : root < h.size)
  (hb : Bound h root o) : Bound h' root o := by
 obtain ⟨r, hr, hbelow, ht⟩ := hb
 refine ⟨r, (hg.refNode ho).trans hr, hg.below hw hbelow (by rw [ht]; decide), ?_⟩
 exact (hg.type (hbelow.lt_size hw hroot)).trans ht

theorem Grows.child {h h' : AstHeap} {touched : ℕ → Prop} (hg : Grows h h' touched) {o : ℕ}
  (ho : o < h.size) (hterm : (h.get o).type = .confTerm) : h'.child o = h.child o := by
 unfold AstHeap.child
 rcases hg.otherChildren ho (by rw [hterm]; decide) with heq | ⟨harray, -⟩
 · rw [heq]
 · rw [harray] at hterm
   cases hterm

theorem Settled.grows {h h' : AstHeap} {touched : ℕ → Prop} (hg : Grows h h' touched)
  (hw : WellFormed h) {root o : ℕ} (ho : o < h.size) (hroot : root < h.size)
  (hs : Settled root h o) : Settled root h' o :=
 hs.of_same (hg.type ho) (hg.nodeType ho)
  (fun hterm => ⟨hg.child ho hterm, fun _ hv => hg.type (hw.lt_size (child_mem hv))⟩)
  (fun _ hb => hb.grows hg hw ho hroot)

def PlainAt (h : AstHeap) (o : ℕ) : Prop :=
 (h.get o).Plain ∧ ∀ v, h.child o = some v → (h.get v).Plain

theorem PlainAt.settled {root o : ℕ} {h : AstHeap} (ho : PlainAt h o) : Settled root h o := by
 refine ⟨fun _ => ho.1, fun _ v hchild => ?_⟩
 have hplain := ho.2 v hchild
 exact ⟨hplain.2.2, fun ht => absurd ht hplain.2.1⟩

theorem plainAt_of_new {h h' : AstHeap} {o : ℕ} {roots : ℕ → Prop} (hw' : WellFormed h')
  (hnew : NewCovered roots h h') (hroots : ∀ {q : ℕ}, roots q → q < h.size) (hle : h.size ≤ o)
  (hlt : o < h'.size) : PlainAt h' o ∨ Under roots h' o := by
 rcases hnew o hle hlt with ho | hu
 · by_cases hu : Under roots h' o
   · exact .inr hu
   refine .inl ⟨ho, fun v hv => ?_⟩
   have hmem := child_mem hv
   have hvle : h.size ≤ v := hle.trans (hw'.older hmem).le
   rcases hnew v hvle (hw'.lt_size hmem) with hp | ⟨q, hq, hqv⟩
   · exact hp
   · have hne : q ≠ v := by
      have := hroots hq
      omega
     exact absurd ⟨q, hq, hqv.parent_of_ne hw' hmem hne⟩ hu
 · exact .inr hu

section Leaving

variable {h h' : AstHeap} {root p c : ℕ}

theorem leaves_same (hw : WellFormed h) (hcov : Covered (Settled root) root h c [])
  (hs : Settled root h c) : Leaves (Settled root) root h h p c where
 wellFormed := hw
 above _ _ _ := rfl
 fixed _ _ := rfl
 here := .inl rfl
 covered hp := hcov.leave hw hp (fun _ _ _ => rfl) fun o ho => by
  by_cases hoc : o = c
  · exact .inl (hoc ▸ hs)
  · exact .inr (.inr ⟨hoc, ho, id, fun _ _ hq => hq⟩)

theorem Leaves.of_congr {h₁ : AstHeap} (hl : Leaves (Settled root) root h₁ h' p c)
  (hw : WellFormed h) (hc : c ∈ (h.get p).children)
  (hchildren : ∀ q, (h₁.get q).children = (h.get q).children)
  (hother : ∀ o, o ≠ c → h₁.get o = h.get o) : Leaves (Settled root) root h h' p c where
 wellFormed := hl.wellFormed
 above a ha hap := (hl.above a ((Below.congr hchildren).mpr ha) hap).trans (hchildren a)
 fixed a ha := by
  have := ha.le hw
  have := hw.older hc
  rw [hl.fixed a ((Below.congr hchildren).mpr ha), hother a (by omega)]
 here := by
  rw [← hchildren p]
  exact hl.here
 covered hp := hl.covered ((hchildren p).trans hp)

theorem Covered.of_congr {h₁ : AstHeap} (hcov : Covered (Settled root) root h c [])
  (hchildren : ∀ q, (h₁.get q).children = (h.get q).children)
  (hs : ∀ o, o ≠ c → Settled root h o → Settled root h₁ o) :
  Covered (Settled root) root h₁ c [] := by
 intro o ho
 rcases hcov o ((Below.congr hchildren).mp ho) with hso | hoc | ⟨q, hq, hqo⟩
 · by_cases hoc : o = c
   · exact .inr (.inl (hoc ▸ .refl h₁ c))
   · exact .inl (hs o hoc hso)
 · exact .inr (.inl ((Below.congr hchildren).mpr hoc))
 · rcases hq with hq | ⟨y, hyc, r, done, rest, hr, hz⟩
   · cases hq
   · exact .inr (.inr ⟨q, .inr ⟨y, (Below.congr hchildren).mpr hyc, r, done, rest,
      (hchildren r).trans hr, hz⟩, (Below.congr hchildren).mpr hqo⟩)

theorem leaves_drop (hw : WellFormed h) (hc : c ∈ (h.get p).children) (hroot : Below h root p)
  (hcov : Covered (Settled root) root h c []) (hd : Drops h h' c)
  (ht : (h.get p).type = .confNode)
  (hrefs : ∀ t r, Below h root t → ¬ Below h c t → (h.get t).type = .confTerm →
   (h.get t).refNode = some r → (h.get r).type = .confNode → ¬ Below h c r) :
  Leaves (Settled root) root h h' p c := by
 have hpc : p ≠ c := (hw.older hc).ne
 have habove : ∀ a, Below h a p → a ≠ p → (h'.get a).children = (h.get a).children := by
  intro a ha hap
  refine hd.others a ?_ ?_
  · rw [hw.parent hc]
    exact fun heq => hap (Option.some.inj heq).symm
  · have := ha.le hw
    have := hw.older hc
    omega
 refine ⟨hd.wellFormed, habove, fun a _ => hd.fixed a, .inr (hd.here p (hw.parent hc) hpc), fun hp =>
  hcov.leave hw hp habove fun o ho => ?_⟩
 have hout := hd.not_below hw hc hroot ho
 have hoc : o ≠ c := by
  rintro rfl
  exact hout (.refl h o)
 have hold := hd.below_old ho
 refine .inr (.inr ⟨hoc, hold, fun hs => hs.of_same (hd.type o) (hd.nodeType o)
  (fun hterm => ⟨hd.child hw hc ?_ hoc, fun v _ => hd.type v⟩) fun hterm => ?_,
  fun q _ hqo => hd.stays hqo hout⟩)
 · rintro rfl
   rw [ht] at hterm
   cases hterm
 · rintro ⟨r, hr, hreach, hnode⟩
   exact ⟨r, (hd.refNode o).trans hr, hd.stays hreach (hrefs o r hold hout hterm hr hnode),
    (hd.type r).trans hnode⟩

theorem leaves_grow (hw : WellFormed h) (hc : c ∈ (h.get p).children) (hroot : Below h root p)
  (hcov : Covered (Settled root) root h c []) (hg : Grows h h' (Below h c))
  (hnew : NewCovered (fun _ => False) h h') (hs : Settled root h c) :
  Leaves (Settled root) root h h' p c := by
 have hclt := hw.lt_size hc
 have hplt : p < h.size := (hw.older hc).trans hclt
 have hrlt : root < h.size := (hroot.le hw).trans_lt hplt
 have hframe : ∀ a, Below h a p → (h'.get a).children = (h.get a).children := by
  intro a ha
  have := ha.le hw
  have := hw.older hc
  rw [hg.frame (by omega) fun hca => by
   have := hca.le hw
   omega]
 refine ⟨hg.wellFormed, fun a ha _ => hframe a ha, fun a ha => hg.fixed ((ha.le hw).trans_lt hplt),
  .inl (hframe p (.refl h p)), fun hp => hcov.leave hw hp (fun a ha _ => hframe a ha)
   fun o ho => ?_⟩
 by_cases holt : o < h.size
 · by_cases hoc : o = c
   · exact .inl (hoc ▸ hs.grows hg hw hclt hrlt)
   · by_cases hscalar : (h.get o).type.Scalar
     · refine .inl (settled_of_other ?_ ?_) <;> rw [hg.type holt] <;> rintro heq <;>
        rw [heq] at hscalar <;> exact absurd hscalar (by decide)
     · exact .inr (.inr ⟨hoc, hg.below_old holt ho, fun hso => hso.grows hg hw holt hrlt,
        fun q _ hqo => hg.below hw hqo hscalar⟩)
 · rcases plainAt_of_new hg.wellFormed hnew (fun hq => hq.elim) (by omega)
    (ho.lt_size hg.wellFormed (hrlt.trans_le hg.size_le)) with hplain | ⟨q, hq, -⟩
   · exact .inl hplain.settled
   · exact hq.elim

theorem leaves_move {h₁ : AstHeap} {ref : ℕ} (hw : WellFormed h) (hc : c ∈ (h.get p).children)
  (hroot : Below h root p) (hcov : Covered (Settled root) root h c [])
  (hnode : (h.get c).type = .confNode) (href : ¬ Below h ref c) (hg : Grows h h₁ (Below h ref))
  (hnew : NewCovered (fun q => Later h c q ∨ q = c) h h₁) (hd : Drops h₁ h' c)
  (hrefs : Unreferred h root c) : Leaves (Settled root) root h h' p c := by
 have hclt := hw.lt_size hc
 have hpc : p < c := hw.older hc
 have hplt : p < h.size := hpc.trans hclt
 have hrlt : root < h.size := (hroot.le hw).trans_lt hplt
 have ht : (h.get p).type = .confNode := (hw.holds hc).node_iff.mpr (.inl hnode)
 have hframe : ∀ a, Below h a p → (h₁.get a).children = (h.get a).children := by
  intro a ha
  have := ha.le hw
  rw [hg.frame (by omega) fun hra => href ((hra.trans ha).step hc)]
 have hc₁ : c ∈ (h₁.get p).children := by
  rw [hframe p (.refl h p)]
  exact hc
 have ht₁ : (h₁.get p).type = .confNode := (hg.type hplt).trans ht
 have hparent₁ := hg.wellFormed.parent hc₁
 have hroot₁ : Below h₁ root p := hroot.of_above hw fun a ha _ => hframe a ha
 have habove : ∀ a, Below h a p → a ≠ p → (h'.get a).children = (h.get a).children := by
  intro a ha hap
  have := ha.le hw
  rw [hd.others a ?_ (by omega), hframe a ha]
  rw [hparent₁]
  exact fun heq => hap (Option.some.inj heq).symm
 refine ⟨hd.wellFormed, habove,
  fun a ha => (hd.fixed a).trans (hg.fixed ((ha.le hw).trans_lt hplt)), .inr ?_,
  fun hp => hcov.leave hw hp habove fun o ho => ?_⟩
 · rw [hd.here p hparent₁ hpc.ne, hframe p (.refl h p)]
 have hout := hd.not_below hg.wellFormed hc₁ hroot₁ ho
 have hoc : o ≠ c := by
  rintro rfl
  exact hout (.refl h₁ o)
 have ho₁ := hd.below_old ho
 by_cases holt : o < h.size
 · by_cases hscalar : (h.get o).type.Scalar
   · have htype := (hd.type o).trans (hg.type holt)
     refine .inl (settled_of_other ?_ ?_) <;> rw [htype] <;> rintro heq <;>
      rw [heq] at hscalar <;> exact absurd hscalar (by decide)
   have hold := hg.below_old holt ho₁
   have houtOld : ¬ Below h c o := fun hb => hout (hg.below hw hb hscalar)
   refine .inr (.inr ⟨hoc, hold, fun hs => ?_, fun q _ hqo =>
    hd.stays (hg.below hw hqo hscalar) hout⟩)
   refine hs.of_same ((hd.type o).trans (hg.type holt)) ((hd.nodeType o).trans (hg.nodeType holt))
    (fun hterm => ⟨(hd.child hg.wellFormed hc₁ ?_ hoc).trans (hg.child holt hterm), fun v hv =>
     (hd.type v).trans (hg.type (hw.lt_size (child_mem hv)))⟩) fun hterm => ?_
   · rintro rfl
     rw [ht] at hterm
     cases hterm
   -- the node that `o` is bound to stands outside of `c`
   · rintro ⟨r, hr, hreach, hrnode⟩
     have hrlt := hreach.lt_size hw hrlt
     have hrout : ¬ Below h₁ c r := fun hb =>
      hrefs o r hold houtOld hterm hr (hg.below_old hrlt hb)
     exact ⟨r, ((hd.refNode o).trans (hg.refNode holt)).trans hr,
      hd.stays (hg.below hw hreach (by rw [hrnode]; decide)) hrout,
      ((hd.type r).trans (hg.type hrlt)).trans hrnode⟩
 · rcases plainAt_of_new hg.wellFormed hnew
    (fun hq => hq.elim (fun hl => (Later.apart hw c).lt hl) fun heq => heq ▸ hclt) (by omega)
    (ho₁.lt_size hg.wellFormed (hrlt.trans_le hg.size_le)) with hplain | ⟨q, hq, hqo⟩
   · have hchild := hd.child hg.wellFormed hc₁ (by omega : o ≠ p) hoc
     refine .inl (PlainAt.settled ⟨(AstObject.plain_congr (hd.type o) (hd.nodeType o)).mpr hplain.1,
      fun v hv => (AstObject.plain_congr (hd.type v) (hd.nodeType v)).mpr (hplain.2 v ?_)⟩)
     rw [← hchild]
     exact hv
   · rcases hq with hq | rfl
     · exact .inr (.inl ⟨q, hq, hd.stays hqo hout⟩)
     · exact absurd hqo hout

end Leaving

section Expand

variable {h h' : AstHeap} {root p c : ℕ} {fuel : ℕ}

theorem move_leaves {ref : ℕ} (hw : WellFormed h) (hc : c ∈ (h.get p).children)
  (hroot : Below h root p) (hcov : Covered (Settled root) root h c [])
  (hnode : (h.get c).type = .confNode) (href : (h.get ref).type = .confNode)
  (helder : ¬ Below h ref c) (hrefs : Unreferred h root c)
  (hlacks : ∀ d o, Lacks h ref (h.get c).children d o →
   (h.get o).Plain ∨ Under (Later h c) h d ∨ Below h c d)
  (hrun : move fuel h ref c = .ok h') : Leaves (Settled root) root h h' p c := by
 obtain ⟨h₁, copies, rfl⟩ := move_copies href hrun
 have hs := source_of_nodes href hnode
 have hg := copies.grows hw hs rfl
 refine leaves_move hw hc hroot hcov hnode helder hg ?_ (drops_separate hg.wellFormed c) hrefs
 by_cases hdown : Below h c ref
 · exact (copies.newUnder hw hs rfl).mono fun q hq =>
    ⟨c, .inr rfl, hq ▸ hg.below hw hdown (by rw [href]; decide)⟩
 refine (@Copies.newCovered true (Later h c) _ _ _ _ copies _ _ hw hs rfl (Later.apart hw c)
  fun d o hl => ?_).mono fun q hq => ⟨q, .inl hq, .refl h₁ q⟩
 rcases hlacks d o hl with hp | hu | hcd
 · exact .inl hp
 · exact .inr hu
 · exact ((Below.total hw hcd hl.dest).elim hdown helder).elim

theorem copy_leaves {ref : ℕ} (hw : WellFormed h) (hc : c ∈ (h.get p).children)
  (hroot : Below h root p) (hcov : Covered (Settled root) root h c [])
  (hnode : (h.get c).type = .confNode) (href : (h.get ref).type = .confNode)
  (hlacks : ∀ d o, Lacks h c (h.get ref).children d o → (h.get o).Plain)
  (hrun : copyNode fuel (h.modify c fun o => { o with nodeType := .noRef }) c (h.child ref) false =
   .ok h') : Leaves (Settled root) root h h' p c := by
 obtain ⟨h₁, hh₁⟩ : ∃ h₁, h.modify c (fun o => { o with nodeType := .noRef }) = h₁ := ⟨_, rfl⟩
 have keep : ∀ {β : Type} (g : AstObject → β), (∀ o, g { o with nodeType := .noRef } = g o) →
   ∀ o, g (h₁.get o) = g (h.get o) := fun g hg o => hh₁ ▸ modify_keep g hg h c o
 have hchildren := keep AstObject.children fun _ => rfl
 have htype := keep AstObject.type fun _ => rfl
 have hw₁ : WellFormed h₁ := hh₁ ▸ hw.modify c (fun _ => rfl) (fun _ => rfl) (fun _ => rfl)
 have hchild : h.child ref = (h₁.get ref).children.head? := by
  rw [hchildren]
  rfl
 have hother : ∀ o, o ≠ c → h₁.get o = h.get o := fun o ho => hh₁ ▸ get_modify_ne h (Ne.symm ho) _
 rw [hh₁] at hrun
 have copies := copies_of_run fuel hrun
 have hs := source_of_nodes ((htype c).trans hnode) ((htype ref).trans href)
 have hcself : (h₁.get c).nodeType = .noRef := by
  rw [← hh₁, get_modify_self (hw.lt_size hc)]
 have hcplain : (h₁.get c).Plain := by
  rw [node_plain ((htype c).trans hnode), hcself]
  decide
 refine (leaves_grow hw₁ ?_ ((Below.congr hchildren).mpr hroot) (hcov.of_congr hchildren ?_)
  (copies.grows hw₁ hs hchild) (copies.newCovered hw₁ hs hchild
   ⟨fun hq => hq.elim, fun hq => hq.elim, fun hq => hq.elim⟩ fun d o hl => .inl ?_)
  ⟨fun _ => hcplain, fun ht => ?_⟩).of_congr hw hc hchildren hother
 · rw [hchildren]
   exact hc
 · intro o hoc hso
   refine hso.of_same (htype o) (by rw [hother o hoc]) (fun _ => ⟨?_, fun v _ => htype v⟩) ?_
   · rw [AstHeap.child, hother o hoc]
     rfl
   · rintro - ⟨r, hr, hreach, hrnode⟩
     exact ⟨r, by rw [hother o hoc, hr], (Below.congr hchildren).mpr hreach, (htype r).trans hrnode⟩
 · rw [hchildren] at hl
   have hold := hlacks d o (hl.of_same hchildren (keep AstObject.name fun _ => rfl) htype)
   by_cases hoc : o = c
   · exact hoc ▸ hcplain
   · rw [hother o hoc]
     exact hold
 · rw [htype, hnode] at ht
   cases ht

theorem bind_leaves {value ref : ℕ} (hw : WellFormed h) (hc : c ∈ (h.get p).children)
  (hroot : Below h root p) (hcov : Covered (Settled root) root h c [])
  (hterm : (h.get c).type = .confTerm) (hvalue : h.child c = some value)
  (hlookup : lookup h root c (h.get value).stringValue = some ref)
  (href : (h.get ref).type = .confNode) (ht : (h.get value).type = .nodeRef) :
  Leaves (Settled root) root h (h.modify c fun o => { o with refNode := some ref }) p c := by
 obtain ⟨h₁, hh₁⟩ : ∃ h₁, h.modify c (fun o => { o with refNode := some ref }) = h₁ := ⟨_, rfl⟩
 have keep : ∀ {β : Type} (g : AstObject → β),
   (∀ o, g { o with refNode := some ref } = g o) → ∀ o, g (h₁.get o) = g (h.get o) :=
  fun g hg o => hh₁ ▸ modify_keep g hg h c o
 have hchildren := keep AstObject.children fun _ => rfl
 have htype := keep AstObject.type fun _ => rfl
 have hchild : ∀ o, h₁.child o = h.child o := fun o => congrArg List.head? (hchildren o)
 rw [hh₁]
 refine (leaves_same (hh₁ ▸ hw.modify c (fun _ => rfl) (fun _ => rfl) (fun _ => rfl))
  (hcov.of_congr hchildren fun o hoc hso => ?_) ⟨fun hn => ?_, fun _ v hv => ?_⟩).of_congr
  hw hc hchildren fun o hoc => hh₁ ▸ get_modify_ne h (Ne.symm hoc) _
 · refine hso.of_same (htype o) (keep AstObject.nodeType (fun _ => rfl) o)
    (fun _ => ⟨hchild o, fun v _ => htype v⟩) ?_
   rintro - ⟨r, hr, hreach, hrnode⟩
   exact ⟨r, by rw [← hh₁, get_modify_ne h (Ne.symm hoc), hr],
    (Below.congr hchildren).mpr hreach, (htype r).trans hrnode⟩
 · rw [htype, hterm] at hn
   cases hn
 · rw [hchild, hvalue] at hv
   cases hv
   rw [htype, ht]
   refine ⟨by decide, fun _ => ⟨ref, ?_, (Below.congr hchildren).mpr
    (lookup_below hw hc hroot hlookup), (htype ref).trans href⟩⟩
   rw [← hh₁, get_modify_self (hw.lt_size hc)]

theorem nodeExpandAt_leaves (hw : WellFormed h) (hroot : Below h root p)
  (hc : c ∈ (h.get p).children) (hcov : Covered (Settled root) root h c [])
  (hsafe : NodeExpandSafe root h c) (hrun : nodeExpandAt fuel root h c = .ok h') :
  Leaves (Settled root) root h h' p c := by
 have parentNode : (h.get c).type = .confNode ∨ (h.get c).type = .confTerm →
   (h.get p).type = .confNode := (hw.holds hc).node_iff.mpr
 cases nodeCall_of_run hrun with
 | other notNode notTerm => exact leaves_same hw hcov (settled_of_other notNode notTerm)
 | node isNode notRef notCopy notDelete =>
  refine leaves_same hw hcov ⟨fun _ => (node_plain isNode).mpr ⟨notCopy, notRef, notDelete⟩,
   fun hterm => ?_⟩
  rw [isNode] at hterm
  cases hterm
 | term isTerm hvalue notDelete notRef =>
  refine leaves_same hw hcov ⟨fun hn => ?_, fun _ v hv => ?_⟩
  · rw [isTerm] at hn
    cases hn
  · rw [hvalue] at hv
    cases hv
    exact ⟨notDelete, fun heq => absurd heq notRef⟩
 | removeNode isNode isDelete =>
  have hsafe := hsafe (isNode_iff.mpr isNode)
  rw [isDelete] at hsafe
  exact leaves_drop hw hc hroot hcov (drops_remove hw c) (parentNode (.inl isNode))
   fun t r htree hout hterm hr _ => hsafe t r htree hout hterm hr
 | removeTerm isTerm hvalue isDelete =>
  exact leaves_drop hw hc hroot hcov (drops_remove hw c) (parentNode (.inr isTerm))
   fun _ _ _ _ _ _ hr hb => hb.not_node hw (by rw [isTerm]; decide) hr
 | move isNode isRef hlookup elders run =>
  have hsafe := hsafe (isNode_iff.mpr isNode)
  rw [isRef] at hsafe
  obtain ⟨hrefs, hsafe⟩ := hsafe
  obtain ⟨href, hlacks⟩ := hsafe _ hlookup
  exact move_leaves hw hc hroot hcov isNode (isNode_iff.mp href)
   (isElders_not_below hw fuel elders) hrefs hlacks run
 | copy isNode isCopy hlookup elders run =>
  have hsafe := hsafe (isNode_iff.mpr isNode)
  rw [isCopy] at hsafe
  obtain ⟨href, hlacks⟩ := hsafe _ hlookup
  exact copy_leaves hw hc hroot hcov isNode (isNode_iff.mp href) hlacks run
 | bind isTerm hvalue isRef hlookup refers =>
  exact bind_leaves hw hc hroot hcov isTerm hvalue hlookup refers isRef

end Expand

theorem nodeExpand_clean {fuel : ℕ} {h h' : AstHeap} (hw : WellFormed h)
  (ht : (h.get 0).type = .confNode) (hn : (h.get 0).nodeType = .noRef)
  (hrun : walkBackward (nodeExpandAt fuel 0) fuel h (some 0) = .ok h')
  (hsafe : ∀ call ∈ callsBackward (nodeExpandAt fuel 0) fuel h (some 0),
   NodeExpandSafe 0 call.1 call.2) : WellFormed h' ∧ 0 < h'.size ∧ Clean h' 0 := by
 obtain ⟨h₁, hw₁, hcov, hfixed, hcall⟩ := (walksBackward_of_run _ fuel hrun).root_covered
  (fun hw hroot hc hcov hsafe hrun => nodeExpandAt_leaves hw hroot hc hcov hsafe hrun) hw hsafe
 have htype : (h₁.get 0).type = .confNode := (congrArg (·.1) hfixed).trans ht
 have hnode : (h₁.get 0).nodeType = .noRef := (congrArg (·.2.2.2.1) hfixed).trans hn
 rw [nodeExpandAt, if_pos (isNode_iff.mpr htype), if_neg (by rw [hnode]; decide),
  if_pos (by rw [hnode]; decide)] at hcall
 cases hcall
 refine ⟨hw₁, lt_size_of_node htype, fun o ho => ?_⟩
 rcases hcov o ho with hs | rfl
 · exact hs
 · refine ⟨fun _ => (node_plain htype).mpr (by rw [hnode]; decide), fun hterm => ?_⟩
   rw [htype] at hterm
   cases hterm

theorem Clean.grows {h h' : AstHeap} {touched : ℕ → Prop} {root : ℕ} (hc : Clean h root)
  (hw : WellFormed h) (hroot : root < h.size) (hg : Grows h h' touched)
  (hnew : NewCovered (fun _ => False) h h') : Clean h' root := by
 intro o ho
 by_cases holt : o < h.size
 · exact (hc o (hg.below_old holt ho)).grows hg hw holt hroot
 · rcases plainAt_of_new hg.wellFormed hnew (fun hq => hq.elim) (by omega)
    (ho.lt_size hg.wellFormed (hroot.trans_le hg.size_le)) with hplain | ⟨q, hq, -⟩
   · exact hplain.settled
   · exact hq.elim

theorem Clean.of_same {h h' : AstHeap} {root : ℕ} (hc : Clean h root)
  (hchildren : ∀ p, (h'.get p).children = (h.get p).children)
  (hfixed : ∀ o, (h'.get o).fixed = (h.get o).fixed) : Clean h' root := by
 intro o ho
 have htype : ∀ o, (h'.get o).type = (h.get o).type := fun o => congrArg (·.1) (hfixed o)
 refine (hc o ((Below.congr hchildren).mp ho)).of_same (htype o)
  (congrArg (·.2.2.2.1) (hfixed o))
  (fun _ => ⟨congrArg List.head? (hchildren o), fun v _ => htype v⟩) ?_
 rintro - ⟨r, hr, hreach, hnode⟩
 exact ⟨r, (congrArg (·.2.2.2.2.2) (hfixed o)).trans hr, (Below.congr hchildren).mpr hreach,
  (htype r).trans hnode⟩

theorem inheritExpandAt_clean {fuel c : ℕ} {h h' : AstHeap}
  (hinv : WellFormed h ∧ 0 < h.size ∧ Clean h 0) (hsafe : InheritExpandSafe 0 h c)
  (hrun : inheritExpandAt fuel 0 h c = .ok h') :
  WellFormed h' ∧ 0 < h'.size ∧ Clean h' 0 := by
 obtain ⟨hw, hsize, hclean⟩ := hinv
 cases inheritCall_of_run hrun with
 | other => exact ⟨hw, hsize, hclean⟩
 | @inherit ref h₁ isNode isInherit hlookup run =>
  obtain ⟨href, hlacks⟩ := hsafe ⟨isNode_iff.mpr isNode, isInherit⟩ ref hlookup
  have copies := copies_of_run fuel run
  have hs := source_of_nodes isNode (isNode_iff.mp href)
  have hg := copies.grows hw hs rfl
  have hclean₁ := hclean.grows hw hsize hg (copies.newCovered hw hs rfl
   ⟨fun hq => hq.elim, fun hq => hq.elim, fun hq => hq.elim⟩
   fun d o hl => .inl (hlacks d o hl))
  refine ⟨hg.wellFormed.addSubClass c ref, ?_, hclean₁.of_same (addSubClass_children h₁ c ref)
   (addSubClass_fixed h₁ c ref)⟩
  rw [addSubClass_size]
  exact hsize.trans_le hg.size_le

/-- A call at an ordinary node, or at a copy of a node whose content stands among `l`, where
everything is plain. -/
def CopiesPlain (root : ℕ) (l : List ℕ) (h : AstHeap) (c : ℕ) : Prop :=
 (h.get c).isNode = true → (h.get c).nodeType = .noRef ∨
  (h.get c).nodeType = .copy ∧
   (∀ ref ∈ lookup h root c (h.get c).refNodePath,
    (h.get ref).isNode = true ∧ ∀ x ∈ (h.get ref).children, x ∈ l) ∧
   ∀ o ∈ l, (h.get o).Plain ∧ ∀ x ∈ (h.get o).children, x ∈ l

instance (root : ℕ) (l : List ℕ) (h : AstHeap) (c : ℕ) : Decidable (CopiesPlain root l h c) :=
 inferInstanceAs (Decidable (_ → _))

theorem CopiesPlain.safe {root c : ℕ} {l : List ℕ} {h : AstHeap} (hc : CopiesPlain root l h c) :
  NodeExpandSafe root h c := by
 intro isNode
 rcases hc isNode with ht | ⟨ht, href, hl⟩
 · rw [ht]
   trivial
 · rw [ht]
   intro ref hlookup
   obtain ⟨refNode, hchildren⟩ := href ref hlookup
   refine ⟨refNode, fun d o hlack => ?_⟩
   obtain ⟨x, hx, hxo⟩ := hlack.source
   have hmem : o ∈ l := by
    clear hlack
    induction hxo with
    | refl => exact hchildren x hx
    | tail _ hy ih => exact (hl _ ih).2 _ hy
   exact (hl o hmem).1

/-- `root { module = "m"; b { x = 1; } a : b { } r = &root.a; }` -/
def plainCopy : SourceObjects :=
 .term Ast.moduleName (.string [0x6D]) <|
  .node [0x62] .noRef [] (.term [0x78] (.number 1) .nil) <|
   .node [0x61] .copy [0x62] .nil <|
    .term [0x72] (.nodeRef (rootName ++ [dot, 0x61])) .nil

/-- `root { module = "m"; n { } b { r = &root.n; } a : b { } }` -/
def copiedReference : SourceObjects :=
 .term Ast.moduleName (.string [0x6D]) <|
  .node [0x6E] .noRef [] .nil <|
   .node [0x62] .noRef [] (.term [0x72] (.nodeRef (rootName ++ [dot, 0x6E])) .nil) <|
    .node [0x61] .copy [0x62] .nil .nil

end DriversFramework.HcAst
