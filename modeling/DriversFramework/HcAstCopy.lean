import DriversFramework.HcAstGrowth
import Mathlib.Data.List.Find

namespace DriversFramework.HcAst

open AstHeap

def AstObject.fixed (o : AstObject) :
  ObjectType × Str × Option ℕ × NodeRefType × Str × Option ℕ :=
 (o.type, o.name, o.parent, o.nodeType, o.refNodePath, o.refNode)

/-- `h'` is `h` with new objects, and with other values in objects that are `touched`. -/
structure Grows (h h' : AstHeap) (touched : ℕ → Prop) : Prop where
 wellFormed : WellFormed h'
 size_le : h.size ≤ h'.size
 frame : ∀ {o : ℕ}, o < h.size → ¬ touched o → h'.get o = h.get o
 fixed : ∀ {o : ℕ}, o < h.size → (h'.get o).fixed = (h.get o).fixed
 nodeChildren : ∀ {o : ℕ}, o < h.size → (h.get o).type = .confNode →
  ∃ news, (h'.get o).children = (h.get o).children ++ news ∧ ∀ n ∈ news, h.size ≤ n
 otherChildren : ∀ {o : ℕ}, o < h.size → (h.get o).type ≠ .confNode →
  (h'.get o).children = (h.get o).children ∨
   (h.get o).type = .array ∧ (h'.get o).children = []

namespace Grows

variable {h h₁ h' : AstHeap} {touched touched' : ℕ → Prop}

theorem refl (hw : WellFormed h) : Grows h h touched :=
 ⟨hw, le_rfl, fun _ _ => rfl, fun _ => rfl,
  fun _ _ => ⟨[], (List.append_nil _).symm, fun _ hn => by cases hn⟩, fun _ _ => .inl rfl⟩

section Fields

variable (hg : Grows h h' touched) {o : ℕ} (ho : o < h.size)

include hg ho

theorem type : (h'.get o).type = (h.get o).type := congrArg (·.1) (hg.fixed ho)

theorem name : (h'.get o).name = (h.get o).name := congrArg (·.2.1) (hg.fixed ho)

theorem nodeType : (h'.get o).nodeType = (h.get o).nodeType := congrArg (·.2.2.2.1) (hg.fixed ho)

theorem refNode : (h'.get o).refNode = (h.get o).refNode := congrArg (·.2.2.2.2.2) (hg.fixed ho)

theorem plain : (h'.get o).Plain ↔ (h.get o).Plain :=
 AstObject.plain_congr (hg.type ho) (hg.nodeType ho)

end Fields

theorem old (hg : Grows h h' touched) {p c : ℕ} (hc : c < h.size)
 (hmem : c ∈ (h'.get p).children) : c ∈ (h.get p).children := by
 have hp : p < h.size := (hg.wellFormed.older hmem).trans hc
 by_cases ht : (h.get p).type = .confNode
 · obtain ⟨news, hnews, hnew⟩ := hg.nodeChildren hp ht
   rw [hnews] at hmem
   rcases List.mem_append.mp hmem with hmem | hmem
   · exact hmem
   · exact absurd (hnew c hmem) (by omega)
 · rcases hg.otherChildren hp ht with heq | ⟨-, heq⟩
   · rwa [heq] at hmem
   · rw [heq] at hmem
     cases hmem

theorem below_old (hg : Grows h h' touched) {a o : ℕ} (ho : o < h.size) (hb : Below h' a o) :
 Below h a o :=
 hb.of_old hg.wellFormed hg.old ho

theorem below (hg : Grows h h' touched) (hw : WellFormed h) {a o : ℕ} (hb : Below h a o)
 (ho : ¬ (h.get o).type.Scalar) : Below h' a o := by
 induction hb with
 | refl => exact .refl h' a
 | @tail p c _ hc ih =>
  have hp : p < h.size := (hw.older hc).trans (hw.lt_size hc)
  have hholds := hw.holds hc
  by_cases ht : (h.get p).type = .confNode
  · obtain ⟨news, hnews, -⟩ := hg.nodeChildren hp ht
    refine (ih (by rw [ht]; decide)).step ?_
    rw [hnews]
    exact List.mem_append_left _ hc
  by_cases ht' : (h.get p).type = .confTerm
  · refine (ih (by rw [ht']; decide)).step ?_
    rcases hg.otherChildren hp ht with heq | ⟨harray, -⟩
    · rw [heq]
      exact hc
    · rw [harray] at ht'
      cases ht'
  cases htype : (h.get p).type <;> rw [htype] at hholds ht ht' <;>
   first
    | exact absurd rfl ht
    | exact absurd rfl ht'
    | exact absurd hholds ho
    | exact hholds.elim

theorem trans (hg : Grows h h₁ touched) (hg' : Grows h₁ h' touched')
 (htouch : ∀ {o : ℕ}, o < h.size → touched' o → touched o) : Grows h h' touched := by
 refine ⟨hg'.wellFormed, hg.size_le.trans hg'.size_le, fun {o} ho hne => ?_, fun {o} ho => ?_,
  fun {o} ho ht => ?_, fun {o} ho ht => ?_⟩
 · rw [hg'.frame (ho.trans_le hg.size_le) (fun ht => hne (htouch ho ht)), hg.frame ho hne]
 · rw [hg'.fixed (ho.trans_le hg.size_le), hg.fixed ho]
 · obtain ⟨news, hnews, hnew⟩ := hg.nodeChildren ho ht
   obtain ⟨news', hnews', hnew'⟩ := hg'.nodeChildren (ho.trans_le hg.size_le)
    ((hg.type ho).trans ht)
   refine ⟨news ++ news', by rw [hnews', hnews, List.append_assoc], fun n hn => ?_⟩
   rcases List.mem_append.mp hn with hn | hn
   · exact hnew n hn
   · exact hg.size_le.trans (hnew' n hn)
 · have htype := hg.type ho
   rcases hg'.otherChildren (ho.trans_le hg.size_le) (by rw [htype]; exact ht) with heq | ⟨ha, heq⟩
   · rw [heq]
     exact hg.otherChildren ho ht
   · exact .inr ⟨htype.symm.trans ha, heq⟩

theorem mono (hg : Grows h h' touched) (htouch : ∀ {o : ℕ}, touched o → touched' o) :
 Grows h h' touched' :=
 ⟨hg.wellFormed, hg.size_le, fun ho hne => hg.frame ho (fun ht => hne (htouch ht)), hg.fixed,
  hg.nodeChildren, hg.otherChildren⟩

end Grows

theorem Built.grows {h h' : AstHeap} {dst : ℕ} (hb : Built h h' dst)
 (hd : (h.get dst).type = .confNode) : Grows h h' (· = dst) := by
 refine ⟨hb.wellFormed, hb.size_le, hb.frame, hb.keep AstObject.fixed (fun _ _ => rfl),
  fun {o} ho _ => ?_, fun {o} ho ht => ?_⟩
 · by_cases hod : o = dst
   · obtain ⟨news, hnews, hnew⟩ := hb.grown
     subst hod
     exact ⟨news, by rw [hnews]; rfl, hnew⟩
   · exact ⟨[], by rw [hb.frame ho hod, List.append_nil], fun _ hn => by cases hn⟩
 · rw [hb.frame ho (by rintro rfl; exact ht hd)]
   exact .inl rfl

theorem overwriteValue_grows {h h' : AstHeap} {dst src : ℕ} (hw : WellFormed h)
 (hrun : overwriteValue h dst src = .ok h') (hd : (h.get dst).type ≠ .confNode) :
 Grows h h' (· = dst) := by
 unfold overwriteValue at hrun
 split at hrun
 · next harray =>
   split at hrun
   · cases hrun
     have hsub : ∀ p, ((h.modify dst fun o => o.setChildren []).get p).children.Sublist
      (h.get p).children := by
      intro p
      rw [get_modify]
      split
      · exact List.nil_sublist _
      · exact List.Sublist.refl _
     have hfixed := modify_keep AstObject.fixed (f := fun o => o.setChildren [])
      (fun _ => rfl) h dst
     refine ⟨hw.of_keep (by rw [size_modify]) hsub (fun o => congrArg (·.2.2.1) (hfixed o))
      (fun o => congrArg (·.1) (hfixed o)), by rw [size_modify],
      fun _ hne => get_modify_ne h (Ne.symm hne) _, fun _ => hfixed _,
      fun {o} _ ht => ⟨[], ?_, fun _ hn => by cases hn⟩, fun {o} ho _ => ?_⟩
     · rw [List.append_nil, get_modify_ne]
       rintro rfl
       exact hd ht
     · by_cases hod : dst = o
       · subst hod
         rw [get_modify_self ho]
         exact .inr ⟨harray, rfl⟩
       · rw [get_modify_ne h hod]
         exact .inl rfl
   · cases hrun
 · cases hrun
   refine ⟨hw.modify dst (fun _ => rfl) (fun _ => rfl) (fun _ => rfl), by rw [size_modify],
    fun _ hne => get_modify_ne h (Ne.symm hne) _, fun _ => modify_keep AstObject.fixed
     (f := fun o => { o with
      integerValue := (h.get src).integerValue, stringValue := (h.get src).stringValue })
     (fun _ => rfl) h dst _, fun {o} _ _ => ⟨[], ?_, fun _ hn => by cases hn⟩,
    fun {o} _ _ => .inl ?_⟩
   · rw [List.append_nil]
     exact modify_keep AstObject.children (f := fun o => { o with
      integerValue := (h.get src).integerValue, stringValue := (h.get src).stringValue })
      (fun _ => rfl) h dst o
   · exact modify_keep AstObject.children (f := fun o => { o with
      integerValue := (h.get src).integerValue, stringValue := (h.get src).stringValue })
      (fun _ => rfl) h dst o

theorem child_mem {h : AstHeap} {a v : ℕ} (hv : h.child a = some v) : v ∈ (h.get a).children :=
 List.mem_of_head? hv

theorem copyTerm_grows {h h' : AstHeap} {dst src : ℕ} {overwrite : Bool} (hw : WellFormed h)
 (hrun : copyTerm h dst src overwrite = .ok h') (hd : (h.get dst).type = .confTerm) :
 Grows h h' (Below h dst) := by
 unfold copyTerm at hrun
 split at hrun
 · split at hrun
   · next value srcValue hvalue hsrc =>
     split at hrun
     · cases hrun
     · have hmem := child_mem hvalue
       have hholds := hw.holds hmem
       rw [hd] at hholds
       refine (overwriteValue_grows hw hrun hholds.1).mono ?_
       rintro o rfl
       exact .of_child hmem
   · cases hrun
 · cases hrun
   exact .refl hw

inductive Copies (overwrite : Bool) : AstHeap → ℕ → Option ℕ → AstHeap → Prop where
 | done {h : AstHeap} {dst : ℕ} : Copies overwrite h dst none h
 | build {h h₁ h' : AstHeap} {dst c : ℕ}
   (missing : h.lookupChild dst (h.get c).name (some (h.get c).type) = none)
   (built : Builds h dst [c] h₁)
   (rest : Copies overwrite h₁ dst (h₁.next c) h') : Copies overwrite h dst (some c) h'
 | node {h h₁ h' : AstHeap} {dst c peer : ℕ}
   (found : h.lookupChild dst (h.get c).name (some (h.get c).type) = some peer)
   (isNode : (h.get peer).isNode = true)
   (inner : Copies overwrite h peer (h.child c) h₁)
   (rest : Copies overwrite h₁ dst (h₁.next c) h') : Copies overwrite h dst (some c) h'
 | term {h h₁ h' : AstHeap} {dst c peer : ℕ}
   (found : h.lookupChild dst (h.get c).name (some (h.get c).type) = some peer)
   (isTerm : (h.get peer).isTerm = true)
   (copied : copyTerm h peer c overwrite = .ok h₁)
   (rest : Copies overwrite h₁ dst (h₁.next c) h') : Copies overwrite h dst (some c) h'
 | value {h h₁ h' : AstHeap} {dst c peer : ℕ}
   (found : h.lookupChild dst (h.get c).name (some (h.get c).type) = some peer)
   (notNode : (h.get peer).isNode = false) (notTerm : (h.get peer).isTerm = false)
   (copied : (if overwrite then overwriteValue h peer c else .ok h) = .ok h₁)
   (rest : Copies overwrite h₁ dst (h₁.next c) h') : Copies overwrite h dst (some c) h'

theorem copies_of_run (fuel : ℕ) : ∀ {h h' : AstHeap} {dst : ℕ} {child : Option ℕ}
 {overwrite : Bool}, copyNode fuel h dst child overwrite = .ok h' →
 Copies overwrite h dst child h' := by
 induction fuel with
 | zero =>
  intro h h' dst child overwrite hrun
  cases child with
  | none => cases hrun; exact .done
  | some c => cases hrun
 | succ fuel ih =>
  intro h h' dst child overwrite hrun
  cases child with
  | none => cases hrun; exact .done
  | some c =>
   rw [copyNode] at hrun
   split at hrun
   · next missing =>
     cases hb : buildChildren fuel h dst [c] with
     | error e => rw [hb] at hrun; cases hrun
     | ok h₁ =>
      rw [hb] at hrun
      exact .build missing (builds_of_run fuel hb) (ih hrun)
   · next peer found =>
     split at hrun
     · next isNode =>
       cases hin : copyNode fuel h peer (h.child c) overwrite with
       | error e => rw [hin] at hrun; cases hrun
       | ok h₁ =>
        rw [hin] at hrun
        exact .node found isNode (ih hin) (ih hrun)
     · next notNode =>
       split at hrun
       · next isTerm =>
         cases hin : copyTerm h peer c overwrite with
         | error e => rw [hin] at hrun; cases hrun
         | ok h₁ =>
          rw [hin] at hrun
          exact .term found isTerm hin (ih hrun)
       · next notTerm =>
         have notNode' := Bool.eq_false_iff.mpr notNode
         have notTerm' := Bool.eq_false_iff.mpr notTerm
         split at hrun
         · next hover =>
           cases hin : overwriteValue h peer c with
           | error e => rw [hin] at hrun; cases hrun
           | ok h₁ =>
            rw [hin] at hrun
            exact .value found notNode' notTerm' (by rw [if_pos hover, hin]) (ih hrun)
         · next hover => exact .value found notNode' notTerm' (if_neg hover) (ih hrun)

theorem successor_append {c : ℕ} : ∀ {done rest : List ℕ}, c ∉ done →
 successor c (done ++ c :: rest) = rest.head? := by
 intro done rest hc
 induction done with
 | nil => simp [successor]
 | cons d done ih =>
  rw [List.mem_cons, not_or] at hc
  rw [List.cons_append, successor, if_neg (Ne.symm hc.1)]
  exact ih hc.2

theorem next_of_children {h : AstHeap} (hw : WellFormed h) {p c : ℕ} {done rest : List ℕ}
 (hp : (h.get p).children = done ++ c :: rest) : h.next c = rest.head? := by
 have hmem : c ∈ (h.get p).children := by
  rw [hp]
  exact List.mem_append_right _ List.mem_cons_self
 have hnot : c ∉ done := fun hc => by
  have hnodup := hw.nodup p
  rw [hp] at hnodup
  exact (List.nodup_append.mp hnodup).2.2 c hc c List.mem_cons_self rfl
 rw [next, hw.parent hmem]
 change successor c (h.get p).children = _
 rw [hp, successor_append hnot]

structure Source (h : AstHeap) (dst src : ℕ) (rest : List ℕ) : Prop where
 dst_lt : dst < h.size
 dst_node : (h.get dst).type = .confNode
 src_lt : src < h.size
 src_node : (h.get src).type = .confNode
 split : ∃ done, (h.get src).children = done ++ rest

namespace Source

variable {h h₁ : AstHeap} {dst src peer c : ℕ} {rest : List ℕ} {touched : ℕ → Prop}

theorem mem (hs : Source h dst src rest) (hc : c ∈ rest) : c ∈ (h.get src).children := by
 obtain ⟨done, hsplit⟩ := hs.split
 rw [hsplit]
 exact List.mem_append_right done hc

theorem next (hs : Source h dst src (c :: rest)) (hg : Grows h h₁ touched) :
 ∃ news, h₁.next c = (rest ++ news).head? ∧ Source h₁ dst src (rest ++ news) ∧
  ∀ n ∈ news, h.size ≤ n := by
 obtain ⟨done, hsplit⟩ := hs.split
 obtain ⟨news, hnews, hnew⟩ := hg.nodeChildren hs.src_lt hs.src_node
 have hlist : (h₁.get src).children = done ++ c :: (rest ++ news) := by
  rw [hnews, hsplit, List.append_assoc, List.cons_append]
 refine ⟨news, next_of_children hg.wellFormed hlist, ?_, hnew⟩
 exact ⟨hs.dst_lt.trans_le hg.size_le, (hg.type hs.dst_lt).trans hs.dst_node,
  hs.src_lt.trans_le hg.size_le, (hg.type hs.src_lt).trans hs.src_node,
  ⟨done ++ [c], by rw [hlist, List.append_assoc]; rfl⟩⟩

theorem peer_not_value (hs : Source h dst src rest) (hw : WellFormed h) {name : Str}
 {type : Option ObjectType} (hfound : h.lookupChild dst name type = some peer)
 (notNode : (h.get peer).isNode = false) (notTerm : (h.get peer).isTerm = false) : False := by
 rcases (hw.holds (List.mem_of_find?_eq_some hfound)).node_iff.mp hs.dst_node with ht | ht
 · exact of_decide_eq_false notNode ht
 · exact of_decide_eq_false notTerm ht

theorem inner (hs : Source h dst src (c :: rest)) (hw : WellFormed h)
 (hfound : h.lookupChild dst (h.get c).name (some (h.get c).type) = some peer)
 (hnode : (h.get peer).isNode = true) : Source h peer c (h.get c).children := by
 have hmem := hs.mem (c := c) List.mem_cons_self
 have hpeer : peer ∈ (h.get dst).children := List.mem_of_find?_eq_some hfound
 have hnamed := List.find?_some hfound
 have htype : (h.get peer).type = (h.get c).type := by
  simp only [named, Bool.and_eq_true, Bool.or_eq_true, decide_eq_true_eq] at hnamed
  rcases hnamed.2 with heq | heq
  · cases heq
  · exact (Option.some.inj heq).symm
 have hpeerNode : (h.get peer).type = .confNode := of_decide_eq_true hnode
 exact ⟨hw.lt_size hpeer, hpeerNode, hw.lt_size hmem, htype.symm.trans hpeerNode, ⟨[], rfl⟩⟩

theorem suits (hs : Source h dst src (c :: rest)) (hw : WellFormed h) : Suits h dst [c] := by
 intro x hx
 rw [List.mem_singleton.mp hx]
 have hmem := hs.mem (c := c) List.mem_cons_self
 have hholds := hw.holds hmem
 rw [hs.src_node] at hholds
 rw [hs.dst_node]
 exact ⟨hw.lt_size hmem, hholds⟩

end Source

theorem peer_mem {h : AstHeap} {dst peer : ℕ} {name : Str} {type : Option ObjectType}
 (hfound : h.lookupChild dst name type = some peer) : peer ∈ (h.get dst).children :=
 List.mem_of_find?_eq_some hfound

theorem Copies.grows {overwrite : Bool} {h h' : AstHeap} {dst : ℕ} {child : Option ℕ}
 (hrun : Copies overwrite h dst child h') : ∀ {src : ℕ} {rest : List ℕ}, WellFormed h →
 Source h dst src rest → child = rest.head? → Grows h h' (Below h dst) := by
 induction hrun with
 | done => exact fun hw _ _ => .refl hw
 | @build h h₁ h' dst c missing built _ ih =>
  intro src rest hw hs hhead
  obtain ⟨rest, rfl⟩ : ∃ tail, rest = c :: tail := List.head?_eq_some_iff.mp hhead.symm
  have first := (built.built hw hs.dst_lt (hs.suits hw)).grows hs.dst_node
  obtain ⟨news, hnext, hs₁, -⟩ := hs.next first
  refine (first.mono ?_).trans (ih first.wellFormed hs₁ hnext) (fun ho => first.below_old ho)
  rintro o rfl
  exact .refl h o
 | @node h h₁ h' dst c peer found isNode _ _ ihInner ihRest =>
  intro src rest hw hs hhead
  obtain ⟨rest, rfl⟩ : ∃ tail, rest = c :: tail := List.head?_eq_some_iff.mp hhead.symm
  have first := ihInner hw (hs.inner hw found isNode) rfl
  obtain ⟨news, hnext, hs₁, -⟩ := hs.next first
  exact (first.mono (Below.of_child (peer_mem found)).trans).trans
   (ihRest first.wellFormed hs₁ hnext) (fun ho => first.below_old ho)
 | @term h h₁ h' dst c peer found isTerm copied _ ih =>
  intro src rest hw hs hhead
  obtain ⟨rest, rfl⟩ : ∃ tail, rest = c :: tail := List.head?_eq_some_iff.mp hhead.symm
  have first := copyTerm_grows hw copied (of_decide_eq_true isTerm)
  obtain ⟨news, hnext, hs₁, -⟩ := hs.next first
  exact (first.mono (Below.of_child (peer_mem found)).trans).trans
   (ih first.wellFormed hs₁ hnext) (fun ho => first.below_old ho)
 | @value h h₁ h' dst c peer found notNode notTerm _ _ ih =>
  intro src rest hw hs hhead
  exact (hs.peer_not_value hw found notNode notTerm).elim

/-- A copy of children `cs` to `dst` adds a copy of `o` under `d`. -/
inductive Lacks (h : AstHeap) : ℕ → List ℕ → ℕ → ℕ → Prop where
 | here {dst c o : ℕ} {cs : List ℕ} (mem : c ∈ cs)
   (missing : h.lookupChild dst (h.get c).name (some (h.get c).type) = none)
   (below : Below h c o) : Lacks h dst cs dst o
 | deep {dst c peer d o : ℕ} {cs : List ℕ} (mem : c ∈ cs)
   (found : h.lookupChild dst (h.get c).name (some (h.get c).type) = some peer)
   (isNode : (h.get peer).isNode = true)
   (inner : Lacks h peer (h.get c).children d o) : Lacks h dst cs d o

theorem Lacks.source {h : AstHeap} {dst d o : ℕ} {cs : List ℕ} (hl : Lacks h dst cs d o) :
 ∃ c ∈ cs, Below h c o := by
 induction hl with
 | here mem _ below => exact ⟨_, mem, below⟩
 | deep mem _ _ _ ih =>
  obtain ⟨c', hc', below⟩ := ih
  exact ⟨_, mem, (Below.of_child hc').trans below⟩

theorem Lacks.dest {h : AstHeap} {dst d o : ℕ} {cs : List ℕ} (hl : Lacks h dst cs d o) :
 Below h dst d := by
 induction hl with
 | here => exact .refl h _
 | deep _ found _ _ ih => exact (Below.of_child (peer_mem found)).trans ih

theorem Grows.lookupChild {h h₁ : AstHeap} {touched : ℕ → Prop} (hg : Grows h h₁ touched)
 (hw : WellFormed h) {dst : ℕ} (hd : dst < h.size) (hn : (h.get dst).type = .confNode)
 (name : Str) (type : Option ObjectType) :
 ∃ news : List ℕ, h₁.lookupChild dst name type =
  (h.lookupChild dst name type).or (news.find? (h₁.named name type)) := by
 obtain ⟨news, hnews, -⟩ := hg.nodeChildren hd hn
 refine ⟨news, ?_⟩
 rw [AstHeap.lookupChild, AstHeap.lookupChild, hnews, List.find?_append]
 refine congrArg (Option.or · _) (List.find?_congr fun c hc => ?_)
 rw [named, named, hg.name (hw.lt_size hc), hg.type (hw.lt_size hc)]

theorem Lacks.of_grows {h h₁ : AstHeap} {touched : ℕ → Prop} (hg : Grows h h₁ touched)
 (hw : WellFormed h) {dst d o : ℕ} {cs : List ℕ} (hl : Lacks h₁ dst cs d o) (ho : o < h.size) :
 ∀ {cs₀ : List ℕ}, dst < h.size → (h.get dst).type = .confNode →
  (∀ c ∈ cs, c < h.size → c ∈ cs₀) →
  ∃ d₀, Lacks h dst cs₀ d₀ o ∧ Below h₁ d₀ d ∧ (h.get d₀).type = .confNode := by
 have low : ∀ {c : ℕ}, Below h₁ c o → c < h.size := fun hc => (hc.le hg.wellFormed).trans_lt ho
 induction hl with
 | @here dst c o cs mem missing below =>
  intro cs₀ hd hn hcs
  have hc := low below
  obtain ⟨news, hnews⟩ := hg.lookupChild hw hd hn (h₁.get c).name (some (h₁.get c).type)
  rw [missing, hg.name hc, hg.type hc] at hnews
  have missing₀ := (Option.or_eq_none_iff.mp hnews.symm).1
  exact ⟨dst, .here (hcs c mem hc) missing₀ (hg.below_old ho below), .refl h₁ dst, hn⟩
 | @deep dst c peer d o cs mem found isNode inner ih =>
  intro cs₀ hd hn hcs
  obtain ⟨c', hc', below'⟩ := inner.source
  have below := (Below.of_child hc').trans below'
  have hc := low below
  obtain ⟨news, hnews⟩ := hg.lookupChild hw hd hn (h₁.get c).name (some (h₁.get c).type)
  rw [found, hg.name hc, hg.type hc] at hnews
  cases hfound : h.lookupChild dst (h.get c).name (some (h.get c).type) with
  | none =>
   exact ⟨dst, .here (hcs c mem hc) hfound (hg.below_old ho below),
    (Below.of_child (peer_mem found)).trans inner.dest, hn⟩
  | some peer₀ =>
   rw [hfound] at hnews
   obtain rfl : peer = peer₀ := Option.some.inj hnews
   have hpeer := hw.lt_size (peer_mem hfound)
   have hpeerNode : (h.get peer).type = .confNode :=
    (hg.type hpeer).symm.trans (of_decide_eq_true isNode)
   obtain ⟨d₀, hlack, hbelow, hd₀⟩ := ih ho low hpeer hpeerNode (fun x hx hxlt => hg.old hxlt hx)
   exact ⟨d₀, .deep (hcs c mem hc) hfound (decide_eq_true hpeerNode) hlack, hbelow, hd₀⟩

theorem Lacks.of_same {h h' : AstHeap} (hchildren : ∀ p, (h'.get p).children = (h.get p).children)
 (hname : ∀ o, (h'.get o).name = (h.get o).name) (htype : ∀ o, (h'.get o).type = (h.get o).type)
 {dst d o : ℕ} {cs : List ℕ} (hl : Lacks h' dst cs d o) : Lacks h dst cs d o := by
 have hlookup : ∀ a name type, h'.lookupChild a name type = h.lookupChild a name type := by
  intro a name type
  rw [AstHeap.lookupChild, AstHeap.lookupChild, hchildren]
  refine List.find?_congr fun x _ => ?_
  rw [named, named, hname, htype]
 induction hl with
 | here mem missing below =>
  rw [hlookup, hname, htype] at missing
  exact .here mem missing (below.of_subset fun p => by rw [hchildren p]; exact List.Subset.refl _)
 | deep mem found isNode _ ih =>
  rw [hlookup, hname, htype] at found
  rw [AstObject.isNode, htype] at isNode
  rw [hchildren] at ih
  exact .deep mem found isNode ih

def Under (roots : ℕ → Prop) (h : AstHeap) (o : ℕ) : Prop := ∃ q, roots q ∧ Below h q o

theorem AstObject.plain_of_scalar {o : AstObject} (ho : o.type.Scalar) : o.Plain := by
 refine ⟨fun ht => ?_, fun ht => ?_, fun ht => ?_⟩ <;> rw [ht] at ho <;>
  exact absurd ho (by decide)

theorem Grows.under {h h₁ : AstHeap} {touched roots : ℕ → Prop} (hg : Grows h h₁ touched)
 (hw : WellFormed h) {o : ℕ} (hu : Under roots h o) (ho : ¬ (h.get o).type.Scalar) :
 Under roots h₁ o := by
 obtain ⟨q, hq, below⟩ := hu
 exact ⟨q, hq, hg.below hw below ho⟩

/-- The roots are older objects that have nothing in common with the source. -/
structure Apart (roots : ℕ → Prop) (h : AstHeap) (src : ℕ) : Prop where
 lt : ∀ {q : ℕ}, roots q → q < h.size
 above : ∀ {q : ℕ}, roots q → ¬ Below h q src
 below : ∀ {q : ℕ}, roots q → ¬ Below h src q

namespace Apart

variable {h h₁ : AstHeap} {touched roots : ℕ → Prop} {src c o : ℕ}

theorem child (ha : Apart roots h src) (hw : WellFormed h) (hc : c ∈ (h.get src).children) :
 Apart roots h c where
 lt := ha.lt
 above {q} hq hb := by
  by_cases heq : q = c
  · rw [heq] at hq
    exact ha.below hq (.of_child hc)
  · exact ha.above hq (hb.parent_of_ne hw hc heq)
 below hq hb := ha.below hq ((Below.of_child hc).trans hb)

theorem grows (ha : Apart roots h src) (hg : Grows h h₁ touched) (hs : src < h.size) :
 Apart roots h₁ src where
 lt hq := (ha.lt hq).trans_le hg.size_le
 above hq hb := ha.above hq (hg.below_old hs hb)
 below hq hb := ha.below hq (hg.below_old (ha.lt hq) hb)

theorem not_under (ha : Apart roots h src) (hw : WellFormed h) (ho : Below h src o) :
 ¬ Under roots h o := by
 rintro ⟨q, hq, hb⟩
 rcases Below.total hw hb ho with hb | hb
 · exact ha.above hq hb
 · exact ha.below hq hb

end Apart

def Covers (roots : ℕ → Prop) (h : AstHeap) (dst : ℕ) (cs : List ℕ) : Prop :=
 ∀ d o, Lacks h dst cs d o → (h.get o).Plain ∨ Under roots h d

def NewCovered (roots : ℕ → Prop) (h h' : AstHeap) : Prop :=
 ∀ o, h.size ≤ o → o < h'.size → (h'.get o).Plain ∨ Under roots h' o

theorem Covers.rest {h h₁ : AstHeap} {touched roots : ℕ → Prop} {dst src c : ℕ}
 {rest rest₁ : List ℕ} (hc : Covers roots h dst (c :: rest)) (hw : WellFormed h)
 (hg : Grows h h₁ touched) (hs : Source h dst src (c :: rest)) (hs₁ : Source h₁ dst src rest₁)
 (hrest : ∀ x ∈ rest₁, x < h.size → x ∈ rest) (ha : Apart roots h src)
 (hnew : NewCovered roots h h₁) : Covers roots h₁ dst rest₁ := by
 intro d o hl
 obtain ⟨x, hx, hxo⟩ := hl.source
 by_cases ho : o < h.size
 · obtain ⟨d₀, hl₀, hbelow, hd₀⟩ := hl.of_grows hg hw ho hs.dst_lt hs.dst_node
    (fun y hy hylt => List.mem_cons_of_mem c (hrest y hy hylt))
   rcases hc d₀ o hl₀ with hp | hu
   · exact .inl ((hg.plain ho).mpr hp)
   · obtain ⟨q, hq, hqd⟩ := hg.under hw hu (by rw [hd₀]; decide)
     exact .inr ⟨q, hq, hqd.trans hbelow⟩
 · have hsrc : Below h₁ src o := (Below.of_child (hs₁.mem hx)).trans hxo
   rcases hnew o (by omega) (hsrc.lt_size hg.wellFormed hs₁.src_lt) with hp | hu
   · exact .inl hp
   · exact absurd hu ((ha.grows hg hs.src_lt).not_under hg.wellFormed hsrc)

theorem NewCovered.trans {h h₁ h' : AstHeap} {touched roots : ℕ → Prop}
 (hn : NewCovered roots h h₁) (hn' : NewCovered roots h₁ h') (hg : Grows h₁ h' touched)
 (hw : WellFormed h₁) : NewCovered roots h h' := by
 intro o hle hlt
 by_cases ho : o < h₁.size
 · rcases hn o hle ho with hp | hu
   · exact .inl ((hg.plain ho).mpr hp)
   · by_cases hscalar : (h₁.get o).type.Scalar
     · exact .inl ((hg.plain ho).mpr (AstObject.plain_of_scalar hscalar))
     · exact .inr (hg.under hw hu hscalar)
 · exact hn' o (by omega) hlt

theorem Builds.newCovered {h h₁ : AstHeap} {roots : ℕ → Prop} {dst src c : ℕ} {rest : List ℕ}
 (hrun : Builds h dst [c] h₁) (hw : WellFormed h) (hs : Source h dst src (c :: rest))
 (hmissing : h.lookupChild dst (h.get c).name (some (h.get c).type) = none)
 (hc : Covers roots h dst (c :: rest)) : NewCovered roots h h₁ := by
 intro o hle hlt
 have built := hrun.built hw hs.dst_lt (hs.suits hw)
 by_cases hu : Under roots h dst
 · obtain ⟨q, hq, hqd⟩ := (built.grows hs.dst_node).under hw hu (by rw [hs.dst_node]; decide)
   exact .inr ⟨q, hq, hqd.trans (built.below hle hlt)⟩
 · refine .inl (hrun.plain hw hs.dst_lt (hs.suits hw) (fun x hx y hy => ?_) hle hlt)
   rw [List.mem_singleton.mp hx] at hy
   exact (hc dst y (.here List.mem_cons_self hmissing hy)).resolve_right hu

theorem overwriteValue_size {h h₁ : AstHeap} {dst src : ℕ}
 (hrun : overwriteValue h dst src = .ok h₁) : h₁.size = h.size := by
 unfold overwriteValue at hrun
 split at hrun
 · split at hrun
   · cases hrun
     exact size_modify _ _ _
   · cases hrun
 · cases hrun
   exact size_modify _ _ _

theorem copyTerm_size {h h₁ : AstHeap} {dst src : ℕ} {overwrite : Bool}
 (hrun : copyTerm h dst src overwrite = .ok h₁) : h₁.size = h.size := by
 unfold copyTerm at hrun
 split at hrun
 · split at hrun
   · split at hrun
     · cases hrun
     · exact overwriteValue_size hrun
   · cases hrun
 · cases hrun
   rfl

theorem NewCovered.mono {h h' : AstHeap} {roots roots' : ℕ → Prop} (hn : NewCovered roots h h')
 (hroots : ∀ q, roots q → Under roots' h' q) : NewCovered roots' h h' := by
 intro o hle hlt
 rcases hn o hle hlt with hp | ⟨q, hq, hqo⟩
 · exact .inl hp
 · obtain ⟨q', hq', hb⟩ := hroots q hq
   exact .inr ⟨q', hq', hb.trans hqo⟩

theorem Copies.newUnder {overwrite : Bool} {h h' : AstHeap} {dst : ℕ} {child : Option ℕ}
 (hrun : Copies overwrite h dst child h') : ∀ {src : ℕ} {rest : List ℕ}, WellFormed h →
 Source h dst src rest → child = rest.head? → NewCovered (· = dst) h h' := by
 induction hrun with
 | done => exact fun _ _ _ _ hle hlt => absurd hle (by omega)
 | @build h h₁ h' dst c missing built restRun ih =>
  intro src rest hw hs hhead
  obtain ⟨rest, rfl⟩ : ∃ tail, rest = c :: tail := List.head?_eq_some_iff.mp hhead.symm
  have hb := built.built hw hs.dst_lt (hs.suits hw)
  have first := hb.grows hs.dst_node
  obtain ⟨news, hnext, hs₁, -⟩ := hs.next first
  have hnew : NewCovered (· = dst) h h₁ := fun o hle hlt => .inr ⟨dst, rfl, hb.below hle hlt⟩
  exact hnew.trans (ih first.wellFormed hs₁ hnext) (restRun.grows first.wellFormed hs₁ hnext)
   first.wellFormed
 | @node h h₁ h' dst c peer found isNode innerRun restRun ihInner ihRest =>
  intro src rest hw hs hhead
  obtain ⟨rest, rfl⟩ : ∃ tail, rest = c :: tail := List.head?_eq_some_iff.mp hhead.symm
  have hsInner := hs.inner hw found isNode
  have first := innerRun.grows hw hsInner rfl
  obtain ⟨news, hnext, hs₁, -⟩ := hs.next first
  have hnew : NewCovered (· = dst) h h₁ := (ihInner hw hsInner rfl).mono fun q hq =>
   ⟨dst, rfl, hq ▸ first.below hw (.of_child (peer_mem found)) (by
    rw [hsInner.dst_node]
    decide)⟩
  exact hnew.trans (ihRest first.wellFormed hs₁ hnext)
   (restRun.grows first.wellFormed hs₁ hnext) first.wellFormed
 | @term h h₁ h' dst c peer found isTerm copied restRun ih =>
  intro src rest hw hs hhead
  obtain ⟨rest, rfl⟩ : ∃ tail, rest = c :: tail := List.head?_eq_some_iff.mp hhead.symm
  have first := copyTerm_grows hw copied (of_decide_eq_true isTerm)
  obtain ⟨news, hnext, hs₁, -⟩ := hs.next first
  have hnew : NewCovered (· = dst) h h₁ := fun o hle hlt => by
   rw [copyTerm_size copied] at hlt
   omega
  exact hnew.trans (ih first.wellFormed hs₁ hnext) (restRun.grows first.wellFormed hs₁ hnext)
   first.wellFormed
 | @value h h₁ h' dst c peer found notNode notTerm _ _ _ =>
  intro src rest hw hs hhead
  exact (hs.peer_not_value hw found notNode notTerm).elim

theorem Copies.newCovered {overwrite : Bool} {roots : ℕ → Prop} {h h' : AstHeap} {dst : ℕ}
 {child : Option ℕ} (hrun : Copies overwrite h dst child h') :
 ∀ {src : ℕ} {rest : List ℕ}, WellFormed h → Source h dst src rest → child = rest.head? →
  Apart roots h src → Covers roots h dst rest → NewCovered roots h h' := by
 -- the rest of the copy, after a first child that leads to `h₁`
 have next : ∀ {h h₁ h' : AstHeap} {touched : ℕ → Prop} {dst src c : ℕ} {rest : List ℕ},
  (∀ {src : ℕ} {rest : List ℕ}, WellFormed h₁ → Source h₁ dst src rest →
   h₁.next c = rest.head? → Apart roots h₁ src → Covers roots h₁ dst rest →
   NewCovered roots h₁ h') → Copies overwrite h₁ dst (h₁.next c) h' → WellFormed h →
  Grows h h₁ touched → Source h dst src (c :: rest) → Apart roots h src →
  Covers roots h dst (c :: rest) → NewCovered roots h h₁ → NewCovered roots h h' := by
  intro h h₁ h' touched dst src c rest ih restRun hw hg hs ha hc hnew
  obtain ⟨news, hnext, hs₁, hold⟩ := hs.next hg
  refine hnew.trans (ih hg.wellFormed hs₁ hnext (ha.grows hg hs.src_lt)
   (hc.rest hw hg hs hs₁ (fun x hx hxlt => ?_) ha hnew))
   (restRun.grows hg.wellFormed hs₁ hnext) hg.wellFormed
  rcases List.mem_append.mp hx with hx | hx
  · exact hx
  · exact absurd (hold x hx) (by omega)
 induction hrun with
 | done => exact fun _ _ _ _ _ _ hle hlt => absurd hle (by omega)
 | @build h h₁ h' dst c missing built restRun ih =>
  intro src rest hw hs hhead ha hc
  obtain ⟨rest, rfl⟩ : ∃ tail, rest = c :: tail := List.head?_eq_some_iff.mp hhead.symm
  exact next ih restRun hw ((built.built hw hs.dst_lt (hs.suits hw)).grows hs.dst_node) hs ha hc
   (built.newCovered hw hs missing hc)
 | @node h h₁ h' dst c peer found isNode innerRun restRun ihInner ihRest =>
  intro src rest hw hs hhead ha hc
  obtain ⟨rest, rfl⟩ : ∃ tail, rest = c :: tail := List.head?_eq_some_iff.mp hhead.symm
  have hsInner := hs.inner hw found isNode
  refine next ihRest restRun hw (innerRun.grows hw hsInner rfl) hs ha hc
   (ihInner hw hsInner rfl (ha.child hw (hs.mem List.mem_cons_self)) fun d o hl => ?_)
  exact hc d o (.deep List.mem_cons_self found isNode hl)
 | @term h h₁ h' dst c peer found isTerm copied restRun ih =>
  intro src rest hw hs hhead ha hc
  obtain ⟨rest, rfl⟩ : ∃ tail, rest = c :: tail := List.head?_eq_some_iff.mp hhead.symm
  refine next ih restRun hw (copyTerm_grows hw copied (of_decide_eq_true isTerm)) hs ha hc
   fun o hle hlt => ?_
  rw [copyTerm_size copied] at hlt
  omega
 | @value h h₁ h' dst c peer found notNode notTerm _ _ _ =>
  intro src rest hw hs hhead ha hc
  exact (hs.peer_not_value hw found notNode notTerm).elim

end DriversFramework.HcAst
