import DriversFramework.HcAstCalls
import DriversFramework.HcAstMerge

namespace DriversFramework.HcAst

open AstHeap

def childNames (h : AstHeap) (a : ℕ) : List Str := (h.get a).children.map fun c => (h.get c).name

/-- No node from the address `n` on has two children of one name. -/
def UniqueFrom (h : AstHeap) (n : ℕ) : Prop :=
 ∀ o, n ≤ o → (h.get o).type = .confNode → (childNames h o).Nodup

theorem uniqueFrom_succ_iff (h : AstHeap) (n : ℕ) :
 UniqueFrom h n ↔ ((h.get n).type = .confNode → (childNames h n).Nodup) ∧ UniqueFrom h (n + 1) := by
 constructor
 · intro hu
   exact ⟨hu n le_rfl, fun o ho => hu o (by omega)⟩
 · intro hu o ho
   by_cases hn : o = n
   · rw [hn]
     exact hu.1
   · exact hu.2 o (by omega)

theorem uniqueFrom_of_size_le {h : AstHeap} {n : ℕ} (hn : h.size ≤ n) : UniqueFrom h n := by
 intro o ho hnode
 have := lt_size_of_node hnode
 omega

section Built

variable {h h₁ h' : AstHeap} {dst a n : ℕ}

theorem childNames_built (hw : WellFormed h) (hb : Built h h' dst) {o : ℕ} (ho : o < h.size)
 (hne : o ≠ dst) : childNames h' o = childNames h o := by
 rw [childNames, childNames, hb.frame ho hne]
 exact List.map_congr_left fun c hc => hb.keep AstObject.name (fun _ _ => rfl) (hw.lt_size hc)

theorem uniqueFrom_built_iff (hw : WellFormed h) (hb : Built h h' dst) (hd : dst < n)
 (hn : n ≤ h.size) : UniqueFrom h' n ↔ UniqueFrom h n ∧ UniqueFrom h' h.size := by
 have old : ∀ {o}, n ≤ o → o < h.size →
  (h'.get o).type = (h.get o).type ∧ childNames h' o = childNames h o := fun hle hlt =>
  ⟨hb.keep AstObject.type (fun _ _ => rfl) hlt, childNames_built hw hb hlt (by omega)⟩
 constructor
 · intro hu
   refine ⟨fun o ho hnode => ?_, fun o ho => hu o (hn.trans ho)⟩
   have hlt := lt_size_of_node hnode
   rw [← (old ho hlt).2]
   exact hu o ho ((old ho hlt).1.trans hnode)
 · intro hu o ho hnode
   by_cases hlt : o < h.size
   · rw [(old ho hlt).2]
     exact hu.1 o ho ((old ho hlt).1.symm.trans hnode)
   · exact hu.2 o (by omega) hnode

theorem addChild_name (h : AstHeap) (a c o : ℕ) : ((h.addChild a c).get o).name = (h.get o).name :=
 addChild_keep AstObject.name (fun _ _ => rfl) (fun _ _ => rfl) h a c o

theorem addChild_type (h : AstHeap) (a c o : ℕ) : ((h.addChild a c).get o).type = (h.get o).type :=
 addChild_keep AstObject.type (fun _ _ => rfl) (fun _ _ => rfl) h a c o

theorem childNames_addChild (ha : a < h.size) (c o : ℕ) :
 childNames (h.addChild a c) o =
  if o = a then childNames h a ++ [(h.get c).name] else childNames h o := by
 rw [childNames, addChild_children ha]
 simp only [addChild_name]
 split
 · rw [List.map_append]
   rfl
 · rfl

theorem uniqueFrom_addChild_iff (ha : a < h.size) (hn : a < n) (c : ℕ) :
 UniqueFrom (h.addChild a c) n ↔ UniqueFrom h n := by
 refine forall_congr' fun o => ?_
 rw [addChild_type, childNames_addChild ha]
 refine imp_congr_right fun ho => ?_
 rw [if_neg (by omega)]

theorem childNames_addChild_new {o : AstObject} (hw : WellFormed h) (ho : o.children = [])
 (hb : Built (h.alloc o) h₁ h.size) (ha : a < h.size) :
 childNames (h₁.addChild a h.size) a = childNames h a ++ [o.name] := by
 have hsize : (h.alloc o).size = h.size + 1 := size_alloc h o
 have hname : (h₁.get h.size).name = o.name := by
  rw [hb.keep AstObject.name (fun _ _ => rfl) (by omega), get_alloc_new]
 have hold : childNames h₁ a = childNames h a := by
  rw [childNames_built (hw.alloc ho) hb (by omega) (by omega), childNames, get_alloc_of_lt ha]
  refine List.map_congr_left fun c hc => ?_
  rw [get_alloc_of_lt (hw.lt_size hc)]
 rw [childNames_addChild (ha.trans_le (by have := hb.size_le; omega)), if_pos rfl, hname, hold]

end Built

theorem not_node_of_term {h h₁ : AstHeap} {o : AstObject} (ho : o.type = .confTerm)
 (hb : Built (h.alloc o) h₁ h.size) {x : ℕ} (hx : h.size ≤ x) : (h₁.get x).type ≠ .confNode := by
 have hsize : (h.alloc o).size = h.size + 1 := size_alloc h o
 have hterm : (h₁.get h.size).type ≠ .confNode := by
  rw [hb.keep AstObject.type (fun _ _ => rfl) (by omega), get_alloc_new, ho]
  exact ObjectType.noConfusion
 intro hnode
 by_cases hxo : x = h.size
 · exact absurd (hxo ▸ hnode) hterm
 · have hbelow := hb.below (by omega : (h.alloc o).size ≤ x) (lt_size_of_node hnode)
   exact absurd hnode (hbelow.not_node hb.wellFormed hterm)

theorem uniqueFrom_term {h h₁ : AstHeap} {o : AstObject} (ho : o.type = .confTerm)
 (hb : Built (h.alloc o) h₁ h.size) : UniqueFrom h₁ h.size :=
 fun _ hx hnode => absurd hnode (not_node_of_term ho hb hx)

theorem addSource_next {next : SourceObjects} {a : ℕ} {h h₁ : AstHeap} {o : AstObject}
 (hw : WellFormed h) (ha : a < h.size) (ho : o.children = [])
 (hb : Built (h.alloc o) h₁ h.size) (first : Built h (h₁.addChild a h.size) a)
 (rest : Built (h₁.addChild a h.size) (addSource a next (h₁.addChild a h.size)) a)
 (ih : childNames (addSource a next (h₁.addChild a h.size)) a =
  childNames (h₁.addChild a h.size) a ++ next.names ∧
  (UniqueFrom (addSource a next (h₁.addChild a h.size)) (h₁.addChild a h.size).size ↔
   next.UniqueBelow)) :
 childNames (addSource a next (h₁.addChild a h.size)) a =
  childNames h a ++ o.name :: next.names ∧
  (UniqueFrom (addSource a next (h₁.addChild a h.size)) h.size ↔
   UniqueFrom h₁ h.size ∧ next.UniqueBelow) := by
 constructor
 · rw [ih.1, childNames_addChild_new hw ho hb ha, List.append_assoc]
   rfl
 · have hsize : (h.alloc o).size ≤ h₁.size := hb.size_le
   rw [size_alloc] at hsize
   rw [uniqueFrom_built_iff first.wellFormed rest ha first.size_le, ih.2,
    uniqueFrom_addChild_iff (by omega) ha]

theorem addSource_names (source : SourceObjects) : ∀ {a : ℕ} {h : AstHeap}, WellFormed h →
 a < h.size → (h.get a).type = .confNode →
 childNames (addSource a source h) a = childNames h a ++ source.names ∧
  (UniqueFrom (addSource a source h) h.size ↔ source.UniqueBelow) := by
 induction source with
 | nil =>
  intro a h _ _ _
  exact ⟨(List.append_nil _).symm, iff_of_true (uniqueFrom_of_size_le le_rfl) trivial⟩
 | term name value next ih =>
  intro a h hw ha ht
  have hlt : h.size < (h.alloc { type := .confTerm, name := name }).size := by
   rw [size_alloc]
   exact Nat.lt_succ_self _
  have valueBuilt := built_addChild hlt value.object_parent (addValue_built (hw.alloc rfl) value)
   (by rw [get_alloc_new]; exact value.object_holds)
  have first := built_addChild ha rfl valueBuilt (by rw [ht]; exact .inr rfl)
  have ha₁ := ha.trans_le first.size_le
  have ht₁ := (first.keep AstObject.type (fun _ _ => rfl) ha).trans ht
  obtain ⟨hnames, hunique⟩ := addSource_next hw ha rfl valueBuilt first
   (addSource_built next first.wellFormed ha₁ ht₁) (ih first.wellFormed ha₁ ht₁)
  refine ⟨hnames, hunique.trans ?_⟩
  exact and_iff_right (uniqueFrom_term rfl valueBuilt)
 | node name nodeType refPath child next ihChild ihNext =>
  intro a h hw ha ht
  have hwNode : WellFormed (h.alloc
   { type := .confNode, name := name, nodeType := nodeType, refNodePath := refPath }) :=
   hw.alloc rfl
  have hlt : h.size < (h.alloc
   { type := .confNode, name := name, nodeType := nodeType, refNodePath := refPath }).size := by
   rw [size_alloc]
   exact Nat.lt_succ_self _
  have hnode := get_alloc_new h
   { type := .confNode, name := name, nodeType := nodeType, refNodePath := refPath }
  have childBuilt := addSource_built child hwNode hlt (by rw [hnode])
  have first := built_addChild ha rfl childBuilt (by rw [ht]; exact .inl rfl)
  have ha₁ := ha.trans_le first.size_le
  have ht₁ := (first.keep AstObject.type (fun _ _ => rfl) ha).trans ht
  obtain ⟨hnames, hunique⟩ := addSource_next hw ha rfl childBuilt first
   (addSource_built next first.wellFormed ha₁ ht₁) (ihNext first.wellFormed ha₁ ht₁)
  refine ⟨hnames, hunique.trans ?_⟩
  -- the node itself has no other children than these
  obtain ⟨childNamesEq, childUnique⟩ := ihChild hwNode hlt (by rw [hnode])
  have hempty : childNames (h.alloc
   { type := .confNode, name := name, nodeType := nodeType, refNodePath := refPath }) h.size
     = [] := by
   rw [childNames, hnode]
   rfl
  have htype := childBuilt.keep AstObject.type (fun _ _ => rfl) hlt
  rw [hnode] at htype
  rw [size_alloc] at childUnique
  rw [uniqueFrom_succ_iff, childNamesEq, hempty, childUnique, imp_iff_right htype, and_assoc]
  rfl

theorem ofSource_unique_iff (redefineChecked : Bool) (source : SourceObjects) :
 UniqueFrom (Ast.ofSource redefineChecked source).heap 0 ↔ source.UniqueNames := by
 have hroot : WellFormed ⟨[{ type := .confNode, name := rootName }]⟩ := rootHeap_wellFormed rfl
 obtain ⟨hnames, hunique⟩ := addSource_names source hroot Nat.zero_lt_one rfl
 have hb := ofSource_built redefineChecked source
 have htype : ((Ast.ofSource redefineChecked source).heap.get 0).type = .confNode :=
  hb.keep AstObject.type (fun _ _ => rfl) Nat.zero_lt_one
 rw [uniqueFrom_succ_iff, imp_iff_right htype]
 change (childNames (addSource 0 source _) 0).Nodup ∧ UniqueFrom (addSource 0 source _) 1 ↔ _
 rw [hnames]
 exact and_congr_right fun _ => hunique

theorem WalksForward.visits {callback : AstHeap → ℕ → Result} {Checked : AstHeap → ℕ → Prop}
 (hcall : ∀ {h h' : AstHeap} {c : ℕ}, callback h c = .ok h' → h' = h ∧ Checked h c)
 {h h' : AstHeap} {start : Option ℕ} {calls : List (AstHeap × ℕ)}
 (hrun : WalksForward callback h start calls h') : ∀ {p : ℕ} {done rest : List ℕ},
  WellFormed h → (h.get p).children = done ++ rest → start = rest.head? →
  h' = h ∧ ∀ c ∈ rest, ∀ o, Below h c o → Checked h o := by
 induction hrun with
 | done =>
  intro p done rest _ _ hstart
  obtain rfl : rest = [] := List.head?_eq_none_iff.mp hstart.symm
  exact ⟨rfl, fun c hc => by cases hc⟩
 | @visit h h₁ h₂ h₃ c under behind call _ _ ihDescend ihProceed =>
  intro p done rest hw hp hstart
  obtain ⟨rest, rfl⟩ : ∃ tail, rest = c :: tail := List.head?_eq_some_iff.mp hstart.symm
  obtain ⟨rfl, here⟩ := hcall call
  obtain ⟨rfl, below⟩ := ihDescend hw (List.nil_append _).symm rfl
  obtain ⟨rfl, later⟩ := @ihProceed p (done ++ [c]) rest hw
   (by rw [hp, List.append_assoc]; rfl) (next_of_children hw hp)
  refine ⟨rfl, fun x hx o hxo => ?_⟩
  rcases List.mem_cons.mp hx with rfl | hx
  · rcases Relation.ReflTransGen.cases_head hxo with rfl | ⟨y, hy, hyo⟩
    · exact here
    · exact below y hy o hyo
  · exact later x hx o hxo

theorem redefineCheckAt_unique {h h' : AstHeap} {c : ℕ} (hrun : redefineCheckAt h c = .ok h') :
 h' = h ∧ ((h.get c).type = .confNode → (childNames h c).Nodup) := by
 refine ⟨redefineCheckAt_same hrun, fun hnode => ?_⟩
 by_contra hdup
 rw [redefineCheckAt, if_pos ⟨isNode_iff.mpr hnode, hdup⟩] at hrun
 cases hrun

theorem unique_of_redefineCheckFile {fuel : ℕ} {source : SourceObjects}
 (hrun : redefineCheckFile fuel (some source) = .ok ()) : source.UniqueNames := by
 have hb := ofSource_built false source
 have hw := hb.wellFormed
 rw [← ofSource_unique_iff false source]
 rw [redefineCheckFile, Ast.redefineCheck, if_neg (by exact Bool.false_ne_true)] at hrun
 cases hwalk : walkForward redefineCheckAt fuel (Ast.ofSource false source).heap (some 0) with
 | error e =>
  change (walkForward redefineCheckAt fuel (Ast.ofSource false source).heap (some 0) >>= _) >>= _ =
   _ at hrun
  rw [hwalk] at hrun
  cases hrun
 | ok h' =>
  have walks := walksForward_of_run _ fuel hwalk
  generalize callsForward redefineCheckAt fuel (Ast.ofSource false source).heap (some 0) = calls
   at walks
  cases walks with
  | visit call descend proceed =>
   obtain ⟨rfl, here⟩ := redefineCheckAt_unique call
   obtain ⟨rfl, below⟩ := descend.visits redefineCheckAt_unique hw (List.nil_append _).symm rfl
   intro o _ hnode
   have hroot : Below (Ast.ofSource false source).heap 0 o := by
    by_cases ho : o = 0
    · rw [ho]
      exact .refl _ 0
    · exact hb.below (Nat.one_le_iff_ne_zero.mpr ho) (lt_size_of_node hnode)
   rcases Relation.ReflTransGen.cases_head hroot with rfl | ⟨c, hc, hco⟩
   · exact here hnode
   · exact below c hc o hco hnode

end DriversFramework.HcAst
