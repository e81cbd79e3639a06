import DriversFramework.HcAstEdits

namespace DriversFramework.HcAst

open AstHeap

abbrev Key := Str × ObjectType

def AstObject.key (o : AstObject) : Key := (o.name, o.type)

theorem nodup_grown_iff {names : List Key} {name : Key} (nodup : names.Nodup) :
 (names ++ [name]).Nodup ↔ name ∉ names := by
 rw [← List.concat_eq_append, List.nodup_concat]
 exact and_iff_left nodup

namespace SourceObjects

def keys : SourceObjects → List Key
 | .nil => []
 | .term name _ next => (name, .confTerm) :: next.keys
 | .node name _ _ _ next => (name, .confNode) :: next.keys

def KeyedBelow : SourceObjects → Prop
 | .nil => True
 | .term _ _ next => next.KeyedBelow
 | .node _ _ _ child next => child.keys.Nodup ∧ child.KeyedBelow ∧ next.KeyedBelow

def Keyed (source : SourceObjects) : Prop := source.keys.Nodup ∧ source.KeyedBelow

theorem names_eq (source : SourceObjects) : source.names = source.keys.map (·.1) := by
 induction source with
 | nil => rfl
 | term name value next ih | node name nodeType refPath child next _ ih => rw [names, keys, List.map_cons, ih]

theorem UniqueNames.keyed {source : SourceObjects} (unique : source.UniqueNames) : source.Keyed := by
 have keys : ∀ {source : SourceObjects}, source.names.Nodup → source.keys.Nodup := fun nodup => by
  rw [names_eq] at nodup
  exact nodup.of_map
 have below : ∀ source : SourceObjects, source.UniqueBelow → source.KeyedBelow := by
  intro source
  induction source with
  | nil => exact id
  | term name value next ih => exact ih
  | node name nodeType refPath child next ihChild ihNext =>
   exact fun unique => ⟨keys unique.1, ihChild unique.2.1, ihNext unique.2.2⟩
 exact ⟨keys unique.1, below source unique.2⟩

theorem hasTerm_iff {name : Str} (source : SourceObjects) :
 source.hasTerm name = true ↔ (name, .confTerm) ∈ source.keys := by
 induction source with
 | nil => simp [hasTerm, keys]
 | term n value next ih =>
  rw [hasTerm, keys, Bool.or_eq_true, decide_eq_true_iff, ih, List.mem_cons, Prod.mk.injEq]
  simp [eq_comm]
 | node n nodeType refPath child next _ ih =>
  rw [hasTerm, keys, ih, List.mem_cons, Prod.mk.injEq]
  simp

theorem lookupNode_iff {name : Str} (source : SourceObjects) :
 (source.lookupNode name).isSome ↔ (name, .confNode) ∈ source.keys := by
 induction source with
 | nil => simp [lookupNode, keys]
 | term n value next ih =>
  rw [lookupNode, keys, ih, List.mem_cons, Prod.mk.injEq]
  simp
 | node n nodeType refPath child next _ ih =>
  rw [lookupNode, keys, List.mem_cons, Prod.mk.injEq]
  split
  · next same => simp [same]
  · next other => simp [ih, Ne.symm other]

section Rounds

variable {name : Str} {nodeType : NodeRefType} {refPath : Str} {child : SourceObjects}
 {mergeChild : SourceObjects → SourceObjects}

theorem keys_mergeTerm (value : SourceValue) (dst : SourceObjects) :
 (dst.mergeTerm name value).keys =
  if dst.hasTerm name then dst.keys else dst.keys ++ [(name, .confTerm)] := by
 induction dst with
 | nil => rfl
 | term n v next ih =>
  by_cases hn : n = name
  · simp [mergeTerm, keys, hasTerm, hn]
  · simp only [mergeTerm, hn, if_false, keys, ih, hasTerm, decide_false, Bool.false_or]
    exact apply_ite (List.cons _) _ _ _
 | node n t r c next _ ih =>
  simp only [mergeTerm, keys, hasTerm, ih]
  exact apply_ite (List.cons _) _ _ _

theorem keyedBelow_mergeTerm (value : SourceValue) (dst : SourceObjects) :
 (dst.mergeTerm name value).KeyedBelow ↔ dst.KeyedBelow := by
 induction dst with
 | nil => rfl
 | term n v next ih =>
  rw [mergeTerm]
  split
  · rfl
  · exact ih
 | node n t r c next _ ih =>
  change _ ∧ _ ∧ _ ↔ _ ∧ _ ∧ _
  rw [ih]

theorem keys_mergeNode (dst : SourceObjects) :
 (mergeNode name nodeType refPath child mergeChild dst).keys =
  if (dst.lookupNode name).isSome then dst.keys else dst.keys ++ [(name, .confNode)] := by
 induction dst with
 | nil => rfl
 | term n v next ih =>
  simp only [mergeNode, keys, lookupNode, ih]
  exact apply_ite (List.cons _) _ _ _
 | node n t r c next _ ih =>
  by_cases hn : n = name
  · simp [mergeNode, keys, lookupNode, hn]
  · simp only [mergeNode, hn, if_false, keys, lookupNode, ih]
    exact apply_ite (List.cons _) _ _ _

theorem KeyedBelow.mergeNode (merged : ∀ c : SourceObjects, c.Keyed → (mergeChild c).Keyed)
 (new : child.Keyed) {dst : SourceObjects} (keyed : dst.KeyedBelow) :
 (SourceObjects.mergeNode name nodeType refPath child mergeChild dst).KeyedBelow := by
 induction dst with
 | nil => exact ⟨new.1, new.2, trivial⟩
 | term n v next ih => exact ih keyed
 | node n t r c next _ ih =>
  rw [SourceObjects.mergeNode]
  split
  · have both := merged c ⟨keyed.1, keyed.2.1⟩
    exact ⟨both.1, both.2, keyed.2.2⟩
  · exact ⟨keyed.1, keyed.2.1, ih keyed.2.2⟩

end Rounds

theorem Keyed.merge {src : SourceObjects} : ∀ {dst : SourceObjects}, dst.Keyed →
 src.KeyedBelow → (dst.merge src).Keyed := by
 induction src with
 | nil => exact fun keyed _ => keyed
 | term name value next ih =>
  intro dst keyed below
  refine ih ⟨?_, (keyedBelow_mergeTerm value dst).mpr keyed.2⟩ below
  rw [keys_mergeTerm]
  split
  · exact keyed.1
  · next lacks => exact (nodup_grown_iff keyed.1).mpr fun mem => lacks ((hasTerm_iff dst).mpr mem)
 | node name nodeType refPath child next ihChild ih =>
  intro dst keyed below
  refine ih ⟨?_, .mergeNode (fun c keyed => ihChild keyed below.2.1) ⟨below.1, below.2.1⟩ keyed.2⟩
   below.2.2
  rw [keys_mergeNode]
  split
  · exact keyed.1
  · next lacks =>
    exact (nodup_grown_iff keyed.1).mpr fun mem => lacks ((lookupNode_iff dst).mpr mem)

end SourceObjects

theorem mergeAsts_keyed {fuel : ℕ} {astList : List (Option SourceObjects)} :
 ∀ {astRoot root : Option SourceObjects}, mergeAsts fuel astRoot astList = .ok root →
  (∀ s, astRoot = some s → s.Keyed) → ∀ s, root = some s → s.Keyed := by
 induction astList with
 | nil =>
  intro astRoot root run keyed
  cases run
  exact keyed
 | cons file astList ih =>
  intro astRoot root run keyed
  rw [mergeAsts] at run
  cases check : redefineCheckFile fuel file with
  | error e => rw [check] at run; cases run
  | ok _ =>
   rw [check] at run
   refine ih run fun s merged => ?_
   cases file with
   | none =>
    cases astRoot with
    | none => cases merged
    | some dst => exact keyed s merged
   | some src =>
    have new := (unique_of_redefineCheckFile check).keyed
    cases astRoot with
    | none =>
     cases merged
     exact new
    | some dst =>
     cases merged
     exact (keyed dst rfl).merge new.2

theorem parseMerged_keyed {parseOne : Str → Option SourceFile} {fuel : ℕ} {sourceName : Str}
 {source : SourceObjects} (run : parseMerged parseOne fuel sourceName = .ok (some source)) :
 source.Keyed := by
 rw [parseMerged] at run
 cases read : readSources parseOne fuel [sourceName] with
 | error e => rw [read] at run; cases run
 | ok astList =>
  rw [read] at run
  change mergeAst fuel (mainLast astList).head?.join (mainLast astList).tail = _ at run
  rw [mergeAst] at run
  cases check : redefineCheckFile fuel (mainLast astList).head?.join with
  | error e => rw [check] at run; cases run
  | ok _ =>
   rw [check] at run
   refine mergeAsts_keyed run (fun s first => ?_) source rfl
   rw [first] at check
   exact (unique_of_redefineCheckFile check).keyed

def childKeys (h : AstHeap) (a : ℕ) : List Key := (h.get a).children.map fun c => (h.get c).key

structure KeyedTree (h : AstHeap) : Prop where
 unnamed : ∀ o, (h.get o).type = .array → (h.get o).name = []
 nodup : ∀ p, (h.get p).type = .confNode → (childKeys h p).Nodup

theorem KeyedTree.copied_key {h : AstHeap} (keyed : KeyedTree h) (o : ℕ) :
 (h.get o).copied.key = (h.get o).key := by
 have unnamed := keyed.unnamed o
 rw [AstObject.key, AstObject.key, AstObject.copied_type]
 unfold AstObject.copied
 split
 · rfl
 · rfl
 · next array => rw [unnamed array]
 · rfl

theorem addChild_key (h : AstHeap) (a c o : ℕ) : ((h.addChild a c).get o).key = (h.get o).key :=
 addChild_keep AstObject.key (fun _ _ => rfl) (fun _ _ => rfl) h a c o

theorem childKeys_addChild {h : AstHeap} {a : ℕ} (place : a < h.size) (c o : ℕ) :
 childKeys (h.addChild a c) o =
  if o = a then childKeys h a ++ [(h.get c).key] else childKeys h o := by
 rw [childKeys, addChild_children place]
 simp only [addChild_key]
 split
 · rw [List.map_append]
   rfl
 · rfl

namespace KeyedTree

variable {h h' : AstHeap}

theorem trims (keyed : KeyedTree h) (trims : Trims h h') : KeyedTree h' where
 unnamed o array := (trims.name o).trans (keyed.unnamed o ((trims.type o).symm.trans array))
 nodup p node := by
  have same : ∀ c, (h'.get c).key = (h.get c).key := fun c => by
   rw [AstObject.key, AstObject.key, trims.name, trims.type]
  have sub : (childKeys h' p).Sublist (childKeys h p) := by
   rw [childKeys, childKeys, List.map_congr_left fun c _ => same c]
   exact (trims.sublist p).map _
  exact (keyed.nodup p ((trims.type p).symm.trans node)).sublist sub

theorem alloc (keyed : KeyedTree h) (linked : Linked h) {o : AstObject} (childless : o.children = [])
 (unnamed : o.type = .array → o.name = []) : KeyedTree (h.alloc o) where
 unnamed p := by
  rw [get_alloc]
  split
  · exact unnamed
  · exact keyed.unnamed p
 nodup p := by
  rw [childKeys, get_alloc]
  split
  · intro _
    rw [childless]
    exact List.nodup_nil
  · intro node
    rw [List.map_congr_left fun c mem => by rw [get_alloc_of_lt (linked.lt_size mem)]]
    exact keyed.nodup p node

theorem addChild (keyed : KeyedTree h) {a c : ℕ} (place : a < h.size)
 (lacks : (h.get a).type = .confNode → (h.get c).key ∉ childKeys h a) :
 KeyedTree (h.addChild a c) where
 unnamed o := by
  rw [addChild_type, addChild_name]
  exact keyed.unnamed o
 nodup p := by
  rw [addChild_type, childKeys_addChild place]
  intro node
  split
  · next same =>
    subst same
    exact (nodup_grown_iff (keyed.nodup p node)).mpr (lacks node)
  · exact keyed.nodup p node

end KeyedTree

theorem Builds.keyed {h h' : AstHeap} {dst : ℕ} {cs : List ℕ} (run : Builds h dst cs h')
 (linked : Linked h) (keyed : KeyedTree h) (place : dst < h.size) (inside : ∀ c ∈ cs, c < h.size)
 (new : (h.get dst).type = .confNode →
  (childKeys h dst ++ cs.map fun c => (h.get c).key).Nodup) : KeyedTree h' := by
 induction run with
 | nil => exact keyed
 | @cons h h₁ h' dst c cs innerRun restRun ihInner ihRest =>
  have size : (h.alloc (h.get c).copied).size = h.size + 1 := size_alloc h _
  have source := inside c List.mem_cons_self
  have linkedAlloc := linked.alloc (AstObject.copied_children (h.get c))
   (AstObject.copied_parent _)
  obtain ⟨inner, innerFrame⟩ := innerRun.keeps
  have larger : h.size < h₁.size := by
   have := inner.size_le
   omega
  have old : ∀ o < h.size, h₁.get o = h.get o := fun o here => by
   rw [innerFrame o (by omega) (by omega), get_alloc_of_lt here]
  have newKey : (h₁.get h.size).key = (h.get c).key := by
   rw [AstObject.key, inner.name (by omega), inner.type (by omega), get_alloc_new]
   exact keyed.copied_key c
  have oldKeys : childKeys h₁ dst = childKeys h dst := by
   rw [childKeys, childKeys, old dst place]
   exact List.map_congr_left fun x mem => by rw [old x (linked.lt_size mem)]
  -- what stands under the new child
  have keyed₁ : KeyedTree h₁ := by
   refine ihInner linkedAlloc (keyed.alloc linked (AstObject.copied_children _) fun array => ?_)
    (by omega) (fun x mem => (linked.lt_size mem).trans (by omega)) fun node => ?_
   · have unnamed := keyed.unnamed c ((AstObject.copied_type _).symm.trans array)
     exact (congrArg Prod.fst (keyed.copied_key c)).trans unnamed
   · rw [get_alloc_new, AstObject.copied_type] at node
     have empty : childKeys (h.alloc (h.get c).copied) h.size = [] := by
      rw [childKeys, get_alloc_new, AstObject.copied_children]
      rfl
     rw [empty, List.nil_append,
      List.map_congr_left fun x mem => by rw [get_alloc_of_lt (linked.lt_size mem)]]
     exact keyed.nodup c node
  have linked₁ : Linked (h₁.addChild dst h.size) := by
   obtain ⟨news, grown, -⟩ := innerRun.grown (by omega)
   refine (innerRun.linked linkedAlloc (by omega)).addChild place larger ?_
   rw [grown, get_alloc_new]
   exact AstObject.copied_parent _
  have place₁ : dst < h₁.size := place.trans larger
  refine ihRest linked₁ (keyed₁.addChild place₁ fun node => ?_) (by rw [size_addChild]; exact place₁)
   (fun x mem => ?_) fun node => ?_
  · rw [old dst place] at node
    rw [newKey, oldKeys]
    have nodup := new node
    rw [List.map_cons] at nodup
    exact fun mem => (List.nodup_append.mp nodup).2.2 _ mem _ List.mem_cons_self rfl
  · rw [size_addChild]
    exact (inside x (List.mem_cons_of_mem c mem)).trans larger
  · rw [addChild_type, old dst place] at node
    have rest : cs.map (fun x => ((h₁.addChild dst h.size).get x).key) =
     cs.map fun x => (h.get x).key :=
     List.map_congr_left fun x mem => by
      rw [addChild_key, old x (inside x (List.mem_cons_of_mem c mem))]
    rw [childKeys_addChild place₁, if_pos rfl, oldKeys, newKey, rest, List.append_assoc]
    exact new node

theorem lookupChild_eq_none_iff {h : AstHeap} {a : ℕ} {name : Str} {type : ObjectType} :
 h.lookupChild a name (some type) = none ↔ (name, type) ∉ childKeys h a := by
 rw [AstHeap.lookupChild, List.find?_eq_none, childKeys, List.mem_map, not_exists]
 refine forall_congr' fun c => ?_
 rw [not_and]
 refine imp_congr_right fun _ => not_congr ?_
 rw [named_iff, AstObject.key, Prod.mk.injEq]

theorem KeyedTree.edit {h h' : AstHeap} (edit : Edit h h') (linked : Linked h)
 (keyed : KeyedTree h) : KeyedTree h' := by
 rcases edit.trims_or_grafts with trims | ⟨dst, c, p, grafts⟩
 · exact keyed.trims trims
 · refine grafts.build.keyed linked keyed (lt_size_of_node grafts.node) (fun x mem => ?_)
    fun node => ?_
   · rw [List.mem_singleton.mp mem]
     exact linked.lt_size grafts.child
   · exact (nodup_grown_iff (keyed.nodup dst node)).mpr (lookupChild_eq_none_iff.mp grafts.lacks)

theorem KeyedTree.built {h h₁ : AstHeap} {o : AstObject} {a : ℕ} (wellFormed : WellFormed h)
 (keys : ∀ p < h.size, (h.get p).type = .confNode → (childKeys h p).Nodup) (place : a < h.size)
 (built : Built (h.alloc o) h₁ h.size)
 (under : ∀ p, h.size ≤ p → (h₁.get p).type = .confNode → (childKeys h₁ p).Nodup)
 (lacks : o.key ∉ childKeys h a) :
 childKeys (h₁.addChild a h.size) a = childKeys h a ++ [o.key] ∧
  ∀ p, ((h₁.addChild a h.size).get p).type = .confNode →
   (childKeys (h₁.addChild a h.size) p).Nodup := by
 have size : (h.alloc o).size = h.size + 1 := size_alloc h o
 have larger := built.size_le
 have old : ∀ p < h.size, h₁.get p = h.get p := fun p inside => by
  rw [built.frame (by omega) (by omega), get_alloc_of_lt inside]
 have oldKeys : ∀ p < h.size, childKeys h₁ p = childKeys h p := fun p inside => by
  rw [childKeys, childKeys, old p inside]
  exact List.map_congr_left fun c mem => by rw [old c (wellFormed.lt_size mem)]
 have newKey : (h₁.get h.size).key = o.key := by
  rw [built.keep AstObject.key (fun _ _ => rfl) (by omega), get_alloc_new]
 have grown : childKeys (h₁.addChild a h.size) a = childKeys h a ++ [o.key] := by
  rw [childKeys_addChild (by omega), if_pos rfl, oldKeys a place, newKey]
 refine ⟨grown, fun p node => ?_⟩
 rw [addChild_type] at node
 by_cases same : p = a
 · rw [same, grown]
   rw [same, old a place] at node
   exact (nodup_grown_iff (keys a place node)).mpr lacks
 rw [childKeys_addChild (by omega), if_neg same]
 by_cases inside : p < h.size
 · rw [oldKeys p inside]
   rw [old p inside] at node
   exact keys p inside node
 · exact under p (by omega) node

theorem addSource_keys (source : SourceObjects) : ∀ {a : ℕ} {h : AstHeap}, WellFormed h →
 a < h.size → (h.get a).type = .confNode → (childKeys h a ++ source.keys).Nodup →
 source.KeyedBelow → (∀ p, (h.get p).type = .confNode → (childKeys h p).Nodup) →
 ∀ p, ((addSource a source h).get p).type = .confNode →
  (childKeys (addSource a source h) p).Nodup := by
 induction source with
 | nil => exact fun _ _ _ _ _ keys => keys
 | term name value next ih =>
  intro a h wellFormed place node nodup below keys
  have lt : h.size < (h.alloc { type := .confTerm, name := name }).size := by
   rw [size_alloc]
   exact Nat.lt_succ_self _
  have valueBuilt := built_addChild lt value.object_parent
   (addValue_built (wellFormed.alloc rfl) value) (by rw [get_alloc_new]; exact value.object_holds)
  have first := built_addChild place rfl valueBuilt (by rw [node]; exact .inr rfl)
  rw [SourceObjects.keys] at nodup
  have lacks : (name, ObjectType.confTerm) ∉ childKeys h a := fun mem =>
   (List.nodup_append.mp nodup).2.2 _ mem _ List.mem_cons_self rfl
  obtain ⟨grown, keys'⟩ := KeyedTree.built wellFormed (fun p _ => keys p) place valueBuilt
   (fun p le isNode => absurd isNode (not_node_of_term rfl valueBuilt le)) lacks
  refine ih first.wellFormed (place.trans_le first.size_le)
   ((first.keep AstObject.type (fun _ _ => rfl) place).trans node) ?_ below keys'
  rw [grown, List.append_assoc]
  exact nodup
 | node name nodeType refPath child next ihChild ihNext =>
  intro a h wellFormed place node nodup below keys
  have top : WellFormed (h.alloc
   { type := .confNode, name := name, nodeType := nodeType, refNodePath := refPath }) :=
   wellFormed.alloc rfl
  have lt : h.size < (h.alloc
   { type := .confNode, name := name, nodeType := nodeType, refNodePath := refPath }).size := by
   rw [size_alloc]
   exact Nat.lt_succ_self _
  have isNode := get_alloc_new h
   { type := .confNode, name := name, nodeType := nodeType, refNodePath := refPath }
  have childBuilt := addSource_built child top lt (by rw [isNode])
  have first := built_addChild place rfl childBuilt (by rw [node]; exact .inl rfl)
  rw [SourceObjects.keys] at nodup
  have lacks : (name, ObjectType.confNode) ∉ childKeys h a := fun mem =>
   (List.nodup_append.mp nodup).2.2 _ mem _ List.mem_cons_self rfl
  have empty : childKeys (h.alloc
   { type := .confNode, name := name, nodeType := nodeType, refNodePath := refPath }) h.size
     = [] := by
   rw [childKeys, isNode]
   rfl
  have under := ihChild top lt (by rw [isNode]) (by rw [empty]; exact below.1) below.2.1
   fun p isNode => by
    rw [childKeys, get_alloc]
    split
    · exact List.nodup_nil
    · next old =>
      rw [get_alloc, if_neg old] at isNode
      rw [List.map_congr_left fun c mem => by rw [get_alloc_of_lt (wellFormed.lt_size mem)]]
      exact keys p isNode
  obtain ⟨grown, keys'⟩ := KeyedTree.built wellFormed (fun p _ => keys p) place childBuilt
   (fun p _ => under p) lacks
  refine ihNext first.wellFormed (place.trans_le first.size_le)
   ((first.keep AstObject.type (fun _ _ => rfl) place).trans node) ?_ below.2.2 keys'
  rw [grown, List.append_assoc]
  exact nodup

theorem ofSource_keyed {source : SourceObjects} (redefineChecked : Bool) (keyed : source.Keyed) :
 KeyedTree (Ast.ofSource redefineChecked source).heap where
 unnamed := by
  refine addSource_unnamed source fun o => ?_
  cases o with
  | zero | succ o => exact fun array => ObjectType.noConfusion array
 nodup := by
  refine addSource_keys source (rootHeap_wellFormed rfl) Nat.zero_lt_one rfl keyed.1 keyed.2
   fun p node => ?_
  cases p with
  | zero => exact List.nodup_nil
  | succ p => exact ObjectType.noConfusion node

section Calls

variable {callback : AstHeap → ℕ → Result} {Inv : AstHeap → Prop}

theorem walkBackward_keeps (step : ∀ {h h' : AstHeap} {c : ℕ}, Inv h → callback h c = .ok h' → Inv h')
 (fuel : ℕ) : ∀ {h h' : AstHeap} {start : Option ℕ},
 walkBackward callback fuel h start = .ok h' → Inv h → Inv h' := by
 induction fuel with
 | zero =>
  intro h h' start run inv
  cases start with
  | none => cases run; exact inv
  | some c => cases run
 | succ fuel ih =>
  intro h h' start run inv
  cases start with
  | none => cases run; exact inv
  | some c =>
   rw [walkBackward] at run
   cases down : walkBackward callback fuel h (h.child c) with
   | error e => rw [down] at run; cases run
   | ok h₁ =>
    rw [down] at run
    change (callback h₁ c >>= fun h => walkBackward callback fuel h (h₁.next c)) = _ at run
    cases call : callback h₁ c with
    | error e => rw [call] at run; cases run
    | ok h₂ =>
     rw [call] at run
     exact ih run (step (ih down inv) call)

theorem callsForward_keeps
 (step : ∀ {h h' : AstHeap} {c : ℕ}, Inv h → callback h c = .ok h' → Inv h') (fuel : ℕ) :
 ∀ {h : AstHeap} {start : Option ℕ}, Inv h →
  ∀ call ∈ callsForward callback fuel h start, Inv call.1 := by
 induction fuel with
 | zero =>
  intro h start _ call mem
  cases start with
  | none | some c => cases mem
 | succ fuel ih =>
  intro h start inv call mem
  cases start with
  | none => cases mem
  | some c =>
   rw [callsForward] at mem
   rcases List.mem_cons.mp mem with rfl | mem
   · exact inv
   · cases first : callback h c with
     | error e => rw [first] at mem; cases mem
     | ok h₁ =>
      rw [first] at mem
      have inv₁ := step inv first
      rcases List.mem_append.mp mem with mem | mem
      · exact ih inv₁ call mem
      · cases down : walkForward callback fuel h₁ (h₁.child c) with
        | error e => rw [down] at mem; cases mem
        | ok h₂ =>
         rw [down] at mem
         have walks := walksForward_of_run callback fuel down
         have inv₂ : Inv h₂ := @WalksForward.keeps callback Inv (fun _ _ => True)
          (fun inv _ call => step inv call) _ _ _ _ walks inv₁ fun _ _ => trivial
         exact ih inv₂ call mem

end Calls

structure Tidy (h : AstHeap) : Prop where
 linked : Linked h
 keyed : KeyedTree h

theorem Tidy.edits {h h' : AstHeap} (tidy : Tidy h) (edits : Edits h h') : Tidy h' := by
 refine edits.invariant (fun {h h'} edit tidy => ?_) tidy
 exact ⟨tidy.linked.edit edit, tidy.keyed.edit edit tidy.linked⟩

theorem inheritCalls_tidy {parseOne : Str → Option SourceFile} {fuel rounds : ℕ} {sourceName : Str}
 {source : SourceObjects} (merged : parseMerged parseOne fuel sourceName = .ok (some source))
 (redefineChecked : Bool) :
 ∀ call ∈ (Ast.ofSource redefineChecked source).inheritCalls rounds, Tidy call.1 := by
 have start : Tidy (Ast.ofSource redefineChecked source).heap :=
  ⟨ofSource_linked redefineChecked source, ofSource_keyed redefineChecked (parseMerged_keyed merged)⟩
 intro call mem
 rw [Ast.inheritCalls] at mem
 cases walk : walkBackward (nodeExpandAt rounds (Ast.ofSource redefineChecked source).astRoot) rounds
  (Ast.ofSource redefineChecked source).heap
  (some (Ast.ofSource redefineChecked source).astRoot) with
 | error e => rw [walk] at mem; cases mem
 | ok h =>
  rw [walk] at mem
  have tidy : Tidy h := walkBackward_keeps
   (fun tidy call => Tidy.edits tidy (nodeExpandAt_edits call)) rounds walk start
  exact callsForward_keeps
   (fun tidy call => Tidy.edits tidy (inheritExpandAt_edits call)) rounds tidy call mem

end DriversFramework.HcAst
