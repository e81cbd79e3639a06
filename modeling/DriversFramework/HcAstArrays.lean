import DriversFramework.HcAstEdits

namespace DriversFramework.HcAst

open AstHeap

def ObjectType.Holder (type : ObjectType) : Prop :=
 type = .confNode ∨ type = .confTerm ∨ type = .array

def AstObject.Counts (o : AstObject) : Prop :=
 o.type = .array → o.children = [] ∨ o.arraySize = UInt32.ofNat o.children.length

/-- Arrays hold numbers and strings, and count them once they stand somewhere. -/
structure Counted (h : AstHeap) : Prop where
 linked : Linked h
 leaf : ∀ o, (h.get o).children ≠ [] → (h.get o).type.Holder
 element : ∀ {a c : ℕ}, (h.get a).type = .array → c ∈ (h.get a).children → (h.get c).type.Scalar
 counts : ∀ a, (h.get a).parent ≠ none → (h.get a).Counts

namespace Counted

variable {h h' : AstHeap}

theorem not_element (counted : Counted h) {a c : ℕ}
 (kind : (h.get c).type = .confNode ∨ (h.get c).type = .confTerm)
 (array : (h.get a).type = .array) : c ∉ (h.get a).children := by
 intro mem
 have scalar := counted.element array mem
 rcases kind with kind | kind
 · rw [kind] at scalar
   exact absurd scalar (by decide)
 · rw [kind] at scalar
   exact absurd scalar (by decide)

theorem trims (counted : Counted h) (trims : Trims h h')
 (arrays : ∀ a, (h.get a).type = .array →
  (h'.get a).children = (h.get a).children ∨ (h'.get a).children = []) : Counted h' where
 linked := counted.linked.trims trims
 leaf o some := by
  rw [trims.type]
  refine counted.leaf o fun none => some ?_
  have sublist := trims.sublist o
  rw [none] at sublist
  exact List.sublist_nil.mp sublist
 element array mem := by
  rw [trims.type] at array ⊢
  exact counted.element array ((trims.sublist _).subset mem)
 counts a placed array := by
  rw [trims.parent] at placed
  rw [trims.type] at array
  rcases arrays a array with same | none
  · rw [same, trims.arraySize]
    exact counted.counts a placed array
  · exact .inl none

theorem overwriteValue {v src : ℕ} (counted : Counted h)
 (run : overwriteValue h v src = .ok h') : Counted h' := by
 refine counted.trims (.of_overwriteValue run) fun a array => ?_
 unfold HcAst.overwriteValue at run
 split at run
 · split at run
   · cases run
     rw [get_modify]
     split
     · exact .inr rfl
     · exact .inl rfl
   · cases run
 · cases run
   rw [get_modify]
   split
   · exact .inl rfl
   · exact .inl rfl

theorem separate_array {a c : ℕ} (counted : Counted h)
 (placed : (h.get c).type = .confNode ∨ (h.get c).type = .confTerm ∨
  ∃ p, (h.get p).type = .confNode ∧ c ∈ (h.get p).children)
 (array : (h.get a).type = .array) :
 ((h.separate c).get a).children = (h.get a).children := by
 have outside : c ∉ (h.get a).children := by
  rcases placed with node | term | ⟨p, node, mem⟩
  · exact counted.not_element (.inl node) array
  · exact counted.not_element (.inr term) array
  · intro mem'
    have same : p = a := Option.some.inj
     ((counted.linked.parent mem).symm.trans (counted.linked.parent mem'))
    rw [same, array] at node
    cases node
 rw [separate_children]
 split
 · exact List.erase_of_not_mem outside
 · rfl

theorem alloc {o : AstObject} (counted : Counted h) (childless : o.children = [])
 (free : o.parent = none) : Counted (h.alloc o) where
 linked := counted.linked.alloc childless free
 leaf p some := by
  rw [alloc_children childless] at some
  rw [get_alloc]
  split
  · next new =>
    rw [new, get_of_size_le le_rfl] at some
    exact absurd rfl some
  · exact counted.leaf p some
 element {a c} array mem := by
  rw [alloc_children childless] at mem
  have inside := counted.linked.lt_size mem
  rw [get_alloc_of_lt ((counted.linked.older mem).trans inside)] at array
  rw [get_alloc_of_lt inside]
  exact counted.element array mem
 counts a placed := by
  rw [get_alloc] at placed ⊢
  split
  · next new =>
    rw [if_pos new] at placed
    exact absurd free placed
  · next old =>
    rw [if_neg old] at placed
    exact counted.counts a placed

theorem addChild {a c : ℕ} (counted : Counted h) (younger : a < c) (inside : c < h.size)
 (free : (h.get c).parent = none) (holder : (h.get a).type.Holder)
 (array : (h.get a).type = .array → (h.get a).parent = none ∧ (h.get c).type.Scalar)
 (counts : (h.get c).Counts) : Counted (h.addChild a c) := by
 have place : a < h.size := younger.trans inside
 refine ⟨counted.linked.addChild younger inside free, fun p some => ?_, fun {p o} isArray mem => ?_,
  fun p placed => ?_⟩
 · rw [addChild_type]
   rw [addChild_children place] at some
   split at some
   · next same => exact same ▸ holder
   · exact counted.leaf p some
 · rw [addChild_type] at isArray ⊢
   rw [addChild_children place] at mem
   split at mem
   · next same =>
     subst same
     rcases List.mem_append.mp mem with mem | mem
     · exact counted.element isArray mem
     · rw [List.mem_singleton.mp mem]
       exact (array isArray).2
   · exact counted.element isArray mem
 · rw [addChild_parent inside] at placed
   by_cases new : p = c
   · have same : (h.addChild a c).get p = (h.get c).setParent a := by
      rw [new, AstHeap.addChild, get_modify_self (by rw [size_modify]; exact inside),
       get_modify_ne _ (by omega)]
     rw [same]
     exact counts
   rw [if_neg new] at placed
   by_cases dst : p = a
   · intro isArray
     rw [addChild_type, dst] at isArray
     rw [dst] at placed
     exact absurd (array isArray).1 placed
   · rw [addChild_ne h dst new]
     exact counted.counts p placed

end Counted

theorem counts_of_copy {h h₁ : AstHeap} {c : ℕ}
 (inner : Builds (h.alloc (h.get c).copied) h.size (h.get c).children h₁)
 (counts : (h.get c).Counts) : (h₁.get h.size).Counts := by
 obtain ⟨news, grown, length, -⟩ := inner.grown (by rw [size_alloc]; exact Nat.lt_succ_self _)
 rw [get_alloc_new, AstObject.copied_children, List.nil_append] at grown
 rw [grown]
 intro array
 change (h.get c).copied.type = .array at array
 rw [AstObject.copied_type] at array
 have size : (h.get c).copied.arraySize = (h.get c).arraySize := by
  rw [AstObject.copied, array]
 change news = [] ∨ (h.get c).copied.arraySize = UInt32.ofNat news.length
 rw [size, length]
 rcases counts array with none | size
 · rw [none] at length
   exact .inl (List.length_eq_zero_iff.mp length)
 · exact .inr size

theorem Builds.counted {h h' : AstHeap} {dst : ℕ} {cs : List ℕ} (run : Builds h dst cs h')
 (counted : Counted h) (place : dst < h.size) (holder : cs ≠ [] → (h.get dst).type.Holder)
 (free : (h.get dst).type = .array → (h.get dst).parent = none)
 (sources : ∀ c ∈ cs, c < h.size ∧ ((h.get dst).type = .array → (h.get c).type.Scalar) ∧
  (h.get c).Counts) : Counted h' := by
 induction run with
 | nil => exact counted
 | @cons h h₁ h' dst c cs inner _ ihInner ihRest =>
  have new : h.size < (h.alloc (h.get c).copied).size := by
   rw [size_alloc]
   exact Nat.lt_succ_self _
  obtain ⟨keeps, frame⟩ := inner.keeps
  have larger := keeps.size_le
  have old : ∀ o < h.size, h₁.get o = h.get o := fun o inside => by
   rw [frame o (by omega) (by omega), get_alloc_of_lt inside]
  have isHolder := holder (List.cons_ne_nil c cs)
  obtain ⟨source, scalar, counts⟩ := sources c List.mem_cons_self
  -- what stands under the new child
  have counted₁ : Counted h₁ := by
   refine ihInner (counted.alloc (AstObject.copied_children _) (AstObject.copied_parent _)) new
    (fun some => ?_) (fun _ => ?_) fun x mem => ?_
   · rw [get_alloc_new, AstObject.copied_type]
     exact counted.leaf c some
   · rw [get_alloc_new]
     exact AstObject.copied_parent _
   · have inside := counted.linked.lt_size mem
     rw [get_alloc_new, AstObject.copied_type, get_alloc_of_lt inside]
     refine ⟨by omega, fun array => counted.element array mem, counted.counts x ?_⟩
     rw [counted.linked.parent mem]
     exact Option.some_ne_none c
  obtain ⟨news, grown, -⟩ := inner.grown new
  rw [get_alloc_new] at grown
  have newType : (h₁.get h.size).type = (h.get c).type := by
   rw [grown]
   exact AstObject.copied_type _
  have newParent : (h₁.get h.size).parent = none := by
   rw [grown]
   exact AstObject.copied_parent _
  have attached : Counted (h₁.addChild dst h.size) := by
   refine counted₁.addChild place (by omega) newParent ?_ (fun array => ?_)
    (counts_of_copy inner counts)
   · rw [old dst place]
     exact isHolder
   · rw [old dst place] at array ⊢
     rw [newType]
     exact ⟨free array, scalar array⟩
  have dstType : ((h₁.addChild dst h.size).get dst).type = (h.get dst).type := by
   rw [addChild_type, old dst place]
  refine ihRest attached (by rw [size_addChild]; omega) (fun _ => by rw [dstType]; exact isHolder)
   (fun array => ?_) fun x mem => ?_
  · rw [addChild_parent (by omega), if_neg (by omega), old dst place]
    exact free (dstType.symm.trans array)
  · obtain ⟨inside, scalar, counts⟩ := sources x (List.mem_cons_of_mem c mem)
    rw [size_addChild, dstType, addChild_type, old x inside]
    refine ⟨by omega, scalar, ?_⟩
    by_cases same : x = dst
    · -- an array is no element of one
      intro array
      rw [addChild_type, old x inside] at array
      have isScalar := scalar (same ▸ array)
      rw [array] at isScalar
      exact absurd isScalar (by decide)
    · rw [addChild_ne h₁ same (by omega), old x inside]
      exact counts

theorem Counted.edit {h h' : AstHeap} (edit : Edit h h') (counted : Counted h) : Counted h' := by
 cases edit with
 | overwrite run => exact counted.overwriteValue run
 | mark a label children =>
  refine counted.trims (.of_modify h a label fun o => by rw [children o]) fun p _ => .inl ?_
  exact modify_keep AstObject.children children h a p
 | separate placed =>
  exact counted.trims (.of_separate h _) fun a array =>
   .inl (counted.separate_array placed array)
 | remove kind =>
  refine counted.trims (.of_remove h _) fun a array => ?_
  rw [remove_children]
  split
  · exact .inr rfl
  · exact .inl (counted.separate_array (kind.imp_right .inl) array)
 | graft grafts =>
  obtain ⟨node, child, -, build⟩ := grafts
  refine build.counted counted (lt_size_of_node node) (fun _ => .inl node) (fun array => ?_)
   fun x mem => ?_
  · rw [node] at array
    cases array
  · rw [List.mem_singleton.mp mem]
    refine ⟨counted.linked.lt_size child, fun array => ?_, counted.counts _ ?_⟩
    · rw [node] at array
      cases array
    · rw [counted.linked.parent child]
      exact Option.some_ne_none _

theorem addElements_counted {a : ℕ} (elements : List AstObject) : ∀ {h : AstHeap}, Counted h →
 a < h.size → (h.get a).type = .array → (h.get a).parent = none →
 (∀ o ∈ elements, o.type.Scalar ∧ o.children = [] ∧ o.parent = none) →
 Counted (addElements a elements h) ∧ h.size ≤ (addElements a elements h).size ∧
  (∀ o < h.size, o ≠ a → (addElements a elements h).get o = h.get o) ∧
  ∃ news, (addElements a elements h).get a =
   (h.get a).setChildren ((h.get a).children ++ news) ∧
   news.length = elements.length := by
 induction elements with
 | nil =>
  intro h counted _ _ _ _
  exact ⟨counted, le_rfl, fun _ _ _ => rfl, [], by rw [List.append_nil]; rfl, rfl⟩
 | cons o elements ih =>
  intro h counted place array free all
  obtain ⟨scalar, childless, parentless⟩ := all o List.mem_cons_self
  have size : (h.alloc o).size = h.size + 1 := size_alloc h o
  have old : (h.alloc o).get a = h.get a := get_alloc_of_lt place o
  have first : Counted ((h.alloc o).addChild a h.size) := by
   refine (counted.alloc childless parentless).addChild place (by omega) ?_ ?_ (fun _ => ?_)
    fun isArray => ?_
   · rw [get_alloc_new]
     exact parentless
   · rw [old]
     exact .inr (.inr array)
   · rw [old, get_alloc_new]
     exact ⟨free, scalar⟩
   · rw [get_alloc_new] at isArray
     rw [isArray] at scalar
     exact absurd scalar (by decide)
  have place₁ : a < (h.alloc o).size := by omega
  have grown₁ : ((h.alloc o).addChild a h.size).get a =
   (h.get a).setChildren ((h.get a).children ++ [h.size]) := by
   rw [AstHeap.addChild, get_modify_ne _ (by omega), get_modify_self place₁, old]
  obtain ⟨counted', larger, frame, news, grown, length⟩ := ih first
   (by rw [size_addChild]; exact place₁) (by rw [grown₁]; exact array)
   (by rw [grown₁]; exact free) fun x mem => all x (List.mem_cons_of_mem o mem)
  rw [size_addChild] at larger frame
  refine ⟨counted', by rw [addElements]; omega, fun x inside other => ?_, h.size :: news, ?_,
   congrArg (· + 1) length⟩
  · rw [addElements, frame x (by omega) other, addChild_ne _ other (by omega),
     get_alloc_of_lt inside]
  · rw [addElements, grown, grown₁]
    simp [AstObject.setChildren]

theorem SourceValue.object_size (value : SourceValue) (array : value.object.type = .array) :
 value.object.arraySize = UInt32.ofNat value.elements.length := by
 cases value with
 | number numval =>
  change fitIntegerValueType numval = .array at array
  have scalar := fitIntegerValueType_scalar numval
  rw [array] at scalar
  exact absurd scalar (by decide)
 | numberArray numvals => rfl
 | stringArray strvals => rfl
 | _ => cases array

theorem addValue_counted {h : AstHeap} {o : AstObject} (value : SourceValue) (counted : Counted h)
 (term : o.type = .confTerm) (childless : o.children = []) (parentless : o.parent = none) :
 Counted ((addValue (h.alloc o) value).addChild h.size (h.size + 1)) ∧
  h.size < (addValue (h.alloc o) value).size ∧
  (∀ x ≤ h.size, (addValue (h.alloc o) value).get x = (h.alloc o).get x) := by
 have size : (h.alloc o).size = h.size + 1 := size_alloc h o
 have size' : ((h.alloc o).alloc value.object).size = h.size + 2 := by
  rw [size_alloc, size]
 have counted₁ := (counted.alloc childless parentless).alloc value.object_children value.object_parent
 have new : ((h.alloc o).alloc value.object).get (h.size + 1) = value.object := by
  rw [← size, get_alloc_new]
 -- the array is attached with all its elements
 have attach : ∀ {h₁ : AstHeap}, Counted h₁ → h.size + 2 ≤ h₁.size →
  h₁.get h.size = o → (h₁.get (h.size + 1)).parent = none →
  (h₁.get (h.size + 1)).Counts → Counted (h₁.addChild h.size (h.size + 1)) := by
  intro h₁ counted inside same free counts
  refine counted.addChild (Nat.lt_succ_self _) (by omega) free ?_ (fun array => ?_) counts
  · rw [same, term]
    exact .inr (.inl rfl)
  · rw [same, term] at array
    cases array
 have top : ((h.alloc o).alloc value.object).get h.size = o := by
  rw [get_alloc_of_lt (by rw [size]; exact Nat.lt_succ_self _), get_alloc_new]
 have inside : h.size + 1 < ((h.alloc o).alloc value.object).size := by omega
 rw [addValue, size]
 by_cases array : value.object.type = .array
 · obtain ⟨counted', larger, frame, news, grown, length⟩ := addElements_counted value.elements
    counted₁ inside (by rw [new]; exact array)
    (by rw [new]; exact value.object_parent) SourceValue.elements_scalar
   rw [new, value.object_children, List.nil_append] at grown
   rw [size'] at larger
   refine ⟨attach counted' larger ?_ ?_ fun _ => .inr ?_, by omega, fun x inside => ?_⟩
   · rw [frame _ (by omega) (by omega), top]
   · rw [grown]
     exact value.object_parent
   · rw [grown]
     change value.object.arraySize = UInt32.ofNat news.length
     rw [length, value.object_size array]
   · rw [frame x (by omega) (by omega), get_alloc_of_lt (by omega)]
 · have none : value.elements = [] := by
    cases value <;> first | rfl | exact absurd rfl array
   rw [none, addElements]
   refine ⟨attach counted₁ (by omega) top ?_ ?_, by omega, fun x inside =>
    get_alloc_of_lt (by omega) _⟩
   · rw [new]
     exact value.object_parent
   · rw [new]
     exact fun isArray => absurd isArray array

structure Declared (h h' : AstHeap) (a : ℕ) : Prop where
 counted : Counted h'
 size_le : h.size ≤ h'.size
 frame : ∀ o < h.size, o ≠ a → h'.get o = h.get o
 node : (h'.get a).type = .confNode
 parent : (h'.get a).parent = (h.get a).parent

theorem Declared.follow {a : ℕ} {h h₁ : AstHeap} {next : SourceObjects} (place : a < h.size)
 (node : (h.get a).type = .confNode) (counted : Counted h₁) (larger : h.size < h₁.size)
 (old : ∀ o < h.size, h₁.get o = h.get o) (free : (h₁.get h.size).parent = none)
 (other : (h₁.get h.size).type ≠ .array)
 (rest : ∀ {h : AstHeap}, Counted h → a < h.size → (h.get a).type = .confNode →
  Declared h (addSource a next h) a) : Declared h (addSource a next (h₁.addChild a h.size)) a := by
 have attached : Counted (h₁.addChild a h.size) := by
  refine counted.addChild place larger free ?_ (fun array => ?_) fun array => absurd array other
  · rw [old a place, node]
    exact .inl rfl
  · rw [old a place, node] at array
    cases array
 have declared := rest attached (by rw [size_addChild]; omega)
  (by rw [addChild_type, old a place]; exact node)
 have size_le := declared.size_le
 have frame := declared.frame
 rw [size_addChild] at size_le frame
 refine ⟨declared.counted, by omega, fun x inside ne => ?_, declared.node, ?_⟩
 · rw [frame x (by omega) ne, addChild_ne h₁ ne (by omega), old x inside]
 · rw [declared.parent, addChild_parent larger, if_neg (by omega), old a place]

theorem addSource_declared (source : SourceObjects) : ∀ {a : ℕ} {h : AstHeap}, Counted h →
 a < h.size → (h.get a).type = .confNode → Declared h (addSource a source h) a := by
 induction source with
 | nil => exact fun counted _ node => ⟨counted, le_rfl, fun _ _ _ => rfl, node, rfl⟩
 | term name value next ih =>
  intro a h counted place node
  have size : (h.alloc { type := .confTerm, name := name }).size = h.size + 1 := size_alloc h _
  obtain ⟨counted₁, larger, old⟩ := addValue_counted (o := { type := .confTerm, name := name })
   value counted rfl rfl rfl
  have top : (addValue (h.alloc { type := .confTerm, name := name }) value).get h.size =
   { type := .confTerm, name := name } := by
   rw [old h.size le_rfl, get_alloc_new]
  rw [addSource, size]
  refine .follow place node counted₁ (by rw [size_addChild]; exact larger) (fun x inside => ?_) ?_
   ?_ ih
  · rw [addChild_ne _ (by omega) (by omega), old x (by omega), get_alloc_of_lt inside]
  · have parent : ∀ o cs, (AstObject.setChildren o cs).parent = o.parent := fun _ _ => rfl
    rw [AstHeap.addChild, get_modify_ne _ (by omega), get_modify_self larger, parent, top]
  · rw [addChild_type, top]
    exact ObjectType.noConfusion
 | node name nodeType refPath child next ihChild ihNext =>
  intro a h counted place node
  have top : Counted (h.alloc
   { type := .confNode, name := name, nodeType := nodeType, refNodePath := refPath }) :=
   counted.alloc rfl rfl
  have declared := ihChild (a := h.size) top (by rw [size_alloc]; exact Nat.lt_succ_self _)
   (by rw [get_alloc_new])
  have larger := declared.size_le
  rw [size_alloc] at larger
  rw [addSource]
  refine .follow place node declared.counted larger (fun x inside => ?_) ?_ ?_ ihNext
  · rw [declared.frame x (by rw [size_alloc]; omega) (by omega), get_alloc_of_lt inside]
  · rw [declared.parent, get_alloc_new]
  · rw [declared.node]
    exact ObjectType.noConfusion

theorem ofSource_counted (redefineChecked : Bool) (source : SourceObjects) :
 Counted (Ast.ofSource redefineChecked source).heap := by
 refine (addSource_declared source ?_ Nat.zero_lt_one rfl).counted
 have empty : Counted ⟨[]⟩ := by
  refine ⟨⟨fun mem => ?_, fun mem => ?_, fun mem => ?_, fun _ => List.nodup_nil, rfl⟩,
   fun o some => absurd rfl some, fun _ mem => ?_, fun a placed => absurd rfl placed⟩
  all_goals cases mem
 exact empty.alloc (o := { type := .confNode, name := rootName }) rfl rfl

theorem parse_runs {parseOne : Str → Option SourceFile} {fuel : ℕ} {sourceName : Str} {ast : Ast}
 (run : parse parseOne fuel sourceName = .ok ast) :
 ∃ source, ast.astRoot = 0 ∧ Runs fuel 0 (Ast.ofSource true source).heap
  ((Ast.ofSource true source).calls fuel) ast.heap := by
 rw [parse] at run
 cases merged : parseMerged parseOne fuel sourceName with
 | error e => rw [merged] at run; cases run
 | ok root =>
  rw [merged] at run
  cases root with
  | none => cases run
  | some source =>
   change (Ast.ofSource true source).expand fuel = .ok ast at run
   obtain ⟨-, -, -, root⟩ := expand_walks run
   exact ⟨source, root, Runs.of_expand run⟩

theorem parse_counted {parseOne : Str → Option SourceFile} {fuel : ℕ} {sourceName : Str} {ast : Ast}
 (run : parse parseOne fuel sourceName = .ok ast) :
 Counted ast.heap ∧ (ast.heap.get 0).type = .confNode ∧ ast.astRoot = 0 := by
 obtain ⟨source, root, runs⟩ := parse_runs run
 have node : ∀ {h h' : AstHeap}, Edit h h' → (h.get 0).type = .confNode →
  (h'.get 0).type = .confNode := fun edit node =>
  (edit.keeps.type (lt_size_of_node node)).trans node
 refine ⟨runs.invariant Counted.edit (ofSource_counted true source), runs.invariant node ?_, root⟩
 rw [(ofSource_built true source).keep AstObject.type (fun _ _ => rfl) Nat.zero_lt_one]
 rfl

end DriversFramework.HcAst
