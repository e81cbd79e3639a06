import Mathlib.Data.List.Nodup
import DriversFramework.HcsDecompile
import DriversFramework.HcsGetters

namespace DriversFramework.Hcs

open ByteCodec HcGen

structure ValueGetters where
 uint8 : HcsRead UInt8
 uint16 : HcsRead UInt16
 uint32 : HcsRead UInt32
 uint64 : HcsRead UInt64
 string : HcsRead ℕ

def attrGetters (align : Bool) (blob : List UInt8) (node : DeviceResourceNode)
  (attrName : List UInt8) : ValueGetters where
 uint8 := hcsGetUint8 align blob node attrName
 uint16 := hcsGetUint16 align blob node attrName
 uint32 := hcsGetUint32 align blob node attrName
 uint64 := hcsGetUint64 align blob node attrName
 string := hcsGetString align blob node attrName

def elemGetters (align : Bool) (blob : List UInt8) (node : DeviceResourceNode)
  (attrName : List UInt8) (index : ℕ) : ValueGetters where
 uint8 := hcsGetUint8ArrayElem align blob node attrName index
 uint16 := hcsGetUint16ArrayElem align blob node attrName index
 uint32 := hcsGetUint32ArrayElem align blob node attrName index
 uint64 := hcsGetUint64ArrayElem align blob node attrName index
 string := hcsGetStringArrayElem align blob node attrName index

structure ValueGetters.Return (get : ValueGetters) (blob : List UInt8) (s : Scalar) : Prop where
 uint8 : ∀ n, uintOf 1 s = some n → get.uint8 = .ok (UInt8.ofNat n)
 uint16 : ∀ n, uintOf 2 s = some n → get.uint16 = .ok (UInt16.ofNat n)
 uint32 : ∀ n, uintOf 4 s = some n → get.uint32 = .ok (UInt32.ofNat n)
 uint64 : ∀ n, uintOf 8 s = some n → get.uint64 = .ok (UInt64.ofNat n)
 string : ∀ text, s = .string text →
  ∃ str, get.string = .ok str ∧ cString (blob.drop str) = text.bytes

structure ArrayReturn (align : Bool) (blob : List UInt8) (node : DeviceResourceNode)
  (attrName : List UInt8) (elements : List Scalar) : Prop where
 elemNum : hcsGetElemNum align blob node attrName = .ok elements.length
 elem : ∀ index s, elements[index]? = some s →
  (elemGetters align blob node attrName index).Return blob s
 uint8 : ∀ ns rest, elements.map (uintOf 1) = ns.map some ++ rest → ns ≠ [] →
  hcsGetUint8Array align blob node attrName ns.length = .ok (ns.map UInt8.ofNat)
 uint16 : ∀ ns rest, elements.map (uintOf 2) = ns.map some ++ rest → ns ≠ [] →
  hcsGetUint16Array align blob node attrName ns.length = .ok (ns.map UInt16.ofNat)
 uint32 : ∀ ns rest, elements.map (uintOf 4) = ns.map some ++ rest → ns ≠ [] →
  hcsGetUint32Array align blob node attrName ns.length = .ok (ns.map UInt32.ofNat)
 uint64 : ∀ ns rest, elements.map (uintOf 8) = ns.map some ++ rest → ns ≠ [] →
  hcsGetUint64Array align blob node attrName ns.length = .ok (ns.map UInt64.ofNat)

/-- A reference leads to the node that stands where the referenced node stands among
`addresses`. -/
def ValueShown (align : Bool) (blob : List UInt8) (tree : CfgTree) (addresses : List ℕ)
  (node : DeviceResourceNode) (attrName : List UInt8) : TermValue → Prop
 | .scalar s => (attrGetters align blob node attrName).Return blob s ∧
   ∀ n, uintOf 1 s = some n → hcsGetBool align blob node attrName = .ok (decide (n ≠ 0))
 | .array elements => ArrayReturn align blob node attrName elements
 | .nodeRef refNode => ∃ k, addresses[k]? = some refNode ∧
   hcsGetNodeByRefAttr align blob tree node attrName = .ok (some k)

/-- The terms of a child list. -/
def terms : ConfigObjects → List (Text × TermValue)
 | .nil => []
 | .term name value next => (name, value) :: terms next
 | .node _ _ _ _ next => terms next

/-- `node` is the run-time node of a source node with the given name and child list. -/
structure NodeShown (align : Bool) (blob : List UInt8) (tree : CfgTree) (addresses : List ℕ)
  (node : DeviceResourceNode) (parent : Option ℕ) (k : ℕ) (name : Text) (child : ConfigObjects) :
  Prop where
 name : cString (blob.drop node.name) = name.bytes
 parent : node.parent = parent
 children : node.child = roots (k + 1) child
 attrs : (node.attrData.map fun attr => cString (blob.drop attr.name)) =
  ((terms child).map fun term => term.1.bytes).reverse
 values : ∀ term ∈ terms child,
  ValueShown align blob tree addresses node term.1.bytes term.2

/-- The nodes of a child list are the nodes of the tree from index `k` on. -/
def Shown (align : Bool) (blob : List UInt8) (tree : CfgTree) (addresses : List ℕ) :
  Option ℕ → ℕ → ConfigObjects → Prop
 | _, _, .nil => True
 | parent, k, .term _ _ next => Shown align blob tree addresses parent k next
 | parent, k, .node _ name _ child next =>
  (∃ node, tree.nodes[k]? = some node ∧
   NodeShown align blob tree addresses node parent k name child) ∧
   Shown align blob tree addresses (some k) (k + 1) child ∧
   Shown align blob tree addresses parent (k + 1 + child.nodeCount) next

section Values

variable {align : Bool} {blob : List UInt8} {node : DeviceResourceNode} {attrName : List UInt8}
  {attr : DeviceResourceAttr} {hash : ℕ → ℕ}

theorem getAttrInNode_of_mem (hmem : attr ∈ node.attrData)
  (hnames : (node.attrData.map fun attr => cString (blob.drop attr.name)).Nodup) :
  getAttrInNode blob node (cString (blob.drop attr.name)) = some attr := by
 rw [getAttrInNode]
 generalize node.attrData = attrData at hmem hnames
 induction attrData with
 | nil => cases hmem
 | cons first attrData ih =>
  rw [List.map_cons, List.nodup_cons] at hnames
  obtain ⟨fresh, others⟩ := hnames
  rcases List.mem_cons.mp hmem with rfl | later
  · exact List.find?_cons_of_pos (beq_self_eq_true _)
  · have differ : stringEq blob first.name (cString (blob.drop attr.name)) ≠ true := by
     intro same
     refine fresh ?_
     rw [eq_of_beq same]
     exact List.mem_map.mpr ⟨attr, later, rfl⟩
    rw [List.find?_cons, Bool.eq_false_of_not_eq_true differ]
    exact ih later others

theorem getScalar_of_attr {α : Type} (swap : Swap α)
  (hattr : getAttrInNode blob node attrName = some attr) :
  getScalar swap align blob node attrName = getTyped swap align blob attr.value := by
 rw [getScalar, hattr]

theorem attrGetters_return {s : Scalar} (hattr : getAttrInNode blob node attrName = some attr)
  (h : Holds blob attr.value (s.code align)) :
  (attrGetters align blob node attrName).Return blob s := by
 refine ⟨?_, ?_, ?_, ?_, ?_⟩
 · intro n hn
   exact (getScalar_of_attr _ hattr).trans (getTyped_of_holds swapToUint8_swaps h hn)
 · intro n hn
   exact (getScalar_of_attr _ hattr).trans (getTyped_of_holds swapToUint16_swaps h hn)
 · intro n hn
   exact (getScalar_of_attr _ hattr).trans (getTyped_of_holds swapToUint32_swaps h hn)
 · intro n hn
   exact (getScalar_of_attr _ hattr).trans (getTyped_of_holds swapToUint64_swaps h hn)
 · rintro text rfl
   obtain ⟨read, bytes⟩ := getString_of_holds h
   refine ⟨_, ?_, bytes⟩
   change hcsGetString align blob node attrName = _
   rw [hcsGetString, hattr]
   exact read

theorem getBool_of_attr {s : Scalar} {n : ℕ}
  (hattr : getAttrInNode blob node attrName = some attr)
  (h : Holds blob attr.value (s.code align)) (hn : uintOf 1 s = some n) :
  hcsGetBool align blob node attrName = .ok (decide (n ≠ 0)) := by
 have small : n < 256 := by
  cases s with
  | int type value =>
   rw [uintOf] at hn
   split_ifs at hn with hsize
   obtain rfl := Option.some.inj hn
   revert hsize
   cases type <;> simp only [IntType.size] <;> omega
  | string value => cases hn
 have same : UInt8.ofNat n ≠ 0 ↔ n ≠ 0 := by
  rw [ne_eq, ne_eq, ← UInt8.toNat_inj, UInt8.toNat_ofNat', Nat.mod_eq_of_lt small]
  rfl
 have read : hcsGetUint8 align blob node attrName = .ok (UInt8.ofNat n) :=
  (attrGetters_return hattr h).uint8 n hn
 rw [hcsGetBool, read]
 exact congrArg Except.ok (decide_eq_decide.mpr same)

section Array

variable {elements : List Scalar}

theorem arrayScalar_of_attr {α : Type} {swap : Swap α} {width n index : ℕ} {ofNat : ℕ → α}
  {s : Scalar} (hswap : Swaps swap width ofNat)
  (hattr : getAttrInNode blob node attrName = some attr)
  (h : Holds blob attr.value ((TermValue.array elements).code align hash))
  (hcount : elements.length < 2 ^ 16) (hs : elements[index]? = some s)
  (hn : uintOf width s = some n) :
  getArrayScalar swap align blob node attrName index = .ok (ofNat n) := by
 obtain ⟨pos, found, elem⟩ := getArrayElem_of_holds h hcount hs
 rw [getArrayScalar, hattr]
 change (do
  let realValue ← getArrayElem align blob attr index
  getTyped swap align blob realValue : HcsRead α) = _
 rw [found]
 exact getTyped_of_holds hswap elem hn

theorem scalarArray_of_attr {α : Type} {swap : Swap α} {width : ℕ} {ofNat : ℕ → α}
  (hswap : Swaps swap width ofNat) (hattr : getAttrInNode blob node attrName = some attr)
  (h : Holds blob attr.value ((TermValue.array elements).code align hash))
  (hcount : elements.length < 2 ^ 16) (ns : List ℕ) (rest : List (Option ℕ))
  (hns : elements.map (uintOf width) = ns.map some ++ rest) (hne : ns ≠ []) :
  getScalarArray swap align blob node attrName ns.length = .ok (ns.map ofNat) := by
 have each : ∀ i v, (ns.map ofNat)[i]? = some v →
   getArrayScalar swap align blob node attrName (0 + i) = .ok v := by
  intro i v hv
  rw [List.getElem?_map, Option.map_eq_some_iff] at hv
  obtain ⟨n, hn, rfl⟩ := hv
  have here : (elements.map (uintOf width))[i]? = some (some n) := by
   rw [hns, List.getElem?_append_left (by
    rw [List.length_map]
    exact (List.getElem?_eq_some_iff.mp hn).1), List.getElem?_map, hn]
   rfl
  rw [List.getElem?_map, Option.map_eq_some_iff] at here
  obtain ⟨s, hs, width⟩ := here
  rw [Nat.zero_add]
  exact arrayScalar_of_attr hswap hattr h hcount hs width
 have all := getArrayScalars_of_elems (ns.map ofNat) 0 each
 rw [List.length_map] at all
 rw [getScalarArray, if_neg (mt List.length_eq_zero_iff.mp hne), all]

theorem array_return (hattr : getAttrInNode blob node attrName = some attr)
  (h : Holds blob attr.value ((TermValue.array elements).code align hash))
  (hcount : elements.length < 2 ^ 16) :
  ArrayReturn align blob node attrName elements := by
 refine ⟨elemNum_of_holds hattr h hcount, ?_, scalarArray_of_attr swapToUint8_swaps hattr h hcount,
  scalarArray_of_attr swapToUint16_swaps hattr h hcount,
  scalarArray_of_attr swapToUint32_swaps hattr h hcount,
  scalarArray_of_attr swapToUint64_swaps hattr h hcount⟩
 intro index s hs
 refine ⟨?_, ?_, ?_, ?_, ?_⟩
 · exact fun n hn => arrayScalar_of_attr swapToUint8_swaps hattr h hcount hs hn
 · exact fun n hn => arrayScalar_of_attr swapToUint16_swaps hattr h hcount hs hn
 · exact fun n hn => arrayScalar_of_attr swapToUint32_swaps hattr h hcount hs hn
 · exact fun n hn => arrayScalar_of_attr swapToUint64_swaps hattr h hcount hs hn
 · rintro text rfl
   obtain ⟨pos, found, elem⟩ := getArrayElem_of_holds h hcount hs
   obtain ⟨read, bytes⟩ := getString_of_holds elem
   refine ⟨_, ?_, bytes⟩
   change hcsGetStringArrayElem align blob node attrName index = _
   rw [hcsGetStringArrayElem, hattr]
   change (do
    let realValue ← getArrayElem align blob attr index
    getString align blob realValue : HcsRead ℕ) = _
   rw [found]
   exact read

end Array

theorem nodeByRefAttr_of_attr {tree : CfgTree} {refNode : ℕ}
  (hattr : getAttrInNode blob node attrName = some attr)
  (h : Holds blob attr.value ((TermValue.nodeRef refNode).code align hash))
  (hhash : hash refNode < 2 ^ 32) :
  hcsGetNodeByRefAttr align blob tree node attrName =
   .ok (findHash tree.nodes (hash refNode) tree.nodes.length (some tree.root)) := by
 have word := Holds.right h
 rw [opCode_length, ← hcsPrefixLength_eq] at word
 rw [hcsGetNodeByRefAttr, hattr]
 change (do
  let type ← hcsGetPrefix align blob attr.value
  if type ≠ configReference then return none
  else
   let attrValue ← hcsByteCodeToUint32 blob (attr.value + hcsPrefixLength align)
   return findHash tree.nodes attrValue tree.nodes.length (some tree.root) :
    HcsRead (Option ℕ)) = _
 rw [prefix_of_holds (Holds.left h)]
 change (do
  let attrValue ← hcsByteCodeToUint32 blob (attr.value + hcsPrefixLength align)
  return findHash tree.nodes attrValue tree.nodes.length (some tree.root) :
   HcsRead (Option ℕ)) = _
 rw [dword_of_holds word hhash]
 rfl

end Values

/-- The names of the objects of a child list. -/
def names : ConfigObjects → List Text
 | .nil => []
 | .term name _ next => name :: names next
 | .node _ name _ _ next => name :: names next

def UniqueNames : ConfigObjects → Prop
 | .nil => True
 | .term _ _ next => UniqueNames next
 | .node _ _ _ child next => (names child).Nodup ∧ UniqueNames child ∧ UniqueNames next

/-- What the references of a tree are bound to. -/
def refs : ConfigObjects → List ℕ
 | .nil => []
 | .term _ (.nodeRef refNode) next => refNode :: refs next
 | .term _ _ next => refs next
 | .node _ _ _ child next => refs child ++ refs next

theorem Text.bytes_injective : Function.Injective Text.bytes := by
 rintro ⟨a, ha⟩ ⟨b, hb⟩ (same : a = b)
 subst same
 rfl

theorem terms_names_sublist (objects : ConfigObjects) :
  ((terms objects).map Prod.fst).Sublist (names objects) := by
 induction objects with
 | nil => exact List.Sublist.slnil
 | term name value next ih => exact ih.cons_cons name
 | node address name type child next ihChild ihNext => exact ihNext.cons name

variable {objects : ConfigObjects}

section Nodes

variable {align : Bool} {blob : List UInt8} {hash : ℕ → ℕ} {tree : CfgTree} {addresses : List ℕ}

theorem attrs_names {pos : ℕ} (h : Holds blob pos (objects.code align hash)) :
  ((attrs align pos objects).map fun attr => cString (blob.drop attr.name)) =
   (terms objects).map fun term => term.1.bytes := by
 induction objects generalizing pos with
 | nil => rfl
 | term name value next ih =>
  have text := Holds.right h.left.left
  have behind := h.right
  rw [opCode_length, ← hcsPrefixLength_eq] at text
  rw [List.length_append, TermValue.code_length, ← Nat.add_assoc] at behind
  rw [attrs, terms, List.map_cons, List.map_cons, cString_of_holds text, ih behind]
 | node address name type child next ihChild ihNext =>
  have behind := h.right.right
  rw [ConfigObjects.code_length, nodeHeader_length_eq] at behind
  exact ihNext behind

theorem attr_of_term {pos : ℕ} (h : Holds blob pos (objects.code align hash)) :
  ∀ term ∈ terms objects, ∃ attr ∈ attrs align pos objects,
   cString (blob.drop attr.name) = term.1.bytes ∧
    Holds blob attr.value (term.2.code align hash) := by
 induction objects generalizing pos with
 | nil => exact fun term hterm => by cases hterm
 | term name value next ih =>
  have text := Holds.right h.left.left
  have body := h.left.right
  have behind := h.right
  rw [opCode_length, ← hcsPrefixLength_eq] at text
  rw [List.length_append, TermValue.code_length, ← Nat.add_assoc] at behind
  refine List.forall_mem_cons.mpr ⟨⟨_, List.mem_cons_self, cString_of_holds text, body⟩, ?_⟩
  intro term hterm
  obtain ⟨attr, hattr, shown⟩ := ih behind term hterm
  exact ⟨attr, List.mem_cons_of_mem _ hattr, shown⟩
 | node address name type child next ihChild ihNext =>
  have behind := h.right.right
  rw [ConfigObjects.code_length, nodeHeader_length_eq] at behind
  exact ihNext behind

theorem counted_of_mem (h : objects.Counted) : ∀ term ∈ terms objects, term.2.Counted := by
 induction objects with
 | nil => exact fun term hterm => by cases hterm
 | term name value next ih => exact List.forall_mem_cons.mpr ⟨h.1, ih h.2⟩
 | node address name type child next ihChild ihNext => exact ihNext h.2

theorem refs_of_mem {name : Text} {refNode : ℕ}
  (h : (name, TermValue.nodeRef refNode) ∈ terms objects) : refNode ∈ refs objects := by
 induction objects with
 | nil => cases h
 | term name' value next ih =>
  rcases List.mem_cons.mp h with same | later
  · obtain ⟨-, rfl⟩ := Prod.mk.injEq _ _ _ _ ▸ same
    exact List.mem_cons_self
  · have behind := ih later
    cases value with
    | scalar s => exact behind
    | array elements => exact behind
    | nodeRef other => exact List.mem_cons_of_mem _ behind
 | node address name' type child next ihChild ihNext =>
  exact List.mem_append_right _ (ihNext h)

def Found (hash : ℕ → ℕ) (tree : CfgTree) (addresses : List ℕ) (refNode : ℕ) : Prop :=
 hash refNode < 2 ^ 32 ∧ ∃ k, addresses[k]? = some refNode ∧
  findHash tree.nodes (hash refNode) tree.nodes.length (some tree.root) = some k

theorem nodeShown_of_holds {node : DeviceResourceNode} {parent : Option ℕ} {k pos : ℕ}
  {name : Text} {child : ConfigObjects} (hname : Holds blob node.name (textCode align name))
  (hattrs : node.attrData = (attrs align pos child).reverse) (hparent : node.parent = parent)
  (hchild : node.child = roots (k + 1) child) (h : Holds blob pos (child.code align hash))
  (hcounted : child.Counted) (hunique : (names child).Nodup)
  (hrefs : ∀ a ∈ refs child, Found hash tree addresses a) :
  NodeShown align blob tree addresses node parent k name child := by
 have listed := attrs_names h
 have distinct : ((terms child).map fun term => term.1.bytes).Nodup := by
  have bytes := List.Nodup.map Text.bytes_injective ((terms_names_sublist child).nodup hunique)
  rwa [List.map_map] at bytes
 have shownNames : (node.attrData.map fun attr => cString (blob.drop attr.name)) =
   ((terms child).map fun term => term.1.bytes).reverse := by
  rw [hattrs, List.map_reverse, listed]
 refine ⟨cString_of_holds hname, hparent, hchild, shownNames, ?_⟩
 intro term hterm
 obtain ⟨attr, hattr, sameName, body⟩ := attr_of_term h term hterm
 have found := @getAttrInNode_of_mem blob node attr (hattrs ▸ List.mem_reverse.mpr hattr)
  (shownNames ▸ List.pairwise_reverse.mpr (distinct.imp Ne.symm))
 rw [sameName] at found
 have counted := counted_of_mem hcounted term hterm
 obtain ⟨termName, value⟩ := term
 cases value with
 | scalar s => exact ⟨attrGetters_return found body, fun n hn => getBool_of_attr found body hn⟩
 | array elements => exact array_return found body counted
 | nodeRef refNode =>
  obtain ⟨small, i, hi, walk⟩ := hrefs refNode (refs_of_mem hterm)
  refine ⟨i, hi, ?_⟩
  rw [nodeByRefAttr_of_attr found body small, walk]

theorem shown_of_laid {treeStart parent k offset : ℕ}
  (laid : Laid align treeStart tree.nodes parent k offset objects)
  (h : Holds blob (treeStart + offset) (objects.code align hash)) (hcounted : objects.Counted)
  (hunique : UniqueNames objects) (hrefs : ∀ a ∈ refs objects, Found hash tree addresses a) :
  Shown align blob tree addresses (some parent) k objects := by
 induction objects generalizing parent k offset with
 | nil => trivial
 | term name value next ih =>
  have behind := h.right
  rw [List.length_append, TermValue.code_length, Nat.add_assoc treeStart, ← Nat.add_assoc offset]
   at behind
  refine ih laid behind hcounted.2 hunique ?_
  intro a ha
  refine hrefs a ?_
  cases value with
  | scalar s => exact ha
  | array elements => exact ha
  | nodeRef refNode => exact List.mem_cons_of_mem _ ha
 | node address name type child next ihChild ihNext =>
  obtain ⟨here, below, behind⟩ := laid
  obtain ⟨distinct, uniqueChild, uniqueNext⟩ := hunique
  obtain ⟨countedChild, countedNext⟩ := hcounted
  have text := (Holds.right h.left).left
  have codeChild := h.right.left
  have codeNext := h.right.right
  rw [opCode_length, ← hcsPrefixLength_eq] at text
  rw [nodeHeader_length_eq, Nat.add_assoc] at codeChild
  rw [ConfigObjects.code_length, nodeHeader_length_eq, Nat.add_assoc treeStart,
   Nat.add_assoc treeStart] at codeNext
  have refsChild : ∀ a ∈ refs child, Found hash tree addresses a :=
   fun a ha => hrefs a (List.mem_append_left _ ha)
  have refsNext : ∀ a ∈ refs next, Found hash tree addresses a :=
   fun a ha => hrefs a (List.mem_append_right _ ha)
  refine ⟨⟨_, here, ?_⟩, ihChild below codeChild countedChild uniqueChild refsChild,
   ihNext behind codeNext countedNext uniqueNext refsNext⟩
  exact nodeShown_of_holds text rfl rfl rfl codeChild countedChild distinct refsChild

end Nodes

section Built

variable {align : Bool} {treeStart address : ℕ} {name : Text} {child : ConfigObjects} {hash : ℕ → ℕ}

theorem builtNodes_length : (builtNodes align treeStart name child).length = 1 + child.nodeCount :=
 addObjects_length align treeStart _ child 0 _

theorem builtNodes_root : (builtNodes align treeStart name child)[0]? =
   some ⟨treeStart + 0 + hcsPrefixLength align, hbcHeaderLength,
    (attrs align (treeStart + (nodeHeader align name 0).length) child).reverse, none,
    roots 1 child⟩ := by
 have grown := addObjects_parent align treeStart child (nodeHeader align name 0).length
  (show (createTreeNode align treeStart 0 none [])[0]? = some _ from rfl)
 rw [builtNodes, grown, List.append_nil, List.nil_append]
 rfl

theorem builtNodes_laid : Laid align treeStart (builtNodes align treeStart name child) 0 1
   (nodeHeader align name 0).length child :=
 addObjects_laid align treeStart _ child 0 _ Nat.one_pos

theorem builtNodes_walk (i : ℕ) (hi : i + 1 < (builtNodes align treeStart name child).length) :
  nextNode (builtNodes align treeStart name child) i = some (i + 1) := by
 have climb : Climbs (builtNodes align treeStart name child) 0 none := by
  intro rounds hrounds
  cases rounds with
  | zero => exact absurd hrounds (lt_irrefl 0)
  | succ rounds =>
   have noParent : ((builtNodes align treeStart name child)[0]?).bind
     DeviceResourceNode.parent = none := by
    rw [builtNodes_root]
    rfl
   rw [traverseTreeNode, siblingOf, noParent]
 rw [builtNodes_length] at hi
 cases i with
 | zero =>
  rw [nextNode_eq climb builtNodes_root, roots_head, if_pos (by omega)]
  rfl
 | succ i =>
  rw [builtNodes_laid.walk Nat.one_pos builtNodes_root
   (show _ = [] ++ roots 1 child from rfl) (fun i hi => by cases hi) climb (i + 1) (by omega)
   (by omega), if_pos (by omega)]

theorem builtNodes_found
  (placed : (ConfigObjects.node address name .noRef child .nil).Placed align hash
   hbcHeaderLength)
  (hsize : hbcHeaderLength +
   (ConfigObjects.node address name .noRef child .nil).size align < 2 ^ 32) {a : ℕ}
  (ha : a ∈ (ConfigObjects.node address name .noRef child .nil).addresses) :
  Found hash ⟨builtNodes align treeStart name child, 0⟩
   (ConfigObjects.node address name .noRef child .nil).addresses a := by
 have bounds := Placed.bounds placed ha
 have distinct := Placed.nodup placed
 have count := addresses_length (.node address name .noRef child .nil)
 have size := ConfigObjects.size_node align address name .noRef child .nil
 obtain ⟨place, below, -⟩ := placed
 have hashes : ∀ i b : ℕ, (ConfigObjects.node address name .noRef child .nil).addresses[i]? = some b →
   ((builtNodes align treeStart name child)[i]?).map DeviceResourceNode.hashValue =
    some (hash b) := by
  intro i b hb
  cases i with
  | zero =>
   obtain rfl : address = b := Option.some.inj hb
   rw [builtNodes_root, Option.map_some, place]
  | succ i =>
   rw [ConfigObjects.addresses, List.getElem?_cons_succ, ConfigObjects.addresses,
    List.append_nil] at hb
   rw [Nat.add_comm]
   refine builtNodes_laid.hashes ?_ (by omega) hb
   rwa [Nat.add_comm]
 obtain ⟨t, ht⟩ := List.mem_iff_getElem?.mp ha
 refine ⟨by omega, t, ht, ?_⟩
 refine findHash_of_walk builtNodes_walk (hashes t a ht) ?_ (Nat.zero_le t) _ ?_
 · intro j hj same
   have inside := (List.getElem?_eq_some_iff.mp ht).1
   have here := List.getElem?_eq_getElem (hj.trans inside)
   rw [hashes j _ here] at same
   have differ := List.nodup_iff_getElem?_ne_getElem?.mp distinct j t hj
    (by rwa [List.length_map])
   rw [List.getElem?_map, List.getElem?_map, ht, here] at differ
   exact differ same
 · have inside := (List.getElem?_eq_some_iff.mp ht).1
   rw [count, ConfigObjects.nodeCount, ConfigObjects.nodeCount] at inside
   change t < 0 + (builtNodes align treeStart name child).length
   rw [builtNodes_length]
   omega

theorem builtNodes_shown {blob : List UInt8}
  (h : Holds blob hbcHeaderLength
   ((ConfigObjects.node address name .noRef child .nil).code align hash))
  (placed : (ConfigObjects.node address name .noRef child .nil).Placed align hash
   hbcHeaderLength)
  (hsize : hbcHeaderLength +
   (ConfigObjects.node address name .noRef child .nil).size align < 2 ^ 32)
  (hcounted : child.Counted) (hunique : (names child).Nodup ∧ UniqueNames child)
  (hbound : ∀ a ∈ refs child,
   a ∈ (ConfigObjects.node address name .noRef child .nil).addresses) :
  Shown align blob ⟨builtNodes align hbcHeaderLength name child, 0⟩
   (ConfigObjects.node address name .noRef child .nil).addresses none 0
   (.node address name .noRef child .nil) := by
 have found : ∀ a ∈ refs child, Found hash ⟨builtNodes align hbcHeaderLength name child, 0⟩
   (ConfigObjects.node address name .noRef child .nil).addresses a :=
  fun a ha => builtNodes_found placed hsize (hbound a ha)
 rw [rootCode] at h
 have text := (Holds.right h.left).left
 have body := h.right
 rw [opCode_length, ← hcsPrefixLength_eq] at text
 rw [nodeHeader_length_eq] at body
 refine ⟨⟨_, builtNodes_root, ?_⟩, ?_, trivial⟩
 · exact nodeShown_of_holds text rfl rfl rfl body hcounted hunique.1 found
 · exact shown_of_laid builtNodes_laid body hcounted hunique.2 found

end Built

theorem slice_word_of_holds {blob : List UInt8} {pos n : ℕ} (h : Holds blob pos (leBytes 4 n))
  (hn : n < 2 ^ 32) : leNat (slice blob pos 4) = n := by
 have bytes := h.slice_eq
 rw [leBytes_length] at bytes
 rw [bytes, leNat_leBytes_of_lt hn]

theorem hbcHeader_of_holds {blob : List UInt8} {align : Bool} {versionMajor versionMinor : UInt32}
  {size : ℕ} (h : Holds blob 0 (hcbHeader align versionMajor versionMinor size))
  (hpos : 0 < size) (hsize : size < 2 ^ 31) :
  hbcHeader blob = ⟨hbcMagicNumber, if align then -(size : ℤ) else size⟩ := by
 have magic : leNat (slice blob 0 4) = hbcMagicNumber :=
  slice_word_of_holds h.left.left.left.left (by decide)
 have last := Holds.right h
 rw [List.length_append, List.length_append, List.length_append, leBytes_length, leBytes_length,
  leBytes_length, leBytes_length] at last
 rw [hbcHeader, magic]
 cases align with
 | true =>
  have negated : (2 ^ 32 - size) % 2 ^ 32 = 2 ^ 32 - size := Nat.mod_eq_of_lt (by omega)
  have word := slice_word_of_holds last (by rw [if_pos rfl]; omega)
  rw [if_pos rfl, negated] at word
  have total : int32OfUint32 (2 ^ 32 - size) = -(size : ℤ) := by
   have big : ¬ 2 ^ 32 - size < 2 ^ 31 := by omega
   rw [int32OfUint32, ← negated, Nat.mod_mod, negated, if_neg big]
   omega
  rw [word, total, if_pos rfl]
 | false =>
  have word := slice_word_of_holds last
   (by rw [if_neg Bool.false_ne_true]; omega)
  rw [if_neg Bool.false_ne_true] at word
  rw [word, int32OfUint32_of_lt hsize, if_neg Bool.false_ne_true]

theorem checkBlobFormat_output {blob : List UInt8} {align : Bool}
  {versionMajor versionMinor : UInt32} {size : ℕ} (gByteAlign : Bool)
  (h : Holds blob 0 (hcbHeader align versionMajor versionMinor size))
  (hlength : blob.length = hbcHeaderLength + size) (hpos : 0 < size)
  (hmin : minBlobLength gByteAlign ≤ hbcHeaderLength + size)
  (hmax : blob.length ≤ hbcBlobMaxLength) :
  hcsCheckBlobFormat gByteAlign blob = (true, align) := by
 have header := hbcHeader_of_holds h hpos (by rw [hlength, hbcBlobMaxLength] at hmax; omega)
 have inside : ¬ (blob.length < hbcHeaderLength ∨ blob.length > hbcBlobMaxLength) := by omega
 have sum : (((hbcHeaderLength : ℤ) + size) % 2 ^ 32).toNat = hbcHeaderLength + size := by
  rw [hlength, hbcBlobMaxLength] at hmax
  omega
 rw [hcsCheckBlobFormat, header]
 simp only [inside, if_false, ne_eq, not_true_eq_false]
 have accepted : ¬ (blob.length ≠ hbcHeaderLength + size ∨
   hbcHeaderLength + size < minBlobLength gByteAlign) := by omega
 cases align with
 | true =>
  have negative : ¬ -(size : ℤ) ≥ 0 := by omega
  simp only [checkHcsBlobLength, if_true, negative, if_false, sub_neg_eq_add, sum, accepted,
   decide_false, Bool.not_false]
 | false =>
  have nonneg : (size : ℤ) ≥ 0 := by omega
  simp only [checkHcsBlobLength, Bool.false_eq_true, if_false, nonneg, if_true, sum, accepted,
   decide_false, decide_true, Bool.not_false, Bool.not_true]

def ascii (letters : List Char) : List UInt8 := letters.map fun c => UInt8.ofNat c.toNat

def rootText : Text := ⟨ascii ['r', 'o', 'o', 't'], by decide⟩

def moduleText : Text := ⟨ascii ['m', 'o', 'd', 'u', 'l', 'e'], by decide⟩

/-- A fully expanded tree, as it is left when its template nodes are gone: the parser
names the root, and expansion ends with an error if the root has no term `module`. -/
structure Compilable (ast : Ast) : Prop where
 rootName : ast.name = rootText
 moduleTerm : ∃ value, (moduleText, value) ∈ terms (byteCodeConvert ast).child
 uniqueNames : UniqueNames (byteCodeConvert ast).root
 counted : (byteCodeConvert ast).root.Counted
 addresses : (byteCodeConvert ast).root.addresses.Nodup
 refsBound : ∀ a ∈ refs (byteCodeConvert ast).root, a ∈ (byteCodeConvert ast).root.addresses
 layers : (byteCodeConvert ast).root.layers ≤ treeStackMax - 1

theorem TermValue.two_le_size (align : Bool) (value : TermValue) : 2 ≤ value.size align := by
 have one := opSize_pos align
 have pad := le_alignSize align
 cases value with
 | scalar s =>
  cases s with
  | int type value =>
   have word : 0 < type.size := by cases type <;> decide
   have := pad type.size
   simp only [TermValue.size, Scalar.size]
   omega
  | string text =>
   have := pad (text.bytes.length + 1)
   simp only [TermValue.size, Scalar.size]
   omega
 | array elements =>
  have := pad 2
  simp only [TermValue.size]
  omega
 | nodeRef refNode =>
  have := pad 4
  simp only [TermValue.size]
  omega

theorem size_of_term (align : Bool) {name : Text} {value : TermValue}
  (h : (name, value) ∈ terms objects) : name.bytes.length + 4 ≤ objects.size align := by
 induction objects with
 | nil => cases h
 | term name' value' next ih =>
  rcases List.mem_cons.mp h with same | later
  · obtain ⟨rfl, rfl⟩ := Prod.mk.inj same
    have one := opSize_pos align
    have text := le_alignSize align (name.bytes.length + 1)
    have body := TermValue.two_le_size align value
    rw [ConfigObjects.size]
    omega
  · exact (ih later).trans (Nat.le_add_left _ _)
 | node address name' type child next ihChild ihNext =>
  exact (ihNext h).trans (Nat.le_add_left _ _)

theorem minBlobLength_le {ast : Ast} (h : Compilable ast) (align gByteAlign : Bool) :
  minBlobLength gByteAlign ≤ hbcHeaderLength + (byteCodeConvert ast).root.size align := by
 obtain ⟨value, hvalue⟩ := h.moduleTerm
 have body := size_of_term align hvalue
 have one := opSize_pos align
 have dword := le_alignSize align 4
 have text := le_alignSize align (ast.name.bytes.length + 1)
 have rootLetters : ast.name.bytes.length = 4 := by rw [h.rootName]; rfl
 have moduleLetters : moduleText.bytes.length = 6 := rfl
 have least : minBlobLength gByteAlign ≤ 36 := by cases gByteAlign <;> decide
 have size : (byteCodeConvert ast).root.size align = alignSize align 1 + alignSize align 4 +
   alignSize align (ast.name.bytes.length + 1) + (byteCodeConvert ast).child.size align + 0 :=
  rfl
 rw [size, hbcHeaderLength]
 omega

/-- What the compiler writes for a tree is accepted, and its nodes come back with their
names, order, values and references; the attributes of a node come back last first. -/
theorem roundTrip_of_compilable (align : Bool) (versionMajor versionMinor : UInt32) (ast : Ast)
    (h : Compilable ast)
    (hlimit : (output align versionMajor versionMinor ast).length ≤ hbcBlobMaxLength)
    (gByteAlign : Bool) :
    hcsCheckBlobFormat gByteAlign (output align versionMajor versionMinor ast) = (true, align) ∧
    ∃ nodes : List DeviceResourceNode,
      hcsDecompile align (output align versionMajor versionMinor ast) hbcHeaderLength allMemory =
        .ok ⟨nodes, 0⟩ ∧
      nodes.length = (byteCodeConvert ast).root.nodeCount ∧
      Shown align (output align versionMajor versionMinor ast) ⟨nodes, 0⟩
        (byteCodeConvert ast).root.addresses none 0 (byteCodeConvert ast).root := by
  have min := minBlobLength_le h align gByteAlign
  have length := output_length align versionMajor versionMinor ast
  obtain ⟨-, -, unique, counted, distinct, bound, layers⟩ := h
  have size : hbcHeaderLength + (byteCodeConvert ast).root.size align < 2 ^ 31 := by
    rw [length, hbcBlobMaxLength] at hlimit
    rw [hbcHeaderLength]
    omega
  have wide := size.trans (show 2 ^ 31 < 2 ^ 32 by decide)
  obtain ⟨hash, placed, file⟩ := output_eq align versionMajor versionMinor ast wide distinct
  have front := holds_of_append []
    (hcbHeader align versionMajor versionMinor ((byteCodeConvert ast).root.size align))
    ((byteCodeConvert ast).root.code align hash)
  have body := holds_of_append
    (hcbHeader align versionMajor versionMinor ((byteCodeConvert ast).root.size align))
    ((byteCodeConvert ast).root.code align hash) []
  rw [List.nil_append, List.length_nil, ← file] at front
  rw [List.append_nil, ← file, hcbHeader_length] at body
  have rootSize : (byteCodeConvert ast).root.size align =
      (nodeHeader align ast.name 0).length + (byteCodeConvert ast).child.size align + 0 :=
    ConfigObjects.size_node align ast.address ast.name .noRef (byteCodeConvert ast).child .nil
  have headerPos := nodeHeader_pos align ast.name 0
  have nonempty : 0 < (byteCodeConvert ast).root.size align := by omega
  refine ⟨checkBlobFormat_output gByteAlign front length nonempty min hlimit,
    builtNodes align hbcHeaderLength ast.name (byteCodeConvert ast).child, ?_, ?_, ?_⟩
  · refine decompile_of_holds body counted.1 ?_ ?_
    · exact (le_max_left _ _).trans layers
    · omega
  · exact builtNodes_length
  · refine builtNodes_shown body placed wide counted.1 ⟨unique.1, unique.2.1⟩ ?_
    intro a ha
    exact bound a (List.mem_append_left _ ha)

/-- A root with an array, a node `b`, a reference to it, and a template node. -/
def sampleAst : Ast :=
 ⟨0, rootText,
  .term moduleText (.scalar (.string ⟨ascii ['m'], by decide⟩)) <|
  .term ⟨ascii ['a'], by decide⟩ (.array [.int .uint8 1, .int .uint16 300]) <|
  .node 1 ⟨ascii ['t'], by decide⟩ .template .nil <|
  .node 2 ⟨ascii ['b'], by decide⟩ .noRef
   (.term ⟨ascii ['x'], by decide⟩ (.scalar (.int .uint32 70000)) .nil) <|
  .term ⟨ascii ['r'], by decide⟩ (.nodeRef 2) .nil⟩

theorem sampleAst_compilable : Compilable sampleAst where
 rootName := rfl
 moduleTerm := ⟨_, List.mem_cons_self⟩
 uniqueNames := by
  refine ⟨?_, ?_, trivial⟩
  · decide
  · exact ⟨by decide, trivial, trivial⟩
 counted := ⟨⟨trivial, (by decide : 2 < 2 ^ 16), ⟨trivial, trivial⟩, trivial, trivial⟩, trivial⟩
 addresses := by decide
 refsBound := by decide
 layers := by decide

theorem roundTrip_sampleAst : hcsCheckBlobFormat true (output false 1 0 sampleAst) = (true, false) ∧
    ∃ nodes : List DeviceResourceNode,
      hcsDecompile false (output false 1 0 sampleAst) hbcHeaderLength allMemory =
        .ok ⟨nodes, 0⟩ ∧
      nodes.length = 2 ∧
      Shown false (output false 1 0 sampleAst) ⟨nodes, 0⟩ [0, 2] none 0
        (byteCodeConvert sampleAst).root :=
  roundTrip_of_compilable false 1 0 sampleAst sampleAst_compilable
    (by rw [output_length]; decide) true

/-- The root of the sample lists `module` first, the rebuilt root lists it last. -/
theorem attributes_reversed :
    Compilable sampleAst ∧ (output false 1 0 sampleAst).length ≤ hbcBlobMaxLength ∧
    ∃ tree node, hcsDecompile false (output false 1 0 sampleAst) hbcHeaderLength allMemory =
        .ok tree ∧ tree.nodes[tree.root]? = some node ∧
      (node.attrData.map fun attr => cString ((output false 1 0 sampleAst).drop attr.name)) ≠
        (terms (byteCodeConvert sampleAst).child).map fun term => term.1.bytes := by
  refine ⟨sampleAst_compilable, by rw [output_length]; decide, ?_⟩
  exact ⟨⟨builtNodes false 20 rootText (byteCodeConvert sampleAst).child, 0⟩, _, by decide +kernel,
    rfl, by decide +kernel⟩

end DriversFramework.Hcs
