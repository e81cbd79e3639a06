import Mathlib.Data.List.Basic
import DriversFramework.HcsBuild

namespace DriversFramework.Hcs

open ByteCodec HcGen

/-- The top nodes of a child list, if its first node has the index `k`. -/
def roots (k : ℕ) : ConfigObjects → List ℕ
 | .nil => []
 | .term _ _ next => roots k next
 | .node _ _ _ child next => k :: roots (k + 1 + child.nodeCount) next

/-- The attributes for the terms of a child list, if its first object is at `pos`. -/
def attrs (align : Bool) (pos : ℕ) : ConfigObjects → List DeviceResourceAttr
 | .nil => []
 | .term name value next =>
  ⟨pos + hcsPrefixLength align, pos + (termHeader align name).length⟩ ::
   attrs align (pos + (termHeader align name).length + value.size align) next
 | .node _ name _ child next =>
  attrs align (pos + (nodeHeader align name 0).length + child.size align) next

/-- `nodes` has, from index `k` on, the nodes of a child list of `parent` that starts at
`offset`. -/
def Laid (align : Bool) (treeStart : ℕ) (nodes : List DeviceResourceNode) :
  (parent k offset : ℕ) → ConfigObjects → Prop
 | _, _, _, .nil => True
 | parent, k, offset, .term name value next =>
  Laid align treeStart nodes parent k
   (offset + (termHeader align name).length + value.size align) next
 | parent, k, offset, .node _ name _ child next =>
  let below := offset + (nodeHeader align name 0).length
  nodes[k]? = some ⟨treeStart + offset + hcsPrefixLength align,
    (offset + hbcHeaderLength) % 2 ^ 32, (attrs align (treeStart + below) child).reverse,
    some parent, roots (k + 1) child⟩ ∧
   Laid align treeStart nodes k (k + 1) below child ∧
   Laid align treeStart nodes parent (k + 1 + child.nodeCount) (below + child.size align) next

variable {nodes : List DeviceResourceNode}

section
variable (align : Bool) (treeStart : ℕ)

theorem createTreeNode_length (nodes : List DeviceResourceNode) (offset p : ℕ) :
 (createTreeNode align treeStart offset (some p) nodes).length = nodes.length + 1 := by
 simp only [createTreeNode, List.length_append, List.length_modify, List.length_singleton]

theorem addObjects_length (nodes : List DeviceResourceNode) (objects : ConfigObjects)
 (p offset : ℕ) :
 (addObjects align treeStart p offset objects nodes).length =
  nodes.length + objects.nodeCount := by
 induction objects generalizing p offset nodes with
 | nil => rfl
 | term name value next ih => rw [addObjects, ih, List.length_modify, ConfigObjects.nodeCount]
 | node address name type child next ihChild ihNext =>
  rw [addObjects, ihNext, ihChild, createTreeNode_length, ConfigObjects.nodeCount]
  omega

theorem createTreeNode_new (nodes : List DeviceResourceNode) (offset p : ℕ) :
 (createTreeNode align treeStart offset (some p) nodes)[nodes.length]? =
  some ⟨treeStart + offset + hcsPrefixLength align, (offset + hbcHeaderLength) % 2 ^ 32, [],
   some p, []⟩ := by
 have len : nodes.length = (nodes.modify p fun n =>
  { n with child := n.child ++ [nodes.length] }).length := (List.length_modify _ _ _).symm
 rw [createTreeNode]
 conv_lhs => arg 2; rw [len]
 exact List.getElem?_concat_length

theorem createTreeNode_old {i : ℕ} (offset p : ℕ) (hi : i < nodes.length) :
 (createTreeNode align treeStart offset (some p) nodes)[i]? =
  (nodes.modify p fun n => { n with child := n.child ++ [nodes.length] })[i]? := by
 rw [createTreeNode, List.getElem?_append_left (by rwa [List.length_modify])]

theorem addObjects_other {p i : ℕ} (objects : ConfigObjects)
 (offset : ℕ) (hi : i < nodes.length) (hne : i ≠ p) :
 (addObjects align treeStart p offset objects nodes)[i]? = nodes[i]? := by
 induction objects generalizing p offset nodes with
 | nil => rfl
 | term name value next ih =>
  rw [addObjects, ih _ (by rwa [List.length_modify]) hne, List.getElem?_modify_ne _ _ hne.symm]
 | node address name type child next ihChild ihNext =>
  have len := createTreeNode_length align treeStart nodes offset p
  rw [addObjects, ihNext _ (by rw [addObjects_length, len]; omega) hne,
   ihChild _ (by rw [len]; omega) (by omega), createTreeNode_old align treeStart offset p hi,
   List.getElem?_modify_ne _ _ hne.symm]

theorem addObjects_parent {p : ℕ} {n : DeviceResourceNode}
 (objects : ConfigObjects) (offset : ℕ) (hp : nodes[p]? = some n) :
 (addObjects align treeStart p offset objects nodes)[p]? =
  some { n with
   attrData := (attrs align (treeStart + offset) objects).reverse ++ n.attrData
   child := n.child ++ roots nodes.length objects } := by
 induction objects generalizing p offset nodes n with
 | nil => simp only [addObjects, attrs, roots, List.reverse_nil, List.nil_append, List.append_nil, hp]
 | term name value next ih =>
  have now : (nodes.modify p fun n => { n with
   attrData := ⟨treeStart + offset + hcsPrefixLength align,
    treeStart + offset + (termHeader align name).length⟩ :: n.attrData })[p]? =
   some { n with
    attrData := ⟨treeStart + offset + hcsPrefixLength align,
     treeStart + offset + (termHeader align name).length⟩ :: n.attrData } := by
   rw [List.getElem?_modify_eq, hp]
   rfl
  rw [addObjects, ih _ now, List.length_modify, attrs, roots, List.reverse_cons,
   List.append_assoc, ← Nat.add_assoc, ← Nat.add_assoc]
  rfl
 | node address name type child next ihChild ihNext =>
  have hlt : p < nodes.length := (List.getElem?_eq_some_iff.mp hp).1
  have len := createTreeNode_length align treeStart nodes offset p
  have now : (addObjects align treeStart nodes.length (offset + (nodeHeader align name 0).length)
   child (createTreeNode align treeStart offset (some p) nodes))[p]? =
   some { n with child := n.child ++ [nodes.length] } := by
   rw [addObjects_other align treeStart child _ (by rw [len]; omega) (by omega),
    createTreeNode_old align treeStart offset p hlt, List.getElem?_modify_eq, hp]
   rfl
  rw [addObjects, ihNext _ now, addObjects_length, len, attrs, roots, ← Nat.add_assoc,
   ← Nat.add_assoc, List.append_assoc]
  rfl

theorem Laid.congr {nodes' : List DeviceResourceNode} {objects : ConfigObjects}
 {parent k offset : ℕ} (h : Laid align treeStart nodes parent k offset objects)
 (same : ∀ i, k ≤ i → i < k + objects.nodeCount → nodes'[i]? = nodes[i]?) :
 Laid align treeStart nodes' parent k offset objects := by
 induction objects generalizing parent k offset with
 | nil => trivial
 | term name value next ih => exact ih h same
 | node address name type child next ihChild ihNext =>
  obtain ⟨here, below, behind⟩ := h
  rw [ConfigObjects.nodeCount] at same
  refine ⟨(same k le_rfl (by omega)).trans here, ihChild below ?_, ihNext behind ?_⟩
  · intro i hlow hhigh
    exact same i (by omega) (by omega)
  · intro i hlow hhigh
    exact same i (by omega) (by omega)

theorem addObjects_laid (nodes : List DeviceResourceNode) (objects : ConfigObjects) (p offset : ℕ)
 (hp : p < nodes.length) :
 Laid align treeStart (addObjects align treeStart p offset objects nodes) p nodes.length offset
  objects := by
 induction objects generalizing p offset nodes with
 | nil => trivial
 | term name value next ih =>
  have rest := ih (nodes.modify p fun n => { n with
   attrData := ⟨treeStart + offset + hcsPrefixLength align,
    treeStart + offset + (termHeader align name).length⟩ :: n.attrData }) p
   (offset + (termHeader align name).length + value.size align) (by rwa [List.length_modify])
  rwa [List.length_modify] at rest
 | node address name type child next ihChild ihNext =>
  have len := createTreeNode_length align treeStart nodes offset p
  have created := createTreeNode_new align treeStart nodes offset p
  have below := ihChild (createTreeNode align treeStart offset (some p) nodes) nodes.length
   (offset + (nodeHeader align name 0).length) (by rw [len]; omega)
  have size := addObjects_length align treeStart
   (createTreeNode align treeStart offset (some p) nodes) child nodes.length
   (offset + (nodeHeader align name 0).length)
  have behind := ihNext (addObjects align treeStart nodes.length
   (offset + (nodeHeader align name 0).length) child
   (createTreeNode align treeStart offset (some p) nodes)) p
   (offset + (nodeHeader align name 0).length + child.size align) (by rw [size, len]; omega)
  rw [len] at below size
  rw [size] at behind
  refine ⟨?_, below.congr align treeStart ?_, behind⟩
  · rw [addObjects, addObjects_other align treeStart next _ (by rw [size]; omega) (by omega),
     addObjects_parent align treeStart child _ created, List.append_nil, List.nil_append, len]
  · intro i hlow hhigh
    rw [addObjects, addObjects_other align treeStart next _ (by rw [size]; omega) (by omega)]

end

def Climbs (nodes : List DeviceResourceNode) (i : ℕ) (r : Option ℕ) : Prop :=
 ∀ rounds, i < rounds → traverseTreeNode nodes rounds i = r

theorem roots_head (k : ℕ) (objects : ConfigObjects) :
 (roots k objects).head? = if 0 < objects.nodeCount then some k else none := by
 induction objects with
 | nil => rfl
 | term name value next ih => exact ih
 | node address name type child next ihChild ihNext =>
  rw [roots, List.head?_cons, ConfigObjects.nodeCount, if_pos (by omega)]

section
variable {nodes : List DeviceResourceNode} {p k : ℕ} {n m : DeviceResourceNode}
 {front back : List ℕ}

theorem siblingOf_of_child (hk : nodes[k]? = some m) (hm : m.parent = some p)
 (hp : nodes[p]? = some n) (hn : n.child = front ++ k :: back) (hfront : k ∉ front) :
 siblingOf nodes k = back.head? := by
 have parent : (nodes[k]?).bind DeviceResourceNode.parent = some p := by
  rw [hk]
  exact hm
 have place : (front ++ k :: back).idxOf k = front.length := by
  rw [List.idxOf_append_of_notMem hfront, List.idxOf_cons_self, Nat.add_zero]
 rw [siblingOf, parent]
 dsimp only
 rw [hp, Option.map_some, Option.bind_some, hn, place,
  List.getElem?_append_right (Nat.le_succ _), Nat.succ_sub (le_refl _), Nat.sub_self, List.getElem?_cons_succ,
  List.head?_eq_getElem?]

theorem Climbs.step {r : Option ℕ} (h : Climbs nodes p r) (hlt : p < k)
 (hk : nodes[k]? = some m) (hm : m.parent = some p) (hp : nodes[p]? = some n)
 (hn : n.child = front ++ k :: back) (hfront : k ∉ front) :
 Climbs nodes k (back.head?.or r) := by
 have parent : (nodes[k]?).bind DeviceResourceNode.parent = some p := by
  rw [hk]
  exact hm
 intro rounds hrounds
 cases rounds with
 | zero => exact absurd hrounds (Nat.not_lt_zero k)
 | succ rounds =>
  rw [traverseTreeNode, parent, siblingOf_of_child hk hm hp hn hfront]
  cases back with
  | nil => exact h rounds (by omega)
  | cons c back => rfl

theorem nextNode_eq {r : Option ℕ} (h : Climbs nodes k r) (hk : nodes[k]? = some m) :
 nextNode nodes k = m.child.head?.or r := by
 have first : ((nodes[k]?).bind fun n => n.child.head?) = m.child.head? := by
  rw [hk]
  rfl
 rw [nextNode, first]
 cases m.child.head? with
 | none => exact h (k + 1) (Nat.lt_succ_self k)
 | some c => rfl

theorem Laid.walk {align : Bool} {treeStart offset : ℕ} {objects : ConfigObjects} {r : Option ℕ}
 (h : Laid align treeStart nodes p k offset objects) (hlt : p < k)
 (hp : nodes[p]? = some n) (hn : n.child = front ++ roots k objects)
 (hfront : ∀ i ∈ front, i < k) (hclimb : Climbs nodes p r) (i : ℕ) (hlow : k ≤ i)
 (hhigh : i < k + objects.nodeCount) :
 nextNode nodes i = if i + 1 < k + objects.nodeCount then some (i + 1) else r := by
 induction objects generalizing p k offset n front r with
 | nil => exact absurd hhigh (not_lt.mpr hlow)
 | term name value next ih => exact ih h hlt hp hn hfront hclimb hlow hhigh
 | node address name type child next ihChild ihNext =>
  obtain ⟨here, below, behind⟩ := h
  rw [ConfigObjects.nodeCount] at hhigh ⊢
  have climb := hclimb.step hlt here rfl hp hn fun hk => lt_irrefl k (hfront k hk)
  rw [roots_head] at climb
  rcases Nat.lt_or_ge i (k + 1 + child.nodeCount) with inside | beyond
  · have within : nextNode nodes i =
     if i + 1 < k + 1 + child.nodeCount then some (i + 1)
     else (if 0 < next.nodeCount then some (k + 1 + child.nodeCount) else none).or r := by
     generalize (if 0 < next.nodeCount then some (k + 1 + child.nodeCount) else none).or r = r'
      at climb ⊢
     rcases Nat.eq_or_lt_of_le hlow with rfl | deeper
     · rw [nextNode_eq climb here, roots_head]
       by_cases leaf : 0 < child.nodeCount
       · rw [if_pos leaf, if_pos (by omega)]
         rfl
       · rw [if_neg leaf, if_neg (by omega)]
         rfl
     · exact ihChild below (Nat.lt_succ_self k) here (show _ = [] ++ roots (k + 1) child from rfl)
        (fun i hi => by cases hi) climb deeper inside
    rw [within]
    by_cases last : i + 1 < k + 1 + child.nodeCount
    · rw [if_pos last, if_pos (by omega)]
    rw [if_neg last]
    by_cases more : 0 < next.nodeCount
    · rw [if_pos more, if_pos (by omega), show k + 1 + child.nodeCount = i + 1 by omega]
      rfl
    · rw [if_neg more, if_neg (by omega)]
      rfl
  · have later : n.child = (front ++ [k]) ++ roots (k + 1 + child.nodeCount) next := by
     rw [hn, roots, List.append_assoc]
     rfl
    have rest := ihNext behind (by omega) hp later
     (fun i hi => by
      rcases List.mem_append.mp hi with old | new
      · exact (hfront i old).trans (by omega)
      · rw [List.mem_singleton.mp new]
        omega) hclimb beyond (by omega)
    rw [rest, show k + (1 + child.nodeCount + next.nodeCount) =
     k + 1 + child.nodeCount + next.nodeCount by omega]

theorem findHash_of_walk {hash t i : ℕ}
 (hwalk : ∀ j, j + 1 < nodes.length → nextNode nodes j = some (j + 1))
 (ht : (nodes[t]?).map DeviceResourceNode.hashValue = some hash)
 (hne : ∀ j < t, (nodes[j]?).map DeviceResourceNode.hashValue ≠ some hash) (hi : i ≤ t)
 (rounds : ℕ) (hrounds : t < i + rounds) : findHash nodes hash rounds (some i) = some t := by
 have inside : t < nodes.length := by
  by_contra outside
  rw [List.getElem?_eq_none (not_lt.mp outside)] at ht
  cases ht
 induction rounds generalizing i with
 | zero => exact absurd hi (not_le.mpr hrounds)
 | succ rounds ih =>
  rcases Nat.eq_or_lt_of_le hi with rfl | before
  · rw [findHash, if_pos ht]
  · rw [findHash, if_neg (hne i before), hwalk i (by omega)]
    exact ih before (by omega)

end

section
variable {align : Bool} {hash : ℕ → ℕ}

theorem addresses_length (objects : ConfigObjects) :
 objects.addresses.length = objects.nodeCount := by
 induction objects with
 | nil => rfl
 | term name value next ih => exact ih
 | node address name type child next ihChild ihNext =>
  rw [ConfigObjects.addresses, List.length_cons, List.length_append, ihChild, ihNext,
   ConfigObjects.nodeCount]
  omega

theorem Laid.hashes {treeStart parent k offset : ℕ}
 {objects : ConfigObjects} (h : Laid align treeStart nodes parent k offset objects)
 (placed : objects.Placed align hash (offset + hbcHeaderLength))
 (hsize : offset + objects.size align + hbcHeaderLength < 2 ^ 32) {i a : ℕ}
 (ha : objects.addresses[i]? = some a) :
 (nodes[k + i]?).map DeviceResourceNode.hashValue = some (hash a) := by
 induction objects generalizing parent k offset i with
 | nil => cases ha
 | term name value next ih =>
  have size := ConfigObjects.size_term align hash name value next
  rw [size, List.length_append, TermValue.code_length] at hsize
  refine ih h ?_ (by omega) ha
  rw [Nat.add_right_comm, Nat.add_right_comm offset]
  exact placed
 | node address name type child next ihChild ihNext =>
  have size := ConfigObjects.size_node align address name type child next
  rw [size] at hsize
  obtain ⟨here, below, behind⟩ := h
  obtain ⟨place, placedChild, placedNext⟩ := placed
  cases i with
  | zero =>
   obtain rfl : address = a := Option.some.inj ha
   rw [Nat.add_zero, here, Option.map_some, place, Nat.mod_eq_of_lt (by omega)]
  | succ i =>
   rw [ConfigObjects.addresses, List.getElem?_cons_succ, List.getElem?_append,
    addresses_length] at ha
   split_ifs at ha with inside
   · rw [show k + (i + 1) = k + 1 + i by omega]
     refine ihChild below ?_ (by omega) ha
     rw [Nat.add_right_comm]
     exact placedChild
   · rw [show k + (i + 1) = k + 1 + child.nodeCount + (i - child.nodeCount) by omega]
     refine ihNext behind ?_ (by omega) ha
     rw [Nat.add_right_comm, Nat.add_right_comm offset]
     exact placedNext

theorem nodeHeader_pos (align : Bool) (name : Text) (subSize : ℕ) :
 0 < (nodeHeader align name subSize).length := by
 have one := opSize_pos align
 rw [nodeHeader_length]
 omega

theorem Placed.bounds {pos a : ℕ} {objects : ConfigObjects} (h : objects.Placed align hash pos)
 (ha : a ∈ objects.addresses) : pos ≤ hash a ∧ hash a < pos + objects.size align := by
 induction objects generalizing pos with
 | nil => cases ha
 | term name value next ih =>
  have size := ConfigObjects.size_term align hash name value next
  have within := ih h ha
  rw [List.length_append, TermValue.code_length] at size
  omega
 | node address name type child next ihChild ihNext =>
  have size := ConfigObjects.size_node align address name type child next
  have header := nodeHeader_pos align name 0
  obtain ⟨place, below, behind⟩ := h
  rw [ConfigObjects.addresses, List.mem_cons, List.mem_append] at ha
  rcases ha with rfl | inside | beyond
  · omega
  · have within := ihChild below inside
    omega
  · have within := ihNext behind beyond
    omega

theorem Placed.nodup {pos : ℕ} {objects : ConfigObjects} (h : objects.Placed align hash pos) :
 (objects.addresses.map hash).Nodup := by
 induction objects generalizing pos with
 | nil => exact List.nodup_nil
 | term name value next ih => exact ih h
 | node address name type child next ihChild ihNext =>
  have header := nodeHeader_pos align name 0
  obtain ⟨place, below, behind⟩ := h
  rw [ConfigObjects.addresses, List.map_cons, List.map_append, List.nodup_cons, List.mem_append,
   List.nodup_append]
  refine ⟨?_, ihChild below, ihNext behind, ?_⟩
  · rintro (inside | beyond)
    · obtain ⟨a, ha, same⟩ := List.mem_map.mp inside
      have within := Placed.bounds below ha
      omega
    · obtain ⟨a, ha, same⟩ := List.mem_map.mp beyond
      have within := Placed.bounds behind ha
      omega
  · intro x hx y hy
    obtain ⟨a, ha, rfl⟩ := List.mem_map.mp hx
    obtain ⟨b, hb, rfl⟩ := List.mem_map.mp hy
    have first := Placed.bounds below ha
    have second := Placed.bounds behind hb
    omega

end

end DriversFramework.Hcs
