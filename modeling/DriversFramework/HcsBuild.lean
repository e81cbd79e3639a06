import DriversFramework.HcsCode

namespace DriversFramework.Hcs

open ByteCodec HcGen

section
variable {align : Bool} {blob : List UInt8} {treeStart length : ℕ} {hash : ℕ → ℕ}

theorem parseByteCode_term {offset : ℕ} {name : Text} {value : TermValue} (pass : TreePass)
 (h : Holds blob (treeStart + offset) (termHeader align name ++ value.code align hash))
 (hvalue : value.Counted) :
 parseByteCode align blob treeStart offset pass =
  (parseAttr align blob treeStart offset
   (termHeader align name ++ value.code align hash).length pass).map
   fun pass => ((termHeader align name ++ value.code align hash).length, pass) := by
 rw [parseByteCode, termLength_of_holds h hvalue]
 change (do
  let type ← hcsGetPrefix align blob (treeStart + offset)
  _ : HcsRead (ℕ × TreePass)) = _
 rw [prefix_of_holds (Holds.left h.left)]
 rfl

theorem parseByteCode_node {offset : ℕ} {name : Text} {subSize : ℕ} (pass : TreePass)
 (h : Holds blob (treeStart + offset) (nodeHeader align name subSize)) :
 parseByteCode align blob treeStart offset pass =
  (parseNode align blob treeStart offset (nodeHeader align name subSize).length pass).map
   fun pass => ((nodeHeader align name subSize).length, pass) := by
 rw [parseByteCode, nodeLength_of_holds h]
 change (do
  let type ← hcsGetPrefix align blob (treeStart + offset)
  _ : HcsRead (ℕ × TreePass)) = _
 rw [prefix_of_holds (Holds.left h)]
 rfl

theorem generateLoop_step {rounds offset each : ℕ} {pass pass' : TreePass}
 (hoffset : offset < length)
 (h : parseByteCode align blob treeStart offset pass = .ok (each, pass')) :
 generateLoop align blob treeStart length (rounds + 1) offset pass =
  generateLoop align blob treeStart length rounds (offset + each) pass' := by
 rw [generateLoop, if_pos hoffset, h]
 rfl

theorem generateLoop_done (rounds : ℕ) (pass : TreePass) :
 generateLoop align blob treeStart length rounds length pass = .ok pass := by
 cases rounds with
 | zero => rfl
 | succ rounds => rw [generateLoop, if_neg (lt_irrefl length)]; rfl

def treeMemory (objects : ConfigObjects) : ℕ :=
 sizeofNode * objects.nodeCount + sizeofAttr * objects.termCount

theorem generateLoop_measure (objects : ConfigObjects) (rounds offset memLen : ℕ)
 (h : Holds blob (treeStart + offset) (objects.code align hash)) (hcounted : objects.Counted)
 (hend : offset + objects.size align ≤ length) :
 generateLoop align blob treeStart length
  (rounds + (objects.nodeCount + objects.termCount)) offset (.measure memLen) =
  generateLoop align blob treeStart length rounds (offset + objects.size align)
   (.measure (memLen + treeMemory objects)) := by
 have one := opSize_pos align
 induction objects generalizing rounds offset memLen with
 | nil => rfl
 | term name value next ih =>
  have size := ConfigObjects.size_term align hash name value next
  have header := termHeader_length align name
  rw [size] at hend
  have here := parseByteCode_term (.measure memLen) h.left hcounted.1
  have behind := h.right
  rw [Nat.add_assoc] at behind
  have rest := ih rounds _ (memLen + sizeofAttr) behind hcounted.2 (by omega)
  rw [ConfigObjects.nodeCount, ConfigObjects.termCount,
   show rounds + (next.nodeCount + (1 + next.termCount)) =
    rounds + (next.nodeCount + next.termCount) + 1 by omega,
   generateLoop_step (by rw [List.length_append] at hend; omega) here, rest, size,
   Nat.add_assoc offset]
  congr 2
  simp only [treeMemory, ConfigObjects.nodeCount, ConfigObjects.termCount, Nat.mul_add]
  omega
 | node address name type child next ihChild ihNext =>
  have size := ConfigObjects.size_node align address name type child next
  have header := nodeHeader_length align name (child.size align)
  have same := nodeHeader_length_eq align name (child.size align)
  rw [size] at hend
  have here := parseByteCode_node (.measure memLen) h.left
  have below := h.right.left
  have behind := h.right.right
  rw [Nat.add_assoc] at below
  rw [ConfigObjects.code_length, Nat.add_assoc treeStart, Nat.add_assoc treeStart] at behind
  have first := ihChild (rounds + (next.nodeCount + next.termCount)) _ (memLen + sizeofNode)
   below hcounted.1 (by omega)
  have second := ihNext rounds _ (memLen + sizeofNode + treeMemory child) behind hcounted.2
   (by omega)
  rw [ConfigObjects.nodeCount, ConfigObjects.termCount,
   show rounds + (1 + child.nodeCount + next.nodeCount + (child.termCount + next.termCount)) =
    rounds + (next.nodeCount + next.termCount) + (child.nodeCount + child.termCount) + 1 by
     omega,
   generateLoop_step (by omega) here, first, second, size, same, Nat.add_assoc offset,
   Nat.add_assoc offset]
  congr 2
  simp only [treeMemory, ConfigObjects.nodeCount, ConfigObjects.termCount, Nat.mul_add]
  omega

/-- The tree memory after the terms and nodes of a child list have been added to the
node `p`, whose first object is at `offset`. -/
def addObjects (align : Bool) (treeStart : ℕ) :
  (p offset : ℕ) → ConfigObjects → List DeviceResourceNode → List DeviceResourceNode
 | _, _, .nil, nodes => nodes
 | p, offset, .term name value next, nodes =>
  addObjects align treeStart p
   (offset + (termHeader align name).length + value.size align) next
   (nodes.modify p fun n => { n with
    attrData := ⟨treeStart + offset + hcsPrefixLength align,
     treeStart + offset + (termHeader align name).length⟩ :: n.attrData })
 | p, offset, .node _ name _ child next, nodes =>
  let below := offset + (nodeHeader align name 0).length
  addObjects align treeStart p (below + child.size align) next
   (addObjects align treeStart nodes.length below child
    (createTreeNode align treeStart offset (some p) nodes))

theorem getParentNode_behind {bound p e : ℕ} {junk rest : List TreeStack}
 (hjunk : ∀ entry ∈ junk, entry.offset < bound) (he : bound ≤ e) :
 getParentNode bound (junk ++ ⟨p, e⟩ :: rest) = some (p, ⟨p, e⟩ :: rest) := by
 induction junk with
 | nil => exact if_pos he
 | cons entry junk ih =>
  obtain ⟨first, others⟩ := List.forall_mem_cons.mp hjunk
  rw [List.cons_append, getParentNode, if_neg (not_le.mpr first)]
  exact ih others

theorem parseAttr_build {offset termOffset p : ℕ} {name : Text} {tree : TreeGen}
 {below : List TreeStack}
 (hparent : getParentNode ((termOffset + offset) % 2 ^ 32) tree.stack = some (p, below))
 (h : Holds blob (treeStart + offset) (termHeader align name)) :
 parseAttr align blob treeStart offset termOffset (.build tree) =
  .ok (.build ⟨tree.nodes.modify p fun n => { n with
   attrData := ⟨treeStart + offset + hcsPrefixLength align,
    treeStart + offset + (termHeader align name).length⟩ :: n.attrData }, below⟩) := by
 have text := Holds.right h
 rw [opCode_length, ← hcsPrefixLength_eq] at text
 rw [parseAttr, hparent]
 change (do
  let nodes ← addAttrInNode align blob (treeStart + offset) p tree.nodes
  return TreePass.build ⟨nodes, below⟩ : HcsRead TreePass) = _
 rw [addAttrInNode, stringLength_of_holds text, termHeader, List.length_append, opCode_length,
  ← hcsPrefixLength_eq, ← Nat.add_assoc (treeStart + offset)]
 rfl

theorem parseNode_build {offset termOffset subSize : ℕ} {name : Text} {tree : TreeGen}
 {parent : Option ℕ} {below : List TreeStack}
 (hparent : parentLayer ((termOffset + offset) % 2 ^ 32) tree.stack = (parent, below))
 (hlayers : below.length < treeStackMax - 1) (hsub : subSize < 2 ^ 32)
 (h : Holds blob (treeStart + offset) (nodeHeader align name subSize)) :
 parseNode align blob treeStart offset termOffset (.build tree) =
  .ok (.build ⟨createTreeNode align treeStart offset parent tree.nodes,
   ⟨tree.nodes.length, (subSize + offset + termOffset) % 2 ^ 32⟩ :: below⟩) := by
 have text := (Holds.right h).left
 rw [opCode_length, ← hcsPrefixLength_eq] at text
 rw [parseNode, hparent]
 dsimp only
 rw [stringLength_of_holds text]
 change (do
  let subSize ← hcsByteCodeToUint32 blob
   (treeStart + offset + hcsPrefixLength align + (textCode align name).length)
  _ : HcsRead TreePass) = _
 rw [subSize_of_holds hsub h]
 exact if_neg (not_le.mpr hlayers)

theorem generateLoop_build (objects : ConfigObjects) (rounds offset p e : ℕ)
 (nodes : List DeviceResourceNode) (junk rest : List TreeStack)
 (h : Holds blob (treeStart + offset) (objects.code align hash)) (hcounted : objects.Counted)
 (hend : offset + objects.size align ≤ e) (he : e ≤ length) (hlength : length < 2 ^ 31)
 (hjunk : ∀ entry ∈ junk, entry.offset ≤ offset)
 (hlayers : rest.length + 1 + objects.layers ≤ treeStackMax - 1) :
 ∃ junk' : List TreeStack, (∀ entry ∈ junk', entry.offset ≤ offset + objects.size align) ∧
  generateLoop align blob treeStart length (rounds + (objects.nodeCount + objects.termCount))
   offset (.build ⟨nodes, junk ++ ⟨p, e⟩ :: rest⟩) =
   generateLoop align blob treeStart length rounds (offset + objects.size align)
    (.build ⟨addObjects align treeStart p offset objects nodes, junk' ++ ⟨p, e⟩ :: rest⟩) := by
 have one := opSize_pos align
 induction objects generalizing rounds offset p e nodes junk rest with
 | nil => exact ⟨junk, hjunk, rfl⟩
 | term name value next ih =>
  have size := ConfigObjects.size_term align hash name value next
  have header := termHeader_length align name
  rw [size] at hend ⊢
  have total : (termHeader align name ++ value.code align hash).length =
   (termHeader align name).length + value.size align := by
   rw [List.length_append, TermValue.code_length]
  have behind := h.right
  rw [Nat.add_assoc] at behind
  have bound : ((termHeader align name ++ value.code align hash).length + offset) % 2 ^ 32 =
   offset + (termHeader align name ++ value.code align hash).length := by
   rw [Nat.add_comm, Nat.mod_eq_of_lt (by omega)]
  have found := @getParentNode_behind
   (offset + (termHeader align name ++ value.code align hash).length) p e junk rest
   (fun entry hentry => by have := hjunk entry hentry; omega) (by omega)
  have here := parseByteCode_term (.build ⟨nodes, junk ++ ⟨p, e⟩ :: rest⟩) h.left hcounted.1
  rw [parseAttr_build (by rw [bound]; exact found) h.left.left] at here
  obtain ⟨junk', hjunk', rest'⟩ := ih rounds _ p e (nodes.modify p fun n => { n with
   attrData := ⟨treeStart + offset + hcsPrefixLength align,
    treeStart + offset + (termHeader align name).length⟩ :: n.attrData }) [] rest behind
   hcounted.2 (by omega) he (fun entry hentry => by cases hentry) hlayers
  refine ⟨junk', fun entry hentry => (hjunk' entry hentry).trans (by omega), ?_⟩
  rw [ConfigObjects.nodeCount, ConfigObjects.termCount,
   show rounds + (next.nodeCount + (1 + next.termCount)) =
    rounds + (next.nodeCount + next.termCount) + 1 by omega,
   generateLoop_step (by omega) here]
  refine rest'.trans ?_
  rw [addObjects, Nat.add_assoc offset, Nat.add_assoc offset, total]
 | node address name type child next ihChild ihNext =>
  have size := ConfigObjects.size_node align address name type child next
  have header := nodeHeader_length align name 0
  have same := nodeHeader_length_eq align name (child.size align)
  rw [size] at hend ⊢
  have below := h.right.left
  have behind := h.right.right
  rw [same, Nat.add_assoc] at below
  rw [ConfigObjects.code_length, same, Nat.add_assoc treeStart, Nat.add_assoc treeStart] at behind
  have layers : rest.length + 2 + child.layers ≤ treeStackMax - 1 ∧
   rest.length + 1 + next.layers ≤ treeStackMax - 1 := by
   simp only [ConfigObjects.layers] at hlayers
   omega
  have found := @getParentNode_behind (offset + (nodeHeader align name 0).length) p e junk rest
   (fun entry hentry => by have := hjunk entry hentry; omega) (by omega)
  have bound : ((nodeHeader align name (child.size align)).length + offset) % 2 ^ 32 =
   offset + (nodeHeader align name 0).length := by
   rw [same, Nat.add_comm, Nat.mod_eq_of_lt (by omega)]
  have layer : parentLayer (((nodeHeader align name (child.size align)).length + offset) % 2 ^ 32)
   (junk ++ ⟨p, e⟩ :: rest) = (some p, ⟨p, e⟩ :: rest) := by
   rw [parentLayer, bound, found]
  have childEnd : (child.size align + offset + (nodeHeader align name (child.size align)).length) %
   2 ^ 32 = offset + (nodeHeader align name 0).length + child.size align := by
   rw [same, Nat.mod_eq_of_lt (by omega)]
   omega
  have here := parseByteCode_node (.build ⟨nodes, junk ++ ⟨p, e⟩ :: rest⟩) h.left
  rw [parseNode_build layer (by rw [List.length_cons]; omega) (by omega) h.left, childEnd] at here
  obtain ⟨junkChild, hjunkChild, first⟩ := ihChild (rounds + (next.nodeCount + next.termCount))
   (offset + (nodeHeader align name 0).length) nodes.length
   (offset + (nodeHeader align name 0).length + child.size align)
   (createTreeNode align treeStart offset (some p) nodes) [] (⟨p, e⟩ :: rest) below hcounted.1
   le_rfl (by omega) (fun entry hentry => by cases hentry)
   (by rw [List.length_cons]; omega)
  obtain ⟨junkNext, hjunkNext, second⟩ := ihNext rounds
   (offset + (nodeHeader align name 0).length + child.size align) p e
   (addObjects align treeStart nodes.length (offset + (nodeHeader align name 0).length) child
    (createTreeNode align treeStart offset (some p) nodes))
   (junkChild ++ [⟨nodes.length, offset + (nodeHeader align name 0).length + child.size align⟩])
   rest behind hcounted.2 (by omega) he
   (fun entry hentry => by
    rcases List.mem_append.mp hentry with old | new
    · exact hjunkChild entry old
    · rw [List.mem_singleton.mp new])
   (by omega)
  refine ⟨junkNext, fun entry hentry => (hjunkNext entry hentry).trans (by omega), ?_⟩
  rw [ConfigObjects.nodeCount, ConfigObjects.termCount,
   show rounds + (1 + child.nodeCount + next.nodeCount + (child.termCount + next.termCount)) =
    rounds + (next.nodeCount + next.termCount) + (child.nodeCount + child.termCount) + 1 by
     omega,
   generateLoop_step (by omega) here, same]
  refine first.trans ?_
  rw [List.append_assoc] at second
  refine second.trans ?_
  rw [addObjects, Nat.add_assoc offset, Nat.add_assoc offset]

end

end DriversFramework.Hcs
