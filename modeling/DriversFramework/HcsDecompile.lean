import DriversFramework.HcsShape

namespace DriversFramework.Hcs

open ByteCodec HcGen

/-- The three allocations succeed. -/
def allMemory : DecompileMem := ⟨true, true, true⟩

/-- The tree memory built for a root node whose code is at `treeStart`. -/
def builtNodes (align : Bool) (treeStart : ℕ) (name : Text) (child : ConfigObjects) :
  List DeviceResourceNode :=
 addObjects align treeStart 0 (nodeHeader align name 0).length child
  (createTreeNode align treeStart 0 none [])

section Decompile

variable {align : Bool} {blob : List UInt8} {treeStart address : ℕ} {hash : ℕ → ℕ} {name : Text}
 {child : ConfigObjects}

theorem rootCode (align : Bool) (hash : ℕ → ℕ) (address : ℕ) (name : Text) (child : ConfigObjects) :
 (ConfigObjects.node address name .noRef child .nil).code align hash =
  nodeHeader align name (child.size align) ++ child.code align hash := by
 rw [ConfigObjects.code, ConfigObjects.code, List.append_nil]

theorem rootLength_of_holds (h : Holds blob treeStart (nodeHeader align name (child.size align)))
 (hsize : (nodeHeader align name 0).length + child.size align < 2 ^ 31) :
 hcsGetNodeLength align blob treeStart =
  .ok (((nodeHeader align name 0).length + child.size align : ℕ) : ℤ) := by
 have text := (Holds.right h).left
 rw [opCode_length, ← hcsPrefixLength_eq] at text
 rw [hcsGetNodeLength, nodeLength_of_holds h, nodeHeader_length_eq]
 change (do
  let nameLen ← hcsStringLength align blob (treeStart + hcsPrefixLength align)
  let subSize ← hcsByteCodeToUint32 blob (treeStart + hcsPrefixLength align + nameLen)
  return int32OfUint32 ((nodeHeader align name 0).length + subSize) : HcsRead ℤ) = _
 rw [stringLength_of_holds text]
 change (do
  let subSize ← hcsByteCodeToUint32 blob
   (treeStart + hcsPrefixLength align + (textCode align name).length)
  return int32OfUint32 ((nodeHeader align name 0).length + subSize) : HcsRead ℤ) = _
 rw [subSize_of_holds (by omega) h]
 exact congrArg Except.ok (int32OfUint32_of_lt hsize)

theorem measurePass {total : ℕ} (rounds : ℕ)
 (header : Holds blob (treeStart + 0) (nodeHeader align name (child.size align)))
 (body : Holds blob (treeStart + (nodeHeader align name 0).length) (child.code align hash))
 (hcounted : child.Counted)
 (htotal : (nodeHeader align name 0).length + child.size align = total) :
 generateLoop align blob treeStart total (rounds + (child.nodeCount + child.termCount) + 1) 0
  (.measure 0) = .ok (.measure (sizeofNode + treeMemory child)) := by
 have headerPos := nodeHeader_pos align name 0
 have step := parseByteCode_node (.measure 0) header
 have rest := generateLoop_measure child rounds _ sizeofNode body hcounted htotal.le
 rw [htotal, generateLoop_done] at rest
 rw [generateLoop_step (by omega) step, nodeHeader_length_eq, Nat.zero_add]
 exact rest

theorem buildPass {total : ℕ} (rounds : ℕ)
 (header : Holds blob (treeStart + 0) (nodeHeader align name (child.size align)))
 (body : Holds blob (treeStart + (nodeHeader align name 0).length) (child.code align hash))
 (hcounted : child.Counted)
 (htotal : (nodeHeader align name 0).length + child.size align = total)
 (hlayers : child.layers + 1 ≤ treeStackMax - 1)
 (hsize : total < 2 ^ 31) :
 ∃ stack : List TreeStack, stack.getLast? = some ⟨0, total⟩ ∧
  generateLoop align blob treeStart total (rounds + (child.nodeCount + child.termCount) + 1) 0
   (.build ⟨[], []⟩) = .ok (.build ⟨builtNodes align treeStart name child, stack⟩) := by
 have headerPos := nodeHeader_pos align name 0
 have step := parseByteCode_node (.build ⟨[], []⟩) header
 have stackEnd : (child.size align + 0 + (nodeHeader align name (child.size align)).length) %
  2 ^ 32 = total := by
  rw [nodeHeader_length_eq, Nat.mod_eq_of_lt (by omega)]
  omega
 have first : parentLayer (((nodeHeader align name (child.size align)).length + 0) % 2 ^ 32) [] =
  (none, []) := rfl
 rw [parseNode_build first (by decide) (by omega) header, stackEnd] at step
 obtain ⟨junk, -, rest⟩ := generateLoop_build child rounds _ 0 total
  (createTreeNode align treeStart 0 none []) [] [] body hcounted htotal.le le_rfl hsize
  (fun entry hentry => by cases hentry) (by rw [List.length_nil]; omega)
 refine ⟨junk ++ [⟨0, total⟩], List.getLast?_concat, ?_⟩
 rw [htotal, generateLoop_done] at rest
 rw [generateLoop_step (by omega) step, nodeHeader_length_eq, Nat.zero_add]
 exact rest

theorem decompileTree_of_passes {length memLen : ℕ} {tree : TreeGen} {entry : TreeStack}
 (measured : generateLoop align blob treeStart length length 0 (.measure 0) =
  .ok (.measure memLen)) (hpos : 0 < memLen)
 (built : generateLoop align blob treeStart length length 0 (.build ⟨[], []⟩) =
  .ok (.build tree)) (last : tree.stack.getLast? = some entry) :
 decompileTree align blob treeStart length allMemory = .ok ⟨tree.nodes, entry.node⟩ := by
 have measure : generateCfgTree align blob treeStart length true (.measure 0) =
  .ok (.measure memLen) := measured
 have build : generateCfgTree align blob treeStart length true (.build ⟨[], []⟩) =
  .ok (.build tree) := built
 simp only [decompileTree, allMemory, measure, build, last, hpos.ne', bind, Except.bind, pure,
  Except.pure, if_false, Bool.not_true, Bool.false_eq_true]

theorem decompile_of_holds (h : Holds blob treeStart
  ((ConfigObjects.node address name .noRef child .nil).code align hash))
 (hcounted : child.Counted) (hlayers : child.layers + 1 ≤ treeStackMax - 1)
 (hsize : (nodeHeader align name 0).length + child.size align < 2 ^ 31) :
 hcsDecompile align blob treeStart allMemory =
  .ok ⟨builtNodes align treeStart name child, 0⟩ := by
 rw [rootCode] at h
 have header : Holds blob (treeStart + 0) (nodeHeader align name (child.size align)) := h.left
 have body := h.right
 rw [nodeHeader_length_eq] at body
 have objects : child.nodeCount + child.termCount ≤ child.size align :=
  child.count_le_size align
 have headerPos := nodeHeader_pos align name 0
 have len := rootLength_of_holds h.left hsize
 obtain ⟨total, htotal⟩ : ∃ total, (nodeHeader align name 0).length + child.size align = total :=
  ⟨_, rfl⟩
 obtain ⟨rounds, hrounds⟩ : ∃ rounds, total = rounds + (child.nodeCount + child.termCount) + 1 :=
  ⟨total - (child.nodeCount + child.termCount) - 1, by omega⟩
 rw [htotal] at len hsize
 have measured := measurePass rounds header body hcounted htotal
 obtain ⟨stack, last, built⟩ := buildPass rounds header body hcounted htotal hlayers hsize
 rw [← hrounds] at measured built
 have tree := decompileTree_of_passes measured (Nat.add_pos_left (by decide) _) built last
 have nonneg : ¬ (total : ℤ) < 0 := not_lt.mpr (Int.natCast_nonneg total)
 simp only [hcsDecompile, len, bind, Except.bind, if_neg nonneg, Int.toNat_natCast, tree]

end Decompile

end DriversFramework.Hcs
