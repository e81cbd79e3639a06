import DriversFramework.HcsTree

/-! `HcsCheckBlobFormat` sets `g_byteAlign` from the sign of the total size before it compares
the length, and every read of a tree that was built before goes by `g_byteAlign`. -/
namespace DriversFramework.Hcs

open ByteCodec

def hcsMatchAttr : List UInt8 := [0x6D, 0x61, 0x74, 0x63, 0x68, 0x5F, 0x61, 0x74, 0x74, 0x72]

def getAttrValueInNode (align : Bool) (blob : List UInt8) (node : DeviceResourceNode)
  (attrValue : List UInt8) : Option DeviceResourceAttr :=
 node.attrData.find? fun attr =>
  stringEq blob (attr.value + hcsPrefixLength align) attrValue && stringEq blob attr.name hcsMatchAttr

/-- The first node from `cur` on, in the order of the walk, with a match attribute of the value. -/
def findMatch (align : Bool) (blob : List UInt8) (nodes : List DeviceResourceNode)
  (attrValue : List UInt8) : (rounds : ℕ) → Option ℕ → Option ℕ
 | 0, _ => none
 | _, none => none
 | rounds + 1, some i =>
  if (nodes[i]?).any fun n => (getAttrValueInNode align blob n attrValue).isSome then some i
  else findMatch align blob nodes attrValue rounds (nextNode nodes i)

def hcsGetNodeByMatchAttr (align : Bool) (blob : List UInt8) (tree : CfgTree) (node : Option ℕ)
  (attrValue : List UInt8) : Option ℕ :=
 findMatch align blob tree.nodes attrValue tree.nodes.length (some (node.getD tree.root))

def hcsGetChildNode (blob : List UInt8) (tree : CfgTree) (node : DeviceResourceNode)
  (nodeName : List UInt8) : Option ℕ :=
 node.child.find? fun c => (tree.nodes[c]?).any fun n => stringEq blob n.name nodeName

inductive UintType where
 | uint8 | uint16 | uint32 | uint64
 deriving DecidableEq

/-- The functions of `struct DeviceResourceIface`, with their arguments. -/
inductive Query where
 | getBool (node : ℕ) (attrName : List UInt8)
 | getUint (type : UintType) (node : ℕ) (attrName : List UInt8)
 | getUintArrayElem (type : UintType) (node : ℕ) (attrName : List UInt8) (index : ℕ)
 | getUintArray (type : UintType) (node : ℕ) (attrName : List UInt8) (len : ℕ)
 | getString (node : ℕ) (attrName : List UInt8)
 | getStringArrayElem (node : ℕ) (attrName : List UInt8) (index : ℕ)
 | getElemNum (node : ℕ) (attrName : List UInt8)
 | getNodeByMatchAttr (node : Option ℕ) (attrValue : List UInt8)
 | getChildNode (node : ℕ) (nodeName : List UInt8)
 | getNodeByRefAttr (node : ℕ) (attrName : List UInt8)
 deriving DecidableEq

inductive Reply where
 | number (value : ℕ)
 | numbers (values : List ℕ)
 | text (start : ℕ)
 | node (found : Option ℕ)
 deriving DecidableEq

def nodeAt (tree : CfgTree) (node : ℕ) : HcsRead DeviceResourceNode :=
 match tree.nodes[node]? with
 | none => throw .failure
 | some n => return n

def getUintOf (align : Bool) (blob : List UInt8) (node : DeviceResourceNode)
  (attrName : List UInt8) : UintType → HcsRead ℕ
 | .uint8 => (hcsGetUint8 align blob node attrName).map UInt8.toNat
 | .uint16 => (hcsGetUint16 align blob node attrName).map UInt16.toNat
 | .uint32 => (hcsGetUint32 align blob node attrName).map UInt32.toNat
 | .uint64 => (hcsGetUint64 align blob node attrName).map UInt64.toNat

def getUintArrayElemOf (align : Bool) (blob : List UInt8) (node : DeviceResourceNode)
  (attrName : List UInt8) (index : ℕ) : UintType → HcsRead ℕ
 | .uint8 => (hcsGetUint8ArrayElem align blob node attrName index).map UInt8.toNat
 | .uint16 => (hcsGetUint16ArrayElem align blob node attrName index).map UInt16.toNat
 | .uint32 => (hcsGetUint32ArrayElem align blob node attrName index).map UInt32.toNat
 | .uint64 => (hcsGetUint64ArrayElem align blob node attrName index).map UInt64.toNat

def getUintArrayOf (align : Bool) (blob : List UInt8) (node : DeviceResourceNode)
  (attrName : List UInt8) (len : ℕ) : UintType → HcsRead (List ℕ)
 | .uint8 => (hcsGetUint8Array align blob node attrName len).map (List.map UInt8.toNat)
 | .uint16 => (hcsGetUint16Array align blob node attrName len).map (List.map UInt16.toNat)
 | .uint32 => (hcsGetUint32Array align blob node attrName len).map (List.map UInt32.toNat)
 | .uint64 => (hcsGetUint64Array align blob node attrName len).map (List.map UInt64.toNat)

/-- The answer of a tree when `g_byteAlign` is `gByteAlign`. -/
def Query.answer (gByteAlign : Bool) (blob : List UInt8) (tree : CfgTree) : Query → HcsRead Reply
 | getBool node attrName => do
  let n ← nodeAt tree node
  let value ← hcsGetBool gByteAlign blob n attrName
  return .number value.toNat
 | getUint type node attrName => do
  let n ← nodeAt tree node
  let value ← getUintOf gByteAlign blob n attrName type
  return .number value
 | getUintArrayElem type node attrName index => do
  let n ← nodeAt tree node
  let value ← getUintArrayElemOf gByteAlign blob n attrName index type
  return .number value
 | getUintArray type node attrName len => do
  let n ← nodeAt tree node
  let values ← getUintArrayOf gByteAlign blob n attrName len type
  return .numbers values
 | getString node attrName => do
  let n ← nodeAt tree node
  let start ← hcsGetString gByteAlign blob n attrName
  return .text start
 | getStringArrayElem node attrName index => do
  let n ← nodeAt tree node
  let start ← hcsGetStringArrayElem gByteAlign blob n attrName index
  return .text start
 | getElemNum node attrName => do
  let n ← nodeAt tree node
  let num ← hcsGetElemNum gByteAlign blob n attrName
  return .number num
 | getNodeByMatchAttr node attrValue =>
  return .node (hcsGetNodeByMatchAttr gByteAlign blob tree node attrValue)
 | getChildNode node nodeName => do
  let n ← nodeAt tree node
  return .node (hcsGetChildNode blob tree n nodeName)
 | getNodeByRefAttr node attrName => do
  let n ← nodeAt tree node
  let found ← hcsGetNodeByRefAttr gByteAlign blob tree n attrName
  return .node found

def Decompiled (blob : List UInt8) (tree : CfgTree) : Prop :=
 ∃ gByteAlign align mem, hcsCheckBlobFormat gByteAlign blob = (true, align) ∧
  hcsDecompile align blob hbcHeaderLength mem = .ok tree

/-- The check of `newBlob` changes no answer of an older tree. -/
def KeepsOlderTrees (gByteAlign : Bool) (newBlob : List UInt8) : Prop :=
 ∀ blob tree, Decompiled blob tree → ∀ query : Query,
  query.answer (hcsCheckBlobFormat gByteAlign newBlob).2 blob tree =
   query.answer gByteAlign blob tree

/-- The check stops before the total size, or the sign of the total size says what
`g_byteAlign` says already. -/
def KeepsAlign (gByteAlign : Bool) (newBlob : List UInt8) : Prop :=
 newBlob.length < hbcHeaderLength ∨ hbcBlobMaxLength < newBlob.length ∨
  (hbcHeader newBlob).magicNumber ≠ hbcMagicNumber ∨
  (gByteAlign = true ↔ (hbcHeader newBlob).totalSize < 0)

theorem keepsAlign_iff (gByteAlign : Bool) (newBlob : List UInt8) :
  KeepsAlign gByteAlign newBlob ↔ (hcsCheckBlobFormat gByteAlign newBlob).2 = gByteAlign := by
 unfold hcsCheckBlobFormat KeepsAlign
 dsimp only
 split
 · next hlength => exact iff_of_true (by rcases hlength with h | h <;> simp [h]) rfl
 · next hlength =>
   obtain ⟨low, high⟩ := not_or.mp hlength
   split
   · next hmagic => exact iff_of_true (.inr (.inr (.inl hmagic))) rfl
   · next hmagic =>
     have sign : (checkHcsBlobLength gByteAlign newBlob.length (hbcHeader newBlob)).2 =
       !decide ((hbcHeader newBlob).totalSize ≥ 0) := rfl
     rw [sign]
     by_cases hsize : (hbcHeader newBlob).totalSize < 0
     · rw [decide_eq_false (not_le.mpr hsize)]
       cases gByteAlign <;> simp [low, hmagic, hsize, not_lt.mp high]
     · rw [decide_eq_true (not_lt.mp hsize)]
       cases gByteAlign <;> simp [low, hmagic, hsize, not_lt.mp high]

/-- `root { x = 1; y = 2; }`, with the header that the generator writes. -/
def showsAlign : Bool → List UInt8
 | false =>
  leBytes 4 hbcMagicNumber ++ List.replicate 12 0 ++ leBytes 4 20 ++
   [1, 0x72, 0x6F, 0x6F, 0x74, 0, 10, 0, 0, 0] ++
   [2, 0x78, 0, 0x10, 1] ++ [2, 0x79, 0, 0x10, 2]
 | true =>
  leBytes 4 hbcMagicNumber ++ List.replicate 12 0 ++ leBytes 4 (2 ^ 32 - 48) ++
   [1, 0, 0, 0, 0x72, 0x6F, 0x6F, 0x74, 0, 0, 0, 0, 32, 0, 0, 0] ++
   [2, 0, 0, 0, 0x78, 0, 0, 0, 0x10, 0, 0, 0, 1, 0, 0, 0] ++
   [2, 0, 0, 0, 0x79, 0, 0, 0, 0x10, 0, 0, 0, 2, 0, 0, 0]

theorem showsAlign_decompiled (align : Bool) :
  ∃ tree, Decompiled (showsAlign align) tree ∧
   (Query.getUint .uint8 0 [0x78]).answer (!align) (showsAlign align) tree ≠
    (Query.getUint .uint8 0 [0x78]).answer align (showsAlign align) tree := by
 have check : hcsCheckBlobFormat align (showsAlign align) = (true, align) := by
  cases align <;> decide +kernel
 have shown : (hcsDecompile align (showsAlign align) hbcHeaderLength ⟨true, true, true⟩).toOption.any
   (fun tree => decide ((Query.getUint .uint8 0 [0x78]).answer (!align) (showsAlign align) tree ≠
    (Query.getUint .uint8 0 [0x78]).answer align (showsAlign align) tree)) = true := by
  cases align <;> decide +kernel
 cases built : hcsDecompile align (showsAlign align) hbcHeaderLength ⟨true, true, true⟩ with
 | error e =>
  rw [built] at shown
  cases shown
 | ok tree =>
  rw [built] at shown
  exact ⟨tree, ⟨align, align, _, check, built⟩, of_decide_eq_true shown⟩

/-- The check of a blob leaves all older trees as they were exactly if it leaves
`g_byteAlign` alone, whether it accepts the blob or not. -/
theorem keepsOlderTrees_iff (gByteAlign : Bool) (newBlob : List UInt8) :
    KeepsOlderTrees gByteAlign newBlob ↔ KeepsAlign gByteAlign newBlob := by
  rw [keepsAlign_iff]
  constructor
  · intro keeps
    by_contra changed
    obtain ⟨tree, decompiled, differs⟩ := showsAlign_decompiled gByteAlign
    refine differs ?_
    rw [← keeps _ tree decompiled, ← Bool.eq_not_of_ne changed]
  · intro same blob tree _ query
    rw [same]

def negativeHeader : List UInt8 :=
 leBytes 4 hbcMagicNumber ++ List.replicate 12 0 ++ leBytes 4 (2 ^ 32 - 1)

theorem rejected_changes_older_tree : ¬ ∀ (gByteAlign : Bool) (newBlob : List UInt8),
    (hcsCheckBlobFormat gByteAlign newBlob).1 = false → KeepsOlderTrees gByteAlign newBlob := by
  intro hall
  have check : hcsCheckBlobFormat false negativeHeader = (false, true) := by decide +kernel
  obtain ⟨tree, decompiled, differs⟩ := showsAlign_decompiled false
  have keeps := hall false negativeHeader (by rw [check]) _ tree decompiled
    (.getUint .uint8 0 [0x78])
  rw [check] at keeps
  exact differs keeps

end DriversFramework.Hcs
