import DriversFramework.HcsBlob

/-! `hcs_generate_tree.c`, `hcs_parser.c` and the getters of `hcs_tree_if.c`. A node
of the tree is its index in the tree memory, in the order of creation, and a
string or a value is its offset in the blob. -/
namespace DriversFramework.Hcs

open ByteCodec

def treeStackMax : ℕ := 64

structure DeviceResourceAttr where
 name : ℕ
 value : ℕ
 deriving DecidableEq

/-- `attrData` is the list that the attribute pointers link, `child` the list from
the first child through the sibling pointers. -/
structure DeviceResourceNode where
 name : ℕ
 hashValue : ℕ
 attrData : List DeviceResourceAttr
 parent : Option ℕ
 child : List ℕ
 deriving DecidableEq

structure TreeStack where
 node : ℕ
 offset : ℕ
 deriving DecidableEq

/-- The tree memory and the entries of `treeStack` from layer `treeLayer` down to
layer one. -/
structure TreeGen where
 nodes : List DeviceResourceNode
 stack : List TreeStack
 deriving DecidableEq

/-- `sizeof(struct DeviceResourceNode)` and `sizeof(struct DeviceResourceAttr)`. -/
def sizeofNode : ℕ := 48

def sizeofAttr : ℕ := 24

/-- The entry of the nearest layer that reaches to `bound`, with the layers below it. -/
def getParentNode (bound : ℕ) : List TreeStack → Option (ℕ × List TreeStack)
 | [] => none
 | entry :: below =>
  if entry.offset ≥ bound then some (entry.node, entry :: below)
  else getParentNode bound below

def parentLayer (bound : ℕ) (stack : List TreeStack) : Option ℕ × List TreeStack :=
 match getParentNode bound stack with
 | none => (none, stack)
 | some (parent, below) => (some parent, below)

def createTreeNode (align : Bool) (treeStart offset : ℕ) (parentNode : Option ℕ)
  (nodes : List DeviceResourceNode) : List DeviceResourceNode :=
 let newNode : DeviceResourceNode :=
  ⟨treeStart + offset + hcsPrefixLength align, (offset + hbcHeaderLength) % 2 ^ 32, [],
   parentNode, []⟩
 match parentNode with
 | none => nodes ++ [newNode]
 | some parent =>
  nodes.modify parent (fun n => { n with child := n.child ++ [nodes.length] }) ++ [newNode]

def addAttrInNode (align : Bool) (blob : List UInt8) (start parentNode : ℕ)
  (nodes : List DeviceResourceNode) : HcsRead (List DeviceResourceNode) := do
 let name := start + hcsPrefixLength align
 let nameLen ← hcsStringLength align blob name
 return nodes.modify parentNode fun n => { n with attrData := ⟨name, name + nameLen⟩ :: n.attrData }

inductive TreePass where
 | measure (memLen : ℕ)
 | build (tree : TreeGen)
 deriving DecidableEq

def parseNode (align : Bool) (blob : List UInt8) (treeStart offset termOffset : ℕ) :
  TreePass → HcsRead TreePass
 | .measure memLen => return .measure (memLen + sizeofNode)
 | .build tree => do
  let (parent, below) := parentLayer ((termOffset + offset) % 2 ^ 32) tree.stack
  let nodes := createTreeNode align treeStart offset parent tree.nodes
  let name := treeStart + offset + hcsPrefixLength align
  let nameLen ← hcsStringLength align blob name
  let subSize ← hcsByteCodeToUint32 blob (name + nameLen)
  if below.length ≥ treeStackMax - 1 then throw .failure
  else
   return .build ⟨nodes,
    ⟨tree.nodes.length, (subSize + offset + termOffset) % 2 ^ 32⟩ :: below⟩

def parseAttr (align : Bool) (blob : List UInt8) (treeStart offset termOffset : ℕ) :
  TreePass → HcsRead TreePass
 | .measure memLen => return .measure (memLen + sizeofAttr)
 | .build tree =>
  match getParentNode ((termOffset + offset) % 2 ^ 32) tree.stack with
  | none => throw .failure
  | some (parent, below) => do
   let nodes ← addAttrInNode align blob (treeStart + offset) parent tree.nodes
   return .build ⟨nodes, below⟩

def parseByteCode (align : Bool) (blob : List UInt8) (treeStart offset : ℕ) (pass : TreePass) :
  HcsRead (ℕ × TreePass) := do
 let termOffset ← hcsGetNodeOrAttrLength align blob (treeStart + offset)
 let type ← hcsGetPrefix align blob (treeStart + offset)
 if type = configNode then
  let pass ← parseNode align blob treeStart offset termOffset pass
  return (termOffset, pass)
 else if type = configAttr then
  let pass ← parseAttr align blob treeStart offset termOffset pass
  return (termOffset, pass)
 else throw .failure

/-- The loop of `GenerateCfgTree`. A token has at least one byte, so `length` rounds
are enough. -/
def generateLoop (align : Bool) (blob : List UInt8) (treeStart length : ℕ) :
  (rounds offset : ℕ) → TreePass → HcsRead TreePass
 | 0, _, pass => return pass
 | rounds + 1, offset, pass =>
  if offset < length then do
   let (eachOffset, pass) ← parseByteCode align blob treeStart offset pass
   generateLoop align blob treeStart length rounds (offset + eachOffset) pass
  else return pass

def generateCfgTree (align : Bool) (blob : List UInt8) (treeStart length : ℕ)
  (mem : Bool) (pass : TreePass) : HcsRead TreePass :=
 if !mem then throw .failure
 else generateLoop align blob treeStart length length 0 pass

structure CfgTree where
 nodes : List DeviceResourceNode
 root : ℕ
 deriving DecidableEq

structure DecompileMem where
 sizeStack : Bool
 treeMem : Bool
 treeStack : Bool

def decompileTree (align : Bool) (blob : List UInt8) (offset nodeLength : ℕ)
  (mem : DecompileMem) : HcsRead CfgTree := do
 match ← generateCfgTree align blob offset nodeLength mem.sizeStack (.measure 0) with
 | .build _ => throw .failure
 | .measure treeMemLength =>
  if treeMemLength = 0 then throw .failure
  else if !mem.treeMem then throw .failure
  else
   match ← generateCfgTree align blob offset nodeLength mem.treeStack (.build ⟨[], []⟩) with
   | .measure _ => throw .failure
   | .build tree =>
    match tree.stack.getLast? with
    | none => throw .failure
    | some entry => return ⟨tree.nodes, entry.node⟩

/-- Both passes over the node at `offset`; a failure stands for the return value
false. -/
def hcsDecompile (align : Bool) (blob : List UInt8) (offset : ℕ) (mem : DecompileMem) :
  HcsRead CfgTree := do
 let nodeLength ← hcsGetNodeLength align blob offset
 if nodeLength < 0 then throw .failure
 else decompileTree align blob offset nodeLength.toNat mem

def stringEq (blob : List UInt8) (str : ℕ) (text : List UInt8) : Bool :=
 cString (blob.drop str) == text

def getAttrInNode (blob : List UInt8) (node : DeviceResourceNode) (attrName : List UInt8) :
  Option DeviceResourceAttr :=
 node.attrData.find? fun attr => stringEq blob attr.name attrName

def getTyped {α : Type} (swap : Bool → List UInt8 → ℕ → ℕ → HcsRead (Option α)) (align : Bool)
  (blob : List UInt8) (value : ℕ) : HcsRead α := do
 let type ← hcsGetPrefix align blob value
 match ← swap align blob (value + hcsPrefixLength align) type with
 | none => throw .failure
 | some v => return v

def getScalar {α : Type} (swap : Bool → List UInt8 → ℕ → ℕ → HcsRead (Option α)) (align : Bool)
  (blob : List UInt8) (node : DeviceResourceNode) (attrName : List UInt8) : HcsRead α :=
 match getAttrInNode blob node attrName with
 | none => throw .failure
 | some attr => getTyped swap align blob attr.value

def hcsGetUint8 := getScalar hcsSwapToUint8

def hcsGetUint16 := getScalar hcsSwapToUint16

def hcsGetUint32 := getScalar hcsSwapToUint32

def hcsGetUint64 := getScalar hcsSwapToUint64

def hcsGetBool (align : Bool) (blob : List UInt8) (node : DeviceResourceNode)
  (attrName : List UInt8) : HcsRead Bool :=
 (hcsGetUint8 align blob node attrName).map fun v => decide (v ≠ 0)

def getArrayElem (align : Bool) (blob : List UInt8) (attr : DeviceResourceAttr) (index : ℕ) :
  HcsRead ℕ := do
 let type ← hcsGetPrefix align blob attr.value
 if type ≠ configArray then throw .failure
 else
  let count ← hcsArrayCount align blob attr.value
  if index ≥ count then throw .failure
  else
   let offset ← hcsSkipElements align blob attr.value index
    (hcsWordLength align + hcsPrefixLength align)
   return attr.value + offset

def getArrayScalar {α : Type} (swap : Bool → List UInt8 → ℕ → ℕ → HcsRead (Option α))
  (align : Bool) (blob : List UInt8) (node : DeviceResourceNode) (attrName : List UInt8)
  (index : ℕ) : HcsRead α :=
 match getAttrInNode blob node attrName with
 | none => throw .failure
 | some attr => do
  let realValue ← getArrayElem align blob attr index
  getTyped swap align blob realValue

def hcsGetUint8ArrayElem := getArrayScalar hcsSwapToUint8

def hcsGetUint16ArrayElem := getArrayScalar hcsSwapToUint16

def hcsGetUint32ArrayElem := getArrayScalar hcsSwapToUint32

def hcsGetUint64ArrayElem := getArrayScalar hcsSwapToUint64

def getArrayScalars {α : Type} (swap : Bool → List UInt8 → ℕ → ℕ → HcsRead (Option α))
  (align : Bool) (blob : List UInt8) (node : DeviceResourceNode) (attrName : List UInt8) :
  (index len : ℕ) → HcsRead (List α)
 | _, 0 => return []
 | index, len + 1 => do
  let value ← getArrayScalar swap align blob node attrName index
  let values ← getArrayScalars swap align blob node attrName (index + 1) len
  return value :: values

def getScalarArray {α : Type} (swap : Bool → List UInt8 → ℕ → ℕ → HcsRead (Option α))
  (align : Bool) (blob : List UInt8) (node : DeviceResourceNode) (attrName : List UInt8)
  (len : ℕ) : HcsRead (List α) :=
 if len = 0 then throw .failure
 else getArrayScalars swap align blob node attrName 0 len

def hcsGetUint8Array := getScalarArray hcsSwapToUint8

def hcsGetUint16Array := getScalarArray hcsSwapToUint16

def hcsGetUint32Array := getScalarArray hcsSwapToUint32

def hcsGetUint64Array := getScalarArray hcsSwapToUint64

def getString (align : Bool) (blob : List UInt8) (value : ℕ) : HcsRead ℕ := do
 let type ← hcsGetPrefix align blob value
 if type ≠ configString then throw .failure
 else return value + hcsPrefixLength align

def hcsGetString (align : Bool) (blob : List UInt8) (node : DeviceResourceNode)
  (attrName : List UInt8) : HcsRead ℕ :=
 match getAttrInNode blob node attrName with
 | none => throw .failure
 | some attr => getString align blob attr.value

def hcsGetStringArrayElem (align : Bool) (blob : List UInt8) (node : DeviceResourceNode)
  (attrName : List UInt8) (index : ℕ) : HcsRead ℕ :=
 match getAttrInNode blob node attrName with
 | none => throw .failure
 | some attr => do
  let realValue ← getArrayElem align blob attr index
  getString align blob realValue

def hcsGetElemNum (align : Bool) (blob : List UInt8) (node : DeviceResourceNode)
  (attrName : List UInt8) : HcsRead ℕ :=
 match getAttrInNode blob node attrName with
 | none => throw .failure
 | some attr => do
  let type ← hcsGetPrefix align blob attr.value
  if type ≠ configArray then throw .failure
  else hcsArrayCount align blob attr.value

def siblingOf (nodes : List DeviceResourceNode) (i : ℕ) : Option ℕ :=
 match (nodes[i]?).bind DeviceResourceNode.parent with
 | none => none
 | some p => ((nodes[p]?).map DeviceResourceNode.child).bind fun children =>
   children[children.idxOf i + 1]?

/-- Climb to the first node that has a sibling, or to the root; a parent is created
before its children, so `i + 1` rounds are enough. -/
def traverseTreeNode (nodes : List DeviceResourceNode) : (rounds : ℕ) → ℕ → Option ℕ
 | 0, _ => none
 | rounds + 1, i =>
  match (nodes[i]?).bind DeviceResourceNode.parent, siblingOf nodes i with
  | some p, none => traverseTreeNode nodes rounds p
  | _, sibling => sibling

def nextNode (nodes : List DeviceResourceNode) (i : ℕ) : Option ℕ :=
 match (nodes[i]?).bind fun n => n.child.head? with
 | some c => some c
 | none => traverseTreeNode nodes (i + 1) i

/-- The first node from `cur` on, in the order of the walk, with the given hash. -/
def findHash (nodes : List DeviceResourceNode) (hash : ℕ) : (rounds : ℕ) → Option ℕ → Option ℕ
 | 0, _ => none
 | _, none => none
 | rounds + 1, some i =>
  if (nodes[i]?).map DeviceResourceNode.hashValue = some hash then some i
  else findHash nodes hash rounds (nextNode nodes i)

def hcsGetNodeByRefAttr (align : Bool) (blob : List UInt8) (tree : CfgTree)
  (node : DeviceResourceNode) (attrName : List UInt8) : HcsRead (Option ℕ) :=
 match getAttrInNode blob node attrName with
 | none => return none
 | some attr => do
  let type ← hcsGetPrefix align blob attr.value
  if type ≠ configReference then return none
  else
   let attrValue ← hcsByteCodeToUint32 blob (attr.value + hcsPrefixLength align)
   return findHash tree.nodes attrValue tree.nodes.length (some tree.root)

end DriversFramework.Hcs
