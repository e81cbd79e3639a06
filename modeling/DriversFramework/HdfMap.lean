import DriversFramework.HashChains
import DriversFramework.HdfBase

/-! `hdf_map.c` with allocations that succeed. A key is the bytes before the
terminating zero, a value the bytes of its buffer; `char` is unsigned. -/
namespace DriversFramework.HdfMap

structure MapNode where
 hash : UInt32
 key : List UInt8
 value : List UInt8
 deriving DecidableEq

/-- `nodes` is empty while the pointer is null, else it has one chain for each
bucket. -/
structure Map where
 nodes : List (List MapNode)
 nodeSize : UInt32
 bucketSize : UInt32
 deriving DecidableEq

def hdfMinMapSize : UInt32 := 8
def hdfEnlargeFactor : UInt32 := 2
def hdfMapKeyMaxSize : ℕ := 1000
def hdfMapValueMaxSize : ℕ := 1000
def hashSeed : UInt32 := 131

def mapHash (hashKey : List UInt8) : UInt32 :=
 hashKey.foldl (fun hashValue c => hashValue * hashSeed + c.toUInt32) 0 &&& 0x7FFFFFFF

def mapHashIdx (bucketSize hash : UInt32) : UInt32 :=
 hash &&& (bucketSize - 1)

def MapNode.idx (bucketSize : UInt32) (node : MapNode) : ℕ :=
 (mapHashIdx bucketSize node.hash).toNat

def mapInit : Map := ⟨[], 0, 0⟩

def mapAddNode (map : Map) (node : MapNode) : Map :=
 { map with nodes := HashChains.add (MapNode.idx map.bucketSize) map.nodes node }

def mapResize (map : Map) (size : UInt32) : Map :=
 if size = 0 then map
 else
  map.nodes.flatten.foldl mapAddNode
   { map with nodes := List.replicate size.toNat [], bucketSize := size }

def mapCreateNode (key : List UInt8) (hash : UInt32) (value : List UInt8) : MapNode :=
 ⟨hash, key, value⟩

def MapNode.is (node : MapNode) (hash : UInt32) (key : List UInt8) : Bool :=
 node.hash == hash && node.key == key

/-- The chain a search walks. -/
def Map.chain (map : Map) (hash : UInt32) : List MapNode :=
 map.nodes.getD (mapHashIdx map.bucketSize hash).toNat []

def Map.setChain (map : Map) (hash : UInt32) (chain : List MapNode) : Map :=
 { map with nodes := map.nodes.set (mapHashIdx map.bucketSize hash).toNat chain }

/-- The search of `MapSet`, with the chain it leaves: `none` where no node has
the key. -/
def setInChain (hash : UInt32) (key value : List UInt8) :
  List MapNode → Option (HdfStatus × List MapNode)
 | [] => none
 | node :: next =>
  if node.is hash key then
   if node.value.length ≠ value.length then some (.errInvalidObject, node :: next)
   else some (.success, { node with value } :: next)
  else (setInChain hash key value next).map fun r => (r.1, node :: r.2)

/-- What `MapSet` does with a key that no node has. -/
def mapSetNew (map : Map) (key value : List UInt8) : Map :=
 let size :=
  if map.bucketSize < hdfMinMapSize then hdfMinMapSize else map.bucketSize <<< hdfEnlargeFactor
 let map := if map.nodeSize ≥ map.bucketSize then mapResize map size else map
 let map := mapAddNode map (mapCreateNode key (mapHash key) value)
 { map with nodeSize := map.nodeSize + 1 }

def mapSet (map : Map) (key value : List UInt8) : HdfStatus × Map :=
 if value.length = 0 then (.errInvalidParam, map)
 else if value.length > hdfMapKeyMaxSize ∨ key.length > hdfMapValueMaxSize then
  (.errInvalidParam, map)
 else
  let found :=
   if map.nodeSize > 0 ∧ map.nodes ≠ [] then
    setInChain (mapHash key) key value (map.chain (mapHash key))
   else none
  match found with
  | some (status, chain) => (status, map.setChain (mapHash key) chain)
  | none => (.success, mapSetNew map key value)

def mapGet (map : Map) (key : List UInt8) : Option (List UInt8) :=
 if map.nodeSize = 0 ∨ map.nodes = [] then none
 else ((map.chain (mapHash key)).find? fun node => node.is (mapHash key) key).map MapNode.value

def eraseInChain (hash : UInt32) (key : List UInt8) : List MapNode → Option (List MapNode)
 | [] => none
 | node :: next =>
  if node.is hash key then some next else (eraseInChain hash key next).map (node :: ·)

def mapErase (map : Map) (key : List UInt8) : HdfStatus × Map :=
 if map.nodeSize = 0 ∨ map.nodes = [] then (.errInvalidParam, map)
 else
  match eraseInChain (mapHash key) key (map.chain (mapHash key)) with
  | some chain =>
   (.success, { map.setChain (mapHash key) chain with nodeSize := map.nodeSize - 1 })
  | none => (.failure, map)

/-- A call of the interface on one map. -/
inductive MapCall where
 | set (key value : List UInt8)
 | get (key : List UInt8)
 | erase (key : List UInt8)
 deriving DecidableEq

inductive MapAnswer where
 | status (code : HdfStatus)
 | value (bytes : Option (List UInt8))
 deriving DecidableEq

def Map.call (map : Map) : MapCall → MapAnswer × Map
 | .set key value => (.status (mapSet map key value).1, (mapSet map key value).2)
 | .get key => (.value (mapGet map key), map)
 | .erase key => (.status (mapErase map key).1, (mapErase map key).2)

/-- The answers of a list of calls, with the map they leave. -/
def Map.run (map : Map) : List MapCall → List MapAnswer × Map
 | [] => ([], map)
 | call :: calls =>
  let first := map.call call
  let rest := first.2.run calls
  (first.1 :: rest.1, rest.2)

section Chains
variable {hash : UInt32} {key value : List UInt8}

theorem MapNode.is_iff {node : MapNode} :
 node.is hash key = true ↔ node.hash = hash ∧ node.key = key := by
 simp [MapNode.is]

theorem setInChain_none {chain : List MapNode} (h : ∀ node ∈ chain, node.is hash key = false) :
 setInChain hash key value chain = none := by
 induction chain with
 | nil => rfl
 | cons node next ih =>
  obtain ⟨first, rest⟩ := List.forall_mem_cons.mp h
  simp [setInChain, first, ih rest]

theorem eraseInChain_none {chain : List MapNode} (h : ∀ node ∈ chain, node.is hash key = false) :
 eraseInChain hash key chain = none := by
 induction chain with
 | nil => rfl
 | cons node next ih =>
  obtain ⟨first, rest⟩ := List.forall_mem_cons.mp h
  simp [eraseInChain, first, ih rest]

variable {front back : List MapNode} {node : MapNode}

theorem setInChain_found (h : ∀ other ∈ front, other.is hash key = false)
 (found : node.is hash key = true) :
 setInChain hash key value (front ++ node :: back) =
  if node.value.length ≠ value.length then some (.errInvalidObject, front ++ node :: back)
  else some (.success, front ++ { node with value } :: back) := by
 induction front with
 | nil => simp [setInChain, found]
 | cons other front ih =>
  obtain ⟨first, rest⟩ := List.forall_mem_cons.mp h
  rw [List.cons_append, setInChain, ih rest]
  split_ifs <;> simp_all

theorem find?_found (h : ∀ other ∈ front, other.is hash key = false)
 (found : node.is hash key = true) :
 (front ++ node :: back).find? (fun other => other.is hash key) = some node := by
 have skipped : front.find? (fun other => other.is hash key) = none := by simpa using h
 simp [skipped, found]

theorem eraseInChain_found (h : ∀ other ∈ front, other.is hash key = false)
 (found : node.is hash key = true) :
 eraseInChain hash key (front ++ node :: back) = some (front ++ back) := by
 induction front with
 | nil => simp [eraseInChain, found]
 | cons other front ih =>
  obtain ⟨first, rest⟩ := List.forall_mem_cons.mp h
  simp [eraseInChain, first, ih rest]

end Chains

end DriversFramework.HdfMap
