import Mathlib.Data.List.Basic

/-! `ast.h` and the object part of `ast.cpp`. Objects are kept in a heap and named by
their addresses; the child pointer and the next pointers behind it are the list
`children` of the parent. -/
namespace DriversFramework.HcAst

/-- A `std::string`, as its bytes. -/
abbrev Str := List UInt8

inductive ObjectType where
 | uint8 | uint16 | uint32 | uint64 | string | confNode | confTerm | array | nodeRef | delete
 deriving DecidableEq

def ObjectType.code : ObjectType → ℕ
 | .uint8 => 1
 | .uint16 => 2
 | .uint32 => 3
 | .uint64 => 4
 | .string => 5
 | .confNode => 6
 | .confTerm => 7
 | .array => 8
 | .nodeRef => 9
 | .delete => 10

inductive NodeRefType where
 | noRef | copy | ref | delete | template | inherit
 deriving DecidableEq

/-- An object of any class: `nodeType` to `subClasses` are used by a `ConfigNode`,
`refNode` by a `ConfigTerm`, `arrayType` and `arraySize` by a `ConfigArray`. -/
structure AstObject where
 type : ObjectType
 name : Str
 parent : Option ℕ := none
 children : List ℕ := []
 integerValue : UInt64 := 0
 stringValue : Str := []
 nodeType : NodeRefType := .noRef
 refNodePath : Str := []
 inheritIndex : UInt32 := 0
 inheritCount : UInt32 := 0
 subClasses : List ℕ := []
 refNode : Option ℕ := none
 arrayType : ℕ := 0
 arraySize : UInt32 := 0
 deriving DecidableEq

instance : Inhabited AstObject := ⟨⟨.uint8, [], none, [], 0, [], .noRef, [], 0, 0, [], none, 0, 0⟩⟩

def AstObject.isNumber (o : AstObject) : Bool := o.type.code ≤ ObjectType.uint64.code

def AstObject.isNode (o : AstObject) : Bool := o.type = .confNode

def AstObject.isTerm (o : AstObject) : Bool := o.type = .confTerm

def AstObject.setChildren (o : AstObject) (children : List ℕ) : AstObject :=
 { o with children := children }

def AstObject.setParent (o : AstObject) (parent : ℕ) : AstObject := { o with parent := some parent }

/-- The address of an object is its place in `objects`. -/
structure AstHeap where
 objects : List AstObject
 deriving DecidableEq

namespace AstHeap

def size (h : AstHeap) : ℕ := h.objects.length

def get (h : AstHeap) (a : ℕ) : AstObject := (h.objects[a]?).getD default

def modify (h : AstHeap) (a : ℕ) (f : AstObject → AstObject) : AstHeap :=
 ⟨h.objects.modify a f⟩

def alloc (h : AstHeap) (o : AstObject) : AstHeap := ⟨h.objects ++ [o]⟩

def child (h : AstHeap) (a : ℕ) : Option ℕ := (h.get a).children.head?

def successor (a : ℕ) : List ℕ → Option ℕ
 | [] => none
 | peer :: peers => if peer = a then peers.head? else successor a peers

def next (h : AstHeap) (a : ℕ) : Option ℕ :=
 (h.get a).parent.bind fun p => successor a (h.get p).children

def addChild (h : AstHeap) (a childObj : ℕ) : AstHeap :=
 (h.modify a fun o => o.setChildren (o.children ++ [childObj])).modify childObj
  fun o => o.setParent a

def separate (h : AstHeap) (a : ℕ) : AstHeap :=
 match (h.get a).parent with
 | none => h
 | some p => h.modify p fun o => o.setChildren (o.children.erase a)

def remove (h : AstHeap) (a : ℕ) : AstHeap :=
 (h.separate a).modify a fun o => o.setChildren []

/-- Does the object `c` have this name and, where one is given, this type? -/
def named (h : AstHeap) (name : Str) (type : Option ObjectType) (c : ℕ) : Bool :=
 (h.get c).name = name && (type = none || type = some (h.get c).type)

def lookupChild (h : AstHeap) (a : ℕ) (name : Str) (type : Option ObjectType) : Option ℕ :=
 (h.get a).children.find? (h.named name type)

variable (h : AstHeap) (a : ℕ)

theorem get_modify (b : ℕ) (f : AstObject → AstObject) :
 (h.modify a f).get b = if a = b ∧ b < h.size then f (h.get b) else h.get b := by
 simp only [get, modify, size, List.getElem?_modify]
 by_cases hb : b < h.objects.length
 · simp only [List.getElem?_eq_getElem hb, Option.getD_some, hb, and_true]
   split <;> rfl
 · simp [hb]

theorem get_modify_self {h : AstHeap} {a : ℕ} (ha : a < h.size) (f : AstObject → AstObject) :
 (h.modify a f).get a = f (h.get a) := by
 simp [get_modify, ha]

theorem get_modify_ne {a b : ℕ} (hab : a ≠ b) (f : AstObject → AstObject) :
 (h.modify a f).get b = h.get b := by
 simp [get_modify, hab]

@[simp] theorem size_modify (f : AstObject → AstObject) :
 (h.modify a f).size = h.size := by
 simp [size, modify]

@[simp] theorem size_alloc (o : AstObject) : (h.alloc o).size = h.size + 1 := by
 simp [size, alloc]

theorem get_alloc_new (o : AstObject) : (h.alloc o).get h.size = o := by
 simp [get, alloc, size]

theorem get_alloc_of_lt {h : AstHeap} {b : ℕ} (hb : b < h.size) (o : AstObject) :
 (h.alloc o).get b = h.get b := by
 simp only [get, alloc, List.getElem?_append_left hb]

theorem get_of_size_le {h : AstHeap} {b : ℕ} (hb : h.size ≤ b) : h.get b = default := by
 simp only [get, List.getElem?_eq_none hb, Option.getD_none]

@[simp] theorem size_addChild (b : ℕ) : (h.addChild a b).size = h.size := by
 simp [addChild]

@[simp] theorem size_separate : (h.separate a).size = h.size := by
 unfold separate
 split <;> simp

@[simp] theorem size_remove : (h.remove a).size = h.size := by
 simp [remove]

end AstHeap

def fitIntegerValueType (value : UInt64) : ObjectType :=
 if value.toNat ≤ 0xFF then .uint8
 else if value.toNat ≤ 0xFFFF then .uint16
 else if value.toNat ≤ 0xFFFFFFFF then .uint32
 else .uint64

inductive SourceValue where
 | number (numval : UInt64)
 | string (strval : Str)
 | numberArray (numvals : List UInt64)
 | stringArray (strvals : List Str)
 | nodeRef (path : Str)
 | delete
 deriving DecidableEq

/-- A declaration inside a node and those that follow it. -/
inductive SourceObjects where
 | nil
 | term (name : Str) (value : SourceValue) (next : SourceObjects)
 | node (name : Str) (nodeType : NodeRefType) (refPath : Str) (child next : SourceObjects)
 deriving DecidableEq

def numberObject (numval : UInt64) : AstObject :=
 { type := fitIntegerValueType numval, name := [], integerValue := numval }

def stringObject (strval : Str) : AstObject := { type := .string, name := [], stringValue := strval }

/-- An array object with the counters that `ConfigArray::AddChild` leaves. -/
def arrayObject (elements : List AstObject) : AstObject :=
 { type := .array, name := [], arraySize := UInt32.ofNat elements.length,
   arrayType := elements.foldl (fun t o => max t o.type.code) 0 }

def addElements (a : ℕ) : List AstObject → AstHeap → AstHeap
 | [], h => h
 | o :: elements, h => addElements a elements ((h.alloc o).addChild a h.size)

def SourceValue.object : SourceValue → AstObject
 | .number numval => numberObject numval
 | .string strval => stringObject strval
 | .numberArray numvals => arrayObject (numvals.map numberObject)
 | .stringArray strvals => arrayObject (strvals.map stringObject)
 | .nodeRef path => { type := .nodeRef, name := [], stringValue := path }
 | .delete => { type := .delete, name := [] }

def SourceValue.elements : SourceValue → List AstObject
 | .numberArray numvals => numvals.map numberObject
 | .stringArray strvals => strvals.map stringObject
 | _ => []

def addValue (h : AstHeap) (value : SourceValue) : AstHeap :=
 addElements h.size value.elements (h.alloc value.object)

/-- The objects of some declarations, as children of the node `a`. -/
def addSource (a : ℕ) : SourceObjects → AstHeap → AstHeap
 | .nil, h => h
 | .term name value next, h =>
  let term := h.size
  let h := h.alloc { type := .confTerm, name := name }
  let h := (addValue h value).addChild term h.size
  addSource a next (h.addChild a term)
 | .node name nodeType refPath child next, h =>
  let node := h.size
  let h := h.alloc { type := .confNode, name := name, nodeType := nodeType, refNodePath := refPath }
  let h := addSource node child h
  addSource a next (h.addChild a node)

def rootName : Str := [0x72, 0x6F, 0x6F, 0x74]

/-- A tree that is merged from the source files; `redefineChecked` says whether
`RedefineCheck` has run on it before. -/
structure Ast where
 heap : AstHeap
 astRoot : ℕ
 redefineChecked : Bool
 deriving DecidableEq

def Ast.ofSource (redefineChecked : Bool) (source : SourceObjects) : Ast :=
 ⟨addSource 0 source ⟨[{ type := .confNode, name := rootName }]⟩, 0, redefineChecked⟩

end DriversFramework.HcAst
