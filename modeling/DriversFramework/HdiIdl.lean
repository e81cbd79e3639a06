import Mathlib.Algebra.Group.Nat.Defs
import DriversFramework.ReadBack

/-! Each emitter of `ast/*_type.cpp` is the effect of the statements it emits in user-space mode:
a list of items written, or a reader of items. An item of the buffer carries the kind of the
typed write that made it. `T[]` and `List<T>` have the same C code. -/
namespace DriversFramework.HdiGen

open ReadBack

inductive PrimitiveType where
 | boolean
 | byte
 | short
 | int
 | long
 | uchar
 | ushort
 | uint
 | ulong
 | float
 | double
 | fileDescriptor
 deriving DecidableEq

mutual
inductive IdlType where
 | prim (type : PrimitiveType)
 | enum (name : String)
 | string
 | struct (name : String) (members : Members)
 | union (name : String) (members : Members)
 | array (elementType : IdlType)
inductive Members where
 | nil
 | cons (name : String) (type : IdlType) (rest : Members)
end

/-- Values of C objects. A scalar is the bits of its object, a union has one live member, and
`address` is a pointer that means nothing in the process that holds it. -/
inductive Val where
 | num (bits : ℕ)
 | string (text : String)
 | struct (members : List Val)
 | union (member : ℕ) (value : Val)
 | array (elements : List Val)
 | address

inductive SbufKind where
 | int8
 | int16
 | int32
 | int64
 | uint8
 | uint16
 | uint32
 | uint64
 | float
 | double
 | fileDescriptor
 deriving DecidableEq

inductive Item where
 | num (kind : SbufKind) (bits : ℕ)
 | string (text : String)
 | unpadBuffer (type : String) (content : Val)

theorem IdlType.induct {P : IdlType → Prop} {Q : Members → Prop}
 (prim : ∀ p, P (.prim p)) (enum : ∀ name, P (.enum name)) (string : P .string)
 (struct : ∀ name ms, Q ms → P (.struct name ms))
 (union : ∀ name ms, Q ms → P (.union name ms)) (array : ∀ e, P e → P (.array e))
 (nil : Q .nil) (cons : ∀ name t ms, P t → Q ms → Q (.cons name t ms)) :
 (∀ t, P t) ∧ ∀ ms, Q ms :=
 ⟨fun t => @IdlType.rec P Q prim enum string struct union array nil cons t,
  fun ms => @Members.rec P Q prim enum string struct union array nil cons ms⟩

theorem Val.induct {P : Val → Prop} {Q : List Val → Prop}
 (num : ∀ bits, P (.num bits)) (string : ∀ text, P (.string text))
 (struct : ∀ vs, Q vs → P (.struct vs)) (union : ∀ k v, P v → P (.union k v))
 (array : ∀ vs, Q vs → P (.array vs)) (address : P .address)
 (nil : Q []) (cons : ∀ v vs, P v → Q vs → Q (v :: vs)) : ∀ v, P v :=
 fun v => @Val.rec P Q num string struct union array address nil cons v

def PrimitiveType.values : PrimitiveType → ℕ
 | .boolean => 2
 | .byte | .uchar => 2 ^ 8
 | .short | .ushort => 2 ^ 16
 | .int | .uint | .float | .fileDescriptor => 2 ^ 32
 | .long | .ulong | .double => 2 ^ 64

mutual
def IdlType.hasType : IdlType → Val → Bool
 | .prim p, .num bits => bits < p.values
 | .enum _, .num bits => bits < 2 ^ 32
 | .string, .string _ => true
 | .struct _ ms, .struct vs => ms.hasTypes vs
 | .union _ ms, .union k v => ms.hasTypeAt k v
 | .array e, .array vs => vs.length < 2 ^ 32 && vs.all fun v => e.hasType v
 | _, _ => false
def Members.hasTypes : Members → List Val → Bool
 | .nil, [] => true
 | .cons _ t ms, v :: vs => t.hasType v && ms.hasTypes vs
 | _, _ => false
def Members.hasTypeAt : Members → ℕ → Val → Bool
 | .nil, _, _ => false
 | .cons _ t _, 0, v => t.hasType v
 | .cons _ _ ms, k + 1, v => ms.hasTypeAt k v
end

mutual
/-- Whether `sizeof` is positive: a structure or a union without members has size 0. -/
def IdlType.occupies : IdlType → Bool
 | .struct _ ms | .union _ ms => ms.occupy
 | _ => true
def Members.occupy : Members → Bool
 | .nil => false
 | .cons _ t ms => t.occupies || ms.occupy
end

mutual
def Val.shallow : Val → Val
 | .num bits => .num bits
 | .string _ => .address
 | .struct vs => .struct (shallowAll vs)
 | .union k v => .union k v.shallow
 | .array vs => if vs.isEmpty then .array [] else .address
 | .address => .address
def Val.shallowAll : List Val → List Val
 | [] => []
 | v :: vs => v.shallow :: shallowAll vs
end

mutual
def Val.holdsPointer : Val → Bool
 | .num _ => false
 | .string _ => true
 | .struct vs => anyPointer vs
 | .union _ v => v.holdsPointer
 | .array vs => !vs.isEmpty
 | .address => false
def Val.anyPointer : List Val → Bool
 | [] => false
 | v :: vs => v.holdsPointer || anyPointer vs
end

theorem Val.shallow_eq_self_iff (v : Val) : v.shallow = v ↔ v.holdsPointer = false := by
 refine Val.induct (P := fun v => v.shallow = v ↔ v.holdsPointer = false)
  (Q := fun vs => shallowAll vs = vs ↔ anyPointer vs = false) ?_ ?_ ?_ ?_ ?_ ?_ ?_ ?_ v
 · intro bits
   simp [shallow, holdsPointer]
 · intro text
   simp [shallow, holdsPointer]
 · intro vs ih
   simp [shallow, holdsPointer, ih]
 · intro k v ih
   simp [shallow, holdsPointer, ih]
 · intro vs ih
   cases vs <;> simp [shallow, holdsPointer]
 · simp [shallow, holdsPointer]
 · simp [shallowAll, anyPointer]
 · intro v vs ihv ihvs
   simp [shallowAll, anyPointer, ihv, ihvs]

def PrimitiveType.sbuf : PrimitiveType → SbufKind
 | .boolean | .byte => .int8
 | .short => .int16
 | .int => .int32
 | .long => .int64
 | .uchar => .uint8
 | .ushort => .uint16
 | .uint => .uint32
 | .ulong => .uint64
 | .float => .float
 | .double => .double
 | .fileDescriptor => .fileDescriptor

/-- A boolean is written as `b ? 1 : 0`. -/
def PrimitiveType.write (p : PrimitiveType) (bits : ℕ) : Item :=
 .num p.sbuf (if p = .boolean then if bits = 0 then 0 else 1 else bits)

mutual
/-- A member of a structure. An enumeration is written as an `int32_t`. -/
def IdlType.emitCMarshalling : IdlType → Val → List Item
 | .prim p, .num bits => [p.write bits]
 | .enum _, .num bits => [.num .int32 bits]
 | .string, .string text => [.string text]
 | .struct _ ms, .struct vs => ms.blockMarshalling vs
 | .union name _, .union k v => [.unpadBuffer name (Val.union k v).shallow]
 | .array e, .array vs => .num .uint32 vs.length :: vs.flatMap fun v => e.emitCMarshalling v
 | _, _ => []
def Members.blockMarshalling : Members → List Val → List Item
 | .cons _ t ms, v :: vs => t.emitCMarshalling v ++ ms.blockMarshalling vs
 | _, _ => []
end

def IdlType.emitCWriteVar : IdlType → Val → List Item
 | .prim p, .num bits => [p.write bits]
 | .enum _, .num bits => [.num .uint32 bits]
 | .string, .string text => [.string text]
 | .struct _ ms, .struct vs => ms.blockMarshalling vs
 | .union name _, .union k v => [.unpadBuffer name (Val.union k v).shallow]
 | .array e, .array vs => .num .uint32 vs.length :: vs.flatMap fun v => e.emitCWriteVar v
 | _, _ => []

abbrev SbufReader := Reader Item

def Item.asNum (kind : SbufKind) : Item → Option ℕ
 | .num k bits => if k = kind then some bits else none
 | _ => none

def Item.asString : Item → Option String
 | .string text => some text
 | _ => none

def Item.asUnpadBuffer (type : String) : Item → Option Val
 | .unpadBuffer name content => if name = type then some content else none
 | _ => none

def readNum (kind : SbufKind) : SbufReader ℕ := do
 let item ← next
 ofOption (item.asNum kind)

def readString : SbufReader String := do
 let item ← next
 ofOption item.asString

def readUnpadBuffer (type : String) : SbufReader Val := do
 let item ← next
 ofOption (item.asUnpadBuffer type)

/-- `OsalMemAlloc(sizeof(T))`, which fails for a size of 0. -/
def osalMemAlloc (t : IdlType) : SbufReader Unit :=
 ofOption (if t.occupies then some () else none)

def osalMemCalloc (t : IdlType) (len : ℕ) : SbufReader Unit :=
 ofOption (if t.occupies && len != 0 then some () else none)

def PrimitiveType.accepts (p : PrimitiveType) (bits : ℕ) : Bool :=
 p != .fileDescriptor || bits < 2 ^ 31

def PrimitiveType.read (p : PrimitiveType) : SbufReader Val := do
 let bits ← readNum p.sbuf
 ofOption (if p.accepts bits then some (.num bits) else none)

def readElements (elementType : IdlType) (element : SbufReader Val) (len : ℕ) :
  SbufReader Val := do
 osalMemCalloc elementType len
 let vs ← readAll (List.replicate len element)
 pure (.array vs)

def readArray (elementType : IdlType) (element : SbufReader Val) : SbufReader Val := do
 let len ← readNum .uint32
 if 0 < len then readElements elementType element len else pure (.array [])

mutual
def IdlType.emitCUnMarshalling : IdlType → SbufReader Val
 | .prim p => p.read
 | .enum _ => Val.num <$> readNum .int32
 | .string => Val.string <$> readString
 | .struct _ ms => Val.struct <$> ms.blockUnmarshalling
 | .union name _ => readUnpadBuffer name
 | .array e => readArray e e.emitCUnMarshalling
def Members.blockUnmarshalling : Members → SbufReader (List Val)
 | .nil => pure []
 | .cons _ t ms => do
  let v ← t.emitCUnMarshalling
  let vs ← ms.blockUnmarshalling
  pure (v :: vs)
end

def IdlType.emitCStubReadVar : IdlType → SbufReader Val
 | .prim p => p.read
 | .enum _ => Val.num <$> readNum .uint32
 | .string => Val.string <$> readString
 | .struct _ ms => Val.struct <$> ms.blockUnmarshalling
 | .union name _ => readUnpadBuffer name
 | .array e => readArray e e.emitCStubReadVar

def IdlType.emitCProxyReadVar : IdlType → SbufReader Val
 | .prim p => p.read
 | .enum _ => Val.num <$> readNum .uint32
 | .string => Val.string <$> readString
 | .struct _ ms => Val.struct <$> ms.blockUnmarshalling
 | .union name _ => readUnpadBuffer name
 | .array e => do
  let len ← readNum .uint32
  readElements e e.emitCProxyReadVar len

end DriversFramework.HdiGen
