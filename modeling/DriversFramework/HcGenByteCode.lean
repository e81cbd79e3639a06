import DriversFramework.ByteCodec

/-! `bytecode_gen.cpp` over an expanded configuration tree. The child list of an
object is followed through its child and next pointers, as the source does; a
node has an address, which is what a reference is bound to. -/
namespace DriversFramework.HcGen

open ByteCodec

/-- A string without NUL, as the lexer and `std::string::c_str` agree on it. -/
structure Text where
 bytes : List UInt8
 nulFree : 0 ∉ bytes
 deriving DecidableEq

inductive IntType where
 | uint8 | uint16 | uint32 | uint64
 deriving DecidableEq

inductive Scalar where
 | int (type : IntType) (integerValue : UInt64)
 | string (stringValue : Text)
 deriving DecidableEq

/-- What a term holds; a reference is bound to the node with the address `refNode`. -/
inductive TermValue where
 | scalar (value : Scalar)
 | array (elements : List Scalar)
 | nodeRef (refNode : ℕ)
 deriving DecidableEq

inductive ConfigNodeType where
 | noRef
 | template
 | inherit
 deriving DecidableEq

inductive ConfigObjects where
 | nil
 | term (name : Text) (value : TermValue) (next : ConfigObjects)
 | node (address : ℕ) (name : Text) (type : ConfigNodeType) (child next : ConfigObjects)
 deriving DecidableEq

/-- The root node. -/
structure Ast where
 address : ℕ
 name : Text
 child : ConfigObjects
 deriving DecidableEq

def hcsNodeOp : UInt8 := 0x01

def hcsTermOp : UInt8 := 0x02

def hcsNodeRefOp : UInt8 := 0x03

def hcsArrayOp : UInt8 := 0x04

def hcsStringOp : UInt8 := 0x14

def IntType.opCode : IntType → UInt8
 | .uint8 => 0x10
 | .uint16 => 0x11
 | .uint32 => 0x12
 | .uint64 => 0x13

def IntType.size : IntType → ℕ
 | .uint8 => 1
 | .uint16 => 2
 | .uint32 => 4
 | .uint64 => 8

def alignSize (needAlign : Bool) (size : ℕ) : ℕ := if needAlign then align4 size else size

def ConfigObjects.separate : ConfigObjects → ConfigObjects
 | .nil => .nil
 | .term name value next => .term name value next.separate
 | .node address name type child next =>
  if type = .template then next.separate
  else .node address name type child.separate next.separate

def Scalar.size (needAlign : Bool) : Scalar → ℕ
 | .int type _ => alignSize needAlign 1 + alignSize needAlign type.size
 | .string value => alignSize needAlign 1 + alignSize needAlign (value.bytes.length + 1)

def TermValue.size (needAlign : Bool) : TermValue → ℕ
 | .scalar value => value.size needAlign
 | .array elements =>
  alignSize needAlign 1 + alignSize needAlign 2 + (elements.map (Scalar.size needAlign)).sum
 | .nodeRef _ => alignSize needAlign 1 + alignSize needAlign 4

/-- The sum of the sizes of an object and of those that follow it. -/
def ConfigObjects.size (needAlign : Bool) : ConfigObjects → ℕ
 | .nil => 0
 | .term name value next =>
  alignSize needAlign 1 + alignSize needAlign (name.bytes.length + 1) + value.size needAlign +
   next.size needAlign
 | .node _ name _ child next =>
  alignSize needAlign 1 + alignSize needAlign 4 + alignSize needAlign (name.bytes.length + 1) +
   child.size needAlign + next.size needAlign

/-- The root node as an object without peers. -/
def Ast.root (ast : Ast) : ConfigObjects := .node ast.address ast.name .noRef ast.child .nil

/-- The size that `CalculateSize` leaves in the root object, in 32 bits. -/
def Ast.size (needAlign : Bool) (ast : Ast) : ℕ := ast.root.size needAlign % 2 ^ 32

def byteCodeConvert (ast : Ast) : Ast := { ast with child := ast.child.separate }

structure ByteCodeGen where
 needAlign : Bool
 dummyOutput : Bool
 writeSize : ℕ
 hash : ℕ → ℕ
 ofs : List UInt8

def ByteCodeGen.fsWrite (g : ByteCodeGen) (data : List UInt8) : ByteCodeGen :=
 if g.dummyOutput then g else { g with ofs := g.ofs ++ data }

def ByteCodeGen.write (g : ByteCodeGen) (data : List UInt8) : ByteCodeGen :=
 let size := alignSize g.needAlign data.length
 let g := (g.fsWrite data).fsWrite (List.replicate (size - data.length) 0)
 { g with writeSize := (g.writeSize + size) % 2 ^ 32 }

def ByteCodeGen.writeString (g : ByteCodeGen) (text : Text) : ByteCodeGen :=
 g.write (text.bytes ++ [0])

def ByteCodeGen.setHash (g : ByteCodeGen) (address : ℕ) : ByteCodeGen :=
 { g with hash := Function.update g.hash address g.writeSize }

def ByteCodeGen.writeScalar (g : ByteCodeGen) : Scalar → ByteCodeGen
 | .int type value => (g.write [type.opCode]).write (leBytes type.size value.toNat)
 | .string value => (g.write [hcsStringOp]).writeString value

def ByteCodeGen.writeValue (g : ByteCodeGen) : TermValue → ByteCodeGen
 | .scalar value => g.writeScalar value
 | .array elements =>
  elements.foldl ByteCodeGen.writeScalar
   ((g.write [hcsArrayOp]).write (leBytes 2 elements.length))
 | .nodeRef refNode => (g.write [hcsNodeRefOp]).write (leBytes 4 (g.hash refNode))

def ByteCodeGen.writeWalk (g : ByteCodeGen) : ConfigObjects → ByteCodeGen
 | .nil => g
 | .term name value next =>
  ((((g.write [hcsTermOp]).writeString name)).writeValue value).writeWalk next
 | .node address name _ child next =>
  let g := ((g.setHash address).write [hcsNodeOp]).writeString name
  let g := g.write (leBytes 4 (child.size g.needAlign))
  (g.writeWalk child).writeWalk next

def hcbMagicNum : ℕ := 0xA00AA00A

def hcbHeader (needAlign : Bool) (versionMajor versionMinor : UInt32) (size : ℕ) : List UInt8 :=
 leBytes 4 hcbMagicNum ++ leBytes 4 versionMajor.toNat ++ leBytes 4 versionMinor.toNat ++
  leBytes 4 0 ++ leBytes 4 (if needAlign then (2 ^ 32 - size) % 2 ^ 32 else size)

def byteCodeWrite (versionMajor versionMinor : UInt32) (ast : Ast) (dummy : Bool)
  (g : ByteCodeGen) : ByteCodeGen :=
 let g := { g with dummyOutput := dummy, writeSize := 0 }
 let g := g.write (hcbHeader g.needAlign versionMajor versionMinor (ast.size g.needAlign))
 g.writeWalk ast.root

/-- The file that `Output` leaves: a pass that only places the nodes, and one that
writes. -/
def output (needAlign : Bool) (versionMajor versionMinor : UInt32) (ast : Ast) : List UInt8 :=
 let ast := byteCodeConvert ast
 let g : ByteCodeGen := ⟨needAlign, false, 0, fun _ => 0, []⟩
 let g := byteCodeWrite versionMajor versionMinor ast true g
 (byteCodeWrite versionMajor versionMinor ast false g).ofs

end DriversFramework.HcGen
