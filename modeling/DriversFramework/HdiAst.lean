import DriversFramework.HdiLexer

/-! What the parser builds and looks up: `ast/ast.cpp`, the types of `ast/`, `ast_module.cpp` and
`file_detail.cpp`. A namespace is the list of its names from the outermost one, and the
`unordered_map`s are association lists. -/
namespace DriversFramework.HdiParser

/-- `String::Format`: a text that does not fit the line buffer comes out empty. -/
def format (text : Name) : Name := if text.length < 1024 then text else []

/-- `LastIndexOf(char)`, which does not look at the first character. -/
def lastIndexOf (s : Name) (c : Char) : Option ℕ :=
 ((List.range s.length).reverse.filter fun i => 0 < i && s[i]? == some c).head?

/-- `LastIndexOf(const char*)`, which does not compare the first character of `pattern`. -/
def lastIndexOfString (s pattern : Name) : Option ℕ :=
 ((List.range (s.length + 1 - pattern.length)).reverse.filter fun i =>
  pattern.tail.isPrefixOf (s.drop (i + 1))).head?

def replaceChar (s : Name) (old new : Char) : Name := s.map fun c => if c = old then new else c

/-- `IndexOf(const String&) != -1`. -/
def contains (s other : Name) : Bool :=
 !other.isEmpty && (List.range s.length).any fun i => other.isPrefixOf (s.drop i)

inductive TypeKind where
 | boolean | byte | short | int | long | float | double | uchar | ushort | uint | ulong | string
 | fileDescriptor | void | sequenceable | interface | list | map | array | enum | struct | union
 deriving DecidableEq

inductive ParamAttr where
 | paramIn | paramOut
 deriving DecidableEq

structure EnumValue (τ : Type) where
 name : Name
 isDefault : Bool := true
 value : UInt64 := 0
 type : Option τ := none

structure EnumType (τ : Type) where
 name : Name := []
 isFull : Bool := false
 isLite : Bool := false
 isDisplayBase : Bool := false
 baseType : Option τ := none
 members : List (EnumValue τ) := []

structure StructType (τ : Type) where
 name : Name := []
 isFull : Bool := false
 isLite : Bool := false
 members : List (Name × τ) := []

structure Parameter (τ : Type) where
 name : Name
 type : τ
 attr : ParamAttr

structure Method (τ : Type) where
 name : Name
 isOneWay : Bool := false
 isFull : Bool := false
 isLite : Bool := false
 parameters : List (Parameter τ) := []

structure InterfaceType (τ : Type) where
 name : Name
 nspace : List Name
 license : Name
 isOneWay : Bool := false
 isCallback : Bool := false
 isFull : Bool := false
 isLite : Bool := false
 methods : List (Method τ) := []

inductive AstType where
 | basic (kind : TypeKind) (name : Name)
 | sequenceable (name : Name) (nspace : List Name)
 | list (elementType : AstType)
 | map (keyType valueType : AstType)
 | array (elementType : AstType)
 | enum (type : EnumType AstType)
 | struct (type : StructType AstType)
 | union (type : StructType AstType)
 | interface (type : InterfaceType AstType)

namespace AstType

def toString : AstType → Name
 | basic _ name => name
 | sequenceable name _ => name
 | list e => format ("List<".toList ++ e.toString ++ ">".toList)
 | map k v => format ("Map<".toList ++ k.toString ++ ", ".toList ++ v.toString ++ ">".toList)
 | array e => format (e.toString ++ "[]".toList)
 | enum t => "enum ".toList ++ t.name
 | struct t => "struct ".toList ++ t.name
 | union t => "union ".toList ++ t.name
 | interface t => t.name

def typeKind : AstType → TypeKind
 | basic kind _ => kind
 | sequenceable _ _ => .sequenceable
 | list _ => .list
 | map _ _ => .map
 | array _ => .array
 | enum _ => .enum
 | struct _ => .struct
 | union _ => .union
 | interface _ => .interface

end AstType

/-- `AddMember` of a structure or union: a name that is there already is passed over. -/
def StructType.addMember (t : StructType AstType) (member : AstType) (name : Name) :
  StructType AstType :=
 if t.members.any fun m => m.1 = name then t
 else { t with members := t.members ++ [(name, member)] }

inductive AstFileType where
 | iface | icallback | types | sequenceable
 deriving DecidableEq

def builtInTypes : List AstType :=
 [.basic .boolean "boolean".toList, .basic .byte "byte".toList, .basic .short "short".toList,
  .basic .int "int".toList, .basic .long "long".toList, .basic .float "float".toList,
  .basic .double "double".toList, .basic .string "String".toList,
  .basic .uchar "unsigned char".toList, .basic .ushort "unsigned short".toList,
  .basic .uint "unsigned int".toList, .basic .ulong "unsigned long".toList,
  .basic .void "void".toList, .basic .fileDescriptor "FileDescriptor".toList]

structure Ast where
 astFileType : AstFileType := .iface
 name : Name := []
 license : Name := []
 packageName : Name := []
 typeDefinitions : List AstType := []
 sequenceableDef : Option AstType := none
 interfaceDef : Option (InterfaceType AstType) := none
 imports : List (Name × Ast) := []
 types : List (Name × AstType) := builtInTypes.map fun t => (t.toString, t)
 idlFilePath : Name := []

namespace Ast

def setIdlFile (a : Ast) (idlFile : Name) : Ast :=
 let start := (lastIndexOf idlFile '/').elim 0 (· + 1)
 let name := (lastIndexOfString idlFile ".idl".toList).elim [] fun last =>
  (idlFile.take last).drop start
 { a with idlFilePath := idlFile, name := name }

def getFullName (a : Ast) : Name := a.packageName ++ ['.'] ++ a.name

def setFullName (a : Ast) (fullName : Name) : Ast :=
 (lastIndexOf fullName '.').elim { a with packageName := [], name := fullName } fun index =>
  { a with packageName := fullName.take index, name := fullName.drop (index + 1) }

def parseNamespace : Name → List Name
 | nspaceStr => (nspaceStr.splitOn '.').dropLast

def addType (a : Ast) (t : AstType) : Ast :=
 { a with types := (t.toString, t) :: a.types.filter fun e => e.1 ≠ t.toString }

mutual

def findType : Ast → Name → Option AstType
 | ⟨_, _, _, _, _, _, _, imports, types, _⟩, typeName =>
  if typeName.isEmpty then none
  else (types.lookup typeName).or (findImported imports typeName)

def findImported : List (Name × Ast) → Name → Option AstType
 | [], _ => none
 | (_, a) :: rest, typeName => (findType a typeName).or (findImported rest typeName)

end

def addTypeDefinition (a : Ast) (t : AstType) : Ast :=
 let a := a.addType t
 { a with typeDefinitions := a.typeDefinitions ++ [t] }

def addInterfaceDef (a : Ast) (interface : InterfaceType AstType) : Ast :=
 Ast.addType { a with interfaceDef := some interface } (.interface interface)

def addSequenceableDef (a : Ast) (sequenceable : AstType) : Ast :=
 Ast.addType { a with sequenceableDef := some sequenceable } sequenceable

def addImport (a importAst : Ast) : Bool × Ast :=
 if a.imports.any fun e => e.1 = importAst.getFullName then (false, a)
 else (true, { a with imports := a.imports ++ [(importAst.getFullName, importAst)] })

end Ast

abbrev AstModule := List (Name × Ast)

def AstModule.getAst (m : AstModule) (astName : Name) : Option Ast := m.lookup astName

structure FileDetail where
 idlFilePath : Name
 packageName : Name := []
 imports : List Name := []
 deriving DecidableEq

def FileDetail.addImport (d : FileDetail) (packageName : Name) : Bool × FileDetail :=
 if packageName ∈ d.imports then (false, d)
 else (true, { d with imports := d.imports ++ [packageName] })

end DriversFramework.HdiParser
