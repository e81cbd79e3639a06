import DriversFramework.HcAstExpand
import DriversFramework.TreeWalks

/-! `TextGen` (`text_gen.cpp`) over the objects that an expansion leaves. A file is the list of what
is put into its stream, where a count goes with what it counts and an identifier with the object
that it stands for. Writing to the stream does not fail. -/
namespace DriversFramework.HcAst

open AstHeap

inductive Count where
 | elements (array : ℕ)
 | instances (template : ℕ)
 | index (template place : ℕ)
 deriving DecidableEq

inductive Insert where
 | text (s : String)
 | name (s : Str)
 /-- The tag of the structure of a node. -/
 | tag (node : ℕ) (s : Str)
 /-- A variable or an array of the file. -/
 | global (object : ℕ) (s : Str)
 /-- `"0x" << std::hex << value`. -/
 | literal (value : UInt64)
 /-- An integer put with `<<`. -/
 | number (count : Count) (value : ℕ)
 /-- `std::to_string`. -/
 | decimal (count : Count) (value : ℕ)
 deriving DecidableEq

def Insert.setsHex : Insert → Bool
 | .literal _ => true
 | _ => false

def hexAfter (hex : Bool) (file : List Insert) : Bool := hex || file.any Insert.setsHex

def strChars (s : Str) : List Char := s.map fun c => Char.ofNat c.toNat

def Insert.print (hex : Bool) : Insert → List Char
 | .text s => s.toList
 | .name s => strChars s
 | .tag _ s => strChars s
 | .global _ s => strChars s
 | .literal value => '0' :: 'x' :: Nat.toDigits 16 value.toNat
 | .number _ value => Nat.toDigits (if hex then 16 else 10) value
 | .decimal _ value => Nat.toDigits 10 value

def fileText (hex : Bool) : List Insert → List Char
 | [] => []
 | insert :: file => insert.print hex ++ fileText (hex || insert.setsHex) file

def indent (times : ℕ) : Insert := .text (String.ofList (List.replicate (4 * times) ' '))

def underLine : UInt8 := 0x5F

def toUpper (c : UInt8) : UInt8 := if 0x61 ≤ c ∧ c ≤ 0x7A then c - 0x20 else c

def toLower (c : UInt8) : UInt8 := if 0x41 ≤ c ∧ c ≤ 0x5A then c + 0x20 else c

def toCamelFrom : UInt8 → Str → Str
 | _, [] => []
 | cb, c :: str =>
  if c = underLine then toCamelFrom c str
  else (if cb = underLine then toUpper c else c) :: toCamelFrom c str

def toCamelString (str : Str) : Str := if underLine ∈ str then toCamelFrom 0 str else str

def toUpperCamelString (str : Str) : Str := (toCamelString str).modifyHead toUpper

def toLowerCamelString (str : Str) : Str := (toCamelString str).modifyHead toLower

def toStr (n : ℕ) : Str := (Nat.toDigits 10 n).map fun c => UInt8.ofNat c.toNat

def defaultPrefix : Str := [0x48, 0x64, 0x66, 0x43, 0x6F, 0x6E, 0x66, 0x69, 0x67]

def globalMark : Str := [0x67, 0x5F]

def moduleRootName : Str := [0x4D, 0x6F, 0x64, 0x75, 0x6C, 0x65, 0x52, 0x6F, 0x6F, 0x74]

def configArrayName : Str :=
 [0x67, 0x5F, 0x68, 0x63, 0x73, 0x43, 0x6F, 0x6E, 0x66, 0x69, 0x67, 0x41, 0x72, 0x72, 0x61, 0x79]

structure TextOption where
 symbolPrefix : Str
 outputNameBase : Str

/-- The tree, and what `Initialize` sets. `alive` says which objects a weak pointer still finds. -/
structure TextGen where
 h : AstHeap
 astRoot : ℕ
 alive : ℕ → Bool
 namePrefix : Str
 moduleName : Str
 rootVariableName : Str
 outputNameBase : Str

structure TextSymbol where
 object : ℕ
 duplicateCount : ℕ
 deriving DecidableEq

/-- `out` is the file so far; `templateSignNum` and `sigNum` are kept in the nodes and the terms. -/
structure TextState where
 out : List Insert
 symbolSet : List Str
 symMap : Str → Option TextSymbol
 templateSignNum : ℕ → ℕ
 sigNum : ℕ → ℕ

abbrev TextResult := Except Stop TextState

def TextState.put (s : TextState) (inserts : List Insert) : TextState :=
 { s with out := s.out ++ inserts }

def TextState.setSymbol (s : TextState) (name : Str) (symbol : TextSymbol) : TextState :=
 { s with symMap := Function.update s.symMap name (some symbol) }

def symbolAdd (s : TextState) (name : Str) (object : ℕ) : TextState :=
 match s.symMap name with
 | some symbol =>
  s.setSymbol name { symbol with duplicateCount := symbol.duplicateCount + 1 }
 | none => s.setSymbol name ⟨object, 1⟩

def elderIs (h : AstHeap) (test : AstObject → Bool) : ℕ → Option ℕ → Bool
 | _, none => false
 | 0, some _ => false
 | rounds + 1, some p => test (h.get p) || elderIs h test rounds (h.get p).parent

def AstObject.isTemplate (o : AstObject) : Bool := o.isNode && o.nodeType = .template

def AstObject.isInherit (o : AstObject) : Bool := o.isNode && o.nodeType = .inherit

def isInTemplate (h : AstHeap) (object : ℕ) : Bool :=
 elderIs h AstObject.isTemplate h.size (h.get object).parent

def isInSubClassNode (h : AstHeap) (object : ℕ) : Bool :=
 elderIs h AstObject.isInherit h.size (some object)

def AstObject.shownSize (o : AstObject) : ℕ := o.arraySize.toUInt16.toNat

def typeToStr (type : ℕ) : String :=
 match type with
 | 1 => "uint8_t"
 | 2 => "uint16_t"
 | 3 => "uint32_t"
 | 4 => "uint64_t"
 | 5 => "const char*"
 | _ => ""

section generator
variable (g : TextGen)

def genConfigStructName (node : ℕ) : Str :=
 toUpperCamelString g.namePrefix ++ toUpperCamelString g.moduleName ++
  toUpperCamelString (g.h.get node).name

def TextGen.structTag (node : ℕ) : Insert := .tag node (genConfigStructName g node)

def TextGen.nameOf (object : ℕ) : Insert := .name (g.h.get object).name

def TextGen.lowerNameOf (object : ℕ) : Insert := .name (toLowerCamelString (g.h.get object).name)

def TextGen.lockRefNode (term : ℕ) : Option ℕ := (g.h.get term).refNode.filter g.alive

def TextGen.children (object : ℕ) : List ℕ := (g.h.get object).children

def genTermDefinition (s : TextState) (term : ℕ) : TextResult :=
 match g.h.child term with
 | none => .error .crash
 | some value =>
  let o := g.h.get value
  match o.type with
  | .array =>
   if isInTemplate g.h term then
    .ok (s.put [indent 1, .text "const ", .text (typeToStr o.arrayType), .text "* ",
     g.nameOf term, .text ";\n", indent 1, .text "uint32_t ", g.nameOf term, .text "Size;\n"])
   else
    .ok (s.put [indent 1, .text (typeToStr o.arrayType), .text " ", g.nameOf term, .text "[",
     .number (.elements value) o.shownSize, .text "];\n"])
  | .uint8 | .uint16 | .uint32 | .uint64 | .string =>
   .ok (s.put [indent 1, .text (typeToStr o.type.code), .text " ", g.nameOf term, .text ";\n"])
  | .nodeRef =>
   match g.lockRefNode term with
   | none => .error .crash
   | some ref =>
    .ok (s.put [indent 1, .text "const struct ", g.structTag ref, .text "* ", g.nameOf term,
     .text ";\n"])
  | _ => .ok s

def genObjectDefinitionGen (s : TextState) (object : ℕ) : TextResult :=
 let o := g.h.get object
 if o.isNode then
  match o.nodeType with
  | .template =>
   .ok (s.put [indent 1, .text "const struct ", g.structTag object, .text "* ",
    g.lowerNameOf object, .text ";\n", indent 1, .text "uint16_t ", g.lowerNameOf object,
    .text "Size;\n"])
  | .inherit => .ok s
  | _ =>
   .ok (s.put [indent 1, .text "struct ", g.structTag object, .text " ", g.lowerNameOf object,
    .text ";\n"])
 else if o.isTerm then genTermDefinition g s object
 else .ok s

def genNodeDefinition (s : TextState) (node : ℕ) : TextResult :=
 let structName := genConfigStructName g node
 if s.symbolSet.contains structName then .ok s
 else do
  let s := { s with symbolSet := structName :: s.symbolSet }
  let s := s.put [.text "struct ", g.structTag node, .text " \x7b\n"]
  let s ← (g.h.get node).children.foldlM (genObjectDefinitionGen g) s
  return s.put [.text "\x7d;\n\n"]

def headerAt (s : TextState) (current : ℕ) : TextResult :=
 if (g.h.get current).isNode ∧ (g.h.get current).nodeType ≠ .inherit then
  genNodeDefinition g s current
 else .ok s

def headerProtectMacro : Insert :=
 .name ([0x48, 0x43, 0x53, 0x5F, 0x43, 0x4F, 0x4E, 0x46, 0x49, 0x47, 0x5F] ++
  g.outputNameBase.map toUpper ++ [0x5F, 0x48, 0x45, 0x41, 0x44, 0x45, 0x52, 0x5F, 0x48])

def fileHeadComment : Insert :=
 .text "/*\n * This is an automatically generated HDF config file. Do not modify it manually.\n */\n\n"

def rootFunction : List Insert :=
 [.text "const struct ", .name (toUpperCamelString g.namePrefix), .name g.moduleName,
  .text "Root* HdfGet", .name g.moduleName, .text "ModuleConfigRoot(void)"]

def headerOutput (levels : ℕ) (s : TextState) : TextResult := do
 let s := s.put [fileHeadComment, .text "#ifndef ", headerProtectMacro g, .text "\n",
  .text "#define ", headerProtectMacro g, .text "\n\n", .text "#include <stdint.h>\n\n"]
 let s ← TreeWalks.walkBackward g.children .noReturn (headerAt g) levels s g.astRoot
 let s := s.put (rootFunction g ++ [.text ";\n"])
 return s.put [.text "\n#endif // ", headerProtectMacro g, .text "\n"]

def genTemplateVariableName (s : TextState) (object : ℕ) : Str × TextState :=
 let name := toUpperCamelString (g.h.get object).name
 let s :=
  match s.symMap name with
  | none => symbolAdd s name object
  | some symbol =>
   if symbol.object ≠ object ∧ s.templateSignNum object = 0 then
    let count := symbol.duplicateCount + 1
    { s.setSymbol name { symbol with duplicateCount := count } with
      templateSignNum := Function.update s.templateSignNum object count }
   else s
 if s.templateSignNum object ≠ 0 then
  (globalMark ++ g.namePrefix ++ name ++ toStr (s.templateSignNum object), s)
 else (globalMark ++ g.namePrefix ++ name, s)

def genArrayName (s : TextState) (term : ℕ) : Str × TextState :=
 let arrayName := configArrayName ++ toUpperCamelString (g.h.get term).name
 let s :=
  match s.symMap arrayName with
  | none =>
   let s := symbolAdd s arrayName term
   { s with sigNum := Function.update s.sigNum term 1 }
  | some symbol =>
   if s.sigNum term = 0 then
    let count := symbol.duplicateCount + 1
    { s.setSymbol arrayName { symbol with duplicateCount := count } with
      sigNum := Function.update s.sigNum term count }
   else s
 (arrayName ++ toStr (s.sigNum term), s)

def printBaseTypeValue (object : ℕ) : List Insert :=
 let o := g.h.get object
 match o.type with
 | .uint8 | .uint16 | .uint32 | .uint64 => [.literal o.integerValue]
 | .string => [.text "\"", .name o.stringValue, .text "\""]
 | _ => []

def elementPerLine : ℕ := 16

def hcsPrintElements (times : ℕ) : ℕ → List ℕ → List Insert
 | _, [] => []
 | elementCount, element :: elements =>
  printBaseTypeValue g element ++
   (if elementPerLine ≤ elementCount then [.text "\n", indent times] else []) ++
   (if elements = [] then [] else [.text ", "]) ++
   hcsPrintElements times (elementCount + 1) elements

def hcsPrintArrayContent (array times : ℕ) : List Insert :=
 hcsPrintElements g times 0 (g.h.get array).children

def pathFromRoot : ℕ → Option ℕ → Except Stop (List Str)
 | _, none => .error .crash
 | 0, some _ => .error .noReturn
 | rounds + 1, some p =>
  if p = g.astRoot then .ok []
  else do
   let path ← pathFromRoot rounds (g.h.get p).parent
   return path ++ [(g.h.get p).name]

def hcsBuildObjectPath (object : Option ℕ) : Except Stop Str := do
 let path ← pathFromRoot g g.h.size object
 return g.rootVariableName ++ path.flatMap fun name => dot :: name

def printArrayImplInSubClass (s : TextState) (term value depth : ℕ) : TextState :=
 let named := genArrayName g s term
 named.2.put [indent depth, .text ".", g.nameOf term, .text " = ", .global term named.1,
  .text ",\n", indent depth, .text ".", g.nameOf term, .text "Size = ",
  .decimal (.elements value) (g.h.get value).shownSize, .text ",\n"]

def printArrayImplement (s : TextState) (term value depth : ℕ) : TextState :=
 if isInSubClassNode g.h term then printArrayImplInSubClass g s term value depth
 else
  s.put ([indent depth, .text ".", g.nameOf term, .text " = \x7b "] ++
   hcsPrintArrayContent g value (depth + 1) ++ [.text " \x7d,\n"])

def printTermImplement (s : TextState) (term depth : ℕ) : TextResult :=
 match g.h.child term with
 | none => .error .crash
 | some value =>
  match (g.h.get value).type with
  | .uint8 | .uint16 | .uint32 | .uint64 | .string =>
   .ok (s.put ([indent depth, .text ".", g.nameOf term, .text " = "] ++
    printBaseTypeValue g value ++ [.text ",\n"]))
  | .array => .ok (printArrayImplement g s term value depth)
  | .nodeRef => do
   let refPath ← hcsBuildObjectPath g (g.lockRefNode term)
   return s.put [indent depth, .text ".", g.nameOf term, .text " = &", .name refPath,
    .text ",\n"]
  | _ => .ok s

def templateObjectImplGen (s : TextState) (object depth : ℕ) : TextState :=
 if (g.h.get object).nodeType ≠ .template then s
 else
  let named := genTemplateVariableName g s object
  let inheritCount := (g.h.get object).inheritCount
  named.2.put ([indent depth, .text ".", g.lowerNameOf object, .text " = "] ++
   (if inheritCount ≠ 0 then [.global object named.1] else [.text "0"]) ++
   [.text ",\n", indent depth, .text ".", g.lowerNameOf object, .text "Size = ",
    .number (.instances object) inheritCount.toNat, .text ",\n"])

def objectImplementGen (s : TextState) (object depth : ℕ) : Except Stop (Bool × TextState) :=
 let o := g.h.get object
 if o.isNode then
  if o.nodeType ≠ .noRef then .ok (false, templateObjectImplGen g s object depth)
  else
   .ok (true, s.put ([indent depth, .text ".", g.nameOf object, .text " = \x7b\n"] ++
    if o.children = [] then [indent depth, .text "\x7d,\n"] else []))
 else if o.isTerm then do
  let s ← printTermImplement g s object depth
  return (true, s)
 else .ok (true, s)

def implementCloseBraceGen (s : TextState) (object depth : ℕ) : TextResult :=
 let o := g.h.get object
 if ¬ o.isNode ∨ o.nodeType = .inherit then .ok s
 else if object = g.astRoot then .ok (s.put [.text "\x7d;\n"])
 else .ok (s.put [indent depth, .text "\x7d,\n"])

def arrayVariablesDeclareGen (s : TextState) (term value : ℕ) : TextState :=
 if isInSubClassNode g.h term then
  let named := genArrayName g s term
  let o := g.h.get value
  named.2.put ([.text "static const ", .text (typeToStr o.arrayType), .text " ",
   .global term named.1, .text "[", .number (.elements value) o.shownSize,
   .text "] = \x7b\n", indent 1] ++ hcsPrintArrayContent g value 1 ++ [.text "\n\x7d;\n\n"])
 else s

def declareAt (s : TextState) (object : ℕ) : TextResult :=
 let o := g.h.get object
 if o.isTerm then
  match g.h.child object with
  | none => .error .crash
  | some value =>
   if (g.h.get value).type = .array then .ok (arrayVariablesDeclareGen g s object value)
   else .ok s
 else if o.isTemplate ∧ o.inheritCount ≠ 0 then
  let named := genTemplateVariableName g s object
  .ok (named.2.put [.text "static const struct ", g.structTag object, .text " ",
   .global object named.1, .text "[];\n\n"])
 else .ok s

/-- `TemplateVariableGen` of an instance, in its place of the array. -/
def instanceAt (levels template : ℕ) (s : TextState) (subClass : ℕ × ℕ) : TextResult := do
 let o := g.h.get subClass.1
 let s := s.put [indent 1, .text "[", .number (.index template subClass.2) o.inheritIndex.toNat,
  .text "] = \x7b\n"]
 let s ← o.children.foldlM
  (TreeWalks.walkRound g.children .noReturn
   (fun s o depth => objectImplementGen g s o (depth + 2))
   (fun s o depth => implementCloseBraceGen g s o (depth + 2)) levels 0) s
 return s.put [indent 1, .text "\x7d,\n"]

def templateAt (levels : ℕ) (s : TextState) (object : ℕ) : TextResult :=
 let o := g.h.get object
 if o.isTemplate ∧ o.inheritCount ≠ 0 then do
  let named := genTemplateVariableName g s object
  let s := named.2.put [.text "static const struct ", g.structTag object, .text " ",
   .global object named.1, .text "[] = \x7b\n"]
  let s ← o.subClasses.zipIdx.foldlM (instanceAt g levels object) s
  return s.put [.text "\x7d;\n\n"]
 else .ok s

def implementGenTraversal (s : TextState) (object depth : ℕ) : Except Stop (Bool × TextState) :=
 let o := g.h.get object
 if ¬ o.isNode ∧ ¬ o.isTerm then .ok (true, s)
 else if o.isTerm ∧ isInSubClassNode g.h object then .ok (true, s)
 else if object = g.astRoot then
  .ok (true, s.put ([.text "static const struct ", g.structTag object, .text " ",
   .global object g.rootVariableName, .text " = \x7b\n"] ++
   if o.children = [] then [.text "\x7d;\n"] else []))
 else objectImplementGen g s object depth

def implOutput (levels : ℕ) (s : TextState) : TextResult := do
 let s := s.put [fileHeadComment, .text "#include \"", .name g.outputNameBase, .text ".h\"\n\n"]
 let s ← TreeWalks.walkBackward g.children .noReturn (declareAt g) levels s g.astRoot
 let s ← TreeWalks.walkBackward g.children .noReturn (templateAt g levels) levels s g.astRoot
 let s ← TreeWalks.walkRound g.children .noReturn (implementGenTraversal g)
  (implementCloseBraceGen g) levels 0 s g.astRoot
 return s.put ([.text "\n"] ++ rootFunction g ++ [.text "\n\x7b\n", indent 1, .text "return &",
  .global g.astRoot g.rootVariableName, .text ";\n\x7d\n"])

def duplicateNodeNameAt (names : List Str) (current : ℕ) : Except Stop (List Str) :=
 let o := g.h.get current
 if ¬ o.isNode ∨ isInSubClassNode g.h current then .ok names
 else if names.contains o.name then .error .returnsFalse
 else .ok (o.name :: names)

end generator

def TextGen.initialize (option : TextOption) (alive : ℕ → Bool) (ast : Ast) :
  Except Stop TextGen :=
 match ast.heap.lookupChild ast.astRoot Ast.moduleName (some .confTerm) with
 | none => .error .returnsFalse
 | some moduleTerm =>
  match ast.heap.child moduleTerm with
  | none => .error .crash
  | some value =>
   let namePrefix := toLowerCamelString
    (if option.symbolPrefix = [] then defaultPrefix else option.symbolPrefix)
   let moduleName := toUpperCamelString (ast.heap.get value).stringValue
   .ok ⟨ast.heap, ast.astRoot, alive, namePrefix, moduleName,
    globalMark ++ namePrefix ++ moduleName ++ moduleRootName, option.outputNameBase⟩

/-- The header and the code, in the order in which one stream writes them. -/
structure TextFiles where
 header : List Insert
 impl : List Insert

/-- `Output`. The symbols are forgotten between the files. -/
def textOutput (option : TextOption) (alive : ℕ → Bool) (levels : ℕ) (ast : Ast) :
  Except Stop TextFiles := do
 let g ← TextGen.initialize option alive ast
 let _ ← TreeWalks.walkForward g.children .noReturn (duplicateNodeNameAt g) levels [] g.astRoot
 let header ← headerOutput g levels ⟨[], [], fun _ => none, fun _ => 0, fun _ => 0⟩
 let impl ← implOutput g levels { header with out := [], symMap := fun _ => none }
 return ⟨header.out, impl.out⟩

end DriversFramework.HcAst
