import DriversFramework.HdiParser

set_option synthInstance.maxSize 2000

/-! `ParseType` and what it calls take the `ParseType` of the level below as an argument;
`parseType` is the limit over the number of levels. -/
namespace DriversFramework.HdiParser.Parser

open LoopPrograms LoopPrograms.Prog

/-- `IsPrimitiveType`: the tokens from `BOOLEAN` to `FILEDESCRIPTOR`. -/
def isPrimitiveType (t : Token) : Bool :=
 t ∈ [Token.boolean, .byte, .short, .integer, .long, .string, .float, .double, .fileDescriptor]

def checkType (lineNo columnNo : ℕ) (type : AstType) : ParserM Bool := do
 let options ← read Parser.options
 let token ← dumpToken
 if options.targetLanguage = "c".toList then
  if type.typeKind = .sequenceable then do
   logErrorAt lineNo columnNo "The sequenceable type is not supported by c language.".toList
   return false
  else if options.doGenerateKernelCode && decide (type.typeKind ∈
    [TypeKind.float, .double, .fileDescriptor, .interface]) then do
   logErrorAt lineNo columnNo
    (format ("The '".toList ++ token ++ "' type is not supported by c language.".toList))
   return true
  else return true
 else if options.targetLanguage = "java".toList && decide (type.typeKind ∈
   [TypeKind.uchar, .ushort, .uint, .ulong, .enum, .struct, .union]) then do
  logErrorAt lineNo columnNo
   (format ("The '".toList ++ token ++ "' type is not supported by java language.".toList))
  return false
 else return true

def parseUnsignedType (typeLineNo typeColumnNo : ℕ) : ParserM (Option AstType) := do
 let unsignedStr ← dumpToken
 let token ← peekToken
 let dump ← dumpToken
 if token ∈ [Token.char, .short, .integer, .long] then do
  let type ← findType (unsignedStr ++ [' '] ++ dump)
  takeToken
  return type
 else do
  logErrorAt typeLineNo typeColumnNo
   (format ("'unsigned ".toList ++ dump ++ "' type was not declared in the idl file.".toList))
  return none

/-- What `ParseList`, `ParseMap` and `ParseArrayType` do with the type they have built: the one
of that name, or itself. -/
def internType (built : AstType) : ParserM (Option AstType) := do
 let known ← findType built.toString
 if known.isNone then do
  onAst fun a => a.addType built
  return some built
 else return known

def parseList (parseType : ParserM (Option AstType)) : ParserM (Option AstType) := do
 takeToken
 let token ← peekToken
 if token ≠ .angleBracketsLeft then do
  logError "'<' is expected.".toList
  return none
 else do
  takeToken
  let type ← parseType
  type.elim
   (do
    skipCurrentLineUntil '>'
    takeToken
    return none)
   fun type => do
    let token ← peekToken
    if token ≠ .angleBracketsRight then do
     logError "'>' is expected.".toList
     return none
    else do
     takeToken
     internType (.list type)

def parseMapValue (parseType : ParserM (Option AstType)) (keyType : AstType) :
  ParserM (Option AstType) := do
 let token ← peekToken
 if token ≠ .comma then do
  logError "',' is expected.".toList
  return none
 else do
  takeToken
  let valueType ← parseType
  valueType.elim
   (do
    skipCurrentLineUntil '>'
    return none)
   fun valueType => do
    let token ← peekToken
    if token ≠ .angleBracketsRight then do
     logError "'>' is expected.".toList
     return none
    else do
     takeToken
     internType (.map keyType valueType)

def parseMap (parseType : ParserM (Option AstType)) : ParserM (Option AstType) := do
 takeToken
 let token ← peekToken
 if token ≠ .angleBracketsLeft then do
  logError "'<' is expected.".toList
  return none
 else do
  takeToken
  let keyType ← parseType
  keyType.elim
   (do
    skipCurrentLineUntil '>'
    return none)
   fun keyType => parseMapValue parseType keyType

def parseArrayType (elementType : Option AstType) : ParserM (Option AstType) := do
 let token ← peekToken
 if token ≠ .bracketsRight then do
  logError "']' is expected.".toList
  return none
 else do
  takeToken
  elementType.elim (return none) fun elementType => internType (.array elementType)

def parseCustomType : ParserM (Option AstType) := do
 let token ← getToken
 let typePrefix :=
  if token = .enum then "enum".toList
  else if token = .struct then "struct".toList
  else if token = .union then "union".toList
  else []
 let token ← peekToken
 if token ≠ .identifier then do
  logError "custom type name is expected.".toList
  return none
 else do
  let name ← getIdentifier
  takeToken
  let type ← findType (typePrefix ++ [' '] ++ name)
  type.elim (return none) fun type => do
   onAst fun a => a.addType type
   return some type

def finishType (typeLineNo typeColumnNo : ℕ) (type : Option AstType) :
  ParserM (Option AstType) := do
 let dump ← dumpToken
 (if type.isNone then
  logErrorAt typeLineNo typeColumnNo
   (format ("Type '".toList ++ dump ++ "' was not declared in any idl file.".toList))
 else return ())
 let token ← peekToken
 let type ← (if token = .bracketsLeft then do
   takeToken
   parseArrayType type
  else return type)
 type.elim (return none) fun type => do
  let supported ← checkType typeLineNo typeColumnNo type
  if supported then return some type else return none

def parseTypeName (parseType : ParserM (Option AstType)) (typeLineNo typeColumnNo : ℕ)
  (token : Token) : ParserM (Option AstType) :=
 if isPrimitiveType token then do
  takeToken
  let name ← dumpToken
  let type ← findType name
  finishType typeLineNo typeColumnNo type
 else if token = .list then do
  let type ← parseList parseType
  finishType typeLineNo typeColumnNo type
 else if token = .map then do
  let type ← parseMap parseType
  finishType typeLineNo typeColumnNo type
 else if token ∈ [Token.enum, .struct, .union] then do
  let type ← parseCustomType
  finishType typeLineNo typeColumnNo type
 else if token = .identifier then do
  takeToken
  let name ← getIdentifier
  let type ← findType name
  finishType typeLineNo typeColumnNo type
 else if token = .unsigned then do
  takeToken
  let type ← parseUnsignedType typeLineNo typeColumnNo
  finishType typeLineNo typeColumnNo type
 else do
  logErrorAt typeLineNo typeColumnNo "Invalid type name.".toList
  return none

def parseTypeStep (parseType : ParserM (Option AstType)) : ParserM (Option AstType) := do
 let typeLineNo ← read fun p => p.lexer.tokenLineNo
 let typeColumnNo ← read fun p => p.lexer.tokenColumnNo
 let token ← peekToken
 parseTypeName parseType typeLineNo typeColumnNo token

def parseTypeDepth : ℕ → ParserM (Option AstType)
 | 0 => never
 | depth + 1 => parseTypeStep (parseTypeDepth depth)

section under
variable (c d : ParserM (Option AstType)) [Under c d]

instance under_parseList : Under (parseList c) (parseList d) := by
 unfold parseList
 infer_instance

instance under_parseMapValue (keyType : AstType) :
 Under (parseMapValue c keyType) (parseMapValue d keyType) := by
 unfold parseMapValue
 infer_instance

instance under_parseMap : Under (parseMap c) (parseMap d) := by
 unfold parseMap
 infer_instance

instance under_parseTypeName (typeLineNo typeColumnNo : ℕ) (token : Token) :
 Under (parseTypeName c typeLineNo typeColumnNo token)
  (parseTypeName d typeLineNo typeColumnNo token) := by
 unfold parseTypeName
 infer_instance

instance under_parseTypeStep : Under (parseTypeStep c) (parseTypeStep d) := by
 unfold parseTypeStep
 infer_instance

end under

theorem parseTypeDepth_grows (depth : ℕ) :
 Under (parseTypeDepth depth) (parseTypeDepth (depth + 1)) := by
 induction depth with
 | zero => exact under_never _
 | succ depth _ => exact under_parseTypeStep _ _

def parseType : ParserM (Option AstType) := limit parseTypeDepth parseTypeDepth_grows

/-- The branch of `ParseEnumBaseType` for a base type behind a `:`. -/
def setEnumBaseType (type : EnumType AstType) (baseType : AstType) :
  ParserM (Option (EnumType AstType)) := do
 if baseType.typeKind ∈ [TypeKind.byte, .short, .int, .long, .uchar, .ushort, .uint, .ulong] then do
  onAst fun a => a.addType baseType
  return some { type with baseType := some baseType, isDisplayBase := true }
 else do
  logError "invaild base type of enum type".toList
  skipCurrentLineUntil ';'
  return none

/-- The end of `ParseEnumBaseType`: `int`, where there is no base type. -/
def defaultEnumBaseType (type : EnumType AstType) : ParserM (Option (EnumType AstType)) := do
 let int ← findType "int".toList
 if type.baseType.isSome then return some type
 else if int.isNone then do
  onAst fun a => a.addType (.basic .int "int".toList)
  let int ← findType "int".toList
  return some { type with baseType := int }
 else return some { type with baseType := int }

def parseEnumBaseType (type : EnumType AstType) : ParserM (Option (EnumType AstType)) := do
 let token ← peekToken
 if token = .colon then do
  takeToken
  let baseType ← parseType
  baseType.elim
   (do
    logError "no base type of enum type".toList
    skipCurrentLineUntil ';'
    return none)
   fun baseType => do
    let type ← setEnumBaseType type baseType
    type.elim (return none) defaultEnumBaseType
 else defaultEnumBaseType type

/-- The `=` of a member and its number: what the member is, and the token behind it. -/
def parseEnumValue (value : EnumValue AstType) :
  ParserM (Option (Token × EnumValue AstType)) := do
 let token ← peekToken
 if token = .assign then do
  takeToken
  let token ← peekToken
  if token = .digit then do
   let digit ← getDigit
   takeToken
   let token ← peekToken
   return some (token, { value with isDefault := false, value := digit })
  else return none
 else return some (token, value)

/-- A round of `ParseEnumMember`; the state is the token that was peeked, and the type. -/
def enumMemberRound (s : Token × EnumType AstType) :
  ParserM ((Token × EnumType AstType) ⊕ Option (EnumType AstType)) := do
 if s.1 = .bracesRight then return .inr (some s.2)
 else if s.1 ≠ .identifier then do
  skipCurrentLineUntil ';'
  return .inr none
 else do
  let name ← getIdentifier
  takeToken
  let member ← parseEnumValue { name := name }
  member.elim (return .inr none) fun member => do
   let type := { s.2 with
    members := s.2.members ++ [{ member.2 with type := s.2.baseType }] }
   if member.1 = .comma then do
    takeToken
    let token ← peekToken
    return .inl (token, type)
   else if member.1 = .bracesRight then return .inl (.bracesRight, type)
   else do
    skipCurrentLineUntil ';'
    return .inr none

def parseEnumMember (type : EnumType AstType) : ParserM (Option (EnumType AstType)) := do
 let token ← peekToken
 let type ← loop enumMemberRound (token, type)
 type.elim (return none) fun type => do
  takeToken
  return some type

def parseEnumBody (attributes : Option Attribute) (type : EnumType AstType) : ParserM Bool := do
 let token ← peekToken
 if token ≠ .bracesLeft then do
  skipCurrentLineUntil ';'
  return false
 else do
  takeToken
  let type ← parseEnumMember type
  type.elim (return false) fun type => do
   let token ← peekToken
   if token ≠ .semicolon then do
    logTokenError "'" "' is not expected."
    skipCurrentLine
    return false
   else do
    takeToken
    let type := attributes.elim type fun a => { type with isFull := a.isFull, isLite := a.isLite }
    onAst fun ast => ast.addTypeDefinition (.enum type)
    return true

def parseEnumDefine (attributes : Option Attribute) : ParserM Bool := do
 takeToken
 let token ← peekToken
 if token ≠ .identifier then do
  logError "custom enum type name is expected.".toList
  return false
 else do
  let name ← getIdentifier
  takeToken
  let type ← parseEnumBaseType { name := name }
  type.elim (return false) fun type => parseEnumBody attributes type

/-- A round of `ParseStructMember`; the state is the token that was peeked, and the type. -/
def memberRound (s : Token × StructType AstType) :
  ParserM ((Token × StructType AstType) ⊕ Option (StructType AstType)) := do
 if s.1 = .bracesRight then return .inr (some s.2)
 else do
  let member ← parseType
  member.elim
   (do
    skipCurrentLineUntil ';'
    return .inr none)
   fun member => do
    let token ← peekToken
    if token ≠ .identifier then do
     logError "member name is expected.".toList
     return .inr none
    else do
     let memberName ← getIdentifier
     takeToken
     let type := s.2.addMember member memberName
     let token ← peekToken
     if token = .semicolon then do
      takeToken
      let token ← peekToken
      return .inl (token, type)
     else if token = .bracesRight then return .inr (some type)
     else do
      skipCurrentLineUntil ';'
      return .inr none

def parseMembers (type : StructType AstType) : ParserM (Option (StructType AstType)) := do
 let token ← peekToken
 if token ≠ .bracesLeft then do
  skipCurrentLineUntil ';'
  return none
 else do
  takeToken
  let token ← peekToken
  let type ← loop memberRound (token, type)
  type.elim (return none) fun type => do
   takeToken
   let token ← peekToken
   if token ≠ .semicolon then do
    logTokenError "'" "' is not expected."
    skipCurrentLine
    return none
   else do
    takeToken
    return some type

def parseMembersDefine (noName : String) (wrap : StructType AstType → AstType)
  (attributes : Option Attribute) : ParserM Bool := do
 takeToken
 let token ← peekToken
 if token ≠ .identifier then do
  logError noName.toList
  return false
 else do
  let name ← getIdentifier
  takeToken
  let type ← parseMembers { name := name }
  type.elim (return false) fun type => do
   let type := attributes.elim type fun a => { type with isFull := a.isFull, isLite := a.isLite }
   onAst fun ast => ast.addTypeDefinition (wrap type)
   return true

def parseStructDefine : Option Attribute → ParserM Bool :=
 parseMembersDefine "custom struct type name is expected." .struct

def parseUnionDefine : Option Attribute → ParserM Bool :=
 parseMembersDefine "custom union type name is expected." .union

end DriversFramework.HdiParser.Parser
