import DriversFramework.HdiParserTypes

namespace DriversFramework.HdiParser.Parser

open LoopPrograms LoopPrograms.Prog

def parseLicense : ParserM Bool := do
 let token ← onLexer (Lexer.peekToken false)
 if token ≠ .commentBlock then return false
 else do
  let _ ← onLexer (Lexer.getToken false)
  let comment ← read fun p => p.lexer.comment
  onAst fun a => { a with license := comment }
  return true

def setPackageName (packageFullName : Name) : ParserM Bool := do
 let filePath ← getFilePath
 if packageFullName.isEmpty then do
  logError "Package name is not expected.".toList
  return false
 else if !isValidTypeName packageFullName then do
  logError (format ("Package name '".toList ++ packageFullName ++ "' is illegal.".toList))
  return false
 else if !checkPackageName filePath packageFullName then do
  logError (format ("Package name '".toList ++ packageFullName ++
   "' does not match file apth '".toList ++ filePath ++ "'.".toList))
  return false
 else do
  onAst fun a => { a with packageName := packageFullName }
  return true

def parsePackageName : ParserM Bool := do
 takeToken
 let token ← peekToken
 if token ≠ .identifier then do
  (if token = .semicolon then logError "expected identifier before ';'.".toList
  else logTokenError "'" "' is an invalid package name.")
  skipCurrentLine
  takeToken
  return false
 else do
  takeToken
  let packageFullName ← getIdentifier
  let token ← peekToken
  if token ≠ .semicolon then do
   logTokenError "expected ';' before '" "'"
   return false
  else do
   takeToken
   setPackageName packageFullName

def addImport (packageFullName : Name) : ParserM Bool := do
 let module ← read Parser.astModule
 let ast ← getAst
 if packageFullName.isEmpty then do
  logError "import package name is not expected.".toList
  return false
 else if !isValidTypeName packageFullName then do
  logError (format ("import package name '".toList ++ packageFullName ++ "' is illegal.".toList))
  return false
 else do
  (module.getAst packageFullName).elim
   (do
    logError "not find import ast.".toList
    return false)
   fun importAst =>
    if !(ast.addImport importAst).1 then do
     logError
      (format ("the package '".toList ++ packageFullName ++ "' has been import".toList))
     return false
    else do
     onAst fun a => (a.addImport importAst).2
     return true

def parseImport : ParserM Bool := do
 takeToken
 let token ← peekToken
 if token ≠ .identifier then do
  (if token = .semicolon then logError "expected identifier before ';'.".toList
  else logTokenError "" " is an invalid import package name.")
  skipCurrentLine
  takeToken
  return false
 else do
  takeToken
  let packageFullName ← getIdentifier
  let token ← peekToken
  if token ≠ .semicolon then do
   logTokenError "expected ';' before '" "'."
   return false
  else do
   takeToken
   addImport packageFullName

def sequenceableAst (classFullName : Name) : Ast :=
 let sequenceable := (lastIndexOf classFullName '.').elim
  (AstType.sequenceable classFullName []) fun index =>
   .sequenceable (classFullName.drop (index + 1))
    (Ast.parseNamespace (classFullName.take (index + 1)))
 let ast := (Ast.setFullName {} classFullName).addSequenceableDef sequenceable
 { ast with astFileType := .sequenceable }

def addSequenceable (classFullName : Name) : ParserM Bool := do
 if classFullName.isEmpty then do
  logError "class name is not expected.".toList
  return false
 else if !isValidTypeName classFullName then do
  logError (format ("class name '".toList ++ classFullName ++ "' is illegal.".toList))
  return false
 else do
  onAst fun a => (a.addImport (sequenceableAst classFullName)).2
  return true

def parseSequenceable : ParserM Bool := do
 takeToken
 let token ← peekToken
 if token ≠ .identifier then do
  (if token = .semicolon then logError "expected identifier before ';'.".toList
  else logTokenError "'" "' is not expected.")
  skipCurrentLine
  takeToken
  return false
 else do
  takeToken
  let classFullName ← getIdentifier
  let token ← peekToken
  if token ≠ .semicolon then do
   logTokenError "expected ';' before '" "'."
   return false
  else do
   takeToken
   addSequenceable classFullName

def setAttribute (attributes : Attribute) (token : Token) : Option Attribute :=
 if token = .oneway then some { attributes with isOneWay := true }
 else if token = .callback then some { attributes with isCallback := true }
 else if token = .full then some { attributes with isFull := true }
 else if token = .lite then some { attributes with isLite := true }
 else none

/-- What `ParseAttributeBody` does at a token that cannot stand there. -/
def skipAttributes : ParserM Unit := do
 logTokenError "'" "' is not expected."
 skip ']'
 takeToken

/-- A round of `ParseAttributeBody`; the state is the token that was peeked, and the attributes.
It is left without attributes where the function returns `false`. -/
def attributeRound (s : Token × Attribute) :
  ParserM ((Token × Attribute) ⊕ Option Attribute) := do
 if s.1 = .bracketsRight then return .inr (some s.2)
 else do
  (setAttribute s.2 s.1).elim
   (do
    skipAttributes
    return .inr none)
   fun attributes => do
    takeToken
    let token ← peekToken
    if token = .comma then do
     takeToken
     let token ← peekToken
     return .inl (token, attributes)
    else if token = .bracketsRight then return .inr (some attributes)
    else do
     skipAttributes
     return .inr none

def parseAttributeBody : ParserM (Bool × Option Attribute) := do
 let token ← peekToken
 if token ≠ .bracketsLeft then return (true, none)
 else do
  takeToken
  let token ← peekToken
  let attributes ← loop attributeRound (token, {})
  attributes.elim (return (false, none)) fun attributes => do
   takeToken
   return (true, some attributes)

def parseParamAttr : ParserM (Option ParamAttr) := do
 let token ← peekToken
 if token ≠ .bracketsLeft then do
  logError "'[' is expected.".toList
  let _ ← passUntil [.comma, .parenthesesRight, .endOfFile] token
  return none
 else do
  takeToken
  let token ← peekToken
  if token ≠ .in ∧ token ≠ .out then do
   logTokenError "'" "' is not a parameter property, it must be 'in' or 'out'."
   let _ ← passUntil [.semicolon, .endOfFile] token
   return none
  else do
   takeToken
   let attr := if token = .in then ParamAttr.paramIn else .paramOut
   let token ← peekToken
   if token ≠ .bracketsRight then do
    logError "']' is expected.".toList
    let _ ← passUntil [.semicolon, .endOfFile] token
    return none
   else do
    takeToken
    return some attr

def parseTypedParameter (attr : ParamAttr) (method : Method AstType) :
  ParserM (Bool × Method AstType) := do
 let type ← parseType
 let token ← peekToken
 type.elim
  (do
   let _ ← passUntil [.comma, .parenthesesRight, .endOfFile] token
   return (false, method))
  fun type => do
   if token ≠ .identifier then do
    logError "Parameter name is expected.".toList
    let _ ← passUntil [.comma, .parenthesesRight, .endOfFile] token
    return (false, method)
   else do
    takeToken
    let name ← getIdentifier
    return (true, { method with parameters := method.parameters ++ [⟨name, type, attr⟩] })

def parseParameter (method : Method AstType) : ParserM (Bool × Method AstType) := do
 let attr ← parseParamAttr
 attr.elim (return (false, method)) fun attr => parseTypedParameter attr method

/-- The loop of `ParseParameterList`: the token that was peeked, `ret` and the method. It is left
without them where the function returns `false` from inside it. -/
def parameterRound (s : Token × Bool × Method AstType) :
  ParserM ((Token × Bool × Method AstType) ⊕ Option (Bool × Method AstType)) := do
 if s.1 = .parenthesesRight ∨ s.1 = .endOfFile then return .inr (some s.2)
 else do
  let r ← parseParameter s.2.2
  let token ← peekToken
  if token = .comma then do
   takeToken
   let token ← peekToken
   return .inl (token, r.1 && s.2.1, r.2)
  else if token ≠ .parenthesesRight then do
   logTokenError "'" "' is not expected."
   skipCurrentLineUntil ';'
   takeToken
   return .inr none
  else return .inl (token, r.1 && s.2.1, r.2)

def parseParameterList (method : Method AstType) : ParserM (Option (Method AstType)) := do
 let token ← peekToken
 if token ≠ .parenthesesLeft then do
  logError "'(' is expected.".toList
  skip ';'
  return none
 else do
  takeToken
  let token ← peekToken
  let r ← loop parameterRound (token, true, method)
  r.elim (return none) fun r => do
   takeToken
   if !r.1 then do
    skipCurrentLine
    return none
   else do
    let token ← peekToken
    if token ≠ .semicolon then do
     logError "';' is expected.".toList
     return none
    else do
     takeToken
     return some r.2

/-- The loop with which `ParseMethod` passes a method without a name. -/
def passMethod (token : Token) : ParserM Unit :=
 loop (fun token => do
  if token = .semicolon ∨ token = .endOfFile then return .inr ()
  else do
   let token ← peekToken
   if token = .bracesRight then return .inr ()
   else do
    takeToken
    return .inl token) token

def parseNamedMethod (attributes : Option Attribute) (interface : InterfaceType AstType) :
  ParserM (Bool × InterfaceType AstType) := do
 let token ← peekToken
 if token ≠ .identifier then do
  logError "Method name is expected.".toList
  if token = .bracesRight then return (false, interface)
  else do
   takeToken
   passMethod token
   return (false, interface)
 else do
  takeToken
  let name ← getIdentifier
  let method := attributes.elim ({ name := name } : Method AstType) fun a =>
   { name := name, isOneWay := a.isOneWay, isFull := a.isFull, isLite := a.isLite }
  let method ← parseParameterList method
  method.elim (return (false, interface)) fun method =>
   return (true, { interface with methods := interface.methods ++ [method] })

def parseMethod (interface : InterfaceType AstType) :
  ParserM (Bool × InterfaceType AstType) := do
 let attributes ← parseAttributeBody
 if !attributes.1 then return (false, interface)
 else parseNamedMethod attributes.2 interface

/-- What `ParseInterface` does at a token that cannot stand there. -/
def skipInterface : ParserM Unit := do
 skip '}'
 takeToken

def openInterface (attributes : Option Attribute) :
  ParserM (Option (InterfaceType AstType)) := do
 takeToken
 let token ← peekToken
 if token ≠ .identifier then do
  logTokenError "'" "' is not expected."
  skipInterface
  return none
 else do
  takeToken
  let interfaceName ← getIdentifier
  let token ← peekToken
  if token ≠ .bracesLeft then do
   logTokenError "expected '\x7b' after the '" "'."
   skipInterface
   return none
  else do
   takeToken
   let ast ← getAst
   if interfaceName.isEmpty then do
    logError "interface name is expected.".toList
    return none
   else do
    (if interfaceName ≠ ast.name then
     logError (format ("Module name '".toList ++ ast.name ++
      "' is not equal to interface name  '".toList ++ interfaceName ++ "'.".toList))
    else return ())
    let interface : InterfaceType AstType :=
     { name := interfaceName, nspace := Ast.parseNamespace ast.getFullName,
       license := ast.license }
    return some (attributes.elim interface fun a =>
     { interface with
       isOneWay := a.isOneWay, isCallback := a.isCallback, isFull := a.isFull,
       isLite := a.isLite })

/-- The loop of `ParseInterfaceBody`; the state is `ret` and the interface, and the token behind
it comes out with them. -/
def methodRound (s : Bool × InterfaceType AstType) :
  ParserM ((Bool × InterfaceType AstType) ⊕ (Token × Bool × InterfaceType AstType)) := do
 let token ← peekToken
 if token = .bracesRight ∨ token = .endOfFile then return .inr (token, s)
 else do
  let r ← parseMethod s.2
  return .inl (r.1 && s.1, r.2)

def parseMethods (interface : InterfaceType AstType) :
  ParserM (Token × Bool × InterfaceType AstType) :=
 loop methodRound (true, interface)

def storeInterface (ret : Bool) (interface : InterfaceType AstType) : ParserM Bool := do
 let ast ← getAst
 if ast.interfaceDef.isSome then do
  logError "an interface class already exists int idl file.".toList
  skipEof
  return false
 else do
  onAst fun a => a.addInterfaceDef interface
  return ret

def closeInterface (s : Token × Bool × InterfaceType AstType) : ParserM Bool := do
 if s.1 ≠ .bracesRight then do
  logTokenError "'" "' is not expected."
  skipEof
  return false
 else do
  takeToken
  storeInterface s.2.1 s.2.2

def parseInterfaceBody (interface : InterfaceType AstType) : ParserM Bool := do
 let s ← parseMethods interface
 closeInterface s

def parseInterface (attributes : Option Attribute) : ParserM Bool := do
 let interface ← openInterface attributes
 interface.elim (return false) parseInterfaceBody

def parseAttributed (attributes : Option Attribute) : ParserM Bool := do
 let token ← peekToken
 if token = .enum then parseEnumDefine attributes
 else if token = .struct then parseStructDefine attributes
 else if token = .union then parseUnionDefine attributes
 else if token = .interface then parseInterface attributes
 else do
  logTokenError "'" "' is not expected."
  return false

def parseAttribute : ParserM Bool := do
 let attributes ← parseAttributeBody
 if !attributes.1 then return false else parseAttributed attributes.2

def parseDefinition (token : Token) : ParserM Bool :=
 match token with
 | .package => parsePackageName
 | .import => parseImport
 | .sequenceable => parseSequenceable
 | .bracketsLeft => parseAttribute
 | .interface => parseInterface none
 | .commentLine => do
  takeToken
  return true
 | .enum => parseEnumDefine none
 | .struct => parseStructDefine none
 | .union => parseUnionDefine none
 | _ => do
  logTokenError "'" "' is not expected."
  takeToken
  return false

def fileRound (ret : Bool) : ParserM (Bool ⊕ Bool) := do
 let token ← peekToken
 if token = .endOfFile then return .inr ret
 else do
  let r ← parseDefinition token
  return .inl (r && ret)

def setAstFileType (a : Ast) : Ast :=
 { a with
   astFileType := a.interfaceDef.elim .types fun i => if i.isCallback then .icallback else .iface }

def openFile : ParserM Unit := do
 let filePath ← getFilePath
 onAst fun _ => Ast.setIdlFile {} filePath
 let _ ← parseLicense
 return ()

def parseFile : ParserM Bool := do
 openFile
 let ret ← loop fileRound true
 takeToken
 onAst setAstFileType
 return ret

/-- The state in which a file is opened. -/
def opened (options : Options) (errors : List ErrorInfo) (ast : Ast) (astModule : AstModule)
  (path content : List Char) : Parser :=
 { options := options, errors := errors, ast := ast, astModule := astModule,
   lexer := { currentFile := { source := content, path := path } } }

end DriversFramework.HdiParser.Parser
