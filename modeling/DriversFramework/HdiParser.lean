import Mathlib.Algebra.Group.Nat.Defs
import DriversFramework.HdiAst

/-! `parser/parser.cpp`. A function with an out parameter returns what it leaves there; a null
`AutoPtr` is `none`. Where a function of the source has a loop or a long tail, that is a
definition of its own. -/
namespace DriversFramework.HdiParser

open LoopPrograms LoopPrograms.Prog

structure Options where
 targetLanguage : Name
 doGenerateKernelCode : Bool

structure ErrorInfo where
 file : Name
 lineNo : ℕ
 columnNo : ℕ
 message : Name

structure Attribute where
 isOneWay : Bool := false
 isCallback : Bool := false
 isFull : Bool := false
 isLite : Bool := false

structure Parser where
 options : Options
 lexer : Lexer
 errors : List ErrorInfo
 ast : Ast
 astModule : AstModule

abbrev ParserM := Prog Parser

namespace Parser

def onLexer {α : Type} (c : Prog Lexer α) : ParserM α :=
 zoom Parser.lexer (fun p l => { p with lexer := l }) c

def peekToken : ParserM Token := onLexer (Lexer.peekToken true)

def getToken : ParserM Token := onLexer (Lexer.getToken true)

def takeToken : ParserM Unit := do
 let _ ← getToken
 return ()

def skipCurrentLine : ParserM Unit := onLexer Lexer.skipCurrentLine

def skipCurrentLineUntil (untilChar : Char) : ParserM Unit :=
 onLexer (Lexer.skipCurrentLineUntil untilChar)

def skip (untilChar : Char) : ParserM Unit := onLexer (Lexer.skip untilChar)

def skipEof : ParserM Unit := onLexer Lexer.skipEof

def getIdentifier : ParserM Name := read fun p => p.lexer.identifier

def dumpToken : ParserM Name := read fun p => p.lexer.dumpToken

def getFilePath : ParserM Name := read fun p => p.lexer.currentFile.path

/-- `GetDigit`: `atoll`, which stops at the greatest `long long`. -/
def getDigit : ParserM UInt64 := read fun p =>
 UInt64.ofNat (min (p.lexer.digit.foldl (fun n c => n * 10 + (c.toNat - 48)) 0) (2 ^ 63 - 1))

def getAst : ParserM Ast := read Parser.ast

def onAst (f : Ast → Ast) : ParserM Unit := modify fun p => { p with ast := f p.ast }

def logErrorAt (lineNo columnNo : ℕ) (message : Name) : ParserM Unit := modify fun p =>
 let sourceFile := p.lexer.currentFile.path
 let file := (lastIndexOf sourceFile '/').elim sourceFile fun i => sourceFile.drop (i + 1)
 { p with errors := p.errors ++ [⟨file, lineNo, columnNo, message⟩] }

def logError (message : Name) : ParserM Unit := do
 let lineNo ← read fun p => p.lexer.tokenLineNo
 let columnNo ← read fun p => p.lexer.tokenColumnNo
 logErrorAt lineNo columnNo message

/-- An error whose text has the current token between `before` and `after`. -/
def logTokenError (before after : String) : ParserM Unit := do
 let token ← dumpToken
 logError (format (before.toList ++ token ++ after.toList))

def findType (typeName : Name) : ParserM (Option AstType) := read fun p => p.ast.findType typeName

def isValidTypeName (typeName : Name) : Bool :=
 typeName.head? != some '.' && typeName.getLast? != some '.'

def checkPackageName (filePath packageName : Name) : Bool :=
 (lastIndexOf filePath '/').elim false fun index =>
  contains (filePath.take index) (replaceChar packageName '.' '/')

/-- The loops `while (token != …) { GetToken(); token = PeekToken(); }`. -/
def passUntil (stops : List Token) (token : Token) : ParserM Token :=
 loop (fun token => do
  if token ∈ stops then return .inr token
  else do
   takeToken
   let token ← peekToken
   return .inl token) token

def setIdlPackage (packageName : Name) (d : FileDetail) : ParserM (Bool × FileDetail) := do
 let filePath ← getFilePath
 if packageName.isEmpty then do
  logError "Package name is not expected.".toList
  return (false, d)
 else if !isValidTypeName packageName then do
  logError (format ("Package name '".toList ++ packageName ++ "' is illegal.".toList))
  return (false, d)
 else if !checkPackageName filePath packageName then do
  logError (format ("Package name '".toList ++ packageName ++
   "' does not match file apth '".toList ++ filePath ++ "'.".toList))
  return (false, d)
 else return (true, { d with packageName := packageName })

def parseIdlPackage (d : FileDetail) : ParserM (Bool × FileDetail) := do
 takeToken
 let token ← peekToken
 if token ≠ .identifier then do
  (if token = .semicolon then do
   logError "expected identifier before ';'.".toList
   takeToken
  else logTokenError "'" "' is an invalid package name.")
  skipCurrentLine
  return (false, d)
 else do
  takeToken
  let packageName ← getIdentifier
  let token ← peekToken
  if token ≠ .semicolon then do
   logTokenError "expected ';' before '" "'"
   return (false, d)
  else do
   takeToken
   setIdlPackage packageName d

def addIdlImport (importPkgName : Name) (d : FileDetail) : ParserM (Bool × FileDetail) := do
 if importPkgName.isEmpty then do
  logError "import package name is not expected.".toList
  return (false, d)
 else if !isValidTypeName importPkgName then do
  logError (format ("import package name '".toList ++ importPkgName ++ "' is illegal.".toList))
  return (false, d)
 else if !(d.addImport importPkgName).1 then do
  logError (format ("the package of '".toList ++ importPkgName ++ "' has been imported.".toList))
  return (false, d)
 else return d.addImport importPkgName

def parseIdlImport (d : FileDetail) : ParserM (Bool × FileDetail) := do
 takeToken
 let token ← peekToken
 if token ≠ .identifier then do
  (if token = .semicolon then do
   logError "expected identifier before ';'.".toList
   takeToken
  else logTokenError "'" "' is an invalid import package name.")
  skipCurrentLine
  return (false, d)
 else do
  takeToken
  let importPkgName ← getIdentifier
  let token ← peekToken
  if token ≠ .semicolon then do
   logTokenError "expected ';' before '" "'."
   return (false, d)
  else do
   takeToken
   addIdlImport importPkgName d

/-- A round of the loop of `ParseIdlDetail`; the state is `ret` and the detail. -/
def idlDetailRound (r : Bool × FileDetail) :
  ParserM ((Bool × FileDetail) ⊕ (Bool × FileDetail)) := do
 let token ← peekToken
 if token = .endOfFile then return .inr r
 else if token = .package then do
  let q ← parseIdlPackage r.2
  return .inl (q.1 && r.1, q.2)
 else if token = .import then do
  let q ← parseIdlImport r.2
  return .inl (q.1 && r.1, q.2)
 else do
  takeToken
  return .inl r

def parseIdlDetail : ParserM (Bool × FileDetail) := do
 let filePath ← getFilePath
 let r ← loop idlDetailRound (true, { idlFilePath := filePath })
 takeToken
 return r

end Parser
end DriversFramework.HdiParser
