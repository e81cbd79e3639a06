import DriversFramework.LoopPrograms

/-! `util/file.cpp` and `parser/lexer.cpp`. A `char` is the character with its byte's value; as it
is signed, the byte 0xFF is -1. A read of the file is taken to succeed (`isError_`). -/
namespace DriversFramework.HdiParser

open LoopPrograms

def endOfBuffer : Char := Char.ofNat 0xFF

def bufferSize : ℕ := 1024

/-- `source` is what `fread` has not given yet, `buffer` what the last one wrote. -/
structure File where
 buffer : List Char := []
 size : ℕ := 0
 position : ℕ := 0
 columnNo : ℕ := 1
 lineNo : ℕ := 1
 isEofFlag : Bool := false
 source : List Char
 path : List Char
 deriving DecidableEq

namespace File

/-- `buffer_[position_]`; a byte that was not written is zero. -/
def current (f : File) : Char := f.buffer.getD f.position '\x00'

def isEof (f : File) : Bool := f.isEofFlag || f.current == endOfBuffer

/-- `Read`: the result is -1 where it is `false`. -/
def read (f : File) : Bool × File :=
 if f.isEofFlag then (false, f)
 else
  let bytes := f.source.take (bufferSize - 1)
  let count := bytes.length
  let buffer := if count < bufferSize - 1 then bytes ++ [endOfBuffer] else bytes
  (count ≠ 0,
   { f with buffer := buffer, size := count, position := 0, source := f.source.drop count })

def peekChar (f : File) : Char × File :=
 let f :=
  if f.position + 1 > f.size then
   let r := f.read
   if r.1 then r.2 else { r.2 with isEofFlag := true }
  else f
 (f.current, f)

/-- The position and the place in the text behind the byte `c`. -/
def advance (f : File) (c : Char) : File :=
 let f := { f with position := f.position + 1 }
 if c ≠ '\n' then { f with columnNo := f.columnNo + 1 }
 else { f with columnNo := 0, lineNo := f.lineNo + 1 }

def getChar (f : File) : Char × File :=
 let r := f.peekChar
 (r.1, if r.2.position + 1 ≤ r.2.size then r.2.advance r.1 else r.2)

/-- The bytes that are not read yet, and one for the end. -/
def left (f : File) : ℕ := if f.isEofFlag then 0 else f.size - f.position + f.source.length + 1

theorem peekChar_left (f : File) : f.peekChar.2.left = f.left ∨
 (f.peekChar.2.left = 0 ∧ f.peekChar.2.isEofFlag = true) := by
 unfold peekChar read
 by_cases behind : f.position + 1 > f.size
 · cases flag : f.isEofFlag with
   | true =>
    right
    simp [behind, left]
   | false =>
    cases rest : f.source with
    | nil =>
     right
     simp [behind, left]
    | cons c cs =>
     left
     simp [behind, left, flag, rest, bufferSize]
     omega
 · left
   simp [behind]

theorem peekChar_left_le (f : File) : f.peekChar.2.left ≤ f.left := by
 obtain same | ⟨zero, _⟩ := f.peekChar_left
 · exact Nat.le_of_eq same
 · omega

theorem peekChar_inside (f : File) (kept : f.peekChar.2.isEofFlag = false)
 (unseen : f.isEofFlag = false) :
 f.peekChar.2.position + 1 ≤ f.peekChar.2.size := by
 unfold peekChar read at kept ⊢
 by_cases behind : f.position + 1 > f.size
 · cases rest : f.source with
   | nil => simp [behind, unseen, rest] at kept
   | cons c cs => simp [behind, unseen, bufferSize]
 · simp [behind]
   omega

theorem advance_left (f : File) (c : Char) : (f.advance c).left =
 if f.isEofFlag then 0 else f.size - (f.position + 1) + f.source.length + 1 := by
 unfold advance left
 split <;> rfl

theorem getChar_left_le_peek (f : File) : f.getChar.2.left ≤ f.peekChar.2.left := by
 unfold getChar
 by_cases inside : f.peekChar.2.position + 1 ≤ f.peekChar.2.size
 · simp only [inside, if_true, advance_left]
   unfold left
   split <;> omega
 · simp [inside]

theorem getChar_left_le (f : File) : f.getChar.2.left ≤ f.left :=
 Nat.le_trans f.getChar_left_le_peek f.peekChar_left_le

theorem getChar_left_lt (f : File) (unseen : f.isEofFlag = false) :
 f.getChar.2.left < f.left := by
 have positive : 0 < f.left := by
  unfold left
  simp [unseen]
 obtain same | ⟨zero, _⟩ := f.peekChar_left
 · rw [← same]
   have kept : f.peekChar.2.isEofFlag = false := by
    by_contra seen
    have none : f.peekChar.2.left = 0 := by
     unfold left
     simp [seen]
    omega
   have inside : f.peekChar.2.position + 1 ≤ f.peekChar.2.size := f.peekChar_inside kept unseen
   unfold getChar
   simp only [inside, if_true, advance_left, kept]
   unfold left
   simp only [kept, Bool.false_eq_true, if_false]
   omega
 · have less := f.getChar_left_le_peek
   omega

end File

inductive Token where
 | unknown | void | boolean | byte | short | integer | long | string | float | double
 | fileDescriptor | list | map | char | unsigned | struct | enum | union | package
 | sequenceable | import | interface | extends | oneway | callback | full | lite | in | out
 | dot | comma | colon | assign | semicolon | bracesLeft | bracesRight | bracketsLeft
 | bracketsRight | parenthesesLeft | parenthesesRight | angleBracketsLeft | angleBracketsRight
 | identifier | digit | commentBlock | commentLine | endOfFile
 deriving DecidableEq

abbrev Name := List Char

def keywords : List (Name × Token) :=
 [("boolean".toList, .boolean), ("byte".toList, .byte), ("callback".toList, .callback),
  ("char".toList, .char), ("double".toList, .double), ("enum".toList, .enum),
  ("extends".toList, .extends), ("float".toList, .float), ("full".toList, .full),
  ("import".toList, .import), ("in".toList, .in), ("int".toList, .integer),
  ("interface".toList, .interface), ("List".toList, .list), ("lite".toList, .lite),
  ("long".toList, .long), ("Map".toList, .map), ("oneway".toList, .oneway),
  ("out".toList, .out), ("package".toList, .package), ("sequenceable".toList, .sequenceable),
  ("short".toList, .short), ("String".toList, .string), ("struct".toList, .struct),
  ("union".toList, .union), ("unsigned".toList, .unsigned),
  ("FileDescriptor".toList, .fileDescriptor)]

def delimiters : List (Char × Token) :=
 [('<', .angleBracketsLeft), ('>', .angleBracketsRight), ('{', .bracesLeft),
  ('}', .bracesRight), ('[', .bracketsLeft), (']', .bracketsRight), (',', .comma),
  ('(', .parenthesesLeft), (')', .parenthesesRight), ('.', .dot), (':', .colon),
  (';', .semicolon), ('=', .assign)]

def tokenDumps : List (Token × Name) :=
 [(.angleBracketsLeft, "<".toList), (.angleBracketsRight, ">".toList),
  (.boolean, "boolean".toList), (.bracesLeft, "\x7b".toList), (.bracesRight, "\x7d".toList),
  (.bracketsLeft, "[".toList), (.bracketsRight, "]".toList), (.byte, "byte".toList),
  (.callback, "callback".toList), (.char, "char".toList), (.colon, ":".toList),
  (.comma, ",".toList), (.dot, ".".toList), (.double, "double".toList),
  (.endOfFile, "eof".toList), (.enum, "enum".toList), (.extends, "extends".toList),
  (.float, "float".toList), (.full, "full".toList), (.import, "import".toList),
  (.in, "in".toList), (.integer, "int".toList), (.interface, "interface".toList),
  (.lite, "lite".toList), (.list, "List".toList), (.long, "long".toList),
  (.map, "Map".toList), (.oneway, "oneway".toList), (.out, "out".toList),
  (.package, "package".toList), (.sequenceable, "sequenceable".toList),
  (.struct, "struct".toList), (.parenthesesLeft, "(".toList), (.parenthesesRight, ")".toList),
  (.semicolon, ";".toList), (.short, "short".toList), (.string, "String".toList),
  (.union, "union".toList), (.unsigned, "unsigned".toList),
  (.fileDescriptor, "FileDescriptor".toList)]

def isAlphabet (c : Char) : Bool := ('a' ≤ c && c ≤ 'z') || ('A' ≤ c && c ≤ 'Z')

def isDecimalDigital (c : Char) : Bool := '0' ≤ c && c ≤ '9'

def isSpace (c : Char) : Bool := c = ' ' || ('\t' ≤ c && c ≤ '\r')

structure Lexer where
 currentToken : Token := .unknown
 tokenLineNo : ℕ := 0
 tokenColumnNo : ℕ := 0
 identifier : Name := []
 digit : Name := []
 comment : Name := []
 havePeek : Bool := false
 currentFile : File
 deriving DecidableEq

open Prog

/-- `while (!currentFile_->IsEof())`: the rounds of `body`, and what `b` holds behind them. -/
def untilEof {α : Type} (body : α → Prog File (α ⊕ α)) (b : α) : Prog File α :=
 loop (fun b => do
  let eof ← read File.isEof
  if eof then return .inr b else body b) b

namespace Lexer

def onFile {α : Type} (c : Prog File α) : Prog Lexer α :=
 zoom Lexer.currentFile (fun l f => { l with currentFile := f }) c

def setToken (t : Token) : Prog Lexer Token := step fun l => (t, { l with currentToken := t })

def readKey : Name → Prog File Name :=
 untilEof fun key => do
  let c ← step File.peekChar
  if isAlphabet c || c = '_' || isDecimalDigital c || c = '.' then do
   let c ← step File.getChar
   return .inl (key ++ [c])
  else if isSpace c then do
   let _ ← step File.getChar
   return .inr key
  else return .inr key

def readIdentifier (c : Char) : Prog Lexer Token := do
 let key ← onFile (readKey [c])
 (keywords.lookup key).elim
  (step fun l => (.identifier, { l with identifier := key, currentToken := .identifier }))
  setToken

def readDigits : Name → Prog File Name :=
 untilEof fun digit => do
  let c ← step File.peekChar
  if isDecimalDigital c then do
   let c ← step File.getChar
   return .inl (digit ++ [c])
  else return .inr digit

def readDecimalDigital (c : Char) : Prog Lexer Token := do
 let digit ← onFile (readDigits [c])
 step fun l => (.digit, { l with digit := digit, currentToken := .digit })

def readLine : Name → Prog File Name :=
 untilEof fun comment => do
  let c ← step File.getChar
  if c = '\n' then return .inr comment else return .inl (comment ++ [c])

def readLineComment (c : Char) : Prog Lexer Token := do
 let comment ← onFile (readLine [c])
 step fun l => (.commentLine, { l with comment := comment, currentToken := .commentLine })

def readBlock : Name → Prog File Name :=
 untilEof fun comment => do
  let c ← step File.getChar
  if c = '*' then do
   let d ← step File.peekChar
   if d = '/' then do
    let d ← step File.getChar
    return .inr (comment ++ [c, d])
   else return .inl (comment ++ [c])
  else return .inl (comment ++ [c])

def readBlockComment (c : Char) : Prog Lexer Token := do
 let comment ← onFile (readBlock [c])
 step fun l => (.commentBlock, { l with comment := comment, currentToken := .commentBlock })

/-- The part of a round of `ReadToken` behind a character that starts no name, number or
delimiter. -/
def readOther (skipComment : Bool) (c : Char) : Prog Lexer (Unit ⊕ Token) := do
 if c = '/' then do
  let d ← onFile (step File.peekChar)
  if d = '/' then do
   let t ← readLineComment c
   if skipComment then return .inl () else return .inr t
  else if d = '*' then do
   let t ← readBlockComment c
   if skipComment then return .inl () else return .inr t
  else do
   let t ← setToken .unknown
   return .inr t
 else do
  let t ← setToken .unknown
  return .inr t

def readTokenRound (skipComment : Bool) : Prog Lexer (Unit ⊕ Token) := do
 let eof ← read fun l => l.currentFile.isEof
 if eof then do
  let t ← setToken .endOfFile
  return .inr t
 else do
  let c ← onFile (step File.getChar)
  modify fun l => { l with
   tokenLineNo := l.currentFile.lineNo, tokenColumnNo := l.currentFile.columnNo }
  if isSpace c then return .inl ()
  else if isAlphabet c || c = '_' then do
   let t ← readIdentifier c
   return .inr t
  else if isDecimalDigital c then do
   let t ← readDecimalDigital c
   return .inr t
  else (delimiters.lookup c).elim (readOther skipComment c) fun t => return .inr t

def readToken (skipComment : Bool) : Prog Lexer Token :=
 loop (fun _ => readTokenRound skipComment) ()

def getToken (skipComment : Bool) : Prog Lexer Token := do
 let havePeek ← read fun l => l.havePeek
 if havePeek then
  step fun l => (l.currentToken, { l with havePeek := false })
 else do
  let t ← readToken skipComment
  step fun l => (t, { l with currentToken := t, havePeek := false })

def peekToken (skipComment : Bool) : Prog Lexer Token := do
 let havePeek ← read fun l => l.havePeek
 if havePeek then
  read fun l => l.currentToken
 else do
  let t ← readToken skipComment
  step fun l => (t, { l with currentToken := t, havePeek := true })

def skipCurrentLine : Prog Lexer Unit :=
 onFile (untilEof (fun _ => do
  let c ← step File.getChar
  if c = '\n' then do
   let _ ← step File.getChar
   return .inr ()
  else return .inl ()) ())

def skipCurrentLineUntil (untilChar : Char) : Prog Lexer Unit :=
 onFile (untilEof (fun _ => do
  let c ← step File.getChar
  if c = untilChar then return .inr ()
  else if c = '\n' then do
   let _ ← step File.getChar
   return .inr ()
  else return .inl ()) ())

def skip (untilChar : Char) : Prog Lexer Unit :=
 onFile (untilEof (fun _ => do
  let c ← step File.getChar
  if c = untilChar then return .inr () else return .inl ()) ())

def skipEof : Prog Lexer Unit := onFile (untilEof (fun _ => return .inl ()) ())

def dumpToken (l : Lexer) : Name :=
 (tokenDumps.lookup l.currentToken).getD
  (if l.currentToken = .commentBlock ∨ l.currentToken = .commentLine then l.comment
   else if l.currentToken = .identifier then l.identifier
   else "unknown token".toList)

end Lexer
end DriversFramework.HdiParser
