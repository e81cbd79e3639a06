import Mathlib.Tactic.Ring
import Mathlib.Data.List.TakeWhile

/-! `lexer.cpp`. A `char` is the character with its byte's value; as it is signed, the byte 0xFF is
`EOF`. Line numbers are left out. Loops take a bound on their rounds. -/
namespace DriversFramework.HcLexer

def eof : Char := Char.ofNat 0xFF

/-- `bufferStart_` up to `bufferEnd_`, and what `src_` still has. -/
structure Lexer where
 buffer : List Char
 source : List Char
 deriving DecidableEq

inductive TokenType where
 | none
 | eof
 | char (c : Char)
 | number
 | template
 | literal
 | string
 | refPath
 | root
 | include
 | delete
 deriving DecidableEq

structure Token where
 type : TokenType
 strval : List Char
 numval : ℕ
 deriving DecidableEq

def initToken : Token := ⟨.none, [], 0⟩

def keyWords : List (List Char × TokenType) :=
 [("#include".toList, .include), ("root".toList, .root), ("delete".toList, .delete),
  ("template".toList, .template)]

def isSpace (c : Char) : Bool := c = ' ' || c = '\t' || c = '\r'

def isNum (c : Char) : Bool := '0' ≤ c && c ≤ '9'

def isAlpha (c : Char) : Bool := ('a' ≤ c && c ≤ 'z') || ('A' ≤ c && c ≤ 'Z')

def isAlnum (c : Char) : Bool := isAlpha c || isNum c

def isWhite (c : Char) : Bool := isSpace c || c = '\n'

namespace Lexer

def bufferSize : ℕ := 1024 * 1024

/-- What is still to be read. -/
def text (l : Lexer) : List Char := l.buffer ++ l.source

def initialized (text : List Char) : Lexer := ⟨[], text⟩

def fillBuffer (l : Lexer) : Option Lexer :=
 if l.buffer ≠ [] then some l
 else if l.source = [] then none
 else some ⟨l.source.take bufferSize, l.source.drop bufferSize⟩

def getRawChar (l : Lexer) : Char × Lexer :=
 match l.fillBuffer with
 | none => (eof, l)
 | some l => (l.buffer.headD eof, { l with buffer := l.buffer.tail })

/-- `GetChar` with `skipSpace`. What it returns is whether the character is not `EOF`. -/
def getChar : ℕ → Lexer → Option (Char × Lexer)
 | 0, _ => none
 | fuel + 1, l =>
  let (chr, l) := l.getRawChar
  if isSpace chr then getChar fuel l else some (chr, l)

def consumeChar (l : Lexer) : Lexer := l.getRawChar.2

def peekChar (l : Lexer) (skipSpace : Bool) : Option Char × Lexer :=
 match l.fillBuffer with
 | none => (none, l)
 | some l =>
  let l := if skipSpace then { l with buffer := l.buffer.dropWhile isWhite } else l
  (l.buffer.head?, l)

def lineComment : ℕ → Char → Lexer → Option (Char × Lexer)
 | 0, _, _ => none
 | fuel + 1, c, l =>
  if c ≠ '\n' then
   (l.getChar (fuel + 1)).bind fun (c, l) =>
    if c ≠ eof then lineComment fuel c l else some (c, l)
  else some (c, l)

def blockComment : ℕ → Lexer → Option (Bool × Lexer)
 | 0, _ => none
 | fuel + 1, l =>
  (l.getChar (fuel + 1)).bind fun (c, l) =>
   if c ≠ eof then
    if c = '*' then
     (l.getChar (fuel + 1)).bind fun (c, l) =>
      if c ≠ eof ∧ c = '/' then some (true, l) else blockComment fuel l
    else blockComment fuel l
   else some (c = '/', l)

def processComment (fuel : ℕ) (l : Lexer) : Option (Bool × Lexer) :=
 (l.consumeChar.getChar fuel).bind fun (c, l) =>
  if c = eof then some (false, l)
  else if c = '/' then
   (l.lineComment fuel c).map fun (c, l) => (!(c ≠ '\n' && c ≠ eof), l)
  else if c = '*' then l.blockComment fuel
  else some (false, l)

def digitValue (c : Char) : ℕ :=
 if isNum c then c.toNat - '0'.toNat
 else if 'a' ≤ c && c ≤ 'z' then c.toNat - 'a'.toNat + 10
 else if 'A' ≤ c && c ≤ 'Z' then c.toNat - 'A'.toNat + 10
 else 36

def positional (base : ℕ) (digits : List Char) : ℕ :=
 digits.foldl (fun v c => v * base + digitValue c) 0

/-- `strtoll` on a string without white space and without a prefix; `none` if it sets `errno`. -/
def strtoll (value : List Char) (base : ℕ) : Option ℤ :=
 let negative := value.head? = some '-'
 let digits := if value.head? = some '-' ∨ value.head? = some '+' then value.tail else value
 let v := positional base (digits.takeWhile fun c => digitValue c < base)
 let v : ℤ := if negative then -v else v
 if -2 ^ 63 ≤ v ∧ v < 2 ^ 63 then some v else none

/-- `while (PeekChar(c, skipSpace) && digit(c))` with the characters that it adds to the value. -/
def lexDigits (skipSpace : Bool) (digit : Char → Bool) :
  ℕ → Lexer → List Char → Option (List Char × Lexer)
 | 0, _, _ => none
 | fuel + 1, l, value =>
  match l.peekChar skipSpace with
  | (some c, l) =>
   if digit c then lexDigits skipSpace digit fuel l.consumeChar (value ++ [c])
   else some (value, l)
  | (none, l) => some (value, l)

def isHex (c : Char) : Bool := isNum c || ('a' ≤ c && c ≤ 'f') || ('A' ≤ c && c ≤ 'F')

def isBin (c : Char) : Bool := c = '0' || c = '1'

/-- The value of the token, unless `errno` is set, and the lexer behind it. -/
def number (fuel : ℕ) (l : Lexer) : Option (Option ℤ × Lexer) :=
 let (c, l) := l.getRawChar
 if c = '0' then
  match l.peekChar true with
  | (none, l) => some (some 0, l)
  | (some c, l) =>
   if isNum c then
    (lexDigits true isNum fuel l []).map fun (value, l) => (strtoll value 8, l)
   else if c = 'x' ∨ c = 'X' then
    (lexDigits false isHex fuel l.consumeChar []).map fun (value, l) => (strtoll value 16, l)
   else if c = 'b' then
    (lexDigits false isBin fuel l.consumeChar []).map fun (value, l) => (strtoll value 2, l)
   else some (some 0, l)
 else (lexDigits true isNum fuel l [c]).map fun (value, l) => (strtoll value 10, l)

def lexFromNumber (fuel : ℕ) (l : Lexer) : Option (Option Token × Lexer) :=
 (l.number fuel).map fun (v, l) =>
  (v.map fun v => { initToken with type := .number, numval := (v % 2 ^ 64).toNat }, l)

def literalChars : ℕ → Lexer → List Char → Option (List Char × Lexer)
 | 0, _, _ => none
 | fuel + 1, l, value =>
  match l.peekChar false with
  | (some c, l) =>
   if !isSpace c && (isAlnum c || c = '_' || c = '.' || c = '\\') then
    literalChars fuel l.consumeChar (value ++ [c])
   else some (value, l)
  | (none, l) => some (value, l)

def literalToken (value : List Char) : Token :=
 if value = "true".toList then ⟨.number, value, 1⟩
 else if value = "false".toList then ⟨.number, value, 0⟩
 else match keyWords.lookup value with
  | some keyword => ⟨keyword, value, 0⟩
  | none => if '.' ∈ value then ⟨.refPath, value, 0⟩ else ⟨.literal, value, 0⟩

def lexFromLiteral (fuel : ℕ) (l : Lexer) : Option (Token × Lexer) :=
 (literalChars fuel l []).map fun (value, l) => (literalToken value, l)

def lexInclude (fuel : ℕ) (l : Lexer) : Option (Option Token × Lexer) :=
 (lexFromLiteral fuel l.consumeChar).map fun (token, l) =>
  (if token.strval = "include".toList then some { token with type := .include } else none, l)

def stringChars : ℕ → Lexer → List Char → Option (Option (List Char) × Lexer)
 | 0, _, _ => none
 | fuel + 1, l, value =>
  let (c, l) := l.getRawChar
  if c ≠ eof ∧ c ≠ '"' then stringChars fuel l (value ++ [c])
  else some (if c = '"' then some value else none, l)

def lexFromString (fuel : ℕ) (l : Lexer) : Option (Option Token × Lexer) :=
 (stringChars fuel l.consumeChar []).map fun (value, l) =>
  (value.map fun value => { initToken with type := .string, strval := value }, l)

def lex : ℕ → Lexer → Option (Option Token × Lexer)
 | 0, _ => none
 | fuel + 1, l =>
  match l.peekChar true with
  | (none, l) => some (some { initToken with type := .eof }, l)
  | (some c, l) =>
   if c = '#' then l.lexInclude (fuel + 1)
   else if isAlpha c then (l.lexFromLiteral (fuel + 1)).map fun (token, l) => (some token, l)
   else if isNum c then l.lexFromNumber (fuel + 1)
   else if c = '/' then
    (l.processComment (fuel + 1)).bind fun (ok, l) => if ok then lex fuel l else some (none, l)
   else if c ∈ [';', ',', '[', ']', '{', '}', '=', '&', ':'] then
    some (some { initToken with type := .char c }, l.consumeChar)
   else if c = '"' then l.lexFromString (fuel + 1)
   else if c = '+' ∨ c = '-' then l.lexFromNumber (fuel + 1)
   else if c = eof then some (some { initToken with type := .eof }, l)
   else some (none, l)

end Lexer

namespace Lexer

variable {l l' : Lexer} {c : Char} {rest : List Char}

theorem fillBuffer_text (fill : l.fillBuffer = some l') : l'.text = l.text ∧ l'.buffer ≠ [] := by
 rw [fillBuffer] at fill
 split_ifs at fill with full empty
 · cases fill
   exact ⟨rfl, full⟩
 · cases fill
   have blank : l.buffer = [] := not_not.mp full
   refine ⟨?_, ?_⟩
   · change l.source.take bufferSize ++ l.source.drop bufferSize = l.buffer ++ l.source
     rw [List.take_append_drop, blank, List.nil_append]
   · intro none
     rcases List.take_eq_nil_iff.mp none with size | none
     · exact absurd size (by decide)
     · exact empty none

theorem fillBuffer_none : l.fillBuffer = none ↔ l.text = [] := by
 rw [fillBuffer, text]
 split_ifs with full empty
 · simp [full]
 · have blank : l.buffer = [] := not_not.mp full
   simp [blank, empty]
 · simp [empty]

theorem getRawChar_of_nil (nothing : l.text = []) : l.getRawChar = (eof, l) := by
 rw [getRawChar, fillBuffer_none.mpr nothing]

theorem getRawChar_of_cons (more : l.text = c :: rest) :
 l.getRawChar = (c, l.consumeChar) ∧ l.consumeChar.text = rest := by
 rw [consumeChar, getRawChar]
 cases fill : l.fillBuffer with
 | none =>
  rw [fillBuffer_none.mp fill] at more
  cases more
 | some l' =>
  obtain ⟨same, full⟩ := fillBuffer_text fill
  dsimp only
  rw [more, text] at same
  cases buffer : l'.buffer with
  | nil => exact absurd buffer full
  | cons b bs =>
   rw [buffer] at same
   obtain ⟨rfl, rest_eq⟩ := List.cons.inj same
   exact ⟨rfl, rest_eq⟩

theorem getChar_eq : ∀ {fuel : ℕ} {l : Lexer}, l.text.length < fuel →
 ∃ l', l.getChar fuel = some ((l.text.dropWhile isSpace).headD eof, l') ∧
  l'.text = (l.text.dropWhile isSpace).tail := by
 intro fuel
 induction fuel with
 | zero => exact fun enough => absurd enough (Nat.not_lt_zero _)
 | succ fuel ih =>
  intro l enough
  cases more : l.text with
  | nil =>
   rw [getChar, getRawChar_of_nil more]
   exact ⟨l, if_neg (by decide), more⟩
  | cons c rest =>
   obtain ⟨read, behind⟩ := getRawChar_of_cons more
   rw [getChar, read]
   dsimp only
   by_cases space : isSpace c = true
   · rw [if_pos space, List.dropWhile_cons_of_pos space, ← behind]
     apply ih
     rw [behind]
     rw [more, List.length_cons] at enough
     exact Nat.lt_of_succ_lt_succ enough
   · rw [if_neg space, List.dropWhile_cons_of_neg space]
     exact ⟨_, rfl, behind⟩

def filled (l : Lexer) : Lexer := l.fillBuffer.getD l

theorem fillBuffer_filled : l.filled.fillBuffer = l.fillBuffer := by
 cases fill : l.fillBuffer with
 | none =>
  rw [filled, fill]
  exact fill
 | some l' =>
  rw [filled, fill]
  exact if_pos (fillBuffer_text fill).2

theorem consumeChar_filled : l.filled.consumeChar = l.consumeChar := by
 rw [consumeChar, consumeChar, getRawChar, getRawChar, fillBuffer_filled]
 cases fill : l.fillBuffer with
 | none =>
  rw [filled, fill]
  rfl
 | some l' => rfl

theorem peekChar_filled (skipSpace : Bool) : l.filled.peekChar skipSpace = l.peekChar skipSpace := by
 rw [peekChar, peekChar, fillBuffer_filled]
 cases fill : l.fillBuffer with
 | none =>
  rw [filled, fill]
  rfl
 | some l' => rfl

theorem peekChar_of_cons (skipSpace : Bool) (more : l.text = c :: rest)
 (visible : skipSpace = true → isWhite c = false) :
 l.peekChar skipSpace = (some c, l.filled) := by
 rw [peekChar, filled]
 cases fill : l.fillBuffer with
 | none =>
  rw [fillBuffer_none.mp fill] at more
  cases more
 | some l' =>
  obtain ⟨same, full⟩ := fillBuffer_text fill
  rw [← same] at more
  dsimp only
  rw [text] at more
  cases buffer : l'.buffer with
  | nil => exact absurd buffer full
  | cons b bs =>
   rw [buffer] at more
   obtain ⟨rfl, -⟩ := List.cons.inj more
   cases skipSpace with
   | false =>
    rw [if_neg Bool.false_ne_true, buffer]
    rfl
   | true =>
    have stay : (b :: bs).dropWhile isWhite = b :: bs :=
     List.dropWhile_cons_of_neg (by simp [visible rfl])
    have whole : { l' with buffer := b :: bs } = l' := by
     rw [← buffer]
    rw [if_pos rfl, stay, whole, buffer]
    rfl

theorem peekChar_text (skipSpace : Bool) : ∃ white, (∀ c ∈ white, isWhite c = true) ∧
 (skipSpace = false → white = []) ∧ l.text = white ++ (l.peekChar skipSpace).2.text ∧
 ∀ c, (l.peekChar skipSpace).1 = some c →
  ∃ rest, (l.peekChar skipSpace).2.text = c :: rest ∧ (skipSpace = true → isWhite c = false) := by
 rw [peekChar]
 cases fill : l.fillBuffer with
 | none => exact ⟨[], by simp, fun _ => rfl, rfl, by simp⟩
 | some l' =>
  obtain ⟨same, full⟩ := fillBuffer_text fill
  dsimp only
  cases skipSpace with
  | false =>
   refine ⟨[], by simp, fun _ => rfl, same.symm, fun c head => ?_⟩
   change l'.buffer.head? = some c at head
   cases buffer : l'.buffer with
   | nil => exact absurd buffer full
   | cons b bs =>
    rw [buffer] at head
    cases head
    refine ⟨bs ++ l'.source, ?_, fun no => Bool.noConfusion no⟩
    change l'.buffer ++ l'.source = _
    rw [buffer]
    rfl
  | true =>
   refine ⟨l'.buffer.takeWhile isWhite, fun c mem => List.mem_takeWhile_imp mem, fun no => Bool.noConfusion no,
    ?_, fun c head => ?_⟩
   · change l.text = _ ++ (l'.buffer.dropWhile isWhite ++ l'.source)
     rw [← List.append_assoc, List.takeWhile_append_dropWhile]
     exact same.symm
   · change (l'.buffer.dropWhile isWhite).head? = some c at head
     cases drop : l'.buffer.dropWhile isWhite with
     | nil =>
      rw [drop] at head
      cases head
     | cons b bs =>
      rw [drop] at head
      cases head
      refine ⟨bs ++ l'.source, rfl, fun _ => ?_⟩
      · have stop := List.head?_dropWhile_not isWhite l'.buffer
        rw [drop] at stop
        simpa using stop

end Lexer

end DriversFramework.HcLexer
