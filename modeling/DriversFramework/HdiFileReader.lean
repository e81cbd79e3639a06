import Mathlib.Data.List.GetD
import DriversFramework.HdiLexer

namespace DriversFramework.HdiParser

/-- The characters that a read takes at most. -/
def readUnit : ℕ := bufferSize - 1

/-- The file has `rest` before it and has not looked behind its text; `whole` says whether the text
is made up of whole reads. -/
structure Open (whole : Bool) (f : File) (rest : List Char) : Prop where
 unflagged : f.isEofFlag = false
 inside : f.position ≤ f.size
 pending : rest = (f.buffer.take f.size).drop f.position ++ f.source
 ascii : ∀ c ∈ rest, c.toNat < 128
 shape : (f.buffer.length = f.size ∧ (f.source.length % readUnit = 0 ↔ whole = true)) ∨
  (whole = false ∧ f.source = [] ∧
   ∃ bytes, f.buffer = bytes ++ [endOfBuffer] ∧ bytes.length = f.size)

structure Ended (f : File) : Prop where
 flagged : f.isEofFlag = true
 beyond : f.size ≤ f.position
 current : f.current = endOfBuffer

def Seen (whole : Bool) (f : File) : Prop := Ended f ∨ whole = false ∧ Open whole f []

/-- What the file shows: the text before it, or that it has ended. -/
def Shows (whole : Bool) (f : File) : Option (List Char) → Prop
 | none => Seen whole f
 | some rest => Open whole f rest ∧ ¬(rest = [] ∧ whole = false)

def took (whole : Bool) (rest : List Char) : Option (List Char) :=
 if rest = [] ∧ whole = false then none else some rest

def looked (rest : List Char) : Option (List Char) := if rest = [] then none else some rest

theorem took_cons (whole : Bool) (c : Char) (cs : List Char) :
 took whole (c :: cs) = some (c :: cs) :=
 if_neg fun h => List.cons_ne_nil c cs h.1

theorem looked_cons (c : Char) (cs : List Char) : looked (c :: cs) = some (c :: cs) :=
 if_neg (List.cons_ne_nil c cs)

theorem endOfBuffer_toNat : endOfBuffer.toNat = 255 := by decide

section File

variable {whole : Bool} {f : File} {rest : List Char}

theorem Open.shows (opened : Open whole f rest) : Shows whole f (took whole rest) := by
 unfold took
 split
 · rename_i last
   obtain ⟨rfl, more⟩ := last
   exact .inr ⟨more, opened⟩
 · rename_i more
   exact ⟨opened, more⟩

theorem current_end {bytes : List Char} (buffer : f.buffer = bytes ++ [endOfBuffer])
 (position : f.position = bytes.length) : f.current = endOfBuffer := by
 rw [File.current, buffer, position, List.getD_append_right _ _ _ _ (Nat.le_refl _), Nat.sub_self]
 rfl

theorem Open.current (opened : Open whole f rest) (less : f.position < f.size) :
 ∃ cs, rest = f.current :: cs ∧
  cs = (f.buffer.take f.size).drop (f.position + 1) ++ f.source := by
 have long : f.size ≤ f.buffer.length := by
  rcases opened.shape with ⟨length, -⟩ | ⟨-, -, bytes, buffer, length⟩
  · exact Nat.le_of_eq length.symm
  · rw [buffer, List.length_append, length]
    exact Nat.le_add_right _ _
 have short : f.position < (f.buffer.take f.size).length := by
  rw [List.length_take]
  omega
 have here : (f.buffer.take f.size)[f.position] = f.current := by
  rw [List.getElem_take, File.current, List.getD_eq_getElem _ _ (by omega)]
 refine ⟨_, ?_, rfl⟩
 rw [opened.pending, List.drop_eq_getElem_cons short, here, List.cons_append]

theorem Open.ne_end (opened : Open whole f rest) (less : f.position < f.size) :
 f.current ≠ endOfBuffer := fun same => by
 obtain ⟨cs, shown, -⟩ := opened.current less
 have small := opened.ascii f.current (shown ▸ List.mem_cons_self)
 rw [same, endOfBuffer_toNat] at small
 omega

theorem Open.source (opened : Open whole f rest) (last : f.position = f.size) :
 rest = f.source := by
 have none : (f.buffer.take f.size).drop f.position = [] := by
  refine List.drop_eq_nil_of_le ?_
  rw [List.length_take, last]
  exact Nat.min_le_left _ _
 rw [opened.pending, none, List.nil_append]

theorem Open.isEof (opened : Open whole f rest) (more : ¬(rest = [] ∧ whole = false)) :
 f.isEof = false := by
 rw [File.isEof, opened.unflagged, Bool.false_or]
 rcases Nat.lt_or_eq_of_le opened.inside with less | last
 · exact beq_eq_false_iff_ne.mpr (opened.ne_end less)
 · have same := opened.source last
   rcases opened.shape with ⟨length, -⟩ | ⟨short, none, -⟩
   · have zero : f.current = '\x00' := by
      rw [File.current, List.getD_eq_default _ _ (by omega)]
     rw [zero]
     decide
   · exact absurd ⟨same.trans none, short⟩ more

theorem Seen.isEof (seen : Seen whole f) : f.isEof = true := by
 rw [File.isEof]
 rcases seen with ended | ⟨short, opened⟩
 · rw [ended.flagged, Bool.true_or]
 · have empty : f.position = f.size ∧ f.source = [] := by
    have none : (f.buffer.take f.size).drop f.position = [] ∧ f.source = [] :=
     List.append_eq_nil_iff.mp opened.pending.symm
    refine ⟨?_, none.2⟩
    by_contra other
    obtain ⟨cs, shown, -⟩ := opened.current (by have := opened.inside; omega)
    cases shown
   rcases opened.shape with ⟨-, exact_⟩ | ⟨-, -, bytes, buffer, length⟩
   · rw [empty.2] at exact_
     have yes := exact_.mp (Nat.zero_mod _)
     rw [short] at yes
     cases yes
   · rw [current_end buffer (by omega)]
     exact Bool.or_true _

theorem read_full (unflagged : f.isEofFlag = false) (long : readUnit ≤ f.source.length) :
 f.read = (true, { f with
  buffer := f.source.take readUnit
  size := readUnit
  position := 0
  source := f.source.drop readUnit }) := by
 have count : (f.source.take (bufferSize - 1)).length = readUnit := by
  rw [List.length_take]
  exact Nat.min_eq_left long
 have full : ¬readUnit < bufferSize - 1 := Nat.lt_irrefl _
 unfold File.read
 rw [if_neg (by rw [unflagged]; decide)]
 dsimp only
 rw [count, if_neg full]
 rfl

theorem read_short (unflagged : f.isEofFlag = false) (short : f.source.length < readUnit) :
 f.read = (decide (f.source.length ≠ 0), { f with
  buffer := f.source ++ [endOfBuffer]
  size := f.source.length
  position := 0
  source := [] }) := by
 have all : f.source.take (bufferSize - 1) = f.source :=
  List.take_of_length_le (Nat.le_of_lt short)
 have less : f.source.length < bufferSize - 1 := short
 unfold File.read
 rw [if_neg (by rw [unflagged]; decide)]
 dsimp only
 rw [all, if_pos less, List.drop_length]

theorem Open.read (opened : Open whole f rest) (last : f.position = f.size) (more : rest ≠ []) :
 f.read.1 = true ∧ Open whole f.read.2 rest ∧ f.read.2.position < f.read.2.size := by
 have same := opened.source last
 have some_ : f.source ≠ [] := same ▸ more
 have positive : 0 < f.source.length := List.length_pos_iff.mpr some_
 have divides : f.source.length % readUnit = 0 ↔ whole = true := by
  rcases opened.shape with ⟨-, divides⟩ | ⟨-, none, -⟩
  · exact divides
  · exact absurd none some_
 have unit : readUnit = 1023 := rfl
 by_cases short : f.source.length < readUnit
 · rw [read_short opened.unflagged short]
   have notWhole : whole = false := by
    rw [← Bool.not_eq_true, ← divides, Nat.mod_eq_of_lt short]
    omega
   refine ⟨decide_eq_true (by omega), ⟨opened.unflagged, Nat.zero_le _, ?_, opened.ascii, ?_⟩,
    positive⟩
   · rw [List.drop_zero, List.append_nil, List.take_left' rfl, same]
   · exact .inr ⟨notWhole, rfl, f.source, rfl, rfl⟩
 have long : readUnit ≤ f.source.length := Nat.le_of_not_lt short
 rw [read_full opened.unflagged long]
 have count : (f.source.take readUnit).length = readUnit := by
  rw [List.length_take, Nat.min_eq_left long]
 have some_unit : 0 < readUnit := by decide
 refine ⟨rfl, ⟨opened.unflagged, Nat.zero_le _, ?_, opened.ascii, .inl ⟨count, ?_⟩⟩, some_unit⟩
 · rw [List.drop_zero, List.take_take, Nat.min_self, List.take_append_drop, same]
 · rw [List.length_drop, ← divides, Nat.mod_eq_sub_mod long]

theorem peek_end (behind : f.position + 1 > f.size) (unflagged : f.isEofFlag = false)
 (none : f.source = []) : f.peekChar.1 = endOfBuffer ∧ Ended f.peekChar.2 := by
 have short : f.source.length < readUnit := by
  rw [none]
  decide
 have read := read_short unflagged short
 unfold File.peekChar
 dsimp only
 rw [if_pos behind, read, none]
 exact ⟨rfl, rfl, Nat.le_refl 0, rfl⟩

theorem Ended.peek (ended : Ended f) : f.peekChar.1 = endOfBuffer ∧ Ended f.peekChar.2 := by
 have behind : f.position + 1 > f.size := Nat.lt_succ_of_le ended.beyond
 have read : f.read = (false, f) := if_pos ended.flagged
 unfold File.peekChar
 dsimp only
 rw [if_pos behind, read]
 exact ⟨ended.current, rfl, ended.beyond, ended.current⟩

theorem Ended.get (ended : Ended f.peekChar.2) : f.getChar.2 = f.peekChar.2 := by
 have beyond := ended.beyond
 unfold File.getChar
 exact if_neg (by omega)

theorem Open.peek_nil (opened : Open whole f []) :
 f.peekChar.1 = endOfBuffer ∧ Ended f.peekChar.2 := by
 have none := List.append_eq_nil_iff.mp opened.pending.symm
 refine peek_end ?_ opened.unflagged none.2
 by_contra less
 obtain ⟨cs, shown, -⟩ := opened.current (by omega)
 cases shown

theorem Open.peek_cons {c : Char} {cs : List Char} (opened : Open whole f (c :: cs)) :
 f.peekChar.1 = c ∧ Open whole f.peekChar.2 (c :: cs) ∧
  f.peekChar.2.position < f.peekChar.2.size := by
 have inside := opened.inside
 have first : ∀ g : File, Open whole g (c :: cs) → g.position < g.size → g.current = c :=
  fun g opened less => by
   obtain ⟨ds, same, -⟩ := opened.current less
   exact (List.cons.inj same).1.symm
 unfold File.peekChar
 dsimp only
 by_cases less : f.position < f.size
 · rw [if_neg (by omega)]
   exact ⟨first f opened less, opened, less⟩
 · obtain ⟨yes, again, within⟩ := opened.read (by omega) (List.cons_ne_nil c cs)
   rw [if_pos (by omega), if_pos yes]
   exact ⟨first _ again within, again, within⟩

theorem Open.get_cons {c : Char} {cs : List Char} (opened : Open whole f (c :: cs)) :
 f.getChar.1 = c ∧ Open whole f.getChar.2 cs := by
 obtain ⟨shown, again, within⟩ := opened.peek_cons
 have behind : f.getChar.2 = f.peekChar.2.advance f.peekChar.1 := if_pos within
 refine ⟨shown, ?_⟩
 obtain ⟨ds, same, rest⟩ := again.current within
 have unread : (f.peekChar.2.advance f.peekChar.1).buffer = f.peekChar.2.buffer ∧
  (f.peekChar.2.advance f.peekChar.1).size = f.peekChar.2.size ∧
  (f.peekChar.2.advance f.peekChar.1).source = f.peekChar.2.source ∧
  (f.peekChar.2.advance f.peekChar.1).isEofFlag = f.peekChar.2.isEofFlag ∧
  (f.peekChar.2.advance f.peekChar.1).position = f.peekChar.2.position + 1 := by
  unfold File.advance
  dsimp only
  split
  · exact ⟨rfl, rfl, rfl, rfl, rfl⟩
  · exact ⟨rfl, rfl, rfl, rfl, rfl⟩
 obtain ⟨buffer, size, source, flag, position⟩ := unread
 rw [behind]
 refine ⟨flag.trans again.unflagged, ?_, ?_,
  fun d mem => again.ascii d (List.mem_cons_of_mem _ mem), ?_⟩
 · rw [size, position]
   exact within
 · rw [buffer, size, source, position, ← rest]
   exact (List.cons.inj same).2
 · rw [buffer, size, source]
   exact again.shape

end File

section Operations

variable {whole : Bool} {f : File}

def front : Option (List Char) → Char
 | some (c :: _) => c
 | _ => endOfBuffer

def peeked : Option (List Char) → Option (List Char)
 | some (c :: cs) => some (c :: cs)
 | _ => none

def advanced (whole : Bool) : Option (List Char) → Option (List Char)
 | some (_ :: cs) => took whole cs
 | _ => none

theorem Seen.peek (seen : Seen whole f) : f.peekChar.1 = endOfBuffer ∧ Ended f.peekChar.2 := by
 rcases seen with ended | ⟨-, opened⟩
 · exact ended.peek
 · exact opened.peek_nil

theorem shows_isEof {place : Option (List Char)} (shows_ : Shows whole f place) :
 f.isEof = decide (place = none) := by
 cases place with
 | none => rw [Seen.isEof shows_, decide_eq_true rfl]
 | some rest =>
  rw [shows_.1.isEof shows_.2]
  rfl

theorem shows_peek {place : Option (List Char)} (shows_ : Shows whole f place) :
 f.peekChar.1 = front place ∧ Shows whole f.peekChar.2 (peeked place) := by
 match place, shows_ with
 | none, seen => exact ⟨(Seen.peek seen).1, .inl (Seen.peek seen).2⟩
 | some [], opened => exact ⟨opened.1.peek_nil.1, .inl opened.1.peek_nil.2⟩
 | some (c :: cs), opened =>
  have peek := opened.1.peek_cons
  exact ⟨peek.1, peek.2.1, opened.2⟩

theorem shows_get {place : Option (List Char)} (shows_ : Shows whole f place) :
 f.getChar.1 = front place ∧ Shows whole f.getChar.2 (advanced whole place) := by
 match place, shows_ with
 | none, seen =>
  have peek := Seen.peek seen
  exact ⟨peek.1, .inl (by rw [peek.2.get]; exact peek.2)⟩
 | some [], opened =>
  have peek := opened.1.peek_nil
  exact ⟨peek.1, .inl (by rw [peek.2.get]; exact peek.2)⟩
 | some (c :: cs), opened =>
  have get := opened.1.get_cons
  exact ⟨get.1, get.2.shows⟩

theorem shows_opened (text path : List Char) (ascii : ∀ c ∈ text, c.toNat < 128) :
 Shows (decide (text.length % readUnit = 0)) { source := text, path := path } (some text) := by
 refine ⟨⟨rfl, Nat.le_refl 0, rfl, ascii, .inl ⟨rfl, decide_eq_true_iff.symm⟩⟩, ?_⟩
 rintro ⟨rfl, other⟩
 exact absurd other (by decide)

end Operations

end DriversFramework.HdiParser
