import DriversFramework.HdiLexer

namespace DriversFramework.HdiParser

open LoopPrograms LoopPrograms.Prog

def Rest (n : ℕ) (f : File) : Prop := f.left < n

def Ready (n : ℕ) (f : File) : Prop := f.left < n ∨ f.isEofFlag = false ∧ f.left < n + 1

theorem left_pos {f : File} (h : f.isEofFlag = false) : 0 < f.left := by
 unfold File.left
 simp [h]

theorem Ready.of_open {n : ℕ} {f : File} (h : Rest (n + 1) f) (more : f.isEof = false) :
 Ready n f :=
 .inr ⟨(Bool.or_eq_false_iff.mp more).1, h⟩

theorem Ready.rest {n : ℕ} {f : File} (h : Ready n f) : Rest (n + 1) f := by
 change f.left < n + 1
 obtain less | ⟨_, less⟩ := h <;> omega

theorem getChar_takes (n : ℕ) : Spec (Ready n) (step File.getChar) fun _ => Rest n := by
 refine spec_step fun f h => ?_
 change f.getChar.2.left < n
 obtain less | ⟨more, less⟩ := h
 · have le := f.getChar_left_le
   omega
 · have lt := f.getChar_left_lt more
   omega

theorem peekChar_ready (n : ℕ) : Spec (Ready n) (step File.peekChar) fun _ => Ready n := by
 refine spec_step fun f h => ?_
 obtain less | ⟨more, less⟩ := h
 · exact .inl (Nat.lt_of_le_of_lt f.peekChar_left_le less)
 · have positive := left_pos more
   obtain same | ⟨zero, _⟩ := f.peekChar_left
   · refine .inr ⟨?_, by omega⟩
     by_contra seen
     have none : f.peekChar.2.left = 0 := by
      unfold File.left
      simp [seen]
     omega
   · exact .inl (by omega)

instance keeps_getChar : Keeps Rest (step File.getChar) :=
 ⟨fun _ => spec_step fun f h => Nat.lt_of_le_of_lt f.getChar_left_le h⟩

instance keeps_peekChar : Keeps Rest (step File.peekChar) :=
 ⟨fun _ => spec_step fun f h => Nat.lt_of_le_of_lt f.peekChar_left_le h⟩

theorem untilEof_keeps {α : Type} {body : α → Prog File (α ⊕ α)}
 (round : ∀ a n, Spec (Ready n) (body a) fun r => r.elim (fun _ => Rest n) fun _ => Rest (n + 1))
 (a : α) : Keeps Rest (untilEof body a) := by
 refine ⟨fun n => ?_⟩
 have looped : Spec (Rest n) (untilEof body a) fun _ => Rest n := by
  refine spec_loop (I := fun _ => Rest) n (fun _ _ h => Nat.not_lt_zero _ h) ?_ a
  intro b m hm
  have larger : ∀ f, Rest (m + 1) f → Rest n f := fun f h => Nat.lt_of_lt_of_le h hm
  refine spec_bind (Q := fun eof f => f.isEof = eof ∧ Rest (m + 1) f)
   (spec_read fun f h => ⟨rfl, h⟩) fun eof => ?_
  refine spec_ite (fun _ => spec_pure fun f h => larger f h.2) fun more => ?_
  refine (round b m).weaken (fun f h => Ready.of_open h.2 ?_) fun r f h => ?_
  · rw [h.1]
    simpa using more
  · cases r with
    | inl c => exact h
    | inr c => exact larger f h
 exact looped

instance keeps_readKey (key : Name) : Keeps Rest (Lexer.readKey key) := by
 refine untilEof_keeps (fun key n => ?_) key
 refine spec_bind (peekChar_ready n) fun c => ?_
 refine spec_ite (fun _ => ?_) fun _ => spec_ite (fun _ => ?_) fun _ => ?_
 · exact spec_bind (getChar_takes n) fun c => spec_pure fun f h => h
 · exact spec_bind (getChar_takes n) fun c => spec_pure fun f h => Nat.lt_succ_of_lt h
 · exact spec_pure fun f h => h.rest

instance keeps_readDigits (digit : Name) : Keeps Rest (Lexer.readDigits digit) := by
 refine untilEof_keeps (fun digit n => ?_) digit
 refine spec_bind (peekChar_ready n) fun c => ?_
 refine spec_ite (fun _ => ?_) fun _ => ?_
 · exact spec_bind (getChar_takes n) fun c => spec_pure fun f h => h
 · exact spec_pure fun f h => h.rest

instance untilEof_getChar {α : Type} (rest : α → Char → Prog File (α ⊕ α))
 [h : ∀ a c, Keeps Rest (rest a c)] (a : α) :
 Keeps Rest (untilEof (fun a => step File.getChar >>= rest a) a) := by
 refine untilEof_keeps (fun a n => ?_) a
 refine (spec_bind (getChar_takes n) fun c => (h a c).keeps n).weaken (fun f h => h) fun r f h => ?_
 cases r with
 | inl b => exact h
 | inr b => exact Nat.lt_succ_of_lt h

instance keeps_readLine (comment : Name) : Keeps Rest (Lexer.readLine comment) :=
 untilEof_getChar _ comment

instance keeps_readBlock (comment : Name) : Keeps Rest (Lexer.readBlock comment) :=
 untilEof_getChar _ comment

theorem untilEof_at_end {α : Type} (body : α → Prog File (α ⊕ α)) (a : α) {f : File}
 (h : f.isEof = true) : (untilEof body a).Runs f a f := by
 refine (runs_loop _ a f f a).mpr (.inl ⟨0, ?_⟩)
 change (if f.isEof = true then pure (.inr a) else body a : Prog File (α ⊕ α)).run 0 f = _
 rw [if_pos h]
 rfl

namespace Lexer

def Found (n : ℕ) (t : Token) (l : Lexer) : Prop := t ≠ .endOfFile ∧ Rest n l.currentFile

theorem onFile_rest {α : Type} (c : Prog File α) [h : Keeps Rest c] (n : ℕ) :
 Spec (fun l => Rest n l.currentFile) (onFile c) fun _ l => Rest n l.currentFile :=
 spec_zoom (h.keeps n) (fun _ h => h) fun _ _ _ _ h => h

theorem mem_of_lookup {κ : Type} [BEq κ] [LawfulBEq κ] {table : List (κ × Token)} {k : κ}
 {t : Token} (h : table.lookup k = some t) : (k, t) ∈ table := by
 obtain ⟨before, after, rfl, _⟩ := List.lookup_eq_some_iff.mp h
 simp

theorem keyword_found {key : Name} {t : Token} (h : keywords.lookup key = some t) :
 t ≠ .endOfFile := by
 have all : ∀ t ∈ keywords.map Prod.snd, t ≠ Token.endOfFile := by decide
 exact all t (List.mem_map_of_mem (mem_of_lookup h))

theorem delimiter_found {c : Char} {t : Token} (h : delimiters.lookup c = some t) :
 t ≠ .endOfFile := by
 have all : ∀ t ∈ delimiters.map Prod.snd, t ≠ Token.endOfFile := by decide
 exact all t (List.mem_map_of_mem (mem_of_lookup h))

variable (skipComment : Bool) (c : Char) (n : ℕ)

theorem readIdentifier_found :
 Spec (fun l => Rest n l.currentFile) (readIdentifier c) (Found n) := by
 refine spec_bind (onFile_rest (readKey [c]) n) fun key => ?_
 cases found : keywords.lookup key with
 | none => exact spec_step fun l h => ⟨by simp, h⟩
 | some t => exact spec_step fun l h => ⟨keyword_found found, h⟩

theorem readDecimalDigital_found :
 Spec (fun l => Rest n l.currentFile) (readDecimalDigital c) (Found n) :=
 spec_bind (onFile_rest (readDigits [c]) n) fun _ => spec_step fun _ h => ⟨by simp, h⟩

theorem readLineComment_found :
 Spec (fun l => Rest n l.currentFile) (readLineComment c) (Found n) :=
 spec_bind (onFile_rest (readLine [c]) n) fun _ => spec_step fun _ h => ⟨by simp, h⟩

theorem readBlockComment_found :
 Spec (fun l => Rest n l.currentFile) (readBlockComment c) (Found n) :=
 spec_bind (onFile_rest (readBlock [c]) n) fun _ => spec_step fun _ h => ⟨by simp, h⟩

/-- What a round of `ReadToken` leaves: fewer bytes, with a token or without one. -/
def Round (n : ℕ) (r : Unit ⊕ Token) (l : Lexer) : Prop :=
 r.elim (fun _ => Rest n l.currentFile) fun t => Found n t l

theorem setToken_unknown : Spec (fun l => Rest n l.currentFile) (setToken .unknown) (Found n) :=
 spec_step fun _ h => ⟨by simp, h⟩

theorem readOther_round :
 Spec (fun l => Rest n l.currentFile) (readOther skipComment c) (Round n) := by
 refine spec_ite (fun _ => ?_) fun _ => ?_
 · refine spec_bind (onFile_rest (step File.peekChar) n) fun d => ?_
   refine spec_ite (fun _ => ?_) fun _ => spec_ite (fun _ => ?_) fun _ => ?_
   · refine spec_bind (readLineComment_found c n) fun t => ?_
     exact spec_ite (fun _ => spec_pure fun l h => h.2) fun _ => spec_pure fun l h => h
   · refine spec_bind (readBlockComment_found c n) fun t => ?_
     exact spec_ite (fun _ => spec_pure fun l h => h.2) fun _ => spec_pure fun l h => h
   · exact spec_bind (setToken_unknown n) fun t => spec_pure fun l h => h
 · exact spec_bind (setToken_unknown n) fun t => spec_pure fun l h => h

/-- What `ReadToken` gives: the end of the file where it is, or a token and fewer bytes. -/
def Given (n : ℕ) (t : Token) (l : Lexer) : Prop :=
 (t = .endOfFile ∧ l.currentFile.isEof = true ∧ Rest n l.currentFile) ∨
  (t ≠ .endOfFile ∧ l.currentFile.left + 1 < n)

theorem readTokenRound_spec (m : ℕ) :
 Spec (fun l => Rest (m + 1) l.currentFile) (readTokenRound skipComment) fun r l =>
  r.elim (fun _ => Rest m l.currentFile) fun t => Given (m + 1) t l := by
 have given : ∀ (r : Unit ⊕ Token) (l : Lexer), Round m r l →
  r.elim (fun _ => Rest m l.currentFile) fun t => Given (m + 1) t l := by
  intro r l h
  cases r with
  | inl _ => exact h
  | inr t => exact .inr ⟨h.1, Nat.succ_lt_succ h.2⟩
 refine spec_bind (Q := fun eof l => l.currentFile.isEof = eof ∧ Rest (m + 1) l.currentFile)
  (spec_read fun l h => ⟨rfl, h⟩) fun eof => ?_
 refine spec_ite (fun atEnd => ?_) fun more => ?_
 · refine spec_bind (Q := Given (m + 1)) (spec_step fun l h => ?_) fun t => spec_pure fun l h => h
   exact .inl ⟨rfl, h.1.trans atEnd, h.2⟩
 · refine spec_bind (Q := fun _ l => Rest m l.currentFile) ?_ fun c => ?_
   · refine spec_zoom (getChar_takes m) (fun l h => Ready.of_open h.2 ?_) fun _ _ _ _ h => h
     rw [h.1]
     simpa using more
   refine spec_bind (Q := fun _ l => Rest m l.currentFile) (spec_modify fun l h => h) fun _ => ?_
   refine Spec.weaken (P := fun l => Rest m l.currentFile) (Q := Round m) ?_ (fun l h => h) given
   refine spec_ite (fun _ => spec_pure fun l h => h) fun _ => spec_ite (fun _ => ?_) fun _ =>
    spec_ite (fun _ => ?_) fun _ => ?_
   · exact spec_bind (readIdentifier_found c m) fun t => spec_pure fun l h => h
   · exact spec_bind (readDecimalDigital_found c m) fun t => spec_pure fun l h => h
   · cases found : delimiters.lookup c with
     | none => exact readOther_round skipComment c m
     | some t => exact spec_pure fun l h => ⟨delimiter_found found, h⟩

theorem readToken_given :
 Spec (fun l => Rest n l.currentFile) (readToken skipComment) (Given n) := by
 refine spec_loop (I := fun _ n (l : Lexer) => Rest n l.currentFile) n (fun _ _ h => Nat.not_lt_zero _ h)
  (fun _ m hm => ?_) ()
 refine (readTokenRound_spec skipComment m).weaken (fun l h => h) fun r l h => ?_
 cases r with
 | inl _ => exact h
 | inr t =>
  obtain ⟨same, atEnd, rest⟩ | ⟨other, rest⟩ := h
  · exact .inl ⟨same, atEnd, Nat.lt_of_lt_of_le rest hm⟩
  · exact .inr ⟨other, Nat.lt_of_lt_of_le rest hm⟩

def weight (l : Lexer) : ℕ :=
 2 * l.currentFile.left + if l.havePeek = true ∧ l.currentToken ≠ .endOfFile then 1 else 0

/-- A weight below `n`; and the end of the file is peeked only at the end of the file. -/
def Within (n : ℕ) (l : Lexer) : Prop :=
 (l.havePeek = true → l.currentToken = .endOfFile → l.currentFile.isEof = true) ∧ l.weight < n

def Peeked (t : Token) (n : ℕ) (l : Lexer) : Prop :=
 Within n l ∧ l.havePeek = true ∧ l.currentToken = t

theorem peekToken_peeked : Spec (Within n) (peekToken skipComment) fun t => Peeked t n := by
 refine spec_bind (Q := fun havePeek l => l.havePeek = havePeek ∧ Within n l)
  (spec_read fun l h => ⟨rfl, h⟩) fun havePeek => ?_
 refine spec_ite (fun peeked => spec_read fun l h => ⟨h.2, h.1.trans peeked, rfl⟩) fun fresh => ?_
 intro l h
 have light : 2 * l.currentFile.left < n := by
  have less := h.2.2
  unfold weight at less
  omega
 obtain ⟨t, m, run, given⟩ := readToken_given skipComment (l.currentFile.left + 1) l
  (Nat.lt_succ_self _)
 refine ⟨t, { m with currentToken := t, havePeek := true }, ?_, ⟨⟨fun _ same => ?_, ?_⟩, rfl, rfl⟩⟩
 · exact (runs_bind _ _ _ _ _).mpr ⟨t, m, run, runs_step _ m⟩
 · obtain ⟨_, atEnd, _⟩ | ⟨other, _⟩ := given
   · exact atEnd
   · exact absurd same other
 · change 2 * m.currentFile.left + (if true = true ∧ t ≠ .endOfFile then 1 else 0) < n
   obtain ⟨same, _, rest⟩ | ⟨other, rest⟩ := given
   · have le : m.currentFile.left < l.currentFile.left + 1 := rest
     simp only [same, ne_eq, not_true, and_false, if_false]
     omega
   · simp only [other, ne_eq, not_false_iff, and_self, if_true]
     omega

theorem peekToken_again (t : Token) (n : ℕ) :
 Spec (Peeked t n) (peekToken skipComment) fun u l => u = t ∧ Peeked t n l := by
 refine spec_bind (Q := fun havePeek l => havePeek = true ∧ Peeked t n l)
  (spec_read fun l h => ⟨h.2.1, h⟩) fun havePeek => ?_
 refine spec_ite (fun _ => spec_read fun l h => ⟨h.2.2.2, h.2⟩) fun fresh => ?_
 intro l h
 exact absurd h.1 fresh

theorem getToken_takes {t : Token} (h : t ≠ .endOfFile) (n : ℕ) :
 Spec (Peeked t (n + 1)) (getToken skipComment) fun u l => u = t ∧ Within n l := by
 refine spec_bind (Q := fun havePeek l => havePeek = true ∧ Peeked t (n + 1) l)
  (spec_read fun l h => ⟨h.2.1, h⟩) fun havePeek => ?_
 refine spec_ite (fun _ => spec_step fun l hl => ?_) fun fresh => ?_
 · obtain ⟨_, ⟨_, less⟩, peeked, same⟩ := hl
   refine ⟨same, fun no => absurd no (by simp), ?_⟩
   unfold weight at less ⊢
   simp only [peeked, same, h, ne_eq, not_false_iff, and_self, if_true] at less
   simp
   omega
 · intro l h
   exact absurd h.1 fresh

instance keeps_peekToken (skipComment : Bool) : Keeps Within (peekToken skipComment) :=
 ⟨fun n => (peekToken_peeked skipComment n).weaken (fun _ h => h) fun _ _ h => h.1⟩

instance keeps_getToken (skipComment : Bool) : Keeps Within (getToken skipComment) := by
 refine ⟨fun n => ?_⟩
 refine spec_bind (Q := fun havePeek l => l.havePeek = havePeek ∧ Within n l)
  (spec_read fun l h => ⟨rfl, h⟩) fun havePeek => ?_
 refine spec_ite (fun peeked => spec_step fun l h => ?_) fun fresh => ?_
 · refine ⟨fun no => absurd no (by simp), ?_⟩
   have less := h.2.2
   unfold weight at less ⊢
   simp
   omega
 · intro l h
   have light : 2 * l.currentFile.left < n := by
    have less := h.2.2
    unfold weight at less
    omega
   obtain ⟨t, m, run, given⟩ := readToken_given skipComment (l.currentFile.left + 1) l
    (Nat.lt_succ_self _)
   refine ⟨t, { m with currentToken := t, havePeek := false }, ?_, fun no => absurd no (by simp), ?_⟩
   · exact (runs_bind _ _ _ _ _).mpr ⟨t, m, run, runs_step _ m⟩
   · have le : m.currentFile.left < l.currentFile.left + 1 := by
      obtain ⟨_, _, rest⟩ | ⟨_, rest⟩ := given
      · exact rest
      · omega
     unfold weight
     simp
     omega

theorem keeps_untilEof {α : Type} (body : α → Prog File (α ⊕ α)) (a : α)
 [h : Keeps Rest (untilEof body a)] : Keeps Within (onFile (untilEof body a)) := by
 refine ⟨fun n l hl => ?_⟩
 cases atEnd : l.currentFile.isEof with
 | true => exact ⟨a, l, (runs_zoom _ _ _ _ _ _).mpr ⟨_, untilEof_at_end body a atEnd, rfl⟩, hl⟩
 | false =>
  obtain ⟨b, f, run, rest⟩ := h.keeps (l.currentFile.left + 1) l.currentFile
   (Nat.lt_succ_self _)
  refine ⟨b, { l with currentFile := f }, (runs_zoom _ _ _ _ _ _).mpr ⟨f, run, rfl⟩, ?_, ?_⟩
  · intro peeked same
    have clash := hl.1 peeked same
    rw [atEnd] at clash
    cases clash
  · have less := hl.2
    change f.left < l.currentFile.left + 1 at rest
    unfold weight at less ⊢
    change 2 * f.left + (if l.havePeek = true ∧ l.currentToken ≠ .endOfFile then 1 else 0) < n
    omega

instance keeps_skipCurrentLine : Keeps Within skipCurrentLine := keeps_untilEof _ ()

instance keeps_skipCurrentLineUntil (untilChar : Char) :
 Keeps Within (skipCurrentLineUntil untilChar) :=
 keeps_untilEof _ ()

instance keeps_skip (untilChar : Char) : Keeps Within (skip untilChar) := keeps_untilEof _ ()

theorem skipEof_runs {l : Lexer} (h : l.currentFile.isEof = true) : skipEof.Runs l () l :=
 (runs_zoom _ _ _ _ _ _).mpr ⟨_, untilEof_at_end _ () h, rfl⟩

theorem skipEof_not_halts {l : Lexer} (h : l.currentFile.isEof = false) : ¬ skipEof.Halts l := by
 rintro ⟨_, _, run⟩
 obtain ⟨f, ⟨n, hn⟩, _⟩ := (runs_zoom _ _ _ _ _ _).mp run
 induction n with
 | zero => cases hn
 | succ n ih =>
  refine ih ?_
  change ((if l.currentFile.isEof = true then pure (.inr ()) else pure (.inl ()) :
   Prog File (Unit ⊕ Unit)).run n l.currentFile).bind _ = _ at hn
  rw [h] at hn
  exact hn

end Lexer
end DriversFramework.HdiParser
