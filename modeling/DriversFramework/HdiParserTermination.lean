import DriversFramework.HdiParserHalts

set_option synthInstance.maxSize 2000

namespace DriversFramework.HdiParser.Parser

open LoopPrograms LoopPrograms.Prog

def Stuck (p : Parser) : Prop :=
 p.ast.interfaceDef.isSome = true ∧ p.lexer.currentFile.isEof = false

/-- `ParseInterface` at `p` takes the `}` of an interface and is at `q` then. -/
def Closes (attributes : Option Attribute) (p q : Parser) : Prop :=
 ∃ i s r t, (openInterface attributes).Runs p (some i) s ∧
  (parseMethods i).Runs s (.bracesRight, r) t ∧ takeToken.Runs t () q

theorem skipEof_halts_iff (p : Parser) : skipEof.Halts p ↔ p.lexer.currentFile.isEof = true := by
 constructor
 · rintro ⟨a, q, run⟩
   obtain ⟨l, hl, _⟩ := (runs_onLexer _ _ _ _).mp run
   by_contra more
   exact Lexer.skipEof_not_halts (by simpa using more) ⟨a, l, hl⟩
 · intro atEnd
   exact ⟨(), p, (runs_onLexer _ _ _ _).mpr ⟨p.lexer, Lexer.skipEof_runs atEnd, rfl⟩⟩

variable (ret : Bool) (interface : InterfaceType AstType) (attributes : Option Attribute)
  {p : Parser} (n : ℕ)

theorem skipEof_spec :
  Spec (fun p => p.lexer.currentFile.isEof = true ∧ Held n p) skipEof fun _ => Held n := by
 rintro p ⟨atEnd, hp⟩
 exact ⟨(), p, (runs_onLexer _ _ _ _).mpr ⟨p.lexer, Lexer.skipEof_runs atEnd, rfl⟩, hp⟩

theorem logError_lexer (message : Name) (P : Lexer → Prop) :
  Spec (fun p => P p.lexer) (logError message) fun _ p => P p.lexer := by
 refine spec_bind (Q := fun _ p => P p.lexer) (spec_read fun p hp => hp) fun lineNo => ?_
 refine spec_bind (Q := fun _ p => P p.lexer) (spec_read fun p hp => hp) fun columnNo => ?_
 exact spec_modify fun p hp => hp

theorem logTokenError_lexer (before after : String) (P : Lexer → Prop) :
  Spec (fun p => P p.lexer) (logTokenError before after) fun _ p => P p.lexer :=
 spec_bind (Q := fun _ p => P p.lexer) (spec_read fun _ hp => hp) fun _ => logError_lexer _ P

theorem parseMethods_peeked : Spec (Held n) (parseMethods interface) fun s p =>
   (s.1 = .bracesRight ∨ s.1 = .endOfFile) ∧ Peeked s.1 n p := by
 intro p hp
 obtain ⟨s, q, run, _⟩ := (keeps_parseMethods interface).keeps n p hp
 refine ⟨s, q, run, ?_⟩
 refine loop_result (I := Held n)
  (Q := fun s q => (s.1 = .bracesRight ∨ s.1 = .endOfFile) ∧ Peeked s.1 n q)
  (fun b c s t hs round => ((keeps_methodRound b).keeps n).of_runs hs round)
  (fun b a s t hs round => ?_) hp run
 obtain ⟨token, u, peek, rest⟩ := (runs_bind _ _ _ _ _).mp round
 have peeked := (peekToken_peeked n).of_runs hs peek
 split at rest
 · obtain ⟨same, rfl⟩ := (runs_pure _ _ _ _).mp rest
   obtain rfl := Sum.inr.inj same
   exact ⟨‹_›, peeked⟩
 · obtain ⟨r, v, _, last⟩ := (runs_bind _ _ _ _ _).mp rest
   obtain ⟨clash, _⟩ := (runs_pure _ _ _ _).mp last
   cases clash

theorem closeInterface_atEnd (s : Token × Bool × InterfaceType AstType) (h : s.1 = .endOfFile)
  (n : ℕ) : Spec (Peeked s.1 n) (closeInterface s) fun _ => Held n := by
 refine spec_ite (fun _ => ?_) fun close => ?_
 · refine Spec.weaken (P := fun p => p.lexer.currentFile.isEof = true ∧ Held n p)
    (Q := fun _ => Held n) ?_ (fun p hp => ⟨hp.1.1 hp.2.1 (hp.2.2.trans h), hp.1⟩) fun _ _ hq => hq
   refine spec_bind (logTokenError_lexer _ _ fun l =>
    l.currentFile.isEof = true ∧ Lexer.Within n l) fun _ => ?_
   exact spec_bind (skipEof_spec n) fun _ => spec_pure fun _ hp => hp
 · rw [h] at close
   exact absurd (by decide) close

theorem storeInterface_spec :
  Spec (fun p => ¬ Stuck p ∧ Held n p) (storeInterface ret interface) fun _ => Held n := by
 refine spec_bind (Q := fun ast p => p.ast = ast ∧ ¬ Stuck p ∧ Held n p)
  (spec_read fun p hp => ⟨rfl, hp⟩) fun ast => ?_
 refine spec_ite (fun known => ?_) fun _ => ?_
 · refine Spec.weaken (P := fun p => p.lexer.currentFile.isEof = true ∧ Held n p)
    (Q := fun _ => Held n) ?_ (fun p hp => ?_) fun _ _ hq => hq
   · refine spec_bind (logError_lexer _ fun l =>
      l.currentFile.isEof = true ∧ Lexer.Within n l) fun _ => ?_
     exact spec_bind (skipEof_spec n) fun _ => spec_pure fun _ hp => hp
   · obtain ⟨rfl, free, held⟩ := hp
     refine ⟨?_, held⟩
     by_contra more
     exact free ⟨known, by simpa using more⟩
 · refine Spec.weaken (P := Held n) (Q := fun _ => Held n) (Keeps.keeps n) (fun p hp => hp.2.2)
    fun _ _ hq => hq

theorem storeInterface_stuck (h : Stuck p) : ¬ (storeInterface ret interface).Halts p := by
 intro halts
 have known := (halts_bind_of_runs (s := p) (t := p) (a := p.ast) ⟨0, rfl⟩).mp halts
 rw [if_pos h.1] at known
 obtain ⟨_, q, log, rest⟩ := (halts_bind _ _ _).mp known
 have same : q.lexer.currentFile.isEof = false :=
  (logError_lexer _ fun l => l.currentFile.isEof = false).of_runs h.2 log
 obtain ⟨u, r, skip, _⟩ := (halts_bind _ _ _).mp rest
 have atEnd := (skipEof_halts_iff q).mp ⟨u, r, skip⟩
 rw [same] at atEnd
 cases atEnd

theorem parseInterface_spec {t : Token} (more : t ≠ .endOfFile)
  (n : ℕ) :
  Spec (fun p => Peeked t (n + 1) p ∧ ∀ q, Closes attributes p q → ¬ Stuck q)
   (parseInterface attributes) fun _ => Held n := by
 rintro p ⟨hp, free⟩
 obtain ⟨i, q, opened, hq⟩ := (takes_openInterface attributes).takes t n more p hp
 cases i with
 | none => exact ⟨false, q, (runs_bind _ _ _ _ _).mpr ⟨none, q, opened, (runs_pure _ _ _ _).mpr ⟨rfl, rfl⟩⟩, hq⟩
 | some i =>
  obtain ⟨s, r, methods, ended, peeked⟩ := parseMethods_peeked i n q hq
  have rest : ∃ a u, (closeInterface s).Runs r a u ∧ Held n u := by
   obtain close | atEnd := ended
   · obtain ⟨_, v, taken, hv⟩ := keeps_takeToken.keeps n r peeked.1
     have unstuck : ¬ Stuck v := free v ⟨i, q, s.2, r, opened, by rw [← close]; exact methods, taken⟩
     obtain ⟨a, u, stored, hu⟩ := storeInterface_spec s.2.1 s.2.2 n v ⟨unstuck, hv⟩
     refine ⟨a, u, ?_, hu⟩
     unfold closeInterface
     rw [if_neg (by simp [close])]
     exact (runs_bind _ _ _ _ _).mpr ⟨(), v, taken, stored⟩
   · exact closeInterface_atEnd s atEnd n r peeked
  obtain ⟨a, u, closed, hu⟩ := rest
  refine ⟨a, u, (runs_bind _ _ _ _ _).mpr ⟨some i, q, opened, ?_⟩, hu⟩
  exact (runs_bind _ _ _ _ _).mpr ⟨s, r, methods, closed⟩

theorem parseInterface_stuck {q : Parser}
  (closes : Closes attributes p q) (h : Stuck q) : ¬ (parseInterface attributes).Halts p := by
 obtain ⟨i, s, r, t, opened, methods, taken⟩ := closes
 intro halts
 have body := (halts_bind_of_runs opened).mp halts
 have close := (halts_bind_of_runs (f := closeInterface) methods).mp body
 unfold closeInterface at close
 rw [if_neg (by simp)] at close
 exact storeInterface_stuck r.1 r.2 h ((halts_bind_of_runs taken).mp close)

/-- The definition at `p` is an interface whose body the parser closes without getting on. -/
def ClosesSecond (p : Parser) : Prop :=
 ∃ q r, Stuck r ∧
  ((peekToken.Runs p .interface q ∧ Closes none q r) ∨
   ∃ s t attributes, peekToken.Runs p .bracketsLeft s ∧
    parseAttributeBody.Runs s (true, attributes) t ∧ peekToken.Runs t .interface q ∧
    Closes attributes q r)

theorem parseInterface_keeps {t : Token} (more : t ≠ .endOfFile)
  (n : ℕ) :
  Spec (fun p => Peeked t n p ∧ ∀ q, Closes attributes p q → ¬ Stuck q)
   (parseInterface attributes) fun _ => Held n := by
 cases n with
 | zero => exact fun p hp => absurd hp.1 (not_peeked_zero t p)
 | succ n =>
  exact (parseInterface_spec attributes more n).weaken (fun _ hp => hp)
   fun _ _ hq => hq.mono (Nat.le_succ n)

theorem parseAttributed_spec :
  Spec (fun p => Held n p ∧ ∀ q r, peekToken.Runs p .interface q → Closes attributes q r → ¬ Stuck r)
   (parseAttributed attributes) fun _ => Held n := by
 rintro p ⟨hp, free⟩
 obtain ⟨token, q, peek, peeked⟩ := peekToken_peeked n p hp
 have rest : Spec (fun r => r = q) (if token = .enum then parseEnumDefine attributes
   else if token = .struct then parseStructDefine attributes
   else if token = .union then parseUnionDefine attributes
   else if token = .interface then parseInterface attributes
   else do
    logTokenError "'" "' is not expected."
    return false) fun _ => Held n := by
  have plain : ∀ (c : ParserM Bool) [h : Keeps Held c], Spec (fun r => r = q) c fun _ => Held n :=
   fun c h => (h.keeps n).weaken (fun r same => same ▸ peeked.1) fun _ _ hq => hq
  refine spec_ite (fun _ => plain _) fun _ => ?_
  refine spec_ite (fun _ => plain (parseMembersDefine _ _ attributes)) fun _ => ?_
  refine spec_ite (fun _ => plain (parseMembersDefine _ _ attributes)) fun _ => ?_
  refine spec_ite (fun isInterface => ?_) fun _ => plain _
  subst isInterface
  refine (parseInterface_keeps attributes (t := .interface) (by decide) n).weaken ?_ fun _ _ hq => hq
  intro u same
  rw [same]
  exact ⟨peeked, fun r closes => free q r peek closes⟩
 obtain ⟨a, r, run, hr⟩ := rest q rfl
 exact ⟨a, r, (runs_bind _ _ _ _ _).mpr ⟨token, q, peek, run⟩, hr⟩

theorem parseAttribute_spec : Spec (fun p => Peeked .bracketsLeft (n + 1) p ∧ ∀ q r t attributes,
    parseAttributeBody.Runs p (true, attributes) t → peekToken.Runs t .interface q →
    Closes attributes q r → ¬ Stuck r)
   parseAttribute fun _ => Held n := by
 rintro p ⟨hp, free⟩
 obtain ⟨⟨right, attributes⟩, q, body, hq⟩ := parseAttributeBody_takes n p hp
 cases right with
 | false =>
  refine ⟨false, q, (runs_bind _ _ _ _ _).mpr ⟨(false, attributes), q, body, ?_⟩, hq⟩
  exact (runs_pure _ _ _ _).mpr ⟨rfl, rfl⟩
 | true =>
  obtain ⟨a, r, run, hr⟩ := parseAttributed_spec attributes n q
   ⟨hq, fun r u peek closes => free r u q attributes body peek closes⟩
  exact ⟨a, r, (runs_bind _ _ _ _ _).mpr ⟨(true, attributes), q, body, run⟩, hr⟩

theorem parseDefinition_spec {token : Token} (more : token ≠ .endOfFile) (n : ℕ) {p : Parser}
  (free : ¬ ClosesSecond p) :
  Spec (fun q => peekToken.Runs p token q ∧ Peeked token (n + 1) q) (parseDefinition token)
   fun _ => Held n := by
 have plain : ∀ (c : ParserM Bool) [h : Takes c],
   Spec (fun q => peekToken.Runs p token q ∧ Peeked token (n + 1) q) c fun _ => Held n :=
  fun c h => (h.takes token n more).weaken (fun _ hp => hp.2) fun _ _ hq => hq
 have other : Spec (fun q => peekToken.Runs p token q ∧ Peeked token (n + 1) q)
   (do
    logTokenError "'" "' is not expected."
    takeToken
    return false) fun _ => Held n := by
  refine Spec.weaken (P := Peeked token (n + 1)) (Q := fun _ => Held n) ?_ (fun _ hp => hp.2)
   fun _ _ hq => hq
  refine spec_bind (logTokenError_lexer _ _ fun l => Lexer.Peeked token (n + 1) l) fun _ => ?_
  exact (takes_takeToken _).takes token n more
 unfold parseDefinition
 cases token with
 | package => exact plain parsePackageName
 | «import» => exact plain parseImport
 | sequenceable => exact plain parseSequenceable
 | enum => exact plain (parseEnumDefine none)
 | struct => exact plain (parseMembersDefine _ _ none)
 | union => exact plain (parseMembersDefine _ _ none)
 | commentLine => exact plain (takeToken >>= fun _ => pure true)
 | interface =>
  refine (parseInterface_spec none more n).weaken (fun q hq => ⟨hq.2, fun r closes stuck => ?_⟩)
   fun _ _ hq => hq
  exact free ⟨q, r, stuck, .inl ⟨hq.1, closes⟩⟩
 | bracketsLeft =>
  refine (parseAttribute_spec n).weaken (fun s hs => ⟨hs.2, ?_⟩) fun _ _ hq => hq
  intro q r t attributes body peek closes stuck
  exact free ⟨q, r, stuck, .inr ⟨s, t, attributes, hs.1, body, peek, closes⟩⟩
 | _ => exact other

theorem fileRound_spec :
  Spec (fun p => Held (n + 1) p ∧ ¬ ClosesSecond p) (fileRound ret) fun r p =>
   r.elim (fun _ => Held n p) fun _ => Held (n + 1) p := by
 rintro p ⟨hp, free⟩
 obtain ⟨token, q, peek, peeked⟩ := peekToken_peeked (n + 1) p hp
 by_cases atEnd : token = .endOfFile
 · refine ⟨.inr ret, q, (runs_bind _ _ _ _ _).mpr ⟨token, q, peek, ?_⟩, peeked.1⟩
   rw [if_pos atEnd]
   exact (runs_pure _ _ _ _).mpr ⟨rfl, rfl⟩
 · obtain ⟨a, r, run, hr⟩ := parseDefinition_spec atEnd n free q ⟨peek, peeked⟩
   refine ⟨.inl (a && ret), r, (runs_bind _ _ _ _ _).mpr ⟨token, q, peek, ?_⟩, hr⟩
   rw [if_neg atEnd]
   exact (runs_bind _ _ _ _ _).mpr ⟨a, r, run, (runs_pure _ _ _ _).mpr ⟨rfl, rfl⟩⟩

theorem fileRound_stuck (h : ClosesSecond p) :
  ¬ (fileRound ret).Halts p := by
 obtain ⟨q, r, stuck, ⟨peek, closes⟩ | ⟨s, t, attributes, peek, body, next, closes⟩⟩ := h
 · intro halts
   have rest := (halts_bind_of_runs peek).mp halts
   rw [if_neg (by decide)] at rest
   obtain ⟨a, u, run, _⟩ := (halts_bind _ _ _).mp rest
   exact parseInterface_stuck none closes stuck ⟨a, u, run⟩
 · intro halts
   have rest := (halts_bind_of_runs peek).mp halts
   rw [if_neg (by decide)] at rest
   obtain ⟨a, u, run, _⟩ := (halts_bind _ _ _).mp rest
   have attributed := (halts_bind_of_runs body).mp ⟨a, u, run⟩
   have interface := (halts_bind_of_runs (f := fun token => _) next).mp attributed
   exact parseInterface_stuck attributes closes stuck interface

/-- The rounds of `ParseFile` come to a state, with what `ret` is there. -/
inductive LoopHead : Bool × Parser → Bool × Parser → Prop where
 | start (s : Bool × Parser) : LoopHead s s
 | next {ret ret' : Bool} {p q : Parser} {s : Bool × Parser} :
   (fileRound ret).Runs p (.inl ret') q → LoopHead (ret', q) s → LoopHead (ret, p) s

theorem fileLoop_ends (ret : Bool) (p : Parser) (hp : Held n p)
  (free : ∀ s, LoopHead (ret, p) s → ¬ ClosesSecond s.2) :
  ∃ a q, (loop fileRound ret).Runs p a q ∧ ∃ m, Held m q := by
 induction n generalizing ret p with
 | zero => exact absurd hp.2 (Nat.not_lt_zero _)
 | succ n ih =>
  obtain ⟨r, q, round, hq⟩ := fileRound_spec ret n p ⟨hp, free _ (.start _)⟩
  cases r with
  | inl ret' =>
   obtain ⟨a, u, rest, hu⟩ := ih ret' q hq fun s head => free s (.next round head)
   exact ⟨a, u, (runs_loop _ _ _ _ _).mpr (.inr ⟨ret', q, round, rest⟩), hu⟩
  | inr a => exact ⟨a, q, (runs_loop _ _ _ _ _).mpr (.inl round), n + 1, hq⟩

theorem fileLoop_free {s s' : Bool × Parser} (head : LoopHead s s')
  (halts : (loop fileRound s.1).Halts s.2) : ¬ ClosesSecond s'.2 := by
 induction head with
 | start s => exact fun stuck => fileRound_stuck s.1 stuck (body_halts_of_loop halts)
 | next round _ ih => exact ih ((halts_loop_of_runs round).mp halts)

theorem openFile_spec : Spec (Held n) openFile fun _ => Held n := by
 have keeps : Keeps Held openFile := by
  unfold openFile
  infer_instance
 exact keeps.keeps n

theorem opened_held (options : Options) (errors : List ErrorInfo) (ast : Ast)
  (astModule : AstModule) (path content : List Char) :
  ∃ n, Held n (opened options errors ast astModule path content) := by
 refine ⟨_, fun no => ?_, Nat.lt_succ_self _⟩
 cases no

theorem parseFile_halts_iff {q : Parser} {n : ℕ} (hp : Held n p) (start : openFile.Runs p () q) :
  parseFile.Halts p ↔ ∀ s, LoopHead (true, q) s → ¬ ClosesSecond s.2 := by
 have hq : Held n q := (openFile_spec n).of_runs hp start
 constructor
 · intro halts s head
   have rest := (halts_bind_of_runs start).mp halts
   obtain ⟨a, u, run, _⟩ := (halts_bind _ _ _).mp rest
   exact fileLoop_free head ⟨a, u, run⟩
 · intro free
   obtain ⟨a, u, run, m, hu⟩ := fileLoop_ends n true q hq free
   have last : Keeps Held (takeToken >>= fun _ => onAst setAstFileType >>= fun _ => pure a) :=
    inferInstance
   exact (halts_bind_of_runs start).mpr ((halts_bind_of_runs run).mpr ((last.keeps m).halts hu))

/-- The parser is at the head of the loop of `ParseFile`, on its way from `p`. -/
def Reaches (p q : Parser) : Prop :=
 ∃ r ret, openFile.Runs p () r ∧ LoopHead (true, r) (ret, q)

/-- For every text, `ParseIdlDetail` ends; and `ParseFile` ends exactly if it closes no second
interface with anything left behind it. -/
theorem parsing_ends_iff (options : Options) (errors : List ErrorInfo) (ast : Ast)
    (astModule : AstModule) (path content : List Char) :
    parseIdlDetail.Halts (opened options errors ast astModule path content) ∧
      (parseFile.Halts (opened options errors ast astModule path content) ↔
        ∀ q, Reaches (opened options errors ast astModule path content) q → ¬ ClosesSecond q) := by
  obtain ⟨n, hp⟩ := opened_held options errors ast astModule path content
  obtain ⟨_, r, start, _⟩ := openFile_spec n _ hp
  refine ⟨(keeps_parseIdlDetail.keeps n).halts hp, (parseFile_halts_iff hp start).trans ?_⟩
  constructor
  · rintro free q ⟨r', ret, start', head⟩
    obtain ⟨_, rfl⟩ := start.unique start'
    exact free (ret, q) head
  · rintro free ⟨ret, q⟩ head
    exact free q ⟨r, ret, start, head⟩

/-- Two interfaces, and one byte behind them. -/
def twoInterfaces : Parser :=
 opened ⟨"cpp".toList, false⟩ [] {} [] "a/I.idl".toList
  "interface I\x7b\x7dinterface I\x7b\x7dx".toList

/-- The way of `ParseFile` through the first of two interfaces, and to the `}` of the second. -/
def throughSecond : ParserM (Option Bool × Token × Token) := do
 openFile
 let r ← fileRound true
 let t ← peekToken
 let interface ← openInterface none
 let s ← interface.elim never parseMethods
 takeToken
 return (r.getLeft?, t, s.1)

theorem twoInterfaces_stuck : ∃ q, Reaches twoInterfaces q ∧ ClosesSecond q := by
 have way : ((throughSecond.run 20 twoInterfaces).any fun r =>
   r.1 == (some true, .interface, .bracesRight) && r.2.ast.interfaceDef.isSome &&
    !r.2.lexer.currentFile.isEof) = true := by
  decide +kernel
 obtain ⟨⟨r, z⟩, run, facts⟩ := Option.any_eq_true _ _ |>.mp way
 simp only [Bool.and_eq_true, beq_iff_eq, Bool.not_eq_true'] at facts
 obtain ⟨⟨rfl, known⟩, more⟩ := facts
 obtain ⟨_, a, start, rest⟩ := (runs_bind _ _ _ _ _).mp ⟨20, run⟩
 obtain ⟨round, b, first, rest⟩ := (runs_bind _ _ _ _ _).mp rest
 obtain ⟨t, c, peek, rest⟩ := (runs_bind _ _ _ _ _).mp rest
 obtain ⟨i, d, opens, rest⟩ := (runs_bind _ _ _ _ _).mp rest
 obtain ⟨s, e, methods, rest⟩ := (runs_bind _ _ _ _ _).mp rest
 obtain ⟨_, f, taken, rest⟩ := (runs_bind _ _ _ _ _).mp rest
 obtain ⟨same, rfl⟩ := (runs_pure _ _ _ _).mp rest
 obtain ⟨goesOn, rfl, close⟩ : round.getLeft? = some true ∧ t = .interface ∧
   s.1 = .bracesRight := by
  simpa using same
 obtain ret | ended := round
 · obtain rfl : ret = true := by simpa using goesOn
   refine ⟨b, ⟨a, true, start, .next first (.start _)⟩, c, f, ⟨known, more⟩, .inl ⟨peek, ?_⟩⟩
   cases i with
   | none =>
    obtain ⟨m, hm⟩ := methods
    cases hm
   | some i =>
    obtain ⟨token, left⟩ := s
    obtain rfl : token = .bracesRight := close
    exact ⟨i, d, left, e, opens, methods, taken⟩
 · cases goesOn

/-- One byte behind the second of two interfaces, and `ParseFile` does not end. -/
theorem second_interface_hangs : ¬ parseFile.Halts twoInterfaces := by
  obtain ⟨q, ⟨r, ret, start, head⟩, stuck⟩ := twoInterfaces_stuck
  obtain ⟨n, hp⟩ := opened_held ⟨"cpp".toList, false⟩ [] {} [] "a/I.idl".toList
    "interface I\x7b\x7dinterface I\x7b\x7dx".toList
  intro halts
  exact (parseFile_halts_iff hp start).mp halts (ret, q) head stuck

end DriversFramework.HdiParser.Parser
