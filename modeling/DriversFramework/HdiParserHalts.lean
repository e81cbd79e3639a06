import DriversFramework.HdiLexerHalts
import DriversFramework.HdiParserFile

set_option synthInstance.maxSize 2000

namespace DriversFramework.HdiParser.Parser

open LoopPrograms LoopPrograms.Prog

def Held (n : ℕ) (p : Parser) : Prop := Lexer.Within n p.lexer

/-- The token `t` is peeked, and it weighs less than `n` with the rest. -/
def Peeked (t : Token) (n : ℕ) (p : Parser) : Prop := Lexer.Peeked t n p.lexer

def Ready (t : Token) (n : ℕ) (p : Parser) : Prop := Held n p ∨ Peeked t (n + 1) p

theorem Held.mono {n m : ℕ} {p : Parser} (h : Held n p) (le : n ≤ m) : Held m p :=
 ⟨h.1, Nat.lt_of_lt_of_le h.2 le⟩

theorem Ready.held {t : Token} {n : ℕ} {p : Parser} (h : Ready t n p) : Held (n + 1) p := by
 obtain held | peeked := h
 · exact held.mono (Nat.le_succ n)
 · exact peeked.1

theorem not_peeked_zero (t : Token) (p : Parser) : ¬ Peeked t 0 p :=
 fun h => Nat.not_lt_zero _ h.1.2

theorem onLexer_spec {α : Type} {P : Lexer → Prop} {c : Prog Lexer α} {Q : α → Lexer → Prop}
 (h : Spec P c Q) : Spec (fun p => P p.lexer) (onLexer c) fun a p => Q a p.lexer :=
 spec_zoom h (fun _ h => h) fun _ _ _ _ h => h

theorem runs_onLexer {α : Type} (c : Prog Lexer α) (p q : Parser) (a : α) :
 (onLexer c).Runs p a q ↔ ∃ l, c.Runs p.lexer a l ∧ { p with lexer := l } = q :=
 runs_zoom _ _ c p q a

instance keeps_onLexer {α : Type} (c : Prog Lexer α) [h : Keeps Lexer.Within c] :
 Keeps Held (onLexer c) :=
 ⟨fun n => onLexer_spec (h.keeps n)⟩

theorem peekToken_peeked (n : ℕ) : Spec (Held n) peekToken fun t => Peeked t n :=
 onLexer_spec (Lexer.peekToken_peeked true n)

theorem peekToken_again (t : Token) (n : ℕ) :
 Spec (Peeked t n) peekToken fun u p => u = t ∧ Peeked t n p :=
 onLexer_spec (Lexer.peekToken_again true t n)

theorem getToken_takes {t : Token} (h : t ≠ .endOfFile) (n : ℕ) :
 Spec (Peeked t (n + 1)) getToken fun _ => Held n :=
 (onLexer_spec (Lexer.getToken_takes true h n)).weaken (fun _ h => h) fun _ _ h => h.2

instance keeps_peekToken : Keeps Held peekToken := keeps_onLexer _

instance keeps_getToken : Keeps Held getToken := keeps_onLexer _

instance keeps_takeToken : Keeps Held takeToken := by
 unfold takeToken
 infer_instance

instance keeps_skipCurrentLine : Keeps Held skipCurrentLine := keeps_onLexer _

instance keeps_skipCurrentLineUntil (untilChar : Char) :
 Keeps Held (skipCurrentLineUntil untilChar) :=
 keeps_onLexer _

instance keeps_skip (untilChar : Char) : Keeps Held (skip untilChar) := keeps_onLexer _

theorem takeToken_peeked {t : Token} (h : t ≠ .endOfFile) (n : ℕ) :
 Spec (Peeked t (n + 1)) takeToken fun _ => Held n :=
 spec_bind (getToken_takes h n) fun _ => spec_pure fun _ h => h

theorem takeToken_ready {t : Token} (h : t ≠ .endOfFile) (n : ℕ) :
 Spec (Ready t n) takeToken fun _ => Held n := by
 rintro p (held | peeked)
 · exact keeps_takeToken.keeps n p held
 · exact takeToken_peeked h n p peeked

instance keeps_getIdentifier (I : ℕ → Parser → Prop) : Keeps I getIdentifier := keeps_read I _

instance keeps_dumpToken (I : ℕ → Parser → Prop) : Keeps I dumpToken := keeps_read I _

instance keeps_getFilePath (I : ℕ → Parser → Prop) : Keeps I getFilePath := keeps_read I _

instance keeps_getDigit (I : ℕ → Parser → Prop) : Keeps I getDigit := keeps_read I _

instance keeps_getAst (I : ℕ → Parser → Prop) : Keeps I getAst := keeps_read I _

instance keeps_findType (I : ℕ → Parser → Prop) (typeName : Name) : Keeps I (findType typeName) :=
 keeps_read I _

instance keeps_onAst (f : Ast → Ast) : Keeps Held (onAst f) :=
 ⟨fun _ => spec_modify fun _ h => h⟩

instance keeps_logErrorAt (lineNo columnNo : ℕ) (message : Name) :
 Keeps Held (logErrorAt lineNo columnNo message) :=
 ⟨fun _ => spec_modify fun _ h => h⟩

instance keeps_logError (message : Name) : Keeps Held (logError message) := by
 unfold logError
 infer_instance

instance keeps_logTokenError (before after : String) : Keeps Held (logTokenError before after) := by
 unfold logTokenError
 infer_instance

def Goes {α β : Type} (done : β → Prop) (next : β → Parser → Prop) (r : β ⊕ α) (p : Parser) : Prop :=
 ∀ c, r = .inl c → done c ∨ next c p

section goes
variable {α β : Type} {done : β → Prop} {next : β → Parser → Prop} {p : Parser}

theorem goes_inr (a : α) : Goes done next (.inr a) p := by
 intro c h
 cases h

theorem goes_inl {b : β} (h : done b ∨ next b p) : Goes (α := α) done next (.inl b) p := by
 intro c same
 rw [← Sum.inl.inj same]
 exact h

theorem keeps_tokenLoop {body : β → ParserM (β ⊕ α)} (token : β → Token) (done : β → Prop)
 (kept : ∀ b, Keeps Held (body b))
 (round : ∀ b n,
  Spec (Ready (token b) n) (body b) (Goes done fun c p => Peeked (token c) n p))
 (ends : ∀ b p, done b → ∃ a, (body b).Runs p (.inr a) p) (b : β) : Keeps Held (loop body b) :=
 keeps_loop (fun b => Peeked (token b)) done kept (fun b p => not_peeked_zero (token b) p) round
  ends b

theorem keeps_peekLoop {body : β → ParserM (β ⊕ α)} (done : β → Prop)
 (kept : ∀ b, Keeps Held (body b))
 (round : ∀ b n, Spec (Held (n + 1)) (body b) (Goes done fun _ => Held n))
 (ends : ∀ b p, done b → ∃ a, (body b).Runs p (.inr a) p) (b : β) : Keeps Held (loop body b) := by
 refine keeps_loop (fun _ => Held) done kept (fun b p h => Nat.not_lt_zero _ h.2) (fun b n => ?_)
  ends b
 refine (round b n).weaken (fun p h => ?_) fun r p h => h
 obtain less | more := h
 · exact less.mono (Nat.le_succ n)
 · exact more

end goes

theorem spec_ends {α β γ : Type} {done : β → Prop} {next : β → Parser → Prop} {c : ParserM γ}
 (a : γ → α) (n : ℕ) [h : Keeps Held c] :
 Spec (Held n) (c >>= fun x => return (.inr (a x) : β ⊕ α)) (Goes done next) :=
 spec_bind (h.keeps n) fun x => spec_pure fun _ _ => goes_inr (a x)

theorem spec_nextToken {α β : Type} {token : β → Token} {done : β → Prop} {f : Token → β}
 (same : ∀ t, token (f t) = t) (n : ℕ) :
 Spec (Held n) (peekToken >>= fun t => return (.inl (f t) : β ⊕ α))
  (Goes done fun c p => Peeked (token c) n p) := by
 refine spec_bind (peekToken_peeked n) fun t => spec_pure fun p h => goes_inl (.inr ?_)
 rw [same]
 exact h

instance keeps_passUntil (stops : List Token) [ends : Fact (Token.endOfFile ∈ stops)]
 (token : Token) : Keeps Held (passUntil stops token) := by
 refine keeps_tokenLoop id (fun _ => False) (fun _ => inferInstance) (fun token n => ?_)
  (fun _ _ h => h.elim) token
 refine spec_ite (fun _ => spec_pure fun _ _ => goes_inr token) fun other => ?_
 have more : token ≠ .endOfFile := by
  rintro rfl
  exact other ends.out
 exact spec_bind (takeToken_ready more n) fun _ => spec_nextToken (fun _ => rfl) n

class Takes {α : Type} (c : ParserM α) : Prop where
 takes : ∀ t n, t ≠ .endOfFile → Spec (Peeked t (n + 1)) c fun _ => Held n

instance takes_takeToken {α : Type} (f : Unit → ParserM α) [h : ∀ u, Keeps Held (f u)] :
 Takes (takeToken >>= f) :=
 ⟨fun _ n more => spec_bind (takeToken_peeked more n) fun u => (h u).keeps n⟩

instance keeps_setIdlPackage (packageName : Name) (d : FileDetail) :
 Keeps Held (setIdlPackage packageName d) := by
 unfold setIdlPackage
 infer_instance

instance keeps_parseIdlPackage (d : FileDetail) : Keeps Held (parseIdlPackage d) := by
 unfold parseIdlPackage
 infer_instance

instance takes_parseIdlPackage (d : FileDetail) : Takes (parseIdlPackage d) := by
 unfold parseIdlPackage
 infer_instance

instance keeps_addIdlImport (importPkgName : Name) (d : FileDetail) :
 Keeps Held (addIdlImport importPkgName d) := by
 unfold addIdlImport
 infer_instance

instance keeps_parseIdlImport (d : FileDetail) : Keeps Held (parseIdlImport d) := by
 unfold parseIdlImport
 infer_instance

instance takes_parseIdlImport (d : FileDetail) : Takes (parseIdlImport d) := by
 unfold parseIdlImport
 infer_instance

instance keeps_idlDetailRound (r : Bool × FileDetail) : Keeps Held (idlDetailRound r) := by
 unfold idlDetailRound
 infer_instance

theorem spec_takes {α β γ : Type} {done : β → Prop} {c : ParserM γ} (f : γ → β) {t : Token}
 (more : t ≠ .endOfFile) (n : ℕ) [h : Takes c] :
 Spec (Peeked t (n + 1)) (c >>= fun x => return (.inl (f x) : β ⊕ α))
  (Goes done fun _ => Held n) :=
 spec_bind (h.takes t n more) fun _ => spec_pure fun _ h => goes_inl (.inr h)

instance keeps_idlDetailLoop (r : Bool × FileDetail) : Keeps Held (loop idlDetailRound r) := by
 refine keeps_peekLoop (fun _ => False) (fun _ => inferInstance) (fun r n => ?_)
  (fun _ _ h => h.elim) r
 refine spec_bind (peekToken_peeked (n + 1)) fun token => ?_
 refine spec_ite (fun _ => spec_pure fun _ _ => goes_inr r) fun more => ?_
 refine spec_ite (fun _ => spec_takes _ more n) fun _ => ?_
 refine spec_ite (fun _ => spec_takes _ more n) fun _ => ?_
 exact spec_bind (takeToken_peeked more n) fun _ => spec_pure fun _ h => goes_inl (.inr h)

instance keeps_parseIdlDetail : Keeps Held parseIdlDetail := by
 unfold parseIdlDetail
 infer_instance

instance keeps_checkType (lineNo columnNo : ℕ) (type : AstType) :
 Keeps Held (checkType lineNo columnNo type) := by
 unfold checkType
 infer_instance

instance keeps_parseUnsignedType (typeLineNo typeColumnNo : ℕ) :
 Keeps Held (parseUnsignedType typeLineNo typeColumnNo) := by
 unfold parseUnsignedType
 infer_instance

instance keeps_internType (built : AstType) : Keeps Held (internType built) := by
 unfold internType
 infer_instance

instance keeps_parseArrayType (elementType : Option AstType) :
 Keeps Held (parseArrayType elementType) := by
 unfold parseArrayType
 infer_instance

instance keeps_parseCustomType : Keeps Held parseCustomType := by
 unfold parseCustomType
 infer_instance

instance keeps_finishType (typeLineNo typeColumnNo : ℕ) (type : Option AstType) :
 Keeps Held (finishType typeLineNo typeColumnNo type) := by
 unfold finishType
 infer_instance

/-- `Held n`, for the `n` below a bound. -/
def Below (bound n : ℕ) (p : Parser) : Prop := n < bound ∧ Held n p

instance keeps_below {α : Type} (bound : ℕ) (c : ParserM α) [h : Keeps Held c] :
 Keeps (Below bound) c :=
 ⟨fun n p hp => by
  obtain ⟨a, q, run, held⟩ := h.keeps n p hp.2
  exact ⟨a, q, run, hp.1, held⟩⟩

instance keeps_parseMapValue (bound : ℕ) (c : ParserM (Option AstType)) [Keeps (Below bound) c]
 (keyType : AstType) : Keeps (Below bound) (parseMapValue c keyType) := by
 unfold parseMapValue
 infer_instance

theorem spec_takes_below {α : Type} (bound : ℕ) (f : Unit → ParserM α)
 [h : ∀ u, Keeps (Below bound) (f u)] {t : Token} (more : t ≠ .endOfFile) (n : ℕ)
 (le : n ≤ bound) : Spec (Peeked t n) (takeToken >>= f) fun _ => Held n := by
 cases n with
 | zero => exact fun p hp => absurd hp (not_peeked_zero t p)
 | succ n =>
  refine spec_bind (takeToken_peeked more n) fun u => ?_
  exact ((h u).keeps n).weaken (fun p hp => ⟨le, hp⟩) fun _ p hp => hp.2.mono (Nat.le_succ n)

theorem parseTypeName_spec (bound : ℕ) (c : ParserM (Option AstType)) [Keeps (Below bound) c]
 (typeLineNo typeColumnNo : ℕ) (token : Token) (n : ℕ) (le : n ≤ bound) :
 Spec (Peeked token n) (parseTypeName c typeLineNo typeColumnNo token) fun _ => Held n := by
 have plain : ∀ (d : ParserM (Option AstType)) [h : Keeps Held d],
  Spec (Peeked token n) d fun _ => Held n :=
  fun d h => (h.keeps n).weaken (fun _ hp => hp.1) fun _ _ hq => hq
 have finish : ∀ type, Spec (Held n) (finishType typeLineNo typeColumnNo type) fun _ => Held n :=
  fun type => (keeps_finishType typeLineNo typeColumnNo type).keeps n
 refine spec_ite (fun _ => plain _) fun _ => ?_
 refine spec_ite (fun isList => ?_) fun _ => ?_
 · subst isList
   exact spec_bind (spec_takes_below bound _ (by decide) n le) finish
 refine spec_ite (fun isMap => ?_) fun _ => ?_
 · subst isMap
   exact spec_bind (spec_takes_below bound _ (by decide) n le) finish
 refine spec_ite (fun _ => plain _) fun _ => ?_
 refine spec_ite (fun _ => plain _) fun _ => ?_
 exact spec_ite (fun _ => plain _) fun _ => plain _

theorem keeps_parseTypeDepth (bound : ℕ) : Keeps (Below bound) (parseTypeDepth bound) := by
 induction bound with
 | zero => exact ⟨fun n p hp => absurd hp.1 (Nat.not_lt_zero n)⟩
 | succ bound ih =>
  refine ⟨fun n => ?_⟩
  have step : n ≤ bound → Spec (Held n) (parseTypeStep (parseTypeDepth bound)) fun _ => Held n := by
   intro le
   refine spec_bind ((keeps_read Held _).keeps n) fun _ => ?_
   refine spec_bind ((keeps_read Held _).keeps n) fun _ => ?_
   refine spec_bind (peekToken_peeked n) fun token => ?_
   exact parseTypeName_spec bound _ _ _ token n le
  exact fun p hp => by
   obtain ⟨a, q, run, held⟩ := step (Nat.le_of_lt_succ hp.1) p hp.2
   exact ⟨a, q, run, hp.1, held⟩

instance keeps_parseType : Keeps Held parseType := by
 refine ⟨fun n p hp => ?_⟩
 obtain ⟨a, q, run, _, held⟩ := (keeps_parseTypeDepth (n + 1)).keeps n p ⟨Nat.lt_succ_self n, hp⟩
 exact ⟨a, q, (runs_limit _ _ _ _ _).mpr ⟨n + 1, run⟩, held⟩

instance keeps_setEnumBaseType (type : EnumType AstType) (baseType : AstType) :
 Keeps Held (setEnumBaseType type baseType) := by
 unfold setEnumBaseType
 infer_instance

instance keeps_defaultEnumBaseType (type : EnumType AstType) :
 Keeps Held (defaultEnumBaseType type) := by
 unfold defaultEnumBaseType
 infer_instance

instance keeps_parseEnumBaseType (type : EnumType AstType) :
 Keeps Held (parseEnumBaseType type) := by
 unfold parseEnumBaseType
 infer_instance

instance keeps_parseEnumValue (value : EnumValue AstType) : Keeps Held (parseEnumValue value) := by
 unfold parseEnumValue
 infer_instance

instance keeps_enumMemberRound (s : Token × EnumType AstType) : Keeps Held (enumMemberRound s) := by
 unfold enumMemberRound
 infer_instance

instance keeps_enumMemberLoop (s : Token × EnumType AstType) :
 Keeps Held (loop enumMemberRound s) := by
 refine keeps_tokenLoop Prod.fst (fun s => s.1 = .bracesRight) (fun _ => inferInstance)
  (fun s n => ?_) (fun s p h => ?_) s
 · refine spec_ite (fun _ => spec_pure fun _ _ => goes_inr (some s.2)) fun _ => ?_
   refine spec_ite (fun _ => ?_) fun name => ?_
   · exact (spec_ends (fun _ => none) (n + 1)).weaken (fun p hp => hp.held) fun _ _ hq => hq
   have more : s.1 ≠ .endOfFile := by
    intro atEnd
    rw [atEnd] at name
    exact name (by decide)
   refine spec_bind (Q := fun _ => Ready s.1 n) (spec_read fun p hp => hp) fun name => ?_
   refine spec_bind (takeToken_ready more n) fun _ => ?_
   refine spec_bind ((keeps_parseEnumValue _).keeps n) fun member => ?_
   cases member with
   | none => exact spec_pure fun _ _ => goes_inr none
   | some member =>
    refine spec_ite (fun _ => ?_) fun _ => spec_ite (fun _ => ?_) fun _ => ?_
    · exact spec_bind (keeps_takeToken.keeps n) fun _ => spec_nextToken (fun _ => rfl) n
    · exact spec_pure fun _ _ => goes_inl (.inl rfl)
    · exact spec_ends (fun _ => none) n
 · refine ⟨some s.2, 0, ?_⟩
   unfold enumMemberRound
   rw [if_pos h]
   rfl

instance keeps_parseEnumMember (type : EnumType AstType) : Keeps Held (parseEnumMember type) := by
 unfold parseEnumMember
 infer_instance

instance keeps_parseEnumBody (attributes : Option Attribute) (type : EnumType AstType) :
 Keeps Held (parseEnumBody attributes type) := by
 unfold parseEnumBody
 infer_instance

instance keeps_parseEnumDefine (attributes : Option Attribute) :
 Keeps Held (parseEnumDefine attributes) := by
 unfold parseEnumDefine
 infer_instance

instance takes_parseEnumDefine (attributes : Option Attribute) :
 Takes (parseEnumDefine attributes) := by
 unfold parseEnumDefine
 infer_instance

instance keeps_memberRound (s : Token × StructType AstType) : Keeps Held (memberRound s) := by
 unfold memberRound
 infer_instance

instance keeps_memberLoop (s : Token × StructType AstType) : Keeps Held (loop memberRound s) := by
 refine keeps_tokenLoop Prod.fst (fun _ => False) (fun _ => inferInstance) (fun s n => ?_)
  (fun _ _ h => h.elim) s
 refine spec_ite (fun _ => spec_pure fun _ _ => goes_inr (some s.2)) fun _ => ?_
 refine spec_bind ((keeps_parseType.keeps (n + 1)).weaken (fun p hp => hp.held)
  fun _ _ hq => hq) fun member => ?_
 cases member with
 | none => exact spec_ends (fun _ => none) (n + 1)
 | some member =>
  refine spec_bind (peekToken_peeked (n + 1)) fun token => ?_
  refine spec_ite (fun _ => ?_) fun name => ?_
  · exact (spec_ends (fun _ => none) (n + 1)).weaken (fun p hp => hp.1) fun _ _ hq => hq
  have more : token ≠ .endOfFile := by
   rintro rfl
   exact name (by decide)
  refine spec_bind (Q := fun _ => Peeked token (n + 1)) (spec_read fun p hp => hp)
   fun memberName => ?_
  refine spec_bind (takeToken_peeked more n) fun _ => ?_
  refine spec_bind (keeps_peekToken.keeps n) fun token => ?_
  refine spec_ite (fun _ => ?_) fun _ => spec_ite (fun _ => ?_) fun _ => ?_
  · exact spec_bind (keeps_takeToken.keeps n) fun _ => spec_nextToken (fun _ => rfl) n
  · exact spec_pure fun _ _ => goes_inr _
  · exact spec_ends (fun _ => none) n

instance keeps_parseMembers (type : StructType AstType) : Keeps Held (parseMembers type) := by
 unfold parseMembers
 infer_instance

instance keeps_parseMembersDefine (noName : String) (wrap : StructType AstType → AstType)
 (attributes : Option Attribute) : Keeps Held (parseMembersDefine noName wrap attributes) := by
 unfold parseMembersDefine
 infer_instance

instance takes_parseMembersDefine (noName : String) (wrap : StructType AstType → AstType)
 (attributes : Option Attribute) : Takes (parseMembersDefine noName wrap attributes) := by
 unfold parseMembersDefine
 infer_instance

instance keeps_parseLicense : Keeps Held parseLicense := by
 unfold parseLicense
 infer_instance

instance keeps_setPackageName (packageFullName : Name) :
 Keeps Held (setPackageName packageFullName) := by
 unfold setPackageName
 infer_instance

instance keeps_parsePackageName : Keeps Held parsePackageName := by
 unfold parsePackageName
 infer_instance

instance takes_parsePackageName : Takes parsePackageName := by
 unfold parsePackageName
 infer_instance

instance keeps_addImport (packageFullName : Name) : Keeps Held (addImport packageFullName) := by
 unfold addImport
 infer_instance

instance keeps_parseImport : Keeps Held parseImport := by
 unfold parseImport
 infer_instance

instance takes_parseImport : Takes parseImport := by
 unfold parseImport
 infer_instance

instance keeps_addSequenceable (classFullName : Name) : Keeps Held (addSequenceable classFullName) := by
 unfold addSequenceable
 infer_instance

instance keeps_parseSequenceable : Keeps Held parseSequenceable := by
 unfold parseSequenceable
 infer_instance

instance takes_parseSequenceable : Takes parseSequenceable := by
 unfold parseSequenceable
 infer_instance

instance keeps_skipAttributes : Keeps Held skipAttributes := by
 unfold skipAttributes
 infer_instance

instance keeps_attributeRound (s : Token × Attribute) : Keeps Held (attributeRound s) := by
 unfold attributeRound
 infer_instance

theorem setAttribute_endOfFile (attributes : Attribute) :
 setAttribute attributes .endOfFile = none := rfl

instance keeps_attributeLoop (s : Token × Attribute) : Keeps Held (loop attributeRound s) := by
 refine keeps_tokenLoop Prod.fst (fun _ => False) (fun _ => inferInstance) (fun s n => ?_)
  (fun _ _ h => h.elim) s
 refine spec_ite (fun _ => spec_pure fun _ _ => goes_inr (some s.2)) fun _ => ?_
 cases set : setAttribute s.2 s.1 with
 | none => exact (spec_ends (fun _ => none) (n + 1)).weaken (fun p hp => hp.held) fun _ _ hq => hq
 | some attributes =>
  have more : s.1 ≠ .endOfFile := by
   intro atEnd
   rw [atEnd, setAttribute_endOfFile] at set
   cases set
  refine spec_bind (takeToken_ready more n) fun _ => ?_
  refine spec_bind (keeps_peekToken.keeps n) fun token => ?_
  refine spec_ite (fun _ => ?_) fun _ => spec_ite (fun _ => ?_) fun _ => ?_
  · exact spec_bind (keeps_takeToken.keeps n) fun _ => spec_nextToken (fun _ => rfl) n
  · exact spec_pure fun _ _ => goes_inr _
  · exact spec_ends (fun _ => none) n

instance keeps_parseAttributeBody : Keeps Held parseAttributeBody := by
 unfold parseAttributeBody
 infer_instance

theorem parseAttributeBody_takes (n : ℕ) :
 Spec (Peeked .bracketsLeft (n + 1)) parseAttributeBody fun _ => Held n := by
 refine spec_bind (peekToken_again .bracketsLeft (n + 1)) fun token => ?_
 refine spec_ite (fun other => ?_) fun _ => ?_
 · rintro p ⟨same, _⟩
   exact absurd same other
 · refine Spec.weaken (P := Peeked .bracketsLeft (n + 1)) ?_ (fun p hp => hp.2) fun _ _ hq => hq
   exact spec_bind (takeToken_peeked (by decide) n) fun _ => Keeps.keeps n

theorem parseAttributeBody_other {t : Token} (other : t ≠ .bracketsLeft) (n : ℕ) :
 Spec (Peeked t n) parseAttributeBody fun r p => r = (true, none) ∧ Peeked t n p := by
 refine spec_bind (peekToken_again t n) fun token => ?_
 refine spec_ite (fun _ => spec_pure fun p hp => ⟨rfl, hp.2⟩) fun bracket => ?_
 rintro p ⟨same, _⟩
 exact absurd (same.symm.trans (not_not.mp bracket)) other

instance endOfFile_of_two : Fact (Token.endOfFile ∈ [Token.semicolon, .endOfFile]) := ⟨by decide⟩

instance endOfFile_of_three :
 Fact (Token.endOfFile ∈ [Token.comma, .parenthesesRight, .endOfFile]) := ⟨by decide⟩

instance keeps_parseParamAttr : Keeps Held parseParamAttr := by
 unfold parseParamAttr
 infer_instance

instance keeps_parseTypedParameter (attr : ParamAttr) (method : Method AstType) :
 Keeps Held (parseTypedParameter attr method) := by
 unfold parseTypedParameter
 infer_instance

instance keeps_parseParameter (method : Method AstType) : Keeps Held (parseParameter method) := by
 unfold parseParameter
 infer_instance

instance keeps_parameterRound (s : Token × Bool × Method AstType) :
 Keeps Held (parameterRound s) := by
 unfold parameterRound
 infer_instance

instance keeps_parameterLoop (s : Token × Bool × Method AstType) :
 Keeps Held (loop parameterRound s) := by
 refine keeps_tokenLoop Prod.fst (fun s => s.1 = .parenthesesRight) (fun _ => inferInstance)
  (fun s n => ?_) (fun s p h => ?_) s
 · refine spec_ite (fun _ => spec_pure fun _ _ => goes_inr (some s.2)) fun _ => ?_
   refine spec_bind (((keeps_parseParameter s.2.2).keeps (n + 1)).weaken (fun p hp => hp.held)
    fun _ _ hq => hq) fun r => ?_
   refine spec_bind (peekToken_peeked (n + 1)) fun token => ?_
   refine spec_ite (fun comma => ?_) fun _ => spec_ite (fun _ => ?_) fun close => ?_
   · subst comma
     exact spec_bind (takeToken_peeked (by decide) n) fun _ => spec_nextToken (fun _ => rfl) n
   · refine spec_bind (((keeps_logTokenError _ _).keeps (n + 1)).weaken (fun p hp => hp.1)
      fun _ _ hq => hq) fun _ => ?_
     refine spec_bind ((keeps_skipCurrentLineUntil ';').keeps (n + 1)) fun _ => ?_
     exact spec_ends (fun _ => none) (n + 1)
   · exact spec_pure fun _ _ => goes_inl (.inl (not_not.mp close))
 · refine ⟨some s.2, 0, ?_⟩
   unfold parameterRound
   rw [if_pos (.inl h)]
   rfl

instance keeps_parseParameterList (method : Method AstType) :
 Keeps Held (parseParameterList method) := by
 unfold parseParameterList
 infer_instance

instance keeps_passMethod (token : Token) : Keeps Held (passMethod token) := by
 refine keeps_peekLoop (fun token => token = .semicolon ∨ token = .endOfFile)
  (fun _ => inferInstance) (fun token n => ?_) (fun token p h => ?_) token
 · refine spec_ite (fun _ => spec_pure fun _ _ => goes_inr ()) fun _ => ?_
   refine spec_bind (peekToken_peeked (n + 1)) fun t => ?_
   refine spec_ite (fun _ => spec_pure fun _ _ => goes_inr ()) fun _ => ?_
   by_cases more : t = .endOfFile
   · refine spec_bind ((keeps_takeToken.keeps (n + 1)).weaken (fun p hp => hp.1)
      fun _ _ hq => hq) fun _ => ?_
     exact spec_pure fun _ _ => goes_inl (.inl (.inr more))
   · exact spec_bind (takeToken_peeked more n) fun _ => spec_pure fun _ hp => goes_inl (.inr hp)
 · refine ⟨(), 0, ?_⟩
   change (if token = .semicolon ∨ token = .endOfFile then pure (.inr ()) else _ :
    ParserM (Token ⊕ Unit)).run 0 p = _
   rw [if_pos h]
   rfl

instance keeps_parseNamedMethod (attributes : Option Attribute)
 (interface : InterfaceType AstType) : Keeps Held (parseNamedMethod attributes interface) := by
 unfold parseNamedMethod
 infer_instance

instance keeps_parseMethod (interface : InterfaceType AstType) :
 Keeps Held (parseMethod interface) := by
 unfold parseMethod
 infer_instance

theorem logError_peeked (t : Token) (n : ℕ) (message : Name) :
 Spec (Peeked t n) (logError message) fun _ => Peeked t n := by
 refine spec_bind (Q := fun _ => Peeked t n) (spec_read fun p hp => hp) fun lineNo => ?_
 refine spec_bind (Q := fun _ => Peeked t n) (spec_read fun p hp => hp) fun columnNo => ?_
 exact spec_modify fun p hp => hp

theorem parseNamedMethod_takes {t : Token} (more : t ≠ .endOfFile) (body : t ≠ .bracesRight)
 (attributes : Option Attribute) (interface : InterfaceType AstType) (n : ℕ) :
 Spec (Peeked t (n + 1)) (parseNamedMethod attributes interface) fun _ => Held n := by
 refine spec_bind (peekToken_again t (n + 1)) fun token => ?_
 refine spec_ite (fun _ => ?_) fun name => ?_
 · refine spec_bind (Q := fun _ p => token = t ∧ Peeked t (n + 1) p) ?_ fun _ => ?_
   · rintro p ⟨rfl, hp⟩
     obtain ⟨u, q, run, peeked⟩ := logError_peeked token (n + 1) _ p hp
     exact ⟨u, q, run, rfl, peeked⟩
   · refine spec_ite (fun close => ?_) fun _ => ?_
     · rintro p ⟨rfl, _⟩
       exact absurd close body
     · rintro p ⟨rfl, hp⟩
       exact (takes_takeToken _).takes token n more p hp
 · rintro p ⟨rfl, hp⟩
   exact (takes_takeToken _).takes token n more p hp

theorem parseMethod_takes {t : Token} (more : t ≠ .endOfFile) (body : t ≠ .bracesRight)
 (interface : InterfaceType AstType) (n : ℕ) :
 Spec (Peeked t (n + 1)) (parseMethod interface) fun _ => Held n := by
 by_cases bracket : t = .bracketsLeft
 · subst bracket
   exact spec_bind (parseAttributeBody_takes n) fun _ => Keeps.keeps n
 · refine spec_bind (parseAttributeBody_other bracket (n + 1)) fun r => ?_
   rintro p ⟨rfl, peeked⟩
   exact parseNamedMethod_takes more body none interface n p peeked

instance keeps_skipInterface : Keeps Held skipInterface := by
 unfold skipInterface
 infer_instance

instance keeps_openInterface (attributes : Option Attribute) :
 Keeps Held (openInterface attributes) := by
 unfold openInterface
 infer_instance

instance takes_openInterface (attributes : Option Attribute) :
 Takes (openInterface attributes) := by
 unfold openInterface
 infer_instance

instance keeps_methodRound (s : Bool × InterfaceType AstType) : Keeps Held (methodRound s) := by
 unfold methodRound
 infer_instance

instance keeps_parseMethods (interface : InterfaceType AstType) :
 Keeps Held (parseMethods interface) := by
 refine keeps_peekLoop (fun _ => False) (fun _ => inferInstance) (fun s n => ?_)
  (fun _ _ h => h.elim) (true, interface)
 refine spec_bind (peekToken_peeked (n + 1)) fun token => ?_
 refine spec_ite (fun _ => spec_pure fun _ _ => goes_inr _) fun inside => ?_
 obtain ⟨body, more⟩ := not_or.mp inside
 exact spec_bind (parseMethod_takes more body s.2 n) fun _ =>
  spec_pure fun _ hp => goes_inl (.inr hp)

end DriversFramework.HdiParser.Parser
