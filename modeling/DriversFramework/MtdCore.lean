import Mathlib.Data.BitVec
import DriversFramework.HdfBase
import DriversFramework.LoopPrograms

/-! `mtd_core.c` where `size_t` and `off_t` have 64 bits. Both are words here: an offset's value is
its `toInt`, and where it meets a size it counts as unsigned. Devices, messages and method sets
that are NULL are left out. -/
namespace DriversFramework.MtdCore

open LoopPrograms

abbrev Word := BitVec 64

structure MtdDevice where
 index : ℤ
 name : Option String
 type : ℕ
 idLen : ℕ
 capacity : Word
 eraseSize : Word
 writeSize : Word
 readSize : Word
 oobSize : Word
 deriving DecidableEq

def mtdDeviceNumMax : ℤ := 3
def mtdFlashIdLenMax : ℕ := 8
def mtdTypeMax : ℕ := 4

inductive MtdMsgType where
 | write
 | read
 | erase
 deriving DecidableEq

structure MtdMsg where
 type : MtdMsgType
 addr : Word
 buf : Option ℕ
 len : Word
 withOob : Bool
 skipBad : Bool
 deriving DecidableEq

structure MtdPage where
 type : MtdMsgType
 addr : Word
 dataBuf : ℕ
 dataLen : Word
 oobBuf : Option ℕ
 oobLen : Word
 deriving DecidableEq

abbrev Issued := List (MtdPage × HdfStatus)

structure MtdDeviceMethod where
 erase : Option (Word → Word → HdfStatus)
 pageTransfer : Option (Issued → MtdPage → HdfStatus)
 isBadBlock : Option (Word → Bool)
 lock : HdfStatus

def mtdDeviceCheckParms (d : MtdDevice) : HdfStatus :=
 if d.index < 0 ∨ d.index ≥ mtdDeviceNumMax then .errInvalidObject
 else if d.name = none then .errInvalidObject
 else if d.type ≥ mtdTypeMax then .errInvalidObject
 else if d.idLen > mtdFlashIdLenMax then .errInvalidObject
 else if d.capacity = 0 then .errInvalidObject
 else if d.eraseSize = 0 then .errInvalidObject
 else if d.writeSize = 0 then .errInvalidObject
 else if d.readSize = 0 then .errInvalidObject
 else .success

/-- `a % b`, which is not defined for 0. -/
def remainder (a b : Word) : Option Word := if b = 0 then none else some (a % b)

def mtdDeviceCheckMsg (d : MtdDevice) (msg : MtdMsg) : Option HdfStatus :=
 if msg.buf = none then some .errInvalidParam
 else if msg.addr + msg.len > d.capacity then some .errInvalidParam
 else if msg.type = .erase then do
  let offset ← remainder msg.addr d.eraseSize
  if offset ≠ 0 then some .errInvalidParam else some .success
 else do
  let oobSize := if msg.withOob then d.oobSize else 0
  let offset ← remainder msg.addr d.writeSize
  -- the length is looked at only behind an aligned address
  let misaligned ← (if offset ≠ 0 then some true
   else (remainder msg.len (d.writeSize + oobSize)).map fun rest => decide (rest ≠ 0))
  if misaligned then
   if msg.type ≠ .read ∨ msg.withOob then some .errInvalidParam else some .success
  else some .success

structure PageState where
 addr : Word
 buf : ℕ
 dataLenLeft : Word
 issued : Issued

def isBadBlock (ops : MtdDeviceMethod) (addr : Word) : Bool :=
 (ops.isBadBlock.map fun isBadBlock => isBadBlock addr).getD false

def mtdPage (d : MtdDevice) (msg : MtdMsg) (s : PageState) (blockSize : Word) : MtdPage :=
 let dataLen := d.writeSize - (s.addr &&& (d.writeSize - 1))
 let dataLen := if dataLen > blockSize then blockSize else dataLen
 { type := msg.type
   addr := s.addr
   dataBuf := s.buf
   dataLen := dataLen
   oobBuf := if msg.withOob then some (s.buf + dataLen.toNat) else none
   oobLen := if msg.withOob then d.oobSize else 0 }

def mtdDevicePageTransferUnlocked (ops : MtdDeviceMethod) (page : MtdPage) (s : PageState) :
  HdfStatus × PageState :=
 match ops.pageTransfer with
 | none => (.errNotSupport, s)
 | some pageTransfer =>
  let ret := pageTransfer s.issued page
  (ret, { s with issued := s.issued ++ [(page, ret)] })

def advance (page : MtdPage) (s : PageState) : PageState :=
 { s with
  buf := s.buf + page.dataLen.toNat + page.oobLen.toNat
  addr := s.addr + page.dataLen
  dataLenLeft := s.dataLenLeft - page.dataLen }

def pageRound (d : MtdDevice) (ops : MtdDeviceMethod) (msg : MtdMsg) (blockSize : Word)
  (s : PageState) : (Word ⊕ Option HdfStatus) × PageState :=
 if blockSize > 0 then
  let page := mtdPage d msg s blockSize
  let r := mtdDevicePageTransferUnlocked ops page s
  if r.1 ≠ .success then (.inr (some r.1), r.2)
  else (.inl (blockSize - page.dataLen), advance page r.2)
 else (.inr none, s)

def pageLoop (d : MtdDevice) (ops : MtdDeviceMethod) (msg : MtdMsg) (blockSize : Word) :
  Prog PageState (Option HdfStatus) :=
 Prog.loop (fun blockSize => Prog.step (pageRound d ops msg blockSize)) blockSize

def blockSize (d : MtdDevice) (s : PageState) : Word :=
 let eraseOffset := s.addr &&& (d.eraseSize - 1)
 if s.dataLenLeft < d.eraseSize - eraseOffset then s.dataLenLeft else d.eraseSize - eraseOffset

def skipBlock (d : MtdDevice) (s : PageState) : PageState :=
 { s with addr := (s.addr &&& ~~~(d.eraseSize - 1)) + d.eraseSize }

def blockRoundAt (d : MtdDevice) (ops : MtdDeviceMethod) (msg : MtdMsg) (s : PageState) :
  Prog PageState (Unit ⊕ HdfStatus) :=
 if s.dataLenLeft > 0 ∧ s.addr < d.capacity then
  if isBadBlock ops s.addr then
   if msg.skipBad then do
    Prog.modify (skipBlock d)
    return .inl ()
   else return .inr .errIo
  else do
   let r ← pageLoop d ops msg (blockSize d s)
   return r.elim (.inl ()) .inr
 else return .inr (if s.dataLenLeft > 0 then .errIo else .success)

def blockRound (d : MtdDevice) (ops : MtdDeviceMethod) (msg : MtdMsg) :
  Prog PageState (Unit ⊕ HdfStatus) := do
 let s ← Prog.read id
 blockRoundAt d ops msg s

def dataLength (d : MtdDevice) (msg : MtdMsg) : Word :=
 if msg.withOob then msg.len / (d.writeSize + d.oobSize) * d.writeSize else msg.len

def pageStart (d : MtdDevice) (msg : MtdMsg) : PageState :=
 { addr := msg.addr, buf := msg.buf.getD 0, dataLenLeft := dataLength d msg, issued := [] }

def mtdDeviceWriteReadByPageUnlock (d : MtdDevice) (ops : MtdDeviceMethod) (msg : MtdMsg) :
  Prog PageState HdfStatus :=
 Prog.loop (fun _ => blockRound d ops msg) ()

def mtdDeviceEraseUnlock (ops : MtdDeviceMethod) (addr len : Word) : HdfStatus :=
 (ops.erase.map fun erase => erase addr len).getD .errNotSupport

def lockedRequest (d : MtdDevice) (ops : MtdDeviceMethod) (msg : MtdMsg) :
  Prog PageState HdfStatus :=
 match msg.type with
 | .read | .write => mtdDeviceWriteReadByPageUnlock d ops msg
 | .erase => pure (mtdDeviceEraseUnlock ops msg.addr msg.len)

/-- The state is that of the transfer page by page, from `pageStart`. -/
def mtdDeviceRequest (d : MtdDevice) (ops : MtdDeviceMethod) (msg : MtdMsg) :
  Prog PageState HdfStatus := do
 let ret ← Prog.attempt fun s => (mtdDeviceCheckMsg d msg).map fun ret => (ret, s)
 if ret ≠ .success then return ret
 else if ops.lock ≠ .success then return ops.lock
 else lockedRequest d ops msg

variable {d : MtdDevice} {msg : MtdMsg}

theorem sizes_of_added (added : mtdDeviceCheckParms d = .success) :
  d.capacity ≠ 0 ∧ d.eraseSize ≠ 0 ∧ d.writeSize ≠ 0 := by
 refine ⟨?_, ?_, ?_⟩ <;>
 · intro zero
   unfold mtdDeviceCheckParms at added
   rw [if_pos zero] at added
   split_ifs at added

def recordSize (d : MtdDevice) (msg : MtdMsg) : ℕ :=
 d.writeSize.toNat + if msg.withOob then d.oobSize.toNat else 0

def Unaligned (msg : MtdMsg) : Prop := msg.type = .read ∧ msg.withOob = false

def AlignmentPasses (d : MtdDevice) (msg : MtdMsg) : Prop :=
 if msg.type = .erase then d.eraseSize.toNat ∣ msg.addr.toNat
 else Unaligned msg ∨ (d.writeSize.toNat ∣ msg.addr.toNat ∧ recordSize d msg % 2 ^ 64 ≠ 0 ∧
  recordSize d msg % 2 ^ 64 ∣ msg.len.toNat)

def checkedEnd (msg : MtdMsg) : ℕ := (msg.addr.toNat + msg.len.toNat) % 2 ^ 64

theorem word_eq_zero {a : Word} : a = 0 ↔ a.toNat = 0 := BitVec.toNat_eq

theorem remainder_eq {a b : Word} (pos : b ≠ 0) : remainder a b = some (a % b) := if_neg pos

theorem mod_eq_zero_iff (a b : Word) : a % b = 0 ↔ b.toNat ∣ a.toNat := by
 rw [word_eq_zero, BitVec.toNat_umod, Nat.dvd_iff_mod_eq_zero]

theorem recordSize_word : (d.writeSize + if msg.withOob then d.oobSize else 0).toNat =
  recordSize d msg % 2 ^ 64 := by
 unfold recordSize
 rw [BitVec.toNat_add]
 cases msg.withOob <;> rfl

theorem end_passes_iff : ¬msg.addr + msg.len > d.capacity ↔ checkedEnd msg ≤ d.capacity.toNat := by
 rw [gt_iff_lt, BitVec.lt_def, BitVec.toNat_add, Nat.not_lt]
 rfl

theorem passes_unless {p q : Prop} [Decidable p] [Decidable q] :
  (if p then if q then some HdfStatus.errInvalidParam else some .success else some .success) =
   some .success ↔ (p → ¬q) := by
 by_cases hp : p <;> by_cases hq : q <;> simp [hp, hq]

theorem pageChecks_iff (wide : d.writeSize ≠ 0) (pages : msg.type ≠ .erase) :
  (do
   let offset ← remainder msg.addr d.writeSize
   let misaligned ← (if offset ≠ 0 then some true
    else (remainder msg.len (d.writeSize + if msg.withOob then d.oobSize else 0)).map
     fun rest => decide (rest ≠ 0))
   if misaligned then
    if msg.type ≠ .read ∨ msg.withOob then some HdfStatus.errInvalidParam else some .success
   else some .success) = some HdfStatus.success ↔ AlignmentPasses d msg := by
 have free : ¬(msg.type ≠ .read ∨ msg.withOob = true) ↔ Unaligned msg := by
  rw [not_or, not_not, Bool.not_eq_true]
  rfl
 rw [remainder_eq wide, AlignmentPasses, if_neg pages, ← recordSize_word, ← mod_eq_zero_iff,
  ← mod_eq_zero_iff, ← word_eq_zero.ne]
 change (Option.bind (if msg.addr % d.writeSize ≠ 0 then some true else _) _) = _ ↔ _
 by_cases offset : msg.addr % d.writeSize = 0
 · rw [if_neg (not_not_intro offset)]
   by_cases record : d.writeSize + (if msg.withOob then d.oobSize else 0) = 0
   · have oob : ¬Unaligned msg := by
      rintro ⟨-, plain⟩
      rw [plain] at record
      exact wide ((BitVec.add_zero _).symm.trans record)
     rw [remainder, if_pos record]
     exact iff_of_false (Option.some_ne_none _).symm fun h =>
      h.elim oob fun aligned => aligned.2.1 record
   · rw [remainder_eq record, Option.map_some, Option.bind_some, passes_unless, free,
      decide_eq_true_iff]
     tauto
 · rw [if_pos offset, Option.bind_some, passes_unless, free]
   tauto

theorem checkMsg_iff (added : mtdDeviceCheckParms d = .success) :
  mtdDeviceCheckMsg d msg = some .success ↔
   msg.buf ≠ none ∧ checkedEnd msg ≤ d.capacity.toNat ∧ AlignmentPasses d msg := by
 obtain ⟨-, erase, wide⟩ := sizes_of_added added
 unfold mtdDeviceCheckMsg
 by_cases empty : msg.buf = none
 · simp [empty]
 rw [if_neg empty, ← end_passes_iff]
 by_cases far : msg.addr + msg.len > d.capacity
 · simp [far]
 rw [if_neg far]
 by_cases kind : msg.type = .erase
 · rw [if_pos kind, remainder_eq erase]
   rw [AlignmentPasses, if_pos kind, ← mod_eq_zero_iff]
   change (if msg.addr % d.eraseSize ≠ 0 then some HdfStatus.errInvalidParam
    else some .success) = some .success ↔ _
   by_cases offset : msg.addr % d.eraseSize = 0
   · rw [if_neg (not_not_intro offset)]
     exact iff_of_true rfl ⟨empty, far, offset⟩
   · rw [if_pos offset]
     exact iff_of_false (by decide) fun h => offset h.2.2
 · rw [if_neg kind, pageChecks_iff wide kind]
   exact ⟨fun passes => ⟨empty, far, passes⟩, fun h => h.2.2⟩

def flashBytes (d : MtdDevice) (msg : MtdMsg) : ℕ :=
 if msg.type ≠ .erase ∧ msg.withOob then msg.len.toNat / recordSize d msg * d.writeSize.toNat
 else msg.len.toNat

def SuitablyAligned (d : MtdDevice) (msg : MtdMsg) : Prop :=
 if msg.type = .erase then (d.eraseSize.toNat : ℤ) ∣ msg.addr.toInt
 else Unaligned msg ∨
  ((d.writeSize.toNat : ℤ) ∣ msg.addr.toInt ∧ recordSize d msg ∣ msg.len.toNat)

/-- The message has a buffer and describes a range of the flash. -/
structure DescribesRange (d : MtdDevice) (msg : MtdMsg) : Prop where
 buf : msg.buf ≠ none
 nonneg : 0 ≤ msg.addr.toInt
 aligned : SuitablyAligned d msg
 inside : msg.addr.toInt + flashBytes d msg ≤ d.capacity.toNat

def WideRecord (d : MtdDevice) (msg : MtdMsg) : Prop :=
 msg.type ≠ .erase ∧ 2 ^ 64 ≤ recordSize d msg

/-- The ways in which the check decides wrongly about a message that has a buffer. -/
inductive Misjudged (d : MtdDevice) (msg : MtdMsg) : Prop
 /-- a negative address whose end has wrapped around into the flash -/
 | negative (below : msg.addr.toInt < 0) (fits : checkedEnd msg ≤ d.capacity.toNat)
   (aligned : AlignmentPasses d msg)
 /-- a range behind the flash whose end has wrapped around into it -/
 | wrapped (nonneg : 0 ≤ msg.addr.toInt) (narrow : ¬WideRecord d msg)
   (fits : checkedEnd msg ≤ d.capacity.toNat) (aligned : AlignmentPasses d msg)
   (behind : d.capacity.toNat < msg.addr.toNat + flashBytes d msg)
 /-- a range inside the flash that is too long with its bytes out of band -/
 | oobCounted (nonneg : 0 ≤ msg.addr.toInt) (narrow : ¬WideRecord d msg)
   (aligned : AlignmentPasses d msg)
   (inside : msg.addr.toNat + flashBytes d msg ≤ d.capacity.toNat)
   (far : d.capacity.toNat < checkedEnd msg)
 /-- a length that is a multiple of the record size only as that has wrapped around -/
 | wideRecord (nonneg : 0 ≤ msg.addr.toInt) (wide : WideRecord d msg) (some : msg.len ≠ 0)
   (fits : checkedEnd msg ≤ d.capacity.toNat) (aligned : AlignmentPasses d msg)
 /-- no bytes at all, but a record size that has wrapped around to zero -/
 | zeroRecord (nonneg : 0 ≤ msg.addr.toInt) (wide : WideRecord d msg)
   (zero : recordSize d msg % 2 ^ 64 = 0) (none : msg.len = 0)
   (aligned : d.writeSize.toNat ∣ msg.addr.toNat)
   (inside : msg.addr.toNat ≤ d.capacity.toNat)

theorem toInt_eq {a : Word} (nonneg : 0 ≤ a.toInt) : a.toInt = a.toNat := by
 have cases := BitVec.toInt_eq_toNat_cond a
 split_ifs at cases
 · exact cases
 · have bound := a.isLt
   omega

theorem flashBytes_le : flashBytes d msg ≤ msg.len.toNat := by
 unfold flashBytes
 split_ifs
 · calc msg.len.toNat / recordSize d msg * d.writeSize.toNat
     ≤ msg.len.toNat / recordSize d msg * recordSize d msg :=
      Nat.mul_le_mul_left _ (Nat.le_add_right _ _)
    _ ≤ msg.len.toNat := Nat.div_mul_le_self _ _
 · exact Nat.le_refl _

theorem alignmentPasses_iff (wide : d.writeSize ≠ 0) (narrow : ¬WideRecord d msg)
  (nonneg : 0 ≤ msg.addr.toInt) : AlignmentPasses d msg ↔ SuitablyAligned d msg := by
 unfold AlignmentPasses SuitablyAligned
 rw [toInt_eq nonneg, Int.natCast_dvd_natCast, Int.natCast_dvd_natCast]
 by_cases kind : msg.type = .erase
 · rw [if_pos kind, if_pos kind]
 have small : recordSize d msg < 2 ^ 64 := Nat.lt_of_not_le fun big => narrow ⟨kind, big⟩
 have pos : recordSize d msg ≠ 0 := by
  have page : d.writeSize.toNat ≠ 0 := word_eq_zero.not.mp wide
  unfold recordSize
  omega
 rw [if_neg kind, if_neg kind, Nat.mod_eq_of_lt small]
 simp only [ne_eq, pos, not_false_eq_true, true_and]

theorem WideRecord.withOob (wide : WideRecord d msg) : msg.withOob = true := by
 obtain ⟨-, big⟩ := wide
 by_contra plain
 have page := d.writeSize.isLt
 rw [recordSize, if_neg plain] at big
 omega

theorem WideRecord.passes_iff (wide : WideRecord d msg) : AlignmentPasses d msg ↔
  d.writeSize.toNat ∣ msg.addr.toNat ∧ recordSize d msg % 2 ^ 64 ≠ 0 ∧
   recordSize d msg % 2 ^ 64 ∣ msg.len.toNat := by
 rw [AlignmentPasses, if_neg wide.1, or_iff_right]
 rintro ⟨-, plain⟩
 rw [wide.withOob] at plain
 cases plain

theorem WideRecord.aligned_iff (wide : WideRecord d msg) (nonneg : 0 ≤ msg.addr.toInt) :
  SuitablyAligned d msg ↔ d.writeSize.toNat ∣ msg.addr.toNat ∧ msg.len = 0 := by
 have whole : recordSize d msg ∣ msg.len.toNat ↔ msg.len = 0 := by
  rw [word_eq_zero]
  constructor
  · intro multiple
    have bound := msg.len.isLt
    have big := wide.2
    exact Nat.eq_zero_of_dvd_of_lt multiple (by omega)
  · intro zero
    rw [zero]
    exact Nat.dvd_zero _
 rw [SuitablyAligned, if_neg wide.1, or_iff_right, toInt_eq nonneg, Int.natCast_dvd_natCast, whole]
 rintro ⟨-, plain⟩
 rw [wide.withOob] at plain
 cases plain

theorem checkedEnd_of_empty (none : msg.len = 0) : checkedEnd msg = msg.addr.toNat := by
 rw [checkedEnd, word_eq_zero.mp none, Nat.add_zero, Nat.mod_eq_of_lt msg.addr.isLt]

theorem right_iff_of_negative (buf : msg.buf ≠ none) (below : msg.addr.toInt < 0) :
  (msg.buf ≠ none ∧ checkedEnd msg ≤ d.capacity.toNat ∧ AlignmentPasses d msg ↔
   DescribesRange d msg) ↔ ¬Misjudged d msg := by
 constructor
 · rintro right (⟨-, fits, aligned⟩ | ⟨nonneg⟩ | ⟨nonneg⟩ | ⟨nonneg⟩ | ⟨nonneg⟩)
   · exact Int.not_le.mpr below (right.mp ⟨buf, fits, aligned⟩).nonneg
   all_goals exact Int.not_le.mpr below nonneg
 · intro fine
   exact ⟨fun ⟨_, fits, aligned⟩ => absurd (.negative below fits aligned) fine,
    fun range => absurd range.nonneg (Int.not_le.mpr below)⟩

theorem right_iff_of_wide (buf : msg.buf ≠ none) (nonneg : 0 ≤ msg.addr.toInt)
  (wide : WideRecord d msg) :
  (msg.buf ≠ none ∧ checkedEnd msg ≤ d.capacity.toNat ∧ AlignmentPasses d msg ↔
   DescribesRange d msg) ↔ ¬Misjudged d msg := by
 have value := toInt_eq nonneg
 have less : flashBytes d msg ≤ msg.len.toNat := flashBytes_le
 constructor
 · rintro right (⟨below⟩ | ⟨-, narrow⟩ | ⟨-, narrow⟩ | ⟨-, -, some, fits, aligned⟩ |
    ⟨-, -, zero, none, aligned, inside⟩)
   · exact Int.not_le.mpr below nonneg
   · exact narrow wide
   · exact narrow wide
   · have range := right.mp ⟨buf, fits, aligned⟩
     exact some ((wide.aligned_iff nonneg).mp range.aligned).2
   · have empty := word_eq_zero.mp none
     have range : DescribesRange d msg :=
      ⟨buf, nonneg, (wide.aligned_iff nonneg).mpr ⟨aligned, none⟩, by omega⟩
     exact (wide.passes_iff.mp (right.mpr range).2.2).2.1 zero
 · intro fine
   constructor
   · rintro ⟨_, fits, aligned⟩
     have none : msg.len = 0 := by
      by_contra some
      exact fine (.wideRecord nonneg wide some fits aligned)
     have empty := word_eq_zero.mp none
     rw [checkedEnd_of_empty none] at fits
     exact ⟨buf, nonneg, (wide.aligned_iff nonneg).mpr ⟨(wide.passes_iff.mp aligned).1, none⟩,
      by omega⟩
   · intro range
     obtain ⟨aligned, none⟩ := (wide.aligned_iff nonneg).mp range.aligned
     have empty := word_eq_zero.mp none
     have inside := range.inside
     have fits : msg.addr.toNat ≤ d.capacity.toNat := by omega
     refine ⟨buf, ?_, wide.passes_iff.mpr ⟨aligned, fun zero => ?_, ?_⟩⟩
     · rw [checkedEnd_of_empty none]
       exact fits
     · exact fine (.zeroRecord nonneg wide zero none aligned fits)
     · rw [empty]
       exact Nat.dvd_zero _

theorem right_iff_of_narrow (page : d.writeSize ≠ 0) (buf : msg.buf ≠ none)
  (nonneg : 0 ≤ msg.addr.toInt) (narrow : ¬WideRecord d msg) :
  (msg.buf ≠ none ∧ checkedEnd msg ≤ d.capacity.toNat ∧ AlignmentPasses d msg ↔
   DescribesRange d msg) ↔ ¬Misjudged d msg := by
 have value := toInt_eq nonneg
 have same := alignmentPasses_iff page narrow nonneg
 constructor
 · rintro right (⟨below⟩ | ⟨-, -, fits, aligned, behind⟩ | ⟨-, -, aligned, inside, far⟩ |
    ⟨-, wide⟩ | ⟨-, wide⟩)
   · exact Int.not_le.mpr below nonneg
   · have range := (right.mp ⟨buf, fits, aligned⟩).inside
     omega
   · have range : DescribesRange d msg := ⟨buf, nonneg, same.mp aligned, by omega⟩
     exact Nat.not_le.mpr far (right.mpr range).2.1
   · exact narrow wide
   · exact narrow wide
 · intro fine
   constructor
   · rintro ⟨_, fits, aligned⟩
     refine ⟨buf, nonneg, same.mp aligned, ?_⟩
     by_contra behind
     exact fine (.wrapped nonneg narrow fits aligned (by omega))
   · intro range
     have inside := range.inside
     have aligned := same.mpr range.aligned
     refine ⟨buf, ?_, aligned⟩
     by_contra far
     exact fine (.oobCounted nonneg narrow aligned (by omega) (by omega))

/-- The check lets through what describes a range of the flash, for the messages that are not
misjudged in one of these ways and for no others. -/
theorem checkMsg_right_iff (d : MtdDevice) (msg : MtdMsg)
    (added : mtdDeviceCheckParms d = .success) :
    (mtdDeviceCheckMsg d msg = some .success ↔ DescribesRange d msg) ↔
      (msg.buf ≠ none → ¬Misjudged d msg) := by
  rw [checkMsg_iff added]
  by_cases empty : msg.buf = none
  · exact iff_of_true (iff_of_false (fun h => h.1 empty) fun h => h.buf empty)
      fun buf => absurd empty buf
  rw [forall_prop_of_true empty]
  by_cases below : msg.addr.toInt < 0
  · exact right_iff_of_negative empty below
  have nonneg := Int.not_lt.mp below
  by_cases wide : WideRecord d msg
  · exact right_iff_of_wide empty nonneg wide
  · exact right_iff_of_narrow (sizes_of_added added).2.2 empty nonneg wide

/-- A NAND flash of 128 MiB with pages of 2048 bytes and 64 bytes out of band. -/
def nandDevice : MtdDevice where
 index := 0
 name := some "nand"
 type := 1
 idLen := 8
 capacity := 0x8000000
 eraseSize := 0x20000
 writeSize := 2048
 readSize := 2048
 oobSize := 64

def writeAt (addr len : Word) (withOob : Bool) : MtdMsg :=
 { type := .write, addr := addr, buf := some 0, len := len, withOob := withOob, skipBad := true }

theorem checkMsg_right_last_page : mtdDeviceCheckParms nandDevice = .success ∧
    ((mtdDeviceCheckMsg nandDevice (writeAt 0x7FFF800 2048 false) = some .success ↔
        DescribesRange nandDevice (writeAt 0x7FFF800 2048 false)) ↔
      ((writeAt 0x7FFF800 2048 false).buf ≠ none →
        ¬Misjudged nandDevice (writeAt 0x7FFF800 2048 false))) :=
  ⟨by decide, checkMsg_right_iff nandDevice (writeAt 0x7FFF800 2048 false) (by decide)⟩

/-- A page at the address -2048 and a range of almost 2 ^ 64 bytes pass; the last page with its
bytes out of band does not. -/
theorem checkMsg_misjudges : mtdDeviceCheckParms nandDevice = .success ∧
    (mtdDeviceCheckMsg nandDevice (writeAt (-2048) 2048 false) = some .success ∧
      ¬DescribesRange nandDevice (writeAt (-2048) 2048 false)) ∧
    (mtdDeviceCheckMsg nandDevice (writeAt 2048 (-2048) false) = some .success ∧
      ¬DescribesRange nandDevice (writeAt 2048 (-2048) false)) ∧
    (mtdDeviceCheckMsg nandDevice (writeAt 0x7FFF800 2112 true) ≠ some .success ∧
      DescribesRange nandDevice (writeAt 0x7FFF800 2112 true)) := by
  refine ⟨by decide, ⟨by decide, fun range => ?_⟩, ⟨by decide, fun range => ?_⟩, by decide, ?_⟩
  · exact absurd range.nonneg (by decide)
  · exact absurd range.inside (by decide)
  · refine ⟨by decide, by decide, ?_, by decide⟩
    rw [SuitablyAligned, if_neg (by decide)]
    exact .inr ⟨by decide, by decide⟩

end DriversFramework.MtdCore
