import DriversFramework.MmcRegisters

/-! `mmc_protocol.c` and `mmc_core.c`: decoding the CSD of an SD or eMMC card and the extended CSD,
the capacity that the device gets from them, and the checks under which it is added. -/
namespace DriversFramework.MmcCapacity

inductive Result (α : Type) where
 | undefined
 | rejected
 | done (a : α)

def Result.bind {α β : Type} (r : Result α) (f : α → Result β) : Result β :=
 match r with
 | .undefined => .undefined
 | .rejected => .rejected
 | .done a => f a

instance : Monad Result where
 pure := .done
 bind := .bind

def require (c : Prop) [Decidable c] : Result Unit := if c then .done () else .rejected

def mmcMaxBlocksizeShift : Word := 9

def shiftLeft {w : ℕ} (x : BitVec w) (amount : Word) : Result (BitVec w) :=
 if amount.toNat < w then .done (x <<< amount.toNat) else .undefined

def csdBits : ℕ := 128

def rawCsd (csd : BitVec 128) (i : ℕ) : Word := csd.extractLsb' (32 * (3 - i)) 32

structure MmcCsd where
 csdStructure : Word
 specVers : Word
 ccc : Word
 taccClks : Word
 taccNs : Word
 cSize : Word
 r2wFactor : Word
 maxDtr : Word
 eraseSize : Word
 readBlkLen : Word
 writeBlkLen : Word
 capacity : Word
 rdPartial : Word
 rdMisalign : Word
 wrPartial : Word
 wrMisalign : Word

def gTranSpeedUnit : List Word := [10000, 100000, 1000000, 10000000, 0, 0, 0, 0]

def gTaccUnit : List Word := [1, 10, 100, 1000, 10000, 100000, 1000000, 10000000]

def gCommFactor : List Word := [0, 10, 12, 13, 15, 20, 25, 30, 35, 40, 45, 50, 55, 60, 70, 80]

def tableValue (table : List Word) (i : Word) : Word := table.getD i.toNat 0

def decodeCommon (raw : ℕ → Word) (csdStructure specVers eraseSize : Word) : MmcCsd where
 csdStructure := csdStructure
 specVers := specVers
 ccc := mmcParseBits raw csdBits 84 12
 taccClks := mmcParseBits raw csdBits 104 8 * 100
 taccNs := (tableValue gTaccUnit (mmcParseBits raw csdBits 112 3) *
  tableValue gCommFactor (mmcParseBits raw csdBits 115 4) + 9) / 10
 cSize := 0
 r2wFactor := mmcParseBits raw csdBits 26 3
 maxDtr := tableValue gTranSpeedUnit (mmcParseBits raw csdBits 96 3) *
  tableValue gCommFactor (mmcParseBits raw csdBits 99 4)
 eraseSize := eraseSize
 readBlkLen := mmcParseBits raw csdBits 80 4
 writeBlkLen := mmcParseBits raw csdBits 22 4
 capacity := (1 + mmcParseBits raw csdBits 62 12) <<< (mmcParseBits raw csdBits 47 3 + 2).toNat
 rdPartial := mmcParseBits raw csdBits 79 1
 rdMisalign := mmcParseBits raw csdBits 77 1
 wrPartial := mmcParseBits raw csdBits 21 1
 wrMisalign := mmcParseBits raw csdBits 78 1

def eraseBlocks (raw : ℕ → Word) (blocks : Word) : Word :=
 if mmcMaxBlocksizeShift ≤ mmcParseBits raw csdBits 22 4 then
  blocks <<< (mmcParseBits raw csdBits 22 4 - mmcMaxBlocksizeShift).toNat
 else 0

def emmcDecodeCsd (raw : ℕ → Word) : Result MmcCsd := do
 let csdStructure := mmcParseBits raw csdBits 126 2
 require (csdStructure ≠ 0)
 let eraseSize := eraseBlocks raw
  ((mmcParseBits raw csdBits 42 5 + 1) * (mmcParseBits raw csdBits 37 5 + 1))
 return decodeCommon raw csdStructure (mmcParseBits raw csdBits 122 4) eraseSize

def sdDecodeCsdRev1Field (raw : ℕ → Word) (csdStructure : Word) : MmcCsd :=
 decodeCommon raw csdStructure 0
  (if mmcParseBits raw csdBits 46 1 = 1 then 1
  else eraseBlocks raw (mmcParseBits raw csdBits 39 7 + 1))

def sdDecodeCsdRev2Field (raw : ℕ → Word) (csdStructure : Word) : MmcCsd where
 csdStructure := csdStructure
 specVers := 0
 ccc := mmcParseBits raw csdBits 84 12
 taccClks := 0
 taccNs := 0
 cSize := mmcParseBits raw csdBits 48 22
 r2wFactor := 2
 maxDtr := tableValue gTranSpeedUnit (mmcParseBits raw csdBits 96 3) *
  tableValue gCommFactor (mmcParseBits raw csdBits 99 4)
 eraseSize := 1
 readBlkLen := mmcMaxBlocksizeShift
 writeBlkLen := mmcMaxBlocksizeShift
 capacity := (1 + mmcParseBits raw csdBits 48 22) <<< 10
 rdPartial := 0
 rdMisalign := 0
 wrPartial := 0
 wrMisalign := 0

inductive MmcDevType where
 | emmc
 | sd
 | sdio
 | combo
 deriving DecidableEq

/-- Capacity and erase size count sectors. -/
structure MmcDevice where
 type : MmcDevType
 blockAddr : Bool
 sdxc : Bool
 secSize : BitVec 64
 capacity : BitVec 64
 eraseSize : BitVec 64
 present : Bool

/-- A device that has been allocated. -/
def newDevice (type : MmcDevType) : MmcDevice := ⟨type, false, false, 0, 0, 0, false⟩

def mmcSecSize : BitVec 64 := 512

/-- `platform` says whether the reference to the controller, the platform device and the block
device can be had. -/
def mmcDeviceAdd (mmc : MmcDevice) (platform : Bool) : Result MmcDevice := do
 require (mmc.secSize = 0)
 require (¬(mmc.type ≠ .sdio ∧ mmc.capacity = 0))
 require (¬(mmc.type ≠ .sdio ∧ mmc.eraseSize = 0))
 require (platform = true)
 return { mmc with secSize := mmcSecSize, present := true }

def sdDecodeCsd (mmc : MmcDevice) (raw : ℕ → Word) : Result (MmcCsd × MmcDevice) :=
 let csdStructure := mmcParseBits raw csdBits 126 2
 if csdStructure = 0 then .done (sdDecodeCsdRev1Field raw csdStructure, mmc)
 else if csdStructure = 1 then
  let csd := sdDecodeCsdRev2Field raw csdStructure
  .done (csd, { mmc with blockAddr := true, sdxc := mmc.sdxc || decide (0xFFFF ≤ csd.cSize) })
 else .rejected

def sdSetBlockCapacity (csd : MmcCsd) (mmc : MmcDevice) : Result MmcDevice := do
 let capacity ← shiftLeft csd.capacity (csd.readBlkLen - mmcMaxBlocksizeShift)
 return { mmc with eraseSize := csd.eraseSize.setWidth 64, capacity := capacity.setWidth 64 }

/-- Whether the other steps of the initialization succeed: those before the CSD is there, those
between, and those of adding the device. -/
structure SdSteps where
 identify : Bool
 setUp : Bool
 platform : Bool

def sdInit (steps : SdSteps) (card : BitVec 128) : Result MmcDevice := do
 require (steps.identify = true)
 let (csd, mmc) ← sdDecodeCsd (newDevice .sd) (rawCsd card)
 require (steps.setUp = true)
 let mmc ← sdSetBlockCapacity csd mmc
 mmcDeviceAdd mmc steps.platform

structure EmmcExtCsd where
 rawCsdStructure : BitVec 8
 rev : BitVec 8
 sectors : Word
 rawHcEraseGrpSize : BitVec 8
 eraseGroupDef : BitVec 8
 hcEraseSize : Word
 enhAreaEnable : Bool

def noExtCsd : EmmcExtCsd := ⟨0, 0, 0, 0, 0, 0, false⟩

def mmcCsdStructureVerOther : Word := 3
def mmcCsdSpecVer4 : Word := 4
def emmcExtCsdStructureVer12 : BitVec 8 := 2
def emmcExtCsdRev12 : BitVec 8 := 2
def emmcExtCsdRev13 : BitVec 8 := 3
def emmcExtCsdRev14 : BitVec 8 := 4

/-- A byte is an `int` when it is shifted. To the letter a shift into its sign is undefined, where
compilers take the bits; `strict` says which. -/
def shiftByte (strict : Bool) (byte : BitVec 8) (shift : ℕ) : Result Word :=
 if strict = true ∧ 2 ^ 31 ≤ byte.toNat * 2 ^ shift then .undefined
 else .done (byte.setWidth 32 <<< shift)

def emmcDecodeExtCsdSector (strict : Bool) (raw : Fin 512 → BitVec 8) : Result (Word × Bool) := do
 let byte0 ← shiftByte strict (raw 212) 0
 let byte1 ← shiftByte strict (raw 213) 8
 let byte2 ← shiftByte strict (raw 214) 16
 let byte3 ← shiftByte strict (raw 215) 24
 let sectors := byte0 ||| byte1 ||| byte2 ||| byte3
 return (sectors, decide (2 * 1024 * 1024 * 1024 / 512 < sectors))

def readSectors (strict : Bool) (raw : Fin 512 → BitVec 8) : Result (Word × Bool) :=
 if emmcExtCsdRev12 ≤ raw 192 then emmcDecodeExtCsdSector strict raw else .done (0, false)

def enhancedArea (raw : Fin 512 → BitVec 8) : Bool :=
 decide (0 < raw 160 &&& 2) && decide (0 < raw 156 &&& 1)

def emmcDecodeExtCsd (strict : Bool) (csd : MmcCsd) (mmc : MmcDevice) (raw : Fin 512 → BitVec 8) :
  Result (EmmcExtCsd × MmcDevice) := do
 require (¬(csd.csdStructure = mmcCsdStructureVerOther ∧ emmcExtCsdStructureVer12 < raw 194))
 let rev := raw 192
 let (sectors, blockAddr) ← readSectors strict raw
 .done
  ({ rawCsdStructure := raw 194
     rev := rev
     sectors := sectors
     rawHcEraseGrpSize := raw 224
     eraseGroupDef := if emmcExtCsdRev13 ≤ rev then raw 175 else 0
     hcEraseSize := if emmcExtCsdRev13 ≤ rev then (raw 224).setWidth 32 <<< 10 else 0
     enhAreaEnable := decide (emmcExtCsdRev14 ≤ rev) && enhancedArea raw },
   { mmc with blockAddr := mmc.blockAddr || blockAddr })

inductive SwitchResult where
 | success
 | switchFail
 | failed
 deriving DecidableEq

/-- As for an SD card: the commands before the CSD is there, selecting the card, reading the
extended register, switching the erase groups, the rest of the operation mode, and adding the
device. -/
structure EmmcSteps where
 identify : Bool
 select : Bool
 sendExtCsd : Bool
 eraseGroups : SwitchResult
 operationMode : Bool
 platform : Bool

def emmcDecodeCid (csd : MmcCsd) : Result Unit := require (csd.specVers ≤ mmcCsdSpecVer4)

def emmcReadExtCsd (steps : EmmcSteps) (strict : Bool) (csd : MmcCsd) (mmc : MmcDevice)
  (raw : Fin 512 → BitVec 8) : Result (EmmcExtCsd × MmcDevice) :=
 if csd.specVers < mmcCsdSpecVer4 then .done (noExtCsd, mmc)
 else if steps.sendExtCsd = false then .rejected
 else emmcDecodeExtCsd strict csd mmc raw

def emmcSwitchOperationMode (steps : EmmcSteps) (ext : EmmcExtCsd) : Result EmmcExtCsd := do
 require (¬(ext.enhAreaEnable = true ∧ steps.eraseGroups = .failed))
 require (steps.operationMode = true)
 if ext.enhAreaEnable = true ∧ steps.eraseGroups = .success then
  return { ext with eraseGroupDef := 1 }
 else return ext

def emmcSetBlockCapacity (csd : MmcCsd) (ext : EmmcExtCsd) (mmc : MmcDevice) :
  Result MmcDevice := do
 let eraseSize := if ext.eraseGroupDef = 1 then ext.hcEraseSize else csd.eraseSize
 let capacity ←
  if mmc.blockAddr = true then .done (ext.sectors.setWidth 64)
  else shiftLeft (csd.capacity.setWidth 64) (csd.readBlkLen - mmcMaxBlocksizeShift)
 return { mmc with eraseSize := eraseSize.setWidth 64, capacity := capacity }

def emmcInit (steps : EmmcSteps) (strict : Bool) (card : BitVec 128) (raw : Fin 512 → BitVec 8) :
  Result MmcDevice := do
 require (steps.identify = true)
 let csd ← emmcDecodeCsd (rawCsd card)
 emmcDecodeCid csd
 require (steps.select = true)
 let (ext, mmc) ← emmcReadExtCsd steps strict csd (newDevice .emmc) raw
 let ext ← emmcSwitchOperationMode steps ext
 let mmc ← emmcSetBlockCapacity csd ext mmc
 mmcDeviceAdd mmc steps.platform

def field (card : BitVec 128) (start size : ℕ) : ℕ := (card.extractLsb' start size).toNat

theorem rawCsd_bit (card : BitVec 128) {i j : ℕ} (bit : j < 32) :
  (rawCsd card i).getLsbD j = card.getLsbD (32 * (3 - i) + j) := by
 rw [rawCsd, BitVec.getLsbD_extractLsb', decide_eq_true bit, Bool.true_and]

theorem registerValue_rawCsd (card : BitVec 128) :
  registerValue (rawCsd card) 4 = card.toNat := by
 refine Nat.eq_of_testBit_eq fun b => ?_
 by_cases inside : b < 128
 · have place : b = 32 * (4 - 1 - (3 - b / 32)) + b % 32 := by omega
   have word : 3 - (3 - b / 32) = b / 32 := by omega
   have less : b % 32 < 32 := Nat.mod_lt b (by decide)
   conv_lhs => rw [place]
   rw [registerValue_bit _ (by omega) less, rawCsd_bit card less, word, Nat.div_add_mod,
    BitVec.testBit_toNat]
 · have large : 2 ^ 128 ≤ 2 ^ b := Nat.pow_le_pow_right (by decide) (Nat.le_of_not_lt inside)
   rw [Nat.testBit_lt_two_pow (card.isLt.trans_le large),
    Nat.testBit_lt_two_pow ((registerValue_lt _ 4).trans_le large)]

theorem mmcParseBits_toNat (card : BitVec 128) {start size : ℕ} (inside : start + size ≤ 128)
  (pos : 0 < size) (small : size ≤ 32) :
  (mmcParseBits (rawCsd card) csdBits start size).toNat = field card start size := by
 have value := mmcParseBits_value (rawCsd card) (k := 4) inside pos small
 rw [registerValue_rawCsd, ← Nat.shiftRight_eq_div_pow] at value
 exact value

def byteFormula (card : BitVec 128) : ℚ :=
 (field card 62 12 + 1) * 2 ^ ((field card 47 3 : ℤ) + 2 + field card 80 4 - 9)

def sdFormula (card : BitVec 128) : ℚ :=
 if field card 126 2 = 0 then byteFormula card else (field card 48 22 + 1) * 1024

def sectorCount (raw : Fin 512 → BitVec 8) : ℕ :=
 (raw 212).toNat + (raw 213).toNat * 2 ^ 8 + (raw 214).toNat * 2 ^ 16 + (raw 215).toNat * 2 ^ 24

def SectorAddressed (card : BitVec 128) (raw : Fin 512 → BitVec 8) : Prop :=
 4 ≤ field card 122 4 ∧ 2 ≤ (raw 192).toNat ∧ 4194304 < sectorCount raw

instance (card : BitVec 128) (raw : Fin 512 → BitVec 8) : Decidable (SectorAddressed card raw) :=
 inferInstanceAs (Decidable (_ ∧ _))

def emmcFormula (card : BitVec 128) (raw : Fin 512 → BitVec 8) : ℚ :=
 if SectorAddressed card raw then sectorCount raw else byteFormula card

structure EmmcSelected (steps : EmmcSteps) (card : BitVec 128) : Prop where
 identify : steps.identify = true
 csdStructure : field card 126 2 ≠ 0
 specVers : field card 122 4 ≤ 4
 select : steps.select = true

structure ExtCsdRead (steps : EmmcSteps) (card : BitVec 128) (raw : Fin 512 → BitVec 8) : Prop where
 specVers : 4 ≤ field card 122 4
 send : steps.sendExtCsd = true
 accepted : ¬(field card 126 2 = 3 ∧ 2 < (raw 194).toNat)

structure Switched (steps : EmmcSteps) (card : BitVec 128) (raw : Fin 512 → BitVec 8) : Prop where
 eraseGroups : ¬(4 ≤ field card 122 4 ∧ 4 ≤ (raw 192).toNat ∧ enhancedArea raw = true ∧
  steps.eraseGroups = .failed)
 operationMode : steps.operationMode = true

/-- Where byte addresses are used, the read length is not below a sector; and to the letter the
count of sectors has to fit an `int`. -/
def EmmcMeets (steps : EmmcSteps) (strict : Bool) (card : BitVec 128) (raw : Fin 512 → BitVec 8) :
  Prop :=
 EmmcSelected steps card →
  (ExtCsdRead steps card raw → strict = true → 2 ≤ (raw 192).toNat → (raw 215).toNat < 128) ∧
  (field card 122 4 < 4 ∨ ExtCsdRead steps card raw → Switched steps card raw →
   ¬SectorAddressed card raw → 9 ≤ field card 80 4)

def SdMeets (steps : SdSteps) (card : BitVec 128) : Prop :=
 steps.identify = true → steps.setUp = true → field card 126 2 = 0 → 9 ≤ field card 80 4

/-- The initialization is defined, and a device that is added has the capacity. -/
def Right (formula : ℚ) : Result MmcDevice → Prop
 | .undefined => False
 | .rejected => True
 | .done mmc => (mmc.capacity.toNat : ℚ) = formula

theorem field_lt (card : BitVec 128) (start size : ℕ) : field card start size < 2 ^ size :=
 (card.extractLsb' start size).isLt

theorem shifted_toNat {w : ℕ} (x : BitVec w) {n : ℕ} (fits : x.toNat * 2 ^ n < 2 ^ w) :
  (x <<< n).toNat = x.toNat * 2 ^ n := by
 rw [BitVec.toNat_shiftLeft, Nat.shiftLeft_eq, Nat.mod_eq_of_lt fits]

section Bytes

variable (card : BitVec 128)

def bytesCapacity : Word := (1 + mmcParseBits (rawCsd card) csdBits 62 12) <<<
 (mmcParseBits (rawCsd card) csdBits 47 3 + 2).toNat

def bytesReadBlkLen : Word := mmcParseBits (rawCsd card) csdBits 80 4

theorem bytesReadBlkLen_toNat : (bytesReadBlkLen card).toNat = field card 80 4 :=
 mmcParseBits_toNat card (by decide) (by decide) (by decide)

theorem mult_le : 2 ^ (field card 47 3 + 2) ≤ 2 ^ 9 := by
 have mult : field card 47 3 < 8 := field_lt card 47 3
 exact Nat.pow_le_pow_right (by decide) (by omega)

theorem bytesCapacity_toNat :
  (bytesCapacity card).toNat = (field card 62 12 + 1) * 2 ^ (field card 47 3 + 2) := by
 have size : field card 62 12 < 4096 := field_lt card 62 12
 have mult : field card 47 3 < 8 := field_lt card 47 3
 have one : (1 + mmcParseBits (rawCsd card) csdBits 62 12).toNat = field card 62 12 + 1 := by
  rw [BitVec.toNat_add, mmcParseBits_toNat card (by decide) (by decide) (by decide)]
  change (1 + field card 62 12) % 2 ^ 32 = _
  omega
 have two : (mmcParseBits (rawCsd card) csdBits 47 3 + 2).toNat = field card 47 3 + 2 := by
  rw [BitVec.toNat_add, mmcParseBits_toNat card (by decide) (by decide) (by decide)]
  change (field card 47 3 + 2) % 2 ^ 32 = _
  omega
 have fits : (1 + mmcParseBits (rawCsd card) csdBits 62 12).toNat * 2 ^ (field card 47 3 + 2) <
   2 ^ 32 := by
  rw [one]
  calc (field card 62 12 + 1) * 2 ^ (field card 47 3 + 2) ≤ 4096 * 2 ^ 9 :=
     Nat.mul_le_mul size (mult_le card)
   _ < 2 ^ 32 := by decide
 rw [bytesCapacity, two, shifted_toNat _ fits, one]

theorem shiftLeft_long {w : ℕ} (x : BitVec w) (narrow : w ≤ 64) (short : field card 80 4 < 9) :
  shiftLeft x (bytesReadBlkLen card - mmcMaxBlocksizeShift) = .undefined := by
 have amount : (bytesReadBlkLen card - mmcMaxBlocksizeShift).toNat =
   2 ^ 32 - 9 + field card 80 4 := by
  rw [BitVec.toNat_sub, bytesReadBlkLen_toNat]
  change (2 ^ 32 - 9 + field card 80 4) % 2 ^ 32 = _
  omega
 rw [shiftLeft, if_neg]
 rw [amount]
 omega

theorem byteFormula_eq (long : 9 ≤ field card 80 4) : byteFormula card =
  ((field card 62 12 + 1) * 2 ^ (field card 47 3 + 2) * 2 ^ (field card 80 4 - 9) : ℕ) := by
 have exponent : (field card 47 3 : ℤ) + 2 + field card 80 4 - 9 =
   ((field card 47 3 + 2 + (field card 80 4 - 9) : ℕ) : ℤ) := by omega
 rw [byteFormula, exponent, zpow_natCast, Nat.mul_assoc, ← pow_add]
 push_cast
 rfl

theorem shiftLeft_right {w : ℕ} (x : BitVec w) (wide : 32 ≤ w)
  (capacity : x.toNat = (bytesCapacity card).toNat) (long : 9 ≤ field card 80 4) :
  ∃ y, shiftLeft x (bytesReadBlkLen card - mmcMaxBlocksizeShift) = .done y ∧
   y.toNat < 2 ^ 32 ∧ (y.toNat : ℚ) = byteFormula card := by
 have length : field card 80 4 < 16 := field_lt card 80 4
 have size : field card 62 12 < 4096 := field_lt card 62 12
 have amount : (bytesReadBlkLen card - mmcMaxBlocksizeShift).toNat = field card 80 4 - 9 := by
  rw [BitVec.toNat_sub, bytesReadBlkLen_toNat]
  change (2 ^ 32 - 9 + field card 80 4) % 2 ^ 32 = _
  omega
 have blocks : 2 ^ (field card 80 4 - 9) ≤ 2 ^ 6 :=
  Nat.pow_le_pow_right (by decide) (by omega)
 have small : (field card 62 12 + 1) * 2 ^ (field card 47 3 + 2) * 2 ^ (field card 80 4 - 9) <
   2 ^ 32 :=
  calc (field card 62 12 + 1) * 2 ^ (field card 47 3 + 2) * 2 ^ (field card 80 4 - 9) ≤
     4096 * 2 ^ 9 * 2 ^ 6 := Nat.mul_le_mul (Nat.mul_le_mul size (mult_le card)) blocks
   _ < 2 ^ 32 := by decide
 have product : x.toNat * 2 ^ (field card 80 4 - 9) =
   (field card 62 12 + 1) * 2 ^ (field card 47 3 + 2) * 2 ^ (field card 80 4 - 9) := by
  rw [capacity, bytesCapacity_toNat]
 have fits : x.toNat * 2 ^ (field card 80 4 - 9) < 2 ^ w := by
  rw [product]
  exact small.trans_le (Nat.pow_le_pow_right (by decide) wide)
 have value := shifted_toNat x fits
 refine ⟨x <<< (field card 80 4 - 9), ?_, ?_, ?_⟩
 · rw [shiftLeft, amount, if_pos (by omega)]
 · rw [value, product]
   exact small
 · rw [value, product, byteFormula_eq card long]

end Bytes

section Steps

variable {formula : ℚ}

theorem require_true {c : Prop} [Decidable c] (holds : c) : require c = .done () := if_pos holds

theorem require_false {c : Prop} [Decidable c] (fails : ¬c) : require c = .rejected := if_neg fails

theorem right_require {c : Prop} [Decidable c] (f : Unit → Result MmcDevice) :
  Right formula (require c >>= f) ↔ (c → Right formula (f ())) := by
 by_cases holds : c
 · rw [require_true holds]
   exact ⟨fun right _ => right, fun right => right holds⟩
 · rw [require_false holds]
   exact iff_of_true trivial fun h => absurd h holds

theorem right_add (mmc : MmcDevice) (platform : Bool) (memory : mmc.type ≠ .sdio)
  (capacity : mmc.capacity ≠ 0 → (mmc.capacity.toNat : ℚ) = formula) :
  Right formula (Result.done mmc >>= fun mmc => mmcDeviceAdd mmc platform) := by
 change Right formula (mmcDeviceAdd mmc platform)
 unfold mmcDeviceAdd
 refine (right_require _).mpr fun _ => (right_require _).mpr fun some_ => ?_
 refine (right_require _).mpr fun _ => (right_require _).mpr fun _ => ?_
 exact capacity fun none => some_ ⟨memory, none⟩

end Steps

section Sd

variable (steps : SdSteps) (card : BitVec 128)

theorem structure_eq (n : Word) :
  mmcParseBits (rawCsd card) csdBits 126 2 = n ↔ field card 126 2 = n.toNat := by
 rw [← BitVec.toNat_inj, mmcParseBits_toNat card (by decide) (by decide) (by decide)]

theorem sdSetBlockCapacity_done {csd : MmcCsd} {mmc : MmcDevice} {y : Word}
  (shift : shiftLeft csd.capacity (csd.readBlkLen - mmcMaxBlocksizeShift) = .done y) :
  sdSetBlockCapacity csd mmc =
   .done { mmc with eraseSize := csd.eraseSize.setWidth 64, capacity := y.setWidth 64 } := by
 unfold sdSetBlockCapacity
 rw [shift]
 rfl

theorem sdSetBlockCapacity_undefined {csd : MmcCsd} {mmc : MmcDevice}
  (shift : shiftLeft csd.capacity (csd.readBlkLen - mmcMaxBlocksizeShift) = .undefined) :
  sdSetBlockCapacity csd mmc = .undefined := by
 unfold sdSetBlockCapacity
 rw [shift]
 rfl

theorem setWidth_toNat (y : Word) : (y.setWidth 64).toNat = y.toNat := by
 have small := y.isLt
 rw [BitVec.toNat_setWidth, Nat.mod_eq_of_lt (by omega)]

theorem sd_bytes (platform : Bool) (csdStructure : Word) :
  Right (byteFormula card)
    (sdSetBlockCapacity (sdDecodeCsdRev1Field (rawCsd card) csdStructure) (newDevice .sd) >>=
     fun mmc => mmcDeviceAdd mmc platform) ↔
   9 ≤ field card 80 4 := by
 have capacity : (sdDecodeCsdRev1Field (rawCsd card) csdStructure).capacity =
   bytesCapacity card := rfl
 have length : (sdDecodeCsdRev1Field (rawCsd card) csdStructure).readBlkLen =
   bytesReadBlkLen card := rfl
 have memory : MmcDevType.sd ≠ .sdio := by decide
 by_cases long : 9 ≤ field card 80 4
 · obtain ⟨y, shift, -, value⟩ := shiftLeft_right card (bytesCapacity card) (le_refl 32) rfl long
   rw [← capacity, ← length] at shift
   rw [sdSetBlockCapacity_done shift]
   refine iff_of_true (right_add _ platform memory fun _ => ?_) long
   rw [setWidth_toNat, value]
 · have shift := shiftLeft_long card (bytesCapacity card) (by decide) (by omega)
   rw [← capacity, ← length] at shift
   rw [sdSetBlockCapacity_undefined shift]
   exact iff_of_false id long

theorem sd_blocks (platform : Bool) (csdStructure : Word) (mmc : MmcDevice) (sd : mmc.type = .sd) :
  Right ((field card 48 22 + 1) * 1024)
   (sdSetBlockCapacity (sdDecodeCsdRev2Field (rawCsd card) csdStructure) mmc >>=
    fun mmc => mmcDeviceAdd mmc platform) := by
 have size : field card 48 22 < 2 ^ 22 := field_lt card 48 22
 have capacity : ((1 + mmcParseBits (rawCsd card) csdBits 48 22) <<< 10).toNat =
   (field card 48 22 + 1) * 1024 % 2 ^ 32 := by
  rw [BitVec.toNat_shiftLeft, Nat.shiftLeft_eq, BitVec.toNat_add,
   mmcParseBits_toNat card (by decide) (by decide) (by decide)]
  change (1 + field card 48 22) % 2 ^ 32 * 2 ^ 10 % 2 ^ 32 = _
  omega
 have shift : shiftLeft (sdDecodeCsdRev2Field (rawCsd card) csdStructure).capacity
   ((sdDecodeCsdRev2Field (rawCsd card) csdStructure).readBlkLen - mmcMaxBlocksizeShift) =
   .done ((1 + mmcParseBits (rawCsd card) csdBits 48 22) <<< 10) := by
  have none : (mmcMaxBlocksizeShift - mmcMaxBlocksizeShift).toNat = 0 := by decide
  change shiftLeft ((1 + mmcParseBits (rawCsd card) csdBits 48 22) <<< 10)
   (mmcMaxBlocksizeShift - mmcMaxBlocksizeShift) = _
  rw [shiftLeft, none, if_pos (by decide), BitVec.shiftLeft_zero]
 rw [sdSetBlockCapacity_done shift]
 refine right_add _ platform (by rw [sd]; decide) fun some_ => ?_
 have positive : (field card 48 22 + 1) * 1024 % 2 ^ 32 ≠ 0 := fun none => by
  refine some_ (BitVec.toNat_inj.mp ?_)
  rw [setWidth_toNat, capacity, none]
  rfl
 have whole : (field card 48 22 + 1) * 1024 % 2 ^ 32 = (field card 48 22 + 1) * 1024 := by omega
 rw [setWidth_toNat, capacity, whole]
 push_cast
 rfl

theorem sdDecodeCsd_rev1 {raw : ℕ → Word} (mmc : MmcDevice)
  (first : mmcParseBits raw csdBits 126 2 = 0) :
  sdDecodeCsd mmc raw = .done (sdDecodeCsdRev1Field raw 0, mmc) := by
 unfold sdDecodeCsd
 rw [first]
 rfl

theorem sdDecodeCsd_rev2 {raw : ℕ → Word} (mmc : MmcDevice)
  (second : mmcParseBits raw csdBits 126 2 = 1) :
  ∃ sdxc, sdDecodeCsd mmc raw =
   .done (sdDecodeCsdRev2Field raw 1, { mmc with blockAddr := true, sdxc := sdxc }) := by
 unfold sdDecodeCsd
 rw [second]
 exact ⟨_, rfl⟩

theorem sdDecodeCsd_other {raw : ℕ → Word} (mmc : MmcDevice)
  (notFirst : mmcParseBits raw csdBits 126 2 ≠ 0)
  (notSecond : mmcParseBits raw csdBits 126 2 ≠ 1) :
  sdDecodeCsd mmc raw = .rejected :=
 (if_neg notFirst).trans (if_neg notSecond)

theorem sd_right_iff : Right (sdFormula card) (sdInit steps card) ↔ SdMeets steps card := by
 unfold sdInit SdMeets
 rw [right_require]
 refine imp_congr_right fun _ => ?_
 unfold sdFormula
 by_cases bytes : field card 126 2 = 0
 · rw [if_pos bytes, sdDecodeCsd_rev1 _ ((structure_eq card 0).mpr bytes)]
   refine (right_require _).trans (imp_congr_right fun _ => ?_)
   rw [sd_bytes, forall_prop_of_true bytes]
 rw [if_neg bytes]
 refine iff_of_true ?_ fun _ same => absurd same bytes
 by_cases blocks : field card 126 2 = 1
 · obtain ⟨sdxc, decode⟩ := sdDecodeCsd_rev2 (newDevice .sd) ((structure_eq card 1).mpr blocks)
   rw [decode]
   exact (right_require _).mpr fun _ => sd_blocks card steps.platform _ _ rfl
 · rw [sdDecodeCsd_other _ (mt (structure_eq card 0).mp bytes)
    (mt (structure_eq card 1).mp blocks)]
   trivial

end Sd

section ExtCsd

variable (strict : Bool) (raw : Fin 512 → BitVec 8)

theorem shiftByte_done (byte : BitVec 8) {shift : ℕ}
  (small : strict = true → byte.toNat * 2 ^ shift < 2 ^ 31) :
  shiftByte strict byte shift = .done (byte.setWidth 32 <<< shift) :=
 if_neg fun bad => absurd (small bad.1) (not_lt.mpr bad.2)

theorem low_small (byte : BitVec 8) {shift : ℕ} (low : shift ≤ 16) :
  byte.toNat * 2 ^ shift < 2 ^ 31 := by
 have less : byte.toNat < 256 := byte.isLt
 calc byte.toNat * 2 ^ shift ≤ 255 * 2 ^ 16 :=
    Nat.mul_le_mul (by omega) (Nat.pow_le_pow_right (by decide) low)
  _ < 2 ^ 31 := by decide

theorem or_byte (sum : Word) (byte : BitVec 8) (shift : ℕ) (fits : shift ≤ 24)
  (below : sum.toNat < 2 ^ shift) :
  (sum ||| byte.setWidth 32 <<< shift).toNat = sum.toNat + byte.toNat * 2 ^ shift := by
 have less : byte.toNat < 256 := byte.isLt
 have wide : (byte.setWidth 32).toNat = byte.toNat := by
  rw [BitVec.toNat_setWidth, Nat.mod_eq_of_lt (by omega)]
 have inside : (byte.setWidth 32).toNat * 2 ^ shift < 2 ^ 32 := by
  rw [wide]
  calc byte.toNat * 2 ^ shift ≤ 255 * 2 ^ 24 :=
     Nat.mul_le_mul (by omega) (Nat.pow_le_pow_right (by decide) fits)
   _ < 2 ^ 32 := by decide
 rw [BitVec.toNat_or, shifted_toNat _ inside, wide, Nat.or_comm, Nat.mul_comm,
  ← Nat.two_pow_add_eq_or_of_lt below, Nat.add_comm]

def sectorBytes : Word :=
 (raw 212).setWidth 32 <<< 0 ||| (raw 213).setWidth 32 <<< 8 ||| (raw 214).setWidth 32 <<< 16 |||
  (raw 215).setWidth 32 <<< 24

theorem sectorBytes_toNat : (sectorBytes raw).toNat = sectorCount raw := by
 have less0 : (raw 212).toNat < 256 := (raw 212).isLt
 have less1 : (raw 213).toNat < 256 := (raw 213).isLt
 have less2 : (raw 214).toNat < 256 := (raw 214).isLt
 have sum0 : ((raw 212).setWidth 32 <<< 0).toNat = (raw 212).toNat := by
  rw [BitVec.shiftLeft_zero, BitVec.toNat_setWidth, Nat.mod_eq_of_lt (by omega)]
 have sum1 := or_byte ((raw 212).setWidth 32 <<< 0) (raw 213) 8 (by decide) (by omega)
 have sum2 := or_byte _ (raw 214) 16 (by decide) (sum1.trans_lt (by omega))
 have sum3 := or_byte _ (raw 215) 24 (by decide) (sum2.trans_lt (by omega))
 rw [sectorBytes, sum3, sum2, sum1, sum0, sectorCount]

theorem sector_done (small : strict = true → (raw 215).toNat < 128) :
  emmcDecodeExtCsdSector strict raw =
   .done (sectorBytes raw, decide (4194304 < sectorCount raw)) := by
 have last : strict = true → (raw 215).toNat * 2 ^ 24 < 2 ^ 31 := fun h => by
  have less := small h
  omega
 have bound : (2 * 1024 * 1024 * 1024 / 512 < sectorBytes raw) ↔ 4194304 < sectorCount raw := by
  rw [BitVec.lt_def, sectorBytes_toNat]
  rfl
 unfold emmcDecodeExtCsdSector
 rw [shiftByte_done strict (raw 212) fun _ => low_small _ (by decide),
  shiftByte_done strict (raw 213) fun _ => low_small _ (by decide),
  shiftByte_done strict (raw 214) fun _ => low_small _ (by decide),
  shiftByte_done strict (raw 215) last]
 change Result.done (sectorBytes raw, decide (2 * 1024 * 1024 * 1024 / 512 < sectorBytes raw)) = _
 rw [decide_eq_decide.mpr bound]

theorem sector_read (small : strict = true → (raw 215).toNat < 128) :
  ∃ many, emmcDecodeExtCsdSector strict raw = .done (sectorBytes raw, many) ∧
   (many = true ↔ 4194304 < sectorCount raw) :=
 ⟨_, sector_done strict raw small, decide_eq_true_iff⟩

theorem sector_undefined (letter : strict = true) (large : 128 ≤ (raw 215).toNat) :
  emmcDecodeExtCsdSector strict raw = .undefined := by
 have last : shiftByte strict (raw 215) 24 = .undefined :=
  if_pos ⟨letter, by omega⟩
 unfold emmcDecodeExtCsdSector
 rw [shiftByte_done strict (raw 212) fun _ => low_small _ (by decide),
  shiftByte_done strict (raw 213) fun _ => low_small _ (by decide),
  shiftByte_done strict (raw 214) fun _ => low_small _ (by decide), last]
 rfl

def enhances : Bool := decide (emmcExtCsdRev14 ≤ raw 192) && enhancedArea raw

variable {strict raw} {csd : MmcCsd} {mmc : MmcDevice}

theorem emmcDecodeExtCsd_rejected
  (invalid : csd.csdStructure = mmcCsdStructureVerOther ∧ emmcExtCsdStructureVer12 < raw 194) :
  emmcDecodeExtCsd strict csd mmc raw = .rejected := by
 unfold emmcDecodeExtCsd
 rw [require_false (not_not.mpr invalid)]
 rfl

theorem emmcDecodeExtCsd_undefined
  (valid : ¬(csd.csdStructure = mmcCsdStructureVerOther ∧ emmcExtCsdStructureVer12 < raw 194))
  (read : readSectors strict raw = .undefined) :
  emmcDecodeExtCsd strict csd mmc raw = .undefined := by
 unfold emmcDecodeExtCsd
 rw [require_true valid]
 change readSectors strict raw >>= _ = _
 rw [read]
 rfl

variable (mmc) in
theorem emmcDecodeExtCsd_done {sectors : Word} {blockAddr : Bool}
  (valid : ¬(csd.csdStructure = mmcCsdStructureVerOther ∧ emmcExtCsdStructureVer12 < raw 194))
  (read : readSectors strict raw = .done (sectors, blockAddr)) :
  ∃ ext, emmcDecodeExtCsd strict csd mmc raw =
    .done (ext, { mmc with blockAddr := mmc.blockAddr || blockAddr }) ∧
   ext.sectors = sectors ∧ ext.enhAreaEnable = enhances raw := by
 unfold emmcDecodeExtCsd
 rw [require_true valid]
 change ∃ ext, (readSectors strict raw >>= _) = _ ∧ _
 rw [read]
 exact ⟨_, rfl, rfl, rfl⟩

end ExtCsd

section Emmc

variable {steps : EmmcSteps} {csd : MmcCsd} {ext : EmmcExtCsd} {mmc : MmcDevice} {formula : ℚ}
  {card : BitVec 128}

theorem emmc_set (platform : Bool) (emmc : mmc.type = .emmc)
  (capacity : csd.capacity = bytesCapacity card) (length : csd.readBlkLen = bytesReadBlkLen card)
  (sectors : mmc.blockAddr = true → (ext.sectors.toNat : ℚ) = formula)
  (bytes : mmc.blockAddr = false → byteFormula card = formula) :
  Right formula (emmcSetBlockCapacity csd ext mmc >>= fun mmc => mmcDeviceAdd mmc platform) ↔
   (mmc.blockAddr = false → 9 ≤ field card 80 4) := by
 have memory : mmc.type ≠ .sdio := by
  rw [emmc]
  decide
 unfold emmcSetBlockCapacity
 cases addr : mmc.blockAddr with
 | true =>
  refine iff_of_true (right_add _ platform memory fun _ => ?_) fun h => by cases h
  rw [setWidth_toNat, sectors addr]
 | false =>
  rw [forall_prop_of_true rfl, capacity, length]
  change Right formula ((shiftLeft ((bytesCapacity card).setWidth 64)
   (bytesReadBlkLen card - mmcMaxBlocksizeShift) >>= fun capacity => _) >>= _) ↔ _
  by_cases long : 9 ≤ field card 80 4
  · obtain ⟨y, shift, -, value⟩ := shiftLeft_right card ((bytesCapacity card).setWidth 64)
     (by decide) (setWidth_toNat _) long
    rw [shift]
    refine iff_of_true (right_add _ platform memory fun _ => ?_) long
    exact value.trans (bytes addr)
  · rw [shiftLeft_long card _ (by decide) (by omega)]
    exact iff_of_false id long

theorem emmcSwitch_rejected (stops : ext.enhAreaEnable = true ∧ steps.eraseGroups = .failed ∨
  ¬steps.operationMode = true) : emmcSwitchOperationMode steps ext = .rejected := by
 unfold emmcSwitchOperationMode
 by_cases failed : ext.enhAreaEnable = true ∧ steps.eraseGroups = .failed
 · rw [require_false (not_not.mpr failed)]
   rfl
 · rw [require_true failed, require_false (stops.resolve_left failed)]
   rfl

theorem emmcSwitch_done (switched : ¬(ext.enhAreaEnable = true ∧ steps.eraseGroups = .failed))
  (mode : steps.operationMode = true) :
  ∃ ext', emmcSwitchOperationMode steps ext = .done ext' ∧ ext'.sectors = ext.sectors := by
 unfold emmcSwitchOperationMode
 rw [require_true switched, require_true mode]
 change ∃ ext', (if ext.enhAreaEnable = true ∧ steps.eraseGroups = .success then
  Result.done { ext with eraseGroupDef := 1 } else Result.done ext) = Result.done ext' ∧ _
 split
 · exact ⟨_, rfl, rfl⟩
 · exact ⟨_, rfl, rfl⟩

variable (ext mmc) in
theorem emmc_switch (platform : Bool) (emmc : mmc.type = .emmc)
  (capacity : csd.capacity = bytesCapacity card) (length : csd.readBlkLen = bytesReadBlkLen card)
  (sectors : mmc.blockAddr = true → (ext.sectors.toNat : ℚ) = formula)
  (bytes : mmc.blockAddr = false → byteFormula card = formula) :
  Right formula (emmcSwitchOperationMode steps ext >>= fun ext =>
    emmcSetBlockCapacity csd ext mmc >>= fun mmc => mmcDeviceAdd mmc platform) ↔
   (¬(ext.enhAreaEnable = true ∧ steps.eraseGroups = .failed) → steps.operationMode = true →
    mmc.blockAddr = false → 9 ≤ field card 80 4) := by
 by_cases failed : ext.enhAreaEnable = true ∧ steps.eraseGroups = .failed
 · rw [emmcSwitch_rejected (.inl failed)]
   exact iff_of_true trivial fun switched => absurd failed switched
 by_cases mode : steps.operationMode = true
 · obtain ⟨ext', switch, same⟩ := emmcSwitch_done failed mode
   rw [switch, forall_prop_of_true failed, forall_prop_of_true mode]
   refine emmc_set platform emmc capacity length (fun addr => ?_) bytes
   rw [same, sectors addr]
 · rw [emmcSwitch_rejected (.inr mode)]
   exact iff_of_true trivial fun _ h => absurd h mode

theorem emmcDecodeCsd_done (valid : field card 126 2 ≠ 0) :
  ∃ csd, emmcDecodeCsd (rawCsd card) = .done csd ∧
   csd.csdStructure = mmcParseBits (rawCsd card) csdBits 126 2 ∧
   csd.specVers = mmcParseBits (rawCsd card) csdBits 122 4 ∧
   csd.capacity = bytesCapacity card ∧ csd.readBlkLen = bytesReadBlkLen card := by
 have some_ : mmcParseBits (rawCsd card) csdBits 126 2 ≠ 0 := mt (structure_eq card 0).mp valid
 unfold emmcDecodeCsd
 dsimp only
 rw [require_true some_]
 exact ⟨_, rfl, rfl, rfl, rfl, rfl⟩

theorem emmcDecodeCsd_rejected (invalid : field card 126 2 = 0) :
  emmcDecodeCsd (rawCsd card) = .rejected := by
 have none : ¬mmcParseBits (rawCsd card) csdBits 126 2 ≠ 0 :=
  not_not.mpr ((structure_eq card 0).mpr invalid)
 unfold emmcDecodeCsd
 dsimp only
 rw [require_false none]
 rfl

theorem specVers_toNat (specVers : csd.specVers = mmcParseBits (rawCsd card) csdBits 122 4) :
  csd.specVers.toNat = field card 122 4 := by
 rw [specVers, mmcParseBits_toNat card (by decide) (by decide) (by decide)]

variable {raw : Fin 512 → BitVec 8} {strict : Bool}

theorem rejects_iff (decoded : csd.csdStructure = mmcParseBits (rawCsd card) csdBits 126 2) :
  (csd.csdStructure = mmcCsdStructureVerOther ∧ emmcExtCsdStructureVer12 < raw 194) ↔
   field card 126 2 = 3 ∧ 2 < (raw 194).toNat := by
 rw [decoded, structure_eq]
 rfl

theorem enhances_iff : enhances raw = true ↔ 4 ≤ (raw 192).toNat ∧ enhancedArea raw = true := by
 rw [enhances, Bool.and_eq_true, decide_eq_true_iff]
 rfl

theorem emmc_read (selected : 4 ≤ field card 122 4)
  (capacity : csd.capacity = bytesCapacity card) (length : csd.readBlkLen = bytesReadBlkLen card)
  (valid : ¬(csd.csdStructure = mmcCsdStructureVerOther ∧ emmcExtCsdStructureVer12 < raw 194)) :
  Right (emmcFormula card raw)
    (emmcDecodeExtCsd strict csd (newDevice .emmc) raw >>= fun x =>
     emmcSwitchOperationMode steps x.1 >>= fun ext =>
      emmcSetBlockCapacity csd ext x.2 >>= fun mmc => mmcDeviceAdd mmc steps.platform) ↔
   (strict = true → 2 ≤ (raw 192).toNat → (raw 215).toNat < 128) ∧
    (Switched steps card raw → ¬SectorAddressed card raw → 9 ≤ field card 80 4) := by
 have enhanced : ∀ ext : EmmcExtCsd, ext.enhAreaEnable = enhances raw →
   ((¬(ext.enhAreaEnable = true ∧ steps.eraseGroups = .failed)) ↔
    ¬(4 ≤ field card 122 4 ∧ 4 ≤ (raw 192).toNat ∧ enhancedArea raw = true ∧
     steps.eraseGroups = .failed)) := fun ext same => by
  rw [same, enhances_iff, and_assoc, and_iff_right selected]
 have switched : (Switched steps card raw → ¬SectorAddressed card raw → 9 ≤ field card 80 4) ↔
   (¬(4 ≤ field card 122 4 ∧ 4 ≤ (raw 192).toNat ∧ enhancedArea raw = true ∧
     steps.eraseGroups = .failed) → steps.operationMode = true →
    ¬SectorAddressed card raw → 9 ≤ field card 80 4) :=
  ⟨fun h groups mode => h ⟨groups, mode⟩, fun h switched => h switched.1 switched.2⟩
 rw [switched]
 by_cases counted : 2 ≤ (raw 192).toNat
 · have read : readSectors strict raw = emmcDecodeExtCsdSector strict raw := if_pos counted
   by_cases small : strict = true → (raw 215).toNat < 128
   · rw [and_iff_right fun letter _ => small letter]
     obtain ⟨many, sectorsRead, more⟩ := sector_read strict raw small
     rw [sectorsRead] at read
     obtain ⟨ext, decode, sectors, enhance⟩ :=
      emmcDecodeExtCsd_done (newDevice .emmc) valid read
     rw [decode, ← enhanced ext enhance]
     have addressed : SectorAddressed card raw ↔ many = true := by
      rw [SectorAddressed, and_iff_right selected, and_iff_right counted, more]
     have formula : many = true → (ext.sectors.toNat : ℚ) = emmcFormula card raw := fun h => by
      rw [sectors, sectorBytes_toNat, emmcFormula, if_pos (addressed.mpr h)]
     have bytes : many = false → byteFormula card = emmcFormula card raw := fun h => by
      rw [emmcFormula, if_neg (by rw [addressed, h]; decide)]
     refine (emmc_switch ext _ steps.platform rfl capacity length formula bytes).trans ?_
     rw [addressed, Bool.not_eq_true]
     rfl
   · obtain ⟨letter, large⟩ := Classical.not_imp.mp small
     rw [sector_undefined strict raw letter (not_lt.mp large)] at read
     rw [emmcDecodeExtCsd_undefined valid read]
     exact iff_of_false id fun h => large (h.1 letter counted)
 · have read : readSectors strict raw = .done (0, false) := if_neg counted
   obtain ⟨ext, decode, sectors, enhance⟩ :=
    emmcDecodeExtCsd_done (newDevice .emmc) valid read
   have bytes : ¬SectorAddressed card raw := fun addressed => counted addressed.2.1
   rw [decode, ← enhanced ext enhance, and_iff_right fun _ h => absurd h counted]
   refine (emmc_switch ext _ steps.platform rfl capacity length (fun h => by cases h)
    fun _ => ?_).trans ?_
   · rw [emmcFormula, if_neg bytes]
   · rw [forall_prop_of_true bytes]
     exact ⟨fun h groups mode => h groups mode rfl, fun h groups mode _ => h groups mode⟩

theorem emmc_right_iff : Right (emmcFormula card raw) (emmcInit steps strict card raw) ↔
  EmmcMeets steps strict card raw := by
 unfold emmcInit
 rw [right_require]
 by_cases decoded : field card 126 2 = 0
 · rw [emmcDecodeCsd_rejected decoded]
   exact iff_of_true (fun _ => trivial) fun selected => absurd decoded selected.csdStructure
 obtain ⟨csd, decode, structure_, specVers, capacity, length⟩ := emmcDecodeCsd_done decoded
 have version := specVers_toNat specVers
 have known : csd.specVers ≤ mmcCsdSpecVer4 ↔ field card 122 4 ≤ 4 := by
  rw [BitVec.le_def, version]
  rfl
 have early : csd.specVers < mmcCsdSpecVer4 ↔ field card 122 4 < 4 := by
  rw [BitVec.lt_def, version]
  rfl
 rw [decode]
 have selected : EmmcMeets steps strict card raw ↔ (steps.identify = true →
   csd.specVers ≤ mmcCsdSpecVer4 → steps.select = true →
   (ExtCsdRead steps card raw → strict = true → 2 ≤ (raw 192).toNat →
    (raw 215).toNat < 128) ∧
   (field card 122 4 < 4 ∨ ExtCsdRead steps card raw → Switched steps card raw →
    ¬SectorAddressed card raw → 9 ≤ field card 80 4)) :=
  ⟨fun h identify vers select => h ⟨identify, decoded, known.mp vers, select⟩,
   fun h selected => h selected.identify (known.mpr selected.specVers) selected.select⟩
 rw [selected]
 refine imp_congr_right fun _ => ?_
 refine (right_require _).trans (imp_congr_right fun _ => ?_)
 refine (right_require _).trans (imp_congr_right fun _ => ?_)
 unfold emmcReadExtCsd
 by_cases old : field card 122 4 < 4
 · rw [if_pos (early.mpr old)]
   have unread : ¬ExtCsdRead steps card raw := fun read => absurd old (not_lt.mpr read.specVers)
   have bytes : ¬SectorAddressed card raw := fun addressed => absurd old (not_lt.mpr addressed.1)
   rw [and_iff_right fun read => absurd read unread, forall_prop_of_true (.inl old)]
   refine (emmc_switch noExtCsd (newDevice .emmc) steps.platform rfl capacity
    length (fun h => by cases h) fun _ => ?_).trans ?_
   · rw [emmcFormula, if_neg bytes]
   · have off : ¬(noExtCsd.enhAreaEnable = true ∧ steps.eraseGroups = .failed) := fun h => by
      cases h.1
     have groups : ¬(4 ≤ field card 122 4 ∧ 4 ≤ (raw 192).toNat ∧ enhancedArea raw = true ∧
       steps.eraseGroups = .failed) := fun h => absurd old (not_lt.mpr h.1)
     exact ⟨fun h switched _ => h off switched.operationMode rfl,
      fun h _ mode _ => h ⟨groups, mode⟩ bytes⟩
 · rw [if_neg (mt early.mp old)]
   by_cases send : steps.sendExtCsd = true
   · rw [if_neg (by rw [send]; decide)]
     by_cases invalid : field card 126 2 = 3 ∧ 2 < (raw 194).toNat
     · have unread : ¬(field card 122 4 < 4 ∨ ExtCsdRead steps card raw) := fun h =>
        (h.resolve_left old).accepted invalid
       rw [emmcDecodeExtCsd_rejected ((rejects_iff structure_).mpr invalid)]
       exact iff_of_true trivial ⟨fun read => absurd (.inr read) unread,
        fun read => absurd read unread⟩
     · have read : ExtCsdRead steps card raw := ⟨not_lt.mp old, send, invalid⟩
       refine (emmc_read (not_lt.mp old) capacity length
        (mt (rejects_iff structure_).mp invalid)).trans ?_
       exact ⟨fun h => ⟨fun _ => h.1, fun _ => h.2⟩, fun h => ⟨h.1 read, h.2 (.inr read)⟩⟩
   · have unread : ¬(field card 122 4 < 4 ∨ ExtCsdRead steps card raw) := fun h =>
      send (h.resolve_left old).send
     rw [if_pos (Bool.eq_false_iff.mpr send)]
     exact iff_of_true trivial ⟨fun read => absurd (.inr read) unread,
      fun read => absurd read unread⟩

end Emmc

/-- For every register content the initialization of an SD or eMMC card is defined and a device that
is added has the capacity of its formula, exactly if the conditions on the contents hold. -/
theorem capacity_right_iff (sdSteps : SdSteps) (steps : EmmcSteps) (strict : Bool)
    (card : BitVec 128) (raw : Fin 512 → BitVec 8) :
    (Right (sdFormula card) (sdInit sdSteps card) ↔ SdMeets sdSteps card) ∧
      (Right (emmcFormula card raw) (emmcInit steps strict card raw) ↔
        EmmcMeets steps strict card raw) :=
  ⟨sd_right_iff sdSteps card, emmc_right_iff⟩

/-- An SD card of the first structure with blocks of 256 bytes and single blocks to erase. -/
def shortBlocks : BitVec 128 := 8#128 <<< 80 ||| 1#128 <<< 46

/-- An eMMC card with blocks of 256 bytes, without the extended register. -/
def shortEmmc : BitVec 128 := 1#128 <<< 126 ||| 3#128 <<< 122 ||| 8#128 <<< 80 ||| 9#128 <<< 22

theorem short_blocks_undefined :
    ¬Right (sdFormula shortBlocks) (sdInit ⟨true, true, true⟩ shortBlocks) ∧
    ¬Right (emmcFormula shortEmmc fun _ => 0)
      (emmcInit ⟨true, true, true, .success, true, true⟩ false shortEmmc fun _ => 0) := by
  constructor
  · refine mt (sd_right_iff _ _).mp fun meets => ?_
    exact absurd (meets rfl rfl (by decide)) (by decide)
  · refine mt emmc_right_iff.mp fun meets => ?_
    have selected : EmmcSelected ⟨true, true, true, .success, true, true⟩ shortEmmc :=
      ⟨rfl, by decide, by decide, rfl⟩
    have switched : Switched ⟨true, true, true, .success, true, true⟩ shortEmmc fun _ => 0 :=
      ⟨by decide, rfl⟩
    exact absurd ((meets selected).2 (.inl (by decide)) switched (by decide)) (by decide)

end DriversFramework.MmcCapacity
