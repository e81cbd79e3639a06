import DriversFramework.MmcCapacity

namespace DriversFramework.MmcDecoders

open MmcCapacity

structure Call where
 bitsLen : ℕ
 start : ℕ
 size : ℕ
 deriving DecidableEq

abbrev Decode := StateM (List Call)

def parseBits (raw : ℕ → Word) (bitsLen start size : ℕ) : Decode Word := do
 modify (· ++ [⟨bitsLen, start, size⟩])
 return mmcParseBits raw bitsLen start size

def cidBits : ℕ := 128
def scrBits : ℕ := 64
def ssrBits : ℕ := 512

def tranSpeed (raw : ℕ → Word) : Decode Word := do
 let factor ← parseBits raw csdBits 99 4
 let unit ← parseBits raw csdBits 96 3
 return tableValue gTranSpeedUnit unit * tableValue gCommFactor factor

def decodeFields (raw : ℕ → Word) (csdStructure specVers : Word) : Decode MmcCsd := do
 let factor ← parseBits raw csdBits 115 4
 let unit ← parseBits raw csdBits 112 3
 let taccNs := (tableValue gTaccUnit unit * tableValue gCommFactor factor + 9) / 10
 let taccClks ← parseBits raw csdBits 104 8
 let maxDtr ← tranSpeed raw
 let ccc ← parseBits raw csdBits 84 12
 let size ← parseBits raw csdBits 62 12
 let mult ← parseBits raw csdBits 47 3
 let readBlkLen ← parseBits raw csdBits 80 4
 let rdPartial ← parseBits raw csdBits 79 1
 let wrMisalign ← parseBits raw csdBits 78 1
 let rdMisalign ← parseBits raw csdBits 77 1
 let r2wFactor ← parseBits raw csdBits 26 3
 let writeBlkLen ← parseBits raw csdBits 22 4
 let wrPartial ← parseBits raw csdBits 21 1
 return {
  csdStructure, specVers, ccc, taccNs, r2wFactor, maxDtr, readBlkLen, writeBlkLen, rdPartial
  rdMisalign, wrPartial, wrMisalign
  taccClks := taccClks * 100
  cSize := 0
  eraseSize := 0
  capacity := (1 + size) <<< (mult + 2).toNat }

def emmcDecodeCsd (raw : ℕ → Word) : Decode (Option MmcCsd) := do
 let csdStructure ← parseBits raw csdBits 126 2
 if csdStructure = 0 then return none
 else
  let specVers ← parseBits raw csdBits 122 4
  let csd ← decodeFields raw csdStructure specVers
  if mmcMaxBlocksizeShift ≤ csd.writeBlkLen then
   let unit ← parseBits raw csdBits 42 5
   let factor ← parseBits raw csdBits 37 5
   return some { csd with
    eraseSize := ((unit + 1) * (factor + 1)) <<<
     (csd.writeBlkLen - mmcMaxBlocksizeShift).toNat }
  else return some csd

def sdDecodeCsdRev1Field (raw : ℕ → Word) : Decode MmcCsd := do
 let csd ← decodeFields raw 0 0
 let eraseBlk ← parseBits raw csdBits 46 1
 if eraseBlk = 1 then return { csd with eraseSize := 1 }
 else if mmcMaxBlocksizeShift ≤ csd.writeBlkLen then
  let sectors ← parseBits raw csdBits 39 7
  return { csd with
   eraseSize := (sectors + 1) <<< (csd.writeBlkLen - mmcMaxBlocksizeShift).toNat }
 else return csd

def sdDecodeCsdRev2Field (raw : ℕ → Word) : Decode MmcCsd := do
 let maxDtr ← tranSpeed raw
 let ccc ← parseBits raw csdBits 84 12
 let cSize ← parseBits raw csdBits 48 22
 return {
  csdStructure := 1
  specVers := 0
  ccc, maxDtr, cSize
  taccClks := 0
  taccNs := 0
  r2wFactor := 2
  eraseSize := 1
  readBlkLen := mmcMaxBlocksizeShift
  writeBlkLen := mmcMaxBlocksizeShift
  capacity := (1 + cSize) <<< 10
  rdPartial := 0
  rdMisalign := 0
  wrPartial := 0
  wrMisalign := 0 }

def sdDecodeCsd (raw : ℕ → Word) : Decode (Option MmcCsd) := do
 let csdStructure ← parseBits raw csdBits 126 2
 if csdStructure = 0 then return some (← sdDecodeCsdRev1Field raw)
 else if csdStructure = 1 then return some (← sdDecodeCsdRev2Field raw)
 else return none

structure MmcCid where
 mid : Word
 pnm : List (BitVec 8)
 psn : Word
 oid : BitVec 16
 year : BitVec 16
 month : BitVec 8
 hwPrv : BitVec 8
 fwPrv : BitVec 8

def productName (raw : ℕ → Word) (n : ℕ) : Decode (List (BitVec 8)) :=
 (List.range n).mapM fun i => do
  let letter ← parseBits raw cidBits (96 - i * 8) 8
  return letter.setWidth 8

def emmcDecodeCid (raw : ℕ → Word) (specVers : Word) : Decode (Option MmcCid) := do
 if 4 < specVers then return none
 else
  let month ← parseBits raw cidBits 12 4
  let year ← parseBits raw cidBits 8 4
  let year := (year + 1997).setWidth 16
  if specVers = 0 ∨ specVers = 1 then
   let mid ← parseBits raw cidBits 104 24
   let pnm ← productName raw 7
   let hwPrv ← parseBits raw cidBits 44 4
   let fwPrv ← parseBits raw cidBits 40 4
   let psn ← parseBits raw cidBits 16 24
   return some ⟨mid, pnm ++ [0], psn, 0, year, month.setWidth 8, hwPrv.setWidth 8,
    fwPrv.setWidth 8⟩
  else
   let mid ← parseBits raw cidBits 120 8
   let oid ← parseBits raw cidBits 104 16
   let pnm ← productName raw 6
   let psn ← parseBits raw cidBits 16 32
   -- whether the card is removable
   let _cbx ← parseBits raw cidBits 112 2
   return some ⟨mid, pnm ++ [0], psn, oid.setWidth 16, year, month.setWidth 8, 0, 0⟩

def sdDecodeCid (raw : ℕ → Word) : Decode MmcCid := do
 let mid ← parseBits raw cidBits 120 8
 let oid ← parseBits raw cidBits 104 16
 let pnm ← productName raw 5
 let hwPrv ← parseBits raw cidBits 60 4
 let fwPrv ← parseBits raw cidBits 56 4
 let psn ← parseBits raw cidBits 24 32
 let year ← parseBits raw cidBits 12 8
 let month ← parseBits raw cidBits 8 4
 return ⟨mid, pnm ++ [0], psn, oid.setWidth 16, (year + 2000).setWidth 16, month.setWidth 8,
  hwPrv.setWidth 8, fwPrv.setWidth 8⟩

structure SdScr where
 sdSpec : BitVec 8
 sdSpec3 : BitVec 8
 sdBusWidths : BitVec 8
 cmdSupport : BitVec 8

def readSdSpec3 (raw : ℕ → Word) (sdSpec : Word) : Decode Word :=
 if sdSpec.setWidth 8 = (2 : BitVec 8) then parseBits raw scrBits 47 1 else pure 0

def sdDecodeScr (raw : ℕ → Word) : Decode (Option SdScr) := do
 let scrStruct ← parseBits raw scrBits 60 4
 if scrStruct.setWidth 8 ≠ 0 then return none
 else
  let sdSpec ← parseBits raw scrBits 56 4
  let sdSpec3 ← readSdSpec3 raw sdSpec
  let sdBusWidths ← parseBits raw scrBits 48 4
  let cmdSupport ← parseBits raw scrBits 32 2
  return some ⟨sdSpec.setWidth 8, sdSpec3.setWidth 8, sdBusWidths.setWidth 8,
   cmdSupport.setWidth 8⟩

structure SdSsr where
 speedClass : BitVec 8
 auSize : BitVec 8
 eraseTimeout : BitVec 8
 eraseOffset : BitVec 8
 uhsSpeedGrade : BitVec 8
 auValue : Word

def allocationUnit (raw : ℕ → Word) (sdSpec3 : BitVec 8) (auSize : Word) :
  Decode (Word × Word × Word) := do
 if 0 < auSize ∧ (auSize ≤ mmcMaxBlocksizeShift ∨ 0 < sdSpec3) then
  let auValue := (1 : Word) <<< (auSize + 4).toNat
  let eraseSize ← parseBits raw ssrBits 408 16
  let eraseTimeout ← parseBits raw ssrBits 402 6
  if 0 < eraseSize then
   let eraseOffset ← parseBits raw ssrBits 400 2
   return (auValue, eraseTimeout * 1000 / eraseSize, 1000 * eraseOffset)
  else return (auValue, 0, 0)
 else return (0, 0, 0)

def sdDecodeSSr (raw : ℕ → Word) (sdSpec3 : BitVec 8) : Decode SdSsr := do
 let speedClass ← parseBits raw ssrBits 440 8
 let auSize ← parseBits raw ssrBits 428 4
 let (auValue, eraseTimeout, eraseOffset) ← allocationUnit raw sdSpec3 auSize
 let uhsSpeedGrade ← parseBits raw ssrBits 396 4
 return ⟨speedClass.setWidth 8, auSize.setWidth 8, eraseTimeout.setWidth 8,
  eraseOffset.setWidth 8, uhsSpeedGrade.setWidth 8, auValue⟩

structure Call.Inside (n : ℕ) (call : Call) : Prop where
 bitsLen : call.bitsLen = n
 pos : 0 < call.size
 small : call.size ≤ 32
 inside : call.start + call.size ≤ n

/-- Every call that the program adds to the log is inside. -/
def StaysInside {α : Type} (n : ℕ) (c : Decode α) : Prop :=
 ∀ log, (∀ call ∈ log, call.Inside n) → ∀ call ∈ (c.run log).2, call.Inside n

section Rules

variable {α β : Type} {n : ℕ}

theorem staysInside_pure (a : α) : StaysInside n (pure a : Decode α) := fun _ inside => inside

theorem staysInside_bind {c : Decode α} {f : α → Decode β} (first : StaysInside n c)
  (rest : ∀ a, StaysInside n (f a)) : StaysInside n (c >>= f) :=
 fun log inside => rest _ _ (first log inside)

theorem staysInside_ite {p : Prop} [Decidable p] {c d : Decode α} (yes : StaysInside n c)
  (no : StaysInside n d) : StaysInside n (if p then c else d) := by
 split
 · exact yes
 · exact no

theorem staysInside_parse (raw : ℕ → Word) {start size : ℕ}
  (field : 0 < size ∧ size ≤ 32 ∧ start + size ≤ n) :
  StaysInside n (parseBits raw n start size) := by
 intro log inside call mem
 rcases List.mem_append.mp mem with old | new
 · exact inside call old
 · obtain rfl := List.mem_singleton.mp new
   exact ⟨rfl, field.1, field.2.1, field.2.2⟩

theorem staysInside_mapM {f : α → Decode β} {as : List α} (each : ∀ a ∈ as, StaysInside n (f a)) :
  StaysInside n (as.mapM f) := by
 induction as with
 | nil => exact staysInside_pure []
 | cons a as ih =>
  rw [List.mapM_cons]
  refine staysInside_bind (each a List.mem_cons_self) fun b => ?_
  refine staysInside_bind (ih fun c mem => each c (List.mem_cons_of_mem a mem)) fun bs => ?_
  exact staysInside_pure _

end Rules

section Decoders

variable (raw : ℕ → Word)

theorem tranSpeed_inside : StaysInside csdBits (tranSpeed raw) := by
 unfold tranSpeed
 repeat refine staysInside_bind (staysInside_parse raw (by decide)) fun _ => ?_
 exact staysInside_pure _

theorem decodeFields_inside (csdStructure specVers : Word) :
  StaysInside csdBits (decodeFields raw csdStructure specVers) := by
 unfold decodeFields
 repeat refine staysInside_bind (staysInside_parse raw (by decide)) fun _ => ?_
 refine staysInside_bind (tranSpeed_inside raw) fun _ => ?_
 repeat refine staysInside_bind (staysInside_parse raw (by decide)) fun _ => ?_
 exact staysInside_pure _

theorem emmcDecodeCsd_inside : StaysInside csdBits (emmcDecodeCsd raw) := by
 refine staysInside_bind (staysInside_parse raw (by decide)) fun csdStructure => ?_
 refine staysInside_ite (staysInside_pure none) ?_
 refine staysInside_bind (staysInside_parse raw (by decide)) fun specVers => ?_
 refine staysInside_bind (decodeFields_inside raw _ _) fun csd => ?_
 refine staysInside_ite ?_ (staysInside_pure _)
 repeat refine staysInside_bind (staysInside_parse raw (by decide)) fun _ => ?_
 exact staysInside_pure _

theorem sdDecodeCsdRev1Field_inside : StaysInside csdBits (sdDecodeCsdRev1Field raw) := by
 refine staysInside_bind (decodeFields_inside raw _ _) fun csd => ?_
 refine staysInside_bind (staysInside_parse raw (by decide)) fun eraseBlk => ?_
 refine staysInside_ite (staysInside_pure _) (staysInside_ite ?_ (staysInside_pure _))
 refine staysInside_bind (staysInside_parse raw (by decide)) fun sectors => ?_
 exact staysInside_pure _

theorem sdDecodeCsdRev2Field_inside : StaysInside csdBits (sdDecodeCsdRev2Field raw) := by
 refine staysInside_bind (tranSpeed_inside raw) fun _ => ?_
 repeat refine staysInside_bind (staysInside_parse raw (by decide)) fun _ => ?_
 exact staysInside_pure _

theorem sdDecodeCsd_inside : StaysInside csdBits (sdDecodeCsd raw) := by
 refine staysInside_bind (staysInside_parse raw (by decide)) fun csdStructure => ?_
 refine staysInside_ite ?_ (staysInside_ite ?_ (staysInside_pure none))
 · exact staysInside_bind (sdDecodeCsdRev1Field_inside raw) fun _ => staysInside_pure _
 · exact staysInside_bind (sdDecodeCsdRev2Field_inside raw) fun _ => staysInside_pure _

theorem productName_inside {n : ℕ} (letters : n ≤ 13) :
  StaysInside cidBits (productName raw n) := by
 refine staysInside_mapM fun i mem => ?_
 have letter : i < 13 := (List.mem_range.mp mem).trans_le letters
 refine staysInside_bind (staysInside_parse raw ?_) fun _ => staysInside_pure _
 refine ⟨by decide, by decide, ?_⟩
 change 96 - i * 8 + 8 ≤ 128
 omega

theorem emmcDecodeCid_inside (specVers : Word) :
  StaysInside cidBits (emmcDecodeCid raw specVers) := by
 refine staysInside_ite (staysInside_pure none) ?_
 repeat refine staysInside_bind (staysInside_parse raw (by decide)) fun _ => ?_
 refine staysInside_ite ?_ ?_
 · refine staysInside_bind (staysInside_parse raw (by decide)) fun mid => ?_
   refine staysInside_bind (productName_inside raw (by decide)) fun pnm => ?_
   repeat refine staysInside_bind (staysInside_parse raw (by decide)) fun _ => ?_
   exact staysInside_pure _
 · repeat refine staysInside_bind (staysInside_parse raw (by decide)) fun _ => ?_
   refine staysInside_bind (productName_inside raw (by decide)) fun pnm => ?_
   repeat refine staysInside_bind (staysInside_parse raw (by decide)) fun _ => ?_
   exact staysInside_pure _

theorem sdDecodeCid_inside : StaysInside cidBits (sdDecodeCid raw) := by
 unfold sdDecodeCid
 repeat refine staysInside_bind (staysInside_parse raw (by decide)) fun _ => ?_
 refine staysInside_bind (productName_inside raw (by decide)) fun pnm => ?_
 repeat refine staysInside_bind (staysInside_parse raw (by decide)) fun _ => ?_
 exact staysInside_pure _

theorem sdDecodeScr_inside : StaysInside scrBits (sdDecodeScr raw) := by
 refine staysInside_bind (staysInside_parse raw (by decide)) fun scrStruct => ?_
 refine staysInside_ite (staysInside_pure none) ?_
 refine staysInside_bind (staysInside_parse raw (by decide)) fun sdSpec => ?_
 have spec3 : StaysInside scrBits (readSdSpec3 raw sdSpec) :=
  staysInside_ite (staysInside_parse raw (by decide)) (staysInside_pure 0)
 refine staysInside_bind spec3 fun sdSpec3 => ?_
 repeat refine staysInside_bind (staysInside_parse raw (by decide)) fun _ => ?_
 exact staysInside_pure _

theorem allocationUnit_inside (sdSpec3 : BitVec 8) (auSize : Word) :
  StaysInside ssrBits (allocationUnit raw sdSpec3 auSize) := by
 refine staysInside_ite ?_ (staysInside_pure _)
 repeat refine staysInside_bind (staysInside_parse raw (by decide)) fun _ => ?_
 refine staysInside_ite ?_ (staysInside_pure _)
 refine staysInside_bind (staysInside_parse raw (by decide)) fun eraseOffset => ?_
 exact staysInside_pure _

theorem sdDecodeSSr_inside (sdSpec3 : BitVec 8) :
  StaysInside ssrBits (sdDecodeSSr raw sdSpec3) := by
 unfold sdDecodeSSr
 repeat refine staysInside_bind (staysInside_parse raw (by decide)) fun _ => ?_
 refine staysInside_bind (allocationUnit_inside raw sdSpec3 _) fun unit => ?_
 refine staysInside_bind (staysInside_parse raw (by decide)) fun uhsSpeedGrade => ?_
 exact staysInside_pure _

/-- `MmcParseBits` gives the bits of the number that the words of a register make, and the decoders
ask for bits that the register has. -/
theorem registers_parsed (k : ℕ) :
    (∀ start size, 0 < size → size ≤ 32 → start + size ≤ 32 * k →
      (mmcParseBits raw (32 * k) start size).toNat =
        registerValue raw k / 2 ^ start % 2 ^ size) ∧
      (StaysInside csdBits (emmcDecodeCsd raw) ∧ StaysInside csdBits (sdDecodeCsd raw)) ∧
      ((∀ specVers, StaysInside cidBits (emmcDecodeCid raw specVers)) ∧
        StaysInside cidBits (sdDecodeCid raw)) ∧
      StaysInside scrBits (sdDecodeScr raw) ∧
      ∀ sdSpec3, StaysInside ssrBits (sdDecodeSSr raw sdSpec3) :=
  ⟨fun _ _ pos small inside => mmcParseBits_value raw inside pos small,
    ⟨emmcDecodeCsd_inside raw, sdDecodeCsd_inside raw⟩,
    ⟨emmcDecodeCid_inside raw, sdDecodeCid_inside raw⟩, sdDecodeScr_inside raw,
    sdDecodeSSr_inside raw⟩

end Decoders

end DriversFramework.MmcDecoders
