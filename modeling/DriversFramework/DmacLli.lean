import DriversFramework.AddressPieces
import DriversFramework.DmacCore

namespace DriversFramework.DmacLists

open Dmac (DmacStatus DmacTransferType DmacChanInfo dmacAlignedTransMax lliNumMax)
open AddressPieces

variable {w : ℕ}

def dmacLliSize : ℕ := 64

structure DmacLli (w : ℕ) where
 nextLli : BitVec w
 count : ℕ
 srcAddr : BitVec w
 destAddr : BitVec w
 config : BitVec w
 deriving DecidableEq

structure DmacMsg (w : ℕ) where
 srcAddr : BitVec w
 destAddr : BitVec w
 transType : DmacTransferType
 transLen : ℕ
 deriving DecidableEq

/-- The fields of a channel that a list depends on. -/
structure LliChannel (w : ℕ) where
 info : DmacChanInfo
 config : BitVec w
 lliEnFlag : BitVec w
 deriving DecidableEq

/-- A controller that passed `DmacCntlrCheck`. -/
structure CheckedCntlr (w : ℕ) where
 maxTransSize : ℕ
 dmacVaddrToPaddr : BitVec w → BitVec w
 checked : maxTransSize ≠ 0

/-- Where the list is allocated, if it can be, and the physical address of the dummy buffer, or 0
where there is none. -/
structure LliMemory (w : ℕ) where
 list : Option (BitVec w)
 dummy : BitVec w
 deriving DecidableEq

def entryAt (lli : BitVec w) (i : ℕ) : BitVec w := lli + BitVec.ofNat w (i * dmacLliSize)

/-- What a round of the loop of `DmacFillLli` writes into entry `i` at `plli`. -/
def fillEntry (cntlr : CheckedCntlr w) (chan : LliChannel w) (length alignedMax lliNum i : ℕ)
  (plli srcaddr dstaddr : BitVec w) : DmacLli w :=
 let nextLli := cntlr.dmacVaddrToPaddr plli + BitVec.ofNat w dmacLliSize
 { nextLli := if i < lliNum - 1 then nextLli + chan.lliEnFlag else 0
   count := if i < lliNum - 1 ∨ length % alignedMax = 0 then alignedMax else length % alignedMax
   srcAddr := srcaddr
   destAddr := dstaddr
   config := chan.config }

/-- The rounds that are left; `srcDummy` and `dstDummy` tell whether an address is that of the
dummy buffer. -/
def fillLoop (cntlr : CheckedCntlr w) (chan : LliChannel w) (length alignedMax lliNum : ℕ)
  (lli : BitVec w) (srcDummy dstDummy : Bool) :
  ℕ → ℕ → BitVec w → BitVec w → List (DmacLli w)
 | 0, _, _, _ => []
 | rounds + 1, i, srcaddr, dstaddr =>
  let entry := fillEntry cntlr chan length alignedMax lliNum i (entryAt lli i) srcaddr dstaddr
  let dstStep := if chan.info.transType = .p2m ∧ dstDummy = false then entry.count else 0
  let srcStep := if chan.info.transType = .m2p ∧ srcDummy = false then entry.count else 0
  entry :: fillLoop cntlr chan length alignedMax lliNum lli srcDummy dstDummy rounds (i + 1)
   (srcaddr + BitVec.ofNat w srcStep) (dstaddr + BitVec.ofNat w dstStep)

/-- `lli` is the list with its `lliCnt` entries, where there is one. -/
def dmacFillLli (cntlr : CheckedCntlr w) (chan : LliChannel w) (lli : Option (BitVec w × ℕ))
  (dummy srcaddr dstaddr : BitVec w) (length : ℕ) : Except DmacStatus (List (DmacLli w)) :=
 match lli with
 | none => .error .errInvalidParam
 | some (addr, lliNum) =>
  let alignedMax :=
   dmacAlignedTransMax cntlr.maxTransSize chan.info.srcWidth chan.info.destWidth
  if alignedMax = 0 then .error .errInvalidParam
  else
   let src := if srcaddr = 0 then dummy else srcaddr
   let dst := if dstaddr = 0 then dummy else dstaddr
   if src = 0 ∨ dst = 0 then .error .errMallocFail
   else .ok (fillLoop cntlr chan length alignedMax lliNum addr (srcaddr = 0) (dstaddr = 0)
    lliNum 0 src dst)

def LliChannel.requested (chan : LliChannel w) (msg : DmacMsg w) : LliChannel w :=
 { chan with info := { chan.info with transType := msg.transType } }

/-- The part of `DmacPeriphTransfer` that builds the list. -/
def dmacPeriphTransfer (cntlr : CheckedCntlr w) (chan : LliChannel w) (memory : LliMemory w)
  (msg : DmacMsg w) : Except DmacStatus (List (DmacLli w)) :=
 let chan := chan.requested msg
 if msg.srcAddr = 0 ∧ msg.destAddr = 0 then .error .errInvalidParam
 else
  let alloc := Dmac.dmacAllocLli chan.info msg.transLen
   (dmacAlignedTransMax cntlr.maxTransSize chan.info.srcWidth chan.info.destWidth)
   memory.list.isSome
  if alloc.1 ≠ .success then .error alloc.1
  else
   dmacFillLli cntlr chan (memory.list.bind fun addr => alloc.2.lli.map (addr, ·)) memory.dummy
    msg.srcAddr msg.destAddr msg.transLen

/-- What `dmaM2mChanEnable` returns, and whether the wait ends with the chunk done. -/
structure M2mRound where
 enable : DmacStatus
 done : Bool
 deriving DecidableEq

structure M2mChunk (w : ℕ) where
 src : BitVec w
 dest : BitVec w
 length : ℕ
 deriving DecidableEq

/-- The loop of `DmacM2mTransfer` with the chunks that it hands to the driver. -/
def m2mLoop (cntlr : CheckedCntlr w) (msg : DmacMsg w) (rounds : ℕ → M2mRound)
  (dmaCount leftSize : ℕ) : DmacStatus × List (M2mChunk w) :=
 if leftSize = 0 then (.success, [])
 else
  let dmaSize := if leftSize ≥ cntlr.maxTransSize then cntlr.maxTransSize else leftSize
  let offset := BitVec.ofNat w (dmaCount * cntlr.maxTransSize)
  let chunk := ⟨msg.srcAddr + offset, msg.destAddr + offset, dmaSize⟩
  if (rounds dmaCount).enable ≠ .success then ((rounds dmaCount).enable, [chunk])
  else if (rounds dmaCount).done = false then (.failure, [chunk])
  else
   let rest := m2mLoop cntlr msg rounds (dmaCount + 1) (leftSize - dmaSize)
   (rest.1, chunk :: rest.2)
termination_by leftSize
decreasing_by
  have checked := cntlr.checked
  split <;> omega

def dmacM2mTransfer (cntlr : CheckedCntlr w) (msg : DmacMsg w) (rounds : ℕ → M2mRound) :
  DmacStatus × List (M2mChunk w) :=
 m2mLoop cntlr msg rounds 0 msg.transLen

def trail (moves : Prop) [Decidable moves] (start : BitVec w) : List ℕ → List (BitVec w × ℕ)
 | [] => []
 | count :: rest =>
  (start, count) :: trail moves (start + BitVec.ofNat w (if moves then count else 0)) rest

theorem trail_moves {moves : Prop} [Decidable moves] (yes : moves) (start : BitVec w)
  (counts : List ℕ) : trail moves start counts = pieces start counts := by
 induction counts generalizing start with
 | nil => rfl
 | cons count rest ih =>
  unfold trail
  rw [if_pos yes, ih]
  rfl

theorem trail_stays {moves : Prop} [Decidable moves] (no : ¬ moves) (start : BitVec w)
  (counts : List ℕ) : ∀ entry ∈ trail moves start counts, entry.1 = start := by
 induction counts with
 | nil =>
  intro entry member
  cases member
 | cons count rest ih =>
  have same : start + BitVec.ofNat w 0 = start := BitVec.add_zero start
  intro entry member
  unfold trail at member
  rw [if_neg no, same] at member
  rcases List.mem_cons.mp member with rfl | later
  · rfl
  · exact ih entry later

section Filled
variable (cntlr : CheckedCntlr w) (chan : LliChannel w) (length alignedMax lliNum : ℕ)
  (lli : BitVec w) (srcDummy dstDummy : Bool)

theorem map_count (rounds i : ℕ) (src dst : BitVec w) :
  (fillLoop cntlr chan length alignedMax lliNum lli srcDummy dstDummy rounds i src dst).map
    DmacLli.count =
   (List.range' i rounds).map fun i =>
    if i < lliNum - 1 ∨ length % alignedMax = 0 then alignedMax else length % alignedMax := by
 induction rounds generalizing i src dst with
 | zero => rfl
 | succ rounds ih =>
  rw [List.range'_succ, List.map_cons, ← ih]
  rfl

theorem map_nextLli (rounds i : ℕ) (src dst : BitVec w) :
  (fillLoop cntlr chan length alignedMax lliNum lli srcDummy dstDummy rounds i src dst).map
    DmacLli.nextLli =
   (List.range' i rounds).map fun i =>
    if i < lliNum - 1 then
     cntlr.dmacVaddrToPaddr (entryAt lli i) + BitVec.ofNat w dmacLliSize + chan.lliEnFlag
    else 0 := by
 induction rounds generalizing i src dst with
 | zero => rfl
 | succ rounds ih =>
  rw [List.range'_succ, List.map_cons, ← ih]
  rfl

theorem map_srcAddr (rounds i : ℕ) (src dst : BitVec w) :
  (fillLoop cntlr chan length alignedMax lliNum lli srcDummy dstDummy rounds i src dst).map
    (fun entry => (entry.srcAddr, entry.count)) =
   trail (chan.info.transType = .m2p ∧ srcDummy = false) src ((fillLoop cntlr chan length
    alignedMax lliNum lli srcDummy dstDummy rounds i src dst).map DmacLli.count) := by
 induction rounds generalizing i src dst with
 | zero => rfl
 | succ rounds ih => exact congrArg (_ :: ·) (ih _ _ _)

theorem map_destAddr (rounds i : ℕ) (src dst : BitVec w) :
  (fillLoop cntlr chan length alignedMax lliNum lli srcDummy dstDummy rounds i src dst).map
    (fun entry => (entry.destAddr, entry.count)) =
   trail (chan.info.transType = .p2m ∧ dstDummy = false) dst ((fillLoop cntlr chan length
    alignedMax lliNum lli srcDummy dstDummy rounds i src dst).map DmacLli.count) := by
 induction rounds generalizing i src dst with
 | zero => rfl
 | succ rounds ih => exact congrArg (_ :: ·) (ih _ _ _)

end Filled

def maxCount (cntlr : CheckedCntlr w) (chan : LliChannel w) : ℕ :=
 dmacAlignedTransMax cntlr.maxTransSize chan.info.srcWidth chan.info.destWidth

structure Addressed (moves : Prop) (addr dummy : BitVec w) (length max : ℕ)
  (entries : List (BitVec w × ℕ)) : Prop where
 moved : moves → addr ≠ 0 → Cuts addr length max entries
 stayed : ¬ moves ∨ addr = 0 → ∀ entry ∈ entries, entry.1 = if addr = 0 then dummy else addr

/-- A list at `lli` that makes up a transfer. -/
structure ChainRight (cntlr : CheckedCntlr w) (chan : LliChannel w) (lli dummy : BitVec w)
  (msg : DmacMsg w) (chain : List (DmacLli w)) : Prop where
 total : (chain.map DmacLli.count).sum = msg.transLen
 bounded : ∀ entry ∈ chain, 0 < entry.count ∧ entry.count ≤ maxCount cntlr chan
 src : Addressed (msg.transType = .m2p) msg.srcAddr dummy msg.transLen (maxCount cntlr chan)
  (chain.map fun entry => (entry.srcAddr, entry.count))
 dest : Addressed (msg.transType = .p2m) msg.destAddr dummy msg.transLen (maxCount cntlr chan)
  (chain.map fun entry => (entry.destAddr, entry.count))
 /-- Entries that are one behind the other in physical memory are linked. -/
 linked : ∀ i, i + 1 < chain.length →
  cntlr.dmacVaddrToPaddr (entryAt lli (i + 1)) =
    cntlr.dmacVaddrToPaddr (entryAt lli i) + BitVec.ofNat w dmacLliSize →
   (chain.map DmacLli.nextLli)[i]? =
    some (cntlr.dmacVaddrToPaddr (entryAt lli (i + 1)) + chan.lliEnFlag)
 ends : ∀ entry ∈ chain.getLast?, entry.nextLli = 0

/-- When a list can be built. -/
structure Buildable (cntlr : CheckedCntlr w) (chan : LliChannel w) (memory : LliMemory w)
  (msg : DmacMsg w) : Prop where
 addressed : msg.srcAddr ≠ 0 ∨ msg.destAddr ≠ 0
 aligned : maxCount cntlr chan ≠ 0
 short : (sizes msg.transLen (maxCount cntlr chan)).length ≤ lliNumMax
 list : memory.list.isSome = true
 dummy : msg.srcAddr = 0 ∨ msg.destAddr = 0 → memory.dummy ≠ 0

/-- What `DmacFillLli` writes for a transfer whose list has the length that `DmacAllocLli` gave it. -/
def wholeList (cntlr : CheckedCntlr w) (chan : LliChannel w) (lli dummy : BitVec w)
  (msg : DmacMsg w) : List (DmacLli w) :=
 let lliNum := (sizes msg.transLen (maxCount cntlr chan)).length
 fillLoop cntlr chan msg.transLen (maxCount cntlr chan) lliNum lli (msg.srcAddr = 0)
  (msg.destAddr = 0) lliNum 0 (if msg.srcAddr = 0 then dummy else msg.srcAddr)
  (if msg.destAddr = 0 then dummy else msg.destAddr)

theorem trail_addressed (moves : Prop) [Decidable moves] (addr dummy : BitVec w) (length : ℕ)
  {max : ℕ} (pos : 0 < max) :
  Addressed moves addr dummy length max
   (trail (moves ∧ decide (addr = 0) = false) (if addr = 0 then dummy else addr)
    (sizes length max)) where
 moved yes nonzero := by
  rw [trail_moves ⟨yes, by simpa using nonzero⟩, if_neg nonzero]
  exact cuts_pieces addr length pos
 stayed stays := by
  apply trail_stays
  rintro ⟨yes, nonzero⟩
  rcases stays with no | zero
  · exact no yes
  · exact of_decide_eq_false nonzero zero

section Whole
variable (cntlr : CheckedCntlr w) (chan : LliChannel w) (lli dummy : BitVec w) (msg : DmacMsg w)

theorem wholeList_count : (wholeList cntlr chan lli dummy msg).map DmacLli.count =
   sizes msg.transLen (maxCount cntlr chan) := by
 unfold wholeList
 rw [map_count, ← List.range_eq_range', ← sizes_eq_map]

theorem wholeList_length : (wholeList cntlr chan lli dummy msg).length =
  (sizes msg.transLen (maxCount cntlr chan)).length := by
 rw [← wholeList_count cntlr chan lli dummy msg, List.length_map]

theorem wholeList_nextLli : (wholeList cntlr chan lli dummy msg).map DmacLli.nextLli =
   (List.range (wholeList cntlr chan lli dummy msg).length).map fun i =>
    if i < (wholeList cntlr chan lli dummy msg).length - 1 then
     cntlr.dmacVaddrToPaddr (entryAt lli i) + BitVec.ofNat w dmacLliSize + chan.lliEnFlag
    else 0 := by
 rw [wholeList_length]
 unfold wholeList
 rw [map_nextLli, ← List.range_eq_range']

theorem wholeList_srcAddr (type : chan.info.transType = msg.transType) :
  (wholeList cntlr chan lli dummy msg).map (fun entry => (entry.srcAddr, entry.count)) =
   trail (msg.transType = .m2p ∧ decide (msg.srcAddr = 0) = false)
    (if msg.srcAddr = 0 then dummy else msg.srcAddr)
    (sizes msg.transLen (maxCount cntlr chan)) := by
 rw [← wholeList_count cntlr chan lli dummy msg, ← type]
 exact map_srcAddr ..

theorem wholeList_destAddr (type : chan.info.transType = msg.transType) :
  (wholeList cntlr chan lli dummy msg).map (fun entry => (entry.destAddr, entry.count)) =
   trail (msg.transType = .p2m ∧ decide (msg.destAddr = 0) = false)
    (if msg.destAddr = 0 then dummy else msg.destAddr)
    (sizes msg.transLen (maxCount cntlr chan)) := by
 rw [← wholeList_count cntlr chan lli dummy msg, ← type]
 exact map_destAddr ..

theorem wholeList_right (type : chan.info.transType = msg.transType)
  (aligned : maxCount cntlr chan ≠ 0) :
  ChainRight cntlr chan lli dummy msg (wholeList cntlr chan lli dummy msg) := by
 have pos : 0 < maxCount cntlr chan := Nat.pos_of_ne_zero aligned
 have counts := wholeList_count cntlr chan lli dummy msg
 have next := wholeList_nextLli cntlr chan lli dummy msg
 constructor
 case total => rw [counts, sum_sizes]
 case bounded =>
  intro entry member
  have listed := List.mem_map_of_mem (f := DmacLli.count) member
  rw [counts] at listed
  exact mem_sizes pos listed
 case src =>
  rw [wholeList_srcAddr cntlr chan lli dummy msg type]
  exact trail_addressed _ msg.srcAddr dummy msg.transLen pos
 case dest =>
  rw [wholeList_destAddr cntlr chan lli dummy msg type]
  exact trail_addressed _ msg.destAddr dummy msg.transLen pos
 case linked =>
  intro i inside behind
  rw [next, List.getElem?_map, List.getElem?_range (by omega), Option.map_some,
   if_pos (by omega), behind]
 case ends =>
  intro entry last
  have mapped : ((wholeList cntlr chan lli dummy msg).map DmacLli.nextLli).getLast? =
    some entry.nextLli := by
   rw [List.getLast?_map, Option.mem_def.mp last]
   rfl
  have nonempty : (wholeList cntlr chan lli dummy msg).length ≠ 0 := by
   intro empty
   rw [List.length_eq_zero_iff.mp empty] at last
   cases last
  rw [next, List.getLast?_map, List.getLast?_range, if_neg nonempty, Option.map_some,
   if_neg (Nat.lt_irrefl _)] at mapped
  exact (Option.some.inj mapped).symm

end Whole

section Built
variable (cntlr : CheckedCntlr w) (chan : LliChannel w) (memory : LliMemory w) (msg : DmacMsg w)

theorem dmacAllocLli_eq (info : DmacChanInfo) (length max : ℕ) (memory : Bool) :
  Dmac.dmacAllocLli info length max memory =
   if max = 0 ∨ lliNumMax < (sizes length max).length then (.errInvalidParam, info)
   else if memory = false then (.failure, info)
   else (.success, { info with lli := some (sizes length max).length }) := by
 unfold Dmac.dmacAllocLli
 rw [length_sizes]
 by_cases zero : max = 0
 · rw [if_pos zero, if_pos (Or.inl zero)]
 · rw [if_neg zero]
   dsimp only
   by_cases long : lliNumMax < length / max + if length % max > 0 then 1 else 0
   · rw [if_pos long, if_pos (Or.inr long)]
   · rw [if_neg long, if_neg (not_or.mpr ⟨zero, long⟩)]

theorem dmacFillLli_eq (lli : BitVec w) (aligned : maxCount cntlr chan ≠ 0) :
  dmacFillLli cntlr (chan.requested msg)
    (some (lli, (sizes msg.transLen (maxCount cntlr chan)).length)) memory.dummy msg.srcAddr
    msg.destAddr msg.transLen =
   if (if msg.srcAddr = 0 then memory.dummy else msg.srcAddr) = 0 ∨
     (if msg.destAddr = 0 then memory.dummy else msg.destAddr) = 0 then .error .errMallocFail
   else .ok (wholeList cntlr (chan.requested msg) lli memory.dummy msg) := by
 change (if maxCount cntlr chan = 0 then _ else _) = _
 rw [if_neg aligned]
 rfl

theorem dmacPeriphTransfer_ok_iff (chain : List (DmacLli w)) :
  dmacPeriphTransfer cntlr chan memory msg = .ok chain ↔
   Buildable cntlr chan memory msg ∧ ∃ lli ∈ memory.list,
    chain = wholeList cntlr (chan.requested msg) lli memory.dummy msg := by
 have alloc := dmacAllocLli_eq (chan.requested msg).info msg.transLen (maxCount cntlr chan)
  memory.list.isSome
 have run : dmacPeriphTransfer cntlr chan memory msg =
   if msg.srcAddr = 0 ∧ msg.destAddr = 0 then .error .errInvalidParam
   else if (Dmac.dmacAllocLli (chan.requested msg).info msg.transLen (maxCount cntlr chan)
    memory.list.isSome).1 ≠ .success then .error (Dmac.dmacAllocLli (chan.requested msg).info
     msg.transLen (maxCount cntlr chan) memory.list.isSome).1
   else dmacFillLli cntlr (chan.requested msg) (memory.list.bind fun addr =>
    (Dmac.dmacAllocLli (chan.requested msg).info msg.transLen (maxCount cntlr chan)
     memory.list.isSome).2.lli.map (addr, ·)) memory.dummy msg.srcAddr msg.destAddr
     msg.transLen := rfl
 by_cases addressed : msg.srcAddr = 0 ∧ msg.destAddr = 0
 · rw [run, if_pos addressed]
   exact iff_of_false (by simp) fun built => not_and_or.mpr built.1.addressed addressed
 rw [run, if_neg addressed, alloc]
 by_cases room : maxCount cntlr chan = 0 ∨
   lliNumMax < (sizes msg.transLen (maxCount cntlr chan)).length
 · rw [if_pos room, if_pos (by simp)]
   exact iff_of_false (by simp) fun built =>
    not_or.mpr ⟨built.1.aligned, Nat.not_lt.mpr built.1.short⟩ room
 rw [if_neg room]
 obtain ⟨aligned, short⟩ := not_or.mp room
 cases list : memory.list with
 | none =>
  rw [Option.isSome_none, if_pos rfl, if_pos (by simp)]
  apply iff_of_false (by simp)
  rintro ⟨-, lli, there, -⟩
  cases there
 | some lli =>
  rw [Option.isSome_some, if_neg (by simp), if_neg (by simp), Option.bind_some, Option.map_some,
   dmacFillLli_eq cntlr chan memory msg lli aligned]
  by_cases buffers : (if msg.srcAddr = 0 then memory.dummy else msg.srcAddr) = 0 ∨
    (if msg.destAddr = 0 then memory.dummy else msg.destAddr) = 0
  · rw [if_pos buffers]
    apply iff_of_false (by simp)
    rintro ⟨can, -⟩
    have dummy := can.dummy
    by_cases src : msg.srcAddr = 0 <;> by_cases dest : msg.destAddr = 0 <;> simp_all
  rw [if_neg buffers]
  have can : Buildable cntlr chan memory msg := by
   refine ⟨not_and_or.mp addressed, aligned, Nat.not_lt.mp short, by rw [list]; rfl, ?_⟩
   rintro (src | dest) zero
   · exact buffers (Or.inl (by rw [if_pos src, zero]))
   · exact buffers (Or.inr (by rw [if_pos dest, zero]))
  constructor
  · intro done
    exact ⟨can, lli, rfl, (Except.ok.inj done).symm⟩
  · rintro ⟨-, other, same, rfl⟩
    cases same
    rfl

end Built

section Chunks
variable (cntlr : CheckedCntlr w) (msg : DmacMsg w) (rounds : ℕ → M2mRound)

def chunkSize (leftSize : ℕ) : ℕ :=
 if leftSize ≥ cntlr.maxTransSize then cntlr.maxTransSize else leftSize

def chunkAt (dmaCount leftSize : ℕ) : M2mChunk w :=
 ⟨msg.srcAddr + BitVec.ofNat w (dmaCount * cntlr.maxTransSize),
  msg.destAddr + BitVec.ofNat w (dmaCount * cntlr.maxTransSize), chunkSize cntlr leftSize⟩

theorem m2mLoop_zero (dmaCount : ℕ) : m2mLoop cntlr msg rounds dmaCount 0 = (.success, []) := by
 rw [m2mLoop, if_pos rfl]

theorem m2mLoop_pos (dmaCount : ℕ) {leftSize : ℕ} (more : leftSize ≠ 0) :
  m2mLoop cntlr msg rounds dmaCount leftSize =
   if (rounds dmaCount).enable ≠ .success then
    ((rounds dmaCount).enable, [chunkAt cntlr msg dmaCount leftSize])
   else if (rounds dmaCount).done = false then
    (.failure, [chunkAt cntlr msg dmaCount leftSize])
   else
    ((m2mLoop cntlr msg rounds (dmaCount + 1) (leftSize - chunkSize cntlr leftSize)).1,
     chunkAt cntlr msg dmaCount leftSize ::
      (m2mLoop cntlr msg rounds (dmaCount + 1) (leftSize - chunkSize cntlr leftSize)).2) := by
 rw [m2mLoop, if_neg more]
 rfl

theorem chunkSize_pos {leftSize : ℕ} (more : leftSize ≠ 0) : 0 < chunkSize cntlr leftSize := by
 have checked := cntlr.checked
 unfold chunkSize
 split <;> omega

def noFailure : ℕ → M2mRound := fun _ => ⟨.success, true⟩

theorem m2mLoop_prefix (dmaCount leftSize : ℕ) :
  (m2mLoop cntlr msg rounds dmaCount leftSize).2 <+:
    (m2mLoop cntlr msg noFailure dmaCount leftSize).2 ∧
   ((m2mLoop cntlr msg rounds dmaCount leftSize).1 = .success →
    (m2mLoop cntlr msg rounds dmaCount leftSize).2 =
     (m2mLoop cntlr msg noFailure dmaCount leftSize).2) ∧
   ((∀ k, (rounds k).enable = .success ∧ (rounds k).done = true) →
    (m2mLoop cntlr msg rounds dmaCount leftSize).1 = .success) := by
 induction leftSize using Nat.strong_induction_on generalizing dmaCount with
 | _ leftSize ih =>
  by_cases finished : leftSize = 0
  · subst finished
    rw [m2mLoop_zero, m2mLoop_zero]
    exact ⟨List.prefix_refl _, fun _ => rfl, fun _ => rfl⟩
  have pos := chunkSize_pos cntlr finished
  have less : leftSize - chunkSize cntlr leftSize < leftSize := by omega
  obtain ⟨front, all, works⟩ := ih _ less (dmaCount + 1)
  have whole := m2mLoop_pos cntlr msg noFailure dmaCount finished
  rw [if_neg (by simp [noFailure]), if_neg (by simp [noFailure])] at whole
  rw [whole, m2mLoop_pos cntlr msg rounds dmaCount finished]
  have starts : ∀ rest : List (M2mChunk w), [chunkAt cntlr msg dmaCount leftSize] <+:
    chunkAt cntlr msg dmaCount leftSize :: rest := fun rest => ⟨rest, rfl⟩
  by_cases enable : (rounds dmaCount).enable = .success
  case neg =>
   rw [if_pos enable]
   exact ⟨starts _, fun success => absurd success enable,
    fun fine => absurd (fine dmaCount).1 enable⟩
  rw [if_neg (not_not_intro enable)]
  by_cases done : (rounds dmaCount).done = true
  case neg =>
   rw [if_pos (by simpa using done)]
   exact ⟨starts _, fun success => (by cases success), fun fine => absurd (fine dmaCount).2 done⟩
  rw [if_neg (by simp [done])]
  exact ⟨List.cons_prefix_cons.mpr ⟨rfl, front⟩, fun success => congrArg (_ :: ·) (all success),
   works⟩

theorem m2mLoop_pieces (dmaCount leftSize : ℕ) :
  (m2mLoop cntlr msg noFailure dmaCount leftSize).2.map (fun chunk => (chunk.src, chunk.length)) =
    pieces (msg.srcAddr + BitVec.ofNat w (dmaCount * cntlr.maxTransSize))
     (sizes leftSize cntlr.maxTransSize) ∧
   (m2mLoop cntlr msg noFailure dmaCount leftSize).2.map
     (fun chunk => (chunk.dest, chunk.length)) =
    pieces (msg.destAddr + BitVec.ofNat w (dmaCount * cntlr.maxTransSize))
     (sizes leftSize cntlr.maxTransSize) := by
 have checked : 0 < cntlr.maxTransSize := Nat.pos_of_ne_zero cntlr.checked
 induction leftSize using Nat.strong_induction_on generalizing dmaCount with
 | _ leftSize ih =>
  by_cases finished : leftSize = 0
  · subst finished
    rw [m2mLoop_zero, sizes_zero]
    exact ⟨rfl, rfl⟩
  have pos := chunkSize_pos cntlr finished
  have less : leftSize - chunkSize cntlr leftSize < leftSize := by omega
  obtain ⟨src, dest⟩ := ih _ less (dmaCount + 1)
  rw [m2mLoop_pos cntlr msg noFailure dmaCount finished, if_neg (by simp [noFailure]),
   if_neg (by simp [noFailure]), List.map_cons, List.map_cons, src, dest]
  by_cases full : cntlr.maxTransSize ≤ leftSize
  · have size : chunkSize cntlr leftSize = cntlr.maxTransSize := if_pos full
    rw [size, sizes_of_le checked full, Nat.succ_mul, BitVec.ofNat_add, ← BitVec.add_assoc,
     ← BitVec.add_assoc]
    unfold chunkAt
    rw [size]
    exact ⟨rfl, rfl⟩
  have size : chunkSize cntlr leftSize = leftSize := if_neg full
  rw [size, Nat.sub_self, sizes_zero,
   sizes_of_lt (Nat.pos_of_ne_zero finished) (Nat.not_le.mp full)]
  unfold chunkAt
  rw [size]
  exact ⟨rfl, rfl⟩

end Chunks

/-- The chunks handed to the driver, where `all` of them make up the transfer. -/
structure ChunksRight (cntlr : CheckedCntlr w) (msg : DmacMsg w) (rounds : ℕ → M2mRound)
  (all : List (M2mChunk w)) : Prop where
 src : Cuts msg.srcAddr msg.transLen cntlr.maxTransSize
  (all.map fun chunk => (chunk.src, chunk.length))
 dest : Cuts msg.destAddr msg.transLen cntlr.maxTransSize
  (all.map fun chunk => (chunk.dest, chunk.length))
 front : (dmacM2mTransfer cntlr msg rounds).2 <+: all
 complete : (dmacM2mTransfer cntlr msg rounds).1 = .success →
  (dmacM2mTransfer cntlr msg rounds).2 = all
 works : (∀ k, (rounds k).enable = .success ∧ (rounds k).done = true) →
  (dmacM2mTransfer cntlr msg rounds).1 = .success

theorem dmacM2mTransfer_right (cntlr : CheckedCntlr w) (msg : DmacMsg w) (rounds : ℕ → M2mRound) :
  ∃ all, ChunksRight cntlr msg rounds all := by
 have checked : 0 < cntlr.maxTransSize := Nat.pos_of_ne_zero cntlr.checked
 obtain ⟨src, dest⟩ := m2mLoop_pieces cntlr msg 0 msg.transLen
 obtain ⟨front, complete, works⟩ := m2mLoop_prefix cntlr msg rounds 0 msg.transLen
 have start : ∀ addr : BitVec w, addr + BitVec.ofNat w (0 * cntlr.maxTransSize) = addr := by
  intro addr
  rw [Nat.zero_mul]
  exact BitVec.add_zero addr
 rw [start] at src dest
 exact ⟨_, by rw [src]; exact cuts_pieces _ _ checked, by rw [dest]; exact cuts_pieces _ _ checked,
  front, complete, works⟩

/-- A transfer by a list or in chunks covers what was asked for, exactly. -/
theorem dma_transfer_right (cntlr : CheckedCntlr w) (chan : LliChannel w) (memory : LliMemory w)
    (msg : DmacMsg w) (rounds : ℕ → M2mRound) :
    ((∃ chain, dmacPeriphTransfer cntlr chan memory msg = .ok chain) ↔
        Buildable cntlr chan memory msg) ∧
      (∀ chain, dmacPeriphTransfer cntlr chan memory msg = .ok chain →
        ∃ lli ∈ memory.list, ChainRight cntlr chan lli memory.dummy msg chain) ∧
      ∃ all, ChunksRight cntlr msg rounds all := by
  refine ⟨⟨?_, ?_⟩, ?_, dmacM2mTransfer_right cntlr msg rounds⟩
  · rintro ⟨chain, built⟩
    exact ((dmacPeriphTransfer_ok_iff cntlr chan memory msg chain).mp built).1
  · intro can
    obtain ⟨lli, list⟩ := Option.isSome_iff_exists.mp can.list
    exact ⟨_, (dmacPeriphTransfer_ok_iff cntlr chan memory msg _).mpr ⟨can, lli, list, rfl⟩⟩
  · intro chain built
    obtain ⟨can, lli, list, rfl⟩ := (dmacPeriphTransfer_ok_iff cntlr chan memory msg chain).mp built
    have whole := wholeList_right cntlr (chan.requested msg) lli memory.dummy msg rfl can.aligned
    exact ⟨lli, list, whole.total, whole.bounded, whole.src, whole.dest, whole.linked, whole.ends⟩

/-- Pieces of 256 bytes, and entries in physical memory as in virtual memory. -/
def cntlr256 : CheckedCntlr 32 := ⟨256, id, by decide⟩

def wordChannel : LliChannel 32 := ⟨⟨0, none, .allocat, .p2m, 4, 4, false, false, none⟩, 0, 1⟩

theorem dma_transfer_right_thousand :
    ∃ chain, dmacPeriphTransfer cntlr256 wordChannel ⟨some 0x1000, 0⟩ ⟨0x40, 0x8000, .p2m, 1000⟩ =
        .ok chain ∧
      ∃ lli ∈ some (0x1000 : BitVec 32),
        ChainRight cntlr256 wordChannel lli 0 ⟨0x40, 0x8000, .p2m, 1000⟩ chain := by
  have right := dma_transfer_right cntlr256 wordChannel ⟨some 0x1000, 0⟩
    ⟨0x40, 0x8000, .p2m, 1000⟩ noFailure
  obtain ⟨chain, built⟩ := right.1.mpr
    ⟨by decide, by decide, by decide, rfl, fun zero => absurd zero (by decide)⟩
  exact ⟨chain, built, right.2.1 chain built⟩

end DriversFramework.DmacLists
