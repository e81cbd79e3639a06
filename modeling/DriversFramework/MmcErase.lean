import DriversFramework.MmcTransfer
import DriversFramework.Multiples
import Mathlib.Data.Set.Basic

namespace DriversFramework.MmcRequest

open Multiples

def mmcMaxEraseSector : ℕ := 0x100000

def sdCmdEraseWrBlkStart : UInt32 := 32
def sdCmdEraseWrBlkEnd : UInt32 := 33
def eraseGroupStart : UInt32 := 35
def eraseGroupEnd : UInt32 := 36
def mmcErase : UInt32 := 38

/-- What erasing reads of a card. `eraseSize` is only ever set to a number of 32 bits, and each
address on the card has 32 bits, in bytes or in sectors. -/
structure EraseDevice where
 sd : Bool
 blockAddr : Bool
 eraseSize : UInt32
 cccErase : Bool
 capacity : ℕ
 addressable : capacity < if blockAddr then 2 ^ 32 else 2 ^ 23

structure CardCmd where
 cmdCode : UInt32
 argument : UInt32

structure EraseOutcome where
 start : ℤ
 stop : ℤ
 erase : ℤ
 ready : ℤ

def EraseDevice.argument (dev : EraseDevice) (arg : UInt32) : UInt32 :=
 if dev.blockAddr then arg else arg <<< mmcMaxBlocksizeShift

def mmcSendEraseStartCmd (dev : EraseDevice) (arg : UInt32) : CardCmd :=
 ⟨if dev.sd then sdCmdEraseWrBlkStart else eraseGroupStart, dev.argument arg⟩

def mmcSendEraseEndCmd (dev : EraseDevice) (arg : UInt32) : CardCmd :=
 ⟨if dev.sd then sdCmdEraseWrBlkEnd else eraseGroupEnd, dev.argument arg⟩

def mmcSendEraseCmd : CardCmd := ⟨mmcErase, 0⟩

def alignSize (eraseSize start curSize : UInt32) : Option (UInt32 × UInt32) :=
 let curSize := curSize - curSize % eraseSize
 if curSize = 0 then none else some (start, start + curSize)

def mmcAlignEraseSize (eraseSize start size : UInt32) : Option (UInt32 × UInt32) :=
 if eraseSize = 0 then none
 else
  let tmp := start % eraseSize
  if 0 < tmp then
   let tmp := eraseSize - tmp
   if tmp < size then alignSize eraseSize (start + tmp) (size - tmp) else none
  else alignSize eraseSize start size

def mmcSendErase (dev : EraseDevice) (outcome : EraseOutcome) (startSec nSec : UInt32) :
  ℤ × List CardCmd :=
 if dev.eraseSize = 0 ∨ dev.cccErase = false then (hdfErrNotSupport, [])
 else
  match mmcAlignEraseSize dev.eraseSize startSec nSec with
  | none => (hdfSuccess, [])
  | some (start, stop) =>
   let first := mmcSendEraseStartCmd dev start
   let last := mmcSendEraseEndCmd dev stop
   if outcome.start ≠ hdfSuccess then (outcome.start, [first])
   else if outcome.stop ≠ hdfSuccess then (outcome.stop, [first, last])
   else if outcome.erase ≠ hdfSuccess then (outcome.erase, [first, last, mmcSendEraseCmd])
   else (outcome.ready, [first, last, mmcSendEraseCmd])

/-- The result, and the commands the card was given, from the `i`-th chunk on. -/
def eraseLoop (dev : EraseDevice) (outcomes : ℕ → EraseOutcome) (curSec : ℕ) (curStartSec : UInt64)
  (i : ℕ) : ℤ × List CardCmd :=
 let eraseSec := if mmcMaxEraseSector < curSec then mmcMaxEraseSector else curSec
 let chunk := mmcSendErase dev (outcomes i) curStartSec.toUInt32 (UInt32.ofNat eraseSec)
 if chunk.1 ≠ hdfSuccess then chunk
 else if 0 < curSec - eraseSec then
  let rest := eraseLoop dev outcomes (curSec - eraseSec) (curStartSec + UInt64.ofNat eraseSec)
   (i + 1)
  (rest.1, chunk.2 ++ rest.2)
 else (hdfSuccess, chunk.2)
termination_by curSec
decreasing_by
  have there : 0 < curSec := by omega
  split_ifs
  · exact Nat.sub_lt there (by decide)
  · omega

def mmcDeviceErase (dev : EraseDevice) (outcomes : ℕ → EraseOutcome) (startSec nSec : UInt64) :
  ℤ × List CardCmd :=
 eraseLoop dev outcomes nSec.toNat startSec 0

def EraseDevice.sector (dev : EraseDevice) (argument : UInt32) : ℕ :=
 if dev.blockAddr then argument.toNat else argument.toNat / bytesPerBlock

def erasedSectors (dev : EraseDevice) : ℕ → ℕ → List CardCmd → Set ℕ
 | _, _, [] => ∅
 | start, stop, cmd :: cmds =>
  if cmd.cmdCode = sdCmdEraseWrBlkStart ∨ cmd.cmdCode = eraseGroupStart then
   erasedSectors dev (dev.sector cmd.argument) stop cmds
  else if cmd.cmdCode = sdCmdEraseWrBlkEnd ∨ cmd.cmdCode = eraseGroupEnd then
   erasedSectors dev start (dev.sector cmd.argument) cmds
  else {x | start ≤ x ∧ x ≤ stop} ∪ erasedSectors dev start stop cmds

/-- Erasing a range of the card erases no sector outside of it and, if it succeeds, each group that
lies in it. -/
def EraseRight (dev : EraseDevice) (startSec nSec : UInt64) : Prop :=
 startSec.toNat + nSec.toNat ≤ dev.capacity → ∀ outcomes start stop,
  let result := mmcDeviceErase dev outcomes startSec nSec
  (∀ x ∈ erasedSectors dev start stop result.2,
   startSec.toNat ≤ x ∧ x < startSec.toNat + nSec.toNat) ∧
  (result.1 = hdfSuccess → ∀ group, startSec.toNat ≤ group * dev.eraseSize.toNat →
   (group + 1) * dev.eraseSize.toNat ≤ startSec.toNat + nSec.toNat →
    ∀ x, group * dev.eraseSize.toNat ≤ x → x < (group + 1) * dev.eraseSize.toNat →
     x ∈ erasedSectors dev start stop result.2)

/-- The range ends with a whole group that lies in the last chunk. -/
def EndsWithGroup (size start count : ℕ) : Prop :=
 0 < count ∧ size ∣ start + count ∧ size ≤ (count - 1) % mmcMaxEraseSector + 1

/-- A group that lies in the range lies in two chunks. -/
def CutsGroup (size start count : ℕ) : Prop :=
 ∃ i, 0 < i ∧ mmcMaxEraseSector * i < count ∧ ¬size ∣ start + mmcMaxEraseSector * i ∧
  start ≤ down size (start + mmcMaxEraseSector * i) ∧
  up size (start + mmcMaxEraseSector * i) ≤ start + count

section chunk
variable {dev : EraseDevice} {size start count : UInt32}

theorem EraseDevice.capacity_lt (dev : EraseDevice) : dev.capacity < 2 ^ 32 := by
 have := dev.addressable
 split at this <;> omega

theorem erase_supported (pos : 0 < dev.eraseSize.toNat) (class_ : dev.cccErase = true) :
  ¬(dev.eraseSize = 0 ∨ dev.cccErase = false) := by
 rintro (zero | none)
 · rw [zero] at pos
   exact absurd pos (by decide)
 · rw [class_] at none
   cases none

theorem alignSize_eq (aligned : size.toNat ∣ start.toNat) :
  alignSize size start count =
   if start.toNat < down size.toNat (start.toNat + count.toNat) then
    some (start, UInt32.ofNat (down size.toNat (start.toNat + count.toNat)))
   else none := by
 have part := Nat.mod_le count.toNat size.toNat
 have whole : down size.toNat (start.toNat + count.toNat) =
   start.toNat + (count.toNat - count.toNat % size.toNat) := by
  obtain ⟨q, hq⟩ := aligned
  rw [down, hq, Nat.mul_add_mod]
  omega
 have cut : (count - count % size).toNat = count.toNat - count.toNat % size.toNat := by
  rw [UInt32.toNat_sub_of_le _ _ (by rw [UInt32.le_iff_toNat_le, UInt32.toNat_mod]; exact part),
   UInt32.toNat_mod]
 rw [alignSize, whole]
 by_cases none : count - count % size = 0
 · have zero : count.toNat - count.toNat % size.toNat = 0 := by
    rw [← cut, none]
    rfl
   rw [if_pos none, zero, if_neg (by omega)]
 have some_ : count.toNat - count.toNat % size.toNat ≠ 0 := by
  rw [← cut]
  exact fun h => none (UInt32.toNat_inj.mp h)
 rw [if_neg none, if_pos (by omega)]
 congr 2
 rw [← UInt32.toNat_inj, UInt32.toNat_add, cut, UInt32.toNat_ofNat']

theorem alignEraseSize_eq (pos : 0 < size.toNat) (fits : start.toNat + count.toNat < 2 ^ 32) :
  mmcAlignEraseSize size start count =
   if up size.toNat start.toNat < down size.toNat (start.toNat + count.toNat) then
    some (UInt32.ofNat (up size.toNat start.toNat),
     UInt32.ofNat (down size.toNat (start.toNat + count.toNat)))
   else none := by
 have rest := Nat.mod_lt start.toNat pos
 have there : size ≠ 0 := by
  rintro rfl
  exact absurd pos (by decide)
 rw [mmcAlignEraseSize, if_neg there]
 dsimp only
 by_cases aligned : start.toNat % size.toNat = 0
 · have zero : ¬0 < start % size := by
    rw [UInt32.lt_iff_toNat_lt, UInt32.toNat_mod, aligned]
    decide
   rw [if_neg zero, alignSize_eq (Nat.dvd_of_mod_eq_zero aligned), up, if_pos aligned,
    UInt32.ofNat_toNat]
 have more : 0 < start % size := by
  rw [UInt32.lt_iff_toNat_lt, UInt32.toNat_mod]
  exact Nat.pos_of_ne_zero aligned
 have gap : (size - start % size).toNat = size.toNat - start.toNat % size.toNat := by
  rw [UInt32.toNat_sub_of_le _ _ (by
   rw [UInt32.le_iff_toNat_le, UInt32.toNat_mod]
   exact Nat.le_of_lt rest), UInt32.toNat_mod]
 have next : up size.toNat start.toNat =
   start.toNat + (size.toNat - start.toNat % size.toNat) := if_neg aligned
 rw [if_pos more]
 by_cases reaches : size - start % size < count
 · have inside := UInt32.lt_iff_toNat_lt.mp reaches
   rw [gap] at inside
   have moved : (start + (size - start % size)).toNat = up size.toNat start.toNat := by
    rw [UInt32.toNat_add, gap, next]
    omega
   have left : (count - (size - start % size)).toNat =
     count.toNat - (size.toNat - start.toNat % size.toNat) := by
    rw [UInt32.toNat_sub_of_le _ _ (UInt32.le_of_lt reaches), gap]
   have same : (start + (size - start % size)).toNat + (count - (size - start % size)).toNat =
     start.toNat + count.toNat := by
    rw [moved, left, next]
    omega
   rw [if_pos reaches, alignSize_eq (by rw [moved]; exact dvd_up pos), same, ← moved,
    UInt32.ofNat_toNat]
 · have short : ¬(size - start % size).toNat < count.toNat :=
    fun h => reaches (UInt32.lt_iff_toNat_lt.mpr h)
   rw [gap] at short
   have below : down size.toNat (start.toNat + count.toNat) ≤ start.toNat + count.toNat :=
    down_le
   rw [if_neg reaches, if_neg (by omega)]

theorem sector_argument {sector : ℕ} (inside : sector ≤ dev.capacity) :
  dev.sector (dev.argument (UInt32.ofNat sector)) = sector := by
 have fits := dev.addressable
 rw [EraseDevice.sector, EraseDevice.argument]
 cases addressed : dev.blockAddr
 · have shifted : (UInt32.ofNat sector <<< mmcMaxBlocksizeShift).toNat =
     sector % 2 ^ 32 * 2 ^ 9 % 2 ^ 32 := by
    rw [UInt32.toNat_shiftLeft, UInt32.toNat_ofNat', Nat.shiftLeft_eq]
    rfl
   rw [addressed, if_neg Bool.false_ne_true] at fits
   rw [if_neg Bool.false_ne_true, if_neg Bool.false_ne_true, shifted, bytesPerBlock]
   omega
 · rw [addressed, if_pos rfl] at fits
   rw [if_pos rfl, if_pos rfl, UInt32.toNat_ofNat']
   omega

theorem erased_start (sector start stop : ℕ) (inside : sector ≤ dev.capacity)
  (cmds : List CardCmd) :
  erasedSectors dev start stop (mmcSendEraseStartCmd dev (UInt32.ofNat sector) :: cmds) =
   erasedSectors dev sector stop cmds := by
 have code : (mmcSendEraseStartCmd dev (UInt32.ofNat sector)).cmdCode = sdCmdEraseWrBlkStart ∨
   (mmcSendEraseStartCmd dev (UInt32.ofNat sector)).cmdCode = eraseGroupStart := by
  rw [mmcSendEraseStartCmd]
  cases dev.sd
  · exact .inr rfl
  · exact .inl rfl
 rw [erasedSectors, if_pos code]
 exact congrArg (fun s => erasedSectors dev s stop cmds) (sector_argument inside)

theorem erased_stop (sector start stop : ℕ) (inside : sector ≤ dev.capacity)
  (cmds : List CardCmd) :
  erasedSectors dev start stop (mmcSendEraseEndCmd dev (UInt32.ofNat sector) :: cmds) =
   erasedSectors dev start sector cmds := by
 have codes : ¬((mmcSendEraseEndCmd dev (UInt32.ofNat sector)).cmdCode = sdCmdEraseWrBlkStart ∨
    (mmcSendEraseEndCmd dev (UInt32.ofNat sector)).cmdCode = eraseGroupStart) ∧
   ((mmcSendEraseEndCmd dev (UInt32.ofNat sector)).cmdCode = sdCmdEraseWrBlkEnd ∨
    (mmcSendEraseEndCmd dev (UInt32.ofNat sector)).cmdCode = eraseGroupEnd) := by
  rw [mmcSendEraseEndCmd]
  cases dev.sd
  · exact ⟨by simp only [Bool.false_eq_true, if_false]; decide, .inr rfl⟩
  · exact ⟨by simp only [if_true]; decide, .inl rfl⟩
 rw [erasedSectors, if_neg codes.1, if_pos codes.2]
 exact congrArg (fun s => erasedSectors dev start s cmds) (sector_argument inside)

theorem erased_erase (start stop : ℕ) (cmds : List CardCmd) :
  erasedSectors dev start stop (mmcSendEraseCmd :: cmds) =
   {x | start ≤ x ∧ x ≤ stop} ∪ erasedSectors dev start stop cmds := by
 rw [erasedSectors, if_neg (by decide), if_neg (by decide)]

/-- The sectors that a chunk from `first` to `last` erases: from its first group up to the sector
behind its last one. -/
def InChunk (size first last x : ℕ) : Prop :=
 up size first < down size last ∧ up size first ≤ x ∧ x ≤ down size last

theorem sendErase_erased (pos : 0 < dev.eraseSize.toNat) (class_ : dev.cccErase = true)
  (outcome : EraseOutcome) {first count : ℕ} (inside : first + count ≤ dev.capacity)
  (start stop : ℕ) :
  (∀ x ∈ erasedSectors dev start stop
    (mmcSendErase dev outcome (UInt32.ofNat first) (UInt32.ofNat count)).2,
   InChunk dev.eraseSize.toNat first (first + count) x) ∧
  ((mmcSendErase dev outcome (UInt32.ofNat first) (UInt32.ofNat count)).1 = hdfSuccess →
   ∃ start' stop', ∀ cmds, erasedSectors dev start stop
    ((mmcSendErase dev outcome (UInt32.ofNat first) (UInt32.ofNat count)).2 ++ cmds) =
     {x | InChunk dev.eraseSize.toNat first (first + count) x} ∪
      erasedSectors dev start' stop' cmds) := by
 have fits := dev.capacity_lt
 have firstNat : (UInt32.ofNat first).toNat = first := by
  rw [UInt32.toNat_ofNat']
  omega
 have countNat : (UInt32.ofNat count).toNat = count := by
  rw [UInt32.toNat_ofNat']
  omega
 have aligned : mmcAlignEraseSize dev.eraseSize (UInt32.ofNat first) (UInt32.ofNat count) = _ :=
  alignEraseSize_eq pos (by rw [firstNat, countNat]; omega)
 rw [firstNat, countNat] at aligned
 rw [mmcSendErase, if_neg (erase_supported pos class_), aligned]
 by_cases groups : up dev.eraseSize.toNat first < down dev.eraseSize.toNat (first + count)
 · have lastInside : down dev.eraseSize.toNat (first + count) ≤ dev.capacity :=
    Nat.le_trans down_le inside
   have firstInside : up dev.eraseSize.toNat first ≤ dev.capacity :=
    Nat.le_trans (Nat.le_of_lt groups) lastInside
   have both (cmds : List CardCmd) :
     {x | InChunk dev.eraseSize.toNat first (first + count) x} ∪ erasedSectors dev
       (up dev.eraseSize.toNat first) (down dev.eraseSize.toNat (first + count)) cmds =
      erasedSectors dev start stop
       ([mmcSendEraseStartCmd dev (UInt32.ofNat (up dev.eraseSize.toNat first)),
        mmcSendEraseEndCmd dev (UInt32.ofNat (down dev.eraseSize.toNat (first + count))),
        mmcSendEraseCmd] ++ cmds) := by
    simp only [List.cons_append, List.nil_append]
    rw [erased_start _ _ _ firstInside, erased_stop _ _ _ lastInside, erased_erase]
    simp [InChunk, groups]
   have alone : erasedSectors dev start stop
     [mmcSendEraseStartCmd dev (UInt32.ofNat (up dev.eraseSize.toNat first)),
      mmcSendEraseEndCmd dev (UInt32.ofNat (down dev.eraseSize.toNat (first + count))),
      mmcSendEraseCmd] = {x | InChunk dev.eraseSize.toNat first (first + count) x} := by
    have := both []
    rw [List.append_nil] at this
    rw [← this, erasedSectors, Set.union_empty]
   rw [if_pos groups]
   dsimp only
   split_ifs with startFails stopFails eraseFails
   · refine ⟨fun x member => ?_, fun ok => absurd ok startFails⟩
     rw [erased_start _ _ _ firstInside] at member
     exact absurd member (Set.notMem_empty x)
   · refine ⟨fun x member => ?_, fun ok => absurd ok stopFails⟩
     rw [erased_start _ _ _ firstInside, erased_stop _ _ _ lastInside] at member
     exact absurd member (Set.notMem_empty x)
   · refine ⟨fun x member => ?_, fun ok => absurd ok eraseFails⟩
     rw [alone] at member
     exact member
   · refine ⟨fun x member => ?_, fun _ => ⟨_, _, fun cmds => (both cmds).symm⟩⟩
     rw [alone] at member
     exact member
 · rw [if_neg groups]
   have nothing : {x | InChunk dev.eraseSize.toNat first (first + count) x} = ∅ := by
    simp [InChunk, groups]
   refine ⟨fun x member => absurd member (Set.notMem_empty x), fun _ =>
    ⟨start, stop, fun cmds => ?_⟩⟩
   rw [nothing, Set.empty_union]
   rfl

end chunk

def Erases (size start count x : ℕ) : Prop :=
 ∃ i, mmcMaxEraseSector * i < count ∧ InChunk size (start + mmcMaxEraseSector * i)
  (min (start + mmcMaxEraseSector * i + mmcMaxEraseSector) (start + count)) x

section range
variable {size start count x : ℕ}

theorem erases_last (pos : 0 < size) (last : count ≤ mmcMaxEraseSector) :
  Erases size start count x ↔ InChunk size start (start + count) x := by
 constructor
 · rintro ⟨i, inside, chunk⟩
   obtain rfl : i = 0 := by
    rw [mmcMaxEraseSector] at *
    omega
   rw [Nat.mul_zero, Nat.add_zero, Nat.min_eq_right (by omega)] at chunk
   exact chunk
 · intro chunk
   have some_ : 0 < count := by
    have low : start ≤ up size start := le_up pos
    have high : down size (start + count) ≤ start + count := down_le
    have := chunk.1
    omega
   refine ⟨0, by omega, ?_⟩
   rw [Nat.mul_zero, Nat.add_zero, Nat.min_eq_right (by omega)]
   exact chunk

theorem erases_more (more : mmcMaxEraseSector < count) :
  Erases size start count x ↔ InChunk size start (start + mmcMaxEraseSector) x ∨
   Erases size (start + mmcMaxEraseSector) (count - mmcMaxEraseSector) x := by
 have place (i : ℕ) : start + mmcMaxEraseSector * (i + 1) =
   start + mmcMaxEraseSector + mmcMaxEraseSector * i := by
  rw [Nat.mul_add_one]
  omega
 have stop : start + mmcMaxEraseSector + (count - mmcMaxEraseSector) = start + count := by omega
 constructor
 · rintro ⟨i, inside, chunk⟩
   cases i with
   | zero =>
    rw [Nat.mul_zero, Nat.add_zero, Nat.min_eq_left (by omega)] at chunk
    exact .inl chunk
   | succ i =>
    rw [place] at chunk
    rw [Nat.mul_add_one] at inside
    exact .inr ⟨i, by omega, by rw [stop]; exact chunk⟩
 · rintro (chunk | ⟨i, inside, chunk⟩)
   · refine ⟨0, by omega, ?_⟩
     rw [Nat.mul_zero, Nat.add_zero, Nat.min_eq_left (by omega)]
     exact chunk
   · refine ⟨i + 1, by rw [Nat.mul_add_one]; omega, ?_⟩
     rw [place, ← stop]
     exact chunk

theorem Erases.inside (pos : 0 < size) (erases : Erases size start count x) :
  start ≤ x ∧ x ≤ start + count := by
 obtain ⟨i, -, -, low, high⟩ := erases
 have first : start + mmcMaxEraseSector * i ≤ up size (start + mmcMaxEraseSector * i) := le_up pos
 have last := Nat.le_trans high down_le
 have stop := Nat.min_le_right (start + mmcMaxEraseSector * i + mmcMaxEraseSector) (start + count)
 omega

theorem erases_end_iff (pos : 0 < size) :
  Erases size start count (start + count) ↔ EndsWithGroup size start count := by
 have chunk : 0 < mmcMaxEraseSector := by decide
 constructor
 · rintro ⟨i, inside, some_, -, high⟩
   have last := Nat.le_trans high down_le
   have stop : min (start + mmcMaxEraseSector * i + mmcMaxEraseSector) (start + count) =
     start + count := Nat.le_antisymm (Nat.min_le_right _ _) last
   rw [stop] at some_ high
   have whole : down size (start + count) = start + count := Nat.le_antisymm down_le high
   have multiple : size ∣ start + count := by
    rw [← whole]
    exact dvd_down
   have first : start + mmcMaxEraseSector * i ≤ up size (start + mmcMaxEraseSector * i) :=
    le_up pos
   have group : up size (start + mmcMaxEraseSector * i) + size ≤ start + count := by
    by_contra short
    have := Nat.le_of_lt_add_of_dvd (Nat.lt_of_not_le short) multiple (dvd_up pos)
    omega
   have quotient : (count - 1) / mmcMaxEraseSector = i := by
    rw [Nat.div_eq_iff chunk, Nat.mul_comm]
    omega
   have parts := Nat.div_add_mod (count - 1) mmcMaxEraseSector
   rw [quotient] at parts
   exact ⟨by omega, multiple, by omega⟩
 · rintro ⟨some_, multiple, group⟩
   have parts := Nat.div_add_mod (count - 1) mmcMaxEraseSector
   have rest := Nat.mod_lt (count - 1) chunk
   generalize (count - 1) / mmcMaxEraseSector = i at parts
   refine ⟨i, by omega, ?_⟩
   rw [Nat.min_eq_right (by omega), InChunk, down_of_dvd multiple]
   have before : up size (start + mmcMaxEraseSector * i) ≤ start + count - size :=
    (up_le_iff pos (Nat.dvd_sub multiple (Nat.dvd_refl size))).mpr (by omega)
   omega

theorem not_erases_of_cut (count : ℕ) (pos : 0 < size) {i : ℕ}
  (between : ¬size ∣ start + mmcMaxEraseSector * i) :
  ¬Erases size start count (down size (start + mmcMaxEraseSector * i) + size - 1) := by
 have two : 1 < size := by
  by_contra one
  obtain rfl : size = 1 := by omega
  exact between (Nat.one_dvd _)
 have next := up_eq_down_add pos between
 have beyond : start + mmcMaxEraseSector * i < up size (start + mmcMaxEraseSector * i) := by
  refine Nat.lt_of_le_of_ne (le_up pos) fun same => between ?_
  rw [same]
  exact dvd_up pos
 rintro ⟨j, -, -, low, high⟩
 have group : up size (start + mmcMaxEraseSector * i) ≤ down size
   (min (start + mmcMaxEraseSector * j + mmcMaxEraseSector) (start + count)) :=
  Nat.le_of_lt_add_of_dvd (by omega) (dvd_up pos) dvd_down
 have last := Nat.lt_of_lt_of_le (Nat.lt_of_lt_of_le beyond group) down_le
 have early := Nat.lt_of_lt_of_le last (Nat.min_le_left _ _)
 have order : i ≤ j := by
  by_contra later
  have steps : mmcMaxEraseSector * (j + 1) ≤ mmcMaxEraseSector * i :=
   Nat.mul_le_mul_left _ (by omega)
  rw [Nat.mul_add_one] at steps
  omega
 have first : start + mmcMaxEraseSector * i ≤ up size (start + mmcMaxEraseSector * j) :=
  Nat.le_trans (Nat.add_le_add_left (Nat.mul_le_mul_left _ order) _) (le_up pos)
 have := (up_le_iff pos (dvd_up pos)).mpr first
 omega

theorem erases_of_uncut (pos : 0 < size) (uncut : ¬CutsGroup size start count) {group : ℕ}
  (multiple : size ∣ group) (low : start ≤ group) (high : group + size ≤ start + count)
  (behind : group ≤ x) (before : x < group + size) : Erases size start count x := by
 have parts := Nat.div_add_mod (group - start) mmcMaxEraseSector
 have rest := Nat.mod_lt (group - start) (show 0 < mmcMaxEraseSector by decide)
 generalize (group - start) / mmcMaxEraseSector = i at parts
 have next : size ∣ group + size := Nat.dvd_add multiple (Nat.dvd_refl size)
 have whole : group + size ≤ start + mmcMaxEraseSector * i + mmcMaxEraseSector := by
  by_contra cut
  have place : start + mmcMaxEraseSector * (i + 1) =
    start + mmcMaxEraseSector * i + mmcMaxEraseSector := by
   rw [Nat.mul_add_one, Nat.add_assoc]
  have begins : group ≤ down size (start + mmcMaxEraseSector * (i + 1)) :=
   (le_down_iff pos multiple).mpr (by omega)
  have ends : up size (start + mmcMaxEraseSector * (i + 1)) ≤ group + size :=
   (up_le_iff pos next).mpr (by omega)
  refine uncut ⟨i + 1, by omega, by omega, fun boundary => ?_, by omega, by omega⟩
  rw [down_of_dvd boundary] at begins
  have := Nat.le_of_lt_add_of_dvd (by omega) boundary multiple
  omega
 have first : up size (start + mmcMaxEraseSector * i) ≤ group :=
  (up_le_iff pos multiple).mpr (by omega)
 have last : group + size ≤ down size
   (min (start + mmcMaxEraseSector * i + mmcMaxEraseSector) (start + count)) :=
  (le_down_iff pos next).mpr (Nat.le_min.mpr ⟨whole, high⟩)
 exact ⟨i, by omega, by omega, by omega, by omega⟩

end range

theorem UInt64.toUInt32_eq (n : UInt64) : n.toUInt32 = UInt32.ofNat n.toNat := by
 rw [← UInt32.toNat_inj, UInt64.toNat_toUInt32, UInt32.toNat_ofNat']

section loop
variable {dev : EraseDevice} {outcomes : ℕ → EraseOutcome}

theorem eraseLoop_more {count : ℕ} (more : mmcMaxEraseSector < count) (startSec : UInt64) (i : ℕ) :
  eraseLoop dev outcomes count startSec i =
   let chunk := mmcSendErase dev (outcomes i) (UInt32.ofNat startSec.toNat)
    (UInt32.ofNat mmcMaxEraseSector)
   if chunk.1 ≠ hdfSuccess then chunk
   else
    let rest := eraseLoop dev outcomes (count - mmcMaxEraseSector)
     (startSec + UInt64.ofNat mmcMaxEraseSector) (i + 1)
    (rest.1, chunk.2 ++ rest.2) := by
 rw [eraseLoop, if_pos more, if_pos (Nat.sub_pos_of_lt more), UInt64.toUInt32_eq]

theorem eraseLoop_next (outcomes : ℕ → EraseOutcome) {count : ℕ} (more : mmcMaxEraseSector < count)
  (startSec : UInt64) (i : ℕ) (ok : (mmcSendErase dev (outcomes i) (UInt32.ofNat startSec.toNat)
   (UInt32.ofNat mmcMaxEraseSector)).1 = hdfSuccess) :
  ∃ rest, eraseLoop dev outcomes (count - mmcMaxEraseSector)
    (startSec + UInt64.ofNat mmcMaxEraseSector) (i + 1) = rest ∧
   eraseLoop dev outcomes count startSec i =
    (rest.1, (mmcSendErase dev (outcomes i) (UInt32.ofNat startSec.toNat)
     (UInt32.ofNat mmcMaxEraseSector)).2 ++ rest.2) := by
 refine ⟨_, rfl, ?_⟩
 rw [eraseLoop_more more]
 exact if_neg (not_not.mpr ok)

theorem eraseLoop_last {count : ℕ} (last : count ≤ mmcMaxEraseSector) (startSec : UInt64) (i : ℕ) :
  eraseLoop dev outcomes count startSec i =
   mmcSendErase dev (outcomes i) (UInt32.ofNat startSec.toNat) (UInt32.ofNat count) := by
 rw [eraseLoop, if_neg (Nat.not_lt.mpr last), Nat.sub_self, if_neg (Nat.lt_irrefl 0),
  UInt64.toUInt32_eq]
 split_ifs with fails
 · rfl
 · rw [← not_not.mp fails]

theorem eraseLoop_erased (pos : 0 < dev.eraseSize.toNat) (class_ : dev.cccErase = true)
  (outcomes : ℕ → EraseOutcome) {count : ℕ} (startSec : UInt64)
  (inside : startSec.toNat + count ≤ dev.capacity) (i start stop : ℕ) :
  (∀ x ∈ erasedSectors dev start stop (eraseLoop dev outcomes count startSec i).2,
   Erases dev.eraseSize.toNat startSec.toNat count x) ∧
  ((eraseLoop dev outcomes count startSec i).1 = hdfSuccess →
   ∀ x, Erases dev.eraseSize.toNat startSec.toNat count x →
    x ∈ erasedSectors dev start stop (eraseLoop dev outcomes count startSec i).2) := by
 induction count using Nat.strong_induction_on generalizing startSec i start stop with
 | _ count ih =>
 rcases Nat.lt_or_ge mmcMaxEraseSector count with more | last
 · have within : startSec.toNat + mmcMaxEraseSector ≤ dev.capacity := by omega
   obtain ⟨only, then_⟩ := sendErase_erased pos class_ (outcomes i) within start stop
   have fits := dev.capacity_lt
   have next : (startSec + UInt64.ofNat mmcMaxEraseSector).toNat =
     startSec.toNat + mmcMaxEraseSector := by
    have short : mmcMaxEraseSector < 2 ^ 64 := by decide
    rw [UInt64.toNat_add, UInt64.toNat_ofNat']
    omega
   have smaller : count - mmcMaxEraseSector < count := Nat.sub_lt (by omega) (by decide)
   by_cases ok : (mmcSendErase dev (outcomes i) (UInt32.ofNat startSec.toNat)
     (UInt32.ofNat mmcMaxEraseSector)).1 = hdfSuccess
   · obtain ⟨⟨ret, cmds⟩, rest, whole⟩ := eraseLoop_next outcomes more startSec i ok
     obtain ⟨start', stop', erased⟩ := then_ ok
     obtain ⟨sound, complete⟩ := ih _ smaller (startSec + UInt64.ofNat mmcMaxEraseSector)
      (by rw [next]; omega) (i + 1) start' stop'
     rw [next, rest] at sound complete
     rw [whole]
     dsimp only at sound complete ⊢
     rw [erased]
     refine ⟨?_, fun ok x erases => ?_⟩
     · rintro x (here | later)
       · exact (erases_more more).mpr (.inl here)
       · exact (erases_more more).mpr (.inr (sound x later))
     · rcases (erases_more more).mp erases with here | later
       · exact .inl here
       · exact .inr (complete ok x later)
   · have failed : eraseLoop dev outcomes count startSec i = mmcSendErase dev (outcomes i)
       (UInt32.ofNat startSec.toNat) (UInt32.ofNat mmcMaxEraseSector) := by
      rw [eraseLoop_more more]
      exact if_pos ok
     rw [failed]
     exact ⟨fun x member => (erases_more more).mpr (.inl (only x member)),
      fun ok' => absurd ok' ok⟩
 · rw [eraseLoop_last last]
   obtain ⟨only, then_⟩ := sendErase_erased pos class_ (outcomes i) inside start stop
   refine ⟨fun x member => (erases_last pos last).mpr (only x member), fun ok x erases => ?_⟩
   obtain ⟨start', stop', erased⟩ := then_ ok
   have alone := erased []
   rw [List.append_nil, erasedSectors, Set.union_empty] at alone
   rw [alone]
   exact (erases_last pos last).mp erases

theorem sendErase_success (pos : 0 < dev.eraseSize.toNat) (class_ : dev.cccErase = true)
  (startSec nSec : UInt32) : (mmcSendErase dev ⟨0, 0, 0, 0⟩ startSec nSec).1 = hdfSuccess := by
 rw [mmcSendErase, if_neg (erase_supported pos class_)]
 cases mmcAlignEraseSize dev.eraseSize startSec nSec <;> rfl

theorem eraseLoop_success (pos : 0 < dev.eraseSize.toNat) (class_ : dev.cccErase = true)
  (count : ℕ) (startSec : UInt64) (i : ℕ) :
  (eraseLoop dev (fun _ => ⟨0, 0, 0, 0⟩) count startSec i).1 = hdfSuccess := by
 induction count using Nat.strong_induction_on generalizing startSec i with
 | _ count ih =>
 rcases Nat.lt_or_ge mmcMaxEraseSector count with more | last
 · have smaller : count - mmcMaxEraseSector < count := Nat.sub_lt (by omega) (by decide)
   have later := ih _ smaller (startSec + UInt64.ofNat mmcMaxEraseSector) (i + 1)
   obtain ⟨⟨ret, cmds⟩, rest, whole⟩ :=
    eraseLoop_next (fun _ => ⟨0, 0, 0, 0⟩) more startSec i (sendErase_success pos class_ _ _)
   rw [rest] at later
   rw [whole]
   exact later
 · rw [eraseLoop_last last]
   exact sendErase_success pos class_ _ _

theorem deviceErase_unsupported (unsupported : dev.eraseSize = 0 ∨ dev.cccErase = false)
  (outcomes : ℕ → EraseOutcome) (startSec nSec : UInt64) :
  mmcDeviceErase dev outcomes startSec nSec = (hdfErrNotSupport, []) := by
 have refused (first count : UInt32) :
   mmcSendErase dev (outcomes 0) first count = (hdfErrNotSupport, []) := if_pos unsupported
 rw [mmcDeviceErase, eraseLoop]
 dsimp only
 rw [refused, if_pos (by decide)]

end loop

theorem eraseRight_iff (dev : EraseDevice) (startSec nSec : UInt64) :
    EraseRight dev startSec nSec ↔
      (startSec.toNat + nSec.toNat ≤ dev.capacity →
        (dev.eraseSize = 0 ∨ dev.cccErase = false) ∨
        (¬EndsWithGroup dev.eraseSize.toNat startSec.toNat nSec.toNat ∧
          ¬CutsGroup dev.eraseSize.toNat startSec.toNat nSec.toNat)) := by
  refine forall_congr' fun inside => ?_
  by_cases unsupported : dev.eraseSize = 0 ∨ dev.cccErase = false
  · refine iff_of_true (fun outcomes start stop => ?_) (.inl unsupported)
    have refused := deviceErase_unsupported unsupported outcomes startSec nSec
    dsimp only
    rw [refused]
    exact ⟨fun x member => absurd member (Set.notMem_empty x), fun ok => absurd ok (by decide)⟩
  obtain ⟨some_, class_⟩ := not_or.mp unsupported
  have class_ : dev.cccErase = true := by simpa using class_
  have pos : 0 < dev.eraseSize.toNat :=
    Nat.pos_of_ne_zero fun zero => some_ (UInt32.toNat_inj.mp zero)
  constructor
  · intro right
    have ok := eraseLoop_success pos class_ nSec.toNat startSec 0
    obtain ⟨only, all⟩ := eraseLoop_erased pos class_ (fun _ => ⟨0, 0, 0, 0⟩) startSec inside
      0 0 0
    obtain ⟨sound, complete⟩ := right (fun _ => ⟨0, 0, 0, 0⟩) 0 0
    refine .inr ⟨fun ends => ?_, ?_⟩
    · have beyond := sound _ (all ok _ ((erases_end_iff pos).mpr ends))
      omega
    · rintro ⟨i, -, -, between, low, high⟩
      have uncovered := not_erases_of_cut nSec.toNat pos between
      rw [up_eq_down_add pos between] at high
      obtain ⟨group, multiple⟩ : dev.eraseSize.toNat ∣
        down dev.eraseSize.toNat (startSec.toNat + mmcMaxEraseSector * i) := dvd_down
      rw [multiple, Nat.mul_comm] at uncovered low high
      exact uncovered (only _ (complete ok group low (by rw [Nat.add_one_mul]; exact high) _
        (by omega) (by rw [Nat.add_one_mul]; omega)))
  · rintro (never | ⟨noEnd, uncut⟩) outcomes start stop
    · exact absurd never unsupported
    · obtain ⟨sound, complete⟩ := eraseLoop_erased pos class_ outcomes startSec inside
        0 start stop
      refine ⟨fun x member => ?_, fun ok group low high x first last => ?_⟩
      · obtain ⟨low, high⟩ := (sound x member).inside pos
        have other : x ≠ startSec.toNat + nSec.toNat := by
          rintro rfl
          exact noEnd ((erases_end_iff pos).mp (sound _ member))
        omega
      · rw [Nat.add_one_mul] at high last
        exact complete ok x
          (erases_of_uncut pos uncut (Nat.dvd_mul_left _ _) low high first last)

/-- Four sectors that are one group, and the first sector behind them. -/
theorem not_eraseRight : ¬∀ dev startSec nSec, EraseRight dev startSec nSec := by
  intro right
  let dev : EraseDevice := ⟨false, true, 4, true, 100, by decide⟩
  have pos : 0 < dev.eraseSize.toNat := by decide
  have inside : (0 : UInt64).toNat + 4 ≤ dev.capacity := by decide
  have ok : (eraseLoop dev _ 4 0 0).1 = hdfSuccess := eraseLoop_success pos rfl 4 0 0
  have chunk : Erases 4 0 4 4 := ⟨0, by decide, by decide, by decide, by decide⟩
  have erased := (eraseLoop_erased pos rfl (fun _ => ⟨0, 0, 0, 0⟩) 0 inside 0 0 0).2 ok 4 chunk
  have bound := ((right dev 0 4 (by decide) (fun _ => ⟨0, 0, 0, 0⟩) 0 0).1 4 erased).2
  exact absurd bound (by decide)

end DriversFramework.MmcRequest
