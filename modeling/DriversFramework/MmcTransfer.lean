import DriversFramework.MmcRequest
import Mathlib.Algebra.BigOperators.Group.List.Basic
import Mathlib.Algebra.GroupWithZero.Nat

namespace DriversFramework.MmcRequest

def bytesPerBlock : ℕ := 512
def mmcMaxBlocksizeShift : UInt32 := 9

def stopTransmission : UInt32 := 12
def readSingleBlock : UInt32 := 17
def readMultipleBlock : UInt32 := 18
def writeBlock : UInt32 := 24
def writeMultipleBlock : UInt32 := 25

def dataWrite : UInt32 := 1
def dataRead : UInt32 := 2

structure MmcData where
 blockSize : UInt32 := 0
 blockNum : UInt32 := 0
 dataBuffer : ℕ := 0
 dataFlags : UInt32 := 0
 stopCmdCode : UInt32 := 0
 sendStopCmd : Bool := false

structure MmcCmd where
 cmdCode : UInt32 := 0
 argument : UInt32 := 0
 data : MmcData := {}

structure MmcRwData where
 buf : ℕ
 writeFlag : Bool
 startSector : UInt64
 sectors : ℕ

/-- What a transfer reads of the device and of its controller -/
structure MmcDevice where
 blockAddr : Bool
 cmdStop : Bool

def mmcSetupReadWriteBlocksCmd (mmc : MmcDevice) (cmd : MmcCmd) (info : MmcRwData) : MmcCmd :=
  let argument := info.startSector.toUInt32
  let stop := 1 < info.sectors ∧ mmc.cmdStop = true
  { cmdCode :=
      if info.writeFlag then if 1 < info.sectors then writeMultipleBlock else writeBlock
      else if 1 < info.sectors then readMultipleBlock else readSingleBlock
    argument := if mmc.blockAddr then argument else argument <<< mmcMaxBlocksizeShift
    data :=
      { blockSize := UInt32.ofNat bytesPerBlock
        blockNum := UInt32.ofNat info.sectors
        dataBuffer := info.buf
        dataFlags := if info.writeFlag then dataWrite else dataRead
        stopCmdCode := if stop then stopTransmission else cmd.data.stopCmdCode
        sendStopCmd := if stop then true else cmd.data.sendStopCmd } }

def mmcDeviceFillRwInfo (buf : ℕ) (writeFlag : Bool) (startSec : UInt64) (nSec : ℕ) : MmcRwData where
 buf := buf
 writeFlag := writeFlag
 startSector := startSec
 sectors := nSec

def chunkSectors (curSec : ℕ) : ℕ := if mmcMaxSectorNum ≤ curSec then mmcMaxSectorNum else curSec

/-- The commands that are tried in the loop, from the `i`-th chunk on; `cmd` is the command of the
queue as the chunks before left it. -/
def transferRequests (mmc : MmcDevice) (writeFlag : Bool) (chunks : ℕ → Chunk) (curSec : ℕ)
  (curStartSec : UInt64) (buf : ℕ) (cmd : MmcCmd) (i : ℕ) : List MmcCmd :=
 let sectors := chunkSectors curSec
 let info := mmcDeviceFillRwInfo buf writeFlag curStartSec sectors
 let sent := mmcSetupReadWriteBlocksCmd mmc (if (chunks i).detecting then {} else cmd) info
 let result := transferChunk (chunks i)
 (if result.2.isSome then [sent] else []) ++
  if result.1 ≠ hdfSuccess then []
  else if 0 < curSec - sectors then
   transferRequests mmc writeFlag chunks (curSec - sectors)
    (curStartSec + UInt64.ofNat sectors) (buf + sectors * bytesPerBlock)
    (if (chunks i).detecting then cmd else sent) (i + 1)
  else []
termination_by curSec
decreasing_by
  have hl : 0 < curSec := by omega
  have pos : 0 < chunkSectors curSec := by
    rw [chunkSectors]
    split_ifs
    · decide
    · exact hl
  omega

def mmcDeviceReadRequests (mmc : MmcDevice) (chunks : ℕ → Chunk) (buf : ℕ)
  (startSec nSec : UInt64) : List MmcCmd :=
 transferRequests mmc false chunks nSec.toNat startSec buf {} 0

def mmcDeviceWriteRequests (mmc : MmcDevice) (chunks : ℕ → Chunk) (buf : ℕ)
  (startSec nSec : UInt64) : List MmcCmd :=
 transferRequests mmc true chunks nSec.toNat startSec buf {} 0

def MmcCmd.sectors (cmd : MmcCmd) : ℕ := cmd.data.blockNum.toNat

/-- A command that moves its sectors, from `first` on, into or out of the buffer at `buf`. -/
structure RequestRight (mmc : MmcDevice) (writeFlag : Bool) (first buf : ℕ) (cmd : MmcCmd) :
  Prop where
 argument : cmd.argument.toNat = if mmc.blockAddr then first else first * bytesPerBlock
 dataBuffer : cmd.data.dataBuffer = buf
 blockSize : cmd.data.blockSize.toNat = bytesPerBlock
 dataFlags : cmd.data.dataFlags = if writeFlag then dataWrite else dataRead
 size : 1 ≤ cmd.sectors ∧ cmd.sectors ≤ mmcMaxSectorNum
 cmdCode : cmd.cmdCode =
  if 1 < cmd.sectors then (if writeFlag then writeMultipleBlock else readMultipleBlock)
  else (if writeFlag then writeBlock else readSingleBlock)
 sendStopCmd : cmd.data.sendStopCmd = true ↔ 1 < cmd.sectors ∧ mmc.cmdStop = true
 stopCmdCode : cmd.data.sendStopCmd = true → cmd.data.stopCmdCode = stopTransmission

def Tiles (mmc : MmcDevice) (writeFlag : Bool) : ℕ → ℕ → List MmcCmd → Prop
 | _, _, [] => True
 | first, buf, cmd :: cmds => RequestRight mmc writeFlag first buf cmd ∧
   Tiles mmc writeFlag (first + cmd.sectors) (buf + cmd.sectors * bytesPerBlock) cmds

/-- The requests tile the sectors from the first one on: all of them, if no chunk fails. -/
structure TransferRight (mmc : MmcDevice) (writeFlag : Bool) (chunks : ℕ → Chunk)
  (buf startSec nSec : ℕ) (requests : List MmcCmd) : Prop where
 tiles : Tiles mmc writeFlag startSec buf requests
 inside : (requests.map MmcCmd.sectors).sum ≤ nSec
 whole : (∀ k < chunkCount nSec, (transferChunk (chunks k)).1 = hdfSuccess) →
  (requests.map MmcCmd.sectors).sum = nSec

def MmcDevice.addressable (mmc : MmcDevice) : ℕ := if mmc.blockAddr then 2 ^ 32 else 2 ^ 23

def Issued (chunks : ℕ → Chunk) (curSec i k : ℕ) : Prop :=
 k < chunkCount curSec ∧ (∀ j < k, (transferChunk (chunks (i + j))).1 = hdfSuccess) ∧
  (transferChunk (chunks (i + k))).2.isSome = true

/-- Chunk `k` is a single sector that goes through the queue behind a chunk that asked for a stop
command (`stopped` if one did before these chunks). -/
def StopLeft (mmc : MmcDevice) (chunks : ℕ → Chunk) (curSec i : ℕ) (stopped : Prop) (k : ℕ) :
  Prop :=
 curSec - mmcMaxSectorNum * k = 1 ∧ (chunks (i + k)).detecting = false ∧
  (stopped ∨ mmc.cmdStop = true ∧ ∃ j < k, (chunks (i + j)).detecting = false)

section loop
variable {mmc : MmcDevice} {writeFlag : Bool} {chunks : ℕ → Chunk} {buf i : ℕ} {cmd : MmcCmd}
  {c : Chunk}

variable (curSec : ℕ) (start : UInt64)

theorem chunkSectors_le : chunkSectors curSec ≤ curSec := by
 rw [chunkSectors]
 split <;> omega

theorem chunkSectors_pos {curSec : ℕ} (pos : 0 < curSec) : 0 < chunkSectors curSec := by
 rw [chunkSectors]
 split
 · decide
 · exact pos

theorem chunkSectors_max : chunkSectors curSec ≤ mmcMaxSectorNum := by
 rw [chunkSectors]
 split <;> omega

theorem ofNat_chunkSectors : (UInt32.ofNat (chunkSectors curSec)).toNat = chunkSectors curSec := by
 have few := chunkSectors_max curSec
 rw [mmcMaxSectorNum] at few
 rw [UInt32.toNat_ofNat']
 omega

theorem argument_right_iff (mmc : MmcDevice) (start : UInt64) :
  (if mmc.blockAddr then start.toUInt32 else start.toUInt32 <<< mmcMaxBlocksizeShift).toNat =
    (if mmc.blockAddr then start.toNat else start.toNat * bytesPerBlock) ↔
   start.toNat < mmc.addressable := by
 rw [MmcDevice.addressable]
 cases mmc.blockAddr
 · have shifted : (start.toUInt32 <<< mmcMaxBlocksizeShift).toNat =
     start.toNat % 2 ^ 32 * 2 ^ 9 % 2 ^ 32 := by
    rw [UInt32.toNat_shiftLeft, UInt64.toNat_toUInt32, Nat.shiftLeft_eq]
    rfl
   simp only [Bool.false_eq_true, if_false, shifted, bytesPerBlock]
   omega
 · simp only [if_true, UInt64.toNat_toUInt32]
   omega

theorem setup_right_iff {curSec : ℕ} {start : UInt64} (pos : 0 < curSec)
  (left : cmd.data.sendStopCmd = true →
   mmc.cmdStop = true ∧ cmd.data.stopCmdCode = stopTransmission) :
  RequestRight mmc writeFlag start.toNat buf (mmcSetupReadWriteBlocksCmd mmc cmd
    (mmcDeviceFillRwInfo buf writeFlag start (chunkSectors curSec))) ↔
   start.toNat < mmc.addressable ∧
    ¬(chunkSectors curSec = 1 ∧ cmd.data.sendStopCmd = true) := by
 have sectors : (mmcSetupReadWriteBlocksCmd mmc cmd (mmcDeviceFillRwInfo buf writeFlag start
   (chunkSectors curSec))).sectors = chunkSectors curSec := ofNat_chunkSectors curSec
 have least := chunkSectors_pos pos
 constructor
 · intro right
   refine ⟨(argument_right_iff mmc start).mp right.argument, ?_⟩
   rintro ⟨single, stays⟩
   have stop := right.sendStopCmd
   rw [sectors, single] at stop
   simp [mmcSetupReadWriteBlocksCmd, mmcDeviceFillRwInfo, stays] at stop
 · rintro ⟨there, clean⟩
   refine ⟨(argument_right_iff mmc start).mpr there, rfl, rfl, rfl, ?_, ?_, ?_, ?_⟩
   · rw [sectors]
     exact ⟨least, chunkSectors_max curSec⟩
   · rw [sectors]
     cases writeFlag <;> rfl
   · rw [sectors]
     by_cases stop : 1 < chunkSectors curSec ∧ mmc.cmdStop = true
     · simp [mmcSetupReadWriteBlocksCmd, mmcDeviceFillRwInfo, stop]
     have quiet : cmd.data.sendStopCmd = false := by
      rw [Bool.eq_false_iff]
      intro stays
      have few : ¬1 < chunkSectors curSec := fun many => stop ⟨many, (left stays).1⟩
      exact clean ⟨by omega, stays⟩
     simp [mmcSetupReadWriteBlocksCmd, mmcDeviceFillRwInfo, stop, quiet]
   · change (if 1 < chunkSectors curSec ∧ mmc.cmdStop = true then true
       else cmd.data.sendStopCmd) = true →
      (if 1 < chunkSectors curSec ∧ mmc.cmdStop = true then stopTransmission
       else cmd.data.stopCmdCode) = stopTransmission
     by_cases stop : 1 < chunkSectors curSec ∧ mmc.cmdStop = true
     · exact fun _ => if_pos stop
     · rw [if_neg stop, if_neg stop]
       exact fun stays => (left stays).2

theorem transferRequests_eq : transferRequests mmc writeFlag chunks curSec start buf cmd i =
   (if (transferChunk (chunks i)).2.isSome then
    [mmcSetupReadWriteBlocksCmd mmc (if (chunks i).detecting then {} else cmd)
     (mmcDeviceFillRwInfo buf writeFlag start (chunkSectors curSec))] else []) ++
    if (transferChunk (chunks i)).1 = hdfSuccess ∧ mmcMaxSectorNum < curSec then
     transferRequests mmc writeFlag chunks (curSec - mmcMaxSectorNum)
      (start + UInt64.ofNat mmcMaxSectorNum) (buf + mmcMaxSectorNum * bytesPerBlock)
      (if (chunks i).detecting then cmd else mmcSetupReadWriteBlocksCmd mmc cmd
       (mmcDeviceFillRwInfo buf writeFlag start mmcMaxSectorNum)) (i + 1)
    else [] := by
 rw [transferRequests]
 congr 1
 by_cases ok : (transferChunk (chunks i)).1 = hdfSuccess
 · by_cases more : mmcMaxSectorNum < curSec
   · have full : chunkSectors curSec = mmcMaxSectorNum := if_pos (Nat.le_of_lt more)
     have there : 0 < curSec - mmcMaxSectorNum := Nat.sub_pos_of_lt more
     have goes : (transferChunk (chunks i)).1 = hdfSuccess ∧ mmcMaxSectorNum < curSec :=
      ⟨ok, more⟩
     rw [if_neg (not_not.mpr ok), full, if_pos there, if_pos goes]
     cases (chunks i).detecting <;> rfl
   · have rest : ¬0 < curSec - chunkSectors curSec := by
      rw [chunkSectors]
      split <;> omega
     rw [if_neg (not_not.mpr ok), if_neg rest, if_neg fun h => more h.2]
 · rw [if_pos ok, if_neg fun h => ok h.1]

theorem sendCmd_isSome (attempts : ℕ → Attempt)
  (ok : (mmcSendCmd c.hasRequest attempts true 1).1 = hdfSuccess) :
  (mmcSendCmd c.hasRequest attempts true 1).2.isSome = true := by
 cases there : c.hasRequest
 · rw [there] at ok
   simp [mmcSendCmd, hdfErrNotSupport, hdfSuccess] at ok
 · simp only [mmcSendCmd, Bool.true_eq_false, if_false, Nat.one_ne_zero]
   split_ifs <;> rfl

theorem isSome_of_success (ok : (transferChunk c).1 = hdfSuccess) :
  (transferChunk c).2.isSome = true := by
 rw [transferChunk] at ok ⊢
 split_ifs at ok ⊢
 · rw [mmcSendReadWriteBlocks] at ok ⊢
   split_ifs at ok ⊢
   · cases ok
   · exact sendCmd_isSome c.attempts ok
 · rw [mmcCntlrAddRequestMsgToQueue] at ok ⊢
   split_ifs at ok ⊢
   · rw [mmcCntlrAddMsgToQueue] at ok ⊢
     split_ifs at ok ⊢
     · rw [mmcCntlrPostMsg] at ok ⊢
       split_ifs at ok ⊢
       · next failed => exact absurd ok failed
       · rfl
     · cases ok
   · cases ok

theorem issued_zero {curSec : ℕ} :
  Issued chunks curSec i 0 ↔ (transferChunk (chunks i)).2.isSome = true :=
 ⟨fun h => h.2.2, fun tried => ⟨Nat.le_max_left 1 _, fun _ h => absurd h (Nat.not_lt_zero _), tried⟩⟩

theorem issued_succ {curSec k : ℕ} :
  Issued chunks curSec i (k + 1) ↔
   ((transferChunk (chunks i)).1 = hdfSuccess ∧ mmcMaxSectorNum < curSec) ∧
    Issued chunks (curSec - mmcMaxSectorNum) (i + 1) k := by
 have shift (j : ℕ) : i + 1 + j = i + (j + 1) := by omega
 constructor
 · rintro ⟨inside, before, tried⟩
   have more : mmcMaxSectorNum < curSec := by
    by_contra last
    rw [chunkCount_le (Nat.not_lt.mp last)] at inside
    omega
   rw [chunkCount_gt more] at inside
   refine ⟨⟨before 0 (Nat.succ_pos k), more⟩, Nat.lt_of_succ_lt_succ inside, fun j hj => ?_, ?_⟩
   · rw [shift]
     exact before (j + 1) (Nat.succ_lt_succ hj)
   · rw [shift]
     exact tried
 · rintro ⟨⟨ok, more⟩, inside, before, tried⟩
   refine ⟨by rw [chunkCount_gt more]; exact Nat.succ_lt_succ inside, fun j hj => ?_, ?_⟩
   · cases j with
     | zero => exact ok
     | succ j =>
      rw [← shift]
      exact before j (Nat.lt_of_succ_lt_succ hj)
   · rw [← shift]
     exact tried

theorem stopLeft_succ {curSec k : ℕ} {stopped : Prop} :
  StopLeft mmc chunks curSec i stopped (k + 1) ↔
   StopLeft mmc chunks (curSec - mmcMaxSectorNum) (i + 1)
    (stopped ∨ mmc.cmdStop = true ∧ (chunks i).detecting = false) k := by
 have shift (j : ℕ) : i + 1 + j = i + (j + 1) := by omega
 have size : curSec - mmcMaxSectorNum * (k + 1) =
   curSec - mmcMaxSectorNum - mmcMaxSectorNum * k := by
  rw [Nat.mul_succ]
  omega
 rw [StopLeft, StopLeft, size, shift]
 refine and_congr_right fun _ => and_congr_right fun _ => ?_
 constructor
 · rintro (before | ⟨stop, j, hj, queued⟩)
   · exact .inl (.inl before)
   · cases j with
     | zero => exact .inl (.inr ⟨stop, queued⟩)
     | succ j => exact .inr ⟨stop, j, Nat.lt_of_succ_lt_succ hj, by rw [shift]; exact queued⟩
 · rintro ((before | ⟨stop, queued⟩) | ⟨stop, j, hj, queued⟩)
   · exact .inl before
   · exact .inr ⟨stop, 0, Nat.succ_pos k, queued⟩
   · exact .inr ⟨stop, j + 1, Nat.succ_lt_succ hj, by rw [← shift]; exact queued⟩

/-- What the queue's command has in it: a stop command only where the controller has them. -/
def Keeps (mmc : MmcDevice) (cmd : MmcCmd) : Prop :=
 cmd.data.sendStopCmd = true → mmc.cmdStop = true ∧ cmd.data.stopCmdCode = stopTransmission

theorem full_keeps {start : UInt64} (keeps : Keeps mmc cmd) :
  Keeps mmc (mmcSetupReadWriteBlocksCmd mmc cmd
    (mmcDeviceFillRwInfo buf writeFlag start mmcMaxSectorNum)) ∧
   ((mmcSetupReadWriteBlocksCmd mmc cmd
    (mmcDeviceFillRwInfo buf writeFlag start mmcMaxSectorNum)).data.sendStopCmd = true ↔
     cmd.data.sendStopCmd = true ∨ mmc.cmdStop = true) := by
 have stopFlag : (mmcSetupReadWriteBlocksCmd mmc cmd
   (mmcDeviceFillRwInfo buf writeFlag start mmcMaxSectorNum)).data.sendStopCmd =
    if 1 < mmcMaxSectorNum ∧ mmc.cmdStop = true then true else cmd.data.sendStopCmd := rfl
 have stopCode : (mmcSetupReadWriteBlocksCmd mmc cmd
   (mmcDeviceFillRwInfo buf writeFlag start mmcMaxSectorNum)).data.stopCmdCode =
    if 1 < mmcMaxSectorNum ∧ mmc.cmdStop = true then stopTransmission
    else cmd.data.stopCmdCode := rfl
 have many : 1 < mmcMaxSectorNum := by decide
 rw [Keeps, stopFlag, stopCode]
 cases stop : mmc.cmdStop
 · have none : cmd.data.sendStopCmd ≠ true := fun stays => by
    have := (keeps stays).1
    rw [stop] at this
    cases this
   simp [none]
 · simp [many]

theorem first_right_iff {curSec : ℕ} {start : UInt64} (pos : 0 < curSec) (keeps : Keeps mmc cmd) :
  RequestRight mmc writeFlag start.toNat buf
    (mmcSetupReadWriteBlocksCmd mmc (if (chunks i).detecting then {} else cmd)
     (mmcDeviceFillRwInfo buf writeFlag start (chunkSectors curSec))) ↔
   start.toNat + mmcMaxSectorNum * 0 < mmc.addressable ∧
    ¬StopLeft mmc chunks curSec i (cmd.data.sendStopCmd = true) 0 := by
 have single : chunkSectors curSec = 1 ↔ curSec - mmcMaxSectorNum * 0 = 1 := by
  rw [chunkSectors, mmcMaxSectorNum]
  split <;> omega
 cases queued : (chunks i).detecting
 · rw [if_neg (by decide), setup_right_iff pos keeps, StopLeft, single]
   simp [queued]
 · rw [if_pos rfl, setup_right_iff pos fun stays => absurd stays (by decide), StopLeft]
   simp [queued]

theorem tiles_iff (pos : 0 < curSec) (keeps : Keeps mmc cmd) :
  Tiles mmc writeFlag start.toNat buf
    (transferRequests mmc writeFlag chunks curSec start buf cmd i) ↔
   ∀ k, Issued chunks curSec i k → start.toNat + mmcMaxSectorNum * k < mmc.addressable ∧
    ¬StopLeft mmc chunks curSec i (cmd.data.sendStopCmd = true) k := by
 induction curSec using Nat.strongRecOn generalizing start buf cmd i with
 | ind curSec ih =>
  rw [transferRequests_eq, ← Nat.and_forall_add_one]
  by_cases tried : (transferChunk (chunks i)).2.isSome = true
  · have sectors (cmd : MmcCmd) : (mmcSetupReadWriteBlocksCmd mmc cmd (mmcDeviceFillRwInfo buf
      writeFlag start (chunkSectors curSec))).sectors = chunkSectors curSec :=
     ofNat_chunkSectors curSec
    rw [if_pos tried, List.singleton_append, Tiles, first_right_iff pos keeps, sectors,
     imp_iff_right (issued_zero.mpr tried)]
    refine and_congr_right fun first => ?_
    by_cases goes : (transferChunk (chunks i)).1 = hdfSuccess ∧ mmcMaxSectorNum < curSec
    · have full : chunkSectors curSec = mmcMaxSectorNum := if_pos (Nat.le_of_lt goes.2)
      have next : (start + UInt64.ofNat mmcMaxSectorNum).toNat =
        start.toNat + mmcMaxSectorNum := by
       have small : mmc.addressable ≤ 2 ^ 32 := by
        rw [MmcDevice.addressable]
        split <;> decide
       have := first.1
       rw [UInt64.toNat_add, UInt64.toNat_ofNat', mmcMaxSectorNum]
       omega
      have kept : Keeps mmc (if (chunks i).detecting then cmd else mmcSetupReadWriteBlocksCmd mmc
        cmd (mmcDeviceFillRwInfo buf writeFlag start mmcMaxSectorNum)) := by
       split
       · exact keeps
       · exact (full_keeps keeps).1
      have stopped : (if (chunks i).detecting then cmd else mmcSetupReadWriteBlocksCmd mmc
        cmd (mmcDeviceFillRwInfo buf writeFlag start mmcMaxSectorNum)).data.sendStopCmd = true ↔
         cmd.data.sendStopCmd = true ∨ mmc.cmdStop = true ∧ (chunks i).detecting = false := by
       cases (chunks i).detecting
       · simpa using (full_keeps keeps).2
       · simp
      rw [if_pos goes, full, ← next, ih _ (Nat.sub_lt pos (by decide)) _ (Nat.sub_pos_of_lt goes.2)
       kept, stopped]
      refine forall_congr' fun k => ?_
      rw [issued_succ, stopLeft_succ, next, Nat.mul_succ, Nat.add_assoc,
       Nat.add_comm mmcMaxSectorNum (mmcMaxSectorNum * k)]
      simp only [goes, and_self, true_and]
    · rw [if_neg goes]
      refine iff_of_true trivial fun k later => ?_
      exact absurd (issued_succ.mp later).1 goes
  · have failed : ¬((transferChunk (chunks i)).1 = hdfSuccess ∧ mmcMaxSectorNum < curSec) :=
     fun goes => tried (isSome_of_success goes.1)
    rw [if_neg tried, if_neg failed]
    refine iff_of_true trivial ⟨fun now => absurd (issued_zero.mp now) tried, fun k later => ?_⟩
    exact absurd (issued_succ.mp later).1 failed

theorem requests_total :
  ((transferRequests mmc writeFlag chunks curSec start buf cmd i).map MmcCmd.sectors).sum ≤
    curSec ∧
   ((∀ k < chunkCount curSec, (transferChunk (chunks (i + k))).1 = hdfSuccess) →
    ((transferRequests mmc writeFlag chunks curSec start buf cmd i).map MmcCmd.sectors).sum =
     curSec) := by
 induction curSec using Nat.strongRecOn generalizing start buf cmd i with
 | ind curSec ih =>
  have head : ((if (transferChunk (chunks i)).2.isSome then
    [mmcSetupReadWriteBlocksCmd mmc (if (chunks i).detecting then {} else cmd)
     (mmcDeviceFillRwInfo buf writeFlag start (chunkSectors curSec))] else []).map
      MmcCmd.sectors).sum =
     if (transferChunk (chunks i)).2.isSome then chunkSectors curSec else 0 := by
   split
   · rw [List.map_singleton, List.sum_singleton]
     exact ofNat_chunkSectors curSec
   · rfl
  have least := chunkSectors_le curSec
  rw [transferRequests_eq, List.map_append, List.sum_append, head]
  by_cases goes : (transferChunk (chunks i)).1 = hdfSuccess ∧ mmcMaxSectorNum < curSec
  · have full : chunkSectors curSec = mmcMaxSectorNum := if_pos (Nat.le_of_lt goes.2)
    have less : curSec - mmcMaxSectorNum < curSec :=
     Nat.sub_lt (Nat.zero_lt_of_lt goes.2) (by decide)
    rw [if_pos goes, if_pos (isSome_of_success goes.1), full]
    constructor
    · have fits : mmcMaxSectorNum + (curSec - mmcMaxSectorNum) = curSec :=
       Nat.add_sub_cancel' (Nat.le_of_lt goes.2)
      conv_rhs => rw [← fits]
      exact Nat.add_le_add_left (ih _ less _).1 _
    · intro all
      rw [(ih _ less _).2 fun k hk => ?_]
      · exact Nat.add_sub_cancel' (Nat.le_of_lt goes.2)
      · rw [Nat.add_right_comm, Nat.add_assoc]
        exact all (k + 1) (by rw [chunkCount_gt goes.2]; exact Nat.succ_lt_succ hk)
  · rw [if_neg goes, List.map_nil, List.sum_nil, Nat.add_zero]
    constructor
    · split <;> omega
    · intro all
      have first : (transferChunk (chunks i)).1 = hdfSuccess := all 0 (Nat.le_max_left 1 _)
      have last : curSec ≤ mmcMaxSectorNum := Nat.not_lt.mp fun more => goes ⟨first, more⟩
      rw [if_pos (isSome_of_success first), chunkSectors]
      split <;> omega

end loop

/-- Whether a chunk goes through the message queue -/
def Chunk.queued (c : Chunk) : Prop := c.detecting = false

/-- The chunks of a transfer that are tried can be addressed, and none is a single sector that goes
through the queue behind another chunk, if the controller has stop commands. -/
def Unstopped (mmc : MmcDevice) (chunks : ℕ → Chunk) (startSec nSec : ℕ) : Prop :=
 ∀ k, Issued chunks nSec 0 k → startSec + mmcMaxSectorNum * k < mmc.addressable ∧
  ¬(mmc.cmdStop = true ∧ nSec - mmcMaxSectorNum * k = 1 ∧ (chunks k).queued ∧
   ∃ j < k, (chunks j).queued)

theorem transferRequests_right_iff (mmc : MmcDevice) (writeFlag : Bool) (chunks : ℕ → Chunk)
  (buf : ℕ) (startSec nSec : UInt64) (pos : 0 < nSec) :
  TransferRight mmc writeFlag chunks buf startSec.toNat nSec.toNat
    (transferRequests mmc writeFlag chunks nSec.toNat startSec buf {} 0) ↔
   Unstopped mmc chunks startSec.toNat nSec.toNat := by
 have count : 0 < nSec.toNat := UInt64.lt_iff_toNat_lt.mp pos
 have fresh : Keeps mmc {} := fun stays => absurd stays (by decide)
 have tiles : Tiles mmc writeFlag startSec.toNat buf
   (transferRequests mmc writeFlag chunks nSec.toNat startSec buf {} 0) ↔ _ :=
  tiles_iff nSec.toNat startSec count fresh
 have left (k : ℕ) : StopLeft mmc chunks nSec.toNat 0 (false = true) k ↔
   mmc.cmdStop = true ∧ nSec.toNat - mmcMaxSectorNum * k = 1 ∧ (chunks k).queued ∧
    ∃ j < k, (chunks j).queued := by
  simp only [StopLeft, Chunk.queued, Nat.zero_add, Bool.false_eq_true, false_or]
  tauto
 simp only [left] at tiles
 constructor
 · intro right
   exact tiles.mp right.tiles
 · intro unstopped
   refine ⟨tiles.mpr unstopped, (requests_total _ _).1,
    fun all => (requests_total _ _).2 fun k hk => ?_⟩
   rw [Nat.zero_add]
   exact all k hk

/-- Reads and writes are right if and only if the chunks that are tried are `Unstopped`. -/
theorem transfers_right_iff (mmc : MmcDevice) (chunks : ℕ → Chunk) (buf : ℕ)
    (startSec nSec : UInt64) (pos : 0 < nSec) :
    (TransferRight mmc false chunks buf startSec.toNat nSec.toNat
        (mmcDeviceReadRequests mmc chunks buf startSec nSec) ↔
      Unstopped mmc chunks startSec.toNat nSec.toNat) ∧
    (TransferRight mmc true chunks buf startSec.toNat nSec.toNat
        (mmcDeviceWriteRequests mmc chunks buf startSec nSec) ↔
      Unstopped mmc chunks startSec.toNat nSec.toNat) :=
  ⟨transferRequests_right_iff mmc false chunks buf startSec nSec pos,
    transferRequests_right_iff mmc true chunks buf startSec nSec pos⟩

/-- A card that is plugged, and a command that works -/
def workingChunk : Chunk where
 detecting := false
 curDev := true
 hasRequest := true
 devPluged := some true
 allocated := true
 waited := hdfSuccess
 attempts := fun _ => ⟨0, 0, 0⟩

/-- A single sector -/
theorem transfers_right_single : (0 : UInt64) < 1 ∧
      (TransferRight ⟨true, true⟩ false (fun _ => workingChunk) 4096 7 1
        (mmcDeviceReadRequests ⟨true, true⟩ (fun _ => workingChunk) 4096 7 1) ↔
      Unstopped ⟨true, true⟩ (fun _ => workingChunk) 7 1) :=
  ⟨by decide, (transfers_right_iff ⟨true, true⟩ (fun _ => workingChunk) 4096 7 1 (by decide)).1⟩

/-- 2049 sectors: the stop command of the first chunk is still asked for with the last sector. -/
theorem last_sector_stopped : ¬∀ mmc chunks buf startSec nSec, 0 < nSec →
    TransferRight mmc false chunks buf startSec.toNat nSec.toNat
      (mmcDeviceReadRequests mmc chunks buf startSec nSec) := by
  intro right
  have tiles := (right ⟨true, true⟩ (fun _ => workingChunk) 0 0 2049 (by decide)).tiles
  have tried : (transferChunk workingChunk).2.isSome = true := rfl
  have goes : (transferChunk workingChunk).1 = hdfSuccess ∧
      mmcMaxSectorNum < UInt64.toNat 2049 := by decide
  have ends : ¬((transferChunk workingChunk).1 = hdfSuccess ∧
      mmcMaxSectorNum < UInt64.toNat 2049 - mmcMaxSectorNum) := by decide
  rw [mmcDeviceReadRequests, transferRequests_eq, if_pos tried, if_pos goes,
    transferRequests_eq, if_pos tried, if_neg ends] at tiles
  have single := tiles.2.1.sendStopCmd.mp (by decide +kernel)
  exact absurd single.1 (by decide +kernel)

end DriversFramework.MmcRequest
