import DriversFramework.ByteFields
import DriversFramework.LoopPrograms
import DriversFramework.MmcTransfer

/-! `SdioReadWriteBlock` moves a buffer with commands of up to 511 blocks and the rest byte by byte.
Its loops need not end; a run gives the commands that were sent, in their order. -/
namespace DriversFramework.Sdio

open ByteFields LoopPrograms MmcRequest

def hdfErrIo : ℤ := -17

def sdioRwExtendedCode : UInt32 := 53
def sdioBlockTransferMaxBlknum : UInt32 := 511
def sdioR5Error : UInt32 := (1 : UInt32) <<< 11
def sdioR5FunctionNumber : UInt32 := (1 : UInt32) <<< 9
def sdioR5OutOfRange : UInt32 := (1 : UInt32) <<< 8

def mmcMin (x y : UInt32) : UInt32 := if x < y then x else y

def mmcMax (x y : UInt32) : UInt32 := if x < y then y else x

structure SdioCmdParam where
 funcNum : UInt32
 regAddr : UInt32
 incrAddrFlag : Bool
 writeflag : Bool
 scatterFlag : Bool
 scatterLen : UInt32

structure SdioData where
 blockSize : UInt32
 blockNum : UInt32
 dataFlags : UInt32
 dataBuffer : ℕ
 scatter : ℕ
 scatterLen : UInt32

structure SdioCmd where
 cmdCode : UInt32
 argument : UInt32
 data : SdioData

/-- What `MmcSendCmd` returns, and the first word of the card's response -/
structure SdioOutcome where
 err : ℤ
 resp : UInt32

def sdioRespR5Check (resp : UInt32) : ℤ :=
 if resp &&& sdioR5Error ≠ 0 then hdfErrIo
 else if resp &&& sdioR5OutOfRange ≠ 0 then hdfErrInvalidParam
 else if resp &&& sdioR5FunctionNumber ≠ 0 then hdfErrInvalidParam
 else hdfSuccess

def flagBits (flag : Bool) (bits : UInt32) : UInt32 := if flag then bits else 0

def countBits (blockNum blockSize : UInt32) : UInt32 :=
 if blockNum = 1 ∧ blockSize ≤ 512 then if blockSize = 512 then 0 else blockSize
 else 0x08000000 ||| blockNum

def sdioExtendedCmd (param : SdioCmdParam) (buf : ℕ) (blockNum blockSize : UInt32) : SdioCmd where
 cmdCode := sdioRwExtendedCode
 argument := flagBits param.writeflag 0x80000000 ||| param.funcNum <<< 28
  ||| flagBits param.incrAddrFlag 0x04000000 ||| param.regAddr <<< 9
  ||| countBits blockNum blockSize
 data :=
  { blockSize := blockSize
    blockNum := blockNum
    dataFlags := if param.writeflag then dataWrite else dataRead
    dataBuffer := if param.scatterFlag then 0 else buf
    scatter := if param.scatterFlag then buf else 0
    scatterLen := if param.scatterFlag then param.scatterLen else 0 }

def sdioRwExtended (outcomes : ℕ → SdioOutcome) (param : SdioCmdParam) (buf : ℕ)
  (blockNum blockSize : UInt32) : Prog (List SdioCmd) ℤ :=
 Prog.step fun sent =>
  if param.regAddr ≠ param.regAddr &&& 0x1FFFF then (hdfErrInvalidParam, sent)
  else
   let outcome := outcomes sent.length
   (if outcome.err ≠ hdfSuccess then outcome.err else sdioRespR5Check outcome.resp,
    sent ++ [sdioExtendedCmd param buf blockNum blockSize])

structure SdioFunction where
 funcNum : UInt32
 maxBlkSize : UInt32
 curBlkSize : UInt32

/-- `multiBlock` is the bit of `sdioReg.cccr`. -/
structure SdioDevice where
 curFunction : Option SdioFunction
 multiBlock : UInt32

structure SdioCntlr where
 maxBlkNum : UInt32
 maxBlkSize : UInt32
 maxReqSize : UInt32
 curDev : Option SdioDevice

structure SdioRwBlockInfo where
 addr : UInt32
 buf : ℕ
 size : UInt32
 scatterLen : UInt32
 writeFlag : Bool
 incrAddrFlag : Bool
 scatterFlag : Bool

def maxBlkSize (cntlr : SdioCntlr) (func : SdioFunction) : UInt32 :=
 mmcMin (mmcMin cntlr.maxBlkSize func.maxBlkSize) (UInt32.ofNat bytesPerBlock)

structure Progress where
 remLen : UInt32
 curAddr : UInt32
 buffer : ℕ

def Progress.advance (p : Progress) (incrAddrFlag : Bool) (curSize : UInt32) : Progress where
 remLen := p.remLen - curSize
 curAddr := if incrAddrFlag then p.curAddr + curSize else p.curAddr
 buffer := p.buffer + curSize.toNat

/-- One round of both loops: `blockNum` blocks of `blockSize` bytes, then the next round -/
def transferRound {α : Type} (outcomes : ℕ → SdioOutcome) (param : SdioCmdParam) (p : Progress)
  (blockNum blockSize : UInt32) (fail : ℤ → α) : Prog (List SdioCmd) (Progress ⊕ α) := do
 let err ← sdioRwExtended outcomes { param with regAddr := p.curAddr } p.buffer blockNum blockSize
 if err ≠ hdfSuccess then return .inr (fail err)
 else return .inl (p.advance param.incrAddrFlag (blockNum * blockSize))

def sdioReadWriteRemainBytes (outcomes : ℕ → SdioOutcome) (cntlr : SdioCntlr) (func : SdioFunction)
  (param : SdioCmdParam) (p : Progress) : Prog (List SdioCmd) ℤ :=
 if maxBlkSize cntlr func = 0 then return hdfErrInvalidParam
 else
  Prog.loop (fun p =>
   if 0 < p.remLen then
    transferRound outcomes param p 1 (mmcMin p.remLen (maxBlkSize cntlr func)) id
   else return .inr hdfSuccess) p

def sendBlocks (outcomes : ℕ → SdioOutcome) (func : SdioFunction) (maxBlkNum : UInt32)
  (param : SdioCmdParam) (p : Progress) : Prog (List SdioCmd) (Except ℤ Progress) :=
 Prog.loop (fun p =>
  if func.curBlkSize < p.remLen then
   transferRound outcomes param p (mmcMin (p.remLen / func.curBlkSize) maxBlkNum)
    func.curBlkSize Except.error
  else return .inr (.ok p)) p

def sdioFillRwExtendedCmdParam (func : SdioFunction) (info : SdioRwBlockInfo) : SdioCmdParam where
 funcNum := func.funcNum
 regAddr := if info.scatterFlag then info.addr else 0
 incrAddrFlag := info.incrAddrFlag
 writeflag := info.writeFlag
 scatterFlag := info.scatterFlag
 scatterLen := if info.scatterFlag then info.scatterLen else 0

def maxBlkNum (cntlr : SdioCntlr) (func : SdioFunction) : UInt32 :=
 mmcMin (mmcMin (cntlr.maxReqSize / func.curBlkSize) cntlr.maxBlkNum) sdioBlockTransferMaxBlknum

def remainAfter (outcomes : ℕ → SdioOutcome) (cntlr : SdioCntlr) (func : SdioFunction)
  (param : SdioCmdParam) : Except ℤ Progress → Prog (List SdioCmd) ℤ
 | .error err => return err
 | .ok rest => sdioReadWriteRemainBytes outcomes cntlr func param rest

def readWriteBlock (outcomes : ℕ → SdioOutcome) (cntlr : SdioCntlr) (dev : SdioDevice)
  (func : SdioFunction) (info : SdioRwBlockInfo) : Prog (List SdioCmd) ℤ :=
 let maxBlkSize := maxBlkSize cntlr func
 let param := sdioFillRwExtendedCmdParam func info
 let start : Progress := ⟨info.size, info.addr, info.buf⟩
 if maxBlkSize = 0 then return hdfErrInvalidParam
 else if func.curBlkSize = 0 ∨ cntlr.maxBlkNum = 0 then return hdfErrInvalidParam
 else if info.scatterFlag then
  sdioRwExtended outcomes param info.buf (mmcMax 1 (info.size / maxBlkSize))
   (mmcMin info.size maxBlkSize)
 else if 0 < dev.multiBlock ∧ maxBlkSize < info.size then do
  let sent ← sendBlocks outcomes func (maxBlkNum cntlr func) param start
  remainAfter outcomes cntlr func param sent
 else sdioReadWriteRemainBytes outcomes cntlr func param start

def sdioReadWriteBlock (outcomes : ℕ → SdioOutcome) (cntlr : Option SdioCntlr)
  (info : Option SdioRwBlockInfo) : Prog (List SdioCmd) ℤ :=
 match cntlr, info with
 | some cntlr, some info =>
  match cntlr.curDev with
  | none => return hdfErrInvalidObject
  | some dev => match dev.curFunction with
   | none => return hdfErrInvalidObject
   | some func => readWriteBlock outcomes cntlr dev func info
 | _, _ => return hdfErrInvalidParam

def SdioCmd.regAddr (cmd : SdioCmd) : ℕ := slice 9 17 cmd.argument.toNat

def SdioCmd.opCode (cmd : SdioCmd) : ℕ := slice 26 1 cmd.argument.toNat

def SdioCmd.blockMode (cmd : SdioCmd) : ℕ := slice 27 1 cmd.argument.toNat

def SdioCmd.count (cmd : SdioCmd) : ℕ := slice 0 9 cmd.argument.toNat

/-- The bytes that are moved: a count of 0 bytes stands for 512. -/
def SdioCmd.bytes (cmd : SdioCmd) : ℕ :=
 if cmd.blockMode = 1 then cmd.count * cmd.data.blockSize.toNat
 else if cmd.count = 0 then 512 else cmd.count

section command
variable {param : SdioCmdParam} {buf : ℕ} {blockNum blockSize : UInt32}

theorem slice_argument {low width : ℕ} (below : low + width ≤ 28) :
 slice low width (sdioExtendedCmd param buf blockNum blockSize).argument.toNat =
  slice low width (flagBits param.incrAddrFlag 0x04000000).toNat |||
   slice low width (param.regAddr <<< 9).toNat |||
   slice low width (countBits blockNum blockSize).toNat := by
 have place : 2 ^ (low + width) ∣ 2 ^ 28 := Nat.pow_dvd_pow 2 below
 have direction : 2 ^ (low + width) ∣ (flagBits param.writeflag 0x80000000).toNat := by
  cases param.writeflag
  · exact Nat.dvd_zero _
  · exact Nat.dvd_trans place (by decide)
 have function : 2 ^ (low + width) ∣ (param.funcNum <<< 28).toNat := by
  refine Nat.dvd_trans place ?_
  have shifted : (param.funcNum <<< 28).toNat = param.funcNum.toNat * 2 ^ 28 % 2 ^ 32 := by
   rw [UInt32.toNat_shiftLeft, Nat.shiftLeft_eq]
   rfl
  rw [shifted, Nat.dvd_mod_iff (by decide)]
  exact Nat.dvd_mul_left _ _
 rw [sdioExtendedCmd]
 simp only [UInt32.toNat_or, slice_or]
 rw [slice_of_dvd direction, slice_of_dvd function, Nat.zero_or, Nat.zero_or]

theorem regAddr_shifted (inside : param.regAddr.toNat < 2 ^ 17) :
 (param.regAddr <<< 9).toNat = param.regAddr.toNat * 2 ^ 9 := by
 have fits : param.regAddr.toNat * 2 ^ 9 < 2 ^ 32 := by omega
 rw [UInt32.toNat_shiftLeft, Nat.shiftLeft_eq]
 exact Nat.mod_eq_of_lt fits

theorem countBits_bytes (bytes : blockNum = 1 ∧ blockSize ≤ 512) :
 (countBits blockNum blockSize).toNat = blockSize.toNat % 512 := by
 have bound : blockSize.toNat ≤ 512 := UInt32.le_iff_toNat_le.mp bytes.2
 rw [countBits, if_pos bytes]
 by_cases full : blockSize = 512
 · rw [if_pos full, full]
   rfl
 · have other : blockSize.toNat ≠ 512 := fun h => full (UInt32.toNat_inj.mp h)
   rw [if_neg full, Nat.mod_eq_of_lt (by omega)]

theorem countBits_blocks (blocks : ¬(blockNum = 1 ∧ blockSize ≤ 512)) :
 (countBits blockNum blockSize).toNat = 2 ^ 27 ||| blockNum.toNat := by
 rw [countBits, if_neg blocks, UInt32.toNat_or]
 rfl

theorem slice_countBits {low width : ℕ} (above : 9 ≤ low) (below : low + width ≤ 27)
 (few : blockNum.toNat < 2 ^ 9) : slice low width (countBits blockNum blockSize).toNat = 0 := by
 have small {n : ℕ} (h : n < 2 ^ 9) : n < 2 ^ low :=
  Nat.lt_of_lt_of_le h (Nat.pow_le_pow_right (by decide) above)
 by_cases bytes : blockNum = 1 ∧ blockSize ≤ 512
 · rw [countBits_bytes bytes]
   exact slice_of_lt _ (small (Nat.mod_lt _ (by decide)))
 · rw [countBits_blocks bytes, slice_or, slice_of_dvd (Nat.pow_dvd_pow 2 below),
    slice_of_lt _ (small few), Nat.zero_or]

theorem regAddr_cmd (inside : param.regAddr.toNat < 2 ^ 17) (few : blockNum.toNat < 2 ^ 9) :
 (sdioExtendedCmd param buf blockNum blockSize).regAddr = param.regAddr.toNat := by
 have flag : 2 ^ (9 + 17) ∣ (flagBits param.incrAddrFlag 0x04000000).toNat := by
  cases param.incrAddrFlag
  · exact Nat.dvd_zero _
  · exact Nat.dvd_refl _
 rw [SdioCmd.regAddr, slice_argument (by decide), slice_of_dvd flag, regAddr_shifted inside,
  slice_mul inside, slice_countBits (by decide) (by decide) few, Nat.zero_or, Nat.or_zero]

theorem opCode_cmd (inside : param.regAddr.toNat < 2 ^ 17) (few : blockNum.toNat < 2 ^ 9) :
 (sdioExtendedCmd param buf blockNum blockSize).opCode =
  if param.incrAddrFlag then 1 else 0 := by
 have flag : slice 26 1 (flagBits param.incrAddrFlag 0x04000000).toNat =
  if param.incrAddrFlag then 1 else 0 := by
  cases param.incrAddrFlag <;> rfl
 have address : param.regAddr.toNat * 2 ^ 9 < 2 ^ 26 := by omega
 rw [SdioCmd.opCode, slice_argument (by decide), flag, regAddr_shifted inside,
  slice_of_lt _ address, slice_countBits (by decide) (by decide) few, Nat.or_zero, Nat.or_zero]

theorem blockMode_cmd (inside : param.regAddr.toNat < 2 ^ 17) :
 (sdioExtendedCmd param buf blockNum blockSize).blockMode =
  slice 27 1 (countBits blockNum blockSize).toNat := by
 have flag : (flagBits param.incrAddrFlag 0x04000000).toNat < 2 ^ 27 := by
  cases param.incrAddrFlag <;> decide
 have address : param.regAddr.toNat * 2 ^ 9 < 2 ^ 27 := by omega
 rw [SdioCmd.blockMode, slice_argument (by decide), regAddr_shifted inside, slice_of_lt _ flag,
  slice_of_lt _ address, Nat.zero_or, Nat.zero_or]

theorem count_cmd (inside : param.regAddr.toNat < 2 ^ 17) :
 (sdioExtendedCmd param buf blockNum blockSize).count =
  slice 0 9 (countBits blockNum blockSize).toNat := by
 have flag : 2 ^ (0 + 9) ∣ (flagBits param.incrAddrFlag 0x04000000).toNat := by
  cases param.incrAddrFlag <;> decide
 rw [SdioCmd.count, slice_argument (by decide), regAddr_shifted inside, slice_of_dvd flag,
  slice_of_dvd (Nat.dvd_mul_left _ _), Nat.zero_or, Nat.zero_or]

theorem bytes_cmd (inside : param.regAddr.toNat < 2 ^ 17) (few : blockNum.toNat < 2 ^ 9)
 (some_ : 0 < blockSize.toNat) :
 (sdioExtendedCmd param buf blockNum blockSize).bytes =
  blockNum.toNat * blockSize.toNat := by
 rw [SdioCmd.bytes, blockMode_cmd inside, count_cmd inside]
 by_cases bytes : blockNum = 1 ∧ blockSize ≤ 512
 · have small : blockSize.toNat % 512 < 2 ^ 9 := Nat.mod_lt _ (by decide)
   have bound : blockSize.toNat ≤ 512 := UInt32.le_iff_toNat_le.mp bytes.2
   have one : blockNum.toNat = 1 := congrArg UInt32.toNat bytes.1
   have value : slice 0 9 (blockSize.toNat % 512) = blockSize.toNat % 512 := by
    rw [slice, Nat.pow_zero, Nat.div_one, Nat.mod_eq_of_lt small]
   rw [countBits_bytes bytes, slice_of_lt 1 (Nat.lt_trans small (by decide)),
    if_neg (by decide), value, one, Nat.one_mul]
   split <;> omega
 · have high : slice 27 1 (2 ^ 27) = 1 := rfl
   have low : slice 0 9 (2 ^ 27) = 0 := rfl
   have value : slice 0 9 blockNum.toNat = blockNum.toNat := by
    rw [slice, Nat.pow_zero, Nat.div_one, Nat.mod_eq_of_lt few]
   rw [countBits_blocks bytes, slice_or, slice_or, high, low, value,
    slice_of_lt 1 (Nat.lt_trans few (by decide)), Nat.or_zero, Nat.zero_or, if_pos rfl]
   rfl

theorem bytes_empty (inside : param.regAddr.toNat < 2 ^ 17) :
 (sdioExtendedCmd param buf 1 0).bytes = 512 := by
 have none : (countBits 1 0).toNat = 0 := rfl
 rw [SdioCmd.bytes, blockMode_cmd inside, count_cmd inside, none]
 rfl

end command

end DriversFramework.Sdio
