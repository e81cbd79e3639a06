import DriversFramework.SdioTransfer

namespace DriversFramework.Sdio

open LoopPrograms Prog MmcRequest

/-- Where the byte `off` of the buffer is in the function -/
def SdioRwBlockInfo.address (info : SdioRwBlockInfo) (off : ℕ) : ℕ :=
 if info.incrAddrFlag then info.addr.toNat + off else info.addr.toNat

structure ExtendedRight (info : SdioRwBlockInfo) (off : ℕ) (cmd : SdioCmd) : Prop where
 cmdCode : cmd.cmdCode = sdioRwExtendedCode
 regAddr : cmd.regAddr = info.address off
 opCode : cmd.opCode = if info.incrAddrFlag then 1 else 0
 blockNum : cmd.data.blockNum.toNat < 2 ^ 9
 bytes : cmd.bytes = cmd.data.blockNum.toNat * cmd.data.blockSize.toNat
 buffer : (if info.scatterFlag then cmd.data.scatter else cmd.data.dataBuffer) = info.buf + off
 dataFlags : cmd.data.dataFlags = if info.writeFlag then dataWrite else dataRead

/-- Each command begins where the one before it ends, from `off` up to `stop`. -/
def Moves (info : SdioRwBlockInfo) : ℕ → ℕ → List SdioCmd → Prop
 | off, stop, [] => off = stop
 | off, stop, cmd :: cmds => ExtendedRight info off cmd ∧ Moves info (off + cmd.bytes) stop cmds

/-- The call ends whatever the commands return, and if it succeeds all bytes are moved. -/
def SdioRight (cntlr : SdioCntlr) (info : SdioRwBlockInfo) : Prop :=
 ∀ outcomes, ∃ ret sent,
  (sdioReadWriteBlock outcomes (some cntlr) (some info)).Runs [] ret sent ∧
   (ret = hdfSuccess → Moves info 0 info.size.toNat sent)

/-- What is checked before anything is sent -/
structure Checked (cntlr : SdioCntlr) (dev : SdioDevice) (func : SdioFunction) : Prop where
 curDev : cntlr.curDev = some dev
 curFunction : dev.curFunction = some func
 size : maxBlkSize cntlr func ≠ 0
 block : func.curBlkSize ≠ 0
 number : cntlr.maxBlkNum ≠ 0

/-- The scatter list is moved in one command of bytes, or of at most 511 blocks without a rest. -/
def ScatterFits (cntlr : SdioCntlr) (func : SdioFunction) (size : ℕ) : Prop :=
 0 < size ∧ (size ≤ (maxBlkSize cntlr func).toNat ∨
  (maxBlkSize cntlr func).toNat ∣ size ∧ size / (maxBlkSize cntlr func).toNat ≤ 511)

/-- The bytes of a command of blocks where `left` bytes are left -/
def blockBytes (cntlr : SdioCntlr) (func : SdioFunction) (left : ℕ) : ℕ :=
 min (left / func.curBlkSize.toNat)
  (min (min (cntlr.maxReqSize.toNat / func.curBlkSize.toNat) cntlr.maxBlkNum.toNat) 511) *
   func.curBlkSize.toNat

/-- If blocks are sent, a request holds one, and the address behind the first command has 32 bits
unless that is the last one. -/
def BlocksFit (cntlr : SdioCntlr) (dev : SdioDevice) (func : SdioFunction)
  (info : SdioRwBlockInfo) : Prop :=
 0 < dev.multiBlock → maxBlkSize cntlr func < info.size → func.curBlkSize < info.size →
  func.curBlkSize ≤ cntlr.maxReqSize ∧
   (info.incrAddrFlag = true → blockBytes cntlr func info.size.toNat < info.size.toNat →
    info.addr.toNat + blockBytes cntlr func info.size.toNat < 2 ^ 32)

variable {p : Progress} (outcomes : ℕ → SdioOutcome)

section round
variable {info : SdioRwBlockInfo} {off stop mid : ℕ} {cmd : SdioCmd} {cmds : List SdioCmd}

theorem moves_append (moved : Moves info off mid cmds) (right : ExtendedRight info mid cmd) :
 Moves info off (mid + cmd.bytes) (cmds ++ [cmd]) := by
 induction cmds generalizing off with
 | nil =>
  obtain rfl : off = mid := moved
  exact ⟨right, rfl⟩
 | cons first rest ih => exact ⟨moved.1, ih moved.2⟩

theorem mmcMin_toNat (x y : UInt32) : (mmcMin x y).toNat = min x.toNat y.toNat := by
 rw [mmcMin]
 split
 · next less => rw [Nat.min_eq_left (Nat.le_of_lt (UInt32.lt_iff_toNat_lt.mp less))]
 · next less =>
   rw [Nat.min_eq_right (Nat.le_of_not_lt fun h => less (UInt32.lt_iff_toNat_lt.mpr h))]

theorem mmcMax_toNat (x y : UInt32) : (mmcMax x y).toNat = max x.toNat y.toNat := by
 rw [mmcMax]
 split
 · next less => rw [Nat.max_eq_right (Nat.le_of_lt (UInt32.lt_iff_toNat_lt.mp less))]
 · next less =>
   rw [Nat.max_eq_left (Nat.le_of_not_lt fun h => less (UInt32.lt_iff_toNat_lt.mpr h))]

theorem regAddr_checked (regAddr : UInt32) :
 regAddr = regAddr &&& 0x1FFFF ↔ regAddr.toNat < 2 ^ 17 := by
 have masked : (regAddr &&& 0x1FFFF).toNat = regAddr.toNat % 2 ^ 17 := by
  rw [UInt32.toNat_and]
  exact Nat.and_two_pow_sub_one_eq_mod regAddr.toNat 17
 rw [← UInt32.toNat_inj, masked]
 have := Nat.mod_lt regAddr.toNat (Nat.two_pow_pos 17)
 constructor <;> intro h
 · omega
 · rw [Nat.mod_eq_of_lt h]

theorem sdioRwExtended_spec (param : SdioCmdParam) (buf : ℕ)
 (blockNum blockSize : UInt32) (sent : List SdioCmd) :
 ∃ err sent', (sdioRwExtended outcomes param buf blockNum blockSize).Runs sent err sent' ∧
  (err = hdfSuccess → param.regAddr.toNat < 2 ^ 17 ∧
   sent' = sent ++ [sdioExtendedCmd param buf blockNum blockSize]) := by
 refine ⟨_, _, runs_step _ _, fun ok => ?_⟩
 by_cases inside : param.regAddr = param.regAddr &&& 0x1FFFF
 · rw [if_neg (not_not.mpr inside)]
   exact ⟨(regAddr_checked _).mp inside, rfl⟩
 · rw [if_pos inside] at ok
   exact absurd ok (show hdfErrInvalidParam ≠ hdfSuccess by decide)

/-- At the head of a round, `off` bytes are moved. -/
structure At (info : SdioRwBlockInfo) (off : ℕ) (p : Progress) (sent : List SdioCmd) : Prop where
 left : off + p.remLen.toNat = info.size.toNat
 buffer : p.buffer = info.buf + off
 curAddr : 0 < p.remLen.toNat → p.curAddr.toNat = info.address off
 moved : Moves info 0 off sent

theorem extendedRight_cmd (func : SdioFunction) {sent : List SdioCmd}
 {blockNum blockSize : UInt32} (plain : info.scatterFlag = false) (at_ : At info off p sent)
 (more : 0 < p.remLen.toNat) (inside : p.curAddr.toNat < 2 ^ 17)
 (few : blockNum.toNat < 2 ^ 9) (some_ : 0 < blockSize.toNat) :
 ExtendedRight info off (sdioExtendedCmd
  { sdioFillRwExtendedCmdParam func info with regAddr := p.curAddr } p.buffer blockNum
  blockSize) where
 cmdCode := rfl
 regAddr := (regAddr_cmd inside few).trans (at_.curAddr more)
 opCode := opCode_cmd inside few
 blockNum := few
 bytes := bytes_cmd inside few some_
 buffer := by
  rw [← at_.buffer]
  simp [sdioExtendedCmd, sdioFillRwExtendedCmdParam, plain]
 dataFlags := rfl

/-- The next round begins behind the command's bytes; where nothing is left its address is free. -/
theorem At.advance {sent : List SdioCmd} {curSize : UInt32}
 (at_ : At info off p sent) (right : ExtendedRight info off cmd) (bytes : cmd.bytes = curSize.toNat)
 (fits : curSize.toNat ≤ p.remLen.toNat)
 (wraps : info.incrAddrFlag = true → curSize.toNat < p.remLen.toNat →
  p.curAddr.toNat + curSize.toNat < 2 ^ 32) :
 At info (off + curSize.toNat) (p.advance info.incrAddrFlag curSize) (sent ++ [cmd]) ∧
  (p.advance info.incrAddrFlag curSize).remLen.toNat = p.remLen.toNat - curSize.toNat := by
 have left := at_.left
 have rest : (p.advance info.incrAddrFlag curSize).remLen.toNat =
  p.remLen.toNat - curSize.toNat := by
  rw [Progress.advance, UInt32.toNat_sub_of_le _ _ (UInt32.le_iff_toNat_le.mpr fits)]
 refine ⟨⟨by omega, ?_, fun more => ?_, ?_⟩, rest⟩
 · rw [Progress.advance, at_.buffer, Nat.add_assoc]
 · have address := at_.curAddr (by omega)
   rw [SdioRwBlockInfo.address] at address ⊢
   rw [Progress.advance]
   cases incr : info.incrAddrFlag with
   | false =>
    rw [incr] at address
    exact address
   | true =>
    have straight := wraps incr (by omega)
    rw [incr, if_pos rfl] at address
    rw [if_pos rfl, if_pos rfl, UInt32.toNat_add, Nat.mod_eq_of_lt straight]
    omega
 · rw [← bytes]
   exact moves_append at_.moved right

theorem transferRound_runs {α : Type} {outcomes : ℕ → SdioOutcome} {param : SdioCmdParam}
 {blockNum blockSize : UInt32} {sent sent' : List SdioCmd} {err : ℤ}
 (fail : ℤ → α) (run : (sdioRwExtended outcomes { param with regAddr := p.curAddr } p.buffer
  blockNum blockSize).Runs sent err sent') :
 (transferRound outcomes param p blockNum blockSize fail).Runs sent
  (if err ≠ hdfSuccess then .inr (fail err)
   else .inl (p.advance param.incrAddrFlag (blockNum * blockSize))) sent' := by
 refine (runs_bind _ _ _ _ _).mpr ⟨err, sent', run, ?_⟩
 split <;> exact (runs_pure _ _ _ _).mpr ⟨rfl, rfl⟩

theorem transferRound_spec {α : Type}
 (func : SdioFunction) (blockNum blockSize : UInt32) (fail : ℤ → α)
 (plain : info.scatterFlag = false) (few : blockNum.toNat < 2 ^ 9) (some_ : 0 < blockSize.toNat)
 (more : 0 < p.remLen.toNat) (fits : blockNum.toNat * blockSize.toNat ≤ p.remLen.toNat)
 (wraps : info.incrAddrFlag = true → p.curAddr.toNat < 2 ^ 17 →
  blockNum.toNat * blockSize.toNat < p.remLen.toNat →
   p.curAddr.toNat + blockNum.toNat * blockSize.toNat < 2 ^ 32) :
 Spec (At info off p)
  (transferRound outcomes (sdioFillRwExtendedCmdParam func info) p blockNum blockSize fail)
  fun r sent => r.elim
   (fun q => At info (off + blockNum.toNat * blockSize.toNat) q sent ∧
    q.remLen.toNat = p.remLen.toNat - blockNum.toNat * blockSize.toNat)
   fun a => ∃ err, err ≠ hdfSuccess ∧ a = fail err := by
 intro sent at_
 obtain ⟨err, sent', run, left⟩ := sdioRwExtended_spec outcomes
  { sdioFillRwExtendedCmdParam func info with regAddr := p.curAddr } p.buffer blockNum blockSize
  sent
 refine ⟨_, sent', transferRound_runs fail run, ?_⟩
 by_cases ok : err = hdfSuccess
 · obtain ⟨inside, rfl⟩ := left ok
   have right := extendedRight_cmd func plain at_ more inside few some_
   have size : (blockNum * blockSize).toNat = blockNum.toNat * blockSize.toNat := by
    have bound := p.remLen.toNat_lt
    rw [UInt32.toNat_mul]
    exact Nat.mod_eq_of_lt (by omega)
   rw [if_neg (not_not.mpr ok), ← size]
   refine at_.advance right (right.bytes.trans size.symm) (by omega) fun incr less => ?_
   rw [size] at less ⊢
   exact wraps incr inside less
 · rw [if_pos ok]
   exact ⟨err, ok, rfl⟩

end round

section loops
variable {outcomes : ℕ → SdioOutcome} {cntlr : SdioCntlr} {func : SdioFunction}
  {param : SdioCmdParam} {J : Progress → List SdioCmd → Prop}

theorem rounds_spec {α : Type} {Q : α → List SdioCmd → Prop} {more : Progress → Prop}
 [DecidablePred more] {body : Progress → Prog (List SdioCmd) (Progress ⊕ α)}
 {last : Progress → α}
 (round : ∀ p, more p → Spec (J p) (body p) fun r sent =>
  r.elim (fun q => J q sent ∧ q.remLen.toNat < p.remLen.toNat) fun a => Q a sent)
 (done : ∀ p sent, J p sent → ¬more p → Q (last p) sent) (p : Progress) :
 Spec (J p) (loop (fun p => if more p then body p else return .inr (last p)) p) Q := by
 have none (p : Progress) (sent : List SdioCmd) : ¬(J p sent ∧ p.remLen.toNat < 0) :=
  fun head => Nat.not_lt_zero _ head.2
 refine Spec.weaken (spec_loop (I := fun p n sent => J p sent ∧ p.remLen.toNat < n)
  (p.remLen.toNat + 1) none ?_ p) (fun _ start => ⟨start, Nat.lt_succ_self _⟩)
  fun _ _ end_ => end_
 · rintro p n - sent ⟨head, less⟩
   dsimp only
   split
   · next more =>
     obtain ⟨r, sent', run, left⟩ := round p more sent head
     refine ⟨r, sent', run, ?_⟩
     cases r with
     | inl q =>
      obtain ⟨kept, shorter⟩ := left
      exact ⟨kept, by omega⟩
     | inr a => exact left
   · next none => exact ⟨_, sent, (runs_pure _ _ _ _).mpr ⟨rfl, rfl⟩, done p sent head none⟩

theorem remainBytes_spec {Q : ℤ → List SdioCmd → Prop} (size : maxBlkSize cntlr func ≠ 0)
 (round : ∀ p, 0 < p.remLen → Spec (J p)
  (transferRound outcomes param p 1 (mmcMin p.remLen (maxBlkSize cntlr func)) id)
  fun r sent => r.elim (fun q => J q sent ∧ q.remLen.toNat < p.remLen.toNat) fun a => Q a sent)
 (done : ∀ p sent, J p sent → ¬0 < p.remLen → Q hdfSuccess sent) (p : Progress) :
 Spec (J p) (sdioReadWriteRemainBytes outcomes cntlr func param p) Q := by
 rw [sdioReadWriteRemainBytes, if_neg size]
 exact rounds_spec round done p

theorem sendBlocks_spec {Q : Except ℤ Progress → List SdioCmd → Prop} {blocks : UInt32}
 (round : ∀ p, func.curBlkSize < p.remLen → Spec (J p)
  (transferRound outcomes param p (mmcMin (p.remLen / func.curBlkSize) blocks) func.curBlkSize
   Except.error)
  fun r sent => r.elim (fun q => J q sent ∧ q.remLen.toNat < p.remLen.toNat) fun a => Q a sent)
 (done : ∀ p sent, J p sent → ¬func.curBlkSize < p.remLen → Q (.ok p) sent) (p : Progress) :
 Spec (J p) (sendBlocks outcomes func blocks param p) Q :=
 rounds_spec round done p

end loops

section sizes
variable {cntlr : SdioCntlr} {dev : SdioDevice} {func : SdioFunction}

theorem maxBlkSize_le (cntlr : SdioCntlr) (func : SdioFunction) :
 (maxBlkSize cntlr func).toNat ≤ 512 := by
 rw [maxBlkSize, mmcMin_toNat]
 exact Nat.min_le_right _ _

theorem Checked.size_pos (checked : Checked cntlr dev func) :
 0 < (maxBlkSize cntlr func).toNat :=
 Nat.pos_of_ne_zero fun zero => checked.size (UInt32.toNat_inj.mp zero)

theorem Checked.block_pos (checked : Checked cntlr dev func) : 0 < func.curBlkSize.toNat :=
 Nat.pos_of_ne_zero fun zero => checked.block (UInt32.toNat_inj.mp zero)

theorem Checked.number_pos (checked : Checked cntlr dev func) : 0 < cntlr.maxBlkNum.toNat :=
 Nat.pos_of_ne_zero fun zero => checked.number (UInt32.toNat_inj.mp zero)

theorem blockBytes_eq (cntlr : SdioCntlr) (func : SdioFunction) (left : UInt32) :
 (mmcMin (left / func.curBlkSize) (maxBlkNum cntlr func)).toNat * func.curBlkSize.toNat =
  blockBytes cntlr func left.toNat := by
 rw [mmcMin_toNat, maxBlkNum, mmcMin_toNat, mmcMin_toNat, UInt32.toNat_div, UInt32.toNat_div]
 rfl

theorem blockNum_lt (cntlr : SdioCntlr) (func : SdioFunction) (left : UInt32) :
 (mmcMin (left / func.curBlkSize) (maxBlkNum cntlr func)).toNat < 2 ^ 9 := by
 rw [mmcMin_toNat, maxBlkNum, mmcMin_toNat]
 exact Nat.lt_of_le_of_lt (Nat.le_trans (Nat.min_le_right _ _) (Nat.min_le_right _ _)) (by decide)

theorem blockBytes_le (cntlr : SdioCntlr) (func : SdioFunction) (left : ℕ) :
 blockBytes cntlr func left ≤ left :=
 Nat.le_trans (Nat.mul_le_mul_right _ (Nat.min_le_left _ _)) (Nat.div_mul_le_self _ _)

theorem blockBytes_mono {less more : ℕ} (order : less ≤ more) :
 blockBytes cntlr func less ≤ blockBytes cntlr func more := by
 refine Nat.mul_le_mul_right _ (Nat.le_min.mpr ⟨?_, Nat.min_le_right _ _⟩)
 exact Nat.le_trans (Nat.min_le_left _ _) (Nat.div_le_div_right order)

theorem blockBytes_pos (checked : Checked cntlr dev func)
 (request : func.curBlkSize.toNat ≤ cntlr.maxReqSize.toNat) {left : ℕ}
 (more : func.curBlkSize.toNat ≤ left) : 0 < blockBytes cntlr func left := by
 have size := checked.block_pos
 have blocks := Nat.div_pos more size
 have requests := Nat.div_pos request size
 have number := checked.number_pos
 exact Nat.mul_pos (by omega) size

end sizes

section right
variable {info : SdioRwBlockInfo} {cntlr : SdioCntlr} {dev : SdioDevice} {func : SdioFunction}
  {param : SdioCmdParam}

theorem remainBytes_moves (checked : Checked cntlr dev func)
 (plain : info.scatterFlag = false) (p : Progress) :
 Spec (fun sent => ∃ off, At info off p sent)
  (sdioReadWriteRemainBytes outcomes cntlr func (sdioFillRwExtendedCmdParam func info) p)
  fun ret sent => ret = hdfSuccess → Moves info 0 info.size.toNat sent := by
 refine remainBytes_spec (J := fun p sent => ∃ off, At info off p sent) checked.size
  (fun p more => ?_) (fun p sent head none ok => ?_) p
 · rintro sent ⟨off, at_⟩
   have some_ := checked.size_pos
   have few := maxBlkSize_le cntlr func
   have size : (mmcMin p.remLen (maxBlkSize cntlr func)).toNat =
    min p.remLen.toNat (maxBlkSize cntlr func).toNat := mmcMin_toNat _ _
   rw [UInt32.lt_iff_toNat_lt, UInt32.toNat_zero] at more
   obtain ⟨r, sent', run, left⟩ := transferRound_spec outcomes func 1
    (mmcMin p.remLen (maxBlkSize cntlr func)) id plain (by decide) (by omega) more
    (by rw [UInt32.toNat_one]; omega)
    (by rw [UInt32.toNat_one]; omega) sent at_
   refine ⟨r, sent', run, ?_⟩
   cases r with
   | inl q =>
    obtain ⟨next, rest⟩ := left
    rw [UInt32.toNat_one] at rest
    exact ⟨⟨_, next⟩, by omega⟩
   | inr a =>
    obtain ⟨err, fails, rfl⟩ := left
    exact fun ok => absurd ok fails
 · obtain ⟨off, at_⟩ := head
   have left := at_.left
   have moved := at_.moved
   rw [UInt32.lt_iff_toNat_lt, UInt32.toNat_zero] at none
   obtain rfl : off = info.size.toNat := by omega
   exact moved

theorem sendBlocks_moves (checked : Checked cntlr dev func)
 (plain : info.scatterFlag = false) (request : func.curBlkSize ≤ cntlr.maxReqSize)
 (straight : info.incrAddrFlag = true →
  blockBytes cntlr func info.size.toNat < info.size.toNat →
   info.addr.toNat + blockBytes cntlr func info.size.toNat < 2 ^ 32) (p : Progress) :
 Spec (fun sent => At info 0 p sent)
  (sendBlocks outcomes func (maxBlkNum cntlr func) (sdioFillRwExtendedCmdParam func info) p)
  fun r sent => match r with
   | .error err => err ≠ hdfSuccess
   | .ok q => ∃ off, At info off q sent := by
 refine Spec.weaken (sendBlocks_spec (J := fun p sent => ∃ off, At info off p sent ∧
  (off = 0 ∨ blockBytes cntlr func info.size.toNat ≤ off)) (fun p more => ?_)
  (fun p sent head none => ?_) p) (fun sent at_ => ⟨0, at_, .inl rfl⟩) fun _ _ end_ => end_
 · rintro sent ⟨off, at_, place⟩
   have size := checked.block_pos
   rw [UInt32.lt_iff_toNat_lt] at more
   have pos := blockBytes_pos checked (UInt32.le_iff_toNat_le.mp request) (Nat.le_of_lt more)
   have fits := blockBytes_le cntlr func p.remLen.toNat
   have total := at_.left
   have less : blockBytes cntlr func p.remLen.toNat ≤ blockBytes cntlr func info.size.toNat :=
    blockBytes_mono (by omega)
   have bytes := blockBytes_eq cntlr func p.remLen
   obtain ⟨r, sent', run, left⟩ := transferRound_spec outcomes func
    (mmcMin (p.remLen / func.curBlkSize) (maxBlkNum cntlr func)) func.curBlkSize Except.error
    plain (blockNum_lt cntlr func p.remLen) size (by omega) (by rw [bytes]; exact fits)
    (by
     rw [bytes]
     intro incr inside rest
     have address := at_.curAddr (by omega)
     rw [SdioRwBlockInfo.address, if_pos incr] at address
     rcases place with rfl | behind
     · have all : p.remLen.toNat = info.size.toNat := by omega
       rw [all] at rest ⊢
       have := straight incr rest
       omega
     · omega) sent at_
   refine ⟨r, sent', run, ?_⟩
   rw [bytes] at left
   cases r with
   | inl q =>
    obtain ⟨next, rest⟩ := left
    refine ⟨⟨_, next, .inr ?_⟩, by omega⟩
    rcases place with rfl | behind
    · have all : p.remLen.toNat = info.size.toNat := by omega
      rw [all]
      omega
    · omega
   | inr a =>
    obtain ⟨err, fails, rfl⟩ := left
    exact fails
 · obtain ⟨off, at_, -⟩ := head
   exact ⟨off, at_⟩

theorem at_start (info : SdioRwBlockInfo) : At info 0 ⟨info.size, info.addr, info.buf⟩ [] where
 left := Nat.zero_add _
 buffer := rfl
 curAddr _ := by
  rw [SdioRwBlockInfo.address]
  split <;> rfl
 moved := rfl

theorem sendBlocks_refused (blocks : UInt32)
 (more : func.curBlkSize < p.remLen) (outside : ¬p.curAddr.toNat < 2 ^ 17)
 (sent : List SdioCmd) :
 ∃ err sent', (sendBlocks outcomes func blocks param p).Runs sent (.error err) sent' ∧
  err ≠ hdfSuccess := by
 obtain ⟨err, sent', run, left⟩ := sdioRwExtended_spec outcomes
  { param with regAddr := p.curAddr } p.buffer (mmcMin (p.remLen / func.curBlkSize) blocks)
  func.curBlkSize sent
 have fails : err ≠ hdfSuccess := fun ok => outside (left ok).1
 have round := transferRound_runs (fun err => (.error err : Except ℤ Progress)) run
 rw [if_pos fails] at round
 refine ⟨err, sent', (runs_loop _ _ _ _ _).mpr (.inl ?_), fails⟩
 rw [if_pos more]
 exact round

theorem readWriteBlock_eq (checked : Checked cntlr dev func) (plain : info.scatterFlag = false) :
 readWriteBlock outcomes cntlr dev func info =
  if 0 < dev.multiBlock ∧ maxBlkSize cntlr func < info.size then
   sendBlocks outcomes func (maxBlkNum cntlr func) (sdioFillRwExtendedCmdParam func info)
    ⟨info.size, info.addr, info.buf⟩ >>=
    remainAfter outcomes cntlr func (sdioFillRwExtendedCmdParam func info)
  else sdioReadWriteRemainBytes outcomes cntlr func (sdioFillRwExtendedCmdParam func info)
   ⟨info.size, info.addr, info.buf⟩ := by
 rw [readWriteBlock, if_neg checked.size, if_neg (not_or.mpr ⟨checked.block, checked.number⟩),
  plain, if_neg Bool.false_ne_true]

theorem readWriteBlock_moves (checked : Checked cntlr dev func) (plain : info.scatterFlag = false)
 (fit : info.addr.toNat < 2 ^ 17 → BlocksFit cntlr dev func info) :
 ∃ ret sent, (readWriteBlock outcomes cntlr dev func info).Runs [] ret sent ∧
  (ret = hdfSuccess → Moves info 0 info.size.toNat sent) := by
 rw [readWriteBlock_eq outcomes checked plain]
 by_cases blocks : 0 < dev.multiBlock ∧ maxBlkSize cntlr func < info.size
 · rw [if_pos blocks]
   have sent : ∃ r sent, (sendBlocks outcomes func (maxBlkNum cntlr func)
    (sdioFillRwExtendedCmdParam func info) ⟨info.size, info.addr, info.buf⟩).Runs [] r sent ∧
     match r with
     | .error err => err ≠ hdfSuccess
     | .ok q => ∃ off, At info off q sent := by
    by_cases more : func.curBlkSize < info.size
    · by_cases inside : info.addr.toNat < 2 ^ 17
      · obtain ⟨request, straight⟩ := fit inside blocks.1 blocks.2 more
        exact sendBlocks_moves outcomes checked plain request straight _ [] (at_start info)
      · obtain ⟨err, sent, run, fails⟩ := sendBlocks_refused outcomes (maxBlkNum cntlr func)
         (p := ⟨info.size, info.addr, info.buf⟩) more inside []
        exact ⟨_, sent, run, fails⟩
    · refine ⟨.ok ⟨info.size, info.addr, info.buf⟩, [], (runs_loop _ _ _ _ _).mpr (.inl ?_), 0,
       at_start info⟩
      rw [if_neg more]
      exact (runs_pure _ _ _ _).mpr ⟨rfl, rfl⟩
   obtain ⟨r, sent, run, left⟩ := sent
   cases r with
   | error err =>
    refine ⟨err, sent, (runs_bind _ _ _ _ _).mpr ⟨_, sent, run, ?_⟩, fun ok => absurd ok left⟩
    exact (runs_pure _ _ _ _).mpr ⟨rfl, rfl⟩
   | ok q =>
    obtain ⟨ret, sent', rest, moves⟩ := remainBytes_moves outcomes checked plain q sent left
    exact ⟨ret, sent', (runs_bind _ _ _ _ _).mpr ⟨_, sent, run, rest⟩, moves⟩
 · rw [if_neg blocks]
   exact remainBytes_moves outcomes checked plain _ [] ⟨0, at_start info⟩

end right

section wrong
variable {info : SdioRwBlockInfo} {cntlr : SdioCntlr} {dev : SdioDevice} {func : SdioFunction}
  {param : SdioCmdParam}

def fine : ℕ → SdioOutcome := fun _ => ⟨hdfSuccess, 0⟩

theorem sdioRwExtended_fine (param : SdioCmdParam) (buf : ℕ) (blockNum blockSize : UInt32)
 (inside : param.regAddr.toNat < 2 ^ 17) (sent : List SdioCmd) :
 (sdioRwExtended fine param buf blockNum blockSize).Runs sent hdfSuccess
  (sent ++ [sdioExtendedCmd param buf blockNum blockSize]) := by
 have response : sdioRespR5Check 0 = hdfSuccess := by decide
 refine ⟨0, ?_⟩
 rw [sdioRwExtended, run_step, if_neg (not_not.mpr ((regAddr_checked _).mpr inside)), fine]
 dsimp only
 rw [if_neg (not_not.mpr rfl), response]

theorem transferRound_fine {α : Type} (param : SdioCmdParam)
 (blockNum blockSize : UInt32) (fail : ℤ → α) (inside : p.curAddr.toNat < 2 ^ 17)
 (sent : List SdioCmd) :
 (transferRound fine param p blockNum blockSize fail).Runs sent
  (.inl (p.advance param.incrAddrFlag (blockNum * blockSize)))
  (sent ++ [sdioExtendedCmd { param with regAddr := p.curAddr } p.buffer blockNum
   blockSize]) := by
 have run := sdioRwExtended_fine { param with regAddr := p.curAddr } p.buffer blockNum blockSize
  inside sent
 have round := transferRound_runs fail run
 rw [if_neg (not_not.mpr rfl)] at round
 exact round

theorem sendBlocks_endless (request : cntlr.maxReqSize < func.curBlkSize)
 (more : func.curBlkSize < p.remLen) (inside : p.curAddr.toNat < 2 ^ 17)
 (sent : List SdioCmd) :
 ¬(sendBlocks fine func (maxBlkNum cntlr func) param p).Halts sent := by
 have none : maxBlkNum cntlr func = 0 := by
  rw [← UInt32.toNat_inj, maxBlkNum, mmcMin_toNat, mmcMin_toNat, UInt32.toNat_div,
   Nat.div_eq_of_lt (UInt32.lt_iff_toNat_lt.mp request), Nat.zero_min, Nat.zero_min]
  rfl
 have nothing (left : UInt32) :
  mmcMin (left / func.curBlkSize) (maxBlkNum cntlr func) * func.curBlkSize = 0 := by
  have zero : mmcMin (left / func.curBlkSize) 0 = 0 := by
   rw [← UInt32.toNat_inj, mmcMin_toNat, UInt32.toNat_zero, Nat.min_zero]
  rw [none, zero, UInt32.zero_mul]
 refine not_halts_loop (I := fun p _ => func.curBlkSize < p.remLen ∧ p.curAddr.toNat < 2 ^ 17)
  (fun p sent head => ?_) ⟨more, inside⟩
 have round := transferRound_fine param
  (mmcMin (p.remLen / func.curBlkSize) (maxBlkNum cntlr func)) func.curBlkSize
  (fun err => (.error err : Except ℤ Progress)) head.2 sent
 rw [nothing] at round
 have same : func.curBlkSize < (p.advance param.incrAddrFlag 0).remLen ∧
  (p.advance param.incrAddrFlag 0).curAddr.toNat < 2 ^ 17 := by
  rw [Progress.advance, UInt32.sub_zero, UInt32.add_zero, ite_self]
  exact head
 rw [if_pos head.1]
 exact ⟨_, _, round, same⟩

/-- After `first`, commands at low addresses only, and one of them is behind it in the end -/
structure Astray (first : SdioCmd) (p : Progress) (sent : List SdioCmd) : Prop where
 low : p.curAddr.toNat + p.remLen.toNat ≤ 2 ^ 17
 later : ∃ rest, sent = first :: rest ∧ (∀ cmd ∈ rest, cmd.regAddr < 2 ^ 17) ∧
  (rest = [] → 0 < p.remLen.toNat)

theorem transferRound_astray {α : Type} {first : SdioCmd}
 {blockNum blockSize : UInt32} (incr : param.incrAddrFlag = true) (fail : ℤ → α)
 (few : blockNum.toNat < 2 ^ 9) (some_ : 0 < blockNum.toNat * blockSize.toNat)
 (fits : blockNum.toNat * blockSize.toNat ≤ p.remLen.toNat) :
 Spec (Astray first p) (transferRound fine param p blockNum blockSize fail)
  fun r sent => r.elim
   (fun q => Astray first q sent ∧ q.remLen.toNat < p.remLen.toNat) fun _ => False := by
 rintro sent ⟨low, rest, rfl, others, -⟩
 have inside : p.curAddr.toNat < 2 ^ 17 := by omega
 have size : (blockNum * blockSize).toNat = blockNum.toNat * blockSize.toNat := by
  have bound := p.remLen.toNat_lt
  rw [UInt32.toNat_mul]
  exact Nat.mod_eq_of_lt (by omega)
 have left : (p.remLen - blockNum * blockSize).toNat =
  p.remLen.toNat - blockNum.toNat * blockSize.toNat := by
  rw [UInt32.toNat_sub_of_le _ _ (UInt32.le_iff_toNat_le.mpr (by omega)), size]
 have next : (p.curAddr + blockNum * blockSize).toNat =
  p.curAddr.toNat + blockNum.toNat * blockSize.toNat := by
  rw [UInt32.toNat_add, size]
  exact Nat.mod_eq_of_lt (by omega)
 refine ⟨_, _, transferRound_fine param blockNum blockSize fail inside _, ⟨?_, ?_⟩, ?_⟩
 · rw [Progress.advance, if_pos incr, left, next]
   omega
 · refine ⟨_, List.cons_append, fun cmd member => ?_, fun none => ?_⟩
   · rcases List.mem_append.mp member with old | new
     · exact others cmd old
     · obtain rfl := List.mem_singleton.mp new
       rw [regAddr_cmd inside few]
       exact inside
   · exact absurd none (by simp)
 · rw [Progress.advance, left]
   omega

theorem sendBlocks_astray {first : SdioCmd} (checked : Checked cntlr dev func)
 (incr : param.incrAddrFlag = true) (request : func.curBlkSize ≤ cntlr.maxReqSize)
 (p : Progress) :
 Spec (Astray first p) (sendBlocks fine func (maxBlkNum cntlr func) param p)
  fun r sent => ∃ q, r = .ok q ∧ Astray first q sent := by
 refine sendBlocks_spec (J := Astray first) (fun p more => ?_)
  (fun p sent head _ => ⟨p, rfl, head⟩) p
 have bytes := blockBytes_eq cntlr func p.remLen
 have pos := blockBytes_pos checked (UInt32.le_iff_toNat_le.mp request)
  (Nat.le_of_lt (UInt32.lt_iff_toNat_lt.mp more))
 have fits := blockBytes_le cntlr func p.remLen.toNat
 rw [← bytes] at pos fits
 refine (transferRound_astray incr _ (blockNum_lt cntlr func p.remLen) pos fits).weaken
  (fun _ head => head) fun r sent left => ?_
 cases r with
 | inl q => exact left
 | inr a => exact left.elim

theorem remainBytes_astray {first : SdioCmd} (checked : Checked cntlr dev func)
 (incr : param.incrAddrFlag = true) (p : Progress) :
 Spec (Astray first p) (sdioReadWriteRemainBytes fine cntlr func param p)
  fun ret sent => ret = hdfSuccess ∧ ∃ later, sent = first :: later ∧ later ≠ [] ∧
   ∀ cmd ∈ later, cmd.regAddr < 2 ^ 17 := by
 refine remainBytes_spec (J := Astray first) checked.size (fun p more => ?_)
  (fun p sent head none => ?_) p
 · have size := checked.size_pos
   rw [UInt32.lt_iff_toNat_lt, UInt32.toNat_zero] at more
   have length : UInt32.toNat 1 * (mmcMin p.remLen (maxBlkSize cntlr func)).toNat =
    min p.remLen.toNat (maxBlkSize cntlr func).toNat := by
    rw [UInt32.toNat_one, Nat.one_mul, mmcMin_toNat]
   refine (transferRound_astray incr id (by decide) (by omega) (by omega)).weaken
    (fun _ head => head) fun r sent left => ?_
   cases r with
   | inl q => exact left
   | inr a => exact left.elim
 · obtain ⟨-, later, rfl, low, behind⟩ := head
   refine ⟨rfl, later, rfl, fun empty => none ?_, low⟩
   exact UInt32.lt_iff_toNat_lt.mpr (behind empty)

theorem readWriteBlock_astray (checked : Checked cntlr dev func) (plain : info.scatterFlag = false)
 (incr : info.incrAddrFlag = true) (inside : info.addr.toNat < 2 ^ 17)
 (multi : 0 < dev.multiBlock) (large : maxBlkSize cntlr func < info.size)
 (more : func.curBlkSize < info.size) (request : func.curBlkSize ≤ cntlr.maxReqSize)
 (rest : blockBytes cntlr func info.size.toNat < info.size.toNat)
 (wraps : 2 ^ 32 ≤ info.addr.toNat + blockBytes cntlr func info.size.toNat) :
 ∃ first later, (readWriteBlock fine cntlr dev func info).Runs [] hdfSuccess (first :: later) ∧
  first.bytes = blockBytes cntlr func info.size.toNat ∧ later ≠ [] ∧
   ∀ cmd ∈ later, cmd.regAddr < 2 ^ 17 := by
 let param := sdioFillRwExtendedCmdParam func info
 let start : Progress := ⟨info.size, info.addr, info.buf⟩
 let blockNum := mmcMin (info.size / func.curBlkSize) (maxBlkNum cntlr func)
 let first := sdioExtendedCmd { param with regAddr := info.addr } info.buf blockNum func.curBlkSize
 have bytes := blockBytes_eq cntlr func info.size
 have few := blockNum_lt cntlr func info.size
 have firstBytes : first.bytes = blockBytes cntlr func info.size.toNat :=
  (bytes_cmd inside few checked.block_pos).trans bytes
 have size : (blockNum * func.curBlkSize).toNat = blockBytes cntlr func info.size.toNat := by
  have bound := info.size.toNat_lt
  rw [UInt32.toNat_mul, bytes]
  exact Nat.mod_eq_of_lt (by omega)
 have astray : Astray first
  (start.advance param.incrAddrFlag (blockNum * func.curBlkSize)) [first] := by
  have bound := info.size.toNat_lt
  have left : (info.size - blockNum * func.curBlkSize).toNat =
   info.size.toNat - blockBytes cntlr func info.size.toNat := by
   rw [UInt32.toNat_sub_of_le _ _ (UInt32.le_iff_toNat_le.mpr (by omega)), size]
  have next : (info.addr + blockNum * func.curBlkSize).toNat =
   info.addr.toNat + blockBytes cntlr func info.size.toNat - 2 ^ 32 := by
   rw [UInt32.toNat_add, size]
   omega
  refine ⟨?_, [], rfl, fun _ member => absurd member List.not_mem_nil, fun _ => ?_⟩
  · rw [Progress.advance, if_pos (show param.incrAddrFlag = true from incr), next, left]
    omega
  · rw [Progress.advance, left]
    omega
 have round : (transferRound fine param start blockNum func.curBlkSize
  fun err => (.error err : Except ℤ Progress)).Runs []
   (.inl (start.advance param.incrAddrFlag (blockNum * func.curBlkSize))) [first] :=
  transferRound_fine param blockNum func.curBlkSize _ inside []
 have incr' : param.incrAddrFlag = true := incr
 obtain ⟨r, sent, others, q, rfl, blocks⟩ := sendBlocks_astray checked incr' request _ _ astray
 obtain ⟨ret, sent', remain, rfl, later, rfl, some_, low⟩ :=
  remainBytes_astray checked incr' q sent blocks
 refine ⟨first, later, ?_, firstBytes, some_, low⟩
 rw [readWriteBlock_eq fine checked plain, if_pos ⟨multi, large⟩]
 have loop : (sendBlocks fine func (maxBlkNum cntlr func) param start).Runs [] (.ok q) sent := by
  refine (runs_loop _ _ _ _ _).mpr (.inr ⟨_, _, ?_, others⟩)
  rw [if_pos more]
  exact round
 exact (runs_bind _ _ _ _ _).mpr ⟨.ok q, sent, loop, remain⟩

end wrong

section scatter
variable {info : SdioRwBlockInfo} {cntlr : SdioCntlr} {dev : SdioDevice} {func : SdioFunction}

theorem readWriteBlock_scatter (checked : Checked cntlr dev func)
 (scatter : info.scatterFlag = true) :
 readWriteBlock outcomes cntlr dev func info =
  sdioRwExtended outcomes (sdioFillRwExtendedCmdParam func info) info.buf
   (mmcMax 1 (info.size / maxBlkSize cntlr func))
   (mmcMin info.size (maxBlkSize cntlr func)) := by
 rw [readWriteBlock, if_neg checked.size, if_neg (not_or.mpr ⟨checked.block, checked.number⟩),
  scatter, if_pos rfl]

theorem scatter_size_iff {size limit : ℕ} (pos : 0 < limit) :
 max 1 (size / limit) < 2 ^ 9 ∧ max 1 (size / limit) * min size limit = size ↔
  size ≤ limit ∨ limit ∣ size ∧ size / limit ≤ 511 := by
 by_cases small : size ≤ limit
 · have one : max 1 (size / limit) = 1 := by
    have quotient : size / limit ≤ 1 := Nat.div_le_of_le_mul (by omega)
    omega
   rw [one, Nat.min_eq_left small, Nat.one_mul]
   exact iff_of_true ⟨by decide, rfl⟩ (.inl small)
 have some_ : 0 < size / limit := Nat.div_pos (by omega) pos
 have blocks : max 1 (size / limit) = size / limit := by omega
 rw [blocks, Nat.min_eq_right (by omega), or_iff_right small]
 constructor
 · rintro ⟨few, product⟩
   exact ⟨⟨size / limit, by rw [Nat.mul_comm]; exact product.symm⟩, by omega⟩
 · rintro ⟨multiple, few⟩
   exact ⟨by omega, Nat.div_mul_cancel multiple⟩

theorem scatter_moves_iff (checked : Checked cntlr dev func) (scatter : info.scatterFlag = true)
 (inside : info.addr.toNat < 2 ^ 17) :
 Moves info 0 info.size.toNat [sdioExtendedCmd (sdioFillRwExtendedCmdParam func info) info.buf
  (mmcMax 1 (info.size / maxBlkSize cntlr func)) (mmcMin info.size (maxBlkSize cntlr func))] ↔
   ScatterFits cntlr func info.size.toNat := by
 have pos := checked.size_pos
 have number : (mmcMax 1 (info.size / maxBlkSize cntlr func)).toNat =
  max 1 (info.size.toNat / (maxBlkSize cntlr func).toNat) := by
  rw [mmcMax_toNat, UInt32.toNat_div, UInt32.toNat_one]
 have length : (mmcMin info.size (maxBlkSize cntlr func)).toNat =
  min info.size.toNat (maxBlkSize cntlr func).toNat := mmcMin_toNat _ _
 have address : (sdioFillRwExtendedCmdParam func info).regAddr = info.addr := by
  rw [sdioFillRwExtendedCmdParam, scatter, if_pos rfl]
 have inside' : (sdioFillRwExtendedCmdParam func info).regAddr.toNat < 2 ^ 17 := by
  rw [address]
  exact inside
 rw [ScatterFits, ← scatter_size_iff pos, ← number, ← length]
 constructor
 · rintro ⟨right, all⟩
   rw [Moves, Nat.zero_add, right.bytes] at all
   refine ⟨Nat.pos_of_ne_zero fun empty => ?_, right.blockNum, all⟩
   -- a count of 0 asks for 512 bytes
   have one : mmcMax 1 (info.size / maxBlkSize cntlr func) = 1 := by
    rw [← UInt32.toNat_inj, number, empty, Nat.zero_div]
    rfl
   have none : mmcMin info.size (maxBlkSize cntlr func) = 0 := by
    rw [← UInt32.toNat_inj, length, empty, Nat.zero_min]
    rfl
   have bytes := right.bytes
   rw [one, none, bytes_empty inside'] at bytes
   exact absurd bytes (show 512 ≠ UInt32.toNat 1 * UInt32.toNat 0 by decide)
 · rintro ⟨some_, few, product⟩
   have positive : 0 < (mmcMin info.size (maxBlkSize cntlr func)).toNat := by omega
   have bytes : (sdioExtendedCmd (sdioFillRwExtendedCmdParam func info) info.buf _ _).bytes = _ :=
    bytes_cmd inside' few positive
   refine ⟨⟨rfl, ?_, opCode_cmd inside' few, few, bytes, ?_, rfl⟩, ?_⟩
   · rw [regAddr_cmd inside' few, address, SdioRwBlockInfo.address, Nat.add_zero, ite_self]
   · simp [sdioExtendedCmd, sdioFillRwExtendedCmdParam, scatter]
   · rw [Moves, Nat.zero_add, bytes]
     exact product

end scatter

theorem sdioReadWriteBlock_eq {cntlr : SdioCntlr} {dev : SdioDevice} {func : SdioFunction}
 (checked : Checked cntlr dev func) (info : SdioRwBlockInfo) :
 sdioReadWriteBlock outcomes (some cntlr) (some info) =
  readWriteBlock outcomes cntlr dev func info := by
 simp only [sdioReadWriteBlock, checked.curDev, checked.curFunction]

theorem sdioRight_iff {cntlr : SdioCntlr} {dev : SdioDevice} {func : SdioFunction}
    (checked : Checked cntlr dev func) (info : SdioRwBlockInfo) :
    SdioRight cntlr info ↔
      (info.addr.toNat < 2 ^ 17 →
        if info.scatterFlag then ScatterFits cntlr func info.size.toNat
        else BlocksFit cntlr dev func info) := by
  simp only [SdioRight, sdioReadWriteBlock_eq _ checked]
  cases kind : info.scatterFlag with
  | true =>
    rw [if_pos rfl]
    have address : (sdioFillRwExtendedCmdParam func info).regAddr = info.addr := by
      rw [sdioFillRwExtendedCmdParam, kind, if_pos rfl]
    simp only [readWriteBlock_scatter _ checked kind]
    constructor
    · intro right inside
      obtain ⟨ret, sent, run, moves⟩ := right fine
      rw [← address] at inside
      obtain ⟨rfl, rfl⟩ := run.unique (sdioRwExtended_fine _ _ _ _ inside [])
      rw [address] at inside
      exact (scatter_moves_iff checked kind inside).mp (moves rfl)
    · intro fits outcomes
      obtain ⟨err, sent, run, left⟩ := sdioRwExtended_spec outcomes
        (sdioFillRwExtendedCmdParam func info) info.buf
        (mmcMax 1 (info.size / maxBlkSize cntlr func)) (mmcMin info.size (maxBlkSize cntlr func)) []
      refine ⟨err, sent, run, fun ok => ?_⟩
      obtain ⟨inside, rfl⟩ := left ok
      rw [address] at inside
      exact (scatter_moves_iff checked kind inside).mpr (fits inside)
  | false =>
    rw [if_neg Bool.false_ne_true]
    constructor
    · intro right inside multi large more
      obtain ⟨ret, sent, run, moves⟩ := right fine
      have request : func.curBlkSize ≤ cntlr.maxReqSize := by
        by_contra short
        rw [readWriteBlock_eq fine checked kind, if_pos ⟨multi, large⟩] at run
        obtain ⟨r, sent', loop, -⟩ := (runs_bind _ _ _ _ _).mp run
        exact sendBlocks_endless (UInt32.not_le.mp short) more inside [] ⟨r, sent', loop⟩
      refine ⟨request, fun incr rest => ?_⟩
      by_contra wraps
      obtain ⟨first, later, astray, bytes, some_, low⟩ := readWriteBlock_astray checked kind incr
        inside multi large more request rest (Nat.le_of_not_lt wraps)
      obtain ⟨rfl, rfl⟩ := run.unique astray
      obtain ⟨second, others, rfl⟩ := List.exists_cons_of_ne_nil some_
      have place := (moves rfl).2.1.regAddr
      rw [SdioRwBlockInfo.address, if_pos incr, Nat.zero_add, bytes] at place
      have := low second List.mem_cons_self
      omega
    · exact fun fits outcomes => readWriteBlock_moves outcomes checked kind fits

def wifiFunction : SdioFunction := ⟨1, 512, 512⟩

def wifiDevice : SdioDevice := ⟨some wifiFunction, 1⟩

/-- A controller with blocks of up to 512 bytes and requests of up to `maxReqSize` -/
def wifiCntlr (maxReqSize : UInt32) : SdioCntlr := ⟨8, 512, maxReqSize, some wifiDevice⟩

def wifiInfo : SdioRwBlockInfo := ⟨0x1000, 0, 1000, 0, true, true, false⟩

theorem wifiCntlr_checked (maxReqSize : UInt32) :
 Checked (wifiCntlr maxReqSize) wifiDevice wifiFunction where
 curDev := rfl
 curFunction := rfl
 size := by
  change mmcMin (mmcMin 512 512) 512 ≠ 0
  decide
 block := by decide
 number := show (8 : UInt32) ≠ 0 by decide

theorem sdioRight_wifi :
    Checked (wifiCntlr 4096) wifiDevice wifiFunction ∧ SdioRight (wifiCntlr 4096) wifiInfo := by
  refine ⟨wifiCntlr_checked 4096, (sdioRight_iff (wifiCntlr_checked 4096) wifiInfo).mpr fun _ => ?_⟩
  intro _ _ _
  exact ⟨by decide, fun _ _ => by decide⟩

/-- A request of 256 bytes holds none of the blocks of 512. -/
theorem not_sdioRight : ¬∀ cntlr dev func info, Checked cntlr dev func → SdioRight cntlr info := by
  intro right
  have checked := wifiCntlr_checked 256
  obtain ⟨ret, sent, run, -⟩ := right _ _ _ wifiInfo checked fine
  rw [sdioReadWriteBlock_eq fine checked, readWriteBlock_eq fine checked rfl,
    if_pos (by decide)] at run
  obtain ⟨r, sent', loop, -⟩ := (runs_bind _ _ _ _ _).mp run
  exact sendBlocks_endless (by decide) (by decide) (by decide) [] ⟨r, sent', loop⟩

end DriversFramework.Sdio
