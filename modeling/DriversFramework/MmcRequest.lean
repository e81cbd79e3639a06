import Mathlib.Algebra.Group.Int.Defs
import Mathlib.Algebra.Group.Nat.Defs
import Mathlib.Tactic.ByContra
import Mathlib.Tactic.SplitIfs

/-! `mmc_core.c` and `MmcSendCmd` of `mmc_protocol.c`: a command is tried again while one of the
method's result, the command's `returnError` and the data's `returnError` is an error. A return code
is a number here, since the device's functions return one for a count of sectors as well. -/
namespace DriversFramework.MmcRequest

def hdfSuccess : ℤ := 0
def hdfErrNotSupport : ℤ := -2
def hdfErrInvalidParam : ℤ := -3
def hdfErrInvalidObject : ℤ := -4
def hdfErrMallocFail : ℤ := -6
def hdfPltErrNoDev : ℤ := -105

def mmcRequestRetry : ℕ := 3
def mmcMaxSectorNum : ℕ := 2048

/-- What a call of the controller's `request` method returns, and the two errors in the command
after it. A method that leaves an error as it was counts with what it left. -/
structure Attempt where
 ret : ℤ
 cmdError : ℤ
 dataError : ℤ

def Attempt.Succeeded (a : Attempt) (hasData : Bool) : Prop :=
 a.ret = hdfSuccess ∧ a.cmdError = hdfSuccess ∧ (hasData = true → a.dataError = hdfSuccess)

instance (a : Attempt) (hasData : Bool) : Decidable (a.Succeeded hasData) :=
 inferInstanceAs (Decidable (_ ∧ _ ∧ (_ → _)))

/-- The retry loop: the attempt it ends with, of at most `more + 1` from the `i`-th on -/
def requestLoop (attempts : ℕ → Attempt) (hasData : Bool) (i : ℕ) : ℕ → Attempt
 | 0 => attempts i
 | more + 1 =>
  if (attempts i).Succeeded hasData then attempts i
  else requestLoop attempts hasData (i + 1) more

/-- The result of `MmcCntlrExecRequest`, and the attempt it is taken from -/
def mmcCntlrExecRequest (attempts : ℕ → Attempt) (hasData : Bool) : ℤ × Attempt :=
 let last := requestLoop attempts hasData 0 (mmcRequestRetry - 1)
 (last.ret, last)

/-- The result of `MmcSendCmd`, and the last attempt if there was one. -/
def mmcSendCmd (hasRequest : Bool) (attempts : ℕ → Attempt) (hasData : Bool) (retryTimes : ℕ) :
  ℤ × Option Attempt :=
 if retryTimes = 0 then (hdfErrInvalidParam, none)
 else if hasRequest = false then (hdfErrNotSupport, none)
 else
  let last := requestLoop attempts hasData 0 (retryTimes - 1)
  if hasData = false then (last.cmdError, some last)
  else if last.cmdError ≠ hdfSuccess then (last.cmdError, some last)
  else if last.dataError ≠ hdfSuccess then (last.dataError, some last)
  else (hdfSuccess, some last)

/-- What a chunk of a transfer meets: the state of the controller when it comes to it, what the
message queue makes of its message, and what the method does with its command. -/
structure Chunk where
 detecting : Bool
 curDev : Bool
 hasRequest : Bool
 devPluged : Option Bool
 allocated : Bool
 waited : ℤ
 attempts : ℕ → Attempt

def mmcSendReadWriteBlocks (c : Chunk) : ℤ × Option Attempt :=
 if c.curDev = false then (hdfErrInvalidObject, none)
 else mmcSendCmd c.hasRequest c.attempts true 1

def mmcCntlrPostMsg (c : Chunk) : ℤ × Option Attempt :=
 if c.waited ≠ hdfSuccess then (c.waited, none)
 else (hdfSuccess, some (mmcCntlrExecRequest c.attempts true).2)

def mmcCntlrAddMsgToQueue (c : Chunk) : ℤ × Option Attempt :=
 if c.allocated then mmcCntlrPostMsg c else (hdfErrMallocFail, none)

/-- `devPluged` is none where the controller has no such method. -/
def mmcCntlrAddRequestMsgToQueue (c : Chunk) : ℤ × Option Attempt :=
 if c.devPluged = some true then mmcCntlrAddMsgToQueue c else (hdfPltErrNoDev, none)

def transferChunk (c : Chunk) : ℤ × Option Attempt :=
 if c.detecting then mmcSendReadWriteBlocks c else mmcCntlrAddRequestMsgToQueue c

def ssize (n : ℕ) : ℤ := Int.bmod n (2 ^ 64)

/-- The loop over the chunks, from the `i`-th on with `curSec` sectors to go -/
def transferLoop (chunks : ℕ → Chunk) (nSec : ℕ) (curSec i : ℕ) : ℤ :=
 let sectors := if mmcMaxSectorNum ≤ curSec then mmcMaxSectorNum else curSec
 let ret := (transferChunk (chunks i)).1
 if ret ≠ hdfSuccess then ret
 else if 0 < curSec - sectors then transferLoop chunks nSec (curSec - sectors) (i + 1)
 else ssize nSec
termination_by curSec
decreasing_by
  have hl : 0 < curSec := by omega
  split_ifs
  · exact Nat.sub_lt hl (by decide)
  · omega

def mmcDeviceRead (chunks : ℕ → Chunk) (nSec : UInt64) : ℤ :=
 transferLoop chunks nSec.toNat nSec.toNat 0

def mmcDeviceWrite (chunks : ℕ → Chunk) (nSec : UInt64) : ℤ :=
 transferLoop chunks nSec.toNat nSec.toNat 0

def chunkCount (nSec : ℕ) : ℕ := max 1 ((nSec + (mmcMaxSectorNum - 1)) / mmcMaxSectorNum)

variable {c : Chunk} {chunks : ℕ → Chunk} (attempts : ℕ → Attempt) (hasData : Bool)

theorem requestLoop_succeeded_iff (i more : ℕ) :
  (requestLoop attempts hasData i more).Succeeded hasData ↔
   ∃ j, j < more + 1 ∧ (attempts (i + j)).Succeeded hasData := by
 induction more generalizing i with
 | zero =>
  constructor
  · intro h
    exact ⟨0, by omega, h⟩
  · intro ⟨j, hj, h⟩
    obtain rfl : j = 0 := by omega
    exact h
 | succ more ih =>
  rw [requestLoop]
  split
  · rename_i h
    exact iff_of_true h ⟨0, by omega, h⟩
  · rename_i h
    rw [ih]
    constructor
    · intro ⟨j, hj, hs⟩
      exact ⟨j + 1, by omega, by rwa [← Nat.add_assoc, Nat.add_right_comm]⟩
    · intro ⟨j, hj, hs⟩
      cases j with
      | zero => exact absurd hs h
      | succ j => exact ⟨j, by omega, by rwa [Nat.add_right_comm, Nat.add_assoc]⟩

theorem requestLoop_last {attempts : ℕ → Attempt} {hasData : Bool} {i more : ℕ}
  (h : ∀ j < more + 1, ¬ (attempts (i + j)).Succeeded hasData) :
  requestLoop attempts hasData i more = attempts (i + more) := by
 induction more generalizing i with
 | zero => rfl
 | succ more ih =>
  have h0 : ¬ (attempts i).Succeeded hasData := h 0 (by omega)
  rw [requestLoop, if_neg h0, ih]
  · rw [Nat.add_right_comm, Nat.add_assoc]
  · intro j hj
    rw [Nat.add_right_comm, Nat.add_assoc]
    exact h (j + 1) (by omega)

def Attempt.Masked (a : Attempt) (hasData : Bool) : Prop :=
 a.ret ≠ hdfSuccess ∧ a.cmdError = hdfSuccess ∧ (hasData = true → a.dataError = hdfSuccess)

/-- Success is only reported after an attempt that succeeded. -/
def SendCmdHonest (hasRequest : Bool) (attempts : ℕ → Attempt) (hasData : Bool)
  (retryTimes : ℕ) : Prop :=
 (mmcSendCmd hasRequest attempts hasData retryTimes).1 = hdfSuccess →
  ∃ j < retryTimes, (attempts j).Succeeded hasData

theorem sendCmd_success_iff (more : ℕ) :
  (mmcSendCmd true attempts hasData (more + 1)).1 = hdfSuccess ↔
   (requestLoop attempts hasData 0 more).cmdError = hdfSuccess ∧
    (hasData = true → (requestLoop attempts hasData 0 more).dataError = hdfSuccess) := by
 simp only [mmcSendCmd, Nat.add_one_ne_zero, if_false, Bool.true_eq_false, Nat.add_sub_cancel]
 generalize requestLoop attempts hasData 0 more = last
 cases hasData with
 | false => simp
 | true =>
  simp only [Bool.true_eq_false, if_false, true_implies]
  split_ifs <;> simp_all

/-- Where the last attempt allowed has an error that only the method tells of, one before it has
succeeded. -/
def TellsError (hasRequest : Bool) (attempts : ℕ → Attempt) (hasData : Bool)
  (retryTimes : ℕ) : Prop :=
 hasRequest = true → retryTimes ≠ 0 → (attempts (retryTimes - 1)).Masked hasData →
  ∃ j < retryTimes, (attempts j).Succeeded hasData

theorem sendCmd_honest_iff (hasRequest : Bool) (attempts : ℕ → Attempt) (hasData : Bool)
  (retryTimes : ℕ) :
  SendCmdHonest hasRequest attempts hasData retryTimes ↔
   TellsError hasRequest attempts hasData retryTimes := by
 unfold SendCmdHonest TellsError
 cases retryTimes with
 | zero => simp [mmcSendCmd, hdfErrInvalidParam, hdfSuccess]
 | succ more =>
  cases hasRequest with
  | false => simp [mmcSendCmd, hdfErrNotSupport, hdfSuccess]
  | true =>
   rw [sendCmd_success_iff]
   simp only [Nat.add_sub_cancel, true_implies, ne_eq, Nat.add_one_ne_zero, not_false_eq_true]
   by_cases hs : ∃ j < more + 1, (attempts j).Succeeded hasData
   · simp only [hs, implies_true]
   have hlast : requestLoop attempts hasData 0 more = attempts more := by
    rw [requestLoop_last, Nat.zero_add]
    intro j hj
    rw [Nat.zero_add]
    exact fun h => hs ⟨j, hj, h⟩
   have hret : (attempts more).cmdError = hdfSuccess ∧
     (hasData = true → (attempts more).dataError = hdfSuccess) →
      (attempts more).ret ≠ hdfSuccess :=
    fun h hr => hs ⟨more, Nat.lt_succ_self more, hr, h⟩
   rw [hlast]
   simp only [hs, Attempt.Masked]
   constructor
   · intro h hm
     exact h hm.2
   · intro h hm
     exact h ⟨hret hm, hm⟩

/-- The code a chunk ends with: on the path used while detecting it is the command's or the data's
error, on the queued path it is one of the queue. -/
def Chunk.error (c : Chunk) : ℤ :=
 if c.detecting then
  if c.curDev = false then hdfErrInvalidObject
  else if c.hasRequest = false then hdfErrNotSupport
  else if (c.attempts 0).cmdError ≠ hdfSuccess then (c.attempts 0).cmdError
  else (c.attempts 0).dataError
 else if c.devPluged ≠ some true then hdfPltErrNoDev
 else if c.allocated = false then hdfErrMallocFail
 else c.waited

theorem requestLoop_single (i : ℕ) :
  requestLoop attempts hasData i (1 - 1) = attempts i := rfl

theorem sendReadWriteBlocks_eq (hdev : c.curDev = true) (hreq : c.hasRequest = true) :
  mmcSendReadWriteBlocks c =
   (if (c.attempts 0).cmdError ≠ hdfSuccess then (c.attempts 0).cmdError
    else (c.attempts 0).dataError, some (c.attempts 0)) := by
 unfold mmcSendReadWriteBlocks mmcSendCmd
 rw [if_neg (by simp [hdev]), if_neg (by decide), if_neg (by simp [hreq])]
 simp only [requestLoop_single, Bool.true_eq_false, if_false]
 by_cases hcmd : (c.attempts 0).cmdError = hdfSuccess
 · by_cases hdata : (c.attempts 0).dataError = hdfSuccess <;> simp [hcmd, hdata]
 · simp [hcmd]

theorem transferChunk_error (c : Chunk) : (transferChunk c).1 = c.error := by
 unfold transferChunk Chunk.error
 split
 · by_cases hdev : c.curDev = true
   · by_cases hreq : c.hasRequest = true
     · rw [sendReadWriteBlocks_eq hdev hreq]
       simp [hdev, hreq]
     · simp [mmcSendReadWriteBlocks, mmcSendCmd, hdev, hreq]
   · simp [mmcSendReadWriteBlocks, hdev]
 · unfold mmcCntlrAddRequestMsgToQueue mmcCntlrAddMsgToQueue mmcCntlrPostMsg
   by_cases hplug : c.devPluged = some true
   · by_cases halloc : c.allocated = true
     · by_cases hwait : c.waited = hdfSuccess <;> simp [hplug, halloc, hwait]
     · simp [hplug, halloc]
   · simp [hplug]

def Chunk.Honest (c : Chunk) : Prop := ∃ last, (transferChunk c).2 = some last ∧ last.Succeeded true

def Chunk.Settled (c : Chunk) : Prop :=
 if c.detecting then (c.attempts 0).ret = hdfSuccess
 else ∃ j < mmcRequestRetry, (c.attempts j).Succeeded true

theorem addRequestMsgToQueue_eq (hplug : c.devPluged = some true)
  (halloc : c.allocated = true) (hwait : c.waited = hdfSuccess) :
  mmcCntlrAddRequestMsgToQueue c =
   (hdfSuccess, some (requestLoop c.attempts true 0 (mmcRequestRetry - 1))) := by
 unfold mmcCntlrAddRequestMsgToQueue mmcCntlrAddMsgToQueue mmcCntlrPostMsg
 rw [if_pos hplug, if_pos halloc, if_neg (not_not.mpr hwait)]
 rfl

theorem honest_iff_settled (h : c.error = hdfSuccess) : c.Honest ↔ c.Settled := by
 unfold Chunk.error at h
 unfold Chunk.Honest Chunk.Settled transferChunk
 by_cases hd : c.detecting
 · rw [if_pos hd] at h
   rw [if_pos hd, if_pos hd]
   split_ifs at h with hdev hreq hcmd
   · exact absurd h (by decide)
   · exact absurd h (by decide)
   · exact absurd h hcmd
   · have hcmd := not_not.mp hcmd
     rw [sendReadWriteBlocks_eq (by simpa using hdev) (by simpa using hreq)]
     simp [Attempt.Succeeded, hcmd, h]
 rw [if_neg hd] at h
 rw [if_neg hd, if_neg hd]
 split_ifs at h with hplug halloc
 · exact absurd h (by decide)
 · exact absurd h (by decide)
 · have hloop := requestLoop_succeeded_iff c.attempts true 0 (mmcRequestRetry - 1)
   simp only [Nat.zero_add] at hloop
   rw [addRequestMsgToQueue_eq (not_not.mp hplug) (by simpa using halloc) h]
   simp only [Option.some.injEq, exists_eq_left', hloop]
   rfl

theorem not_honest_of_error (h : c.error ≠ hdfSuccess) : ¬ c.Honest := by
 intro ⟨last, hl, hs⟩
 unfold Chunk.error at h
 unfold transferChunk at hl
 by_cases hd : c.detecting
 · rw [if_pos hd] at h hl
   by_cases hdev : c.curDev = true
   · by_cases hreq : c.hasRequest = true
     · rw [sendReadWriteBlocks_eq hdev hreq] at hl
       injection hl with hl
       subst hl
       simp [hdev, hreq, hs.2.1, hs.2.2 rfl] at h
     · simp [mmcSendReadWriteBlocks, mmcSendCmd, hdev, hreq] at hl
   · simp [mmcSendReadWriteBlocks, hdev] at hl
 · rw [if_neg hd] at h hl
   unfold mmcCntlrAddRequestMsgToQueue mmcCntlrAddMsgToQueue mmcCntlrPostMsg at hl
   by_cases hplug : c.devPluged = some true
   · by_cases halloc : c.allocated = true
     · have hwait : c.waited ≠ hdfSuccess := by simpa [hplug, halloc] using h
       simp [hplug, halloc, hwait] at hl
     · simp [hplug, halloc] at hl
   · simp [hplug] at hl

theorem chunkCount_le {n : ℕ} (h : n ≤ mmcMaxSectorNum) : chunkCount n = 1 := by
 simp only [chunkCount, mmcMaxSectorNum] at h ⊢
 omega

theorem chunkCount_gt {n : ℕ} (h : mmcMaxSectorNum < n) :
  chunkCount n = chunkCount (n - mmcMaxSectorNum) + 1 := by
 simp only [chunkCount, mmcMaxSectorNum] at h ⊢
 omega

theorem transferLoop_eq (chunks : ℕ → Chunk) (nSec curSec i : ℕ) :
  transferLoop chunks nSec curSec i =
   if (chunks i).error ≠ hdfSuccess then (chunks i).error
   else if mmcMaxSectorNum < curSec then
    transferLoop chunks nSec (curSec - mmcMaxSectorNum) (i + 1)
   else ssize nSec := by
 rw [transferLoop, transferChunk_error]
 by_cases hl : mmcMaxSectorNum < curSec
 · simp only [if_pos (Nat.le_of_lt hl), if_pos hl, if_pos (Nat.sub_pos_of_lt hl)]
 · have hz : ¬ 0 < curSec - if mmcMaxSectorNum ≤ curSec then mmcMaxSectorNum else curSec := by
    split_ifs <;> omega
   simp only [if_neg hl, if_neg hz]

theorem transferLoop_all {nSec curSec i : ℕ}
  (h : ∀ k < chunkCount curSec, (chunks (i + k)).error = hdfSuccess) :
  transferLoop chunks nSec curSec i = ssize nSec := by
 induction curSec using Nat.strongRecOn generalizing i with
 | ind curSec ih =>
  have h0 : (chunks i).error = hdfSuccess := h 0 (Nat.le_max_left 1 _)
  rw [transferLoop_eq, if_neg (not_not.mpr h0)]
  split
  · rename_i hl
    apply ih _ (Nat.sub_lt (by omega) (by decide))
    intro k hk
    rw [Nat.add_right_comm, Nat.add_assoc]
    exact h (k + 1) (by rw [chunkCount_gt hl]; omega)
  · rfl

theorem transferLoop_first {nSec curSec i k : ℕ} (hk : k < chunkCount curSec)
  (hbefore : ∀ j < k, (chunks (i + j)).error = hdfSuccess)
  (h : (chunks (i + k)).error ≠ hdfSuccess) :
  transferLoop chunks nSec curSec i = (chunks (i + k)).error := by
 induction k generalizing curSec i with
 | zero =>
  rw [transferLoop_eq]
  exact if_pos h
 | succ k ih =>
  have h0 : (chunks i).error = hdfSuccess := hbefore 0 (Nat.succ_pos k)
  have hl : mmcMaxSectorNum < curSec := by
   by_contra hle
   rw [chunkCount_le (Nat.not_lt.mp hle)] at hk
   omega
  have hshift (j : ℕ) : i + 1 + j = i + (j + 1) := by omega
  rw [transferLoop_eq, if_neg (not_not.mpr h0), if_pos hl, ih, hshift]
  · rw [chunkCount_gt hl] at hk
    omega
  · intro j hj
    rw [hshift]
    exact hbefore (j + 1) (by omega)
  · rwa [hshift]

/-- A transfer that returns its count has done every chunk, the last attempt at each a success. -/
def TransferHonest (chunks : ℕ → Chunk) (nSec : UInt64) (result : ℤ) : Prop :=
 result = ssize nSec.toNat → ∀ i < chunkCount nSec.toNat, (chunks i).Honest

/-- Where all chunks end without an error, the method has succeeded for each; and no error that ends
the transfer is the number of its sectors. -/
structure Tells (chunks : ℕ → Chunk) (nSec : UInt64) : Prop where
 settled : (∀ i < chunkCount nSec.toNat, (chunks i).error = hdfSuccess) →
  ∀ i < chunkCount nSec.toNat, (chunks i).Settled
 noCount : ∀ i < chunkCount nSec.toNat, (∀ j < i, (chunks j).error = hdfSuccess) →
  (chunks i).error ≠ hdfSuccess → (chunks i).error ≠ ssize nSec.toNat

theorem exists_first_error {n : ℕ}
  (h : ¬ ∀ i < n, (chunks i).error = hdfSuccess) :
  ∃ i < n, (∀ j < i, (chunks j).error = hdfSuccess) ∧ (chunks i).error ≠ hdfSuccess := by
 induction n with
 | zero => exact absurd (fun i hi => absurd hi (Nat.not_lt_zero i)) h
 | succ n ih =>
  by_cases hn : ∀ i < n, (chunks i).error = hdfSuccess
  · refine ⟨n, Nat.lt_succ_self n, hn, fun he => h fun i hi => ?_⟩
    cases Nat.lt_succ_iff_lt_or_eq.mp hi with
    | inl hi => exact hn i hi
    | inr hi => rw [hi, he]
  · obtain ⟨i, hi, hf⟩ := ih hn
    exact ⟨i, Nat.lt_succ_of_lt hi, hf⟩

theorem transfer_honest_iff (chunks : ℕ → Chunk) (nSec : UInt64) :
  TransferHonest chunks nSec (transferLoop chunks nSec.toNat nSec.toNat 0) ↔
   Tells chunks nSec := by
 by_cases hall : ∀ i < chunkCount nSec.toNat, (chunks i).error = hdfSuccess
 · have hr := @transferLoop_all chunks nSec.toNat nSec.toNat 0
    fun k hk => by rw [Nat.zero_add]; exact hall k hk
   constructor
   · intro h
     exact ⟨fun _ i hi => (honest_iff_settled (hall i hi)).mp (h hr i hi),
      fun i hi _ hne => absurd (hall i hi) hne⟩
   · intro h _ i hi
     exact (honest_iff_settled (hall i hi)).mpr (h.settled hall i hi)
 obtain ⟨k, hk, hbefore, hne⟩ := exists_first_error hall
 have hr := @transferLoop_first chunks nSec.toNat nSec.toNat 0 k hk
  (fun j hj => by rw [Nat.zero_add]; exact hbefore j hj) (by rwa [Nat.zero_add])
 rw [Nat.zero_add] at hr
 constructor
 · intro h
   refine ⟨fun hset => absurd hset hall, fun i hi hb he hcount => ?_⟩
   have hi' := @transferLoop_first chunks nSec.toNat nSec.toNat 0 i hi
    (fun j hj => by rw [Nat.zero_add]; exact hb j hj) (by rwa [Nat.zero_add])
   rw [Nat.zero_add] at hi'
   exact not_honest_of_error he (h (hi'.trans hcount) i hi)
 · intro h hcount
   exact absurd (hr ▸ hcount) (h.noCount k hk hbefore hne)

theorem requests_honest_iff (hasRequest hasData : Bool) (attempts : ℕ → Attempt) (retryTimes : ℕ)
    (chunks : ℕ → Chunk) (nSec : UInt64) :
    (SendCmdHonest hasRequest attempts hasData retryTimes ↔
        TellsError hasRequest attempts hasData retryTimes) ∧
      (TransferHonest chunks nSec (mmcDeviceRead chunks nSec) ↔ Tells chunks nSec) ∧
      (TransferHonest chunks nSec (mmcDeviceWrite chunks nSec) ↔ Tells chunks nSec) :=
  ⟨sendCmd_honest_iff hasRequest attempts hasData retryTimes, transfer_honest_iff chunks nSec,
    transfer_honest_iff chunks nSec⟩

/-- A card that is plugged and answers no command -/
def silentChunk : Chunk where
 detecting := false
 curDev := true
 hasRequest := true
 devPluged := some true
 allocated := true
 waited := hdfSuccess
 attempts := fun _ => ⟨0, -7, 0⟩

theorem silent_read_counted : mmcDeviceRead (fun _ => silentChunk) 1 = 1 ∧
      ¬ TransferHonest (fun _ => silentChunk) 1 (mmcDeviceRead (fun _ => silentChunk) 1) := by
  have hr : mmcDeviceRead (fun _ => silentChunk) 1 = ssize 1 := by
    apply transferLoop_all
    intro k _
    rfl
  refine ⟨hr.trans (by decide), fun h => ?_⟩
  obtain ⟨last, hl, hs⟩ := h hr 0 (by decide)
  cases hl
  exact absurd hs.2.1 (by decide)

end DriversFramework.MmcRequest
