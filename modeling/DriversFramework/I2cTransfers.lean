import Mathlib.Data.List.Basic
import Mathlib.Data.Int.Notation
import Mathlib.Data.Nat.Notation

/-! I2C transfers of user mode: the messages are sent to the manager of the controllers, which
rebuilds them over memory of its own and sends back what was read. The buffers, the room in them and
the service are there. -/
namespace DriversFramework.I2c

def i2cBusMax : ℕ := 16
def i2cHandleShift : UInt32 := 0xFFFF0000
def i2cFlagRead : UInt16 := 0x0001
def hdfErrNotSupport : ℤ := -2
def hdfErrInvalidParam : ℤ := -3
def hdfErrInvalidObject : ℤ := -4
def hdfErrDeviceBusy : ℤ := -16
def hdfErrIo : ℤ := -17

/-- A message without the place of its buffer, as it is in the array that is sent. -/
structure MsgHead where
 addr : UInt16
 flags : UInt16
 len : ℕ

def MsgHead.isRead (h : MsgHead) : Bool := h.flags &&& i2cFlagRead != 0

structure I2cMsg where
 addr : UInt16
 flags : UInt16
 buf : List UInt8

def I2cMsg.head (m : I2cMsg) : MsgHead := ⟨m.addr, m.flags, m.buf.length⟩
def I2cMsg.isRead (m : I2cMsg) : Bool := m.head.isRead

/-- A message as the method of a controller sees it; `data` is there to be written. -/
structure Request extends MsgHead where
 data : Option (List UInt8)

/-- `stored` is what the method stores from the start of the buffer of each message. -/
structure Reply (σ : Type) where
 ret : ℤ
 stored : List (List UInt8)
 state : σ

structure I2cCntlr (σ : Type) where
 transfer : Option (σ → List Request → Reply σ)
 lock : σ → Bool

/-- The controllers by their bus; `σ` is the state of the devices. -/
abbrev I2cManager (σ : Type) := ℕ → Option (I2cCntlr σ)

section Model
variable {σ : Type} (manager : I2cManager σ)

def i2cManagerFindCntlr (number : Int16) : Option (I2cCntlr σ) :=
 if number < 0 ∨ i2cBusMax ≤ number.toInt then none else manager number.toInt.toNat

def i2cCntlrTransfer (cntlr : Option (I2cCntlr σ)) (s : σ) (msgs : List Request) : Reply σ :=
 match cntlr with
 | none => ⟨hdfErrInvalidObject, [], s⟩
 | some cntlr =>
  match cntlr.transfer with
  | none => ⟨hdfErrNotSupport, [], s⟩
  | some transfer => if !cntlr.lock s then ⟨hdfErrDeviceBusy, [], s⟩ else transfer s msgs

/-- The buffer after the method. -/
def after (buf bytes : List UInt8) : List UInt8 := buf.mapIdx fun i old => bytes[i]?.getD old

/-- The message of a caller in the memory of the controller. -/
def I2cMsg.request (m : I2cMsg) : Request := ⟨m.head, if m.isRead then none else some m.buf⟩

def allAfter : List I2cMsg → List (List UInt8) → List (List UInt8)
 | [], _ => []
 | m :: msgs, stored =>
  (if m.isRead then after m.buf (stored.headD []) else m.buf) :: allAfter msgs stored.tail

/-- The result of a call and the buffers of the messages after it. -/
abbrev Outcome := ℤ × List (List UInt8)

/-- `I2cTransfer` where the controllers are. -/
def i2cTransferDirect (cntlr : Option (I2cCntlr σ)) (s : σ) (msgs : List I2cMsg) : Outcome × σ :=
 if cntlr.isNone then ((hdfErrInvalidObject, msgs.map I2cMsg.buf), s)
 else if msgs.length = 0 then ((hdfErrInvalidParam, msgs.map I2cMsg.buf), s)
 else
  let r := i2cCntlrTransfer cntlr s (msgs.map I2cMsg.request)
  ((r.ret, allAfter msgs r.stored), r.state)

/-- The buffers that `I2cMsgWriteArray` writes behind the array. -/
def i2cMsgWriteArray (msgs : List I2cMsg) : List (List UInt8) :=
 (msgs.filter fun m => !m.isRead).map I2cMsg.buf

/-- A message whose buffer cannot be read keeps the place that it has for its caller. -/
def i2cTransferRebuildMsgs : List MsgHead → List (List UInt8) → List Request
 | [], _ => []
 | h :: heads, bufs =>
  if h.isRead then ⟨h, none⟩ :: i2cTransferRebuildMsgs heads bufs
  else match bufs with
   | [] => ⟨h, none⟩ :: i2cTransferRebuildMsgs heads []
   | buf :: bufs =>
    ⟨{ h with len := buf.length }, some buf⟩ :: i2cTransferRebuildMsgs heads bufs

def i2cTransferWriteBackMsgs : List Request → List (List UInt8) → List (List UInt8)
 | [], _ => []
 | r :: msgs, stored =>
  if r.isRead then
   after (List.replicate r.len 0) (stored.headD []) :: i2cTransferWriteBackMsgs msgs stored.tail
  else i2cTransferWriteBackMsgs msgs stored.tail

def i2cManagerIoTransfer (s : σ) (handle : UInt32) (heads : List MsgHead)
 (bufs : List (List UInt8)) : Outcome × σ :=
 let msgs := i2cTransferRebuildMsgs heads bufs
 let number := (handle - i2cHandleShift).toUInt16.toInt16
 let r := i2cCntlrTransfer (i2cManagerFindCntlr manager number) s msgs
 if r.ret ≠ msgs.length then ((r.ret, []), r.state)
 else ((0, i2cTransferWriteBackMsgs msgs r.stored), r.state)

/-- `memcpy_s` refuses a buffer without room, and clears one that it has nothing to fill with. -/
def i2cMsgReadBack (reply : List (List UInt8)) (m : I2cMsg) :
 Bool × List UInt8 × List (List UInt8) :=
 if !m.isRead then (true, m.buf, reply)
 else match reply with
  | [] => (false, m.buf, [])
  | rBuf :: reply =>
   let rBuf := rBuf.take m.buf.length
   if m.buf.length = 0 then (false, m.buf, reply)
   else if rBuf.length = 0 then (false, List.replicate m.buf.length 0, reply)
   else (true, rBuf ++ m.buf.drop rBuf.length, reply)

def i2cMsgReadArray : List (List UInt8) → List I2cMsg → Bool × List (List UInt8)
 | _, [] => (true, [])
 | reply, m :: msgs =>
  let first := i2cMsgReadBack reply m
  if !first.1 then (false, first.2.1 :: msgs.map I2cMsg.buf)
  else
   let rest := i2cMsgReadArray first.2.2 msgs
   (rest.1, first.2.1 :: rest.2)

def i2cServiceTransfer (s : σ) (handle : UInt32) (msgs : List I2cMsg) : Outcome × σ :=
 let r := i2cManagerIoTransfer manager s handle (msgs.map I2cMsg.head) (i2cMsgWriteArray msgs)
 if r.1.1 ≠ 0 then ((r.1.1, msgs.map I2cMsg.buf), r.2)
 else
  let back := i2cMsgReadArray r.1.2 msgs
  ((if back.1 then (msgs.length : ℤ) else hdfErrIo, back.2), r.2)

/-- `I2cOpen` of user mode with `I2cManagerIoOpen`; no handle is 0. -/
def i2cOpen (number : Int16) : UInt32 :=
 if (i2cManagerFindCntlr manager number).isNone then 0 else number.toUInt16.toUInt32 + i2cHandleShift

/-- `I2cTransfer` of user mode. -/
def i2cTransferUser (s : σ) (handle : UInt32) (msgs : List I2cMsg) : Outcome × σ :=
 if handle = 0 then ((hdfErrInvalidObject, msgs.map I2cMsg.buf), s)
 else if msgs.length = 0 then ((hdfErrInvalidParam, msgs.map I2cMsg.buf), s)
 else i2cServiceTransfer manager s handle msgs

/-- A call of one of the clients, on the bus that it has opened. -/
abbrev Call := Int16 × List I2cMsg

def userCall (s : σ) (call : Call) : Outcome × σ :=
 i2cTransferUser manager s (i2cOpen manager call.1) call.2

def directCall (s : σ) (call : Call) : Outcome × σ :=
 i2cTransferDirect (i2cManagerFindCntlr manager call.1) s call.2

def calls (transfer : σ → Call → Outcome × σ) : σ → List Call → List Outcome × σ
 | s, [] => ([], s)
 | s, call :: rest =>
  let first := transfer s call
  let later := calls transfer first.2 rest
  (first.1 :: later.1, later.2)

/-- Each message that is read has a buffer, and what the method leaves of it was zero. -/
def AllFilled : List I2cMsg → List (List UInt8) → Prop
 | [], _ => True
 | m :: msgs, stored =>
  (m.isRead → m.buf ≠ [] ∧
   ∀ i (h : i < m.buf.length), (stored.headD []).length ≤ i → m.buf[i] = 0) ∧
  AllFilled msgs stored.tail

/-- What a method may answer for user mode to make no difference. -/
def Alike (cntlr : Option (I2cCntlr σ)) (s : σ) (msgs : List I2cMsg) : Prop :=
 let r := i2cCntlrTransfer cntlr s (msgs.map I2cMsg.request)
 cntlr.isNone ∨ msgs.length = 0 ∨
  if r.ret = msgs.length then AllFilled msgs r.stored
  else r.ret ≠ 0 ∧ allAfter msgs r.stored = msgs.map I2cMsg.buf

def AllAlike : σ → List Call → Prop
 | _, [] => True
 | s, call :: rest =>
  Alike (i2cManagerFindCntlr manager call.1) s call.2 ∧ AllAlike (directCall manager s call).2 rest

end Model

variable {σ : Type} {manager : I2cManager σ} {number : Int16} {s : σ}

theorem rebuild_writeArray (msgs : List I2cMsg) :
 i2cTransferRebuildMsgs (msgs.map I2cMsg.head) (i2cMsgWriteArray msgs) =
  msgs.map I2cMsg.request := by
 induction msgs with
 | nil => rfl
 | cons m msgs ih =>
  rw [List.map_cons, List.map_cons, ← ih, i2cMsgWriteArray, List.filter_cons]
  cases read : m.isRead with
  | true =>
   have head : m.head.isRead = true := read
   simp [i2cTransferRebuildMsgs, I2cMsg.request, head, read, i2cMsgWriteArray]
  | false =>
   have head : m.head.isRead = false := read
   simp [i2cTransferRebuildMsgs, I2cMsg.request, head, read, i2cMsgWriteArray]
   rfl

theorem after_length (buf bytes : List UInt8) : (after buf bytes).length = buf.length := by
 simp [after]

theorem after_zero_iff (buf bytes : List UInt8) :
 after (List.replicate buf.length 0) bytes = after buf bytes ↔
  ∀ i (h : i < buf.length), bytes.length ≤ i → buf[i] = 0 := by
 constructor
 · intro same i hi rest
   have at_i := congrArg (fun l => l[i]?) same
   simp [after, hi, List.getElem?_eq_none rest] at at_i
   exact at_i.symm
 · intro zero
   apply List.ext_getElem (by simp [after])
   intro i hi hi'
   have inside : i < buf.length := by simpa [after] using hi'
   by_cases rest : bytes.length ≤ i
   · simp [after, List.getElem?_eq_none rest, zero i inside rest]
   · simp [after, List.getElem?_eq_getElem (Nat.lt_of_not_le rest)]

theorem readArray_writeBack (msgs : List I2cMsg) (stored : List (List UInt8)) :
 i2cMsgReadArray (i2cTransferWriteBackMsgs (msgs.map I2cMsg.request) stored) msgs =
  (true, allAfter msgs stored) ↔ AllFilled msgs stored := by
 induction msgs generalizing stored with
 | nil => simp [i2cMsgReadArray, AllFilled, allAfter]
 | cons m msgs ih =>
  have same : m.request.isRead = m.isRead := rfl
  rw [List.map_cons, i2cTransferWriteBackMsgs, i2cMsgReadArray, allAfter, AllFilled, same,
   ← ih stored.tail]
  unfold i2cMsgReadBack
  cases read : m.isRead with
  | false => simp [Prod.ext_iff]
  | true =>
   have len : m.request.len = m.buf.length := rfl
   by_cases empty : m.buf = []
   · simp [empty]
   · have pos : m.buf.length ≠ 0 := fun no => empty (List.eq_nil_of_length_eq_zero no)
     have item := after_length (List.replicate m.buf.length 0) (stored.headD [])
     rw [List.length_replicate] at item
     simp only [len, ite_true, Bool.not_true, Bool.false_eq_true, if_false, pos, Prod.ext_iff,
      List.take_of_length_le (Nat.le_of_eq item), item, List.drop_length, List.append_nil, List.cons.injEq,
      after_zero_iff, forall_true_left, empty, ne_eq, not_false_eq_true, true_and]
     tauto

theorem i2cOpen_number (found : (i2cManagerFindCntlr manager number).isSome) :
 i2cOpen manager number ≠ 0 ∧
  (i2cOpen manager number - i2cHandleShift).toUInt16.toInt16 = number := by
 have here : i2cOpen manager number = number.toUInt16.toUInt32 + i2cHandleShift := by
  rw [i2cOpen, if_neg (by simpa [Option.isSome_iff_ne_none] using found)]
 rw [here]
 constructor
 · intro zero
   have small := number.toUInt16.toNat_lt
   have sum := congrArg UInt32.toNat zero
   simp [i2cHandleShift] at sum
   omega
 · simp

theorem serviceTransfer_alike (manager : I2cManager σ) {handle : UInt32} {msgs : List I2cMsg}
 (back : (handle - i2cHandleShift).toUInt16.toInt16 = number) (some : msgs.length ≠ 0) :
 let r := i2cCntlrTransfer (i2cManagerFindCntlr manager number) s (msgs.map I2cMsg.request)
 let user := i2cServiceTransfer manager s handle msgs
 user.2 = r.state ∧ (user.1 = (r.ret, allAfter msgs r.stored) ↔
  if r.ret = msgs.length then AllFilled msgs r.stored
  else r.ret ≠ 0 ∧ allAfter msgs r.stored = msgs.map I2cMsg.buf) := by
 intro r user
 have server : i2cManagerIoTransfer manager s handle (msgs.map I2cMsg.head)
   (i2cMsgWriteArray msgs) = if r.ret ≠ msgs.length then ((r.ret, []), r.state)
    else ((0, i2cTransferWriteBackMsgs (msgs.map I2cMsg.request) r.stored), r.state) := by
  rw [i2cManagerIoTransfer, rebuild_writeArray, back, List.length_map]
 by_cases count : r.ret = msgs.length
 · rw [if_neg (not_not_intro count)] at server
   simp only [user, i2cServiceTransfer, server, if_pos count, ← readArray_writeBack]
   generalize i2cMsgReadArray _ msgs = read
   obtain ⟨_ | _, bufs⟩ := read
   · simp [count, hdfErrIo, Prod.ext_iff]
   · simp [count, Prod.ext_iff]
 · rw [if_pos count] at server
   simp only [user, i2cServiceTransfer, server, if_neg count]
   by_cases zero : r.ret = 0
   · simp only [zero, ne_eq, not_true, if_false, hdfErrIo, Prod.ext_iff]
     refine ⟨trivial, iff_of_false (fun no => ?_) fun no => no.1⟩
     have ret := no.1
     split at ret
     · exact some (Int.natCast_eq_zero.mp ret)
     · omega
   · simp [zero, Prod.ext_iff, eq_comm]

theorem userCall_alike (manager : I2cManager σ) (s : σ) (call : Call) :
 (userCall manager s call).2 = (directCall manager s call).2 ∧
  ((userCall manager s call).1 = (directCall manager s call).1 ↔
   Alike (i2cManagerFindCntlr manager call.1) s call.2) := by
 obtain ⟨number, msgs⟩ := call
 unfold userCall directCall
 by_cases found : (i2cManagerFindCntlr manager number).isSome
 · obtain ⟨handle, back⟩ := i2cOpen_number found
   have here : ¬ i2cManagerFindCntlr manager number = none := by
    simpa [Option.isSome_iff_ne_none] using found
   by_cases empty : msgs.length = 0
   · simp [i2cTransferUser, i2cTransferDirect, Alike, empty, handle, here]
   · have one := serviceTransfer_alike manager (s := s) back empty
     simpa [i2cTransferUser, i2cTransferDirect, Alike, empty, handle, here] using one
 · have zero : i2cOpen manager number = 0 := if_pos (by simpa using found)
   have missing : i2cManagerFindCntlr manager number = none := by simpa using found
   simp [i2cTransferUser, i2cTransferDirect, Alike, zero, missing]

end DriversFramework.I2c
