import DriversFramework.RunRules

/-! Transfers and interrupts of the DMA core (`dmac_core.c`). A transfer is cut where it waits or
where another transfer or the interrupt handler can see what it did; what the driver and the
allocator return is an input of each step. A controller has all its methods. -/
namespace DriversFramework.Dmac

open RunRules

def dmacChanNumMax : ℕ := 100

def lliNumMax : ℕ := 2048

inductive DmacStatus where
 | success
 | failure
 | errInvalidParam
 | errInvalidObject
 | errMallocFail
 deriving DecidableEq

inductive DmacTransferType where
 | m2m
 | p2m
 | m2p
 /-- Any other value of the field. -/
 | invalid
 deriving DecidableEq

structure DmacMsg where
 srcAddr : ℕ
 destAddr : ℕ
 transType : DmacTransferType
 transLen : ℕ
 deriving DecidableEq

inductive UseStatus where
 | vacancy
 | allocat
 deriving DecidableEq

inductive ChnStatus where
 | success
 | error
 deriving DecidableEq

/-- `done` and `error` are the bits of `waitEvent`, `lli` is `lliCnt` where there is a list. -/
structure DmacChanInfo where
 channel : UInt16
 status : Option ChnStatus
 useStatus : UseStatus
 transType : DmacTransferType
 srcWidth : UInt8
 destWidth : UInt8
 done : Bool
 error : Bool
 lli : Option ℕ
 deriving DecidableEq

inductive Phase where
 /-- Before `chanInfo` is filled. -/
 | requested
 /-- At the head of the loop of `DmacM2mTransfer`, with `leftSize`. -/
 | m2mLoop (leftSize : ℕ)
 | m2mWait (leftSize : ℕ)
 /-- In `DmacPeriphTransfer`. -/
 | periphSetUp
 /-- The call has returned and the hardware is at work. -/
 | periphRun
 deriving DecidableEq

structure Transfer where
 chan : ℕ
 msg : DmacMsg
 phase : Phase
 deriving DecidableEq

/-- A controller with the transfers in progress; they are numbered from 0 on. -/
structure DmaCntlr where
 channelNum : ℕ
 maxTransSize : ℕ
 channelList : ℕ → DmacChanInfo
 transfers : ℕ → Option Transfer
 next : ℕ

def noChanInfo : DmacChanInfo := ⟨0, none, .vacancy, .m2m, 0, 0, false, false, none⟩

/-- As `DmacCntlrAdd` leaves it. -/
def DmaCntlr.start (channelNum maxTransSize : ℕ) : DmaCntlr :=
 ⟨channelNum, maxTransSize, fun _ => noChanInfo, fun _ => none, 0⟩

def dmacCntlrCheck (s : DmaCntlr) : Bool :=
 s.maxTransSize ≠ 0 && s.channelNum ≠ 0 && s.channelNum ≤ dmacChanNumMax

def DmaCntlr.setChan (s : DmaCntlr) (chan : ℕ) (info : DmacChanInfo) : DmaCntlr :=
 { s with channelList := Function.update s.channelList chan info }

def DmaCntlr.setTransfer (s : DmaCntlr) (id : ℕ) (transfer : Option Transfer) : DmaCntlr :=
 { s with transfers := Function.update s.transfers id transfer }

def DmaCntlr.vacant (s : DmaCntlr) : Option ℕ :=
 (List.range s.channelNum).find? fun i => (s.channelList i).useStatus = .vacancy

def dmacAllocateChannel (s : DmaCntlr) : UInt16 × DmaCntlr :=
 match s.vacant with
 | some i => (UInt16.ofNat i, s.setChan i { s.channelList i with useStatus := .allocat })
 | none => (0xffff, s)

def dmacFreeChannel (s : DmaCntlr) (channel : UInt16) : DmaCntlr :=
 s.setChan channel.toNat
  { s.channelList channel.toNat with lli := none, useStatus := .vacancy }

/-- `DmaCntlrTransfer` until a channel is allocated; the channel number is never negative, and
beyond the list of channels the effect is undefined. -/
def dmaCntlrTransfer (s : DmaCntlr) (msg : DmacMsg) : Option (Option DmacStatus × DmaCntlr) :=
 if dmacCntlrCheck s = false then some (some .errInvalidObject, s)
 else if msg.transType = .invalid then some (some .failure, s)
 else
  let chan := dmacAllocateChannel s
  if s.channelNum ≤ chan.1.toNat then none
  else some (none,
   { chan.2.setTransfer s.next (some ⟨chan.1.toNat, msg, .requested⟩) with next := s.next + 1 })

/-- The end of a transfer that frees the channel its `chanInfo` names. -/
def DmaCntlr.leave (s : DmaCntlr) (id : ℕ) (x : Transfer) (status : DmacStatus) :
  Option DmacStatus × DmaCntlr :=
 (some status, (dmacFreeChannel s (s.channelList x.chan).channel).setTransfer id none)

def DmaCntlr.goOn (s : DmaCntlr) (id : ℕ) (x : Transfer) (phase : Phase) :
  Option DmacStatus × DmaCntlr :=
 (none, s.setTransfer id (some { x with phase := phase }))

/-- The rest of `DmacRequestChannel`: `info` are the widths that `getChanInfo` sets, if it works. -/
def dmacRequestChannel (s : DmaCntlr) (id : ℕ) (x : Transfer) (info : Option (UInt8 × UInt8)) :
  Option DmacStatus × DmaCntlr :=
 let chanInfo := { s.channelList x.chan with
  channel := UInt16.ofNat x.chan, transType := x.msg.transType }
 match info with
 | none =>
  (s.setChan x.chan chanInfo).leave id x
   (if x.msg.transType = .m2m then .failure else .errInvalidParam)
 | some (srcWidth, destWidth) =>
  (s.setChan x.chan { chanInfo with srcWidth := srcWidth, destWidth := destWidth }).goOn id x
   (if x.msg.transType = .m2m then .m2mLoop x.msg.transLen else .periphSetUp)

def dmacM2mTransfer (s : DmaCntlr) (id : ℕ) (x : Transfer) (leftSize : ℕ) (enable : DmacStatus) :
  Option DmacStatus × DmaCntlr :=
 if leftSize = 0 then s.leave id x .success
 else if enable ≠ .success then s.leave id x enable
 else s.goOn id x (.m2mWait leftSize)

def dmacWaitM2mSendComplete (s : DmaCntlr) (id : ℕ) (x : Transfer) (leftSize : ℕ) :
  Option DmacStatus × DmaCntlr :=
 let info := s.channelList x.chan
 let s := s.setChan x.chan { info with done := false, error := false }
 if info.done = false then s.leave id x .failure
 else
  s.goOn id x (.m2mLoop (leftSize -
   if leftSize ≥ s.maxTransSize then s.maxTransSize else leftSize))

def dmacAlignedTransMax (maxSize : ℕ) (srcWidth destWidth : UInt8) : ℕ :=
 let maxWidth := if srcWidth ≥ destWidth then srcWidth else destWidth
 if maxWidth = 0 then maxSize else maxSize - maxSize % maxWidth.toNat

/-- `memory` tells whether the list can be allocated. -/
def dmacAllocLli (info : DmacChanInfo) (length maxSize : ℕ) (memory : Bool) :
  DmacStatus × DmacChanInfo :=
 if maxSize = 0 then (.errInvalidParam, info)
 else
  let lliNum := length / maxSize + if length % maxSize > 0 then 1 else 0
  if lliNum > lliNumMax then (.errInvalidParam, info)
  else if memory = false then (.failure, info)
  else (.success, { info with lli := some lliNum })

/-- `dummy` tells whether the dummy buffer can be had. What the list holds is left out. -/
def dmacFillLli (msg : DmacMsg) (info : DmacChanInfo) (maxSize : ℕ) (dummy : Bool) : DmacStatus :=
 if info.lli = none then .errInvalidParam
 else if maxSize = 0 then .errInvalidParam
 else if (msg.srcAddr = 0 ∨ msg.destAddr = 0) ∧ dummy = false then .errMallocFail
 else .success

structure PeriphSteps where
 memory : Bool
 dummy : Bool
 enable : Bool
 deriving DecidableEq

/-- `DmacPeriphTransfer` once it has its channel. -/
def dmacPeriphTransfer (s : DmaCntlr) (id : ℕ) (x : Transfer) (steps : PeriphSteps) :
  Option DmacStatus × DmaCntlr :=
 if x.msg.srcAddr = 0 ∧ x.msg.destAddr = 0 then
  -- this way out does not free the channel
  (some .errInvalidParam, s.setTransfer id none)
 else
  let info := s.channelList x.chan
  let maxSize := dmacAlignedTransMax s.maxTransSize info.srcWidth info.destWidth
  let alloc := dmacAllocLli info x.msg.transLen maxSize steps.memory
  let s := s.setChan x.chan alloc.2
  if alloc.1 ≠ .success then s.leave id x alloc.1
  else if dmacFillLli x.msg alloc.2 maxSize steps.dummy ≠ .success then
   s.leave id x (dmacFillLli x.msg alloc.2 maxSize steps.dummy)
  else if steps.enable = false then s.leave id x .failure
  else (some .success, s.setTransfer id (some { x with phase := .periphRun }))

/-- One round of the loop of `DmacIsr`, for a channel that is done or in error: the waiting
transfer is told, or the callback ends the transfer; and the channel that the entry names is
freed. -/
def dmacIsr (s : DmaCntlr) (i : ℕ) (status : ChnStatus) : DmaCntlr :=
 if dmacCntlrCheck s = false ∨ s.channelNum ≤ i then s
 else
  let info := { s.channelList i with status := some status }
  let s :=
   if info.transType = .m2m then
    s.setChan i { info with
     done := info.done || status ≠ .error, error := info.error || status = .error }
   else
    { s.setChan i info with
      transfers := fun id => (s.transfers id).filter fun x => ¬ (x.chan = i ∧ x.phase = .periphRun) }
  dmacFreeChannel s info.channel

inductive DmacAction where
 | transfer (msg : DmacMsg)
 | request (id : ℕ) (info : Option (UInt8 × UInt8))
 | m2mLoop (id : ℕ) (enable : DmacStatus)
 | m2mWake (id : ℕ)
 | periph (id : ℕ) (steps : PeriphSteps)
 | isr (i : ℕ) (status : ChnStatus)
 deriving DecidableEq

def DmaCntlr.act (s : DmaCntlr) : DmacAction → Option (Option DmacStatus × DmaCntlr)
 | .transfer msg => dmaCntlrTransfer s msg
 | .request id info =>
  match s.transfers id with
  | some ⟨chan, msg, .requested⟩ => some (dmacRequestChannel s id ⟨chan, msg, .requested⟩ info)
  | _ => some (none, s)
 | .m2mLoop id enable =>
  match s.transfers id with
  | some ⟨chan, msg, .m2mLoop left⟩ => some (dmacM2mTransfer s id ⟨chan, msg, .m2mLoop left⟩ left enable)
  | _ => some (none, s)
 | .m2mWake id =>
  match s.transfers id with
  | some ⟨chan, msg, .m2mWait left⟩ =>
   some (dmacWaitM2mSendComplete s id ⟨chan, msg, .m2mWait left⟩ left)
  | _ => some (none, s)
 | .periph id steps =>
  match s.transfers id with
  | some ⟨chan, msg, .periphSetUp⟩ => some (dmacPeriphTransfer s id ⟨chan, msg, .periphSetUp⟩ steps)
  | _ => some (none, s)
 | .isr i status => some (none, dmacIsr s i status)

def DmaCntlr.step (s : DmaCntlr) (a : DmacAction) : Option DmaCntlr := (s.act a).map (·.2)

end DriversFramework.Dmac
