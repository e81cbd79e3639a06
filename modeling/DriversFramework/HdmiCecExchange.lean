import DriversFramework.HdmiCecFrames
import DriversFramework.RunRules

/-! `HdmiCecReceivedMsg` with its handlers, and two controllers that deliver each other what they
send. -/
namespace DriversFramework.HdmiCec

/-- `cec` is the capability; `cecMsgSend` says whether the controller has the operation. -/
structure HdmiCntlr where
 cec : Bool
 cecMsgSend : Bool
 info : HdmiCecInfo
 deriving DecidableEq

namespace AbortReason

abbrev unrecognizedOpcode : UInt8 := 0
abbrev refused : UInt8 := 4

end AbortReason

abbrev pureCecSwitch : UInt8 := 6

abbrev vendorIdUnknown : UInt32 := 0xffffffff

def hdmiCecLogAddrValid (c : HdmiCntlr) (logAddr : UInt8) : Bool :=
 c.info.logAddr.toNat &&& (1 <<< logAddr.toNat) != 0

def hdmiCecIsCdcOnlyDevice (c : HdmiCntlr) : Bool :=
 c.info.logAddr == unregisteredOrBroadcast && c.info.primaryDeviceType == pureCecSwitch

/-- `HdmiCecSendMsg`; `ok` says whether the controller's operation succeeds. -/
def hdmiCecSendMsg (c : HdmiCntlr) (msg : HdmiCecMsg) (ok : Bool) : Option HdmiCecMsg :=
 if c.cecMsgSend = false then none
 else
  let msg := if msg.response = true then { msg with timeout := 1000 } else msg
  if ok then some msg else none

def hdmiCecMsgIgnore (opcode : UInt8) (unregistered broadcast : Bool) : Bool :=
 if opcode = Opcode.getCecVersion ∨ opcode = Opcode.abort ∨
   opcode = Opcode.giveDevicePowerStatus ∨ opcode = Opcode.giveOsdName then
  unregistered || broadcast
 else if opcode = Opcode.giveDeviceVendorId ∨ opcode = Opcode.giveFeatures ∨
   opcode = Opcode.givePhysicalAddress then
  broadcast
 else if opcode = Opcode.userControlPressed ∨ opcode = Opcode.userControlReleased then
  unregistered || broadcast
 else if opcode = Opcode.reportPhysicalAddress then !broadcast
 else false

/-- A handler gives the message that it hands to `HdmiCecSendMsg`, if it does. -/
abbrev HdmiCecHandleMsgFunc := HdmiCntlr → HdmiCecMsg → HdmiCecMsg → Option HdmiCecMsg

def hdmiCecHandleReportPhyAddressMsg : HdmiCecHandleMsgFunc := fun _ _ _ => none

def hdmiCecHandleUserControlPrtessedMsg : HdmiCecHandleMsgFunc := fun _ _ _ => none

def hdmiCecHandleUserControlReleasedMsg : HdmiCecHandleMsgFunc := fun _ _ _ => none

def hdmiCecHandleGetCecVersionMsg : HdmiCecHandleMsgFunc := fun c _ txMsg =>
 some (hdmiCecEncodingCecVersionMsg c.info.cecVersion txMsg)

def hdmiCecHandleGivePhyAddressMsg : HdmiCecHandleMsgFunc := fun c msg txMsg =>
 if c.info.primaryDeviceType = pureCecSwitch ∧
   hdmiCecGetMsgDestination msg = unregisteredOrBroadcast then none
 else some (hdmiCecEncodingReportPhyAddressMsg c.info.phyAddr c.info.primaryDeviceType txMsg)

def hdmiCecHandleGiveDeviceVendorIdMsg : HdmiCecHandleMsgFunc := fun c msg txMsg =>
 if c.info.vendorId = vendorIdUnknown then
  some (hdmiCecEncodingFeatureAbortMsg msg.opcode AbortReason.unrecognizedOpcode txMsg)
 else some (hdmiCecEncodingDeviceVendorIdMsg c.info.vendorId txMsg)

def hdmiCecHandleAbortMsg : HdmiCecHandleMsgFunc := fun c msg txMsg =>
 if c.info.primaryDeviceType = pureCecSwitch then none
 else some (hdmiCecEncodingFeatureAbortMsg msg.opcode AbortReason.refused txMsg)

def hdmiCecHandleGiveOsdNameMsg : HdmiCecHandleMsgFunc := fun c msg txMsg =>
 if c.info.osdName[0] = 0 then
  some (hdmiCecEncodingFeatureAbortMsg msg.opcode AbortReason.unrecognizedOpcode txMsg)
 else
  some (hdmiCecEncodingSetOsdNameMsg (fun i => c.info.osdName.getD i 0) c.info.osdNameLen.toNat
   txMsg)

def hdmiCecHandleGiveFeaturesMsg : HdmiCecHandleMsgFunc := fun c msg txMsg =>
 if c.info.cecVersion < hdmiCecVersion20 then
  some (hdmiCecEncodingFeatureAbortMsg msg.opcode AbortReason.unrecognizedOpcode txMsg)
 else some (hdmiCecEncodingReportFeaturesMsg c.info txMsg)

def isResponse (c : HdmiCntlr) (opcode : UInt8) : Bool :=
 c.info.isWaitingResponse && c.info.response == opcode

/-- `HdmiCecMsgDefaultHandle`, which answers a Feature Abort and nothing else -/
def hdmiCecMsgDefaultHandle : HdmiCecHandleMsgFunc := fun c msg txMsg =>
 if hdmiCecIsBroadcastMsg msg = true ∨ isResponse c msg.opcode = true then none
 else if msg.opcode ≠ Opcode.featureAbort then none
 else some (hdmiCecEncodingFeatureAbortMsg msg.opcode AbortReason.unrecognizedOpcode txMsg)

def funcMap : List (UInt8 × HdmiCecHandleMsgFunc) := [
 (Opcode.getCecVersion, hdmiCecHandleGetCecVersionMsg),
 (Opcode.reportPhysicalAddress, hdmiCecHandleReportPhyAddressMsg),
 (Opcode.userControlPressed, hdmiCecHandleUserControlPrtessedMsg),
 (Opcode.userControlReleased, hdmiCecHandleUserControlReleasedMsg),
 (Opcode.givePhysicalAddress, hdmiCecHandleGivePhyAddressMsg),
 (Opcode.giveDeviceVendorId, hdmiCecHandleGiveDeviceVendorIdMsg),
 (Opcode.abort, hdmiCecHandleAbortMsg),
 (Opcode.giveOsdName, hdmiCecHandleGiveOsdNameMsg),
 (Opcode.giveFeatures, hdmiCecHandleGiveFeaturesMsg)]

def hdmiCecMsgHandle (c : HdmiCntlr) (msg txMsg : HdmiCecMsg) (opcode : UInt8) :
  Option HdmiCecMsg :=
 match funcMap.find? fun entry => opcode == entry.1 with
 | some entry => entry.2 c msg txMsg
 | none => hdmiCecMsgDefaultHandle c msg txMsg

def hdmiCecUpdateResponseFlag (c : HdmiCntlr) (opcode : UInt8) : HdmiCntlr :=
 if isResponse c opcode = true then
  { c with info := { c.info with isWaitingResponse := false, response := 0 } }
 else c

def hdmiCecReceivedMsgHandle (c : HdmiCntlr) (msg : HdmiCecMsg) (ok : Bool) :
  HdmiCntlr × Option HdmiCecMsg :=
 let opcode := msg.opcode
 let broadcast := hdmiCecIsBroadcastMsg msg
 let unregistered := hdmiCecGetMsgInitiator msg == unregisteredOrBroadcast
 if hdmiCecMsgIgnore opcode unregistered broadcast = true then
  (hdmiCecUpdateResponseFlag c opcode, none)
 else
  let txMsg := hdmiCecFillMsgHeader {} msg
  (hdmiCecUpdateResponseFlag c opcode,
   (hdmiCecMsgHandle c msg txMsg opcode).bind fun tx => hdmiCecSendMsg c tx ok)

def hdmiCecReceivedMsg (c : HdmiCntlr) (msg : HdmiCecMsg) (ok : Bool) :
  HdmiCntlr × Option HdmiCecMsg :=
 if c.cec = false then (c, none)
 else if msg.len < 2 then (c, none)
 else
  let initiator := hdmiCecGetMsgInitiator msg
  let destination := hdmiCecGetMsgDestination msg
  let opcode := msg.opcode
  if initiator ≠ unregisteredOrBroadcast ∧ hdmiCecLogAddrValid c initiator = true then (c, none)
  else if hdmiCecIsBroadcastMsg msg = false ∧ hdmiCecLogAddrValid c destination = false then
   (c, none)
  else if c.info.logAddrMask = 0 then (c, none)
  else if hdmiCecIsCdcOnlyDevice c = true ∧ opcode ≠ Opcode.cdcMessage then (c, none)
  else if hdmiCecCheckMsgLen c.info.cecVersion msg opcode = false then (c, none)
  else hdmiCecReceivedMsgHandle c msg ok

structure Pair where
 left : HdmiCntlr
 right : HdmiCntlr
 flying : List (Bool × HdmiCecMsg)
 sent : ℕ := 0

/-- The frame number `k` on the way is delivered; `ok` says whether the answer can be sent. -/
structure Delivery where
 k : ℕ
 ok : Bool

def step (s : Pair) (d : Delivery) : Option Pair :=
 match s.flying[d.k]? with
 | none => none
 | some (true, msg) =>
  let (left, reply) := hdmiCecReceivedMsg s.left msg d.ok
  some { s with
   left
   flying := s.flying.eraseIdx d.k ++ (reply.map fun r => (false, r)).toList
   sent := s.sent + reply.toList.length }
 | some (false, msg) =>
  let (right, reply) := hdmiCecReceivedMsg s.right msg d.ok
  some { s with
   right
   flying := s.flying.eraseIdx d.k ++ (reply.map fun r => (true, r)).toList
   sent := s.sent + reply.toList.length }

/-- The left controller receives a frame. -/
def start (left right : HdmiCntlr) (msg : HdmiCecMsg) : Pair :=
 { left, right, flying := [(true, msg)] }

/-- The number of frames that are sent in reaction is finite. -/
def Terminates (s : Pair) : Prop :=
 ∃ n, ∀ (ds : List Delivery) (t : Pair), RunRules.exec step s ds = some t → t.sent ≤ n

/-- No delivery of a Feature Abort makes a controller send a frame. -/
def AbortsQuiet (s : Pair) : Prop :=
 ∀ (ds : List Delivery) (t u : Pair) (d : Delivery) (toLeft : Bool) (msg : HdmiCecMsg),
  RunRules.exec step s ds = some t → t.flying[d.k]? = some (toLeft, msg) →
   msg.opcode = Opcode.featureAbort → step t d = some u → u.sent = t.sent

def Accepts (c : HdmiCntlr) (msg : HdmiCecMsg) : Prop :=
 c.cec = true ∧ 2 ≤ msg.len ∧
  (hdmiCecGetMsgInitiator msg = unregisteredOrBroadcast ∨
   hdmiCecLogAddrValid c (hdmiCecGetMsgInitiator msg) = false) ∧
  (hdmiCecIsBroadcastMsg msg = true ∨
   hdmiCecLogAddrValid c (hdmiCecGetMsgDestination msg) = true) ∧
  c.info.logAddrMask ≠ 0 ∧
  (hdmiCecIsCdcOnlyDevice c = false ∨ msg.opcode = Opcode.cdcMessage) ∧
  hdmiCecCheckMsgLen c.info.cecVersion msg msg.opcode = true

instance (c : HdmiCntlr) (msg : HdmiCecMsg) : Decidable (Accepts c msg) := by
 unfold Accepts
 infer_instance

/-- A controller with means to send answers every directed Feature Abort with these addresses: it
takes what they send and does not wait for a Feature Abort. -/
def OpenToAborts (c : HdmiCntlr) (initiator destination : UInt8) : Prop :=
 c.cec = true ∧ c.cecMsgSend = true ∧ c.info.logAddrMask ≠ 0 ∧ hdmiCecIsCdcOnlyDevice c = false ∧
  isResponse c Opcode.featureAbort = false ∧
  (initiator = unregisteredOrBroadcast ∨ hdmiCecLogAddrValid c initiator = false) ∧
  destination ≠ unregisteredOrBroadcast ∧ hdmiCecLogAddrValid c destination = true

/-- The message is a whole Feature Abort that the controller answers. -/
def AnswersAbort (c : HdmiCntlr) (msg : HdmiCecMsg) : Prop :=
 msg.opcode = Opcode.featureAbort ∧ getMsgLen 2 ≤ msg.len ∧
  OpenToAborts c (hdmiCecGetMsgInitiator msg) (hdmiCecGetMsgDestination msg)

/-- The controller takes a request that it has to answer with a Feature Abort. -/
def AbortsRequest (c : HdmiCntlr) (msg : HdmiCecMsg) : Prop :=
 Accepts c msg ∧ c.cecMsgSend = true ∧
  hdmiCecMsgIgnore msg.opcode (hdmiCecGetMsgInitiator msg == unregisteredOrBroadcast)
   (hdmiCecIsBroadcastMsg msg) = false ∧
  (msg.opcode = Opcode.abort ∧ c.info.primaryDeviceType ≠ pureCecSwitch ∨
   msg.opcode = Opcode.giveDeviceVendorId ∧ c.info.vendorId = vendorIdUnknown ∨
   msg.opcode = Opcode.giveOsdName ∧ c.info.osdName[0] = 0 ∨
   msg.opcode = Opcode.giveFeatures ∧ c.info.cecVersion < hdmiCecVersion20)

def abortOf (msg : HdmiCecMsg) (reason : UInt8) : HdmiCecMsg :=
 hdmiCecEncodingFeatureAbortMsg msg.opcode reason (hdmiCecFillMsgHeader {} msg)

def afterChecks {α : Type} (c : HdmiCntlr) (msg : HdmiCecMsg)
  (cec len initiator destination mask cdc check done : α) : α :=
 if c.cec = false then cec
 else if msg.len < 2 then len
 else if hdmiCecGetMsgInitiator msg ≠ unregisteredOrBroadcast ∧
   hdmiCecLogAddrValid c (hdmiCecGetMsgInitiator msg) = true then initiator
 else if hdmiCecIsBroadcastMsg msg = false ∧
   hdmiCecLogAddrValid c (hdmiCecGetMsgDestination msg) = false then destination
 else if c.info.logAddrMask = 0 then mask
 else if hdmiCecIsCdcOnlyDevice c = true ∧ msg.opcode ≠ Opcode.cdcMessage then cdc
 else if hdmiCecCheckMsgLen c.info.cecVersion msg msg.opcode = false then check
 else done

section checks
variable {α : Type} {c : HdmiCntlr} {msg : HdmiCecMsg}

theorem afterChecks_of_accepts (h : Accepts c msg)
  (cec len initiator destination mask cdc check done : α) :
  afterChecks c msg cec len initiator destination mask cdc check done = done := by
 obtain ⟨hcec, hlen, hinit, hdest, hmask, hcdc, hcheck⟩ := h
 unfold afterChecks
 rw [if_neg (by simp [hcec]), if_neg (Nat.not_lt.mpr hlen), if_neg, if_neg, if_neg hmask, if_neg,
  if_neg (by simp [hcheck])]
 · rintro ⟨hcdc', hop⟩
   rcases hcdc with hcdc | hcdc
   · simp [hcdc] at hcdc'
   · exact hop hcdc
 · rintro ⟨hdir, hdest'⟩
   rcases hdest with hdest | hdest
   · simp [hdest] at hdir
   · simp [hdest] at hdest'
 · rintro ⟨hreg, hinit'⟩
   rcases hinit with hinit | hinit
   · exact hreg hinit
   · simp [hinit] at hinit'

theorem afterChecks_of_not_accepts (h : ¬ Accepts c msg)
  (cec len initiator destination mask cdc check done : α) :
  afterChecks c msg cec len initiator destination mask cdc check done ∈
   [cec, len, initiator, destination, mask, cdc, check] := by
 unfold afterChecks
 split_ifs with hcec hlen hinit hdest hmask hcdc hcheck
 all_goals simp only [List.mem_cons, true_or, or_true]
 refine absurd
  ⟨by simpa using hcec, Nat.not_lt.mp hlen, ?_, ?_, hmask, ?_, by simpa using hcheck⟩ h
 · rw [not_and] at hinit
   by_cases hreg : hdmiCecGetMsgInitiator msg = unregisteredOrBroadcast
   · exact .inl hreg
   · exact .inr (by simpa using hinit hreg)
 · rw [not_and] at hdest
   cases hb : hdmiCecIsBroadcastMsg msg with
   | true => exact .inl rfl
   | false => exact .inr (by simpa using hdest hb)
 · rw [not_and] at hcdc
   cases hc : hdmiCecIsCdcOnlyDevice c with
   | false => exact .inl rfl
   | true => exact .inr (by simpa using hcdc hc)

theorem hdmiCecReceivedMsg_of_accepts (h : Accepts c msg) (ok : Bool) :
  hdmiCecReceivedMsg c msg ok = hdmiCecReceivedMsgHandle c msg ok :=
 afterChecks_of_accepts h _ _ _ _ _ _ _ _

theorem hdmiCecReceivedMsg_of_not_accepts (h : ¬ Accepts c msg) (ok : Bool) :
  hdmiCecReceivedMsg c msg ok = (c, none) := by
 have refused := afterChecks_of_not_accepts h (c, none) (c, none) (c, none) (c, none) (c, none)
  (c, none) (c, none) (hdmiCecReceivedMsgHandle c msg ok)
 simp only [List.mem_cons, List.not_mem_nil, or_false, or_self] at refused
 exact refused

end checks

theorem isBroadcastMsg_eq (msg : HdmiCecMsg) :
  hdmiCecIsBroadcastMsg msg = (hdmiCecGetMsgDestination msg == unregisteredOrBroadcast) := rfl

theorem checkMsgLen_featureAbort (cecVersion : UInt8) (msg : HdmiCecMsg) :
  hdmiCecCheckMsgLen cecVersion msg Opcode.featureAbort = true ↔
   getMsgLen 2 ≤ msg.len ∧ hdmiCecIsBroadcastMsg msg = false := by
 have hentry : hdmiCecGetMsgLenInfo Opcode.featureAbort =
   some ⟨Opcode.featureAbort, getMsgLen 2, MsgType.directed⟩ := rfl
 have htype : MsgType.directed &&& MsgType.broadcast = 0 := by decide
 have hspecial : hdmiCecCheckSomeSpecialfMsgLen msg Opcode.featureAbort = true := rfl
 unfold hdmiCecCheckMsgLen
 rw [hentry]
 simp only [htype, hspecial]
 cases hdmiCecIsBroadcastMsg msg with
 | true => simp
 | false => simp

theorem answersAbort_iff (c : HdmiCntlr) (msg : HdmiCecMsg) :
  AnswersAbort c msg ↔ msg.opcode = Opcode.featureAbort ∧ Accepts c msg ∧
   isResponse c Opcode.featureAbort = false ∧ c.cecMsgSend = true := by
 unfold AnswersAbort OpenToAborts Accepts
 rw [isBroadcastMsg_eq]
 constructor
 · rintro ⟨hop, hlen, hcec, hmeans, hmask, hcdc, hwait, hinit, hdir, hdest⟩
   have hcheck := (checkMsgLen_featureAbort c.info.cecVersion msg).mpr
    ⟨hlen, by rw [isBroadcastMsg_eq]; simpa using hdir⟩
   rw [← hop] at hcheck
   exact ⟨hop, ⟨hcec, Nat.le_trans (by decide) hlen, hinit, .inr hdest, hmask, .inl hcdc, hcheck⟩,
    hwait, hmeans⟩
 · rintro ⟨hop, ⟨hcec, -, hinit, hdest, hmask, hcdc, hcheck⟩, hwait, hmeans⟩
   rw [hop] at hcheck hcdc
   obtain ⟨hlen, hdir⟩ := (checkMsgLen_featureAbort _ _).mp hcheck
   rw [isBroadcastMsg_eq] at hdir
   refine ⟨hop, hlen, hcec, hmeans, hmask, hcdc.resolve_right (by decide), hwait, hinit,
    by simpa using hdir, hdest.resolve_left (by simp [hdir])⟩

def reply (c : HdmiCntlr) (msg : HdmiCecMsg) (ok : Bool) : Option HdmiCecMsg :=
 (hdmiCecReceivedMsg c msg ok).2

def swapped (b : UInt8) : UInt8 := ((b &&& 0x0f) <<< 4) ||| ((b &&& 0xf0) >>> 4)

theorem fillMsgHeader_eq_fresh (msg : HdmiCecMsg) :
  hdmiCecFillMsgHeader {} msg = fresh (swapped msg.header) := rfl

variable {msg : HdmiCecMsg} {c : HdmiCntlr} {r : HdmiCecMsg}

variable {tx : HdmiCecMsg} {ok : Bool}

theorem reply_eq_some (h : reply c msg ok = some r) :
  Accepts c msg ∧ c.cecMsgSend = true ∧ ok = true ∧
   hdmiCecMsgIgnore msg.opcode (hdmiCecGetMsgInitiator msg == unregisteredOrBroadcast)
    (hdmiCecIsBroadcastMsg msg) = false ∧
   ∃ tx, hdmiCecMsgHandle c msg (hdmiCecFillMsgHeader {} msg) msg.opcode = some tx ∧
    hdmiCecSendMsg c tx true = some r := by
 by_cases hacc : Accepts c msg
 · unfold reply at h
   rw [hdmiCecReceivedMsg_of_accepts hacc] at h
   unfold hdmiCecReceivedMsgHandle at h
   simp only at h
   split at h
   · cases h
   · next hign =>
     obtain ⟨tx, htx, hsend⟩ := Option.bind_eq_some_iff.mp h
     have hsend' := hsend
     unfold hdmiCecSendMsg at hsend'
     obtain ⟨hmeans, hok⟩ := Option.ite_none_left_eq_some.mp hsend'
     obtain ⟨rfl, -⟩ := Option.ite_none_right_eq_some.mp hok
     exact ⟨hacc, by simpa using hmeans, rfl, by simpa using hign, tx, htx, hsend⟩
 · unfold reply at h
   rw [hdmiCecReceivedMsg_of_not_accepts hacc] at h
   cases h

theorem reply_of_handle (hacc : Accepts c msg) (hmeans : c.cecMsgSend = true)
  (hign : hdmiCecMsgIgnore msg.opcode (hdmiCecGetMsgInitiator msg == unregisteredOrBroadcast)
   (hdmiCecIsBroadcastMsg msg) = false)
  (htx : hdmiCecMsgHandle c msg (hdmiCecFillMsgHeader {} msg) msg.opcode = some tx)
  (hresp : tx.response = false) : reply c msg true = some tx := by
 unfold reply
 rw [hdmiCecReceivedMsg_of_accepts hacc]
 unfold hdmiCecReceivedMsgHandle
 simp only
 rw [if_neg (by simp [hign]), htx]
 simp [hdmiCecSendMsg, hmeans, hresp]

def answerCodes : List UInt8 :=
 [Opcode.cecVersion, Opcode.reportPhysicalAddress, Opcode.deviceVendorId, Opcode.setOsdName,
  Opcode.reportFeatures]

theorem handle_answerCode {txMsg : HdmiCecMsg}
  (h : msg.opcode ∈ answerCodes) : hdmiCecMsgHandle c msg txMsg msg.opcode = none := by
 have hdefault (hne : msg.opcode ≠ Opcode.featureAbort) :
   hdmiCecMsgDefaultHandle c msg txMsg = none := by
  unfold hdmiCecMsgDefaultHandle
  simp [hne]
 simp only [answerCodes, List.mem_cons, List.not_mem_nil, or_false] at h
 rcases h with h | h | h | h | h
 all_goals
  have := hdefault (by rw [h]; decide)
  rw [h]
  first | exact this | rfl

theorem find_cons (opcode code : UInt8) (func : HdmiCecHandleMsgFunc)
  (rest : List (UInt8 × HdmiCecHandleMsgFunc)) {α : Type} (none_ : α)
  (some_ : UInt8 × HdmiCecHandleMsgFunc → α) :
  (((code, func) :: rest).find? fun entry => opcode == entry.1).elim none_ some_ =
   if opcode = code then some_ (code, func)
   else (rest.find? fun entry => opcode == entry.1).elim none_ some_ := by
 rw [List.find?_cons]
 by_cases same : opcode = code
 · rw [if_pos same, beq_iff_eq.mpr same]
   rfl
 · rw [if_neg same, beq_eq_false_iff_ne.mpr same]

theorem hdmiCecMsgHandle_eq (c : HdmiCntlr) (msg txMsg : HdmiCecMsg) (opcode : UInt8) :
  hdmiCecMsgHandle c msg txMsg opcode =
   if opcode = Opcode.getCecVersion then hdmiCecHandleGetCecVersionMsg c msg txMsg
   else if opcode = Opcode.reportPhysicalAddress then
    hdmiCecHandleReportPhyAddressMsg c msg txMsg
   else if opcode = Opcode.userControlPressed then
    hdmiCecHandleUserControlPrtessedMsg c msg txMsg
   else if opcode = Opcode.userControlReleased then
    hdmiCecHandleUserControlReleasedMsg c msg txMsg
   else if opcode = Opcode.givePhysicalAddress then hdmiCecHandleGivePhyAddressMsg c msg txMsg
   else if opcode = Opcode.giveDeviceVendorId then
    hdmiCecHandleGiveDeviceVendorIdMsg c msg txMsg
   else if opcode = Opcode.abort then hdmiCecHandleAbortMsg c msg txMsg
   else if opcode = Opcode.giveOsdName then hdmiCecHandleGiveOsdNameMsg c msg txMsg
   else if opcode = Opcode.giveFeatures then hdmiCecHandleGiveFeaturesMsg c msg txMsg
   else hdmiCecMsgDefaultHandle c msg txMsg := by
 have table : hdmiCecMsgHandle c msg txMsg opcode =
   (funcMap.find? fun entry => opcode == entry.1).elim (hdmiCecMsgDefaultHandle c msg txMsg)
    fun entry => entry.2 c msg txMsg := by
  rw [hdmiCecMsgHandle]
  cases funcMap.find? fun entry => opcode == entry.1 <;> rfl
 rw [table, funcMap]
 simp only [find_cons]
 rfl

def Inert (msg : HdmiCecMsg) : Prop := ∀ (c : HdmiCntlr) (ok : Bool), reply c msg ok = none

theorem inert_of_code (h : msg.opcode ∈ answerCodes) : Inert msg := by
 intro c ok
 cases hr : reply c msg ok with
 | none => rfl
 | some r =>
  obtain ⟨-, -, -, -, tx, htx, -⟩ := reply_eq_some hr
  rw [handle_answerCode h] at htx
  cases htx

theorem inert_of_short (h : msg.len < 2) : Inert msg := by
 intro c ok
 have hacc : ¬ Accepts c msg := fun hacc => Nat.not_lt.mpr hacc.2.1 h
 unfold reply
 rw [hdmiCecReceivedMsg_of_not_accepts hacc]

theorem Inert.of_eq (hcode : msg.opcode ∈ answerCodes ∨ msg.len < 2)
  (hdata : r.data = msg.data) (hlen : r.len = msg.len) : Inert r := by
 rcases hcode with hcode | hshort
 · exact inert_of_code (by rw [HdmiCecMsg.opcode, hdata]; exact hcode)
 · exact inert_of_short (by rw [hlen]; exact hshort)

theorem hdmiCecSendMsg_eq_some (h : hdmiCecSendMsg c tx ok = some r) :
  r.data = tx.data ∧ r.len = tx.len ∧ (tx.response = false → r = tx) := by
 unfold hdmiCecSendMsg at h
 obtain ⟨-, h⟩ := Option.ite_none_left_eq_some.mp h
 obtain ⟨-, ⟨⟩⟩ := Option.ite_none_right_eq_some.mp h
 cases hr : tx.response with
 | false => simp
 | true => simp

theorem handle_cases
  (h : hdmiCecMsgHandle c msg (hdmiCecFillMsgHeader {} msg) msg.opcode = some tx) :
  (tx.opcode ∈ answerCodes ∨ tx.len < 2) ∨
  ∃ reason, tx = abortOf msg reason ∧
   (msg.opcode = Opcode.featureAbort ∧ isResponse c Opcode.featureAbort = false ∨
    msg.opcode = Opcode.abort ∧ c.info.primaryDeviceType ≠ pureCecSwitch ∨
    msg.opcode = Opcode.giveDeviceVendorId ∧ c.info.vendorId = vendorIdUnknown ∨
    msg.opcode = Opcode.giveOsdName ∧ c.info.osdName[0] = 0 ∨
    msg.opcode = Opcode.giveFeatures ∧ c.info.cecVersion < hdmiCecVersion20) := by
 have hcode {opcode : UInt8} {broadcast : Bool} {encode : HdmiCecMsg → HdmiCecMsg}
   (he : Encodes opcode broadcast encode) (hop : opcode ∈ answerCodes) :
   (encode (hdmiCecFillMsgHeader {} msg)).opcode ∈ answerCodes := by
  rw [fillMsgHeader_eq_fresh, (he.encoded _).opcode_eq]
  exact hop
 rw [hdmiCecMsgHandle_eq] at h
 split at h
 · cases h
   exact .inl (.inl (hcode (.cecVersion c.info.cecVersion) (by decide)))
 split at h
 · cases h
 split at h
 · cases h
 split at h
 · cases h
 split at h
 · obtain ⟨-, ⟨⟩⟩ := Option.ite_none_left_eq_some.mp h
   exact .inl (.inl (hcode (.reportPhyAddress _ _) (by decide)))
 split at h
 · next hop =>
   unfold hdmiCecHandleGiveDeviceVendorIdMsg at h
   split at h
   · next hvendor =>
     cases h
     exact .inr ⟨_, rfl, .inr (.inr (.inl ⟨hop, hvendor⟩))⟩
   · cases h
     exact .inl (.inl (hcode (.deviceVendorId _) (by decide)))
 split at h
 · next hop =>
   obtain ⟨hswitch, ⟨⟩⟩ := Option.ite_none_left_eq_some.mp h
   exact .inr ⟨_, rfl, .inr (.inl ⟨hop, hswitch⟩)⟩
 split at h
 · next hop =>
   unfold hdmiCecHandleGiveOsdNameMsg at h
   split at h
   · next hname =>
     cases h
     exact .inr ⟨_, rfl, .inr (.inr (.inr (.inl ⟨hop, hname⟩)))⟩
   · cases h
     by_cases hlen : c.info.osdNameLen.toNat = 0
     · -- a name of length 0: nothing is encoded
       refine .inl (.inr ?_)
       unfold hdmiCecEncodingSetOsdNameMsg dataMsg
       rw [if_pos hlen]
       exact Nat.zero_lt_two
     · exact .inl (.inl (hcode (.setOsdName _ _ (Nat.pos_of_ne_zero hlen)) (by decide)))
 split at h
 · next hop =>
   unfold hdmiCecHandleGiveFeaturesMsg at h
   split at h
   · next hversion =>
     cases h
     exact .inr ⟨_, rfl, .inr (.inr (.inr (.inr ⟨hop, hversion⟩)))⟩
   · cases h
     exact .inl (.inl (hcode (.reportFeatures _) (by decide)))
 · unfold hdmiCecMsgDefaultHandle at h
   obtain ⟨hquiet, h⟩ := Option.ite_none_left_eq_some.mp h
   obtain ⟨hop, ⟨⟩⟩ := Option.ite_none_left_eq_some.mp h
   have hop' := not_not.mp hop
   rw [not_or, hop'] at hquiet
   exact .inr ⟨_, rfl, .inl ⟨hop', by simpa using hquiet.2⟩⟩

theorem reply_cases (h : reply c msg ok = some r) :
  Inert r ∨ ∃ reason, r = abortOf msg reason ∧ (AnswersAbort c msg ∨ AbortsRequest c msg) := by
 obtain ⟨hacc, hmeans, -, hign, tx, htx, hsend⟩ := reply_eq_some h
 obtain ⟨hdata, hlen, hsame⟩ := hdmiCecSendMsg_eq_some hsend
 rcases handle_cases htx with hcode | ⟨reason, rfl, hwhy⟩
 · exact .inl (.of_eq hcode hdata hlen)
 · refine .inr ⟨reason, hsame rfl, ?_⟩
   rcases hwhy with hfa | hreq
   · exact .inl ((answersAbort_iff c msg).mpr ⟨hfa.1, hacc, hfa.2, hmeans⟩)
   · exact .inr ⟨hacc, hmeans, hign, hreq⟩

theorem swapped_initiator (b : UInt8) : (swapped b &&& 0xf0) >>> (4 : UInt8) = b &&& 0x0f := by
 have hall : ∀ n : Fin 256, (fun b : UInt8 => (swapped b &&& 0xf0) >>> (4 : UInt8) = b &&& 0x0f)
   (UInt8.ofNat n.val) := by
  decide +kernel
 simpa using hall ⟨b.toNat, b.toNat_lt⟩

theorem swapped_destination (b : UInt8) : swapped b &&& 0x0f = (b &&& 0xf0) >>> (4 : UInt8) := by
 have hall : ∀ n : Fin 256, (fun b : UInt8 => swapped b &&& 0x0f = (b &&& 0xf0) >>> (4 : UInt8))
   (UInt8.ofNat n.val) := by
  decide +kernel
 simpa using hall ⟨b.toNat, b.toNat_lt⟩

theorem answersAbort_abortOf (c : HdmiCntlr) (msg : HdmiCecMsg) (reason : UInt8) :
  AnswersAbort c (abortOf msg reason) ↔
   OpenToAborts c (hdmiCecGetMsgDestination msg) (hdmiCecGetMsgInitiator msg) := by
 have henc : Encoded (swapped msg.header) Opcode.featureAbort (abortOf msg reason) :=
  (Encodes.featureAbort msg.opcode reason).encoded (swapped msg.header)
 have hinit : hdmiCecGetMsgInitiator (abortOf msg reason) = hdmiCecGetMsgDestination msg := by
  unfold hdmiCecGetMsgInitiator
  rw [henc.header_eq]
  exact swapped_initiator msg.header
 have hdest : hdmiCecGetMsgDestination (abortOf msg reason) = hdmiCecGetMsgInitiator msg := by
  unfold hdmiCecGetMsgDestination
  rw [henc.header_eq]
  exact swapped_destination msg.header
 have hlen : (abortOf msg reason).len = getMsgLen 2 := directedMsg_len _ _ _ _
 unfold AnswersAbort
 rw [hinit, hdest, henc.opcode_eq, hlen]
 simp

theorem AnswersAbort.reply_eq (h : AnswersAbort c msg) :
  reply c msg true = some (abortOf msg AbortReason.unrecognizedOpcode) := by
 obtain ⟨hop, hacc, hwait, hmeans⟩ := (answersAbort_iff c msg).mp h
 have hdir := h.2.2.2.2.2.2.2.2.1
 refine reply_of_handle hacc hmeans ?_ ?_ rfl
 · rw [hop]
   rfl
 · rw [hop]
   change hdmiCecMsgDefaultHandle c msg _ = _
   unfold hdmiCecMsgDefaultHandle
   rw [if_neg, if_neg (not_not.mpr hop)]
   · rfl
   · rw [hop, hwait, isBroadcastMsg_eq]
     simpa using hdir

theorem AbortsRequest.reply_eq (h : AbortsRequest c msg) :
  ∃ reason, reply c msg true = some (abortOf msg reason) := by
 obtain ⟨hacc, hmeans, hign, hreq⟩ := h
 have hsend (reason : UInt8)
   (htx : hdmiCecMsgHandle c msg (hdmiCecFillMsgHeader {} msg) msg.opcode =
    some (abortOf msg reason)) : ∃ reason, reply c msg true = some (abortOf msg reason) :=
  ⟨reason, reply_of_handle hacc hmeans hign htx rfl⟩
 rcases hreq with ⟨hop, hwhy⟩ | ⟨hop, hwhy⟩ | ⟨hop, hwhy⟩ | ⟨hop, hwhy⟩
 · refine hsend AbortReason.refused ?_
   rw [hop]
   exact if_neg hwhy
 · refine hsend AbortReason.unrecognizedOpcode ?_
   rw [hop]
   exact if_pos hwhy
 · refine hsend AbortReason.unrecognizedOpcode ?_
   rw [hop]
   exact if_pos hwhy
 · refine hsend AbortReason.unrecognizedOpcode ?_
   rw [hop]
   exact if_pos hwhy

theorem answersAbort_of_reply
  (hop : msg.opcode = Opcode.featureAbort) (h : reply c msg ok = some r) :
  AnswersAbort c msg := by
 obtain ⟨hacc, hmeans, -, -, tx, htx, -⟩ := reply_eq_some h
 rw [hop] at htx
 change hdmiCecMsgDefaultHandle c msg _ = _ at htx
 unfold hdmiCecMsgDefaultHandle at htx
 obtain ⟨hquiet, -⟩ := Option.ite_none_left_eq_some.mp htx
 rw [not_or, hop] at hquiet
 exact (answersAbort_iff c msg).mpr ⟨hop, hacc, by simpa using hquiet.2, hmeans⟩

def Pair.receiver (s : Pair) (toLeft : Bool) : HdmiCntlr := if toLeft then s.left else s.right

theorem step_spec {s t : Pair} {d : Delivery} (h : step s d = some t) :
  ∃ toLeft msg, s.flying[d.k]? = some (toLeft, msg) ∧
   t.flying = s.flying.eraseIdx d.k ++
    ((reply (s.receiver toLeft) msg d.ok).map fun r => (!toLeft, r)).toList ∧
   t.sent = s.sent + (reply (s.receiver toLeft) msg d.ok).toList.length ∧
   (toLeft = true → t.right = s.right) := by
 unfold step at h
 split at h
 · cases h
 · next msg hmsg =>
   cases h
   exact ⟨true, msg, hmsg, rfl, rfl, fun _ => rfl⟩
 · next msg hmsg =>
   cases h
   exact ⟨false, msg, hmsg, rfl, rfl, fun hl => Bool.noConfusion hl⟩

theorem step_of_reply (s : Pair) (d : Delivery) {toLeft : Bool}
  (hmsg : s.flying[d.k]? = some (toLeft, msg))
  (hr : reply (s.receiver toLeft) msg d.ok = some r) :
  ∃ t, step s d = some t ∧ t.flying = s.flying.eraseIdx d.k ++ [(!toLeft, r)] ∧
   t.sent = s.sent + 1 ∧ (toLeft = true → t.right = s.right) := by
 cases hs : step s d with
 | none =>
  unfold step at hs
  rw [hmsg] at hs
  cases toLeft <;> cases hs
 | some t =>
  obtain ⟨toLeft', msg', hmsg', hflying, hsent, hright⟩ := step_spec hs
  obtain ⟨rfl, rfl⟩ := Prod.mk.inj (Option.some.inj (hmsg.symm.trans hmsg'))
  rw [hr] at hflying hsent
  exact ⟨t, rfl, hflying, hsent, hright⟩

def QuietPair (left right : HdmiCntlr) (msg : HdmiCecMsg) : Prop :=
 ¬ AnswersAbort left msg ∧
  ¬ (AbortsRequest left msg ∧
   OpenToAborts right (hdmiCecGetMsgDestination msg) (hdmiCecGetMsgInitiator msg))

inductive AtMostOne (left right : HdmiCntlr) (msg : HdmiCecMsg) : Pair → Prop where
 | received : AtMostOne left right msg (start left right msg)
 | answered (s : Pair) (r : HdmiCecMsg) (hflying : s.flying = [(false, r)]) (hsent : s.sent = 1)
   (hright : ∀ ok, reply s.right r ok = none) : AtMostOne left right msg s
 | finished (s : Pair) (hflying : s.flying = []) (hsent : s.sent ≤ 1) : AtMostOne left right msg s

section
variable {left right : HdmiCntlr} {msg : HdmiCecMsg}

theorem QuietPair.right_quiet (hq : QuietPair left right msg) {ok : Bool}
  (hr : reply left msg ok = some r) (ok' : Bool) : reply right r ok' = none := by
 rcases reply_cases hr with hinert | ⟨reason, rfl, hans | hreq⟩
 · exact hinert right ok'
 · exact absurd hans hq.1
 · cases hr' : reply right (abortOf msg reason) ok' with
   | none => rfl
   | some r' =>
    have habort : (abortOf msg reason).opcode = Opcode.featureAbort :=
     ((Encodes.featureAbort msg.opcode reason).encoded (swapped msg.header)).opcode_eq
    have hopen := (answersAbort_abortOf right msg reason).mp (answersAbort_of_reply habort hr')
    exact absurd ⟨hreq, hopen⟩ hq.2

theorem AtMostOne.step (hq : QuietPair left right msg) (s : Pair) (d : Delivery) (t : Pair)
  (h : AtMostOne left right msg s) (hs : step s d = some t) : AtMostOne left right msg t := by
 obtain ⟨toLeft, m, hm, hflying, hsent, hright⟩ := step_spec hs
 cases h with
 | received =>
  obtain ⟨hk, hm⟩ : d.k = 0 ∧ (true, msg) = (toLeft, m) := by
   simpa [start, List.getElem?_singleton] using hm
  obtain ⟨rfl, rfl⟩ := Prod.mk.inj hm
  rw [hk] at hflying
  cases hr : reply left msg d.ok with
  | none =>
   simp only [Pair.receiver, start, if_true, hr] at hflying hsent
   exact .finished t hflying (by simp [hsent])
  | some r =>
   simp only [Pair.receiver, start, if_true, hr] at hflying hsent
   refine .answered t r hflying (by simpa using hsent) ?_
   rw [hright rfl]
   exact hq.right_quiet hr
 | answered _ r hflying' hsent' hright' =>
  rw [hflying'] at hm hflying
  obtain ⟨hk, hm⟩ : d.k = 0 ∧ (false, r) = (toLeft, m) := by
   simpa [List.getElem?_singleton] using hm
  obtain ⟨rfl, rfl⟩ := Prod.mk.inj hm
  have hnone : reply (s.receiver false) r d.ok = none := hright' d.ok
  rw [hnone] at hflying hsent
  rw [hk] at hflying
  exact .finished t hflying (by rw [hsent, hsent']; decide)
 | finished _ hflying' hsent' =>
  rw [hflying'] at hm
  cases hm

theorem AtMostOne.sent_le {s : Pair} (h : AtMostOne left right msg s) : s.sent ≤ 1 := by
 cases h with
 | received => exact Nat.zero_le 1
 | answered _ r hflying hsent hright => exact Nat.le_of_eq hsent
 | finished _ hflying hsent => exact hsent

theorem AtMostOne.abort_quiet (hq : QuietPair left right msg) {s t : Pair} {d : Delivery}
  {toLeft : Bool} {m : HdmiCecMsg} (h : AtMostOne left right msg s)
  (hm : s.flying[d.k]? = some (toLeft, m)) (hop : m.opcode = Opcode.featureAbort)
  (hs : HdmiCec.step s d = some t) : t.sent = s.sent := by
 obtain ⟨toLeft', m', hm', -, hsent, -⟩ := step_spec hs
 obtain ⟨rfl, rfl⟩ := Prod.mk.inj (Option.some.inj (hm.symm.trans hm'))
 have hquiet : reply (s.receiver toLeft) m d.ok = none := by
  cases h with
  | received =>
   obtain ⟨-, hm⟩ : d.k = 0 ∧ (true, msg) = (toLeft, m) := by
    simpa [start, List.getElem?_singleton] using hm
   obtain ⟨rfl, rfl⟩ := Prod.mk.inj hm
   cases hr : reply left msg d.ok with
   | none => exact hr
   | some r => exact absurd (answersAbort_of_reply hop hr) hq.1
  | answered _ r hflying hsent' hright =>
   rw [hflying] at hm
   obtain ⟨-, hm⟩ : d.k = 0 ∧ (false, r) = (toLeft, m) := by
    simpa [List.getElem?_singleton] using hm
   obtain ⟨rfl, rfl⟩ := Prod.mk.inj hm
   exact hright d.ok
  | finished _ hflying hsent' =>
   rw [hflying] at hm
   cases hm
 rw [hsent, hquiet]
 rfl

theorem QuietPair.at_most_one (hq : QuietPair left right msg) {ds : List Delivery} {t : Pair}
  (h : RunRules.exec step (start left right msg) ds = some t) : AtMostOne left right msg t :=
 RunRules.exec_invariant (AtMostOne.step hq) (start left right msg) t ds .received h

theorem not_abortsQuiet_of_reply {s : Pair} (t : Pair) (ds : List Delivery) (toLeft : Bool)
  {m : HdmiCecMsg} (ht : RunRules.exec step s ds = some t)
  (hm : t.flying[0]? = some (toLeft, m))
  (hop : m.opcode = Opcode.featureAbort) (hr : reply (t.receiver toLeft) m true = some r) :
  ¬ AbortsQuiet s := by
 intro hquiet
 obtain ⟨u, hu, -, hsent, -⟩ := step_of_reply t ⟨0, true⟩ hm hr
 have hsame := hquiet ds t u ⟨0, true⟩ toLeft m ht hm hop hu
 omega

theorem QuietPair.of_abortsQuiet (h : AbortsQuiet (start left right msg)) :
  QuietPair left right msg := by
 constructor
 · intro hans
   exact not_abortsQuiet_of_reply (start left right msg) [] true rfl rfl hans.1
    hans.reply_eq h
 · rintro ⟨hreq, hopen⟩
   obtain ⟨reason, hr⟩ := hreq.reply_eq
   obtain ⟨t, ht, hflying, -, hright⟩ :=
    step_of_reply (start left right msg) ⟨0, true⟩ (show _ = some (true, msg) from rfl) hr
   have hans := (answersAbort_abortOf right msg reason).mpr hopen
   refine not_abortsQuiet_of_reply t [⟨0, true⟩] false ?_ ?_ hans.1
    (r := abortOf (abortOf msg reason) AbortReason.unrecognizedOpcode) ?_ h
   · simp [ht]
   · rw [hflying]
     rfl
   · change reply t.right _ true = _
     rw [hright rfl]
     exact hans.reply_eq

end

/-- A controller with one logical address, given by its mask -/
def device (logAddr : UInt8) : HdmiCntlr where
 cec := true
 cecMsgSend := true
 info :=
  { logAddr
    logAddrMask := 1
    primaryDeviceType := 0
    cecVersion := hdmiCecVersion20
    phyAddr := 0
    vendorId := 0
    osdName := Vector.replicate 15 0
    osdNameLen := 0
    allDeviceType := 0
    rcProfile := Vector.replicate 6 0
    devFeatures := Vector.replicate 6 0 }

def abortOfAbort (header : UInt8) : HdmiCecMsg :=
 hdmiCecEncodingFeatureAbortMsg Opcode.featureAbort AbortReason.unrecognizedOpcode (fresh header)

def pingPong (sent : ℕ) : Pair :=
 { start (device 0x01) (device 0x10) (abortOfAbort 0x40) with sent }

theorem pingPong_step (sent : ℕ) :
  RunRules.exec step (pingPong sent) [⟨0, true⟩, ⟨0, true⟩] = some (pingPong (sent + 2)) := by
 have hleft : hdmiCecReceivedMsg (device 0x01) (abortOfAbort 0x40) true =
   (device 0x01, some (abortOfAbort 0x04)) := by
  decide +kernel
 have hright : hdmiCecReceivedMsg (device 0x10) (abortOfAbort 0x04) true =
   (device 0x10, some (abortOfAbort 0x40)) := by
  decide +kernel
 simp [step, pingPong, start, hleft, hright]

theorem pingPong_runs (n : ℕ) (sent : ℕ) :
  ∃ ds, RunRules.exec step (pingPong sent) ds = some (pingPong (sent + 2 * n)) := by
 induction n generalizing sent with
 | zero => exact ⟨[], rfl⟩
 | succ n ih =>
  obtain ⟨ds, hds⟩ := ih (sent + 2)
  refine ⟨[⟨0, true⟩, ⟨0, true⟩] ++ ds, ?_⟩
  rw [RunRules.exec_append, pingPong_step, Option.bind_some, hds]
  congr 2
  omega

end DriversFramework.HdmiCec
