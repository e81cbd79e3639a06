import Mathlib.Data.UInt

/-! `hdmi_cec.h` and the first part of `hdmi_cec.c`: the frame, the operations that read and write
it, and the table against which a received frame is checked. -/
namespace DriversFramework.HdmiCec

namespace Opcode

/-! The operation codes, `HDMI_CEC_OPCODE_*` -/

abbrev activeSource : UInt8 := 0x82
abbrev imageViewOn : UInt8 := 0x04
abbrev textViewOn : UInt8 := 0x0D
abbrev inactiveSource : UInt8 := 0x9D
abbrev requestActiveSource : UInt8 := 0x85
abbrev routingChange : UInt8 := 0x80
abbrev routingInformation : UInt8 := 0x81
abbrev setStreamPath : UInt8 := 0x86
abbrev standby : UInt8 := 0x36
abbrev recordOff : UInt8 := 0x0B
abbrev recordOn : UInt8 := 0x09
abbrev recordStatus : UInt8 := 0x0A
abbrev recordTvScreen : UInt8 := 0x0F
abbrev clearAnalogueTimer : UInt8 := 0x33
abbrev clearDigitalTimer : UInt8 := 0x99
abbrev clearExternalTimer : UInt8 := 0xA1
abbrev setAnalogueTimer : UInt8 := 0x34
abbrev setDigitalTimer : UInt8 := 0x97
abbrev setExternalTimer : UInt8 := 0xA2
abbrev setTimerProgramTitle : UInt8 := 0x67
abbrev timerClearedStatus : UInt8 := 0x43
abbrev timerStatus : UInt8 := 0x35
abbrev cecVersion : UInt8 := 0x9E
abbrev getCecVersion : UInt8 := 0x9F
abbrev givePhysicalAddress : UInt8 := 0x83
abbrev getMenuLanguage : UInt8 := 0x91
abbrev reportPhysicalAddress : UInt8 := 0x84
abbrev setMenuLanguage : UInt8 := 0x32
abbrev reportFeatures : UInt8 := 0xA6
abbrev giveFeatures : UInt8 := 0xA5
abbrev deckControl : UInt8 := 0x42
abbrev deckStatus : UInt8 := 0x1B
abbrev giveDeckStatus : UInt8 := 0x1A
abbrev play : UInt8 := 0x41
abbrev giveTunerDeviceStatus : UInt8 := 0x08
abbrev selectAnalogueService : UInt8 := 0x92
abbrev selectDigitalService : UInt8 := 0x93
abbrev tunerDeviceStatus : UInt8 := 0x07
abbrev tunerStepDecrement : UInt8 := 0x06
abbrev tunerStepIncrement : UInt8 := 0x05
abbrev deviceVendorId : UInt8 := 0x87
abbrev giveDeviceVendorId : UInt8 := 0x8C
abbrev vendorCommand : UInt8 := 0x89
abbrev vendorCommandWithId : UInt8 := 0xA0
abbrev vendorRemoteButtonDown : UInt8 := 0x8A
abbrev vendorRemoteButtonUp : UInt8 := 0x8B
abbrev setOsdString : UInt8 := 0x64
abbrev giveOsdName : UInt8 := 0x46
abbrev setOsdName : UInt8 := 0x47
abbrev menuRequest : UInt8 := 0x8D
abbrev menuStatus : UInt8 := 0x8E
abbrev userControlPressed : UInt8 := 0x44
abbrev userControlReleased : UInt8 := 0x45
abbrev giveDevicePowerStatus : UInt8 := 0x8F
abbrev reportPowerStatus : UInt8 := 0x90
abbrev featureAbort : UInt8 := 0x00
abbrev abort : UInt8 := 0xFF
abbrev giveAudioStatus : UInt8 := 0x71
abbrev giveSystemAudioModeStatus : UInt8 := 0x7D
abbrev reportAudioStatus : UInt8 := 0x7A
abbrev reportShortAudioDescriptor : UInt8 := 0xA3
abbrev requestShortAudioDescriptor : UInt8 := 0xA4
abbrev setSystemAudioMode : UInt8 := 0x72
abbrev systemAudioModeRequest : UInt8 := 0x70
abbrev systemAudioModeStatus : UInt8 := 0x7E
abbrev setAudioRate : UInt8 := 0x9A
abbrev initiateArc : UInt8 := 0xC0
abbrev reportArcInitiated : UInt8 := 0xC1
abbrev reportArcTermination : UInt8 := 0xC2
abbrev requestArcInitiation : UInt8 := 0xC3
abbrev requestArcTermination : UInt8 := 0xC4
abbrev terminateArc : UInt8 := 0xC5
abbrev cdcMessage : UInt8 := 0xF8
abbrev requestCurrentLatency : UInt8 := 0xA7
abbrev reportCurrentLatency : UInt8 := 0xA8

end Opcode

namespace MsgType

/-! `enum HdmiCecMsgType`: the destinations a message may have, as bits -/

abbrev broadcast14 : UInt8 := 0x01
abbrev broadcast20 : UInt8 := 0x02
abbrev broadcast : UInt8 := 0x03
abbrev directed : UInt8 := 0x04
abbrev directedOrBroadcast14 : UInt8 := 0x05
abbrev directedOrBroadcast20 : UInt8 := 0x06
abbrev all : UInt8 := 0x07

end MsgType

abbrev hdmiCecVersion20 : UInt8 := 6

abbrev unregisteredOrBroadcast : UInt8 := 15

/-- `outside` is set by a write that misses the buffer. -/
structure HdmiCecMsg where
 len : ℕ := 0
 data : Vector UInt8 20 := Vector.replicate 20 0
 rspMsg : UInt8 := 0
 response : Bool := false
 timeout : ℕ := 0
 outside : Bool := false
 deriving DecidableEq

abbrev getMsgLen (len : ℕ) : ℕ := 1 + 1 + len

abbrev getCdcMsgLen (len : ℕ) : ℕ := 1 + 1 + 2 + 1 + len

namespace HdmiCecMsg

/-- `msg->data[0]` -/
abbrev header (m : HdmiCecMsg) : UInt8 := m.data[0]

/-- `msg->data[1]` -/
abbrev opcode (m : HdmiCecMsg) : UInt8 := m.data[1]

abbrev operand (m : HdmiCecMsg) : UInt8 := m.data[2]

def setByte (m : HdmiCecMsg) (i : ℕ) (b : UInt8) : HdmiCecMsg :=
 { m with data := m.data.setIfInBounds i b, outside := m.outside || decide (20 ≤ i) }

def setBytes (m : HdmiCecMsg) (i : ℕ) : List UInt8 → HdmiCecMsg
 | [] => m
 | b :: bs => (m.setByte i b).setBytes (i + 1) bs

def setLen (m : HdmiCecMsg) (len : ℕ) : HdmiCecMsg := { m with len }

/-- `memcpy_s` to `data[i]`, which copies nothing where the destination is too small -/
def copy (m : HdmiCecMsg) (i destMax : ℕ) (src : ℕ → UInt8) (count : ℕ) : HdmiCecMsg :=
 if destMax = 0 ∨ destMax < count then m else m.setBytes i ((List.range count).map src)

/-- `msg->rspMsg`, set when a response is wanted -/
def setRsp (m : HdmiCecMsg) (response : Bool) (rspMsg : UInt8) : HdmiCecMsg :=
 if response then { m with rspMsg } else m

end HdmiCecMsg

def hdmiCecIsBroadcastMsg (msg : HdmiCecMsg) : Bool :=
 msg.header &&& 0x0f == unregisteredOrBroadcast

def hdmiCecGetMsgInitiator (msg : HdmiCecMsg) : UInt8 := (msg.header &&& 0xf0) >>> 4

def hdmiCecGetMsgDestination (msg : HdmiCecMsg) : UInt8 := msg.header &&& 0x0f

def hdmiCecFillMsgHeader (destMsg srcMsg : HdmiCecMsg) : HdmiCecMsg :=
 destMsg.setByte 0 ((hdmiCecGetMsgDestination srcMsg <<< 4) ||| hdmiCecGetMsgInitiator srcMsg)

structure HdmiCecMsgLenInfo where
 opcode : UInt8
 minLen : ℕ
 type : UInt8

def gCecMsg : List HdmiCecMsgLenInfo := [
 ⟨Opcode.activeSource, getMsgLen 2, MsgType.broadcast⟩,
 ⟨Opcode.imageViewOn, getMsgLen 0, MsgType.directed⟩,
 ⟨Opcode.textViewOn, getMsgLen 0, MsgType.directed⟩,
 ⟨Opcode.inactiveSource, getMsgLen 2, MsgType.directed⟩,
 ⟨Opcode.requestActiveSource, getMsgLen 0, MsgType.broadcast⟩,
 ⟨Opcode.routingChange, getMsgLen 4, MsgType.broadcast⟩,
 ⟨Opcode.routingInformation, getMsgLen 2, MsgType.broadcast⟩,
 ⟨Opcode.setStreamPath, getMsgLen 2, MsgType.broadcast⟩,
 ⟨Opcode.standby, getMsgLen 0, MsgType.directed⟩,
 ⟨Opcode.recordOff, getMsgLen 0, MsgType.directed⟩,
 ⟨Opcode.recordOn, getMsgLen 1, MsgType.directed⟩,
 ⟨Opcode.recordStatus, getMsgLen 1, MsgType.directed⟩,
 ⟨Opcode.recordTvScreen, getMsgLen 0, MsgType.directed⟩,
 ⟨Opcode.clearAnalogueTimer, getMsgLen 11, MsgType.directed⟩,
 ⟨Opcode.clearDigitalTimer, getMsgLen 14, MsgType.directed⟩,
 ⟨Opcode.clearExternalTimer, getMsgLen 11, MsgType.directed⟩,
 ⟨Opcode.setAnalogueTimer, getMsgLen 11, MsgType.directed⟩,
 ⟨Opcode.setDigitalTimer, getMsgLen 14, MsgType.directed⟩,
 ⟨Opcode.setExternalTimer, getMsgLen 11, MsgType.directed⟩,
 ⟨Opcode.setTimerProgramTitle, getMsgLen 0, MsgType.directed⟩,
 ⟨Opcode.timerClearedStatus, getMsgLen 1, MsgType.directed⟩,
 ⟨Opcode.timerStatus, getMsgLen 1, MsgType.directed⟩,
 ⟨Opcode.cecVersion, getMsgLen 1, MsgType.directed⟩,
 ⟨Opcode.getCecVersion, getMsgLen 0, MsgType.directed⟩,
 ⟨Opcode.givePhysicalAddress, getMsgLen 0, MsgType.directed⟩,
 ⟨Opcode.getMenuLanguage, getMsgLen 0, MsgType.directed⟩,
 ⟨Opcode.reportPhysicalAddress, getMsgLen 3, MsgType.broadcast⟩,
 ⟨Opcode.setMenuLanguage, getMsgLen 3, MsgType.broadcast⟩,
 ⟨Opcode.reportFeatures, getMsgLen 4, MsgType.broadcast⟩,
 ⟨Opcode.giveFeatures, getMsgLen 0, MsgType.directed⟩,
 ⟨Opcode.deckControl, getMsgLen 1, MsgType.directed⟩,
 ⟨Opcode.deckStatus, getMsgLen 1, MsgType.directed⟩,
 ⟨Opcode.giveDeckStatus, getMsgLen 1, MsgType.directed⟩,
 ⟨Opcode.play, getMsgLen 1, MsgType.directed⟩,
 ⟨Opcode.giveTunerDeviceStatus, getMsgLen 1, MsgType.directed⟩,
 ⟨Opcode.selectAnalogueService, getMsgLen 4, MsgType.directed⟩,
 ⟨Opcode.selectDigitalService, getMsgLen 7, MsgType.directed⟩,
 ⟨Opcode.tunerDeviceStatus, getMsgLen 5, MsgType.directed⟩,
 ⟨Opcode.tunerStepDecrement, getMsgLen 0, MsgType.directed⟩,
 ⟨Opcode.tunerStepIncrement, getMsgLen 0, MsgType.directed⟩,
 ⟨Opcode.deviceVendorId, getMsgLen 3, MsgType.directed⟩,
 ⟨Opcode.giveDeviceVendorId, getMsgLen 0, MsgType.directed⟩,
 ⟨Opcode.vendorCommand, getMsgLen 0, MsgType.directed⟩,
 ⟨Opcode.vendorCommandWithId, getMsgLen 3, MsgType.all⟩,
 ⟨Opcode.vendorRemoteButtonDown, getMsgLen 0, MsgType.all⟩,
 ⟨Opcode.vendorRemoteButtonUp, getMsgLen 0, MsgType.all⟩,
 ⟨Opcode.setOsdString, getMsgLen 1, MsgType.directed⟩,
 ⟨Opcode.giveOsdName, getMsgLen 0, MsgType.directed⟩,
 ⟨Opcode.setOsdName, getMsgLen 0, MsgType.directed⟩,
 ⟨Opcode.menuRequest, getMsgLen 1, MsgType.directed⟩,
 ⟨Opcode.menuStatus, getMsgLen 1, MsgType.directed⟩,
 ⟨Opcode.userControlPressed, getMsgLen 1, MsgType.directed⟩,
 ⟨Opcode.userControlReleased, getMsgLen 0, MsgType.directed⟩,
 ⟨Opcode.giveDevicePowerStatus, getMsgLen 0, MsgType.directed⟩,
 ⟨Opcode.reportPowerStatus, getMsgLen 1, MsgType.directedOrBroadcast20⟩,
 ⟨Opcode.featureAbort, getMsgLen 2, MsgType.directed⟩,
 ⟨Opcode.abort, getMsgLen 0, MsgType.directed⟩,
 ⟨Opcode.giveAudioStatus, getMsgLen 0, MsgType.directed⟩,
 ⟨Opcode.giveSystemAudioModeStatus, getMsgLen 0, MsgType.directed⟩,
 ⟨Opcode.reportAudioStatus, getMsgLen 1, MsgType.directed⟩,
 ⟨Opcode.reportShortAudioDescriptor, getMsgLen 0, MsgType.directed⟩,
 ⟨Opcode.requestShortAudioDescriptor, getMsgLen 0, MsgType.directed⟩,
 ⟨Opcode.setSystemAudioMode, getMsgLen 1, MsgType.directed⟩,
 ⟨Opcode.systemAudioModeRequest, getMsgLen 2, MsgType.directed⟩,
 ⟨Opcode.systemAudioModeStatus, getMsgLen 1, MsgType.directed⟩,
 ⟨Opcode.setAudioRate, getMsgLen 1, MsgType.directed⟩,
 ⟨Opcode.initiateArc, getMsgLen 0, MsgType.directed⟩,
 ⟨Opcode.reportArcInitiated, getMsgLen 0, MsgType.directed⟩,
 ⟨Opcode.reportArcTermination, getMsgLen 0, MsgType.directed⟩,
 ⟨Opcode.requestArcInitiation, getMsgLen 0, MsgType.directed⟩,
 ⟨Opcode.requestArcTermination, getMsgLen 0, MsgType.directed⟩,
 ⟨Opcode.terminateArc, getMsgLen 0, MsgType.directed⟩,
 ⟨Opcode.cdcMessage, getMsgLen 0, MsgType.broadcast⟩,
 ⟨Opcode.requestCurrentLatency, getMsgLen 2, MsgType.broadcast⟩,
 ⟨Opcode.reportCurrentLatency, getMsgLen 4, MsgType.broadcast⟩]

def hdmiCecGetMsgLenInfo (opcode : UInt8) : Option HdmiCecMsgLenInfo :=
 gCecMsg.find? fun info => opcode == info.opcode

def hdmiCecCheckTimerStatusMsgLen (msg : HdmiCecMsg) : Bool :=
 let info := msg.operand &&& 0xf
 if (0 : UInt8) < msg.operand &&& 0x10 then
  !((info == 0x09 || info == 0x0b) && decide (msg.len < getMsgLen 3))
 else if info = 0x0e then !decide (msg.len < getMsgLen 3)
 else true

/-- `HdmiCecCheckRecordOnMsgLen`; the five record sources are 1 to 5. -/
def hdmiCecCheckRecordOnMsgLen (msg : HdmiCecMsg) : Bool :=
 if msg.operand = 1 then true
 else if msg.operand = 2 then !decide (msg.len < getMsgLen (1 + 7))
 else if msg.operand = 3 then !decide (msg.len < getMsgLen (1 + 1 + 2 + 1))
 else if msg.operand = 4 then !decide (msg.len < getMsgLen (1 + 1))
 else if msg.operand = 5 then !decide (msg.len < getMsgLen (1 + 2))
 else true

def hdmiCecCheckSomeSpecialfMsgLen (msg : HdmiCecMsg) (opcode : UInt8) : Bool :=
 if opcode = Opcode.timerStatus then hdmiCecCheckTimerStatusMsgLen msg
 else if opcode = Opcode.recordOn then hdmiCecCheckRecordOnMsgLen msg
 else true

def hdmiCecCheckMsgLen (cecVersion : UInt8) (msg : HdmiCecMsg) (opcode : UInt8) : Bool :=
 match hdmiCecGetMsgLenInfo opcode with
 | none => false
 | some info =>
  if msg.len < info.minLen then false
  else if hdmiCecIsBroadcastMsg msg = true ∧ info.type &&& MsgType.broadcast = 0 then false
  else if hdmiCecIsBroadcastMsg msg = false ∧ 0 < info.type &&& MsgType.broadcast then false
  else if hdmiCecIsBroadcastMsg msg = true ∧ 0 < info.type &&& MsgType.broadcast14 ∧
    cecVersion < hdmiCecVersion20 then false
  else hdmiCecCheckSomeSpecialfMsgLen msg opcode

namespace HdmiCecMsg

variable (m : HdmiCecMsg) (i : ℕ) (b : UInt8)

@[simp] theorem setByte_len : (m.setByte i b).len = m.len := rfl

@[simp] theorem setLen_len (len : ℕ) : (m.setLen len).len = len := rfl

@[simp] theorem setLen_data (len : ℕ) : (m.setLen len).data = m.data := rfl

@[simp] theorem setLen_outside (len : ℕ) : (m.setLen len).outside = m.outside := rfl

theorem setByte_outside (h : i < 20) : (m.setByte i b).outside = m.outside := by
 simp [setByte, Nat.not_le.mpr h]

theorem setByte_data_self (h : i < 20) : (m.setByte i b).data[i] = b := by
 simp [setByte]

theorem setByte_data_ne {j : ℕ} (hj : j < 20) (h : i ≠ j) :
 (m.setByte i b).data[j] = m.data[j] := by
 simp [setByte, h]

end HdmiCecMsg

end DriversFramework.HdmiCec
