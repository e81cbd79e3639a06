import DriversFramework.HdfBase
import DriversFramework.HdmiCecExchange
import Mathlib.Data.Nat.Bitwise

namespace DriversFramework.HdmiCec

def hdmiCecReceivedMsgResult (c : HdmiCntlr) (msg : HdmiCecMsg) : HdfStatus :=
 if c.cec = false then .errNotSupport
 else if msg.len < 2 then .errInvalidParam
 else
  let initiator := hdmiCecGetMsgInitiator msg
  let destination := hdmiCecGetMsgDestination msg
  let opcode := msg.opcode
  if initiator ≠ unregisteredOrBroadcast ∧ hdmiCecLogAddrValid c initiator = true then
   .errInvalidParam
  else if hdmiCecIsBroadcastMsg msg = false ∧ hdmiCecLogAddrValid c destination = false then
   .errInvalidParam
  else if c.info.logAddrMask = 0 then .errNotSupport
  else if hdmiCecIsCdcOnlyDevice c = true ∧ opcode ≠ Opcode.cdcMessage then .errNotSupport
  else if hdmiCecCheckMsgLen c.info.cecVersion msg opcode = false then .errInvalidParam
  else .success

def Processed (c : HdmiCntlr) (msg : HdmiCecMsg) : Prop :=
 hdmiCecReceivedMsgResult c msg = .success

theorem processed_iff_accepts (c : HdmiCntlr) (msg : HdmiCecMsg) :
  Processed c msg ↔ Accepts c msg := by
 constructor
 · intro done
   by_contra refused
   have failure := afterChecks_of_not_accepts refused HdfStatus.errNotSupport .errInvalidParam
    .errInvalidParam .errInvalidParam .errNotSupport .errNotSupport .errInvalidParam .success
   change hdmiCecReceivedMsgResult c msg ∈ _ at failure
   rw [Processed] at done
   rw [done] at failure
   exact absurd failure (by decide)
 · exact fun accepts => afterChecks_of_accepts accepts _ _ _ _ _ _ _ _

def Claimed (c : HdmiCntlr) (address : UInt8) : Prop :=
 c.info.logAddrMask.toNat.testBit address.toNat = true

def LengthChecked (c : HdmiCntlr) (msg : HdmiCecMsg) : Prop :=
 2 ≤ msg.len ∧ hdmiCecCheckMsgLen c.info.cecVersion msg msg.opcode = true

def MeantFor (held : UInt8 → Prop) (msg : HdmiCecMsg) : Prop :=
 (hdmiCecIsBroadcastMsg msg = true ∨ held (hdmiCecGetMsgDestination msg)) ∧
  (hdmiCecGetMsgInitiator msg = unregisteredOrBroadcast ∨ ¬held (hdmiCecGetMsgInitiator msg))

/-- Frames are taken by the addresses that the controller has claimed. -/
structure AddressedRight (c : HdmiCntlr) (msg : HdmiCecMsg) : Prop where
 ours : Processed c msg →
  hdmiCecIsBroadcastMsg msg = true ∨ Claimed c (hdmiCecGetMsgDestination msg)
 own : hdmiCecGetMsgInitiator msg ≠ unregisteredOrBroadcast →
  Claimed c (hdmiCecGetMsgInitiator msg) → ¬Processed c msg
 complete : MeantFor (Claimed c) msg → LengthChecked c msg → Processed c msg

/-- The bits of `logAddr`, which the test of an address looks at -/
def Tested (c : HdmiCntlr) (address : UInt8) : Prop :=
 c.info.logAddr.toNat.testBit address.toNat = true

def TakesPart (c : HdmiCntlr) (msg : HdmiCecMsg) : Prop :=
 c.cec = true ∧ c.info.logAddrMask ≠ 0 ∧
  (hdmiCecIsCdcOnlyDevice c = false ∨ msg.opcode = Opcode.cdcMessage)

/-- The bits of `logAddr` tell of the frame what those of the mask do. -/
def TestsAgree (c : HdmiCntlr) (msg : HdmiCecMsg) : Prop :=
 LengthChecked c msg →
  (TakesPart c msg ∧ MeantFor (Tested c) msg ↔ MeantFor (Claimed c) msg)

theorem logAddrValid_iff (c : HdmiCntlr) (address : UInt8) :
  hdmiCecLogAddrValid c address = true ↔ Tested c address := by
 unfold hdmiCecLogAddrValid Tested
 rw [Nat.one_shiftLeft, Nat.and_two_pow]
 cases c.info.logAddr.toNat.testBit address.toNat <;> simp

theorem accepts_iff (c : HdmiCntlr) (msg : HdmiCecMsg) :
  Accepts c msg ↔ LengthChecked c msg ∧ TakesPart c msg ∧ MeantFor (Tested c) msg := by
 unfold Accepts LengthChecked TakesPart MeantFor
 rw [← logAddrValid_iff, ← logAddrValid_iff, Bool.not_eq_true]
 tauto

def fourthDevice : HdmiCntlr :=
 { device 4 with info := { (device 4).info with logAddrMask := 0x10 } }

def givePowerStatus : HdmiCecMsg :=
 ((fresh 0x04).setByte 1 Opcode.giveDevicePowerStatus).setLen 2

end DriversFramework.HdmiCec
