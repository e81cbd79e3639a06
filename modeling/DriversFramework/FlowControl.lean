import Mathlib.Data.Nat.Bitwise

/-! To which queue the flow control of the WiFi platform (`flow_control.c`) gives an Ethernet frame.
A frame is the bytes of its buffer; a header is what is left of them where it begins. -/
namespace DriversFramework.FlowControl

inductive FlowControlQueueID where
 | ctrl
 | vip
 | normal
 | tcpData
 | tcpAck
 | bk
 | be
 | vi
 | vo
 | queueIdCount
 deriving DecidableEq

def byteAt (bytes : List UInt8) (i : ℕ) : ℕ := (bytes.getD i 0).toNat

/-- `ntohs` of the field that begins at `i`. -/
def ntohsAt (bytes : List UInt8) (i : ℕ) : ℕ := byteAt bytes i * 256 + byteAt bytes (i + 1)

def sizeofEtherHeader : ℕ := 14

def sizeofIpHeader : ℕ := 20

def sizeofUdpHeader : ℕ := 8

def sizeofTcpHeader : ℕ := 20

def etherTypeIp : ℕ := 0x0800

def udpProtocol : ℕ := 17

def tcpProtocol : ℕ := 6

def ipPriShift : ℕ := 5

def dhcpUdpSrcPort : ℕ := 68

def dhcpUdpDesPort : ℕ := 67

def protocolStandardShiftCount : ℕ := 2

def tosToIdHash : List FlowControlQueueID := [.be, .bk, .bk, .be, .vi, .vi]

def tosToFcQueueId (priority : ℕ) : FlowControlQueueID := tosToIdHash.getD priority .vo

def isDhcpPort (udpHdr : List UInt8) : Bool :=
 if udpHdr.length < sizeofUdpHeader then false
 else ntohsAt udpHdr 2 = dhcpUdpSrcPort || ntohsAt udpHdr 2 = dhcpUdpDesPort

def isTcpKeyFrame (ipHeader : List UInt8) : Bool :=
 if ipHeader.length < sizeofIpHeader then false
 else if ipHeader.length - sizeofIpHeader < sizeofTcpHeader then false
 else
  let tcpHdr := ipHeader.drop sizeofIpHeader
  let ipPktLen := ntohsAt ipHeader 2
  let ipHdrLen := (byteAt ipHeader 0 &&& 0x0F) <<< protocolStandardShiftCount
  let tcpHdrLen := (byteAt tcpHdr 12 &&& 0xF0) <<< protocolStandardShiftCount
  tcpHdrLen + ipHdrLen = ipPktLen

def ipProcessFunc (buff : List UInt8) : FlowControlQueueID :=
 if buff.length < sizeofIpHeader then .queueIdCount
 else if byteAt buff 9 = udpProtocol then
  let id := tosToFcQueueId (byteAt buff 1 >>> ipPriShift)
  if buff.length - sizeofIpHeader < sizeofUdpHeader then .queueIdCount
  else if ntohsAt buff 6 &&& 0x1FFF = 0 ∧ isDhcpPort (buff.drop sizeofIpHeader) then .vip
  else id
 else if byteAt buff 9 = tcpProtocol then
  if isTcpKeyFrame buff then .tcpAck else .tcpData
 else .normal

def etherTypeProMap : List (ℕ × Option (List UInt8 → FlowControlQueueID)) :=
 [(etherTypeIp, some ipProcessFunc), (0x86dd, none), (0x888e, none), (0x890d, none),
  (0x8863, none), (0x8864, none), (0x88b4, none), (0x8100, none)]

/-- `none` is a null buffer. -/
def getQueueIdByEtherBuff (buff : Option (List UInt8)) : FlowControlQueueID :=
 match buff with
 | none => .queueIdCount
 | some header =>
  if header.length < sizeofEtherHeader then .queueIdCount
  else
   match etherTypeProMap.find? fun entry => entry.1 = ntohsAt header 12 with
   | some (_, some processFun) => processFun (header.drop sizeofEtherHeader)
   | some (_, none) => .vip
   | none => .normal

/-- The length of the IP header, in bytes. -/
def ipHdrLen (ip : List UInt8) : ℕ := 4 * (byteAt ip 0 % 16)

/-- The length of the TCP header in bytes, as its data offset says, which is behind the options
of the IP header. -/
def tcpHdrLen (ip : List UInt8) : ℕ := 4 * (byteAt ip (ipHdrLen ip + 12) / 16)

/-- An Ethernet frame with version 4, an IP header of any length from 20 bytes, and the fixed part
of a TCP header behind it. -/
structure IsTcpOverIpv4 (frame ip : List UInt8) : Prop where
 type : ntohsAt frame 12 = etherTypeIp
 packet : ip = frame.drop sizeofEtherHeader
 version : byteAt ip 0 / 16 = 4
 header : sizeofIpHeader ≤ ipHdrLen ip
 protocol : byteAt ip 9 = tcpProtocol
 whole : ipHdrLen ip + sizeofTcpHeader ≤ ip.length

/-- No payload: the total length is that of both headers. -/
def IsPureAck (ip : List UInt8) : Prop := ntohsAt ip 2 = ipHdrLen ip + tcpHdrLen ip

instance (ip : List UInt8) : Decidable (IsPureAck ip) :=
 inferInstanceAs (Decidable (ntohsAt ip 2 = ipHdrLen ip + tcpHdrLen ip))

/-- What the code takes for the length of the TCP header. -/
def readTcpHdrLen (ip : List UInt8) : ℕ := 64 * (byteAt ip (sizeofIpHeader + 12) / 16)

variable {frame ip : List UInt8}

theorem byteAt_lt (bytes : List UInt8) (i : ℕ) : byteAt bytes i < 256 := (bytes.getD i 0).toNat_lt

theorem byteAt_drop (bytes : List UInt8) (n i : ℕ) : byteAt (bytes.drop n) i = byteAt bytes (n + i) := by
 unfold byteAt
 rw [List.getD_eq_getElem?_getD, List.getD_eq_getElem?_getD, List.getElem?_drop]

theorem low_nibble_shift (b : ℕ) : (b &&& 0x0F) <<< protocolStandardShiftCount = 4 * (b % 16) := by
 rw [show (0x0F : ℕ) = 2 ^ 4 - 1 from rfl, Nat.and_two_pow_sub_one_eq_mod]
 change (b % 2 ^ 4) <<< 2 = _
 rw [Nat.shiftLeft_eq]
 omega

theorem high_nibble_shift {b : ℕ} (h : b < 256) :
  (b &&& 0xF0) <<< protocolStandardShiftCount = 64 * (b / 16) := by
 have every : ∀ b : Fin 256, (b.val &&& 0xF0) <<< 2 = 64 * (b.val / 16) := by decide +kernel
 exact every ⟨b, h⟩

theorem isTcpKeyFrame_iff (whole : sizeofIpHeader + sizeofTcpHeader ≤ ip.length) :
  isTcpKeyFrame ip = true ↔ ntohsAt ip 2 = ipHdrLen ip + readTcpHdrLen ip := by
 unfold sizeofIpHeader sizeofTcpHeader at whole
 unfold isTcpKeyFrame
 rw [if_neg (by unfold sizeofIpHeader; omega),
  if_neg (by unfold sizeofIpHeader sizeofTcpHeader; omega)]
 dsimp only
 rw [byteAt_drop, low_nibble_shift, high_nibble_shift (byteAt_lt ..), decide_eq_true_eq]
 unfold ipHdrLen readTcpHdrLen
 omega

theorem classified_iff (tcp : IsTcpOverIpv4 frame ip) :
  getQueueIdByEtherBuff (some frame) = .tcpAck ↔ isTcpKeyFrame ip = true := by
 have header := tcp.header
 have whole := tcp.whole
 have long : sizeofEtherHeader ≤ frame.length := by
  rw [tcp.packet, List.length_drop] at whole
  unfold sizeofIpHeader sizeofTcpHeader sizeofEtherHeader at *
  omega
 have found : etherTypeProMap.find? (fun entry => entry.1 = ntohsAt frame 12) =
   some (etherTypeIp, some ipProcessFunc) := by
  rw [tcp.type]
  rfl
 unfold getQueueIdByEtherBuff
 dsimp only
 rw [if_neg (Nat.not_lt.mpr long), found]
 dsimp only
 rw [← tcp.packet]
 unfold ipProcessFunc
 rw [if_neg (by omega), tcp.protocol, if_neg (by decide), if_pos rfl]
 cases isTcpKeyFrame ip <;> simp

/-- A frame is taken for a pure ACK exactly if it is one, exactly if it is none and its length is
not the one the code looks for, or its total length is that of the IP header and both data offsets
are 0. -/
theorem pure_ack_iff (tcp : IsTcpOverIpv4 frame ip) :
    (getQueueIdByEtherBuff (some frame) = .tcpAck ↔ IsPureAck ip) ↔
      (¬ IsPureAck ip ∧ ntohsAt ip 2 ≠ ipHdrLen ip + readTcpHdrLen ip) ∨
        (ntohsAt ip 2 = ipHdrLen ip ∧ tcpHdrLen ip = 0 ∧ readTcpHdrLen ip = 0) := by
  have whole : sizeofIpHeader + sizeofTcpHeader ≤ ip.length :=
    (Nat.add_le_add_right tcp.header _).trans tcp.whole
  rw [classified_iff tcp, isTcpKeyFrame_iff whole]
  -- both lengths are right for no data offset but 0
  have small := byteAt_lt ip (ipHdrLen ip + 12)
  have bound : tcpHdrLen ip < 64 := by
    unfold tcpHdrLen
    omega
  have step : readTcpHdrLen ip = 0 ∨ 64 ≤ readTcpHdrLen ip := by
    unfold readTcpHdrLen
    omega
  unfold IsPureAck
  constructor
  · intro same
    by_cases ack : ntohsAt ip 2 = ipHdrLen ip + tcpHdrLen ip
    · have read := same.mpr ack
      exact .inr (by omega)
    · exact .inl ⟨ack, fun read => ack (same.mp read)⟩
  · rintro (⟨notAck, notRead⟩ | ⟨total, ack, read⟩)
    · exact iff_of_false notRead notAck
    · exact iff_of_true (by omega) (by omega)

/-- A frame of `n` zero bytes with version 4, this number of words of the IP header, this total
length, the protocol TCP and this data offset. -/
def zeroFrame (n : ℕ) (words total offset : UInt8) : List UInt8 :=
 (((((List.replicate n 0).set 12 0x08).set 14 (0x40 + words)).set 17 total).set 23 6).set 46
  (16 * offset)

/-- An ACK without options and payload, 40 bytes in all, goes to the queue of data. -/
theorem ack_taken_for_data : IsTcpOverIpv4 (zeroFrame 54 5 40 5) ((zeroFrame 54 5 40 5).drop 14) ∧
      IsPureAck ((zeroFrame 54 5 40 5).drop 14) ∧
      getQueueIdByEtherBuff (some (zeroFrame 54 5 40 5)) = .tcpData :=
  ⟨⟨by decide, rfl, by decide, by decide, by decide, by decide⟩, by decide, by decide⟩

/-- 100 bytes with payload: what the code looks for is 340. -/
theorem pure_ack_payload : getQueueIdByEtherBuff (some (zeroFrame 114 5 100 5)) = .tcpAck ↔
      IsPureAck ((zeroFrame 114 5 100 5).drop 14) :=
  (pure_ack_iff ⟨by decide, rfl, by decide, by decide, by decide, by decide⟩).mpr
    (.inl ⟨by decide, by decide⟩)

end DriversFramework.FlowControl
