import Mathlib.Algebra.BigOperators.Group.Finset.Basic
import Mathlib.Data.UInt
import DriversFramework.HdfBase

/-! `hdmi_infoframe.c`: an InfoFrame of one of five types becomes the bytes of a packet, three of
header, one that makes the sum zero, and the payload. An enumeration's value is a word of 32 bits,
any of which the encoders take; the packet is a memory, of which the encoders are given `len` bytes.
-/
namespace DriversFramework.HdmiInfoFrame

open Finset

def hdmiInfoFrameLen : ℕ := 32
def hdmiInfoFramePacketHeaderLen : ℕ := 4
def hdmiInfoFrameChecksum : ℕ := 256
def hdmiIeeeOui14 : UInt32 := 0x000c03
def hdmiVsVideoFormat4k : UInt32 := 1
def hdmiVsVideoFormat3d : UInt32 := 2

/-- `HdmiVs14VsifContent` and `HdmiVsUserVsifContent`, which lie in one memory. They agree up to
`_3dStruct`; `tail` has the bytes that follow it, which the one takes for `_3dExtData` and what is
behind it, and the other for `len` and `data`. -/
structure HdmiVsifContent where
 oui : UInt32
 format : UInt32
 vic : UInt32
 metaPresent3d : Bool
 struct3d : UInt32
 tail : ℕ → UInt8

def HdmiVsifContent.extData3d (v : HdmiVsifContent) : UInt8 := v.tail 0

def HdmiVsifContent.userLen (v : HdmiVsifContent) : UInt8 := v.tail 0

def HdmiVsifContent.userData (v : HdmiVsifContent) (n : ℕ) : List UInt8 :=
 (List.range n).map fun i => v.tail (i + 1)

structure HdmiAviInfoFrame where
 scanMode : UInt32
 vertBarInfoPresent : Bool
 horizBarInfoPresent : Bool
 activeFormatInformationPresent : Bool
 colorSpace : UInt32
 activeAspect : UInt32
 pictureAspect : UInt32
 colorimetry : UInt32
 nups : UInt32
 range : UInt32
 extColorimetry : UInt32
 itc : Bool
 vic : UInt8
 pixelRepetitionFactor : UInt8
 itcType : UInt32
 yccRange : UInt32
 topBar : UInt16
 bottomBar : UInt16
 leftBar : UInt16
 rightBar : UInt16

structure HdmiSpdInfoFrame where
 vendorName : Vector UInt8 8
 productDescription : Vector UInt8 16
 sdi : UInt32

structure HdmiAudioInfoFrame where
 channelCount : UInt8
 codingType : UInt32
 sampleSize : UInt32
 sampleFreq : UInt32
 codingExtType : UInt32
 channelAllocation : UInt8
 playBackLevel : UInt32
 levelShiftValue : UInt8
 dmInh : Bool

structure HdmiStaticMetadata where
 displayPrimaries0X : UInt16
 displayPrimaries0Y : UInt16
 displayPrimaries1X : UInt16
 displayPrimaries1Y : UInt16
 displayPrimaries2X : UInt16
 displayPrimaries2Y : UInt16
 whitePointX : UInt16
 whitePointY : UInt16
 maxDisplayMasteringLuminance : UInt16
 minDisplayMasteringLuminance : UInt16
 maxContentLightLevel : UInt16
 maxFrameAverageLightLevel : UInt16

structure HdmiDrmInfoFrame where
 eotfType : UInt32
 metadataType : UInt32
 des : HdmiStaticMetadata

inductive HdmiInfoFrameContent where
 | vs (content : HdmiVsifContent)
 | avi (content : HdmiAviInfoFrame)
 | spd (content : HdmiSpdInfoFrame)
 | audio (content : HdmiAudioInfoFrame)
 | drm (content : HdmiDrmInfoFrame)
 | other (type : UInt32)

structure HdmiInfoFrameInfo where
 verNum : UInt8
 len : UInt8
 content : HdmiInfoFrameContent

def HdmiInfoFrameInfo.type (info : HdmiInfoFrameInfo) : UInt32 :=
 match info.content with
 | .vs _ => 0x81
 | .avi _ => 0x82
 | .spd _ => 0x83
 | .audio _ => 0x84
 | .drm _ => 0x87
 | .other t => t

abbrev Packet := ℕ → UInt8

def memset (data : Packet) (len : ℕ) : Packet := fun i => if i < len then 0 else data i

def store (data : Packet) (off : ℕ) : List UInt8 → Packet
 | [] => data
 | b :: bs => store (Function.update data off b) (off + 1) bs

def byteSum (data : Packet) : ℕ → UInt8
 | 0 => 0
 | len + 1 => byteSum data len + data len

def hdmiInfoFrameFillCheckSum (data : Packet) (len : ℕ) : Packet :=
 if 0 < byteSum data len then
  Function.update data 3 (UInt8.ofNat (hdmiInfoFrameChecksum - (byteSum data len).toNat))
 else data

def hdmiInfoFrameFillHeader (info : HdmiInfoFrameInfo) (data : Packet) (len : ℕ) : Packet :=
 if len < hdmiInfoFramePacketHeaderLen then data
 else store data 0 [info.type.toUInt8, info.verNum, info.len]

/-- `memcpy_s` of all of `bytes` to a destination of `destMax` bytes -/
def memcpyS (data : Packet) (off destMax : ℕ) (bytes : List UInt8) : Except HdfStatus Packet :=
 if destMax < bytes.length then .error .errIo else .ok (store data off bytes)

def hdmiInfoFramePacketVsEncoding (info : HdmiInfoFrameInfo) (vs : HdmiVsifContent)
  (data : Packet) (len : ℕ) : Except HdfStatus Packet :=
 let lenght := hdmiInfoFramePacketHeaderLen + info.len.toNat
 if len < lenght then .error .errInvalidParam
 else
  let data := hdmiInfoFrameFillHeader info (memset data len) len
  if vs.oui = hdmiIeeeOui14 then
   let data := store data 4 [0x03, 0x0C, 0x00, ((vs.format &&& 0x07) <<< 5).toUInt8]
   if vs.format = hdmiVsVideoFormat4k then .ok (Function.update data 8 vs.vic.toUInt8)
   else
    let data :=
     if vs.format = hdmiVsVideoFormat3d then
      Function.update data 8 ((vs.struct3d &&& 0x0f) <<< 4).toUInt8
     else data
    let data := Function.update data 9 ((vs.extData3d &&& 0x0f) <<< 4)
    if vs.metaPresent3d = false then
     if vs.userLen = 0 ∨ len < vs.userLen.toNat + lenght then .ok data
     else do
      let data ← memcpyS data lenght (len - lenght) (vs.userData vs.userLen.toNat)
      return hdmiInfoFrameFillCheckSum data (lenght + vs.userLen.toNat)
    else .ok (hdmiInfoFrameFillCheckSum data lenght)
  else .ok (hdmiInfoFrameFillCheckSum data lenght)

/-- `|= (1 << shift)` where the flag is set -/
def flagBit (flag : Bool) (shift : UInt8) : UInt8 := if flag then 1 <<< shift else 0

def field (value mark shift : UInt32) : UInt8 := ((value &&& mark) <<< shift).toUInt8

def lowByte (value : UInt16) : UInt8 := (value &&& 0xff).toUInt8

def highByte (value : UInt16) : UInt8 := ((value >>> 8) &&& 0xff).toUInt8

def aviPayload (avi : HdmiAviInfoFrame) : List UInt8 :=
 [field avi.colorSpace 0x03 5 ||| field avi.scanMode 0x03 0
   ||| flagBit avi.activeFormatInformationPresent 4
   ||| flagBit avi.horizBarInfoPresent 3 ||| flagBit avi.vertBarInfoPresent 2,
  field avi.colorimetry 0x03 6 ||| field avi.pictureAspect 0x03 4 ||| field avi.activeAspect 0x0f 0,
  field avi.extColorimetry 0x07 4 ||| field avi.range 0x03 2 ||| field avi.nups 0x03 0
   ||| flagBit avi.itc 7,
  avi.vic,
  field avi.yccRange 0x03 6 ||| field avi.itcType 0x03 4 ||| (avi.pixelRepetitionFactor &&& 0x0f),
  lowByte avi.topBar, highByte avi.topBar, lowByte avi.bottomBar, highByte avi.bottomBar,
  lowByte avi.leftBar, highByte avi.leftBar, lowByte avi.rightBar, highByte avi.rightBar]

def audioPayload (audio : HdmiAudioInfoFrame) : List UInt8 :=
 [field audio.codingType 0x0f 4 ||| (audio.channelCount &&& 0x07),
  field audio.sampleFreq 0x07 2 ||| field audio.sampleSize 0x03 0,
  field audio.codingExtType 0x1f 0,
  audio.channelAllocation,
  ((audio.levelShiftValue &&& 0x0f) <<< 3) ||| field audio.playBackLevel 0x03 0
   ||| flagBit audio.dmInh 7]

/-- `PB1` to `PB26`. Of the words after the first, both bytes are the low one: the source masks
twice where it shifts the first. -/
def drmPayload (drm : HdmiDrmInfoFrame) : List UInt8 :=
 let des := drm.des
 [drm.eotfType.toUInt8, drm.metadataType.toUInt8,
  lowByte des.displayPrimaries0X, highByte des.displayPrimaries0X,
  lowByte des.displayPrimaries0Y, lowByte des.displayPrimaries0Y,
  lowByte des.displayPrimaries1X, lowByte des.displayPrimaries1X,
  lowByte des.displayPrimaries1Y, lowByte des.displayPrimaries1Y,
  lowByte des.displayPrimaries2X, lowByte des.displayPrimaries2X,
  lowByte des.displayPrimaries2Y, lowByte des.displayPrimaries2Y,
  lowByte des.whitePointX, lowByte des.whitePointX,
  lowByte des.whitePointY, lowByte des.whitePointY,
  lowByte des.maxDisplayMasteringLuminance, lowByte des.maxDisplayMasteringLuminance,
  lowByte des.minDisplayMasteringLuminance, lowByte des.minDisplayMasteringLuminance,
  lowByte des.maxContentLightLevel, lowByte des.maxContentLightLevel,
  lowByte des.maxFrameAverageLightLevel, lowByte des.maxFrameAverageLightLevel]

def encodePayload (info : HdmiInfoFrameInfo) (payload : List UInt8) (data : Packet) (len : ℕ) :
  Except HdfStatus Packet :=
 let lenght := hdmiInfoFramePacketHeaderLen + info.len.toNat
 if len < lenght then .error .errInvalidParam
 else
  let data := hdmiInfoFrameFillHeader info (memset data len) len
  .ok (hdmiInfoFrameFillCheckSum (store data hdmiInfoFramePacketHeaderLen payload) lenght)

def hdmiInfoFramePacketAviEncoding (info : HdmiInfoFrameInfo) (avi : HdmiAviInfoFrame)
  (data : Packet) (len : ℕ) : Except HdfStatus Packet :=
 encodePayload info (aviPayload avi) data len

def hdmiInfoFramePacketAudioEncoding (info : HdmiInfoFrameInfo) (audio : HdmiAudioInfoFrame)
  (data : Packet) (len : ℕ) : Except HdfStatus Packet :=
 encodePayload info (audioPayload audio) data len

def hdmiInfoFramePacketDrmEncoding (info : HdmiInfoFrameInfo) (drm : HdmiDrmInfoFrame)
  (data : Packet) (len : ℕ) : Except HdfStatus Packet :=
 encodePayload info (drmPayload drm) data len

def hdmiInfoFramePacketSpdEncoding (info : HdmiInfoFrameInfo) (spd : HdmiSpdInfoFrame)
  (data : Packet) (len : ℕ) : Except HdfStatus Packet :=
 let lenght := hdmiInfoFramePacketHeaderLen + info.len.toNat
 if len < lenght then .error .errInvalidParam
 else do
  let data ← memcpyS (memset data len) 4 (len - 4) spd.vendorName.toList
  let data ← memcpyS data 12 (len - 4 - 8) spd.productDescription.toList
  return hdmiInfoFrameFillCheckSum (Function.update data 28 spd.sdi.toUInt8) lenght

def hdmiInfoFramePacketEncoding (info : HdmiInfoFrameInfo) (data : Packet) (len : ℕ) :
  Except HdfStatus Packet :=
 match info.content with
 | .vs c => hdmiInfoFramePacketVsEncoding info c data len
 | .avi c => hdmiInfoFramePacketAviEncoding info c data len
 | .spd c => hdmiInfoFramePacketSpdEncoding info c data len
 | .audio c => hdmiInfoFramePacketAudioEncoding info c data len
 | .drm c => hdmiInfoFramePacketDrmEncoding info c data len
 | .other _ => .error .errNotSupport

/-- What `HdmiInfoFrameSend` hands to the driver: its buffer starts as zeros. -/
def hdmiInfoFrameBuffer (info : HdmiInfoFrameInfo) : Except HdfStatus Packet :=
 hdmiInfoFramePacketEncoding info (fun _ => 0) hdmiInfoFrameLen

theorem HdmiVsifContent.userData_length (v : HdmiVsifContent) (n : ℕ) :
  (v.userData n).length = n := by
 simp [userData]

variable (data : Packet)

theorem memcpyS_ok (off : ℕ) {destMax : ℕ} {bytes : List UInt8}
  (h : bytes.length ≤ destMax) : memcpyS data off destMax bytes = .ok (store data off bytes) :=
 if_neg (Nat.not_lt.mpr h)

theorem byteSum_toNat (n : ℕ) :
  (byteSum data n).toNat = (∑ i ∈ range n, (data i).toNat) % 256 := by
 induction n with
 | zero => rfl
 | succ n ih =>
  rw [sum_range_succ, byteSum, UInt8.toNat_add, ih]
  omega

theorem byteSum_congr {data data' : Packet} {n : ℕ} (h : ∀ i < n, data i = data' i) :
  byteSum data n = byteSum data' n := by
 induction n with
 | zero => rfl
 | succ n ih =>
  rw [byteSum, byteSum, ih fun i hi => h i (by omega), h n (by omega)]

theorem byteSum_update {i n : ℕ} (v : UInt8) (h : i < n) :
  byteSum (Function.update data i v) n = byteSum data n - data i + v := by
 induction n with
 | zero => omega
 | succ n ih =>
  rw [byteSum, byteSum]
  by_cases hi : i = n
  · subst hi
    rw [Function.update_self, byteSum_congr fun j hj => Function.update_of_ne (by omega) _ _]
    grind
  · rw [Function.update_of_ne (by omega), ih (by omega)]
    grind

theorem byteSum_add (m n : ℕ) :
  byteSum data (m + n) = byteSum data m + byteSum (fun i => data (m + i)) n := by
 induction n with
 | zero => simp [byteSum]
 | succ n ih =>
  rw [← Nat.add_assoc, byteSum, byteSum, ih]
  grind

theorem byteSum_fillCheckSum {data : Packet} {len : ℕ} (h : data 3 = 0) (hl : 3 < len) :
  byteSum (hdmiInfoFrameFillCheckSum data len) len = 0 := by
 unfold hdmiInfoFrameFillCheckSum
 split
 · rw [byteSum_update data _ hl, h]
   have hs := (byteSum data len).toNat_lt
   apply UInt8.toNat_inj.mp
   simp only [hdmiInfoFrameChecksum, UInt8.toNat_add, UInt8.toNat_sub, UInt8.toNat_ofNat',
    UInt8.toNat_zero]
   omega
 · rename_i hs
   have hs := UInt8.not_lt.mp hs
   apply UInt8.toNat_inj.mp
   rw [UInt8.le_iff_toNat_le] at hs
   simpa using hs

theorem fillCheckSum_of_ne (len : ℕ) {i : ℕ} (h : i ≠ 3) :
  hdmiInfoFrameFillCheckSum data len i = data i := by
 unfold hdmiInfoFrameFillCheckSum
 split
 · exact Function.update_of_ne h _ _
 · rfl

theorem store_of_lt {off i : ℕ} (bytes : List UInt8) (h : i < off) :
  store data off bytes i = data i := by
 induction bytes generalizing data off with
 | nil => rfl
 | cons b bs ih =>
  rw [store, ih _ (by omega), Function.update_of_ne (by omega)]

theorem store_add (off i : ℕ) (bytes : List UInt8) :
  store data off bytes (off + i) = bytes[i]?.getD (data (off + i)) := by
 induction bytes generalizing data off i with
 | nil => rfl
 | cons b bs ih =>
  rw [store]
  cases i with
  | zero => simp [store_of_lt _ _ (Nat.lt_succ_self off)]
  | succ i =>
   rw [show off + (i + 1) = off + 1 + i by omega, ih, Function.update_of_ne (by omega)]
   rfl

theorem byteSum_store (off n : ℕ) (bytes : List UInt8)
  (h : ∀ i, bytes.length ≤ i → i < n → data (off + i) = 0) :
  byteSum (fun i => store data off bytes (off + i)) n = (bytes.take n).sum := by
 induction n with
 | zero => simp [byteSum]
 | succ n ih =>
  rw [byteSum, ih fun i hl hi => h i hl (by omega), store_add, List.take_add_one, List.sum_append]
  by_cases hn : n < bytes.length
  · simp [List.getElem?_eq_getElem hn]
  · rw [List.getElem?_eq_none (by omega), h n (by omega) (by omega)]
    rfl

/-- The three bytes of the header, and a sum of zero over what the length counts -/
structure Sealed (info : HdmiInfoFrameInfo) (data : Packet) : Prop where
 type : data 0 = info.type.toUInt8
 verNum : data 1 = info.verNum
 len : data 2 = info.len
 sum : (∑ i ∈ range (hdmiInfoFramePacketHeaderLen + info.len.toNat), (data i).toNat) % 256 = 0

/-- The sum of the header and of the part of `payload` that its length counts -/
def countedSum (info : HdmiInfoFrameInfo) (payload : List UInt8) : UInt8 :=
 info.type.toUInt8 + info.verNum + info.len + (payload.take info.len.toNat).sum

def vsPayload4k (vs : HdmiVsifContent) : List UInt8 :=
 [0x03, 0x0C, 0x00, ((vs.format &&& 0x07) <<< 5).toUInt8, vs.vic.toUInt8]

def vsPayload (vs : HdmiVsifContent) : List UInt8 :=
 [0x03, 0x0C, 0x00, ((vs.format &&& 0x07) <<< 5).toUInt8,
  if vs.format = hdmiVsVideoFormat3d then ((vs.struct3d &&& 0x0f) <<< 4).toUInt8 else 0,
  (vs.extData3d &&& 0x0f) <<< 4]

def VsSumsUp (info : HdmiInfoFrameInfo) (vs : HdmiVsifContent) : Prop :=
 vs.oui = hdmiIeeeOui14 →
  if vs.format = hdmiVsVideoFormat4k then countedSum info (vsPayload4k vs) = 0
  else vs.metaPresent3d = false →
   if vs.userLen = 0 ∨
     hdmiInfoFrameLen < vs.userLen.toNat + (hdmiInfoFramePacketHeaderLen + info.len.toNat) then
    countedSum info (vsPayload vs) = 0
   else (vs.userData vs.userLen.toNat).sum = 0

def SumsUp (info : HdmiInfoFrameInfo) : Prop :=
 match info.content with
 | .vs c => VsSumsUp info c
 | .spd _ => False
 | _ => True

structure Headed (info : HdmiInfoFrameInfo) (data : Packet) : Prop where
 type : data 0 = info.type.toUInt8
 verNum : data 1 = info.verNum
 len : data 2 = info.len
 checkSum : data 3 = 0

theorem Headed.store {info : HdmiInfoFrameInfo} {data : Packet} (h : Headed info data) {off : ℕ}
  (ho : 4 ≤ off) (bytes : List UInt8) : Headed info (store data off bytes) := by
 constructor
 · rw [store_of_lt _ _ (by omega), h.type]
 · rw [store_of_lt _ _ (by omega), h.verNum]
 · rw [store_of_lt _ _ (by omega), h.len]
 · rw [store_of_lt _ _ (by omega), h.checkSum]

/-- The memory after `memset_s` and the header -/
abbrev blank (info : HdmiInfoFrameInfo) (data : Packet) : Packet :=
 hdmiInfoFrameFillHeader info (memset data hdmiInfoFrameLen) hdmiInfoFrameLen

variable (info : HdmiInfoFrameInfo)

theorem blank_headed (data : Packet) : Headed info (blank info data) := by
 constructor <;> rfl

theorem blank_zero (data : Packet) {i : ℕ} (h : 4 + i < 32) : blank info data (4 + i) = 0 := by
 change store (memset data 32) 0 [info.type.toUInt8, info.verNum, info.len] (4 + i) = 0
 rw [← Nat.zero_add (4 + i), store_add, List.getElem?_eq_none (by simp; omega)]
 simp [memset, h]

theorem Headed.sealed_iff {info : HdmiInfoFrameInfo} {data : Packet} (h : Headed info data)
  {data' : Packet} (hd : ∀ i, i ≠ 3 → data' i = data i) :
  Sealed info data' ↔ byteSum data' (hdmiInfoFramePacketHeaderLen + info.len.toNat) = 0 := by
 have hs := byteSum_toNat data' (hdmiInfoFramePacketHeaderLen + info.len.toNat)
 constructor
 · intro hw
   apply UInt8.toNat_inj.mp
   rw [hs, hw.sum]
   rfl
 · intro hz
   rw [hz] at hs
   exact ⟨(hd 0 (by omega)).trans h.type, (hd 1 (by omega)).trans h.verNum,
    (hd 2 (by omega)).trans h.len, hs.symm⟩

theorem Headed.sealed {info : HdmiInfoFrameInfo} {data : Packet} (h : Headed info data) :
  Sealed info
   (hdmiInfoFrameFillCheckSum data (hdmiInfoFramePacketHeaderLen + info.len.toNat)) := by
 rw [h.sealed_iff fun i hi => fillCheckSum_of_ne data _ hi]
 exact byteSum_fillCheckSum h.checkSum (by simp only [hdmiInfoFramePacketHeaderLen]; omega)

theorem Headed.byteSum_four {info : HdmiInfoFrameInfo} {data : Packet} (h : Headed info data) :
  byteSum data 4 = info.type.toUInt8 + info.verNum + info.len := by
 simp only [byteSum, h.type, h.verNum, h.len, h.checkSum]
 grind

theorem sealed_iff_countedSum (data : Packet) (payload : List UInt8)
  (hl : 4 + info.len.toNat ≤ 32) :
  Sealed info (store (blank info data) 4 payload) ↔ countedSum info payload = 0 := by
 have hh := (blank_headed info data).store le_rfl payload
 rw [hh.sealed_iff fun _ _ => rfl]
 simp only [hdmiInfoFramePacketHeaderLen]
 rw [byteSum_add, hh.byteSum_four, byteSum_store]
 · rfl
 · intro i _ hi
   exact blank_zero info data (by omega)

theorem encodePayload_sealed {info : HdmiInfoFrameInfo} {payload : List UInt8}
  {data data' : Packet} (h : encodePayload info payload data hdmiInfoFrameLen = .ok data') :
  Sealed info data' := by
 simp only [encodePayload] at h
 split at h
 · cases h
 · injection h with h
   subst h
   exact ((blank_headed info data).store le_rfl payload).sealed

theorem spd_type {info : HdmiInfoFrameInfo} {spd : HdmiSpdInfoFrame} {data data' : Packet}
  (h : hdmiInfoFramePacketSpdEncoding info spd data hdmiInfoFrameLen = .ok data') :
  data' 0 = 0 := by
 simp only [hdmiInfoFramePacketSpdEncoding] at h
 split at h
 · cases h
 · simp only [memcpyS, Vector.length_toList] at h
   injection h with h
   subst h
   rw [fillCheckSum_of_ne _ _ (by omega), Function.update_of_ne (by omega),
    store_of_lt _ _ (by omega), store_of_lt _ _ (by omega)]
   rfl

def vsBytes (vs : HdmiVsifContent) (data : Packet) : Packet :=
 let data := store data 4 [0x03, 0x0C, 0x00, ((vs.format &&& 0x07) <<< 5).toUInt8]
 let data :=
  if vs.format = hdmiVsVideoFormat3d then
   Function.update data 8 ((vs.struct3d &&& 0x0f) <<< 4).toUInt8
  else data
 Function.update data 9 ((vs.extData3d &&& 0x0f) <<< 4)

theorem vsBytes_eq (vs : HdmiVsifContent) (data : Packet) :
  vsBytes vs (blank info data) = store (blank info data) 4 (vsPayload vs) := by
 unfold vsBytes vsPayload
 by_cases h : vs.format = hdmiVsVideoFormat3d
 · simp only [h, if_true, store]
 simp only [h, if_false, store]
 congr 1
 symm
 apply Function.update_eq_self_iff.mpr
 have h8 : blank info data 8 = 0 := blank_zero info data (i := 4) (by omega)
 simp [h8]

theorem vsBytes_headed (vs : HdmiVsifContent) (data : Packet) :
  Headed info (vsBytes vs (blank info data)) := by
 rw [vsBytes_eq]
 exact (blank_headed info data).store le_rfl _

theorem sealed_iff_userSum {data : Packet} (h : Headed info data) (user : List UInt8) :
  Sealed info (hdmiInfoFrameFillCheckSum
    (store data (hdmiInfoFramePacketHeaderLen + info.len.toNat) user)
    (hdmiInfoFramePacketHeaderLen + info.len.toNat + user.length)) ↔ user.sum = 0 := by
 have h4 : 4 ≤ hdmiInfoFramePacketHeaderLen + info.len.toNat := Nat.le_add_right _ _
 have hh := h.store h4 user
 rw [hh.sealed_iff fun i hi => fillCheckSum_of_ne _ _ hi]
 generalize hdmiInfoFramePacketHeaderLen + info.len.toNat = n at h4 hh ⊢
 have hall : byteSum (hdmiInfoFrameFillCheckSum (store data n user) (n + user.length))
   (n + user.length) = 0 := byteSum_fillCheckSum hh.checkSum (by omega)
 have huser : byteSum (fun i =>
   hdmiInfoFrameFillCheckSum (store data n user) (n + user.length) (n + i)) user.length =
    user.sum := by
  rw [byteSum_congr fun i _ => fillCheckSum_of_ne _ _ (show n + i ≠ 3 by omega), byteSum_store,
   List.take_length]
  intro i hl hi
  omega
 rw [byteSum_add, huser] at hall
 constructor
 · intro hz
   rw [hz] at hall
   grind
 · intro hz
   rw [hz] at hall
   grind

theorem vs_sealed_iff {info : HdmiInfoFrameInfo} {vs : HdmiVsifContent} {data data' : Packet}
  (h : hdmiInfoFramePacketVsEncoding info vs data hdmiInfoFrameLen = .ok data') :
  Sealed info data' ↔ VsSumsUp info vs := by
 simp only [hdmiInfoFramePacketVsEncoding] at h
 split at h
 · cases h
 rename_i hl
 have hl' : 4 + info.len.toNat ≤ 32 := by
  simpa [hdmiInfoFramePacketHeaderLen, hdmiInfoFrameLen] using hl
 unfold VsSumsUp
 split at h
 · rename_i houi
   rw [imp_iff_right houi]
   split at h
   · rename_i hf
     injection h with h
     subst h
     rw [if_pos hf]
     exact sealed_iff_countedSum info data (vsPayload4k vs) hl'
   · rename_i hf
     rw [if_neg hf]
     split at h
     · rename_i hm
       rw [imp_iff_right hm]
       split at h
       · rename_i hu
         injection h with h
         subst h
         rw [if_pos hu]
         change Sealed info (vsBytes vs (blank info data)) ↔ _
         rw [vsBytes_eq]
         exact sealed_iff_countedSum info data (vsPayload vs) hl'
       · rename_i hu
         rw [if_neg hu]
         have hn := HdmiVsifContent.userData_length vs vs.userLen.toNat
         rw [memcpyS_ok _ _ (by omega)] at h
         injection h with h
         subst h
         have hs := sealed_iff_userSum info (vsBytes_headed info vs data)
          (vs.userData vs.userLen.toNat)
         rw [hn] at hs
         exact hs
     · rename_i hm
       injection h with h
       subst h
       exact iff_of_true (vsBytes_headed info vs data).sealed (absurd · hm)
 · rename_i houi
   injection h with h
   subst h
   exact iff_of_true (blank_headed info data).sealed (absurd · houi)

theorem infoFrame_sealed_iff {info : HdmiInfoFrameInfo} {data data' : Packet}
    (h : hdmiInfoFramePacketEncoding info data hdmiInfoFrameLen = .ok data') :
    Sealed info data' ↔ SumsUp info := by
  obtain ⟨verNum, len, content⟩ := info
  cases content with
  | vs c => exact vs_sealed_iff h
  | avi c | audio c | drm c => exact iff_of_true (encodePayload_sealed h) trivial
  | other t => cases h
  | spd c =>
    apply iff_of_false _ not_false
    intro hs
    have ht := hs.type
    rw [spd_type h] at ht
    exact absurd ht (show (0 : UInt8) ≠ 0x83 by decide)

/-- A packet as `HdmiFillVsInfoFrame` fills it for 3840x2160 at 30 Hz -/
def vs4kInfo : HdmiInfoFrameInfo where
 verNum := 1
 len := 5
 content := .vs {
  oui := hdmiIeeeOui14, format := hdmiVsVideoFormat4k, vic := 1, metaPresent3d := false
  struct3d := 0, tail := fun _ => 0 }

/-- The same with metadata for a 3D format -/
def vs3dInfo : HdmiInfoFrameInfo where
 verNum := 1
 len := 7
 content := .vs {
  oui := hdmiIeeeOui14, format := hdmiVsVideoFormat3d, vic := 0, metaPresent3d := true
  struct3d := 8, tail := fun _ => 0 }

theorem infoFrame_sealed_vs3d :
    ∃ data, hdmiInfoFrameBuffer vs3dInfo = .ok data ∧ Sealed vs3dInfo data :=
  ⟨_, rfl, (infoFrame_sealed_iff (show hdmiInfoFrameBuffer vs3dInfo = .ok _ from rfl)).mpr
    fun _ => by decide⟩

theorem infoFrame_unsealed_vs4k :
    ∃ data, hdmiInfoFrameBuffer vs4kInfo = .ok data ∧ ¬ Sealed vs4kInfo data := by
  refine ⟨_, rfl, fun h => ?_⟩
  have hs := h.sum
  exact absurd hs (by decide)

end DriversFramework.HdmiInfoFrame
