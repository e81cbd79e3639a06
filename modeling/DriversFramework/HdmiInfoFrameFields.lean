import DriversFramework.ByteFields
import DriversFramework.HdmiInfoFrame

namespace DriversFramework.HdmiInfoFrame

open ByteFields

theorem field_within (value mark shift : UInt32) :
  Within (mark <<< shift).toUInt8 (field value mark shift) := by
 rw [Within, field, ← UInt32.toUInt8_and, ← UInt32.shiftLeft_and, UInt32.and_assoc,
  UInt32.and_self]

theorem field_inj {value value' mark shift : UInt32} (short : shift.toNat < 32)
  (fits : mark.toNat * 2 ^ shift.toNat < 2 ^ 8)
  (same : field value mark shift = field value' mark shift) :
  value &&& mark = value' &&& mark := by
 have number (v : UInt32) : (field v mark shift).toNat = (v &&& mark).toNat * 2 ^ shift.toNat := by
  have marked : (v &&& mark).toNat ≤ mark.toNat := by
   rw [UInt32.toNat_and]
   exact Nat.and_le_right
  have bound : (v &&& mark).toNat * 2 ^ shift.toNat < 2 ^ 8 :=
   Nat.lt_of_le_of_lt (Nat.mul_le_mul_right _ marked) fits
  rw [field, UInt32.toNat_toUInt8, UInt32.toNat_shiftLeft, Nat.mod_eq_of_lt short,
   Nat.shiftLeft_eq]
  omega
 have equal := congrArg UInt8.toNat same
 rw [number, number] at equal
 exact UInt32.toNat_inj.mp (Nat.eq_of_mul_eq_mul_right (Nat.two_pow_pos _) equal)

theorem flagBit_within (flag : Bool) (shift : UInt8) :
  Within (1 <<< shift) (flagBit flag shift) := by
 rw [Within, flagBit]
 split
 · exact UInt8.and_self
 · exact UInt8.zero_and

theorem flagBit_inj {flag flag' : Bool} {shift : UInt8} (some_ : (1 : UInt8) <<< shift ≠ 0)
  (same : flagBit flag shift = flagBit flag' shift) : flag = flag' := by
 cases flag <;> cases flag'
 · rfl
 · exact absurd same.symm some_
 · exact absurd same some_
 · rfl

theorem or_field_inj {rest rest' mask : UInt8} {value value' mark shift : UInt32}
  (within : Within mask rest) (within' : Within mask rest')
  (apart : mask &&& (mark <<< shift).toUInt8 = 0) (short : shift.toNat < 32)
  (fits : mark.toNat * 2 ^ shift.toNat < 2 ^ 8)
  (same : rest ||| field value mark shift = rest' ||| field value' mark shift) :
  rest = rest' ∧ value &&& mark = value' &&& mark := by
 obtain ⟨others, last⟩ :=
  within.or_inj within' (field_within _ _ _) (field_within _ _ _) apart same
 exact ⟨others, field_inj short fits last⟩

theorem or_flagBit_inj {rest rest' mask shift : UInt8} {flag flag' : Bool}
  (within : Within mask rest) (within' : Within mask rest') (apart : mask &&& 1 <<< shift = 0)
  (some_ : (1 : UInt8) <<< shift ≠ 0)
  (same : rest ||| flagBit flag shift = rest' ||| flagBit flag' shift) :
  rest = rest' ∧ flag = flag' := by
 obtain ⟨others, last⟩ :=
  within.or_inj within' (flagBit_within _ _) (flagBit_within _ _) apart same
 exact ⟨others, flagBit_inj some_ last⟩

theorem lowByte_inj {value value' : UInt16} (same : lowByte value = lowByte value') :
  value &&& 0xff = value' &&& 0xff := by
 have number (v : UInt16) : (lowByte v).toNat = (v &&& 0xff).toNat := by
  have bound : (v &&& 0xff).toNat ≤ 255 := by
   rw [UInt16.toNat_and]
   exact Nat.and_le_right
  rw [lowByte, UInt16.toNat_toUInt8]
  omega
 rw [← UInt16.toNat_inj, ← number, ← number, same]

theorem word_inj {value value' : UInt16} (low : lowByte value = lowByte value')
  (high : highByte value = highByte value') : value = value' := by
 have lowNat (v : UInt16) : (lowByte v).toNat = v.toNat % 256 := by
  rw [lowByte, UInt16.toNat_toUInt8, UInt16.toNat_and]
  exact (congrArg (· % 2 ^ 8) (Nat.and_two_pow_sub_one_eq_mod v.toNat 8)).trans (by omega)
 have highNat (v : UInt16) : (highByte v).toNat = v.toNat / 256 := by
  have bound := v.toNat_lt
  have shifted : (v >>> 8).toNat = v.toNat / 256 := by
   rw [UInt16.toNat_shiftRight, Nat.shiftRight_eq_div_pow]
   rfl
  rw [highByte, UInt16.toNat_toUInt8, UInt16.toNat_and, shifted]
  exact (congrArg (· % 2 ^ 8) (Nat.and_two_pow_sub_one_eq_mod (v.toNat / 256) 8)).trans (by omega)
 have lows := congrArg UInt8.toNat low
 have highs := congrArg UInt8.toNat high
 rw [lowNat, lowNat] at lows
 rw [highNat, highNat] at highs
 rw [← UInt16.toNat_inj]
 omega

def HdmiAviInfoFrame.InRange (avi : HdmiAviInfoFrame) : Prop :=
 avi.scanMode < 4 ∧ avi.colorSpace < 4 ∧
  avi.activeAspect ∈ [2, 3, 4, 8, 9, 10, 11, 13, 14, 15] ∧ avi.pictureAspect < 5 ∧
  avi.colorimetry < 4 ∧ avi.nups < 4 ∧ avi.range < 3 ∧ avi.extColorimetry < 8 ∧
  avi.itcType < 4 ∧ avi.yccRange < 2

def HdmiAudioInfoFrame.InRange (audio : HdmiAudioInfoFrame) : Prop :=
 audio.codingType < 16 ∧ audio.sampleSize < 4 ∧ audio.sampleFreq < 8 ∧
  audio.codingExtType < 14 ∧ audio.playBackLevel < 3

def HdmiDrmInfoFrame.InRange (drm : HdmiDrmInfoFrame) : Prop :=
 drm.eotfType < 4 ∧ drm.metadataType < 1

/-- An AVI, audio or DRM InfoFrame whose enumerations have values of theirs -/
def HdmiInfoFrameContent.InRange : HdmiInfoFrameContent → Prop
 | .avi c => c.InRange
 | .audio c => c.InRange
 | .drm c => c.InRange
 | _ => False

/-- The bits of the fields that are wider than their place in the packet -/
def HdmiAviInfoFrame.kept (avi : HdmiAviInfoFrame) : HdmiAviInfoFrame :=
 { avi with
  pictureAspect := avi.pictureAspect &&& 0x03
  pixelRepetitionFactor := avi.pixelRepetitionFactor &&& 0x0f }

def HdmiAudioInfoFrame.kept (audio : HdmiAudioInfoFrame) : HdmiAudioInfoFrame :=
 { audio with
  channelCount := audio.channelCount &&& 0x07
  levelShiftValue := audio.levelShiftValue &&& 0x0f }

/-- Of all words but the first only the low byte -/
def HdmiStaticMetadata.kept (des : HdmiStaticMetadata) : HdmiStaticMetadata where
 displayPrimaries0X := des.displayPrimaries0X
 displayPrimaries0Y := des.displayPrimaries0Y &&& 0xff
 displayPrimaries1X := des.displayPrimaries1X &&& 0xff
 displayPrimaries1Y := des.displayPrimaries1Y &&& 0xff
 displayPrimaries2X := des.displayPrimaries2X &&& 0xff
 displayPrimaries2Y := des.displayPrimaries2Y &&& 0xff
 whitePointX := des.whitePointX &&& 0xff
 whitePointY := des.whitePointY &&& 0xff
 maxDisplayMasteringLuminance := des.maxDisplayMasteringLuminance &&& 0xff
 minDisplayMasteringLuminance := des.minDisplayMasteringLuminance &&& 0xff
 maxContentLightLevel := des.maxContentLightLevel &&& 0xff
 maxFrameAverageLightLevel := des.maxFrameAverageLightLevel &&& 0xff

def HdmiDrmInfoFrame.kept (drm : HdmiDrmInfoFrame) : HdmiDrmInfoFrame :=
 { drm with des := drm.des.kept }

def HdmiInfoFrameContent.kept : HdmiInfoFrameContent → HdmiInfoFrameContent
 | .avi c => .avi c.kept
 | .audio c => .audio c.kept
 | .drm c => .drm c.kept
 | content => content

def HdmiInfoFrameInfo.kept (info : HdmiInfoFrameInfo) : HdmiInfoFrameInfo :=
 { info with content := info.content.kept }

theorem eq_of_and {value value' mark bound : UInt32} (width : ℕ)
  (marks : mark.toNat = 2 ^ width - 1) (room : bound.toNat ≤ 2 ^ width) (small : value < bound)
  (small' : value' < bound) (same : value &&& mark = value' &&& mark) : value = value' := by
 have kept {v : UInt32} (below : v < bound) : v &&& mark = v := by
  rw [← UInt32.toNat_inj, UInt32.toNat_and, marks, Nat.and_two_pow_sub_one_eq_mod]
  exact Nat.mod_eq_of_lt (Nat.lt_of_lt_of_le (UInt32.lt_iff_toNat_lt.mp below) room)
 rw [kept small, kept small'] at same
 exact same

theorem aviPayload_kept (avi : HdmiAviInfoFrame) : aviPayload avi.kept = aviPayload avi := by
 have aspect : field (avi.pictureAspect &&& 0x03) 0x03 4 = field avi.pictureAspect 0x03 4 := by
  rw [field, UInt32.and_assoc, UInt32.and_self, field]
 have factor : avi.pixelRepetitionFactor &&& 0x0f &&& 0x0f = avi.pixelRepetitionFactor &&& 0x0f :=
  and_within _ _
 simp only [aviPayload, HdmiAviInfoFrame.kept, aspect, factor]

theorem audioPayload_kept (audio : HdmiAudioInfoFrame) :
  audioPayload audio.kept = audioPayload audio := by
 have channels : audio.channelCount &&& 0x07 &&& 0x07 = audio.channelCount &&& 0x07 :=
  and_within _ _
 have level : audio.levelShiftValue &&& 0x0f &&& 0x0f = audio.levelShiftValue &&& 0x0f :=
  and_within _ _
 simp only [audioPayload, HdmiAudioInfoFrame.kept, channels, level]

theorem lowByte_and (value : UInt16) : lowByte (value &&& 0xff) = lowByte value := by
 rw [lowByte, UInt16.and_assoc, UInt16.and_self, lowByte]

theorem drmPayload_kept (drm : HdmiDrmInfoFrame) : drmPayload drm.kept = drmPayload drm := by
 simp only [drmPayload, HdmiDrmInfoFrame.kept, HdmiStaticMetadata.kept, lowByte_and]

theorem aviPayload_inj {avi avi' : HdmiAviInfoFrame} (inRange : avi.InRange)
  (inRange' : avi'.InRange) (same : aviPayload avi = aviPayload avi') : avi.kept = avi'.kept := by
 obtain ⟨scan, space, active, -, colorimetry, nups, range, ext, itcType, ycc⟩ := inRange
 obtain ⟨scan', space', active', -, colorimetry', nups', range', ext', itcType', ycc'⟩ := inRange'
 have aspect {value : UInt32} (listed : value ∈ [2, 3, 4, 8, 9, 10, 11, 13, 14, 15]) :
   value < 16 := by
  simp only [List.mem_cons, List.not_mem_nil, or_false] at listed
  rcases listed with rfl | rfl | rfl | rfl | rfl | rfl | rfl | rfl | rfl | rfl <;> decide
 simp only [aviPayload, List.cons.injEq] at same
 obtain ⟨pb1, pb2, pb3, vic, pb5, topLow, topHigh, bottomLow, bottomHigh, leftLow, leftHigh,
  rightLow, rightHigh, -⟩ := same
 have two (x y a b c d : UInt32) : Within _ (field x a b ||| field y c d) :=
  (field_within x a b).or (field_within y c d)
 have three (x y z a b c d e f : UInt32) :
   Within _ (field x a b ||| field y c d ||| field z e f) :=
  (two x y a b c d).or (field_within z e f)
 obtain ⟨pb1, vertical⟩ := or_flagBit_inj
  (((two ..).or (flagBit_within ..)).or (flagBit_within ..))
  (((two ..).or (flagBit_within ..)).or (flagBit_within ..)) (by decide) (by decide) pb1
 obtain ⟨pb1, horizontal⟩ := or_flagBit_inj ((two ..).or (flagBit_within ..))
  ((two ..).or (flagBit_within ..)) (by decide) (by decide) pb1
 obtain ⟨pb1, information⟩ := or_flagBit_inj (two ..) (two ..) (by decide) (by decide) pb1
 obtain ⟨pb1, scanSame⟩ := or_field_inj (field_within ..) (field_within ..) (by decide) (by decide)
  (by decide) pb1
 have spaceSame := field_inj (by decide) (by decide) pb1
 obtain ⟨pb2, activeSame⟩ := or_field_inj (two ..) (two ..) (by decide) (by decide) (by decide) pb2
 obtain ⟨pb2, pictureSame⟩ := or_field_inj (field_within ..) (field_within ..) (by decide)
  (by decide) (by decide) pb2
 have colorimetrySame := field_inj (by decide) (by decide) pb2
 obtain ⟨pb3, itcSame⟩ := or_flagBit_inj (three ..) (three ..) (by decide) (by decide) pb3
 obtain ⟨pb3, nupsSame⟩ := or_field_inj (two ..) (two ..) (by decide) (by decide) (by decide) pb3
 obtain ⟨pb3, rangeSame⟩ := or_field_inj (field_within ..) (field_within ..) (by decide)
  (by decide) (by decide) pb3
 have extSame := field_inj (by decide) (by decide) pb3
 obtain ⟨pb5, factorSame⟩ := (two ..).or_inj (two ..) (and_within ..) (and_within ..) (by decide)
  pb5
 obtain ⟨pb5, itcTypeSame⟩ := or_field_inj (field_within ..) (field_within ..) (by decide)
  (by decide) (by decide) pb5
 have yccSame := field_inj (by decide) (by decide) pb5
 have scanSame := eq_of_and 2 rfl (by decide) scan scan' scanSame
 have spaceSame := eq_of_and 2 rfl (by decide) space space' spaceSame
 have activeSame := eq_of_and 4 rfl (by decide) (aspect active) (aspect active') activeSame
 have colorimetrySame := eq_of_and 2 rfl (by decide) colorimetry colorimetry' colorimetrySame
 have nupsSame := eq_of_and 2 rfl (by decide) nups nups' nupsSame
 have rangeSame := eq_of_and 2 rfl (by decide) range range' rangeSame
 have extSame := eq_of_and 3 rfl (by decide) ext ext' extSame
 have itcTypeSame := eq_of_and 2 rfl (by decide) itcType itcType' itcTypeSame
 have yccSame := eq_of_and 2 rfl (by decide) ycc ycc' yccSame
 rw [HdmiAviInfoFrame.kept, HdmiAviInfoFrame.kept, HdmiAviInfoFrame.mk.injEq]
 exact ⟨scanSame, vertical, horizontal, information, spaceSame, activeSame, pictureSame,
  colorimetrySame, nupsSame, rangeSame, extSame, itcSame, vic, factorSame, itcTypeSame, yccSame,
  word_inj topLow topHigh, word_inj bottomLow bottomHigh, word_inj leftLow leftHigh,
  word_inj rightLow rightHigh⟩

theorem audioPayload_inj {audio audio' : HdmiAudioInfoFrame} (inRange : audio.InRange)
  (inRange' : audio'.InRange) (same : audioPayload audio = audioPayload audio') :
  audio.kept = audio'.kept := by
 obtain ⟨coding, size, freq, ext, level⟩ := inRange
 obtain ⟨coding', size', freq', ext', level'⟩ := inRange'
 simp only [audioPayload, List.cons.injEq] at same
 obtain ⟨pb1, pb2, pb3, allocation, pb5, -⟩ := same
 obtain ⟨pb1, channels⟩ := (field_within ..).or_inj (field_within ..) (and_within ..)
  (and_within ..) (by decide) pb1
 have codingSame := eq_of_and 4 rfl (by decide) coding coding'
  (field_inj (by decide) (by decide) pb1)
 obtain ⟨pb2, sizeSame⟩ := or_field_inj (field_within ..) (field_within ..) (by decide) (by decide)
  (by decide) pb2
 have freqSame := eq_of_and 3 rfl (by decide) freq freq' (field_inj (by decide) (by decide) pb2)
 have extSame := eq_of_and 5 rfl (by decide) ext ext' (field_inj (by decide) (by decide) pb3)
 have shifted (value : UInt8) : Within (0x78 : UInt8) ((value &&& 0x0f) <<< 3) := by
  rw [Within, show (0x78 : UInt8) = (0x0f : UInt8) <<< (3 : UInt8) from rfl,
   ← UInt8.shiftLeft_and, and_within]
 obtain ⟨pb5, inhibit⟩ := or_flagBit_inj ((shifted _).or (field_within ..))
  ((shifted _).or (field_within ..)) (by decide) (by decide) pb5
 obtain ⟨pb5, levelSame⟩ := or_field_inj (shifted _) (shifted _) (by decide) (by decide)
  (by decide) pb5
 have shift : audio.levelShiftValue &&& 0x0f = audio'.levelShiftValue &&& 0x0f := by
  have number (value : UInt8) : ((value &&& 0x0f) <<< 3).toNat = (value &&& 0x0f).toNat * 8 := by
   have bound : (value &&& 0x0f).toNat ≤ 15 := by
    rw [UInt8.toNat_and]
    exact Nat.and_le_right
   rw [UInt8.toNat_shiftLeft, Nat.shiftLeft_eq]
   exact Nat.mod_eq_of_lt (Nat.lt_of_le_of_lt (Nat.mul_le_mul_right 8 bound) (by decide))
  have levels := congrArg UInt8.toNat pb5
  rw [number, number] at levels
  exact UInt8.toNat_inj.mp (Nat.eq_of_mul_eq_mul_right (by decide) levels)
 rw [HdmiAudioInfoFrame.kept, HdmiAudioInfoFrame.kept, HdmiAudioInfoFrame.mk.injEq]
 exact ⟨channels, codingSame, eq_of_and 2 rfl (by decide) size size' sizeSame, freqSame, extSame,
  allocation, eq_of_and 2 rfl (by decide) level level' levelSame, shift, inhibit⟩

theorem drmPayload_inj {drm drm' : HdmiDrmInfoFrame} (inRange : drm.InRange)
  (inRange' : drm'.InRange) (same : drmPayload drm = drmPayload drm') : drm.kept = drm'.kept := by
 obtain ⟨eotf, metadata⟩ := inRange
 obtain ⟨eotf', metadata'⟩ := inRange'
 simp only [drmPayload, List.cons.injEq] at same
 obtain ⟨pb1, pb2, zeroXLow, zeroXHigh, zeroY, -, oneX, -, oneY, -, twoX, -, twoY, -, whiteX, -,
  whiteY, -, max, -, min, -, content, -, average, -⟩ := same
 have byte {value value' bound : UInt32} (room : bound.toNat ≤ 2 ^ 8) (small : value < bound)
   (small' : value' < bound) (same : value.toUInt8 = value'.toUInt8) : value = value' := by
  have numbers := congrArg UInt8.toNat same
  rw [UInt32.toNat_toUInt8, UInt32.toNat_toUInt8] at numbers
  rw [UInt32.lt_iff_toNat_lt] at small small'
  rw [← UInt32.toNat_inj]
  omega
 rw [HdmiDrmInfoFrame.kept, HdmiDrmInfoFrame.kept, HdmiDrmInfoFrame.mk.injEq,
  HdmiStaticMetadata.kept, HdmiStaticMetadata.kept, HdmiStaticMetadata.mk.injEq]
 exact ⟨byte (by decide) eotf eotf' pb1, byte (by decide) metadata metadata' pb2,
  word_inj zeroXLow zeroXHigh, lowByte_inj zeroY, lowByte_inj oneX,
  lowByte_inj oneY, lowByte_inj twoX, lowByte_inj twoY, lowByte_inj whiteX, lowByte_inj whiteY,
  lowByte_inj max, lowByte_inj min, lowByte_inj content, lowByte_inj average⟩

def HdmiInfoFrameContent.payload : HdmiInfoFrameContent → List UInt8
 | .avi c => aviPayload c
 | .audio c => audioPayload c
 | .drm c => drmPayload c
 | _ => []

theorem payload_inj {info info' : HdmiInfoFrameInfo} (inRange : info.content.InRange)
  (inRange' : info'.content.InRange) (type : info.type.toUInt8 = info'.type.toUInt8)
  (same : ∀ i < 28, info.content.payload[i]?.getD 0 = info'.content.payload[i]?.getD 0) :
  info.content.kept = info'.content.kept := by
 have whole {payload payload' : List UInt8} (length : payload.length = payload'.length)
   (short : payload.length ≤ 28) (same : ∀ i < 28, payload[i]?.getD 0 = payload'[i]?.getD 0) :
   payload = payload' := by
  refine List.ext_getElem length fun i inside inside' => ?_
  have byte := same i (by omega)
  rw [List.getElem?_eq_getElem inside, List.getElem?_eq_getElem inside'] at byte
  exact byte
 obtain ⟨_, _, content⟩ := info
 obtain ⟨_, _, content'⟩ := info'
 cases content <;> cases content' <;> first | exact inRange.elim | exact inRange'.elim | skip
 case avi.avi avi avi' =>
  have payloads : aviPayload avi = aviPayload avi' := whole rfl (by simp [aviPayload]) same
  exact congrArg HdmiInfoFrameContent.avi (aviPayload_inj inRange inRange' payloads)
 case audio.audio audio audio' =>
  have payloads : audioPayload audio = audioPayload audio' :=
   whole rfl (by simp [audioPayload]) same
  exact congrArg HdmiInfoFrameContent.audio (audioPayload_inj inRange inRange' payloads)
 case drm.drm drm drm' =>
  have payloads : drmPayload drm = drmPayload drm' := whole rfl (by simp [drmPayload]) same
  exact congrArg HdmiInfoFrameContent.drm (drmPayload_inj inRange inRange' payloads)
 -- of different types
 all_goals
  dsimp only [HdmiInfoFrameInfo.type] at type
  exact absurd type (by decide)

section packets
variable {info info' : HdmiInfoFrameInfo} {packet packet' : Packet}

theorem buffer_ok_iff (inRange : info.content.InRange) :
  hdmiInfoFrameBuffer info = .ok packet ↔
   info.len.toNat ≤ 28 ∧ packet = hdmiInfoFrameFillCheckSum
    (store (blank info fun _ => 0) hdmiInfoFramePacketHeaderLen info.content.payload)
    (hdmiInfoFramePacketHeaderLen + info.len.toNat) := by
 have encoded : hdmiInfoFrameBuffer info =
   encodePayload info info.content.payload (fun _ => 0) hdmiInfoFrameLen := by
  obtain ⟨verNum, len, content⟩ := info
  cases content with
  | avi | audio | drm => rfl
  | vs | spd | other => exact inRange.elim
 have bound : hdmiInfoFrameLen < hdmiInfoFramePacketHeaderLen + info.len.toNat ↔
   ¬info.len.toNat ≤ 28 := by
  rw [hdmiInfoFrameLen, hdmiInfoFramePacketHeaderLen]
  omega
 rw [encoded, encodePayload]
 dsimp only
 by_cases short : info.len.toNat ≤ 28
 · rw [if_neg (fun long => bound.mp long short), and_iff_right short]
   exact ⟨fun ok => (Except.ok.inj ok).symm, fun eq => congrArg Except.ok eq.symm⟩
 · rw [if_pos (bound.mpr short)]
   refine iff_of_false (fun ok => ?_) fun ok => short ok.1
   cases ok

theorem kept_eq_of_packet (inRange : info.content.InRange) (inRange' : info'.content.InRange)
  (ok : hdmiInfoFrameBuffer info = .ok packet) (ok' : hdmiInfoFrameBuffer info' = .ok packet')
  (same : ∀ i < hdmiInfoFrameLen, packet i = packet' i) :
  info.len.toNat ≤ 28 ∧ info.kept = info'.kept := by
 obtain ⟨short, rfl⟩ := (buffer_ok_iff inRange).mp ok
 obtain ⟨-, rfl⟩ := (buffer_ok_iff inRange').mp ok'
 have headed := (blank_headed info fun _ => 0).store (Nat.le_refl 4) info.content.payload
 have headed' := (blank_headed info' fun _ => 0).store (Nat.le_refl 4) info'.content.payload
 have bytes : ∀ i < hdmiInfoFrameLen, i ≠ 3 →
   store (blank info fun _ => 0) 4 info.content.payload i =
    store (blank info' fun _ => 0) 4 info'.content.payload i := by
  intro i inside other
  have byte := same i inside
  rw [fillCheckSum_of_ne _ _ other, fillCheckSum_of_ne _ _ other] at byte
  exact byte
 have type := (headed.type.symm.trans (bytes 0 (by decide) (by decide))).trans headed'.type
 have version := (headed.verNum.symm.trans (bytes 1 (by decide) (by decide))).trans headed'.verNum
 have length := (headed.len.symm.trans (bytes 2 (by decide) (by decide))).trans headed'.len
 refine ⟨short, ?_⟩
 rw [HdmiInfoFrameInfo.kept, HdmiInfoFrameInfo.kept, HdmiInfoFrameInfo.mk.injEq]
 refine ⟨version, length, payload_inj inRange inRange' type fun i inside => ?_⟩
 have byte := bytes (4 + i) (by rw [hdmiInfoFrameLen]; omega) (by omega)
 rw [store_add, store_add, blank_zero _ _ (by omega), blank_zero _ _ (by omega)] at byte
 exact byte

theorem buffer_kept (info : HdmiInfoFrameInfo) :
  hdmiInfoFrameBuffer info.kept = hdmiInfoFrameBuffer info := by
 obtain ⟨verNum, len, content⟩ := info
 cases content with
 | avi c =>
  change encodePayload _ (aviPayload c.kept) _ _ = encodePayload _ (aviPayload c) _ _
  rw [aviPayload_kept]
  rfl
 | audio c =>
  change encodePayload _ (audioPayload c.kept) _ _ = encodePayload _ (audioPayload c) _ _
  rw [audioPayload_kept]
  rfl
 | drm c =>
  change encodePayload _ (drmPayload c.kept) _ _ = encodePayload _ (drmPayload c) _ _
  rw [drmPayload_kept]
  rfl
 | vs | spd | other => rfl

end packets

/-- The fields of two InfoFrames are told by their packets. -/
def FieldsRecovered (info info' : HdmiInfoFrameInfo) : Prop :=
 ∀ packet packet', hdmiInfoFrameBuffer info = .ok packet →
  hdmiInfoFrameBuffer info' = .ok packet' → (∀ i < hdmiInfoFrameLen, packet i = packet' i) →
   info = info'

theorem fieldsRecovered_iff {info info' : HdmiInfoFrameInfo} (inRange : info.content.InRange)
    (inRange' : info'.content.InRange) :
    FieldsRecovered info info' ↔
      info = info' ∨ 28 < info.len.toNat ∨ info.kept ≠ info'.kept := by
  constructor
  · intro recovered
    by_contra lost
    obtain ⟨different, short, agree⟩ :
        info ≠ info' ∧ info.len.toNat ≤ 28 ∧ info.kept = info'.kept := by
      simpa [not_or] using lost
    obtain ⟨packet, ok⟩ : ∃ packet, hdmiInfoFrameBuffer info = .ok packet :=
      ⟨_, (buffer_ok_iff inRange).mpr ⟨short, rfl⟩⟩
    have ok' : hdmiInfoFrameBuffer info' = .ok packet := by
      rw [← buffer_kept, ← agree, buffer_kept, ok]
    exact different (recovered packet packet ok ok' fun _ _ => rfl)
  · intro told packet packet' ok ok' same
    obtain ⟨short, agree⟩ := kept_eq_of_packet inRange inRange' ok ok' same
    rcases told with equal | long | different
    · exact equal
    · omega
    · exact absurd agree different

/-- Metadata of static type 1, all of its words zero but the first white point -/
def whitePointInfo (whitePointX : UInt16) : HdmiInfoFrameInfo where
 verNum := 1
 len := 26
 content := .drm ⟨2, 0, ⟨0, 0, 0, 0, 0, 0, whitePointX, 0, 0, 0, 0, 0⟩⟩

theorem whitePointInfo_inRange (whitePointX : UInt16) :
  (whitePointInfo whitePointX).content.InRange :=
 ⟨show (2 : UInt32) < 4 by decide, show (0 : UInt32) < 1 by decide⟩

theorem fieldsRecovered_whitePoint : (whitePointInfo 1).content.InRange ∧
    FieldsRecovered (whitePointInfo 1) (whitePointInfo 2) := by
  refine ⟨whitePointInfo_inRange 1, (fieldsRecovered_iff (whitePointInfo_inRange 1)
    (whitePointInfo_inRange 2)).mpr (.inr (.inr fun agree => ?_))⟩
  rw [HdmiInfoFrameInfo.kept, HdmiInfoFrameInfo.kept, HdmiInfoFrameInfo.mk.injEq] at agree
  have words := congrArg HdmiInfoFrameContent.payload agree.2.2
  exact absurd words (by decide)

/-- White points that are 256 apart have the same packet. -/
theorem not_fieldsRecovered : ¬∀ info info' : HdmiInfoFrameInfo, info.content.InRange →
    info'.content.InRange → FieldsRecovered info info' := by
  intro recovered
  have same : hdmiInfoFrameBuffer (whitePointInfo 0x100) =
      hdmiInfoFrameBuffer (whitePointInfo 0) := by
    rw [← buffer_kept (whitePointInfo 0x100)]
    rfl
  obtain ⟨packet, ok⟩ : ∃ packet, hdmiInfoFrameBuffer (whitePointInfo 0) = .ok packet :=
    ⟨_, (buffer_ok_iff (whitePointInfo_inRange 0)).mpr ⟨by decide, rfl⟩⟩
  have equal := recovered _ _ (whitePointInfo_inRange 0x100) (whitePointInfo_inRange 0) packet
    packet (same.trans ok) ok fun _ _ => rfl
  rw [whitePointInfo, whitePointInfo] at equal
  simp at equal

end DriversFramework.HdmiInfoFrame
