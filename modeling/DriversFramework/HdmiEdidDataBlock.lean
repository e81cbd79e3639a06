import DriversFramework.CheckedAccess
import DriversFramework.HdfBase
import DriversFramework.HdmiEdidCap

/-! The decoders of `hdmi_edid.c` for one data block. `data` holds the bytes of the block that are
in the raw array, and `len` is the length its header gives, at most 31. -/
namespace DriversFramework.HdmiEdid

open CheckedAccess

def hdmiEdidAddSampleRate (present : Bool) (rate : UInt32) (audio : HdmiEdidAudioInfo) :
  Run HdmiEdidAudioInfo :=
 if present = true ∧ audio.sampleRateNum < hdmiEdidExtensionAudioMaxSampleRateNum then do
  let sampleRate ← writeAt audio.sampleRate audio.sampleRateNum rate
  pure { audio with sampleRate, sampleRateNum := audio.sampleRateNum + 1 }
 else pure audio

def hdmiEdidExtAdbSampleRatePhase (audio : HdmiEdidAudioInfo) (data formatCode : UInt8) :
  Run HdmiEdidAudioInfo := do
 let audio ← hdmiEdidAddSampleRate (bit data 0) 32000 audio
 let audio ← hdmiEdidAddSampleRate (bit data 1) 44100 audio
 let audio ← hdmiEdidAddSampleRate (bit data 2) 48000 audio
 let audio ← hdmiEdidAddSampleRate (bit data 3) 88200 audio
 let audio ← hdmiEdidAddSampleRate (bit data 4) 96000 audio
 if formatCode ≥ 1 ∧ formatCode ≤ 14 then do
  let audio ← hdmiEdidAddSampleRate (bit data 5) 176400 audio
  hdmiEdidAddSampleRate (bit data 6) 192000 audio
 else pure audio

def hdmiEdidAddBitDepth (present : Bool) (depth : UInt32) (audio : HdmiEdidAudioInfo) :
  Run HdmiEdidAudioInfo :=
 if present = true ∧ audio.bitDepthNum < hdmiEdidExtensionAudioMaxBitDepthNum then do
  let bitDepth ← writeAt audio.bitDepth audio.bitDepthNum depth
  pure { audio with bitDepth, bitDepthNum := audio.bitDepthNum + 1 }
 else pure audio

def hdmiEdidExtAdbDepthAndMaxRatePhase (audio : HdmiEdidAudioInfo) (data formatCode : UInt8) :
  Run HdmiEdidAudioInfo :=
 if formatCode = 1 then do
  let audio ← hdmiEdidAddBitDepth (bit data 0) 16 audio
  let audio ← hdmiEdidAddBitDepth (bit data 1) 20 audio
  hdmiEdidAddBitDepth (bit data 2) 24 audio
 else if formatCode ≥ 2 ∧ formatCode ≤ 8 then
  pure { audio with maxBitRate := data.toUInt32 * 8 }
 else pure audio

def hdmiEdidShortAudioDescriptor (data : List UInt8) (i : ℕ)
  (s : ℕ × HdmiSinkDeviceCapability) : Run (ℕ × HdmiSinkDeviceCapability) := do
 let pos := s.1 + i * 3
 let cap := s.2
 let d0 ← readAt data pos
 let formatCode := (d0 &&& 0x78) >>> 3
 let audio ← entryAt cap.audioInfo cap.audioInfoCnt
 let d1 ← readAt data (pos + 1)
 let audio ← hdmiEdidExtAdbSampleRatePhase
  { audio with formatCode, channels := (d0 &&& 0x07) + 1 } d1 formatCode
 let d2 ← readAt data (pos + 2)
 let audio ← hdmiEdidExtAdbDepthAndMaxRatePhase audio d2 formatCode
 let audioInfo ← writeAt cap.audioInfo cap.audioInfoCnt audio
 pure (pos, { cap with audioInfo, audioInfoCnt := cap.audioInfoCnt + 1 })

def hdmiEdidExtAudioDataBlockPhase (data : List UInt8) (len : ℕ)
  (cap : HdmiSinkDeviceCapability) : Run (HdfStatus × HdmiSinkDeviceCapability) :=
 if len > 3 * 10 then pure (.errInvalidParam, cap)
 else do
  let s ← forLoop (fun s => hdmiEdidExtensionAudioCapCount ≤ s.2.audioInfoCnt)
   (hdmiEdidShortAudioDescriptor data) (len / 3) 0 (0, cap)
  pure (.success, s.2)

def hdmiEdidShortVideoDescriptor (data : List UInt8) (i : ℕ)
  (s : UInt32 × HdmiSinkDeviceCapability) : Run (UInt32 × HdmiSinkDeviceCapability) := do
 let d ← readAt data i
 let vicAll := d.toUInt32
 let vicLower := vicAll &&& 0x7f
 if d = 0 then pure s
 else do
  let info := s.2.videoInfo
  let native := bit d 7 && vicLower < 64
  let vic ← writeAt info.vic info.vicNum (if native then vicLower else vicAll)
  pure (if s.1 = 0 then vicAll else s.1,
   { s.2 with
     videoInfo :=
      { vic
        vicNum := info.vicNum + 1
        nativeFormat :=
         if native ∧ info.nativeFormat = 0 then vicLower else info.nativeFormat } })

def hdmiEdidExtVideoDataBlockPhase (data : List UInt8) (len : ℕ)
  (cap : HdmiSinkDeviceCapability) : Run HdmiSinkDeviceCapability := do
 let s ← forLoop (fun s => hdmiEdidExtensionMaxVicCount ≤ s.2.videoInfo.vicNum)
  (hdmiEdidShortVideoDescriptor data) len 0 (0, cap)
 let info := s.2.videoInfo
 pure { s.2 with
  videoInfo :=
   { info with nativeFormat := if info.nativeFormat = 0 then s.1 else info.nativeFormat } }

def hdmiEdidVsdbCecPhyAddrPhase (data : List UInt8) (len : ℕ) (cap : HdmiSinkDeviceCapability) :
  Run HdmiSinkDeviceCapability :=
 if len ≥ 5 then do
  let d3 ← readAt data 3
  let d4 ← readAt data 4
  let valid (a : UInt8) : Bool := a ≠ 0xf
  pure { cap with
   vsdbInfo :=
    { cap.vsdbInfo with
      cecAddr :=
       { phyAddrA := upperNibble d3
         phyAddrB := lowerNibble d3
         phyAddrC := upperNibble d4
         phyAddrD := lowerNibble d4
         addrValid := valid (upperNibble d3) && valid (lowerNibble d3) &&
          valid (upperNibble d4) && valid (lowerNibble d4) } } }
 else pure cap

def hdmiEdidVsdbColorDepthPhase (data : List UInt8) (len : ℕ) (cap : HdmiSinkDeviceCapability) :
  Run HdmiSinkDeviceCapability :=
 if len ≥ 6 then do
  let d5 ← readAt data 5
  pure { cap with
   vsdbInfo :=
    { cap.vsdbInfo with
      supportAi := bit d5 7
      supportDviDual := bit d5 0
      deepColor :=
       { dcY444 := bit d5 3, dc30bit := bit d5 4, dc36bit := bit d5 5, dc48bit := bit d5 6 } } }
 else pure cap

def hdmiEdidVsdbMaxTmdsClockPhase (data : List UInt8) (len : ℕ)
  (cap : HdmiSinkDeviceCapability) : Run HdmiSinkDeviceCapability :=
 if len ≥ 7 then do
  let d6 ← readAt data 6
  let maxTmdsClk := d6.toUInt32 * 5
  pure { cap with maxTmdsClk, supportHdmi20 := maxTmdsClk > 340 }
 else pure cap

def hdmiEdidVsdbSinkPresentPhase (data : List UInt8) (len : ℕ) (cap : HdmiSinkDeviceCapability) :
  Run HdmiSinkDeviceCapability :=
 if len ≥ 8 then do
  let d7 ← readAt data 7
  pure { cap with
   vsdbInfo :=
    { cap.vsdbInfo with
      latencyFieldsPresent := bit d7 7
      iLatencyFieldsPresent := bit d7 6
      hdmiVideoPresent := bit d7 5 } }
 else pure cap

def hdmiEdidVsdbLatency (data : List UInt8) (len i : ℕ)
  (set : UInt8 → HdmiEdidExtVsdbInfo → HdmiEdidExtVsdbInfo) (cap : HdmiSinkDeviceCapability) :
  Run HdmiSinkDeviceCapability :=
 if len ≥ i + 1 then do
  let d ← readAt data i
  pure { cap with vsdbInfo := set d cap.vsdbInfo }
 else pure cap

def hdmiEdidVsdbProgressiveLatency (data : List UInt8) (len : ℕ)
  (cap : HdmiSinkDeviceCapability) : Run HdmiSinkDeviceCapability :=
 if cap.vsdbInfo.latencyFieldsPresent = true then do
  let cap ← hdmiEdidVsdbLatency data len 8 (fun d v => { v with videoLatency := d }) cap
  hdmiEdidVsdbLatency data len 9 (fun d v => { v with videoLatency := d }) cap
 else pure cap

def hdmiEdidVsdbInterlacedLatency (data : List UInt8) (len : ℕ)
  (cap : HdmiSinkDeviceCapability) : Run HdmiSinkDeviceCapability :=
 if cap.vsdbInfo.iLatencyFieldsPresent = true then do
  let cap ← hdmiEdidVsdbLatency data len 10
   (fun d v => { v with interlacedVideoLatency := d }) cap
  hdmiEdidVsdbLatency data len 11 (fun d v => { v with interlacedAudioLatency := d }) cap
 else pure cap

def hdmiEdidVsdbSinkLatencyPhase (data : List UInt8) (len : ℕ) (cap : HdmiSinkDeviceCapability) :
  Run HdmiSinkDeviceCapability := do
 let cap ← hdmiEdidVsdbProgressiveLatency data len cap
 hdmiEdidVsdbInterlacedLatency data len cap

def hdmi4kVic : Vector UInt32 5 := #v[0, 95, 94, 93, 98]

def hdmiEdidVsdbVic (data : List UInt8) (_i : ℕ) (s : ℕ × HdmiSinkDeviceCapability) :
  Run (ℕ × HdmiSinkDeviceCapability) := do
 let index ← readAt data s.1
 if index ≠ 0 ∧ index.toNat < 5 then do
  let vic4k ← entryAt hdmi4kVic index.toNat
  let info := s.2.videoInfo
  let vic ← writeAt info.vic info.vicNum vic4k
  pure (s.1 + 1, { s.2 with videoInfo := { info with vic, vicNum := info.vicNum + 1 } })
 else pure (s.1 + 1, s.2)

def hdmiEdidVsdbVicInfoPhase (data : List UInt8) (vicLen offset : ℕ)
  (cap : HdmiSinkDeviceCapability) : Run (ℕ × HdmiSinkDeviceCapability) :=
 forLoop (fun s => hdmiEdidExtensionMaxVicCount ≤ s.2.videoInfo.vicNum) (hdmiEdidVsdbVic data)
  vicLen 0 (offset, cap)

def setFlags {n : ℕ} (d : UInt8) (flags : List (ℕ × ℕ)) (table : Vector Bool n) :
  Run (Vector Bool n) :=
 flags.foldlM (fun table f => writeAt table f.1 (bit d f.2)) table

/-- One byte of `HdmiEdidVsdb3dStructureInfoPhase`, with `*offset`. -/
def hdmiEdidVsdb3dByte (data : List UInt8) (len : ℕ) (flags : List (ℕ × ℕ))
  (s : ℕ × HdmiSinkDeviceCapability) : Run (ℕ × HdmiSinkDeviceCapability) :=
 if s.1 ≤ len then do
  let d ← readAt data s.1
  let support3dType ← setFlags d flags s.2.vsdbInfo.support3dType
  pure (s.1 + 1, { s.2 with vsdbInfo := { s.2.vsdbInfo with support3dType } })
 else pure s

def hdmiEdidVsdb3dStructureInfoPhase (data : List UInt8) (len offset : ℕ)
  (cap : HdmiSinkDeviceCapability) : Run (ℕ × HdmiSinkDeviceCapability) :=
 if cap.vsdbInfo.multiPresent3d &&& 0x03 = 0 then pure (offset, cap)
 else do
  let s ← hdmiEdidVsdb3dByte data len [(8, 0)] (offset, cap)
  hdmiEdidVsdb3dByte data len [(0, 0), (1, 1), (2, 2), (3, 3), (4, 4), (5, 5), (6, 6)] s

def hdmiEdidVsdbLens (data : List UInt8) (len : ℕ) : Run (ℕ × ℕ) :=
 if len ≥ 14 then do
  let d13 ← readAt data 13
  pure (((d13 &&& 0xe0) >>> 5).toNat, (d13 &&& 0x1f).toNat)
 else pure (0, 0)

def hdmiEdidVsdbVics (data : List UInt8) (len hdmiVicLen : ℕ) (cap : HdmiSinkDeviceCapability) :
  Run (ℕ × HdmiSinkDeviceCapability) :=
 if hdmiVicLen > 0 ∧ hdmiVicLen + 14 + 1 ≤ len then
  hdmiEdidVsdbVicInfoPhase data hdmiVicLen 14 cap
 else pure (14, cap)

def hdmiEdidVsdb3dPresent (d12 : UInt8) (cap : HdmiSinkDeviceCapability) :
  HdmiSinkDeviceCapability :=
 { cap with
   vsdbInfo :=
    { cap.vsdbInfo with
      present3d := bit d12 7
      multiPresent3d := (d12 &&& 0x60) >>> 5 } }

def hdmiEdidVsdbVicAnd3dInfoPhase (data : List UInt8) (len : ℕ)
  (cap : HdmiSinkDeviceCapability) : Run HdmiSinkDeviceCapability :=
 if len < 13 then pure cap
 else do
  let d12 ← readAt data 12
  let lens ← hdmiEdidVsdbLens data len
  let s ← hdmiEdidVsdbVics data len lens.1 (hdmiEdidVsdb3dPresent d12 cap)
  if lens.2 > 0 ∧ s.2.vsdbInfo.present3d = true ∧ lens.2 + s.1 + 1 ≤ len then do
   let s ← hdmiEdidVsdb3dStructureInfoPhase data len s.1 s.2
   pure s.2
  else pure s.2

def hdmiEdidVsdbPhase (data : List UInt8) (len : ℕ) (cap : HdmiSinkDeviceCapability) :
  Run HdmiSinkDeviceCapability :=
 if len < 5 then pure cap
 else do
  let cap ← hdmiEdidVsdbCecPhyAddrPhase data len cap
  let cap ← hdmiEdidVsdbColorDepthPhase data len cap
  let cap ← hdmiEdidVsdbMaxTmdsClockPhase data len cap
  let cap ← hdmiEdidVsdbSinkPresentPhase data len cap
  let cap ← hdmiEdidVsdbSinkLatencyPhase data len cap
  hdmiEdidVsdbVicAnd3dInfoPhase data len cap

def hdmiEdidHfVsdb21Phase (data : List UInt8) (cap : HdmiSinkDeviceCapability) :
  Run HdmiSinkDeviceCapability := do
 let d6 ← readAt data 6
 let d7 ← readAt data 7
 let d8 ← readAt data 8
 let d9 ← readAt data 9
 let d10 ← readAt data 10
 let d11 ← readAt data 11
 let d12 ← readAt data 12
 pure { cap with
  hfVsdbInfo :=
   { cap.hfVsdbInfo with
     maxFrlRate := upperNibble d6
     fapaStartLocation := bit d7 0
     allm := bit d7 1
     fva := bit d7 2
     cnmVrr := bit d7 3
     cinemaVrr := bit d7 4
     mDelta := bit d7 5
     vrrMin := d8 &&& 0x3f
     vrrMax := ((d8 &&& 0xc0).toUInt16 <<< 2) ||| d9.toUInt16
     dscInfo :=
      { dsc1p2 := bit d10 7
        dscNative420 := bit d10 6
        dscAllBpp := bit d10 3
        dsc10bpc := bit d10 2
        dsc20bpc := bit d10 1
        dsc16bpc := bit d10 0
        dscMaxSlices := lowerNibble d11
        dscMaxFrlRate := upperNibble d11
        dscTotalChunkKBytes := d12 &&& 0x3f } } }

def hdmiEdidHfVsdbPhase (data : List UInt8) (len : ℕ) (cap : HdmiSinkDeviceCapability) :
  Run HdmiSinkDeviceCapability :=
 if len < 7 then pure cap
 else do
  -- The version is only logged.
  let _version ← readAt data 3
  let d4 ← readAt data 4
  let d5 ← readAt data 5
  let d6 ← readAt data 6
  let maxTmdsClk := d4.toUInt32 * 5
  let cap : HdmiSinkDeviceCapability :=
   { cap with
     maxTmdsClk
     supportHdmi20 := maxTmdsClk > 340
     hfVsdbInfo :=
      { cap.hfVsdbInfo with
        scdcPresent := bit d5 7
        rrCapable := bit d5 6
        lte340McscScramble := bit d5 3
        independentView := bit d5 2
        dualView := bit d5 1
        osdDisparity3d := bit d5 0
        dc := { dc30bit := bit d6 0, dc36bit := bit d6 1, dc48bit := bit d6 2 } } }
  if len > 7 ∧ len ≤ 31 then hdmiEdidHfVsdb21Phase data cap else pure cap

def matchesAt (data : List UInt8) : ℕ → List UInt8 → Run Bool
 | _, [] => pure true
 | i, expected :: rest => do
  let b ← readAt data i
  if b = expected then matchesAt data (i + 1) rest else pure false

def hdmiEdidExtVsDataBlockPhase (data : List UInt8) (len : ℕ) (cap : HdmiSinkDeviceCapability) :
  Run HdmiSinkDeviceCapability :=
 if len < 3 then pure cap
 else do
  let vsdb ← matchesAt data 0 [0x03, 0x0c, 0x00]
  let hfVsdb ← matchesAt data 0 [0xd8, 0x5d, 0xc4]
  if vsdb = true then hdmiEdidVsdbPhase data len { cap with supportHdmi14 := true }
  else if hfVsdb = true then hdmiEdidHfVsdbPhase data len cap
  else pure cap

def hdmiEdidExtSpeakerDataBlockPhase (data : List UInt8) (len : ℕ)
  (cap : HdmiSinkDeviceCapability) : Run HdmiSinkDeviceCapability :=
 if len < 2 then pure cap
 else do
  let d0 ← readAt data 0
  let supportAudioSpeaker ← setFlags d0
   [(0, 0), (1, 1), (2, 2), (3, 3), (4, 4), (5, 5), (6, 6), (7, 7)] cap.supportAudioSpeaker
  let d1 ← readAt data 1
  let supportAudioSpeaker ← setFlags d1 [(8, 0), (9, 1), (10, 2)] supportAudioSpeaker
  pure { cap with supportAudioSpeaker }

def hdmiEdidExtUseExtDataBlockVcdbPhase (data : List UInt8) (len : ℕ)
  (cap : HdmiSinkDeviceCapability) : Run HdmiSinkDeviceCapability :=
 if len < 2 then pure cap
 else do
  let d1 ← readAt data 1
  pure { cap with videoCap := { qy := bit d1 7, qs := bit d1 6 } }

def hdmiEdidExtUseExtDataBlockCdbPhase (data : List UInt8) (len : ℕ)
  (cap : HdmiSinkDeviceCapability) : Run HdmiSinkDeviceCapability :=
 if len < 3 then pure cap
 else do
  let d1 ← readAt data 1
  let d2 ← readAt data 2
  pure { cap with
   colorimetry :=
    { xvYcc601 := bit d1 0
      xvYcc709 := bit d1 1
      sYcc601 := bit d1 2
      opYcc601 := bit d1 3
      opRgb := bit d1 4
      bt2020cYcc := bit d1 5
      bt2020Ycc := bit d1 6
      bt2020Rgb := bit d1 7
      dciP3 := bit d2 7
      md := lowerNibble d2 } }

def y420Vic (vic : UInt8) : Bool := vic ≠ 0 && !(128 ≤ vic && vic ≤ 192)

/-- A round of the loop of `HdmiEdidExtUseExtDataBlockY420VdbPhase`. -/
def hdmiEdidY420Vic (data : List UInt8) (i : ℕ) (cap : HdmiSinkDeviceCapability) :
  Run HdmiSinkDeviceCapability := do
 let vic ← readAt data i
 if y420Vic vic = true then do
  let y := cap.y420Cap
  let onlySupportY420Format ← writeAt y.onlySupportY420Format y.onlySupportY420VicNum
   vic.toUInt32
  pure { cap with
   y420Cap :=
    { y with onlySupportY420Format, onlySupportY420VicNum := y.onlySupportY420VicNum + 1 }
   colorSpace := { cap.colorSpace with ycbcr420 := true } }
 else pure cap

def hdmiEdidExtUseExtDataBlockY420VdbPhase (data : List UInt8) (len : ℕ)
  (cap : HdmiSinkDeviceCapability) : Run HdmiSinkDeviceCapability :=
 forLoop (fun cap => hdmiEdidExtensionMaxVicCount ≤ cap.y420Cap.onlySupportY420VicNum)
  (hdmiEdidY420Vic data) (len - 1) 1 cap

/-- A round of the loops of `HdmiEdidExtUseExtDataBlockY420CmdbPhase`: SVD `i`, if it is
selected. -/
def hdmiEdidSupportY420 (selected : ℕ → Run Bool) (i : ℕ) (cap : HdmiSinkDeviceCapability) :
  Run HdmiSinkDeviceCapability := do
 let b ← selected i
 if b = true then do
  let vic ← entryAt cap.videoInfo.vic i
  let y := cap.y420Cap
  let supportY420Format ← writeAt y.supportY420Format y.supportY420VicNum vic
  pure { cap with
   y420Cap := { y with supportY420Format, supportY420VicNum := y.supportY420VicNum + 1 }
   colorSpace := { cap.colorSpace with ycbcr420 := true } }
 else pure cap

def hdmiEdidCapabilityBit (data : List UInt8) (i : ℕ) : Run Bool := do
 let d ← readAt data (i / 8 + 1)
 pure (bit d (i % 8))

/-- `vicNum`, which bounds both loops, does not change in them. -/
def hdmiEdidExtUseExtDataBlockY420CmdbPhase (data : List UInt8) (len : ℕ)
  (cap : HdmiSinkDeviceCapability) : Run HdmiSinkDeviceCapability :=
 let full (cap : HdmiSinkDeviceCapability) : Bool :=
  hdmiEdidExtensionMaxVicCount ≤ cap.y420Cap.supportY420VicNum
 if len = 1 then
  forLoop full (hdmiEdidSupportY420 fun _ => pure true)
   (min cap.videoInfo.vicNum hdmiEdidExtensionMaxVicCount) 0 cap
 else
  forLoop full (hdmiEdidSupportY420 (hdmiEdidCapabilityBit data))
   (min (min (len * 8) hdmiEdidExtensionMaxVicCount) cap.videoInfo.vicNum) 0 cap

def hdmiEdidHdrByte (data : List UInt8) (len i : ℕ) (set : UInt8 → HdmiEdidHdrCap → HdmiEdidHdrCap)
  (cap : HdmiSinkDeviceCapability) : Run HdmiSinkDeviceCapability :=
 if len ≥ i + 1 then do
  let d ← readAt data i
  pure { cap with hdrCap := set d cap.hdrCap }
 else pure cap

/-- `maxFrameAverageLuminanceData` takes both of bytes 4 and 5, and bit 2 gives two flags. -/
def hdmiEdidExtUseExtDataBlockHdrSmdbPhase (data : List UInt8) (len : ℕ)
  (cap : HdmiSinkDeviceCapability) : Run HdmiSinkDeviceCapability :=
 if len < 3 then pure cap
 else do
  let d1 ← readAt data 1
  let d2 ← readAt data 2
  let eotf : HdmiEdidHdrSmdbEotf :=
   { sdr := bit d1 0, hdr := bit d1 1, smpteSt2048 := bit d1 2, hlg := bit d1 2 }
  let cap ← hdmiEdidHdrByte data len 3 (fun d h => { h with maxLuminancedata := d })
   { cap with hdrCap := { cap.hdrCap with eotf, smType1 := bit d2 0 } }
  let cap ← hdmiEdidHdrByte data len 4 (fun d h => { h with maxFrameAverageLuminanceData := d })
   cap
  hdmiEdidHdrByte data len 5 (fun d h => { h with maxFrameAverageLuminanceData := d }) cap

def dolbyValue (low high : UInt8) : UInt16 := low.toUInt16 ||| (high.toUInt16 <<< 4)

def hdmiEdidDolbyCapVersionZeroPhase (data : List UInt8) (cap : HdmiSinkDeviceCapability) :
  Run HdmiSinkDeviceCapability := do
 let d4 ← readAt data 4
 let d5 ← readAt data 5
 let d6 ← readAt data 6
 let d7 ← readAt data 7
 let d8 ← readAt data 8
 let d9 ← readAt data 9
 let d10 ← readAt data 10
 let d11 ← readAt data 11
 let d12 ← readAt data 12
 let d13 ← readAt data 13
 let d14 ← readAt data 14
 let d15 ← readAt data 15
 let d16 ← readAt data 16
 let d17 ← readAt data 17
 let d18 ← readAt data 18
 let d19 ← readAt data 19
 let d20 ← readAt data 20
 pure { cap with
  dolbyCap :=
   { cap.dolbyCap with
     globalDimming := bit d4 2
     redX := dolbyValue (upperNibble d5) d6
     redY := dolbyValue (lowerNibble d5) d7
     greenX := dolbyValue (upperNibble d8) d9
     greenY := dolbyValue (lowerNibble d8) d10
     blueX := dolbyValue (upperNibble d11) d12
     blueY := dolbyValue (lowerNibble d11) d13
     whiteX := dolbyValue (upperNibble d14) d15
     whiteY := dolbyValue (lowerNibble d14) d16
     minLuminance := dolbyValue (upperNibble d17) d18
     maxLuminance := dolbyValue (lowerNibble d17) d19
     dMajorVer := upperNibble d20
     dMinorVer := lowerNibble d20 } }

def hdmiEdidDolbyCapVersionOnePhase (data : List UInt8) (cap : HdmiSinkDeviceCapability) :
  Run HdmiSinkDeviceCapability := do
 let d4 ← readAt data 4
 let d5 ← readAt data 5
 let d6 ← readAt data 6
 let d8 ← readAt data 8
 let d9 ← readAt data 9
 let d10 ← readAt data 10
 let d11 ← readAt data 11
 let d12 ← readAt data 12
 let d13 ← readAt data 13
 pure { cap with
  dolbyCap :=
   { cap.dolbyCap with
     dmVer := (d4 &&& 0x1c) >>> 2
     globalDimming := bit d5 0
     maxLuminance := ((d5 >>> 1) &&& 0x7f).toUInt16
     colorimetry := bit d6 0
     minLuminance := ((d6 >>> 1) &&& 0x7f).toUInt16
     redX := d8.toUInt16
     redY := d9.toUInt16
     greenX := d10.toUInt16
     greenY := d11.toUInt16
     blueX := d12.toUInt16
     blueY := d13.toUInt16 } }

def dolbyVersion (d4 : UInt8) : UInt8 := (d4 &&& 0xe0) >>> 5

def dolbyOui (d1 d2 d3 : UInt8) : UInt32 :=
 d1.toUInt32 ||| (d2.toUInt32 <<< 8) ||| (d3.toUInt32 <<< 16)

def hdmiEdidExtUseExtDataBlockVsvdbPhase (data : List UInt8) (len : ℕ)
  (cap : HdmiSinkDeviceCapability) : Run HdmiSinkDeviceCapability :=
 if len ≠ 27 ∧ len ≠ 14 then pure cap
 else do
  let d1 ← readAt data 1
  let d2 ← readAt data 2
  let d3 ← readAt data 3
  if dolbyOui d1 d2 d3 ≠ 0x00d046 then pure cap
  else do
   let d4 ← readAt data 4
   let cap : HdmiSinkDeviceCapability :=
    { cap with
      dolbyCap :=
       { cap.dolbyCap with
         oui := dolbyOui d1 d2 d3
         version := dolbyVersion d4
         yuv422 := bit d4 0
         b2160p60 := bit d4 1 } }
   if dolbyVersion d4 = 0 then hdmiEdidDolbyCapVersionZeroPhase data cap
   else if dolbyVersion d4 = 1 then hdmiEdidDolbyCapVersionOnePhase data cap
   else pure cap

def hdmiEdidExtUseExtDataBlockPhase (data : List UInt8) (len : ℕ)
  (cap : HdmiSinkDeviceCapability) : Run HdmiSinkDeviceCapability := do
 let extTagCode ← readAt data 0
 if extTagCode = 0 then hdmiEdidExtUseExtDataBlockVcdbPhase data len cap
 else if extTagCode = 1 then hdmiEdidExtUseExtDataBlockVsvdbPhase data len cap
 else if extTagCode = 5 then hdmiEdidExtUseExtDataBlockCdbPhase data len cap
 else if extTagCode = 6 then hdmiEdidExtUseExtDataBlockHdrSmdbPhase data len cap
 else if extTagCode = 14 then hdmiEdidExtUseExtDataBlockY420VdbPhase data len cap
 else if extTagCode = 15 then hdmiEdidExtUseExtDataBlockY420CmdbPhase data len cap
 else pure cap

def hdmiEdidExtDataBlock (data : List UInt8) (len : ℕ) (tag : UInt8)
  (cap : HdmiSinkDeviceCapability) : Run HdmiSinkDeviceCapability :=
 if tag = 2 then hdmiEdidExtVideoDataBlockPhase data len cap
 else if tag = 3 then hdmiEdidExtVsDataBlockPhase data len cap
 else if tag = 4 then hdmiEdidExtSpeakerDataBlockPhase data len cap
 else if tag = 7 then hdmiEdidExtUseExtDataBlockPhase data len cap
 else pure cap

def hdmiEdidExtDataBlockPhase (data : List UInt8) (len : ℕ) (tag : UInt8)
  (cap : HdmiSinkDeviceCapability) : Run (HdfStatus × HdmiSinkDeviceCapability) :=
 if len = 0 then pure (.success, cap)
 else if tag = 1 then hdmiEdidExtAudioDataBlockPhase data len cap
 else do
  let cap ← hdmiEdidExtDataBlock data len tag cap
  pure (.success, cap)

end DriversFramework.HdmiEdid
