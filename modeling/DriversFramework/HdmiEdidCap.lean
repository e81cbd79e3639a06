import Mathlib.Data.Nat.Notation

/-! The raw array and the capability tables of `hdmi_edid.h`. A field's default is the value the
cleared structure has; a counter of a table is a number here, since it only grows below the
size of its table. -/
namespace DriversFramework.HdmiEdid

def hdmiEdidSingleBlockSize : ℕ := 128

def hdmiEdidMaxBlockNum : ℕ := 4

/-- `raw`, with the `HDMI_EDID_TOTAL_SIZE` bytes it has whatever was read into it. -/
structure EdidRaw where
 bytes : List UInt8
 length_eq : bytes.length = 512

structure HdmiEdidVendorInfo where
 mfrName : Vector UInt8 4 := Vector.replicate 4 0
 productCode : UInt16 := 0
 serialNumber : UInt32 := 0
 week : UInt8 := 0
 year : UInt8 := 0

structure HdmiEdidVersionInfo where
 version : UInt8 := 0
 revision : UInt8 := 0

structure HdmiEdidBasicDispParamInfo where
 width : UInt8 := 0
 height : UInt8 := 0

structure HdmiEdidColorInfo where
 redX : UInt16 := 0
 redY : UInt16 := 0
 greenX : UInt16 := 0
 greenY : UInt16 := 0
 blueX : UInt16 := 0
 blueY : UInt16 := 0
 whiteX : UInt16 := 0
 whiteY : UInt16 := 0

def hdmiEdidEstablishedTimingButt : ℕ := 17

structure HdmiEdidEstablishedTimingsInfo where
 estTimingsNum : UInt32 := 0
 estTimings : Vector UInt32 hdmiEdidEstablishedTimingButt := Vector.replicate _ 0

structure HdmiEdidStdTimingInfo where
 horizPixel : UInt32 := 0
 vertPixel : UInt32 := 0
 refreshRate : UInt32 := 0

def hdmiEdidStandardTimingCount : ℕ := 8

structure HdmiEdidPreferredTimingInfo where
 pixelClk : UInt32 := 0
 hActive : UInt32 := 0
 hBackBlank : UInt32 := 0
 hFrontBlank : UInt32 := 0
 hSyncPluseWidth : UInt32 := 0
 vActive : UInt32 := 0
 vBackBlank : UInt32 := 0
 vFrontBlank : UInt32 := 0
 vSyncPluseWidth : UInt32 := 0
 imageWidth : UInt32 := 0
 imageHeight : UInt32 := 0
 interlaceFlag : Bool := false
 idv : Bool := false
 ihs : Bool := false
 ivs : Bool := false

def hdmiEdidMaxDetailedTimingCount : ℕ := 10

def hdmiEdidMaxSinkNameCount : ℕ := 14

structure HdmiEdidColorSpace where
 rgb444 : Bool := false
 ycbcr422 : Bool := false
 ycbcr444 : Bool := false
 ycbcr420 : Bool := false

def hdmiEdidExtensionAudioMaxSampleRateNum : ℕ := 8

def hdmiEdidExtensionAudioMaxBitDepthNum : ℕ := 6

structure HdmiEdidAudioInfo where
 formatCode : UInt8 := 0
 sampleRateNum : ℕ := 0
 sampleRate : Vector UInt32 hdmiEdidExtensionAudioMaxSampleRateNum := Vector.replicate _ 0
 bitDepthNum : ℕ := 0
 bitDepth : Vector UInt32 hdmiEdidExtensionAudioMaxBitDepthNum := Vector.replicate _ 0
 channels : UInt8 := 0
 maxBitRate : UInt32 := 0

def hdmiEdidExtensionAudioCapCount : ℕ := 16

def hdmiEdidExtensionMaxVicCount : ℕ := 128

structure HdmiEdidVideoInfo where
 vicNum : ℕ := 0
 vic : Vector UInt32 hdmiEdidExtensionMaxVicCount := Vector.replicate _ 0
 nativeFormat : UInt32 := 0

structure HdmiEdidVsdbCecAddr where
 addrValid : Bool := false
 phyAddrA : UInt8 := 0
 phyAddrB : UInt8 := 0
 phyAddrC : UInt8 := 0
 phyAddrD : UInt8 := 0

structure HdmiEdidDeepColor where
 dcY444 : Bool := false
 dc30bit : Bool := false
 dc36bit : Bool := false
 dc48bit : Bool := false

def hdmiVsVideo3dButt : ℕ := 9

structure HdmiEdidExtVsdbInfo where
 cecAddr : HdmiEdidVsdbCecAddr := {}
 deepColor : HdmiEdidDeepColor := {}
 supportAi : Bool := false
 supportDviDual : Bool := false
 latencyFieldsPresent : Bool := false
 iLatencyFieldsPresent : Bool := false
 hdmiVideoPresent : Bool := false
 videoLatency : UInt8 := 0
 audioLatency : UInt8 := 0
 interlacedVideoLatency : UInt8 := 0
 interlacedAudioLatency : UInt8 := 0
 present3d : Bool := false
 multiPresent3d : UInt8 := 0
 support3dType : Vector Bool hdmiVsVideo3dButt := Vector.replicate _ false

structure HdmiEdidExtHfVsdbDeepColor where
 dc30bit : Bool := false
 dc36bit : Bool := false
 dc48bit : Bool := false

structure HdmiEdidExtHfVsdbDscInfo where
 dsc1p2 : Bool := false
 dscNative420 : Bool := false
 dscAllBpp : Bool := false
 dsc10bpc : Bool := false
 dsc20bpc : Bool := false
 dsc16bpc : Bool := false
 dscMaxSlices : UInt8 := 0
 dscMaxFrlRate : UInt8 := 0
 dscTotalChunkKBytes : UInt8 := 0

structure HdmiEdidExtHfVsdbInfo where
 scdcPresent : Bool := false
 rrCapable : Bool := false
 lte340McscScramble : Bool := false
 independentView : Bool := false
 dualView : Bool := false
 osdDisparity3d : Bool := false
 dc : HdmiEdidExtHfVsdbDeepColor := {}
 maxFrlRate : UInt8 := 0
 fapaStartLocation : Bool := false
 allm : Bool := false
 fva : Bool := false
 cnmVrr : Bool := false
 cinemaVrr : Bool := false
 mDelta : Bool := false
 vrrMin : UInt8 := 0
 vrrMax : UInt16 := 0
 dscInfo : HdmiEdidExtHfVsdbDscInfo := {}

def hdmiEdidAudioSpeakerButt : ℕ := 11

structure HdmiEdidColorimetry where
 xvYcc601 : Bool := false
 xvYcc709 : Bool := false
 sYcc601 : Bool := false
 opYcc601 : Bool := false
 opRgb : Bool := false
 bt2020cYcc : Bool := false
 bt2020Ycc : Bool := false
 bt2020Rgb : Bool := false
 dciP3 : Bool := false
 md : UInt8 := 0

structure HdmiEdidVideoCapability where
 qy : Bool := false
 qs : Bool := false

structure HdmiEdidYcbcr420Cap where
 onlySupportY420VicNum : ℕ := 0
 onlySupportY420Format : Vector UInt32 hdmiEdidExtensionMaxVicCount := Vector.replicate _ 0
 supportY420VicNum : ℕ := 0
 supportY420Format : Vector UInt32 hdmiEdidExtensionMaxVicCount := Vector.replicate _ 0

structure HdmiEdidHdrSmdbEotf where
 sdr : Bool := false
 hdr : Bool := false
 smpteSt2048 : Bool := false
 hlg : Bool := false

structure HdmiEdidHdrCap where
 eotf : HdmiEdidHdrSmdbEotf := {}
 smType1 : Bool := false
 maxLuminancedata : UInt8 := 0
 maxFrameAverageLuminanceData : UInt8 := 0
 minLuminanceData : UInt8 := 0

structure HdmiEdidVsvdbDolbyCap where
 oui : UInt32 := 0
 version : UInt8 := 0
 yuv422 : Bool := false
 b2160p60 : Bool := false
 globalDimming : Bool := false
 redX : UInt16 := 0
 redY : UInt16 := 0
 greenX : UInt16 := 0
 greenY : UInt16 := 0
 blueX : UInt16 := 0
 blueY : UInt16 := 0
 whiteX : UInt16 := 0
 whiteY : UInt16 := 0
 minLuminance : UInt16 := 0
 maxLuminance : UInt16 := 0
 dMajorVer : UInt8 := 0
 dMinorVer : UInt8 := 0
 colorimetry : Bool := false
 dmVer : UInt8 := 0

structure HdmiSinkDeviceCapability where
 extBlockNum : UInt8 := 0
 vendorInfo : HdmiEdidVendorInfo := {}
 verInfo : HdmiEdidVersionInfo := {}
 sinkDeviceName : Vector UInt8 hdmiEdidMaxSinkNameCount := Vector.replicate _ 0
 disp : HdmiEdidBasicDispParamInfo := {}
 establishedTimingsInfo : HdmiEdidEstablishedTimingsInfo := {}
 stdTimingsInfo : Vector HdmiEdidStdTimingInfo hdmiEdidStandardTimingCount :=
  Vector.replicate _ {}
 colorInfo : HdmiEdidColorInfo := {}
 colorSpace : HdmiEdidColorSpace := {}
 preTimingCnt : ℕ := 0
 preTimingInfo : Vector HdmiEdidPreferredTimingInfo hdmiEdidMaxDetailedTimingCount :=
  Vector.replicate _ {}
 audioInfoCnt : ℕ := 0
 audioInfo : Vector HdmiEdidAudioInfo hdmiEdidExtensionAudioCapCount := Vector.replicate _ {}
 videoInfo : HdmiEdidVideoInfo := {}
 maxTmdsClk : UInt32 := 0
 supportHdmi14 : Bool := false
 supportHdmi20 : Bool := false
 supportAudio : Bool := false
 vsdbInfo : HdmiEdidExtVsdbInfo := {}
 hfVsdbInfo : HdmiEdidExtHfVsdbInfo := {}
 supportAudioSpeaker : Vector Bool hdmiEdidAudioSpeakerButt := Vector.replicate _ false
 colorimetry : HdmiEdidColorimetry := {}
 videoCap : HdmiEdidVideoCapability := {}
 y420Cap : HdmiEdidYcbcr420Cap := {}
 hdrCap : HdmiEdidHdrCap := {}
 dolbyCap : HdmiEdidVsvdbDolbyCap := {}

/-- The cleared structure. -/
def hdmiEdidReset : HdmiSinkDeviceCapability := {}

def bit (b : UInt8) (k : ℕ) : Bool := b.toNat.testBit k

def upperNibble (b : UInt8) : UInt8 := (b &&& 0xf0) >>> 4

def lowerNibble (b : UInt8) : UInt8 := b &&& 0x0f

end DriversFramework.HdmiEdid
