import DriversFramework.HdmiEdidFirst
import DriversFramework.HdmiEdidFits

/-! `HdmiEdidPhase`: the first block, then the data blocks and the detailed timings of each
extension block. `pos` is where the pointer `data` stands in the raw array and `blkOffset` is
the eight-bit counter kept beside it. A loop is given a number of rounds. -/
namespace DriversFramework.HdmiEdid

open CheckedAccess

def blkLen (header : UInt8) : ℕ := (header &&& 0x1f).toNat

def dbTagCode (header : UInt8) : UInt8 := (header &&& 0xe0) >>> 5

/-- `HDMI_EDID_SINGLE_BLOCK_SIZE - 1 - blkOffset`, a signed difference, against the length of a
descriptor. -/
def hdmiEdidDetailedTimings (raw : EdidRaw) :
  ℕ → ℕ → ℕ → HdmiSinkDeviceCapability → Run HdmiSinkDeviceCapability
 | 0, _, _, _ => .error .rounds
 | rounds + 1, blkOffset, pos, cap =>
  if blkOffset + detailedTimingLen ≤ 127 then do
   let cap ← hdmiEdidDetailedTiming (window raw.bytes pos detailedTimingLen) cap
   hdmiEdidDetailedTimings raw rounds ((blkOffset + detailedTimingLen) % 256)
    (pos + detailedTimingLen) cap
  else pure cap

/-- The loop of `HdmiEdidExtSeveralDataBlockPhase` and what follows it. -/
def hdmiEdidDataBlocks (raw : EdidRaw) (dtdOffset : ℕ) :
  ℕ → ℕ → ℕ → HdmiSinkDeviceCapability → Run HdmiSinkDeviceCapability
 | 0, _, _, _ => .error .rounds
 | rounds + 1, blkOffset, pos, cap =>
  if blkOffset < dtdOffset then do
   let header ← readAt raw.bytes pos
   let r ← hdmiEdidExtDataBlockPhase (window raw.bytes (pos + 1) (blkLen header)) (blkLen header)
    (dbTagCode header) cap
   if r.1 ≠ .success then pure r.2
   else
    hdmiEdidDataBlocks raw dtdOffset rounds ((blkOffset + (blkLen header + 1)) % 256)
     (pos + 1 + blkLen header) r.2
  else hdmiEdidDetailedTimings raw (rounds + 1) blkOffset pos cap

def hdmiEdidExtSeveralDataBlockPhase (raw : EdidRaw) (rounds blockNum : ℕ)
  (cap : HdmiSinkDeviceCapability) : Run HdmiSinkDeviceCapability := do
 let dtdOffset ← readAt raw.bytes (blockNum * hdmiEdidSingleBlockSize + 2)
 hdmiEdidDataBlocks raw dtdOffset.toNat rounds 4 (blockNum * hdmiEdidSingleBlockSize + 4) cap

def hdmiEdidExtBlockFlags (d3 : UInt8) (cap : HdmiSinkDeviceCapability) :
  HdmiSinkDeviceCapability :=
 { cap with
   colorSpace :=
    { cap.colorSpace with rgb444 := true, ycbcr422 := bit d3 4, ycbcr444 := bit d3 5 }
   supportAudio := bit d3 6 }

def hdmiEdidExtBlockPhase (raw : EdidRaw) (rounds blockNum : ℕ) (cap : HdmiSinkDeviceCapability) :
  Run (HdfStatus × HdmiSinkDeviceCapability) :=
 if blockNum ≥ hdmiEdidMaxBlockNum then pure (.errInvalidParam, cap)
 else do
  let data := raw.bytes.drop (blockNum * hdmiEdidSingleBlockSize)
  let ret ← hdmiEdidBlockCheckSum data
  if ret ≠ .success then pure (ret, cap)
  else do
   let _tag ← readAt data 0
   let _revision ← readAt data 1
   let d2 ← readAt data 2
   if d2 < 4 then pure (.success, cap)
   else do
    let d3 ← readAt data 3
    let cap ← hdmiEdidExtSeveralDataBlockPhase raw rounds blockNum
     (hdmiEdidExtBlockFlags d3 cap)
    pure (.success, cap)

def hdmiEdidExtBlocks (raw : EdidRaw) (inner : ℕ) :
  ℕ → ℕ → HdmiSinkDeviceCapability → Run (HdfStatus × HdmiSinkDeviceCapability)
 | 0, _, _ => .error .rounds
 | rounds + 1, blockNum, cap =>
  if blockNum ≤ cap.extBlockNum.toNat then do
   let r ← hdmiEdidExtBlockPhase raw inner blockNum cap
   if r.1 ≠ .success then pure r
   else hdmiEdidExtBlocks raw inner rounds (blockNum + 1) r.2
  else pure (.success, cap)

def hdmiEdidPhase (raw : EdidRaw) (rounds : ℕ) (cap : HdmiSinkDeviceCapability) :
  Run (HdfStatus × HdmiSinkDeviceCapability) := do
 let r ← hdmiEdidFirstBlockPhase raw cap
 if r.1 ≠ .success then pure r
 else hdmiEdidExtBlocks raw rounds rounds 1 r.2

end DriversFramework.HdmiEdid
