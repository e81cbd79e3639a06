import DriversFramework.CheckedAccess
import DriversFramework.HdfBase
import DriversFramework.HdmiEdidCap

/-! `HdmiEdidFirstBlockPhase` and the detailed timing descriptors of `hdmi_edid.c`, with every
access to the raw array and to a capability table checked. `data` is what may be read from the
pointer of that name on. A member of a structure laid over the raw array is read at its offset. -/
namespace DriversFramework.HdmiEdid

open CheckedAccess

def edidHeader : List UInt8 := [0x00, 0xff, 0xff, 0xff, 0xff, 0xff, 0xff, 0x00]

def hdmiEdidHeaderFrom (data : List UInt8) : ℕ → List UInt8 → Run HdfStatus
 | _, [] => pure .success
 | i, expected :: rest => do
  let b ← readAt data i
  if b ≠ expected then pure .errInvalidParam else hdmiEdidHeaderFrom data (i + 1) rest

def hdmiEdidHeaderPhase (data : List UInt8) : Run HdfStatus :=
 hdmiEdidHeaderFrom data 0 edidHeader

def hdmiEdidBlockCheckSum (data : List UInt8) : Run HdfStatus := do
 let checkSum ← (List.range hdmiEdidSingleBlockSize).foldlM
  (fun sum i => do
   let b ← readAt data i
   pure (sum + b.toNat)) 0
 pure (if checkSum % 256 = 0 then .success else .failure)

def hdmiEdidMfrNameChar (data : UInt16) (name : Vector UInt8 4) (i : ℕ) : Run (Vector UInt8 4) :=
 let shift := UInt16.ofNat (5 * i)
 let tmpData := (data &&& (0x1f <<< shift)) >>> shift
 if tmpData > 0 ∧ tmpData < 27 then writeAt name (2 - i) (65 + tmpData - 1).toUInt8
 else pure name

def hdmiEdidVendorInfoPhase (data : List UInt8) (cap : HdmiSinkDeviceCapability) :
  Run HdmiSinkDeviceCapability := do
 let name0 ← readAt data 8
 let name1 ← readAt data 9
 let mfrName ← (List.range 3).foldlM
  (hdmiEdidMfrNameChar ((name0.toUInt16 <<< 8) ||| name1.toUInt16)) cap.vendorInfo.mfrName
 let code1 ← readAt data 11
 let code0 ← readAt data 10
 let serialNumber ← (List.range 4).foldlM
  (fun serial i => do
   let b ← readAt data (12 + i)
   pure (serial ||| (b.toUInt32 <<< UInt32.ofNat (8 * i)))) cap.vendorInfo.serialNumber
 let week ← readAt data 16
 let year ← readAt data 17
 pure { cap with
  vendorInfo :=
   { mfrName, serialNumber, week
     productCode := (code1.toUInt16 <<< 8) ||| code0.toUInt16
     year := UInt8.ofNat (year.toNat + 1990) } }

def hdmiEdidVersionInfoPhase (data : List UInt8) (cap : HdmiSinkDeviceCapability) :
  Run HdmiSinkDeviceCapability := do
 let version ← readAt data 18
 let revision ← readAt data 19
 pure { cap with verInfo := { version, revision } }

def hdmiEdidBasicDispPhase (data : List UInt8) (cap : HdmiSinkDeviceCapability) :
  Run HdmiSinkDeviceCapability := do
 let width ← readAt data 21
 let height ← readAt data 22
 pure { cap with disp := { width, height } }

def colorValue (high low : UInt8) (offset : UInt16) : UInt16 :=
 (high.toUInt16 <<< 2) ||| ((low.toUInt16 >>> offset) &&& 0x03)

def hdmiEdidColorFeaturePhase (data : List UInt8) (cap : HdmiSinkDeviceCapability) :
  Run HdmiSinkDeviceCapability := do
 let redGreenLow ← readAt data 25
 let blueWhiteLow ← readAt data 26
 let redX ← readAt data 27
 let redY ← readAt data 28
 let greenX ← readAt data 29
 let greenY ← readAt data 30
 let blueX ← readAt data 31
 let blueY ← readAt data 32
 let whiteX ← readAt data 33
 let whiteY ← readAt data 34
 pure { cap with
  colorInfo :=
   { redX := colorValue redX redGreenLow 6
     redY := colorValue redY redGreenLow 4
     greenX := colorValue greenX redGreenLow 2
     greenY := colorValue greenY redGreenLow 0
     blueX := colorValue blueX blueWhiteLow 6
     blueY := colorValue blueY blueWhiteLow 4
     whiteX := colorValue whiteX blueWhiteLow 2
     whiteY := colorValue whiteY blueWhiteLow 0 } }

def hdmiEdidEstablishedTiming (data : UInt32) (info : HdmiEdidEstablishedTimingsInfo) (i : ℕ) :
  Run HdmiEdidEstablishedTimingsInfo :=
 if data.toNat.testBit i then do
  let estTimings ← writeAt info.estTimings i (UInt32.ofNat i)
  pure { estTimings, estTimingsNum := info.estTimingsNum + 1 }
 else pure info

def hdmiEdidEstablisedTimingPhase (data : List UInt8) (cap : HdmiSinkDeviceCapability) :
  Run HdmiSinkDeviceCapability := do
 let bits ← (List.range 3).foldlM
  (fun bits i => do
   let b ← readAt data (35 + i)
   pure (bits ||| (b.toUInt32 <<< UInt32.ofNat (8 * i)))) 0
 let info ← (List.range hdmiEdidEstablishedTimingButt).foldlM (hdmiEdidEstablishedTiming bits)
  cap.establishedTimingsInfo
 pure { cap with establishedTimingsInfo := info }

def hdmiEdidGetStandardTimingVertPixel (aspectRatio : UInt8) (horizPixel : UInt32) : UInt32 :=
 if aspectRatio = 0 then horizPixel * 10 / 16
 else if aspectRatio = 1 then horizPixel * 4 / 5
 else if aspectRatio = 2 then horizPixel * 3 / 4
 else if aspectRatio = 3 then horizPixel * 9 / 16
 else 0

def hdmiEdidStandardTiming (data : List UInt8)
  (infos : Vector HdmiEdidStdTimingInfo hdmiEdidStandardTimingCount) (i : ℕ) :
  Run (Vector HdmiEdidStdTimingInfo hdmiEdidStandardTimingCount) := do
 let d0 ← readAt data (38 + 2 * i)
 let d1 ← readAt data (38 + 2 * i + 1)
 if d0 ≠ 0x01 ∨ d1 ≠ 0x01 then
  let horizPixel := (d0.toUInt32 + 31) * 8
  writeAt infos i
   { horizPixel
     vertPixel := hdmiEdidGetStandardTimingVertPixel ((d1 &&& 0xc0) >>> 6) horizPixel
     refreshRate := (d1 &&& 0x3f).toUInt32 + 60 }
 else pure infos

def hdmiEdidStandardTimingPhase (data : List UInt8) (cap : HdmiSinkDeviceCapability) :
  Run HdmiSinkDeviceCapability := do
 let infos ← (List.range hdmiEdidStandardTimingCount).foldlM (hdmiEdidStandardTiming data)
  cap.stdTimingsInfo
 pure { cap with stdTimingsInfo := infos }

def hdmiEdidMonitorDescriptorPhase (data : List UInt8) (cap : HdmiSinkDeviceCapability) :
  Run HdmiSinkDeviceCapability := do
 let dataTag ← readAt data 3
 if dataTag ≠ 0xfc then pure cap
 else do
  let name ← readSlice data 5 13
  let sinkDeviceName ← copyInto cap.sinkDeviceName name
  pure { cap with sinkDeviceName }

def hdmiEdidDigitalSyncSignal (perTiming : HdmiEdidPreferredTimingInfo) (flags : UInt8) :
  HdmiEdidPreferredTimingInfo :=
 let signal := (flags &&& 0x0e) >>> 1
 { perTiming with ihs := signal = 5 || signal = 7, ivs := signal = 6 || signal = 7 }

def hdmiEdidDetailedTimingDescriptorPhase (data : List UInt8) (cap : HdmiSinkDeviceCapability) :
  Run HdmiSinkDeviceCapability :=
 if cap.preTimingCnt ≥ hdmiEdidMaxDetailedTimingCount then pure cap
 else do
  let perTiming ← entryAt cap.preTimingInfo cap.preTimingCnt
  let clk1 ← readAt data 1
  let clk0 ← readAt data 0
  let pixelClock := (clk1.toUInt32 <<< 8) ||| clk0.toUInt32
  if pixelClock = 0 then pure cap
  else do
   let hActive ← readAt data 2
   let hBlanking ← readAt data 3
   let hActiveBlanking ← readAt data 4
   let vActive ← readAt data 5
   let vBlanking ← readAt data 6
   let vActiveBlanking ← readAt data 7
   let hSyncOffset ← readAt data 8
   let hSyncPulseWidth ← readAt data 9
   let vsOffesetPulseWidth ← readAt data 10
   let hsOffsetVsOffset ← readAt data 11
   let hImageSize ← readAt data 12
   let vImageSize ← readAt data 13
   let hvImageSize ← readAt data 14
   let flags ← readAt data 17
   let perTiming : HdmiEdidPreferredTimingInfo :=
    { perTiming with
      pixelClk := pixelClock * 10
      hActive := hActive.toUInt32 ||| ((hActiveBlanking &&& 0xf0).toUInt32 <<< 4)
      hBackBlank := hBlanking.toUInt32 ||| ((hActiveBlanking &&& 0x0f).toUInt32 <<< 8)
      hFrontBlank := hSyncOffset.toUInt32 ||| ((hsOffsetVsOffset &&& 0xc0).toUInt32 <<< 2)
      hSyncPluseWidth :=
       hSyncPulseWidth.toUInt32 ||| ((hsOffsetVsOffset &&& 0x30).toUInt32 <<< 4)
      vActive := vActive.toUInt32 ||| ((vActiveBlanking &&& 0xf0).toUInt32 <<< 4)
      vBackBlank := vBlanking.toUInt32 ||| ((vActiveBlanking &&& 0x0f).toUInt32 <<< 8)
      vFrontBlank := ((hsOffsetVsOffset &&& 0x0c).toUInt32 <<< 2) |||
       ((vsOffesetPulseWidth &&& 0xf0).toUInt32 >>> 4)
      vSyncPluseWidth := ((hsOffsetVsOffset &&& 0x03).toUInt32 <<< 4) |||
       (vsOffesetPulseWidth &&& 0x0f).toUInt32
      imageWidth := hImageSize.toUInt32 ||| ((hvImageSize &&& 0xf0).toUInt32 <<< 4)
      imageHeight := vImageSize.toUInt32 ||| ((hvImageSize &&& 0x0f).toUInt32 <<< 8)
      interlaceFlag := bit flags 7 }
   let preTimingInfo ← writeAt cap.preTimingInfo cap.preTimingCnt
    (if bit flags 4 then hdmiEdidDigitalSyncSignal perTiming flags else perTiming)
   pure { cap with preTimingInfo, preTimingCnt := cap.preTimingCnt + 1 }

def hdmiEdidDetailedTiming (data : List UInt8) (cap : HdmiSinkDeviceCapability) :
  Run HdmiSinkDeviceCapability := do
 let d0 ← readAt data 0
 if d0 ≠ 0x00 then hdmiEdidDetailedTimingDescriptorPhase data cap
 else do
  let d1 ← readAt data 1
  if d1 ≠ 0x00 then hdmiEdidDetailedTimingDescriptorPhase data cap
  else do
   let d2 ← readAt data 2
   if d2 ≠ 0x00 then hdmiEdidDetailedTimingDescriptorPhase data cap
   else hdmiEdidMonitorDescriptorPhase data cap

def detailedTimingLen : ℕ := 18

def window (data : List UInt8) (pos len : ℕ) : List UInt8 := (data.drop pos).take len

def hdmiEdidDetailedTimingPhase (data : List UInt8) (cap : HdmiSinkDeviceCapability) :
  Run HdmiSinkDeviceCapability :=
 [54, 72, 90, 108].foldlM
  (fun cap pos => hdmiEdidDetailedTiming (window data pos detailedTimingLen) cap) cap

def hdmiEdidExtBlockNumPhase (data : List UInt8) (cap : HdmiSinkDeviceCapability) :
  Run HdmiSinkDeviceCapability := do
 let extBlockNum ← readAt data 126
 pure { cap with extBlockNum := if extBlockNum > 3 then 3 else extBlockNum }

def hdmiEdidFirstBlockPhase (raw : EdidRaw) (cap : HdmiSinkDeviceCapability) :
  Run (HdfStatus × HdmiSinkDeviceCapability) := do
 let ret ← hdmiEdidBlockCheckSum raw.bytes
 if ret ≠ .success then pure (ret, cap)
 else do
  let ret ← hdmiEdidHeaderPhase raw.bytes
  if ret ≠ .success then pure (ret, cap)
  else do
   let cap ← hdmiEdidVendorInfoPhase raw.bytes cap
   let cap ← hdmiEdidVersionInfoPhase raw.bytes cap
   let cap ← hdmiEdidBasicDispPhase raw.bytes cap
   let cap ← hdmiEdidColorFeaturePhase raw.bytes cap
   let cap ← hdmiEdidEstablisedTimingPhase raw.bytes cap
   let cap ← hdmiEdidStandardTimingPhase raw.bytes cap
   let cap ← hdmiEdidDetailedTimingPhase raw.bytes cap
   let cap ← hdmiEdidExtBlockNumPhase raw.bytes cap
   pure (.success, cap)

section Returns
variable (data : List UInt8) (cap : HdmiSinkDeviceCapability)

theorem returns_headerFrom (i : ℕ) (expected : List UInt8) (h : i + expected.length ≤ data.length) :
 Returns (hdmiEdidHeaderFrom data i expected) := by
 induction expected generalizing i with
 | nil => exact returns_pure _
 | cons e rest ih =>
  rw [List.length_cons] at h
  rw [hdmiEdidHeaderFrom, returns_readAt_bind, returns_ite]
  refine ⟨by omega, ?_⟩
  split
  · exact returns_pure _
  · exact ih (i + 1) (by omega)

theorem returns_blockCheckSum (h : 128 ≤ data.length) : Returns (hdmiEdidBlockCheckSum data) := by
 rw [hdmiEdidBlockCheckSum, returns_bind_pure]
 apply returns_foldlM
 intro sum i hi
 rw [returns_bind_pure, returns_readAt]
 rw [List.mem_range] at hi
 exact Nat.lt_of_lt_of_le hi h

theorem returns_mfrNameChar (d : UInt16) (name : Vector UInt8 4) (i : ℕ) :
 Returns (hdmiEdidMfrNameChar d name i) := by
 rw [hdmiEdidMfrNameChar, returns_ite, returns_writeAt]
 split
 · omega
 · exact returns_pure _

theorem returns_vendorInfo (h : 128 ≤ data.length) :
 Returns (hdmiEdidVendorInfoPhase data cap) := by
 simp only [hdmiEdidVendorInfoPhase, returns_readAt_bind]
 refine ⟨by omega, by omega, ?_⟩
 rw [returns_bind]
 obtain ⟨name, hname⟩ := returns_foldlM
  (hdmiEdidMfrNameChar ((peek data 8).toUInt16 <<< 8 ||| (peek data 9).toUInt16)) (List.range 3)
  (fun name i _ => returns_mfrNameChar _ name i) cap.vendorInfo.mfrName
 refine ⟨name, hname, ?_⟩
 simp only [returns_readAt_bind]
 refine ⟨by omega, by omega, ?_⟩
 rw [returns_bind]
 obtain ⟨serial, hserial⟩ := returns_foldlM
  (fun (serial : UInt32) i => (do
   let b ← readAt data (12 + i)
   pure (serial ||| (b.toUInt32 <<< UInt32.ofNat (8 * i))) : Run UInt32)) (List.range 4)
  (fun serial i hi => by
   rw [List.mem_range] at hi
   rw [returns_bind_pure, returns_readAt]
   omega) cap.vendorInfo.serialNumber
 refine ⟨serial, hserial, ?_⟩
 simp only [returns_readAt_bind, returns_pure, and_true]
 omega

theorem returns_establisedTiming (h : 128 ≤ data.length) :
 Returns (hdmiEdidEstablisedTimingPhase data cap) := by
 rw [hdmiEdidEstablisedTimingPhase, returns_bind]
 obtain ⟨bits, hbits⟩ := returns_foldlM
  (fun (bits : UInt32) i => (do
   let b ← readAt data (35 + i)
   pure (bits ||| (b.toUInt32 <<< UInt32.ofNat (8 * i))) : Run UInt32)) (List.range 3)
  (fun bits i hi => by
   rw [List.mem_range] at hi
   rw [returns_bind_pure, returns_readAt]
   omega) 0
 refine ⟨bits, hbits, ?_⟩
 rw [returns_bind_pure]
 apply returns_foldlM
 intro info i hi
 rw [List.mem_range] at hi
 rw [hdmiEdidEstablishedTiming, returns_ite, returns_bind_pure, returns_writeAt]
 split
 · exact hi
 · exact returns_pure _

theorem returns_standardTiming (h : 128 ≤ data.length) :
 Returns (hdmiEdidStandardTimingPhase data cap) := by
 rw [hdmiEdidStandardTimingPhase, returns_bind_pure]
 apply returns_foldlM
 intro infos i hi
 rw [List.mem_range] at hi
 have hi' : i < 8 := hi
 simp only [hdmiEdidStandardTiming, returns_readAt_bind, returns_ite, returns_writeAt]
 refine ⟨by omega, by omega, ?_⟩
 split
 · exact hi
 · exact returns_pure _

theorem returns_monitorDescriptor (h : 18 ≤ data.length) :
 Returns (hdmiEdidMonitorDescriptorPhase data cap) := by
 simp only [hdmiEdidMonitorDescriptorPhase, returns_readAt_bind, returns_ite]
 refine ⟨by omega, ?_⟩
 split
 · exact returns_pure _
 · rw [returns_readSlice_bind]
   refine ⟨by omega, returns_copyInto_bind _ _ _ ?_ fun _ => returns_pure _⟩
   exact Nat.le_trans (List.length_take_le _ _) (by decide)

theorem returns_detailedTimingDescriptor (h : 18 ≤ data.length) :
 Returns (hdmiEdidDetailedTimingDescriptorPhase data cap) := by
 rw [hdmiEdidDetailedTimingDescriptorPhase, returns_ite]
 split
 · exact returns_pure _
 · next hcnt =>
   have hcnt := Nat.lt_of_not_ge hcnt
   rw [returns_entryAt_bind]
   refine ⟨hcnt, ?_⟩
   simp only [returns_readAt_bind, returns_ite, returns_bind_pure, returns_writeAt, returns_pure]
   refine ⟨by omega, by omega, ?_⟩
   split
   · trivial
   · refine ⟨?_, ?_, ?_, ?_, ?_, ?_, ?_, ?_, ?_, ?_, ?_, ?_, ?_, ?_, hcnt⟩
     all_goals omega

theorem returns_detailedTiming (h : 18 ≤ data.length) :
 Returns (hdmiEdidDetailedTiming data cap) := by
 have hdesc := returns_detailedTimingDescriptor data cap h
 have hmonitor := returns_monitorDescriptor data cap h
 simp only [hdmiEdidDetailedTiming, returns_readAt_bind, returns_ite, hdesc, hmonitor, ite_self,
  and_true]
 refine ⟨by omega, ?_⟩
 split
 · trivial
 · refine ⟨by omega, ?_⟩
   split
   · trivial
   · omega

theorem length_window (pos len : ℕ) : (window data pos len).length = min len (data.length - pos) := by
 rw [window, List.length_take, List.length_drop]

theorem returns_detailedTimingPhase (h : 128 ≤ data.length) :
 Returns (hdmiEdidDetailedTimingPhase data cap) := by
 apply returns_foldlM
 intro c pos hpos
 apply returns_detailedTiming
 rw [length_window, detailedTimingLen]
 simp only [List.mem_cons, List.not_mem_nil, or_false] at hpos
 omega

end Returns

theorem returns_firstBlock (raw : EdidRaw) (cap : HdmiSinkDeviceCapability) :
 Returns (hdmiEdidFirstBlockPhase raw cap) := by
 have hlen := raw.length_eq
 have h128 : 128 ≤ raw.bytes.length := by omega
 rw [hdmiEdidFirstBlockPhase, returns_bind]
 obtain ⟨ret, hret⟩ := returns_blockCheckSum raw.bytes h128
 refine ⟨ret, hret, ?_⟩
 rw [returns_ite]
 split
 · exact returns_pure _
 rw [returns_bind]
 obtain ⟨ret, hret⟩ := returns_headerFrom raw.bytes 0 edidHeader (by rw [hlen]; decide)
 refine ⟨ret, hret, ?_⟩
 rw [returns_ite]
 split
 · exact returns_pure _
 rw [returns_bind]
 obtain ⟨cap, hcap⟩ := returns_vendorInfo raw.bytes cap h128
 refine ⟨cap, hcap, ?_⟩
 simp only [hdmiEdidVersionInfoPhase, hdmiEdidBasicDispPhase, hdmiEdidColorFeaturePhase,
  bind_assoc, pure_bind, returns_readAt_bind]
 refine ⟨by omega, by omega, by omega, by omega, by omega, by omega, by omega, by omega, by omega,
  by omega, by omega, by omega, by omega, by omega, ?_⟩
 rw [returns_bind]
 obtain ⟨cap, hcap⟩ := returns_establisedTiming raw.bytes _ h128
 refine ⟨cap, hcap, ?_⟩
 rw [returns_bind]
 obtain ⟨cap, hcap⟩ := returns_standardTiming raw.bytes cap h128
 refine ⟨cap, hcap, ?_⟩
 rw [returns_bind]
 obtain ⟨cap, hcap⟩ := returns_detailedTimingPhase raw.bytes cap h128
 refine ⟨cap, hcap, ?_⟩
 simp only [hdmiEdidExtBlockNumPhase, bind_assoc, pure_bind, returns_readAt_bind, returns_pure,
  and_true]
 omega

end DriversFramework.HdmiEdid
