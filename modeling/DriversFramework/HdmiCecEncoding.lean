import DriversFramework.HdmiCecMsg

/-! Every `HdmiCecEncoding*` and `HdmiCdcEncoding*` of `hdmi_cec.c`. Where a parameter is a union,
the structure has all alternatives, of which the encoding reads the one that its tag names. A buffer
that is handed over is a memory with a length. -/
namespace DriversFramework.HdmiCec

def word (n : UInt16) : List UInt8 := [(n >>> 8).toUInt8, (n &&& 0xff).toUInt8]

def threeBytes (n : UInt32) : List UInt8 :=
 [((n >>> 16) &&& 0xff).toUInt8, ((n >>> 8) &&& 0xff).toUInt8, (n &&& 0xff).toUInt8]

def bcdFormatTime (time : UInt8) : UInt8 := ((time / 10) <<< 4) ||| (time % 10)

def orByte (msg : HdmiCecMsg) (i : ℕ) (b : UInt8) : HdmiCecMsg :=
 msg.setByte i (msg.data.getD i 0 ||| b)

def directedMsg (len : ℕ) (opcode : UInt8) (operands : List UInt8) (msg : HdmiCecMsg) :
  HdmiCecMsg :=
 ((msg.setLen len).setByte 1 opcode).setBytes 2 operands

def broadcastMsg (len : ℕ) (opcode : UInt8) (operands : List UInt8) (msg : HdmiCecMsg) :
  HdmiCecMsg :=
 ((orByte (msg.setLen len) 0 unregisteredOrBroadcast).setByte 1 opcode).setBytes 2 operands

def cdcMsg (len : ℕ) (initiatorPhyAddr : UInt16) (opcode : UInt8) (operands : List UInt8)
  (msg : HdmiCecMsg) : HdmiCecMsg :=
 broadcastMsg len Opcode.cdcMessage (word initiatorPhyAddr ++ opcode :: operands) msg

def hdmiCecEncodingActiveSourceMsg (phyAddr : UInt16) (msg : HdmiCecMsg) : HdmiCecMsg :=
 broadcastMsg (getMsgLen 2) Opcode.activeSource (word phyAddr) msg

def hdmiCecEncodingImageViewOnMsg (msg : HdmiCecMsg) : HdmiCecMsg :=
 directedMsg (getMsgLen 0) Opcode.imageViewOn [] msg

def hdmiCecEncodingTextViewOnMsg (msg : HdmiCecMsg) : HdmiCecMsg :=
 directedMsg (getMsgLen 0) Opcode.textViewOn [] msg

def hdmiCecEncodingInactiveSourceMsg (phyAddr : UInt16) (msg : HdmiCecMsg) : HdmiCecMsg :=
 directedMsg (getMsgLen 2) Opcode.inactiveSource (word phyAddr) msg

def hdmiCecEncodingRequestActiveSourceMsg (response : Bool) (msg : HdmiCecMsg) : HdmiCecMsg :=
 (broadcastMsg (getMsgLen 0) Opcode.requestActiveSource [] msg).setRsp response Opcode.activeSource

def hdmiCecEncodingRoutingChangeMsg (orgAddr newAddr : UInt16) (response : Bool)
  (msg : HdmiCecMsg) : HdmiCecMsg :=
 (broadcastMsg (getMsgLen 4) Opcode.routingChange (word orgAddr ++ word newAddr) msg).setRsp
  response Opcode.routingInformation

def hdmiCecEncodingRoutingInfomationMsg (phyAddr : UInt16) (msg : HdmiCecMsg) : HdmiCecMsg :=
 broadcastMsg (getMsgLen 2) Opcode.routingInformation (word phyAddr) msg

def hdmiCecEncodingSetStreamPathMsg (phyAddr : UInt16) (msg : HdmiCecMsg) : HdmiCecMsg :=
 broadcastMsg (getMsgLen 2) Opcode.setStreamPath (word phyAddr) msg

def hdmiCecEncodingStandbyMsg (msg : HdmiCecMsg) : HdmiCecMsg :=
 directedMsg (getMsgLen 0) Opcode.standby [] msg

def hdmiCecEncodingRecordOffMsg (response : Bool) (msg : HdmiCecMsg) : HdmiCecMsg :=
 (directedMsg (getMsgLen 0) Opcode.recordOff [] msg).setRsp response Opcode.recordStatus

/-- With the fields of the alternatives of `systemData`; an ARIB and a DVB service have the same. -/
structure HdmiCecDigitalServiceId where
 method : UInt8
 system : UInt8
 transportId : UInt16
 serviceId : UInt16
 orgNetworkId : UInt16
 programNumber : UInt16
 format : UInt8
 major : UInt16
 minor : UInt16

def channelBytes (format : UInt8) (major minor : UInt16) : List UInt8 :=
 [(format <<< 2) ||| (major >>> 8).toUInt8, (major &&& 0xff).toUInt8] ++ word minor

def aribSystems : List UInt8 := [0x00, 0x08, 0x09, 0x0A]
def atscSystems : List UInt8 := [0x01, 0x10, 0x11, 0x12]
def dvbSystems : List UInt8 := [0x02, 0x18, 0x19, 0x1A, 0x1B]

/-- `HdmiCecEncodingDigitalServiceId` with its data at `data[base]` -/
def hdmiCecEncodingDigitalServiceId (base len : ℕ) (digital : HdmiCecDigitalServiceId)
  (msg : HdmiCecMsg) : HdmiCecMsg :=
 if len < 7 then msg
 else
  let msg := msg.setByte base ((digital.method <<< 7) ||| digital.system)
  if digital.method = 1 then
   msg.setBytes (base + 1) (channelBytes digital.format digital.major digital.minor)
  else if digital.system ∈ aribSystems then
   msg.setBytes (base + 1)
    (word digital.transportId ++ word digital.serviceId ++ word digital.orgNetworkId)
  else if digital.system ∈ atscSystems then
   msg.setBytes (base + 1) (word digital.transportId ++ word digital.programNumber)
  else if digital.system ∈ dvbSystems then
   msg.setBytes (base + 1)
    (word digital.transportId ++ word digital.serviceId ++ word digital.orgNetworkId)
  else msg

structure AnalogService where
 anaBcastType : UInt8
 anaFreq : UInt16
 bcstSystem : UInt8

def AnalogService.bytes (analog : AnalogService) : List UInt8 :=
 analog.anaBcastType :: word analog.anaFreq ++ [analog.bcstSystem]

structure HdmiCecRecordSource where
 type : UInt8
 id : HdmiCecDigitalServiceId
 analog : AnalogService
 extPlug : UInt8
 extPhyAddr : UInt16

def hdmiCecEncodingRecordOnOwn (msg : HdmiCecMsg) : HdmiCecMsg :=
 directedMsg (getMsgLen 1) Opcode.recordOn [1] msg

def hdmiCecEncodingRecordOnDigital (digital : HdmiCecDigitalServiceId) (msg : HdmiCecMsg) :
  HdmiCecMsg :=
 hdmiCecEncodingDigitalServiceId 3 7 digital
  (directedMsg (getMsgLen (1 + 7)) Opcode.recordOn [2] msg)

def hdmiCecEncodingRecordOnAnalog (analog : AnalogService) (msg : HdmiCecMsg) : HdmiCecMsg :=
 directedMsg (getMsgLen (1 + 1 + 2 + 1)) Opcode.recordOn (3 :: analog.bytes) msg

def hdmiCecEncodingRecordOnExtPlug (extPlug : UInt8) (msg : HdmiCecMsg) : HdmiCecMsg :=
 directedMsg (getMsgLen (1 + 1)) Opcode.recordOn [4, extPlug] msg

def hdmiCecEncodingRecordOnExtPhyAddr (extPhyAddr : UInt16) (msg : HdmiCecMsg) : HdmiCecMsg :=
 directedMsg (getMsgLen (1 + 2)) Opcode.recordOn (5 :: word extPhyAddr) msg

def hdmiCecEncodingRecordOnMsg (src : HdmiCecRecordSource) (response : Bool)
  (msg : HdmiCecMsg) : HdmiCecMsg :=
 let msg :=
  if src.type = 1 then hdmiCecEncodingRecordOnOwn msg
  else if src.type = 2 then hdmiCecEncodingRecordOnDigital src.id msg
  else if src.type = 3 then hdmiCecEncodingRecordOnAnalog src.analog msg
  else if src.type = 4 then hdmiCecEncodingRecordOnExtPlug src.extPlug msg
  else if src.type = 5 then hdmiCecEncodingRecordOnExtPhyAddr src.extPhyAddr msg
  else msg
 msg.setRsp response Opcode.recordStatus

def hdmiCecEncodingRecordStatusMsg (recordStatusInfo : UInt8) (msg : HdmiCecMsg) : HdmiCecMsg :=
 directedMsg (getMsgLen 1) Opcode.recordStatus [recordStatusInfo] msg

def hdmiCecEncodingRecordTvScreenMsg (response : Bool) (msg : HdmiCecMsg) : HdmiCecMsg :=
 (directedMsg (getMsgLen 0) Opcode.recordTvScreen [] msg).setRsp response Opcode.recordOn

structure HdmiCecCommTimerInfo where
 data : UInt8
 month : UInt8
 startHour : UInt8
 startMinute : UInt8
 durationHour : UInt8
 durationMinute : UInt8
 recordingSeq : UInt8

def hdmiCecEncodingCommTimerInfo (len : ℕ) (info : HdmiCecCommTimerInfo) (msg : HdmiCecMsg) :
  HdmiCecMsg :=
 if len < 7 then msg
 else
  msg.setBytes 2 [info.data, info.month, bcdFormatTime info.startHour,
   bcdFormatTime info.startMinute, bcdFormatTime info.durationHour,
   bcdFormatTime info.durationMinute, info.recordingSeq]

structure HdmiCecAnalogueTimerInfo where
 commInfo : HdmiCecCommTimerInfo
 analog : AnalogService

structure HdmiCecDigitalTimerInfo where
 commInfo : HdmiCecCommTimerInfo
 id : HdmiCecDigitalServiceId

structure HdmiCecExternalTimerInfo where
 commInfo : HdmiCecCommTimerInfo
 extSrcSpec : UInt8
 extPlug : UInt8
 extPhyAddr : UInt16

def hdmiCecEncodingAnalogueTimerInfo (len : ℕ) (info : HdmiCecAnalogueTimerInfo)
  (msg : HdmiCecMsg) : HdmiCecMsg :=
 if len < 11 then msg
 else (hdmiCecEncodingCommTimerInfo 7 info.commInfo msg).setBytes (2 + 7) info.analog.bytes

def hdmiCecEncodingDigitalTimerInfo (len : ℕ) (info : HdmiCecDigitalTimerInfo)
  (msg : HdmiCecMsg) : HdmiCecMsg :=
 if len < 14 then msg
 else
  hdmiCecEncodingDigitalServiceId (2 + 7) (len - 7) info.id
   (hdmiCecEncodingCommTimerInfo 7 info.commInfo msg)

def hdmiCecEncodingExternalTimerInfo (len : ℕ) (info : HdmiCecExternalTimerInfo)
  (msg : HdmiCecMsg) : HdmiCecMsg :=
 if len < 11 then msg
 else
  (hdmiCecEncodingCommTimerInfo 7 info.commInfo msg).setBytes (2 + 7)
   (info.extSrcSpec :: info.extPlug :: word info.extPhyAddr)

def hdmiCecEncodingClearAnalogueTimerMsg (info : HdmiCecAnalogueTimerInfo) (response : Bool)
  (msg : HdmiCecMsg) : HdmiCecMsg :=
 (hdmiCecEncodingAnalogueTimerInfo 11 info
  (directedMsg (getMsgLen 11) Opcode.clearAnalogueTimer [] msg)).setRsp response
  Opcode.timerClearedStatus

def hdmiCecEncodingClearDigitalTimerMsg (info : HdmiCecDigitalTimerInfo) (response : Bool)
  (msg : HdmiCecMsg) : HdmiCecMsg :=
 (hdmiCecEncodingDigitalTimerInfo 14 info
  (directedMsg (getMsgLen 14) Opcode.clearDigitalTimer [] msg)).setRsp response
  Opcode.timerClearedStatus

def hdmiCecEncodingClearExternalTimerMsg (info : HdmiCecExternalTimerInfo) (response : Bool)
  (msg : HdmiCecMsg) : HdmiCecMsg :=
 (hdmiCecEncodingExternalTimerInfo 11 info
  (directedMsg (getMsgLen 11) Opcode.clearExternalTimer [] msg)).setRsp response
  Opcode.timerClearedStatus

def hdmiCecEncodingSetAnalogueTimerMsg (info : HdmiCecAnalogueTimerInfo) (response : Bool)
  (msg : HdmiCecMsg) : HdmiCecMsg :=
 (hdmiCecEncodingAnalogueTimerInfo 11 info
  (directedMsg (getMsgLen 11) Opcode.setAnalogueTimer [] msg)).setRsp response Opcode.timerStatus

def hdmiCecEncodingSetDigitalTimerMsg (info : HdmiCecDigitalTimerInfo) (response : Bool)
  (msg : HdmiCecMsg) : HdmiCecMsg :=
 (hdmiCecEncodingDigitalTimerInfo 14 info
  (directedMsg (getMsgLen 14) Opcode.setDigitalTimer [] msg)).setRsp response Opcode.timerStatus

def hdmiCecEncodingSetExternalTimerMsg (info : HdmiCecExternalTimerInfo) (response : Bool)
  (msg : HdmiCecMsg) : HdmiCecMsg :=
 (hdmiCecEncodingExternalTimerInfo 11 info
  (directedMsg (getMsgLen 11) Opcode.setExternalTimer [] msg)).setRsp response Opcode.timerStatus

/-- The encodings of data of a given length, which is cut to `most`. They do nothing for no data;
`lead` has the operands before the data. -/
def dataMsg (most : ℕ) (opcode : UInt8) (lead : List UInt8) (data : ℕ → UInt8) (len : ℕ)
  (msg : HdmiCecMsg) : HdmiCecMsg :=
 if len = 0 then msg
 else
  let length := if most < len then most else len
  let msg := directedMsg (getMsgLen (lead.length + length)) opcode lead msg
  msg.copy (2 + lead.length) (msg.len - (2 + lead.length)) data length

def hdmiCecEncodingSetTimerProgramTitleMsg (title : ℕ → UInt8) (len : ℕ) (msg : HdmiCecMsg) :
  HdmiCecMsg :=
 dataMsg 14 Opcode.setTimerProgramTitle [] title len msg

def hdmiCecEncodingTimerClearedStatusMsg (status : UInt8) (msg : HdmiCecMsg) : HdmiCecMsg :=
 directedMsg (getMsgLen 1) Opcode.timerClearedStatus [status] msg

structure HdmiCecTimerStatusData where
 timerOverlap : UInt8
 mediaInfo : UInt8
 indicator : UInt8
 info : UInt8
 durationHour : UInt8
 durationMinute : UInt8

def HdmiCecTimerStatusData.duration (status : HdmiCecTimerStatusData) : Bool :=
 if 0 < status.indicator then status.info == 0x09 || status.info == 0x0b
 else status.info == 0x0e

def hdmiCecEncodingTimerStatusMsg (status : HdmiCecTimerStatusData) (msg : HdmiCecMsg) :
  HdmiCecMsg :=
 let msg := directedMsg (getMsgLen 1) Opcode.timerStatus [] msg
 let msg := orByte msg 2 (status.timerOverlap <<< 7)
 let msg := orByte msg 2 (status.mediaInfo <<< 5)
 let msg := orByte msg 2 (status.indicator <<< 4)
 let msg := orByte msg 2 status.info
 if status.duration then
  (msg.setLen (getMsgLen 3)).setBytes 3
   [bcdFormatTime status.durationHour, bcdFormatTime status.durationMinute]
 else msg

def hdmiCecEncodingCecVersionMsg (version : UInt8) (msg : HdmiCecMsg) : HdmiCecMsg :=
 directedMsg (getMsgLen 1) Opcode.cecVersion [version] msg

def hdmiCecEncodingGetCecVersionMsg (response : Bool) (msg : HdmiCecMsg) : HdmiCecMsg :=
 (directedMsg (getMsgLen 0) Opcode.getCecVersion [] msg).setRsp response Opcode.cecVersion

def hdmiCecEncodingGetPhyAddressMsg (response : Bool) (msg : HdmiCecMsg) : HdmiCecMsg :=
 (directedMsg (getMsgLen 0) Opcode.givePhysicalAddress [] msg).setRsp response
  Opcode.reportPhysicalAddress

def hdmiCecEncodingGetMenuLanguageMsg (response : Bool) (msg : HdmiCecMsg) : HdmiCecMsg :=
 (directedMsg (getMsgLen 0) Opcode.getMenuLanguage [] msg).setRsp response Opcode.setMenuLanguage

def hdmiCecEncodingReportPhyAddressMsg (phyAddr : UInt16) (deviceType : UInt8)
  (msg : HdmiCecMsg) : HdmiCecMsg :=
 broadcastMsg (getMsgLen 3) Opcode.reportPhysicalAddress (word phyAddr ++ [deviceType]) msg

def hdmiCecEncodingSetMenuLanguageMsg (language : ℕ → UInt8) (len : ℕ) (msg : HdmiCecMsg) :
  HdmiCecMsg :=
 if len ≠ 3 then msg
 else
  let msg := broadcastMsg (getMsgLen len) Opcode.setMenuLanguage [] msg
  msg.copy 2 (msg.len - 2) language len

structure HdmiCecInfo where
 logAddr : UInt8
 logAddrMask : UInt16
 primaryDeviceType : UInt8
 cecVersion : UInt8
 phyAddr : UInt16
 vendorId : UInt32
 osdName : Vector UInt8 15
 osdNameLen : UInt8
 allDeviceType : UInt8
 rcProfile : Vector UInt8 6
 devFeatures : Vector UInt8 6
 isWaitingResponse : Bool := false
 response : UInt8 := 0
 deriving DecidableEq

/-- The loops of `HdmiCecEncodingReportFeaturesMsg`: bytes up to the first without an extension -/
def fillExtended (msg : HdmiCecMsg) : List UInt8 → HdmiCecMsg
 | [] => msg
 | b :: bs =>
  let msg := (msg.setByte msg.len b).setLen (msg.len + 1)
  if b &&& 0x80 = 0 then msg else fillExtended msg bs

def hdmiCecEncodingReportFeaturesMsg (info : HdmiCecInfo) (msg : HdmiCecMsg) : HdmiCecMsg :=
 let msg := broadcastMsg (getMsgLen 0) Opcode.reportFeatures [] msg
 let msg := (msg.setByte 2 info.cecVersion).setLen (msg.len + 1)
 let msg := (msg.setByte 3 info.allDeviceType).setLen (msg.len + 1)
 fillExtended (fillExtended msg info.rcProfile.toList) info.devFeatures.toList

def hdmiCecEncodingGiveFeaturesMsg (response : Bool) (msg : HdmiCecMsg) : HdmiCecMsg :=
 (directedMsg (getMsgLen 0) Opcode.giveFeatures [] msg).setRsp response Opcode.setMenuLanguage

def hdmiCecEncodingDeckControlMsg (mode : UInt8) (msg : HdmiCecMsg) : HdmiCecMsg :=
 directedMsg (getMsgLen 1) Opcode.deckControl [mode] msg

def hdmiCecEncodingDeckStatusMsg (info : UInt8) (msg : HdmiCecMsg) : HdmiCecMsg :=
 directedMsg (getMsgLen 1) Opcode.deckStatus [info] msg

def hdmiCecEncodingGiveDeckStatusMsg (statusReq : UInt8) (response : Bool)
  (msg : HdmiCecMsg) : HdmiCecMsg :=
 (directedMsg (getMsgLen 1) Opcode.giveDeckStatus [statusReq] msg).setRsp response
  Opcode.deckStatus

def hdmiCecEncodingPlayMsg (playMode : UInt8) (msg : HdmiCecMsg) : HdmiCecMsg :=
 directedMsg (getMsgLen 1) Opcode.play [playMode] msg

def hdmiCecEncodingGiveTunerDeviceStatusMsg (statusReq : UInt8) (response : Bool)
  (msg : HdmiCecMsg) : HdmiCecMsg :=
 (directedMsg (getMsgLen 1) Opcode.giveTunerDeviceStatus [statusReq] msg).setRsp response
  Opcode.tunerDeviceStatus

def hdmiCecEncodingSelectAnalogueServiceMsg (analog : AnalogService) (msg : HdmiCecMsg) :
  HdmiCecMsg :=
 directedMsg (getMsgLen 4) Opcode.selectAnalogueService analog.bytes msg

def hdmiCecEncodingSelectDigitalServiceMsg (digital : HdmiCecDigitalServiceId)
  (msg : HdmiCecMsg) : HdmiCecMsg :=
 hdmiCecEncodingDigitalServiceId 2 7 digital
  (directedMsg (getMsgLen 7) Opcode.selectDigitalService [] msg)

structure HdmiCecTunerDeviceInfo where
 recordingFlag : UInt8
 dispInfo : UInt8
 isAnalogService : Bool
 digital : HdmiCecDigitalServiceId
 analog : AnalogService

def hdmiCecEncodingTunerDeviceStatusMsg (info : HdmiCecTunerDeviceInfo) (msg : HdmiCecMsg) :
  HdmiCecMsg :=
 let operand := (info.recordingFlag <<< 7) ||| info.dispInfo
 if info.isAnalogService then
  directedMsg (getMsgLen 5) Opcode.tunerDeviceStatus (operand :: info.analog.bytes) msg
 else
  hdmiCecEncodingDigitalServiceId 3 7 info.digital
   (directedMsg (getMsgLen 8) Opcode.tunerDeviceStatus [operand] msg)

def hdmiCecEncodingTunerStepDecrementMsg (msg : HdmiCecMsg) : HdmiCecMsg :=
 directedMsg (getMsgLen 0) Opcode.tunerStepDecrement [] msg

def hdmiCecEncodingTunerStepIncrementMsg (msg : HdmiCecMsg) : HdmiCecMsg :=
 directedMsg (getMsgLen 0) Opcode.tunerStepIncrement [] msg

def hdmiCecEncodingDeviceVendorIdMsg (devVendorId : UInt32) (msg : HdmiCecMsg) : HdmiCecMsg :=
 directedMsg (getMsgLen 3) Opcode.deviceVendorId (threeBytes devVendorId) msg

def hdmiCecEncodingGiveDeviceVendorIdMsg (response : Bool) (msg : HdmiCecMsg) : HdmiCecMsg :=
 (directedMsg (getMsgLen 0) Opcode.giveDeviceVendorId [] msg).setRsp response Opcode.deviceVendorId

def hdmiCecEncodingVendorCommandMsg (data : ℕ → UInt8) (len : ℕ) (msg : HdmiCecMsg) : HdmiCecMsg :=
 dataMsg 14 Opcode.vendorCommand [] data len msg

def hdmiCecEncodingVendorCommandWithIdMsg (vendorId : UInt32) (data : ℕ → UInt8) (len : ℕ)
  (msg : HdmiCecMsg) : HdmiCecMsg :=
 dataMsg 11 Opcode.vendorCommandWithId (threeBytes vendorId) data len msg

def hdmiCecEncodingVendorRemoteButtonDownMsg (rcCode : ℕ → UInt8) (len : ℕ) (msg : HdmiCecMsg) :
  HdmiCecMsg :=
 dataMsg 14 Opcode.vendorRemoteButtonDown [] rcCode len msg

def hdmiCecEncodingVendorRemoteButtonUpMsg (msg : HdmiCecMsg) : HdmiCecMsg :=
 directedMsg (getMsgLen 0) Opcode.vendorRemoteButtonUp [] msg

def hdmiCecEncodingSetOsdStringMsg (dispControl : UInt8) (str : ℕ → UInt8) (len : ℕ)
  (msg : HdmiCecMsg) : HdmiCecMsg :=
 dataMsg 13 Opcode.setOsdString [dispControl] str len msg

def hdmiCecEncodingGiveOsdNameMsg (response : Bool) (msg : HdmiCecMsg) : HdmiCecMsg :=
 (directedMsg (getMsgLen 0) Opcode.giveOsdName [] msg).setRsp response Opcode.setOsdName

def hdmiCecEncodingSetOsdNameMsg (name : ℕ → UInt8) (len : ℕ) (msg : HdmiCecMsg) : HdmiCecMsg :=
 dataMsg 14 Opcode.setOsdName [] name len msg

def hdmiCecEncodingMenuRequestMsg (menuReq : UInt8) (response : Bool)
  (msg : HdmiCecMsg) : HdmiCecMsg :=
 (directedMsg (getMsgLen 1) Opcode.menuRequest [menuReq] msg).setRsp response Opcode.menuStatus

def hdmiCecEncodingMenuStatusMsg (menuStatus : UInt8) (msg : HdmiCecMsg) : HdmiCecMsg :=
 directedMsg (getMsgLen 1) Opcode.menuStatus [menuStatus] msg

structure HdmiCecUiCmd where
 cmdType : UInt8
 hasAddOp : Bool
 uiBroadcastType : UInt8
 format : UInt8
 major : UInt16
 minor : UInt16

def oneByteUiCmds : List UInt8 := [0x56, 0x57, 0x60, 0x68, 0x69, 0x6a]

/-- `HdmiCecEncodingUserControlPrtessedMsg`; 0x67 is the tune function. -/
def hdmiCecEncodingUserControlPrtessedMsg (cmd : HdmiCecUiCmd) (msg : HdmiCecMsg) : HdmiCecMsg :=
 let msg := directedMsg (getMsgLen 1) Opcode.userControlPressed [cmd.cmdType] msg
 if cmd.hasAddOp = false then msg
 else if cmd.cmdType ∈ oneByteUiCmds then
  (msg.setLen (msg.len + 1)).setByte 3 cmd.uiBroadcastType
 else if cmd.cmdType = 0x67 then
  (msg.setLen (msg.len + 4)).setBytes 3 (channelBytes cmd.format cmd.major cmd.minor)
 else msg

def hdmiCecEncodingUserControlReleasedMsg (msg : HdmiCecMsg) : HdmiCecMsg :=
 directedMsg (getMsgLen 0) Opcode.userControlReleased [] msg

def hdmiCecEncodingGiveDevicePowerStatusMsg (response : Bool) (msg : HdmiCecMsg) : HdmiCecMsg :=
 (directedMsg (getMsgLen 0) Opcode.giveDevicePowerStatus [] msg).setRsp response
  Opcode.reportPowerStatus

def hdmiCecEncodingReportDevicePowerStatusMsg (powerStatus : UInt8)
  (msg : HdmiCecMsg) : HdmiCecMsg :=
 directedMsg (getMsgLen 1) Opcode.reportPowerStatus [powerStatus] msg

def hdmiCecEncodingFeatureAbortMsg (opcode reason : UInt8) (msg : HdmiCecMsg) : HdmiCecMsg :=
 directedMsg (getMsgLen 2) Opcode.featureAbort [opcode, reason] msg

def hdmiCecEncodingAbortMsg (msg : HdmiCecMsg) : HdmiCecMsg :=
 directedMsg (getMsgLen 0) Opcode.abort [] msg

def hdmiCecEncodingGiveAudioStatusMsg (response : Bool) (msg : HdmiCecMsg) : HdmiCecMsg :=
 (directedMsg (getMsgLen 0) Opcode.giveAudioStatus [] msg).setRsp response Opcode.reportAudioStatus

def hdmiCecEncodingGiveSystemAudioModeMsg (response : Bool) (msg : HdmiCecMsg) : HdmiCecMsg :=
 (directedMsg (getMsgLen 0) Opcode.giveSystemAudioModeStatus [] msg).setRsp response
  Opcode.systemAudioModeStatus

def hdmiCecEncodingReportAudioStatusMsg (audioMuteStatus audioVolumeStatus : UInt8)
  (msg : HdmiCecMsg) : HdmiCecMsg :=
 directedMsg (getMsgLen 1) Opcode.reportAudioStatus
  [(audioMuteStatus <<< 7) ||| (audioVolumeStatus &&& 0x7f)] msg

def hdmiCecEncodingRequestShortAudioDescriptorMsg (id code : ℕ → UInt8) (len : ℕ)
  (response : Bool) (msg : HdmiCecMsg) : HdmiCecMsg :=
 if len = 0 then msg
 else
  let num := if 4 < len then 4 else len
  (directedMsg (getMsgLen (num * 1)) Opcode.requestShortAudioDescriptor
   ((List.range num).map fun i => (id i <<< 6) ||| (code i &&& 0x3f)) msg).setRsp response
   Opcode.reportShortAudioDescriptor

def hdmiCecEncodingReportShortAudioDescriptorMsg (descriptor : ℕ → UInt32) (len : ℕ)
  (msg : HdmiCecMsg) : HdmiCecMsg :=
 if len = 0 then msg
 else
  let num := if 4 < len then 4 else len
  directedMsg (getMsgLen (3 * num)) Opcode.reportShortAudioDescriptor
   ((List.range num).flatMap fun i => threeBytes (descriptor i)) msg

def hdmiCecEncodingSetSystemAudioModeMsg (status : UInt8) (msg : HdmiCecMsg) : HdmiCecMsg :=
 directedMsg (getMsgLen 1) Opcode.setSystemAudioMode [status] msg

def hdmiCecEncodingSystemAudioModeRequestMsg (phyAddr : UInt16) (response : Bool)
  (msg : HdmiCecMsg) : HdmiCecMsg :=
 (directedMsg (getMsgLen 2) Opcode.systemAudioModeRequest (word phyAddr) msg).setRsp response
  Opcode.setSystemAudioMode

def hdmiCecEncodingSystemAudioModeStatusMsg (status : UInt8) (msg : HdmiCecMsg) : HdmiCecMsg :=
 directedMsg (getMsgLen 1) Opcode.systemAudioModeStatus [status] msg

def hdmiCecEncodingSetAudioRateMsg (rate : UInt8) (msg : HdmiCecMsg) : HdmiCecMsg :=
 directedMsg (getMsgLen 1) Opcode.setAudioRate [rate] msg

def hdmiCecEncodingInitiateArcMsg (response : Bool) (msg : HdmiCecMsg) : HdmiCecMsg :=
 (directedMsg (getMsgLen 0) Opcode.initiateArc [] msg).setRsp response Opcode.reportArcInitiated

def hdmiCecEncodingReportArcInitiatedMsg (msg : HdmiCecMsg) : HdmiCecMsg :=
 directedMsg (getMsgLen 0) Opcode.reportArcInitiated [] msg

def hdmiCecEncodingReportArcTerminationMsg (msg : HdmiCecMsg) : HdmiCecMsg :=
 directedMsg (getMsgLen 0) Opcode.reportArcTermination [] msg

def hdmiCecEncodingRequestArcInitiationMsg (response : Bool) (msg : HdmiCecMsg) : HdmiCecMsg :=
 (directedMsg (getMsgLen 0) Opcode.requestArcInitiation [] msg).setRsp response Opcode.initiateArc

def hdmiCecEncodingRequestArcTerminationMsg (response : Bool) (msg : HdmiCecMsg) : HdmiCecMsg :=
 (directedMsg (getMsgLen 0) Opcode.requestArcTermination [] msg).setRsp response
  Opcode.terminateArc

def hdmiCecEncodingTerminateArcMsg (response : Bool) (msg : HdmiCecMsg) : HdmiCecMsg :=
 (directedMsg (getMsgLen 0) Opcode.terminateArc [] msg).setRsp response Opcode.reportArcTermination

def hdmiCecEncodingRequestCurrentLatencyMsg (phyAddr : UInt16) (response : Bool)
  (msg : HdmiCecMsg) : HdmiCecMsg :=
 (broadcastMsg (getMsgLen 2) Opcode.requestCurrentLatency (word phyAddr) msg).setRsp response
  Opcode.reportCurrentLatency

structure HdmiCecLatencyInfo where
 videoLatency : UInt8
 lowLatencyMode : UInt8
 audioOutputCompensated : UInt8
 audioOutputDelay : UInt8

def hdmiCecEncodingReportCurrentLatencyMsg (phyAddr : UInt16) (info : HdmiCecLatencyInfo)
  (msg : HdmiCecMsg) : HdmiCecMsg :=
 let msg := broadcastMsg (getMsgLen 4) Opcode.reportCurrentLatency (word phyAddr ++
  [info.videoLatency, (info.lowLatencyMode <<< 2) ||| info.audioOutputCompensated]) msg
 if info.audioOutputCompensated = 3 then
  (msg.setLen (msg.len + 1)).setByte 6 info.audioOutputDelay
 else msg

namespace CdcOpcode

abbrev hecInquireState : UInt8 := 0x00
abbrev hecReportState : UInt8 := 0x01
abbrev hecSetStateAdjacent : UInt8 := 0x02
abbrev hecSetState : UInt8 := 0x03
abbrev hecRequestDeactivation : UInt8 := 0x04
abbrev hecNotifyAlive : UInt8 := 0x05
abbrev hecDiscover : UInt8 := 0x06
abbrev hpdSetState : UInt8 := 0x10
abbrev hpdReportState : UInt8 := 0x11

end CdcOpcode

def hdmiCdcEncodingHecInquireStateMsg (initiatorPhyAddr phyAddr1 phyAddr2 : UInt16)
  (response : Bool) (msg : HdmiCecMsg) : HdmiCecMsg :=
 (cdcMsg (getCdcMsgLen 4) initiatorPhyAddr CdcOpcode.hecInquireState
  (word phyAddr1 ++ word phyAddr2) msg).setRsp response CdcOpcode.hecReportState

structure HdmiCdcHecState where
 hecFuncState : UInt8
 hostFuncState : UInt8
 encFuncState : UInt8
 cdcErrCode : UInt8
 haveHecField : Bool
 hecField : UInt16

def hdmiCdcEncodingHecReportStateMsg (initiatorPhyAddr phyAddr : UInt16)
  (state : HdmiCdcHecState) (msg : HdmiCecMsg) : HdmiCecMsg :=
 let msg := cdcMsg (getCdcMsgLen 3) initiatorPhyAddr CdcOpcode.hecReportState (word phyAddr ++
  [(state.hecFuncState <<< 6) ||| (state.hostFuncState <<< 4) ||| (state.encFuncState <<< 2) |||
   state.cdcErrCode]) msg
 if state.haveHecField then (msg.setLen (getCdcMsgLen 5)).setBytes 8 (word state.hecField)
 else msg

def hdmiCdcEncodingHecSetStateAdjacentMsg (initiatorPhyAddr phyAddr : UInt16)
  (hecSetState : UInt8) (response : Bool) (msg : HdmiCecMsg) : HdmiCecMsg :=
 (cdcMsg (getCdcMsgLen 3) initiatorPhyAddr CdcOpcode.hecSetStateAdjacent
  (word phyAddr ++ [hecSetState]) msg).setRsp response CdcOpcode.hecReportState

structure HemiCdcHecStateInfo where
 phyAddr1 : UInt16
 phyAddr2 : UInt16
 hecSetState : UInt8
 phyAddr : Vector UInt16 3
 phyAddrLen : ℕ

/-- `msg->data[msg->len] = …` with the length increased, for every byte -/
def appendBytes (msg : HdmiCecMsg) : List UInt8 → HdmiCecMsg
 | [] => msg
 | b :: bs => appendBytes ((msg.setByte msg.len b).setLen (msg.len + 1)) bs

/-- The loop of `HdmiCdcEncodingHecSetStateMsg` ends at an invalid address. -/
def hdmiCdcEncodingHecSetStateMsg (initiatorPhyAddr : UInt16) (info : HemiCdcHecStateInfo)
  (response : Bool) (msg : HdmiCecMsg) : HdmiCecMsg :=
 let msg := cdcMsg (getCdcMsgLen 5) initiatorPhyAddr CdcOpcode.hecSetState
  (word info.phyAddr1 ++ word info.phyAddr2 ++ [info.hecSetState]) msg
 let addrs := (info.phyAddr.toList.take info.phyAddrLen).takeWhile fun addr => addr != 0xffff
 (appendBytes msg (addrs.flatMap word)).setRsp response CdcOpcode.hecReportState

def hdmiCdcEncodingHecRequestDeactivationMsg (initiatorPhyAddr : UInt16) (phyAddr : List UInt16)
  (response : Bool) (msg : HdmiCecMsg) : HdmiCecMsg :=
 if phyAddr.length ≠ 3 then msg
 else
  let msg := cdcMsg (getCdcMsgLen 0) initiatorPhyAddr CdcOpcode.hecRequestDeactivation [] msg
  (appendBytes msg (phyAddr.flatMap word)).setRsp response CdcOpcode.hecReportState

def hdmiCdcEncodingHecNotifyAliveMsg (initiatorPhyAddr : UInt16) (msg : HdmiCecMsg) :
  HdmiCecMsg :=
 cdcMsg (getCdcMsgLen 0) initiatorPhyAddr CdcOpcode.hecNotifyAlive [] msg

def hdmiCdcEncodingHecDiscoverMsg (initiatorPhyAddr : UInt16) (response : Bool)
  (msg : HdmiCecMsg) : HdmiCecMsg :=
 (cdcMsg (getCdcMsgLen 0) initiatorPhyAddr CdcOpcode.hecDiscover [] msg).setRsp response
  CdcOpcode.hecReportState

def hdmiCdcEncodingHpdSetStateMsg (initiatorPhyAddr : UInt16) (portNum hpdState : UInt8)
  (response : Bool) (msg : HdmiCecMsg) : HdmiCecMsg :=
 (cdcMsg (getCdcMsgLen 1) initiatorPhyAddr CdcOpcode.hpdSetState
  [(portNum <<< 4) ||| hpdState] msg).setRsp response CdcOpcode.hpdReportState

def hdmiCdcEncodingHpdReportStateMsg (initiatorPhyAddr : UInt16) (hpdState errCode : UInt8)
  (msg : HdmiCecMsg) : HdmiCecMsg :=
 cdcMsg (getCdcMsgLen 1) initiatorPhyAddr CdcOpcode.hpdReportState
  [(hpdState <<< 4) ||| errCode] msg

end DriversFramework.HdmiCec
