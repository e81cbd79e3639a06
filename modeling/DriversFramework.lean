import DriversFramework.AudioCaptureRing
import DriversFramework.AudioSapmRoutes
import DriversFramework.AudioSapmSleep
import DriversFramework.DevicePreload
import DriversFramework.DeviceTokens
import DriversFramework.DmacChannels
import DriversFramework.DmacLli
import DriversFramework.FlowControl
import DriversFramework.FlowControlQueues
import DriversFramework.GpioIrq
import DriversFramework.GpioManager
import DriversFramework.HcAstClean
import DriversFramework.HcAstConform
import DriversFramework.HcAstIncludes
import DriversFramework.HcAstPrecedence
import DriversFramework.HcLexerComment
import DriversFramework.HcLexerSigned
import DriversFramework.HcTextIdentifiers
import DriversFramework.HcsMatchAttr
import DriversFramework.HcsTreeMemory
import DriversFramework.HdfMapRefines
import DriversFramework.HdiImportRuns
import DriversFramework.HdiLexerPlain
import DriversFramework.HdiProxyStub
import DriversFramework.HdiStringBuilder
import DriversFramework.HdmiCecAddresses
import DriversFramework.HdmiEdidAudio
import DriversFramework.HdmiEdidBounds
import DriversFramework.HdmiEdidY420
import DriversFramework.HdmiFrlOutput
import DriversFramework.HdmiInfoFrameFields
import DriversFramework.HdmiNcts
import DriversFramework.HidInfoCache
import DriversFramework.I2cTransfers
import DriversFramework.I3cAddrTable
import DriversFramework.I3cIbi
import DriversFramework.InputFrames
import DriversFramework.InputRegistry
import DriversFramework.MessageRouter
import DriversFramework.MmcDecoders
import DriversFramework.MmcErase
import DriversFramework.MtdPages
import DriversFramework.OsalMsgQueue
import DriversFramework.PlatformManager
import DriversFramework.PlatformQueue
import DriversFramework.PowerNotify
import DriversFramework.PowerStateRuns
import DriversFramework.RegulatorAcyclic
import DriversFramework.RegulatorFailures
import DriversFramework.RegulatorLists
import DriversFramework.SbufOperations
import DriversFramework.SdioIrq
import DriversFramework.SdioTransferRight
import DriversFramework.SdioTuples
import DriversFramework.ServiceRelease
import DriversFramework.SyscallFailures
import DriversFramework.SyscallPollFds
import DriversFramework.UsbPnpInstances
import DriversFramework.UsbPnpMatchRuns
import DriversFramework.VNodeAdapterQueue
import DriversFramework.VNodeEvents
import DriversFramework.VibratorRuns
import DriversFramework.WlanInterfaces
import DriversFramework.WlanPriorityQueue
