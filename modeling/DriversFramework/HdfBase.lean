import Mathlib.Data.Nat.Notation

namespace DriversFramework

inductive HdfStatus where
 | success
 | failure
 | errNotSupport
 | errInvalidParam
 | errInvalidObject
 | errMallocFail
 | errIo
 | devErrNoMemory
 | devErrNoDevice
 | devErrNoDeviceService
 | devErrDevInitFail
 | devErrPublishFail
 | devErrAttachdevFail
 | devErrNodata
 | devErrNorange
 deriving DecidableEq

end DriversFramework
