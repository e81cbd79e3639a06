import Mathlib.Algebra.Group.Nat.Defs
import DriversFramework.HdfBase
import DriversFramework.RunRules

/-! `RegisterInputDevice` and `UnregisterInputDevice` (`hdf_input_device_manager.c`) and the HID
calls over them (`hdf_hid_adapter.c`). A device is named by its place in memory. What
`HdfRegisterDevice` and `HdfSBufObtain` answer is an input of each registration. -/
namespace DriversFramework.Input

open RunRules

def maxInputDevNum : ℕ := 32

def inputdevFirstId : ℕ := 1

def placeholderLimit : ℕ := 10

def indevTypeTouch : ℕ := 0
def indevTypeKey : ℕ := 1
def indevTypeCrown : ℕ := 3
def indevTypeHidBeginPos : ℕ := 33
def indevTypeEncoder : ℕ := 34
def indevTypeMouse : ℕ := 35
def indevTypeKeyboard : ℕ := 36
def indevTypeRocker : ℕ := 37
def indevTypeTrackball : ℕ := 38
def indevTypeUnknown : ℕ := 39

structure InputDevice where
 devId : ℕ
 devType : ℕ
 pkgNum : ℕ
 pkgBuf : Option ℕ
 eventBuf : Option ℕ
 freed : Bool
 deriving DecidableEq

/-- `inputDevList` holds the devices in the order in which the `next` fields link them. -/
structure InputManager where
 devCount : ℕ
 inputDevList : List ℕ
 deriving DecidableEq

/-- The manager, the memory of the devices, the buffers that are not recycled, and the services
that are registered for devices. -/
structure InputState where
 manager : Option InputManager
 cachedHid : List ℕ
 devices : ℕ → InputDevice
 nextDev : ℕ
 buffers : List ℕ
 nextBuf : ℕ
 nodes : List String

structure Grants where
 node : Bool
 pkgBuf : Bool
 eventBuf : Bool
 deriving DecidableEq

def isHidDevice (devType : ℕ) : Bool :=
 decide (devType > indevTypeHidBeginPos ∧ devType < indevTypeUnknown)

/-- `snprintf_s` is given room for one digit below `PLACEHOLDER_LIMIT` and for two from there on;
a longer name fails. -/
def svcName (devId : ℕ) : Option String :=
 if devId < placeholderLimit * placeholderLimit then some ("hdf_input_event" ++ toString devId)
 else none

namespace InputState

def setDevice (s : InputState) (dev : ℕ) (d : InputDevice) : InputState :=
 { s with devices := Function.update s.devices dev d }

def hidRegisterHdfDevice (s : InputState) (dev : ℕ) (granted : Bool) : Bool × InputState :=
 match svcName (s.devices dev).devId with
 | none => (false, s)
 | some name => if granted then (true, { s with nodes := name :: s.nodes }) else (false, s)

def createDeviceNode (s : InputState) (dev : ℕ) (granted : Bool) : HdfStatus × InputState :=
 if isHidDevice (s.devices dev).devType then
  match s.hidRegisterHdfDevice dev granted with
  | (false, t) => (.devErrNoDevice, t)
  | (true, t) => (.success, t)
 else (.success, s)

def deleteDeviceNode (s : InputState) (dev : ℕ) : InputState :=
 if isHidDevice (s.devices dev).devType then
  match svcName (s.devices dev).devId with
  | none => s
  | some name => { s with nodes := s.nodes.erase name }
 else s

def hdfSBufObtain (s : InputState) (granted : Bool) : Option ℕ × InputState :=
 if granted then
  (some s.nextBuf, { s with buffers := s.nextBuf :: s.buffers, nextBuf := s.nextBuf + 1 })
 else (none, s)

def hdfSBufRecycle (s : InputState) : Option ℕ → InputState
 | none => s
 | some buf => { s with buffers := s.buffers.erase buf }

end InputState

def defaultPkgNum (devType : ℕ) : Option ℕ :=
 if devType = indevTypeTouch then some 50
 else if devType = indevTypeKey then some 10
 else if devType = indevTypeMouse then some 30
 else if devType = indevTypeKeyboard then some 20
 else if devType = indevTypeCrown then some 20
 else if devType = indevTypeEncoder then some 20
 else if devType = indevTypeRocker then some 40
 else if devType = indevTypeTrackball then some 30
 else none

namespace InputState

def allocPackageBuffer (s : InputState) (dev : ℕ) (grants : Grants) : HdfStatus × InputState :=
 match defaultPkgNum (s.devices dev).devType with
 | none => (.failure, s)
 | some pkgNum =>
  let (pkgBuf, s) := s.hdfSBufObtain grants.pkgBuf
  let s := s.setDevice dev { s.devices dev with pkgBuf := pkgBuf }
  if pkgBuf = none then (.errMallocFail, s) else
   let (eventBuf, s) := s.hdfSBufObtain grants.eventBuf
   let s := s.setDevice dev { s.devices dev with eventBuf := eventBuf }
   if eventBuf = none then (.errMallocFail, s) else
    (.success, s.setDevice dev { s.devices dev with pkgNum := pkgNum })

/-- The first number whose place in `idList` no listed device has filled. -/
def allocDeviceId (s : InputState) (list : List ℕ) : Option ℕ :=
 (List.range' inputdevFirstId maxInputDevNum).find? fun id =>
  decide (∀ d ∈ list, (s.devices d).devId ≠ id)

def addInputDevice (m : InputManager) (dev : ℕ) : InputManager :=
 ⟨m.devCount + 1, m.inputDevList.takeWhile (fun d => decide (d ≠ dev)) ++ [dev]⟩

def checkInputDevice (s : InputState) (m : InputManager) (dev : ℕ) : Bool :=
 m.inputDevList.any fun d => (s.devices d).devId == (s.devices dev).devId

def deleteInputDevice (s : InputState) (m : InputManager) (dev : ℕ) : HdfStatus × InputManager :=
 if s.checkInputDevice m dev then
  (.success, ⟨m.devCount - 1,
   m.inputDevList.eraseP fun d => (s.devices d).devId == (s.devices dev).devId⟩)
 else (.failure, m)

def registerInputDevice (s : InputState) (dev : ℕ) (grants : Grants) : HdfStatus × InputState :=
 match s.manager with
 | none => (.failure, s)
 | some m =>
  match s.allocDeviceId m.inputDevList with
  | none => (.failure, s)
  | some id =>
   let s := s.setDevice dev { s.devices dev with devId := id }
   let (ret, s) := s.createDeviceNode dev grants.node
   if ret ≠ .success then (ret, s.deleteDeviceNode dev) else
    let (ret, s) := s.allocPackageBuffer dev grants
    if ret ≠ .success then (ret, s.deleteDeviceNode dev) else
     (.success, { s with manager := some (addInputDevice m dev) })

def unregisterInputDevice (s : InputState) (dev : ℕ) : InputState :=
 match s.manager with
 | none => s
 | some m =>
  if s.checkInputDevice m dev then
   let s := s.deleteDeviceNode dev
   let s := s.hdfSBufRecycle (s.devices dev).pkgBuf
   let s := s.setDevice dev { s.devices dev with pkgBuf := none }
   let (ret, m) := s.deleteInputDevice m dev
   if ret ≠ .success then s else
    let s := { s with manager := some m }
    let s := s.hdfSBufRecycle (s.devices dev).eventBuf
    s.setDevice dev { s.devices dev with eventBuf := none, freed := true }
  else s

def construct (s : InputState) (devType : ℕ) : ℕ × InputState :=
 (s.nextDev, { s.setDevice s.nextDev ⟨0, devType, 0, none, none, false⟩ with
  nextDev := s.nextDev + 1 })

def doRegisterInputDev (s : InputState) (dev : ℕ) (grants : Grants) : InputState :=
 let (ret, s) := s.registerInputDevice dev grants
 if ret ≠ .success then s.setDevice dev { s.devices dev with freed := true } else s

def cacheHid (s : InputState) (dev : ℕ) : InputState :=
 if s.cachedHid.length < maxInputDevNum then { s with cachedHid := s.cachedHid ++ [dev] } else s

/-- `HidRegisterHdfInputDev`: the device that is returned beside the state. -/
def hidRegisterHdfInputDev (s : InputState) (devType : ℕ) (grants : Grants) : ℕ × InputState :=
 let (dev, s) := s.construct devType
 (dev, if s.manager.isSome then s.doRegisterInputDev dev grants else s.cacheHid dev)

def hidUnregisterHdfInputDev (s : InputState) (dev : ℕ) : InputState :=
 s.unregisterInputDevice dev

def listed (s : InputState) : List ℕ :=
 match s.manager with
 | none => []
 | some m => m.inputDevList

def Valid (s : InputState) (dev : ℕ) : Prop :=
 dev < s.nextDev ∧ (s.devices dev).freed = false

instance instDecidableValid (s : InputState) (dev : ℕ) : Decidable (s.Valid dev) :=
 inferInstanceAs (Decidable (_ ∧ _))

end InputState

/-- The calls that reach the registry: the manager starts, a driver sets a device up, devices are
registered and unregistered. -/
inductive InputCall where
 | managerInit
 | construct (devType : ℕ)
 | register (dev : ℕ) (grants : Grants)
 | unregister (dev : ℕ)
 | hidRegister (devType : ℕ) (grants : Grants)
 | hidUnregister (dev : ℕ)


namespace InputState

/-- A call with a pointer that is not valid has no defined effect, and the manager starts once. -/
def step (s : InputState) : InputCall → Option InputState
 | .managerInit => if s.manager = none then some { s with manager := some ⟨0, []⟩ } else none
 | .construct devType => some (s.construct devType).2
 | .register dev grants => if s.Valid dev then some (s.registerInputDevice dev grants).2 else none
 | .unregister dev => if s.Valid dev then some (s.unregisterInputDevice dev) else none
 | .hidRegister devType grants => some (s.hidRegisterHdfInputDev devType grants).2
 | .hidUnregister dev => if s.Valid dev then some (s.hidUnregisterHdfInputDev dev) else none

/-- Before any call: no manager and no device. -/
def start : InputState := ⟨none, [], fun _ => ⟨0, 0, 0, none, none, true⟩, 0, [], 0, []⟩

end InputState

end DriversFramework.Input
