import Mathlib.Data.Int.Notation
import DriversFramework.HdfBase

/-! The list of driver instances in `usb_ddk_pnp_loader.c` and the calls to the device manager that
go with it. Which rows of the match table fit an event comes with the event, as do the answers of
the device manager and of the allocators; beside the list the model keeps what is registered and
what was unregistered so far. -/
namespace DriversFramework.UsbPnp

inductive UsbPnpDriverStatus where
 | normal
 | add
 | remove
 deriving DecidableEq

structure UsbDevice where
 usbDevAddr : ℕ
 devNum : ℤ
 busNum : ℤ
 deriving DecidableEq

structure DriverInstance where
 moduleName : String
 serviceName : String
 deviceMatchAttr : String
 usbDevAddr : ℕ
 devNum : ℤ
 busNum : ℤ
 deriving DecidableEq

def DriverInstance.device (k : DriverInstance) : UsbDevice := ⟨k.usbDevAddr, k.devNum, k.busNum⟩

/-- The interfaces are the first `interfaceLength` of the array. -/
structure UsbPnpMatchIdTable where
 moduleName : String
 serviceName : String
 deviceMatchAttr : String
 interfaceNumber : List ℕ
 deriving DecidableEq

structure UsbPnpDeviceListTable extends DriverInstance where
 status : UsbPnpDriverStatus
 interfaceNumber : List ℕ
 deriving DecidableEq

inductive AddCmd where
 | addInterface
 | reportInterface
 | addDevice
 deriving DecidableEq

inductive RemoveCmd where
 | removeInterface
 | removeDevice
 deriving DecidableEq

def removeInterfaceNum : ℕ := 1

structure UsbPnpRemoveInfo extends UsbDevice where
 removeType : ℕ
 interfaceNum : ℕ
 deriving DecidableEq

structure AddGrants where
 pnpData : Bool
 registered : Bool
 entry : Bool
 deriving DecidableEq

structure RemoveGrants where
 pnpData : Bool
 unregistered : Bool
 deriving DecidableEq

structure Registrations where
 registered : List DriverInstance
 unregistered : List DriverInstance
 deriving DecidableEq

structure PnpLoader where
 deviceList : List UsbPnpDeviceListTable
 manager : Registrations
 deriving DecidableEq

def Registrations.register (m : Registrations) (k : DriverInstance) : Registrations :=
 { m with registered := k :: m.registered }

def Registrations.unregister (m : Registrations) (k : DriverInstance) : Registrations :=
 ⟨m.registered.erase k, m.unregistered ++ [k]⟩

def instanceOf (info : UsbDevice) (idTable : UsbPnpMatchIdTable) : DriverInstance :=
 ⟨idTable.moduleName, idTable.serviceName, idTable.deviceMatchAttr, info.usbDevAddr, info.devNum,
  info.busNum⟩

def sameName (info : UsbDevice) (idTable : UsbPnpMatchIdTable) (e : UsbPnpDeviceListTable) : Bool :=
 decide (e.moduleName = idTable.moduleName ∧ e.serviceName = idTable.serviceName ∧
  e.deviceMatchAttr = idTable.deviceMatchAttr ∧ e.usbDevAddr = info.usbDevAddr)

/-- `UsbDdkPnpLoaderAddInterface`: the place of the entry that is returned, and the list. The
numbers of an entry on the way are assigned, and the value of an assignment is the number. -/
def addInterface (info : UsbDevice) (idTable : UsbPnpMatchIdTable) :
  List UsbPnpDeviceListTable → Option ℕ × List UsbPnpDeviceListTable
 | [] => (none, [])
 | e :: rest =>
  let next (e : UsbPnpDeviceListTable) : Option ℕ × List UsbPnpDeviceListTable :=
   let (pos, rest) := addInterface info idTable rest
   (pos.map (· + 1), e :: rest)
  if sameName info idTable e then
   let e := { e with devNum := info.devNum }
   if info.devNum ≠ 0 then
    let e := { e with busNum := info.busNum }
    if info.busNum ≠ 0 then (some 0, e :: rest) else next e
   else next e
  else next e

namespace PnpLoader

/-- `UsbDdkPnpLoaderDeviceListAdd`, when its memory is found. -/
def deviceListAdd (s : PnpLoader) (info : UsbDevice) (idTable : UsbPnpMatchIdTable) : PnpLoader :=
 { s with deviceList :=
   s.deviceList ++ [⟨instanceOf info idTable, .add, idTable.interfaceNumber⟩] }

def addPnpDevice (s : PnpLoader) (cmdId : AddCmd) (info : UsbDevice) (idTable : UsbPnpMatchIdTable)
  (grants : AddGrants) : HdfStatus × PnpLoader :=
 let (pos, deviceList) := addInterface info idTable s.deviceList
 let s := { s with deviceList := deviceList }
 if ((pos.bind (deviceList[·]?)).any fun e => decide (e.status ≠ .remove)) then (.success, s)
 else if grants.pnpData = false then (.failure, s)
 else if grants.registered = false then (.failure, s)
 else
  let s := { s with manager := s.manager.register (instanceOf info idTable) }
  if cmdId = .addInterface then
   match pos with
   | none => (.errInvalidObject, s)
   | some i =>
    (.success,
     { s with deviceList := s.deviceList.modify i fun e => { e with status := .add } })
  else if grants.entry then (.success, s.deviceListAdd info idTable)
  else (.errMallocFail, s)

end PnpLoader

def removeHandle (grants : RemoveGrants) (e : UsbPnpDeviceListTable) (m : Registrations) :
  HdfStatus × UsbPnpDeviceListTable × Registrations :=
 if grants.pnpData = false then (.failure, e, m)
 else if e.status ≠ .remove then
  if grants.unregistered = false then (.failure, e, m)
  else (.success, { e with status := .remove }, m.unregister e.toDriverInstance)
 else (.success, e, m)

def selected (info : UsbPnpRemoveInfo) (e : UsbPnpDeviceListTable) : Bool :=
 decide (e.usbDevAddr = info.usbDevAddr ∧
  (info.removeType = removeInterfaceNum → info.interfaceNum ∈ e.interfaceNumber))

/-- The walk of `UsbDdkPnpLoaderRemoveDevice`, left at the first entry whose removal fails. The
answers are counted by the place on the list. -/
def removeLoop (cmdId : RemoveCmd) (info : UsbPnpRemoveInfo) :
  List UsbPnpDeviceListTable → (ℕ → RemoveGrants) → Registrations →
   HdfStatus × List UsbPnpDeviceListTable × Registrations
 | [], _, m => (.success, [], m)
 | e :: rest, grants, m =>
  if selected info e then
   match removeHandle (grants 0) e m with
   | (.success, e, m) =>
    let (ret, rest, m) := removeLoop cmdId info rest (fun i => grants (i + 1)) m
    (ret, if cmdId = .removeInterface then e :: rest else rest, m)
   | (ret, e, m) => (ret, e :: rest, m)
  else
   let (ret, rest, m) := removeLoop cmdId info rest (fun i => grants (i + 1)) m
   (ret, e :: rest, m)

namespace PnpLoader

def removeDevice (s : PnpLoader) (cmdId : RemoveCmd) (info : UsbPnpRemoveInfo)
  (grants : ℕ → RemoveGrants) : HdfStatus × PnpLoader :=
 if s.deviceList = [] then (.success, s)
 else
  let (ret, deviceList, manager) := removeLoop cmdId info s.deviceList grants s.manager
  (if s.deviceList.any (selected info) then ret else .failure, ⟨deviceList, manager⟩)

end PnpLoader

/-- An event with the rows of the match table that fit, in the order in which they are found. -/
inductive PnpEvent where
 | device (cmdId : AddCmd) (info : UsbDevice) (matched : List (UsbPnpMatchIdTable × AddGrants))
 | remove (cmdId : RemoveCmd) (info : UsbPnpRemoveInfo) (grants : ℕ → RemoveGrants)

inductive PnpCall where
 | add (cmdId : AddCmd) (info : UsbDevice) (idTable : UsbPnpMatchIdTable) (grants : AddGrants)
 | remove (cmdId : RemoveCmd) (info : UsbPnpRemoveInfo) (grants : ℕ → RemoveGrants)

def PnpEvent.calls : PnpEvent → List PnpCall
 | .device cmdId info matched => matched.map fun fit => .add cmdId info fit.1 fit.2
 | .remove cmdId info grants => [.remove cmdId info grants]

namespace PnpLoader

/-- `UsbDdkPnpLoaderDevice`: a row that fails is passed over. -/
def loaderDevice (s : PnpLoader) (cmdId : AddCmd) (info : UsbDevice)
  (matched : List (UsbPnpMatchIdTable × AddGrants)) : HdfStatus × PnpLoader :=
 (.success, matched.foldl (fun s fit => (s.addPnpDevice cmdId info fit.1 fit.2).2) s)

def eventReceived (s : PnpLoader) : PnpEvent → HdfStatus × PnpLoader
 | .device cmdId info matched => s.loaderDevice cmdId info matched
 | .remove cmdId info grants => s.removeDevice cmdId info grants

def act (s : PnpLoader) : PnpCall → PnpLoader
 | .add cmdId info idTable grants => (s.addPnpDevice cmdId info idTable grants).2
 | .remove cmdId info grants => (s.removeDevice cmdId info grants).2

def start : PnpLoader := ⟨[], ⟨[], []⟩⟩

end PnpLoader

end DriversFramework.UsbPnp
