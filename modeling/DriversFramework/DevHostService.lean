import DriversFramework.DevSvcManager
import DriversFramework.HdfAttribute

/-! The devices and device nodes of a host, from the launch of a node to its release,
with the calls to the device manager and to the service manager on the way. The
observer of a host keeps nothing that is read here. What drivers and allocations
do is an input. -/
namespace DriversFramework.Devmgr

open ServiceRegistry

inductive DevNodeStatus where
 | devnodeNone
 | inited
 | launched
 deriving DecidableEq

/-- `address` is that of the device object; `service` and `ioService` are what its
fields point to. -/
structure HdfDeviceNode where
 address : ℕ
 devId : ℕ
 permission : ℕ
 policy : ServicePolicy
 servName : List UInt8
 service : Option ℕ
 devStatus : DevNodeStatus
 servStatus : Bool
 ioService : Bool
 deriving DecidableEq

structure HdfDevice where
 deviceId : ℕ
 hostId : ℕ
 devNodes : List HdfDeviceNode
 deriving DecidableEq

structure DevHostService where
 hostId : ℕ
 devices : List HdfDevice
 deriving DecidableEq

/-- The clients of the device manager, the host services by their host ids and the
service manager. -/
structure System where
 hosts : List DevHostServiceClnt
 services : ℕ → DevHostService
 registry : DevSvcManager

def System.setService (s : System) (host : ℕ) (service : DevHostService) : System :=
 { s with services := Function.update s.services host service }

@[simp] theorem System.setService_services (s : System) (host : ℕ) (service : DevHostService) :
 (s.setService host service).services = Function.update s.services host service := rfl

/-- The methods that a driver supplies and what they return; `service` is the one
that the device object carries when it is published. -/
structure HdfDriverEntry where
 bind : Option HdfStatus
 init : Option HdfStatus
 service : Option ℕ
 deriving DecidableEq

/-- What a call of `AddDevice` meets: whether there is a loader, whether a device
can be had, the driver, the address of the node that is created, and whether an
I/O service can be published. -/
structure AddInputs where
 loader : Bool
 device : Bool
 driver : Option HdfDriverEntry
 node : Option ℕ
 ioService : Bool
 deriving DecidableEq

def ofDevid (devid : ℕ) (deviceInfo : HdfDeviceInfo) : Bool := deviceInfo.deviceId = devid

def DevHostServiceClnt.updateStatus (hostClnt : DevHostServiceClnt) (devId : ℕ)
  (status : ServiceStatus) : DevHostServiceClnt :=
 { hostClnt with
   deviceInfos := HdfSList.updateFirst (ofDevid devId) (fun info => { info with status := status })
    hostClnt.deviceInfos }

def DevHostServiceClnt.attachToken (devid : ℕ) (hostClnt : DevHostServiceClnt) :
  DevHostServiceClnt :=
 { hostClnt.updateStatus devid .usable with devices := devid :: hostClnt.devices }

def devmgrServiceAttachDevice (hosts : List DevHostServiceClnt) (devid : ℕ) :
  HdfStatus × List DevHostServiceClnt :=
 match hosts.find? (ofHost (hostid devid)) with
 | none => (.failure, hosts)
 | some _ =>
  (.success, HdfSList.updateFirst (ofHost (hostid devid))
   (DevHostServiceClnt.attachToken devid) hosts)

def DevHostServiceClnt.detachToken (devid : ℕ) (hostClnt : DevHostServiceClnt) :
  DevHostServiceClnt :=
 { hostClnt.updateStatus devid .unusable with devices := hostClnt.devices.erase devid }

def devmgrServiceDetachDevice (hosts : List DevHostServiceClnt) (devid : ℕ) :
  HdfStatus × List DevHostServiceClnt :=
 match hosts.find? (ofHost (hostid devid)) with
 | none => (.failure, hosts)
 | some hostClnt =>
  if devid ∈ hostClnt.devices then
   (.success, HdfSList.updateFirst (ofHost (hostid devid))
    (DevHostServiceClnt.detachToken devid) hosts)
  else (.devErrNoDevice, hosts)

def hdfDeviceNodeNewInstance (deviceInfo : HdfDeviceInfo) (entry : HdfDriverEntry)
  (address : ℕ) : HdfDeviceNode :=
 ⟨address, deviceInfo.deviceId, deviceInfo.permission, deviceInfo.policy, deviceInfo.svcName,
  entry.service, .inited, false, false⟩

def ServicePolicy.published (policy : ServicePolicy) : Bool :=
 policy = .policyPublic || policy = .policyCapacity

def hdfDeviceNodePublishPublicService (s : System) (devNode : HdfDeviceNode) :
  HdfStatus × HdfDeviceNode × System :=
 match devNode.service with
 | none => (.failure, devNode, s)
 | some service =>
  let added := devSvcManagerAddService s.registry devNode.servName
   ⟨devNode.address, some service⟩
  (added.1, { devNode with servStatus := devNode.servStatus || added.1 = .success },
   { s with registry := added.2 })

def deviceNodeExtPublishService (s : System) (ioService : Bool) (devNode : HdfDeviceNode) :
  HdfStatus × HdfDeviceNode × System :=
 if devNode.service = none then (.failure, devNode, s)
 else if devNode.policy = .policyCapacity ∧ ioService = false then
  (.devErrNoDeviceService, devNode, s)
 else
  let opened := { devNode with ioService := devNode.policy = .policyCapacity }
  let base := hdfDeviceNodePublishPublicService s opened
  if base.1 ≠ .success then (base.1, { base.2.1 with ioService := false }, base.2.2) else base

def hdfDeviceNodePublishService (s : System) (ioService : Bool) (devNode : HdfDeviceNode) :
  HdfStatus × HdfDeviceNode × System :=
 if devNode.policy = .policyNone ∨ devNode.servName = [] then (.success, devNode, s)
 else if devNode.policy.published then deviceNodeExtPublishService s ioService devNode
 else (.success, devNode, s)

def hdfDeviceLaunchNode (s : System) (entry : HdfDriverEntry) (ioService : Bool)
  (devNode : HdfDeviceNode) : HdfStatus × HdfDeviceNode × System :=
 match entry.init with
 | none => (.errInvalidParam, devNode, s)
 | some init =>
  let launched := { devNode with devStatus := .launched }
  if devNode.policy.published = true ∧ entry.bind = none then
   (.errInvalidObject, { devNode with devStatus := .devnodeNone }, s)
  else if devNode.policy.published = true ∧ entry.bind ≠ some .success then
   (.devErrDevInitFail, launched, s)
  else if init ≠ .success then (.devErrDevInitFail, launched, s)
  else
   let shown := hdfDeviceNodePublishService s ioService launched
   if shown.1 ≠ .success then (.devErrPublishFail, shown.2)
   else
    let attached := devmgrServiceAttachDevice shown.2.2.hosts shown.2.1.devId
    (if attached.1 ≠ .success then .devErrAttachdevFail else .success, shown.2.1,
     { shown.2.2 with hosts := attached.2 })

def hdfDeviceNodeRemoveService (s : System) (devNode : HdfDeviceNode) : HdfDeviceNode × System :=
 if devNode.servStatus then
  ({ devNode with servStatus := false },
   { s with registry := devSvcManagerRemoveService s.registry devNode.servName })
 else (devNode, s)

def deviceNodeExtRemoveService (s : System) (devNode : HdfDeviceNode) : HdfDeviceNode × System :=
 hdfDeviceNodeRemoveService s
  (if devNode.policy = .policyCapacity then { devNode with ioService := false } else devNode)

def hdfDeviceReleaseNode (s : System) (devNode : HdfDeviceNode) : System :=
 if devNode.servStatus then
  let removed := (hdfDeviceNodeRemoveService s devNode).2
  { removed with hosts := (devmgrServiceDetachDevice removed.hosts devNode.devId).2 }
 else s

def hdfDeviceNodeDestruct (s : System) (devNode : HdfDeviceNode) : System :=
 match devNode.devStatus with
 | .launched => hdfDeviceReleaseNode s devNode
 | .inited => s
 | .devnodeNone => s

def hdfDeviceNodeFreeInstance (s : System) (devNode : HdfDeviceNode) : System :=
 let removed := deviceNodeExtRemoveService s devNode
 hdfDeviceNodeDestruct removed.2 removed.1

def ofDevice (deviceId : ℕ) (device : HdfDevice) : Bool := device.deviceId = deviceId

def ofNode (devId : ℕ) (devNode : HdfDeviceNode) : Bool := devNode.devId = devId

def devHostServiceFindDevice (hostService : DevHostService) (deviceId : ℕ) : Option HdfDevice :=
 hostService.devices.find? (ofDevice deviceId)

def devHostServiceFreeDevice (s : System) (host : ℕ) (device : HdfDevice) : System :=
 let hostService := s.services host
 let removed := s.setService host
  { hostService with devices := hostService.devices.eraseP (ofDevice device.deviceId) }
 device.devNodes.foldl hdfDeviceNodeFreeInstance removed

def devHostServiceQueryOrAddDevice (inst : DevHostService) (deviceId : ℕ) (obtained : Bool) :
  Option (HdfDevice × DevHostService) :=
 match devHostServiceFindDevice inst deviceId with
 | some device => some (device, inst)
 | none =>
  if obtained then
   let device : HdfDevice := ⟨deviceId, inst.hostId, []⟩
   some (device, { inst with devices := device :: inst.devices })
  else none

def hdfDeviceAttach (s : System) (host deviceId : ℕ) (entry : HdfDriverEntry) (ioService : Bool)
  (devNode : HdfDeviceNode) : HdfStatus × HdfDeviceNode × System :=
 let launch := hdfDeviceLaunchNode s entry ioService devNode
 if launch.1 = .success then
  let hostService := launch.2.2.services host
  (.success, launch.2.1, launch.2.2.setService host
   { hostService with
     devices := HdfSList.updateFirst (ofDevice deviceId)
      (fun device => { device with devNodes := device.devNodes ++ [launch.2.1] })
      hostService.devices })
 else launch

def devHostServiceAddDevice (s : System) (host : ℕ) (deviceInfo : HdfDeviceInfo)
  (env : AddInputs) : HdfStatus × System :=
 if env.loader = false then (.failure, s)
 else
  let deviceId := deviceid deviceInfo.deviceId
  match devHostServiceQueryOrAddDevice (s.services host) deviceId env.device with
  | none => (.devErrNoDevice, s)
  | some (device, hostService) =>
   let s := s.setService host hostService
   match env.driver with
   | none => (.devErrNodata, devHostServiceFreeDevice s host device)
   | some entry =>
    match env.node with
    | none => (.devErrNoMemory, devHostServiceFreeDevice s host device)
    | some address =>
     let attach := hdfDeviceAttach s host deviceId entry env.ioService
      (hdfDeviceNodeNewInstance deviceInfo entry address)
     if attach.1 ≠ .success then
      (attach.1, devHostServiceFreeDevice (hdfDeviceNodeFreeInstance attach.2.2 attach.2.1)
       host device)
     else (.success, attach.2.2)

def hdfDeviceDetach (s : System) (host : ℕ) (device : HdfDevice) (devNode : HdfDeviceNode) :
  HdfStatus × System :=
 if device.deviceId ≠ deviceid devNode.devId then (.devErrNoDevice, s)
 else
  let hostService := s.services host
  let removed := s.setService host
   { hostService with
     devices := HdfSList.updateFirst (ofDevice device.deviceId)
      (fun device => { device with devNodes := device.devNodes.eraseP (ofNode devNode.devId) })
      hostService.devices }
  (.success, hdfDeviceNodeFreeInstance removed devNode)

/-- `loader` tells whether there is a driver loader that reclaims drivers. -/
def devHostServiceDelDevice (s : System) (host devId : ℕ) (loader : Bool) : HdfStatus × System :=
 if loader = false then (.failure, s)
 else
  match devHostServiceFindDevice (s.services host) (deviceid devId) with
  | none => (.success, s)
  | some device =>
   match device.devNodes.find? (ofNode devId) with
   | none => (.devErrNoDevice, s)
   | some devNode =>
    let detach := hdfDeviceDetach s host device devNode
    if detach.1 ≠ .success then (.failure, detach.2)
    else
     let left := device.devNodes.eraseP (ofNode devId)
     if left = [] then
      (.success, devHostServiceFreeDevice detach.2 host { device with devNodes := left })
     else (.success, detach.2)

end DriversFramework.Devmgr
