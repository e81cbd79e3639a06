import Mathlib.Algebra.Group.Nat.Defs
import Mathlib.Data.List.Nodup
import DriversFramework.HdfBase
import DriversFramework.HdfUtils

/-! The device lists read from the configuration, and the entries added to them and
removed from them later. Allocations succeed; the private data of USB devices is
left out. -/
namespace DriversFramework.Devmgr

def mkDevid (hostId deviceId devnodeId : ℕ) : ℕ :=
 hostId <<< 24 ||| deviceId <<< 8 ||| devnodeId

def hostid (devid : ℕ) : ℕ := devid >>> 24

def deviceid (devid : ℕ) : ℕ := devid >>> 8 &&& (2 ^ 16 - 1)

inductive ServicePolicy where
 | policyNone
 | policyPublic
 | policyCapacity
 | policyFriendly
 | policyPrivate
 | policyInvalid
 deriving DecidableEq

def ServicePolicy.ofNum : ℕ → ServicePolicy
 | 0 => .policyNone
 | 1 => .policyPublic
 | 2 => .policyCapacity
 | 3 => .policyFriendly
 | 4 => .policyPrivate
 | _ => .policyInvalid

inductive DevicePreload where
 | enable
 | enableStep2
 | disable
 | invalid
 deriving DecidableEq

def DevicePreload.ofNum : ℕ → DevicePreload
 | 0 => .enable
 | 1 => .enableStep2
 | 2 => .disable
 | _ => .invalid

inductive ServiceStatus where
 | unusable
 | usable
 deriving DecidableEq

/-- What the getters return for the attributes of a device node; `none` where
one fails. -/
structure DeviceNodeConfig where
 policy : Option ℕ
 priority : Option ℕ
 preload : Option ℕ
 permission : Option ℕ
 moduleName : Option (List UInt8)
 svcName : Option (List UInt8)
 deviceMatchAttr : Option (List UInt8)
 deriving DecidableEq

structure HostConfig where
 hostName : Option (List UInt8)
 priority : Option ℕ
 devices : List (List DeviceNodeConfig)
 deriving DecidableEq

structure HdfHostInfo where
 hostId : ℕ
 priority : ℕ
 hostName : List UInt8
 deriving DecidableEq

structure HdfDeviceInfo where
 isDynamic : Bool
 status : ServiceStatus
 hostId : ℕ
 deviceId : ℕ
 policy : ServicePolicy
 priority : ℕ
 preload : DevicePreload
 permission : ℕ
 moduleName : List UInt8
 svcName : List UInt8
 deviceMatchAttr : List UInt8
 deriving DecidableEq

def maxPriorityNum : ℕ := 200

def getHostInfo (hostNode : HostConfig) : Option HdfHostInfo := do
 let hostName ← hostNode.hostName
 if hostName = [] then none
 else
  let priority ← hostNode.priority
  if priority > maxPriorityNum then none else some ⟨0, priority, hostName⟩

def getHostList : ℕ → List HostConfig → List HdfHostInfo → List HdfHostInfo
 | _, [], hostList => hostList
 | hostId, hostNode :: rest, hostList =>
  match getHostInfo hostNode with
  | none => getHostList hostId rest hostList
  | some hostInfo =>
   getHostList ((hostId + 1) % 2 ^ 16) rest
    (HdfSList.addOrder (fun first second => first.priority ≤ second.priority) hostList
     { hostInfo with hostId := hostId })

def hdfAttributeManagerGetHostList (config : List HostConfig) : List HdfHostInfo :=
 getHostList 0 config []

def checkDeviceInfo (deviceNodeInfo : HdfDeviceInfo) : Bool :=
 deviceNodeInfo.policy ≠ .policyInvalid && deviceNodeInfo.priority ≤ maxPriorityNum &&
  deviceNodeInfo.preload ≠ .invalid && deviceNodeInfo.moduleName ≠ []

def getDeviceNodeInfo (hostId : ℕ) (deviceNode : DeviceNodeConfig) : Option HdfDeviceInfo := do
 let policy ← deviceNode.policy
 let priority ← deviceNode.priority
 let preload ← deviceNode.preload
 let permission ← deviceNode.permission
 let moduleName ← deviceNode.moduleName
 let svcName ← deviceNode.svcName
 let deviceMatchAttr ← deviceNode.deviceMatchAttr
 let deviceNodeInfo : HdfDeviceInfo :=
  ⟨false, .unusable, hostId, 0, .ofNum policy, priority, .ofNum preload, permission, moduleName,
   svcName, deviceMatchAttr⟩
 if checkDeviceInfo deviceNodeInfo then some deviceNodeInfo else none

def getHostNode (config : List HostConfig) (inHostName : List UInt8) : Option HostConfig :=
 config.find? fun hostNode => hostNode.hostName = some inHostName

def addDeviceNodes (hostId deviceIdx : ℕ) :
  List DeviceNodeConfig → List HdfDeviceInfo → List HdfDeviceInfo
 | [], deviceList => deviceList
 | deviceNode :: rest, deviceList =>
  let deviceNnodeIdx := 0
  match getDeviceNodeInfo hostId deviceNode with
  | none => addDeviceNodes hostId deviceIdx rest deviceList
  | some deviceNodeInfo =>
   addDeviceNodes hostId deviceIdx rest
    (HdfSList.addOrder (fun first second => first.priority ≤ second.priority) deviceList
     { deviceNodeInfo with deviceId := mkDevid hostId deviceIdx deviceNnodeIdx % 2 ^ 16 })

def addDevices (hostId : ℕ) :
  ℕ → List (List DeviceNodeConfig) → List HdfDeviceInfo → List HdfDeviceInfo
 | _, [], deviceList => deviceList
 | deviceIdx, device :: rest, deviceList =>
  addDevices hostId ((deviceIdx + 1) % 2 ^ 16) rest
   (addDeviceNodes hostId deviceIdx device deviceList)

def hdfAttributeManagerGetDeviceList (config : List HostConfig) (hostId : ℕ)
  (hostName : List UInt8) : Option (List HdfDeviceInfo) :=
 match getHostNode config hostName with
 | none => none
 | some hostNode =>
  let deviceList := addDevices hostId 0 hostNode.devices []
  if deviceList = [] then none else some deviceList

/-- `deviceInfos` is empty before a list is there; `devices` are the device ids of
the tokens. -/
structure DevHostServiceClnt where
 hostId : ℕ
 hostName : List UInt8
 devCount : ℕ
 deviceInfos : List HdfDeviceInfo
 devices : List ℕ
 /-- Whether a host service is attached. -/
 hostService : Bool
 deriving DecidableEq

def devHostServiceClntNewInstance (hostAttr : HdfHostInfo) : DevHostServiceClnt :=
 ⟨hostAttr.hostId, hostAttr.hostName, 0, [], [], false⟩

/-- `started` tells for which hosts the installer succeeds. -/
def devmgrServiceStartDeviceHosts (config : List HostConfig) (started : HdfHostInfo → Bool) :
  List DevHostServiceClnt :=
 ((hdfAttributeManagerGetHostList config).filter started).map devHostServiceClntNewInstance

def DevHostServiceClnt.obtainDeviceInfos (config : List HostConfig)
  (hostClnt : DevHostServiceClnt) : DevHostServiceClnt :=
 match hdfAttributeManagerGetDeviceList config hostClnt.hostId hostClnt.hostName with
 | none => { hostClnt with hostService := true, deviceInfos := [] }
 | some deviceInfos =>
  { hostClnt with
    hostService := true
    deviceInfos := deviceInfos
    devCount := deviceInfos.length % 2 ^ 16 }

def ofHost (hostId : ℕ) (hostClnt : DevHostServiceClnt) : Bool := hostClnt.hostId = hostId

def ofModule (moduleName : List UInt8) (deviceInfo : HdfDeviceInfo) : Bool :=
 deviceInfo.moduleName = moduleName

def ofService (moduleName serviceName : List UInt8) (deviceInfo : HdfDeviceInfo) : Bool :=
 deviceInfo.moduleName = moduleName && deviceInfo.svcName = serviceName

def hasInfo (serves : HdfDeviceInfo → Bool) (hostClnt : DevHostServiceClnt) : Bool :=
 hostClnt.deviceInfos.any serves

def DevHostServiceClnt.addDeviceInfo (moduleName serviceName : List UInt8)
  (hostClnt : DevHostServiceClnt) : DevHostServiceClnt :=
 match hostClnt.deviceInfos.find? (ofModule moduleName) with
 | none => hostClnt
 | some deviceInfo =>
  { hostClnt with
    deviceInfos :=
     { isDynamic := false, status := .unusable, hostId := deviceInfo.hostId,
       deviceId := hostClnt.devCount, policy := deviceInfo.policy,
       priority := deviceInfo.priority, preload := .disable,
       permission := deviceInfo.permission, moduleName := deviceInfo.moduleName,
       svcName := serviceName, deviceMatchAttr := deviceInfo.deviceMatchAttr } ::
     HdfSList.updateFirst (ofModule moduleName) (fun info => { info with isDynamic := true })
      hostClnt.deviceInfos
    devCount := (hostClnt.devCount + 1) % 2 ^ 16 }

def hdfDeviceListAdd (hosts : List DevHostServiceClnt) (moduleName serviceName : List UInt8) :
  Bool × List DevHostServiceClnt :=
 match hosts.find? (hasInfo (ofModule moduleName)) with
 | none => (false, hosts)
 | some _ =>
  (true, HdfSList.updateFirst (hasInfo (ofModule moduleName))
   (DevHostServiceClnt.addDeviceInfo moduleName serviceName) hosts)

def DevHostServiceClnt.delDeviceInfo (moduleName serviceName : List UInt8)
  (hostClnt : DevHostServiceClnt) : DevHostServiceClnt :=
 { hostClnt with
   deviceInfos := hostClnt.deviceInfos.eraseP (ofService moduleName serviceName)
   devCount := (hostClnt.devCount + (2 ^ 16 - 1)) % 2 ^ 16 }

def hdfDeviceListDel (hosts : List DevHostServiceClnt) (moduleName serviceName : List UInt8) :
  List DevHostServiceClnt :=
 HdfSList.updateFirst (hasInfo (ofService moduleName serviceName))
  (DevHostServiceClnt.delDeviceInfo moduleName serviceName) hosts

end DriversFramework.Devmgr
