import DriversFramework.DevHostService

/-! Installation of a host, loading and unloading by service name, and loading of what
was left for the second step. The loops run over positions: a call of a host
changes the state of entries, not their number or order. -/
namespace DriversFramework.Devmgr

def System.hostClnt (s : System) (host : ℕ) : Option DevHostServiceClnt := s.hosts[host]?

def System.deviceInfo (s : System) (host info : ℕ) : Option HdfDeviceInfo :=
 (s.hostClnt host).bind fun hostClnt => hostClnt.deviceInfos[info]?

def System.setPreload (s : System) (host info : ℕ) (preload : DevicePreload) : System :=
 { s with
   hosts := s.hosts.modify host fun hostClnt =>
    { hostClnt with
      deviceInfos := hostClnt.deviceInfos.modify info fun deviceInfo =>
       { deviceInfo with preload := preload } } }

/-- What a call of a host meets: `AddDevice` its inputs, `DelDevice` a loader. -/
def devmgrServiceActiveDevice (s : System) (host info : ℕ) (isLoad : Bool) (env : AddInputs) :
  HdfStatus × System :=
 match s.hostClnt host, s.deviceInfo host info with
 | some hostClnt, some deviceInfo =>
  if hostClnt.hostService = false then (.failure, s)
  else if isLoad = true ∧ deviceInfo.preload ≠ .enable then
   let added := devHostServiceAddDevice s hostClnt.hostId deviceInfo env
   (added.1, if added.1 = .success then added.2.setPreload host info .enable else added.2)
  else if isLoad = false ∧ deviceInfo.preload ≠ .disable then
   let deleted := devHostServiceDelDevice s hostClnt.hostId deviceInfo.deviceId env.loader
   (.success, deleted.2.setPreload host info .disable)
  else (.failure, s)
 | _, _ => (.failure, s)

def ofSvcName (svcName : List UInt8) (deviceInfo : HdfDeviceInfo) : Bool :=
 deviceInfo.svcName = svcName

def devmgrServiceFindAndActiveDevice (s : System) (svcName : List UInt8) (isLoad : Bool)
  (env : AddInputs) : HdfStatus × System :=
 let host := s.hosts.findIdx (hasInfo (ofSvcName svcName))
 match s.hostClnt host with
 | none => (.failure, s)
 | some hostClnt =>
  devmgrServiceActiveDevice s host (hostClnt.deviceInfos.findIdx (ofSvcName svcName)) isLoad env

def devmgrServiceLoadDevice (s : System) (svcName : List UInt8) (env : AddInputs) :
  HdfStatus × System :=
 devmgrServiceFindAndActiveDevice s svcName true env

def devmgrServiceUnLoadDevice (s : System) (svcName : List UInt8) (env : AddInputs) :
  HdfStatus × System :=
 devmgrServiceFindAndActiveDevice s svcName false env

/-- One turn of the loop over the entries that were left; `env` is given for each
entry by its host and place. -/
def loadLeftStep (env : ℕ × ℕ → AddInputs) (s : System) (place : ℕ × ℕ) : System :=
 match s.deviceInfo place.1 place.2 with
 | none => s
 | some deviceInfo =>
  if deviceInfo.preload = .enableStep2 then
   (devmgrServiceActiveDevice s place.1 place.2 true (env place)).2
  else s

def System.places (s : System) : List (ℕ × ℕ) :=
 s.hosts.zipIdx.flatMap fun hostClnt =>
  (List.range hostClnt.1.deviceInfos.length).map fun info => (hostClnt.2, info)

def devmgrServiceLoadLeftDriver (s : System) (env : ℕ × ℕ → AddInputs) : HdfStatus × System :=
 (.success, s.places.foldl (loadLeftStep env) s)

def installStep (quickLoad : Bool) (host : ℕ) (env : ℕ → AddInputs) (s : System) (info : ℕ) :
  System :=
 match s.hostClnt host, s.deviceInfo host info with
 | some hostClnt, some deviceInfo =>
  if deviceInfo.preload = .disable then s
  else if quickLoad = true ∧ deviceInfo.preload = .enableStep2 then s
  else (devHostServiceAddDevice s hostClnt.hostId deviceInfo (env info)).2
 | _, _ => s

def devHostServiceClntInstallDriver (s : System) (host : ℕ) (quickLoad : Bool)
  (env : ℕ → AddInputs) : HdfStatus × System :=
 match s.hostClnt host with
 | none => (.failure, s)
 | some hostClnt =>
  (.success,
   (List.range hostClnt.deviceInfos.length).foldl (installStep quickLoad host env) s)

def System.obtainDeviceInfos (config : List HostConfig) (s : System) (hostId : ℕ) : System :=
 { s with
   hosts := HdfSList.updateFirst (ofHost hostId) (DevHostServiceClnt.obtainDeviceInfos config)
    s.hosts }

def devmgrServiceAttachDeviceHost (config : List HostConfig) (s : System) (hostId : ℕ)
  (quickLoad : Bool) (env : ℕ → AddInputs) : HdfStatus × System :=
 match s.hosts.find? (ofHost hostId) with
 | none => (.failure, s)
 | some hostClnt =>
  let obtained := s.obtainDeviceInfos config hostId
  if hdfAttributeManagerGetDeviceList config hostClnt.hostId hostClnt.hostName = none then
   (.success, obtained)
  else
   devHostServiceClntInstallDriver obtained (s.hosts.findIdx (ofHost hostId)) quickLoad env

/-- The calls of the device manager with what the calls of hosts in them meet. -/
inductive DevmgrCall where
 | attachDeviceHost (hostId : ℕ) (quickLoad : Bool) (env : ℕ → AddInputs)
 | loadDevice (svcName : List UInt8) (env : AddInputs)
 | unLoadDevice (svcName : List UInt8) (env : AddInputs)
 | loadLeftDriver (env : ℕ × ℕ → AddInputs)

def devmgrStep (config : List HostConfig) (s : System) : DevmgrCall → Option System
 | .attachDeviceHost hostId quickLoad env =>
  some (devmgrServiceAttachDeviceHost config s hostId quickLoad env).2
 | .loadDevice svcName env => some (devmgrServiceLoadDevice s svcName env).2
 | .unLoadDevice svcName env => some (devmgrServiceUnLoadDevice s svcName env).2
 | .loadLeftDriver env => some (devmgrServiceLoadLeftDriver s env).2

/-- The hosts are started and have no device. -/
def System.start (config : List HostConfig) (started : HdfHostInfo → Bool) : System where
 hosts := devmgrServiceStartDeviceHosts config started
 services := fun hostId => ⟨hostId, []⟩
 registry := ServiceRegistry.devSvcManagerConstruct

/-- One host with one device that has one node with a public service. -/
def oneNodeHost : List HostConfig :=
 [⟨some [97], some 50, [[⟨some 1, some 100, some 0, some 0, some [109], some [115], some []⟩]]⟩]

/-- The driver works and carries a service. -/
def workingDriver : AddInputs :=
 ⟨true, true, some ⟨some .success, some .success, some 5⟩, some 7, true⟩

end DriversFramework.Devmgr
