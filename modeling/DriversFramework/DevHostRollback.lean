import DriversFramework.DevHostService

/-! A node is freed without a call to the device manager, since its service is removed
before the flag that asks for the call is read. A failed addition frees the device
it worked on, whether or not it created it. -/
namespace DriversFramework.Devmgr

section Frames
variable {s : System} {host devId : ℕ} {devNode : HdfDeviceNode} {device : HdfDevice}
  {entry : HdfDriverEntry} {ioService : Bool}

theorem removeService_keeps : (deviceNodeExtRemoveService s devNode).1.servStatus = false ∧
   (deviceNodeExtRemoveService s devNode).2.hosts = s.hosts ∧
   (deviceNodeExtRemoveService s devNode).2.services = s.services := by
 rw [deviceNodeExtRemoveService, hdfDeviceNodeRemoveService]
 by_cases published : (if devNode.policy = .policyCapacity then
   { devNode with ioService := false } else devNode).servStatus = true
 · rw [if_pos published]
   exact ⟨rfl, rfl, rfl⟩
 · rw [if_neg published]
   exact ⟨Bool.eq_false_iff.mpr published, rfl, rfl⟩

theorem freeNode_eq :
  hdfDeviceNodeFreeInstance s devNode = (deviceNodeExtRemoveService s devNode).2 := by
 have cleared := (@removeService_keeps s devNode).1
 have released : ∀ t, hdfDeviceReleaseNode t (deviceNodeExtRemoveService s devNode).1 = t := by
  intro t
  rw [hdfDeviceReleaseNode, cleared]
  rfl
 rw [hdfDeviceNodeFreeInstance, hdfDeviceNodeDestruct]
 split
 · exact released _
 · rfl
 · rfl

theorem freeNode_hosts : (hdfDeviceNodeFreeInstance s devNode).hosts = s.hosts := by
 rw [freeNode_eq]
 exact removeService_keeps.2.1

theorem freeNode_services : (hdfDeviceNodeFreeInstance s devNode).services = s.services := by
 rw [freeNode_eq]
 exact removeService_keeps.2.2

theorem freeNodes_keep (devNodes : List HdfDeviceNode) :
  (devNodes.foldl hdfDeviceNodeFreeInstance s).hosts = s.hosts ∧
   (devNodes.foldl hdfDeviceNodeFreeInstance s).services = s.services := by
 induction devNodes generalizing s with
 | nil => exact ⟨rfl, rfl⟩
 | cons devNode rest ih =>
  rw [List.foldl_cons, ih.1, ih.2]
  exact ⟨freeNode_hosts, freeNode_services⟩

theorem freeDevice_hosts : (devHostServiceFreeDevice s host device).hosts = s.hosts :=
 (freeNodes_keep device.devNodes).1

theorem freeDevice_services : (devHostServiceFreeDevice s host device).services =
   Function.update s.services host ⟨(s.services host).hostId,
    (s.services host).devices.eraseP (ofDevice device.deviceId)⟩ :=
 (freeNodes_keep device.devNodes).2

theorem publishPublicService_keeps :
  (hdfDeviceNodePublishPublicService s devNode).2.2.hosts = s.hosts ∧
   (hdfDeviceNodePublishPublicService s devNode).2.2.services = s.services ∧
   (hdfDeviceNodePublishPublicService s devNode).2.1.devId = devNode.devId := by
 rw [hdfDeviceNodePublishPublicService]
 split <;> exact ⟨rfl, rfl, rfl⟩

theorem extPublishService_keeps :
  (deviceNodeExtPublishService s ioService devNode).2.2.hosts = s.hosts ∧
   (deviceNodeExtPublishService s ioService devNode).2.2.services = s.services ∧
   (deviceNodeExtPublishService s ioService devNode).2.1.devId = devNode.devId := by
 rw [deviceNodeExtPublishService]
 split_ifs
 · exact ⟨rfl, rfl, rfl⟩
 · exact ⟨rfl, rfl, rfl⟩
 · dsimp only
   split_ifs
   · exact publishPublicService_keeps
   · exact publishPublicService_keeps

theorem publishService_keeps :
  (hdfDeviceNodePublishService s ioService devNode).2.2.hosts = s.hosts ∧
   (hdfDeviceNodePublishService s ioService devNode).2.2.services = s.services ∧
   (hdfDeviceNodePublishService s ioService devNode).2.1.devId = devNode.devId := by
 rw [hdfDeviceNodePublishService]
 split_ifs
 · exact ⟨rfl, rfl, rfl⟩
 · exact extPublishService_keeps
 · exact ⟨rfl, rfl, rfl⟩

theorem launchNode_keeps :
  (hdfDeviceLaunchNode s entry ioService devNode).2.2.services = s.services ∧
   (hdfDeviceLaunchNode s entry ioService devNode).2.1.devId = devNode.devId ∧
   ((hdfDeviceLaunchNode s entry ioService devNode).1 ≠ .success ∧
     (hdfDeviceLaunchNode s entry ioService devNode).2.2.hosts = s.hosts ∨
    (hdfDeviceLaunchNode s entry ioService devNode).1 = .success ∧
     devmgrServiceAttachDevice s.hosts devNode.devId =
      (.success, (hdfDeviceLaunchNode s entry ioService devNode).2.2.hosts)) := by
 rw [hdfDeviceLaunchNode]
 split
 · exact ⟨rfl, rfl, Or.inl ⟨nofun, rfl⟩⟩
 · dsimp only
   split_ifs with nobind badbind badinit shown attached
   · exact ⟨rfl, rfl, Or.inl ⟨nofun, rfl⟩⟩
   · exact ⟨rfl, rfl, Or.inl ⟨nofun, rfl⟩⟩
   · exact ⟨rfl, rfl, Or.inl ⟨nofun, rfl⟩⟩
   · obtain ⟨hosts, services, id⟩ := @publishService_keeps s
      { devNode with devStatus := .launched } ioService
     exact ⟨services, id, Or.inl ⟨nofun, hosts⟩⟩
   · obtain ⟨hosts, services, id⟩ := @publishService_keeps s
      { devNode with devStatus := .launched } ioService
     refine ⟨services, id, Or.inl ⟨nofun, ?_⟩⟩
     rw [hosts, id] at attached ⊢
     rw [devmgrServiceAttachDevice] at attached ⊢
     split at attached <;> first | rfl | exact absurd rfl attached
   · obtain ⟨hosts, services, id⟩ := @publishService_keeps s
      { devNode with devStatus := .launched } ioService
     refine ⟨services, id, Or.inr ⟨rfl, ?_⟩⟩
     rw [hosts, id] at attached ⊢
     exact Prod.ext (not_not.mp attached) rfl

end Frames

section Add
variable {s : System} {host devId deviceId : ℕ} {device : HdfDevice} {info : HdfDeviceInfo}
  {env : AddInputs}

theorem find_eraseP_self {devices : List HdfDevice}
  (h : devices.find? (ofDevice deviceId) = none) :
  devices.eraseP (ofDevice deviceId) = devices := by
 apply List.eraseP_of_forall_not
 exact List.find?_eq_none.mp h

theorem queryOrAdd_spec {inst hostService : DevHostService} {obtained : Bool}
  (h : devHostServiceQueryOrAddDevice inst deviceId obtained = some (device, hostService)) :
  device.deviceId = deviceId ∧ hostService.hostId = inst.hostId ∧
   hostService.devices.eraseP (ofDevice deviceId) =
    inst.devices.eraseP (ofDevice deviceId) := by
 rw [devHostServiceQueryOrAddDevice] at h
 cases found : devHostServiceFindDevice inst deviceId with
 | some old =>
  rw [found] at h
  cases h
  have same : ofDevice deviceId device = true := List.find?_some found
  exact ⟨of_decide_eq_true same, rfl, rfl⟩
 | none =>
  rw [found] at h
  dsimp only at h
  split_ifs at h with had
  cases h
  refine ⟨rfl, rfl, ?_⟩
  rw [List.eraseP_cons_of_pos (by simp [ofDevice]), find_eraseP_self found]

theorem attach_failed {entry : HdfDriverEntry} {ioService : Bool} {devNode : HdfDeviceNode}
  (h : (hdfDeviceAttach s host deviceId entry ioService devNode).1 ≠ .success) :
  (hdfDeviceAttach s host deviceId entry ioService devNode).2.2.hosts = s.hosts ∧
   (hdfDeviceAttach s host deviceId entry ioService devNode).2.2.services = s.services := by
 obtain ⟨services, -, outcome⟩ := @launchNode_keeps s devNode entry ioService
 rw [hdfDeviceAttach] at h ⊢
 dsimp only at h ⊢
 by_cases launched : (hdfDeviceLaunchNode s entry ioService devNode).1 = .success
 · rw [if_pos launched] at h
   exact absurd rfl h
 · rw [if_neg launched]
   rcases outcome with ⟨-, hosts⟩ | ⟨success, -⟩
   · exact ⟨hosts, services⟩
   · exact absurd success launched

theorem freed_state {t : System} {hostService : DevHostService}
  (hdevice : device.deviceId = deviceId)
  (hhost : hostService.hostId = (s.services host).hostId)
  (herase : hostService.devices.eraseP (ofDevice deviceId) =
   (s.services host).devices.eraseP (ofDevice deviceId))
  (hosts : t.hosts = s.hosts)
  (services : t.services = Function.update s.services host hostService) :
  (devHostServiceFreeDevice t host device).hosts = s.hosts ∧
   (devHostServiceFreeDevice t host device).services =
    Function.update s.services host ⟨(s.services host).hostId,
     (s.services host).devices.eraseP (ofDevice deviceId)⟩ := by
 refine ⟨freeDevice_hosts.trans hosts, ?_⟩
 rw [freeDevice_services, services, Function.update_self, Function.update_idem, hdevice, hhost,
  herase]

theorem addDevice_failed (hloader : env.loader ≠ false)
  (h : (devHostServiceAddDevice s host info env).1 ≠ .success) :
  (devHostServiceAddDevice s host info env).2.hosts = s.hosts ∧
   (devHostServiceAddDevice s host info env).2.services =
    Function.update s.services host ⟨(s.services host).hostId,
     (s.services host).devices.eraseP (ofDevice (deviceid info.deviceId))⟩ := by
 rw [devHostServiceAddDevice, if_neg hloader] at h ⊢
 dsimp only at h ⊢
 cases query : devHostServiceQueryOrAddDevice (s.services host) (deviceid info.deviceId)
  env.device with
 | none =>
  refine ⟨rfl, ?_⟩
  have missing : devHostServiceFindDevice (s.services host) (deviceid info.deviceId) = none := by
   rw [devHostServiceQueryOrAddDevice] at query
   split at query
   · cases query
   · assumption
  rw [find_eraseP_self missing]
  exact (Function.update_eq_self host s.services).symm
 | some found =>
  obtain ⟨device, hostService⟩ := found
  obtain ⟨hdevice, hhost, herase⟩ := queryOrAdd_spec query
  rw [query] at h
  dsimp only at h ⊢
  cases driver : env.driver with
  | none => exact freed_state hdevice hhost herase rfl rfl
  | some entry =>
   cases node : env.node with
   | none => exact freed_state hdevice hhost herase rfl rfl
   | some address =>
    rw [driver, node] at h
    dsimp only at h ⊢
    by_cases attached : (hdfDeviceAttach (s.setService host hostService) host
      (deviceid info.deviceId) entry env.ioService
      (hdfDeviceNodeNewInstance info entry address)).1 = .success
    · rw [if_neg (not_not.mpr attached)] at h
      exact absurd rfl h
    · obtain ⟨hosts, services⟩ := attach_failed attached
      rw [if_pos attached]
      exact freed_state hdevice hhost herase (freeNode_hosts.trans hosts)
       (freeNode_services.trans services)

/-- All devices of a host are there with their nodes as they were, and the tokens
of the device manager too. -/
def Intact (host : ℕ) (s t : System) : Prop :=
 (s.services host).devices.Sublist (t.services host).devices ∧
  ∀ hostClnt ∈ s.hosts, ∃ after ∈ t.hosts,
   after.hostId = hostClnt.hostId ∧ hostClnt.devices ⊆ after.devices

theorem intact_refl : Intact host s s :=
 ⟨List.Sublist.refl _, fun hostClnt hmem => ⟨hostClnt, hmem, rfl, fun _ h => h⟩⟩

/-- A failed addition leaves the host as it was exactly when there was no device
to add the node to. -/
theorem failed_intact_iff (h : (devHostServiceAddDevice s host info env).1 ≠ .success) :
    Intact host s (devHostServiceAddDevice s host info env).2 ↔
      env.loader = false ∨
        devHostServiceFindDevice (s.services host) (deviceid info.deviceId) = none := by
  by_cases hloader : env.loader = false
  · have same : (devHostServiceAddDevice s host info env).2 = s := by
      rw [devHostServiceAddDevice, if_pos hloader]
    rw [same]
    exact iff_of_true intact_refl (Or.inl hloader)
  obtain ⟨hosts, services⟩ := addDevice_failed hloader h
  rw [Intact, hosts, services, Function.update_self]
  constructor
  · rintro ⟨devices, -⟩
    apply Or.inr
    by_contra found
    obtain ⟨device, hdevice⟩ := Option.ne_none_iff_exists'.mp found
    have shorter := List.length_eraseP_of_mem (List.mem_of_find?_eq_some hdevice)
      (List.find?_some hdevice)
    have positive := List.length_pos_of_mem (List.mem_of_find?_eq_some hdevice)
    have longer := devices.length_le
    dsimp only at longer
    omega
  · rintro (none | none)
    · exact absurd none hloader
    · refine ⟨?_, (@intact_refl s host).2⟩
      rw [find_eraseP_self none]

end Add

/-- A host with one device that has one node. -/
def busyHost : System where
 hosts := [⟨0, [97], 2, [], [0], true⟩]
 services := fun _ => ⟨0, [⟨0, 0, [⟨7, 0, 0, .policyNone, [115], none, .launched, false, false⟩]⟩]⟩
 registry := ⟨[]⟩

def infoWithId (devid : ℕ) : HdfDeviceInfo :=
 ⟨false, .unusable, 0, devid, .policyNone, 100, .disable, 0, [109], [116], []⟩

/-- No driver has the name of the module. -/
def noDriver : AddInputs := ⟨true, true, none, some 8, true⟩

/-- Id 256 belongs to another device than the one that is there. -/
theorem failed_intact_otherDevice :
    Intact 0 busyHost (devHostServiceAddDevice busyHost 0 (infoWithId 256) noDriver).2 :=
  (failed_intact_iff (by decide)).mpr (Or.inr (by decide))

/-- Id 3 belongs to the device that is there, and the failed addition takes it away. -/
theorem failed_takes_device :
    (devHostServiceAddDevice busyHost 0 (infoWithId 3) noDriver).1 = .devErrNodata ∧
      ((devHostServiceAddDevice busyHost 0 (infoWithId 3) noDriver).2.services 0).devices = [] ∧
      ¬Intact 0 busyHost (devHostServiceAddDevice busyHost 0 (infoWithId 3) noDriver).2 := by
  have gone : ((devHostServiceAddDevice busyHost 0 (infoWithId 3) noDriver).2.services 0).devices =
      [] := by
    decide
  refine ⟨by decide, gone, ?_⟩
  rintro ⟨devices, -⟩
  rw [gone] at devices
  exact absurd devices.length_le (by decide)

end DriversFramework.Devmgr
