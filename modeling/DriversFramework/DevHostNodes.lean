import DriversFramework.DevHostRollback

namespace DriversFramework.Devmgr

def HdfDevice.nodeIds (device : HdfDevice) : List ℕ := device.devNodes.map HdfDeviceNode.devId

def DevHostService.nodeIds (hostService : DevHostService) : List ℕ :=
 hostService.devices.flatMap HdfDevice.nodeIds

def DevHostService.withNode (hostService : DevHostService) (deviceId : ℕ)
  (devNode : HdfDeviceNode) : DevHostService :=
 match devHostServiceFindDevice hostService deviceId with
 | some _ =>
  { hostService with
    devices := HdfSList.updateFirst (ofDevice deviceId)
     (fun device => { device with devNodes := device.devNodes ++ [devNode] })
     hostService.devices }
 | none =>
  { hostService with
    devices := ⟨deviceId, hostService.hostId, [devNode]⟩ :: hostService.devices }

def DevHostService.withoutNode (hostService : DevHostService) (device : HdfDevice) (devId : ℕ) :
  DevHostService :=
 if device.devNodes.eraseP (ofNode devId) = [] then
  { hostService with devices := hostService.devices.eraseP (ofDevice device.deviceId) }
 else
  { hostService with
    devices := HdfSList.updateFirst (ofDevice device.deviceId)
     (fun device => { device with devNodes := device.devNodes.eraseP (ofNode devId) })
     hostService.devices }

section Add
variable {s : System} {host deviceId : ℕ} {info : HdfDeviceInfo} {env : AddInputs}

theorem attach_succeeded {entry : HdfDriverEntry} {ioService : Bool} {devNode : HdfDeviceNode}
 (h : (hdfDeviceAttach s host deviceId entry ioService devNode).1 = .success) :
 ∃ launched : HdfDeviceNode, launched.devId = devNode.devId ∧
  devmgrServiceAttachDevice s.hosts devNode.devId =
   (.success, (hdfDeviceAttach s host deviceId entry ioService devNode).2.2.hosts) ∧
  (hdfDeviceAttach s host deviceId entry ioService devNode).2.2.services =
   Function.update s.services host ⟨(s.services host).hostId,
    HdfSList.updateFirst (ofDevice deviceId)
     (fun device => { device with devNodes := device.devNodes ++ [launched] })
     (s.services host).devices⟩ := by
 obtain ⟨services, id, outcome⟩ := @launchNode_keeps s devNode entry ioService
 rw [hdfDeviceAttach] at h ⊢
 dsimp only at h ⊢
 by_cases success : (hdfDeviceLaunchNode s entry ioService devNode).1 = .success
 · rw [if_pos success]
   rcases outcome with ⟨failed, -⟩ | ⟨-, attached⟩
   · exact absurd success failed
   · refine ⟨(hdfDeviceLaunchNode s entry ioService devNode).2.1, id, attached, ?_⟩
     dsimp only [System.setService]
     rw [services]
 · rw [if_neg success] at h
   exact absurd h success

theorem addDevice_succeeded (h : (devHostServiceAddDevice s host info env).1 = .success) :
 ∃ devNode : HdfDeviceNode, devNode.devId = info.deviceId ∧
  devmgrServiceAttachDevice s.hosts info.deviceId =
   (.success, (devHostServiceAddDevice s host info env).2.hosts) ∧
  (devHostServiceAddDevice s host info env).2.services =
   Function.update s.services host
    ((s.services host).withNode (deviceid info.deviceId) devNode) := by
 rw [devHostServiceAddDevice] at h ⊢
 by_cases loader : env.loader = false
 · rw [if_pos loader] at h
   cases h
 rw [if_neg loader] at h ⊢
 dsimp only at h ⊢
 cases query : devHostServiceQueryOrAddDevice (s.services host) (deviceid info.deviceId)
  env.device with
 | none =>
  rw [query] at h
  cases h
 | some found =>
  obtain ⟨device, hostService⟩ := found
  rw [query] at h
  dsimp only at h ⊢
  cases driver : env.driver with
  | none =>
   rw [driver] at h
   cases h
  | some entry =>
   cases node : env.node with
   | none =>
    rw [driver, node] at h
    cases h
   | some address =>
    rw [driver, node] at h
    dsimp only at h ⊢
    by_cases attached : (hdfDeviceAttach (s.setService host hostService) host
     (deviceid info.deviceId) entry env.ioService
     (hdfDeviceNodeNewInstance info entry address)).1 = .success
    · obtain ⟨launched, id, tokens, services⟩ := attach_succeeded attached
      rw [if_neg (not_not.mpr attached)]
      refine ⟨launched, id, tokens, ?_⟩
      dsimp only
      rw [services, System.setService_services, Function.update_self,
       Function.update_idem, DevHostService.withNode]
      rw [devHostServiceQueryOrAddDevice] at query
      cases there : devHostServiceFindDevice (s.services host) (deviceid info.deviceId) with
      | some old =>
       rw [there] at query
       cases query
       rfl
      | none =>
       rw [there] at query
       dsimp only at query
       split_ifs at query
       cases query
       dsimp only
       rw [HdfSList.updateFirst, if_pos (by simp [ofDevice])]
       rfl
    · rw [if_pos attached] at h
      exact absurd h attached

end Add

def HdfDriverEntry.Launches (entry : HdfDriverEntry) (info : HdfDeviceInfo) (ioService : Bool) :
  Prop :=
 entry.init = some .success ∧
  (info.policy.published = true → entry.bind = some .success ∧
   (info.svcName ≠ [] → entry.service ≠ none ∧
    (info.policy = .policyCapacity → ioService = true)))

def Accepts (s : System) (host : ℕ) (info : HdfDeviceInfo) (env : AddInputs) : Prop :=
 env.loader = true ∧
  (devHostServiceFindDevice (s.services host) (deviceid info.deviceId) = none →
   env.device = true) ∧
  (∃ entry address, env.driver = some entry ∧ env.node = some address ∧
   entry.Launches info env.ioService) ∧
  s.hosts.find? (ofHost (hostid info.deviceId)) ≠ none

section Accept
variable {s : System} {host deviceId : ℕ} {info : HdfDeviceInfo} {env : AddInputs}
 {entry : HdfDriverEntry} {ioService : Bool} {devNode : HdfDeviceNode}

theorem publishService_success_iff :
 (hdfDeviceNodePublishService s ioService devNode).1 = .success ↔
  (devNode.policy.published = true → devNode.servName ≠ [] →
   devNode.service ≠ none ∧ (devNode.policy = .policyCapacity → ioService = true)) := by
 rw [hdfDeviceNodePublishService]
 by_cases quiet : devNode.policy = .policyNone ∨ devNode.servName = []
 · rw [if_pos quiet]
   refine iff_of_true rfl ?_
   intro published named
   rcases quiet with none | unnamed
   · rw [none] at published
     cases published
   · exact absurd unnamed named
 rw [if_neg quiet]
 have named : devNode.servName ≠ [] := fun unnamed => quiet (Or.inr unnamed)
 by_cases published : devNode.policy.published = true
 · rw [if_pos published, deviceNodeExtPublishService]
   by_cases service : devNode.service = none
   · rw [if_pos service]
     refine iff_of_false (by rintro ⟨⟩) ?_
     exact fun h => (h published named).1 service
   rw [if_neg service]
   by_cases noIo : devNode.policy = .policyCapacity ∧ ioService = false
   · rw [if_pos noIo]
     refine iff_of_false (by rintro ⟨⟩) ?_
     intro h
     exact Bool.false_ne_true (noIo.2.symm.trans ((h published named).2 noIo.1))
   rw [if_neg noIo]
   refine iff_of_true ?_ ?_
   · obtain ⟨object, hobject⟩ := Option.ne_none_iff_exists'.mp service
     simp [hdfDeviceNodePublishPublicService, hobject, ServiceRegistry.devSvcManagerAddService]
   · refine fun _ _ => ⟨service, fun capacity => ?_⟩
     exact Bool.not_eq_false _ ▸ fun io => noIo ⟨capacity, io⟩
 · rw [if_neg published]
   exact iff_of_true rfl fun h => absurd h published

theorem attachDevice_success_iff {hosts : List DevHostServiceClnt} {devid : ℕ} :
 (devmgrServiceAttachDevice hosts devid).1 = .success ↔
  hosts.find? (ofHost (hostid devid)) ≠ none := by
 rw [devmgrServiceAttachDevice]
 cases hosts.find? (ofHost (hostid devid)) with
 | none => exact iff_of_false (by rintro ⟨⟩) (not_not.mpr rfl)
 | some hostClnt => exact iff_of_true rfl (Option.some_ne_none hostClnt)

theorem launchNode_success_iff : (hdfDeviceLaunchNode s entry ioService devNode).1 = .success ↔
  entry.init = some .success ∧
   (devNode.policy.published = true → entry.bind = some .success ∧
    (devNode.servName ≠ [] → devNode.service ≠ none ∧
     (devNode.policy = .policyCapacity → ioService = true))) ∧
   s.hosts.find? (ofHost (hostid devNode.devId)) ≠ none := by
 rw [hdfDeviceLaunchNode]
 cases init : entry.init with
 | none => exact iff_of_false (by rintro ⟨⟩) (by rintro ⟨⟨⟩, -⟩)
 | some status =>
  dsimp only
  by_cases bound : devNode.policy.published = true → entry.bind = some .success
  · have isBound : ¬(devNode.policy.published = true ∧ entry.bind = none) := by
     rintro ⟨published, unbound⟩
     cases (bound published).symm.trans unbound
    have binds : ¬(devNode.policy.published = true ∧ entry.bind ≠ some .success) :=
     fun h => h.2 (bound h.1)
    rw [if_neg isBound, if_neg binds]
    by_cases started : status = .success
    · have shown := @publishService_success_iff s ioService
       { devNode with devStatus := .launched }
      obtain ⟨hosts, -, id⟩ := @publishService_keeps s
       { devNode with devStatus := .launched } ioService
      rw [if_neg (not_not.mpr started), started]
      by_cases success : (hdfDeviceNodePublishService s ioService
       { devNode with devStatus := .launched }).1 = .success
      · have services := shown.mp success
        have attached := @attachDevice_success_iff s.hosts devNode.devId
        rw [if_neg (not_not.mpr success), hosts, id]
        by_cases found : s.hosts.find? (ofHost (hostid devNode.devId)) = none
        · refine iff_of_false ?_ fun h => h.2.2 found
          rw [if_pos fun h => attached.mp h found]
          rintro ⟨⟩
        · refine iff_of_true ?_ ⟨rfl, fun h => ⟨bound h, services h⟩, found⟩
          rw [if_neg (not_not.mpr (attached.mpr found))]
      · rw [if_pos success]
        refine iff_of_false (by rintro ⟨⟩) ?_
        rintro ⟨-, launches, -⟩
        exact success (shown.mpr fun h => (launches h).2)
    · rw [if_pos started]
      refine iff_of_false (by rintro ⟨⟩) ?_
      rintro ⟨success, -, -⟩
      exact started (Option.some.inj success)
  · obtain ⟨published, unbound⟩ := Classical.not_imp.mp bound
    refine iff_of_false ?_ fun h => bound fun published => (h.2.1 published).1
    by_cases nobind : entry.bind = none
    · rw [if_pos ⟨published, nobind⟩]
      rintro ⟨⟩
    · have supplied : ¬(devNode.policy.published = true ∧ entry.bind = none) :=
       fun h => nobind h.2
      rw [if_neg supplied, if_pos ⟨published, unbound⟩]
      rintro ⟨⟩

theorem addDevice_success_iff :
 (devHostServiceAddDevice s host info env).1 = .success ↔ Accepts s host info env := by
 rw [devHostServiceAddDevice, Accepts]
 by_cases loader : env.loader = false
 · rw [if_pos loader]
   exact iff_of_false (by rintro ⟨⟩) fun h => Bool.false_ne_true (loader.symm.trans h.1)
 have hloader : env.loader = true := (Bool.not_eq_false _).mp loader
 rw [if_neg loader]
 dsimp only
 cases query : devHostServiceQueryOrAddDevice (s.services host) (deviceid info.deviceId)
  env.device with
 | none =>
  refine iff_of_false (by rintro ⟨⟩) ?_
  rintro ⟨-, had, -, -⟩
  rw [devHostServiceQueryOrAddDevice] at query
  split at query
  · cases query
  · rename_i missing
    rw [had missing, if_pos rfl] at query
    cases query
 | some found =>
  have had : devHostServiceFindDevice (s.services host) (deviceid info.deviceId) = none →
   env.device = true := by
   intro missing
   rw [devHostServiceQueryOrAddDevice, missing] at query
   dsimp only at query
   split_ifs at query with obtained
   exact obtained
  dsimp only
  cases driver : env.driver with
  | none =>
   refine iff_of_false (by rintro ⟨⟩) ?_
   rintro ⟨-, -, ⟨entry, address, none, -, -⟩, -⟩
   cases none
  | some entry =>
   cases node : env.node with
   | none =>
    refine iff_of_false (by rintro ⟨⟩) ?_
    rintro ⟨-, -, ⟨entry, address, -, none, -⟩, -⟩
    cases none
   | some address =>
    have launch := @launchNode_success_iff (s.setService host found.2) entry env.ioService
     (hdfDeviceNodeNewInstance info entry address)
    have status : (hdfDeviceAttach (s.setService host found.2) host (deviceid info.deviceId)
     entry env.ioService (hdfDeviceNodeNewInstance info entry address)).1 =
     (hdfDeviceLaunchNode (s.setService host found.2) entry env.ioService
      (hdfDeviceNodeNewInstance info entry address)).1 := by
     rw [hdfDeviceAttach]
     dsimp only
     split_ifs with success
     · exact success.symm
     · rfl
    dsimp only
    rw [status]
    by_cases success : (hdfDeviceLaunchNode (s.setService host found.2) entry env.ioService
     (hdfDeviceNodeNewInstance info entry address)).1 = .success
    · obtain ⟨init, published, hosts⟩ := launch.mp success
      rw [if_neg (not_not.mpr success)]
      exact iff_of_true rfl
       ⟨hloader, had, ⟨entry, address, rfl, rfl, init, published⟩, hosts⟩
    · rw [if_pos success]
      refine iff_of_false success ?_
      rintro ⟨-, -, ⟨other, place, sameEntry, -, launches⟩, hosts⟩
      cases sameEntry
      exact success (launch.mpr ⟨launches.1, launches.2, hosts⟩)

end Accept

section Del
variable {s : System} {host devId : ℕ} {loader : Bool}

theorem eraseP_updateFirst {deviceId : ℕ} {f : HdfDevice → HdfDevice} (devices : List HdfDevice)
 (same : ∀ device, (f device).deviceId = device.deviceId) :
 (HdfSList.updateFirst (ofDevice deviceId) f devices).eraseP (ofDevice deviceId) =
  devices.eraseP (ofDevice deviceId) := by
 induction devices with
 | nil => rfl
 | cons device rest ih =>
  by_cases here : ofDevice deviceId device = true
  · have kept : ofDevice deviceId (f device) = true := by
     rw [ofDevice, same]
     exact here
    rw [HdfSList.updateFirst, if_pos here, List.eraseP_cons_of_pos here,
     List.eraseP_cons_of_pos kept]
  · rw [HdfSList.updateFirst, if_neg here, List.eraseP_cons_of_neg here,
     List.eraseP_cons_of_neg here, ih]

def devHostServiceFindNode (hostService : DevHostService) (devId : ℕ) :
  Option (HdfDevice × HdfDeviceNode) :=
 (devHostServiceFindDevice hostService (deviceid devId)).bind fun device =>
  (device.devNodes.find? (ofNode devId)).map fun devNode => (device, devNode)

theorem delDevice_missing
 (h : loader = false ∨ devHostServiceFindNode (s.services host) devId = none) :
 (devHostServiceDelDevice s host devId loader).2 = s := by
 rw [devHostServiceDelDevice]
 by_cases noLoader : loader = false
 · rw [if_pos noLoader]
 rw [if_neg noLoader]
 rcases h with h | h
 · exact absurd h noLoader
 · rw [devHostServiceFindNode] at h
   cases found : devHostServiceFindDevice (s.services host) (deviceid devId) with
   | none => rfl
   | some device =>
    rw [found, Option.bind_some] at h
    dsimp only
    rw [Option.map_eq_none_iff.mp h]

theorem detach_eq {device : HdfDevice} {devNode : HdfDeviceNode}
 (h : device.deviceId = deviceid devNode.devId) :
 hdfDeviceDetach s host device devNode =
  (.success, hdfDeviceNodeFreeInstance
   (s.setService host
    { s.services host with
     devices := HdfSList.updateFirst (ofDevice device.deviceId)
      (fun device =>
       { device with devNodes := device.devNodes.eraseP (ofNode devNode.devId) })
      (s.services host).devices }) devNode) := by
 rw [hdfDeviceDetach, if_neg (not_not.mpr h)]

theorem delDevice_found {device : HdfDevice} {devNode : HdfDeviceNode}
 (h : devHostServiceFindNode (s.services host) devId = some (device, devNode)) :
 (devHostServiceDelDevice s host devId true).2.hosts = s.hosts ∧
  (devHostServiceDelDevice s host devId true).2.services =
   Function.update s.services host ((s.services host).withoutNode device devId) := by
 rw [devHostServiceFindNode] at h
 cases hfound : devHostServiceFindDevice (s.services host) (deviceid devId) with
 | none =>
  rw [hfound] at h
  cases h
 | some there =>
  rw [hfound, Option.bind_some] at h
  obtain ⟨node, hnode, same⟩ := Option.map_eq_some_iff.mp h
  cases same
  have hdevice : device.deviceId = deviceid devId := by
   have same : ofDevice (deviceid devId) device = true := List.find?_some hfound
   exact of_decide_eq_true same
  have hid : devNode.devId = devId := by
   have same : ofNode devId devNode = true := List.find?_some hnode
   exact of_decide_eq_true same
  rw [devHostServiceDelDevice, if_neg (by decide), hfound]
  dsimp only
  rw [hnode]
  dsimp only
  rw [detach_eq (by rw [hdevice, hid]), hid]
  dsimp only
  rw [if_neg (not_not.mpr rfl), DevHostService.withoutNode]
  by_cases last : device.devNodes.eraseP (ofNode devId) = []
  · rw [if_pos last, if_pos last]
    refine ⟨freeDevice_hosts.trans freeNode_hosts, ?_⟩
    rw [freeDevice_services, freeNode_services, System.setService_services,
     Function.update_self, Function.update_idem]
    dsimp only
    rw [eraseP_updateFirst]
    exact fun _ => rfl
  · rw [if_neg last, if_neg last]
    exact ⟨freeNode_hosts, freeNode_services⟩

end Del

section Ids
variable {hostService : DevHostService} {device : HdfDevice} {devNode : HdfDeviceNode}
 {deviceId devId : ℕ}

theorem nodeIds_split {hostId : ℕ} {front back : List HdfDevice} :
 (⟨hostId, front ++ device :: back⟩ : DevHostService).nodeIds =
  front.flatMap HdfDevice.nodeIds ++ (device.nodeIds ++ back.flatMap HdfDevice.nodeIds) := by
 rw [DevHostService.nodeIds, List.flatMap_append, List.flatMap_cons]

theorem withNode_nodeIds : (hostService.withNode deviceId devNode).nodeIds.Perm
  (devNode.devId :: hostService.nodeIds) := by
 obtain ⟨hostId, devices⟩ := hostService
 rw [DevHostService.withNode]
 cases found : devHostServiceFindDevice ⟨hostId, devices⟩ deviceId with
 | none => exact List.Perm.refl _
 | some device =>
  obtain ⟨front, back, rfl, changed, -, -⟩ := HdfSList.updateFirst_split
   (fun device => { device with devNodes := device.devNodes ++ [devNode] }) found
  have appended : (⟨device.deviceId, device.hostId, device.devNodes ++ [devNode]⟩ :
   HdfDevice).nodeIds = device.nodeIds ++ [devNode.devId] := by
   rw [HdfDevice.nodeIds, List.map_append]
   rfl
  dsimp only
  rw [changed, nodeIds_split, nodeIds_split, appended, List.append_assoc,
   List.singleton_append, ← List.append_assoc, ← List.append_assoc]
  exact List.perm_middle

theorem withoutNode_nodeIds
 (h : devHostServiceFindNode hostService devId = some (device, devNode)) :
 hostService.nodeIds.Perm (devId :: (hostService.withoutNode device devId).nodeIds) := by
 obtain ⟨hostId, devices⟩ := hostService
 obtain ⟨there, found, hnode⟩ := Option.bind_eq_some_iff.mp h
 obtain ⟨node, hnode, same⟩ := Option.map_eq_some_iff.mp hnode
 cases same
 have hdevice : ofDevice (deviceid devId) device = true := List.find?_some found
 have hid : ofNode devId devNode = true := List.find?_some hnode
 have sameDevice : device.deviceId = deviceid devId := of_decide_eq_true hdevice
 obtain ⟨front, back, rfl, changed, -, before⟩ := HdfSList.updateFirst_split
  (fun device => { device with devNodes := device.devNodes.eraseP (ofNode devId) }) found
 obtain ⟨first, nodesFront, nodesBack, -, isNode, nodes, erased⟩ :=
  List.exists_of_eraseP (List.mem_of_find?_eq_some hnode) hid
 have left : ((⟨hostId, front ++ device :: back⟩ : DevHostService).withoutNode device
  devId).nodeIds = front.flatMap HdfDevice.nodeIds ++
   ((nodesFront ++ nodesBack).map HdfDeviceNode.devId ++
    back.flatMap HdfDevice.nodeIds) := by
  rw [DevHostService.withoutNode, erased, sameDevice]
  split_ifs with last
  · have gone : (front ++ device :: back).eraseP (ofDevice (deviceid devId)) = front ++ back := by
     rw [List.eraseP_append_right _ (fun other hmem => by simp [before other hmem]),
      List.eraseP_cons_of_pos hdevice]
    dsimp only
    rw [gone, DevHostService.nodeIds, List.flatMap_append, last]
    rfl
  · dsimp only
    rw [changed, nodeIds_split, HdfDevice.nodeIds, erased]
 have whole : device.nodeIds = nodesFront.map HdfDeviceNode.devId ++
  devId :: nodesBack.map HdfDeviceNode.devId := by
  rw [HdfDevice.nodeIds, nodes, List.map_append, List.map_cons]
  rw [show first.devId = devId from of_decide_eq_true isNode]
 rw [left, nodeIds_split, whole, List.map_append, List.append_assoc, List.cons_append,
  ← List.append_assoc, List.append_assoc _ _ (back.flatMap _), ← List.append_assoc]
 exact List.perm_middle

structure DevHostService.Ordered (hostService : DevHostService) : Prop where
 devices : (hostService.devices.map HdfDevice.deviceId).Nodup
 placed : ∀ device ∈ hostService.devices, ∀ devid ∈ device.nodeIds,
  deviceid devid = device.deviceId
 nodes : hostService.nodeIds.Nodup

theorem DevHostService.Ordered.findNode (h : hostService.Ordered)
 (hmem : devId ∈ hostService.nodeIds) :
 ∃ pair, devHostServiceFindNode hostService devId = some pair := by
 obtain ⟨device, hdevice, hid⟩ := List.mem_flatMap.mp hmem
 have place := h.placed device hdevice devId hid
 have found : hostService.devices.find? (ofDevice (deviceid devId)) = some device := by
  rw [place]
  cases hfind : hostService.devices.find? (ofDevice device.deviceId) with
  | none =>
   have missed := List.find?_eq_none.mp hfind device hdevice
   exact absurd (decide_eq_true rfl) missed
  | some other =>
   have same : ofDevice device.deviceId other = true := List.find?_some hfind
   rw [List.inj_on_of_nodup_map h.devices (List.mem_of_find?_eq_some hfind) hdevice
    (of_decide_eq_true same)]
 obtain ⟨devNode, hnode, rfl⟩ := List.mem_map.mp hid
 have there : (device.devNodes.find? (ofNode devNode.devId)).isSome = true := by
  rw [List.find?_isSome]
  exact ⟨devNode, hnode, decide_eq_true rfl⟩
 obtain ⟨first, hfirst⟩ := Option.isSome_iff_exists.mp there
 refine ⟨(device, first), ?_⟩
 rw [devHostServiceFindNode, devHostServiceFindDevice, found, Option.bind_some, hfirst]
 rfl

theorem DevHostService.Ordered.withNode (h : hostService.Ordered)
 (fresh : devNode.devId ∉ hostService.nodeIds) :
 (hostService.withNode (deviceid devNode.devId) devNode).Ordered where
 devices := by
  rw [DevHostService.withNode]
  cases found : devHostServiceFindDevice hostService (deviceid devNode.devId) with
  | some device =>
   dsimp only
   rw [HdfSList.map_updateFirst]
   · exact h.devices
   · exact fun _ => rfl
  | none =>
   apply List.nodup_cons.mpr
   refine ⟨?_, h.devices⟩
   intro hmem
   obtain ⟨device, hdevice, same⟩ := List.mem_map.mp hmem
   exact List.find?_eq_none.mp found device hdevice (decide_eq_true same)
 placed := by
  rw [DevHostService.withNode]
  cases found : devHostServiceFindDevice hostService (deviceid devNode.devId) with
  | some device =>
   intro other hmem devid hid
   rcases HdfSList.mem_updateFirst hmem with old | ⟨changed, hchanged, here, rfl⟩
   · exact h.placed other old devid hid
   · rw [HdfDevice.nodeIds, List.map_append] at hid
     rcases List.mem_append.mp hid with old | new
     · exact h.placed changed hchanged devid old
     · rw [List.map_singleton, List.mem_singleton] at new
       rw [new]
       exact (of_decide_eq_true here).symm
  | none =>
   intro other hmem devid hid
   rcases List.mem_cons.mp hmem with rfl | old
   · rw [HdfDevice.nodeIds, List.map_singleton, List.mem_singleton] at hid
     rw [hid]
   · exact h.placed other old devid hid
 nodes := withNode_nodeIds.nodup_iff.mpr (List.nodup_cons.mpr ⟨fresh, h.nodes⟩)

theorem DevHostService.Ordered.withoutNode (h : hostService.Ordered)
 (found : devHostServiceFindNode hostService devId = some (device, devNode)) :
 (hostService.withoutNode device devId).Ordered where
 devices := by
  rw [DevHostService.withoutNode]
  split_ifs
  · exact h.devices.sublist (List.eraseP_sublist.map _)
  · dsimp only
    rw [HdfSList.map_updateFirst]
    · exact h.devices
    · exact fun _ => rfl
 placed := by
  rw [DevHostService.withoutNode]
  split_ifs
  · intro other hmem
    exact h.placed other (List.mem_of_mem_eraseP hmem)
  · intro other hmem devid hid
    rcases HdfSList.mem_updateFirst hmem with old | ⟨changed, hchanged, -, rfl⟩
    · exact h.placed other old devid hid
    · exact h.placed changed hchanged devid ((List.eraseP_sublist.map _).subset hid)
 nodes := (List.nodup_cons.mp ((withoutNode_nodeIds found).nodup_iff.mp h.nodes)).2

end Ids

end DriversFramework.Devmgr
