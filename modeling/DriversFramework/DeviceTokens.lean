import DriversFramework.DevHostNodes
import DriversFramework.DevmgrService
import DriversFramework.RunRules

namespace DriversFramework.Devmgr

def HasToken (s : System) (devid : ℕ) : Prop :=
 ∃ hostClnt ∈ s.hosts, devid ∈ hostClnt.devices

structure Grows (s t : System) : Prop where
 tokens : ∀ devid, HasToken s devid → HasToken t devid
 nodes : ∀ host, ∀ devid ∈ (t.services host).nodeIds,
  devid ∈ (s.services host).nodeIds ∨ HasToken t devid

theorem Grows.refl (s : System) : Grows s s := ⟨fun _ h => h, fun _ _ h => Or.inl h⟩

section Calls
variable {s t u : System} {host info : ℕ} {deviceInfo : HdfDeviceInfo} {env : AddInputs}

theorem Grows.trans (first : Grows s t) (second : Grows t u) : Grows s u where
 tokens devid h := second.tokens devid (first.tokens devid h)
 nodes host devid h := by
  rcases second.nodes host devid h with before | token
  · rcases first.nodes host devid before with older | token
    · exact Or.inl older
    · exact Or.inr (second.tokens devid token)
  · exact Or.inr token

theorem grows_foldl {α : Type} {f : System → α → System} (h : ∀ s a, Grows s (f s a))
  (as : List α) (s : System) : Grows s (as.foldl f s) := by
 induction as generalizing s with
 | nil => exact Grows.refl s
 | cons a as ih => exact (h s a).trans (ih (f s a))

theorem hasToken_iff {devid : ℕ} :
  HasToken s devid ↔ ∃ devices ∈ s.hosts.map DevHostServiceClnt.devices, devid ∈ devices := by
 simp [HasToken]

theorem grows_of_devices
  (hosts : t.hosts.map DevHostServiceClnt.devices = s.hosts.map DevHostServiceClnt.devices)
  (services : t.services = s.services) : Grows s t where
 tokens devid h := by
  rw [hasToken_iff, hosts]
  exact hasToken_iff.mp h
 nodes host devid h := by
  rw [services] at h
  exact Or.inl h

theorem attachDevice_tokens {hosts after : List DevHostServiceClnt} {devid : ℕ}
  (h : devmgrServiceAttachDevice hosts devid = (.success, after)) :
  (∃ hostClnt ∈ after, devid ∈ hostClnt.devices) ∧
   ∀ other, (∃ hostClnt ∈ hosts, other ∈ hostClnt.devices) →
    ∃ hostClnt ∈ after, other ∈ hostClnt.devices := by
 rw [devmgrServiceAttachDevice] at h
 cases found : hosts.find? (ofHost (hostid devid)) with
 | none =>
  rw [found] at h
  cases h
 | some hostClnt =>
  rw [found] at h
  obtain ⟨front, back, rfl, changed, -, -⟩ :=
   HdfSList.updateFirst_split (DevHostServiceClnt.attachToken devid) found
  obtain rfl := (Prod.mk.inj h).2
  rw [changed]
  constructor
  · exact ⟨hostClnt.attachToken devid, by simp, List.mem_cons_self⟩
  · rintro other ⟨holder, hmem, token⟩
    rcases List.mem_append.mp hmem with before | behind
    · exact ⟨holder, List.mem_append_left _ before, token⟩
    · rcases List.mem_cons.mp behind with rfl | behind
      · exact ⟨holder.attachToken devid, by simp, List.mem_cons_of_mem _ token⟩
      · exact ⟨holder, by simp [behind], token⟩

theorem eraseP_nodeIds {hostService : DevHostService} {p : HdfDevice → Bool} {devid : ℕ}
  (h : devid ∈ (⟨hostService.hostId, hostService.devices.eraseP p⟩ : DevHostService).nodeIds) :
  devid ∈ hostService.nodeIds := by
 obtain ⟨device, hmem, hdevid⟩ := List.mem_flatMap.mp h
 exact List.mem_flatMap.mpr ⟨device, List.mem_of_mem_eraseP hmem, hdevid⟩

theorem addDevice_grows : Grows s (devHostServiceAddDevice s host deviceInfo env).2 := by
 by_cases success : (devHostServiceAddDevice s host deviceInfo env).1 = .success
 · obtain ⟨devNode, id, tokens, services⟩ := addDevice_succeeded success
   obtain ⟨fresh, kept⟩ := attachDevice_tokens tokens
   refine ⟨kept, ?_⟩
   intro other devid h
   rw [services] at h
   by_cases same : other = host
   · subst same
     rw [Function.update_self] at h
     rcases List.mem_cons.mp (withNode_nodeIds.mem_iff.mp h) with new | old
     · rw [new, id]
       exact Or.inr fresh
     · exact Or.inl old
   · rw [Function.update_of_ne same] at h
     exact Or.inl h
 · by_cases noLoader : env.loader = false
   · rw [devHostServiceAddDevice, if_pos noLoader]
     exact Grows.refl s
   obtain ⟨hosts, services⟩ := addDevice_failed noLoader success
   constructor
   · intro devid h
     rw [HasToken, hosts]
     exact h
   · intro other devid h
     rw [services] at h
     by_cases same : other = host
     · subst same
       rw [Function.update_self] at h
       exact Or.inl (eraseP_nodeIds h)
     · rw [Function.update_of_ne same] at h
       exact Or.inl h

theorem delDevice_grows {devId : ℕ} {loader : Bool} :
  Grows s (devHostServiceDelDevice s host devId loader).2 := by
 cases loader with
 | false => exact Grows.refl s
 | true =>
  cases found : devHostServiceFindNode (s.services host) devId with
  | none =>
   rw [delDevice_missing (Or.inr found)]
   exact Grows.refl s
  | some pair =>
   obtain ⟨hosts, services⟩ := delDevice_found found
   constructor
   · intro devid h
     rw [HasToken, hosts]
     exact h
   · intro other devid h
     rw [services] at h
     by_cases same : other = host
     · subst same
       rw [Function.update_self] at h
       exact Or.inl ((withoutNode_nodeIds found).mem_iff.mpr (List.mem_cons_of_mem _ h))
     · rw [Function.update_of_ne same] at h
       exact Or.inl h

theorem setPreload_grows {preload : DevicePreload} : Grows s (s.setPreload host info preload) := by
 refine grows_of_devices ?_ rfl
 apply List.ext_getElem?
 intro i
 rw [System.setPreload, List.getElem?_map, List.getElem?_map, List.getElem?_modify]
 cases s.hosts[i]? with
 | none => rfl
 | some hostClnt => by_cases same : host = i <;> simp [same]

theorem activeDevice_grows {isLoad : Bool} :
  Grows s (devmgrServiceActiveDevice s host info isLoad env).2 := by
 rw [devmgrServiceActiveDevice]
 split
 · split_ifs
   · exact Grows.refl s
   · dsimp only
     split_ifs
     · exact addDevice_grows.trans setPreload_grows
     · exact addDevice_grows
   · exact delDevice_grows.trans setPreload_grows
   · exact Grows.refl s
 · exact Grows.refl s

theorem findAndActiveDevice_grows {svcName : List UInt8} {isLoad : Bool} :
  Grows s (devmgrServiceFindAndActiveDevice s svcName isLoad env).2 := by
 rw [devmgrServiceFindAndActiveDevice]
 split
 · exact Grows.refl s
 · exact activeDevice_grows

theorem loadLeftDriver_grows {env : ℕ × ℕ → AddInputs} :
  Grows s (devmgrServiceLoadLeftDriver s env).2 := by
 apply grows_foldl
 intro s place
 rw [loadLeftStep]
 split
 · exact Grows.refl s
 · split_ifs
   · exact activeDevice_grows
   · exact Grows.refl s

theorem installDriver_grows {quickLoad : Bool} {env : ℕ → AddInputs} :
  Grows s (devHostServiceClntInstallDriver s host quickLoad env).2 := by
 rw [devHostServiceClntInstallDriver]
 split
 · exact Grows.refl s
 · apply grows_foldl
   intro s info
   rw [installStep]
   split
   · split_ifs
     · exact Grows.refl s
     · exact Grows.refl s
     · exact addDevice_grows
   · exact Grows.refl s

theorem attachDeviceHost_grows {config : List HostConfig} {hostId : ℕ} {quickLoad : Bool}
  {env : ℕ → AddInputs} :
  Grows s (devmgrServiceAttachDeviceHost config s hostId quickLoad env).2 := by
 rw [devmgrServiceAttachDeviceHost]
 split
 · exact Grows.refl s
 · have obtained : Grows s (s.obtainDeviceInfos config hostId) := by
    refine grows_of_devices ?_ rfl
    apply HdfSList.map_updateFirst
    intro hostClnt
    rw [DevHostServiceClnt.obtainDeviceInfos]
    split <;> rfl
   dsimp only
   split_ifs
   · exact obtained
   · exact obtained.trans installDriver_grows

end Calls

/-- The calls of the device manager, and the removal of a node from a host. -/
inductive HostCall where
 | devmgr (call : DevmgrCall)
 | delDevice (host devId : ℕ) (loader : Bool)

def hostStep (config : List HostConfig) (s : System) : HostCall → Option System
 | .devmgr call => devmgrStep config s call
 | .delDevice host devId loader => some (devHostServiceDelDevice s host devId loader).2

def System.nodeToRemove (s : System) (host devId : ℕ) (loader : Bool) : Option HdfDeviceNode :=
 if loader = false then none
 else (devHostServiceFindNode (s.services host) devId).map Prod.snd

/-- The node that a call removes from its host. -/
def removedBy (s : System) : HostCall → Option HdfDeviceNode
 | .delDevice host devId loader => s.nodeToRemove host devId loader
 | .devmgr (.unLoadDevice svcName env) => do
  let host := s.hosts.findIdx (hasInfo (ofSvcName svcName))
  let hostClnt ← s.hostClnt host
  let deviceInfo ← s.deviceInfo host (hostClnt.deviceInfos.findIdx (ofSvcName svcName))
  if hostClnt.hostService = true ∧ deviceInfo.preload ≠ .disable then
   s.nodeToRemove hostClnt.hostId deviceInfo.deviceId env.loader
  else none
 | .devmgr _ => none

/-- What should be left of a node that was removed. -/
def Cleared (s : System) (devNode : HdfDeviceNode) : Prop :=
 (∀ hostClnt ∈ s.hosts, devNode.devId ∉ hostClnt.devices ∧
  ∀ deviceInfo ∈ hostClnt.deviceInfos, deviceInfo.deviceId = devNode.devId →
   deviceInfo.status = .unusable) ∧
  ∀ record ∈ s.registry.services, record.value.address ≠ devNode.address

section Removed
variable {config : List HostConfig} {s t : System} {call : HostCall} {devNode : HdfDeviceNode}

theorem hostStep_grows (h : hostStep config s call = some t) : Grows s t := by
 cases call with
 | delDevice host devId loader =>
  cases h
  exact delDevice_grows
 | devmgr call =>
  cases call with
  | attachDeviceHost hostId quickLoad env =>
   cases h
   exact attachDeviceHost_grows
  | loadDevice svcName env | unLoadDevice svcName env =>
   cases h
   exact findAndActiveDevice_grows
  | loadLeftDriver env =>
   cases h
   exact loadLeftDriver_grows

theorem nodeToRemove_mem {host devId : ℕ} {loader : Bool}
  (h : s.nodeToRemove host devId loader = some devNode) :
  devNode.devId ∈ (s.services host).nodeIds := by
 rw [System.nodeToRemove] at h
 split_ifs at h
 obtain ⟨⟨device, node⟩, found, rfl⟩ := Option.map_eq_some_iff.mp h
 obtain ⟨there, hdevice, hnode⟩ := Option.bind_eq_some_iff.mp found
 obtain ⟨node, hnode, same⟩ := Option.map_eq_some_iff.mp hnode
 cases same
 exact List.mem_flatMap.mpr ⟨device, List.mem_of_find?_eq_some hdevice,
  List.mem_map_of_mem (List.mem_of_find?_eq_some hnode)⟩

theorem removedBy_mem (h : removedBy s call = some devNode) :
  ∃ host, devNode.devId ∈ (s.services host).nodeIds := by
 cases call with
 | delDevice host devId loader => exact ⟨host, nodeToRemove_mem h⟩
 | devmgr call =>
  cases call with
  | unLoadDevice svcName env =>
   obtain ⟨hostClnt, -, h⟩ := Option.bind_eq_some_iff.mp h
   obtain ⟨deviceInfo, -, h⟩ := Option.bind_eq_some_iff.mp h
   split_ifs at h
   exact ⟨hostClnt.hostId, nodeToRemove_mem h⟩
  | attachDeviceHost hostId quickLoad env | loadDevice svcName env | loadLeftDriver env => cases h

theorem start_registered {started : HdfHostInfo → Bool} {calls : List HostCall}
  (h : RunRules.exec (hostStep config) (System.start config started) calls = some s) :
  ∀ host, ∀ devid ∈ (s.services host).nodeIds, HasToken s devid := by
 apply RunRules.exec_invariant _ _ s calls _ h
 · intro s call t registered step host devid hmem
   have grows := hostStep_grows step
   rcases grows.nodes host devid hmem with before | token
   · exact grows.tokens devid (registered host devid before)
   · exact token
 · intro host devid hmem
   cases hmem

/-- No run clears what it removes: whatever follows, the token stays. -/
theorem removed_not_cleared (config : List HostConfig) (started : HdfHostInfo → Bool)
    (calls : List HostCall) (s : System)
    (hrun : RunRules.exec (hostStep config) (System.start config started) calls = some s)
    (call : HostCall) (devNode : HdfDeviceNode) (hremoved : removedBy s call = some devNode)
    (later : List HostCall) (t : System)
    (hlater : RunRules.exec (hostStep config) s (call :: later) = some t) :
    ¬Cleared t devNode := by
  obtain ⟨host, hmem⟩ := removedBy_mem hremoved
  have token : HasToken t devNode.devId := by
    apply RunRules.exec_invariant _ s t (call :: later) (start_registered hrun host _ hmem) hlater
    intro s call t held step
    exact (hostStep_grows step).tokens _ held
  rintro ⟨manager, -⟩
  obtain ⟨hostClnt, hhost, held⟩ := token
  exact (manager hostClnt hhost).1 held

end Removed

def oneNodeInstalled : System :=
 (devmgrServiceAttachDeviceHost oneNodeHost (System.start oneNodeHost fun _ => true) 0 false
  fun _ => workingDriver).2

def oneNodeUnloaded : System := (devmgrServiceUnLoadDevice oneNodeInstalled [115] workingDriver).2

def publicNode : HdfDeviceNode :=
 ⟨7, 0, 0, .policyPublic, [115], some 5, .launched, true, false⟩

theorem unloaded_not_cleared : ¬Cleared oneNodeUnloaded publicNode :=
  removed_not_cleared oneNodeHost (fun _ => true)
    [.devmgr (.attachDeviceHost 0 false fun _ => workingDriver)] oneNodeInstalled rfl
    (.devmgr (.unLoadDevice [115] workingDriver)) publicNode (by decide) [] oneNodeUnloaded rfl

/-- The node is gone from its host and from the service manager, and the device
manager has its token and calls it usable. -/
theorem unloaded_keeps_token :
    removedBy oneNodeInstalled (.devmgr (.unLoadDevice [115] workingDriver)) = some publicNode ∧
      (oneNodeUnloaded.services 0).devices = [] ∧ oneNodeUnloaded.registry.services = [] ∧
      (oneNodeUnloaded.hosts.flatMap DevHostServiceClnt.deviceInfos).map
        HdfDeviceInfo.status = [.usable] ∧
      ¬Cleared oneNodeUnloaded publicNode := by
  have held : ∃ hostClnt ∈ oneNodeUnloaded.hosts, 0 ∈ hostClnt.devices := by decide
  refine ⟨by decide, by decide, by decide, by decide, ?_⟩
  rintro ⟨manager, -⟩
  obtain ⟨hostClnt, hmem, token⟩ := held
  exact (manager hostClnt hmem).1 token

end DriversFramework.Devmgr
