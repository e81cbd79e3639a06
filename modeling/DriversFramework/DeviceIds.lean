import Mathlib.Tactic.Ring
import DriversFramework.HdfAttribute
import DriversFramework.RunRules

/-! The information keeps the low half of a device id, so the part of the host is
lost, and the index of the node starts again with each node. -/
namespace DriversFramework.Devmgr

inductive AttributeCall where
 | getDeviceList (hostId : ℕ)
 | deviceListAdd (moduleName serviceName : List UInt8)
 | deviceListDel (moduleName serviceName : List UInt8)
 deriving DecidableEq

/-- The clients of the hosts after a call; a list is obtained for the client that
is found with the id. -/
def attributeStep (config : List HostConfig) (hosts : List DevHostServiceClnt) :
  AttributeCall → Option (List DevHostServiceClnt)
 | .getDeviceList hostId =>
  some (HdfSList.updateFirst (ofHost hostId) (DevHostServiceClnt.obtainDeviceInfos config) hosts)
 | .deviceListAdd moduleName serviceName => some (hdfDeviceListAdd hosts moduleName serviceName).2
 | .deviceListDel moduleName serviceName => some (hdfDeviceListDel hosts moduleName serviceName)

def DevHostServiceClnt.deviceIds (hostClnt : DevHostServiceClnt) : List ℕ :=
 hostClnt.deviceInfos.map HdfDeviceInfo.deviceId

def liveIds (hosts : List DevHostServiceClnt) : List ℕ :=
 hosts.flatMap DevHostServiceClnt.deviceIds

/-- The ids of the live entries differ and name their hosts. -/
def IdsRight (hosts : List DevHostServiceClnt) : Prop :=
 (liveIds hosts).Nodup ∧
  ∀ hostClnt ∈ hosts, ∀ devid ∈ hostClnt.deviceIds, hostid devid = hostClnt.hostId

def validPositions : ℕ → List (List DeviceNodeConfig) → List ℕ
 | _, [] => []
 | deviceIdx, device :: rest =>
  (device.filter fun deviceNode => (getDeviceNodeInfo 0 deviceNode).isSome).map
    (fun _ => deviceIdx) ++
   validPositions (deviceIdx + 1) rest

def hostPositions (config : List HostConfig) (hostName : List UInt8) : List ℕ :=
 match getHostNode config hostName with
 | none => []
 | some hostNode => validPositions 0 hostNode.devices

/-- A list is obtained for host 0 only, if it is not empty, from devices with one
valid node each whose positions differ in 8 bits; an entry is added when no live
entry has the count of the host for its id. -/
def FreshIds (config : List HostConfig) (hosts : List DevHostServiceClnt) : AttributeCall → Prop
 | .getDeviceList hostId => ∀ hostClnt, hosts.find? (ofHost hostId) = some hostClnt →
   (hostPositions config hostClnt.hostName ≠ [] → hostId = 0) ∧
    ((hostPositions config hostClnt.hostName).map (· % 2 ^ 8)).Nodup
 | .deviceListAdd moduleName _ => ∀ hostClnt,
   hosts.find? (hasInfo (ofModule moduleName)) = some hostClnt →
    hostClnt.devCount ∉ liveIds hosts
 | .deviceListDel _ _ => True

section Ids

theorem hostid_small {devid : ℕ} (h : devid < 2 ^ 16) : hostid devid = 0 := by
 rw [hostid, Nat.shiftRight_eq_div_pow]
 exact Nat.div_eq_of_lt (by omega)

theorem mkDevid_kept (hostId deviceId : ℕ) :
  mkDevid hostId deviceId 0 % 2 ^ 16 = 2 ^ 8 * (deviceId % 2 ^ 8) := by
 have host : (hostId <<< 24) % 2 ^ 16 = 0 := by
  rw [Nat.shiftLeft_eq]
  omega
 rw [mkDevid, Nat.or_mod_two_pow, Nat.or_mod_two_pow, host, Nat.zero_or, Nat.zero_mod,
  Nat.or_zero, Nat.shiftLeft_eq]
 omega

theorem isSome_bind_congr {α β γ : Type} (value : Option α) {f : α → Option β} {g : α → Option γ}
  (same : ∀ a, (f a).isSome = (g a).isSome) : (value.bind f).isSome = (value.bind g).isSome := by
 cases value with
 | none => rfl
 | some a => exact same a

theorem getDeviceNodeInfo_host (hostId : ℕ) (deviceNode : DeviceNodeConfig) :
  (getDeviceNodeInfo hostId deviceNode).isSome = (getDeviceNodeInfo 0 deviceNode).isSome := by
 apply isSome_bind_congr
 intro policy
 apply isSome_bind_congr
 intro priority
 apply isSome_bind_congr
 intro preload
 apply isSome_bind_congr
 intro permission
 apply isSome_bind_congr
 intro moduleName
 apply isSome_bind_congr
 intro svcName
 apply isSome_bind_congr
 intro deviceMatchAttr
 dsimp only
 split_ifs with here there
 · rfl
 · exact absurd here there
 · rename_i there
   exact absurd there here
 · rfl

variable {hostId : ℕ}

theorem addDeviceNodes_ids (deviceIdx : ℕ) (device : List DeviceNodeConfig)
  (deviceList : List HdfDeviceInfo) :
  ((addDeviceNodes hostId deviceIdx device deviceList).map HdfDeviceInfo.deviceId).Perm
   ((device.filter fun deviceNode => (getDeviceNodeInfo 0 deviceNode).isSome).map
    (fun _ => 2 ^ 8 * (deviceIdx % 2 ^ 8)) ++ deviceList.map HdfDeviceInfo.deviceId) := by
 induction device generalizing deviceList with
 | nil => exact List.Perm.refl _
 | cons deviceNode rest ih =>
  have valid := getDeviceNodeInfo_host hostId deviceNode
  rw [addDeviceNodes, List.filter_cons, ← valid]
  cases getDeviceNodeInfo hostId deviceNode with
  | none => exact ih deviceList
  | some deviceNodeInfo =>
   refine (ih _).trans ?_
   rw [Option.isSome_some, if_pos rfl, List.map_cons, List.cons_append]
   have added := (HdfSList.addOrder_perm
    (fun first second : HdfDeviceInfo => first.priority ≤ second.priority) deviceList
    { deviceNodeInfo with deviceId := mkDevid hostId deviceIdx 0 % 2 ^ 16 }).map
      HdfDeviceInfo.deviceId
   rw [List.map_cons] at added
   rw [← mkDevid_kept hostId deviceIdx]
   exact (added.append_left _).trans List.perm_middle

theorem addDevices_ids (devices : List (List DeviceNodeConfig)) (deviceIdx position : ℕ)
  (deviceList : List HdfDeviceInfo) (counted : deviceIdx % 2 ^ 8 = position % 2 ^ 8) :
  ((addDevices hostId deviceIdx devices deviceList).map HdfDeviceInfo.deviceId).Perm
   ((validPositions position devices).map (fun p => 2 ^ 8 * (p % 2 ^ 8)) ++
    deviceList.map HdfDeviceInfo.deviceId) := by
 induction devices generalizing deviceIdx position deviceList with
 | nil => exact List.Perm.refl _
 | cons device rest ih =>
  have later := ih ((deviceIdx + 1) % 2 ^ 16) (position + 1)
   (addDeviceNodes hostId deviceIdx device deviceList) (by omega)
  rw [addDevices, validPositions, List.map_append, List.map_map, List.append_assoc]
  refine later.trans (((addDeviceNodes_ids deviceIdx device deviceList).append_left _).trans ?_)
  rw [counted]
  exact List.perm_append_comm_assoc _ _ _

theorem obtained_ids (config : List HostConfig) (hostClnt : DevHostServiceClnt) :
  (hostClnt.obtainDeviceInfos config).deviceIds.Perm
   ((hostPositions config hostClnt.hostName).map fun p => 2 ^ 8 * (p % 2 ^ 8)) := by
 rw [DevHostServiceClnt.obtainDeviceInfos, hdfAttributeManagerGetDeviceList, hostPositions]
 cases getHostNode config hostClnt.hostName with
 | none => exact List.Perm.refl _
 | some hostNode =>
  have ids := @addDevices_ids hostClnt.hostId hostNode.devices 0 0 [] rfl
  rw [List.map_nil, List.append_nil] at ids
  dsimp only
  split_ifs with none
  · rw [none] at ids
    exact ids
  · exact ids

theorem obtained_hostId (config : List HostConfig) (hostClnt : DevHostServiceClnt) :
  (hostClnt.obtainDeviceInfos config).hostId = hostClnt.hostId := by
 rw [DevHostServiceClnt.obtainDeviceInfos]
 split <;> rfl

end Ids

structure IdsTracked (hosts : List DevHostServiceClnt) : Prop where
 right : IdsRight hosts
 small : ∀ hostClnt ∈ hosts,
  hostClnt.devCount < 2 ^ 16 ∧ ∀ devid ∈ hostClnt.deviceIds, devid < 2 ^ 16
 firsts : hosts.Pairwise fun a b => a.hostId = b.hostId → b.deviceIds = []

section Change
variable {front back : List DevHostServiceClnt} {hostClnt changed : DevHostServiceClnt}

theorem liveIds_split : liveIds (front ++ hostClnt :: back) =
   liveIds front ++ (hostClnt.deviceIds ++ liveIds back) := by
 simp [liveIds]

theorem IdsTracked.hostId_zero {hosts : List DevHostServiceClnt} (h : IdsTracked hosts)
  (hmem : hostClnt ∈ hosts) (hne : hostClnt.deviceIds ≠ []) : hostClnt.hostId = 0 := by
 obtain ⟨devid, hdevid⟩ := List.exists_mem_of_ne_nil _ hne
 rw [← h.right.2 hostClnt hmem devid hdevid]
 exact hostid_small ((h.small hostClnt hmem).2 devid hdevid)

theorem mem_split : hostClnt ∈ front ++ hostClnt :: back := by simp

theorem IdsTracked.alone (h : IdsTracked (front ++ hostClnt :: back)) (hzero : hostClnt.hostId = 0)
  (hfront : ∀ other ∈ front, other.hostId ≠ hostClnt.hostId) :
  liveIds front = [] ∧ liveIds back = [] := by
 have empty : ∀ other ∈ front ++ hostClnt :: back, other.hostId ≠ 0 → other.deviceIds = [] := by
  intro other hmem hother
  by_contra hne
  exact hother (h.hostId_zero hmem hne)
 constructor
 · apply List.flatMap_eq_nil_iff.mpr
   intro other hmem
   apply empty other (List.mem_append_left _ hmem)
   rw [← hzero]
   exact hfront other hmem
 · apply List.flatMap_eq_nil_iff.mpr
   intro other hmem
   by_cases same : other.hostId = 0
   · obtain ⟨-, later, -⟩ := List.pairwise_append.mp h.firsts
     exact (List.pairwise_cons.mp later).1 other hmem (hzero.trans same.symm)
   · exact empty other (by simp [hmem]) same

theorem IdsTracked.change (h : IdsTracked (front ++ hostClnt :: back))
  (hhost : changed.hostId = hostClnt.hostId)
  (hsmall : changed.devCount < 2 ^ 16 ∧ ∀ devid ∈ changed.deviceIds, devid < 2 ^ 16)
  (hzero : changed.deviceIds ≠ [] → hostClnt.hostId = 0)
  (hfirst : changed.deviceIds ≠ [] → ∀ other ∈ front, other.hostId ≠ hostClnt.hostId)
  (hnodup : (liveIds (front ++ changed :: back)).Nodup) :
  IdsTracked (front ++ changed :: back) where
 right := by
  refine ⟨hnodup, ?_⟩
  intro other hmem devid hdevid
  rcases List.mem_append.mp hmem with before | after
  · exact h.right.2 other (List.mem_append_left _ before) devid hdevid
  · rcases List.mem_cons.mp after with rfl | behind
    · rw [hhost, hzero (List.ne_nil_of_mem hdevid)]
      exact hostid_small (hsmall.2 devid hdevid)
    · exact h.right.2 other (by simp [behind]) devid hdevid
 small := by
  intro other hmem
  rcases List.mem_append.mp hmem with before | after
  · exact h.small other (List.mem_append_left _ before)
  · rcases List.mem_cons.mp after with rfl | behind
    · exact hsmall
    · exact h.small other (by simp [behind])
 firsts := by
  obtain ⟨hfront, hrest, hcross⟩ := List.pairwise_append.mp h.firsts
  obtain ⟨hback, hbehind⟩ := List.pairwise_cons.mp hrest
  apply List.pairwise_append.mpr
  refine ⟨hfront, List.pairwise_cons.mpr ⟨?_, hbehind⟩, ?_⟩
  · intro other hmem same
    exact hback other hmem (hhost.symm.trans same)
  · intro other hmem later hlater same
    rcases List.mem_cons.mp hlater with rfl | behind
    · by_contra hne
      exact hfirst hne other hmem (same.trans hhost)
    · exact hcross other hmem later (List.mem_cons_of_mem _ behind) same

theorem IdsTracked.first (h : IdsTracked (front ++ hostClnt :: back))
  (hne : hostClnt.deviceIds ≠ []) : ∀ other ∈ front, other.hostId ≠ hostClnt.hostId := by
 intro other hmem same
 obtain ⟨-, -, hcross⟩ := List.pairwise_append.mp h.firsts
 exact hne (hcross other hmem hostClnt List.mem_cons_self same)

end Change

section Calls
variable {config : List HostConfig} {hosts : List DevHostServiceClnt} {hostClnt : DevHostServiceClnt}
  {hostId : ℕ} {moduleName serviceName : List UInt8}

theorem obtained_small (hsmall : hostClnt.devCount < 2 ^ 16) :
  (hostClnt.obtainDeviceInfos config).devCount < 2 ^ 16 ∧
   ∀ devid ∈ (hostClnt.obtainDeviceInfos config).deviceIds, devid < 2 ^ 16 := by
 constructor
 · rw [DevHostServiceClnt.obtainDeviceInfos]
   split
   · exact hsmall
   · exact Nat.mod_lt _ (by decide)
 · intro devid hmem
   obtain ⟨position, -, rfl⟩ := List.mem_map.mp ((obtained_ids config hostClnt).mem_iff.mp hmem)
   omega

theorem obtained_ne_nil (h : (hostClnt.obtainDeviceInfos config).deviceIds ≠ []) :
  hostPositions config hostClnt.hostName ≠ [] := by
 intro none
 have ids := obtained_ids config hostClnt
 rw [none] at ids
 exact h ids.eq_nil

theorem obtained_nodup_iff : (hostClnt.obtainDeviceInfos config).deviceIds.Nodup ↔
  ((hostPositions config hostClnt.hostName).map (· % 2 ^ 8)).Nodup := by
 have scaled : Function.Injective fun low : ℕ => 2 ^ 8 * low := by
  intro a b h
  exact Nat.eq_of_mul_eq_mul_left (by decide) h
 have low := @List.nodup_map_iff _ _ _
  ((hostPositions config hostClnt.hostName).map (· % 2 ^ 8)) scaled
 rw [List.map_map] at low
 exact (obtained_ids config hostClnt).nodup_iff.trans low

theorem getDeviceList_tracked (h : IdsTracked hosts)
  (fresh : FreshIds config hosts (.getDeviceList hostId)) :
  IdsTracked (HdfSList.updateFirst (ofHost hostId)
   (DevHostServiceClnt.obtainDeviceInfos config) hosts) := by
 cases found : hosts.find? (ofHost hostId) with
 | none =>
  rw [HdfSList.updateFirst_of_none found]
  exact h
 | some hostClnt =>
  obtain ⟨hzero, hnodup⟩ := fresh hostClnt found
  obtain ⟨front, back, rfl, changed, same, before⟩ := HdfSList.updateFirst_split (DevHostServiceClnt.obtainDeviceInfos config) found
  have hid : hostClnt.hostId = hostId := of_decide_eq_true same
  have hfront : ∀ other ∈ front, other.hostId ≠ hostClnt.hostId := by
   intro other hmem equal
   exact of_decide_eq_false (before other hmem) (equal.trans hid)
  rw [changed]
  apply h.change (obtained_hostId config hostClnt) (obtained_small (h.small _ mem_split).1)
  · intro hne
    rw [hid]
    exact hzero (obtained_ne_nil hne)
  · exact fun _ => hfront
  · have ids := obtained_nodup_iff.mpr hnodup
    by_cases hne : (hostClnt.obtainDeviceInfos config).deviceIds = []
    · have old := h.right.1
      rw [liveIds_split] at old ⊢
      rw [hne]
      exact old.sublist ((List.sublist_append_right _ _).append_left _)
    · have alone := h.alone (hid.trans (hzero (obtained_ne_nil hne))) hfront
      rw [liveIds_split, alone.1, alone.2, List.append_nil]
      exact ids

theorem getDeviceList_fresh (h : IdsRight (HdfSList.updateFirst (ofHost hostId)
   (DevHostServiceClnt.obtainDeviceInfos config) hosts)) :
  FreshIds config hosts (.getDeviceList hostId) := by
 intro hostClnt found
 obtain ⟨front, back, rfl, changed, same, -⟩ := HdfSList.updateFirst_split (DevHostServiceClnt.obtainDeviceInfos config) found
 have hid : hostClnt.hostId = hostId := of_decide_eq_true same
 obtain ⟨hnodup, hright⟩ := h
 rw [changed] at hnodup hright
 rw [liveIds_split] at hnodup
 constructor
 · intro hne
   obtain ⟨position, hposition⟩ := List.exists_mem_of_ne_nil _ hne
   have hmem : 2 ^ 8 * (position % 2 ^ 8) ∈ (hostClnt.obtainDeviceInfos config).deviceIds :=
    (obtained_ids config hostClnt).mem_iff.mpr (List.mem_map_of_mem hposition)
   have part := hright _ mem_split _ hmem
   rw [obtained_hostId, hid, hostid_small (by omega)] at part
   exact part.symm
 · exact obtained_nodup_iff.mp hnodup.of_append_right.of_append_left

theorem addDeviceInfo_ids (h : hasInfo (ofModule moduleName) hostClnt = true) :
  (hostClnt.addDeviceInfo moduleName serviceName).deviceIds =
    hostClnt.devCount :: hostClnt.deviceIds ∧
   (hostClnt.addDeviceInfo moduleName serviceName).hostId = hostClnt.hostId ∧
   (hostClnt.addDeviceInfo moduleName serviceName).devCount < 2 ^ 16 := by
 obtain ⟨deviceInfo, found⟩ := Option.isSome_iff_exists.mp (by
  rw [List.find?_isSome]
  exact List.any_eq_true.mp h :
   (hostClnt.deviceInfos.find? (ofModule moduleName)).isSome = true)
 rw [DevHostServiceClnt.addDeviceInfo, found]
 refine ⟨?_, rfl, Nat.mod_lt _ (by decide)⟩
 exact congrArg (List.cons hostClnt.devCount)
  (HdfSList.map_updateFirst hostClnt.deviceInfos fun _ => rfl)

theorem hasInfo_ne_nil {serves : HdfDeviceInfo → Bool} (h : hasInfo serves hostClnt = true) :
  hostClnt.deviceIds ≠ [] := by
 obtain ⟨deviceInfo, hmem, -⟩ := List.any_eq_true.mp h
 exact List.ne_nil_of_mem (List.mem_map_of_mem hmem)

theorem deviceListAdd_tracked (h : IdsTracked hosts)
  (fresh : FreshIds config hosts (.deviceListAdd moduleName serviceName)) :
  IdsTracked (hdfDeviceListAdd hosts moduleName serviceName).2 := by
 rw [hdfDeviceListAdd]
 cases found : hosts.find? (hasInfo (ofModule moduleName)) with
 | none => exact h
 | some hostClnt =>
  have unused := fresh hostClnt found
  obtain ⟨front, back, rfl, changed, serves, -⟩ := HdfSList.updateFirst_split
   (DevHostServiceClnt.addDeviceInfo moduleName serviceName) found
  obtain ⟨ids, sameHost, count⟩ := @addDeviceInfo_ids hostClnt moduleName serviceName serves
  have hne := hasInfo_ne_nil serves
  obtain ⟨countSmall, idsSmall⟩ := h.small hostClnt mem_split
  dsimp only
  rw [changed]
  apply h.change sameHost
  · rw [ids]
    exact ⟨count, List.forall_mem_cons.mpr ⟨countSmall, idsSmall⟩⟩
  · exact fun _ => h.hostId_zero mem_split hne
  · exact fun _ => h.first hne
  · rw [liveIds_split, ids]
    rw [liveIds_split] at unused
    have old := h.right.1
    rw [liveIds_split] at old
    apply List.perm_middle.nodup_iff.mpr
    exact List.nodup_cons.mpr ⟨unused, old⟩

theorem deviceListAdd_fresh (h : IdsRight (hdfDeviceListAdd hosts moduleName serviceName).2) :
  FreshIds config hosts (.deviceListAdd moduleName serviceName) := by
 intro hostClnt found
 rw [hdfDeviceListAdd, found] at h
 obtain ⟨front, back, rfl, changed, serves, -⟩ := HdfSList.updateFirst_split
  (DevHostServiceClnt.addDeviceInfo moduleName serviceName) found
 obtain ⟨ids, -, -⟩ := @addDeviceInfo_ids hostClnt moduleName serviceName serves
 have hnodup := h.1
 dsimp only at hnodup
 rw [changed, liveIds_split, ids] at hnodup
 rw [liveIds_split]
 exact (List.nodup_cons.mp (List.perm_middle.nodup_iff.mp hnodup)).1

theorem deviceListDel_tracked (h : IdsTracked hosts) :
  IdsTracked (hdfDeviceListDel hosts moduleName serviceName) := by
 rw [hdfDeviceListDel]
 cases found : hosts.find? (hasInfo (ofService moduleName serviceName)) with
 | none =>
  rw [HdfSList.updateFirst_of_none found]
  exact h
 | some hostClnt =>
  obtain ⟨front, back, rfl, changed, serves, -⟩ := HdfSList.updateFirst_split
   (DevHostServiceClnt.delDeviceInfo moduleName serviceName) found
  have hne := hasInfo_ne_nil serves
  have fewer : (hostClnt.delDeviceInfo moduleName serviceName).deviceIds.Sublist
    hostClnt.deviceIds := List.eraseP_sublist.map _
  have sameHost : (hostClnt.delDeviceInfo moduleName serviceName).hostId = hostClnt.hostId := by
   rw [DevHostServiceClnt.delDeviceInfo]
  rw [changed]
  apply h.change sameHost
  · refine ⟨Nat.mod_lt _ (by decide), ?_⟩
    intro devid hmem
    exact (h.small hostClnt mem_split).2 devid (fewer.subset hmem)
  · exact fun _ => h.hostId_zero mem_split hne
  · exact fun _ => h.first hne
  · have old := h.right.1
    rw [liveIds_split] at old ⊢
    exact old.sublist ((fewer.append_right _).append_left _)

end Calls

theorem started_tracked (config : List HostConfig) (started : HdfHostInfo → Bool) :
  IdsTracked (devmgrServiceStartDeviceHosts config started) := by
 have fresh : ∀ hostClnt ∈ devmgrServiceStartDeviceHosts config started,
   hostClnt.deviceIds = [] ∧ hostClnt.devCount = 0 := by
  intro hostClnt hmem
  obtain ⟨hostAttr, -, rfl⟩ := List.mem_map.mp hmem
  exact ⟨rfl, rfl⟩
 constructor
 · constructor
   · have none : liveIds (devmgrServiceStartDeviceHosts config started) = [] := by
      apply List.flatMap_eq_nil_iff.mpr
      exact fun hostClnt hmem => (fresh hostClnt hmem).1
     rw [none]
     exact List.nodup_nil
   · intro hostClnt hmem devid hdevid
     rw [(fresh hostClnt hmem).1] at hdevid
     cases hdevid
 · intro hostClnt hmem
   rw [(fresh hostClnt hmem).1, (fresh hostClnt hmem).2]
   exact ⟨by decide, nofun⟩
 · apply List.Pairwise.imp_of_mem (R := fun _ _ => True)
   · intro a b _ hmem _ _
     exact (fresh b hmem).1
   · exact List.pairwise_of_forall fun _ _ => trivial

/-- The ids stay right in a run exactly when each call finds fresh ones. -/
theorem ids_right_iff_fresh (config : List HostConfig) (started : HdfHostInfo → Bool)
    (calls : List AttributeCall) :
    RunRules.Safe (attributeStep config) IdsRight
        (devmgrServiceStartDeviceHosts config started) calls ↔
      RunRules.Along (attributeStep config) (FreshIds config)
        (devmgrServiceStartDeviceHosts config started) calls := by
  apply RunRules.safe_iff_along_of (A := fun _ => True) (fun _ => IdsTracked.right)
  · intro hosts call h fresh
    cases call with
    | getDeviceList hostId => exact ⟨_, rfl, getDeviceList_tracked h fresh⟩
    | deviceListAdd moduleName serviceName =>
      exact ⟨_, rfl, @deviceListAdd_tracked config _ _ _ h fresh⟩
    | deviceListDel moduleName serviceName => exact ⟨_, rfl, deviceListDel_tracked h⟩
  · rintro hosts call - - ⟨after, step, right⟩
    cases call with
    | getDeviceList hostId =>
      cases step
      exact getDeviceList_fresh right
    | deviceListAdd moduleName serviceName =>
      cases step
      exact deviceListAdd_fresh right
    | deviceListDel moduleName serviceName => trivial
  · exact started_tracked config started
  · exact fun _ _ => trivial

def sampleNode : DeviceNodeConfig :=
 ⟨some 1, some 100, some 0, some 0, some [109], some [115], some []⟩

/-- Two hosts; the only device of the first has two nodes. -/
def sampleHosts : List HostConfig :=
 [⟨some [97], some 50, [[sampleNode, sampleNode]]⟩, ⟨some [98], some 60, [[sampleNode]]⟩]

/-- The two nodes of a device share an id, and so does the node of the other host. -/
theorem nodes_share_id : ((RunRules.exec (attributeStep sampleHosts)
        (devmgrServiceStartDeviceHosts sampleHosts fun _ => true)
        [.getDeviceList 0, .getDeviceList 1]).map fun hosts =>
      (liveIds hosts, hosts.map DevHostServiceClnt.hostId)) = some ([0, 0, 0], [0, 1]) ∧
    ¬RunRules.Safe (attributeStep sampleHosts) IdsRight
      (devmgrServiceStartDeviceHosts sampleHosts fun _ => true) [.getDeviceList 0] := by
  refine ⟨by decide, ?_⟩
  intro h
  obtain ⟨hosts, run, hnodup, -⟩ := h [.getDeviceList 0] (List.prefix_refl _)
  have twice : liveIds hosts = [0, 0] := by
    cases run
    decide
  rw [twice] at hnodup
  exact absurd hnodup (by decide)

end DriversFramework.Devmgr
