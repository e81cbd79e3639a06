import Mathlib.Data.List.Nodup
import DriversFramework.PowerStateToken

/-! The device manager walks its hosts, a host its devices and a device its nodes.
The lists are those of the source: hosts and nodes in the order they were added,
devices in the opposite one. -/
namespace DriversFramework.Power

/-- `address` tells the nodes apart. -/
structure HdfDeviceNode where
 address : ℕ
 powerToken : Option PowerStateToken

structure HdfDevice where
 devNodes : List HdfDeviceNode

structure DevHostService where
 devices : List HdfDevice

structure DevHostServiceClnt where
 hostService : Option DevHostService

structure DevmgrService where
 hosts : List DevHostServiceClnt

abbrev Notified := ℕ × HdfPowerState

section Walks
variable (outcome : ℕ → HdfStatus) (state : HdfPowerState)

/-- What `PowerStateChange` returns and calls; a callback returns its outcome. -/
def notifyNode (node : HdfDeviceNode) (token : PowerStateToken) : HdfStatus × List Notified :=
 let called := powerStateChange token state
 (if called = [] then .success else outcome node.address,
  called.map fun event => (node.address, event))

def notifyNodes : HdfStatus → List HdfDeviceNode → HdfStatus × List Notified
 | ret, [] => (ret, [])
 | ret, node :: rest =>
  match node.powerToken with
  | none => notifyNodes ret rest
  | some token =>
   let here := notifyNode outcome state node token
   let later := notifyNodes here.1 rest
   (later.1, here.2 ++ later.2)

def applyDevicesPowerState (device : HdfDevice) : HdfStatus × List Notified :=
 let nodes := if state.isPowerWakeState then device.devNodes else device.devNodes.reverse
 (.success, (notifyNodes outcome state .success nodes).2)

def notifyDevices : HdfStatus → List HdfDevice → HdfStatus × List Notified
 | ret, [] => (ret, [])
 | ret, device :: rest =>
  let here := applyDevicesPowerState outcome state device
  let later := notifyDevices (if here.1 ≠ .success then .failure else ret) rest
  (later.1, here.2 ++ later.2)

def devHostServicePmNotify (service : DevHostService) : HdfStatus × List Notified :=
 notifyDevices outcome state .success
  (if state.isPowerWakeState then service.devices.reverse else service.devices)

def notifyHosts : HdfStatus → List DevHostServiceClnt → HdfStatus × List Notified
 | result, [] => (result, [])
 | result, hostClient :: rest =>
  match hostClient.hostService with
  | none => notifyHosts result rest
  | some hostService =>
   let here := devHostServicePmNotify outcome state hostService
   let later := notifyHosts (if here.1 ≠ .success then .failure else result) rest
   (later.1, here.2 ++ later.2)

def devmgrServicePowerStateChange (devmgr : DevmgrService) : HdfStatus × List Notified :=
 notifyHosts outcome state .success
  (if state.isPowerWakeState then devmgr.hosts else devmgr.hosts.reverse)

end Walks

/-- The nodes of the hosts that run, in the order in which they resume. -/
def DevmgrService.resumeOrder (devmgr : DevmgrService) : List HdfDeviceNode :=
 devmgr.hosts.flatMap fun hostClient =>
  hostClient.hostService.toList.flatMap fun service =>
   service.devices.reverse.flatMap HdfDevice.devNodes

/-- A node under system control whose listener serves the event. -/
def HdfDeviceNode.listens (node : HdfDeviceNode) (state : HdfPowerState) : Bool :=
 node.powerToken.any fun token =>
  token.mode == .sysCtrl && token.listener.any fun listener => listener state

section Order
variable (outcome : ℕ → HdfStatus) (state : HdfPowerState)

/-- The callbacks of a list of nodes, one after the other. -/
def callbacks (nodes : List HdfDeviceNode) : List Notified :=
 (nodes.filter fun node => node.listens state).map fun node => (node.address, state)

theorem callbacks_append (front back : List HdfDeviceNode) :
  callbacks state (front ++ back) = callbacks state front ++ callbacks state back := by
 simp [callbacks]

theorem callbacks_flatMap {α : Type} (f : α → List HdfDeviceNode) (list : List α) :
  callbacks state (list.flatMap f) = list.flatMap fun a => callbacks state (f a) := by
 induction list with
 | nil => rfl
 | cons a list ih => rw [List.flatMap_cons, callbacks_append, ih, List.flatMap_cons]

theorem notifyNode_calls (node : HdfDeviceNode) (token : PowerStateToken)
  (htoken : node.powerToken = some token) :
  (notifyNode outcome state node token).2 = callbacks state [node] := by
 rw [notifyNode, powerStateChange, PowerStateToken.callback]
 by_cases mode : token.mode = .sysCtrl
 · cases listener : token.listener with
   | none => simp [callbacks, HdfDeviceNode.listens, htoken, listener]
   | some serves =>
    by_cases served : serves state <;>
     simp [callbacks, HdfDeviceNode.listens, htoken, mode, listener, served]
 · simp [callbacks, HdfDeviceNode.listens, htoken, mode]

theorem notifyNodes_calls (nodes : List HdfDeviceNode) (ret : HdfStatus) :
  (notifyNodes outcome state ret nodes).2 = callbacks state nodes := by
 induction nodes generalizing ret with
 | nil => rfl
 | cons node rest ih =>
  rw [← List.singleton_append, callbacks_append, List.singleton_append, notifyNodes]
  cases htoken : node.powerToken with
  | none =>
   have silent : callbacks state [node] = [] := by
    simp [callbacks, HdfDeviceNode.listens, htoken]
   rw [silent, List.nil_append]
   exact ih ret
  | some token =>
   dsimp only
   rw [notifyNode_calls outcome state node token htoken, ih]

theorem notifyDevices_calls (devices : List HdfDevice) (ret : HdfStatus) :
  (notifyDevices outcome state ret devices).2 =
   devices.flatMap fun device => (applyDevicesPowerState outcome state device).2 := by
 induction devices generalizing ret with
 | nil => rfl
 | cons device rest ih =>
  rw [notifyDevices, List.flatMap_cons]
  dsimp only
  rw [ih]

theorem notifyHosts_calls (hosts : List DevHostServiceClnt) (result : HdfStatus) :
  (notifyHosts outcome state result hosts).2 =
   hosts.flatMap fun hostClient => hostClient.hostService.toList.flatMap fun service =>
    (devHostServicePmNotify outcome state service).2 := by
 induction hosts generalizing result with
 | nil => rfl
 | cons hostClient rest ih =>
  rw [notifyHosts, List.flatMap_cons]
  cases hostClient.hostService with
  | none => exact ih result
  | some service =>
   dsimp only
   rw [ih]
   simp

theorem wake_calls (devmgr : DevmgrService) (hwake : state.isPowerWakeState = true) :
  (devmgrServicePowerStateChange outcome state devmgr).2 =
   callbacks state devmgr.resumeOrder := by
 rw [devmgrServicePowerStateChange, notifyHosts_calls, if_pos hwake, DevmgrService.resumeOrder]
 simp only [callbacks_flatMap, devHostServicePmNotify, notifyDevices_calls,
  applyDevicesPowerState, notifyNodes_calls, hwake, if_true]

theorem sleep_calls (devmgr : DevmgrService) (hsleep : state.isPowerWakeState = false) :
  (devmgrServicePowerStateChange outcome state devmgr).2 =
   callbacks state devmgr.resumeOrder.reverse := by
 have notWake : ¬state.isPowerWakeState = true := by rw [hsleep]; nofun
 have single : ∀ service : Option DevHostService, service.toList.reverse = service.toList := by
  rintro (_ | _) <;> rfl
 rw [devmgrServicePowerStateChange, notifyHosts_calls, if_neg notWake, DevmgrService.resumeOrder,
  List.reverse_flatMap]
 simp only [Function.comp_def, List.reverse_flatMap, List.reverse_reverse, callbacks_flatMap,
  devHostServicePmNotify, notifyDevices_calls, applyDevicesPowerState, notifyNodes_calls,
  hsleep, single, Bool.false_eq_true, if_false]

theorem callbacks_once {nodes : List HdfDeviceNode} {node : HdfDeviceNode}
  (distinct : (nodes.map HdfDeviceNode.address).Nodup) (hnode : node ∈ nodes)
  (listens : node.listens state = true) :
  (callbacks state nodes).count (node.address, state) = 1 := by
 apply List.count_eq_one_of_mem
 · apply List.Nodup.of_map Prod.fst
   rw [callbacks, List.map_map]
   exact distinct.sublist (List.filter_sublist.map _)
 · exact List.mem_map.mpr ⟨node, List.mem_filter.mpr ⟨hnode, listens⟩, rfl⟩

end Order

/-- Whatever callbacks fail, a wake event is called in the order of the
population and a sleep event in the opposite one, for the nodes that listen and
once for each. -/
theorem powerStateChange_ordered (devmgr : DevmgrService)
    (distinct : (devmgr.resumeOrder.map HdfDeviceNode.address).Nodup) (outcome : ℕ → HdfStatus) :
    (∀ wake : HdfPowerState, wake.isPowerWakeState = true →
      (devmgrServicePowerStateChange outcome wake devmgr).2 =
        callbacks wake devmgr.resumeOrder) ∧
    (∀ sleep : HdfPowerState, sleep.isPowerWakeState = false →
      (devmgrServicePowerStateChange outcome sleep devmgr).2 =
        callbacks sleep devmgr.resumeOrder.reverse) ∧
    ∀ (state : HdfPowerState) (node : HdfDeviceNode), node ∈ devmgr.resumeOrder →
      node.listens state = true →
        (devmgrServicePowerStateChange outcome state devmgr).2.count (node.address, state) = 1 := by
  refine ⟨fun wake => wake_calls outcome wake devmgr,
    fun sleep => sleep_calls outcome sleep devmgr, ?_⟩
  intro state node hnode listens
  cases hwake : state.isPowerWakeState with
  | true =>
    rw [wake_calls outcome state devmgr hwake]
    exact callbacks_once state distinct hnode listens
  | false =>
    rw [sleep_calls outcome state devmgr hwake]
    apply callbacks_once state _ (List.mem_reverse.mpr hnode) listens
    rw [List.map_reverse, List.nodup_reverse]
    exact distinct

/-- One host, two devices; the first device has two nodes that listen to all
events, the second one that registered no listener. -/
def samplePopulation : DevmgrService :=
 ⟨[⟨some ⟨[⟨[⟨0, some ⟨some fun _ => true, 0, .idle, .sysCtrl⟩⟩,
   ⟨1, some ⟨some fun _ => true, 0, .idle, .sysCtrl⟩⟩]⟩, ⟨[⟨2, none⟩]⟩]⟩⟩]⟩

theorem powerStateChange_sample :
    (devmgrServicePowerStateChange (fun _ => .failure) .suspend samplePopulation).2.count
      (1, .suspend) = 1 := by
  apply (powerStateChange_ordered samplePopulation (by decide) fun _ => .failure).2.2 .suspend
    ⟨1, some ⟨some fun _ => true, 0, .idle, .sysCtrl⟩⟩
  · simp [samplePopulation, DevmgrService.resumeOrder]
  · rfl

/-- A node without a power listener is in the population and is not notified. -/
theorem silent_node_not_notified : 2 ∈ samplePopulation.resumeOrder.map HdfDeviceNode.address ∧
      (devmgrServicePowerStateChange (fun _ => .success) .suspend samplePopulation).2 =
        [(1, .suspend), (0, .suspend)] := by
  decide

end DriversFramework.Power
