import DriversFramework.RunRules

/-! Start, registrations and shutdown (`message_router.c`), with the local message node
(`local_node.c`), in the one build in which neither kind of remote node is compiled. Which
internal steps of a call fail is an input of the call. An index outside of a table is never
read or written, so that a loop over a table is written for all indices. -/
namespace DriversFramework.MessageRouter

open RunRules

inductive MeStatus where
 | stopped
 | startting
 | running
 | stopping
 | toDestroy
 deriving DecidableEq

inductive ErrorCode where
 | success
 | nullPtr
 | operMutexFailed
 | mutiInitNotAllowed
 | wrongStatus
 | serviceIdConflict
 | paraWrong
 | noSuchService
 | resLake
 | createThreadFailed
 | dispatcherIdConflict
 | noSuchNode
 deriving DecidableEq

def maxService : UInt8 := 15

def maxDispatcher : UInt8 := 10

def localNodeIndex : UInt8 := 0

def remoteNodeIndex : UInt8 := 1

def noSuchNodeIndex : UInt8 := 255

def badDispatcherId : UInt8 := 255

def maxObjRefCount : ℕ := 200

def nodeIndices : List UInt8 := [localNodeIndex, remoteNodeIndex]

structure MessageNode where
 status : MeStatus
 refCount : ℕ
 deriving DecidableEq

structure ServiceInfo where
 nodeIndex : UInt8
 dispatcherId : UInt8
 remoteService : Option ℕ
 deriving DecidableEq

/-- The globals. `held` are nodes that left the table with references to them. -/
structure Router where
 mutexReady : Bool
 routerStatus : MeStatus
 messageNodes : UInt8 → Option MessageNode
 held : List MessageNode
 dispatchers : UInt8 → Option ℕ
 servicesIndex : UInt8 → ServiceInfo

def Router.start : Router :=
 ⟨false, .stopped, fun _ => none, [], fun _ => none, fun _ => ⟨0, 0, none⟩⟩

def Router.setNode (r : Router) (index : UInt8) (node : Option MessageNode) : Router :=
 { r with messageNodes := Function.update r.messageNodes index node }

@[simp] theorem setNode_same (r : Router) (i : UInt8) (node : Option MessageNode) :
  (r.setNode i node).messageNodes i = node := by
 simp [Router.setNode]

@[simp] theorem setNode_other (r : Router) {i j : UInt8} (node : Option MessageNode) (h : j ≠ i) :
  (r.setNode i node).messageNodes j = r.messageNodes j := by
 simp [Router.setNode, h]

theorem setNode_twice (r : Router) (i : UInt8) (node node' : Option MessageNode) :
  (r.setNode i node).setNode i node' = r.setNode i node' := by
 simp [Router.setNode]

def Router.setService (r : Router) (serviceId : UInt8) (info : ServiceInfo) : Router :=
 { r with servicesIndex := Function.update r.servicesIndex serviceId info }

def Router.lock (r : Router) (lock : Bool) : Bool := r.mutexReady && lock

def noService : ServiceInfo := ⟨noSuchNodeIndex, badDispatcherId, none⟩

def referenceMessageNode (node : MessageNode) : Option MessageNode :=
 if node.status = .stopping ∨ node.status = .toDestroy then none
 else if node.refCount < maxObjRefCount then some { node with refCount := node.refCount + 1 }
 else none

/-- `none` if the node is destroyed. -/
def disreferenceMessageNode (node : MessageNode) : Option MessageNode :=
 if node.refCount - 1 = 0 then none else some { node with refCount := node.refCount - 1 }

structure StartSteps where
 mutexInit : Bool
 lock : Bool
 memory : Bool
 nodeMutexInit : Bool
 nodeLock : Bool
 deriving DecidableEq

def createLocalNode (node : Option MessageNode) (steps : StartSteps) :
  ErrorCode × Option MessageNode :=
 if steps.memory = false then (.resLake, node)
 else if steps.nodeMutexInit = false then (.operMutexFailed, node)
 else (.success, some ⟨.stopped, 1⟩)

def initLocalNode (node : MessageNode) (lock : Bool) : ErrorCode × MessageNode :=
 if lock = false then (.operMutexFailed, node)
 else if node.status ≠ .stopped then (.mutiInitNotAllowed, node)
 else (.success, { node with status := .running })

def initNodes (lock : Bool) : List UInt8 → Router → ErrorCode × Router
 | [], r => (.success, r)
 | i :: indices, r =>
  match r.messageNodes i with
  | none => initNodes lock indices r
  | some node =>
   let init := initLocalNode node lock
   if init.1 ≠ .success then (init.1, r.setNode i init.2)
   else initNodes lock indices (r.setNode i init.2)

def releaseNode (r : Router) (i : UInt8) : Router :=
 match r.messageNodes i with
 | none => r
 | some node =>
  { r.setNode i none with held := (disreferenceMessageNode node).toList ++ r.held }

def releaseNodes (r : Router) : Router := nodeIndices.foldl releaseNode r

def refMessageNode (r : Router) (nodeId : UInt8) : Option Router :=
 if nodeId ∉ nodeIndices then none
 else ((r.messageNodes nodeId).bind referenceMessageNode).map fun node => r.setNode nodeId (some node)

def doStartMessageRouter (r : Router) (steps : StartSteps) : ErrorCode × Router :=
 if r.routerStatus ≠ .stopped then (.mutiInitNotAllowed, r)
 else
  let r := { r with servicesIndex := fun _ => noService }
  let created := createLocalNode (r.messageNodes localNodeIndex) steps
  let r := r.setNode localNodeIndex created.2
  let init := if created.1 ≠ .success then (created.1, r) else initNodes steps.nodeLock nodeIndices r
  if init.1 = .success then (.success, { init.2 with routerStatus := .running })
  -- the code of the step that failed is not handed on
  else (.success, releaseNodes init.2)

def startMessageRouter (r : Router) (steps : StartSteps) : ErrorCode × Router :=
 if r.mutexReady = false ∧ steps.mutexInit = false then (.operMutexFailed, r)
 else
  let r := { r with mutexReady := true }
  if steps.lock = false then (.operMutexFailed, r) else doStartMessageRouter r steps

def Router.stopping (r : Router) : Router :=
 { r with
  routerStatus := .stopping
  servicesIndex := fun i => if (r.servicesIndex i).remoteService = none then r.servicesIndex i else noService
  dispatchers := fun _ => none }

def doShutdownMessageRouter (r : Router) : ErrorCode × Router :=
 if r.routerStatus = .stopped then (.success, r)
 else (.success, { releaseNodes r.stopping with routerStatus := .stopped })

def shutdownMessageRouter (r : Router) (lock : Bool) : ErrorCode × Router :=
 if r.lock lock = false then (.operMutexFailed, r) else doShutdownMessageRouter r

def regDispatcher (r : Router) (dispatcherId : UInt8) (dispatcher : ℕ) (lock : Bool) :
  ErrorCode × Router :=
 if dispatcherId ≥ maxDispatcher then (.paraWrong, r)
 else if r.lock lock = false then (.operMutexFailed, r)
 else if r.routerStatus ≠ .running then (.wrongStatus, r)
 else if r.dispatchers dispatcherId ≠ none then (.dispatcherIdConflict, r)
 else (.success, { r with dispatchers := Function.update r.dispatchers dispatcherId (some dispatcher) })

/-- `dispatcher` is what `CreateLocalDispatcher` makes, if it works; `started` tells whether the
dispatcher gets to run. -/
def addDispatcher (r : Router) (dispatcherId : UInt8) (dispatcher : Option ℕ) (started lock : Bool) :
  ErrorCode × Router :=
 match dispatcher with
 | none => (.resLake, r)
 | some dispatcher =>
  if started = false then (.createThreadFailed, r) else regDispatcher r dispatcherId dispatcher lock

def refDispatcherInner (r : Router) (dispatcherId : UInt8) : Option ℕ :=
 if dispatcherId ≥ maxDispatcher then none else r.dispatchers dispatcherId

def doRegistService (r : Router) (nodeId dispatcherId serviceId : UInt8) (remoteService : ℕ) :
  ErrorCode × Router :=
 if serviceId ≥ maxService then (.paraWrong, r)
 else if r.routerStatus ≠ .running then (.wrongStatus, r)
 else if (r.servicesIndex serviceId).remoteService ≠ none then (.serviceIdConflict, r)
 else (.success, r.setService serviceId ⟨nodeId, dispatcherId, some remoteService⟩)

/-- `service` is what the node makes of a dispatcher, if that works. No node is there to be
notified: the local node has no `NotifyServiceAdd`. -/
def registServiceInner (r : Router) (nodeId dispatcherId serviceId : UInt8) (service : Option ℕ)
  (lock : Bool) : ErrorCode × Router :=
 if serviceId ≥ maxService then (.paraWrong, r)
 else if r.lock lock = false then (.operMutexFailed, r)
 else
  match refMessageNode r nodeId with
  | none => (.noSuchNode, r)
  | some r =>
   let done : ErrorCode × Router :=
    match (refDispatcherInner r dispatcherId).bind fun _ => service with
    | none => (.nullPtr, r)
    | some remoteService => doRegistService r nodeId dispatcherId serviceId remoteService
   (done.1, done.2.setNode nodeId ((done.2.messageNodes nodeId).bind disreferenceMessageNode))

def registLocalService (r : Router) (dispatcherId serviceId : UInt8) (service : Option ℕ)
  (lock : Bool) : ErrorCode × Router :=
 registServiceInner r localNodeIndex dispatcherId serviceId service lock

def registRemoteService (r : Router) (nodeId serviceId : UInt8) (service : ℕ) (lock : Bool) :
  ErrorCode × Router :=
 if serviceId ≥ maxService then (.paraWrong, r)
 else if nodeId ∉ nodeIndices then (.paraWrong, r)
 else if r.lock lock = false then (.operMutexFailed, r)
 else doRegistService r nodeId badDispatcherId serviceId service

def unregistServiceInner (r : Router) (nodeId dispatcherId serviceId : UInt8) (lock : Bool) :
  ErrorCode × Router :=
 if serviceId ≥ maxService then (.paraWrong, r)
 else if r.lock lock = false then (.operMutexFailed, r)
 else
  let info := r.servicesIndex serviceId
  if info.nodeIndex ≠ nodeId ∨ info.dispatcherId ≠ dispatcherId then (.noSuchService, r)
  else if info.remoteService = none then (.noSuchService, r)
  else (.success, r.setService serviceId noService)

def unregistLocalService (r : Router) (dispatcherId serviceId : UInt8) (lock : Bool) :
  ErrorCode × Router :=
 unregistServiceInner r localNodeIndex dispatcherId serviceId lock

def unregistRemoteService (r : Router) (serviceId : UInt8) (lock : Bool) : ErrorCode × Router :=
 unregistServiceInner r remoteNodeIndex badDispatcherId serviceId lock

inductive RouterCall where
 | start (steps : StartSteps)
 | shutdown (lock : Bool)
 | addDispatcher (dispatcherId : UInt8) (dispatcher : Option ℕ) (started lock : Bool)
 | registLocalService (dispatcherId serviceId : UInt8) (service : Option ℕ) (lock : Bool)
 | registRemoteService (nodeId serviceId : UInt8) (service : ℕ) (lock : Bool)
 | unregistLocalService (dispatcherId serviceId : UInt8) (lock : Bool)
 | unregistRemoteService (serviceId : UInt8) (lock : Bool)
 deriving DecidableEq

def Router.call (r : Router) : RouterCall → ErrorCode × Router
 | .start steps => startMessageRouter r steps
 | .shutdown lock => shutdownMessageRouter r lock
 | .addDispatcher id dispatcher started lock => MessageRouter.addDispatcher r id dispatcher started lock
 | .registLocalService dispatcherId id service lock =>
  MessageRouter.registLocalService r dispatcherId id service lock
 | .registRemoteService nodeId id service lock => MessageRouter.registRemoteService r nodeId id service lock
 | .unregistLocalService dispatcherId id lock => MessageRouter.unregistLocalService r dispatcherId id lock
 | .unregistRemoteService id lock => MessageRouter.unregistRemoteService r id lock

def Router.step (r : Router) (call : RouterCall) : Option Router := some (r.call call).2

def Constructed (r : Router) : Prop :=
 ∃ node, r.messageNodes localNodeIndex = some node ∧ node.status = .running

structure Nothing (r : Router) : Prop where
 nodes : ∀ i, r.messageNodes i = none
 held : r.held = []
 dispatchers : ∀ i, r.dispatchers i = none
 services : ∀ i, (r.servicesIndex i).remoteService = none

def Up (r : Router) : Prop := r.routerStatus = .running ∧ Constructed r

def Down (r : Router) : Prop := r.routerStatus ≠ .running ∧ Nothing r

structure Inv (r : Router) : Prop where
 status : r.routerStatus = .stopped ∨ r.routerStatus = .running
 nothing : r.routerStatus = .stopped → Nothing r
 ready : r.routerStatus = .running → r.mutexReady = true
 node : r.routerStatus = .running → r.messageNodes localNodeIndex = some ⟨.running, 1⟩
 others : ∀ i, i ≠ localNodeIndex → r.messageNodes i = none
 held : r.held = []

variable {r : Router}

theorem Inv.up_or_down (inv : Inv r) : Up r ∨ Down r := by
 rcases inv.status with stopped | running
 · exact .inr ⟨by simp [stopped], inv.nothing stopped⟩
 · exact .inl ⟨running, _, inv.node running, rfl⟩

theorem inv_start : Inv .start where
 status := .inl rfl
 nothing _ := ⟨fun _ => rfl, rfl, fun _ => rfl, fun _ => rfl⟩
 ready h := by cases h
 node h := by cases h
 others _ _ := rfl
 held := rfl

structure OnlyLocal (r : Router) (node : MessageNode) : Prop where
 local_ : r.messageNodes localNodeIndex = some node
 others : ∀ i, i ≠ localNodeIndex → r.messageNodes i = none

theorem initNodes_local {node : MessageNode} (h : OnlyLocal r node) (lock : Bool) :
  initNodes lock nodeIndices r =
   ((initLocalNode node lock).1, r.setNode localNodeIndex (some (initLocalNode node lock).2)) := by
 rw [nodeIndices, initNodes, h.local_]
 dsimp only
 split_ifs with init
 · rfl
 · have other : (r.setNode localNodeIndex (some (initLocalNode node lock).2)).messageNodes
     remoteNodeIndex = none := by
    rw [setNode_other r _ (by decide), h.others _ (by decide)]
   rw [initNodes, other, initNodes, not_not.mp init]

theorem releaseNodes_local {node : MessageNode} (h : OnlyLocal r node) (alone : node.refCount = 1) :
  releaseNodes r = { r with messageNodes := fun _ => none } := by
 have first : releaseNode r localNodeIndex = r.setNode localNodeIndex none := by
  rw [releaseNode, h.local_]
  simp [disreferenceMessageNode, alone, Router.setNode]
 have empty : ∀ i, (r.setNode localNodeIndex none).messageNodes i = none := by
  intro i
  by_cases hi : i = localNodeIndex
  · rw [hi, setNode_same]
  · rw [setNode_other r _ hi, h.others i hi]
 change releaseNode (releaseNode r localNodeIndex) remoteNodeIndex = _
 rw [first, releaseNode, empty]
 change { r with messageNodes := (r.setNode localNodeIndex none).messageNodes } = _
 rw [funext empty]

theorem releaseNodes_none (h : ∀ i, r.messageNodes i = none) : releaseNodes r = r := by
 change releaseNode (releaseNode r localNodeIndex) remoteNodeIndex = r
 rw [releaseNode, releaseNode, h]
 dsimp only
 rw [h]

def StartSteps.locked (r : Router) (steps : StartSteps) : Prop :=
 (r.mutexReady = true ∨ steps.mutexInit = true) ∧ steps.lock = true

def StartSteps.made (steps : StartSteps) : Prop :=
 steps.memory = true ∧ steps.nodeMutexInit = true ∧ steps.nodeLock = true

theorem start_unlocked {steps : StartSteps} (h : ¬ steps.locked r) :
  (startMessageRouter r steps).1 = .operMutexFailed ∧
   ((startMessageRouter r steps).2 = r ∨ (startMessageRouter r steps).2 = { r with mutexReady := true }) := by
 unfold startMessageRouter
 split_ifs with init lock
 · exact ⟨rfl, .inl rfl⟩
 · exact ⟨rfl, .inr rfl⟩
 · refine absurd ⟨?_, by simpa using lock⟩ h
   by_contra none
   rw [not_or, Bool.not_eq_true, Bool.not_eq_true] at none
   exact init none

theorem start_locked {steps : StartSteps} (h : steps.locked r) :
  startMessageRouter r steps = doStartMessageRouter { r with mutexReady := true } steps := by
 have init : ¬ (r.mutexReady = false ∧ steps.mutexInit = false) := by
  rintro ⟨ready, init⟩
  rcases h.1 with h | h
  · rw [ready] at h
    cases h
  · rw [init] at h
    cases h
 rw [startMessageRouter, if_neg init]
 simp [h.2]

/-- The router after a start with all its steps working. -/
def Router.started (r : Router) : Router :=
 { r with
  mutexReady := true
  routerStatus := .running
  servicesIndex := fun _ => noService
  messageNodes := Function.update r.messageNodes localNodeIndex (some ⟨.running, 1⟩) }

def Router.notStarted (r : Router) : Router :=
 { r with mutexReady := true, servicesIndex := fun _ => noService }

theorem start_running {steps : StartSteps} (running : r.routerStatus = .running)
  (h : steps.locked r) :
  startMessageRouter r steps = (.mutiInitNotAllowed, { r with mutexReady := true }) := by
 rw [start_locked h, doStartMessageRouter, if_pos (by simp [running])]

section Stopped

variable {r : Router} {steps : StartSteps}

theorem only_created (inv : Inv r) (stopped : r.routerStatus = .stopped) :
  OnlyLocal (r.notStarted.setNode localNodeIndex (some ⟨.stopped, 1⟩)) ⟨.stopped, 1⟩ := by
 refine ⟨setNode_same .., ?_⟩
 intro i hi
 rw [setNode_other _ _ hi]
 exact (inv.nothing stopped).nodes i

theorem doStart_stopped (stopped : r.routerStatus = .stopped) (h : steps.locked r) :
  startMessageRouter r steps =
   let created := createLocalNode (r.messageNodes localNodeIndex) steps
   let made := r.notStarted.setNode localNodeIndex created.2
   let init := if created.1 ≠ .success then (created.1, made)
    else initNodes steps.nodeLock nodeIndices made
   if init.1 = .success then (.success, { init.2 with routerStatus := .running })
   else (.success, releaseNodes init.2) := by
 rw [start_locked h, doStartMessageRouter, if_neg (by simp [stopped])]
 rfl

theorem start_made (inv : Inv r) (stopped : r.routerStatus = .stopped) (h : steps.locked r)
  (made : steps.made) : startMessageRouter r steps = (.success, r.started) := by
 obtain ⟨memory, nodeMutex, nodeLock⟩ := made
 have created : createLocalNode (r.messageNodes localNodeIndex) steps = (.success, some ⟨.stopped, 1⟩) := by
  simp [createLocalNode, memory, nodeMutex]
 rw [doStart_stopped stopped h, created]
 simp only [ne_eq, not_true_eq_false, if_false, initNodes_local (only_created inv stopped), nodeLock,
  initLocalNode]
 simp [Router.setNode, Router.started, Router.notStarted]

theorem start_not_made (inv : Inv r) (stopped : r.routerStatus = .stopped) (h : steps.locked r)
  (made : ¬ steps.made) : startMessageRouter r steps = (.success, r.notStarted) := by
 have nodes := (inv.nothing stopped).nodes
 rw [doStart_stopped stopped h, nodes]
 by_cases created : (createLocalNode none steps).1 = .success
 · have node : createLocalNode none steps = (.success, some ⟨.stopped, 1⟩) := by
    unfold createLocalNode at created ⊢
    split_ifs at created ⊢
    rfl
   have unlocked : steps.nodeLock = false := by
    unfold createLocalNode at created
    split_ifs at created with memory nodeMutex
    by_contra nodeLock
    exact made ⟨by simpa using memory, by simpa using nodeMutex, by simpa using nodeLock⟩
   have only := only_created inv stopped
   rw [node]
   simp only [ne_eq, not_true_eq_false, if_false, initNodes_local only, unlocked, initLocalNode, if_true,
    setNode_twice, reduceCtorEq]
   rw [releaseNodes_local only rfl]
   exact congrArg (fun nodes => (ErrorCode.success, { r.notStarted with messageNodes := nodes }))
    (funext fun i => (nodes i).symm)
 · have node : (createLocalNode none steps).2 = none := by
    unfold createLocalNode at created ⊢
    split_ifs at created ⊢
    · rfl
    · rfl
    · exact absurd rfl created
   have same : r.notStarted.setNode localNodeIndex none = r.notStarted := by
    rw [Router.setNode, ← nodes localNodeIndex]
    exact congrArg (fun nodes => { r.notStarted with messageNodes := nodes }) (Function.update_eq_self ..)
   simp only [node, ne_eq, created, not_false_eq_true, if_true, if_false, same]
   rw [@releaseNodes_none r.notStarted nodes]

end Stopped

structure Registers (r t : Router) : Prop where
 ready : r.mutexReady = true → t.mutexReady = true
 status : t.routerStatus = r.routerStatus
 nodes : t.messageNodes = r.messageNodes
 held : t.held = r.held
 stopped : r.routerStatus ≠ .running → (∀ i, t.dispatchers i = r.dispatchers i) ∧
  ∀ i, (r.servicesIndex i).remoteService = none → (t.servicesIndex i).remoteService = none

theorem Registers.refl (r : Router) : Registers r r :=
 ⟨id, rfl, rfl, rfl, fun _ => ⟨fun _ => rfl, fun _ h => h⟩⟩

theorem Inv.registers {t : Router} (inv : Inv r) (h : Registers r t) : Inv t := by
 refine ⟨h.status ▸ inv.status, ?_, fun running => h.ready (inv.ready (h.status ▸ running)), ?_, ?_,
  h.held.trans inv.held⟩
 · intro stopped
   rw [h.status] at stopped
   have nothing := inv.nothing stopped
   obtain ⟨dispatchers, services⟩ := h.stopped (by simp [stopped])
   exact ⟨fun i => h.nodes ▸ nothing.nodes i, h.held.trans nothing.held,
    fun i => (dispatchers i).trans (nothing.dispatchers i), fun i => services i (nothing.services i)⟩
 · intro running
   rw [h.nodes]
   exact inv.node (h.status ▸ running)
 · rw [h.nodes]
   exact inv.others

theorem regDispatcher_registers (r : Router) (dispatcherId : UInt8) (dispatcher : ℕ) (lock : Bool) :
  Registers r (regDispatcher r dispatcherId dispatcher lock).2 := by
 unfold regDispatcher
 split_ifs with _ _ running
 · exact .refl r
 · exact .refl r
 · exact .refl r
 · exact .refl r
 · exact ⟨id, rfl, rfl, rfl, fun h => absurd (not_not.mp running) h⟩

theorem doRegistService_registers (r : Router) (nodeId dispatcherId serviceId : UInt8)
  (service : ℕ) :
  Registers r (doRegistService r nodeId dispatcherId serviceId service).2 := by
 unfold doRegistService
 split_ifs with _ running
 · exact .refl r
 · exact .refl r
 · exact .refl r
 · exact ⟨id, rfl, rfl, rfl, fun h => absurd (not_not.mp running) h⟩

theorem unregistServiceInner_registers (r : Router) (nodeId dispatcherId serviceId : UInt8)
  (lock : Bool) :
  Registers r (unregistServiceInner r nodeId dispatcherId serviceId lock).2 := by
 unfold unregistServiceInner
 dsimp only
 split_ifs
 · exact .refl r
 · exact .refl r
 · exact .refl r
 · exact .refl r
 · refine ⟨id, rfl, rfl, rfl, fun _ => ⟨fun _ => rfl, ?_⟩⟩
   intro i h
   by_cases hi : i = serviceId
   · subst hi
     simp [Router.setService, noService]
   · simpa [Router.setService, hi] using h

theorem Registers.giveBack {t : Router} (node : r.messageNodes localNodeIndex = some ⟨.running, 1⟩)
  (h : Registers (r.setNode localNodeIndex (some ⟨.running, 2⟩)) t) :
  Registers r (t.setNode localNodeIndex ((t.messageNodes localNodeIndex).bind disreferenceMessageNode)) := by
 have back : (t.messageNodes localNodeIndex).bind disreferenceMessageNode = some ⟨.running, 1⟩ := by
  rw [h.nodes, setNode_same]
  rfl
 rw [back]
 refine ⟨h.ready, h.status, ?_, h.held, h.stopped⟩
 change Function.update t.messageNodes _ _ = _
 rw [h.nodes, Router.setNode, Function.update_idem, ← node, Function.update_eq_self]

theorem registServiceInner_registers (inv : Inv r) (dispatcherId serviceId : UInt8)
  (service : Option ℕ) (lock : Bool) :
  Registers r (registServiceInner r localNodeIndex dispatcherId serviceId service lock).2 := by
 unfold registServiceInner
 split_ifs
 · exact .refl r
 · exact .refl r
 · rcases inv.status with stopped | running
   · have none_ : refMessageNode r localNodeIndex = none := by
      simp [refMessageNode, (inv.nothing stopped).nodes]
     rw [none_]
     exact .refl r
   · have node := inv.node running
     have ref : refMessageNode r localNodeIndex = some (r.setNode localNodeIndex (some ⟨.running, 2⟩)) := by
      simp [refMessageNode, node, nodeIndices, referenceMessageNode, maxObjRefCount]
     rw [ref]
     refine Registers.giveBack node ?_
     cases (refDispatcherInner (r.setNode localNodeIndex (some ⟨.running, 2⟩)) dispatcherId).bind
       fun _ => service with
     | none => exact .refl _
     | some remoteService => exact doRegistService_registers _ _ _ _ _

theorem Inv.setReady (inv : Inv r) : Inv { r with mutexReady := true } :=
 inv.registers ⟨fun _ => rfl, rfl, rfl, rfl, fun _ => ⟨fun _ => rfl, fun _ h => h⟩⟩

theorem Inv.notStarted (inv : Inv r) : Inv r.notStarted :=
 inv.registers ⟨fun _ => rfl, rfl, rfl, rfl, fun _ => ⟨fun _ => rfl, fun _ _ => rfl⟩⟩

theorem Inv.started (inv : Inv r) : Inv r.started where
 status := .inr rfl
 nothing h := by cases h
 ready _ := rfl
 node _ := setNode_same r ..
 others i hi := (setNode_other r _ hi).trans (inv.others i hi)
 held := inv.held

open Classical in
theorem start_stopped {steps : StartSteps} (inv : Inv r) (stopped : r.routerStatus = .stopped)
  (h : steps.locked r) :
  startMessageRouter r steps = (.success, if steps.made then r.started else r.notStarted) := by
 split_ifs with made
 · exact start_made inv stopped h made
 · exact start_not_made inv stopped h made

theorem start_inv (inv : Inv r) (steps : StartSteps) : Inv (startMessageRouter r steps).2 := by
 by_cases h : steps.locked r
 · rcases inv.status with stopped | running
   · rw [start_stopped inv stopped h]
     dsimp only
     split_ifs
     · exact inv.started
     · exact inv.notStarted
   · rw [start_running running h]
     exact inv.setReady
 · rcases (start_unlocked h).2 with same | ready
   · exact same.symm ▸ inv
   · exact ready.symm ▸ inv.setReady

theorem shutdown_inv (inv : Inv r) (lock : Bool) : Inv (shutdownMessageRouter r lock).2 := by
 unfold shutdownMessageRouter doShutdownMessageRouter
 split_ifs with locked stopped
 · exact inv
 · exact inv
 · have running := inv.status.resolve_left stopped
   have only : OnlyLocal r.stopping ⟨.running, 1⟩ := ⟨inv.node running, inv.others⟩
   rw [releaseNodes_local only rfl]
   have services : ∀ i, (r.stopping.servicesIndex i).remoteService = none := by
    intro i
    unfold Router.stopping
    dsimp only
    split_ifs with none_
    · exact none_
    · rfl
   exact ⟨.inl rfl, fun _ => ⟨fun _ => rfl, inv.held, fun _ => rfl, services⟩, by rintro ⟨⟩,
    by rintro ⟨⟩, fun _ _ => rfl, inv.held⟩

theorem call_inv (inv : Inv r) (call : RouterCall) : Inv (r.call call).2 := by
 cases call with
 | start steps => exact start_inv inv steps
 | shutdown lock => exact shutdown_inv inv lock
 | addDispatcher dispatcherId dispatcher started lock =>
  change Inv (addDispatcher r dispatcherId dispatcher started lock).2
  cases dispatcher with
  | none => exact inv
  | some dispatcher =>
   rw [addDispatcher]
   split_ifs
   · exact inv
   · exact inv.registers (regDispatcher_registers r dispatcherId dispatcher lock)
 | registLocalService dispatcherId serviceId service lock =>
  exact inv.registers (registServiceInner_registers inv dispatcherId serviceId service lock)
 | registRemoteService nodeId serviceId service lock =>
  change Inv (registRemoteService r nodeId serviceId service lock).2
  unfold registRemoteService
  split_ifs
  · exact inv
  · exact inv
  · exact inv.registers (doRegistService_registers r nodeId badDispatcherId serviceId service)
  · exact inv
 | unregistLocalService dispatcherId serviceId lock =>
  exact inv.registers (unregistServiceInner_registers r localNodeIndex dispatcherId serviceId lock)
 | unregistRemoteService serviceId lock =>
  exact inv.registers (unregistServiceInner_registers r remoteNodeIndex badDispatcherId serviceId lock)

/-- What holds of a start: it leaves the router running with its parts or not running with
nothing; on a router that runs it is an error and changes nothing; a start that gets the router
to run reports success; and an error leaves a router that does not run as it is, with nothing. -/
def StartRight (r : Router) (call : RouterCall) : Prop :=
 ∀ steps, call = .start steps →
  let out := startMessageRouter r steps
  (Up out.2 ∨ Down out.2) ∧
   (r.routerStatus = .running → out.1 ≠ .success ∧ out.2 = r ∧ Up r) ∧
   (r.routerStatus ≠ .running → Up out.2 → out.1 = .success) ∧
   (r.routerStatus ≠ .running → out.1 ≠ .success → Down out.2)

theorem start_right (inv : Inv r) (call : RouterCall) : StartRight r call := by
 rintro steps -
 have after := start_inv inv steps
 have same : r.routerStatus = .running → { r with mutexReady := true } = r := by
  intro running
  rw [← inv.ready running]
 refine ⟨after.up_or_down, ?_, ?_, ?_⟩
 · intro running
   have up := inv.up_or_down.resolve_right fun down => down.1 running
   by_cases h : steps.locked r
   · rw [start_running running h, same running]
     exact ⟨by simp, rfl, up⟩
   · obtain ⟨error, unchanged⟩ := start_unlocked h
     rw [same running, or_self] at unchanged
     exact ⟨by simp [error], unchanged, up⟩
 · intro still up
   have stopped := inv.status.resolve_right still
   by_cases h : steps.locked r
   · rw [start_stopped inv stopped h]
   · rcases (start_unlocked h).2 with unchanged | unchanged
     · exact absurd (unchanged ▸ up.1) still
     · exact absurd ((congrArg Router.routerStatus unchanged).symm.trans up.1) still
 · intro still error
   have stopped := inv.status.resolve_right still
   by_cases h : steps.locked r
   · rw [start_stopped inv stopped h] at error
     exact absurd rfl error
   · refine after.up_or_down.resolve_left fun up => ?_
     rcases (start_unlocked h).2 with unchanged | unchanged
     · exact still (unchanged ▸ up.1)
     · exact still ((congrArg Router.routerStatus unchanged).symm.trans up.1)

/-- Success if and only if the router runs with its parts afterwards, and no part after an error. -/
def ReportsState (r : Router) (call : RouterCall) : Prop :=
 ∀ steps, call = .start steps →
  let out := startMessageRouter r steps
  (out.1 = .success ↔ Up out.2) ∧ (out.1 ≠ .success → Down out.2)

end DriversFramework.MessageRouter
