import Mathlib.Data.List.Induction
import DriversFramework.ServiceObserver

/-! Device nodes of a host publish their services to the observer of the host and are
released again. The release path takes a service out of the service manager, and leaves
the record of the observer as it is. -/
namespace DriversFramework.ServiceObserver
open HdfSList

def servicePolicyNone : UInt16 := 0

def servicePolicyPublic : UInt16 := 1

def servicePolicyCapacity : UInt16 := 2

/-- What the publication of a node reads; `service` is what its device object points to. -/
structure HdfDeviceNode where
 devId : UInt32
 policy : UInt16
 servName : List UInt8
 service : Option ℕ
 deriving DecidableEq

/-- How far the launch of a node comes: whether `Bind` and `Init` succeed, whether the
service manager takes the service, whether a record can be allocated, and whether the
device manager attaches the device. -/
structure LaunchInputs where
 started : Bool
 published : Bool
 memory : Bool
 attached : Bool
 deriving DecidableEq

def hdfDeviceNodePublishLocalService (observer : HdfServiceObserver) (devNode : HdfDeviceNode)
  (memory : Bool) : Bool × List Connected × HdfServiceObserver :=
 let found := observer.services.find? (recordCompare (hdfStringMakeHashKey devNode.servName 0))
 if found = none ∧ memory = false then (false, [], observer)
 else
  (true, publishService observer devNode.servName devNode.devId devNode.policy devNode.service)

def HdfDeviceNode.publishes (devNode : HdfDeviceNode) (env : LaunchInputs) : Bool :=
 env.started && devNode.policy ≠ servicePolicyNone && devNode.servName ≠ [] &&
  (env.published || (devNode.policy ≠ servicePolicyPublic && devNode.policy ≠ servicePolicyCapacity))

def hdfDeviceNodePublishService (observer : HdfServiceObserver) (devNode : HdfDeviceNode)
  (env : LaunchInputs) : Bool × List Connected × HdfServiceObserver :=
 if devNode.policy = servicePolicyNone ∨ devNode.servName = [] then (true, [], observer)
 else if (devNode.policy = servicePolicyPublic ∨ devNode.policy = servicePolicyCapacity) ∧
   env.published = false then (false, [], observer)
 else hdfDeviceNodePublishLocalService observer devNode env.memory

def hdfDeviceLaunchNode (observer : HdfServiceObserver) (devNode : HdfDeviceNode)
  (env : LaunchInputs) : Bool × List Connected × HdfServiceObserver :=
 if env.started = false then (false, [], observer)
 else
  let shown := hdfDeviceNodePublishService observer devNode env
  (shown.1 && env.attached, shown.2)

/-- `released` keeps the nodes that are gone, for the statements only. -/
structure Host where
 observer : HdfServiceObserver
 devNodes : List HdfDeviceNode
 released : List HdfDeviceNode
 deriving DecidableEq

/-- The driver's method and the service manager apart, `HdfDeviceReleaseNode` does nothing. -/
def Host.release (host : Host) (devNode : HdfDeviceNode) : Host :=
 { host with released := devNode :: host.released }

inductive HostEvent where
 | launch (devNode : HdfDeviceNode) (env : LaunchInputs)
 | subscribe (devId : UInt32) (svcName : List UInt8) (callback : SubscriberCallback) (memory : Bool)
 | release (node : ℕ)
 deriving DecidableEq

/-- A node that fails to launch is released at once; a subscription without memory fails. -/
def Host.step (host : Host) : HostEvent → List Connected × Host
 | .launch devNode env =>
  let launch := hdfDeviceLaunchNode host.observer devNode env
  (launch.2.1,
   if launch.1 then { host with observer := launch.2.2, devNodes := host.devNodes ++ [devNode] }
   else { host with observer := launch.2.2 }.release devNode)
 | .subscribe devId svcName callback memory =>
  if memory then
   let subscribed := subscribeService host.observer svcName devId callback
   (subscribed.1, { host with observer := subscribed.2 })
  else ([], host)
 | .release node =>
  match host.devNodes[node]? with
  | none => ([], host)
  | some devNode => ([], { host with devNodes := host.devNodes.eraseIdx node }.release devNode)

def Host.run (host : Host) (events : List HostEvent) : Host :=
 events.foldl (fun host event => (host.step event).2) host

def Host.start : Host := ⟨⟨[]⟩, [], []⟩

def Host.releasedServices (host : Host) : List ℕ := host.released.filterMap HdfDeviceNode.service

/-- No callback is handed the service of a node that is already released. -/
def NeverHandsReleased (events : List HostEvent) : Prop :=
 ∀ before event after, events = before ++ event :: after →
  ∀ call ∈ ((Host.start.run before).step event).1, ∀ service ∈ call.service,
   service ∉ (Host.start.run before).releasedServices

def HostEvent.onKey (key : UInt32) (past : List Event) : HostEvent → List Event
 | .launch devNode env =>
  if hdfStringMakeHashKey devNode.servName 0 = key ∧ devNode.publishes env = true ∧
    (env.memory = true ∨ past ≠ []) then
   [.publish ⟨devNode.devId, devNode.policy, devNode.service⟩]
  else []
 | .subscribe devId svcName callback memory =>
  if hdfStringMakeHashKey svcName 0 = key ∧ memory = true then [.subscribe devId callback] else []
 | .release _ => []

def historyOf (key : UInt32) (events : List HostEvent) : List Event :=
 events.foldl (fun past event => past ++ event.onKey key past) []

theorem historyOf_append (key : UInt32) (events : List HostEvent) (event : HostEvent) :
  historyOf key (events ++ [event]) =
   historyOf key events ++ event.onKey key (historyOf key events) := by
 rw [historyOf, List.foldl_append]
 rfl

theorem Host.run_append (host : Host) (events : List HostEvent) (event : HostEvent) :
  host.run (events ++ [event]) = ((host.run events).step event).2 := by
 rw [Host.run, List.foldl_append]
 rfl

/-- What an event may hand out, after the events `before`: a subscription the service of the
last publication, where the record admits it, and a launch the service of the node, where it
admits a subscriber. -/
def Live (before : List HostEvent) : HostEvent → Prop
 | .launch devNode env =>
  devNode.publishes env = true →
   (∃ s ∈ subscribers (historyOf (hdfStringMakeHashKey devNode.servName 0) before),
    s.2.onServiceConnected = true ∧ Admits devNode.devId devNode.policy s.1) →
   ∀ service ∈ devNode.service, service ∉ (Host.start.run before).releasedServices
 | .subscribe devId svcName callback memory =>
  memory = true → callback.onServiceConnected = true →
   ∀ p ∈ lastPublication (historyOf (hdfStringMakeHashKey svcName 0) before),
    Admits (recorded (historyOf (hdfStringMakeHashKey svcName 0) before)).1
      (recorded (historyOf (hdfStringMakeHashKey svcName 0) before)).2 devId →
     ∀ service ∈ p.service, service ∉ (Host.start.run before).releasedServices
 | .release _ => True

section Frame

variable {observer : HdfServiceObserver} {key : UInt32} {svcName : List UInt8}

theorem find?_updateFirst_other {services : List HdfServiceObserverRecord} {key' : UInt32}
  (hne : key' ≠ key) (f : HdfServiceObserverRecord → HdfServiceObserverRecord)
  (hkey : ∀ record, recordCompare key' record = true → (f record).serviceKey = key') :
  (updateFirst (recordCompare key') f services).find? (recordCompare key) =
   services.find? (recordCompare key) := by
 induction services with
 | nil => rfl
 | cons record services ih =>
  rw [updateFirst]
  by_cases here : recordCompare key' record = true
  · have other : recordCompare key record = false := by
     rw [recordCompare, beq_iff_eq] at here
     rw [recordCompare, here]
     exact beq_false_of_ne hne
    have changed : recordCompare key (f record) = false := by
     rw [recordCompare, hkey record here]
     exact beq_false_of_ne hne
    rw [if_pos here, List.find?_cons_of_neg (by simp [changed]),
     List.find?_cons_of_neg (by simp [other])]
  · rw [if_neg here, List.find?_cons, List.find?_cons, ih]

theorem find?_cons_other {services : List HdfServiceObserverRecord} {record : HdfServiceObserverRecord}
  (hne : record.serviceKey ≠ key) :
  (record :: services).find? (recordCompare key) = services.find? (recordCompare key) := by
 rw [List.find?_cons_of_neg]
 rw [recordCompare, beq_iff_eq]
 exact hne

theorem step_other (hne : hdfStringMakeHashKey svcName 0 ≠ key) (event : Event) :
  (observer.step svcName event).2.services.find? (recordCompare key) =
   observer.services.find? (recordCompare key) := by
 have same : ∀ record, recordCompare (hdfStringMakeHashKey svcName 0) record = true →
   record.serviceKey = hdfStringMakeHashKey svcName 0 := fun record h => beq_iff_eq.mp h
 cases event with
 | subscribe devid callback =>
  have added : ∀ (subscriber : HdfServiceSubscriber) (services : List HdfServiceObserverRecord),
    services.find? (recordCompare key) = observer.services.find? (recordCompare key) →
    (updateFirst (recordCompare (hdfStringMakeHashKey svcName 0)) (addSubscriber subscriber)
     services).find? (recordCompare key) = observer.services.find? (recordCompare key) :=
   fun subscriber services hsame =>
    (find?_updateFirst_other hne (addSubscriber subscriber) same).trans hsame
  have obtained : ∀ services : List HdfServiceObserverRecord,
    services = recordObtain (hdfStringMakeHashKey svcName 0) :: observer.services ∨
     services = observer.services →
    services.find? (recordCompare key) = observer.services.find? (recordCompare key) := by
   rintro services (rfl | rfl)
   · exact find?_cons_other hne
   · rfl
  rw [HdfServiceObserver.step, subscribeService]
  split_ifs
  · refine added _ _ (obtained _ ?_)
    cases observer.services.find? (recordCompare (hdfStringMakeHashKey svcName 0)) with
    | none => exact .inl rfl
    | some _ => exact .inr rfl
  · refine added _ _ (obtained _ ?_)
    cases observer.services.find? (recordCompare (hdfStringMakeHashKey svcName 0)) with
    | none => exact .inl rfl
    | some _ => exact .inr rfl
 | publish p =>
  rw [HdfServiceObserver.step, publishService]
  cases hfound : observer.services.find? (recordCompare (hdfStringMakeHashKey svcName 0)) with
  | none => exact find?_cons_other hne
  | some record =>
   exact find?_updateFirst_other hne _ fun _ _ => same record (List.find?_some hfound)

theorem Tracks.congr {history : List Event} {observer' : HdfServiceObserver}
  (h : Tracks key history observer)
  (hsame : observer'.services.find? (recordCompare key) =
   observer.services.find? (recordCompare key)) : Tracks key history observer' := by
 cases h with
 | fresh hhistory hnone => exact .fresh hhistory (hsame.trans hnone)
 | record hhistory record hfound hpublisher hrecorded hsubscribers =>
  exact .record hhistory record (hsame.trans hfound) hpublisher hrecorded hsubscribers

theorem Tracks.found_iff {history : List Event} (h : Tracks key history observer) :
  observer.services.find? (recordCompare key) = none ↔ history = [] := by
 cases h with
 | fresh hhistory hnone => exact iff_of_true hnone hhistory
 | record hhistory record hfound => rw [hfound]; simp [hhistory]

end Frame

def Host.Tracked (host : Host) (events : List HostEvent) : Prop :=
 ∀ key, Tracks key (historyOf key events) host.observer

section Step

variable {host : Host} {events : List HostEvent}

theorem publishes_iff (devNode : HdfDeviceNode) (env : LaunchInputs) :
  devNode.publishes env = true ↔ env.started = true ∧
   ¬ (devNode.policy = servicePolicyNone ∨ devNode.servName = []) ∧
   ¬ ((devNode.policy = servicePolicyPublic ∨ devNode.policy = servicePolicyCapacity) ∧
    env.published = false) := by
 simp only [HdfDeviceNode.publishes, Bool.and_eq_true, Bool.or_eq_true, decide_eq_true_eq, not_or,
  not_and, Bool.not_eq_false, and_assoc, ne_eq]
 refine and_congr_right fun _ => and_congr_right fun _ => and_congr_right fun _ => ?_
 by_cases outside : devNode.policy = servicePolicyPublic ∨ devNode.policy = servicePolicyCapacity
 · simp only [outside, forall_const]
   exact or_iff_left fun h => outside.elim h.1 h.2
 · exact iff_of_true (.inr (not_or.mp outside)) fun h => absurd h outside

theorem launch_shown (observer : HdfServiceObserver) (devNode : HdfDeviceNode) (env : LaunchInputs) :
  (hdfDeviceLaunchNode observer devNode env).2 =
   if devNode.publishes env = true ∧ (env.memory = true ∨
     observer.services.find? (recordCompare (hdfStringMakeHashKey devNode.servName 0)) ≠ none) then
    observer.step devNode.servName (.publish ⟨devNode.devId, devNode.policy, devNode.service⟩)
   else ([], observer) := by
 simp only [publishes_iff]
 unfold hdfDeviceLaunchNode hdfDeviceNodePublishService hdfDeviceNodePublishLocalService
 by_cases started : env.started = true
 · by_cases skipped : devNode.policy = servicePolicyNone ∨ devNode.servName = []
   · simp [started, skipped]
   by_cases refused : (devNode.policy = servicePolicyPublic ∨
     devNode.policy = servicePolicyCapacity) ∧ env.published = false
   · simp [started, skipped, refused]
   cases found : observer.services.find?
     (recordCompare (hdfStringMakeHashKey devNode.servName 0)) with
   | none =>
    cases memory : env.memory with
    | false => simp [started, skipped, refused]
    | true => simp [started, skipped, refused, HdfServiceObserver.step]
   | some record => simp [started, skipped, refused, HdfServiceObserver.step]
 · simp [started]

theorem step_tracked (h : host.Tracked events) (event : HostEvent) :
  (host.step event).2.Tracked (events ++ [event]) := by
 intro key
 rw [historyOf_append]
 -- an event that makes the call `call` of the service `svcName`
 have called : ∀ (svcName : List UInt8) (call : Event) (observer : HdfServiceObserver),
   observer = (host.observer.step svcName call).2 →
   Tracks key (historyOf key events ++
    (if hdfStringMakeHashKey svcName 0 = key then [call] else [])) observer := by
  rintro svcName call observer rfl
  split_ifs with same
  · subst same
    exact (step_iff call (h _)).2
  · rw [List.append_nil]
    exact (h key).congr (step_other same call)
 have quiet : Tracks key (historyOf key events ++ []) host.observer := by
  rw [List.append_nil]
  exact h key
 cases event with
 | launch devNode env =>
  have shown := launch_shown host.observer devNode env
  have observer : (host.step (.launch devNode env)).2.observer =
    (hdfDeviceLaunchNode host.observer devNode env).2.2 := by
   rw [Host.step]
   split_ifs <;> rfl
  rw [observer, shown]
  have missing := (h (hdfStringMakeHashKey devNode.servName 0)).found_iff
  rw [HostEvent.onKey]
  by_cases same : hdfStringMakeHashKey devNode.servName 0 = key
  · subst same
    by_cases published : devNode.publishes env = true ∧ (env.memory = true ∨
      historyOf (hdfStringMakeHashKey devNode.servName 0) events ≠ [])
    · rw [if_pos ⟨rfl, published⟩, if_pos (by rwa [Ne, missing])]
      have tracks := called devNode.servName
       (.publish ⟨devNode.devId, devNode.policy, devNode.service⟩) _ rfl
      rwa [if_pos rfl] at tracks
    · rw [if_neg fun hall => published hall.2, if_neg (by rwa [Ne, missing])]
      exact quiet
  · rw [if_neg fun hall => same hall.1]
    split_ifs
    · have tracks := called devNode.servName
       (.publish ⟨devNode.devId, devNode.policy, devNode.service⟩) _ rfl
      rwa [if_neg same] at tracks
    · exact quiet
 | subscribe devId svcName callback memory =>
  cases memory with
  | false =>
   rw [HostEvent.onKey, if_neg fun hall => Bool.false_ne_true hall.2]
   exact quiet
  | true =>
   have tracks := called svcName (.subscribe devId callback) _ rfl
   rw [HostEvent.onKey]
   by_cases same : hdfStringMakeHashKey svcName 0 = key
   · rw [if_pos ⟨same, rfl⟩]
     rwa [if_pos same] at tracks
   · rw [if_neg fun hall => same hall.1]
     rwa [if_neg same] at tracks
 | release node =>
  have observer : (host.step (.release node)).2.observer = host.observer := by
   rw [Host.step]
   split <;> rfl
  rw [observer]
  exact quiet

theorem run_tracked (events : List HostEvent) : (Host.start.run events).Tracked events := by
 induction events using List.reverseRecOn with
 | nil => exact fun key => .fresh rfl rfl
 | append_singleton events event ih =>
  rw [Host.run_append]
  exact step_tracked ih event

theorem subscribe_hands {observer : HdfServiceObserver} {history : List Event}
  {svcName : List UInt8} (h : Tracks (hdfStringMakeHashKey svcName 0) history observer)
  (devId : UInt32) (callback : SubscriberCallback) (service : ℕ) :
  (∃ call ∈ (subscribeService observer svcName devId callback).1, call.service = some service) ↔
   callback.onServiceConnected = true ∧ ∃ p, lastPublication history = some p ∧
    Admits (recorded history).1 (recorded history).2 devId ∧ p.service = some service := by
 rw [subscribeService]
 cases h with
 | fresh hhistory hnone =>
  subst hhistory
  simp [hnone, recordObtain, lastPublication]
 | record hhistory record hfound hpublisher hrecorded hsubscribers =>
  rw [hfound, ← hrecorded]
  have rule : (record.policy ≠ servicePolicyPrivate ∨ record.devId = devId) ↔
    Admits record.devId record.policy devId := Iff.rfl
  simp only [Option.getD_some, hpublisher, rule]
  cases published : lastPublication history with
  | none => simp
  | some p =>
   rw [Option.bind_some]
   by_cases connected : callback.onServiceConnected = true ∧
     Admits record.devId record.policy devId
   · by_cases stored : p.service = none
     · simp [connected, stored]
     · simp [connected, stored]
   rw [if_neg fun hall => connected hall.2]
   refine iff_of_false (fun hall => ?_) fun hall => ?_
   · obtain ⟨call, hcall, -⟩ := hall
     cases hcall
   · obtain ⟨on, q, hq, admitted, -⟩ := hall
     exact connected ⟨on, admitted⟩

theorem publish_hands {observer : HdfServiceObserver} {history : List Event}
  {svcName : List UInt8} (h : Tracks (hdfStringMakeHashKey svcName 0) history observer)
  (p : Publication) (service : ℕ) :
  (∃ call ∈ (observer.step svcName (.publish p)).1, call.service = some service) ↔
   p.service = some service ∧ ∃ s ∈ subscribers history,
    s.2.onServiceConnected = true ∧ Admits p.devId p.policy s.1 := by
 rw [publish_calls p h, required]
 simp only [List.mem_filterMap]
 constructor
 · rintro ⟨call, ⟨s, hs, hcall⟩, hservice⟩
   split_ifs at hcall with admitted
   rw [← Option.some.inj hcall] at hservice
   exact ⟨hservice, s, hs, admitted⟩
 · rintro ⟨hservice, s, hs, admitted⟩
   exact ⟨⟨s.2.deviceObject, p.service⟩, ⟨s, hs, if_pos admitted⟩, hservice⟩

theorem step_hands_iff (events : List HostEvent) (event : HostEvent) :
  (∀ call ∈ ((Host.start.run events).step event).1, ∀ service ∈ call.service,
   service ∉ (Host.start.run events).releasedServices) ↔ Live events event := by
 have tracked := run_tracked events
 obtain ⟨host, hhost⟩ : ∃ host, Host.start.run events = host := ⟨_, rfl⟩
 rw [hhost] at tracked ⊢
 cases event with
 | launch devNode env =>
  have missing := (tracked (hdfStringMakeHashKey devNode.servName 0)).found_iff
  have calls : (host.step (.launch devNode env)).1 =
    (hdfDeviceLaunchNode host.observer devNode env).2.1 := rfl
  rw [calls, launch_shown, Live, hhost]
  constructor
  · intro hall published hsubscriber service hservice
    obtain ⟨s, hs, admitted⟩ := hsubscriber
    have past : historyOf (hdfStringMakeHashKey devNode.servName 0) events ≠ [] := by
     intro hnil
     rw [hnil] at hs
     cases hs
    rw [if_pos ⟨published, .inr (by rwa [Ne, missing])⟩] at hall
    obtain ⟨call, hcall, hhands⟩ := (publish_hands (tracked _)
     ⟨devNode.devId, devNode.policy, devNode.service⟩ service).mpr ⟨hservice, s, hs, admitted⟩
    exact hall call hcall service hhands
  · intro hlive call hcall service hservice
    split_ifs at hcall with published
    · obtain ⟨hown, hsubscriber⟩ := (publish_hands (tracked _)
       ⟨devNode.devId, devNode.policy, devNode.service⟩ service).mp ⟨call, hcall, hservice⟩
      exact hlive published.1 hsubscriber service hown
    · cases hcall
 | subscribe devId svcName callback memory =>
  rw [Live, hhost]
  cases memory with
  | false => exact iff_of_true (fun call hcall => by cases hcall) fun h => absurd h Bool.false_ne_true
  | true =>
   have hands := subscribe_hands (tracked (hdfStringMakeHashKey svcName 0)) devId callback
   constructor
   · intro hall _ on p hp admitted service hservice
     obtain ⟨call, hcall, hhands⟩ := (hands service).mpr ⟨on, p, hp, admitted, hservice⟩
     exact hall call hcall service hhands
   · intro hlive call hcall service hservice
     obtain ⟨on, p, hp, admitted, hstored⟩ := (hands service).mp ⟨call, hcall, hservice⟩
     exact hlive rfl on p hp admitted service hstored
 | release node =>
  refine iff_of_true (fun call hcall => ?_) trivial
  have none_called : (host.step (.release node)).1 = [] := by
   rw [Host.step]
   split <;> rfl
  rw [none_called] at hcall
  cases hcall

end Step

/-- In a history no callback is handed the service of a released node exactly if, at every
subscription, what was last published under the name is not of a released node or is not
admitted by the record, and no node publishes the object of a released node to a subscriber. -/
theorem neverHandsReleased_iff (events : List HostEvent) :
    NeverHandsReleased events ↔
      ∀ before event after, events = before ++ event :: after → Live before event :=
  forall₄_congr fun before event _ _ => step_hands_iff before event

/-- A node of policy friendly with the service 7 under the name `s`. -/
def shortLived : HdfDeviceNode := ⟨1, 3, [0x73], some 7⟩

/-- A subscription after the release is handed the service of the node that is gone. -/
theorem released_service_handed : ¬ ∀ events : List HostEvent, NeverHandsReleased events := by
  intro hall
  have step : ((Host.start.run [.launch shortLived ⟨true, true, true, true⟩, .release 0]).step
      (.subscribe 2 [0x73] ⟨20, true⟩ true)).1 = [⟨20, some 7⟩] := by decide
  refine hall _ [.launch shortLived ⟨true, true, true, true⟩, .release 0]
    (.subscribe 2 [0x73] ⟨20, true⟩ true) [] rfl ⟨20, some 7⟩ ?_ 7 rfl (by decide)
  rw [step]
  exact List.mem_singleton_self _

end DriversFramework.ServiceObserver
