import DriversFramework.HdfUtils

/-! Publications and subscriptions, in the order of the calls. Allocations succeed,
and with them both calls. A callback is what it is called with: its device
object and the published service, which may be null. -/
namespace DriversFramework.ServiceObserver
open HdfSList

def servicePolicyPrivate : UInt16 := 4

structure SubscriberCallback where
 deviceObject : ℕ
 /-- Whether `OnServiceConnected` is set. -/
 onServiceConnected : Bool
 deriving DecidableEq

inductive SubscriberState where
 | pending
 | ready
 deriving DecidableEq

structure HdfServiceSubscriber where
 state : SubscriberState
 devId : UInt32
 callback : SubscriberCallback
 deriving DecidableEq

structure HdfServiceObserverRecord where
 serviceKey : UInt32
 policy : UInt16
 devId : UInt32
 subscribers : List HdfServiceSubscriber
 publisher : Option ℕ
 deriving DecidableEq

structure HdfServiceObserver where
 services : List HdfServiceObserverRecord
 deriving DecidableEq

structure Connected where
 deviceObject : ℕ
 service : Option ℕ
 deriving DecidableEq

def recordObtain (serviceKey : UInt32) : HdfServiceObserverRecord :=
 ⟨serviceKey, 0, 0, [], none⟩

def recordCompare (serviceKey : UInt32) (record : HdfServiceObserverRecord) : Bool :=
 record.serviceKey == serviceKey

def subscriberObtain (callback : SubscriberCallback) (devid : UInt32) : HdfServiceSubscriber :=
 ⟨.pending, devid, callback⟩

def addSubscriber (subscriber : HdfServiceSubscriber) (record : HdfServiceObserverRecord) :
  HdfServiceObserverRecord :=
 { record with subscribers := subscriber :: record.subscribers }

def subscribeService (observer : HdfServiceObserver) (svcName : List UInt8) (devid : UInt32)
  (callback : SubscriberCallback) : List Connected × HdfServiceObserver :=
 let serviceKey := hdfStringMakeHashKey svcName 0
 let found := observer.services.find? (recordCompare serviceKey)
 let services := match found with
  | none => recordObtain serviceKey :: observer.services
  | some _ => observer.services
 let record := found.getD (recordObtain serviceKey)
 let subscriber := subscriberObtain callback devid
 if record.publisher ≠ none ∧ callback.onServiceConnected = true ∧
   (record.policy ≠ servicePolicyPrivate ∨ record.devId = devid) then
  ([⟨callback.deviceObject, record.publisher⟩],
   ⟨updateFirst (recordCompare serviceKey) (addSubscriber { subscriber with state := .ready })
    services⟩)
 else ([], ⟨updateFirst (recordCompare serviceKey) (addSubscriber subscriber) services⟩)

def notifyLoop (publisher : Option ℕ) (devId : UInt32) (policy : UInt16) :
  List HdfServiceSubscriber → List Connected × List HdfServiceSubscriber
 | [] => ([], [])
 | subscriber :: rest =>
  let later := notifyLoop publisher devId policy rest
  if devId = subscriber.devId ∨ policy ≠ servicePolicyPrivate then
   (if subscriber.callback.onServiceConnected then
     ⟨subscriber.callback.deviceObject, publisher⟩ :: later.1
    else later.1,
    { subscriber with state := .ready } :: later.2)
  else (later.1, subscriber :: later.2)

def recordNotifySubscribers (record : HdfServiceObserverRecord) (devId : UInt32)
  (policy : UInt16) : List Connected × HdfServiceObserverRecord :=
 let notified := notifyLoop record.publisher devId policy record.subscribers
 (notified.1, { record with subscribers := notified.2 })

def publishService (observer : HdfServiceObserver) (svcName : List UInt8) (devId : UInt32)
  (policy : UInt16) (service : Option ℕ) : List Connected × HdfServiceObserver :=
 let serviceKey := hdfStringMakeHashKey svcName 0
 match observer.services.find? (recordCompare serviceKey) with
 | none =>
  ([], ⟨{ recordObtain serviceKey with publisher := service, devId, policy } ::
   observer.services⟩)
 | some record =>
  let notified := recordNotifySubscribers { record with publisher := service } devId policy
  (notified.1,
   ⟨updateFirst (recordCompare serviceKey) (fun _ => notified.2) observer.services⟩)

structure Publication where
 devId : UInt32
 policy : UInt16
 service : Option ℕ
 deriving DecidableEq

inductive Event where
 | subscribe (devid : UInt32) (callback : SubscriberCallback)
 | publish (publication : Publication)
 deriving DecidableEq

/-- A call for the service of a given name. -/
def HdfServiceObserver.step (observer : HdfServiceObserver) (svcName : List UInt8) :
  Event → List Connected × HdfServiceObserver
 | .subscribe devid callback => subscribeService observer svcName devid callback
 | .publish p => publishService observer svcName p.devId p.policy p.service

/-- The callbacks made in each call of a history. -/
def HdfServiceObserver.log (observer : HdfServiceObserver) (svcName : List UInt8) :
  List Event → List (List Connected)
 | [] => []
 | event :: rest =>
  let now := observer.step svcName event
  now.1 :: now.2.log svcName rest

def Admits (devId : UInt32) (policy : UInt16) (devid : UInt32) : Prop :=
 policy ≠ servicePolicyPrivate ∨ devId = devid

instance (devId : UInt32) (policy : UInt16) (devid : UInt32) :
  Decidable (Admits devId policy devid) :=
 inferInstanceAs (Decidable (_ ∨ _))

section Histories

def Event.publication? : Event → Option Publication
 | .publish p => some p
 | .subscribe _ _ => none

def Event.subscription? : Event → Option (UInt32 × SubscriberCallback)
 | .publish _ => none
 | .subscribe devid callback => some (devid, callback)

def lastPublication (history : List Event) : Option Publication :=
 history.reverse.findSome? Event.publication?

def subscribers (history : List Event) : List (UInt32 × SubscriberCallback) :=
 history.reverse.filterMap Event.subscription?

def required (history : List Event) : Event → List Connected
 | .subscribe devid callback =>
  match lastPublication history with
  | none => []
  | some p =>
   if callback.onServiceConnected = true ∧ Admits p.devId p.policy devid then
    [⟨callback.deviceObject, p.service⟩]
   else []
 | .publish p =>
  (subscribers history).filterMap fun s =>
   if s.2.onServiceConnected = true ∧ Admits p.devId p.policy s.1 then
    some ⟨s.2.deviceObject, p.service⟩
   else none

def requiredLog (history : List Event) : List Event → List (List Connected)
 | [] => []
 | event :: rest => required history event :: requiredLog (history ++ [event]) rest

def recorded (history : List Event) : UInt32 × UInt16 :=
 match history.head? with
 | some (.publish p) => (p.devId, p.policy)
 | _ => (0, 0)

/-- The last publication is of a service, and admits a subscriber just when the
recorded device id and policy do; a subscriber without a callback never tells. -/
def Agrees (history : List Event) : Event → Prop
 | .publish _ => True
 | .subscribe devid callback =>
  ∀ p, lastPublication history = some p → callback.onServiceConnected = true →
   (p.service ≠ none ∧ Admits (recorded history).1 (recorded history).2 devid ↔
    Admits p.devId p.policy devid)

theorem lastPublication_append (history : List Event) (event : Event) :
  lastPublication (history ++ [event]) =
   (event.publication?).or (lastPublication history) := by
 rw [lastPublication, List.reverse_append, List.reverse_singleton, List.singleton_append,
  List.findSome?_cons, lastPublication]
 cases event.publication? <;> rfl

theorem subscribers_append (history : List Event) (event : Event) :
  subscribers (history ++ [event]) =
   (event.subscription?).toList ++ subscribers history := by
 rw [subscribers, List.reverse_append, List.reverse_singleton, List.singleton_append,
  List.filterMap_cons, subscribers]
 cases event.subscription? <;> rfl

theorem recorded_append {history : List Event} (h : history ≠ []) (event : Event) :
  recorded (history ++ [event]) = recorded history := by
 rw [recorded, recorded, List.head?_append_of_ne_nil _ h]

end Histories

inductive Tracks (key : UInt32) (history : List Event) (observer : HdfServiceObserver) : Prop
 | fresh (hhistory : history = [])
   (hnone : observer.services.find? (recordCompare key) = none)
 | record (hhistory : history ≠ []) (record : HdfServiceObserverRecord)
   (hfound : observer.services.find? (recordCompare key) = some record)
   (hpublisher : record.publisher = (lastPublication history).bind Publication.service)
   (hrecorded : (record.devId, record.policy) = recorded history)
   (hsubscribers : record.subscribers.map (fun s => (s.devId, s.callback)) =
    subscribers history)

section Step
variable {observer : HdfServiceObserver} {svcName : List UInt8} {history : List Event}

theorem notifyLoop_spec (publisher : Option ℕ) (devId : UInt32) (policy : UInt16)
  (list : List HdfServiceSubscriber) :
  (notifyLoop publisher devId policy list).1 =
    (list.map fun s => (s.devId, s.callback)).filterMap (fun s =>
     if s.2.onServiceConnected = true ∧ Admits devId policy s.1 then
      some ⟨s.2.deviceObject, publisher⟩
     else none) ∧
   (notifyLoop publisher devId policy list).2.map (fun s => (s.devId, s.callback)) =
    list.map fun s => (s.devId, s.callback) := by
 induction list with
 | nil => exact ⟨rfl, rfl⟩
 | cons subscriber rest ih =>
  obtain ⟨calls, kept⟩ := ih
  have rule : (devId = subscriber.devId ∨ policy ≠ servicePolicyPrivate) ↔
    Admits devId policy subscriber.devId := or_comm
  rw [notifyLoop]
  by_cases admitted : Admits devId policy subscriber.devId
  · rw [if_pos (rule.mpr admitted)]
    by_cases connected : subscriber.callback.onServiceConnected = true <;>
     simp [admitted, connected, calls, kept]
  · rw [if_neg fun h => admitted (rule.mp h)]
    simp [admitted, calls, kept]

theorem compare_found {key : UInt32} {record : HdfServiceObserverRecord}
  (h : observer.services.find? (recordCompare key) = some record) :
  recordCompare key record = true :=
 List.find?_some h

theorem publish_calls (p : Publication)
  (h : Tracks (hdfStringMakeHashKey svcName 0) history observer) :
  (observer.step svcName (.publish p)).1 = required history (.publish p) := by
 rw [HdfServiceObserver.step, publishService, required]
 cases h with
 | fresh hhistory hnone =>
  rw [hnone, hhistory]
  rfl
 | record hhistory record hfound hpublisher hrecorded hsubscribers =>
  rw [hfound, ← hsubscribers]
  exact (notifyLoop_spec p.service p.devId p.policy record.subscribers).1

theorem publish_tracks (p : Publication)
  (h : Tracks (hdfStringMakeHashKey svcName 0) history observer) :
  Tracks (hdfStringMakeHashKey svcName 0) (history ++ [.publish p])
   (observer.step svcName (.publish p)).2 := by
 rw [HdfServiceObserver.step, publishService]
 cases h with
 | fresh hhistory hnone =>
  subst hhistory
  rw [hnone]
  refine Tracks.record (by simp)
   ⟨hdfStringMakeHashKey svcName 0, p.policy, p.devId, [], p.service⟩ ?_ rfl rfl rfl
  simp [recordCompare, recordObtain]
 | record hhistory record hfound hpublisher hrecorded hsubscribers =>
  rw [hfound]
  apply Tracks.record (by simp) _ ?_ ?_ ?_ ?_
  · exact (recordNotifySubscribers { record with publisher := p.service } p.devId p.policy).2
  · rw [find?_updateFirst, hfound]
    · rfl
    · intro found h
      exact @compare_found observer _ record hfound
  · rw [lastPublication_append]
    rfl
  · rw [recorded_append hhistory]
    exact hrecorded
  · rw [subscribers_append, ← hsubscribers]
    exact (notifyLoop_spec p.service p.devId p.policy record.subscribers).2

theorem subscribe_tracks (devid : UInt32) (callback : SubscriberCallback)
  (h : Tracks (hdfStringMakeHashKey svcName 0) history observer) :
  Tracks (hdfStringMakeHashKey svcName 0) (history ++ [.subscribe devid callback])
   (observer.step svcName (.subscribe devid callback)).2 := by
 have added : ∃ state, (observer.step svcName (.subscribe devid callback)).2 =
   ⟨updateFirst (recordCompare (hdfStringMakeHashKey svcName 0))
    (addSubscriber ⟨state, devid, callback⟩)
    (match observer.services.find? (recordCompare (hdfStringMakeHashKey svcName 0)) with
     | none => recordObtain (hdfStringMakeHashKey svcName 0) :: observer.services
     | some _ => observer.services)⟩ := by
  rw [HdfServiceObserver.step, subscribeService]
  split_ifs
  · exact ⟨.ready, rfl⟩
  · exact ⟨.pending, rfl⟩
 obtain ⟨state, after⟩ := added
 rw [after]
 cases h with
 | fresh hhistory hnone =>
  subst hhistory
  rw [hnone]
  refine Tracks.record (by simp)
   (addSubscriber ⟨state, devid, callback⟩ (recordObtain (hdfStringMakeHashKey svcName 0)))
   ?_ rfl rfl rfl
  simp [updateFirst, recordCompare, recordObtain, addSubscriber]
 | record hhistory record hfound hpublisher hrecorded hsubscribers =>
  rw [hfound]
  refine Tracks.record (by simp) (addSubscriber ⟨state, devid, callback⟩ record) ?_ ?_ ?_ ?_
  · rw [find?_updateFirst, hfound]
    · rfl
    · intro found h
      exact @compare_found observer _ found h
  · rw [lastPublication_append]
    exact hpublisher
  · rw [recorded_append hhistory]
    exact hrecorded
  · rw [subscribers_append, ← hsubscribers]
    rfl

theorem subscribe_calls_iff (devid : UInt32) (callback : SubscriberCallback)
  (h : Tracks (hdfStringMakeHashKey svcName 0) history observer) :
  (observer.step svcName (.subscribe devid callback)).1 =
    required history (.subscribe devid callback) ↔
   Agrees history (.subscribe devid callback) := by
 rw [HdfServiceObserver.step, subscribeService, required, Agrees]
 cases h with
 | fresh hhistory hnone =>
  subst hhistory
  simp [hnone, recordObtain, lastPublication]
 | record hhistory record hfound hpublisher hrecorded hsubscribers =>
  rw [hfound, ← hrecorded]
  simp only [Option.getD_some, hpublisher]
  cases published : lastPublication history with
  | none => simp
  | some p =>
   rw [Option.bind_some]
   have rule : (record.policy ≠ servicePolicyPrivate ∨ record.devId = devid) ↔
     Admits record.devId record.policy devid := Iff.rfl
   by_cases connected : callback.onServiceConnected = true
   · simp only [connected, true_and, rule, Option.some.injEq, forall_eq', forall_const]
     by_cases stored : p.service ≠ none ∧ Admits record.devId record.policy devid <;>
      by_cases admitted : Admits p.devId p.policy devid <;>
       simp [stored, admitted]
   · simp [connected]

theorem step_iff (event : Event)
  (h : Tracks (hdfStringMakeHashKey svcName 0) history observer) :
  ((observer.step svcName event).1 = required history event ↔ Agrees history event) ∧
   Tracks (hdfStringMakeHashKey svcName 0) (history ++ [event])
    (observer.step svcName event).2 := by
 cases event with
 | subscribe devid callback =>
  exact ⟨subscribe_calls_iff devid callback h, subscribe_tracks devid callback h⟩
 | publish p => exact ⟨iff_of_true (publish_calls p h) trivial, publish_tracks p h⟩

theorem log_eq_iff (events : List Event)
  (h : Tracks (hdfStringMakeHashKey svcName 0) history observer) :
  observer.log svcName events = requiredLog history events ↔
   ∀ before event after, events = before ++ event :: after →
    Agrees (history ++ before) event := by
 induction events generalizing history observer with
 | nil =>
  apply iff_of_true rfl
  intro before event after hsplit
  simp at hsplit
 | cons event rest ih =>
  obtain ⟨now, tracks⟩ := step_iff event h
  rw [HdfServiceObserver.log, requiredLog, List.cons.injEq, now, ih tracks]
  constructor
  · rintro ⟨first, later⟩ before next after hsplit
    cases before with
    | nil =>
     obtain ⟨rfl, -⟩ := List.cons.inj hsplit
     rw [List.append_nil]
     exact first
    | cons first' before =>
     obtain ⟨rfl, hrest⟩ := List.cons.inj hsplit
     rw [List.append_cons]
     exact later before next after hrest
  · intro all
    refine ⟨by simpa using all [] event rest rfl, ?_⟩
    intro before next after hsplit
    have agrees := all (event :: before) next after (by rw [hsplit]; rfl)
    rwa [List.append_cons] at agrees

end Step

/-- From an observer without a record for the service, the calls of a history
make the callbacks they have to make exactly when each subscription finds the
recorded device id and policy in agreement with the last publication. -/
theorem callbacks_right_iff (observer : HdfServiceObserver) (svcName : List UInt8)
    (history : List Event)
    (hnone : observer.services.find? (recordCompare (hdfStringMakeHashKey svcName 0)) = none) :
    observer.log svcName history = requiredLog [] history ↔
      ∀ before event after, history = before ++ event :: after → Agrees before event :=
  log_eq_iff history (Tracks.fresh rfl hnone)

/-- A subscriber, a private publication of another device, then a stranger. -/
def strangerHistory : List Event :=
 [.subscribe 1 ⟨10, true⟩, .publish ⟨2, servicePolicyPrivate, some 7⟩, .subscribe 3 ⟨30, true⟩]

theorem callbacks_right_two_friends :
    HdfServiceObserver.log ⟨[]⟩ [115] [.publish ⟨2, 1, some 7⟩, .subscribe 3 ⟨30, true⟩] =
        requiredLog [] [.publish ⟨2, 1, some 7⟩, .subscribe 3 ⟨30, true⟩] ↔
      ∀ before event after,
        [Event.publish ⟨2, 1, some 7⟩, .subscribe 3 ⟨30, true⟩] = before ++ event :: after →
          Agrees before event :=
  callbacks_right_iff ⟨[]⟩ [115] _ rfl

/-- The stranger is connected to the private service. -/
theorem stranger_connected :
    HdfServiceObserver.log ⟨[]⟩ [115] strangerHistory = [[], [], [⟨30, some 7⟩]] ∧
      requiredLog [] strangerHistory = [[], [], []] := by
  decide

end DriversFramework.ServiceObserver
