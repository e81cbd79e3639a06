import DriversFramework.SyscallListen
import Mathlib.Data.List.Nodup

namespace DriversFramework.Syscall

open RunRules

def ListenState.listenersOn (s : ListenState) (fd : ℕ) : Set ℕ :=
 fun listener => (listener, .device fd) ∈ s.listeners

theorem mem_listenersOn {s : ListenState} {fd listener : ℕ} :
  listener ∈ s.listenersOn fd ↔ (listener, .device fd) ∈ s.listeners := Iff.rfl

/-- `HdfDeviceRegisterEventListener` with the checks of its arguments. The listeners that have a
`callBack` or `onReceive` are those that handle events. -/
def registerEventListener (handles : ℕ → Bool) (s : ListenState) (target listener : Option ℕ)
  (env : ListenEnv) : Option (Bool × ListenState) :=
 match target, listener with
 | some fd, some listener =>
  if handles listener = false then some (false, s)
  else hdfDeviceRegisterEventListener s fd listener env
 | _, _ => some (false, s)

/-- `HdfDeviceUnregisterEventListener` with the checks of its arguments. -/
def unregisterEventListener (s : ListenState) (target listener : Option ℕ) : Bool × ListenState :=
 match target, listener with
 | some fd, some listener => hdfDeviceUnregisterEventListener s fd listener
 | _, _ => (false, s)

inductive DriverCall where
 | stopListen (fd : ℕ)
 | wakeup (fd : ℕ)
 | exitListen (fd : ℕ)
 deriving DecidableEq

/-- What the drivers are told by `HdfIoServiceGroupRemoveService`; of a thread that runs each driver
is told to let it exit. -/
def removeServiceCalls (s : ListenState) (id fd : ℕ) : List DriverCall :=
 match (s.groups id).thread, (s.adapters fd).group with
 | some thread, some _ =>
  if (s.groups id).adapterList.length = 1 then
   if thread.status = .running then thread.pfds.filterMap fun pfd => pfd.map .exitListen else []
  else [.stopListen fd, .wakeup fd]
 | _, _ => []

def StartFails (pfds : List (Option ℕ)) (adapters : List ℕ) (env : ListenEnv) : Prop :=
 (hdfListenThreadInitPollFds env.grow adapters pfds).1 = false ∨
  (hdfListenThreadInitPollFds env.grow adapters pfds).2 = [] ∨
  (∃ fd, some fd ∈ (hdfListenThreadInitPollFds env.grow adapters pfds).2 ∧
   env.startIoctl fd = false) ∨
  env.threadStart = false

def GroupStartFails (s : ListenState) (id : ℕ) (env : ListenEnv) : Prop :=
 ((s.groups id).thread = none ∧ (env.obtain_ = false ∨
   StartFails [] (s.groups id).adapterList env)) ∨
  ∃ thread, (s.groups id).thread = some thread ∧ thread.status.isStarted = false ∧
   StartFails thread.pfds (s.groups id).adapterList env

variable {s s' : ListenState} {id fd listener : ℕ} {env : ListenEnv}

theorem refused_iff (pfds : List (Option ℕ)) :
  (pfds.any fun pfd => pfd.any fun fd => !env.startIoctl fd) = true ↔
   ∃ fd, some fd ∈ pfds ∧ env.startIoctl fd = false := by
 rw [List.any_eq_true]
 constructor
 · rintro ⟨_ | fd, mem, refused⟩
   · cases refused
   · exact ⟨fd, mem, by simpa using refused⟩
 · rintro ⟨fd, mem, refused⟩
   exact ⟨some fd, mem, by simpa using refused⟩

theorem threadStart_fails_iff (env : ListenEnv) (thread : HdfDevListenerThread) (adapters : List ℕ)
  (still : thread.status.isStarted = false) :
  (hdfDevListenerThreadStart (hdfDevListenerThreadInit thread) adapters env).1 = false ↔
   StartFails thread.pfds adapters env := by
 obtain ⟨same, inited⟩ : (hdfDevListenerThreadInit thread).pfds = thread.pfds ∧
   (hdfDevListenerThreadInit thread).status = .inited := by
  unfold hdfDevListenerThreadInit
  cases hstatus : thread.status <;> simp_all [ListenerStatus.isStarted]
 have asleep : ¬ (hdfDevListenerThreadInit thread).status.isStarted = true := by
  rw [inited]
  exact Bool.false_ne_true
 unfold hdfDevListenerThreadStart StartFails
 rw [if_neg asleep, if_neg (not_not.mpr inited), same]
 dsimp only
 split_ifs with init refused
 · exact iff_of_true rfl (init.imp_right .inl)
 · exact iff_of_true rfl (.inr (.inr (.inl ((refused_iff _).mp refused))))
 · rw [not_or] at init
   rw [refused_iff] at refused
   exact ⟨fun h => .inr (.inr (.inr h)), fun h =>
    ((h.resolve_left init.1).resolve_left init.2).resolve_left refused⟩

theorem groupThreadStart_fails_iff (s : ListenState) (id : ℕ) (env : ListenEnv) :
  (hdfIoServiceGroupThreadStart s id env).1 = false ↔ GroupStartFails s id env := by
 unfold hdfIoServiceGroupThreadStart GroupStartFails
 cases hthread : (s.groups id).thread with
 | none =>
  cases hobtain : env.obtain_ with
  | false => simp [hdfDevListenerThreadObtain, hthread, hobtain]
  | true =>
   have start := threadStart_fails_iff env ⟨[], .inited⟩ (s.groups id).adapterList rfl
   simpa [hdfDevListenerThreadObtain, hthread, hobtain, hdfDevListenerThreadInit] using start
 | some thread =>
  cases hstatus : thread.status.isStarted with
  | false =>
   have start := threadStart_fails_iff env thread (s.groups id).adapterList hstatus
   simpa [hdfDevListenerThreadObtain, hthread, hstatus] using start
  | true =>
   have same : hdfDevListenerThreadInit thread = thread := by
    refine if_neg fun exited => ?_
    rw [exited] at hstatus
    cases hstatus
   simp [hdfDevListenerThreadObtain, hdfDevListenerThreadStart, hthread, same, hstatus]

theorem groupThreadStart_listeners (s : ListenState) (id : ℕ) (env : ListenEnv) :
  (hdfIoServiceGroupThreadStart s id env).2.listeners = s.listeners := by
 unfold hdfIoServiceGroupThreadStart
 dsimp only
 cases hdfDevListenerThreadObtain (s.groups id).thread env <;> rfl

theorem startListen_listeners : (hdfIoServiceStartListen s fd env).2.listeners = s.listeners := by
 unfold hdfIoServiceStartListen
 dsimp only
 cases hdfDevListenerThreadObtain (s.adapters fd).thread env <;> rfl

theorem not_listed (free : s.isListed listener = false) (place : Place) :
  (listener, place) ∉ s.listeners := by
 intro mem
 rw [ListenState.isListed, List.any_eq_false] at free
 exact free _ mem (by simp)

theorem remove_inserted (free : s.isListed listener = false)
  (same : s'.listeners = (s.insert listener (.device fd)).listeners) :
  (s'.remove listener).listeners = s.listeners := by
 rw [ListenState.isListed, List.any_eq_false] at free
 change s'.listeners.filter _ = _
 rw [same]
 change (s.listeners ++ [(listener, Place.device fd)]).filter _ = _
 rw [List.filter_append, List.filter_eq_self.mpr fun e he => by simpa using free e he]
 simp

/-- A new listener of a service in a group whose thread does not start. -/
def LeftBehind (handles : ℕ → Bool) (s : ListenState) (target listener : Option ℕ)
  (env : ListenEnv) : Prop :=
 ∃ fd l id, target = some fd ∧ listener = some l ∧ handles l = true ∧ s.isListed l = false ∧
  (s.adapters fd).group = some id ∧ GroupStartFails s id env

theorem register_listeners (failed : hdfDeviceRegisterEventListener s fd listener env =
  some (false, s')) :
  s'.listeners = s.listeners ∧
    ¬ (s.isListed listener = false ∧ ∃ id, (s.adapters fd).group = some id ∧
     GroupStartFails s id env) ∨
   s'.listeners = s.listeners ++ [(listener, .device fd)] ∧ s.isListed listener = false ∧
    ∃ id, (s.adapters fd).group = some id ∧ GroupStartFails s id env := by
 unfold hdfDeviceRegisterEventListener at failed
 split_ifs at failed with known listed
 · cases failed
   exact .inl ⟨rfl, fun new => not_listed new.1 _ known⟩
 · rw [Bool.not_eq_true] at listed
   dsimp only at failed
   cases hgroup : (s.adapters fd).group with
   | none =>
    have alone : ((s.insert listener (.device fd)).adapters fd).group = none := hgroup
    rw [alone] at failed
    dsimp only at failed
    obtain ⟨hfalse, rfl⟩ := Prod.mk.inj (Option.some.inj failed)
    refine .inl ⟨?_, by rintro ⟨_, _, ⟨⟩, _⟩⟩
    rw [if_neg (by simp [hfalse])]
    exact remove_inserted listed startListen_listeners
   | some id =>
    have joined : ((s.insert listener (.device fd)).adapters fd).group = some id := hgroup
    rw [joined] at failed
    have out := Option.some.inj failed
    have hfalse := (groupThreadStart_fails_iff _ id env).mp (congrArg Prod.fst out)
    refine .inr ⟨?_, listed, id, rfl, hfalse⟩
    have after := groupThreadStart_listeners (s.insert listener (.device fd)) id env
    rw [out] at after
    exact after

/-- A call that fails leaves the listeners of the adapter as they were, unless it is the
registration of a new listener on a member of a group whose thread cannot be started. -/
theorem failures_keep_listeners_iff (handles : ℕ → Bool) (s : ListenState)
    (target listener : Option ℕ) (env : ListenEnv) :
    ((∀ s', registerEventListener handles s target listener env = some (false, s') →
        ∀ fd ∈ target, s'.listenersOn fd = s.listenersOn fd) ↔
      ¬ LeftBehind handles s target listener env) ∧
    ((unregisterEventListener s target listener).1 = false →
      ∀ fd ∈ target, (unregisterEventListener s target listener).2.listenersOn fd =
        s.listenersOn fd) := by
  refine ⟨⟨?_, ?_⟩, ?_⟩
  · rintro kept ⟨fd, l, id, rfl, rfl, handled, free, joined, fails⟩
    have joined' : ((s.insert l (.device fd)).adapters fd).group = some id := joined
    have run : registerEventListener handles s (some fd) (some l) env = some
        (false, (hdfIoServiceGroupThreadStart (s.insert l (.device fd)) id env).2) := by
      have failed := (groupThreadStart_fails_iff (s.insert l (.device fd)) id env).mpr fails
      unfold registerEventListener hdfDeviceRegisterEventListener
      dsimp only
      rw [if_neg (by simp [handled]), if_neg (not_listed free _), if_neg (by simp [free]), joined']
      dsimp only
      rw [← failed]
    have same := kept _ run fd rfl
    have mem : l ∈ s.listenersOn fd := by
      rw [← same, mem_listenersOn, groupThreadStart_listeners]
      exact List.mem_append_right _ List.mem_cons_self
    exact not_listed free _ mem
  · rintro right s' failed fd ⟨⟩
    cases listener with
    | none =>
      obtain ⟨_, rfl⟩ := Prod.mk.inj (Option.some.inj failed)
      rfl
    | some l =>
      unfold registerEventListener at failed
      dsimp only at failed
      split_ifs at failed with handled
      · obtain ⟨_, rfl⟩ := Prod.mk.inj (Option.some.inj failed)
        rfl
      · rcases register_listeners failed with ⟨same, _⟩ | ⟨_, free, id, joined, fails⟩
        · unfold ListenState.listenersOn
          rw [same]
        · exact absurd ⟨fd, l, id, rfl, rfl, by simpa using handled, free, joined, fails⟩ right
  · rintro failed fd ⟨⟩
    cases listener with
    | none => rfl
    | some l =>
      change (hdfDeviceUnregisterEventListener s fd l).1 = false at failed
      change (hdfDeviceUnregisterEventListener s fd l).2.listenersOn fd = _
      unfold hdfDeviceUnregisterEventListener at failed ⊢
      split_ifs at failed ⊢
      rfl

/-- What works where the drivers do not start to listen. -/
def noDriver : ListenEnv := ⟨true, fun _ => true, fun _ => false, true, true⟩

/-- Service 5 is in a group, and its driver does not start to listen: the call fails, and
listener 7 stays. -/
theorem group_listener_left :
    ∃ s s', (ListenState.start.call (.addService 0 5 noDriver)) = some (true, s) ∧
      registerEventListener (fun _ => true) s (some 5) (some 7) noDriver = some (false, s') ∧
      7 ∉ s.listenersOn 5 ∧ 7 ∈ s'.listenersOn 5 := by
  refine ⟨_, _, rfl, rfl, ?_, ?_⟩
  · change (7, Place.device 5) ∉ []
    exact List.not_mem_nil
  · change (7, Place.device 5) ∈ [(7, Place.device 5)]
    exact List.mem_cons_self

def ListenState.run (s : ListenState) (call : ListenCall) : Option ListenState :=
 (s.call call).map Prod.snd

structure Joined (s : ListenState) : Prop where
 nodup : ∀ id, (s.groups id).adapterList.Nodup
 member : ∀ id fd, fd ∈ (s.groups id).adapterList ↔ (s.adapters fd).group = some id

structure SameJoined (s s' : ListenState) : Prop where
 lists : ∀ id, (s'.groups id).adapterList = (s.groups id).adapterList
 pointers : ∀ fd, (s'.adapters fd).group = (s.adapters fd).group

theorem Joined.of_same (joined : Joined s) (same : SameJoined s s') : Joined s' := by
 refine ⟨fun id => ?_, fun id fd => ?_⟩
 · rw [same.lists]
   exact joined.nodup id
 · rw [same.lists, same.pointers]
   exact joined.member id fd

theorem SameJoined.refl (s : ListenState) : SameJoined s s := ⟨fun _ => rfl, fun _ => rfl⟩

theorem SameJoined.trans {t : ListenState} (first : SameJoined s s') (second : SameJoined s' t) :
  SameJoined s t :=
 ⟨fun id => (second.lists id).trans (first.lists id),
  fun fd => (second.pointers fd).trans (first.pointers fd)⟩

theorem sameJoined_setGroup (s : ListenState) (id : ℕ) (group : HdfSyscallAdapterGroup)
  (same : group.adapterList = (s.groups id).adapterList) : SameJoined s (s.setGroup id group) := by
 refine ⟨fun i => ?_, fun _ => rfl⟩
 by_cases hi : i = id
 · subst hi
   simpa [ListenState.setGroup] using same
 · simp [ListenState.setGroup, hi]

theorem sameJoined_setAdapter (s : ListenState) (fd : ℕ) (adapter : HdfSyscallAdapter)
  (same : adapter.group = (s.adapters fd).group) : SameJoined s (s.setAdapter fd adapter) := by
 refine ⟨fun _ => rfl, fun x => ?_⟩
 by_cases hx : x = fd
 · subst hx
   simpa [ListenState.setAdapter] using same
 · simp [ListenState.setAdapter, hx]

theorem sameJoined_insert (s : ListenState) (listener : ℕ) (place : Place) :
  SameJoined s (s.insert listener place) := ⟨fun _ => rfl, fun _ => rfl⟩

theorem sameJoined_remove (s : ListenState) (listener : ℕ) : SameJoined s (s.remove listener) :=
 ⟨fun _ => rfl, fun _ => rfl⟩

theorem sameJoined_groupThreadStart (s : ListenState) (id : ℕ) (env : ListenEnv) :
  SameJoined s (hdfIoServiceGroupThreadStart s id env).2 := by
 unfold hdfIoServiceGroupThreadStart
 dsimp only
 cases hdfDevListenerThreadObtain (s.groups id).thread env with
 | none => exact .refl s
 | some thread => exact sameJoined_setGroup s id _ rfl

theorem sameJoined_startListen (s : ListenState) (fd : ℕ) (env : ListenEnv) :
  SameJoined s (hdfIoServiceStartListen s fd env).2 := by
 unfold hdfIoServiceStartListen
 dsimp only
 cases hdfDevListenerThreadObtain (s.adapters fd).thread env with
 | none => exact .refl s
 | some thread => exact sameJoined_setAdapter s fd _ rfl

theorem sameJoined_registerDevice {out : Bool × ListenState}
  (h : hdfDeviceRegisterEventListener s fd listener env = some out) : SameJoined s out.2 := by
 have listed := sameJoined_insert s listener (.device fd)
 unfold hdfDeviceRegisterEventListener at h
 split_ifs at h
 · cases h
   exact .refl s
 · dsimp only at h
   cases hgroup : (s.adapters fd).group with
   | none =>
    have alone : ((s.insert listener (.device fd)).adapters fd).group = none := hgroup
    rw [alone] at h
    cases h
    have started := sameJoined_startListen (s.insert listener (.device fd)) fd env
    dsimp only
    split_ifs
    · exact listed.trans started
    · exact (listed.trans started).trans (sameJoined_remove _ listener)
   | some id =>
    have joined : ((s.insert listener (.device fd)).adapters fd).group = some id := hgroup
    rw [joined] at h
    cases h
    exact listed.trans (sameJoined_groupThreadStart _ id env)

theorem sameJoined_unregisterDevice :
  SameJoined s (hdfDeviceUnregisterEventListener s fd listener).2 := by
 have removed := sameJoined_remove s listener
 unfold hdfDeviceUnregisterEventListener
 split_ifs
 · exact .refl s
 · dsimp only
   split_ifs
   · exact removed
   · exact removed.trans (sameJoined_setAdapter _ fd _ rfl)

theorem sameJoined_registerGroup {out : Bool × ListenState}
  (h : hdfIoServiceGroupRegisterListener s id listener env = some out) : SameJoined s out.2 := by
 unfold hdfIoServiceGroupRegisterListener at h
 dsimp only at h
 cases obtained : hdfDevListenerThreadObtain (s.groups id).thread env with
 | none =>
  rw [obtained] at h
  cases h
  exact .refl s
 | some thread =>
  rw [obtained] at h
  dsimp only at h
  have bound := sameJoined_setGroup s id { s.groups id with thread := some thread } rfl
  have listed := bound.trans (sameJoined_insert _ listener (.group id))
  have kept := (listed.lists id).symm
  have started := listed.trans (sameJoined_setGroup _ id ⟨(s.groups id).adapterList,
   some (hdfDevListenerThreadStart thread (s.groups id).adapterList env).2⟩ kept)
  split_ifs at h
  · cases h
    exact bound
  · cases h
    exact started
  · cases h
    exact started.trans (sameJoined_remove _ listener)
  · cases h
    exact listed

theorem sameJoined_unregisterGroup :
  SameJoined s (hdfIoServiceGroupUnregisterListener s id listener).2 := by
 have removed := sameJoined_remove s listener
 unfold hdfIoServiceGroupUnregisterListener
 split_ifs
 · exact .refl s
 · dsimp only
   split_ifs
   · exact removed.trans (sameJoined_setGroup _ id _ rfl)
   · exact removed

theorem sameJoined_setStatus (s : ListenState) (place : Place) (status : ListenerStatus) :
  SameJoined s (s.setStatus place status) := by
 cases place with
 | device fd => exact sameJoined_setAdapter s fd _ rfl
 | group id => exact sameJoined_setGroup s id _ rfl

theorem pollAdd_list (thread : HdfDevListenerThread) (adapterList : List ℕ) (fd : ℕ)
  (env : ListenEnv) :
  (hdfListenThreadPollAdd thread adapterList fd env).2.2 =
   bif (hdfListenThreadPollAdd thread adapterList fd env).1 then adapterList ++ [fd]
   else adapterList := by
 unfold hdfListenThreadPollAdd
 by_cases still : thread.status.isStarted = false
 · rw [if_pos still]
   rfl
 rw [if_neg still]
 cases getValidPfdIndexLocked thread.pfds fd (env.grow fd) with
 | none => rfl
 | some found =>
  dsimp only
  by_cases failed : adapterList ≠ [] ∧ env.wakeup = false ∨ env.startIoctl fd = false
  · rw [if_pos failed]
    rfl
  · rw [if_neg failed]
    rfl

theorem Joined.add (joined : Joined s) (id : ℕ) (free : (s.adapters fd).group = none)
  (thread : Option HdfDevListenerThread) :
  Joined ((s.setGroup id ⟨(s.groups id).adapterList ++ [fd], thread⟩).setAdapter fd
   { s.adapters fd with group := some id }) := by
 have new : ∀ i, fd ∉ (s.groups i).adapterList := by
  intro i mem
  rw [joined.member, free] at mem
  cases mem
 refine ⟨fun i => ?_, fun i x => ?_⟩
 · by_cases hi : i = id
   · subst hi
     have nodup : ((s.groups i).adapterList ++ [fd]).Nodup :=
      List.nodup_append'.mpr ⟨joined.nodup i, List.nodup_singleton fd, by simpa using new i⟩
     simpa [ListenState.setAdapter, ListenState.setGroup] using nodup
   · simpa [ListenState.setAdapter, ListenState.setGroup, hi] using joined.nodup i
 · have old := joined.member i x
   by_cases hi : i = id
   · subst hi
     by_cases hx : x = fd
     · subst hx
       simp [ListenState.setAdapter, ListenState.setGroup]
     · simpa [ListenState.setAdapter, ListenState.setGroup, hx] using old
   · by_cases hx : x = fd
     · subst hx
       simpa [ListenState.setAdapter, ListenState.setGroup, hi, Ne.symm hi] using new i
     · simpa [ListenState.setAdapter, ListenState.setGroup, hx, hi] using old

theorem Joined.addService {out : Bool × ListenState} (joined : Joined s)
  (h : hdfIoServiceGroupAddService s id fd env = some out) : Joined out.2 := by
 unfold hdfIoServiceGroupAddService at h
 dsimp only at h
 by_cases grouped : (s.adapters fd).group = none
 · rw [if_neg (not_not.mpr grouped)] at h
   by_cases alone : (s.adapters fd).thread = none
   · rw [if_neg (not_not.mpr alone)] at h
     cases obtained : hdfDevListenerThreadObtain (s.groups id).thread env with
     | none =>
      rw [obtained] at h
      cases h
      exact joined
     | some thread =>
      rw [obtained] at h
      dsimp only at h
      have list := pollAdd_list thread (s.groups id).adapterList fd env
      cases added : (hdfListenThreadPollAdd thread (s.groups id).adapterList fd env).1 with
      | false =>
       rw [if_pos added] at h
       cases h
       rw [added] at list
       exact joined.of_same (sameJoined_setGroup s id _ list)
      | true =>
       rw [if_neg (by simp [added])] at h
       rw [added] at list
       rw [list, cond_true] at h
       have put := joined.add id grouped
        (some (hdfListenThreadPollAdd thread (s.groups id).adapterList fd env).2.1)
       split_ifs at h
       · cases h
         refine put.of_same (sameJoined_setGroup _ id _ ?_)
         simp [ListenState.setAdapter, ListenState.setGroup]
       · cases h
         exact put
   · rw [if_pos alone] at h
     cases h
     exact joined
 · rw [if_pos grouped] at h
   cases h
   exact joined

theorem Joined.removeService (joined : Joined s) :
  Joined (hdfIoServiceGroupRemoveService s id fd) := by
 unfold hdfIoServiceGroupRemoveService
 cases hthread : (s.groups id).thread with
 | none => exact joined
 | some thread =>
  cases hgroup : (s.adapters fd).group with
  | none => exact joined
  | some own =>
   dsimp only
   have left := joined.of_same (sameJoined_setGroup s id { s.groups id with
    thread := if (s.groups id).adapterList.length = 1 then none
     else some { thread with pfds := dropFd thread.pfds fd } } rfl)
   revert left
   generalize hleft : s.setGroup id _ = left'
   intro left
   have pointer : ∀ x, (left'.adapters x).group = (s.adapters x).group := by
    rw [← hleft]
    exact fun _ => rfl
   refine ⟨fun i => ?_, fun i x => ?_⟩
   · by_cases hi : i = own
     · subst hi
       simpa [ListenState.setAdapter, ListenState.setGroup] using (left.nodup i).erase fd
     · simpa [ListenState.setAdapter, ListenState.setGroup, hi] using left.nodup i
   · have old := left.member i x
     by_cases hx : x = fd
     · subst hx
       rw [pointer, hgroup, Option.some.injEq] at old
       by_cases hi : i = own
       · subst hi
         simpa [ListenState.setAdapter, ListenState.setGroup] using (left.nodup i).not_mem_erase
       · simpa [ListenState.setAdapter, ListenState.setGroup, hi, Ne.symm hi] using old
     · by_cases hi : i = own
       · subst hi
         simpa [ListenState.setAdapter, ListenState.setGroup, hx, List.mem_erase_of_ne hx]
          using old
       · simpa [ListenState.setAdapter, ListenState.setGroup, hx, hi] using old

theorem Joined.recycle (joined : Joined s) : Joined (hdfIoServiceGroupRecycle s id) := by
 unfold hdfIoServiceGroupRecycle
 refine ⟨fun i => ?_, fun i x => ?_⟩
 · by_cases hi : i = id
   · subst hi
     simp [ListenState.setGroup]
   · simpa [ListenState.setGroup, hi] using joined.nodup i
 · have old := joined.member i x
   have here := joined.member id x
   by_cases hi : i = id
   · subst hi
     by_cases mem : x ∈ (s.groups i).adapterList
     · simp [ListenState.setGroup, mem]
     · simpa [ListenState.setGroup, mem] using old
   · by_cases mem : x ∈ (s.groups id).adapterList
     · have other : (s.adapters x).group = some id := here.mp mem
       rw [other] at old
       simpa [ListenState.setGroup, mem, hi, Ne.symm hi] using old
     · simpa [ListenState.setGroup, mem, hi] using old

theorem Joined.run {call : ListenCall} (joined : Joined s) (ran : s.run call = some s') :
  Joined s' := by
 obtain ⟨out, h, rfl⟩ := Option.map_eq_some_iff.mp ran
 clear ran
 cases call with
 | registerDevice fd listener env => exact joined.of_same (sameJoined_registerDevice h)
 | unregisterDevice fd listener =>
  cases h
  exact joined.of_same sameJoined_unregisterDevice
 | registerGroup id listener env => exact joined.of_same (sameJoined_registerGroup h)
 | unregisterGroup id listener =>
  cases h
  exact joined.of_same sameJoined_unregisterGroup
 | addService id fd env => exact joined.addService h
 | removeService id fd =>
  cases h
  exact joined.removeService
 | recycleGroup id =>
  cases h
  exact joined.recycle
 | threadRuns place | threadExits place =>
  cases h
  exact joined.of_same (sameJoined_setStatus s place _)

theorem joined_exec {calls : List ListenCall} (joined : Joined s)
  (h : exec ListenState.run s calls = some s') : Joined s' := by
 induction calls generalizing s with
 | nil =>
  cases h
  exact joined
 | cons call calls ih =>
  obtain ⟨t, first, rest⟩ := Option.bind_eq_some_iff.mp h
  exact ih (joined.run first) rest

theorem joined_start : Joined .start where
 nodup _ := List.nodup_nil
 member _ _ := iff_of_false List.not_mem_nil (by rintro ⟨⟩)

/-- All that is asked for works. -/
def everyCallWorks : ListenEnv := ⟨true, fun _ => true, fun _ => true, true, true⟩

end DriversFramework.Syscall
