import DriversFramework.VNodeAdapter

/-! `eventQueueSize` is kept by hand. Every path keeps it equal to the length of the
queue except the two that empty the queue for a client that stays open. -/
namespace DriversFramework.VNodeAdapter

def HdfVNodeAdapterClient.QueueExact (c : HdfVNodeAdapterClient) : Prop :=
 c.eventQueueSize = c.eventQueue.length ∧ c.eventQueueSize ≤ eventQueueMax

def HdfVNodeAdapter.QueuesExact (a : HdfVNodeAdapter) : Prop :=
 ∀ c ∈ a.clientList, c.QueueExact

/-- A stop or an exit finds the queue of its client empty. -/
def StopsEmpty (a : HdfVNodeAdapter) : Op → Prop
 | .stopListening c | .exitListening c => ∀ k ∈ a.clientList, k.clientId = c → k.eventQueue = []
 | _ => True

instance (c : HdfVNodeAdapterClient) : Decidable c.QueueExact :=
 inferInstanceAs (Decidable (_ ∧ _))

instance (a : HdfVNodeAdapter) : Decidable a.QueuesExact :=
 inferInstanceAs (Decidable (∀ c ∈ a.clientList, c.QueueExact))

variable (a : HdfVNodeAdapter)

theorem newVNodeAdapterClient_exact : (newVNodeAdapterClient a).QueueExact :=
 ⟨rfl, Int.natCast_nonneg eventQueueMax⟩

variable (c : HdfVNodeAdapterClient)

theorem readDevEvent_cases (req : ReadRequest) : (hdfVNodeAdapterReadDevEvent c req).2.2 = c ∨
   ∃ event rest, c.eventQueue = event :: rest ∧
    (hdfVNodeAdapterReadDevEvent c req).2.2 =
     { c with eventQueue := rest, eventQueueSize := c.eventQueueSize - 1 } := by
 unfold hdfVNodeAdapterReadDevEvent
 cases req.bwrUser with
 | none => exact .inl rfl
 | some bwr =>
  cases hq : c.eventQueue with
  | nil =>
   dsimp only
   split_ifs <;> exact .inl rfl
  | cons event rest =>
   dsimp only
   split_ifs <;> first | exact .inl rfl | exact .inr ⟨event, rest, rfl, rfl⟩

theorem QueueExact.tail {c : HdfVNodeAdapterClient} {event : HdfDevEvent}
  {rest : List HdfDevEvent} (h : c.QueueExact) (hq : c.eventQueue = event :: rest) :
  HdfVNodeAdapterClient.QueueExact
   { c with eventQueue := rest, eventQueueSize := c.eventQueueSize - 1 } := by
 obtain ⟨hsize, hmax⟩ := h
 rw [hq, List.length_cons] at hsize
 constructor
 · dsimp only
   omega
 · dsimp only
   omega

theorem readDevEvent_exact (req : ReadRequest)
  (h : c.QueueExact) : (hdfVNodeAdapterReadDevEvent c req).2.2.QueueExact := by
 obtain same | ⟨event, rest, hq, taken⟩ := readDevEvent_cases c req
 · rw [same]; exact h
 · rw [taken]; exact QueueExact.tail h hq

theorem makeRoom_exact (h : c.QueueExact) :
  ∃ c', (if c.eventQueueSize ≥ eventQueueMax then hdfVnodeAdapterDropOldEventLocked c
    else some c) = some c' ∧ c'.QueueExact ∧ c'.eventQueueSize < eventQueueMax := by
 by_cases full : c.eventQueueSize ≥ eventQueueMax
 · cases hq : c.eventQueue with
   | nil =>
    have empty : c.eventQueueSize = 0 := by rw [h.1, hq]; rfl
    rw [empty] at full
    exact absurd full (by decide)
   | cons event rest =>
    have hmax := h.2
    refine ⟨_, ?_, QueueExact.tail h hq, ?_⟩
    · simp only [full, if_true, hdfVnodeAdapterDropOldEventLocked, hq]
    · dsimp only
      omega
 · exact ⟨c, by simp only [full, if_false], h, by omega⟩

theorem sendDevEventToClient_exact (id : ℕ) (data : List UInt8)
  (mem : EventAlloc) (h : c.QueueExact) :
  ∃ r, vNodeAdapterSendDevEventToClient c id data mem = some r ∧ r.2.QueueExact := by
 unfold vNodeAdapterSendDevEventToClient
 by_cases listening : c.status ≠ .listening
 · exact ⟨(.success, c), by simp only [listening, if_true, ne_eq, not_false_eq_true], h⟩
 obtain ⟨c', hroom, hexact, hlt⟩ := makeRoom_exact c h
 rw [if_neg listening, hroom, Option.bind_some]
 cases mem with
 | noEvent | noSbufCopy => exact ⟨_, rfl, hexact⟩
 | ok =>
  refine ⟨_, rfl, ?_, ?_⟩
  · simp only [List.length_append, List.length_singleton, hexact.1]
    omega
  · dsimp only
    omega

theorem sendDevEventLoop_exact (target : Option ℕ) (id : ℕ) (data : List UInt8)
  (mem : ℕ → EventAlloc) (ret : HdfStatus) (cs : List HdfVNodeAdapterClient)
  (h : ∀ c ∈ cs, c.QueueExact) :
  ∃ r, sendDevEventLoop target id data mem ret cs = some r ∧ ∀ c ∈ r.2, c.QueueExact := by
 induction cs generalizing ret with
 | nil => exact ⟨(ret, []), rfl, h⟩
 | cons c cs ih =>
  obtain ⟨hc, hcs⟩ := List.forall_mem_cons.mp h
  rw [sendDevEventLoop]
  split_ifs with skip
  · obtain ⟨r, hr, hall⟩ := ih ret hcs
    exact ⟨_, by rw [hr]; rfl, List.forall_mem_cons.mpr ⟨hc, hall⟩⟩
  · obtain ⟨r, hr, hexact⟩ := sendDevEventToClient_exact c id data (mem c.clientId) hc
    rw [hr, Option.bind_some]
    split_ifs with failed
    · exact ⟨_, rfl, List.forall_mem_cons.mpr ⟨hexact, hcs⟩⟩
    · obtain ⟨r', hr', hall⟩ := ih r.1 hcs
      exact ⟨_, by rw [hr']; rfl, List.forall_mem_cons.mpr ⟨hexact, hall⟩⟩

theorem sendDevEvent_exact (target : Option ℕ) (id : ℕ)
  (data : List UInt8) (mem : ℕ → EventAlloc) (h : a.QueuesExact) :
  ∃ r, hdfVNodeAdapterSendDevEvent a target id data mem = some r ∧ r.2.QueuesExact := by
 unfold hdfVNodeAdapterSendDevEvent
 split_ifs with empty
 · exact ⟨_, rfl, h⟩
 · obtain ⟨r, hr, hall⟩ := sendDevEventLoop_exact target id data mem .failure a.clientList h
   exact ⟨(r.1, { a with clientList := r.2 }), by rw [hr]; rfl, hall⟩

theorem onClient_exact_iff (c : ℕ)
  (f : HdfVNodeAdapterClient → HdfVNodeAdapterClient) (h : a.QueuesExact) :
  (onClient a c f).QueuesExact ↔ ∀ k ∈ a.clientList, k.clientId = c → (f k).QueueExact := by
 simp only [HdfVNodeAdapter.QueuesExact, onClient, List.forall_mem_map]
 constructor
 · intro hf k hk hid
   simpa only [hid, if_true] using hf k hk
 · intro hf k hk
   split_ifs with hid
   · exact hf k hk hid
   · exact h k hk

theorem onClient_exact (c : ℕ)
  (f : HdfVNodeAdapterClient → HdfVNodeAdapterClient) (h : a.QueuesExact)
  (hf : ∀ k, k.QueueExact → (f k).QueueExact) : (onClient a c f).QueuesExact :=
 (onClient_exact_iff a c f h).mpr fun k hk _ => hf k (h k hk)

theorem cleanEventQueue_exact_iff (s : HdfVNodeClientStatus) (h : c.QueueExact) :
  (hdfVnodeCleanEventQueue { c with status := s }).QueueExact ↔ c.eventQueue = [] := by
 obtain ⟨hsize, hmax⟩ := h
 constructor
 · rintro ⟨hzero, -⟩
   have hlen : (c.eventQueue.length : ℤ) = 0 := hsize.symm.trans hzero
   exact List.length_eq_zero_iff.mp (by omega)
 · intro hempty
   exact ⟨by rw [hempty] at hsize; exact hsize, hmax⟩

theorem onClient_clean_exact_iff (c : ℕ) (s : HdfVNodeClientStatus) (h : a.QueuesExact) :
  (onClient a c fun k => hdfVnodeCleanEventQueue { k with status := s }).QueuesExact ↔
   ∀ k ∈ a.clientList, k.clientId = c → k.eventQueue = [] := by
 rw [onClient_exact_iff a c _ h]
 constructor
 · exact fun hf k hk hid => (cleanEventQueue_exact_iff k s (h k hk)).mp (hf k hk hid)
 · exact fun hf k hk hid => (cleanEventQueue_exact_iff k s (h k hk)).mpr (hf k hk hid)

theorem poll_exact (h : c.QueueExact) : (hdfVNodeAdapterPoll c).2.QueueExact := by
 unfold hdfVNodeAdapterPoll
 split_ifs <;> exact h

theorem wakeup_exact (h : c.QueueExact) : (hdfVNodeAdapterClientWakeup c).QueueExact := by
 unfold hdfVNodeAdapterClientWakeup
 split_ifs <;> exact h

theorem open_exact (allocOk openOk : Bool) (h : a.QueuesExact) :
  (hdfVNodeAdapterOpen a allocOk openOk).QueuesExact := by
 unfold hdfVNodeAdapterOpen
 split_ifs
 · intro c hc
   rcases List.mem_append.mp hc with old | fresh
   · exact h c old
   · rw [List.mem_singleton.mp fresh]
     exact newVNodeAdapterClient_exact a
 · exact h

theorem step_exact_iff (op : Op) (h : a.QueuesExact) :
  (∃ t, step a op = some t ∧ t.QueuesExact) ↔ StopsEmpty a op := by
 cases op with
 | openClient allocOk openOk =>
  exact iff_of_true ⟨_, rfl, open_exact a allocOk openOk h⟩ trivial
 | close c =>
  exact iff_of_true ⟨_, rfl, fun k hk => h k (List.mem_of_mem_filter hk)⟩ trivial
 | readDevEvent c req =>
  exact iff_of_true ⟨_, rfl, onClient_exact a c _ h fun k => readDevEvent_exact k req⟩ trivial
 | sendEvent id data mem =>
  obtain ⟨r, hr, hexact⟩ := sendDevEvent_exact a none id data mem h
  exact iff_of_true ⟨r.2, by rw [step, hr]; rfl, hexact⟩ trivial
 | sendEventToClient c id data mem =>
  obtain ⟨r, hr, hexact⟩ := sendDevEvent_exact a (some c) id data mem h
  exact iff_of_true ⟨r.2, by rw [step, hr]; rfl, hexact⟩ trivial
 | startListening c => exact iff_of_true ⟨_, rfl, onClient_exact a c _ h fun _ hk => hk⟩ trivial
 | stopListening c =>
  simp only [step, Option.some.injEq, exists_eq_left', StopsEmpty]
  exact onClient_clean_exact_iff a c .stopped h
 | exitListening c =>
  simp only [step, Option.some.injEq, exists_eq_left', StopsEmpty]
  exact onClient_clean_exact_iff a c .exited h
 | wakeup c => exact iff_of_true ⟨_, rfl, onClient_exact a c _ h wakeup_exact⟩ trivial
 | poll c => exact iff_of_true ⟨_, rfl, onClient_exact a c _ h poll_exact⟩ trivial

/-- Over every run, all counters are exact in every state and no drop-oldest step
meets an empty queue, if and only if every stop and exit finds an empty queue. -/
theorem eventQueueSize_exact_iff (ops : List Op) :
    RunRules.Safe step HdfVNodeAdapter.QueuesExact initial ops ↔
      RunRules.Along step StopsEmpty initial ops :=
  RunRules.safe_iff_along step_exact_iff initial ops (by decide)

/-- One event thrown away by a stop leaves the counter at one with an empty queue. -/
theorem stop_leaves_stale_counter : ¬ RunRules.Safe step HdfVNodeAdapter.QueuesExact initial
    [.openClient true true, .startListening 0, .sendEvent 7 [1] fun _ => .ok,
      .stopListening 0] := by
  intro h
  obtain ⟨t, ht, hexact⟩ := h _ (List.prefix_refl _)
  cases ht
  revert hexact
  decide

end DriversFramework.VNodeAdapter
