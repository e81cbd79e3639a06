import Mathlib.Data.List.Nodup
import DriversFramework.VNodeAdapter

/-! Each client has a ledger of the events sent to it while it listens. An event is
first waiting; it is obtained by a read, dropped as the oldest of a full queue,
or discarded when the client stops. The adapter follows the ledgers as long as
its counters do not call a queue full that is not. -/
namespace DriversFramework.VNodeAdapter
open RunRules

inductive Fate where
 | obtained
 | dropped
 | discarded
 deriving DecidableEq

structure Ledger where
 settled : List (HdfDevEvent × Fate)
 waiting : List HdfDevEvent
 deriving DecidableEq

namespace Ledger

def sent (l : Ledger) : List HdfDevEvent := l.settled.map Prod.fst ++ l.waiting

def obtained (l : Ledger) : List HdfDevEvent :=
 (l.settled.filter fun e => e.2 = .obtained).map Prod.fst

def settle (fate : Fate) (l : Ledger) : Ledger :=
 match l.waiting with
 | [] => l
 | event :: rest => ⟨l.settled ++ [(event, fate)], rest⟩

def send (event : HdfDevEvent) (l : Ledger) : Ledger :=
 let l := if l.waiting.length ≥ eventQueueMax then l.settle .dropped else l
 { l with waiting := l.waiting ++ [event] }

/-- What still waits when the client stops is discarded. -/
def stop (l : Ledger) : Ledger :=
 ⟨l.settled ++ l.waiting.map fun event => (event, .discarded), []⟩

variable {l : Ledger}

theorem waiting_settle (fate : Fate) : (l.settle fate).waiting = l.waiting.tail := by
 rw [settle]
 split
 · rename_i waiting
   rw [waiting]
   rfl
 · rename_i waiting
   rw [waiting]
   rfl

theorem obtained_settle (fate : Fate) :
  (l.settle fate).obtained =
   l.obtained ++ if fate = .obtained then l.waiting.head?.toList else [] := by
 rw [settle]
 split
 · rename_i waiting
   rw [waiting]
   cases fate <;> simp
 · rename_i waiting
   rw [waiting]
   cases fate <;> simp [obtained]

theorem waiting_send (event : HdfDevEvent) :
  (l.send event).waiting =
   (if l.waiting.length ≥ eventQueueMax then l.waiting.tail else l.waiting) ++ [event] := by
 rw [send]
 split_ifs
 · rw [waiting_settle]
 · rfl

theorem obtained_send (event : HdfDevEvent) : (l.send event).obtained = l.obtained := by
 have same : ∀ waiting, (Ledger.mk l.settled waiting).obtained = l.obtained := fun _ => rfl
 rw [send]
 split_ifs
 · exact (obtained_settle .dropped).trans (List.append_nil _)
 · rfl

theorem obtained_stop : l.stop.obtained = l.obtained := by
 simp [stop, obtained, List.filter_map, Function.comp_def]

end Ledger

/-- The adapter with what is known of each client: its ledger, and the events
its successful reads returned. -/
structure Observed where
 adapter : HdfVNodeAdapter
 ledger : ℕ → Ledger
 received : ℕ → List HdfDevEvent

def Observed.start : Observed := ⟨initial, fun _ => ⟨[], []⟩, fun _ => []⟩

def HdfVNodeAdapter.client? (a : HdfVNodeAdapter) (c : ℕ) : Option HdfVNodeAdapterClient :=
 a.clientList.find? fun k => k.clientId == c

def HdfVNodeAdapter.reaches (a : HdfVNodeAdapter) (target : Option ℕ) (data : List UInt8)
  (c : ℕ) : Bool :=
 data != [] && (target == none || target == some c) &&
  (a.client? c).any fun k => k.status == .listening

def HdfVNodeAdapter.readEvent (a : HdfVNodeAdapter) (c : ℕ) (req : ReadRequest) :
  Option HdfDevEvent :=
 (a.client? c).bind fun k =>
  match hdfVNodeAdapterReadDevEvent k req with
  | (.success, some bwr, _) => some ⟨bwr.cmdCode, bwr.readBuffer⟩
  | _ => none

def ledgerStep (a : HdfVNodeAdapter) (op : Op) (c : ℕ) (l : Ledger) : Ledger :=
 match op with
 | .sendEvent id data _ => if a.reaches none data c then l.send ⟨id, data⟩ else l
 | .sendEventToClient t id data _ => if a.reaches (some t) data c then l.send ⟨id, data⟩ else l
 | .readDevEvent t req =>
  if t = c ∧ (a.readEvent t req).isSome then l.settle .obtained else l
 | .stopListening t | .exitListening t => if t = c then l.stop else l
 | _ => l

def receivedStep (a : HdfVNodeAdapter) (op : Op) (c : ℕ) (events : List HdfDevEvent) :
  List HdfDevEvent :=
 match op with
 | .readDevEvent t req => if t = c then events ++ (a.readEvent t req).toList else events
 | _ => events

def Observed.step (s : Observed) (op : Op) : Option Observed :=
 (VNodeAdapter.step s.adapter op).map fun adapter =>
  ⟨adapter, fun c => ledgerStep s.adapter op c (s.ledger c),
   fun c => receivedStep s.adapter op c (s.received c)⟩

/-- Every queue holds what waits in the ledger of its client, and every client
has received what its ledger says it obtained. -/
def Observed.Faithful (s : Observed) : Prop :=
 ∀ k ∈ s.adapter.clientList, k.eventQueue = (s.ledger k.clientId).waiting ∧
  s.received k.clientId = (s.ledger k.clientId).obtained

def SendsReady (a : HdfVNodeAdapter) (target : Option ℕ) (data : List UInt8)
  (mem : ℕ → EventAlloc) : Prop :=
 data ≠ [] → ∀ k ∈ a.clientList, (target = none ∨ target = some k.clientId) →
  k.status = .listening → mem k.clientId = .ok ∧
   (k.eventQueueSize ≥ eventQueueMax → eventQueueMax ≤ k.eventQueue.length)

def CountersRight (s : Observed) : Op → Prop
 | .sendEvent _ data mem => SendsReady s.adapter none data mem
 | .sendEventToClient c _ data mem => SendsReady s.adapter (some c) data mem
 | _ => True

structure Observed.Tracked (s : Observed) : Prop where
 faithful : s.Faithful
 counted : ∀ k ∈ s.adapter.clientList, (k.eventQueue.length : ℤ) ≤ k.eventQueueSize
 distinct : (s.adapter.clientList.map HdfVNodeAdapterClient.clientId).Nodup
 given : ∀ k ∈ s.adapter.clientList, k.clientId < s.adapter.nextClient
 unknown : ∀ c, s.adapter.nextClient ≤ c → s.ledger c = ⟨[], []⟩ ∧ s.received c = []

section Send
variable {id : ℕ} {data : List UInt8} {mem : ℕ → EventAlloc} {k : HdfVNodeAdapterClient}

def delivered (id : ℕ) (data : List UInt8) (k : HdfVNodeAdapterClient) : HdfVNodeAdapterClient :=
 if k.status ≠ .listening then k
 else if k.eventQueueSize ≥ eventQueueMax then
  { k with eventQueue := k.eventQueue.tail ++ [⟨id, data⟩] }
 else
  { k with
   eventQueue := k.eventQueue ++ [⟨id, data⟩], eventQueueSize := k.eventQueueSize + 1 }

theorem delivered_clientId : (delivered id data k).clientId = k.clientId := by
 rw [delivered]
 split_ifs <;> rfl

theorem delivered_counted (h : (k.eventQueue.length : ℤ) ≤ k.eventQueueSize)
  (full : k.eventQueueSize ≥ eventQueueMax → eventQueueMax ≤ k.eventQueue.length) :
  ((delivered id data k).eventQueue.length : ℤ) ≤ (delivered id data k).eventQueueSize := by
 rw [delivered]
 split_ifs with quiet atLimit
 · exact h
 · have positive : 0 < k.eventQueue.length := Nat.lt_of_lt_of_le (by decide) (full atLimit)
   simp only [List.length_append, List.length_tail, List.length_singleton]
   omega
 · simp only [List.length_append, List.length_singleton]
   omega

theorem delivered_queue (h : (k.eventQueue.length : ℤ) ≤ k.eventQueueSize)
  (full : k.eventQueueSize ≥ eventQueueMax → eventQueueMax ≤ k.eventQueue.length)
  (listening : k.status = .listening) :
  (delivered id data k).eventQueue =
   (if k.eventQueue.length ≥ eventQueueMax then k.eventQueue.tail else k.eventQueue) ++
    [⟨id, data⟩] := by
 rw [delivered, if_neg (not_not.mpr listening)]
 by_cases atLimit : k.eventQueueSize ≥ eventQueueMax
 · rw [if_pos atLimit, if_pos (full atLimit)]
 · rw [if_neg atLimit, if_neg (by omega)]

theorem sendToClient_delivered (ok : k.status = .listening → mem k.clientId = .ok ∧
   (k.eventQueueSize ≥ eventQueueMax → eventQueueMax ≤ k.eventQueue.length)) :
  vNodeAdapterSendDevEventToClient k id data (mem k.clientId) =
   some (.success, delivered id data k) := by
 rw [vNodeAdapterSendDevEventToClient, delivered]
 by_cases listening : k.status = .listening
 · obtain ⟨memory, full⟩ := ok listening
   rw [if_neg (not_not.mpr listening), if_neg (not_not.mpr listening), memory]
   by_cases atLimit : k.eventQueueSize ≥ eventQueueMax
   · rw [if_pos atLimit, if_pos atLimit, hdfVnodeAdapterDropOldEventLocked]
     cases queue : k.eventQueue with
     | nil =>
      have nonempty := full atLimit
      rw [queue] at nonempty
      exact absurd nonempty (by decide)
     | cons event rest => simp
   · rw [if_neg atLimit, if_neg atLimit]
     rfl
 · rw [if_pos listening, if_pos listening]

theorem sendLoop_delivered (target : Option ℕ) (clients : List HdfVNodeAdapterClient)
  (ok : ∀ k ∈ clients, (target = none ∨ target = some k.clientId) → k.status = .listening →
   mem k.clientId = .ok ∧
    (k.eventQueueSize ≥ eventQueueMax → eventQueueMax ≤ k.eventQueue.length))
  (ret : HdfStatus) :
  ∃ status, sendDevEventLoop target id data mem ret clients =
   some (status, clients.map fun k =>
    if target = none ∨ target = some k.clientId then delivered id data k else k) := by
 induction clients generalizing ret with
 | nil => exact ⟨ret, rfl⟩
 | cons k rest ih =>
  obtain ⟨first, later⟩ := List.forall_mem_cons.mp ok
  rw [sendDevEventLoop]
  by_cases addressed : target = none ∨ target = some k.clientId
  · have here : ¬(target.isSome && target ≠ some k.clientId) = true := by
     rcases addressed with rfl | rfl <;> simp
    rw [if_neg here, sendToClient_delivered (first addressed)]
    obtain ⟨status, rest_eq⟩ := ih later .success
    refine ⟨status, ?_⟩
    rw [Option.bind_some, if_neg (by simp), rest_eq, List.map_cons, if_pos addressed]
    rfl
  have skip : (target.isSome && target ≠ some k.clientId) = true := by
   cases target with
   | none => exact absurd (Or.inl rfl) addressed
   | some c => simpa using addressed
  rw [if_pos skip]
  obtain ⟨status, rest_eq⟩ := ih later ret
  refine ⟨status, ?_⟩
  rw [rest_eq, List.map_cons, if_neg addressed]
  rfl

end Send

section Step
variable {s : Observed} {k : HdfVNodeAdapterClient} {c : ℕ}

theorem Observed.Tracked.client (h : s.Tracked) (hk : k ∈ s.adapter.clientList) :
  s.adapter.client? k.clientId = some k := by
 rw [HdfVNodeAdapter.client?]
 obtain ⟨found, hfound⟩ := Option.isSome_iff_exists.mp
  (List.find?_isSome.mpr ⟨k, hk, beq_self_eq_true k.clientId⟩ :
   (s.adapter.clientList.find? fun other => other.clientId == k.clientId).isSome)
 have same : found.clientId = k.clientId := by simpa using List.find?_some hfound
 rw [hfound, List.inj_on_of_nodup_map h.distinct (List.mem_of_find?_eq_some hfound) hk same]

theorem Observed.Tracked.client_none (h : s.Tracked) (hc : s.adapter.nextClient ≤ c) :
  s.adapter.client? c = none := by
 rw [HdfVNodeAdapter.client?, List.find?_eq_none]
 intro k hk
 have below := h.given k hk
 simp only [beq_iff_eq]
 omega

theorem ledgerStep_unknown (h : s.Tracked) (hc : s.adapter.nextClient ≤ c) (op : Op) :
  ledgerStep s.adapter op c ⟨[], []⟩ = ⟨[], []⟩ ∧ receivedStep s.adapter op c [] = [] := by
 have none := h.client_none hc
 cases op with
 | readDevEvent t req =>
  by_cases same : t = c
  · subst same
    simp [ledgerStep, receivedStep, HdfVNodeAdapter.readEvent, none]
  · simp [ledgerStep, receivedStep, same]
 | sendEvent id data mem | sendEventToClient t id data mem =>
  simp [ledgerStep, receivedStep, HdfVNodeAdapter.reaches, none]
 | stopListening t | exitListening t =>
  simp [ledgerStep, receivedStep, Ledger.stop]
 | openClient _ _ | close _ | startListening _ | wakeup _ | poll _ => exact ⟨rfl, rfl⟩

theorem Observed.Tracked.map (h : s.Tracked) (op : Op)
  (g : HdfVNodeAdapterClient → HdfVNodeAdapterClient)
  (hid : ∀ k, (g k).clientId = k.clientId)
  (hcounted : ∀ k ∈ s.adapter.clientList, ((g k).eventQueue.length : ℤ) ≤ (g k).eventQueueSize)
  (hqueue : ∀ k ∈ s.adapter.clientList, (g k).eventQueue =
   (ledgerStep s.adapter op k.clientId (s.ledger k.clientId)).waiting ∧
    receivedStep s.adapter op k.clientId (s.received k.clientId) =
     (ledgerStep s.adapter op k.clientId (s.ledger k.clientId)).obtained) :
  Observed.Tracked ⟨{ s.adapter with clientList := s.adapter.clientList.map g },
   fun c => ledgerStep s.adapter op c (s.ledger c),
   fun c => receivedStep s.adapter op c (s.received c)⟩ where
 faithful := by
  intro k' hk'
  obtain ⟨k, hk, rfl⟩ := List.mem_map.mp hk'
  rw [hid]
  exact hqueue k hk
 counted := by
  intro k' hk'
  obtain ⟨k, hk, rfl⟩ := List.mem_map.mp hk'
  exact hcounted k hk
 distinct := by
  rw [List.map_map]
  simpa only [Function.comp_def, hid] using h.distinct
 given := by
  intro k' hk'
  obtain ⟨k, hk, rfl⟩ := List.mem_map.mp hk'
  rw [hid]
  exact h.given k hk
 unknown := by
  intro c hc
  obtain ⟨ledger, received⟩ := h.unknown c hc
  dsimp only
  rw [ledger, received]
  exact ledgerStep_unknown h hc op

theorem reaches_iff (h : s.Tracked) (hk : k ∈ s.adapter.clientList) (target : Option ℕ)
  (data : List UInt8) :
  s.adapter.reaches target data k.clientId = true ↔
   data ≠ [] ∧ (target = none ∨ target = some k.clientId) ∧ k.status = .listening := by
 rw [HdfVNodeAdapter.reaches, h.client hk]
 simp [and_assoc]

theorem send_ledger (h : s.Tracked) (hk : k ∈ s.adapter.clientList) {target : Option ℕ}
  {id : ℕ} {data : List UInt8} {mem : ℕ → EventAlloc} (hdata : data ≠ [])
  (ready : SendsReady s.adapter target data mem) :
  (if target = none ∨ target = some k.clientId then delivered id data k else k).eventQueue =
    (if s.adapter.reaches target data k.clientId then (s.ledger k.clientId).send ⟨id, data⟩
     else s.ledger k.clientId).waiting ∧
   ((if target = none ∨ target = some k.clientId then delivered id data k
     else k).eventQueue.length : ℤ) ≤
    (if target = none ∨ target = some k.clientId then delivered id data k
     else k).eventQueueSize := by
 have counted := h.counted k hk
 have queue := (h.faithful k hk).1
 have iff := reaches_iff h hk target data
 by_cases addressed : target = none ∨ target = some k.clientId
 · rw [if_pos addressed]
   by_cases listening : k.status = .listening
   · have full := (ready hdata k hk addressed listening).2
     rw [if_pos (iff.mpr ⟨hdata, addressed, listening⟩), Ledger.waiting_send, ← queue]
     exact ⟨delivered_queue counted full listening, delivered_counted counted full⟩
   · have quiet : delivered id data k = k := by rw [delivered, if_pos listening]
     rw [quiet, if_neg fun reached => listening (iff.mp reached).2.2]
     exact ⟨queue, counted⟩
 · rw [if_neg addressed, if_neg fun reached => addressed (iff.mp reached).2.1]
   exact ⟨queue, counted⟩

theorem obtained_sendStep (l : Ledger) (event : HdfDevEvent) (reached : Bool) :
  (if reached then l.send event else l).obtained = l.obtained := by
 split_ifs
 · exact Ledger.obtained_send event
 · rfl

theorem send_tracked (h : s.Tracked) (op : Op) (target : Option ℕ) (id : ℕ)
  (data : List UInt8) (mem : ℕ → EventAlloc) (ready : SendsReady s.adapter target data mem)
  (hstep : VNodeAdapter.step s.adapter op =
   (hdfVNodeAdapterSendDevEvent s.adapter target id data mem).map Prod.snd)
  (hledger : ∀ c l, ledgerStep s.adapter op c l =
   if s.adapter.reaches target data c then l.send ⟨id, data⟩ else l)
  (hreceived : ∀ c events, receivedStep s.adapter op c events = events) :
  ∃ t, s.step op = some t ∧ t.Tracked := by
 have received : ∀ k ∈ s.adapter.clientList,
   receivedStep s.adapter op k.clientId (s.received k.clientId) =
    (ledgerStep s.adapter op k.clientId (s.ledger k.clientId)).obtained := by
  intro k hk
  rw [hreceived, hledger, obtained_sendStep]
  exact (h.faithful k hk).2
 rw [Observed.step, hstep, hdfVNodeAdapterSendDevEvent]
 by_cases empty : data.length = 0
 · have nothing : ∀ c, s.adapter.reaches target data c = false := by
    intro c
    simp [HdfVNodeAdapter.reaches, List.length_eq_zero_iff.mp empty]
   rw [if_pos empty]
   refine ⟨_, rfl, ?_⟩
   have kept := h.map op (fun k => k) (fun _ => rfl) h.counted fun k hk => by
    refine ⟨?_, received k hk⟩
    rw [hledger, nothing]
    exact (h.faithful k hk).1
   rwa [List.map_id'] at kept
 have hdata : data ≠ [] := fun hnil => empty (by rw [hnil]; rfl)
 obtain ⟨status, loop⟩ :=
  @sendLoop_delivered id data mem target s.adapter.clientList (ready hdata) .failure
 rw [if_neg empty, loop]
 refine ⟨_, rfl, ?_⟩
 apply h.map op
 · intro k
   split_ifs
   · exact delivered_clientId
   · rfl
 · intro k hk
   exact (send_ledger h hk hdata ready).2
 · intro k hk
   refine ⟨?_, received k hk⟩
   rw [hledger]
   exact (send_ledger h hk hdata ready).1

theorem onClient_tracked (h : s.Tracked) (op : Op) (c : ℕ)
  (f : HdfVNodeAdapterClient → HdfVNodeAdapterClient)
  (hstep : VNodeAdapter.step s.adapter op = some (onClient s.adapter c f))
  (hid : ∀ k, (f k).clientId = k.clientId)
  (hcounted : ∀ k, (k.eventQueue.length : ℤ) ≤ k.eventQueueSize →
   ((f k).eventQueue.length : ℤ) ≤ (f k).eventQueueSize)
  (hother : ∀ t l events, t ≠ c →
   ledgerStep s.adapter op t l = l ∧ receivedStep s.adapter op t events = events)
  (hself : ∀ k ∈ s.adapter.clientList, k.clientId = c → (f k).eventQueue =
   (ledgerStep s.adapter op c (s.ledger c)).waiting ∧
    receivedStep s.adapter op c (s.received c) =
     (ledgerStep s.adapter op c (s.ledger c)).obtained) :
  ∃ t, s.step op = some t ∧ t.Tracked := by
 rw [Observed.step, hstep]
 refine ⟨_, rfl, ?_⟩
 apply h.map op
 · intro k
   split_ifs
   · exact hid k
   · rfl
 · intro k hk
   split_ifs
   · exact hcounted k (h.counted k hk)
   · exact h.counted k hk
 · intro k hk
   by_cases same : k.clientId = c
   · rw [if_pos same, same]
     exact hself k hk same
   · obtain ⟨ledger, received⟩ := hother k.clientId (s.ledger k.clientId)
      (s.received k.clientId) same
     rw [if_neg same, ledger, received]
     exact h.faithful k hk

theorem readDevEvent_outcome (k : HdfVNodeAdapterClient) (req : ReadRequest) :
  (∃ event rest bwr, k.eventQueue = event :: rest ∧
    hdfVNodeAdapterReadDevEvent k req = (.success, some bwr,
     { k with eventQueue := rest, eventQueueSize := k.eventQueueSize - 1 }) ∧
    (⟨bwr.cmdCode, bwr.readBuffer⟩ : HdfDevEvent) = event) ∨
   (hdfVNodeAdapterReadDevEvent k req).2.2 = k ∧
    (hdfVNodeAdapterReadDevEvent k req).1 ≠ .success := by
 rw [hdfVNodeAdapterReadDevEvent]
 cases req.bwrUser with
 | none => exact Or.inr ⟨rfl, nofun⟩
 | some bwr =>
  dsimp only
  cases queue : k.eventQueue with
  | nil => split_ifs <;> exact Or.inr ⟨rfl, nofun⟩
  | cons event rest =>
   dsimp only
   split_ifs <;> first
    | exact Or.inr ⟨rfl, nofun⟩
    | exact Or.inl ⟨event, rest, _, rfl, rfl, rfl⟩

theorem read_tracked (h : s.Tracked) (c : ℕ) (req : ReadRequest) :
  ∃ t, s.step (.readDevEvent c req) = some t ∧ t.Tracked := by
 apply onClient_tracked h (.readDevEvent c req) c
  (fun k => (hdfVNodeAdapterReadDevEvent k req).2.2) rfl
 · intro k
   rcases readDevEvent_outcome k req with ⟨event, rest, bwr, -, taken, -⟩ | ⟨same, -⟩
   · rw [taken]
   · rw [same]
 · intro k counted
   rcases readDevEvent_outcome k req with ⟨event, rest, bwr, queue, taken, -⟩ | ⟨same, -⟩
   · rw [queue, List.length_cons] at counted
     rw [taken]
     dsimp only
     omega
   · rw [same]
     exact counted
 · intro t l events other
   simp [ledgerStep, receivedStep, Ne.symm other]
 · rintro k hk rfl
   have queue := (h.faithful k hk).1
   have received := (h.faithful k hk).2
   have found := h.client hk
   rcases readDevEvent_outcome k req with
    ⟨event, rest, bwr, queued, taken, returned⟩ | ⟨same, failed⟩
   · have read : s.adapter.readEvent k.clientId req = some event := by
      rw [HdfVNodeAdapter.readEvent, found, Option.bind_some, taken, ← returned]
     rw [queued] at queue
     simp only [ledgerStep, receivedStep, read, taken, Option.isSome_some, and_self, if_true,
      Ledger.waiting_settle, Ledger.obtained_settle, ← queue, received]
     exact ⟨rfl, rfl⟩
   · have read : s.adapter.readEvent k.clientId req = none := by
      rw [HdfVNodeAdapter.readEvent, found, Option.bind_some]
      split
      · rename_i success
        exact absurd (congrArg Prod.fst success) failed
      · rfl
     rw [same]
     simpa [ledgerStep, receivedStep, read] using ⟨queue, received⟩

theorem stop_tracked (h : s.Tracked) (op : Op) (c : ℕ) (status : HdfVNodeClientStatus)
  (hstep : VNodeAdapter.step s.adapter op = some (onClient s.adapter c fun k =>
   hdfVnodeCleanEventQueue { k with status }))
  (hledger : ∀ t l, ledgerStep s.adapter op t l = if c = t then l.stop else l)
  (hreceived : ∀ t events, receivedStep s.adapter op t events = events) :
  ∃ t, s.step op = some t ∧ t.Tracked := by
 apply onClient_tracked h op c _ hstep (fun _ => rfl)
 · intro k counted
   change ((0 : ℕ) : ℤ) ≤ k.eventQueueSize
   omega
 · intro t l events other
   rw [hledger, hreceived, if_neg (Ne.symm other)]
   exact ⟨rfl, rfl⟩
 · rintro k hk rfl
   rw [hledger, hreceived, if_pos rfl, Ledger.obtained_stop]
   exact ⟨rfl, (h.faithful k hk).2⟩

theorem quiet_tracked (h : s.Tracked) (op : Op) (c : ℕ)
  (f : HdfVNodeAdapterClient → HdfVNodeAdapterClient)
  (hstep : VNodeAdapter.step s.adapter op = some (onClient s.adapter c f))
  (hsame : ∀ k, (f k).clientId = k.clientId ∧ (f k).eventQueue = k.eventQueue ∧
   (f k).eventQueueSize = k.eventQueueSize)
  (hledger : ∀ t l, ledgerStep s.adapter op t l = l)
  (hreceived : ∀ t events, receivedStep s.adapter op t events = events) :
  ∃ t, s.step op = some t ∧ t.Tracked := by
 apply onClient_tracked h op c f hstep fun k => (hsame k).1
 · intro k counted
   rw [(hsame k).2.1, (hsame k).2.2]
   exact counted
 · intro t l events _
   exact ⟨hledger t l, hreceived t events⟩
 · rintro k hk rfl
   rw [(hsame k).2.1, hledger, hreceived]
   exact h.faithful k hk

theorem open_tracked (h : s.Tracked) (allocOk openOk : Bool) :
  Observed.Tracked ⟨hdfVNodeAdapterOpen s.adapter allocOk openOk, s.ledger, s.received⟩ := by
 rw [hdfVNodeAdapterOpen]
 split_ifs
 · obtain ⟨ledger, received⟩ := h.unknown s.adapter.nextClient le_rfl
   have members : ∀ k ∈ s.adapter.clientList ++ [newVNodeAdapterClient s.adapter],
     k ∈ s.adapter.clientList ∨ k = newVNodeAdapterClient s.adapter := by
    simp
   refine ⟨?_, ?_, ?_, ?_, ?_⟩
   · intro k hk
     rcases members k hk with old | rfl
     · exact h.faithful k old
     · dsimp only [newVNodeAdapterClient]
       rw [ledger, received]
       exact ⟨rfl, rfl⟩
   · intro k hk
     rcases members k hk with old | rfl
     · exact h.counted k old
     · exact Int.le_refl 0
   · rw [List.map_append, List.nodup_append]
     refine ⟨h.distinct, List.nodup_singleton _, ?_⟩
     intro a ha b hb
     obtain ⟨k, hk, rfl⟩ := List.mem_map.mp ha
     rw [List.mem_singleton.mp hb]
     exact Nat.ne_of_lt (h.given k hk)
   · intro k hk
     rcases members k hk with old | rfl
     · exact Nat.lt_succ_of_lt (h.given k old)
     · exact Nat.lt_succ_self _
   · intro c hc
     exact h.unknown c (Nat.le_of_succ_le hc)
 · refine ⟨h.faithful, h.counted, h.distinct, ?_, ?_⟩
   · intro k hk
     exact Nat.lt_succ_of_lt (h.given k hk)
   · intro c hc
     exact h.unknown c (Nat.le_of_succ_le hc)

theorem close_tracked (h : s.Tracked) (c : ℕ) :
  Observed.Tracked ⟨hdfVNodeAdapterClose s.adapter c, s.ledger, s.received⟩ where
 faithful k hk := h.faithful k (List.mem_of_mem_filter hk)
 counted k hk := h.counted k (List.mem_of_mem_filter hk)
 distinct := (List.filter_sublist.map _).nodup h.distinct
 given k hk := h.given k (List.mem_of_mem_filter hk)
 unknown := h.unknown

theorem step_tracked (s : Observed) (op : Op) (h : s.Tracked) (ready : CountersRight s op) :
  ∃ t, s.step op = some t ∧ t.Tracked := by
 cases op with
 | openClient allocOk openOk => exact ⟨_, rfl, open_tracked h allocOk openOk⟩
 | close c => exact ⟨_, rfl, close_tracked h c⟩
 | readDevEvent c req => exact read_tracked h c req
 | sendEvent id data mem =>
  exact send_tracked h _ none id data mem ready rfl (fun _ _ => rfl) fun _ _ => rfl
 | sendEventToClient c id data mem =>
  exact send_tracked h _ (some c) id data mem ready rfl (fun _ _ => rfl) fun _ _ => rfl
 | startListening c =>
  exact quiet_tracked h _ c _ rfl (fun _ => ⟨rfl, rfl, rfl⟩) (fun _ _ => rfl) fun _ _ => rfl
 | stopListening c =>
  exact stop_tracked h _ c .stopped rfl (fun _ _ => rfl) fun _ _ => rfl
 | exitListening c =>
  exact stop_tracked h _ c .exited rfl (fun _ _ => rfl) fun _ _ => rfl
 | wakeup c =>
  apply quiet_tracked h (.wakeup c) c hdfVNodeAdapterClientWakeup rfl _ (fun _ _ => rfl)
   fun _ _ => rfl
  intro k
  rw [hdfVNodeAdapterClientWakeup]
  split_ifs <;> exact ⟨rfl, rfl, rfl⟩
 | poll c =>
  apply quiet_tracked h (.poll c) c (fun k => (hdfVNodeAdapterPoll k).2) rfl _ (fun _ _ => rfl)
   fun _ _ => rfl
  intro k
  rw [hdfVNodeAdapterPoll]
  split_ifs <;> exact ⟨rfl, rfl, rfl⟩

theorem start_tracked : Observed.start.Tracked where
 faithful := nofun
 counted := nofun
 distinct := List.nodup_nil
 given := nofun
 unknown _ _ := ⟨rfl, rfl⟩

end Step

/-- A read with a sound request into a buffer that is too small. -/
structure SmallRead (k : HdfVNodeAdapterClient) (req : ReadRequest) (bwr : HdfWriteReadBuf)
  (event : HdfDevEvent) : Prop where
 buffer : req.bwrUser = some bwr
 readable : req.copyFromUser = true
 writable : req.copyToUser = true
 bounded : bwr.readSize ≤ maxRwSize
 oldest : k.eventQueue.head? = some event
 small : bwr.readSize < event.data.length

theorem smallRead_keeps {k : HdfVNodeAdapterClient} {req : ReadRequest} {bwr : HdfWriteReadBuf}
  {event : HdfDevEvent} (h : SmallRead k req bwr event) :
  hdfVNodeAdapterReadDevEvent k req =
   (.devErrNorange, some { bwr with readSize := event.data.length }, k) := by
 obtain ⟨rest, hqueue⟩ := List.head?_eq_some_iff.mp h.oldest
 rw [hdfVNodeAdapterReadDevEvent, h.buffer]
 simp [h.readable, h.writable, hqueue, Nat.not_lt.mpr h.bounded, h.small]

/-- In a run whose sends find memory and right counters, every client obtains
what its ledger says; and a read into a small buffer changes nothing. -/
theorem events_faithful_of_countersRight (ops : List Op)
    (h : Along Observed.step CountersRight .start ops) :
    Safe Observed.step Observed.Faithful .start ops ∧
      ∀ k req bwr event, SmallRead k req bwr event →
        hdfVNodeAdapterReadDevEvent k req =
          (.devErrNorange, some { bwr with readSize := event.data.length }, k) := by
  constructor
  · intro pre hpre
    obtain ⟨t, ht, tracked⟩ := safe_of_along step_tracked .start ops start_tracked h pre hpre
    exact ⟨t, ht, tracked.faithful⟩
  · intro k req bwr event small
    exact smallRead_keeps small

/-- One event for a listening client. -/
def oneSend : List Op :=
 [.openClient true true, .startListening 0, .sendEvent 7 [1] fun _ => .ok]

theorem oneSend_faithful : Safe Observed.step Observed.Faithful .start oneSend := by
  refine (events_faithful_of_countersRight oneSend ?_).1
  rw [oneSend, along_cons]
  refine ⟨trivial, fun s hs => ?_⟩
  cases hs
  rw [along_cons]
  refine ⟨trivial, fun s hs => ?_⟩
  cases hs
  rw [along_cons]
  refine ⟨?_, fun s _ => along_nil s⟩
  intro _ k hk _ _
  rw [List.mem_singleton.mp hk]
  exact ⟨rfl, by decide⟩

/-- A client throws one event away by stopping, and then listens to a hundred. -/
def stopThenHundred : List Op :=
 oneSend ++ [.stopListening 0, .startListening 0] ++
  List.replicate 100 (.sendEvent 7 [2] fun _ => .ok)

theorem stopThenHundred_lengths : (exec Observed.step .start stopThenHundred).map (fun t =>
   (t.adapter.clientList.map fun k => (k.clientId, k.eventQueue.length),
    (t.ledger 0).waiting.length)) = some ([(0, 99)], 100) := by
 decide +kernel

/-- The hundredth event drops the first of ninety-nine. -/
theorem event_dropped_early : ¬Safe Observed.step Observed.Faithful .start stopThenHundred := by
  intro h
  obtain ⟨t, ht, faithful⟩ := h _ (List.prefix_refl _)
  have lengths := stopThenHundred_lengths
  rw [ht, Option.map_some, Option.some.injEq, Prod.mk.injEq] at lengths
  have member : (0, 99) ∈ t.adapter.clientList.map fun k => (k.clientId, k.eventQueue.length) := by
    rw [lengths.1]
    exact List.mem_singleton.mpr rfl
  obtain ⟨k, hk, same⟩ := List.mem_map.mp member
  obtain ⟨address, length⟩ := Prod.mk.inj same
  have waiting := (faithful k hk).1
  rw [address] at waiting
  rw [waiting, lengths.2] at length
  exact absurd length (by decide)

end DriversFramework.VNodeAdapter
