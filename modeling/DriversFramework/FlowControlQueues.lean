import Mathlib.Algebra.Group.Nat.Defs
import DriversFramework.HdfBase
import Mathlib.Data.List.Basic

/-! Sending and draining of `flow_control.c`. The queue of network buffers belongs to the platform
and is given by its documented operations (`hdf_netbuf.h`); the functions that hand its buffers on
belong to the driver of the chip. -/
namespace DriversFramework.FlowControl

universe u v

structure NetBufQueueApi (Q : Type u) (B : Type v) where
 contents : Q → List B
 netBufQueueInit : Q
 netBufQueueSize : Q → ℕ
 netBufQueueIsEmpty : Q → Bool
 netBufQueueEnqueue : Q → B → Q
 netBufQueueDequeue : Q → Option B × Q
 init_contents : contents netBufQueueInit = []
 size_eq : ∀ q, netBufQueueSize q = (contents q).length
 isEmpty_iff : ∀ q, netBufQueueIsEmpty q = true ↔ contents q = []
 enqueue_contents : ∀ q nb, contents (netBufQueueEnqueue q nb) = contents q ++ [nb]
 dequeue_first : ∀ q, (netBufQueueDequeue q).1 = (contents q).head?
 dequeue_contents : ∀ q, contents (netBufQueueDequeue q).2 = (contents q).tail

variable {Q : Type u} {B : Type v} (api : NetBufQueueApi Q B)

/-- What the driver does with a queue: it hands buffers on from its head and leaves the others.
`none` is a function that is not set. -/
structure FlowControlOp where
 txDataPacket : Option (Q → ℤ → List B × Q)
 rxDataPacket : Option (Q → ℤ → List B × Q)
 getTxPriorityId : Option (ℕ → ℤ)
 getRxPriorityId : Option (ℕ → ℤ)
 tx_fromHead : ∀ send ∈ txDataPacket, ∀ q priority,
  api.contents q = (send q priority).1 ++ api.contents (send q priority).2
 rx_fromHead : ∀ send ∈ rxDataPacket, ∀ q priority,
  api.contents q = (send q priority).1 ++ api.contents (send q priority).2

structure FlowControlQueue (Q : Type u) where
 dataQueue : Q
 queueThreshold : ℕ
 pktCount : ℕ

structure FlowControlModule where
 fcmQueue : ℕ → ℕ → FlowControlQueue Q
 op : Option (FlowControlOp api)

def queueIdCount : ℕ := 9

def flowDirCount : ℕ := 2

def flowTx : ℕ := 0

def flowRx : ℕ := 1

variable {api}

def FlowControlModule.set (fcm : FlowControlModule api) (dir id : ℕ) (queue : FlowControlQueue Q) :
  FlowControlModule api :=
 { fcm with fcmQueue := Function.update fcm.fcmQueue dir
              (Function.update (fcm.fcmQueue dir) id queue) }

def isValidSentToFCMPra (id dir : ℕ) : Bool := !(id ≥ queueIdCount || dir ≥ flowDirCount)

def setQueueThreshold (fcm : FlowControlModule api) (queueThreshold id dir : ℕ) :
  HdfStatus × FlowControlModule api :=
 if isValidSentToFCMPra id dir = false then (.errInvalidParam, fcm)
 else (.success, fcm.set dir id { fcm.fcmQueue dir id with queueThreshold := queueThreshold })

variable (api) in
def fcmQueuePreProcess (fcmQueue : FlowControlQueue Q) : FlowControlQueue Q × Option B :=
 if 0 < fcmQueue.queueThreshold ∧
   fcmQueue.queueThreshold < api.netBufQueueSize fcmQueue.dataQueue then
  let out := api.netBufQueueDequeue fcmQueue.dataQueue
  ({ fcmQueue with dataQueue := out.2 }, out.1)
 else (fcmQueue, none)

/-- With the buffer that is freed. `dataLen` is the length of a buffer's data. -/
def sendBuffToFCM (dataLen : B → ℕ) (fcm : FlowControlModule api) (buff : Option B) (id dir : ℕ) :
  HdfStatus × FlowControlModule api × Option B :=
 match buff with
 | none => (.errInvalidParam, fcm, none)
 | some buff =>
  if dataLen buff = 0 then (.errInvalidParam, fcm, none)
  else if isValidSentToFCMPra id dir = false then (.errInvalidParam, fcm, none)
  else
   let processed := fcmQueuePreProcess api (fcm.fcmQueue dir id)
   let queue := processed.1
   let pktCount := if api.netBufQueueIsEmpty queue.dataQueue then 0 else queue.pktCount
   (.success, fcm.set dir id
    { queue with
     dataQueue := api.netBufQueueEnqueue queue.dataQueue buff
     pktCount := (pktCount + 1) % 2 ^ 32 }, processed.2)

def sendQueue (fcm : FlowControlModule api) (id dir : ℕ)
  (dataPacket : FlowControlOp api → Option (Q → ℤ → List B × Q))
  (getPriorityId : FlowControlOp api → Option (ℕ → ℤ)) :
  HdfStatus × FlowControlModule api × List B :=
 let priority := ((fcm.op.bind getPriorityId).map fun get => get id).getD 0
 match fcm.op.bind dataPacket with
 | some send =>
  let out := send (fcm.fcmQueue dir id).dataQueue priority
  (.success, fcm.set dir id { fcm.fcmQueue dir id with dataQueue := out.2 }, out.1)
 | none => (.errInvalidParam, fcm, [])

def sendFlowControlQueue (fcm : FlowControlModule api) (id dir : ℕ) :
  HdfStatus × FlowControlModule api × List B :=
 if isValidSentToFCMPra id dir = false then (.errInvalidParam, fcm, [])
 else if api.netBufQueueIsEmpty (fcm.fcmQueue dir id).dataQueue then (.success, fcm, [])
 else if dir = flowTx then
  sendQueue fcm id dir FlowControlOp.txDataPacket FlowControlOp.getTxPriorityId
 else if dir = flowRx then
  sendQueue fcm id dir FlowControlOp.rxDataPacket FlowControlOp.getRxPriorityId
 else (.success, fcm, [])

def registerFlowControlOp (fcm : FlowControlModule api) (op : Option (FlowControlOp api)) :
  HdfStatus × FlowControlModule api :=
 match op with
 | none => (.errInvalidParam, fcm)
 | some op => (.success, { fcm with op := some op })

/-- How a buffer leaves its queue; one that is freed leaves a queue of `queued` buffers. -/
inductive Exit where
 | drained
 | freed (queued : ℕ)
 deriving DecidableEq

/-- The buffers accepted by each queue and those that left it, in order. -/
structure Config (api : NetBufQueueApi Q B) where
 fcm : FlowControlModule api
 accepted : ℕ → ℕ → List B
 left : ℕ → ℕ → List (Exit × B)

def record {α : Type v} (history : ℕ → ℕ → List α) (dir id : ℕ) (entries : List α) :
  ℕ → ℕ → List α :=
 Function.update history dir (Function.update (history dir) id (history dir id ++ entries))

/-- What `SendBuffToFCM` has done with a buffer. -/
def Config.send (dataLen : B → ℕ) (c : Config api) (buff : Option B) (id dir : ℕ) : Config api :=
 let out := sendBuffToFCM dataLen c.fcm buff id dir
 { fcm := out.2.1
   accepted := record c.accepted dir id (if out.1 = .success then buff.toList else [])
   left := record c.left dir id (out.2.2.toList.map fun nb =>
    (.freed (api.contents (c.fcm.fcmQueue dir id).dataQueue).length, nb)) }

def Config.drain (c : Config api) (id dir : ℕ) : Config api :=
 let out := sendFlowControlQueue c.fcm id dir
 { c with
  fcm := out.2.1
  left := record c.left dir id (out.2.2.map fun nb => (.drained, nb)) }

inductive Step (dataLen : B → ℕ) : Config api → Config api → Prop
 | send (c : Config api) (buff : Option B) (id dir : ℕ) :
   Step dataLen c (c.send dataLen buff id dir)
 | drain (c : Config api) (id dir : ℕ) : Step dataLen c (c.drain id dir)
 | register (c : Config api) (op : Option (FlowControlOp api)) :
   Step dataLen c { c with fcm := (registerFlowControlOp c.fcm op).2 }

/-- Runs from empty queues with fixed thresholds. -/
inductive Reachable (dataLen : B → ℕ) (threshold : ℕ → ℕ → ℕ) : Config api → Prop
 | init (op : Option (FlowControlOp api)) : Reachable dataLen threshold
   ⟨⟨fun dir id => ⟨api.netBufQueueInit, threshold dir id, 0⟩, op⟩, fun _ _ => [], fun _ _ => []⟩
 | step {c c' : Config api} (reached : Reachable dataLen threshold c)
   (step : Step dataLen c c') : Reachable dataLen threshold c'

structure QueueRight (api : NetBufQueueApi Q B) (threshold : ℕ) (queue : FlowControlQueue Q)
  (accepted : List B) (left : List (Exit × B)) : Prop where
 fixed : queue.queueThreshold = threshold
 whole : accepted = left.map Prod.snd ++ api.contents queue.dataQueue
 bounded : 0 < threshold → (api.contents queue.dataQueue).length ≤ threshold + 1
 freed : ∀ queued nb, (Exit.freed queued, nb) ∈ left → 0 < threshold ∧ threshold < queued

def Right (threshold : ℕ → ℕ → ℕ) (c : Config api) : Prop :=
 ∀ dir id, QueueRight api (threshold dir id) (c.fcm.fcmQueue dir id) (c.accepted dir id)
  (c.left dir id)

theorem record_self {α : Type v} (history : ℕ → ℕ → List α) (dir id : ℕ) (entries : List α) :
  record history dir id entries dir id = history dir id ++ entries := by
 rw [record, Function.update_self, Function.update_self]

theorem record_other {α : Type v} (history : ℕ → ℕ → List α) {dir id dir' id' : ℕ}
  (entries : List α) (other : dir' ≠ dir ∨ id' ≠ id) :
  record history dir id entries dir' id' = history dir' id' := by
 by_cases h : dir' = dir
 · subst h
   rw [record, Function.update_self, Function.update_of_ne (other.resolve_left fun h => h rfl)]
 · rw [record, Function.update_of_ne h]

theorem record_nil {α : Type v} (history : ℕ → ℕ → List α) (dir id : ℕ) :
  record history dir id [] = history := by
 rw [record, List.append_nil, Function.update_eq_self, Function.update_eq_self]

theorem set_self (fcm : FlowControlModule api) (dir id : ℕ) (queue : FlowControlQueue Q) :
  (fcm.set dir id queue).fcmQueue dir id = queue := by
 change Function.update fcm.fcmQueue dir _ dir id = _
 rw [Function.update_self, Function.update_self]

theorem set_other (fcm : FlowControlModule api) {dir id dir' id' : ℕ} (queue : FlowControlQueue Q)
  (other : dir' ≠ dir ∨ id' ≠ id) :
  (fcm.set dir id queue).fcmQueue dir' id' = fcm.fcmQueue dir' id' := by
 change Function.update fcm.fcmQueue dir _ dir' id' = _
 by_cases h : dir' = dir
 · subst h
   rw [Function.update_self, Function.update_of_ne (other.resolve_left fun h => h rfl)]
 · rw [Function.update_of_ne h]

variable {threshold : ℕ → ℕ → ℕ}

theorem right_set {c : Config api} (right : Right threshold c)
  (dir id : ℕ) (queue : FlowControlQueue Q) (entries : List B) (exits : List (Exit × B))
  (here : QueueRight api (threshold dir id) queue (c.accepted dir id ++ entries)
   (c.left dir id ++ exits)) :
  Right threshold ⟨c.fcm.set dir id queue, record c.accepted dir id entries,
   record c.left dir id exits⟩ := by
 intro dir' id'
 dsimp only
 by_cases other : dir' ≠ dir ∨ id' ≠ id
 · rw [set_other _ _ other, record_other _ _ other, record_other _ _ other]
   exact right dir' id'
 · rw [not_or, not_not, not_not] at other
   obtain ⟨rfl, rfl⟩ := other
   rw [set_self, record_self, record_self]
   exact here

theorem preProcess_right {threshold : ℕ} {queue : FlowControlQueue Q} {accepted : List B}
  {left : List (Exit × B)} (right : QueueRight api threshold queue accepted left) :
  QueueRight api threshold (fcmQueuePreProcess api queue).1 accepted
    (left ++ (fcmQueuePreProcess api queue).2.toList.map fun nb =>
     (.freed (api.contents queue.dataQueue).length, nb)) ∧
   (0 < threshold →
    (api.contents (fcmQueuePreProcess api queue).1.dataQueue).length ≤ threshold) := by
 obtain ⟨fixed, whole, bounded, freed⟩ := right
 unfold fcmQueuePreProcess
 rw [fixed, api.size_eq]
 by_cases full : 0 < threshold ∧ threshold < (api.contents queue.dataQueue).length
 · rw [if_pos full]
   dsimp only
   cases hqueue : api.contents queue.dataQueue with
   | nil =>
    rw [hqueue] at full
    exact absurd full.2 (Nat.not_lt_zero _)
   | cons nb rest =>
    rw [api.dequeue_first, hqueue]
    have kept : api.contents (api.netBufQueueDequeue queue.dataQueue).2 = rest := by
     rw [api.dequeue_contents, hqueue]
     rfl
    have short := bounded full.1
    rw [hqueue, List.length_cons] at short
    refine ⟨⟨rfl, ?_, fun _ => ?_, fun queued b mem => ?_⟩, fun _ => ?_⟩
    · rw [kept, whole, hqueue]
      simp
    · rw [kept]
      omega
    · rcases List.mem_append.mp mem with mem | mem
      · exact freed queued b mem
      · rw [hqueue] at full
        simp only [List.head?_cons, Option.toList_some, List.map_cons, List.map_nil,
         List.mem_singleton, Prod.mk.injEq, Exit.freed.injEq] at mem
        rw [mem.1]
        exact full
    · rw [kept]
      omega
 · rw [if_neg full]
   refine ⟨⟨fixed, ?_, bounded, ?_⟩, fun positive => ?_⟩
   · simpa using whole
   · simpa using freed
   · exact Nat.not_lt.mp fun more => full ⟨positive, more⟩

theorem sendBuffToFCM_cases (dataLen : B → ℕ) (fcm : FlowControlModule api) (buff : Option B)
  (id dir : ℕ) :
  sendBuffToFCM dataLen fcm buff id dir = (.errInvalidParam, fcm, none) ∨
   ∃ nb pktCount, buff = some nb ∧ sendBuffToFCM dataLen fcm buff id dir =
    (.success, fcm.set dir id
     ⟨api.netBufQueueEnqueue (fcmQueuePreProcess api (fcm.fcmQueue dir id)).1.dataQueue nb,
      (fcmQueuePreProcess api (fcm.fcmQueue dir id)).1.queueThreshold, pktCount⟩,
     (fcmQueuePreProcess api (fcm.fcmQueue dir id)).2) := by
 cases buff with
 | none => exact .inl rfl
 | some nb =>
  unfold sendBuffToFCM
  dsimp only
  by_cases empty : dataLen nb = 0
  · exact .inl (if_pos empty)
  rw [if_neg empty]
  by_cases invalid : isValidSentToFCMPra id dir = false
  · exact .inl (if_pos invalid)
  rw [if_neg invalid]
  exact .inr ⟨nb, _, rfl, rfl⟩

theorem Right.send {c : Config api} (right : Right threshold c)
  (dataLen : B → ℕ) (buff : Option B) (id dir : ℕ) :
  Right threshold (c.send dataLen buff id dir) := by
 unfold Config.send
 rcases sendBuffToFCM_cases dataLen c.fcm buff id dir with refused | ⟨nb, pktCount, rfl, taken⟩
 · rw [refused]
   dsimp only
   rw [if_neg (by decide), Option.toList_none, List.map_nil, record_nil, record_nil]
   exact right
 · rw [taken]
   dsimp only
   rw [if_pos rfl]
   obtain ⟨⟨fixed, whole, _, freed⟩, room⟩ := preProcess_right (right dir id)
   refine right_set right dir id _ _ _ ⟨fixed, ?_, fun positive => ?_, freed⟩
   · dsimp only
     rw [api.enqueue_contents, whole, List.append_assoc]
     rfl
   · dsimp only
     rw [api.enqueue_contents, List.length_append, List.length_singleton]
     exact Nat.succ_le_succ (room positive)

theorem sendQueue_right {c : Config api} (right : Right threshold c)
  (id dir : ℕ) (dataPacket : FlowControlOp api → Option (Q → ℤ → List B × Q))
  (getPriorityId : FlowControlOp api → Option (ℕ → ℤ))
  (fromHead : ∀ op : FlowControlOp api, ∀ send ∈ dataPacket op, ∀ q priority,
   api.contents q = (send q priority).1 ++ api.contents (send q priority).2) :
  Right threshold
   { c with
    fcm := (sendQueue c.fcm id dir dataPacket getPriorityId).2.1
    left := record c.left dir id
     ((sendQueue c.fcm id dir dataPacket getPriorityId).2.2.map fun nb => (.drained, nb)) } := by
 rw [← record_nil c.accepted dir id]
 unfold sendQueue
 cases found : c.fcm.op.bind dataPacket with
 | none =>
  dsimp only
  rw [List.map_nil, record_nil, record_nil]
  exact right
 | some send =>
  obtain ⟨op, -, hsend⟩ := Option.bind_eq_some_iff.mp found
  obtain ⟨fixed, whole, bounded, freed⟩ := right dir id
  have parts := fromHead op send hsend (c.fcm.fcmQueue dir id).dataQueue
   (((c.fcm.op.bind getPriorityId).map fun get => get id).getD 0)
  refine right_set right dir id _ _ _ ⟨fixed, ?_, fun positive => ?_, fun queued nb mem => ?_⟩
  · dsimp only
    rw [List.append_nil, whole, List.map_append, List.map_map, List.append_assoc]
    refine congrArg _ (parts.trans ?_)
    exact congrArg (· ++ _) (List.map_id _).symm
  · have before := bounded positive
    rw [parts, List.length_append] at before
    exact Nat.le_trans (Nat.le_add_left _ _) before
  · rcases List.mem_append.mp mem with mem | mem
    · exact freed queued nb mem
    · simp at mem

theorem Right.drain {c : Config api} (right : Right threshold c)
  (id dir : ℕ) : Right threshold (c.drain id dir) := by
 have idle : Right threshold { c with left := record c.left dir id [] } := by
  rw [record_nil]
  exact right
 unfold Config.drain sendFlowControlQueue
 split_ifs
 · exact idle
 · exact idle
 · exact sendQueue_right right id dir _ _ fun op => op.tx_fromHead
 · exact sendQueue_right right id dir _ _ fun op => op.rx_fromHead
 · exact idle

theorem Reachable.right {dataLen : B → ℕ} {c : Config api}
  (reached : Reachable dataLen threshold c) : Right threshold c := by
 induction reached with
 | init op =>
  intro dir id
  refine ⟨rfl, ?_, fun _ => ?_, fun _ _ mem => absurd mem List.not_mem_nil⟩
  · rw [api.init_contents]
    rfl
  · rw [api.init_contents]
    exact Nat.zero_le _
 | step _ step ih =>
  cases step with
  | send buff id dir => exact ih.send dataLen buff id dir
  | drain id dir => exact ih.drain id dir
  | register op => cases op <;> exact ih

def listApi : NetBufQueueApi (List ℕ) ℕ where
 contents q := q
 netBufQueueInit := []
 netBufQueueSize := List.length
 netBufQueueIsEmpty := List.isEmpty
 netBufQueueEnqueue q nb := q ++ [nb]
 netBufQueueDequeue q := (q.head?, q.tail)
 init_contents := rfl
 size_eq _ := rfl
 isEmpty_iff _ := List.isEmpty_iff
 enqueue_contents _ _ := rfl
 dequeue_first _ := rfl
 dequeue_contents _ := rfl

def emptyQueues : Config listApi :=
 ⟨⟨fun _ _ => ⟨[], 1, 0⟩, none⟩, fun _ _ => [], fun _ _ => []⟩

/-- Buffers 7, 8 and 9 are sent to the normal queue. -/
def threeSent : Config listApi :=
 ((emptyQueues.send (fun _ => 1) (some 7) 2 0).send (fun _ => 1) (some 8) 2 0).send (fun _ => 1)
  (some 9) 2 0

theorem threeSent_reachable : Reachable (fun _ => 1) (fun _ _ => 1) threeSent :=
 (((Reachable.init none).step (.send emptyQueues (some 7) 2 0)).step (.send _ (some 8) 2 0)).step
  (.send _ (some 9) 2 0)

end DriversFramework.FlowControl
