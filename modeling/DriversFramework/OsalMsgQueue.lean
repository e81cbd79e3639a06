import Mathlib.Algebra.Group.Nat.Defs
import DriversFramework.HdfSListIterator
import DriversFramework.LoopPrograms

/-! `HdfMessageQueueEnqueue` and `HdfMessageQueueNext` of `osal_msg_queue.c` over the links and time
stamps in memory. The entry of a message is its first field, so that a message is a place of the
list. Each operation holds the queue's lock while it works on the list. -/
namespace DriversFramework.OsalMsgQueue

open HdfSListMemory LinkedChains LoopPrograms

structure QueueMemory where
 links : Memory
 timeStamp : ℕ → ℕ
 /-- The posts without the waits; negative while callers wait. -/
 semaphore : ℤ

/-- `HdfSListAddTail`; the list holds its root where an element holds its link. -/
def hdfSListAddTail (list link : ℕ) : Prog Memory Unit :=
 Prog.loop (fun iterator => Prog.step fun m =>
  match m iterator with
  | none => (.inr (), Function.update (Function.update m link none) iterator (some link))
  | some next => if next = link then (.inr (), m) else (.inl next, m)) list

def enqueueRound (message : ℕ) (it : Iterator) : Prog QueueMemory (Iterator ⊕ Bool) := do
 if ← Prog.read fun s => it.hasNext s.links then
  let it ← Prog.read fun s => it.next s.links
  it.curr.elim Prog.never fun next => do
   if ← Prog.read fun s => decide (s.timeStamp message < s.timeStamp next) then
    Prog.modify fun s => { s with links := (it.insert s.links message).1 }
    pure (.inr true)
   else pure (.inl it)
 else pure (.inr false)

/-- `now` is the system time; the stamp has 64 bits, and the delay is not used. -/
def hdfMessageQueueEnqueue (queue message : Option ℕ) (_delayed : ℤ) (now : ℕ) :
  Prog QueueMemory Unit :=
 match queue, message with
 | some queue, some message => do
  Prog.modify fun s =>
   { s with timeStamp := Function.update s.timeStamp message
              ((s.timeStamp message + now) % 2 ^ 64) }
  let it ← Prog.read fun s => Iterator.init s.links queue
  let inserted ← Prog.loop (enqueueRound message) it
  if inserted then pure ()
  else
   Prog.zoom QueueMemory.links (fun s m => { s with links := m })
    (hdfSListAddTail queue message)
  Prog.modify fun s => { s with semaphore := s.semaphore + 1 }
 | _, _ => pure ()

def nextRound (now : ℕ) (it : Iterator) : Prog QueueMemory (Iterator ⊕ Option ℕ) := do
 if ← Prog.read fun s => it.hasNext s.links then
  let it ← Prog.read fun s => it.next s.links
  it.curr.elim Prog.never fun message => do
   if ← Prog.read fun s => decide (s.timeStamp message ≤ now) then
    Prog.modify fun s => { s with links := (it.remove s.links).1 }
    pure (.inr (some message))
   else pure (.inl it)
 else pure (.inr none)

/-- Without a message that is due the caller waits for the semaphore, and gets none. -/
def hdfMessageQueueNext (queue now : ℕ) : Prog QueueMemory (Option ℕ) := do
 let it ← Prog.read fun s => Iterator.init s.links queue
 let message ← Prog.loop (nextRound now) it
 if message.isNone then Prog.modify fun s => { s with semaphore := s.semaphore - 1 }
 else pure ()
 pure message

/-- A message from the time it is enqueued, with the stamp it has then. -/
structure Ticket where
 order : ℕ
 message : ℕ
 timeStamp : ℕ
 deriving DecidableEq

/-- Earlier, or enqueued first with the same stamp. -/
def Ticket.Before (t u : Ticket) : Prop :=
 t.timeStamp < u.timeStamp ∨ t.timeStamp = u.timeStamp ∧ t.order < u.order

/-- The memory, the messages enqueued so far in order, and those returned so far in order. -/
structure Config where
 memory : QueueMemory
 enqueued : List Ticket
 returned : List Ticket

def latest (enqueued : List Ticket) (message : ℕ) : Option Ticket :=
 enqueued.reverse.find? fun t => t.message = message

/-- The place is reached from the queue along the links. -/
def InQueue (queue : ℕ) (s : QueueMemory) (place : ℕ) : Prop :=
 Relation.ReflTransGen (fun a b => s.links a = some b) queue place

/-- What the owner of a message leaves in it before it is enqueued. -/
def QueueMemory.write (s : QueueMemory) (message : ℕ) (link : Option ℕ) (timeStamp : ℕ) :
  QueueMemory :=
 { s with
  links := Function.update s.links message link
  timeStamp := Function.update s.timeStamp message timeStamp }

inductive Step (queue : ℕ) : Config → Config → Prop
 | enqueue (c : Config) (message : ℕ) (link : Option ℕ) (timeStamp now : ℕ) (delayed : ℤ)
   (m : QueueMemory) (free : ¬ InQueue queue c.memory message)
   (run : (hdfMessageQueueEnqueue (some queue) (some message) delayed now).Runs
    (c.memory.write message link timeStamp) () m) :
   Step queue c ⟨m, c.enqueued ++ [⟨c.enqueued.length, message, (timeStamp + now) % 2 ^ 64⟩],
    c.returned⟩
 | null (c : Config) (now : ℕ) (delayed : ℤ) (m : QueueMemory)
   (run : (hdfMessageQueueEnqueue (some queue) none delayed now).Runs c.memory () m) :
   Step queue c ⟨m, c.enqueued, c.returned⟩
 | next (c : Config) (now : ℕ) (r : Option ℕ) (m : QueueMemory)
   (run : (hdfMessageQueueNext queue now).Runs c.memory r m) :
   Step queue c ⟨m, c.enqueued, c.returned ++ (r.bind (latest c.enqueued)).toList⟩

/-- Runs from `OsalMessageQueueInit`, which leaves an empty list. -/
inductive Reachable (queue : ℕ) : Config → Prop
 | init (s : QueueMemory) (empty : s.links queue = none) : Reachable queue ⟨s, [], []⟩
 | step {c c' : Config} (reached : Reachable queue c) (step : Step queue c c') :
   Reachable queue c'

section rounds
variable {queue message node now : ℕ} {s : QueueMemory} {done rest : List ℕ} {it : Iterator}

theorem enqueueRound_end (ended : it.hasNext s.links = false) :
  (enqueueRound message it).Runs s (.inr false) s :=
 ⟨0, by simp [enqueueRound, ended]⟩

variable {prev : ℕ} (more : it.hasNext s.links = true)
  (next : it.next s.links = ⟨true, some prev, some node⟩)
include more next

theorem enqueueRound_later (later : s.timeStamp message < s.timeStamp node) :
  (enqueueRound message it).Runs s (.inr true)
   { s with links := Function.update (Function.update s.links message (some node)) prev
              (some message) } :=
 ⟨0, by simp [enqueueRound, more, next, later, Iterator.insert]⟩

theorem enqueueRound_on (early : s.timeStamp node ≤ s.timeStamp message) :
  (enqueueRound message it).Runs s (.inl ⟨true, some prev, some node⟩) s :=
 ⟨0, by simp [enqueueRound, more, next, Nat.not_lt.mpr early]⟩

theorem nextRound_due (due : s.timeStamp node ≤ now) :
  (nextRound now it).Runs s (.inr (some node))
   { s with links := Function.update s.links prev (s.links node) } :=
 ⟨0, by simp [nextRound, more, next, due, Iterator.remove]⟩

theorem nextRound_on (early : now < s.timeStamp node) :
  (nextRound now it).Runs s (.inl ⟨true, some prev, some node⟩) s :=
 ⟨0, by simp [nextRound, more, next, Nat.not_le.mpr early]⟩

end rounds

theorem nextRound_end {now : ℕ} {s : QueueMemory} {it : Iterator}
  (ended : it.hasNext s.links = false) : (nextRound now it).Runs s (.inr none) s :=
 ⟨0, by simp [nextRound, ended]⟩

structure Stands (queue : ℕ) (s : QueueMemory) (elements : List ℕ) : Prop where
 linked : Linked s.links (queue :: elements)
 distinct : (queue :: elements).Nodup

section loops
variable {queue message now : ℕ} {s : QueueMemory}

theorem behind_last {done front : List ℕ} {prev : ℕ} (last : queue :: done = front ++ [prev])
  (rest : List ℕ) : queue :: (done ++ rest) = front ++ prev :: rest := by
 rw [← List.cons_append, last, List.append_assoc]
 rfl

theorem at_visits {node : ℕ} {done rest : List ℕ} {it : Iterator}
  (place : At queue done (node :: rest) it) (stands : Stands queue s (done ++ node :: rest)) :
  ∃ front prev, queue :: done = front ++ [prev] ∧ it.hasNext s.links = true ∧
   it.next s.links = ⟨true, some prev, some node⟩ ∧
   At queue (done ++ [node]) rest ⟨true, some prev, some node⟩ := by
 obtain ⟨front, prev, last, next⟩ := place.next_eq stands.linked
 have more := (place.hasNext_iff stands.linked).mpr (List.cons_ne_nil node rest)
 exact ⟨front, prev, last, more, next, .kept (behind_last last [node])⟩

theorem at_ends {done : List ℕ} {it : Iterator} (place : At queue done [] it)
  (stands : Stands queue s (done ++ [])) : it.hasNext s.links = false := by
 rw [← Bool.not_eq_true, place.hasNext_iff stands.linked]
 exact fun more => more rfl

theorem enqueue_loop (rest : List ℕ) : ∀ (done : List ℕ) (it : Iterator), At queue done rest it →
  Stands queue s (done ++ rest) → message ∉ queue :: (done ++ rest) →
  (∀ a ∈ done, s.timeStamp a ≤ s.timeStamp message) →
  (Prog.loop (enqueueRound message) it).Runs s false s ∧
    (∀ a ∈ done ++ rest, s.timeStamp a ≤ s.timeStamp message) ∨
   ∃ m front back, (Prog.loop (enqueueRound message) it).Runs s true { s with links := m } ∧
    done ++ rest = front ++ back ∧ (∀ a ∈ front, s.timeStamp a ≤ s.timeStamp message) ∧
    (∀ b ∈ back.head?, s.timeStamp message < s.timeStamp b) ∧
    Linked m (queue :: (front ++ message :: back)) := by
 induction rest with
 | nil =>
  intro done it place stands _ early
  refine .inl ⟨(Prog.runs_loop _ _ _ _ _).mpr (.inl (enqueueRound_end (at_ends place stands))), ?_⟩
  rw [List.append_nil]
  exact early
 | cons node rest ih =>
  intro done it place stands free early
  obtain ⟨front, prev, last, more, next, place'⟩ := at_visits place stands
  by_cases later : s.timeStamp message < s.timeStamp node
  · have run := enqueueRound_later more next later
    refine .inr ⟨_, done, node :: rest, (Prog.runs_loop _ _ _ _ _).mpr (.inl run), rfl, early,
     ?_, ?_⟩
    · rintro b ⟨⟩
      exact later
    · rw [behind_last last (message :: node :: rest)]
      have linked := stands.linked
      have distinct := stands.distinct
      rw [behind_last last (node :: rest)] at linked distinct free
      exact linked.insert distinct free
  have early' : ∀ a ∈ done ++ [node], s.timeStamp a ≤ s.timeStamp message := by
   intro a ha
   rcases List.mem_append.mp ha with ha | ha
   · exact early a ha
   · rw [List.mem_singleton.mp ha]
     exact Nat.not_lt.mp later
  have goesOn := enqueueRound_on more next (Nat.not_lt.mp later)
  have whole : done ++ node :: rest = done ++ [node] ++ rest := by simp
  rw [whole] at stands free ⊢
  rcases ih _ _ place' stands free early' with
   ⟨run, all⟩ | ⟨m, before, behind, run, parts, facts⟩
  · exact .inl ⟨(Prog.runs_loop _ _ _ _ _).mpr (.inr ⟨_, _, goesOn, run⟩), all⟩
  · exact .inr ⟨m, before, behind, (Prog.runs_loop _ _ _ _ _).mpr (.inr ⟨_, _, goesOn, run⟩),
     parts, facts⟩

theorem hdfSListAddTail_right (back : List ℕ) : ∀ (front : List ℕ) (iterator : ℕ) (m : Memory),
  Linked m (front ++ iterator :: back) → (front ++ iterator :: back).Nodup →
  message ∉ front ++ iterator :: back →
  ∃ m', (hdfSListAddTail iterator message).Runs m () m' ∧
   Linked m' (front ++ iterator :: back ++ [message]) := by
 induction back with
 | nil =>
  intro front iterator m linked distinct free
  have ended : m iterator = none := linked.next_eq
  refine ⟨Function.update (Function.update m message none) iterator (some message),
   (Prog.runs_loop _ _ _ _ _).mpr (.inl ⟨0, ?_⟩), ?_⟩
  · rw [Prog.run_step, ended]
  · have inserted := linked.insert distinct free
    rw [List.append_assoc]
    exact inserted
 | cons node back ih =>
  intro front iterator m linked distinct free
  have next : m iterator = some node := linked.next_eq
  have other : node ≠ message := by
   rintro rfl
   exact free (by simp)
  have whole : front ++ iterator :: node :: back = (front ++ [iterator]) ++ node :: back := by
   simp
  rw [whole] at linked distinct free ⊢
  obtain ⟨m', run, linked'⟩ := ih _ _ m linked distinct free
  refine ⟨m', (Prog.runs_loop _ _ _ _ _).mpr (.inr ⟨node, m, ⟨0, ?_⟩, run⟩), linked'⟩
  rw [Prog.run_step, next]
  dsimp only
  rw [if_neg other]

theorem next_loop (rest : List ℕ) : ∀ (done : List ℕ) (it : Iterator), At queue done rest it →
  Stands queue s (done ++ rest) → (∀ a ∈ done, now < s.timeStamp a) →
  (Prog.loop (nextRound now) it).Runs s none s ∧ (∀ a ∈ done ++ rest, now < s.timeStamp a) ∨
   ∃ m front a back,
    (Prog.loop (nextRound now) it).Runs s (some a) { s with links := m } ∧
    done ++ rest = front ++ a :: back ∧ (∀ b ∈ front, now < s.timeStamp b) ∧
    s.timeStamp a ≤ now ∧ Linked m (queue :: (front ++ back)) := by
 induction rest with
 | nil =>
  intro done it place stands early
  refine .inl ⟨(Prog.runs_loop _ _ _ _ _).mpr (.inl (nextRound_end (at_ends place stands))), ?_⟩
  rw [List.append_nil]
  exact early
 | cons node rest ih =>
  intro done it place stands early
  obtain ⟨front, prev, last, more, next, place'⟩ := at_visits place stands
  by_cases due : s.timeStamp node ≤ now
  · have run := nextRound_due more next due
    refine .inr ⟨_, done, node, rest, (Prog.runs_loop _ _ _ _ _).mpr (.inl run), rfl, early, due,
     ?_⟩
    have linked := stands.linked
    have behind : s.links node = rest.head? := by
     rw [← List.cons_append] at linked
     exact linked.next_eq
    have distinct := stands.distinct
    rw [behind_last last (node :: rest)] at linked distinct
    rw [behind_last last rest, behind]
    exact linked.unlink distinct
  have early' : ∀ a ∈ done ++ [node], now < s.timeStamp a := by
   intro a ha
   rcases List.mem_append.mp ha with ha | ha
   · exact early a ha
   · rw [List.mem_singleton.mp ha]
     exact Nat.not_le.mp due
  have goesOn := nextRound_on more next (Nat.not_le.mp due)
  have whole : done ++ node :: rest = done ++ [node] ++ rest := by simp
  rw [whole] at stands ⊢
  rcases ih _ _ place' stands early' with
   ⟨run, all⟩ | ⟨m, before, a, behind, run, facts⟩
  · exact .inl ⟨(Prog.runs_loop _ _ _ _ _).mpr (.inr ⟨_, _, goesOn, run⟩), all⟩
  · exact .inr ⟨m, before, a, behind,
     (Prog.runs_loop _ _ _ _ _).mpr (.inr ⟨_, _, goesOn, run⟩), facts⟩

end loops

section operations
variable {queue message now : ℕ} {s : QueueMemory} {elements : List ℕ}

theorem init_at (stands : Stands queue s elements) :
  At queue [] elements (Iterator.init s.links queue) := by
 have root : s.links queue = elements.head? := stands.linked [] queue elements rfl
 rw [Iterator.init, root]
 exact At.fresh (List.nil_append [queue]).symm

theorem Stands.inQueue (stands : Stands queue s elements) {place : ℕ}
  (ha : place ∈ queue :: elements) : InQueue queue s place := by
 obtain ⟨linked, -⟩ := stands
 have general : ∀ (front : List ℕ) (start : ℕ) (back : List ℕ), queue :: elements =
   front ++ start :: back → place ∈ start :: back →
   Relation.ReflTransGen (fun a b => s.links a = some b) start place := by
  intro front start back
  induction back generalizing front start with
  | nil =>
   intro _ mem
   rw [List.mem_singleton.mp mem]
  | cons node back ih =>
   intro split mem
   rcases List.mem_cons.mp mem with rfl | mem
   · exact .refl
   · exact .head (linked front start (node :: back) split)
      (ih (front ++ [start]) node (by simpa using split) mem)
 exact general [] queue elements rfl ha

/-- The stamp a message has when it is enqueued at time `now`. -/
def stampAt (s : QueueMemory) (message now : ℕ) : ℕ := (s.timeStamp message + now) % 2 ^ 64

theorem enqueue_right (delayed : ℤ) (now : ℕ) (stands : Stands queue s elements)
  (free : message ∉ queue :: elements) :
  ∃ t front back,
   (hdfMessageQueueEnqueue (some queue) (some message) delayed now).Runs s () t ∧
   elements = front ++ back ∧ Stands queue t (front ++ message :: back) ∧
   t.timeStamp = Function.update s.timeStamp message (stampAt s message now) ∧
   (∀ a ∈ front, s.timeStamp a ≤ stampAt s message now) ∧
   ∀ b ∈ back.head?, stampAt s message now < s.timeStamp b := by
 let stamped : QueueMemory :=
  { s with timeStamp := Function.update s.timeStamp message (stampAt s message now) }
 have own : stamped.timeStamp message = stampAt s message now := Function.update_self ..
 have others : ∀ a ∈ elements, stamped.timeStamp a = s.timeStamp a := by
  intro a ha
  refine Function.update_of_ne ?_ _ _
  rintro rfl
  exact free (List.mem_cons_of_mem _ ha)
 have distinct : ∀ front back, elements = front ++ back →
   (queue :: (front ++ message :: back)).Nodup := by
  rintro front back rfl
  have swap : (queue :: (front ++ message :: back)).Perm (message :: queue :: (front ++ back)) :=
   (List.perm_middle.cons queue).trans (List.Perm.swap ..)
  exact swap.nodup_iff.mpr (List.nodup_cons.mpr ⟨free, stands.distinct⟩)
 have stands' : Stands queue stamped ([] ++ elements) := ⟨stands.linked, stands.distinct⟩
 rcases enqueue_loop elements [] _ (init_at stands) stands' free (by simp) with
  ⟨run, all⟩ | ⟨m, front, back, run, parts, early, late, linked⟩
 · obtain ⟨m, tail, linked⟩ := hdfSListAddTail_right elements [] queue s.links stands.linked
    stands.distinct free
   rw [own] at all
   refine ⟨{ stamped with links := m, semaphore := s.semaphore + 1 }, elements, [], ?_, by simp,
    ⟨linked, distinct _ _ (by simp)⟩, rfl, fun a ha => ?_, by simp⟩
   · refine (Prog.runs_bind _ _ _ _ _).mpr ⟨(), stamped, ⟨0, rfl⟩, ?_⟩
     refine (Prog.runs_bind _ _ _ _ _).mpr ⟨_, stamped, ⟨0, rfl⟩, ?_⟩
     refine (Prog.runs_bind _ _ _ _ _).mpr ⟨false, stamped, run, ?_⟩
     refine (Prog.runs_bind _ _ _ _ _).mpr ⟨(), { stamped with links := m }, ?_, ⟨0, rfl⟩⟩
     exact (Prog.runs_zoom _ _ _ _ _ _).mpr ⟨m, tail, rfl⟩
   · rw [← others a ha]
     exact all a ha
 · rw [List.nil_append] at parts
   rw [own] at early late
   subst parts
   refine ⟨{ stamped with links := m, semaphore := s.semaphore + 1 }, front, back, ?_, rfl,
    ⟨linked, distinct _ _ rfl⟩, rfl, fun a ha => ?_, fun b hb => ?_⟩
   · refine (Prog.runs_bind _ _ _ _ _).mpr ⟨(), stamped, ⟨0, rfl⟩, ?_⟩
     refine (Prog.runs_bind _ _ _ _ _).mpr ⟨_, stamped, ⟨0, rfl⟩, ?_⟩
     refine (Prog.runs_bind _ _ _ _ _).mpr ⟨true, { stamped with links := m }, run, ?_⟩
     exact ⟨0, rfl⟩
   · rw [← others a (List.mem_append_left _ ha)]
     exact early a ha
   · rw [← others b (List.mem_append_right _ (List.mem_of_head? hb))]
     exact late b hb

theorem next_right (now : ℕ) (stands : Stands queue s elements) :
  ∃ r t, (hdfMessageQueueNext queue now).Runs s r t ∧ t.timeStamp = s.timeStamp ∧
   (r = none ∧ Stands queue t elements ∧ (∀ a ∈ elements, now < s.timeStamp a) ∨
    ∃ front a back, r = some a ∧ elements = front ++ a :: back ∧
     Stands queue t (front ++ back) ∧ (∀ b ∈ front, now < s.timeStamp b) ∧
     s.timeStamp a ≤ now) := by
 rcases next_loop elements [] _ (init_at stands) stands (by simp) with
  ⟨run, all⟩ | ⟨m, front, a, back, run, parts, early, due, linked⟩
 · refine ⟨none, { s with semaphore := s.semaphore - 1 }, ?_, rfl,
    .inl ⟨rfl, ⟨stands.linked, stands.distinct⟩, all⟩⟩
   refine (Prog.runs_bind _ _ _ _ _).mpr ⟨_, s, ⟨0, rfl⟩, ?_⟩
   exact (Prog.runs_bind _ _ _ _ _).mpr ⟨none, s, run, ⟨0, rfl⟩⟩
 · rw [List.nil_append] at parts
   have fewer : List.Sublist (front ++ back) elements := by
    rw [parts]
    exact (List.sublist_cons_self a back).append_left front
   refine ⟨some a, { s with links := m }, ?_, rfl, .inr ⟨front, a, back, rfl, parts,
    ⟨linked, stands.distinct.sublist (fewer.cons_cons queue)⟩, early, due⟩⟩
   refine (Prog.runs_bind _ _ _ _ _).mpr ⟨_, s, ⟨0, rfl⟩, ?_⟩
   exact (Prog.runs_bind _ _ _ _ _).mpr ⟨some a, _, run, ⟨0, rfl⟩⟩

end operations

/-- The queue holds the messages of the tickets that are not returned yet, by stamps and in the
order in which they were enqueued. -/
structure Right (queue : ℕ) (c : Config) (queued : List Ticket) : Prop where
 stands : Stands queue c.memory (queued.map Ticket.message)
 stamps : ∀ t ∈ queued, c.memory.timeStamp t.message = t.timeStamp
 sorted : queued.Pairwise Ticket.Before
 whole : (c.returned ++ queued).Perm c.enqueued
 orders : c.enqueued.map Ticket.order = List.range c.enqueued.length
 known : ∀ t ∈ queued, latest c.enqueued t.message = some t

/-- What is returned at a time: the first of the messages that are due, and none without one. -/
def EarliestDue (queued : List Ticket) (now : ℕ) : Option ℕ → Prop
 | none => ∀ t ∈ queued, now < t.timeStamp
 | some message => ∃ t ∈ queued, t.message = message ∧ t.timeStamp ≤ now ∧
   ∀ u ∈ queued, u = t ∨ t.Before u

section runs
variable {queue : ℕ} {c : Config} {queued : List Ticket}

theorem latest_append (enqueued : List Ticket) (t : Ticket) (message : ℕ) :
  latest (enqueued ++ [t]) message =
   if t.message = message then some t else latest enqueued message := by
 rw [latest, List.reverse_append, List.reverse_singleton, List.singleton_append, List.find?_cons]
 split <;> simp_all [latest]

theorem stampAt_write (s : QueueMemory) (message : ℕ) (link : Option ℕ) (timeStamp now : ℕ) :
  stampAt (s.write message link timeStamp) message now = (timeStamp + now) % 2 ^ 64 := by
 change (Function.update s.timeStamp message timeStamp message + now) % 2 ^ 64 = _
 rw [Function.update_self]

theorem Right.order_lt (right : Right queue c queued) {t : Ticket} (ht : t ∈ queued) :
  t.order < c.enqueued.length := by
 have mem := List.mem_map_of_mem (f := Ticket.order)
  (right.whole.subset (List.mem_append_right _ ht))
 rw [right.orders] at mem
 exact List.mem_range.mp mem

theorem Right.write (right : Right queue c queued) {message : ℕ} (link : Option ℕ) (timeStamp : ℕ)
  (free : message ∉ queue :: queued.map Ticket.message) :
  Right queue { c with memory := c.memory.write message link timeStamp } queued where
 stands := ⟨right.stands.linked.update_outside free, right.stands.distinct⟩
 stamps t ht := by
  rw [← right.stamps t ht]
  refine Function.update_of_ne ?_ _ _
  rintro rfl
  exact free (List.mem_cons_of_mem _ (List.mem_map_of_mem ht))
 sorted := right.sorted
 whole := right.whole
 orders := right.orders
 known := right.known

theorem Right.enqueue (right : Right queue c queued) {message : ℕ} (delayed : ℤ) (now : ℕ)
  (free : message ∉ queue :: queued.map Ticket.message) :
  ∃ m queued',
   (hdfMessageQueueEnqueue (some queue) (some message) delayed now).Runs c.memory () m ∧
   Right queue ⟨m, c.enqueued ++ [⟨c.enqueued.length, message, stampAt c.memory message now⟩],
    c.returned⟩ queued' := by
 obtain ⟨m, front, back, run, parts, stands, stamps, early, late⟩ :=
  enqueue_right delayed now right.stands free
 obtain ⟨before, behind, rfl, rfl, rfl⟩ := List.map_eq_append_iff.mp parts
 let ticket : Ticket := ⟨c.enqueued.length, message, stampAt c.memory message now⟩
 have other : ∀ t ∈ before ++ behind, t.message ≠ message := by
  rintro t ht rfl
  exact free (List.mem_cons_of_mem _ (List.mem_map_of_mem ht))
 have old : ∀ t ∈ before ++ ticket :: behind, t = ticket ∨ t ∈ before ++ behind := by
  intro t ht
  rwa [List.perm_middle.mem_iff, List.mem_cons] at ht
 refine ⟨m, before ++ ticket :: behind, run, ?_, fun t ht => ?_, ?_, ?_, ?_, fun t ht => ?_⟩
 · rw [List.map_append, List.map_cons]
   exact stands
 · change m.timeStamp t.message = t.timeStamp
   rw [stamps]
   rcases old t ht with rfl | ht
   · exact Function.update_self ..
   · rw [Function.update_of_ne (other t ht)]
     exact right.stamps t ht
 · have sorted := List.pairwise_append.mp right.sorted
   refine List.pairwise_append.mpr ⟨sorted.1, List.pairwise_cons.mpr ⟨fun t ht => ?_, sorted.2.1⟩,
    fun t ht u hu => ?_⟩
   · obtain ⟨head, tail, rfl⟩ : ∃ head tail, behind = head :: tail := by
      cases behind with
      | nil => cases ht
      | cons head tail => exact ⟨head, tail, rfl⟩
     have first : ticket.timeStamp < head.timeStamp := by
      rw [← right.stamps head (by simp)]
      exact late _ rfl
     rcases List.mem_cons.mp ht with rfl | ht
     · exact .inl first
     · rcases (List.pairwise_cons.mp sorted.2.1).1 t ht with lt | ⟨same, _⟩
       · exact .inl (Nat.lt_trans first lt)
       · exact .inl (same ▸ first)
   · rcases List.mem_cons.mp hu with rfl | hu
     · have le : t.timeStamp ≤ ticket.timeStamp := by
        rw [← right.stamps t (List.mem_append_left _ ht)]
        exact early _ (List.mem_map_of_mem ht)
       rcases Nat.lt_or_eq_of_le le with lt | same
       · exact .inl lt
       · exact .inr ⟨same, right.order_lt (List.mem_append_left _ ht)⟩
     · exact sorted.2.2 t ht u hu
 · have moved : (c.returned ++ (before ++ ticket :: behind)).Perm
     (c.returned ++ (before ++ behind) ++ [ticket]) := by
    rw [List.append_assoc]
    refine List.Perm.append_left c.returned (List.perm_middle.trans ?_)
    exact (List.perm_append_singleton ticket (before ++ behind)).symm
   exact moved.trans (right.whole.append_right [ticket])
 · rw [List.map_append, right.orders, List.length_append, List.length_singleton, List.range_succ]
   rfl
 · rw [latest_append]
   rcases old t ht with rfl | ht
   · exact if_pos rfl
   · rw [if_neg (other t ht).symm]
     exact right.known t ht

theorem Right.next (right : Right queue c queued) (now : ℕ) :
  ∃ r m queued', (hdfMessageQueueNext queue now).Runs c.memory r m ∧ EarliestDue queued now r ∧
   Right queue ⟨m, c.enqueued, c.returned ++ (r.bind (latest c.enqueued)).toList⟩ queued' := by
 obtain ⟨r, m, run, stamps, result⟩ := next_right now right.stands
 rcases result with ⟨rfl, stands, none⟩ | ⟨front, a, back, rfl, parts, stands, early, due⟩
 · refine ⟨_, m, queued, run, fun t ht => ?_, stands, fun t ht => ?_, right.sorted, ?_,
    right.orders, right.known⟩
   · rw [← right.stamps t ht]
     exact none _ (List.mem_map_of_mem ht)
   · rw [← right.stamps t ht, ← stamps]
   · simpa using right.whole
 · obtain ⟨before, rest, rfl, rfl, tail⟩ := List.map_eq_append_iff.mp parts
   obtain ⟨t, behind, rfl, rfl, rfl⟩ := List.map_eq_cons_iff.mp tail
   have ht : t ∈ before ++ t :: behind := List.mem_append_right _ List.mem_cons_self
   have sorted := List.pairwise_append.mp right.sorted
   rw [right.stamps t ht] at due
   -- an earlier element would be due as well
   obtain rfl : before = [] := by
    refine List.eq_nil_iff_forall_not_mem.mpr fun u hu => ?_
    have late := early _ (List.mem_map_of_mem hu)
    rw [right.stamps u (List.mem_append_left _ hu)] at late
    rcases sorted.2.2 u hu t List.mem_cons_self with lt | ⟨same, _⟩ <;> omega
   have first := List.pairwise_cons.mp sorted.2.1
   refine ⟨_, m, behind, run, ⟨t, ht, rfl, due, fun u hu => ?_⟩, stands, fun u hu => ?_, first.2,
    ?_, right.orders, fun u hu => right.known u (List.mem_cons_of_mem _ hu)⟩
   · rcases List.mem_cons.mp hu with rfl | hu
     · exact .inl rfl
     · exact .inr (first.1 u hu)
   · rw [← right.stamps u (List.mem_cons_of_mem _ hu), ← stamps]
   · rw [Option.bind_some, right.known t ht, Option.toList_some, List.append_assoc]
     exact right.whole

/-- In every state that a run reaches, some order of the messages that are not returned yet is
the queue's. -/
theorem Reachable.right (reached : Reachable queue c) : ∃ queued, Right queue c queued := by
 induction reached with
 | init s empty =>
  refine ⟨[], ⟨?_, List.nodup_singleton queue⟩, by simp, List.Pairwise.nil, by simp, rfl, by simp⟩
  intro front a back split
  obtain ⟨rfl, rfl, rfl⟩ : front = [] ∧ a = queue ∧ back = [] := by
   rcases front with _ | ⟨b, front⟩
   · simpa [eq_comm] using split
   · simp at split
  exact empty
 | step _ step ih =>
  obtain ⟨queued, right⟩ := ih
  cases step with
  | enqueue message link timeStamp now delayed m free run =>
   have outside : message ∉ queue :: queued.map Ticket.message :=
    fun mem => free (right.stands.inQueue mem)
   obtain ⟨m', queued', run', right'⟩ :=
    (right.write link timeStamp outside).enqueue delayed now outside
   obtain ⟨_, rfl⟩ := run.unique run'
   refine ⟨queued', ?_⟩
   rw [stampAt_write] at right'
   exact right'
  | null now delayed m run =>
   obtain ⟨_, rfl⟩ := run.unique ⟨0, rfl⟩
   exact ⟨queued, right⟩
  | next now r m run =>
   obtain ⟨r', m', queued', run', _, right'⟩ := right.next now
   obtain ⟨rfl, rfl⟩ := run.unique run'
   exact ⟨queued', right'⟩

/-- Over every run the queue is sorted, with equal stamps in the order of enqueueing; what is
returned is the earliest message that is due; every message is in the queue or was returned,
once; and each operation ends. -/
theorem queue_right (reached : Reachable queue c) :
    ∃ queued,
      Linked c.memory.links (queue :: queued.map Ticket.message) ∧
      (∀ t ∈ queued, c.memory.timeStamp t.message = t.timeStamp) ∧
      queued.Pairwise Ticket.Before ∧
      (c.returned ++ queued).Perm c.enqueued ∧ (c.returned ++ queued).Nodup ∧
      (∀ now, ∃ r m, (hdfMessageQueueNext queue now).Runs c.memory r m ∧
        EarliestDue queued now r) ∧
      ∀ message link timeStamp delayed now, ¬ InQueue queue c.memory message →
        ∃ m, (hdfMessageQueueEnqueue (some queue) (some message) delayed now).Runs
          (c.memory.write message link timeStamp) () m := by
  obtain ⟨queued, right⟩ := reached.right
  have once : c.enqueued.Nodup := by
    refine List.Nodup.of_map Ticket.order ?_
    rw [right.orders]
    exact List.nodup_range
  refine ⟨queued, right.stands.linked, right.stamps, right.sorted, right.whole,
    right.whole.nodup_iff.mpr once, fun now => ?_, ?_⟩
  · obtain ⟨r, m, _, run, earliest, _⟩ := right.next now
    exact ⟨r, m, run, earliest⟩
  · intro message link timeStamp delayed now free
    have outside : message ∉ queue :: queued.map Ticket.message :=
      fun mem => free (right.stands.inQueue mem)
    obtain ⟨m, _, run, _⟩ := (right.write link timeStamp outside).enqueue delayed now outside
    exact ⟨m, run⟩

/-- A message is enqueued at time 3 and asked for at time 4, when it is not due. -/
theorem queue_right_waits :
    ∃ c : Config, Reachable 0 c ∧ c.enqueued = [⟨0, 1, 8⟩] ∧ c.returned = [] ∧
      ∃ queued, queued.Pairwise Ticket.Before ∧ (c.returned ++ queued).Perm c.enqueued := by
  let empty : QueueMemory := ⟨fun _ => none, fun _ => 0, 0⟩
  let links : Memory := Function.update (Function.update (Function.update empty.links 1 none) 1 none)
    0 (some 1)
  let stamps : ℕ → ℕ := Function.update (Function.update empty.timeStamp 1 5) 1 8
  have free : ¬ InQueue 0 empty 1 := by
    intro reached
    rcases Relation.ReflTransGen.cases_head reached with same | ⟨_, next, _⟩
    · cases same
    · cases next
  have first : Reachable 0 ⟨⟨links, stamps, 1⟩, [⟨0, 1, 8⟩], []⟩ :=
    (Reachable.init empty rfl).step
      (.enqueue ⟨empty, [], []⟩ 1 none 5 3 0 ⟨links, stamps, 1⟩ free ⟨2, rfl⟩)
  have second : Reachable 0 ⟨⟨links, stamps, 0⟩, [⟨0, 1, 8⟩], []⟩ :=
    first.step (.next ⟨⟨links, stamps, 1⟩, [⟨0, 1, 8⟩], []⟩ 4 none ⟨links, stamps, 0⟩ ⟨2, rfl⟩)
  obtain ⟨queued, _, _, sorted, whole, _⟩ := queue_right second
  exact ⟨_, second, rfl, rfl, queued, sorted, whole⟩

end runs

end DriversFramework.OsalMsgQueue
