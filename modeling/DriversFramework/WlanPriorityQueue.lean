import Mathlib.Data.List.Perm.Basic
import DriversFramework.RunRules

/-! `PushPriorityQueue` and `PopPriorityQueue` (`hdf_wlan_priority_queue.c`). The queue of one level
has no source here: any queue that is first in, first out may stand for it. -/
namespace DriversFramework.WlanPriorityQueue
open RunRules

/-- A bounded queue: `PushQueue` appends or refuses, `PopQueue` takes the first context. -/
structure HdfWlanQueue (Context : Type) where
 Queue : Type
 createQueue : Queue
 pushQueue : Queue → Context → Bool × Queue
 popQueue : Queue → Option Context × Queue
 entries : Queue → List Context
 entries_create : entries createQueue = []
 entries_push : ∀ queue context, entries (pushQueue queue context).2 =
  if (pushQueue queue context).1 then entries queue ++ [context] else entries queue
 popped : ∀ queue, (popQueue queue).1 = (entries queue).head?
 entries_pop : ∀ queue, entries (popQueue queue).2 = (entries queue).tail

abbrev Levels (Context : Type) := List (List Context)

variable {Context : Type} (Q : HdfWlanQueue Context)

structure PriorityQueueImpl where
 queues : List Q.Queue
 messageSemaphore : ℕ

variable {Q}

def levelOf (levels priority : ℕ) : ℕ := if levels ≤ priority then levels - 1 else priority

def pushPriorityQueue (impl : PriorityQueueImpl Q) (priority : ℕ) :
    Option Context → Bool × PriorityQueueImpl Q
  | none => (false, impl)
  | some context =>
    match impl.queues[levelOf impl.queues.length priority]? with
    | none => (false, impl)
    | some queue =>
      ((Q.pushQueue queue context).1,
        { queues := impl.queues.set (levelOf impl.queues.length priority)
            (Q.pushQueue queue context).2
          messageSemaphore := impl.messageSemaphore + (Q.pushQueue queue context).1.toNat })

def popQueueByPri : List Q.Queue → Option Context × List Q.Queue
 | [] => (none, [])
 | queue :: queues =>
  match Q.popQueue queue with
  | (some context, queue) => (some context, queue :: queues)
  | (none, queue) => ((popQueueByPri queues).1, queue :: (popQueueByPri queues).2)

def popEntry (impl : PriorityQueueImpl Q) : Option Context × PriorityQueueImpl Q :=
 ((popQueueByPri impl.queues).1, { impl with queues := (popQueueByPri impl.queues).2 })

def pushAll (impl : PriorityQueueImpl Q) :
  List (ℕ × Option Context) → List (ℕ × Context) × PriorityQueueImpl Q
 | [] => ([], impl)
 | push :: pushes =>
  let (accepted, impl) := pushPriorityQueue impl push.1 push.2
  let (later, impl) := pushAll impl pushes
  ((if accepted then push.2.toList.map fun context => (push.1, context) else []) ++ later, impl)

/-- `OsalSemWait` takes from the count or, where it stays 0, times out. -/
def takeSignalled (impl : PriorityQueueImpl Q) : Option Context × PriorityQueueImpl Q :=
 if 0 < impl.messageSemaphore then
  popEntry { impl with messageSemaphore := impl.messageSemaphore - 1 }
 else (none, impl)

/-- While the call waits `arrivals` are pushed; those that are accepted are returned as well. -/
def popPriorityQueue (impl : PriorityQueueImpl Q) (waitInMS : ℕ)
  (arrivals : List (ℕ × Option Context)) :
  List (ℕ × Context) × Option Context × PriorityQueueImpl Q :=
 match popEntry impl with
 | (some context, impl) => ([], some context, impl)
 | (none, impl) =>
  if waitInMS = 0 then ([], none, impl)
  else if 0 < impl.messageSemaphore then ([], takeSignalled impl)
  else ((pushAll impl arrivals).1, takeSignalled (pushAll impl arrivals).2)

def Levels.push (levels : Levels Context) (push : ℕ × Context) : Levels Context :=
 levels.modify (levelOf levels.length push.1) (· ++ [push.2])

def Levels.takeFirst : Levels Context → Option Context × Levels Context
 | [] => (none, [])
 | [] :: levels => ((Levels.takeFirst levels).1, [] :: (Levels.takeFirst levels).2)
 | (context :: rest) :: levels => (some context, rest :: levels)

def Levels.pop (levels : Levels Context) (waitInMS : ℕ) (arrivals : List (ℕ × Context)) :
  Option Context × Levels Context :=
 if levels.flatten ≠ [] then levels.takeFirst
 else if waitInMS = 0 then (none, levels)
 else (arrivals.foldl Levels.push levels).takeFirst

inductive Call (Context : Type) where
 | push (priority : ℕ) (context : Option Context)
 | pop (waitInMS : ℕ) (arrivals : List (ℕ × Option Context))

structure Run (Q : HdfWlanQueue Context) where
 impl : PriorityQueueImpl Q
 levels : Levels Context
 pushed : List Context
 popped : List (Option Context)
 wanted : List (Option Context)

def start (Q : HdfWlanQueue Context) (priorityLevelCount : ℕ) : Run Q :=
 ⟨⟨List.replicate priorityLevelCount Q.createQueue, 0⟩, List.replicate priorityLevelCount [],
  [], [], []⟩

def perform (s : Run Q) : Call Context → Run Q
  | .push priority context =>
    let (accepted, impl) := pushAll s.impl [(priority, context)]
    { s with
      impl := impl
      levels := accepted.foldl Levels.push s.levels
      pushed := s.pushed ++ accepted.map Prod.snd }
  | .pop waitInMS arrivals =>
    let (accepted, context, impl) := popPriorityQueue s.impl waitInMS arrivals
    let (ideal, levels) := s.levels.pop waitInMS accepted
    { impl := impl
      levels := levels
      pushed := s.pushed ++ accepted.map Prod.snd
      popped := s.popped ++ [context]
      wanted := s.wanted ++ [ideal] }

def step (s : Run Q) (call : Call Context) : Option (Run Q) := some (perform s call)

/-- Between the calls: the count is that of the entries, the queue has popped what the ideal one
has, and every accepted entry was popped or is queued. -/
structure Right (s : Run Q) : Prop where
 count : s.impl.messageSemaphore = s.levels.flatten.length
 entries : s.impl.queues.map Q.entries = s.levels
 popped : s.popped = s.wanted
 once : s.pushed.Perm (s.popped.filterMap id ++ s.levels.flatten)

/-- The condition: a pop begins with nothing queued. -/
def Fine (s : Run Q) : Call Context → Prop
 | .push _ _ => True
 | .pop _ _ => s.levels.flatten = []

variable {impl : PriorityQueueImpl Q} {levels : Levels Context}

theorem pushPriorityQueue_spec (impl : PriorityQueueImpl Q) (priority : ℕ)
  (context : Option Context) :
  let accepted := if (pushPriorityQueue impl priority context).1 then
   context.toList.map fun context => (priority, context) else []
  (pushPriorityQueue impl priority context).2.queues.map Q.entries =
    accepted.foldl Levels.push (impl.queues.map Q.entries) ∧
   (pushPriorityQueue impl priority context).2.messageSemaphore =
    impl.messageSemaphore + accepted.length := by
 cases context with
 | none => simp [pushPriorityQueue]
 | some context =>
  unfold pushPriorityQueue
  cases here : impl.queues[levelOf impl.queues.length priority]? with
  | none => simp
  | some queue =>
   have entry : (impl.queues.map Q.entries)[levelOf impl.queues.length priority]? =
     some (Q.entries queue) := by
    rw [List.getElem?_map, here]
    rfl
   dsimp only
   rw [List.map_set, Q.entries_push]
   cases (Q.pushQueue queue context).1 with
   | false =>
    obtain ⟨inside, same⟩ := List.getElem?_eq_some_iff.mp entry
    refine ⟨?_, rfl⟩
    change (impl.queues.map Q.entries).set _ (Q.entries queue) = impl.queues.map Q.entries
    rw [← same]
    exact List.set_getElem_self inside
   | true =>
    refine ⟨?_, rfl⟩
    simp only [if_true, Option.toList_some, List.map_singleton, List.foldl_cons, List.foldl_nil]
    rw [Levels.push, List.modify_eq_set, List.length_map, entry]
    rfl

theorem pushAll_spec (impl : PriorityQueueImpl Q) (pushes : List (ℕ × Option Context)) :
  (pushAll impl pushes).2.queues.map Q.entries =
    (pushAll impl pushes).1.foldl Levels.push (impl.queues.map Q.entries) ∧
   (pushAll impl pushes).2.messageSemaphore =
    impl.messageSemaphore + (pushAll impl pushes).1.length := by
 induction pushes generalizing impl with
 | nil => exact ⟨rfl, rfl⟩
 | cons push pushes ih =>
  obtain ⟨queued, counted⟩ := pushPriorityQueue_spec impl push.1 push.2
  obtain ⟨later, count⟩ := ih (pushPriorityQueue impl push.1 push.2).2
  rw [pushAll]
  dsimp only
  rw [List.foldl_append, List.length_append, later, count, queued, counted]
  exact ⟨rfl, Nat.add_assoc _ _ _⟩

theorem popQueueByPri_spec (queues : List Q.Queue) :
  (popQueueByPri queues).1 = (Levels.takeFirst (queues.map Q.entries)).1 ∧
   (popQueueByPri queues).2.map Q.entries = (Levels.takeFirst (queues.map Q.entries)).2 := by
 induction queues with
 | nil => exact ⟨rfl, rfl⟩
 | cons queue queues ih =>
  have popped := Q.popped queue
  have entries := Q.entries_pop queue
  rw [List.map_cons, popQueueByPri]
  cases here : Q.entries queue with
  | nil =>
   rw [here] at popped entries
   split
   · next context _ got =>
     rw [got] at popped
     cases popped
   · next rest got =>
     rw [got] at entries
     exact ⟨ih.1, congrArg₂ _ entries ih.2⟩
  | cons context rest =>
   rw [here] at popped entries
   split
   · next other _ got =>
     rw [got] at popped entries
     exact ⟨popped, congrArg (· :: _) entries⟩
   · next got =>
     rw [got] at popped
     cases popped

theorem takeFirst_flatten (levels : Levels Context) :
  levels.flatten = levels.takeFirst.1.toList ++ levels.takeFirst.2.flatten := by
 induction levels with
 | nil => rfl
 | cons level levels ih =>
  cases level with
  | nil => exact ih
  | cons context rest => rfl

theorem takeFirst_empty (empty : levels.flatten = []) : levels.takeFirst = (none, levels) := by
 induction levels with
 | nil => rfl
 | cons level levels ih =>
  obtain ⟨rfl, rest⟩ := List.append_eq_nil_iff.mp empty
  rw [Levels.takeFirst, ih rest]

theorem push_perm (levels : Levels Context) {i : ℕ} (inside : i < levels.length)
  (context : Context) :
  (levels.modify i (· ++ [context])).flatten.Perm (levels.flatten ++ [context]) := by
 induction levels generalizing i with
 | nil => cases inside
 | cons level levels ih =>
  cases i with
  | zero =>
   rw [List.modify_zero_cons, List.flatten_cons, List.flatten_cons, List.append_assoc,
    List.append_assoc]
   exact (List.perm_append_comm).append_left level
  | succ i =>
   rw [List.modify_succ_cons, List.flatten_cons, List.flatten_cons, List.append_assoc]
   exact (ih (Nat.lt_of_succ_lt_succ inside)).append_left level

theorem levelOf_lt {count : ℕ} (priority : ℕ) (some : 0 < count) :
  levelOf count priority < count := by
 unfold levelOf
 split
 · omega
 · omega

theorem pushes_perm (pushes : List (ℕ × Context)) (levels : Levels Context)
  (some : pushes ≠ [] → 0 < levels.length) :
  (pushes.foldl Levels.push levels).flatten.Perm (levels.flatten ++ pushes.map Prod.snd) := by
 induction pushes generalizing levels with
 | nil => simp
 | cons push pushes ih =>
  have inside := levelOf_lt push.1 (some (List.cons_ne_nil _ _))
  have rest := ih (levels.push push) fun _ => by
   rw [Levels.push, List.length_modify]
   exact some (List.cons_ne_nil _ _)
  rw [List.foldl_cons, List.map_cons]
  refine rest.trans ?_
  have first := (push_perm levels inside push.2).append_right (pushes.map Prod.snd)
  rwa [List.append_assoc, List.singleton_append] at first

theorem pushAll_none (none : impl.queues = []) (pushes : List (ℕ × Option Context)) :
  (pushAll impl pushes).1 = [] := by
 induction pushes with
 | nil => rfl
 | cons push pushes ih =>
  have refused : pushPriorityQueue impl push.1 push.2 = (false, impl) := by
   unfold pushPriorityQueue
   rw [none]
   cases push.2 with
   | none => rfl
   | some context => rfl
  rw [pushAll, refused]
  exact ih

variable {s : Run Q}

theorem pushed_count (counted : impl.messageSemaphore = levels.flatten.length)
  (same : impl.queues.map Q.entries = levels) (pushes : List (ℕ × Option Context)) :
  let t := pushAll impl pushes
  (t.1.foldl Levels.push levels).flatten.Perm (levels.flatten ++ t.1.map Prod.snd) ∧
   t.2.queues.map Q.entries = t.1.foldl Levels.push levels ∧
   t.2.messageSemaphore = (t.1.foldl Levels.push levels).flatten.length := by
 obtain ⟨queued, count⟩ := pushAll_spec impl pushes
 have perm := pushes_perm (pushAll impl pushes).1 levels fun some => by
  rw [← same, List.length_map]
  exact List.length_pos_iff.mpr fun none => some (pushAll_none none pushes)
 refine ⟨perm, same ▸ queued, ?_⟩
 rw [count, counted, perm.length_eq, List.length_append, List.length_map]

theorem popEntry_spec (impl : PriorityQueueImpl Q) (same : impl.queues.map Q.entries = levels) :
  (popEntry impl).1 = levels.takeFirst.1 ∧
   (popEntry impl).2.queues.map Q.entries = levels.takeFirst.2 ∧
   (popEntry impl).2.messageSemaphore = impl.messageSemaphore :=
 ⟨same ▸ (popQueueByPri_spec impl.queues).1, same ▸ (popQueueByPri_spec impl.queues).2, rfl⟩

theorem takeFirst_none (none : levels.takeFirst.1 = none) : levels.flatten = [] := by
 induction levels with
 | nil => rfl
 | cons level levels ih =>
  cases level with
  | nil => exact ih none
  | cons context rest => cases none

theorem takeSignalled_spec (counted : impl.messageSemaphore = levels.flatten.length)
  (same : impl.queues.map Q.entries = levels) :
  (takeSignalled impl).1 = levels.takeFirst.1 ∧
   (takeSignalled impl).2.queues.map Q.entries = levels.takeFirst.2 ∧
   (takeSignalled impl).2.messageSemaphore = levels.takeFirst.2.flatten.length := by
 unfold takeSignalled
 split
 · next signalled =>
   obtain ⟨context, queued, count⟩ := popEntry_spec
    { impl with messageSemaphore := impl.messageSemaphore - 1 } same
   refine ⟨context, queued, count.trans ?_⟩
   have parts := congrArg List.length (takeFirst_flatten levels)
   have taken : levels.takeFirst.1 ≠ none := by
    intro none
    rw [counted, takeFirst_none none] at signalled
    exact absurd signalled (Nat.lt_irrefl 0)
   obtain ⟨first, taken⟩ := Option.ne_none_iff_exists'.mp taken
   rw [taken, List.length_append] at parts
   change impl.messageSemaphore - 1 = _
   change _ = 1 + _ at parts
   omega
 · next idle =>
   have empty : levels.flatten = [] := List.length_eq_zero_iff.mp (by omega)
   rw [takeFirst_empty empty]
   exact ⟨rfl, same, counted⟩

theorem Right.push (h : Right s) (priority : ℕ) (context : Option Context) :
  Right (perform s (.push priority context)) := by
 obtain ⟨perm, queued, counted⟩ := pushed_count h.count h.entries [(priority, context)]
 refine ⟨counted, queued, h.popped, ?_⟩
 have once := h.once.append_right ((pushAll s.impl [(priority, context)]).1.map Prod.snd)
 rw [List.append_assoc] at once
 exact once.trans (perm.symm.append_left _)

/-- What is popped and what is left, given the accepted arrivals -/
theorem Right.taken (h : Right s) (levels : Levels Context) (accepted : List (ℕ × Context))
  (impl : PriorityQueueImpl Q)
  (perm : levels.flatten.Perm (s.levels.flatten ++ accepted.map Prod.snd))
  (queued : impl.queues.map Q.entries = levels.takeFirst.2)
  (counted : impl.messageSemaphore = levels.takeFirst.2.flatten.length) :
  Right (⟨impl, levels.takeFirst.2, s.pushed ++ accepted.map Prod.snd,
   s.popped ++ [levels.takeFirst.1], s.wanted ++ [levels.takeFirst.1]⟩ : Run Q) := by
 refine ⟨counted, queued, congrArg (· ++ _) h.popped, ?_⟩
 have once := h.once.append_right (accepted.map Prod.snd)
 rw [List.append_assoc] at once
 refine once.trans ((perm.symm.append_left _).trans ?_)
 rw [takeFirst_flatten levels, List.filterMap_append, List.append_assoc]
 cases levels.takeFirst.1 with
 | none => exact List.Perm.refl _
 | some context => exact List.Perm.refl _

theorem Right.pop (h : Right s) (empty : s.levels.flatten = []) (waitInMS : ℕ)
  (arrivals : List (ℕ × Option Context)) : Right (perform s (.pop waitInMS arrivals)) := by
 obtain ⟨context, queued, count⟩ := popEntry_spec s.impl h.entries
 rw [takeFirst_empty empty] at context queued
 have idle : (popEntry s.impl).2.messageSemaphore = s.levels.flatten.length := count.trans h.count
 have first : popEntry s.impl = (none, (popEntry s.impl).2) := Prod.ext context rfl
 have none : s.levels.takeFirst = (none, s.levels) := takeFirst_empty empty
 unfold perform popPriorityQueue Levels.pop
 dsimp only
 rw [first]
 dsimp only
 rw [if_neg (not_not.mpr empty)]
 by_cases now : waitInMS = 0
 · rw [if_pos now]
   have right := h.taken s.levels [] (popEntry s.impl).2
    (by simp) (by rw [none]; exact queued) (by rw [none]; exact idle)
   rw [none] at right
   simpa [if_pos now] using right
 have waits : ¬0 < (popEntry s.impl).2.messageSemaphore := by
  rw [idle, empty]
  exact Nat.lt_irrefl 0
 rw [if_neg now, if_neg waits]
 dsimp only
 rw [if_neg now]
 obtain ⟨perm, later, counted⟩ := pushed_count idle queued arrivals
 obtain ⟨woken, left, rest⟩ := takeSignalled_spec counted later
 rw [woken]
 exact h.taken _ _ _ perm left rest

theorem Right.popped_early (h : Right s) (some : s.levels.flatten ≠ []) (waitInMS : ℕ)
  (arrivals : List (ℕ × Option Context)) : ¬Right (perform s (.pop waitInMS arrivals)) := by
 obtain ⟨context, queued, count⟩ := popEntry_spec s.impl h.entries
 cases taken : s.levels.takeFirst.1 with
 | none => exact absurd (takeFirst_none taken) some
 | some entry =>
  have first : popEntry s.impl = (.some entry, (popEntry s.impl).2) :=
   Prod.ext (context.trans taken) rfl
  intro right
  have counted := right.count
  unfold perform popPriorityQueue Levels.pop at counted
  dsimp only at counted
  rw [first] at counted
  dsimp only at counted
  rw [if_pos some, count, h.count, takeFirst_flatten, taken] at counted
  change (entry :: _).length = _ at counted
  exact absurd counted (Nat.succ_ne_self _)

/-- All states of a run are right exactly if every pop of it begins with nothing queued. -/
theorem queue_right_iff (Q : HdfWlanQueue Context) (priorityLevelCount : ℕ)
    (calls : List (Call Context)) :
    Safe step Right (start Q priorityLevelCount) calls ↔
      Along step Fine (start Q priorityLevelCount) calls := by
  have started : Right (start Q priorityLevelCount) := by
    refine ⟨?_, ?_, rfl, ?_⟩
    · simp [start]
    · simp [start, Q.entries_create]
    · simp [start]
  refine safe_iff_along (fun s call h => ?_) _ calls started
  cases call with
  | push priority context => exact ⟨fun _ => trivial, fun _ => ⟨_, rfl, h.push priority context⟩⟩
  | pop waitInMS arrivals =>
    refine ⟨fun ⟨t, next, right⟩ => ?_, fun fine => ⟨_, rfl, h.pop fine waitInMS arrivals⟩⟩
    obtain rfl := Option.some.inj next
    by_contra some
    exact h.popped_early some waitInMS arrivals right

/-- All but the count is right, and the count is not too low. -/
structure Kept (s : Run Q) : Prop where
 enough : s.levels.flatten.length ≤ s.impl.messageSemaphore
 right : Right { s with impl := { s.impl with messageSemaphore := s.levels.flatten.length } }

theorem Kept.push (h : Kept s) (priority : ℕ) (context : Option Context) :
 Kept (perform s (.push priority context)) := by
 obtain ⟨queued, count⟩ := pushAll_spec s.impl [(priority, context)]
 have same : s.impl.queues.map Q.entries = s.levels := h.right.entries
 have perm := pushes_perm (pushAll s.impl [(priority, context)]).1 s.levels fun some => by
  rw [← same, List.length_map]
  exact List.length_pos_iff.mpr fun none => some (pushAll_none none _)
 have once := h.right.once.append_right ((pushAll s.impl [(priority, context)]).1.map Prod.snd)
 rw [List.append_assoc] at once
 rw [same] at queued
 refine ⟨?_, rfl, queued, h.right.popped, once.trans (perm.symm.append_left _)⟩
 have length := perm.length_eq
 rw [List.length_append, List.length_map] at length
 exact (length.trans_le (Nat.add_le_add_right h.enough _)).trans count.ge

theorem Kept.taken (h : Kept s) (impl : PriorityQueueImpl Q)
 (queued : impl.queues.map Q.entries = s.levels.takeFirst.2)
 (enough : s.levels.takeFirst.2.flatten.length ≤ impl.messageSemaphore) :
 Kept (⟨impl, s.levels.takeFirst.2, s.pushed ++ [], s.popped ++ [s.levels.takeFirst.1],
  s.wanted ++ [s.levels.takeFirst.1]⟩ : Run Q) :=
 ⟨enough, h.right.taken s.levels [] { impl with messageSemaphore := _ } (by simp) queued rfl⟩

theorem takeSignalled_empty (empty : levels.flatten = [])
 (same : impl.queues.map Q.entries = levels) :
 (takeSignalled impl).1 = none ∧ (takeSignalled impl).2.queues.map Q.entries = levels := by
 unfold takeSignalled
 split
 · obtain ⟨context, queued, -⟩ := popEntry_spec
    { impl with messageSemaphore := impl.messageSemaphore - 1 } same
   rw [takeFirst_empty empty] at context queued
   exact ⟨context, queued⟩
 · exact ⟨rfl, same⟩

theorem Kept.pop (h : Kept s) (waitInMS : ℕ) (arrivals : List (ℕ × Option Context)) :
 Kept (perform s (.pop waitInMS arrivals)) := by
 have same : s.impl.queues.map Q.entries = s.levels := h.right.entries
 obtain ⟨context, queued, count⟩ := popEntry_spec s.impl same
 have first : popEntry s.impl = (s.levels.takeFirst.1, (popEntry s.impl).2) :=
  Prod.ext context rfl
 have enough : s.levels.takeFirst.2.flatten.length ≤ s.impl.messageSemaphore := by
  have parts := congrArg List.length (takeFirst_flatten s.levels)
  rw [List.length_append] at parts
  exact (parts ▸ Nat.le_add_left _ _).trans h.enough
 have taken := h.taken (popEntry s.impl).2 queued (count ▸ enough)
 by_cases empty : s.levels.flatten = []
 · by_cases idle : s.impl.messageSemaphore = 0
   · have right : Right s := ⟨by rw [idle, empty]; rfl, same, h.right.popped, h.right.once⟩
     have next := right.pop empty waitInMS arrivals
     exact ⟨next.count.ge, rfl, next.entries, next.popped, next.once⟩
   · -- the count of an early pop is left, so that the wait ends at once
     have none := takeFirst_empty empty
     unfold perform popPriorityQueue Levels.pop
     dsimp only
     rw [first, none, if_neg (not_not.mpr empty)]
     dsimp only
     rw [count, if_pos (Nat.pos_of_ne_zero idle)]
     by_cases now : waitInMS = 0
     · rw [none] at taken
       rw [if_pos now, if_pos now]
       exact taken
     · rw [none] at queued
       obtain ⟨woken, left⟩ := takeSignalled_empty empty queued
       have kept := h.taken _ (by rw [none]; exact left) (by rw [none, empty]; exact Nat.zero_le _)
       rw [none] at kept
       rw [if_neg now, if_neg now, woken]
       dsimp only [List.foldl_nil]
       rw [none]
       exact kept
 · unfold perform popPriorityQueue Levels.pop
   dsimp only
   rw [first, if_pos empty]
   cases some : s.levels.takeFirst.1 with
   | none => exact absurd (takeFirst_none some) empty
   | some entry =>
    rw [some] at taken
    exact taken

/-- Whatever is called: each pop takes the first entry of the highest level that has one, none is
lost or popped twice, and the count never keeps a pop waiting while an entry is queued. -/
theorem calls_kept (Q : HdfWlanQueue Context) (priorityLevelCount : ℕ)
 (calls : List (Call Context)) : Safe step Kept (start Q priorityLevelCount) calls := by
 have started : Kept (start Q priorityLevelCount) := by
  refine ⟨?_, rfl, ?_, rfl, ?_⟩
  · simp [start]
  · simp [start, Q.entries_create]
  · simp [start]
 refine safe_of_along (Q := fun _ _ => True) (fun s call h _ => ?_) _ calls started
  fun _ _ _ _ _ => trivial
 cases call with
 | push priority context => exact ⟨_, rfl, h.push priority context⟩
 | pop waitInMS arrivals => exact ⟨_, rfl, h.pop waitInMS arrivals⟩

/-- A queue in a list with room for as many contexts as `maxQueueSize` -/
def listQueue (maxQueueSize : ℕ) (Context : Type) : HdfWlanQueue Context where
 Queue := List Context
 createQueue := []
 pushQueue queue context :=
  if queue.length < maxQueueSize then (true, queue ++ [context]) else (false, queue)
 popQueue queue := (queue.head?, queue.tail)
 entries := id
 entries_create := rfl
 entries_push queue context := by
  split
  · rfl
  · rfl
 popped _ := rfl
 entries_pop _ := rfl

/-- A pop finds an entry at once, and the count stays at 1. -/
theorem early_pop_leaves_count :
    ¬∀ (Context : Type) (Q : HdfWlanQueue Context) (priorityLevelCount : ℕ)
      (calls : List (Call Context)), Safe step Right (start Q priorityLevelCount) calls := by
  intro all
  obtain ⟨t, run, right⟩ := all ℕ (listQueue 1 ℕ) 1 [.push 0 (some 7), .pop 0 []] _
    List.prefix_rfl
  obtain rfl := Option.some.inj run
  exact absurd right.count (by decide)

end DriversFramework.WlanPriorityQueue
