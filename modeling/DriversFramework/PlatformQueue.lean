import Mathlib.Data.List.Nodup
import DriversFramework.RunRules

/-! `platform_queue.c` with the handler and the posting of `mmc_core.c`. A message is known by the
number of its allocation, so that one that was freed is never taken for another; its poster is the
call of `MmcCntlrAddMsgToQueue` that allocated it. Every step is one access to shared memory, and
one to freed memory sets `fault`. -/
namespace DriversFramework.PlatformQueue

inductive PosterPc where
 | fresh
 | allocated
 | inserted
 | signalled
 | waiting
 | woken
 | destroying
 | freeing
 | returned
 deriving DecidableEq

/-- Where `PlatformQueueThreadWorker` is, with the message it has -/
inductive WorkerPc where
 | waiting
 | got
 | taken (m : ℕ)
 | ran (m : ℕ)
 | freeing (m : ℕ)
 | done (m : ℕ)
 | posting (m : ℕ)
 deriving DecidableEq

structure State where
 queue : List ℕ := []
 sem : ℕ := 0
 worker : WorkerPc := .waiting
 poster : ℕ → PosterPc := fun _ => .fresh
 block : ℕ → Bool := fun _ => false
 msgSem : ℕ → ℕ := fun _ => 0
 freed : List ℕ := []
 fault : Bool := false
 posted : List ℕ := []
 handled : List ℕ := []

def State.setPoster (s : State) (m : ℕ) (pc : PosterPc) : State :=
 { s with poster := Function.update s.poster m pc }

def State.touch (s : State) (ms : List ℕ) : State :=
 { s with fault := s.fault || ms.any fun m => decide (m ∈ s.freed) }

/-- `OsalMemFree` of a message -/
def State.free (s : State) (m : ℕ) : State :=
 { s.touch [m] with freed := m :: s.freed }

/-- A step of a poster, of its message, or of the worker. `waitFails` is an `OsalSemWait` that
returns an error before the semaphore is posted. -/
inductive Action where
 | post (m : ℕ) (block : Bool)
 | insert (m : ℕ)
 | signal (m : ℕ)
 | readBlock (m : ℕ)
 | wakes (m : ℕ)
 | waitFails (m : ℕ)
 | readBlockAgain (m : ℕ)
 | destroySem (m : ℕ)
 | freeMsg (m : ℕ)
 | workerWakes
 | take
 | runHandler
 | handlerReadsBlock
 | handlerFrees
 | workerReadsBlock
 | workerPosts

/-- `MmcCntlrAddMsgToQueue`, `PlatformQueueAddMsg`, `PlatformMsgWait` and the end of
`MmcCntlrPostMsg`, for the message `m`. An insertion writes the node of the last message as well. -/
def posterStep (s : State) : Action → Option State
 | .post m block =>
  if s.poster m = .fresh then
   some { s.setPoster m .allocated with
    block := Function.update s.block m block, msgSem := Function.update s.msgSem m 0 }
  else none
 | .insert m =>
  if s.poster m = .allocated then
   some { (s.touch (m :: s.queue.getLast?.toList)).setPoster m .inserted with
    queue := s.queue ++ [m], posted := s.posted ++ [m] }
  else none
 | .signal m =>
  if s.poster m = .inserted then some { s.setPoster m .signalled with sem := s.sem + 1 }
  else none
 | .readBlock m =>
  if s.poster m = .signalled then
   some ((s.touch [m]).setPoster m (if s.block m then .waiting else .woken))
  else none
 | .wakes m =>
  if s.poster m = .waiting ∧ 0 < s.msgSem m then
   some { s.setPoster m .woken with msgSem := Function.update s.msgSem m (s.msgSem m - 1) }
  else none
 | .waitFails m => if s.poster m = .waiting then some (s.setPoster m .woken) else none
 | .readBlockAgain m =>
  if s.poster m = .woken then
   some ((s.touch [m]).setPoster m (if s.block m then .destroying else .returned))
  else none
 | .destroySem m =>
  if s.poster m = .destroying then some ((s.touch [m]).setPoster m .freeing) else none
 | .freeMsg m =>
  if s.poster m = .freeing then some ((s.free m).setPoster m .returned) else none
 | _ => none

/-- One round of `PlatformQueueThreadWorker`, with `MmcMsgHandleDefault`. A removal writes the node
of the next message as well. -/
def workerStep (s : State) : Action → Option State
 | .workerWakes =>
  if s.worker = .waiting ∧ 0 < s.sem then some { s with worker := .got, sem := s.sem - 1 }
  else none
 | .take =>
  if s.worker = .got then
   match s.queue with
   | [] => some { s with worker := .waiting }
   | m :: rest => some { s.touch (m :: rest.head?.toList) with worker := .taken m, queue := rest }
  else none
 | .runHandler =>
  match s.worker with
  | .taken m => some { s.touch [m] with worker := .ran m, handled := s.handled ++ [m] }
  | _ => none
 | .handlerReadsBlock =>
  match s.worker with
  | .ran m => some { s.touch [m] with worker := if s.block m then .done m else .freeing m }
  | _ => none
 | .handlerFrees =>
  match s.worker with
  | .freeing m => some { s.free m with worker := .done m }
  | _ => none
 | .workerReadsBlock =>
  match s.worker with
  | .done m => some { s.touch [m] with worker := if s.block m then .posting m else .waiting }
  | _ => none
 | .workerPosts =>
  match s.worker with
  | .posting m =>
   some { s.touch [m] with
    worker := .waiting, msgSem := Function.update s.msgSem m (s.msgSem m + 1) }
  | _ => none
 | _ => none

def step (s : State) (a : Action) : Option State :=
 match posterStep s a with
 | some t => some t
 | none => workerStep s a

def Quiescent (s : State) : Prop :=
 ∀ a t, step s a = some t → (∃ m b, a = .post m b) ∨ ∃ m, a = .waitFails m

/-- Each message is handled once at most and in the order of posting, freed once at most and not
looked at after it; a blocking call returns after the handling; and nothing is left undone. -/
structure Sound (s : State) : Prop where
 postedOnce : s.posted.Nodup
 inOrder : s.handled <+: s.posted
 freedOnce : s.freed.Nodup
 noFault : s.fault = false
 returned : ∀ m, s.block m = true → s.poster m = .returned → m ∈ s.handled
 finished : Quiescent s → s.handled = s.posted ∧ ∀ m ∈ s.posted, m ∈ s.freed

/-- All messages are blocking, and waits end by the worker's post. -/
def Meets (_ : State) : Action → Prop
 | .post _ block => block = true
 | .waitFails _ => False
 | _ => True

/-- The message the worker has -/
def WorkerPc.msg : WorkerPc → Option ℕ
 | .waiting | .got => none
 | .taken m | .ran m | .freeing m | .done m | .posting m => some m

def WorkerPc.toRun : WorkerPc → List ℕ
 | .taken m => [m]
 | _ => []

/-- A message is `early` while it is out of its poster's hands, `late` once that has been woken. -/
inductive Phase where
 | new
 | early
 | late

def PosterPc.phase : PosterPc → Phase
 | .fresh | .allocated => .new
 | .inserted | .signalled | .waiting => .early
 | .woken | .destroying | .freeing | .returned => .late

inductive Stage (s : State) (m : ℕ) : Prop where
 | new (pc : (s.poster m).phase = .new) (posted : m ∉ s.posted) (freed : m ∉ s.freed)
   (sem : s.poster m = .allocated → s.msgSem m = 0)
 | pending (pc : (s.poster m).phase = .early) (at' : m ∈ s.queue ∨ s.worker.msg = some m)
   (freed : m ∉ s.freed) (sem : s.msgSem m = 0)
 | answered (pc : (s.poster m).phase = .early) (handled : m ∈ s.handled) (queue : m ∉ s.queue)
   (worker : s.worker.msg ≠ some m) (freed : m ∉ s.freed) (sem : s.msgSem m = 1)
 | late (pc : (s.poster m).phase = .late) (handled : m ∈ s.handled) (queue : m ∉ s.queue)
   (worker : s.worker.msg ≠ some m) (freed : m ∈ s.freed ↔ s.poster m = .returned)

structure Inv (s : State) : Prop where
 block : ∀ m, s.poster m ≠ .fresh → s.block m = true
 split : s.posted = s.handled ++ (s.worker.toRun ++ s.queue)
 nodup : s.posted.Nodup
 ran : ∀ m, s.worker.msg = some m → s.worker.toRun = [] → m ∈ s.handled
 noFreeing : ∀ m, s.worker ≠ .freeing m
 stage : ∀ m, Stage s m
 freedOnce : s.freed.Nodup
 noFault : s.fault = false
 count : s.queue.length = s.sem + (if s.worker = .got then 1 else 0) +
  s.posted.countP fun m => decide (s.poster m = .inserted)

theorem Stage.congr {s t : State} {m : ℕ} (h : Stage s m) (hpc : t.poster m = s.poster m)
  (hposted : m ∈ t.posted ↔ m ∈ s.posted) (hfreed : m ∈ t.freed ↔ m ∈ s.freed)
  (hqueue : m ∈ t.queue ↔ m ∈ s.queue) (hhandled : m ∈ t.handled ↔ m ∈ s.handled)
  (hworker : t.worker.msg = some m ↔ s.worker.msg = some m)
  (hsem : t.msgSem m = s.msgSem m) : Stage t m := by
 cases h with
 | new pc posted freed sem =>
  exact .new (hpc ▸ pc) (mt hposted.mp posted) (mt hfreed.mp freed) fun ha =>
   hsem.trans (sem (hpc ▸ ha))
 | pending pc at' freed sem =>
  exact .pending (hpc ▸ pc) (at'.imp hqueue.mpr hworker.mpr) (mt hfreed.mp freed) (hsem.trans sem)
 | answered pc handled queue worker freed sem =>
  exact .answered (hpc ▸ pc) (hhandled.mpr handled) (mt hqueue.mp queue) (mt hworker.mp worker)
   (mt hfreed.mp freed) (hsem.trans sem)
 | late pc handled queue worker freed =>
  exact .late (hpc ▸ pc) (hhandled.mpr handled) (mt hqueue.mp queue) (mt hworker.mp worker)
   (by rw [hfreed, hpc]; exact freed)

namespace Inv

variable {s t : State} {m : ℕ}

theorem mem_posted (h : Inv s) (hm : m ∈ s.queue ∨ s.worker.msg = some m) : m ∈ s.posted := by
 rw [h.split, List.mem_append, List.mem_append]
 cases hm with
 | inl hm => exact .inr (.inr hm)
 | inr hm =>
  by_cases hr : s.worker.toRun = []
  · exact .inl (h.ran m hm hr)
  right; left
  cases hw : s.worker with
  | taken k =>
   rw [hw] at hm
   cases hm
   exact List.mem_singleton_self m
  | _ => simp [hw, WorkerPc.toRun] at hr

theorem alive (h : Inv s) (hm : m ∈ s.queue ∨ s.worker.msg = some m) : m ∉ s.freed := by
 cases h.stage m with
 | new _ posted _ _ => exact absurd (h.mem_posted hm) posted
 | pending _ _ freed _ => exact freed
 | answered _ _ queue worker _ _ | late _ _ queue worker _ =>
  exact absurd hm (not_or.mpr ⟨queue, worker⟩)

theorem early_of_held (h : Inv s) (hm : m ∈ s.queue ∨ s.worker.msg = some m) :
  (s.poster m).phase = .early ∧ s.msgSem m = 0 := by
 cases h.stage m with
 | new _ posted _ _ => exact absurd (h.mem_posted hm) posted
 | pending pc _ _ sem => exact ⟨pc, sem⟩
 | answered _ _ queue worker _ _ | late _ _ queue worker _ =>
  exact absurd hm (not_or.mpr ⟨queue, worker⟩)

theorem own (h : Inv s) (hm : s.poster m ≠ .returned) : m ∉ s.freed := by
 cases h.stage m with
 | new _ _ freed _ | pending _ _ freed _ | answered _ _ _ _ freed _ => exact freed
 | late _ _ _ _ freed => exact mt freed.mp hm

theorem touch_fault (h : Inv s) {ms : List ℕ} (hm : ∀ m ∈ ms, m ∉ s.freed) :
  (s.touch ms).fault = false := by
 have hf : (ms.any fun m => decide (m ∈ s.freed)) = false := by
  rw [List.any_eq_false]
  intro m hmem
  simpa using hm m hmem
 simp [State.touch, h.noFault, hf]

end Inv

theorem countP_update_of_notMem {f : ℕ → Bool} {l : List ℕ} {m : ℕ} {b : Bool} (h : m ∉ l) :
  l.countP (Function.update f m b) = l.countP f := by
 apply List.countP_congr
 intro k hk
 have hne : k ≠ m := fun e => h (e ▸ hk)
 rw [Function.update_of_ne hne]

theorem countP_update_false {f : ℕ → Bool} {l : List ℕ} {m : ℕ} (hn : l.Nodup) (hm : m ∈ l)
  (hf : f m = true) : l.countP f = l.countP (Function.update f m false) + 1 := by
 induction l with
 | nil => exact absurd hm List.not_mem_nil
 | cons k l ih =>
  rw [List.nodup_cons] at hn
  by_cases hk : k = m
  · subst hk
    rw [List.countP_cons_of_pos hf, List.countP_cons_of_neg (by simp),
     countP_update_of_notMem hn.1]
  · have hm := (List.mem_cons.mp hm).resolve_left (Ne.symm hk)
    rw [List.countP_cons, List.countP_cons, Function.update_of_ne hk, ih hn.2 hm]
    omega

theorem inserted_update (poster : ℕ → PosterPc) (m : ℕ) (pc : PosterPc) :
  (fun k => decide (Function.update poster m pc k = .inserted)) =
   Function.update (fun k => decide (poster k = .inserted)) m (decide (pc = .inserted)) := by
 funext k
 by_cases hk : k = m
 · rw [hk, Function.update_self, Function.update_self]
 · rw [Function.update_of_ne hk, Function.update_of_ne hk]

theorem countP_setPoster (l : List ℕ) {poster : ℕ → PosterPc} {m : ℕ} {pc : PosterPc}
  (hm : poster m ≠ .inserted) (hpc : pc ≠ .inserted) :
  (l.countP fun k => decide (Function.update poster m pc k = .inserted)) =
   l.countP fun k => decide (poster k = .inserted) := by
 rw [inserted_update, Function.update_eq_self_iff.mpr]
 simp [hm, hpc]

namespace Inv

variable {s t : State} {m : ℕ}

theorem block_update (h : Inv s) (hm : s.poster m ≠ .fresh) (pc : PosterPc) (k : ℕ)
  (hk : Function.update s.poster m pc k ≠ .fresh) : s.block k = true := by
 by_cases hkm : k = m
 · rw [hkm]
   exact h.block m hm
 · rw [Function.update_of_ne hkm] at hk
   exact h.block k hk

theorem move (h : Inv s) {pc : PosterPc} (hphase : pc.phase = (s.poster m).phase)
  (hnew : (s.poster m).phase ≠ .new) (hm : s.poster m ≠ .inserted) (hpc : pc ≠ .inserted)
  (hret : s.poster m ≠ .returned) (hpcr : pc ≠ .returned) :
  Inv ((s.touch [m]).setPoster m pc) := by
 refine ⟨?_, h.split, h.nodup, h.ran, h.noFreeing, ?_, h.freedOnce, ?_, ?_⟩
 · exact h.block_update (fun e => hnew (by rw [e]; rfl)) pc
 · intro k
   by_cases hkm : k = m
   · subst hkm
     have hk : ((s.touch [k]).setPoster k pc).poster k = pc := Function.update_self _ _ _
     rw [← hk] at hphase
     cases h.stage k with
     | new npc _ _ _ => exact absurd npc hnew
     | pending epc at' freed sem => exact .pending (hphase.trans epc) at' freed sem
     | answered epc handled queue worker freed sem =>
      exact .answered (hphase.trans epc) handled queue worker freed sem
     | late lpc handled queue worker freed =>
      refine .late (hphase.trans lpc) handled queue worker ?_
      rw [hk]
      exact iff_of_false (mt freed.mp hret) hpcr
   · exact (h.stage k).congr (Function.update_of_ne hkm _ _) .rfl .rfl .rfl .rfl .rfl rfl
 · apply h.touch_fault
   intro k hk
   rw [List.mem_singleton.mp hk]
   exact h.own hret
 · change _ = _ + s.posted.countP fun k => decide (Function.update s.poster m pc k = .inserted)
   rw [countP_setPoster _ hm hpc]
   exact h.count

theorem post (h : Inv s) (hm : s.poster m = .fresh) :
  Inv { s.setPoster m .allocated with
   block := Function.update s.block m true, msgSem := Function.update s.msgSem m 0 } := by
 refine ⟨?_, h.split, h.nodup, h.ran, h.noFreeing, ?_, h.freedOnce, h.noFault, ?_⟩
 · intro k hk
   change Function.update s.block m true k = true
   by_cases hkm : k = m
   · rw [hkm, Function.update_self]
   · change Function.update s.poster m .allocated k ≠ .fresh at hk
     rw [Function.update_of_ne hkm] at hk ⊢
     exact h.block k hk
 · intro k
   by_cases hkm : k = m
   · subst hkm
     have hphase : (s.poster k).phase = .new := by rw [hm]; rfl
     cases h.stage k with
     | new _ posted freed _ =>
      refine .new ?_ posted freed fun _ => Function.update_self _ _ _
      change (Function.update s.poster k .allocated k).phase = .new
      rw [Function.update_self]
      rfl
     | pending pc _ _ _ | answered pc _ _ _ _ _ | late pc _ _ _ _ => rw [hphase] at pc; cases pc
   · exact (h.stage k).congr (Function.update_of_ne hkm _ _) .rfl .rfl .rfl .rfl .rfl
      (Function.update_of_ne hkm _ _)
 · change _ = _ + s.posted.countP fun k => decide (Function.update s.poster m _ k = .inserted)
   rw [countP_setPoster _ (by simp [hm]) (by simp)]
   exact h.count

theorem not_posted (h : Inv s) (hm : (s.poster m).phase = .new) : m ∉ s.posted := by
 cases h.stage m with
 | new _ posted _ _ => exact posted
 | pending pc _ _ _ | answered pc _ _ _ _ _ | late pc _ _ _ _ => rw [hm] at pc; cases pc

theorem insert (h : Inv s) (hm : s.poster m = .allocated) :
  Inv { (s.touch (m :: s.queue.getLast?.toList)).setPoster m .inserted with
   queue := s.queue ++ [m], posted := s.posted ++ [m] } := by
 have hp := h.not_posted (m := m) (by rw [hm]; rfl)
 have hown := h.own (m := m) (by simp [hm])
 have hsem : s.msgSem m = 0 := by
  cases h.stage m with
  | new _ _ _ sem => exact sem hm
  | pending pc _ _ _ | answered pc _ _ _ _ _ | late pc _ _ _ _ => rw [hm] at pc; cases pc
 refine ⟨?_, ?_, ?_, h.ran, h.noFreeing, ?_, h.freedOnce, ?_, ?_⟩
 · exact h.block_update (by simp [hm]) .inserted
 · change s.posted ++ [m] = _
   rw [h.split]
   simp [State.setPoster, State.touch]
 · apply h.nodup.append (List.nodup_singleton m)
   simpa using hp
 · intro k
   by_cases hkm : k = m
   · subst hkm
     refine .pending ?_ (.inl (by simp)) hown hsem
     change (Function.update s.poster k .inserted k).phase = .early
     rw [Function.update_self]
     rfl
   · exact (h.stage k).congr (Function.update_of_ne hkm _ _) (by simp [hkm]) .rfl (by simp [hkm])
      .rfl .rfl rfl
 · apply h.touch_fault
   intro k hk
   cases List.mem_cons.mp hk with
   | inl hk => rwa [hk]
   | inr hk => exact h.alive (.inl (List.mem_of_getLast? (by simpa using hk)))
 · change (s.queue ++ [m]).length = _ + (s.posted ++ [m]).countP
    fun k => decide (Function.update s.poster m .inserted k = .inserted)
   rw [inserted_update, List.countP_append, countP_update_of_notMem hp, List.length_append, h.count]
   simp only [decide_true, List.countP_singleton, Function.update_self, if_true,
    List.length_singleton, Nat.add_assoc]
   rfl

theorem posted_of_early (h : Inv s) (hm : (s.poster m).phase = .early) : m ∈ s.posted := by
 cases h.stage m with
 | new pc _ _ _ | late pc _ _ _ _ => rw [hm] at pc; cases pc
 | pending _ at' _ _ => exact h.mem_posted at'
 | answered _ handled _ _ _ _ =>
  rw [h.split]
  exact List.mem_append_left _ handled

theorem signal (h : Inv s) (hm : s.poster m = .inserted) :
  Inv { s.setPoster m .signalled with sem := s.sem + 1 } := by
 have hpos := h.posted_of_early (m := m) (by rw [hm]; rfl)
 refine ⟨?_, h.split, h.nodup, h.ran, h.noFreeing, ?_, h.freedOnce, h.noFault, ?_⟩
 · exact h.block_update (by simp [hm]) .signalled
 · intro k
   by_cases hkm : k = m
   · subst hkm
     have hphase : (Function.update s.poster k .signalled k).phase = .early := by
      rw [Function.update_self]
      rfl
     cases h.stage k with
     | new pc _ _ _ | late pc _ _ _ _ => rw [hm] at pc; cases pc
     | pending _ at' freed sem => exact .pending hphase at' freed sem
     | answered _ handled queue worker freed sem =>
      exact .answered hphase handled queue worker freed sem
   · exact (h.stage k).congr (Function.update_of_ne hkm _ _) .rfl .rfl .rfl .rfl .rfl rfl
 · have hc := h.count
   rw [countP_update_false (m := m) h.nodup hpos (by simp [hm])] at hc
   change s.queue.length = s.sem + 1 + _ + s.posted.countP
    fun k => decide (Function.update s.poster m .signalled k = .inserted)
   rw [inserted_update, hc]
   change s.sem + (if s.worker = .got then 1 else 0) + _ = s.sem + 1 +
    (if s.worker = .got then 1 else 0) + _
   rw [show decide (PosterPc.signalled = .inserted) = false by decide]
   omega

theorem wakes (h : Inv s) (hm : s.poster m = .waiting) (hsem : 0 < s.msgSem m) :
  Inv { s.setPoster m .woken with msgSem := Function.update s.msgSem m (s.msgSem m - 1) } := by
 refine ⟨?_, h.split, h.nodup, h.ran, h.noFreeing, ?_, h.freedOnce, h.noFault, ?_⟩
 · exact h.block_update (by simp [hm]) .woken
 · intro k
   by_cases hkm : k = m
   · subst hkm
     have hpc : Function.update s.poster k .woken k = .woken := Function.update_self _ _ _
     cases h.stage k with
     | new pc _ _ _ | late pc _ _ _ _ => rw [hm] at pc; cases pc
     | pending _ _ _ sem => omega
     | answered _ handled queue worker freed _ =>
      refine .late ?_ handled queue worker ?_
      · exact congrArg PosterPc.phase hpc
      · change k ∈ s.freed ↔ Function.update s.poster k .woken k = .returned
        rw [hpc]
        exact iff_of_false freed (by decide)
   · exact (h.stage k).congr (Function.update_of_ne hkm _ _) .rfl .rfl .rfl .rfl .rfl
      (Function.update_of_ne hkm _ _)
 · change _ = _ + s.posted.countP fun k => decide (Function.update s.poster m _ k = .inserted)
   rw [countP_setPoster _ (by simp [hm]) (by simp)]
   exact h.count

theorem freeMsg (h : Inv s) (hm : s.poster m = .freeing) :
  Inv ((s.free m).setPoster m .returned) := by
 have hown := h.own (m := m) (by simp [hm])
 refine ⟨?_, h.split, h.nodup, h.ran, h.noFreeing, ?_, ?_, ?_, ?_⟩
 · exact h.block_update (by simp [hm]) .returned
 · intro k
   by_cases hkm : k = m
   · subst hkm
     have hpc : Function.update s.poster k .returned k = .returned := Function.update_self _ _ _
     cases h.stage k with
     | new pc _ _ _ | pending pc _ _ _ | answered pc _ _ _ _ _ => rw [hm] at pc; cases pc
     | late _ handled queue worker _ =>
      exact .late (congrArg PosterPc.phase hpc) handled queue worker
       (iff_of_true List.mem_cons_self hpc)
   · have hmem : k ∈ m :: s.freed ↔ k ∈ s.freed := by simp [hkm]
     exact (h.stage k).congr (Function.update_of_ne hkm _ _) .rfl hmem .rfl .rfl .rfl rfl
 · exact List.nodup_cons.mpr ⟨hown, h.freedOnce⟩
 · exact h.touch_fault fun k (hk : k ∈ [m]) => by rwa [List.mem_singleton.mp hk]
 · change _ = _ + s.posted.countP fun k => decide (Function.update s.poster m _ k = .inserted)
   rw [countP_setPoster _ (by simp [hm]) (by simp)]
   exact h.count

end Inv

namespace Inv

variable {s t : State} {m : ℕ}

theorem workerWakes (h : Inv s) (hw : s.worker = .waiting) (hsem : 0 < s.sem) :
  Inv { s with worker := .got, sem := s.sem - 1 } := by
 have hmsg : s.worker.msg = WorkerPc.msg .got := by rw [hw]; rfl
 refine ⟨h.block, ?_, h.nodup, by simp [WorkerPc.msg], by simp, ?_, h.freedOnce, h.noFault, ?_⟩
 · have hs := h.split
   rw [hw] at hs
   exact hs
 · intro k
   exact (h.stage k).congr rfl .rfl .rfl .rfl .rfl (by rw [hmsg]) rfl
 · have hc := h.count
   rw [hw, if_neg (by decide)] at hc
   change s.queue.length = s.sem - 1 + 1 + s.posted.countP fun m => decide (s.poster m = .inserted)
   rw [hc]
   omega

theorem queue_of_got (h : Inv s) (hw : s.worker = .got) : s.queue ≠ [] := by
 intro hq
 have hc := h.count
 rw [hw, if_pos rfl, hq, List.length_nil] at hc
 omega

theorem take (h : Inv s) {rest : List ℕ} (hw : s.worker = .got) (hq : s.queue = m :: rest) :
  Inv { s.touch (m :: rest.head?.toList) with worker := .taken m, queue := rest } := by
 have hsplit : s.posted = s.handled ++ (m :: rest) := by
  have hs := h.split
  rw [hw, hq] at hs
  exact hs
 refine ⟨h.block, hsplit, h.nodup, ?_, by simp, ?_, h.freedOnce, ?_, ?_⟩
 · intro k _ hr
   exact absurd hr (List.cons_ne_nil m [])
 · intro k
   by_cases hkm : k = m
   · subst hkm
     have hheld : k ∈ s.queue ∨ s.worker.msg = some k := .inl (by simp [hq])
     obtain ⟨hphase, hsem⟩ := h.early_of_held hheld
     exact .pending hphase (.inr rfl) (h.alive hheld) hsem
   · refine (h.stage k).congr rfl .rfl .rfl ?_ .rfl ?_ rfl
     · simp [hq, hkm]
     · simp [hw, WorkerPc.msg, Ne.symm hkm]
 · apply h.touch_fault
   intro k hk
   apply h.alive
   left
   rw [hq]
   cases List.mem_cons.mp hk with
   | inl hk => exact hk ▸ List.mem_cons_self
   | inr hk => exact List.mem_cons_of_mem m (List.mem_of_mem_head? (by simpa using hk))
 · have hc := h.count
   rw [hw, if_pos rfl, hq, List.length_cons] at hc
   change rest.length = s.sem + 0 + s.posted.countP fun m => decide (s.poster m = .inserted)
   omega

theorem runHandler (h : Inv s) (hw : s.worker = .taken m) :
  Inv { s.touch [m] with worker := .ran m, handled := s.handled ++ [m] } := by
 have hheld : m ∈ s.queue ∨ s.worker.msg = some m := .inr (by rw [hw]; rfl)
 refine ⟨h.block, ?_, h.nodup, ?_, by simp, ?_, h.freedOnce, ?_, ?_⟩
 · have hs := h.split
   rw [hw] at hs
   change s.posted = s.handled ++ [m] ++ s.queue
   rw [hs, List.append_assoc]
   rfl
 · intro k hk _
   cases hk
   simp
 · intro k
   by_cases hkm : k = m
   · subst hkm
     obtain ⟨hphase, hsem⟩ := h.early_of_held hheld
     exact .pending hphase (.inr rfl) (h.alive hheld) hsem
   · refine (h.stage k).congr rfl .rfl .rfl .rfl ?_ ?_ rfl
     · simp [hkm]
     · simp [hw, WorkerPc.msg]
 · apply h.touch_fault
   intro k hk
   rw [List.mem_singleton.mp hk]
   exact h.alive hheld
 · have hc := h.count
   rw [hw] at hc
   exact hc

theorem keep (h : Inv s) {pc : WorkerPc} (hm : s.worker.msg = some m) (hpc : pc.msg = some m)
  (hr : s.worker.toRun = []) (hpr : pc.toRun = []) (hf : ∀ k, pc ≠ .freeing k) :
  Inv { s.touch [m] with worker := pc } := by
 have hgot : s.worker ≠ .got := fun e => by rw [e] at hm; cases hm
 have hpgot : pc ≠ .got := fun e => by rw [e] at hpc; cases hpc
 refine ⟨h.block, ?_, h.nodup, ?_, hf, ?_, h.freedOnce, ?_, ?_⟩
 · have hs := h.split
   rw [hr] at hs
   change s.posted = s.handled ++ (pc.toRun ++ s.queue)
   rw [hpr]
   exact hs
 · intro k hk _
   exact h.ran k (by rw [hm, ← hpc]; exact hk) hr
 · intro k
   refine (h.stage k).congr rfl .rfl .rfl .rfl .rfl ?_ rfl
   change pc.msg = some k ↔ _
   rw [hpc, hm]
 · apply h.touch_fault
   intro k hk
   rw [List.mem_singleton.mp hk]
   exact h.alive (.inr hm)
 · have hc := h.count
   rw [if_neg hgot] at hc
   change s.queue.length = s.sem + (if pc = .got then 1 else 0) + _
   rw [if_neg hpgot]
   exact hc

theorem workerPosts (h : Inv s) (hw : s.worker = .posting m) :
  Inv { s.touch [m] with
   worker := .waiting, msgSem := Function.update s.msgSem m (s.msgSem m + 1) } := by
 have hmsg : s.worker.msg = some m := by rw [hw]; rfl
 have hr : s.worker.toRun = [] := by rw [hw]; rfl
 have hhandled := h.ran m hmsg hr
 have hsplit := h.split
 rw [hr] at hsplit
 have hqueue : m ∉ s.queue := by
  have hn := h.nodup
  rw [hsplit] at hn
  exact fun hq => (List.disjoint_of_nodup_append hn) hhandled hq
 refine ⟨h.block, hsplit, h.nodup, by simp [WorkerPc.msg], by simp, ?_, h.freedOnce, ?_, ?_⟩
 · intro k
   by_cases hkm : k = m
   · subst hkm
     obtain ⟨hphase, hsem⟩ := h.early_of_held (.inr hmsg)
     refine .answered hphase hhandled hqueue (by simp [WorkerPc.msg]) (h.alive (.inr hmsg)) ?_
     change Function.update s.msgSem k (s.msgSem k + 1) k = 1
     rw [Function.update_self, hsem]
   · refine (h.stage k).congr rfl .rfl .rfl .rfl .rfl ?_ (Function.update_of_ne hkm _ _)
     change none = some k ↔ s.worker.msg = some k
     rw [hmsg]
     simp [Ne.symm hkm]
 · apply h.touch_fault
   intro k hk
   rw [List.mem_singleton.mp hk]
   exact h.alive (.inr hmsg)
 · have hc := h.count
   rw [hw] at hc
   exact hc

end Inv

theorem step_cases {s t : State} {a : Action} (h : step s a = some t) :
  posterStep s a = some t ∨ workerStep s a = some t := by
 unfold step at h
 cases hp : posterStep s a with
 | some u =>
  rw [hp] at h
  exact .inl h
 | none =>
  rw [hp] at h
  exact .inr h

theorem Inv.posterStep {s t : State} {a : Action} (h : Inv s) (hm : Meets s a)
  (ht : posterStep s a = some t) : Inv t := by
 cases a with
 | post m block =>
  obtain ⟨hpc, ⟨⟩⟩ := Option.ite_none_right_eq_some.mp ht
  rw [show block = true from hm]
  exact h.post hpc
 | insert m =>
  obtain ⟨hpc, ⟨⟩⟩ := Option.ite_none_right_eq_some.mp ht
  exact h.insert hpc
 | signal m =>
  obtain ⟨hpc, ⟨⟩⟩ := Option.ite_none_right_eq_some.mp ht
  exact h.signal hpc
 | readBlock m | readBlockAgain m =>
  obtain ⟨hpc, ⟨⟩⟩ := Option.ite_none_right_eq_some.mp ht
  rw [h.block m (by simp [hpc]), if_pos rfl]
  exact h.move (by rw [hpc]; rfl) (by simp [hpc, PosterPc.phase]) (by simp [hpc]) (by simp)
   (by simp [hpc]) (by simp)
 | wakes m =>
  obtain ⟨hpc, ⟨⟩⟩ := Option.ite_none_right_eq_some.mp ht
  exact h.wakes hpc.1 hpc.2
 | waitFails m => exact hm.elim
 | destroySem m =>
  obtain ⟨hpc, ⟨⟩⟩ := Option.ite_none_right_eq_some.mp ht
  exact h.move (by rw [hpc]; rfl) (by simp [hpc, PosterPc.phase]) (by simp [hpc]) (by simp)
   (by simp [hpc]) (by simp)
 | freeMsg m =>
  obtain ⟨hpc, ⟨⟩⟩ := Option.ite_none_right_eq_some.mp ht
  exact h.freeMsg hpc
 | _ => cases ht

theorem Inv.block_of_held {s : State} {m : ℕ} (h : Inv s) (hm : s.worker.msg = some m) :
  s.block m = true := by
 apply h.block
 intro e
 have hphase := (h.early_of_held (.inr hm)).1
 rw [e] at hphase
 cases hphase

theorem Inv.workerStep {s t : State} {a : Action} (h : Inv s) (ht : workerStep s a = some t) :
  Inv t := by
 cases a with
 | workerWakes =>
  obtain ⟨hw, ⟨⟩⟩ := Option.ite_none_right_eq_some.mp ht
  exact h.workerWakes hw.1 hw.2
 | take =>
  obtain ⟨hw, ht⟩ := Option.ite_none_right_eq_some.mp ht
  cases hq : s.queue with
  | nil => exact absurd hq (h.queue_of_got hw)
  | cons m rest =>
   rw [hq] at ht
   injection ht with ht
   rw [← ht]
   exact h.take hw hq
 | runHandler =>
  simp only [PlatformQueue.workerStep] at ht
  cases hw : s.worker with
  | taken m =>
   rw [hw] at ht
   injection ht with ht
   rw [← ht]
   exact h.runHandler hw
  | _ => rw [hw] at ht; cases ht
 | handlerReadsBlock =>
  simp only [PlatformQueue.workerStep] at ht
  cases hw : s.worker with
  | ran m =>
   have hmsg : s.worker.msg = some m := by rw [hw]; rfl
   rw [hw] at ht
   injection ht with ht
   rw [← ht, h.block_of_held hmsg, if_pos rfl]
   exact h.keep hmsg rfl (by rw [hw]; rfl) rfl (by simp)
  | _ => rw [hw] at ht; cases ht
 | handlerFrees =>
  simp only [PlatformQueue.workerStep] at ht
  cases hw : s.worker with
  | freeing m => exact absurd hw (h.noFreeing m)
  | _ => rw [hw] at ht; cases ht
 | workerReadsBlock =>
  simp only [PlatformQueue.workerStep] at ht
  cases hw : s.worker with
  | done m =>
   have hmsg : s.worker.msg = some m := by rw [hw]; rfl
   rw [hw] at ht
   injection ht with ht
   rw [← ht, h.block_of_held hmsg, if_pos rfl]
   exact h.keep hmsg rfl (by rw [hw]; rfl) rfl (by simp)
  | _ => rw [hw] at ht; cases ht
 | workerPosts =>
  simp only [PlatformQueue.workerStep] at ht
  cases hw : s.worker with
  | posting m =>
   rw [hw] at ht
   injection ht with ht
   rw [← ht]
   exact h.workerPosts hw
  | _ => rw [hw] at ht; cases ht
 | _ => cases ht

theorem Inv.step {s t : State} {a : Action} (h : Inv s) (hm : Meets s a)
  (ht : step s a = some t) : Inv t := by
 cases step_cases ht with
 | inl ht => exact h.posterStep hm ht
 | inr ht => exact h.workerStep ht

theorem Quiescent.eq_none {s : State} (h : Quiescent s) {a : Action}
  (hpost : ∀ m b, a ≠ .post m b) (hfail : ∀ m, a ≠ .waitFails m) : step s a = none := by
 cases ha : step s a with
 | none => rfl
 | some t =>
  rcases h a t ha with ⟨m, b, e⟩ | ⟨m, e⟩
  · exact absurd e (hpost m b)
  · exact absurd e (hfail m)

theorem Quiescent.worker {s : State} (h : Quiescent s) : s.worker = .waiting ∧ s.sem = 0 := by
 have hwakes := h.eq_none (a := .workerWakes) (by simp) (by simp)
 have htake := h.eq_none (a := .take) (by simp) (by simp)
 have hrun := h.eq_none (a := .runHandler) (by simp) (by simp)
 have hreads := h.eq_none (a := .handlerReadsBlock) (by simp) (by simp)
 have hfrees := h.eq_none (a := .handlerFrees) (by simp) (by simp)
 have hreads' := h.eq_none (a := .workerReadsBlock) (by simp) (by simp)
 have hposts := h.eq_none (a := .workerPosts) (by simp) (by simp)
 simp only [step, posterStep, workerStep] at hwakes htake hrun hreads hfrees hreads' hposts
 cases hw : s.worker with
 | waiting =>
  rw [hw] at hwakes
  exact ⟨rfl, by simpa using hwakes⟩
 | got =>
  rw [hw, if_pos rfl] at htake
  cases hq : s.queue <;> simp [hq] at htake
 | taken m => simp [hw] at hrun
 | ran m => simp [hw] at hreads
 | freeing m => simp [hw] at hfrees
 | done m => simp [hw] at hreads'
 | posting m => simp [hw] at hposts

theorem Quiescent.poster {s : State} (h : Quiescent s) (m : ℕ) :
  s.poster m = .fresh ∨ s.poster m = .returned ∨ (s.poster m = .waiting ∧ s.msgSem m = 0) := by
 have hinsert := h.eq_none (a := .insert m) (by simp) (by simp)
 have hsignal := h.eq_none (a := .signal m) (by simp) (by simp)
 have hread := h.eq_none (a := .readBlock m) (by simp) (by simp)
 have hwakes := h.eq_none (a := .wakes m) (by simp) (by simp)
 have hread' := h.eq_none (a := .readBlockAgain m) (by simp) (by simp)
 have hdestroy := h.eq_none (a := .destroySem m) (by simp) (by simp)
 have hfree := h.eq_none (a := .freeMsg m) (by simp) (by simp)
 simp only [step, posterStep, workerStep] at hinsert hsignal hread hwakes hread' hdestroy hfree
 cases hp : s.poster m with
 | fresh => exact .inl rfl
 | returned => exact .inr (.inl rfl)
 | waiting =>
  refine .inr (.inr ⟨rfl, ?_⟩)
  by_contra hz
  simp [hp, Nat.pos_of_ne_zero hz] at hwakes
 | allocated => simp [hp] at hinsert
 | inserted => simp [hp] at hsignal
 | signalled => simp [hp] at hread
 | woken => simp [hp] at hread'
 | destroying => simp [hp] at hdestroy
 | freeing => simp [hp] at hfree

theorem Inv.finished {s : State} (h : Inv s) (hq : Quiescent s) :
  s.handled = s.posted ∧ ∀ m ∈ s.posted, m ∈ s.freed := by
 obtain ⟨hw, hsem⟩ := hq.worker
 have hinserted : (s.posted.countP fun m => decide (s.poster m = .inserted)) = 0 := by
  rw [List.countP_eq_zero]
  intro m _
  have hp := hq.poster m
  simp only [decide_eq_true_eq]
  intro e
  simp [e] at hp
 have hqueue : s.queue = [] := by
  have hc := h.count
  rw [hsem, hinserted, hw, if_neg (by decide)] at hc
  exact List.length_eq_zero_iff.mp hc
 refine ⟨?_, fun m hm => ?_⟩
 · have hs := h.split
   rw [hqueue, hw] at hs
   simpa [WorkerPc.toRun] using hs.symm
 · have hp := hq.poster m
   cases h.stage m with
   | new _ posted _ _ => exact absurd hm posted
   | pending _ at' _ _ => simp [hqueue, hw, WorkerPc.msg] at at'
   | answered pc _ _ _ _ sem =>
    rcases hp with hp | hp | hp
    · rw [hp] at pc
      cases pc
    · rw [hp] at pc
      cases pc
    · omega
   | late pc _ _ _ freed =>
    rcases hp with hp | hp | hp
    · rw [hp] at pc
      cases pc
    · exact freed.mpr hp
    · rw [hp.1] at pc
      cases pc

theorem Inv.sound {s : State} (h : Inv s) : Sound s := by
 refine ⟨h.nodup, ?_, h.freedOnce, h.noFault, ?_, h.finished⟩
 · rw [h.split]
   exact List.prefix_append _ _
 · intro m _ hret
   cases h.stage m with
   | new pc _ _ _ | pending pc _ _ _ | answered pc _ _ _ _ _ => rw [hret] at pc; cases pc
   | late _ handled _ _ _ => exact handled

theorem inv_start : Inv {} := by
 refine ⟨?_, rfl, List.nodup_nil, ?_, ?_, ?_, List.nodup_nil, rfl, rfl⟩
 · intro m hm
   exact absurd rfl hm
 · intro m hm
   cases hm
 · intro m hm
   cases hm
 · intro m
   exact .new rfl List.not_mem_nil List.not_mem_nil fun e => by cases e

theorem sound_of_blocking (actions : List Action) (s : State)
    (hm : RunRules.Along step Meets {} actions) (hs : RunRules.exec step {} actions = some s) :
    Sound s :=
  (RunRules.along_invariant (fun _ _ _ => Inv.step) _ _ actions inv_start hm hs).sound

/-- A blocking message from its allocation to the return of its poster -/
def blockingRound : List Action :=
 [.post 0 true, .insert 0, .signal 0, .readBlock 0, .workerWakes, .take, .runHandler,
  .handlerReadsBlock, .workerReadsBlock, .workerPosts, .wakes 0, .readBlockAgain 0, .destroySem 0,
  .freeMsg 0]

theorem sound_of_blocking_round : ∃ s, RunRules.exec step {} blockingRound = some s ∧ Sound s := by
  refine ⟨_, rfl, sound_of_blocking blockingRound _ ?_ rfl⟩
  intro pre a hpre t _
  have ha : a ∈ blockingRound := hpre.subset (by simp)
  cases a with
  | post m block =>
    have hb : m = 0 ∧ block = true := by simpa [blockingRound] using ha
    exact hb.2
  | waitFails m => simp [blockingRound] at ha
  | _ => trivial

/-- A message that is not blocking is read by the worker after its handler has freed it. -/
theorem unblocking_fault :
    ∃ s, RunRules.exec step {} [.post 0 false, .insert 0, .signal 0, .readBlock 0,
        .readBlockAgain 0, .workerWakes, .take, .runHandler, .handlerReadsBlock, .handlerFrees,
        .workerReadsBlock] = some s ∧ ¬ Sound s := by
  refine ⟨_, rfl, fun h => ?_⟩
  exact absurd h.noFault (by decide)

end DriversFramework.PlatformQueue
