import DriversFramework.RunRules

/-! Claiming and releasing the interrupts of the functions of a card (`mmc_sdio.c`), with the thread
and the semaphore that they share (`mmc_core.c`). -/
namespace DriversFramework.SdioIrq

open RunRules

def sdioMaxFunctionNumber : ℕ := 7

abbrev Function := Fin sdioMaxFunctionNumber

/-- `failed` stands for what a failing call of an operation has returned. -/
inductive SdioStatus where
 | success
 | errDeviceBusy
 | errInvalidParam
 | failed
 deriving DecidableEq

structure ClaimResults where
 intEnable : Bool
 semInit : Bool
 threadCreate : Bool
 threadStart : Bool
 deriving DecidableEq

/-- The part of an `SdioDevice` that interrupts are about. `threads` counts the interrupt threads
that run, `thread` says whether the device names one of them, `sem` whether its semaphore exists. -/
structure SdioDevice (Handler : Type) where
 irqHandler : Function → Option Handler
 threads : ℕ
 thread : Bool
 sem : Bool
 threadRunning : Bool
 irqPending : Bool

/-- The controller's capability to signal interrupts, and whether destroying a thread stops it
(where the system does no more than free what names the thread, it does not). -/
structure Platform where
 sdioIrq : Bool
 destroyStops : Bool
 deriving DecidableEq

variable {Handler : Type}

def mmcCntlrCreatSdioIrqThread (dev : SdioDevice Handler) (results : ClaimResults) :
  SdioStatus × SdioDevice Handler :=
 if results.semInit = false then (.failed, { dev with sem := false })
 else if results.threadCreate = false then (.failed, { dev with thread := false, sem := false })
 else if results.threadStart = false then (.failed, { dev with thread := false, sem := false })
 else (.success,
  { dev with threads := dev.threads + 1, thread := true, sem := true, threadRunning := true })

def mmcCntlrDestroySdioIrqThread (platform : Platform) (dev : SdioDevice Handler) :
  SdioDevice Handler :=
 { dev with
  threads := if dev.thread ∧ platform.destroyStops then dev.threads - 1 else dev.threads
  thread := false
  sem := false
  threadRunning := true }

def mmcCntlrNotifySdioIrqThread (dev : SdioDevice Handler) : Option (SdioDevice Handler) :=
 if dev.threadRunning then
  if dev.sem then some { dev with irqPending := true } else none
 else some dev

/-- The handler is set before the thread is made, and is not taken back. -/
def sdioDeviceDefaultClaimIrq (platform : Platform) (dev : SdioDevice Handler) (func : Function)
  (irqHandler : Option Handler) (results : ClaimResults) : SdioStatus × SdioDevice Handler :=
 match dev.irqHandler func, irqHandler with
 | some _, _ => (.errDeviceBusy, dev)
 | none, none => (.errInvalidParam, dev)
 | none, some handler =>
  if results.intEnable = false then (.failed, dev)
  else if platform.sdioIrq then
   mmcCntlrCreatSdioIrqThread
    { dev with irqHandler := Function.update dev.irqHandler func (some handler) } results
  else (.success, { dev with irqHandler := Function.update dev.irqHandler func (some handler) })

/-- `intDisable` says whether disabling the interrupt on the card succeeds. -/
def sdioDeviceDefaultReleaseIrq (platform : Platform) (dev : SdioDevice Handler) (func : Function)
  (intDisable : Bool) : SdioStatus × SdioDevice Handler :=
 (if intDisable then .success else .failed,
  match dev.irqHandler func with
  | none => dev
  | some _ => mmcCntlrDestroySdioIrqThread platform
   { dev with irqHandler := Function.update dev.irqHandler func none })

inductive Op (Handler : Type) where
 | claim (func : Function) (irqHandler : Option Handler) (results : ClaimResults)
 | release (func : Function) (intDisable : Bool)
 | notify

def step (platform : Platform) (dev : SdioDevice Handler) : Op Handler → Option (SdioDevice Handler)
 | .claim func irqHandler results =>
  some (sdioDeviceDefaultClaimIrq platform dev func irqHandler results).2
 | .release func intDisable => some (sdioDeviceDefaultReleaseIrq platform dev func intDisable).2
 | .notify => mmcCntlrNotifySdioIrqThread dev

/-- A device without handlers and without a thread. -/
def newDevice : SdioDevice Handler where
 irqHandler := fun _ => none
 threads := 0
 thread := false
 sem := false
 threadRunning := false
 irqPending := false

/-- At most one thread, and the flag is set exactly while it and its semaphore exist. -/
structure Sound (dev : SdioDevice Handler) : Prop where
 one : dev.threads ≤ 1
 running : dev.threadRunning = true ↔ 1 ≤ dev.threads ∧ dev.sem = true

def ClaimKeeps (platform : Platform) (dev : SdioDevice Handler) : Op Handler → Prop
 | .claim func irqHandler results =>
  (sdioDeviceDefaultClaimIrq platform dev func irqHandler results).1 ≠ .success →
   (sdioDeviceDefaultClaimIrq platform dev func irqHandler results).2.irqHandler func =
    dev.irqHandler func
 | _ => True

/-- The step is defined, ends in a sound state, and is no failing claim that leaves its handler. -/
def Right (platform : Platform) (dev : SdioDevice Handler) (op : Op Handler) : Prop :=
 (∃ t, step platform dev op = some t ∧ Sound t) ∧ ClaimKeeps platform dev op

/-- No function gives its handler back, and a thread is made only once and without failing. -/
def Meets (platform : Platform) (dev : SdioDevice Handler) : Op Handler → Prop
 | .claim func irqHandler results =>
  dev.irqHandler func = none → irqHandler ≠ none → results.intEnable = true →
   platform.sdioIrq = true → dev.threads = 0 ∧ results.semInit = true ∧
    results.threadCreate = true ∧ results.threadStart = true
 | .release func _ => dev.irqHandler func = none
 | .notify => True

def ClaimLeavesNone (platform : Platform) (dev : SdioDevice Handler) : Op Handler → Prop
 | .claim func irqHandler results =>
  (sdioDeviceDefaultClaimIrq platform dev func irqHandler results).1 ≠ .success →
   (sdioDeviceDefaultClaimIrq platform dev func irqHandler results).2.irqHandler func = none
 | _ => True

/-- As `Right`, with the claims of a function that has a handler counted as failing ones. -/
def RightStrictly (platform : Platform) (dev : SdioDevice Handler) (op : Op Handler) : Prop :=
 (∃ t, step platform dev op = some t ∧ Sound t) ∧ ClaimLeavesNone platform dev op

/-- Only functions without a handler are claimed. -/
def ClaimsFree (dev : SdioDevice Handler) : Op Handler → Prop
 | .claim func _ _ => dev.irqHandler func = none
 | _ => True

def Working (dev : SdioDevice Handler) : Prop :=
 dev.threads = 1 ∧ dev.sem = true ∧ dev.threadRunning = true ∨
  dev.threads = 0 ∧ dev.threadRunning = false

section Runs

variable {platform : Platform} {dev t : SdioDevice Handler} {op : Op Handler}

theorem Working.sound (working : Working dev) : Sound dev := by
 rcases working with ⟨threads, sem, running⟩ | ⟨threads, running⟩
 · exact ⟨by omega, iff_of_true running ⟨by omega, sem⟩⟩
 · exact ⟨by omega, iff_of_false (by rw [running]; decide) fun h => by omega⟩

def withHandler (dev : SdioDevice Handler) (func : Function) (handler : Option Handler) :
  SdioDevice Handler :=
 { dev with irqHandler := Function.update dev.irqHandler func handler }

structure Installs (dev : SdioDevice Handler) (func : Function) (irqHandler : Option Handler)
  (results : ClaimResults) (handler : Handler) : Prop where
 free : dev.irqHandler func = none
 given : irqHandler = some handler
 enabled : results.intEnable = true

variable (platform) in
theorem claim_refused {func : Function} {irqHandler : Option Handler} {results : ClaimResults}
  (refused : ∀ handler, ¬Installs dev func irqHandler results handler) :
  (sdioDeviceDefaultClaimIrq platform dev func irqHandler results).2 = dev := by
 unfold sdioDeviceDefaultClaimIrq
 cases free : dev.irqHandler func with
 | some old => rfl
 | none =>
  cases given : irqHandler with
  | none => rfl
  | some handler =>
   have disabled : results.intEnable = false :=
    Bool.eq_false_iff.mpr fun enabled => refused handler ⟨free, given, enabled⟩
   change (if results.intEnable = false then _ else _ : SdioStatus × SdioDevice Handler).2 = dev
   rw [if_pos disabled]

variable (platform) in
theorem claim_installs {func : Function} {irqHandler : Option Handler} {results : ClaimResults}
  {handler : Handler} (installs : Installs dev func irqHandler results handler) :
  sdioDeviceDefaultClaimIrq platform dev func irqHandler results =
   if platform.sdioIrq then
    mmcCntlrCreatSdioIrqThread (withHandler dev func (some handler)) results
   else (.success, withHandler dev func (some handler)) := by
 obtain ⟨free, rfl, enabled⟩ := installs
 unfold sdioDeviceDefaultClaimIrq
 rw [free]
 change (if results.intEnable = false then _ else _ : SdioStatus × SdioDevice Handler) = _
 rw [if_neg (by rw [enabled]; decide)]
 rfl

theorem create_failed (dev : SdioDevice Handler) {results : ClaimResults}
  (failed : ¬(results.semInit = true ∧ results.threadCreate = true ∧
   results.threadStart = true)) :
  (mmcCntlrCreatSdioIrqThread dev results).1 = .failed ∧
   (mmcCntlrCreatSdioIrqThread dev results).2.irqHandler = dev.irqHandler := by
 unfold mmcCntlrCreatSdioIrqThread
 split
 · exact ⟨rfl, rfl⟩
 · rename_i sem
   split
   · exact ⟨rfl, rfl⟩
   · rename_i create
     split
     · exact ⟨rfl, rfl⟩
     · rename_i start
       exact absurd ⟨by simpa using sem, by simpa using create, by simpa using start⟩ failed

theorem create_done {results : ClaimResults} (sem : results.semInit = true)
  (create : results.threadCreate = true) (start : results.threadStart = true) :
  mmcCntlrCreatSdioIrqThread dev results = (.success, { dev with
   threads := dev.threads + 1
   thread := true
   sem := true
   threadRunning := true }) := by
 unfold mmcCntlrCreatSdioIrqThread
 rw [if_neg (by rw [sem]; decide), if_neg (by rw [create]; decide), if_neg (by rw [start]; decide)]

theorem claim_iff (working : Working dev) (func : Function) (irqHandler : Option Handler)
  (results : ClaimResults) :
  (Right platform dev (.claim func irqHandler results) ↔
    Meets platform dev (.claim func irqHandler results)) ∧
   (Meets platform dev (.claim func irqHandler results) →
    Working (sdioDeviceDefaultClaimIrq platform dev func irqHandler results).2) := by
 by_cases reach : ∃ handler, Installs dev func irqHandler results handler
 · obtain ⟨handler, installs⟩ := reach
   have claim := claim_installs platform installs
   have some : irqHandler ≠ none := by
    rw [installs.given]
    exact Option.some_ne_none handler
   cases irq : platform.sdioIrq with
   | false =>
    rw [irq, if_neg Bool.false_ne_true] at claim
    have kept : Working (withHandler dev func (.some handler)) := working
    have meets : Meets platform dev (.claim func irqHandler results) := by
     intro _ _ _ signals
     rw [irq] at signals
     cases signals
    refine ⟨iff_of_true ⟨⟨_, ?_, kept.sound⟩, fun failed => ?_⟩ meets, fun _ => ?_⟩
    · rw [step, claim]
    · rw [claim] at failed
      exact absurd rfl failed
    · rw [claim]
      exact kept
   | true =>
    rw [irq, if_pos rfl] at claim
    have one : Meets platform dev (.claim func irqHandler results) ↔ dev.threads = 0 ∧
      results.semInit = true ∧ results.threadCreate = true ∧ results.threadStart = true :=
     ⟨fun meets => meets installs.free some installs.enabled irq, fun made _ _ _ _ => made⟩
    rw [one]
    by_cases made : results.semInit = true ∧ results.threadCreate = true ∧
      results.threadStart = true
    · obtain ⟨sem, create, start⟩ := made
      rw [create_done sem create start] at claim
      have only : (dev.threads = 0 ∧ results.semInit = true ∧ results.threadCreate = true ∧
        results.threadStart = true) ↔ dev.threads = 0 :=
       and_iff_left ⟨sem, create, start⟩
      rw [only, Right, ClaimKeeps, step, claim]
      refine ⟨⟨?_, fun first => ⟨⟨_, rfl, ?_⟩, fun failed => absurd rfl failed⟩⟩, fun first => ?_⟩
      · rintro ⟨⟨t, same, sound⟩, -⟩
        cases same
        have less : dev.threads + 1 ≤ 1 := sound.one
        omega
      · have once : dev.threads + 1 ≤ 1 := by omega
        exact ⟨once, iff_of_true rfl ⟨Nat.le_add_left 1 dev.threads, rfl⟩⟩
      · have once : dev.threads + 1 = 1 := by omega
        exact .inl ⟨once, rfl, rfl⟩
    · obtain ⟨status, handlers⟩ := create_failed (withHandler dev func (.some handler)) made
      rw [← claim] at status handlers
      refine ⟨iff_of_false ?_ fun meets => made meets.2, fun meets => absurd meets.2 made⟩
      rintro ⟨-, keeps⟩
      have kept := keeps (by rw [status]; decide)
      rw [handlers, installs.free] at kept
      have set : (withHandler dev func (.some handler)).irqHandler func = .some handler :=
       Function.update_self _ _ _
      rw [set] at kept
      cases kept
 · have same := claim_refused platform (not_exists.mp reach)
   have meets : Meets platform dev (.claim func irqHandler results) := by
    intro free some enabled
    obtain ⟨handler, given⟩ := Option.ne_none_iff_exists'.mp some
    exact absurd ⟨handler, free, given, enabled⟩ reach
   refine ⟨iff_of_true ⟨⟨dev, ?_, working.sound⟩, fun _ => ?_⟩ meets, fun _ => ?_⟩
   · rw [step, same]
   · rw [same]
   · rw [same]
     exact working

variable (platform) in
theorem release_free {func : Function} (intDisable : Bool) (free : dev.irqHandler func = none) :
  (sdioDeviceDefaultReleaseIrq platform dev func intDisable).2 = dev := by
 change (match dev.irqHandler func with
  | none => dev
  | some _ => _ : SdioDevice Handler) = dev
 rw [free]

variable (platform) in
theorem release_held {func : Function} {handler : Handler} (intDisable : Bool)
  (held : dev.irqHandler func = some handler) :
  (sdioDeviceDefaultReleaseIrq platform dev func intDisable).2 =
   mmcCntlrDestroySdioIrqThread platform (withHandler dev func none) := by
 change (match dev.irqHandler func with
  | none => dev
  | some _ => mmcCntlrDestroySdioIrqThread platform (withHandler dev func none)) = _
 rw [held]

theorem release_iff (working : Working dev) (func : Function) (intDisable : Bool) :
  (Right platform dev (.release func intDisable) ↔
    Meets platform dev (.release func intDisable)) ∧
   (Meets platform dev (.release func intDisable) →
    Working (sdioDeviceDefaultReleaseIrq platform dev func intDisable).2) := by
 cases held : dev.irqHandler func with
 | none =>
  have same := release_free platform intDisable held
  refine ⟨iff_of_true ⟨⟨dev, ?_, working.sound⟩, trivial⟩ held, fun _ => ?_⟩
  · rw [step, same]
  · rw [same]
    exact working
 | some handler =>
  have released := release_held platform intDisable held
  have kept : ¬Meets platform dev (.release func intDisable) := fun free => by
   cases held.symm.trans free
  refine ⟨iff_of_false ?_ kept, fun meets => absurd meets kept⟩
  rintro ⟨⟨t, same, sound⟩, -⟩
  rw [step, released] at same
  cases same
  have alive : (mmcCntlrDestroySdioIrqThread platform (withHandler dev func none)).sem = true :=
   (sound.running.mp rfl).2
  cases alive

theorem notify_right (working : Working dev) :
  ∃ t, mmcCntlrNotifySdioIrqThread dev = some t ∧ Working t := by
 rcases working with ⟨threads, sem, running⟩ | ⟨threads, running⟩
 · refine ⟨{ dev with irqPending := true }, ?_, .inl ⟨threads, sem, running⟩⟩
   rw [mmcCntlrNotifySdioIrqThread, if_pos running, if_pos sem]
 · refine ⟨dev, ?_, .inr ⟨threads, running⟩⟩
   rw [mmcCntlrNotifySdioIrqThread, if_neg (by rw [running]; decide)]

theorem right_iff_meets (working : Working dev) (op : Op Handler) :
  Right platform dev op ↔ Meets platform dev op := by
 cases op with
 | claim func irqHandler results => exact (claim_iff working func irqHandler results).1
 | release func intDisable => exact (release_iff working func intDisable).1
 | notify =>
  obtain ⟨t, run, kept⟩ := notify_right working
  exact iff_of_true ⟨⟨t, run, kept.sound⟩, trivial⟩ trivial

theorem working_step (working : Working dev) (right : Right platform dev op)
  (run : step platform dev op = some t) : Working t := by
 have meets := (right_iff_meets working op).mp right
 cases op with
 | claim func irqHandler results =>
  cases run
  exact (claim_iff working func irqHandler results).2 meets
 | release func intDisable =>
  cases run
  exact (release_iff working func intDisable).2 meets
 | notify =>
  obtain ⟨u, run', kept⟩ := notify_right working
  cases run.symm.trans run'
  exact kept

variable (platform) in
theorem claim_busy {func : Function} {old : Handler} (held : dev.irqHandler func = some old)
  (irqHandler : Option Handler) (results : ClaimResults) :
  sdioDeviceDefaultClaimIrq platform dev func irqHandler results = (.errDeviceBusy, dev) := by
 unfold sdioDeviceDefaultClaimIrq
 rw [held]

theorem strictly_iff (op : Op Handler) :
  RightStrictly platform dev op ↔ Right platform dev op ∧ ClaimsFree dev op := by
 cases op with
 | release func intDisable => exact (and_iff_left trivial).symm
 | notify => exact (and_iff_left trivial).symm
 | claim func irqHandler results =>
  cases held : dev.irqHandler func with
  | none =>
   have same : ClaimLeavesNone platform dev (.claim func irqHandler results) ↔
     ClaimKeeps platform dev (.claim func irqHandler results) := by
    rw [ClaimLeavesNone, ClaimKeeps, held]
   have free : ClaimsFree dev (.claim func irqHandler results) := held
   rw [RightStrictly, same, and_iff_left free, Right]
  | some old =>
   have busy := claim_busy platform held irqHandler results
   refine iff_of_false (fun right => ?_) fun right => ?_
   · have left := right.2
     rw [ClaimLeavesNone, busy] at left
     cases held.symm.trans (left fun same => by cases same)
   · cases held.symm.trans right.2

theorem strictly_iff_meets (working : Working dev) (op : Op Handler) :
  RightStrictly platform dev op ↔ Meets platform dev op ∧ ClaimsFree dev op := by
 rw [strictly_iff, right_iff_meets working]

end Runs

/-- In every run of claims, releases and notifications, each step is defined and ends with at most
one thread, with the flag set exactly while it and its semaphore exist, and each failing claim
leaves its function without a handler, exactly if every step meets the condition and only functions
without a handler are claimed. Where a claim that is refused may leave the handler that the
function has, exactly if every step meets the condition. -/
theorem irqs_right_iff (platform : Platform) (ops : List (Op Handler)) :
    (Along (step platform) (RightStrictly platform) newDevice ops ↔
        Along (step platform) (fun dev op => Meets platform dev op ∧ ClaimsFree dev op)
          newDevice ops) ∧
      (Along (step platform) (Right platform) newDevice ops ↔
        Along (step platform) (Meets platform) newDevice ops) := by
  constructor
  · refine along_congr_of_keep (I := Working) (fun dev op t working right run => ?_)
      (fun _ op working => strictly_iff_meets working op) newDevice ops (.inr ⟨rfl, rfl⟩)
    exact working_step working ((strictly_iff op).mp right).1 run
  · exact along_congr_of_keep (I := Working)
      (fun _ _ _ working right run => working_step working right run)
      (fun _ op working => right_iff_meets working op) newDevice ops (.inr ⟨rfl, rfl⟩)

def function0 : Function := ⟨0, by decide⟩

def function1 : Function := ⟨1, by decide⟩

def succeeds : ClaimResults := ⟨true, true, true, true⟩

def signals : Platform := ⟨true, true⟩

/-- After a claim and a release the flag is set without a thread, so that a notification posts a
semaphore that does not exist; a second claim makes a second thread; and a claim whose thread is
not created leaves its handler. -/
theorem irqs_go_wrong : (exec (step signals) (newDevice : SdioDevice ℕ)
        [.claim function0 (some 1) succeeds, .release function0 true]).map
      (fun dev => (dev.threads, dev.sem, dev.threadRunning)) = some (0, false, true) ∧
    (exec (step signals) (newDevice : SdioDevice ℕ)
        [.claim function0 (some 1) succeeds, .release function0 true, .notify]).isNone = true ∧
    (exec (step signals) (newDevice : SdioDevice ℕ)
        [.claim function0 (some 1) succeeds, .claim function1 (some 2) succeeds]).map
      (·.threads) = some 2 ∧
    (sdioDeviceDefaultClaimIrq signals (newDevice : SdioDevice ℕ) function0 (some 1)
        ⟨true, true, false, true⟩).1 = .failed ∧
      (sdioDeviceDefaultClaimIrq signals (newDevice : SdioDevice ℕ) function0 (some 1)
        ⟨true, true, false, true⟩).2.irqHandler function0 = some 1 := by
  decide

end DriversFramework.SdioIrq
