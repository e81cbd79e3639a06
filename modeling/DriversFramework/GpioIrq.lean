import Mathlib.Algebra.Group.Nat.Defs
import DriversFramework.HdfBase
import Mathlib.Data.List.Nodup

/-! `GpioCntlrSetIrq` and `GpioCntlrUnsetIrq` of `gpio_core.c` with the bridges that run a handler
in a thread of its own. Bridges are named in the order in which they are allocated; whatever memory,
threads and the methods of the controller do is an input of a call. The calls hold the spinlock of
the controller. -/
namespace DriversFramework.GpioIrq

/-- A function of the caller, or `GpioIrqBridgeFunc`, which is static. -/
inductive IrqFunc where
 | user (func : ℕ)
 | bridge
 deriving DecidableEq

inductive IrqData where
 | value (arg : ℕ)
 | bridge (b : ℕ)
 deriving DecidableEq

structure GpioInfo where
 irqFunc : Option IrqFunc
 irqData : IrqData
 deriving DecidableEq

structure GpioIrqBridge where
 pin : ℕ
 func : Option ℕ
 data : ℕ
 sem : ℕ
 stop : Bool
 deriving DecidableEq

structure GpioCntlr where
 count : ℕ
 ginfosSet : Bool
 setIrqSet : Bool
 unsetIrqSet : Bool
 deriving DecidableEq

/-- The handlers and the bridges in memory. `created` are those that `GpioIrqBridgeCreate` returned,
`destroyed` the calls of `GpioIrqBridgeDestroy`, and `freed` those whose memory was freed. -/
structure IrqState where
 ginfos : ℕ → GpioInfo
 bridges : ℕ → Option GpioIrqBridge
 next : ℕ
 created : List ℕ
 destroyed : List ℕ
 freed : List ℕ

def IrqState.start : IrqState := ⟨fun _ => ⟨none, .value 0⟩, fun _ => none, 0, [], [], []⟩

structure IrqEnv where
 alloc : Bool
 formatName : Bool
 spinInit : Bool
 semInit : Bool
 threadCreate : Bool
 threadStart : Bool
 method : HdfStatus

def gpioIrqUsingThread : ℕ := 2 ^ 8

/-- A bridge that was created. -/
def IrqState.add (s : IrqState) (bridge : GpioIrqBridge) : IrqState :=
 { s with
  bridges := Function.update s.bridges s.next (some bridge)
  next := s.next + 1
  created := s.created ++ [s.next] }

def IrqState.discard (s : IrqState) : IrqState :=
 { s with next := s.next + 1, freed := s.freed ++ [s.next] }

def IrqState.setBridge (s : IrqState) (b : ℕ) (bridge : Option GpioIrqBridge) : IrqState :=
 { s with bridges := Function.update s.bridges b bridge }

def gpioIrqBridgeCreate (s : IrqState) (pin : ℕ) (func : Option ℕ) (arg : ℕ) (env : IrqEnv) :
  Option ℕ × IrqState :=
 if env.alloc = false then (none, s)
 else if env.formatName && env.spinInit && env.semInit && env.threadCreate && env.threadStart then
  (some s.next, s.add ⟨pin, func, arg, 0, false⟩)
 else (none, s.discard)

/-- `none` where the bridge is no more. -/
def gpioIrqBridgeDestroy (s : IrqState) (b : ℕ) : Option IrqState :=
 (s.bridges b).map fun bridge =>
  let s := { s with destroyed := s.destroyed ++ [b] }
  if bridge.stop then s
  else s.setBridge b (some { bridge with stop := true, sem := bridge.sem + 1 })

def IrqState.install (s : IrqState) (pin : ℕ) (info : GpioInfo) : IrqState :=
 { s with ginfos := Function.update s.ginfos pin info }

/-- `GpioIrqBridgeDestroy` of the data of a handler that is `GpioIrqBridgeFunc`; a pointer that is
none to a bridge has no meaning. -/
def destroyOld (s : IrqState) (old : GpioInfo) : Option IrqState :=
 if old.irqFunc = some .bridge then
  match old.irqData with
  | .bridge b => gpioIrqBridgeDestroy s b
  | .value _ => none
 else some s

def gpioCntlrSetIrq (cntlr : GpioCntlr) (s : IrqState) (pin mode : ℕ) (func : Option ℕ) (arg : ℕ)
  (env : IrqEnv) : Option (HdfStatus × IrqState) :=
 if cntlr.ginfosSet = false then some (.errInvalidObject, s)
 else if cntlr.count ≤ pin then some (.errInvalidParam, s)
 else if cntlr.setIrqSet = false then some (.errNotSupport, s)
 else
  let threaded := mode &&& gpioIrqUsingThread ≠ 0
  let create := if threaded then gpioIrqBridgeCreate s pin func arg env else (none, s)
  let bridge := create.1
  let s := create.2
  if threaded ∧ bridge = none then some (.failure, s)
  else
   let the : GpioInfo := match bridge with
    | some b => ⟨some .bridge, .bridge b⟩
    | none => ⟨func.map .user, .value arg⟩
   let old := s.ginfos pin
   let s := s.install pin the
   if env.method = .success then (destroyOld s old).map fun s => (env.method, s)
   else
    let s := s.install pin old
    match bridge with
    | some b => (gpioIrqBridgeDestroy s b).map fun s => (env.method, s)
    | none => some (env.method, s)

def gpioCntlrUnsetIrq (cntlr : GpioCntlr) (s : IrqState) (pin : ℕ) (env : IrqEnv) :
  Option (HdfStatus × IrqState) :=
 if cntlr.ginfosSet = false then some (.errInvalidObject, s)
 else if cntlr.count ≤ pin then some (.errInvalidParam, s)
 else if cntlr.unsetIrqSet = false then some (.errNotSupport, s)
 else if env.method = .success then
  (destroyOld s (s.ginfos pin)).map fun s => (env.method, s.install pin ⟨none, .value 0⟩)
 else some (env.method, s)

def gpioCntlrIrqCallback (cntlr : GpioCntlr) (s : IrqState) (pin : ℕ) : Option IrqState :=
 if pin < cntlr.count ∧ cntlr.ginfosSet ∧ (s.ginfos pin).irqFunc = some .bridge then
  match (s.ginfos pin).irqData with
  | .bridge b => (s.bridges b).map fun bridge =>
    if bridge.stop then s
    else s.setBridge b (some { bridge with sem := bridge.sem + 1 })
  | .value _ => none
 else some s

/-- One round of `GpioIrqThreadWorker`, once the semaphore is posted. -/
def gpioIrqThreadWorker (s : IrqState) (b : ℕ) : Option IrqState :=
 (s.bridges b).bind fun bridge =>
  if bridge.sem = 0 then none
  else if bridge.stop then
   some { s.setBridge b none with freed := s.freed ++ [b] }
  else some (s.setBridge b (some { bridge with sem := bridge.sem - 1 }))

inductive Step (cntlr : GpioCntlr) : IrqState → IrqState → Prop
 | setIrq {s t : IrqState} (pin mode : ℕ) (func : Option ℕ) (arg : ℕ) (env : IrqEnv)
   (status : HdfStatus) (run : gpioCntlrSetIrq cntlr s pin mode func arg env = some (status, t)) :
   Step cntlr s t
 | unsetIrq {s t : IrqState} (pin : ℕ) (env : IrqEnv) (status : HdfStatus)
   (run : gpioCntlrUnsetIrq cntlr s pin env = some (status, t)) : Step cntlr s t
 | interrupt {s t : IrqState} (pin : ℕ) (run : gpioCntlrIrqCallback cntlr s pin = some t) :
   Step cntlr s t
 | worker {s t : IrqState} (b : ℕ) (run : gpioIrqThreadWorker s b = some t) : Step cntlr s t

inductive Reachable (cntlr : GpioCntlr) : IrqState → Prop
 | start : Reachable cntlr .start
 | step {s t : IrqState} (reached : Reachable cntlr s) (step : Step cntlr s t) : Reachable cntlr t

def bridgeInfo (b : ℕ) : GpioInfo := ⟨some .bridge, .bridge b⟩

/-- Each bridge that runs is the data of one handler, but for `loose`, which is the data of none;
each one that does not run was destroyed once. -/
structure Right (s : IrqState) (loose : Option ℕ) : Prop where
 data : ∀ pin, (s.ginfos pin).irqFunc = some .bridge → ∃ b, s.ginfos pin = bridgeInfo b
 installed : ∀ pin b, s.ginfos pin = bridgeInfo b →
  loose ≠ some b ∧ ∃ o, s.bridges b = some o ∧ o.stop = false ∧ o.pin = pin
 loose_runs : ∀ b, loose = some b → ∃ o, s.bridges b = some o ∧ o.stop = false
 running : ∀ b o, s.bridges b = some o → o.stop = false →
  b ∉ s.destroyed ∧ (s.ginfos o.pin = bridgeInfo b ∨ loose = some b)
 stopping : ∀ b o, s.bridges b = some o → o.stop = true → b ∈ s.destroyed ∧ 0 < o.sem
 gone : ∀ b ∈ s.created, s.bridges b = none → b ∈ s.destroyed ∧ b ∈ s.freed
 live : ∀ b o, s.bridges b = some o → b ∈ s.created
 once : s.destroyed.Nodup
 freed_once : s.freed.Nodup
 freed_gone : ∀ b ∈ s.freed, s.bridges b = none
 destroyed_created : ∀ b ∈ s.destroyed, b ∈ s.created
 created_lt : ∀ b ∈ s.created, b < s.next
 freed_lt : ∀ b ∈ s.freed, b < s.next

variable {s t : IrqState} {loose : Option ℕ} {cntlr : GpioCntlr} {pin b : ℕ}

theorem right_start : Right .start none := by
 constructor <;> simp [IrqState.start, bridgeInfo]

theorem setBridge_self (s : IrqState) (b : ℕ) (bridge : Option GpioIrqBridge) :
  (s.setBridge b bridge).bridges b = bridge := Function.update_self ..

theorem setBridge_other (s : IrqState) {a b : ℕ} (bridge : Option GpioIrqBridge) (other : a ≠ b) :
  (s.setBridge b bridge).bridges a = s.bridges a := Function.update_of_ne other ..

theorem add_self (s : IrqState) (bridge : GpioIrqBridge) :
  (s.add bridge).bridges s.next = some bridge := Function.update_self ..

theorem add_other (s : IrqState) {a : ℕ} (bridge : GpioIrqBridge) (other : a ≠ s.next) :
  (s.add bridge).bridges a = s.bridges a := Function.update_of_ne other ..

theorem setBridge_cases {a : ℕ} {bridge found : Option GpioIrqBridge}
  (h : (s.setBridge b bridge).bridges a = found) :
  a = b ∧ bridge = found ∨ a ≠ b ∧ s.bridges a = found := by
 by_cases same : a = b
 · subst same
   exact .inl ⟨rfl, (setBridge_self ..).symm.trans h⟩
 · exact .inr ⟨same, (setBridge_other s _ same).symm.trans h⟩

theorem add_cases {a : ℕ} {bridge : GpioIrqBridge} {found : Option GpioIrqBridge}
  (h : (s.add bridge).bridges a = found) :
  a = s.next ∧ some bridge = found ∨ a ≠ s.next ∧ s.bridges a = found := by
 by_cases same : a = s.next
 · subst same
   exact .inl ⟨rfl, (add_self s bridge).symm.trans h⟩
 · exact .inr ⟨same, (add_other s bridge same).symm.trans h⟩

theorem Right.fresh (right : Right s loose) : s.bridges s.next = none := by
 rw [Option.eq_none_iff_forall_ne_some]
 exact fun o h => Nat.lt_irrefl _ (right.created_lt _ (right.live _ o h))

theorem Right.freed_other (right : Right s loose) {a : ℕ} {o : GpioIrqBridge}
  (freed : a ∈ s.freed) (ho : s.bridges b = some o) : a ≠ b := by
 rintro rfl
 rw [right.freed_gone a freed] at ho
 cases ho

theorem Right.add (right : Right s none) (bridge : GpioIrqBridge) (runs : bridge.stop = false) :
  Right (s.add bridge) (some s.next) where
 data := right.data
 installed pin' b hb := by
  obtain ⟨-, o, ho, facts⟩ := right.installed pin' b hb
  have other : b ≠ s.next := by
   rintro rfl
   rw [right.fresh] at ho
   cases ho
  exact ⟨fun same => other (Option.some.inj same).symm, o, (add_other s bridge other).trans ho,
   facts⟩
 loose_runs := by
  rintro b ⟨⟩
  exact ⟨bridge, add_self s bridge, runs⟩
 running b o hb run := by
  obtain ⟨rfl, -⟩ | ⟨-, hb⟩ := add_cases hb
  · refine ⟨fun mem => ?_, .inr rfl⟩
    exact Nat.lt_irrefl _ (right.created_lt _ (right.destroyed_created _ mem))
  · obtain ⟨kept, place⟩ := right.running b o hb run
    exact ⟨kept, place.imp_right fun h => by cases h⟩
 stopping b o hb stop := by
  obtain ⟨-, same⟩ | ⟨-, hb⟩ := add_cases hb
  · cases same
    rw [runs] at stop
    cases stop
  · exact right.stopping b o hb stop
 gone b hb out := by
  obtain ⟨-, same⟩ | ⟨other, out⟩ := add_cases out
  · cases same
  · rcases List.mem_append.mp hb with hb | hb
    · exact right.gone b hb out
    · exact absurd (List.mem_singleton.mp hb) other
 live b o hb := by
  obtain ⟨same, -⟩ | ⟨-, hb⟩ := add_cases hb
  · exact List.mem_append_right _ (List.mem_singleton.mpr same)
  · exact List.mem_append_left _ (right.live b o hb)
 once := right.once
 freed_once := right.freed_once
 freed_gone b hb := by
  rw [add_other s bridge (Nat.ne_of_lt (right.freed_lt b hb))]
  exact right.freed_gone b hb
 destroyed_created b hb := List.mem_append_left _ (right.destroyed_created b hb)
 created_lt b hb := by
  rcases List.mem_append.mp hb with hb | hb
  · exact Nat.lt_succ_of_lt (right.created_lt b hb)
  · rw [List.mem_singleton.mp hb]
    exact Nat.lt_succ_self _
 freed_lt b hb := Nat.lt_succ_of_lt (right.freed_lt b hb)

theorem Right.discard (right : Right s loose) : Right s.discard loose := by
 have new : s.next ∉ s.freed := fun mem => Nat.lt_irrefl _ (right.freed_lt _ mem)
 refine
  { right with
   gone := fun b hb out => ?_
   freed_once := ?_
   freed_gone := fun b hb => ?_
   created_lt := fun b hb => Nat.lt_succ_of_lt (right.created_lt b hb)
   freed_lt := fun b hb => ?_ }
 · obtain ⟨first, second⟩ := right.gone b hb out
   exact ⟨first, List.mem_append_left _ second⟩
 · exact List.nodup_append'.mpr ⟨right.freed_once, List.nodup_singleton _, by simpa using new⟩
 · rcases List.mem_append.mp hb with hb | hb
   · exact right.freed_gone b hb
   · rw [List.mem_singleton.mp hb]
     exact right.fresh
 · rcases List.mem_append.mp hb with hb | hb
   · exact Nat.lt_succ_of_lt (right.freed_lt b hb)
   · rw [List.mem_singleton.mp hb]
     exact Nat.lt_succ_self _

theorem Right.create (right : Right s none) (pin : ℕ) (func : Option ℕ) (arg : ℕ) (env : IrqEnv) :
  (gpioIrqBridgeCreate s pin func arg env).2.ginfos = s.ginfos ∧
   Right (gpioIrqBridgeCreate s pin func arg env).2
    (gpioIrqBridgeCreate s pin func arg env).1 ∧
   ∀ b o, (gpioIrqBridgeCreate s pin func arg env).1 = some b →
    (gpioIrqBridgeCreate s pin func arg env).2.bridges b = some o → o.pin = pin := by
 unfold gpioIrqBridgeCreate
 split_ifs
 · exact ⟨rfl, right, by simp⟩
 · refine ⟨rfl, right.add _ rfl, ?_⟩
   rintro b o ⟨⟩ ho
   rw [add_self] at ho
   cases ho
   rfl
 · exact ⟨rfl, right.discard, by simp⟩

theorem Right.destroy (right : Right s (some b)) :
  ∃ t, gpioIrqBridgeDestroy s b = some t ∧ t.ginfos = s.ginfos ∧ Right t none := by
 obtain ⟨o, ho, run⟩ := right.loose_runs b rfl
 have kept := (right.running b o ho run).1
 let stopped : GpioIrqBridge := { o with stop := true, sem := o.sem + 1 }
 refine ⟨{ s.setBridge b (some stopped) with destroyed := s.destroyed ++ [b] }, ?_, rfl, ?_⟩
 · rw [gpioIrqBridgeDestroy, ho, Option.map_some]
   dsimp only
   rw [if_neg (by simp [run])]
   rfl
 refine
  { data := right.data
    installed := fun pin b' hb => ?_
    loose_runs := by simp
    running := fun b' o' hb' run' => ?_
    stopping := fun b' o' hb' stop => ?_
    gone := fun b' hb' out => ?_
    live := fun b' o' hb' => ?_
    once := List.nodup_append'.mpr ⟨right.once, List.nodup_singleton _, by simpa using kept⟩
    freed_once := right.freed_once
    freed_gone := fun b' hb' => ?_
    destroyed_created := fun b' hb' => ?_
    created_lt := right.created_lt
    freed_lt := right.freed_lt }
 · obtain ⟨other, o', ho', facts⟩ := right.installed pin b' hb
   have apart : b' ≠ b := fun same => other (congrArg some same.symm)
   exact ⟨by simp, o', (setBridge_other s _ apart).trans ho', facts⟩
 · obtain ⟨-, same⟩ | ⟨other, hb'⟩ := setBridge_cases hb'
   · cases same
     cases run'
   · obtain ⟨kept', place⟩ := right.running b' o' hb' run'
     refine ⟨fun mem => ?_, .inl (place.resolve_right fun same => other ?_)⟩
     · rcases List.mem_append.mp mem with mem | mem
       · exact kept' mem
       · exact other (List.mem_singleton.mp mem)
     · exact (Option.some.inj same).symm
 · obtain ⟨rfl, same⟩ | ⟨-, hb'⟩ := setBridge_cases hb'
   · cases same
     exact ⟨List.mem_append_right _ (List.mem_singleton_self _), Nat.succ_pos _⟩
   · obtain ⟨mem, posted⟩ := right.stopping b' o' hb' stop
     exact ⟨List.mem_append_left _ mem, posted⟩
 · obtain ⟨-, same⟩ | ⟨-, out⟩ := setBridge_cases out
   · cases same
   · obtain ⟨first, second⟩ := right.gone b' hb' out
     exact ⟨List.mem_append_left _ first, second⟩
 · obtain ⟨rfl, -⟩ | ⟨-, hb'⟩ := setBridge_cases hb'
   · exact right.live b' o ho
   · exact right.live b' o' hb'
 · exact (setBridge_other s _ (right.freed_other hb' ho)).trans (right.freed_gone b' hb')
 · rcases List.mem_append.mp hb' with hb' | hb'
   · exact right.destroyed_created b' hb'
   · rw [List.mem_singleton.mp hb']
     exact right.live b o ho

def GpioInfo.bridge? (info : GpioInfo) : Option ℕ :=
 match info.irqFunc, info.irqData with
 | some .bridge, .bridge b => some b
 | _, _ => none

theorem bridge?_eq_some {info : GpioInfo} : info.bridge? = some b ↔ info = bridgeInfo b := by
 obtain ⟨func, data⟩ := info
 rcases func with _ | (_ | _) <;> cases data <;> simp [GpioInfo.bridge?, bridgeInfo]

theorem Right.install (right : Right s loose) (pin : ℕ) (info : GpioInfo)
  (mine : info.bridge? = loose)
  (func : info.irqFunc = some .bridge → ∃ b, info = bridgeInfo b)
  (place : ∀ b o, loose = some b → s.bridges b = some o → o.pin = pin) :
  Right (s.install pin info) (s.ginfos pin).bridge? := by
 have self : (s.install pin info).ginfos pin = info := Function.update_self ..
 have others : ∀ p, p ≠ pin → (s.install pin info).ginfos p = s.ginfos p :=
  fun p hp => Function.update_of_ne hp ..
 refine
  { right with
   data := fun p hp => ?_
   installed := fun p b hb => ?_
   loose_runs := fun b hb => ?_
   running := fun b o hb run => ?_ }
 · by_cases here : p = pin
   · subst here
     rw [self] at hp ⊢
     exact func hp
   · rw [others p here] at hp ⊢
     exact right.data p hp
 · by_cases here : p = pin
   · subst here
     rw [self] at hb
     rw [bridge?_eq_some.mpr hb] at mine
     obtain ⟨o, ho, run⟩ := right.loose_runs b mine.symm
     refine ⟨fun old => ?_, o, ho, run, place b o mine.symm ho⟩
     exact (right.installed p b (bridge?_eq_some.mp old)).1 mine.symm
   rw [others p here] at hb
   obtain ⟨-, o, ho, run, hpin⟩ := right.installed p b hb
   refine ⟨fun old => ?_, o, ho, run, hpin⟩
   obtain ⟨-, o', ho', -, hpin'⟩ := right.installed pin b (bridge?_eq_some.mp old)
   rw [ho] at ho'
   cases ho'
   exact here (hpin.symm.trans hpin')
 · obtain ⟨-, o, ho, run, -⟩ := right.installed pin b (bridge?_eq_some.mp hb)
   exact ⟨o, ho, run⟩
 · obtain ⟨kept, placed⟩ := right.running b o hb run
   refine ⟨kept, ?_⟩
   rcases placed with placed | isLoose
   · by_cases here : o.pin = pin
     · rw [here] at placed
       exact .inr (bridge?_eq_some.mpr placed)
     · exact .inl ((others _ here).trans placed)
   · rw [place b o isLoose hb]
     exact .inl (self.trans (bridge?_eq_some.mp (mine.trans isLoose)))

theorem Right.destroyOld {old : GpioInfo} (right : Right s old.bridge?)
  (func : old.irqFunc = some .bridge → ∃ b, old = bridgeInfo b) :
  ∃ t, destroyOld s old = some t ∧ t.ginfos = s.ginfos ∧ Right t none := by
 unfold GpioIrq.destroyOld
 by_cases threaded : old.irqFunc = some .bridge
 · obtain ⟨b, rfl⟩ := func threaded
   rw [if_pos threaded]
   exact Right.destroy right
 rw [if_neg threaded]
 have alone : old.bridge? = none := by
  rw [Option.eq_none_iff_forall_ne_some]
  intro b h
  rw [bridge?_eq_some.mp h] at threaded
  exact threaded rfl
 rw [alone] at right
 exact ⟨s, rfl, rfl, right⟩

theorem install_install (s : IrqState) (pin : ℕ) (info : GpioInfo) :
  (s.install pin info).install pin (s.ginfos pin) = s := by
 unfold IrqState.install
 rw [Function.update_idem, Function.update_eq_self]

theorem Right.setIrq (right : Right s none) (cntlr : GpioCntlr) (pin mode : ℕ) (func : Option ℕ)
  (arg : ℕ) (env : IrqEnv) :
  ∃ status t, gpioCntlrSetIrq cntlr s pin mode func arg env = some (status, t) ∧
   Right t none ∧ (status ≠ .success → t.ginfos = s.ginfos) := by
 unfold gpioCntlrSetIrq
 by_cases noInfos : cntlr.ginfosSet = false
 · rw [if_pos noInfos]
   exact ⟨_, _, rfl, right, fun _ => rfl⟩
 rw [if_neg noInfos]
 by_cases beyond : cntlr.count ≤ pin
 · rw [if_pos beyond]
   exact ⟨_, _, rfl, right, fun _ => rfl⟩
 rw [if_neg beyond]
 by_cases noMethod : cntlr.setIrqSet = false
 · rw [if_pos noMethod]
   exact ⟨_, _, rfl, right, fun _ => rfl⟩
 rw [if_neg noMethod]
 by_cases threaded : mode &&& gpioIrqUsingThread ≠ 0
 · dsimp only
   rw [if_pos threaded]
   obtain ⟨same, created, place⟩ := right.create pin func arg env
   revert same created place
   generalize gpioIrqBridgeCreate s pin func arg env = out
   obtain ⟨bridge, s₁⟩ := out
   intro same created place
   dsimp only at same created place ⊢
   cases bridge with
   | none =>
    rw [if_pos ⟨threaded, rfl⟩]
    exact ⟨_, _, rfl, created, fun _ => same⟩
   | some b =>
    rw [if_neg (by simp)]
    dsimp only
    by_cases works : env.method = .success
    · rw [if_pos works]
      have installed := created.install pin (bridgeInfo b)
       (bridge?_eq_some.mpr rfl) (fun _ => ⟨b, rfl⟩) fun b' o hb => place b' o hb
      obtain ⟨t, run, -, after⟩ := installed.destroyOld (created.data pin)
      exact ⟨_, t, by rw [← bridgeInfo, run]; rfl, after, fun failed => absurd works failed⟩
    · rw [if_neg works]
      obtain ⟨t, run, kept, after⟩ := created.destroy
      refine ⟨_, t, by rw [install_install, run]; rfl, after, fun _ => kept.trans same⟩
 · dsimp only
   rw [if_neg threaded]
   dsimp only
   rw [if_neg (by simp [threaded])]
   by_cases works : env.method = .success
   · rw [if_pos works]
     have direct : (GpioInfo.mk (func.map .user) (.value arg)).irqFunc ≠ some .bridge := by
      cases func <;> simp
     have installed := right.install pin ⟨func.map .user, .value arg⟩
      (by cases func <;> rfl) (fun h => absurd h direct) (by simp)
     obtain ⟨t, run, -, after⟩ := installed.destroyOld (right.data pin)
     exact ⟨_, t, by rw [run]; rfl, after, fun failed => absurd works failed⟩
   · rw [if_neg works]
     exact ⟨_, _, rfl, by rwa [install_install], fun _ => by rw [install_install]⟩

theorem destroyOld_install (s : IrqState) (pin : ℕ) (old info : GpioInfo) :
  (destroyOld s old).map (fun t => t.install pin info) = destroyOld (s.install pin info) old := by
 unfold destroyOld
 by_cases threaded : old.irqFunc = some .bridge
 · rw [if_pos threaded, if_pos threaded]
   cases old.irqData with
   | value arg => rfl
   | bridge b =>
    unfold gpioIrqBridgeDestroy
    have same : (s.install pin info).bridges b = s.bridges b := rfl
    dsimp only
    rw [same]
    cases s.bridges b with
    | none => rfl
    | some o =>
     rw [Option.map_some, Option.map_some, Option.map_some]
     split_ifs <;> rfl
 · rw [if_neg threaded, if_neg threaded]
   rfl

theorem Right.unsetIrq (right : Right s none) (cntlr : GpioCntlr) (pin : ℕ) (env : IrqEnv) :
  ∃ status t, gpioCntlrUnsetIrq cntlr s pin env = some (status, t) ∧ Right t none := by
 unfold gpioCntlrUnsetIrq
 split_ifs with noInfos beyond noMethod works
 · exact ⟨_, _, rfl, right⟩
 · exact ⟨_, _, rfl, right⟩
 · exact ⟨_, _, rfl, right⟩
 · have cleared := right.install pin ⟨none, .value 0⟩ rfl (by simp) (by simp)
   obtain ⟨t, run, -, after⟩ := cleared.destroyOld (right.data pin)
   rw [← destroyOld_install] at run
   obtain ⟨u, hu, rfl⟩ := Option.map_eq_some_iff.mp run
   exact ⟨_, _, by rw [hu]; rfl, after⟩
 · exact ⟨_, _, rfl, right⟩

theorem Right.setSem (right : Right s none) {o : GpioIrqBridge} (ho : s.bridges b = some o)
  (run : o.stop = false) (sem : ℕ) :
  Right (s.setBridge b (some { o with sem := sem })) none := by
 refine
  { right with
   installed := fun pin b' hb => ?_
   running := fun b' o' hb' run' => ?_
   stopping := fun b' o' hb' stop => ?_
   gone := fun b' hb' out => ?_
   live := fun b' o' hb' => ?_
   freed_gone := fun b' hb' => ?_
   loose_runs := by simp }
 · obtain ⟨-, o', ho', facts⟩ := right.installed pin b' hb
   refine ⟨by simp, ?_⟩
   by_cases other : b' = b
   · subst other
     rw [ho] at ho'
     cases ho'
     exact ⟨_, setBridge_self .., facts⟩
   · exact ⟨o', (setBridge_other s _ other).trans ho', facts⟩
 · obtain ⟨rfl, same⟩ | ⟨-, hb'⟩ := setBridge_cases hb'
   · cases same
     exact right.running b' o ho run
   · exact right.running b' o' hb' run'
 · obtain ⟨-, same⟩ | ⟨-, hb'⟩ := setBridge_cases hb'
   · cases same
     rw [run] at stop
     cases stop
   · exact right.stopping b' o' hb' stop
 · obtain ⟨-, same⟩ | ⟨-, out⟩ := setBridge_cases out
   · cases same
   · exact right.gone b' hb' out
 · obtain ⟨rfl, -⟩ | ⟨-, hb'⟩ := setBridge_cases hb'
   · exact right.live b' o ho
   · exact right.live b' o' hb'
 · exact (setBridge_other s _ (right.freed_other hb' ho)).trans (right.freed_gone b' hb')

theorem Right.interrupt (right : Right s none) (cntlr : GpioCntlr) (pin : ℕ) :
  ∃ t, gpioCntlrIrqCallback cntlr s pin = some t ∧ Right t none := by
 unfold gpioCntlrIrqCallback
 split_ifs with reached
 · obtain ⟨b, hb⟩ := right.data pin reached.2.2
   obtain ⟨-, o, ho, run, -⟩ := right.installed pin b hb
   refine ⟨s.setBridge b (some { o with sem := o.sem + 1 }), ?_, right.setSem ho run _⟩
   rw [hb, bridgeInfo]
   dsimp only
   rw [ho, Option.map_some, if_neg (by simp [run])]
 · exact ⟨s, rfl, right⟩

theorem Right.free (right : Right s none) {o : GpioIrqBridge} (ho : s.bridges b = some o)
  (stop : o.stop = true) : Right { s.setBridge b none with freed := s.freed ++ [b] } none := by
 have alive : b ∉ s.freed := by
  intro mem
  rw [right.freed_gone b mem] at ho
  cases ho
 have others : ∀ a o', ({ s.setBridge b none with freed := s.freed ++ [b] } : IrqState).bridges a =
   some o' → s.bridges a = some o' := by
  intro a o' ha
  obtain ⟨-, same⟩ | ⟨-, ha⟩ := setBridge_cases ha
  · cases same
  · exact ha
 refine
  { right with
   installed := fun pin b' hb => ?_
   running := fun b' o' hb' => right.running b' o' (others b' o' hb')
   stopping := fun b' o' hb' => right.stopping b' o' (others b' o' hb')
   gone := fun b' hb' out => ?_
   live := fun b' o' hb' => right.live b' o' (others b' o' hb')
   freed_once := List.nodup_append'.mpr ⟨right.freed_once, List.nodup_singleton _,
    by simpa using alive⟩
   freed_gone := fun b' hb' => ?_
   freed_lt := fun b' hb' => ?_
   loose_runs := by simp }
 · obtain ⟨-, o', ho', run, hpin⟩ := right.installed pin b' hb
   have other : b' ≠ b := by
    rintro rfl
    rw [ho] at ho'
    cases ho'
    rw [run] at stop
    cases stop
   exact ⟨by simp, o', (setBridge_other s _ other).trans ho', run, hpin⟩
 · obtain ⟨rfl, -⟩ | ⟨-, out⟩ := setBridge_cases out
   · exact ⟨(right.stopping b' o ho stop).1, List.mem_append_right _ (List.mem_singleton_self _)⟩
   · obtain ⟨first, second⟩ := right.gone b' hb' out
     exact ⟨first, List.mem_append_left _ second⟩
 · change (s.setBridge b none).bridges b' = none
   by_cases other : b' = b
   · subst other
     exact setBridge_self ..
   · rw [setBridge_other s _ other]
     rcases List.mem_append.mp hb' with hb' | hb'
     · exact right.freed_gone b' hb'
     · exact absurd (List.mem_singleton.mp hb') other
 · rcases List.mem_append.mp hb' with hb' | hb'
   · exact right.freed_lt b' hb'
   · rw [List.mem_singleton.mp hb']
     exact right.created_lt b (right.live b o ho)

theorem Right.worker (right : Right s none) (run : gpioIrqThreadWorker s b = some t) :
  Right t none := by
 obtain ⟨o, ho, round⟩ := Option.bind_eq_some_iff.mp run
 split_ifs at round with idle stop
 · cases round
   exact right.free ho stop
 · cases round
   exact right.setSem ho (by simpa using stop) _

theorem Right.step (right : Right s none) (step : Step cntlr s t) : Right t none := by
 cases step with
 | setIrq pin mode func arg env status run =>
  obtain ⟨_, _, run', after, _⟩ := right.setIrq cntlr pin mode func arg env
  rw [run] at run'
  cases run'
  exact after
 | unsetIrq pin env status run =>
  obtain ⟨_, _, run', after⟩ := right.unsetIrq cntlr pin env
  rw [run] at run'
  cases run'
  exact after
 | interrupt pin run =>
  obtain ⟨_, run', after⟩ := right.interrupt cntlr pin
  rw [run] at run'
  cases run'
  exact after
 | worker b run => exact right.worker run

theorem Reachable.right (reached : Reachable cntlr s) : Right s none := by
 induction reached with
 | start => exact right_start
 | step _ step ih => exact ih.step step

/-- In every run: a call that fails leaves all handlers as they were; a bridge that was created is
the data of a handler, or it was destroyed, once, and its thread frees it or has done so, once; one
that is the data of a handler runs; and no call reaches a bridge that is gone. -/
theorem irq_bridges_right (reached : Reachable cntlr s) :
    (∀ pin mode func arg env, ∃ status t,
      gpioCntlrSetIrq cntlr s pin mode func arg env = some (status, t) ∧
        (status ≠ .success → t.ginfos = s.ginfos)) ∧
    (∀ pin env, ∃ status t, gpioCntlrUnsetIrq cntlr s pin env = some (status, t)) ∧
    (∀ b ∈ s.created, b ∈ s.destroyed ↔ ¬ ∃ pin, s.ginfos pin = bridgeInfo b) ∧
    (∀ pin b, s.ginfos pin = bridgeInfo b →
      b ∉ s.destroyed ∧ ∃ o, s.bridges b = some o ∧ o.stop = false ∧ o.pin = pin) ∧
    s.destroyed.Nodup ∧ s.freed.Nodup ∧
    ∀ b ∈ s.destroyed, b ∈ s.freed ∨ ∃ o, s.bridges b = some o ∧ o.stop = true ∧ 0 < o.sem := by
  have right := reached.right
  have used : ∀ pin b, s.ginfos pin = bridgeInfo b →
      b ∉ s.destroyed ∧ ∃ o, s.bridges b = some o ∧ o.stop = false ∧ o.pin = pin := by
    intro pin b hb
    obtain ⟨-, o, ho, run, hpin⟩ := right.installed pin b hb
    exact ⟨(right.running b o ho run).1, o, ho, run, hpin⟩
  have place : ∀ b ∈ s.destroyed, b ∈ s.freed ∨
      ∃ o, s.bridges b = some o ∧ o.stop = true ∧ 0 < o.sem := by
    intro b hb
    cases ho : s.bridges b with
    | none => exact .inl (right.gone b (right.destroyed_created b hb) ho).2
    | some o =>
      cases stop : o.stop with
      | false => exact absurd hb (right.running b o ho stop).1
      | true => exact .inr ⟨o, rfl, stop, (right.stopping b o ho stop).2⟩
  refine ⟨fun pin mode func arg env => ?_, fun pin env => ?_, fun b hb => ⟨?_, fun free => ?_⟩, used,
    right.once, right.freed_once, place⟩
  · obtain ⟨status, t, run, -, kept⟩ := right.setIrq cntlr pin mode func arg env
    exact ⟨status, t, run, kept⟩
  · obtain ⟨status, t, run, -⟩ := right.unsetIrq cntlr pin env
    exact ⟨status, t, run⟩
  · rintro destroyed ⟨pin, hpin⟩
    exact (used pin b hpin).1 destroyed
  · cases ho : s.bridges b with
    | none => exact (right.gone b hb ho).1
    | some o =>
      cases stop : o.stop with
      | true => exact (right.stopping b o ho stop).1
      | false =>
        rcases (right.running b o ho stop).2 with installed | isLoose
        · exact absurd ⟨o.pin, installed⟩ free
        · cases isLoose

/-- A handler in a thread takes the place of another: the first bridge is destroyed, the second
one is not. -/
theorem irq_bridges_right_twice :
    ∃ s, Reachable ⟨1, true, true, true⟩ s ∧ s.created = [0, 1] ∧ s.destroyed = [0] ∧
      s.destroyed.Nodup ∧ s.freed.Nodup := by
  let works : IrqEnv := ⟨true, true, true, true, true, true, .success⟩
  have first : ∃ t, gpioCntlrSetIrq ⟨1, true, true, true⟩ .start 0 256 (some 7) 3 works =
      some (.success, t) := ⟨_, rfl⟩
  obtain ⟨t, run⟩ := first
  have second : ∃ u, gpioCntlrSetIrq ⟨1, true, true, true⟩ t 0 256 (some 8) 4 works =
      some (.success, u) ∧ u.created = [0, 1] ∧ u.destroyed = [0] := by
    cases run
    exact ⟨_, rfl, rfl, rfl⟩
  obtain ⟨u, run', created, destroyed⟩ := second
  have reached : Reachable ⟨1, true, true, true⟩ u :=
    (Reachable.start.step (.setIrq 0 256 (some 7) 3 works _ run)).step
      (.setIrq 0 256 (some 8) 4 works _ run')
  obtain ⟨-, -, -, -, once, freed, -⟩ := irq_bridges_right reached
  exact ⟨u, reached, created, destroyed, once, freed⟩

end DriversFramework.GpioIrq
