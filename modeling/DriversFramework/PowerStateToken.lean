import Mathlib.Algebra.Group.Nat.Defs
import Mathlib.Data.List.Basic
import DriversFramework.HdfBase

/-! The token of a device node, with the reference count behind its wake lock. The
calls of the clients are cut where the source reads or updates the count; what
a call does between two such points is one step. -/
namespace DriversFramework.Power

inductive HdfPowerState where
 | dozeResume
 | dozeSuspend
 | resume
 | suspend
 deriving DecidableEq

def HdfPowerState.isPowerWakeState : HdfPowerState → Bool
 | .dozeResume | .resume => true
 | .dozeSuspend | .suspend => false

inductive HdfPsmState where
 | idle
 | active
 | inactive
 deriving DecidableEq

inductive PowerManagementMode where
 | sysCtrl
 | dynamicCtrl
 | modeMax
 deriving DecidableEq

abbrev IPowerEventListener := HdfPowerState → Bool

structure PowerStateToken where
 listener : Option IPowerEventListener
 refs : UInt32
 psmState : HdfPsmState
 mode : PowerManagementMode

def powerStateTokenConstruct (listener : Option IPowerEventListener)
  (mode : PowerManagementMode) : PowerStateToken :=
 ⟨listener, 0, .idle, mode⟩

def PowerStateToken.callback (token : PowerStateToken) (event : HdfPowerState) :
  List HdfPowerState :=
 match token.listener with
 | some listener => if listener event then [event] else []
 | none => []

def powerStateTokenOnFirstAcquire (token : PowerStateToken) :
  List HdfPowerState × PowerStateToken :=
 if token.psmState = .active then ([], token)
 else
  (if token.psmState = .inactive ∨ token.psmState = .idle then token.callback .resume else [],
   { token with psmState := .active })

def powerStateTokenOnLastRelease (token : PowerStateToken) :
  List HdfPowerState × PowerStateToken :=
 if token.psmState ≠ .active ∧ token.psmState ≠ .idle then ([], token)
 else (token.callback .suspend, { token with psmState := .inactive })

def powerStateChange (token : PowerStateToken) (pEvent : HdfPowerState) : List HdfPowerState :=
 if token.mode ≠ .sysCtrl then [] else token.callback pEvent

inductive CallState where
 | out
 /-- `HdfSRefAcquire` has incremented the count and not read it. -/
 | acquired
 /-- It has read 1. -/
 | firstAcquire
 /-- The count was not 0 when the release began. -/
 | releasing
 /-- `HdfSRefRelease` has decremented the count and not read it. -/
 | released
 /-- The count was 0, at the beginning of the release or after its decrement. -/
 | lastRelease
 deriving DecidableEq

/-- The token among its clients: where each of them is, the acquisitions that
are not released, and the callbacks made so far, the latest first. -/
structure System where
 token : PowerStateToken
 pc : ℕ → CallState
 held : List ℕ
 log : List HdfPowerState

def System.start (listener : Option IPowerEventListener) (mode : PowerManagementMode) : System :=
 ⟨powerStateTokenConstruct listener mode, fun _ => .out, [], []⟩

inductive Action where
 | acquire (client : ℕ)
 | release (client : ℕ)
 /-- A client in a call goes on to its next step. -/
 | advance (client : ℕ)
 | notify (event : HdfPowerState)
 deriving DecidableEq

def System.goto (s : System) (c : ℕ) (state : CallState) : System :=
 { s with pc := Function.update s.pc c state }

def System.handle (s : System) (c : ℕ)
  (handler : PowerStateToken → List HdfPowerState × PowerStateToken) : System :=
 let done := handler s.token
 { s.goto c .out with token := done.2, log := done.1 ++ s.log }

/-- A client starts a call only when it is in none, and goes on only in one. -/
def System.step (s : System) : Action → Option System
 | .acquire c =>
  if s.pc c ≠ .out then none
  else if s.token.mode ≠ .dynamicCtrl then some { s with held := c :: s.held }
  else
   some { s.goto c .acquired with
    token := { s.token with refs := s.token.refs + 1 }, held := c :: s.held }
 | .release c =>
  if s.pc c ≠ .out then none
  else if s.token.mode ≠ .dynamicCtrl then some { s with held := s.held.erase c }
  else if s.token.refs = 0 then some (s.goto c .lastRelease)
  else some (s.goto c .releasing)
 | .advance c =>
  match s.pc c with
  | .out => none
  | .acquired => some (s.goto c (if s.token.refs = 1 then .firstAcquire else .out))
  | .firstAcquire => some (s.handle c powerStateTokenOnFirstAcquire)
  | .releasing =>
   some { s.goto c .released with
    token := { s.token with refs := s.token.refs - 1 }, held := s.held.erase c }
  | .released => some (s.goto c (if s.token.refs = 0 then .lastRelease else .out))
  | .lastRelease => some (s.handle c powerStateTokenOnLastRelease)
 | .notify event => some { s with log := powerStateChange s.token event ++ s.log }

end DriversFramework.Power
