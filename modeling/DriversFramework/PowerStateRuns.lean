import Mathlib.Data.List.Chain
import DriversFramework.PowerStateToken
import DriversFramework.RunRules

/-! A device that is held and not active needs a client on its way to resume it; a
device that is active and not held needs one on its way to suspend it. A client
that reads the count too late, or suspends too late, breaks this. -/
namespace DriversFramework.Power
open RunRules

def System.switches (s : System) : List HdfPowerState :=
 s.log.filter fun event => event = .resume ∨ event = .suspend

def System.resumed (s : System) : Prop := s.switches.head? = some .resume

def System.quiet (s : System) : Prop := ∀ c, s.pc c = .out

/-- Resume and Suspend alternate; and when no call is in progress, the device is
resumed if and only if a client holds the token. -/
def System.WakeLocked (s : System) : Prop :=
 s.switches.IsChain (· ≠ ·) ∧ (s.quiet → (s.resumed ↔ s.held ≠ []))

def System.Waking (s : System) (c : ℕ) : Prop :=
 s.pc c = .acquired ∨ s.pc c = .firstAcquire

def System.Leaving (s : System) (c : ℕ) : Prop :=
 s.pc c = .released ∨ s.pc c = .lastRelease

/-- The conditions under which a step does no harm. A client releases what it
holds, or nothing is held; an acquisition whose read comes after that of
another one finds the device active or leaves the resuming to a third; a
suspension that comes after a new acquisition is followed by a resumption.
Under system control nobody acquires, and the device is suspended once. -/
def InTime (s : System) : Action → Prop
 | .acquire _ => s.token.mode = .dynamicCtrl ∧ s.held.length < 2 ^ 32 - 1
 | .release c => c ∈ s.held ∨ s.held = []
 | .advance c =>
  (s.pc c = .acquired → s.token.refs = 1 ∨ s.token.psmState = .active ∨
   ∃ d, d ≠ c ∧ s.Waking d) ∧
  (s.pc c = .lastRelease → s.token.refs = 0 ∨ s.token.psmState = .inactive ∨ ∃ d, s.Waking d)
 | .notify event =>
  s.token.mode = .sysCtrl → event ≠ .resume ∧ (event = .suspend → s.switches = [])

def Recorded (psmState : HdfPsmState) (switches : List HdfPowerState) : Prop :=
 match psmState with
 | .idle => switches = []
 | .active => switches.head? = some .resume
 | .inactive => switches.head? = some .suspend

structure Dynamic (s : System) : Prop where
 mode : s.token.mode = .dynamicCtrl
 listener : s.token.listener = some fun _ => true
 chain : s.switches.IsChain (· ≠ ·)
 recorded : Recorded s.token.psmState s.switches
 counted : s.token.refs = UInt32.ofNat s.held.length
 small : s.held.length < 2 ^ 32
 owner : ∀ c, s.Waking c ∨ s.pc c = .releasing → c ∈ s.held
 up : s.held ≠ [] → s.token.psmState ≠ .active → ∃ c, s.Waking c
 down : s.held = [] → s.token.psmState = .active → ∃ c, s.Leaving c

structure Passive (s : System) : Prop where
 mode : s.token.mode ≠ .dynamicCtrl
 listener : s.token.listener = some fun _ => true
 quiet : s.quiet
 held : s.held = []
 switches : s.switches = [] ∨ s.switches = [.suspend]

def Inv (s : System) : Prop := Dynamic s ∨ Passive s

section Facts
variable {s : System}

theorem Dynamic.refs_zero (h : Dynamic s) : s.token.refs = 0 ↔ s.held = [] := by
 rw [h.counted, ← UInt32.toNat_inj, UInt32.toNat_ofNat', Nat.mod_eq_of_lt h.small]
 exact List.length_eq_zero_iff

theorem Dynamic.resumed_iff (h : Dynamic s) : s.resumed ↔ s.token.psmState = .active := by
 have recorded := h.recorded
 rw [System.resumed]
 cases state : s.token.psmState <;> rw [state] at recorded
 · rw [show s.switches = [] from recorded]
   simp
 · exact iff_of_true recorded rfl
 · rw [show s.switches.head? = some .suspend from recorded]
   simp

theorem Dynamic.wakeLocked (h : Dynamic s) : s.WakeLocked := by
 refine ⟨h.chain, ?_⟩
 intro quiet
 rw [h.resumed_iff]
 constructor
 · intro active free
   obtain ⟨c, leaving⟩ := h.down free active
   rw [System.Leaving, quiet c] at leaving
   rcases leaving with out | out <;> cases out
 · intro held
   by_contra passive
   obtain ⟨c, waking⟩ := h.up held passive
   rw [System.Waking, quiet c] at waking
   rcases waking with out | out <;> cases out

theorem Passive.wakeLocked (h : Passive s) : s.WakeLocked := by
 rw [System.WakeLocked, System.resumed, h.held]
 rcases h.switches with none | one
 · simp [none]
 · simp [one]

theorem Inv.wakeLocked (h : Inv s) : s.WakeLocked := by
 rcases h with dynamic | passive
 · exact dynamic.wakeLocked
 · exact passive.wakeLocked

end Facts

section Moves
variable {s : System} {c d : ℕ} {state : CallState}

theorem goto_pc_self : (s.goto c state).pc c = state := Function.update_self _ _ _

theorem goto_pc_other (h : d ≠ c) : (s.goto c state).pc d = s.pc d := Function.update_of_ne h _ _

theorem Dynamic.goto (h : Dynamic s)
  (howner : state = .acquired ∨ state = .firstAcquire ∨ state = .releasing → c ∈ s.held)
  (hup : s.held ≠ [] → s.token.psmState ≠ .active → s.Waking c →
   (state = .acquired ∨ state = .firstAcquire) ∨ ∃ d, d ≠ c ∧ s.Waking d)
  (hdown : s.held = [] → s.token.psmState = .active → s.Leaving c →
   state = .released ∨ state = .lastRelease) : Dynamic (s.goto c state) where
 mode := h.mode
 listener := h.listener
 chain := h.chain
 recorded := h.recorded
 counted := h.counted
 small := h.small
 owner d hd := by
  by_cases same : d = c
  · subst same
    simp only [System.Waking, goto_pc_self] at hd
    exact howner (by tauto)
  · simp only [System.Waking, goto_pc_other same] at hd
    exact h.owner d hd
 up held passive := by
  obtain ⟨d, waking⟩ := h.up held passive
  by_cases same : d = c
  · subst same
    rcases hup held passive waking with here | ⟨e, other, there⟩
    · exact ⟨d, by simpa only [System.Waking, goto_pc_self] using here⟩
    · exact ⟨e, by simpa only [System.Waking, goto_pc_other other] using there⟩
  · exact ⟨d, by simpa only [System.Waking, goto_pc_other same] using waking⟩
 down free active := by
  obtain ⟨d, leaving⟩ := h.down free active
  by_cases same : d = c
  · subst same
    exact ⟨d, by simpa only [System.Leaving, goto_pc_self] using hdown free active leaving⟩
  · exact ⟨d, by simpa only [System.Leaving, goto_pc_other same] using leaving⟩

theorem Dynamic.acquire (h : Dynamic s) (hlength : s.held.length < 2 ^ 32 - 1) :
  Dynamic { s.goto c .acquired with
   token := { s.token with refs := s.token.refs + 1 }, held := c :: s.held } where
 mode := h.mode
 listener := h.listener
 chain := h.chain
 recorded := h.recorded
 counted := by
  dsimp only
  rw [h.counted, List.length_cons, UInt32.ofNat_add]
  rfl
 small := by
  rw [List.length_cons]
  omega
 owner d hd := by
  by_cases same : d = c
  · rw [same]
    exact List.mem_cons_self
  · have before : s.Waking d ∨ s.pc d = .releasing := by
     have pc := @goto_pc_other s c d .acquired same
     rw [← pc, System.Waking, ← pc]
     exact hd
    exact List.mem_cons_of_mem _ (h.owner d before)
 up _ _ := ⟨c, Or.inl goto_pc_self⟩
 down free := by cases free

theorem Dynamic.release (h : Dynamic s) (hpc : s.pc c = .releasing) :
  Dynamic { s.goto c .released with
   token := { s.token with refs := s.token.refs - 1 }, held := s.held.erase c } := by
 have member : c ∈ s.held := h.owner c (Or.inr hpc)
 have length := List.length_erase_of_mem member
 have positive := List.length_pos_of_mem member
 exact {
  mode := h.mode
  listener := h.listener
  chain := h.chain
  recorded := h.recorded
  counted := by
   have split : s.held.length = (s.held.erase c).length + 1 := by omega
   dsimp only
   rw [h.counted, split, UInt32.ofNat_add]
   exact UInt32.add_sub_cancel _ _
  small := by
   have small := h.small
   dsimp only
   omega
  owner := by
   intro d hd
   by_cases same : d = c
   · have pc := @goto_pc_self s d .released
     rw [← same] at hd
     rcases hd with (hd | hd) | hd <;> cases pc.symm.trans hd
   · have before : s.Waking d ∨ s.pc d = .releasing := by
      have pc := @goto_pc_other s c d .released same
      rw [← pc, System.Waking, ← pc]
      exact hd
     exact (List.mem_erase_of_ne same).mpr (h.owner d before)
  up := by
   intro held passive
   obtain ⟨d, waking⟩ := h.up (List.ne_nil_of_mem member) passive
   have other : d ≠ c := by
    rintro rfl
    rw [System.Waking, hpc] at waking
    rcases waking with wrong | wrong <;> cases wrong
   exact ⟨d, by simpa only [System.Waking, goto_pc_other other] using waking⟩
  down := fun _ _ => ⟨c, Or.inl goto_pc_self⟩ }

theorem Dynamic.callback (h : Dynamic s) (event : HdfPowerState) :
  s.token.callback event = [event] := by
 rw [PowerStateToken.callback, h.listener]
 rfl

theorem Dynamic.switch (h : Dynamic s) {event : HdfPowerState} {psmState : HdfPsmState}
  (hrecorded : event = .resume ∧ psmState = .active ∨ event = .suspend ∧ psmState = .inactive)
  (hnew : s.token.psmState ≠ psmState)
  (hup : s.held ≠ [] → psmState ≠ .active → ∃ d, d ≠ c ∧ s.Waking d)
  (hdown : s.held = [] → psmState ≠ .active) :
  Dynamic { s.goto c .out with
   token := { s.token with psmState }, log := event :: s.log } := by
 have kept : decide (event = .resume ∨ event = .suspend) = true := by
  rcases hrecorded with ⟨rfl, -⟩ | ⟨rfl, -⟩ <;> rfl
 have switches : System.switches { s.goto c .out with
   token := { s.token with psmState }, log := event :: s.log } = event :: s.switches :=
  List.filter_cons_of_pos kept
 have head : ∀ last ∈ s.switches.head?, event ≠ last := by
  have recorded := h.recorded
  intro last hlast clash
  rw [Option.mem_def] at hlast
  subst clash
  cases state : s.token.psmState <;> rw [state] at recorded hnew <;>
   simp only [Recorded] at recorded
  · rw [recorded] at hlast
    cases hlast
  · rw [recorded] at hlast
    rcases hrecorded with ⟨rfl, rfl⟩ | ⟨rfl, rfl⟩
    · exact hnew rfl
    · cases hlast
  · rw [recorded] at hlast
    rcases hrecorded with ⟨rfl, rfl⟩ | ⟨rfl, rfl⟩
    · cases hlast
    · exact hnew rfl
 exact {
  mode := h.mode
  listener := h.listener
  chain := by
   rw [switches, List.isChain_cons]
   exact ⟨head, h.chain⟩
  recorded := by
   rw [switches]
   rcases hrecorded with ⟨rfl, rfl⟩ | ⟨rfl, rfl⟩ <;> rfl
  counted := h.counted
  small := h.small
  owner := by
   intro d hd
   by_cases same : d = c
   · have pc := @goto_pc_self s d .out
     rw [← same] at hd
     rcases hd with (hd | hd) | hd <;> cases pc.symm.trans hd
   · have before : s.Waking d ∨ s.pc d = .releasing := by
      have pc := @goto_pc_other s c d .out same
      rw [← pc, System.Waking, ← pc]
      exact hd
     exact h.owner d before
  up := by
   intro held passive
   obtain ⟨d, other, waking⟩ := hup held passive
   exact ⟨d, by simpa only [System.Waking, goto_pc_other other] using waking⟩
  down := fun free active => absurd active (hdown free) }

end Moves

section Steps
variable {s t : System} {c : ℕ}

theorem Dynamic.firstAcquire (h : Dynamic s) (hpc : s.pc c = .firstAcquire) :
  Dynamic (s.handle c powerStateTokenOnFirstAcquire) := by
 have member := h.owner c (Or.inl (Or.inr hpc))
 rw [System.handle, powerStateTokenOnFirstAcquire]
 by_cases active : s.token.psmState = .active
 · rw [if_pos active]
   apply @Dynamic.goto s c .out h
   · rintro (wrong | wrong | wrong) <;> cases wrong
   · exact fun _ passive => absurd active passive
   · exact fun free => absurd free (List.ne_nil_of_mem member)
 have resting : s.token.psmState = .inactive ∨ s.token.psmState = .idle := by
  cases state : s.token.psmState
  · exact Or.inr rfl
  · exact absurd state active
  · exact Or.inl rfl
 rw [if_neg active, if_pos resting, h.callback]
 apply h.switch (Or.inl ⟨rfl, rfl⟩) active
 · exact fun _ passive => absurd rfl passive
 · exact fun free => absurd free (List.ne_nil_of_mem member)

theorem Dynamic.lastRelease (h : Dynamic s) (hpc : s.pc c = .lastRelease)
  (inTime : s.token.refs = 0 ∨ s.token.psmState = .inactive ∨ ∃ d, s.Waking d) :
  Dynamic (s.handle c powerStateTokenOnLastRelease) := by
 rw [System.handle, powerStateTokenOnLastRelease]
 by_cases inactive : s.token.psmState = .inactive
 · rw [if_pos (by rw [inactive]; exact ⟨nofun, nofun⟩)]
   apply @Dynamic.goto s c .out h
   · rintro (wrong | wrong | wrong) <;> cases wrong
   · rintro - - (wrong | wrong) <;> cases hpc.symm.trans wrong
   · intro _ active
     cases inactive.symm.trans active
 have running : ¬(s.token.psmState ≠ .active ∧ s.token.psmState ≠ .idle) := by
  rintro ⟨notActive, notIdle⟩
  cases state : s.token.psmState
  · exact notIdle state
  · exact notActive state
  · exact inactive state
 rw [if_neg running, h.callback]
 apply h.switch (Or.inr ⟨rfl, rfl⟩) inactive
 · intro held _
   rcases inTime with zero | wrong | ⟨d, waking⟩
   · exact absurd (h.refs_zero.mp zero) held
   · exact absurd wrong inactive
   · refine ⟨d, ?_, waking⟩
     rintro rfl
     rcases waking with wrong | wrong <;> cases hpc.symm.trans wrong
 · exact fun _ => nofun

theorem Dynamic.advance (h : Dynamic s) (inTime : InTime s (.advance c))
  (hstep : s.step (.advance c) = some t) : Dynamic t := by
 obtain ⟨late, stale⟩ := inTime
 rw [System.step] at hstep
 cases hpc : s.pc c <;> rw [hpc] at hstep <;> cases hstep
 case acquired =>
  have member := h.owner c (Or.inl (Or.inl hpc))
  apply h.goto
  · exact fun _ => member
  · intro _ passive _
    rcases late hpc with one | active | other
    · exact Or.inl (Or.inr (if_pos one))
    · exact absurd active passive
    · exact Or.inr other
  · rintro - - (wrong | wrong) <;> cases hpc.symm.trans wrong
 case firstAcquire => exact h.firstAcquire hpc
 case releasing => exact h.release hpc
 case released =>
  apply h.goto
  · split_ifs <;> rintro (wrong | wrong | wrong) <;> cases wrong
  · rintro - - (wrong | wrong) <;> cases hpc.symm.trans wrong
  · intro free _ _
    exact Or.inr (if_pos (h.refs_zero.mpr free))
 case lastRelease => exact h.lastRelease hpc (stale hpc)

theorem Dynamic.step (h : Dynamic s) {a : Action} (inTime : InTime s a)
  (hstep : s.step a = some t) : Dynamic t := by
 cases a with
 | acquire c =>
  rw [System.step, if_neg (not_not.mpr h.mode)] at hstep
  split_ifs at hstep
  cases hstep
  exact h.acquire inTime.2
 | release c =>
  rw [System.step, if_neg (not_not.mpr h.mode)] at hstep
  split_ifs at hstep with busy none <;> cases hstep
  · have out : s.pc c = .out := not_not.mp busy
    apply h.goto
    · rintro (wrong | wrong | wrong) <;> cases wrong
    · rintro - - (wrong | wrong) <;> cases out.symm.trans wrong
    · exact fun _ _ _ => Or.inr rfl
  · have out : s.pc c = .out := not_not.mp busy
    have member : c ∈ s.held := by
     rcases inTime with member | free
     · exact member
     · exact absurd (h.refs_zero.mpr free) none
    apply h.goto
    · exact fun _ => member
    · rintro - - (wrong | wrong) <;> cases out.symm.trans wrong
    · rintro - - (wrong | wrong) <;> cases out.symm.trans wrong
 | advance c => exact h.advance inTime hstep
 | notify event =>
  rw [System.step, powerStateChange, h.mode, if_pos nofun] at hstep
  cases hstep
  exact h

theorem Passive.step (h : Passive s) {a : Action} (inTime : InTime s a)
  (hstep : s.step a = some t) : Passive t := by
 cases a with
 | acquire c => exact absurd inTime.1 h.mode
 | release c =>
  rw [System.step, if_neg (not_not.mpr (h.quiet c)), if_pos h.mode] at hstep
  cases hstep
  refine ⟨h.mode, h.listener, h.quiet, ?_, h.switches⟩
  rw [h.held]
  rfl
 | advance c =>
  rw [System.step, h.quiet c] at hstep
  cases hstep
 | notify event =>
  rw [System.step] at hstep
  cases hstep
  refine ⟨h.mode, h.listener, h.quiet, h.held, ?_⟩
  rw [powerStateChange]
  split_ifs with other
  · exact h.switches
  · obtain ⟨notResume, once⟩ := inTime (not_not.mp other)
    have called : s.token.callback event = [event] := by
     rw [PowerStateToken.callback, h.listener]
     rfl
    rw [called]
    cases event with
    | resume => exact absurd rfl notResume
    | suspend =>
     right
     change HdfPowerState.suspend :: s.switches = _
     rw [once rfl]
    | dozeResume | dozeSuspend => exact h.switches

theorem Inv.step (s : System) (a : Action) (t : System) (h : Inv s) (inTime : InTime s a)
  (hstep : s.step a = some t) : Inv t := by
 rcases h with dynamic | passive
 · exact Or.inl (dynamic.step inTime hstep)
 · exact Or.inr (passive.step inTime hstep)

theorem start_inv (mode : PowerManagementMode) :
  Inv (System.start (some fun _ => true) mode) := by
 by_cases dynamic : mode = .dynamicCtrl
 · left
   refine ⟨dynamic, rfl, List.isChain_nil, rfl, rfl, Nat.two_pow_pos 32, ?_, ?_, ?_⟩
   · rintro c ((wrong | wrong) | wrong) <;> cases wrong
   · exact fun held => absurd rfl held
   · rintro - ⟨⟩
 · exact Or.inr ⟨dynamic, rfl, fun _ => rfl, rfl, Or.inl rfl⟩

end Steps

/-- One client acquires the token and goes on to the end of its call. -/
def oneAcquire : List Action := [.acquire 0, .advance 0, .advance 0]

end DriversFramework.Power
