import DriversFramework.AudioSapmControls

namespace DriversFramework.AudioSapm

open AudioControls

variable {n : ℕ}

/-- The card with what `AudioSapmEnterSleep` looks at: whether it waits in standby, the time of the
last refresh, the power monitor, and whether standby comes at once. -/
structure SleepCard (n : ℕ) where
 sapm : SapmCard n
 isStandby : Bool
 time : BitVec 64
 sapmMonitorState : Bool
 standbyNow : Bool

/-- What the clock shows at the two checks, and at the refreshes between them. -/
structure Clock (n : ℕ) where
 first : BitVec 64
 refresh : Fin n → BitVec 64
 second : BitVec 64

def sapmSleepTime : BitVec 64 := 180000

/-- The components with a `PowerClockOp`, which does nothing and succeeds. -/
def hasPowerClockOp (type : AudioSapmType) : Bool := type ∈ [.adc, .aifOut, .dac, .aifIn]

def AudioCard.powerList (card : AudioCard n) (seq : AudioSapmType → ℕ) (power : ℕ) :
  List (Fin n) :=
 (List.finRange n).foldl (fun list c =>
  if card.power c = power then card.powerSeqInsert seq c list else list) []

def audioSampPowerUp (faults : PowerFaults n) (s : SapmCard n) : Option (HdfStatus × SapmCard n) :=
 (SapmCard.powerUpSeqRun faults s (s.card.powerList audioSapmPowerUpSeq sapmPowerDown)).map
  fun s => (.success, s)

def audioSapmEnterSleepSub (faults : PowerFaults n) (s : SapmCard n) : Option (SapmCard n) :=
 (SapmCard.powerDownSeqRun faults s (s.card.powerList audioSapmPowerDownSeq sapmPowerUp)).map
  fun s => { s with isSleep := true }

namespace SleepCard

def checkTime (s : SleepCard n) (now : BitVec 64) : Bool := decide (sapmSleepTime < now - s.time)

def refreshTime (s : SleepCard n) (now : BitVec 64) : SleepCard n :=
 { s with time := now, isStandby := false, sapm := { s.sapm with isSleep := false } }

def enterStandby (s : SleepCard n) (clock : Clock n) : SleepCard n :=
  if s.isStandby = false then
    { (List.finRange n).foldl (fun s c =>
        if hasPowerClockOp (s.sapm.card.component c).sapmType then s.refreshTime (clock.refresh c)
        else s) s with isStandby := true }
  else s

end SleepCard

def audioSapmEnterSleep (faults : PowerFaults n) (clock : Clock n) (s : SleepCard n) :
  Option (SleepCard n) :=
 if s.sapm.isSleep then some s
 else if s.sapmMonitorState = false then some s
 else if s.standbyNow = false ∧ s.checkTime clock.first = false then some s
 else
  let s := s.enterStandby clock
  if s.isStandby = true ∧ s.checkTime clock.second = false then some s
  else (audioSapmEnterSleepSub faults s.sapm).map fun sapm =>
   { s with isStandby := false, sapm := sapm }

section Switching

variable {s t : SapmCard n} {faults : PowerFaults n} {before after : ℕ} {list : List (Fin n)}
  {c d : Fin n}

theorem mem_powerList (card : AudioCard n) (seq : AudioSapmType → ℕ) (power : ℕ) (c : Fin n) :
  c ∈ card.powerList seq power ↔ card.power c = power := by
 have all : ∀ (todo list : List (Fin n)), c ∈ todo.foldl (fun list c =>
   if card.power c = power then card.powerSeqInsert seq c list else list) list ↔
    c ∈ list ∨ c ∈ todo ∧ card.power c = power := by
  intro todo
  induction todo with
  | nil => simp
  | cons d rest ih =>
   intro list
   rw [List.foldl_cons, ih, List.mem_cons]
   split
   · rename_i here
     rw [mem_powerSeqInsert]
     constructor
     · rintro ((rfl | old) | ⟨later, same⟩)
       · exact .inr ⟨.inl rfl, here⟩
       · exact .inl old
       · exact .inr ⟨.inr later, same⟩
     · rintro (old | ⟨rfl | later, same⟩)
       · exact .inl (.inr old)
       · exact .inl (.inl rfl)
       · exact .inr ⟨later, same⟩
   · rename_i other
     constructor
     · rintro (old | ⟨later, same⟩)
       · exact .inl old
       · exact .inr ⟨.inr later, same⟩
     · rintro (old | ⟨rfl | later, same⟩)
       · exact .inl old
       · exact absurd same other
       · exact .inr ⟨later, same⟩
 rw [AudioCard.powerList, all]
 simp

/-- The update of the registers of a component is defined. -/
def Writes (s : SapmCard n) (c : Fin n) : Prop :=
 s.regs .codec ≠ none ∨ s.regs .accessory ≠ none → (s.powerControl c).shift.toNat < 32

structure SameDevices (s t : SapmCard n) : Prop where
 field : t.field = s.field
 missing : ∀ kind, t.regs kind = none ↔ s.regs kind = none

theorem SameDevices.trans {u : SapmCard n} (first : SameDevices s t) (second : SameDevices t u) :
  SameDevices s u :=
 ⟨second.field.trans first.field, fun kind => (second.missing kind).trans (first.missing kind)⟩

theorem SameDevices.writes (same : SameDevices s t) (c : Fin n) : Writes t c ↔ Writes s c := by
 unfold Writes
 have shift : (t.powerControl c).shift = (s.powerControl c).shift := by
  unfold SapmCard.powerControl
  rw [same.field]
 rw [shift, Ne, Ne, same.missing, same.missing]

theorem updatePower_same {kind : DeviceKind} {val : Word} {fault : Faults}
  (run : s.updatePower kind c val fault = some t) : SameDevices s t := by
 unfold SapmCard.updatePower at run
 split at run
 · cases run
   exact ⟨rfl, fun _ => Iff.rfl⟩
 · rename_i regs device
   obtain ⟨⟨ret, regs'⟩, -, rfl⟩ := Option.map_eq_some_iff.mp run
   refine ⟨rfl, fun kind' => ?_⟩
   by_cases here : kind' = kind
   · rw [here, device]
     exact iff_of_false (by simp) (by simp)
   · exact iff_of_eq (congrArg (· = none) (Function.update_of_ne here _ _))

theorem updatePower_none (s : SapmCard n) (kind : DeviceKind) (c : Fin n) (val : Word)
  (fault : Faults) : s.updatePower kind c val fault ≠ none ↔
   (s.regs kind ≠ none → (s.powerControl c).shift.toNat < 32) := by
 unfold SapmCard.updatePower
 cases device : s.regs kind with
 | none => exact iff_of_true (Option.some_ne_none s) fun missing => absurd rfl missing
 | some regs =>
  rw [forall_prop_of_true (Option.some_ne_none regs)]
  by_cases shift : (s.powerControl c).shift.toNat < 32
  · refine iff_of_true ?_ shift
    by_cases failed : fault.read ∨ fault.write
    · simp [updateRegBits_failed shift failed]
    · simp [updateRegBits_done shift failed]
  · refine iff_of_false (fun run => run ?_) shift
    simp only [updateRegBits, if_pos (show 32 ≤ (s.powerControl c).shift.toNat by omega)]
    rfl

theorem switchPower_same (run : SapmCard.switchPower before after faults s c = some t) :
  SameDevices s t := by
 unfold SapmCard.switchPower at run
 split at run
 · obtain ⟨u, first, second⟩ := Option.bind_eq_some_iff.mp run
   have same := (updatePower_same first).trans (updatePower_same second)
   exact ⟨same.field, same.missing⟩
 · cases run
   exact ⟨rfl, fun _ => Iff.rfl⟩

theorem switchPower_none (before after : ℕ) (faults : PowerFaults n) (s : SapmCard n) (c : Fin n) :
  SapmCard.switchPower before after faults s c ≠ none ↔
   (0 ≤ (s.card.component c).reg ∧ s.card.power c = before → Writes s c) := by
 unfold SapmCard.switchPower
 by_cases turns : 0 ≤ (s.card.component c).reg ∧ s.card.power c = before
 · rw [if_pos turns, forall_prop_of_true turns]
   dsimp only
   generalize (if (s.field c).invert = 0 then (after : Word) else if after = 0 then 1 else 0) = val
   have codec := updatePower_none { s with card := s.card.setPowerFrom before after c } .codec c val
    (faults c .codec)
   cases first : SapmCard.updatePower { s with card := s.card.setPowerFrom before after c } .codec c
     val (faults c .codec) with
   | none =>
    refine iff_of_false (fun run => run rfl) fun writes => ?_
    exact codec.mpr (fun device => writes (.inl device)) first
   | some u =>
    rw [first] at codec
    have same := updatePower_same first
    have accessory := updatePower_none u .accessory c val (faults c .accessory)
    have shift : (u.powerControl c).shift = (s.powerControl c).shift := by
     unfold SapmCard.powerControl
     rw [same.field]
    rw [Option.bind_some, accessory, Ne, same.missing, shift]
    constructor
    · intro other device
      exact device.elim (codec.mp (Option.some_ne_none u)) other
    · exact fun writes device => writes (.inr device)
 · rw [if_neg turns]
   exact iff_of_true (Option.some_ne_none s) fun h => absurd h turns

theorem seqRun_none (differ : before ≠ after) :
  list.foldlM (SapmCard.switchPower before after faults) s ≠ none ↔
   ∀ c ∈ list, 0 ≤ (s.card.component c).reg ∧ s.card.power c = before → Writes s c := by
 induction list generalizing s with
 | nil => exact iff_of_true (Option.some_ne_none s) fun c mem => by cases mem
 | cons c rest ih =>
  rw [List.foldlM_cons, List.forall_mem_cons, 
   ← switchPower_none before after faults]
  cases first : SapmCard.switchPower before after faults s c with
  | none => exact iff_of_false (fun run => run rfl) fun h => h.1 rfl
  | some t =>
   have same := switchPower_same first
   have card := seqRun_spec before after differ [c] s.card
   have here : t.card = [c].foldl (fun card c => card.setPowerFrom before after c) s.card :=
    switchPower_card first
   have defined := switchPower_none before after faults s c
   rw [first] at defined
   change rest.foldlM _ t ≠ none ↔ _
   rw [ih, and_iff_right (Option.some_ne_none t)]
   refine forall₂_congr fun d _ => ?_
   rw [same.writes, here, card.1, card.2.2]
   by_cases again : d = c
   · subst again
     have writes := defined.mp (Option.some_ne_none t)
     refine iff_of_true ?_ writes
     rintro ⟨register, power⟩
     split at power
     · exact absurd power.symm differ
     · exact writes ⟨register, power⟩
   · rw [if_neg fun h => again (List.mem_singleton.mp h.1)]

theorem seqRun_same_devices (run : list.foldlM (SapmCard.switchPower before after faults) s = some t) :
  SameDevices s t := by
 induction list generalizing s with
 | nil =>
  cases run
  exact ⟨rfl, fun _ => Iff.rfl⟩
 | cons c rest ih =>
  obtain ⟨u, first, rest⟩ := Option.bind_eq_some_iff.mp run
  exact (switchPower_same first).trans (ih rest)

theorem powerRun_spec (differ : before ≠ after) (seq : AudioSapmType → ℕ) (s : SapmCard n)
  (faults : PowerFaults n) :
  (∀ c, 0 ≤ (s.card.component c).reg ∧ s.card.power c = before → Writes s c) ∧
    (∃ t, (s.card.powerList seq before).foldlM (SapmCard.switchPower before after faults) s =
      some t ∧ SameDevices s t ∧ t.card.component = s.card.component ∧
     ∀ c, t.card.power c =
      if 0 ≤ (s.card.component c).reg ∧ s.card.power c = before then after
      else s.card.power c) ∨
   ¬(∀ c, 0 ≤ (s.card.component c).reg ∧ s.card.power c = before → Writes s c) ∧
    (s.card.powerList seq before).foldlM (SapmCard.switchPower before after faults) s = none := by
 have defined : (s.card.powerList seq before).foldlM (SapmCard.switchPower before after faults) s ≠
   none ↔ _ := seqRun_none differ
 have all : (∀ c ∈ s.card.powerList seq before,
   0 ≤ (s.card.component c).reg ∧ s.card.power c = before → Writes s c) ↔
    ∀ c, 0 ≤ (s.card.component c).reg ∧ s.card.power c = before → Writes s c := by
  refine forall_congr' fun c => ?_
  rw [mem_powerList]
  exact ⟨fun h turns => h turns.2 turns, fun h _ turns => h turns⟩
 rw [all] at defined
 cases run : (s.card.powerList seq before).foldlM (SapmCard.switchPower before after faults) s with
 | none => exact .inr ⟨fun writes => (defined.mpr writes) run, rfl⟩
 | some t =>
  refine .inl ⟨defined.mp (by rw [run]; exact Option.some_ne_none t), t, rfl,
   seqRun_same_devices run, ?_, fun c => ?_⟩
  · rw [seqRun_card run, (seqRun_spec before after differ _ s.card).1]
  · rw [seqRun_card run, (seqRun_spec before after differ _ s.card).2.2]
    simp only [mem_powerList]
    by_cases turns : 0 ≤ (s.card.component c).reg ∧ s.card.power c = before
    · rw [if_pos turns, if_pos ⟨turns.2, turns⟩]
    · rw [if_neg turns, if_neg fun h => turns h.2]

end Switching

section Restoring

variable {s : SleepCard n} {clock : Clock n} {down up : PowerFaults n}

/-- The call comes to power down. -/
def FallsAsleep (s : SleepCard n) (clock : Clock n) : Prop :=
 s.sapm.isSleep = false ∧ s.sapmMonitorState = true ∧
  (s.standbyNow = true ∨ s.checkTime clock.first = true) ∧
   (s.enterStandby clock).checkTime clock.second = true

/-- Sleep and wake-up end, and every component has the power it had. -/
def Restores (down up : PowerFaults n) (clock : Clock n) (s : SleepCard n) : Prop :=
 ∃ t, (audioSapmEnterSleep down clock s).bind (fun s => audioSampPowerUp up s.sapm) =
  some (.success, t) ∧ t.card.power = s.sapm.card.power

theorem enterStandby_sapm (s : SleepCard n) (clock : Clock n) :
  (s.enterStandby clock).isStandby = true ∧
   ∃ isSleep, (s.enterStandby clock).sapm = { s.sapm with isSleep := isSleep } := by
 have all : ∀ (list : List (Fin n)) (s : SleepCard n), ∃ isSleep,
   (list.foldl (fun s c =>
    if hasPowerClockOp (s.sapm.card.component c).sapmType then s.refreshTime (clock.refresh c)
    else s) s).sapm = { s.sapm with isSleep := isSleep } := by
  intro list
  induction list with
  | nil => exact fun s => ⟨s.sapm.isSleep, rfl⟩
  | cons c rest ih =>
   intro s
   rw [List.foldl_cons]
   split
   · obtain ⟨isSleep, same⟩ := ih (s.refreshTime (clock.refresh c))
     exact ⟨isSleep, same⟩
   · exact ih s
 unfold SleepCard.enterStandby
 split
 · exact ⟨rfl, all _ s⟩
 · rename_i standby
   exact ⟨Bool.not_eq_false _ ▸ standby, s.sapm.isSleep, rfl⟩

theorem powerUp_iff (u : SapmCard n) (power : Fin n → ℕ) :
  (∃ t, audioSampPowerUp up u = some (.success, t) ∧ t.card.power = power) ↔
   (∀ c, 0 ≤ (u.card.component c).reg ∧ u.card.power c = sapmPowerDown → Writes u c) ∧
    ∀ c, (if 0 ≤ (u.card.component c).reg ∧ u.card.power c = sapmPowerDown then sapmPowerUp
     else u.card.power c) = power c := by
 unfold audioSampPowerUp SapmCard.powerUpSeqRun
 have differ : sapmPowerDown ≠ sapmPowerUp := by decide
 rcases powerRun_spec differ audioSapmPowerUpSeq u up with
  ⟨writes, t, run, -, -, after⟩ | ⟨undefined, run⟩
 · rw [run, and_iff_right writes]
   constructor
   · rintro ⟨t', same, powers⟩ c
     cases same
     rw [← after, powers]
   · intro powers
     exact ⟨t, rfl, funext fun c => (after c).trans (powers c)⟩
 · rw [run]
   refine iff_of_false ?_ fun h => undefined h.1
   rintro ⟨t, none, -⟩
   cases none

theorem enterSleep_stays (down : PowerFaults n) (awake : ¬FallsAsleep s clock) : ∃ t, audioSapmEnterSleep down clock s =
  some t ∧ t.sapm.card = s.sapm.card ∧ SameDevices s.sapm t.sapm := by
 unfold audioSapmEnterSleep
 have same : SameDevices s.sapm s.sapm := ⟨rfl, fun _ => Iff.rfl⟩
 split
 · exact ⟨s, rfl, rfl, same⟩
 · rename_i asleep
   split
   · exact ⟨s, rfl, rfl, same⟩
   · rename_i monitor
     split
     · exact ⟨s, rfl, rfl, same⟩
     · rename_i first
       obtain ⟨standby, isSleep, sapm⟩ := enterStandby_sapm s clock
       have second : (s.enterStandby clock).checkTime clock.second = false := by
        refine Bool.eq_false_iff.mpr fun late => awake ⟨Bool.eq_false_iff.mpr asleep, ?_, ?_, late⟩
        · simpa using monitor
        · by_contra none
          obtain ⟨later, early⟩ := not_or.mp none
          exact first ⟨by simpa using later, by simpa using early⟩
       refine ⟨s.enterStandby clock, if_pos ⟨standby, second⟩, ?_, ?_⟩
       · rw [sapm]
       · rw [sapm]
         exact ⟨rfl, fun _ => Iff.rfl⟩

theorem enterSleep_falls (down : PowerFaults n) (falls : FallsAsleep s clock) :
  ∃ isSleep, audioSapmEnterSleep down clock s =
   (audioSapmEnterSleepSub down { s.sapm with isSleep := isSleep }).map fun sapm =>
    { s.enterStandby clock with isStandby := false, sapm := sapm } := by
 obtain ⟨awake, monitor, first, second⟩ := falls
 obtain ⟨standby, isSleep, sapm⟩ := enterStandby_sapm s clock
 refine ⟨isSleep, ?_⟩
 unfold audioSapmEnterSleep
 rw [if_neg (by rw [awake]; exact Bool.false_ne_true), if_neg (by rw [monitor]; decide), if_neg]
 · dsimp only
   rw [if_neg (by rw [second]; exact fun h => absurd h.2 (by decide)), sapm]
 · rintro ⟨later, early⟩
   rcases first with now | late
   · rw [later] at now
     cases now
   · rw [early] at late
     cases late

/-- Sleep and wake-up give every component back its power exactly if no component with a register
was without power, and the updates of those with power are defined if the card falls asleep. -/
theorem restores_iff (down up : PowerFaults n) (clock : Clock n) (s : SleepCard n) :
    Restores down up clock s ↔
      (∀ c, 0 ≤ (s.sapm.card.component c).reg → s.sapm.card.power c ≠ sapmPowerDown) ∧
        (FallsAsleep s clock → ∀ c, 0 ≤ (s.sapm.card.component c).reg →
          s.sapm.card.power c = sapmPowerUp → Writes s.sapm c) := by
  unfold Restores
  by_cases falls : FallsAsleep s clock
  · obtain ⟨isSleep, run⟩ := enterSleep_falls down falls
    rw [run, forall_prop_of_true falls]
    have differ : sapmPowerUp ≠ sapmPowerDown := by decide
    unfold audioSapmEnterSleepSub SapmCard.powerDownSeqRun
    rcases powerRun_spec differ audioSapmPowerDownSeq { s.sapm with isSleep := isSleep } down with
      ⟨writes, t, ran, same, component, after⟩ | ⟨undefined, ran⟩
    · rw [ran]
      change (∃ u, audioSampPowerUp up { t with isSleep := true } = some (.success, u) ∧ _) ↔ _
      rw [powerUp_iff]
      change (∀ c, 0 ≤ (t.card.component c).reg ∧ t.card.power c = sapmPowerDown → Writes t c) ∧
        (∀ c, (if 0 ≤ (t.card.component c).reg ∧ t.card.power c = sapmPowerDown then sapmPowerUp
          else t.card.power c) = s.sapm.card.power c) ↔ _
      have component : t.card.component = s.sapm.card.component := component
      have defined : ∀ c, 0 ≤ (s.sapm.card.component c).reg →
          s.sapm.card.power c = sapmPowerUp → Writes s.sapm c :=
        fun c register on => writes c ⟨register, on⟩
      rw [component, and_iff_left defined]
      -- a component with a register that was on is off in between
      have between : ∀ c, 0 ≤ (s.sapm.card.component c).reg →
          s.sapm.card.power c = sapmPowerUp → t.card.power c = sapmPowerDown := by
        intro c register on
        rw [after c]
        exact if_pos ⟨register, on⟩
      have kept : ∀ c, ¬(0 ≤ (s.sapm.card.component c).reg ∧ s.sapm.card.power c = sapmPowerUp) →
          t.card.power c = s.sapm.card.power c := by
        intro c other
        rw [after c]
        exact if_neg other
      constructor
      · rintro ⟨-, powers⟩ c register off
        have still := kept c fun h => differ (h.2.symm.trans off)
        have on := powers c
        rw [if_pos ⟨register, still.trans off⟩, off] at on
        exact differ on
      · intro powered
        refine ⟨fun c turns => ?_, fun c => ?_⟩
        · rw [same.writes]
          by_cases on : s.sapm.card.power c = sapmPowerUp
          · exact writes c ⟨turns.1, on⟩
          · exact absurd ((kept c fun h => on h.2).symm.trans turns.2) (powered c turns.1)
        · by_cases on : 0 ≤ (s.sapm.card.component c).reg ∧ s.sapm.card.power c = sapmPowerUp
          · rw [if_pos ⟨on.1, between c on.1 on.2⟩, on.2]
          · have still := kept c on
            rw [still]
            exact if_neg fun turns => powered c turns.1 turns.2
    · rw [ran]
      refine iff_of_false ?_ fun h => undefined fun c turns => h.2 c turns.1 turns.2
      rintro ⟨u, none, -⟩
      cases none
  · obtain ⟨t, run, card, same⟩ := enterSleep_stays down falls
    rw [run, Option.bind_some, powerUp_iff, card, and_iff_left fun h => absurd h falls]
    constructor
    · rintro ⟨-, powers⟩ c register off
      have on := powers c
      rw [if_pos ⟨register, off⟩, off] at on
      cases on
    · intro powered
      refine ⟨fun c turns => absurd turns.2 (powered c turns.1), fun c => ?_⟩
      rw [if_neg fun turns => powered c turns.1 turns.2]

end Restoring

/-- A converter that is on and a speaker that is off, asleep after four minutes. -/
def quietCard : SleepCard 2 where
  sapm :=
    { card :=
        { component := fun c => if c.val = 0 then ⟨.dac, 0, 0⟩ else ⟨.spk, 1, 0⟩
          paths := []
          power := fun c => if c.val = 0 then 1 else 0 }
      field := fun _ => ⟨1, 0, 0⟩
      regs := fun _ => some fun _ => 0
      isSleep := false }
  isStandby := true
  time := 0
  sapmMonitorState := true
  standbyNow := false

def laterClock : Clock 2 := ⟨240000, fun _ => 240000, 240000⟩

/-- The speaker is on after sleep and wake-up. -/
theorem quietCard_wakes_up : FallsAsleep quietCard laterClock ∧
    ((audioSapmEnterSleep (fun _ _ => works) laterClock quietCard).bind fun s =>
      (audioSampPowerUp (fun _ _ => works) s.sapm).map fun result =>
        (result.2.card.power 0, result.2.card.power 1)) = some (1, 1) ∧
    ¬Restores (fun _ _ => works) (fun _ _ => works) laterClock quietCard := by
  have powers : ((audioSapmEnterSleep (fun _ _ => works) laterClock quietCard).bind fun s =>
      (audioSampPowerUp (fun _ _ => works) s.sapm).map fun result =>
        (result.2.card.power 0, result.2.card.power 1)) = some (1, 1) := by
    decide
  refine ⟨⟨rfl, rfl, .inr (by decide), by decide⟩, powers, ?_⟩
  rintro ⟨t, run, same⟩
  obtain ⟨u, sleep, wake⟩ := Option.bind_eq_some_iff.mp run
  rw [sleep, Option.bind_some, wake, Option.map_some, same] at powers
  cases powers

end DriversFramework.AudioSapm
