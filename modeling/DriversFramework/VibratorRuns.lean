import Mathlib.Data.List.Basic
import DriversFramework.RunRules

namespace DriversFramework.VibratorRuns

def minWaitTime : ℕ := 50

def hapticSeqMax : ℕ := 1024

inductive VibratorStatus where
 | success
 | failure
 | errInvalidParam
 | errNotSupport
 | errDeviceBusy
 deriving DecidableEq

inductive EffectType where
 | effect
 | time
 deriving DecidableEq

inductive ConfigMode where
 | once
 | preset
 | butt
 deriving DecidableEq

inductive DriverState where
 | idle
 | startTimer
 | stop
 | setEffect
 deriving DecidableEq

structure EffectNode where
 effect : List UInt8
 type : EffectType
 seq : List ℕ

structure EffectCfg where
 cfgMode : ConfigMode
 duration : ℕ
 effect : Option (List UInt8)

structure OsalTimer where
 duration : ℕ
 started : Bool
 deriving DecidableEq

/-- The driver and its haptic data. `queued` tells whether a work is still to be done and `running`
what the last one told the motor. The code keeps neither `fired`, the effects set in this sequence,
nor `stuck`: a start that found the driver free has failed and left it busy. -/
structure Vibrator where
 mode : ConfigMode
 state : DriverState
 queued : Bool
 running : Bool
 supportHaptic : Bool
 effectSeqHead : List EffectNode
 timer : Option OsalTimer
 effectType : EffectType
 currentEffectSeq : List ℕ
 currentSeqIndex : ℕ
 fired : List ℕ
 stuck : Bool

def parserHapticEffect (hapticNode : List (EffectNode × Bool)) : List EffectNode :=
 hapticNode.filterMap fun (childNode, granted) =>
  if childNode.seq.length ≤ 1 ∨ hapticSeqMax < childNode.seq.length ∨ ¬granted then none
  else some childNode

/-- The driver after its initialisation with the children of `vibratorHapticConfig`. -/
def initVibrator (supportPreset : Bool) (hapticNode : List (EffectNode × Bool)) : Vibrator where
 mode := .butt
 state := .idle
 queued := false
 running := false
 supportHaptic := supportPreset
 effectSeqHead := if supportPreset then parserHapticEffect hapticNode else []
 timer := none
 effectType := .effect
 currentEffectSeq := []
 currentSeqIndex := 0
 fired := []
 stuck := false

def startTimeVibrator (v : Vibrator) : Vibrator := { v with state := .startTimer, queued := true }

def stopVibrator (v : Vibrator) : Vibrator := { v with state := .stop, queued := true }

/-- `accepted` tells whether the operation of the device succeeds. -/
def setEffectVibrator (effect : ℕ) (accepted : Bool) (v : Vibrator) : Vibrator :=
 { v with fired := v.fired ++ [effect], state := if accepted then .setEffect else v.state }

def vibratorWorkEntry (v : Vibrator) : Vibrator :=
 { v with queued := false, running :=
     match v.queued, v.state with
     | true, .startTimer => true
     | true, .stop => false
     | _, _ => v.running }

def waitAt (v : Vibrator) : ℕ :=
 match v.currentEffectSeq[v.currentSeqIndex]? with
 | none => 0
 | some 0 => minWaitTime
 | some duration => duration

def processHapticTime (v : Vibrator) : Vibrator × ℕ :=
 if v.currentEffectSeq.length ≤ v.currentSeqIndex then (v, 0)
 else
  let moved := if v.currentSeqIndex % 2 = 0 then startTimeVibrator v else stopVibrator v
  let next := { moved with currentSeqIndex := v.currentSeqIndex + 1 }
  (next, waitAt next)

def processHapticEffect (accepted : Bool) (v : Vibrator) : Vibrator × ℕ :=
 match v.currentEffectSeq[v.currentSeqIndex + 1]? with
 | none => (v, 0)
 | some effect =>
  let set := setEffectVibrator effect accepted v
  let next := { set with currentSeqIndex := v.currentSeqIndex + 2 }
  (next, waitAt next)

/-- `set` and `deleted` tell whether the timer is set again and whether it is deleted. -/
def setTimer (wait : ℕ) (set deleted : Bool) (v : Vibrator) : Vibrator :=
 let duration := if 0 < wait ∧ wait < minWaitTime then minWaitTime else wait
 { v with timer :=
     if 0 < duration ∧ set then some ⟨duration, true⟩ else if deleted then none else v.timer }

def hapticTimerEntry (accepted set deleted : Bool) (v : Vibrator) : Vibrator :=
 let (next, wait) :=
  match v.effectType with
  | .time => processHapticTime v
  | .effect => processHapticEffect accepted v
 setTimer wait set deleted next

def getHapticSeqByEffect (effectCfg : EffectCfg) (v : Vibrator) : VibratorStatus × Vibrator :=
 let v := { v with currentEffectSeq := [], currentSeqIndex := 0, fired := [] }
 match effectCfg.cfgMode, effectCfg.effect with
 | .once, _ => (.success,
   { v with effectType := .time, currentEffectSeq := [minWaitTime, effectCfg.duration] })
 | .preset, some effect =>
  match v.effectSeqHead.find? fun pos => pos.effect = effect with
  | none => (.errInvalidParam, v)
  | some pos =>
   let found := { v with effectType := pos.type, currentEffectSeq := pos.seq }
   if pos.seq.length ≤ 1 ∨ hapticSeqMax < pos.seq.length then (.errInvalidParam, found)
   else (.success, found)
 | _, _ => (.errNotSupport, v)

/-- `created` and `started` tell whether the timer can be created and started. -/
def startLoop (created started : Bool) (v : Vibrator) : VibratorStatus × Vibrator :=
 let first := v.currentEffectSeq.headD 0
 let duration := if first < minWaitTime then minWaitTime else first
 if ¬created then (.failure, v)
 else if ¬started then (.failure, { v with timer := some ⟨duration, false⟩ })
 else (.success, { v with timer := some ⟨duration, true⟩ })

def startHaptic (effectCfg : EffectCfg) (created started : Bool) (v : Vibrator) :
  VibratorStatus × Vibrator :=
 if effectCfg.cfgMode = .preset ∧ ¬v.supportHaptic then (.errNotSupport, v)
 else
  match getHapticSeqByEffect effectCfg v with
  | (.success, v) => startLoop created started v
  | failed => failed

def stopHaptic (deleted : Bool) (v : Vibrator) : VibratorStatus × Vibrator :=
 if v.timer.isSome ∧ ¬deleted then (.failure, v)
 else (.success, stopVibrator { v with timer := none })

/-- What both starts do with the request that they have read. -/
def startMode (effectCfg : EffectCfg) (created started : Bool) (v : Vibrator) :
  VibratorStatus × Vibrator :=
 if v.mode ≠ .butt then (.errDeviceBusy, v)
 else startHaptic effectCfg created started { v with mode := effectCfg.cfgMode }

/-- A request that cannot be read is `none`. -/
def startOnce (duration : Option ℕ) (created started : Bool) (v : Vibrator) :
  VibratorStatus × Vibrator :=
 match duration with
 | none => (.failure, v)
 | some 0 => (.errInvalidParam, v)
 | some duration => startMode ⟨.once, duration, none⟩ created started v

def startEffect (effect : Option (List UInt8)) (created started : Bool) (v : Vibrator) :
  VibratorStatus × Vibrator :=
 match effect with
 | none => (.failure, v)
 | some effect => startMode ⟨.preset, 0, some effect⟩ created started v

def stop (mode : Option ConfigMode) (deleted : Bool) (v : Vibrator) : VibratorStatus × Vibrator :=
 if mode ≠ some .once ∧ mode ≠ some .preset then (.failure, v)
 else if v.mode = .butt then (.success, v)
 else
  match stopHaptic deleted v with
  | (.success, v) => (.success, { v with mode := .butt })
  | failed => failed

inductive Event where
 | startOnce (duration : Option ℕ) (created started : Bool)
 | startEffect (effect : Option (List UInt8)) (created started : Bool)
 | stop (mode : Option ConfigMode) (deleted : Bool)
 | expire (accepted set deleted : Bool)
 | work

def Vibrator.expires (v : Vibrator) : Bool := v.timer.any OsalTimer.started

def Vibrator.after (v : Vibrator) (result : VibratorStatus × Vibrator) : Vibrator :=
 { result.2 with stuck :=
     v.stuck || decide (v.mode = .butt ∧ result.1 ≠ .success ∧ result.2.mode ≠ .butt) }

def Vibrator.next (v : Vibrator) : Event → Vibrator
 | .startOnce duration created started => v.after (startOnce duration created started v)
 | .startEffect effect created started => v.after (startEffect effect created started v)
 | .stop mode deleted => (stop mode deleted v).2
 | .expire accepted set deleted => if v.expires then hapticTimerEntry accepted set deleted v else v
 | .work => vibratorWorkEntry v

def step (v : Vibrator) (event : Event) : Option Vibrator := some (v.next event)

/-- What the motor is told once the work in the queue is done. -/
def Vibrator.settled (v : Vibrator) : Bool := (vibratorWorkEntry v).running

def Vibrator.Played (v : Vibrator) : Prop :=
 match v.effectType with
 | .time => v.currentEffectSeq.length ≤ v.currentSeqIndex
 | .effect => v.currentEffectSeq.length ≤ v.currentSeqIndex + 1

def effectEntries : List ℕ → List ℕ
 | _ :: effect :: rest => effect :: effectEntries rest
 | _ => []

structure Right (v : Vibrator) : Prop where
 stopped : v.Played → v.settled = false
 effects : v.Played → v.effectType = .effect → v.fired = effectEntries v.currentEffectSeq
 waits : ∀ timer, v.timer = some timer → minWaitTime ≤ timer.duration
 accepting : v.stuck = false

/-- A start that finds the driver free succeeds; the timer does not expire on a last entry that
starts the motor, nor on the last effect while the motor is left running. -/
def Fine (v : Vibrator) : Event → Prop
 | .startOnce duration created started => v.mode = .butt → (∃ d, duration = some (d + 1)) →
   created = true ∧ started = true
 | .startEffect effect created started => v.mode = .butt → ∀ name, effect = some name →
   v.supportHaptic = true ∧ (∃ pos ∈ v.effectSeqHead, pos.effect = name) ∧
    created = true ∧ started = true
 | .expire accepted _ _ => v.expires = true →
   match v.effectType with
   | .time => v.currentSeqIndex + 1 = v.currentEffectSeq.length → v.currentSeqIndex % 2 = 1
   | .effect => v.currentSeqIndex + 1 < v.currentEffectSeq.length →
     v.currentEffectSeq.length ≤ v.currentSeqIndex + 3 →
      if accepted then v.running = false else v.settled = false
 | _ => True

structure Tracked (v : Vibrator) : Prop where
 nodes : ∀ node ∈ v.effectSeqHead, 2 ≤ node.seq.length ∧ node.seq.length ≤ hapticSeqMax
 stopped : v.Played → v.settled = false
 effects : v.effectType = .effect →
  v.fired ++ effectEntries (v.currentEffectSeq.drop v.currentSeqIndex) =
   effectEntries v.currentEffectSeq
 waits : ∀ timer, v.timer = some timer → minWaitTime ≤ timer.duration
 accepting : v.stuck = false

variable {v : Vibrator}

theorem effectEntries_short : ∀ {seq : List ℕ}, seq.length ≤ 1 → effectEntries seq = []
 | [], _ => rfl
 | [_], _ => rfl
 | _ :: _ :: _, short => by simp at short

theorem Tracked.right (h : Tracked v) : Right v where
 stopped := h.stopped
 effects := by
  intro played effect
  rw [Vibrator.Played, effect] at played
  have none : (v.currentEffectSeq.drop v.currentSeqIndex).length ≤ 1 := by
   rw [List.length_drop]
   omega
  have all := h.effects effect
  rwa [effectEntries_short none, List.append_nil] at all
 waits := h.waits
 accepting := h.accepting

theorem Tracked.moded (h : Tracked v) (mode : ConfigMode) : Tracked { v with mode := mode } :=
 ⟨h.nodes, h.stopped, h.effects, h.waits, h.accepting⟩

section Starts
variable {created started : Bool} {effectCfg : EffectCfg}

/-- `t` is `v` with a new sequence. -/
structure Started (v t : Vibrator) : Prop where
 mode : t.mode = v.mode
 nodes : t.effectSeqHead = v.effectSeqHead
 stuck : t.stuck = v.stuck
 seq : 2 ≤ t.currentEffectSeq.length
 index : t.currentSeqIndex = 0
 fired : t.fired = []

theorem Started.tracked {t : Vibrator} (started : Started v t) (h : Tracked v)
  (waits : ∀ timer, t.timer = some timer → minWaitTime ≤ timer.duration) : Tracked t where
 nodes := by
  rw [started.nodes]
  exact h.nodes
 stopped := by
  intro played
  have long := started.seq
  unfold Vibrator.Played at played
  rw [started.index] at played
  split at played <;> omega
 effects := by
  intro _
  rw [started.index, started.fired]
  rfl
 waits := waits
 accepting := started.stuck.trans h.accepting

theorem getHapticSeq_mode : (getHapticSeqByEffect effectCfg v).2.mode = v.mode := by
 unfold getHapticSeqByEffect
 dsimp only
 split
 · rfl
 · split
   · rfl
   · split <;> rfl
 · rfl

theorem getHapticSeq_started (h : Tracked v)
  (success : (getHapticSeqByEffect effectCfg v).1 = .success) :
  Started v (getHapticSeqByEffect effectCfg v).2 := by
 unfold getHapticSeqByEffect at *
 dsimp only at *
 split at *
 · exact ⟨rfl, rfl, rfl, le_rfl, rfl, rfl⟩
 · split at *
   · cases success
   · next pos found =>
     have long := h.nodes pos (List.mem_of_find?_eq_some found)
     have fits : ¬(pos.seq.length ≤ 1 ∨ hapticSeqMax < pos.seq.length) := by omega
     rw [if_neg fits]
     exact ⟨rfl, rfl, rfl, long.1, rfl, rfl⟩
 · cases success

theorem getHapticSeq_preset (h : Tracked v) (name : List UInt8) :
  (getHapticSeqByEffect ⟨.preset, 0, some name⟩ v).1 = .success ↔
   ∃ pos ∈ v.effectSeqHead, pos.effect = name := by
 unfold getHapticSeqByEffect
 dsimp only
 cases found : v.effectSeqHead.find? fun pos => pos.effect = name with
 | none =>
  have absent := List.find?_eq_none.mp found
  simp only [decide_eq_true_eq] at absent
  simpa using absent
 | some pos =>
  have mem := List.mem_of_find?_eq_some found
  have long := h.nodes pos mem
  have fits : ¬(pos.seq.length ≤ 1 ∨ hapticSeqMax < pos.seq.length) := by omega
  dsimp only
  rw [if_neg fits]
  have named := List.find?_some found
  exact iff_of_true rfl ⟨pos, mem, of_decide_eq_true named⟩

theorem startHaptic_success : (startHaptic effectCfg created started v).1 = .success ↔
  (effectCfg.cfgMode = .preset → v.supportHaptic = true) ∧
   (getHapticSeqByEffect effectCfg v).1 = .success ∧ created = true ∧ started = true := by
 unfold startHaptic
 by_cases missing : effectCfg.cfgMode = .preset ∧ ¬v.supportHaptic = true
 · rw [if_pos missing]
   simp [missing]
 rw [if_neg missing]
 have supported : effectCfg.cfgMode = .preset → v.supportHaptic = true := by
  intro preset
  by_contra other
  exact missing ⟨preset, other⟩
 rw [and_iff_right supported]
 split
 · next t same =>
   rw [same, and_iff_right rfl]
   cases created <;> cases started <;> simp [startLoop]
 · next failed other =>
   refine iff_of_false (fun success => ?_) (fun all => ?_)
   · exact other _ (Prod.ext success rfl)
   · exact other _ (Prod.ext all.1 rfl)

theorem startHaptic_mode : (startHaptic effectCfg created started v).2.mode = v.mode := by
 have kept := @getHapticSeq_mode v effectCfg
 unfold startHaptic
 split
 · rfl
 · split
   · next same =>
     rw [same] at kept
     rw [← kept, startLoop]
     dsimp only
     split
     · rfl
     · split <;> rfl
   · exact kept

theorem startHaptic_tracked (h : Tracked v)
  (success : (startHaptic effectCfg created started v).1 = .success) :
  Tracked (startHaptic effectCfg created started v).2 := by
 obtain ⟨supported, found, rfl, rfl⟩ := startHaptic_success.mp success
 have fresh := getHapticSeq_started h found
 have missing : ¬(effectCfg.cfgMode = .preset ∧ ¬v.supportHaptic = true) := by tauto
 unfold startHaptic
 rw [if_neg missing]
 rw [show getHapticSeqByEffect effectCfg v = (.success, (getHapticSeqByEffect effectCfg v).2) from
  Prod.ext found rfl]
 refine Started.tracked ⟨fresh.mode, fresh.nodes, fresh.stuck, fresh.seq, fresh.index, fresh.fired⟩
  h ?_
 rintro timer same
 cases same
 dsimp only
 split <;> omega

theorem after_accepting (h : Tracked v) {result : VibratorStatus × Vibrator}
  (fine : ¬(v.mode = .butt ∧ result.1 ≠ .success ∧ result.2.mode ≠ .butt)) :
  (v.after result).stuck = false := by
 rw [Vibrator.after, h.accepting, Bool.false_or]
 exact decide_eq_false fine

/-- A start that finds the driver free keeps it right exactly by its success. -/
theorem startMode_free (h : Tracked v) (free : v.mode = .butt) (busy : effectCfg.cfgMode ≠ .butt) :
  let result := startHaptic effectCfg created started { v with mode := effectCfg.cfgMode }
  (result.1 = .success → Tracked (v.after (startMode effectCfg created started v))) ∧
   ((v.after (startMode effectCfg created started v)).stuck = false → result.1 = .success) := by
 have taken := h.moded effectCfg.cfgMode
 have mode := @startHaptic_mode { v with mode := effectCfg.cfgMode } created started effectCfg
 dsimp only
 rw [startMode, if_neg (not_not.mpr free)]
 constructor
 · intro success
   have kept := startHaptic_tracked taken success
   exact ⟨kept.nodes, kept.stopped, kept.effects, kept.waits,
    after_accepting h fun failed => absurd success failed.2.1⟩
 · intro accepting
   by_contra failed
   simp [Vibrator.after, free, failed, mode, busy] at accepting

theorem startMode_busy (h : Tracked v) (busy : v.mode ≠ .butt) :
  Tracked (v.after (startMode effectCfg created started v)) := by
 rw [startMode, if_pos busy]
 exact ⟨h.nodes, h.stopped, h.effects, h.waits, after_accepting h fun failed => busy failed.1⟩

theorem refused_tracked (h : Tracked v) (status : VibratorStatus) :
  Tracked (v.after (status, v)) :=
 ⟨h.nodes, h.stopped, h.effects, h.waits, after_accepting h fun failed => failed.2.2 failed.1⟩

end Starts

theorem work_tracked (h : Tracked v) : Tracked (vibratorWorkEntry v) :=
 ⟨h.nodes, h.stopped, h.effects, h.waits, h.accepting⟩

theorem stop_tracked (h : Tracked v) (mode : Option ConfigMode) (deleted : Bool) :
  Tracked (stop mode deleted v).2 := by
 unfold stop stopHaptic
 split
 · exact h
 · split
   · exact h
   · by_cases kept : v.timer.isSome = true ∧ ¬deleted = true
     · rw [if_pos kept]
       exact h
     · rw [if_neg kept]
       exact ⟨h.nodes, fun _ => rfl, h.effects, nofun, h.accepting⟩

theorem setTimer_tracked (h : Tracked v) (wait : ℕ) (set deleted : Bool) :
  Tracked (setTimer wait set deleted v) := by
 refine ⟨h.nodes, h.stopped, h.effects, ?_, h.accepting⟩
 intro timer same
 by_cases short : 0 < wait ∧ wait < minWaitTime
 · simp only [setTimer, if_pos short] at same
   split_ifs at same
   · cases same
     exact le_rfl
   · exact h.waits timer same
 · simp only [setTimer, if_neg short] at same
   split_ifs at same with again
   · cases same
     exact Nat.le_of_not_lt fun less => short ⟨again.1, less⟩
   · exact h.waits timer same

section Ticks
variable {accepted set deleted : Bool}

theorem time_walked (h : Tracked v) (type : v.effectType = .time)
  (fine : v.currentSeqIndex + 1 = v.currentEffectSeq.length → v.currentSeqIndex % 2 = 1) :
  Tracked (processHapticTime v).1 := by
 unfold processHapticTime
 split
 · exact h
 · next inside =>
   have other : ∀ t : Vibrator, t.effectType = v.effectType → t.effectType ≠ .effect := by
    intro t same effect
    rw [same, type] at effect
    cases effect
   by_cases even : v.currentSeqIndex % 2 = 0
   · dsimp only
     rw [if_pos even]
     refine ⟨h.nodes, fun played => ?_, fun effect => absurd effect (other v rfl), h.waits,
      h.accepting⟩
     have last : v.currentEffectSeq.length ≤ v.currentSeqIndex + 1 := by
      simpa [Vibrator.Played, startTimeVibrator, type] using played
     have odd := fine (by omega)
     omega
   · dsimp only
     rw [if_neg even]
     exact ⟨h.nodes, fun _ => rfl, fun effect => absurd effect (other v rfl), h.waits,
      h.accepting⟩

theorem effectEntries_drop {seq : List ℕ} {index effect : ℕ}
  (found : seq[index + 1]? = some effect) :
  effectEntries (seq.drop index) = effect :: effectEntries (seq.drop (index + 2)) := by
 obtain ⟨inside, rfl⟩ := List.getElem?_eq_some_iff.mp found
 rw [← List.getElem_cons_drop (show index < seq.length by omega), ← List.getElem_cons_drop inside]
 rfl

theorem setEffect_settled (effect index : ℕ) :
  { setEffectVibrator effect accepted v with currentSeqIndex := index }.settled = false ↔
    if accepted then v.running = false else v.settled = false := by
 cases accepted with
 | false => exact Iff.rfl
 | true =>
  rw [if_pos rfl, Vibrator.settled, vibratorWorkEntry, setEffectVibrator, if_pos rfl]
  cases v.queued <;> exact Iff.rfl

theorem effect_walked (h : Tracked v) (type : v.effectType = .effect)
  (fine : v.currentSeqIndex + 1 < v.currentEffectSeq.length →
   v.currentEffectSeq.length ≤ v.currentSeqIndex + 3 →
    if accepted then v.running = false else v.settled = false) :
  Tracked (processHapticEffect accepted v).1 := by
 unfold processHapticEffect
 split
 · exact h
 · next effect found =>
   obtain ⟨inside, -⟩ := List.getElem?_eq_some_iff.mp found
   refine ⟨h.nodes, fun played => ?_, fun _ => ?_, h.waits, h.accepting⟩
   · have last : v.currentEffectSeq.length ≤ v.currentSeqIndex + 3 := by
      simpa [Vibrator.Played, setEffectVibrator, type] using played
     rw [setEffect_settled]
     exact fine inside last
   · have all := h.effects type
     rw [effectEntries_drop found] at all
     change (v.fired ++ [effect]) ++ _ = _
     rwa [List.append_assoc]

end Ticks

theorem step_tracked (v : Vibrator) (event : Event) (h : Tracked v) (fine : Fine v event) :
  ∃ t, step v event = some t ∧ Tracked t := by
 refine ⟨_, rfl, ?_⟩
 cases event with
 | startOnce duration created started =>
  dsimp only [Vibrator.next, startOnce]
  split
  · exact refused_tracked h _
  · exact refused_tracked h _
  · next other duration =>
    by_cases free : v.mode = .butt
    · obtain ⟨d, rfl⟩ := Nat.exists_eq_succ_of_ne_zero duration
      obtain ⟨rfl, rfl⟩ := fine free ⟨d, rfl⟩
      exact (startMode_free h free (by simp)).1 (startHaptic_success.mpr ⟨nofun, rfl, rfl, rfl⟩)
    · exact startMode_busy h free
 | startEffect effect created started =>
  dsimp only [Vibrator.next, startEffect]
  split
  · exact refused_tracked h _
  · next name =>
    by_cases free : v.mode = .butt
    · obtain ⟨supported, found, rfl, rfl⟩ := fine free name rfl
      have known := (getHapticSeq_preset (h.moded .preset) name).mpr found
      exact (startMode_free h free (by simp)).1
       (startHaptic_success.mpr ⟨fun _ => supported, known, rfl, rfl⟩)
    · exact startMode_busy h free
 | stop mode deleted => exact stop_tracked h mode deleted
 | work => exact work_tracked h
 | expire accepted set deleted =>
  dsimp only [Vibrator.next]
  split
  · next expires =>
    have walk := fine expires
    unfold hapticTimerEntry
    cases type : v.effectType with
    | time =>
     rw [type] at walk
     exact setTimer_tracked (time_walked h type walk) _ set deleted
    | effect =>
     rw [type] at walk
     exact setTimer_tracked (effect_walked h type walk) _ set deleted
  · exact h

theorem step_fine (v : Vibrator) (event : Event) (h : Tracked v)
  (right : ∃ t, step v event = some t ∧ Right t) : Fine v event := by
 obtain ⟨t, called, right⟩ := right
 cases called
 cases event with
 | startOnce duration created started =>
  rintro free ⟨d, rfl⟩
  have success := (startMode_free h free (by simp)).2 right.accepting
  exact (startHaptic_success.mp success).2.2
 | startEffect effect created started =>
  rintro free name rfl
  have success := (startMode_free h free (by simp)).2 right.accepting
  obtain ⟨supported, found, both⟩ := startHaptic_success.mp success
  exact ⟨supported rfl, (getHapticSeq_preset (h.moded .preset) name).mp found, both⟩
 | stop => trivial
 | work => trivial
 | expire accepted set deleted =>
  intro expires
  have stopped := right.stopped
  dsimp only [Vibrator.next] at stopped
  rw [if_pos expires, hapticTimerEntry] at stopped
  cases type : v.effectType with
  | time =>
   intro last
   rw [type] at stopped
   change (processHapticTime v).1.Played → (processHapticTime v).1.settled = false at stopped
   by_contra even
   have inside : ¬v.currentEffectSeq.length ≤ v.currentSeqIndex := by omega
   rw [processHapticTime, if_neg inside] at stopped
   dsimp only at stopped
   rw [if_pos (by omega)] at stopped
   have played : v.currentEffectSeq.length ≤ v.currentSeqIndex + 1 := last.ge
   have off := stopped (by simpa [Vibrator.Played, startTimeVibrator, type] using played)
   cases off
  | effect =>
   intro inside last
   rw [type] at stopped
   change (processHapticEffect accepted v).1.Played →
    (processHapticEffect accepted v).1.settled = false at stopped
   rw [processHapticEffect, List.getElem?_eq_getElem inside] at stopped
   have off := stopped (by simpa [Vibrator.Played, setEffectVibrator, type] using last)
   rwa [setEffect_settled] at off

/-- In every run a sequence that is played to its end leaves the motor stopped and has set its
effects once and in order, every wait is at least the minimum and a start that fails leaves a free
driver free, exactly if every event is fine. -/
theorem runs_right_iff (supportPreset : Bool) (hapticNode : List (EffectNode × Bool))
    (events : List Event) :
    RunRules.Safe step Right (initVibrator supportPreset hapticNode) events ↔
      RunRules.Along step Fine (initVibrator supportPreset hapticNode) events := by
  refine RunRules.safe_iff_along_of (A := fun _ => True) (fun _ h => Tracked.right h) step_tracked
    (fun v event h _ => step_fine v event h) _ events ?_ fun _ _ => trivial
  refine ⟨?_, fun _ => rfl, fun _ => rfl, nofun, rfl⟩
  intro node mem
  cases supportPreset with
  | false => cases mem
  | true =>
    obtain ⟨⟨childNode, granted⟩, -, kept⟩ := List.mem_filterMap.mp mem
    dsimp only at kept
    split_ifs at kept with refused
    cases kept
    omega

/-- A start with an unknown name leaves the driver busy, and a sequence of three times ends with
the motor started. -/
theorem unknown_name_and_odd_sequence :
    ¬RunRules.Safe step Right (initVibrator true []) [.startEffect (some [0x41]) true true] ∧
      ¬RunRules.Safe step Right (initVibrator true [(⟨[0x41], .time, [100, 200, 300]⟩, true)])
        [.startEffect (some [0x41]) true true, .expire true true true, .expire true true true,
          .expire true true true] := by
  constructor
  · intro safe
    obtain ⟨v, run, right⟩ := safe _ List.prefix_rfl
    cases run
    exact absurd right.accepting (by decide)
  · intro safe
    obtain ⟨v, run, right⟩ := safe _ List.prefix_rfl
    cases run
    exact absurd (right.stopped (le_refl 3)) (by decide)

end DriversFramework.VibratorRuns
