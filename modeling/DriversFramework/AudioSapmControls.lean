import DriversFramework.AudioControlRuns
import DriversFramework.AudioSapmPower

namespace DriversFramework.AudioSapm

open AudioControls FiniteGraphs RegisterFields

variable {n : ℕ}

structure PowerField where
 mask : BitVec 8
 shift : BitVec 8
 invert : BitVec 8
 deriving DecidableEq

/-- A card with the registers of its devices. Its components belong to its codec and to its
accessory. -/
structure SapmCard (n : ℕ) where
 card : AudioCard n
 field : Fin n → PowerField
 regs : DeviceKind → Option Registers
 isSleep : Bool

/-- Which updates of the registers of which components fail. -/
abbrev PowerFaults (n : ℕ) := Fin n → DeviceKind → Faults

namespace SapmCard

/-- The `mixerControl` of a component; the updates look at nothing else of it. -/
def powerControl (s : SapmCard n) (c : Fin n) : AudioMixerControl where
 min := 0
 max := 0
 mask := (s.field c).mask.setWidth 32
 reg := BitVec.ofInt 32 (s.card.component c).reg
 rreg := 0
 shift := (s.field c).shift.setWidth 32
 rshift := 0
 invert := 0

def updatePower (s : SapmCard n) (kind : DeviceKind) (c : Fin n) (val : Word) (faults : Faults) :
  Option (SapmCard n) :=
 match s.regs kind with
 | none => some s
 | some regs => (updateRegBits regs (s.powerControl c) val faults).map fun (_, regs) =>
  { s with regs := Function.update s.regs kind (some regs) }

/-- One component in `AudioSapmPowerUpSeqRun` or `AudioSapmPowerDownSeqRun`. -/
def switchPower (before after : ℕ) (faults : PowerFaults n) (s : SapmCard n) (c : Fin n) :
  Option (SapmCard n) :=
 if 0 ≤ (s.card.component c).reg ∧ s.card.power c = before then
  let val : Word := if (s.field c).invert = 0 then after else if after = 0 then 1 else 0
  (updatePower { s with card := s.card.setPowerFrom before after c } .codec c val
   (faults c .codec)).bind fun s => s.updatePower .accessory c val (faults c .accessory)
 else some s

def powerUpSeqRun (faults : PowerFaults n) (s : SapmCard n) (list : List (Fin n)) :
  Option (SapmCard n) :=
 list.foldlM (switchPower sapmPowerDown sapmPowerUp faults) s

def powerDownSeqRun (faults : PowerFaults n) (s : SapmCard n) (list : List (Fin n)) :
  Option (SapmCard n) :=
 list.foldlM (switchPower sapmPowerUp sapmPowerDown faults) s

def powerComponents (s : SapmCard n) (sapmDirty : List (Fin n)) (faults : PowerFaults n) :
  Option (SapmCard n) :=
 (s.card.powerLoop (n + 1) [] sapmDirty ⟨[], []⟩).bind fun lists =>
  (powerDownSeqRun faults s lists.downList).bind fun s => powerUpSeqRun faults s lists.upList

/-- `AudioCard.mixerUpdatePowerStatus` with the registers. A path from a component to itself puts
this on the list twice, which leaves the list without an end. -/
def mixerUpdatePowerStatus (s : SapmCard n) (kcontrol : ℕ) (pathStatus : Bool)
  (faults : PowerFaults n) : Option (HdfStatus × SapmCard n) :=
 match s.card.paths.findIdx? fun path => decide (path.kcontrol = some kcontrol) with
 | none => (s.powerComponents [] faults).map fun s => (.success, s)
 | some i =>
  match s.card.paths[i]? with
  | none => none
  | some path =>
   if AudioCard.mixerDevice (s.card.component path.sink).sapmType then
    if path.source = path.sink then none
    else (powerComponents { s with card := s.card.setConnect i pathStatus }
     [path.source, path.sink] faults).map fun s => (.success, s)
   else some (.devErrNoDevice, s)

end SapmCard

def audioSapmSetCtrlOps (mixerCtrl : AudioMixerControl) (elemValue : AudioCtrlElemValue) :
  HdfStatus × Word × Bool :=
 if mixerCtrl.OutOfRange elemValue.value0 then (.errInvalidObject, elemValue.value0, false)
 else (.success, mixerCtrl.inverted elemValue.value0,
  decide (mixerCtrl.inverted elemValue.value0 ≠ 0))

/-- Which accesses of an operation fail: in the plain ones the updates of both channels, in the
others the reading of the register and its update; and those of the power runs. -/
structure SetFaults (n : ℕ) where
 first : Faults
 second : Faults
 power : PowerFaults n

def sapmWrite (kind : DeviceKind) (mixerCtrl : AudioMixerControl) (value : Word) (faults : Faults)
  (s : SapmCard n) : Option (HdfStatus × SapmCard n) :=
 match s.regs kind with
 | none => some (.failure, s)
 | some regs => (updateRegBits regs mixerCtrl value faults).map fun (ret, regs) =>
  (if ret = .success then .success else .failure,
   { s with regs := Function.update s.regs kind (some regs) })

def sapmSetCtrlOps (kind : DeviceKind) (s : SapmCard n) (kcontrol : ℕ)
  (mixerCtrl : AudioMixerControl) (elemValue : AudioCtrlElemValue) (faults : SetFaults n) :
  Option (HdfStatus × SapmCard n) :=
 match s.regs kind with
 | none => some (.failure, s)
 | some regs =>
  if faults.first.read then some (.failure, s)
  else if 32 ≤ mixerCtrl.shift.toNat then none
  else
   let (_, value, pathStatus) := audioSapmSetCtrlOps mixerCtrl elemValue
   if regs mixerCtrl.reg &&& (mixerCtrl.mask <<< mixerCtrl.shift.toNat) ≠
     (value &&& mixerCtrl.mask) <<< mixerCtrl.shift.toNat ∨ s.isSleep then
    (s.mixerUpdatePowerStatus kcontrol pathStatus faults.power).bind fun (ret, s) =>
     if ret = .success then sapmWrite kind mixerCtrl elemValue.value0 faults.second s
     else some (.failure, s)
   else some (.success, s)

def audioCodecSapmSetCtrlOps : SapmCard n → ℕ → AudioMixerControl → AudioCtrlElemValue →
    SetFaults n → Option (HdfStatus × SapmCard n) := sapmSetCtrlOps .codec

def audioAccessorySapmSetCtrlOps : SapmCard n → ℕ → AudioMixerControl → AudioCtrlElemValue →
    SetFaults n → Option (HdfStatus × SapmCard n) := sapmSetCtrlOps .accessory

/-- The set operations of audio controls. -/
inductive SetOp where
 | plain (kind : DeviceKind)
 | codecSapm
 | accessorySapm
 deriving DecidableEq

def audioSet (op : SetOp) (s : SapmCard n) (kcontrol : ℕ) (c : AudioMixerControl)
  (e : AudioCtrlElemValue) (faults : SetFaults n) : Option (HdfStatus × SapmCard n) :=
 match op with
 | .plain kind => (setOps kind (s.regs kind) c e faults.first faults.second).map fun result =>
  (result.status, { s with regs := Function.update s.regs kind result.regs })
 | .codecSapm => audioCodecSapmSetCtrlOps s kcontrol c e faults
 | .accessorySapm => audioAccessorySapmSetCtrlOps s kcontrol c e faults

section PowerRuns

variable {s t : SapmCard n} {faults : PowerFaults n} {before after : ℕ} {list : List (Fin n)}
  {c : Fin n}

theorem updatePower_card {kind : DeviceKind} {val : Word} {fault : Faults}
  (run : s.updatePower kind c val fault = some t) : t.card = s.card := by
 unfold SapmCard.updatePower at run
 split at run
 · cases run
   rfl
 · obtain ⟨result, -, rfl⟩ := Option.map_eq_some_iff.mp run
   rfl

theorem switchPower_card (run : SapmCard.switchPower before after faults s c = some t) :
  t.card = s.card.setPowerFrom before after c := by
 unfold SapmCard.switchPower at run
 split at run
 · obtain ⟨u, first, second⟩ := Option.bind_eq_some_iff.mp run
   rw [updatePower_card second, updatePower_card first]
 · rename_i stays
   cases run
   rw [AudioCard.setPowerFrom, if_neg stays]

theorem seqRun_card (run : list.foldlM (SapmCard.switchPower before after faults) s = some t) :
  t.card = list.foldl (fun card c => card.setPowerFrom before after c) s.card := by
 induction list generalizing s with
 | nil =>
  cases run
  rfl
 | cons c rest ih =>
  rw [List.foldlM_cons] at run
  obtain ⟨u, first, rest⟩ := Option.bind_eq_some_iff.mp run
  rw [ih rest, switchPower_card first]
  rfl

theorem powerComponents_card {sapmDirty : List (Fin n)}
  (run : s.powerComponents sapmDirty faults = some t) :
  s.card.powerComponents sapmDirty = some t.card := by
 unfold SapmCard.powerComponents at run
 obtain ⟨lists, loop, run⟩ := Option.bind_eq_some_iff.mp run
 obtain ⟨u, down, up⟩ := Option.bind_eq_some_iff.mp run
 have downs := seqRun_card down
 have ups := seqRun_card up
 rw [AudioCard.powerComponents, loop, Option.map_some, ups, downs]
 rfl

theorem seqRun_same
  (stays : ∀ c ∈ list, ¬(0 ≤ (s.card.component c).reg ∧ s.card.power c = before)) :
  list.foldlM (SapmCard.switchPower before after faults) s = some s := by
 induction list with
 | nil => rfl
 | cons c rest ih =>
  rw [List.foldlM_cons, SapmCard.switchPower, if_neg (stays c List.mem_cons_self)]
  exact ih fun d hd => stays d (List.mem_cons_of_mem c hd)

def Turns (card : AudioCard n) (c : Fin n) : Prop :=
 ∃ power, card.powerCheck c = some power ∧ 0 ≤ (card.component c).reg ∧
  (power ≠ 0 ∧ card.power c = sapmPowerDown ∨ power = 0 ∧ card.power c = sapmPowerUp)

def Settled (card : AudioCard n) (starts : List (Fin n)) : Prop :=
 ∀ c, Reached (next card) starts c → card.powerCheck c ≠ none ∧ ¬Turns card c

theorem next_ne_none {card : AudioCard n} : next card c ≠ none ↔ card.powerCheck c ≠ none := by
 unfold next
 rw [Ne, Option.map_eq_none_iff]

theorem powerLoop_reached {card : AudioCard n} {starts : List (Fin n)}
  {lists : AudioCard.PowerLists n} (loop : card.powerLoop (n + 1) [] starts ⟨[], []⟩ = some lists) :
  ∃ result, (∀ c, c ∈ result ↔ Reached (next card) starts c) ∧ Holds card result lists ∧
   ∀ c, Reached (next card) starts c → card.powerCheck c ≠ none := by
 have both := powerLoop_walk card (n + 1) [] starts ⟨[], []⟩ ⟨fun c => by simp, fun c => by simp⟩
 rcases both with ⟨result, lists', walk, loop', holds⟩ | ⟨-, none⟩
 · cases loop.symm.trans loop'
   exact ⟨result, fun c => mem_walk_iff walk, holds, fun c reached =>
    next_ne_none.mp (next_of_walk walk reached)⟩
 · rw [none] at loop
   cases loop

theorem settled_of_same {starts : List (Fin n)} {card card' : AudioCard n}
  (run : card.powerComponents starts = some card') (same : card'.power = card.power) :
  Settled card starts := by
 obtain ⟨lists, loop, rfl⟩ := Option.map_eq_some_iff.mp run
 obtain ⟨result, mem, holds, checks⟩ := powerLoop_reached loop
 obtain ⟨-, -, power⟩ := seqRuns_spec card lists
 refine fun c reached => ⟨checks c reached, ?_⟩
 rintro ⟨new, check, register, turns⟩
 have here := (mem c).mpr reached
 have kept : turned card lists c = card.power c := (power c).symm.trans (congrFun same c)
 unfold turned at kept
 simp only [holds.mem_up here check, holds.mem_down here check] at kept
 rcases turns with ⟨on, down⟩ | ⟨off, up⟩
 · rw [down] at kept
   simp [on, register, sapmPowerDown, sapmPowerUp] at kept
 · rw [up] at kept
   simp [off, register, sapmPowerDown, sapmPowerUp] at kept

theorem powerComponents_settled {starts : List (Fin n)} (nodup : starts.Nodup)
  (settled : Settled s.card starts) : s.powerComponents starts faults = some s := by
 have both := powerLoop_walk s.card (n + 1) [] starts ⟨[], []⟩
  ⟨fun c => by simp, fun c => by simp⟩
 have ends : (∃ result, walk (next s.card) (n + 1) [] starts = some result) ↔ _ :=
  walk_ends_iff nodup (by simp)
 obtain ⟨result, walk⟩ := ends.mpr fun c reached => next_ne_none.mpr (settled c reached).1
 rcases both with ⟨result', lists, walk', loop, holds⟩ | ⟨none, -⟩
 · cases walk.symm.trans walk'
   have down : SapmCard.powerDownSeqRun faults s lists.downList = some s := by
    refine seqRun_same fun c mem stays => ?_
    obtain ⟨here, power, check, -, zero⟩ := (holds.down c).mp mem
    exact (settled c ((mem_walk_iff walk).mp here)).2
     ⟨power, check, stays.1, .inr ⟨zero, stays.2⟩⟩
   have up : SapmCard.powerUpSeqRun faults s lists.upList = some s := by
    refine seqRun_same fun c mem stays => ?_
    obtain ⟨here, power, check, -, nonzero⟩ := (holds.up c).mp mem
    exact (settled c ((mem_walk_iff walk).mp here)).2
     ⟨power, check, stays.1, .inl ⟨nonzero, stays.2⟩⟩
   rw [SapmCard.powerComponents, loop, Option.bind_some, down, Option.bind_some, up]
 · rw [none] at walk
   cases walk

end PowerRuns

section Paths

variable {card : AudioCard n} {i : ℕ} {path : AudioSapmPath n} {status : Bool}

theorem setConnect_paths (there : card.paths[i]? = some path) :
  (card.setConnect i status).paths[i]? = some { path with connect := status } := by
 change (card.paths.modify i _)[i]? = _
 simp only [List.getElem?_modify, there, if_true]
 rfl

theorem setConnect_same (there : card.paths[i]? = some path) (same : path.connect = status) :
  card.setConnect i status = card := by
 have paths : card.paths.modify i (fun path => { path with connect := status }) = card.paths := by
  apply List.ext_getElem?
  intro j
  rw [List.getElem?_modify]
  split
  · rename_i here
    subst here
    rw [there, ← same]
    rfl
  · rw [Option.map_eq_map, Option.map_id_fun', id]
 rw [AudioCard.setConnect, paths]

def NoMixer (card : AudioCard n) (kcontrol : ℕ) : Prop :=
 ∃ i path, (card.paths.findIdx? fun path => decide (path.kcontrol = some kcontrol)) = some i ∧
  card.paths[i]? = some path ∧ AudioCard.mixerDevice (card.component path.sink).sapmType = false

theorem not_reached_nil (c : Fin n) : ¬Reached (next card) [] c := by
 intro reached
 induction reached with
 | start mem => cases mem
 | next _ _ _ ih => exact ih

theorem mixerUpdate_cases (s : SapmCard n) (kcontrol : ℕ) (status : Bool)
  (faults : PowerFaults n) :
  NoMixer s.card kcontrol ∧
    s.mixerUpdatePowerStatus kcontrol status faults = some (.devErrNoDevice, s) ∨
   ¬NoMixer s.card kcontrol ∧ changedPath s.card kcontrol = none ∧
    s.mixerUpdatePowerStatus kcontrol status faults = some (.success, s) ∨
   ∃ i path, ¬NoMixer s.card kcontrol ∧ changedPath s.card kcontrol = some (i, path) ∧
    s.card.paths[i]? = some path ∧ s.mixerUpdatePowerStatus kcontrol status faults =
     if path.source = path.sink then none
     else (SapmCard.powerComponents { s with card := s.card.setConnect i status }
      [path.source, path.sink] faults).map fun s => (.success, s) := by
 unfold changedPath SapmCard.mixerUpdatePowerStatus
 cases index : s.card.paths.findIdx? fun path => decide (path.kcontrol = some kcontrol) with
 | none =>
  refine .inr (.inl ⟨?_, rfl, ?_⟩)
  · rintro ⟨i, path, found, -⟩
    rw [index] at found
    cases found
  · change (s.powerComponents [] faults).map _ = _
    rw [powerComponents_settled List.nodup_nil]
    · rfl
    · exact fun c reached => absurd reached (not_reached_nil c)
 | some i =>
  have small := (List.findIdx?_eq_some_iff_getElem.mp index).1
  have there := List.getElem?_eq_getElem small
  have only : ∀ j path, (s.card.paths.findIdx? fun path =>
    decide (path.kcontrol = some kcontrol)) = some j → s.card.paths[j]? = some path →
     path = s.card.paths[i] := by
   intro j path found there'
   cases index.symm.trans found
   exact Option.some.inj (there'.symm.trans there)
  cases mixer : AudioCard.mixerDevice (s.card.component s.card.paths[i].sink).sapmType with
  | false =>
   refine .inl ⟨⟨i, _, index, there, mixer⟩, ?_⟩
   simp only [there, mixer]
   rfl
  | true =>
   refine .inr (.inr ⟨i, s.card.paths[i], ?_, ?_, there, ?_⟩)
   · rintro ⟨j, path, found, there', other⟩
     rw [only j path found there', mixer] at other
     cases other
   · simp only [there, Option.bind_some, mixer, if_true]
   · simp only [there, mixer, if_true]

end Paths

section Refusing

variable {s t : SapmCard n} {c : AudioMixerControl} {e : AudioCtrlElemValue} {faults : SetFaults n}
  {kind : DeviceKind} {kcontrol : ℕ} {value : Word} {regs : Registers}

/-- A value of the control is out of range; a mono control has no right channel. -/
def Refusable (c : AudioMixerControl) (e : AudioCtrlElemValue) : Prop :=
 c.OutOfRange e.value0 ∨ c.Stereo ∧ c.OutOfRange e.value1

/-- The operation fails, and leaves the registers, the paths and the power as they were. -/
def Refuses (op : SetOp) (s : SapmCard n) (kcontrol : ℕ) (c : AudioMixerControl)
  (e : AudioCtrlElemValue) (faults : SetFaults n) : Prop :=
 ∃ status, status ≠ .success ∧ audioSet op s kcontrol c e faults = some (status, s)

def PlainMeets (kind : DeviceKind) (s : SapmCard n) (c : AudioMixerControl)
  (e : AudioCtrlElemValue) (faults : SetFaults n) : Prop :=
 ∀ regs, Reaches kind (s.regs kind) c e regs → c.shift.toNat < 32 ∧
  (¬(faults.first.read ∨ faults.first.write) →
   field (c.inverted e.value0 <<< c.shift.toNat) c.mask c.shift.toNat =
    field (regs c.reg) c.mask c.shift.toNat)

def SapmMeets (kind : DeviceKind) (s : SapmCard n) (kcontrol : ℕ) (c : AudioMixerControl)
  (e : AudioCtrlElemValue) (faults : SetFaults n) : Prop :=
 ∀ regs, s.regs kind = some regs → faults.first.read = false → c.shift.toNat < 32 ∧
  (regs c.reg &&& (c.mask <<< c.shift.toNat) ≠
   ((audioSapmSetCtrlOps c e).2.1 &&& c.mask) <<< c.shift.toNat ∨ s.isSleep = true) ∧
  (NoMixer s.card kcontrol ∨ (faults.second.read ∨ faults.second.write) ∧
   ∀ found ∈ changedPath s.card kcontrol, found.2.source ≠ found.2.sink ∧
    found.2.connect = (audioSapmSetCtrlOps c e).2.2 ∧
     Settled s.card [found.2.source, found.2.sink])

/-- The condition under which an operation refuses. -/
def RefusalMeets (op : SetOp) (s : SapmCard n) (kcontrol : ℕ) (c : AudioMixerControl)
  (e : AudioCtrlElemValue) (faults : SetFaults n) : Prop :=
 match op with
 | .plain kind => PlainMeets kind s c e faults
 | .codecSapm => SapmMeets .codec s kcontrol c e faults
 | .accessorySapm => SapmMeets .accessory s kcontrol c e faults

theorem plain_refuses_iff : Refuses (.plain kind) s kcontrol c e faults ↔
  ∃ result, setOps kind (s.regs kind) c e faults.first faults.second = some result ∧
   result.status ≠ .success ∧ result.regs = s.regs kind := by
 constructor
 · rintro ⟨status, failed, run⟩
   obtain ⟨result, ran, same⟩ := Option.map_eq_some_iff.mp run
   obtain ⟨rfl, state⟩ := Prod.mk.inj same
   refine ⟨result, ran, failed, ?_⟩
   have regs : Function.update s.regs kind result.regs = s.regs := congrArg SapmCard.regs state
   rw [← regs, Function.update_self]
 · rintro ⟨result, ran, failed, regs⟩
   refine ⟨result.status, failed, ?_⟩
   rw [audioSet, ran, Option.map_some, regs, Function.update_eq_self]

theorem put_same_iff : c.put regs value = regs ↔
  field (value <<< c.shift.toNat) c.mask c.shift.toNat =
   field (regs c.reg) c.mask c.shift.toNat := by
 constructor
 · intro same
   have back : field (c.put regs value c.reg) c.mask c.shift.toNat = _ := c.field_put
   rw [← back, same]
 · exact AudioMixerControl.put_same

theorem plain_iff (refusable : Refusable c e) :
  Refuses (.plain kind) s kcontrol c e faults ↔ PlainMeets kind s c e faults := by
 rw [plain_refuses_iff]
 by_cases reach : ∃ regs, Reaches kind (s.regs kind) c e regs
 · obtain ⟨regs, reaches⟩ := reach
   obtain ⟨stereo, range⟩ := refusable.resolve_left reaches.inRange
   have one : PlainMeets kind s c e faults ↔ c.shift.toNat < 32 ∧
     (¬(faults.first.read ∨ faults.first.write) →
      field (c.inverted e.value0 <<< c.shift.toNat) c.mask c.shift.toNat =
       field (regs c.reg) c.mask c.shift.toNat) := by
    refine ⟨fun meets => meets regs reaches, fun meets regs' reaches' => ?_⟩
    cases reaches.device.symm.trans reaches'.device
    exact meets
   rw [one]
   by_cases shift : c.shift.toNat < 32
   · rw [and_iff_right shift]
     by_cases failed : faults.first.read ∨ faults.first.write
     · rw [setOps_failed reaches shift failed]
       refine iff_of_true ⟨_, rfl, ?_, rfl⟩ fun done => absurd failed done
       intro success
       cases success
     rw [setOps_done reaches shift failed, setRight_range stereo range,
      forall_prop_of_true failed, ← put_same_iff, reaches.device]
     constructor
     · rintro ⟨result, same, -, regs'⟩
       cases same
       exact Option.some.inj regs'
     · exact fun same => ⟨_, rfl, errorOf_ne kind, congrArg some same⟩
   · rw [setOps_undefined reaches shift]
     refine iff_of_false ?_ fun meets => shift meets.1
     rintro ⟨result, none, -⟩
     cases none
 · obtain ⟨status, failed, run⟩ :=
    setOps_stops faults.first faults.second (not_exists.mp reach)
   rw [run]
   exact iff_of_true ⟨_, rfl, failed, rfl⟩ fun regs reaches => absurd ⟨regs, reaches⟩ reach

theorem sapmWrite_failed {fault : Faults} (shift : c.shift.toNat < 32)
  (failed : fault.read ∨ fault.write) : sapmWrite kind c value fault s = some (.failure, s) := by
 unfold sapmWrite
 cases device : s.regs kind with
 | none => rfl
 | some regs =>
  change (updateRegBits regs c value fault).map _ = _
  rw [updateRegBits_failed shift failed]
  change some (HdfStatus.failure, { s with regs := Function.update s.regs kind (some regs) }) = _
  rw [← device, Function.update_eq_self]

theorem sapmWrite_done {fault : Faults} (shift : c.shift.toNat < 32)
  (done : ¬(fault.read ∨ fault.write)) (device : s.regs kind = some regs) :
  ∃ t, sapmWrite kind c value fault s = some (.success, t) := by
 unfold sapmWrite
 rw [device]
 change ∃ t, (updateRegBits regs c value fault).map _ = _
 rw [updateRegBits_done shift done]
 exact ⟨_, rfl⟩

theorem sapmSet_eq (device : s.regs kind = some regs) (read : faults.first.read = false)
  (shift : c.shift.toNat < 32) : sapmSetCtrlOps kind s kcontrol c e faults =
   if regs c.reg &&& (c.mask <<< c.shift.toNat) ≠
     ((audioSapmSetCtrlOps c e).2.1 &&& c.mask) <<< c.shift.toNat ∨ s.isSleep then
    (s.mixerUpdatePowerStatus kcontrol (audioSapmSetCtrlOps c e).2.2 faults.power).bind
     fun (ret, s) => if ret = .success then sapmWrite kind c e.value0 faults.second s
      else some (.failure, s)
   else some (.success, s) := by
 unfold sapmSetCtrlOps
 rw [device]
 simp only [read, if_neg (show ¬32 ≤ c.shift.toNat by omega)]
 rfl

theorem powerRun_same_iff {i : ℕ} {path : AudioSapmPath n} {status : Bool}
  (power : PowerFaults n) (there : s.card.paths[i]? = some path)
  (differ : path.source ≠ path.sink) :
  SapmCard.powerComponents { s with card := s.card.setConnect i status }
    [path.source, path.sink] power = some s ↔
   path.connect = status ∧ Settled s.card [path.source, path.sink] := by
 constructor
 · intro run
   have card := powerComponents_card run
   change (s.card.setConnect i status).powerComponents [path.source, path.sink] = some s.card
    at card
   have connect : path.connect = status := by
    obtain ⟨lists, -, same⟩ := Option.map_eq_some_iff.mp card
    have paths : s.card.paths = (s.card.setConnect i status).paths := by
     rw [← (seqRuns_spec (s.card.setConnect i status) lists).2.1, same]
    have changed : (s.card.setConnect i status).paths[i]? = _ := setConnect_paths there
    rw [← paths, there] at changed
    exact congrArg AudioSapmPath.connect (Option.some.inj changed)
   rw [setConnect_same there connect] at card
   exact ⟨connect, settled_of_same card rfl⟩
 · rintro ⟨connect, settled⟩
   rw [setConnect_same there connect]
   exact powerComponents_settled (List.nodup_cons.mpr
    ⟨by rwa [List.mem_singleton], List.nodup_singleton _⟩) settled

theorem sapmChange_iff {status : Bool} (device : s.regs kind = some regs)
  (shift : c.shift.toNat < 32) :
  (∃ failed, failed ≠ .success ∧
   (s.mixerUpdatePowerStatus kcontrol status faults.power).bind (fun (ret, s) =>
    if ret = .success then sapmWrite kind c e.value0 faults.second s
    else some (.failure, s)) = some (failed, s)) ↔
   NoMixer s.card kcontrol ∨ (faults.second.read ∨ faults.second.write) ∧
    ∀ found ∈ changedPath s.card kcontrol, found.2.source ≠ found.2.sink ∧
     found.2.connect = status ∧ Settled s.card [found.2.source, found.2.sink] := by
 rcases mixerUpdate_cases s kcontrol status faults.power with
  ⟨other, run⟩ | ⟨mixer, unchanged, run⟩ | ⟨i, path, mixer, changed, there, run⟩
 · rw [run]
   exact iff_of_true ⟨.failure, by decide, rfl⟩ (.inl other)
 · rw [run, or_iff_right mixer, unchanged]
   change (∃ failed, failed ≠ .success ∧
    sapmWrite kind c e.value0 faults.second s = some (failed, s)) ↔ _
   by_cases fails : faults.second.read ∨ faults.second.write
   · rw [sapmWrite_failed shift fails]
     refine iff_of_true ⟨.failure, by decide, rfl⟩ ⟨fails, fun found none => ?_⟩
     cases none
   have ends : ∃ t, sapmWrite kind c e.value0 faults.second s = some (.success, t) :=
    sapmWrite_done shift fails device
   obtain ⟨t, done⟩ := ends
   rw [done]
   refine iff_of_false ?_ fun h => fails h.1
   rintro ⟨failed, other, same⟩
   cases same
   exact other rfl
 · rw [run, or_iff_right mixer, changed]
   simp only [Option.mem_def, Option.some.injEq, forall_eq']
   by_cases loop : path.source = path.sink
   · rw [if_pos loop]
     refine iff_of_false ?_ fun h => h.2.1 loop
     rintro ⟨failed, -, none⟩
     cases none
   rw [if_neg loop, and_iff_right loop]
   by_cases fails : faults.second.read ∨ faults.second.write
   · rw [and_iff_right fails, ← powerRun_same_iff faults.power there loop]
     cases SapmCard.powerComponents { s with card := s.card.setConnect i status }
       [path.source, path.sink] faults.power with
     | none =>
      refine iff_of_false ?_ (Option.some_ne_none s).symm
      rintro ⟨failed, -, none⟩
      cases none
     | some t =>
      change (∃ failed, failed ≠ .success ∧
       sapmWrite kind c e.value0 faults.second t = some (failed, s)) ↔ _
      rw [sapmWrite_failed shift fails]
      constructor
      · rintro ⟨failed, -, same⟩
        cases same
        rfl
      · intro same
        cases same
        exact ⟨.failure, by decide, rfl⟩
   · refine iff_of_false ?_ fun h => fails h.1
     rintro ⟨failed, other, run⟩
     obtain ⟨⟨ret, t⟩, ran, write⟩ := Option.bind_eq_some_iff.mp run
     obtain ⟨t', -, same⟩ := Option.map_eq_some_iff.mp ran
     cases same
     change sapmWrite kind c e.value0 faults.second t = some (failed, s) at write
     cases device' : t.regs kind with
     | none =>
      unfold sapmWrite at write
      rw [device'] at write
      cases write
      rw [device] at device'
      cases device'
     | some regs' =>
      have ends : ∃ u, sapmWrite kind c e.value0 faults.second t = some (.success, u) :=
       sapmWrite_done shift fails device'
      obtain ⟨u, done⟩ := ends
      rw [done] at write
      cases write
      exact other rfl

theorem sapm_iff : (∃ status, status ≠ .success ∧
  sapmSetCtrlOps kind s kcontrol c e faults = some (status, s)) ↔
   SapmMeets kind s kcontrol c e faults := by
 unfold SapmMeets
 cases device : s.regs kind with
 | none =>
  refine iff_of_true ⟨.failure, by decide, ?_⟩ fun regs missing => ?_
  · unfold sapmSetCtrlOps
    rw [device]
  · cases missing
 | some regs =>
  cases read : faults.first.read with
  | true =>
   refine iff_of_true ⟨.failure, by decide, ?_⟩ fun regs _ reads => ?_
   · unfold sapmSetCtrlOps
     rw [device]
     simp only [read, if_true]
   · cases reads
  | false =>
   simp only [Option.some.injEq, forall_eq', forall_true_left]
   by_cases shift : c.shift.toNat < 32
   · rw [and_iff_right shift, sapmSet_eq device read shift]
     by_cases changes : regs c.reg &&& (c.mask <<< c.shift.toNat) ≠
       ((audioSapmSetCtrlOps c e).2.1 &&& c.mask) <<< c.shift.toNat ∨ s.isSleep = true
     · rw [if_pos changes, and_iff_right changes]
       exact sapmChange_iff device shift
     · rw [if_neg changes]
       refine iff_of_false ?_ fun meets => changes meets.1
       rintro ⟨status, failed, run⟩
       cases run
       exact failed rfl
   · refine iff_of_false ?_ fun meets => shift meets.1
     rintro ⟨status, -, run⟩
     unfold sapmSetCtrlOps at run
     rw [device] at run
     simp only [read, if_pos (show 32 ≤ c.shift.toNat by omega)] at run
     cases run

/-- A set operation that is given a value out of range fails and leaves everything as it was,
exactly if it meets the condition. -/
theorem refuses_iff (op : SetOp) (s : SapmCard n) (kcontrol : ℕ) (c : AudioMixerControl)
    (e : AudioCtrlElemValue) (faults : SetFaults n) (refusable : Refusable c e) :
    Refuses op s kcontrol c e faults ↔ RefusalMeets op s kcontrol c e faults := by
  cases op with
  | plain kind => exact plain_iff refusable
  | codecSapm => exact sapm_iff
  | accessorySapm => exact sapm_iff

end Refusing

/-- The mixer card with a register for its switches, all of which are on. -/
def switchedMixer : SapmCard 3 where
 card := bareMixer
 field := fun _ => ⟨1, 0, 0⟩
 regs := fun _ => some fun _ => 1
 isSleep := false

/-- A switch of one bit. -/
def mixerSwitch : AudioMixerControl where
 min := 0
 max := 1
 mask := 1
 reg := 4
 rreg := 4
 shift := 0
 rshift := 0
 invert := 0

def noFaults : SetFaults 3 := ⟨works, works, fun _ _ => works⟩

theorem refuses_iff_volume : Refuses (.plain .codec) switchedMixer 7 volume ⟨300, 0⟩ noFaults ↔
    RefusalMeets (.plain .codec) switchedMixer 7 volume ⟨300, 0⟩ noFaults :=
  refuses_iff (.plain .codec) switchedMixer 7 volume ⟨300, 0⟩ noFaults (.inl (by decide))

/-- A switch of a mixer that is set to 4 disconnects its path, and the operation succeeds; a
volume of 10 and 300 leaves the 10 in the register. -/
theorem not_refused : (Refusable mixerSwitch ⟨4, 0⟩ ∧
      (audioSet .codecSapm switchedMixer 7 mixerSwitch ⟨4, 0⟩ noFaults).map (fun result =>
        (result.1, (result.2.card.paths[0]?).map (·.connect))) = some (.success, some false) ∧
      ¬Refuses .codecSapm switchedMixer 7 mixerSwitch ⟨4, 0⟩ noFaults) ∧
    Refusable volume ⟨10, 300⟩ ∧
      (audioSet (.plain .codec) switchedMixer 7 volume ⟨10, 300⟩ noFaults).map (fun result =>
        (result.1, (result.2.regs .codec).map fun regs => regs 0)) =
          some (.errInvalidObject, some 10) ∧
      ¬Refuses (.plain .codec) switchedMixer 7 volume ⟨10, 300⟩ noFaults := by
  have path : (audioSet .codecSapm switchedMixer 7 mixerSwitch ⟨4, 0⟩ noFaults).map (fun result =>
      (result.1, (result.2.card.paths[0]?).map (·.connect))) = some (.success, some false) := by
    decide
  have left : (audioSet (.plain .codec) switchedMixer 7 volume ⟨10, 300⟩ noFaults).map
      (fun result => (result.1, (result.2.regs .codec).map fun regs => regs 0)) =
        some (.errInvalidObject, some 10) := by
    decide
  refine ⟨⟨.inl (by decide), path, ?_⟩, .inr ⟨by decide, by decide⟩, left, ?_⟩
  · rintro ⟨status, failed, run⟩
    rw [run] at path
    exact failed (congrArg Prod.fst (Option.some.inj path))
  · rintro ⟨status, -, run⟩
    rw [run] at left
    have kept : some (1 : Word) = some 10 := congrArg Prod.snd (Option.some.inj left)
    cases kept

end DriversFramework.AudioSapm
