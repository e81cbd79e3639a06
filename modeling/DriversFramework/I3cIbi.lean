import DriversFramework.I3cCore
import DriversFramework.RunRules
import Mathlib.Data.List.ReduceOption
import Mathlib.Data.List.Perm.Basic

/-! `I3cCntlrRequestIbi` and `I3cCntlrFreeIbi` of `i3c_core.c` over the slots of each controller. An
interrupt structure is named by the device it was allocated for and by its number. What memory,
locks and the driver do is an input of a call; a call that waits for a lock that was left locked
has no state after it. -/
namespace DriversFramework.I3c

open RunRules

def i3cIbiMax : ℕ := 10

inductive IbiStatus where
 | success
 | errInvalidObject
 | errInvalidParam
 | errNotSupport
 | errDeviceBusy
 | errMallocFail
 /-- What the method of the controller returned. -/
 | methodFailure
 deriving DecidableEq

structure I3cIbiInfo where
 device : I3cDevice
 number : ℕ
 deriving DecidableEq

structure IbiState where
 core : I3cState
 ibiSlot : ℕ → List (Option I3cIbiInfo)
 ibi : I3cDevice → Option I3cIbiInfo
 locked : ℕ → Bool
 allocated : ℕ

/-- Whether `ops->requestIbi` and the callback are set, and what works. -/
structure IbiEnv where
 opsSet : Bool
 funcSet : Bool
 lock : Bool
 alloc : Bool
 method : Bool
 deriving DecidableEq

def IbiState.setSlots (s : IbiState) (cntlr : ℕ) (slots : List (Option I3cIbiInfo)) : IbiState :=
 { s with ibiSlot := Function.update s.ibiSlot cntlr slots }

def IbiState.setIbi (s : IbiState) (device : I3cDevice) (ibi : Option I3cIbiInfo) : IbiState :=
 { s with ibi := Function.update s.ibi device ibi }

/-- The part of `I3cCntlrRequestIbi` with the controller locked: the first free slot is taken. Where
there is no memory the controller stays locked. -/
def takeSlot (s : IbiState) (device : I3cDevice) (cntlr : ℕ) (env : IbiEnv) : IbiStatus × IbiState :=
 let slots := s.ibiSlot cntlr
 let ptr := slots.findIdx fun slot => slot = none
 if slots.length ≤ ptr then (.errDeviceBusy, s)
 else if env.alloc = false then
  (.errMallocFail, { s with locked := Function.update s.locked cntlr true })
 else
  let ibi : I3cIbiInfo := ⟨device, s.allocated⟩
  (if env.method then .success else .methodFailure,
   { (s.setIbi device (some ibi)).setSlots cntlr (slots.set ptr (some ibi)) with
    allocated := s.allocated + 1 })

def i3cCntlrRequestIbi (supportIbi : I3cDevice → Bool) (s : IbiState) (cntlr addr : ℕ)
  (env : IbiEnv) : Option (IbiStatus × IbiState) :=
 if env.opsSet = false then some (.errNotSupport, s)
 else if env.funcSet = false ∨ i3cAddrMax ≤ addr then some (.errInvalidParam, s)
 else
  (getDeviceByAddr s.core cntlr addr).bind fun found =>
   let s := { s with core := found.2 }
   match found.1 with
   | none => some (.errInvalidObject, s)
   | some device =>
    if supportIbi device = false then some (.errNotSupport, s)
    else if s.locked cntlr then none
    else if env.lock = false then some (.errDeviceBusy, s)
    else some (takeSlot s device cntlr env)

/-- The loop of `I3cCntlrFreeIbi`. Each way through its body ends in a `break`, so that it looks at
the first slot only. -/
def freeSlot (s : IbiState) (device : I3cDevice) (cntlr : ℕ) : IbiState :=
 match s.ibiSlot cntlr, s.ibi device with
 | some slot :: slots, some ibi =>
  if slot ≠ ibi then s else (s.setIbi device none).setSlots cntlr (none :: slots)
 | _, _ => s

def i3cCntlrFreeIbi (s : IbiState) (cntlr addr : ℕ) : Option (IbiStatus × IbiState) :=
 if i3cAddrMax ≤ addr then some (.errInvalidParam, s)
 else
  (getDeviceByAddr s.core cntlr addr).map fun found =>
   let s := { s with core := found.2 }
   match found.1 with
   | none => (.errInvalidObject, s)
   | some device => (.success, freeSlot s device cntlr)

inductive IbiCall where
 | request (cntlr addr : ℕ) (env : IbiEnv)
 | free (cntlr addr : ℕ)
 deriving DecidableEq

/-- A state with the devices whose interrupts are enabled: a request for them succeeded, and they
were not freed since. -/
structure IbiHistory where
 state : IbiState
 enabled : List I3cDevice

def deviceAt (s : IbiState) (cntlr addr : ℕ) : Option I3cDevice :=
 (getDeviceByAddr s.core cntlr addr).bind Prod.fst

def enabledAfter (h : IbiHistory) (success : Bool) : IbiCall → List I3cDevice
 | .request cntlr addr _ =>
  if success then ((deviceAt h.state cntlr addr).toList).foldr List.insert h.enabled
  else h.enabled
 | .free cntlr addr =>
  if success then h.enabled.diff (deviceAt h.state cntlr addr).toList else h.enabled

def IbiState.call (supportIbi : I3cDevice → Bool) (s : IbiState) :
  IbiCall → Option (IbiStatus × IbiState)
 | .request cntlr addr env => i3cCntlrRequestIbi supportIbi s cntlr addr env
 | .free cntlr addr => i3cCntlrFreeIbi s cntlr addr

def IbiHistory.step (supportIbi : I3cDevice → Bool) (h : IbiHistory) (call : IbiCall) :
  Option IbiHistory :=
 (h.state.call supportIbi call).map fun out =>
  ⟨out.2, enabledAfter h (out.1 = .success) call⟩

/-- No slot is taken. -/
def IbiHistory.start (core : I3cState) : IbiHistory :=
 ⟨⟨core, fun _ => List.replicate i3cIbiMax none, fun _ => none, fun _ => false, 0⟩, []⟩

def occupied (s : IbiState) (cntlr : ℕ) : List I3cIbiInfo := (s.ibiSlot cntlr).reduceOption

def IbiHistory.enabledOn (h : IbiHistory) (cntlr : ℕ) : List I3cDevice :=
 h.enabled.filter fun device => device.cntlr = cntlr

/-- There are as many occupied slots as enabled devices, a device has one slot at most and only
while it is enabled, all other slots can be taken, and no lock is left locked. -/
structure SlotsRight (h : IbiHistory) : Prop where
 counts : ∀ cntlr, (occupied h.state cntlr).length = (h.enabledOn cntlr).length
 single : ∀ cntlr, ((occupied h.state cntlr).map I3cIbiInfo.device).Nodup
 released : ∀ cntlr, ∀ ibi ∈ occupied h.state cntlr, ibi.device ∈ h.enabledOn cntlr
 capacity : ∀ cntlr,
  (h.enabledOn cntlr).length + ((h.state.ibiSlot cntlr).filter Option.isNone).length = i3cIbiMax
 unlocked : ∀ cntlr, h.state.locked cntlr = false
 listUnlocked : h.state.core.listLocked = false

def Answered (s : IbiState) (cntlr addr : ℕ) : Prop :=
 ∀ status ∈ getAddrStatus (s.core.addrSlot cntlr) addr,
  status = i3cAddrFree ∨ status = i3cAddrReserved ∨
   ∃ device ∈ s.core.devices, answersTo cntlr addr device = true

/-- The calls that do not go wrong: a slot is taken only for a device that has none, with memory
and by a method that works, and a device is freed only from the first slot. -/
def CallRight (supportIbi : I3cDevice → Bool) (h : IbiHistory) : IbiCall → Prop
 | .request cntlr addr env =>
  env.opsSet = true → env.funcSet = true → addr < i3cAddrMax → Answered h.state cntlr addr ∧
   ∀ device ∈ deviceAt h.state cntlr addr, supportIbi device = true → env.lock = true →
    none ∈ h.state.ibiSlot cntlr →
     h.state.ibi device = none ∧ env.alloc = true ∧ env.method = true
 | .free cntlr addr =>
  addr < i3cAddrMax → Answered h.state cntlr addr ∧
   ∀ device ∈ deviceAt h.state cntlr addr, h.state.ibi device = none ∨
    (h.state.ibiSlot cntlr).head? = some (h.state.ibi device)

variable {slots : List (Option I3cIbiInfo)}

theorem findIdx_full (full : none ∉ slots) :
 slots.length ≤ slots.findIdx fun slot => slot = none := by
 induction slots with
 | nil => exact Nat.zero_le _
 | cons slot slots ih =>
  obtain ⟨taken, rest⟩ := not_or.mp (List.mem_cons.not.mp full)
  rw [List.findIdx_cons, decide_eq_false (Ne.symm taken)]
  exact Nat.succ_le_succ (ih rest)

theorem findIdx_free (free : none ∈ slots) (ibi : I3cIbiInfo) :
 (slots.findIdx fun slot => slot = none) < slots.length ∧
  (slots.set (slots.findIdx fun slot => slot = none) (some ibi)).reduceOption.Perm
   (ibi :: slots.reduceOption) := by
 induction slots with
 | nil => cases free
 | cons slot slots ih =>
  rw [List.findIdx_cons]
  cases slot with
  | none => exact ⟨Nat.succ_pos _, List.Perm.refl _⟩
  | some other =>
   obtain ⟨inside, taken⟩ := ih (by simpa using free)
   refine ⟨Nat.succ_lt_succ inside, ?_⟩
   change ((slots.set _ (some ibi)).reduceOption.cons other).Perm _
   exact (taken.cons other).trans (List.Perm.swap ibi other _)

variable (s : IbiState)

theorem takeSlot_full (device : I3cDevice) (cntlr : ℕ) (env : IbiEnv)
 (full : none ∉ s.ibiSlot cntlr) : takeSlot s device cntlr env = (.errDeviceBusy, s) := by
 unfold takeSlot
 rw [if_pos (findIdx_full full)]

theorem takeSlot_noMemory (device : I3cDevice) (cntlr : ℕ) (env : IbiEnv)
 (free : none ∈ s.ibiSlot cntlr) (memory : env.alloc = false) :
 (takeSlot s device cntlr env).2.locked cntlr = true := by
 obtain ⟨inside, -⟩ := findIdx_free free ⟨device, 0⟩
 unfold takeSlot
 rw [if_neg (Nat.not_le.mpr inside), if_pos memory]
 exact Function.update_self ..

def withIbi (s : IbiState) (device : I3cDevice) (cntlr : ℕ) : IbiState :=
 let ibi : I3cIbiInfo := ⟨device, s.allocated⟩
 { (s.setIbi device (some ibi)).setSlots cntlr
   ((s.ibiSlot cntlr).set ((s.ibiSlot cntlr).findIdx fun slot => slot = none) (some ibi)) with
  allocated := s.allocated + 1 }

theorem takeSlot_taken (device : I3cDevice) (cntlr : ℕ) (env : IbiEnv)
 (free : none ∈ s.ibiSlot cntlr) (memory : env.alloc = true) :
 takeSlot s device cntlr env =
  (if env.method then .success else .methodFailure, withIbi s device cntlr) := by
 obtain ⟨inside, -⟩ := findIdx_free free ⟨device, 0⟩
 unfold takeSlot
 rw [if_neg (Nat.not_le.mpr inside), if_neg (by simp [memory])]
 rfl

theorem getDeviceByAddr_answered {s : IbiState} (unlocked : s.core.listLocked = false)
 {cntlr addr : ℕ} (answered : Answered s cntlr addr) :
 getDeviceByAddr s.core cntlr addr = some (deviceAt s cntlr addr, s.core) := by
 unfold deviceAt getDeviceByAddr
 cases status : getAddrStatus (s.core.addrSlot cntlr) addr with
 | none => rfl
 | some bits =>
  by_cases empty : bits = i3cAddrFree ∨ bits = i3cAddrReserved
  · simp only [if_pos empty, Option.bind_some]
  simp only [if_neg empty, unlocked, Bool.false_eq_true, if_false]
  have known := answered bits status
  rw [← or_assoc, or_iff_right empty] at known
  cases found : s.core.devices.find? (answersTo cntlr addr) with
  | none =>
   obtain ⟨device, member, answers⟩ := known
   exact absurd answers (List.find?_eq_none.mp found device member)
  | some device => rfl

theorem getDeviceByAddr_missed {s : IbiState} (unlocked : s.core.listLocked = false)
 {cntlr addr : ℕ} (missed : ¬ Answered s cntlr addr) :
 getDeviceByAddr s.core cntlr addr = some (none, { s.core with listLocked := true }) := by
 unfold Answered at missed
 push Not at missed
 obtain ⟨bits, status, notFree, notReserved, unknown⟩ := missed
 have status : getAddrStatus (s.core.addrSlot cntlr) addr = some bits := status
 have nobody : s.core.devices.find? (answersTo cntlr addr) = none := by
  rw [List.find?_eq_none]
  intro device member
  simpa using unknown device member
 unfold getDeviceByAddr
 simp only [status, notFree, notReserved, or_self, if_false, unlocked, Bool.false_eq_true, nobody]

theorem deviceAt_cntlr {s : IbiState} {cntlr addr : ℕ} {device : I3cDevice}
 (found : device ∈ deviceAt s cntlr addr) : device.cntlr = cntlr := by
 unfold deviceAt getDeviceByAddr at found
 cases status : getAddrStatus (s.core.addrSlot cntlr) addr with
 | none => simp [status] at found
 | some bits =>
  simp only [status] at found
  split at found
  · cases found
  · split at found
    · cases found
    · cases search : s.core.devices.find? (answersTo cntlr addr) with
      | none => simp [search] at found
      | some other =>
       simp only [search, Option.bind_some, Option.mem_some_iff] at found
       subst found
       have answers := List.find?_some search
       simp only [answersTo, Bool.and_eq_true, decide_eq_true_eq] at answers
       exact answers.1

structure SlotsHeld (h : IbiHistory) : Prop where
 length : ∀ cntlr, (h.state.ibiSlot cntlr).length = i3cIbiMax
 held : ∀ cntlr,
  ((occupied h.state cntlr).map I3cIbiInfo.device).Perm (h.enabledOn cntlr)
 distinct : h.enabled.Nodup
 own : ∀ cntlr, ∀ ibi ∈ occupied h.state cntlr, h.state.ibi ibi.device = some ibi
 pointed : ∀ device, device ∈ h.enabled ↔ (h.state.ibi device).isSome = true
 unlocked : ∀ cntlr, h.state.locked cntlr = false
 listUnlocked : h.state.core.listLocked = false

theorem occupied_start (core : I3cState) (cntlr : ℕ) :
 occupied (IbiHistory.start core).state cntlr = [] :=
 List.reduceOption_replicate_none

theorem SlotsHeld.start (core : I3cState) (unlocked : core.listLocked = false) :
 SlotsHeld (IbiHistory.start core) where
 length _ := List.length_replicate
 held cntlr := by
  rw [occupied_start]
  exact List.Perm.refl _
 distinct := List.nodup_nil
 own cntlr ibi member := by
  rw [occupied_start] at member
  cases member
 pointed device := by simp [IbiHistory.start]
 unlocked _ := rfl
 listUnlocked := unlocked

theorem SlotsHeld.right {h : IbiHistory} (inv : SlotsHeld h) : SlotsRight h where
 counts cntlr := by simpa using (inv.held cntlr).length_eq
 single cntlr := ((inv.held cntlr).nodup_iff).mpr (inv.distinct.filter _)
 released cntlr ibi member := ((inv.held cntlr).mem_iff).mp (List.mem_map_of_mem member)
 capacity cntlr := by
  have whole := List.length_eq_reduceOption_length_add_filter_none (l := h.state.ibiSlot cntlr)
  have counts := (inv.held cntlr).length_eq
  rw [List.length_map] at counts
  rw [inv.length, ← show occupied h.state cntlr = (h.state.ibiSlot cntlr).reduceOption from rfl,
   counts] at whole
  exact whole.symm
 unlocked := inv.unlocked
 listUnlocked := inv.listUnlocked

section Taken
variable {h : IbiHistory} {device : I3cDevice} {cntlr : ℕ}

theorem occupied_withIbi (device : I3cDevice) (free : none ∈ h.state.ibiSlot cntlr) :
 (occupied (withIbi h.state device cntlr) cntlr).Perm
  (⟨device, h.state.allocated⟩ :: occupied h.state cntlr) := by
 have taken := (findIdx_free free ⟨device, h.state.allocated⟩).2
 simpa [occupied, withIbi, IbiState.setSlots] using taken

theorem occupied_withIbi_other {other : ℕ} (apart : other ≠ cntlr) :
 occupied (withIbi h.state device cntlr) other = occupied h.state other := by
 simp [occupied, withIbi, IbiState.setSlots, IbiState.setIbi, Function.update_of_ne apart]

theorem withIbi_ibi : (withIbi s device cntlr).ibi =
 Function.update s.ibi device (some ⟨device, s.allocated⟩) := rfl

theorem SlotsHeld.taken (inv : SlotsHeld h) (on : device.cntlr = cntlr)
 (free : none ∈ h.state.ibiSlot cntlr) (fresh : h.state.ibi device = none) :
 SlotsHeld ⟨withIbi h.state device cntlr, h.enabled.insert device⟩ := by
 have absent : device ∉ h.enabled := by
  rw [inv.pointed, fresh]
  simp
 have more : h.enabled.insert device = device :: h.enabled := List.insert_of_not_mem absent
 rw [more]
 constructor
 case length =>
  intro other
  by_cases same : other = cntlr
  · subst same
    simpa [withIbi, IbiState.setSlots] using inv.length other
  · simpa [withIbi, IbiState.setSlots, IbiState.setIbi, Function.update_of_ne same] using
     inv.length other
 case held =>
  intro other
  by_cases same : other = cntlr
  · subst same
    have here : (IbiHistory.enabledOn ⟨withIbi h.state device other, device :: h.enabled⟩ other) =
     device :: h.enabledOn other := by
     simp [IbiHistory.enabledOn, on]
    rw [here]
    exact ((occupied_withIbi device free).map _).trans ((inv.held other).cons device)
  · have here : (IbiHistory.enabledOn ⟨withIbi h.state device cntlr, device :: h.enabled⟩ other) =
     h.enabledOn other := by
     simp [IbiHistory.enabledOn, on, Ne.symm same]
    rw [here, occupied_withIbi_other same]
    exact inv.held other
 case distinct => exact List.nodup_cons.mpr ⟨absent, inv.distinct⟩
 case own =>
  intro other ibi member
  -- A structure that was there before belongs to another device.
  have old : ∀ ibi ∈ occupied h.state other,
   (withIbi h.state device cntlr).ibi ibi.device = some ibi := by
   intro ibi before
   have points := inv.own other ibi before
   have another : ibi.device ≠ device := by
    intro same
    rw [same, fresh] at points
    cases points
   rw [withIbi_ibi, Function.update_of_ne another, points]
  by_cases same : other = cntlr
  · subst same
    rcases List.mem_cons.mp ((occupied_withIbi device free).mem_iff.mp member) with rfl | before
    · exact Function.update_self ..
    · exact old ibi before
  · rw [occupied_withIbi_other same] at member
    exact old ibi member
 case pointed =>
  intro other
  rw [List.mem_cons, withIbi_ibi]
  by_cases same : other = device
  · subst same
    simp
  · rw [Function.update_of_ne same, ← inv.pointed]
    exact or_iff_right same
 case unlocked => exact inv.unlocked
 case listUnlocked => exact inv.listUnlocked

theorem not_right_of_taken (inv : SlotsHeld h) (free : none ∈ h.state.ibiSlot cntlr) :
 ¬ SlotsRight ⟨withIbi h.state device cntlr, h.enabled⟩ := by
 intro right
 have counts := right.counts cntlr
 have more := (occupied_withIbi device free).length_eq
 have before := inv.right.counts cntlr
 simp only [List.length_cons] at more
 have same : (IbiHistory.enabledOn ⟨withIbi h.state device cntlr, h.enabled⟩ cntlr) =
  h.enabledOn cntlr := rfl
 rw [same] at counts
 change (occupied (withIbi h.state device cntlr) cntlr).length = _ at counts
 omega

end Taken

section Freed
variable {h : IbiHistory} {device : I3cDevice} {cntlr : ℕ}

theorem freeSlot_none (disabled : s.ibi device = none) : freeSlot s device cntlr = s := by
 unfold freeSlot
 rw [disabled]
 split
 · contradiction
 · rfl

theorem freeSlot_behind (behind : (s.ibiSlot cntlr).head? ≠ some (s.ibi device)) :
 freeSlot s device cntlr = s := by
 unfold freeSlot
 split
 next slot slots ibi first points =>
  rw [first, points] at behind
  have other : slot ≠ ibi := by
   rintro rfl
   exact behind rfl
  rw [if_pos other]
 next => rfl

theorem freeSlot_first {ibi : I3cIbiInfo}
 (points : s.ibi device = some ibi) (first : s.ibiSlot cntlr = some ibi :: slots) :
 freeSlot s device cntlr = (s.setIbi device none).setSlots cntlr (none :: slots) := by
 unfold freeSlot
 rw [points, first]
 simp

theorem occupied_freed (device : I3cDevice) (cntlr : ℕ) (slots : List (Option I3cIbiInfo)) :
 occupied ((s.setIbi device none).setSlots cntlr (none :: slots)) cntlr =
  slots.reduceOption := by
 simp [occupied, IbiState.setSlots]

theorem occupied_freed_other {s : IbiState} (slots : List (Option I3cIbiInfo)) {other : ℕ}
 (apart : other ≠ cntlr) :
 occupied ((s.setIbi device none).setSlots cntlr (none :: slots)) other =
  occupied s other := by
 simp [occupied, IbiState.setSlots, IbiState.setIbi, Function.update_of_ne apart]

theorem occupied_first {s : IbiState} {ibi : I3cIbiInfo}
 (first : s.ibiSlot cntlr = some ibi :: slots) :
 occupied s cntlr = ibi :: slots.reduceOption := by
 unfold occupied
 rw [first]
 rfl

theorem SlotsHeld.first_own (inv : SlotsHeld h) (on : device.cntlr = cntlr) {ibi : I3cIbiInfo}
 (points : h.state.ibi device = some ibi)
 (first : h.state.ibiSlot cntlr = some ibi :: slots) : ibi.device = device := by
 have before := occupied_first first
 have enabled : device ∈ h.enabled := by
  rw [inv.pointed, points]
  rfl
 have held := inv.held cntlr
 rw [before, List.map_cons] at held
 have member : device ∈ ibi.device :: slots.reduceOption.map I3cIbiInfo.device :=
  held.mem_iff.mpr (List.mem_filter.mpr ⟨enabled, by simpa using on⟩)
 rcases List.mem_cons.mp member with same | behind
 · exact same.symm
 · obtain ⟨other, inside, rfl⟩ := List.mem_map.mp behind
   have own := inv.own cntlr other (by rw [before]; exact List.mem_cons_of_mem _ inside)
   rw [points] at own
   cases own
   rfl

theorem SlotsHeld.freed (inv : SlotsHeld h) (on : device.cntlr = cntlr) {ibi : I3cIbiInfo}
 (points : h.state.ibi device = some ibi)
 (first : h.state.ibiSlot cntlr = some ibi :: slots) :
 SlotsHeld ⟨(h.state.setIbi device none).setSlots cntlr (none :: slots),
  h.enabled.erase device⟩ := by
 have before := occupied_first first
 have held := inv.held cntlr
 rw [before, List.map_cons] at held
 have mine := inv.first_own on points first
 have after := occupied_freed h.state device cntlr slots
 have elsewhere : ∀ other, other ≠ cntlr → device ∉ h.enabledOn other := by
  intro other apart member
  have on' : device.cntlr = other := by simpa using (List.mem_filter.mp member).2
  exact apart (on'.symm.trans on)
 have single : (device :: slots.reduceOption.map I3cIbiInfo.device).Nodup := by
  rw [← mine]
  exact held.nodup_iff.mpr (inv.distinct.filter _)
 constructor
 case length =>
  intro other
  by_cases same : other = cntlr
  · subst same
    have whole := inv.length other
    rw [first] at whole
    simpa [IbiState.setSlots] using whole
  · simpa [IbiState.setSlots, IbiState.setIbi, Function.update_of_ne same] using inv.length other
 case held =>
  intro other
  have fewer : (IbiHistory.enabledOn ⟨(h.state.setIbi device none).setSlots cntlr (none :: slots),
   h.enabled.erase device⟩ other) = (h.enabledOn other).erase device :=
   (List.erase_filter ..).symm
  rw [fewer]
  by_cases same : other = cntlr
  · subst same
    rw [after]
    rw [mine] at held
    simpa using held.erase device
  · rw [occupied_freed_other slots same, List.erase_of_not_mem (elsewhere other same)]
    exact inv.held other
 case distinct => exact inv.distinct.erase device
 case own =>
  intro other ibi' member
  change Function.update h.state.ibi device none ibi'.device = some ibi'
  by_cases same : other = cntlr
  · subst same
    rw [after] at member
    have apart : ibi'.device ≠ device := by
     intro equal
     exact (List.nodup_cons.mp single).1 (List.mem_map.mpr ⟨ibi', member, equal⟩)
    rw [Function.update_of_ne apart]
    exact inv.own other ibi' (by rw [before]; exact List.mem_cons_of_mem _ member)
  rw [occupied_freed_other slots same] at member
  have apart : ibi'.device ≠ device := by
   intro equal
   have listed := (inv.held other).mem_iff.mp (List.mem_map_of_mem member)
   rw [equal] at listed
   exact elsewhere other same listed
  rw [Function.update_of_ne apart]
  exact inv.own other ibi' member
 case pointed =>
  intro other
  change other ∈ h.enabled.erase device ↔ (Function.update h.state.ibi device none other).isSome
  rw [inv.distinct.mem_erase_iff]
  by_cases same : other = device
  · subst same
    simp
  · rw [Function.update_of_ne same, ← inv.pointed]
    exact and_iff_right same
 case unlocked => exact inv.unlocked
 case listUnlocked => exact inv.listUnlocked

theorem not_right_of_kept (inv : SlotsHeld h) (on : device.cntlr = cntlr)
 (enabled : device ∈ h.enabled) : ¬ SlotsRight ⟨h.state, h.enabled.erase device⟩ := by
 intro right
 have counts := right.counts cntlr
 have before := inv.right.counts cntlr
 have listed : device ∈ h.enabledOn cntlr := List.mem_filter.mpr ⟨enabled, by simpa using on⟩
 have fewer : (IbiHistory.enabledOn ⟨h.state, h.enabled.erase device⟩ cntlr) =
  (h.enabledOn cntlr).erase device := (List.erase_filter ..).symm
 have some := List.length_pos_of_mem listed
 rw [fewer, List.length_erase_of_mem listed] at counts
 change (occupied h.state cntlr).length = _ at counts
 omega

end Freed

section Steps
variable {supportIbi : I3cDevice → Bool} {h : IbiHistory} {cntlr addr : ℕ} {env : IbiEnv}

theorem not_right_of_locked {s : IbiState} {enabled : List I3cDevice}
 (locked : s.core.listLocked = true) : ¬ SlotsRight ⟨s, enabled⟩ := by
 intro right
 have unlocked := right.listUnlocked
 change s.core.listLocked = false at unlocked
 rw [locked] at unlocked
 cases unlocked

theorem request_eq (ops : env.opsSet = true) (func : env.funcSet = true)
 (inside : addr < i3cAddrMax)
 (s : IbiState) : i3cCntlrRequestIbi supportIbi s cntlr addr env =
  (getDeviceByAddr s.core cntlr addr).bind fun found =>
   match found.1 with
   | none => some (.errInvalidObject, { s with core := found.2 })
   | some device =>
    if supportIbi device = false then some (.errNotSupport, { s with core := found.2 })
    else if s.locked cntlr then none
    else if env.lock = false then some (.errDeviceBusy, { s with core := found.2 })
    else some (takeSlot { s with core := found.2 } device cntlr env) := by
 unfold i3cCntlrRequestIbi
 rw [if_neg (by simp [ops]), if_neg (by simp [func, Nat.not_le.mpr inside])]

theorem step_refused {call : IbiCall} {status : IbiStatus}
 (run : h.state.call supportIbi call = some (status, h.state)) (fails : status ≠ .success) :
 h.step supportIbi call = some h := by
 rw [IbiHistory.step, run, Option.map_some]
 cases call <;> simp [fails, enabledAfter]

theorem request_good (inv : SlotsHeld h)
 (right : CallRight supportIbi h (.request cntlr addr env)) :
 ∃ t, h.step supportIbi (.request cntlr addr env) = some t ∧ SlotsHeld t := by
 by_cases ops : env.opsSet = true
 case neg =>
  have refused : env.opsSet = false := by simpa using ops
  have run : i3cCntlrRequestIbi supportIbi h.state cntlr addr env =
   some (.errNotSupport, h.state) := by simp [i3cCntlrRequestIbi, refused]
  exact ⟨h, step_refused run nofun, inv⟩
 by_cases good : env.funcSet = true ∧ addr < i3cAddrMax
 case neg =>
  have refused : env.funcSet = false ∨ i3cAddrMax ≤ addr := by
   rcases not_and_or.mp good with func | range
   · exact Or.inl (by simpa using func)
   · exact Or.inr (Nat.not_lt.mp range)
  have run : i3cCntlrRequestIbi supportIbi h.state cntlr addr env =
   some (.errInvalidParam, h.state) := by simp [i3cCntlrRequestIbi, ops, refused]
  exact ⟨h, step_refused run nofun, inv⟩
 obtain ⟨func, inside⟩ := good
 obtain ⟨answered, slotRight⟩ := right ops func inside
 have lookup := getDeviceByAddr_answered inv.listUnlocked answered
 cases found : deviceAt h.state cntlr addr with
 | none =>
  have run : i3cCntlrRequestIbi supportIbi h.state cntlr addr env =
   some (.errInvalidObject, h.state) := by simp [request_eq ops func inside, lookup, found]
  exact ⟨h, step_refused run nofun, inv⟩
 | some device =>
  have on : device.cntlr = cntlr := deviceAt_cntlr (Option.mem_def.mpr found)
  by_cases supported : supportIbi device = true
  case neg =>
   have run : i3cCntlrRequestIbi supportIbi h.state cntlr addr env =
    some (.errNotSupport, h.state) := by
    simp [request_eq ops func inside, lookup, found, supported]
   exact ⟨h, step_refused run nofun, inv⟩
  by_cases lock : env.lock = true
  case neg =>
   have run : i3cCntlrRequestIbi supportIbi h.state cntlr addr env =
    some (.errDeviceBusy, h.state) := by
    simp [request_eq ops func inside, lookup, found, supported, lock, inv.unlocked]
   exact ⟨h, step_refused run nofun, inv⟩
  by_cases free : none ∈ h.state.ibiSlot cntlr
  case neg =>
   have run : i3cCntlrRequestIbi supportIbi h.state cntlr addr env =
    some (.errDeviceBusy, h.state) := by
    simp [request_eq ops func inside, lookup, found, supported, lock, inv.unlocked,
     takeSlot_full h.state device cntlr env free]
   exact ⟨h, step_refused run nofun, inv⟩
  obtain ⟨fresh, memory, works⟩ := slotRight device (Option.mem_def.mpr found) supported lock free
  refine ⟨_, ?_, inv.taken on free fresh⟩
  simp [IbiHistory.step, IbiState.call, request_eq ops func inside, lookup, found, supported,
   lock, inv.unlocked, takeSlot_taken h.state device cntlr env free memory, works, enabledAfter]

theorem request_bad (inv : SlotsHeld h)
 (done : ∃ t, h.step supportIbi (.request cntlr addr env) = some t ∧ SlotsRight t) :
 CallRight supportIbi h (.request cntlr addr env) := by
 intro ops func inside
 obtain ⟨t, after, right⟩ := done
 have answered : Answered h.state cntlr addr := by
  by_contra missed
  have lookup := getDeviceByAddr_missed inv.listUnlocked missed
  simp only [IbiHistory.step, IbiState.call, request_eq ops func inside, lookup,
   Option.bind_some, Option.map_some, Option.some.injEq] at after
  subst after
  exact not_right_of_locked rfl right
 refine ⟨answered, ?_⟩
 intro device found supported lock free
 have lookup := getDeviceByAddr_answered inv.listUnlocked answered
 rw [Option.mem_def.mp found] at lookup
 have after : some ⟨(takeSlot h.state device cntlr env).2, enabledAfter h
  ((takeSlot h.state device cntlr env).1 = .success) (.request cntlr addr env)⟩ = some t := by
  rw [← after]
  simp [IbiHistory.step, IbiState.call, request_eq ops func inside, lookup, supported, lock,
   inv.unlocked]
 cases after
 have memory : env.alloc = true := by
  by_contra missing
  have locked := takeSlot_noMemory h.state device cntlr env free (by simpa using missing)
  have unlocked := right.unlocked cntlr
  change (takeSlot h.state device cntlr env).2.locked cntlr = false at unlocked
  rw [locked] at unlocked
  cases unlocked
 rw [takeSlot_taken h.state device cntlr env free memory] at right
 have works : env.method = true := by
  by_contra fails
  simp only [fails, Bool.false_eq_true, if_false, reduceCtorEq, decide_false, enabledAfter]
   at right
  exact not_right_of_taken inv free right
 refine ⟨?_, memory, works⟩
 by_contra taken
 have enabled : device ∈ h.enabled := by
  rw [inv.pointed]
  exact Option.isSome_iff_ne_none.mpr taken
 simp only [works, if_true, decide_true, enabledAfter, Option.mem_def.mp found,
  Option.toList_some, List.foldr_cons, List.foldr_nil, List.insert_of_mem enabled] at right
 exact not_right_of_taken inv free right

theorem free_good (inv : SlotsHeld h) (right : CallRight supportIbi h (.free cntlr addr)) :
 ∃ t, h.step supportIbi (.free cntlr addr) = some t ∧ SlotsHeld t := by
 by_cases inside : addr < i3cAddrMax
 case neg =>
  have run : i3cCntlrFreeIbi h.state cntlr addr = some (.errInvalidParam, h.state) := by
   simp [i3cCntlrFreeIbi, Nat.not_lt.mp inside]
  exact ⟨h, step_refused run nofun, inv⟩
 obtain ⟨answered, slotRight⟩ := right inside
 have lookup := getDeviceByAddr_answered inv.listUnlocked answered
 cases found : deviceAt h.state cntlr addr with
 | none =>
  refine ⟨h, ?_, inv⟩
  simp [IbiHistory.step, IbiState.call, i3cCntlrFreeIbi, Nat.not_le.mpr inside, lookup, found,
   enabledAfter]
 | some device =>
  have on : device.cntlr = cntlr := deviceAt_cntlr (Option.mem_def.mpr found)
  cases points : h.state.ibi device with
  | none =>
   have absent : device ∉ h.enabled := by
    rw [inv.pointed, points]
    simp
   refine ⟨h, ?_, inv⟩
   simp [IbiHistory.step, IbiState.call, i3cCntlrFreeIbi, Nat.not_le.mpr inside, lookup, found,
    freeSlot_none h.state points, enabledAfter, List.erase_of_not_mem absent]
  | some ibi =>
   have head := slotRight device (Option.mem_def.mpr found)
   rw [points, or_iff_right (by simp)] at head
   obtain ⟨slots, first⟩ := List.head?_eq_some_iff.mp head
   refine ⟨_, ?_, inv.freed on points first⟩
   simp [IbiHistory.step, IbiState.call, i3cCntlrFreeIbi, Nat.not_le.mpr inside, lookup, found,
    freeSlot_first h.state points first, enabledAfter]

theorem free_bad (inv : SlotsHeld h)
 (done : ∃ t, h.step supportIbi (.free cntlr addr) = some t ∧ SlotsRight t) :
 CallRight supportIbi h (.free cntlr addr) := by
 intro inside
 obtain ⟨t, after, right⟩ := done
 have answered : Answered h.state cntlr addr := by
  by_contra missed
  have lookup := getDeviceByAddr_missed inv.listUnlocked missed
  simp only [IbiHistory.step, IbiState.call, i3cCntlrFreeIbi, if_neg (Nat.not_le.mpr inside),
   lookup, Option.map_some, Option.some.injEq] at after
  subst after
  exact not_right_of_locked rfl right
 refine ⟨answered, ?_⟩
 intro device found
 by_contra kept
 obtain ⟨enabled, behind⟩ := not_or.mp kept
 have on : device.cntlr = cntlr := deviceAt_cntlr found
 have lookup := getDeviceByAddr_answered inv.listUnlocked answered
 have found := Option.mem_def.mp found
 simp only [IbiHistory.step, IbiState.call, i3cCntlrFreeIbi, if_neg (Nat.not_le.mpr inside),
  lookup, found, Option.map_some, freeSlot_behind h.state behind, Option.some.injEq] at after
 subst after
 have enabled : device ∈ h.enabled := by
  rw [inv.pointed]
  exact Option.isSome_iff_ne_none.mpr enabled
 simp only [decide_true, enabledAfter, if_true, found, Option.toList_some, List.diff_cons,
  List.diff_nil] at right
 exact not_right_of_kept inv on enabled right

end Steps

/-- Along a run of requests and releases the slots are those of the enabled devices exactly when
each call is right. -/
theorem ibi_slots_iff (supportIbi : I3cDevice → Bool) (core : I3cState)
    (unlocked : core.listLocked = false) (calls : List IbiCall) :
    Safe (IbiHistory.step supportIbi) SlotsRight (IbiHistory.start core) calls ↔
      Along (IbiHistory.step supportIbi) (CallRight supportIbi) (IbiHistory.start core) calls := by
  apply safe_iff_along_of (J := SlotsHeld) (A := fun _ => True)
  case himp => exact fun h inv => inv.right
  case hgood =>
    intro h call inv right
    cases call with
    | request cntlr addr env => exact request_good inv right
    | free cntlr addr => exact free_good inv right
  case hbad =>
    intro h call inv _ done
    cases call with
    | request cntlr addr env => exact request_bad inv done
    | free cntlr addr => exact free_bad inv done
  case hs => exact SlotsHeld.start core unlocked
  case hadm => exact fun _ _ => trivial

/-- Two devices of controller 0, at the addresses 8 and 9. -/
def twoDevices : I3cState where
 addrSlot _ := withStatus (withStatus (fun _ => 0#16) 8 i3cAddrI3cDevice) 9 i3cAddrI3cDevice
 devices := [⟨1, 0, 1, 8, 8, .i3cDevice⟩, ⟨2, 0, 2, 9, 9, .i3cDevice⟩]
 listLocked := false

def workingIbi : IbiEnv := ⟨true, true, true, true, true⟩

theorem ibi_slots_requested : Safe (IbiHistory.step fun _ => true) SlotsRight
    (IbiHistory.start twoDevices) [.request 0 8 workingIbi] := by
  rw [ibi_slots_iff (fun _ => true) twoDevices rfl]
  refine (along_cons _ _ _).mpr ⟨?_, fun t _ => along_nil t⟩
  intro _ _ _
  refine ⟨?_, fun device _ _ _ _ => ⟨rfl, rfl, rfl⟩⟩
  intro status _
  exact Or.inr (Or.inr ⟨⟨1, 0, 1, 8, 8, .i3cDevice⟩, List.mem_cons_self, rfl⟩)

/-- The second of two devices is freed with success and keeps its slot. -/
theorem second_slot_kept : ¬ Safe (IbiHistory.step fun _ => true) SlotsRight
    (IbiHistory.start twoDevices)
    [.request 0 8 workingIbi, .request 0 9 workingIbi, .free 0 9] := by
  intro safe
  obtain ⟨t, run, right⟩ := safe _ (List.prefix_refl _)
  have counted : (exec (IbiHistory.step fun _ => true) (IbiHistory.start twoDevices)
      [.request 0 8 workingIbi, .request 0 9 workingIbi, .free 0 9]).map
        (fun t => ((occupied t.state 0).length, (t.enabledOn 0).length)) = some (2, 1) := by
    decide
  have counts := right.counts 0
  simp only [run, Option.map_some, Option.some.injEq, Prod.mk.injEq] at counted
  omega

end DriversFramework.I3c
