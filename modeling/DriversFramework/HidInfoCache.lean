import Mathlib.Data.List.Perm.Subperm
import DriversFramework.RunRules

/-! `SendInfoToHdf` and `HidRegisterHdfInputDev` (`hdf_hid_adapter.c`). The infos fill the slots of
`g_cachedInfo` from the first on and are freed together, so that a list holds them. Whether memory
is granted is an input of each call. -/
namespace DriversFramework.HidInfoCache
open RunRules

def maxInputDevNum : ℕ := 32

abbrev Name := List UInt8

abbrev Bits := ℕ → UInt64

structure AbilitySet where
 devProp : Bits
 eventType : Bits
 absCode : Bits
 relCode : Bits
 keyCode : Bits
 ledCode : Bits
 miscCode : Bits
 soundCode : Bits
 forceCode : Bits
 switchCode : Bits

structure AbsAttr where
 axis : Int32
 min : Int32
 max : Int32
 fuzz : Int32
 flat : Int32
 range : Int32

structure Identify where
 busType : UInt16
 vendor : UInt16
 product : UInt16
 version : UInt16

/-- What a HID device tells about itself besides its name -/
structure HidSets where
 devType : UInt32
 abilitySet : AbilitySet
 axisInfo : ℕ → AbsAttr
 id : Identify

structure HidInfo extends HidSets where
 devName : Name

structure InputDevice where
 devType : UInt32
 devName : Name
 abilitySet : AbilitySet
 axisInfo : ℕ → AbsAttr
 id : Identify

def noBits : Bits := fun _ => 0

def noAbility : AbilitySet :=
 ⟨noBits, noBits, noBits, noBits, noBits, noBits, noBits, noBits, noBits, noBits⟩

def noIdentify : Identify := ⟨0, 0, 0, 0⟩

def newInputDev (info : HidInfo) : InputDevice :=
 ⟨info.devType, info.devName, noAbility, fun _ => ⟨0, 0, 0, 0, 0, 0⟩, noIdentify⟩

section Axes
variable (absWords : ℕ)

def hasAxes (abilitySet : AbilitySet) : Bool :=
 (List.range absWords).any fun i => abilitySet.absCode i != 0

def setInputDevAbsAttr (inputDev : InputDevice) (info : HidInfo) : InputDevice :=
 if hasAxes absWords inputDev.abilitySet then { inputDev with axisInfo := info.axisInfo }
 else inputDev

def getInfoFromCache (inputDev : InputDevice) (info : HidInfo) : InputDevice :=
 let inputDev := { inputDev with abilitySet := info.abilitySet }
 { setInputDevAbsAttr absWords inputDev info with id := info.id }

def setInputDevAbility (cachedInfo : List HidInfo) (inputDev : InputDevice) :
  InputDevice × List HidInfo :=
 match cachedInfo.find? fun info => decide (inputDev.devName = info.devName) with
 | none => (inputDev, cachedInfo)
 | some info => (getInfoFromCache absWords inputDev info, [])

def sendInfoToHdf (cachedInfo : List HidInfo) (info : HidInfo) (granted : Bool) : List HidInfo :=
 if cachedInfo.length < maxInputDevNum ∧ granted = true then cachedInfo ++ [info] else cachedInfo

def hidRegisterHdfInputDev (cachedInfo : List HidInfo) (info : HidInfo) (granted : Bool) :
  Option InputDevice × List HidInfo :=
 if granted then
  let (inputDev, cachedInfo) := setInputDevAbility absWords cachedInfo (newInputDev info)
  (some inputDev, cachedInfo)
 else (none, cachedInfo)

inductive Call where
 | send (name : Name) (granted : Bool)
 | register (name : Name) (granted : Bool)

structure Adapter where
 cachedInfo : List HidInfo
 past : List Call

variable (sets : Name → HidSets)

def infoOf (name : Name) : HidInfo := { sets name with devName := name }

def step (s : Adapter) (call : Call) : Option Adapter :=
  some
    { cachedInfo := match call with
        | .send name granted => sendInfoToHdf s.cachedInfo (infoOf sets name) granted
        | .register name granted =>
          (hidRegisterHdfInputDev absWords s.cachedInfo (infoOf sets name) granted).2
      past := call :: s.past }

def outstanding : List Call → List Name
 | [] => []
 | .send name _ :: past => name :: outstanding past
 | .register name true :: past => (outstanding past).filter (· ≠ name)
 | .register _ false :: past => outstanding past

/-- The info of a device was kept since it was sent, and no device with a kept info was
registered since. -/
def kept : List Call → Name → Bool
 | [], _ => false
 | .send name granted :: past, other => kept past other || (granted && decide (name = other))
 | .register name granted :: past, other => kept past other && !(granted && kept past name)

def Room (s : Adapter) : Call → Prop
 | .send _ _ => (outstanding s.past).length < maxInputDevNum
 | .register _ _ => True

structure Has (inputDev : InputDevice) (info : HidSets) : Prop where
 ability : inputDev.abilitySet = info.abilitySet
 axes : hasAxes absWords info.abilitySet = true → inputDev.axisInfo = info.axisInfo
 id : inputDev.id = info.id

/-- A device whose info was sent gets its own sets. -/
def Obtains (s : Adapter) : Call → Prop
 | .send _ _ => True
 | .register name granted => name ∈ outstanding s.past →
  ∀ inputDev ∈ (hidRegisterHdfInputDev absWords s.cachedInfo (infoOf sets name) granted).1,
   Has absWords inputDev (sets name)

def Blank (info : HidSets) : Prop := info.abilitySet = noAbility ∧ info.id = noIdentify

/-- The condition: no other device took the info away, or there is nothing in it. -/
def Keeps (s : Adapter) : Call → Prop
 | .send _ _ => True
 | .register name granted => name ∈ outstanding s.past → granted = true →
  kept s.past name = true ∨ Blank (sets name)

variable {absWords sets} {s : Adapter} {name : Name} {granted : Bool}

structure Cached (sets : Name → HidSets) (s : Adapter) : Prop where
 own : ∀ info ∈ s.cachedInfo, info = infoOf sets info.devName
 kept_iff : ∀ name, kept s.past name = true ↔ name ∈ s.cachedInfo.map HidInfo.devName
 few : (s.cachedInfo.map HidInfo.devName).Subperm (outstanding s.past)

theorem cached_start : Cached sets ⟨[], []⟩ :=
 ⟨fun _ mem => (List.not_mem_nil mem).elim, fun _ => by simp [kept], List.nil_subperm⟩

/-- The search finds the own info exactly if it was kept. -/
theorem Cached.find (h : Cached sets s) (name : Name) :
  (s.cachedInfo.find? fun info => decide (name = info.devName)) =
   if kept s.past name then some (infoOf sets name) else none := by
 by_cases here : kept s.past name = true
 · rw [if_pos here]
   obtain ⟨info, mem, same⟩ := List.mem_map.mp ((h.kept_iff name).mp here)
   cases found : s.cachedInfo.find? fun info => decide (name = info.devName) with
   | none =>
    have all := List.find?_eq_none.mp found info mem
    exact absurd (decide_eq_true same.symm) all
   | some other =>
    have named := List.find?_some found
    simp only [decide_eq_true_eq] at named
    rw [h.own other (List.mem_of_find?_eq_some found), ← named]
 · rw [if_neg here]
   refine List.find?_eq_none.mpr fun info mem same => here ((h.kept_iff name).mpr ?_)
   exact List.mem_map.mpr ⟨info, mem, (of_decide_eq_true same).symm⟩

theorem Cached.send (h : Cached sets s) (name : Name) (granted : Bool)
  (room : (outstanding s.past).length < maxInputDevNum) :
  Cached sets ⟨sendInfoToHdf s.cachedInfo (infoOf sets name) granted,
   .send name granted :: s.past⟩ := by
 have free : s.cachedInfo.length < maxInputDevNum := by
  have := h.few.length_le
  rw [List.length_map] at this
  omega
 unfold sendInfoToHdf
 cases granted with
 | false =>
  rw [if_neg (by simp)]
  refine ⟨h.own, fun other => ?_, h.few.trans (List.sublist_cons_self _ _).subperm⟩
  simp [kept, h.kept_iff]
 | true =>
  rw [if_pos ⟨free, rfl⟩]
  refine ⟨fun info mem => ?_, fun other => ?_, ?_⟩
  · rcases List.mem_append.mp mem with old | new
    · exact h.own info old
    · obtain rfl := List.mem_singleton.mp new
      rfl
  · simp only [kept, Bool.true_and, Bool.or_eq_true, decide_eq_true_eq, h.kept_iff,
     List.map_append, List.mem_append, List.map_singleton, List.mem_singleton]
    exact or_congr_right eq_comm
  · rw [List.map_append]
    exact (List.perm_append_singleton name _).subperm.trans ((List.subperm_cons name).mpr h.few)

/-- A registration uses up the cache exactly if the info was kept. -/
theorem Cached.registered (h : Cached sets s) (name : Name) :
  hidRegisterHdfInputDev absWords s.cachedInfo (infoOf sets name) true =
   if kept s.past name then
    (some (getInfoFromCache absWords (newInputDev (infoOf sets name)) (infoOf sets name)), [])
   else (some (newInputDev (infoOf sets name)), s.cachedInfo) := by
 have found : (s.cachedInfo.find? fun info =>
   decide ((newInputDev (infoOf sets name)).devName = info.devName)) = _ := h.find name
 unfold hidRegisterHdfInputDev setInputDevAbility
 rw [if_pos rfl, found]
 by_cases here : kept s.past name = true
 · simp only [if_pos here]
 · simp only [if_neg here]

theorem Cached.register (h : Cached sets s) (name : Name) (granted : Bool) :
  Cached sets ⟨(hidRegisterHdfInputDev absWords s.cachedInfo (infoOf sets name) granted).2,
   .register name granted :: s.past⟩ := by
 cases granted with
 | false => exact ⟨h.own, fun other => by simp [kept, h.kept_iff, hidRegisterHdfInputDev], h.few⟩
 | true =>
  rw [h.registered name]
  by_cases here : kept s.past name = true
  · rw [if_pos here]
    exact ⟨fun _ mem => (List.not_mem_nil mem).elim, fun other => by simp [kept, here],
     List.nil_subperm⟩
  rw [if_neg here]
  refine ⟨h.own, fun other => by simp [kept, here, h.kept_iff], ?_⟩
  have absent : (s.cachedInfo.map HidInfo.devName).filter (· ≠ name) =
    s.cachedInfo.map HidInfo.devName := by
   refine List.filter_eq_self.mpr fun other mem => decide_eq_true fun equal => here ?_
   exact (h.kept_iff name).mpr (equal ▸ mem)
  change (s.cachedInfo.map HidInfo.devName).Subperm ((outstanding s.past).filter (· ≠ name))
  rw [← absent]
  exact h.few.filter _

theorem has_own (info : HidInfo) :
  Has absWords (getInfoFromCache absWords (newInputDev info) info) info.toHidSets := by
 unfold getInfoFromCache setInputDevAbsAttr
 dsimp only
 split
 · exact ⟨rfl, fun _ => rfl, rfl⟩
 · next none => exact ⟨rfl, fun some => absurd some none, rfl⟩

theorem hasAxes_noAbility : hasAxes absWords noAbility = false :=
 List.any_eq_false.mpr fun _ _ => by simp [noAbility, noBits]

theorem has_new_iff (info : HidInfo) :
  Has absWords (newInputDev info) info.toHidSets ↔ Blank info.toHidSets := by
 refine ⟨fun has => ⟨has.ability.symm, has.id.symm⟩, fun blank => ⟨blank.1.symm, ?_, blank.2.symm⟩⟩
 rw [blank.1, hasAxes_noAbility]
 exact fun axes => absurd axes Bool.false_ne_true

theorem Cached.obtains_iff (h : Cached sets s) (call : Call) :
  Obtains absWords sets s call ↔ Keeps sets s call := by
 cases call with
 | send name granted => exact Iff.rfl
 | register name granted =>
  refine forall_congr' fun _ => ?_
  cases granted with
  | false => simp [hidRegisterHdfInputDev]
  | true =>
   rw [h.registered name]
   by_cases here : kept s.past name = true
   · rw [if_pos here]
     exact ⟨fun _ _ => .inl here, fun _ inputDev same => Option.some.inj same ▸ has_own _⟩
   · rw [if_neg here]
     refine ⟨fun has _ => .inr ((has_new_iff _).mp (has _ rfl)), fun keeps inputDev same => ?_⟩
     rw [← Option.some.inj same]
     exact (has_new_iff _).mpr ((keeps rfl).resolve_left here)

theorem Cached.step (h : Cached sets s) {call : Call} (room : Room s call) {t : Adapter}
  (next : step absWords sets s call = some t) : Cached sets t := by
 obtain rfl := Option.some.inj next
 cases call with
 | send name granted => exact h.send name granted room
 | register name granted => exact h.register name granted

variable (absWords sets)

/-- As long as there is room for the infos, all devices get their own sets exactly if the condition
holds at each registration. -/
theorem infos_obtained_iff (calls : List Call)
    (room : Along (step absWords sets) Room ⟨[], []⟩ calls) :
    Along (step absWords sets) (Obtains absWords sets) ⟨[], []⟩ calls ↔
      Along (step absWords sets) (Keeps sets) ⟨[], []⟩ calls := by
  have same : Along (step absWords sets)
        (fun s call => Room s call ∧ Obtains absWords sets s call) ⟨[], []⟩ calls ↔
      Along (step absWords sets) (fun s call => Room s call ∧ Keeps sets s call) ⟨[], []⟩ calls :=
    along_congr_of_keep (fun _ _ _ h fine next => Cached.step h fine.1 next)
      (fun _ call h => and_congr_right fun _ => Cached.obtains_iff h call) _ calls cached_start
  constructor
  · intro obtains pre call ends t run
    exact (same.mp (fun pre call ends t run => ⟨room pre call ends t run,
      obtains pre call ends t run⟩) pre call ends t run).2
  · intro keeps pre call ends t run
    exact (same.mpr (fun pre call ends t run => ⟨room pre call ends t run,
      keeps pre call ends t run⟩) pre call ends t run).2

end Axes

/-- Two devices, the first of which has a bit set among its properties -/
def twoSets (name : Name) : HidSets :=
  { devType := 0
    abilitySet := if name = [1] then { noAbility with devProp := fun _ => 1 } else noAbility
    axisInfo := fun _ => ⟨0, 0, 0, 0, 0, 0⟩
    id := noIdentify }

theorem infos_obtained_alone :
    Along (step 2 twoSets) (Obtains 2 twoSets) ⟨[], []⟩ [.send [1] true, .register [1] true] := by
  refine (infos_obtained_iff 2 twoSets _ ?_).mpr ?_
  · simp [along_cons, along_nil, Room, outstanding, step, maxInputDevNum]
  · simp [along_cons, along_nil, Keeps, outstanding, step, kept]

/-- The registration of the other device frees both infos. -/
theorem other_registration_frees : ¬∀ (absWords : ℕ) (sets : Name → HidSets) (calls : List Call),
      Along (step absWords sets) Room ⟨[], []⟩ calls →
        Along (step absWords sets) (Obtains absWords sets) ⟨[], []⟩ calls := by
  intro all
  have obtains := all 2 twoSets [.send [1] true, .send [2] true, .register [2] true,
    .register [1] true] (by
      simp [along_cons, along_nil, Room, outstanding, step, maxInputDevNum])
  have own := obtains [.send [1] true, .send [2] true, .register [2] true] (.register [1] true)
    List.prefix_rfl _ rfl (by simp [outstanding]) _ rfl
  have bit : (0 : UInt64) = 1 := congrFun (congrArg AbilitySet.devProp own.ability) 0
  exact absurd bit (by decide)

end DriversFramework.HidInfoCache
