import DriversFramework.AudioControls

namespace DriversFramework.AudioControls

open RegisterFields RunRules

variable {c : AudioMixerControl} {regs : Registers} {value : Word}

namespace AudioMixerControl

/-- The bits of a register that are in a field of the control. -/
def own (c : AudioMixerControl) (reg : Word) : Word :=
 (if reg = c.reg then c.mask <<< c.shift.toNat else 0) |||
  (if reg = c.rreg then c.mask <<< c.rightShift.toNat else 0)

def outside (c : AudioMixerControl) (regs : Registers) : Registers :=
 fun reg => regs reg &&& ~~~c.own reg

/-- The value has a place in the field, and is in range when it is read there. -/
def Fits (c : AudioMixerControl) (value : Word) : Prop :=
 ¬c.OutOfRange value ∧ field (value <<< c.shift.toNat) c.mask c.shift.toNat = value

theorem inverted_inverted (c : AudioMixerControl) (value : Word) :
  c.inverted (c.inverted value) = value := by
 unfold inverted
 split
 · exact sub_sub_self c.max value
 · rfl

theorem inverted_eq_iff {value' : Word} : c.inverted value = value' ↔ value = c.inverted value' :=
 ⟨fun same => by rw [← same, inverted_inverted], fun same => by rw [same, inverted_inverted]⟩

theorem rightShift_of_reg (apart : c.reg ≠ c.rreg) : c.rightShift = c.shift := if_neg apart

theorem put_put (value' : Word) : c.put (c.put regs value) value' = c.put regs value' := by
 unfold put
 rw [Function.update_self, replace_replace, Function.update_idem]

theorem put_of_ne {reg : Word} (other : reg ≠ c.reg) : c.put regs value reg = regs reg :=
 Function.update_of_ne other _ _

theorem put_reg : c.put regs value c.reg =
  replace (regs c.reg) (c.mask <<< c.shift.toNat) (value <<< c.shift.toNat) :=
 Function.update_self _ _ _

theorem field_put : field (c.put regs value c.reg) c.mask c.shift.toNat =
  field (value <<< c.shift.toNat) c.mask c.shift.toNat := by
 rw [put_reg, field_replace]

theorem put_same (same : field (value <<< c.shift.toNat) c.mask c.shift.toNat =
  field (regs c.reg) c.mask c.shift.toNat) : c.put regs value = regs := by
 rw [put, replace_same (field_inj.mp same), Function.update_eq_self]

theorem outside_update {mask : Word} (inside : mask &&& ~~~c.own c.reg = 0#32) (value : Word) :
  c.outside (Function.update regs c.reg (replace (regs c.reg) mask value)) = c.outside regs := by
 funext reg
 unfold outside
 by_cases here : reg = c.reg
 · rw [here, Function.update_self, replace_disjoint inside]
 · rw [Function.update_of_ne here]

theorem left_inside (c : AudioMixerControl) :
  (c.mask <<< c.shift.toNat) &&& ~~~c.own c.reg = 0#32 := by
 unfold own
 rw [if_pos rfl]
 exact and_not_or_left _ _

theorem right_inside (c : AudioMixerControl) :
  (c.mask <<< c.rightShift.toNat) &&& ~~~c.own c.reg = 0#32 := by
 unfold own
 by_cases same : c.reg = c.rreg
 · rw [if_pos rfl, if_pos same]
   exact and_not_or_right _ _
 · rw [if_pos rfl, rightShift_of_reg same]
   exact and_not_or_left _ _

theorem outside_put (c : AudioMixerControl) (regs : Registers) (value : Word) :
  c.outside (c.put regs value) = c.outside regs :=
 outside_update c.left_inside _

theorem outside_put_right (c : AudioMixerControl) (regs : Registers) (value : Word) :
  c.outside ({ c with shift := c.rightShift }.put regs value) = c.outside regs :=
 outside_update c.right_inside _

end AudioMixerControl

section Set

variable {kind : DeviceKind} {device : Option Registers} {e : AudioCtrlElemValue}
  {left right : Faults}

def updateOf : DeviceKind → Registers → AudioMixerControl → Word → Faults →
  Option (HdfStatus × Registers)
 | .codec => audioUpdateCodecRegBits
 | .accessory => audioUpdateAccessoryRegBits
 | .cpuDai => audioUpdateDaiRegBits

def errorOf : DeviceKind → HdfStatus
 | .accessory => .failure
 | _ => .errInvalidObject

def Refused (kind : DeviceKind) (c : AudioMixerControl) (value : Word) : Prop :=
 kind = .cpuDai ∧ c.OutOfRange value

instance (kind : DeviceKind) (c : AudioMixerControl) (value : Word) :
  Decidable (Refused kind c value) := inferInstanceAs (Decidable (_ ∧ _))

theorem setOps_eq (kind : DeviceKind) : setOps kind = setCtrlOps (errorOf kind)
  (updateOf kind) := by
 cases kind <;> rfl

theorem getOps_eq (kind : DeviceKind) : getOps kind = getCtrlOps := by cases kind <;> rfl

theorem errorOf_ne (kind : DeviceKind) : errorOf kind ≠ .success := by cases kind <;> decide

variable {faults : Faults}

theorem updateOf_refused (refused : Refused kind c value) :
  updateOf kind regs c value faults = some (.failure, regs) := by
 obtain ⟨rfl, range⟩ := refused
 exact if_pos range.symm

theorem updateOf_taken (taken : ¬Refused kind c value) :
  updateOf kind regs c value faults = updateRegBits regs c value faults := by
 cases kind with
 | codec => rfl
 | accessory => rfl
 | cpuDai => exact if_neg fun range => taken ⟨rfl, range.symm⟩

theorem updateRegBits_failed (shift : c.shift.toNat < 32) (failed : faults.read ∨ faults.write) :
  updateRegBits regs c value faults = some (.failure, regs) := by
 rw [updateRegBits, if_neg (by omega), if_pos failed]

theorem updateRegBits_done (shift : c.shift.toNat < 32) (done : ¬(faults.read ∨ faults.write)) :
  updateRegBits regs c value faults = some (.success, c.put regs value) := by
 rw [updateRegBits, if_neg (by omega), if_neg done]

/-- The set comes to the update of the left channel, with these registers. -/
structure Reaches (kind : DeviceKind) (device : Option Registers) (c : AudioMixerControl)
  (e : AudioCtrlElemValue) (regs : Registers) : Prop where
 device : device = some regs
 inRange : ¬c.OutOfRange e.value0
 taken : ¬Refused kind c (c.inverted e.value0)

theorem setOps_stops (left right : Faults) (stops : ∀ regs, ¬Reaches kind device c e regs) :
  ∃ status, status ≠ .success ∧
   setOps kind device c e left right = some ⟨status, device, c⟩ := by
 rw [setOps_eq, setCtrlOps, audioSetCtrlOpsReg]
 by_cases range : c.OutOfRange e.value0
 · rw [if_pos range]
   exact ⟨errorOf kind, errorOf_ne kind, rfl⟩
 rw [if_neg range]
 cases device with
 | none => exact ⟨errorOf kind, errorOf_ne kind, rfl⟩
 | some regs =>
  have refused : Refused kind c (c.inverted e.value0) :=
   not_not.mp fun taken => stops regs ⟨rfl, range, taken⟩
  refine ⟨.failure, by decide, ?_⟩
  change (updateOf kind regs c (c.inverted e.value0) left).bind _ = _
  rw [updateOf_refused refused]
  rfl

theorem setOps_reaches (reaches : Reaches kind device c e regs) :
  setOps kind device c e left right =
   (updateRegBits regs c (c.inverted e.value0) left).bind fun (ret, regs) =>
    if ret = .success then setRight (errorOf kind) (updateOf kind) regs c e right
    else some ⟨.failure, some regs, c⟩ := by
 rw [setOps_eq, setCtrlOps, audioSetCtrlOpsReg, if_neg reaches.inRange, reaches.device,
  ← updateOf_taken reaches.taken]

theorem setOps_failed (reaches : Reaches kind device c e regs) (shift : c.shift.toNat < 32)
  (failed : left.read ∨ left.write) :
  setOps kind device c e left right = some ⟨.failure, device, c⟩ := by
 rw [setOps_reaches reaches, updateRegBits_failed shift failed, reaches.device]
 rfl

theorem setOps_done (reaches : Reaches kind device c e regs) (shift : c.shift.toNat < 32)
  (done : ¬(left.read ∨ left.write)) : setOps kind device c e left right =
   setRight (errorOf kind) (updateOf kind) (c.put regs (c.inverted e.value0)) c e right := by
 rw [setOps_reaches reaches, updateRegBits_done shift done]
 rfl

theorem setOps_undefined (reaches : Reaches kind device c e regs) (shift : ¬c.shift.toNat < 32) :
  setOps kind device c e left right = none := by
 rw [setOps_reaches reaches, updateRegBits, if_pos (by omega)]
 rfl

theorem updateOf_regs {ret : HdfStatus} {regs' : Registers}
  (run : updateOf kind regs c value faults = some (ret, regs')) :
  regs' = regs ∨ regs' = c.put regs value := by
 by_cases refused : Refused kind c value
 · rw [updateOf_refused refused] at run
   cases run
   exact .inl rfl
 rw [updateOf_taken refused] at run
 unfold updateRegBits at run
 split at run
 · cases run
 · split at run
   · cases run
     exact .inl rfl
   · cases run
     exact .inr rfl

theorem setRight_mono (mono : ¬c.Stereo) : setRight (errorOf kind) (updateOf kind) regs c e right =
  some ⟨.success, some regs, c⟩ := by
 rw [setRight, audioSetCtrlOpsRReg, if_neg mono]

theorem setRight_range (stereo : c.Stereo) (range : c.OutOfRange e.value1) :
  setRight (errorOf kind) (updateOf kind) regs c e right =
   some ⟨errorOf kind, some regs, c⟩ := by
 rw [setRight, audioSetCtrlOpsRReg, if_pos stereo, if_pos range]

theorem setRight_stereo (stereo : c.Stereo) (range : ¬c.OutOfRange e.value1) :
  setRight (errorOf kind) (updateOf kind) regs c e right =
   (updateOf kind regs { c with shift := c.rightShift } (c.inverted e.value1) right).map
    fun (ret, regs) => ⟨if ret = .success then .success else .failure, some regs,
     { c with shift := c.rightShift }⟩ := by
 rw [setRight, audioSetCtrlOpsRReg, if_pos stereo, if_neg range]

theorem setRight_outside {result : SetResult}
  (run : setRight (errorOf kind) (updateOf kind) regs c e right = some result) :
  result.regs.map c.outside = some (c.outside regs) := by
 by_cases stereo : c.Stereo
 · by_cases range : c.OutOfRange e.value1
   · rw [setRight_range stereo range] at run
     cases run
     rfl
   rw [setRight_stereo stereo range] at run
   obtain ⟨⟨ret, regs'⟩, ran, rfl⟩ := Option.map_eq_some_iff.mp run
   refine congrArg some ?_
   rcases updateOf_regs ran with rfl | rfl
   · rfl
   · exact c.outside_put_right regs _
 · rw [setRight_mono stereo] at run
   cases run
   rfl

theorem setOps_outside {result : SetResult}
  (run : setOps kind device c e left right = some result) :
  result.regs.map c.outside = device.map c.outside := by
 by_cases reach : ∃ regs, Reaches kind device c e regs
 · obtain ⟨regs, reaches⟩ := reach
   by_cases shift : c.shift.toNat < 32
   · by_cases failed : left.read ∨ left.write
     · rw [setOps_failed reaches shift failed] at run
       cases run
       rfl
     · rw [setOps_done reaches shift failed] at run
       rw [setRight_outside run, c.outside_put, reaches.device]
       rfl
   · rw [setOps_undefined reaches shift] at run
     cases run
 · obtain ⟨status, -, stops⟩ := setOps_stops left right (not_exists.mp reach)
   rw [stops] at run
   cases run
   rfl

end Set

variable (e : AudioCtrlElemValue)

section Get

variable {kind : DeviceKind} {device : Option Registers} {v : AudioCtrlElemValue}

/-- The field of a register holds what is read as the value. -/
def Holds (c : AudioMixerControl) (content value : Word) : Prop :=
 ¬c.OutOfRange content ∧ content = c.inverted value

/-- A reading whose accesses succeed gives the values, of the right channel too if the control has
two. -/
def Reads (kind : DeviceKind) (device : Option Registers) (c : AudioMixerControl)
  (v : AudioCtrlElemValue) : Prop :=
 ∀ e, getOps kind device c e false =
  some (.success, ⟨v.value0, if c.Stereo then v.value1 else e.value1⟩)

variable (cur : Word)

theorem getReg_none (shift : ¬c.shift.toNat < 32) : audioGetCtrlOpsReg e c cur = none := by
 rw [audioGetCtrlOpsReg, if_pos (by omega)]

theorem getReg_range (shift : c.shift.toNat < 32)
  (range : c.OutOfRange (field cur c.mask c.shift.toNat)) :
  audioGetCtrlOpsReg e c cur = some (.failure, e) := by
 rw [audioGetCtrlOpsReg, if_neg (by omega), if_pos range]

theorem getReg_some (shift : c.shift.toNat < 32)
  (range : ¬c.OutOfRange (field cur c.mask c.shift.toNat)) : audioGetCtrlOpsReg e c cur =
   some (.success, ⟨c.inverted (field cur c.mask c.shift.toNat), e.value1⟩) := by
 rw [audioGetCtrlOpsReg, if_neg (by omega), if_neg range]

theorem getRReg_mono (mono : ¬c.Stereo) : audioGetCtrlOpsRReg e c cur = some (.success, e) := by
 rw [audioGetCtrlOpsRReg, if_neg mono]

theorem getRReg_none (stereo : c.Stereo)
  (shift : ¬c.rightShift.toNat < 32) : audioGetCtrlOpsRReg e c cur = none := by
 rw [audioGetCtrlOpsRReg, if_pos stereo, if_pos (by omega)]

theorem getRReg_range (stereo : c.Stereo) (shift : c.rightShift.toNat < 32)
  (range : c.OutOfRange (field cur c.mask c.rightShift.toNat)) :
  audioGetCtrlOpsRReg e c cur = some (.failure, e) := by
 rw [audioGetCtrlOpsRReg, if_pos stereo, if_neg (by omega), if_pos range]

theorem getRReg_some (stereo : c.Stereo) (shift : c.rightShift.toNat < 32)
  (range : ¬c.OutOfRange (field cur c.mask c.rightShift.toNat)) :
  audioGetCtrlOpsRReg e c cur =
   some (.success, ⟨e.value0, c.inverted (field cur c.mask c.rightShift.toNat)⟩) := by
 rw [audioGetCtrlOpsRReg, if_pos stereo, if_neg (by omega), if_neg range]

theorem getOps_some : getOps kind (some regs) c e false =
  (audioGetCtrlOpsReg e c (regs c.reg)).bind fun (ret, elemValue) =>
   if ret = .success then
    (audioGetCtrlOpsRReg elemValue c (regs c.rreg)).map fun (ret, elemValue) =>
     (if ret = .success then .success else .failure, elemValue)
   else some (.failure, elemValue) := by
 rw [getOps_eq]
 rfl

theorem reads_iff : Reads kind (some regs) c v ↔
  (c.shift.toNat < 32 ∧ Holds c (field (regs c.reg) c.mask c.shift.toNat) v.value0) ∧
   (c.Stereo → c.rightShift.toNat < 32 ∧
    Holds c (field (regs c.rreg) c.mask c.rightShift.toNat) v.value1) := by
 unfold Reads Holds
 simp only [getOps_some]
 by_cases shift : c.shift.toNat < 32
 · by_cases range : c.OutOfRange (field (regs c.reg) c.mask c.shift.toNat)
   · refine iff_of_false (fun reads => ?_) fun holds => holds.1.2.1 range
     have failed := reads v
     rw [getReg_range v _ shift range] at failed
     cases failed
   simp only [getReg_some _ _ shift range, Option.bind_some, if_pos]
   by_cases stereo : c.Stereo
   · by_cases right : c.rightShift.toNat < 32
     · by_cases rrange : c.OutOfRange (field (regs c.rreg) c.mask c.rightShift.toNat)
       · refine iff_of_false (fun reads => ?_) fun holds => (holds.2 stereo).2.1 rrange
         have failed := reads v
         rw [getRReg_range _ _ stereo right rrange] at failed
         cases failed
       simp only [getRReg_some _ _ stereo right rrange, if_pos stereo]
       constructor
       · intro reads
         have given := reads v
         simp only [Option.map_some, Option.some.injEq, Prod.mk.injEq,
          AudioCtrlElemValue.mk.injEq] at given
         exact ⟨⟨shift, range, c.inverted_eq_iff.mp given.2.1⟩,
          fun _ => ⟨right, rrange, c.inverted_eq_iff.mp given.2.2⟩⟩
       · rintro ⟨⟨-, -, same⟩, rest⟩ e
         rw [c.inverted_eq_iff.mpr same, c.inverted_eq_iff.mpr (rest stereo).2.2]
         rfl
     · refine iff_of_false (fun reads => ?_) fun holds => right (holds.2 stereo).1
       have failed := reads v
       rw [getRReg_none _ _ stereo right] at failed
       cases failed
   · simp only [getRReg_mono _ _ stereo, if_neg stereo]
     constructor
     · intro reads
       have given := reads v
       simp only [Option.map_some, Option.some.injEq, Prod.mk.injEq,
        AudioCtrlElemValue.mk.injEq] at given
       exact ⟨⟨shift, range, c.inverted_eq_iff.mp given.2.1⟩, fun h => absurd h stereo⟩
     · rintro ⟨⟨-, -, same⟩, -⟩ e
       rw [c.inverted_eq_iff.mpr same]
       rfl
 · refine iff_of_false (fun reads => ?_) fun holds => shift holds.1.1
   have failed := reads v
   rw [getReg_none _ _ shift] at failed
   cases failed

end Get

def AudioMixerControl.fields (c : AudioMixerControl) : List (Word × Word) :=
 [(c.reg, c.mask <<< c.shift.toNat), (c.rreg, c.mask <<< c.rightShift.toNat)]

section Runs

variable {ι : Type} (kind : ι → DeviceKind) (control : ι → AudioMixerControl)

/-- Controls for the same device have no bit in common. -/
def Apart : Prop :=
 ∀ i j, i ≠ j → kind i = kind j → ∀ f ∈ (control i).fields, ∀ g ∈ (control j).fields,
  f.1 = g.1 → f.2 &&& g.2 = 0#32

/-- The descriptions are these, and every control reads as it was set last. -/
structure Right (s : State ι) : Prop where
 descriptions : s.control = control
 reads : ∀ i v, s.lastSet i = some v → Reads (kind i) (s.card (kind i)) (control i) v

variable {kind control} {s t : State ι} {i j : ι}

theorem field_put_other {mask reg : Word} {shift : ℕ} (c : AudioMixerControl) (regs : Registers)
  (value : Word) (apart : c.reg = reg → (c.mask <<< c.shift.toNat) &&& (mask <<< shift) = 0#32) :
  field (c.put regs value reg) mask shift = field (regs reg) mask shift := by
 by_cases here : reg = c.reg
 · subst here
   rw [AudioMixerControl.put_reg]
   exact field_inj.mpr (replace_disjoint (apart rfl))
 · rw [AudioMixerControl.put_of_ne here]

theorem reads_other (apart : Apart kind control) (other : j ≠ i) {regs : Registers}
  (device : s.card (kind i) = some regs) (value : Word) {v : AudioCtrlElemValue}
  (reads : Reads (kind j) (s.card (kind j)) (control j) v) :
  Reads (kind j) (Function.update s.card (kind i) (some ((control i).put regs value)) (kind j))
   (control j) v := by
 by_cases same : kind j = kind i
 · rw [same, device] at reads
   rw [same, Function.update_self]
   have bits := apart i j other.symm same.symm
   have left : field ((control i).put regs value (control j).reg) (control j).mask
     (control j).shift.toNat = field (regs (control j).reg) (control j).mask
      (control j).shift.toNat :=
    field_put_other (control i) regs value
     (bits _ List.mem_cons_self _ List.mem_cons_self)
   have right : field ((control i).put regs value (control j).rreg) (control j).mask
     (control j).rightShift.toNat = field (regs (control j).rreg) (control j).mask
      (control j).rightShift.toNat :=
    field_put_other (control i) regs value
     (bits _ List.mem_cons_self _ (List.mem_cons_of_mem _ List.mem_cons_self))
   rw [reads_iff, left, right]
   exact reads_iff.mp reads
 · rw [Function.update_of_ne same]
   exact reads

theorem right_written (apart : Apart kind control) (right : Right kind control s)
  {regs : Registers} (device : s.card (kind i) = some regs) (value : Word)
  (card : t.card = Function.update s.card (kind i) (some ((control i).put regs value)))
  (controls : t.control = control) (others : ∀ j, j ≠ i → t.lastSet j = s.lastSet j) :
  Right kind control t ↔ ∀ v, t.lastSet i = some v →
   Reads (kind i) (some ((control i).put regs value)) (control i) v := by
 constructor
 · intro after v last
   have reads := after.reads i v last
   rw [card, Function.update_self] at reads
   exact reads
 · intro own
   refine ⟨controls, fun j v last => ?_⟩
   rw [card]
   by_cases here : j = i
   · rw [here] at last ⊢
     rw [Function.update_self]
     exact own v last
   · rw [others j here] at last
     exact reads_other apart here device value (right.reads j v last)

/-- The left field holds the value already, or nothing was set that it has to hold. -/
def Keeps (c : AudioMixerControl) (regs : Registers) (last : Option AudioCtrlElemValue)
  (value : Word) : Prop :=
 last = none ∨ field (value <<< c.shift.toNat) c.mask c.shift.toNat =
  field (regs c.reg) c.mask c.shift.toNat

theorem right_failed (apart : Apart kind control) (right : Right kind control s)
  {regs : Registers} (device : s.card (kind i) = some regs) (value : Word)
  (card : t.card = Function.update s.card (kind i) (some ((control i).put regs value)))
  (controls : t.control = control) (last : t.lastSet = s.lastSet) :
  Right kind control t ↔ Keeps (control i) regs (s.lastSet i) value := by
 rw [right_written apart right device value card controls fun j _ => by rw [last], last]
 have before : ∀ v, s.lastSet i = some v → Reads (kind i) (some regs) (control i) v := by
  intro v lastSet
  rw [← device]
  exact right.reads i v lastSet
 constructor
 · intro after
   cases lastSet : s.lastSet i with
   | none => exact .inl rfl
   | some v =>
    have old := (reads_iff.mp (before v lastSet)).1.2.2
    have new := (reads_iff.mp (after v lastSet)).1.2.2
    rw [AudioMixerControl.field_put] at new
    exact .inr (new.trans old.symm)
 · rintro (none | same) v lastSet
   · rw [none] at lastSet
     cases lastSet
   · rw [AudioMixerControl.put_same same]
     exact before v lastSet

def RightMeets (kind : DeviceKind) (regs : Registers) (c : AudioMixerControl)
  (last : Option AudioCtrlElemValue) (e : AudioCtrlElemValue) (faults : Faults) : Prop :=
 (c.OutOfRange e.value1 → Keeps c regs last (c.inverted e.value0)) ∧
  (¬c.OutOfRange e.value1 → c.reg ≠ c.rreg ∧
   (Refused kind c (c.inverted e.value1) ∨ faults.read ∨ faults.write →
    Keeps c regs last (c.inverted e.value0)) ∧
   (¬(Refused kind c (c.inverted e.value1) ∨ faults.read ∨ faults.write) →
    e.value1 = e.value0 ∧ Holds c (field (regs c.rreg) c.mask c.shift.toNat) e.value1))

def SetMeets (kind : DeviceKind) (device : Option Registers) (c : AudioMixerControl)
  (last : Option AudioCtrlElemValue) (e : AudioCtrlElemValue) (left right : Faults) : Prop :=
 ∀ regs, Reaches kind device c e regs → c.shift.toNat < 32 ∧ (¬(left.read ∨ left.write) →
  (¬c.Stereo → c.Fits (c.inverted e.value0)) ∧ (c.Stereo → RightMeets kind regs c last e right))

def GetMeets (device : Option Registers) (c : AudioMixerControl) (fails : Bool) : Prop :=
 ∀ regs, device = some regs → fails = false → c.shift.toNat < 32 ∧
  (¬c.OutOfRange (field (regs c.reg) c.mask c.shift.toNat) → c.Stereo → c.rightShift.toNat < 32)

def Meets (kind : ι → DeviceKind) (s : State ι) : Op ι → Prop
 | .set i e left right =>
  SetMeets (kind i) (s.card (kind i)) (s.control i) (s.lastSet i) e left right
 | .get i _ fails => GetMeets (s.card (kind i)) (s.control i) fails

theorem getMeets_iff (kind : DeviceKind) (device : Option Registers) (c : AudioMixerControl)
  (e : AudioCtrlElemValue) (fails : Bool) :
  getOps kind device c e fails ≠ none ↔ GetMeets device c fails := by
 unfold GetMeets
 cases device with
 | none =>
  rw [getOps_eq]
  refine iff_of_true (fun run => ?_) fun regs missing => ?_
  · cases run
  · cases missing
 | some regs =>
  cases fails with
  | true =>
   rw [getOps_eq]
   refine iff_of_true (fun run => ?_) fun regs _ reads => ?_
   · cases run
   · cases reads
  | false =>
   rw [getOps_some]
   by_cases shift : c.shift.toNat < 32
   · by_cases range : c.OutOfRange (field (regs c.reg) c.mask c.shift.toNat)
     · rw [getReg_range e _ shift range]
       refine iff_of_true (fun run => ?_) fun regs' same _ => ⟨shift, fun inRange => ?_⟩
       · cases run
       · cases same
         exact absurd range inRange
     rw [getReg_some e _ shift range]
     by_cases stereo : c.Stereo
     · by_cases right : c.rightShift.toNat < 32
       · refine iff_of_true ?_ fun _ _ _ => ⟨shift, fun _ _ => right⟩
         by_cases rrange : c.OutOfRange (field (regs c.rreg) c.mask c.rightShift.toNat)
         · simp [getRReg_range _ _ stereo right rrange]
         · simp [getRReg_some _ _ stereo right rrange]
       · refine iff_of_false (fun run => run ?_) fun meets => right
          ((meets regs rfl rfl).2 range stereo)
         simp [getRReg_none _ _ stereo right]
     · refine iff_of_true ?_ fun _ _ _ => ⟨shift, fun _ h => absurd h stereo⟩
       simp [getRReg_mono _ _ stereo]
   · rw [getReg_none e _ shift]
     exact iff_of_false (fun run => run rfl) fun meets => shift (meets regs rfl rfl).1

variable [DecidableEq ι]

theorem control_afterSet (controls : s.control = control) {e : AudioCtrlElemValue}
  {result : SetResult} (same : result.mixerCtrl = control i) :
  (s.afterSet kind i e result).control = control := by
 change Function.update s.control i result.mixerCtrl = control
 rw [same, controls, Function.update_eq_self]

theorem step_set (right : Right kind control s) (e : AudioCtrlElemValue) (l r : Faults) :
  step kind s (.set i e l r) =
   (setOps (kind i) (s.card (kind i)) (control i) e l r).map (s.afterSet kind i e) := by
 rw [step, right.descriptions]

theorem set_result (right : Right kind control s) {e : AudioCtrlElemValue} {l r : Faults}
  {result : SetResult}
  (run : setOps (kind i) (s.card (kind i)) (control i) e l r = some result) :
  (∃ t, step kind s (.set i e l r) = some t ∧ Right kind control t) ↔
   Right kind control (s.afterSet kind i e result) := by
 rw [step_set right, run]
 constructor
 · rintro ⟨t, same, after⟩
   cases same
   exact after
 · exact fun after => ⟨_, rfl, after⟩

theorem right_unchanged (right : Right kind control s) {e : AudioCtrlElemValue}
  {status : HdfStatus} (failed : status ≠ .success) :
  Right kind control (s.afterSet kind i e ⟨status, s.card (kind i), control i⟩) := by
 have card : (s.afterSet kind i e ⟨status, s.card (kind i), control i⟩).card = s.card :=
  Function.update_eq_self _ _
 have last : (s.afterSet kind i e ⟨status, s.card (kind i), control i⟩).lastSet = s.lastSet :=
  if_neg failed
 refine ⟨control_afterSet right.descriptions rfl, fun j v => ?_⟩
 rw [card, last]
 exact right.reads j v

theorem set_failed (apart : Apart kind control) (right : Right kind control s)
  {regs : Registers} (device : s.card (kind i) = some regs) {e : AudioCtrlElemValue}
  {status : HdfStatus} (failed : status ≠ .success) (value : Word) :
  Right kind control
    (s.afterSet kind i e ⟨status, some ((control i).put regs value), control i⟩) ↔
   Keeps (control i) regs (s.lastSet i) value :=
 right_failed apart right device value rfl (control_afterSet right.descriptions rfl)
  (if_neg failed)

theorem set_succeeds (apart : Apart kind control) (right : Right kind control s)
  {regs : Registers} (device : s.card (kind i) = some regs) {e : AudioCtrlElemValue}
  (value : Word) :
  Right kind control
    (s.afterSet kind i e ⟨.success, some ((control i).put regs value), control i⟩) ↔
   Reads (kind i) (some ((control i).put regs value)) (control i) e := by
 have last : (s.afterSet kind i e ⟨.success, some ((control i).put regs value), control i⟩).lastSet
   = Function.update s.lastSet i (some e) := rfl
 rw [right_written apart right device value rfl (control_afterSet right.descriptions rfl)
  fun j other => by rw [last, Function.update_of_ne other], last, Function.update_self]
 constructor
 · exact fun reads => reads e rfl
 · rintro reads v same
   cases same
   exact reads

theorem setRight_iff (apart : Apart kind control) (right : Right kind control s)
  {regs : Registers} (device : s.card (kind i) = some regs) {e : AudioCtrlElemValue}
  {l r : Faults} (stereo : (control i).Stereo) (shift : (control i).shift.toNat < 32)
  (run : setOps (kind i) (s.card (kind i)) (control i) e l r =
   setRight (errorOf (kind i)) (updateOf (kind i))
    ((control i).put regs ((control i).inverted e.value0)) (control i) e r) :
  (∃ t, step kind s (.set i e l r) = some t ∧ Right kind control t) ↔
   RightMeets (kind i) regs (control i) (s.lastSet i) e r := by
 unfold RightMeets
 by_cases range : (control i).OutOfRange e.value1
 · rw [setRight_range stereo range] at run
   rw [set_result right run, set_failed apart right device (errorOf_ne _)]
   exact ⟨fun keeps => ⟨fun _ => keeps, fun inRange => absurd range inRange⟩,
    fun meets => meets.1 range⟩
 rw [setRight_stereo stereo range] at run
 rw [and_iff_right (a := _ → _) fun h => absurd h range, forall_prop_of_true range]
 by_cases same : (control i).reg = (control i).rreg
 · refine iff_of_false ?_ fun meets => meets.1 same
   rintro ⟨t, ran, after⟩
   rw [step_set right, run, Option.map_map, Option.map_eq_some_iff] at ran
   obtain ⟨⟨ret, regs'⟩, _, rfl⟩ := ran
   have moved : { control i with shift := (control i).rightShift } = control i :=
    (Function.update_self _ _ _).symm.trans (congrFun after.descriptions i)
   have shifts := congrArg AudioMixerControl.shift moved
   rw [AudioMixerControl.rightShift, if_pos same] at shifts
   exact stereo.elim (fun other => other same) fun other => other shifts.symm
 have fixed : { control i with shift := (control i).rightShift } = control i := by
  rw [AudioMixerControl.rightShift_of_reg same]
 rw [fixed] at run
 rw [and_iff_right same]
 by_cases fails : Refused (kind i) (control i) ((control i).inverted e.value1) ∨ r.read ∨ r.write
 · have failed : updateOf (kind i) ((control i).put regs ((control i).inverted e.value0))
     (control i) ((control i).inverted e.value1) r =
      some (.failure, (control i).put regs ((control i).inverted e.value0)) := by
    by_cases refused : Refused (kind i) (control i) ((control i).inverted e.value1)
    · exact updateOf_refused refused
    · rw [updateOf_taken refused]
      exact updateRegBits_failed shift (fails.resolve_left refused)
   rw [failed] at run
   rw [set_result right run, set_failed apart right device (by decide),
    forall_prop_of_true fails]
   exact (and_iff_left fun h => absurd fails h).symm
 obtain ⟨taken, done⟩ := not_or.mp fails
 rw [updateOf_taken taken, updateRegBits_done shift done, AudioMixerControl.put_put] at run
 have ended : setOps (kind i) (s.card (kind i)) (control i) e l r =
  some ⟨.success, some ((control i).put regs ((control i).inverted e.value1)), control i⟩ := run
 rw [set_result right ended, set_succeeds apart right device, reads_iff,
  forall_prop_of_true stereo, and_iff_right (a := _ → _) fun h => absurd h fails,
  forall_prop_of_true fails, AudioMixerControl.rightShift_of_reg same,
  AudioMixerControl.put_of_ne (Ne.symm same), AudioMixerControl.field_put]
 unfold Holds
 constructor
 · rintro ⟨⟨-, -, left⟩, -, inRange, held⟩
   rw [← held, field_field, held] at left
   refine ⟨?_, inRange, held⟩
   rw [AudioMixerControl.inverted_eq_iff.mp left, AudioMixerControl.inverted_inverted]
 · rintro ⟨equal, inRange, held⟩
   have back : field ((control i).inverted e.value1 <<< (control i).shift.toNat)
     (control i).mask (control i).shift.toNat = (control i).inverted e.value1 := by
    rw [← held, field_field]
   rw [back]
   refine ⟨⟨shift, ?_, by rw [equal]⟩, shift, inRange, held⟩
   rw [← held]
   exact inRange

theorem set_iff (apart : Apart kind control) (right : Right kind control s)
  (e : AudioCtrlElemValue) (l r : Faults) :
  (∃ t, step kind s (.set i e l r) = some t ∧ Right kind control t) ↔
   SetMeets (kind i) (s.card (kind i)) (control i) (s.lastSet i) e l r := by
 by_cases reach : ∃ regs, Reaches (kind i) (s.card (kind i)) (control i) e regs
 · obtain ⟨regs, reaches⟩ := reach
   have one : SetMeets (kind i) (s.card (kind i)) (control i) (s.lastSet i) e l r ↔
     (control i).shift.toNat < 32 ∧ (¬(l.read ∨ l.write) →
      (¬(control i).Stereo → (control i).Fits ((control i).inverted e.value0)) ∧
       ((control i).Stereo →
        RightMeets (kind i) regs (control i) (s.lastSet i) e r)) := by
    refine ⟨fun meets => meets regs reaches, fun meets regs' reaches' => ?_⟩
    cases reaches.device.symm.trans reaches'.device
    exact meets
   rw [one]
   by_cases shift : (control i).shift.toNat < 32
   · rw [and_iff_right shift]
     by_cases failed : l.read ∨ l.write
     · rw [set_result right (setOps_failed reaches shift failed)]
       exact iff_of_true (right_unchanged right (by decide)) fun done => absurd failed done
     rw [forall_prop_of_true failed]
     have run : setOps (kind i) (s.card (kind i)) (control i) e l r = _ :=
      setOps_done reaches shift failed
     by_cases stereo : (control i).Stereo
     · rw [setRight_iff apart right reaches.device stereo shift run,
        and_iff_right (a := _ → _) fun mono => absurd stereo mono, forall_prop_of_true stereo]
     rw [setRight_mono stereo] at run
     rw [set_result right run, set_succeeds apart right reaches.device, reads_iff,
      forall_prop_of_true stereo, AudioMixerControl.field_put]
     unfold Holds AudioMixerControl.Fits
     constructor
     · rintro ⟨⟨-, inRange, same⟩, -⟩
       rw [same] at inRange
       exact ⟨⟨inRange, same⟩, fun h => absurd h stereo⟩
     · rintro ⟨⟨inRange, same⟩, -⟩
       rw [same]
       exact ⟨⟨shift, inRange, rfl⟩, fun h => absurd h stereo⟩
   · rw [step_set right, setOps_undefined reaches shift]
     refine iff_of_false ?_ fun meets => shift meets.1
     rintro ⟨t, run, -⟩
     cases run
 · obtain ⟨status, failed, run⟩ := setOps_stops l r (not_exists.mp reach)
   rw [set_result right run]
   exact iff_of_true (right_unchanged right failed) fun regs reaches =>
    absurd ⟨regs, reaches⟩ reach

theorem step_iff (apart : Apart kind control) (right : Right kind control s) (op : Op ι) :
  (∃ t, step kind s op = some t ∧ Right kind control t) ↔ Meets kind s op := by
 cases op with
 | set i e l r =>
  rw [set_iff apart right, Meets, right.descriptions]
 | get i e fails =>
  rw [Meets, ← getMeets_iff (kind i) _ _ e]
  constructor
  · rintro ⟨t, run, -⟩ none
    rw [step, none] at run
    cases run
  · intro runs
    obtain ⟨result, run⟩ := Option.ne_none_iff_exists'.mp runs
    exact ⟨s, by rw [step, run]; rfl, right⟩

/-- What an operation leaves of the registers outside the fields of its control. -/
def OwnBits (kind : ι → DeviceKind) (s : State ι) : Op ι → Prop
 | .set i e l r => ∀ t, step kind s (.set i e l r) = some t →
  (∀ device, device ≠ kind i → t.card device = s.card device) ∧
   (t.card (kind i)).map (s.control i).outside = (s.card (kind i)).map (s.control i).outside
 | .get i e fails => ∀ t, step kind s (.get i e fails) = some t → t = s

theorem ownBits (kind : ι → DeviceKind) (s : State ι) (op : Op ι) : OwnBits kind s op := by
 cases op with
 | set i e l r =>
  intro t run
  obtain ⟨result, ran, rfl⟩ := Option.map_eq_some_iff.mp run
  have card : (s.afterSet kind i e result).card = Function.update s.card (kind i) result.regs := rfl
  rw [card]
  refine ⟨fun device other => Function.update_of_ne other _ _, ?_⟩
  rw [Function.update_self]
  exact setOps_outside ran
 | get i e fails =>
  intro t run
  obtain ⟨-, -, rfl⟩ := Option.map_eq_some_iff.mp run
  rfl

/-- Through a sequence of operations, the descriptions stay, every reading gives what was set last
and every set keeps to its fields, exactly if each operation meets the condition. -/
theorem controls_right_iff (kind : ι → DeviceKind) (s : State ι) (apart : Apart kind s.control)
    (unset : ∀ i, s.lastSet i = none) (ops : List (Op ι)) :
    (Safe (step kind) (Right kind s.control) s ops ∧ Along (step kind) (OwnBits kind) s ops) ↔
      Along (step kind) (Meets kind) s ops := by
  have start : Right kind s.control s := by
    refine ⟨rfl, fun i v last => ?_⟩
    rw [unset] at last
    cases last
  have own : Along (step kind) (OwnBits kind) s ops := fun _ op _ t _ => ownBits kind t op
  rw [and_iff_left own]
  exact safe_iff_along (fun t op right => step_iff apart right op) s ops start

end Runs

/-- Both channels in one register. -/
def volume : AudioMixerControl where
 min := 0
 max := 255
 mask := 255
 reg := 0
 rreg := 0
 shift := 0
 rshift := 8
 invert := 0

def volumeCard (c : AudioMixerControl) : State Unit where
 card := fun _ => some fun _ => 0
 control := fun _ => c
 lastSet := fun _ => none

theorem one_apart (c : AudioMixerControl) : Apart (fun _ : Unit => .codec) (volumeCard c).control :=
 fun _ _ other => absurd rfl other

def works : Faults := ⟨false, false⟩

theorem controls_right_volume :
    (Safe (step fun _ => .codec) (Right (fun _ => .codec) (volumeCard volume).control)
        (volumeCard volume) [.set () ⟨10, 300⟩ works works, .get () ⟨0, 0⟩ false] ∧
      Along (step fun _ => .codec) (OwnBits fun _ => .codec) (volumeCard volume)
        [.set () ⟨10, 300⟩ works works, .get () ⟨0, 0⟩ false]) ↔
      Along (step fun _ => .codec) (Meets fun _ => .codec) (volumeCard volume)
        [.set () ⟨10, 300⟩ works works, .get () ⟨0, 0⟩ false] :=
  controls_right_iff (fun _ => .codec) (volumeCard volume) (one_apart volume) (fun _ => rfl)
    [.set () ⟨10, 300⟩ works works, .get () ⟨0, 0⟩ false]

/-- Setting 10 and 20 moves the field of the left channel to that of the right one, and 20 is read
for the left channel. -/
theorem volume_moves : Apart (fun _ : Unit => .codec) (volumeCard volume).control ∧
    (∀ i, (volumeCard volume).lastSet i = none) ∧
    ¬Safe (step fun _ => .codec) (Right (fun _ => .codec) (volumeCard volume).control)
      (volumeCard volume) [.set () ⟨10, 20⟩ works works] ∧
    (exec (step fun _ => .codec) (volumeCard volume) [.set () ⟨10, 20⟩ works works]).bind
      (fun t => getOps .codec (t.card .codec) (t.control ()) ⟨0, 0⟩ false) =
        some (.success, ⟨20, 0⟩) := by
  refine ⟨one_apart volume, fun _ => rfl, fun safe => ?_, by decide⟩
  obtain ⟨t, run, right⟩ := safe [.set () ⟨10, 20⟩ works works] (List.prefix_refl _)
  have moved : (exec (step fun _ => .codec) (volumeCard volume)
      [.set () ⟨10, 20⟩ works works]).map (fun t => (t.control ()).shift) = some 8 := by decide
  rw [run] at moved
  have shift : (t.control ()).shift = 8 := Option.some.inj moved
  rw [right.descriptions] at shift
  cases shift

end DriversFramework.AudioControls
