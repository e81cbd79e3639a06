import DriversFramework.HdfBase
import DriversFramework.RegisterFields
import DriversFramework.RunRules

namespace DriversFramework.AudioControls

open RegisterFields RunRules

abbrev Word := BitVec 32

/-- `min` and `max` are signed, but are only compared with unsigned values and subtracted from,
which converts them. -/
structure AudioMixerControl where
 min : Word
 max : Word
 mask : Word
 reg : Word
 rreg : Word
 shift : Word
 rshift : Word
 invert : Word
 deriving DecidableEq

structure AudioCtrlElemValue where
 value0 : Word
 value1 : Word
 deriving DecidableEq

structure Faults where
 read : Bool
 write : Bool
 deriving DecidableEq

abbrev Registers := Word → Word

namespace AudioMixerControl

def Stereo (c : AudioMixerControl) : Prop := c.reg ≠ c.rreg ∨ c.shift ≠ c.rshift

def OutOfRange (c : AudioMixerControl) (value : Word) : Prop := value < c.min ∨ c.max < value

instance (c : AudioMixerControl) : Decidable c.Stereo := inferInstanceAs (Decidable (_ ∨ _))

instance (c : AudioMixerControl) (value : Word) : Decidable (c.OutOfRange value) :=
 inferInstanceAs (Decidable (_ ∨ _))

def inverted (c : AudioMixerControl) (value : Word) : Word :=
 if c.invert ≠ 0 then c.max - value else value

def rightShift (c : AudioMixerControl) : Word := if c.reg = c.rreg then c.rshift else c.shift

def put (c : AudioMixerControl) (regs : Registers) (value : Word) : Registers :=
 Function.update regs c.reg
  (replace (regs c.reg) (c.mask <<< c.shift.toNat) (value <<< c.shift.toNat))

end AudioMixerControl

def updateRegBits (regs : Registers) (mixerControl : AudioMixerControl) (value : Word)
  (faults : Faults) : Option (HdfStatus × Registers) :=
 if 32 ≤ mixerControl.shift.toNat then none
 else if faults.read ∨ faults.write then some (.failure, regs)
 else some (.success, mixerControl.put regs value)

def audioUpdateCodecRegBits : Registers → AudioMixerControl → Word → Faults →
 Option (HdfStatus × Registers) := updateRegBits

def audioUpdateAccessoryRegBits : Registers → AudioMixerControl → Word → Faults →
 Option (HdfStatus × Registers) := updateRegBits

def audioUpdateDaiRegBits (regs : Registers) (mixerControl : AudioMixerControl) (value : Word)
  (faults : Faults) : Option (HdfStatus × Registers) :=
 if mixerControl.max < value ∨ value < mixerControl.min then some (.failure, regs)
 else updateRegBits regs mixerControl value faults

def audioSetCtrlOpsReg (elemValue : AudioCtrlElemValue) (mixerCtrl : AudioMixerControl) :
  HdfStatus × Word :=
 if mixerCtrl.OutOfRange elemValue.value0 then (.errInvalidObject, elemValue.value0)
 else (.success, mixerCtrl.inverted elemValue.value0)

def audioSetCtrlOpsRReg (elemValue : AudioCtrlElemValue) (mixerCtrl : AudioMixerControl) :
  HdfStatus × AudioMixerControl × Option Word :=
 if mixerCtrl.Stereo then
  if mixerCtrl.OutOfRange elemValue.value1 then (.failure, mixerCtrl, some elemValue.value1)
  else (.success, { mixerCtrl with shift := mixerCtrl.rightShift },
   some (mixerCtrl.inverted elemValue.value1))
 else (.success, mixerCtrl, none)

structure SetResult where
 status : HdfStatus
 regs : Option Registers
 mixerCtrl : AudioMixerControl

/-- The update of the right channel goes through the description too, whose `reg` is that of the
left channel. -/
def setRight (error : HdfStatus)
  (update : Registers → AudioMixerControl → Word → Faults → Option (HdfStatus × Registers))
  (regs : Registers) (mixerCtrl : AudioMixerControl) (elemValue : AudioCtrlElemValue)
  (faults : Faults) : Option SetResult :=
 match audioSetCtrlOpsRReg elemValue mixerCtrl with
 | (.success, mixerCtrl, none) => some ⟨.success, some regs, mixerCtrl⟩
 | (.success, mixerCtrl, some rvalue) =>
  (update regs mixerCtrl rvalue faults).map fun (ret, regs) =>
   ⟨if ret = .success then .success else .failure, some regs, mixerCtrl⟩
 | (_, mixerCtrl, _) => some ⟨error, some regs, mixerCtrl⟩

def setCtrlOps (error : HdfStatus)
  (update : Registers → AudioMixerControl → Word → Faults → Option (HdfStatus × Registers))
  (device : Option Registers) (mixerCtrl : AudioMixerControl) (elemValue : AudioCtrlElemValue)
  (left right : Faults) : Option SetResult :=
 match audioSetCtrlOpsReg elemValue mixerCtrl with
 | (.success, value) =>
  match device with
  | none => some ⟨error, none, mixerCtrl⟩
  | some regs => (update regs mixerCtrl value left).bind fun (ret, regs) =>
   if ret = .success then setRight error update regs mixerCtrl elemValue right
   else some ⟨.failure, some regs, mixerCtrl⟩
 | _ => some ⟨error, device, mixerCtrl⟩

def audioCodecSetCtrlOps : Option Registers → AudioMixerControl → AudioCtrlElemValue → Faults →
 Faults → Option SetResult := setCtrlOps .errInvalidObject audioUpdateCodecRegBits

def audioAccessorySetCtrlOps : Option Registers → AudioMixerControl → AudioCtrlElemValue → Faults →
 Faults → Option SetResult := setCtrlOps .failure audioUpdateAccessoryRegBits

def audioCpuDaiSetCtrlOps : Option Registers → AudioMixerControl → AudioCtrlElemValue → Faults →
 Faults → Option SetResult := setCtrlOps .errInvalidObject audioUpdateDaiRegBits

def audioGetCtrlOpsReg (elemValue : AudioCtrlElemValue) (mixerCtrl : AudioMixerControl)
  (curValue : Word) : Option (HdfStatus × AudioCtrlElemValue) :=
 if 32 ≤ mixerCtrl.shift.toNat then none
 else if mixerCtrl.OutOfRange (field curValue mixerCtrl.mask mixerCtrl.shift.toNat) then
  some (.failure, elemValue)
 else some (.success, { elemValue with
  value0 := mixerCtrl.inverted (field curValue mixerCtrl.mask mixerCtrl.shift.toNat) })

def audioGetCtrlOpsRReg (elemValue : AudioCtrlElemValue) (mixerCtrl : AudioMixerControl)
  (rcurValue : Word) : Option (HdfStatus × AudioCtrlElemValue) :=
 if mixerCtrl.Stereo then
  if 32 ≤ mixerCtrl.rightShift.toNat then none
  else if mixerCtrl.OutOfRange (field rcurValue mixerCtrl.mask mixerCtrl.rightShift.toNat) then
   some (.failure, elemValue)
  else some (.success, { elemValue with
   value1 := mixerCtrl.inverted (field rcurValue mixerCtrl.mask mixerCtrl.rightShift.toNat) })
 else some (.success, elemValue)

/-- What the get operations have in common; `fails` says whether the read of `reg` or of `rreg`
fails. -/
def getCtrlOps (device : Option Registers) (mixerCtrl : AudioMixerControl)
  (elemValue : AudioCtrlElemValue) (fails : Bool) : Option (HdfStatus × AudioCtrlElemValue) :=
 match device with
 | none => some (.failure, elemValue)
 | some regs =>
  if fails then some (.failure, elemValue)
  else (audioGetCtrlOpsReg elemValue mixerCtrl (regs mixerCtrl.reg)).bind fun (ret, elemValue) =>
   if ret = .success then
    (audioGetCtrlOpsRReg elemValue mixerCtrl (regs mixerCtrl.rreg)).map fun (ret, elemValue) =>
     (if ret = .success then .success else .failure, elemValue)
   else some (.failure, elemValue)

def audioCodecGetCtrlOps : Option Registers → AudioMixerControl → AudioCtrlElemValue → Bool →
 Option (HdfStatus × AudioCtrlElemValue) := getCtrlOps

def audioAccessoryGetCtrlOps : Option Registers → AudioMixerControl → AudioCtrlElemValue → Bool →
 Option (HdfStatus × AudioCtrlElemValue) := getCtrlOps

def audioCpuDaiGetCtrlOps : Option Registers → AudioMixerControl → AudioCtrlElemValue → Bool →
 Option (HdfStatus × AudioCtrlElemValue) := getCtrlOps

/-- The device whose registers a control is for; its operations are those of this device. -/
inductive DeviceKind where
 | codec
 | accessory
 | cpuDai
 deriving DecidableEq

def setOps : DeviceKind → Option Registers → AudioMixerControl → AudioCtrlElemValue → Faults →
  Faults → Option SetResult
 | .codec => audioCodecSetCtrlOps
 | .accessory => audioAccessorySetCtrlOps
 | .cpuDai => audioCpuDaiSetCtrlOps

def getOps : DeviceKind → Option Registers → AudioMixerControl → AudioCtrlElemValue → Bool →
  Option (HdfStatus × AudioCtrlElemValue)
 | .codec => audioCodecGetCtrlOps
 | .accessory => audioAccessoryGetCtrlOps
 | .cpuDai => audioCpuDaiGetCtrlOps

/-- A card with its controls, and with the values of the last successful set of each. -/
structure State (ι : Type) where
 card : DeviceKind → Option Registers
 control : ι → AudioMixerControl
 lastSet : ι → Option AudioCtrlElemValue

inductive Op (ι : Type) where
 | set (i : ι) (elemValue : AudioCtrlElemValue) (left right : Faults)
 | get (i : ι) (elemValue : AudioCtrlElemValue) (fails : Bool)

section Runs

variable {ι : Type} [DecidableEq ι] (kind : ι → DeviceKind)

def State.afterSet (s : State ι) (i : ι) (elemValue : AudioCtrlElemValue) (result : SetResult) :
  State ι where
 card := Function.update s.card (kind i) result.regs
 control := Function.update s.control i result.mixerCtrl
 lastSet := if result.status = .success then Function.update s.lastSet i (some elemValue)
  else s.lastSet

def step (s : State ι) : Op ι → Option (State ι)
 | .set i elemValue left right =>
  (setOps (kind i) (s.card (kind i)) (s.control i) elemValue left right).map
   (s.afterSet kind i elemValue)
 | .get i elemValue fails =>
  (getOps (kind i) (s.card (kind i)) (s.control i) elemValue fails).map fun _ => s

end Runs

end DriversFramework.AudioControls
