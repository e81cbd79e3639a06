import Mathlib.Data.List.Basic

/-! The address table of a controller and the global device list (`i3c_core.c`). What the
lock operations of a controller return is an input of each call; a call that hangs or
crashes has no state after it. A device structure is not changed while it is registered. -/
namespace DriversFramework.I3c

def i3cAddrMax : ℕ := 127

def addrsPerUint16 : ℕ := 8

def addrsStatusBits : ℕ := 2

def addrStatusMask : BitVec 16 := 3#16

inductive I3cStatus where
 | success
 | failure
 | errInvalidParam
 | errInvalidObject
 | errDeviceBusy
 | errIo
 deriving DecidableEq

def i3cAddrFree : BitVec 16 := 0#16

def i3cAddrReserved : BitVec 16 := 1#16

def i3cAddrI2cDevice : BitVec 16 := 2#16

def i3cAddrI3cDevice : BitVec 16 := 3#16

inductive I3cDeviceType where
 | i2cDevice
 | i2cLegacyDevice
 | i3cDevice
 deriving DecidableEq

/-- `object` is the address of the structure, `cntlr` that of its controller. -/
structure I3cDevice where
 object : ℕ
 cntlr : ℕ
 pid : UInt64
 addr : ℕ
 dynaAddr : ℕ
 type : I3cDeviceType
 deriving DecidableEq

abbrev AddrSlot := ℕ → BitVec 16

/-- The tables of all controllers, the device list, and whether the lock of the list was
left locked. -/
structure I3cState where
 addrSlot : ℕ → AddrSlot
 devices : List I3cDevice
 listLocked : Bool

def statusBits (slot : AddrSlot) (addr : ℕ) : BitVec 16 :=
 addrStatusMask &&& (slot (addr / addrsPerUint16) >>> (addr % addrsPerUint16 * addrsStatusBits))

/-- `none` is `HDF_ERR_INVALID_PARAM`. -/
def getAddrStatus (slot : AddrSlot) (addr : ℕ) : Option (BitVec 16) :=
 if addr > i3cAddrMax then none else some (statusBits slot addr)

def withStatus (slot : AddrSlot) (addr : ℕ) (status : BitVec 16) : AddrSlot :=
 let shift := addr % addrsPerUint16 * addrsStatusBits
 let statusMask := addrStatusMask <<< shift
 let temp := slot (addr / addrsPerUint16) &&& ~~~statusMask
 Function.update slot (addr / addrsPerUint16) (temp ||| status <<< shift)

/-- `lock` tells whether the controller can be locked. -/
def setAddrStatus (slot : AddrSlot) (addr : ℕ) (status : BitVec 16) (lock : Bool) :
  I3cStatus × AddrSlot :=
 if addr > i3cAddrMax then (.errInvalidParam, slot)
 else if lock = false then (.errDeviceBusy, slot)
 else (.success, withStatus slot addr status)

def reservedAddrs : List ℕ :=
 [0x00, 0x01, 0x02, 0x3e, 0x5e, 0x6e, 0x76, 0x78, 0x79, 0x7a, 0x7b, 0x7c, 0x7d, 0x7e, 0x7f]

def i3cInitAddrStatus (slot : AddrSlot) (lock : ℕ → Bool) : AddrSlot :=
 (List.range (i3cAddrMax + 1)).foldl (fun slot addr =>
  if addr ∈ reservedAddrs then (setAddrStatus slot addr i3cAddrReserved (lock addr)).2 else slot)
  slot

def getFreeAddr (slot : AddrSlot) (lock : Bool) : Option ℕ :=
 if lock = false then none
 else (List.range (i3cAddrMax + 1)).find? fun addr => getAddrStatus slot addr = some i3cAddrFree

structure I3cLocks where
 set : Bool
 free : Bool
 setFree : Bool
 back : Bool
 deriving DecidableEq

def i3cDeviceDefineI3cDevices (slot : AddrSlot) (device : I3cDevice) (locks : I3cLocks) :
  I3cStatus × AddrSlot :=
 let first := setAddrStatus slot device.addr i3cAddrI3cDevice locks.set
 if first.1 = .success then first
 else
  match getFreeAddr slot locks.free with
  | none => (.errDeviceBusy, slot)
  | some addr =>
   if addr = 0 then (.errDeviceBusy, slot)
   else setAddrStatus slot addr i3cAddrI3cDevice locks.setFree

def markAddr (slot : AddrSlot) (device : I3cDevice) (locks : I3cLocks) : I3cStatus × AddrSlot :=
 if device.type = .i2cDevice ∨ device.type = .i2cLegacyDevice then
  setAddrStatus slot device.addr i3cAddrI2cDevice locks.set
 else i3cDeviceDefineI3cDevices slot device locks

def sameDevice (device pos : I3cDevice) : Bool := pos.pid = device.pid && pos.cntlr = device.cntlr

def I3cState.setSlot (s : I3cState) (cntlr : ℕ) (slot : AddrSlot) : I3cState :=
 { s with addrSlot := Function.update s.addrSlot cntlr slot }

def i3cDeviceAdd (s : I3cState) (device : I3cDevice) (locks : I3cLocks) :
  Option (I3cStatus × I3cState) :=
 let slot := s.addrSlot device.cntlr
 if getAddrStatus slot device.addr ≠ some i3cAddrFree then some (.errInvalidObject, s)
 else
  let marked := markAddr slot device locks
  if marked.1 ≠ .success then some (marked.1, s.setSlot device.cntlr marked.2)
  else if s.listLocked then none
  else if s.devices.any (sameDevice device) then
   let back := setAddrStatus marked.2 device.addr i3cAddrReserved locks.back
   some (.errIo, s.setSlot device.cntlr back.2)
  else
   some (.success,
    { s.setSlot device.cntlr marked.2 with devices := s.devices ++ [device] })

def i3cDeviceRemove (s : I3cState) (device : I3cDevice) (lock : Bool) :
  Option (I3cStatus × I3cState) :=
 let set := setAddrStatus (s.addrSlot device.cntlr) device.addr i3cAddrReserved lock
 if set.1 ≠ .success then some (.success, s)
 else if s.listLocked then none
 else if device ∈ s.devices then
  some (.success, { s.setSlot device.cntlr set.2 with devices := s.devices.erase device })
 else none

def answersTo (cntlr addr : ℕ) (pos : I3cDevice) : Bool :=
 pos.cntlr = cntlr && (pos.dynaAddr = addr || (pos.dynaAddr = 0 && pos.addr = addr))

def getDeviceByAddr (s : I3cState) (cntlr addr : ℕ) : Option (Option I3cDevice × I3cState) :=
 match getAddrStatus (s.addrSlot cntlr) addr with
 | none => some (none, s)
 | some status =>
  if status = i3cAddrFree ∨ status = i3cAddrReserved then some (none, s)
  else if s.listLocked then none
  else
   match s.devices.find? (answersTo cntlr addr) with
   | none => some (none, { s with listLocked := true })
   | some device => some (some device, s)

inductive I3cCall where
 | add (device : I3cDevice) (locks : I3cLocks)
 | remove (device : I3cDevice) (lock : Bool)
 | query (cntlr addr : ℕ)
 deriving DecidableEq

/-- What a call returns and the state after it; a query returns no status. -/
def I3cState.call (s : I3cState) : I3cCall → Option (I3cStatus × I3cState)
 | .add device locks => i3cDeviceAdd s device locks
 | .remove device lock => i3cDeviceRemove s device lock
 | .query cntlr addr => (getDeviceByAddr s cntlr addr).map fun found => (.success, found.2)

/-- Controllers as `I3cCntlrAdd` leaves them. -/
def I3cState.start (lock : ℕ → ℕ → Bool) : I3cState :=
 ⟨fun cntlr => i3cInitAddrStatus (fun _ => 0#16) (lock cntlr), [], false⟩

theorem getLsbD_three (i : ℕ) : (3#16).getLsbD i = decide (i < 2) := by
 rcases i with _ | _ | i
 · rfl
 · rfl
 · simp [BitVec.getLsbD, Nat.testBit_succ]

theorem bits_set (word status : BitVec 16) {k j : ℕ} (hk : k < 8) (hj : j < 8)
 (hs : status &&& 3#16 = status) :
 (3#16 &&& ((word &&& ~~~(3#16 <<< (k * 2)) ||| status <<< (k * 2)) >>> (j * 2))) =
  if j = k then status else 3#16 &&& (word >>> (j * 2)) := by
 have low : ∀ i, status.getLsbD i = (status.getLsbD i && decide (i < 2)) := by
  intro i
  rw [← getLsbD_three, ← BitVec.getLsbD_and, hs]
 apply BitVec.eq_of_getLsbD_eq
 intro i hi
 simp only [apply_ite (fun x : BitVec 16 => x.getLsbD i), BitVec.getLsbD_and,
  BitVec.getLsbD_ushiftRight, BitVec.getLsbD_or, BitVec.getLsbD_not, BitVec.getLsbD_shiftLeft,
  getLsbD_three]
 by_cases h2 : i < 2
 · have inside : j * 2 + i < 16 := by omega
   by_cases hjk : j = k
   · subst hjk
     have behind : ¬ j * 2 + i < j * 2 := by omega
     simp [h2, inside, behind]
   · rw [low (j * 2 + i - k * 2)]
     by_cases hlt : j * 2 + i < k * 2
     · simp [h2, inside, hlt, hjk]
     · have apart : ¬ (j * 2 + i - k * 2 < 2) := by omega
       simp [h2, inside, hlt, apart, hjk]
 · rw [low i]
   simp [h2]

theorem statusBits_withStatus (slot : AddrSlot) (a b : ℕ) {status : BitVec 16}
 (hs : status &&& 3#16 = status) :
 statusBits (withStatus slot a status) b = if b = a then status else statusBits slot b := by
 unfold statusBits withStatus addrStatusMask addrsPerUint16 addrsStatusBits
 by_cases word : b / 8 = a / 8
 · rw [word, Function.update_self, bits_set _ _ (Nat.mod_lt a (by decide)) (Nat.mod_lt b (by decide)) hs]
   have same : b % 8 = a % 8 ↔ b = a := by omega
   simp only [same]
 · have apart : b ≠ a := by
    rintro rfl
    exact word rfl
   rw [Function.update_of_ne word, if_neg apart]

end DriversFramework.I3c
