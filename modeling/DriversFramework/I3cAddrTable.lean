import DriversFramework.I3cCore
import DriversFramework.RunRules

namespace DriversFramework.I3c

open RunRules

def Occupied (slot : AddrSlot) (addr : ℕ) : Prop :=
 addr ≤ i3cAddrMax ∧
  (statusBits slot addr = i3cAddrI2cDevice ∨ statusBits slot addr = i3cAddrI3cDevice)

/-- An address is occupied exactly if a registered device holds it. -/
def Agrees (s : I3cState) : Prop :=
 ∀ cntlr addr, Occupied (s.addrSlot cntlr) addr ↔
  ∃ device ∈ s.devices, device.cntlr = cntlr ∧ device.addr = addr

/-- A state of a run, with all devices that have been registered so far. -/
structure I3cHistory where
 state : I3cState
 seen : List I3cDevice

def I3cHistory.step (h : I3cHistory) (call : I3cCall) : Option I3cHistory :=
 (h.state.call call).map fun out => ⟨out.2, out.2.devices ++ h.seen⟩

def I3cHistory.start (lock : ℕ → ℕ → Bool) : I3cHistory := ⟨.start lock, []⟩

def AddedAgain (h : I3cHistory) (device : I3cDevice) (locks : I3cLocks) : Prop :=
 device ∈ h.seen ∧ locks.set = true ∧ device.addr ≤ i3cAddrMax ∧
  ∀ pos ∈ h.state.devices, pos.cntlr = device.cntlr → pos.addr ≠ device.addr ∧ pos.pid ≠ device.pid

/-- What a call has to leave behind: the table agrees with the list, an addition that failed
has left the table as it was, and a device can be added again. -/
def Right (h : I3cHistory) (call : I3cCall) : Prop :=
 ∀ out, h.state.call call = some out → Agrees out.2 ∧
  ∀ device locks, call = .add device locks →
   (out.1 ≠ .success → out.2.addrSlot = h.state.addrSlot) ∧
    (AddedAgain h device locks → out.1 = .success)

def Marks (slot : AddrSlot) (device : I3cDevice) (locks : I3cLocks) : Prop :=
 locks.set = true ∨ device.type = .i3cDevice ∧ locks.setFree = true ∧
  ∃ addr, getFreeAddr slot locks.free = some addr ∧ addr ≠ 0

/-- The calls that do not go wrong: a device whose address gets marked is not in the list yet,
and it is its own address that is marked; and nothing is added again. -/
def Meets (h : I3cHistory) : I3cCall → Prop
 | .add device locks =>
  (getAddrStatus (h.state.addrSlot device.cntlr) device.addr = some i3cAddrFree →
   Marks (h.state.addrSlot device.cntlr) device locks → h.state.listLocked = false →
    (∀ pos ∈ h.state.devices, sameDevice device pos = false) ∧
     (locks.set = true ∨
      getFreeAddr (h.state.addrSlot device.cntlr) locks.free = some device.addr)) ∧
   ¬ AddedAgain h device locks
 | .remove _ _ => True
 | .query _ _ => True

variable {slot : AddrSlot}

theorem status_free_iff {addr : ℕ} : getAddrStatus slot addr = some i3cAddrFree ↔
   addr ≤ i3cAddrMax ∧ statusBits slot addr = i3cAddrFree := by
 unfold getAddrStatus
 split
 · next h => exact iff_of_false (by simp) fun hall => by omega
 · next h => simp [not_lt.mp h]

theorem setAddrStatus_locked {addr : ℕ} (h : addr ≤ i3cAddrMax) (status : BitVec 16) :
  setAddrStatus slot addr status true = (.success, withStatus slot addr status) := by
 rw [setAddrStatus, if_neg (not_lt.mpr h), if_neg (by decide)]

theorem setAddrStatus_unlocked {addr : ℕ} (h : addr ≤ i3cAddrMax)
  (status : BitVec 16) : setAddrStatus slot addr status false = (.errDeviceBusy, slot) := by
 rw [setAddrStatus, if_neg (not_lt.mpr h), if_pos rfl]

theorem getFreeAddr_free {addr : ℕ} {lock : Bool}
  (h : getFreeAddr slot lock = some addr) : getAddrStatus slot addr = some i3cAddrFree := by
 rw [getFreeAddr] at h
 split_ifs at h
 have found := List.find?_some h
 exact of_decide_eq_true found

variable {device : I3cDevice}

theorem markAddr_spec {locks : I3cLocks}
  (hfree : getAddrStatus slot device.addr = some i3cAddrFree) :
  (¬ Marks slot device locks ∧ markAddr slot device locks = (.errDeviceBusy, slot)) ∨
   Marks slot device locks ∧ ∃ addr status,
    markAddr slot device locks = (.success, withStatus slot addr status) ∧
     (status = i3cAddrI2cDevice ∨ status = i3cAddrI3cDevice) ∧
     getAddrStatus slot addr = some i3cAddrFree ∧
     (addr = device.addr ↔
      locks.set = true ∨ getFreeAddr slot locks.free = some device.addr) := by
 have inside := (status_free_iff.mp hfree).1
 unfold markAddr i3cDeviceDefineI3cDevices Marks
 cases set : locks.set with
 | true =>
  rw [setAddrStatus_locked inside, setAddrStatus_locked inside]
  refine .inr ⟨.inl rfl, device.addr, ?_⟩
  by_cases i2c : device.type = .i2cDevice ∨ device.type = .i2cLegacyDevice
  · exact ⟨i3cAddrI2cDevice, if_pos i2c, .inl rfl, hfree, by simp⟩
  · exact ⟨i3cAddrI3cDevice, if_neg i2c, .inr rfl, hfree, by simp⟩
 | false =>
  rw [setAddrStatus_unlocked inside, setAddrStatus_unlocked inside]
  by_cases i2c : device.type = .i2cDevice ∨ device.type = .i2cLegacyDevice
  · have other : device.type ≠ .i3cDevice := by
     rcases i2c with h | h <;> rw [h] <;> decide
    exact .inl ⟨by simp [other], if_pos i2c⟩
  have i3c : device.type = .i3cDevice := by
   cases htype : device.type with
   | i2cDevice => exact absurd (.inl htype) i2c
   | i2cLegacyDevice => exact absurd (.inr htype) i2c
   | i3cDevice => rfl
  rw [if_neg i2c]
  cases found : getFreeAddr slot locks.free with
  | none => exact .inl ⟨by simp, rfl⟩
  | some addr =>
   have free := getFreeAddr_free found
   by_cases zero : addr = 0
   · exact .inl ⟨by simp [zero], by simp [zero]⟩
   have inside' := (status_free_iff.mp free).1
   cases setFree : locks.setFree with
   | false => exact .inl ⟨by simp, by simp [zero, setAddrStatus_unlocked inside']⟩
   | true =>
    exact .inr ⟨.inr ⟨i3c, rfl, addr, rfl, zero⟩, addr, i3cAddrI3cDevice,
     by simp [zero, setAddrStatus_locked inside'], .inr rfl, free, by simp⟩

structure Inv (h : I3cHistory) : Prop where
 agrees : Agrees h.state
 apart : ∀ d ∈ h.state.devices, ∀ d' ∈ h.state.devices, d.cntlr = d'.cntlr → d.addr = d'.addr → d = d'
 nodup : h.state.devices.Nodup
 seen : ∀ d ∈ h.seen, getAddrStatus (h.state.addrSlot d.cntlr) d.addr ≠ some i3cAddrFree

theorem occupied_not_free {addr : ℕ} (h : Occupied slot addr) :
  getAddrStatus slot addr ≠ some i3cAddrFree := by
 rintro hfree
 obtain ⟨-, h⟩ := h
 rw [(status_free_iff.mp hfree).2] at h
 exact absurd h (by decide)

theorem setSlot_status (s : I3cState) (cntlr addr : ℕ) {status : BitVec 16}
  (hs : status &&& 3#16 = status) (cntlr' addr' : ℕ) :
  statusBits ((s.setSlot cntlr (withStatus (s.addrSlot cntlr) addr status)).addrSlot cntlr') addr' =
   if cntlr' = cntlr ∧ addr' = addr then status else statusBits (s.addrSlot cntlr') addr' := by
 change statusBits (Function.update s.addrSlot cntlr _ cntlr') addr' = _
 by_cases h : cntlr' = cntlr
 · subst h
   rw [Function.update_self, statusBits_withStatus _ _ _ hs]
   simp
 · rw [Function.update_of_ne h, if_neg fun hall => h hall.1]

theorem setSlot_self (s : I3cState) (cntlr : ℕ) : s.setSlot cntlr (s.addrSlot cntlr) = s := by
 rw [I3cState.setSlot, Function.update_eq_self]

theorem setSlot_at (s : I3cState) (cntlr : ℕ) (slot : AddrSlot) :
  (s.setSlot cntlr slot).addrSlot cntlr = slot := by
 simp [I3cState.setSlot]

theorem device_status {status : BitVec 16}
  (h : status = i3cAddrI2cDevice ∨ status = i3cAddrI3cDevice) :
  status &&& 3#16 = status := by
 rcases h with rfl | rfl <;> decide

theorem setSlot_not_free {s : I3cState} {cntlr addr : ℕ} {status : BitVec 16}
  (hs : status &&& 3#16 = status) (hne : status ≠ i3cAddrFree) {cntlr' addr' : ℕ}
  (h : getAddrStatus (s.addrSlot cntlr') addr' ≠ some i3cAddrFree) :
  getAddrStatus ((s.setSlot cntlr (withStatus (s.addrSlot cntlr) addr status)).addrSlot cntlr') addr' ≠
   some i3cAddrFree := by
 rw [Ne, status_free_iff] at h ⊢
 rintro ⟨inside, free⟩
 rw [setSlot_status s cntlr addr hs] at free
 split_ifs at free with here
 · exact hne free
 · exact h ⟨inside, free⟩

theorem setSlot_occupied {s : I3cState} {cntlr addr : ℕ} {status : BitVec 16}
  (hs : status &&& 3#16 = status) (cntlr' addr' : ℕ) :
  Occupied ((s.setSlot cntlr (withStatus (s.addrSlot cntlr) addr status)).addrSlot cntlr') addr' ↔
   if cntlr' = cntlr ∧ addr' = addr then
    addr' ≤ i3cAddrMax ∧ (status = i3cAddrI2cDevice ∨ status = i3cAddrI3cDevice)
   else Occupied (s.addrSlot cntlr') addr' := by
 rw [Occupied, setSlot_status s cntlr addr hs]
 split_ifs with here
 · exact Iff.rfl
 · exact Iff.rfl

section Add

variable {s : I3cState} {device : I3cDevice} {locks : I3cLocks}

theorem add_refused (h : getAddrStatus (s.addrSlot device.cntlr) device.addr ≠ some i3cAddrFree) :
  i3cDeviceAdd s device locks = some (.errInvalidObject, s) := by
 rw [i3cDeviceAdd, if_pos h]

theorem add_unmarked
  (hfree : getAddrStatus (s.addrSlot device.cntlr) device.addr = some i3cAddrFree)
  (h : ¬ Marks (s.addrSlot device.cntlr) device locks) :
  i3cDeviceAdd s device locks = some (.errDeviceBusy, s) := by
 rcases @markAddr_spec _ _ locks hfree with ⟨-, mark⟩ | ⟨marks, -⟩
 · rw [i3cDeviceAdd, if_neg (not_not.mpr hfree), mark]
   simp [setSlot_self]
 · exact absurd marks h

theorem add_hangs (hfree : getAddrStatus (s.addrSlot device.cntlr) device.addr = some i3cAddrFree)
  (h : Marks (s.addrSlot device.cntlr) device locks) (hlist : s.listLocked = true) :
  i3cDeviceAdd s device locks = none := by
 rcases @markAddr_spec _ _ locks hfree with ⟨marks, -⟩ | ⟨-, addr, status, mark, -⟩
 · exact absurd h marks
 · rw [i3cDeviceAdd, if_neg (not_not.mpr hfree), mark]
   simp [hlist]

theorem add_marked (hfree : getAddrStatus (s.addrSlot device.cntlr) device.addr = some i3cAddrFree)
  (h : Marks (s.addrSlot device.cntlr) device locks) (hlist : s.listLocked = false) :
  ∃ addr status, (status = i3cAddrI2cDevice ∨ status = i3cAddrI3cDevice) ∧
   getAddrStatus (s.addrSlot device.cntlr) addr = some i3cAddrFree ∧
   (addr = device.addr ↔
    locks.set = true ∨ getFreeAddr (s.addrSlot device.cntlr) locks.free = some device.addr) ∧
   i3cDeviceAdd s device locks =
    if s.devices.any (sameDevice device) then
     some (.errIo, s.setSlot device.cntlr
      (setAddrStatus (withStatus (s.addrSlot device.cntlr) addr status) device.addr
       i3cAddrReserved locks.back).2)
    else
     some (.success, { s.setSlot device.cntlr (withStatus (s.addrSlot device.cntlr) addr status) with
      devices := s.devices ++ [device] }) := by
 rcases @markAddr_spec _ _ locks hfree with ⟨marks, -⟩ | ⟨-, addr, status, mark, hs, free, own⟩
 · exact absurd h marks
 · refine ⟨addr, status, hs, free, own, ?_⟩
   rw [i3cDeviceAdd, if_neg (not_not.mpr hfree), mark]
   simp [hlist]

theorem back_changed {addr : ℕ} {status : BitVec 16}
  (hfree : getAddrStatus slot device.addr = some i3cAddrFree)
  (free : getAddrStatus slot addr = some i3cAddrFree)
  (hs : status = i3cAddrI2cDevice ∨ status = i3cAddrI3cDevice) :
  (setAddrStatus (withStatus slot addr status) device.addr i3cAddrReserved locks.back).2 ≠ slot := by
 have inside := (status_free_iff.mp hfree).1
 intro same
 cases back : locks.back with
 | true =>
  rw [back, setAddrStatus_locked inside] at same
  have status := congrArg (fun slot => statusBits slot device.addr) same
  dsimp only at status
  rw [statusBits_withStatus _ _ _ (by decide), if_pos rfl, (status_free_iff.mp hfree).2] at status
  exact absurd status (by decide)
 | false =>
  rw [back, setAddrStatus_unlocked inside] at same
  have marked := congrArg (fun slot => statusBits slot addr) same
  dsimp only at marked
  rw [statusBits_withStatus _ _ _ (device_status hs), if_pos rfl, (status_free_iff.mp free).2] at marked
  rcases hs with rfl | rfl <;> exact absurd marked (by decide)

theorem joined_agrees_iff {addr : ℕ} {status : BitVec 16} (hagrees : Agrees s)
  (hfree : getAddrStatus (s.addrSlot device.cntlr) device.addr = some i3cAddrFree)
  (free : getAddrStatus (s.addrSlot device.cntlr) addr = some i3cAddrFree)
  (hs : status = i3cAddrI2cDevice ∨ status = i3cAddrI3cDevice) :
  Agrees { s.setSlot device.cntlr (withStatus (s.addrSlot device.cntlr) addr status) with
   devices := s.devices ++ [device] } ↔ addr = device.addr := by
 have occupied := @setSlot_occupied s device.cntlr addr status (device_status hs)
 constructor
 · intro agrees
   by_contra hne
   have here := (agrees device.cntlr device.addr).mpr
    ⟨device, List.mem_append_right _ (List.mem_singleton_self device), rfl, rfl⟩
   have old := (occupied device.cntlr device.addr).mp here
   rw [if_neg fun hall => hne hall.2.symm] at old
   exact occupied_not_free old hfree
 · rintro rfl cntlr addr'
   have inside := (status_free_iff.mp hfree).1
   refine (occupied cntlr addr').trans ?_
   split_ifs with here
   · obtain ⟨rfl, rfl⟩ := here
     exact iff_of_true ⟨inside, hs⟩ ⟨device, List.mem_append_right _ (List.mem_singleton_self device),
      rfl, rfl⟩
   · rw [hagrees cntlr addr']
     constructor
     · rintro ⟨pos, hpos, at_⟩
       exact ⟨pos, List.mem_append_left _ hpos, at_⟩
     · rintro ⟨pos, hpos, rfl, rfl⟩
       rcases List.mem_append.mp hpos with hpos | hpos
       · exact ⟨pos, hpos, rfl, rfl⟩
       · rw [List.mem_singleton.mp hpos] at here
         exact absurd ⟨rfl, rfl⟩ here

end Add

variable {h : I3cHistory}

theorem add_right_iff (inv : Inv h) (device : I3cDevice) (locks : I3cLocks) :
  Right h (.add device locks) ↔ Meets h (.add device locks) := by
 have right_iff : Right h (.add device locks) ↔
   ∀ out, i3cDeviceAdd h.state device locks = some out → Agrees out.2 ∧
    (out.1 ≠ .success → out.2.addrSlot = h.state.addrSlot) ∧
     (AddedAgain h device locks → out.1 = .success) := by
  constructor
  · intro right out hout
    exact ⟨(right out hout).1, (right out hout).2 device locks rfl⟩
  · intro all out hout
    refine ⟨(all out hout).1, ?_⟩
    rintro _ _ ⟨⟩
    exact (all out hout).2
 rw [right_iff]
 by_cases hfree : getAddrStatus (h.state.addrSlot device.cntlr) device.addr = some i3cAddrFree
 · have fresh : ¬ AddedAgain h device locks := fun again => inv.seen device again.1 hfree
   by_cases marks : Marks (h.state.addrSlot device.cntlr) device locks
   · cases hlist : h.state.listLocked with
     | true =>
      simp [add_hangs hfree marks hlist, Meets, fresh, hlist]
     | false =>
      obtain ⟨addr, status, hs, free, own, hadd⟩ := add_marked hfree marks hlist
      have meets : Meets h (.add device locks) ↔
        (∀ pos ∈ h.state.devices, sameDevice device pos = false) ∧ addr = device.addr := by
       rw [own]
       simp [Meets, hfree, marks, hlist, fresh]
      rw [meets, hadd]
      by_cases same : h.state.devices.any (sameDevice device)
      · rw [if_pos same]
        refine iff_of_false ?_ ?_
        · intro all
          have kept := (all _ rfl).2.1 (by simp)
          have slot := congrFun kept device.cntlr
          exact back_changed hfree free hs ((setSlot_at _ _ _).symm.trans slot)
        · rintro ⟨other, -⟩
          obtain ⟨pos, hpos, eq⟩ := List.any_eq_true.mp same
          rw [other pos hpos] at eq
          exact Bool.false_ne_true eq
      · rw [if_neg same]
        have other : ∀ pos ∈ h.state.devices, sameDevice device pos = false := by
         simpa using same
        have agrees := joined_agrees_iff inv.agrees hfree free hs
        constructor
        · intro all
          exact ⟨other, agrees.mp (all _ rfl).1⟩
        · rintro ⟨-, own_addr⟩ out ⟨⟩
          exact ⟨agrees.mpr own_addr, by simp, by simp⟩
   · rw [add_unmarked hfree marks]
     simp [Meets, marks, fresh, inv.agrees]
 · rw [add_refused hfree]
   simp [Meets, hfree, inv.agrees]

theorem removed_agrees {s : I3cState} (hagrees : Agrees s)
  (apart : ∀ d ∈ s.devices, ∀ d' ∈ s.devices, d.cntlr = d'.cntlr → d.addr = d'.addr → d = d')
  (nodup : s.devices.Nodup) (hmem : device ∈ s.devices) :
  Agrees { s.setSlot device.cntlr (withStatus (s.addrSlot device.cntlr) device.addr i3cAddrReserved) with
   devices := s.devices.erase device } := by
 intro cntlr addr
 refine (setSlot_occupied (by decide) cntlr addr).trans ?_
 split_ifs with here
 · obtain ⟨rfl, rfl⟩ := here
   refine iff_of_false (fun hall => absurd hall.2 (by decide)) ?_
   rintro ⟨pos, hpos, hcntlr, haddr⟩
   obtain ⟨hne, hpos⟩ := nodup.mem_erase_iff.mp hpos
   exact hne (apart pos hpos device hmem hcntlr haddr)
 · rw [hagrees cntlr addr]
   constructor
   · rintro ⟨pos, hpos, rfl, rfl⟩
     refine ⟨pos, nodup.mem_erase_iff.mpr ⟨?_, hpos⟩, rfl, rfl⟩
     rintro rfl
     exact here ⟨rfl, rfl⟩
   · rintro ⟨pos, hpos, at_⟩
     exact ⟨pos, List.mem_of_mem_erase hpos, at_⟩

theorem remove_spec {s : I3cState} {lock : Bool} {out : I3cStatus × I3cState}
  (hout : i3cDeviceRemove s device lock = some out) :
  out = (.success, s) ∨ device ∈ s.devices ∧ out = (.success,
   { s.setSlot device.cntlr (withStatus (s.addrSlot device.cntlr) device.addr i3cAddrReserved) with
    devices := s.devices.erase device }) := by
 by_cases inside : device.addr ≤ i3cAddrMax
 · cases lock with
   | false =>
    rw [i3cDeviceRemove, setAddrStatus_unlocked inside, if_pos (by simp)] at hout
    exact .inl (Option.some.inj hout).symm
   | true =>
    rw [i3cDeviceRemove, setAddrStatus_locked inside, if_neg (by simp)] at hout
    split_ifs at hout with hlist hmem
    exact .inr ⟨hmem, (Option.some.inj hout).symm⟩
 · rw [i3cDeviceRemove, setAddrStatus, if_pos (not_le.mp inside), if_pos (by simp)] at hout
   exact .inl (Option.some.inj hout).symm

theorem query_spec {s t : I3cState} {cntlr addr : ℕ} {found : Option I3cDevice}
  (h : getDeviceByAddr s cntlr addr = some (found, t)) : ∃ locked, t = { s with listLocked := locked } := by
 rw [getDeviceByAddr] at h
 cases hstatus : getAddrStatus (s.addrSlot cntlr) addr with
 | none =>
  rw [hstatus] at h
  cases h
  exact ⟨s.listLocked, rfl⟩
 | some status =>
  rw [hstatus] at h
  dsimp only at h
  split_ifs at h
  · cases h
    exact ⟨s.listLocked, rfl⟩
  · cases hfind : s.devices.find? (answersTo cntlr addr) with
    | none =>
     rw [hfind] at h
     cases h
     exact ⟨true, rfl⟩
    | some device =>
     rw [hfind] at h
     cases h
     exact ⟨s.listLocked, rfl⟩

theorem right_iff_meets (inv : Inv h) (call : I3cCall) : Right h call ↔ Meets h call := by
 cases call with
 | add device locks => exact add_right_iff inv device locks
 | remove device lock =>
  refine iff_of_true ?_ trivial
  intro out hout
  refine ⟨?_, by rintro _ _ ⟨⟩⟩
  rcases remove_spec hout with rfl | ⟨hmem, rfl⟩
  · exact inv.agrees
  · exact removed_agrees inv.agrees inv.apart inv.nodup hmem
 | query cntlr addr =>
  refine iff_of_true ?_ trivial
  intro out hout
  obtain ⟨⟨found, t⟩, hquery, rfl⟩ := Option.map_eq_some_iff.mp hout
  obtain ⟨locked, rfl⟩ := query_spec hquery
  exact ⟨inv.agrees, by rintro _ _ ⟨⟩⟩

theorem Inv.same (inv : Inv h) (locked : Bool) :
  Inv ⟨{ h.state with listLocked := locked }, h.state.devices ++ h.seen⟩ where
 agrees := inv.agrees
 apart := inv.apart
 nodup := inv.nodup
 seen := by
  intro d hd
  rcases List.mem_append.mp hd with hd | hd
  · exact occupied_not_free ((inv.agrees d.cntlr d.addr).mpr ⟨d, hd, rfl, rfl⟩)
  · exact inv.seen d hd

theorem Inv.joined (inv : Inv h) {status : BitVec 16}
  (hfree : getAddrStatus (h.state.addrSlot device.cntlr) device.addr = some i3cAddrFree)
  (hs : status = i3cAddrI2cDevice ∨ status = i3cAddrI3cDevice) :
  Inv ⟨{ h.state.setSlot device.cntlr
    (withStatus (h.state.addrSlot device.cntlr) device.addr status) with
    devices := h.state.devices ++ [device] }, (h.state.devices ++ [device]) ++ h.seen⟩ := by
 have agrees := (joined_agrees_iff inv.agrees hfree hfree hs).mpr rfl
 have alone : ∀ d ∈ h.state.devices, d.cntlr = device.cntlr → d.addr ≠ device.addr := by
  intro d hd hcntlr haddr
  exact occupied_not_free ((inv.agrees device.cntlr device.addr).mpr ⟨d, hd, hcntlr, haddr⟩) hfree
 have ne : status ≠ i3cAddrFree := by
  rcases hs with rfl | rfl <;> decide
 refine ⟨agrees, ?_, ?_, ?_⟩
 · intro d hd d' hd' hcntlr haddr
   rcases List.mem_append.mp hd with old | new <;> rcases List.mem_append.mp hd' with old' | new'
   · exact inv.apart d old d' old' hcntlr haddr
   · rw [List.mem_singleton.mp new'] at hcntlr haddr
     exact absurd haddr (alone d old hcntlr)
   · rw [List.mem_singleton.mp new] at hcntlr haddr
     exact absurd haddr.symm (alone d' old' hcntlr.symm)
   · rw [List.mem_singleton.mp new, List.mem_singleton.mp new']
 · refine List.nodup_append.mpr ⟨inv.nodup, List.pairwise_singleton _ device, ?_⟩
   intro d hd d' hd' heq
   obtain rfl := List.mem_singleton.mp hd'
   subst heq
   exact alone d hd rfl rfl
 · intro d hd
   rcases List.mem_append.mp hd with hd | hd
   · exact occupied_not_free ((agrees d.cntlr d.addr).mpr ⟨d, hd, rfl, rfl⟩)
   · exact setSlot_not_free (device_status hs) ne (inv.seen d hd)

theorem Inv.removed (inv : Inv h) (hmem : device ∈ h.state.devices) :
  Inv ⟨{ h.state.setSlot device.cntlr
    (withStatus (h.state.addrSlot device.cntlr) device.addr i3cAddrReserved) with
    devices := h.state.devices.erase device }, h.state.devices.erase device ++ h.seen⟩ where
 agrees := removed_agrees inv.agrees inv.apart inv.nodup hmem
 apart := fun d hd d' hd' =>
  inv.apart d (List.mem_of_mem_erase hd) d' (List.mem_of_mem_erase hd')
 nodup := inv.nodup.erase device
 seen := by
  intro d hd
  refine setSlot_not_free (by decide) (by decide) ?_
  rcases List.mem_append.mp hd with hd | hd
  · exact occupied_not_free
     ((inv.agrees d.cntlr d.addr).mpr ⟨d, List.mem_of_mem_erase hd, rfl, rfl⟩)
  · exact inv.seen d hd

theorem inv_step {t : I3cHistory} {call : I3cCall} (inv : Inv h) (right : Right h call)
  (hstep : h.step call = some t) : Inv t := by
 obtain ⟨out, hout, rfl⟩ := Option.map_eq_some_iff.mp hstep
 cases call with
 | add device locks =>
  have meets := (add_right_iff inv device locks).mp right
  change i3cDeviceAdd h.state device locks = some out at hout
  by_cases hfree : getAddrStatus (h.state.addrSlot device.cntlr) device.addr = some i3cAddrFree
  · by_cases marks : Marks (h.state.addrSlot device.cntlr) device locks
    · cases hlist : h.state.listLocked with
      | true =>
       rw [add_hangs hfree marks hlist] at hout
       cases hout
      | false =>
       obtain ⟨other, own'⟩ := meets.1 hfree marks hlist
       obtain ⟨addr, status, hs, free, own, hadd⟩ := add_marked hfree marks hlist
       obtain rfl := own.mpr own'
       have same : ¬ h.state.devices.any (sameDevice device) = true := by
        simpa using other
       rw [hadd, if_neg same] at hout
       cases hout
       exact inv.joined hfree hs
    · rw [add_unmarked hfree marks] at hout
      cases hout
      exact inv.same _
  · rw [add_refused hfree] at hout
    cases hout
    exact inv.same _
 | remove device lock =>
  rcases remove_spec hout with rfl | ⟨hmem, rfl⟩
  · exact inv.same _
  · exact inv.removed hmem
 | query cntlr addr =>
  obtain ⟨⟨found, u⟩, hquery, rfl⟩ := Option.map_eq_some_iff.mp hout
  obtain ⟨locked, rfl⟩ := query_spec hquery
  exact inv.same locked

theorem init_not_occupied (slot : AddrSlot) (lock : ℕ → Bool) (addrs : List ℕ)
  (h : ∀ addr, ¬ Occupied slot addr) (addr : ℕ) :
  ¬ Occupied (addrs.foldl (fun slot addr =>
   if addr ∈ reservedAddrs then (setAddrStatus slot addr i3cAddrReserved (lock addr)).2 else slot)
   slot) addr := by
 induction addrs generalizing slot with
 | nil => exact h addr
 | cons next addrs ih =>
  rw [List.foldl_cons]
  apply ih
  intro addr
  split_ifs with reserved
  · unfold setAddrStatus
    split_ifs
    · exact h addr
    · exact h addr
    · rintro ⟨inside, marked⟩
      rw [statusBits_withStatus slot next addr (by decide)] at marked
      split_ifs at marked
      · exact absurd marked (by decide)
      · exact h addr ⟨inside, marked⟩
  · exact h addr

theorem inv_start (lock : ℕ → ℕ → Bool) : Inv (.start lock) where
 agrees := by
  intro cntlr addr
  refine iff_of_false (init_not_occupied _ _ _ ?_ addr) ?_
  · rintro addr ⟨-, marked⟩
    simp [statusBits, i3cAddrI2cDevice, i3cAddrI3cDevice] at marked
  · rintro ⟨device, hmem, -⟩
    cases hmem
 apart := by
  intro d hd
  cases hd
 nodup := List.nodup_nil
 seen := by
  intro d hd
  cases hd

/-- The table agrees with the list through a run, failed additions leave it alone and devices
can be added again, exactly if no call of the run goes wrong. -/
theorem table_agrees_iff (lock : ℕ → ℕ → Bool) (calls : List I3cCall) :
    Along I3cHistory.step Right (.start lock) calls ↔
      Along I3cHistory.step Meets (.start lock) calls :=
  along_congr_of_keep (fun _ _ _ inv right hstep => inv_step inv right hstep)
    (fun _ call inv => right_iff_meets inv call) _ calls (inv_start lock)

def sensor : I3cDevice := ⟨1, 0, 5, 8, 0, .i3cDevice⟩

def locked : I3cLocks := ⟨true, true, true, true⟩

/-- A device that is added, removed and added again is refused. -/
theorem added_again_refused : ¬ ∀ (lock : ℕ → ℕ → Bool) (calls : List I3cCall),
    Along I3cHistory.step Right (.start lock) calls := by
  intro all
  have run : (exec I3cHistory.step (.start fun _ _ => true) [.add sensor locked, .remove sensor true]).map
      (fun t => (t.state.devices, t.seen, (t.state.call (.add sensor locked)).map (·.1))) =
        some ([], [sensor], some .errInvalidObject) := by
    decide +kernel
  obtain ⟨t, ht, hout⟩ := Option.map_eq_some_iff.mp run
  have empty : t.state.devices = [] := congrArg (·.1) hout
  have seen : t.seen = [sensor] := congrArg (·.2.1) hout
  have refused : (t.state.call (.add sensor locked)).map (·.1) = some .errInvalidObject :=
    congrArg (·.2.2) hout
  obtain ⟨out, hcall, hstatus⟩ := Option.map_eq_some_iff.mp refused
  have right := all (fun _ _ => true) [.add sensor locked, .remove sensor true, .add sensor locked]
    [.add sensor locked, .remove sensor true] (.add sensor locked) List.prefix_rfl t ht
  have again : AddedAgain t sensor locked :=
    ⟨by simp [seen], rfl, by decide, by simp [empty]⟩
  have success := ((right out hcall).2 sensor locked rfl).2 again
  rw [hstatus] at success
  exact absurd success (by decide)

end DriversFramework.I3c
