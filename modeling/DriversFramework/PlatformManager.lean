import Mathlib.Algebra.Group.Int.Defs
import Mathlib.Algebra.Group.Nat.Defs
import Mathlib.Data.List.Nodup
import DriversFramework.RunRules

/-! `platform_device.c` and `platform_manager.c`, for one manager without hooks of its own: the list
of its devices, and their reference counts. A device is an address here, and `PlatformDeviceDel` has
two steps, since it waits for the references that are still out. -/
namespace DriversFramework.PlatformManager

def atomic (n : ℤ) : ℤ := Int.bmod n (2 ^ 32)

/-- `manager` says whether the device points to the manager; `released` is the value of the
semaphore, `notifiers` the number of nodes that post it when the device is dead. -/
structure PlatformDevice where
 number : UInt32 := 0
 manager : Bool := false
 refs : ℤ := 0
 released : ℕ := 0
 notifiers : ℕ := 0
 ready : Bool := false

/-- `PlatformDeviceInit`; `allocated` says whether its notifier's node could be had. -/
def platformDeviceInit (allocated : Bool) (device : PlatformDevice) : PlatformDevice :=
 { device with
  released := 0
  refs := 0
  notifiers := if allocated then 1 else 0
  ready := true }

/-- `HdfSRefAcquire`; the listener of the first reference does nothing. -/
def platformDeviceGet (device : PlatformDevice) : PlatformDevice :=
 { device with refs := atomic (device.refs + 1) }

def platformDeviceOnLastPut (device : PlatformDevice) : PlatformDevice :=
 { device with ready := false, released := device.released + device.notifiers }

def platformDevicePut (device : PlatformDevice) : PlatformDevice :=
 let device := { device with refs := atomic (device.refs - 1) }
 if device.refs = 0 then platformDeviceOnLastPut device else device

def setReady (device : PlatformDevice) (ready : Bool) : PlatformDevice :=
 { device with ready := ready }

/-- The wait for the semaphore, and `PlatformDeviceClearNotifier` -/
def waitReleased (device : PlatformDevice) : PlatformDevice :=
 { device with released := device.released - 1, notifiers := 0 }

/-- The manager's list, the devices' memory, the deletions that have not returned, and the
references that lookups have handed out and that were not put. -/
structure State where
 devices : List ℕ := []
 device : ℕ → PlatformDevice := fun _ => {}
 deleting : List ℕ := []
 held : ℕ → ℕ := fun _ => 0

def State.modify (s : State) (d : ℕ) (f : PlatformDevice → PlatformDevice) : State :=
 { s with device := Function.update s.device d (f (s.device d)) }

/-- `PlatformManagerAddDeviceDefault`, and whether it succeeds -/
def platformManagerAddDeviceDefault (s : State) (d : ℕ) : State × Bool :=
 let s := s.modify d platformDeviceGet
 if s.devices.any fun tmp => (s.device tmp).number == (s.device d).number then
  (s.modify d platformDevicePut, false)
 else
  ({ s with devices := s.devices ++ [d] }.modify d fun p => { p with manager := true }, true)

/-- `PlatformDeviceAdd` of a device that has been given its number -/
def platformDeviceAdd (s : State) (d : ℕ) (number : UInt32) (allocated : Bool) : State × Bool :=
 platformManagerAddDeviceDefault
  (s.modify d fun p => platformDeviceInit allocated { p with number := number }) d

def platformManagerDelDeviceDefault (s : State) (d : ℕ) : State :=
 { s with devices := s.devices.erase d }.modify d platformDevicePut

/-- `PlatformDeviceDel` up to where it waits for the semaphore -/
def platformDeviceDel (s : State) (d : ℕ) : State :=
 let s := if (s.device d).manager then platformManagerDelDeviceDefault s d else s
 { s.modify d fun p => setReady p false with deleting := d :: s.deleting }

/-- The rest of `PlatformDeviceDel`, once the semaphore lets it go on -/
def platformDeviceUninit (s : State) (d : ℕ) : Option State :=
 if d ∈ s.deleting ∧ 0 < (s.device d).released then
  some { s.modify d waitReleased with deleting := s.deleting.erase d }
 else none

def findLoop (isMatch : ℕ → Bool) : State × Option ℕ → List ℕ → State × Option ℕ
 | found, [] => found
 | found, tmp :: rest =>
  findLoop isMatch
   (if isMatch tmp then (found.1.modify tmp platformDeviceGet, some tmp) else found) rest

def handOut (found : State × Option ℕ) : State :=
 match found.2 with
 | some d => { found.1 with held := Function.update found.1.held d (found.1.held d + 1) }
 | none => found.1

def platformManagerFindDevice (s : State) (isMatch : ℕ → Bool) : State × Option ℕ :=
 let found := findLoop isMatch (s, none) s.devices
 (handOut found, found.2)

def platformManagerGetDeviceByNumber (s : State) (number : UInt32) : State × Option ℕ :=
 platformManagerFindDevice s fun d => (s.device d).number == number

def put (s : State) (d : ℕ) : State :=
 { s.modify d platformDevicePut with held := Function.update s.held d (s.held d - 1) }

inductive Call where
 | add (d : ℕ) (number : UInt32) (allocated : Bool)
 | del (d : ℕ)
 | delReturns (d : ℕ)
 | find (isMatch : ℕ → Bool)
 | getByNumber (number : UInt32)
 | put (d : ℕ)

/-- A call takes place at once, but for a deletion, which returns when it can. -/
def step (s : State) : Call → Option State
 | .add d number allocated => some (platformDeviceAdd s d number allocated).1
 | .del d => some (platformDeviceDel s d)
 | .delReturns d => platformDeviceUninit s d
 | .find m => some (platformManagerFindDevice s m).1
 | .getByNumber number => some (platformManagerGetDeviceByNumber s number).1
 | .put d => some (put s d)

def Single (s : State) (isMatch : ℕ → Bool) : Prop :=
 (∀ a ∈ s.devices, ∀ b ∈ s.devices, isMatch a → isMatch b → a = b) ∧
  ∀ a ∈ s.devices, isMatch a → (s.device a).refs < 2 ^ 31 - 1

/-- A device is added once and with its notifier, deleted while it is added, found by itself, and
put by a caller that has a reference. -/
def Meets (s : State) : Call → Prop
 | .add d _ allocated => d ∉ s.devices ∧ d ∉ s.deleting ∧ allocated = true
 | .del d => d ∈ s.devices
 | .delReturns _ => True
 | .find isMatch => Single s isMatch
 | .getByNumber number => Single s fun d => (s.device d).number == number
 | .put d => 0 < s.held d

def CountsOne (s : State) (found : State × Option ℕ) : Prop :=
 ∀ d, (found.1.device d).refs = (s.device d).refs + if found.2 = some d then 1 else 0

structure Counted (s : State) : Prop where
 unique : (s.devices.map fun d => (s.device d).number).Nodup
 count : ∀ d ∈ s.devices, (s.device d).refs = 1 + s.held d
 find : ∀ isMatch, Single s isMatch → CountsOne s (platformManagerFindDevice s isMatch)
 getByNumber : ∀ number, Single s (fun d => (s.device d).number == number) →
  CountsOne s (platformManagerGetDeviceByNumber s number)
 returns : ∀ d ∈ s.deleting, (platformDeviceUninit s d).isSome ↔ s.held d = 0

structure Registered (device : PlatformDevice) (held : ℕ) : Prop where
 manager : device.manager = true
 notifiers : device.notifiers = 1
 released : device.released = 0
 refs : device.refs = 1 + held
 room : 1 + (held : ℤ) < 2 ^ 31

structure Deleting (device : PlatformDevice) (held : ℕ) : Prop where
 notifiers : device.notifiers = 1
 released : device.released = if held = 0 then 1 else 0
 refs : device.refs = held
 room : (held : ℤ) < 2 ^ 31

structure Inv (s : State) : Prop where
 nodup : s.devices.Nodup
 unique : (s.devices.map fun d => (s.device d).number).Nodup
 deletingNodup : s.deleting.Nodup
 apart : ∀ d ∈ s.devices, d ∉ s.deleting
 registered : ∀ d ∈ s.devices, Registered (s.device d) (s.held d)
 deleting : ∀ d ∈ s.deleting, Deleting (s.device d) (s.held d)
 idle : ∀ d, d ∉ s.devices → d ∉ s.deleting → s.held d = 0

theorem atomic_of_bounds {n : ℤ} (h0 : -2 ^ 31 ≤ n) (h1 : n < 2 ^ 31) : atomic n = n :=
 Int.bmod_eq_of_le_mul_two (by omega) (by omega)

variable {p : PlatformDevice}

theorem get_refs (h0 : 0 ≤ p.refs) (h1 : p.refs < 2 ^ 31 - 1) :
  (platformDeviceGet p).refs = p.refs + 1 :=
 atomic_of_bounds (by omega) (by omega)

theorem Registered.get {n : ℕ} (h : Registered p n)
  (hr : p.refs < 2 ^ 31 - 1) : Registered (platformDeviceGet p) (n + 1) := by
 have hrefs := h.refs
 refine ⟨h.manager, h.notifiers, h.released, ?_, by omega⟩
 rw [get_refs (by omega) hr]
 omega

theorem Registered.put {n : ℕ} (h : Registered p n) (hn : 0 < n) :
  Registered (platformDevicePut p) (n - 1) := by
 have hrefs := h.refs
 have hroom := h.room
 have hat : atomic (p.refs - 1) = 1 + (n - 1 : ℕ) := by
  rw [atomic_of_bounds (by omega) (by omega)]
  omega
 simp only [platformDevicePut, hat]
 rw [if_neg (by omega)]
 exact ⟨h.manager, h.notifiers, h.released, rfl, by omega⟩

def retire (device : PlatformDevice) : PlatformDevice :=
 setReady (platformDevicePut device) false

theorem Registered.del {n : ℕ} (h : Registered p n) : Deleting (retire p) n := by
 have hrefs := h.refs
 have hroom := h.room
 have hat : atomic (p.refs - 1) = n := by
  rw [atomic_of_bounds (by omega) (by omega)]
  omega
 simp only [retire, setReady, platformDevicePut, hat]
 by_cases hn : n = 0
 · subst hn
   refine ⟨h.notifiers, ?_, rfl, by omega⟩
   simp [platformDeviceOnLastPut, h.notifiers, h.released]
 · rw [if_neg (by omega)]
   refine ⟨h.notifiers, ?_, rfl, by omega⟩
   simp [h.released, hn]

theorem Deleting.put {n : ℕ} (h : Deleting p n) (hn : 0 < n) :
  Deleting (platformDevicePut p) (n - 1) := by
 have hrefs := h.refs
 have hroom := h.room
 have hreleased : p.released = 0 := by rw [h.released, if_neg (by omega)]
 have hat : atomic (p.refs - 1) = (n - 1 : ℕ) := by
  rw [atomic_of_bounds (by omega) (by omega)]
  omega
 simp only [platformDevicePut, hat]
 by_cases h1 : n - 1 = 0
 · rw [h1, if_pos (Int.natCast_eq_zero.mpr rfl)]
   refine ⟨h.notifiers, ?_, rfl, by omega⟩
   simp [platformDeviceOnLastPut, h.notifiers, hreleased]
 · rw [if_neg (by omega)]
   refine ⟨h.notifiers, ?_, rfl, by omega⟩
   simp [hreleased, h1]

variable {isMatch : ℕ → Bool}

theorem findLoop_none (found : State × Option ℕ) {l : List ℕ}
  (h : ∀ a ∈ l, isMatch a = false) : findLoop isMatch found l = found := by
 induction l with
 | nil => rfl
 | cons a l ih =>
  rw [List.forall_mem_cons] at h
  rw [findLoop, h.1, if_neg Bool.false_ne_true, ih h.2]

variable {d : ℕ}

theorem findLoop_single (found : State × Option ℕ) {l : List ℕ}
  (hn : l.Nodup) (hd : d ∈ l) (hm : isMatch d = true)
  (h : ∀ a ∈ l, isMatch a = true → a = d) :
  findLoop isMatch found l = (found.1.modify d platformDeviceGet, some d) := by
 induction l generalizing found with
 | nil => exact absurd hd List.not_mem_nil
 | cons a l ih =>
  rw [List.nodup_cons] at hn
  rw [List.forall_mem_cons] at h
  rw [findLoop]
  by_cases ha : a = d
  · subst ha
    rw [hm, if_pos rfl]
    apply findLoop_none
    intro b hb
    by_contra hne
    have hba := h.2 b hb (by simpa using hne)
    subst hba
    exact hn.1 hb
  · have hf : isMatch a = false := by
     by_contra hne
     exact ha (h.1 (by simpa using hne))
    rw [hf, if_neg Bool.false_ne_true]
    exact ih found hn.2 ((List.mem_cons.mp hd).resolve_left (Ne.symm ha)) h.2

variable {s : State}

theorem find_cases (hn : s.devices.Nodup) (h : Single s isMatch) :
  platformManagerFindDevice s isMatch = (s, none) ∨
   ∃ d ∈ s.devices, (s.device d).refs < 2 ^ 31 - 1 ∧
    platformManagerFindDevice s isMatch =
     ({ s.modify d platformDeviceGet with held := Function.update s.held d (s.held d + 1) },
      some d) := by
 unfold platformManagerFindDevice
 by_cases hex : ∃ d ∈ s.devices, isMatch d = true
 · obtain ⟨d, hd, hm⟩ := hex
   refine .inr ⟨d, hd, h.2 d hd hm, ?_⟩
   rw [findLoop_single (s, none) hn hd hm fun a ha hma => h.1 a ha d hd hma hm]
   rfl
 refine .inl ?_
 rw [findLoop_none (s, none)]
 · rfl
 · intro a ha
   by_contra hne
   exact hex ⟨a, ha, by simpa using hne⟩

theorem modify_self (s : State) (d : ℕ) (f : PlatformDevice → PlatformDevice) :
  (s.modify d f).device d = f (s.device d) := Function.update_self _ _ _

theorem modify_of_ne (s : State) {a : ℕ} (f : PlatformDevice → PlatformDevice) (h : a ≠ d) :
  (s.modify d f).device a = s.device a := Function.update_of_ne h _ _

theorem modify_modify (s : State) (d : ℕ) (f g : PlatformDevice → PlatformDevice) :
  (s.modify d f).modify d g = s.modify d fun p => g (f p) := by
 simp [State.modify]

theorem numbers_modify (s : State) (d : ℕ) {f : PlatformDevice → PlatformDevice} {l : List ℕ}
  (hf : d ∈ l → ∀ p, (f p).number = p.number) :
  (l.map fun a => ((s.modify d f).device a).number) = l.map fun a => (s.device a).number := by
 apply List.map_congr_left
 intro a hal
 by_cases ha : a = d
 · subst ha
   rw [modify_self, hf hal]
 · rw [modify_of_ne s f ha]

theorem put_number (p : PlatformDevice) : (platformDevicePut p).number = p.number := by
 simp only [platformDevicePut]
 split <;> rfl

theorem Inv.change {s : State} (h : Inv s) (d : ℕ) {f : PlatformDevice → PlatformDevice} {n : ℕ}
  (hf : d ∈ s.devices → ∀ p, (f p).number = p.number)
  (hr : d ∈ s.devices → Registered (f (s.device d)) n)
  (hd : d ∈ s.deleting → Deleting (f (s.device d)) n)
  (hi : d ∉ s.devices → d ∉ s.deleting → n = 0) :
  Inv { s.modify d f with held := Function.update s.held d n } := by
 refine ⟨h.nodup, ?_, h.deletingNodup, h.apart, ?_, ?_, ?_⟩
 · change (s.devices.map fun a => ((s.modify d f).device a).number).Nodup
   rw [numbers_modify s d hf]
   exact h.unique
 · intro a ha
   change Registered ((s.modify d f).device a) (Function.update s.held d n a)
   by_cases had : a = d
   · subst had
     rw [modify_self, Function.update_self]
     exact hr ha
   · rw [modify_of_ne s f had, Function.update_of_ne had]
     exact h.registered a ha
 · intro a ha
   change Deleting ((s.modify d f).device a) (Function.update s.held d n a)
   by_cases had : a = d
   · subst had
     rw [modify_self, Function.update_self]
     exact hd ha
   · rw [modify_of_ne s f had, Function.update_of_ne had]
     exact h.deleting a ha
 · intro a ha hda
   change Function.update s.held d n a = 0
   by_cases had : a = d
   · subst had
     rw [Function.update_self]
     exact hi ha hda
   · rw [Function.update_of_ne had]
     exact h.idle a ha hda

theorem Inv.find (h : Inv s) (hs : Single s isMatch) :
  Inv (platformManagerFindDevice s isMatch).1 := by
 cases find_cases h.nodup hs with
 | inl hn =>
  rw [hn]
  exact h
 | inr hd =>
  obtain ⟨d, hd, hroom, he⟩ := hd
  rw [he]
  exact h.change d (fun _ _ => rfl) (fun _ => (h.registered d hd).get hroom)
   (fun hdel => absurd hdel (h.apart d hd)) (fun hno => absurd hd hno)

theorem Inv.put {s : State} (h : Inv s) {d : ℕ} (hp : 0 < s.held d) : Inv (put s d) :=
 h.change d (fun _ => put_number) (fun hd => (h.registered d hd).put hp) (fun hd => (h.deleting d hd).put hp)
  (fun hno hnd => absurd (h.idle d hno hnd) (by omega))

theorem Inv.outside (h : Inv s) (hr : d ∉ s.devices) (hd : d ∉ s.deleting)
  (f : PlatformDevice → PlatformDevice) : Inv (s.modify d f) := by
 have hc := h.change (f := f) (n := 0) d (absurd · hr) (absurd · hr) (absurd · hd) (fun _ _ => rfl)
 rwa [Function.update_eq_self_iff.mpr (h.idle d hr hd).symm] at hc

theorem Inv.append (h : Inv s) (hr : d ∉ s.devices) (hd : d ∉ s.deleting)
  (hnew : ∀ a ∈ s.devices, (s.device a).number ≠ (s.device d).number)
  (hreg : Registered (s.device d) (s.held d)) : Inv { s with devices := s.devices ++ [d] } := by
 refine ⟨?_, ?_, h.deletingNodup, ?_, ?_, h.deleting, ?_⟩
 · apply h.nodup.append (List.nodup_singleton d)
   simpa using hr
 · change ((s.devices ++ [d]).map fun a => (s.device a).number).Nodup
   rw [List.map_append]
   apply h.unique.append (List.nodup_singleton _)
   intro n hn hd
   obtain ⟨a, ha, rfl⟩ := List.mem_map.mp hn
   exact hnew a ha (by simpa using hd)
 · intro a ha
   cases List.mem_append.mp ha with
   | inl ha => exact h.apart a ha
   | inr ha =>
    rw [List.mem_singleton.mp ha]
    exact hd
 · intro a ha
   cases List.mem_append.mp ha with
   | inl ha => exact h.registered a ha
   | inr ha =>
    rw [List.mem_singleton.mp ha]
    exact hreg
 · intro a ha hda
   exact h.idle a (fun hin => ha (List.mem_append_left _ hin)) hda

theorem Inv.addDefault (h : Inv s) (hr : d ∉ s.devices) (hd : d ∉ s.deleting)
  (hn : (s.device d).notifiers = 1) (hz : (s.device d).released = 0)
  (hrefs : (s.device d).refs = 0) : Inv (platformManagerAddDeviceDefault s d).1 := by
 have hg := h.outside hr hd platformDeviceGet
 have hh : s.held d = 0 := h.idle d hr hd
 simp only [platformManagerAddDeviceDefault]
 split
 · exact hg.outside hr hd platformDevicePut
 · rename_i hnone
   have h2 := hg.outside hr hd fun p => { p with manager := true }
   apply h2.append hr hd
   · intro a ha heq
     have had : a ≠ d := fun e => hr (e ▸ ha)
     apply hnone
     rw [List.any_eq_true]
     refine ⟨a, ha, beq_iff_eq.mpr ?_⟩
     rw [modify_of_ne _ _ had, modify_self] at heq
     exact heq
   · change Registered ((_ : State).device d) (s.held d)
     rw [modify_self, modify_self]
     refine ⟨rfl, hn, hz, ?_, by omega⟩
     change atomic ((s.device d).refs + 1) = _
     rw [hrefs, hh]
     rfl

theorem Inv.add (h : Inv s) (hr : d ∉ s.devices) (hd : d ∉ s.deleting)
  (number : UInt32) : Inv (platformDeviceAdd s d number true).1 := by
 apply (h.outside hr hd fun p => platformDeviceInit true { p with number := number }).addDefault
  hr hd
 · rw [modify_self]
   rfl
 · rw [modify_self]
   rfl
 · rw [modify_self]
   rfl

theorem del_eq (h : (s.device d).manager = true) : platformDeviceDel s d = { s.modify d retire with
    devices := s.devices.erase d, deleting := d :: s.deleting } := by
 simp only [platformDeviceDel, h, if_true, platformManagerDelDeviceDefault, modify_modify]
 rfl

theorem Inv.del (h : Inv s) (hr : d ∈ s.devices) : Inv (platformDeviceDel s d) := by
 have hd := h.apart d hr
 rw [del_eq (h.registered d hr).manager]
 refine ⟨h.nodup.erase d, ?_, List.nodup_cons.mpr ⟨hd, h.deletingNodup⟩, ?_, ?_, ?_, ?_⟩
 · apply List.Nodup.sublist (List.erase_sublist.map _)
   change (s.devices.map fun a => ((s.modify d retire).device a).number).Nodup
   rw [numbers_modify s d (f := retire) fun _ => put_number]
   exact h.unique
 · intro a ha hda
   obtain ⟨hne, ha⟩ := h.nodup.mem_erase_iff.mp ha
   exact h.apart a ha ((List.mem_cons.mp hda).resolve_left hne)
 · intro a ha
   obtain ⟨hne, ha⟩ := h.nodup.mem_erase_iff.mp ha
   change Registered ((s.modify d retire).device a) (s.held a)
   rw [modify_of_ne s _ hne]
   exact h.registered a ha
 · intro a ha
   change Deleting ((s.modify d retire).device a) (s.held a)
   by_cases had : a = d
   · subst had
     rw [modify_self]
     exact (h.registered a hr).del
   · rw [modify_of_ne s _ had]
     exact h.deleting a ((List.mem_cons.mp ha).resolve_left had)
 · intro a ha hda
   rw [List.mem_cons, not_or] at hda
   exact h.idle a (fun hin => ha (h.nodup.mem_erase_iff.mpr ⟨hda.1, hin⟩)) hda.2

theorem uninit_isSome_iff (h : Inv s) (hd : d ∈ s.deleting) :
  (platformDeviceUninit s d).isSome ↔ s.held d = 0 := by
 have hr := (h.deleting d hd).released
 unfold platformDeviceUninit
 by_cases hz : s.held d = 0
 · rw [hz, if_pos rfl] at hr
   simp [hd, hr, hz]
 · rw [if_neg hz] at hr
   simp [hr, hz]

theorem Inv.uninit {t : State} (h : Inv s) (ht : platformDeviceUninit s d = some t) : Inv t := by
 have hsome : (platformDeviceUninit s d).isSome := by rw [ht]; rfl
 unfold platformDeviceUninit at ht
 split at ht
 · rename_i hc
   have hd := hc.1
   have hz := (uninit_isSome_iff h hd).mp hsome
   have hr : d ∉ s.devices := fun hin => h.apart d hin hd
   injection ht with ht
   subst ht
   refine ⟨h.nodup, ?_, h.deletingNodup.erase d, ?_, ?_, ?_, ?_⟩
   · change (s.devices.map fun a => ((s.modify d waitReleased).device a).number).Nodup
     rw [numbers_modify s d (absurd · hr)]
     exact h.unique
   · intro a ha hda
     exact h.apart a ha (List.mem_of_mem_erase hda)
   · intro a ha
     change Registered ((s.modify d waitReleased).device a) (s.held a)
     have hne : a ≠ d := fun e => hr (e ▸ ha)
     rw [modify_of_ne s _ hne]
     exact h.registered a ha
   · intro a ha
     obtain ⟨hne, ha⟩ := h.deletingNodup.mem_erase_iff.mp ha
     change Deleting ((s.modify d waitReleased).device a) (s.held a)
     rw [modify_of_ne s _ hne]
     exact h.deleting a ha
   · intro a ha hda
     change s.held a = 0
     by_cases had : a = d
     · rw [had, hz]
     · exact h.idle a ha fun hin => hda (h.deletingNodup.mem_erase_iff.mpr ⟨had, hin⟩)
 · cases ht

theorem Inv.step {s t : State} {call : Call} (h : Inv s) (hm : Meets s call)
  (ht : step s call = some t) : Inv t := by
 cases call with
 | add d number allocated =>
  cases ht
  rw [hm.2.2]
  exact h.add hm.1 hm.2.1 number
 | del d =>
  cases ht
  exact h.del hm
 | delReturns d => exact h.uninit ht
 | find isMatch =>
  cases ht
  exact h.find hm
 | getByNumber number =>
  cases ht
  exact h.find hm
 | put d =>
  cases ht
  exact h.put hm

theorem Inv.countsOne (h : Inv s) (hs : Single s isMatch) :
  CountsOne s (platformManagerFindDevice s isMatch) := by
 intro a
 cases find_cases h.nodup hs with
 | inl hn => simp [hn]
 | inr hd =>
  obtain ⟨d, hd, hroom, he⟩ := hd
  rw [he]
  change ((s.modify d platformDeviceGet).device a).refs = _
  by_cases had : a = d
  · subst had
    have hrefs := (h.registered a hd).refs
    rw [modify_self, get_refs (by omega) hroom]
    simp
  · rw [modify_of_ne s _ had]
    simp [Ne.symm had]

theorem Inv.counted (h : Inv s) : Counted s :=
 ⟨h.unique, fun d hd => (h.registered d hd).refs, fun _ hs => h.countsOne hs,
  fun _ hs => h.countsOne hs, fun _ hd => uninit_isSome_iff h hd⟩

/-- A manager to which nothing has been added yet; the devices may hold anything else. -/
def freshState (device : ℕ → PlatformDevice) : State where
 device := device

/-- Two devices, of which the first is found with the reference put and is deleted -/
def singleCalls : List Call :=
 [.add 0 1 true, .add 1 2 true, .getByNumber 1, .del 0, .put 0, .delReturns 0]

/-- The same with a predicate that both devices match -/
def everyCalls : List Call := [.add 0 1 true, .add 1 2 true, .find fun _ => true, .put 1, .del 0]

theorem singleCalls_meet : RunRules.Along step Meets (freshState fun _ => {}) singleCalls := by
 unfold singleCalls
 refine (RunRules.along_cons _ _ _).mpr ⟨?_, fun t ht => ?_⟩
 · exact ⟨by decide, by decide, rfl⟩
 cases ht
 refine (RunRules.along_cons _ _ _).mpr ⟨?_, fun t ht => ?_⟩
 · exact ⟨by decide, by decide, rfl⟩
 cases ht
 refine (RunRules.along_cons _ _ _).mpr ⟨?_, fun t ht => ?_⟩
 · exact ⟨by decide, by decide⟩
 cases ht
 refine (RunRules.along_cons _ _ _).mpr ⟨?_, fun t ht => ?_⟩
 · change 0 ∈ State.devices _
   decide
 cases ht
 refine (RunRules.along_cons _ _ _).mpr ⟨?_, fun t ht => ?_⟩
 · change 0 < State.held _ 0
   decide
 cases ht
 exact (RunRules.along_cons _ _ _).mpr ⟨trivial, fun t _ => RunRules.along_nil t⟩

end DriversFramework.PlatformManager
