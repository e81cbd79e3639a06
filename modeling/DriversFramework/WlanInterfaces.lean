import Mathlib.Data.List.Nodup
import Mathlib.Data.List.Perm.Lattice
import Mathlib.Logic.Function.Basic
import DriversFramework.RunRules

/-! A net device keeps its interface id in two bit maps, that of all devices and
that of its WLAN device, which it finds again by a pointer its caller sets. -/
namespace DriversFramework.WlanInterfaces

def maxIfCount : ℕ := 32

def setBit (target : BitVec 32) (bit : ℕ) : BitVec 32 := target ||| 1#32 <<< bit

def clearBit (target : BitVec 32) (bit : ℕ) : BitVec 32 := target &&& ~~~(1#32 <<< bit)

structure HdfWifiNetDeviceData where
 netInterfaceId : ℕ
 device : Option ℕ
 deriving DecidableEq

/-- `owner` is the device it was allocated for, of which the code keeps no record. -/
structure NetDevice where
 name : List Char
 classDriverPriv : HdfWifiNetDeviceData
 owner : ℕ
 deriving DecidableEq

def NetDevice.netInterfaceId (netDev : NetDevice) : ℕ := netDev.classDriverPriv.netInterfaceId

def NetDevice.setDevice (device : Option ℕ) (netDev : NetDevice) : NetDevice :=
 { netDev with classDriverPriv := { netDev.classDriverPriv with device := device } }

structure Platform where
 allocatedIfMap : BitVec 32
 netIfMap : ℕ → BitVec 32
 live : List NetDevice

def getPlatformIfName (id : ℕ) : List Char := ['w', 'l', 'a', 'n'] ++ Nat.toDigits 10 id

/-- `granted` and `inited` tell whether the memory and the net device are obtained. -/
def allocPlatformNetDevice (device : Option ℕ) (granted inited : Bool) (p : Platform) : Platform :=
  match device, granted, (List.range maxIfCount).find? (fun i => !p.allocatedIfMap.getLsbD i),
      inited with
  | some device, true, some id, true =>
    { netIfMap := Function.update p.netIfMap device (setBit (p.netIfMap device) id)
      allocatedIfMap := setBit p.allocatedIfMap id
      live := p.live ++ [⟨getPlatformIfName id, ⟨id, none⟩, device⟩] }
  | _, _, _, _ => p

/-- What a release does once the net device is gone, and a renewal that gets no new one. -/
def dropNetDevice (i : ℕ) (data : HdfWifiNetDeviceData) (p : Platform) : Platform :=
  { netIfMap :=
      match data.device with
      | none => p.netIfMap
      | some device =>
        Function.update p.netIfMap device (clearBit (p.netIfMap device) data.netInterfaceId)
    allocatedIfMap := clearBit p.allocatedIfMap data.netInterfaceId
    live := p.live.eraseIdx i }

/-- A position without a net device stands for a pointer that is refused. -/
def renewNetDevice (i : ℕ) (inited : Bool) (p : Platform) : Platform :=
 match p.live[i]? with
 | none => p
 | some netDev =>
  if inited then
   { p with live := p.live.set i ⟨netDev.name, netDev.classDriverPriv, netDev.owner⟩ }
  else dropNetDevice i netDev.classDriverPriv p

def releasePlatformNetDevice (i : ℕ) (p : Platform) : Platform :=
 match p.live[i]? with
 | none => p
 | some netDev => dropNetDevice i netDev.classDriverPriv p

/-- `data->device = device`, which is left to the caller of the allocation. -/
def setDevice (i : ℕ) (device : Option ℕ) (p : Platform) : Platform :=
 { p with live := p.live.modify i (NetDevice.setDevice device) }

/-- The count and the names, when the memory for them is obtained. -/
def hdfWlanGetIfNames (netIfMap : BitVec 32) : ℕ × List (List Char) :=
 let ids := (List.range maxIfCount).filter fun i => netIfMap.getLsbD i
 (ids.length, ids.map getPlatformIfName)

inductive Call where
 | alloc (device : Option ℕ) (granted inited : Bool)
 | setDevice (i : ℕ) (device : Option ℕ)
 | renew (i : ℕ) (inited : Bool)
 | release (i : ℕ)

def Platform.call (p : Platform) : Call → Platform
 | .alloc device granted inited => allocPlatformNetDevice device granted inited p
 | .setDevice i device => setDevice i device p
 | .renew i inited => renewNetDevice i inited p
 | .release i => releasePlatformNetDevice i p

def step (p : Platform) (call : Call) : Option Platform := some (p.call call)

def start : Platform := ⟨0, fun _ => 0, []⟩

def Platform.ofDevice (p : Platform) (device : ℕ) : List NetDevice :=
 p.live.filter fun netDev => netDev.owner = device

/-- Both kinds of map, the ids, the names and the listings agree with the live net devices. -/
structure Right (p : Platform) : Prop where
 allocated : ∀ i, p.allocatedIfMap.getLsbD i = true ↔ i ∈ p.live.map NetDevice.netInterfaceId
 own : ∀ device i, (p.netIfMap device).getLsbD i = true ↔
  i ∈ (p.ofDevice device).map NetDevice.netInterfaceId
 ids : (p.live.map NetDevice.netInterfaceId).Nodup
 names : (p.live.map NetDevice.name).Nodup
 listed : ∀ device, (hdfWlanGetIfNames (p.netIfMap device)).1 = (p.ofDevice device).length ∧
  (hdfWlanGetIfNames (p.netIfMap device)).2.Perm ((p.ofDevice device).map NetDevice.name)

/-- Net devices are dropped only with a pointer to the device they were allocated for. -/
def Fine (p : Platform) : Call → Prop
 | .release i => ∀ netDev, p.live[i]? = some netDev →
   netDev.classDriverPriv.device = some netDev.owner
 | .renew i inited => inited = false → ∀ netDev, p.live[i]? = some netDev →
   netDev.classDriverPriv.device = some netDev.owner
 | _ => True

section Bits
variable (target : BitVec 32) (bit i : ℕ)

theorem one_shift : (1#32 <<< bit).getLsbD i = decide (i < 32 ∧ i = bit) := by
 rw [BitVec.getLsbD_shiftLeft, BitVec.getLsbD_one, Bool.eq_iff_iff]
 simp
 omega

theorem setBit_iff (low : bit < 32) :
  (setBit target bit).getLsbD i = true ↔ target.getLsbD i = true ∨ i = bit := by
 rw [setBit, BitVec.getLsbD_or, one_shift, Bool.or_eq_true, decide_eq_true_iff]
 apply or_congr_right
 omega

theorem clearBit_iff :
  (clearBit target bit).getLsbD i = true ↔ target.getLsbD i = true ∧ i ≠ bit := by
 rw [clearBit, BitVec.getLsbD_and, BitVec.getLsbD_not, one_shift]
 have low := @BitVec.lt_of_getLsbD 32 target i
 simp only [Bool.and_eq_true, Bool.not_eq_true', decide_eq_true_iff, decide_eq_false_iff_not]
 constructor
 · rintro ⟨set, -, other⟩
   exact ⟨set, fun same => other ⟨low set, same⟩⟩
 · rintro ⟨set, other⟩
   exact ⟨set, low set, fun same => other same.2⟩

end Bits

theorem ifName_inj {a b : ℕ} (ha : a < maxIfCount) (hb : b < maxIfCount)
  (same : getPlatformIfName a = getPlatformIfName b) : a = b := by
 have distinct : ((List.range maxIfCount).map getPlatformIfName).Nodup := by decide
 exact List.inj_on_of_nodup_map distinct (List.mem_range.mpr ha) (List.mem_range.mpr hb) same

/-- What the calls keep, in terms of lists that do not depend on the pointers. -/
structure Tracked (p : Platform) : Prop where
 allocated : ∀ i, p.allocatedIfMap.getLsbD i = true ↔ i ∈ p.live.map NetDevice.netInterfaceId
 own : ∀ device i, (p.netIfMap device).getLsbD i = true ↔
  (device, i) ∈ p.live.map fun netDev => (netDev.owner, netDev.netInterfaceId)
 ids : (p.live.map NetDevice.netInterfaceId).Nodup
 named : p.live.map NetDevice.name =
  p.live.map fun netDev => getPlatformIfName netDev.netInterfaceId

section Tracked
variable {p : Platform} {netDev : NetDevice} {i : ℕ}

theorem mem_ofDevice (device : ℕ) : i ∈ (p.ofDevice device).map NetDevice.netInterfaceId ↔
  (device, i) ∈ p.live.map fun netDev => (netDev.owner, netDev.netInterfaceId) := by
 simp only [Platform.ofDevice, List.mem_map, List.mem_filter, decide_eq_true_iff, Prod.mk.injEq]
 apply exists_congr
 intro netDev
 tauto

theorem Tracked.name (h : Tracked p) (mem : netDev ∈ p.live) :
  netDev.name = getPlatformIfName netDev.netInterfaceId :=
 List.map_inj_left.mp h.named netDev mem

theorem Tracked.listedIds (h : Tracked p) (device : ℕ) :
  ((List.range maxIfCount).filter fun i => (p.netIfMap device).getLsbD i).Perm
   ((p.ofDevice device).map NetDevice.netInterfaceId) := by
 apply (List.perm_ext_iff_of_nodup _ _).mpr
 · intro i
   rw [List.mem_filter, List.mem_range, mem_ofDevice, ← h.own]
   exact and_iff_right_of_imp BitVec.lt_of_getLsbD
 · exact List.nodup_range.filter _
 · exact h.ids.sublist (List.filter_sublist.map _)

theorem Tracked.right (h : Tracked p) : Right p where
 allocated := h.allocated
 own := fun device i => (h.own device i).trans (mem_ofDevice device).symm
 ids := h.ids
 names := by
  rw [h.named]
  have inj : ∀ a ∈ p.live.map NetDevice.netInterfaceId,
    ∀ b ∈ p.live.map NetDevice.netInterfaceId,
     getPlatformIfName a = getPlatformIfName b → a = b := by
   intro a ha b hb
   exact ifName_inj (BitVec.lt_of_getLsbD ((h.allocated a).mpr ha))
    (BitVec.lt_of_getLsbD ((h.allocated b).mpr hb))
  have names := h.ids.map_on inj
  rwa [List.map_map] at names
 listed := by
  intro device
  have ids := h.listedIds device
  constructor
  · exact ids.length_eq.trans (List.length_map _)
  · have names : (p.ofDevice device).map NetDevice.name =
      ((p.ofDevice device).map NetDevice.netInterfaceId).map getPlatformIfName := by
     rw [List.map_map]
     apply List.map_congr_left
     intro netDev mem
     exact h.name (List.mem_of_mem_filter mem)
    rw [names]
    exact ids.map _

theorem alloc_tracked (h : Tracked p) (device : Option ℕ) (granted inited : Bool) :
  Tracked (allocPlatformNetDevice device granted inited p) := by
 unfold allocPlatformNetDevice
 split
 · rename_i device id free
   have unset : ¬ p.allocatedIfMap.getLsbD id = true := by
    simpa using List.find?_some free
   have low : id < 32 := List.mem_range.mp (List.mem_of_find?_eq_some free)
   constructor
   · intro i
     simp only [setBit_iff _ _ _ low, h.allocated, List.map_append, List.mem_append,
      List.map_cons, List.map_nil, List.mem_singleton]
     rfl
   · intro other i
     simp only [List.map_append, List.mem_append, List.map_cons, List.map_nil,
      List.mem_singleton, Prod.mk.injEq, ← h.own]
     by_cases same : other = device
     · subst same
       rw [Function.update_self, setBit_iff _ _ _ low]
       exact or_congr_right (and_iff_right rfl).symm
     · rw [Function.update_of_ne same]
       exact (or_iff_left fun new => same new.1).symm
   · simp only [List.map_append, List.map_cons, List.map_nil]
     refine h.ids.append (List.nodup_singleton _) (List.disjoint_singleton.mpr ?_)
     exact fun mem => unset ((h.allocated id).mpr mem)
   · simp only [List.map_append, h.named]
     rfl
 · exact h

theorem map_setDevice {β : Type} {f : NetDevice → β} {device : Option ℕ}
  (keep : ∀ netDev, f (netDev.setDevice device) = f netDev) (l : List NetDevice) (i : ℕ) :
  (l.modify i (NetDevice.setDevice device)).map f = l.map f := by
 apply List.ext_getElem?
 intro j
 rw [List.getElem?_map, List.getElem?_map, List.getElem?_modify]
 cases l[j]? with
 | none => rfl
 | some a =>
  by_cases same : i = j
  · simp [same, keep]
  · simp [same]

theorem setDevice_tracked (h : Tracked p) (device : Option ℕ) : Tracked (setDevice i device p) := by
 constructor <;> simp only [setDevice]
 · rw [map_setDevice fun _ => rfl]
   exact h.allocated
 · rw [map_setDevice fun _ => rfl]
   exact h.own
 · rw [map_setDevice fun _ => rfl]
   exact h.ids
 · rw [map_setDevice fun _ => rfl, map_setDevice fun _ => rfl]
   exact h.named

theorem dropped_mem (h : Tracked p) (found : p.live[i]? = some netDev) (other : NetDevice) :
  other ∈ p.live.eraseIdx i ↔
   other ∈ p.live ∧ other.netInterfaceId ≠ netDev.netInterfaceId := by
 obtain ⟨bound, rfl⟩ := List.getElem?_eq_some_iff.mp found
 have split : p.live.take i ++ p.live[i] :: p.live.drop (i + 1) = p.live := by
  rw [List.getElem_cons_drop, List.take_append_drop]
 have ids := h.ids
 rw [← split, List.map_append, List.map_cons, List.nodup_middle, List.nodup_cons,
  ← List.map_append, ← List.eraseIdx_eq_take_drop_succ] at ids
 have mem : other ∈ p.live ↔ other = p.live[i] ∨ other ∈ p.live.eraseIdx i := by
  rw [List.eraseIdx_eq_take_drop_succ, ← List.mem_cons, ← List.perm_middle.mem_iff, split]
 constructor
 · intro kept
   exact ⟨mem.mpr (.inr kept), fun same => ids.1 (same ▸ List.mem_map_of_mem kept)⟩
 · rintro ⟨there, differs⟩
   exact (mem.mp there).resolve_left fun same => differs (congrArg _ same)

theorem drop_tracked (h : Tracked p) (found : p.live[i]? = some netDev)
  (kept : netDev.classDriverPriv.device = some netDev.owner) :
  Tracked (dropNetDevice i netDev.classDriverPriv p) := by
 have mem := List.mem_of_getElem? found
 constructor
 · intro j
   simp only [dropNetDevice, clearBit_iff, h.allocated, List.mem_map, dropped_mem h found]
   constructor
   · rintro ⟨⟨other, there, rfl⟩, differs⟩
     exact ⟨other, ⟨there, differs⟩, rfl⟩
   · rintro ⟨other, ⟨there, differs⟩, rfl⟩
     exact ⟨⟨other, there, rfl⟩, differs⟩
 · intro device j
   simp only [dropNetDevice, kept, List.mem_map, dropped_mem h found, Prod.mk.injEq]
   by_cases same : device = netDev.owner
   · subst same
     rw [Function.update_self, clearBit_iff, h.own, List.mem_map]
     simp only [Prod.mk.injEq]
     constructor
     · rintro ⟨⟨other, there, own, rfl⟩, differs⟩
       exact ⟨other, ⟨there, differs⟩, own, rfl⟩
     · rintro ⟨other, ⟨there, differs⟩, own, rfl⟩
       exact ⟨⟨other, there, own, rfl⟩, differs⟩
   rw [Function.update_of_ne same, h.own, List.mem_map]
   simp only [Prod.mk.injEq]
   constructor
   · rintro ⟨other, there, own, rfl⟩
     refine ⟨other, ⟨there, ?_⟩, own, rfl⟩
     intro equal
     have one := List.inj_on_of_nodup_map h.ids there mem equal
     exact same (own.symm.trans (congrArg NetDevice.owner one))
   · rintro ⟨other, ⟨there, -⟩, own, rfl⟩
     exact ⟨other, there, own, rfl⟩
 · exact h.ids.sublist ((List.eraseIdx_sublist ..).map _)
 · apply List.map_congr_left
   intro other there
   exact h.name ((dropped_mem h found other).mp there).1

/-- A net device dropped without the pointer leaves its bit in the map of its device. -/
theorem drop_kept (h : Tracked p) (found : p.live[i]? = some netDev)
  (right : Right (dropNetDevice i netDev.classDriverPriv p)) :
  netDev.classDriverPriv.device = some netDev.owner := by
 by_contra lost
 have before : (p.netIfMap netDev.owner).getLsbD netDev.netInterfaceId = true :=
  (h.own _ _).mpr (List.mem_map_of_mem (List.mem_of_getElem? found))
 have after : ((dropNetDevice i netDev.classDriverPriv p).netIfMap netDev.owner).getLsbD
   netDev.netInterfaceId = true := by
  rw [dropNetDevice]
  cases pointer : netDev.classDriverPriv.device with
  | none => exact before
  | some device =>
   rw [pointer, Option.some.injEq] at lost
   simpa only [Function.update_of_ne (Ne.symm lost)] using before
 obtain ⟨other, there, same⟩ := List.mem_map.mp ((right.own _ _).mp after)
 exact ((dropped_mem h found other).mp (List.mem_of_mem_filter there)).2 same

end Tracked

theorem step_tracked (p : Platform) (call : Call) (h : Tracked p) (fine : Fine p call) :
  ∃ q, step p call = some q ∧ Tracked q := by
 refine ⟨_, rfl, ?_⟩
 cases call with
 | alloc device granted inited => exact alloc_tracked h device granted inited
 | setDevice i device => exact setDevice_tracked h device
 | renew i inited =>
  dsimp only [Platform.call, renewNetDevice]
  split
  · exact h
  · rename_i netDev found
    cases inited with
    | true =>
     obtain ⟨bound, rfl⟩ := List.getElem?_eq_some_iff.mp found
     rw [if_pos rfl, List.set_getElem_self]
     exact h
    | false => exact drop_tracked h found (fine rfl netDev found)
 | release i =>
  dsimp only [Platform.call, releasePlatformNetDevice]
  split
  · exact h
  · rename_i netDev found
    exact drop_tracked h found (fine netDev found)

theorem step_fine (p : Platform) (call : Call) (h : Tracked p)
  (right : ∃ q, step p call = some q ∧ Right q) : Fine p call := by
 obtain ⟨q, called, right⟩ := right
 cases called
 cases call with
 | alloc => trivial
 | setDevice => trivial
 | renew i inited =>
  rintro rfl netDev found
  rw [Platform.call, renewNetDevice, found] at right
  exact drop_kept h found right
 | release i =>
  intro netDev found
  rw [Platform.call, releasePlatformNetDevice, found] at right
  exact drop_kept h found right

/-- The maps follow the live net devices through exactly the calls that drop none
without its pointer. -/
theorem maps_right_iff (calls : List Call) :
    RunRules.Safe step Right start calls ↔ RunRules.Along step Fine start calls := by
  refine RunRules.safe_iff_along_of (A := fun _ => True) (fun _ h => Tracked.right h)
    step_tracked (fun p call h _ => step_fine p call h) start calls ?_ fun _ _ => trivial
  exact ⟨fun i => by simp [start], fun device i => by simp [start], List.nodup_nil, rfl⟩

/-- A net device released before its caller stores the WLAN device stays in the map of the latter. -/
theorem maps_released_early :
    ¬ ∀ calls, (∀ call ∈ calls, ∀ i device, call ≠ Call.setDevice i device) →
      RunRules.Safe step Right start calls := by
  intro all
  obtain ⟨p, run, right⟩ := all [.alloc (some 0) true true, .release 0] (by simp) _ List.prefix_rfl
  cases run
  exact absurd ((right.own 0 0).mp (by decide)) (by decide)

end DriversFramework.WlanInterfaces
