import Mathlib.Data.List.Count
import Mathlib.Data.List.GetD
import DriversFramework.UsbPnpMatch

namespace DriversFramework.UsbPnpMatch

open InterfaceField

/-- The fields of the device that the entry selects. -/
structure DeviceFits (dev : DeviceInfo) (id : MatchIdTable) : Prop where
 vendor : id.has matchVendor → id.vendorId = dev.vendorId
 product : id.has matchProduct → id.productId = dev.productId
 low : id.has matchDevLow → id.bcdDeviceLow ≤ dev.bcdDeviceLow
 high : id.has matchDevHigh → dev.bcdDeviceHigh ≤ id.bcdDeviceHigh
 deviceClass : id.has matchDevClass → id.deviceClass = dev.deviceClass
 subClass : id.has matchDevSubClass → id.deviceSubClass = dev.deviceSubClass
 protocol : id.has matchDevProtocol → id.deviceProtocol = dev.deviceProtocol

/-- The device has an interface, and one for each value that the entry requires; the entry requires
no value twice. -/
structure Fits (dev : MatchInfoTable) (id : MatchIdTable) : Prop where
 device : DeviceFits dev.deviceInfo id
 vendor : dev.deviceInfo.deviceClass = classVendorSpec → ∀ f : InterfaceField, id.has f.flag →
  id.has matchVendor
 some : dev.interfaceInfo ≠ []
 once : ∀ f : InterfaceField, id.has f.flag → (id.values f).Nodup
 interfaces : ∀ f : InterfaceField, id.has f.flag → ∀ v ∈ id.values f,
  ∃ info ∈ dev.interfaceInfo, f.of info = v

/-- An entry as it is configured. -/
structure Configured (id : MatchIdTable) : Prop where
 short : ∀ f, (id.values f).length ≤ infoMaxInterfaces
 reset : resetEntry id = id

variable {dev : DeviceInfo} {info : InterfaceInfo} {id id₀ : MatchIdTable}
 {seen rest : List InterfaceInfo} {f : InterfaceField}

theorem matchDevice_iff : usbDdkPnpLoaderMatchDevice dev id = true ↔ DeviceFits dev id := by
 unfold usbDdkPnpLoaderMatchDevice
 constructor
 · intro h
   split_ifs at h with vendor product low high deviceClass subClass protocol
   exact ⟨fun flag => by simpa [flag] using vendor, fun flag => by simpa [flag] using product,
    fun flag => by simpa [flag] using low, fun flag => by simpa [flag] using high,
    fun flag => by simpa [flag] using deviceClass, fun flag => by simpa [flag] using subClass,
    fun flag => by simpa [flag] using protocol⟩
 · intro h
   rw [if_neg (by simpa using h.vendor), if_neg (by simpa using h.product),
    if_neg (by simpa using h.low), if_neg (by simpa using h.high),
    if_neg (by simpa using h.deviceClass), if_neg (by simpa using h.subClass),
    if_neg (by simpa using h.protocol)]

theorem vendorMissing_iff : vendorMissing dev id = true ↔
  ¬ (dev.deviceClass = classVendorSpec → ∀ f : InterfaceField, id.has f.flag → id.has matchVendor) := by
 simp only [vendorMissing, Bool.and_eq_true, beq_iff_eq, Bool.not_eq_true', List.any_eq_true,
  Classical.not_imp, not_forall]
 constructor
 · rintro ⟨⟨special, missing⟩, f, -, flag⟩
   exact ⟨special, f, flag, by simp [missing]⟩
 · rintro ⟨special, f, flag, missing⟩
   exact ⟨⟨special, by simpa using missing⟩, f, mem_all f, flag⟩

/-- Each value that the entry requires is the first of its list with that value, and has been seen. -/
def Covered (id₀ : MatchIdTable) (seen : List InterfaceInfo) : Prop :=
 ∀ f : InterfaceField, id₀.has f.flag → ∀ i < (id₀.values f).length,
  ∃ info ∈ seen, (id₀.values f).idxOf? (f.of info) = some i

theorem nodup_of_idxOf? {α : Type} [DecidableEq α] {l : List α}
  (first : ∀ (i : ℕ) (hi : i < l.length), l.idxOf? l[i] = some i) : l.Nodup := by
 rw [List.nodup_iff_injective_getElem]
 rintro ⟨i, hi⟩ ⟨j, hj⟩ same
 have index := first i hi
 rw [show l[i] = l[j] from same, first j hj] at index
 cases index
 rfl

theorem idxOf?_of_nodup {α : Type} [DecidableEq α] {l : List α} (nodup : l.Nodup) {i : ℕ}
  (hi : i < l.length) : l.idxOf? l[i] = some i := by
 rw [List.idxOf?_eq_some_iff]
 refine ⟨hi, rfl, fun j less same => ?_⟩
 have := (List.Nodup.getElem_inj_iff nodup).mp same
 omega

theorem covered_iff : Covered id₀ seen ↔
  (∀ f : InterfaceField, id₀.has f.flag → (id₀.values f).Nodup) ∧
   ∀ f : InterfaceField, id₀.has f.flag → ∀ v ∈ id₀.values f, ∃ info ∈ seen, f.of info = v := by
 constructor
 · intro covered
   refine ⟨fun f flag => nodup_of_idxOf? fun i hi => ?_, fun f flag v hv => ?_⟩
   · obtain ⟨info, -, index⟩ := covered f flag i hi
     obtain ⟨_, value, _⟩ := List.idxOf?_eq_some_iff.mp index
     rw [value, index]
   · obtain ⟨i, hi, rfl⟩ := List.getElem_of_mem hv
     obtain ⟨info, mem, index⟩ := covered f flag i hi
     obtain ⟨_, value, _⟩ := List.idxOf?_eq_some_iff.mp index
     exact ⟨info, mem, value.symm⟩
 · rintro ⟨once, interfaces⟩ f flag i hi
   obtain ⟨info, mem, value⟩ := interfaces f flag _ (List.getElem_mem hi)
   exact ⟨info, mem, value ▸ idxOf?_of_nodup (once f flag) hi⟩

theorem Covered.append (covered : Covered id₀ seen) (more : List InterfaceInfo) :
  Covered id₀ (seen ++ more) := by
 intro f flag i hi
 obtain ⟨info, mem, index⟩ := covered f flag i hi
 exact ⟨info, List.mem_append_left _ mem, index⟩

/-- The lists and masks of the entry after the interfaces `seen` of a device. -/
structure Going (id₀ : MatchIdTable) (seen : List InterfaceInfo) (id : MatchIdTable) : Prop where
 configured : resetEntry id = id₀
 grown : ∀ f : InterfaceField, ¬ id₀.has f.flag → (id.values f).length ≤ seen.length
 mask : ∀ f : InterfaceField, id₀.has f.flag → ∀ i < infoMaxInterfaces,
  ((id.mask f).getLsbD i = true ↔
   ∃ info ∈ seen, (id₀.values f).idxOf? (f.of info) = some i)

theorem Going.has (h : Going id₀ seen id) (flag : UInt16) : id.has flag = id₀.has flag := by
 rw [← h.configured]
 rfl

theorem Going.values (h : Going id₀ seen id) (flag : id₀.has f.flag) :
  id₀.values f = id.values f := by
 have same := congrFun (congrArg MatchIdTable.values h.configured) f
 rw [← h.has] at flag
 rw [← same]
 exact if_pos flag

theorem masksFull_iff (h : Going id₀ seen id)
  (short : ∀ f, (id₀.values f).length ≤ infoMaxInterfaces) :
  masksFull id = true ↔ Covered id₀ seen := by
 simp only [masksFull, List.all_eq_true, Bool.or_eq_true, Bool.not_eq_true', List.mem_range]
 constructor
 · intro full f flag i hi
   have mine := (full f (mem_all f)).resolve_left (by rw [h.has, flag]; exact Bool.noConfusion) i
    (h.values flag ▸ hi)
   exact (h.mask f flag i (hi.trans_le (short f))).mp mine
 · intro covered f _
   by_cases flag : id₀.has f.flag
   · refine .inr fun i hi => ?_
     rw [← h.values flag] at hi
     exact (h.mask f flag i (hi.trans_le (short f))).mpr (covered f flag i hi)
   · exact .inl (by rw [h.has]; simpa using flag)

theorem matchInterface_mask (h : Going id₀ seen id) (flag : id₀.has f.flag) {i : ℕ}
  (hi : i < infoMaxInterfaces) :
  (((usbDdkPnpLoaderMatchInterface info id).2.mask f).getLsbD i = true ↔
   ∃ x ∈ seen ++ [info], (id₀.values f).idxOf? (f.of x) = some i) := by
 have old := h.mask f flag i hi
 simp only [usbDdkPnpLoaderMatchInterface, h.has, flag, if_true, ← h.values flag, List.mem_append,
  List.mem_singleton, or_and_right, exists_or, exists_eq_left]
 cases (id₀.values f).idxOf? (f.of info) with
 | none => simpa using old
 | some j =>
  have bit : (BitVec.ofNat infoMaxInterfaces 1 <<< j).getLsbD i = decide (i = j) := by
   rw [BitVec.getLsbD_shiftLeft, Bool.eq_iff_iff]
   simp [hi, BitVec.getLsbD_one]
   omega
  rw [Option.elim_some, BitVec.getLsbD_or, Bool.or_eq_true, old, bit, decide_eq_true_eq,
   Option.some_inj, @eq_comm _ i j]

theorem matchHandle_keeps (info : InterfaceInfo) (id : MatchIdTable) (flag : Bool) :
  resetEntry (usbDdkPnpLoaderMatchHandle info id flag) = resetEntry id ∧
   (usbDdkPnpLoaderMatchHandle info id flag).mask = id.mask ∧
   (usbDdkPnpLoaderMatchHandle info id flag).pnpMatchFlag = id.pnpMatchFlag ∧
   ∀ f, ((usbDdkPnpLoaderMatchHandle info id flag).values f).length ≤ (id.values f).length + 1 := by
 unfold usbDdkPnpLoaderMatchHandle
 split
 · refine ⟨?_, rfl, rfl, fun f => ?_⟩
   · unfold resetEntry
     congr 1
     funext f
     by_cases flagged : id.has f.flag
     · exact (if_pos flagged).trans ((if_pos flagged).trans (if_pos flagged).symm)
     · exact (if_neg flagged).trans (if_neg flagged).symm
   · dsimp only
     split
     · exact Nat.le_succ _
     · rw [List.length_append, List.length_singleton]
 · exact ⟨rfl, rfl, rfl, fun f => Nat.le_succ _⟩

theorem Going.inside (h : Going id₀ seen id) (info : InterfaceInfo) :
  Going id₀ (seen ++ [info]) (usbDdkPnpLoaderMatchInterface info id).2 := by
 refine ⟨h.configured, fun f flag => ?_, fun f flag i hi => matchInterface_mask h flag hi⟩
 rw [List.length_append]
 exact Nat.le_add_right_of_le (h.grown f flag)

theorem Going.next (h : Going id₀ seen id) (info : InterfaceInfo) (flag : Bool) :
  Going id₀ (seen ++ [info]) (usbDdkPnpLoaderMatchHandle info (usbDdkPnpLoaderMatchInterface info id).2 flag) := by
 obtain ⟨reset, mask, -, grown⟩ := matchHandle_keeps info
  (usbDdkPnpLoaderMatchInterface info id).2 flag
 refine ⟨reset.trans h.configured, fun f flag => ?_, fun f flag i hi => ?_⟩
 · rw [List.length_append]
   exact (grown f).trans (Nat.succ_le_succ (h.grown f flag))
 · rw [mask]
   exact matchInterface_mask h flag hi

/-- The entry after the interfaces `seen` of a device that it does not refuse. -/
structure Progress (id₀ : MatchIdTable) (seen : List InterfaceInfo) (id : MatchIdTable) : Prop
  extends Going id₀ seen id where
 matched : id.pnpMatchFlag = true ↔ seen ≠ [] ∧ Covered id₀ seen

theorem markMatched_eq (full : Bool) : markMatched full id =
  (full && !id.pnpMatchFlag, { id with pnpMatchFlag := full || id.pnpMatchFlag }) := by
 obtain ⟨_, _, _, _, _, _, _, _, _, _, matched⟩ := id
 cases full <;> cases matched <;> rfl

theorem tryEntry_next (h : Progress id₀ seen id) (info : InterfaceInfo)
  (short : ∀ f, (id₀.values f).length ≤ infoMaxInterfaces) (device : DeviceFits dev id₀)
  (vendor : ¬ vendorMissing dev id₀ = true) :
  Progress id₀ (seen ++ [info]) (tryEntry dev info id).2 ∧
   ((tryEntry dev info id).1 = true ↔
    Covered id₀ (seen ++ [info]) ∧ ¬ (seen ≠ [] ∧ Covered id₀ seen)) := by
 have sameDevice : usbDdkPnpLoaderMatchDevice dev id = usbDdkPnpLoaderMatchDevice dev id₀ := by
  rw [← h.configured]
  rfl
 have sameVendor : vendorMissing dev id = vendorMissing dev id₀ := by
  rw [← h.configured]
  rfl
 have some : seen ++ [info] ≠ [] := List.append_ne_nil_of_right_ne_nil _ (List.cons_ne_nil _ _)
 have full := masksFull_iff (h.inside info) short
 have next := h.next info (usbDdkPnpLoaderMatchInterface info id).1
 have kept : _ = id.pnpMatchFlag := (matchHandle_keeps info (usbDdkPnpLoaderMatchInterface info id).2
  (usbDdkPnpLoaderMatchInterface info id).1).2.2.1
 rw [tryEntry, sameDevice, matchDevice_iff.mpr device, if_neg (by decide),
  usbDdkPnpLoaderMatchOneIdIntf, sameVendor, if_neg vendor]
 dsimp only [usbDdkPnpLoaderMatchFlag]
 rw [markMatched_eq, kept]
 refine ⟨⟨⟨next.configured, next.grown, next.mask⟩, ?_⟩, ?_⟩
 · dsimp only
   rw [Bool.or_eq_true, full, h.matched]
   refine ⟨fun either => ⟨some, either.elim (fun all => all) fun old => old.2.append _⟩, fun all => .inl all.2⟩
 · rw [Bool.and_eq_true, full, Bool.not_eq_true', ← Bool.not_eq_true, h.matched]

/-- A run of one entry over the interfaces of a device. -/
def entryRun (dev : DeviceInfo) : List InterfaceInfo → MatchIdTable → List Bool × MatchIdTable
 | [], id => ([], id)
 | info :: rest, id =>
  let first := tryEntry dev info id
  let later := entryRun dev rest first.2
  (first.1 :: later.1, later.2)

/-- The rest of the interfaces completes the lists of the entry for the first time. -/
def Completes (id₀ : MatchIdTable) (seen rest : List InterfaceInfo) : Prop :=
 rest ≠ [] ∧ Covered id₀ (seen ++ rest) ∧ ¬ (seen ≠ [] ∧ Covered id₀ seen)

theorem entryRun_progress (h : Progress id₀ seen id)
  (short : ∀ f, (id₀.values f).length ≤ infoMaxInterfaces) (device : DeviceFits dev id₀)
  (vendor : ¬ vendorMissing dev id₀ = true) :
  Progress id₀ (seen ++ rest) (entryRun dev rest id).2 ∧
   (Completes id₀ seen rest → (entryRun dev rest id).1.count true = 1) ∧
   (¬ Completes id₀ seen rest → (entryRun dev rest id).1.count true = 0) := by
 induction rest generalizing seen id with
 | nil =>
  rw [List.append_nil]
  exact ⟨h, fun no => absurd rfl no.1, fun _ => rfl⟩
 | cons info rest ih =>
  obtain ⟨next, now⟩ := tryEntry_next h info short device vendor
  obtain ⟨last, one, none⟩ := ih next
  have step : seen ++ [info] ++ rest = seen ++ info :: rest := by
   rw [List.append_assoc, List.singleton_append]
  have some : seen ++ [info] ≠ [] := List.append_ne_nil_of_right_ne_nil _ (List.cons_ne_nil _ _)
  have total : (entryRun dev (info :: rest) id).1.count true =
    (entryRun dev rest (tryEntry dev info id).2).1.count true +
     if (tryEntry dev info id).1 = true then 1 else 0 := by
   rw [entryRun, List.count_cons]
   simp only [beq_iff_eq]
  rw [step] at last
  rw [total]
  refine ⟨last, ?_⟩
  by_cases covered : Covered id₀ (seen ++ [info])
  · -- the lists are complete with this interface or were so before
    have more := step ▸ covered.append rest
    rw [none fun no => no.2.2 ⟨some, covered⟩, Nat.zero_add]
    refine ⟨fun all => if_pos (now.mpr ⟨covered, all.2.2⟩), fun no => if_neg fun first => no ?_⟩
    exact ⟨List.cons_ne_nil _ _, more, (now.mp first).2⟩
  · have notYet : ¬ (seen ≠ [] ∧ Covered id₀ seen) := fun old => covered (old.2.append _)
    have same : Completes id₀ seen (info :: rest) ↔ Completes id₀ (seen ++ [info]) rest := by
     rw [Completes, Completes, step]
     constructor
     · rintro ⟨-, all, -⟩
       refine ⟨?_, all, fun no => covered no.2⟩
       rintro rfl
       exact covered all
     · rintro ⟨-, all, -⟩
       exact ⟨List.cons_ne_nil _ _, all, notYet⟩
    rw [same, if_neg fun first => covered (now.mp first).1, Nat.add_zero]
    exact ⟨one, none⟩

theorem entryRun_refused (refused : ¬ DeviceFits dev id ∨ vendorMissing dev id = true) :
  entryRun dev rest id = (rest.map fun _ => false, id) := by
 have still (info : InterfaceInfo) : tryEntry dev info id = (false, id) := by
  by_cases device : usbDdkPnpLoaderMatchDevice dev id = true
  · have missing := refused.resolve_left fun no => no (matchDevice_iff.mp device)
    rw [tryEntry, device, if_neg (by decide), usbDdkPnpLoaderMatchOneIdIntf, if_pos missing]
  · rw [tryEntry, if_pos (by simpa using device)]
 induction rest with
 | nil => rfl
 | cons info rest ih =>
  rw [entryRun, still, ih]
  rfl

theorem Configured.progress (h : Configured id) : Progress id [] id := by
 have mask : id.mask = fun _ => 0 := congrArg MatchIdTable.mask h.reset.symm
 have matched : id.pnpMatchFlag = false := congrArg MatchIdTable.pnpMatchFlag h.reset.symm
 refine ⟨⟨h.reset, fun f flag => ?_, fun f flag i hi => ?_⟩, ?_⟩
 · rw [← h.reset]
   exact (congrArg List.length (if_neg flag)).le
 · rw [mask]
   simp
 · simp [matched]

theorem fits_iff {dev : MatchInfoTable} : Fits dev id ↔
  DeviceFits dev.deviceInfo id ∧ ¬ vendorMissing dev.deviceInfo id = true ∧
   Completes id [] dev.interfaceInfo := by
 rw [vendorMissing_iff, not_not, Completes, List.nil_append, covered_iff]
 constructor
 · intro h
   exact ⟨h.device, h.vendor, h.some, ⟨h.once, h.interfaces⟩, fun no => no.1 rfl⟩
 · rintro ⟨device, vendor, some, ⟨once, interfaces⟩, -⟩
   exact ⟨device, vendor, some, once, interfaces⟩

/-- The interfaces of a device, for one entry. -/
theorem entryRun_configured {dev : MatchInfoTable} (h : Configured id) :
  resetEntry (entryRun dev.deviceInfo dev.interfaceInfo id).2 = id ∧
   (Fits dev id → (entryRun dev.deviceInfo dev.interfaceInfo id).1.count true = 1) ∧
   (¬ Fits dev id → (entryRun dev.deviceInfo dev.interfaceInfo id).1.count true = 0) := by
 by_cases refused : ¬ DeviceFits dev.deviceInfo id ∨ vendorMissing dev.deviceInfo id = true
 · rw [entryRun_refused refused]
   refine ⟨h.reset, fun fits => ?_, fun _ => by simp [List.count_eq_zero]⟩
   obtain ⟨device, vendor, -⟩ := fits_iff.mp fits
   exact (refused.elim (fun no => no device) vendor).elim
 · obtain ⟨device, vendor⟩ := not_or.mp refused
   obtain ⟨last, one, none⟩ := entryRun_progress h.progress h.short
    (not_not.mp device) vendor
   refine ⟨last.configured, fun fits => one (fits_iff.mp fits).2.2, fun no => none fun all => ?_⟩
   exact no (fits_iff.mpr ⟨not_not.mp device, vendor, all⟩)

theorem addInterfaces_table (table : List MatchIdTable) :
  (addInterfaces dev rest table).2 = table.map fun id => (entryRun dev rest id).2 := by
 induction rest generalizing table with
 | nil => exact (List.map_id _).symm
 | cons info rest ih =>
  rw [addInterfaces, ih, usbDdkPnpLoaderAddDevice, List.map_map, List.map_map]
  rfl

theorem addInterfaces_entry {table : List MatchIdTable} {t : ℕ} (ht : table[t]? = some id) :
  (addInterfaces dev rest table).1.map (·[t]?) = (entryRun dev rest id).1.map some := by
 induction rest generalizing table id with
 | nil => rfl
 | cons info rest ih =>
  have next : (usbDdkPnpLoaderAddDevice dev info table).2[t]? =
    some (tryEntry dev info id).2 := by
   simp [usbDdkPnpLoaderAddDevice, ht]
  rw [addInterfaces, entryRun, List.map_cons, List.map_cons, ih next]
  simp [usbDdkPnpLoaderAddDevice, ht]

abbrev ConfiguredTable := { table : List MatchIdTable // ∀ id ∈ table, Configured id }

theorem usbDdkPnpLoaderDevice_table (dev : MatchInfoTable) (table : ConfiguredTable) :
  (usbDdkPnpLoaderDevice dev table.1).2 = table.1 := by
 rw [usbDdkPnpLoaderDevice, addInterfaces_table, List.map_map]
 calc
  _ = table.1.map fun id => id :=
   List.map_congr_left fun id hid => (entryRun_configured (table.2 id hid)).1
  _ = table.1 := List.map_id' _

theorem usbDdkPnpLoaderDevice_count (dev : MatchInfoTable) (table : ConfiguredTable)
  (t : Fin table.1.length) :
  (Fits dev table.1[t] →
   ((usbDdkPnpLoaderDevice dev table.1).1.map (·[t.1]?)).count (some true) = 1) ∧
  (¬ Fits dev table.1[t] →
   ((usbDdkPnpLoaderDevice dev table.1).1.map (·[t.1]?)).count (some true) = 0) := by
 have here : table.1[t.1]? = some table.1[t] := List.getElem?_eq_getElem t.2
 rw [usbDdkPnpLoaderDevice, addInterfaces_entry here,
  List.count_map_of_injective _ some (Option.some_injective _)]
 exact (entryRun_configured (table.2 _ (List.getElem_mem t.2))).2

/-- The devices that are added one after the other, with what was handed over for each. -/
def addRun : List MatchInfoTable → List MatchIdTable → List (List (List Bool)) × List MatchIdTable
 | [], table => ([], table)
 | dev :: rest, table =>
  let first := usbDdkPnpLoaderDevice dev table
  let later := addRun rest first.2
  (first.1 :: later.1, later.2)

theorem addRun_table (devs : List MatchInfoTable) (table : ConfiguredTable) :
  (addRun devs table.1).2 = table.1 := by
 induction devs with
 | nil => rfl
 | cons dev devs ih => rw [addRun, usbDdkPnpLoaderDevice_table, ih]

def hidDevice (deviceClass : UInt8) (interfaceInfo : List InterfaceInfo)
  (few : interfaceInfo.length ≤ infoMaxInterfaces) : MatchInfoTable :=
 ⟨⟨1, 2, 0, 0, deviceClass, 0, 0⟩, interfaceInfo, few⟩

def entryOf (matchFlag : UInt16) (classes : List UInt8) : MatchIdTable where
 matchFlag := matchFlag
 vendorId := 0
 productId := 0
 bcdDeviceLow := 0
 bcdDeviceHigh := 0
 deviceClass := 0
 deviceSubClass := 0
 deviceProtocol := 0
 values f := if f = interfaceClass then classes else []
 mask _ := 0
 pnpMatchFlag := false

end DriversFramework.UsbPnpMatch
