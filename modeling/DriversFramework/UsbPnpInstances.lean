import Mathlib.Algebra.Group.Nat.Defs
import Mathlib.Data.List.Perm.Basic
import Mathlib.Data.List.Nodup
import DriversFramework.RunRules
import DriversFramework.UsbPnpLoader

namespace DriversFramework.UsbPnp

open RunRules

def Live (e : UsbPnpDeviceListTable) : Prop := e.status ≠ .remove

instance instDecidableLive (e : UsbPnpDeviceListTable) : Decidable (Live e) :=
 inferInstanceAs (Decidable (_ ≠ _))

def liveKeys (list : List UsbPnpDeviceListTable) : List DriverInstance :=
 (list.filter fun e => decide (Live e)).map (·.toDriverInstance)

/-- An instance is registered exactly when one entry for it is not removed. -/
def Agrees (s : PnpLoader) : Prop :=
 ∀ k, k ∈ s.manager.registered ↔ (liveKeys s.deviceList).count k = 1

def others (device : UsbDevice) (list : List UsbPnpDeviceListTable) : List UsbPnpDeviceListTable :=
 list.filter fun e => decide (e.device ≠ device)

def PnpCall.device : PnpCall → UsbDevice
 | .add _ info _ _ => info
 | .remove _ info _ => info.toUsbDevice

def Unregisters (s t : PnpLoader) : PnpCall → Prop
 | .remove .removeDevice info _ => ∃ gone,
   t.manager.unregistered = s.manager.unregistered ++ gone ∧ gone.Nodup ∧
   ∀ k, k ∈ gone ↔ k ∈ s.manager.registered ∧ k.device = info.toUsbDevice
 | _ => True

/-- What a call has to do. -/
def Right (s : PnpLoader) (call : PnpCall) : Prop :=
 Agrees (s.act call) ∧ (s.act call).manager.registered.Nodup ∧
 others call.device (s.act call).deviceList = others call.device s.deviceList ∧
 Unregisters s (s.act call) call

def found (s : PnpLoader) (info : UsbDevice) (idTable : UsbPnpMatchIdTable) :
  Option UsbPnpDeviceListTable :=
 if info.devNum ≠ 0 ∧ info.busNum ≠ 0 then s.deviceList.find? (sameName info idTable) else none

def SearchKeeps (s : PnpLoader) (info : UsbDevice) (idTable : UsbPnpMatchIdTable) : Prop :=
 if info.devNum ≠ 0 ∧ info.busNum ≠ 0 then
  ∀ e ∈ found s info idTable, e.devNum = info.devNum ∧ e.busNum = info.busNum
 else ∀ e ∈ s.deviceList, sameName info idTable e = true →
  e.devNum = info.devNum ∧ (info.devNum ≠ 0 → e.busNum = info.busNum)

def stops (info : UsbPnpRemoveInfo) (grants : RemoveGrants) (e : UsbPnpDeviceListTable) : Bool :=
 selected info e && (!grants.pnpData || (decide (Live e) && !grants.unregistered))

def passed (info : UsbPnpRemoveInfo) : List UsbPnpDeviceListTable → (ℕ → RemoveGrants) → ℕ
 | [], _ => 0
 | e :: rest, grants =>
  if stops info (grants 0) e then 0 else passed info rest (fun i => grants (i + 1)) + 1

/-- The calls that do not go wrong. -/
def Meets (s : PnpLoader) : PnpCall → Prop
 | .add cmdId info idTable grants => SearchKeeps s info idTable ∧
   ((∃ e ∈ found s info idTable, Live e) ∨ grants.pnpData = false ∨ grants.registered = false ∨
    (instanceOf info idTable ∉ s.manager.registered ∧
     (cmdId = .addInterface → found s info idTable ≠ none) ∧
     (cmdId ≠ .addInterface → grants.entry = true)))
 | .remove cmdId info grants =>
   (∀ e ∈ s.deviceList.take (passed info s.deviceList grants), selected info e = true →
    e.device = info.toUsbDevice ∨ (cmdId = .removeInterface ∧ ¬Live e)) ∧
   (cmdId = .removeDevice →
    (∀ e ∈ s.deviceList.take (passed info s.deviceList grants), Live e →
     e.device = info.toUsbDevice → selected info e = true) ∧
    ∀ e ∈ s.deviceList.drop (passed info s.deviceList grants),
     e.device = info.toUsbDevice → ¬Live e)

structure Inv (s : PnpLoader) : Prop where
 perm : s.manager.registered.Perm (liveKeys s.deviceList)
 nodup : s.manager.registered.Nodup

variable {s t : PnpLoader} {info : UsbDevice} {idTable : UsbPnpMatchIdTable}
  {list list' : List UsbPnpDeviceListTable}

theorem inv_agrees (inv : Inv s) : Agrees s := by
 intro k
 rw [← inv.perm.count_eq k, ← List.count_pos_iff]
 have once := List.nodup_iff_count_le_one.mp inv.nodup k
 omega

theorem mem_registered (inv : Inv s) (k : DriverInstance) :
 k ∈ s.manager.registered ↔ ∃ e ∈ s.deviceList, Live e ∧ e.toDriverInstance = k := by
 rw [inv.perm.mem_iff]
 unfold liveKeys
 simp only [List.mem_map, List.mem_filter, decide_eq_true_eq, and_assoc]

theorem liveKeys_append (list list' : List UsbPnpDeviceListTable) :
 liveKeys (list ++ list') = liveKeys list ++ liveKeys list' := by
 unfold liveKeys
 rw [List.filter_append, List.map_append]

theorem liveKeys_cons (e : UsbPnpDeviceListTable) (list : List UsbPnpDeviceListTable) :
 liveKeys (e :: list) = (if Live e then [e.toDriverInstance] else []) ++ liveKeys list := by
 unfold liveKeys
 by_cases live : Live e
 · rw [List.filter_cons_of_pos (p := fun e => decide (Live e)) (decide_eq_true live), if_pos live]
   rfl
 · rw [List.filter_cons_of_neg (p := fun e => decide (Live e))
    (by rw [decide_eq_true_eq]; exact live), if_neg live]
   rfl

theorem others_append (device : UsbDevice) (list list' : List UsbPnpDeviceListTable) :
 others device (list ++ list') = others device list ++ others device list' :=
 List.filter_append _ _

theorem others_flatMap_iff (device : UsbDevice)
 (f : UsbPnpDeviceListTable → List UsbPnpDeviceListTable)
 (le : ∀ e, (others device (f e)).length ≤ (others device [e]).length) :
 others device (list.flatMap f) = others device list ↔
  ∀ e ∈ list, others device (f e) = others device [e] := by
 have shorter : ∀ l : List UsbPnpDeviceListTable,
  (others device (l.flatMap f)).length ≤ (others device l).length := by
  intro l
  induction l with
  | nil => exact Nat.le_refl _
  | cons e rest ih =>
   rw [List.flatMap_cons, ← List.singleton_append, others_append, others_append,
    List.length_append, List.length_append]
   exact Nat.add_le_add (le e) ih
 induction list with
 | nil => exact iff_of_true rfl fun e he => absurd he List.not_mem_nil
 | cons e rest ih =>
  rw [List.forall_mem_cons]
  refine Iff.trans ?_ (and_congr_right fun _ => ih)
  rw [List.flatMap_cons, ← List.singleton_append, others_append, others_append]
  constructor
  · intro same
    have whole := congrArg List.length same
    rw [List.length_append, List.length_append] at whole
    have head := le e
    have tail := shorter rest
    exact List.append_inj same (by omega)
  · rintro ⟨head, tail⟩
    rw [head, tail]

variable {e : UsbPnpDeviceListTable}

theorem others_single_own {device : UsbDevice} (own : e.device = device) :
 others device [e] = [] := by
 apply List.filter_cons_of_neg
 rw [decide_eq_true_eq]
 exact not_not.mpr own

theorem others_single {device : UsbDevice} (foreign : e.device ≠ device) :
 others device [e] = [e] :=
 List.filter_cons_of_pos (decide_eq_true foreign)

def afterRemove (cmdId : RemoveCmd) (info : UsbPnpRemoveInfo) (e : UsbPnpDeviceListTable) :
  List UsbPnpDeviceListTable :=
 if selected info e then
  if cmdId = .removeInterface then [{ e with status := .remove }] else []
 else [e]

def unregisteredBy (info : UsbPnpRemoveInfo) (e : UsbPnpDeviceListTable) : List DriverInstance :=
 if selected info e ∧ Live e then [e.toDriverInstance] else []

def Registrations.unregisterAll (m : Registrations) (gone : List DriverInstance) : Registrations :=
 gone.foldl Registrations.unregister m

variable (m : Registrations)

theorem removeHandle_stops {grants : RemoveGrants} {info : UsbPnpRemoveInfo}
 (sel : selected info e = true) (stop : stops info grants e = true) :
 removeHandle grants e m = (.failure, e, m) := by
 unfold stops at stop
 rw [sel, Bool.true_and, Bool.or_eq_true, Bool.and_eq_true, Bool.not_eq_true',
  Bool.not_eq_true', decide_eq_true_eq] at stop
 unfold removeHandle
 by_cases data : grants.pnpData = false
 · rw [if_pos data]
 · obtain ⟨live, refused⟩ := stop.resolve_left data
   rw [if_neg data, if_pos (show e.status ≠ .remove from live), if_pos refused]

theorem removeHandle_passes {grants : RemoveGrants} {info : UsbPnpRemoveInfo}
 (sel : selected info e = true)
 (pass : stops info grants e = false) :
 removeHandle grants e m =
  (.success, { e with status := .remove }, m.unregisterAll (unregisteredBy info e)) := by
 unfold stops at pass
 rw [sel, Bool.true_and, Bool.or_eq_false_iff, Bool.not_eq_false', Bool.and_eq_false_iff] at pass
 obtain ⟨data, granted⟩ := pass
 unfold removeHandle unregisteredBy
 rw [if_neg (by rw [data]; exact Bool.noConfusion)]
 by_cases live : Live e
 · have done : grants.unregistered = true := by
    rcases granted with dead | done
    · exact absurd live (of_decide_eq_false dead)
    · simpa using done
   rw [if_pos (show e.status ≠ .remove from live), if_neg (by rw [done]; exact Bool.noConfusion),
    if_pos ⟨sel, live⟩]
   rfl
 · have removed : e.status = .remove := not_not.mp live
   rw [if_neg (show ¬e.status ≠ .remove from live), if_neg (fun h => live h.2)]
   obtain ⟨key, status, interfaces⟩ := e
   cases removed
   rfl

theorem passed_succ {info : UsbPnpRemoveInfo}
 (grants : ℕ → RemoveGrants) (pass : stops info (grants 0) e = false) :
 passed info (e :: list) grants = passed info list (fun i => grants (i + 1)) + 1 := by
 rw [passed, if_neg (by rw [pass]; exact Bool.noConfusion)]

theorem unregisterAll_append (gone gone' : List DriverInstance) :
 m.unregisterAll (gone ++ gone') = (m.unregisterAll gone).unregisterAll gone' :=
 List.foldl_append

theorem removeLoop_spec (list : List UsbPnpDeviceListTable) (cmdId : RemoveCmd)
 (info : UsbPnpRemoveInfo) (grants : ℕ → RemoveGrants) (m : Registrations) :
 (removeLoop cmdId info list grants m).2 =
  ((list.take (passed info list grants)).flatMap (afterRemove cmdId info) ++
   list.drop (passed info list grants),
   m.unregisterAll ((list.take (passed info list grants)).flatMap (unregisteredBy info))) := by
 induction list generalizing grants m with
 | nil => rfl
 | cons e rest ih =>
  by_cases sel : selected info e = true
  · cases stop : stops info (grants 0) e with
    | true =>
     unfold removeLoop passed
     rw [if_pos sel, if_pos stop, removeHandle_stops m sel stop]
     rfl
    | false =>
     rw [passed_succ grants stop, List.take_succ_cons, List.drop_succ_cons, List.flatMap_cons,
      List.flatMap_cons, removeLoop, if_pos sel, removeHandle_passes m sel stop]
     have tail := ih (fun i => grants (i + 1)) (m.unregisterAll (unregisteredBy info e))
     change (if cmdId = .removeInterface then
      { e with status := .remove } :: (removeLoop cmdId info rest _ _).2.1
      else (removeLoop cmdId info rest _ _).2.1, (removeLoop cmdId info rest _ _).2.2) = _
     rw [tail, unregisterAll_append]
     by_cases keep : cmdId = .removeInterface
     · rw [if_pos keep, afterRemove, if_pos sel, if_pos keep]
       rfl
     · rw [if_neg keep, afterRemove, if_pos sel, if_neg keep]
       rfl
  · have pass : stops info (grants 0) e = false := by
     have no : selected info e = false := by simpa using sel
     unfold stops
     rw [no, Bool.false_and]
    rw [passed_succ grants pass, List.take_succ_cons, List.drop_succ_cons, List.flatMap_cons,
     List.flatMap_cons, removeLoop, if_neg sel]
    have tail := ih (fun i => grants (i + 1)) m
    change (e :: (removeLoop cmdId info rest _ _).2.1, (removeLoop cmdId info rest _ _).2.2) = _
    rw [tail, afterRemove, if_neg sel, unregisteredBy, if_neg (fun h => sel h.1)]
    rfl

theorem unregisterAll_unregistered (gone : List DriverInstance) :
 (m.unregisterAll gone).unregistered = m.unregistered ++ gone := by
 induction gone generalizing m with
 | nil => exact (List.append_nil _).symm
 | cons k gone ih =>
  change ((m.unregister k).unregisterAll gone).unregistered = _
  rw [ih]
  exact List.append_assoc m.unregistered [k] gone

theorem unregisterAll_registered (gone rest : List DriverInstance)
 (perm : m.registered.Perm (gone ++ rest)) : (m.unregisterAll gone).registered.Perm rest := by
 induction gone generalizing m with
 | nil => exact perm
 | cons k gone ih =>
  apply ih (m.unregister k)
  have erased := perm.erase k
  rw [List.cons_append, List.erase_cons_head] at erased
  exact erased

theorem afterRemove_keys (cmdId : RemoveCmd) (info : UsbPnpRemoveInfo) (e : UsbPnpDeviceListTable) :
 liveKeys [e] = unregisteredBy info e ++ liveKeys (afterRemove cmdId info e) := by
 unfold unregisteredBy afterRemove
 by_cases sel : selected info e = true
 · have gone : liveKeys (if cmdId = .removeInterface then [{ e with status := .remove }] else []) =
    [] := by
    split
    · rfl
    · rfl
   rw [if_pos sel, gone, liveKeys_cons]
   by_cases live : Live e
   · rw [if_pos live, if_pos ⟨sel, live⟩]
     rfl
   · rw [if_neg live, if_neg (fun h => live h.2)]
     rfl
 · rw [if_neg sel, if_neg (fun h => sel h.1)]
   rfl

theorem flatMap_keys (cmdId : RemoveCmd) (info : UsbPnpRemoveInfo)
 (list : List UsbPnpDeviceListTable) :
 (liveKeys list).Perm (list.flatMap (unregisteredBy info) ++
  liveKeys (list.flatMap (afterRemove cmdId info))) := by
 induction list with
 | nil => exact List.Perm.refl _
 | cons e rest ih =>
  rw [← List.singleton_append, liveKeys_append, afterRemove_keys cmdId info e,
   List.singleton_append, List.flatMap_cons, List.flatMap_cons, liveKeys_append,
   List.append_assoc, List.append_assoc]
  refine List.Perm.append_left _ ?_
  refine (ih.append_left _).trans ?_
  rw [← List.append_assoc, ← List.append_assoc]
  exact List.perm_append_comm.append_right _

theorem act_remove (s : PnpLoader) (cmdId : RemoveCmd) (info : UsbPnpRemoveInfo)
 (grants : ℕ → RemoveGrants) :
 s.act (.remove cmdId info grants) =
  ⟨(s.deviceList.take (passed info s.deviceList grants)).flatMap (afterRemove cmdId info) ++
   s.deviceList.drop (passed info s.deviceList grants),
   s.manager.unregisterAll
    ((s.deviceList.take (passed info s.deviceList grants)).flatMap (unregisteredBy info))⟩ := by
 have walk := removeLoop_spec s.deviceList cmdId info grants s.manager
 change (s.removeDevice cmdId info grants).2 = _
 unfold PnpLoader.removeDevice
 by_cases empty : s.deviceList = []
 · rw [if_pos empty]
   obtain ⟨list, manager⟩ := s
   cases empty
   rfl
 · rw [if_neg empty]
   change (⟨(removeLoop cmdId info s.deviceList grants s.manager).2.1,
    (removeLoop cmdId info s.deviceList grants s.manager).2.2⟩ : PnpLoader) = _
   rw [walk]

section Removal

variable {cmdId : RemoveCmd} {removal : UsbPnpRemoveInfo}
  {taken dropped : List UsbPnpDeviceListTable}

theorem registered_split (cmdId : RemoveCmd) (removal : UsbPnpRemoveInfo) (inv : Inv s)
 (whole : s.deviceList = taken ++ dropped) :
 s.manager.registered.Perm (taken.flatMap (unregisteredBy removal) ++
  liveKeys (taken.flatMap (afterRemove cmdId removal) ++ dropped)) := by
 refine inv.perm.trans ?_
 rw [whole, liveKeys_append, liveKeys_append, ← List.append_assoc]
 exact (flatMap_keys cmdId removal taken).append_right _

theorem inv_removed (cmdId : RemoveCmd) (removal : UsbPnpRemoveInfo) (inv : Inv s)
 (whole : s.deviceList = taken ++ dropped) :
 Inv ⟨taken.flatMap (afterRemove cmdId removal) ++ dropped,
  s.manager.unregisterAll (taken.flatMap (unregisteredBy removal))⟩ := by
 have split := registered_split cmdId removal inv whole
 have left := unregisterAll_registered s.manager _ _ split
 refine ⟨left, left.nodup_iff.mpr ?_⟩
 exact (List.nodup_append.mp (split.nodup_iff.mp inv.nodup)).2.1

theorem others_afterRemove_iff (e : UsbPnpDeviceListTable) :
 others removal.toUsbDevice (afterRemove cmdId removal e) = others removal.toUsbDevice [e] ↔
  (selected removal e = true →
   e.device = removal.toUsbDevice ∨ (cmdId = .removeInterface ∧ ¬Live e)) := by
 unfold afterRemove
 by_cases sel : selected removal e = true
 · rw [if_pos sel, forall_prop_of_true sel]
   by_cases own : e.device = removal.toUsbDevice
   · refine iff_of_true ?_ (.inl own)
     rw [others_single_own own]
     split
     · exact others_single_own (e := { e with status := .remove }) own
     · rfl
   rw [others_single own]
   by_cases keep : cmdId = .removeInterface
   · rw [if_pos keep, others_single (e := { e with status := .remove }) own]
     constructor
     · intro same
       have removed := congrArg UsbPnpDeviceListTable.status (List.cons.inj same).1
       exact .inr ⟨keep, fun live => live removed.symm⟩
     · intro h
       have removed : e.status = .remove := not_not.mp (h.resolve_left own).2
       obtain ⟨key, status, interfaces⟩ := e
       cases removed
       rfl
   · rw [if_neg keep]
     refine iff_of_false (fun same => by cases same) ?_
     rintro (own' | ⟨keep', -⟩)
     · exact own own'
     · exact keep keep'
 · rw [if_neg sel]
   exact iff_of_true rfl fun h => absurd h sel

theorem others_removed_iff (cmdId : RemoveCmd) (removal : UsbPnpRemoveInfo)
 (whole : s.deviceList = taken ++ dropped) :
 others removal.toUsbDevice (taken.flatMap (afterRemove cmdId removal) ++ dropped) =
  others removal.toUsbDevice s.deviceList ↔
  ∀ e ∈ taken, selected removal e = true →
   e.device = removal.toUsbDevice ∨ (cmdId = .removeInterface ∧ ¬Live e) := by
 rw [whole, others_append, others_append, List.append_left_inj, others_flatMap_iff]
 · exact forall₂_congr fun e _ => others_afterRemove_iff e
 · intro e
   unfold afterRemove
   split
   · split
     · by_cases own : e.device = removal.toUsbDevice
       · rw [others_single_own own, others_single_own (e := { e with status := .remove }) own]
       · rw [others_single own, others_single (e := { e with status := .remove }) own]
         exact Nat.le_refl _
     · exact Nat.zero_le _
   · exact Nat.le_refl _

theorem mem_unregisteredBy (k : DriverInstance) :
 k ∈ taken.flatMap (unregisteredBy removal) ↔
  ∃ e ∈ taken, (selected removal e = true ∧ Live e) ∧ e.toDriverInstance = k := by
 rw [List.mem_flatMap]
 apply exists_congr
 intro e
 refine and_congr_right fun _ => ?_
 unfold unregisteredBy
 split_ifs with h
 · rw [List.mem_singleton]
   exact ⟨fun same => ⟨h, same.symm⟩, fun same => same.2.symm⟩
 · exact iff_of_false List.not_mem_nil fun same => h same.1

theorem mem_liveKeys (he : e ∈ list) (live : Live e) : e.toDriverInstance ∈ liveKeys list :=
 List.mem_map_of_mem (List.mem_filter.mpr ⟨he, decide_eq_true live⟩)

theorem live_unique {e' : UsbPnpDeviceListTable} (nodup : (liveKeys list).Nodup) (he : e ∈ list)
 (he' : e' ∈ list) (live : Live e) (live' : Live e')
 (same : e.toDriverInstance = e'.toDriverInstance) : e = e' :=
 List.inj_on_of_nodup_map nodup (List.mem_filter.mpr ⟨he, decide_eq_true live⟩)
  (List.mem_filter.mpr ⟨he', decide_eq_true live'⟩) same

theorem unregisters_iff (inv : Inv s) (whole : s.deviceList = taken ++ dropped)
 (own : ∀ e ∈ taken, selected removal e = true → e.device = removal.toUsbDevice) :
 (∀ k, k ∈ taken.flatMap (unregisteredBy removal) ↔
  k ∈ s.manager.registered ∧ k.device = removal.toUsbDevice) ↔
  (∀ e ∈ taken, Live e → e.device = removal.toUsbDevice → selected removal e = true) ∧
   ∀ e ∈ dropped, e.device = removal.toUsbDevice → ¬Live e := by
 have keys : (liveKeys (taken ++ dropped)).Nodup := whole ▸ inv.perm.nodup_iff.mp inv.nodup
 have registered : ∀ k, k ∈ s.manager.registered ↔
  ∃ e ∈ taken ++ dropped, Live e ∧ e.toDriverInstance = k := by
  intro k
  rw [mem_registered inv, whole]
 constructor
 · intro all
   refine ⟨?_, ?_⟩
   · intro e he live device
     have inList := List.mem_append_left dropped he
     obtain ⟨e', he', ⟨sel, live'⟩, same⟩ := (mem_unregisteredBy _).mp
      ((all _).mpr ⟨(registered _).mpr ⟨e, inList, live, rfl⟩, device⟩)
     rw [live_unique keys inList (List.mem_append_left dropped he') live live' same.symm]
     exact sel
   · intro e he device live
     obtain ⟨e', he', ⟨-, live'⟩, same⟩ := (mem_unregisteredBy _).mp
      ((all _).mpr ⟨(registered _).mpr ⟨e, List.mem_append_right taken he, live, rfl⟩, device⟩)
     rw [liveKeys_append] at keys
     exact (List.nodup_append.mp keys).2.2 _ (mem_liveKeys he' live') _ (mem_liveKeys he live) same
 · rintro ⟨passes, ends⟩ k
   rw [mem_unregisteredBy, registered]
   constructor
   · rintro ⟨e, he, ⟨sel, live⟩, rfl⟩
     exact ⟨⟨e, List.mem_append_left dropped he, live, rfl⟩, own e he sel⟩
   · rintro ⟨⟨e, he, live, rfl⟩, device⟩
     rcases List.mem_append.mp he with he | he
     · exact ⟨e, he, ⟨passes e he live device, live⟩, rfl⟩
     · exact absurd live (ends e he device)

theorem unregisters_gone_iff (inv : Inv s) (whole : s.deviceList = taken ++ dropped) :
 (∃ gone, (s.manager.unregisterAll (taken.flatMap (unregisteredBy removal))).unregistered =
    s.manager.unregistered ++ gone ∧ gone.Nodup ∧
  ∀ k, k ∈ gone ↔ k ∈ s.manager.registered ∧ k.device = removal.toUsbDevice) ↔
  ∀ k, k ∈ taken.flatMap (unregisteredBy removal) ↔
   k ∈ s.manager.registered ∧ k.device = removal.toUsbDevice := by
 have split := registered_split .removeDevice removal inv whole
 rw [unregisterAll_unregistered]
 constructor
 · rintro ⟨gone, same, -, all⟩
   rw [List.append_cancel_left same]
   exact all
 · intro all
   exact ⟨_, rfl, (List.nodup_append.mp (split.nodup_iff.mp inv.nodup)).1, all⟩

theorem right_remove_iff (inv : Inv s) (grants : ℕ → RemoveGrants) :
 Right s (.remove cmdId removal grants) ↔ Meets s (.remove cmdId removal grants) := by
 have whole := (List.take_append_drop (passed removal s.deviceList grants) s.deviceList).symm
 have run := act_remove s cmdId removal grants
 have after := inv_removed cmdId removal inv whole
 have kept := others_removed_iff cmdId removal whole
 unfold Right
 rw [run]
 constructor
 · rintro ⟨-, -, same, gone⟩
   have own := kept.mp same
   refine ⟨own, ?_⟩
   rintro rfl
   apply (unregisters_iff inv whole fun e he sel => ?_).mp
    ((unregisters_gone_iff inv whole).mp gone)
   exact (own e he sel).resolve_right fun h => by cases h.1
 · rintro ⟨own, gone⟩
   refine ⟨inv_agrees after, after.nodup, kept.mpr own, ?_⟩
   cases cmdId with
   | removeInterface => trivial
   | removeDevice =>
    apply (unregisters_gone_iff inv whole).mpr
    apply (unregisters_iff inv whole fun e he sel => ?_).mpr (gone rfl)
    exact (own e he sel).resolve_right fun h => by cases h.1

end Removal

def assigned (info : UsbDevice) (idTable : UsbPnpMatchIdTable) (e : UsbPnpDeviceListTable) :
  UsbPnpDeviceListTable :=
 if sameName info idTable e then
  if info.devNum ≠ 0 then { e with devNum := info.devNum, busNum := info.busNum }
  else { e with devNum := info.devNum }
 else e

theorem addInterface_improper (list : List UsbPnpDeviceListTable) (idTable : UsbPnpMatchIdTable)
 (improper : ¬(info.devNum ≠ 0 ∧ info.busNum ≠ 0)) :
 addInterface info idTable list = (none, list.map (assigned info idTable)) := by
 induction list with
 | nil => rfl
 | cons e rest ih =>
  rw [List.map_cons, addInterface, ih, assigned]
  by_cases same : sameName info idTable e = true
  · rw [if_pos same, if_pos same]
    by_cases dev : info.devNum ≠ 0
    · rw [if_pos dev, if_pos dev, if_neg (fun bus => improper ⟨dev, bus⟩)]
      rfl
    · rw [if_neg dev, if_neg dev]
      rfl
  · rw [if_neg same, if_neg same]
    rfl

theorem addInterface_proper (list : List UsbPnpDeviceListTable) (idTable : UsbPnpMatchIdTable)
 (proper : info.devNum ≠ 0 ∧ info.busNum ≠ 0) :
 (list.find? (sameName info idTable) = none ∧ addInterface info idTable list = (none, list)) ∨
 ∃ before e after, list = before ++ e :: after ∧ sameName info idTable e = true ∧
  list.find? (sameName info idTable) = some e ∧
  addInterface info idTable list = (some before.length, before ++
   { e with devNum := info.devNum, busNum := info.busNum } :: after) := by
 induction list with
 | nil => exact .inl ⟨rfl, rfl⟩
 | cons e rest ih =>
  by_cases same : sameName info idTable e = true
  · refine .inr ⟨[], e, rest, rfl, same, List.find?_cons_of_pos same, ?_⟩
    rw [addInterface, if_pos same, if_pos proper.1, if_pos proper.2]
    rfl
  rw [List.find?_cons_of_neg same]
  rcases ih with ⟨none, run⟩ | ⟨before, e', after, rfl, same', found, run⟩
  · refine .inl ⟨none, ?_⟩
    rw [addInterface, if_neg same, run]
    rfl
  · refine .inr ⟨e :: before, e', after, rfl, same', found, ?_⟩
    rw [addInterface, if_neg same, run]
    rfl

theorem sameName_addr (same : sameName info idTable e = true) : e.usbDevAddr = info.usbDevAddr :=
 (of_decide_eq_true same).2.2.2

theorem sameName_instance (same : sameName info idTable e = true)
 (dev : e.devNum = info.devNum) (bus : e.busNum = info.busNum) :
 e.toDriverInstance = instanceOf info idTable := by
 obtain ⟨module, service, attr, addr⟩ := of_decide_eq_true same
 obtain ⟨⟨m, s, a, addr', n, b⟩, status, interfaces⟩ := e
 cases module
 cases service
 cases attr
 cases addr
 cases dev
 cases bus
 rfl

theorem modify_middle (before after : List UsbPnpDeviceListTable) (e : UsbPnpDeviceListTable)
 (f : UsbPnpDeviceListTable → UsbPnpDeviceListTable) :
 (before ++ e :: after).modify before.length f = before ++ f e :: after := by
 induction before with
 | nil => rfl
 | cons x before ih =>
  change (x :: (before ++ e :: after)).modify (before.length + 1) f = _
  rw [List.modify_succ_cons, ih]
  rfl

def AddGrants.refused (grants : AddGrants) : Prop :=
 grants.pnpData = false ∨ grants.registered = false

instance instDecidableRefused (grants : AddGrants) : Decidable grants.refused :=
 inferInstanceAs (Decidable (_ ∨ _))

section Addition

variable {cmdId : AddCmd} {grants : AddGrants} {before after : List UsbPnpDeviceListTable}
  {e : UsbPnpDeviceListTable}

theorem act_add_none (s : PnpLoader) (cmdId : AddCmd) (grants : AddGrants)
 (run : addInterface info idTable s.deviceList = (none, list)) :
 s.act (.add cmdId info idTable grants) =
  if grants.refused then ⟨list, s.manager⟩
  else if cmdId ≠ .addInterface ∧ grants.entry = true then
   ⟨list ++ [⟨instanceOf info idTable, .add, idTable.interfaceNumber⟩],
    s.manager.register (instanceOf info idTable)⟩
  else ⟨list, s.manager.register (instanceOf info idTable)⟩ := by
 change (s.addPnpDevice cmdId info idTable grants).2 = _
 unfold PnpLoader.addPnpDevice
 rw [run]
 obtain ⟨data, registered, entry⟩ := grants
 cases data
 · rfl
 cases registered
 · rfl
 by_cases interface : cmdId = .addInterface
 · rw [interface]
   rfl
 · cases entry
   · simp [AddGrants.refused, interface]
   · simp [AddGrants.refused, interface, PnpLoader.deviceListAdd]

theorem act_add_some (s : PnpLoader) (cmdId : AddCmd) (grants : AddGrants)
 (run : addInterface info idTable s.deviceList = (some before.length, before ++ e :: after)) :
 s.act (.add cmdId info idTable grants) =
  if Live e ∨ grants.refused then ⟨before ++ e :: after, s.manager⟩
  else if cmdId = .addInterface then
   ⟨before ++ { e with status := .add } :: after, s.manager.register (instanceOf info idTable)⟩
  else if grants.entry = true then
   ⟨before ++ e :: after ++ [⟨instanceOf info idTable, .add, idTable.interfaceNumber⟩],
    s.manager.register (instanceOf info idTable)⟩
  else ⟨before ++ e :: after, s.manager.register (instanceOf info idTable)⟩ := by
 change (s.addPnpDevice cmdId info idTable grants).2 = _
 unfold PnpLoader.addPnpDevice
 rw [run]
 have there : (before ++ e :: after)[before.length]? = some e := by
  rw [List.getElem?_append_right (Nat.le_refl _), Nat.sub_self]
  rfl
 simp only [Option.bind_some, there, Option.any_some, decide_eq_true_eq]
 by_cases live : Live e
 · rw [if_pos (show e.status ≠ .remove from live), if_pos (.inl live)]
 rw [if_neg (show ¬e.status ≠ .remove from live)]
 obtain ⟨data, registered, entry⟩ := grants
 cases data
 · have refused : Live e ∨ (⟨false, registered, entry⟩ : AddGrants).refused := .inr (.inl rfl)
   rw [if_pos refused]
   rfl
 cases registered
 · have refused : Live e ∨ (⟨true, false, entry⟩ : AddGrants).refused := .inr (.inr rfl)
   rw [if_pos refused]
   rfl
 have asked : ¬(Live e ∨ (⟨true, true, entry⟩ : AddGrants).refused) := by
  rintro (live' | data | registered)
  · exact live live'
  · cases data
  · cases registered
 have granted : ¬true = false := Bool.noConfusion
 rw [if_neg granted, if_neg granted, if_neg asked]
 by_cases interface : cmdId = .addInterface
 · rw [if_pos interface, if_pos interface, modify_middle]
 · rw [if_neg interface, if_neg interface]
   cases entry
   · rfl
   · rfl

theorem agrees_register_new (inv : Inv s) (new : instanceOf info idTable ∉ s.manager.registered) :
 Inv ⟨s.deviceList ++ [⟨instanceOf info idTable, .add, idTable.interfaceNumber⟩],
  s.manager.register (instanceOf info idTable)⟩ := by
 refine ⟨?_, List.nodup_cons.mpr ⟨new, inv.nodup⟩⟩
 change (instanceOf info idTable :: s.manager.registered).Perm (liveKeys (s.deviceList ++ [_]))
 rw [liveKeys_append]
 exact ((inv.perm.cons _).trans (List.perm_append_singleton _ _).symm)

theorem agrees_register_again (inv : Inv s) (whole : s.deviceList = before ++ e :: after)
 (dead : ¬Live e) (key : e.toDriverInstance = instanceOf info idTable)
 (new : instanceOf info idTable ∉ s.manager.registered) :
 Inv ⟨before ++ { e with status := .add } :: after,
  s.manager.register (instanceOf info idTable)⟩ := by
 refine ⟨?_, List.nodup_cons.mpr ⟨new, inv.nodup⟩⟩
 have perm := inv.perm
 rw [whole, liveKeys_append, liveKeys_cons, if_neg dead] at perm
 change (instanceOf info idTable :: s.manager.registered).Perm (liveKeys (before ++ _ :: after))
 rw [liveKeys_append, liveKeys_cons, if_pos (show Live { e with status := .add } from
  fun removed => UsbPnpDriverStatus.noConfusion removed)]
 change List.Perm _ (liveKeys before ++ ([e.toDriverInstance] ++ liveKeys after))
 rw [key]
 exact (perm.cons _).trans List.perm_middle.symm

theorem register_alone (inv : Inv s) (same : liveKeys list = liveKeys s.deviceList)
 (agrees : Agrees ⟨list, s.manager.register (instanceOf info idTable)⟩)
 (nodup : (s.manager.register (instanceOf info idTable)).registered.Nodup) : False := by
 have new : instanceOf info idTable ∉ s.manager.registered := (List.nodup_cons.mp nodup).1
 have once := (agrees (instanceOf info idTable)).mp List.mem_cons_self
 change (liveKeys list).count (instanceOf info idTable) = 1 at once
 rw [same, ← inv.perm.count_eq, List.count_eq_zero_of_not_mem new] at once
 cases once

theorem assigned_same (same : sameName info idTable e = true →
 e.devNum = info.devNum ∧ (info.devNum ≠ 0 → e.busNum = info.busNum)) :
 assigned info idTable e = e := by
 unfold assigned
 split_ifs with named dev
 · obtain ⟨num, bus⟩ := same named
   have bus := bus dev
   obtain ⟨⟨m, s, a, addr, n, b⟩, status, interfaces⟩ := e
   cases num
   cases bus
   rfl
 · have num := (same named).1
   obtain ⟨⟨m, s, a, addr, n, b⟩, status, interfaces⟩ := e
   cases num
   rfl
 · rfl

theorem search_keeps (keeps : SearchKeeps s info idTable) :
 (found s info idTable = none ∧ addInterface info idTable s.deviceList = (none, s.deviceList)) ∨
 ∃ before e after, s.deviceList = before ++ e :: after ∧ found s info idTable = some e ∧
  e.toDriverInstance = instanceOf info idTable ∧
  addInterface info idTable s.deviceList = (some before.length, before ++ e :: after) := by
 unfold SearchKeeps at keeps
 by_cases proper : info.devNum ≠ 0 ∧ info.busNum ≠ 0
 · rw [if_pos proper] at keeps
   have look : found s info idTable = s.deviceList.find? (sameName info idTable) := if_pos proper
   rcases addInterface_proper s.deviceList idTable proper with
    ⟨none, run⟩ | ⟨before, e, after, whole, same, first, run⟩
   · exact .inl ⟨look.trans none, run⟩
   · obtain ⟨dev, bus⟩ := keeps e (look.trans first)
     refine .inr ⟨before, e, after, whole, look.trans first, sameName_instance same dev bus, ?_⟩
     rw [run]
     obtain ⟨⟨m, s, a, addr, n, b⟩, status, interfaces⟩ := e
     cases dev
     cases bus
     rfl
 · rw [if_neg proper] at keeps
   refine .inl ⟨if_neg proper, ?_⟩
   have unchanged : s.deviceList.map (assigned info idTable) = s.deviceList := by
    refine (List.map_congr_left fun e he => ?_).trans (List.map_id _)
    exact assigned_same (keeps e he)
   rw [addInterface_improper s.deviceList idTable proper, unchanged]

theorem assigned_shorter (e : UsbPnpDeviceListTable) :
 (others info [assigned info idTable e]).length ≤ (others info [e]).length := by
 by_cases own : e.device = info
 · have same : assigned info idTable e = e := by
    apply assigned_same
    intro _
    rw [← own]
    exact ⟨rfl, fun _ => rfl⟩
   rw [same]
 · rw [others_single own]
   exact List.length_filter_le _ _

theorem search_changes (changes : ¬SearchKeeps s info idTable) :
 others info (addInterface info idTable s.deviceList).2 ≠ others info s.deviceList := by
 unfold SearchKeeps at changes
 by_cases proper : info.devNum ≠ 0 ∧ info.busNum ≠ 0
 · rw [if_pos proper] at changes
   have look : found s info idTable = s.deviceList.find? (sameName info idTable) := if_pos proper
   rcases addInterface_proper s.deviceList idTable proper with
    ⟨none, -⟩ | ⟨before, e, after, whole, same, first, run⟩
   · refine absurd (fun e he => ?_) changes
     rw [look, none] at he
     cases he
   · have foreign : e.device ≠ info := by
      rintro rfl
      refine changes fun e' he' => ?_
      rw [look, first] at he'
      cases he'
      exact ⟨rfl, rfl⟩
     have own : DriverInstance.device
      { e with devNum := info.devNum, busNum := info.busNum }.toDriverInstance = info := by
      change (⟨e.usbDevAddr, info.devNum, info.busNum⟩ : UsbDevice) = info
      rw [sameName_addr same]
     rw [run, whole, others_append, others_append, ← List.singleton_append, others_append,
      others_single_own own, ← List.singleton_append (l := after), others_append,
      others_single foreign]
     intro eq
     have length := congrArg List.length eq
     simp only [List.length_append, List.length_singleton, List.length_nil] at length
     omega
 · rw [if_neg proper] at changes
   rw [addInterface_improper s.deviceList idTable proper, List.map_eq_flatMap]
   intro same
   apply changes
   have each := (others_flatMap_iff info _ fun e => assigned_shorter e).mp same
   intro e he named
   by_cases own : e.device = info
   · rw [← own]
     exact ⟨rfl, fun _ => rfl⟩
   have kept := each e he
   rw [others_single own] at kept
   have eq : assigned info idTable e = e :=
    List.mem_singleton.mp ((List.mem_filter.mp (kept ▸ List.mem_singleton_self e)).1) |>.symm
   rw [assigned, if_pos named] at eq
   split_ifs at eq with dev
   · rw [← eq]
     exact ⟨rfl, fun _ => rfl⟩
   · rw [← eq]
     exact ⟨rfl, fun proper => absurd proper dev⟩

theorem others_act (s : PnpLoader) (cmdId : AddCmd) (grants : AddGrants) :
 others info (s.act (.add cmdId info idTable grants)).deviceList =
  others info (addInterface info idTable s.deviceList).2 := by
 have added : others info [⟨instanceOf info idTable, .add, idTable.interfaceNumber⟩] = [] :=
  others_single_own rfl
 by_cases proper : info.devNum ≠ 0 ∧ info.busNum ≠ 0
 · rcases addInterface_proper s.deviceList idTable proper with
    ⟨-, run⟩ | ⟨before, e, after, -, same, -, run⟩
   · rw [act_add_none s cmdId grants run, run]
     split_ifs
     · rfl
     · rw [others_append, added, List.append_nil]
     · rfl
   · have own : ∀ status, others info [⟨⟨e.moduleName, e.serviceName, e.deviceMatchAttr,
      e.usbDevAddr, info.devNum, info.busNum⟩, status, e.interfaceNumber⟩] = [] := by
      intro status
      apply others_single_own
      change (⟨e.usbDevAddr, info.devNum, info.busNum⟩ : UsbDevice) = info
      rw [sameName_addr same]
     rw [act_add_some s cmdId grants run, run]
     split_ifs
     · rfl
     · rw [others_append, others_append, ← List.singleton_append, others_append, own,
        ← List.singleton_append (l := after), others_append, own]
     · rw [others_append, added, List.append_nil]
     · rfl
 · have run := addInterface_improper s.deviceList idTable proper
   rw [act_add_none s cmdId grants run, run]
   split_ifs
   · rfl
   · rw [others_append, added, List.append_nil]
   · rfl

theorem right_unchanged (inv : Inv s) (same : s.act (.add cmdId info idTable grants) = s) :
 Right s (.add cmdId info idTable grants) := by
 unfold Right
 rw [same]
 exact ⟨inv_agrees inv, inv.nodup, rfl, trivial⟩

theorem right_of_inv (inv : Inv (s.act (.add cmdId info idTable grants)))
 (keeps : (addInterface info idTable s.deviceList).2 = s.deviceList) :
 Right s (.add cmdId info idTable grants) := by
 refine ⟨inv_agrees inv, inv.nodup, ?_, trivial⟩
 exact (others_act s cmdId grants).trans (congrArg _ keeps)

theorem wrong_alone (inv : Inv s) (same : liveKeys list = liveKeys s.deviceList)
 (alone : s.act (.add cmdId info idTable grants) =
  ⟨list, s.manager.register (instanceOf info idTable)⟩) :
 ¬Right s (.add cmdId info idTable grants) := by
 rintro ⟨agrees, nodup, -⟩
 rw [alone] at agrees nodup
 exact register_alone inv same agrees nodup

theorem wrong_again (old : instanceOf info idTable ∈ s.manager.registered)
 (again : (s.act (.add cmdId info idTable grants)).manager =
  s.manager.register (instanceOf info idTable)) :
 ¬Right s (.add cmdId info idTable grants) := by
 rintro ⟨-, nodup, -⟩
 rw [again] at nodup
 exact (List.nodup_cons.mp nodup).1 old

theorem right_none_iff (inv : Inv s)
 (run : addInterface info idTable s.deviceList = (none, s.deviceList)) :
 Right s (.add cmdId info idTable grants) ↔ grants.refused ∨
  (instanceOf info idTable ∉ s.manager.registered ∧ cmdId ≠ .addInterface ∧
   grants.entry = true) := by
 have act := act_add_none s cmdId grants run
 by_cases refused : grants.refused
 · rw [if_pos refused] at act
   exact iff_of_true (right_unchanged inv act) (.inl refused)
 rw [if_neg refused] at act
 by_cases kept : cmdId ≠ .addInterface ∧ grants.entry = true
 · rw [if_pos kept] at act
   by_cases old : instanceOf info idTable ∈ s.manager.registered
   · refine iff_of_false (wrong_again old (by rw [act])) ?_
     rintro (h | ⟨new, -⟩)
     · exact refused h
     · exact new old
   · refine iff_of_true (right_of_inv ?_ (by rw [run])) (.inr ⟨old, kept⟩)
     rw [act]
     exact agrees_register_new inv old
 · rw [if_neg kept] at act
   refine iff_of_false (wrong_alone inv rfl act) ?_
   rintro (h | ⟨-, h⟩)
   · exact refused h
   · exact kept h

theorem right_some_iff (inv : Inv s) (whole : s.deviceList = before ++ e :: after)
 (key : e.toDriverInstance = instanceOf info idTable)
 (run : addInterface info idTable s.deviceList = (some before.length, before ++ e :: after)) :
 Right s (.add cmdId info idTable grants) ↔ (Live e ∨ grants.refused) ∨
  (instanceOf info idTable ∉ s.manager.registered ∧
   (cmdId ≠ .addInterface → grants.entry = true)) := by
 have act := act_add_some s cmdId grants run
 have keeps : (addInterface info idTable s.deviceList).2 = s.deviceList := by rw [run, whole]
 by_cases closed : Live e ∨ grants.refused
 · rw [if_pos closed, ← whole] at act
   exact iff_of_true (right_unchanged inv act) (.inl closed)
 rw [if_neg closed] at act
 have dead : ¬Live e := fun live => closed (.inl live)
 by_cases old : instanceOf info idTable ∈ s.manager.registered
 · refine iff_of_false (wrong_again old ?_) ?_
   · rw [act]
     split_ifs
     · rfl
     · rfl
     · rfl
   · rintro (h | ⟨new, -⟩)
     · exact closed h
     · exact new old
 by_cases interface : cmdId = .addInterface
 · rw [if_pos interface] at act
   refine iff_of_true (right_of_inv ?_ keeps) (.inr ⟨old, fun other => absurd interface other⟩)
   rw [act]
   exact agrees_register_again inv whole dead key old
 rw [if_neg interface] at act
 by_cases entry : grants.entry = true
 · rw [if_pos entry, ← whole] at act
   refine iff_of_true (right_of_inv ?_ keeps) (.inr ⟨old, fun _ => entry⟩)
   rw [act]
   exact agrees_register_new inv old
 · rw [if_neg entry, ← whole] at act
   refine iff_of_false (wrong_alone inv rfl act) ?_
   rintro (h | ⟨-, h⟩)
   · exact closed h
   · exact entry (h interface)

theorem right_add_iff (inv : Inv s) :
 Right s (.add cmdId info idTable grants) ↔ Meets s (.add cmdId info idTable grants) := by
 change _ ↔ SearchKeeps s info idTable ∧ _
 by_cases keeps : SearchKeeps s info idTable
 · rw [and_iff_right keeps]
   rcases search_keeps keeps with ⟨none, run⟩ | ⟨before, e, after, whole, look, key, run⟩
   · rw [right_none_iff inv run, none]
     constructor
     · rintro ((data | registered) | ⟨new, other, entry⟩)
       · exact .inr (.inl data)
       · exact .inr (.inr (.inl registered))
       · exact .inr (.inr (.inr ⟨new, fun same => absurd same other, fun _ => entry⟩))
     · rintro (⟨e, he, -⟩ | data | registered | ⟨new, look, entry⟩)
       · cases he
       · exact .inl (.inl data)
       · exact .inl (.inr registered)
       · have other : cmdId ≠ .addInterface := fun same => look same rfl
         exact .inr ⟨new, other, entry other⟩
   · rw [right_some_iff inv whole key run, look]
     constructor
     · rintro ((live | data | registered) | ⟨new, entry⟩)
       · exact .inl ⟨e, rfl, live⟩
       · exact .inr (.inl data)
       · exact .inr (.inr (.inl registered))
       · exact .inr (.inr (.inr ⟨new, fun _ => Option.some_ne_none e, entry⟩))
     · rintro (⟨e', he', live⟩ | data | registered | ⟨new, -, entry⟩)
       · cases he'
         exact .inl (.inl live)
       · exact .inl (.inr (.inl data))
       · exact .inl (.inr (.inr registered))
       · exact .inr ⟨new, entry⟩
 · refine iff_of_false (fun right => ?_) fun h => keeps h.1
   exact search_changes keeps ((others_act s cmdId grants).symm.trans right.2.2.1)

theorem inv_added (inv : Inv s) (right : Right s (.add cmdId info idTable grants)) :
 Inv (s.act (.add cmdId info idTable grants)) := by
 have meets := (right_add_iff inv).mp right
 rcases search_keeps meets.1 with ⟨-, run⟩ | ⟨before, e, after, whole, -, key, run⟩
 · have granted := (right_none_iff inv run).mp right
   have act := act_add_none s cmdId grants run
   by_cases refused : grants.refused
   · rw [act, if_pos refused]
     exact inv
   · obtain ⟨new, kept⟩ := granted.resolve_left refused
     rw [act, if_neg refused, if_pos kept]
     exact agrees_register_new inv new
 · have granted := (right_some_iff inv whole key run).mp right
   have act := act_add_some s cmdId grants run
   by_cases closed : Live e ∨ grants.refused
   · rw [act, if_pos closed, ← whole]
     exact inv
   obtain ⟨new, entry⟩ := granted.resolve_left closed
   by_cases interface : cmdId = .addInterface
   · rw [act, if_neg closed, if_pos interface]
     exact agrees_register_again inv whole (fun live => closed (.inl live)) key new
   · rw [act, if_neg closed, if_neg interface, if_pos (entry interface), ← whole]
     exact agrees_register_new inv new

end Addition

theorem right_iff_meets (inv : Inv s) (call : PnpCall) : Right s call ↔ Meets s call := by
 cases call with
 | add cmdId info idTable grants => exact right_add_iff inv
 | remove cmdId info grants => exact right_remove_iff inv grants

theorem inv_act (inv : Inv s) (call : PnpCall) (right : Right s call) : Inv (s.act call) := by
 cases call with
 | add cmdId info idTable grants => exact inv_added inv right
 | remove cmdId info grants =>
  rw [act_remove]
  exact inv_removed cmdId info inv (List.take_append_drop _ _).symm

/-- One call of an event, which is always defined. -/
def PnpLoader.step (s : PnpLoader) (call : PnpCall) : Option PnpLoader := some (s.act call)

/-- Through a sequence of events, the list agrees with what is registered, nothing is registered
twice, a removed device is unregistered and other devices' entries are left alone, exactly if no
call of an event goes wrong. -/
theorem instances_right_iff (events : List PnpEvent) :
    Along PnpLoader.step Right .start (events.flatMap PnpEvent.calls) ↔
      Along PnpLoader.step Meets .start (events.flatMap PnpEvent.calls) := by
  apply along_congr_of_keep
  · rintro s call t inv right hstep
    cases hstep
    exact inv_act inv call right
  · exact fun s call inv => right_iff_meets inv call
  · exact ⟨List.Perm.refl _, List.nodup_nil⟩

/-- After the removal of an interface, the entry that is left behind hides the one that a report
adds, and the next report registers the driver again. -/
theorem reported_twice : ¬ ∀ events : List PnpEvent,
    Along PnpLoader.step Right .start (events.flatMap PnpEvent.calls) := by
  intro all
  let device : UsbDevice := ⟨100, 2, 1⟩
  let row : UsbPnpMatchIdTable := ⟨"usb_net", "usb_net_service", "usb_net_match", [0]⟩
  let granted : UsbPnpMatchIdTable × AddGrants := (row, ⟨true, true, true⟩)
  let removal : UsbPnpRemoveInfo := ⟨device, removeInterfaceNum, 0⟩
  let report : PnpCall := .add .reportInterface device row ⟨true, true, true⟩
  have right := all [.device .addDevice device [granted],
    .remove .removeInterface removal fun _ => ⟨true, true⟩,
    .device .reportInterface device [granted], .device .reportInterface device [granted]]
    [.add .addDevice device row ⟨true, true, true⟩,
      .remove .removeInterface removal fun _ => ⟨true, true⟩, report] report List.prefix_rfl _ rfl
  have once := right.2.1
  revert once
  decide

end DriversFramework.UsbPnp
