import Mathlib.Data.List.TakeWhile
import DriversFramework.InputDevices

namespace DriversFramework.Input

open RunRules

def Registry (s : InputState) : Prop :=
 ∀ m, s.manager = some m →
  m.inputDevList.Pairwise (fun d d' => (s.devices d).devId ≠ (s.devices d').devId) ∧
  (∀ d ∈ m.inputDevList, 1 ≤ (s.devices d).devId ∧ (s.devices d).devId ≤ maxInputDevNum) ∧
  m.devCount = m.inputDevList.length

def NothingLeft (s t : InputState) : Prop :=
 t.buffers.Sublist s.buffers ∧ t.nodes.Sublist s.nodes

/-- What a call has to do. -/
def CallRight (s t : InputState) : InputCall → Prop
 | .managerInit => True
 | .construct _ => True
 | .register dev grants => (s.registerInputDevice dev grants).1 ≠ .success → NothingLeft s t
 | .unregister dev => t.listed = s.listed.erase dev
 | .hidRegister devType grants =>
  (t.devices (s.hidRegisterHdfInputDev devType grants).1).freed = false ∧
  (((s.construct devType).2.registerInputDevice s.nextDev grants).1 ≠ .success → NothingLeft s t)
 | .hidUnregister dev => t.listed = s.listed.erase dev

def Right (s : InputState) (call : InputCall) : Prop :=
 ∀ t, s.step call = some t → Registry t ∧ CallRight s t call

def SecondBuffer (s : InputState) (devType : ℕ) (grants : Grants) : Prop :=
 ∃ m, s.manager = some m ∧ s.allocDeviceId m.inputDevList ≠ none ∧
  (isHidDevice devType = true → grants.node = true) ∧ defaultPkgNum devType ≠ none ∧
  grants.pkgBuf = true

/-- The calls that do not go wrong: a registration that asks for its second buffer gets it, and its
device is not on the list; the device to unregister is on the list or shares no number with one
that is; and the registration of a HID device succeeds once there is a manager. -/
def Meets (s : InputState) : InputCall → Prop
 | .managerInit => True
 | .construct _ => True
 | .register dev grants => s.Valid dev → SecondBuffer s (s.devices dev).devType grants →
   grants.eventBuf = true ∧ dev ∉ s.listed
 | .unregister dev => s.Valid dev → dev ∈ s.listed ∨
   ∀ d ∈ s.listed, (s.devices d).devId ≠ (s.devices dev).devId
 | .hidRegister devType grants => s.manager ≠ none →
   SecondBuffer s devType grants ∧ grants.eventBuf = true
 | .hidUnregister dev => s.Valid dev → dev ∈ s.listed ∨
   ∀ d ∈ s.listed, (s.devices d).devId ≠ (s.devices dev).devId

structure Given (s : InputState) : Prop where
 listed : ∀ d ∈ s.listed, d < s.nextDev
 buffers : ∀ b ∈ s.buffers, b < s.nextBuf

structure Inv (s : InputState) : Prop where
 registry : Registry s
 given : Given s

variable {s t u : InputState} {dev id : ℕ} {devType : ℕ} {grants : Grants} {m : InputManager}
  {ret : HdfStatus}

structure Frame (s t : InputState) (dev : ℕ) : Prop where
 manager : t.manager = s.manager
 nextDev : t.nextDev = s.nextDev
 others : ∀ d, d ≠ dev → t.devices d = s.devices d
 devId : (t.devices dev).devId = (s.devices dev).devId
 devType : (t.devices dev).devType = (s.devices dev).devType
 freed : (t.devices dev).freed = (s.devices dev).freed

theorem Frame.refl (s : InputState) (dev : ℕ) : Frame s s dev :=
 ⟨rfl, rfl, fun _ _ => rfl, rfl, rfl, rfl⟩

theorem Frame.trans (h : Frame s t dev) (h' : Frame t u dev) : Frame s u dev :=
 ⟨h'.manager.trans h.manager, h'.nextDev.trans h.nextDev,
  fun d hd => (h'.others d hd).trans (h.others d hd), h'.devId.trans h.devId,
  h'.devType.trans h.devType, h'.freed.trans h.freed⟩

@[simp] theorem setDevice_self (s : InputState) (dev : ℕ) (d : InputDevice) :
 (s.setDevice dev d).devices dev = d := by
 apply Function.update_self

theorem setDevice_other (s : InputState) (d : InputDevice) {dev' : ℕ} (h : dev' ≠ dev) :
 (s.setDevice dev d).devices dev' = s.devices dev' := by
 apply Function.update_of_ne h

theorem Frame.setDevice (h : Frame s t dev) (d : InputDevice)
 (devId : d.devId = (t.devices dev).devId) (type : d.devType = (t.devices dev).devType)
 (freed : d.freed = (t.devices dev).freed) : Frame s (t.setDevice dev d) dev := by
 refine h.trans ⟨rfl, rfl, fun _ hd => setDevice_other t d hd, ?_, ?_, ?_⟩
 · rw [setDevice_self, devId]
 · rw [setDevice_self, type]
 · rw [setDevice_self, freed]

theorem Frame.obtain (h : Frame s t dev) (granted : Bool) :
 Frame s (t.hdfSBufObtain granted).2 dev := by
 cases granted with
 | false => exact h
 | true => exact h.trans ⟨rfl, rfl, fun _ _ => rfl, rfl, rfl, rfl⟩

theorem deleteDeviceNode_frame (s : InputState) (dev : ℕ) :
 ∃ nodes, s.deleteDeviceNode dev = { s with nodes := nodes } ∧ nodes.Sublist s.nodes := by
 unfold InputState.deleteDeviceNode
 split
 · split
   · exact ⟨s.nodes, rfl, List.Sublist.refl _⟩
   · exact ⟨s.nodes.erase _, rfl, List.erase_sublist⟩
 · exact ⟨s.nodes, rfl, List.Sublist.refl _⟩

theorem createDeviceNode_cases (s : InputState) (dev : ℕ) (granted : Bool)
 (short : (s.devices dev).devId ≤ maxInputDevNum) :
 (¬(isHidDevice (s.devices dev).devType = true → granted = true) ∧
  s.createDeviceNode dev granted = (.devErrNoDevice, s)) ∨
 ((isHidDevice (s.devices dev).devType = true → granted = true) ∧
  ∃ nodes, s.createDeviceNode dev granted = (.success, { s with nodes := nodes }) ∧
   ∀ t, Frame s t dev → t.nodes = nodes → (t.deleteDeviceNode dev).nodes = s.nodes) := by
 have named : svcName (s.devices dev).devId =
  some ("hdf_input_event" ++ toString (s.devices dev).devId) := by
  apply if_pos
  change _ ≤ 32 at short
  change _ < 10 * 10
  omega
 unfold InputState.createDeviceNode InputState.hidRegisterHdfDevice
 rw [named]
 by_cases hid : isHidDevice (s.devices dev).devType = true
 · rw [if_pos hid]
   cases granted with
   | false => exact .inl ⟨fun h => Bool.noConfusion (h hid), rfl⟩
   | true =>
    refine .inr ⟨fun _ => rfl, _, rfl, fun t frame nodes => ?_⟩
    unfold InputState.deleteDeviceNode
    rw [frame.devType, frame.devId, named, if_pos hid]
    change t.nodes.erase _ = s.nodes
    rw [nodes]
    exact List.erase_cons_head _ _
 · rw [if_neg hid]
   refine .inr ⟨fun h => absurd h hid, s.nodes, rfl, fun t frame nodes => ?_⟩
   unfold InputState.deleteDeviceNode
   rw [frame.devType, if_neg hid]
   exact nodes

theorem allocPackageBuffer_cases (s : InputState) (dev : ℕ) (grants : Grants) :
 ∃ ret t, s.allocPackageBuffer dev grants = (ret, t) ∧ Frame s t dev ∧ t.nodes = s.nodes ∧
  ((¬(defaultPkgNum (s.devices dev).devType ≠ none ∧ grants.pkgBuf = true) ∧ ret ≠ .success ∧
   t.buffers = s.buffers ∧ t.nextBuf = s.nextBuf) ∨
   ((defaultPkgNum (s.devices dev).devType ≠ none ∧ grants.pkgBuf = true) ∧
    grants.eventBuf = false ∧ ret ≠ .success ∧ t.nextBuf = s.nextBuf + 1 ∧
    t.buffers = s.nextBuf :: s.buffers) ∨
   ((defaultPkgNum (s.devices dev).devType ≠ none ∧ grants.pkgBuf = true) ∧
    grants.eventBuf = true ∧ ret = .success ∧ t.nextBuf = s.nextBuf + 1 + 1 ∧
    t.buffers = (s.nextBuf + 1) :: s.nextBuf :: s.buffers)) := by
 unfold InputState.allocPackageBuffer
 cases type : defaultPkgNum (s.devices dev).devType with
 | none => exact ⟨_, _, rfl, .refl s dev, rfl, .inl ⟨fun h => h.1 rfl, by decide, rfl, rfl⟩⟩
 | some pkgNum =>
  obtain ⟨node, pkgBuf, eventBuf⟩ := grants
  cases pkgBuf with
  | false =>
   exact ⟨_, _, rfl, ((Frame.refl s dev).obtain false).setDevice _ rfl rfl rfl, rfl,
    .inl ⟨fun h => Bool.noConfusion h.2, by decide, rfl, rfl⟩⟩
  | true =>
   have known : some pkgNum ≠ none ∧ (true : Bool) = true := ⟨Option.some_ne_none pkgNum, rfl⟩
   have first := ((Frame.refl s dev).obtain true).setDevice
    { (s.hdfSBufObtain true).2.devices dev with pkgBuf := some s.nextBuf } rfl rfl rfl
   cases eventBuf with
   | false =>
    exact ⟨_, _, rfl, (first.obtain false).setDevice _ rfl rfl rfl, rfl,
     .inr (.inl ⟨known, rfl, by decide, rfl, rfl⟩)⟩
   | true =>
    refine ⟨_, _, rfl, ?_, rfl, .inr (.inr ⟨known, rfl, rfl, rfl, rfl⟩)⟩
    refine ((first.obtain true).setDevice _ ?_ ?_ ?_).setDevice _ ?_ ?_ ?_
    all_goals rfl

variable {call : InputCall} {list : List ℕ}

theorem allocDeviceId_fresh (h : s.allocDeviceId list = some id) :
 1 ≤ id ∧ id ≤ maxInputDevNum ∧ ∀ d ∈ list, (s.devices d).devId ≠ id := by
 have inside := List.mem_range'_1.mp (List.mem_of_find?_eq_some h)
 have free : decide (∀ d ∈ list, (s.devices d).devId ≠ id) = true :=
  List.find?_some (p := fun id => decide (∀ d ∈ list, (s.devices d).devId ≠ id)) h
 change 1 ≤ id ∧ id < 1 + 32 at inside
 change 1 ≤ id ∧ id ≤ 32 ∧ _
 exact ⟨inside.1, by omega, of_decide_eq_true free⟩

theorem allocDeviceId_congr (same : ∀ d ∈ list, t.devices d = s.devices d) :
 t.allocDeviceId list = s.allocDeviceId list := by
 unfold InputState.allocDeviceId
 congr 1
 funext id
 apply decide_eq_decide.mpr
 apply forall₂_congr
 intro d hd
 rw [same d hd]

structure Numbered (s t : InputState) (dev id : ℕ) : Prop where
 nextDev : t.nextDev = s.nextDev
 others : ∀ d, d ≠ dev → t.devices d = s.devices d
 devId : (t.devices dev).devId = id
 freed : (t.devices dev).freed = (s.devices dev).freed

theorem Numbered.then {t u : InputState} (h : Numbered s t dev id) (h' : Frame t u dev) :
 Numbered s u dev id :=
 ⟨h'.nextDev.trans h.nextDev, fun d hd => (h'.others d hd).trans (h.others d hd),
  h'.devId.trans h.devId, h'.freed.trans h.freed⟩

theorem numbered_setDevice (s : InputState) (dev id : ℕ) :
 Numbered s (s.setDevice dev { s.devices dev with devId := id }) dev id := by
 refine ⟨rfl, fun d hd => setDevice_other s _ hd, ?_, ?_⟩
 · rw [setDevice_self]
 · rw [setDevice_self]

theorem Numbered.deleteDeviceNode (h : Numbered s t dev id) :
 Numbered s (t.deleteDeviceNode dev) dev id := by
 obtain ⟨nodes, eq, -⟩ := deleteDeviceNode_frame t dev
 rw [eq]
 exact h.then ⟨rfl, rfl, fun _ _ => rfl, rfl, rfl, rfl⟩

inductive Registers (s : InputState) (m : InputManager) (dev : ℕ) (grants : Grants) :
  HdfStatus → InputState → Prop
 | noId (full : s.allocDeviceId m.inputDevList = none) : Registers s m dev grants .failure s
 | refused {ret : HdfStatus} {t : InputState} {id : ℕ}
   (early : ¬SecondBuffer s (s.devices dev).devType grants)
   (number : s.allocDeviceId m.inputDevList = some id) (failed : ret ≠ .success)
   (numbered : Numbered s t dev id) (manager : t.manager = some m)
   (buffers : t.buffers = s.buffers) (nextBuf : t.nextBuf = s.nextBuf)
   (nodes : t.nodes.Sublist s.nodes) : Registers s m dev grants ret t
 | lost {ret : HdfStatus} {t : InputState}
   (late : SecondBuffer s (s.devices dev).devType grants) (event : grants.eventBuf = false)
   (failed : ret ≠ .success) (nextDev : t.nextDev = s.nextDev) (manager : t.manager = some m)
   (buffers : t.buffers = s.nextBuf :: s.buffers) (nextBuf : t.nextBuf = s.nextBuf + 1) :
   Registers s m dev grants ret t
 | added {t : InputState} {id : ℕ}
   (late : SecondBuffer s (s.devices dev).devType grants) (event : grants.eventBuf = true)
   (number : s.allocDeviceId m.inputDevList = some id) (numbered : Numbered s t dev id)
   (manager : t.manager = some (InputState.addInputDevice m dev))
   (buffers : t.buffers = (s.nextBuf + 1) :: s.nextBuf :: s.buffers)
   (nextBuf : t.nextBuf = s.nextBuf + 1 + 1) : Registers s m dev grants .success t

theorem Registers.success_iff (h : Registers s m dev grants ret t) (hm : s.manager = some m) :
 ret = .success ↔ SecondBuffer s (s.devices dev).devType grants ∧ grants.eventBuf = true := by
 cases h with
 | noId full =>
  refine iff_of_false (by decide) fun granted => ?_
  obtain ⟨⟨m', hm', free, -⟩, -⟩ := granted
  obtain rfl : m = m' := Option.some.inj (hm.symm.trans hm')
  exact free full
 | refused early number failed => exact iff_of_false failed fun granted => early granted.1
 | lost late event failed =>
  refine iff_of_false failed fun granted => ?_
  rw [event] at granted
  cases granted.2
 | added late event => exact iff_of_true rfl ⟨late, event⟩

theorem Registers.freed (h : Registers s m dev grants .success t) :
 (t.devices dev).freed = (s.devices dev).freed := by
 cases h with
 | refused _ _ failed | lost _ _ failed => exact absurd rfl failed
 | added _ _ _ numbered => exact numbered.freed

theorem registerInputDevice_cases (hm : s.manager = some m) (dev : ℕ) (grants : Grants) :
 Registers s m dev grants (s.registerInputDevice dev grants).1
  (s.registerInputDevice dev grants).2 := by
 unfold InputState.registerInputDevice
 rw [hm]
 cases number : s.allocDeviceId m.inputDevList with
 | none =>
  simp only [number]
  exact .noId number
 | some id =>
  simp only [number]
  have given := numbered_setDevice s dev id
  obtain ⟨first, last, -⟩ := allocDeviceId_fresh number
  generalize hs' : s.setDevice dev { s.devices dev with devId := id } = s' at given
  have type : (s'.devices dev).devType = (s.devices dev).devType := by
   rw [← hs', setDevice_self]
  have manager : s'.manager = some m := by rw [← hs', ← hm]; rfl
  have buffers : s'.buffers = s.buffers := by rw [← hs']; rfl
  have nextBuf : s'.nextBuf = s.nextBuf := by rw [← hs']; rfl
  have nodes : s'.nodes = s.nodes := by rw [← hs']; rfl
  have second : SecondBuffer s (s.devices dev).devType grants ↔
   (isHidDevice (s.devices dev).devType = true → grants.node = true) ∧
    defaultPkgNum (s.devices dev).devType ≠ none ∧ grants.pkgBuf = true := by
   constructor
   · rintro ⟨_, -, -, granted⟩
     exact granted
   · intro granted
     exact ⟨m, hm, by rw [number]; exact Option.some_ne_none id, granted⟩
  rw [← type] at second
  rcases createDeviceNode_cases s' dev grants.node (given.devId ▸ last) with
   ⟨noNode, created⟩ | ⟨node, names, created, deleted⟩
  · rw [created]
    change Registers s m dev grants .devErrNoDevice (s'.deleteDeviceNode dev)
    obtain ⟨rest, eq, shorter⟩ := deleteDeviceNode_frame s' dev
    refine .refused ?_ number (by decide) given.deleteDeviceNode ?_ ?_ ?_ ?_
    · rw [← type, second]
      exact fun h => noNode h.1
    all_goals rw [eq]
    · exact manager
    · exact buffers
    · exact nextBuf
    · exact nodes ▸ shorter
  · rw [created]
    simp only [ne_eq, not_true_eq_false, if_false]
    obtain ⟨ret, u, alloc, frame, kept, out⟩ :=
     allocPackageBuffer_cases { s' with nodes := names } dev grants
    rw [alloc]
    have given' : Numbered s u dev id :=
     Numbered.then (t := { s' with nodes := names }) ⟨given.1, given.2, given.3, given.4⟩ frame
    have back : (u.deleteDeviceNode dev).nodes = s.nodes :=
     (deleted u ⟨frame.1, frame.2, frame.3, frame.4, frame.5, frame.6⟩ kept).trans nodes
    obtain ⟨rest, eq, -⟩ := deleteDeviceNode_frame u dev
    rcases out with ⟨missing, failed, same, next⟩ | ⟨known, event, failed, next, taken⟩ |
     ⟨known, event, rfl, next, taken⟩
    · rw [if_pos failed]
      refine .refused ?_ number failed given'.deleteDeviceNode ?_ ?_ ?_
       (back ▸ List.Sublist.refl _)
      · rw [← type, second]
        exact fun h => missing h.2
      all_goals rw [eq]
      · exact frame.manager.trans manager
      · exact same.trans buffers
      · exact next.trans nextBuf
    · rw [if_pos failed]
      refine .lost (type ▸ second.mpr ⟨node, known⟩) event failed given'.deleteDeviceNode.nextDev
       ?_ ?_ ?_
      all_goals rw [eq]
      · exact frame.manager.trans manager
      · exact taken.trans (by rw [← nextBuf, ← buffers])
      · exact next.trans (by rw [← nextBuf])
    · exact .added (type ▸ second.mpr ⟨node, known⟩) event number
       ⟨given'.1, given'.2, given'.3, given'.4⟩ rfl
       (taken.trans (by rw [← nextBuf, ← buffers])) (next.trans (by rw [← nextBuf]))

theorem listed_of (hm : s.manager = some m) : s.listed = m.inputDevList := by
 unfold InputState.listed
 rw [hm]

theorem registry_none (hm : s.manager = none) : Registry s := by
 intro m h
 rw [hm] at h
 cases h

theorem registry_of (hm : t.manager = some m)
 (ids : m.inputDevList.Pairwise (fun d d' => (t.devices d).devId ≠ (t.devices d').devId))
 (range : ∀ d ∈ m.inputDevList, 1 ≤ (t.devices d).devId ∧ (t.devices d).devId ≤ maxInputDevNum)
 (count : m.devCount = m.inputDevList.length) : Registry t := by
 intro m' hm'
 obtain rfl : m = m' := Option.some.inj (hm.symm.trans hm')
 exact ⟨ids, range, count⟩

theorem Numbered.pairwise (h : Numbered s t dev id)
 (free : ∀ d ∈ list, (s.devices d).devId ≠ id)
 (ids : list.Pairwise (fun d d' => (s.devices d).devId ≠ (s.devices d').devId)) :
 list.Pairwise (fun d d' => (t.devices d).devId ≠ (t.devices d').devId) := by
 apply ids.imp_of_mem
 intro a b ha hb ne
 by_cases same : a = dev
 · by_cases same' : b = dev
   · rw [same, same'] at ne
     exact absurd rfl ne
   · rw [same, h.devId, h.others b same']
     exact (free b hb).symm
 rw [h.others a same]
 by_cases same' : b = dev
 · rw [same', h.devId]
   exact free a ha
 · rw [h.others b same']
   exact ne

theorem Numbered.range (h : Numbered s t dev id)
 (inside : 1 ≤ id ∧ id ≤ maxInputDevNum)
 (range : ∀ d ∈ list, 1 ≤ (s.devices d).devId ∧ (s.devices d).devId ≤ maxInputDevNum) :
 ∀ d ∈ list, 1 ≤ (t.devices d).devId ∧ (t.devices d).devId ≤ maxInputDevNum := by
 intro d hd
 by_cases same : d = dev
 · rw [same, h.devId]
   exact inside
 · rw [h.others d same]
   exact range d hd

theorem Numbered.registry (h : Numbered s t dev id) (reg : Registry s) (hs : s.manager = some m)
 (ht : t.manager = some m) (number : s.allocDeviceId m.inputDevList = some id) : Registry t := by
 obtain ⟨ids, range, count⟩ := reg m hs
 obtain ⟨first, last, free⟩ := allocDeviceId_fresh number
 exact registry_of ht (h.pairwise free ids) (h.range ⟨first, last⟩ range) count

theorem addInputDevice_new (new : dev ∉ m.inputDevList) :
 InputState.addInputDevice m dev = ⟨m.devCount + 1, m.inputDevList ++ [dev]⟩ := by
 have all : m.inputDevList.takeWhile (fun d => decide (d ≠ dev)) = m.inputDevList := by
  rw [List.takeWhile_eq_self_iff]
  intro d hd
  exact decide_eq_true fun same => new (same ▸ hd)
 change (⟨m.devCount + 1, m.inputDevList.takeWhile (fun d => decide (d ≠ dev)) ++ [dev]⟩ :
  InputManager) = _
 rw [all]

theorem addInputDevice_again (old : dev ∈ m.inputDevList)
 (count : m.devCount = m.inputDevList.length) :
 (InputState.addInputDevice m dev).inputDevList.length <
  (InputState.addInputDevice m dev).devCount := by
 change (m.inputDevList.takeWhile (fun d => decide (d ≠ dev)) ++ [dev]).length < m.devCount + 1
 have start := List.takeWhile_prefix (l := m.inputDevList) (fun d => decide (d ≠ dev))
 have le := start.length_le
 have ne : (m.inputDevList.takeWhile (fun d => decide (d ≠ dev))).length ≠
  m.inputDevList.length := by
  intro same
  have all := start.eq_of_length same
  exact of_decide_eq_true (List.takeWhile_eq_self_iff.mp all dev old) rfl
 rw [List.length_append, List.length_singleton, count]
 omega

theorem Numbered.registry_added (h : Numbered s t dev id) (reg : Registry s) (hs : s.manager = some m)
 (ht : t.manager = some (InputState.addInputDevice m dev)) (new : dev ∉ m.inputDevList)
 (number : s.allocDeviceId m.inputDevList = some id) : Registry t := by
 obtain ⟨ids, range, count⟩ := reg m hs
 obtain ⟨first, last, free⟩ := allocDeviceId_fresh number
 rw [addInputDevice_new new] at ht
 apply registry_of ht
 · change (m.inputDevList ++ [dev]).Pairwise _
   rw [List.pairwise_append]
   refine ⟨h.pairwise free ids, List.pairwise_singleton _ _, ?_⟩
   intro d hd d' hd'
   obtain rfl := List.mem_singleton.mp hd'
   rw [h.devId, h.others d fun same => new (same ▸ hd)]
   exact free d hd
 · intro d hd
   rcases List.mem_append.mp hd with old | added
   · exact h.range ⟨first, last⟩ range d old
   · obtain rfl := List.mem_singleton.mp added
     rw [h.devId]
     exact ⟨first, last⟩
 · change m.devCount + 1 = (m.inputDevList ++ [dev]).length
   rw [count, List.length_append, List.length_singleton]

theorem nothingLeft_refl (s : InputState) : NothingLeft s s :=
 ⟨List.Sublist.refl _, List.Sublist.refl _⟩

theorem register_right_iff (reg : Registry s) (hm : s.manager = some m) (dev : ℕ) (grants : Grants) :
 (Registry (s.registerInputDevice dev grants).2 ∧
  ((s.registerInputDevice dev grants).1 ≠ .success →
   NothingLeft s (s.registerInputDevice dev grants).2)) ↔
 (SecondBuffer s (s.devices dev).devType grants → grants.eventBuf = true ∧ dev ∉ s.listed) := by
 have run := registerInputDevice_cases hm dev grants
 generalize s.registerInputDevice dev grants = out at run
 obtain ⟨ret, t⟩ := out
 change Registers s m dev grants ret t at run
 rw [listed_of hm]
 cases run with
 | noId full =>
  refine iff_of_true ⟨reg, fun _ => nothingLeft_refl s⟩ ?_
  rintro ⟨m', hm', free, -⟩
  obtain rfl : m = m' := Option.some.inj (hm.symm.trans hm')
  exact absurd full free
 | refused early number failed numbered manager buffers nextBuf nodes =>
  refine iff_of_true ⟨numbered.registry reg hm manager number, fun _ => ⟨?_, nodes⟩⟩
   fun late => absurd late early
  rw [buffers]
 | lost late event failed nextDev manager buffers nextBuf =>
  refine iff_of_false ?_ ?_
  · rintro ⟨-, nothing⟩
    have shorter := (nothing failed).1.length_le
    rw [buffers, List.length_cons] at shorter
    omega
  · intro h
    rw [(h late).1] at event
    cases event
 | added late event number numbered manager buffers nextBuf =>
  constructor
  · rintro ⟨reg', -⟩ -
    refine ⟨event, fun old => ?_⟩
    have counted := (reg' _ manager).2.2
    have less := addInputDevice_again old (reg m hm).2.2
    omega
  · intro h
    exact ⟨numbered.registry_added reg hm manager (h late).2 number, fun failed => absurd rfl failed⟩

theorem Given.registers (given : Given s) (hm : s.manager = some m) (out : dev < s.nextDev)
 (h : Registers s m dev grants ret t) : Given t := by
 cases h with
 | noId full => exact given
 | refused early number failed numbered manager buffers nextBuf nodes =>
  refine ⟨?_, ?_⟩
  · rw [listed_of manager, ← listed_of hm, numbered.nextDev]
    exact given.listed
  · rw [buffers, nextBuf]
    exact given.buffers
 | lost late event failed nextDev manager buffers nextBuf =>
  refine ⟨?_, ?_⟩
  · rw [listed_of manager, ← listed_of hm, nextDev]
    exact given.listed
  · rw [buffers, nextBuf]
    intro b hb
    rcases List.mem_cons.mp hb with rfl | hb
    · exact Nat.lt_succ_self _
    · exact Nat.lt_succ_of_lt (given.buffers b hb)
 | added late event number numbered manager buffers nextBuf =>
  refine ⟨?_, ?_⟩
  · rw [listed_of manager, numbered.nextDev]
    intro d hd
    rcases List.mem_append.mp hd with old | added
    · apply given.listed d
      rw [listed_of hm]
      exact (List.takeWhile_prefix _).subset old
    · obtain rfl := List.mem_singleton.mp added
      exact out
  · rw [buffers, nextBuf]
    intro b hb
    rcases List.mem_cons.mp hb with rfl | hb
    · exact Nat.lt_succ_self _
    · rcases List.mem_cons.mp hb with rfl | hb
      · omega
      · have := given.buffers b hb
        omega

theorem hdfSBufRecycle_frame (s : InputState) (buf : Option ℕ) :
 ∃ buffers, s.hdfSBufRecycle buf = { s with buffers := buffers } ∧ buffers.Sublist s.buffers := by
 cases buf with
 | none => exact ⟨s.buffers, rfl, List.Sublist.refl _⟩
 | some b => exact ⟨s.buffers.erase b, rfl, List.erase_sublist⟩

theorem setDevice_devId (s : InputState) (dev : ℕ) (d : InputDevice)
 (same : d.devId = (s.devices dev).devId) (d' : ℕ) :
 ((s.setDevice dev d).devices d').devId = (s.devices d').devId := by
 by_cases h : d' = dev
 · rw [h, setDevice_self, same]
 · rw [setDevice_other s d h]

theorem checkInputDevice_congr (same : ∀ d, (t.devices d).devId = (s.devices d).devId)
 (m : InputManager) (dev : ℕ) : t.checkInputDevice m dev = s.checkInputDevice m dev := by
 unfold InputState.checkInputDevice
 congr 1
 funext d
 rw [same, same]

theorem deleteInputDevice_found (same : ∀ d, (t.devices d).devId = (s.devices d).devId)
 (check : s.checkInputDevice m dev = true) :
 t.deleteInputDevice m dev = (.success, ⟨m.devCount - 1, m.inputDevList.eraseP
  fun d => (s.devices d).devId == (s.devices dev).devId⟩) := by
 unfold InputState.deleteInputDevice
 rw [checkInputDevice_congr same, if_pos check]
 simp only [same]

theorem unregisterInputDevice_cases (hm : s.manager = some m) (dev : ℕ) :
 (s.checkInputDevice m dev = false ∧ s.unregisterInputDevice dev = s) ∨
 (s.checkInputDevice m dev = true ∧ ∃ t, s.unregisterInputDevice dev = t ∧
  (∀ d, (t.devices d).devId = (s.devices d).devId) ∧ t.nextDev = s.nextDev ∧
  t.nextBuf = s.nextBuf ∧ t.buffers.Sublist s.buffers ∧
  t.manager = some ⟨m.devCount - 1, m.inputDevList.eraseP
   fun d => (s.devices d).devId == (s.devices dev).devId⟩) := by
 unfold InputState.unregisterInputDevice
 rw [hm]
 cases check : s.checkInputDevice m dev with
 | false => exact .inl ⟨rfl, by simp only [check]; rfl⟩
 | true =>
  refine .inr ⟨rfl, _, rfl, ?_⟩
  simp only [check, if_true]
  obtain ⟨nodes, eq, -⟩ := deleteDeviceNode_frame s dev
  rw [eq]
  obtain ⟨buffers, eq, fewer⟩ :=
   hdfSBufRecycle_frame { s with nodes := nodes } (s.devices dev).pkgBuf
  rw [eq]
  generalize hu : InputState.setDevice { s with nodes := nodes, buffers := buffers } dev
   { s.devices dev with pkgBuf := none } = u
  have same : ∀ d, (u.devices d).devId = (s.devices d).devId := by
   intro d
   rw [← hu]
   refine setDevice_devId { s with nodes := nodes, buffers := buffers } dev _ ?_ d
   rfl
  rw [deleteInputDevice_found same check]
  simp only [ne_eq, not_true_eq_false, if_false]
  generalize hm' : (⟨m.devCount - 1, m.inputDevList.eraseP
   fun d => (s.devices d).devId == (s.devices dev).devId⟩ : InputManager) = m'
  obtain ⟨rest, eq, less⟩ := hdfSBufRecycle_frame { u with manager := some m' }
   (u.devices dev).eventBuf
  rw [eq]
  refine ⟨?_, ?_, ?_, ?_, rfl⟩
  · intro d
    refine (setDevice_devId { u with manager := some m', buffers := rest } dev _ ?_ d).trans (same d)
    rfl
  · change u.nextDev = s.nextDev
    rw [← hu]
    rfl
  · change u.nextBuf = s.nextBuf
    rw [← hu]
    rfl
  · refine less.trans ?_
    change u.buffers.Sublist s.buffers
    rw [← hu]
    exact fewer

theorem checkInputDevice_false (check : s.checkInputDevice m dev = false) :
 ∀ d ∈ m.inputDevList, (s.devices d).devId ≠ (s.devices dev).devId := by
 intro d hd same
 exact List.any_eq_false.mp check d hd (beq_iff_eq.mpr same)

theorem eraseP_devId (hd : dev ∈ list)
 (ids : list.Pairwise (fun d d' => (s.devices d).devId ≠ (s.devices d').devId)) :
 list.eraseP (fun d => (s.devices d).devId == (s.devices dev).devId) = list.erase dev := by
 rw [List.erase_eq_eraseP']
 induction list with
 | nil => rfl
 | cons d rest ih =>
  obtain ⟨head, tail⟩ := List.pairwise_cons.mp ids
  by_cases same : d = dev
  · rw [same, List.eraseP_cons_of_pos (p := fun d => (s.devices d).devId == (s.devices dev).devId)
     (beq_self_eq_true _),
     List.eraseP_cons_of_pos (p := fun x => x == dev) (beq_self_eq_true _)]
  · have there : dev ∈ rest := (List.mem_cons.mp hd).resolve_left (Ne.symm same)
    rw [List.eraseP_cons_of_neg (by rw [beq_iff_eq]; exact head dev there),
     List.eraseP_cons_of_neg (p := fun x => x == dev) (by rw [beq_iff_eq]; exact same),
     ih there tail]

theorem unregister_right_iff (reg : Registry s) (dev : ℕ) :
 (Registry (s.unregisterInputDevice dev) ∧
  (s.unregisterInputDevice dev).listed = s.listed.erase dev) ↔
 (dev ∈ s.listed ∨ ∀ d ∈ s.listed, (s.devices d).devId ≠ (s.devices dev).devId) := by
 cases hm : s.manager with
 | none =>
  have none : s.listed = [] := by
   unfold InputState.listed
   rw [hm]
  have same : s.unregisterInputDevice dev = s := by
   unfold InputState.unregisterInputDevice
   rw [hm]
  rw [same, none]
  exact iff_of_true ⟨reg, rfl⟩ (.inr fun d hd => absurd hd List.not_mem_nil)
 | some m =>
  obtain ⟨ids, range, count⟩ := reg m hm
  rcases unregisterInputDevice_cases hm dev with ⟨check, same⟩ |
   ⟨check, t, run, same, -, -, -, manager⟩
  · have other := checkInputDevice_false check
    rw [same, listed_of hm]
    refine iff_of_true ⟨reg, (List.erase_of_not_mem ?_).symm⟩ (.inr other)
    exact fun listed => other dev listed rfl
  · obtain ⟨d, hd, number⟩ := List.any_eq_true.mp check
    rw [run, listed_of hm, listed_of manager]
    constructor
    · rintro ⟨-, removed⟩
      apply Or.inl
      by_contra absent
      have length := congrArg List.length removed
      rw [List.erase_of_not_mem absent, List.length_eraseP_of_mem hd number] at length
      have pos := List.length_pos_of_mem hd
      omega
    · intro given
      have listed : dev ∈ m.inputDevList :=
       given.resolve_right fun other => other d hd (beq_iff_eq.mp number)
      refine ⟨registry_of manager ?_ ?_ ?_, eraseP_devId listed ids⟩
      · simp only [same]
        exact ids.sublist List.eraseP_sublist
      · simp only [same]
        exact fun x hx => range x (List.mem_of_mem_eraseP hx)
      · change m.devCount - 1 = (m.inputDevList.eraseP _).length
        rw [count, List.length_eraseP_of_mem hd number]

theorem Given.unregister (given : Given s) (dev : ℕ) : Given (s.unregisterInputDevice dev) := by
 cases hm : s.manager with
 | none =>
  have same : s.unregisterInputDevice dev = s := by
   unfold InputState.unregisterInputDevice
   rw [hm]
  rw [same]
  exact given
 | some m =>
  rcases unregisterInputDevice_cases hm dev with ⟨-, same⟩ |
   ⟨-, t, run, -, nextDev, nextBuf, buffers, manager⟩
  · rw [same]
    exact given
  · rw [run]
    refine ⟨?_, ?_⟩
    · rw [listed_of manager, nextDev]
      intro d hd
      apply given.listed d
      rw [listed_of hm]
      exact List.mem_of_mem_eraseP hd
    · rw [nextBuf]
      exact fun b hb => given.buffers b (buffers.subset hb)

theorem construct_devices (s : InputState) (devType : ℕ) {d : ℕ} (h : d < s.nextDev) :
 (s.construct devType).2.devices d = s.devices d :=
 setDevice_other s _ (Nat.ne_of_lt h)

theorem construct_type (s : InputState) (devType : ℕ) :
 ((s.construct devType).2.devices s.nextDev).devType = devType := by
 change ((s.setDevice s.nextDev ⟨0, devType, 0, none, none, false⟩).devices s.nextDev).devType = _
 rw [setDevice_self]

theorem construct_freed (s : InputState) (devType : ℕ) :
 ((s.construct devType).2.devices s.nextDev).freed = false := by
 change ((s.setDevice s.nextDev ⟨0, devType, 0, none, none, false⟩).devices s.nextDev).freed = _
 rw [setDevice_self]

theorem Given.construct (given : Given s) (devType : ℕ) : Given (s.construct devType).2 :=
 ⟨fun d hd => Nat.lt_succ_of_lt (given.listed d hd), given.buffers⟩

theorem Registry.construct (reg : Registry s) (given : Given s) (devType : ℕ) :
 Registry (s.construct devType).2 := by
 intro m hm
 change s.manager = some m at hm
 obtain ⟨ids, range, count⟩ := reg m hm
 have same : ∀ d ∈ m.inputDevList, (s.construct devType).2.devices d = s.devices d := by
  intro d hd
  apply construct_devices
  apply given.listed
  rw [listed_of hm]
  exact hd
 refine ⟨ids.imp_of_mem ?_, ?_, count⟩
 · intro d d' hd hd' ne
   rw [same d hd, same d' hd']
   exact ne
 · intro d hd
   rw [same d hd]
   exact range d hd

theorem secondBuffer_construct (given : Given s) (devType : ℕ) (grants : Grants) :
 SecondBuffer (s.construct devType).2 devType grants ↔ SecondBuffer s devType grants := by
 apply exists_congr
 intro m
 refine and_congr_right fun hm => ?_
 change s.manager = some m at hm
 have same : (s.construct devType).2.allocDeviceId m.inputDevList =
  s.allocDeviceId m.inputDevList := by
  apply allocDeviceId_congr
  intro d hd
  apply construct_devices
  apply given.listed
  rw [listed_of hm]
  exact hd
 rw [same]

theorem cacheHid_frame (s : InputState) (dev : ℕ) :
 ∃ cached, s.cacheHid dev = { s with cachedHid := cached } := by
 unfold InputState.cacheHid
 split
 · exact ⟨_, rfl⟩
 · exact ⟨s.cachedHid, rfl⟩

theorem hidRegister_cached (hm : s.manager = none) (devType : ℕ) (grants : Grants) :
 s.hidRegisterHdfInputDev devType grants =
  (s.nextDev, (s.construct devType).2.cacheHid s.nextDev) := by
 have manager : (s.construct devType).2.manager = none := hm
 change (s.nextDev, if (s.construct devType).2.manager.isSome then _ else _) = _
 rw [manager]
 rfl

theorem hidRegister_loaded (hm : s.manager = some m) (devType : ℕ) (grants : Grants) :
 s.hidRegisterHdfInputDev devType grants =
  (s.nextDev, (s.construct devType).2.doRegisterInputDev s.nextDev grants) := by
 have manager : (s.construct devType).2.manager = some m := hm
 change (s.nextDev, if (s.construct devType).2.manager.isSome then _ else _) = _
 rw [manager]
 rfl

theorem hidRegister_right_iff (inv : Inv s) (devType : ℕ) (grants : Grants) :
 (Registry (s.hidRegisterHdfInputDev devType grants).2 ∧
  CallRight s (s.hidRegisterHdfInputDev devType grants).2 (.hidRegister devType grants)) ↔
 (s.manager ≠ none → SecondBuffer s devType grants ∧ grants.eventBuf = true) := by
 unfold CallRight
 cases hm : s.manager with
 | none =>
  rw [hidRegister_cached hm]
  obtain ⟨cached, eq⟩ := cacheHid_frame (s.construct devType).2 s.nextDev
  change (Registry ((s.construct devType).2.cacheHid s.nextDev) ∧
   (((s.construct devType).2.cacheHid s.nextDev).devices s.nextDev).freed = false ∧ _) ↔ _
  rw [eq]
  refine iff_of_true ⟨registry_none hm, construct_freed s devType, fun _ => ?_⟩
   fun some => absurd rfl some
  exact nothingLeft_refl s
 | some m =>
  have run := registerInputDevice_cases (s := (s.construct devType).2) hm s.nextDev grants
  have reg := inv.registry.construct inv.given devType
  have right := register_right_iff reg hm s.nextDev grants
  rw [hidRegister_loaded hm, ← secondBuffer_construct inv.given]
  rw [construct_type] at right
  have new : s.nextDev ∉ (s.construct devType).2.listed := by
   intro listed
   exact Nat.lt_irrefl _ (inv.given.listed _ listed)
  change (Registry ((s.construct devType).2.doRegisterInputDev s.nextDev grants) ∧
   (((s.construct devType).2.doRegisterInputDev s.nextDev grants).devices s.nextDev).freed = false ∧
   _) ↔ _
  unfold InputState.doRegisterInputDev
  generalize (s.construct devType).2.registerInputDevice s.nextDev grants = out at run right
  obtain ⟨ret, t⟩ := out
  change Registers _ m s.nextDev grants ret t at run
  have granted := run.success_iff hm
  rw [construct_type] at granted
  by_cases done : ret = .success
  · subst done
    change (Registry t ∧ (t.devices s.nextDev).freed = false ∧ _) ↔ _
    obtain ⟨late, event⟩ := granted.mp rfl
    refine iff_of_true ⟨(right.mpr fun _ => ⟨event, new⟩).1, ?_, fun failed => absurd rfl failed⟩
     fun _ => ⟨late, event⟩
    exact run.freed.trans (construct_freed s devType)
  refine iff_of_false ?_ fun h => done (granted.mpr (h (Option.some_ne_none m)))
  rintro ⟨-, freed, -⟩
  change ((if ret ≠ .success then t.setDevice s.nextDev { t.devices s.nextDev with freed := true }
   else t).devices s.nextDev).freed = false at freed
  rw [if_pos done, setDevice_self] at freed
  cases freed

theorem Given.hidRegister (given : Given s) (devType : ℕ) (grants : Grants) :
 Given (s.hidRegisterHdfInputDev devType grants).2 := by
 have given' := given.construct devType
 cases hm : s.manager with
 | none =>
  rw [hidRegister_cached hm]
  obtain ⟨cached, eq⟩ := cacheHid_frame (s.construct devType).2 s.nextDev
  change Given ((s.construct devType).2.cacheHid s.nextDev)
  rw [eq]
  exact ⟨given'.listed, given'.buffers⟩
 | some m =>
  rw [hidRegister_loaded hm]
  have run := registerInputDevice_cases (s := (s.construct devType).2) hm s.nextDev grants
  have after := given'.registers hm (Nat.lt_succ_self s.nextDev) run
  change Given ((s.construct devType).2.doRegisterInputDev s.nextDev grants)
  unfold InputState.doRegisterInputDev
  generalize (s.construct devType).2.registerInputDevice s.nextDev grants = out at after
  obtain ⟨ret, t⟩ := out
  by_cases failed : ret ≠ .success
  · simp only [if_pos failed]
    exact ⟨after.listed, after.buffers⟩
  · simp only [if_neg failed]
    exact after

theorem given_step (given : Given s) (hstep : s.step call = some t) : Given t := by
 cases call with
 | managerInit =>
  change (if s.manager = none then _ else none) = _ at hstep
  split_ifs at hstep
  cases hstep
  exact ⟨fun d hd => absurd hd List.not_mem_nil, given.buffers⟩
 | construct devType =>
  cases hstep
  exact given.construct devType
 | register dev grants =>
  change (if s.Valid dev then _ else none) = _ at hstep
  split_ifs at hstep with valid
  cases hstep
  cases hm : s.manager with
  | none =>
   unfold InputState.registerInputDevice
   rw [hm]
   exact given
  | some m => exact given.registers hm valid.1 (registerInputDevice_cases hm dev grants)
 | unregister dev | hidUnregister dev =>
  change (if s.Valid dev then _ else none) = _ at hstep
  split_ifs at hstep
  cases hstep
  exact given.unregister dev
 | hidRegister devType grants =>
  cases hstep
  exact given.hidRegister devType grants

theorem right_of_step (hstep : s.step call = some t) :
 Right s call ↔ Registry t ∧ CallRight s t call := by
 constructor
 · exact fun h => h t hstep
 · rintro h u hu
   cases hstep.symm.trans hu
   exact h

theorem register_right {dev : ℕ} (reg : Registry s) (grants : Grants) :
 Right s (.register dev grants) ↔ Meets s (.register dev grants) := by
 by_cases valid : s.Valid dev
 · have hstep : s.step (.register dev grants) = some (s.registerInputDevice dev grants).2 :=
    if_pos valid
   rw [right_of_step hstep]
   change _ ↔ (s.Valid dev → _)
   rw [forall_prop_of_true valid]
   cases hm : s.manager with
   | none =>
    have same : s.registerInputDevice dev grants = (.failure, s) := by
     unfold InputState.registerInputDevice
     rw [hm]
    rw [same]
    refine iff_of_true ⟨reg, fun _ => nothingLeft_refl s⟩ ?_
    rintro ⟨m, some, -⟩
    rw [hm] at some
    cases some
   | some m => exact register_right_iff reg hm dev grants
 · refine iff_of_true (fun t hstep => ?_) fun h => absurd h valid
   change (if s.Valid dev then _ else none) = _ at hstep
   rw [if_neg valid] at hstep
   cases hstep

theorem unregister_right {dev : ℕ} (reg : Registry s)
 (hcall : call = .unregister dev ∨ call = .hidUnregister dev) :
 Right s call ↔ Meets s call := by
 have whole : ∀ P : InputState → Prop, (∀ t, s.step call = some t → P t) ↔
  (s.Valid dev → P (s.unregisterInputDevice dev)) := by
  intro P
  rcases hcall with rfl | rfl
  all_goals
   change (∀ t, (if s.Valid dev then some (s.unregisterInputDevice dev) else none) = some t →
    P t) ↔ _
   by_cases valid : s.Valid dev
   · rw [if_pos valid, forall_prop_of_true valid]
     constructor
     · exact fun h => h _ rfl
     · rintro h t ht
       cases ht
       exact h
   · rw [if_neg valid]
     exact iff_of_true (fun t ht => by cases ht) fun h => absurd h valid
 have right := whole fun t => Registry t ∧ t.listed = s.listed.erase dev
 rw [unregister_right_iff reg dev] at right
 rcases hcall with rfl | rfl
 · exact right
 · exact right

theorem right_iff_meets (inv : Inv s) (call : InputCall) : Right s call ↔ Meets s call := by
 cases call with
 | managerInit =>
  refine iff_of_true (fun t hstep => ?_) trivial
  change (if s.manager = none then _ else none) = _ at hstep
  split_ifs at hstep
  cases hstep
  exact ⟨registry_of rfl List.Pairwise.nil (fun d hd => absurd hd List.not_mem_nil) rfl, trivial⟩
 | construct devType =>
  refine iff_of_true (fun t hstep => ?_) trivial
  cases hstep
  exact ⟨inv.registry.construct inv.given devType, trivial⟩
 | register dev grants => exact register_right inv.registry grants
 | unregister dev => exact unregister_right inv.registry (.inl rfl)
 | hidRegister devType grants =>
  exact (right_of_step rfl).trans (hidRegister_right_iff inv devType grants)
 | hidUnregister dev => exact unregister_right inv.registry (.inr rfl)

theorem inv_start : Inv .start :=
 ⟨registry_none rfl, fun _ hd => absurd hd List.not_mem_nil, fun _ hb => absurd hb List.not_mem_nil⟩

/-- The registry is in order after each call of a sequence, failed registrations leave nothing
behind, unregistrations remove their own device and HID devices that are returned are not freed,
exactly if no call of the sequence goes wrong. -/
theorem registry_right_iff (calls : List InputCall) :
    Along InputState.step Right .start calls ↔ Along InputState.step Meets .start calls :=
  along_congr_of_keep
    (fun _ _ _ inv right hstep => ⟨(right _ hstep).1, given_step inv.given hstep⟩)
    (fun _ call inv => right_iff_meets inv call) _ calls inv_start

/-- A HID device of an unknown type is returned after it was freed. -/
theorem freed_device_returned : ¬ ∀ calls : List InputCall,
    Along InputState.step Right .start calls := by
  intro all
  have run : exec InputState.step .start [.managerInit] = some { InputState.start with
      manager := some ⟨0, []⟩ } := rfl
  have right := all [.managerInit, .hidRegister indevTypeUnknown ⟨true, true, true⟩] [.managerInit] _
    List.prefix_rfl _ run
  have freed := (right _ rfl).2.1
  revert freed
  decide

end DriversFramework.Input
