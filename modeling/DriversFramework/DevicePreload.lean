import DriversFramework.DevHostNodes
import DriversFramework.DevmgrService
import DriversFramework.DeviceIds

/-! The device manager marks an entry as enabled on one side of a call that attaches
or removes its node. The marks agree with the hosts as long as the calls that do
not look at the outcome meet hosts where it does not matter. -/
namespace DriversFramework.Devmgr

structure HostMarks where
 hostId : ℕ
 hostService : Bool
 entries : List (ℕ × DevicePreload)

def HdfDeviceInfo.mark (deviceInfo : HdfDeviceInfo) : ℕ × DevicePreload :=
 (deviceInfo.deviceId, deviceInfo.preload)

def DevHostServiceClnt.marks (hostClnt : DevHostServiceClnt) : HostMarks :=
 ⟨hostClnt.hostId, hostClnt.hostService, hostClnt.deviceInfos.map HdfDeviceInfo.mark⟩

def System.marks (s : System) : List HostMarks := s.hosts.map DevHostServiceClnt.marks

def HostMarks.setPreload (info : ℕ) (preload : DevicePreload) (marks : HostMarks) : HostMarks :=
 { marks with entries := marks.entries.modify info fun entry => (entry.1, preload) }

structure Tracked (pending : ℕ → ℕ → Prop) (marks : List HostMarks)
  (services : ℕ → DevHostService) : Prop where
 right : ∀ (host : ℕ) (m : HostMarks), marks[host]? = some m → ∀ (info : ℕ) entry, m.entries[info]? = some entry →
  (entry.1 ∈ (services m.hostId).nodeIds ↔ entry.2 = .enable ∧ ¬pending host info)
 distinct : ∀ (host : ℕ) (m : HostMarks), marks[host]? = some m → (m.entries.map Prod.fst).Nodup
 firsts : ∀ (i j : ℕ) (a b : HostMarks), i < j → marks[i]? = some a → marks[j]? = some b → a.hostId = b.hostId →
  b.entries = []
 attached : ∀ (host : ℕ) (m : HostMarks), marks[host]? = some m → m.entries ≠ [] → m.hostService = true
 ordered : ∀ host, (services host).Ordered

section Change
variable {pending after : ℕ → ℕ → Prop} {marks : List HostMarks} {services : ℕ → DevHostService}
  {host info : ℕ} {m : HostMarks} {entry : ℕ × DevicePreload} {preload : DevicePreload}

theorem Tracked.other (h : Tracked pending marks services) {j : ℕ} {b : HostMarks}
  (hm : marks[host]? = some m) (hentries : m.entries ≠ []) (hb : marks[j]? = some b)
  (hne : b.entries ≠ []) (different : j ≠ host) : b.hostId ≠ m.hostId := by
 intro same
 rcases Nat.lt_or_gt_of_ne different with before | behind
 · exact hentries (h.firsts j host b m before hb hm same)
 · exact hne (h.firsts host j m b behind hm hb same.symm)

theorem entry_id_ne (distinct : (m.entries.map Prod.fst).Nodup) {i : ℕ}
  {other : ℕ × DevicePreload} (hentry : m.entries[info]? = some entry)
  (hother : m.entries[i]? = some other) (different : i ≠ info) : other.1 ≠ entry.1 := by
 intro same
 have first : (m.entries.map Prod.fst)[i]? = some other.1 := by
  rw [List.getElem?_map, hother]
  rfl
 have second : (m.entries.map Prod.fst)[info]? = some other.1 := by
  rw [List.getElem?_map, hentry, same]
  rfl
 obtain ⟨hi, -⟩ := List.getElem?_eq_some_iff.mp first
 exact different ((List.getElem?_inj hi distinct).mp (first.trans second.symm))

theorem Tracked.change (h : Tracked pending marks services) (hm : marks[host]? = some m)
  (hentry : m.entries[info]? = some entry) {service : DevHostService}
  (ordered : service.Ordered)
  (others : ∀ devid, devid ≠ entry.1 →
   (devid ∈ service.nodeIds ↔ devid ∈ (services m.hostId).nodeIds))
  (here : entry.1 ∈ service.nodeIds ↔ preload = .enable ∧ ¬after host info)
  (later : ∀ i j, ¬(i = host ∧ j = info) → (after i j ↔ pending i j)) :
  Tracked after (marks.modify host (HostMarks.setPreload info preload))
   (Function.update services m.hostId service) := by
 have hne : m.entries ≠ [] := by
  rintro none
  rw [none] at hentry
  cases hentry
 -- a place of the new list holds what it held, with the one preload set
 have place : ∀ {i a}, (marks.modify host (HostMarks.setPreload info preload))[i]? = some a →
   ∃ b, marks[i]? = some b ∧ a = if host = i then b.setPreload info preload else b := by
  intro i a ha
  rw [List.getElem?_modify] at ha
  obtain ⟨b, hb, rfl⟩ := Option.map_eq_some_iff.mp ha
  refine ⟨b, hb, ?_⟩
  by_cases same : host = i <;> simp [same]
 have entries_nil : ∀ b : HostMarks, (b.setPreload info preload).entries = [] ↔ b.entries = [] := by
  intro b
  simp [HostMarks.setPreload]
 constructor
 · intro i a ha j other hother
   obtain ⟨b, hb, rfl⟩ := place ha
   by_cases same : host = i
   · subst same
     obtain rfl : b = m := Option.some.inj (hb.symm.trans hm)
     rw [if_pos rfl] at hother ⊢
     rw [HostMarks.setPreload, Function.update_self]
     rw [HostMarks.setPreload, List.getElem?_modify] at hother
     obtain ⟨old, hold, rfl⟩ := Option.map_eq_some_iff.mp hother
     by_cases sameInfo : info = j
     · subst sameInfo
       obtain rfl : old = entry := Option.some.inj (hold.symm.trans hentry)
       rw [if_pos rfl]
       exact here
     · rw [if_neg sameInfo, later host j fun equal => sameInfo equal.2.symm]
       have different := entry_id_ne (h.distinct host b hm) hentry hold (Ne.symm sameInfo)
       exact (others old.1 different).trans (h.right host b hm j old hold)
   · rw [if_neg same] at hother ⊢
     have elsewhere := h.other hm hne hb (List.ne_nil_of_mem (List.mem_of_getElem? hother))
      (Ne.symm same)
     rw [Function.update_of_ne elsewhere, later i j fun equal => same equal.1.symm]
     exact h.right i b hb j other hother
 · intro i a ha
   obtain ⟨b, hb, rfl⟩ := place ha
   have ids : (b.setPreload info preload).entries.map Prod.fst = b.entries.map Prod.fst := by
    apply List.ext_getElem?
    intro j
    rw [HostMarks.setPreload, List.getElem?_map, List.getElem?_map, List.getElem?_modify]
    cases b.entries[j]? with
    | none => rfl
    | some old => by_cases same : info = j <;> simp [same]
   split_ifs
   · rw [ids]
     exact h.distinct i b hb
   · exact h.distinct i b hb
 · intro i j a b hij ha hb same
   obtain ⟨oldA, hA, rfl⟩ := place ha
   obtain ⟨oldB, hB, rfl⟩ := place hb
   have sameOld : oldA.hostId = oldB.hostId := by
    split_ifs at same <;> exact same
   have none := h.firsts i j oldA oldB hij hA hB sameOld
   split_ifs
   · exact (entries_nil oldB).mpr none
   · exact none
 · intro i a ha hentries
   obtain ⟨b, hb, rfl⟩ := place ha
   split_ifs at hentries ⊢
   · exact h.attached i b hb fun none => hentries ((entries_nil b).mpr none)
   · exact h.attached i b hb hentries
 · intro other
   by_cases same : other = m.hostId
   · rw [same, Function.update_self]
     exact ordered
   · rw [Function.update_of_ne same]
     exact h.ordered other

theorem Tracked.skip (h : Tracked pending marks services) (hm : marks[host]? = some m)
  (hentry : m.entries[info]? = some entry) (free : entry.1 ∉ (services m.hostId).nodeIds)
  (off : entry.2 ≠ .enable) (later : ∀ i j, ¬(i = host ∧ j = info) → (after i j ↔ pending i j)) :
  Tracked after marks services where
 right i a ha j other hother := by
  by_cases here : i = host ∧ j = info
  · obtain ⟨rfl, rfl⟩ := here
    obtain rfl : a = m := Option.some.inj (ha.symm.trans hm)
    obtain rfl : other = entry := Option.some.inj (hother.symm.trans hentry)
    exact iff_of_false free fun enabled => off enabled.1
  · rw [later i j here]
    exact h.right i a ha j other hother
 distinct := h.distinct
 firsts := h.firsts
 attached := h.attached
 ordered := h.ordered

theorem setPreload_self (hm : marks[host]? = some m)
  (hentry : m.entries[info]? = some entry) :
  marks.modify host (HostMarks.setPreload info entry.2) = marks := by
 have same : m.setPreload info entry.2 = m := by
  have entries : m.entries.modify info (fun old => (old.1, entry.2)) = m.entries := by
   apply List.ext_getElem?
   intro j
   rw [List.getElem?_modify]
   by_cases here : info = j
   · subst here
     rw [hentry]
     simp
   · cases m.entries[j]? <;> simp [here]
  rw [HostMarks.setPreload, entries]
 apply List.ext_getElem?
 intro i
 rw [List.getElem?_modify]
 by_cases here : host = i
 · subst here
   rw [hm]
   simp [same]
 · cases marks[i]? <;> simp [here]

end Change

section HostCalls
variable {s : System} {host info : ℕ} {hostClnt : DevHostServiceClnt} {deviceInfo : HdfDeviceInfo}
  {env : AddInputs} {pending after : ℕ → ℕ → Prop}

theorem marks_place (hclnt : s.hostClnt host = some hostClnt) :
  s.marks[host]? = some hostClnt.marks := by
 rw [System.marks, List.getElem?_map]
 exact congrArg (Option.map DevHostServiceClnt.marks) hclnt

theorem entry_place (hclnt : s.hostClnt host = some hostClnt)
  (hinfo : s.deviceInfo host info = some deviceInfo) :
  hostClnt.marks.entries[info]? = some deviceInfo.mark := by
 rw [System.deviceInfo, hclnt, Option.bind_some] at hinfo
 rw [DevHostServiceClnt.marks, List.getElem?_map, hinfo]
 rfl

theorem attachToken_marks (devid : ℕ) (hostClnt : DevHostServiceClnt) :
  (hostClnt.attachToken devid).marks = hostClnt.marks := by
 have entries : (hostClnt.updateStatus devid .usable).deviceInfos.map HdfDeviceInfo.mark =
   hostClnt.deviceInfos.map HdfDeviceInfo.mark :=
  HdfSList.map_updateFirst _ fun _ => rfl
 rw [DevHostServiceClnt.marks, DevHostServiceClnt.attachToken]
 dsimp only
 rw [entries]
 rfl

theorem attachDevice_marks {hosts : List DevHostServiceClnt} {devid : ℕ} :
  (devmgrServiceAttachDevice hosts devid).2.map DevHostServiceClnt.marks =
   hosts.map DevHostServiceClnt.marks := by
 rw [devmgrServiceAttachDevice]
 split
 · rfl
 · exact HdfSList.map_updateFirst _ (attachToken_marks devid)

theorem addDevice_marks : (devHostServiceAddDevice s host deviceInfo env).2.marks = s.marks := by
 rw [System.marks, System.marks]
 by_cases success : (devHostServiceAddDevice s host deviceInfo env).1 = .success
 · obtain ⟨-, -, tokens, -⟩ := addDevice_succeeded success
   rw [← @attachDevice_marks s.hosts deviceInfo.deviceId, tokens]
 · by_cases noLoader : env.loader = false
   · rw [devHostServiceAddDevice, if_pos noLoader]
   · rw [(addDevice_failed noLoader success).1]

theorem setPreload_marks {preload : DevicePreload} :
  (s.setPreload host info preload).marks =
   s.marks.modify host (HostMarks.setPreload info preload) := by
 have one : ∀ c : DevHostServiceClnt,
   DevHostServiceClnt.marks
    { c with
     deviceInfos := c.deviceInfos.modify info fun e => { e with preload := preload } } =
    c.marks.setPreload info preload := by
  intro c
  rw [DevHostServiceClnt.marks, HostMarks.setPreload, DevHostServiceClnt.marks]
  congr 1
  apply List.ext_getElem?
  intro j
  rw [List.getElem?_map, List.getElem?_modify, List.getElem?_modify, List.getElem?_map]
  cases c.deviceInfos[j]? with
  | none => rfl
  | some e => by_cases same : info = j <;> simp [same, HdfDeviceInfo.mark]
 rw [System.marks, System.setPreload, System.marks]
 apply List.ext_getElem?
 intro i
 rw [List.getElem?_map, List.getElem?_modify, List.getElem?_modify, List.getElem?_map]
 cases s.hosts[i]? with
 | none => rfl
 | some c => by_cases same : host = i <;> simp [same, one]

theorem Tracked.add (h : Tracked pending s.marks s.services)
  (hclnt : s.hostClnt host = some hostClnt) (hinfo : s.deviceInfo host info = some deviceInfo)
  (free : deviceInfo.deviceId ∉ (s.services hostClnt.hostId).nodeIds)
  (success : (devHostServiceAddDevice s hostClnt.hostId deviceInfo env).1 = .success)
  (done : ¬after host info) (later : ∀ i j, ¬(i = host ∧ j = info) → (after i j ↔ pending i j)) :
  Tracked after (s.marks.modify host (HostMarks.setPreload info .enable))
   (devHostServiceAddDevice s hostClnt.hostId deviceInfo env).2.services := by
 obtain ⟨devNode, id, -, services⟩ := addDevice_succeeded success
 have fresh : devNode.devId ∉ (s.services hostClnt.hostId).nodeIds := by
  rw [id]
  exact free
 have ids := @withNode_nodeIds (s.services hostClnt.hostId) devNode (deviceid deviceInfo.deviceId)
 rw [services]
 apply h.change (marks_place hclnt) (entry_place hclnt hinfo)
 · rw [← id]
   exact (h.ordered hostClnt.hostId).withNode fresh
 · intro devid different
   rw [ids.mem_iff, id, List.mem_cons]
   exact or_iff_right different
 · rw [ids.mem_iff, id]
   exact iff_of_true List.mem_cons_self ⟨rfl, done⟩
 · exact later

theorem refused_services (failed : (devHostServiceAddDevice s host deviceInfo env).1 ≠ .success)
  (harmless : env.loader = false ∨
   devHostServiceFindDevice (s.services host) (deviceid deviceInfo.deviceId) = none) :
  (devHostServiceAddDevice s host deviceInfo env).2.services = s.services := by
 by_cases noLoader : env.loader = false
 · rw [devHostServiceAddDevice, if_pos noLoader]
 · rcases harmless with none | missing
   · exact absurd none noLoader
   · rw [(addDevice_failed noLoader failed).2, find_eraseP_self missing]
     exact Function.update_eq_self host s.services

end HostCalls

/-- The marks of the device manager agree with the hosts. -/
def PreloadRight (s : System) : Prop :=
 ∀ hostClnt ∈ s.hosts, ∀ deviceInfo ∈ hostClnt.deviceInfos,
  (deviceInfo.preload = .enable ↔
   deviceInfo.deviceId ∈ (s.services hostClnt.hostId).nodeIds)

instance (s : System) : Decidable (PreloadRight s) :=
 inferInstanceAs (Decidable (∀ hostClnt ∈ s.hosts, ∀ deviceInfo ∈ hostClnt.deviceInfos,
  (_ = _ ↔ _ ∈ _)))

/-- A failure of `AddDevice` that takes no device away. -/
def Harmless (s : System) (host : ℕ) (deviceInfo : HdfDeviceInfo) (env : AddInputs) : Prop :=
 env.loader = false ∨
  devHostServiceFindDevice (s.services host) (deviceid deviceInfo.deviceId) = none

def LoadGuard (s : System) (host info : ℕ) (env : AddInputs) : Prop :=
 ∀ hostClnt deviceInfo, s.hostClnt host = some hostClnt → s.deviceInfo host info = some deviceInfo →
  hostClnt.hostService = true → deviceInfo.preload ≠ .enable →
   Accepts s hostClnt.hostId deviceInfo env ∨ Harmless s hostClnt.hostId deviceInfo env

def LeftGuard (env : ℕ × ℕ → AddInputs) (s : System) (place : ℕ × ℕ) : Prop :=
 ∀ deviceInfo, s.deviceInfo place.1 place.2 = some deviceInfo →
  deviceInfo.preload = .enableStep2 → LoadGuard s place.1 place.2 (env place)

def InstallGuard (quickLoad : Bool) (host : ℕ) (env : ℕ → AddInputs) (s : System) (info : ℕ) :
  Prop :=
 ∀ hostClnt deviceInfo, s.hostClnt host = some hostClnt → s.deviceInfo host info = some deviceInfo →
  (deviceInfo.preload = .enable → Accepts s hostClnt.hostId deviceInfo (env info)) ∧
   (deviceInfo.preload ≠ .enable → deviceInfo.preload ≠ .disable →
    ¬(quickLoad = true ∧ deviceInfo.preload = .enableStep2) →
     ¬Accepts s hostClnt.hostId deviceInfo (env info) ∧
      Harmless s hostClnt.hostId deviceInfo (env info))

/-- When a call keeps the marks in agreement with the hosts: an installation whose
ids differ from each other and from those in the host and whose entries are met as
above, a load of an entry as above, an unload of an enabled entry with a loader. -/
def PreloadKept (config : List HostConfig) (s : System) : DevmgrCall → Prop
 | .attachDeviceHost hostId quickLoad env =>
  ∀ hostClnt, s.hosts.find? (ofHost hostId) = some hostClnt →
   ((hostPositions config hostClnt.hostName).map (· % 2 ^ 8)).Nodup ∧
    (∀ devid ∈ (hostClnt.obtainDeviceInfos config).deviceIds,
     devid ∉ (s.services hostId).nodeIds) ∧
    RunRules.Along
     (fun t info =>
      some (installStep quickLoad (s.hosts.findIdx (ofHost hostId)) env t info))
     (InstallGuard quickLoad (s.hosts.findIdx (ofHost hostId)) env)
     (s.obtainDeviceInfos config hostId)
     (List.range (hostClnt.obtainDeviceInfos config).deviceInfos.length)
 | .loadDevice svcName env =>
  let host := s.hosts.findIdx (hasInfo (ofSvcName svcName))
  ∀ hostClnt, s.hostClnt host = some hostClnt →
   LoadGuard s host (hostClnt.deviceInfos.findIdx (ofSvcName svcName)) env
 | .unLoadDevice svcName env =>
  let host := s.hosts.findIdx (hasInfo (ofSvcName svcName))
  ∀ hostClnt deviceInfo, s.hostClnt host = some hostClnt →
   s.deviceInfo host (hostClnt.deviceInfos.findIdx (ofSvcName svcName)) = some deviceInfo →
    hostClnt.hostService = true → deviceInfo.preload = .enable → env.loader = true
 | .loadLeftDriver env =>
  RunRules.Along (fun t place => some (loadLeftStep env t place)) (LeftGuard env) s s.places

def System.Tracked (s : System) : Prop :=
 Devmgr.Tracked (fun _ _ => False) s.marks s.services

section Steps
variable {config : List HostConfig} {s t : System} {host info : ℕ} {env : AddInputs}
  {hostClnt : DevHostServiceClnt} {deviceInfo : HdfDeviceInfo}

theorem System.Tracked.entry (h : s.Tracked) (hclnt : s.hostClnt host = some hostClnt)
  (hinfo : s.deviceInfo host info = some deviceInfo) :
  deviceInfo.deviceId ∈ (s.services hostClnt.hostId).nodeIds ↔
   deviceInfo.preload = .enable :=
 (h.right host _ (marks_place hclnt) info _ (entry_place hclnt hinfo)).trans
  (and_iff_left not_false)

theorem System.Tracked.preloadRight (h : s.Tracked) : PreloadRight s := by
 intro hostClnt hhost deviceInfo hinfo
 obtain ⟨host, hclnt⟩ := List.mem_iff_getElem?.mp hhost
 obtain ⟨info, hentry⟩ := List.mem_iff_getElem?.mp hinfo
 have place : s.deviceInfo host info = some deviceInfo := by
  rw [System.deviceInfo, System.hostClnt, hclnt]
  exact hentry
 exact (h.entry hclnt place).symm

theorem load_tracked (h : s.Tracked) (guard : LoadGuard s host info env) :
  (devmgrServiceActiveDevice s host info true env).2.Tracked := by
 rw [devmgrServiceActiveDevice]
 split
 · rename_i hostClnt deviceInfo hclnt hinfo
   by_cases absent : hostClnt.hostService = false
   · rw [if_pos absent]
     exact h
   rw [if_neg absent]
   by_cases off : deviceInfo.preload ≠ .enable
   · rw [if_pos ⟨rfl, off⟩]
     have free : deviceInfo.deviceId ∉ (s.services hostClnt.hostId).nodeIds :=
      fun attached => off ((h.entry hclnt hinfo).mp attached)
     dsimp only
     by_cases success : (devHostServiceAddDevice s hostClnt.hostId deviceInfo env).1 = .success
     · rw [if_pos success, System.Tracked, setPreload_marks, addDevice_marks]
       exact h.add hclnt hinfo free success not_false fun _ _ _ => Iff.rfl
     rw [if_neg success, System.Tracked, addDevice_marks]
     rcases guard hostClnt deviceInfo hclnt hinfo ((Bool.not_eq_false _).mp absent) off with
      accepted | harmless
     · exact absurd (addDevice_success_iff.mpr accepted) success
     · rw [refused_services success harmless]
       exact h
   · rw [if_neg fun both => off both.2, if_neg fun both => nomatch both.1]
     exact h
 · exact h

theorem unload_tracked (h : s.Tracked)
  (guard : ∀ hostClnt deviceInfo, s.hostClnt host = some hostClnt →
   s.deviceInfo host info = some deviceInfo → hostClnt.hostService = true →
    deviceInfo.preload = .enable → env.loader = true) :
  (devmgrServiceActiveDevice s host info false env).2.Tracked := by
 rw [devmgrServiceActiveDevice]
 split
 · rename_i hostClnt deviceInfo hclnt hinfo
   by_cases absent : hostClnt.hostService = false
   · rw [if_pos absent]
     exact h
   rw [if_neg absent, if_neg fun both => nomatch both.1]
   by_cases on : deviceInfo.preload ≠ .disable
   · rw [if_pos ⟨rfl, on⟩, System.Tracked, setPreload_marks]
     have entry := h.entry hclnt hinfo
     have ordered := h.ordered hostClnt.hostId
     by_cases enabled : deviceInfo.preload = .enable
     · have loader := guard hostClnt deviceInfo hclnt hinfo ((Bool.not_eq_false _).mp absent)
        enabled
       obtain ⟨⟨device, devNode⟩, found⟩ := ordered.findNode (entry.mpr enabled)
       have ids := withoutNode_nodeIds found
       have nodup := List.nodup_cons.mp (ids.nodup_iff.mp ordered.nodes)
       obtain ⟨hosts, services⟩ := delDevice_found found
       rw [loader]
       dsimp only
       rw [System.marks, hosts]
       change Devmgr.Tracked _ (s.marks.modify host (HostMarks.setPreload info .disable))
        (devHostServiceDelDevice s hostClnt.hostId deviceInfo.deviceId true).2.services
       rw [services]
       apply h.change (marks_place hclnt) (entry_place hclnt hinfo) (ordered.withoutNode found)
       · intro devid different
         exact ((ids.mem_iff.trans List.mem_cons).trans (or_iff_right different)).symm
       · exact iff_of_false nodup.1 fun both => nomatch both.1
       · exact fun _ _ _ => Iff.rfl
     · have missing : devHostServiceFindNode (s.services hostClnt.hostId) deviceInfo.deviceId =
         none := by
        by_contra found
        obtain ⟨⟨device, devNode⟩, found⟩ := Option.ne_none_iff_exists'.mp found
        have attached := (withoutNode_nodeIds found).mem_iff.mpr List.mem_cons_self
        exact enabled (entry.mp attached)
       change Devmgr.Tracked _
        ((devHostServiceDelDevice s hostClnt.hostId deviceInfo.deviceId
         env.loader).2.marks.modify host (HostMarks.setPreload info .disable))
        (devHostServiceDelDevice s hostClnt.hostId deviceInfo.deviceId env.loader).2.services
       rw [delDevice_missing (Or.inr missing)]
       have same : Devmgr.Tracked (fun _ _ => False)
         (s.marks.modify host (HostMarks.setPreload info .disable))
         (Function.update s.services hostClnt.hostId (s.services hostClnt.hostId)) :=
        h.change (marks_place hclnt) (entry_place hclnt hinfo) ordered (fun _ _ => Iff.rfl)
         (iff_of_false (fun attached => enabled (entry.mp attached))
          fun both => nomatch both.1) fun _ _ _ => Iff.rfl
       rw [Function.update_eq_self] at same
       exact same
   · rw [if_neg fun both => on both.2]
     exact h
 · exact h

def pendingFrom (host info : ℕ) (i j : ℕ) : Prop := i = host ∧ info ≤ j

theorem pendingFrom_later (i j : ℕ) (h : ¬(i = host ∧ j = info)) :
  pendingFrom host (info + 1) i j ↔ pendingFrom host info i j := by
 rw [pendingFrom, pendingFrom]
 omega

theorem installStep_tracked {quickLoad : Bool} {env : ℕ → AddInputs}
  (h : Devmgr.Tracked (pendingFrom host info) s.marks s.services)
  (guard : InstallGuard quickLoad host env s info) :
  (installStep quickLoad host env s info).marks = s.marks ∧
   Devmgr.Tracked (pendingFrom host (info + 1)) s.marks
    (installStep quickLoad host env s info).services := by
 rw [installStep]
 split
 · rename_i hostClnt deviceInfo hclnt hinfo
   obtain ⟨enabled, passed⟩ := guard hostClnt deviceInfo hclnt hinfo
   have place := marks_place hclnt
   have entry := entry_place hclnt hinfo
   have free : deviceInfo.deviceId ∉ (s.services hostClnt.hostId).nodeIds :=
    fun attached => ((h.right host _ place info _ entry).mp attached).2 ⟨rfl, le_rfl⟩
   have skipped : deviceInfo.preload ≠ .enable →
     Devmgr.Tracked (pendingFrom host (info + 1)) s.marks s.services :=
    fun off => h.skip place entry free off pendingFrom_later
   by_cases disabled : deviceInfo.preload = .disable
   · rw [if_pos disabled]
     exact ⟨rfl, skipped (by rw [disabled]; nofun)⟩
   rw [if_neg disabled]
   by_cases quick : quickLoad = true ∧ deviceInfo.preload = .enableStep2
   · rw [if_pos quick]
     exact ⟨rfl, skipped (by rw [quick.2]; nofun)⟩
   rw [if_neg quick]
   refine ⟨addDevice_marks, ?_⟩
   by_cases on : deviceInfo.preload = .enable
   · have success := addDevice_success_iff.mpr (enabled on)
     have done : ¬pendingFrom host (info + 1) host info := by
      rw [pendingFrom]
      omega
     have added := h.add hclnt hinfo free success done pendingFrom_later
     have same := setPreload_self place entry
     rw [HdfDeviceInfo.mark, on] at same
     rw [same] at added
     exact added
   · obtain ⟨refused, harmless⟩ := passed on disabled quick
     have failed : (devHostServiceAddDevice s hostClnt.hostId deviceInfo (env info)).1 ≠
       .success :=
      fun success => refused (addDevice_success_iff.mp success)
     rw [refused_services failed harmless]
     exact skipped on
 · rename_i missing
   refine ⟨rfl, ?_⟩
   constructor
   · intro i m hm j entry hentry
     rw [pendingFrom_later i j]
     · exact h.right i m hm j entry hentry
     · rintro ⟨rfl, rfl⟩
       rw [System.marks, List.getElem?_map] at hm
       obtain ⟨hostClnt, hclnt, rfl⟩ := Option.map_eq_some_iff.mp hm
       rw [DevHostServiceClnt.marks, List.getElem?_map] at hentry
       obtain ⟨deviceInfo, hinfo, -⟩ := Option.map_eq_some_iff.mp hentry
       apply missing hostClnt deviceInfo hclnt
       rw [System.deviceInfo, System.hostClnt, hclnt]
       exact hinfo
   · exact h.distinct
   · exact h.firsts
   · exact h.attached
   · exact h.ordered

theorem install_tracked {quickLoad : Bool} {env : ℕ → AddInputs} (count info : ℕ)
  (h : Devmgr.Tracked (pendingFrom host info) s.marks s.services)
  (along : RunRules.Along (fun t i => some (installStep quickLoad host env t i))
   (InstallGuard quickLoad host env) s (List.range' info count)) :
  ((List.range' info count).foldl (installStep quickLoad host env) s).marks = s.marks ∧
   Devmgr.Tracked (pendingFrom host (info + count)) s.marks
    ((List.range' info count).foldl (installStep quickLoad host env) s).services := by
 induction count generalizing info s with
 | zero => exact ⟨rfl, h⟩
 | succ count ih =>
  rw [List.range'_succ, RunRules.along_cons] at along
  obtain ⟨marks, tracked⟩ := installStep_tracked h along.1
  rw [← marks] at tracked
  obtain ⟨later, final⟩ := ih (info + 1) tracked (along.2 _ rfl)
  rw [marks] at later final
  rw [List.range'_succ, List.foldl_cons]
  refine ⟨later, ?_⟩
  rw [Nat.add_right_comm] at final
  exact final

theorem settle {marks : List HostMarks} {services : ℕ → DevHostService} {m : HostMarks}
  (h : Devmgr.Tracked (pendingFrom host info) marks services) (hm : marks[host]? = some m)
  (whole : m.entries.length ≤ info) : Devmgr.Tracked (fun _ _ => False) marks services where
 right i a ha j entry hentry := by
  have settled : ¬pendingFrom host info i j := by
   rintro ⟨rfl, behind⟩
   obtain rfl : a = m := Option.some.inj (ha.symm.trans hm)
   obtain ⟨inside, -⟩ := List.getElem?_eq_some_iff.mp hentry
   omega
  rw [h.right i a ha j entry hentry, iff_false_intro settled]
 distinct := h.distinct
 firsts := h.firsts
 attached := h.attached
 ordered := h.ordered

theorem obtained_marks {hostId i : ℕ} {m : HostMarks}
  (hm : (s.obtainDeviceInfos config hostId).marks[i]? = some m) :
  ∃ c, s.hosts[i]? = some c ∧ m =
   (if i = s.hosts.findIdx (ofHost hostId) then c.obtainDeviceInfos config else c).marks := by
 rw [System.marks, System.obtainDeviceInfos, List.getElem?_map,
  HdfSList.getElem?_updateFirst] at hm
 split_ifs at hm ⊢ with here
 · rw [Option.map_map] at hm
   obtain ⟨c, hc, rfl⟩ := Option.map_eq_some_iff.mp hm
   exact ⟨c, hc, rfl⟩
 · obtain ⟨c, hc, rfl⟩ := Option.map_eq_some_iff.mp hm
   exact ⟨c, hc, rfl⟩

theorem obtained_tracked {hostId : ℕ} (h : s.Tracked)
  (found : s.hosts.find? (ofHost hostId) = some hostClnt)
  (distinct : ((hostPositions config hostClnt.hostName).map (· % 2 ^ 8)).Nodup)
  (free : ∀ devid ∈ (hostClnt.obtainDeviceInfos config).deviceIds,
   devid ∉ (s.services hostId).nodeIds) :
  Devmgr.Tracked (pendingFrom (s.hosts.findIdx (ofHost hostId)) 0)
   (s.obtainDeviceInfos config hostId).marks s.services := by
 have first := HdfSList.getElem?_findIdx found
 have sameId : hostClnt.hostId = hostId := by
  have same : ofHost hostId hostClnt = true := List.find?_some found
  exact of_decide_eq_true same
 have keptId := obtained_hostId config
 have old : ∀ {i : ℕ} {c : DevHostServiceClnt}, s.hosts[i]? = some c →
   s.marks[i]? = some c.marks := by
  intro i c hc
  rw [System.marks, List.getElem?_map, hc]
  rfl
 constructor
 · intro i m hm j entry hentry
   obtain ⟨c, hc, rfl⟩ := obtained_marks hm
   split_ifs at hentry ⊢ with here
   · subst here
     obtain rfl : c = hostClnt := Option.some.inj (hc.symm.trans first)
     have listed : entry.1 ∈ (c.obtainDeviceInfos config).deviceIds := by
      rw [DevHostServiceClnt.marks, List.getElem?_map] at hentry
      obtain ⟨deviceInfo, hinfo, rfl⟩ := Option.map_eq_some_iff.mp hentry
      exact List.mem_map_of_mem (List.mem_of_getElem? hinfo)
     have unattached : entry.1 ∉
       (s.services (c.obtainDeviceInfos config).marks.hostId).nodeIds := by
      change entry.1 ∉ (s.services (c.obtainDeviceInfos config).hostId).nodeIds
      rw [keptId, sameId]
      exact free entry.1 listed
     exact iff_of_false unattached fun both => both.2 ⟨rfl, Nat.zero_le j⟩
   · have settled : ¬pendingFrom (s.hosts.findIdx (ofHost hostId)) 0 i j := fun both => here both.1
     rw [h.right i _ (old hc) j entry hentry]
     exact and_congr_right fun _ => iff_of_true not_false settled
 · intro i m hm
   obtain ⟨c, hc, rfl⟩ := obtained_marks hm
   split_ifs with here
   · subst here
     obtain rfl : c = hostClnt := Option.some.inj (hc.symm.trans first)
     have ids := obtained_nodup_iff.mpr distinct
     rw [DevHostServiceClnt.marks, List.map_map]
     exact ids
   · exact h.distinct i _ (old hc)
 · intro i j a b hij ha hb same
   obtain ⟨c, hc, rfl⟩ := obtained_marks ha
   obtain ⟨d, hd, rfl⟩ := obtained_marks hb
   have idOf : ∀ (k : ℕ) (e : DevHostServiceClnt),
     (if k = s.hosts.findIdx (ofHost hostId) then e.obtainDeviceInfos config else e).marks.hostId
      = e.hostId := by
    intro k e
    split_ifs
    · exact keptId e
    · rfl
   rw [idOf, idOf] at same
   split_ifs with here
   · subst here
     obtain rfl : d = hostClnt := Option.some.inj (hd.symm.trans first)
     have earlier := List.not_of_lt_findIdx hij
     obtain ⟨inside, rfl⟩ := List.getElem?_eq_some_iff.mp hc
     rw [ofHost, decide_eq_false_iff_not] at earlier
     exact absurd (same.trans sameId) earlier
   · exact h.firsts i j _ _ hij (old hc) (old hd) same
 · intro i m hm hentries
   obtain ⟨c, hc, rfl⟩ := obtained_marks hm
   split_ifs at hentries ⊢
   · change (c.obtainDeviceInfos config).hostService = true
     rw [DevHostServiceClnt.obtainDeviceInfos]
     split <;> rfl
   · exact h.attached i _ (old hc) hentries
 · exact h.ordered

theorem attachDeviceHost_tracked {hostId : ℕ} {quickLoad : Bool} {env : ℕ → AddInputs}
  (h : s.Tracked) (guard : PreloadKept config s (.attachDeviceHost hostId quickLoad env)) :
  (devmgrServiceAttachDeviceHost config s hostId quickLoad env).2.Tracked := by
 rw [devmgrServiceAttachDeviceHost]
 cases found : s.hosts.find? (ofHost hostId) with
 | none => exact h
 | some hostClnt =>
  obtain ⟨distinct, free, along⟩ := guard hostClnt found
  have pending := obtained_tracked h found distinct free
  have client : (s.obtainDeviceInfos config hostId).hostClnt (s.hosts.findIdx (ofHost hostId)) =
    some (hostClnt.obtainDeviceInfos config) := by
   rw [System.hostClnt, System.obtainDeviceInfos, HdfSList.getElem?_updateFirst, if_pos rfl,
    HdfSList.getElem?_findIdx found]
   rfl
  have place := marks_place client
  have length : (hostClnt.obtainDeviceInfos config).marks.entries.length =
    (hostClnt.obtainDeviceInfos config).deviceInfos.length := List.length_map _
  dsimp only
  by_cases none : hdfAttributeManagerGetDeviceList config hostClnt.hostId hostClnt.hostName = none
  · have empty : (hostClnt.obtainDeviceInfos config).deviceInfos = [] := by
     rw [DevHostServiceClnt.obtainDeviceInfos, none]
    rw [if_pos none]
    apply settle pending place
    rw [length, empty]
    exact le_rfl
  rw [if_neg none, devHostServiceClntInstallDriver, client]
  rw [List.range_eq_range'] at along
  dsimp only
  rw [List.range_eq_range', System.Tracked]
  obtain ⟨marks, installed⟩ := install_tracked _ 0 pending along
  rw [marks]
  apply settle installed place
  rw [length, Nat.zero_add]

theorem devmgrStep_tracked {call : DevmgrCall} (h : s.Tracked) (guard : PreloadKept config s call) :
  ∃ t, devmgrStep config s call = some t ∧ t.Tracked := by
 cases call with
 | attachDeviceHost hostId quickLoad env => exact ⟨_, rfl, attachDeviceHost_tracked h guard⟩
 | loadDevice svcName env =>
  refine ⟨_, rfl, ?_⟩
  rw [devmgrServiceLoadDevice, devmgrServiceFindAndActiveDevice]
  split
  · exact h
  · rename_i hostClnt hclnt
    exact load_tracked h (guard hostClnt hclnt)
 | unLoadDevice svcName env =>
  refine ⟨_, rfl, ?_⟩
  rw [devmgrServiceUnLoadDevice, devmgrServiceFindAndActiveDevice]
  split
  · exact h
  · rename_i hostClnt hclnt
    apply unload_tracked h
    intro other deviceInfo hother
    obtain rfl : other = hostClnt := Option.some.inj (hother.symm.trans hclnt)
    exact guard other deviceInfo hclnt
 | loadLeftDriver env =>
  refine ⟨_, rfl, ?_⟩
  apply RunRules.along_foldl _ s s.places h guard
  intro t place tracked left
  rw [loadLeftStep]
  split
  · exact tracked
  · rename_i deviceInfo hinfo
    split_ifs with second
    · exact load_tracked tracked (left deviceInfo hinfo second)
    · exact tracked

theorem start_tracked (config : List HostConfig) (started : HdfHostInfo → Bool) :
  (System.start config started).Tracked := by
 have empty : ∀ {i : ℕ} {m : HostMarks}, (System.start config started).marks[i]? = some m →
   m.entries = [] := by
  intro i m hm
  obtain ⟨c, hc, rfl⟩ := List.mem_map.mp (List.mem_of_getElem? hm)
  obtain ⟨hostAttr, -, rfl⟩ := List.mem_map.mp hc
  rfl
 constructor
 · intro i m hm j entry hentry
   rw [empty hm] at hentry
   cases hentry
 · intro i m hm
   rw [empty hm]
   exact List.nodup_nil
 · intro i j a b _ _ hb _
   exact empty hb
 · intro i m hm hne
   exact absurd (empty hm) hne
 · intro host
   exact ⟨List.nodup_nil, nofun, List.nodup_nil⟩

end Steps

/-- In a run whose calls all keep the agreement the marks agree with the hosts in
every state. -/
theorem preload_right_of_kept (config : List HostConfig) (started : HdfHostInfo → Bool)
    (calls : List DevmgrCall)
    (h : RunRules.Along (devmgrStep config) (PreloadKept config) (System.start config started)
      calls) :
    RunRules.Safe (devmgrStep config) PreloadRight (System.start config started) calls := by
  have tracked := RunRules.safe_of_along (I := System.Tracked)
    (fun s call => devmgrStep_tracked) _ calls (start_tracked config started) h
  intro front hfront
  obtain ⟨t, run, right⟩ := tracked front hfront
  exact ⟨t, run, right.preloadRight⟩

/-- A node is installed and unloaded. -/
theorem preload_right_oneNode :
    RunRules.Safe (devmgrStep oneNodeHost) PreloadRight (System.start oneNodeHost fun _ => true)
      [.attachDeviceHost 0 false fun _ => workingDriver, .unLoadDevice [115] workingDriver] := by
  apply preload_right_of_kept
  rw [RunRules.along_cons]
  constructor
  · intro hostClnt found
    cases found
    refine ⟨by decide, by decide, ?_⟩
    change RunRules.Along _ (InstallGuard _ _ _) _ [0]
    rw [RunRules.along_cons]
    refine ⟨?_, fun _ _ => RunRules.along_nil _⟩
    intro hostClnt deviceInfo client info
    cases client
    cases info
    refine ⟨fun _ => ?_, fun off => absurd rfl off⟩
    exact ⟨rfl, fun _ => rfl, ⟨_, _, rfl, rfl, rfl, fun _ => ⟨rfl, fun _ => ⟨nofun, nofun⟩⟩⟩,
      by decide⟩
  · intro t step
    rw [RunRules.along_cons]
    exact ⟨fun _ _ _ _ _ _ => rfl, fun _ _ => RunRules.along_nil _⟩

def missingDriver : AddInputs := ⟨true, true, none, none, true⟩

/-- An entry whose driver is missing stays enabled after the installation. -/
theorem missing_driver_stays_enabled :
    ¬RunRules.Safe (devmgrStep oneNodeHost) PreloadRight (System.start oneNodeHost fun _ => true)
      [.attachDeviceHost 0 false fun _ => missingDriver] := by
  intro h
  obtain ⟨t, run, right⟩ := h [.attachDeviceHost 0 false fun _ => missingDriver]
    (List.prefix_refl _)
  have wrong : ¬PreloadRight (devmgrServiceAttachDeviceHost oneNodeHost
      (System.start oneNodeHost fun _ => true) 0 false fun _ => missingDriver).2 := by
    decide
  cases run
  exact wrong right

end DriversFramework.Devmgr
