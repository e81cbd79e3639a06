import DriversFramework.SyscallListen
import DriversFramework.SlotTable

namespace DriversFramework.Syscall

open RunRules SlotTable

/-- A state of a run with the services that the callers have put into each group. -/
structure ListenHistory where
 state : ListenState
 listened : ℕ → List ℕ

def ListenHistory.start : ListenHistory := ⟨.start, fun _ => []⟩

def listenedAfter (listened : ℕ → List ℕ) (success : Bool) : ListenCall → ℕ → List ℕ
 | .addService id fd _ =>
  if success then Function.update listened id (listened id ++ [fd]) else listened
 | .removeService id fd => Function.update listened id ((listened id).erase fd)
 | .recycleGroup id => Function.update listened id []
 | _ => listened

def ListenHistory.step (h : ListenHistory) (call : ListenCall) : Option ListenHistory :=
 (h.state.call call).map fun out => ⟨out.2, listenedAfter h.listened out.1 call⟩

structure Table (t : HdfDevListenerThread) (fds : List ℕ) : Prop where
 known : ∀ fd, some fd ∈ t.pfds → fd ∈ fds
 once : ∀ fd, t.pfds.count (some fd) ≤ 1
 all : t.status.isStarted = true → ∀ fd ∈ fds, t.pfds.count (some fd) = 1

structure Right (h : ListenHistory) : Prop where
 adapters : ∀ fd t, (h.state.adapters fd).thread = some t → Table t [fd]
 groups : ∀ id t, (h.state.groups id).thread = some t → Table t (h.listened id)

def servicesMax : ℕ := pfdSizeLimit - hdfPfdGrowSize

def InTurn (s : ListenState) (id : ℕ) : Prop :=
 ∀ t, (s.groups id).thread = some t → t.status.isStarted = false →
  InOrder t.pfds (s.groups id).adapterList

/-- The calls that do not go wrong. -/
def Meets (s : ListenState) : ListenCall → Prop
 | .registerDevice fd listener _ => (listener, .device fd) ∉ s.listeners →
   ∀ id, (s.adapters fd).group = some id → InTurn s id
 | .registerGroup id listener _ => (listener, .group id) ∉ s.listeners → InTurn s id
 | .addService id fd _ => (s.adapters fd).group = none → (s.adapters fd).thread = none →
   (s.groups id).adapterList.length < servicesMax ∧
    (s.hasListener (.group id) || s.hasListener (.device fd) → InTurn s id)
 | .removeService id fd => ∀ own, (s.adapters fd).group = some own →
   (own = id ↔ (s.groups id).thread ≠ none)
 | .unregisterDevice _ _ => True
 | .unregisterGroup _ _ => True
 | .recycleGroup _ => True
 | .threadRuns _ => True
 | .threadExits _ => True

structure Sound (pfds : List (Option ℕ)) (fds : List ℕ) : Prop where
 once : Once pfds
 known : ∀ fd, some fd ∈ pfds → fd ∈ fds
 size : pfds.length % hdfPfdGrowSize = 0

theorem Sound.nil (fds : List ℕ) : Sound [] fds :=
 ⟨fun _ => Nat.zero_le _, fun _ h => (List.not_mem_nil h).elim, rfl⟩

theorem Sound.mono {pfds : List (Option ℕ)} {fds fds' : List ℕ} (h : Sound pfds fds)
 (sub : fds ⊆ fds') :
 Sound pfds fds' := ⟨h.once, fun fd hfd => sub (h.known fd hfd), h.size⟩

variable {pfds pfds' : List (Option ℕ)} {fds adapters : List ℕ} {fd index : ℕ} {grow : Bool}

theorem getValidPfdIndex_new (sound : Sound pfds fds) (small : fds.length ≤ servicesMax)
 (hfd : fd ∈ fds)
 (hnot : some fd ∉ pfds) (h : getValidPfdIndexLocked pfds fd grow = some (index, pfds')) :
 ∃ a b, pfds' = a ++ none :: b ∧ index = a.length ∧ none ∉ a ∧
  (pfds' = pfds ∨ none ∉ pfds ∧ pfds' = pfds ++ List.replicate hdfPfdGrowSize none) := by
 have slot_eq : pfds.findIdx (isPlaceFor fd) = slot pfds fd := rfl
 rw [getValidPfdIndexLocked, slot_eq] at h
 by_cases hole : none ∈ pfds
 · obtain ⟨a, b, rfl, ha⟩ := List.eq_append_cons_of_mem hole
   have hfa : some fd ∉ a := fun hmem => hnot (List.mem_append_left _ hmem)
   rw [slot_hole ha hfa, if_pos (by simp)] at h
   cases h
   exact ⟨a, b, rfl, rfl, ha, .inl rfl⟩
 have short := length_lt hole sound.once sound.known hfd hnot
 have size := sound.size
 have room : pfds.length + hdfPfdGrowSize < pfdSizeLimit := by
  unfold servicesMax pfdSizeLimit hdfPfdGrowSize at *
  omega
 rw [slot_full hole hnot] at h
 rw [if_neg (Nat.lt_irrefl _)] at h
 split_ifs at h
 cases h
 exact ⟨pfds, List.replicate 3 none, rfl, rfl, hole, .inr ⟨hole, rfl⟩⟩

theorem Sound.fill {a b : List (Option ℕ)} (sound : Sound (a ++ none :: b) fds) (hfd : fd ∈ fds)
 (hnot : some fd ∉ a ++ none :: b) : Sound (a ++ some fd :: b) fds := by
 refine ⟨once_fill sound.once hnot, ?_, ?_⟩
 · intro x hx
   by_cases same : x = fd
   · exact same ▸ hfd
   · exact sound.known x (by simpa [same] using hx)
 · have size := sound.size
   simpa using size

theorem Sound.grown (sound : Sound pfds fds)
 (h : pfds' = pfds ∨ none ∉ pfds ∧ pfds' = pfds ++ List.replicate hdfPfdGrowSize none) :
 Sound pfds' fds ∧ ∀ x, some x ∈ pfds' ↔ some x ∈ pfds := by
 rcases h with rfl | ⟨-, rfl⟩
 · exact ⟨sound, fun _ => Iff.rfl⟩
 · have same : ∀ x, some x ∈ pfds ++ List.replicate hdfPfdGrowSize none ↔ some x ∈ pfds := by
    intro x
    simp
   refine ⟨⟨once_append_holes sound.once _, fun x hx => sound.known x ((same x).mp hx), ?_⟩, same⟩
   rw [List.length_append, List.length_replicate, Nat.add_mod_right]
   exact sound.size

theorem add_old (hmem : some fd ∈ pfds) (zero : holesBefore pfds fd = 0) :
 hdfAddAdapterToPfds pfds fd grow = some pfds := by
 obtain ⟨a, b, rfl, ha, hfa⟩ := split_found hmem zero
 have slot_eq : (a ++ some fd :: b).findIdx (isPlaceFor fd) = a.length := slot_found ha hfa
 rw [hdfAddAdapterToPfds, getValidPfdIndexLocked, slot_eq, if_pos (by simp), Option.map_some, set_slot]

theorem add_new (sound : Sound pfds fds) (small : fds.length ≤ servicesMax) (hfd : fd ∈ fds)
 (hnot : some fd ∉ pfds) (nodup : (fd :: adapters).Nodup) (order : InOrder pfds (fd :: adapters))
 (h : hdfAddAdapterToPfds pfds fd grow = some pfds') :
 Sound pfds' fds ∧ InOrder pfds' adapters ∧ some fd ∈ pfds' ∧ ∀ x, some x ∈ pfds → some x ∈ pfds' := by
 obtain ⟨⟨index, grown⟩, found, rfl⟩ := Option.map_eq_some_iff.mp h
 obtain ⟨a, b, rfl, rfl, ha, same⟩ := getValidPfdIndex_new sound small hfd hnot found
 obtain ⟨sound', mem_iff⟩ := sound.grown same
 have hnot' : some fd ∉ a ++ none :: b := fun hmem => hnot ((mem_iff fd).mp hmem)
 have order' : InOrder (a ++ none :: b) (fd :: adapters) := by
  rcases same with same | ⟨-, same⟩
  · rw [same]
    exact order
  · rw [same]
    exact order.append_holes _
 dsimp only
 rw [set_slot]
 refine ⟨sound'.fill hfd hnot', order'.tail_fill ha hnot' nodup, by simp, ?_⟩
 intro x hx
 have there := (mem_iff x).mpr hx
 have ne : x ≠ fd := by
  rintro rfl
  exact hnot hx
 simpa [ne] using there

theorem initPollFds_spec (grow : ℕ → Bool) (small : fds.length ≤ servicesMax) :
 ∀ (adapters : List ℕ) (pfds : List (Option ℕ)), Sound pfds fds → adapters ⊆ fds → adapters.Nodup →
  InOrder pfds adapters →
  Sound (hdfListenThreadInitPollFds grow adapters pfds).2 fds ∧
   (∀ x, some x ∈ pfds → some x ∈ (hdfListenThreadInitPollFds grow adapters pfds).2) ∧
   ((hdfListenThreadInitPollFds grow adapters pfds).1 = true →
    ∀ x ∈ adapters, some x ∈ (hdfListenThreadInitPollFds grow adapters pfds).2) := by
 intro adapters
 induction adapters with
 | nil =>
  intro pfds sound _ _ _
  exact ⟨sound, fun _ h => h, fun _ _ h => (List.not_mem_nil h).elim⟩
 | cons fd adapters ih =>
  intro pfds sound sub nodup order
  have hfd : fd ∈ fds := sub (List.mem_cons_self ..)
  have sub' : adapters ⊆ fds := fun x hx => sub (List.mem_cons_of_mem fd hx)
  have nodup' := (List.nodup_cons.mp nodup).2
  rw [hdfListenThreadInitPollFds]
  by_cases hmem : some fd ∈ pfds
  · obtain ⟨zero, order'⟩ := order.tail_mem hmem
    rw [add_old hmem zero]
    obtain ⟨sound', keep, all⟩ := ih pfds sound sub' nodup' order'
    refine ⟨sound', keep, ?_⟩
    intro done x hx
    rcases List.mem_cons.mp hx with rfl | hx
    · exact keep x hmem
    · exact all done x hx
  cases add : hdfAddAdapterToPfds pfds fd (grow fd) with
  | none => exact ⟨sound, fun _ h => h, fun h => by cases h⟩
  | some pfds' =>
   obtain ⟨sound₁, order₁, added, kept⟩ := add_new sound small hfd hmem nodup order add
   obtain ⟨sound', keep, all⟩ := ih pfds' sound₁ sub' nodup' order₁
   refine ⟨sound', fun x hx => keep x (kept x hx), ?_⟩
   intro done x hx
   rcases List.mem_cons.mp hx with rfl | hx
   · exact keep x added
   · exact all done x hx

structure Held (t : HdfDevListenerThread) (fds : List ℕ) : Prop where
 sound : Sound t.pfds fds
 all : t.status.isStarted = true → ∀ fd ∈ fds, some fd ∈ t.pfds

def Own (t : HdfDevListenerThread) (fd : ℕ) : Prop :=
 t.pfds = [some fd, none, none, none] ∨ t.pfds = [] ∧ t.status.isStarted = false

variable {t : HdfDevListenerThread}

theorem Held.table (h : Held t fds) : Table t fds := by
 refine ⟨h.sound.known, h.sound.once, ?_⟩
 intro started fd hfd
 have some_ := List.count_pos_iff.mpr (h.all started fd hfd)
 have once := h.sound.once fd
 omega

theorem Own.table {t : HdfDevListenerThread} (h : Own t fd) : Table t [fd] := by
 rcases h with table | ⟨table, still⟩
 · refine ⟨?_, ?_, ?_⟩
   · intro x hx
     simpa [table] using hx
   · intro x
     by_cases hx : fd = x
     · simp [table, hx]
     · simp [table, hx]
   · intro _ x hx
     simp [table, List.mem_singleton.mp hx]
 · refine ⟨?_, ?_, ?_⟩
   · intro x hx
     simp [table] at hx
   · intro x
     simp [table]
   · intro started
     rw [still] at started
     cases started

variable {env : ListenEnv}

theorem Held.obtain_ {t : Option HdfDevListenerThread} {t' : HdfDevListenerThread}
 (held : ∀ u, t = some u → Held u fds) (h : hdfDevListenerThreadObtain t env = some t') : Held t' fds := by
 cases t with
 | none =>
  rw [hdfDevListenerThreadObtain] at h
  split_ifs at h
  cases h
  exact ⟨Sound.nil fds, fun started => by cases started⟩
 | some u =>
  cases h
  have old := held u rfl
  unfold hdfDevListenerThreadInit
  split_ifs
  · exact ⟨old.sound, fun started => by cases started⟩
  · exact old

theorem Own.obtain_ {t : Option HdfDevListenerThread} {t' : HdfDevListenerThread}
 (own : ∀ u, t = some u → Own u fd) (h : hdfDevListenerThreadObtain t env = some t') : Own t' fd := by
 cases t with
 | none =>
  rw [hdfDevListenerThreadObtain] at h
  split_ifs at h
  cases h
  exact .inr ⟨rfl, rfl⟩
 | some u =>
  cases h
  have old := own u rfl
  unfold hdfDevListenerThreadInit
  split_ifs
  · exact old.imp id fun h => ⟨h.1, rfl⟩
  · exact old

theorem inTurn_obtain {t : Option HdfDevListenerThread} {t' : HdfDevListenerThread}
 (turn : ∀ u, t = some u → u.status.isStarted = false → InOrder u.pfds adapters)
 (h : hdfDevListenerThreadObtain t env = some t') :
 t'.status.isStarted = false → InOrder t'.pfds adapters := by
 intro still
 cases t with
 | none =>
  rw [hdfDevListenerThreadObtain] at h
  split_ifs at h
  cases h
  intro pre x post _ hx
  cases hx
 | some u =>
  cases h
  unfold hdfDevListenerThreadInit at still ⊢
  split_ifs at still ⊢ with exited
  · exact turn u rfl (by rw [exited]; rfl)
  · exact turn u rfl still

theorem Held.start (held : Held t fds) (small : fds.length ≤ servicesMax)
 (nodup : fds.Nodup) (turn : t.status.isStarted = false → InOrder t.pfds fds) (env : ListenEnv) :
 Held (hdfDevListenerThreadStart t fds env).2 fds := by
 unfold hdfDevListenerThreadStart
 dsimp only
 split_ifs with started inited failed ioctl
 · exact held
 · exact held
 · exact ⟨(initPollFds_spec env.grow small fds t.pfds held.sound (List.Subset.refl fds) nodup
    (turn (by simpa using started))).1, fun h => absurd h started⟩
 · exact ⟨(initPollFds_spec env.grow small fds t.pfds held.sound (List.Subset.refl fds) nodup
    (turn (by simpa using started))).1, fun h => absurd h started⟩
 · obtain ⟨sound, -, all⟩ := initPollFds_spec env.grow small fds t.pfds held.sound (List.Subset.refl fds)
    nodup (turn (by simpa using started))
   rw [not_or, Bool.not_eq_false] at failed
   exact ⟨sound, fun _ => all failed.1⟩

theorem initPollFds_own (grow : ℕ → Bool) (fd : ℕ)
 (h : pfds = [some fd, none, none, none] ∨ pfds = []) :
 (hdfListenThreadInitPollFds grow [fd] pfds).2 = [some fd, none, none, none] ∨
  (hdfListenThreadInitPollFds grow [fd] pfds).2 = [] := by
 rcases h with rfl | rfl
 · left
   simp [hdfListenThreadInitPollFds, hdfAddAdapterToPfds, getValidPfdIndexLocked, isPlaceFor, List.findIdx_cons]
 · cases hgrow : grow fd with
   | false =>
    right
    simp [hdfListenThreadInitPollFds, hdfAddAdapterToPfds, getValidPfdIndexLocked, hgrow]
   | true =>
    left
    simp [hdfListenThreadInitPollFds, hdfAddAdapterToPfds, getValidPfdIndexLocked, hgrow, hdfPfdGrowSize,
     pfdSizeLimit, List.replicate]

theorem Own.start (own : Own t fd) (env : ListenEnv) :
 Own (hdfDevListenerThreadStart t [fd] env).2 fd := by
 have after := initPollFds_own env.grow fd (own.imp id And.left)
 unfold hdfDevListenerThreadStart
 dsimp only
 split_ifs with started inited failed ioctl
 · exact own
 · exact own
 · exact after.imp id fun h => ⟨h, by simpa using started⟩
 · exact after.imp id fun h => ⟨h, by simpa using started⟩
 · rw [not_or] at failed
   exact .inl (after.resolve_right failed.2)

theorem drop_spec (sound : Sound pfds fds) (nodup : fds.Nodup) (fd : ℕ) :
 Sound (dropFd pfds fd) (fds.erase fd) ∧ ∀ x, x ≠ fd → some x ∈ pfds → some x ∈ dropFd pfds fd := by
 by_cases hmem : some fd ∈ pfds
 · obtain ⟨a, b, rfl, ha⟩ := List.eq_append_cons_of_mem hmem
   have index : (a ++ some fd :: b).findIdx (fun pfd => pfd = some fd) = a.length := by
    rw [List.findIdx_append, List.findIdx_eq_length.mpr]
    · simp [List.findIdx_cons]
    · intro e he
      have ne : e ≠ some fd := fun same => ha (same ▸ he)
      simpa using ne
   rw [dropFd, index, set_slot]
   obtain ⟨once, gone⟩ := once_clear sound.once
   have size := sound.size
   refine ⟨⟨once, ?_, by simpa using size⟩, ?_⟩
   · intro x hx
     have ne : x ≠ fd := by
      rintro rfl
      exact gone hx
     exact nodup.mem_erase_iff.mpr ⟨ne, sound.known x (by simpa [ne] using hx)⟩
   · intro x ne hx
     simpa [ne] using hx
 · have same : dropFd pfds fd = pfds := by
    rw [dropFd, List.set_eq_of_length_le]
    refine le_of_eq (Eq.symm (List.findIdx_eq_length.mpr ?_))
    intro e he
    have ne : e ≠ some fd := fun same => hmem (same ▸ he)
    simpa using ne
   rw [same]
   refine ⟨⟨sound.once, ?_, sound.size⟩, fun x _ hx => hx⟩
   intro x hx
   have ne : x ≠ fd := by
    rintro rfl
    exact hmem hx
   exact nodup.mem_erase_iff.mpr ⟨ne, sound.known x hx⟩

theorem Held.drop (held : Held t fds) (nodup : fds.Nodup) (fd : ℕ) :
 Held { t with pfds := dropFd t.pfds fd } (fds.erase fd) := by
 obtain ⟨sound, kept⟩ := drop_spec held.sound nodup fd
 refine ⟨sound, ?_⟩
 intro started x hx
 obtain ⟨ne, hx⟩ := nodup.mem_erase_iff.mp hx
 exact kept x ne (held.all started x hx)

theorem pollAdd_spec (held : Held t fds) (small : fds.length < servicesMax)
 (hnot : fd ∉ fds) (env : ListenEnv) :
 ((hdfListenThreadPollAdd t fds fd env).1 = false ∧ (hdfListenThreadPollAdd t fds fd env).2.2 = fds ∧
  Held (hdfListenThreadPollAdd t fds fd env).2.1 fds) ∨
 (hdfListenThreadPollAdd t fds fd env).1 = true ∧
  (hdfListenThreadPollAdd t fds fd env).2.2 = fds ++ [fd] ∧
  Held (hdfListenThreadPollAdd t fds fd env).2.1 (fds ++ [fd]) ∧
  ((hdfListenThreadPollAdd t fds fd env).2.1.status.isStarted = false →
   (hdfListenThreadPollAdd t fds fd env).2.1 = t) := by
 have sound' : Sound t.pfds (fds ++ [fd]) := held.sound.mono (List.subset_append_left ..)
 have small' : (fds ++ [fd]).length ≤ servicesMax := by
  rw [List.length_append]
  exact small
 have hfd : fd ∈ fds ++ [fd] := by simp
 have hfree : some fd ∉ t.pfds := fun hmem => hnot (held.sound.known fd hmem)
 unfold hdfListenThreadPollAdd
 by_cases still : t.status.isStarted = false
 · rw [if_pos still]
   refine .inr ⟨rfl, rfl, ⟨sound', ?_⟩, fun _ => rfl⟩
   intro started
   rw [still] at started
   cases started
 rw [if_neg still]
 cases found : getValidPfdIndexLocked t.pfds fd (env.grow fd) with
 | none => exact .inl ⟨rfl, rfl, held⟩
 | some place =>
  obtain ⟨index, pfds'⟩ := place
  obtain ⟨a, b, rfl, rfl, ha, same⟩ := getValidPfdIndex_new sound' small' hfd hfree found
  obtain ⟨sound₁, mem_iff⟩ := sound'.grown same
  obtain ⟨sound₂, -⟩ := held.sound.grown same
  have hnot' : some fd ∉ a ++ none :: b := fun hmem => hfree ((mem_iff fd).mp hmem)
  dsimp only
  split_ifs with failed
  · refine .inl ⟨rfl, rfl, ?_⟩
    dsimp only
    rw [set_slot]
    exact ⟨sound₂, fun started x hx => (mem_iff x).mpr (held.all started x hx)⟩
  · refine .inr ⟨rfl, rfl, ?_, fun h => absurd h still⟩
    dsimp only
    rw [set_slot]
    refine ⟨sound₁.fill hfd hnot', ?_⟩
    intro started x hx
    by_cases here : x = fd
    · simp [here]
    · have old := (mem_iff x).mpr (held.all started x (by simpa [here] using hx))
      simpa [here] using old

structure Inv (s : ListenState) (listened : ℕ → List ℕ) : Prop where
 own : ∀ fd t, (s.adapters fd).thread = some t → Own t fd
 lists : ∀ id, (s.groups id).adapterList = listened id
 nodup : ∀ id, (listened id).Nodup
 member : ∀ id fd, fd ∈ listened id ↔ (s.adapters fd).group = some id
 small : ∀ id, (listened id).length ≤ servicesMax
 held : ∀ id t, (s.groups id).thread = some t → Held t (listened id)

theorem Inv.right {s : ListenState} {listened : ℕ → List ℕ} (inv : Inv s listened) : Right
 ⟨s, listened⟩ :=
 ⟨fun fd t ht => (inv.own fd t ht).table, fun id t ht => (inv.held id t ht).table⟩

theorem inv_start : Inv .start fun _ => [] where
 own _ _ h := by cases h
 lists _ := rfl
 nodup _ := List.nodup_nil
 member _ _ := iff_of_false List.not_mem_nil (by rintro ⟨⟩)
 small _ := Nat.zero_le _
 held _ _ h := by cases h

variable {s s' : ListenState} {listened : ℕ → List ℕ} {id : ℕ}

theorem Inv.congr (inv : Inv s listened) (hadapters : s'.adapters = s.adapters)
 (hgroups : s'.groups = s.groups) : Inv s' listened := by
 refine ⟨?_, ?_, inv.nodup, ?_, inv.small, ?_⟩
 · rw [hadapters]
   exact inv.own
 · rw [hgroups]
   exact inv.lists
 · rw [hadapters]
   exact inv.member
 · rw [hgroups]
   exact inv.held

theorem Inv.relisted (inv : Inv s listened) {fds' : List ℕ} {thread : Option HdfDevListenerThread}
 (own : ∀ x, (s'.adapters x).thread = (s.adapters x).thread)
 (groups : s'.groups = Function.update s.groups id ⟨fds', thread⟩) (nodup : fds'.Nodup)
 (small : fds'.length ≤ servicesMax) (held : ∀ t, thread = some t → Held t fds')
 (member : ∀ i x, x ∈ Function.update listened id fds' i ↔ (s'.adapters x).group = some i) :
 Inv s' (Function.update listened id fds') := by
 refine ⟨fun x t ht => inv.own x t (own x ▸ ht), fun i => ?_, fun i => ?_, member, fun i => ?_,
  fun i t ht => ?_⟩ <;> by_cases hi : i = id
 · subst hi
   simp [groups]
 · simpa [groups, hi] using inv.lists i
 · subst hi
   simpa using nodup
 · simpa [hi] using inv.nodup i
 · subst hi
   simpa using small
 · simpa [hi] using inv.small i
 · subst hi
   simpa using held t (by simpa [groups] using ht)
 · simpa [hi] using inv.held i t (by simpa [groups, hi] using ht)

theorem Inv.setThread (inv : Inv s listened) (thread : Option HdfDevListenerThread)
 (held : ∀ t, thread = some t → Held t (listened id)) :
 Inv (s.setGroup id { s.groups id with thread := thread }) listened := by
 refine ⟨inv.own, ?_, inv.nodup, inv.member, inv.small, ?_⟩
 · intro i
   rw [← inv.lists i]
   by_cases hi : i = id
   · subst hi
     simp [ListenState.setGroup]
   · simp [ListenState.setGroup, hi]
 · intro i t ht
   by_cases hi : i = id
   · subst hi
     exact held t (by simpa [ListenState.setGroup] using ht)
   · exact inv.held i t (by simpa [ListenState.setGroup, hi] using ht)

theorem Inv.setGroup (inv : Inv s listened) (thread : Option HdfDevListenerThread)
 (held : ∀ t, thread = some t → Held t (listened id)) :
 Inv (s.setGroup id ⟨listened id, thread⟩) listened := by
 rw [← inv.lists id]
 exact inv.setThread thread held

theorem Inv.setOwn (inv : Inv s listened) (thread : Option HdfDevListenerThread)
 (own : ∀ t, thread = some t → Own t fd) :
 Inv (s.setAdapter fd { s.adapters fd with thread := thread }) listened := by
 refine ⟨?_, inv.lists, inv.nodup, ?_, inv.small, inv.held⟩
 · intro x t ht
   by_cases hx : x = fd
   · subst hx
     exact own t (by simpa [ListenState.setAdapter] using ht)
   · exact inv.own x t (by simpa [ListenState.setAdapter, hx] using ht)
 · intro i x
   rw [inv.member i x]
   by_cases hx : x = fd
   · subst hx
     simp [ListenState.setAdapter]
   · simp [ListenState.setAdapter, hx]

theorem groupThreadStart_inv (inv : Inv s listened) (turn : InTurn s id) (env : ListenEnv) :
 Inv (hdfIoServiceGroupThreadStart s id env).2 listened := by
 unfold hdfIoServiceGroupThreadStart
 dsimp only
 cases obtained : hdfDevListenerThreadObtain (s.groups id).thread env with
 | none => exact inv
 | some t =>
  have held := Held.obtain_ (fun u hu => inv.held id u hu) obtained
  have turn' := inTurn_obtain turn obtained
  rw [inv.lists id] at turn'
  refine inv.setThread _ ?_
  rintro _ ⟨⟩
  rw [inv.lists id]
  exact held.start (inv.small id) (inv.nodup id) turn' env

theorem startListen_inv (inv : Inv s listened) (fd : ℕ) (env : ListenEnv) :
 Inv (hdfIoServiceStartListen s fd env).2 listened := by
 unfold hdfIoServiceStartListen
 dsimp only
 cases obtained : hdfDevListenerThreadObtain (s.adapters fd).thread env with
 | none => exact inv
 | some t =>
  have own := Own.obtain_ (fun u hu => inv.own fd u hu) obtained
  refine inv.setOwn _ ?_
  rintro _ ⟨⟩
  exact own.start env

theorem registerDevice_inv (inv : Inv s listened) {listener : ℕ}
 (meets : Meets s (.registerDevice fd listener env)) {out : Bool × ListenState}
 (h : hdfDeviceRegisterEventListener s fd listener env = some out) : Inv out.2 listened := by
 unfold hdfDeviceRegisterEventListener at h
 split_ifs at h with double listed
 · cases h
   exact inv
 · have inv' : Inv (s.insert listener (.device fd)) listened := inv.congr rfl rfl
   cases hgroup : (s.adapters fd).group with
   | some own =>
    have turn : InTurn (s.insert listener (.device fd)) own := meets double own hgroup
    have eq : ((s.insert listener (.device fd)).adapters fd).group = some own := hgroup
    simp only [eq] at h
    cases h
    exact groupThreadStart_inv inv' turn env
   | none =>
    have eq : ((s.insert listener (.device fd)).adapters fd).group = none := hgroup
    simp only [eq] at h
    cases h
    have started := startListen_inv inv' fd env
    dsimp only
    split_ifs
    · exact started
    · exact started.congr rfl rfl

theorem unregisterDevice_inv (inv : Inv s listened) (fd listener : ℕ) :
 Inv (hdfDeviceUnregisterEventListener s fd listener).2 listened := by
 unfold hdfDeviceUnregisterEventListener
 dsimp only
 have inv' : Inv (s.remove listener) listened := inv.congr rfl rfl
 split_ifs
 · exact inv
 · exact inv'
 · exact inv'.setOwn none (by rintro _ ⟨⟩)

theorem registerGroup_inv (inv : Inv s listened) {listener : ℕ}
 (meets : Meets s (.registerGroup id listener env)) {out : Bool × ListenState}
 (h : hdfIoServiceGroupRegisterListener s id listener env = some out) : Inv out.2 listened := by
 unfold hdfIoServiceGroupRegisterListener at h
 cases obtained : hdfDevListenerThreadObtain (s.groups id).thread env with
 | none =>
  simp only [obtained] at h
  cases h
  exact inv
 | some t =>
  have held := Held.obtain_ (fun u hu => inv.held id u hu) obtained
  simp only [obtained] at h
  have bound : Inv (s.setGroup id { s.groups id with thread := some t }) listened := by
   refine inv.setThread _ ?_
   rintro _ ⟨⟩
   exact held
  by_cases double : (listener, .group id) ∈ s.listeners
  · rw [if_pos double] at h
    cases h
    exact bound
  have turn' := inTurn_obtain (meets double) obtained
  rw [inv.lists id] at turn'
  have started : Inv (s.setGroup id { s.groups id with
   thread := some (hdfDevListenerThreadStart t (s.groups id).adapterList env).2 }) listened := by
   refine inv.setThread _ ?_
   rintro _ ⟨⟩
   rw [inv.lists id]
   exact held.start (inv.small id) (inv.nodup id) turn' env
  have twice : ∀ old new : HdfSyscallAdapterGroup, Function.update (Function.update s.groups id old) id new =
   Function.update s.groups id new := fun _ _ => Function.update_idem ..
  rw [if_neg double] at h
  split_ifs at h with listed start success
  · cases h
    exact started.congr rfl (twice _ _)
  · cases h
    exact started.congr rfl (twice _ _)
  · cases h
    exact bound.congr rfl rfl

theorem unregisterGroup_inv (inv : Inv s listened) (id listener : ℕ) :
 Inv (hdfIoServiceGroupUnregisterListener s id listener).2 listened := by
 unfold hdfIoServiceGroupUnregisterListener
 dsimp only
 have inv' : Inv (s.remove listener) listened := inv.congr rfl rfl
 split_ifs
 · exact inv
 · exact inv'.setThread none (by rintro _ ⟨⟩)
 · exact inv'

theorem Inv.joined (inv : Inv s listened) (hgroup : (s.adapters fd).group = none)
 (small : (listened id).length < servicesMax) (held : Held t (listened id ++ [fd])) :
 Inv ((s.setGroup id ⟨listened id ++ [fd], some t⟩).setAdapter fd { s.adapters fd with group := some id })
  (Function.update listened id (listened id ++ [fd])) := by
 have alone : ∀ i, fd ∉ listened i := by
  intro i hmem
  rw [(inv.member i fd).mp hmem] at hgroup
  cases hgroup
 have nodup : (listened id ++ [fd]).Nodup :=
  inv.nodup id |>.append (List.nodup_singleton fd) (List.disjoint_singleton.mpr (alone id))
 refine inv.relisted (fun x => ?_) rfl nodup (by simpa using small.nat_succ_le) (by rintro _ ⟨⟩; exact held) ?_
 · by_cases hx : x = fd
   · subst hx
     simp [ListenState.setAdapter, ListenState.setGroup]
   · simp [ListenState.setAdapter, ListenState.setGroup, hx]
 · intro i x
   by_cases hi : i = id
   · subst hi
     rw [Function.update_self, List.mem_append, List.mem_singleton]
     by_cases hx : x = fd
     · subst hx
       simp [ListenState.setAdapter]
     · simpa [ListenState.setAdapter, ListenState.setGroup, hx] using inv.member i x
   rw [Function.update_of_ne hi]
   by_cases hx : x = fd
   · subst hx
     refine iff_of_false (alone i) ?_
     simpa [ListenState.setAdapter] using Ne.symm hi
   · simpa [ListenState.setAdapter, ListenState.setGroup, hx] using inv.member i x

theorem addService_inv (inv : Inv s listened) (meets : Meets s (.addService id fd env))
 {out : Bool × ListenState} (h : hdfIoServiceGroupAddService s id fd env = some out) :
 Inv out.2 (listenedAfter listened out.1 (.addService id fd env)) := by
 unfold hdfIoServiceGroupAddService at h
 by_cases hgroup : (s.adapters fd).group = none
 swap
 · rw [if_pos hgroup] at h
   cases h
   exact inv
 by_cases hthread : (s.adapters fd).thread = none
 swap
 · rw [if_neg (not_not.mpr hgroup), if_pos hthread] at h
   cases h
   exact inv
 rw [if_neg (not_not.mpr hgroup), if_neg (not_not.mpr hthread)] at h
 obtain ⟨small, turn⟩ := meets hgroup hthread
 have hnot : fd ∉ listened id := by
  intro hmem
  rw [(inv.member id fd).mp hmem] at hgroup
  cases hgroup
 cases obtained : hdfDevListenerThreadObtain (s.groups id).thread env with
 | none =>
  simp only [obtained] at h
  cases h
  exact inv
 | some t =>
  have held := Held.obtain_ (fun u hu => inv.held id u hu) obtained
  have hfree : some fd ∉ t.pfds := fun hmem => hnot (held.sound.known fd hmem)
  rw [inv.lists id] at small
  simp only [obtained, inv.lists id] at h
  rcases pollAdd_spec held small hnot env with ⟨failed, list, held'⟩ | ⟨added, list, held', same⟩
  · rw [if_pos failed, list] at h
    cases h
    exact inv.setGroup _ (by rintro _ ⟨⟩; exact held')
  · rw [if_neg (by simp [added]), list] at h
    split_ifs at h with listener started
    · cases h
      have turn' := inTurn_obtain (turn listener.1) obtained
      rw [inv.lists id] at turn'
      have nodup : (listened id ++ [fd]).Nodup :=
       List.nodup_append.mpr ⟨inv.nodup id, List.pairwise_singleton .., by
        intro x hx y hy
        rw [List.mem_singleton.mp hy]
        rintro rfl
        exact hnot hx⟩
      have length : (listened id ++ [fd]).length ≤ servicesMax := by
       rw [List.length_append]
       exact small
      have order : (hdfListenThreadPollAdd t (listened id) fd env).2.1.status.isStarted = false →
       InOrder (hdfListenThreadPollAdd t (listened id) fd env).2.1.pfds (listened id ++ [fd]) := by
       intro still
       have unchanged := same still
       rw [unchanged] at still ⊢
       exact (turn' still).snoc hfree
      have held₂ := held'.start length nodup order env
      refine (inv.joined hgroup small held₂).congr rfl ?_
      exact Function.update_idem ..
    · cases h
      exact inv.joined hgroup small held'

theorem Inv.left (inv : Inv s listened) (hgroup : (s.adapters fd).group = some id)
 (thread : Option HdfDevListenerThread) (held : ∀ t, thread = some t → Held t ((listened id).erase fd)) :
 Inv ((s.setGroup id ⟨(listened id).erase fd, thread⟩).setAdapter fd { s.adapters fd with group := none })
  (Function.update listened id ((listened id).erase fd)) := by
 have only : ∀ i, i ≠ id → fd ∉ listened i := by
  intro i hi hmem
  rw [(inv.member i fd).mp hmem] at hgroup
  exact hi (Option.some.inj hgroup)
 have fewer := (List.length_erase_le (l := listened id) (a := fd)).trans (inv.small id)
 refine inv.relisted (fun x => ?_) rfl ((inv.nodup id).erase fd) fewer held ?_
 · by_cases hx : x = fd
   · subst hx
     simp [ListenState.setAdapter, ListenState.setGroup]
   · simp [ListenState.setAdapter, ListenState.setGroup, hx]
 · intro i x
   by_cases hi : i = id
   · subst hi
     rw [Function.update_self, (inv.nodup i).mem_erase_iff]
     by_cases hx : x = fd
     · subst hx
       simp [ListenState.setAdapter]
     · simpa [ListenState.setAdapter, ListenState.setGroup, hx] using inv.member i x
   rw [Function.update_of_ne hi]
   by_cases hx : x = fd
   · subst hx
     refine iff_of_false (only i hi) ?_
     simp [ListenState.setAdapter]
   · simpa [ListenState.setAdapter, ListenState.setGroup, hx] using inv.member i x

theorem removeService_inv (inv : Inv s listened) (meets : Meets s (.removeService id fd)) :
 Inv (hdfIoServiceGroupRemoveService s id fd) (Function.update listened id ((listened id).erase fd)) := by
 have absent : ∀ own, (s.adapters fd).group = own → own ≠ some id →
  Function.update listened id ((listened id).erase fd) = listened := by
  intro own hgroup ne
  have hnot : fd ∉ listened id := by
   intro hmem
   exact ne (hgroup.symm.trans ((inv.member id fd).mp hmem))
  rw [List.erase_of_not_mem hnot, Function.update_eq_self]
 unfold hdfIoServiceGroupRemoveService
 cases hgroup : (s.adapters fd).group with
 | none =>
  rw [absent none hgroup (by simp)]
  cases (s.groups id).thread with
  | none => exact inv
  | some t => exact inv
 | some own =>
  have here := meets own hgroup
  cases hthread : (s.groups id).thread with
  | none =>
   have other : own ≠ id := fun same => here.mp same hthread
   rw [absent (some own) hgroup (by simpa using other)]
   exact inv
  | some t =>
   obtain rfl := here.mpr (by simp [hthread])
   have left := inv.left hgroup (if (s.groups own).adapterList.length = 1 then none
    else some { t with pfds := dropFd t.pfds fd }) ?_
   · refine left.congr rfl ?_
     change Function.update (Function.update s.groups own _) own _ = Function.update s.groups own _
     rw [Function.update_idem]
     simp [ListenState.setGroup, inv.lists own]
   · intro u hu
     split_ifs at hu
     cases hu
     exact (inv.held own t hthread).drop (inv.nodup own) fd

theorem recycle_inv (inv : Inv s listened) (id : ℕ) :
 Inv (hdfIoServiceGroupRecycle s id) (Function.update listened id []) := by
 have adapters : ∀ x, (hdfIoServiceGroupRecycle s id).adapters x =
  if x ∈ listened id then { s.adapters x with group := none } else s.adapters x := by
  intro x
  rw [← inv.lists id]
  rfl
 refine inv.relisted (fun x => ?_) rfl List.nodup_nil (Nat.zero_le _) (by rintro _ ⟨⟩) ?_
 · rw [adapters]
   split <;> rfl
 · intro i x
   rw [adapters]
   by_cases hi : i = id
   · subst hi
     rw [Function.update_self]
     refine iff_of_false List.not_mem_nil ?_
     split_ifs with hx
     · simp
     · exact fun hgroup => hx ((inv.member i x).mpr hgroup)
   · rw [Function.update_of_ne hi, inv.member i x]
     split_ifs with hx
     · rw [(inv.member id x).mp hx]
       simpa using Ne.symm hi
     · exact Iff.rfl

theorem setStatus_inv (inv : Inv s listened) (place : Place) (status : ListenerStatus) :
 Inv (s.setStatus place status) listened := by
 cases place with
 | device fd =>
  refine inv.setOwn _ ?_
  intro t ht
  obtain ⟨u, hu, rfl⟩ := Option.map_eq_some_iff.mp ht
  have own := inv.own fd u hu
  split_ifs with started
  · refine .inl (own.resolve_right fun h => ?_)
    rw [h.2] at started
    cases started
  · exact own
 | group id =>
  refine inv.setThread _ ?_
  intro t ht
  obtain ⟨u, hu, rfl⟩ := Option.map_eq_some_iff.mp ht
  have held := inv.held id u hu
  split_ifs with started
  · exact ⟨held.sound, fun _ => held.all started⟩
  · exact held

theorem inv_step {h t : ListenHistory} {call : ListenCall} (inv : Inv h.state h.listened)
 (meets : Meets h.state call) (hstep : h.step call = some t) : Inv t.state t.listened := by
 obtain ⟨out, hout, rfl⟩ := Option.map_eq_some_iff.mp hstep
 cases call with
 | registerDevice fd listener env => exact registerDevice_inv inv meets hout
 | unregisterDevice fd listener =>
  cases hout
  exact unregisterDevice_inv inv fd listener
 | registerGroup id listener env => exact registerGroup_inv inv meets hout
 | unregisterGroup id listener =>
  cases hout
  exact unregisterGroup_inv inv id listener
 | addService id fd env => exact addService_inv inv meets hout
 | removeService id fd =>
  cases hout
  exact removeService_inv inv meets
 | recycleGroup id =>
  cases hout
  exact recycle_inv inv id
 | threadRuns place =>
  cases hout
  exact setStatus_inv inv place .running
 | threadExits place =>
  cases hout
  exact setStatus_inv inv place .exited

/-- The poll tables are right in every state that a history without a call that goes wrong
reaches. -/
theorem tables_right_of_meets (calls : List ListenCall) (h : ListenHistory)
    (meets : Along ListenHistory.step (fun h call => Meets h.state call) .start calls)
    (hexec : exec ListenHistory.step .start calls = some h) : Right h :=
  (along_invariant (I := fun h => Inv h.state h.listened) (fun _ _ _ inv meets hstep => inv_step inv meets hstep)
    .start h calls inv_start meets hexec).right

def allWorks : ListenEnv := ⟨true, fun _ => true, fun _ => true, true, true⟩

/-- A service of a group with a listener. -/
theorem tables_right_oneService : ∃ h, exec ListenHistory.step .start
    [.addService 0 5 allWorks, .registerGroup 0 1 allWorks] = some h ∧ Right h := by
  refine ⟨_, rfl, tables_right_of_meets [.addService 0 5 allWorks, .registerGroup 0 1 allWorks] _ ?_ rfl⟩
  refine (along_cons _ _ _).mpr ⟨?_, fun h hstep => (along_cons _ _ _).mpr ⟨?_, fun _ _ => along_nil _⟩⟩
  · exact fun _ _ => ⟨by decide, by rintro ⟨⟩⟩
  · intro _ t ht _ pre x post _ hx
    cases hstep
    cases ht
    cases hx

def restarted : List ListenCall :=
 [.addService 0 5 allWorks, .addService 0 6 allWorks, .registerGroup 0 1 allWorks, .threadRuns (.group 0),
  .threadExits (.group 0), .removeService 0 5, .registerGroup 0 2 allWorks]

theorem restarted_twice : ¬ ∀ calls h, exec ListenHistory.step .start calls = some h → Right h := by
  intro all
  have run : (exec ListenHistory.step .start restarted).map
      (fun h => (h.state.groups 0).thread.map (·.pfds)) = some (some [some 6, some 6, none, none]) := by
    decide
  obtain ⟨h, hexec, hthread⟩ := Option.map_eq_some_iff.mp run
  obtain ⟨t, ht, hpfds⟩ := Option.map_eq_some_iff.mp hthread
  have once := ((all restarted h hexec).groups 0 t ht).once 6
  rw [hpfds] at once
  exact absurd once (by decide)

end DriversFramework.Syscall
