import DriversFramework.DoublyLinked
import DriversFramework.LoopPrograms
import DriversFramework.RunRules

/-! The links of the regulators, of the entries of the tree and of their children, as registration
makes them and as the functions that remove all of them walk over them. A step that reads or
writes a place that is not allocated, or not any more, has no result. Both managers exist. -/
namespace DriversFramework.RegulatorLists

open DoublyLinked LoopPrograms RunRules

/-- Where there is a link or the head of a list: in the managers, in a `RegulatorNode`, in a
`RegulatorTreeInfo` and in a `RegulatorChildNode`. -/
inductive Place where
 | null
 | regulatorHead
 | treeMgrHead
 | node (i : ℕ)
 | entry (i : ℕ)
 | childHead (i : ℕ)
 | child (i : ℕ)
 deriving DecidableEq

structure RegulatorMemory where
 links : Links Place
 freed : List Place

/-- What locking a manager gives: its lock may be refused, and may have been left locked. -/
inductive LockOutcome where
 | taken
 | refused
 | waits
 deriving DecidableEq

inductive RemoveStatus where
 | success
 | failure
 | errDeviceBusy
 deriving DecidableEq

def nextOf (place : Place) : Prog RegulatorMemory Place :=
 Prog.attempt fun s => (nexts s.links place).map fun next => (next, s)

def dListRemove (entry : Place) : Prog RegulatorMemory Unit :=
 Prog.attempt fun s => (remove .null s.links entry).map fun links => ((), { s with links := links })

def osalMemFree (object : Place) (places : List Place) : Prog RegulatorMemory Unit :=
 Prog.attempt fun s =>
  if (s.links object).isSome then
   some ((), ⟨fun place => if place ∈ places then none else s.links place, s.freed ++ [object]⟩)
  else none

/-- `DLIST_FOR_EACH_ENTRY`: the next element is read from the element that was visited. -/
def dListForEachEntry (head : Place) (body : Place → Prog RegulatorMemory Unit) :
  Prog RegulatorMemory Unit := do
 let first ← nextOf head
 Prog.loop (fun pos =>
  if pos = head then pure (.inr ())
  else do
   body pos
   let next ← nextOf pos
   pure (.inl next)) first

def regulatorChildListDestroy (childHead : Place) : Prog RegulatorMemory Unit :=
 dListForEachEntry childHead fun pos => do
  dListRemove pos
  osalMemFree pos [pos]

def childHeadOf : Place → Place
 | .entry i => .childHead i
 | _ => .null

def regulatorTreeNodeRemoveAll (lock : LockOutcome) : Prog RegulatorMemory RemoveStatus :=
 match lock with
 | .waits => Prog.never
 | .refused => pure .errDeviceBusy
 | .taken => do
  dListForEachEntry .treeMgrHead fun pos => do
   regulatorChildListDestroy (childHeadOf pos)
   dListRemove pos
   osalMemFree pos [pos, childHeadOf pos]
  pure .success

def regulatorNodeRemoveAll (treeLock lock : LockOutcome) : Prog RegulatorMemory RemoveStatus := do
 let status ← regulatorTreeNodeRemoveAll treeLock
 if status ≠ .success then pure .failure
 else
  match lock with
  | .waits => Prog.never
  | .refused => pure .errDeviceBusy
  | .taken => do
   dListForEachEntry .regulatorHead fun pos => do
    dListRemove pos
    osalMemFree pos [pos]
   pure .success

/-- A regulator is added, a tree entry is made, or a child is added to the entry of its parent. -/
inductive Registration where
 | node (i : ℕ)
 | entry (i : ℕ)
 | child (entry i : ℕ)
 deriving DecidableEq

structure Shape where
 nodes : List ℕ
 entries : List ℕ
 children : ℕ → List ℕ

structure Registered where
 memory : RegulatorMemory
 shape : Shape

def insertNew (links : Links Place) (place head : Place) : Option (Links Place) :=
 if (links place).isSome then none
 else insertTail (Function.update links place (some ⟨.null, .null⟩)) place head

def Registered.step (s : Registered) : Registration → Option Registered
  | .node i =>
    (insertNew s.memory.links (.node i) .regulatorHead).map fun links =>
      ⟨{ s.memory with links := links }, { s.shape with nodes := s.shape.nodes ++ [i] }⟩
  | .entry i =>
    if (s.memory.links (.childHead i)).isSome then none
    else
      (init (Function.update s.memory.links (.childHead i) (some ⟨.null, .null⟩))
        (.childHead i)).bind fun links =>
      (insertNew links (.entry i) .treeMgrHead).map fun links =>
        ⟨{ s.memory with links := links }, { s.shape with entries := s.shape.entries ++ [i] }⟩
  | .child entry i =>
    (insertNew s.memory.links (.child i) (.childHead entry)).map fun links =>
      ⟨{ s.memory with links := links }, { s.shape with
        children := Function.update s.shape.children entry (s.shape.children entry ++ [i]) }⟩

/-- The managers as they are initialised. -/
def Registered.start : Registered where
  memory :=
    { links := fun place =>
        if place = .regulatorHead ∨ place = .treeMgrHead then some ⟨place, place⟩ else none
      freed := [] }
  shape := ⟨[], [], fun _ => []⟩

structure Rings (s : Registered) : Prop where
 nodes : Ring s.memory.links .regulatorHead (s.shape.nodes.map .node)
 entries : Ring s.memory.links .treeMgrHead (s.shape.entries.map .entry)
 children : ∀ e ∈ s.shape.entries,
  Ring s.memory.links (.childHead e) ((s.shape.children e).map .child)
 owned : ∀ e e' c, c ∈ s.shape.children e → c ∈ s.shape.children e' → e = e'
 known : ∀ e c, c ∈ s.shape.children e → e ∈ s.shape.entries
 node : ∀ i, (s.memory.links (.node i)).isSome = true ↔ i ∈ s.shape.nodes
 entry : ∀ i, (s.memory.links (.entry i)).isSome = true ↔ i ∈ s.shape.entries
 childHead : ∀ i, (s.memory.links (.childHead i)).isSome = true ↔ i ∈ s.shape.entries
 child : ∀ i, (s.memory.links (.child i)).isSome = true ↔ ∃ e, i ∈ s.shape.children e
 null : s.memory.links .null = none

theorem Rings.start : Rings .start where
 nodes := ring_nil.mpr ⟨rfl, rfl⟩
 entries := ring_nil.mpr ⟨rfl, rfl⟩
 children e member := by cases member
 owned e e' c member := by cases member
 known e c member := by cases member
 node i := by simp [Registered.start]
 entry i := by simp [Registered.start]
 childHead i := by simp [Registered.start]
 child i := by simp [Registered.start]
 null := rfl

structure Inserted (links links' : Links Place) (place head : Place) (xs : List Place) : Prop where
 ring : Ring links' head (xs ++ [place])
 free : links place = none
 live : ∀ p, (links' p).isSome = true ↔ (links p).isSome = true ∨ p = place
 others : ∀ p, p ∉ place :: head :: xs → links' p = links p

theorem insertNew_inserted {links links' : Links Place} {place head : Place} {xs : List Place}
  (ring : Ring links head xs) (h : insertNew links place head = some links') :
  Inserted links links' place head xs := by
 unfold insertNew at h
 by_cases taken : (links place).isSome = true
 · rw [if_pos taken] at h
   cases h
 rw [if_neg taken] at h
 have new : place ∉ head :: xs := fun member => taken (ring.live place member)
 have still : Ring (Function.update links place (some ⟨.null, .null⟩)) head xs := by
  apply ring.congr
  intro p member
  have other : p ≠ place := ne_of_mem_of_not_mem member new
  exact Function.update_of_ne other ..
 obtain ⟨m', run, after, others⟩ := insertTail_ring still (by simp) new
 obtain rfl : m' = links' := Option.some.inj (run.symm.trans h)
 have same : ∀ p, p ∉ place :: head :: xs → m' p = links p := by
  intro p outside
  have other : p ≠ place := List.ne_of_not_mem_cons outside
  rw [others p outside]
  exact Function.update_of_ne other ..
 refine ⟨after, by simpa using taken, ?_, same⟩
 intro p
 by_cases member : p ∈ place :: head :: xs
 · have now : (m' p).isSome = true := by
    apply after.live p
    rw [← List.cons_append]
    rcases List.mem_cons.mp member with rfl | old
    · exact List.mem_append_right _ List.mem_cons_self
    · exact List.mem_append_left _ old
   refine iff_of_true now ?_
   rcases List.mem_cons.mp member with rfl | old
   · exact Or.inr rfl
   · exact Or.inl (ring.live p old)
 · rw [same p member]
   exact (or_iff_left (List.ne_of_not_mem_cons member)).symm

theorem insertNew_head {links links' : Links Place} {place head : Place} (apart : head ≠ place)
  (h : insertNew links place head = some links') : (links head).isSome = true := by
 unfold insertNew at h
 split_ifs at h
 obtain ⟨m, first, rest⟩ := Option.bind_eq_some_iff.mp h
 obtain ⟨last, back, -⟩ := Option.bind_eq_some_iff.mp rest
 have live : (m head).isSome = true := by
  rw [← isSome_prevs, back]
  rfl
 rwa [(setNext_eq first).2.2 head apart, Function.update_of_ne apart] at live

section Steps
variable {s t : Registered}

theorem Rings.addNode (rings : Rings s) {i : ℕ} (h : s.step (.node i) = some t) : Rings t := by
 obtain ⟨links, run, rfl⟩ := Option.map_eq_some_iff.mp h
 have added := insertNew_inserted rings.nodes run
 constructor
 case nodes => simpa using added.ring
 case entries => exact rings.entries.congr fun p member => added.others p (by aesop)
 case children =>
  intro e member
  exact (rings.children e member).congr fun p member => added.others p (by aesop)
 case owned => exact rings.owned
 case known => exact rings.known
 case node =>
  intro j
  change (links (.node j)).isSome = true ↔ j ∈ s.shape.nodes ++ [i]
  rw [added.live, rings.node, List.mem_append, List.mem_singleton, Place.node.injEq]
 case entry =>
  intro j
  change (links (.entry j)).isSome = true ↔ _
  rw [added.live, rings.entry, or_iff_left (by simp)]
 case childHead =>
  intro j
  change (links (.childHead j)).isSome = true ↔ _
  rw [added.live, rings.childHead, or_iff_left (by simp)]
 case child =>
  intro j
  change (links (.child j)).isSome = true ↔ _
  rw [added.live, rings.child, or_iff_left (by simp)]
 case null =>
  have dead := added.live .null
  simpa [rings.null] using dead

theorem Rings.addEntry (rings : Rings s) {i : ℕ} (h : s.step (.entry i) = some t) : Rings t := by
 change (if _ then _ else _) = _ at h
 by_cases taken : (s.memory.links (.childHead i)).isSome = true
 · rw [if_pos taken] at h
   cases h
 rw [if_neg taken] at h
 have new : i ∉ s.shape.entries := fun member => taken ((rings.childHead i).mpr member)
 obtain ⟨links', initialised, rest⟩ := Option.bind_eq_some_iff.mp h
 obtain ⟨links, run, rfl⟩ := Option.map_eq_some_iff.mp rest
 obtain ⟨links1, same, empty, kept⟩ := init_ring
  (Function.update s.memory.links (.childHead i) (some ⟨.null, .null⟩)) (.childHead i) (by simp)
 obtain rfl : links1 = links' := Option.some.inj (same.symm.trans initialised)
 have others : ∀ p, p ≠ .childHead i → links1 p = s.memory.links p := by
  intro p other
  rw [kept p other]
  exact Function.update_of_ne other ..
 have entries : Ring links1 .treeMgrHead (s.shape.entries.map .entry) :=
  rings.entries.congr fun p member => others p (by aesop)
 have added := insertNew_inserted entries run
 have unchanged : ∀ p, p ≠ .childHead i → p ∉ .entry i :: .treeMgrHead :: s.shape.entries.map .entry →
   links p = s.memory.links p := fun p first second => (added.others p second).trans (others p first)
 constructor
 case nodes => exact rings.nodes.congr fun p member => unchanged p (by aesop) (by aesop)
 case entries => simpa using added.ring
 case children =>
  intro e member
  rcases List.mem_append.mp member with old | fresh
  · apply (rings.children e old).congr
    intro p inside
    refine unchanged p ?_ (by aesop)
    rintro rfl
    rcases List.mem_cons.mp inside with same | child
    · cases same
      exact new old
    · simp at child
  · obtain rfl := List.mem_singleton.mp fresh
    have childless : s.shape.children e = [] := by
     rw [List.eq_nil_iff_forall_not_mem]
     exact fun c owned => new (rings.known e c owned)
    change Ring links (.childHead e) ((s.shape.children e).map .child)
    rw [childless]
    exact empty.congr fun p member => added.others p (by aesop)
 case owned => exact rings.owned
 case known => exact fun e c member => List.mem_append_left _ (rings.known e c member)
 case node =>
  intro j
  change (links (.node j)).isSome = true ↔ _
  rw [added.live, others _ (by simp), rings.node, or_iff_left (by simp)]
 case entry =>
  intro j
  change (links (.entry j)).isSome = true ↔ j ∈ s.shape.entries ++ [i]
  rw [added.live, others _ (by simp), rings.entry, List.mem_append, List.mem_singleton,
   Place.entry.injEq]
 case childHead =>
  intro j
  change (links (.childHead j)).isSome = true ↔ j ∈ s.shape.entries ++ [i]
  rw [added.live, or_iff_left (by simp), List.mem_append, List.mem_singleton, ← rings.childHead]
  by_cases this : j = i
  · subst this
    exact iff_of_true (empty.live _ List.mem_cons_self) (Or.inr rfl)
  · rw [others _ (by simpa using this), or_iff_left this]
 case child =>
  intro j
  change (links (.child j)).isSome = true ↔ _
  rw [added.live, others _ (by simp), rings.child, or_iff_left (by simp)]
 case null =>
  have dead := added.live .null
  rw [others _ (by simp), rings.null] at dead
  simpa using dead

theorem Rings.addChild (rings : Rings s) {e i : ℕ} (h : s.step (.child e i) = some t) : Rings t := by
 obtain ⟨links, run, rfl⟩ := Option.map_eq_some_iff.mp h
 have listed : e ∈ s.shape.entries := (rings.childHead e).mp (insertNew_head (by simp) run)
 have added := insertNew_inserted (rings.children e listed) run
 have new : ∀ e', i ∉ s.shape.children e' := by
  intro e' member
  have live := (rings.child i).mpr ⟨e', member⟩
  rw [added.free] at live
  cases live
 have mem_iff : ∀ e' c, c ∈ Function.update s.shape.children e (s.shape.children e ++ [i]) e' ↔
   c ∈ s.shape.children e' ∨ (e' = e ∧ c = i) := by
  intro e' c
  by_cases this : e' = e
  · subst this
    simp
  · rw [Function.update_of_ne this]
    simp [this]
 constructor
 case nodes => exact rings.nodes.congr fun p member => added.others p (by aesop)
 case entries => exact rings.entries.congr fun p member => added.others p (by aesop)
 case children =>
  intro e' member
  change Ring links (.childHead e') ((Function.update s.shape.children e
   (s.shape.children e ++ [i]) e').map .child)
  by_cases this : e' = e
  · subst this
    rw [Function.update_self]
    simpa using added.ring
  rw [Function.update_of_ne this]
  apply (rings.children e' member).congr
  intro p inside
  apply added.others
  intro clash
  rcases List.mem_cons.mp inside with rfl | child
  · simp [this] at clash
  · obtain ⟨c, owned, rfl⟩ := List.mem_map.mp child
    simp only [List.mem_cons, Place.child.injEq, reduceCtorEq, List.mem_map, exists_eq_right,
     false_or] at clash
    rcases clash with rfl | both
    · exact new e' owned
    · exact this (rings.owned e' e c owned both)
 case owned =>
  intro e1 e2 c first second
  rcases (mem_iff e1 c).mp first with old1 | ⟨rfl, rfl⟩
  · rcases (mem_iff e2 c).mp second with old2 | ⟨rfl, rfl⟩
    · exact rings.owned e1 e2 c old1 old2
    · exact absurd old1 (new e1)
  · rcases (mem_iff e2 c).mp second with old2 | ⟨rfl, -⟩
    · exact absurd old2 (new e2)
    · rfl
 case known =>
  intro e' c member
  rcases (mem_iff e' c).mp member with old | ⟨rfl, -⟩
  · exact rings.known e' c old
  · exact listed
 case node =>
  intro j
  change (links (.node j)).isSome = true ↔ _
  rw [added.live, rings.node, or_iff_left (by simp)]
 case entry =>
  intro j
  change (links (.entry j)).isSome = true ↔ _
  rw [added.live, rings.entry, or_iff_left (by simp)]
 case childHead =>
  intro j
  change (links (.childHead j)).isSome = true ↔ _
  rw [added.live, rings.childHead, or_iff_left (by simp)]
 case child =>
  intro j
  change (links (.child j)).isSome = true ↔
   ∃ e', j ∈ Function.update s.shape.children e (s.shape.children e ++ [i]) e'
  rw [added.live, rings.child]
  simp only [mem_iff, Place.child.injEq, exists_or, exists_eq_left]
 case null =>
  have dead := added.live .null
  simpa [rings.null] using dead

theorem rings_of_registered {registrations : List Registration}
  (h : exec Registered.step .start registrations = some s) : Rings s := by
 refine exec_invariant ?_ .start s registrations Rings.start h
 intro s call t rings step
 cases call with
 | node i => exact rings.addNode step
 | entry i => exact rings.addEntry step
 | child e i => exact rings.addChild step

end Steps

/-- The program comes to an end with the lists of all the heads empty and each of the objects freed
once. -/
def RemovesAll {α : Type} (c : Prog RegulatorMemory α) (s : RegulatorMemory) (heads objects : List Place) :
  Prop :=
 ∃ a t removed, c.Runs s a t ∧ (∀ head ∈ heads, Ring t.links head []) ∧
  t.freed = s.freed ++ removed ∧ removed.Perm objects

/-- The entries of the tree and their children. -/
def Shape.tree (shape : Shape) : List Place :=
 shape.entries.map .entry ++ shape.entries.flatMap fun e => (shape.children e).map .child

def Shape.all (shape : Shape) : List Place := shape.nodes.map .node ++ shape.tree

section Loops
variable {s t : RegulatorMemory}

theorem osalMemFree_clears {object : Place} {places : List Place} {u : Unit}
  (h : (osalMemFree object places).Runs s u t) (place : Place) (inside : place ∈ places) :
  t.links place = none := by
 have run := (Prog.runs_attempt _ s t u).mp h
 by_cases live : (s.links object).isSome = true
 · rw [if_pos live] at run
   cases run
   exact if_pos inside
 · rw [if_neg live] at run
   cases run

theorem nextOf_runs {place next : Place} :
  (nextOf place).Runs s next t ↔ nexts s.links place = some next ∧ t = s := by
 unfold nextOf
 rw [Prog.runs_attempt, Option.map_eq_some_iff]
 constructor
 · rintro ⟨a, held, same⟩
   cases same
   exact ⟨held, rfl⟩
 · rintro ⟨held, rfl⟩
   exact ⟨next, held, rfl⟩

theorem dListForEachEntry_runs {head : Place} {body : Place → Prog RegulatorMemory Unit} {u : Unit}
  (clears : ∀ pos s t v, (body pos).Runs s v t → t.links pos = none) :
  (dListForEachEntry head body).Runs s u t ↔ nexts s.links head = some head ∧ t = s := by
 unfold dListForEachEntry
 rw [Prog.runs_bind]
 constructor
 · rintro ⟨first, s', read, walk⟩
   obtain ⟨held, rfl⟩ := nextOf_runs.mp read
   rw [Prog.runs_loop] at walk
   by_cases empty : first = head
   · rw [if_pos empty] at walk
     subst empty
     rcases walk with done | ⟨next, m, more, -⟩
     · exact ⟨held, ((Prog.runs_pure _ _ _ _).mp done).2.symm⟩
     · cases ((Prog.runs_pure _ _ _ _).mp more).1
   rw [if_neg empty] at walk
   have stuck : ∀ r m, ¬ (do
     body first
     let next ← nextOf first
     pure (Sum.inl next) : Prog RegulatorMemory (Place ⊕ Unit)).Runs s' r m := by
    intro r m run
    obtain ⟨v, m', ran, rest⟩ := (Prog.runs_bind _ _ _ _ _).mp run
    obtain ⟨next, m'', read, -⟩ := (Prog.runs_bind _ _ _ _ _).mp rest
    have gone : nexts m'.links first = none := by
     unfold nexts
     rw [clears first s' m' v ran]
     rfl
    rw [(nextOf_runs.mp read).1] at gone
    cases gone
   rcases walk with done | ⟨next, m, more, -⟩
   · exact absurd done (stuck _ _)
   · exact absurd more (stuck _ _)
 · rintro ⟨held, rfl⟩
   refine ⟨head, t, nextOf_runs.mpr ⟨held, rfl⟩, ?_⟩
   rw [Prog.runs_loop, if_pos rfl]
   exact Or.inl ((Prog.runs_pure _ _ _ _).mpr ⟨rfl, rfl⟩)

theorem regulatorChildListDestroy_runs {childHead : Place} {u : Unit} :
  (regulatorChildListDestroy childHead).Runs s u t ↔
   nexts s.links childHead = some childHead ∧ t = s := by
 apply dListForEachEntry_runs
 intro pos s t v run
 obtain ⟨-, m, -, freed⟩ := (Prog.runs_bind _ _ _ _ _).mp run
 exact osalMemFree_clears freed pos List.mem_cons_self

theorem empty_iff {links : Links Place} {head : Place} {xs : List Place} (ring : Ring links head xs) :
  nexts links head = some head ↔ xs = [] := by
 cases xs with
 | nil => exact iff_of_true ring.path.1 rfl
 | cons x xs =>
  apply iff_of_false _ (by simp)
  intro alone
  have next : nexts links head = some x := ring.path.1.1
  obtain rfl : head = x := Option.some.inj (alone.symm.trans next)
  exact (List.nodup_cons.mp ring.nodup).1 List.mem_cons_self

theorem runs_never {α : Type} {a : α} : ¬ (Prog.never : Prog RegulatorMemory α).Runs s a t := by
 rintro ⟨n, run⟩
 cases run

theorem locked_runs {head : Place} {body : Place → Prog RegulatorMemory Unit} {a : RemoveStatus}
  (clears : ∀ pos s t v, (body pos).Runs s v t → t.links pos = none) :
  (do
   dListForEachEntry head body
   pure .success : Prog RegulatorMemory RemoveStatus).Runs s a t ↔
   nexts s.links head = some head ∧ a = .success ∧ t = s := by
 rw [Prog.runs_bind]
 constructor
 · rintro ⟨v, m, walk, done⟩
   obtain ⟨held, rfl⟩ := (dListForEachEntry_runs clears).mp walk
   obtain ⟨rfl, rfl⟩ := (Prog.runs_pure _ _ _ _).mp done
   exact ⟨held, rfl, rfl⟩
 · rintro ⟨held, rfl, rfl⟩
   exact ⟨(), t, (dListForEachEntry_runs clears).mpr ⟨held, rfl⟩,
    (Prog.runs_pure _ _ _ _).mpr ⟨rfl, rfl⟩⟩

theorem regulatorTreeNodeRemoveAll_runs {lock : LockOutcome} {a : RemoveStatus} :
  (regulatorTreeNodeRemoveAll lock).Runs s a t ↔
   (lock = .refused ∧ a = .errDeviceBusy ∨
    lock = .taken ∧ nexts s.links .treeMgrHead = some .treeMgrHead ∧ a = .success) ∧ t = s := by
 cases lock with
 | waits => exact iff_of_false runs_never (by simp)
 | refused =>
  unfold regulatorTreeNodeRemoveAll
  rw [Prog.runs_pure]
  simp [eq_comm]
 | taken =>
  unfold regulatorTreeNodeRemoveAll
  rw [locked_runs]
  · simp [and_assoc]
  · intro pos s t v run
    obtain ⟨-, m, -, rest⟩ := (Prog.runs_bind _ _ _ _ _).mp run
    obtain ⟨-, m', -, freed⟩ := (Prog.runs_bind _ _ _ _ _).mp rest
    exact osalMemFree_clears freed pos List.mem_cons_self

theorem nodeLoop_runs {lock : LockOutcome} {a : RemoveStatus} :
  (match lock with
   | .waits => Prog.never
   | .refused => pure .errDeviceBusy
   | .taken => do
    dListForEachEntry .regulatorHead fun pos => do
     dListRemove pos
     osalMemFree pos [pos]
    pure .success : Prog RegulatorMemory RemoveStatus).Runs s a t ↔
   (lock = .refused ∧ a = .errDeviceBusy ∨
    lock = .taken ∧ nexts s.links .regulatorHead = some .regulatorHead ∧ a = .success) ∧
    t = s := by
 cases lock with
 | waits => exact iff_of_false runs_never (by simp)
 | refused =>
  dsimp only
  rw [Prog.runs_pure]
  simp [eq_comm]
 | taken =>
  dsimp only
  rw [locked_runs]
  · simp [and_assoc]
  · intro pos s t v run
    obtain ⟨-, m, -, freed⟩ := (Prog.runs_bind _ _ _ _ _).mp run
    exact osalMemFree_clears freed pos List.mem_cons_self

theorem regulatorNodeRemoveAll_runs {treeLock lock : LockOutcome} {a : RemoveStatus} :
  (regulatorNodeRemoveAll treeLock lock).Runs s a t ↔
   (treeLock = .refused ∧ a = .failure ∨
    treeLock = .taken ∧ nexts s.links .treeMgrHead = some .treeMgrHead ∧
     (lock = .refused ∧ a = .errDeviceBusy ∨
      lock = .taken ∧ nexts s.links .regulatorHead = some .regulatorHead ∧ a = .success)) ∧
    t = s := by
 unfold regulatorNodeRemoveAll
 rw [Prog.runs_bind]
 constructor
 · rintro ⟨status, m, tree, rest⟩
   obtain ⟨way, rfl⟩ := regulatorTreeNodeRemoveAll_runs.mp tree
   rcases way with ⟨refused, rfl⟩ | ⟨taken, empty, rfl⟩
   · rw [if_pos (by simp)] at rest
     obtain ⟨rfl, rfl⟩ := (Prog.runs_pure _ _ _ _).mp rest
     exact ⟨Or.inl ⟨refused, rfl⟩, rfl⟩
   · rw [if_neg (by simp)] at rest
     obtain ⟨nodes, rfl⟩ := nodeLoop_runs.mp rest
     exact ⟨Or.inr ⟨taken, empty, nodes⟩, rfl⟩
 · rintro ⟨⟨refused, rfl⟩ | ⟨taken, empty, nodes⟩, rfl⟩
   · refine ⟨.errDeviceBusy, t, regulatorTreeNodeRemoveAll_runs.mpr ⟨Or.inl ⟨refused, rfl⟩, rfl⟩, ?_⟩
     rw [if_pos (by simp)]
     exact (Prog.runs_pure _ _ _ _).mpr ⟨rfl, rfl⟩
   · refine ⟨.success, t, regulatorTreeNodeRemoveAll_runs.mpr
      ⟨Or.inr ⟨taken, empty, rfl⟩, rfl⟩, ?_⟩
     rw [if_neg (by simp)]
     exact nodeLoop_runs.mpr ⟨nodes, rfl⟩

theorem removesAll_iff {α : Type} {c : Prog RegulatorMemory α} {heads objects : List Place}
  (idle : ∀ a t, c.Runs s a t → t = s) :
  RemovesAll c s heads objects ↔
   (∃ a, c.Runs s a s) ∧ (∀ head ∈ heads, Ring s.links head []) ∧ objects = [] := by
 constructor
 · rintro ⟨a, t, removed, run, empty, log, perm⟩
   obtain rfl := idle a t run
   have nothing : removed = [] := by simpa using log
   subst nothing
   exact ⟨⟨a, run⟩, empty, perm.nil_eq.symm⟩
 · rintro ⟨⟨a, run⟩, empty, rfl⟩
   exact ⟨a, s, [], run, empty, (List.append_nil _).symm, List.Perm.refl []⟩

end Loops

section Main
variable {s : Registered}

theorem Shape.tree_nil (shape : Shape) : shape.tree = [] ↔ shape.entries = [] := by
 unfold Shape.tree
 constructor
 · intro none
   simpa using (List.append_eq_nil_iff.mp none).1
 · intro none
   rw [none]
   rfl

theorem ring_nil_of_empty {links : Links Place} {head : Place} {xs : List Place}
  (ring : Ring links head xs) : Ring links head [] ↔ xs = [] := by
 constructor
 · intro empty
   exact (empty_iff ring).mp empty.path.1
 · rintro rfl
   exact ring

/-- After any registrations, the functions that remove all are right exactly when there is nothing
to remove and no lock was left locked. -/
theorem remove_all_iff {registrations : List Registration}
    (registered : exec Registered.step .start registrations = some s) (treeLock lock : LockOutcome) :
    (RemovesAll (regulatorNodeRemoveAll treeLock lock) s.memory [.regulatorHead, .treeMgrHead]
        s.shape.all ↔
      s.shape.nodes = [] ∧ s.shape.entries = [] ∧ treeLock ≠ .waits ∧
        (treeLock = .taken → lock ≠ .waits)) ∧
      (RemovesAll (regulatorTreeNodeRemoveAll treeLock) s.memory [.treeMgrHead] s.shape.tree ↔
        s.shape.entries = [] ∧ treeLock ≠ .waits) ∧
      ∀ e ∈ s.shape.entries,
        RemovesAll (regulatorChildListDestroy (.childHead e)) s.memory [.childHead e]
            ((s.shape.children e).map .child) ↔
          s.shape.children e = [] := by
  have rings := rings_of_registered registered
  have noNodes := empty_iff rings.nodes
  have noEntries := empty_iff rings.entries
  rw [List.map_eq_nil_iff] at noNodes noEntries
  refine ⟨?_, ?_, ?_⟩
  · rw [removesAll_iff fun a t run => (regulatorNodeRemoveAll_runs.mp run).2]
    simp only [regulatorNodeRemoveAll_runs, noNodes, noEntries, and_true, List.forall_mem_cons,
      List.not_mem_nil, false_implies, implies_true, ring_nil_of_empty rings.nodes,
      ring_nil_of_empty rings.entries, List.map_eq_nil_iff, Shape.all, List.append_eq_nil_iff,
      Shape.tree_nil]
    cases treeLock <;> cases lock <;> simp
    tauto
  · rw [removesAll_iff fun a t run => (regulatorTreeNodeRemoveAll_runs.mp run).2]
    simp only [regulatorTreeNodeRemoveAll_runs, noEntries, and_true, List.forall_mem_cons,
      List.not_mem_nil, false_implies, implies_true, ring_nil_of_empty rings.entries,
      List.map_eq_nil_iff, Shape.tree_nil]
    cases treeLock <;> simp
  · intro e member
    have ring := rings.children e member
    have noChildren := empty_iff ring
    rw [removesAll_iff fun a t run => (regulatorChildListDestroy_runs.mp run).2]
    simp only [regulatorChildListDestroy_runs, noChildren, and_true, exists_const,
      List.forall_mem_cons, List.not_mem_nil, false_implies, implies_true, ring_nil_of_empty ring,
      List.map_eq_nil_iff, and_self]

/-- Nothing was registered. -/
theorem remove_all_start : RemovesAll (regulatorNodeRemoveAll .taken .taken) Registered.start.memory
      [.regulatorHead, .treeMgrHead] [] :=
  (remove_all_iff (show exec Registered.step .start [] = some .start from rfl) .taken .taken).1.mpr
    ⟨rfl, rfl, by simp, by simp⟩

/-- One regulator was registered. Removing it frees it and reads its link after that. -/
theorem one_regulator_left : ∃ s, exec Registered.step .start [.node 0] = some s ∧
    ¬ RemovesAll (regulatorNodeRemoveAll .taken .taken) s.memory [.regulatorHead, .treeMgrHead]
      [.node 0] := by
  refine ⟨_, rfl, ?_⟩
  rintro ⟨a, t, removed, run, -⟩
  rcases (regulatorNodeRemoveAll_runs.mp run).1 with ⟨refused, -⟩ | ⟨-, -, way⟩
  · cases refused
  · rcases way with ⟨refused, -⟩ | ⟨-, alone, -⟩
    · cases refused
    · revert alone
      decide

end Main

end DriversFramework.RegulatorLists
