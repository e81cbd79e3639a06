import DriversFramework.LinkedChains

/-! `HdfSListRemove` and the iterator of `hdf_slist.c` over memory. The list structure holds its
root where an element holds its link, so that a list is a place like its elements. -/
namespace DriversFramework.HdfSListMemory

open LinkedChains

abbrev Memory := ℕ → Option ℕ

/-- The walk of `HdfSListRemove` from a place on; it need not end in a memory without an end. -/
def removeFrom (m : Memory) (link : ℕ) : ℕ → Option ℕ → Option Memory
 | _, none => some m
 | 0, some _ => none
 | fuel + 1, some iterator =>
  if m iterator = some link then some (Function.update m iterator (m link))
  else removeFrom m link fuel (m iterator)

def hdfSListRemove (fuel : ℕ) (m : Memory) (list link : ℕ) : Option Memory :=
 removeFrom m link fuel (some list)

structure Iterator where
 stepOnNext : Bool
 prev : Option ℕ
 curr : Option ℕ
 deriving DecidableEq

namespace Iterator

def init (m : Memory) (list : ℕ) : Iterator := ⟨false, some list, m list⟩

def hasNext (m : Memory) (it : Iterator) : Bool :=
 match it.prev, it.curr with
 | some prev, some curr =>
  if !it.stepOnNext then true
  else if m prev ≠ some curr then (m prev).isSome
  else (m curr).isSome
 | _, _ => false

def next (m : Memory) (it : Iterator) : Iterator :=
 match it.prev, it.curr with
 | some prev, some curr =>
  if it.stepOnNext then
   if m prev = some curr then { it with prev := some curr, curr := m curr }
   else { it with curr := m prev }
  else { it with stepOnNext := true }
 | _, _ => it

def remove (m : Memory) (it : Iterator) : Memory × Iterator :=
 match it.prev, it.curr with
 | some prev, some curr =>
  (Function.update m prev (m curr), { it with curr := m curr, stepOnNext := false })
 | _, _ => (m, it)

/-- The element comes before the current one. The iterator has a place before the current one. -/
def insert (m : Memory) (it : Iterator) (link : ℕ) : Memory × Iterator :=
 match it.prev with
 | some prev =>
  (Function.update (Function.update m link it.curr) prev (some link), { it with prev := some link })
 | none => (m, it)

end Iterator

/-- What the body of the loop does with the current element. -/
inductive Removal where
 | keep
 | byIterator
 | byList
 deriving DecidableEq

/-- The `round`-th body: the element is removed, and its own link may be written afterwards. -/
def visit (fuel : ℕ) (list : ℕ) (removal : Removal) (written : Option (Option ℕ)) (m : Memory)
  (it : Iterator) (node : ℕ) : Option (Memory × Iterator) :=
 let write (m : Memory) := written.elim m (Function.update m node)
 match removal with
 | .keep => some (m, it)
 | .byIterator => let (m, it) := it.remove m; some (write m, it)
 | .byList => (hdfSListRemove fuel m list node).map fun m => (write m, it)

/-- The loop `while (HasNext) { node = Next; ... }` with the elements that it visits. -/
def iterate (pattern : ℕ → Removal) (written : ℕ → Option (Option ℕ)) (list : ℕ) :
  ℕ → ℕ → Memory → Iterator → Option (Memory × List ℕ)
 | 0, _, _, _ => none
 | fuel + 1, round, m, it =>
  if it.hasNext m then
   let it := it.next m
   match it.curr with
   | none => none
   | some node =>
    (visit fuel list (pattern round) (written round) m it node).bind fun (m, it) =>
     (iterate pattern written list fuel (round + 1) m it).map fun (m, nodes) => (m, node :: nodes)
  else some (m, [])

def iteration (pattern : ℕ → Removal) (written : ℕ → Option (Option ℕ)) (fuel : ℕ) (m : Memory)
  (list : ℕ) : Option (Memory × List ℕ) :=
 iterate pattern written list fuel 0 m (Iterator.init m list)

/-- A list in memory with its elements in order. -/
structure HdfSList where
 memory : Memory
 list : ℕ
 elements : List ℕ
 linked : Linked memory (list :: elements)
 distinct : (list :: elements).Nodup

/-- The elements that are kept, the first one visited in round `round`. -/
def kept (pattern : ℕ → Removal) : ℕ → List ℕ → List ℕ
 | _, [] => []
 | round, a :: elements =>
  if pattern round = .keep then a :: kept pattern (round + 1) elements
  else kept pattern (round + 1) elements

/-- The iterator is behind the elements `done` that are kept; `rest` is still to be visited. -/
inductive At (list : ℕ) (done rest : List ℕ) : Iterator → Prop
 | fresh {front : List ℕ} {prev : ℕ} (last : list :: done = front ++ [prev]) :
   At list done rest ⟨false, some prev, rest.head?⟩
 | kept {front : List ℕ} {prev curr : ℕ} (last : list :: done = front ++ [prev, curr]) :
   At list done rest ⟨true, some prev, some curr⟩
 | gone {front : List ℕ} {prev curr : ℕ} (last : list :: done = front ++ [prev])
   (out : curr ∉ rest) : At list done rest ⟨true, some prev, some curr⟩

variable {m : Memory} {list node : ℕ} {done rest : List ℕ} {it : Iterator}

theorem next_last {front : List ℕ} {prev : ℕ} (linked : Linked m (list :: (done ++ rest)))
  (last : list :: done = front ++ [prev]) : m prev = rest.head? := by
 rw [← List.cons_append, last, List.append_assoc] at linked
 exact linked.next_eq

theorem At.hasNext_iff (place : At list done rest it) (linked : Linked m (list :: (done ++ rest))) :
  it.hasNext m = true ↔ rest ≠ [] := by
 cases place with
 | fresh last =>
  cases rest with
  | nil => simp [Iterator.hasNext]
  | cons a rest => simp [Iterator.hasNext]
 | @kept front prev curr last =>
  have before : m prev = some curr := by
   rw [← List.cons_append, last, List.append_assoc] at linked
   exact linked.next_eq
  have here : m curr = rest.head? := by
   refine next_last linked (show list :: done = (front ++ [prev]) ++ [curr] from ?_)
   rw [last, List.append_assoc]
   rfl
  cases rest <;> simp [Iterator.hasNext, before, here]
 | @gone front prev curr last out =>
  have here := next_last linked last
  cases rest with
  | nil => simp [Iterator.hasNext, here]
  | cons a rest =>
   have other : a ≠ curr := fun same => out (same ▸ List.mem_cons_self)
   simp [Iterator.hasNext, here, other]

theorem At.next_eq (place : At list done (node :: rest) it)
  (linked : Linked m (list :: (done ++ node :: rest))) :
  ∃ front prev, list :: done = front ++ [prev] ∧ it.next m = ⟨true, some prev, some node⟩ := by
 cases place with
 | @fresh front prev last => exact ⟨front, prev, last, rfl⟩
 | @kept front prev curr last =>
  have before : m prev = some curr := by
   rw [← List.cons_append, last, List.append_assoc] at linked
   exact linked.next_eq
  have last' : list :: done = (front ++ [prev]) ++ [curr] := by
   rw [last, List.append_assoc]
   rfl
  refine ⟨front ++ [prev], curr, last', ?_⟩
  simp [Iterator.next, before, next_last linked last']
 | @gone front prev curr last out =>
  have here := next_last linked last
  have other : node ≠ curr := fun same => out (same ▸ List.mem_cons_self)
  refine ⟨front, prev, last, ?_⟩
  simp [Iterator.next, here, other]

theorem removeFrom_eq {prev : ℕ} : ∀ {front : List ℕ} {fuel : ℕ},
  Linked m (front ++ prev :: node :: rest) → (front ++ prev :: node :: rest).Nodup →
  front.length < fuel →
  removeFrom m node fuel (front ++ [prev]).head? = some (Function.update m prev rest.head?) := by
 intro front
 induction front with
 | nil =>
  intro fuel linked _ enough
  obtain ⟨fuel, rfl⟩ := Nat.exists_eq_succ_of_ne_zero (Nat.ne_of_gt enough)
  have here : m prev = some node := linked [] prev (node :: rest) rfl
  have behind : m node = rest.head? := linked [prev] node rest rfl
  change removeFrom m node (fuel + 1) (some prev) = _
  rw [removeFrom, if_pos here, behind]
 | cons a front ih =>
  intro fuel linked distinct enough
  obtain ⟨fuel, rfl⟩ := Nat.exists_eq_succ_of_ne_zero (Nat.ne_of_gt (Nat.zero_lt_of_lt enough))
  have link : m a = (front ++ [prev]).head? := by
   have first := linked [] a (front ++ prev :: node :: rest) rfl
   rw [first]
   cases front <;> rfl
  have other : m a ≠ some node := by
   rw [link]
   intro same
   have mem : node ∈ front ++ [prev] := List.mem_of_head? same
   rw [List.cons_append, List.nodup_cons] at distinct
   have split : front ++ prev :: node :: rest = (front ++ [prev]) ++ node :: rest := by simp
   rw [split] at distinct
   exact (List.nodup_append.mp distinct.2).2.2 node mem node List.mem_cons_self rfl
  change removeFrom m node (fuel + 1) (some a) = _
  rw [removeFrom, if_neg other, link]
  rw [List.cons_append, ← List.singleton_append] at linked
  exact ih linked.behind (List.nodup_cons.mp distinct).2
   (Nat.lt_of_succ_lt_succ enough)

theorem visit_eq (removal : Removal) (written : Option (Option ℕ)) {fuel : ℕ}
  {front : List ℕ} {prev : ℕ} (linked : Linked m (list :: (done ++ node :: rest)))
  (distinct : (list :: (done ++ node :: rest)).Nodup) (last : list :: done = front ++ [prev])
  (enough : done.length < fuel) :
  ∃ m' it', visit fuel list removal written m ⟨true, some prev, some node⟩ node = some (m', it') ∧
   Linked m' (list :: ((if removal = .keep then done ++ [node] else done) ++ rest)) ∧
   At list (if removal = .keep then done ++ [node] else done) rest it' ∧
   ∀ a ∉ list :: (done ++ node :: rest), m' a = m a := by
 have split : list :: (done ++ node :: rest) = front ++ prev :: node :: rest := by
  rw [← List.cons_append, last, List.append_assoc]
  rfl
 have joined : list :: (done ++ rest) = front ++ prev :: rest := by
  rw [← List.cons_append, last, List.append_assoc]
  rfl
 have length : front.length < fuel := by
  have same := congrArg List.length last
  rw [List.length_cons, List.length_append, List.length_singleton] at same
  omega
 have out : node ∉ list :: (done ++ rest) := by
  rw [← List.cons_append] at distinct ⊢
  have parts := List.nodup_append.mp distinct
  rw [List.mem_append]
  rintro (mem | mem)
  · exact parts.2.2 node mem node List.mem_cons_self rfl
  · exact (List.nodup_cons.mp parts.2.1).1 mem
 have behind : m node = rest.head? := by
  rw [split, ← List.singleton_append, ← List.append_assoc] at linked
  exact linked.next_eq
 -- the memory without the element
 let m₁ := Function.update m prev rest.head?
 have unlinked : Linked m₁ (list :: (done ++ rest)) := by
  rw [split] at linked distinct
  rw [joined]
  exact linked.unlink distinct
 have same₁ : ∀ a ∉ list :: (done ++ node :: rest), m₁ a = m a := by
  intro a ha
  refine Function.update_of_ne ?_ _ _
  rintro rfl
  apply ha
  rw [split]
  exact List.mem_append_right _ List.mem_cons_self
 let m₂ := written.elim m₁ (Function.update m₁ node)
 have after : Linked m₂ (list :: (done ++ rest)) ∧
   ∀ a ∉ list :: (done ++ node :: rest), m₂ a = m a := by
  cases written with
  | none => exact ⟨unlinked, same₁⟩
  | some link =>
   refine ⟨unlinked.update_outside out, fun a ha => ?_⟩
   rw [← same₁ a ha]
   refine Function.update_of_ne ?_ _ _
   rintro rfl
   exact ha (List.mem_cons_of_mem _ (List.mem_append_right _ List.mem_cons_self))
 cases removal with
 | keep =>
  refine ⟨m, _, rfl, ?_, ?_, fun a _ => rfl⟩
  · rw [if_pos rfl, List.append_assoc]
    exact linked
  · rw [if_pos rfl]
    apply At.kept
    rw [← List.cons_append, last, List.append_assoc]
    rfl
 | byIterator =>
  refine ⟨m₂, ⟨false, some prev, rest.head?⟩, ?_, after.1, .fresh last, after.2⟩
  change some (written.elim (Function.update m prev (m node)) _, _) = _
  rw [behind]
 | byList =>
  refine ⟨m₂, ⟨true, some prev, some node⟩, ?_, after.1, .gone last fun mem => out ?_, after.2⟩
  · have start : some list = (front ++ [prev]).head? := by
     rw [← last]
     rfl
    have found : hdfSListRemove fuel m list node = some m₁ := by
     rw [split] at linked distinct
     rw [hdfSListRemove, start]
     exact removeFrom_eq linked distinct length
    change (hdfSListRemove fuel m list node).map _ = _
    rw [found]
    rfl
  · exact List.mem_cons_of_mem _ (List.mem_append_right _ mem)

theorem iterate_eq (pattern : ℕ → Removal) (written : ℕ → Option (Option ℕ)) (list : ℕ) :
  ∀ (rest done : List ℕ) (round fuel : ℕ) {m : Memory} {it : Iterator},
   Linked m (list :: (done ++ rest)) → (list :: (done ++ rest)).Nodup → At list done rest it →
   done.length + 2 * rest.length < fuel →
   ∃ m', iterate pattern written list fuel round m it = some (m', rest) ∧
    Linked m' (list :: (done ++ kept pattern round rest)) ∧
    ∀ a ∉ list :: (done ++ rest), m' a = m a := by
 intro rest
 induction rest with
 | nil =>
  intro done round fuel m it linked distinct place enough
  obtain ⟨fuel, rfl⟩ := Nat.exists_eq_succ_of_ne_zero (Nat.ne_of_gt (Nat.zero_lt_of_lt enough))
  have ended : ¬it.hasNext m = true := fun more => (place.hasNext_iff linked).mp more rfl
  exact ⟨m, if_neg ended, linked, fun a _ => rfl⟩
 | cons node rest ih =>
  intro done round fuel m it linked distinct place enough
  obtain ⟨fuel, rfl⟩ := Nat.exists_eq_succ_of_ne_zero (Nat.ne_of_gt (Nat.zero_lt_of_lt enough))
  rw [List.length_cons] at enough
  have more : it.hasNext m = true := (place.hasNext_iff linked).mpr (List.cons_ne_nil _ _)
  obtain ⟨front, prev, last, next⟩ := place.next_eq linked
  have room : done.length < fuel := by omega
  obtain ⟨m₁, it₁, run, linked₁, place₁, same₁⟩ :=
   visit_eq (pattern round) (written round) linked distinct last room
  have run₁ : iterate pattern written list (fuel + 1) round m it =
    (iterate pattern written list fuel (round + 1) m₁ it₁).map
     fun (m, nodes) => (m, node :: nodes) := by
   rw [iterate, if_pos more]
   dsimp only
   rw [next]
   dsimp only
   rw [run]
   rfl
  have fewer : List.Sublist (done ++ rest) (done ++ node :: rest) :=
   (List.sublist_cons_self node rest).append_left done
  by_cases keep : pattern round = .keep
  · rw [if_pos keep] at linked₁ place₁
    obtain ⟨m', last', linked', same'⟩ := ih (done ++ [node]) (round + 1) fuel linked₁
     (by rw [List.append_assoc]; exact distinct) place₁
     (by rw [List.length_append, List.length_singleton]; omega)
    refine ⟨m', by rw [run₁, last']; rfl, ?_, fun a ha => ?_⟩
    · rw [kept, if_pos keep]
      rw [List.append_assoc] at linked'
      exact linked'
    · rw [same' a (by rw [List.append_assoc]; exact ha), same₁ a ha]
  · rw [if_neg keep] at linked₁ place₁
    obtain ⟨m', last', linked', same'⟩ := ih done (round + 1) fuel linked₁
     (distinct.sublist (fewer.cons_cons list)) place₁ (by omega)
    refine ⟨m', by rw [run₁, last']; rfl, ?_, fun a ha => ?_⟩
    · rw [kept, if_neg keep]
      exact linked'
    · rw [same' a fun mem => ha ((fewer.cons_cons list).subset mem), same₁ a ha]

example : (iteration (fun round => [.byIterator, .keep, .byList, .byIterator].getD round .keep)
  (fun _ => some none) 20 (fun a => if a < 4 then some (a + 1) else none) 0).map
   (fun (m, nodes) => (nodes, m 0, m 2)) = some ([1, 2, 3, 4], some 2, none) := by
 decide

end DriversFramework.HdfSListMemory
