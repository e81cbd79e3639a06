import Mathlib.Data.List.Nodup

/-! A place in memory that is allocated holds the place before it and the one behind it. A list is a
ring through its head. -/
namespace DoublyLinked

universe u
variable {P : Type u}

structure Link (P : Type u) where
 next : P
 prev : P
 deriving DecidableEq

/-- What the places hold; `none` where a place is not allocated. -/
abbrev Links (P : Type u) := P → Option (Link P)

def nexts (m : Links P) (p : P) : Option P := (m p).map Link.next

def prevs (m : Links P) (p : P) : Option P := (m p).map Link.prev

def Path (next prev : P → Option P) : P → List P → P → Prop
 | a, [], b => next a = some b ∧ prev b = some a
 | a, x :: xs, b => (next a = some x ∧ prev x = some a) ∧ Path next prev x xs b

structure Ring (m : Links P) (head : P) (xs : List P) : Prop where
 nodup : (head :: xs).Nodup
 path : Path (nexts m) (prevs m) head xs head

section Paths
variable {next prev next' prev' : P → Option P} {a b y : P} {xs : List P}

theorem path_append : Path next prev a (xs ++ [y]) b ↔
 Path next prev a xs y ∧ next y = some b ∧ prev b = some y := by
 induction xs generalizing a with
 | nil => rfl
 | cons x xs ih =>
  change _ ∧ Path next prev x (xs ++ [y]) b ↔ (_ ∧ Path next prev x xs y) ∧ _
  rw [ih]
  exact and_assoc.symm

theorem Path.congr (path : Path next prev a xs b) (same : ∀ p ∈ a :: xs, next' p = next p)
 (back : ∀ p ∈ b :: xs, prev' p = prev p) : Path next' prev' a xs b := by
 induction xs generalizing a with
 | nil =>
  change next' a = some b ∧ prev' b = some a
  rw [same a List.mem_cons_self, back b List.mem_cons_self]
  exact path
 | cons x xs ih =>
  refine ⟨?_, ih path.2 ?_ ?_⟩
  · rw [same a List.mem_cons_self, back x (List.mem_cons_of_mem b List.mem_cons_self)]
    exact path.1
  · intro p member
    exact same p (List.mem_cons_of_mem a member)
  · intro p member
    apply back p
    rcases List.mem_cons.mp member with rfl | inside
    · exact List.mem_cons_self
    · exact List.mem_cons_of_mem b (List.mem_cons_of_mem x inside)

end Paths

theorem isSome_nexts (m : Links P) (p : P) : (nexts m p).isSome = (m p).isSome := Option.isSome_map

theorem isSome_prevs (m : Links P) (p : P) : (prevs m p).isSome = (m p).isSome := Option.isSome_map

theorem ring_nil {m : Links P} {head : P} : Ring m head [] ↔
 nexts m head = some head ∧ prevs m head = some head :=
 ⟨fun ring => ring.path, fun path => ⟨List.nodup_singleton head, path⟩⟩

theorem Ring.last {m : Links P} {head : P} {xs : List P} (ring : Ring m head xs) : ∃ last front, head :: xs = front ++ [last] ∧
 prevs m head = some last ∧ nexts m last = some head := by
 rcases List.eq_nil_or_concat' xs with rfl | ⟨front, last, rfl⟩
 · exact ⟨head, [], rfl, ring.path.2, ring.path.1⟩
 · obtain ⟨-, next, prev⟩ := path_append.mp ring.path
   exact ⟨last, head :: front, rfl, prev, next⟩

theorem Ring.live {m : Links P} {head : P} {xs : List P} (ring : Ring m head xs) :
 ∀ p ∈ head :: xs, (m p).isSome = true := by
 have walk : ∀ (a : P) (xs : List P), Path (nexts m) (prevs m) a xs head →
  ∀ p ∈ a :: xs, (m p).isSome = true := by
  intro a xs path
  induction xs generalizing a with
  | nil =>
   intro p member
   obtain rfl := List.mem_singleton.mp member
   rw [← isSome_nexts, path.1]
   rfl
  | cons x xs ih =>
   intro p member
   rcases List.mem_cons.mp member with rfl | later
   · rw [← isSome_nexts, path.1.1]
     rfl
   · exact ih x path.2 p later
 exact walk head xs ring.path

theorem Ring.congr {m m' : Links P} {head : P} {xs : List P} (ring : Ring m head xs)
 (same : ∀ p ∈ head :: xs, m' p = m p) : Ring m' head xs where
 nodup := ring.nodup
 path := by
  apply ring.path.congr
  · intro p inside
    exact congrArg (Option.map Link.next) (same p inside)
  · intro p inside
    exact congrArg (Option.map Link.prev) (same p inside)

variable [DecidableEq P]

def setNext (m : Links P) (p q : P) : Option (Links P) :=
 (m p).map fun link => Function.update m p (some { link with next := q })

def setPrev (m : Links P) (p q : P) : Option (Links P) :=
 (m p).map fun link => Function.update m p (some { link with prev := q })

def init (m : Links P) (head : P) : Option (Links P) :=
 (setNext m head head).bind fun m => setPrev m head head

def insertTail (m : Links P) (entry head : P) : Option (Links P) :=
 (setNext m entry head).bind fun m =>
 (prevs m head).bind fun last => (setPrev m entry last).bind fun m =>
 (prevs m head).bind fun last => (setNext m last entry).bind fun m => setPrev m head entry

def remove (null : P) (m : Links P) (entry : P) : Option (Links P) :=
 (prevs m entry).bind fun prev => (nexts m entry).bind fun next =>
 (setNext m prev next).bind fun m =>
 (nexts m entry).bind fun next => (prevs m entry).bind fun prev =>
 (setPrev m next prev).bind fun m =>
 (setPrev m entry null).bind fun m => setNext m entry null

section Writes
variable {m m' : Links P} {p q : P}

theorem setNext_eq (h : setNext m p q = some m') :
 nexts m' = Function.update (nexts m) p (some q) ∧ prevs m' = prevs m ∧
  ∀ r, r ≠ p → m' r = m r := by
 obtain ⟨link, held, rfl⟩ := Option.map_eq_some_iff.mp h
 refine ⟨?_, ?_, fun r other => Function.update_of_ne other ..⟩
 · funext r
   by_cases same : r = p
   · subst same
     simp [nexts]
   · simp [nexts, Function.update_of_ne same]
 · funext r
   by_cases same : r = p
   · subst same
     simp [prevs, held]
   · simp [prevs, Function.update_of_ne same]

theorem setPrev_eq (h : setPrev m p q = some m') :
 nexts m' = nexts m ∧ prevs m' = Function.update (prevs m) p (some q) ∧
  ∀ r, r ≠ p → m' r = m r := by
 obtain ⟨link, held, rfl⟩ := Option.map_eq_some_iff.mp h
 refine ⟨?_, ?_, fun r other => Function.update_of_ne other ..⟩
 · funext r
   by_cases same : r = p
   · subst same
     simp [nexts, held]
   · simp [nexts, Function.update_of_ne same]
 · funext r
   by_cases same : r = p
   · subst same
     simp [prevs]
   · simp [prevs, Function.update_of_ne same]

theorem setNext_defined (q : P) (live : (prevs m p).isSome = true) :
 ∃ m', setNext m p q = some m' := by
 obtain ⟨link, held⟩ := Option.isSome_iff_exists.mp (Option.isSome_map ▸ live)
 exact ⟨_, by rw [setNext, held]; rfl⟩

theorem setPrev_defined (q : P) (live : (nexts m p).isSome = true) :
 ∃ m', setPrev m p q = some m' := by
 obtain ⟨link, held⟩ := Option.isSome_iff_exists.mp (Option.isSome_map ▸ live)
 exact ⟨_, by rw [setPrev, held]; rfl⟩

end Writes

section Rings
variable {m m' : Links P} {entry head : P} {xs : List P}

theorem init_ring (m : Links P) (head : P) (live : (m head).isSome = true) :
 ∃ m', init m head = some m' ∧ Ring m' head [] ∧ ∀ p, p ≠ head → m' p = m p := by
 obtain ⟨one, hone⟩ := setNext_defined head ((isSome_prevs m head).trans live)
 obtain ⟨next, prev, others⟩ := setNext_eq hone
 have still : (nexts one head).isSome = true := by
  rw [next, Function.update_self]
  rfl
 obtain ⟨two, htwo⟩ := setPrev_defined head still
 obtain ⟨next', prev', others'⟩ := setPrev_eq htwo
 refine ⟨two, by rw [init, hone]; exact htwo, ring_nil.mpr ⟨?_, ?_⟩, ?_⟩
 · rw [next', next, Function.update_self]
 · rw [prev', Function.update_self]
 · intro p other
   rw [others' p other, others p other]

theorem insertTail_links (ring : Ring m head xs) (live : (m entry).isSome = true)
 (new : entry ∉ head :: xs) {last : P} (back : prevs m head = some last) :
 ∃ m', insertTail m entry head = some m' ∧
  nexts m' = Function.update (Function.update (nexts m) entry (some head)) last (some entry) ∧
  prevs m' = Function.update (Function.update (prevs m) entry (some last)) head (some entry) ∧
  ∀ p, p ≠ entry → p ≠ last → p ≠ head → m' p = m p := by
 have apart : head ≠ entry := fun same => new (same ▸ List.mem_cons_self)
 obtain ⟨one, hone⟩ := setNext_defined head ((isSome_prevs m entry).trans live)
 obtain ⟨next1, prev1, others1⟩ := setNext_eq hone
 have live1 : (nexts one entry).isSome = true := by
  rw [next1, Function.update_self]
  rfl
 obtain ⟨two, htwo⟩ := setPrev_defined last live1
 obtain ⟨next2, prev2, others2⟩ := setPrev_eq htwo
 have back2 : prevs two head = some last := by
  rw [prev2, Function.update_of_ne apart, prev1, back]
 obtain ⟨end_, front, split, back', forth⟩ := ring.last
 obtain rfl : end_ = last := Option.some.inj (back'.symm.trans back)
 have member : end_ ∈ head :: xs := by
  rw [split]
  exact List.mem_append_right _ List.mem_cons_self
 have other : end_ ≠ entry := fun same => new (same ▸ member)
 have live2 : (prevs two end_).isSome = true := by
  rw [isSome_prevs, ← isSome_nexts, next2, next1, Function.update_of_ne other, forth]
  rfl
 obtain ⟨three, hthree⟩ := setNext_defined entry live2
 obtain ⟨next3, prev3, others3⟩ := setNext_eq hthree
 have live3 : (nexts three head).isSome = true := by
  rw [isSome_nexts, ← isSome_prevs, prev3, back2]
  rfl
 obtain ⟨four, hfour⟩ := setPrev_defined entry live3
 obtain ⟨next4, prev4, others4⟩ := setPrev_eq hfour
 refine ⟨four, ?_, ?_, ?_, ?_⟩
 · have back1 : prevs one head = some end_ := by rw [prev1, back]
   simp only [insertTail, hone, Option.bind_some, back1, htwo, back2, hthree, hfour]
 · rw [next4, next3, next2, next1]
 · rw [prev4, prev3, prev2, prev1]
 · intro p first second third
   rw [others4 p third, others3 p second, others2 p first, others1 p first]

theorem insertTail_ring (ring : Ring m head xs) (live : (m entry).isSome = true)
 (new : entry ∉ head :: xs) :
 ∃ m', insertTail m entry head = some m' ∧ Ring m' head (xs ++ [entry]) ∧
  ∀ p, p ∉ entry :: head :: xs → m' p = m p := by
 obtain ⟨last, front, split, back, -⟩ := ring.last
 obtain ⟨m', run, next, prev, others⟩ := insertTail_links ring live new back
 have member : last ∈ head :: xs := by
  rw [split]
  exact List.mem_append_right _ List.mem_cons_self
 have apart : head ≠ entry := fun same => new (same ▸ List.mem_cons_self)
 have other : last ≠ entry := fun same => new (same ▸ member)
 refine ⟨m', run, ⟨?_, ?_⟩, ?_⟩
 · rw [← List.cons_append]
   refine List.nodup_append.mpr ⟨ring.nodup, List.nodup_singleton entry, ?_⟩
   rintro a inside b single rfl
   exact new (List.mem_singleton.mp single ▸ inside)
 · refine path_append.mpr ⟨?_, ?_, ?_⟩
   · rcases List.eq_nil_or_concat' xs with rfl | ⟨ys, y, rfl⟩
     · obtain rfl : last = head := by
        have ends : [head] = front ++ [last] := split
        rcases front with _ | ⟨a, _ | _⟩ <;> simp_all
       refine ⟨?_, ?_⟩
       · rw [next, Function.update_self]
       · rw [prev, Function.update_of_ne (Ne.symm apart), Function.update_self]
     · have ends : (head :: ys) ++ [y] = front ++ [last] := split
       obtain ⟨-, same⟩ := List.append_inj' ends rfl
       obtain rfl : y = last := List.singleton_inj.mp same
       have nodup : ((head :: ys) ++ [y]).Nodup := ring.nodup
       have behind := (List.nodup_append.mp nodup).2.2
       refine path_append.mpr ⟨(path_append.mp ring.path).1.congr ?_ ?_, ?_, ?_⟩
       · intro p inside
         have first : p ≠ y := behind p inside y List.mem_cons_self
         have second : p ≠ entry := fun same => new (same ▸ List.mem_append_left [y] inside)
         rw [next, Function.update_of_ne first, Function.update_of_ne second]
       · intro p inside
         have kept : p ∈ ys ++ [y] := by
          rcases List.mem_cons.mp inside with rfl | inside
          · exact List.mem_append_right _ List.mem_cons_self
          · exact List.mem_append_left _ inside
         have first : p ≠ head := fun same => (List.nodup_cons.mp ring.nodup).1 (by
          rw [← same]
          simpa using kept)
         have second : p ≠ entry := fun same => new (by
          rw [← same]
          exact List.mem_cons_of_mem head (by simpa using kept))
         rw [prev, Function.update_of_ne first, Function.update_of_ne second]
       · rw [next, Function.update_self]
       · rw [prev, Function.update_of_ne (Ne.symm apart), Function.update_self]
   · rw [next, Function.update_of_ne (Ne.symm other), Function.update_self]
   · rw [prev, Function.update_self]
 · intro p outside
   obtain ⟨first, rest⟩ := not_or.mp (List.mem_cons.not.mp outside)
   exact others p first (fun same => rest (same ▸ member)) fun same =>
    rest (same ▸ List.mem_cons_self)

end Rings

end DoublyLinked
