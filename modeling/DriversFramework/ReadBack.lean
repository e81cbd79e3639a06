import Mathlib.Data.List.Forall2

/-! A reader consumes the front of a list of items and may fail. `Reads r items o`
says what a reader makes of the items another party wrote for it, whatever was
written after them: the value in `o` and exactly these items, or a failure.
The rules follow the reader's own composition. -/
namespace ReadBack

variable {ι κ α β : Type}

abbrev Reader (ι : Type) := StateT (List ι) Option

def next : Reader ι ι
 | [] => none
 | i :: items => some (i, items)

def ofOption (o : Option α) : Reader ι α := fun items => o.map fun a => (a, items)

def readAll : List (Reader ι α) → Reader ι (List α)
 | [] => pure []
 | r :: rs => do
  let a ← r
  let as ← readAll rs
  pure (a :: as)

def Reads (r : Reader ι α) (items : List ι) (o : Option α) : Prop :=
 ∀ rest, r.run (items ++ rest) = o.map fun a => (a, rest)

variable {r : Reader ι α} {items : List ι}

theorem Reads.run {o : Option α} (h : Reads r items o) : r.run items = o.map fun a => (a, []) := by
 simpa using h []

theorem reads_pure (a : α) : Reads (pure a : Reader ι α) [] (some a) := by
 intro rest
 rfl

theorem reads_ofOption (o : Option α) : Reads (ofOption o : Reader ι α) [] o := by
 intro rest
 rfl

theorem Reads.bind {f : α → Reader ι β} {m : List ι}
 {o : Option α} {g : α → Option β} (h : Reads r items o)
 (hf : ∀ a, o = some a → Reads (f a) m (g a)) :
 Reads (r >>= f) (items ++ m) (o.bind g) := by
 intro rest
 rw [List.append_assoc, StateT.run_bind, h (m ++ rest)]
 cases o with
 | none => rfl
 | some a => exact hf a rfl rest

theorem Reads.bind_nil {f : α → Reader ι β} {o : Option α} {g : α → Option β} (h : Reads r items o)
 (hf : ∀ a, o = some a → Reads (f a) [] (g a)) : Reads (r >>= f) items (o.bind g) := by
 have hb := h.bind hf
 rwa [List.append_nil] at hb

theorem Reads.map {o : Option α} (f : α → β)
 (h : Reads r items o) : Reads (f <$> r) items (o.map f) := by
 intro rest
 rw [StateT.run_map, h rest]
 cases o <;> rfl

theorem Reads.cons {rs : List (Reader ι α)} {more : List ι}
 {o : Option α} {os : Option (List α)} (h : Reads r items o) (hs : Reads (readAll rs) more os) :
 Reads (readAll (r :: rs)) (items ++ more) (o.bind fun a => os.map (a :: ·)) := by
 refine h.bind ?_
 intro a ha
 have hm := hs.map (a :: ·)
 rwa [map_eq_pure_bind] at hm

theorem reads_readAll {r : κ → Reader ι α} {w : κ → List ι} {e : κ → Option α} {l : List κ}
 (h : ∀ k ∈ l, Reads (r k) (w k) (e k)) :
 Reads (readAll (l.map r)) (l.flatMap w) (l.mapM e) := by
 induction l with
 | nil => exact reads_pure []
 | cons k ks ih =>
  have htail := ih fun j hj => h j (List.mem_cons_of_mem k hj)
  have hall := (h k List.mem_cons_self).cons htail
  rw [List.map_cons, List.flatMap_cons, List.mapM_cons]
  convert hall using 1
  cases e k with
  | none => rfl
  | some a => cases ks.mapM e <;> rfl

theorem mapM_eq_some_iff {e : κ → Option α} {ks : List κ} {as : List α} :
 ks.mapM e = some as ↔ List.Forall₂ (fun k a => e k = some a) ks as := by
 induction ks generalizing as with
 | nil =>
  rw [List.mapM_nil, List.forall₂_nil_left_iff]
  exact ⟨fun h => (Option.some.inj h).symm, fun h => by rw [h]; rfl⟩
 | cons k ks ih =>
  rw [List.mapM_cons]
  cases as with
  | nil => cases e k <;> cases ks.mapM e <;> simp
  | cons a as =>
   rw [List.forall₂_cons, ← ih]
   cases e k <;> cases ks.mapM e <;> simp

theorem mapM_eq_some_self_iff {e : α → Option α} {ks : List α} :
 ks.mapM e = some ks ↔ ∀ k ∈ ks, e k = some k := by
 rw [mapM_eq_some_iff, List.forall₂_same]

end ReadBack
