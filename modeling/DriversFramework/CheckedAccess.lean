import Mathlib.Data.List.GetD

/-! A program over byte buffers and tables of fixed size, in which the first access outside of a
buffer or a table ends the run. A program that `Returns` made none. -/
namespace CheckedAccess

inductive Fault where
 /-- A read outside of its buffer. -/
 | read
 /-- An access outside of its table. -/
 | table
 /-- A loop that took more rounds than it was given. -/
 | rounds
 deriving DecidableEq

abbrev Run (α : Type) := Except Fault α

variable {α β : Type} {n : ℕ}

def readAt (data : List α) (i : ℕ) : Run α :=
 match data[i]? with
 | some a => .ok a
 | none => .error .read

def readSlice (data : List α) (i n : ℕ) : Run (List α) :=
 if i + n ≤ data.length then .ok ((data.drop i).take n) else .error .read

def entryAt (table : Vector α n) (i : ℕ) : Run α :=
 if h : i < n then .ok table[i] else .error .table

def writeAt (table : Vector α n) (i : ℕ) (a : α) : Run (Vector α n) :=
 if h : i < n then .ok (table.set i a) else .error .table

def copyInto (table : Vector α n) (src : List α) : Run (Vector α n) :=
 if src.length ≤ n then .ok (Vector.ofFn fun i => src.getD i table[i]) else .error .table

/-- `for (; rounds > 0; i++)`, with a break at the head of the body. -/
def forLoop {σ : Type} (full : σ → Bool) (body : ℕ → σ → Run σ) : ℕ → ℕ → σ → Run σ
 | 0, _, s => pure s
 | rounds + 1, i, s =>
  if full s = true then pure s
  else do
   let s ← body i s
   forLoop full body rounds (i + 1) s

/-- The rounds of such a loop that breaks when it has kept `capacity` things, if it begins with
`count` and round `i` keeps one where `keep i` holds. -/
def roundsOf (capacity : ℕ) (keep : ℕ → Bool) : ℕ → ℕ → ℕ → ℕ
 | 0, _, _ => 0
 | rounds + 1, i, count =>
  if capacity ≤ count then 0
  else roundsOf capacity keep rounds (i + 1) (count + if keep i then 1 else 0) + 1

def Returns (m : Run α) : Prop := ∃ a, m = .ok a

@[simp] theorem returns_ok (a : α) : Returns (.ok a) := ⟨a, rfl⟩

@[simp] theorem returns_pure (a : α) : Returns (pure a : Run α) := ⟨a, rfl⟩

@[simp] theorem not_returns_error (f : Fault) : ¬ Returns (.error f : Run α) := by
 rintro ⟨a, h⟩
 cases h

theorem returns_bind (m : Run α) (f : α → Run β) :
 Returns (m >>= f) ↔ ∃ a, m = .ok a ∧ Returns (f a) := by
 cases m with
 | error e =>
  constructor
  · rintro ⟨b, h⟩
    cases h
  · rintro ⟨a, h, -⟩
    cases h
 | ok a =>
  constructor
  · intro h
    exact ⟨a, rfl, h⟩
  · rintro ⟨b, hb, h⟩
    cases hb
    exact h

theorem returns_bind_iff {m : Run α} {f : α → Run β} {p q : Prop} (I : α → Prop)
 (hm : Returns m ↔ p) (hI : ∀ a, m = .ok a → I a) (hf : ∀ a, I a → (Returns (f a) ↔ q)) :
 Returns (m >>= f) ↔ p ∧ q := by
 rw [returns_bind, ← hm]
 constructor
 · rintro ⟨a, ha, h⟩
   exact ⟨⟨a, ha⟩, (hf a (hI a ha)).mp h⟩
 · rintro ⟨⟨a, ha⟩, hq⟩
   exact ⟨a, ha, (hf a (hI a ha)).mpr hq⟩

theorem returns_bind_of {m : Run α} {f : α → Run β} (hm : Returns m)
 (hf : ∀ a, Returns (f a)) : Returns (m >>= f) := by
 obtain ⟨a, ha⟩ := hm
 exact (returns_bind m f).mpr ⟨a, ha, hf a⟩

@[simp] theorem returns_bind_pure (m : Run α) (f : α → β) :
 Returns (m >>= fun a => pure (f a)) ↔ Returns m := by
 rw [returns_bind]
 constructor
 · rintro ⟨a, h, -⟩
   exact ⟨a, h⟩
 · rintro ⟨a, h⟩
   exact ⟨a, h, returns_pure _⟩

@[simp] theorem returns_ite (p : Prop) [Decidable p] (m m' : Run α) :
 Returns (if p then m else m') ↔ if p then Returns m else Returns m' := by
 split <;> rfl

theorem bind_eq_ok (m : Run α) (f : α → Run β) (b : β) :
 m >>= f = .ok b ↔ ∃ a, m = .ok a ∧ f a = .ok b := by
 cases m with
 | error e =>
  constructor
  · intro h
    cases h
  · rintro ⟨a, h, -⟩
    cases h
 | ok a =>
  constructor
  · intro h
    exact ⟨a, rfl, h⟩
  · rintro ⟨c, hc, h⟩
    cases hc
    exact h

theorem readAt_eq_ok {data : List α} {i : ℕ} {a : α} :
 readAt data i = .ok a ↔ data[i]? = some a := by
 rw [readAt]
 cases data[i]? <;> simp

theorem entryAt_eq_ok {table : Vector α n} {i : ℕ} {a : α} :
 entryAt table i = .ok a ↔ table[i]? = some a := by
 rw [entryAt]
 by_cases h : i < n <;> simp [h]

theorem getElem?_of_writeAt {table table' : Vector α n} {i : ℕ} {a : α}
 (h : writeAt table i a = .ok table') (j : ℕ) :
 table'[j]? = if i = j then some a else table[j]? := by
 rw [writeAt] at h
 split at h
 · cases h
   rw [Vector.getElem?_set]
 · cases h

def Filled (table : Vector α n) (count : ℕ) (as : List α) : Prop :=
 count = as.length ∧ ∀ i < count, table[i]? = as[i]?

theorem Filled.empty (table : Vector α n) : Filled table 0 [] :=
 ⟨rfl, fun i h => absurd h (Nat.not_lt_zero i)⟩

theorem Filled.push {table table' : Vector α n} {count : ℕ} {as : List α} {a : α}
 (filled : Filled table count as) (h : writeAt table count a = .ok table') :
 Filled table' (count + 1) (as ++ [a]) := by
 obtain ⟨rfl, same⟩ := filled
 refine ⟨by simp, fun i hi => ?_⟩
 rw [getElem?_of_writeAt h]
 by_cases last : as.length = i
 · rw [if_pos last, ← last, List.getElem?_concat_length]
 · rw [if_neg last, same i (by omega), List.getElem?_append_left (by omega)]

section Reads
variable [Inhabited α]

def peek (data : List α) (i : ℕ) : α := data.getD i default

theorem readAt_of_lt {data : List α} {i : ℕ} (h : i < data.length) :
 readAt data i = .ok (peek data i) := by
 simp [readAt, peek, h]

omit [Inhabited α] in
theorem readAt_of_le {data : List α} {i : ℕ} (h : data.length ≤ i) :
 readAt data i = .error .read := by
 simp [readAt, h]

theorem map_peek_range (data : List α) : (List.range' 0 data.length).map (peek data) = data := by
 refine List.ext_getElem (by simp) fun i _ inside => ?_
 simp [peek, inside]

theorem peek_drop (data : List α) (k i : ℕ) : peek (data.drop k) i = peek data (k + i) := by
 simp [peek, List.getD_eq_getElem?_getD]

@[simp] theorem returns_readAt (data : List α) (i : ℕ) :
 Returns (readAt data i) ↔ i < data.length := by
 by_cases h : i < data.length
 · simp [readAt_of_lt h, h]
 · simp [readAt_of_le (Nat.le_of_not_lt h), h]

@[simp] theorem returns_readAt_bind (data : List α) (i : ℕ) (f : α → Run β) :
 Returns (readAt data i >>= f) ↔ i < data.length ∧ Returns (f (peek data i)) := by
 rw [returns_bind]
 by_cases h : i < data.length
 · simp [readAt_of_lt h, h]
 · simp [readAt_of_le (Nat.le_of_not_lt h), h]

end Reads

@[simp] theorem returns_readSlice_bind (data : List α) (i n : ℕ) (f : List α → Run β) :
 Returns (readSlice data i n >>= f) ↔
  i + n ≤ data.length ∧ Returns (f ((data.drop i).take n)) := by
 rw [returns_bind, readSlice]
 by_cases h : i + n ≤ data.length <;> simp [h]

@[simp] theorem returns_writeAt (table : Vector α n) (i : ℕ) (a : α) :
 Returns (writeAt table i a) ↔ i < n := by
 rw [writeAt]
 by_cases h : i < n <;> simp [h]

theorem returns_entryAt_bind (table : Vector α n) (i : ℕ) (f : α → Run β) :
 Returns (entryAt table i >>= f) ↔ ∃ h : i < n, Returns (f table[i]) := by
 rw [returns_bind, entryAt]
 by_cases h : i < n <;> simp [h]

theorem returns_copyInto_bind (table : Vector α n) (src : List α) (f : Vector α n → Run β)
 (h : src.length ≤ n) (hf : ∀ t, Returns (f t)) : Returns (copyInto table src >>= f) := by
 rw [returns_bind, copyInto]
 simp [h, hf]

theorem returns_foldlM (f : β → α → Run β) (as : List α) (h : ∀ b, ∀ a ∈ as, Returns (f b a))
 (b : β) : Returns (as.foldlM f b) := by
 induction as generalizing b with
 | nil => exact returns_pure b
 | cons a as ih =>
  rw [List.foldlM_cons, returns_bind]
  obtain ⟨c, hc⟩ := h b a (by simp)
  refine ⟨c, hc, ih ?_ c⟩
  intro d e he
  exact h d e (by simp [he])

section Loop
variable {σ : Type} {full : σ → Bool} {body : ℕ → σ → Run σ}

theorem returns_forLoop (count : σ → ℕ) (capacity : ℕ) (keep : ℕ → Bool) (ok : ℕ → Prop)
 (I : ℕ → σ → Prop) (hfull : ∀ s, full s = true ↔ capacity ≤ count s)
 (hok : ∀ i s, I i s → count s < capacity → (Returns (body i s) ↔ ok i))
 (hstep : ∀ i s t, I i s → count s < capacity → body i s = .ok t →
  I (i + 1) t ∧ count t = count s + if keep i then 1 else 0)
 (rounds i : ℕ) (s : σ) (hs : I i s) :
 Returns (forLoop full body rounds i s) ↔
  ∀ j < roundsOf capacity keep rounds i (count s), ok (i + j) := by
 induction rounds generalizing i s with
 | zero => simp [forLoop, roundsOf]
 | succ rounds ih =>
  by_cases hcap : capacity ≤ count s
  · simp [forLoop, roundsOf, (hfull s).mpr hcap, hcap]
  have hlt : count s < capacity := Nat.lt_of_not_le hcap
  have hnot : ¬ full s = true := fun h => hcap ((hfull s).mp h)
  rw [forLoop, roundsOf, if_neg hnot, if_neg hcap, returns_bind]
  constructor
  · rintro ⟨t, ht, hrest⟩ j hj
    obtain ⟨hi, hcount⟩ := hstep i s t hs hlt ht
    cases j with
    | zero => exact (hok i s hs hlt).mp ⟨t, ht⟩
    | succ j =>
     rw [ih (i + 1) t hi, hcount] at hrest
     have h := hrest j (by omega)
     rwa [show i + 1 + j = i + (j + 1) by omega] at h
  · intro hall
    obtain ⟨t, ht⟩ := (hok i s hs hlt).mpr (hall 0 (by omega))
    obtain ⟨hi, hcount⟩ := hstep i s t hs hlt ht
    refine ⟨t, ht, ?_⟩
    rw [ih (i + 1) t hi, hcount]
    intro j hj
    have h := hall (j + 1) (by omega)
    rwa [show i + (j + 1) = i + 1 + j by omega] at h

theorem forLoop_result (count : σ → ℕ) (capacity : ℕ) (keep : ℕ → Bool) (I : ℕ → σ → Prop)
 (hfull : ∀ s, full s = true ↔ capacity ≤ count s)
 (hstep : ∀ i s t, I i s → count s < capacity → body i s = .ok t →
  I (i + 1) t ∧ count t = count s + if keep i then 1 else 0)
 (rounds i : ℕ) (s t : σ) (hs : I i s) (h : forLoop full body rounds i s = .ok t) :
 I (i + roundsOf capacity keep rounds i (count s)) t := by
 induction rounds generalizing i s with
 | zero =>
  cases h
  exact hs
 | succ rounds ih =>
  by_cases hcap : capacity ≤ count s
  · rw [forLoop, if_pos ((hfull s).mpr hcap)] at h
    cases h
    rw [roundsOf, if_pos hcap]
    exact hs
  have hlt : count s < capacity := Nat.lt_of_not_le hcap
  rw [forLoop, if_neg fun h => hcap ((hfull s).mp h), bind_eq_ok] at h
  obtain ⟨u, hu, hrest⟩ := h
  obtain ⟨hi, hcount⟩ := hstep i s u hs hlt hu
  have hend := ih (i + 1) u hi hrest
  rw [hcount] at hend
  rw [roundsOf, if_neg hcap]
  rwa [show ∀ r, i + (r + 1) = i + 1 + r by intro r; omega]

theorem forLoop_fills (Keeps : σ → List α → Prop) (capacity : ℕ) (out : ℕ → Option α)
 (hfull : ∀ s as, Keeps s as → (full s = true ↔ capacity ≤ as.length))
 (hstep : ∀ i s t as, Keeps s as → body i s = .ok t → Keeps t (as ++ (out i).toList))
 (rounds i : ℕ) (s t : σ) (as : List α) (room : as.length ≤ capacity) (hs : Keeps s as)
 (h : forLoop full body rounds i s = .ok t) :
 Keeps t ((as ++ (List.range' i rounds).filterMap out).take capacity) := by
 induction rounds generalizing i s as with
 | zero =>
  cases h
  rw [List.range'_zero, List.filterMap_nil, List.append_nil, List.take_of_length_le room]
  exact hs
 | succ rounds ih =>
  by_cases hcap : capacity ≤ as.length
  · rw [forLoop, if_pos ((hfull s as hs).mpr hcap)] at h
    cases h
    rw [List.take_append_of_le_length hcap, List.take_of_length_le room]
    exact hs
  rw [forLoop, if_neg fun h => hcap ((hfull s as hs).mp h), bind_eq_ok] at h
  obtain ⟨u, hu, hrest⟩ := h
  have few : (out i).toList.length ≤ 1 := by cases out i <;> simp
  have hend := ih (i + 1) u (as ++ (out i).toList)
   (by rw [List.length_append]; omega) (hstep i s u as hs hu) hrest
  rw [List.append_assoc] at hend
  rw [List.range'_succ, List.filterMap_cons]
  cases this : out i <;> simpa [this] using hend

end Loop

theorem roundsOf_room (capacity : ℕ) (keep : ℕ → Bool) (rounds i count : ℕ)
 (room : count + rounds ≤ capacity) : roundsOf capacity keep rounds i count = rounds := by
 induction rounds generalizing i count with
 | zero => rfl
 | succ rounds ih =>
  rw [roundsOf, if_neg (by omega), ih]
  split <;> omega

theorem roundsOf_le (capacity : ℕ) (keep : ℕ → Bool) (rounds i count : ℕ) :
 roundsOf capacity keep rounds i count ≤ rounds := by
 induction rounds generalizing i count with
 | zero => exact Nat.le_refl 0
 | succ rounds ih =>
  rw [roundsOf]
  split
  · exact Nat.zero_le _
  · exact Nat.succ_le_succ (ih _ _)

theorem roundsOf_always (capacity rounds i count : ℕ) :
 roundsOf capacity (fun _ => true) rounds i count = min rounds (capacity - count) := by
 induction rounds generalizing i count with
 | zero => rw [roundsOf, Nat.zero_min]
 | succ rounds ih =>
  rw [roundsOf]
  split
  · omega
  · rw [ih, if_pos rfl]
    omega

end CheckedAccess
