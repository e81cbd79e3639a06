import Mathlib.Data.Nat.Init
import Mathlib.Data.Option.Basic

/-! A program over a state is run with a bound on the rounds of its loops and the depth of its
calls. A result that one bound gives is given by every greater one, so that a program runs to
at most one result, and does not halt when no bound is enough. -/
namespace LoopPrograms

structure Prog (σ α : Type) where
 run : ℕ → σ → Option (α × σ)
 stable : ∀ n s r, run n s = some r → run (n + 1) s = some r

namespace Prog

variable {σ τ α β : Type}

/-- The program ends in the state `t` with the result `a`. -/
def Runs (c : Prog σ α) (s : σ) (a : α) (t : σ) : Prop := ∃ n, c.run n s = some (a, t)

def Halts (c : Prog σ α) (s : σ) : Prop := ∃ a t, c.Runs s a t

theorem run_le (c : Prog σ α) {n m : ℕ} (h : n ≤ m) {s : σ} {r : α × σ}
 (hr : c.run n s = some r) : c.run m s = some r := by
 induction m, h using Nat.le_induction with
 | base => exact hr
 | succ m _ ih => exact c.stable m s r ih

theorem Runs.unique {c : Prog σ α} {s t u : σ} {a b : α} (h : c.Runs s a t) (k : c.Runs s b u) :
 a = b ∧ t = u := by
 obtain ⟨n, hn⟩ := h
 obtain ⟨m, hm⟩ := k
 have left := c.run_le (Nat.le_max_left n m) hn
 have right := c.run_le (Nat.le_max_right n m) hm
 rw [left] at right
 simpa using right

protected def pure (a : α) : Prog σ α := ⟨fun _ s => some (a, s), fun _ _ _ h => h⟩

protected def bind (c : Prog σ α) (f : α → Prog σ β) : Prog σ β where
 run n s := (c.run n s).bind fun r => (f r.1).run n r.2
 stable n s r h := by
  obtain ⟨q, hq, hr⟩ := Option.bind_eq_some_iff.mp h
  exact Option.bind_eq_some_iff.mpr ⟨q, c.stable n s q hq, (f q.1).stable n q.2 r hr⟩

instance : Monad (Prog σ) where
 pure := Prog.pure
 bind := Prog.bind

/-- What `f` reads in the state. -/
def read (f : σ → α) : Prog σ α := ⟨fun _ s => some (f s, s), fun _ _ _ h => h⟩

def modify (f : σ → σ) : Prog σ Unit := ⟨fun _ s => some ((), f s), fun _ _ _ h => h⟩

/-- One step that changes the state and gives a result. -/
def step (f : σ → α × σ) : Prog σ α := ⟨fun _ s => some (f s), fun _ _ _ h => h⟩

def attempt (f : σ → Option (α × σ)) : Prog σ α := ⟨fun _ s => f s, fun _ _ _ h => h⟩

def never : Prog σ α := ⟨fun _ _ => none, fun _ _ _ h => h⟩

def zoom (part : σ → τ) (put : σ → τ → σ) (c : Prog τ α) : Prog σ α where
 run n s := (c.run n (part s)).map fun r => (r.1, put s r.2)
 stable n s r h := by
  obtain ⟨q, hq, hr⟩ := Option.map_eq_some_iff.mp h
  exact Option.map_eq_some_iff.mpr ⟨q, c.stable n _ q hq, hr⟩

def loopRun (body : β → Prog σ (β ⊕ α)) : ℕ → β → σ → Option (α × σ)
 | 0, _, _ => none
 | n + 1, b, s =>
  ((body b).run n s).bind fun r => r.1.elim (fun b => loopRun body n b r.2) fun a => some (a, r.2)

/-- Rounds of `body`, each with what the one before it left, up to the first that gives a
result. -/
def loop (body : β → Prog σ (β ⊕ α)) (b : β) : Prog σ α where
 run n s := loopRun body n b s
 stable n := by
  induction n generalizing b with
  | zero =>
   intro s r h
   cases h
  | succ n ih =>
   intro s r h
   obtain ⟨q, hq, hr⟩ := Option.bind_eq_some_iff.mp h
   refine Option.bind_eq_some_iff.mpr ⟨q, (body b).stable n s q hq, ?_⟩
   obtain ⟨c | a, t⟩ := q
   · exact ih c t r hr
   · exact hr

@[simp] theorem run_pure (n : ℕ) (s : σ) (a : α) :
 (pure a : Prog σ α).run n s = some (a, s) := rfl

@[simp] theorem run_bind (c : Prog σ α) (f : α → Prog σ β) (n : ℕ) (s : σ) :
 (c >>= f).run n s = (c.run n s).bind fun r => (f r.1).run n r.2 := rfl

@[simp] theorem run_read (f : σ → α) (n : ℕ) (s : σ) : (read f).run n s = some (f s, s) := rfl

@[simp] theorem run_modify (f : σ → σ) (n : ℕ) (s : σ) :
 (modify f).run n s = some ((), f s) := rfl

@[simp] theorem run_attempt (f : σ → Option (α × σ)) (n : ℕ) (s : σ) :
 (attempt f).run n s = f s := rfl

@[simp] theorem run_step (f : σ → α × σ) (n : ℕ) (s : σ) : (step f).run n s = some (f s) := rfl

theorem runs_pure (a b : α) (s t : σ) : (pure a : Prog σ α).Runs s b t ↔ a = b ∧ s = t := by
 constructor
 · rintro ⟨n, h⟩
   have pair : (a, s) = (b, t) := Option.some_injective _ h
   simpa using pair
 · rintro ⟨rfl, rfl⟩
   exact ⟨0, rfl⟩

theorem runs_bind (c : Prog σ α) (f : α → Prog σ β) (s u : σ) (b : β) :
 (c >>= f).Runs s b u ↔ ∃ a t, c.Runs s a t ∧ (f a).Runs t b u := by
 constructor
 · rintro ⟨n, h⟩
   obtain ⟨q, hq, hr⟩ := Option.bind_eq_some_iff.mp h
   exact ⟨q.1, q.2, ⟨n, hq⟩, n, hr⟩
 · rintro ⟨a, t, ⟨n, hn⟩, m, hm⟩
   refine ⟨max n m, Option.bind_eq_some_iff.mpr ⟨(a, t), ?_, ?_⟩⟩
   · exact c.run_le (Nat.le_max_left n m) hn
   · exact (f a).run_le (Nat.le_max_right n m) hm

theorem runs_step (f : σ → α × σ) (s : σ) : (step f).Runs s (f s).1 (f s).2 := ⟨0, rfl⟩

theorem runs_attempt (f : σ → Option (α × σ)) (s t : σ) (a : α) :
 (attempt f).Runs s a t ↔ f s = some (a, t) :=
 ⟨fun ⟨_, h⟩ => h, fun h => ⟨0, h⟩⟩

theorem runs_zoom (part : σ → τ) (put : σ → τ → σ) (c : Prog τ α) (s u : σ) (a : α) :
 (zoom part put c).Runs s a u ↔ ∃ t, c.Runs (part s) a t ∧ put s t = u := by
 constructor
 · rintro ⟨n, h⟩
   obtain ⟨⟨b, t⟩, hq, hr⟩ := Option.map_eq_some_iff.mp h
   cases hr
   exact ⟨t, ⟨n, hq⟩, rfl⟩
 · rintro ⟨t, ⟨n, hn⟩, rfl⟩
   exact ⟨n, Option.map_eq_some_iff.mpr ⟨(a, t), hn, rfl⟩⟩

theorem runs_loop (body : β → Prog σ (β ⊕ α)) (b : β) (s u : σ) (a : α) :
 (loop body b).Runs s a u ↔
  ((body b).Runs s (.inr a) u ∨
   ∃ c t, (body b).Runs s (.inl c) t ∧ (loop body c).Runs t a u) := by
 constructor
 · rintro ⟨n, h⟩
   cases n with
   | zero => cases h
   | succ n =>
    obtain ⟨⟨c | d, t⟩, hq, hr⟩ := Option.bind_eq_some_iff.mp h
    · exact .inr ⟨c, t, ⟨n, hq⟩, n, hr⟩
    · have pair : (d, t) = (a, u) := Option.some_injective _ hr
      cases pair
      exact .inl ⟨n, hq⟩
 · rintro (⟨n, h⟩ | ⟨c, t, ⟨n, hn⟩, m, hm⟩)
   · exact ⟨n + 1, Option.bind_eq_some_iff.mpr ⟨(.inr a, u), h, rfl⟩⟩
   · refine ⟨max n m + 1, Option.bind_eq_some_iff.mpr ⟨(.inl c, t), ?_, ?_⟩⟩
     · exact (body b).run_le (Nat.le_max_left n m) hn
     · exact (loop body c).run_le (Nat.le_max_right n m) hm

theorem halts_bind (c : Prog σ α) (f : α → Prog σ β) (s : σ) :
 (c >>= f).Halts s ↔ ∃ a t, c.Runs s a t ∧ (f a).Halts t := by
 constructor
 · rintro ⟨b, u, h⟩
   obtain ⟨a, t, ha, hb⟩ := (runs_bind c f s u b).mp h
   exact ⟨a, t, ha, b, u, hb⟩
 · rintro ⟨a, t, ha, b, u, hb⟩
   exact ⟨b, u, (runs_bind c f s u b).mpr ⟨a, t, ha, hb⟩⟩

theorem runs_bind_of_runs {c : Prog σ α} {f : α → Prog σ β} {s t u : σ} {a : α} {b : β}
 (h : c.Runs s a t) : (c >>= f).Runs s b u ↔ (f a).Runs t b u := by
 rw [runs_bind]
 constructor
 · rintro ⟨a', t', run, rest⟩
   obtain ⟨rfl, rfl⟩ := h.unique run
   exact rest
 · exact fun rest => ⟨a, t, h, rest⟩

theorem halts_bind_of_runs {c : Prog σ α} {f : α → Prog σ β} {s t : σ} {a : α}
 (h : c.Runs s a t) : (c >>= f).Halts s ↔ (f a).Halts t := by
 rw [halts_bind]
 constructor
 · rintro ⟨b, u, hb, rest⟩
   obtain ⟨rfl, rfl⟩ := h.unique hb
   exact rest
 · intro rest
   exact ⟨a, t, h, rest⟩

variable {body : β → Prog σ (β ⊕ α)}

theorem halts_loop_of_runs {b c : β} {s t : σ}
 (h : (body b).Runs s (.inl c) t) : (loop body b).Halts s ↔ (loop body c).Halts t := by
 constructor
 · rintro ⟨a, u, hu⟩
   obtain hb | ⟨d, t', hd, rest⟩ := (runs_loop body b s u a).mp hu
   · obtain ⟨clash, _⟩ := h.unique hb
     cases clash
   · obtain ⟨same, rfl⟩ := h.unique hd
     cases same
     exact ⟨a, u, rest⟩
 · rintro ⟨a, u, hu⟩
   exact ⟨a, u, (runs_loop body b s u a).mpr (.inr ⟨c, t, h, hu⟩)⟩

theorem body_halts_of_loop {b : β} {s : σ} (h : (loop body b).Halts s) : (body b).Halts s := by
 obtain ⟨a, u, hu⟩ := h
 obtain hb | ⟨c, t, hc, _⟩ := (runs_loop body b s u a).mp hu
 · exact ⟨_, _, hb⟩
 · exact ⟨_, _, hc⟩

theorem loop_result {I : σ → Prop} {Q : α → σ → Prop}
 (next : ∀ b c s t, I s → (body b).Runs s (.inl c) t → I t)
 (last : ∀ b a s t, I s → (body b).Runs s (.inr a) t → Q a t) {b : β} {a : α} {s u : σ}
 (hs : I s) (run : (loop body b).Runs s a u) : Q a u := by
 obtain ⟨n, hn⟩ := run
 induction n generalizing b s with
 | zero => cases hn
 | succ n ih =>
  obtain ⟨⟨c | d, t⟩, hq, hr⟩ := Option.bind_eq_some_iff.mp hn
  · exact ih (next b c s t hs ⟨n, hq⟩) hr
  · have pair : (d, t) = (a, u) := Option.some_injective _ hr
    cases pair
    exact last b a s u hs ⟨n, hq⟩

theorem not_halts_loop {I : β → σ → Prop}
 (round : ∀ b s, I b s → ∃ c t, (body b).Runs s (.inl c) t ∧ I c t) {b : β} {s : σ}
 (hs : I b s) : ¬ (loop body b).Halts s := by
 rintro ⟨a, u, n, hn⟩
 induction n generalizing b s with
 | zero => cases hn
 | succ n ih =>
  obtain ⟨c, t, run, ht⟩ := round b s hs
  obtain ⟨q, hq, hr⟩ := Option.bind_eq_some_iff.mp hn
  obtain ⟨same, rfl⟩ := run.unique ⟨n, hq⟩
  rw [← same] at hr
  exact ih ht hr

/-- `d` gives every result that `c` gives, with the same bound. -/
class Under (c d : Prog σ α) : Prop where
 under : ∀ n s r, c.run n s = some r → d.run n s = some r

instance (priority := low) under_refl (c : Prog σ α) : Under c c := ⟨fun _ _ _ h => h⟩

instance under_never (c : Prog σ α) : Under never c := by
 refine ⟨fun n s r h => ?_⟩
 cases h

instance under_bind (c d : Prog σ α) (f g : α → Prog σ β) [cd : Under c d]
 [fg : ∀ a, Under (f a) (g a)] : Under (c >>= f) (d >>= g) := by
 refine ⟨fun n s r h => ?_⟩
 obtain ⟨q, hq, hr⟩ := Option.bind_eq_some_iff.mp h
 exact Option.bind_eq_some_iff.mpr ⟨q, cd.under n s q hq, (fg q.1).under n q.2 r hr⟩

instance under_ite (p : Prop) [Decidable p] (c d c' d' : Prog σ α) [Under c d] [Under c' d'] :
 Under (if p then c else c') (if p then d else d') := by
 split <;> infer_instance

instance under_elim (o : Option β) (c d : Prog σ α) (f g : β → Prog σ α) [Under c d]
 [∀ b, Under (f b) (g b)] : Under (o.elim c f) (o.elim d g) := by
 cases o
 · exact inferInstanceAs (Under c d)
 · exact inferInstanceAs (Under (f _) (g _))

def limit (c : ℕ → Prog σ α) (grows : ∀ d, Under (c d) (c (d + 1))) : Prog σ α where
 run n s := (c n).run n s
 stable n s r h := (grows n).under (n + 1) s r ((c n).stable n s r h)

theorem run_of_grows {c : ℕ → Prog σ α} (grows : ∀ d, Under (c d) (c (d + 1))) {d e : ℕ}
 (h : d ≤ e) {n : ℕ} {s : σ} {r : α × σ} (hr : (c d).run n s = some r) :
 (c e).run n s = some r := by
 induction e, h using Nat.le_induction with
 | base => exact hr
 | succ e _ ih => exact (grows e).under n s r ih

theorem runs_limit (c : ℕ → Prog σ α) (grows : ∀ d, Under (c d) (c (d + 1))) (s t : σ) (a : α) :
 (limit c grows).Runs s a t ↔ ∃ d, (c d).Runs s a t := by
 constructor
 · rintro ⟨n, h⟩
   exact ⟨n, n, h⟩
 · rintro ⟨d, n, h⟩
   refine ⟨max d n, ?_⟩
   exact run_of_grows grows (Nat.le_max_left d n) ((c d).run_le (Nat.le_max_right d n) h)

/-- From every state with `P` the program ends, with a result and in a state with `Q`. -/
def Spec (P : σ → Prop) (c : Prog σ α) (Q : α → σ → Prop) : Prop :=
 ∀ s, P s → ∃ a t, c.Runs s a t ∧ Q a t

section rules
variable {P : σ → Prop} {c : Prog σ α} {Q : α → σ → Prop}

theorem Spec.halts (h : Spec P c Q) {s : σ} (hs : P s) : c.Halts s := by
 obtain ⟨a, t, run, _⟩ := h s hs
 exact ⟨a, t, run⟩

theorem Spec.of_runs (h : Spec P c Q) {s t : σ} {a : α} (hs : P s) (run : c.Runs s a t) :
 Q a t := by
 obtain ⟨b, u, hb, hq⟩ := h s hs
 obtain ⟨rfl, rfl⟩ := run.unique hb
 exact hq

theorem Spec.weaken {P' : σ → Prop} {Q' : α → σ → Prop} (h : Spec P c Q)
 (hp : ∀ s, P' s → P s) (hq : ∀ a t, Q a t → Q' a t) : Spec P' c Q' := by
 intro s hs
 obtain ⟨a, t, run, h⟩ := h s (hp s hs)
 exact ⟨a, t, run, hq a t h⟩

theorem spec_pure {a : α} (h : ∀ s, P s → Q a s) : Spec P (pure a) Q :=
 fun s hs => ⟨a, s, (runs_pure a a s s).mpr ⟨rfl, rfl⟩, h s hs⟩

theorem spec_step {f : σ → α × σ} (h : ∀ s, P s → Q (f s).1 (f s).2) : Spec P (step f) Q :=
 fun s hs => ⟨(f s).1, (f s).2, runs_step f s, h s hs⟩

theorem spec_read {f : σ → α} (h : ∀ s, P s → Q (f s) s) : Spec P (read f) Q :=
 fun s hs => ⟨f s, s, ⟨0, rfl⟩, h s hs⟩

theorem spec_modify {f : σ → σ} {Q : Unit → σ → Prop} (h : ∀ s, P s → Q () (f s)) :
 Spec P (modify f) Q :=
 fun s hs => ⟨(), f s, ⟨0, rfl⟩, h s hs⟩

theorem spec_bind {R : β → σ → Prop} {f : α → Prog σ β} (h : Spec P c Q)
 (hf : ∀ a, Spec (Q a) (f a) R) : Spec P (c >>= f) R := by
 intro s hs
 obtain ⟨a, t, run, ht⟩ := h s hs
 obtain ⟨b, u, rest, hu⟩ := hf a t ht
 exact ⟨b, u, (runs_bind c f s u b).mpr ⟨a, t, run, rest⟩, hu⟩

theorem spec_ite {p : Prop} [Decidable p] {d : Prog σ α} (hc : p → Spec P c Q)
 (hd : ¬ p → Spec P d Q) : Spec P (if p then c else d) Q := by
 split
 · exact hc ‹_›
 · exact hd ‹_›

theorem spec_zoom {part : σ → τ} {put : σ → τ → σ} {R : τ → Prop} {d : Prog τ α}
 {S : α → τ → Prop} (h : Spec R d S) (pre : ∀ s, P s → R (part s))
 (post : ∀ s a t, P s → S a t → Q a (put s t)) : Spec P (zoom part put d) Q := by
 intro s hs
 obtain ⟨a, t, ⟨n, hn⟩, ht⟩ := h (part s) (pre s hs)
 exact ⟨a, put s t, ⟨n, Option.map_eq_some_iff.mpr ⟨(a, t), hn, rfl⟩⟩, post s a t hs ht⟩

theorem spec_loop {I : β → ℕ → σ → Prop} {Q : α → σ → Prop} (bound : ℕ) (zero : ∀ b s, ¬ I b 0 s)
 (round : ∀ b n, n < bound →
  Spec (I b (n + 1)) (body b) fun r s => r.elim (fun b => I b n s) fun a => Q a s) (b : β) :
 Spec (I b bound) (loop body b) Q := by
 have general : ∀ n ≤ bound, ∀ b, Spec (I b n) (loop body b) Q := by
  intro n
  induction n with
  | zero =>
   intro _ b s hs
   exact absurd hs (zero b s)
  | succ n ih =>
   intro hn b s hs
   obtain ⟨r, t, run, ht⟩ := round b n (by omega) s hs
   obtain c | a := r
   · obtain ⟨a, u, rest, hu⟩ := ih (by omega) c t ht
     exact ⟨a, u, (runs_loop body b s u a).mpr (.inr ⟨c, t, run, rest⟩), hu⟩
   · exact ⟨a, t, (runs_loop body b s t a).mpr (.inl run), ht⟩
 exact general bound (Nat.le_refl bound) b

end rules

/-- Every result of the program has the property. -/
def Yields (c : Prog σ α) (Q : α → Prop) : Prop := ∀ s a t, c.Runs s a t → Q a

section results
variable {Q : α → Prop} {R : β → Prop} {c : Prog σ α}

theorem yields_pure {a : α} (h : Q a) : Yields (pure a : Prog σ α) Q := by
 intro s b t run
 rw [← ((runs_pure a b s t).mp run).1]
 exact h

theorem yields_bind {f : α → Prog σ β} (h : Yields c Q) (hf : ∀ a, Q a → Yields (f a) R) :
 Yields (c >>= f) R := by
 intro s b u run
 obtain ⟨a, t, first, rest⟩ := (runs_bind c f s u b).mp run
 exact hf a (h s a t first) t b u rest

theorem yields_ite {p : Prop} [Decidable p] {d : Prog σ α} (hc : Yields c Q) (hd : Yields d Q) :
 Yields (if p then c else d) Q := by
 split
 · exact hc
 · exact hd

theorem yields_loop {J : β → Prop} (round : ∀ b, J b → Yields (body b) fun r => r.elim J Q) {b : β}
 (hb : J b) : Yields (loop body b) Q := by
 rintro s a u ⟨n, run⟩
 induction n generalizing b s with
 | zero => cases run
 | succ n ih =>
  obtain ⟨⟨c | d, t⟩, first, rest⟩ := Option.bind_eq_some_iff.mp run
  · exact ih (round b hb s _ t ⟨n, first⟩) t rest
  · have pair : (d, t) = (a, u) := Option.some_injective _ rest
    cases pair
    exact round b hb s _ u ⟨n, first⟩

end results

/-- From every state with one of the properties the program ends, in a state with it. -/
class Keeps (I : ℕ → σ → Prop) (c : Prog σ α) : Prop where
 keeps : ∀ n, Spec (I n) c fun _ => I n

instance keeps_pure (I : ℕ → σ → Prop) (a : α) : Keeps I (pure a : Prog σ α) :=
 ⟨fun _ => spec_pure fun _ h => h⟩

instance keeps_read (I : ℕ → σ → Prop) (f : σ → α) : Keeps I (read f) :=
 ⟨fun _ => spec_read fun _ h => h⟩

instance keeps_bind (I : ℕ → σ → Prop) (c : Prog σ α) (f : α → Prog σ β) [hc : Keeps I c]
 [hf : ∀ a, Keeps I (f a)] : Keeps I (c >>= f) :=
 ⟨fun n => spec_bind (hc.keeps n) fun a => (hf a).keeps n⟩

instance keeps_ite (I : ℕ → σ → Prop) (p : Prop) [Decidable p] (c d : Prog σ α) [Keeps I c]
 [Keeps I d] : Keeps I (if p then c else d) := by
 split <;> infer_instance

instance keeps_elim (I : ℕ → σ → Prop) (o : Option β) (c : Prog σ α) (f : β → Prog σ α)
 [Keeps I c] [∀ b, Keeps I (f b)] : Keeps I (o.elim c f) := by
 cases o
 · exact inferInstanceAs (Keeps I c)
 · exact inferInstanceAs (Keeps I (f _))

theorem keeps_loop {I : ℕ → σ → Prop} (special : β → ℕ → σ → Prop)
 (done : β → Prop) (kept : ∀ b, Keeps I (body b)) (zero : ∀ b s, ¬ special b 0 s)
 (round : ∀ b n, Spec (fun s => I n s ∨ special b (n + 1) s) (body b) fun r s =>
  ∀ c, r = .inl c → done c ∨ special c n s)
 (ends : ∀ b s, done b → ∃ a, (body b).Runs s (.inr a) s) (b : β) :
 Keeps I (loop body b) := by
 refine ⟨fun m => ?_⟩
 have later : ∀ n b s, I m s → done b ∨ special b n s →
  ∃ a t, (loop body b).Runs s a t ∧ I m t := by
  intro n
  induction n with
  | zero =>
   rintro b s hs (ended | more)
   · obtain ⟨a, run⟩ := ends b s ended
     exact ⟨a, s, (runs_loop body b s s a).mpr (.inl run), hs⟩
   · exact absurd more (zero b s)
  | succ n ih =>
   rintro b s hs (ended | more)
   · obtain ⟨a, run⟩ := ends b s ended
     exact ⟨a, s, (runs_loop body b s s a).mpr (.inl run), hs⟩
   · obtain ⟨r, t, run, next⟩ := round b n s (.inr more)
     have ht : I m t := ((kept b).keeps m).of_runs hs run
     cases r with
     | inl c =>
      obtain ⟨a, u, rest, hu⟩ := ih c t ht (next c rfl)
      exact ⟨a, u, (runs_loop body b s u a).mpr (.inr ⟨c, t, run, rest⟩), hu⟩
     | inr a => exact ⟨a, t, (runs_loop body b s t a).mpr (.inl run), ht⟩
 intro s hs
 obtain ⟨r, t, run, next⟩ := round b m s (.inl hs)
 have ht : I m t := ((kept b).keeps m).of_runs hs run
 cases r with
 | inl c =>
  obtain ⟨a, u, rest, hu⟩ := later m c t ht (next c rfl)
  exact ⟨a, u, (runs_loop body b s u a).mpr (.inr ⟨c, t, run, rest⟩), hu⟩
 | inr a => exact ⟨a, t, (runs_loop body b s t a).mpr (.inl run), ht⟩

end Prog
end LoopPrograms
