import Mathlib.Data.List.Infix

/-! `step s a = none` stands for an action whose effect is undefined. A run is
given by its list of actions; the rules below turn facts about one step into
facts about every state, or every step, of a run. -/
namespace RunRules

universe u v
variable {σ : Type u} {α : Type v}

/-- The state after a list of actions, if every step on the way is defined. -/
def exec (step : σ → α → Option σ) : σ → List α → Option σ
 | s, [] => some s
 | s, a :: as => (step s a).bind fun t => exec step t as

/-- Every prefix of the run is defined and ends in a state with `I`. -/
def Safe (step : σ → α → Option σ) (I : σ → Prop) (s : σ) (as : List α) : Prop :=
 ∀ pre, pre <+: as → ∃ t, exec step s pre = some t ∧ I t

/-- `Q` holds of every step the run takes: of the state before it and its action. -/
def Along (step : σ → α → Option σ) (Q : σ → α → Prop) (s : σ) (as : List α) : Prop :=
 ∀ pre a, pre ++ [a] <+: as → ∀ t, exec step s pre = some t → Q t a

variable {step : σ → α → Option σ} {I : σ → Prop} {P Q : σ → α → Prop}

@[simp] theorem exec_nil (s : σ) : exec step s [] = some s := rfl

@[simp] theorem exec_cons (s : σ) (a : α) (as : List α) :
 exec step s (a :: as) = (step s a).bind fun t => exec step t as := rfl

theorem exec_append (s : σ) (as bs : List α) :
 exec step s (as ++ bs) = (exec step s as).bind fun t => exec step t bs := by
 induction as generalizing s with
 | nil => rfl
 | cons a as ih =>
  simp only [List.cons_append, exec_cons]
  cases step s a with
  | none => rfl
  | some t => exact ih t

theorem along_nil (s : σ) : Along step Q s [] := by
 intro pre a h
 simp at h

theorem along_cons (s : σ) (a : α) (as : List α) :
 Along step Q s (a :: as) ↔ Q s a ∧ ∀ t, step s a = some t → Along step Q t as := by
 constructor
 · intro h
   refine ⟨h [] a (by simp) s rfl, ?_⟩
   intro t ht pre b hb u hu
   exact h (a :: pre) b (by simpa using hb) u (by simp [ht, hu])
 · rintro ⟨hq, htail⟩ pre b hb u hu
   cases pre with
   | nil =>
    simp only [List.nil_append, List.cons_prefix_cons, List.nil_prefix, and_true] at hb
    simp only [exec_nil, Option.some.injEq] at hu
    subst hb hu
    exact hq
   | cons c pre =>
    simp only [List.cons_append, List.cons_prefix_cons] at hb
    obtain ⟨rfl, hb⟩ := hb
    obtain ⟨t, ht, hu⟩ := Option.bind_eq_some_iff.mp hu
    exact htail t ht pre b hb u hu

theorem safe_nil (s : σ) : Safe step I s [] ↔ I s := by
 constructor
 · intro h
   obtain ⟨t, ht, hi⟩ := h [] (List.nil_prefix)
   cases ht
   exact hi
 · intro h pre hpre
   rw [List.prefix_nil] at hpre
   exact ⟨s, by rw [hpre]; rfl, h⟩

theorem safe_cons (s : σ) (a : α) (as : List α) :
 Safe step I s (a :: as) ↔ I s ∧ ∃ t, step s a = some t ∧ Safe step I t as := by
 constructor
 · intro h
   obtain ⟨_, hs, hi⟩ := h [] List.nil_prefix
   cases hs
   obtain ⟨u, hu, _⟩ := h [a] (by simp)
   obtain ⟨t, ht, -⟩ := Option.bind_eq_some_iff.mp hu
   refine ⟨hi, t, ht, ?_⟩
   intro pre hpre
   obtain ⟨v, hv, hiv⟩ := h (a :: pre) (by simpa using hpre)
   exact ⟨v, by simpa [ht] using hv, hiv⟩
 · rintro ⟨hi, t, ht, htail⟩ pre hpre
   cases pre with
   | nil => exact ⟨s, rfl, hi⟩
   | cons b pre =>
    obtain ⟨rfl, hsub⟩ := List.cons_prefix_cons.mp hpre
    obtain ⟨v, hv, hiv⟩ := htail pre hsub
    exact ⟨v, by simpa [ht] using hv, hiv⟩

theorem safe_of_along (hstep : ∀ s a, I s → Q s a → ∃ t, step s a = some t ∧ I t)
 (s : σ) (as : List α) (hs : I s) (h : Along step Q s as) : Safe step I s as := by
 induction as generalizing s with
 | nil => exact (safe_nil s).mpr hs
 | cons a as ih =>
  obtain ⟨hq, htail⟩ := (along_cons s a as).mp h
  obtain ⟨t, ht, hi⟩ := hstep s a hs hq
  exact (safe_cons s a as).mpr ⟨hs, t, ht, ih t hi (htail t ht)⟩

theorem safe_iff_along_of {J : σ → Prop} {A : α → Prop} (himp : ∀ s, J s → I s)
 (hgood : ∀ s a, J s → Q s a → ∃ t, step s a = some t ∧ J t)
 (hbad : ∀ s a, J s → A a → (∃ t, step s a = some t ∧ I t) → Q s a)
 (s : σ) (as : List α) (hs : J s) (hadm : ∀ a ∈ as, A a) :
 Safe step I s as ↔ Along step Q s as := by
 induction as generalizing s with
 | nil => simp only [safe_nil, himp s hs, along_nil]
 | cons a as ih =>
  obtain ⟨ha, has⟩ := List.forall_mem_cons.mp hadm
  rw [safe_cons, along_cons]
  constructor
  · rintro ⟨-, t, ht, hsafe⟩
    obtain ⟨_, h, hi⟩ := hsafe [] List.nil_prefix
    cases h
    have hq := hbad s a hs ha ⟨t, ht, hi⟩
    refine ⟨hq, ?_⟩
    intro u hu
    obtain ⟨v, hv, hj⟩ := hgood s a hs hq
    obtain rfl : t = u := Option.some.inj (ht.symm.trans hu)
    obtain rfl : v = t := Option.some.inj (hv.symm.trans ht)
    exact (ih v hj has).mp hsafe
  · rintro ⟨hq, htail⟩
    obtain ⟨t, ht, hj⟩ := hgood s a hs hq
    exact ⟨himp s hs, t, ht, (ih t hj has).mpr (htail t ht)⟩

theorem safe_iff_along (hstep : ∀ s a, I s → ((∃ t, step s a = some t ∧ I t) ↔ Q s a))
 (s : σ) (as : List α) (hs : I s) : Safe step I s as ↔ Along step Q s as :=
 safe_iff_along_of (A := fun _ => True) (fun _ h => h) (fun s a h => (hstep s a h).mpr)
  (fun s a h _ => (hstep s a h).mp) s as hs fun _ _ => trivial

theorem along_congr (hkeep : ∀ s a t, I s → step s a = some t → I t)
 (hiff : ∀ s a, I s → (P s a ↔ Q s a)) (s : σ) (as : List α) (hs : I s) :
 Along step P s as ↔ Along step Q s as := by
 induction as generalizing s with
 | nil => simp only [along_nil]
 | cons a as ih =>
  rw [along_cons, along_cons, hiff s a hs]
  apply and_congr_right
  intro _
  apply forall₂_congr
  intro t ht
  exact ih t (hkeep s a t hs ht)

theorem along_congr_of_keep (hkeep : ∀ s a t, I s → P s a → step s a = some t → I t)
 (hiff : ∀ s a, I s → (P s a ↔ Q s a)) (s : σ) (as : List α) (hs : I s) :
 Along step P s as ↔ Along step Q s as := by
 induction as generalizing s with
 | nil => simp only [along_nil]
 | cons a as ih =>
  rw [along_cons, along_cons, ← hiff s a hs]
  refine and_congr_right fun hp => forall₂_congr fun t ht => ?_
  exact ih t (hkeep s a t hs hp ht)

theorem exec_invariant (hkeep : ∀ s a t, I s → step s a = some t → I t)
 (s t : σ) (as : List α) (hs : I s) (h : exec step s as = some t) : I t := by
 induction as generalizing s with
 | nil => cases h; exact hs
 | cons a as ih =>
  obtain ⟨u, hu, hrest⟩ := Option.bind_eq_some_iff.mp h
  exact ih u (hkeep s a u hs hu) hrest

theorem along_invariant (hkeep : ∀ s a t, I s → Q s a → step s a = some t → I t)
 (s t : σ) (as : List α) (hs : I s) (h : Along step Q s as) (hexec : exec step s as = some t) :
 I t := by
 induction as generalizing s with
 | nil => cases hexec; exact hs
 | cons a as ih =>
  obtain ⟨hq, htail⟩ := (along_cons s a as).mp h
  obtain ⟨u, hu, hrest⟩ := Option.bind_eq_some_iff.mp hexec
  exact ih u (hkeep s a u hs hq hu) (htail u hu) hrest

theorem along_foldl {f : σ → α → σ} (hkeep : ∀ s a, I s → Q s a → I (f s a)) (s : σ)
 (as : List α) (hs : I s) (h : Along (fun s a => some (f s a)) Q s as) : I (as.foldl f s) := by
 induction as generalizing s with
 | nil => exact hs
 | cons a as ih =>
  obtain ⟨hq, htail⟩ := (along_cons s a as).mp h
  exact ih (f s a) (hkeep s a hs hq) (htail (f s a) rfl)

end RunRules
