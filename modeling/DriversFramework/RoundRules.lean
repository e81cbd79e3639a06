import Mathlib.Data.Nat.Notation

/-! A loop that need not end is a function of the number of rounds it may make, with an error
`out` for too few. It ends if some number of rounds is enough; more rounds then change nothing. -/
namespace RoundRules

universe u v

variable {ε : Type u} {α β : Type v} {out : ε}

/-- `r'` comes from no fewer rounds than `r`. -/
def Extends (out : ε) (r r' : Except ε α) : Prop := r ≠ .error out → r' = r

def Ends (out : ε) (f : ℕ → Except ε α) : Prop := ∃ n, f n ≠ .error out

theorem Extends.refl (r : Except ε α) : Extends out r r := fun _ => rfl

theorem Extends.of_out (r : Except ε α) : Extends out (.error out) r := fun h => absurd rfl h

theorem Extends.trans {r s t : Except ε α} (h : Extends out r s) (h' : Extends out s t) :
 Extends out r t := by
 intro hr
 have hs := h hr
 rw [h' (hs ▸ hr), hs]

theorem Extends.bind {r r' : Except ε α} {f f' : α → Except ε β} (h : Extends out r r')
 (hf : ∀ a, r = .ok a → Extends out (f a) (f' a)) : Extends out (r >>= f) (r' >>= f') := by
 intro hr
 have hr' : r ≠ .error out := by
  rintro rfl
  exact hr rfl
 rw [h hr']
 cases r with
 | error e => rfl
 | ok a => exact hf a rfl hr

theorem extends_of_le {f : ℕ → Except ε α} (h : ∀ n, Extends out (f n) (f (n + 1))) {m n : ℕ}
 (hle : m ≤ n) : Extends out (f m) (f n) := by
 induction hle with
 | refl => exact .refl _
 | step _ ih => exact ih.trans (h _)

theorem eq_of_enough {f : ℕ → Except ε α} (h : ∀ n, Extends out (f n) (f (n + 1))) {m n : ℕ}
 (hm : f m ≠ .error out) (hn : f n ≠ .error out) : f m = f n := by
 rcases Nat.le_total m n with hle | hle
 · exact (extends_of_le h hle hm).symm
 · exact extends_of_le h hle hn

theorem ends_bind_iff {f : ℕ → Except ε α} {g : ℕ → α → Except ε β}
 (hf : ∀ n, Extends out (f n) (f (n + 1)))
 (hg : ∀ n a, Extends out (g n a) (g (n + 1) a)) :
 (Ends out fun n => f n >>= g n) ↔
  Ends out f ∧ ∀ n a, f n = .ok a → Ends out fun n => g n a := by
 constructor
 · rintro ⟨n, hn⟩
   dsimp only at hn
   have first : f n ≠ .error out := by
    intro hout
    rw [hout] at hn
    exact hn rfl
   refine ⟨⟨n, first⟩, ?_⟩
   intro m a ha
   have same : f n = .ok a := by
    rw [← ha]
    refine eq_of_enough hf first ?_
    rw [ha]
    exact fun h => by cases h
   rw [same] at hn
   exact ⟨n, hn⟩
 · rintro ⟨⟨n, hn⟩, hrest⟩
   cases hr : f n with
   | error e =>
    refine ⟨n, ?_⟩
    dsimp only
    rw [hr] at hn ⊢
    change Except.error e ≠ _
    exact fun same => hn (by cases same; rfl)
   | ok a =>
    obtain ⟨k, hk⟩ := hrest n a hr
    have more : f (max n k) = .ok a := (extends_of_le hf (Nat.le_max_left n k) hn).trans hr
    have later := extends_of_le (fun n => hg n a) (Nat.le_max_right n k) hk
    refine ⟨max n k, ?_⟩
    change (f (max n k) >>= g (max n k)) ≠ _
    rw [more]
    change g (max n k) a ≠ _
    rw [later]
    exact hk

end RoundRules
