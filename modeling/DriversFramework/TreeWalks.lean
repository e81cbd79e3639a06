import Mathlib.Data.List.Basic

/-! A tree is given by the children of each object. A walk hands a state from call to call; it takes
the number of levels that it may go down, and ends in `stuck` where there are more of them. -/
namespace DriversFramework.TreeWalks

variable {α β σ ε : Type} (children : α → List α)

def Within : ℕ → α → Prop
 | 0, _ => False
 | levels + 1, a => ∀ c ∈ children a, Within levels c

def postorder : ℕ → α → List α
 | 0, _ => []
 | levels + 1, a => (children a).flatMap (postorder levels) ++ [a]

/-- The calls of a walk that comes to an object twice, before and behind its children, and that
goes down from an object only where `enter` says so. -/
def roundOrder (enter : α → Bool) : ℕ → ℕ → α → List (Bool × α × ℕ)
 | 0, _, _ => []
 | levels + 1, depth, a =>
  (true, a, depth) ::
   if enter a then
    (children a).flatMap (roundOrder enter levels (depth + 1)) ++ [(false, a, depth)]
   else []

section bounds
variable {children} {levels more : ℕ} {a : α}

theorem within_of_increasing {children : ℕ → List ℕ} {bound : ℕ}
 (older : ∀ p, ∀ c ∈ children p, p < c) (inside : ∀ p, ∀ c ∈ children p, c < bound) :
 ∀ (levels a : ℕ), bound ≤ a + levels → Within children (levels + 1) a
 | 0, a, le => by
  intro c hc
  have := older a c hc
  have := inside a c hc
  omega
 | levels + 1, a, le => by
  intro c hc
  have := older a c hc
  exact within_of_increasing older inside levels c (by omega)

end bounds

theorem bind_ok_iff {α β : Type} {x : Except ε α} {f : α → Except ε β} {b : β} :
 x >>= f = .ok b ↔ ∃ a, x = .ok a ∧ f a = .ok b := by
 cases x with
 | error e =>
  refine ⟨nofun, ?_⟩
  rintro ⟨_, same, _⟩
  cases same
 | ok a =>
  refine ⟨fun run => ⟨a, rfl, run⟩, ?_⟩
  rintro ⟨_, same, run⟩
  cases same
  exact run

section calls
variable {step : σ → α → Except ε σ}

theorem foldlM_adds (listed : σ → List β) {adds : α → List β} :
 ∀ {as : List α} {s t : σ},
  (∀ a ∈ as, ∀ s t, step s a = .ok t → listed t = listed s ++ adds a) →
  as.foldlM step s = .ok t → listed t = listed s ++ as.flatMap adds
 | [], s, t, _, run => by
  cases run
  exact (List.append_nil _).symm
 | a :: as, s, t, one, run => by
  rw [List.foldlM_cons, bind_ok_iff] at run
  obtain ⟨u, call, run⟩ := run
  have here := one a List.mem_cons_self s u call
  have rest := foldlM_adds listed (fun b hb => one b (List.mem_cons_of_mem a hb)) run
  rw [rest, here, List.append_assoc, List.flatMap_cons]

theorem foldlM_keeps (Inv : σ → Prop) : ∀ {as : List α} {s t : σ},
 (∀ a ∈ as, ∀ s t, Inv s → step s a = .ok t → Inv t) → as.foldlM step s = .ok t → Inv s → Inv t
 | [], s, t, _, run, inv => by
  cases run
  exact inv
 | a :: as, s, t, keeps, run, inv => by
  rw [List.foldlM_cons, bind_ok_iff] at run
  obtain ⟨u, call, run⟩ := run
  exact foldlM_keeps Inv (fun b hb => keeps b (List.mem_cons_of_mem a hb)) run
   (keeps a List.mem_cons_self s u inv call)

theorem foldlM_flatMap {walk : σ → β → Except ε σ} {order : β → List α} :
 ∀ {peers : List β} {s t : σ},
  (∀ b ∈ peers, ∀ s t, walk s b = .ok t → (order b).foldlM step s = .ok t) →
  peers.foldlM walk s = .ok t → (peers.flatMap order).foldlM step s = .ok t
 | [], s, t, _, run => run
 | b :: peers, s, t, each, run => by
  rw [List.foldlM_cons, bind_ok_iff] at run
  obtain ⟨u, call, run⟩ := run
  rw [List.flatMap_cons, List.foldlM_append, bind_ok_iff]
  exact ⟨u, each b List.mem_cons_self s u call,
   foldlM_flatMap (fun c hc => each c (List.mem_cons_of_mem b hc)) run⟩

end calls

section walks
variable (stuck : ε)

def walkBackward (callback : σ → α → Except ε σ) : ℕ → σ → α → Except ε σ
 | 0, _, _ => .error stuck
 | levels + 1, s, a => do
  let s ← (children a).foldlM (walkBackward callback levels) s
  callback s a

def walkForward (callback : σ → α → Except ε σ) : ℕ → σ → α → Except ε σ
 | 0, _, _ => .error stuck
 | levels + 1, s, a => do
  let s ← callback s a
  (children a).foldlM (walkForward callback levels) s

def walkRound (forward : σ → α → ℕ → Except ε (Bool × σ)) (backward : σ → α → ℕ → Except ε σ) :
  ℕ → ℕ → σ → α → Except ε σ
 | 0, _, _, _ => .error stuck
 | levels + 1, depth, s, a => do
  let (descend, s) ← forward s a depth
  if descend ∧ children a ≠ [] then
   let s ← (children a).foldlM (walkRound forward backward levels (depth + 1)) s
   backward s a depth
  else return s

variable {children stuck}

theorem walkBackward_order {callback : σ → α → Except ε σ} :
 ∀ {rounds levels : ℕ} {s t : σ} {a : α}, Within children levels a →
  walkBackward children stuck callback rounds s a = .ok t →
  (postorder children levels a).foldlM callback s = .ok t
 | 0, _, _, _, _, _, run => by cases run
 | _ + 1, 0, _, _, _, inside, _ => inside.elim
 | rounds + 1, levels + 1, s, t, a, inside, run => by
  rw [walkBackward, bind_ok_iff] at run
  obtain ⟨u, down, call⟩ := run
  rw [postorder, List.foldlM_append, bind_ok_iff]
  refine ⟨u, foldlM_flatMap (fun c hc _ _ run => walkBackward_order (inside c hc) run) down, ?_⟩
  exact (List.foldlM_cons ..).trans (bind_ok_iff.mpr ⟨t, call, rfl⟩)

def roundCall (forward : σ → α → ℕ → Except ε (Bool × σ)) (backward : σ → α → ℕ → Except ε σ)
  (s : σ) (call : Bool × α × ℕ) : Except ε σ :=
 if call.1 then (forward s call.2.1 call.2.2).map Prod.snd else backward s call.2.1 call.2.2

theorem walkRound_order {forward : σ → α → ℕ → Except ε (Bool × σ)}
 {backward : σ → α → ℕ → Except ε σ} (enter : α → Bool)
 (enters : ∀ {s t : σ} {a : α} {depth : ℕ} {descend : Bool},
  forward s a depth = .ok (descend, t) →
   (enter a = true ↔ descend = true ∧ children a ≠ [])) :
 ∀ {rounds levels depth : ℕ} {s t : σ} {a : α}, Within children levels a →
  walkRound children stuck forward backward rounds depth s a = .ok t →
  (roundOrder children enter levels depth a).foldlM (roundCall forward backward) s = .ok t
 | 0, _, _, _, _, _, _, run => by cases run
 | _ + 1, 0, _, _, _, _, inside, _ => inside.elim
 | rounds + 1, levels + 1, depth, s, t, a, inside, run => by
  rw [walkRound, bind_ok_iff] at run
  obtain ⟨⟨descend, u⟩, first, run⟩ := run
  have entered := enters first
  rw [roundOrder, List.foldlM_cons, bind_ok_iff]
  refine ⟨u, ?_, ?_⟩
  · rw [roundCall, if_pos rfl, first]
    rfl
  · change (if descend = true ∧ children a ≠ [] then _ else _) = _ at run
    by_cases down : descend = true ∧ children a ≠ []
    · rw [if_pos down, bind_ok_iff] at run
      obtain ⟨v, below, last⟩ := run
      rw [if_pos (entered.mpr down), List.foldlM_append, bind_ok_iff]
      refine ⟨v, foldlM_flatMap (fun c hc _ _ run =>
       walkRound_order enter enters (inside c hc) run) below, ?_⟩
      exact (List.foldlM_cons ..).trans (bind_ok_iff.mpr ⟨t, last, rfl⟩)
    · rw [if_neg down] at run
      rw [if_neg fun yes => down (entered.mp yes)]
      exact run

end walks

end DriversFramework.TreeWalks
