import DriversFramework.HcAstCopy

namespace DriversFramework.HcAst

open AstHeap

section Calls

variable (callback : AstHeap → ℕ → Result)

/-- What `walkBackward` calls back, each object with the tree at that time. -/
def callsBackward : ℕ → AstHeap → Option ℕ → List (AstHeap × ℕ)
 | _, _, none => []
 | 0, _, some _ => []
 | fuel + 1, h, some current =>
  callsBackward fuel h (h.child current) ++
   match walkBackward callback fuel h (h.child current) with
   | .error _ => []
   | .ok h₁ =>
    (h₁, current) ::
     match callback h₁ current with
     | .error _ => []
     | .ok h₂ => callsBackward fuel h₂ (h₁.next current)

/-- What `walkForward` calls back, each object with the tree at that time. -/
def callsForward : ℕ → AstHeap → Option ℕ → List (AstHeap × ℕ)
 | _, _, none => []
 | 0, _, some _ => []
 | fuel + 1, h, some current =>
  (h, current) ::
   match callback h current with
   | .error _ => []
   | .ok h₁ =>
    callsForward fuel h₁ (h₁.child current) ++
     match walkForward callback fuel h₁ (h₁.child current) with
     | .error _ => []
     | .ok h₂ => callsForward fuel h₂ (h₂.next current)

inductive WalksBackward : AstHeap → Option ℕ → List (AstHeap × ℕ) → AstHeap → Prop where
 | done {h : AstHeap} : WalksBackward h none [] h
 | visit {h h₁ h₂ h₃ : AstHeap} {c : ℕ} {under behind : List (AstHeap × ℕ)}
   (descend : WalksBackward h (h.child c) under h₁) (call : callback h₁ c = .ok h₂)
   (proceed : WalksBackward h₂ (h₁.next c) behind h₃) :
   WalksBackward h (some c) (under ++ (h₁, c) :: behind) h₃

inductive WalksForward : AstHeap → Option ℕ → List (AstHeap × ℕ) → AstHeap → Prop where
 | done {h : AstHeap} : WalksForward h none [] h
 | visit {h h₁ h₂ h₃ : AstHeap} {c : ℕ} {under behind : List (AstHeap × ℕ)}
   (call : callback h c = .ok h₁) (descend : WalksForward h₁ (h₁.child c) under h₂)
   (proceed : WalksForward h₂ (h₂.next c) behind h₃) :
   WalksForward h (some c) ((h, c) :: (under ++ behind)) h₃

theorem walksBackward_of_run (fuel : ℕ) : ∀ {h h' : AstHeap} {start : Option ℕ},
 walkBackward callback fuel h start = .ok h' →
 WalksBackward callback h start (callsBackward callback fuel h start) h' := by
 induction fuel with
 | zero =>
  intro h h' start hrun
  cases start with
  | none => cases hrun; exact .done
  | some c => cases hrun
 | succ fuel ih =>
  intro h h' start hrun
  cases start with
  | none => cases hrun; exact .done
  | some c =>
   rw [walkBackward] at hrun
   rw [callsBackward]
   cases hdown : walkBackward callback fuel h (h.child c) with
   | error e => rw [hdown] at hrun; cases hrun
   | ok h₁ =>
    rw [hdown] at hrun
    change (callback h₁ c >>= fun h => walkBackward callback fuel h (h₁.next c)) = _ at hrun
    dsimp only
    cases hcall : callback h₁ c with
    | error e => rw [hcall] at hrun; cases hrun
    | ok h₂ =>
     rw [hcall] at hrun
     exact .visit (ih hdown) hcall (ih hrun)

theorem walksForward_of_run (fuel : ℕ) : ∀ {h h' : AstHeap} {start : Option ℕ},
 walkForward callback fuel h start = .ok h' →
 WalksForward callback h start (callsForward callback fuel h start) h' := by
 induction fuel with
 | zero =>
  intro h h' start hrun
  cases start with
  | none => cases hrun; exact .done
  | some c => cases hrun
 | succ fuel ih =>
  intro h h' start hrun
  cases start with
  | none => cases hrun; exact .done
  | some c =>
   rw [walkForward] at hrun
   rw [callsForward]
   cases hcall : callback h c with
   | error e => rw [hcall] at hrun; cases hrun
   | ok h₁ =>
    rw [hcall] at hrun
    change (walkForward callback fuel h₁ (h₁.child c) >>= fun h =>
     walkForward callback fuel h (h.next c)) = _ at hrun
    dsimp only
    cases hdown : walkForward callback fuel h₁ (h₁.child c) with
    | error e => rw [hdown] at hrun; cases hrun
    | ok h₂ =>
     rw [hdown] at hrun
     exact .visit hcall (ih hdown) (ih hrun)

theorem WalksForward.keeps {callback : AstHeap → ℕ → Result} {Inv : AstHeap → Prop}
 {Allowed : AstHeap → ℕ → Prop}
 (hcall : ∀ {h h' : AstHeap} {c : ℕ}, Inv h → Allowed h c → callback h c = .ok h' → Inv h')
 {h h' : AstHeap} {start : Option ℕ} {calls : List (AstHeap × ℕ)}
 (hrun : WalksForward callback h start calls h') (hinv : Inv h)
 (hallowed : ∀ call ∈ calls, Allowed call.1 call.2) : Inv h' := by
 induction hrun with
 | done => exact hinv
 | visit call _ _ ihDescend ihProceed =>
  rw [List.forall_mem_cons, List.forall_mem_append] at hallowed
  obtain ⟨here, under, behind⟩ := hallowed
  exact ihProceed (ihDescend (hcall hinv here call) under) behind

end Calls

def After (h : AstHeap) (y z : ℕ) : Prop :=
 ∃ p done rest, (h.get p).children = done ++ y :: rest ∧ z ∈ rest

/-- A backward walk that is at `c` comes to `z`, and to what stands under it, later. -/
def Later (h : AstHeap) (c z : ℕ) : Prop := ∃ y, Below h y c ∧ After h y z

theorem After.siblings {h : AstHeap} {y z : ℕ} (hw : WellFormed h) (ha : After h y z) :
 ∃ p, y ∈ (h.get p).children ∧ z ∈ (h.get p).children ∧ y ≠ z := by
 obtain ⟨p, done, rest, hp, hz⟩ := ha
 refine ⟨p, ?_, ?_, ?_⟩
 · rw [hp]
   exact List.mem_append_right _ List.mem_cons_self
 · rw [hp]
   exact List.mem_append_right _ (List.mem_cons_of_mem _ hz)
 · rintro rfl
   have hnodup := hw.nodup p
   rw [hp] at hnodup
   exact (List.nodup_cons.mp (List.nodup_append.mp hnodup).2.1).1 hz

theorem Later.apart {h : AstHeap} (hw : WellFormed h) (c : ℕ) : Apart (Later h c) h c where
 lt := by
  rintro z ⟨y, -, ha⟩
  obtain ⟨p, -, hz, -⟩ := ha.siblings hw
  exact hw.lt_size hz
 above := by
  rintro z ⟨y, hyc, ha⟩ hzc
  obtain ⟨p, hy, hz, hne⟩ := ha.siblings hw
  exact hne (Below.eq_of_siblings hw hy hz hyc hzc)
 below := by
  rintro z ⟨y, hyc, ha⟩ hcz
  obtain ⟨p, hy, hz, hne⟩ := ha.siblings hw
  exact hne (Below.eq_of_siblings hw hy hz (hyc.trans hcz) (.refl h z))

theorem Below.of_above {h h' : AstHeap} (hw : WellFormed h) {p : ℕ}
 (habove : ∀ a, Below h a p → a ≠ p → (h'.get a).children = (h.get a).children) {a : ℕ}
 (hb : Below h a p) : Below h' a p := by
 induction hb using Relation.ReflTransGen.head_induction_on with
 | refl => exact .refl h' p
 | @head a b hab hbp ih =>
  have hlow := Below.le hw hbp
  have hab' : b ∈ (h'.get a).children := by
   rw [habove a ((Below.of_child hab).trans hbp) (by have := hw.older hab; omega)]
   exact hab
  exact (Below.of_child hab').trans ih

theorem Later.of_above {h h' : AstHeap} (hw : WellFormed h) {p z : ℕ}
 (habove : ∀ a, Below h a p → a ≠ p → (h'.get a).children = (h.get a).children)
 (hl : Later h p z) : Later h' p z := by
 obtain ⟨y, hyp, q, done, rest, hq, hz⟩ := hl
 have hy : y ∈ (h.get q).children := by
  rw [hq]
  exact List.mem_append_right _ List.mem_cons_self
 refine ⟨y, hyp.of_above hw habove, q, done, rest, ?_, hz⟩
 rw [habove q ((Below.of_child hy).trans hyp) ?_, hq]
 have := hw.older hy
 have := hyp.le hw
 omega

section Covered

variable (Settled : AstHeap → ℕ → Prop) (root : ℕ)

/-- In a walk that has come to the children `rest` of `p`, every object of the tree is
settled, stands above, or is still to come. -/
def Covered (h : AstHeap) (p : ℕ) (rest : List ℕ) : Prop :=
 ∀ o, Below h root o →
  Settled h o ∨ Below h o p ∨ Under (fun z => z ∈ rest ∨ Later h p z) h o

structure Leaves (h h' : AstHeap) (p c : ℕ) : Prop where
 wellFormed : WellFormed h'
 above : ∀ a, Below h a p → a ≠ p → (h'.get a).children = (h.get a).children
 fixed : ∀ a, Below h a p → (h'.get a).fixed = (h.get a).fixed
 here : (h'.get p).children = (h.get p).children ∨
  (h'.get p).children = (h.get p).children.erase c
 covered : ∀ {done rest : List ℕ}, (h.get p).children = done ++ c :: rest →
  Covered Settled root h' p rest

variable {Settled root}

theorem Covered.descend {h : AstHeap} {p c : ℕ} {done rest : List ℕ}
 (hc : Covered Settled root h p (c :: rest)) (hp : (h.get p).children = done ++ c :: rest) :
 Covered Settled root h c (h.get c).children := by
 have hmem : c ∈ (h.get p).children := by
  rw [hp]
  exact List.mem_append_right _ List.mem_cons_self
 intro o ho
 rcases hc o ho with hs | hop | ⟨z, hz, hzo⟩
 · exact .inl hs
 · exact .inr (.inl (hop.step hmem))
 · rcases hz with hz | ⟨y, hyp, hyz⟩
   · rcases List.mem_cons.mp hz with rfl | hz
     · rcases Relation.ReflTransGen.cases_head hzo with rfl | ⟨x, hx, hxo⟩
       · exact .inr (.inl (.refl h z))
       · exact .inr (.inr ⟨x, .inl hx, hxo⟩)
     · exact .inr (.inr ⟨z, .inr ⟨c, .refl h c, p, done, rest, hp, hz⟩, hzo⟩)
   · exact .inr (.inr ⟨z, .inr ⟨y, hyp.step hmem, hyz⟩, hzo⟩)

theorem Covered.leave {h h' : AstHeap} {p c : ℕ} {done rest : List ℕ} (hw : WellFormed h)
 (hc : Covered Settled root h c []) (hp : (h.get p).children = done ++ c :: rest)
 (habove : ∀ a, Below h a p → a ≠ p → (h'.get a).children = (h.get a).children)
 (hafter : ∀ o, Below h' root o → Settled h' o ∨ Under (Later h c) h' o ∨
  o ≠ c ∧ Below h root o ∧ (Settled h o → Settled h' o) ∧
   ∀ q, Later h c q → Below h q o → Below h' q o) :
 Covered Settled root h' p rest := by
 have hmem : c ∈ (h.get p).children := by
  rw [hp]
  exact List.mem_append_right _ List.mem_cons_self
 have pending : ∀ {z}, Later h c z → z ∈ rest ∨ Later h' p z := by
  rintro z ⟨y, hyc, ha⟩
  by_cases hy : y = c
  · subst hy
    obtain ⟨q, done', rest', hq, hz⟩ := ha
    have hyq : y ∈ (h.get q).children := by
     rw [hq]
     exact List.mem_append_right _ List.mem_cons_self
    obtain rfl : p = q := Option.some.inj ((hw.parent hmem).symm.trans (hw.parent hyq))
    have hnodup := hw.nodup p
    rw [hp] at hnodup
    obtain ⟨-, hrest, hdisjoint⟩ := List.nodup_append.mp hnodup
    have heq := (List.append_cons_inj_of_notMem
     (fun hd => hdisjoint y hd y List.mem_cons_self rfl) (List.nodup_cons.mp hrest).1).mp
     (hp.symm.trans hq)
    exact .inl (heq.2.2 ▸ hz)
  · exact .inr (Later.of_above hw habove ⟨y, hyc.parent_of_ne hw hmem hy, ha⟩)
 intro o ho
 rcases hafter o ho with hs | ⟨q, hq, hqo⟩ | ⟨hne, hold, hsettled, hlater⟩
 · exact .inl hs
 · exact .inr (.inr ⟨q, pending hq, hqo⟩)
 · rcases hc o hold with hs | hoc | ⟨q, hq, hqo⟩
   · exact .inl (hsettled hs)
   · exact .inr (.inl ((hoc.parent_of_ne hw hmem hne).of_above hw habove))
   · rcases hq with hq | hq
     · cases hq
     · exact .inr (.inr ⟨q, pending hq, hlater q hq hqo⟩)

theorem WalksBackward.covered {callback : AstHeap → ℕ → Result} {Allowed : AstHeap → ℕ → Prop}
 (hcall : ∀ {h h' : AstHeap} {p c : ℕ}, WellFormed h → Below h root p →
  c ∈ (h.get p).children → Covered Settled root h c [] → Allowed h c →
  callback h c = .ok h' → Leaves Settled root h h' p c)
 {h h' : AstHeap} {start : Option ℕ} {calls : List (AstHeap × ℕ)}
 (hrun : WalksBackward callback h start calls h')
 (hallowed : ∀ call ∈ calls, Allowed call.1 call.2) :
 ∀ {p : ℕ} {done rest : List ℕ}, WellFormed h → Below h root p →
  (h.get p).children = done ++ rest → start = rest.head? → Covered Settled root h p rest →
  WellFormed h' ∧ Covered Settled root h' p [] ∧
   (∀ a, Below h a p → a ≠ p → (h'.get a).children = (h.get a).children) ∧
   ∀ a, Below h a p → (h'.get a).fixed = (h.get a).fixed := by
 induction hrun with
 | done =>
  intro p done rest hw _ _ hstart hc
  obtain rfl : rest = [] := List.head?_eq_none_iff.mp hstart.symm
  exact ⟨hw, hc, fun _ _ _ => rfl, fun _ _ => rfl⟩
 | @visit h h₁ h₂ h₃ c under behind _ call _ ihDescend ihProceed =>
  intro p done rest hw hroot hp hstart hc
  rw [List.forall_mem_append, List.forall_mem_cons] at hallowed
  obtain ⟨allowedUnder, allowedHere, allowedBehind⟩ := hallowed
  obtain ⟨rest, rfl⟩ : ∃ tail, rest = c :: tail := List.head?_eq_some_iff.mp hstart.symm
  have hmem : c ∈ (h.get p).children := by
   rw [hp]
   exact List.mem_append_right _ List.mem_cons_self
  have hne : p ≠ c := by
   have := hw.older hmem
   omega
  -- what stands under `c`
  obtain ⟨hw₁, hc₁, above₁, fixed₁⟩ := ihDescend allowedUnder hw (hroot.step hmem)
   (List.nil_append _).symm rfl (hc.descend hp)
  have hp₁ : (h₁.get p).children = done ++ c :: rest :=
   (above₁ p (.of_child hmem) hne).trans hp
  have habove₁ : ∀ a, Below h a p → a ≠ p → (h₁.get a).children = (h.get a).children :=
   fun a ha _ => above₁ a (ha.step hmem) (by
    have := ha.le hw
    have := hw.older hmem
    omega)
  have hroot₁ := hroot.of_above hw habove₁
  have hmem₁ : c ∈ (h₁.get p).children := by
   rw [hp₁]
   exact List.mem_append_right _ List.mem_cons_self
  -- `c` itself
  have leaves := hcall hw₁ hroot₁ hmem₁ hc₁ allowedHere call
  have hroot₂ : Below h₂ root p := hroot₁.of_above hw₁ leaves.above
  have hp₂ : ∃ done₂, (h₂.get p).children = done₂ ++ rest := by
   rcases leaves.here with heq | heq
   · exact ⟨done ++ [c], by rw [heq, hp₁, List.append_assoc]; rfl⟩
   · have hnodup := hw₁.nodup p
     rw [hp₁] at hnodup
     refine ⟨done, ?_⟩
     rw [heq, hp₁, List.erase_append_right _ (fun hd =>
      (List.nodup_append.mp hnodup).2.2 c hd c List.mem_cons_self rfl), List.erase_cons_head]
  obtain ⟨done₂, hp₂⟩ := hp₂
  -- the peers behind `c`
  obtain ⟨hw₃, hc₃, above₃, fixed₃⟩ := ihProceed allowedBehind leaves.wellFormed hroot₂ hp₂
   (next_of_children hw₁ hp₁) (leaves.covered hp₁)
  refine ⟨hw₃, hc₃, fun a ha hap => ?_, fun a ha => ?_⟩
  · have ha₁ := ha.of_above hw habove₁
    rw [above₃ a (ha₁.of_above hw₁ leaves.above) hap, leaves.above a ha₁ hap, habove₁ a ha hap]
  · have ha₁ := ha.of_above hw habove₁
    rw [fixed₃ a (ha₁.of_above hw₁ leaves.above), leaves.fixed a ha₁, fixed₁ a (ha.step hmem)]

end Covered

theorem successor_eq_none {a : ℕ} {l : List ℕ} (ha : a ∉ l) : successor a l = none := by
 induction l with
 | nil => rfl
 | cons x l ih =>
  rw [List.mem_cons, not_or] at ha
  rw [successor, if_neg (Ne.symm ha.1)]
  exact ih ha.2

theorem next_zero {h : AstHeap} (hw : WellFormed h) : h.next 0 = none := by
 unfold AstHeap.next
 cases (h.get 0).parent with
 | none => rfl
 | some p => exact successor_eq_none fun hc => absurd (hw.older hc) (Nat.not_lt_zero p)

theorem not_later_zero {h : AstHeap} (hw : WellFormed h) (z : ℕ) : ¬ Later h 0 z := by
 rintro ⟨y, hy, ha⟩
 obtain ⟨p, hmem, -⟩ := ha.siblings hw
 have := hy.le hw
 have := hw.older hmem
 omega

theorem WalksBackward.root_covered {callback : AstHeap → ℕ → Result}
 {Settled : AstHeap → ℕ → Prop} {Allowed : AstHeap → ℕ → Prop}
 (hcall : ∀ {h h' : AstHeap} {p c : ℕ}, WellFormed h → Below h 0 p →
  c ∈ (h.get p).children → Covered Settled 0 h c [] → Allowed h c →
  callback h c = .ok h' → Leaves Settled 0 h h' p c)
 {h h' : AstHeap} {calls : List (AstHeap × ℕ)} (hw : WellFormed h)
 (hrun : WalksBackward callback h (some 0) calls h')
 (hallowed : ∀ call ∈ calls, Allowed call.1 call.2) :
 ∃ h₁, WellFormed h₁ ∧ (∀ o, Below h₁ 0 o → Settled h₁ o ∨ o = 0) ∧
  (h₁.get 0).fixed = (h.get 0).fixed ∧ callback h₁ 0 = .ok h' := by
 cases hrun with
 | @visit _ h₁ h₂ _ _ under behind descend call proceed =>
  rw [List.forall_mem_append, List.forall_mem_cons] at hallowed
  have start : Covered Settled 0 h 0 (h.get 0).children := by
   intro o ho
   rcases Relation.ReflTransGen.cases_head ho with rfl | ⟨x, hx, hxo⟩
   · exact .inr (.inl (.refl h 0))
   · exact .inr (.inr ⟨x, .inl hx, hxo⟩)
  obtain ⟨hw₁, hc₁, -, hfixed⟩ := descend.covered hcall hallowed.1 hw (.refl h 0)
   (List.nil_append _).symm rfl start
  rw [next_zero hw₁] at proceed
  cases proceed
  refine ⟨h₁, hw₁, fun o ho => ?_, hfixed 0 (.refl h 0), call⟩
  rcases hc₁ o ho with hs | hroot | ⟨z, hz, -⟩
  · exact .inl hs
  · exact .inr (Nat.le_zero.mp (hroot.le hw₁))
  · exact hz.elim (fun hz => by cases hz) fun hz => absurd hz (not_later_zero hw₁ z)

end DriversFramework.HcAst
