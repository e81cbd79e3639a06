import DriversFramework.RegulatorForest

namespace DriversFramework.Regulator
open RunRules

def OffBy (s : Regulators) (switched : Set ℕ) (j : ℕ) : Prop := s.status j = .off ∨ j ∈ switched

inductive GivesWay (hw : ℕ → Bool) (s : Regulators) : Set ℕ → ℕ → Prop where
 | stays {switched : Set ℕ} {p : ℕ} (as : OffBy s switched p ∨ (s.node p).alwaysOn = true) :
   GivesWay hw s switched p
 | top {switched : Set ℕ} {p : ℕ} (idle : ∀ c ∈ s.childrenOf p, OffBy s switched c)
   (obeys : hw p = true) (root : (s.node p).hasParentName = false) : GivesWay hw s switched p
 | up {switched : Set ℕ} {p q : ℕ} (idle : ∀ c ∈ s.childrenOf p, OffBy s switched c)
   (obeys : hw p = true) (parent : s.parentOf p = some q)
   (gives : GivesWay hw s (insert p switched) q) : GivesWay hw s switched p

/-- The parent of a regulator gives way, if the regulator names one. -/
def ParentGivesWay (hw : ℕ → Bool) (s : Regulators) (switched : Set ℕ) (i : ℕ) : Prop :=
 (s.node i).hasParentName = true → ∃ p, s.parentOf i = some p ∧ GivesWay hw s switched p

inductive Entered (s : Regulators) : ℕ → Prop where
 | mk {i : ℕ} {children : List ℕ}
   (found : regulatorTreeGetChild s.treeMgrHead (s.node i).name = some children)
   (below : ∀ c ∈ children, Entered s c) : Entered s i

/-- The regulators below another one. -/
def Below (s : Regulators) : ℕ → ℕ → Prop := Relation.TransGen fun i c => c ∈ s.childrenOf i

inductive SwitchOff where
 | disable
 | forceDisable
 deriving DecidableEq

def SwitchOff.call (i : ℕ) : SwitchOff → RegulatorCall
 | .disable => .disable i
 | .forceDisable => .forceDisable i

/-- When the call switches the regulator off. -/
def SwitchOff.Works (hw : ℕ → Bool) (s : Regulators) (i : ℕ) : SwitchOff → Prop
 | .disable => s.status i = .on ∧ (s.node i).alwaysOn = false ∧
   (∀ c ∈ s.childrenOf i, s.status c = .off) ∧ hw i = true
 | .forceDisable => s.status i = .on ∧ Entered s i ∧ hw i = true

/-- The regulators that are off once the regulator is. -/
def SwitchOff.switched (s : Regulators) (i : ℕ) : SwitchOff → Set ℕ
 | .disable => {i}
 | .forceDisable => insert i {j | Below s i j}

/-- A failure is reported only where the regulator was not switched off. -/
def FailureHonest (s t : Regulators) (i : ℕ) (r : HdfStatus) : Prop :=
 r ≠ .success → ¬ (s.status i = .on ∧ t.status i = .off)

section Statuses
variable {s t u : Regulators} {i j : ℕ}

structure Dimmed (s t : Regulators) (switched : Set ℕ) : Prop where
 frozen : t.frozen = s.frozen
 off : ∀ j, t.status j = .off ↔ OffBy s switched j

theorem status_on_iff {s : Regulators} {j : ℕ} : s.status j = .on ↔ ¬ s.status j = .off := by
 cases s.status j <;> simp

theorem setStatus_off_iff : (s.setStatus i .off).status j = .off ↔ s.status j = .off ∨ j = i := by
 by_cases same : j = i
 · subst same
   simp [status_setStatus_off]
 · rw [status_setStatus, if_neg (fun both => same both.1.symm)]
   simp [same]

theorem Dimmed.refl (s : Regulators) : Dimmed s s ∅ :=
 ⟨rfl, fun j => by simp [OffBy]⟩

theorem Dimmed.setStatus {switched : Set ℕ} (dimmed : Dimmed s t switched) (i : ℕ) :
  Dimmed s (t.setStatus i .off) (insert i switched) where
 frozen := frozen_setStatus.trans dimmed.frozen
 off j := by
  rw [setStatus_off_iff, dimmed.off]
  unfold OffBy
  rw [Set.mem_insert_iff, or_assoc, or_comm (a := j ∈ switched)]

theorem allChildDisable_iff (s : Regulators) (i : ℕ) :
  regulatorTreeIsAllChildDisable s (s.node i).name = true ↔
   ∀ c ∈ s.childrenOf i, s.status c = .off := by
 refine ⟨allChildDisable_off, ?_⟩
 intro off
 unfold regulatorTreeIsAllChildDisable
 unfold Regulators.childrenOf at off
 cases children : regulatorTreeGetChild s.treeMgrHead (s.node i).name with
 | none => rfl
 | some list =>
  rw [children] at off
  simpa using off

end Statuses

section Up
variable {hw : ℕ → Bool} {s : Regulators}

theorem disableParent_success_iff {disable : Regulators → ℕ → Outcome} (gives : ℕ → Prop)
  {t u : Regulators} {i : ℕ} {r : HdfStatus}
  (hdisable : ∀ {p r u}, disable t p = some (r, u) → (r = .success ↔ gives p))
  (h : disableParent disable t i = some (r, u)) :
  r = .success ↔ ((t.node i).hasParentName = true → ∃ p, t.parentOf i = some p ∧ gives p) := by
 unfold disableParent at h
 unfold RegulatorNode.hasParentName
 cases name : (t.node i).parentName with
 | none =>
  rw [name] at h
  cases h
 | some parentName =>
  rw [name] at h
  dsimp only at h ⊢
  by_cases top : parentName = ""
  · rw [if_neg (not_not_intro top)] at h
    cases h
    simp [top]
  rw [if_pos top] at h
  have named : (parentName != "") = true := by simpa using top
  have goal : ((parentName != "") = true → ∃ p, t.parentOf i = some p ∧ gives p) ↔
    ∃ p, t.parentOf i = some p ∧ gives p := ⟨fun all => all named, fun all _ => all⟩
  rw [goal]
  unfold Regulators.parentOf
  cases parent : regulatorTreeGetParent t.treeMgrHead (t.node i).name with
  | none =>
   rw [parent] at h
   cases h
   simp
  | some p =>
   rw [parent] at h
   dsimp only at h
   cases run : disable t p with
   | none =>
    rw [run] at h
    cases h
   | some result =>
    obtain ⟨code, v⟩ := result
    have decided := hdisable run
    rw [run] at h
    cases code <;> cases h <;> simpa using decided

theorem disable_success_iff (fuel : ℕ) {switched : Set ℕ} {t u : Regulators} {p : ℕ} {r : HdfStatus}
  (dimmed : Dimmed s t switched) (h : regulatorNodeDisable hw fuel t p = some (r, u)) :
  r = .success ↔ GivesWay hw s switched p := by
 induction fuel generalizing t u p r switched with
 | zero => cases h
 | succ fuel ih =>
  rw [regulatorNodeDisable] at h
  have stays_iff : t.status p = .off ∨ (t.node p).alwaysOn = true ↔
    OffBy s switched p ∨ (s.node p).alwaysOn = true := by
   rw [frozen_alwaysOn dimmed.frozen, dimmed.off]
  by_cases stays : t.status p = .off ∨ (t.node p).alwaysOn = true
  · rw [if_pos stays] at h
    cases h
    exact iff_of_true rfl (.stays (stays_iff.mp stays))
  rw [if_neg stays] at h
  have idle_iff : regulatorTreeIsAllChildDisable t (t.node p).name = true ↔
    ∀ c ∈ s.childrenOf p, OffBy s switched c := by
   rw [allChildDisable_iff, frozen_childrenOf dimmed.frozen]
   exact forall₂_congr fun c _ => dimmed.off c
  by_cases idle : regulatorTreeIsAllChildDisable t (t.node p).name = true
  case neg =>
   rw [if_pos (by simpa using idle)] at h
   cases h
   apply iff_of_false (by simp)
   rintro (as | ⟨below, -, -⟩ | ⟨below, -, -, -⟩)
   · exact stays (stays_iff.mpr as)
   · exact idle (idle_iff.mpr below)
   · exact idle (idle_iff.mpr below)
  rw [if_neg (by simpa using idle)] at h
  by_cases obeys : hw p = true
  case neg =>
   rw [if_pos (by simpa using obeys)] at h
   cases h
   apply iff_of_false (by simp)
   rintro (as | ⟨-, works, -⟩ | ⟨-, works, -, -⟩)
   · exact stays (stays_iff.mpr as)
   · exact obeys works
   · exact obeys works
  rw [if_neg (by simpa using obeys)] at h
  have after := dimmed.setStatus p
  rw [disableParent_success_iff (GivesWay hw s (insert p switched)) (fun run => ih after run) h,
   frozen_hasParentName after.frozen, frozen_parentOf after.frozen]
  constructor
  · intro parents
    cases named : (s.node p).hasParentName with
    | false => exact .top (idle_iff.mp idle) obeys named
    | true =>
     obtain ⟨q, parent, gives⟩ := parents named
     exact .up (idle_iff.mp idle) obeys parent gives
  · rintro (as | ⟨-, -, root⟩ | ⟨-, -, parent, gives⟩) named
    · exact absurd (stays_iff.mpr as) stays
    · rw [named] at root
      cases root
    · exact ⟨_, parent, gives⟩

end Up

section Down
variable {s : Regulators}

theorem below_iff {i j : ℕ} : Below s i j ↔ ∃ c ∈ s.childrenOf i, j = c ∨ Below s c j := by
 unfold Below
 rw [Relation.TransGen.head'_iff]
 simp only [Relation.reflTransGen_iff_eq_or_transGen]

theorem Entered.not_below {i : ℕ} (entered : Entered s i) : ¬ Below s i i := by
 have listed : ∀ {i : ℕ} {children : List ℕ},
   regulatorTreeGetChild s.treeMgrHead (s.node i).name = some children →
    s.childrenOf i = children := by
  intro i children found
  unfold Regulators.childrenOf
  rw [found]
  rfl
 -- An entered regulator cannot be reached again: the walk down from it ends.
 have ends : ∀ j, Below s i j → Entered s j := by
  intro j below
  induction below with
  | single step =>
   obtain ⟨found, children⟩ := entered
   rw [listed found] at step
   exact children _ step
  | tail _ step ih =>
   obtain ⟨found, children⟩ := ih
   rw [listed found] at step
   exact children _ step
 induction entered with
 | mk found children ih =>
  intro circle
  obtain ⟨c, step, rest⟩ := below_iff.mp circle
  have inside := step
  rw [listed found] at inside
  have back : Below s c c := by
   rcases rest with rfl | rest
   · exact circle
   · exact rest.tail step
  apply ih c inside _ back
  intro j below
  exact ends j (Relation.TransGen.head step below)

structure Forced (s t u : Regulators) (i : ℕ) (r : HdfStatus) : Prop where
 frozen : u.frozen = s.frozen
 success : r = .success ↔ Entered s i
 changed : ∀ j, t.status j = .on → u.status j = .off → Entered s j
 off : r = .success → ∀ j, u.status j = .off ↔ t.status j = .off ∨ Below s i j

theorem quench_off_iff {t : Regulators} {c j : ℕ} :
  (if t.status c = .on then t.setStatus c .off else t).status j = .off ↔
   t.status j = .off ∨ j = c := by
 split_ifs with on
 · exact setStatus_off_iff
 · constructor
   · exact Or.inl
   · rintro (off | rfl)
     · exact off
     · rwa [status_on_iff, not_not] at on

theorem childrenLoop_forced {visit : Regulators → ℕ → Outcome}
  (hvisit : ∀ {t u : Regulators} {c : ℕ} {r : HdfStatus}, t.frozen = s.frozen →
   visit t c = some (r, u) → Forced s t u c r)
  (children : List ℕ) {t u : Regulators} {r : HdfStatus} (frozen : t.frozen = s.frozen)
  (h : childrenLoop visit children t = some (r, u)) :
  u.frozen = s.frozen ∧ (r = .success ↔ ∀ c ∈ children, Entered s c) ∧
   (∀ j, t.status j = .on → u.status j = .off → Entered s j) ∧
   (r = .success → ∀ j,
    u.status j = .off ↔ t.status j = .off ∨ ∃ c ∈ children, j = c ∨ Below s c j) := by
 induction children generalizing t with
 | nil =>
  cases h
  refine ⟨frozen, by simp, ?_, by simp⟩
  intro j on off
  rw [on] at off
  cases off
 | cons child rest ih =>
  rw [childrenLoop] at h
  cases visited : visit t child with
  | none =>
   rw [visited] at h
   cases h
  | some result =>
   obtain ⟨code, v⟩ := result
   have first := hvisit frozen visited
   rw [visited] at h
   by_cases good : code = .success
   · subst good
     dsimp only at h
     have quenched : (if v.status child = .on then v.setStatus child .off else v).frozen =
       s.frozen := by
      split_ifs
      · exact frozen_setStatus.trans first.frozen
      · exact first.frozen
     obtain ⟨after, success, changed, off⟩ := ih quenched h
     have entered : Entered s child := first.success.mp rfl
     refine ⟨after, ?_, ?_, ?_⟩
     · rw [success, List.forall_mem_cons, and_iff_right entered]
     · intro j on now
       by_cases early : (if v.status child = .on then v.setStatus child .off else v).status j =
         .off
       · rcases quench_off_iff.mp early with before | rfl
         · exact first.changed j on before
         · exact entered
       · exact changed j (status_on_iff.mpr early) now
     · intro done j
       rw [off done, quench_off_iff, first.off rfl]
       simp only [List.mem_cons, exists_eq_or_imp]
       rw [or_assoc (a := t.status j = .off), or_comm (a := Below s child j), or_assoc]
   · have failed : ¬ Entered s child := fun entered => good (first.success.mpr entered)
     obtain ⟨rfl, rfl⟩ : .failure = r ∧ v = u := by
      cases code
      case success => exact absurd rfl good
      all_goals
       cases h
       exact ⟨rfl, rfl⟩
     refine ⟨first.frozen, iff_of_false (by simp) ?_, first.changed, fun wrong => (by cases wrong)⟩
     intro all
     exact failed (all child List.mem_cons_self)

theorem childForceDisable_forced (fuel : ℕ) {t u : Regulators} {i : ℕ} {r : HdfStatus}
  (frozen : t.frozen = s.frozen)
  (h : regulatorTreeChildForceDisable fuel t i = some (r, u)) : Forced s t u i r := by
 induction fuel generalizing t u i r with
 | zero => cases h
 | succ fuel ih =>
  rw [regulatorTreeChildForceDisable, frozen_name frozen, frozen_tree frozen] at h
  cases found : regulatorTreeGetChild s.treeMgrHead (s.node i).name with
  | none =>
   rw [found] at h
   cases h
   refine ⟨frozen, iff_of_false (by simp) ?_, ?_, fun wrong => (by cases wrong)⟩
   · rintro ⟨other, -⟩
     rw [found] at other
     cases other
   · intro j on off
     rw [on] at off
     cases off
  | some children =>
   rw [found] at h
   obtain ⟨after, success, changed, off⟩ := childrenLoop_forced ih children frozen h
   have listed : s.childrenOf i = children := by
    unfold Regulators.childrenOf
    rw [found]
    rfl
   refine ⟨after, ?_, changed, ?_⟩
   · rw [success]
     constructor
     · exact .mk found
     · rintro ⟨other, below⟩
       rw [found] at other
       cases other
       exact below
   · intro done j
     rw [off done, below_iff, listed]

end Down

section Calls
variable {hw : ℕ → Bool} {s t : Regulators} {i : ℕ} {r : HdfStatus}

theorem disableParent_onlyOff {disable : Regulators → ℕ → Outcome}
  (hdisable : ∀ {s t : Regulators} {i : ℕ} {r : HdfStatus},
   disable s i = some (r, t) → OnlyOff s t)
  (h : disableParent disable s i = some (r, t)) : OnlyOff s t := by
 rw [disableParent] at h
 split at h
 · cases h
 split_ifs at h
 · split at h
   · cases h
     exact fun _ off => off
   split at h <;> cases h <;> apply hdisable <;> assumption
 · cases h
   exact fun _ off => off

theorem disable_onlyOff (fuel : ℕ) (h : regulatorNodeDisable hw fuel s i = some (r, t)) :
  OnlyOff s t := by
 induction fuel generalizing s t i r with
 | zero => cases h
 | succ fuel ih =>
  rw [regulatorNodeDisable] at h
  split_ifs at h
  · cases h
    exact fun _ off => off
  · cases h
    exact fun _ off => off
  · cases h
    exact fun _ off => off
  · exact fun j off => disableParent_onlyOff ih h j (OnlyOff.setStatus j off)

theorem honest_of_switched (fuel : ℕ) {u : Regulators} {switched : Set ℕ}
  (dimmed : Dimmed s u switched) (on : s.status i = .on)
  (h : disableParent (regulatorNodeDisable hw fuel) (u.setStatus i .off) i = some (r, t)) :
  FailureHonest s t i r ↔ ParentGivesWay hw s (insert i switched) i := by
 have off : t.status i = .off :=
  disableParent_onlyOff (disable_onlyOff fuel) h i (setStatus_off_iff.mpr (Or.inr rfl))
 have after := dimmed.setStatus i
 have success := disableParent_success_iff (GivesWay hw s (insert i switched))
  (fun run => disable_success_iff fuel after run) h
 rw [frozen_hasParentName after.frozen, frozen_parentOf after.frozen] at success
 unfold FailureHonest ParentGivesWay
 rw [← success]
 constructor
 · intro honest
   by_contra failed
   exact honest failed ⟨on, off⟩
 · intro done failed
   exact absurd done failed

theorem honest_of_kept (kept : s.status i = .on → t.status i = .on) : FailureHonest s t i r := by
 rintro - ⟨on, off⟩
 rw [kept on] at off
 cases off

theorem honest_iff_of_kept {call : SwitchOff} (kept : s.status i = .on → t.status i = .on)
  (idle : ¬ call.Works hw s i) :
  FailureHonest s t i r ↔
   (call.Works hw s i → ParentGivesWay hw s (call.switched s i) i) :=
 iff_of_true (honest_of_kept kept) fun works => absurd works idle

theorem disable_honest_iff (fuel : ℕ)
  (h : regulatorNodeDisable hw fuel s i = some (r, t)) :
  FailureHonest s t i r ↔
   (SwitchOff.disable.Works hw s i →
    ParentGivesWay hw s (SwitchOff.disable.switched s i) i) := by
 cases fuel with
 | zero => cases h
 | succ fuel =>
  rw [regulatorNodeDisable] at h
  by_cases stays : s.status i = .off ∨ (s.node i).alwaysOn = true
  · rw [if_pos stays] at h
    cases h
    refine honest_iff_of_kept (fun on => on) ?_
    rintro ⟨on, free, -, -⟩
    rcases stays with off | always
    · rw [on] at off
      cases off
    · rw [free] at always
      cases always
  rw [if_neg stays] at h
  obtain ⟨on, free⟩ := not_or.mp stays
  by_cases idle : regulatorTreeIsAllChildDisable s (s.node i).name = true
  case neg =>
   rw [if_pos (by simpa using idle)] at h
   cases h
   refine honest_iff_of_kept (fun on => on) ?_
   rintro ⟨-, -, children, -⟩
   exact idle ((allChildDisable_iff s i).mpr children)
  rw [if_neg (by simpa using idle)] at h
  by_cases obeys : hw i = true
  case neg =>
   rw [if_pos (by simpa using obeys)] at h
   cases h
   exact honest_iff_of_kept (fun on => on) fun works => obeys works.2.2.2
  rw [if_neg (by simpa using obeys)] at h
  have works : SwitchOff.disable.Works hw s i :=
   ⟨status_on_iff.mpr on, by simpa using free, (allChildDisable_iff s i).mp idle, obeys⟩
  rw [honest_of_switched fuel (Dimmed.refl s) works.1 h, imp_iff_right works,
   show insert i ∅ = SwitchOff.disable.switched s i from insert_empty_eq i]

theorem forceDisable_honest_iff (fuel : ℕ)
  (h : regulatorNodeForceDisable hw fuel s i = some (r, t)) :
  FailureHonest s t i r ↔
   (SwitchOff.forceDisable.Works hw s i →
    ParentGivesWay hw s (SwitchOff.forceDisable.switched s i) i) := by
 rw [regulatorNodeForceDisable] at h
 by_cases off : s.status i = .off
 · rw [if_pos off] at h
   cases h
   exact honest_iff_of_kept (fun on => on) fun works => status_on_iff.mp works.1 off
 rw [if_neg off] at h
 cases down : regulatorTreeChildForceDisable fuel s i with
 | none =>
  rw [down] at h
  cases h
 | some result =>
  obtain ⟨code, u⟩ := result
  have forced := childForceDisable_forced fuel rfl down
  rw [down] at h
  by_cases good : code = .success
  case neg =>
   obtain rfl : u = t := by
    cases code
    case success => exact absurd rfl good
    all_goals
     cases h
     rfl
   have missing : ¬ Entered s i := fun entered => good (forced.success.mpr entered)
   refine honest_iff_of_kept ?_ fun works => missing works.2.1
   intro on
   rw [status_on_iff]
   intro now
   exact missing (forced.changed i on now)
  subst good
  have entered := forced.success.mp rfl
  dsimp only at h
  by_cases obeys : hw i = true
  case neg =>
   rw [if_pos (by simpa using obeys)] at h
   cases h
   refine honest_iff_of_kept ?_ fun works => obeys works.2.2
   intro on
   rw [status_on_iff, forced.off rfl]
   rintro (before | circle)
   · exact off before
   · exact entered.not_below circle
  rw [if_neg (by simpa using obeys)] at h
  have works : SwitchOff.forceDisable.Works hw s i := ⟨status_on_iff.mpr off, entered, obeys⟩
  have dimmed : Dimmed s u {j | Below s i j} := ⟨forced.frozen, forced.off rfl⟩
  rw [honest_of_switched fuel dimmed works.1 h, imp_iff_right works]
  rfl

/-- In every state, a call that returns reports no failure of a regulator that it has switched off
exactly if it does not switch it off or the parent of the regulator gives way. -/
theorem failure_honest_iff (hw : ℕ → Bool) (call : SwitchOff)
    (h : s.call hw (call.call i) = some (r, t)) :
    FailureHonest s t i r ↔
      (call.Works hw s i → ParentGivesWay hw s (call.switched s i) i) := by
  cases call with
  | disable =>
    change (if i < s.regulatorHead.length then _ else _) = _ at h
    by_cases inside : i < s.regulatorHead.length
    · rw [if_pos inside] at h
      exact disable_honest_iff _ h
    · rw [if_neg inside] at h
      cases h
      refine honest_iff_of_kept (fun on => on) fun works => ?_
      exact inside (powered_inside works.1)
  | forceDisable =>
    change (if i < s.regulatorHead.length then _ else _) = _ at h
    by_cases inside : i < s.regulatorHead.length
    · rw [if_pos inside] at h
      exact forceDisable_honest_iff _ h
    · rw [if_neg inside] at h
      cases h
      refine honest_iff_of_kept (fun on => on) fun works => ?_
      exact inside (powered_inside works.1)

end Calls

/-- A regulator without a parent that is disabled. -/
theorem failure_honest_alone :
    FailureHonest ⟨[⟨"buck", some "", false, .on⟩], []⟩ ⟨[⟨"buck", some "", false, .off⟩], []⟩ 0
      .success :=
  (failure_honest_iff (fun _ => true) .disable rfl).mpr fun _ named => by cases named

/-- Two regulators with the same parent are enabled. -/
def siblingCalls : List (RegulatorCall × (ℕ → Bool)) :=
 [(.add "buck" (some "") false, fun _ => true), (.add "ldo1" (some "buck") false, fun _ => true),
  (.add "ldo2" (some "buck") false, fun _ => true), (.enable 1, fun _ => true),
  (.enable 2, fun _ => true)]

/-- The first one is switched off, and its call fails since the second one keeps the parent on. -/
theorem sibling_failure : ∃ s t, exec Regulators.step .start siblingCalls = some s ∧
    s.call (fun _ => true) (.disable 1) = some (.failure, t) ∧ ¬ FailureHonest s t 1 .failure := by
  refine ⟨_, _, rfl, rfl, ?_⟩
  intro honest
  exact honest (by simp) ⟨by decide, by decide⟩

end DriversFramework.Regulator
