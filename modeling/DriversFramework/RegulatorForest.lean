import Mathlib.Data.List.GetD
import Mathlib.Data.Set.Insert
import DriversFramework.Regulator
import DriversFramework.RunRules

namespace SupplyTree

universe u
variable {ι : Type u} {parent : ι → Option ι} {on : Set ι} {i : ι}

def Supplied (parent : ι → Option ι) (on : Set ι) : Prop :=
 ∀ i p, parent i = some p → i ∈ on → p ∈ on

theorem Supplied.switchOn (h : Supplied parent on) (hparent : ∀ p, parent i = some p → p ∈ on) :
 Supplied parent (insert i on) := by
 rintro j p hp (rfl | hj)
 · exact Or.inr (hparent p hp)
 · exact Or.inr (h j p hp hj)

theorem Supplied.switchOff (h : Supplied parent on) (hchild : ∀ c, parent c = some i → c ∉ on) :
 Supplied parent (on \ {i}) := by
 rintro j p hp ⟨hj, -⟩
 refine ⟨h j p hp hj, ?_⟩
 rintro rfl
 exact hchild j hp hj

end SupplyTree

namespace DriversFramework.Regulator
open RunRules SupplyTree

section Status
variable {s : Regulators} {i j : ℕ} {status : RegulatorStatus}

theorem node_setStatus : (s.setStatus i status).node j =
  if i = j ∧ j < s.regulatorHead.length then { s.node j with status } else s.node j := by
 rw [Regulators.node, Regulators.node, Regulators.setStatus, List.getD_eq_getElem?_getD,
  List.getD_eq_getElem?_getD, List.getElem?_modify]
 rcases Nat.lt_or_ge j s.regulatorHead.length with inside | outside
 · rw [List.getElem?_eq_getElem inside]
   by_cases same : i = j <;> simp [same, inside]
 · rw [List.getElem?_eq_none outside, if_neg (by omega)]
   rfl

theorem status_setStatus : (s.setStatus i status).status j =
  if i = j ∧ j < s.regulatorHead.length then status else s.status j := by
 rw [Regulators.status, node_setStatus]
 split_ifs <;> rfl

theorem status_outside (outside : s.regulatorHead.length ≤ i) : s.status i = .off := by
 rw [Regulators.status, Regulators.node, List.getD_eq_getElem?_getD,
  List.getElem?_eq_none outside]
 rfl

def Regulators.frozen (s : Regulators) : Regulators :=
 { s with regulatorHead := s.regulatorHead.map fun node => { node with status := .off } }

theorem node_frozen : s.frozen.node i = { s.node i with status := .off } := by
 rw [Regulators.node, Regulators.node, Regulators.frozen, List.getD_eq_getElem?_getD,
  List.getD_eq_getElem?_getD, List.getElem?_map]
 cases s.regulatorHead[i]? <;> rfl

theorem frozen_setStatus : (s.setStatus i status).frozen = s.frozen := by
 rw [Regulators.frozen, Regulators.setStatus, Regulators.frozen]
 congr 1
 apply List.ext_getElem?
 intro j
 rw [List.getElem?_map, List.getElem?_map, List.getElem?_modify]
 split_ifs <;> cases s.regulatorHead[j]? <;> rfl

end Status

section Frozen
variable {s t : Regulators} (h : t.frozen = s.frozen)
include h

theorem frozen_node (i : ℕ) :
 (t.node i).name = (s.node i).name ∧ (t.node i).parentName = (s.node i).parentName ∧
  (t.node i).alwaysOn = (s.node i).alwaysOn := by
 have same : t.frozen.node i = s.frozen.node i := by rw [h]
 rw [node_frozen, node_frozen] at same
 simpa using same

theorem frozen_name (i : ℕ) : (t.node i).name = (s.node i).name := (frozen_node h i).1

theorem frozen_parentName (i : ℕ) : (t.node i).parentName = (s.node i).parentName :=
 (frozen_node h i).2.1

theorem frozen_alwaysOn (i : ℕ) : (t.node i).alwaysOn = (s.node i).alwaysOn :=
 (frozen_node h i).2.2

theorem frozen_hasParentName (i : ℕ) : (t.node i).hasParentName = (s.node i).hasParentName := by
 rw [RegulatorNode.hasParentName, RegulatorNode.hasParentName, frozen_parentName h]

theorem frozen_tree : t.treeMgrHead = s.treeMgrHead := by
 have same : t.frozen.treeMgrHead = s.frozen.treeMgrHead := by rw [h]
 exact same

theorem frozen_length : t.regulatorHead.length = s.regulatorHead.length := by
 have same := congrArg (fun u => u.regulatorHead.length) h
 simpa [Regulators.frozen] using same

theorem frozen_parentOf (i : ℕ) : t.parentOf i = s.parentOf i := by
 rw [Regulators.parentOf, Regulators.parentOf, frozen_tree h, frozen_name h]

theorem frozen_childrenOf (i : ℕ) : t.childrenOf i = s.childrenOf i := by
 rw [Regulators.childrenOf, Regulators.childrenOf, frozen_tree h, frozen_name h]

end Frozen

/-- The tree agrees with the list of regulators. -/
structure Linked (s : Regulators) : Prop where
 named : ∀ i p, i < s.regulatorHead.length → s.parentOf i = some p → (s.node i).hasParentName
 inside : ∀ i p, i < s.regulatorHead.length → s.parentOf i = some p → p < s.regulatorHead.length
 listed : ∀ i p, i < s.regulatorHead.length → s.parentOf i = some p → i ∈ s.childrenOf p
 known : ∀ name, treeFind s.treeMgrHead name ≠ none →
  ∃ i, i < s.regulatorHead.length ∧ (s.node i).name = name

variable {s : Regulators}

theorem Linked.frozen {t : Regulators} (linked : Linked s) (h : t.frozen = s.frozen) :
 Linked t where
 named i p := by
  rw [frozen_length h, frozen_parentOf h, frozen_hasParentName h]
  exact linked.named i p
 inside i p := by
  rw [frozen_length h, frozen_parentOf h]
  exact linked.inside i p
 listed i p := by
  rw [frozen_length h, frozen_parentOf h, frozen_childrenOf h]
  exact linked.listed i p
 known name := by
  rw [frozen_tree h, frozen_length h]
  simpa only [frozen_name h] using linked.known name

inductive Switch : Regulators → Regulators → Prop
 | on (s : Regulators) (i : ℕ) (hi : i < s.regulatorHead.length)
   (hparent : ∀ p, s.parentOf i = some p → s.status p = .on) : Switch s (s.setStatus i .on)
 | off (s : Regulators) (i : ℕ) (hchildren : ∀ c ∈ s.childrenOf i, s.status c = .off) :
   Switch s (s.setStatus i .off)

abbrev Steps : Regulators → Regulators → Prop := Relation.ReflTransGen Switch

theorem Switch.frozen {t : Regulators} (h : Switch s t) : t.frozen = s.frozen := by
 cases h <;> exact frozen_setStatus

theorem Steps.frozen {t : Regulators} (h : Steps s t) : t.frozen = s.frozen := by
 induction h with
 | refl => rfl
 | tail _ step ih => exact step.frozen.trans ih

def Regulators.powered (s : Regulators) : Set ℕ := { i | s.status i = .on }

theorem powered_inside {i : ℕ} (h : i ∈ s.powered) : i < s.regulatorHead.length := by
 by_contra outside
 have hon : s.status i = .on := h
 rw [status_outside (Nat.le_of_not_lt outside)] at hon
 cases hon

theorem powered_on {i : ℕ} (hi : i < s.regulatorHead.length) :
 (s.setStatus i .on).powered = insert i s.powered := by
 ext j
 change (s.setStatus i .on).status j = .on ↔ j = i ∨ s.status j = .on
 rw [status_setStatus]
 by_cases same : i = j
 · subst same
   simp [hi]
 · simp [same, Ne.symm same]

theorem powered_off {i : ℕ} : (s.setStatus i .off).powered = s.powered \ {i} := by
 ext j
 change (s.setStatus i .off).status j = .on ↔ s.status j = .on ∧ ¬j = i
 rw [status_setStatus]
 by_cases same : i = j
 · subst same
   rcases Nat.lt_or_ge i s.regulatorHead.length with inside | outside
   · simp [inside]
   · simp [status_outside outside]
 · simp [same, Ne.symm same]

/-- The links are right and what is on is supplied. -/
structure Sound (s : Regulators) : Prop extends Linked s where
 supplied : Supplied s.parentOf s.powered

theorem Sound.switch {t : Regulators} (sound : Sound s) (h : Switch s t) : Sound t := by
 have linked := sound.toLinked.frozen h.frozen
 have same : t.parentOf = s.parentOf := funext (frozen_parentOf h.frozen)
 apply Sound.mk linked
 rw [same]
 cases h with
 | on i hi hparent =>
  rw [powered_on hi]
  exact sound.supplied.switchOn hparent
 | off i hchildren =>
  rw [powered_off]
  apply sound.supplied.switchOff
  intro c hparent hon
  have listed := sound.listed c i (powered_inside hon) hparent
  have hoff := hchildren c listed
  rw [show s.status c = .on from hon] at hoff
  cases hoff

theorem Sound.steps {t : Regulators} (sound : Sound s) (h : Steps s t) : Sound t := by
 induction h with
 | refl => exact sound
 | tail _ step ih => exact ih.switch step

section Calls
variable {hw : ℕ → Bool} {s t : Regulators} {i : ℕ} {r : HdfStatus}

theorem Steps.single (h : Switch s t) : Steps s t := Relation.ReflTransGen.single h

theorem open_steps (hi : i < s.regulatorHead.length)
 (hparent : ∀ p, s.parentOf i = some p → s.status p = .on)
 (h : (if hw i then some (HdfStatus.success, s.setStatus i .on) else some (.failure, s)) =
  some (r, t)) : Steps s t ∧ (r = .success → t.status i = .on) := by
 split_ifs at h with opened
 · cases h
   refine ⟨Steps.single (Switch.on s i hi hparent), fun _ => ?_⟩
   rw [status_setStatus, if_pos ⟨rfl, hi⟩]
 · cases h
   exact ⟨Relation.ReflTransGen.refl, nofun⟩

theorem enable_steps (fuel : ℕ) (linked : Linked s) (hi : i < s.regulatorHead.length)
 (h : regulatorNodeEnable hw fuel s i = some (r, t)) :
 Steps s t ∧ (r = .success → t.status i = .on) := by
 induction fuel generalizing s t i r with
 | zero => cases h
 | succ fuel ih =>
  rw [regulatorNodeEnable] at h
  by_cases already : s.status i = .on
  · rw [if_pos already] at h
    cases h
    exact ⟨Relation.ReflTransGen.refl, fun _ => already⟩
  rw [if_neg already] at h
  by_cases named : (s.node i).hasParentName
  · rw [if_pos named] at h
    cases hparent : regulatorTreeGetParent s.treeMgrHead (s.node i).name with
    | none =>
     rw [hparent] at h
     cases h
     exact ⟨Relation.ReflTransGen.refl, nofun⟩
    | some parent =>
     rw [hparent] at h
     dsimp only at h
     cases up : regulatorNodeEnable hw fuel s parent with
     | none =>
      rw [up] at h
      cases h
     | some result =>
      obtain ⟨code, u⟩ := result
      obtain ⟨steps, opened⟩ := ih linked (linked.inside i parent hi hparent) up
      have frozen := steps.frozen
      rw [up] at h
      cases code
      case success =>
       have parents : ∀ p, u.parentOf i = some p → u.status p = .on := by
        intro p hp
        rw [frozen_parentOf frozen] at hp
        rw [← Option.some.inj (hparent.symm.trans hp)]
        exact opened rfl
       obtain ⟨last, on⟩ := open_steps (frozen_length frozen ▸ hi) parents h
       exact ⟨steps.trans last, on⟩
      all_goals
       cases h
       exact ⟨steps, nofun⟩
  · rw [if_neg named] at h
    apply open_steps hi _ h
    intro p hp
    exact absurd (linked.named i p hi hp) named

theorem allChildDisable_off (h : regulatorTreeIsAllChildDisable s (s.node i).name = true) :
 ∀ c ∈ s.childrenOf i, s.status c = .off := by
 rw [regulatorTreeIsAllChildDisable] at h
 rw [Regulators.childrenOf]
 cases children : regulatorTreeGetChild s.treeMgrHead (s.node i).name with
 | none => simp
 | some children =>
  rw [children] at h
  simpa using h

theorem disableParent_steps {disable : Regulators → ℕ → Outcome}
 (hdisable : ∀ {s t : Regulators} {i : ℕ} {r : HdfStatus},
  disable s i = some (r, t) → Steps s t)
 (h : disableParent disable s i = some (r, t)) : Steps s t := by
 rw [disableParent] at h
 split at h
 · cases h
 split_ifs at h
 · split at h
   · cases h
     exact Relation.ReflTransGen.refl
   split at h <;> cases h <;> apply hdisable <;> assumption
 · cases h
   exact Relation.ReflTransGen.refl

theorem disable_steps (fuel : ℕ) (h : regulatorNodeDisable hw fuel s i = some (r, t)) :
 Steps s t := by
 induction fuel generalizing s t i r with
 | zero => cases h
 | succ fuel ih =>
  rw [regulatorNodeDisable] at h
  split_ifs at h with skipped children refused
  · cases h
    exact Relation.ReflTransGen.refl
  · cases h
    exact Relation.ReflTransGen.refl
  · cases h
    exact Relation.ReflTransGen.refl
  · have off := allChildDisable_off (by simpa using children)
    exact (Steps.single (Switch.off s i off)).trans (disableParent_steps ih h)

def OnlyOff (s t : Regulators) : Prop := ∀ j, s.status j = .off → t.status j = .off

theorem OnlyOff.setStatus : OnlyOff s (s.setStatus i .off) := by
 intro j hj
 rw [status_setStatus, hj, ite_self]

theorem status_setStatus_off : (s.setStatus i .off).status i = .off := by
 rw [status_setStatus]
 split_ifs with inside
 · rfl
 · exact status_outside (by omega)

theorem childrenLoop_steps {visit : Regulators → ℕ → Outcome}
 (hvisit : ∀ {s t : Regulators} {i : ℕ} {r : HdfStatus}, visit s i = some (r, t) →
  Steps s t ∧ OnlyOff s t ∧ (r = .success → ∀ c ∈ s.childrenOf i, t.status c = .off))
 (children : List ℕ) (h : childrenLoop visit children s = some (r, t)) :
 Steps s t ∧ OnlyOff s t ∧ (r = .success → ∀ c ∈ children, t.status c = .off) := by
 induction children generalizing s with
 | nil =>
  cases h
  exact ⟨Relation.ReflTransGen.refl, fun _ hj => hj, fun _ _ hc => by cases hc⟩
 | cons child rest ih =>
  rw [childrenLoop] at h
  cases visited : visit s child with
  | none =>
   rw [visited] at h
   cases h
  | some result =>
   obtain ⟨code, u⟩ := result
   obtain ⟨steps, only, below⟩ := hvisit visited
   rw [visited] at h
   cases code
   case success =>
    dsimp only at h
    have off : ∀ c ∈ u.childrenOf child, u.status c = .off := by
     rw [frozen_childrenOf steps.frozen]
     exact below rfl
    split_ifs at h with on
    · obtain ⟨later, onlyLater, done⟩ := ih h
      have switched := Steps.single (Switch.off u child off)
      refine ⟨steps.trans (switched.trans later), ?_, ?_⟩
      · intro j hj
        exact onlyLater j (OnlyOff.setStatus j (only j hj))
      · intro success c hc
        rcases List.mem_cons.mp hc with rfl | hc
        · exact onlyLater c status_setStatus_off
        · exact done success c hc
    · obtain ⟨later, onlyLater, done⟩ := ih h
      refine ⟨steps.trans later, fun j hj => onlyLater j (only j hj), ?_⟩
      intro success c hc
      rcases List.mem_cons.mp hc with rfl | hc
      · apply onlyLater
        cases hstatus : u.status c with
        | off => rfl
        | on => exact absurd hstatus on
      · exact done success c hc
   all_goals
    cases h
    exact ⟨steps, only, nofun⟩

theorem childForceDisable_steps (fuel : ℕ)
 (h : regulatorTreeChildForceDisable fuel s i = some (r, t)) :
 Steps s t ∧ OnlyOff s t ∧ (r = .success → ∀ c ∈ s.childrenOf i, t.status c = .off) := by
 induction fuel generalizing s t i r with
 | zero => cases h
 | succ fuel ih =>
  rw [regulatorTreeChildForceDisable] at h
  rw [Regulators.childrenOf]
  cases found : regulatorTreeGetChild s.treeMgrHead (s.node i).name with
  | none =>
   rw [found] at h
   cases h
   exact ⟨Relation.ReflTransGen.refl, fun _ hj => hj, nofun⟩
  | some children =>
   rw [found] at h
   exact childrenLoop_steps ih children h

theorem forceDisable_steps (fuel : ℕ)
 (h : regulatorNodeForceDisable hw fuel s i = some (r, t)) : Steps s t := by
 rw [regulatorNodeForceDisable] at h
 by_cases off : s.status i = .off
 · rw [if_pos off] at h
   cases h
   exact Relation.ReflTransGen.refl
 rw [if_neg off] at h
 cases down : regulatorTreeChildForceDisable fuel s i with
 | none =>
  rw [down] at h
  cases h
 | some result =>
  obtain ⟨code, u⟩ := result
  obtain ⟨steps, -, below⟩ := childForceDisable_steps fuel down
  rw [down] at h
  cases code
  case success =>
   dsimp only at h
   split_ifs at h with refused
   · cases h
     exact steps
   · have children : ∀ c ∈ u.childrenOf i, u.status c = .off := by
      rw [frozen_childrenOf steps.frozen]
      exact below rfl
     apply steps.trans
     exact (Steps.single (Switch.off u i children)).trans
      (disableParent_steps (disable_steps fuel) h)
  all_goals
   cases h
   exact steps

end Calls

section TreeSet
variable {tree tree' : List RegulatorTreeInfo} {name other : String}

theorem treeUpdate_find {f : RegulatorTreeInfo → RegulatorTreeInfo}
 (keeps : ∀ pos, (f pos).name = pos.name) (h : treeUpdate name f tree = some tree') :
 treeFind tree' other =
  if name = other then (treeFind tree other).map f else treeFind tree other := by
 induction tree generalizing tree' with
 | nil => cases h
 | cons pos rest ih =>
  rw [treeUpdate] at h
  split_ifs at h with here
  · cases h
    simp only [beq_iff_eq] at here
    subst here
    by_cases same : pos.name = other <;> simp [treeFind, keeps, same]
  · obtain ⟨rest', hrest, rfl⟩ := Option.map_eq_some_iff.mp h
    have below := ih hrest
    simp only [beq_iff_eq] at here
    by_cases same : pos.name = other
    · have differ : ¬name = other := fun hname => here (same.trans hname.symm)
      simp [treeFind, same, differ]
    · simpa [treeFind, same] using below

theorem treeUpdate_none {f : RegulatorTreeInfo → RegulatorTreeInfo}
 (h : treeUpdate name f tree = none) : treeFind tree name = none := by
 induction tree with
 | nil => rfl
 | cons pos rest ih =>
  rw [treeUpdate] at h
  split_ifs at h with here
  simp only [beq_iff_eq] at here
  simpa [treeFind, here] using ih (Option.map_eq_none_iff.mp h)

theorem setParent_find {parent : ℕ} (h : regulatorTreeSetParent tree name parent = some tree')
 (other : String) :
 treeFind tree' other =
  if name = other then
   (treeFind tree other).map fun pos => { pos with parent := some parent }
  else treeFind tree other :=
 treeUpdate_find (fun _ => rfl) h

theorem setChild_find {child : ℕ} (h : regulatorTreeSetChild tree name child = some tree')
 (other : String) :
 treeFind tree' other =
  if name = other then
   (treeFind tree other).map fun pos => { pos with childHead := pos.childHead ++ [child] }
  else treeFind tree other :=
 treeUpdate_find (fun _ => rfl) h

theorem nodeInit_find : treeFind (regulatorTreeManagerNodeInit tree name) other =
  (treeFind tree other).or (if name = other then some ⟨name, none, []⟩ else none) := by
 rw [regulatorTreeManagerNodeInit]
 split_ifs with present same same
 · subst same
   rw [List.any_eq_true] at present
   obtain ⟨pos, hpos, hname⟩ := present
   have some : (treeFind tree name).isSome := List.find?_isSome.mpr ⟨pos, hpos, hname⟩
   rw [Option.or_of_isSome some]
 · rw [Option.or_none]
 · subst same
   simp [treeFind, List.find?_append]
 · simp [treeFind, List.find?_append, same]

theorem nodeInit_find_self : treeFind (regulatorTreeManagerNodeInit tree name) name ≠ none := by
 rw [nodeInit_find, if_pos rfl]
 cases treeFind tree name <;> simp

theorem nodeInit_getParent : regulatorTreeGetParent (regulatorTreeManagerNodeInit tree name) other =
  regulatorTreeGetParent tree other := by
 rw [regulatorTreeGetParent, regulatorTreeGetParent, nodeInit_find]
 cases treeFind tree other with
 | some pos => rfl
 | none => split_ifs <;> rfl

theorem nodeInit_getChild :
 (regulatorTreeGetChild (regulatorTreeManagerNodeInit tree name) other).getD [] =
  (regulatorTreeGetChild tree other).getD [] := by
 rw [regulatorTreeGetChild, regulatorTreeGetChild, nodeInit_find]
 cases treeFind tree other with
 | some pos => rfl
 | none => split_ifs <;> rfl

theorem nodeInit_known (h : treeFind (regulatorTreeManagerNodeInit tree name) other ≠ none) :
 treeFind tree other ≠ none ∨ name = other := by
 rw [nodeInit_find] at h
 by_cases same : name = other
 · exact Or.inr same
 · rw [if_neg same, Option.or_none] at h
   exact Or.inl h

structure LinkAdded (s t : Regulators) (name : String) (child parent : ℕ) : Prop where
 head : t.regulatorHead = s.regulatorHead
 getParent : ∀ other, regulatorTreeGetParent t.treeMgrHead other =
  if name = other then some parent else regulatorTreeGetParent s.treeMgrHead other
 getChild : ∀ other, (regulatorTreeGetChild t.treeMgrHead other).getD [] =
  (regulatorTreeGetChild s.treeMgrHead other).getD [] ++
   if (s.node parent).name = other then [child] else []
 known : ∀ other, treeFind t.treeMgrHead other ≠ none →
  treeFind s.treeMgrHead other ≠ none ∨ other = name ∨ other = (s.node parent).name

theorem treeSet_linkAdded (s : Regulators) (name : String) (child parent : ℕ) :
 (regulatorTreeSet s name child parent).1 = .success ∧
  LinkAdded s (regulatorTreeSet s name child parent).2 name child parent := by
 rw [regulatorTreeSet]
 cases hparent : regulatorTreeSetParent (regulatorTreeManagerNodeInit s.treeMgrHead name) name
  parent with
 | none => exact absurd (treeUpdate_none hparent) nodeInit_find_self
 | some linked =>
  dsimp only
  cases hchild : regulatorTreeSetChild
   (regulatorTreeManagerNodeInit linked (s.node parent).name) (s.node parent).name child with
  | none => exact absurd (treeUpdate_none hchild) nodeInit_find_self
  | some tree =>
   have first := setParent_find hparent
   have second := setChild_find hchild
   refine ⟨rfl, rfl, ?_, ?_, ?_⟩
   · intro other
     have same : regulatorTreeGetParent tree other = regulatorTreeGetParent linked other := by
      rw [← @nodeInit_getParent linked (s.node parent).name, regulatorTreeGetParent,
       regulatorTreeGetParent, second]
      split_ifs
      · rw [Option.bind_map]
        rfl
      · rfl
     rw [same, regulatorTreeGetParent, first]
     split_ifs with here
     · subst here
       obtain ⟨pos, hpos⟩ := Option.ne_none_iff_exists'.mp
        (@nodeInit_find_self s.treeMgrHead name)
       rw [hpos]
       rfl
     · exact nodeInit_getParent
   · intro other
     have same : (regulatorTreeGetChild linked other).getD [] =
      (regulatorTreeGetChild s.treeMgrHead other).getD [] := by
      rw [← @nodeInit_getChild s.treeMgrHead name, regulatorTreeGetChild,
       regulatorTreeGetChild, first]
      split_ifs
      · rw [Option.map_map]
        rfl
      · rfl
     rw [← same, ← @nodeInit_getChild linked (s.node parent).name, regulatorTreeGetChild,
      regulatorTreeGetChild, second]
     split_ifs with here
     · subst here
       obtain ⟨pos, hpos⟩ := Option.ne_none_iff_exists'.mp
        (@nodeInit_find_self linked (s.node parent).name)
       rw [hpos]
       rfl
     · rw [List.append_nil]
   · intro other hother
     have inBoth : treeFind (regulatorTreeManagerNodeInit linked (s.node parent).name) other ≠
      none := by
      intro hnone
      apply hother
      rw [second, hnone]
      simp
     rcases nodeInit_known inBoth with inLinked | here
     · have inNamed : treeFind (regulatorTreeManagerNodeInit s.treeMgrHead name) other ≠
        none := by
        intro hnone
        apply inLinked
        rw [first, hnone]
        simp
       rcases nodeInit_known inNamed with old | here
       · exact Or.inl old
       · exact Or.inr (Or.inl here.symm)
     · exact Or.inr (Or.inr here.symm)

end TreeSet

section Add
variable {hw : ℕ → Bool} {s t : Regulators} {i p : ℕ} {r : HdfStatus}

theorem LinkAdded.node (link : LinkAdded s t (s.node i).name i p) (j : ℕ) :
 t.node j = s.node j := by
 rw [Regulators.node, Regulators.node, link.head]

theorem LinkAdded.parentOf (link : LinkAdded s t (s.node i).name i p) (j : ℕ) :
 t.parentOf j = if (s.node i).name = (s.node j).name then some p else s.parentOf j := by
 rw [Regulators.parentOf, link.getParent, link.node]
 rfl

theorem LinkAdded.childrenOf (link : LinkAdded s t (s.node i).name i p) (j : ℕ) :
 t.childrenOf j =
  s.childrenOf j ++ if (s.node p).name = (s.node j).name then [i] else [] := by
 rw [Regulators.childrenOf, link.getChild, link.node]
 rfl

theorem Sound.link (sound : Sound s) (link : LinkAdded s t (s.node i).name i p)
 (hi : i < s.regulatorHead.length) (hp : p < s.regulatorHead.length)
 (named : (s.node i).hasParentName) (off : s.status i = .off)
 (only : ∀ j, j < s.regulatorHead.length → (s.node i).name = (s.node j).name → i = j) :
 Sound t := by
 have parents : ∀ j q, j < s.regulatorHead.length → t.parentOf j = some q →
  i = j ∧ p = q ∨ s.parentOf j = some q := by
  intro j q hj hq
  rw [link.parentOf] at hq
  split_ifs at hq with same
  · exact Or.inl ⟨only j hj same, Option.some.inj hq⟩
  · exact Or.inr hq
 refine ⟨⟨?_, ?_, ?_, ?_⟩, ?_⟩
 · intro j q hj hq
   rw [link.head] at hj
   rw [link.node]
   rcases parents j q hj hq with ⟨rfl, -⟩ | old
   · exact named
   · exact sound.named j q hj old
 · intro j q hj hq
   rw [link.head] at hj ⊢
   rcases parents j q hj hq with ⟨-, rfl⟩ | old
   · exact hp
   · exact sound.inside j q hj old
 · intro j q hj hq
   rw [link.head] at hj
   rw [link.childrenOf]
   rcases parents j q hj hq with ⟨rfl, rfl⟩ | old
   · simp
   · exact List.mem_append_left _ (sound.listed j q hj old)
 · intro name hname
   rw [link.head]
   simp only [link.node]
   rcases link.known name hname with old | rfl | rfl
   · exact sound.known name old
   · exact ⟨i, hi, rfl⟩
   · exact ⟨p, hp, rfl⟩
 · have status : ∀ j, t.status j = s.status j := by
    intro j
    rw [Regulators.status, link.node, Regulators.status]
   intro j q hq hj
   change t.status q = .on
   rw [status]
   change t.status j = .on at hj
   rw [status] at hj
   rcases parents j q (powered_inside hj) hq with ⟨rfl, -⟩ | old
   · rw [off] at hj
     cases hj
   · exact sound.supplied j q old hj

def Regulators.append (s : Regulators) (node : RegulatorNode) : Regulators :=
 { s with regulatorHead := s.regulatorHead ++ [node] }

variable {node : RegulatorNode}

theorem append_node_old (hi : i < s.regulatorHead.length) : (s.append node).node i = s.node i := by
 rw [Regulators.node, Regulators.node, Regulators.append, List.getD_append _ _ _ _ hi]

theorem append_node_new : (s.append node).node s.regulatorHead.length = node := by
 simp [Regulators.node, Regulators.append]

theorem append_length : (s.append node).regulatorHead.length = s.regulatorHead.length + 1 := by
 simp [Regulators.append]

theorem append_status (off : node.status = .off) (i : ℕ) :
 (s.append node).status i = s.status i := by
 rcases Nat.lt_trichotomy i s.regulatorHead.length with old | rfl | outside
 · rw [Regulators.status, append_node_old old, Regulators.status]
 · rw [Regulators.status, append_node_new, off, status_outside le_rfl]
 · rw [status_outside (by rw [append_length]; omega), status_outside (by omega)]

def Fresh (s : Regulators) (name : String) : Prop :=
 ∀ i, i < s.regulatorHead.length → (s.node i).name ≠ name

theorem fresh_of_any {name : String}
 (h : ¬(s.regulatorHead.any fun pos => pos.name == name) = true) : Fresh s name := by
 intro i hi same
 apply h
 rw [List.any_eq_true]
 refine ⟨s.node i, ?_, by simpa using same⟩
 rw [Regulators.node, List.getD_eq_getElem _ _ hi]
 exact List.getElem_mem hi

theorem Sound.append (sound : Sound s) (fresh : Fresh s node.name)
 (off : node.status = .off) : Sound (s.append node) := by
 have parentless : (s.append node).parentOf s.regulatorHead.length = none := by
  have unknown : treeFind s.treeMgrHead node.name = none := by
   by_contra found
   obtain ⟨i, hi, same⟩ := sound.known node.name found
   exact fresh i hi same
  rw [Regulators.parentOf, append_node_new, regulatorTreeGetParent]
  change (treeFind s.treeMgrHead node.name).bind _ = none
  rw [unknown]
  rfl
 have parents : ∀ j q, j < (s.append node).regulatorHead.length →
  (s.append node).parentOf j = some q →
  j < s.regulatorHead.length ∧ s.parentOf j = some q := by
  intro j q hj hq
  rw [append_length] at hj
  rcases Nat.lt_succ_iff_lt_or_eq.mp hj with old | rfl
  · rw [Regulators.parentOf, append_node_old old] at hq
    exact ⟨old, hq⟩
  · rw [parentless] at hq
    cases hq
 refine ⟨⟨?_, ?_, ?_, ?_⟩, ?_⟩
 · intro j q hj hq
   obtain ⟨old, hold⟩ := parents j q hj hq
   rw [append_node_old old]
   exact sound.named j q old hold
 · intro j q hj hq
   obtain ⟨old, hold⟩ := parents j q hj hq
   rw [append_length]
   exact Nat.lt_succ_of_lt (sound.inside j q old hold)
 · intro j q hj hq
   obtain ⟨old, hold⟩ := parents j q hj hq
   rw [Regulators.childrenOf, append_node_old (sound.inside j q old hold)]
   exact sound.listed j q old hold
 · intro name hname
   obtain ⟨j, hj, same⟩ := sound.known name hname
   rw [append_length]
   exact ⟨j, Nat.lt_succ_of_lt hj, by rw [append_node_old hj, same]⟩
 · intro j q hq hj
   change (s.append node).status q = .on
   rw [append_status off]
   change (s.append node).status j = .on at hj
   rw [append_status off] at hj
   have inside : j < (s.append node).regulatorHead.length := by
    rw [append_length]
    exact Nat.lt_succ_of_lt (powered_inside hj)
   exact sound.supplied j q (parents j q inside hq).2 hj

theorem setParent_sound (sound : Sound s) (hi : i < s.regulatorHead.length)
 (off : s.status i = .off)
 (only : ∀ j, j < s.regulatorHead.length → (s.node i).name = (s.node j).name → i = j) :
 Sound (regulatorNodeSetParent s i).2 ∧
  (regulatorNodeSetParent s i).2.regulatorHead = s.regulatorHead := by
 rw [regulatorNodeSetParent]
 by_cases named : (s.node i).hasParentName
 · rw [if_pos named]
   cases found : s.regulatorHead.findIdx? fun pos => some pos.name == (s.node i).parentName with
   | none => exact ⟨sound, rfl⟩
   | some pos =>
    obtain ⟨hpos, -⟩ := List.findIdx?_eq_some_iff_getElem.mp found
    obtain ⟨success, link⟩ := treeSet_linkAdded s (s.node i).name i pos
    dsimp only
    generalize regulatorTreeSet s (s.node i).name i pos = result at success link
    obtain ⟨code, t⟩ := result
    cases success
    exact ⟨sound.link link hi hpos named off only, link.head⟩
 · rw [if_neg named]
   exact ⟨sound, rfl⟩

theorem initProcess_sound (sound : Sound s) (hi : i < s.regulatorHead.length)
 (off : s.status i = .off)
 (only : ∀ j, j < s.regulatorHead.length → (s.node i).name = (s.node j).name → i = j)
 {fuel : ℕ} (h : regulatorNodeInitProcess hw fuel s i = some (r, t)) : Sound t := by
 obtain ⟨linked, head⟩ := setParent_sound sound hi off only
 rw [regulatorNodeInitProcess] at h
 generalize regulatorNodeSetParent s i = result at linked head h
 obtain ⟨code, u⟩ := result
 cases code
 case success =>
  dsimp only at h linked head
  split_ifs at h with alwaysOn
  · obtain ⟨⟨code, v⟩, up, same⟩ := Option.map_eq_some_iff.mp h
    cases same
    exact linked.steps (enable_steps fuel linked.toLinked (head ▸ hi) up).1
  · cases h
    exact linked
 all_goals
  cases h
  exact linked

theorem add_sound {name : String} {parentName : Option String} {alwaysOn : Bool}
 (sound : Sound s) (h : regulatorNodeAdd hw s name parentName alwaysOn = some (r, t)) :
 Sound t := by
 rw [regulatorNodeAdd] at h
 split_ifs at h with taken
 · cases h
   exact sound
 · have fresh := fresh_of_any taken
   have added : Sound (s.append ⟨name, parentName, alwaysOn, .off⟩) := sound.append fresh rfl
   have only : ∀ j, j < (s.append ⟨name, parentName, alwaysOn, .off⟩).regulatorHead.length →
    ((s.append ⟨name, parentName, alwaysOn, .off⟩).node s.regulatorHead.length).name =
     ((s.append ⟨name, parentName, alwaysOn, .off⟩).node j).name →
    s.regulatorHead.length = j := by
    intro j hj same
    rw [append_length] at hj
    rcases Nat.lt_succ_iff_lt_or_eq.mp hj with old | new
    · rw [append_node_new, append_node_old old] at same
      exact absurd same.symm (fresh j old)
    · exact new.symm
   have inside : s.regulatorHead.length <
    (s.append ⟨name, parentName, alwaysOn, .off⟩).regulatorHead.length := by
    rw [append_length]
    exact Nat.lt_succ_self _
   have off : (s.append ⟨name, parentName, alwaysOn, .off⟩).status s.regulatorHead.length =
    .off := by
    rw [append_status rfl, status_outside le_rfl]
   dsimp only at h
   split at h
   · cases h
   · cases h
     exact initProcess_sound added inside off only ‹_›
   · cases h
     exact initProcess_sound added inside off only ‹_›

theorem call_sound {call : RegulatorCall} (sound : Sound s)
 (h : s.call hw call = some (r, t)) : Sound t := by
 cases call with
 | add name parentName alwaysOn => exact add_sound sound h
 | enable i =>
  rw [Regulators.call] at h
  split_ifs at h with hi
  · exact sound.steps (enable_steps _ sound.toLinked hi h).1
  · cases h
    exact sound
 | disable i =>
  rw [Regulators.call] at h
  split_ifs at h
  · exact sound.steps (disable_steps _ h)
  · cases h
    exact sound
 | forceDisable i =>
  rw [Regulators.call] at h
  split_ifs at h
  · exact sound.steps (forceDisable_steps _ h)
  · cases h
    exact sound

theorem start_sound : Sound Regulators.start where
 named i p hi := by cases hi
 inside i p hi := by cases hi
 listed i p hi := by cases hi
 known name hname := absurd rfl hname
 supplied i p _ hi := by cases powered_inside hi

/-- Whatever the hardware does on the way, a regulator that is on has a parent
that is on, if it has one. -/
theorem parent_on_of_reachable (calls : List (RegulatorCall × (ℕ → Bool)))
    (h : exec Regulators.step .start calls = some s) (hi : s.status i = .on)
    (hp : s.parentOf i = some p) : s.status p = .on := by
  have keep : ∀ s call t, Sound s → Regulators.step s call = some t → Sound t := by
    intro s call t sound hstep
    obtain ⟨⟨code, u⟩, hcall, same⟩ := Option.map_eq_some_iff.mp hstep
    cases same
    exact call_sound sound hcall
  exact (exec_invariant keep _ s calls start_sound h).supplied i p hp hi

/-- Two regulators, the lower one enabled while the hardware works. -/
def sampleCalls : List (RegulatorCall × (ℕ → Bool)) :=
 [(.add "buck" (some "") false, fun _ => true), (.add "ldo" (some "buck") false, fun _ => true),
  (.enable 1, fun _ => true)]

theorem parent_on_sample :
    ((exec Regulators.step .start sampleCalls).map fun s => s.status 0) = some .on := by
  obtain ⟨s, hs⟩ : ∃ s, exec Regulators.step .start sampleCalls = some s := ⟨_, rfl⟩
  rw [hs]
  have hon : (exec Regulators.step .start sampleCalls).map (fun s => s.status 1) = some .on := by
    decide
  have hparent : (exec Regulators.step .start sampleCalls).bind (fun s => s.parentOf 1) =
      some 0 := by
    decide
  rw [hs] at hon hparent
  exact congrArg some (parent_on_of_reachable sampleCalls hs (Option.some.inj hon) hparent)

end Add

section Returns
variable {hw : ℕ → Bool} {s : Regulators} {i : ℕ}

theorem climb_returns (fuel : ℕ)
 (above : ∀ j p, j < s.regulatorHead.length → s.parentOf j = some p → p < j)
 (hi : i < s.regulatorHead.length) (hfuel : i < fuel) :
 ∃ r t, regulatorNodeEnable hw fuel s i = some (r, t) := by
 induction fuel generalizing i with
 | zero => omega
 | succ fuel ih =>
  rw [regulatorNodeEnable]
  by_cases already : s.status i = .on
  · rw [if_pos already]
    exact ⟨_, _, rfl⟩
  rw [if_neg already]
  by_cases named : (s.node i).hasParentName
  · rw [if_pos named]
    cases hparent : regulatorTreeGetParent s.treeMgrHead (s.node i).name with
    | none => exact ⟨_, _, rfl⟩
    | some parent =>
     have before := above i parent hi hparent
     obtain ⟨code, u, up⟩ := ih (before.trans hi) (by omega)
     dsimp only
     rw [up]
     cases code
     case success =>
      dsimp only
      split_ifs <;> exact ⟨_, _, rfl⟩
     all_goals exact ⟨_, _, rfl⟩
  · rw [if_neg named]
    dsimp only
    split_ifs <;> exact ⟨_, _, rfl⟩

theorem append_node {node : RegulatorNode} (hi : i < (s.append node).regulatorHead.length) :
 i < s.regulatorHead.length ∧ (s.append node).node i = s.node i ∨
  i = s.regulatorHead.length ∧ (s.append node).node i = node := by
 rw [append_length] at hi
 rcases Nat.lt_succ_iff_lt_or_eq.mp hi with old | rfl
 · exact Or.inl ⟨old, append_node_old old⟩
 · exact Or.inr ⟨rfl, append_node_new⟩

end Returns

end DriversFramework.Regulator
