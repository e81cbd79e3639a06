import DriversFramework.RegulatorForest

namespace DriversFramework.Regulator
open RunRules

/-- What a regulator is registered with, and the hardware that the call meets. -/
structure Registration where
 name : String
 parentName : Option String
 alwaysOn : Bool
 hw : ℕ → Bool

def Registration.call (r : Registration) : RegulatorCall × (ℕ → Bool) :=
 (.add r.name r.parentName r.alwaysOn, r.hw)

/-- A regulator that names itself as its parent. -/
def Registration.NamesItself (r : Registration) : Prop :=
 r.parentName = some r.name ∧ r.name ≠ ""

def accept (taken : List Registration) (r : Registration) : List Registration :=
 if taken.any fun q => q.name == r.name then taken else taken ++ [r]

def accepted (registrations : List Registration) : List Registration :=
 registrations.foldl accept []

/-- No regulator stands above itself. -/
def Acyclic (s : Regulators) : Prop :=
 ∀ i, i < s.regulatorHead.length → ¬Relation.TransGen (fun i p => s.parentOf i = some p) i i

def ClimbEnds (s : Regulators) (i : ℕ) : Prop :=
 ∀ hw : ℕ → Bool, ∃ fuel, (regulatorNodeEnable hw fuel s i).isSome

/-- The registrations come to an end, and leave a tree that can be climbed from every regulator. -/
def ParentsRight (registrations : List Registration) : Prop :=
 ∃ s, exec Regulators.step .start (registrations.map Registration.call) = some s ∧
  Acyclic s ∧ ∀ i, i < s.regulatorHead.length → ClimbEnds s i

/-- The names that a regulator keeps. -/
def RegulatorNode.names (node : RegulatorNode) : String × Option String :=
 (node.name, node.parentName)

def Registration.names (r : Registration) : String × Option String := (r.name, r.parentName)

structure Climbing (s : Regulators) (taken : List Registration) : Prop where
 sound : Sound s
 listed : s.regulatorHead.map RegulatorNode.names = taken.map Registration.names
 above : ∀ i p, i < s.regulatorHead.length → s.parentOf i = some p →
  p < i ∨ p = i ∧ (s.node i).parentName = some (s.node i).name
 own : ∀ i, i < s.regulatorHead.length → (s.node i).parentName = some (s.node i).name →
  (s.node i).name ≠ "" → s.parentOf i = some i
 distinct : ∀ i j, i < s.regulatorHead.length → j < s.regulatorHead.length →
  (s.node i).name = (s.node j).name → i = j

section steps
variable {s t : Regulators} {taken : List Registration} {hw : ℕ → Bool} {i p : ℕ}

theorem Climbing.length (climbing : Climbing s taken) :
  s.regulatorHead.length = taken.length := by
 simpa using congrArg List.length climbing.listed

theorem names_node (inside : i < s.regulatorHead.length) :
  (s.regulatorHead.map RegulatorNode.names)[i]? = some (s.node i).names := by
 rw [List.getElem?_map, List.getElem?_eq_getElem inside, Regulators.node,
  List.getD_eq_getElem _ _ inside]
 rfl

theorem Climbing.node_of_mem (climbing : Climbing s taken) {r : Registration} (mem : r ∈ taken) :
  ∃ i, i < s.regulatorHead.length ∧ (s.node i).names = r.names := by
 obtain ⟨i, inside, here⟩ := List.mem_iff_getElem.mp mem
 have place : i < s.regulatorHead.length := climbing.length ▸ inside
 refine ⟨i, place, Option.some.inj ?_⟩
 rw [← names_node place, climbing.listed, List.getElem?_map, List.getElem?_eq_getElem inside, here]
 rfl

theorem Climbing.mem_of_node (climbing : Climbing s taken) (inside : i < s.regulatorHead.length) :
  ∃ r ∈ taken, (s.node i).names = r.names := by
 have place : i < taken.length := climbing.length ▸ inside
 refine ⟨taken[i], List.getElem_mem place, Option.some.inj ?_⟩
 rw [← names_node inside, climbing.listed, List.getElem?_map, List.getElem?_eq_getElem place]
 rfl

theorem Climbing.before (climbing : Climbing s taken) (other : ∀ r ∈ taken, ¬r.NamesItself)
  (inside : i < s.regulatorHead.length) (parent : s.parentOf i = some p) : p < i := by
 rcases climbing.above i p inside parent with before | ⟨-, itself⟩
 · exact before
 · obtain ⟨r, mem, names⟩ := climbing.mem_of_node inside
   have sameName : (s.node i).name = r.name := congrArg Prod.fst names
   have sameParent : (s.node i).parentName = r.parentName := congrArg Prod.snd names
   refine absurd ⟨?_, ?_⟩ (other r mem)
   · rw [← sameParent, ← sameName]
     exact itself
   · have named := climbing.sound.named i p inside parent
     rw [RegulatorNode.hasParentName, itself] at named
     rw [← sameName]
     simpa using named

theorem taken_iff (climbing : Climbing s taken) (name : String) :
  (s.regulatorHead.any fun pos => pos.name == name) = taken.any fun q => q.name == name := by
 have names := congrArg (List.any · fun pair : String × Option String => pair.1 == name)
  climbing.listed
 rw [List.any_map, List.any_map] at names
 exact names

theorem Climbing.frozen (climbing : Climbing s taken) (sound : Sound t)
  (h : t.frozen = s.frozen) : Climbing t taken where
 sound := sound
 listed := by
  rw [← climbing.listed]
  have same := congrArg (fun u => u.regulatorHead.map RegulatorNode.names) h
  simp only [Regulators.frozen, List.map_map] at same
  exact same
 above i p := by
  rw [frozen_length h, frozen_parentOf h, frozen_name h, frozen_parentName h]
  exact climbing.above i p
 own i := by
  rw [frozen_length h, frozen_parentOf h, frozen_name h, frozen_parentName h]
  exact climbing.own i
 distinct i j := by
  rw [frozen_length h, frozen_name h, frozen_name h]
  exact climbing.distinct i j

theorem Climbing.extend (climbing : Climbing s taken) {node : RegulatorNode}
  (fresh : Fresh s node.name) (sound : Sound t)
  (head : t.regulatorHead = (s.append node).regulatorHead)
  (old : ∀ j, j < s.regulatorHead.length → t.parentOf j = s.parentOf j)
  (above : ∀ p, t.parentOf s.regulatorHead.length = some p →
   p < s.regulatorHead.length ∨ p = s.regulatorHead.length ∧ node.parentName = some node.name)
  (own : node.parentName = some node.name → node.name ≠ "" →
   t.parentOf s.regulatorHead.length = some s.regulatorHead.length) :
  Climbing t (taken ++ [⟨node.name, node.parentName, node.alwaysOn, hw⟩]) := by
 have node_eq : ∀ j, t.node j = (s.append node).node j := by
  intro j
  rw [Regulators.node, Regulators.node, head]
 refine ⟨sound, ?_, ?_, ?_, ?_⟩
 · rw [head, Regulators.append, List.map_append, climbing.listed, List.map_append]
   rfl
 · intro i p hi hp
   rw [head] at hi
   rw [node_eq]
   rcases append_node hi with ⟨before, same⟩ | ⟨last, same⟩
   · rw [same]
     exact climbing.above i p before (old i before ▸ hp)
   · rw [same, last]
     exact above p (last ▸ hp)
 · intro i hi
   rw [head] at hi
   rw [node_eq]
   rcases append_node hi with ⟨before, same⟩ | ⟨last, same⟩
   · rw [same, old i before]
     exact climbing.own i before
   · rw [same, last]
     exact own
 · intro i j hi hj
   rw [head] at hi hj
   rw [node_eq, node_eq]
   rcases append_node hi with ⟨oldi, samei⟩ | ⟨newi, samei⟩ <;>
    rcases append_node hj with ⟨oldj, samej⟩ | ⟨newj, samej⟩ <;> rw [samei, samej]
   · exact climbing.distinct i j oldi oldj
   · exact fun clash => absurd clash (fresh i oldi)
   · exact fun clash => absurd clash.symm (fresh j oldj)
   · exact fun _ => newi.trans newj.symm

theorem append_parentOf {node : RegulatorNode} (inside : i < s.regulatorHead.length) :
  (s.append node).parentOf i = s.parentOf i := by
 rw [Regulators.parentOf, append_node_old inside]
 rfl

theorem append_orphan {node : RegulatorNode} (linked : Linked s) (fresh : Fresh s node.name) :
  (s.append node).parentOf s.regulatorHead.length = none := by
 have unknown : treeFind s.treeMgrHead node.name = none := by
  by_contra found
  obtain ⟨i, hi, same⟩ := linked.known node.name found
  exact fresh i hi same
 rw [Regulators.parentOf, append_node_new, regulatorTreeGetParent]
 change (treeFind s.treeMgrHead node.name).bind _ = none
 rw [unknown]
 rfl

theorem setParent_climbing (hw : ℕ → Bool) (node : RegulatorNode) (climbing : Climbing s taken)
  (fresh : Fresh s node.name) (off : node.status = .off) :
  Climbing (regulatorNodeSetParent (s.append node) s.regulatorHead.length).2
   (taken ++ [⟨node.name, node.parentName, node.alwaysOn, hw⟩]) := by
 have here : (s.append node).node s.regulatorHead.length = node := append_node_new
 have length : (s.append node).regulatorHead.length = s.regulatorHead.length + 1 := append_length
 have added := climbing.sound.append fresh off
 have orphan := append_orphan climbing.sound.toLinked fresh
 have only : ∀ j, j < (s.append node).regulatorHead.length →
   node.name = ((s.append node).node j).name → s.regulatorHead.length = j := by
  intro j hj same
  rcases append_node hj with ⟨before, old⟩ | ⟨last, -⟩
  · rw [old] at same
    exact absurd same.symm (fresh j before)
  · exact last.symm
 obtain ⟨sound, head⟩ := setParent_sound added (i := s.regulatorHead.length) (by omega)
  (by rw [append_status off, status_outside le_rfl]) (by rw [here]; exact only)
 rw [regulatorNodeSetParent] at sound head ⊢
 by_cases named : ((s.append node).node s.regulatorHead.length).hasParentName
 · rw [if_pos named] at sound head ⊢
   cases found : (s.append node).regulatorHead.findIdx? fun pos =>
     some pos.name == ((s.append node).node s.regulatorHead.length).parentName with
   | none =>
    refine climbing.extend fresh added rfl (fun j hj => append_parentOf hj)
     (fun p hp => by rw [orphan] at hp; cases hp) ?_
    intro itself _
    have all := List.findIdx?_eq_none_iff.mp found node (by simp [Regulators.append])
    rw [here, itself] at all
    simp at all
   | some pos =>
    obtain ⟨inside, name, -⟩ := List.findIdx?_eq_some_iff_getElem.mp found
    have name : some ((s.append node).node pos).name = node.parentName := by
     rw [here, beq_iff_eq] at name
     rw [← name, Regulators.node, List.getD_eq_getElem _ _ inside]
    obtain ⟨success, link⟩ := treeSet_linkAdded (s.append node)
     ((s.append node).node s.regulatorHead.length).name s.regulatorHead.length pos
    rw [found] at sound
    dsimp only at sound ⊢
    generalize regulatorTreeSet (s.append node) _ s.regulatorHead.length pos = result
     at success link sound ⊢
    obtain ⟨code, t⟩ := result
    cases success
    have parent : t.parentOf s.regulatorHead.length = some pos := by
     rw [link.parentOf, if_pos rfl]
    refine climbing.extend fresh sound link.head ?_ ?_ ?_
    · intro j hj
      rw [link.parentOf, here, if_neg, append_parentOf hj]
      rw [append_node_old hj]
      exact fun same => fresh j hj same.symm
    · intro p hp
      rw [parent] at hp
      cases hp
      rcases append_node inside with ⟨before, -⟩ | ⟨last, same⟩
      · exact .inl before
      · rw [same] at name
        exact .inr ⟨last, name.symm⟩
    · intro itself _
      rw [itself] at name
      rw [parent, only pos inside (Option.some.inj name).symm]
 · rw [if_neg named]
   refine climbing.extend fresh added rfl (fun j hj => append_parentOf hj)
    (fun p hp => by rw [orphan] at hp; cases hp) ?_
   intro itself proper
   rw [here, RegulatorNode.hasParentName, itself] at named
   simp [proper] at named

theorem initProcess_climbing (node : RegulatorNode) (climbing : Climbing s taken)
  (fresh : Fresh s node.name) (off : node.status = .off) {fuel : ℕ} {r : HdfStatus}
  (run : regulatorNodeInitProcess hw fuel (s.append node) s.regulatorHead.length = some (r, t)) :
  Climbing t (taken ++ [⟨node.name, node.parentName, node.alwaysOn, hw⟩]) := by
 have linked := setParent_climbing hw node climbing fresh off
 rw [regulatorNodeInitProcess] at run
 generalize regulatorNodeSetParent (s.append node) s.regulatorHead.length = result at linked run
 obtain ⟨code, u⟩ := result
 have inside : s.regulatorHead.length < u.regulatorHead.length := by
  rw [linked.length, List.length_append, ← climbing.length]
  exact Nat.lt_succ_self _
 cases code
 case success =>
  dsimp only at run linked
  split_ifs at run
  · obtain ⟨⟨code, v⟩, up, same⟩ := Option.map_eq_some_iff.mp run
    cases same
    have steps := (enable_steps fuel linked.sound.toLinked inside up).1
    exact linked.frozen (linked.sound.steps steps) steps.frozen
  · cases run
    exact linked
 all_goals
  cases run
  exact linked

theorem register_climbing (climbing : Climbing s taken) {r : Registration}
  (step : Regulators.step s r.call = some t) : Climbing t (accept taken r) := by
 obtain ⟨⟨code, u⟩, call, same⟩ := Option.map_eq_some_iff.mp step
 cases same
 change regulatorNodeAdd r.hw s r.name r.parentName r.alwaysOn = some (code, u) at call
 rw [regulatorNodeAdd, taken_iff climbing] at call
 rw [accept]
 by_cases old : (taken.any fun q => q.name == r.name) = true
 · rw [if_pos old] at call ⊢
   cases call
   exact climbing
 rw [if_neg old] at call ⊢
 have fresh : Fresh s r.name := fresh_of_any (by rw [taken_iff climbing]; exact old)
 dsimp only at call
 split at call
 · cases call
 all_goals
  cases call
  exact initProcess_climbing ⟨r.name, r.parentName, r.alwaysOn, .off⟩ climbing fresh rfl ‹_›

theorem register_returns (climbing : Climbing s taken) {r : Registration}
  (other : ∀ q ∈ accept taken r, ¬q.NamesItself) :
  ∃ t, Regulators.step s r.call = some t := by
 have done : ∃ code t, regulatorNodeAdd r.hw s r.name r.parentName r.alwaysOn = some (code, t) := by
  rw [regulatorNodeAdd, taken_iff climbing]
  rw [accept] at other
  by_cases old : (taken.any fun q => q.name == r.name) = true
  · rw [if_pos old]
    exact ⟨_, _, rfl⟩
  rw [if_neg old] at other ⊢
  have fresh : Fresh s r.name := fresh_of_any (by rw [taken_iff climbing]; exact old)
  have linked := setParent_climbing r.hw ⟨r.name, r.parentName, r.alwaysOn, .off⟩ climbing fresh
   rfl
  dsimp only [Regulators.append] at linked ⊢
  rw [regulatorNodeInitProcess]
  generalize regulatorNodeSetParent _ s.regulatorHead.length = result at linked ⊢
  obtain ⟨code, u⟩ := result
  have inside : s.regulatorHead.length < u.regulatorHead.length := by
   rw [linked.length, List.length_append, ← climbing.length]
   exact Nat.lt_succ_self _
  cases code
  case success =>
   dsimp only at linked ⊢
   split_ifs
   · obtain ⟨code, v, up⟩ : ∃ code v, regulatorNodeEnable r.hw (s.regulatorHead.length + 1 + 1) u
       s.regulatorHead.length = some (code, v) :=
      climb_returns _ (fun j p hj hp => linked.before other hj hp) inside (by omega)
     rw [List.length_append, List.length_singleton, up]
     exact ⟨_, _, rfl⟩
   · exact ⟨_, _, rfl⟩
  all_goals exact ⟨_, _, rfl⟩
 obtain ⟨code, t, call⟩ := done
 exact ⟨t, congrArg (Option.map Prod.snd) call⟩

end steps

section runs
variable {s t : Regulators} {taken : List Registration}

theorem mem_foldl_accept {q : Registration} (registrations : List Registration) :
  ∀ taken : List Registration, q ∈ taken → q ∈ registrations.foldl accept taken := by
 induction registrations with
 | nil => exact fun _ mem => mem
 | cons r registrations ih =>
  intro taken mem
  apply ih
  rw [accept]
  split
  · exact mem
  · exact List.mem_append_left _ mem

theorem exec_climbing (registrations : List Registration) :
  ∀ (s : Regulators) (taken : List Registration), Climbing s taken →
   exec Regulators.step s (registrations.map Registration.call) = some t →
   Climbing t (registrations.foldl accept taken) := by
 induction registrations with
 | nil =>
  intro s taken climbing run
  cases run
  exact climbing
 | cons r registrations ih =>
  intro s taken climbing run
  rw [List.map_cons, exec_cons] at run
  obtain ⟨u, step, run⟩ := Option.bind_eq_some_iff.mp run
  exact ih u _ (register_climbing climbing step) run

theorem exec_registrations (registrations : List Registration) :
  ∀ (s : Regulators) (taken : List Registration), Climbing s taken →
   (∀ q ∈ registrations.foldl accept taken, ¬q.NamesItself) →
   ∃ t, exec Regulators.step s (registrations.map Registration.call) = some t := by
 induction registrations with
 | nil => exact fun s _ _ _ => ⟨s, rfl⟩
 | cons r registrations ih =>
  intro s taken climbing other
  obtain ⟨u, step⟩ := register_returns climbing
   fun q mem => other q (mem_foldl_accept registrations _ mem)
  obtain ⟨t, run⟩ := ih u _ (register_climbing climbing step) other
  exact ⟨t, by rw [List.map_cons, exec_cons, step]; exact run⟩

theorem start_climbing : Climbing Regulators.start [] where
 sound := start_sound
 listed := rfl
 above i p hi := by cases hi
 own i hi := by cases hi
 distinct i j hi := by cases hi

theorem acyclic_of_before
  (before : ∀ i p, i < s.regulatorHead.length → s.parentOf i = some p → p < i) : Acyclic s := by
 intro i inside cycle
 have down : ∀ p, Relation.TransGen (fun i p => s.parentOf i = some p) i p → p < i := by
  intro p path
  induction path with
  | single parent => exact before i _ inside parent
  | tail _ parent ih => exact (before _ _ (ih.trans inside) parent).trans ih
 exact Nat.lt_irrefl i (down i cycle)

/-- The parents of the registered regulators make no cycle, and the climb from each one ends, if and
only if no regulator was accepted that names itself. -/
theorem parents_right_iff (registrations : List Registration) :
    ParentsRight registrations ↔ ∀ r ∈ accepted registrations, ¬r.NamesItself := by
  constructor
  · rintro ⟨s, run, acyclic, -⟩ r mem ⟨itself, proper⟩
    have climbing := exec_climbing registrations _ _ start_climbing run
    obtain ⟨i, inside, names⟩ := climbing.node_of_mem mem
    have sameName : (s.node i).name = r.name := congrArg Prod.fst names
    have sameParent : (s.node i).parentName = r.parentName := congrArg Prod.snd names
    have own := climbing.own i inside (by rw [sameParent, sameName]; exact itself)
      (by rw [sameName]; exact proper)
    exact acyclic i inside (.single own)
  · intro other
    obtain ⟨s, run⟩ := exec_registrations registrations _ _ start_climbing other
    have climbing := exec_climbing registrations _ _ start_climbing run
    have before : ∀ i p, i < s.regulatorHead.length → s.parentOf i = some p → p < i :=
      fun i p inside parent => climbing.before other inside parent
    refine ⟨s, run, acyclic_of_before before, fun i inside hw => ⟨i + 1, ?_⟩⟩
    obtain ⟨r, t, up⟩ : ∃ r t, regulatorNodeEnable hw (i + 1) s i = some (r, t) :=
      climb_returns _ before inside (Nat.lt_succ_self i)
    rw [up]
    rfl

/-- A regulator `a` with the parent `a` -/
theorem own_parent_cycle : ¬∀ registrations, ParentsRight registrations := by
  intro right
  obtain ⟨s, run, acyclic, -⟩ := right [⟨"a", some "a", false, fun _ => true⟩]
  have own : (exec Regulators.step .start ([⟨"a", some "a", false, fun _ => true⟩].map
      Registration.call)).any (fun s => s.regulatorHead.length = 1 ∧ s.parentOf 0 = some 0) = true := by
    decide
  rw [run] at own
  obtain ⟨one, parent⟩ := of_decide_eq_true own
  exact acyclic 0 (by omega) (.single parent)

end runs

end DriversFramework.Regulator
