import DriversFramework.HcAstUnique

namespace DriversFramework.HcAst

open AstHeap

/-- A call of `Copy` with `overwrite`: the tree before it, the value object and its source. -/
structure Overwrite where
 before : AstHeap
 value : ℕ
 source : ℕ
 deriving DecidableEq

def termOverwrites (h : AstHeap) (dst src : ℕ) (overwrite : Bool) : List Overwrite :=
 match h.child dst, h.child src with
 | some value, some srcValue =>
  if overwrite = false ∨ (h.get value).type ≠ (h.get srcValue).type ∧
    (!(h.get value).isNumber || !(h.get srcValue).isNumber) then []
  else [⟨h, value, srcValue⟩]
 | _, _ => []

/-- Those of `ConfigNode::Copy` from the child `child` of the source on -/
def copyOverwrites : ℕ → AstHeap → ℕ → Option ℕ → Bool → List Overwrite
 | _, _, _, none, _ => []
 | 0, _, _, some _, _ => []
 | fuel + 1, h, dst, some child, overwrite =>
  (match h.lookupChild dst (h.get child).name (some (h.get child).type) with
   | none => []
   | some peer =>
    if (h.get peer).isNode then copyOverwrites fuel h peer (h.child child) overwrite
    else if (h.get peer).isTerm then termOverwrites h peer child overwrite
    else if overwrite then [⟨h, peer, child⟩]
    else []) ++
   match copyChild fuel h dst child overwrite with
   | .error _ => []
   | .ok h' => copyOverwrites fuel h' dst (h'.next child) overwrite

def moveOverwrites (fuel : ℕ) (h : AstHeap) (dst src : ℕ) : List Overwrite :=
 if (h.get dst).isNode then copyOverwrites fuel h dst (h.child src) true
 else if (h.get dst).isTerm then
  match h.child dst, h.child src with
  | some value, some srcValue => [⟨h, value, srcValue⟩]
  | _, _ => []
 else [⟨h, dst, src⟩]

/-- Those of the callback of `Ast::NodeExpand`: only a node reference overwrites. -/
def nodeOverwrites (fuel root : ℕ) (h : AstHeap) (c : ℕ) : List Overwrite :=
 if (h.get c).type = .confNode ∧ (h.get c).nodeType = .ref then
  match lookup h root c (h.get c).refNodePath with
  | none => []
  | some ref =>
   match isElders fuel h ref (some c) with
   | .ok false => moveOverwrites fuel h ref c
   | _ => []
 else []

/-- Those of `Ast::Expand`; `Ast::InheritExpand` overwrites nothing. -/
def Ast.overwrites (fuel : ℕ) (ast : Ast) : List Overwrite :=
 (ast.nodeCalls fuel).flatMap fun call => nodeOverwrites fuel ast.astRoot call.1 call.2

/-- The value object `v` says the same in `h'`; a list of elements that is empty stays so. -/
structure SameValue (h h' : AstHeap) (v : ℕ) : Prop where
 type : (h'.get v).type = (h.get v).type
 integerValue : (h'.get v).integerValue = (h.get v).integerValue
 stringValue : (h'.get v).stringValue = (h.get v).stringValue
 arraySize : (h'.get v).arraySize = (h.get v).arraySize
 children : (h.get v).type ≠ .confNode → (h.get v).children = [] → (h'.get v).children = []

namespace SameValue

variable {h h₁ h' : AstHeap} {v : ℕ}

theorem refl (h : AstHeap) (v : ℕ) : SameValue h h v := ⟨rfl, rfl, rfl, rfl, fun _ hc => hc⟩

theorem trans (first : SameValue h h₁ v) (second : SameValue h₁ h' v) : SameValue h h' v where
 type := second.type.trans first.type
 integerValue := second.integerValue.trans first.integerValue
 stringValue := second.stringValue.trans first.stringValue
 arraySize := second.arraySize.trans first.arraySize
 children notNode empty :=
  second.children (by rw [first.type]; exact notNode) (first.children notNode empty)

theorem of_get (same : h'.get v = h.get v) : SameValue h h' v := by
 constructor
 · rw [same]
 · rw [same]
 · rw [same]
 · rw [same]
 · intro _ empty
   rw [same]
   exact empty

theorem modify (h : AstHeap) (a v : ℕ) {f : AstObject → AstObject}
 (same : ∀ o, (f o).type = o.type ∧ (f o).integerValue = o.integerValue ∧
  (f o).stringValue = o.stringValue ∧ (f o).arraySize = o.arraySize)
 (children : ∀ o, (f o).children = o.children) : SameValue h (h.modify a f) v where
 type := modify_keep AstObject.type (fun o => (same o).1) h a v
 integerValue := modify_keep AstObject.integerValue (fun o => (same o).2.1) h a v
 stringValue := modify_keep AstObject.stringValue (fun o => (same o).2.2.1) h a v
 arraySize := modify_keep AstObject.arraySize (fun o => (same o).2.2.2) h a v
 children _ empty := (modify_keep AstObject.children children h a v).trans empty

theorem separate (h : AstHeap) (a v : ℕ) : SameValue h (h.separate a) v where
 type := separate_keep AstObject.type (fun _ _ => rfl) h a v
 integerValue := separate_keep AstObject.integerValue (fun _ _ => rfl) h a v
 stringValue := separate_keep AstObject.stringValue (fun _ _ => rfl) h a v
 arraySize := separate_keep AstObject.arraySize (fun _ _ => rfl) h a v
 children _ empty := List.eq_nil_of_subset_nil (empty ▸ (separate_sublist h a v).subset)

theorem remove (h : AstHeap) (a v : ℕ) : SameValue h (h.remove a) v where
 type := remove_keep AstObject.type (fun _ _ => rfl) h a v
 integerValue := remove_keep AstObject.integerValue (fun _ _ => rfl) h a v
 stringValue := remove_keep AstObject.stringValue (fun _ _ => rfl) h a v
 arraySize := remove_keep AstObject.arraySize (fun _ _ => rfl) h a v
 children _ empty := List.eq_nil_of_subset_nil (empty ▸ (remove_sublist h a v).subset)

theorem addChild (h : AstHeap) {a c v : ℕ} (other : v ≠ a ∨ (h.get a).type = .confNode) :
 SameValue h (h.addChild a c) v where
 type := addChild_keep AstObject.type (fun _ _ => rfl) (fun _ _ => rfl) h a c v
 integerValue := addChild_keep AstObject.integerValue (fun _ _ => rfl) (fun _ _ => rfl) h a c v
 stringValue := addChild_keep AstObject.stringValue (fun _ _ => rfl) (fun _ _ => rfl) h a c v
 arraySize := addChild_keep AstObject.arraySize (fun _ _ => rfl) (fun _ _ => rfl) h a c v
 children notNode empty := by
  have here : a ≠ v := by
   rintro rfl
   exact other.elim (fun ne => ne rfl) notNode
  refine (modify_keep AstObject.children (f := fun o => o.setParent a) (fun _ => rfl) _ c v).trans ?_
  rw [get_modify_ne h here]
  exact empty

end SameValue

/-- From `h` to `h'`, value objects are overwritten as the list says. -/
structure Writes (h h' : AstHeap) (list : List Overwrite) : Prop where
 size_le : h.size ≤ h'.size
 inside : ∀ e ∈ list, e.before.size ≤ h'.size
 type : ∀ v < h.size, (h'.get v).type = (h.get v).type
 frame : ∀ v < h.size, (∀ e ∈ list, e.value ≠ v) → SameValue h h' v
 last : ∀ pre e post, list = pre ++ e :: post → (∀ e' ∈ post, e'.value ≠ e.value) →
  e.value < e.before.size → ∃ h₁, overwriteValue e.before e.value e.source = .ok h₁ ∧
   SameValue h₁ h' e.value

theorem overwriteValue_type {h h' : AstHeap} {v src : ℕ} (run : overwriteValue h v src = .ok h')
 (o : ℕ) : (h'.get o).type = (h.get o).type := by
 unfold overwriteValue at run
 split_ifs at run
 · cases run
   exact modify_keep AstObject.type (f := fun o => o.setChildren []) (fun _ => rfl) h v o
 · cases run
   exact modify_keep AstObject.type (f := fun o => { o with
    integerValue := (h.get src).integerValue, stringValue := (h.get src).stringValue })
    (fun _ => rfl) h v o

theorem overwriteValue_ne {h h' : AstHeap} {v src o : ℕ} (run : overwriteValue h v src = .ok h')
 (ne : v ≠ o) : h'.get o = h.get o := by
 unfold overwriteValue at run
 split_ifs at run
 · cases run
   exact get_modify_ne h ne _
 · cases run
   exact get_modify_ne h ne _

namespace Writes

variable {h h₁ h' : AstHeap} {list list' : List Overwrite}

theorem nil (size_le : h.size ≤ h'.size) (same : ∀ v < h.size, SameValue h h' v) :
 Writes h h' [] where
 size_le := size_le
 inside := by simp
 type v hv := (same v hv).type
 frame v hv _ := same v hv
 last pre e post split := by simp at split

theorem refl (h : AstHeap) : Writes h h [] := nil le_rfl fun v _ => SameValue.refl h v

theorem single {v src : ℕ} (run : overwriteValue h v src = .ok h') :
 Writes h h' [⟨h, v, src⟩] where
 size_le := (overwriteValue_size run).ge
 inside := by
  intro e he
  obtain rfl := List.mem_singleton.mp he
  exact (overwriteValue_size run).ge
 type o _ := overwriteValue_type run o
 frame o _ other := SameValue.of_get (overwriteValue_ne run (other _ List.mem_cons_self))
 last pre e post split _ _ := by
  obtain ⟨-, same⟩ := List.append_eq_singleton_iff.mp split.symm |>.resolve_right fun both =>
   List.cons_ne_nil _ _ both.2
  cases same
  exact ⟨h', run, SameValue.refl h' v⟩

theorem append (first : Writes h h₁ list) (second : Writes h₁ h' list') :
 Writes h h' (list ++ list') where
 size_le := first.size_le.trans second.size_le
 inside := by
  intro e he
  rcases List.mem_append.mp he with he | he
  · exact (first.inside e he).trans second.size_le
  · exact second.inside e he
 type v hv := (second.type v (hv.trans_le first.size_le)).trans (first.type v hv)
 frame v hv other :=
  (first.frame v hv fun e he => other e (List.mem_append_left _ he)).trans
   (second.frame v (hv.trans_le first.size_le) fun e he => other e (List.mem_append_right _ he))
 last pre e post split later hv := by
  rcases List.append_eq_append_iff.mp split with ⟨front, rfl, behind⟩ | ⟨rest, rfl, behind⟩
  · exact second.last front e post behind later hv
  · cases rest with
    | nil => exact second.last [] e post behind.symm later hv
    | cons e' rest =>
     obtain ⟨rfl, rfl⟩ := List.cons.inj behind
     obtain ⟨h₂, run, same⟩ := first.last pre e rest rfl
      (fun x hx => later x (List.mem_append_left _ hx)) hv
     refine ⟨h₂, run, same.trans (second.frame _ ?_ fun x hx => later x
      (List.mem_append_right _ hx))⟩
     exact hv.trans_le (first.inside e (List.mem_append_right _ List.mem_cons_self))

end Writes

theorem buildChildren_same (fuel : ℕ) : ∀ {h h' : AstHeap} {dst : ℕ} {children : List ℕ},
 buildChildren fuel h dst children = .ok h' → h.size ≤ h'.size ∧
  ∀ v < h.size, v ≠ dst ∨ (h.get dst).type = .confNode → SameValue h h' v := by
 induction fuel with
 | zero =>
  intro h h' dst children run
  cases children with
  | nil =>
   cases run
   exact ⟨le_rfl, fun v _ _ => SameValue.refl h v⟩
  | cons child rest => cases run
 | succ fuel ih =>
  intro h h' dst children run
  cases children with
  | nil =>
   cases run
   exact ⟨le_rfl, fun v _ _ => SameValue.refl h v⟩
  | cons child rest =>
   rw [buildChildren] at run
   cases built : buildChildren fuel (h.alloc (h.get child).copied) h.size
    (h.get child).children with
   | error e => rw [built] at run; cases run
   | ok h₁ =>
    rw [built] at run
    change buildChildren fuel (h₁.addChild dst h.size) dst rest = _ at run
    obtain ⟨size₁, same₁⟩ := ih built
    obtain ⟨size₂, same₂⟩ := ih run
    rw [size_alloc] at size₁ same₁
    rw [size_addChild] at size₂ same₂
    have first : ∀ v < h.size, SameValue h h₁ v := fun v hv =>
     (SameValue.of_get (get_alloc_of_lt hv _)).trans
      (same₁ v (Nat.lt_succ_of_lt hv) (.inl (Nat.ne_of_lt hv)))
    refine ⟨by omega, fun v hv other => ?_⟩
    have node : ∀ h₂, (∀ v < h.size, SameValue h h₂ v) →
     v ≠ dst ∨ (h₂.get dst).type = .confNode := by
     intro h₂ same
     refine other.imp_right fun isNode => ?_
     rw [(same dst (lt_size_of_node isNode)).type]
     exact isNode
    have linked : SameValue h (h₁.addChild dst h.size) v :=
     (first v hv).trans (SameValue.addChild h₁ (node h₁ first))
    refine linked.trans (same₂ v (by omega) ?_)
    refine other.imp_right fun isNode => ?_
    rw [addChild_keep AstObject.type (fun _ _ => rfl) (fun _ _ => rfl),
     (first dst (lt_size_of_node isNode)).type]
    exact isNode

theorem termOverwrites_false (h : AstHeap) (dst src : ℕ) : termOverwrites h dst src false = [] := by
 unfold termOverwrites
 split
 · exact if_pos (.inl rfl)
 · rfl

theorem copyOverwrites_false (fuel : ℕ) : ∀ (h : AstHeap) (dst : ℕ) (child : Option ℕ),
 copyOverwrites fuel h dst child false = [] := by
 induction fuel with
 | zero =>
  intro h dst child
  cases child with
  | none => rfl
  | some c => rfl
 | succ fuel ih =>
  intro h dst child
  cases child with
  | none => rfl
  | some c =>
   rw [copyOverwrites, List.append_eq_nil_iff]
   constructor
   · split
     · rfl
     · rw [if_neg Bool.false_ne_true]
       split_ifs
       · exact ih _ _ _
       · exact termOverwrites_false h _ c
       · rfl
   · split
     · rfl
     · exact ih _ _ _

theorem copyTerm_writes {h h' : AstHeap} {dst src : ℕ} {overwrite : Bool}
 (run : copyTerm h dst src overwrite = .ok h') :
 Writes h h' (termOverwrites h dst src overwrite) := by
 unfold copyTerm at run
 cases overwrite with
 | false =>
  cases run
  rw [termOverwrites_false]
  exact Writes.refl h
 | true =>
  rw [if_pos rfl] at run
  unfold termOverwrites
  cases hvalue : h.child dst with
  | none =>
   rw [hvalue] at run
   cases run
  | some value =>
   cases hsrc : h.child src with
   | none =>
    rw [hvalue, hsrc] at run
    cases run
   | some srcValue =>
    rw [hvalue, hsrc] at run
    dsimp only at run ⊢
    split_ifs at run with differ
    simp only [Bool.true_eq_false, false_or, if_neg differ]
    exact Writes.single run

theorem copyNode_writes (fuel : ℕ) : ∀ {h h' : AstHeap} {dst : ℕ} {child : Option ℕ}
 {overwrite : Bool}, (h.get dst).type = .confNode →
 copyNode fuel h dst child overwrite = .ok h' →
 Writes h h' (copyOverwrites fuel h dst child overwrite) := by
 induction fuel with
 | zero =>
  intro h h' dst child overwrite isNode run
  cases child with
  | none =>
   cases run
   exact Writes.refl h
  | some c => cases run
 | succ fuel ih =>
  intro h h' dst child overwrite isNode run
  cases child with
  | none =>
   cases run
   exact Writes.refl h
  | some c =>
   rw [copyNode_succ] at run
   cases round : copyChild fuel h dst c overwrite with
   | error e => rw [round] at run; cases run
   | ok h₁ =>
    rw [round] at run
    change copyNode fuel h₁ dst (h₁.next c) overwrite = _ at run
    have go : ∀ {list}, Writes h h₁ list →
     Writes h h' (list ++ copyOverwrites fuel h₁ dst (h₁.next c) overwrite) := by
     intro list first
     refine first.append (ih ?_ run)
     rw [first.type dst (lt_size_of_node isNode)]
     exact isNode
    rw [copyOverwrites, round]
    apply go
    unfold copyChild at round
    cases found : h.lookupChild dst (h.get c).name (some (h.get c).type) with
    | none =>
     rw [found] at round
     obtain ⟨size_le, same⟩ := buildChildren_same fuel round
     exact Writes.nil size_le fun v hv => same v hv (.inr isNode)
    | some peer =>
     rw [found] at round
     dsimp only at round ⊢
     split_ifs at round ⊢ with node term write
     · exact ih (isNode_iff.mp node) round
     · exact copyTerm_writes round
     · exact Writes.single round
     · cases round
       exact Writes.refl h

theorem Writes.separate {h h' : AstHeap} {list : List Overwrite} (writes : Writes h h' list)
 (a : ℕ) : Writes h (h'.separate a) list := by
 have behind : Writes h' (h'.separate a) [] :=
  Writes.nil (size_separate h' a).ge fun v _ => SameValue.separate h' a v
 rw [← List.append_nil list]
 exact writes.append behind

theorem moveValue_writes {h h' : AstHeap} {dst : ℕ} {src : Option ℕ}
 (run : moveValue h dst src = .ok h') :
 ∃ srcValue, src = some srcValue ∧ Writes h h' [⟨h, dst, srcValue⟩] := by
 cases src with
 | none => cases run
 | some srcValue =>
  rw [moveValue] at run
  cases write : overwriteValue h dst srcValue with
  | error e => rw [write] at run; cases run
  | ok h₁ =>
   rw [write] at run
   cases run
   exact ⟨srcValue, rfl, (Writes.single write).separate srcValue⟩

theorem move_writes {fuel : ℕ} {h h' : AstHeap} {dst src : ℕ} (run : move fuel h dst src = .ok h') :
 Writes h h' (moveOverwrites fuel h dst src) := by
 unfold move at run
 unfold moveOverwrites
 split_ifs at run ⊢ with node term
 · cases copied : copyNode fuel h dst (h.child src) true with
   | error e => rw [copied] at run; cases run
   | ok h₁ =>
    rw [copied] at run
    cases run
    exact (copyNode_writes fuel (isNode_iff.mp node) copied).separate src
 · cases hvalue : h.child dst with
   | none =>
    rw [hvalue] at run
    cases run
   | some value =>
    rw [hvalue] at run
    obtain ⟨srcValue, hsrc, writes⟩ := moveValue_writes run
    rw [hsrc]
    exact writes
 · obtain ⟨srcValue, hsrc, writes⟩ := moveValue_writes run
   cases hsrc
   exact writes

theorem nodeExpandAt_writes {fuel root c : ℕ} {h h' : AstHeap}
 (run : nodeExpandAt fuel root h c = .ok h') :
 Writes h h' (nodeOverwrites fuel root h c) := by
 have none (other : ¬((h.get c).type = .confNode ∧ (h.get c).nodeType = .ref)) :
  nodeOverwrites fuel root h c = [] := if_neg other
 have isTerm_none (isTerm : (h.get c).type = .confTerm) : nodeOverwrites fuel root h c = [] :=
  none fun both => by rw [both.1] at isTerm; cases isTerm
 cases nodeCall_of_run run with
 | other notNode =>
  rw [none fun both => notNode both.1]
  exact Writes.refl h
 | node _ notRef =>
  rw [none fun both => notRef both.2]
  exact Writes.refl h
 | term isTerm =>
  rw [isTerm_none isTerm]
  exact Writes.refl h
 | removeNode _ isDelete =>
  rw [none fun both => by rw [both.2] at isDelete; cases isDelete]
  exact Writes.nil (size_remove h c).ge fun v _ => SameValue.remove h c v
 | removeTerm isTerm =>
  rw [isTerm_none isTerm]
  exact Writes.nil (size_remove h c).ge fun v _ => SameValue.remove h c v
 | @move ref _ isNode isRef hlookup elders run =>
  have moves : nodeOverwrites fuel root h c = moveOverwrites fuel h ref c := by
   rw [nodeOverwrites, if_pos ⟨isNode, isRef⟩, hlookup]
   dsimp only
   rw [elders]
  rw [moves]
  exact move_writes run
 | copy isNode isCopy hlookup elders run =>
  rw [none fun both => by rw [both.2] at isCopy; cases isCopy]
  have marked : Writes h (h.modify c fun o => { o with nodeType := .noRef }) [] :=
   Writes.nil (size_modify _ _ _).ge fun v _ =>
    SameValue.modify h c v (fun o => ⟨rfl, rfl, rfl, rfl⟩) fun o => rfl
  have copied := copyNode_writes fuel (by rw [marked.type c (lt_size_of_node isNode)]; exact isNode)
   run
  rw [copyOverwrites_false] at copied
  exact marked.append copied
 | bind isTerm =>
  rw [isTerm_none isTerm]
  exact Writes.nil (size_modify _ _ _).ge fun v _ =>
   SameValue.modify h c v (fun o => ⟨rfl, rfl, rfl, rfl⟩) fun o => rfl

theorem inheritExpandAt_writes {fuel root c : ℕ} {h h' : AstHeap}
 (run : inheritExpandAt fuel root h c = .ok h') : Writes h h' [] := by
 cases inheritCall_of_run run with
 | other => exact Writes.refl h
 | @inherit ref h₁ isNode isInherit hlookup copyRun =>
  have copied := copyNode_writes fuel isNode copyRun
  rw [copyOverwrites_false] at copied
  have counted : Writes h₁ (addSubClass h₁ c ref) [] :=
   Writes.nil (addSubClass_size h₁ c ref).ge fun v _ => {
    type := addSubClass_keep AstObject.type (fun _ _ => rfl) (fun _ _ _ => rfl) h₁ c ref v
    integerValue :=
     addSubClass_keep AstObject.integerValue (fun _ _ => rfl) (fun _ _ _ => rfl) h₁ c ref v
    stringValue :=
     addSubClass_keep AstObject.stringValue (fun _ _ => rfl) (fun _ _ _ => rfl) h₁ c ref v
    arraySize :=
     addSubClass_keep AstObject.arraySize (fun _ _ => rfl) (fun _ _ _ => rfl) h₁ c ref v
    children := fun _ empty => (addSubClass_children h₁ c ref v).trans empty }
  exact copied.append counted

def callOverwrites (fuel root : ℕ) : Pass × AstHeap × ℕ → List Overwrite
 | (.node, h, c) => nodeOverwrites fuel root h c
 | (.inherit, _, _) => []

theorem Runs.writes {fuel root : ℕ} {h h' : AstHeap} {calls : List (Pass × AstHeap × ℕ)}
 (run : Runs fuel root h calls h') : Writes h h' (calls.flatMap (callOverwrites fuel root)) := by
 induction run with
 | nil => exact Writes.refl _
 | @cons pass h h₁ h' c calls call _ ih =>
  rw [List.flatMap_cons]
  refine Writes.append ?_ ih
  cases pass with
  | node => exact nodeExpandAt_writes call
  | inherit => exact inheritExpandAt_writes call

theorem expand_writes {fuel : ℕ} {ast ast' : Ast} (run : ast.expand fuel = .ok ast') :
 Writes ast.heap ast'.heap (ast.overwrites fuel) := by
 have same : (ast.calls fuel).flatMap (callOverwrites fuel ast.astRoot) = ast.overwrites fuel := by
  rw [Ast.calls, List.flatMap_append, List.flatMap_map, List.flatMap_map, Ast.overwrites]
  have inherits : (ast.inheritCalls fuel).flatMap
   (fun call => callOverwrites fuel ast.astRoot (.inherit, call)) = [] := by
   rw [List.flatMap_eq_nil_iff]
   exact fun _ _ => rfl
  rw [inherits, List.append_nil]
  rfl
 rw [← same]
 exact (Runs.of_expand run).writes

end DriversFramework.HcAst
