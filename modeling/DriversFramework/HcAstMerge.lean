import Mathlib.Data.List.Nodup
import DriversFramework.HcAstExpand

/-! `Parser::Parse` (`parser.cpp`) and the `Merge` functions (`ast.cpp`). The trees that
are merged hold no pointer but those to children and peers, so they are merged as
declarations, before they get a heap. -/
namespace DriversFramework.HcAst

namespace SourceObjects

def names : SourceObjects → List Str
 | .nil => []
 | .term name _ next => name :: next.names
 | .node name _ _ _ next => name :: next.names

def hasTerm (name : Str) : SourceObjects → Bool
 | .nil => false
 | .term n _ next => n = name || next.hasTerm name
 | .node _ _ _ _ next => next.hasTerm name

def lookupNode (name : Str) : SourceObjects → Option SourceObjects
 | .nil => none
 | .term _ _ next => next.lookupNode name
 | .node n _ _ child next => if n = name then some child else next.lookupNode name

/-- One round of `ConfigNode::Merge` for a term: `ConfigTerm::Merge`, or a new child. -/
def mergeTerm (name : Str) (value : SourceValue) : SourceObjects → SourceObjects
 | .nil => .term name value .nil
 | .term n v next =>
  if n = name then .term n value next else .term n v (next.mergeTerm name value)
 | .node n nodeType refPath child next => .node n nodeType refPath child (next.mergeTerm name value)

/-- One round of `ConfigNode::Merge` for a node: a merge of its children, or a new child.
The type of the node is compared with the token `DELETE`, which is no node type, so a
node that deletes is merged like any other. -/
def mergeNode (name : Str) (nodeType : NodeRefType) (refPath : Str) (child : SourceObjects)
  (mergeChild : SourceObjects → SourceObjects) : SourceObjects → SourceObjects
 | .nil => .node name nodeType refPath child .nil
 | .term n v next => .term n v (mergeNode name nodeType refPath child mergeChild next)
 | .node n t r c next =>
  if n = name then .node n nodeType refPath (mergeChild c) next
  else .node n t r c (mergeNode name nodeType refPath child mergeChild next)

/-- The loop of `ConfigNode::Merge` over the children of the other node. -/
def merge : SourceObjects → SourceObjects → SourceObjects
 | dst, .nil => dst
 | dst, .term name value next => merge (dst.mergeTerm name value) next
 | dst, .node name nodeType refPath child next =>
  merge (mergeNode name nodeType refPath child (fun c => merge c child) dst) next

def isNew (name : Str) (names : List Str) : Bool := name ∉ names

theorem isNew_iff {name : Str} {names : List Str} : isNew name names = true ↔ name ∉ names :=
 decide_eq_true_iff

/-- Is every child that `merge` adds the first of its name where it is added? -/
def mergeFits : SourceObjects → SourceObjects → Bool
 | _, .nil => true
 | dst, .term name value next =>
  (dst.hasTerm name || isNew name dst.names) && mergeFits (dst.mergeTerm name value) next
 | dst, .node name nodeType refPath child next =>
  ((dst.lookupNode name).elim (isNew name dst.names) fun c => mergeFits c child) &&
   mergeFits (mergeNode name nodeType refPath child (fun c => merge c child) dst) next

def UniqueBelow : SourceObjects → Prop
 | .nil => True
 | .term _ _ next => next.UniqueBelow
 | .node _ _ _ child next => child.names.Nodup ∧ child.UniqueBelow ∧ next.UniqueBelow

def UniqueNames (source : SourceObjects) : Prop := source.names.Nodup ∧ source.UniqueBelow

end SourceObjects

/-- What `ParseOne` makes of a file: the paths it includes, and its root node. -/
structure SourceFile where
 includes : List Str
 root : Option SourceObjects
 deriving DecidableEq

/-- The loop of `Parse` over `srcQueue_`. What a file includes is read right behind it. -/
def readSources (parseOne : Str → Option SourceFile) :
  ℕ → List Str → Except Stop (List (Option SourceObjects))
 | _, [] => .ok []
 | 0, _ :: _ => .error .noReturn
 | fuel + 1, src :: srcQueue =>
  match parseOne src with
  | none => .error .returnsFalse
  | some file => do
   let astList ← readSources parseOne fuel (file.includes ++ srcQueue)
   return file.root :: astList

/-- `RedefineCheck` of the tree of a file. A file without a root node has nothing to walk. -/
def redefineCheckFile (fuel : ℕ) : Option SourceObjects → Except Stop Unit
 | none => .ok ()
 | some source => do
  let _ ← (Ast.ofSource false source).redefineCheck fuel
  return ()

/-- The root that `Ast::Merge` has after one more tree. -/
def mergeRoot : Option SourceObjects → Option SourceObjects → Option SourceObjects
 | none, root => root
 | some astRoot, none => some astRoot
 | some astRoot, some root => some (astRoot.merge root)

def mergeAsts (fuel : ℕ) :
  Option SourceObjects → List (Option SourceObjects) → Except Stop (Option SourceObjects)
 | astRoot, [] => .ok astRoot
 | astRoot, root :: astList => do
  redefineCheckFile fuel root
  mergeAsts fuel (mergeRoot astRoot root) astList

def mergeAst (fuel : ℕ) (astRoot : Option SourceObjects) (astList : List (Option SourceObjects)) :
  Except Stop (Option SourceObjects) := do
 redefineCheckFile fuel astRoot
 mergeAsts fuel astRoot astList

def mainLast (astList : List (Option SourceObjects)) : List (Option SourceObjects) :=
 astList.tail ++ astList.head?.toList

/-- The files of `sourceName`, merged. -/
def parseMerged (parseOne : Str → Option SourceFile) (fuel : ℕ) (sourceName : Str) :
  Except Stop (Option SourceObjects) := do
 let astList ← readSources parseOne fuel [sourceName]
 mergeAst fuel (mainLast astList).head?.join (mainLast astList).tail

/-- `Parser::Parse`. The tree has been checked for redefinitions when it is expanded. -/
def parse (parseOne : Str → Option SourceFile) (fuel : ℕ) (sourceName : Str) :
  Except Stop Ast := do
 match ← parseMerged parseOne fuel sourceName with
 | none => .error .returnsFalse
 | some source => (Ast.ofSource true source).expand fuel

namespace SourceObjects

section Rounds

variable {name : Str}

theorem uniqueNames_of_lookupNode {dst c : SourceObjects} (hdst : dst.UniqueBelow)
 (hnode : dst.lookupNode name = some c) : c.UniqueNames := by
 induction dst with
 | nil => cases hnode
 | term n v next ih => exact ih hdst hnode
 | node n t r c' next _ ih =>
  rw [lookupNode] at hnode
  split at hnode
  · cases hnode
    exact ⟨hdst.1, hdst.2.1⟩
  · exact ih hdst.2.2 hnode

theorem names_mergeTerm (value : SourceValue) (dst : SourceObjects) :
 (dst.mergeTerm name value).names =
  if dst.hasTerm name then dst.names else dst.names ++ [name] := by
 induction dst with
 | nil => rfl
 | term n v next ih =>
  by_cases hn : n = name
  · simp [mergeTerm, names, hasTerm, hn]
  · simp only [mergeTerm, hn, if_false, names, ih, hasTerm, decide_false, Bool.false_or]
    exact apply_ite (List.cons n) _ _ _
 | node n t r c next _ ih =>
  simp only [mergeTerm, names, hasTerm, ih]
  exact apply_ite (List.cons n) _ _ _

theorem uniqueBelow_mergeTerm (value : SourceValue) (dst : SourceObjects) :
 (dst.mergeTerm name value).UniqueBelow ↔ dst.UniqueBelow := by
 induction dst with
 | nil => rfl
 | term n v next ih =>
  rw [mergeTerm]
  split
  · rfl
  · exact ih
 | node n t r c next _ ih =>
  change _ ∧ _ ∧ _ ↔ _ ∧ _ ∧ _
  rw [ih]

variable {nodeType : NodeRefType} {refPath : Str} {child : SourceObjects}
 {mergeChild : SourceObjects → SourceObjects}

theorem names_mergeNode (dst : SourceObjects) :
 (mergeNode name nodeType refPath child mergeChild dst).names =
  if (dst.lookupNode name).isSome then dst.names else dst.names ++ [name] := by
 induction dst with
 | nil => rfl
 | term n v next ih =>
  simp only [mergeNode, names, lookupNode, ih]
  exact apply_ite (List.cons n) _ _ _
 | node n t r c next _ ih =>
  by_cases hn : n = name
  · simp [mergeNode, names, lookupNode, hn]
  · simp only [mergeNode, hn, if_false, names, lookupNode, ih]
    exact apply_ite (List.cons n) _ _ _

theorem uniqueBelow_mergeNode_new {dst : SourceObjects} (hnew : dst.lookupNode name = none) :
 (mergeNode name nodeType refPath child mergeChild dst).UniqueBelow ↔
  dst.UniqueBelow ∧ child.UniqueNames := by
 induction dst with
 | nil =>
  change child.names.Nodup ∧ child.UniqueBelow ∧ True ↔ True ∧ child.UniqueNames
  rw [and_true, true_and]
  rfl
 | term n v next ih => exact ih hnew
 | node n t r c next _ ih =>
  rw [lookupNode] at hnew
  split at hnew
  · cases hnew
  · next hn =>
    rw [mergeNode, if_neg hn]
    change _ ∧ _ ∧ _ ↔ (_ ∧ _ ∧ _) ∧ _
    rw [ih hnew, and_assoc, and_assoc]

theorem uniqueBelow_mergeNode_old {dst c : SourceObjects} (hold : dst.lookupNode name = some c)
 (hunique : dst.UniqueBelow) :
 (mergeNode name nodeType refPath child mergeChild dst).UniqueBelow ↔
  (mergeChild c).UniqueNames := by
 induction dst with
 | nil => cases hold
 | term n v next ih => exact ih hold hunique
 | node n t r c' next _ ih =>
  by_cases hn : n = name
  · rw [lookupNode, if_pos hn] at hold
    cases hold
    rw [mergeNode, if_pos hn]
    exact ⟨fun h => ⟨h.1, h.2.1⟩, fun h => ⟨h.1, h.2, hunique.2.2⟩⟩
  · rw [lookupNode, if_neg hn] at hold
    rw [mergeNode, if_neg hn]
    refine ⟨fun h => (ih hold hunique.2.2).mp h.2.2, fun h => ?_⟩
    exact ⟨hunique.1, hunique.2.1, (ih hold hunique.2.2).mpr h⟩

theorem UniqueBelow.of_mergeNode (hchild : ∀ c, (mergeChild c).UniqueNames → c.UniqueNames)
 {dst : SourceObjects}
 (hmerged : (mergeNode name nodeType refPath child mergeChild dst).UniqueBelow) :
 dst.UniqueBelow := by
 induction dst with
 | nil => trivial
 | term n v next ih => exact ih hmerged
 | node n t r c next _ ih =>
  rw [mergeNode] at hmerged
  split at hmerged
  · have hc := hchild c ⟨hmerged.1, hmerged.2.1⟩
    exact ⟨hc.1, hc.2, hmerged.2.2⟩
  · exact ⟨hmerged.1, hmerged.2.1, ih hmerged.2.2⟩

theorem nodup_of_added {names : List Str} {b : Bool}
 (hnames : (if b then names else names ++ [name]).Nodup) : names.Nodup := by
 split at hnames
 · exact hnames
 · exact (List.nodup_append.mp hnames).1

theorem nodup_added_iff {names : List Str} (hnames : names.Nodup) :
 (names ++ [name]).Nodup ↔ name ∉ names := by
 rw [← List.concat_eq_append, List.nodup_concat]
 exact and_iff_left hnames

end Rounds

theorem UniqueNames.of_merge {src : SourceObjects} : ∀ {dst : SourceObjects},
 (dst.merge src).UniqueNames → dst.UniqueNames := by
 induction src with
 | nil => exact id
 | term name value next ih =>
  intro dst hmerged
  have hround := ih hmerged
  exact ⟨nodup_of_added (names_mergeTerm value dst ▸ hround.1),
   (uniqueBelow_mergeTerm value dst).mp hround.2⟩
 | node name nodeType refPath child next ihChild ih =>
  intro dst hmerged
  have hround := ih hmerged
  exact ⟨nodup_of_added (names_mergeNode dst ▸ hround.1),
   .of_mergeNode (fun c => ihChild) hround.2⟩

theorem merge_uniqueNames_iff {src : SourceObjects} : ∀ {dst : SourceObjects},
 dst.UniqueNames → src.UniqueBelow → ((dst.merge src).UniqueNames ↔ dst.mergeFits src = true) := by
 induction src with
 | nil => exact fun hdst _ => ⟨fun _ => rfl, fun _ => hdst⟩
 | term name value next ih =>
  intro dst hdst hsrc
  rw [mergeFits, Bool.and_eq_true, Bool.or_eq_true, isNew_iff]
  have round : (dst.mergeTerm name value).UniqueNames ↔
   dst.hasTerm name = true ∨ name ∉ dst.names := by
   rw [UniqueNames, names_mergeTerm, uniqueBelow_mergeTerm, and_iff_left hdst.2]
   by_cases hterm : dst.hasTerm name = true
   · rw [if_pos hterm]
     exact ⟨fun _ => .inl hterm, fun _ => hdst.1⟩
   · rw [if_neg hterm, nodup_added_iff hdst.1, or_iff_right hterm]
  rw [← round, merge]
  exact ⟨fun h => ⟨h.of_merge, (ih h.of_merge hsrc).mp h⟩, fun h => (ih h.1 hsrc).mpr h.2⟩
 | node name nodeType refPath child next ihChild ih =>
  intro dst hdst hsrc
  rw [mergeFits, Bool.and_eq_true]
  have round : (mergeNode name nodeType refPath child (fun c => merge c child) dst).UniqueNames ↔
   (dst.lookupNode name).elim (isNew name dst.names) (fun c => mergeFits c child) = true := by
   rw [UniqueNames, names_mergeNode]
   cases hnode : dst.lookupNode name with
   | none =>
    rw [uniqueBelow_mergeNode_new hnode]
    change (dst.names ++ [name]).Nodup ∧ _ ↔ isNew name dst.names = true
    rw [nodup_added_iff hdst.1, isNew_iff]
    exact and_iff_left ⟨hdst.2, hsrc.1, hsrc.2.1⟩
   | some c =>
    rw [uniqueBelow_mergeNode_old hnode hdst.2]
    change dst.names.Nodup ∧ _ ↔ _
    rw [and_iff_right hdst.1]
    exact ihChild (uniqueNames_of_lookupNode hdst.2 hnode) hsrc.2.1
  rw [← round, merge]
  exact ⟨fun h => ⟨h.of_merge, (ih h.of_merge hsrc.2.2).mp h⟩, fun h => (ih h.1 hsrc.2.2).mpr h.2⟩

end SourceObjects

end DriversFramework.HcAst
