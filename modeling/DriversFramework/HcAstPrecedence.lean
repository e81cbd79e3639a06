import DriversFramework.HcAstRedefine

namespace DriversFramework.HcAst

inductive Definition where
 | term (value : SourceValue)
 | node (nodeType : NodeRefType) (refPath : Str)
 deriving DecidableEq

/-- An attribute or a node, by its name and the names of the nodes around it. -/
structure Place where
 nodes : List Str
 name : Str
 isNode : Bool
 deriving DecidableEq

namespace SourceObjects

/-- The first declaration of a name. -/
def own (name : Str) (isNode : Bool) : SourceObjects → Option Definition
 | .nil => none
 | .term n value next => if n = name ∧ isNode = false then some (.term value) else own name isNode next
 | .node n nodeType refPath _ next =>
  if n = name ∧ isNode = true then some (.node nodeType refPath) else own name isNode next

def definitionIn (name : Str) (isNode : Bool) : List Str → SourceObjects → Option Definition
 | [], source => source.own name isNode
 | n :: nodes, source => (source.lookupNode n).bind (definitionIn name isNode nodes)

def definition (place : Place) (source : SourceObjects) : Option Definition :=
 source.definitionIn place.name place.isNode place.nodes

end SourceObjects

section Files

variable (parseOne : Str → Option SourceFile)

/-- The files that are read for a work list, in order. -/
inductive Reads : List Str → List Str → Prop
 | nil : Reads [] []
 | cons {src : Str} {file : SourceFile} {queue files : List Str} (parses : parseOne src = some file)
   (rest : Reads (file.includes ++ queue) files) : Reads (src :: queue) (src :: files)

def rootOf (src : Str) : Option SourceObjects := (parseOne src).bind SourceFile.root

def definitionOf (place : Place) (src : Str) : Option Definition :=
 (rootOf parseOne src).bind (SourceObjects.definition place)

def Includes (f g : Str) : Prop := ∃ file, parseOne f = some file ∧ g ∈ file.includes

def IsTop (files : List Str) (place : Place) (f : Str) : Prop :=
 f ∈ files ∧ (definitionOf parseOne place f).isSome ∧
  ∀ g ∈ files, Relation.TransGen (Includes parseOne) g f → definitionOf parseOne place g = none

/-- What the merged tree has at a place is the definition of a file that no other one that
defines it includes. -/
def IncluderWins (files : List Str) (place : Place) (source : SourceObjects) : Prop :=
 ∀ f ∈ files, (definitionOf parseOne place f).isSome →
  ∃ top, IsTop parseOne files place top ∧
   source.definition place = definitionOf parseOne place top

def LastDefines (files : List Str) (place : Place) (f : Str) : Prop :=
 (definitionOf parseOne place f).isSome ∧ ∃ front back, files = front ++ f :: back ∧
  ∀ g ∈ back, definitionOf parseOne place g = none

/-- The last file, with the main one behind all others, says the same as one at the top. -/
def LastIsTop (main : Str) (files : List Str) (place : Place) : Prop :=
 ∀ f, LastDefines parseOne (files ++ [main]) place f →
  ∃ top, IsTop parseOne (main :: files) place top ∧
   definitionOf parseOne place f = definitionOf parseOne place top

end Files

namespace SourceObjects

variable {name n : Str} {isNode : Bool} {value : SourceValue} {nodeType : NodeRefType} {refPath : Str}
  {child src dst : SourceObjects} {mergeChild : SourceObjects → SourceObjects}

theorem own_mergeTerm (dst : SourceObjects) :
  (dst.mergeTerm n value).own name isNode =
   if n = name ∧ isNode = false then some (.term value) else dst.own name isNode := by
 induction dst with
 | nil => rfl
 | term m v next ih =>
  rw [mergeTerm]
  by_cases same : m = n
  · subst same
    rw [if_pos rfl, own, own]
    split_ifs <;> rfl
  rw [if_neg same, own, own, ih]
  split_ifs with first second
  · exact absurd (first.1.trans second.1.symm) same
  · rfl
  · rfl
  · rfl
 | node m t r c next _ ih =>
  rw [mergeTerm, own, own, ih]
  split_ifs with first second
  · rw [first.2] at second
    cases second.2
  · rfl
  · rfl
  · rfl

theorem lookupNode_mergeTerm (dst : SourceObjects) :
  (dst.mergeTerm n value).lookupNode name = dst.lookupNode name := by
 induction dst with
 | nil => rfl
 | term m v next ih =>
  rw [mergeTerm]
  split_ifs
  · rfl
  · exact ih
 | node m t r c next _ ih =>
  rw [mergeTerm, lookupNode, lookupNode, ih]

theorem own_mergeNode (dst : SourceObjects) :
  (mergeNode n nodeType refPath child mergeChild dst).own name isNode =
   if n = name ∧ isNode = true then some (.node nodeType refPath) else dst.own name isNode := by
 induction dst with
 | nil => rfl
 | term m v next ih =>
  rw [mergeNode, own, own, ih]
  split_ifs with first second
  · rw [first.2] at second
    cases second.2
  · rfl
  · rfl
  · rfl
 | node m t r c next _ ih =>
  rw [mergeNode]
  by_cases same : m = n
  · subst same
    rw [if_pos rfl, own, own]
    split_ifs <;> rfl
  rw [if_neg same, own, own, ih]
  split_ifs with first second
  · exact absurd (first.1.trans second.1.symm) same
  · rfl
  · rfl
  · rfl

theorem lookupNode_mergeNode (dst : SourceObjects) :
  (mergeNode n nodeType refPath child mergeChild dst).lookupNode name =
   if n = name then some ((dst.lookupNode name).elim child mergeChild)
   else dst.lookupNode name := by
 induction dst with
 | nil => rfl
 | term m v next ih => exact ih
 | node m t r c next _ ih =>
  rw [mergeNode]
  by_cases same : m = n
  · subst same
    rw [if_pos rfl, lookupNode, lookupNode]
    split_ifs <;> rfl
  rw [if_neg same, lookupNode, lookupNode, ih]
  split_ifs with first second
  · exact absurd (first.trans second.symm) same
  · rfl
  · rfl
  · rfl

theorem own_eq_none (absent : name ∉ src.names) : src.own name isNode = none := by
 induction src with
 | nil => rfl
 | term m v next ih | node m t r c next _ ih =>
  rw [names, List.mem_cons, not_or] at absent
  rw [own, if_neg fun both => absent.1 both.1.symm, ih absent.2]

theorem lookupNode_eq_none (absent : name ∉ src.names) : src.lookupNode name = none := by
 induction src with
 | nil => rfl
 | term m v next ih =>
  rw [names, List.mem_cons, not_or] at absent
  exact ih absent.2
 | node m t r c next _ ih =>
  rw [names, List.mem_cons, not_or] at absent
  rw [lookupNode, if_neg fun same => absent.1 same.symm, ih absent.2]

theorem merge_own (distinct : src.names.Nodup) : ∀ dst : SourceObjects,
  (dst.merge src).own name isNode = (src.own name isNode).or (dst.own name isNode) := by
 induction src with
 | nil => exact fun dst => rfl
 | term m v next ih =>
  intro dst
  obtain ⟨new, distinct⟩ := List.nodup_cons.mp distinct
  rw [merge, ih distinct, own_mergeTerm, own]
  split_ifs with here
  · rw [own_eq_none (here.1 ▸ new)]
    rfl
  · rfl
 | node m t r c next _ ih =>
  intro dst
  obtain ⟨new, distinct⟩ := List.nodup_cons.mp distinct
  rw [merge, ih distinct, own_mergeNode, own]
  split_ifs with here
  · rw [own_eq_none (here.1 ▸ new)]
    rfl
  · rfl

theorem merge_lookupNode (distinct : src.names.Nodup) : ∀ dst : SourceObjects,
  (dst.merge src).lookupNode name =
   (src.lookupNode name).elim (dst.lookupNode name)
    fun child => some ((dst.lookupNode name).elim child fun c => c.merge child) := by
 induction src with
 | nil => exact fun dst => rfl
 | term m v next ih =>
  intro dst
  obtain ⟨-, distinct⟩ := List.nodup_cons.mp distinct
  rw [merge, ih distinct, lookupNode_mergeTerm]
  rfl
 | node m t r c next _ ih =>
  intro dst
  obtain ⟨new, distinct⟩ := List.nodup_cons.mp distinct
  rw [merge, ih distinct, lookupNode_mergeNode, lookupNode]
  split_ifs with here
  · rw [lookupNode_eq_none (here ▸ new)]
    rfl
  · rfl

theorem uniqueNames_child (unique : src.UniqueNames) (found : src.lookupNode name = some child) :
  child.UniqueNames := by
 obtain ⟨-, below⟩ := unique
 induction src with
 | nil => cases found
 | term m v next ih => exact ih found below
 | node m t r c next _ ih =>
  obtain ⟨distinct, inner, behind⟩ := below
  rw [lookupNode] at found
  split_ifs at found
  · cases found
    exact ⟨distinct, inner⟩
  · exact ih found behind

theorem merge_definitionIn (nodes : List Str) : ∀ {src : SourceObjects} (dst : SourceObjects),
  src.UniqueNames → (dst.merge src).definitionIn name isNode nodes =
   (src.definitionIn name isNode nodes).or (dst.definitionIn name isNode nodes) := by
 induction nodes with
 | nil => exact fun dst unique => merge_own unique.1 dst
 | cons n nodes ih =>
  intro src dst unique
  rw [definitionIn, definitionIn, definitionIn, merge_lookupNode unique.1]
  cases found : src.lookupNode n with
  | none => rfl
  | some child =>
   cases old : dst.lookupNode n with
   | none =>
    change definitionIn name isNode nodes child = (definitionIn name isNode nodes child).or none
    rw [Option.or_none]
   | some c => exact ih c (uniqueNames_child unique found)

end SourceObjects

variable {parseOne : Str → Option SourceFile} {place : Place} {main f : Str} {files : List Str}
  {source : SourceObjects} {fuel : ℕ}

def lastDefinition (place : Place) (roots : List (Option SourceObjects)) : Option Definition :=
 roots.reverse.findSome? fun root => root.bind (SourceObjects.definition place)

theorem lastDefinition_cons (root : Option SourceObjects) (roots : List (Option SourceObjects)) :
  lastDefinition place (root :: roots) =
   (lastDefinition place roots).or (root.bind (SourceObjects.definition place)) := by
 rw [lastDefinition, List.reverse_cons, List.findSome?_append]
 cases h : root.bind (SourceObjects.definition place) with
 | none | some d => rw [List.findSome?_cons, h]; rfl

theorem mergeRoot_definition {astRoot root : Option SourceObjects}
  (checked : redefineCheckFile fuel root = .ok ()) :
  (mergeRoot astRoot root).bind (SourceObjects.definition place) =
   (root.bind (SourceObjects.definition place)).or
    (astRoot.bind (SourceObjects.definition place)) := by
 cases astRoot with
 | none =>
  change root.bind _ = (root.bind _).or none
  rw [Option.or_none]
 | some dst =>
  cases root with
  | none => rfl
  | some src =>
   exact SourceObjects.merge_definitionIn place.nodes dst (unique_of_redefineCheckFile checked)

theorem mergeAsts_definition {merged : Option SourceObjects} :
  ∀ (roots : List (Option SourceObjects)) {astRoot : Option SourceObjects},
   mergeAsts fuel astRoot roots = .ok merged →
   merged.bind (SourceObjects.definition place) = (lastDefinition place roots).or
    (astRoot.bind (SourceObjects.definition place)) := by
 intro roots
 induction roots with
 | nil =>
  intro astRoot run
  cases run
  rfl
 | cons root roots ih =>
  intro astRoot run
  rw [mergeAsts] at run
  cases checked : redefineCheckFile fuel root with
  | error e =>
   rw [checked] at run
   cases run
  | ok u =>
   rw [checked] at run
   rw [ih run, mergeRoot_definition checked, lastDefinition_cons, Option.or_assoc]

theorem mergeAst_definition {merged : Option SourceObjects} {roots : List (Option SourceObjects)}
  (run : mergeAst fuel roots.head?.join roots.tail = .ok merged) :
  merged.bind (SourceObjects.definition place) = lastDefinition place roots := by
 rw [mergeAst] at run
 cases checked : redefineCheckFile fuel roots.head?.join with
 | error e =>
  rw [checked] at run
  cases run
 | ok u =>
  rw [checked] at run
  rw [mergeAsts_definition roots.tail run]
  cases roots with
  | nil => rfl
  | cons root roots => exact (lastDefinition_cons root roots).symm

theorem Reads.roots {queue : List Str} (reads : Reads parseOne queue files) :
  ∀ {fuel : ℕ} {astList : List (Option SourceObjects)},
   readSources parseOne fuel queue = .ok astList → astList = files.map (rootOf parseOne) := by
 induction reads with
 | nil =>
  intro fuel astList run
  rw [readSources] at run
  cases run
  rfl
 | @cons src file queue files parses _ ih =>
  intro fuel astList run
  cases fuel with
  | zero => cases run
  | succ fuel =>
   rw [readSources, parses] at run
   dsimp only at run
   cases rest : readSources parseOne fuel (file.includes ++ queue) with
   | error e =>
    rw [rest] at run
    cases run
   | ok astList' =>
    rw [rest] at run
    cases run
    rw [ih rest, List.map_cons, rootOf, parses]
    rfl

theorem parseMerged_definition (reads : Reads parseOne [main] (main :: files))
  (merged : parseMerged parseOne fuel main = .ok (some source)) :
  source.definition place = (files ++ [main]).reverse.findSome? (definitionOf parseOne place) := by
 rw [parseMerged] at merged
 cases read : readSources parseOne fuel [main] with
 | error e =>
  rw [read] at merged
  cases merged
 | ok astList =>
  rw [read] at merged
  have same := reads.roots read
  have last : (some source).bind (SourceObjects.definition place) = lastDefinition place _ :=
   mergeAst_definition merged
  change source.definition place = _ at last
  rw [last, same, List.map_cons, lastDefinition, mainLast, List.tail_cons, List.head?_cons,
   Option.toList_some]
  change ((files.map (rootOf parseOne)) ++ [main].map (rootOf parseOne)).reverse.findSome? _ = _
  rw [← List.map_append, ← List.map_reverse, List.findSome?_map]
  rfl

theorem LastDefines.found (last : LastDefines parseOne files place f) :
  files.reverse.findSome? (definitionOf parseOne place) = definitionOf parseOne place f := by
 obtain ⟨some, front, back, rfl, none⟩ := last
 obtain ⟨d, here⟩ := Option.isSome_iff_exists.mp some
 rw [here, List.findSome?_eq_some_iff]
 refine ⟨back.reverse, f, front.reverse, by simp, here, fun g mem => none g ?_⟩
 exact List.mem_reverse.mp mem

theorem exists_last (mem : f ∈ files) (some : (definitionOf parseOne place f).isSome) :
  ∃ g, LastDefines parseOne files place g := by
 have found : (files.reverse.findSome? (definitionOf parseOne place)).isSome := by
  rw [List.findSome?_isSome_iff]
  exact ⟨f, List.mem_reverse.mpr mem, some⟩
 obtain ⟨d, found⟩ := Option.isSome_iff_exists.mp found
 obtain ⟨front, g, back, split, here, none⟩ := List.findSome?_eq_some_iff.mp found
 refine ⟨g, by rw [here]; rfl, back.reverse, front.reverse, ?_, fun h mem => none h ?_⟩
 · rw [← List.reverse_reverse files, split]
   simp
 · exact List.mem_reverse.mp mem

/-- Files override what they include exactly where the last file that is merged says what one
does that no other one includes. -/
theorem includer_wins_iff (reads : Reads parseOne [main] (main :: files))
    (merged : parseMerged parseOne fuel main = .ok (some source)) (place : Place) :
    IncluderWins parseOne (main :: files) place source ↔ LastIsTop parseOne main files place := by
  have value : source.definition place = _ := parseMerged_definition reads merged
  have order : ∀ f, f ∈ files ++ [main] ↔ f ∈ main :: files := fun f => by
    rw [List.mem_append, List.mem_singleton, List.mem_cons, or_comm]
  constructor
  · intro wins f last
    have mem : f ∈ files ++ [main] := by
      obtain ⟨-, front, back, split, -⟩ := last
      rw [split]
      exact List.mem_append_right _ List.mem_cons_self
    obtain ⟨top, isTop, same⟩ := wins f ((order f).mp mem) last.1
    rw [value, last.found] at same
    exact ⟨top, isTop, same⟩
  · intro lastIsTop f mem some
    obtain ⟨g, last⟩ := exists_last ((order f).mpr mem) some
    obtain ⟨top, isTop, same⟩ := lastIsTop g last
    refine ⟨top, isTop, ?_⟩
    rw [value, last.found, same]

/-- `a` includes `b`, and `b`, where `x` is 1, includes `c`, where `x` is 2. -/
def nestedFile (src : Str) : Option SourceFile :=
 if src = [0x61] then some ⟨[[0x62]], some .nil⟩
 else if src = [0x62] then some ⟨[[0x63]], some (.term [0x78] (.number 1) .nil)⟩
 else if src = [0x63] then some ⟨[], some (.term [0x78] (.number 2) .nil)⟩
 else none

theorem nestedFile_reads : Reads nestedFile [[0x62]] [[0x62], [0x63]] :=
 .cons rfl (.cons rfl .nil)

theorem nestedFile_merged :
  parseMerged nestedFile 5 [0x62] = .ok (some (.term [0x78] (.number 1) .nil)) := by
 decide

/-- With `b` as the main file its definition stays. -/
theorem includer_wins_iff_nested :
    IncluderWins nestedFile [[0x62], [0x63]] ⟨[], [0x78], false⟩ (.term [0x78] (.number 1) .nil) ↔
      LastIsTop nestedFile [0x62] [[0x63]] ⟨[], [0x78], false⟩ :=
  includer_wins_iff nestedFile_reads nestedFile_merged ⟨[], [0x78], false⟩

/-- With `a` as the main file that of `c` does. -/
theorem included_overrides :
    parseMerged nestedFile 5 [0x61] = .ok (some (.term [0x78] (.number 2) .nil)) ∧
      ¬IncluderWins nestedFile [[0x61], [0x62], [0x63]] ⟨[], [0x78], false⟩
        (.term [0x78] (.number 2) .nil) := by
  refine ⟨by decide, fun wins => ?_⟩
  obtain ⟨top, ⟨mem, -, alone⟩, same⟩ := wins [0x62] (by decide) (by decide)
  have includes : Relation.TransGen (Includes nestedFile) [0x62] [0x63] :=
    .single ⟨_, rfl, List.mem_cons_self⟩
  rcases List.mem_cons.mp mem with rfl | mem
  · exact absurd same (by decide)
  rcases List.mem_cons.mp mem with rfl | mem
  · exact absurd same (by decide)
  · rw [List.mem_singleton.mp mem] at alone
    exact absurd (alone [0x62] (by decide) includes) (by decide)

end DriversFramework.HcAst
