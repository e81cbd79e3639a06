import Mathlib.Data.List.Perm.Subperm
import DriversFramework.HcsRejected
import DriversFramework.HcsRoundTrip

/-! `HcsGetNodeByMatchAttr` over any tree. `TraverseTreeNode` climbs to the next sibling of any
ancestor, also to those of the node that the search started at. -/
namespace DriversFramework.Hcs

open ByteCodec HcGen

def takes (align : Bool) (blob : List UInt8) (nodes : List DeviceResourceNode)
  (attrValue : List UInt8) (i : ℕ) : Bool :=
 (nodes[i]?).any fun node => (getAttrValueInNode align blob node attrValue).isSome

inductive NodeForest where
 | nil
 | node (i : ℕ) (child next : NodeForest)
 deriving DecidableEq

namespace NodeForest

def heads : NodeForest → List ℕ
 | nil => []
 | node i _ next => i :: heads next

def order : NodeForest → List ℕ
 | nil => []
 | node i child next => i :: (order child ++ order next)

def Stands (nodes : List DeviceResourceNode) : ℕ → NodeForest → Prop
 | _, nil => True
 | parent, node i child next =>
  parent < i ∧
   (∃ n, nodes[i]? = some n ∧ n.parent = some parent ∧ n.child = heads child) ∧
   Stands nodes i child ∧ Stands nodes parent next

/-- A node of the forest, what is below it and what follows its subtree in pre-order. -/
inductive At : NodeForest → ℕ → NodeForest → List ℕ → Prop
 | here {i : ℕ} {child next : NodeForest} : At (node i child next) i child (order next)
 | inside {i j : ℕ} {child next sub : NodeForest} {after : List ℕ} (deeper : At child j sub after) :
   At (node i child next) j sub (after ++ order next)
 | beside {i j : ℕ} {child next sub : NodeForest} {after : List ℕ} (deeper : At next j sub after) :
   At (node i child next) j sub after

end NodeForest

/-- A tree in memory; `below` are the nodes under its root. -/
structure DeviceTree where
 tree : CfgTree
 below : NodeForest
 rootNode : ∃ n, tree.nodes[tree.root]? = some n ∧ n.parent = none ∧ n.child = below.heads
 stands : below.Stands tree.nodes tree.root
 distinct : (tree.root :: below.order).Nodup

def DeviceTree.whole (t : DeviceTree) : NodeForest := .node t.tree.root t.below .nil

variable {nodes : List DeviceResourceNode} {p i : ℕ} {r : Option ℕ} {n : DeviceResourceNode}
  {front rest : List ℕ} {forest sub : NodeForest} {after : List ℕ}

namespace NodeForest

theorem order_head (forest : NodeForest) : forest.order.head? = forest.heads.head? := by
 cases forest <;> rfl

theorem At.order_eq (place : forest.At i sub after) :
  ∃ front, forest.order = front ++ (i :: (sub.order ++ after)) := by
 induction place with
 | here => exact ⟨[], rfl⟩
 | @inside i j child next sub after _ ih =>
  obtain ⟨front, same⟩ := ih
  refine ⟨i :: front, ?_⟩
  rw [order, same]
  simp
 | @beside i j child next sub after _ ih =>
  obtain ⟨front, same⟩ := ih
  refine ⟨i :: (order child ++ front), ?_⟩
  rw [order, same]
  simp

theorem Stands.walk (stands : forest.Stands nodes p) (parent : nodes[p]? = some n)
  (children : n.child = front ++ forest.heads) (distinct : (front ++ forest.order).Nodup)
  (climbs : Climbs nodes p r) :
  ∀ before i rest, forest.order = before ++ i :: rest →
   nextNode nodes i = rest.head?.or r := by
 induction forest generalizing p n front r with
 | nil =>
  intro before i rest split
  simp [order] at split
 | node k child next ihChild ihNext =>
  obtain ⟨later, ⟨m, here, up, down⟩, stands, behind⟩ := stands
  have notFront : k ∉ front := by
   rw [order, List.nodup_append] at distinct
   exact fun mem => distinct.2.2 k mem k List.mem_cons_self rfl
  have climb := climbs.step later here up parent children notFront
  have inner : (order child).Nodup ∧ (order next).Nodup := by
   rw [order, List.nodup_append, List.nodup_cons, List.nodup_append] at distinct
   exact ⟨distinct.2.1.2.1, distinct.2.1.2.2.1⟩
  have nextDistinct : ((front ++ [k]) ++ order next).Nodup := by
   refine distinct.sublist ?_
   rw [List.append_assoc]
   refine List.Sublist.append_left ?_ front
   rw [order, List.singleton_append]
   exact (List.sublist_append_right _ _).cons_cons k
  have children' : n.child = (front ++ [k]) ++ next.heads := by
   rw [children, List.append_assoc]
   rfl
  intro before i rest split
  rw [order] at split
  cases before with
  | nil =>
   obtain ⟨rfl, rfl⟩ := List.cons.inj split
   rw [nextNode_eq climb here, down, List.head?_append, order_head, order_head, Option.or_assoc]
  | cons b before =>
   have split' := (List.cons.inj split).2
   rcases List.append_eq_append_iff.mp split' with ⟨more, rfl, tail⟩ | ⟨more, place, tail⟩
   · exact ihNext behind parent children' nextDistinct climbs more i rest tail
   · cases more with
     | nil =>
      exact ihNext behind parent children' nextDistinct climbs [] i rest tail.symm
     | cons c more =>
      obtain ⟨rfl, last⟩ := List.cons.inj tail
      have next := ihChild stands here (show _ = [] ++ child.heads from down) inner.1 climb
       before i more place
      rw [next, last]
      change _ = (more ++ order _).head?.or r
      rw [List.head?_append, order_head, Option.or_assoc]

end NodeForest

theorem DeviceTree.walk (t : DeviceTree) (before rest : List ℕ)
  (split : t.whole.order = before ++ i :: rest) : nextNode t.tree.nodes i = rest.head? := by
 obtain ⟨n, here, noParent, children⟩ := t.rootNode
 have climb : Climbs t.tree.nodes t.tree.root none := by
  intro rounds enough
  obtain ⟨rounds, rfl⟩ := Nat.exists_eq_succ_of_ne_zero (Nat.ne_of_gt (Nat.zero_lt_of_lt enough))
  have up : (t.tree.nodes[t.tree.root]?).bind DeviceResourceNode.parent = none := by
   rw [here]
   exact noParent
  rw [traverseTreeNode, siblingOf, up]
 have whole : t.whole.order = t.tree.root :: t.below.order := by
  rw [DeviceTree.whole, NodeForest.order, NodeForest.order, List.append_nil]
 rw [whole] at split
 cases before with
 | nil =>
  obtain ⟨rfl, rfl⟩ := List.cons.inj split
  rw [nextNode_eq climb here, children, Option.or_none, NodeForest.order_head]
 | cons b before =>
  have tail := (List.cons.inj split).2
  have next := t.stands.walk here (show _ = [] ++ t.below.heads from children)
   (List.nodup_cons.mp t.distinct).2 climb before i rest tail
  rw [next, Option.or_none]

section Search

variable (align : Bool) (blob : List UInt8) (attrValue : List UInt8)

theorem findMatch_eq (t : DeviceTree) : ∀ (rest : List ℕ) (rounds : ℕ) (before : List ℕ),
  t.whole.order = before ++ rest → rest.length ≤ rounds →
  findMatch align blob t.tree.nodes attrValue rounds rest.head? =
   rest.find? (takes align blob t.tree.nodes attrValue) := by
 intro rest
 induction rest with
 | nil =>
  intro rounds before _ _
  cases rounds <;> rfl
 | cons i rest ih =>
  intro rounds before split enough
  cases rounds with
  | zero => exact absurd enough (Nat.not_succ_le_zero _)
  | succ rounds =>
   rw [List.head?_cons, findMatch, List.find?_cons, t.walk before rest split]
   change (if takes align blob t.tree.nodes attrValue i then _ else _) = _
   cases takes align blob t.tree.nodes attrValue i with
   | true => rfl
   | false =>
    refine ih rounds (before ++ [i]) ?_ (Nat.le_of_succ_le_succ enough)
    rw [split, List.append_assoc]
    rfl

def HasMatch (nodes : List DeviceResourceNode) (i : ℕ) : Prop :=
 ∃ node ∈ nodes[i]?, ∃ attr ∈ node.attrData, stringEq blob attr.name hcsMatchAttr ∧
  hcsGetPrefix align blob attr.value = .ok configString ∧
  stringEq blob (attr.value + hcsPrefixLength align) attrValue

instance (nodes : List DeviceResourceNode) : DecidablePred (HasMatch align blob attrValue nodes) := by
 intro i
 unfold HasMatch
 infer_instance

/-- The search gives the first node of the subtree whose match attribute equals the value. -/
def MatchRight (t : DeviceTree) (node : Option ℕ) (sub : NodeForest) : Prop :=
 hcsGetNodeByMatchAttr align blob t.tree node attrValue =
  (node.getD t.tree.root :: sub.order).find? fun i => HasMatch align blob attrValue t.tree.nodes i

/-- A node of the subtree is taken and its attribute is a string, or no node is taken that is in
the subtree or behind it. -/
def MatchMeets (t : DeviceTree) (i : ℕ) (sub : NodeForest) (after : List ℕ) : Prop :=
 (∃ front a back, i :: sub.order = front ++ a :: back ∧ HasMatch align blob attrValue t.tree.nodes a ∧
  ∀ b ∈ front, takes align blob t.tree.nodes attrValue b = false) ∨
 ∀ b ∈ i :: (sub.order ++ after), takes align blob t.tree.nodes attrValue b = false

variable {align blob attrValue}

theorem HasMatch.takes {nodes : List DeviceResourceNode}
  (equal : HasMatch align blob attrValue nodes i) : takes align blob nodes attrValue i = true := by
 obtain ⟨node, here, attr, mem, name, -, value⟩ := equal
 have here : nodes[i]? = some node := here
 rw [Hcs.takes, here]
 change (getAttrValueInNode align blob node attrValue).isSome = true
 rw [getAttrValueInNode, List.find?_isSome]
 exact ⟨attr, mem, by rw [value, name]; rfl⟩

theorem DeviceTree.order_length (t : DeviceTree) : t.whole.order.length ≤ t.tree.nodes.length := by
 have whole : t.whole.order = t.tree.root :: t.below.order := by
  rw [DeviceTree.whole, NodeForest.order, NodeForest.order, List.append_nil]
 have inside : ∀ {forest : NodeForest} {p : ℕ}, forest.Stands t.tree.nodes p →
   ∀ i ∈ forest.order, i < t.tree.nodes.length := by
  intro forest
  induction forest with
  | nil => exact fun _ i mem => by cases mem
  | node k child next ihChild ihNext =>
   rintro p ⟨-, ⟨n, here, -⟩, stands, behind⟩ i mem
   rw [NodeForest.order, List.mem_cons, List.mem_append] at mem
   rcases mem with rfl | mem | mem
   · exact (List.getElem?_eq_some_iff.mp here).1
   · exact ihChild stands i mem
   · exact ihNext behind i mem
 obtain ⟨n, here, -⟩ := t.rootNode
 have subset : t.whole.order ⊆ List.range t.tree.nodes.length := by
  intro i mem
  rw [whole, List.mem_cons] at mem
  rw [List.mem_range]
  rcases mem with rfl | mem
  · exact (List.getElem?_eq_some_iff.mp here).1
  · exact inside t.stands i mem
 have distinct : t.whole.order.Nodup := by
  rw [whole]
  exact t.distinct
 have shorter := (List.subperm_of_subset distinct subset).length_le
 rw [List.length_range] at shorter
 exact shorter

/-- The search from a node is right exactly if it stops at a string inside the subtree, or nowhere
in it and behind it. -/
theorem match_right_iff (t : DeviceTree) (node : Option ℕ)
    (place : t.whole.At (node.getD t.tree.root) sub after) :
    MatchRight align blob attrValue t node sub ↔
      MatchMeets align blob attrValue t (node.getD t.tree.root) sub after := by
  obtain ⟨before, split⟩ := place.order_eq
  have enough : (node.getD t.tree.root :: (sub.order ++ after)).length ≤ t.tree.nodes.length := by
    refine Nat.le_trans ?_ t.order_length
    rw [split, List.length_append]
    exact Nat.le_add_left _ _
  have run := findMatch_eq align blob attrValue t _ _ before split enough
  rw [MatchRight, hcsGetNodeByMatchAttr, MatchMeets]
  rw [List.head?_cons] at run
  rw [run]
  generalize node.getD t.tree.root = i
  constructor
  · intro same
    cases found : (i :: sub.order).find? fun j => HasMatch align blob attrValue t.tree.nodes j with
    | none =>
      rw [found] at same
      refine .inr fun b mem => ?_
      have none := List.find?_eq_none.mp same b mem
      exact Bool.eq_false_iff.mpr none
    | some a =>
      rw [found, ← List.cons_append, List.find?_append] at same
      have here : HasMatch align blob attrValue t.tree.nodes a := by
        simpa using List.find?_some found
      have inside : ((i :: sub.order).find? (takes align blob t.tree.nodes attrValue)).isSome := by
        rw [List.find?_isSome]
        exact ⟨a, List.mem_of_find?_eq_some found, here.takes⟩
      obtain ⟨b, first⟩ := Option.isSome_iff_exists.mp inside
      rw [first] at same
      cases same
      obtain ⟨-, front, back, parts, clean⟩ := List.find?_eq_some_iff_append.mp first
      exact .inl ⟨front, a, back, parts, here, fun c mem => by simpa using clean c mem⟩
  · rintro (⟨front, a, back, parts, here, clean⟩ | idle)
    · have first : ∀ {p : ℕ → Bool} (tail : List ℕ), p a = true → (∀ b ∈ front, p b = false) →
          (front ++ a :: tail).find? p = some a := by
        intro p tail here clean
        have none : front.find? p = none :=
          List.find?_eq_none.mpr fun b mem => by rw [clean b mem]; exact Bool.false_ne_true
        rw [List.find?_append, none, Option.none_or, List.find?_cons_of_pos here]
      have whole : i :: (sub.order ++ after) = front ++ a :: (back ++ after) := by
        rw [← List.cons_append, parts, List.append_assoc]
        rfl
      rw [whole, first _ here.takes clean, parts, first _ (decide_eq_true here)]
      intro b mem
      rw [decide_eq_false_iff_not]
      intro equal
      have no := clean b mem
      rw [equal.takes] at no
      cases no
    · have nothing : (i :: (sub.order ++ after)).find? (takes align blob t.tree.nodes attrValue) = none :=
        List.find?_eq_none.mpr fun b mem => by rw [idle b mem]; exact Bool.false_ne_true
      have fewer : (i :: sub.order).find? (fun j => HasMatch align blob attrValue t.tree.nodes j) = none := by
        refine List.find?_eq_none.mpr fun b mem => ?_
        rw [decide_eq_true_eq]
        intro here
        have clean := idle b (by rw [← List.cons_append]; exact List.mem_append_left _ mem)
        rw [here.takes] at clean
        cases clean
      rw [nothing, fewer]

end Search

namespace NodeForest

/-- The nodes of a child list whose first one has the index `k`. -/
def ofObjects (k : ℕ) : ConfigObjects → NodeForest
 | .nil => nil
 | .term _ _ next => ofObjects k next
 | .node _ _ _ child next =>
  node k (ofObjects (k + 1) child) (ofObjects (k + 1 + child.nodeCount) next)

theorem ofObjects_heads (objects : ConfigObjects) : ∀ k : ℕ, (ofObjects k objects).heads = roots k objects := by
 induction objects with
 | nil => exact fun _ => rfl
 | term name value next ih => exact fun k => ih k
 | node address name type child next _ ihNext =>
  intro k
  rw [ofObjects, heads, roots, ihNext]

theorem ofObjects_order (objects : ConfigObjects) :
  ∀ k : ℕ, (ofObjects k objects).order = List.range' k objects.nodeCount := by
 induction objects with
 | nil => exact fun _ => rfl
 | term name value next ih => exact fun k => ih k
 | node address name type child next ihChild ihNext =>
  intro k
  rw [ofObjects, order, ihChild, ihNext, ConfigObjects.nodeCount, Nat.add_assoc 1, Nat.add_comm 1,
   List.range'_succ, ← List.range'_append_1]

theorem ofObjects_stands {align : Bool} {treeStart : ℕ} {objects : ConfigObjects} :
  ∀ {p k offset : ℕ}, Laid align treeStart nodes p k offset objects → p < k →
   (ofObjects k objects).Stands nodes p := by
 induction objects with
 | nil => exact fun _ _ => trivial
 | term name value next ih => exact fun laid before => ih laid before
 | node address name type child next ihChild ihNext =>
  rintro p k offset ⟨here, below, behind⟩ before
  exact ⟨before, ⟨_, here, rfl, (ofObjects_heads child (k + 1)).symm⟩,
   ihChild below (Nat.lt_succ_self k), ihNext behind (by omega)⟩

end NodeForest

/-- The tree that `HcsDecompile` builds from the byte code of a root node. -/
def treeOfObjects (align : Bool) (treeStart : ℕ) (name : Text) (child : ConfigObjects) : DeviceTree where
 tree := ⟨builtNodes align treeStart name child, 0⟩
 below := .ofObjects 1 child
 rootNode := ⟨_, builtNodes_root, rfl, (NodeForest.ofObjects_heads child 1).symm⟩
 stands := NodeForest.ofObjects_stands builtNodes_laid Nat.one_pos
 distinct := by
  rw [NodeForest.ofObjects_order, List.nodup_cons, List.mem_range'_1]
  exact ⟨fun both => Nat.not_succ_le_zero 0 both.1, List.nodup_range'⟩

/-- The name `match_attr` and, at 11, the string `x`. -/
def matchBlob : List UInt8 := hcsMatchAttr ++ [0, 0x14, 120, 0]

/-- A root with a plain node and one with the match attribute. -/
def matchTree : DeviceTree where
 tree := ⟨[⟨0, 0, [], none, [1, 2]⟩, ⟨0, 0, [], some 0, []⟩, ⟨0, 0, [⟨0, 11⟩], some 0, []⟩], 0⟩
 below := .node 1 .nil (.node 2 .nil .nil)
 rootNode := ⟨_, rfl, rfl, rfl⟩
 stands := ⟨by decide, ⟨_, rfl, rfl, rfl⟩, trivial, by decide, ⟨_, rfl, rfl, rfl⟩, trivial, trivial⟩
 distinct := by decide

theorem match_right_iff_root :
    MatchRight false matchBlob [120] matchTree none (.node 1 .nil (.node 2 .nil .nil)) ↔
      MatchMeets false matchBlob [120] matchTree 0 (.node 1 .nil (.node 2 .nil .nil)) [] :=
  match_right_iff matchTree none .here

/-- From the plain node the search goes on to its sibling. -/
theorem search_leaves_subtree :
    matchTree.whole.At 1 .nil [2] ∧ ¬MatchRight false matchBlob [120] matchTree (some 1) .nil := by
  refine ⟨.inside .here, ?_⟩
  rw [MatchRight]
  decide

end DriversFramework.Hcs
