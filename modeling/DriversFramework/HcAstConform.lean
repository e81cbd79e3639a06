import Mathlib.Data.Finset.Card
import DriversFramework.HcAstKeys
import DriversFramework.HcAstRounds

namespace DriversFramework.HcAst

open AstHeap RoundRules

/-- Each of the peers is in `template` with the same name and kind, and what stands in a peer that
is a node is in its counterpart. -/
inductive Conforms (h : AstHeap) : List ℕ → ℕ → Prop where
 | nil {template : ℕ} : Conforms h [] template
 | value {c d template : ℕ} {cs : List ℕ} (there : d ∈ (h.get template).children)
   (same : (h.get d).key = (h.get c).key) (leaf : (h.get c).type ≠ .confNode)
   (peers : Conforms h cs template) : Conforms h (c :: cs) template
 | node {c d template : ℕ} {cs : List ℕ} (there : d ∈ (h.get template).children)
   (same : (h.get d).key = (h.get c).key) (isNode : (h.get c).type = .confNode)
   (down : Conforms h (h.get c).children d) (peers : Conforms h cs template) :
   Conforms h (c :: cs) template

/-- The callback of `Ast::InheritExpand` returns, and without an error. -/
def Accepts (root : ℕ) (h : AstHeap) (node : ℕ) : Prop :=
 ∃ rounds h', inheritExpandAt rounds root h node = .ok h'

/-- What a check of `node` against `template` is to say. -/
def TemplateChecked (root : ℕ) (h : AstHeap) (node template : ℕ) : Prop :=
 Accepts root h node ↔ Conforms h (h.get node).children template

theorem ok_of_le {α : Type} {f : ℕ → Except Stop α} (more : ∀ n, More (f n) (f (n + 1))) {m n : ℕ}
  {a : α} (run : f m = .ok a) (le : m ≤ n) : f n = .ok a := by
 rw [More.of_le more le (by rw [run]; exact fun h => by cases h), run]

/-- `h'` is `h` with more children under `dst`. -/
structure Enlarges (h h' : AstHeap) (dst : ℕ) : Prop where
 size_le : h.size ≤ h'.size
 key : ∀ o < h.size, (h'.get o).key = (h.get o).key
 frame : ∀ o < h.size, ¬ Below h dst o → h'.get o = h.get o
 children : ∀ o < h.size, ∃ news, (h'.get o).children = (h.get o).children ++ news ∧
  ∀ n ∈ news, h.size ≤ n

namespace Enlarges

variable {h h₁ h' : AstHeap} {dst peer : ℕ}

theorem refl (h : AstHeap) (dst : ℕ) : Enlarges h h dst where
 size_le := le_rfl
 key _ _ := rfl
 frame _ _ _ := rfl
 children o _ := ⟨[], (List.append_nil _).symm, fun n mem => by cases mem⟩

theorem below_old (enlarges : Enlarges h h₁ dst) (linked : Linked h₁) {a o : ℕ}
  (path : Below h₁ a o) (inside : o < h.size) : Below h a o := by
 induction path with
 | refl => exact .refl h a
 | @tail p c _ child ih =>
  have older := linked.older child
  have place : p < h.size := by omega
  obtain ⟨news, grown, young⟩ := enlarges.children p place
  rw [grown] at child
  rcases List.mem_append.mp child with child | new
  · exact (ih place).step child
  · have := young c new
    omega

theorem trans (first : Enlarges h h₁ dst) (linked : Linked h₁) (second : Enlarges h₁ h' dst) :
  Enlarges h h' dst where
 size_le := first.size_le.trans second.size_le
 key o inside := (second.key o (inside.trans_le first.size_le)).trans (first.key o inside)
 frame o inside outside := by
  rw [second.frame o (inside.trans_le first.size_le) fun path =>
   outside (first.below_old linked path inside), first.frame o inside outside]
 children o inside := by
  obtain ⟨news, grown, young⟩ := first.children o inside
  obtain ⟨news', grown', young'⟩ := second.children o (inside.trans_le first.size_le)
  refine ⟨news ++ news', by rw [grown', grown, List.append_assoc], fun n mem => ?_⟩
  rcases List.mem_append.mp mem with mem | mem
  · exact young n mem
  · exact first.size_le.trans (young' n mem)

theorem mono (enlarges : Enlarges h h' peer) (child : peer ∈ (h.get dst).children) :
  Enlarges h h' dst :=
 { enlarges with
  frame := fun o inside outside =>
   enlarges.frame o inside fun path => outside ((Below.of_child child).trans path) }

theorem of_builds {cs : List ℕ} (run : Builds h dst cs h') (place : dst < h.size) :
  Enlarges h h' dst := by
 obtain ⟨keeps, frame⟩ := run.keeps
 refine ⟨keeps.size_le, fun o inside => ?_, fun o inside outside => ?_, fun o inside => ?_⟩
 · rw [AstObject.key, AstObject.key, keeps.name inside, keeps.type inside]
 · refine frame o inside ?_
   rintro rfl
   exact outside (.refl h o)
 · by_cases same : o = dst
   · obtain ⟨news, grown, -, young⟩ := run.grown place
     rw [same, grown]
     exact ⟨news, rfl, young⟩
   · rw [frame o inside same]
     exact ⟨[], (List.append_nil _).symm, fun n mem => by cases mem⟩

end Enlarges

theorem buildChildren_ends {N : ℕ} (n : ℕ) : ∀ {h : AstHeap} {dst : ℕ} {cs : List ℕ},
  (∀ p < N, ∀ c ∈ (h.get p).children, p < c ∧ c < N) → N ≤ dst → dst < h.size →
  (∀ c ∈ cs, c < N ∧ N - c ≤ n) → ∃ rounds h', buildChildren rounds h dst cs = .ok h' := by
 induction n with
 | zero =>
  intro h dst cs _ _ _ inside
  cases cs with
  | nil => exact ⟨0, h, rfl⟩
  | cons c cs =>
   have := inside c List.mem_cons_self
   omega
 | succ n ih =>
  intro h dst cs
  induction cs generalizing h with
  | nil => exact fun _ _ _ _ => ⟨0, h, rfl⟩
  | cons c cs ihCs =>
   intro closed new place inside
   obtain ⟨here, near⟩ := inside c List.mem_cons_self
   have size : (h.alloc (h.get c).copied).size = h.size + 1 := size_alloc h _
   have closed₀ : ∀ p < N, ∀ x ∈ ((h.alloc (h.get c).copied).get p).children, p < x ∧ x < N := by
    intro p lt x mem
    rw [get_alloc_of_lt (by omega)] at mem
    exact closed p lt x mem
   obtain ⟨m, h₁, run⟩ := ih closed₀ (by omega : N ≤ h.size) (by omega) fun x mem => by
    obtain ⟨older, lt⟩ := closed c here x mem
    exact ⟨lt, by omega⟩
   obtain ⟨keeps, frame⟩ := (builds_of_run m run).keeps
   have larger := keeps.size_le
   have closed₁ : ∀ p < N, ∀ x ∈ ((h₁.addChild dst h.size).get p).children, p < x ∧ x < N := by
    intro p lt x mem
    rw [addChild_ne h₁ (by omega) (by omega), frame p (by omega) (by omega),
     get_alloc_of_lt (by omega)] at mem
    exact closed p lt x mem
   obtain ⟨m', h', run'⟩ := ihCs closed₁ new (by rw [size_addChild]; omega) fun x mem =>
    inside x (List.mem_cons_of_mem c mem)
   refine ⟨max m m' + 1, h', ?_⟩
   rw [buildChildren, ok_of_le (buildChildren_more · _ _ _) run (Nat.le_max_left m m')]
   exact ok_of_le (buildChildren_more · _ _ _) run' (Nat.le_max_right m m')

variable {h : AstHeap}

theorem buildChild_ends (linked : Linked h) (dst c : ℕ) :
  ∃ rounds h', buildChildren rounds h dst [c] = .ok h' := by
 have size : (h.alloc (h.get c).copied).size = h.size + 1 := size_alloc h _
 have closed : ∀ p < h.size, ∀ x ∈ ((h.alloc (h.get c).copied).get p).children,
   p < x ∧ x < h.size := by
  intro p lt x mem
  rw [get_alloc_of_lt lt] at mem
  exact ⟨linked.older mem, linked.lt_size mem⟩
 obtain ⟨m, h₁, run⟩ := buildChildren_ends h.size closed le_rfl (by omega) fun x mem =>
  (⟨linked.lt_size mem, Nat.sub_le _ _⟩ : x < h.size ∧ h.size - x ≤ h.size)
 refine ⟨m + 1, h₁.addChild dst h.size, ?_⟩
 rw [buildChildren, run]
 cases m with
 | zero | succ m => rfl

theorem copyChild_more (fuel : ℕ) (h : AstHeap) (dst child : ℕ) (overwrite : Bool) :
  More (copyChild fuel h dst child overwrite) (copyChild (fuel + 1) h dst child overwrite) := by
 rw [copyChild, copyChild]
 cases h.lookupChild dst (h.get child).name (some (h.get child).type) with
 | none => exact buildChildren_more _ _ _ _
 | some peer =>
  dsimp only
  split
  · exact copyNode_more _ _ _ _ _
  · split
    · exact .refl _
    · split <;> exact .refl _

theorem Builds.single {h' : AstHeap} {dst c : ℕ} (run : Builds h dst [c] h')
  (keyed : KeyedTree h) (place : dst < h.size) :
  (h'.get dst).children = (h.get dst).children ++ [h.size] ∧
   (h'.get h.size).key = (h.get c).key := by
 cases run with
 | @cons _ h₁ _ _ _ _ inner rest =>
  cases rest
  have size : (h.alloc (h.get c).copied).size = h.size + 1 := size_alloc h _
  obtain ⟨keeps, frame⟩ := inner.keeps
  have larger := keeps.size_le
  have old : h₁.get dst = h.get dst := by
   rw [frame dst (by omega) (by omega), get_alloc_of_lt place]
  refine ⟨?_, ?_⟩
  · rw [addChild_children (by omega), if_pos rfl, old]
  · rw [addChild_key, AstObject.key, keeps.name (by omega), keeps.type (by omega), get_alloc_new]
    exact keyed.copied_key c

theorem AstObject.copied_key_eq (o : AstObject) :
  o.copied.key = (if o.type = .array then [] else o.name, o.type) := by
 rw [key, copied_type]
 unfold copied
 cases o.type <;> rfl

/-- The keys of all objects, and of their copies, are among `keys`. -/
def KeysIn (keys : Finset Key) (h : AstHeap) : Prop :=
 ∀ o < h.size, (h.get o).key ∈ keys ∧ (h.get o).copied.key ∈ keys

variable {keys : Finset Key}

theorem KeysIn.addChild (all : KeysIn keys h) (a c : ℕ) : KeysIn keys (h.addChild a c) := by
 intro o inside
 rw [size_addChild] at inside
 rw [AstObject.copied_key_eq, addChild_key, addChild_type, addChild_name, ← AstObject.copied_key_eq]
 exact all o inside

theorem KeysIn.alloc {c : ℕ} (all : KeysIn keys h)
  (source : c < h.size) : KeysIn keys (h.alloc (h.get c).copied) := by
 intro o inside
 rw [size_alloc] at inside
 rw [get_alloc]
 split
 · have again : (h.get c).copied.copied.key = (h.get c).copied.key := by
    have copied := AstObject.copied_key_eq (h.get c)
    have name : (h.get c).copied.name = if (h.get c).type = .array then [] else (h.get c).name :=
     congrArg Prod.fst copied
    rw [AstObject.copied_key_eq, AstObject.copied_type, copied, name]
    split <;> rfl
   rw [again]
   exact ⟨(all c source).2, (all c source).2⟩
 · exact all o (by omega)

theorem Builds.keysIn {h' : AstHeap} {dst : ℕ} {cs : List ℕ}
  (run : Builds h dst cs h') (linked : Linked h) (place : dst < h.size)
  (inside : ∀ c ∈ cs, c < h.size) (all : KeysIn keys h) : KeysIn keys h' := by
 induction run with
 | nil => exact all
 | @cons h h₁ h' dst c cs inner _ ihInner ihRest =>
  have size : (h.alloc (h.get c).copied).size = h.size + 1 := size_alloc h _
  have larger := inner.keeps.1.size_le
  have linkedAlloc := linked.alloc (AstObject.copied_children (h.get c)) (AstObject.copied_parent _)
  have all₁ := ihInner linkedAlloc (by omega) (fun x mem => (linked.lt_size mem).trans (by omega))
   (all.alloc (inside c List.mem_cons_self))
  have linked₁ : Linked (h₁.addChild dst h.size) := by
   obtain ⟨news, grown, -⟩ := inner.grown (by omega)
   refine (inner.linked linkedAlloc (by omega)).addChild place (by omega) ?_
   rw [grown, get_alloc_new]
   exact AstObject.copied_parent _
  refine ihRest linked₁ (by rw [size_addChild]; omega) (fun x mem => ?_) (all₁.addChild dst h.size)
  have := inside x (List.mem_cons_of_mem c mem)
  rw [size_addChild]
  omega

/-- The loop of `ConfigNode::Copy` that has come through the children `done` of `src`. What was
added to `dst` has the key of one of them, and nothing was added below the other children. -/
structure CopyLoop (keys : Finset Key) (N : ℕ) (h : AstHeap) (dst src : ℕ)
  (done rest : List ℕ) : Prop where
 tidy : Tidy h
 all : KeysIn keys h
 older : N ≤ h.size
 dstNode : (h.get dst).type = .confNode
 srcNode : (h.get src).type = .confNode
 source : (h.get src).children = done ++ rest
 new : ∀ x ∈ (h.get dst).children, N ≤ x → (h.get x).key ∈ done.map fun c => (h.get c).key
 untouched : ∀ y ∈ (h.get dst).children, y < N →
  (h.get y).key ∉ (done.map fun c => (h.get c).key) → ∀ x, Below h y x → x < N

namespace CopyLoop

variable {keys : Finset Key} {N dst src c peer : ℕ} {h h₁ : AstHeap} {done rest : List ℕ}

theorem mem (loop : CopyLoop keys N h dst src done (c :: rest)) : c ∈ (h.get src).children := by
 rw [loop.source]
 exact List.mem_append_right _ List.mem_cons_self

theorem inside (loop : CopyLoop keys N h dst src done (c :: rest)) {x : ℕ} (mem : x ∈ done ++ [c]) :
  x < h.size := by
 refine loop.tidy.linked.lt_size (p := src) ?_
 rw [loop.source]
 rcases List.mem_append.mp mem with mem | mem
 · exact List.mem_append_left _ mem
 · rw [List.mem_singleton.mp mem]
   exact List.mem_append_right _ List.mem_cons_self

theorem fresh (loop : CopyLoop keys N h dst src done (c :: rest)) :
  (h.get c).key ∉ done.map fun c => (h.get c).key := by
 have nodup := loop.tidy.keyed.nodup src loop.srcNode
 rw [childKeys, loop.source, List.map_append, List.map_cons] at nodup
 exact fun mem => (List.nodup_append.mp nodup).2.2 _ mem _ List.mem_cons_self rfl

theorem grown_keys (loop : CopyLoop keys N h dst src done (c :: rest))
  (key : ∀ o < h.size, (h₁.get o).key = (h.get o).key) :
  (done ++ [c]).map (fun c => (h₁.get c).key) =
   (done.map fun c => (h.get c).key) ++ [(h.get c).key] := by
 rw [List.map_congr_left fun x mem => key x (loop.inside mem), List.map_append, List.map_singleton]

theorem added (loop : CopyLoop keys N h dst src done (c :: rest))
  (lacks : h.lookupChild dst (h.get c).name (some (h.get c).type) = none)
  (run : Builds h dst [c] h₁) : CopyLoop keys N h₁ dst src (done ++ [c]) rest := by
 have place := lt_size_of_node loop.dstNode
 have source := lt_size_of_node loop.srcNode
 obtain ⟨grown, newKey⟩ := run.single loop.tidy.keyed place
 have enlarges := Enlarges.of_builds run place
 obtain ⟨keeps, frame⟩ := run.keeps
 have doneKeys := loop.grown_keys enlarges.key
 have older := loop.older
 have other : src ≠ dst := by
  rintro rfl
  exact lookupChild_eq_none_iff.mp lacks (List.mem_map_of_mem loop.mem)
 refine ⟨loop.tidy.edits (.single (.graft ⟨loop.dstNode, loop.mem, lacks, run⟩)),
  run.keysIn loop.tidy.linked place (fun x mem => ?_) loop.all, older.trans keeps.size_le,
  (keeps.type place).trans loop.dstNode, (keeps.type source).trans loop.srcNode, ?_,
  fun x mem young => ?_, fun y mem old fresh x path => ?_⟩
 · rw [List.mem_singleton.mp mem]
   exact loop.inside (List.mem_append_right _ (List.mem_singleton_self c))
 · rw [frame src source other, loop.source, List.append_assoc]
   rfl
 · rw [doneKeys]
   rw [grown] at mem
   rcases List.mem_append.mp mem with mem | mem
   · rw [enlarges.key x (loop.tidy.linked.lt_size mem)]
     exact List.mem_append_left _ (loop.new x mem young)
   · rw [List.mem_singleton.mp mem, newKey]
     exact List.mem_append_right _ (List.mem_singleton_self _)
 · rw [grown] at mem
   rcases List.mem_append.mp mem with mem | mem
   · rw [doneKeys, enlarges.key y (loop.tidy.linked.lt_size mem)] at fresh
     have below := loop.untouched y mem old fun done => fresh (List.mem_append_left _ done)
     have under := loop.tidy.linked.older mem
     have same : Below h y x := by
      induction path with
      | refl => exact .refl h y
      | @tail p x _ child ih =>
       have le := loop.tidy.linked.le_of_below ih
       rw [frame p ((below p ih).trans_le older) (by omega)] at child
       exact ih.step child
     exact below x same
   · have := List.mem_singleton.mp mem
     omega

theorem kept (loop : CopyLoop keys N h dst src done (c :: rest)) :
  CopyLoop keys N h dst src (done ++ [c]) rest where
 tidy := loop.tidy
 all := loop.all
 older := loop.older
 dstNode := loop.dstNode
 srcNode := loop.srcNode
 source := by
  rw [loop.source, List.append_assoc]
  rfl
 new x mem young := by
  rw [List.map_append]
  exact List.mem_append_left _ (loop.new x mem young)
 untouched y mem old fresh := by
  rw [List.map_append] at fresh
  exact loop.untouched y mem old fun done => fresh (List.mem_append_left _ done)

theorem down (loop : CopyLoop keys N h dst src done (c :: rest))
  (there : peer ∈ (h.get dst).children) (same : (h.get peer).key = (h.get c).key)
  (isNode : (h.get peer).type = .confNode) :
  peer < N ∧ CopyLoop keys N h peer c [] (h.get c).children := by
 have fresh : (h.get peer).key ∉ done.map fun c => (h.get c).key := by
  rw [same]
  exact loop.fresh
 have old : peer < N := by
  by_contra young
  exact fresh (loop.new peer there (by omega))
 have below := loop.untouched peer there old fresh
 have childNode : (h.get c).type = .confNode := by
  have types : (h.get peer).type = (h.get c).type := congrArg Prod.snd same
  rw [← types, isNode]
 refine ⟨old, loop.tidy, loop.all, loop.older, isNode, childNode, rfl, fun x mem young => ?_,
  fun y mem _ _ x path => below x ((Below.of_child mem).trans path)⟩
 have := below x (.of_child mem)
 omega

theorem merged (loop : CopyLoop keys N h dst src done (c :: rest))
  (there : peer ∈ (h.get dst).children) (same : (h.get peer).key = (h.get c).key)
  (tidy : Tidy h₁) (all : KeysIn keys h₁) (enlarges : Enlarges h h₁ peer) :
  ∃ more, CopyLoop keys N h₁ dst src (done ++ [c]) (rest ++ more) := by
 have place := lt_size_of_node loop.dstNode
 have source := lt_size_of_node loop.srcNode
 have older := loop.older
 have linked := loop.tidy.linked
 have doneKeys := loop.grown_keys enlarges.key
 have type : ∀ o < h.size, (h₁.get o).type = (h.get o).type := fun o inside =>
  congrArg Prod.snd (enlarges.key o inside)
 have dstSame : h₁.get dst = h.get dst := by
  refine enlarges.frame dst place fun path => ?_
  have le := linked.le_of_below path
  have lt := linked.older there
  omega
 obtain ⟨more, grown, -⟩ := enlarges.children src source
 refine ⟨more, tidy, all, older.trans enlarges.size_le, (type dst place).trans loop.dstNode,
  (type src source).trans loop.srcNode, ?_, fun x mem young => ?_, fun y mem old fresh x path => ?_⟩
 · rw [grown, loop.source]
   simp
 · rw [dstSame] at mem
   rw [doneKeys, enlarges.key x (linked.lt_size mem)]
   exact List.mem_append_left _ (loop.new x mem young)
 · rw [dstSame] at mem
   rw [doneKeys, enlarges.key y (linked.lt_size mem)] at fresh
   have below := loop.untouched y mem old fun done => fresh (List.mem_append_left _ done)
   have other : peer ≠ y := by
    rintro rfl
    exact fresh (List.mem_append_right _ (by rw [same]; exact List.mem_singleton_self _))
   have path' : Below h y x := by
    induction path with
    | refl => exact .refl h y
    | @tail p x _ child ih =>
     rw [enlarges.frame p ((below p ih).trans_le older) fun path =>
      other (linked.eq_of_siblings there mem path ih)] at child
     exact ih.step child
   exact below x path'

end CopyLoop

def CopyEnds (keys : Finset Key) (h : AstHeap) (dst : ℕ) (child : Option ℕ) : Prop :=
 ∃ rounds h', copyNode rounds h dst child false = .ok h' ∧ Tidy h' ∧ KeysIn keys h' ∧
  Enlarges h h' dst

theorem CopyLoop.round {N dst src c : ℕ} {done rest : List ℕ}
  (loop : CopyLoop keys N h dst src done (c :: rest))
  (below : ∀ peer, dst < peer → peer < N → ∀ {h : AstHeap} {src : ℕ} {rest : List ℕ},
   CopyLoop keys N h peer src [] rest → CopyEnds keys h peer rest.head?) :
  ∃ rounds h₁ more, copyChild rounds h dst c false = .ok h₁ ∧ Enlarges h h₁ dst ∧
   CopyLoop keys N h₁ dst src (done ++ [c]) (rest ++ more) := by
 cases found : h.lookupChild dst (h.get c).name (some (h.get c).type) with
 | none =>
  obtain ⟨m, h₁, run⟩ := buildChild_ends loop.tidy.linked dst c
  have builds := builds_of_run m run
  refine ⟨m, h₁, [], ?_, .of_builds builds (lt_size_of_node loop.dstNode), ?_⟩
  · rw [copyChild, found]
    exact run
  · rw [List.append_nil]
    exact loop.added found builds
 | some peer =>
  have there := peer_mem found
  have same : (h.get peer).key = (h.get c).key := by
   have named := named_iff.mp (List.find?_some found)
   rw [AstObject.key, named.1, named.2]
   rfl
  by_cases isNode : (h.get peer).isNode = true
  · obtain ⟨old, inner⟩ := loop.down there same (isNode_iff.mp isNode)
    obtain ⟨m, h₁, run, tidy, all, enlarges⟩ :=
     below peer (loop.tidy.linked.older there) old inner
    obtain ⟨more, loop₁⟩ := loop.merged there same tidy all enlarges
    refine ⟨m, h₁, more, ?_, enlarges.mono there, loop₁⟩
    rw [copyChild, found]
    change (if (h.get peer).isNode then copyNode m h peer (h.child c) false else _) = _
    rw [if_pos isNode]
    exact run
  · refine ⟨0, h, [], ?_, .refl h dst, by rw [List.append_nil]; exact loop.kept⟩
    rw [copyChild, found]
    change (if (h.get peer).isNode then _ else if (h.get peer).isTerm then
     copyTerm h peer c false else if false then _ else .ok h : Result) = _
    rw [if_neg isNode, copyTerm, if_neg Bool.false_ne_true, if_neg Bool.false_ne_true, ite_self]

theorem CopyLoop.card_lt {N dst src c : ℕ} {h₁ : AstHeap}
  {done rest : List ℕ} (loop : CopyLoop keys N h dst src done (c :: rest))
  (key : ∀ o < h.size, (h₁.get o).key = (h.get o).key) :
  (keys \ ((done ++ [c]).map fun c => (h₁.get c).key).toFinset).card <
   (keys \ (done.map fun c => (h.get c).key).toFinset).card := by
 have here := (loop.all c (loop.inside (List.mem_append_right _ (List.mem_singleton_self c)))).1
 refine Finset.card_lt_card (Finset.ssubset_iff_of_subset ?_ |>.mpr ⟨(h.get c).key, ?_, ?_⟩)
 · refine Finset.sdiff_subset_sdiff (Finset.Subset.refl _) fun x mem => ?_
   rw [loop.grown_keys key, List.mem_toFinset]
   exact List.mem_append_left _ (List.mem_toFinset.mp mem)
 · rw [Finset.mem_sdiff, List.mem_toFinset]
   exact ⟨here, loop.fresh⟩
 · rw [Finset.mem_sdiff, List.mem_toFinset, loop.grown_keys key]
   exact fun out => out.2 (List.mem_append_right _ (List.mem_singleton_self _))

theorem CopyLoop.ends {N dst : ℕ}
  (below : ∀ peer, dst < peer → peer < N → ∀ {h : AstHeap} {src : ℕ} {rest : List ℕ},
   CopyLoop keys N h peer src [] rest → CopyEnds keys h peer rest.head?) (m : ℕ) :
  ∀ {h : AstHeap} {src : ℕ} {done rest : List ℕ}, CopyLoop keys N h dst src done rest →
   (keys \ (done.map fun c => (h.get c).key).toFinset).card < m →
   CopyEnds keys h dst rest.head? := by
 induction m with
 | zero => exact fun _ few => absurd few (Nat.not_lt_zero _)
 | succ m ih =>
  intro h src done rest loop few
  cases rest with
  | nil => exact ⟨0, h, rfl, loop.tidy, loop.all, .refl h dst⟩
  | cons c rest =>
   obtain ⟨r, h₁, more, round, first, loop₁⟩ := loop.round below
   have fewer := loop.card_lt first.key
   obtain ⟨r', h', run, tidy, all, second⟩ := ih loop₁ (by omega)
   refine ⟨max r r' + 1, h', ?_, tidy, all, first.trans loop₁.tidy.linked second⟩
   have next : h₁.next c = (rest ++ more).head? :=
    loop₁.tidy.linked.next_of_children (show (h₁.get src).children = done ++ c :: (rest ++ more) by
     rw [loop₁.source, List.append_assoc]
     rfl)
   rw [List.head?_cons, copyNode_succ,
    ok_of_le (copyChild_more · h dst c false) round (Nat.le_max_left r r')]
   change copyNode (max r r') h₁ dst (h₁.next c) false = _
   rw [next]
   exact ok_of_le (copyNode_more · h₁ dst _ false) run (Nat.le_max_right r r')

theorem copyNode_ends (keys : Finset Key) (N n : ℕ) : ∀ {dst : ℕ}, N - dst ≤ n →
  ∀ {h : AstHeap} {src : ℕ} {done rest : List ℕ}, CopyLoop keys N h dst src done rest →
   CopyEnds keys h dst rest.head? := by
 induction n with
 | zero =>
  intro dst few h src done rest loop
  exact CopyLoop.ends (fun peer lt old => by omega) _ loop (Nat.lt_succ_self _)
 | succ n ih =>
  intro dst few h src done rest loop
  exact CopyLoop.ends (fun peer lt old => ih (by omega)) _ loop (Nat.lt_succ_self _)

theorem copy_ends {node template : ℕ} (tidy : Tidy h)
  (isNode : (h.get node).type = .confNode) (isTemplate : (h.get template).type = .confNode) :
  ∃ rounds h', copyNode rounds h node (h.child template) false = .ok h' ∧ Tidy h' ∧
   ∀ o < h.size, (h'.get o).type = (h.get o).type := by
 let keys := (Finset.range h.size).image (fun o => (h.get o).key) ∪
  (Finset.range h.size).image fun o => (h.get o).copied.key
 have all : KeysIn keys h := fun o inside => by
  have mem := Finset.mem_range.mpr inside
  exact ⟨Finset.mem_union_left _ (Finset.mem_image_of_mem _ mem),
   Finset.mem_union_right _ (Finset.mem_image_of_mem _ mem)⟩
 have loop : CopyLoop keys h.size h node template [] (h.get template).children := by
  refine ⟨tidy, all, le_rfl, isNode, isTemplate, rfl, fun x mem young => ?_,
   fun y mem _ _ x path => tidy.linked.below_lt_size (tidy.linked.lt_size mem) path⟩
  have := tidy.linked.lt_size mem
  omega
 obtain ⟨rounds, h', run, tidy', -, enlarges⟩ := copyNode_ends keys h.size h.size (Nat.sub_le _ _) loop
 exact ⟨rounds, h', run, tidy', fun o inside => congrArg Prod.snd (enlarges.key o inside)⟩

theorem compare_ends (linked : Linked h) (n : ℕ) : ∀ {node : ℕ} {rest : List ℕ},
  h.size - node ≤ n → (∀ c ∈ rest, c ∈ (h.get node).children) →
  ∃ rounds, compare rounds h node rest = .ok true := by
 induction n with
 | zero =>
  intro node rest few mem
  cases rest with
  | nil => exact ⟨0, rfl⟩
  | cons c rest =>
   have child := mem c List.mem_cons_self
   have := linked.lt_size child
   have := linked.older child
   omega
 | succ n ih =>
  intro node rest
  induction rest with
  | nil => exact fun _ _ => ⟨0, rfl⟩
  | cons c rest ihRest =>
   intro few mem
   have child := mem c List.mem_cons_self
   have older := linked.older child
   have found : h.lookupChild node (h.get c).name (some (h.get c).type) ≠ none := fun none =>
    lookupChild_eq_none_iff.mp none (List.mem_map_of_mem child)
   obtain ⟨peer, found⟩ := Option.ne_none_iff_exists'.mp found
   by_cases isNode : (h.get c).isNode = true
   · obtain ⟨rounds, run⟩ := ih (by omega) fun x mem => (mem : x ∈ (h.get c).children)
     refine ⟨rounds + 1, ?_⟩
     rw [compare, found]
     exact (if_pos isNode).trans run
   · obtain ⟨rounds, run⟩ := ihRest few fun x there => mem x (List.mem_cons_of_mem c there)
     refine ⟨rounds + 1, ?_⟩
     rw [compare, found]
     exact (if_neg isNode).trans run

theorem accepts {root : ℕ} {node template : ℕ} (tidy : Tidy h)
  (isNode : (h.get node).type = .confNode) (inherits : (h.get node).nodeType = .inherit)
  (names : lookup h root node (h.get node).refNodePath = some template)
  (isTemplate : (h.get template).type = .confNode) : Accepts root h node := by
 obtain ⟨m, h₁, copy, tidy₁, types⟩ := copy_ends tidy isNode isTemplate
 obtain ⟨m', same⟩ := compare_ends tidy₁.linked h₁.size (Nat.sub_le h₁.size node) fun x mem =>
  (mem : x ∈ (h₁.get node).children)
 refine ⟨max m m', addSubClass h₁ node template, ?_⟩
 have template₁ : (h₁.get template).isNode = true := by
  rw [isNode_iff, types template (lt_size_of_node isTemplate), isTemplate]
 rw [inheritExpandAt]
 change (if (h.get node).isNode = true ∧ (h.get node).nodeType = .inherit then _ else _) = _
 rw [if_pos ⟨isNode_iff.mpr isNode, inherits⟩, names, inheritExpand,
  ok_of_le (copyNode_more · h node _ false) copy (Nat.le_max_left m m')]
 change (if (h₁.get template).isNode then
   compare (max m m') h₁ node (h₁.get node).children >>= fun same =>
    if same then .ok (addSubClass h₁ node template) else .error .returnsFalse
  else .error .crash : Result) = _
 rw [if_pos template₁, ok_of_le (compare_more · h₁ node _) same (Nat.le_max_right m m')]
 rfl

/-- At every node that inherits from a template, the expansion does what a check of the node
against the template is to do exactly if the node conforms: it accepts all of them. -/
theorem template_checked_iff {parseOne : Str → Option SourceFile} {fuel rounds : ℕ}
    {sourceName : Str} {source : SourceObjects} {h : AstHeap} {node template : ℕ}
    (merged : parseMerged parseOne fuel sourceName = .ok (some source))
    (call : (h, node) ∈ (Ast.ofSource true source).inheritCalls rounds)
    (isNode : (h.get node).type = .confNode) (inherits : (h.get node).nodeType = .inherit)
    (names : lookup h 0 node (h.get node).refNodePath = some template)
    (isTemplate : (h.get template).type = .confNode) :
    TemplateChecked 0 h node template ↔ Conforms h (h.get node).children template := by
  have accepted := accepts (inheritCalls_tidy merged true _ call) isNode inherits names isTemplate
  exact ⟨fun checked => checked.mp accepted, fun conforms => iff_of_true accepted conforms⟩

/-- `root { module = "m"; template t { x = 1; } n :: t { name = 2; } }` -/
def oneHeir (name : Str) : SourceObjects :=
 .term Ast.moduleName (.string [0x6D]) <|
  .node [0x74] .template [] (.term [0x78] (.number 1) .nil) <|
   .node [0x6E] .inherit [0x74] (.term name (.number 2) .nil) .nil

theorem template_checked_small : ∃ h node template,
    (h, node) ∈ (Ast.ofSource true (oneHeir [0x78])).inheritCalls 20 ∧
      (h.get node).nodeType = .inherit ∧ TemplateChecked 0 h node template := by
  have merged : parseMerged (fun _ => some ⟨[], some (oneHeir [0x78])⟩) 20 [0x6D] =
      .ok (some (oneHeir [0x78])) := by
    decide +kernel
  have facts : ((Ast.ofSource true (oneHeir [0x78])).inheritCalls 20).any (fun call =>
      decide ((call.1.get call.2).type = .confNode ∧ (call.1.get call.2).nodeType = .inherit ∧
        lookup call.1 0 call.2 (call.1.get call.2).refNodePath = some 3 ∧
        (call.1.get 3).type = .confNode ∧ (call.1.get 3).children = [4] ∧
        (call.1.get call.2).children = [7] ∧ (call.1.get 4).key = (call.1.get 7).key ∧
        (call.1.get 7).type ≠ .confNode)) = true := by
    decide +kernel
  obtain ⟨⟨h, node⟩, call, facts⟩ := List.any_eq_true.mp facts
  obtain ⟨isNode, inherits, names, isTemplate, there, own, same, leaf⟩ := of_decide_eq_true facts
  refine ⟨h, node, 3, call, inherits,
    (template_checked_iff merged call isNode inherits names isTemplate).mpr ?_⟩
  have mem : 4 ∈ (h.get 3).children := by
    rw [there]
    exact List.mem_singleton_self 4
  rw [own]
  exact .value mem same leaf .nil

/-- The node `n` declares an attribute that `t` lacks, and is accepted. -/
theorem other_attribute_accepted : ¬ ∀ (parseOne : Str → Option SourceFile) (fuel rounds : ℕ)
    (sourceName : Str) (source : SourceObjects) (h : AstHeap) (node template : ℕ),
    parseMerged parseOne fuel sourceName = .ok (some source) →
    (h, node) ∈ (Ast.ofSource true source).inheritCalls rounds →
    (h.get node).type = .confNode → (h.get node).nodeType = .inherit →
    lookup h 0 node (h.get node).refNodePath = some template →
    (h.get template).type = .confNode → TemplateChecked 0 h node template := by
  intro hall
  have merged : parseMerged (fun _ => some ⟨[], some (oneHeir [0x79])⟩) 20 [0x6D] =
      .ok (some (oneHeir [0x79])) := by
    decide +kernel
  have facts : ((Ast.ofSource true (oneHeir [0x79])).inheritCalls 20).any (fun call =>
      decide ((call.1.get call.2).type = .confNode ∧ (call.1.get call.2).nodeType = .inherit ∧
        lookup call.1 0 call.2 (call.1.get call.2).refNodePath = some 3 ∧
        (call.1.get 3).type = .confNode ∧ (call.1.get call.2).children = [7] ∧
        (call.1.get 7).key ∉ childKeys call.1 3 ∧
        (inheritExpandAt 20 0 call.1 call.2).isOk = true)) = true := by
    decide +kernel
  obtain ⟨⟨h, node⟩, call, facts⟩ := List.any_eq_true.mp facts
  obtain ⟨isNode, inherits, names, isTemplate, own, lacks, ok⟩ := of_decide_eq_true facts
  have accepted : Accepts 0 h node := by
    cases run : inheritExpandAt 20 0 h node with
    | error e =>
      rw [run] at ok
      cases ok
    | ok h' => exact ⟨20, h', run⟩
  have conforms := (hall _ 20 20 [0x6D] _ h node 3 merged call isNode inherits names isTemplate).mp
    accepted
  rw [own] at conforms
  cases conforms with
  | value there same | node there same => exact lacks (same ▸ List.mem_map_of_mem there)

end DriversFramework.HcAst
