import DriversFramework.HcAstArrays
import DriversFramework.HcAstOverride

namespace DriversFramework.HcAst

open AstHeap ByteCodec HcGen

/-- `ToOpCode`: the op code of a type and the size of what always follows it. -/
def toOpCode : ObjectType → Option (UInt8 × ℕ)
 | .uint8 => some (0x10, 1)
 | .uint16 => some (0x11, 2)
 | .uint32 => some (0x12, 4)
 | .uint64 => some (0x13, 8)
 | .string => some (hcsStringOp, 0)
 | .array => some (hcsArrayOp, 2)
 | .confNode => some (hcsNodeOp, 4)
 | .confTerm => some (hcsTermOp, 0)
 | .nodeRef => some (hcsNodeRefOp, 4)
 | .delete => none

/-- A tree whose objects have got their sizes. -/
structure SizedTree where
 heap : AstHeap
 size : ℕ → ℕ
 subSize : ℕ → ℕ

def calculateSize (needAlign : Bool) (t : SizedTree) (o : ℕ) : SizedTree :=
 let object := t.heap.get o
 let size := alignSize needAlign 1 + alignSize needAlign ((toOpCode object.type).elim 0 (·.2)) +
  if object.type = .confNode ∨ object.type = .confTerm then
   alignSize needAlign (object.name.length + 1)
  else if object.type = .string then alignSize needAlign (object.stringValue.length + 1)
  else 0
 let subSize := (object.children.map t.size).sum % 2 ^ 32
 { t with
  size := Function.update t.size o ((subSize + size) % 2 ^ 32)
  subSize := Function.update t.subSize o subSize }

/-- The callback of `ByteCodeConvert`: templates leave the tree. -/
def convertAt (needAlign : Bool) (t : SizedTree) (o : ℕ) : Except Stop SizedTree :=
 if (t.heap.get o).type = .confNode ∧ (t.heap.get o).nodeType = .template then
  .ok { t with heap := t.heap.separate o }
 else
  match toOpCode (t.heap.get o).type with
  | none => .error .returnsFalse
  | some _ => .ok (calculateSize needAlign t o)

def convertWalk (needAlign : Bool) : ℕ → SizedTree → Option ℕ → Except Stop SizedTree
 | _, t, none => .ok t
 | 0, _, some _ => .error .noReturn
 | fuel + 1, t, some current => do
  let t ← convertWalk needAlign fuel t (t.heap.child current)
  let next := t.heap.next current
  let t ← convertAt needAlign t current
  convertWalk needAlign fuel t next

def byteCodeConvert (needAlign : Bool) (fuel : ℕ) (ast : Ast) : Except Stop SizedTree :=
 convertWalk needAlign fuel ⟨ast.heap, fun _ => 0, fun _ => 0⟩ (some ast.astRoot)

/-- `log` has the objects that are written, each with the length of the file before it. -/
structure Writer where
 gen : ByteCodeGen
 log : List (ℕ × ℕ)

section Write

variable (alive : ℕ → Bool) (t : SizedTree)

def operands (g : ByteCodeGen) (o : ℕ) : Except Stop (List (List UInt8)) :=
 let object := t.heap.get o
 match object.type with
 | .uint8 => .ok [leBytes 1 object.integerValue.toNat]
 | .uint16 => .ok [leBytes 2 object.integerValue.toNat]
 | .uint32 => .ok [leBytes 4 object.integerValue.toNat]
 | .uint64 => .ok [leBytes 8 object.integerValue.toNat]
 | .string => .ok [object.stringValue ++ [0]]
 | .confTerm => .ok [object.name ++ [0]]
 | .confNode => .ok [object.name ++ [0], leBytes 4 (t.subSize o)]
 | .array => .ok [leBytes 2 object.arraySize.toUInt16.toNat]
 | .nodeRef =>
  match object.parent.bind fun term => (t.heap.get term).refNode with
  | none => .error .crash
  | some ref => if alive ref then .ok [leBytes 4 (g.hash ref)] else .error .crash
 | .delete => .ok []

def writeObject (w : Writer) (o : ℕ) : Except Stop Writer := do
 let g := (w.gen.setHash o).write [(toOpCode (t.heap.get o).type).elim 0 (·.1)]
 let data ← operands alive t g o
 return ⟨data.foldl ByteCodeGen.write g, w.log ++ [(o, w.gen.ofs.length)]⟩

def writeWalk : ℕ → Writer → Option ℕ → Except Stop Writer
 | _, w, none => .ok w
 | 0, _, some _ => .error .noReturn
 | fuel + 1, w, some current => do
  let w ← writeObject alive t w current
  let w ← writeWalk fuel w (t.heap.child current)
  writeWalk fuel w (t.heap.next current)

def byteCodeWrite (versionMajor versionMinor : UInt32) (fuel root : ℕ) (dummy : Bool)
  (g : ByteCodeGen) : Except Stop Writer :=
 let g := { g with dummyOutput := dummy, writeSize := 0 }
 let g := g.write (hcbHeader g.needAlign versionMajor versionMinor (t.size root))
 writeWalk alive t fuel ⟨g, []⟩ (some root)

end Write

/-- `Output`, with the tree that is written. -/
def byteCodeOutput (alive : ℕ → Bool) (needAlign : Bool) (versionMajor versionMinor : UInt32)
  (fuel : ℕ) (ast : Ast) : Except Stop (SizedTree × Writer) := do
 let t ← byteCodeConvert needAlign fuel ast
 let placed ← byteCodeWrite alive t versionMajor versionMinor fuel ast.astRoot true
  ⟨needAlign, false, 0, fun _ => 0, []⟩
 let w ← byteCodeWrite alive t versionMajor versionMinor fuel ast.astRoot false placed.gen
 return (t, w)

def countField (needAlign : Bool) (file : List UInt8) (start : ℕ) : ℕ :=
 leNat (slice file (start + alignSize needAlign 1) 2)

def elementsBehind (h : AstHeap) (a : ℕ) (log : List (ℕ × ℕ)) : List (ℕ × ℕ) :=
 log.takeWhile fun entry => (h.get entry.1).parent = some a

/-- Every array in the file is followed by as many elements as it says. -/
def CountsRight (needAlign : Bool) (h : AstHeap) (w : Writer) : Prop :=
 ∀ (front back : List (ℕ × ℕ)) (a start : ℕ), w.log = front ++ (a, start) :: back →
  (h.get a).type = .array →
  countField needAlign w.gen.ofs start = (elementsBehind h a back).length

/-- The array has fewer than 65536 elements, and if it has none, its size is 0 in 16 bits. -/
def AstObject.CountFits (o : AstObject) : Prop :=
 o.children.length < 2 ^ 16 ∧ (o.children = [] → o.arraySize.toNat % 2 ^ 16 = 0)

theorem AstObject.Counts.field_iff {o : AstObject} (counts : o.Counts) (array : o.type = .array) :
 o.arraySize.toNat % 2 ^ 16 = o.children.length ↔ o.CountFits := by
 constructor
 · intro equal
   refine ⟨equal ▸ Nat.mod_lt _ (by decide), fun none => ?_⟩
   rw [equal, none]
   rfl
 · rintro ⟨few, empty⟩
   rcases counts array with none | size
   · rw [empty none, none]
     rfl
   · rw [size, UInt32.toNat_ofNat', Nat.mod_mod_of_dvd _ (by decide), Nat.mod_eq_of_lt few]

theorem convertAt_edits {needAlign : Bool} {t t' : SizedTree} {o : ℕ}
 (run : convertAt needAlign t o = .ok t') : Edits t.heap t'.heap := by
 unfold convertAt at run
 split at run
 · next template =>
   cases run
   exact .single (.separate (.inl template.1))
 · split at run
   · cases run
   · cases run
     exact .refl

theorem convertWalk_edits {needAlign : Bool} (fuel : ℕ) : ∀ {t t' : SizedTree} {start : Option ℕ},
 convertWalk needAlign fuel t start = .ok t' → Edits t.heap t'.heap := by
 induction fuel with
 | zero =>
  intro t t' start run
  cases start with
  | none => cases run; exact .refl
  | some c => cases run
 | succ fuel ih =>
  intro t t' start run
  cases start with
  | none => cases run; exact .refl
  | some c =>
   rw [convertWalk] at run
   cases down : convertWalk needAlign fuel t (t.heap.child c) with
   | error e => rw [down] at run; cases run
   | ok t₁ =>
    rw [down] at run
    change (convertAt needAlign t₁ c >>= fun t =>
     convertWalk needAlign fuel t (t₁.heap.next c)) = _ at run
    cases call : convertAt needAlign t₁ c with
    | error e => rw [call] at run; cases run
    | ok t₂ =>
     rw [call] at run
     exact (ih down).trans ((convertAt_edits call).trans (ih run))

inductive Order (h : AstHeap) : List ℕ → List ℕ → Prop where
 | nil : Order h [] []
 | cons {c : ℕ} {cs under behind : List ℕ} (down : Order h (h.get c).children under)
   (peers : Order h cs behind) : Order h (c :: cs) (c :: (under ++ behind))

namespace Order

variable {h : AstHeap} {cs list : List ℕ}

theorem mem_iff (order : Order h cs list) (x : ℕ) : x ∈ list ↔ ∃ c ∈ cs, Below h c x := by
 induction order with
 | nil => simp
 | @cons c cs under behind _ _ ihDown ihPeers =>
  rw [List.mem_cons, List.mem_append, ihDown, ihPeers, List.exists_mem_cons_iff, ← or_assoc]
  refine or_congr_left ⟨?_, fun path => ?_⟩
  · rintro (rfl | ⟨d, mem, path⟩)
    · exact .refl h x
    · exact (Below.of_child mem).trans path
  · rcases Relation.ReflTransGen.cases_head path with same | ⟨d, mem, path⟩
    · exact .inl same.symm
    · exact .inr ⟨d, mem, path⟩

theorem of_leaves (order : Order h cs list) (leaves : ∀ c ∈ cs, (h.get c).children = []) :
 list = cs := by
 induction order with
 | nil => rfl
 | @cons c cs under behind down _ _ ihPeers =>
  rw [leaves c List.mem_cons_self] at down
  cases down
  rw [List.nil_append, ihPeers fun d mem => leaves d (List.mem_cons_of_mem c mem)]

theorem head?_eq (order : Order h cs list) : list.head? = cs.head? := by
 cases order with
 | nil => rfl
 | cons => rfl

theorem array_leaves (counted : Counted h) {a : ℕ} (array : (h.get a).type = .array)
 (order : Order h (h.get a).children list) : list = (h.get a).children := by
 refine order.of_leaves fun c mem => ?_
 by_contra some
 have scalar := counted.element array mem
 rcases counted.leaf c some with kind | kind | kind
 all_goals
  rw [kind] at scalar
  exact absurd scalar (by decide)

theorem elements (counted : Counted h) (order : Order h cs list) : ∀ {q : Option ℕ},
 (∀ c ∈ cs, (h.get c).parent = q) → (∀ c ∈ cs, ∀ p, q = some p → p < c) →
 ∀ {front back tail : List ℕ} {a : ℕ}, list = front ++ a :: back →
  (h.get a).type = .array → (∀ x, tail.head? = some x → (h.get x).parent ≠ some a) →
  (back ++ tail).takeWhile (fun x => (h.get x).parent = some a) = (h.get a).children := by
 induction order with
 | nil =>
  intro q _ _ front back tail a split
  cases front with
  | nil => cases split
  | cons => cases split
 | @cons c cs under behind down peers ihDown ihPeers =>
  intro q siblings younger front back tail a split array after
  have above : ∀ a, c ≤ a → q ≠ some a := fun a le same => by
   have lt := younger c List.mem_cons_self a same
   omega
  -- what comes behind `c` and all that stands under it
  have next : ∀ a, c ≤ a → (∀ x, tail.head? = some x → (h.get x).parent ≠ some a) →
   ∀ x, (behind ++ tail).head? = some x → (h.get x).parent ≠ some a := by
   intro a le after x first
   cases cs with
   | nil =>
    cases peers
    exact after x first
   | cons d ds =>
    have head := peers.head?_eq
    rw [List.head?_cons] at head
    rw [List.head?_append, head] at first
    have same : d = x := Option.some.inj first
    rw [← same, siblings d (List.mem_cons_of_mem c List.mem_cons_self)]
    exact above a le
  cases front with
  | nil =>
   cases split
   have elements := down.array_leaves counted array
   rw [elements, List.append_assoc, List.takeWhile_append_of_pos fun x mem =>
    decide_eq_true (counted.linked.parent mem)]
   have rest := next c le_rfl after
   cases others : behind ++ tail with
   | nil => exact List.append_nil _
   | cons x xs =>
    rw [others] at rest
    rw [List.takeWhile_cons_of_neg, List.append_nil]
    rw [decide_eq_true_iff]
    exact rest x rfl
  | cons c' front =>
   rw [List.cons_append, List.cons.injEq] at split
   rcases List.append_eq_append_iff.mp split.2 with ⟨as, -, right⟩ | ⟨bs, left, right⟩
   · exact ihPeers (fun d mem => siblings d (List.mem_cons_of_mem c mem))
      (fun d mem => younger d (List.mem_cons_of_mem c mem)) right array after
   · cases bs with
     | nil =>
      exact ihPeers (fun d mem => siblings d (List.mem_cons_of_mem c mem))
       (fun d mem => younger d (List.mem_cons_of_mem c mem))
       (show behind = [] ++ a :: back from right.symm) array after
     | cons a' bs =>
      rw [List.cons_append, List.cons.injEq] at right
      obtain ⟨rfl, rfl⟩ := right
      have mem : a ∈ under := by
       rw [left]
       exact List.mem_append_right _ List.mem_cons_self
      have le : c ≤ a := by
       obtain ⟨d, child, path⟩ := (down.mem_iff a).mp mem
       exact (counted.linked.older child).le.trans (counted.linked.le_of_below path)
      rw [List.append_assoc]
      exact ihDown (fun d child => counted.linked.parent child)
       (fun d child p same => by
        cases same
        exact counted.linked.older child) left array (next a le after)

end Order

structure Adds (g g' : ByteCodeGen) (bytes : List UInt8) : Prop where
 needAlign : g'.needAlign = g.needAlign
 dummyOutput : g'.dummyOutput = g.dummyOutput
 ofs : g'.ofs = if g.dummyOutput then g.ofs else g.ofs ++ bytes

namespace Adds

variable {g g₁ g' : ByteCodeGen} {bytes bytes' : List UInt8}

theorem trans (first : Adds g g₁ bytes) (second : Adds g₁ g' bytes') :
 Adds g g' (bytes ++ bytes') where
 needAlign := second.needAlign.trans first.needAlign
 dummyOutput := second.dummyOutput.trans first.dummyOutput
 ofs := by
  rw [second.ofs, first.ofs, first.dummyOutput]
  split
  · rfl
  · exact List.append_assoc _ _ _

theorem write (g : ByteCodeGen) (data : List UInt8) :
 Adds g (g.write data) (chunk g.needAlign data) := by
 rw [ByteCodeGen.write_eq]
 exact ⟨rfl, rfl, rfl⟩

theorem writes (data : List (List UInt8)) : ∀ g : ByteCodeGen,
 Adds g (data.foldl ByteCodeGen.write g) (data.map (chunk g.needAlign)).flatten := by
 induction data with
 | nil =>
  intro g
  refine ⟨rfl, rfl, ?_⟩
  rw [List.map_nil, List.flatten_nil, List.append_nil, ite_self]
  rfl
 | cons first data ih =>
  intro g
  have rest := ih (g.write first)
  rw [(write g first).needAlign] at rest
  exact (write g first).trans rest

theorem isPrefix (adds : Adds g g' bytes) : g.ofs <+: g'.ofs := by
 rw [adds.ofs]
 split
 · exact List.prefix_rfl
 · exact List.prefix_append _ _

end Adds

section Walk

variable {alive : ℕ → Bool} {t : SizedTree} {w w' : Writer}

theorem writeObject_adds {o : ℕ} (run : writeObject alive t w o = .ok w') :
 ∃ bytes, Adds w.gen w'.gen bytes ∧ w'.log = w.log ++ [(o, w.gen.ofs.length)] ∧
  ((t.heap.get o).type = .array → bytes = objectCode w.gen.needAlign (t.heap.get o)) := by
 rw [writeObject] at run
 cases data : operands alive t
  ((w.gen.setHash o).write [(toOpCode (t.heap.get o).type).elim 0 (·.1)]) o with
 | error e => rw [data] at run; cases run
 | ok data' =>
  rw [data] at run
  cases run
  have hash : Adds w.gen (w.gen.setHash o) [] := by
   refine ⟨rfl, rfl, ?_⟩
   rw [List.append_nil, ite_self]
   rfl
  have op := Adds.write (w.gen.setHash o) [(toOpCode (t.heap.get o).type).elim 0 (·.1)]
  refine ⟨_, (hash.trans op).trans (.writes data' _), rfl, fun array => ?_⟩
  rw [operands, array] at data
  cases data
  have align := op.needAlign
  rw [array] at align ⊢
  rw [align, objectCode, array, List.nil_append, ← leBytes_mod (2 : ℕ) (UInt32.toNat _)]
  exact congrArg _ (List.append_nil _)

structure Continues (t : SizedTree) (w w' : Writer) (cs : List ℕ) : Prop where
 needAlign : w'.gen.needAlign = w.gen.needAlign
 dummyOutput : w'.gen.dummyOutput = w.gen.dummyOutput
 ofs : w.gen.ofs <+: w'.gen.ofs
 written : ∃ added, w'.log = w.log ++ added ∧ Order t.heap cs (added.map (·.1)) ∧
  (w.gen.dummyOutput = false → ∀ entry ∈ added, (t.heap.get entry.1).type = .array →
   Holds w'.gen.ofs entry.2 (objectCode w.gen.needAlign (t.heap.get entry.1)))

theorem holds_mono {file file' bytes : List UInt8} {start : ℕ} (holds : Holds file start bytes)
 (longer : file <+: file') : Holds file' start bytes := by
 obtain ⟨more, rfl⟩ := longer
 obtain ⟨rest, holds⟩ := holds
 by_cases inside : start ≤ file.length
 · exact ⟨rest ++ more, by rw [List.drop_append_of_le_length inside, ← holds, List.append_assoc]⟩
 · rw [List.drop_eq_nil_of_le (by omega)] at holds
   rw [List.append_eq_nil_iff] at holds
   rw [holds.1]
   exact List.nil_prefix

theorem writeWalk_continues (linked : Linked t.heap) (fuel : ℕ) : ∀ {w w' : Writer} {p : ℕ}
 {done rest : List ℕ}, (t.heap.get p).children = done ++ rest →
 writeWalk alive t fuel w rest.head? = .ok w' → Continues t w w' rest := by
 have stop : ∀ w : Writer, Continues t w w [] := fun w =>
  ⟨rfl, rfl, List.prefix_rfl, [], (List.append_nil _).symm, .nil, fun _ _ mem => by cases mem⟩
 induction fuel with
 | zero =>
  intro w w' p done rest _ run
  cases rest with
  | nil => cases run; exact stop w
  | cons c rest => cases run
 | succ fuel ih =>
  intro w w' p done rest children run
  cases rest with
  | nil => cases run; exact stop w
  | cons c rest =>
   rw [List.head?_cons, writeWalk] at run
   cases call : writeObject alive t w c with
   | error e => rw [call] at run; cases run
   | ok w₁ =>
    rw [call] at run
    change (writeWalk alive t fuel w₁ (t.heap.child c) >>= fun w =>
     writeWalk alive t fuel w (t.heap.next c)) = _ at run
    cases down : writeWalk alive t fuel w₁ (t.heap.child c) with
    | error e => rw [down] at run; cases run
    | ok w₂ =>
     rw [down] at run
     change writeWalk alive t fuel w₂ (t.heap.next c) = _ at run
     rw [linked.next_of_children children] at run
     obtain ⟨bytes, adds, log, code⟩ := writeObject_adds call
     have under := ih (show (t.heap.get c).children = [] ++ (t.heap.get c).children from rfl) down
     have behind := ih (show (t.heap.get p).children = (done ++ [c]) ++ rest by
      rw [children]
      simp) run
     obtain ⟨added, log₁, order, places⟩ := under.written
     obtain ⟨added', log₂, order', places'⟩ := behind.written
     rw [under.dummyOutput, under.needAlign] at places'
     rw [adds.dummyOutput, adds.needAlign] at places places'
     refine ⟨behind.needAlign.trans (under.needAlign.trans adds.needAlign),
      behind.dummyOutput.trans (under.dummyOutput.trans adds.dummyOutput),
      adds.isPrefix.trans (under.ofs.trans behind.ofs),
      (c, w.gen.ofs.length) :: (added ++ added'), ?_, ?_, fun writes entry mem => ?_⟩
     · rw [log₂, log₁, log]
       simp
     · rw [List.map_cons, List.map_append]
       exact .cons order order'
     · rcases List.mem_cons.mp mem with rfl | mem
       · intro array
         have ofs := adds.ofs
         rw [writes, if_neg Bool.false_ne_true, code array] at ofs
         have here : Holds w₁.gen.ofs w.gen.ofs.length
          (objectCode w.gen.needAlign (t.heap.get c)) := by
          rw [ofs]
          exact ⟨[], by rw [List.drop_left, List.append_nil]⟩
         exact holds_mono here (under.ofs.trans behind.ofs)
       · rcases List.mem_append.mp mem with mem | mem
         · exact fun array => holds_mono (places writes entry mem array) behind.ofs
         · exact places' writes entry mem

end Walk

theorem byteCodeWrite_written {alive : ℕ → Bool} {t : SizedTree} {g : ByteCodeGen} {w : Writer}
 {versionMajor versionMinor : UInt32} {fuel : ℕ} {dummy : Bool} (linked : Linked t.heap)
 (run : byteCodeWrite alive t versionMajor versionMinor fuel 0 dummy g = .ok w) :
 w.gen.needAlign = g.needAlign ∧ Order t.heap [0] (w.log.map (·.1)) ∧
  (dummy = false → ∀ entry ∈ w.log, (t.heap.get entry.1).type = .array →
   Holds w.gen.ofs entry.2 (objectCode g.needAlign (t.heap.get entry.1))) := by
 rw [byteCodeWrite] at run
 have header := Adds.write { g with dummyOutput := dummy, writeSize := 0 }
  (hcbHeader g.needAlign versionMajor versionMinor (t.size 0))
 cases fuel with
 | zero => cases run
 | succ fuel =>
  rw [writeWalk] at run
  cases call : writeObject alive t ⟨ByteCodeGen.write
   { g with dummyOutput := dummy, writeSize := 0 }
   (hcbHeader g.needAlign versionMajor versionMinor (t.size 0)), []⟩ 0 with
  | error e => rw [call] at run; cases run
  | ok w₁ =>
   rw [call] at run
   change (writeWalk alive t fuel w₁ (t.heap.child 0) >>= fun w =>
    writeWalk alive t fuel w (t.heap.next 0)) = _ at run
   cases down : writeWalk alive t fuel w₁ (t.heap.child 0) with
   | error e => rw [down] at run; cases run
   | ok w₂ =>
    rw [down] at run
    change writeWalk alive t fuel w₂ (t.heap.next 0) = _ at run
    rw [AstHeap.next, linked.root] at run
    change writeWalk alive t fuel w₂ none = _ at run
    rw [writeWalk] at run
    cases run
    obtain ⟨bytes, adds, log, code⟩ := writeObject_adds call
    have under := writeWalk_continues linked fuel
     (show (t.heap.get 0).children = [] ++ (t.heap.get 0).children from rfl) down
    obtain ⟨added, log', order, places⟩ := under.written
    have align := adds.needAlign.trans header.needAlign
    have dummyOutput := header.dummyOutput
    have pass := adds.dummyOutput.trans dummyOutput
    rw [align] at places
    rw [log', log]
    refine ⟨under.needAlign.trans align, ?_, fun writes entry mem => ?_⟩
    · change Order t.heap [0] (0 :: added.map (·.1))
      rw [← List.append_nil (added.map (·.1))]
      exact .cons order .nil
    · change entry ∈ (0, _) :: added at mem
      subst writes
      rcases List.mem_cons.mp mem with rfl | mem
      · intro array
        have ofs := adds.ofs
        rw [dummyOutput, if_neg Bool.false_ne_true, code array, header.needAlign] at ofs
        refine holds_mono ?_ under.ofs
        rw [ofs]
        exact ⟨[], by rw [List.drop_left, List.append_nil]⟩
      · exact places pass entry mem

theorem countField_of_holds {needAlign : Bool} {file : List UInt8} {start : ℕ} {o : AstObject}
 (array : o.type = .array) (holds : Holds file start (objectCode needAlign o)) :
 countField needAlign file start = o.arraySize.toNat % 2 ^ 16 := by
 have code : objectCode needAlign o = opCode needAlign hcsArrayOp ++
  chunk needAlign (leBytes 2 o.arraySize.toNat) := by
  rw [objectCode, array]
  rfl
 rw [code] at holds
 have size := Holds.right holds
 rw [opCode_length] at size
 have field := (Holds.left size).slice_eq
 rw [leBytes_length] at field
 rw [countField, field, leNat_leBytes]
 rfl

theorem byteCodeOutput_passes {alive : ℕ → Bool} {needAlign : Bool}
 {versionMajor versionMinor : UInt32} {fuel : ℕ} {ast : Ast} {t : SizedTree} {w : Writer}
 (run : byteCodeOutput alive needAlign versionMajor versionMinor fuel ast = .ok (t, w)) :
 byteCodeConvert needAlign fuel ast = .ok t ∧ ∃ placed,
  byteCodeWrite alive t versionMajor versionMinor fuel ast.astRoot true
   ⟨needAlign, false, 0, fun _ => 0, []⟩ = .ok placed ∧
  byteCodeWrite alive t versionMajor versionMinor fuel ast.astRoot false placed.gen = .ok w := by
 rw [byteCodeOutput] at run
 cases convert : byteCodeConvert needAlign fuel ast with
 | error e => rw [convert] at run; cases run
 | ok t' =>
  rw [convert] at run
  change (byteCodeWrite alive t' versionMajor versionMinor fuel ast.astRoot true
   ⟨needAlign, false, 0, fun _ => 0, []⟩ >>= fun placed =>
    byteCodeWrite alive t' versionMajor versionMinor fuel ast.astRoot false placed.gen >>=
     fun w => (.ok (t', w) : Except Stop (SizedTree × Writer))) = _ at run
  cases place : byteCodeWrite alive t' versionMajor versionMinor fuel ast.astRoot true
   ⟨needAlign, false, 0, fun _ => 0, []⟩ with
  | error e => rw [place] at run; cases run
  | ok placed =>
   rw [place] at run
   change (byteCodeWrite alive t' versionMajor versionMinor fuel ast.astRoot false placed.gen >>=
    fun w => (.ok (t', w) : Except Stop (SizedTree × Writer))) = _ at run
   cases write : byteCodeWrite alive t' versionMajor versionMinor fuel ast.astRoot false
    placed.gen with
   | error e => rw [write] at run; cases run
   | ok w' =>
    rw [write] at run
    cases run
    exact ⟨rfl, placed, place, write⟩

theorem converted_counts {parseOne : Str → Option SourceFile} {sourceName : Str} {ast : Ast}
 {needAlign : Bool} {fuel rounds : ℕ} {t : SizedTree}
 (parsed : parse parseOne fuel sourceName = .ok ast)
 (converted : byteCodeConvert needAlign rounds ast = .ok t) :
 Counted t.heap ∧ ∀ a, Below t.heap 0 a → (t.heap.get a).Counts := by
 obtain ⟨counted, isNode, root⟩ := parse_counted parsed
 have edits := convertWalk_edits rounds converted
 have counted' : Counted t.heap := edits.invariant Counted.edit counted
 refine ⟨counted', fun a path => ?_⟩
 rcases Relation.ReflTransGen.cases_tail path with rfl | ⟨p, -, mem⟩
 · intro array
   rw [edits.keeps.type (lt_size_of_node isNode), isNode] at array
   cases array
 · refine counted'.counts a ?_
   rw [counted'.linked.parent mem]
   exact Option.some_ne_none p

/-- The counts in the file are right exactly if no array of the tree that is written has more
elements than fit, and none is left without elements while its size is not 0 in 16 bits. -/
theorem counts_right_iff {parseOne : Str → Option SourceFile} {sourceName : Str} {ast : Ast}
    {alive : ℕ → Bool} {needAlign : Bool} {versionMajor versionMinor : UInt32} {fuel rounds : ℕ}
    {t : SizedTree} {w : Writer} (parsed : parse parseOne fuel sourceName = .ok ast)
    (written : byteCodeOutput alive needAlign versionMajor versionMinor rounds ast = .ok (t, w)) :
    CountsRight needAlign t.heap w ↔
      ∀ a, Below t.heap 0 a → (t.heap.get a).type = .array → (t.heap.get a).CountFits := by
  obtain ⟨convert, placed, place, write⟩ := byteCodeOutput_passes written
  obtain ⟨counted, counts⟩ := converted_counts parsed convert
  obtain ⟨-, -, root⟩ := parse_counted parsed
  rw [root] at place write
  obtain ⟨align, -, -⟩ := byteCodeWrite_written counted.linked place
  obtain ⟨-, order, codes⟩ := byteCodeWrite_written counted.linked write
  rw [align] at codes
  -- the field and what follows it, for one array
  have one : ∀ (front back : List (ℕ × ℕ)) (a start : ℕ), w.log = front ++ (a, start) :: back →
      (t.heap.get a).type = .array →
      (countField needAlign w.gen.ofs start = (elementsBehind t.heap a back).length ↔
        (t.heap.get a).CountFits) := by
    intro front back a start split array
    have mem : (a, start) ∈ w.log := by
      rw [split]
      exact List.mem_append_right _ List.mem_cons_self
    have path : Below t.heap 0 a := by
      obtain ⟨c, top, path⟩ := (order.mem_iff a).mp (List.mem_map_of_mem mem)
      rwa [List.mem_singleton.mp top] at path
    have order' : w.log.map (·.1) = front.map (·.1) ++ a :: back.map (·.1) := by
      rw [split, List.map_append, List.map_cons]
    have elements : (back.map (fun entry : ℕ × ℕ => entry.1) ++ []).takeWhile (fun x => (t.heap.get x).parent = some a) =
        (t.heap.get a).children :=
      order.elements counted (q := none)
        (fun c mem => by rw [List.mem_singleton.mp mem]; exact counted.linked.root)
        (fun _ _ _ same => by cases same) order' array fun _ first => by cases first
    rw [List.append_nil, List.takeWhile_map] at elements
    have behind : (elementsBehind t.heap a back).length = (t.heap.get a).children.length := by
      rw [← elements, List.length_map]
      rfl
    rw [behind, countField_of_holds array (codes rfl _ mem array)]
    exact (counts a path).field_iff array
  constructor
  · intro right a path array
    have mem : a ∈ w.log.map (·.1) := (order.mem_iff a).mpr ⟨0, List.mem_singleton_self 0, path⟩
    obtain ⟨⟨_, start⟩, entry, rfl⟩ := List.mem_map.mp mem
    obtain ⟨front, back, split⟩ := List.append_of_mem entry
    exact (one front back _ start split array).mp (right front back _ start split array)
  · intro fits front back a start split array
    refine (one front back a start split array).mpr (fits a ?_ array)
    have mem : a ∈ w.log.map (·.1) := by
      rw [split, List.map_append, List.map_cons]
      exact List.mem_append_right _ List.mem_cons_self
    obtain ⟨c, top, path⟩ := (order.mem_iff a).mp mem
    rwa [List.mem_singleton.mp top] at path

/-- `root { module = "m"; a { x = [1, 2]; } r : &a { x = elements; } }` -/
def overriddenArray (elements : List UInt64) : SourceObjects :=
 .term Ast.moduleName (.string [0x6D]) <|
  .node [0x61] .noRef [] (.term [0x78] (.numberArray [1, 2]) .nil) <|
   .node [0x72] .ref [0x61] (.term [0x78] (.numberArray elements) .nil) .nil

/-- `root { module = "m"; x = [1, 2, 3]; }` -/
def threeElements : SourceObjects :=
 .term Ast.moduleName (.string [0x6D]) <| .term [0x78] (.numberArray [1, 2, 3]) .nil

theorem counts_right_three : ∃ ast t w,
    parse (fun _ => some ⟨[], some threeElements⟩) 30 [0x6D] = .ok ast ∧
      byteCodeOutput (fun _ => true) false 0 0 30 ast = .ok (t, w) ∧
      CountsRight false t.heap w := by
  have facts : (parse (fun _ => some ⟨[], some threeElements⟩) 30 [0x6D]).toOption.any (fun ast =>
      (byteCodeOutput (fun _ => true) false 0 0 30 ast).toOption.any fun out =>
        out.1.heap.objects.all fun o => o.children.length < 2 ^ 16 && (o.type ≠ .array ||
          o.children ≠ [])) = true := by
    decide +kernel
  cases parsed : parse (fun _ => some ⟨[], some threeElements⟩) 30 [0x6D] with
  | error e =>
    rw [parsed] at facts
    cases facts
  | ok ast =>
    rw [parsed] at facts
    change (byteCodeOutput (fun _ => true) false 0 0 30 ast).toOption.any _ = true at facts
    cases written : byteCodeOutput (fun _ => true) false 0 0 30 ast with
    | error e =>
      rw [written] at facts
      cases facts
    | ok out =>
      rw [written] at facts
      obtain ⟨t, w⟩ := out
      have all := List.all_eq_true.mp facts
      refine ⟨ast, t, w, rfl, written, (counts_right_iff parsed written).mpr fun a _ array => ?_⟩
      have mem : t.heap.get a ∈ t.heap.objects := by
        rw [AstHeap.get]
        cases found : t.heap.objects[a]? with
        | none =>
          rw [AstHeap.get, found] at array
          cases array
        | some o => exact List.mem_of_getElem? found
      have fits := all _ mem
      rw [Bool.and_eq_true, array] at fits
      simp at fits
      exact ⟨fits.1, fun none => absurd none fits.2⟩

/-- The array `x` is emptied, and its size is written as 2. -/
theorem emptied_array_keeps_size : ¬ ∀ (alive : ℕ → Bool) (needAlign : Bool)
    (versionMajor versionMinor : UInt32) (parseOne : Str → Option SourceFile) (fuel rounds : ℕ)
    (sourceName : Str) (ast : Ast) (t : SizedTree) (w : Writer),
    parse parseOne fuel sourceName = .ok ast →
    byteCodeOutput alive needAlign versionMajor versionMinor rounds ast = .ok (t, w) →
    CountsRight needAlign t.heap w := by
  intro hall
  have facts : (parse (fun _ => some ⟨[], some (overriddenArray [])⟩) 30 [0x6D]).toOption.any
      (fun ast => (byteCodeOutput (fun _ => true) false 0 0 30 ast).toOption.any fun out =>
        decide (out.2.log = [(0, 20), (1, 30), (2, 38), (3, 41), (4, 48)] ++ (5, 51) :: [] ∧
          (out.1.heap.get 5).type = .array ∧ countField false out.2.gen.ofs 51 = 2)) = true := by
    decide +kernel
  cases parsed : parse (fun _ => some ⟨[], some (overriddenArray [])⟩) 30 [0x6D] with
  | error e =>
    rw [parsed] at facts
    cases facts
  | ok ast =>
    rw [parsed] at facts
    change (byteCodeOutput (fun _ => true) false 0 0 30 ast).toOption.any _ = true at facts
    cases written : byteCodeOutput (fun _ => true) false 0 0 30 ast with
    | error e =>
      rw [written] at facts
      cases facts
    | ok out =>
      rw [written] at facts
      obtain ⟨log, array, count⟩ := of_decide_eq_true facts
      have right := hall _ _ _ _ _ _ _ _ _ _ _ parsed written _ _ _ _ log array
      rw [count] at right
      cases right

end DriversFramework.HcAst
