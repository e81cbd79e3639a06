import DriversFramework.HcGenByteCode

namespace DriversFramework.HcGen

open ByteCodec

def chunk (needAlign : Bool) (data : List UInt8) : List UInt8 :=
 data ++ List.replicate (alignSize needAlign data.length - data.length) 0

def opCode (needAlign : Bool) (op : UInt8) : List UInt8 := chunk needAlign [op]

def textCode (needAlign : Bool) (text : Text) : List UInt8 := chunk needAlign (text.bytes ++ [0])

def Scalar.code (needAlign : Bool) : Scalar → List UInt8
 | .int type value =>
  opCode needAlign type.opCode ++ chunk needAlign (leBytes type.size value.toNat)
 | .string value => opCode needAlign hcsStringOp ++ textCode needAlign value

def TermValue.code (needAlign : Bool) (hash : ℕ → ℕ) : TermValue → List UInt8
 | .scalar value => value.code needAlign
 | .array elements =>
  opCode needAlign hcsArrayOp ++ (chunk needAlign (leBytes 2 elements.length) ++
   (elements.map (Scalar.code needAlign)).flatten)
 | .nodeRef refNode => opCode needAlign hcsNodeRefOp ++ chunk needAlign (leBytes 4 (hash refNode))

def nodeHeader (needAlign : Bool) (name : Text) (subSize : ℕ) : List UInt8 :=
 opCode needAlign hcsNodeOp ++ (textCode needAlign name ++ chunk needAlign (leBytes 4 subSize))

def termHeader (needAlign : Bool) (name : Text) : List UInt8 :=
 opCode needAlign hcsTermOp ++ textCode needAlign name

def ConfigObjects.code (needAlign : Bool) (hash : ℕ → ℕ) : ConfigObjects → List UInt8
 | .nil => []
 | .term name value next =>
  (termHeader needAlign name ++ value.code needAlign hash) ++ next.code needAlign hash
 | .node _ name _ child next =>
  nodeHeader needAlign name (child.size needAlign) ++
   (child.code needAlign hash ++ next.code needAlign hash)

variable (needAlign : Bool)

theorem le_alignSize (n : ℕ) : n ≤ alignSize needAlign n := by
 unfold alignSize
 split
 · exact le_align4 n
 · exact le_rfl

@[simp] theorem chunk_length (data : List UInt8) :
 (chunk needAlign data).length = alignSize needAlign data.length := by
 have := le_alignSize needAlign data.length
 rw [chunk, List.length_append, List.length_replicate]
 omega

@[simp] theorem opCode_length (op : UInt8) :
 (opCode needAlign op).length = alignSize needAlign 1 := chunk_length needAlign [op]

@[simp] theorem textCode_length (text : Text) :
 (textCode needAlign text).length = alignSize needAlign (text.bytes.length + 1) := by
 rw [textCode, chunk_length, List.length_append, List.length_singleton]

theorem Scalar.code_length (s : Scalar) : (s.code needAlign).length = s.size needAlign := by
 cases s <;>
  simp only [Scalar.code, Scalar.size, List.length_append, opCode_length, chunk_length,
   textCode_length, leBytes_length]

theorem scalars_length (elements : List Scalar) :
 (elements.map (Scalar.code needAlign)).flatten.length =
  (elements.map (Scalar.size needAlign)).sum := by
 induction elements with
 | nil => rfl
 | cons e elements ih =>
  simp only [List.map_cons, List.flatten_cons, List.length_append, List.sum_cons, ih,
   Scalar.code_length]

theorem TermValue.code_length (hash : ℕ → ℕ) (value : TermValue) :
 (value.code needAlign hash).length = value.size needAlign := by
 cases value with
 | scalar s => exact s.code_length needAlign
 | array elements =>
  simp only [TermValue.code, TermValue.size, List.length_append, opCode_length, chunk_length,
   leBytes_length, scalars_length]
  omega
 | nodeRef refNode =>
  simp only [TermValue.code, TermValue.size, List.length_append, opCode_length, chunk_length,
   leBytes_length]

theorem nodeHeader_length (name : Text) (subSize : ℕ) : (nodeHeader needAlign name subSize).length =
  alignSize needAlign 1 + alignSize needAlign (name.bytes.length + 1) +
   alignSize needAlign 4 := by
 simp only [nodeHeader, List.length_append, opCode_length, textCode_length, chunk_length,
  leBytes_length]
 omega

theorem termHeader_length (name : Text) : (termHeader needAlign name).length =
  alignSize needAlign 1 + alignSize needAlign (name.bytes.length + 1) := by
 simp only [termHeader, List.length_append, opCode_length, textCode_length]

theorem ConfigObjects.code_length (hash : ℕ → ℕ) (objects : ConfigObjects) :
 (objects.code needAlign hash).length = objects.size needAlign := by
 induction objects with
 | nil => rfl
 | term name value next ih =>
  simp only [ConfigObjects.code, ConfigObjects.size, List.length_append, termHeader_length,
   TermValue.code_length, ih]
 | node address name type child next ihChild ihNext =>
  simp only [ConfigObjects.code, ConfigObjects.size, List.length_append, nodeHeader_length,
   ihChild, ihNext]
  omega

def ConfigObjects.nodeCount : ConfigObjects → ℕ
 | .nil => 0
 | .term _ _ next => next.nodeCount
 | .node _ _ _ child next => 1 + child.nodeCount + next.nodeCount

def ConfigObjects.termCount : ConfigObjects → ℕ
 | .nil => 0
 | .term _ _ next => 1 + next.termCount
 | .node _ _ _ child next => child.termCount + next.termCount

def ConfigObjects.layers : ConfigObjects → ℕ
 | .nil => 0
 | .term _ _ next => next.layers
 | .node _ _ _ child next => max (child.layers + 1) next.layers

/-- An array is short enough for its count field. -/
def TermValue.Counted : TermValue → Prop
 | .array elements => elements.length < 2 ^ 16
 | _ => True

def ConfigObjects.Counted : ConfigObjects → Prop
 | .nil => True
 | .term _ value next => value.Counted ∧ next.Counted
 | .node _ _ _ child next => child.Counted ∧ next.Counted

theorem opSize_pos : 0 < alignSize needAlign 1 :=
 Nat.one_pos.trans_le (le_alignSize needAlign 1)

theorem ConfigObjects.count_le_size (objects : ConfigObjects) :
 objects.nodeCount + objects.termCount ≤ objects.size needAlign := by
 have one := opSize_pos needAlign
 induction objects with
 | nil => exact le_rfl
 | term name value next ih | node address name type child next ihChild ihNext =>
  simp only [nodeCount, termCount, ConfigObjects.size]
  omega

theorem ConfigObjects.size_term (hash : ℕ → ℕ) (name : Text)
 (value : TermValue) (next : ConfigObjects) :
 (ConfigObjects.term name value next).size needAlign =
  (termHeader needAlign name ++ value.code needAlign hash).length + next.size needAlign := by
 rw [← ConfigObjects.code_length needAlign hash, ConfigObjects.code, List.length_append,
  ConfigObjects.code_length]

theorem nodeHeader_length_eq (name : Text) (subSize : ℕ) :
 (nodeHeader needAlign name subSize).length = (nodeHeader needAlign name 0).length := by
 rw [nodeHeader_length, nodeHeader_length]

theorem ConfigObjects.size_node (address : ℕ) (name : Text)
 (type : ConfigNodeType) (child next : ConfigObjects) :
 (ConfigObjects.node address name type child next).size needAlign =
  (nodeHeader needAlign name 0).length + child.size needAlign + next.size needAlign := by
 rw [nodeHeader_length, ConfigObjects.size]
 omega

/-- The generator after it has written `bytes` in all. -/
def ByteCodeGen.advance (g : ByteCodeGen) (bytes : List UInt8) : ByteCodeGen :=
 { g with
   ofs := if g.dummyOutput then g.ofs else g.ofs ++ bytes
   writeSize := (g.writeSize + bytes.length) % 2 ^ 32 }

variable (g : ByteCodeGen)

theorem ByteCodeGen.advance_advance (a b : List UInt8) :
 (g.advance a).advance b = g.advance (a ++ b) := by
 simp only [advance, List.length_append, ByteCodeGen.mk.injEq, true_and]
 refine ⟨by omega, ?_⟩
 split
 · rfl
 · rw [List.append_assoc]

theorem ByteCodeGen.write_eq (data : List UInt8) :
 g.write data = g.advance (chunk g.needAlign data) := by
 obtain ⟨needAlign, dummyOutput, writeSize, hash, ofs⟩ := g
 have len := chunk_length needAlign data
 cases dummyOutput
 · simp only [write, fsWrite, advance, len, Bool.false_eq_true, if_false, List.append_assoc]
   rfl
 · simp only [write, fsWrite, advance, len, if_true]

theorem ByteCodeGen.writeScalar_eq (s : Scalar) :
 g.writeScalar s = g.advance (s.code g.needAlign) := by
 cases s <;>
  simp only [writeScalar, writeString, write_eq, Scalar.code, opCode, textCode,
   ← advance_advance] <;>
  rfl

theorem ByteCodeGen.writeScalars_eq (elements : List Scalar) (hsize : g.writeSize < 2 ^ 32) :
 elements.foldl ByteCodeGen.writeScalar g =
  g.advance (elements.map (Scalar.code g.needAlign)).flatten := by
 induction elements generalizing g with
 | nil =>
  simp only [List.foldl_nil, List.map_nil, List.flatten_nil, advance, List.append_nil,
   List.length_nil, Nat.add_zero, Nat.mod_eq_of_lt hsize, ite_self]
 | cons e elements ih =>
  rw [List.foldl_cons, writeScalar_eq, ih _ (Nat.mod_lt _ (by omega)), List.map_cons,
   List.flatten_cons, ← advance_advance]
  rfl

theorem ByteCodeGen.writeValue_eq (value : TermValue) :
 g.writeValue value = g.advance (value.code g.needAlign g.hash) := by
 cases value with
 | scalar s => exact g.writeScalar_eq s
 | array elements =>
  have small : ((g.write [hcsArrayOp]).write (leBytes 2 elements.length)).writeSize < 2 ^ 32 :=
   Nat.mod_lt _ (by omega)
  rw [writeValue, writeScalars_eq _ _ small]
  simp only [write_eq, TermValue.code, opCode, ← advance_advance]
  rfl
 | nodeRef refNode =>
  simp only [writeValue, write_eq, TermValue.code, opCode, ← advance_advance]
  rfl

/-- The addresses of the nodes, in the order of the walk. -/
def ConfigObjects.addresses : ConfigObjects → List ℕ
 | .nil => []
 | .term _ _ next => next.addresses
 | .node address _ _ child next => address :: (child.addresses ++ next.addresses)

/-- `hash` gives every node its place, if the first object is at `pos`. -/
def ConfigObjects.Placed (needAlign : Bool) (hash : ℕ → ℕ) : ℕ → ConfigObjects → Prop
 | _, .nil => True
 | pos, .term name value next =>
  next.Placed needAlign hash (pos + (termHeader needAlign name).length + value.size needAlign)
 | pos, .node address name _ child next =>
  hash address = pos ∧
   child.Placed needAlign hash (pos + (nodeHeader needAlign name 0).length) ∧
   next.Placed needAlign hash
    (pos + (nodeHeader needAlign name 0).length + child.size needAlign)

theorem ConfigObjects.Placed.congr {needAlign : Bool} {hash hash' : ℕ → ℕ} {pos : ℕ}
 {objects : ConfigObjects} (h : objects.Placed needAlign hash pos)
 (same : ∀ a ∈ objects.addresses, hash' a = hash a) : objects.Placed needAlign hash' pos := by
 induction objects generalizing pos with
 | nil => trivial
 | term name value next ih => exact ih h same
 | node address name type child next ihChild ihNext =>
  obtain ⟨here, below, behind⟩ := h
  simp only [ConfigObjects.addresses, List.mem_cons, List.mem_append] at same
  refine ⟨(same _ (Or.inl rfl)).trans here, ihChild below ?_, ihNext behind ?_⟩
  · intro a ha
    exact same a (Or.inr (Or.inl ha))
  · intro a ha
    exact same a (Or.inr (Or.inr ha))

/-- The hash fields after a walk from `pos` on. -/
def ConfigObjects.place (needAlign : Bool) : ℕ → (ℕ → ℕ) → ConfigObjects → ℕ → ℕ
 | _, hash, .nil => hash
 | pos, hash, .term name value next =>
  next.place needAlign (pos + (termHeader needAlign name).length + value.size needAlign) hash
 | pos, hash, .node address name _ child next =>
  let pos' := pos + (nodeHeader needAlign name 0).length
  next.place needAlign (pos' + child.size needAlign)
   (child.place needAlign pos' (Function.update hash address pos))

theorem ConfigObjects.place_other {needAlign : Bool} {pos : ℕ} {hash : ℕ → ℕ}
 {objects : ConfigObjects} {a : ℕ} (ha : a ∉ objects.addresses) :
 objects.place needAlign pos hash a = hash a := by
 induction objects generalizing pos hash with
 | nil => rfl
 | term name value next ih => exact ih ha
 | node address name type child next ihChild ihNext =>
  simp only [ConfigObjects.addresses, List.mem_cons, List.mem_append, not_or] at ha
  obtain ⟨other, below, behind⟩ := ha
  rw [ConfigObjects.place, ihNext behind, ihChild below, Function.update_of_ne other]

theorem ConfigObjects.place_placed (pos : ℕ) (hash : ℕ → ℕ)
 (objects : ConfigObjects) (h : objects.addresses.Nodup) :
 objects.Placed needAlign (objects.place needAlign pos hash) pos := by
 induction objects generalizing pos hash with
 | nil => trivial
 | term name value next ih => exact ih _ _ h
 | node address name type child next ihChild ihNext =>
  simp only [ConfigObjects.addresses, List.nodup_cons, List.mem_append, not_or,
   List.nodup_append] at h
  obtain ⟨⟨notBelow, notBehind⟩, nodupChild, nodupNext, apart⟩ := h
  refine ⟨?_, (ihChild _ (Function.update hash address pos) nodupChild).congr ?_,
   ihNext _ _ nodupNext⟩
  · rw [ConfigObjects.place, place_other notBehind, place_other notBelow, Function.update_self]
  · intro a ha
    rw [ConfigObjects.place, place_other fun hb => apart a ha a hb rfl]

theorem ByteCodeGen.writeWalk_term (name : Text) (value : TermValue) (next : ConfigObjects) :
 g.writeWalk (.term name value next) =
  (g.advance (termHeader g.needAlign name ++ value.code g.needAlign g.hash)).writeWalk next := by
 simp only [writeWalk, writeValue_eq, writeString, write_eq, termHeader, opCode, textCode,
  ← advance_advance]
 rfl

theorem ByteCodeGen.writeWalk_node (address : ℕ) (name : Text)
 (type : ConfigNodeType) (child next : ConfigObjects) :
 g.writeWalk (.node address name type child next) =
  (((g.setHash address).advance
   (nodeHeader g.needAlign name (child.size g.needAlign))).writeWalk child).writeWalk next := by
 simp only [writeWalk, writeString, write_eq, nodeHeader, opCode, textCode, ← advance_advance]
 rfl

theorem ByteCodeGen.advance_writeSize (bytes : List UInt8)
 (h : g.writeSize + bytes.length < 2 ^ 32) :
 (g.advance bytes).writeSize = g.writeSize + bytes.length := Nat.mod_eq_of_lt h

theorem ByteCodeGen.advance_nil (h : g.writeSize < 2 ^ 32) : g.advance [] = g := by
 simp only [advance, List.append_nil, List.length_nil, Nat.add_zero, ite_self,
  Nat.mod_eq_of_lt h]

theorem ByteCodeGen.writeWalk_placed (objects : ConfigObjects)
 (hsize : g.writeSize + objects.size g.needAlign < 2 ^ 32)
 (h : objects.Placed g.needAlign g.hash g.writeSize) :
 g.writeWalk objects = g.advance (objects.code g.needAlign g.hash) := by
 induction objects generalizing g with
 | nil => exact (g.advance_nil (by simpa only [ConfigObjects.size, Nat.add_zero] using hsize)).symm
 | term name value next ih =>
  have size := ConfigObjects.size_term g.needAlign g.hash name value next
  have here := g.advance_writeSize
   (termHeader g.needAlign name ++ value.code g.needAlign g.hash) (by omega)
  rw [writeWalk_term, ih]
  · exact g.advance_advance _ _
  · change _ + next.size g.needAlign < _
    rw [here]
    omega
  · change next.Placed g.needAlign g.hash _
    rw [here, List.length_append, TermValue.code_length, ← Nat.add_assoc]
    exact h
 | node address name type child next ihChild ihNext =>
  have size := ConfigObjects.size_node g.needAlign address name type child next
  obtain ⟨here, below, behind⟩ := h
  have same : g.setHash address = g := by
   have unchanged : Function.update g.hash address g.writeSize = g.hash := by
    rw [← here, Function.update_eq_self]
   rw [setHash, unchanged]
  have header := nodeHeader_length_eq g.needAlign name (child.size g.needAlign)
  have afterHeader := g.advance_writeSize
   (nodeHeader g.needAlign name (child.size g.needAlign)) (by omega)
  have code := child.code_length g.needAlign g.hash
  have afterChild := ByteCodeGen.advance_writeSize
   (g.advance (nodeHeader g.needAlign name (child.size g.needAlign)))
   (child.code g.needAlign g.hash) (by rw [afterHeader, header, code]; omega)
  rw [afterHeader, header, code] at afterChild
  rw [writeWalk_node, same, ihChild, ihNext]
  · rw [advance_advance, advance_advance]
    rfl
  · change ByteCodeGen.writeSize (ByteCodeGen.advance _ (child.code g.needAlign g.hash)) +
     next.size g.needAlign < _
    rw [afterChild]
    omega
  · change next.Placed g.needAlign g.hash
     (ByteCodeGen.writeSize (ByteCodeGen.advance _ (child.code g.needAlign g.hash)))
    rw [afterChild]
    exact behind
  · change _ + child.size g.needAlign < _
    rw [afterHeader, header]
    omega
  · change child.Placed g.needAlign g.hash _
    rw [afterHeader, header]
    exact below

theorem ByteCodeGen.writeWalk_dummy (objects : ConfigObjects) (hdummy : g.dummyOutput = true)
 (hsize : g.writeSize + objects.size g.needAlign < 2 ^ 32) :
 g.writeWalk objects =
  { g with
   writeSize := g.writeSize + objects.size g.needAlign
   hash := objects.place g.needAlign g.writeSize g.hash } := by
 have count : ∀ (g : ByteCodeGen) (bytes : List UInt8), g.dummyOutput = true →
  g.writeSize + bytes.length < 2 ^ 32 →
  g.advance bytes = { g with writeSize := g.writeSize + bytes.length } := by
  intro g bytes hdummy hfits
  simp only [advance, hdummy, if_true, Nat.mod_eq_of_lt hfits]
 induction objects generalizing g with
 | nil => rfl
 | term name value next ih =>
  have size := ConfigObjects.size_term g.needAlign g.hash name value next
  rw [size] at hsize ⊢
  have rest := ih { g with writeSize := g.writeSize +
   (termHeader g.needAlign name ++ value.code g.needAlign g.hash).length } hdummy
   (by rw [Nat.add_assoc]; exact hsize)
  rw [writeWalk_term, count _ _ hdummy (by omega), rest]
  simp only [ConfigObjects.place, List.length_append, TermValue.code_length, Nat.add_assoc]
 | node address name type child next ihChild ihNext =>
  have size := ConfigObjects.size_node g.needAlign address name type child next
  have header := nodeHeader_length_eq g.needAlign name (child.size g.needAlign)
  rw [size] at hsize ⊢
  have counted := count (g.setHash address)
   (nodeHeader g.needAlign name (child.size g.needAlign)) hdummy
   (by rw [header]; change g.writeSize + _ < _; omega)
  rw [header] at counted
  have fitsChild : g.writeSize + (nodeHeader g.needAlign name 0).length +
   child.size g.needAlign < 2 ^ 32 := by omega
  have fitsNext : g.writeSize + (nodeHeader g.needAlign name 0).length +
   child.size g.needAlign + next.size g.needAlign < 2 ^ 32 := by omega
  have below := ihChild { g.setHash address with
   writeSize := g.writeSize + (nodeHeader g.needAlign name 0).length } hdummy
   fitsChild
  have behind := ihNext { g with
   writeSize := g.writeSize + (nodeHeader g.needAlign name 0).length + child.size g.needAlign
   hash := child.place g.needAlign (g.writeSize + (nodeHeader g.needAlign name 0).length)
    (g.setHash address).hash } hdummy fitsNext
  rw [writeWalk_node, counted]
  refine (congrArg (fun g' => writeWalk g' next) below).trans (behind.trans ?_)
  simp only [ConfigObjects.place, setHash, Nat.add_assoc]

theorem ByteCodeGen.writeWalk_ofs_length (objects : ConfigObjects) :
 (g.writeWalk objects).ofs.length =
  g.ofs.length + cond g.dummyOutput 0 (objects.size g.needAlign) ∧
  (g.writeWalk objects).dummyOutput = g.dummyOutput ∧
  (g.writeWalk objects).needAlign = g.needAlign := by
 have grow : ∀ (g : ByteCodeGen) (bytes : List UInt8), (g.advance bytes).ofs.length =
  g.ofs.length + cond g.dummyOutput 0 bytes.length := by
  intro g bytes
  simp only [advance]
  cases g.dummyOutput
  · exact List.length_append
  · rfl
 induction objects generalizing g with
 | nil => exact ⟨by simp only [writeWalk, ConfigObjects.size, Bool.cond_self, Nat.add_zero], rfl, rfl⟩
 | term name value next ih =>
  obtain ⟨len, dummy, align⟩ :=
   ih (g.advance (termHeader g.needAlign name ++ value.code g.needAlign g.hash))
  rw [writeWalk_term]
  refine ⟨?_, dummy, align⟩
  rw [len, grow, List.length_append, termHeader_length, TermValue.code_length]
  simp only [ConfigObjects.size, advance]
  cases g.dummyOutput <;> simp only [cond_true, cond_false]; omega
 | node address name type child next ihChild ihNext =>
  obtain ⟨lenChild, dummyChild, alignChild⟩ := ihChild ((g.setHash address).advance
   (nodeHeader g.needAlign name (child.size g.needAlign)))
  obtain ⟨lenNext, dummyNext, alignNext⟩ := ihNext (((g.setHash address).advance
   (nodeHeader g.needAlign name (child.size g.needAlign))).writeWalk child)
  rw [writeWalk_node]
  refine ⟨?_, dummyNext.trans dummyChild, alignNext.trans alignChild⟩
  rw [lenNext, lenChild, dummyChild, grow (g.setHash address), nodeHeader_length, alignChild]
  simp only [ConfigObjects.size, advance, setHash]
  cases g.dummyOutput <;> simp only [cond_true, cond_false]; omega

theorem hcbHeader_length (versionMajor versionMinor : UInt32) (size : ℕ) :
 (hcbHeader needAlign versionMajor versionMinor size).length = 20 := by
 simp only [hcbHeader, List.length_append, leBytes_length]

theorem chunk_header (versionMajor versionMinor : UInt32) (size : ℕ) :
 chunk needAlign (hcbHeader needAlign versionMajor versionMinor size) =
  hcbHeader needAlign versionMajor versionMinor size := by
 rw [chunk, hcbHeader_length]
 cases needAlign <;> exact List.append_nil _

section File

variable (needAlign : Bool) (versionMajor versionMinor : UInt32) (ast : Ast)

theorem byteCodeWrite_eq (dummy : Bool) (g : ByteCodeGen) :
 byteCodeWrite versionMajor versionMinor ast dummy g =
  ByteCodeGen.writeWalk
   { g with
    dummyOutput := dummy
    writeSize := 20
    ofs := if dummy then g.ofs
     else g.ofs ++ hcbHeader g.needAlign versionMajor versionMinor (ast.size g.needAlign) }
   ast.root := by
 simp only [byteCodeWrite, ByteCodeGen.write_eq, chunk_header, ByteCodeGen.advance,
  hcbHeader_length, Nat.zero_add, Nat.reducePow, Nat.reduceMod]

theorem output_length : (output needAlign versionMajor versionMinor ast).length =
 20 + (byteCodeConvert ast).root.size needAlign := by
 obtain ⟨len, -, align⟩ := ByteCodeGen.writeWalk_ofs_length ⟨needAlign, true, 20, fun _ => 0, []⟩
  (byteCodeConvert ast).root
 simp only [output, byteCodeWrite_eq, if_true, Bool.false_eq_true, if_false]
 generalize ByteCodeGen.writeWalk ⟨needAlign, true, 20, fun _ => 0, []⟩ _ = placed at len align ⊢
 obtain ⟨total, -, -⟩ := ByteCodeGen.writeWalk_ofs_length
  { placed with
   dummyOutput := false
   writeSize := 20
   ofs := placed.ofs ++ hcbHeader placed.needAlign versionMajor versionMinor
    ((byteCodeConvert ast).size placed.needAlign) } (byteCodeConvert ast).root
 rw [total, List.length_append, len, hcbHeader_length]
 change 0 + 0 + 20 + (byteCodeConvert ast).root.size placed.needAlign = _
 rw [align]

theorem passes_eq (root : ConfigObjects) (header : List UInt8)
 (hsize : 20 + root.size needAlign < 2 ^ 32) (hnodup : root.addresses.Nodup) :
 ∃ hash, root.Placed needAlign hash 20 ∧
  ByteCodeGen.writeWalk ⟨needAlign, true, 20, fun _ => 0, []⟩ root =
   ⟨needAlign, true, 20 + root.size needAlign, hash, []⟩ ∧
  (ByteCodeGen.writeWalk ⟨needAlign, false, 20, hash, header⟩ root).ofs =
   header ++ root.code needAlign hash := by
 have placed := ConfigObjects.place_placed needAlign 20 (fun _ => 0) root hnodup
 refine ⟨_, placed, ?_, ?_⟩
 · exact ByteCodeGen.writeWalk_dummy ⟨needAlign, true, 20, fun _ => 0, []⟩ root rfl hsize
 · rw [ByteCodeGen.writeWalk_placed ⟨needAlign, false, 20, _, header⟩ root hsize placed]
   simp only [ByteCodeGen.advance, Bool.false_eq_true, if_false]

theorem output_eq (hsize : 20 + (byteCodeConvert ast).root.size needAlign < 2 ^ 32)
 (hnodup : (byteCodeConvert ast).root.addresses.Nodup) :
 ∃ hash, (byteCodeConvert ast).root.Placed needAlign hash 20 ∧
  output needAlign versionMajor versionMinor ast =
   hcbHeader needAlign versionMajor versionMinor
    ((byteCodeConvert ast).root.size needAlign) ++
   (byteCodeConvert ast).root.code needAlign hash := by
 simp only [output, byteCodeWrite_eq, Ast.size, if_true, Bool.false_eq_true, if_false]
 generalize (byteCodeConvert ast).root = root at hsize hnodup ⊢
 obtain ⟨hash, placed, first, second⟩ := passes_eq needAlign root
  (hcbHeader needAlign versionMajor versionMinor (root.size needAlign)) hsize hnodup
 have small : root.size needAlign % 2 ^ 32 = root.size needAlign :=
  Nat.mod_eq_of_lt ((Nat.le_add_left _ _).trans_lt hsize)
 refine ⟨hash, placed, ?_⟩
 rw [first]
 dsimp only
 rw [small, List.nil_append]
 exact second

end File

end DriversFramework.HcGen
