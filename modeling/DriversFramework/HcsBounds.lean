import DriversFramework.HcsTree

namespace DriversFramework.Hcs

open ByteCodec

section
variable (align : Bool) (blob : List UInt8)

/-- A word of `width` bytes lies inside the blob and has the value `n`. -/
def WordAt (width pos n : ℕ) : Prop :=
 pos + width ≤ blob.length ∧ leNat (slice blob pos width) = n

def TypeAt (pos type : ℕ) : Prop := WordAt blob (hcsPrefixLength align) pos type

def NameAt (pos size : ℕ) : Prop :=
 0 ∈ blob.drop pos ∧ size = hcsAlignedString align (cString (blob.drop pos)).length

def fixedWidth (type : ℕ) : Option ℕ :=
 if type = configByte then some (hcsByteLength align)
 else if type = configWord then some (hcsWordLength align)
 else if type = configDword ∨ type = configReference then some hcsDwordLength
 else if type = configQword then some hcsQwordLength
 else none

inductive ElemSize (pos : ℕ) : Option ℕ → Prop
 | fixed {type width : ℕ} (htype : TypeAt align blob pos type)
   (hwidth : fixedWidth align type = some width) :
   ElemSize pos (some (width + hcsPrefixLength align))
 | string {size : ℕ} (htype : TypeAt align blob pos configString)
   (hname : NameAt align blob (pos + hcsPrefixLength align) size) :
   ElemSize pos (some (size + hcsPrefixLength align))
 | unknown {type : ℕ} (htype : TypeAt align blob pos type)
   (hwidth : fixedWidth align type = none) (hstring : type ≠ configString) : ElemSize pos none

/-- The end of some elements, from `arrayLen` behind `start` on. -/
inductive ElemsEnd (start : ℕ) : (count arrayLen : ℕ) → Option ℕ → Prop
 | nil (arrayLen : ℕ) : ElemsEnd start 0 arrayLen (some arrayLen)
 | cons {count arrayLen size : ℕ} {r : Option ℕ}
   (helem : ElemSize align blob (start + arrayLen) (some size))
   (hrest : ElemsEnd start count (arrayLen + size) r) : ElemsEnd start (count + 1) arrayLen r
 | unknown {count arrayLen : ℕ} (helem : ElemSize align blob (start + arrayLen) none) :
   ElemsEnd start (count + 1) arrayLen none

inductive ValueSize (pos : ℕ) : Option ℕ → Prop
 | elem {type : ℕ} {r : Option ℕ} (htype : TypeAt align blob pos type)
   (harray : type ≠ configArray) (helem : ElemSize align blob pos r) : ValueSize pos r
 | array {count : ℕ} {r : Option ℕ} (htype : TypeAt align blob pos configArray)
   (hcount : WordAt blob (hcsWordLength align) (pos + hcsPrefixLength align) count)
   (helems : ElemsEnd align blob pos (count % 2 ^ 16)
    (hcsPrefixLength align + hcsWordLength align) r) : ValueSize pos r

structure Token where
 isNode : Bool
 size : ℕ

/-- The object at `pos`, or none where it cannot be parsed. -/
inductive TokenAt (pos : ℕ) : Option Token → Prop
 | node {size : ℕ} (htype : TypeAt align blob pos configNode)
   (hname : NameAt align blob (pos + hcsPrefixLength align) size) :
   TokenAt pos (some ⟨true, size + hcsPrefixLength align + hcsDwordLength⟩)
 | attr {size : ℕ} {r : Option ℕ} (htype : TypeAt align blob pos configAttr)
   (hname : NameAt align blob (pos + hcsPrefixLength align) size)
   (hvalue : ValueSize align blob (pos + (hcsPrefixLength align + size)) r) :
   TokenAt pos (r.map fun data => ⟨false, data + (hcsPrefixLength align + size)⟩)
 | unknown {type : ℕ} (htype : TypeAt align blob pos type) (hnode : type ≠ configNode)
   (hattr : type ≠ configAttr) : TokenAt pos none

/-- The objects from `offset` on, up to `length`; `complete` is false where the last of
them cannot be parsed. -/
inductive Walk (start length : ℕ) : (offset : ℕ) → List Token → (complete : Bool) → Prop
 | done {offset : ℕ} (hend : length ≤ offset) : Walk start length offset [] true
 | unknown {offset : ℕ} (hend : offset < length)
   (htoken : TokenAt align blob (start + offset) none) : Walk start length offset [] false
 | step {offset : ℕ} {token : Token} {tokens : List Token} {complete : Bool}
   (hend : offset < length) (htoken : TokenAt align blob (start + offset) (some token))
   (hrest : Walk start length (offset + token.size) tokens complete) :
   Walk start length offset (token :: tokens) complete

/-- Every node has its sub-size inside the blob, down to the first object that has no
parent or too many layers above it. `ends` are the ends of the nodes still open. -/
def SubSizesAt (start : ℕ) : (offset : ℕ) → (ends : List ℕ) → List Token → Prop
 | _, _, [] => True
 | offset, ends, token :: tokens =>
  let inner := ends.dropWhile fun nodeEnd => decide (nodeEnd < (token.size + offset) % 2 ^ 32)
  if token.isNode then
   ∃ subSize, WordAt blob hcsDwordLength (start + offset + token.size - hcsDwordLength) subSize ∧
    ((if inner = [] then ends else inner).length < treeStackMax - 1 →
     SubSizesAt start (offset + token.size)
      ((subSize + offset + token.size) % 2 ^ 32 :: if inner = [] then ends else inner) tokens)
  else inner ≠ [] → SubSizesAt start (offset + token.size) inner tokens

/-- The root object, its sub-size, and the objects up to the end that they give. -/
def Readable (start : ℕ) : Prop :=
 ∃ root, TokenAt align blob start root ∧ ∀ token, root = some token →
  ∃ size subSize, NameAt align blob (start + hcsPrefixLength align) size ∧
   WordAt blob hcsDwordLength (start + hcsPrefixLength align + size) subSize ∧
   (0 ≤ int32OfUint32 (token.size + subSize) → ∃ tokens complete,
    Walk align blob start (int32OfUint32 (token.size + subSize)).toNat 0 tokens complete ∧
    (complete = true → SubSizesAt blob start 0 [] tokens))

end

def sized {α : Type} : Option α → HcsRead α
 | some n => .ok n
 | none => .error .failure

section
variable {align : Bool} {blob : List UInt8}

variable {pos : ℕ}

theorem uint_of_wordAt {width n : ℕ} (h : WordAt blob width pos n) :
 hcsByteCodeToUint width blob pos = .ok n := by
 rw [hcsByteCodeToUint, if_pos h.1, h.2]

theorem wordAt_of_uint {width : ℕ} (h : hcsByteCodeToUint width blob pos ≠ .error .outOfBlob) :
 ∃ n, WordAt blob width pos n := by
 rw [hcsByteCodeToUint] at h
 split_ifs at h with inside
 · exact ⟨_, inside, rfl⟩
 · exact absurd rfl h

theorem getPrefix_eq (pos : ℕ) :
 hcsGetPrefix align blob pos = hcsByteCodeToUint (hcsPrefixLength align) blob pos := by
 cases align <;> rfl

theorem prefix_of_typeAt {type : ℕ} (h : TypeAt align blob pos type) :
 hcsGetPrefix align blob pos = .ok type :=
 (getPrefix_eq pos).trans (uint_of_wordAt h)

theorem typeAt_of_prefix (h : hcsGetPrefix align blob pos ≠ .error .outOfBlob) :
 ∃ type, TypeAt align blob pos type :=
 wordAt_of_uint (getPrefix_eq pos ▸ h)

theorem stringLength_of_nameAt {size : ℕ} (h : NameAt align blob pos size) :
 hcsStringLength align blob pos = .ok size := by
 rw [hcsStringLength, strlen, if_pos h.1, h.2]
 rfl

theorem nameAt_of_stringLength (h : hcsStringLength align blob pos ≠ .error .outOfBlob) :
 ∃ size, NameAt align blob pos size := by
 rw [hcsStringLength, strlen] at h
 split_ifs at h with inside
 · exact ⟨_, inside, rfl⟩
 · exact absurd rfl h

theorem bind_ne_outOfBlob {α β : Type} {x : HcsRead α} {f : α → HcsRead β}
 (h : (x >>= f) ≠ .error .outOfBlob) : x ≠ .error .outOfBlob := by
 rintro rfl
 exact h rfl

theorem dataTypeOffset_of_elemSize {r : Option ℕ} (h : ElemSize align blob pos r) :
 hcsGetDataTypeOffset align blob pos = sized r := by
 cases h with
 | @fixed type width htype hwidth =>
  rw [hcsGetDataTypeOffset, prefix_of_typeAt htype]
  rw [fixedWidth] at hwidth
  change (if type = configByte then _ else _ : HcsRead ℕ) = _
  split_ifs at hwidth ⊢ <;> cases hwidth <;> rfl
 | @string size htype hname =>
  rw [hcsGetDataTypeOffset, prefix_of_typeAt htype]
  change (do
   let len ← hcsStringLength align blob (pos + hcsPrefixLength align)
   return len + hcsPrefixLength align : HcsRead ℕ) = _
  rw [stringLength_of_nameAt hname]
  rfl
 | @unknown type htype hwidth hstring =>
  rw [hcsGetDataTypeOffset, prefix_of_typeAt htype]
  rw [fixedWidth] at hwidth
  change (if type = configByte then _ else _ : HcsRead ℕ) = _
  split_ifs at hwidth ⊢
  rfl

theorem elemSize_of_dataTypeOffset (h : hcsGetDataTypeOffset align blob pos ≠ .error .outOfBlob) :
 ∃ r, ElemSize align blob pos r := by
 obtain ⟨type, htype⟩ := typeAt_of_prefix (bind_ne_outOfBlob h)
 rcases hwidth : fixedWidth align type with _ | width
 · by_cases hstring : type = configString
   · subst hstring
     rw [hcsGetDataTypeOffset, prefix_of_typeAt htype] at h
     obtain ⟨size, hname⟩ := nameAt_of_stringLength (bind_ne_outOfBlob h)
     exact ⟨_, .string htype hname⟩
   · exact ⟨_, .unknown htype hwidth hstring⟩
 · exact ⟨_, .fixed htype hwidth⟩

theorem skipElements_of_elemsEnd {start count arrayLen : ℕ} {r : Option ℕ}
 (h : ElemsEnd align blob start count arrayLen r) :
 hcsSkipElements align blob start count arrayLen = sized r := by
 induction h with
 | nil => rfl
 | cons helem hrest ih =>
  rw [hcsSkipElements, dataTypeOffset_of_elemSize helem]
  exact ih
 | unknown helem =>
  rw [hcsSkipElements, dataTypeOffset_of_elemSize helem]
  rfl

theorem elemsEnd_of_skipElements {start count arrayLen : ℕ}
 (h : hcsSkipElements align blob start count arrayLen ≠ .error .outOfBlob) :
 ∃ r, ElemsEnd align blob start count arrayLen r := by
 induction count generalizing arrayLen with
 | zero => exact ⟨_, .nil arrayLen⟩
 | succ count ih =>
  obtain ⟨r, helem⟩ := elemSize_of_dataTypeOffset (bind_ne_outOfBlob h)
  cases r with
  | none => exact ⟨_, .unknown helem⟩
  | some size =>
   rw [hcsSkipElements, dataTypeOffset_of_elemSize helem] at h
   obtain ⟨r, hrest⟩ := ih h
   exact ⟨r, .cons helem hrest⟩

theorem arrayCount_eq (align : Bool) (blob : List UInt8) (pos : ℕ) :
 hcsArrayCount align blob pos =
  (hcsByteCodeToUint (hcsWordLength align) blob (pos + hcsPrefixLength align)).map
   (· % 2 ^ 16) := by
 have word : ∀ n, (UInt16.ofNat n).toNat = n % 2 ^ 16 := fun n => UInt16.toNat_ofNat'
 rw [hcsArrayCount, hcsSwapToUint16, if_pos rfl]
 have read : hcsByteCodeToUint (hcsWordLength align) blob (pos + hcsPrefixLength align) =
  if align then hcsByteCodeToUint32 blob (pos + hcsPrefixLength align)
  else hcsByteCodeToUint16 blob (pos + hcsPrefixLength align) := by
  cases align <;> rfl
 rw [read]
 cases (if align then hcsByteCodeToUint32 blob (pos + hcsPrefixLength align)
  else hcsByteCodeToUint16 blob (pos + hcsPrefixLength align)) with
 | error stop => rfl
 | ok n => exact congrArg Except.ok (word n)

theorem fixedWidth_of_not_scalar {type : ℕ} (h : ¬ (type = configByte ∨ type = configWord ∨
 type = configDword ∨ type = configQword ∨ type = configString ∨ type = configReference)) :
 fixedWidth align type = none := by
 simp only [not_or] at h
 obtain ⟨byte, word, dword, qword, -, reference⟩ := h
 rw [fixedWidth, if_neg byte, if_neg word, if_neg (not_or.mpr ⟨dword, reference⟩), if_neg qword]

theorem dataLength_of_valueSize {r : Option ℕ} (h : ValueSize align blob pos r) :
 hcsGetDataLength align blob pos = sized r := by
 cases h with
 | @elem type r htype harray helem =>
  have size := dataTypeOffset_of_elemSize helem
  rw [hcsGetDataLength, prefix_of_typeAt htype]
  change (if _ then hcsGetDataTypeOffset align blob pos else
   if type = configArray then _ else throw HcsStop.failure : HcsRead ℕ) = _
  split_ifs with scalar
  · exact size
  · cases helem with
    | @fixed type' width htype' hwidth =>
     obtain rfl : type = type' := htype.2.symm.trans htype'.2
     rw [fixedWidth_of_not_scalar scalar] at hwidth
     cases hwidth
    | @string size htype' hname =>
     obtain rfl : type = configString := htype.2.symm.trans htype'.2
     exact absurd (by decide) scalar
    | unknown => rfl
 | @array count r htype hcount helems =>
  have words := arrayCount_eq align blob pos
  rw [uint_of_wordAt hcount] at words
  rw [hcsGetDataLength, prefix_of_typeAt htype]
  change hcsGetArrayLength align blob pos = _
  rw [hcsGetArrayLength, words]
  exact skipElements_of_elemsEnd helems

theorem valueSize_of_dataLength (h : hcsGetDataLength align blob pos ≠ .error .outOfBlob) :
 ∃ r, ValueSize align blob pos r := by
 obtain ⟨type, htype⟩ := typeAt_of_prefix (bind_ne_outOfBlob h)
 rw [hcsGetDataLength, prefix_of_typeAt htype] at h
 change (if _ then hcsGetDataTypeOffset align blob pos else
  if type = configArray then hcsGetArrayLength align blob pos else throw HcsStop.failure :
   HcsRead ℕ) ≠ _ at h
 by_cases harray : type = configArray
 · subst harray
   rw [if_neg (by decide), if_pos rfl] at h
   have words := arrayCount_eq align blob pos
   have first := bind_ne_outOfBlob h
   rw [words] at first
   have inside : hcsByteCodeToUint (hcsWordLength align) blob (pos + hcsPrefixLength align) ≠
    .error .outOfBlob := fun out => first (by rw [out]; rfl)
   obtain ⟨count, hcount⟩ := wordAt_of_uint inside
   rw [uint_of_wordAt hcount] at words
   rw [hcsGetArrayLength, words] at h
   obtain ⟨r, helems⟩ := elemsEnd_of_skipElements h
   exact ⟨r, .array htype hcount helems⟩
 · by_cases scalar : type = configByte ∨ type = configWord ∨ type = configDword ∨
    type = configQword ∨ type = configString ∨ type = configReference
   · rw [if_pos scalar] at h
     obtain ⟨r, helem⟩ := elemSize_of_dataTypeOffset h
     exact ⟨r, .elem htype harray helem⟩
   · have string : type ≠ configString := by
      rintro rfl
      exact scalar (by decide)
     exact ⟨none, .elem htype harray (.unknown htype (fixedWidth_of_not_scalar scalar) string)⟩

theorem token_of_tokenAt {r : Option Token} (h : TokenAt align blob pos r) :
 hcsGetNodeOrAttrLength align blob pos = sized (r.map Token.size) := by
 cases h with
 | @node size htype hname =>
  rw [hcsGetNodeOrAttrLength, prefix_of_typeAt htype]
  change (do
   let nameLen ← hcsStringLength align blob (pos + hcsPrefixLength align)
   return nameLen + hcsPrefixLength align + hcsDwordLength : HcsRead ℕ) = _
  rw [stringLength_of_nameAt hname]
  rfl
 | @attr size r htype hname hvalue =>
  rw [hcsGetNodeOrAttrLength, prefix_of_typeAt htype]
  change hcsGetAttrLength align blob pos = _
  rw [hcsGetAttrLength, stringLength_of_nameAt hname]
  change (do
   let dataLen ← hcsGetDataLength align blob (pos + (hcsPrefixLength align + size))
   return dataLen + (hcsPrefixLength align + size) : HcsRead ℕ) = _
  rw [dataLength_of_valueSize hvalue]
  cases r <;> rfl
 | @unknown type htype hnode hattr =>
  rw [hcsGetNodeOrAttrLength, prefix_of_typeAt htype]
  exact (if_neg hnode).trans (if_neg hattr)

theorem tokenAt_of_length (h : hcsGetNodeOrAttrLength align blob pos ≠ .error .outOfBlob) :
 ∃ r, TokenAt align blob pos r := by
 obtain ⟨type, htype⟩ := typeAt_of_prefix (bind_ne_outOfBlob h)
 rw [hcsGetNodeOrAttrLength, prefix_of_typeAt htype] at h
 by_cases hnode : type = configNode
 · subst hnode
   obtain ⟨size, hname⟩ := nameAt_of_stringLength (bind_ne_outOfBlob h)
   exact ⟨_, .node htype hname⟩
 by_cases hattr : type = configAttr
 · subst hattr
   change hcsGetAttrLength align blob pos ≠ _ at h
   obtain ⟨size, hname⟩ := nameAt_of_stringLength (bind_ne_outOfBlob h)
   rw [hcsGetAttrLength, stringLength_of_nameAt hname] at h
   obtain ⟨r, hvalue⟩ := valueSize_of_dataLength (bind_ne_outOfBlob h)
   exact ⟨_, .attr htype hname hvalue⟩
 · exact ⟨_, .unknown htype hnode hattr⟩

end

end DriversFramework.Hcs
