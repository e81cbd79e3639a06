import DriversFramework.HcsTree
import DriversFramework.HcGenLayout

namespace DriversFramework.Hcs

open ByteCodec HcGen

theorem hcsPrefixLength_eq (align : Bool) : hcsPrefixLength align = alignSize align 1 := by
 cases align <;> rfl

theorem hcsByteLength_eq (align : Bool) : hcsByteLength align = alignSize align 1 := by
 cases align <;> rfl

theorem hcsWordLength_eq (align : Bool) : hcsWordLength align = alignSize align 2 := by
 cases align <;> rfl

theorem hcsDwordLength_eq (align : Bool) : hcsDwordLength = alignSize align 4 := by
 cases align <;> rfl

theorem hcsQwordLength_eq (align : Bool) : hcsQwordLength = alignSize align 8 := by
 cases align <;> rfl

section
variable {align : Bool} {blob : List UInt8} {pos : ℕ}

theorem uint_of_holds {width n : ℕ} (h : Holds blob pos (leBytes width n)) (hw : 0 < width)
 (hn : n < 256 ^ width) : hcsByteCodeToUint width blob pos = .ok n := by
 have inside := h.end_le (by rw [leBytes_length]; exact hw)
 have bytes := h.slice_eq
 rw [leBytes_length] at inside bytes
 rw [hcsByteCodeToUint, if_pos inside, bytes, leNat_leBytes_of_lt hn]

theorem chunk_aligned {width n : ℕ} (hw : 0 < width) (hw4 : width ≤ 4) (hn : n < 256 ^ width) :
 chunk true (leBytes width n) = leBytes 4 n := by
 have four : alignSize true width = 4 := by
  simp only [alignSize, if_true, align4]
  omega
 rw [chunk, leBytes_length, four, leBytes_append_zeros _ _ _ hn]
 congr 1
 omega

theorem chunk_unaligned (data : List UInt8) : chunk false data = data := by
 simp only [chunk, alignSize, Bool.false_eq_true, if_false, Nat.sub_self, List.replicate_zero,
  List.append_nil]

theorem word_of_holds {width n : ℕ} (h : Holds blob pos (chunk align (leBytes width n)))
 (hw : 0 < width) (hw4 : width ≤ 4) (hn : n < 256 ^ width) :
 (if align then hcsByteCodeToUint32 blob pos else hcsByteCodeToUint width blob pos) = .ok n := by
 cases align with
 | true =>
  rw [chunk_aligned hw hw4 hn] at h
  exact uint_of_holds h (by omega) (hn.trans_le (Nat.pow_le_pow_right (by omega) hw4))
 | false =>
  rw [chunk_unaligned] at h
  exact uint_of_holds h hw hn

theorem prefix_of_holds {op : UInt8} (h : Holds blob pos (opCode align op)) :
 hcsGetPrefix align blob pos = .ok op.toNat := by
 have one : [op] = leBytes 1 op.toNat := by
  simp only [leBytes, UInt8.ofNat_toNat]
 rw [opCode, one] at h
 exact word_of_holds h (by omega) (by omega) op.toNat_lt

theorem dword_of_holds {n : ℕ} (h : Holds blob pos (chunk align (leBytes 4 n)))
 (hn : n < 2 ^ 32) : hcsByteCodeToUint32 blob pos = .ok n := by
 have read := word_of_holds h (by omega) (by omega) (by exact hn)
 cases align <;> exact read

theorem cString_of_holds {text : Text} (h : Holds blob pos (textCode align text)) :
 cString (blob.drop pos) = text.bytes := by
 obtain ⟨rest, hrest⟩ := h
 rw [← hrest, textCode, chunk, List.append_assoc, List.append_assoc]
 exact cString_append text.nulFree _

theorem strlen_of_holds {text : Text} (h : Holds blob pos (textCode align text)) :
 strlen blob pos = .ok text.bytes.length := by
 have nul : 0 ∈ blob.drop pos := by
  refine h.subset ?_
  simp only [textCode, chunk, List.mem_append, List.mem_singleton, true_or, or_true]
 rw [strlen, if_pos nul, cString_of_holds h]

theorem stringLength_of_holds {text : Text} (h : Holds blob pos (textCode align text)) :
 hcsStringLength align blob pos = .ok (textCode align text).length := by
 rw [hcsStringLength, strlen_of_holds h, textCode_length]
 rfl

theorem dataTypeOffset_scalar {s : Scalar} (h : Holds blob pos (s.code align)) :
 hcsGetDataTypeOffset align blob pos = .ok (s.code align).length := by
 cases s with
 | int type value =>
  have read := prefix_of_holds (Holds.left h)
  have size : (Scalar.code align (.int type value)).length =
   alignSize align type.size + hcsPrefixLength align := by
   rw [Scalar.code_length, Scalar.size, hcsPrefixLength_eq, Nat.add_comm]
  rw [hcsGetDataTypeOffset, read, size]
  cases type
  · rw [IntType.size, ← hcsByteLength_eq]
    rfl
  · rw [IntType.size, ← hcsWordLength_eq]
    rfl
  · rw [IntType.size, ← hcsDwordLength_eq]
    rfl
  · rw [IntType.size, ← hcsQwordLength_eq]
    rfl
 | string value =>
  have read := prefix_of_holds (Holds.left h)
  have len := stringLength_of_holds (Holds.right h)
  rw [opCode_length, ← hcsPrefixLength_eq] at len
  have size : (Scalar.code align (.string value)).length =
   (textCode align value).length + hcsPrefixLength align := by
   rw [Scalar.code, List.length_append, opCode_length, hcsPrefixLength_eq, Nat.add_comm]
  rw [hcsGetDataTypeOffset, read, size]
  change (do
   let len ← hcsStringLength align blob (pos + hcsPrefixLength align)
   return len + hcsPrefixLength align : HcsRead ℕ) = _
  rw [len]
  rfl

variable {hash : ℕ → ℕ}

theorem dataTypeOffset_nodeRef {refNode : ℕ}
 (h : Holds blob pos ((TermValue.nodeRef refNode).code align hash)) :
 hcsGetDataTypeOffset align blob pos =
  .ok ((TermValue.nodeRef refNode).code align hash).length := by
 have read := prefix_of_holds (Holds.left h)
 have size : ((TermValue.nodeRef refNode).code align hash).length =
  hcsDwordLength + hcsPrefixLength align := by
  rw [TermValue.code_length, TermValue.size, hcsPrefixLength_eq, hcsDwordLength_eq align,
   Nat.add_comm]
 rw [hcsGetDataTypeOffset, read, size]
 rfl

variable {elements : List Scalar}

theorem skipElements_of_holds {arrayLen : ℕ}
 (h : Holds blob (pos + arrayLen) (elements.map (Scalar.code align)).flatten) :
 hcsSkipElements align blob pos elements.length arrayLen =
  .ok (arrayLen + (elements.map (Scalar.code align)).flatten.length) := by
 induction elements generalizing arrayLen with
 | nil => rfl
 | cons e elements ih =>
  rw [List.map_cons, List.flatten_cons] at h ⊢
  have first := dataTypeOffset_scalar h.left
  have rest := h.right
  rw [Nat.add_assoc] at rest
  rw [List.length_cons, hcsSkipElements, first]
  refine (ih rest).trans ?_
  rw [List.length_append, Nat.add_assoc]

theorem swapToUint16_word {n : ℕ} (h : Holds blob pos (chunk align (leBytes 2 n)))
 (hn : n < 2 ^ 16) : hcsSwapToUint16 align blob pos configWord = .ok (some (UInt16.ofNat n)) := by
 have read := word_of_holds h (by omega) (by omega) (by exact hn)
 rw [hcsSwapToUint16, if_pos rfl]
 cases align <;> exact congrArg (Except.map fun v => some (UInt16.ofNat v)) read

theorem arrayCount_of_holds (h : Holds blob pos ((TermValue.array elements).code align hash))
 (hcount : elements.length < 2 ^ 16) :
 hcsArrayCount align blob pos = .ok elements.length := by
 have word := (Holds.right h).left
 rw [opCode_length, ← hcsPrefixLength_eq] at word
 rw [hcsArrayCount, swapToUint16_word word hcount]
 change Except.ok (UInt16.ofNat elements.length).toNat = _
 rw [UInt16.toNat_ofNat', Nat.mod_eq_of_lt hcount]

theorem elements_of_holds (h : Holds blob pos ((TermValue.array elements).code align hash)) :
 Holds blob (pos + (hcsPrefixLength align + hcsWordLength align))
  (elements.map (Scalar.code align)).flatten := by
 have behind := (Holds.right h).right
 rwa [opCode_length, chunk_length, leBytes_length, ← hcsPrefixLength_eq, ← hcsWordLength_eq,
  Nat.add_assoc] at behind

theorem arrayLength_of_holds (h : Holds blob pos ((TermValue.array elements).code align hash))
 (hcount : elements.length < 2 ^ 16) :
 hcsGetArrayLength align blob pos =
  .ok ((TermValue.array elements).code align hash).length := by
 rw [hcsGetArrayLength, arrayCount_of_holds h hcount]
 refine (skipElements_of_holds (elements_of_holds h)).trans ?_
 rw [TermValue.code, List.length_append, List.length_append, opCode_length, chunk_length,
  leBytes_length, hcsPrefixLength_eq, hcsWordLength_eq, Nat.add_assoc]

variable {name : Text} {value : TermValue}

theorem dataLength_of_holds (h : Holds blob pos (value.code align hash)) (hvalue : value.Counted) :
 hcsGetDataLength align blob pos = .ok (value.code align hash).length := by
 cases value with
 | scalar s =>
  have len := dataTypeOffset_scalar h
  have read : ∃ op ∈ [0x10, 0x11, 0x12, 0x13, 0x14], hcsGetPrefix align blob pos = .ok op := by
   cases s with
   | int type value =>
    refine ⟨_, ?_, prefix_of_holds (Holds.left h)⟩
    cases type <;> decide
   | string value => exact ⟨_, by decide, prefix_of_holds (Holds.left h)⟩
  have scalar : ∀ op ∈ [0x10, 0x11, 0x12, 0x13, 0x14], op = configByte ∨ op = configWord ∨
   op = configDword ∨ op = configQword ∨ op = configString ∨ op = configReference := by
   decide
  obtain ⟨op, hop, read⟩ := read
  rw [hcsGetDataLength, read]
  exact (if_pos (scalar op hop)).trans len
 | array elements =>
  rw [hcsGetDataLength, prefix_of_holds (Holds.left h)]
  exact arrayLength_of_holds h hvalue
 | nodeRef refNode =>
  rw [hcsGetDataLength, prefix_of_holds (Holds.left h)]
  exact dataTypeOffset_nodeRef h

theorem attrLength_of_holds (h : Holds blob pos (termHeader align name ++ value.code align hash))
 (hvalue : value.Counted) :
 hcsGetAttrLength align blob pos =
  .ok (termHeader align name ++ value.code align hash).length := by
 have text := Holds.right h.left
 have body := h.right
 rw [opCode_length, ← hcsPrefixLength_eq] at text
 have header : (termHeader align name).length =
  hcsPrefixLength align + (textCode align name).length := by
  rw [termHeader, List.length_append, opCode_length, hcsPrefixLength_eq]
 rw [header] at body
 rw [hcsGetAttrLength, stringLength_of_holds text, List.length_append, header,
  Nat.add_comm _ (value.code align hash).length]
 change (do
  let dataLen ← hcsGetDataLength align blob
   (pos + (hcsPrefixLength align + (textCode align name).length))
  return dataLen + (hcsPrefixLength align + (textCode align name).length) : HcsRead ℕ) = _
 rw [dataLength_of_holds body hvalue]
 rfl

theorem termLength_of_holds (h : Holds blob pos (termHeader align name ++ value.code align hash))
 (hvalue : value.Counted) :
 hcsGetNodeOrAttrLength align blob pos =
  .ok (termHeader align name ++ value.code align hash).length := by
 rw [hcsGetNodeOrAttrLength, prefix_of_holds (Holds.left h.left)]
 exact attrLength_of_holds h hvalue

theorem nodeLength_of_holds {subSize : ℕ}
 (h : Holds blob pos (nodeHeader align name subSize)) :
 hcsGetNodeOrAttrLength align blob pos = .ok (nodeHeader align name subSize).length := by
 have text := (Holds.right h).left
 rw [opCode_length, ← hcsPrefixLength_eq] at text
 have size : (nodeHeader align name subSize).length =
  (textCode align name).length + hcsPrefixLength align + hcsDwordLength := by
  rw [nodeHeader_length, textCode_length, hcsPrefixLength_eq, hcsDwordLength_eq align,
   Nat.add_comm (alignSize align 1)]
 rw [hcsGetNodeOrAttrLength, prefix_of_holds (Holds.left h), size]
 change (do
  let nameLen ← hcsStringLength align blob (pos + hcsPrefixLength align)
  return nameLen + hcsPrefixLength align + hcsDwordLength : HcsRead ℕ) = _
 rw [stringLength_of_holds text]
 rfl

theorem subSize_of_holds {subSize : ℕ} (hsub : subSize < 2 ^ 32)
 (h : Holds blob pos (nodeHeader align name subSize)) :
 hcsByteCodeToUint32 blob (pos + hcsPrefixLength align + (textCode align name).length) =
  .ok subSize := by
 have word := (Holds.right h).right
 rw [opCode_length, ← hcsPrefixLength_eq] at word
 exact dword_of_holds word hsub

end

end DriversFramework.Hcs
