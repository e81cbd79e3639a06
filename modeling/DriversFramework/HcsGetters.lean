import DriversFramework.HcsShape

namespace DriversFramework.Hcs

open ByteCodec HcGen

/-- The value of an integer that `width` bytes can hold, at its recorded width. -/
def uintOf (width : ℕ) : Scalar → Option ℕ
 | .int type value =>
  if type.size ≤ width then some (value.toNat % 256 ^ type.size) else none
 | .string _ => none

abbrev Swap (α : Type) := Bool → List UInt8 → ℕ → ℕ → HcsRead (Option α)

def Swaps {α : Type} (swap : Swap α) (width : ℕ) (ofNat : ℕ → α) : Prop :=
 ∀ (align : Bool) (blob : List UInt8) (pos : ℕ) (type : IntType) (value : UInt64),
  Holds blob pos (chunk align (leBytes type.size value.toNat)) → type.size ≤ width →
  swap align blob pos type.opCode.toNat =
   .ok (some (ofNat (value.toNat % 256 ^ type.size)))

theorem swapToUint8_swaps : Swaps hcsSwapToUint8 1 UInt8.ofNat := by
 intro align blob pos type value h hsize
 rw [← leBytes_mod] at h
 cases type with
 | uint8 =>
  have read := word_of_holds h (by decide) (by decide) (Nat.mod_lt _ (by decide))
  rw [hcsSwapToUint8, if_pos (by rfl)]
  cases align <;> exact congrArg (Except.map fun v => some (UInt8.ofNat v)) read
 | uint16 | uint32 | uint64 => exact absurd hsize (by decide)

theorem swapToUint16_swaps : Swaps hcsSwapToUint16 2 UInt16.ofNat := by
 intro align blob pos type value h hsize
 cases type with
 | uint8 =>
  have wide : ∀ n, (UInt8.ofNat (n % 256 ^ 1)).toUInt16 = UInt16.ofNat (n % 256 ^ 1) := by
   intro n
   refine UInt16.toNat.inj ?_
   rw [UInt8.toNat_toUInt16, UInt8.toNat_ofNat', UInt16.toNat_ofNat']
   omega
  rw [hcsSwapToUint16, if_neg (by decide), swapToUint8_swaps align blob pos .uint8 value h le_rfl]
  exact congrArg (fun v => Except.ok (some v)) (wide value.toNat)
 | uint16 =>
  rw [← leBytes_mod] at h
  exact swapToUint16_word h (Nat.mod_lt _ (by decide))
 | uint32 | uint64 => exact absurd hsize (by decide)

theorem swapToUint32_swaps : Swaps hcsSwapToUint32 4 UInt32.ofNat := by
 intro align blob pos type value h hsize
 have narrow : type.size ≤ 2 → hcsSwapToUint32 align blob pos type.opCode.toNat =
  .ok (some (UInt32.ofNat (value.toNat % 256 ^ type.size))) := by
  intro small
  have other : type.opCode.toNat ≠ configDword := by
   revert small
   cases type <;> decide
  have fits : value.toNat % 256 ^ type.size < 2 ^ 16 := by
   revert small
   cases type <;> simp only [IntType.size] <;> omega
  have wide : (UInt16.ofNat (value.toNat % 256 ^ type.size)).toUInt32 =
   UInt32.ofNat (value.toNat % 256 ^ type.size) := by
   refine UInt32.toNat.inj ?_
   rw [UInt16.toNat_toUInt32, UInt16.toNat_ofNat', UInt32.toNat_ofNat']
   omega
  rw [hcsSwapToUint32, if_neg other, swapToUint16_swaps align blob pos type value h small, ← wide]
  rfl
 cases type with
 | uint8 | uint16 => exact narrow (by decide)
 | uint32 =>
  rw [← leBytes_mod] at h
  have read := dword_of_holds h (Nat.mod_lt _ (by decide))
  rw [hcsSwapToUint32, if_pos (by rfl), read]
  rfl
 | uint64 => exact absurd hsize (by decide)

theorem swapToUint64_swaps : Swaps hcsSwapToUint64 8 UInt64.ofNat := by
 intro align blob pos type value h hsize
 have narrow : type.size ≤ 4 → hcsSwapToUint64 align blob pos type.opCode.toNat =
  .ok (some (UInt64.ofNat (value.toNat % 256 ^ type.size))) := by
  intro small
  have other : type.opCode.toNat ≠ configQword := by
   revert small
   cases type <;> decide
  have fits : value.toNat % 256 ^ type.size < 2 ^ 32 := by
   revert small
   cases type <;> simp only [IntType.size] <;> omega
  have wide : (UInt32.ofNat (value.toNat % 256 ^ type.size)).toUInt64 =
   UInt64.ofNat (value.toNat % 256 ^ type.size) := by
   refine UInt64.toNat.inj ?_
   rw [UInt32.toNat_toUInt64, UInt32.toNat_ofNat', UInt64.toNat_ofNat']
   omega
  rw [hcsSwapToUint64, if_neg other, swapToUint32_swaps align blob pos type value h small, ← wide]
  rfl
 cases type with
 | uint8 | uint16 | uint32 => exact narrow (by decide)
 | uint64 =>
  have eight : chunk align (leBytes 8 (value.toNat % 256 ^ 8)) =
   leBytes 8 (value.toNat % 256 ^ 8) := by
   rw [chunk, leBytes_length]
   cases align <;> exact List.append_nil _
  rw [← leBytes_mod] at h
  have read := uint_of_holds (eight ▸ h) (by decide) (Nat.mod_lt _ (by decide))
  rw [hcsSwapToUint64, if_pos (by rfl), hcsByteCodeToUint64, IntType.size, read]
  rfl

section
variable {align : Bool} {blob : List UInt8} {pos : ℕ}

theorem getTyped_of_holds {α : Type} {swap : Swap α} {width n : ℕ} {ofNat : ℕ → α} {s : Scalar}
 (hswap : Swaps swap width ofNat) (h : Holds blob pos (s.code align))
 (hn : uintOf width s = some n) : getTyped swap align blob pos = .ok (ofNat n) := by
 cases s with
 | int type value =>
  rw [uintOf] at hn
  split_ifs at hn with hsize
  obtain rfl := Option.some.inj hn
  have word := Holds.right h
  rw [opCode_length, ← hcsPrefixLength_eq] at word
  rw [getTyped, prefix_of_holds (Holds.left h)]
  change (swap align blob (pos + hcsPrefixLength align) type.opCode.toNat >>= _) = _
  rw [hswap align blob _ type value word hsize]
  rfl
 | string value => cases hn

theorem getString_of_holds {text : Text} (h : Holds blob pos ((Scalar.string text).code align)) :
 getString align blob pos = .ok (pos + hcsPrefixLength align) ∧
  cString (blob.drop (pos + hcsPrefixLength align)) = text.bytes := by
 have body := Holds.right h
 rw [opCode_length, ← hcsPrefixLength_eq] at body
 refine ⟨?_, cString_of_holds body⟩
 rw [getString, prefix_of_holds (Holds.left h)]
 rfl

theorem scalars_take_drop {elements : List Scalar} {index : ℕ} {s : Scalar}
 (hs : elements[index]? = some s) :
 (elements.map (Scalar.code align)).flatten =
  ((elements.take index).map (Scalar.code align)).flatten ++
   (s.code align ++ ((elements.drop (index + 1)).map (Scalar.code align)).flatten) := by
 obtain ⟨hlt, rfl⟩ := List.getElem?_eq_some_iff.mp hs
 conv_lhs => rw [← List.take_append_drop index elements, List.drop_eq_getElem_cons hlt]
 rw [List.map_append, List.flatten_append, List.map_cons, List.flatten_cons]

theorem getArrayElem_of_holds {elements : List Scalar} {hash : ℕ → ℕ} {attr : DeviceResourceAttr}
 {index : ℕ} {s : Scalar}
 (h : Holds blob attr.value ((TermValue.array elements).code align hash))
 (hcount : elements.length < 2 ^ 16) (hs : elements[index]? = some s) :
 ∃ pos, getArrayElem align blob attr index = .ok pos ∧ Holds blob pos (s.code align) := by
 have hlt : index < elements.length := (List.getElem?_eq_some_iff.mp hs).1
 have body := elements_of_holds h
 rw [scalars_take_drop hs] at body
 have skip := skipElements_of_holds body.left
 rw [List.length_take, Nat.min_eq_left hlt.le] at skip
 have elem := body.right.left
 rw [Nat.add_assoc] at elem
 refine ⟨_, ?_, elem⟩
 rw [getArrayElem, prefix_of_holds (Holds.left h)]
 change (do
  let count ← hcsArrayCount align blob attr.value
  if index ≥ count then throw .failure
  else
   let offset ← hcsSkipElements align blob attr.value index
    (hcsWordLength align + hcsPrefixLength align)
   return attr.value + offset : HcsRead ℕ) = _
 rw [arrayCount_of_holds h hcount]
 refine (if_neg (not_le.mpr hlt)).trans ?_
 rw [Nat.add_comm (hcsWordLength align), skip]
 rfl

theorem elemNum_of_holds {elements : List Scalar} {hash : ℕ → ℕ} {node : DeviceResourceNode}
 {attr : DeviceResourceAttr} {name : List UInt8}
 (hattr : getAttrInNode blob node name = some attr)
 (h : Holds blob attr.value ((TermValue.array elements).code align hash))
 (hcount : elements.length < 2 ^ 16) :
 hcsGetElemNum align blob node name = .ok elements.length := by
 rw [hcsGetElemNum, hattr]
 change (do
  let type ← hcsGetPrefix align blob attr.value
  if type ≠ configArray then throw .failure
  else hcsArrayCount align blob attr.value : HcsRead ℕ) = _
 rw [prefix_of_holds (Holds.left h)]
 exact arrayCount_of_holds h hcount

theorem getArrayScalars_of_elems {α : Type} {swap : Swap α} {node : DeviceResourceNode}
 {name : List UInt8} (values : List α) (index : ℕ)
 (h : ∀ i v, values[i]? = some v →
  getArrayScalar swap align blob node name (index + i) = .ok v) :
 getArrayScalars swap align blob node name index values.length = .ok values := by
 induction values generalizing index with
 | nil => rfl
 | cons v values ih =>
  have rest := ih (index + 1) fun i w hw => by
   rw [Nat.add_assoc, Nat.add_comm 1]
   exact h (i + 1) w hw
  rw [List.length_cons, getArrayScalars, show index = index + 0 from rfl, h 0 v rfl]
  change (do
   let values ← getArrayScalars swap align blob node name (index + 1) values.length
   return v :: values : HcsRead (List α)) = _
  rw [rest]
  rfl

end

end DriversFramework.Hcs
