import DriversFramework.ByteCodec

/-! The functions of `hcs_blob_if.c` over a blob given as its bytes, on a
little-endian machine. A pointer is an offset into the blob. The global
`g_byteAlign` is passed as `align`. -/
namespace DriversFramework.Hcs

open ByteCodec

def configNode : ℕ := 0x1

def configAttr : ℕ := 0x2

def configReference : ℕ := 0x3

def configArray : ℕ := 0x4

def configByte : ℕ := 0x10

def configWord : ℕ := 0x11

def configDword : ℕ := 0x12

def configQword : ℕ := 0x13

def configString : ℕ := 0x14

def hbcMagicNumber : ℕ := 0xA00AA00A

def hbcHeaderLength : ℕ := 20

def hbcBlobMaxLength : ℕ := 1024 * 1024 * 10

/-- Why a function of the reader gives no result: it read a byte that is not in
the blob, or it reported `HDF_FAILURE`. -/
inductive HcsStop where
 | outOfBlob
 | failure
 deriving DecidableEq

abbrev HcsRead := Except HcsStop

/-- Every read of a blob goes through here or through `strlen`. -/
def hcsByteCodeToUint (width : ℕ) (blob : List UInt8) (start : ℕ) : HcsRead ℕ :=
 if start + width ≤ blob.length then .ok (leNat (slice blob start width))
 else .error .outOfBlob

def hcsByteCodeToUint8 := hcsByteCodeToUint 1

def hcsByteCodeToUint16 := hcsByteCodeToUint 2

def hcsByteCodeToUint32 := hcsByteCodeToUint 4

def hcsByteCodeToUint64 := hcsByteCodeToUint 8

def strlen (blob : List UInt8) (str : ℕ) : HcsRead ℕ :=
 if 0 ∈ blob.drop str then .ok (cString (blob.drop str)).length else .error .outOfBlob

def hcsPrefixLength (align : Bool) : ℕ := if align then 4 else 1

def hcsByteLength (align : Bool) : ℕ := if align then 4 else 1

def hcsWordLength (align : Bool) : ℕ := if align then 4 else 2

def hcsDwordLength : ℕ := 4

def hcsQwordLength : ℕ := 8

/-- The size a string of `n` letters takes with its terminator. -/
def hcsAlignedString (align : Bool) (n : ℕ) : ℕ := if align then align4 (n + 1) else n + 1

def hcsStringLength (align : Bool) (blob : List UInt8) (str : ℕ) : HcsRead ℕ :=
 (strlen blob str).map (hcsAlignedString align)

def hcsGetPrefix (align : Bool) (blob : List UInt8) (start : ℕ) : HcsRead ℕ :=
 if align then hcsByteCodeToUint32 blob start else hcsByteCodeToUint8 blob start

def hcsGetDataTypeOffset (align : Bool) (blob : List UInt8) (start : ℕ) : HcsRead ℕ := do
 let type ← hcsGetPrefix align blob start
 if type = configByte then return hcsByteLength align + hcsPrefixLength align
 else if type = configWord then return hcsWordLength align + hcsPrefixLength align
 else if type = configDword ∨ type = configReference then
  return hcsDwordLength + hcsPrefixLength align
 else if type = configQword then return hcsQwordLength + hcsPrefixLength align
 else if type = configString then
  let len ← hcsStringLength align blob (start + hcsPrefixLength align)
  return len + hcsPrefixLength align
 else throw .failure

/-- `none` stands for the return value false: the type does not fit. -/
def hcsSwapToUint8 (align : Bool) (blob : List UInt8) (realValue type : ℕ) :
  HcsRead (Option UInt8) :=
 if type = configByte then
  (if align then hcsByteCodeToUint32 blob realValue
   else hcsByteCodeToUint8 blob realValue).map fun v => some (UInt8.ofNat v)
 else .ok none

def hcsSwapToUint16 (align : Bool) (blob : List UInt8) (realValue type : ℕ) :
  HcsRead (Option UInt16) :=
 if type = configWord then
  (if align then hcsByteCodeToUint32 blob realValue
   else hcsByteCodeToUint16 blob realValue).map fun v => some (UInt16.ofNat v)
 else (hcsSwapToUint8 align blob realValue type).map (Option.map UInt8.toUInt16)

def hcsSwapToUint32 (align : Bool) (blob : List UInt8) (realValue type : ℕ) :
  HcsRead (Option UInt32) :=
 if type = configDword then
  (hcsByteCodeToUint32 blob realValue).map fun v => some (UInt32.ofNat v)
 else (hcsSwapToUint16 align blob realValue type).map (Option.map UInt16.toUInt32)

def hcsSwapToUint64 (align : Bool) (blob : List UInt8) (realValue type : ℕ) :
  HcsRead (Option UInt64) :=
 if type = configQword then
  (hcsByteCodeToUint64 blob realValue).map fun v => some (UInt64.ofNat v)
 else (hcsSwapToUint32 align blob realValue type).map (Option.map UInt32.toUInt64)

def hcsArrayCount (align : Bool) (blob : List UInt8) (start : ℕ) : HcsRead ℕ := do
 match ← hcsSwapToUint16 align blob (start + hcsPrefixLength align) configWord with
 | none => throw .failure
 | some count => return count.toNat

/-- The end of `count` elements, the first of them at `arrayLen` behind `start`. -/
def hcsSkipElements (align : Bool) (blob : List UInt8) (start : ℕ) :
  (count arrayLen : ℕ) → HcsRead ℕ
 | 0, arrayLen => return arrayLen
 | count + 1, arrayLen => do
  let lenData ← hcsGetDataTypeOffset align blob (start + arrayLen)
  hcsSkipElements align blob start count (arrayLen + lenData)

def hcsGetArrayLength (align : Bool) (blob : List UInt8) (start : ℕ) : HcsRead ℕ := do
 let count ← hcsArrayCount align blob start
 hcsSkipElements align blob start count (hcsPrefixLength align + hcsWordLength align)

/-- The switch in `HcsGetAttrLength` over the type of the value. -/
def hcsGetDataLength (align : Bool) (blob : List UInt8) (start : ℕ) : HcsRead ℕ := do
 let type ← hcsGetPrefix align blob start
 if type = configByte ∨ type = configWord ∨ type = configDword ∨ type = configQword ∨
   type = configString ∨ type = configReference then
  hcsGetDataTypeOffset align blob start
 else if type = configArray then hcsGetArrayLength align blob start
 else throw .failure

def hcsGetAttrLength (align : Bool) (blob : List UInt8) (start : ℕ) : HcsRead ℕ := do
 let nameLen ← hcsStringLength align blob (start + hcsPrefixLength align)
 let length := hcsPrefixLength align + nameLen
 let dataLen ← hcsGetDataLength align blob (start + length)
 return dataLen + length

def hcsGetNodeOrAttrLength (align : Bool) (blob : List UInt8) (start : ℕ) : HcsRead ℕ := do
 let type ← hcsGetPrefix align blob start
 if type = configNode then
  let nameLen ← hcsStringLength align blob (start + hcsPrefixLength align)
  return nameLen + hcsPrefixLength align + hcsDwordLength
 else if type = configAttr then hcsGetAttrLength align blob start
 else throw .failure

def int32OfUint32 (n : ℕ) : ℤ :=
 if n % 2 ^ 32 < 2 ^ 31 then (n % 2 ^ 32 : ℕ) else (n % 2 ^ 32 : ℕ) - 2 ^ 32

theorem int32OfUint32_of_lt {n : ℕ} (h : n < 2 ^ 31) : int32OfUint32 n = (n : ℤ) := by
 have small : n % 2 ^ 32 = n := Nat.mod_eq_of_lt (by omega)
 rw [int32OfUint32, small, if_pos h]

/-- The sum with the sub-size is taken in `uint32_t` and kept in an `int32_t`. -/
def hcsGetNodeLength (align : Bool) (blob : List UInt8) (start : ℕ) : HcsRead ℤ := do
 let rootLen ← hcsGetNodeOrAttrLength align blob start
 let nameLen ← hcsStringLength align blob (start + hcsPrefixLength align)
 let subSize ← hcsByteCodeToUint32 blob (start + hcsPrefixLength align + nameLen)
 return int32OfUint32 (rootLen + subSize)

structure HbcHeader where
 magicNumber : ℕ
 totalSize : ℤ

def hbcHeader (blob : List UInt8) : HbcHeader where
 magicNumber := leNat (slice blob 0 4)
 totalSize := int32OfUint32 (leNat (slice blob 16 4))

def minBlobLength (gByteAlign : Bool) : ℕ :=
 hcsAlignedString gByteAlign "root".length + hcsPrefixLength gByteAlign + hcsDwordLength +
  hbcHeaderLength

/-- Returns the outcome of the check and the new value of `g_byteAlign`. -/
def checkHcsBlobLength (gByteAlign : Bool) (length : ℕ) (header : HbcHeader) : Bool × Bool :=
 let minLength := minBlobLength gByteAlign
 let align : Bool := !decide (header.totalSize ≥ 0)
 let blobLength : ℕ :=
  if header.totalSize ≥ 0 then ((hbcHeaderLength + header.totalSize) % 2 ^ 32).toNat
  else ((hbcHeaderLength - header.totalSize) % 2 ^ 32).toNat
 (!decide (length ≠ blobLength ∨ blobLength < minLength), align)

def hcsCheckBlobFormat (gByteAlign : Bool) (blob : List UInt8) : Bool × Bool :=
 let length := blob.length
 if length < hbcHeaderLength ∨ length > hbcBlobMaxLength then (false, gByteAlign)
 else if (hbcHeader blob).magicNumber ≠ hbcMagicNumber then (false, gByteAlign)
 else checkHcsBlobLength gByteAlign length (hbcHeader blob)

end DriversFramework.Hcs
