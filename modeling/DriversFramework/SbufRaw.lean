import DriversFramework.ByteCodec
import DriversFramework.RunRules

/-! Typed writes and reads of `hdf_sbuf_impl_raw.c`, on a little-endian machine with
a 64-bit `size_t`. The object itself is never null here and neither is the
source of an inner write; the `mem` flags say whether an allocation succeeds. -/
namespace DriversFramework.SbufRaw

open ByteCodec

def hdfSbufGrowSizeDefault : ℕ := 256

def hdfSbufMaxSize : ℕ := 512 * 1024

def hdfSbufAlign : ℕ := 4

def int16Max : ℕ := 32767

/-- `data` is the memory behind the pointer, `none` for null. -/
structure HdfSBufRaw where
 writePos : ℕ
 readPos : ℕ
 capacity : ℕ
 data : Option (List UInt8)
 isBind : Bool
 deriving DecidableEq

def osalMemCalloc (mem : Bool) (size : ℕ) : Option (List UInt8) :=
 if size = 0 || !mem then none else some (List.replicate size 0)

def rsizeMax : ℕ := 0x7FFFFFFF

def memcpyS (data : List UInt8) (dest destMax : ℕ) (src : List UInt8) : Bool × List UInt8 :=
 if destMax = 0 ∨ destMax > rsizeMax then (false, data)
 else if src.length > destMax then (false, splice data dest (List.replicate destMax 0))
 else (true, splice data dest src)

def sbufRawImplGetAlignSize (size : ℕ) : ℕ :=
 (size + hdfSbufAlign - 1) % 2 ^ 64 / hdfSbufAlign * hdfSbufAlign

def sbufRawImplGetLeftWriteSize (sbuf : HdfSBufRaw) : ℕ :=
 if sbuf.capacity < sbuf.writePos then 0 else sbuf.capacity - sbuf.writePos

def sbufRawImplGetLeftReadSize (sbuf : HdfSBufRaw) : ℕ :=
 if sbuf.writePos < sbuf.readPos then 0 else sbuf.writePos - sbuf.readPos

def sbufRawImplWriteRollback (sbuf : HdfSBufRaw) (size : ℕ) : HdfSBufRaw :=
 let alignSize := sbufRawImplGetAlignSize size
 if sbuf.writePos < alignSize then sbuf else { sbuf with writePos := sbuf.writePos - alignSize }

def sbufRawImplReadRollback (sbuf : HdfSBufRaw) (size : ℕ) : HdfSBufRaw :=
 let alignSize := sbufRawImplGetAlignSize size
 if sbuf.readPos < alignSize then sbuf else { sbuf with readPos := sbuf.readPos - alignSize }

def sbufRawImplGrow (sbuf : HdfSBufRaw) (mem : Bool) (growSize : ℕ) : Bool × HdfSBufRaw :=
 if sbuf.isBind then (false, sbuf)
 else
  let newSize := sbufRawImplGetAlignSize ((sbuf.capacity + growSize) % 2 ^ 64) % 2 ^ 32
  if newSize < sbuf.capacity then (false, sbuf)
  else if newSize > hdfSbufMaxSize then (false, sbuf)
  else match osalMemCalloc mem newSize with
   | none => (false, sbuf)
   | some newData =>
    match sbuf.data with
    | none => (true, { sbuf with data := some newData, capacity := newSize })
    | some data =>
     match memcpyS newData 0 newSize (data.take sbuf.writePos) with
     | (false, _) => (false, sbuf)
     | (true, newData) => (true, { sbuf with data := some newData, capacity := newSize })

def growSizeFor (alignSize : ℕ) : ℕ :=
 if alignSize > hdfSbufGrowSizeDefault then alignSize + hdfSbufGrowSizeDefault
 else hdfSbufGrowSizeDefault

/-- Growth, if it is needed, before a write of `alignSize` bytes. -/
def sbufRawImplReserve (sbuf : HdfSBufRaw) (mem : Bool) (alignSize : ℕ) : Bool × HdfSBufRaw :=
 if alignSize > sbufRawImplGetLeftWriteSize sbuf then
  sbufRawImplGrow sbuf mem (growSizeFor alignSize % 2 ^ 32)
 else (true, sbuf)

def sbufRawImplWrite (sbuf : HdfSBufRaw) (mem : Bool) (src : List UInt8) : Bool × HdfSBufRaw :=
 if sbuf.data = none then (false, sbuf)
 else if src.length = 0 then (true, sbuf)
 else
  let alignSize := sbufRawImplGetAlignSize src.length
  if alignSize < src.length then (false, sbuf)
  else match sbufRawImplReserve sbuf mem alignSize with
   | (false, sbuf) => (false, sbuf)
   | (true, sbuf) =>
    match memcpyS (sbuf.data.getD []) sbuf.writePos (sbufRawImplGetLeftWriteSize sbuf) src with
    | (false, data) => (false, { sbuf with data := some data })
    | (true, data) =>
     (true, { sbuf with data := some data, writePos := sbuf.writePos + alignSize })

/-- `out` says whether the caller's result pointer is not null. -/
def sbufRawImplRead (sbuf : HdfSBufRaw) (out : Bool) (readSize : ℕ) :
  Option (List UInt8) × HdfSBufRaw :=
 match sbuf.data with
 | none => (none, sbuf)
 | some data =>
  if !out then (none, sbuf)
  else if readSize = 0 then (some [], sbuf)
  else
   let alignSize := sbufRawImplGetAlignSize readSize
   if alignSize > sbufRawImplGetLeftReadSize sbuf then (none, sbuf)
   else (some (slice data sbuf.readPos readSize),
    { sbuf with readPos := sbuf.readPos + alignSize })

def sbufRawImplWriteUint64 (sbuf : HdfSBufRaw) (mem : Bool) (value : UInt64) :=
 sbufRawImplWrite sbuf mem (leBytes 8 value.toNat)

def sbufRawImplWriteUint32 (sbuf : HdfSBufRaw) (mem : Bool) (value : UInt32) :=
 sbufRawImplWrite sbuf mem (leBytes 4 value.toNat)

def sbufRawImplWriteUint16 (sbuf : HdfSBufRaw) (mem : Bool) (value : UInt16) :=
 sbufRawImplWrite sbuf mem (leBytes 2 value.toNat)

def sbufRawImplWriteUint8 (sbuf : HdfSBufRaw) (mem : Bool) (value : UInt8) :=
 sbufRawImplWrite sbuf mem (leBytes 1 value.toNat)

def sbufRawImplWriteInt64 (sbuf : HdfSBufRaw) (mem : Bool) (value : Int64) :=
 sbufRawImplWrite sbuf mem (leBytes 8 value.toUInt64.toNat)

def sbufRawImplWriteInt32 (sbuf : HdfSBufRaw) (mem : Bool) (value : Int32) :=
 sbufRawImplWrite sbuf mem (leBytes 4 value.toUInt32.toNat)

def sbufRawImplWriteInt16 (sbuf : HdfSBufRaw) (mem : Bool) (value : Int16) :=
 sbufRawImplWrite sbuf mem (leBytes 2 value.toUInt16.toNat)

def sbufRawImplWriteInt8 (sbuf : HdfSBufRaw) (mem : Bool) (value : Int8) :=
 sbufRawImplWrite sbuf mem (leBytes 1 value.toUInt8.toNat)

/-- The first `writeSize` bytes behind the pointer `data` are written. The two
inner writes may each need memory. -/
def sbufRawImplWriteBuffer (sbuf : HdfSBufRaw) (mem memData : Bool)
  (data : Option (List UInt8)) (writeSize : UInt32) : Bool × HdfSBufRaw :=
 match data with
 | none => sbufRawImplWriteInt32 sbuf mem 0
 | some data =>
  match sbufRawImplWriteInt32 sbuf mem writeSize.toInt32 with
  | (false, sbuf) => (false, sbuf)
  | (true, sbuf) =>
   match sbufRawImplWrite sbuf memData (data.take writeSize.toNat) with
   | (false, sbuf) => (false, sbufRawImplWriteRollback sbuf 4)
   | (true, sbuf) => (true, sbuf)

/-- A C string, without its terminator. -/
structure CString where
 bytes : List UInt8
 nulFree : 0 ∉ bytes

def sbufRawImplWriteString (sbuf : HdfSBufRaw) (mem memData : Bool) (value : Option CString) :
  Bool × HdfSBufRaw :=
 match value with
 | none => sbufRawImplWriteBuffer sbuf mem memData none 0
 | some value =>
  sbufRawImplWriteBuffer sbuf mem memData (some (value.bytes ++ [0]))
   (UInt32.ofNat (value.bytes.length + 1))

def sbufRawImplReadUint64 (sbuf : HdfSBufRaw) (out : Bool) : Option UInt64 × HdfSBufRaw :=
 (sbufRawImplRead sbuf out 8).map (Option.map fun bs => UInt64.ofNat (leNat bs)) id

def sbufRawImplReadUint32 (sbuf : HdfSBufRaw) (out : Bool) : Option UInt32 × HdfSBufRaw :=
 (sbufRawImplRead sbuf out 4).map (Option.map fun bs => UInt32.ofNat (leNat bs)) id

def sbufRawImplReadUint16 (sbuf : HdfSBufRaw) (out : Bool) : Option UInt16 × HdfSBufRaw :=
 (sbufRawImplRead sbuf out 2).map (Option.map fun bs => UInt16.ofNat (leNat bs)) id

def sbufRawImplReadUint8 (sbuf : HdfSBufRaw) (out : Bool) : Option UInt8 × HdfSBufRaw :=
 (sbufRawImplRead sbuf out 1).map (Option.map fun bs => UInt8.ofNat (leNat bs)) id

def sbufRawImplReadInt64 (sbuf : HdfSBufRaw) (out : Bool) : Option Int64 × HdfSBufRaw :=
 (sbufRawImplRead sbuf out 8).map (Option.map fun bs => (UInt64.ofNat (leNat bs)).toInt64) id

def sbufRawImplReadInt32 (sbuf : HdfSBufRaw) (out : Bool) : Option Int32 × HdfSBufRaw :=
 (sbufRawImplRead sbuf out 4).map (Option.map fun bs => (UInt32.ofNat (leNat bs)).toInt32) id

def sbufRawImplReadInt16 (sbuf : HdfSBufRaw) (out : Bool) : Option Int16 × HdfSBufRaw :=
 (sbufRawImplRead sbuf out 2).map (Option.map fun bs => (UInt16.ofNat (leNat bs)).toInt16) id

def sbufRawImplReadInt8 (sbuf : HdfSBufRaw) (out : Bool) : Option Int8 × HdfSBufRaw :=
 (sbufRawImplRead sbuf out 1).map (Option.map fun bs => (UInt8.ofNat (leNat bs)).toInt8) id

/-- An `int` given where a `size_t` is expected. -/
def sizeOfInt (n : Int32) : ℕ := (n.toInt % 2 ^ 64).toNat

/-- A pointer into the data is its offset, and `none` is the null pointer. -/
def sbufRawImplReadBuffer (sbuf : HdfSBufRaw) (out : Bool) :
  Option (Option ℕ × UInt32) × HdfSBufRaw :=
 if sbuf.data = none || !out then (none, sbuf)
 else match sbufRawImplReadInt32 sbuf true with
  | (none, sbuf) => (none, sbuf)
  | (some buffSize, sbuf) =>
   if buffSize = 0 then (some (none, 0), sbuf)
   else
    let alignSize := sbufRawImplGetAlignSize (sizeOfInt buffSize)
    if alignSize > sbufRawImplGetLeftReadSize sbuf then
     (none, sbufRawImplReadRollback sbuf 4)
    else
     (some (some sbuf.readPos, buffSize.toUInt32),
      { sbuf with readPos := sbuf.readPos + alignSize })

def sbufRawImplReadString (sbuf : HdfSBufRaw) : Option ℕ × HdfSBufRaw :=
 if sbuf.data = none then (none, sbuf)
 else match sbufRawImplReadInt32 sbuf true with
  | (none, sbuf) => (none, sbuf)
  | (some strLen, sbuf) =>
   if strLen ≤ 0 then (none, sbuf)
   else
    let alignSize := sbufRawImplGetAlignSize (sizeOfInt strLen)
    if strLen.toInt > int16Max ∨ alignSize > sbufRawImplGetLeftReadSize sbuf then
     (none, sbufRawImplReadRollback sbuf 4)
    else
     let str := sbuf.readPos
     (some str,
      { sbuf with
        readPos := sbuf.readPos + alignSize
        data := sbuf.data.map fun d => d.set (str + (sizeOfInt strLen - 1)) 0 })

/-- `obj` says whether the object itself could be allocated. -/
def sbufRawImplNewInstance (obj mem : Bool) (capacity : ℕ) : Option HdfSBufRaw :=
 if capacity > hdfSbufMaxSize then none
 else if !obj then none
 else match osalMemCalloc mem capacity with
  | none => none
  | some data => some ⟨0, 0, capacity, some data, false⟩

def sbufObtainRaw (obj mem : Bool) (capacity : ℕ) : Option HdfSBufRaw :=
 sbufRawImplNewInstance obj mem capacity

/-- `content` is the memory found at the address `base`. -/
def sbufBindRaw (obj : Bool) (base : ℕ) (content : List UInt8) : Option HdfSBufRaw :=
 if base = 0 || content.length = 0 then none
 else if base % 4 ≠ 0 then none
 else if !obj then none
 else some ⟨content.length, 0, content.length, some content, true⟩

/-- The memory behind the object. -/
def HdfSBufRaw.bytes (sbuf : HdfSBufRaw) : List UInt8 := sbuf.data.getD []

structure HdfSBufRaw.Sound (sbuf : HdfSBufRaw) : Prop where
 read_le_write : sbuf.readPos ≤ sbuf.writePos
 write_le_capacity : sbuf.writePos ≤ sbuf.capacity
 capacity_eq : sbuf.bytes.length = sbuf.capacity

end DriversFramework.SbufRaw
