import DriversFramework.SbufRead

namespace DriversFramework.SbufRaw

open ByteCodec

def HdfSBufRaw.content (s : HdfSBufRaw) : List UInt8 := s.bytes.take s.writePos

def HdfSBufRaw.unread (s : HdfSBufRaw) : List UInt8 := s.content.drop s.readPos

/-- Memory of at most 4GB, as a `uint32_t` length can describe it. -/
structure Buffer where
 bytes : List UInt8
 small : bytes.length < 2 ^ 32

inductive TypedWrite where
 | int (value : IntValue)
 | float (bits : UInt32)
 | double (bits : UInt64)
 | buffer (data : Buffer)
 | nullBuffer (writeSize : UInt32)
 | string (value : Option CString)

inductive TypedValue where
 | int (value : IntValue)
 | buffer (bytes : List UInt8)
 | string (bytes : List UInt8)
 deriving DecidableEq

def sbufWriteInt (s : HdfSBufRaw) (mem : Bool) : IntValue → Bool × HdfSBufRaw
 | .uint64 value => sbufRawImplWriteUint64 s mem value
 | .uint32 value => sbufRawImplWriteUint32 s mem value
 | .uint16 value => sbufRawImplWriteUint16 s mem value
 | .uint8 value => sbufRawImplWriteUint8 s mem value
 | .int64 value => sbufRawImplWriteInt64 s mem value
 | .int32 value => sbufRawImplWriteInt32 s mem value
 | .int16 value => sbufRawImplWriteInt16 s mem value
 | .int8 value => sbufRawImplWriteInt8 s mem value

def typedWrite (s : HdfSBufRaw) (mem memData : Bool) : TypedWrite → Bool × HdfSBufRaw
 | .int value => sbufWriteInt s mem value
 | .float _ => (false, s)
 | .double _ => (false, s)
 | .buffer data =>
  sbufRawImplWriteBuffer s mem memData (some data.bytes) (UInt32.ofNat data.bytes.length)
 | .nullBuffer writeSize => sbufRawImplWriteBuffer s mem memData none writeSize
 | .string value => sbufRawImplWriteString s mem memData value

/-- A write and the outcome of its two possible allocations; defined if it returns true. -/
def writeStep (s : HdfSBufRaw) (w : TypedWrite × Bool × Bool) : Option HdfSBufRaw :=
 match typedWrite s w.2.1 w.2.2 w.1 with
 | (true, t) => some t
 | (false, _) => none

def IntValue.type : IntValue → IntType
 | .uint64 _ => .uint64
 | .uint32 _ => .uint32
 | .uint16 _ => .uint16
 | .uint8 _ => .uint8
 | .int64 _ => .int64
 | .int32 _ => .int32
 | .int16 _ => .int16
 | .int8 _ => .int8

def bufferAt (s : HdfSBufRaw) (data : Option ℕ) (readSize : UInt32) : List UInt8 :=
 match data with
 | none => []
 | some data => slice s.bytes data readSize.toNat

def stringAt (s : HdfSBufRaw) (str : ℕ) : List UInt8 := cString (s.bytes.drop str)

def readMatching (s : HdfSBufRaw) : TypedWrite → Option TypedValue × HdfSBufRaw
 | .int value => (sbufReadInt s true value.type).map (Option.map .int) id
 | .float _ => (none, s)
 | .double _ => (none, s)
 | .buffer _ | .nullBuffer _ =>
  let r := sbufRawImplReadBuffer s true
  (r.1.map fun p => .buffer (bufferAt r.2 p.1 p.2), r.2)
 | .string _ =>
  let r := sbufRawImplReadString s
  (r.1.map fun str => .string (stringAt r.2 str), r.2)

def readBack (s : HdfSBufRaw) : List TypedWrite → List (Option TypedValue) × HdfSBufRaw
 | [] => ([], s)
 | w :: ws =>
  let r := readMatching s w
  let rest := readBack r.2 ws
  (r.1 :: rest.1, rest.2)

/-- What a read of the written value returns; a null string is returned as null. -/
def TypedWrite.value : TypedWrite → Option TypedValue
 | .int value => some (.int value)
 | .float _ => none
 | .double _ => none
 | .buffer data => some (.buffer data.bytes)
 | .nullBuffer _ => some (.buffer [])
 | .string value => value.map fun v => .string v.bytes

/-- The matching reads return the written values and leave nothing to read. -/
def RoundTrips (s : HdfSBufRaw) (ws : List TypedWrite) : Prop :=
 (readBack s ws).1 = ws.map TypedWrite.value ∧ sbufRawImplGetLeftReadSize (readBack s ws).2 = 0

/-- With its terminator the string is within the limit of the reader. -/
def TypedWrite.Short : TypedWrite → Prop
 | .string (some value) => value.bytes.length + 1 ≤ int16Max
 | _ => True

structure KeepsContent (s t : HdfSBufRaw) : Prop where
 sound : t.Sound
 present : t.data ≠ none
 content : t.content = s.content
 writePos : t.writePos = s.writePos
 readPos : t.readPos = s.readPos

theorem memcpyS_true {data src out : List UInt8} {dest destMax : ℕ}
  (h : memcpyS data dest destMax src = (true, out)) :
  src.length ≤ destMax ∧ destMax ≤ rsizeMax ∧ out = splice data dest src := by
 unfold memcpyS at h
 split_ifs at h with limit fits
 · cases h
 · cases h
 · cases h
   exact ⟨by omega, by omega, rfl⟩

variable {s : HdfSBufRaw}

theorem HdfSBufRaw.Sound.content_length (h : s.Sound) : s.content.length = s.writePos := by
 rw [HdfSBufRaw.content, List.length_take, h.capacity_eq, min_eq_left h.write_le_capacity]

variable {mem : Bool}

theorem osalMemCalloc_some {size : ℕ} {data : List UInt8}
  (h : osalMemCalloc mem size = some data) : data = List.replicate size 0 := by
 unfold osalMemCalloc at h
 split_ifs at h
 cases h
 rfl

variable {t : HdfSBufRaw}

theorem grow_true {growSize : ℕ} (hs : s.Sound) (h : sbufRawImplGrow s mem growSize = (true, t)) :
  KeepsContent s t ∧ s.capacity ≤ t.capacity ∧ t.capacity ≤ hdfSbufMaxSize ∧
   t.capacity = sbufRawImplGetAlignSize ((s.capacity + growSize) % 2 ^ 64) % 2 ^ 32 := by
 unfold sbufRawImplGrow at h
 dsimp only at h
 split_ifs at h with bound small large
 · cases h
 · cases h
 · cases h
 · generalize sbufRawImplGetAlignSize ((s.capacity + growSize) % 2 ^ 64) % 2 ^ 32 = newSize at *
   have grown : s.capacity ≤ newSize := by omega
   have limit : newSize ≤ hdfSbufMaxSize := by omega
   have inside : s.writePos ≤ newSize := hs.write_le_capacity.trans grown
   split at h
   · cases h
   · rename_i newData hnew
     have fresh := osalMemCalloc_some hnew
     split at h
     · rename_i hnone
       cases h
       have empty : s.capacity = 0 := by
        rw [← hs.capacity_eq]
        simp only [HdfSBufRaw.bytes, hnone, Option.getD_none, List.length_nil]
       have start : s.writePos = 0 := by
        have := hs.write_le_capacity
        omega
       refine ⟨⟨⟨hs.read_le_write, inside, ?_⟩, ?_, ?_, rfl, rfl⟩, grown, limit, rfl⟩
       · simp only [HdfSBufRaw.bytes, fresh, Option.getD_some, List.length_replicate]
       · simp only [ne_eq, reduceCtorEq, not_false_eq_true]
       · simp only [HdfSBufRaw.content, start, List.take_zero]
     · rename_i data hdata
       split at h
       · cases h
       · rename_i copied hcopy
         cases h
         obtain ⟨fits, -, rfl⟩ := memcpyS_true hcopy
         have front : s.content = data.take s.writePos := by
          simp only [HdfSBufRaw.content, HdfSBufRaw.bytes, hdata, Option.getD_some]
         have len : (data.take s.writePos).length = s.writePos := by
          rw [← front, hs.content_length]
         have room : 0 + (data.take s.writePos).length ≤ newData.length := by
          rw [fresh, List.length_replicate]
          omega
         refine ⟨⟨⟨hs.read_le_write, inside, ?_⟩, ?_, ?_, rfl, rfl⟩, grown, limit, rfl⟩
         · change (splice newData 0 (data.take s.writePos)).length = newSize
           rw [splice_length room, fresh, List.length_replicate]
         · simp only [ne_eq, reduceCtorEq, not_false_eq_true]
         · change (splice newData 0 (data.take s.writePos)).take s.writePos = s.content
           rw [take_splice_behind (by omega) (by omega), front, len]
           simp only [Nat.zero_add, Nat.sub_self, List.take_zero, List.append_nil,
            List.nil_append]

theorem growSizeFor_bounds (alignSize : ℕ) :
  alignSize ≤ growSizeFor alignSize ∧ growSizeFor alignSize ≤ alignSize + 256 := by
 unfold growSizeFor hdfSbufGrowSizeDefault
 constructor <;> split_ifs <;> omega

theorem reserve_true {alignSize : ℕ} (hs : s.Sound)
  (hdata : s.data ≠ none) (hsize : alignSize ≤ 2 ^ 31 + 4)
  (h : sbufRawImplReserve s mem alignSize = (true, t)) :
  KeepsContent s t ∧ t.writePos + alignSize ≤ t.capacity := by
 have within := hs.write_le_capacity
 have left : sbufRawImplGetLeftWriteSize s = s.capacity - s.writePos := by
  simp only [sbufRawImplGetLeftWriteSize, not_lt.mpr within, if_false]
 simp only [sbufRawImplReserve, left] at h
 split_ifs at h with full
 · obtain ⟨keeps, grown, limit, cap⟩ := grow_true hs h
   obtain ⟨enough, fits⟩ := growSizeFor_bounds alignSize
   refine ⟨keeps, ?_⟩
   rw [keeps.writePos]
   simp only [sbufRawImplGetAlignSize, hdfSbufAlign, hdfSbufMaxSize] at cap limit
   omega
 · cases h
   exact ⟨⟨hs, hdata, rfl, rfl, rfl⟩, by omega⟩

/-- `bs` and what is left of the old memory up to a multiple of four. -/
def Padded (bs block : List UInt8) : Prop :=
 ∃ pad, block = bs ++ pad ∧ block.length = align4 bs.length

variable {block : List UInt8}

theorem Padded.aligned {bs : List UInt8} (h : Padded bs block) (hbs : 4 ∣ bs.length) :
  block = bs := by
 obtain ⟨pad, rfl, hlen⟩ := h
 have exact4 : align4 bs.length = bs.length := by
  unfold align4
  omega
 rw [List.length_append, exact4, Nat.add_eq_left, List.length_eq_zero_iff] at hlen
 rw [hlen, List.append_nil]

/-- A successful step appends `block` and leaves the read position alone. -/
structure Appends (s t : HdfSBufRaw) (block : List UInt8) : Prop where
 sound : t.Sound
 present : t.data ≠ none
 content : t.content = s.content ++ block
 readPos : t.readPos = s.readPos

theorem write_true {src : List UInt8} (hs : s.Sound) (h : sbufRawImplWrite s mem src = (true, t)) :
  src.length ≤ rsizeMax ∧ ∃ block, Padded src block ∧ Appends s t block := by
 unfold sbufRawImplWrite at h
 dsimp only at h
 split_ifs at h with hnone empty wrap
 · cases h
 · cases h
   rw [List.length_eq_zero_iff] at empty
   subst empty
   exact ⟨Nat.zero_le _, [], ⟨[], rfl, rfl⟩, hs, hnone, by rw [List.append_nil], rfl⟩
 · cases h
 · split at h
   · cases h
   · rename_i u hreserve
     split at h
     · cases h
     · rename_i data hcopy
       cases h
       obtain ⟨fits, limit, rfl⟩ := memcpyS_true hcopy
       have small : src.length ≤ rsizeMax := fits.trans limit
       have aligned : sbufRawImplGetAlignSize src.length = align4 src.length :=
        alignSize_eq (by unfold rsizeMax at small; omega)
       have tight := align4_lt src.length
       have covers := le_align4 src.length
       rw [aligned] at hreserve
       obtain ⟨keeps, room⟩ := reserve_true hs hnone
        (by unfold rsizeMax at small; omega) hreserve
       have len := keeps.sound.capacity_eq
       have store : u.writePos + src.length ≤ u.bytes.length := by omega
       refine ⟨small, src ++ (u.bytes.drop (u.writePos + src.length)).take
        (align4 src.length - src.length), ⟨_, rfl, ?_⟩, ⟨?_, ?_, ?_⟩, ?_, ?_, keeps.readPos⟩
       · rw [List.length_append, List.length_take, List.length_drop]
         omega
       · exact keeps.sound.read_le_write.trans (Nat.le_add_right _ _)
       · change u.writePos + sbufRawImplGetAlignSize src.length ≤ u.capacity
         rw [aligned]
         exact room
       · change (splice u.bytes u.writePos src).length = u.capacity
         rw [splice_length store, len]
       · simp only [ne_eq, reduceCtorEq, not_false_eq_true]
       · change (splice u.bytes u.writePos src).take
          (u.writePos + sbufRawImplGetAlignSize src.length) = _
         rw [aligned, take_splice_behind (by omega) (by omega), ← keeps.content,
          Nat.add_sub_add_left]
         rfl

theorem Appends.trans {u : HdfSBufRaw} {b c : List UInt8} (h : Appends s u b)
  (k : Appends u t c) : Appends s t (b ++ c) :=
 ⟨k.sound, k.present, by rw [k.content, h.content, List.append_assoc],
  k.readPos.trans h.readPos⟩

def IntValue.bytes : IntValue → List UInt8
 | .uint64 value => leBytes 8 value.toNat
 | .uint32 value => leBytes 4 value.toNat
 | .uint16 value => leBytes 2 value.toNat
 | .uint8 value => leBytes 1 value.toNat
 | .int64 value => leBytes 8 value.toUInt64.toNat
 | .int32 value => leBytes 4 value.toUInt32.toNat
 | .int16 value => leBytes 2 value.toUInt16.toNat
 | .int8 value => leBytes 1 value.toUInt8.toNat

theorem sbufWriteInt_eq (s : HdfSBufRaw) (mem : Bool) (value : IntValue) :
  sbufWriteInt s mem value = sbufRawImplWrite s mem value.bytes := by
 cases value <;> rfl

def Framed (bs block : List UInt8) : Prop :=
 bs.length ≤ rsizeMax ∧ ∃ body, Padded bs body ∧ block = leBytes 4 bs.length ++ body

def CString.stored (value : CString) : List UInt8 :=
 (value.bytes ++ [0]).take ((value.bytes.length + 1) % 2 ^ 32)

def TypedWrite.Encodes : TypedWrite → List UInt8 → Prop
 | .int value, block => Padded value.bytes block
 | .float _, _ => False
 | .double _, _ => False
 | .buffer data, block => Framed data.bytes block
 | .nullBuffer _, block => Framed [] block
 | .string none, block => Framed [] block
 | .string (some value), block => Framed value.stored block

theorem writeInt32_true {value : Int32} (hs : s.Sound)
  (h : sbufRawImplWriteInt32 s mem value = (true, t)) :
  Appends s t (leBytes 4 value.toUInt32.toNat) := by
 obtain ⟨-, block, padded, appends⟩ := write_true hs h
 rwa [padded.aligned (by rw [leBytes_length])] at appends

theorem writeNull_true (hs : s.Sound) (h : sbufRawImplWriteInt32 s mem 0 = (true, t)) :
  ∃ block, Framed [] block ∧ Appends s t block :=
 ⟨_, ⟨Nat.zero_le _, [], ⟨[], rfl, rfl⟩, (List.append_nil _).symm⟩, writeInt32_true hs h⟩

theorem writeBuffer_true {memData : Bool} {data : List UInt8}
  {writeSize : UInt32} (hs : s.Sound) (hsize : writeSize.toNat ≤ data.length)
  (h : sbufRawImplWriteBuffer s mem memData (some data) writeSize = (true, t)) :
  ∃ block, Framed (data.take writeSize.toNat) block ∧ Appends s t block := by
 unfold sbufRawImplWriteBuffer at h
 dsimp only at h
 split at h
 · cases h
 · rename_i u hlen
   split at h
   · cases h
   · rename_i v hbody
     cases h
     have first := writeInt32_true hs hlen
     rw [UInt32.toUInt32_toInt32] at first
     obtain ⟨small, body, padded, second⟩ := write_true first.sound hbody
     have count : (data.take writeSize.toNat).length = writeSize.toNat := by
      rw [List.length_take, min_eq_left hsize]
     exact ⟨_, ⟨small, body, padded, by rw [count]⟩, first.trans second⟩

theorem typedWrite_true {memData : Bool} {w : TypedWrite} (hs : s.Sound)
  (h : typedWrite s mem memData w = (true, t)) : ∃ block, w.Encodes block ∧ Appends s t block := by
 cases w with
 | int value =>
  rw [typedWrite, sbufWriteInt_eq] at h
  exact (write_true hs h).2
 | float bits | double bits => cases h
 | buffer data =>
  have len : (UInt32.ofNat data.bytes.length).toNat = data.bytes.length := by
   rw [UInt32.toNat_ofNat', Nat.mod_eq_of_lt data.small]
  have framed := writeBuffer_true hs len.le h
  rwa [len, List.take_length] at framed
 | nullBuffer writeSize => exact writeNull_true hs h
 | string value =>
  cases value with
  | none => exact writeNull_true hs h
  | some value =>
   have len : (UInt32.ofNat (value.bytes.length + 1)).toNat =
     (value.bytes.length + 1) % 2 ^ 32 := UInt32.toNat_ofNat'
   have fits : (UInt32.ofNat (value.bytes.length + 1)).toNat ≤
     (value.bytes ++ [0]).length := by
    rw [len, List.length_append, List.length_singleton]
    exact Nat.mod_le _ _
   have framed := writeBuffer_true hs fits h
   rwa [len] at framed

theorem writes_true (ws : List (TypedWrite × Bool × Bool)) (hs : s.Sound)
  (hdata : s.data ≠ none) (h : RunRules.exec writeStep s ws = some t) :
  ∃ blocks, List.Forall₂ TypedWrite.Encodes (ws.map Prod.fst) blocks ∧
   Appends s t blocks.flatten := by
 induction ws generalizing s with
 | nil =>
  cases h
  exact ⟨[], .nil, hs, hdata, by rw [List.flatten_nil, List.append_nil], rfl⟩
 | cons w ws ih =>
  obtain ⟨u, hstep, hrest⟩ := Option.bind_eq_some_iff.mp h
  unfold writeStep at hstep
  split at hstep
  · rename_i v hwrite
    cases hstep
    obtain ⟨block, encodes, first⟩ := typedWrite_true hs hwrite
    obtain ⟨blocks, all, rest⟩ := ih first.sound first.present hrest
    exact ⟨block :: blocks, .cons encodes all, first.trans rest⟩
  · cases hstep

theorem unread_length (hs : s.Sound) : s.unread.length = s.writePos - s.readPos := by
 rw [HdfSBufRaw.unread, List.length_drop, hs.content_length]

theorem unread_move (s : HdfSBufRaw) (n : ℕ) :
  HdfSBufRaw.unread { s with readPos := s.readPos + n } = s.unread.drop n := by
 rw [HdfSBufRaw.unread, HdfSBufRaw.unread, List.drop_drop]
 rfl

theorem slice_unread {n len : ℕ} (h : s.readPos + n + len ≤ s.writePos) :
  slice s.bytes (s.readPos + n) len = slice s.unread n len := by
 rw [← slice_take h, HdfSBufRaw.unread, slice, slice, List.drop_drop]
 rfl

variable {rest : List UInt8}

theorem slice_next {bs : List UInt8} (hs : s.Sound)
  (h : s.unread = bs ++ rest) : slice s.bytes s.readPos bs.length = bs := by
 have len := unread_length hs
 have := hs.read_le_write
 rw [h, List.length_append] at len
 have next := @slice_unread s 0 bs.length (by omega)
 rw [Nat.add_zero] at next
 rw [next]
 exact slice_eq_of_drop_eq h

theorem room_next {bs : List UInt8} (hs : s.Sound)
  (h : s.unread = bs ++ rest) : s.readPos + bs.length ≤ s.writePos := by
 have len := unread_length hs
 have := hs.read_le_write
 rw [h, List.length_append] at len
 omega

theorem prefixWord_next {n : ℕ} (hs : s.Sound)
  (hn : n < 2 ^ 32) (h : s.unread = leBytes 4 n ++ rest) : prefixWord s = n := by
 have word := slice_next hs h
 rw [leBytes_length] at word
 rw [prefixWord, word]
 exact leNat_leBytes_of_lt hn

theorem IntValue.bytes_length (value : IntValue) : value.bytes.length = value.type.size := by
 cases value <;> exact leBytes_length _ _

theorem ofNat_word8 (value : UInt8) : UInt8.ofNat (leNat (leBytes 1 value.toNat)) = value := by
 rw [leNat_leBytes_of_lt value.toNat_lt, UInt8.ofNat_toNat]

theorem ofNat_word16 (value : UInt16) : UInt16.ofNat (leNat (leBytes 2 value.toNat)) = value := by
 rw [leNat_leBytes_of_lt value.toNat_lt, UInt16.ofNat_toNat]

theorem ofNat_word32 (value : UInt32) : UInt32.ofNat (leNat (leBytes 4 value.toNat)) = value := by
 rw [leNat_leBytes_of_lt value.toNat_lt, UInt32.ofNat_toNat]

theorem ofNat_word64 (value : UInt64) : UInt64.ofNat (leNat (leBytes 8 value.toNat)) = value := by
 rw [leNat_leBytes_of_lt value.toNat_lt, UInt64.ofNat_toNat]

theorem IntValue.decode_bytes (value : IntValue) : value.type.decode value.bytes = value := by
 cases value <;>
  simp only [IntValue.type, IntType.decode, IntValue.bytes, ofNat_word8, ofNat_word16,
   ofNat_word32, ofNat_word64, Int8.toInt8_toUInt8, Int16.toInt16_toUInt16,
   Int32.toInt32_toUInt32, Int64.toInt64_toUInt64]

theorem readInt_next (h : Readable s) (value : IntValue) (hblock : Padded value.bytes block)
  (hunread : s.unread = block ++ rest) :
  ∃ t, sbufReadInt s true value.type = (some value, t) ∧ Readable t ∧ t.unread = rest := by
 have room := room_next h.toSound hunread
 obtain ⟨pad, rfl, hlen⟩ := hblock
 rw [hlen, value.bytes_length] at room
 have cells := slice_next h.toSound ((List.append_assoc _ _ _).symm.trans hunread.symm).symm
 have small := value.type.size_le
 have read := read_ok h.present (by omega) value.type.size_pos room
 rw [value.bytes_length] at cells
 rw [cells] at read
 refine ⟨_, ?_, h.move room, ?_⟩
 · rw [sbufReadInt_eq, read, Option.map_some, value.decode_bytes]
 · rw [unread_move, hunread, ← value.bytes_length, ← hlen, List.drop_left]

theorem afterPrefix (h : Readable s) {n : ℕ}
  (hn : n < 2 ^ 32) (hunread : s.unread = leBytes 4 n ++ rest) :
  s.readPos + 4 ≤ s.writePos ∧ prefixWord s = n ∧
   HdfSBufRaw.unread { s with readPos := s.readPos + 4 } = rest := by
 have room := room_next h.toSound hunread
 rw [leBytes_length] at room
 refine ⟨room, prefixWord_next h.toSound hn hunread, ?_⟩
 rw [unread_move, hunread]
 have len := leBytes_length 4 n
 nth_rewrite 1 [← len]
 exact List.drop_left

theorem readBuffer_next (h : Readable s) {bs : List UInt8}
  (hblock : Framed bs block) (hunread : s.unread = block ++ rest) :
  ∃ p n t, sbufRawImplReadBuffer s true = (some (p, n), t) ∧ bufferAt t p n = bs ∧
   Readable t ∧ t.unread = rest := by
 obtain ⟨small, body, ⟨pad, rfl, hlen⟩, rfl⟩ := hblock
 unfold rsizeMax at small
 rw [List.append_assoc] at hunread
 obtain ⟨room, word, next⟩ := afterPrefix h (by omega) hunread
 have moved := h.move room
 have fits := room_next moved.toSound next
 have claimed : claimedSize bs.length = align4 bs.length := by
  rw [claimedSize, alignSize_intOfWord (by omega), if_pos (by omega)]
 rw [readBuffer_eq h.present h.read_le_write, word, claimed, if_pos room]
 split_ifs with empty inside
 · rw [List.length_eq_zero_iff] at empty
   subst empty
   have none_left : pad = [] := List.length_eq_zero_iff.mp hlen
   exact ⟨_, _, _, rfl, rfl, moved, by rw [next, none_left]; rfl⟩
 · have count : (UInt32.ofNat bs.length).toNat = bs.length := by
    rw [UInt32.toNat_ofNat', Nat.mod_eq_of_lt (by omega)]
   refine ⟨_, _, _, rfl, ?_, moved.move inside, ?_⟩
   · rw [bufferAt, count]
     exact slice_next moved.toSound ((List.append_assoc _ _ _).symm.trans next.symm).symm
   · have rest_left := unread_move { s with readPos := s.readPos + 4 } (align4 bs.length)
     rw [next, ← hlen, List.drop_left] at rest_left
     rw [← hlen]
     exact rest_left
 · rw [hlen] at fits
   exact absurd fits inside

theorem CString.stored_short {value : CString} (h : value.bytes.length + 1 ≤ int16Max) :
  value.stored = value.bytes ++ [0] := by
 unfold int16Max at h
 rw [CString.stored, Nat.mod_eq_of_lt (by omega)]
 exact List.take_of_length_le (by rw [List.length_append, List.length_singleton])

theorem set_nul {i : ℕ} (h : s.bytes[i]? = some 0) : s.data.map (fun d => d.set i 0) = s.data := by
 cases hd : s.data with
 | none => rfl
 | some data =>
  simp only [HdfSBufRaw.bytes, hd, Option.getD_some] at h
  obtain ⟨hi, zero⟩ := List.getElem?_eq_some_iff.mp h
  rw [Option.map_some, ← zero, List.set_getElem_self]

theorem readString_next (h : Readable s) {value : CString}
    (hshort : value.bytes.length + 1 ≤ int16Max)
    (hblock : Framed value.stored block) (hunread : s.unread = block ++ rest) :
    ∃ str t, sbufRawImplReadString s = (some str, t) ∧ stringAt t str = value.bytes ∧
      Readable t ∧ t.unread = rest := by
  obtain ⟨-, body, ⟨pad, rfl, hlen⟩, rfl⟩ := hblock
  have stored := CString.stored_short hshort
  have count : value.stored.length = value.bytes.length + 1 := by
    rw [stored, List.length_append, List.length_singleton]
  unfold int16Max at hshort
  rw [List.append_assoc] at hunread
  obtain ⟨room, word, next⟩ := afterPrefix h (by omega) hunread
  have moved := h.move room
  have fits := room_next moved.toSound next
  rw [hlen] at fits
  have text := slice_next moved.toSound ((List.append_assoc _ _ _).symm.trans next.symm).symm
  change slice s.bytes (s.readPos + 4) value.stored.length = value.stored at text
  have split : s.bytes.drop (s.readPos + 4) =
      value.bytes ++ 0 :: (s.bytes.drop (s.readPos + 4)).drop value.stored.length := by
    calc s.bytes.drop (s.readPos + 4)
        = value.stored ++ (s.bytes.drop (s.readPos + 4)).drop value.stored.length := by
          nth_rewrite 1 [← List.take_append_drop value.stored.length
            (s.bytes.drop (s.readPos + 4))]
          rw [show (s.bytes.drop (s.readPos + 4)).take value.stored.length = value.stored from text]
      _ = _ := by
          nth_rewrite 1 [stored]
          rw [List.append_assoc]
          rfl
  have nul : s.bytes[s.readPos + 4 + (value.stored.length - 1)]? = some 0 := by
    rw [← List.getElem?_drop, split, count]
    exact List.getElem?_append_right le_rfl |>.trans (by simp)
  have positive : ¬ (value.stored.length = 0 ∨ 2 ^ 31 ≤ value.stored.length) := by omega
  have within : value.stored.length ≤ int16Max := by
    unfold int16Max
    omega
  refine ⟨s.readPos + 4, { s with readPos := s.readPos + 4 + align4 value.stored.length }, ?_, ?_,
    moved.move fits, ?_⟩
  · rw [readString_eq h.present h.read_le_write, word, if_pos room, if_neg positive,
      if_pos ⟨within, fits⟩, set_nul nul]
  · change cString (s.bytes.drop (s.readPos + 4)) = value.bytes
    rw [split, cString_append value.nulFree]
  · have rest_left := unread_move { s with readPos := s.readPos + 4 } (align4 value.stored.length)
    rw [next, ← hlen, List.drop_left] at rest_left
    rw [← hlen]
    exact rest_left

theorem readString_long (h : Readable s) {value : CString}
  (hlong : ¬ value.bytes.length + 1 ≤ int16Max)
  (hblock : Framed value.stored block) (hunread : s.unread = block ++ rest) (str : ℕ)
  (hread : (sbufRawImplReadString s).1 = some str) :
  stringAt (sbufRawImplReadString s).2 str ≠ value.bytes := by
 obtain ⟨small, body, padded, rfl⟩ := hblock
 unfold rsizeMax at small
 rw [List.append_assoc] at hunread
 obtain ⟨room, word, -⟩ := afterPrefix h (by omega) hunread
 rw [readString_eq h.present h.read_le_write, word, if_pos room] at hread ⊢
 split_ifs at hread ⊢ with outside fits
 · cases hread
   obtain ⟨data, hd⟩ := Option.ne_none_iff_exists'.mp h.present
   have len := h.capacity_eq
   have within := h.write_le_capacity
   have covers := le_align4 value.stored.length
   simp only [HdfSBufRaw.bytes, hd, Option.getD_some] at len
   have inData : s.readPos + 4 + (value.stored.length - 1) < data.length := by omega
   have cut := @cString_length_le ((data.set (s.readPos + 4 + (value.stored.length - 1)) 0).drop
    (s.readPos + 4)) (value.stored.length - 1)
    (by rw [List.getElem?_drop, List.getElem?_set_self inData])
   intro same
   simp only [stringAt, HdfSBufRaw.bytes, hd, Option.map_some, Option.getD_some] at same
   rw [same] at cut
   omega

theorem readNull_next (h : Readable s)
  (hblock : Framed [] block) (hunread : s.unread = block ++ rest) :
  ∃ t, sbufRawImplReadString s = (none, t) ∧ Readable t ∧ t.unread = rest := by
 obtain ⟨-, body, ⟨-, -, hlen⟩, rfl⟩ := hblock
 obtain rfl : body = [] := List.length_eq_zero_iff.mp hlen
 rw [List.append_nil] at hunread
 obtain ⟨room, word, next⟩ := afterPrefix h (by decide) hunread
 refine ⟨_, ?_, h.move room, next⟩
 rw [readString_eq h.present h.read_le_write, word, if_pos room]
 exact if_pos (Or.inl rfl)

theorem readMatching_next (h : Readable s) {w : TypedWrite}
  (hshort : w.Short) (hblock : w.Encodes block)
  (hunread : s.unread = block ++ rest) :
  ∃ t, readMatching s w = (w.value, t) ∧ Readable t ∧ t.unread = rest := by
 cases w with
 | int value =>
  obtain ⟨t, read, ht⟩ := readInt_next h value hblock hunread
  exact ⟨t, by rw [readMatching, read]; rfl, ht⟩
 | float bits | double bits => cases hblock
 | buffer data | nullBuffer writeSize =>
  obtain ⟨p, n, t, read, found, ht⟩ := readBuffer_next h hblock hunread
  refine ⟨t, ?_, ht⟩
  simp only [readMatching, read, Option.map_some, found, TypedWrite.value]
 | string value =>
  cases value with
  | none =>
   obtain ⟨t, read, ht⟩ := readNull_next h hblock hunread
   exact ⟨t, by simp only [readMatching, read, Option.map_none, TypedWrite.value], ht⟩
  | some value =>
   obtain ⟨str, t, read, found, ht⟩ := readString_next h hshort hblock hunread
   refine ⟨t, ?_, ht⟩
   simp only [readMatching, read, Option.map_some, found, TypedWrite.value]

theorem readMatching_long (h : Readable s) {w : TypedWrite}
  (hlong : ¬ w.Short) (hblock : w.Encodes block)
  (hunread : s.unread = block ++ rest) : (readMatching s w).1 ≠ w.value := by
 cases w with
 | int _ | float _ | double _ | buffer _ | nullBuffer _ => exact absurd trivial hlong
 | string value =>
  cases value with
  | none => exact absurd trivial hlong
  | some value =>
   intro same
   simp only [readMatching, TypedWrite.value, Option.map_some, Option.map_eq_some_iff,
    TypedValue.string.injEq] at same
   obtain ⟨str, hread, found⟩ := same
   exact readString_long h hlong hblock hunread str hread found

theorem readBack_iff (h : Readable s) {ws : List TypedWrite}
  {blocks : List (List UInt8)} (hblocks : List.Forall₂ TypedWrite.Encodes ws blocks)
  (hunread : s.unread = blocks.flatten) : RoundTrips s ws ↔ ∀ w ∈ ws, w.Short := by
 induction hblocks generalizing s with
 | nil =>
  refine iff_of_true ⟨rfl, ?_⟩ (fun w hw => by cases hw)
  have len := unread_length h.toSound
  rw [hunread] at len
  change sbufRawImplGetLeftReadSize s = 0
  rw [leftReadSize_eq h.read_le_write, ← len]
  rfl
 | @cons w block ws blocks encodes _ ih =>
  rw [List.flatten_cons] at hunread
  rw [List.forall_mem_cons]
  by_cases hshort : w.Short
  · obtain ⟨t, read, ht, next⟩ := readMatching_next h hshort encodes hunread
    have rest := ih ht next
    simp only [RoundTrips, readBack, read, List.map_cons, List.cons.injEq, true_and, hshort]
     at rest ⊢
    exact rest
  · refine iff_of_false ?_ (fun all => hshort all.1)
    rintro ⟨same, -⟩
    exact readMatching_long h hshort encodes hunread (List.cons.inj same).1

theorem obtainRaw_fresh {obj : Bool} {capacity : ℕ} (h : sbufObtainRaw obj mem capacity = some s) :
  s.Sound ∧ s.data ≠ none ∧ s.readPos = 0 ∧ s.content = [] := by
 unfold sbufObtainRaw sbufRawImplNewInstance at h
 split_ifs at h
 split at h
 · cases h
 · rename_i data hdata
   cases h
   have fresh := osalMemCalloc_some hdata
   refine ⟨⟨le_rfl, Nat.zero_le _, ?_⟩, by simp, rfl, rfl⟩
   simp only [HdfSBufRaw.bytes, Option.getD_some, fresh, List.length_replicate]

theorem bindRaw_unread {obj : Bool} {base : ℕ} {content : List UInt8} {b : HdfSBufRaw}
  (h : sbufBindRaw obj base content = some b) : b.unread = content := by
 unfold sbufBindRaw at h
 split_ifs at h
 cases h
 simp only [HdfSBufRaw.unread, HdfSBufRaw.content, HdfSBufRaw.bytes, Option.getD_some,
  List.take_length, List.drop_zero]

/-- After any successful writes to a new object, the matching reads on it, and on any
object bound to its data, return what was written and leave nothing exactly when
every string is within the limit of the reader. -/
theorem roundTrips_iff_short (obj mem : Bool) (capacity : ℕ)
    (ws : List (TypedWrite × Bool × Bool)) (s t : HdfSBufRaw)
    (hobtain : sbufObtainRaw obj mem capacity = some s)
    (hwrites : RunRules.exec writeStep s ws = some t) :
    (RoundTrips t (ws.map Prod.fst) ↔ ∀ w ∈ ws.map Prod.fst, w.Short) ∧
      ∀ bindObj base b, sbufBindRaw bindObj base t.content = some b →
        (RoundTrips b (ws.map Prod.fst) ↔ ∀ w ∈ ws.map Prod.fst, w.Short) := by
  obtain ⟨sound, present, start, empty⟩ := obtainRaw_fresh hobtain
  obtain ⟨blocks, all, appends⟩ := writes_true ws sound present hwrites
  have whole : t.content = blocks.flatten := by
    rw [appends.content, empty, List.nil_append]
  constructor
  · apply readBack_iff ⟨appends.sound, appends.present⟩ all
    rw [HdfSBufRaw.unread, appends.readPos, start, List.drop_zero, whole]
  · intro bindObj base b hbind
    apply readBack_iff (bindRaw_readable hbind) all
    rw [bindRaw_unread hbind, whole]

/-- An integer, an empty buffer and a string. -/
def threeWrites : List (TypedWrite × Bool × Bool) :=
 [(.int (.int8 (-2)), true, true), (.buffer ⟨[], by decide⟩, true, true),
  (.string (some ⟨[104, 105], by decide⟩), true, true)]

theorem roundTrips_threeWrites :
    ∃ s t, sbufObtainRaw true true 16 = some s ∧ RunRules.exec writeStep s threeWrites = some t ∧
      RoundTrips t (threeWrites.map Prod.fst) := by
  have hobtain : sbufObtainRaw true true 16 =
      some ⟨0, 0, 16, some (List.replicate 16 0), false⟩ := by decide
  have hwrites : RunRules.exec writeStep ⟨0, 0, 16, some (List.replicate 16 0), false⟩
      threeWrites = some ⟨16, 0, 16,
        some [254, 0, 0, 0, 0, 0, 0, 0, 3, 0, 0, 0, 104, 105, 0, 0], false⟩ := by decide
  refine ⟨_, _, hobtain, hwrites, ?_⟩
  refine (roundTrips_iff_short true true 16 threeWrites _ _ hobtain hwrites).1.mpr ?_
  intro w hw
  simp only [threeWrites, List.map_cons, List.map_nil, List.mem_cons, List.not_mem_nil,
    or_false] at hw
  rcases hw with rfl | rfl | rfl
  · trivial
  · trivial
  · change 3 ≤ 32767
    omega

theorem write_fits {src : List UInt8} (hs : s.Sound)
  (hdata : s.data ≠ none) (hcap : s.capacity ≤ hdfSbufMaxSize)
  (hroom : s.writePos + align4 src.length ≤ s.capacity) :
  ∃ t, sbufRawImplWrite s mem src = (true, t) ∧ t.capacity = s.capacity ∧
   t.writePos = s.writePos + align4 src.length := by
 have covers := le_align4 src.length
 unfold hdfSbufMaxSize at hcap
 have aligned : sbufRawImplGetAlignSize src.length = align4 src.length :=
  alignSize_eq (by omega)
 have left : sbufRawImplGetLeftWriteSize s = s.capacity - s.writePos := by
  simp only [sbufRawImplGetLeftWriteSize, not_lt.mpr hs.write_le_capacity, if_false]
 have roomy : ¬ align4 src.length > s.capacity - s.writePos := by omega
 have reserved : sbufRawImplReserve s mem (align4 src.length) = (true, s) := by
  rw [sbufRawImplReserve, left, if_neg roomy]
 by_cases empty : src.length = 0
 · refine ⟨s, by simp only [sbufRawImplWrite, hdata, if_false, empty, if_true], rfl, ?_⟩
   rw [empty]
   rfl
 have copied : memcpyS (s.data.getD []) s.writePos (s.capacity - s.writePos) src =
   (true, splice (s.data.getD []) s.writePos src) := by
  have small : ¬ (s.capacity - s.writePos = 0 ∨ s.capacity - s.writePos > rsizeMax) := by
   unfold rsizeMax
   omega
  have fits : ¬ src.length > s.capacity - s.writePos := by omega
  rw [memcpyS, if_neg small, if_neg fits]
 refine ⟨{ s with
  data := some (splice (s.data.getD []) s.writePos src)
  writePos := s.writePos + align4 src.length }, ?_, rfl, rfl⟩
 simp only [sbufRawImplWrite, hdata, if_false, empty, aligned, not_lt.mpr covers, reserved,
  left, copied]

theorem writeBuffer_fits {memData : Bool} {data : List UInt8}
  (hs : s.Sound) (hdata : s.data ≠ none) (hcap : s.capacity ≤ hdfSbufMaxSize)
  (hroom : s.writePos + 4 + align4 data.length ≤ s.capacity) :
  ∃ t, sbufRawImplWriteBuffer s mem memData (some data) (UInt32.ofNat data.length) =
   (true, t) := by
 have small : data.length < 2 ^ 32 := by
  have := le_align4 data.length
  unfold hdfSbufMaxSize at hcap
  omega
 have count : (UInt32.ofNat data.length).toNat = data.length := by
  rw [UInt32.toNat_ofNat', Nat.mod_eq_of_lt small]
 have four : align4 4 = 4 := rfl
 obtain ⟨u, first, cap, pos⟩ := @write_fits s mem
  (leBytes 4 (UInt32.ofNat data.length).toInt32.toUInt32.toNat) hs hdata hcap (by
   rw [leBytes_length, four]
   omega)
 rw [leBytes_length, four] at pos
 obtain ⟨-, _, -, appends⟩ := write_true hs first
 obtain ⟨t, second, -, -⟩ := @write_fits u memData data appends.sound appends.present
  (by rw [cap]; exact hcap) (by omega)
 refine ⟨t, ?_⟩
 have whole : data.take (UInt32.ofNat data.length).toNat = data := by
  rw [count, List.take_length]
 simp only [sbufRawImplWriteBuffer, sbufRawImplWriteInt32, first, whole, second]

theorem writeString_fits {memData : Bool} (value : CString) (hs : s.Sound)
  (hdata : s.data ≠ none) (hcap : s.capacity ≤ hdfSbufMaxSize)
  (hroom : s.writePos + 4 + align4 (value.bytes.length + 1) ≤ s.capacity) :
  ∃ t, typedWrite s mem memData (.string (some value)) = (true, t) := by
 have stored : (value.bytes ++ [0]).length = value.bytes.length + 1 := by
  rw [List.length_append, List.length_singleton]
 obtain ⟨t, written⟩ := @writeBuffer_fits s mem memData (value.bytes ++ [0]) hs hdata hcap (by
  rw [stored]
  exact hroom)
 rw [stored] at written
 exact ⟨t, written⟩

theorem exec_one {w : TypedWrite} {memData : Bool} (h : typedWrite s mem memData w = (true, t)) :
  RunRules.exec writeStep s [(w, mem, memData)] = some t := by
 simp only [RunRules.exec_cons, RunRules.exec_nil, writeStep, h, Option.bind_some]

theorem obtainRaw_eq {capacity : ℕ} (pos : capacity ≠ 0) (small : capacity ≤ hdfSbufMaxSize) :
  sbufObtainRaw true true capacity =
   some ⟨0, 0, capacity, some (List.replicate capacity 0), false⟩ := by
 unfold sbufObtainRaw sbufRawImplNewInstance
 rw [if_neg (Nat.not_lt.mpr small)]
 simp [osalMemCalloc, pos]

/-- A string of 32767 letters is written and then not read back. -/
theorem long_string_lost : ∃ s t, ∃ value : CString, value.bytes.length = 32767 ∧
      sbufObtainRaw true true 65536 = some s ∧
      RunRules.exec writeStep s [(.string (some value), true, true)] = some t ∧
      ¬ RoundTrips t [.string (some value)] := by
  let value : CString := ⟨List.replicate 32767 97, by
    rw [List.mem_replicate]
    rintro ⟨-, contra⟩
    cases contra⟩
  have len : value.bytes.length = 32767 := List.length_replicate
  let s : HdfSBufRaw := ⟨0, 0, 65536, some (List.replicate 65536 0), false⟩
  have hobtain : sbufObtainRaw true true 65536 = some s :=
    obtainRaw_eq (by decide) (show 65536 ≤ 512 * 1024 by omega)
  obtain ⟨sound, present, start, empty⟩ := obtainRaw_fresh hobtain
  obtain ⟨t, hwrite⟩ := @writeString_fits s true true value sound present
    (show 65536 ≤ 512 * 1024 by omega) (by
      have below := align4_lt (value.bytes.length + 1)
      change 0 + 4 + align4 (value.bytes.length + 1) ≤ 65536
      omega)
  have hrun : RunRules.exec writeStep s [(.string (some value), true, true)] = some t :=
    exec_one hwrite
  refine ⟨s, t, value, len, hobtain, hrun, ?_⟩
  obtain ⟨blocks, all, appends⟩ := writes_true _ sound present hrun
  have whole : t.unread = blocks.flatten := by
    rw [HdfSBufRaw.unread, appends.readPos, start, List.drop_zero, appends.content, empty,
      List.nil_append]
  intro trip
  have short := (readBack_iff ⟨appends.sound, appends.present⟩ all whole).mp trip
  have limit : value.bytes.length + 1 ≤ int16Max := short _ (List.mem_singleton_self _)
  rw [len] at limit
  exact absurd limit (by decide)

end DriversFramework.SbufRaw
