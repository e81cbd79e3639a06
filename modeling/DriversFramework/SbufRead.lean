import DriversFramework.SbufRaw

namespace DriversFramework.SbufRaw

open ByteCodec

inductive IntType where
 | uint64 | uint32 | uint16 | uint8 | int64 | int32 | int16 | int8
 deriving DecidableEq

inductive IntValue where
 | uint64 (value : UInt64)
 | uint32 (value : UInt32)
 | uint16 (value : UInt16)
 | uint8 (value : UInt8)
 | int64 (value : Int64)
 | int32 (value : Int32)
 | int16 (value : Int16)
 | int8 (value : Int8)
 deriving DecidableEq

def sbufReadInt (sbuf : HdfSBufRaw) (out : Bool) : IntType → Option IntValue × HdfSBufRaw
 | .uint64 => (sbufRawImplReadUint64 sbuf out).map (Option.map .uint64) id
 | .uint32 => (sbufRawImplReadUint32 sbuf out).map (Option.map .uint32) id
 | .uint16 => (sbufRawImplReadUint16 sbuf out).map (Option.map .uint16) id
 | .uint8 => (sbufRawImplReadUint8 sbuf out).map (Option.map .uint8) id
 | .int64 => (sbufRawImplReadInt64 sbuf out).map (Option.map .int64) id
 | .int32 => (sbufRawImplReadInt32 sbuf out).map (Option.map .int32) id
 | .int16 => (sbufRawImplReadInt16 sbuf out).map (Option.map .int16) id
 | .int8 => (sbufRawImplReadInt8 sbuf out).map (Option.map .int8) id

inductive ReadCall where
 | int (type : IntType) (out : Bool)
 | buffer (out : Bool)
 | string
 deriving DecidableEq

inductive ReadResult where
 | failed
 | int (value : IntValue)
 | buffer (data : Option ℕ) (readSize : UInt32)
 | string (str : ℕ)
 deriving DecidableEq

def readCall (sbuf : HdfSBufRaw) : ReadCall → ReadResult × HdfSBufRaw
 | .int type out => (sbufReadInt sbuf out type).map (fun r => r.elim .failed .int) id
 | .buffer out =>
  (sbufRawImplReadBuffer sbuf out).map (fun r => r.elim .failed fun p => .buffer p.1 p.2) id
 | .string => (sbufRawImplReadString sbuf).map (fun r => r.elim .failed .string) id

def readStep (sbuf : HdfSBufRaw) (call : ReadCall) : Option HdfSBufRaw :=
 some (readCall sbuf call).2

theorem alignSize_eq {size : ℕ} (h : size < 2 ^ 63) :
  sbufRawImplGetAlignSize size = align4 size := by
 simp only [sbufRawImplGetAlignSize, hdfSbufAlign, align4]
 omega

variable {s : HdfSBufRaw}

theorem leftReadSize_eq (h : s.readPos ≤ s.writePos) :
  sbufRawImplGetLeftReadSize s = s.writePos - s.readPos := by
 simp only [sbufRawImplGetLeftReadSize, not_lt.mpr h, if_false]

def intOfWord (w : ℕ) : Int32 := (UInt32.ofNat w).toInt32

theorem intOfWord_toInt {w : ℕ} (h : w < 2 ^ 32) :
  (intOfWord w).toInt = if w < 2 ^ 31 then (w : ℤ) else (w : ℤ) - 2 ^ 32 := by
 have bits : (intOfWord w).toInt = (BitVec.ofNat 32 w).toInt := rfl
 rw [bits, BitVec.toInt_eq_toNat_cond, BitVec.toNat_ofNat, Nat.mod_eq_of_lt h]
 split_ifs <;> omega

theorem intOfWord_toUInt32 {w : ℕ} (h : w < 2 ^ 32) : (intOfWord w).toUInt32.toNat = w := by
 simp only [intOfWord, UInt32.toUInt32_toInt32, UInt32.toNat_ofNat', Nat.mod_eq_of_lt h]

theorem intOfWord_eq_zero {w : ℕ} (h : w < 2 ^ 32) : intOfWord w = 0 ↔ w = 0 := by
 constructor
 · intro zero
   have := intOfWord_toUInt32 h
   rw [zero] at this
   exact this.symm
 · rintro rfl
   rfl

theorem intOfWord_nonpos {w : ℕ} (h : w < 2 ^ 32) : intOfWord w ≤ 0 ↔ w = 0 ∨ 2 ^ 31 ≤ w := by
 rw [Int32.le_iff_toInt_le, intOfWord_toInt h, Int32.toInt_zero]
 split_ifs <;> omega

theorem sizeOfInt_intOfWord {w : ℕ} (h : w < 2 ^ 32) :
  sizeOfInt (intOfWord w) = if w < 2 ^ 31 then w else 2 ^ 64 - 2 ^ 32 + w := by
 rw [sizeOfInt, intOfWord_toInt h]
 split_ifs <;> omega

theorem alignSize_intOfWord {w : ℕ} (h : w < 2 ^ 32) :
  sbufRawImplGetAlignSize (sizeOfInt (intOfWord w)) =
   if w < 2 ^ 31 then align4 w
   else if w < 2 ^ 32 - 3 then 2 ^ 64 - 2 ^ 32 + align4 w
   else 0 := by
 rw [sizeOfInt_intOfWord h]
 simp only [sbufRawImplGetAlignSize, hdfSbufAlign, align4]
 split_ifs <;> omega

theorem read_some {out : Bool} {size : ℕ} {bs : List UInt8} {t : HdfSBufRaw}
  (hpos : s.readPos ≤ s.writePos) (hsize : size < 2 ^ 63)
  (h : sbufRawImplRead s out size = (some bs, t)) :
  s.readPos + align4 size ≤ s.writePos ∧ bs = slice s.bytes s.readPos size ∧
   t = { s with readPos := s.readPos + align4 size } := by
 unfold sbufRawImplRead at h
 split at h
 · cases h
 · rename_i data hdata
   simp only [alignSize_eq hsize, leftReadSize_eq hpos] at h
   split_ifs at h with hout hzero hroom
   · cases h
   · cases h
     subst hzero
     exact ⟨hpos, by simp only [slice, List.take_zero], rfl⟩
   · cases h
   · cases h
     refine ⟨by omega, ?_, rfl⟩
     simp only [HdfSBufRaw.bytes, hdata, Option.getD_some]

theorem read_none {out : Bool} {size : ℕ} {t : HdfSBufRaw}
  (h : sbufRawImplRead s out size = (none, t)) : t = s := by
 unfold sbufRawImplRead at h
 split at h
 · cases h
   rfl
 · dsimp only at h
   split_ifs at h
   · cases h
     rfl
   · cases h
   · cases h
     rfl
   · cases h

theorem read_ok {size : ℕ} (hdata : s.data ≠ none) (hsize : size < 2 ^ 63)
  (hpos : 0 < size) (hroom : s.readPos + align4 size ≤ s.writePos) :
  sbufRawImplRead s true size =
   (some (slice s.bytes s.readPos size), { s with readPos := s.readPos + align4 size }) := by
 unfold sbufRawImplRead
 cases hd : s.data with
 | none => exact absurd hd hdata
 | some data =>
  have left := @leftReadSize_eq s (by omega)
  have fits : ¬ align4 size > s.writePos - s.readPos := by omega
  simp only [Bool.not_true, Bool.false_eq_true, if_false, hpos.ne', alignSize_eq hsize, left,
   fits, HdfSBufRaw.bytes, hd, Option.getD_some]

def prefixWord (s : HdfSBufRaw) : ℕ := leNat (slice s.bytes s.readPos 4)

theorem prefixWord_lt (s : HdfSBufRaw) : prefixWord s < 2 ^ 32 := by
 have short : (slice s.bytes s.readPos 4).length ≤ 4 := by
  simp only [slice, List.length_take]
  omega
 calc prefixWord s < 256 ^ (slice s.bytes s.readPos 4).length := leNat_lt _
  _ ≤ 256 ^ 4 := Nat.pow_le_pow_right (by omega) short

theorem readInt32_cases (hdata : s.data ≠ none) (hpos : s.readPos ≤ s.writePos) :
  sbufRawImplReadInt32 s true =
   if s.readPos + 4 ≤ s.writePos then
    (some (intOfWord (prefixWord s)), { s with readPos := s.readPos + 4 })
   else (none, s) := by
 unfold sbufRawImplReadInt32
 split_ifs with room
 · have room4 : s.readPos + align4 4 ≤ s.writePos := room
   rw [read_ok hdata (by omega) (by omega) room4]
   rfl
 · cases h : sbufRawImplRead s true 4 with
   | mk r t =>
    cases r with
    | none =>
     rw [read_none h]
     rfl
    | some bs =>
     obtain ⟨hroom, -, -⟩ := read_some hpos (by omega) h
     exact absurd hroom room

def IntType.size : IntType → ℕ
 | .uint64 | .int64 => 8
 | .uint32 | .int32 => 4
 | .uint16 | .int16 => 2
 | .uint8 | .int8 => 1

def IntType.decode (bs : List UInt8) : IntType → IntValue
 | .uint64 => .uint64 (UInt64.ofNat (leNat bs))
 | .uint32 => .uint32 (UInt32.ofNat (leNat bs))
 | .uint16 => .uint16 (UInt16.ofNat (leNat bs))
 | .uint8 => .uint8 (UInt8.ofNat (leNat bs))
 | .int64 => .int64 (UInt64.ofNat (leNat bs)).toInt64
 | .int32 => .int32 (UInt32.ofNat (leNat bs)).toInt32
 | .int16 => .int16 (UInt16.ofNat (leNat bs)).toInt16
 | .int8 => .int8 (UInt8.ofNat (leNat bs)).toInt8

theorem IntType.size_pos (type : IntType) : 0 < type.size := by
 cases type <;> decide

theorem IntType.size_le (type : IntType) : type.size ≤ 8 := by
 cases type <;> decide

theorem sbufReadInt_eq (s : HdfSBufRaw) (out : Bool) (type : IntType) :
  sbufReadInt s out type =
   ((sbufRawImplRead s out type.size).1.map type.decode, (sbufRawImplRead s out type.size).2) := by
 cases type <;>
  simp only [sbufReadInt, sbufRawImplReadUint64, sbufRawImplReadUint32, sbufRawImplReadUint16,
   sbufRawImplReadUint8, sbufRawImplReadInt64, sbufRawImplReadInt32, sbufRawImplReadInt16,
   sbufRawImplReadInt8, IntType.size, Prod.map, Option.map_map, id] <;>
  rfl

theorem readInt_state (out : Bool) (type : IntType) (hpos : s.readPos ≤ s.writePos) :
  ∃ p, p ≤ s.writePos ∧ (sbufReadInt s out type).2 = { s with readPos := p } := by
 rw [sbufReadInt_eq]
 have small := type.size_le
 cases h : sbufRawImplRead s out type.size with
 | mk r t =>
  cases r with
  | none => exact ⟨s.readPos, hpos, read_none h⟩
  | some bs =>
   obtain ⟨room, -, ht⟩ := read_some hpos (by omega) h
   exact ⟨_, room, ht⟩

theorem readRollback_four (s : HdfSBufRaw) (p : ℕ) :
  sbufRawImplReadRollback { s with readPos := p + 4 } 4 = { s with readPos := p } := by
 have aligned : sbufRawImplGetAlignSize 4 = 4 := rfl
 have enough : ¬ p + 4 < 4 := by omega
 simp only [sbufRawImplReadRollback, aligned, enough, if_false, Nat.add_sub_cancel]

/-- The bytes a length prefix `w` claims, after its conversion to `size_t`. -/
def claimedSize (w : ℕ) : ℕ := sbufRawImplGetAlignSize (sizeOfInt (intOfWord w))

theorem readBuffer_eq (hdata : s.data ≠ none) (hpos : s.readPos ≤ s.writePos) :
  sbufRawImplReadBuffer s true =
   if s.readPos + 4 ≤ s.writePos then
    if prefixWord s = 0 then (some (none, 0), { s with readPos := s.readPos + 4 })
    else if s.readPos + 4 + claimedSize (prefixWord s) ≤ s.writePos then
     (some (some (s.readPos + 4), UInt32.ofNat (prefixWord s)),
      { s with readPos := s.readPos + 4 + claimedSize (prefixWord s) })
    else (none, s)
   else (none, s) := by
 simp only [sbufRawImplReadBuffer, hdata, decide_false, Bool.not_true, Bool.or_self,
  Bool.false_eq_true, if_false, readInt32_cases hdata hpos]
 split_ifs with room zero fits
 · simp only [(intOfWord_eq_zero (prefixWord_lt s)).mpr zero, if_true]
 · have nonzero := mt (intOfWord_eq_zero (prefixWord_lt s)).mp zero
   have left := @leftReadSize_eq { s with readPos := s.readPos + 4 } room
   have roomy : ¬ claimedSize (prefixWord s) > s.writePos - (s.readPos + 4) := by omega
   simp only [nonzero, if_false, left]
   exact if_neg roomy
 · have nonzero := mt (intOfWord_eq_zero (prefixWord_lt s)).mp zero
   have left := @leftReadSize_eq { s with readPos := s.readPos + 4 } room
   have full : claimedSize (prefixWord s) > s.writePos - (s.readPos + 4) := by omega
   simp only [nonzero, if_false, left, readRollback_four]
   exact if_pos full
 · rfl

theorem readString_eq (hdata : s.data ≠ none) (hpos : s.readPos ≤ s.writePos) :
  sbufRawImplReadString s =
   if s.readPos + 4 ≤ s.writePos then
    if prefixWord s = 0 ∨ 2 ^ 31 ≤ prefixWord s then
     (none, { s with readPos := s.readPos + 4 })
    else if prefixWord s ≤ int16Max ∧
      s.readPos + 4 + align4 (prefixWord s) ≤ s.writePos then
     (some (s.readPos + 4),
      { s with
       readPos := s.readPos + 4 + align4 (prefixWord s)
       data := s.data.map fun d => d.set (s.readPos + 4 + (prefixWord s - 1)) 0 })
    else (none, s)
   else (none, s) := by
 have lt := prefixWord_lt s
 simp only [sbufRawImplReadString, hdata, if_false, readInt32_cases hdata hpos]
 split_ifs with room outside fits
 · simp only [(intOfWord_nonpos lt).mpr outside, if_true]
 · have positive := mt (intOfWord_nonpos lt).mp outside
   have low : prefixWord s < 2 ^ 31 := by omega
   have aligned := alignSize_eq (low.trans (by omega))
   have left := @leftReadSize_eq { s with readPos := s.readPos + 4 } room
   have roomy : ¬ ((prefixWord s : ℤ) > int16Max ∨
     align4 (prefixWord s) > s.writePos - (s.readPos + 4)) := by omega
   simp only [positive, if_false, left, intOfWord_toInt lt, sizeOfInt_intOfWord lt, low, if_true,
    aligned]
   rw [if_neg roomy]
 · have positive := mt (intOfWord_nonpos lt).mp outside
   have low : prefixWord s < 2 ^ 31 := by omega
   have aligned := alignSize_eq (low.trans (by omega))
   have left := @leftReadSize_eq { s with readPos := s.readPos + 4 } room
   have full : (prefixWord s : ℤ) > int16Max ∨
     align4 (prefixWord s) > s.writePos - (s.readPos + 4) := by omega
   simp only [positive, if_false, left, intOfWord_toInt lt, sizeOfInt_intOfWord lt, low, if_true,
    aligned]
   rw [if_pos full, readRollback_four]
 · rfl

/-- The result lies in the bytes from the read to the write position of `s`; `t` is
the object after the call. -/
def ReadResult.Inside (s t : HdfSBufRaw) : ReadResult → Prop
 | .failed => True
 | .int _ => True
 | .buffer none readSize => readSize = 0
 | .buffer (some data) readSize => s.readPos ≤ data ∧ data + readSize.toNat ≤ s.writePos
 | .string str => s.readPos ≤ str ∧ ∃ nul, str ≤ nul ∧ nul < s.writePos ∧ t.bytes[nul]? = some 0

def ReadSafe (s : HdfSBufRaw) (call : ReadCall) : Prop :=
 (readCall s call).1.Inside s (readCall s call).2 ∧
  (readCall s call).2.readPos ≤ (readCall s call).2.writePos

/-- A buffer read does not meet one of the three length prefixes that wrap around,
unless that many bytes are there. -/
def PrefixFits (s : HdfSBufRaw) : ReadCall → Prop
 | .buffer out => out = true → s.readPos + 4 ≤ s.writePos → 2 ^ 32 - 3 ≤ prefixWord s →
   s.readPos + 4 + prefixWord s ≤ s.writePos
 | _ => True

/-- What every read call keeps. -/
structure Readable (s : HdfSBufRaw) : Prop extends s.Sound where
 present : s.data ≠ none

theorem Readable.move (h : Readable s) {p : ℕ} (hp : p ≤ s.writePos) :
  Readable { s with readPos := p } :=
 ⟨⟨hp, h.write_le_capacity, h.capacity_eq⟩, h.present⟩

theorem readCall_readable (h : Readable s) (call : ReadCall) : Readable (readCall s call).2 := by
 cases call with
 | int type out =>
  obtain ⟨p, hp, heq⟩ := readInt_state out type h.read_le_write
  change Readable (sbufReadInt s out type).2
  rw [heq]
  exact h.move hp
 | buffer out =>
  change Readable (sbufRawImplReadBuffer s out).2
  cases out with
  | false =>
   simp only [sbufRawImplReadBuffer, Bool.not_false, Bool.or_true, if_true]
   exact h
  | true =>
   rw [readBuffer_eq h.present h.read_le_write]
   split_ifs with room zero fits
   · exact h.move room
   · exact h.move fits
   · exact h
   · exact h
 | string =>
  change Readable (sbufRawImplReadString s).2
  rw [readString_eq h.present h.read_le_write]
  split_ifs with room outside fits
  · exact h.move room
  · obtain ⟨data, hd⟩ := Option.ne_none_iff_exists'.mp h.present
    have len := h.capacity_eq
    simp only [HdfSBufRaw.bytes, hd, Option.getD_some] at len
    refine ⟨⟨fits.2, h.write_le_capacity, ?_⟩, ?_⟩
    · simp only [HdfSBufRaw.bytes, hd, Option.map_some, Option.getD_some, List.length_set, len]
    · simp only [hd, Option.map_some, ne_eq, reduceCtorEq, not_false_eq_true]
  · exact h
  · exact h

theorem claimedSize_cases {w : ℕ} (h : w < 2 ^ 32) :
  (w < 2 ^ 32 - 3 ∧ w ≤ claimedSize w) ∨ (2 ^ 32 - 3 ≤ w ∧ claimedSize w = 0) := by
 rw [claimedSize, alignSize_intOfWord h]
 have := le_align4 w
 split_ifs <;> omega

theorem buffer_inside_iff (h : Readable s) :
  (readCall s (.buffer true)).1.Inside s (readCall s (.buffer true)).2 ↔
   PrefixFits s (.buffer true) := by
 have lt := prefixWord_lt s
 have wrap := claimedSize_cases lt
 simp only [readCall, PrefixFits, true_implies]
 rw [readBuffer_eq h.present h.read_le_write]
 split_ifs with room zero fits
 · refine iff_of_true rfl ?_
   intro _ big
   omega
 · change s.readPos ≤ s.readPos + 4 ∧
    s.readPos + 4 + (UInt32.ofNat (prefixWord s)).toNat ≤ s.writePos ↔ _
   rw [UInt32.toNat_ofNat', Nat.mod_eq_of_lt lt]
   constructor
   · rintro ⟨-, inside⟩ _ _
     exact inside
   · intro cond
     refine ⟨by omega, ?_⟩
     rcases wrap with ⟨-, covers⟩ | ⟨big, -⟩
     · omega
     · exact cond room big
 · refine iff_of_true trivial ?_
   intro _ big
   omega
 · refine iff_of_true trivial ?_
   intro enough
   exact absurd enough room

theorem string_inside (h : Readable s) :
  (readCall s .string).1.Inside s (readCall s .string).2 := by
 simp only [readCall]
 rw [readString_eq h.present h.read_le_write]
 split_ifs with room outside fits
 · trivial
 · obtain ⟨data, hd⟩ := Option.ne_none_iff_exists'.mp h.present
   have len := h.capacity_eq
   have within := h.write_le_capacity
   have covers := le_align4 (prefixWord s)
   simp only [HdfSBufRaw.bytes, hd, Option.getD_some] at len
   refine ⟨by omega, s.readPos + 4 + (prefixWord s - 1), by omega, by omega, ?_⟩
   have inData : s.readPos + 4 + (prefixWord s - 1) < data.length := by omega
   simp only [HdfSBufRaw.bytes, hd, Prod.map, id, Option.map_some, Option.getD_some,
    List.getElem?_set_self inData]
 · trivial
 · trivial

theorem readSafe_iff (h : Readable s) (call : ReadCall) : ReadSafe s call ↔ PrefixFits s call := by
 have moved := (readCall_readable h call).read_le_write
 rw [ReadSafe, and_iff_left moved]
 cases call with
 | int type out =>
  refine iff_of_true ?_ trivial
  change ReadResult.Inside s _ ((sbufReadInt s out type).1.elim .failed .int)
  cases (sbufReadInt s out type).1 <;> trivial
 | buffer out =>
  cases out with
  | true => exact buffer_inside_iff h
  | false =>
   refine iff_of_true ?_ (fun contra => by cases contra)
   simp only [readCall, sbufRawImplReadBuffer, Bool.not_false, Bool.or_true, if_true]
   trivial
 | string => exact iff_of_true (string_inside h) trivial

theorem bindRaw_readable {obj : Bool} {base : ℕ} {content : List UInt8}
  (h : sbufBindRaw obj base content = some s) : Readable s := by
 unfold sbufBindRaw at h
 split_ifs at h
 cases h
 exact ⟨⟨Nat.zero_le _, le_rfl, rfl⟩, by simp⟩

/-- Over any bound content, all read calls of a run stay inside the bytes that are
still unread exactly when no call meets a length prefix that wraps around. -/
theorem reads_inside_iff_prefixFits (obj : Bool) (base : ℕ) (content : List UInt8)
    (s : HdfSBufRaw) (calls : List ReadCall) (h : sbufBindRaw obj base content = some s) :
    RunRules.Along readStep ReadSafe s calls ↔ RunRules.Along readStep PrefixFits s calls := by
  apply RunRules.along_congr (I := Readable) ?_ ?_ s calls (bindRaw_readable h)
  · intro t call u ht hu
    cases hu
    exact readCall_readable ht call
  · intro t call ht
    exact readSafe_iff ht call

/-- An integer and a string are read from twelve bytes. -/
theorem reads_inside_twelve_bytes :
    ∃ s, sbufBindRaw true 16 [7, 0, 0, 0, 2, 0, 0, 0, 104, 0, 0, 0] = some s ∧
      (RunRules.Along readStep ReadSafe s [.int .uint32 true, .string] ↔
        RunRules.Along readStep PrefixFits s [.int .uint32 true, .string]) :=
  ⟨_, rfl, reads_inside_iff_prefixFits true 16 [7, 0, 0, 0, 2, 0, 0, 0, 104, 0, 0, 0] _ _ rfl⟩

/-- The length -1 in the last four bytes of the content is accepted. -/
theorem minus_one_leaves_content : ∃ s, sbufBindRaw true 16 [255, 255, 255, 255] = some s ∧
      (readCall s (.buffer true)).1 = .buffer (some 4) 4294967295 ∧
      ¬ RunRules.Along readStep ReadSafe s [.buffer true] := by
  refine ⟨_, rfl, by decide, ?_⟩
  intro safe
  have inside := (safe [] _ (List.prefix_refl _) _ rfl).1
  revert inside
  change ¬ (0 ≤ 4 ∧ 4 + 4294967295 ≤ 4)
  omega

theorem readInt32_exhausted (hpos : ¬ s.readPos + 4 ≤ s.writePos) :
  sbufRawImplReadInt32 s true = (none, s) := by
 have left : sbufRawImplGetAlignSize 4 > sbufRawImplGetLeftReadSize s := by
  have aligned : sbufRawImplGetAlignSize 4 = 4 := rfl
  rw [aligned, sbufRawImplGetLeftReadSize]
  split_ifs <;> omega
 unfold sbufRawImplReadInt32 sbufRawImplRead
 cases s.data with
 | none => rfl
 | some data => simp [left]

/-- A string read comes to a length that is not positive. -/
def FindsNoLength (s : HdfSBufRaw) : ReadCall → Prop
 | .string => s.data ≠ none ∧ s.readPos + 4 ≤ s.writePos ∧
   (prefixWord s = 0 ∨ 2 ^ 31 ≤ prefixWord s)
 | _ => False

theorem failed_buffer {out : Bool} (h : (sbufRawImplReadBuffer s out).1 = none) :
  (sbufRawImplReadBuffer s out).2 = s := by
 by_cases hdata : s.data = none ∨ out = false
 · have hinput : (s.data = none || !out) = true := by simpa using hdata
   unfold sbufRawImplReadBuffer
   rw [if_pos hinput]
 rw [not_or, Bool.not_eq_false] at hdata
 obtain ⟨hdata, rfl⟩ := hdata
 by_cases room : s.readPos + 4 ≤ s.writePos
 · rw [readBuffer_eq hdata (by omega), if_pos room] at h ⊢
   split_ifs at h ⊢ with zero fits
   rfl
 · simp only [sbufRawImplReadBuffer, hdata, decide_false, Bool.not_true, Bool.or_self,
    Bool.false_eq_true, if_false, readInt32_exhausted room]

theorem failed_string (s : HdfSBufRaw) (h : (sbufRawImplReadString s).1 = none) :
  (sbufRawImplReadString s).2 =
   if s.data ≠ none ∧ s.readPos + 4 ≤ s.writePos ∧ (prefixWord s = 0 ∨ 2 ^ 31 ≤ prefixWord s)
   then { s with readPos := s.readPos + 4 } else s := by
 by_cases hdata : s.data = none
 · simp [sbufRawImplReadString, hdata]
 by_cases room : s.readPos + 4 ≤ s.writePos
 · rw [readString_eq hdata (by omega), if_pos room] at h ⊢
   by_cases outside : prefixWord s = 0 ∨ 2 ^ 31 ≤ prefixWord s
   · rw [if_pos outside, if_pos ⟨hdata, room, outside⟩]
   have hfound : ¬ (s.data ≠ none ∧ s.readPos + 4 ≤ s.writePos ∧
     (prefixWord s = 0 ∨ 2 ^ 31 ≤ prefixWord s)) := fun h => outside h.2.2
   rw [if_neg outside] at h ⊢
   rw [if_neg hfound]
   split_ifs at h ⊢
   rfl
 · simp [sbufRawImplReadString, hdata, readInt32_exhausted room, room]

/-- A typed read that fails leaves the read position and the bytes as they were, whatever the
object, but for a string read that comes to a length that is not positive. -/
theorem failed_read_keeps_iff (s : HdfSBufRaw) (call : ReadCall) :
    ((readCall s call).1 = .failed →
      (readCall s call).2.readPos = s.readPos ∧ (readCall s call).2.bytes = s.bytes) ↔
      ¬ FindsNoLength s call := by
  have keeps {t : HdfSBufRaw} (h : t = s) : t.readPos = s.readPos ∧ t.bytes = s.bytes := by
    rw [h]
    exact ⟨rfl, rfl⟩
  cases call with
  | int type out =>
    refine iff_of_true ?_ id
    intro h
    refine keeps ?_
    change (sbufReadInt s out type).2 = s
    change (sbufReadInt s out type).1.elim .failed .int = ReadResult.failed at h
    rw [sbufReadInt_eq] at h ⊢
    cases hread : sbufRawImplRead s out type.size with
    | mk r t =>
      cases r with
      | none => exact read_none hread
      | some bs =>
        rw [hread] at h
        cases h
  | buffer out =>
    refine iff_of_true ?_ id
    intro h
    refine keeps (failed_buffer ?_)
    cases hread : (sbufRawImplReadBuffer s out).1 with
    | none => rfl
    | some r =>
      change (sbufRawImplReadBuffer s out).1.elim ReadResult.failed _ = .failed at h
      rw [hread] at h
      cases h
  | string =>
    have hfailed : (readCall s .string).1 = .failed ↔ (sbufRawImplReadString s).1 = none := by
      change (sbufRawImplReadString s).1.elim ReadResult.failed .string = .failed ↔ _
      cases (sbufRawImplReadString s).1 <;> simp
    rw [hfailed]
    change (_ → (sbufRawImplReadString s).2.readPos = _ ∧ (sbufRawImplReadString s).2.bytes = _) ↔ _
    constructor
    · intro h hfound
      have hnone : (sbufRawImplReadString s).1 = none := by
        obtain ⟨hdata, room, outside⟩ := hfound
        rw [readString_eq hdata (by omega), if_pos room, if_pos outside]
      have moved := (h hnone).1
      rw [failed_string s hnone, if_pos (show _ ∧ _ from hfound)] at moved
      change s.readPos + 4 = s.readPos at moved
      omega
    · intro hfound h
      refine keeps ?_
      rw [failed_string s h]
      exact if_neg hfound

/-- The length -1 where a string is expected -/
theorem negative_length_consumed : ¬ ∀ (s : HdfSBufRaw) (call : ReadCall),
    (readCall s call).1 = .failed →
      (readCall s call).2.readPos = s.readPos ∧ (readCall s call).2.bytes = s.bytes := by
  intro h
  have hkept := h ⟨4, 0, 4, some [255, 255, 255, 255], true⟩ .string (by decide)
  exact absurd hkept.1 (by decide)

end DriversFramework.SbufRaw
