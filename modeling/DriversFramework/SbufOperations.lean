import DriversFramework.SbufRoundTrip

namespace DriversFramework.SbufRaw

open ByteCodec

def sbufRawImplSetDataSize (sbuf : HdfSBufRaw) (size : ℕ) : HdfSBufRaw :=
 if size ≤ sbuf.capacity then { sbuf with readPos := 0, writePos := size } else sbuf

def sbufRawImplFlush (sbuf : HdfSBufRaw) : HdfSBufRaw := { sbuf with readPos := 0, writePos := 0 }

def sbufRawImplCopy (sbuf : HdfSBufRaw) (obj mem : Bool) : Option HdfSBufRaw :=
 match sbuf.data with
 | none => none
 | some data =>
  match sbufRawImplNewInstance obj mem sbuf.capacity with
  | none => none
  | some new =>
   match memcpyS new.bytes 0 sbuf.capacity (data.take sbuf.capacity) with
   | (false, _) => none
   | (true, copied) =>
    some { new with
     capacity := sbuf.capacity
     readPos := 0
     writePos := sbuf.writePos
     data := some copied }

def sbufRawImplMove (sbuf : HdfSBufRaw) (obj : Bool) : Option HdfSBufRaw × HdfSBufRaw :=
 if sbuf.isBind then (none, sbuf)
 else if !obj then (none, sbuf)
 else (some ⟨sbuf.writePos, 0, sbuf.capacity, sbuf.data, false⟩,
  sbufRawImplFlush { sbuf with data := none, capacity := 0 })

def sbufRawImplTransDataOwnership (sbuf : HdfSBufRaw) : HdfSBufRaw := { sbuf with isBind := false }

/-- An operation, on the object with a number where it takes one. -/
inductive SbufOp where
 | obtain (obj mem : Bool) (capacity : ℕ)
 | bind (obj : Bool) (base : ℕ) (content : List UInt8)
 | write (i : ℕ) (mem memData : Bool) (w : TypedWrite)
 | read (i : ℕ) (call : ReadCall)
 | setDataSize (i size : ℕ)
 | flush (i : ℕ)
 | copy (i : ℕ) (obj mem : Bool)
 | move (i : ℕ) (obj : Bool)
 | transDataOwnership (i : ℕ)

/-- All operations return at once for a null object. -/
def sbufStep (sbufs : List HdfSBufRaw) : SbufOp → Option (List HdfSBufRaw)
 | .obtain obj mem capacity => some (sbufs ++ (sbufObtainRaw obj mem capacity).toList)
 | .bind obj base content => some (sbufs ++ (sbufBindRaw obj base content).toList)
 | .write i mem memData w => some (sbufs.modify i fun s => (typedWrite s mem memData w).2)
 | .read i call => some (sbufs.modify i fun s => (readCall s call).2)
 | .setDataSize i size => some (sbufs.modify i fun s => sbufRawImplSetDataSize s size)
 | .flush i => some (sbufs.modify i sbufRawImplFlush)
 | .copy i obj mem => some (sbufs ++ (sbufs[i]?.bind fun s => sbufRawImplCopy s obj mem).toList)
 | .move i obj =>
  some (sbufs.modify i (fun s => (sbufRawImplMove s obj).2) ++
   (sbufs[i]?.bind fun s => (sbufRawImplMove s obj).1).toList)
 | .transDataOwnership i => some (sbufs.modify i sbufRawImplTransDataOwnership)

/-- The positions are in order, the capacity is the size of the memory, and memory that the object
owns is within the limit. -/
structure Kept (s : HdfSBufRaw) : Prop extends s.Sound where
 owned : s.isBind = false → s.capacity ≤ hdfSbufMaxSize

/-- A write that returns false leaves the write position and the bytes before it alone. -/
def FailedWriteKeeps (sbufs : List HdfSBufRaw) : SbufOp → Prop
 | .write i mem memData w => ∀ s, sbufs[i]? = some s → (typedWrite s mem memData w).1 = false →
   (typedWrite s mem memData w).2.writePos = s.writePos ∧
    (typedWrite s mem memData w).2.content = s.content
 | _ => True

/-- Ownership of more than the limit is not handed over. -/
def TransferFits (sbufs : List HdfSBufRaw) : SbufOp → Prop
 | .transDataOwnership i => ∀ s, sbufs[i]? = some s → s.capacity ≤ hdfSbufMaxSize
 | _ => True

structure WriteKept (s t : HdfSBufRaw) : Prop extends Kept t where
 isBind : t.isBind = s.isBind

structure Unwritten (s t : HdfSBufRaw) : Prop extends WriteKept s t where
 writePos : t.writePos = s.writePos
 readPos : t.readPos = s.readPos
 content : t.content = s.content

variable {s : HdfSBufRaw}

theorem Unwritten.refl (h : Kept s) : Unwritten s s := ⟨⟨h, rfl⟩, rfl, rfl, rfl⟩

variable {t u : HdfSBufRaw} {obj mem : Bool}

theorem Unwritten.trans (h : Unwritten s t) (k : Unwritten t u) :
  Unwritten s u :=
 ⟨⟨k.toKept, k.isBind.trans h.isBind⟩, k.writePos.trans h.writePos, k.readPos.trans h.readPos,
  k.content.trans h.content⟩

theorem grow_false {growSize : ℕ}
  (h : sbufRawImplGrow s mem growSize = (false, t)) : t = s := by
 unfold sbufRawImplGrow at h
 dsimp only at h
 split_ifs at h with bound small large
 · cases h; rfl
 · cases h; rfl
 · cases h; rfl
 · split at h
   · cases h; rfl
   · split at h
     · cases h
     · split at h
       · cases h; rfl
       · cases h

theorem grow_isBind (s : HdfSBufRaw) (mem : Bool) (growSize : ℕ) :
  (sbufRawImplGrow s mem growSize).2.isBind = s.isBind := by
 unfold sbufRawImplGrow
 dsimp only
 split_ifs
 · rfl
 · rfl
 · rfl
 · split
   · rfl
   · split
     · rfl
     · split <;> rfl

theorem reserve_unwritten (hs : Kept s) (mem : Bool) (alignSize : ℕ) :
  Unwritten s (sbufRawImplReserve s mem alignSize).2 := by
 unfold sbufRawImplReserve
 split_ifs
 · cases hgrow : sbufRawImplGrow s mem (growSizeFor alignSize % 2 ^ 32) with
   | mk r t =>
    cases r with
    | false =>
     rw [grow_false hgrow]
     exact .refl hs
    | true =>
     obtain ⟨keeps, -, limit, -⟩ := grow_true hs.toSound hgrow
     have bind := grow_isBind s mem (growSizeFor alignSize % 2 ^ 32)
     rw [hgrow] at bind
     exact ⟨⟨⟨keeps.sound, fun _ => limit⟩, bind⟩, keeps.writePos, keeps.readPos, keeps.content⟩
 · exact .refl hs

theorem memcpyS_false {data src out : List UInt8} {dest destMax : ℕ}
  (hroom : dest + destMax ≤ data.length) (h : memcpyS data dest destMax src = (false, out)) :
  out.length = data.length ∧ out.take dest = data.take dest := by
 unfold memcpyS at h
 split_ifs at h with limit fits
 · cases h
   exact ⟨rfl, rfl⟩
 · cases h
   have len : dest + (List.replicate destMax (0 : UInt8)).length ≤ data.length := by
    rw [List.length_replicate]
    exact hroom
   exact ⟨splice_length len, take_splice le_rfl (by omega)⟩
 · cases h

theorem write_kept (hs : Kept s) (mem : Bool) (src : List UInt8) :
  WriteKept s (sbufRawImplWrite s mem src).2 ∧
   ((sbufRawImplWrite s mem src).1 = false → Unwritten s (sbufRawImplWrite s mem src).2) := by
 have same {r : Bool} : WriteKept s (r, s).2 ∧ ((r, s).1 = false → Unwritten s (r, s).2) :=
  ⟨⟨hs, rfl⟩, fun _ => .refl hs⟩
 cases hwrite : sbufRawImplWrite s mem src with
 | mk r t =>
  have hw := hwrite
  unfold sbufRawImplWrite at hwrite
  dsimp only at hwrite
  split_ifs at hwrite with hnone empty wrap
  · cases hwrite
    exact same
  · cases hwrite
    exact same
  · cases hwrite
    exact same
  · have reserved := reserve_unwritten hs mem (sbufRawImplGetAlignSize src.length)
    split at hwrite
    · next u hu =>
      cases hwrite
      rw [hu] at reserved
      exact ⟨reserved.toWriteKept, fun _ => reserved⟩
    · next u hu =>
      rw [hu] at reserved
      have sound := reserved.toKept.toSound
      have left : sbufRawImplGetLeftWriteSize u = u.capacity - u.writePos := by
       simp only [sbufRawImplGetLeftWriteSize, not_lt.mpr sound.write_le_capacity, if_false]
      split at hwrite
      · next data hcopy =>
        cases hwrite
        rw [left] at hcopy
        have room : u.writePos + (u.capacity - u.writePos) ≤ u.bytes.length := by
         have within : u.writePos ≤ u.capacity := sound.write_le_capacity
         have len : u.bytes.length = u.capacity := sound.capacity_eq
         omega
        obtain ⟨len, front⟩ := memcpyS_false room hcopy
        have cleared : Unwritten u { u with data := some data } :=
         ⟨⟨⟨⟨sound.read_le_write, sound.write_le_capacity, len.trans sound.capacity_eq⟩,
          reserved.toKept.owned⟩, rfl⟩, rfl, rfl, front⟩
        exact ⟨(reserved.trans cleared).toWriteKept, fun _ => reserved.trans cleared⟩
      · next data hcopy =>
        cases hwrite
        obtain ⟨-, block, -, appends⟩ := write_true hs.toSound hw
        exact ⟨⟨⟨appends.sound, reserved.toKept.owned⟩, reserved.isBind⟩, fun h => by cases h⟩

theorem WriteKept.trans (h : WriteKept s t) (k : WriteKept t u) :
  WriteKept s u := ⟨k.toKept, k.isBind.trans h.isBind⟩

theorem rollback_unwritten {v : HdfSBufRaw} {block : List UInt8} (hs : Kept s)
    (hu : Appends s u block) (hblock : block.length = 4) (hbind : u.isBind = s.isBind)
    (hv : Unwritten u v) : Unwritten s (sbufRawImplWriteRollback v 4) := by
  have len := hu.sound.content_length
  rw [hu.content, List.length_append, hs.content_length, hblock] at len
  have aligned : sbufRawImplGetAlignSize 4 = 4 := rfl
  have pos : v.writePos = s.writePos + 4 := hv.writePos.trans len.symm
  have enough : ¬ v.writePos < 4 := by omega
  have back : v.writePos - 4 = s.writePos := by omega
  have start : v.readPos = s.readPos := hv.readPos.trans hu.readPos
  have within := hv.write_le_capacity
  have front : v.bytes.take s.writePos = s.content := by
    have whole : v.content = s.content ++ block := hv.content.trans hu.content
    rw [HdfSBufRaw.content, pos] at whole
    calc v.bytes.take s.writePos = (v.bytes.take (s.writePos + 4)).take s.writePos := by
          rw [List.take_take, min_eq_left (Nat.le_add_right _ _)]
      _ = (s.content ++ block).take s.writePos := by rw [whole]
      _ = s.content := by rw [List.take_append_of_le_length hs.content_length.ge,
          List.take_of_length_le hs.content_length.le]
  unfold sbufRawImplWriteRollback
  simp only [aligned, enough, if_false, back]
  exact ⟨⟨⟨⟨start.trans_le hs.read_le_write, by change s.writePos ≤ v.capacity; omega,
    hv.capacity_eq⟩, hv.owned⟩, hv.isBind.trans hbind⟩, rfl, start, front⟩

theorem writeBuffer_kept (hs : Kept s) (mem memData : Bool)
  (data : Option (List UInt8)) (writeSize : UInt32) :
  WriteKept s (sbufRawImplWriteBuffer s mem memData data writeSize).2 ∧
   ((sbufRawImplWriteBuffer s mem memData data writeSize).1 = false →
    Unwritten s (sbufRawImplWriteBuffer s mem memData data writeSize).2) := by
 cases data with
 | none => exact write_kept hs mem _
 | some data =>
  unfold sbufRawImplWriteBuffer
  dsimp only
  have first := write_kept hs mem (leBytes 4 writeSize.toInt32.toUInt32.toNat)
  split
  · next u hlen =>
    have hfirst := first.2
    rw [show sbufRawImplWrite s mem (leBytes 4 writeSize.toInt32.toUInt32.toNat) = (false, u)
     from hlen] at hfirst
    exact ⟨(hfirst rfl).toWriteKept, hfirst⟩
  · next u hlen =>
    have hfirst := first.1
    rw [show sbufRawImplWrite s mem (leBytes 4 writeSize.toInt32.toUInt32.toNat) = (true, u)
     from hlen] at hfirst
    have second := write_kept hfirst.toKept memData (data.take writeSize.toNat)
    split
    · next v hbody =>
      rw [hbody] at second
      have restored := rollback_unwritten hs (writeInt32_true hs.toSound hlen)
       (leBytes_length _ _) hfirst.isBind (second.2 rfl)
      exact ⟨restored.toWriteKept, fun _ => restored⟩
    · next v hbody =>
      rw [hbody] at second
      exact ⟨hfirst.trans second.1, fun h => by cases h⟩

theorem typedWrite_kept (hs : Kept s) (mem memData : Bool) (w : TypedWrite) :
  WriteKept s (typedWrite s mem memData w).2 ∧
   ((typedWrite s mem memData w).1 = false → Unwritten s (typedWrite s mem memData w).2) := by
 cases w with
 | int value =>
  rw [typedWrite, sbufWriteInt_eq]
  exact write_kept hs mem _
 | float bits => exact ⟨⟨hs, rfl⟩, fun _ => .refl hs⟩
 | double bits => exact ⟨⟨hs, rfl⟩, fun _ => .refl hs⟩
 | buffer data => exact writeBuffer_kept hs mem memData _ _
 | nullBuffer writeSize => exact writeBuffer_kept hs mem memData none writeSize
 | string value =>
  cases value with
  | none => exact writeBuffer_kept hs mem memData none 0
  | some value => exact writeBuffer_kept hs mem memData _ _

theorem read_moves (s : HdfSBufRaw) (out : Bool) (readSize : ℕ) :
  ∃ p, (sbufRawImplRead s out readSize).2 = { s with readPos := p } := by
 unfold sbufRawImplRead
 split
 · exact ⟨s.readPos, rfl⟩
 · dsimp only
   split_ifs <;> exact ⟨_, rfl⟩

theorem readInt32_moves (s : HdfSBufRaw) :
  ∃ p, (sbufRawImplReadInt32 s true).2 = { s with readPos := p } := read_moves s true 4

theorem readRollback_same (s : HdfSBufRaw) (size : ℕ) :
  (sbufRawImplReadRollback s size).isBind = s.isBind ∧
   (sbufRawImplReadRollback s size).capacity = s.capacity := by
 unfold sbufRawImplReadRollback
 dsimp only
 split_ifs <;> exact ⟨rfl, rfl⟩

theorem readCall_same (s : HdfSBufRaw) (call : ReadCall) :
  (readCall s call).2.isBind = s.isBind ∧ (readCall s call).2.capacity = s.capacity := by
 cases call with
 | int type out =>
  obtain ⟨p, hp⟩ := read_moves s out type.size
  change (sbufReadInt s out type).2.isBind = _ ∧ (sbufReadInt s out type).2.capacity = _
  rw [sbufReadInt_eq, hp]
  exact ⟨rfl, rfl⟩
 | buffer out =>
  change (sbufRawImplReadBuffer s out).2.isBind = _ ∧ (sbufRawImplReadBuffer s out).2.capacity = _
  unfold sbufRawImplReadBuffer
  split_ifs
  · exact ⟨rfl, rfl⟩
  · obtain ⟨p, hp⟩ := readInt32_moves s
    split
    · next t ht =>
      rw [ht] at hp
      rw [hp]
      exact ⟨rfl, rfl⟩
    · next n t ht =>
      rw [ht] at hp
      obtain rfl : t = { s with readPos := p } := hp
      dsimp only
      split_ifs
      · exact ⟨rfl, rfl⟩
      · exact readRollback_same _ 4
      · exact ⟨rfl, rfl⟩
 | string =>
  change (sbufRawImplReadString s).2.isBind = _ ∧ (sbufRawImplReadString s).2.capacity = _
  unfold sbufRawImplReadString
  split_ifs
  · exact ⟨rfl, rfl⟩
  · obtain ⟨p, hp⟩ := readInt32_moves s
    split
    · next t ht =>
      rw [ht] at hp
      rw [hp]
      exact ⟨rfl, rfl⟩
    · next n t ht =>
      rw [ht] at hp
      obtain rfl : t = { s with readPos := p } := hp
      dsimp only
      split_ifs
      · exact ⟨rfl, rfl⟩
      · exact readRollback_same _ 4
      · exact ⟨rfl, rfl⟩

theorem readCall_kept (hs : Kept s) (call : ReadCall) : Kept (readCall s call).2 := by
 obtain ⟨bind, capacity⟩ := readCall_same s call
 have owned : (readCall s call).2.isBind = false →
   (readCall s call).2.capacity ≤ hdfSbufMaxSize := by
  rw [bind, capacity]
  exact hs.owned
 cases hdata : s.data with
 | none =>
  have same : (readCall s call).2 = s := by
   cases call with
   | int type out =>
    change (sbufReadInt s out type).2 = s
    simp only [sbufReadInt_eq, sbufRawImplRead, hdata]
   | buffer out =>
    change (sbufRawImplReadBuffer s out).2 = s
    simp [sbufRawImplReadBuffer, hdata]
   | string =>
    change (sbufRawImplReadString s).2 = s
    simp [sbufRawImplReadString, hdata]
  rw [same]
  exact hs
 | some data =>
  have readable : Readable s := ⟨hs.toSound, by rw [hdata]; exact Option.some_ne_none _⟩
  exact ⟨(readCall_readable readable call).toSound, owned⟩

theorem newInstance_kept {capacity : ℕ}
  (h : sbufRawImplNewInstance obj mem capacity = some s) :
  Kept s ∧ s.capacity = capacity ∧ s.isBind = false := by
 unfold sbufRawImplNewInstance at h
 split_ifs at h with large
 split at h
 · cases h
 · next data hmem =>
   cases h
   have len : data.length = capacity := by rw [osalMemCalloc_some hmem, List.length_replicate]
   exact ⟨⟨⟨le_rfl, Nat.zero_le _, len⟩, fun _ => not_lt.mp large⟩, rfl, rfl⟩

theorem bindRaw_kept {base : ℕ} {content : List UInt8}
  (h : sbufBindRaw obj base content = some s) : Kept s ∧ s.capacity = content.length ∧
   s.isBind = true := by
 refine ⟨⟨(bindRaw_readable h).toSound, ?_⟩, ?_⟩ <;>
 · unfold sbufBindRaw at h
   split_ifs at h
   cases h
   simp

theorem copy_kept (hs : Kept s)
  (h : sbufRawImplCopy s obj mem = some t) : Kept t := by
 unfold sbufRawImplCopy at h
 split at h
 · cases h
 · next data hdata =>
   split at h
   · cases h
   · next new hnew =>
     obtain ⟨kept, capacity, bind⟩ := newInstance_kept hnew
     split at h
     · cases h
     · next copied hcopy =>
       cases h
       obtain ⟨fits, -, rfl⟩ := memcpyS_true hcopy
       have limit : s.capacity ≤ hdfSbufMaxSize := capacity ▸ kept.owned bind
       have size : new.bytes.length = s.capacity := kept.capacity_eq.trans capacity
       have room : 0 + (data.take s.capacity).length ≤ new.bytes.length := by omega
       have len := splice_length room
       exact ⟨⟨Nat.zero_le _, hs.write_le_capacity, len.trans size⟩, fun _ => limit⟩

theorem move_kept (hs : Kept s) :
  Kept (sbufRawImplMove s obj).2 ∧ ∀ t ∈ (sbufRawImplMove s obj).1, Kept t := by
 unfold sbufRawImplMove
 split_ifs with bind hobj
 · exact ⟨hs, by simp⟩
 · exact ⟨hs, by simp⟩
 · refine ⟨⟨⟨le_rfl, le_rfl, rfl⟩, fun _ => Nat.zero_le _⟩, ?_⟩
   rintro t ⟨⟩
   exact ⟨⟨Nat.zero_le _, hs.write_le_capacity, hs.capacity_eq⟩,
    fun _ => hs.owned (Bool.eq_false_iff.mpr bind)⟩

theorem setDataSize_kept (hs : Kept s) (size : ℕ) : Kept (sbufRawImplSetDataSize s size) := by
 unfold sbufRawImplSetDataSize
 split_ifs with fits
 · exact ⟨⟨Nat.zero_le _, fits, hs.capacity_eq⟩, hs.owned⟩
 · exact hs

theorem flush_kept (hs : Kept s) : Kept (sbufRawImplFlush s) :=
 ⟨⟨le_rfl, Nat.zero_le _, hs.capacity_eq⟩, hs.owned⟩

theorem transDataOwnership_kept (hs : Kept s) :
  Kept (sbufRawImplTransDataOwnership s) ↔ s.capacity ≤ hdfSbufMaxSize := by
 constructor
 · intro kept
   exact kept.owned rfl
 · intro limit
   exact ⟨⟨hs.read_le_write, hs.write_le_capacity, hs.capacity_eq⟩, fun _ => limit⟩

def AllKept (sbufs : List HdfSBufRaw) : Prop := ∀ s ∈ sbufs, Kept s

variable {sbufs : List HdfSBufRaw}

theorem allKept_modify {i : ℕ} {f : HdfSBufRaw → HdfSBufRaw}
  (h : AllKept sbufs) (hf : ∀ s, sbufs[i]? = some s → Kept (f s)) :
  AllKept (sbufs.modify i f) := by
 intro t ht
 obtain ⟨j, hj⟩ := List.mem_iff_getElem?.mp ht
 rw [List.getElem?_modify] at hj
 obtain ⟨s, hs, rfl⟩ := Option.map_eq_some_iff.mp hj
 split_ifs with same
 · exact hf s (same ▸ hs)
 · exact h s (List.mem_of_getElem? hs)

theorem allKept_append {o : Option HdfSBufRaw} (h : AllKept sbufs)
  (ho : ∀ s, o = some s → Kept s) : AllKept (sbufs ++ o.toList) := by
 intro s hs
 rcases List.mem_append.mp hs with hs | hs
 · exact h s hs
 · exact ho s (Option.mem_toList.mp hs)

theorem sbufStep_kept (h : AllKept sbufs) (op : SbufOp) :
  (∃ after, sbufStep sbufs op = some after ∧ AllKept after) ↔ TransferFits sbufs op := by
 have at_ {i : ℕ} {s : HdfSBufRaw} (hs : sbufs[i]? = some s) : Kept s :=
  h s (List.mem_of_getElem? hs)
 cases op with
 | obtain obj mem capacity =>
  exact iff_of_true ⟨_, rfl, allKept_append h fun s hs => (newInstance_kept hs).1⟩ trivial
 | bind obj base content =>
  exact iff_of_true ⟨_, rfl, allKept_append h fun s hs => (bindRaw_kept hs).1⟩ trivial
 | write i mem memData w =>
  exact iff_of_true ⟨_, rfl, allKept_modify h fun s hs =>
   (typedWrite_kept (at_ hs) mem memData w).1.toKept⟩ trivial
 | read i call =>
  exact iff_of_true ⟨_, rfl, allKept_modify h fun s hs => readCall_kept (at_ hs) call⟩ trivial
 | setDataSize i size =>
  exact iff_of_true ⟨_, rfl, allKept_modify h fun s hs => setDataSize_kept (at_ hs) size⟩ trivial
 | flush i =>
  exact iff_of_true ⟨_, rfl, allKept_modify h fun s hs => flush_kept (at_ hs)⟩ trivial
 | copy i obj mem =>
  refine iff_of_true ⟨_, rfl, allKept_append h ?_⟩ trivial
  intro t ht
  obtain ⟨s, hs, hcopy⟩ := Option.bind_eq_some_iff.mp ht
  exact copy_kept (at_ hs) hcopy
 | move i obj =>
  refine iff_of_true ⟨_, rfl, allKept_append ?_ ?_⟩ trivial
  · exact allKept_modify h fun s hs => (move_kept (at_ hs)).1
  · intro t ht
    obtain ⟨s, hs, hmove⟩ := Option.bind_eq_some_iff.mp ht
    exact (move_kept (at_ hs)).2 t hmove
 | transDataOwnership i =>
  constructor
  · rintro ⟨after, hafter, kept⟩ s hs
    cases hafter
    refine (transDataOwnership_kept (at_ hs)).mp (kept _ (List.mem_iff_getElem?.mpr ⟨i, ?_⟩))
    rw [List.getElem?_modify, hs]
    simp
  · intro fits
    exact ⟨_, rfl, allKept_modify h fun s hs =>
     (transDataOwnership_kept (at_ hs)).mpr (fits s hs)⟩

theorem failedWrite_keeps (h : AllKept sbufs) (op : SbufOp) : FailedWriteKeeps sbufs op := by
 cases op with
 | write i mem memData w =>
  intro s hs hfailed
  have unwritten := (typedWrite_kept (h s (List.mem_of_getElem? hs)) mem memData w).2 hfailed
  exact ⟨unwritten.writePos, unwritten.content⟩
 | _ => trivial

theorem objects_kept_iff (ops : List SbufOp) :
  RunRules.Safe sbufStep AllKept [] ops ↔ RunRules.Along sbufStep TransferFits [] ops :=
 RunRules.safe_iff_along (fun _ op h => sbufStep_kept h op) [] ops fun s hs => by cases hs

/-- Over any operations on any objects the positions stay in order, the capacity is the size of
the memory, owned memory is within the limit and a failed write changes nothing that can be read,
exactly when no transfer of ownership hands over more than the limit. -/
theorem operations_keep_iff (ops : List SbufOp) :
    RunRules.Safe sbufStep (fun sbufs => ∀ s ∈ sbufs, Kept s) [] ops ∧
      RunRules.Along sbufStep FailedWriteKeeps [] ops ↔
    RunRules.Along sbufStep TransferFits [] ops := by
  change RunRules.Safe sbufStep AllKept [] ops ∧ _ ↔ _
  rw [objects_kept_iff, and_iff_left_iff_imp]
  intro along pre op hpre sbufs hexec
  obtain ⟨t, ht, kept⟩ :=
    (objects_kept_iff ops).mpr along pre (List.IsPrefix.trans ⟨[op], rfl⟩ hpre)
  obtain rfl : sbufs = t := Option.some.inj (hexec.symm.trans ht)
  exact failedWrite_keeps kept op

theorem handOver_fits {content : List UInt8} (hpos : content.length ≠ 0)
  (h : RunRules.Along sbufStep TransferFits [] [.bind true 4 content, .transDataOwnership 0]) :
  content.length ≤ hdfSbufMaxSize := by
 have bound : sbufBindRaw true 4 content =
   some ⟨content.length, 0, content.length, some content, true⟩ := by
  simp [sbufBindRaw, hpos]
 refine h [.bind true 4 content] (.transDataOwnership 0) (List.prefix_refl _)
  [⟨content.length, 0, content.length, some content, true⟩] ?_ _ rfl
 simp only [RunRules.exec_cons, RunRules.exec_nil, sbufStep, bound, Option.toList,
  Option.bind_some, List.nil_append]

/-- A bound buffer just above the limit is handed over. -/
theorem large_buffer_handed_over : ¬ ∀ ops : List SbufOp,
    RunRules.Safe sbufStep (fun sbufs => ∀ s ∈ sbufs, Kept s) [] ops ∧
      RunRules.Along sbufStep FailedWriteKeeps [] ops := by
  intro h
  obtain ⟨content, hlen⟩ : ∃ content : List UInt8, content.length = hdfSbufMaxSize + 1 :=
    ⟨List.replicate _ 0, List.length_replicate⟩
  have limit := handOver_fits (by omega) ((objects_kept_iff _).mp
    (h [.bind true 4 content, .transDataOwnership 0]).1)
  omega

end DriversFramework.SbufRaw
