import Mathlib.Data.UInt
import DriversFramework.RunRules
import DriversFramework.StreamRing

/-! `audio_platform_base.c`: the configuration of the ring, `AudioPcmWrite` and the memory-mapped
write, between which the DMA plays what was written. The ring has been allocated and the stream
type is render. -/
namespace DriversFramework.AudioRenderRing

inductive PcmStatus where
 | stop
 | pause
 | start
 deriving DecidableEq

inductive CriBuffStatus where
 | normal
 | full
 deriving DecidableEq

/-- A copy into the ring. `unread` has the places of the bytes that were written before it and
that the DMA pointer had not passed. -/
structure Copy where
 start : ℕ
 size : ℕ
 unread : List ℕ

structure MmapLoop where
 memory : ℕ → UInt8
 loopTimes : UInt32
 lastBuffSize : UInt32
 timeout : UInt32 := 0

/-- `struct PlatformData`, and what has happened to the ring: the bytes written with their
places, the copies that wrote them, and the bytes the DMA pointer has passed. -/
structure State where
 frameSize : UInt32
 bitWidth : ℕ
 isBigEndian : Bool
 runStatus : PcmStatus := .stop
 cirBufSize : UInt32 := 0
 trafBufSize : UInt32 := 0
 period : UInt32 := 0
 periodSize : UInt32 := 0
 periodCount : UInt32 := 0
 wbufOffSet : UInt32 := 0
 wptrOffSet : UInt32 := 0
 framesPosition : UInt32 := 0
 mmapOffset : UInt32 := 0
 mmapLoopCount : UInt32 := 0
 loop : Option MmapLoop := none
 ring : ℕ → UInt8 := fun _ => 0
 written : ℕ := 0
 stream : List UInt8 := []
 places : List ℕ := []
 copies : List Copy := []
 passed : ℕ := 0
 heard : List UInt8 := []

structure AudioPcmHwParams where
 period : UInt32
 periodSize : UInt32
 periodCount : UInt32

/-- `AudioSetRenderBufInfo`, where it succeeds -/
def audioSetRenderBufInfo (s : State) (param : AudioPcmHwParams) : Option State :=
 let size := param.periodCount * param.periodSize
 if param.periodSize < 4096 ∨ 16384 < param.periodSize then none
 else if param.periodCount < 4 ∨ 32 < param.periodCount then none
 else if size < 16384 ∨ 65536 < size then none
 else some { s with
  period := param.period
  periodSize := param.periodSize
  periodCount := param.periodCount
  trafBufSize := 1024
  cirBufSize := size }

/-- `AudioRenderPrepare`; nothing has been written since. -/
def audioRenderPrepare (s : State) : State :=
 { s with
  wbufOffSet := 0
  wptrOffSet := 0
  framesPosition := 0
  loop := none
  ring := fun _ => 0
  written := 0
  stream := []
  places := []
  copies := []
  passed := 0
  heard := [] }

def swap (mem : ℕ → UInt8) (i j a : ℕ) : UInt8 :=
 if a = i then mem j else if a = j then mem i else mem a

def audioDataBigEndianChange (srcData : ℕ → UInt8) (audioLen bitWidth : ℕ) : ℕ → UInt8 :=
 if bitWidth = 8 then srcData
 else if bitWidth = 24 then
  (List.range ((audioLen + 2) / 3)).foldl (fun mem i => swap mem (3 * i) (3 * i + 2)) srcData
 else
  (List.range ((audioLen + 3) / 4)).foldl
   (fun mem i => swap (swap mem (4 * i) (4 * i + 1)) (4 * i + 2) (4 * i + 3)) srcData

def residual (s : State) (pointer : UInt32) : UInt32 :=
 s.cirBufSize - (s.wbufOffSet - pointer * s.frameSize) % s.cirBufSize

/-- `AudioDmaBuffStatus`; `pointer` is what `AudioPcmPointer` gives, in frames. -/
def audioDmaBuffStatus (s : State) : Option UInt32 → CriBuffStatus
 | none => .full
 | some pointer => if s.trafBufSize < residual s pointer then .normal else .full

/-- `memcpy_s` of `trafBufSize` bytes into the ring; it refuses a destination of no bytes. -/
def copyIn (s : State) (wPtr : ℕ) (buf : ℕ → UInt8) : Option State :=
 let size := s.trafBufSize.toNat
 if size = 0 then none
 else some { s with
  ring := StreamRing.put s.ring wPtr ((List.range size).map buf)
  written := s.written + size
  stream := s.stream ++ (List.range size).map buf
  places := s.places ++ List.range' wPtr size
  copies := s.copies ++ [⟨wPtr, size, s.places.drop s.passed⟩] }

def audioPcmWrite (s : State) (frames : UInt64) (buf : ℕ → UInt8) (pointer : Option UInt32) :
  State :=
 let s := { s with trafBufSize := (frames * s.frameSize.toUInt64).toUInt32 }
 let buf :=
  if s.isBigEndian then audioDataBigEndianChange buf s.trafBufSize.toNat s.bitWidth else buf
 match audioDmaBuffStatus s pointer with
 | .full => s
 | .normal =>
  if s.cirBufSize < s.trafBufSize then s
  else
   let wPtr := s.wbufOffSet % s.cirBufSize
   match copyIn s wPtr.toNat buf with
   | none => s
   | some t =>
    { t with
     wptrOffSet := wPtr + s.trafBufSize
     wbufOffSet := s.wbufOffSet + s.trafBufSize }

/-- `MmapWriteData`; `copied` says whether `CopyFromUser` succeeds. -/
def mmapWriteData (s : State) (memory : ℕ → UInt8) (copied : Bool) : Option State :=
 if s.cirBufSize < s.trafBufSize then none
 else if copied = false then none
 else
  let wPtr := s.wbufOffSet % s.cirBufSize
  (copyIn s wPtr.toNat fun k => memory (s.mmapOffset.toNat + k)).map fun t =>
   { t with
    wptrOffSet := wPtr + s.trafBufSize
    wbufOffSet := s.wbufOffSet + s.trafBufSize
    framesPosition := s.framesPosition + s.trafBufSize / s.frameSize
    mmapOffset := s.mmapOffset + s.trafBufSize
    mmapLoopCount := s.mmapLoopCount + 1 }

structure AudioMmapData where
 memoryAddress : ℕ → UInt8
 offset : UInt32
 totalBufferFrames : Int32
 transferFrameSize : Int32

/-- `AudioPcmMmapWrite` up to the loop of `AudioMmapWriteTransfer` -/
def audioPcmMmapWrite (s : State) (txMmapData : AudioMmapData) : State :=
 if txMmapData.transferFrameSize ≤ 0 ∨ txMmapData.totalBufferFrames ≤ 0 then s
 else
  let totalSize := txMmapData.totalBufferFrames.toUInt32 * s.frameSize
  let lastBuffSize := if totalSize % 4096 = 0 then 4096 else totalSize % 4096
  let loopTimes := if lastBuffSize = 4096 then totalSize / 4096 else totalSize / 4096 + 1
  { s with
   mmapOffset := txMmapData.offset
   mmapLoopCount := 0
   loop := some { memory := txMmapData.memoryAddress, loopTimes, lastBuffSize } }

def MmapLoop.nextSize (l : MmapLoop) (loopCount : UInt32) : UInt32 :=
 if loopCount < l.loopTimes - 1 then 4096 else l.lastBuffSize

def mmapTurn (s : State) (l : MmapLoop) (pointer : Option UInt32) (copied : Bool) : State :=
 if s.mmapLoopCount < l.loopTimes ∧ s.runStatus ≠ .stop then
  if s.runStatus = .pause then s
  else
   match audioDmaBuffStatus s pointer with
   | .full =>
    if 50 ≤ l.timeout + 1 then { s with loop := none }
    else { s with loop := some { l with timeout := l.timeout + 1 } }
   | .normal =>
    let s :=
     { s with
      loop := some { l with timeout := 0 }
      trafBufSize := l.nextSize s.mmapLoopCount }
    match mmapWriteData s l.memory copied with
    | none => { s with loop := none }
    | some t => t
 else if l.loopTimes < s.mmapLoopCount then { s with runStatus := .stop, loop := none }
 else { s with loop := none }

inductive Action where
 | dma (n : ℕ)
 | trigger (status : PcmStatus)
 | pcmWrite (frames : UInt64) (buf : ℕ → UInt8) (pointer : Option UInt32)
 | mmapWrite (txMmapData : AudioMmapData)
 | mmapTurn (pointer : Option UInt32) (copied : Bool)

/-- `pointer` is where the DMA is, in frames: in the ring or since the start. -/
def Shows (s : State) (pointer : Option UInt32) : Prop :=
 ∀ p ∈ pointer, p.toNat * s.frameSize.toNat ≤ s.passed ∧
  p.toNat * s.frameSize.toNat % s.cirBufSize.toNat = s.passed % s.cirBufSize.toNat

instance (s : State) (pointer : Option UInt32) : Decidable (Shows s pointer) :=
 Option.decidableForallMem pointer

/-- A step of the writer or of the DMA, which only advances over bytes already written. Writes are
made one after the other. -/
def step (s : State) : Action → Option State
 | .dma n =>
  if s.passed + n ≤ s.written then
   some { s with
    passed := s.passed + n
    heard := s.heard ++ StreamRing.read s.ring s.cirBufSize.toNat s.passed n }
  else none
 | .trigger status => some { s with runStatus := status }
 | .pcmWrite frames buf pointer =>
  if s.loop.isNone ∧ Shows s pointer then some (audioPcmWrite s frames buf pointer) else none
 | .mmapWrite txMmapData =>
  if s.loop.isNone then some (audioPcmMmapWrite s txMmapData) else none
 | .mmapTurn pointer copied =>
  if Shows s pointer then s.loop.map fun l => mmapTurn s l pointer copied else none

def Copy.Inside (c : Copy) (cirBufSize : ℕ) : Prop := c.start + c.size ≤ cirBufSize

/-- No byte is overwritten before the DMA pointer has passed it. -/
def Copy.Spares (c : Copy) : Prop := ∀ p ∈ c.unread, p < c.start ∨ c.start + c.size ≤ p

/-- Every copy was right, and the bytes have passed the DMA pointer as they were written. -/
structure Sound (s : State) : Prop where
 inside : ∀ c ∈ s.copies, c.Inside s.cirBufSize.toNat
 spares : ∀ c ∈ s.copies, c.Spares
 inOrder : s.heard = s.stream.take s.passed

def copySize (s : State) : Action → Option UInt32
 | .pcmWrite frames _ pointer =>
  let size := (frames * s.frameSize.toUInt64).toUInt32
  if audioDmaBuffStatus { s with trafBufSize := size } pointer = .normal ∧
    size ≤ s.cirBufSize ∧ size ≠ 0 then some size
  else none
 | .mmapTurn pointer copied =>
  s.loop.bind fun l =>
   let size := l.nextSize s.mmapLoopCount
   if s.mmapLoopCount < l.loopTimes ∧ s.runStatus = .start ∧
     audioDmaBuffStatus s pointer = .normal ∧ size ≤ s.cirBufSize ∧ copied = true ∧
     size ≠ 0 then some size
   else none
 | _ => none

def Action.pointer : Action → Option UInt32
 | .pcmWrite _ _ pointer => pointer
 | .mmapTurn pointer _ => pointer
 | _ => none

/-- A step that comes to a copy ends it before the end of the ring, has more space than the copy
takes, and has not written so much that the write offset has wrapped, unless the ring divides its
range. -/
def Meets (s : State) (a : Action) : Prop :=
 ∀ size ∈ copySize s a, ∀ p ∈ a.pointer,
  (s.wbufOffSet % s.cirBufSize).toNat + size.toNat ≤ s.cirBufSize.toNat ∧
  size < residual s p ∧
  (s.written < 2 ^ 32 ∨ s.cirBufSize.toNat ∣ 2 ^ 32)

/-- `t` is `s` but for what only the control of the writes uses. -/
def Quiet (s t : State) : Prop :=
 ∃ runStatus trafBufSize wptrOffSet framesPosition mmapOffset mmapLoopCount loop,
  t = { s with runStatus, trafBufSize, wptrOffSet, framesPosition, mmapOffset, mmapLoopCount,
               loop }

def State.wrote (s : State) (size : UInt32) (buf : ℕ → UInt8) : State :=
 { s with
  ring := StreamRing.put s.ring (s.wbufOffSet % s.cirBufSize).toNat
   ((List.range size.toNat).map buf)
  written := s.written + size.toNat
  stream := s.stream ++ (List.range size.toNat).map buf
  places := s.places ++ List.range' (s.wbufOffSet % s.cirBufSize).toNat size.toNat
  copies := s.copies ++
   [⟨(s.wbufOffSet % s.cirBufSize).toNat, size.toNat, s.places.drop s.passed⟩]
  wbufOffSet := s.wbufOffSet + size }

theorem Quiet.refl (s : State) : Quiet s s := ⟨_, _, _, _, _, _, _, rfl⟩

theorem ne_zero_of_toNat {n : UInt32} (h : ¬ n.toNat = 0) : n ≠ 0 := by
 rintro rfl
 exact h rfl

theorem audioPcmWrite_cases (s : State) (frames : UInt64) (buf : ℕ → UInt8)
  (pointer : Option UInt32) :
  Quiet s (audioPcmWrite s frames buf pointer) ∨
  ∃ size data, copySize s (.pcmWrite frames buf pointer) = some size ∧
   Quiet (s.wrote size data) (audioPcmWrite s frames buf pointer) := by
 unfold audioPcmWrite
 cases hstatus : audioDmaBuffStatus
  { s with trafBufSize := (frames * s.frameSize.toUInt64).toUInt32 } pointer with
 | full =>
  simp only [hstatus]
  exact .inl ⟨_, _, _, _, _, _, _, rfl⟩
 | normal =>
  simp only [hstatus]
  split
  · exact .inl ⟨_, _, _, _, _, _, _, rfl⟩
  · next hbig =>
    split
    · exact .inl ⟨_, _, _, _, _, _, _, rfl⟩
    · next t hcopy =>
      unfold copyIn at hcopy
      obtain ⟨hzero, ⟨⟩⟩ := Option.ite_none_left_eq_some.mp hcopy
      exact .inr ⟨(frames * s.frameSize.toUInt64).toUInt32, _,
       if_pos ⟨hstatus, UInt32.not_lt.mp hbig, ne_zero_of_toNat hzero⟩,
       ⟨_, _, _, _, _, _, _, rfl⟩⟩

theorem mmapTurn_cases (s : State) (l : MmapLoop) (hl : s.loop = some l)
  (pointer : Option UInt32) (copied : Bool) :
  Quiet s (mmapTurn s l pointer copied) ∨
  ∃ size data, copySize s (.mmapTurn pointer copied) = some size ∧
   Quiet (s.wrote size data) (mmapTurn s l pointer copied) := by
 unfold mmapTurn
 split
 · next hbusy =>
   split
   · exact .inl (Quiet.refl s)
   · next hpause =>
     have hstart : s.runStatus = .start := by
      cases hrun : s.runStatus with
      | stop => exact absurd hrun hbusy.2
      | pause => exact absurd hrun hpause
      | start => rfl
     split
     · split
       · exact .inl ⟨_, _, _, _, _, _, _, rfl⟩
       · exact .inl ⟨_, _, _, _, _, _, _, rfl⟩
     · next hstatus =>
       simp only
       split
       · exact .inl ⟨_, _, _, _, _, _, _, rfl⟩
       · next t hwrite =>
         unfold mmapWriteData at hwrite
         obtain ⟨hbig, hwrite⟩ := Option.ite_none_left_eq_some.mp hwrite
         obtain ⟨hcopied, hwrite⟩ := Option.ite_none_left_eq_some.mp hwrite
         obtain ⟨u, hcopy, rfl⟩ := Option.map_eq_some_iff.mp hwrite
         unfold copyIn at hcopy
         obtain ⟨hzero, ⟨⟩⟩ := Option.ite_none_left_eq_some.mp hcopy
         refine .inr ⟨l.nextSize s.mmapLoopCount, _, ?_, ⟨_, _, _, _, _, _, _, rfl⟩⟩
         simp only [copySize, hl, Option.bind_some]
         exact if_pos ⟨hbusy.1, hstart, hstatus, UInt32.not_lt.mp hbig,
          Bool.eq_true_of_not_eq_false hcopied, ne_zero_of_toNat hzero⟩
 · split
   · exact .inl ⟨_, _, _, _, _, _, _, rfl⟩
   · exact .inl ⟨_, _, _, _, _, _, _, rfl⟩

theorem audioPcmMmapWrite_quiet (s : State) (txMmapData : AudioMmapData) :
  Quiet s (audioPcmMmapWrite s txMmapData) := by
 unfold audioPcmMmapWrite
 split
 · exact Quiet.refl s
 · exact ⟨_, _, _, _, _, _, _, rfl⟩

variable {s t : State} {a : Action}

theorem pointer_of_copySize {size : UInt32}
  (h : copySize s a = some size) : ∃ p, a.pointer = some p := by
 cases a with
 | pcmWrite frames buf pointer =>
  cases pointer with
  | none => simp [copySize, audioDmaBuffStatus] at h
  | some p => exact ⟨p, rfl⟩
 | mmapTurn pointer copied =>
  cases pointer with
  | none =>
   obtain ⟨l, -, h⟩ := Option.bind_eq_some_iff.mp h
   simp [audioDmaBuffStatus] at h
  | some p => exact ⟨p, rfl⟩
 | _ => cases h

theorem step_cases (h : step s a = some t) :
  Quiet s t ∨
  (∃ n, s.passed + n ≤ s.written ∧ t = { s with
   passed := s.passed + n
   heard := s.heard ++ StreamRing.read s.ring s.cirBufSize.toNat s.passed n }) ∨
  ∃ size p data, copySize s a = some size ∧ a.pointer = some p ∧ Shows s (some p) ∧
   Quiet (s.wrote size data) t := by
 cases a with
 | dma n =>
  obtain ⟨hn, ⟨⟩⟩ := Option.ite_none_right_eq_some.mp h
  exact .inr (.inl ⟨n, hn, rfl⟩)
 | trigger status =>
  cases h
  exact .inl ⟨_, _, _, _, _, _, _, rfl⟩
 | pcmWrite frames buf pointer =>
  obtain ⟨⟨-, hshows⟩, ⟨⟩⟩ := Option.ite_none_right_eq_some.mp h
  rcases audioPcmWrite_cases s frames buf pointer with hq | ⟨size, data, hsize, hq⟩
  · exact .inl hq
  · obtain ⟨p, hp⟩ := pointer_of_copySize hsize
    obtain rfl : pointer = some p := hp
    exact .inr (.inr ⟨size, p, data, hsize, rfl, hshows, hq⟩)
 | mmapWrite txMmapData =>
  obtain ⟨-, ⟨⟩⟩ := Option.ite_none_right_eq_some.mp h
  exact .inl (audioPcmMmapWrite_quiet s txMmapData)
 | mmapTurn pointer copied =>
  obtain ⟨hshows, hmap⟩ := Option.ite_none_right_eq_some.mp h
  obtain ⟨l, hl, rfl⟩ := Option.map_eq_some_iff.mp hmap
  rcases mmapTurn_cases s l hl pointer copied with hq | ⟨size, data, hsize, hq⟩
  · exact .inl hq
  · obtain ⟨p, hp⟩ := pointer_of_copySize hsize
    obtain rfl : pointer = some p := hp
    exact .inr (.inr ⟨size, p, data, hsize, rfl, hshows, hq⟩)

structure Inv (s : State) : Prop where
 size_pos : 0 < s.cirBufSize.toNat
 offset : s.wbufOffSet.toNat = s.written % 2 ^ 32
 length : s.stream.length = s.written
 places : s.places = (List.range s.written).map (· % s.cirBufSize.toNat)
 passed_le : s.passed ≤ s.written
 room : s.written < s.passed + s.cirBufSize.toNat
 keeps : StreamRing.Keeps s.ring s.cirBufSize.toNat s.stream s.passed
 sound : Sound s

theorem Inv.quiet (h : Inv s) (hq : Quiet s t) : Inv t := by
 obtain ⟨_, _, _, _, _, _, _, rfl⟩ := hq
 exact ⟨h.size_pos, h.offset, h.length, h.places, h.passed_le, h.room, h.keeps,
  ⟨h.sound.inside, h.sound.spares, h.sound.inOrder⟩⟩

theorem Inv.dma (h : Inv s) {n : ℕ} (hn : s.passed + n ≤ s.written) :
  Inv { s with
   passed := s.passed + n
   heard := s.heard ++ StreamRing.read s.ring s.cirBufSize.toNat s.passed n } where
 size_pos := h.size_pos
 offset := h.offset
 length := h.length
 places := h.places
 passed_le := hn
 room := by
  have := h.room
  simp only
  omega
 keeps := h.keeps.mono (Nat.le_add_right _ _)
 sound :=
  { inside := h.sound.inside
    spares := h.sound.spares
    inOrder := by
     simp only
     rw [h.sound.inOrder, h.keeps.read (by rw [h.length]; exact hn)] }

theorem wrapped_mod {c n : ℕ} (h : n < 2 ^ 32 ∨ c ∣ 2 ^ 32) : n % 2 ^ 32 % c = n % c := by
 rcases h with hlt | hdvd
 · rw [Nat.mod_eq_of_lt hlt]
 · exact Nat.mod_mod_of_dvd n hdvd

theorem distance_mod {c w r p : ℕ} (hw : w < 2 ^ 32 ∨ c ∣ 2 ^ 32) (hr : r ≤ p)
  (hmod : r % c = p % c) (hp : p ≤ w) (hroom : w < p + c) :
  (2 ^ 32 - r % 2 ^ 32 + w % 2 ^ 32) % 2 ^ 32 % c = w - p := by
 have hwmod : w % 2 ^ 32 % c = w % c := wrapped_mod hw
 have hrmod : r % 2 ^ 32 % c = p % c := by
  rw [← hmod]
  exact wrapped_mod (hw.imp_left fun h => by omega)
 have hkey : (2 ^ 32 - r % 2 ^ 32 + w % 2 ^ 32) % 2 ^ 32 + r % 2 ^ 32 ≡ w [MOD c] := by
  rcases hw with hlt | hdvd
  · have : (2 ^ 32 - r % 2 ^ 32 + w % 2 ^ 32) % 2 ^ 32 + r % 2 ^ 32 = w := by omega
    rw [this]
  · have hsum : 2 ^ 32 - r % 2 ^ 32 + w % 2 ^ 32 + r % 2 ^ 32 = 2 ^ 32 + w % 2 ^ 32 := by
     have := Nat.mod_lt r (show 0 < 2 ^ 32 by decide)
     omega
    calc (2 ^ 32 - r % 2 ^ 32 + w % 2 ^ 32) % 2 ^ 32 + r % 2 ^ 32
      ≡ 2 ^ 32 - r % 2 ^ 32 + w % 2 ^ 32 + r % 2 ^ 32 [MOD c] :=
       Nat.ModEq.add_right _ (Nat.mod_mod_of_dvd _ hdvd)
     _ = 2 ^ 32 + w % 2 ^ 32 := hsum
     _ ≡ 0 + w [MOD c] :=
       Nat.ModEq.add ((Nat.modEq_zero_iff_dvd).mpr hdvd) hwmod
     _ = w := Nat.zero_add w
 have hcancel : (2 ^ 32 - r % 2 ^ 32 + w % 2 ^ 32) % 2 ^ 32 ≡ w - p [MOD c] := by
  refine Nat.ModEq.add_right_cancel hrmod ?_
  rw [Nat.sub_add_cancel hp]
  exact hkey
 exact Eq.trans hcancel (Nat.mod_eq_of_lt (by omega))

theorem Inv.residual_eq (h : Inv s) {p : UInt32} (hp : Shows s (some p))
  (hw : s.written < 2 ^ 32 ∨ s.cirBufSize.toNat ∣ 2 ^ 32) :
  (residual s p).toNat = s.cirBufSize.toNat - (s.written - s.passed) := by
 obtain ⟨hle, hmod⟩ := hp p rfl
 have hdist := distance_mod hw hle hmod h.passed_le h.room
 have hused : ((s.wbufOffSet - p * s.frameSize) % s.cirBufSize).toNat = s.written - s.passed := by
  rw [UInt32.toNat_mod, UInt32.toNat_sub, UInt32.toNat_mul, h.offset]
  exact hdist
 have hfits : (s.wbufOffSet - p * s.frameSize) % s.cirBufSize ≤ s.cirBufSize := by
  rw [UInt32.le_iff_toNat_le, hused]
  have := h.room
  have := h.passed_le
  omega
 unfold residual
 rw [UInt32.toNat_sub_of_le _ _ hfits, hused]

theorem Inv.wptr_eq (h : Inv s)
  (hw : s.written < 2 ^ 32 ∨ s.cirBufSize.toNat ∣ 2 ^ 32) :
  (s.wbufOffSet % s.cirBufSize).toNat = s.written % s.cirBufSize.toNat := by
 rw [UInt32.toNat_mod, h.offset, wrapped_mod hw]

theorem places_append {c n : ℕ} (w : ℕ) (hend : w % c + n ≤ c) :
  (List.range w).map (· % c) ++ List.range' (w % c) n = (List.range (w + n)).map (· % c) := by
 rw [List.range_add, List.map_append, List.map_map, List.range'_eq_map_range]
 congr 1
 apply List.map_congr_left
 intro k hk
 rw [List.mem_range] at hk
 exact (StreamRing.place_add (by omega)).symm

theorem Inv.spares (h : Inv s) {n : ℕ}
  (hend : s.written % s.cirBufSize.toNat + n ≤ s.cirBufSize.toNat)
  (hroom : s.written + n ≤ s.passed + s.cirBufSize.toNat) :
  Copy.Spares ⟨s.written % s.cirBufSize.toNat, n, s.places.drop s.passed⟩ := by
 intro q hq
 rw [h.places] at hq
 obtain ⟨i, hi, rfl⟩ := List.getElem_of_mem hq
 simp only [List.length_drop, List.length_map, List.length_range] at hi
 simp only [List.getElem_drop, List.getElem_map, List.getElem_range]
 exact StreamRing.place_outside hend hroom (Nat.le_add_right _ _) (by omega)

theorem Inv.wrote (h : Inv s) {p size : UInt32} (hp : Shows s (some p))
  (hend : (s.wbufOffSet % s.cirBufSize).toNat + size.toNat ≤ s.cirBufSize.toNat)
  (hfree : size < residual s p)
  (hw : s.written < 2 ^ 32 ∨ s.cirBufSize.toNat ∣ 2 ^ 32) (data : ℕ → UInt8) :
  Inv (s.wrote size data) := by
 have hroom : s.written + size.toNat < s.passed + s.cirBufSize.toNat := by
  have hlt := UInt32.lt_iff_toNat_lt.mp hfree
  rw [h.residual_eq hp hw] at hlt
  have := h.passed_le
  omega
 have hpassed := h.passed_le
 unfold State.wrote
 rw [h.wptr_eq hw] at hend ⊢
 constructor
 case size_pos => exact h.size_pos
 case offset =>
  simp only
  rw [UInt32.toNat_add, h.offset]
  omega
 case length => simp [h.length]
 case places =>
  simp only
  rw [h.places, places_append _ hend]
 case passed_le => exact hpassed.trans (Nat.le_add_right _ _)
 case room => exact hroom
 case keeps =>
  have := h.keeps.put ((List.range size.toNat).map data)
  simp only [h.length, List.length_map, List.length_range] at this
  exact this hend hroom.le
 case sound =>
  constructor
  · intro c hc
    rcases List.mem_append.mp hc with hc | hc
    · exact h.sound.inside c hc
    · obtain rfl := List.mem_singleton.mp hc
      exact hend
  · intro c hc
    rcases List.mem_append.mp hc with hc | hc
    · exact h.sound.spares c hc
    · obtain rfl := List.mem_singleton.mp hc
      exact h.spares hend hroom.le
  · simp only
    rw [List.take_append_of_le_length (by rw [h.length]; exact hpassed)]
    exact h.sound.inOrder

theorem Inv.step (h : Inv s) (hm : Meets s a)
  (hstep : AudioRenderRing.step s a = some t) : Inv t := by
 rcases step_cases hstep with hq | ⟨n, hn, rfl⟩ | ⟨size, p, data, hsize, hp, hshows, hq⟩
 · exact h.quiet hq
 · exact h.dma hn
 · obtain ⟨hend, hfree, hw⟩ := hm size hsize p hp
   exact (h.wrote hshows hend hfree hw data).quiet hq

theorem cirBufSize_pos {param : AudioPcmHwParams}
  (h : audioSetRenderBufInfo s param = some t) : 0 < t.cirBufSize.toNat := by
 unfold audioSetRenderBufInfo at h
 obtain ⟨-, h⟩ := Option.ite_none_left_eq_some.mp h
 obtain ⟨-, h⟩ := Option.ite_none_left_eq_some.mp h
 obtain ⟨hsize, ⟨⟩⟩ := Option.ite_none_left_eq_some.mp h
 have hmin := UInt32.le_iff_toNat_le.mp (UInt32.not_lt.mp (not_or.mp hsize).1)
 exact Nat.lt_of_lt_of_le (by decide) hmin

theorem inv_prepare (h : 0 < s.cirBufSize.toNat) : Inv (audioRenderPrepare s) where
 size_pos := h
 offset := rfl
 length := rfl
 places := rfl
 passed_le := Nat.le_refl _
 room := by simpa [audioRenderPrepare] using h
 keeps := by
  intro i _ hi
  cases hi
 sound := ⟨by simp [audioRenderPrepare], by simp [audioRenderPrepare], rfl⟩

/-- In a run whose steps all meet the condition, every copy stays in the ring and overwrites
nothing unread, and the bytes pass the DMA pointer in the order they were written. -/
theorem ring_sound_of_meets (s s' : State) (param : AudioPcmHwParams)
    (hset : audioSetRenderBufInfo s param = some s') (as : List Action) (t : State)
    (hrun : RunRules.exec step (audioRenderPrepare s') as = some t)
    (hmeets : RunRules.Along step Meets (audioRenderPrepare s') as) : Sound t := by
  have hinv : Inv t :=
    RunRules.along_invariant (fun _ _ _ h hm hstep => h.step hm hstep) _ t as
      (inv_prepare (cirBufSize_pos hset)) hmeets hrun
  exact hinv.sound

instance (s : State) (a : Action) : Decidable (Meets s a) :=
 @Option.decidableForallMem _ _ (fun _ => Option.decidableForallMem a.pointer) (copySize s a)

/-- A stream of two channels with 16 bits, in a ring of 16 KiB -/
def stereo : State :=
 { frameSize := 4, bitWidth := 16, isBigEndian := false, trafBufSize := 1024,
   periodSize := 4096, periodCount := 4, cirBufSize := 16384 }

theorem ring_sound_of_meets_stereo :
    Sound (audioPcmWrite (audioRenderPrepare stereo) 256 (fun _ => 1) (some 0)) :=
  ring_sound_of_meets stereo stereo ⟨0, 4096, 4⟩ rfl
    [.pcmWrite 256 (fun _ => 1) (some 0)] _ (by rfl)
    ((RunRules.along_cons _ _ _).mpr ⟨by decide +kernel, fun _ _ => RunRules.along_nil _⟩)

/-- Two writes of 3000 frames that the DMA keeps up with: the second one goes past the end. -/
theorem pcmWrite_past_end :
    ¬ ∀ (s s' : State) (param : AudioPcmHwParams), audioSetRenderBufInfo s param = some s' →
      ∀ (as : List Action) (t : State),
        RunRules.exec step (audioRenderPrepare s') as = some t → Sound t := by
  intro h
  have hrun : ((RunRules.exec step (audioRenderPrepare stereo)
      [.pcmWrite 3000 (fun _ => 1) (some 0), .dma 12000,
        .pcmWrite 3000 (fun _ => 1) (some 3000)]).map fun t =>
      t.copies.all fun c => decide (c.start + c.size ≤ t.cirBufSize.toNat)) = some false := by
    decide +kernel
  obtain ⟨t, ht, hout⟩ := Option.map_eq_some_iff.mp hrun
  have hin := (h stereo stereo ⟨0, 4096, 4⟩ rfl _ t ht).inside
  rw [List.all_eq_false] at hout
  obtain ⟨c, hc, hout⟩ := hout
  exact hout (decide_eq_true (hin c hc))

end DriversFramework.AudioRenderRing
