import DriversFramework.AudioRenderRing

/-! `audio_platform_base.c`: the configuration of the ring, `AudioPcmRead` and the memory-mapped
read, while the DMA goes on capturing. The ring has been allocated and the stream type is capture.
-/
namespace DriversFramework.AudioCaptureRing

open AudioRenderRing (PcmStatus audioDataBigEndianChange)

inductive CriBuffStatus where
 | normal
 | full
 | empty
 deriving DecidableEq

structure MmapLoop where
 offset : UInt32 := 0
 totalSize : UInt32
 timeout : UInt32 := 0

/-- `struct PlatformData`, and what has happened: the bytes the DMA has captured, the bytes handed
to the client, and the sizes of the client's memory and of what was copied into it by the last
memory-mapped read. -/
structure State where
 frameSize : UInt32
 bitWidth : ℕ
 isBigEndian : Bool
 cirBufMax : UInt32
 runStatus : PcmStatus := .stop
 cirBufSize : UInt32 := 0
 trafBufSize : UInt32 := 0
 curTrafSize : UInt32 := 0
 period : UInt32 := 0
 periodSize : UInt32 := 0
 periodCount : UInt32 := 0
 rptrOffSet : UInt32 := 0
 pointer : UInt32 := 0
 framesPosition : UInt32 := 0
 loop : Option MmapLoop := none
 ring : ℕ → UInt8 := fun _ => 0
 captured : List UInt8 := []
 handed : List UInt8 := []
 bufferSize : ℕ := 0
 bufferFilled : ℕ := 0

structure AudioPcmHwParams where
 period : UInt32
 periodSize : UInt32
 periodCount : UInt32
 silenceThreshold : UInt32

/-- `AudioSetCaptureBufInfo`, where it succeeds -/
def audioSetCaptureBufInfo (s : State) (param : AudioPcmHwParams) : Option State :=
 if param.periodSize < 4096 ∨ 16384 < param.periodSize then none
 else if param.periodCount < 4 ∨ 32 < param.periodCount then none
 else if param.silenceThreshold < 4096 ∨ 16384 < param.silenceThreshold then none
 else if s.cirBufMax < param.periodSize * param.periodCount then none
 else some { s with
  period := param.period
  periodSize := param.periodSize
  periodCount := param.periodCount
  trafBufSize := param.silenceThreshold
  cirBufSize := param.periodSize * param.periodCount }

/-- `AudioCapturePrepare`; nothing has been captured since. -/
def audioCapturePrepare (s : State) : State :=
 { s with
  rptrOffSet := 0
  framesPosition := 0
  pointer := 0
  loop := none
  ring := fun _ => 0
  captured := []
  handed := []
  bufferSize := 0
  bufferFilled := 0 }

/-- `AudioDmaBuffStatus`; `pointer` is what `AudioPcmPointer` gives, in frames. -/
def audioDmaBuffStatus (s : State) : Option UInt32 → State × CriBuffStatus
 | none => (s, .full)
 | some pointer =>
  let s := { s with pointer }
  let wptr := pointer * s.frameSize
  if s.rptrOffSet ≤ wptr ∧ wptr - s.rptrOffSet < s.trafBufSize then (s, .empty)
  else (s, .normal)

def transferSize (s : State) (curTrafSize : UInt32) : UInt32 :=
 if s.pointer * s.frameSize < s.rptrOffSet then
  if s.cirBufSize - s.rptrOffSet < s.trafBufSize then s.cirBufSize - s.rptrOffSet
  else curTrafSize
 else curTrafSize

/-- The ring after the byte order of `size` bytes from the read offset on was changed in place -/
def changed (s : State) (size : ℕ) (a : ℕ) : UInt8 :=
 if s.isBigEndian ∨ a < s.rptrOffSet.toNat then s.ring a
 else
  audioDataBigEndianChange (fun k => s.ring (s.rptrOffSet.toNat + k)) size s.bitWidth
   (a - s.rptrOffSet.toNat)

def nextRptrOffSet (s : State) (size : UInt32) : UInt32 :=
 if s.cirBufSize ≤ s.rptrOffSet + size then 0 else s.rptrOffSet + size

def State.transferred (s : State) (size : UInt32) : State :=
 { s with
  curTrafSize := size
  ring := changed s size.toNat
  rptrOffSet := nextRptrOffSet s size
  handed := s.handed ++
   (List.range size.toNat).map fun k => changed s size.toNat (s.rptrOffSet.toNat + k) }

def audioPcmRead (s : State) (pointer : Option UInt32) : State :=
 match audioDmaBuffStatus s pointer with
 | (s, .normal) => s.transferred (transferSize s s.trafBufSize)
 | (s, _) => s

/-- `MmapReadData`; `copied` says whether `CopyToUser` succeeds. -/
def mmapReadData (s : State) (copied : Bool) : State × Bool :=
 let size := transferSize s s.curTrafSize
 if copied then
  ({ s.transferred size with
   framesPosition := s.framesPosition + size / s.frameSize
   bufferFilled := s.bufferFilled + size.toNat }, true)
 else ({ s with curTrafSize := size, ring := changed s size.toNat }, false)

/-- `AudioPcmMmapRead` up to the loop of `AudioMmapReadTransfer` -/
def audioPcmMmapRead (s : State) (totalBufferFrames : Int32) : State :=
 if totalBufferFrames ≤ 0 then s
 else
  { s with
   pointer := 0
   curTrafSize := s.trafBufSize
   loop := some { totalSize := totalBufferFrames.toUInt32 * s.frameSize }
   bufferSize := totalBufferFrames.toInt.toNat * s.frameSize.toNat
   bufferFilled := 0 }

def State.again (s : State) (l : MmapLoop) : State :=
 { s with loop := if l.offset < l.totalSize ∧ s.runStatus ≠ .stop then some l else none }

def mmapTurn (s : State) (l : MmapLoop) (pointer : Option UInt32) (copied : Bool) : State :=
 if s.runStatus = .pause then s.again l
 else
  match audioDmaBuffStatus s pointer with
  | (s, .normal) =>
   match mmapReadData s copied with
   | (s, true) => s.again { l with timeout := 0, offset := l.offset + s.curTrafSize }
   | (s, false) => { s with loop := none }
  | (s, _) =>
   if 50 ≤ l.timeout + 1 then { s with loop := none }
   else s.again { l with timeout := l.timeout + 1 }

/-- The ring after the DMA has captured bytes behind the `i` before -/
def capture (cirBufSize : ℕ) : ℕ → (ℕ → UInt8) → List UInt8 → ℕ → UInt8
 | _, ring, [] => ring
 | i, ring, b :: bytes =>
  capture cirBufSize (i + 1) (StreamRing.put ring (i % cirBufSize) [b]) bytes

inductive Action where
 | dma (bytes : List UInt8)
 | trigger (status : PcmStatus)
 | pcmRead (pointer : Option UInt32)
 | mmapRead (totalBufferFrames : Int32)
 | mmapTurn (pointer : Option UInt32) (copied : Bool)

/-- `pointer` is the place of the DMA in the ring, in whole frames. -/
def Shows (s : State) (pointer : Option UInt32) : Prop :=
 ∀ p ∈ pointer, p.toNat = s.captured.length % s.cirBufSize.toNat / s.frameSize.toNat

instance (s : State) (pointer : Option UInt32) : Decidable (Shows s pointer) :=
 Option.decidableForallMem pointer

/-- A step of the reader or of the DMA, which does not overtake the reader. Reads are made one
after the other. -/
def step (s : State) : Action → Option State
 | .dma bytes =>
  if s.captured.length + bytes.length ≤ s.handed.length + s.cirBufSize.toNat then
   some { s with
    ring := capture s.cirBufSize.toNat s.captured.length s.ring bytes
    captured := s.captured ++ bytes }
  else none
 | .trigger status => some { s with runStatus := status }
 | .pcmRead pointer =>
  if s.loop.isNone ∧ Shows s pointer then some (audioPcmRead s pointer) else none
 | .mmapRead totalBufferFrames =>
  if s.loop.isNone then some (audioPcmMmapRead s totalBufferFrames) else none
 | .mmapTurn pointer copied =>
  if Shows s pointer then s.loop.map fun l => mmapTurn s l pointer copied else none

/-- The number of the captured byte that the client gets at place `i`: the bytes of a sample are
in the other order unless the stream is big endian. -/
def sampleByte (s : State) (i : ℕ) : ℕ :=
 if s.isBigEndian ∨ s.bitWidth = 8 then i
 else if s.bitWidth = 24 then 3 * (i / 3) + (2 - i % 3)
 else if i % 2 = 0 then i + 1 else i - 1

/-- The bytes handed to the client are the captured ones in order, each once and none that is not
captured, and no more were copied into its memory than that has place for. -/
structure Sound (s : State) : Prop where
 inOrder : ∀ i b, s.handed[i]? = some b → s.captured[sampleByte s i]? = some b
 captured : s.handed.length ≤ s.captured.length
 fits : s.bufferFilled ≤ s.bufferSize

def fill (s : State) : ℕ := s.captured.length - s.handed.length

/-- The size of the transfer that a step comes to -/
def readSize (s : State) : Action → Option ℕ
 | .pcmRead pointer =>
  match audioDmaBuffStatus s pointer with
  | (s, .normal) => some (transferSize s s.trafBufSize).toNat
  | _ => none
 | .mmapTurn pointer _ =>
  if s.loop.isNone ∨ s.runStatus = .pause then none
  else
   match audioDmaBuffStatus s pointer with
   | (s, .normal) => some (transferSize s s.curTrafSize).toNat
   | _ => none
 | _ => none

def Action.pointer : Action → Option UInt32
 | .pcmRead pointer => pointer
 | .mmapTurn pointer _ => pointer
 | _ => none

def MeetsPointer (s : State) (size : ℕ) (p : UInt32) : Prop :=
 p * s.frameSize < s.rptrOffSet →
  s.captured.length % s.cirBufSize.toNat < s.rptrOffSet.toNat ∨ size ≤ fill s

def MeetsOrder (s : State) (size : ℕ) : Prop :=
 s.isBigEndian = true ∨ s.bitWidth = 8 ∨
  if s.bitWidth = 24 then 3 ∣ size
  else 2 ∣ size ∧ (4 ∣ size ∨ size = fill s ∨ s.rptrOffSet.toNat + size = s.cirBufSize.toNat)

def MeetsCopy (s : State) (size : ℕ) : Action → Prop
 | .mmapTurn _ true => s.bufferFilled + size ≤ s.bufferSize
 | .mmapTurn _ false => s.isBigEndian = true ∨ s.bitWidth = 8
 | _ => True

def Meets (s : State) (a : Action) : Prop :=
 ∀ size ∈ readSize s a, ∀ p ∈ a.pointer,
  MeetsPointer s size p ∧ MeetsOrder s size ∧ MeetsCopy s size a

theorem swap_apply (mem : ℕ → UInt8) (i j a : ℕ) : AudioRenderRing.swap mem i j a =
  if a = i then mem j else if a = j then mem i else mem a := rfl

theorem swap_threes (src : ℕ → UInt8) (q a : ℕ) :
  (List.range q).foldl (fun mem i => AudioRenderRing.swap mem (3 * i) (3 * i + 2)) src a =
   if a < 3 * q then src (3 * (a / 3) + (2 - a % 3)) else src a := by
 induction q generalizing a with
 | zero => rfl
 | succ q ih =>
  rw [List.range_succ, List.foldl_append]
  change AudioRenderRing.swap _ (3 * q) (3 * q + 2) a = _
  rw [swap_apply, ih, ih, ih]
  by_cases first : a = 3 * q
  · rw [if_pos first, if_neg (by omega), if_pos (by omega)]
    congr 1
    omega
  rw [if_neg first]
  by_cases last : a = 3 * q + 2
  · rw [if_pos last, if_neg (by omega), if_pos (by omega)]
    congr 1
    omega
  rw [if_neg last]
  by_cases before : a < 3 * q
  · rw [if_pos before, if_pos (by omega)]
  · rw [if_neg before]
    split
    · congr 1
      omega
    · rfl

theorem swap_four (mem : ℕ → UInt8) (q a : ℕ) :
  AudioRenderRing.swap (AudioRenderRing.swap mem (4 * q) (4 * q + 1)) (4 * q + 2) (4 * q + 3) a =
   if 4 * q ≤ a ∧ a < 4 * (q + 1) then mem (if a % 2 = 0 then a + 1 else a - 1) else mem a := by
 by_cases inside : 4 * q ≤ a ∧ a < 4 * (q + 1)
 · rw [if_pos inside]
   have places : a = 4 * q ∨ a = 4 * q + 1 ∨ a = 4 * q + 2 ∨ a = 4 * q + 3 := by omega
   rcases places with rfl | rfl | rfl | rfl
   · have even : 4 * q % 2 = 0 := by omega
     simp [swap_apply, even]
   · have odd : (4 * q + 1) % 2 = 1 := by omega
     simp [swap_apply, odd]
   · have even : (4 * q + 2) % 2 = 0 := by omega
     simp [swap_apply, even]
   · have odd : (4 * q + 3) % 2 = 1 := by omega
     simp [swap_apply, odd]
 · rw [if_neg inside]
   unfold AudioRenderRing.swap
   rw [if_neg (by omega), if_neg (by omega), if_neg (by omega), if_neg (by omega)]

theorem swap_pairs (src : ℕ → UInt8) (q a : ℕ) :
  (List.range q).foldl (fun mem i => AudioRenderRing.swap
    (AudioRenderRing.swap mem (4 * i) (4 * i + 1)) (4 * i + 2) (4 * i + 3)) src a =
   if a < 4 * q then src (if a % 2 = 0 then a + 1 else a - 1) else src a := by
 induction q generalizing a with
 | zero => rfl
 | succ q ih =>
  rw [List.range_succ, List.foldl_append]
  refine (swap_four _ q a).trans ?_
  by_cases inside : 4 * q ≤ a ∧ a < 4 * (q + 1)
  · rw [if_pos inside, ih, if_neg (by split <;> omega), if_pos inside.2]
  · rw [if_neg inside, ih]
    by_cases before : a < 4 * q
    · rw [if_pos before, if_pos (show a < 4 * (q + 1) by omega)]
    · rw [if_neg before, if_neg (by omega)]

def orderEnd (s : State) (size : ℕ) : ℕ :=
 if s.isBigEndian ∨ s.bitWidth = 8 then size
 else if s.bitWidth = 24 then 3 * ((size + 2) / 3) else 4 * ((size + 3) / 4)

theorem changed_eq (s : State) (size k : ℕ) :
  changed s size (s.rptrOffSet.toNat + k) =
   s.ring (s.rptrOffSet.toNat + if k < orderEnd s size then sampleByte s k else k) := by
 unfold orderEnd sampleByte
 by_cases plain : s.isBigEndian = true ∨ s.bitWidth = 8
 · rw [if_pos plain, if_pos plain, ite_self]
   rcases plain with big | eight
   · exact if_pos (.inl big)
   · unfold changed
     split
     · rfl
     · rw [Nat.add_sub_cancel_left, audioDataBigEndianChange, if_pos eight]
 rw [if_neg plain, if_neg plain]
 obtain ⟨little, wide⟩ := not_or.mp plain
 rw [changed, if_neg (by simp [little]), Nat.add_sub_cancel_left, audioDataBigEndianChange,
  if_neg wide]
 by_cases three : s.bitWidth = 24
 · rw [if_pos three, if_pos three, if_pos three, swap_threes]
   split
   · rfl
   · rfl
 · rw [if_neg three, if_neg three, if_neg three, swap_pairs]
   split
   · rfl
   · rfl

theorem changed_before (s : State) (size a : ℕ) (h : a < s.rptrOffSet.toNat) :
  changed s size a = s.ring a := by
 unfold changed
 rw [if_pos (.inr h)]

theorem changed_after (s : State) (size a : ℕ) (h : s.rptrOffSet.toNat + orderEnd s size ≤ a) :
  changed s size a = s.ring a := by
 obtain ⟨k, rfl⟩ := Nat.exists_eq_add_of_le (Nat.le_of_add_right_le h)
 rw [changed_eq, if_neg (by omega)]

def sampleUnit (s : State) : ℕ :=
 if s.isBigEndian ∨ s.bitWidth = 8 then 1 else if s.bitWidth = 24 then 3 else 2

theorem sampleByte_add (s : State) {i : ℕ} (whole : sampleUnit s ∣ i) (k : ℕ) :
  sampleByte s (i + k) = i + sampleByte s k := by
 unfold sampleUnit at whole
 unfold sampleByte
 split_ifs at whole ⊢ with plain three odd even
 · rfl
 · omega
 all_goals omega

theorem sampleByte_lt (s : State) {size k : ℕ} (whole : sampleUnit s ∣ size) (h : k < size) :
  sampleByte s k < size := by
 unfold sampleUnit at whole
 unfold sampleByte
 split_ifs at whole ⊢
 all_goals omega

structure Inv (s : State) : Prop where
 size_pos : 0 < s.cirBufSize.toNat
 rptr : s.rptrOffSet.toNat = s.handed.length % s.cirBufSize.toNat
 handed_le : s.handed.length ≤ s.captured.length
 room : s.captured.length ≤ s.handed.length + s.cirBufSize.toNat
 keeps : StreamRing.Keeps s.ring s.cirBufSize.toNat s.captured s.handed.length
 inOrder : ∀ i b, s.handed[i]? = some b → s.captured[sampleByte s i]? = some b
 whole : sampleUnit s ∣ s.handed.length

structure Turns (s : State) : Prop where
 cur_le : s.loop.isSome = true → s.curTrafSize.toNat ≤ s.trafBufSize.toNat
 fits : s.bufferFilled ≤ s.bufferSize

/-- `t` is `s` but for what only the control of the reads uses. -/
def Quiet (s t : State) : Prop :=
 ∃ runStatus curTrafSize pointer framesPosition loop bufferSize bufferFilled,
  t = { s with runStatus, curTrafSize, pointer, framesPosition, loop, bufferSize, bufferFilled }

theorem Quiet.refl (s : State) : Quiet s s := ⟨_, _, _, _, _, _, _, rfl⟩

theorem Inv.quiet {s t : State} (h : Inv s) (hq : Quiet s t) : Inv t := by
 obtain ⟨_, _, _, _, _, _, _, rfl⟩ := hq
 exact ⟨h.size_pos, h.rptr, h.handed_le, h.room, h.keeps, h.inOrder, h.whole⟩

theorem keeps_capture {size p : ℕ} (size_pos : 0 < size) (bytes : List UInt8) (ring : ℕ → UInt8)
  (stream : List UInt8) (keeps : StreamRing.Keeps ring size stream p)
  (room : stream.length + bytes.length ≤ p + size) :
  StreamRing.Keeps (capture size stream.length ring bytes) size (stream ++ bytes) p := by
 induction bytes generalizing ring stream with
 | nil =>
  rw [List.append_nil]
  exact keeps
 | cons b bytes ih =>
  rw [List.length_cons] at room
  have place := Nat.mod_lt stream.length size_pos
  have next := keeps.put [b] (by rw [List.length_singleton]; omega)
   (by rw [List.length_singleton]; omega)
  have rest := ih _ (stream ++ [b]) next (by rw [List.length_append, List.length_singleton]; omega)
  rw [List.length_append, List.length_singleton, List.append_assoc] at rest
  exact rest

theorem Inv.dma {s : State} (h : Inv s) (bytes : List UInt8)
  (room : s.captured.length + bytes.length ≤ s.handed.length + s.cirBufSize.toNat) :
  Inv { s with
   ring := capture s.cirBufSize.toNat s.captured.length s.ring bytes
   captured := s.captured ++ bytes } where
 size_pos := h.size_pos
 rptr := h.rptr
 handed_le := by
  have := h.handed_le
  simp only [List.length_append]
  omega
 room := by
  rw [List.length_append]
  exact room
 keeps := keeps_capture h.size_pos bytes s.ring s.captured h.keeps room
 inOrder := by
  intro i b hb
  have old := h.inOrder i b hb
  obtain ⟨lt, -⟩ := List.getElem?_eq_some_iff.mp old
  exact (List.getElem?_append_left lt).trans old
 whole := h.whole

section Transfer

variable {s : State} {size : ℕ}

theorem changed_transfer (s : State) {k : ℕ} (h : k < size) :
  changed s size (s.rptrOffSet.toNat + k) = s.ring (s.rptrOffSet.toNat + sampleByte s k) := by
 rw [changed_eq, if_pos]
 unfold orderEnd
 split_ifs
 · exact h
 · omega
 · omega

theorem MeetsOrder.whole (order : MeetsOrder s size) : sampleUnit s ∣ size := by
 unfold MeetsOrder at order
 unfold sampleUnit
 split_ifs with plain three
 · exact Nat.one_dvd size
 · rcases order with big | eight | order
   · exact absurd (.inl big) plain
   · exact absurd (.inr eight) plain
   · rwa [if_pos three] at order
 · rcases order with big | eight | order
   · exact absurd (.inl big) plain
   · exact absurd (.inr eight) plain
   · rw [if_neg three] at order
     exact order.1

theorem MeetsOrder.ends (order : MeetsOrder s size) : orderEnd s size = size ∨ size = fill s ∨
  s.rptrOffSet.toNat + size = s.cirBufSize.toNat := by
 unfold MeetsOrder at order
 unfold orderEnd
 split_ifs with plain three
 · exact .inl rfl
 · rcases order with big | eight | order
   · exact absurd (.inl big) plain
   · exact absurd (.inr eight) plain
   · rw [if_pos three] at order
     exact .inl (by omega)
 · rcases order with big | eight | order
   · exact absurd (.inl big) plain
   · exact absurd (.inr eight) plain
   · rw [if_neg three] at order
     rcases order.2 with four | rest
     · exact .inl (by omega)
     · exact .inr rest

theorem Inv.keeps_changed (h : Inv s) (order : MeetsOrder s size)
  (inside : s.rptrOffSet.toNat + size ≤ s.cirBufSize.toNat) :
  StreamRing.Keeps (changed s size) s.cirBufSize.toNat s.captured (s.handed.length + size) := by
 intro i low high
 rw [h.keeps i (Nat.le_of_add_right_le low) high]
 congr 1
 have room := h.room
 have rptr := h.rptr
 have place : (s.handed.length + s.cirBufSize.toNat) % s.cirBufSize.toNat = s.rptrOffSet.toNat := by
  rw [Nat.add_mod_right, rptr]
 have before : (s.handed.length + s.cirBufSize.toNat) % s.cirBufSize.toNat + size ≤
   s.cirBufSize.toNat := by
  rw [place]
  exact inside
 have outside := StreamRing.place_outside before (by omega) low (by omega)
 rw [place] at outside
 have small := Nat.mod_lt i h.size_pos
 rcases outside with before | after
 · exact (changed_before s size _ before).symm
 · rcases order.ends with ends | all | ends
   · exact (changed_after s size _ (by rw [ends]; exact after)).symm
   · unfold fill at all
     omega
   · omega

theorem Inv.transferred {size : UInt32} (h : Inv s) (order : MeetsOrder s size.toNat)
  (inside : s.rptrOffSet.toNat + size.toNat ≤ s.cirBufSize.toNat)
  (there : s.handed.length + size.toNat ≤ s.captured.length) : Inv (s.transferred size) where
 size_pos := h.size_pos
 rptr := by
  have rptr := h.rptr
  have bound := UInt32.toNat_lt s.cirBufSize
  have sum : (s.rptrOffSet + size).toNat = s.rptrOffSet.toNat + size.toNat := by
   rw [UInt32.toNat_add]
   exact Nat.mod_eq_of_lt (by omega)
  simp only [State.transferred, List.length_append, List.length_map, List.length_range]
  unfold nextRptrOffSet
  rw [← Nat.mod_add_mod, ← rptr]
  by_cases ends : s.rptrOffSet.toNat + size.toNat = s.cirBufSize.toNat
  · rw [if_pos (by rw [UInt32.le_iff_toNat_le, sum]; omega), ends, Nat.mod_self]
    rfl
  · rw [if_neg (by rw [UInt32.le_iff_toNat_le, sum]; omega), sum, Nat.mod_eq_of_lt (by omega)]
 handed_le := by
  simp only [State.transferred, List.length_append, List.length_map, List.length_range]
  exact there
 room := by
  have := h.room
  simp only [State.transferred, List.length_append, List.length_map, List.length_range]
  omega
 keeps := by
  have := h.keeps_changed order inside
  simpa only [State.transferred, List.length_append, List.length_map, List.length_range] using this
 inOrder := by
  intro i b hb
  change (s.handed ++ _)[i]? = some b at hb
  change s.captured[sampleByte s i]? = some b
  by_cases old : i < s.handed.length
  · rw [List.getElem?_append_left old] at hb
    exact h.inOrder i b hb
  obtain ⟨k, rfl⟩ := Nat.exists_eq_add_of_le (Nat.le_of_not_lt old)
  rw [List.getElem?_append_right (Nat.le_add_right _ _), Nat.add_sub_cancel_left,
   List.getElem?_map] at hb
  obtain ⟨k', hk, rfl⟩ := Option.map_eq_some_iff.mp hb
  obtain ⟨lt, rfl⟩ := List.getElem?_eq_some_iff.mp hk
  rw [List.length_range] at lt
  rw [List.getElem_range, changed_transfer s lt, sampleByte_add s h.whole]
  have near := sampleByte_lt s order.whole lt
  have rptr := h.rptr
  rw [h.keeps _ (Nat.le_add_right _ _) (by omega), StreamRing.place_add (by omega), ← rptr]
 whole := by
  simp only [State.transferred, List.length_append, List.length_map, List.length_range]
  exact Nat.dvd_add h.whole order.whole

end Transfer

theorem behind_of_le {size i j : ℕ} (h : i ≤ j) (le : i % size ≤ j % size) :
  i + (j % size - i % size) ≤ j := by
 have rounds := Nat.mul_le_mul_left size (Nat.div_le_div_right h (c := size))
 have hi := Nat.div_add_mod i size
 have hj := Nat.div_add_mod j size
 omega

theorem behind_of_lt {size i j : ℕ} (h : i ≤ j) (lt : j % size < i % size) :
  i + (size + j % size - i % size) ≤ j := by
 have hi := Nat.div_add_mod i size
 have hj := Nat.div_add_mod j size
 have rounds : i / size < j / size := by
  rcases Nat.lt_or_ge (i / size) (j / size) with less | more
  · exact less
  · have := Nat.mul_le_mul_left size more
    omega
 have next := Nat.mul_le_mul_left size rounds
 rw [Nat.mul_succ] at next
 omega

theorem wptr_le {s : State} (h : Inv s) {p : UInt32} (shows : Shows s (some p)) :
  (p * s.frameSize).toNat ≤ s.captured.length % s.cirBufSize.toNat := by
 have frames : p.toNat * s.frameSize.toNat ≤ s.captured.length % s.cirBufSize.toNat := by
  rw [shows p rfl]
  exact Nat.div_mul_le_self _ _
 have small := Nat.mod_lt s.captured.length h.size_pos
 have bound := UInt32.toNat_lt s.cirBufSize
 rw [UInt32.toNat_mul, Nat.mod_eq_of_lt (by omega)]
 exact frames

theorem transferSize_toNat (s : State) (p cur : UInt32) (h : Inv s) :
  (transferSize { s with pointer := p } cur).toNat =
   if (p * s.frameSize).toNat < s.rptrOffSet.toNat ∧
     s.cirBufSize.toNat - s.rptrOffSet.toNat < s.trafBufSize.toNat then
    s.cirBufSize.toNat - s.rptrOffSet.toNat
   else cur.toNat := by
 have inside := Nat.mod_lt s.handed.length h.size_pos
 rw [← h.rptr] at inside
 have rest : (s.cirBufSize - s.rptrOffSet).toNat = s.cirBufSize.toNat - s.rptrOffSet.toNat :=
  UInt32.toNat_sub_of_le _ _ (UInt32.le_iff_toNat_le.mpr (by omega))
 unfold transferSize
 simp only [UInt32.lt_iff_toNat_lt, rest]
 split_ifs with wrapped near both both
 · exact rest
 · exact absurd ⟨wrapped, near⟩ both
 · exact absurd both.2 near
 · rfl
 · exact absurd (And.left ‹_›) wrapped
 · rfl

theorem Inv.there {s : State} (h : Inv s) {p cur : UInt32} (shows : Shows s (some p))
  (normal : ¬(s.rptrOffSet ≤ p * s.frameSize ∧ p * s.frameSize - s.rptrOffSet < s.trafBufSize))
  (cur_le : cur.toNat ≤ s.trafBufSize.toNat)
  (meets : MeetsPointer s (transferSize { s with pointer := p } cur).toNat p) :
  s.rptrOffSet.toNat + (transferSize { s with pointer := p } cur).toNat ≤ s.cirBufSize.toNat ∧
   s.handed.length + (transferSize { s with pointer := p } cur).toNat ≤ s.captured.length := by
 unfold MeetsPointer fill at meets
 rw [UInt32.lt_iff_toNat_lt] at meets
 rw [transferSize_toNat s p cur h] at meets ⊢
 have wptr := wptr_le h shows
 have small := Nat.mod_lt s.captured.length h.size_pos
 have inside := Nat.mod_lt s.handed.length h.size_pos
 have rptr := h.rptr
 have handed := h.handed_le
 by_cases wrapped : (p * s.frameSize).toNat < s.rptrOffSet.toNat
 · have size_le : (if (p * s.frameSize).toNat < s.rptrOffSet.toNat ∧
     s.cirBufSize.toNat - s.rptrOffSet.toNat < s.trafBufSize.toNat then
     s.cirBufSize.toNat - s.rptrOffSet.toNat else cur.toNat) ≤
      s.cirBufSize.toNat - s.rptrOffSet.toNat := by
    split_ifs
    · exact Nat.le_refl _
    · omega
   refine ⟨by omega, ?_⟩
   rcases meets wrapped with before | there
   · have behind := behind_of_lt handed
      (show s.captured.length % s.cirBufSize.toNat < s.handed.length % s.cirBufSize.toNat by omega)
     omega
   · omega
 · rw [if_neg fun both => wrapped both.1]
   have far : ¬(p * s.frameSize - s.rptrOffSet < s.trafBufSize) := fun less =>
    normal ⟨UInt32.le_iff_toNat_le.mpr (Nat.le_of_not_lt wrapped), less⟩
   rw [UInt32.lt_iff_toNat_lt, UInt32.toNat_sub_of_le _ _
    (UInt32.le_iff_toNat_le.mpr (Nat.le_of_not_lt wrapped))] at far
   have behind := behind_of_le handed (show _ ≤ s.captured.length % s.cirBufSize.toNat by omega)
   omega

theorem audioDmaBuffStatus_cases (s : State) (pointer : Option UInt32) :
  (∃ t status, audioDmaBuffStatus s pointer = (t, status) ∧ status ≠ .normal ∧ Quiet s t ∧
    t.loop = s.loop ∧ t.curTrafSize = s.curTrafSize ∧ t.bufferSize = s.bufferSize ∧
    t.bufferFilled = s.bufferFilled) ∨
   ∃ p, pointer = some p ∧ audioDmaBuffStatus s pointer = ({ s with pointer := p }, .normal) ∧
    ¬(s.rptrOffSet ≤ p * s.frameSize ∧ p * s.frameSize - s.rptrOffSet < s.trafBufSize) := by
 cases pointer with
 | none => exact .inl ⟨s, .full, rfl, by decide, Quiet.refl s, rfl, rfl, rfl, rfl⟩
 | some p =>
  by_cases empty : s.rptrOffSet ≤ p * s.frameSize ∧ p * s.frameSize - s.rptrOffSet < s.trafBufSize
  · exact .inl ⟨{ s with pointer := p }, .empty, if_pos empty, by decide,
     ⟨_, _, _, _, _, _, _, rfl⟩, rfl, rfl, rfl, rfl⟩
  · exact .inr ⟨p, rfl, if_neg empty, empty⟩

theorem Turns.again {s : State} (turns : s.curTrafSize.toNat ≤ s.trafBufSize.toNat)
  (fits : s.bufferFilled ≤ s.bufferSize) (l : MmapLoop) : Turns (s.again l) :=
 ⟨fun _ => turns, fits⟩

theorem quiet_again (s : State) (l : MmapLoop) : Quiet s (s.again l) := ⟨_, _, _, _, _, _, _, rfl⟩

theorem keeps_pcmRead {s : State} {pointer : Option UInt32} (h : Inv s) (turns : Turns s)
  (idle : s.loop.isNone = true) (shows : Shows s pointer) (meets : Meets s (.pcmRead pointer)) :
  Inv (audioPcmRead s pointer) ∧ Turns (audioPcmRead s pointer) := by
 rcases audioDmaBuffStatus_cases s pointer with
  ⟨t, status, check, other, quiet, loop, cur, size, filled⟩ | ⟨p, rfl, check, normal⟩
 · have result : audioPcmRead s pointer = t := by
    unfold audioPcmRead
    rw [check]
    cases status with
    | normal => exact absurd rfl other
    | _ => rfl
   rw [result]
   refine ⟨h.quiet quiet, fun busy => ?_, ?_⟩
   · rw [loop, Option.isNone_iff_eq_none.mp idle] at busy
     cases busy
   · rw [filled, size]
     exact turns.fits
 · have comes : readSize s (.pcmRead (some p)) =
     some (transferSize { s with pointer := p } s.trafBufSize).toNat := by
    rw [readSize, check]
   obtain ⟨ahead, order, -⟩ := meets _ comes p rfl
   obtain ⟨inside, there⟩ := h.there shows normal (Nat.le_refl _) ahead
   have result : audioPcmRead s (some p) =
     { s with pointer := p }.transferred (transferSize { s with pointer := p } s.trafBufSize) := by
    unfold audioPcmRead
    rw [check]
   rw [result]
   have moved : Inv { s with pointer := p } := h.quiet ⟨_, _, _, _, _, _, _, rfl⟩
   refine ⟨moved.transferred order inside there, fun busy => ?_, turns.fits⟩
   change s.loop.isSome = true at busy
   rw [Option.isNone_iff_eq_none.mp idle] at busy
   cases busy

theorem keeps_mmapRead {s : State} (h : Inv s) (turns : Turns s) (totalBufferFrames : Int32) :
  Inv (audioPcmMmapRead s totalBufferFrames) ∧ Turns (audioPcmMmapRead s totalBufferFrames) := by
 unfold audioPcmMmapRead
 split
 · exact ⟨h, turns⟩
 · exact ⟨h.quiet ⟨_, _, _, _, _, _, _, rfl⟩, fun _ => Nat.le_refl _, Nat.zero_le _⟩

theorem changed_same (s : State) (size : ℕ) (plain : s.isBigEndian = true ∨ s.bitWidth = 8) :
  changed s size = s.ring := by
 funext a
 by_cases before : a < s.rptrOffSet.toNat
 · exact changed_before s size a before
 · obtain ⟨k, rfl⟩ := Nat.exists_eq_add_of_le (Nat.le_of_not_lt before)
   rw [changed_eq, sampleByte, if_pos plain, ite_self]

theorem keeps_mmapTurn {s : State} {l : MmapLoop} {pointer : Option UInt32} {copied : Bool}
  (h : Inv s) (turns : Turns s) (busy : s.loop = some l) (shows : Shows s pointer)
  (meets : Meets s (.mmapTurn pointer copied)) :
  Inv (mmapTurn s l pointer copied) ∧ Turns (mmapTurn s l pointer copied) := by
 have cur_le := turns.cur_le (by rw [busy]; rfl)
 unfold mmapTurn
 by_cases pause : s.runStatus = .pause
 · rw [if_pos pause]
   exact ⟨h.quiet (quiet_again s l), Turns.again cur_le turns.fits l⟩
 rw [if_neg pause]
 rcases audioDmaBuffStatus_cases s pointer with
  ⟨t, status, check, other, quiet, loop, cur, size, filled⟩ | ⟨p, rfl, check, normal⟩
 · rw [check]
   have inv := h.quiet quiet
   have fits : t.bufferFilled ≤ t.bufferSize := by
    rw [filled, size]
    exact turns.fits
   have same : t.trafBufSize = s.trafBufSize := by
    obtain ⟨_, _, _, _, _, _, _, rfl⟩ := quiet
    rfl
   have waits : Inv (if 50 ≤ l.timeout + 1 then { t with loop := none }
     else t.again { l with timeout := l.timeout + 1 }) ∧
     Turns (if 50 ≤ l.timeout + 1 then { t with loop := none }
     else t.again { l with timeout := l.timeout + 1 }) := by
    split
    · exact ⟨inv.quiet ⟨_, _, _, _, _, _, _, rfl⟩, fun busy => absurd busy Bool.false_ne_true, fits⟩
    · exact ⟨inv.quiet (quiet_again t _), Turns.again (by rw [cur, same]; exact cur_le) fits _⟩
   cases status with
   | normal => exact absurd rfl other
   | full => exact waits
   | empty => exact waits
 · have comes : readSize s (.mmapTurn (some p) copied) =
     some (transferSize { s with pointer := p } s.curTrafSize).toNat := by
    rw [readSize, if_neg (by rw [busy]; simp [pause]), check]
   obtain ⟨ahead, order, copy⟩ := meets _ comes p rfl
   obtain ⟨inside, there⟩ := h.there shows normal cur_le ahead
   rw [check]
   have moved : Inv { s with pointer := p } := h.quiet ⟨_, _, _, _, _, _, _, rfl⟩
   cases copied with
   | true =>
    have inv := moved.transferred order inside there
    have fits : (mmapReadData { s with pointer := p } true).1.bufferFilled ≤
      (mmapReadData { s with pointer := p } true).1.bufferSize := copy
    refine ⟨(inv.quiet ⟨_, _, _, _, _, _, _, rfl⟩).quiet (quiet_again _ _), Turns.again ?_ fits _⟩
    change (transferSize { s with pointer := p } s.curTrafSize).toNat ≤ s.trafBufSize.toNat
    rw [transferSize_toNat s p _ h]
    split_ifs with near
    · exact near.2.le
    · exact cur_le
   | false =>
    have same := changed_same { s with pointer := p }
     (transferSize { s with pointer := p } s.curTrafSize).toNat copy
    refine ⟨h.quiet ?_, fun busy => absurd busy Bool.false_ne_true, turns.fits⟩
    change Quiet s { s with
     pointer := p
     curTrafSize := transferSize { s with pointer := p } s.curTrafSize
     ring := changed { s with pointer := p }
      (transferSize { s with pointer := p } s.curTrafSize).toNat
     loop := none }
    rw [same]
    exact ⟨_, _, _, _, _, _, _, rfl⟩

theorem keeps_step {s t : State} {a : Action} (h : Inv s ∧ Turns s) (meets : Meets s a)
  (run : step s a = some t) : Inv t ∧ Turns t := by
 obtain ⟨inv, turns⟩ := h
 cases a with
 | dma bytes =>
  obtain ⟨room, ⟨⟩⟩ := Option.ite_none_right_eq_some.mp run
  exact ⟨inv.dma bytes room, turns.cur_le, turns.fits⟩
 | trigger status =>
  cases run
  exact ⟨inv.quiet ⟨_, _, _, _, _, _, _, rfl⟩, turns.cur_le, turns.fits⟩
 | pcmRead pointer =>
  obtain ⟨⟨idle, shows⟩, ⟨⟩⟩ := Option.ite_none_right_eq_some.mp run
  exact keeps_pcmRead inv turns idle shows meets
 | mmapRead totalBufferFrames =>
  obtain ⟨-, ⟨⟩⟩ := Option.ite_none_right_eq_some.mp run
  exact keeps_mmapRead inv turns totalBufferFrames
 | mmapTurn pointer copied =>
  obtain ⟨shows, turn⟩ := Option.ite_none_right_eq_some.mp run
  obtain ⟨l, busy, rfl⟩ := Option.map_eq_some_iff.mp turn
  exact keeps_mmapTurn inv turns busy shows meets

theorem cirBufSize_pos {s t : State} {param : AudioPcmHwParams}
  (h : audioSetCaptureBufInfo s param = some t) : 0 < t.cirBufSize.toNat := by
 unfold audioSetCaptureBufInfo at h
 obtain ⟨period, h⟩ := Option.ite_none_left_eq_some.mp h
 obtain ⟨count, h⟩ := Option.ite_none_left_eq_some.mp h
 obtain ⟨-, h⟩ := Option.ite_none_left_eq_some.mp h
 obtain ⟨-, ⟨⟩⟩ := Option.ite_none_left_eq_some.mp h
 obtain ⟨low, high⟩ := not_or.mp period
 obtain ⟨few, many⟩ := not_or.mp count
 have hlow := UInt32.le_iff_toNat_le.mp (UInt32.not_lt.mp low)
 have hhigh := UInt32.le_iff_toNat_le.mp (UInt32.not_lt.mp high)
 have hfew := UInt32.le_iff_toNat_le.mp (UInt32.not_lt.mp few)
 have hmany := UInt32.le_iff_toNat_le.mp (UInt32.not_lt.mp many)
 change 4096 ≤ _ at hlow
 change _ ≤ 16384 at hhigh
 change 4 ≤ _ at hfew
 change _ ≤ 32 at hmany
 have small := Nat.mul_le_mul hhigh hmany
 change 0 < (param.periodSize * param.periodCount).toNat
 rw [UInt32.toNat_mul, Nat.mod_eq_of_lt (by omega)]
 exact Nat.mul_pos (by omega) (by omega)

theorem inv_prepare {s : State} (h : 0 < s.cirBufSize.toNat) :
  Inv (audioCapturePrepare s) ∧ Turns (audioCapturePrepare s) where
 left :=
  { size_pos := h
    rptr := (Nat.zero_mod _).symm
    handed_le := Nat.le_refl _
    room := Nat.zero_le _
    keeps := by
     intro i _ hi
     cases hi
    inOrder := by
     intro i b hb
     cases hb
    whole := Nat.dvd_zero _ }
 right := ⟨fun busy => absurd busy Bool.false_ne_true, Nat.le_refl _⟩

/-- In a run whose steps all meet the condition, the client gets the captured bytes in order and
no more than it has place for. -/
theorem capture_sound_of_meets (s s' : State) (param : AudioPcmHwParams)
    (hset : audioSetCaptureBufInfo s param = some s') (as : List Action) (t : State)
    (hrun : RunRules.exec step (audioCapturePrepare s') as = some t)
    (hmeets : RunRules.Along step Meets (audioCapturePrepare s') as) : Sound t := by
  obtain ⟨inv, turns⟩ := RunRules.along_invariant
    (fun _ _ _ h meets run => keeps_step h meets run) _ t as
    (inv_prepare (cirBufSize_pos hset)) hmeets hrun
  exact ⟨inv.inOrder, inv.handed_le, turns.fits⟩

instance (s : State) (size : ℕ) (p : UInt32) : Decidable (MeetsPointer s size p) :=
 inferInstanceAs (Decidable (_ → _))

instance (s : State) (size : ℕ) : Decidable (MeetsOrder s size) :=
 inferInstanceAs (Decidable (_ ∨ _))

instance (s : State) (size : ℕ) : (a : Action) → Decidable (MeetsCopy s size a)
 | .mmapTurn _ true => inferInstanceAs (Decidable (_ ≤ _))
 | .mmapTurn _ false => inferInstanceAs (Decidable (_ ∨ _))
 | .dma _ => instDecidableTrue
 | .trigger _ => instDecidableTrue
 | .pcmRead _ => instDecidableTrue
 | .mmapRead _ => instDecidableTrue

instance (s : State) (a : Action) : Decidable (Meets s a) :=
 @Option.decidableForallMem _ _ (fun _ => Option.decidableForallMem a.pointer) (readSize s a)

theorem step_dma (s : State) (bytes : List UInt8)
  (room : s.captured.length + bytes.length ≤ s.handed.length + s.cirBufSize.toNat) :
  step s (.dma bytes) = some { s with
   ring := capture s.cirBufSize.toNat s.captured.length s.ring bytes
   captured := s.captured ++ bytes } :=
 if_pos room

/-- A stream of two channels with 16 bits, in a ring of 16 KiB that is read in parts of 4 KiB -/
def stereo : State :=
 { frameSize := 4, bitWidth := 16, isBigEndian := false, cirBufMax := 65536, trafBufSize := 4096,
   periodSize := 4096, periodCount := 4, cirBufSize := 16384 }

theorem capture_sound_of_meets_stereo : ∃ t,
    RunRules.exec step (audioCapturePrepare stereo)
      [.dma (List.replicate 4096 7), .pcmRead (some 1024)] = some t ∧ Sound t := by
  obtain ⟨t, run⟩ := Option.isSome_iff_exists.mp (show (RunRules.exec step
    (audioCapturePrepare stereo) [.dma (List.replicate 4096 7), .pcmRead (some 1024)]).isSome = true
    by decide +kernel)
  refine ⟨t, run, capture_sound_of_meets stereo stereo ⟨0, 4096, 4, 4096⟩ rfl _ t run ?_⟩
  refine (RunRules.along_cons _ _ _).mpr ⟨by decide +kernel, fun u hu => ?_⟩
  cases (step_dma _ _ (by decide +kernel)).symm.trans hu
  exact (RunRules.along_cons _ _ _).mpr ⟨by decide +kernel, fun _ _ => RunRules.along_nil _⟩

/-- A memory-mapped read of one frame copies a whole transfer. -/
theorem mmapRead_past_buffer :
    ¬∀ (s s' : State) (param : AudioPcmHwParams), audioSetCaptureBufInfo s param = some s' →
      ∀ (as : List Action) (t : State),
        RunRules.exec step (audioCapturePrepare s') as = some t → Sound t := by
  intro h
  have hrun : ((RunRules.exec step (audioCapturePrepare stereo)
      [.dma (List.replicate 4096 7), .mmapRead 1, .mmapTurn (some 1024) true]).map fun t =>
      decide (t.bufferFilled ≤ t.bufferSize)) = some false := by
    decide +kernel
  obtain ⟨t, ht, excess⟩ := Option.map_eq_some_iff.mp hrun
  exact of_decide_eq_false excess (h stereo stereo ⟨0, 4096, 4, 4096⟩ rfl _ t ht).fits

end DriversFramework.AudioCaptureRing
