import DriversFramework.HdmiEdidFits

namespace DriversFramework.HdmiEdid

open CheckedAccess

structure ShortAudioDescriptor where
 byte0 : UInt8
 byte1 : UInt8
 byte2 : UInt8
 deriving DecidableEq

def ShortAudioDescriptor.bytes (d : ShortAudioDescriptor) : List UInt8 :=
 [d.byte0, d.byte1, d.byte2]

/-- The payload of an audio data block holds at most ten descriptors. -/
structure AudioDataBlock where
 descriptors : List ShortAudioDescriptor
 few : descriptors.length ≤ 10

def AudioDataBlock.payload (block : AudioDataBlock) : List UInt8 :=
 block.descriptors.flatMap ShortAudioDescriptor.bytes

def decodeDescriptor (audio : HdmiEdidAudioInfo) (d : ShortAudioDescriptor) :
  Run HdmiEdidAudioInfo := do
 let formatCode := (d.byte0 &&& 0x78) >>> 3
 let audio ← hdmiEdidExtAdbSampleRatePhase
  { audio with formatCode, channels := (d.byte0 &&& 0x07) + 1 } d.byte1 formatCode
 hdmiEdidExtAdbDepthAndMaxRatePhase audio d.byte2 formatCode

/-- The descriptors that there is room for. -/
def AudioDataBlock.taken (block : AudioDataBlock) (cap : HdmiSinkDeviceCapability) : ℕ :=
 min block.descriptors.length (hdmiEdidExtensionAudioCapCount - cap.audioInfoCnt)

/-- `cap'` has the entries of `cap` and behind them those of the first descriptors of the list, up
to `count`. -/
structure Appended (count : ℕ) (descriptor : ℕ → Option ShortAudioDescriptor)
  (cap cap' : HdmiSinkDeviceCapability) : Prop where
 audioInfoCnt : cap'.audioInfoCnt = cap.audioInfoCnt + count
 decoded : ∀ k < count, ∃ d old new, descriptor k = some d ∧
  cap.audioInfo[cap.audioInfoCnt + k]? = some old ∧
  cap'.audioInfo[cap.audioInfoCnt + k]? = some new ∧ decodeDescriptor old d = .ok new
 others : ∀ j, j < cap.audioInfoCnt ∨ cap.audioInfoCnt + count ≤ j →
  cap'.audioInfo[j]? = cap.audioInfo[j]?

/-- The block is parsed, and its descriptors are put behind the entries that there are, as far as
there is room. `behind` is what follows the block in memory. -/
def AudioParsed (block : AudioDataBlock) (behind : List UInt8)
  (cap : HdmiSinkDeviceCapability) : Prop :=
 ∃ cap', hdmiEdidExtAudioDataBlockPhase (block.payload ++ behind) block.payload.length cap =
   .ok (.success, cap') ∧
  Appended (block.taken cap) (fun k => block.descriptors[k]?) cap cap'

def descriptorAt (data : List UInt8) (i : ℕ) : Option ShortAudioDescriptor :=
 match data[i]?, data[i + 1]?, data[i + 2]? with
 | some byte0, some byte1, some byte2 => some ⟨byte0, byte1, byte2⟩
 | _, _, _ => none

/-- From the third one on, the bytes that are taken for a descriptor, `3 * (k * (k + 1) / 2)` behind
the start of the block, are there and say the same as the descriptor. -/
def LooksRight (block : AudioDataBlock) (behind : List UInt8)
  (cap : HdmiSinkDeviceCapability) : Prop :=
 ∀ k, 2 ≤ k → k < block.taken cap → ∃ d read old, block.descriptors[k]? = some d ∧
  descriptorAt (block.payload ++ behind) (adbOffset k) = some read ∧
  cap.audioInfo[cap.audioInfoCnt + k]? = some old ∧
  decodeDescriptor old read = decodeDescriptor old d

theorem descriptorAt_append (d : ShortAudioDescriptor) (front rest : List UInt8) :
  descriptorAt (front ++ (d.bytes ++ rest)) front.length = some d := by
 simp [descriptorAt, ShortAudioDescriptor.bytes]

theorem payload_length (descriptors : List ShortAudioDescriptor) :
  (descriptors.flatMap ShortAudioDescriptor.bytes).length = 3 * descriptors.length := by
 induction descriptors with
 | nil => rfl
 | cons d descriptors ih =>
  rw [List.flatMap_cons, List.length_append, ih, List.length_cons]
  change 3 + 3 * descriptors.length = 3 * (descriptors.length + 1)
  omega

theorem descriptorAt_payload (block : AudioDataBlock) (behind : List UInt8) {k : ℕ}
  (inside : k < block.descriptors.length) :
  descriptorAt (block.payload ++ behind) (3 * k) = block.descriptors[k]? := by
 have split : block.descriptors = block.descriptors.take k ++ block.descriptors[k] ::
   block.descriptors.drop (k + 1) := by
  rw [← List.drop_eq_getElem_cons inside, List.take_append_drop]
 have bytes : block.payload ++ behind =
   (block.descriptors.take k).flatMap ShortAudioDescriptor.bytes ++
    (block.descriptors[k].bytes ++
     ((block.descriptors.drop (k + 1)).flatMap ShortAudioDescriptor.bytes ++ behind)) := by
  rw [AudioDataBlock.payload]
  conv_lhs => rw [split]
  rw [List.flatMap_append, List.flatMap_cons, List.append_assoc, List.append_assoc]
 have front : ((block.descriptors.take k).flatMap ShortAudioDescriptor.bytes).length = 3 * k := by
  rw [payload_length, List.length_take, Nat.min_eq_left (by omega)]
 rw [bytes, ← front, descriptorAt_append, List.getElem?_eq_getElem inside]

theorem descriptorAt_inside {data : List UInt8} {i : ℕ} :
  (∃ d, descriptorAt data i = some d) ↔ i + 3 ≤ data.length := by
 unfold descriptorAt
 constructor
 · rintro ⟨d, found⟩
   by_contra short
   rw [List.getElem?_eq_none (i := i + 2) (by omega)] at found
   split at found <;> simp_all
 · intro inside
   rw [List.getElem?_eq_getElem (i := i) (by omega),
    List.getElem?_eq_getElem (i := i + 1) (by omega),
    List.getElem?_eq_getElem (i := i + 2) (by omega)]
   exact ⟨_, rfl⟩

section loop
variable {data : List UInt8} {s t : ℕ × HdmiSinkDeviceCapability} {i : ℕ}

theorem shortAudioDescriptor_decodes (pos : AdbPos i s)
  (run : hdmiEdidShortAudioDescriptor data i s = .ok t) :
  ∃ read old new, descriptorAt data (adbOffset i) = some read ∧
   s.2.audioInfo[s.2.audioInfoCnt]? = some old ∧ decodeDescriptor old read = .ok new ∧
   ∀ j, t.2.audioInfo[j]? =
    if s.2.audioInfoCnt = j then some new else s.2.audioInfo[j]? := by
 rw [AdbPos] at pos
 simp only [hdmiEdidShortAudioDescriptor, bind_eq_ok, readAt_eq_ok, entryAt_eq_ok, pos] at run
 obtain ⟨d0, first, old, entry, d1, second, rates, sampled, d2, third, new, depths, info, write,
  last⟩ := run
 cases last
 refine ⟨⟨d0, d1, d2⟩, old, new, ?_, entry, ?_, fun j => getElem?_of_writeAt write j⟩
 · rw [descriptorAt, first, second, third]
 · rw [decodeDescriptor, bind_eq_ok]
   exact ⟨rates, sampled, depths⟩

theorem audioLoop_appends : ∀ (rounds i : ℕ) (s : ℕ × HdmiSinkDeviceCapability), AdbPos i s →
  forLoop (fun s => hdmiEdidExtensionAudioCapCount ≤ s.2.audioInfoCnt)
   (hdmiEdidShortAudioDescriptor data) rounds i s = .ok t →
  Appended (min rounds (hdmiEdidExtensionAudioCapCount - s.2.audioInfoCnt))
   (fun k => descriptorAt data (adbOffset (i + k))) s.2 t.2
 | 0, i, s, _, run => by
  cases run
  rw [Nat.zero_min]
  exact ⟨rfl, fun k hk => absurd hk (Nat.not_lt_zero k), fun _ _ => rfl⟩
 | rounds + 1, i, s, pos, run => by
  rw [forLoop] at run
  split at run
  · next full =>
    cases run
    rw [Nat.sub_eq_zero_of_le (of_decide_eq_true full), Nat.min_zero]
    exact ⟨rfl, fun k hk => absurd hk (Nat.not_lt_zero k), fun _ _ => rfl⟩
  · next room =>
    have room : s.2.audioInfoCnt < hdmiEdidExtensionAudioCapCount := by simpa using room
    obtain ⟨u, round, run⟩ := (bind_eq_ok _ _ _).mp run
    obtain ⟨read, old, new, here, entry, decode, set⟩ := shortAudioDescriptor_decodes pos round
    obtain ⟨pos', count⟩ := shortAudioDescriptor_eq data i s u pos round
    have rest := audioLoop_appends rounds (i + 1) u pos' run
    have length : min (rounds + 1) (hdmiEdidExtensionAudioCapCount - s.2.audioInfoCnt) =
      min rounds (hdmiEdidExtensionAudioCapCount - u.2.audioInfoCnt) + 1 := by omega
    rw [length]
    refine ⟨?_, ?_, ?_⟩
    · rw [rest.audioInfoCnt, count]
      omega
    · intro k hk
      cases k with
      | zero =>
       refine ⟨read, old, new, here, entry, ?_, decode⟩
       rw [rest.others _ (.inl (by omega)), set, if_pos (Nat.add_zero _).symm]
      | succ k =>
       obtain ⟨d, before, after, place, was, is, decoded⟩ := rest.decoded k (by omega)
       rw [count, set, if_neg (by omega)] at was
       rw [count] at is
       refine ⟨d, before, after, ?_, ?_, ?_, decoded⟩
       · rw [← place]
         congr 2
         omega
       · rw [← was]
         congr 1
         omega
       · rw [← is]
         congr 1
         omega
    · intro j outside
      rw [rest.others j (by omega), set, if_neg (by omega)]

end loop

theorem audioPhase_appends {block : AudioDataBlock} {behind : List UInt8}
  {cap cap' : HdmiSinkDeviceCapability} {code : HdfStatus}
  (run : hdmiEdidExtAudioDataBlockPhase (block.payload ++ behind) block.payload.length cap =
   .ok (code, cap')) :
  code = .success ∧ Appended (block.taken cap)
   (fun k => descriptorAt (block.payload ++ behind) (adbOffset k)) cap cap' := by
 have few := block.few
 have length : block.payload.length = 3 * block.descriptors.length := payload_length _
 rw [hdmiEdidExtAudioDataBlockPhase, if_neg (by omega), bind_eq_ok] at run
 obtain ⟨s, loop, last⟩ := run
 cases last
 refine ⟨rfl, ?_⟩
 have appended := audioLoop_appends _ 0 _ (adbPos_start cap) loop
 rw [length, Nat.mul_div_cancel_left _ (by decide)] at appended
 simpa only [Nat.zero_add, AudioDataBlock.taken] using appended

theorem adbOffset_first {k : ℕ} (first : k < 2) : adbOffset k = 3 * k := by
 rcases Nat.lt_succ_iff_lt_or_eq.mp first with zero | rfl
 · rw [Nat.lt_one_iff.mp zero]
   rfl
 · rfl

/-- A block is parsed right if and only if from the third descriptor on the bytes that are looked at
say the same as the descriptor. -/
theorem audio_parsed_iff (block : AudioDataBlock) (behind : List UInt8)
    (cap : HdmiSinkDeviceCapability) :
    AudioParsed block behind cap ↔ LooksRight block behind cap := by
  have few : block.taken cap ≤ block.descriptors.length := Nat.min_le_left _ _
  have length : block.payload.length = 3 * block.descriptors.length := payload_length _
  constructor
  · rintro ⟨cap', run, right⟩ k - hk
    have taken := (audioPhase_appends run).2
    obtain ⟨d, old, new, descriptor, was, is, decoded⟩ := right.decoded k hk
    obtain ⟨read, old', new', place, was', is', decoded'⟩ := taken.decoded k hk
    have sameOld : old' = old := Option.some.inj (was'.symm.trans was)
    have sameNew : new' = new := Option.some.inj (is'.symm.trans is)
    rw [sameOld, sameNew, ← decoded] at decoded'
    exact ⟨d, read, old, descriptor, place, was, decoded'⟩
  · intro looks
    -- all descriptors that are looked at are there
    have fits : AudioFits cap (block.payload ++ behind) block.payload.length := by
      intro _ k hk
      rw [length, Nat.mul_div_cancel_left _ (by decide)] at hk
      rcases Nat.lt_or_ge k 2 with first | later
      · rw [adbOffset_first first, List.length_append, length]
        omega
      · obtain ⟨-, read, -, -, place, -, -⟩ := looks k later hk
        exact descriptorAt_inside.mp ⟨read, place⟩
    obtain ⟨⟨code, cap'⟩, run⟩ := (audio_returns _ _ _).mpr fits
    obtain ⟨rfl, taken⟩ := audioPhase_appends run
    refine ⟨cap', run, taken.audioInfoCnt, ?_, taken.others⟩
    intro k hk
    obtain ⟨read, old, new, place, was, is, decoded⟩ := taken.decoded k hk
    rcases Nat.lt_or_ge k 2 with first | later
    · rw [adbOffset_first first, descriptorAt_payload block behind (by omega)] at place
      exact ⟨read, old, new, place, was, is, decoded⟩
    · obtain ⟨d, read', old', descriptor, place', was', same⟩ := looks k later hk
      have sameRead : read' = read := Option.some.inj (place'.symm.trans place)
      have sameOld : old' = old := Option.some.inj (was'.symm.trans was)
      rw [sameRead, sameOld, decoded] at same
      exact ⟨d, old, new, descriptor, was, is, same.symm⟩

def threeDescriptors : AudioDataBlock :=
 ⟨[⟨0x09, 0x07, 0x07⟩, ⟨0x15, 0x07, 0x50⟩, ⟨0x3d, 0x1e, 0xc0⟩], by decide⟩

/-- The third descriptor is read three bytes behind itself, from what follows the block. -/
theorem third_descriptor_misread : ¬∀ block behind cap, AudioParsed block behind cap := by
  intro right
  obtain ⟨cap', run, appended⟩ := right threeDescriptors [0x83, 0x01, 0x00] {}
  obtain ⟨d, old, new, descriptor, was, is, decoded⟩ := appended.decoded 2 (by decide)
  have stored : ((hdmiEdidExtAudioDataBlockPhase
      (threeDescriptors.payload ++ [0x83, 0x01, 0x00]) 9 {}).toOption.bind fun r =>
        r.2.audioInfo[2]?.map HdmiEdidAudioInfo.formatCode) = some 0 := by
    decide +kernel
  have said : (decodeDescriptor {} ⟨0x3d, 0x1e, 0xc0⟩).toOption.map
      HdmiEdidAudioInfo.formatCode = some 7 := by
    decide +kernel
  have code : new.formatCode = 0 := by
    change hdmiEdidExtAudioDataBlockPhase _ 9 _ = _ at run
    rw [run] at stored
    change cap'.audioInfo[2]?.map _ = _ at stored
    change cap'.audioInfo[2]? = _ at is
    rw [is] at stored
    exact Option.some.inj stored
  cases descriptor
  cases was
  change decodeDescriptor {} ⟨0x3d, 0x1e, 0xc0⟩ = .ok new at decoded
  rw [decoded] at said
  change some new.formatCode = some 7 at said
  rw [code] at said
  exact absurd said (by decide)

end DriversFramework.HdmiEdid
