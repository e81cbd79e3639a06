import Mathlib.Tactic.Ring
import DriversFramework.HdmiEdidDataBlock

/-! For every decoder, the condition under which each byte it looks at is one of `data`. The
tables are never what ends a decoder: every write follows a test of its index. -/
namespace DriversFramework.HdmiEdid

open CheckedAccess

section Tables

theorem returns_addSampleRate (present : Bool) (rate : UInt32) (audio : HdmiEdidAudioInfo) :
 Returns (hdmiEdidAddSampleRate present rate audio) := by
 rw [hdmiEdidAddSampleRate, returns_ite, returns_bind_pure, returns_writeAt]
 split
 · next h => exact h.2
 · exact returns_pure _

theorem returns_addBitDepth (present : Bool) (depth : UInt32) (audio : HdmiEdidAudioInfo) :
 Returns (hdmiEdidAddBitDepth present depth audio) := by
 rw [hdmiEdidAddBitDepth, returns_ite, returns_bind_pure, returns_writeAt]
 split
 · next h => exact h.2
 · exact returns_pure _

theorem returns_sampleRatePhase (audio : HdmiEdidAudioInfo) (data formatCode : UInt8) :
 Returns (hdmiEdidExtAdbSampleRatePhase audio data formatCode) := by
 refine returns_bind_of (returns_addSampleRate _ _ _) fun _ => ?_
 refine returns_bind_of (returns_addSampleRate _ _ _) fun _ => ?_
 refine returns_bind_of (returns_addSampleRate _ _ _) fun _ => ?_
 refine returns_bind_of (returns_addSampleRate _ _ _) fun _ => ?_
 refine returns_bind_of (returns_addSampleRate _ _ _) fun audio => ?_
 rw [returns_ite]
 split
 · exact returns_bind_of (returns_addSampleRate _ _ _) fun _ => returns_addSampleRate _ _ _
 · exact returns_pure audio

theorem returns_depthPhase (audio : HdmiEdidAudioInfo) (data formatCode : UInt8) :
 Returns (hdmiEdidExtAdbDepthAndMaxRatePhase audio data formatCode) := by
 rw [hdmiEdidExtAdbDepthAndMaxRatePhase, returns_ite, returns_ite]
 split
 · refine returns_bind_of (returns_addBitDepth _ _ _) fun _ => ?_
   exact returns_bind_of (returns_addBitDepth _ _ _) fun _ => returns_addBitDepth _ _ _
 · split
   · exact returns_pure _
   · exact returns_pure _

theorem returns_setFlags {n : ℕ} (d : UInt8) (flags : List (ℕ × ℕ)) (table : Vector Bool n)
 (h : ∀ f ∈ flags, f.1 < n) : Returns (setFlags d flags table) := by
 apply returns_foldlM
 intro t f hf
 rw [returns_writeAt]
 exact h f hf

end Tables

/-- Where the `i`-th short audio descriptor is looked for: the pointer is moved by `3 * i`
once more in every round. -/
def adbOffset (i : ℕ) : ℕ := 3 * (i * (i + 1) / 2)

theorem adbOffset_succ (i : ℕ) : adbOffset (i + 1) = adbOffset i + (i + 1) * 3 := by
 have h : (i + 1) * (i + 1 + 1) = i * (i + 1) + (i + 1) * 2 := by ring
 rw [adbOffset, adbOffset, h, Nat.add_mul_div_right _ _ (by decide)]
 ring

def AudioFits (cap : HdmiSinkDeviceCapability) (data : List UInt8) (len : ℕ) : Prop :=
 len ≤ 30 → ∀ i < min (len / 3) (hdmiEdidExtensionAudioCapCount - cap.audioInfoCnt),
  adbOffset i + 3 ≤ data.length

def AdbPos (i : ℕ) (s : ℕ × HdmiSinkDeviceCapability) : Prop := s.1 + i * 3 = adbOffset i

theorem adbPos_start (cap : HdmiSinkDeviceCapability) : AdbPos 0 (0, cap) := rfl

variable (data : List UInt8)

theorem shortAudioDescriptor_returns (i : ℕ) (s : ℕ × HdmiSinkDeviceCapability) (hpos : AdbPos i s)
 (hlt : s.2.audioInfoCnt < hdmiEdidExtensionAudioCapCount) :
 Returns (hdmiEdidShortAudioDescriptor data i s) ↔ adbOffset i + 3 ≤ data.length := by
 rw [AdbPos] at hpos
 simp only [hdmiEdidShortAudioDescriptor, returns_readAt_bind, returns_entryAt_bind]
 rw [hpos]
 constructor
 · rintro ⟨_, _, _, h⟩
   obtain ⟨audio, -, h⟩ := (returns_bind _ _).mp h
   rw [returns_readAt_bind] at h
   exact h.1
 · intro h
   refine ⟨by omega, hlt, by omega, returns_bind_of (returns_sampleRatePhase _ _ _) ?_⟩
   intro audio
   rw [returns_readAt_bind]
   refine ⟨h, returns_bind_of (returns_depthPhase _ _ _) fun audio => ?_⟩
   rw [returns_bind_pure, returns_writeAt]
   exact hlt

theorem shortAudioDescriptor_eq (i : ℕ) (s t : ℕ × HdmiSinkDeviceCapability)
 (hpos : AdbPos i s) (h : hdmiEdidShortAudioDescriptor data i s = .ok t) :
 AdbPos (i + 1) t ∧ t.2.audioInfoCnt = s.2.audioInfoCnt + 1 := by
 rw [AdbPos] at hpos
 simp only [hdmiEdidShortAudioDescriptor, bind_eq_ok] at h
 obtain ⟨_, -, _, -, _, -, _, -, _, -, _, -, _, -, h⟩ := h
 cases h
 refine ⟨?_, rfl⟩
 rw [AdbPos, adbOffset_succ, ← hpos]

variable (len : ℕ)

variable (i : ℕ) (cap cap' : HdmiSinkDeviceCapability)

theorem audio_returns :
 Returns (hdmiEdidExtAudioDataBlockPhase data len cap) ↔ AudioFits cap data len := by
 rw [hdmiEdidExtAudioDataBlockPhase, returns_ite, AudioFits]
 by_cases hlen : len ≤ 30
 · have hnot : ¬ len > 3 * 10 := by omega
   rw [if_neg hnot, returns_bind_pure, returns_forLoop (fun s => s.2.audioInfoCnt)
    hdmiEdidExtensionAudioCapCount (fun _ => true) (fun i => adbOffset i + 3 ≤ data.length) AdbPos
    (fun s => decide_eq_true_iff) (fun i s => shortAudioDescriptor_returns data i s)
    (fun i s t hs _ h => shortAudioDescriptor_eq data i s t hs h) _ _ _ (adbPos_start cap),
    roundsOf_always]
   simp [hlen]
 · have hgt : len > 3 * 10 := by omega
   simp [hgt, hlen]

/-- The bytes of a video data block that are looked at before `vic` is full. -/
def vdbReach (cap : HdmiSinkDeviceCapability) (data : List UInt8) (len : ℕ) : ℕ :=
 roundsOf hdmiEdidExtensionMaxVicCount (fun i => peek data i ≠ 0) len 0 cap.videoInfo.vicNum

theorem shortVideoDescriptor_returns (s : UInt32 × HdmiSinkDeviceCapability)
 (hlt : s.2.videoInfo.vicNum < hdmiEdidExtensionMaxVicCount) :
 Returns (hdmiEdidShortVideoDescriptor data i s) ↔ i < data.length := by
 simp only [hdmiEdidShortVideoDescriptor, returns_readAt_bind, returns_ite, returns_bind_pure,
  returns_writeAt, returns_pure, hlt, ite_self, and_true]

theorem shortVideoDescriptor_eq (s t : UInt32 × HdmiSinkDeviceCapability)
 (h : hdmiEdidShortVideoDescriptor data i s = .ok t) :
 t.2.videoInfo.vicNum =
  s.2.videoInfo.vicNum + if decide (peek data i ≠ 0) = true then 1 else 0 := by
 rw [hdmiEdidShortVideoDescriptor, bind_eq_ok] at h
 obtain ⟨d, hd, h⟩ := h
 have hlt : i < data.length := (returns_readAt data i).mp ⟨d, hd⟩
 rw [readAt_of_lt hlt] at hd
 cases hd
 by_cases h0 : peek data i = 0
 · rw [if_pos h0] at h
   cases h
   simp [h0]
 · rw [if_neg h0, bind_eq_ok] at h
   obtain ⟨vic, -, h⟩ := h
   cases h
   simp [h0]

theorem video_returns : Returns (hdmiEdidExtVideoDataBlockPhase data len cap) ↔
  vdbReach cap data len ≤ data.length := by
 rw [hdmiEdidExtVideoDataBlockPhase, returns_bind_pure,
  returns_forLoop (fun s => s.2.videoInfo.vicNum) hdmiEdidExtensionMaxVicCount
   (fun i => peek data i ≠ 0) (fun i => i < data.length) (fun _ _ => True)
   (fun s => decide_eq_true_iff) (fun i s _ => shortVideoDescriptor_returns data i s)
   (fun i s t _ _ h => ⟨trivial, shortVideoDescriptor_eq data i s t h⟩) _ _ _ trivial]
 simp only [Nat.zero_add]
 exact forall_lt_iff_le

def Has (data : List UInt8) (len k : ℕ) : Prop := k ≤ len → k ≤ data.length

def vic4k (d : UInt8) : Bool := d ≠ 0 && d.toNat < 5

def vsdbLens (data : List UInt8) (len : ℕ) : ℕ × ℕ :=
 if len ≥ 14 then (((peek data 13 &&& 0xe0) >>> 5).toNat, (peek data 13 &&& 0x1f).toNat)
 else (0, 0)

def vsdbVics (cap : HdmiSinkDeviceCapability) (data : List UInt8) (len : ℕ) : ℕ :=
 if (vsdbLens data len).1 > 0 ∧ (vsdbLens data len).1 + 14 + 1 ≤ len then
  roundsOf hdmiEdidExtensionMaxVicCount (fun i => vic4k (peek data (14 + i)))
   (vsdbLens data len).1 0 cap.videoInfo.vicNum
 else 0

def Vsdb3d (cap : HdmiSinkDeviceCapability) (data : List UInt8) (len : ℕ) : Prop :=
 (vsdbLens data len).2 > 0 ∧ bit (peek data 12) 7 = true ∧
  (vsdbLens data len).2 + (14 + vsdbVics cap data len) + 1 ≤ len ∧
  ((peek data 12 &&& 0x60) >>> 5) &&& 0x03 ≠ 0

def VicAnd3dFits (cap : HdmiSinkDeviceCapability) (data : List UInt8) (len : ℕ) : Prop :=
 13 ≤ len → 13 ≤ data.length ∧ Has data len 14 ∧
  (∀ i < vsdbVics cap data len, 14 + i < data.length) ∧
  (Vsdb3d cap data len → 14 + vsdbVics cap data len + 2 ≤ data.length)

def VsdbFits (cap : HdmiSinkDeviceCapability) (data : List UInt8) (len : ℕ) : Prop :=
 5 ≤ len → Has data len 5 ∧ Has data len 6 ∧ Has data len 7 ∧ Has data len 8 ∧
  (8 ≤ len →
   (bit (peek data 7) 7 = true → Has data len 9 ∧ Has data len 10) ∧
   (bit (peek data 7) 6 = true → Has data len 11 ∧ Has data len 12)) ∧
  VicAnd3dFits cap data len

def VicPos (v : HdmiEdidExtVsdbInfo) (i : ℕ) (s : ℕ × HdmiSinkDeviceCapability) : Prop :=
 s.1 = 14 + i ∧ s.2.vsdbInfo = v

theorem vsdbVic_returns (v : HdmiEdidExtVsdbInfo) (i : ℕ)
 (s : ℕ × HdmiSinkDeviceCapability) (hpos : VicPos v i s)
 (hlt : s.2.videoInfo.vicNum < hdmiEdidExtensionMaxVicCount) :
 Returns (hdmiEdidVsdbVic data i s) ↔ 14 + i < data.length := by
 simp only [hdmiEdidVsdbVic, returns_readAt_bind, hpos.1, returns_ite, returns_entryAt_bind,
  returns_bind_pure, returns_writeAt, returns_pure, hlt, exists_prop, and_true]
 apply and_iff_left
 split
 · next h => exact h.2
 · trivial

theorem vsdbVic_eq (v : HdmiEdidExtVsdbInfo) (i : ℕ)
 (s t : ℕ × HdmiSinkDeviceCapability) (hpos : VicPos v i s)
 (h : hdmiEdidVsdbVic data i s = .ok t) :
 VicPos v (i + 1) t ∧ t.2.videoInfo.vicNum =
  s.2.videoInfo.vicNum + if vic4k (peek data (14 + i)) = true then 1 else 0 := by
 obtain ⟨hoff, hinfo⟩ := hpos
 rw [hdmiEdidVsdbVic, bind_eq_ok] at h
 obtain ⟨d, hd, h⟩ := h
 rw [hoff] at hd
 have hlt : 14 + i < data.length := (returns_readAt data _).mp ⟨d, hd⟩
 rw [readAt_of_lt hlt] at hd
 cases hd
 by_cases hd : peek data (14 + i) ≠ 0 ∧ (peek data (14 + i)).toNat < 5
 · rw [if_pos hd, bind_eq_ok] at h
   obtain ⟨vic, -, h⟩ := h
   rw [bind_eq_ok] at h
   obtain ⟨vics, -, h⟩ := h
   cases h
   refine ⟨⟨by rw [hoff]; omega, hinfo⟩, ?_⟩
   simp [vic4k, hd.1, hd.2]
 · rw [if_neg hd] at h
   cases h
   refine ⟨⟨by rw [hoff]; omega, hinfo⟩, ?_⟩
   have hnot : ¬ vic4k (peek data (14 + i)) = true := by simpa [vic4k] using hd
   rw [if_neg hnot]
   rfl

theorem threeDByte_returns (flags : List (ℕ × ℕ))
 (s : ℕ × HdmiSinkDeviceCapability) (hlen : s.1 ≤ len)
 (hflags : ∀ f ∈ flags, f.1 < hdmiVsVideo3dButt) :
 Returns (hdmiEdidVsdb3dByte data len flags s) ↔ s.1 < data.length := by
 rw [hdmiEdidVsdb3dByte, if_pos hlen, returns_readAt_bind, returns_bind_pure]
 exact and_iff_left (returns_setFlags _ _ _ hflags)

theorem threeDByte_eq (flags : List (ℕ × ℕ)) (s t : ℕ × HdmiSinkDeviceCapability) (hlen : s.1 ≤ len)
 (h : hdmiEdidVsdb3dByte data len flags s = .ok t) : t.1 = s.1 + 1 := by
 rw [hdmiEdidVsdb3dByte, if_pos hlen, bind_eq_ok] at h
 obtain ⟨d, -, h⟩ := h
 obtain ⟨types, -, h⟩ := (bind_eq_ok _ _ _).mp h
 cases h
 rfl

theorem threeD_returns (offset : ℕ) (cap : HdmiSinkDeviceCapability) (hlen : offset + 2 ≤ len) :
 Returns (hdmiEdidVsdb3dStructureInfoPhase data len offset cap) ↔
  (cap.vsdbInfo.multiPresent3d &&& 0x03 ≠ 0 → offset + 2 ≤ data.length) := by
 rw [hdmiEdidVsdb3dStructureInfoPhase, returns_ite]
 by_cases hmulti : cap.vsdbInfo.multiPresent3d &&& 0x03 = 0
 · simp [hmulti]
 have hle : (offset, cap).1 ≤ len := by
  change offset ≤ len
  omega
 have hsecond (s : ℕ × HdmiSinkDeviceCapability) (hs : s.1 = offset + 1) :
  Returns (hdmiEdidVsdb3dByte data len
   [(0, 0), (1, 1), (2, 2), (3, 3), (4, 4), (5, 5), (6, 6)] s) ↔ offset + 1 < data.length := by
  rw [threeDByte_returns data len _ s (by omega) (by decide), hs]
 rw [if_neg hmulti, returns_bind_iff (fun s => s.1 = offset + 1)
  (threeDByte_returns data len [(8, 0)] (offset, cap) hle (by decide))
  (fun s => threeDByte_eq data len _ (offset, cap) s hle) hsecond]
 simp only [ne_eq, hmulti, not_false_eq_true, forall_const]
 omega

theorem vsdbLens_returns : Returns (hdmiEdidVsdbLens data len) ↔ Has data len 14 := by
 rw [hdmiEdidVsdbLens, returns_ite, returns_bind_pure, returns_readAt, Has]
 by_cases h : len ≥ 14
 · simp only [h, if_true, forall_const]
   exact Nat.lt_iff_add_one_le
 · simp [h]

theorem vsdbLens_eq (lens : ℕ × ℕ)
 (h : hdmiEdidVsdbLens data len = .ok lens) : lens = vsdbLens data len := by
 rw [hdmiEdidVsdbLens] at h
 rw [vsdbLens]
 by_cases hlen : len ≥ 14
 · rw [if_pos hlen, bind_eq_ok] at h
   obtain ⟨d, hd, h⟩ := h
   have hlt : 13 < data.length := (returns_readAt data 13).mp ⟨d, hd⟩
   rw [readAt_of_lt hlt] at hd
   cases hd
   cases h
   rw [if_pos hlen]
 · rw [if_neg hlen] at h
   cases h
   rw [if_neg hlen]

theorem vsdbVics_returns (hcap : cap'.videoInfo = cap.videoInfo) :
 Returns (hdmiEdidVsdbVics data len (vsdbLens data len).1 cap') ↔
  ∀ i < vsdbVics cap data len, 14 + i < data.length := by
 rw [hdmiEdidVsdbVics, vsdbVics]
 by_cases h : (vsdbLens data len).1 > 0 ∧ (vsdbLens data len).1 + 14 + 1 ≤ len
 · rw [if_pos h, if_pos h, hdmiEdidVsdbVicInfoPhase,
    returns_forLoop (fun s => s.2.videoInfo.vicNum) hdmiEdidExtensionMaxVicCount
     (fun i => vic4k (peek data (14 + i))) (fun i => 14 + i < data.length)
     (VicPos cap'.vsdbInfo) (fun s => decide_eq_true_iff)
     (fun i s => vsdbVic_returns data cap'.vsdbInfo i s)
     (fun i s t hs _ => vsdbVic_eq data cap'.vsdbInfo i s t hs) _ 0 (14, cap') ⟨rfl, rfl⟩, hcap]
   simp only [Nat.zero_add]
 · rw [if_neg h, if_neg h]
   simp

theorem vsdbVics_eq (s : ℕ × HdmiSinkDeviceCapability) (hcap : cap'.videoInfo = cap.videoInfo)
 (h : hdmiEdidVsdbVics data len (vsdbLens data len).1 cap' = .ok s) :
 s.1 = 14 + vsdbVics cap data len ∧ s.2.vsdbInfo = cap'.vsdbInfo := by
 rw [hdmiEdidVsdbVics] at h
 rw [vsdbVics]
 by_cases hlens : (vsdbLens data len).1 > 0 ∧ (vsdbLens data len).1 + 14 + 1 ≤ len
 · rw [if_pos hlens, hdmiEdidVsdbVicInfoPhase] at h
   have hpos := forLoop_result (fun s => s.2.videoInfo.vicNum) hdmiEdidExtensionMaxVicCount
    (fun i => vic4k (peek data (14 + i))) (VicPos cap'.vsdbInfo)
    (fun s => decide_eq_true_iff) (fun i s t hs _ => vsdbVic_eq data cap'.vsdbInfo i s t hs)
    _ 0 (14, cap') s ⟨rfl, rfl⟩ h
   rw [hcap, Nat.zero_add] at hpos
   rw [if_pos hlens]
   exact hpos
 · rw [if_neg hlens] at h
   cases h
   rw [if_neg hlens]
   exact ⟨rfl, rfl⟩

theorem vicAnd3d_returns (hcap : cap'.videoInfo = cap.videoInfo) :
 Returns (hdmiEdidVsdbVicAnd3dInfoPhase data len cap') ↔ VicAnd3dFits cap data len := by
 rw [hdmiEdidVsdbVicAnd3dInfoPhase, returns_ite, VicAnd3dFits]
 by_cases hlen : len < 13
 · simp [hlen]
 have hle : 13 ≤ len := Nat.le_of_not_lt hlen
 rw [if_neg hlen, returns_readAt_bind]
 simp only [hle, forall_const]
 refine and_congr Nat.lt_iff_add_one_le ?_
 refine returns_bind_iff (fun lens => lens = vsdbLens data len) (vsdbLens_returns data len)
  (vsdbLens_eq data len) ?_
 rintro lens rfl
 refine returns_bind_iff
  (fun s => s.1 = 14 + vsdbVics cap data len ∧
   s.2.vsdbInfo = (hdmiEdidVsdb3dPresent (peek data 12) cap').vsdbInfo)
  (vsdbVics_returns data len cap (hdmiEdidVsdb3dPresent (peek data 12) cap') hcap)
  (fun s => vsdbVics_eq data len cap (hdmiEdidVsdb3dPresent (peek data 12) cap') s hcap) ?_
 rintro s ⟨hoff, hinfo⟩
 have hpresent : s.2.vsdbInfo.present3d = bit (peek data 12) 7 := by rw [hinfo]; rfl
 have hmulti : s.2.vsdbInfo.multiPresent3d = (peek data 12 &&& 0x60) >>> 5 := by rw [hinfo]; rfl
 by_cases h3d : (vsdbLens data len).2 > 0 ∧ s.2.vsdbInfo.present3d = true ∧
  (vsdbLens data len).2 + s.1 + 1 ≤ len
 · obtain ⟨hpos, hbit, hroom⟩ := h3d
   rw [if_pos ⟨hpos, hbit, hroom⟩, returns_bind_pure, threeD_returns data len _ s.2 (by omega),
    hmulti, Vsdb3d, ← hpresent, ← hoff]
   simp only [hpos, hbit, hroom, true_and]
 rw [if_neg h3d, Vsdb3d, ← hpresent, ← hoff]
 constructor
 · rintro - ⟨hpos, hbit, hroom, -⟩
   exact absurd ⟨hpos, hbit, hroom⟩ h3d
 · intro _
   exact returns_pure _

theorem has_iff (k : ℕ) :
 (if len ≥ k + 1 then k < data.length else True) ↔ Has data len (k + 1) := by
 rw [Has]
 split
 · next h => exact ⟨fun hk _ => hk, fun hk => hk h⟩
 · next h => exact ⟨fun _ hlen => absurd hlen h, fun _ => trivial⟩

theorem cecPhyAddr_returns :
 Returns (hdmiEdidVsdbCecPhyAddrPhase data len cap) ↔ Has data len 5 := by
 rw [hdmiEdidVsdbCecPhyAddrPhase, returns_ite, ← has_iff]
 simp only [returns_readAt_bind, returns_pure, and_true]
 split
 · omega
 · rfl

theorem colorDepth_returns :
 Returns (hdmiEdidVsdbColorDepthPhase data len cap) ↔ Has data len 6 := by
 rw [hdmiEdidVsdbColorDepthPhase, returns_ite, ← has_iff]
 simp only [returns_readAt_bind, returns_pure, and_true]

theorem maxTmdsClock_returns :
 Returns (hdmiEdidVsdbMaxTmdsClockPhase data len cap) ↔ Has data len 7 := by
 rw [hdmiEdidVsdbMaxTmdsClockPhase, returns_ite, ← has_iff]
 simp only [returns_readAt_bind, returns_pure, and_true]

theorem sinkPresent_returns :
 Returns (hdmiEdidVsdbSinkPresentPhase data len cap) ↔ Has data len 8 := by
 rw [hdmiEdidVsdbSinkPresentPhase, returns_ite, ← has_iff]
 simp only [returns_readAt_bind, returns_pure, and_true]

theorem latency_returns
 (set : UInt8 → HdmiEdidExtVsdbInfo → HdmiEdidExtVsdbInfo) (cap : HdmiSinkDeviceCapability) :
 Returns (hdmiEdidVsdbLatency data len i set cap) ↔ Has data len (i + 1) := by
 rw [hdmiEdidVsdbLatency, returns_ite, ← has_iff]
 simp only [returns_readAt_bind, returns_pure, and_true]

theorem keeps_of_ite {γ : Type} {p : Prop} [Decidable p] (g : HdmiSinkDeviceCapability → γ)
 {data : List UInt8} {i : ℕ} {f : UInt8 → HdmiSinkDeviceCapability}
 {cap cap' : HdmiSinkDeviceCapability}
 (h : (if p then (readAt data i >>= fun d => pure (f d)) else pure cap) = .ok cap')
 (hf : ∀ d, g (f d) = g cap) : g cap' = g cap := by
 by_cases hp : p
 · rw [if_pos hp, bind_eq_ok] at h
   obtain ⟨d, -, h⟩ := h
   cases h
   exact hf d
 · rw [if_neg hp] at h
   cases h
   rfl

theorem colorDepth_eq
 (h : hdmiEdidVsdbColorDepthPhase data len cap = .ok cap') : cap'.videoInfo = cap.videoInfo :=
 keeps_of_ite (·.videoInfo) h fun _ => rfl

theorem maxTmdsClock_eq (h : hdmiEdidVsdbMaxTmdsClockPhase data len cap = .ok cap') :
 cap'.videoInfo = cap.videoInfo :=
 keeps_of_ite (·.videoInfo) h fun _ => rfl

theorem latency_eq {data : List UInt8} {len i : ℕ}
 {set : UInt8 → HdmiEdidExtVsdbInfo → HdmiEdidExtVsdbInfo} {cap cap' : HdmiSinkDeviceCapability}
 (h : hdmiEdidVsdbLatency data len i set cap = .ok cap') : cap'.videoInfo = cap.videoInfo :=
 keeps_of_ite (·.videoInfo) h fun _ => rfl

theorem cecPhyAddr_eq
 (h : hdmiEdidVsdbCecPhyAddrPhase data len cap = .ok cap') : cap'.videoInfo = cap.videoInfo := by
 rw [hdmiEdidVsdbCecPhyAddrPhase] at h
 by_cases hlen : len ≥ 5
 · rw [if_pos hlen, bind_eq_ok] at h
   obtain ⟨d3, -, h⟩ := h
   obtain ⟨d4, -, h⟩ := (bind_eq_ok _ _ _).mp h
   cases h
   rfl
 · rw [if_neg hlen] at h
   cases h
   rfl

theorem sinkPresent_eq (h : hdmiEdidVsdbSinkPresentPhase data len cap = .ok cap') :
 cap'.videoInfo = cap.videoInfo ∧ (8 ≤ len →
  cap'.vsdbInfo.latencyFieldsPresent = bit (peek data 7) 7 ∧
  cap'.vsdbInfo.iLatencyFieldsPresent = bit (peek data 7) 6) := by
 rw [hdmiEdidVsdbSinkPresentPhase] at h
 by_cases hlen : len ≥ 8
 · rw [if_pos hlen, bind_eq_ok] at h
   obtain ⟨d, hd, h⟩ := h
   have hlt : 7 < data.length := (returns_readAt data 7).mp ⟨d, hd⟩
   rw [readAt_of_lt hlt] at hd
   cases hd
   cases h
   exact ⟨rfl, fun _ => ⟨rfl, rfl⟩⟩
 · rw [if_neg hlen] at h
   cases h
   exact ⟨rfl, fun h => absurd h hlen⟩

theorem progressiveLatency_eq (h : hdmiEdidVsdbProgressiveLatency data len cap = .ok cap') :
 cap'.videoInfo = cap.videoInfo ∧
  cap'.vsdbInfo.iLatencyFieldsPresent = cap.vsdbInfo.iLatencyFieldsPresent := by
 rw [hdmiEdidVsdbProgressiveLatency] at h
 by_cases hpresent : cap.vsdbInfo.latencyFieldsPresent = true
 · rw [if_pos hpresent, bind_eq_ok] at h
   obtain ⟨mid, hmid, h⟩ := h
   refine ⟨(latency_eq h).trans (latency_eq hmid), ?_⟩
   exact (keeps_of_ite (·.vsdbInfo.iLatencyFieldsPresent) h fun _ => rfl).trans
    (keeps_of_ite (·.vsdbInfo.iLatencyFieldsPresent) hmid fun _ => rfl)
 · rw [if_neg hpresent] at h
   cases h
   exact ⟨rfl, rfl⟩

theorem interlacedLatency_eq (h : hdmiEdidVsdbInterlacedLatency data len cap = .ok cap') :
 cap'.videoInfo = cap.videoInfo := by
 rw [hdmiEdidVsdbInterlacedLatency] at h
 by_cases hpresent : cap.vsdbInfo.iLatencyFieldsPresent = true
 · rw [if_pos hpresent, bind_eq_ok] at h
   obtain ⟨mid, hmid, h⟩ := h
   exact (latency_eq h).trans (latency_eq hmid)
 · rw [if_neg hpresent] at h
   cases h
   rfl

theorem progressiveLatency_returns : Returns (hdmiEdidVsdbProgressiveLatency data len cap) ↔
  (cap.vsdbInfo.latencyFieldsPresent = true → Has data len 9 ∧ Has data len 10) := by
 rw [hdmiEdidVsdbProgressiveLatency, returns_ite]
 by_cases hpresent : cap.vsdbInfo.latencyFieldsPresent = true
 · simp only [hpresent, if_true, forall_const]
   exact returns_bind_iff (fun _ => True) (latency_returns _ _ _ _ _) (fun _ _ => trivial)
    fun _ _ => latency_returns _ _ _ _ _
 · simp [hpresent]

theorem interlacedLatency_returns : Returns (hdmiEdidVsdbInterlacedLatency data len cap) ↔
  (cap.vsdbInfo.iLatencyFieldsPresent = true → Has data len 11 ∧ Has data len 12) := by
 rw [hdmiEdidVsdbInterlacedLatency, returns_ite]
 by_cases hpresent : cap.vsdbInfo.iLatencyFieldsPresent = true
 · simp only [hpresent, if_true, forall_const]
   exact returns_bind_iff (fun _ => True) (latency_returns _ _ _ _ _) (fun _ _ => trivial)
    fun _ _ => latency_returns _ _ _ _ _
 · simp [hpresent]

theorem has_of_lt {data : List UInt8} {len k : ℕ} (h : len < k) : Has data len k :=
 fun hk => absurd hk (Nat.not_le_of_lt h)

theorem sinkLatency_returns
 (hflags : 8 ≤ len → cap.vsdbInfo.latencyFieldsPresent = bit (peek data 7) 7 ∧
  cap.vsdbInfo.iLatencyFieldsPresent = bit (peek data 7) 6) :
 Returns (hdmiEdidVsdbSinkLatencyPhase data len cap) ↔ (8 ≤ len →
  (bit (peek data 7) 7 = true → Has data len 9 ∧ Has data len 10) ∧
  (bit (peek data 7) 6 = true → Has data len 11 ∧ Has data len 12)) := by
 have h := returns_bind_iff
  (fun cap' => cap'.vsdbInfo.iLatencyFieldsPresent = cap.vsdbInfo.iLatencyFieldsPresent)
  (progressiveLatency_returns data len cap)
  (fun cap' h => (progressiveLatency_eq data len cap cap' h).2)
  (f := hdmiEdidVsdbInterlacedLatency data len)
  (q := cap.vsdbInfo.iLatencyFieldsPresent = true → Has data len 11 ∧ Has data len 12)
  (fun cap' h => by rw [interlacedLatency_returns, h])
 rw [hdmiEdidVsdbSinkLatencyPhase, h]
 by_cases hlen : 8 ≤ len
 · rw [(hflags hlen).1, (hflags hlen).2]
   simp only [hlen, forall_const]
 · have hlt : len < 8 := Nat.lt_of_not_le hlen
   simp only [hlen, false_implies, iff_true]
   exact ⟨fun _ => ⟨has_of_lt (by omega), has_of_lt (by omega)⟩,
    fun _ => ⟨has_of_lt (by omega), has_of_lt (by omega)⟩⟩

theorem sinkLatency_eq (h : hdmiEdidVsdbSinkLatencyPhase data len cap = .ok cap') :
 cap'.videoInfo = cap.videoInfo := by
 obtain ⟨mid, hmid, h⟩ := (bind_eq_ok _ _ _).mp h
 exact (interlacedLatency_eq data len mid cap' h).trans (progressiveLatency_eq data len cap mid hmid).1

theorem vsdb_returns (hcap : cap'.videoInfo = cap.videoInfo) :
 Returns (hdmiEdidVsdbPhase data len cap') ↔ VsdbFits cap data len := by
 rw [hdmiEdidVsdbPhase, returns_ite, VsdbFits]
 by_cases hlen : len < 5
 · simp [hlen]
 have hle : 5 ≤ len := Nat.le_of_not_lt hlen
 rw [if_neg hlen]
 simp only [hle, forall_const]
 refine returns_bind_iff (fun c => c.videoInfo = cap.videoInfo) (cecPhyAddr_returns data len cap')
  (fun c h => (cecPhyAddr_eq data len cap' c h).trans hcap) fun c1 h1 => ?_
 refine returns_bind_iff (fun c => c.videoInfo = cap.videoInfo) (colorDepth_returns data len c1)
  (fun c h => (colorDepth_eq data len c1 c h).trans h1) fun c2 h2 => ?_
 refine returns_bind_iff (fun c => c.videoInfo = cap.videoInfo) (maxTmdsClock_returns data len c2)
  (fun c h => (maxTmdsClock_eq data len c2 c h).trans h2) fun c3 h3 => ?_
 refine returns_bind_iff (fun c => c.videoInfo = cap.videoInfo ∧ (8 ≤ len →
  c.vsdbInfo.latencyFieldsPresent = bit (peek data 7) 7 ∧
  c.vsdbInfo.iLatencyFieldsPresent = bit (peek data 7) 6)) (sinkPresent_returns data len c3)
  (fun c h => ⟨(sinkPresent_eq data len c3 c h).1.trans h3, (sinkPresent_eq data len c3 c h).2⟩)
  fun c4 h4 => ?_
 refine returns_bind_iff (fun c => c.videoInfo = cap.videoInfo)
  (sinkLatency_returns data len c4 h4.2)
  (fun c h => (sinkLatency_eq data len c4 c h).trans h4.1) fun c5 h5 => ?_
 exact vicAnd3d_returns data len cap c5 h5

def HfVsdbFits (data : List UInt8) (len : ℕ) : Prop :=
 7 ≤ len → 7 ≤ data.length ∧ (7 < len ∧ len ≤ 31 → 13 ≤ data.length)

theorem hfVsdb21_returns : Returns (hdmiEdidHfVsdb21Phase data cap) ↔ 13 ≤ data.length := by
 simp only [hdmiEdidHfVsdb21Phase, returns_readAt_bind, returns_pure, and_true]
 omega

theorem hfVsdb_returns : Returns (hdmiEdidHfVsdbPhase data len cap) ↔ HfVsdbFits data len := by
 simp only [hdmiEdidHfVsdbPhase, HfVsdbFits, returns_ite, returns_readAt_bind, hfVsdb21_returns,
  returns_pure]
 by_cases hlen : len < 7
 · simp [hlen]
 have hle : 7 ≤ len := Nat.le_of_not_lt hlen
 by_cases h21 : 7 < len ∧ len ≤ 31
 · simp only [hlen, hle, h21, if_true, if_false, forall_const, and_self]
   omega
 · simp only [hlen, hle, h21, if_false, forall_const, false_implies, and_true]
   omega

def MatchReach (data : List UInt8) : ℕ → List UInt8 → Prop
 | _, [] => True
 | i, expected :: rest =>
  i < data.length ∧ (peek data i = expected → MatchReach data (i + 1) rest)

theorem matchesAt_returns (expected : List UInt8) :
 Returns (matchesAt data i expected) ↔ MatchReach data i expected := by
 induction expected generalizing i with
 | nil => simp [matchesAt, MatchReach]
 | cons e rest ih =>
  rw [matchesAt, returns_readAt_bind, returns_ite, ih, MatchReach]
  by_cases h : peek data i = e <;> simp [h]

def Matches (data : List UInt8) : ℕ → List UInt8 → Prop
 | _, [] => True
 | i, expected :: rest => peek data i = expected ∧ Matches data (i + 1) rest

theorem matchesAt_eq (expected : List UInt8) (b : Bool)
 (h : matchesAt data i expected = .ok b) : b = true ↔ Matches data i expected := by
 induction expected generalizing i with
 | nil =>
  cases h
  simp [Matches]
 | cons e rest ih =>
  rw [matchesAt, bind_eq_ok] at h
  obtain ⟨d, hd, h⟩ := h
  have hlt : i < data.length := (returns_readAt data i).mp ⟨d, hd⟩
  rw [readAt_of_lt hlt] at hd
  cases hd
  rw [Matches]
  by_cases he : peek data i = e
  · rw [if_pos he] at h
    rw [ih (i + 1) h]
    simp [he]
  · rw [if_neg he] at h
    cases h
    simp [he]

def vsdbIeee : List UInt8 := [0x03, 0x0c, 0x00]

def hfVsdbIeee : List UInt8 := [0xd8, 0x5d, 0xc4]

def VsFits (cap : HdmiSinkDeviceCapability) (data : List UInt8) (len : ℕ) : Prop :=
 3 ≤ len → MatchReach data 0 vsdbIeee ∧ MatchReach data 0 hfVsdbIeee ∧
  (Matches data 0 vsdbIeee → VsdbFits cap data len) ∧
  (Matches data 0 hfVsdbIeee → HfVsdbFits data len)

theorem vsDataBlock_returns :
 Returns (hdmiEdidExtVsDataBlockPhase data len cap) ↔ VsFits cap data len := by
 rw [hdmiEdidExtVsDataBlockPhase, returns_ite, VsFits]
 by_cases hlen : len < 3
 · simp [hlen]
 have hle : 3 ≤ len := Nat.le_of_not_lt hlen
 rw [if_neg hlen]
 simp only [hle, forall_const]
 refine returns_bind_iff (fun b => b = true ↔ Matches data 0 vsdbIeee)
  (matchesAt_returns data 0 vsdbIeee) (matchesAt_eq data 0 vsdbIeee) fun vsdb hvsdb => ?_
 refine returns_bind_iff (fun b => b = true ↔ Matches data 0 hfVsdbIeee)
  (matchesAt_returns data 0 hfVsdbIeee) (matchesAt_eq data 0 hfVsdbIeee) fun hf hhf => ?_
 have hdisjoint : Matches data 0 vsdbIeee → ¬ Matches data 0 hfVsdbIeee := by
  rintro ⟨h, -⟩ ⟨h', -⟩
  rw [h] at h'
  exact absurd h' (by decide)
 rw [returns_ite, returns_ite, vsdb_returns data len cap { cap with supportHdmi14 := true } rfl,
  hfVsdb_returns, ← hvsdb, ← hhf]
 rw [← hvsdb, ← hhf] at hdisjoint
 by_cases h1 : vsdb = true
 · simp [h1, hdisjoint h1]
 · simp [h1]

theorem speaker_returns :
 Returns (hdmiEdidExtSpeakerDataBlockPhase data len cap) ↔ (2 ≤ len → 2 ≤ data.length) := by
 rw [hdmiEdidExtSpeakerDataBlockPhase, returns_ite]
 by_cases hlen : len < 2
 · simp [hlen]
 have hle : 2 ≤ len := Nat.le_of_not_lt hlen
 have hfirst := returns_setFlags (peek data 0)
  [(0, 0), (1, 1), (2, 2), (3, 3), (4, 4), (5, 5), (6, 6), (7, 7)] cap.supportAudioSpeaker
  (by decide)
 rw [if_neg hlen, returns_readAt_bind, returns_bind_iff (fun _ => True)
  (iff_true_intro hfirst) (fun _ _ => trivial) (q := 1 < data.length)]
 · simp only [hle, forall_const, true_and]
   omega
 · intro table _
   rw [returns_readAt_bind, returns_bind_pure]
   exact and_iff_left (returns_setFlags _ _ _ (by decide))

theorem vcdb_returns :
 Returns (hdmiEdidExtUseExtDataBlockVcdbPhase data len cap) ↔ (2 ≤ len → 2 ≤ data.length) := by
 simp only [hdmiEdidExtUseExtDataBlockVcdbPhase, returns_ite, returns_readAt_bind, returns_pure,
  and_true]
 by_cases hlen : len < 2
 · simp [hlen]
 · have hle : 2 ≤ len := Nat.le_of_not_lt hlen
   simp only [hlen, hle, if_false, forall_const]
   omega

theorem cdb_returns :
 Returns (hdmiEdidExtUseExtDataBlockCdbPhase data len cap) ↔ (3 ≤ len → 3 ≤ data.length) := by
 simp only [hdmiEdidExtUseExtDataBlockCdbPhase, returns_ite, returns_readAt_bind, returns_pure,
  and_true]
 by_cases hlen : len < 3
 · simp [hlen]
 · have hle : 3 ≤ len := Nat.le_of_not_lt hlen
   simp only [hlen, hle, if_false, forall_const]
   omega

theorem hdrByte_returns
 (set : UInt8 → HdmiEdidHdrCap → HdmiEdidHdrCap) (cap : HdmiSinkDeviceCapability) :
 Returns (hdmiEdidHdrByte data len i set cap) ↔ Has data len (i + 1) := by
 rw [hdmiEdidHdrByte, returns_ite, ← has_iff]
 simp only [returns_readAt_bind, returns_pure, and_true]

theorem hdrSmdb_returns : Returns (hdmiEdidExtUseExtDataBlockHdrSmdbPhase data len cap) ↔
  (3 ≤ len → min len 6 ≤ data.length) := by
 rw [hdmiEdidExtUseExtDataBlockHdrSmdbPhase, returns_ite]
 by_cases hlen : len < 3
 · simp [hlen]
 rw [if_neg hlen, returns_readAt_bind, returns_readAt_bind, returns_bind_iff (fun _ => True)
  (hdrByte_returns _ _ _ _ _) (fun _ _ => trivial) (q := Has data len 5 ∧ Has data len 6)]
 · simp only [Has]
   omega
 · intro c _
   exact returns_bind_iff (fun _ => True) (hdrByte_returns _ _ _ _ _) (fun _ _ => trivial)
    fun _ _ => hdrByte_returns _ _ _ _ _

def y420VdbReach (cap : HdmiSinkDeviceCapability) (data : List UInt8) (len : ℕ) : ℕ :=
 roundsOf hdmiEdidExtensionMaxVicCount (fun i => y420Vic (peek data i)) (len - 1) 1
  cap.y420Cap.onlySupportY420VicNum

theorem y420Vic_returns (hlt : cap.y420Cap.onlySupportY420VicNum < hdmiEdidExtensionMaxVicCount) :
 Returns (hdmiEdidY420Vic data i cap) ↔ i < data.length := by
 simp only [hdmiEdidY420Vic, returns_readAt_bind, returns_ite, returns_bind_pure, returns_writeAt,
  returns_pure, hlt, ite_self, and_true]

theorem y420Vic_eq (h : hdmiEdidY420Vic data i cap = .ok cap') :
 cap'.y420Cap.onlySupportY420VicNum =
  cap.y420Cap.onlySupportY420VicNum + if y420Vic (peek data i) = true then 1 else 0 := by
 rw [hdmiEdidY420Vic, bind_eq_ok] at h
 obtain ⟨d, hd, h⟩ := h
 have hlt : i < data.length := (returns_readAt data i).mp ⟨d, hd⟩
 rw [readAt_of_lt hlt] at hd
 cases hd
 by_cases hv : y420Vic (peek data i) = true
 · rw [if_pos hv, bind_eq_ok] at h
   obtain ⟨table, -, h⟩ := h
   cases h
   rw [if_pos hv]
 · rw [if_neg hv] at h
   cases h
   rw [if_neg hv]
   rfl

theorem y420Vdb_returns : Returns (hdmiEdidExtUseExtDataBlockY420VdbPhase data len cap) ↔
  ∀ i < y420VdbReach cap data len, 1 + i < data.length := by
 rw [hdmiEdidExtUseExtDataBlockY420VdbPhase]
 exact returns_forLoop (fun cap => cap.y420Cap.onlySupportY420VicNum) hdmiEdidExtensionMaxVicCount
  (fun i => y420Vic (peek data i)) (fun i => i < data.length) (fun _ _ => True)
  (fun cap => decide_eq_true_iff) (fun i cap _ => y420Vic_returns data i cap)
  (fun i cap cap' _ _ h => ⟨trivial, y420Vic_eq data i cap cap' h⟩) (len - 1) 1 cap trivial

def cmdbReach (cap : HdmiSinkDeviceCapability) (data : List UInt8) (len : ℕ) : ℕ :=
 roundsOf hdmiEdidExtensionMaxVicCount (fun i => bit (peek data (i / 8 + 1)) (i % 8))
  (min (min (len * 8) hdmiEdidExtensionMaxVicCount) cap.videoInfo.vicNum) 0
  cap.y420Cap.supportY420VicNum

/-- The bit for SVD `i` is looked for in byte `i / 8 + 1`, up to `i = 8 * len - 1`. -/
def Y420CmdbFits (cap : HdmiSinkDeviceCapability) (data : List UInt8) (len : ℕ) : Prop :=
 len ≠ 1 → ∀ i < cmdbReach cap data len, i / 8 + 1 < data.length

theorem supportY420_returns {selected : ℕ → Run Bool} {i : ℕ} {p : Prop} {b : Bool}
 (cap : HdmiSinkDeviceCapability)
 (hlt : cap.y420Cap.supportY420VicNum < hdmiEdidExtensionMaxVicCount)
 (hsel : Returns (selected i) ↔ p) (hb : ∀ c, selected i = .ok c → c = b) :
 Returns (hdmiEdidSupportY420 selected i cap) ↔
  p ∧ (b = true → i < hdmiEdidExtensionMaxVicCount) := by
 refine returns_bind_iff (fun c => c = b) hsel hb ?_
 rintro c rfl
 simp only [returns_ite, returns_entryAt_bind, returns_bind_pure, returns_writeAt, returns_pure,
  hlt, exists_prop, and_true]
 split <;> simp_all

theorem supportY420_eq {selected : ℕ → Run Bool} {i : ℕ} {b : Bool}
 (cap cap' : HdmiSinkDeviceCapability) (hb : ∀ c, selected i = .ok c → c = b)
 (h : hdmiEdidSupportY420 selected i cap = .ok cap') :
 cap'.y420Cap.supportY420VicNum =
  cap.y420Cap.supportY420VicNum + if b = true then 1 else 0 := by
 rw [hdmiEdidSupportY420, bind_eq_ok] at h
 obtain ⟨c, hc, h⟩ := h
 obtain rfl := hb c hc
 by_cases hv : c = true
 · rw [if_pos hv, bind_eq_ok] at h
   obtain ⟨vic, -, h⟩ := h
   obtain ⟨table, -, h⟩ := (bind_eq_ok _ _ _).mp h
   cases h
   rw [if_pos hv]
 · rw [if_neg hv] at h
   cases h
   rw [if_neg hv]
   rfl

theorem capabilityBit_returns :
 Returns (hdmiEdidCapabilityBit data i) ↔ i / 8 + 1 < data.length := by
 rw [hdmiEdidCapabilityBit, returns_bind_pure, returns_readAt]

theorem capabilityBit_eq (c : Bool)
 (h : hdmiEdidCapabilityBit data i = .ok c) : c = bit (peek data (i / 8 + 1)) (i % 8) := by
 rw [hdmiEdidCapabilityBit, bind_eq_ok] at h
 obtain ⟨d, hd, h⟩ := h
 have hlt : i / 8 + 1 < data.length := (returns_readAt data _).mp ⟨d, hd⟩
 rw [readAt_of_lt hlt] at hd
 cases hd
 cases h
 rfl

theorem y420Cmdb_returns :
 Returns (hdmiEdidExtUseExtDataBlockY420CmdbPhase data len cap) ↔ Y420CmdbFits cap data len := by
 have hround (i : ℕ) (hi : i < 0 + hdmiEdidExtensionMaxVicCount) (p : Prop) (b : Bool) :
  p ∧ (b = true → i < hdmiEdidExtensionMaxVicCount) ↔ p := by
  rw [Nat.zero_add] at hi
  exact and_iff_left fun _ => hi
 rw [hdmiEdidExtUseExtDataBlockY420CmdbPhase, returns_ite, Y420CmdbFits]
 by_cases hlen : len = 1
 · have hall (c : Bool) (h : (pure true : Run Bool) = .ok c) : c = true := by
    cases h
    rfl
   rw [if_pos hlen, returns_forLoop (fun cap => cap.y420Cap.supportY420VicNum)
    hdmiEdidExtensionMaxVicCount (fun _ => true)
    (fun i => True ∧ (true = true → i < hdmiEdidExtensionMaxVicCount)) (fun _ _ => True)
    (fun cap => decide_eq_true_iff)
    (fun i cap _ hlt => supportY420_returns cap hlt (iff_true_intro (returns_pure true)) hall)
    (fun i cap cap' _ _ h => ⟨trivial, supportY420_eq cap cap' hall h⟩) _ _ _ trivial]
   simp only [hlen, ne_eq, not_true_eq_false, false_implies, iff_true]
   intro i hi
   have hle := roundsOf_le hdmiEdidExtensionMaxVicCount (fun _ => true)
    (min cap.videoInfo.vicNum hdmiEdidExtensionMaxVicCount) 0 cap.y420Cap.supportY420VicNum
   exact ⟨trivial, fun _ => ((hround (0 + i) (by omega) True true).mpr trivial).2 rfl⟩
 · rw [if_neg hlen, returns_forLoop (fun cap => cap.y420Cap.supportY420VicNum)
    hdmiEdidExtensionMaxVicCount (fun i => bit (peek data (i / 8 + 1)) (i % 8))
    (fun i => i / 8 + 1 < data.length ∧
     (bit (peek data (i / 8 + 1)) (i % 8) = true → i < hdmiEdidExtensionMaxVicCount))
    (fun _ _ => True) (fun cap => decide_eq_true_iff)
    (fun i cap _ hlt =>
     supportY420_returns cap hlt (capabilityBit_returns data i) (capabilityBit_eq data i))
    (fun i cap cap' _ _ h => ⟨trivial, supportY420_eq cap cap' (capabilityBit_eq data i) h⟩)
    _ _ _ trivial]
   simp only [ne_eq, hlen, not_false_eq_true, forall_const]
   refine forall₂_congr fun i hi => ?_
   have hle := roundsOf_le hdmiEdidExtensionMaxVicCount
    (fun i => bit (peek data (i / 8 + 1)) (i % 8))
    (min (min (len * 8) hdmiEdidExtensionMaxVicCount) cap.videoInfo.vicNum) 0
    cap.y420Cap.supportY420VicNum
   rw [hround (0 + i) (by omega), Nat.zero_add]

def VsvdbFits (data : List UInt8) (len : ℕ) : Prop :=
 len = 27 ∨ len = 14 → 4 ≤ data.length ∧
  (dolbyOui (peek data 1) (peek data 2) (peek data 3) = 0x00d046 → 5 ≤ data.length ∧
   (dolbyVersion (peek data 4) = 0 → 21 ≤ data.length) ∧
   (dolbyVersion (peek data 4) = 1 → 14 ≤ data.length))

theorem dolbyVersionZero_returns :
 Returns (hdmiEdidDolbyCapVersionZeroPhase data cap) ↔ 21 ≤ data.length := by
 simp only [hdmiEdidDolbyCapVersionZeroPhase, returns_readAt_bind, returns_pure, and_true]
 omega

theorem dolbyVersionOne_returns :
 Returns (hdmiEdidDolbyCapVersionOnePhase data cap) ↔ 14 ≤ data.length := by
 simp only [hdmiEdidDolbyCapVersionOnePhase, returns_readAt_bind, returns_pure, and_true]
 omega

theorem vsvdb_returns :
 Returns (hdmiEdidExtUseExtDataBlockVsvdbPhase data len cap) ↔ VsvdbFits data len := by
 simp only [hdmiEdidExtUseExtDataBlockVsvdbPhase, VsvdbFits, returns_ite, returns_readAt_bind,
  dolbyVersionZero_returns, dolbyVersionOne_returns, returns_pure]
 by_cases hlen : len = 27 ∨ len = 14
 · have hnot : ¬ (len ≠ 27 ∧ len ≠ 14) := by omega
   simp only [hnot, hlen, if_false, forall_const]
   have h4 (p : Prop) :
    1 < data.length ∧ 2 < data.length ∧ 3 < data.length ∧ p ↔ 4 ≤ data.length ∧ p := by
    constructor
    · rintro ⟨-, -, h, hp⟩
      exact ⟨h, hp⟩
    · rintro ⟨h, hp⟩
      exact ⟨by omega, by omega, h, hp⟩
   rw [h4]
   apply and_congr_right
   intro _
   by_cases houi : dolbyOui (peek data 1) (peek data 2) (peek data 3) = 0x00d046
   · rw [if_neg (not_not_intro houi)]
     simp only [houi, forall_const]
     apply and_congr_right
     intro _
     by_cases h0 : dolbyVersion (peek data 4) = 0
     · simp [h0]
     · simp only [h0, if_false, false_implies, true_and]
       split <;> simp_all
   · simp [houi]
 · have hyes : len ≠ 27 ∧ len ≠ 14 := by omega
   simp [hyes]

def UseExtFits (cap : HdmiSinkDeviceCapability) (data : List UInt8) (len : ℕ) : Prop :=
 1 ≤ data.length ∧
  (peek data 0 = 0 → 2 ≤ len → 2 ≤ data.length) ∧
  (peek data 0 = 1 → VsvdbFits data len) ∧
  (peek data 0 = 5 → 3 ≤ len → 3 ≤ data.length) ∧
  (peek data 0 = 6 → 3 ≤ len → min len 6 ≤ data.length) ∧
  (peek data 0 = 14 → ∀ i < y420VdbReach cap data len, 1 + i < data.length) ∧
  (peek data 0 = 15 → Y420CmdbFits cap data len)

theorem useExt_returns :
 Returns (hdmiEdidExtUseExtDataBlockPhase data len cap) ↔ UseExtFits cap data len := by
 simp only [hdmiEdidExtUseExtDataBlockPhase, returns_readAt_bind, returns_ite, vcdb_returns,
  vsvdb_returns, cdb_returns, hdrSmdb_returns, y420Vdb_returns, y420Cmdb_returns, returns_pure,
  UseExtFits]
 apply and_congr Nat.lt_iff_add_one_le
 by_cases h0 : peek data 0 = 0
 · simp [h0]
 by_cases h1 : peek data 0 = 1
 · simp [h1]
 by_cases h5 : peek data 0 = 5
 · simp [h5]
 by_cases h6 : peek data 0 = 6
 · simp [h6]
 by_cases h14 : peek data 0 = 14
 · simp [h14]
 by_cases h15 : peek data 0 = 15
 · simp [h15]
 simp [h0, h1, h5, h6, h14, h15]

def BlockFits (cap : HdmiSinkDeviceCapability) (data : List UInt8) (len : ℕ) (tag : UInt8) :
  Prop :=
 len ≠ 0 →
  (tag = 1 → AudioFits cap data len) ∧
  (tag = 2 → vdbReach cap data len ≤ data.length) ∧
  (tag = 3 → VsFits cap data len) ∧
  (tag = 4 → 2 ≤ len → 2 ≤ data.length) ∧
  (tag = 7 → UseExtFits cap data len)

theorem extDataBlock_returns (tag : UInt8) (cap : HdmiSinkDeviceCapability) :
 Returns (hdmiEdidExtDataBlockPhase data len tag cap) ↔ BlockFits cap data len tag := by
 rw [hdmiEdidExtDataBlockPhase, returns_ite, BlockFits]
 by_cases hlen : len = 0
 · simp [hlen]
 simp only [hlen, if_false, ne_eq, not_false_eq_true, forall_const, returns_ite, returns_bind_pure,
  hdmiEdidExtDataBlock, audio_returns, video_returns, vsDataBlock_returns, speaker_returns,
  useExt_returns, returns_pure]
 by_cases h1 : tag = 1
 · simp [h1]
 by_cases h2 : tag = 2
 · simp [h2]
 by_cases h3 : tag = 3
 · simp [h3]
 by_cases h4 : tag = 4
 · simp [h4]
 by_cases h7 : tag = 7
 · simp [h7]
 simp [h1, h2, h3, h4, h7]

section Whole
variable {data : List UInt8} {len : ℕ} (hwhole : data.length = len)

include hwhole

end Whole

end DriversFramework.HdmiEdid
