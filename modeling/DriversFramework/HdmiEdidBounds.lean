import DriversFramework.HdmiEdidPhase

namespace DriversFramework.HdmiEdid

open CheckedAccess Relation

inductive Point where
 /-- At the head of the loop of `HdmiEdidPhase`. -/
 | ext (blockNum : ℕ)
 /-- At the head of the data block loop. -/
 | block (blockNum dtdOffset blkOffset pos : ℕ)
 /-- At the head of the detailed timing loop. -/
 | timing (blockNum blkOffset pos : ℕ)

abbrev State := Point × HdmiSinkDeviceCapability

/-- `blockNum` is decoded: it is one of the blocks there are, and its checksum is right. -/
def Decodes (raw : EdidRaw) (n : ℕ) (cap : HdmiSinkDeviceCapability) : Prop :=
 n ≤ cap.extBlockNum.toNat ∧ n < hdmiEdidMaxBlockNum ∧
  hdmiEdidBlockCheckSum (raw.bytes.drop (n * hdmiEdidSingleBlockSize)) = .ok .success

def blockByte (raw : EdidRaw) (n k : ℕ) : UInt8 :=
 peek (raw.bytes.drop (n * hdmiEdidSingleBlockSize)) k

/-- The bytes behind the header at `pos` that belong to its data block and to the raw array. -/
def payload (raw : EdidRaw) (pos : ℕ) : List UInt8 :=
 window raw.bytes (pos + 1) (blkLen (peek raw.bytes pos))

def decodeBlock (raw : EdidRaw) (pos : ℕ) (cap : HdmiSinkDeviceCapability) :
  Run (HdfStatus × HdmiSinkDeviceCapability) :=
 hdmiEdidExtDataBlockPhase (payload raw pos) (blkLen (peek raw.bytes pos))
  (dbTagCode (peek raw.bytes pos)) cap

inductive Next (raw : EdidRaw) : State → State → Prop where
 | empty {n : ℕ} {cap : HdmiSinkDeviceCapability} (h : Decodes raw n cap)
   (hd2 : blockByte raw n 2 < 4) : Next raw (.ext n, cap) (.ext (n + 1), cap)
 | enter {n : ℕ} {cap : HdmiSinkDeviceCapability} (h : Decodes raw n cap)
   (hd2 : ¬ blockByte raw n 2 < 4) :
   Next raw (.ext n, cap)
    (.block n (blockByte raw n 2).toNat 4 (n * hdmiEdidSingleBlockSize + 4),
     hdmiEdidExtBlockFlags (blockByte raw n 3) cap)
 | decoded {n dtd off pos : ℕ} {cap cap' : HdmiSinkDeviceCapability} (hoff : off < dtd)
   (h : decodeBlock raw pos cap = .ok (.success, cap')) :
   Next raw (.block n dtd off pos, cap)
    (.block n dtd ((off + (blkLen (peek raw.bytes pos) + 1)) % 256)
     (pos + 1 + blkLen (peek raw.bytes pos)), cap')
 | refused {n dtd off pos : ℕ} {ret : HdfStatus} {cap cap' : HdmiSinkDeviceCapability}
   (hoff : off < dtd) (h : decodeBlock raw pos cap = .ok (ret, cap')) (hret : ret ≠ .success) :
   Next raw (.block n dtd off pos, cap) (.ext (n + 1), cap')
 | timings {n dtd off pos : ℕ} {cap : HdmiSinkDeviceCapability} (hoff : ¬ off < dtd) :
   Next raw (.block n dtd off pos, cap) (.timing n off pos, cap)
 | timing {n off pos : ℕ} {cap cap' : HdmiSinkDeviceCapability}
   (hoff : off + detailedTimingLen ≤ 127)
   (h : hdmiEdidDetailedTiming (window raw.bytes pos detailedTimingLen) cap = .ok cap') :
   Next raw (.timing n off pos, cap)
    (.timing n ((off + detailedTimingLen) % 256) (pos + detailedTimingLen), cap')
 | leave {n off pos : ℕ} {cap : HdmiSinkDeviceCapability}
   (hoff : ¬ off + detailedTimingLen ≤ 127) :
   Next raw (.timing n off pos, cap) (.ext (n + 1), cap)

/-- What is looked at next lies in the raw array, and in its data block. -/
def Fits (raw : EdidRaw) : State → Prop
 | (.ext _, _) => True
 | (.block _ dtd off pos, cap) => off < dtd → pos < 512 ∧
   BlockFits cap (payload raw pos) (blkLen (peek raw.bytes pos)) (dbTagCode (peek raw.bytes pos))
 | (.timing _ off pos, _) => off + detailedTimingLen ≤ 127 → pos < 512

/-- The states the decoding comes to after the first block. -/
def Reached (raw : EdidRaw) (cap : HdmiSinkDeviceCapability) (s : State) : Prop :=
 ∃ cap', hdmiEdidFirstBlockPhase raw cap = .ok (.success, cap') ∧
  ReflTransGen (Next raw) (.ext 1, cap') s

def Ends (raw : EdidRaw) : State → Prop
 | (.ext n, cap) => ∃ inner rounds, Returns (hdmiEdidExtBlocks raw inner rounds n cap)
 | (.block n dtd off pos, cap) => ∃ rounds cap', hdmiEdidDataBlocks raw dtd rounds off pos cap =
   .ok cap' ∧ ∃ inner rounds, Returns (hdmiEdidExtBlocks raw inner rounds (n + 1) cap')
 | (.timing n off pos, cap) => ∃ rounds cap', hdmiEdidDetailedTimings raw rounds off pos cap =
   .ok cap' ∧ ∃ inner rounds, Returns (hdmiEdidExtBlocks raw inner rounds (n + 1) cap')

variable {cap cap' : HdmiSinkDeviceCapability}

section Rounds
variable {raw : EdidRaw}

theorem detailedTimings_mono {k k' off pos : ℕ}
  (h : hdmiEdidDetailedTimings raw k off pos cap = .ok cap') (hk : k ≤ k') :
  hdmiEdidDetailedTimings raw k' off pos cap = .ok cap' := by
 induction k generalizing k' off pos cap with
 | zero => cases h
 | succ k ih =>
  cases k' with
  | zero => omega
  | succ k' =>
   rw [hdmiEdidDetailedTimings] at h ⊢
   by_cases hoff : off + detailedTimingLen ≤ 127
   · rw [if_pos hoff, bind_eq_ok] at h ⊢
     obtain ⟨c, hc, h⟩ := h
     exact ⟨c, hc, ih h (by omega)⟩
   · rw [if_neg hoff] at h ⊢
     exact h

theorem dataBlocks_mono {dtd k k' off pos : ℕ}
  (h : hdmiEdidDataBlocks raw dtd k off pos cap = .ok cap') (hk : k ≤ k') :
  hdmiEdidDataBlocks raw dtd k' off pos cap = .ok cap' := by
 induction k generalizing k' off pos cap with
 | zero => cases h
 | succ k ih =>
  cases k' with
  | zero => omega
  | succ k' =>
   rw [hdmiEdidDataBlocks] at h ⊢
   by_cases hoff : off < dtd
   · rw [if_pos hoff, bind_eq_ok] at h ⊢
     obtain ⟨header, hheader, h⟩ := h
     refine ⟨header, hheader, ?_⟩
     rw [bind_eq_ok] at h ⊢
     obtain ⟨r, hr, h⟩ := h
     refine ⟨r, hr, ?_⟩
     by_cases hret : r.1 ≠ .success
     · rw [if_pos hret] at h ⊢
       exact h
     · rw [if_neg hret] at h ⊢
       exact ih h (by omega)
   · rw [if_neg hoff] at h ⊢
     exact detailedTimings_mono h hk

theorem extBlockPhase_mono {k k' n : ℕ}
  {r : HdfStatus × HdmiSinkDeviceCapability} (h : hdmiEdidExtBlockPhase raw k n cap = .ok r)
  (hk : k ≤ k') : hdmiEdidExtBlockPhase raw k' n cap = .ok r := by
 rw [hdmiEdidExtBlockPhase] at h ⊢
 by_cases hn : n ≥ hdmiEdidMaxBlockNum
 · rw [if_pos hn] at h ⊢
   exact h
 rw [if_neg hn, bind_eq_ok] at h ⊢
 obtain ⟨ret, hret, h⟩ := h
 refine ⟨ret, hret, ?_⟩
 by_cases hok : ret ≠ .success
 · rw [if_pos hok] at h ⊢
   exact h
 rw [if_neg hok, bind_eq_ok] at h ⊢
 obtain ⟨tag, htag, h⟩ := h
 refine ⟨tag, htag, ?_⟩
 rw [bind_eq_ok] at h ⊢
 obtain ⟨rev, hrev, h⟩ := h
 refine ⟨rev, hrev, ?_⟩
 rw [bind_eq_ok] at h ⊢
 obtain ⟨d2, hd2, h⟩ := h
 refine ⟨d2, hd2, ?_⟩
 by_cases hlow : d2 < 4
 · rw [if_pos hlow] at h ⊢
   exact h
 rw [if_neg hlow, bind_eq_ok] at h ⊢
 obtain ⟨d3, hd3, h⟩ := h
 refine ⟨d3, hd3, ?_⟩
 rw [bind_eq_ok] at h ⊢
 obtain ⟨c, hc, h⟩ := h
 refine ⟨c, ?_, h⟩
 rw [hdmiEdidExtSeveralDataBlockPhase, bind_eq_ok] at hc ⊢
 obtain ⟨dtd, hdtd, hc⟩ := hc
 exact ⟨dtd, hdtd, dataBlocks_mono hc hk⟩

theorem extBlocks_mono {inner inner' k k' n : ℕ}
  {r : HdfStatus × HdmiSinkDeviceCapability} (h : hdmiEdidExtBlocks raw inner k n cap = .ok r)
  (hinner : inner ≤ inner') (hk : k ≤ k') :
  hdmiEdidExtBlocks raw inner' k' n cap = .ok r := by
 induction k generalizing k' n cap with
 | zero => cases h
 | succ k ih =>
  cases k' with
  | zero => omega
  | succ k' =>
   rw [hdmiEdidExtBlocks] at h ⊢
   by_cases hn : n ≤ cap.extBlockNum.toNat
   · rw [if_pos hn, bind_eq_ok] at h ⊢
     obtain ⟨s, hs, h⟩ := h
     refine ⟨s, extBlockPhase_mono hs hinner, ?_⟩
     by_cases hok : s.1 ≠ .success
     · rw [if_pos hok] at h ⊢
       exact h
     · rw [if_neg hok] at h ⊢
       exact ih h (by omega)
   · rw [if_neg hn] at h ⊢
     exact h

end Rounds

section Step
variable {raw : EdidRaw}

theorem extBlockPhase_of_decodes {n : ℕ} (h : Decodes raw n cap)
  (k : ℕ) : hdmiEdidExtBlockPhase raw k n cap =
   if blockByte raw n 2 < 4 then pure (.success, cap)
   else (do
    let cap ← hdmiEdidDataBlocks raw (blockByte raw n 2).toNat k 4
     (n * hdmiEdidSingleBlockSize + 4) (hdmiEdidExtBlockFlags (blockByte raw n 3) cap)
    pure (.success, cap)) := by
 obtain ⟨-, hn, hsum⟩ := h
 have hn4 : n < 4 := hn
 have hlen := raw.length_eq
 have hdrop : (raw.bytes.drop (n * hdmiEdidSingleBlockSize)).length = 512 - n * 128 := by
  rw [List.length_drop, hlen]
  rfl
 have hread (i : ℕ) (hi : i < 128) : readAt (raw.bytes.drop (n * hdmiEdidSingleBlockSize)) i =
   .ok (blockByte raw n i) := readAt_of_lt (by omega)
 have hdtd : readAt raw.bytes (n * hdmiEdidSingleBlockSize + 2) = .ok (blockByte raw n 2) := by
  rw [blockByte, peek_drop]
  apply readAt_of_lt
  rw [hlen, hdmiEdidSingleBlockSize]
  omega
 rw [hdmiEdidExtBlockPhase, if_neg (Nat.not_le_of_lt hn)]
 simp only [hsum, hread 0 (by decide), hread 1 (by decide), hread 2 (by decide),
  hread 3 (by decide), hdmiEdidExtSeveralDataBlockPhase, hdtd]
 rfl

theorem extBlockPhase_of_not_decodes {n : ℕ}
  (hn : n ≤ cap.extBlockNum.toNat) (h : ¬ Decodes raw n cap) (k : ℕ) :
  ∃ ret, ret ≠ .success ∧ hdmiEdidExtBlockPhase raw k n cap = .ok (ret, cap) := by
 by_cases hmax : n < hdmiEdidMaxBlockNum
 · have hn4 : n < 4 := hmax
   have hlen := raw.length_eq
   have hdrop : 128 ≤ (raw.bytes.drop (n * hdmiEdidSingleBlockSize)).length := by
    rw [List.length_drop, hlen, hdmiEdidSingleBlockSize]
    omega
   obtain ⟨ret, hret⟩ := returns_blockCheckSum _ hdrop
   have hne : ret ≠ .success := by
    rintro rfl
    exact h ⟨hn, hmax, hret⟩
   refine ⟨ret, hne, ?_⟩
   rw [hdmiEdidExtBlockPhase, if_neg (Nat.not_le_of_lt hmax), bind_eq_ok]
   refine ⟨ret, hret, ?_⟩
   rw [if_pos hne]
   rfl
 · refine ⟨.errInvalidParam, by decide, ?_⟩
   rw [hdmiEdidExtBlockPhase, if_pos (Nat.le_of_not_lt hmax)]
   rfl

theorem extBlocks_returns {n : ℕ} (h : Decodes raw n cap)
  (inner rounds : ℕ) : Returns (hdmiEdidExtBlocks raw inner (rounds + 1) n cap) ↔
   ∃ cap', hdmiEdidExtBlockPhase raw inner n cap = .ok (.success, cap') ∧
    Returns (hdmiEdidExtBlocks raw inner rounds (n + 1) cap') := by
 rw [hdmiEdidExtBlocks, if_pos h.1, returns_bind]
 constructor
 · rintro ⟨⟨ret, cap'⟩, hr, hrest⟩
   have hret : ret = .success := by
    rw [extBlockPhase_of_decodes h] at hr
    split at hr
    · cases hr
      rfl
    · obtain ⟨c, -, hr⟩ := (bind_eq_ok _ _ _).mp hr
      cases hr
      rfl
   subst hret
   exact ⟨cap', hr, hrest⟩
 · rintro ⟨cap', hr, hrest⟩
   exact ⟨(.success, cap'), hr, hrest⟩

theorem dataBlocks_eq {dtd rounds off pos : ℕ} (hoff : off < dtd) (hpos : pos < 512) :
  hdmiEdidDataBlocks raw dtd (rounds + 1) off pos cap = .ok cap' ↔
   ∃ r, decodeBlock raw pos cap = .ok r ∧
    (if r.1 ≠ .success then pure r.2
    else hdmiEdidDataBlocks raw dtd rounds ((off + (blkLen (peek raw.bytes pos) + 1)) % 256)
     (pos + 1 + blkLen (peek raw.bytes pos)) r.2) = .ok cap' := by
 rw [hdmiEdidDataBlocks, if_pos hoff, readAt_of_lt (by rw [raw.length_eq]; exact hpos)]
 exact bind_eq_ok (decodeBlock raw pos cap) _ _

theorem pos_lt_of_dataBlocks {dtd rounds off pos : ℕ}
  (hoff : off < dtd) (h : hdmiEdidDataBlocks raw dtd rounds off pos cap = .ok cap') :
  pos < 512 := by
 cases rounds with
 | zero => cases h
 | succ rounds =>
  rw [hdmiEdidDataBlocks, if_pos hoff] at h
  have hread := ((returns_readAt_bind _ _ _).mp ⟨cap', h⟩).1
  rwa [raw.length_eq] at hread

variable {s : State}

theorem ends_next {t : State} (h : Next raw s t) (hs : Ends raw s) : Ends raw t := by
 cases h with
 | @empty n cap h hd2 =>
  obtain ⟨inner, rounds, hs⟩ := hs
  cases rounds with
  | zero => exact absurd hs (not_returns_error _)
  | succ rounds =>
   obtain ⟨cap', hr, hrest⟩ := (extBlocks_returns h inner rounds).mp hs
   rw [extBlockPhase_of_decodes h, if_pos hd2] at hr
   cases hr
   exact ⟨inner, rounds, hrest⟩
 | @enter n cap h hd2 =>
  obtain ⟨inner, rounds, hs⟩ := hs
  cases rounds with
  | zero => exact absurd hs (not_returns_error _)
  | succ rounds =>
   obtain ⟨cap', hr, hrest⟩ := (extBlocks_returns h inner rounds).mp hs
   rw [extBlockPhase_of_decodes h, if_neg hd2, bind_eq_ok] at hr
   obtain ⟨c, hc, hr⟩ := hr
   cases hr
   exact ⟨inner, cap', hc, inner, rounds, hrest⟩
 | @decoded n dtd off pos cap cap' hoff h =>
  obtain ⟨rounds, c, hs, hrest⟩ := hs
  cases rounds with
  | zero => cases hs
  | succ rounds =>
   obtain ⟨r, hr, hs⟩ := (dataBlocks_eq hoff (pos_lt_of_dataBlocks hoff hs)).mp hs
   rw [h] at hr
   cases hr
   exact ⟨rounds, c, hs, hrest⟩
 | @refused n dtd off pos ret cap cap' hoff h hret =>
  obtain ⟨rounds, c, hs, hrest⟩ := hs
  cases rounds with
  | zero => cases hs
  | succ rounds =>
   obtain ⟨r, hr, hs⟩ := (dataBlocks_eq hoff (pos_lt_of_dataBlocks hoff hs)).mp hs
   rw [h] at hr
   cases hr
   rw [if_pos hret] at hs
   cases hs
   exact hrest
 | @timings n dtd off pos cap hoff =>
  obtain ⟨rounds, c, hs, hrest⟩ := hs
  cases rounds with
  | zero => cases hs
  | succ rounds =>
   rw [hdmiEdidDataBlocks, if_neg hoff] at hs
   exact ⟨rounds + 1, c, hs, hrest⟩
 | @timing n off pos cap cap' hoff h =>
  obtain ⟨rounds, c, hs, hrest⟩ := hs
  cases rounds with
  | zero => cases hs
  | succ rounds =>
   rw [hdmiEdidDetailedTimings, if_pos hoff, h] at hs
   exact ⟨rounds, c, hs, hrest⟩
 | @leave n off pos cap hoff =>
  obtain ⟨rounds, c, hs, hrest⟩ := hs
  cases rounds with
  | zero => cases hs
  | succ rounds =>
   rw [hdmiEdidDetailedTimings, if_neg hoff] at hs
   cases hs
   exact hrest

theorem fits_of_ends (hs : Ends raw s) : Fits raw s := by
 obtain ⟨p, cap⟩ := s
 cases p with
 | ext n => trivial
 | block n dtd off pos =>
  intro hoff
  obtain ⟨rounds, c, hs, -⟩ := hs
  have hpos := pos_lt_of_dataBlocks hoff hs
  cases rounds with
  | zero => cases hs
  | succ rounds =>
   obtain ⟨r, hr, -⟩ := (dataBlocks_eq hoff hpos).mp hs
   exact ⟨hpos, (extDataBlock_returns _ _ _ _).mp ⟨r, hr⟩⟩
 | timing n off pos =>
  intro hoff
  obtain ⟨rounds, c, hs, -⟩ := hs
  cases rounds with
  | zero => cases hs
  | succ rounds =>
   rw [hdmiEdidDetailedTimings, if_pos hoff, bind_eq_ok] at hs
   obtain ⟨c', hc, -⟩ := hs
   have hread := ((returns_readAt_bind _ _ _).mp ⟨c', hc⟩).1
   rw [length_window, raw.length_eq] at hread
   omega

def Aligned : Point → Prop
 | .ext _ => True
 | .block n _ off pos => n < 4 ∧ pos % 128 = off % 128
 | .timing n off pos => n < 4 ∧ pos % 128 = off % 128

theorem aligned_next {t : State} (h : Next raw s t) (hs : Aligned s.1) : Aligned t.1 := by
 cases h with
 | empty h hd2 => trivial
 | enter h hd2 => exact ⟨h.2.1, by rw [hdmiEdidSingleBlockSize]; omega⟩
 | decoded hoff h =>
  obtain ⟨hn, hpos⟩ := hs
  exact ⟨hn, by omega⟩
 | refused hoff h hret => trivial
 | timings hoff => exact hs
 | timing hoff h =>
  obtain ⟨hn, hpos⟩ := hs
  exact ⟨hn, by rw [detailedTimingLen]; omega⟩
 | leave hoff => trivial

/-- What is left to decode. It falls in every step from a state that fits. -/
def left : Point → ℕ
 | .ext n => (4 - n) * 2000
 | .block n _ _ pos => (3 - n) * 2000 + 1000 + (512 - pos)
 | .timing n off _ => (3 - n) * 2000 + 1 + (128 - off)

theorem left_next {t : State} (h : Next raw s t) (hs : Aligned s.1) (hfit : Fits raw s) :
  left t.1 < left s.1 := by
 cases h with
 | @empty n cap h hd2 =>
  have hn : n < 4 := h.2.1
  change (4 - (n + 1)) * 2000 < (4 - n) * 2000
  omega
 | @enter n cap h hd2 =>
  have hn : n < 4 := h.2.1
  change (3 - n) * 2000 + 1000 + (512 - _) < (4 - n) * 2000
  omega
 | @decoded n dtd off pos cap cap' hoff h =>
  obtain ⟨hpos, -⟩ := hfit hoff
  change (3 - n) * 2000 + 1000 + (512 - _) < (3 - n) * 2000 + 1000 + (512 - pos)
  omega
 | @refused n dtd off pos ret cap cap' hoff h hret =>
  change (4 - (n + 1)) * 2000 < (3 - n) * 2000 + 1000 + (512 - pos)
  omega
 | @timings n dtd off pos cap hoff =>
  change (3 - n) * 2000 + 1 + (128 - off) < (3 - n) * 2000 + 1000 + (512 - pos)
  omega
 | @timing n off pos cap cap' hoff h =>
  rw [detailedTimingLen] at hoff
  change (3 - n) * 2000 + 1 + (128 - (off + 18) % 256) < (3 - n) * 2000 + 1 + (128 - off)
  omega
 | @leave n off pos cap hoff =>
  change (4 - (n + 1)) * 2000 < (3 - n) * 2000 + 1 + (128 - off)
  omega

theorem ends_of_next (hs : Aligned s.1) (hfit : Fits raw s)
  (h : ∀ t, Next raw s t → Ends raw t) : Ends raw s := by
 obtain ⟨p, cap⟩ := s
 cases p with
 | ext n =>
  by_cases hn : n ≤ cap.extBlockNum.toNat
  · by_cases hdec : Decodes raw n cap
    · by_cases hd2 : blockByte raw n 2 < 4
      · obtain ⟨inner, rounds, hrest⟩ := h _ (Next.empty hdec hd2)
        refine ⟨inner, rounds + 1, (extBlocks_returns hdec inner rounds).mpr ⟨cap, ?_, hrest⟩⟩
        rw [extBlockPhase_of_decodes hdec, if_pos hd2]
        rfl
      · obtain ⟨k, cap', hk, inner, rounds, r, hr⟩ := h _ (Next.enter hdec hd2)
        refine ⟨max k inner, rounds + 1, (extBlocks_returns hdec _ rounds).mpr ⟨cap', ?_, r, ?_⟩⟩
        · rw [extBlockPhase_of_decodes hdec, if_neg hd2, bind_eq_ok]
          exact ⟨cap', dataBlocks_mono hk (Nat.le_max_left k inner), rfl⟩
        · exact extBlocks_mono hr (Nat.le_max_right k inner) (Nat.le_refl rounds)
    · obtain ⟨ret, hret, hphase⟩ := extBlockPhase_of_not_decodes hn hdec 0
      refine ⟨0, 1, (ret, cap), ?_⟩
      rw [hdmiEdidExtBlocks, if_pos hn, bind_eq_ok]
      refine ⟨(ret, cap), hphase, ?_⟩
      rw [if_pos hret]
      rfl
  · refine ⟨0, 1, (.success, cap), ?_⟩
    rw [hdmiEdidExtBlocks, if_neg hn]
    rfl
 | block n dtd off pos =>
  by_cases hoff : off < dtd
  · obtain ⟨hpos, hblock⟩ := hfit hoff
    obtain ⟨⟨ret, cap'⟩, hr⟩ := (extDataBlock_returns _ _ _ _).mpr hblock
    by_cases hret : ret = .success
    · subst hret
      obtain ⟨k, c, hk, hrest⟩ := h _ (Next.decoded hoff hr)
      exact ⟨k + 1, c, (dataBlocks_eq hoff hpos).mpr ⟨_, hr, hk⟩, hrest⟩
    · refine ⟨1, cap', (dataBlocks_eq hoff hpos).mpr ⟨_, hr, ?_⟩, h _ (Next.refused hoff hr hret)⟩
      rw [if_pos hret]
      rfl
  · obtain ⟨k, c, hk, hrest⟩ := h _ (Next.timings hoff)
    refine ⟨k + 1, c, ?_, hrest⟩
    rw [hdmiEdidDataBlocks, if_neg hoff]
    exact detailedTimings_mono hk (Nat.le_succ k)
 | timing n off pos =>
  by_cases hoff : off + detailedTimingLen ≤ 127
  · have hpos := hfit hoff
    have hlen : 18 ≤ (window raw.bytes pos detailedTimingLen).length := by
     obtain ⟨-, halign⟩ := hs
     rw [detailedTimingLen] at hoff
     rw [length_window, raw.length_eq, detailedTimingLen]
     omega
    obtain ⟨cap', hcap⟩ := returns_detailedTiming _ cap hlen
    obtain ⟨k, c, hk, hrest⟩ := h _ (Next.timing hoff hcap)
    refine ⟨k + 1, c, ?_, hrest⟩
    rw [hdmiEdidDetailedTimings, if_pos hoff, bind_eq_ok]
    exact ⟨cap', hcap, hk⟩
  · refine ⟨1, cap, ?_, h _ (Next.leave hoff)⟩
    rw [hdmiEdidDetailedTimings, if_neg hoff]
    rfl

theorem ends_of_fits (hs : Aligned s.1)
  (h : ∀ t, ReflTransGen (Next raw) s t → Fits raw t) : Ends raw s := by
 induction hn : left s.1 using Nat.strong_induction_on generalizing s with
 | h m ih =>
  have hfit := h s .refl
  apply ends_of_next hs hfit
  intro t ht
  subst hn
  exact ih (left t.1) (left_next ht hs hfit) (aligned_next ht hs)
   (fun u hu => h u (.head ht hu)) rfl

theorem fits_of_reflTransGen {t : State} (hs : Ends raw s) (h : ReflTransGen (Next raw) s t) :
  Fits raw t := by
 induction h using ReflTransGen.head_induction_on with
 | refl => exact fits_of_ends hs
 | head hstep _ ih => exact ih (ends_next hstep hs)

end Step

/-- A sink with one extension block, whose audio data block has three descriptors. -/
def threeAudioSink : EdidRaw where
 bytes :=
  [0x00, 0xff, 0xff, 0xff, 0xff, 0xff, 0xff, 0x00] ++ List.replicate 118 0x00 ++ [0x01, 0x05] ++
  [0x02, 0x03, 0x0e, 0x00, 0x29, 0x09, 0x07, 0x07, 0x15, 0x07, 0x50, 0x3d, 0x1e, 0xc0] ++
  List.replicate 113 0x00 ++ [0x26] ++ List.replicate 256 0x00
 length_eq := by
  simp only [List.length_append, List.length_replicate, List.length_cons, List.length_nil]

theorem threeAudioSink_decodes :
  ∃ cap, hdmiEdidFirstBlockPhase threeAudioSink hdmiEdidReset = .ok (.success, cap) ∧
   Decodes threeAudioSink 1 cap ∧ cap.audioInfoCnt = 0 := by
 have hfirst : (hdmiEdidFirstBlockPhase threeAudioSink hdmiEdidReset).toOption.map
   (fun r => (r.1, r.2.extBlockNum, r.2.audioInfoCnt)) = some (.success, 1, 0) := by
  decide +kernel
 have hsum : (hdmiEdidBlockCheckSum
   (threeAudioSink.bytes.drop (1 * hdmiEdidSingleBlockSize))).toOption = some .success := by
  decide +kernel
 obtain ⟨⟨ret, cap⟩, hcap⟩ := returns_firstBlock threeAudioSink hdmiEdidReset
 obtain ⟨ret', hret'⟩ := returns_blockCheckSum
  (threeAudioSink.bytes.drop (1 * hdmiEdidSingleBlockSize)) (by decide +kernel)
 rw [hcap] at hfirst
 rw [hret'] at hsum
 simp only [Except.toOption, Option.map_some, Option.some.injEq, Prod.mk.injEq] at hfirst hsum
 obtain ⟨rfl, hext, hcnt⟩ := hfirst
 subst hsum
 exact ⟨cap, hcap, ⟨by rw [hext]; decide, by decide, hret'⟩, hcnt⟩

end DriversFramework.HdmiEdid
