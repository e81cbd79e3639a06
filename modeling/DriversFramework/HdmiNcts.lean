import DriversFramework.HdfBase
import Mathlib.Algebra.Order.Field.Basic
import Mathlib.Tactic.FieldSimp
import Mathlib.Tactic.Linarith
import Mathlib.Tactic.Ring

/-! `hdmi_ncts.c`: 128 times the sample rate is the clock times N by CTS. A table has both for the
usual clocks; for other clocks CTS is computed. -/
namespace DriversFramework.HdmiNcts

def hdmiNctsFactor : UInt32 := 128
def hdmiNctsNDefault : UInt32 := 6144
def hdmiNctsTmdsDeviation : UInt32 := 20
def hdmiNctsInvalidValue : UInt32 := 0xffffffff

structure HdmiAudioNCts where
 sampleRate : UInt32
 tmdsClock : UInt32
 n : UInt32
 cts : UInt32
 deriving DecidableEq

def gAudioNctsMap : List HdmiAudioNCts :=
 [⟨32000, 25174, 4576, 28125⟩, ⟨32000, 25200, 4096, 25200⟩, ⟨32000, 27000, 4096, 27000⟩,
  ⟨32000, 27027, 4096, 27027⟩, ⟨32000, 54000, 4096, 54000⟩, ⟨32000, 54054, 4096, 54054⟩,
  ⟨32000, 74175, 11648, 210937⟩, ⟨32000, 74250, 4096, 74250⟩, ⟨32000, 148351, 11648, 421875⟩,
  ⟨32000, 148500, 4096, 148500⟩, ⟨32000, 296703, 5824, 421875⟩, ⟨32000, 297000, 3072, 222750⟩,
  ⟨32000, 593406, 5824, 843750⟩, ⟨32000, 594000, 3072, 445500⟩, ⟨32000, 0, 4096, 0⟩,
  ⟨44100, 25174, 7007, 31250⟩, ⟨44100, 25200, 6272, 28000⟩, ⟨44100, 27000, 6272, 30000⟩,
  ⟨44100, 27027, 6272, 30030⟩, ⟨44100, 54000, 6272, 60000⟩, ⟨44100, 54054, 6272, 60060⟩,
  ⟨44100, 74175, 17836, 234375⟩, ⟨44100, 74250, 6272, 82500⟩, ⟨44100, 148351, 8918, 234375⟩,
  ⟨44100, 148500, 6272, 165000⟩, ⟨44100, 296703, 4459, 234375⟩, ⟨44100, 297000, 4704, 247500⟩,
  ⟨44100, 593406, 8918, 937500⟩, ⟨44100, 594000, 9408, 990000⟩, ⟨44100, 0, 6272, 0⟩,
  ⟨48000, 25174, 6864, 28125⟩, ⟨48000, 25200, 6144, 25200⟩, ⟨48000, 27000, 6144, 27000⟩,
  ⟨48000, 27027, 6144, 27027⟩, ⟨48000, 54000, 6144, 54000⟩, ⟨48000, 54054, 6144, 54054⟩,
  ⟨48000, 74175, 11648, 140625⟩, ⟨48000, 74250, 6144, 74250⟩, ⟨48000, 148351, 5824, 140625⟩,
  ⟨48000, 148500, 6144, 148500⟩, ⟨48000, 296703, 5824, 281250⟩, ⟨48000, 297000, 5120, 247500⟩,
  ⟨48000, 593406, 5824, 562500⟩, ⟨48000, 594000, 6144, 594000⟩, ⟨48000, 0, 6144, 0⟩]

def hdmiGetNRow (sampleRate tmdsClock : UInt32) : List HdmiAudioNCts → Option HdmiAudioNCts
 | [] => none
 | row :: rows =>
  if row.sampleRate = sampleRate ∧ row.tmdsClock = tmdsClock then some row
  else if row.sampleRate = sampleRate ∧ tmdsClock - hdmiNctsTmdsDeviation ≤ row.tmdsClock ∧
    row.tmdsClock ≤ tmdsClock + hdmiNctsTmdsDeviation then some row
  else if row.sampleRate = sampleRate ∧ row.tmdsClock = 0 then some row
  else hdmiGetNRow sampleRate tmdsClock rows

def hdmiGetN (sampleRate tmdsClock : UInt32) : UInt32 :=
 match hdmiGetNRow sampleRate tmdsClock gAudioNctsMap with
 | some row => row.n
 | none => hdmiNctsNDefault

def hdmiGetCtsRow (sampleRate tmdsClock : UInt32) : List HdmiAudioNCts → Option HdmiAudioNCts
 | [] => none
 | row :: rows =>
  if row.sampleRate = sampleRate ∧ row.tmdsClock = tmdsClock then some row
  else if row.sampleRate = sampleRate ∧ tmdsClock - hdmiNctsTmdsDeviation ≤ row.tmdsClock ∧
    row.tmdsClock ≤ tmdsClock + hdmiNctsTmdsDeviation then some row
  else if row.sampleRate = sampleRate ∧ row.tmdsClock = 0 then some row
  else hdmiGetCtsRow sampleRate tmdsClock rows

def computedCts (n sampleRate tmdsClock : UInt32) : UInt32 :=
 n / hdmiNctsFactor * tmdsClock * 10 / (sampleRate / 1000)

def hdmiGetCts (sampleRate tmdsClock : UInt32) : UInt32 :=
 let row := hdmiGetCtsRow sampleRate tmdsClock gAudioNctsMap
 let tmpN := (row.map HdmiAudioNCts.n).getD hdmiNctsInvalidValue
 let tmpCts := (row.map HdmiAudioNCts.cts).getD hdmiNctsInvalidValue
 if tmpCts = 0 ∧ 1000 ≤ sampleRate then computedCts tmpN sampleRate tmdsClock
 else if tmpCts = hdmiNctsInvalidValue ∧ 1000 ≤ sampleRate then
  computedCts hdmiNctsNDefault sampleRate tmdsClock
 else tmpCts

/-- The row of the table has a CTS of its own. -/
def HasFixedCts (sampleRate tmdsClock : UInt32) : Prop :=
 ∃ row, hdmiGetNRow sampleRate tmdsClock gAudioNctsMap = some row ∧ row.cts ≠ 0

/-- Both functions take one row, and a CTS that is computed meets the relation up to its rounding. -/
structure NctsRight (sampleRate tmdsClock : UInt32) : Prop where
 sameRow : hdmiGetNRow sampleRate tmdsClock gAudioNctsMap =
  hdmiGetCtsRow sampleRate tmdsClock gAudioNctsMap
 fits : ¬HasFixedCts sampleRate tmdsClock →
  (hdmiGetN sampleRate tmdsClock).toNat / 128 * tmdsClock.toNat * 10 < 2 ^ 32
 relation : ¬HasFixedCts sampleRate tmdsClock →
  |((hdmiGetCts sampleRate tmdsClock).toNat : ℚ) -
    1000 * tmdsClock.toNat * (hdmiGetN sampleRate tmdsClock).toNat /
     (128 * sampleRate.toNat)| ≤ 1

theorem rows_agree (sampleRate tmdsClock : UInt32) (rows : List HdmiAudioNCts) :
  hdmiGetNRow sampleRate tmdsClock rows = hdmiGetCtsRow sampleRate tmdsClock rows := by
 induction rows with
 | nil => rfl
 | cons row rows ih => rw [hdmiGetNRow, hdmiGetCtsRow, ih]

theorem hdmiGetNRow_mem {sampleRate tmdsClock : UInt32} {rows : List HdmiAudioNCts}
  {row : HdmiAudioNCts} (found : hdmiGetNRow sampleRate tmdsClock rows = some row) :
  row ∈ rows := by
 induction rows with
 | nil => cases found
 | cons first rows ih =>
  rw [hdmiGetNRow] at found
  split_ifs at found
  · exact Option.some.inj found ▸ List.mem_cons_self
  · exact Option.some.inj found ▸ List.mem_cons_self
  · exact Option.some.inj found ▸ List.mem_cons_self
  · exact List.mem_cons_of_mem first (ih found)

theorem factor_dvd (sampleRate tmdsClock : UInt32)
  (computed : ¬HasFixedCts sampleRate tmdsClock) :
  128 ∣ (hdmiGetN sampleRate tmdsClock).toNat := by
 have rows : ∀ row ∈ gAudioNctsMap, row.cts = 0 → 128 ∣ row.n.toNat := by decide
 rw [hdmiGetN]
 cases found : hdmiGetNRow sampleRate tmdsClock gAudioNctsMap with
 | none => exact by decide
 | some row =>
  refine rows row (hdmiGetNRow_mem found) ?_
  by_contra fixed
  exact computed ⟨row, found, fixed⟩

theorem hdmiGetCts_computed {sampleRate tmdsClock : UInt32} (audible : 1000 ≤ sampleRate)
  (computed : ¬HasFixedCts sampleRate tmdsClock) :
  hdmiGetCts sampleRate tmdsClock =
   computedCts (hdmiGetN sampleRate tmdsClock) sampleRate tmdsClock := by
 rw [hdmiGetCts, hdmiGetN, ← rows_agree]
 cases found : hdmiGetNRow sampleRate tmdsClock gAudioNctsMap with
 | none =>
  dsimp only
  rw [if_neg (by simp [hdmiNctsInvalidValue]), if_pos ⟨rfl, audible⟩]
 | some row =>
  have zero : row.cts = 0 := by
   by_contra fixed
   exact computed ⟨row, found, fixed⟩
  dsimp only
  rw [if_pos ⟨zero, audible⟩]
  rfl

theorem computedCts_toNat {n sampleRate tmdsClock : UInt32}
  (fits : n.toNat / 128 * tmdsClock.toNat * 10 < 2 ^ 32) :
  (computedCts n sampleRate tmdsClock).toNat =
   n.toNat / 128 * tmdsClock.toNat * 10 / (sampleRate.toNat / 1000) := by
 rw [computedCts, UInt32.toNat_div, UInt32.toNat_mul, UInt32.toNat_mul, UInt32.toNat_div,
  UInt32.toNat_div]
 change n.toNat / 128 * tmdsClock.toNat % 2 ^ 32 * 10 % 2 ^ 32 / (sampleRate.toNat / 1000) = _
 rw [Nat.mod_eq_of_lt (a := n.toNat / 128 * tmdsClock.toNat) (by omega), Nat.mod_eq_of_lt fits]

theorem quotient_near_iff {x rate : ℕ} (audible : 1000 ≤ rate) :
  |((x * 10 / (rate / 1000) : ℕ) : ℚ) - 1000 * x / rate| ≤ 1 ↔ x * 10 < 2 * (rate / 1000) := by
 have thousands : 1000 * (rate / 1000) ≤ rate := Nat.mul_div_le rate 1000
 have pos : 0 < rate / 1000 := Nat.div_pos audible (by decide)
 have ratePos : (0 : ℚ) < rate := by
  exact_mod_cast (show 0 < rate by omega)
 generalize rate / 1000 = f at thousands pos ⊢
 constructor
 · intro near
   by_contra! large
   have two : 2 ≤ x * 10 / f := (Nat.le_div_iff_mul_le pos).mpr large
   have above : x * 10 < (x * 10 / f + 1) * f := by
    calc
     x * 10 < f * (x * 10 / f + 1) := Nat.lt_mul_div_succ _ pos
     _ = (x * 10 / f + 1) * f := Nat.mul_comm _ _
   generalize x * 10 / f = q at near two above
   have lower : ((q : ℚ) - 1) * rate ≤ 1000 * x := by
    rw [← le_div_iff₀ ratePos]
    linarith [(abs_le.mp near).2]
   have lower : q * rate ≤ 1000 * x + rate := by
    have : (q : ℚ) * rate ≤ 1000 * x + rate := by linarith
    exact_mod_cast this
   obtain ⟨k, rfl⟩ := Nat.exists_eq_add_of_le two
   have rateLe : (k + 1) * rate ≤ 1000 * x := by
    have : (2 + k) * rate = (k + 1) * rate + rate := by ring
    omega
   have thousandsLe : (k + 1) * (1000 * f) ≤ (k + 1) * rate := Nat.mul_le_mul_left _ thousands
   have : (k + 1) * (1000 * f) = 1000 * (k * f) + 1000 * f := by ring
   have : (2 + k + 1) * f = k * f + 3 * f := by ring
   omega
 · intro small
   have quotient : x * 10 / f ≤ 1 := by
    have := (Nat.div_lt_iff_lt_mul pos).mpr small
    omega
   have exact : 1000 * (x : ℚ) / rate ≤ 1 := by
    rw [div_le_one ratePos]
    exact_mod_cast (show 1000 * x ≤ rate by omega)
   have nonneg : 0 ≤ 1000 * (x : ℚ) / rate := by positivity
   have quotient : ((x * 10 / f : ℕ) : ℚ) ≤ 1 := by exact_mod_cast quotient
   have : (0 : ℚ) ≤ ((x * 10 / f : ℕ) : ℚ) := Nat.cast_nonneg _
   rw [abs_le]
   constructor <;> linarith

/-- Where a CTS is computed, it meets the relation if and only if the quotient is below two. -/
theorem ncts_right_iff {sampleRate tmdsClock : UInt32} (audible : 1000 ≤ sampleRate) :
    NctsRight sampleRate tmdsClock ↔
      HasFixedCts sampleRate tmdsClock ∨
        (hdmiGetN sampleRate tmdsClock).toNat / 128 * tmdsClock.toNat * 10 <
          2 * (sampleRate.toNat / 1000) := by
  have rate : 1000 ≤ sampleRate.toNat := UInt32.le_iff_toNat_le.mp audible
  have word := sampleRate.toNat_lt
  -- a computed CTS that fits is the quotient
  have near : ¬HasFixedCts sampleRate tmdsClock →
      (hdmiGetN sampleRate tmdsClock).toNat / 128 * tmdsClock.toNat * 10 < 2 ^ 32 →
      (|((hdmiGetCts sampleRate tmdsClock).toNat : ℚ) -
          1000 * tmdsClock.toNat * (hdmiGetN sampleRate tmdsClock).toNat /
            (128 * sampleRate.toNat)| ≤ 1 ↔
        (hdmiGetN sampleRate tmdsClock).toNat / 128 * tmdsClock.toNat * 10 <
          2 * (sampleRate.toNat / 1000)) := by
    intro computed fits
    obtain ⟨a, multiple⟩ := factor_dvd sampleRate tmdsClock computed
    rw [hdmiGetCts_computed audible computed, computedCts_toNat fits, ← quotient_near_iff rate,
      multiple, Nat.mul_div_cancel_left a (by decide)]
    have positive : (sampleRate.toNat : ℚ) ≠ 0 := by
      exact_mod_cast (show sampleRate.toNat ≠ 0 by omega)
    have same : 1000 * (tmdsClock.toNat : ℚ) * ((128 * a : ℕ) : ℚ) / (128 * sampleRate.toNat) =
        1000 * ((a * tmdsClock.toNat : ℕ) : ℚ) / sampleRate.toNat := by
      push_cast
      field_simp
    rw [same]
  constructor
  · rintro ⟨-, fits, relation⟩
    by_cases fixed : HasFixedCts sampleRate tmdsClock
    · exact .inl fixed
    · exact .inr ((near fixed (fits fixed)).mp (relation fixed))
  · intro right
    refine ⟨rows_agree .., ?_, ?_⟩
    · intro computed
      have small := right.resolve_left computed
      omega
    · intro computed
      have small := right.resolve_left computed
      exact (near computed (by omega)).mpr small

/-- 48000 Hz with the clock of the table -/
theorem ncts_right_table : NctsRight 48000 74250 :=
  (ncts_right_iff (by decide)).mpr (.inl ⟨⟨48000, 74250, 6144, 74250⟩, by decide⟩)

/-- A sample rate of 96000 Hz, at 74250 kHz: 371250 is computed where 37125 is right. -/
theorem cts_too_large : ¬∀ sampleRate tmdsClock, 1000 ≤ sampleRate →
    NctsRight sampleRate tmdsClock := by
  intro right
  have relation := (right 96000 74250 (by decide)).relation (by
    rintro ⟨row, found, -⟩
    have none : hdmiGetNRow 96000 74250 gAudioNctsMap = none := by decide
    rw [none] at found
    cases found)
  have n : (hdmiGetN 96000 74250).toNat = 6144 := by decide
  have cts : (hdmiGetCts 96000 74250).toNat = 371250 := by decide
  rw [n, cts, show (74250 : UInt32).toNat = 74250 from rfl,
    show (96000 : UInt32).toNat = 96000 from rfl] at relation
  norm_num at relation

end DriversFramework.HdmiNcts
