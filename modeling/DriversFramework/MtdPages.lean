import Mathlib.Algebra.Order.Group.Nat
import DriversFramework.MtdCore
import DriversFramework.PowerMasks

namespace DriversFramework.MtdCore

open LoopPrograms PowerMasks

def BlockPattern (d : MtdDevice) (ops : MtdDeviceMethod) (bad : ℕ → Bool) : Prop :=
 ∀ addr, isBadBlock ops addr = bad (addr.toNat / d.eraseSize.toNat)

structure PageRight (d : MtdDevice) (bad : ℕ → Bool) (page : MtdPage) : Prop where
 nonneg : 0 ≤ page.addr.toInt
 some : 0 < page.dataLen.toNat
 inPage : page.addr.toNat % d.writeSize.toNat + page.dataLen.toNat ≤ d.writeSize.toNat
 inside : page.addr.toNat + page.dataLen.toNat ≤ d.capacity.toNat
 good : ∀ x, page.addr.toNat ≤ x → x < page.addr.toNat + page.dataLen.toNat →
  bad (x / d.eraseSize.toNat) = false

def OobPages (d : MtdDevice) (msg : MtdMsg) : Prop := msg.withOob = true ∧ d.oobSize.toNat ≠ 0

/-- The transfers take up the buffer from `place` to `last`, one behind the other. -/
def Covers (d : MtdDevice) (msg : MtdMsg) : ℕ → Issued → ℕ → Prop
 | place, [], last => place = last
 | place, (page, _) :: rest, last => page.dataBuf = place ∧
   page.oobBuf = (if msg.withOob then some (place + page.dataLen.toNat) else none) ∧
   (OobPages d msg → page.dataLen = d.writeSize ∧ page.oobLen = d.oobSize) ∧
   Covers d msg (place + page.dataLen.toNat + page.oobLen.toNat) rest last

structure IssuedRight (d : MtdDevice) (bad : ℕ → Bool) (msg : MtdMsg) (issued : Issued)
  (ret : HdfStatus) (last : ℕ) : Prop where
 pages : ∀ t ∈ issued, PageRight d bad t.1
 increasing : issued.Pairwise fun t u => t.1.addr.toNat + t.1.dataLen.toNat ≤ u.1.addr.toNat
 covers : Covers d msg (msg.buf.getD 0) issued last
 inBuffer : last ≤ msg.buf.getD 0 + msg.len.toNat
 result : ret = .success ↔
  last = msg.buf.getD 0 + msg.len.toNat ∧ ∀ t ∈ issued, t.2 = .success

/-- The call ends, and its transfers are right. -/
def RequestRight (d : MtdDevice) (ops : MtdDeviceMethod) (bad : ℕ → Bool) (msg : MtdMsg) : Prop :=
 ∃ ret s last, (mtdDeviceRequest d ops msg).Runs (pageStart d msg) ret s ∧
  IssuedRight d bad msg s.issued ret last

/-- Every request for reading or writing that the device accepts is transferred as it should be. -/
def TransfersRight (d : MtdDevice) : Prop :=
 ∀ ops bad msg, BlockPattern d ops bad → ops.lock = .success → msg.type ≠ .erase →
  mtdDeviceCheckMsg d msg = some .success → RequestRight d ops bad msg

def Idle (d : MtdDevice) (msg : MtdMsg) : Prop :=
 msg.len = 0 ∨ (d.capacity.toNat ≤ msg.addr.toNat ∧ dataLength d msg ≠ 0)

/-- The sizes of the device fit the masks. -/
structure SizesFit (d : MtdDevice) : Prop where
 narrow : d.capacity.toNat ≤ 2 ^ 63
 blocks : d.capacity.toNat = 1 ∨
  (∃ e, d.eraseSize.toNat = 2 ^ e) ∧ d.eraseSize.toNat ∣ d.capacity.toNat ∧
   ∀ a < d.capacity.toNat,
    min (maskRest d.writeSize.toNat a) (d.eraseSize.toNat - a % d.eraseSize.toNat) ≤
     d.writeSize.toNat - a % d.writeSize.toNat
 oob : d.oobSize.toNat = 0 ∨
  (d.writeSize.toNat ≤ d.eraseSize.toNat ∧ d.writeSize.toNat + d.oobSize.toNat < 2 ^ 64) ∨
  ∀ msg, msg.type ≠ .erase → msg.withOob = true →
   mtdDeviceCheckMsg d msg = some .success → Idle d msg

variable {d : MtdDevice} {ops : MtdDeviceMethod} {bad : ℕ → Bool} {msg : MtdMsg}

theorem toNat_pos {a : Word} (some : a ≠ 0) : 0 < a.toNat :=
 Nat.pos_of_ne_zero (word_eq_zero.not.mp some)

theorem min_word (a b : Word) : (if a < b then a else b).toNat = min a.toNat b.toNat := by
 by_cases less : a < b
 · rw [if_pos less, Nat.min_eq_left (Nat.le_of_lt (BitVec.lt_def.mp less))]
 · rw [if_neg less, Nat.min_eq_right (Nat.le_of_not_lt fun lt => less (BitVec.lt_def.mpr lt))]

theorem blockSize_toNat (erase : d.eraseSize ≠ 0) (s : PageState) : (blockSize d s).toNat =
 min s.dataLenLeft.toNat (maskRest d.eraseSize.toNat s.addr.toNat) := by
 rw [blockSize, min_word, toNat_rest erase]

theorem mtdPage_dataLen (page : d.writeSize ≠ 0) (s : PageState) (size : Word) :
 (mtdPage d msg s size).dataLen.toNat =
  min size.toNat (maskRest d.writeSize.toNat s.addr.toNat) := by
 change (if _ < _ then _ else _ : Word).toNat = _
 rw [min_word, toNat_rest page]

theorem skipBlock_addr (erase : d.eraseSize ≠ 0) (s : PageState) :
 (skipBlock d s).addr.toNat = (s.addr.toNat + maskRest d.eraseSize.toNat s.addr.toNat) % 2 ^ 64 := by
 have masked : s.addr.toNat &&& (d.eraseSize.toNat - 1) ≤ d.eraseSize.toNat - 1 := Nat.and_le_right
 have lower : s.addr.toNat &&& (d.eraseSize.toNat - 1) ≤ s.addr.toNat := Nat.and_le_left
 change ((s.addr &&& ~~~(d.eraseSize - 1)) + d.eraseSize).toNat = _
 rw [BitVec.toNat_add, toNat_clear erase, maskRest]
 congr 1
 have pos := toNat_pos erase
 omega

theorem SizesFit.block (fit : SizesFit d) (erase : d.eraseSize ≠ 0) {a : ℕ} (left : ℕ)
 (inside : a < d.capacity.toNat) (one : d.capacity.toNat = 1 → left ≤ 1) :
 a % d.eraseSize.toNat + min left (maskRest d.eraseSize.toNat a) ≤ d.eraseSize.toNat ∧
  a + min left (maskRest d.eraseSize.toNat a) ≤ d.capacity.toNat := by
 have pos := toNat_pos erase
 rcases fit.blocks with single | ⟨⟨e, power⟩, ⟨k, whole⟩, -⟩
 · have less := one single
   have zero : a = 0 := by omega
   rw [zero, Nat.zero_mod]
   omega
 · have place := Nat.mod_lt a pos
   have split := Nat.div_add_mod a d.eraseSize.toNat
   have lower : a / d.eraseSize.toNat < k := Nat.div_lt_of_lt_mul (by rw [← whole]; exact inside)
   have ends : d.eraseSize.toNat * (a / d.eraseSize.toNat + 1) ≤ d.capacity.toNat := by
    rw [whole]
    exact Nat.mul_le_mul_left _ lower
   rw [Nat.mul_add, Nat.mul_one] at ends
   rw [power, maskRest_two_pow, ← power]
   omega

theorem SizesFit.page (fit : SizesFit d) {a size : ℕ} (inside : a < d.capacity.toNat)
 (ends : a % d.eraseSize.toNat + size ≤ d.eraseSize.toNat) (page : d.writeSize ≠ 0) :
 a % d.writeSize.toNat + min size (maskRest d.writeSize.toNat a) ≤ d.writeSize.toNat := by
 have place := Nat.mod_lt a (toNat_pos page)
 rcases fit.blocks with single | ⟨-, -, pages⟩
 · have zero : a = 0 := by omega
   rw [zero, Nat.zero_mod, maskRest_zero]
   omega
 · have bound := pages a inside
   omega

theorem SizesFit.power (fit : SizesFit d) (page : d.writeSize ≠ 0)
 (flash : d.capacity ≠ 0) (more : d.capacity.toNat ≠ 1)
 (short : d.writeSize.toNat ≤ d.eraseSize.toNat) : ∃ k, d.writeSize.toNat = 2 ^ k := by
 obtain ⟨⟨e, power⟩, multiple, pages⟩ := fit.blocks.resolve_left more
 by_contra other
 obtain ⟨a, -, first, masked⟩ := exists_masked (toNat_pos page) other
 have least := Nat.le_of_dvd (toNat_pos flash) multiple
 have bound := pages a (by omega)
 have differ : d.writeSize.toNat ≠ d.eraseSize.toNat := fun same => other ⟨e, same.trans power⟩
 rw [Nat.mod_eq_of_lt (by omega), Nat.mod_eq_of_lt first, maskRest] at bound
 omega

theorem SizesFit.of_powers (narrow : d.capacity.toNat ≤ 2 ^ 63) {e k : ℕ}
 (erase : d.eraseSize.toNat = 2 ^ e) (multiple : d.eraseSize.toNat ∣ d.capacity.toNat)
 (page : d.writeSize.toNat = 2 ^ k)
 (oob : d.oobSize.toNat = 0 ∨
  d.writeSize.toNat ≤ d.eraseSize.toNat ∧ d.writeSize.toNat + d.oobSize.toNat < 2 ^ 64) :
 SizesFit d := by
 refine ⟨narrow, .inr ⟨⟨e, erase⟩, multiple, fun a _ => ?_⟩, oob.imp_right .inl⟩
 rw [page, maskRest_two_pow]
 exact Nat.min_le_left _ _

def oobBytes (d : MtdDevice) (msg : MtdMsg) : ℕ := if msg.withOob then d.oobSize.toNat else 0

/-- The part of the buffer that belongs to `n` bytes of the flash. -/
def bufferBytes (d : MtdDevice) (msg : MtdMsg) (n : ℕ) : ℕ :=
 n + n / d.writeSize.toNat * oobBytes d msg

structure Tracked (d : MtdDevice) (bad : ℕ → Bool) (msg : MtdMsg) (s : PageState) : Prop where
 pages : ∀ t ∈ s.issued, PageRight d bad t.1 ∧ t.2 = .success
 below : ∀ t ∈ s.issued, t.1.addr.toNat + t.1.dataLen.toNat ≤ s.addr.toNat
 increasing : s.issued.Pairwise fun t u => t.1.addr.toNat + t.1.dataLen.toNat ≤ u.1.addr.toNat
 covers : Covers d msg (msg.buf.getD 0) s.issued s.buf
 place : s.buf + bufferBytes d msg s.dataLenLeft.toNat = msg.buf.getD 0 + msg.len.toNat
 one : d.capacity.toNat = 1 → s.addr.toNat = 0 → s.dataLenLeft.toNat ≤ 1
 oob : OobPages d msg →
  d.writeSize.toNat ∣ s.addr.toNat ∧ d.writeSize.toNat ∣ s.dataLenLeft.toNat

structure Remains (d : MtdDevice) (bad : ℕ → Bool) (msg : MtdMsg) (s : PageState) (size : ℕ) :
  Prop where
 some : 0 < size
 left : size ≤ s.dataLenLeft.toNat
 block : s.addr.toNat % d.eraseSize.toNat + size ≤ d.eraseSize.toNat
 flash : s.addr.toNat + size ≤ d.capacity.toNat
 good : bad (s.addr.toNat / d.eraseSize.toNat) = false
 oob : OobPages d msg → d.writeSize.toNat ∣ size

def Usable (d : MtdDevice) (msg : MtdMsg) : Prop :=
 OobPages d msg → d.capacity.toNat ≠ 1 ∧ d.writeSize.toNat ≤ d.eraseSize.toNat

theorem same_unit {unit a x size : ℕ} (ends : a % unit + size ≤ unit) (from_ : a ≤ x)
 (to_ : x < a + size) : x / unit = a / unit := by
 have split := Nat.div_add_mod a unit
 have lower : unit * (a / unit) ≤ x := by omega
 have upper : x < unit * (a / unit) + unit := by omega
 exact Nat.div_eq_of_lt_le (by rw [Nat.mul_comm]; exact lower)
  (by rw [Nat.succ_mul, Nat.mul_comm]; exact upper)

variable {ret : HdfStatus}

theorem covers_append {place middle : ℕ} {issued : Issued} {page : MtdPage}
 (front : Covers d msg place issued middle) (data : page.dataBuf = middle)
 (oobBuf : page.oobBuf = if msg.withOob then some (middle + page.dataLen.toNat) else none)
 (oob : OobPages d msg → page.dataLen = d.writeSize ∧ page.oobLen = d.oobSize) :
 Covers d msg place (issued ++ [(page, ret)])
  (middle + page.dataLen.toNat + page.oobLen.toNat) := by
 induction issued generalizing place with
 | nil =>
  obtain rfl : place = middle := front
  exact ⟨data, oobBuf, oob, rfl⟩
 | cons t rest ih =>
  obtain ⟨data', oobBuf', oob', front⟩ := front
  exact ⟨data', oobBuf', oob', ih front⟩

section rounds

variable {s : PageState} {size : Word}

theorem mtdPage_oobLen : (mtdPage d msg s size).oobLen.toNat = oobBytes d msg := by
 change (if msg.withOob then d.oobSize else 0 : Word).toNat = _
 rw [oobBytes]
 cases msg.withOob <;> rfl

theorem oobBytes_eq_zero (plain : ¬OobPages d msg) : oobBytes d msg = 0 := by
 unfold oobBytes
 split
 · by_contra some
   exact plain ⟨‹_›, some⟩
 · rfl

variable (fit : SizesFit d) (added : mtdDeviceCheckParms d = .success) (usable : Usable d msg)
  (remains : Remains d bad msg s size.toNat)

include added remains in
theorem page_some : 0 < (mtdPage d msg s size).dataLen.toNat ∧
 (mtdPage d msg s size).dataLen.toNat ≤ size.toNat := by
 have page := (sizes_of_added added).2.2
 have rest := maskRest_pos (a := s.addr.toNat) (toNat_pos page)
 have some := remains.some
 rw [mtdPage_dataLen page]
 omega

include fit added remains in
theorem page_right : PageRight d bad (mtdPage d msg s size) := by
 have page := (sizes_of_added added).2.2
 obtain ⟨some, less⟩ := page_some added remains
 have place : (mtdPage d msg s size).addr = s.addr := rfl
 have flash := remains.flash
 have block := remains.block
 have narrow := fit.narrow
 have inside : s.addr.toNat < d.capacity.toNat := by
  have pos := remains.some
  omega
 refine ⟨?_, some, ?_, ?_, ?_⟩
 · rw [place, BitVec.toInt_eq_toNat_of_lt (by omega)]
   exact Int.natCast_nonneg _
 · rw [place, mtdPage_dataLen page]
   exact fit.page inside block page
 · rw [place]
   omega
 · intro x from_ to_
   rw [place] at from_ to_
   rw [same_unit block from_ (by omega)]
   exact remains.good

include fit added usable remains in
theorem page_whole (tracked : Tracked d bad msg s) (oob : OobPages d msg) :
 (mtdPage d msg s size).dataLen = d.writeSize := by
 obtain ⟨flash, -, page⟩ := sizes_of_added added
 obtain ⟨more, short⟩ := usable oob
 obtain ⟨k, power⟩ := fit.power page flash more short
 have aligned := Nat.mod_eq_zero_of_dvd (tracked.oob oob).1
 have least := Nat.le_of_dvd remains.some (remains.oob oob)
 apply BitVec.eq_of_toNat_eq
 rw [mtdPage_dataLen page, power, maskRest_two_pow, ← power, aligned]
 omega

include fit added usable remains in
theorem page_place (tracked : Tracked d bad msg s) :
 bufferBytes d msg s.dataLenLeft.toNat =
  (mtdPage d msg s size).dataLen.toNat + (mtdPage d msg s size).oobLen.toNat +
   bufferBytes d msg (s.dataLenLeft.toNat - (mtdPage d msg s size).dataLen.toNat) := by
 have less := (page_some added remains).2
 have left := remains.left
 rw [mtdPage_oobLen, bufferBytes, bufferBytes]
 by_cases oob : OobPages d msg
 · have pos := toNat_pos (sizes_of_added added).2.2
   have whole := page_whole fit added usable remains tracked oob
   rw [whole] at less ⊢
   have quotient : s.dataLenLeft.toNat / d.writeSize.toNat =
    (s.dataLenLeft.toNat - d.writeSize.toNat) / d.writeSize.toNat + 1 :=
    Nat.div_eq_sub_div pos (by omega)
   rw [quotient, Nat.add_mul, Nat.one_mul]
   omega
 · rw [oobBytes_eq_zero oob, Nat.mul_zero, Nat.mul_zero]
   omega

def issue (d : MtdDevice) (msg : MtdMsg) (s : PageState) (size : Word) (ret : HdfStatus) : Issued :=
 s.issued ++ [(mtdPage d msg s size, ret)]

include fit added usable remains in
theorem issue_covers (tracked : Tracked d bad msg s) (ret : HdfStatus) :
 Covers d msg (msg.buf.getD 0) (issue d msg s size ret)
  (s.buf + (mtdPage d msg s size).dataLen.toNat + (mtdPage d msg s size).oobLen.toNat) :=
 covers_append tracked.covers rfl rfl fun oob =>
  ⟨page_whole fit added usable remains tracked oob, if_pos oob.1⟩

theorem issue_increasing (tracked : Tracked d bad msg s) (ret : HdfStatus) :
 (issue d msg s size ret).Pairwise fun t u =>
  t.1.addr.toNat + t.1.dataLen.toNat ≤ u.1.addr.toNat := by
 refine List.pairwise_append.mpr ⟨tracked.increasing, List.pairwise_singleton _ _, ?_⟩
 intro t ht u hu
 obtain rfl := List.mem_singleton.mp hu
 exact tracked.below t ht

include fit added usable remains in
theorem issue_failed (tracked : Tracked d bad msg s) (failed : ret ≠ .success) :
 IssuedRight d bad msg (issue d msg s size ret) ret
  (s.buf + (mtdPage d msg s size).dataLen.toNat + (mtdPage d msg s size).oobLen.toNat) where
 pages := by
  intro t ht
  rcases List.mem_append.mp ht with before | last
  · exact (tracked.pages t before).1
  · obtain rfl := List.mem_singleton.mp last
    exact page_right fit added remains
 increasing := issue_increasing tracked ret
 covers := issue_covers fit added usable remains tracked ret
 inBuffer := by
  have place := tracked.place
  rw [page_place fit added usable remains tracked] at place
  omega
 result := by
  refine iff_of_false failed fun ⟨_, all⟩ => failed ?_
  exact all _ (List.mem_append_right _ (List.mem_singleton_self _))

include fit added remains in
theorem advance_addr : (advance (mtdPage d msg s size) s).addr.toNat =
 s.addr.toNat + (mtdPage d msg s size).dataLen.toNat := by
 have less := (page_some added remains).2
 have flash := remains.flash
 have narrow := fit.narrow
 change (s.addr + (mtdPage d msg s size).dataLen).toNat = _
 rw [BitVec.toNat_add, Nat.mod_eq_of_lt (by omega)]

include added remains in
theorem advance_left : (advance (mtdPage d msg s size) s).dataLenLeft.toNat =
 s.dataLenLeft.toNat - (mtdPage d msg s size).dataLen.toNat := by
 have less := (page_some added remains).2
 have left := remains.left
 exact BitVec.toNat_sub_of_le (BitVec.le_def.mpr (by omega))

include fit added usable remains in
theorem advance_tracked (tracked : Tracked d bad msg s) :
 Tracked d bad msg (advance (mtdPage d msg s size)
  { s with issued := issue d msg s size .success }) := by
 have addr := advance_addr fit added remains
 have left := advance_left added remains
 obtain ⟨some, less⟩ := page_some added remains
 refine ⟨?_, ?_, issue_increasing tracked _, issue_covers fit added usable remains tracked _,
  ?_, ?_, ?_⟩
 · intro t ht
   rcases List.mem_append.mp ht with before | last
   · exact tracked.pages t before
   · obtain rfl := List.mem_singleton.mp last
     exact ⟨page_right fit added remains, rfl⟩
 · intro t ht
   refine Nat.le_trans ?_ (Nat.le_of_eq addr.symm)
   rcases List.mem_append.mp ht with before | last
   · have lower := tracked.below t before
     omega
   · obtain rfl := List.mem_singleton.mp last
     exact Nat.le_refl _
 · have place := tracked.place
   rw [page_place fit added usable remains tracked] at place
   change s.buf + _ + _ + bufferBytes d msg
    (advance (mtdPage d msg s size) s).dataLenLeft.toNat = _
   rw [left]
   omega
 · intro _ zero
   change (advance (mtdPage d msg s size) s).addr.toNat = 0 at zero
   omega
 · intro oob
   have whole := page_whole fit added usable remains tracked oob
   obtain ⟨aligned, multiple⟩ := tracked.oob oob
   change _ ∣ (advance (mtdPage d msg s size) s).addr.toNat ∧
    _ ∣ (advance (mtdPage d msg s size) s).dataLenLeft.toNat
   rw [addr, left, whole]
   exact ⟨Nat.dvd_add aligned (Nat.dvd_refl _), Nat.dvd_sub multiple (Nat.dvd_refl _)⟩

include fit added usable remains in
theorem advance_remains (tracked : Tracked d bad msg s) {issued : Issued}
 (more : 0 < (size - (mtdPage d msg s size).dataLen).toNat) :
 Remains d bad msg (advance (mtdPage d msg s size) { s with issued := issued })
  (size - (mtdPage d msg s size).dataLen).toNat := by
 have addr := advance_addr fit added remains
 have left := advance_left added remains
 obtain ⟨some, less⟩ := page_some added remains
 have rest : (size - (mtdPage d msg s size).dataLen).toNat =
  size.toNat - (mtdPage d msg s size).dataLen.toNat :=
  BitVec.toNat_sub_of_le (BitVec.le_def.mpr less)
 have within := remains.left
 have block := remains.block
 have flash := remains.flash
 have split := Nat.div_add_mod s.addr.toNat d.eraseSize.toNat
 have same : (s.addr.toNat + (mtdPage d msg s size).dataLen.toNat) / d.eraseSize.toNat =
  s.addr.toNat / d.eraseSize.toNat := same_unit block (by omega) (by omega)
 have split' := Nat.div_add_mod (s.addr.toNat + (mtdPage d msg s size).dataLen.toNat)
  d.eraseSize.toNat
 rw [same] at split'
 rw [rest] at more ⊢
 refine ⟨more, ?_, ?_, ?_, ?_, ?_⟩
 · change _ ≤ (advance (mtdPage d msg s size) s).dataLenLeft.toNat
   omega
 · change (advance (mtdPage d msg s size) s).addr.toNat % _ + _ ≤ _
   rw [addr]
   omega
 · change (advance (mtdPage d msg s size) s).addr.toNat + _ ≤ _
   omega
 · change bad ((advance (mtdPage d msg s size) s).addr.toNat / _) = false
   rw [addr, same]
   exact remains.good
 · intro oob
   have whole := page_whole fit added usable remains tracked oob
   rw [whole]
   exact Nat.dvd_sub (remains.oob oob) (Nat.dvd_refl _)

theorem stopped (tracked : Tracked d bad msg s) (more : 0 < s.dataLenLeft.toNat)
 (failed : ret ≠ .success) :
 IssuedRight d bad msg s.issued ret s.buf where
 pages t ht := (tracked.pages t ht).1
 increasing := tracked.increasing
 covers := tracked.covers
 inBuffer := by
  have place := tracked.place
  omega
 result := by
  refine iff_of_false failed fun ⟨last, _⟩ => ?_
  have place := tracked.place
  unfold bufferBytes at place
  omega

theorem finished (tracked : Tracked d bad msg s) (none : s.dataLenLeft.toNat = 0) :
 IssuedRight d bad msg s.issued .success s.buf := by
 have last : s.buf = msg.buf.getD 0 + msg.len.toNat := by
  have place := tracked.place
  rw [none, bufferBytes, Nat.zero_div, Nat.zero_mul] at place
  exact place
 exact ⟨fun t ht => (tracked.pages t ht).1, tracked.increasing, tracked.covers,
  Nat.le_of_eq last, iff_of_true rfl ⟨last, fun t ht => (tracked.pages t ht).2⟩⟩

variable (ops) in
include fit added usable remains in
theorem pageRound_cases (tracked : Tracked d bad msg s) :
 (pageRound d ops msg size s = (.inl (size - (mtdPage d msg s size).dataLen),
  advance (mtdPage d msg s size) { s with issued := issue d msg s size .success })) ∨
 ∃ ret t last, pageRound d ops msg size s = (.inr (some ret), t) ∧
  IssuedRight d bad msg t.issued ret last := by
 have positive : size > 0 := BitVec.lt_def.mpr remains.some
 have more := Nat.lt_of_lt_of_le remains.some remains.left
 unfold pageRound mtdDevicePageTransferUnlocked
 rw [if_pos positive]
 cases ops.pageTransfer with
 | none =>
  exact .inr ⟨.errNotSupport, s, s.buf, rfl, stopped tracked more (by decide)⟩
 | some pageTransfer =>
  dsimp only
  generalize pageTransfer s.issued (mtdPage d msg s size) = ret
  by_cases done : ret = .success
  · subst done
    exact .inl rfl
  · exact .inr ⟨ret, { s with issued := issue d msg s size ret }, _, if_pos done,
     issue_failed fit added usable remains tracked done⟩

end rounds

section loops

variable (fit : SizesFit d) (added : mtdDeviceCheckParms d = .success) (usable : Usable d msg)

variable (bad) in
include fit added usable in
theorem pageLoop_spec (stop : ℕ) (size : Word) :
 Prog.Spec (fun s => Tracked d bad msg s ∧ s.addr.toNat + size.toNat = stop ∧
  (0 < size.toNat → Remains d bad msg s size.toNat))
  (pageLoop d ops msg size)
  (fun r s => (r = none ∧ Tracked d bad msg s ∧ s.addr.toNat = stop) ∨
   ∃ ret last, r = some ret ∧ IssuedRight d bad msg s.issued ret last) := by
 refine (Prog.spec_loop (I := fun size n s => size.toNat < n ∧ Tracked d bad msg s ∧
  s.addr.toNat + size.toNat = stop ∧ (0 < size.toNat → Remains d bad msg s size.toNat))
  (size.toNat + 1) (fun _ _ none => Nat.not_lt_zero _ none.1) ?_ size).weaken
   (fun s h => ⟨Nat.lt_succ_self _, h⟩) (fun _ _ h => h)
 intro size n _
 apply Prog.spec_step
 rintro s ⟨bound, tracked, ends, remains⟩
 by_cases positive : 0 < size.toNat
 · have remains := remains positive
   rcases pageRound_cases ops fit added usable remains tracked with
    round | ⟨ret, t, last, round, right⟩
   · rw [round]
     obtain ⟨some, less⟩ := page_some added remains
     have rest : (size - (mtdPage d msg s size).dataLen).toNat =
      size.toNat - (mtdPage d msg s size).dataLen.toNat :=
      BitVec.toNat_sub_of_le (BitVec.le_def.mpr less)
     have addr := advance_addr fit added remains
     refine ⟨by omega, advance_tracked fit added usable remains tracked, ?_,
      advance_remains fit added usable remains tracked⟩
     change (advance (mtdPage d msg s size) s).addr.toNat + _ = stop
     omega
   · rw [round]
     exact .inr ⟨ret, last, rfl, right⟩
 · have none : ¬size > 0 := fun some => positive (BitVec.lt_def.mp some)
   rw [pageRound, if_neg none]
   have last : s.addr.toNat = stop := by omega
   exact .inl ⟨rfl, tracked, last⟩

include fit added usable in
theorem rest_aligned (oob : OobPages d msg) {a : ℕ} (aligned : d.writeSize.toNat ∣ a) :
 d.writeSize.toNat ∣ maskRest d.eraseSize.toNat a := by
 obtain ⟨flash, -, page⟩ := sizes_of_added added
 obtain ⟨more, short⟩ := usable oob
 obtain ⟨k, power⟩ := fit.power page flash more short
 obtain ⟨⟨e, power'⟩, -⟩ := fit.blocks.resolve_left more
 have multiple : d.writeSize.toNat ∣ d.eraseSize.toNat := by
  rw [power, power'] at short ⊢
  exact Nat.pow_dvd_pow 2 ((Nat.pow_le_pow_iff_right (by decide)).mp short)
 rw [power', maskRest_two_pow, ← power']
 exact Nat.dvd_sub multiple ((Nat.dvd_mod_iff multiple).mpr aligned)

variable {s : PageState}

include fit added usable in
theorem block_remains (pattern : BlockPattern d ops bad) (tracked : Tracked d bad msg s)
 (more : 0 < s.dataLenLeft.toNat) (inside : s.addr.toNat < d.capacity.toNat)
 (good : isBadBlock ops s.addr = false) :
 Remains d bad msg s (blockSize d s).toNat := by
 have erase := (sizes_of_added added).2.1
 obtain ⟨block, flash⟩ := fit.block erase _ inside fun single => tracked.one single (by omega)
 have rest := maskRest_pos (a := s.addr.toNat) (toNat_pos erase)
 rw [blockSize_toNat erase]
 refine ⟨by omega, Nat.min_le_left _ _, block, flash, (pattern s.addr).symm.trans good, ?_⟩
 intro oob
 obtain ⟨aligned, multiple⟩ := tracked.oob oob
 rcases Nat.le_total s.dataLenLeft.toNat (maskRest d.eraseSize.toNat s.addr.toNat) with le | le
 · rw [Nat.min_eq_left le]
   exact multiple
 · rw [Nat.min_eq_right le]
   exact rest_aligned fit added usable oob aligned

include fit added in
theorem skipBlock_next (inside : s.addr.toNat < d.capacity.toNat) :
 (skipBlock d s).addr.toNat = s.addr.toNat + maskRest d.eraseSize.toNat s.addr.toNat := by
 have erase := (sizes_of_added added).2.1
 have narrow := fit.narrow
 rw [skipBlock_addr erase, Nat.mod_eq_of_lt]
 by_cases single : d.capacity.toNat = 1
 · have zero : s.addr.toNat = 0 := by omega
   have bound := d.eraseSize.isLt
   rw [zero, maskRest_zero]
   omega
 · have flash := (fit.block erase (maskRest d.eraseSize.toNat s.addr.toNat) inside
    fun one => absurd one single).2
   omega

include fit added usable in
theorem skipBlock_tracked (tracked : Tracked d bad msg s)
 (inside : s.addr.toNat < d.capacity.toNat) : Tracked d bad msg (skipBlock d s) where
 pages := tracked.pages
 below t ht := by
  rw [skipBlock_next fit added inside]
  exact Nat.le_trans (tracked.below t ht) (Nat.le_add_right _ _)
 increasing := tracked.increasing
 covers := tracked.covers
 place := tracked.place
 one _ zero := by
  have rest := maskRest_pos (a := s.addr.toNat) (toNat_pos (sizes_of_added added).2.1)
  rw [skipBlock_next fit added inside] at zero
  omega
 oob oob := by
  obtain ⟨aligned, multiple⟩ := tracked.oob oob
  rw [skipBlock_next fit added inside]
  exact ⟨Nat.dvd_add aligned (rest_aligned fit added usable oob aligned), multiple⟩

include fit added usable in
theorem blockRound_spec (pattern : BlockPattern d ops bad) (n : ℕ) :
 Prog.Spec (fun s => Tracked d bad msg s ∧ d.capacity.toNat - s.addr.toNat < n + 1)
  (blockRound d ops msg)
  (fun r s => r.elim
   (fun _ => Tracked d bad msg s ∧ d.capacity.toNat - s.addr.toNat < n)
   fun ret => ∃ last, IssuedRight d bad msg s.issued ret last) := by
 have erase := (sizes_of_added added).2.1
 refine Prog.spec_bind (Q := fun s₀ s => s₀ = s ∧ Tracked d bad msg s ∧
  d.capacity.toNat - s.addr.toNat < n + 1) (Prog.spec_read fun s h => ⟨rfl, h⟩) fun s₀ => ?_
 by_cases bound : d.capacity.toNat - s₀.addr.toNat < n + 1
 case neg =>
  rintro s ⟨rfl, -, less⟩
  exact absurd less bound
 refine Prog.spec_ite (fun go => ?_) fun done => Prog.spec_pure ?_
 · have more : 0 < s₀.dataLenLeft.toNat := BitVec.lt_def.mp go.1
   have inside : s₀.addr.toNat < d.capacity.toNat := BitVec.lt_def.mp go.2
   have rest := maskRest_pos (a := s₀.addr.toNat) (toNat_pos erase)
   refine Prog.spec_ite (fun broken => Prog.spec_ite (fun skip => ?_) fun keep => ?_) fun good => ?_
   · refine Prog.spec_bind (Q := fun _ s => Tracked d bad msg s ∧
      d.capacity.toNat - s.addr.toNat < n) (Prog.spec_modify ?_)
       fun _ => Prog.spec_pure fun _ h => h
     rintro s ⟨rfl, tracked, -⟩
     rw [skipBlock_next fit added inside]
     exact ⟨skipBlock_tracked fit added usable tracked inside, by omega⟩
   · refine Prog.spec_pure ?_
     rintro s ⟨rfl, tracked, -⟩
     exact ⟨s₀.buf, stopped tracked more (by decide)⟩
   · refine Prog.spec_bind ((pageLoop_spec bad fit added usable
      (s₀.addr.toNat + (blockSize d s₀).toNat) (blockSize d s₀)).weaken ?_ fun _ _ h => h) ?_
     · rintro s ⟨rfl, tracked, -⟩
       have remains := block_remains fit added usable pattern tracked more inside
        (Bool.eq_false_iff.mpr good)
       exact ⟨tracked, rfl, fun _ => remains⟩
     · intro r
       refine Prog.spec_pure ?_
       rintro s (⟨rfl, tracked, last⟩ | ⟨ret, last, rfl, right⟩)
       · refine ⟨tracked, ?_⟩
         rw [last, blockSize_toNat erase]
         omega
       · exact ⟨last, right⟩
 · rintro s ⟨rfl, tracked, -⟩
   by_cases more : s₀.dataLenLeft > 0
   · rw [if_pos more]
     exact ⟨s₀.buf, stopped tracked (BitVec.lt_def.mp more) (by decide)⟩
   · rw [if_neg more]
     have none : s₀.dataLenLeft.toNat = 0 :=
      Nat.eq_zero_of_not_pos fun some => more (BitVec.lt_def.mpr some)
     exact ⟨s₀.buf, finished tracked none⟩

include fit added usable in
theorem byPage_spec (pattern : BlockPattern d ops bad) :
 Prog.Spec (Tracked d bad msg) (mtdDeviceWriteReadByPageUnlock d ops msg)
  fun ret s => ∃ last, IssuedRight d bad msg s.issued ret last := by
 refine (Prog.spec_loop (I := fun _ n s => Tracked d bad msg s ∧
  d.capacity.toNat - s.addr.toNat < n) (d.capacity.toNat + 1)
  (fun _ _ none => Nat.not_lt_zero _ none.2)
  (fun _ n _ => blockRound_spec fit added usable pattern n) ()).weaken ?_ fun _ _ h => h
 intro s tracked
 exact ⟨tracked, Nat.lt_succ_of_le (Nat.sub_le _ _)⟩

end loops

theorem request_runs (passes : mtdDeviceCheckMsg d msg = some .success)
 (lock : ops.lock = .success) (pages : msg.type ≠ .erase) (s t : PageState)
 (ret : HdfStatus) :
 (mtdDeviceRequest d ops msg).Runs s ret t ↔
  (mtdDeviceWriteReadByPageUnlock d ops msg).Runs s ret t := by
 have checked : (Prog.attempt fun s : PageState =>
  (mtdDeviceCheckMsg d msg).map fun ret => (ret, s)).Runs s .success s := by
  rw [Prog.runs_attempt, passes]
  rfl
 have rest : (if HdfStatus.success ≠ .success then pure HdfStatus.success
  else if ops.lock ≠ .success then pure ops.lock else lockedRequest d ops msg) =
  mtdDeviceWriteReadByPageUnlock d ops msg := by
  rw [if_neg (by decide), if_neg (not_not_intro lock), lockedRequest]
  cases kind : msg.type with
  | erase => exact absurd kind pages
  | read => rfl
  | write => rfl
 unfold mtdDeviceRequest
 rw [Prog.runs_bind]
 constructor
 · rintro ⟨a, u, first, second⟩
   obtain ⟨rfl, rfl⟩ := checked.unique first
   rwa [rest] at second
 · intro run
   refine ⟨.success, s, checked, ?_⟩
   rwa [rest]

theorem blockRound_runs (s t : PageState) (r : Unit ⊕ HdfStatus) :
 (blockRound d ops msg).Runs s r t ↔ (blockRoundAt d ops msg s).Runs s r t := by
 have reads : (Prog.read id : Prog PageState PageState).Runs s s s := ⟨0, rfl⟩
 unfold blockRound
 rw [Prog.runs_bind]
 constructor
 · rintro ⟨a, u, first, second⟩
   obtain ⟨rfl, rfl⟩ := reads.unique first
   exact second
 · exact fun run => ⟨s, s, reads, run⟩

variable {s : PageState}

theorem byPage_done (done : ¬(s.dataLenLeft > 0 ∧ s.addr < d.capacity)) :
 (mtdDeviceWriteReadByPageUnlock d ops msg).Runs s
  (if s.dataLenLeft > 0 then .errIo else .success) s := by
 refine (Prog.runs_loop _ _ _ _ _).mpr (.inl ((blockRound_runs _ _ _).mpr ?_))
 rw [blockRoundAt, if_neg done]
 exact ⟨0, rfl⟩

theorem nothing_issued (result : ret = .success ↔ msg.len = 0) :
 IssuedRight d bad msg [] ret (msg.buf.getD 0) where
 pages t ht := by cases ht
 increasing := List.Pairwise.nil
 covers := rfl
 inBuffer := Nat.le_add_right _ _
 result := by
  rw [result, word_eq_zero]
  constructor
  · intro none
    refine ⟨by omega, fun t ht => ?_⟩
    cases ht
  · rintro ⟨last, -⟩
    omega

theorem dataLength_of_empty (none : msg.len = 0) : dataLength d msg = 0 := by
 unfold dataLength
 rw [none]
 split
 · exact (congrArg (· * d.writeSize) BitVec.zero_udiv).trans BitVec.zero_mul
 · rfl

theorem idle_right (idle : Idle d msg) (passes : mtdDeviceCheckMsg d msg = some .success)
 (lock : ops.lock = .success) (pages : msg.type ≠ .erase) : RequestRight d ops bad msg := by
 have positive : dataLength d msg > 0 ↔ dataLength d msg ≠ 0 :=
  ⟨fun some none => absurd some (none ▸ BitVec.lt_irrefl _),
   fun some => BitVec.lt_def.mpr (toNat_pos some)⟩
 have done : ¬((pageStart d msg).dataLenLeft > 0 ∧ (pageStart d msg).addr < d.capacity) := by
  rintro ⟨some, inside⟩
  rcases idle with none | ⟨behind, -⟩
  · exact positive.mp some (dataLength_of_empty none)
  · exact Nat.not_lt.mpr behind (BitVec.lt_def.mp inside)
 refine ⟨_, _, _, (request_runs passes lock pages _ _ _).mpr (byPage_done done), nothing_issued ?_⟩
 change (if dataLength d msg > 0 then HdfStatus.errIo else .success) = .success ↔ _
 by_cases none : msg.len = 0
 · rw [if_neg fun some => positive.mp some (dataLength_of_empty none)]
   exact iff_of_true rfl none
 · have some := (idle.resolve_left none).2
   rw [if_pos (positive.mpr some)]
   exact iff_of_false (by decide) none

theorem dataLength_toNat (narrow : msg.withOob = true →
 d.writeSize.toNat + d.oobSize.toNat < 2 ^ 64) :
 (dataLength d msg).toNat = if msg.withOob then
  msg.len.toNat / (d.writeSize.toNat + d.oobSize.toNat) * d.writeSize.toNat
 else msg.len.toNat := by
 unfold dataLength
 split
 · have small := narrow ‹_›
   have bound := msg.len.isLt
   have fewer : msg.len.toNat / (d.writeSize.toNat + d.oobSize.toNat) * d.writeSize.toNat ≤
    msg.len.toNat := Nat.le_trans (Nat.mul_le_mul_left _ (Nat.le_add_right _ _))
    (Nat.div_mul_le_self _ _)
   rw [BitVec.toNat_mul, BitVec.toNat_udiv, BitVec.toNat_add, Nat.mod_eq_of_lt small,
    Nat.mod_eq_of_lt (by omega)]
 · rfl

theorem whole_records (pages : msg.type ≠ .erase) (oob : msg.withOob = true)
 (narrow : d.writeSize.toNat + d.oobSize.toNat < 2 ^ 64) (aligned : AlignmentPasses d msg) :
 d.writeSize.toNat ∣ msg.addr.toNat ∧
  d.writeSize.toNat + d.oobSize.toNat ∣ msg.len.toNat := by
 rw [AlignmentPasses, if_neg pages, recordSize, if_pos oob, Nat.mod_eq_of_lt narrow,
  or_iff_right] at aligned
 · exact ⟨aligned.1, aligned.2.2⟩
 · rintro ⟨-, plain⟩
   rw [oob] at plain
   cases plain

variable (bad) in
theorem start_tracked (added : mtdDeviceCheckParms d = .success)
 (passes : mtdDeviceCheckMsg d msg = some .success) (pages : msg.type ≠ .erase)
 (narrow : msg.withOob = true → d.writeSize.toNat + d.oobSize.toNat < 2 ^ 64) :
 Tracked d bad msg (pageStart d msg) := by
 have page := toNat_pos (sizes_of_added added).2.2
 obtain ⟨-, ends, aligned⟩ := (checkMsg_iff added).mp passes
 have value : (dataLength d msg).toNat = _ := dataLength_toNat narrow
 refine ⟨fun t ht => ?_, fun t ht => ?_, List.Pairwise.nil, rfl, ?_, ?_, ?_⟩
 · cases ht
 · cases ht
 · change _ + bufferBytes d msg (dataLength d msg).toNat = _
   rw [value, bufferBytes, oobBytes]
   by_cases oob : msg.withOob = true
   · obtain ⟨-, q, whole⟩ := whole_records pages oob (narrow oob) aligned
     rw [if_pos oob, if_pos oob, whole, Nat.mul_div_cancel_left _ (by omega),
      Nat.mul_div_cancel _ page, Nat.add_mul, Nat.mul_comm q, Nat.mul_comm q]
     rfl
   · rw [if_neg oob, if_neg oob, Nat.mul_zero]
     rfl
 · intro single zero
   have bound := msg.len.isLt
   have less : (dataLength d msg).toNat ≤ msg.len.toNat := by
    rw [value]
    split
    · exact Nat.le_trans (Nat.mul_le_mul_left _ (Nat.le_add_right _ _))
       (Nat.div_mul_le_self _ _)
    · exact Nat.le_refl _
   change msg.addr.toNat = 0 at zero
   rw [checkedEnd, zero, Nat.zero_add, Nat.mod_eq_of_lt bound] at ends
   change (dataLength d msg).toNat ≤ 1
   omega
 · intro oob
   obtain ⟨multiple, -⟩ := whole_records pages oob.1 (narrow oob.1) aligned
   refine ⟨multiple, ?_⟩
   change _ ∣ (dataLength d msg).toNat
   rw [value, if_pos oob.1]
   exact Nat.dvd_mul_left _ _

theorem single_idle (added : mtdDeviceCheckParms d = .success)
 (passes : mtdDeviceCheckMsg d msg = some .success) (pages : msg.type ≠ .erase)
 (oob : OobPages d msg) (narrow : d.writeSize.toNat + d.oobSize.toNat < 2 ^ 64)
 (single : d.capacity.toNat = 1) : Idle d msg := by
 have page := toNat_pos (sizes_of_added added).2.2
 obtain ⟨-, ends, aligned⟩ := (checkMsg_iff added).mp passes
 obtain ⟨-, q, whole⟩ := whole_records pages oob.1 narrow aligned
 have more := oob.2
 have bound := msg.len.isLt
 by_cases none : msg.len = 0
 · exact .inl none
 have some := toNat_pos none
 have several : q ≠ 0 := by
  rintro rfl
  omega
 have least : d.writeSize.toNat + d.oobSize.toNat ≤ msg.len.toNat := by
  rw [whole]
  exact Nat.le_mul_of_pos_right _ (Nat.pos_of_ne_zero several)
 refine .inr ⟨?_, fun zero => ?_⟩
 · by_contra first
   have zero : msg.addr.toNat = 0 := by omega
   rw [checkedEnd, zero, Nat.zero_add, Nat.mod_eq_of_lt bound] at ends
   omega
 · have value : (dataLength d msg).toNat = _ := dataLength_toNat fun _ => narrow
   rw [if_pos oob.1, whole, Nat.mul_div_cancel_left _ (by omega), word_eq_zero.mp zero] at value
   exact absurd value (Nat.mul_ne_zero several (by omega)).symm

theorem transfersRight_of_fit (added : mtdDeviceCheckParms d = .success) (fit : SizesFit d) :
 TransfersRight d := by
 intro ops bad msg pattern lock pages passes
 have fine : Idle d msg ∨ Usable d msg ∧
  (msg.withOob = true → d.writeSize.toNat + d.oobSize.toNat < 2 ^ 64) := by
  by_cases oob : OobPages d msg
  · rcases fit.oob with none | ⟨short, narrow⟩ | idle
    · exact absurd none oob.2
    · by_cases single : d.capacity.toNat = 1
      · exact .inl (single_idle added passes pages oob narrow single)
      · exact .inr ⟨fun _ => ⟨single, short⟩, fun _ => narrow⟩
    · exact .inl (idle msg pages oob.1 passes)
  refine .inr ⟨fun h => absurd h oob, fun with_ => ?_⟩
  have none : d.oobSize.toNat = 0 := by
   by_contra some
   exact oob ⟨with_, some⟩
  rw [none]
  exact d.writeSize.isLt
 rcases fine with idle | ⟨usable, narrow⟩
 · exact idle_right idle passes lock pages
 · obtain ⟨ret, s, run, last, right⟩ := byPage_spec fit added usable pattern _
    (start_tracked bad added passes pages narrow)
   exact ⟨ret, s, last, (request_runs passes lock pages _ _ _).mpr run, right⟩

theorem pageRound_issued (size : Word) (s : PageState) :
 s.issued <+: (pageRound d ops msg size s).2.issued := by
 unfold pageRound mtdDevicePageTransferUnlocked
 split
 · cases ops.pageTransfer with
   | none =>
    dsimp only
    split <;> exact List.prefix_refl _
   | some pageTransfer =>
    dsimp only
    split <;> exact List.prefix_append _ _
 · exact List.prefix_refl _

variable {t : PageState} {r : Option HdfStatus}

theorem pageLoop_issued {size : Word}
 (run : (pageLoop d ops msg size).Runs s r t) : s.issued <+: t.issued := by
 have step : ∀ (size : Word) (u v : PageState) (r : Word ⊕ Option HdfStatus),
  (Prog.step (pageRound d ops msg size)).Runs u r v → u.issued <+: v.issued := by
  intro size u v r run
  obtain ⟨-, rfl⟩ := (Prog.runs_step (pageRound d ops msg size) u).unique run
  exact pageRound_issued size u
 exact Prog.loop_result (I := fun u => s.issued <+: u.issued)
  (Q := fun _ u => s.issued <+: u.issued)
  (fun size _ u v before run => before.trans (step size u v _ run))
  (fun size _ u v before run => before.trans (step size u v _ run)) (List.prefix_refl _) run

theorem blockRound_issued {r : Unit ⊕ HdfStatus}
 (run : (blockRound d ops msg).Runs s r t) : s.issued <+: t.issued := by
 have run := (blockRound_runs s t r).mp run
 unfold blockRoundAt at run
 split at run
 · split at run
   · split at run
     · obtain ⟨a, u, ⟨n, first⟩, second⟩ := (Prog.runs_bind _ _ _ _ _).mp run
       cases first
       obtain ⟨-, rfl⟩ := (Prog.runs_pure _ _ _ _).mp second
       exact List.prefix_refl _
     · obtain ⟨-, rfl⟩ := (Prog.runs_pure _ _ _ _).mp run
       exact List.prefix_refl _
   · obtain ⟨r', u, first, second⟩ := (Prog.runs_bind _ _ _ _ _).mp run
     obtain ⟨-, rfl⟩ := (Prog.runs_pure _ _ _ _).mp second
     exact pageLoop_issued first
 · obtain ⟨-, rfl⟩ := (Prog.runs_pure _ _ _ _).mp run
   exact List.prefix_refl _

theorem byPage_issued
 (run : (mtdDeviceWriteReadByPageUnlock d ops msg).Runs s ret t) : s.issued <+: t.issued :=
 Prog.loop_result (I := fun u => s.issued <+: u.issued) (Q := fun _ u => s.issued <+: u.issued)
  (fun _ _ _ _ before run => before.trans (blockRound_issued run))
  (fun _ _ _ _ before run => before.trans (blockRound_issued run)) (List.prefix_refl _) run

theorem byPage_first (run : (mtdDeviceWriteReadByPageUnlock d ops msg).Runs s ret t)
 (more : s.dataLenLeft > 0) (inside : s.addr < d.capacity)
 (good : isBadBlock ops s.addr = false) :
 ∃ r u, (pageLoop d ops msg (blockSize d s)).Runs s r u ∧ u.issued <+: t.issued := by
 have round : ∀ (r : Unit ⊕ HdfStatus) (v : PageState), (blockRound d ops msg).Runs s r v →
  ∃ r u, (pageLoop d ops msg (blockSize d s)).Runs s r u ∧ u = v := by
  intro r v run
  have run := (blockRound_runs s v r).mp run
  rw [blockRoundAt, if_pos ⟨more, inside⟩, if_neg (Bool.eq_false_iff.mp good)] at run
  obtain ⟨r', u, first, second⟩ := (Prog.runs_bind _ _ _ _ _).mp run
  exact ⟨r', u, first, ((Prog.runs_pure _ _ _ _).mp second).2⟩
 rcases (Prog.runs_loop _ _ _ _ _).mp run with last | ⟨_, v, first, rest⟩
 · obtain ⟨r, u, part, rfl⟩ := round _ _ last
   exact ⟨r, u, part, List.prefix_refl _⟩
 · obtain ⟨r, u, part, rfl⟩ := round _ _ first
   exact ⟨r, u, part, byPage_issued rest⟩

def working (d : MtdDevice) (bad : ℕ → Bool) : MtdDeviceMethod where
 erase := none
 pageTransfer := some fun _ _ => .success
 isBadBlock := some fun addr => bad (addr.toNat / d.eraseSize.toNat)
 lock := .success

theorem working_round {size : Word} (some : 0 < size.toNat) :
 pageRound d (working d bad) msg size s = (.inl (size - (mtdPage d msg s size).dataLen),
  advance (mtdPage d msg s size) { s with issued := issue d msg s size .success }) := by
 have positive : size > 0 := BitVec.lt_def.mpr some
 rw [pageRound, if_pos positive]
 rfl

theorem working_loop {size : Word}
 (run : (pageLoop d (working d bad) msg size).Runs s r t) (some : 0 < size.toNat) :
 (pageLoop d (working d bad) msg (size - (mtdPage d msg s size).dataLen)).Runs
  (advance (mtdPage d msg s size) { s with issued := issue d msg s size .success }) r t := by
 have round : (Prog.step (pageRound d (working d bad) msg size)).Runs s
  (.inl (size - (mtdPage d msg s size).dataLen))
  (advance (mtdPage d msg s size) { s with issued := issue d msg s size .success }) :=
  ⟨0, congrArg Option.some (working_round some)⟩
 rcases (Prog.runs_loop _ _ _ _ _).mp run with last | ⟨c, u, first, rest⟩
 · obtain ⟨clash, -⟩ := round.unique last
   cases clash
 · obtain ⟨same, rfl⟩ := round.unique first
   cases same
   exact rest

theorem working_first {size : Word}
 (run : (pageLoop d (working d bad) msg size).Runs s r t) (some : 0 < size.toNat) :
 issue d msg s size .success <+: t.issued :=
 pageLoop_issued (working_loop run some)

theorem working_covers (page : d.writeSize ≠ 0) {size : Word}
 (run : (pageLoop d (working d bad) msg size).Runs s r t) {x : ℕ}
 (from_ : s.addr.toNat ≤ x) (to_ : x < s.addr.toNat + size.toNat) (word : x < 2 ^ 64) :
 ∃ p ∈ t.issued, p.1.addr.toNat ≤ x ∧ x < p.1.addr.toNat + p.1.dataLen.toNat := by
 induction n : size.toNat using Nat.strongRecOn generalizing size s with
 | _ n ih =>
  have some : 0 < size.toNat := by omega
  have rest := working_loop run some
  have dataLen : (mtdPage d msg s size).dataLen.toNat = _ := mtdPage_dataLen page s size
  have masked := maskRest_pos (a := s.addr.toNat) (toNat_pos page)
  by_cases first : x < s.addr.toNat + (mtdPage d msg s size).dataLen.toNat
  · have mem : (mtdPage d msg s size, HdfStatus.success) ∈ t.issued :=
     (working_first run some).mem (List.mem_append_right _ (List.mem_singleton_self _))
    exact ⟨_, mem, from_, first⟩
  have left : (size - (mtdPage d msg s size).dataLen).toNat =
   size.toNat - (mtdPage d msg s size).dataLen.toNat :=
   BitVec.toNat_sub_of_le (BitVec.le_def.mpr (by omega))
  have addr : (s.addr + (mtdPage d msg s size).dataLen).toNat =
   s.addr.toNat + (mtdPage d msg s size).dataLen.toNat := by
   rw [BitVec.toNat_add, Nat.mod_eq_of_lt (by omega)]
  refine ih _ (by omega) rest ?_ ?_ left
  · change (s.addr + (mtdPage d msg s size).dataLen).toNat ≤ x
    omega
  · change x < (s.addr + (mtdPage d msg s size).dataLen).toNat + _
    omega

section needed

variable (added : mtdDeviceCheckParms d = .success) (right : TransfersRight d)

theorem first_block (right : RequestRight d (working d bad) bad msg)
 (passes : mtdDeviceCheckMsg d msg = some .success) (pages : msg.type ≠ .erase)
 (more : dataLength d msg ≠ 0) (inside : msg.addr.toNat < d.capacity.toNat)
 (good : bad (msg.addr.toNat / d.eraseSize.toNat) = false) :
 ∃ r u issued ret last, (pageLoop d (working d bad) msg (blockSize d (pageStart d msg))).Runs
  (pageStart d msg) r u ∧ u.issued <+: issued ∧ IssuedRight d bad msg issued ret last := by
 obtain ⟨ret, t, last, run, issued⟩ := right
 obtain ⟨r, u, part, before⟩ := byPage_first ((request_runs passes rfl pages _ _ _).mp run)
  (BitVec.lt_def.mpr (toNat_pos more)) (BitVec.lt_def.mpr inside) good
 exact ⟨r, u, t.issued, ret, last, part, before, issued⟩

include right in
theorem working_right (bad : ℕ → Bool) (pages : msg.type ≠ .erase)
 (passes : mtdDeviceCheckMsg d msg = some .success) :
 RequestRight d (working d bad) bad msg :=
 right (working d bad) bad msg (fun _ => rfl) rfl pages passes

def endlessRead (a : Word) : MtdMsg :=
 { type := .read, addr := a, buf := some 0, len := -a, withOob := false, skipBad := true }

theorem endlessRead_type (a : Word) : (endlessRead a).type ≠ .erase := by
 intro kind
 cases kind

include added in
theorem endlessRead_passes (a : Word) :
 mtdDeviceCheckMsg d (endlessRead a) = some .success := by
 refine (checkMsg_iff added).mpr ⟨Option.some_ne_none _, ?_, ?_⟩
 · have zero : checkedEnd (endlessRead a) = (a + -a).toNat := (BitVec.toNat_add a (-a)).symm
   rw [zero, BitVec.add_right_neg]
   exact Nat.zero_le _
 · rw [AlignmentPasses, if_neg (endlessRead_type a)]
   exact .inl ⟨rfl, rfl⟩

theorem endlessRead_len {a : Word} (some : 0 < a.toNat) :
 (endlessRead a).len.toNat = 2 ^ 64 - a.toNat := by
 change (-a).toNat = _
 rw [BitVec.toNat_neg, Nat.mod_eq_of_lt (by omega)]

include added in
theorem endlessRead_block {a : Word} (some : 0 < a.toNat) :
 (blockSize d (pageStart d (endlessRead a))).toNat =
  min (2 ^ 64 - a.toNat) (maskRest d.eraseSize.toNat a.toNat) := by
 rw [blockSize_toNat (sizes_of_added added).2.1]
 change min (endlessRead a).len.toNat _ = _
 rw [endlessRead_len some]
 rfl

theorem exists_word {a : ℕ} (bound : a < d.capacity.toNat) : ∃ word : Word, word.toNat = a := by
 have small := d.capacity.isLt
 exact ⟨BitVec.ofNat 64 a, by rw [BitVec.toNat_ofNat, Nat.mod_eq_of_lt (by omega)]⟩

include added right in
theorem rest_right {a x : ℕ} (some : 0 < a) (inside : a < d.capacity.toNat) (from_ : a ≤ x)
 (to_ : x < a + maskRest d.eraseSize.toNat a) (word : x < 2 ^ 64) :
 x < d.capacity.toNat ∧ x / d.eraseSize.toNat = a / d.eraseSize.toNat := by
 obtain ⟨a, rfl⟩ := exists_word inside
 have len := endlessRead_len some
 have more : dataLength d (endlessRead a) ≠ 0 := by
  refine word_eq_zero.not.mpr ?_
  change (endlessRead a).len.toNat ≠ 0
  omega
 obtain ⟨r, u, issued, ret, last, run, before, fine⟩ := first_block
  (working_right right (fun block => decide (block ≠ a.toNat / d.eraseSize.toNat))
   (endlessRead_type a) (endlessRead_passes added a))
  (endlessRead_passes added a) (endlessRead_type a) more inside
  (decide_eq_false (not_not_intro rfl))
 have size := endlessRead_block added some
 obtain ⟨p, mem, lower, upper⟩ := working_covers (sizes_of_added added).2.2 run (x := x) from_
  (by change x < a.toNat + _; omega) word
 have page := fine.pages p (before.mem mem)
 have ends := page.inside
 refine ⟨by omega, ?_⟩
 by_contra other
 have good := page.good x lower upper
 exact of_decide_eq_false good other

include added right in
theorem first_right {a : ℕ} (some : 0 < a) (inside : a < d.capacity.toNat) :
 a < 2 ^ 63 ∧ a % d.writeSize.toNat + min (min (2 ^ 64 - a) (maskRest d.eraseSize.toNat a))
  (maskRest d.writeSize.toNat a) ≤ d.writeSize.toNat := by
 obtain ⟨a, rfl⟩ := exists_word inside
 have page := (sizes_of_added added).2.2
 have rest := maskRest_pos (a := a.toNat) (toNat_pos (sizes_of_added added).2.1)
 have len := endlessRead_len some
 have more : dataLength d (endlessRead a) ≠ 0 := by
  refine word_eq_zero.not.mpr ?_
  change (endlessRead a).len.toNat ≠ 0
  omega
 obtain ⟨r, u, issued, ret, last, run, before, fine⟩ := first_block
  (working_right right (fun _ => false) (endlessRead_type a) (endlessRead_passes added a))
  (endlessRead_passes added a) (endlessRead_type a) more inside rfl
 have size := endlessRead_block added some
 have first := (working_first run (by omega)).trans before
 have mem : (mtdPage d (endlessRead a) (pageStart d (endlessRead a))
  (blockSize d (pageStart d (endlessRead a))), HdfStatus.success) ∈ issued :=
  first.mem (List.mem_append_right _ (List.mem_singleton_self _))
 have good := fine.pages _ mem
 refine ⟨?_, ?_⟩
 · have nonneg := toInt_eq good.nonneg
   have value := BitVec.toInt_eq_toNat_cond a
   change a.toInt = a.toNat at nonneg
   split_ifs at value <;> omega
 · have ends := good.inPage
   rw [mtdPage_dataLen page, size] at ends
   exact ends

include added right in
theorem capacity_narrow : d.capacity.toNat ≤ 2 ^ 63 := by
 by_contra wide
 have low := (first_right added right (a := d.capacity.toNat - 1) (by omega) (by omega)).1
 omega

include added right in
theorem erase_power (more : d.capacity.toNat ≠ 1) : ∃ e, d.eraseSize.toNat = 2 ^ e := by
 obtain ⟨flash, erase, -⟩ := sizes_of_added added
 have several := toNat_pos flash
 have bound := d.eraseSize.isLt
 by_contra other
 obtain ⟨a, some, first, masked⟩ := exists_masked (toNat_pos erase) other
 by_cases inside : a < d.capacity.toNat
 · -- the rest that the mask gives goes on into the next block
   have next := (rest_right added right some inside (x := d.eraseSize.toNat) (by omega)
    (by rw [maskRest]; omega) bound).2
   rw [Nat.div_self (toNat_pos erase), Nat.div_eq_of_lt first] at next
   cases next
 · have masked : 1 &&& (d.eraseSize.toNat - 1) ≤ 1 := Nat.and_le_left
   have ends := (rest_right added right (a := 1) (x := d.capacity.toNat) (by decide) (by omega)
    (by omega) (by rw [maskRest]; omega) d.capacity.isLt).1
   omega

include added right in
theorem erase_dvd (more : d.capacity.toNat ≠ 1) : d.eraseSize.toNat ∣ d.capacity.toNat := by
 obtain ⟨flash, erase, -⟩ := sizes_of_added added
 have several := toNat_pos flash
 have pos := toNat_pos erase
 have bound := d.capacity.isLt
 obtain ⟨e, power⟩ := erase_power added right more
 have rest : ∀ a, maskRest d.eraseSize.toNat a = d.eraseSize.toNat - a % d.eraseSize.toNat := by
  intro a
  rw [power, maskRest_two_pow]
 by_contra part
 have some : d.capacity.toNat % d.eraseSize.toNat ≠ 0 :=
  fun zero => part (Nat.dvd_of_mod_eq_zero zero)
 have split := Nat.div_add_mod d.capacity.toNat d.eraseSize.toNat
 have place := Nat.mod_lt d.capacity.toNat pos
 by_cases first : d.capacity.toNat < d.eraseSize.toNat
 · have one : 1 % d.eraseSize.toNat = 1 := Nat.mod_eq_of_lt (by omega)
   have ends := (rest_right added right (a := 1) (x := d.capacity.toNat) (by decide) (by omega)
    (by omega) (by rw [rest, one]; omega) bound).1
   omega
 -- the last block that begins in the flash ends behind it
 have begins : 0 < d.capacity.toNat / d.eraseSize.toNat := Nat.div_pos (by omega) pos
 have positive := Nat.mul_pos pos begins
 have ends := (rest_right added right
  (a := d.eraseSize.toNat * (d.capacity.toNat / d.eraseSize.toNat)) (x := d.capacity.toNat)
  positive (by omega) (by omega) (by rw [rest, Nat.mul_mod_right]; omega) bound).1
 omega

include added right in
theorem pages_needed (more : d.capacity.toNat ≠ 1) (a : ℕ) (inside : a < d.capacity.toNat) :
 min (maskRest d.writeSize.toNat a) (d.eraseSize.toNat - a % d.eraseSize.toNat) ≤
  d.writeSize.toNat - a % d.writeSize.toNat := by
 obtain ⟨-, erase, page⟩ := sizes_of_added added
 obtain ⟨e, power⟩ := erase_power added right more
 obtain ⟨k, whole⟩ := erase_dvd added right more
 rcases Nat.eq_zero_or_pos a with rfl | some
 · rw [Nat.zero_mod, Nat.zero_mod, maskRest_zero]
   omega
 · have bound := d.capacity.isLt
   have pos := toNat_pos erase
   have split := Nat.div_add_mod a d.eraseSize.toNat
   have place := Nat.mod_lt a pos
   have lower : a / d.eraseSize.toNat < k :=
    Nat.div_lt_of_lt_mul (by rw [← whole]; exact inside)
   have ends : d.eraseSize.toNat * (a / d.eraseSize.toNat + 1) ≤ d.capacity.toNat := by
    rw [whole]
    exact Nat.mul_le_mul_left _ lower
   rw [Nat.mul_add, Nat.mul_one] at ends
   have first := (first_right added right some inside).2
   have rest : maskRest d.eraseSize.toNat a = d.eraseSize.toNat - a % d.eraseSize.toNat := by
    rw [power, maskRest_two_pow]
   rw [rest] at first
   omega

theorem covers_le {place last : ℕ} {issued : Issued} (covers : Covers d msg place issued last) :
 place ≤ last := by
 induction issued generalizing place with
 | nil => exact Nat.le_of_eq covers
 | cons t rest ih =>
  have behind := ih covers.2.2.2
  omega

include added right in
theorem idle_needed (more : d.oobSize.toNat ≠ 0)
 (other : ¬(d.writeSize.toNat ≤ d.eraseSize.toNat ∧
  d.writeSize.toNat + d.oobSize.toNat < 2 ^ 64)) (pages : msg.type ≠ .erase)
 (oob : msg.withOob = true) (passes : mtdDeviceCheckMsg d msg = some .success) :
 Idle d msg := by
 obtain ⟨-, erase, page⟩ := sizes_of_added added
 by_contra busy
 have len : msg.len ≠ 0 := fun none => busy (.inl none)
 by_cases none : dataLength d msg = 0
 · obtain ⟨ret, t, last, run, fine⟩ :=
    working_right right (fun _ => false) pages passes
   have done : ¬((pageStart d msg).dataLenLeft > 0) := by
    change ¬(dataLength d msg > 0)
    rw [none]
    exact BitVec.lt_irrefl _
   obtain ⟨rfl, rfl⟩ := ((request_runs passes rfl pages _ _ _).mp run).unique
    (byPage_done fun go => done go.1)
   have ends : msg.buf.getD 0 = last := fine.covers
   have whole := (fine.result.mp (if_neg done)).1
   exact len (word_eq_zero.mpr (by omega))
 have inside : msg.addr.toNat < d.capacity.toNat := by
  by_contra behind
  exact busy (.inr ⟨Nat.le_of_not_lt behind, none⟩)
 obtain ⟨r, u, issued, ret, last, run, before, fine⟩ :=
  first_block (working_right right (fun _ => false) pages passes) passes pages none inside rfl
 have rest := maskRest_pos (a := msg.addr.toNat) (toNat_pos erase)
 have left := toNat_pos none
 have size := blockSize_toNat erase (pageStart d msg)
 change _ = min (dataLength d msg).toNat (maskRest d.eraseSize.toNat msg.addr.toNat) at size
 obtain ⟨later, rfl⟩ := (working_first run (by omega)).trans before
 obtain ⟨-, -, whole, behind⟩ := fine.covers
 have whole := whole ⟨oob, more⟩
 have dataLen : (mtdPage d msg (pageStart d msg) (blockSize d (pageStart d msg))).dataLen.toNat =
  _ := mtdPage_dataLen page (pageStart d msg) (blockSize d (pageStart d msg))
 have masked : maskRest d.eraseSize.toNat msg.addr.toNat ≤ d.eraseSize.toNat := Nat.sub_le _ _
 have ends := covers_le behind
 have within := fine.inBuffer
 have bound := msg.len.isLt
 rw [whole.1, whole.2] at ends
 rw [whole.1] at dataLen
 omega

end needed

/-- Every request that a device accepts is transferred as it should be exactly if its sizes fit:
on a flash of more than one byte the erase size is a power of two that divides the capacity, and
the mask of the write size never leads over the end of a page. -/
theorem transfersRight_iff (d : MtdDevice) (added : mtdDeviceCheckParms d = .success) :
    TransfersRight d ↔ SizesFit d := by
  constructor
  · intro right
    refine ⟨capacity_narrow added right, ?_, ?_⟩
    · by_cases single : d.capacity.toNat = 1
      · exact .inl single
      · exact .inr ⟨erase_power added right single, erase_dvd added right single,
          pages_needed added right single⟩
    · by_cases none : d.oobSize.toNat = 0
      · exact .inl none
      · by_cases short : d.writeSize.toNat ≤ d.eraseSize.toNat ∧
            d.writeSize.toNat + d.oobSize.toNat < 2 ^ 64
        · exact .inr (.inl short)
        · exact .inr (.inr fun msg pages oob passes =>
            idle_needed added right none short pages oob passes)
  · exact transfersRight_of_fit added

theorem nandDevice_fits : SizesFit nandDevice :=
 SizesFit.of_powers (e := 17) (k := 11) (by decide) (by decide) (by decide) (by decide)
  (.inr (by decide))

theorem nandDevice_right : mtdDeviceCheckParms nandDevice = .success ∧ TransfersRight nandDevice :=
  ⟨by decide, (transfersRight_iff nandDevice (by decide)).mpr nandDevice_fits⟩

/-- The same flash in blocks of 96 KiB. -/
def oddDevice : MtdDevice := { nandDevice with eraseSize := 0x18000 }

def readAt (addr len : Word) : MtdMsg :=
 { type := .read, addr := addr, buf := some 0, len := len, withOob := false, skipBad := true }

/-- A read from the middle of the first block that goes on into the second one, a bad block. -/
theorem oddDevice_not_right : mtdDeviceCheckParms oddDevice = .success ∧
    mtdDeviceCheckMsg oddDevice (readAt 0x8000 0x18000) = some .success ∧
    ¬RequestRight oddDevice (working oddDevice fun block => block == 1) (fun block => block == 1)
      (readAt 0x8000 0x18000) := by
  have passes : mtdDeviceCheckMsg oddDevice (readAt 0x8000 0x18000) = some .success := by decide
  refine ⟨by decide, passes, fun right => ?_⟩
  obtain ⟨r, u, issued, ret, last, run, before, fine⟩ :=
    first_block right passes (by decide) (by decide) (by decide) (by decide)
  obtain ⟨p, mem, lower, upper⟩ :=
    working_covers (by decide) run (x := 0x18000) (by decide) (by decide) (by decide)
  exact absurd ((fine.pages p (before.mem mem)).good 0x18000 lower upper) (by decide)

end DriversFramework.MtdCore
