import Mathlib.Algebra.Group.Nat.Defs
import DriversFramework.DmacCore

namespace DriversFramework.Dmac

open RunRules

def OneOwner (s : DmaCntlr) : Prop :=
 ∀ id x id' x', s.transfers id = some x → s.transfers id' = some x' → x.chan = x'.chan → id = id'

def Frees (s t : DmaCntlr) (chan : ℕ) : Prop :=
 (t.channelList chan).useStatus = .vacancy ∧ ∀ c, c ≠ chan → t.channelList c = s.channelList c

def AllBusy (s : DmaCntlr) : Prop :=
 ∀ c, c < s.channelNum → (s.channelList c).useStatus ≠ .vacancy

/-- What a step has to do: it leaves each channel with one owner, a transfer that ends in it frees
the channel it was given, and a request is refused when all channels are busy. -/
def Right (s : DmaCntlr) (a : DmacAction) : Prop :=
 ∃ out, s.act a = some out ∧ OneOwner out.2 ∧
  (∀ id x, s.transfers id = some x → out.2.transfers id = none → Frees s out.2 x.chan) ∧
  ∀ msg, a = .transfer msg → AllBusy s → (∃ error, out.1 = some error ∧ error ≠ .success) ∧ out.2 = s

/-- The steps that do not go wrong: a request finds a vacant channel, and the first one is not
that of a transfer in progress; and a peripheral transfer has an address, or an interrupt has
freed its channel before. -/
def Meets (s : DmaCntlr) : DmacAction → Prop
 | .transfer msg => dmacCntlrCheck s = true → msg.transType ≠ .invalid →
   ∃ c, s.vacant = some c ∧ ∀ id x, s.transfers id = some x → x.chan ≠ c
 | .periph id _ => ∀ x, s.transfers id = some x → x.phase = .periphSetUp →
   x.msg.srcAddr = 0 → x.msg.destAddr = 0 → (s.channelList x.chan).useStatus = .vacancy
 | .request _ _ => True
 | .m2mLoop _ _ => True
 | .m2mWake _ => True
 | .isr _ _ => True

structure Inv (s : DmaCntlr) : Prop where
 owner : OneOwner s
 fresh : ∀ id x, s.transfers id = some x → id < s.next
 small : ∀ id x, s.transfers id = some x → x.chan < 2 ^ 16
 number : ∀ id x, s.transfers id = some x → x.phase ≠ .requested →
  (s.channelList x.chan).channel.toNat = x.chan

structure Moves (s t : DmaCntlr) (id : ℕ) (x : Transfer) (y : Option Transfer) : Prop where
 held : s.transfers id = some x
 transfers : t.transfers = Function.update s.transfers id y
 next : t.next = s.next
 chan : ∀ z, y = some z → z.chan = x.chan
 others : ∀ c, c ≠ x.chan → t.channelList c = s.channelList c
 number : (t.channelList x.chan).channel.toNat = x.chan

variable {s t : DmaCntlr} {id : ℕ} {x : Transfer} {y : Option Transfer}

theorem Moves.transfer_iff (h : Moves s t id x y) (id' : ℕ) (z : Transfer) :
  t.transfers id' = some z ↔ if id' = id then y = some z else s.transfers id' = some z := by
 rw [h.transfers]
 by_cases same : id' = id
 · rw [same, Function.update_self, if_pos rfl]
 · rw [Function.update_of_ne same, if_neg same]

theorem Moves.before (h : Moves s t id x y) {id' : ℕ} {z : Transfer} (hz : t.transfers id' = some z) :
  ∃ x', s.transfers id' = some x' ∧ x'.chan = z.chan := by
 have after := (h.transfer_iff id' z).mp hz
 split_ifs at after with same
 · exact ⟨x, same ▸ h.held, (h.chan z after).symm⟩
 · exact ⟨z, after, rfl⟩

theorem Moves.inv (h : Moves s t id x y) (inv : Inv s) : Inv t := by
 refine ⟨?_, ?_, ?_, ?_⟩
 · intro id₁ x₁ id₂ x₂ h₁ h₂ same
   obtain ⟨x₁', held₁, chan₁⟩ := h.before h₁
   obtain ⟨x₂', held₂, chan₂⟩ := h.before h₂
   exact inv.owner id₁ x₁' id₂ x₂' held₁ held₂ (by rw [chan₁, chan₂, same])
 · intro id' z hz
   obtain ⟨x', held, -⟩ := h.before hz
   rw [h.next]
   exact inv.fresh id' x' held
 · intro id' z hz
   obtain ⟨x', held, chan⟩ := h.before hz
   exact chan ▸ inv.small id' x' held
 · intro id' z hz phase
   have after := (h.transfer_iff id' z).mp hz
   split_ifs at after with same
   · rw [h.chan z after]
     exact h.number
   · have other : z.chan ≠ x.chan := fun chan => same (inv.owner id' z id x after h.held chan)
     rw [h.others _ other]
     exact inv.number id' z after phase

theorem Moves.right_iff (h : Moves s t id x y) (inv : Inv s) {a : DmacAction} {status : Option DmacStatus}
  (hact : s.act a = some (status, t)) (hcall : ∀ msg, a ≠ .transfer msg) :
  Right s a ↔ (y = none → (t.channelList x.chan).useStatus = .vacancy) := by
 constructor
 · rintro ⟨out, hout, -, ends, -⟩ rfl
   cases hact.symm.trans hout
   refine (ends id x h.held ?_).1
   rw [h.transfers, Function.update_self]
 · intro vacant
   refine ⟨(status, t), hact, (h.inv inv).owner, ?_, fun msg same => absurd same (hcall msg)⟩
   intro id' x' held gone
   have ended : id' = id ∧ y = none := by
    by_contra other
    rw [h.transfers] at gone
    by_cases same : id' = id
    · rw [same, Function.update_self] at gone
      exact other ⟨same, gone⟩
    · rw [Function.update_of_ne same, held] at gone
      cases gone
   obtain ⟨rfl, rfl⟩ := ended
   obtain rfl := Option.some.inj (held.symm.trans h.held)
   exact ⟨vacant rfl, h.others⟩

structure Near (s t : DmaCntlr) (x : Transfer) : Prop where
 transfers : t.transfers = s.transfers
 next : t.next = s.next
 others : ∀ c, c ≠ x.chan → t.channelList c = s.channelList c
 number : (t.channelList x.chan).channel.toNat = x.chan

theorem Near.setChan (s : DmaCntlr) {x : Transfer} (info : DmacChanInfo)
  (number : info.channel.toNat = x.chan) : Near s (s.setChan x.chan info) x := by
 refine ⟨rfl, rfl, fun c hc => Function.update_of_ne hc _ _, ?_⟩
 simpa [DmaCntlr.setChan] using number

theorem Inv.near (inv : Inv s) (held : s.transfers id = some x) (phase : x.phase ≠ .requested) :
  Near s s x := ⟨rfl, rfl, fun _ _ => rfl, inv.number id x held phase⟩

theorem Near.leave (near : Near s t x) (held : s.transfers id = some x) (status : DmacStatus) :
  Moves s (t.leave id x status).2 id x none := by
 have chan : (t.channelList x.chan).channel.toNat = x.chan := near.number
 refine ⟨held, ?_, near.next, by rintro _ ⟨⟩, ?_, ?_⟩
 · change Function.update t.transfers id none = _
   rw [near.transfers]
 · intro c hc
   change Function.update t.channelList _ _ c = _
   rw [chan, Function.update_of_ne hc, near.others c hc]
 · change (Function.update t.channelList _ _ x.chan).channel.toNat = _
   rw [chan, Function.update_self, chan]

theorem Near.leave_vacant (near : Near s t x) (id : ℕ) (status : DmacStatus) :
  ((t.leave id x status).2.channelList x.chan).useStatus = .vacancy := by
 change (Function.update t.channelList _ _ x.chan).useStatus = _
 rw [near.number, Function.update_self]

theorem Near.goOn (near : Near s t x) (held : s.transfers id = some x) (phase : Phase) :
  Moves s (t.goOn id x phase).2 id x (some { x with phase := phase }) := by
 refine ⟨held, ?_, near.next, by rintro _ ⟨⟩; rfl, near.others, near.number⟩
 change Function.update t.transfers id _ = _
 rw [near.transfers]

def Orderly (s t : DmaCntlr) (id : ℕ) (x : Transfer) : Prop :=
 ∃ y, Moves s t id x y ∧ (y = none → (t.channelList x.chan).useStatus = .vacancy)

theorem Near.leave_orderly (near : Near s t x) (held : s.transfers id = some x) (status : DmacStatus) :
  Orderly s (t.leave id x status).2 id x :=
 ⟨none, near.leave held status, fun _ => near.leave_vacant id status⟩

theorem Near.goOn_orderly (near : Near s t x) (held : s.transfers id = some x) (phase : Phase) :
  Orderly s (t.goOn id x phase).2 id x := ⟨_, near.goOn held phase, by rintro ⟨⟩⟩

theorem request_orderly (inv : Inv s) (held : s.transfers id = some x) (info : Option (UInt8 × UInt8)) :
  Orderly s (dmacRequestChannel s id x info).2 id x := by
 have number : (UInt16.ofNat x.chan).toNat = x.chan := by
  rw [UInt16.toNat_ofNat', Nat.mod_eq_of_lt (inv.small id x held)]
 cases info with
 | none => exact (Near.setChan s _ number).leave_orderly held _
 | some widths => exact (Near.setChan s _ number).goOn_orderly held _

theorem m2mLoop_orderly (inv : Inv s) (held : s.transfers id = some x) (phase : x.phase ≠ .requested)
  (leftSize : ℕ) (enable : DmacStatus) :
  Orderly s (dmacM2mTransfer s id x leftSize enable).2 id x := by
 have near := inv.near held phase
 unfold dmacM2mTransfer
 split_ifs
 · exact near.leave_orderly held _
 · exact near.leave_orderly held _
 · exact near.goOn_orderly held _

theorem m2mWake_orderly (inv : Inv s) (held : s.transfers id = some x) (phase : x.phase ≠ .requested)
  (leftSize : ℕ) : Orderly s (dmacWaitM2mSendComplete s id x leftSize).2 id x := by
 have near := Near.setChan s { s.channelList x.chan with done := false, error := false }
  (inv.number id x held phase)
 unfold dmacWaitM2mSendComplete
 dsimp only
 split_ifs
 · exact near.leave_orderly held _
 · exact near.goOn_orderly held _
 · exact near.goOn_orderly held _

theorem dmacAllocLli_channel (info : DmacChanInfo) (length maxSize : ℕ) (memory : Bool) :
  (dmacAllocLli info length maxSize memory).2.channel = info.channel := by
 unfold dmacAllocLli
 dsimp only
 split_ifs <;> rfl

theorem periph_orderly (inv : Inv s) (held : s.transfers id = some x) (phase : x.phase ≠ .requested)
  (addr : ¬ (x.msg.srcAddr = 0 ∧ x.msg.destAddr = 0)) (steps : PeriphSteps) :
  Orderly s (dmacPeriphTransfer s id x steps).2 id x := by
 rw [dmacPeriphTransfer, if_neg addr]
 dsimp only
 have near := fun length maxSize memory => Near.setChan s
  (dmacAllocLli (s.channelList x.chan) length maxSize memory).2
  ((congrArg UInt16.toNat (dmacAllocLli_channel _ length maxSize memory)).trans
   (inv.number id x held phase))
 split_ifs
 · exact (near _ _ _).leave_orderly held _
 · exact (near _ _ _).leave_orderly held _
 · exact (near _ _ _).leave_orderly held _
 · exact (near _ _ _).goOn_orderly held _

theorem periph_moves (inv : Inv s) (held : s.transfers id = some x) (phase : x.phase ≠ .requested)
  (addr : x.msg.srcAddr = 0 ∧ x.msg.destAddr = 0) (steps : PeriphSteps) :
  Moves s (dmacPeriphTransfer s id x steps).2 id x none := by
 rw [dmacPeriphTransfer, if_pos addr]
 exact ⟨held, rfl, rfl, by rintro _ ⟨⟩, fun _ _ => rfl, inv.number id x held phase⟩

theorem isr_spec (s : DmaCntlr) (i : ℕ) (status : ChnStatus) :
  dmacIsr s i status = s ∨ ∃ info transfers, info.channel = (s.channelList i).channel ∧
   (∀ id z, transfers id = some z → s.transfers id = some z) ∧
   (∀ id x, s.transfers id = some x → transfers id = none → x.chan = i ∧ x.phase = .periphRun) ∧
   dmacIsr s i status = dmacFreeChannel { s.setChan i info with transfers := transfers } info.channel := by
 unfold dmacIsr
 dsimp only
 split_ifs
 · exact .inl rfl
 · refine .inr ⟨{ s.channelList i with
    status := some status
    done := (s.channelList i).done || status ≠ .error
    error := (s.channelList i).error || status = .error }, s.transfers, rfl, fun _ _ h => h, ?_, rfl⟩
   intro id x held gone
   rw [held] at gone
   cases gone
 · refine .inr ⟨{ s.channelList i with status := some status }, _, rfl, ?_, ?_, rfl⟩
   · intro id z hz
     exact (Option.filter_eq_some_iff.mp hz).1
   · intro id x held gone
     rw [held, Option.filter_some] at gone
     by_contra other
     simp [other] at gone

theorem isr_channel (s : DmaCntlr) (i : ℕ) (status : ChnStatus) (c : ℕ) :
  ((dmacIsr s i status).channelList c).channel = (s.channelList c).channel := by
 rcases isr_spec s i status with same | ⟨info, transfers, channel, -, -, eq⟩
 · rw [same]
 · have set : ∀ c, ((s.setChan i info).channelList c).channel = (s.channelList c).channel := by
    intro c
    by_cases hc : c = i
    · subst hc
      simp [DmaCntlr.setChan, channel]
    · simp [DmaCntlr.setChan, hc]
   rw [eq, ← set c]
   by_cases hc : c = info.channel.toNat
   · subst hc
     simp [dmacFreeChannel, DmaCntlr.setChan]
   · simp [dmacFreeChannel, DmaCntlr.setChan, hc]

theorem isr_transfers (s : DmaCntlr) (i : ℕ) (status : ChnStatus) (id : ℕ) (z : Transfer)
  (hz : (dmacIsr s i status).transfers id = some z) : s.transfers id = some z := by
 rcases isr_spec s i status with same | ⟨info, transfers, -, sub, -, eq⟩
 · rwa [same] at hz
 · rw [eq] at hz
   exact sub id z hz

theorem isr_next (s : DmaCntlr) (i : ℕ) (status : ChnStatus) : (dmacIsr s i status).next = s.next := by
 rcases isr_spec s i status with same | ⟨info, transfers, -, -, -, eq⟩
 · rw [same]
 · rw [eq]
   rfl

theorem isr_inv (inv : Inv s) (i : ℕ) (status : ChnStatus) : Inv (dmacIsr s i status) := by
 have before := isr_transfers s i status
 refine ⟨?_, ?_, ?_, ?_⟩
 · intro id x id' x' h h'
   exact inv.owner id x id' x' (before id x h) (before id' x' h')
 · intro id x h
   rw [isr_next]
   exact inv.fresh id x (before id x h)
 · intro id x h
   exact inv.small id x (before id x h)
 · intro id x h
   rw [isr_channel]
   exact inv.number id x (before id x h)

theorem isr_right (inv : Inv s) (i : ℕ) (status : ChnStatus) : Right s (.isr i status) := by
 refine ⟨_, rfl, (isr_inv inv i status).owner, ?_, by rintro _ ⟨⟩⟩
 intro id x held gone
 rcases isr_spec s i status with same | ⟨info, transfers, channel, -, ends, eq⟩
 · change (dmacIsr s i status).transfers id = none at gone
   rw [same, held] at gone
   cases gone
 · change Frees s (dmacIsr s i status) x.chan
   change (dmacIsr s i status).transfers id = none at gone
   rw [eq] at gone ⊢
   obtain ⟨rfl, run⟩ := ends id x held gone
   have own : info.channel.toNat = x.chan := by
    rw [channel]
    exact inv.number id x held (by simp [run])
   refine ⟨?_, ?_⟩
   · simp [dmacFreeChannel, DmaCntlr.setChan, own]
   · intro c hc
     simp [dmacFreeChannel, DmaCntlr.setChan, own, hc]

theorem vacant_lt {c : ℕ} (h : s.vacant = some c) : c < s.channelNum :=
 List.mem_range.mp (List.mem_of_find?_eq_some h)

theorem allBusy_iff : AllBusy s ↔ s.vacant = none := by
 rw [DmaCntlr.vacant, List.find?_eq_none]
 simp [AllBusy]

def DmaCntlr.given (s : DmaCntlr) (c : ℕ) (msg : DmacMsg) : DmaCntlr :=
 { (s.setChan c { s.channelList c with useStatus := .allocat }).setTransfer s.next
     (some ⟨c, msg, .requested⟩) with next := s.next + 1 }

variable {msg : DmacMsg} {a : DmacAction}

theorem transfer_refused (h : dmacCntlrCheck s = false ∨ msg.transType = .invalid) :
  ∃ error, error ≠ .success ∧ s.act (.transfer msg) = some (some error, s) := by
 change ∃ error, error ≠ .success ∧ dmaCntlrTransfer s msg = some (some error, s)
 rw [dmaCntlrTransfer]
 by_cases check : dmacCntlrCheck s = false
 · rw [if_pos check]
   exact ⟨.errInvalidObject, by simp, rfl⟩
 · rw [if_neg check, if_pos (h.resolve_left check)]
   exact ⟨.failure, by simp, rfl⟩

theorem check_channelNum (h : dmacCntlrCheck s = true) : s.channelNum ≤ 100 := by
 simp only [dmacCntlrCheck, Bool.and_eq_true, decide_eq_true_eq] at h
 exact h.2

theorem transfer_given {c : ℕ} (check : dmacCntlrCheck s = true)
  (type : msg.transType ≠ .invalid) (h : s.vacant = some c) :
  s.act (.transfer msg) = some (none, s.given c msg) := by
 have bound := check_channelNum check
 have inside := vacant_lt h
 have number : (UInt16.ofNat c).toNat = c := by
  rw [UInt16.toNat_ofNat', Nat.mod_eq_of_lt (by omega)]
 change dmaCntlrTransfer s msg = _
 rw [dmaCntlrTransfer, if_neg (by simp [check]), if_neg type]
 simp only [dmacAllocateChannel, h, number]
 rw [if_neg (not_le.mpr inside)]
 rfl

theorem transfer_undefined (check : dmacCntlrCheck s = true)
  (type : msg.transType ≠ .invalid) (h : s.vacant = none) : s.act (.transfer msg) = none := by
 have bound := check_channelNum check
 change dmaCntlrTransfer s msg = _
 rw [dmaCntlrTransfer, if_neg (by simp [check]), if_neg type]
 simp only [dmacAllocateChannel, h]
 exact if_pos (bound.trans (by decide))

theorem given_transfer_iff (c : ℕ) (msg : DmacMsg) (id : ℕ) (z : Transfer) :
  (s.given c msg).transfers id = some z ↔
   if id = s.next then z = ⟨c, msg, .requested⟩ else s.transfers id = some z := by
 change Function.update s.transfers s.next _ id = some z ↔ _
 by_cases same : id = s.next
 · rw [same, Function.update_self, if_pos rfl, Option.some.injEq]
   exact eq_comm
 · rw [Function.update_of_ne same, if_neg same]

theorem given_owner_iff (inv : Inv s) (c : ℕ) (msg : DmacMsg) :
  OneOwner (s.given c msg) ↔ ∀ id x, s.transfers id = some x → x.chan ≠ c := by
 have old : ∀ id x, s.transfers id = some x → (s.given c msg).transfers id = some x := by
  intro id x held
  rw [given_transfer_iff, if_neg (inv.fresh id x held).ne]
  exact held
 have new : (s.given c msg).transfers s.next = some ⟨c, msg, .requested⟩ := by
  rw [given_transfer_iff, if_pos rfl]
 constructor
 · intro owner id x held same
   exact (inv.fresh id x held).ne (owner id x s.next _ (old id x held) new same)
 · intro other id x id' x' h h' same
   rw [given_transfer_iff] at h h'
   split_ifs at h h' with first second second
   · rw [first, second]
   · subst h
     exact absurd same.symm (other id' x' h')
   · subst h'
     exact absurd same (other id x h)
   · exact inv.owner id x id' x' h h' same

theorem given_inv (inv : Inv s) {c : ℕ} {msg : DmacMsg} (bound : c < 2 ^ 16)
  (owner : OneOwner (s.given c msg)) : Inv (s.given c msg) := by
 refine ⟨owner, ?_, ?_, ?_⟩
 · intro id z h
   rw [given_transfer_iff] at h
   change id < s.next + 1
   split_ifs at h with new
   · omega
   · have := inv.fresh id z h
     omega
 · intro id z h
   rw [given_transfer_iff] at h
   split_ifs at h with new
   · rw [h]
     exact bound
   · exact inv.small id z h
 · intro id z h phase
   rw [given_transfer_iff] at h
   split_ifs at h with new
   · rw [h] at phase
     exact absurd rfl phase
   · have number := inv.number id z h phase
     change (Function.update s.channelList c _ z.chan).channel.toNat = z.chan
     by_cases hc : z.chan = c
     · rw [hc, Function.update_self]
       rw [hc] at number
       exact number
     · rw [Function.update_of_ne hc]
       exact number

theorem transfer_right_iff (inv : Inv s) (msg : DmacMsg) :
  Right s (.transfer msg) ↔ Meets s (.transfer msg) := by
 by_cases refused : dmacCntlrCheck s = false ∨ msg.transType = .invalid
 · obtain ⟨error, ne, hact⟩ := transfer_refused refused
   refine iff_of_true ⟨_, hact, inv.owner, ?_, fun _ _ _ => ⟨⟨error, rfl, ne⟩, rfl⟩⟩ ?_
   · intro id x held gone
     cases held.symm.trans gone
   · intro check type
     rcases refused with h | h
     · rw [check] at h
       cases h
     · exact absurd h type
 rw [not_or, Bool.not_eq_false] at refused
 obtain ⟨check, type⟩ := refused
 cases found : s.vacant with
 | none =>
  refine iff_of_false ?_ ?_
  · rintro ⟨out, hout, -⟩
    rw [transfer_undefined check type found] at hout
    cases hout
  · intro meets
    obtain ⟨c, vacant, -⟩ := meets check type
    rw [found] at vacant
    cases vacant
 | some c =>
  have hact := transfer_given check type found
  have meets : Meets s (.transfer msg) ↔ ∀ id x, s.transfers id = some x → x.chan ≠ c := by
   simp [Meets, check, type, found]
  rw [meets, ← given_owner_iff inv c msg]
  constructor
  · rintro ⟨out, hout, owner, -⟩
    cases hact.symm.trans hout
    exact owner
  · intro owner
    refine ⟨_, hact, owner, ?_, ?_⟩
    · intro id x held gone
      have still : (s.given c msg).transfers id = some x := by
       rw [given_transfer_iff, if_neg (inv.fresh id x held).ne]
       exact held
      cases still.symm.trans gone
    · intro _ _ busy
      rw [allBusy_iff.mp busy] at found
      cases found

theorem idle_right (inv : Inv s) {a : DmacAction} (hact : s.act a = some (none, s))
  (hcall : ∀ msg, a ≠ .transfer msg) : Right s a := by
 refine ⟨_, hact, inv.owner, ?_, fun msg same => absurd same (hcall msg)⟩
 intro id x held gone
 cases held.symm.trans gone

def Acts (s : DmaCntlr) (a : DmacAction) : Prop :=
 s.act a = some (none, s) ∧ Meets s a ∨
  ∃ status t id x y, s.act a = some (status, t) ∧ Moves s t id x y ∧
   (Meets s a ↔ (y = none → (t.channelList x.chan).useStatus = .vacancy))

theorem Orderly.acts {status : Option DmacStatus} (h : Orderly s t id x)
  (hact : s.act a = some (status, t)) (meets : Meets s a) : Acts s a := by
 obtain ⟨y, moves, vacant⟩ := h
 exact .inr ⟨status, t, id, x, y, hact, moves, iff_of_true meets vacant⟩

theorem request_acts (inv : Inv s) (id : ℕ) (info : Option (UInt8 × UInt8)) : Acts s (.request id info) := by
 cases held : s.transfers id with
 | none => exact .inl ⟨by rw [DmaCntlr.act, held], trivial⟩
 | some x =>
  obtain ⟨chan, msg, phase⟩ := x
  cases phase with
  | requested => exact (request_orderly inv held info).acts (by rw [DmaCntlr.act, held]) trivial
  | m2mLoop left | m2mWait left | periphSetUp | periphRun => exact .inl ⟨by rw [DmaCntlr.act, held], trivial⟩

theorem m2mLoop_acts (inv : Inv s) (id : ℕ) (enable : DmacStatus) : Acts s (.m2mLoop id enable) := by
 cases held : s.transfers id with
 | none => exact .inl ⟨by rw [DmaCntlr.act, held], trivial⟩
 | some x =>
  obtain ⟨chan, msg, phase⟩ := x
  cases phase with
  | requested | m2mWait left | periphSetUp | periphRun => exact .inl ⟨by rw [DmaCntlr.act, held], trivial⟩
  | m2mLoop left =>
   exact (m2mLoop_orderly inv held (by simp) left enable).acts (by rw [DmaCntlr.act, held]) trivial

theorem m2mWake_acts (inv : Inv s) (id : ℕ) : Acts s (.m2mWake id) := by
 cases held : s.transfers id with
 | none => exact .inl ⟨by rw [DmaCntlr.act, held], trivial⟩
 | some x =>
  obtain ⟨chan, msg, phase⟩ := x
  cases phase with
  | requested | m2mLoop left | periphSetUp | periphRun => exact .inl ⟨by rw [DmaCntlr.act, held], trivial⟩
  | m2mWait left =>
   exact (m2mWake_orderly inv held (by simp) left).acts (by rw [DmaCntlr.act, held]) trivial

theorem periph_acts (inv : Inv s) (id : ℕ) (steps : PeriphSteps) : Acts s (.periph id steps) := by
 have idle : (∀ x, s.transfers id = some x → x.phase ≠ .periphSetUp) → Meets s (.periph id steps) :=
  fun other x held phase => absurd phase (other x held)
 cases held : s.transfers id with
 | none => exact .inl ⟨by rw [DmaCntlr.act, held], idle (by simp [held])⟩
 | some x =>
  obtain ⟨chan, msg, phase⟩ := x
  cases phase with
  | requested | m2mLoop left | m2mWait left | periphRun => exact .inl ⟨by rw [DmaCntlr.act, held], idle (by simp [held])⟩
  | periphSetUp =>
   have hact : s.act (.periph id steps) =
     some (dmacPeriphTransfer s id ⟨chan, msg, .periphSetUp⟩ steps) := by
    rw [DmaCntlr.act, held]
   by_cases addr : msg.srcAddr = 0 ∧ msg.destAddr = 0
   · have moves := periph_moves inv held (by simp) addr steps
     have ends : dmacPeriphTransfer s id ⟨chan, msg, .periphSetUp⟩ steps =
       (some .errInvalidParam, s.setTransfer id none) := by
      rw [dmacPeriphTransfer, if_pos addr]
     rw [ends] at hact moves
     refine .inr ⟨_, _, id, _, none, hact, moves, ?_⟩
     simp [Meets, held, addr, DmaCntlr.setTransfer]
   · refine (periph_orderly inv held (by simp) addr steps).acts hact ?_
     intro x hx _ src dest
     cases held.symm.trans hx
     exact absurd ⟨src, dest⟩ addr

theorem Acts.right_iff (h : Acts s a) (inv : Inv s) (hcall : ∀ msg, a ≠ .transfer msg) :
  Right s a ↔ Meets s a := by
 rcases h with ⟨hact, meets⟩ | ⟨status, t, id, x, y, hact, moves, meets⟩
 · exact iff_of_true (idle_right inv hact hcall) meets
 · exact (moves.right_iff inv hact hcall).trans meets.symm

theorem Acts.inv (h : Acts s a) (inv : Inv s) (hstep : s.step a = some t) : Inv t := by
 obtain ⟨out, hout, rfl⟩ := Option.map_eq_some_iff.mp hstep
 rcases h with ⟨hact, -⟩ | ⟨status, t, id, x, y, hact, moves, -⟩
 · cases hact.symm.trans hout
   exact inv
 · cases hact.symm.trans hout
   exact moves.inv inv

theorem right_iff_meets (inv : Inv s) (a : DmacAction) : Right s a ↔ Meets s a := by
 cases a with
 | transfer msg => exact transfer_right_iff inv msg
 | request id info => exact (request_acts inv id info).right_iff inv (by rintro _ ⟨⟩)
 | m2mLoop id enable => exact (m2mLoop_acts inv id enable).right_iff inv (by rintro _ ⟨⟩)
 | m2mWake id => exact (m2mWake_acts inv id).right_iff inv (by rintro _ ⟨⟩)
 | periph id steps => exact (periph_acts inv id steps).right_iff inv (by rintro _ ⟨⟩)
 | isr i status => exact iff_of_true (isr_right inv i status) trivial

theorem inv_step (inv : Inv s) (right : Right s a) (hstep : s.step a = some t) : Inv t := by
 cases a with
 | transfer msg =>
  obtain ⟨out, hout, rfl⟩ := Option.map_eq_some_iff.mp hstep
  by_cases refused : dmacCntlrCheck s = false ∨ msg.transType = .invalid
  · obtain ⟨error, -, hact⟩ := transfer_refused refused
    cases hact.symm.trans hout
    exact inv
  rw [not_or, Bool.not_eq_false] at refused
  obtain ⟨check, type⟩ := refused
  obtain ⟨c, vacant, -⟩ := (transfer_right_iff inv msg).mp right check type
  have bound := check_channelNum check
  have inside := vacant_lt vacant
  obtain ⟨out', hout', owner, -⟩ := right
  have hact := transfer_given check type vacant
  cases hout'.symm.trans hout
  cases hact.symm.trans hout
  exact given_inv inv (by omega) owner
 | request id info => exact (request_acts inv id info).inv inv hstep
 | m2mLoop id enable => exact (m2mLoop_acts inv id enable).inv inv hstep
 | m2mWake id => exact (m2mWake_acts inv id).inv inv hstep
 | periph id steps => exact (periph_acts inv id steps).inv inv hstep
 | isr i status =>
  cases hstep
  exact isr_inv inv i status

theorem inv_start (channelNum maxTransSize : ℕ) : Inv (.start channelNum maxTransSize) := by
 refine ⟨?_, ?_, ?_, ?_⟩
 · rintro _ _ _ _ ⟨⟩
 · rintro _ _ ⟨⟩
 · rintro _ _ ⟨⟩
 · rintro _ _ ⟨⟩

/-- Channels are given to one transfer at a time, freed at its end and refused when all are busy,
through a run of transfers and interrupts, exactly if no step of the run goes wrong. -/
theorem channels_right_iff (channelNum maxTransSize : ℕ) (actions : List DmacAction) :
    Along DmaCntlr.step Right (.start channelNum maxTransSize) actions ↔
      Along DmaCntlr.step Meets (.start channelNum maxTransSize) actions :=
  along_congr_of_keep (fun _ _ _ inv right hstep => inv_step inv right hstep)
    (fun _ a inv => right_iff_meets inv a) _ actions (inv_start channelNum maxTransSize)

/-- A transfer of two chunks whose channel is given away after the first one. -/
theorem channel_given_twice : ¬ ∀ (channelNum maxTransSize : ℕ) (actions : List DmacAction),
    Along DmaCntlr.step Right (.start channelNum maxTransSize) actions := by
  intro all
  let msg : DmacMsg := ⟨0x1000, 0x2000, .m2m, 8⟩
  let before : List DmacAction :=
    [.transfer msg, .request 0 (some (1, 1)), .m2mLoop 0 .success, .isr 0 .success]
  have run : (exec DmaCntlr.step (.start 2 4) before).map (fun t => (t.act (.transfer msg)).map fun out =>
      ((out.2.transfers 0).map (·.chan), (out.2.transfers 1).map (·.chan))) = some (some (some 0, some 0)) := by
    decide
  obtain ⟨t, ht, hout⟩ := Option.map_eq_some_iff.mp run
  obtain ⟨out, hact, hchans⟩ := Option.map_eq_some_iff.mp hout
  obtain ⟨x, hx, xchan⟩ := Option.map_eq_some_iff.mp (congrArg (·.1) hchans)
  obtain ⟨y, hy, ychan⟩ := Option.map_eq_some_iff.mp (congrArg (·.2) hchans)
  obtain ⟨out', hact', owner, -⟩ := all 2 4 (before ++ [.transfer msg]) before (.transfer msg)
    List.prefix_rfl t ht
  cases hact.symm.trans hact'
  have same := owner 0 x 1 y hx hy (xchan.trans ychan.symm)
  cases same

end DriversFramework.Dmac
