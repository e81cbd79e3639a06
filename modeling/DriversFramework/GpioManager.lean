import Mathlib.Algebra.Group.Nat.Defs
import Mathlib.Data.List.Pairwise
import DriversFramework.HdfBase
import DriversFramework.RunRules

/-! The list of controllers kept by the platform manager of the GPIO module, with
the placement of a new controller and the lookup of a global pin. The reference
count of a platform device, which decides when a removal returns, is left out:
it has no part in which ranges are registered. -/
namespace DriversFramework.GpioManager

def gpioNumMax : ℕ := 0xFFFF

def maxCntPerCntlr : ℕ := 1024

/-- `cntlrId` stands for the address of the controller; `start` and `count` are
`uint16_t` in the source. -/
structure GpioCntlr where
 cntlrId : ℕ
 start : ℕ
 count : ℕ
 deriving DecidableEq

def GpioCntlr.owns (c : GpioCntlr) (gpio : ℕ) : Prop :=
 c.start ≤ gpio ∧ gpio < c.start + c.count

instance (c : GpioCntlr) (gpio : ℕ) : Decidable (c.owns gpio) :=
 inferInstanceAs (Decidable (_ ∧ _))

/-- The loop of the placement search. `iterLast` is never assigned after its
initialisation, so the previous controller is null at the head of every round;
the value left in `cntlrLast` at the end of a round only reaches the code after
the loop. Sums of two `uint16_t` values are taken in `int`. -/
def queryStartLoop (cntlr : GpioCntlr) : Option GpioCntlr → List GpioCntlr → ℕ
 | none, [] => cntlr.start
 | some cntlrLast, [] =>
  if cntlr.start ≥ cntlrLast.start + cntlrLast.count then
   (cntlrLast.start + cntlrLast.count) % 2 ^ 16
  else gpioNumMax
 | _, cntlrCur :: rest =>
  let iterLast : Option GpioCntlr := none
  let freeStart := match iterLast with
   | none => 0
   | some cntlrLast => (cntlrLast.start + cntlrLast.count) % 2 ^ 16
  let freeCount := match iterLast with
   | none => cntlrCur.start
   | some _ => (cntlrCur.start + 2 ^ 16 - freeStart) % 2 ^ 16
  if cntlr.start < freeStart then gpioNumMax
  else if cntlr.start + cntlr.count ≤ freeStart + freeCount then freeStart
  else queryStartLoop cntlr (some cntlrCur) rest

def gpioCntlrQueryStart (cntlr : GpioCntlr) (list : List GpioCntlr) : ℕ :=
 queryStartLoop cntlr none list

def gpioManagerAdd (devices : List GpioCntlr) (cntlr : GpioCntlr) :
  HdfStatus × List GpioCntlr :=
 let start := gpioCntlrQueryStart cntlr devices
 if start ≥ gpioNumMax then (.errInvalidParam, devices)
 else (.success, devices ++ [{ cntlr with start := start }])

def gpioManagerDel (devices : List GpioCntlr) (cntlrId : ℕ) : List GpioCntlr :=
 devices.filter fun c => c.cntlrId ≠ cntlrId

/-- `opsSet` and `ginfosOk` tell whether the methods are supplied and whether the
pin table is supplied or could be allocated. -/
def gpioCntlrAdd (devices : List GpioCntlr) (cntlr : GpioCntlr) (opsSet ginfosOk : Bool) :
  HdfStatus × List GpioCntlr :=
 if !opsSet then (.errInvalidObject, devices)
 else if cntlr.count ≥ maxCntPerCntlr then (.errInvalidParam, devices)
 else if !ginfosOk then (.errMallocFail, devices)
 else gpioManagerAdd devices cntlr

def platformManagerFindDevice (devices : List GpioCntlr) (fits : GpioCntlr → Bool) :
  Option GpioCntlr :=
 devices.foldl (fun found c => if fits c then some c else found) none

def gpioGetCntlr (devices : List GpioCntlr) (gpio : ℕ) : Option GpioCntlr :=
 platformManagerFindDevice devices fun c => decide (c.owns gpio)

/-- `nextCntlr` is the address of the next controller object to be handed over. -/
structure Manager where
 devices : List GpioCntlr
 nextCntlr : ℕ
 deriving DecidableEq

inductive Op where
 | add (start count : UInt16) (opsSet ginfosOk : Bool)
 | remove (cntlrId : ℕ)

def newCntlr (m : Manager) (start count : UInt16) : GpioCntlr :=
 ⟨m.nextCntlr, start.toNat, count.toNat⟩

def step (m : Manager) : Op → Option Manager
 | .add start count opsSet ginfosOk =>
  some ⟨(gpioCntlrAdd m.devices (newCntlr m start count) opsSet ginfosOk).2, m.nextCntlr + 1⟩
 | .remove id => some { m with devices := gpioManagerDel m.devices id }

def initial : Manager := ⟨[], 0⟩

structure RangesOwned (devices : List GpioCntlr) : Prop where
 ordered : devices.Pairwise fun a b => a.start ≤ b.start
 disjoint : devices.Pairwise fun a b => ∀ gpio, ¬ (a.owns gpio ∧ b.owns gpio)
 lookup : ∀ gpio c, gpioGetCntlr devices gpio = some c ↔ c ∈ devices ∧ c.owns gpio

/-- The search for a place reaches the end of the list: no registered controller
starts at or after the end of the requested range. -/
def NoHoleTaken (m : Manager) : Op → Prop
 | .add start count opsSet ginfosOk =>
  opsSet = true → count.toNat < maxCntPerCntlr → ginfosOk = true →
   ∀ cur ∈ m.devices, cur.start < start.toNat + count.toNat
 | .remove _ => True

instance (m : Manager) : (op : Op) → Decidable (NoHoleTaken m op)
 | .add start count opsSet ginfosOk => inferInstanceAs (Decidable
   (opsSet = true → count.toNat < maxCntPerCntlr → ginfosOk = true →
    ∀ cur ∈ m.devices, cur.start < start.toNat + count.toNat))
 | .remove _ => .isTrue trivial

def Stacked (devices : List GpioCntlr) : Prop :=
 devices.Pairwise fun a b => a.start + a.count ≤ b.start

theorem findDevice_append (devices : List GpioCntlr) (c : GpioCntlr) (fits : GpioCntlr → Bool) :
  platformManagerFindDevice (devices ++ [c]) fits =
   if fits c then some c else platformManagerFindDevice devices fits := by
 simp only [platformManagerFindDevice, List.foldl_append, List.foldl_cons, List.foldl_nil]

variable (m : Manager) {devices : List GpioCntlr}

theorem findDevice_some {fits : GpioCntlr → Bool} {c : GpioCntlr}
  (h : platformManagerFindDevice devices fits = some c) : c ∈ devices ∧ fits c = true := by
 induction devices using List.reverseRecOn with
 | nil => cases h
 | append_singleton devices d ih =>
  rw [findDevice_append] at h
  split_ifs at h with hd
  · cases h
    exact ⟨by simp, hd⟩
  · obtain ⟨hmem, hfit⟩ := ih h
    exact ⟨List.mem_append_left _ hmem, hfit⟩

theorem findDevice_of_unique {fits : GpioCntlr → Bool}
  {c : GpioCntlr} (hmem : c ∈ devices) (hfit : fits c = true)
  (hunique : ∀ d ∈ devices, fits d = true → d = c) :
  platformManagerFindDevice devices fits = some c := by
 induction devices using List.reverseRecOn with
 | nil => cases hmem
 | append_singleton devices d ih =>
  rw [findDevice_append]
  split_ifs with hd
  · rw [hunique d (by simp) hd]
  · have hin : c ∈ devices := by
     rcases List.mem_append.mp hmem with old | last
     · exact old
     · rw [List.mem_singleton.mp last] at hfit
       exact absurd hfit hd
    exact ih hin fun e he => hunique e (List.mem_append_left _ he)

theorem owner_unique (h : Stacked devices) (gpio : ℕ)
  {c d : GpioCntlr} (hc : c ∈ devices) (hd : d ∈ devices) (oc : c.owns gpio)
  (od : d.owns gpio) : d = c := by
 obtain ⟨hc1, hc2⟩ := oc
 obtain ⟨hd1, hd2⟩ := od
 induction h with
 | nil => cases hc
 | @cons a rest before _ ih =>
  rcases List.mem_cons.mp hc with ec | inc <;> rcases List.mem_cons.mp hd with ed | ind
  · rw [ec, ed]
  · have := before d ind
    rw [← ec] at this
    omega
  · have := before c inc
    rw [← ed] at this
    omega
  · exact ih inc ind

theorem Stacked.rangesOwned (h : Stacked devices) :
  RangesOwned devices := by
 refine ⟨?_, ?_, ?_⟩
 · exact h.imp fun {a b} hab => by omega
 · refine h.imp fun {a b} hab gpio => ?_
   rintro ⟨⟨-, ha⟩, ⟨hb, -⟩⟩
   omega
 · intro gpio c
   constructor
   · intro hfound
     obtain ⟨hmem, hfit⟩ := findDevice_some hfound
     exact ⟨hmem, of_decide_eq_true hfit⟩
   · rintro ⟨hmem, howns⟩
     apply findDevice_of_unique hmem (decide_eq_true howns)
     intro d hd hfit
     exact owner_unique h gpio hmem hd howns (of_decide_eq_true hfit)

theorem queryStartLoop_tail (cntlr : GpioCntlr) (last : Option GpioCntlr)
  (list : List GpioCntlr) (h : ∀ cur ∈ list, cur.start < cntlr.start + cntlr.count) :
  queryStartLoop cntlr last list =
   queryStartLoop cntlr (list.getLast?.or last) [] := by
 induction list generalizing last with
 | nil => rfl
 | cons cur rest ih =>
  obtain ⟨hcur, hrest⟩ := List.forall_mem_cons.mp h
  have next : queryStartLoop cntlr last (cur :: rest) = queryStartLoop cntlr (some cur) rest := by
   simp only [queryStartLoop, Nat.not_lt_zero, if_false, Nat.zero_add, not_le.mpr hcur]
  rw [next, ih (some cur) hrest, List.getLast?_cons]
  cases rest.getLast? <;> rfl

theorem queryStart_above (cntlr : GpioCntlr) (devices : List GpioCntlr)
  (hstart : cntlr.start < 2 ^ 16) (hstacked : Stacked devices)
  (h : ∀ cur ∈ devices, cur.start < cntlr.start + cntlr.count)
  (hok : gpioCntlrQueryStart cntlr devices < gpioNumMax) :
  ∀ a ∈ devices, a.start + a.count ≤ gpioCntlrQueryStart cntlr devices := by
 induction devices using List.reverseRecOn with
 | nil => intro a ha; cases ha
 | append_singleton front last _ =>
  have place : gpioCntlrQueryStart cntlr (front ++ [last]) =
    if cntlr.start ≥ last.start + last.count then (last.start + last.count) % 2 ^ 16
    else gpioNumMax := by
   rw [gpioCntlrQueryStart, queryStartLoop_tail cntlr none _ h, List.getLast?_concat]
   rfl
  rw [place] at hok ⊢
  split_ifs at hok ⊢ with room
  · rw [Nat.mod_eq_of_lt (by omega)]
    intro a ha
    rcases List.mem_append.mp ha with before | same
    · have := (List.pairwise_append.mp hstacked).2.2 a before last (by simp)
      omega
    · rw [List.mem_singleton.mp same]
  · exact absurd hok (by omega)

theorem gpioManagerAdd_stacked (devices : List GpioCntlr) (cntlr : GpioCntlr)
  (hstart : cntlr.start < 2 ^ 16) (hstacked : Stacked devices)
  (h : ∀ cur ∈ devices, cur.start < cntlr.start + cntlr.count) :
  Stacked (gpioManagerAdd devices cntlr).2 := by
 unfold gpioManagerAdd
 dsimp only
 split_ifs with full
 · exact hstacked
 · refine List.pairwise_append.mpr ⟨hstacked, List.pairwise_singleton _ _, ?_⟩
   intro a ha b hb
   rw [List.mem_singleton.mp hb]
   exact queryStart_above cntlr devices hstart hstacked h (by omega) a ha

theorem step_stacked (t : Manager) (op : Op) (hm : Stacked m.devices)
  (hop : NoHoleTaken m op) (h : step m op = some t) : Stacked t.devices := by
 cases op with
 | add start count opsSet ginfosOk =>
  cases h
  change Stacked (gpioCntlrAdd m.devices (newCntlr m start count) opsSet ginfosOk).2
  unfold gpioCntlrAdd
  split_ifs with hops hcount hinfos
  · exact hm
  · exact hm
  · exact hm
  · have clear := hop (by simpa using hops) (by simpa [newCntlr] using hcount)
     (by simpa using hinfos)
    exact gpioManagerAdd_stacked m.devices _ start.toNat_lt hm clear
 | remove id =>
  cases h
  exact hm.filter _

theorem step_exists_stacked (op : Op) (hm : Stacked m.devices)
  (hop : NoHoleTaken m op) : ∃ t, step m op = some t ∧ Stacked t.devices := by
 cases hstep : step m op with
 | none => cases op <;> cases hstep
 | some t => exact ⟨t, rfl, step_stacked m t op hm hop hstep⟩

/-- An accepted controller is registered with the count it asked for. -/
def AcceptedRegistered (m : Manager) : Op → Prop
 | .add start count opsSet ginfosOk =>
  (gpioCntlrAdd m.devices (newCntlr m start count) opsSet ginfosOk).1 = .success →
   ∃ s, (⟨m.nextCntlr, s, count.toNat⟩ : GpioCntlr) ∈
    (gpioCntlrAdd m.devices (newCntlr m start count) opsSet ginfosOk).2
 | .remove _ => True

theorem accepted_registered (op : Op) : AcceptedRegistered m op := by
 cases op with
 | add start count opsSet ginfosOk =>
  intro hok
  unfold gpioCntlrAdd gpioManagerAdd at hok ⊢
  dsimp only at hok ⊢
  split_ifs at hok ⊢
  exact ⟨_, List.mem_append_right _ (List.mem_singleton_self _)⟩
 | remove id => trivial

/-- In every run whose additions all find their place behind the last controller,
the registered ranges are ordered and disjoint in every state, a pin is looked up
to its owner, and an accepted controller is registered with its count. -/
theorem rangesOwned_of_noHoleTaken (ops : List Op)
    (h : RunRules.Along step NoHoleTaken initial ops) :
    RunRules.Safe step (fun m => RangesOwned m.devices) initial ops ∧
      RunRules.Along step AcceptedRegistered initial ops := by
  refine ⟨?_, fun _ _ _ m _ => accepted_registered m _⟩
  have stacked := RunRules.safe_of_along step_exists_stacked initial ops List.Pairwise.nil h
  intro pre hpre
  obtain ⟨m, hm, hs⟩ := stacked pre hpre
  exact ⟨m, hm, hs.rangesOwned⟩

/-- The second controller finds its place behind the first one. -/
theorem rangesOwned_two_controllers : RunRules.Safe step (fun m => RangesOwned m.devices) initial
      [.add 0 32 true true, .add 40 32 true true] ∧
    RunRules.Along step AcceptedRegistered initial
      [.add 0 32 true true, .add 40 32 true true] := by
  refine rangesOwned_of_noHoleTaken _ ?_
  simp only [RunRules.along_cons]
  refine ⟨fun _ _ _ cur hcur => (List.not_mem_nil hcur).elim, ?_⟩
  intro t ht
  have reached : t = ⟨[⟨0, 0, 32⟩], 1⟩ := Option.some.inj ht.symm
  subst reached
  exact ⟨by decide, fun _ _ => RunRules.along_nil _⟩

def PositiveCount : Op → Prop
 | .add _ count _ _ => 0 < count.toNat
 | .remove _ => True

/-- A range placed behind a later one, and a third one on the same pins. -/
theorem second_hole_overlaps : ¬ RunRules.Safe step (fun m => RangesOwned m.devices) initial
    [.add 100 10 true true, .add 0 50 true true, .add 0 50 true true] := by
  intro h
  obtain ⟨m, hm, howned⟩ := h _ (List.prefix_refl _)
  have reached : m = ⟨[⟨0, 100, 10⟩, ⟨1, 0, 50⟩, ⟨2, 0, 50⟩], 3⟩ := Option.some.inj hm.symm
  have apart := howned.disjoint
  rw [reached] at apart
  simp only [List.pairwise_cons] at apart
  exact apart.2.1 _ (List.mem_singleton_self _) 0 (by decide)

end DriversFramework.GpioManager
