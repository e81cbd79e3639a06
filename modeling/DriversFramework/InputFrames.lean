import Mathlib.Data.List.Basic
import Mathlib.Data.Nat.Notation

/-! `PushOnePackage` (`event_hub.c`): packages gather in the buffer of a device until the one that
ends the frame. The codes of that package, and whether a write to the buffer succeeds, are given. -/
namespace DriversFramework.InputFrames

structure EventPackage where
 type : UInt32
 code : UInt32
 value : Int32
 time : UInt64
 deriving DecidableEq

/-- What is written to a package buffer; `endMark` is the null package. -/
inductive Entry where
 | package (package : EventPackage)
 | endMark
 deriving DecidableEq

structure InputDevice where
 hdfDevObj : Bool
 pkgNum : UInt16
 pkgCount : UInt16
 errFrameFlag : Bool
 pkgBuf : List Entry
 sent : List (List Entry)

/-- One call with its time, the answer to the write of its package and, where the package ends a
frame, the one to the write of the end mark. -/
structure Push where
 package : EventPackage
 written : Bool
 marked : Bool

def sendFramePackages (dev : InputDevice) : InputDevice :=
 if dev.hdfDevObj then { dev with sent := dev.sent ++ [dev.pkgBuf] } else dev

def writeEntry (dev : InputDevice) (entry : Entry) (written : Bool) : InputDevice :=
 if written then { dev with pkgBuf := dev.pkgBuf ++ [entry] }
 else { dev with pkgBuf := [], errFrameFlag := true }

def countPackage (dev : InputDevice) : InputDevice :=
 { dev with
  pkgCount := dev.pkgCount + 1
  errFrameFlag := dev.errFrameFlag || decide (dev.pkgNum ≤ dev.pkgCount + 1) }

def endFrame (dev : InputDevice) (marked : Bool) : InputDevice :=
 let dev := writeEntry dev .endMark marked
 let dev := if dev.errFrameFlag then dev else sendFramePackages dev
 { dev with pkgCount := 0, pkgBuf := [], errFrameFlag := false }

section Codes
variable (evSyn synReport : UInt32)

def Push.isReport (p : Push) : Bool := p.package.type == evSyn && p.package.code == synReport

def pushOnePackage (dev : InputDevice) (p : Push) : InputDevice :=
 let dev := countPackage (writeEntry dev (.package p.package) p.written)
 if p.isReport evSyn synReport then endFrame dev p.marked else dev

/-- The frames of a sequence, `current` being the packages since the last end. -/
def framesFrom (current : List Push) : List Push → List (List Push)
 | [] => []
 | p :: ps =>
  if p.isReport evSyn synReport then (current ++ [p]) :: framesFrom [] ps
  else framesFrom (current ++ [p]) ps

/-- What is left behind the last end -/
def restFrom (current : List Push) : List Push → List Push
 | [] => current
 | p :: ps => restFrom (if p.isReport evSyn synReport then [] else current ++ [p]) ps

/-- Packages up to and including the first that ends a frame -/
def IsFrame (frame : List Push) : Prop :=
 ∃ body last, frame = body ++ [last] ∧ last.isReport evSyn synReport = true ∧
  ∀ p ∈ body, p.isReport evSyn synReport = false

/-- A frame below the limit without a failed write -/
def goodFrame (pkgNum : UInt16) (frame : List Push) : Bool :=
 decide (frame.length < pkgNum.toNat) && frame.all Push.written &&
  (frame.getLast?.any Push.marked)

def frameEvent (frame : List Push) : List Entry :=
 frame.map (fun p => .package p.package) ++ [.endMark]

def idle (pkgNum : UInt16) (sent : List (List Entry)) : InputDevice :=
 ⟨true, pkgNum, 0, false, [], sent⟩

variable {evSyn synReport} {pkgNum : UInt16} {sent : List (List Entry)} {dev : InputDevice}
  {current : List Push} {p : Push}

structure Gathers (pkgNum : UInt16) (sent : List (List Entry)) (current : List Push)
  (dev : InputDevice) : Prop where
 bound : dev.hdfDevObj = true
 limit : dev.pkgNum = pkgNum
 events : dev.sent = sent
 kept : dev.errFrameFlag = false → current.all Push.written = true ∧
  (current ≠ [] → current.length < pkgNum.toNat) ∧ dev.pkgCount.toNat = current.length ∧
  dev.pkgBuf = current.map fun p => .package p.package
 lost : dev.errFrameFlag = true →
  ¬(current.all Push.written = true ∧ current.length < pkgNum.toNat)

theorem gathers_idle : Gathers pkgNum sent [] (idle pkgNum sent) :=
 ⟨rfl, rfl, rfl, fun _ => ⟨rfl, fun some => absurd rfl some, rfl, rfl⟩, fun lost => nomatch lost⟩

theorem Gathers.push (h : Gathers pkgNum sent current dev) (p : Push) :
  Gathers pkgNum sent (current ++ [p])
   (countPackage (writeEntry dev (.package p.package) p.written)) := by
 have all (fine : (current ++ [p]).all Push.written = true) :
   current.all Push.written = true ∧ p.written = true := by
  simpa using fine
 cases written : p.written with
 | false =>
  refine ⟨h.bound, h.limit, h.events, fun kept => ?_, fun _ fine => ?_⟩
  · exact absurd kept (by simp [countPackage, writeEntry])
  · exact Bool.false_ne_true (written.symm.trans (all fine.1).2)
 | true =>
  change Gathers pkgNum sent (current ++ [p])
   (countPackage { dev with pkgBuf := dev.pkgBuf ++ [.package p.package] })
  refine ⟨h.bound, h.limit, h.events, fun kept => ?_, fun lost fine => ?_⟩
  · obtain ⟨flag, below⟩ := Bool.or_eq_false_iff.mp kept
    obtain ⟨clean, few, count, buffer⟩ := h.kept flag
    have below : dev.pkgCount + 1 < dev.pkgNum := UInt16.not_le.mp (of_decide_eq_false below)
    have fits : dev.pkgCount.toNat + 1 < 2 ^ 16 := by
     by_cases first : current = []
     · rw [count, first]
       decide
     · have := few first
       have := pkgNum.toNat_lt
       omega
    have next : (dev.pkgCount + 1).toNat = dev.pkgCount.toNat + 1 :=
     (UInt16.toNat_add _ _).trans (Nat.mod_eq_of_lt fits)
    rw [UInt16.lt_iff_toNat_lt, next, count, h.limit] at below
    refine ⟨by simp [clean, written], fun _ => by simpa using below, ?_, ?_⟩
    · exact next.trans (by simp [count])
    · change dev.pkgBuf ++ _ = _
      rw [buffer, List.map_append]
      rfl
  · have short : current.length + 1 < pkgNum.toNat := by simpa using fine.2
    have := pkgNum.toNat_lt
    rcases Bool.or_eq_true_iff.mp lost with flag | reached
    · exact h.lost flag ⟨(all fine.1).1, by omega⟩
    · cases flag : dev.errFrameFlag with
      | true => exact h.lost flag ⟨(all fine.1).1, by omega⟩
      | false =>
       have reached := UInt16.le_iff_toNat_le.mp (of_decide_eq_true reached)
       rw [h.limit, UInt16.toNat_add, (h.kept flag).2.2.1] at reached
       change pkgNum.toNat ≤ (current.length + 1) % 2 ^ 16 at reached
       omega

theorem Gathers.endFrame {frame : List Push} (h : Gathers pkgNum sent frame dev)
  (last : frame.getLast? = some p) :
  endFrame dev p.marked =
   idle pkgNum (sent ++ if goodFrame pkgNum frame then [frameEvent frame] else []) := by
 have some : frame ≠ [] := by
  rintro rfl
  cases last
 have good : goodFrame pkgNum frame = (!dev.errFrameFlag && p.marked) := by
  unfold goodFrame
  rw [last]
  change (_ && p.marked) = _
  cases flag : dev.errFrameFlag with
  | false =>
   obtain ⟨clean, few, _, _⟩ := h.kept flag
   rw [decide_eq_true (few some), clean]
   rfl
  | true =>
   have := h.lost flag
   by_cases short : frame.length < pkgNum.toNat
   · rw [Bool.eq_false_iff.mpr fun clean => this ⟨clean, short⟩]
     simp
   · rw [decide_eq_false short]
     rfl
 obtain ⟨bound, limit, events, kept, _⟩ := h
 rw [good]
 unfold DriversFramework.InputFrames.endFrame writeEntry sendFramePackages
 cases p.marked with
 | false => simp [idle, bound, limit, events]
 | true =>
  cases flag : dev.errFrameFlag with
  | false => simp [idle, bound, limit, events, frameEvent, (kept flag).2.2.2]
  | true => simp [idle, bound, limit, events]

theorem Gathers.sent_foldl (h : Gathers pkgNum sent current dev) (ps : List Push) :
  (ps.foldl (pushOnePackage evSyn synReport) dev).sent = sent ++
   ((framesFrom evSyn synReport current ps).filter (goodFrame pkgNum)).map frameEvent := by
 induction ps generalizing dev current sent with
 | nil => simpa [framesFrom] using h.events
 | cons p ps ih =>
  have pushed := h.push p
  rw [List.foldl_cons, framesFrom]
  by_cases report : p.isReport evSyn synReport = true
  · have next : pushOnePackage evSyn synReport dev p =
      InputFrames.endFrame _ p.marked := if_pos report
    rw [next, if_pos report, pushed.endFrame List.getLast?_concat, ih gathers_idle,
     List.filter_cons]
    split
    · simp
    · simp
  · have next : pushOnePackage evSyn synReport dev p = countPackage _ := if_neg report
    rw [next, if_neg report]
    exact ih pushed

theorem framesFrom_flatten (current ps : List Push) :
  (framesFrom evSyn synReport current ps).flatten ++ restFrom evSyn synReport current ps =
   current ++ ps := by
 induction ps generalizing current with
 | nil => simp [framesFrom, restFrom]
 | cons p ps ih =>
  rw [framesFrom, restFrom]
  split
  · rw [List.flatten_cons, List.append_assoc, ih]
    simp
  · rw [ih]
    simp

theorem framesFrom_isFrame (ps : List Push)
  (unended : ∀ p ∈ current, p.isReport evSyn synReport = false) :
  (∀ frame ∈ framesFrom evSyn synReport current ps, IsFrame evSyn synReport frame) ∧
   ∀ p ∈ restFrom evSyn synReport current ps, p.isReport evSyn synReport = false := by
 induction ps generalizing current with
 | nil => exact ⟨fun _ mem => (List.not_mem_nil mem).elim, unended⟩
 | cons p ps ih =>
  rw [framesFrom, restFrom]
  by_cases report : p.isReport evSyn synReport = true
  · rw [if_pos report, if_pos report]
    obtain ⟨frames, rest⟩ := @ih [] fun _ mem => (List.not_mem_nil mem).elim
    refine ⟨fun frame mem => ?_, rest⟩
    rcases List.mem_cons.mp mem with rfl | mem
    · exact ⟨current, p, rfl, report, unended⟩
    · exact frames frame mem
  rw [if_neg report, if_neg report]
  refine ih fun q mem => ?_
  rcases List.mem_append.mp mem with old | new
  · exact unended q old
  · obtain rfl := List.mem_singleton.mp new
    exact Bool.eq_false_iff.mpr report

variable (evSyn synReport pkgNum)

/-- The pushed packages are frames and an open rest, and what is sent are the good frames. -/
theorem pushes_send_frames (ps : List Push) :
    (framesFrom evSyn synReport [] ps).flatten ++ restFrom evSyn synReport [] ps = ps ∧
      (∀ frame ∈ framesFrom evSyn synReport [] ps, IsFrame evSyn synReport frame) ∧
      (∀ p ∈ restFrom evSyn synReport [] ps, p.isReport evSyn synReport = false) ∧
      (ps.foldl (pushOnePackage evSyn synReport) (idle pkgNum [])).sent =
        ((framesFrom evSyn synReport [] ps).filter (goodFrame pkgNum)).map frameEvent := by
  have framed := @framesFrom_isFrame evSyn synReport [] ps
    fun _ mem => (List.not_mem_nil mem).elim
  exact ⟨framesFrom_flatten [] ps, framed.1, framed.2, gathers_idle.sent_foldl ps⟩

end Codes

end DriversFramework.InputFrames
