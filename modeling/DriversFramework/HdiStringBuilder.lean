import DriversFramework.RunRules

/-! `StringBuilder` (`string_builder.cpp`): a buffer that grows. A store beyond `capacity_` is
recorded. Whether memory is granted is an input of each call. -/
namespace DriversFramework.HdiStringBuilder
open RunRules

def lineMaxSize : ℕ := 1024

def maxSize : ℕ := 262144

structure StringBuilder where
 buffer : ℕ → UInt8
 position : ℕ
 capacity : ℕ
 outside : Bool

namespace StringBuilder

def store (b : StringBuilder) (start : ℕ) (bytes : List UInt8) : StringBuilder :=
 { b with
  buffer := fun i =>
   if start ≤ i ∧ i < start + bytes.length then bytes.getD (i - start) 0 else b.buffer i
  outside := b.outside || decide (b.capacity < start + bytes.length) }

/-- `memcpy_s`, which sets the destination to 0 when it fails -/
def memcpyS (b : StringBuilder) (start destMax : ℕ) (bytes : List UInt8) : StringBuilder :=
 if destMax < bytes.length then b.store start (List.replicate destMax 0) else b.store start bytes

def advance (b : StringBuilder) (len : ℕ) : StringBuilder := { b with position := b.position + len }

def newSize (capacity size : ℕ) : ℕ :=
 let doubled := if capacity = 0 then 256 else capacity * 2
 let needed := if doubled < capacity + size then capacity + size else doubled
 if maxSize < needed then maxSize else needed

def grow (b : StringBuilder) (size : ℕ) (granted : Bool) : Option StringBuilder :=
 if maxSize < b.capacity then none
 else if newSize b.capacity size ≤ b.capacity then none
 else if granted then
  some { b with
   buffer := fun i => if i < b.capacity then b.buffer i else 0
   capacity := newSize b.capacity size }
 else none

def reserve (b : StringBuilder) (len : ℕ) (granted : Bool) : Option StringBuilder :=
 if b.capacity ≤ b.position + len then b.grow len granted else some b

def appendChar (b : StringBuilder) (c : UInt8) (granted : Bool) : StringBuilder :=
 match b.reserve 1 granted with
 | none => b
 | some b => (b.store b.position [c]).advance 1

def copyText (b : StringBuilder) (text : List UInt8) (granted : Bool) : StringBuilder :=
 match b.reserve text.length granted with
 | none => b
 | some b => (b.memcpyS b.position (b.capacity - b.position) text).advance text.length

/-- `Append(const char*)`; the text of a C string ends before its first null character. -/
def appendCString (b : StringBuilder) (text : List UInt8) (granted : Bool) : StringBuilder :=
 if text = [] then b else b.copyText text granted

/-- `Append(const String&)`; a string that begins with a null character counts as empty. -/
def appendString (b : StringBuilder) (text : List UInt8) (granted : Bool) : StringBuilder :=
 if text = [] ∨ text.head? = some 0 then b else b.copyText text granted

/-- `AppendFormat`, given the formatted text: `vsnprintf_s` answers -1 for one that the line
does not hold, and ends what it writes with a null character. -/
def appendFormat (b : StringBuilder) (text : List UInt8) (granted : Bool) : StringBuilder :=
 if lineMaxSize - 1 < text.length then b
 else if text = [] then b
 else match b.reserve text.length granted with
  | none => b
  | some b => (b.store b.position (text ++ [0])).advance text.length

def contents (b : StringBuilder) : List UInt8 := (List.range b.position).map b.buffer

def toString (b : StringBuilder) : List UInt8 := if b.capacity = 0 then [] else b.contents

end StringBuilder

inductive Append where
 | char (c : UInt8)
 | cString (chars : List UInt8)
 | string (text : List UInt8)
 | format (text : List UInt8)

def Append.text : Append → List UInt8
 | .char c => [c]
 | .cString chars => chars.takeWhile (· != 0)
 | .string text => text
 | .format text => text

/-- A builder with the texts that it was given -/
structure Writer where
 builder : StringBuilder
 texts : List UInt8

def fresh : Writer := ⟨⟨fun _ => 0, 0, 0, false⟩, []⟩

def perform (b : StringBuilder) (granted : Bool) : Append → StringBuilder
 | .char c => b.appendChar c granted
 | .cString chars => b.appendCString (chars.takeWhile (· != 0)) granted
 | .string text => b.appendString text granted
 | .format text => b.appendFormat text granted

def step (w : Writer) (call : Append × Bool) : Option Writer :=
 some ⟨perform w.builder call.2 call.1, w.texts ++ call.1.text⟩

/-- What the builder promises. -/
structure Right (w : Writer) : Prop where
 within : w.builder.position ≤ w.builder.capacity
 inside : w.builder.outside = false
 exact : w.texts.length < maxSize → w.builder.toString = w.texts

/-- The text stays below the limit with `len` more characters. -/
def Writer.Short (w : Writer) (len : ℕ) : Prop := w.texts.length + len < maxSize

def StringBuilder.Full (b : StringBuilder) (len : ℕ) : Prop := b.capacity ≤ b.position + len

def StringBuilder.Grows (b : StringBuilder) (granted : Bool) : Prop :=
 b.capacity < maxSize ∧ granted = true

def CopyFine (w : Writer) (len : ℕ) (granted : Bool) : Prop :=
 (w.Short len → w.builder.Full len → granted = true) ∧
  (w.builder.Grows granted → w.builder.position + len ≤ maxSize)

def FormatFine (w : Writer) (len : ℕ) (granted : Bool) : Prop :=
 (w.Short len → len < lineMaxSize) ∧
  (len < lineMaxSize → w.builder.Full len →
   (w.Short len → granted = true) ∧
    (w.builder.Grows granted → w.builder.position + len < maxSize ∧
     (w.builder.position = w.builder.capacity →
      len < if w.builder.capacity = 0 then 256 else w.builder.capacity)))

/-- The condition on a call: an empty text does nothing. -/
def Fine (w : Writer) (call : Append × Bool) : Prop :=
 call.1.text = [] ∨
  match call.1 with
  | .char _ => w.Short 1 → w.builder.Full 1 → call.2 = true
  | .cString chars => CopyFine w (chars.takeWhile (· != 0)).length call.2
  | .string text =>
   if text.head? = some 0 then ¬w.Short text.length else CopyFine w text.length call.2
  | .format text => FormatFine w text.length call.2

variable {b : StringBuilder} {w t : Writer} {granted : Bool}

namespace StringBuilder

theorem newSize_gt {capacity size : ℕ} (pos : 0 < size) (room : capacity < maxSize) :
  capacity < newSize capacity size := by
 unfold newSize
 dsimp only
 split_ifs <;> omega

theorem newSize_le (capacity size : ℕ) : newSize capacity size ≤ maxSize := by
 unfold newSize
 dsimp only
 split_ifs <;> omega

theorem newSize_room (capacity size : ℕ) :
  newSize capacity size = maxSize ∨ capacity + size ≤ newSize capacity size := by
 unfold newSize
 dsimp only
 split_ifs <;> omega

theorem lt_newSize_iff {position capacity len : ℕ} (within : position ≤ capacity) :
  position + len < newSize capacity len ↔ position + len < maxSize ∧
   (position = capacity → len < if capacity = 0 then 256 else capacity) := by
 unfold newSize
 dsimp only
 by_cases zero : capacity = 0
 · simp only [zero, if_true]
   split_ifs <;> omega
 · simp only [zero, if_false]
   split_ifs <;> omega

def grown (b : StringBuilder) (len : ℕ) : StringBuilder :=
 { b with
  buffer := fun i => if i < b.capacity then b.buffer i else 0
  capacity := newSize b.capacity len }

theorem grow_some {len : ℕ} (pos : 0 < len) (grows : b.Grows granted) :
  b.grow len granted = some (b.grown len) := by
 unfold grow
 rw [if_neg (Nat.not_lt.mpr (Nat.le_of_lt grows.1)),
  if_neg (Nat.not_le.mpr (newSize_gt pos grows.1)), if_pos grows.2]
 rfl

theorem grow_none {len : ℕ} (bounded : b.capacity ≤ maxSize) (stays : ¬b.Grows granted) :
  b.grow len granted = none := by
 unfold grow
 rw [if_neg (Nat.not_lt.mpr bounded)]
 split
 · rfl
 · next more =>
   have room : b.capacity < maxSize := (Nat.not_le.mp more).trans_le (newSize_le _ _)
   exact if_neg fun granted => stays ⟨room, granted⟩

theorem contents_grown (within : b.position ≤ b.capacity) (len : ℕ) :
  (b.grown len).contents = b.contents :=
 List.map_congr_left fun _ mem => if_pos ((List.mem_range.mp mem).trans_le within)

theorem contents_store (b : StringBuilder) (text rest : List UInt8) :
  ((b.store b.position (text ++ rest)).advance text.length).contents = b.contents ++ text := by
 unfold contents advance store
 dsimp only
 rw [List.range_add, List.map_append, List.map_map]
 congr 1
 · refine List.map_congr_left fun i mem => if_neg ?_
   have := List.mem_range.mp mem
   omega
 · refine List.ext_getElem (by simp) fun i inside _ => ?_
   rw [List.length_map, List.length_range] at inside
   simp [inside, Nat.lt_add_right _ inside]

theorem store_inside {start : ℕ} {bytes : List UInt8} :
  (b.store start bytes).outside = false ↔
   b.outside = false ∧ start + bytes.length ≤ b.capacity := by
 simp [store]

end StringBuilder

/-- The texts are in the buffer, as long as they stay below the limit. -/
structure Sound (w : Writer) : Prop where
 within : w.builder.position ≤ w.builder.capacity
 bounded : w.builder.capacity ≤ maxSize
 inside : w.builder.outside = false
 exact : w.texts.length < maxSize → w.builder.contents = w.texts

theorem toString_eq (within : b.position ≤ b.capacity) : b.toString = b.contents := by
 unfold StringBuilder.toString
 split
 · next zero =>
   rw [zero] at within
   rw [StringBuilder.contents, Nat.le_zero.mp within]
   rfl
 · rfl

theorem Sound.right (sound : Sound w) : Right w where
 within := sound.within
 inside := sound.inside
 exact short := (toString_eq sound.within).trans (sound.exact short)

theorem sound_fresh : Sound fresh := ⟨Nat.le_refl _, Nat.zero_le _, rfl, fun _ => rfl⟩

theorem Sound.below (sound : Sound w) {len : ℕ} (short : w.Short len)
  (full : w.builder.Full len) : w.builder.capacity < maxSize := by
 unfold Writer.Short at short
 have length := congrArg List.length (sound.exact (by omega))
 rw [StringBuilder.contents, List.length_map, List.length_range] at length
 unfold StringBuilder.Full at full
 omega

theorem Sound.stored (sound : Sound w) (b : StringBuilder) (text rest : List UInt8)
  (bounded : b.capacity ≤ maxSize) (inside : b.outside = false)
  (same : b.contents = w.builder.contents)
  (room : b.position + (text ++ rest).length ≤ b.capacity) :
  Sound ⟨(b.store b.position (text ++ rest)).advance text.length, w.texts ++ text⟩ where
 within := by
  rw [List.length_append] at room
  change b.position + text.length ≤ b.capacity
  omega
 bounded := bounded
 inside := StringBuilder.store_inside.mpr ⟨inside, room⟩
 exact short := by
  rw [List.length_append] at short
  rw [StringBuilder.contents_store, same, sound.exact (by omega)]

theorem Sound.dropped (sound : Sound w) {text : List UInt8} (long : ¬w.Short text.length) :
  Sound ⟨w.builder, w.texts ++ text⟩ where
 within := sound.within
 bounded := sound.bounded
 inside := sound.inside
 exact short := by
  rw [List.length_append] at short
  exact absurd short long

theorem Sound.missed (sound : Sound w) {text : List UInt8} (some : text ≠ [])
  (right : Right ⟨w.builder, w.texts ++ text⟩) : ¬w.Short text.length := by
 intro short
 have all := right.exact (List.length_append ▸ short)
 have old := sound.right.exact (Nat.lt_of_le_of_lt (Nat.le_add_right _ _) short)
 exact some (List.self_eq_append_right.mp (old.symm.trans all))

theorem reserve_cases (granted : Bool) {len : ℕ} (pos : 0 < len)
  (bounded : b.capacity ≤ maxSize) :
  (¬b.Full len ∧ b.reserve len granted = some b) ∨
   (b.Full len ∧ b.Grows granted ∧ b.reserve len granted = some (b.grown len)) ∨
   (b.Full len ∧ ¬b.Grows granted ∧ b.reserve len granted = none) := by
 by_cases full : b.Full len
 · have reserves : b.reserve len granted = b.grow len granted := if_pos full
   by_cases grows : b.Grows granted
   · exact .inr (.inl ⟨full, grows, reserves.trans (StringBuilder.grow_some pos grows)⟩)
   · exact .inr (.inr ⟨full, grows, reserves.trans (StringBuilder.grow_none bounded grows)⟩)
 · exact .inl ⟨full, if_neg full⟩

def Exactly (t : Writer) (fine : Prop) : Prop := (fine → Sound t) ∧ (Right t → fine)

theorem exactly_of_sound {t : Writer} {fine : Prop} (sound : Sound t) (holds : fine) :
  Exactly t fine := ⟨fun _ => sound, fun _ => holds⟩

theorem exactly_of_wrong {t : Writer} {fine : Prop} (wrong : ¬Right t) (fails : ¬fine) :
  Exactly t fine := ⟨fun holds => absurd holds fails, fun right => absurd right wrong⟩

theorem Sound.exactly_dropped (sound : Sound w) {text : List UInt8} (some : text ≠ []) {fine : Prop}
  (same : fine ↔ ¬w.Short text.length) : Exactly ⟨w.builder, w.texts ++ text⟩ fine :=
 ⟨fun holds => sound.dropped (same.mp holds), fun right => same.mpr (sound.missed some right)⟩

theorem Sound.refused (sound : Sound w) {len : ℕ} (full : w.builder.Full len)
  (stays : ¬w.builder.Grows granted) : (w.Short len → granted = true) ↔ ¬w.Short len :=
 ⟨fun given short => stays ⟨sound.below short full, given short⟩, fun long => (absurd · long)⟩

theorem appendChar_exactly (sound : Sound w) (c : UInt8) :
  Exactly ⟨w.builder.appendChar c granted, w.texts ++ [c]⟩
   (w.Short 1 → w.builder.Full 1 → granted = true) := by
 unfold StringBuilder.appendChar
 rcases reserve_cases granted Nat.one_pos sound.bounded with
  ⟨free, same⟩ | ⟨full, grows, same⟩ | ⟨full, stays, same⟩
 · rw [same]
   have stored := sound.stored _ [c] [] sound.bounded sound.inside rfl
   exact exactly_of_sound (stored (Nat.not_le.mp free).le) fun _ full => absurd full free
 · rw [same]
   have stored := sound.stored (w.builder.grown 1) [c] []
    (StringBuilder.newSize_le _ _) sound.inside (StringBuilder.contents_grown sound.within 1)
   refine exactly_of_sound (stored ?_) fun _ _ => grows.2
   exact (Nat.succ_le_succ sound.within).trans (StringBuilder.newSize_gt Nat.one_pos grows.1)
 · rw [same]
   refine sound.exactly_dropped (List.cons_ne_nil c []) ?_
   rw [List.length_singleton, ← sound.refused full stays]
   exact forall_congr' fun _ => ⟨fun given => given full, fun given _ => given⟩

theorem copyText_exactly (granted : Bool) (sound : Sound w) {text : List UInt8} (some : text ≠ []) :
  Exactly ⟨w.builder.copyText text granted, w.texts ++ text⟩
   (CopyFine w text.length granted) := by
 have pos : 0 < text.length := List.length_pos_iff.mpr some
 unfold StringBuilder.copyText
 rcases reserve_cases granted pos sound.bounded with
  ⟨free, same⟩ | ⟨full, grows, same⟩ | ⟨full, stays, same⟩
 · have room : w.builder.position + text.length < w.builder.capacity := Nat.not_le.mp free
   rw [same]
   unfold StringBuilder.memcpyS
   dsimp only
   rw [if_neg (by omega)]
   have stored := sound.stored _ text [] sound.bounded sound.inside rfl
   rw [List.append_nil] at stored
   exact exactly_of_sound (stored room.le)
    ⟨fun _ full => absurd full free, fun _ => room.le.trans sound.bounded⟩
 · rw [same]
   unfold StringBuilder.memcpyS
   dsimp only
   have within : w.builder.position ≤ (w.builder.grown text.length).capacity :=
    sound.within.trans (StringBuilder.newSize_gt pos grows.1).le
   by_cases room : w.builder.position + text.length ≤ (w.builder.grown text.length).capacity
   · rw [if_neg (by change ¬_ - w.builder.position < _; omega)]
     have stored := sound.stored (w.builder.grown text.length) text []
      (StringBuilder.newSize_le _ _) sound.inside
      (StringBuilder.contents_grown sound.within text.length)
     rw [List.append_nil] at stored
     exact exactly_of_sound (stored room)
      ⟨fun _ _ => grows.2, fun _ => room.trans (StringBuilder.newSize_le _ _)⟩
   refine exactly_of_wrong (fun right => ?_) fun fine => ?_
   · have := right.within
     split at this
     · exact room this
     · exact room this
   · have cut := StringBuilder.newSize_room w.builder.capacity text.length
     have fits := fine.2 grows
     have := sound.within
     change ¬_ ≤ StringBuilder.newSize _ _ at room
     omega
 · rw [same]
   refine sound.exactly_dropped some ?_
   rw [← sound.refused full stays]
   exact ⟨fun fine short => fine.1 short full,
    fun given => ⟨fun short _ => given short, fun grows => absurd grows stays⟩⟩

theorem appendFormat_exactly (sound : Sound w) {text : List UInt8} (some : text ≠ []) :
  Exactly ⟨w.builder.appendFormat text granted, w.texts ++ text⟩
   (FormatFine w text.length granted) := by
 have pos : 0 < text.length := List.length_pos_iff.mpr some
 unfold StringBuilder.appendFormat
 by_cases line : text.length < lineMaxSize
 · have fits : ¬lineMaxSize - 1 < text.length := by
    unfold lineMaxSize at *
    omega
   rw [if_neg fits, if_neg some]
   rcases reserve_cases granted pos sound.bounded with
    ⟨free, same⟩ | ⟨full, grows, same⟩ | ⟨full, stays, same⟩
   · rw [same]
     refine exactly_of_sound (sound.stored _ text [0] sound.bounded sound.inside rfl ?_)
      ⟨fun _ => line, fun _ full => absurd full free⟩
     rw [List.length_append]
     exact Nat.not_le.mp free
   · rw [same]
     have fine_iff : FormatFine w text.length granted ↔
       w.builder.position + text.length < (w.builder.grown text.length).capacity :=
      ⟨fun fine => (StringBuilder.lt_newSize_iff sound.within).mpr ((fine.2 line full).2 grows),
       fun room => ⟨fun _ => line, fun _ _ => ⟨fun _ => grows.2, fun _ =>
        (StringBuilder.lt_newSize_iff sound.within).mp room⟩⟩⟩
     rw [fine_iff]
     refine ⟨fun room => ?_, fun right => ?_⟩
     · refine sound.stored (w.builder.grown text.length) text [0] (StringBuilder.newSize_le _ _)
        sound.inside (StringBuilder.contents_grown sound.within text.length) ?_
       rw [List.length_append]
       exact room
     · have room := (StringBuilder.store_inside.mp right.inside).2
       rw [List.length_append] at room
       exact room
   · rw [same]
     refine sound.exactly_dropped some ?_
     rw [← sound.refused full stays]
     exact ⟨fun fine => (fine.2 line full).1,
      fun given => ⟨fun _ => line, fun _ _ => ⟨given, fun grows => absurd grows stays⟩⟩⟩
 · have long : lineMaxSize - 1 < text.length := by
    unfold lineMaxSize at *
    omega
   rw [if_pos long]
   refine sound.exactly_dropped some ?_
   exact ⟨fun fine short => line (fine.1 short),
    fun long => ⟨fun short => absurd short long, fun short => absurd short line⟩⟩

theorem Exactly.or {fine empty : Prop} (exactly : Exactly t fine) (none : ¬empty) :
  Exactly t (empty ∨ fine) :=
 ⟨fun either => exactly.1 (either.resolve_left none), fun right => .inr (exactly.2 right)⟩

theorem step_exactly (sound : Sound w) (call : Append × Bool) :
  Exactly ⟨perform w.builder call.2 call.1, w.texts ++ call.1.text⟩ (Fine w call) := by
 obtain ⟨call, granted⟩ := call
 by_cases empty : call.text = []
 · have unchanged : perform w.builder granted call = w.builder := by
    cases call with
    | char c => exact absurd empty (List.cons_ne_nil c [])
    | cString chars => exact if_pos empty
    | string text => exact if_pos (.inl empty)
    | format text =>
     obtain rfl : text = [] := empty
     rfl
   refine exactly_of_sound ?_ (.inl empty)
   rw [unchanged, empty, List.append_nil]
   exact sound
 refine Exactly.or ?_ empty
 cases call with
 | char c => exact appendChar_exactly sound c
 | cString chars =>
  have copies := copyText_exactly granted sound empty
  rwa [← show w.builder.appendCString _ granted = _ from if_neg empty] at copies
 | string text =>
  change Exactly ⟨w.builder.appendString text granted, w.texts ++ text⟩
   (if text.head? = some 0 then ¬w.Short text.length else CopyFine w text.length granted)
  change text ≠ [] at empty
  unfold StringBuilder.appendString
  by_cases null : text.head? = some 0
  · rw [if_pos (.inr null), if_pos null]
    exact sound.exactly_dropped empty Iff.rfl
  · rw [if_neg (not_or.mpr ⟨empty, null⟩), if_neg null]
    exact copyText_exactly granted sound empty
 | format text => exact appendFormat_exactly sound empty

/-- Every sequence of calls keeps what the builder promises, exactly if every call of it meets the
condition. -/
theorem appends_right_iff (calls : List (Append × Bool)) :
    Safe step Right fresh calls ↔ Along step Fine fresh calls :=
  safe_iff_along_of (A := fun _ => True) (fun _ sound => sound.right)
    (fun _ call sound fine => ⟨_, rfl, (step_exactly sound call).1 fine⟩)
    (fun _ call sound _ ⟨_, next, right⟩ => (step_exactly sound call).2
      (Option.some.inj next ▸ right)) fresh calls sound_fresh fun _ _ => trivial

/-- A first text of 300 characters is formatted into a buffer of 300 bytes. -/
theorem first_format_outside : ¬∀ calls : List (Append × Bool), Safe step Right fresh calls := by
  intro all
  obtain ⟨_, run, right⟩ := all [(.format (List.replicate 300 0x61), true)] _ List.prefix_rfl
  obtain rfl := Option.some.inj run
  have fine := (step_exactly sound_fresh (.format (List.replicate 300 0x61), true)).2 right
  rcases fine with empty | fine
  · exact absurd empty (List.cons_ne_nil _ _)
  · change FormatFine fresh (List.replicate 300 (0x61 : UInt8)).length true at fine
    rw [List.length_replicate] at fine
    have room := ((fine.2 (by decide) (Nat.zero_le _)).2 ⟨by decide, rfl⟩).2 rfl
    exact absurd room (by decide)

end DriversFramework.HdiStringBuilder
