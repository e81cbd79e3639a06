import DriversFramework.HdmiEdidFits

namespace DriversFramework.HdmiEdid

open CheckedAccess

/-- The payload of a video data block; `len` is a `uint8_t`. -/
structure VideoDataBlock where
 bytes : List UInt8
 short : bytes.length < 256

/-- The payload of a 4:2:0 capability map block: its extended tag and the map. -/
structure CapabilityMapBlock where
 tag : UInt8
 map : List UInt8
 short : map.length + 1 < 256

def CapabilityMapBlock.payload (block : CapabilityMapBlock) : List UInt8 := block.tag :: block.map

def listedFormats (blocks : List VideoDataBlock) : List UInt8 :=
 (blocks.flatMap VideoDataBlock.bytes).filter (· ≠ 0)

def svdVic (d : UInt8) : UInt32 := if 128 ≤ d ∧ d ≤ 192 then (d &&& 0x7f).toUInt32 else d.toUInt32

def CapabilityMapBlock.selects (block : CapabilityMapBlock) (k : ℕ) : Bool :=
 block.map.isEmpty || bit (peek block.map (k / 8)) (k % 8)

def SupportedAt (blocks : List VideoDataBlock) (block : CapabilityMapBlock) (vic : UInt32) (k : ℕ) :
  Prop :=
 ∃ d, (listedFormats blocks)[k]? = some d ∧ block.selects k = true ∧ svdVic d = vic

def supportedFormats (blocks : List VideoDataBlock) (block : CapabilityMapBlock) : Set UInt32 :=
 {vic | ∃ k, SupportedAt blocks block vic k}

def recordedFormats (cap : HdmiSinkDeviceCapability) : Set UInt32 :=
 {vic | ∃ i < cap.y420Cap.supportY420VicNum, cap.y420Cap.supportY420Format[i]? = some vic}

def videoDataBlocks (blocks : List VideoDataBlock) (cap : HdmiSinkDeviceCapability) :
  Run HdmiSinkDeviceCapability :=
 blocks.foldlM (fun cap block =>
  hdmiEdidExtVideoDataBlockPhase block.bytes block.bytes.length cap) cap

def y420Blocks (blocks : List VideoDataBlock) (block : CapabilityMapBlock) (behind : List UInt8) :
  Run HdmiSinkDeviceCapability := do
 let cap ← videoDataBlocks blocks hdmiEdidReset
 hdmiEdidExtUseExtDataBlockY420CmdbPhase (block.payload ++ behind) block.payload.length cap

def Y420Right (blocks : List VideoDataBlock) (block : CapabilityMapBlock) (behind : List UInt8) :
  Prop :=
 ∃ cap, y420Blocks blocks block behind = .ok cap ∧
  recordedFormats cap = supportedFormats blocks block

def InWindow (blocks : List VideoDataBlock) (block : CapabilityMapBlock) (k : ℕ) : Prop :=
 block.map ≠ [] ∧ 8 * block.map.length ≤ k ∧ k < 8 * block.map.length + 8 ∧
  k < hdmiEdidExtensionMaxVicCount ∧ k < (listedFormats blocks).length

/-- Where the formats come out right. -/
structure Harmless (blocks : List VideoDataBlock) (block : CapabilityMapBlock)
  (behind : List UInt8) : Prop where
 /-- A format that is selected and has no room in the table has been selected before. -/
 beyond : ∀ vic k, hdmiEdidExtensionMaxVicCount ≤ k → SupportedAt blocks block vic k →
  ∃ j < hdmiEdidExtensionMaxVicCount, SupportedAt blocks block vic j
 /-- The native format 64 is not selected. -/
 native64 : ∀ k < hdmiEdidExtensionMaxVicCount, (listedFormats blocks)[k]? = some 192 →
  block.selects k = false
 /-- The byte behind the map is there and selects nothing that the map does not select. -/
 window : ∀ k d, InWindow blocks block k → (listedFormats blocks)[k]? = some d →
  ∃ next, behind.head? = some next ∧
   (bit next (k % 8) = true → d ≠ 192 ∧ svdVic d ∈ supportedFormats blocks block)

def storedVic (d : UInt8) : UInt32 :=
 if (bit d 7 && d.toUInt32 &&& 0x7f < 64) = true then d.toUInt32 &&& 0x7f else d.toUInt32

theorem storedVic_eq {d : UInt8} (other : d ≠ 192) : storedVic d = svdVic d := by
 have all : ∀ n : Fin 256, UInt8.ofNat n ≠ 192 →
   storedVic (UInt8.ofNat n) = svdVic (UInt8.ofNat n) := by decide +kernel
 simpa using all ⟨d.toNat, d.toNat_lt⟩ (by simpa using other)

theorem svdVic_ne (d : UInt8) : svdVic d ≠ storedVic 192 := by
 have all : ∀ n : Fin 256, svdVic (UInt8.ofNat n) ≠ storedVic 192 := by decide +kernel
 simpa using all ⟨d.toNat, d.toNat_lt⟩

def Lists (cap : HdmiSinkDeviceCapability) (vics : List UInt32) : Prop :=
 Filled cap.videoInfo.vic cap.videoInfo.vicNum vics ∧ cap.y420Cap.supportY420VicNum = 0

section blocks
variable {cap cap' : HdmiSinkDeviceCapability} {vics : List UInt32}

theorem shortVideoDescriptor_lists {data : List UInt8} {i : ℕ}
  {s t : UInt32 × HdmiSinkDeviceCapability} (lists : Lists s.2 vics)
  (run : hdmiEdidShortVideoDescriptor data i s = .ok t) :
  Lists t.2 (vics ++
   (if peek data i ≠ 0 then some (storedVic (peek data i)) else none).toList) := by
 obtain ⟨filled, none⟩ := lists
 rw [hdmiEdidShortVideoDescriptor, bind_eq_ok] at run
 obtain ⟨d, read, run⟩ := run
 have inside : i < data.length := (returns_readAt data i).mp ⟨d, read⟩
 rw [readAt_of_lt inside] at read
 cases read
 by_cases zero : peek data i = 0
 · rw [if_pos zero] at run
   cases run
   rw [if_neg (not_not.mpr zero), Option.toList_none, List.append_nil]
   exact ⟨filled, none⟩
 · rw [if_neg zero, bind_eq_ok] at run
   obtain ⟨vic, write, run⟩ := run
   cases run
   rw [if_pos zero]
   exact ⟨filled.push write, none⟩

theorem videoPhase_lists {data : List UInt8} (room : vics.length ≤ hdmiEdidExtensionMaxVicCount)
  (lists : Lists cap vics)
  (run : hdmiEdidExtVideoDataBlockPhase data data.length cap = .ok cap') :
  Lists cap' ((vics ++ (data.filter (· ≠ 0)).map storedVic).take
   hdmiEdidExtensionMaxVicCount) := by
 rw [hdmiEdidExtVideoDataBlockPhase, bind_eq_ok] at run
 obtain ⟨s, loop, last⟩ := run
 have kept := forLoop_fills (fun s vics => Lists s.2 vics) hdmiEdidExtensionMaxVicCount
  (fun i => if peek data i ≠ 0 then some (storedVic (peek data i)) else none)
  (fun s vics lists => by rw [decide_eq_true_iff, lists.1.1])
  (fun _ _ _ _ lists round => shortVideoDescriptor_lists lists round)
  data.length 0 _ s vics room lists loop
 have out : (List.range' 0 data.length).filterMap
   (fun i => if peek data i ≠ 0 then some (storedVic (peek data i)) else none) =
    (data.filter (· ≠ 0)).map storedVic := by
  conv_rhs => rw [← map_peek_range data]
  rw [List.filter_map, List.map_map, ← List.filterMap_eq_map, List.filterMap_filter]
  simp
 rw [out] at kept
 cases last
 exact kept

theorem take_append_take {α : Type} (n : ℕ) (as bs : List α) :
  (as.take n ++ bs).take n = (as ++ bs).take n := by
 rw [List.take_append, List.take_append, List.take_take, List.length_take, Nat.min_self]
 congr 2
 omega

theorem videoDataBlocks_lists : ∀ (blocks : List VideoDataBlock) (cap : HdmiSinkDeviceCapability)
  (vics : List UInt32), vics.length ≤ hdmiEdidExtensionMaxVicCount → Lists cap vics →
   ∃ cap', videoDataBlocks blocks cap = .ok cap' ∧
    Lists cap' ((vics ++ (listedFormats blocks).map storedVic).take
     hdmiEdidExtensionMaxVicCount)
 | [], cap, vics, room, lists => by
  refine ⟨cap, rfl, ?_⟩
  change Lists cap ((vics ++ []).take _)
  rw [List.append_nil, List.take_of_length_le room]
  exact lists
 | block :: blocks, cap, vics, room, lists => by
  obtain ⟨next, phase⟩ := (video_returns block.bytes block.bytes.length cap).mpr
   (roundsOf_le _ _ _ _ _)
  have kept := videoPhase_lists room lists phase
  obtain ⟨cap', rest, kept⟩ := videoDataBlocks_lists blocks next _ (List.length_take_le _ _) kept
  refine ⟨cap', ?_, ?_⟩
  · rw [videoDataBlocks, List.foldlM_cons, bind_eq_ok]
    exact ⟨next, phase, rest⟩
  · have formats : listedFormats (block :: blocks) =
      block.bytes.filter (· ≠ 0) ++ listedFormats blocks := by
     rw [listedFormats, List.flatMap_cons, List.filter_append]
     rfl
    rw [take_append_take, List.append_assoc, ← List.map_append, ← formats] at kept
    exact kept

end blocks

/-- What the loops of `HdmiEdidExtUseExtDataBlockY420CmdbPhase` go by. -/
def looksSelected (data : List UInt8) (len k : ℕ) : Bool :=
 len = 1 || bit (peek data (k / 8 + 1)) (k % 8)

def cmdbRounds (len n : ℕ) : ℕ :=
 if len = 1 then min n hdmiEdidExtensionMaxVicCount
 else min (min (len * 8) hdmiEdidExtensionMaxVicCount) n

section capability
variable {cap cap' : HdmiSinkDeviceCapability} {vics : List UInt32}

theorem supportY420_fills {selected : ℕ → Run Bool} {i : ℕ} {b : Bool} {info : HdmiEdidVideoInfo}
  (known : ∀ c, selected i = .ok c → c = b)
  (filled : Filled cap.y420Cap.supportY420Format cap.y420Cap.supportY420VicNum vics)
  (same : cap.videoInfo = info) (run : hdmiEdidSupportY420 selected i cap = .ok cap') :
  Filled cap'.y420Cap.supportY420Format cap'.y420Cap.supportY420VicNum
    (vics ++ (if b = true then info.vic[i]? else none).toList) ∧ cap'.videoInfo = info := by
 rw [hdmiEdidSupportY420, bind_eq_ok] at run
 obtain ⟨c, hc, run⟩ := run
 obtain rfl := known c hc
 by_cases hv : c = true
 · rw [if_pos hv, bind_eq_ok] at run
   obtain ⟨vic, entry, run⟩ := run
   obtain ⟨table, write, run⟩ := (bind_eq_ok _ _ _).mp run
   cases run
   rw [if_pos hv, ← same, entryAt_eq_ok.mp entry]
   exact ⟨filled.push write, rfl⟩
 · rw [if_neg hv] at run
   cases run
   rw [if_neg hv, Option.toList_none, List.append_nil]
   exact ⟨filled, same⟩

theorem y420Phase_fills {data : List UInt8} {len : ℕ} (none : cap.y420Cap.supportY420VicNum = 0)
  (run : hdmiEdidExtUseExtDataBlockY420CmdbPhase data len cap = .ok cap') :
  Filled cap'.y420Cap.supportY420Format cap'.y420Cap.supportY420VicNum
   ((List.range' 0 (cmdbRounds len cap.videoInfo.vicNum)).filterMap fun k =>
    if looksSelected data len k = true then cap.videoInfo.vic[k]? else Option.none) := by
 have start : Filled cap.y420Cap.supportY420Format cap.y420Cap.supportY420VicNum [] := by
  rw [none]
  exact .empty _
 have fills (selected : ℕ → Run Bool) (rounds : ℕ) (few : rounds ≤ hdmiEdidExtensionMaxVicCount)
   (known : ∀ k c, selected k = .ok c → c = looksSelected data len k)
   (loop : forLoop (fun cap : HdmiSinkDeviceCapability =>
    decide (hdmiEdidExtensionMaxVicCount ≤ cap.y420Cap.supportY420VicNum))
    (hdmiEdidSupportY420 selected) rounds 0 cap = .ok cap') :
   Filled cap'.y420Cap.supportY420Format cap'.y420Cap.supportY420VicNum
    ((List.range' 0 rounds).filterMap fun k =>
     if looksSelected data len k = true then cap.videoInfo.vic[k]? else Option.none) := by
  have kept := forLoop_fills
   (fun (cap'' : HdmiSinkDeviceCapability) vics =>
    Filled cap''.y420Cap.supportY420Format cap''.y420Cap.supportY420VicNum vics ∧
     cap''.videoInfo = cap.videoInfo)
   hdmiEdidExtensionMaxVicCount _
   (fun s vics kept => by rw [decide_eq_true_iff, kept.1.1])
   (fun k _ _ _ kept round => supportY420_fills (known k) kept.1 kept.2 round)
   rounds 0 cap cap' [] (Nat.zero_le _) ⟨start, rfl⟩ loop
  rw [List.nil_append, List.take_of_length_le] at kept
  · exact kept.1
  · refine (List.length_filterMap_le _ _).trans ?_
    rw [List.length_range']
    exact few
 rw [hdmiEdidExtUseExtDataBlockY420CmdbPhase] at run
 rw [cmdbRounds]
 by_cases single : len = 1
 · rw [if_pos single] at run ⊢
   refine fills _ _ (Nat.min_le_right _ _) (fun k c h => ?_) run
   cases h
   simp [looksSelected, single]
 · rw [if_neg single] at run ⊢
   refine fills _ _ ((Nat.min_le_left _ _).trans (Nat.min_le_right _ _)) (fun k c h => ?_) run
   rw [capabilityBit_eq data k c h]
   simp [looksSelected, single]

end capability

section together
variable {blocks : List VideoDataBlock} {block : CapabilityMapBlock} {behind : List UInt8}
  {cap : HdmiSinkDeviceCapability} {vic : UInt32} {k : ℕ}

theorem selects_inside (map : block.map ≠ []) (selected : block.selects k = true) :
  k < 8 * block.map.length := by
 by_contra outside
 have zero : peek block.map (k / 8) = 0 := by
  rw [peek, List.getD_eq_default _ _ (by omega)]
  rfl
 have nonempty : block.map.isEmpty = false := by simpa using map
 rw [CapabilityMapBlock.selects, nonempty, zero] at selected
 simp [bit] at selected

theorem looks_inside (inside : block.map ≠ [] → k < 8 * block.map.length) :
  looksSelected (block.payload ++ behind) block.payload.length k = block.selects k := by
 rw [looksSelected, CapabilityMapBlock.selects, CapabilityMapBlock.payload]
 cases map : block.map with
 | nil => simp
 | cons b bs =>
  have lt : k / 8 < (b :: bs).length := by
   have := inside (by simp [map])
   rw [map] at this
   omega
  have same : peek ((block.tag :: b :: bs) ++ behind) (k / 8 + 1) = peek (b :: bs) (k / 8) := by
   rw [peek, peek, List.cons_append, List.getD_cons_succ, List.getD_append _ _ _ _ lt]
  rw [same]
  simp

theorem looks_window (map : block.map ≠ []) (least : 8 * block.map.length ≤ k)
  (most : k < 8 * block.map.length + 8) :
  looksSelected (block.payload ++ behind) block.payload.length k =
   bit (peek behind 0) (k % 8) := by
 have nonempty : block.map.length ≠ 0 := by simpa using map
 have place : k / 8 = block.map.length := by omega
 have same : peek ((block.tag :: block.map) ++ behind) (k / 8 + 1) = peek behind 0 := by
  rw [peek, peek, List.cons_append, List.getD_cons_succ, place,
   List.getD_append_right _ _ _ _ (Nat.le_refl _), Nat.sub_self]
 rw [looksSelected, CapabilityMapBlock.payload, List.length_cons, same]
 simp [map]

theorem videoDataBlocks_listed (blocks : List VideoDataBlock) :
  ∃ cap, videoDataBlocks blocks hdmiEdidReset = .ok cap ∧
   Lists cap (((listedFormats blocks).map storedVic).take hdmiEdidExtensionMaxVicCount) :=
 videoDataBlocks_lists blocks hdmiEdidReset [] (Nat.zero_le _) ⟨.empty _, rfl⟩

theorem lists_vicNum
  (lists : Lists cap (((listedFormats blocks).map storedVic).take hdmiEdidExtensionMaxVicCount)) :
  cap.videoInfo.vicNum = min hdmiEdidExtensionMaxVicCount (listedFormats blocks).length := by
 rw [lists.1.1, List.length_take, List.length_map]

theorem y420Blocks_returns :
  Returns (y420Blocks blocks block behind) ↔ ∀ k, InWindow blocks block k → behind ≠ [] := by
 obtain ⟨cap, listed, lists⟩ := videoDataBlocks_listed blocks
 have vicNum := lists_vicNum lists
 have start : y420Blocks blocks block behind =
   hdmiEdidExtUseExtDataBlockY420CmdbPhase (block.payload ++ behind) block.payload.length
    cap := by
  rw [y420Blocks, listed]
  rfl
 have length : block.payload.length = block.map.length + 1 := rfl
 rw [start, y420Cmdb_returns, Y420CmdbFits, cmdbReach, lists.2, roundsOf_room _ _ _ _ _ (by omega),
  List.length_append, length, vicNum]
 constructor
 · rintro fits k ⟨map, least, most, table, there⟩
   have nonempty : block.map.length ≠ 0 := by simpa using map
   have := fits (by omega) k (by omega)
   rw [← List.length_pos_iff]
   omega
 · intro bytes map k hk
   by_cases inside : k < 8 * block.map.length
   · omega
   · have := bytes k ⟨by simpa using map, by omega, by omega, by omega, by omega⟩
     rw [← List.length_pos_iff] at this
     omega

theorem y420Blocks_recorded (run : y420Blocks blocks block behind = .ok cap) :
  vic ∈ recordedFormats cap ↔ ∃ k d, k < hdmiEdidExtensionMaxVicCount ∧
   (block.map ≠ [] → k < 8 * block.map.length + 8) ∧ (listedFormats blocks)[k]? = some d ∧
   looksSelected (block.payload ++ behind) block.payload.length k = true ∧
   storedVic d = vic := by
 obtain ⟨listing, listed, lists⟩ := videoDataBlocks_listed blocks
 have vicNum := lists_vicNum lists
 rw [y420Blocks, listed] at run
 obtain ⟨count, filled⟩ := y420Phase_fills lists.2 run
 -- the entries of the table before `vicNum` are the formats listed
 have entry (k : ℕ) (hk : k < listing.videoInfo.vicNum) :
   listing.videoInfo.vic[k]? = ((listedFormats blocks)[k]?).map storedVic := by
  rw [lists.1.2 k hk, List.getElem?_take_of_lt (by omega), List.getElem?_map]
 have rounds : cmdbRounds block.payload.length listing.videoInfo.vicNum ≤
   listing.videoInfo.vicNum := by
  rw [cmdbRounds]
  split <;> omega
 have last (k : ℕ) : k < cmdbRounds block.payload.length listing.videoInfo.vicNum ↔
   k < listing.videoInfo.vicNum ∧ (block.map ≠ [] → k < 8 * block.map.length + 8) := by
  have length : block.payload.length = block.map.length + 1 := rfl
  have nonempty : block.map ≠ [] ↔ block.map.length ≠ 0 := by simp
  rw [cmdbRounds, length, nonempty]
  split <;> omega
 have member : vic ∈ recordedFormats cap ↔ vic ∈ (List.range' 0 (cmdbRounds
   block.payload.length listing.videoInfo.vicNum)).filterMap fun k =>
    if looksSelected (block.payload ++ behind) block.payload.length k = true then
     listing.videoInfo.vic[k]? else none := by
  rw [List.mem_iff_getElem?]
  constructor
  · rintro ⟨i, hi, at_⟩
    exact ⟨i, (filled i hi).symm.trans at_⟩
  · rintro ⟨i, at_⟩
    have hi : i < cap.y420Cap.supportY420VicNum := by
     rw [count]
     exact (List.getElem?_eq_some_iff.mp at_).1
    exact ⟨i, hi, (filled i hi).trans at_⟩
 rw [member, List.mem_filterMap]
 constructor
 · rintro ⟨k, within, found⟩
   rw [List.mem_range'_1, Nat.zero_add] at within
   split at found
   · next selected =>
     obtain ⟨hk, window⟩ := (last k).mp within.2
     rw [entry k hk, Option.map_eq_some_iff] at found
     obtain ⟨d, there, stored⟩ := found
     exact ⟨k, d, by omega, window, there, selected, stored⟩
   · cases found
 · rintro ⟨k, d, table, window, there, selected, stored⟩
   have listed : k < (listedFormats blocks).length := (List.getElem?_eq_some_iff.mp there).1
   have hk : k < listing.videoInfo.vicNum := by omega
   refine ⟨k, List.mem_range'_1.mpr ⟨Nat.zero_le _, ?_⟩, ?_⟩
   · rw [Nat.zero_add]
     exact (last k).mpr ⟨hk, window⟩
   · rw [if_pos selected, entry k hk, there, Option.map_some, stored]

/-- The formats are right if and only if nothing is selected that has no room, format 64 is not
selected as a native one, and the byte behind the map selects nothing new. -/
theorem y420_right_iff (blocks : List VideoDataBlock) (block : CapabilityMapBlock)
    (behind : List UInt8) : Y420Right blocks block behind ↔ Harmless blocks block behind := by
  constructor
  · rintro ⟨cap, run, same⟩
    have returns := y420Blocks_returns.mp ⟨cap, run⟩
    refine ⟨?_, ?_, ?_⟩
    · rintro vic k beyond ⟨d, there, selected, is⟩
      have recorded : vic ∈ recordedFormats cap := by
        rw [same]
        exact ⟨k, d, there, selected, is⟩
      obtain ⟨j, e, room, window, listed, looks, stored⟩ := (y420Blocks_recorded run).mp recorded
      -- the map goes on behind the table, so that `j` is in it
      have inside : block.map ≠ [] → j < 8 * block.map.length := fun map => by
        have := selects_inside map selected
        omega
      have other : e ≠ 192 := by
        rintro rfl
        exact svdVic_ne d (is.trans stored.symm)
      exact ⟨j, room, e, listed, by rw [← looks_inside inside]; exact looks,
        (storedVic_eq other).symm.trans stored⟩
    · intro k room there
      by_contra selected
      rw [Bool.not_eq_false] at selected
      have inside : block.map ≠ [] → k < 8 * block.map.length := fun map =>
        selects_inside map selected
      have recorded : storedVic 192 ∈ recordedFormats cap :=
        (y420Blocks_recorded run).mpr ⟨k, 192, room, fun map => by have := inside map; omega, there,
          by rw [looks_inside inside]; exact selected, rfl⟩
      rw [same] at recorded
      obtain ⟨j, d, -, -, is⟩ := recorded
      exact svdVic_ne d is
    · rintro k d window there
      have bytes := returns k window
      obtain ⟨map, least, most, room, -⟩ := window
      obtain ⟨next, rest, split⟩ := List.exists_cons_of_ne_nil bytes
      refine ⟨next, by rw [split, List.head?_cons], fun set => ?_⟩
      have recorded : storedVic d ∈ recordedFormats cap :=
        (y420Blocks_recorded run).mpr ⟨k, d, room, fun _ => most, there,
          by rw [looks_window map least most, split]; exact set, rfl⟩
      rw [same] at recorded
      have other : d ≠ 192 := by
        rintro rfl
        obtain ⟨j, e, -, -, is⟩ := recorded
        exact svdVic_ne e is
      rw [storedVic_eq other] at recorded
      exact ⟨other, recorded⟩
  · intro harmless
    have bytes (k : ℕ) (window : InWindow blocks block k) : behind ≠ [] := by
      obtain ⟨d, there⟩ : ∃ d, (listedFormats blocks)[k]? = some d :=
        ⟨_, List.getElem?_eq_getElem window.2.2.2.2⟩
      obtain ⟨next, head, -⟩ := harmless.window k d window there
      intro nothing
      rw [nothing] at head
      cases head
    obtain ⟨cap, run⟩ := y420Blocks_returns.mpr bytes
    refine ⟨cap, run, Set.ext fun vic => ?_⟩
    rw [y420Blocks_recorded run]
    constructor
    · rintro ⟨k, d, room, most, there, looks, stored⟩
      by_cases inside : block.map ≠ [] → k < 8 * block.map.length
      · rw [looks_inside inside] at looks
        have other : d ≠ 192 := by
          rintro rfl
          rw [harmless.native64 k room there] at looks
          cases looks
        exact ⟨k, d, there, looks, (storedVic_eq other).symm.trans stored⟩
      obtain ⟨map, outside⟩ := Classical.not_imp.mp inside
      have listed := (List.getElem?_eq_some_iff.mp there).1
      obtain ⟨next, head, nothing⟩ := harmless.window k d
        ⟨map, Nat.le_of_not_lt outside, most map, room, listed⟩ there
      rw [looks_window map (Nat.le_of_not_lt outside) (most map)] at looks
      have first : peek behind 0 = next := by
        cases behind with
        | nil => cases head
        | cons b bs => exact Option.some.inj head
      rw [first] at looks
      obtain ⟨other, supported⟩ := nothing looks
      rw [← stored, storedVic_eq other]
      exact supported
    · rintro ⟨k, supported⟩
      obtain ⟨j, room, d, there, selected, is⟩ : ∃ j < hdmiEdidExtensionMaxVicCount,
          SupportedAt blocks block vic j := by
        by_cases room : k < hdmiEdidExtensionMaxVicCount
        · exact ⟨k, room, supported⟩
        · exact harmless.beyond vic k (Nat.le_of_not_lt room) supported
      have inside : block.map ≠ [] → j < 8 * block.map.length := fun map =>
        selects_inside map selected
      have other : d ≠ 192 := by
        rintro rfl
        rw [harmless.native64 j room there] at selected
        cases selected
      exact ⟨j, d, room, fun map => by have := inside map; omega, there,
        by rw [looks_inside inside]; exact selected, (storedVic_eq other).trans is⟩

end together

def nineFormats : VideoDataBlock := ⟨[1, 2, 3, 4, 5, 6, 7, 16, 31], by decide⟩

def firstFormat : CapabilityMapBlock := ⟨15, [0x01], by decide⟩

/-- The byte behind the block, a header, has bit 0 set and so selects the ninth format. -/
theorem byte_behind_selects : ¬∀ blocks block behind, Y420Right blocks block behind := by
  intro right
  obtain ⟨cap, run, same⟩ := right [nineFormats] firstFormat [0x83, 0x01, 0x00, 0x00]
  have second : (y420Blocks [nineFormats] firstFormat [0x83, 0x01, 0x00, 0x00]).toOption.map
      (fun cap => (cap.y420Cap.supportY420VicNum, cap.y420Cap.supportY420Format[1]?)) =
        some (2, some 31) := by
    decide +kernel
  rw [run] at second
  obtain ⟨count, entry⟩ := Prod.mk.inj (Option.some.inj second)
  have recorded : 31 ∈ recordedFormats cap := ⟨1, by rw [count]; decide, entry⟩
  rw [same] at recorded
  obtain ⟨k, d, there, selected, is⟩ := recorded
  have inside : k < 9 := (List.getElem?_eq_some_iff.mp there).1
  have only : ∀ k < 9, ((listedFormats [nineFormats])[k]?.all fun d =>
      !(firstFormat.selects k && svdVic d == 31)) = true := by
    decide +kernel
  have := only k inside
  rw [there] at this
  simp [selected, is] at this

end DriversFramework.HdmiEdid
