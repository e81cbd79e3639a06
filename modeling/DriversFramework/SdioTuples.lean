import Mathlib.Data.UInt
import DriversFramework.LoopPrograms

/-! `mmc_protocol.c`: the walk over the tuples of a card information structure, and what it takes
from the manufacturer and the function extension tuples. -/
namespace DriversFramework.SdioTuples

open LoopPrograms

inductive CisStatus where
 | success
 | readFailed
 | errMallocFail
 deriving DecidableEq

def sdioCisTplNull : UInt8 := 0x00
def sdioCisTplManfid : UInt8 := 0x20
def sdioCisTplFunce : UInt8 := 0x22
def sdioCisTplEnd : UInt8 := 0xFF

def sdioCisTplManfidMinSize : UInt8 := 0x04
def sdioCisTplFunceCommonMinSize : UInt8 := 0x04
def sdioCisTplFunceFunctionPcMinSize : UInt8 := 0x1C
def sdioCisTplFunceFunctionPcMaxSize : UInt8 := 0x2A

def sdioCisTplFunceCommon : UInt8 := 0
def sdioCisTplFunceFunctionPc : UInt8 := 1

def sdioCccrSdioRev100 : UInt32 := 0
def sdioCisTplfeEnableTimeoutValDef : UInt32 := 100

structure SdioCis where
 vendorId : UInt16
 deviceId : UInt16
 blkSize : UInt16
 maxDtr : UInt32
 deriving DecidableEq

structure SdioFunction where
 maxBlkSize : UInt32
 vendorId : UInt16
 deviceId : UInt16
 timeOut : UInt32
 deriving DecidableEq

/-- What the walk reads and writes of the device: the revision of its `cccr`, its common structure,
and the function whose structure is read, if it is not the common one. -/
structure SdioDevice where
 sdioRev : UInt32
 cis : SdioCis
 function : Option SdioFunction
 deriving DecidableEq

structure SdioCisTuple where
 tplCode : UInt8
 tplLink : UInt8
 tplBody : List UInt8
 deriving DecidableEq

def field16 (low high : UInt8) : UInt16 := high.toUInt16 <<< 8 ||| low.toUInt16

def sdioDecodeCisTplManfId (dev : SdioDevice) (tuple : SdioCisTuple) : Option SdioDevice :=
 if tuple.tplLink < sdioCisTplManfidMinSize then some dev
 else do
  let vendorId := field16 (← tuple.tplBody[0]?) (← tuple.tplBody[1]?)
  let deviceId := field16 (← tuple.tplBody[2]?) (← tuple.tplBody[3]?)
  match dev.function with
  | some function =>
   some { dev with
    function := some { function with deviceId := deviceId, vendorId := vendorId } }
  | none => some { dev with cis := { dev.cis with deviceId := deviceId, vendorId := vendorId } }

def transferValue : List UInt32 := [0, 10, 12, 13, 15, 20, 25, 30, 35, 40, 45, 50, 55, 60, 70, 80]

def transferUnit : List UInt32 := [10000, 100000, 1000000, 10000000, 0, 0, 0, 0]

def sdioDecodeCisTplFunceCommon (dev : SdioDevice) (tuple : SdioCisTuple) : Option SdioDevice :=
 if tuple.tplLink < sdioCisTplFunceCommonMinSize then some dev
 else do
  let blkSize := field16 (← tuple.tplBody[1]?) (← tuple.tplBody[2]?)
  let speed ← tuple.tplBody[3]?
  let unit ← transferUnit[(speed &&& 7).toNat]?
  let value ← transferValue[(speed >>> 3 &&& 15).toNat]?
  some { dev with cis := { dev.cis with blkSize := blkSize, maxDtr := unit * value } }

def sdioDecodeCisTplFunceFunction (dev : SdioDevice) (function : SdioFunction)
  (tuple : SdioCisTuple) : Option SdioDevice :=
 if tuple.tplLink < (if dev.sdioRev = sdioCccrSdioRev100 then sdioCisTplFunceFunctionPcMinSize
   else sdioCisTplFunceFunctionPcMaxSize) then some dev
 else do
  let maxBlkSize := (field16 (← tuple.tplBody[12]?) (← tuple.tplBody[13]?)).toUInt32
  if sdioCccrSdioRev100 < dev.sdioRev then
   let timeOut := (field16 (← tuple.tplBody[28]?) (← tuple.tplBody[29]?)).toUInt32 * 10
   some { dev with
    function := some { function with maxBlkSize := maxBlkSize, timeOut := timeOut } }
  else
   some { dev with
    function := some
     { function with maxBlkSize := maxBlkSize, timeOut := sdioCisTplfeEnableTimeoutValDef } }

def sdioDecodeCisTplFunce (dev : SdioDevice) (tuple : SdioCisTuple) : Option SdioDevice := do
 let type ← tuple.tplBody[0]?
 if type = sdioCisTplFunceCommon then
  match dev.function with
  | some _ => some dev
  | none => sdioDecodeCisTplFunceCommon dev tuple
 else if type = sdioCisTplFunceFunctionPc then
  match dev.function with
  | none => some dev
  | some function => sdioDecodeCisTplFunceFunction dev function tuple
 else some dev

def sdioDecodeCisTplField (dev : SdioDevice) (tuple : SdioCisTuple) : Option SdioDevice :=
 if tuple.tplCode = sdioCisTplManfid then sdioDecodeCisTplManfId dev tuple
 else if tuple.tplCode = sdioCisTplFunce then sdioDecodeCisTplFunce dev tuple
 else some dev

def sdioReadCisTplField (card : UInt32 → Option UInt8) (addr : UInt32) : Option UInt8 :=
 card (addr <<< 9)

def readBody (card : UInt32 → Option UInt8) : ℕ → UInt32 → Option (List UInt8)
 | 0, _ => some []
 | n + 1, addr => do
  let byte ← sdioReadCisTplField card (addr + 1)
  let rest ← readBody card n (addr + 1)
  return byte :: rest

def sdioFillTplInfo (card : UInt32 → Option UInt8) (tplCode tplLink : UInt8) (addr : UInt32) :
  Option SdioCisTuple :=
 (readBody card tplLink.toNat addr).map fun tplBody => ⟨tplCode, tplLink, tplBody⟩

/-- `allocs` counts the tuples that memory was asked for. `visited` lists the addresses that a round
has begun at, `decoded` the tuples that were decoded, each with its address. -/
structure Walk where
 dev : SdioDevice
 addr : UInt32
 allocs : ℕ
 visited : List UInt32
 decoded : List (UInt32 × SdioCisTuple)
 deriving DecidableEq

def Walk.visit (s : Walk) : Walk := { s with visited := s.visited ++ [s.addr] }

/-- The state that the round of a tuple with a body leaves. -/
def Walk.pass (s : Walk) (tuple : SdioCisTuple) (dev : SdioDevice) : Walk where
 dev := dev
 addr := s.addr + 1 + tuple.tplLink.toUInt32 + 1
 allocs := s.allocs + 1
 visited := s.visited ++ [s.addr]
 decoded := s.decoded ++ [(s.addr, tuple)]

/-- The rest of a round, behind the link byte. The `n`-th allocation succeeds if `calloc n` says
so. -/
def sdioDecodeCisBody (card : UInt32 → Option UInt8) (calloc : ℕ → Bool) (s : Walk)
  (tplCode tplLink : UInt8) : Option (Option CisStatus × Walk) :=
 if tplLink = sdioCisTplEnd then some (some .success, s.visit)
 -- the address stays at the link byte
 else if tplLink = sdioCisTplNull then some (none, { s.visit with addr := s.addr + 1 })
 else if calloc s.allocs = false then some (some .errMallocFail, s.visit)
 else match sdioFillTplInfo card tplCode tplLink (s.addr + 1) with
  | none => some (some .readFailed, s.visit)
  | some tuple => (sdioDecodeCisTplField s.dev tuple).map fun dev => (none, s.pass tuple dev)

/-- A round of the loop, with a status if it is the last one. -/
def sdioDecodeCisRound (card : UInt32 → Option UInt8) (calloc : ℕ → Bool) (s : Walk) :
  Option (Option CisStatus × Walk) :=
 match sdioReadCisTplField card s.addr with
 | none => some (some .readFailed, s.visit)
 | some tplCode =>
  if tplCode = sdioCisTplEnd ∨ tplCode = sdioCisTplNull then some (some .success, s.visit)
  else match sdioReadCisTplField card (s.addr + 1) with
   | none => some (some .readFailed, s.visit)
   | some tplLink => sdioDecodeCisBody card calloc s tplCode tplLink

def sdioDecodeCis (card : UInt32 → Option UInt8) (calloc : ℕ → Bool) : Prog Walk CisStatus :=
 Prog.loop (fun _ : Unit => Prog.attempt fun s => (sdioDecodeCisRound card calloc s).map fun r =>
  (r.1.elim (.inl ()) .inr, r.2)) ()

def walkFrom (dev : SdioDevice) (cisStartAddr : UInt32) : Walk := ⟨dev, cisStartAddr, 0, [], []⟩

structure LinkedTuple where
 code : UInt8
 body : List UInt8
 code_ne_null : code ≠ sdioCisTplNull
 code_ne_end : code ≠ sdioCisTplEnd
 fits : body.length < 255

/-- A tuple of a chain. The null tuple has no link byte. -/
inductive ChainTuple where
 | null
 | linked (tuple : LinkedTuple)

inductive ChainEnd where
 | endTuple
 | endLink (code : UInt8) (notNull : code ≠ sdioCisTplNull) (notEnd : code ≠ sdioCisTplEnd)

def LinkedTuple.link (tuple : LinkedTuple) : UInt8 := UInt8.ofNat tuple.body.length

def ChainTuple.bytes : ChainTuple → List UInt8
 | .null => [sdioCisTplNull]
 | .linked tuple => tuple.code :: tuple.link :: tuple.body

def ChainEnd.bytes : ChainEnd → List UInt8
 | .endTuple => [sdioCisTplEnd]
 | .endLink code _ _ => [code, sdioCisTplEnd]

def ChainTuple.next (addr : UInt32) (tuple : ChainTuple) : UInt32 :=
 addr + UInt32.ofNat tuple.bytes.length

/-- The card answers with the bytes from the address on. -/
def Holds (card : UInt32 → Option UInt8) : UInt32 → List UInt8 → Prop
 | _, [] => True
 | addr, byte :: rest => sdioReadCisTplField card addr = some byte ∧ Holds card (addr + 1) rest

def chainBytes (tuples : List ChainTuple) (fin : ChainEnd) : List UInt8 :=
 tuples.flatMap ChainTuple.bytes ++ fin.bytes

def places : UInt32 → List ChainTuple → List UInt32
 | addr, [] => [addr]
 | addr, tuple :: rest => addr :: places (tuple.next addr) rest

def ChainTuple.entry (addr : UInt32) : ChainTuple → List (UInt32 × SdioCisTuple)
 | .null => []
 | .linked tuple =>
  if tuple.code = sdioCisTplManfid ∨ tuple.code = sdioCisTplFunce then
   [(addr, ⟨tuple.code, tuple.link, tuple.body⟩)]
  else []

/-- The manufacturer and the function extension tuples of a chain. -/
def entries : UInt32 → List ChainTuple → List (UInt32 × SdioCisTuple)
 | _, [] => []
 | addr, tuple :: rest => tuple.entry addr ++ entries (tuple.next addr) rest

/-- The walk ends, has visited the tuples of the chain and has decoded what there is to decode. -/
def WalksChain (card : UInt32 → Option UInt8) (calloc : ℕ → Bool) (dev : SdioDevice)
  (start : UInt32) (tuples : List ChainTuple) : Prop :=
 ∃ status t, (sdioDecodeCis card calloc).Runs (walkFrom dev start) status t ∧
  List.Sublist (places start tuples) t.visited ∧ List.Sublist (entries start tuples) t.decoded

/-- The tuple is no null tuple and has a body. -/
def ChainTuple.HasBody : ChainTuple → Prop
 | .null => False
 | .linked tuple => tuple.body ≠ []

section Decode

variable {dev : SdioDevice} {tuple : SdioCisTuple}

theorem fetched_byte (fetched : tuple.tplBody.length = tuple.tplLink.toNat) {size : UInt8}
  (long : ¬tuple.tplLink < size) {i : ℕ} (inside : i < size.toNat) :
  ∃ byte, tuple.tplBody[i]? = some byte := by
 rw [UInt8.lt_iff_toNat_lt] at long
 have short : i < tuple.tplBody.length := by omega
 exact ⟨tuple.tplBody[i], List.getElem?_eq_getElem short⟩

theorem manfId_defined (fetched : tuple.tplBody.length = tuple.tplLink.toNat) :
  ∃ dev', sdioDecodeCisTplManfId dev tuple = some dev' := by
 unfold sdioDecodeCisTplManfId
 by_cases short : tuple.tplLink < sdioCisTplManfidMinSize
 · exact ⟨dev, if_pos short⟩
 rw [if_neg short]
 obtain ⟨b0, h0⟩ := fetched_byte fetched short (i := 0) (by decide)
 obtain ⟨b1, h1⟩ := fetched_byte fetched short (i := 1) (by decide)
 obtain ⟨b2, h2⟩ := fetched_byte fetched short (i := 2) (by decide)
 obtain ⟨b3, h3⟩ := fetched_byte fetched short (i := 3) (by decide)
 rw [h0, h1, h2, h3]
 cases dev.function with
 | none | some function => exact ⟨_, rfl⟩

theorem transfer_defined (speed : UInt8) :
  ∃ unit value, transferUnit[(speed &&& 7).toNat]? = some unit ∧
   transferValue[(speed >>> 3 &&& 15).toNat]? = some value := by
 have unit : (speed &&& 7).toNat < transferUnit.length := by
  rw [UInt8.toNat_and]
  exact Nat.and_lt_two_pow speed.toNat (n := 3) (by decide)
 have value : (speed >>> 3 &&& 15).toNat < transferValue.length := by
  rw [UInt8.toNat_and]
  exact Nat.and_lt_two_pow _ (n := 4) (by decide)
 exact ⟨_, _, List.getElem?_eq_getElem unit, List.getElem?_eq_getElem value⟩

theorem funceCommon_defined (fetched : tuple.tplBody.length = tuple.tplLink.toNat) :
  ∃ dev', sdioDecodeCisTplFunceCommon dev tuple = some dev' := by
 unfold sdioDecodeCisTplFunceCommon
 by_cases short : tuple.tplLink < sdioCisTplFunceCommonMinSize
 · exact ⟨dev, if_pos short⟩
 rw [if_neg short]
 obtain ⟨b1, h1⟩ := fetched_byte fetched short (i := 1) (by decide)
 obtain ⟨b2, h2⟩ := fetched_byte fetched short (i := 2) (by decide)
 obtain ⟨speed, h3⟩ := fetched_byte fetched short (i := 3) (by decide)
 obtain ⟨unit, value, hunit, hvalue⟩ := transfer_defined speed
 rw [h1, h2, h3]
 refine ⟨{ dev with
  cis := { dev.cis with blkSize := field16 b1 b2, maxDtr := unit * value } }, ?_⟩
 change (transferUnit[(speed &&& 7).toNat]? >>= fun unit =>
  transferValue[(speed >>> 3 &&& 15).toNat]? >>= fun value => _) = _
 rw [hunit, hvalue]
 rfl

theorem funceFunction_defined (function : SdioFunction)
  (fetched : tuple.tplBody.length = tuple.tplLink.toNat) :
  ∃ dev', sdioDecodeCisTplFunceFunction dev function tuple = some dev' := by
 unfold sdioDecodeCisTplFunceFunction
 by_cases old : dev.sdioRev = sdioCccrSdioRev100
 · rw [if_pos old]
   by_cases short : tuple.tplLink < sdioCisTplFunceFunctionPcMinSize
   · exact ⟨dev, if_pos short⟩
   · rw [if_neg short]
     obtain ⟨low, hlow⟩ := fetched_byte fetched short (i := 12) (by decide)
     obtain ⟨high, hhigh⟩ := fetched_byte fetched short (i := 13) (by decide)
     rw [hlow, hhigh, old]
     exact ⟨_, rfl⟩
 rw [if_neg old]
 by_cases short : tuple.tplLink < sdioCisTplFunceFunctionPcMaxSize
 · exact ⟨dev, if_pos short⟩
 rw [if_neg short]
 obtain ⟨low, hlow⟩ := fetched_byte fetched short (i := 12) (by decide)
 obtain ⟨high, hhigh⟩ := fetched_byte fetched short (i := 13) (by decide)
 obtain ⟨low', hlow'⟩ := fetched_byte fetched short (i := 28) (by decide)
 obtain ⟨high', hhigh'⟩ := fetched_byte fetched short (i := 29) (by decide)
 have new : sdioCccrSdioRev100 < dev.sdioRev :=
  UInt32.pos_iff_ne_zero.mpr old
 rw [hlow, hhigh, hlow', hhigh']
 refine ⟨_, if_pos new⟩

theorem funce_defined (fetched : tuple.tplBody.length = tuple.tplLink.toNat)
  (some_ : tuple.tplLink ≠ sdioCisTplNull) :
  ∃ dev', sdioDecodeCisTplFunce dev tuple = some dev' := by
 have long : ¬tuple.tplLink < 1 := fun less =>
  some_ (UInt8.toNat_inj.mp (Nat.lt_one_iff.mp (UInt8.lt_iff_toNat_lt.mp less)))
 obtain ⟨type, htype⟩ := fetched_byte fetched long (i := 0) (by decide)
 unfold sdioDecodeCisTplFunce
 rw [htype]
 change ∃ dev', (if type = sdioCisTplFunceCommon then _ else _) = some dev'
 split
 · cases dev.function with
   | none => exact funceCommon_defined fetched
   | some function => exact ⟨dev, rfl⟩
 · split
   · cases dev.function with
     | none => exact ⟨dev, rfl⟩
     | some function => exact funceFunction_defined function fetched
   · exact ⟨dev, rfl⟩

variable (tuple) in
theorem decode_defined (dev : SdioDevice) (fetched : tuple.tplBody.length = tuple.tplLink.toNat)
  (some_ : tuple.tplLink ≠ sdioCisTplNull) :
  ∃ dev', sdioDecodeCisTplField dev tuple = some dev' := by
 unfold sdioDecodeCisTplField
 split
 · exact manfId_defined fetched
 · split
   · exact funce_defined fetched some_
   · exact ⟨dev, rfl⟩

end Decode

theorem readBody_length {card : UInt32 → Option UInt8} {n : ℕ} {addr : UInt32} {body : List UInt8}
  (read : readBody card n addr = some body) : body.length = n := by
 induction n generalizing addr body with
 | zero =>
  cases read
  rfl
 | succ n ih =>
  rw [readBody] at read
  obtain ⟨byte, _, read⟩ := Option.bind_eq_some_iff.mp read
  obtain ⟨rest, hrest, read⟩ := Option.bind_eq_some_iff.mp read
  cases read
  rw [List.length_cons, ih hrest]

section Rounds

variable {card : UInt32 → Option UInt8} {calloc : ℕ → Bool} {s : Walk}

theorem fill_fetched {tplCode tplLink : UInt8} {addr : UInt32} {tuple : SdioCisTuple}
  (fill : sdioFillTplInfo card tplCode tplLink addr = some tuple) :
  tuple.tplLink = tplLink ∧ tuple.tplBody.length = tuple.tplLink.toNat := by
 obtain ⟨body, read, same⟩ := Option.map_eq_some_iff.mp fill
 cases same
 exact ⟨rfl, readBody_length read⟩

theorem body_defined (card : UInt32 → Option UInt8) (calloc : ℕ → Bool) (s : Walk)
  (tplCode tplLink : UInt8) : ∃ r, sdioDecodeCisBody card calloc s tplCode tplLink = some r := by
 unfold sdioDecodeCisBody
 split
 · exact ⟨_, rfl⟩
 · split
   · exact ⟨_, rfl⟩
   · rename_i linked
     split
     · exact ⟨_, rfl⟩
     · cases fill : sdioFillTplInfo card tplCode tplLink (s.addr + 1) with
       | none => exact ⟨_, rfl⟩
       | some tuple =>
        obtain ⟨link, fetched⟩ := fill_fetched fill
        obtain ⟨dev, decode⟩ := decode_defined tuple s.dev fetched (by rwa [link])
        exact ⟨(none, s.pass tuple dev), Option.map_eq_some_iff.mpr ⟨dev, decode, rfl⟩⟩

theorem round_defined (card : UInt32 → Option UInt8) (calloc : ℕ → Bool) (s : Walk) :
  ∃ r, sdioDecodeCisRound card calloc s = some r := by
 unfold sdioDecodeCisRound
 cases sdioReadCisTplField card s.addr with
 | none => exact ⟨_, rfl⟩
 | some tplCode =>
  by_cases last : tplCode = sdioCisTplEnd ∨ tplCode = sdioCisTplNull
  · exact ⟨_, if_pos last⟩
  · change ∃ r, (if tplCode = sdioCisTplEnd ∨ tplCode = sdioCisTplNull then _ else _) = some r
    rw [if_neg last]
    cases sdioReadCisTplField card (s.addr + 1) with
    | none => exact ⟨_, rfl⟩
    | some tplLink => exact body_defined card calloc s tplCode tplLink

theorem round_last {tplCode : UInt8} (code : sdioReadCisTplField card s.addr = some tplCode)
  (last : tplCode = sdioCisTplEnd ∨ tplCode = sdioCisTplNull) :
  sdioDecodeCisRound card calloc s = some (some .success, s.visit) := by
 unfold sdioDecodeCisRound
 rw [code]
 exact if_pos last

theorem round_linked {tplCode tplLink : UInt8}
  (code : sdioReadCisTplField card s.addr = some tplCode)
  (notEnd : tplCode ≠ sdioCisTplEnd) (notNull : tplCode ≠ sdioCisTplNull)
  (link : sdioReadCisTplField card (s.addr + 1) = some tplLink) :
  sdioDecodeCisRound card calloc s = sdioDecodeCisBody card calloc s tplCode tplLink := by
 have more : ¬(tplCode = sdioCisTplEnd ∨ tplCode = sdioCisTplNull) := not_or.mpr ⟨notEnd, notNull⟩
 unfold sdioDecodeCisRound
 rw [code, link]
 exact if_neg more

theorem runs_last {status : CisStatus} {t : Walk}
  (round : sdioDecodeCisRound card calloc s = some (some status, t)) :
  (sdioDecodeCis card calloc).Runs s status t := by
 refine (Prog.runs_loop _ _ _ _ _).mpr (.inl ((Prog.runs_attempt _ _ _ _).mpr ?_))
 rw [round]
 rfl

theorem runs_more {t u : Walk} {status : CisStatus}
  (round : sdioDecodeCisRound card calloc s = some (none, t))
  (run : (sdioDecodeCis card calloc).Runs t status u) :
  (sdioDecodeCis card calloc).Runs s status u := by
 refine (Prog.runs_loop _ _ _ _ _).mpr (.inr ⟨(), t, (Prog.runs_attempt _ _ _ _).mpr ?_, run⟩)
 rw [round]
 rfl

theorem readBody_holds {body : List UInt8} {addr : UInt32} (held : Holds card (addr + 1) body) :
  readBody card body.length addr = some body := by
 induction body generalizing addr with
 | nil => rfl
 | cons byte rest ih =>
  rw [List.length_cons, readBody, held.1, ih held.2]
  rfl

theorem holds_append {addr : UInt32} {front back : List UInt8} :
  Holds card addr (front ++ back) ↔
   Holds card addr front ∧ Holds card (addr + UInt32.ofNat front.length) back := by
 induction front generalizing addr with
 | nil =>
  have same : addr + UInt32.ofNat 0 = addr := by
   exact UInt32.add_zero addr
  rw [List.nil_append, List.length_nil, same]
  exact (and_iff_right trivial).symm
 | cons byte rest ih =>
  have same : addr + 1 + UInt32.ofNat rest.length =
    addr + UInt32.ofNat (rest.length + 1) := by
   rw [UInt32.add_assoc, UInt32.ofNat_add, UInt32.add_comm 1]
   rfl
  rw [List.cons_append, List.length_cons, Holds, Holds, ih, same, and_assoc]

theorem LinkedTuple.link_toNat (tuple : LinkedTuple) : tuple.link.toNat = tuple.body.length := by
 have fits : tuple.body.length < 256 := Nat.lt_succ_of_lt tuple.fits
 exact UInt8.toNat_ofNat_of_lt' fits

theorem LinkedTuple.link_ne_end (tuple : LinkedTuple) : tuple.link ≠ sdioCisTplEnd := fun same => by
 have length : tuple.body.length = 255 := by
  rw [← tuple.link_toNat, same]
  rfl
 exact absurd tuple.fits (by omega)

theorem LinkedTuple.link_eq_null (tuple : LinkedTuple) :
  tuple.link = sdioCisTplNull ↔ tuple.body = [] := by
 rw [← UInt8.toNat_inj, tuple.link_toNat]
 exact List.length_eq_zero_iff

def LinkedTuple.fetched (tuple : LinkedTuple) : SdioCisTuple := ⟨tuple.code, tuple.link, tuple.body⟩

theorem fill_holds (tuple : LinkedTuple) {addr : UInt32} (held : Holds card (addr + 1) tuple.body) :
  sdioFillTplInfo card tuple.code tuple.link addr = some tuple.fetched := by
 rw [sdioFillTplInfo, tuple.link_toNat, readBody_holds held]
 rfl

theorem round_end {fin : ChainEnd} (held : Holds card s.addr fin.bytes) :
  sdioDecodeCisRound card calloc s = some (some .success, s.visit) := by
 cases fin with
 | endTuple => exact round_last held.1 (.inl rfl)
 | endLink code notNull notEnd =>
  rw [round_linked held.1 notEnd notNull held.2.1]
  rfl

theorem runs_null (held : Holds card s.addr ChainTuple.null.bytes) :
  (sdioDecodeCis card calloc).Runs s .success s.visit :=
 runs_last (round_last held.1 (.inr rfl))

variable {tuple : LinkedTuple} (held : Holds card s.addr (ChainTuple.linked tuple).bytes)
include held

theorem round_tuple : sdioDecodeCisRound card calloc s =
  sdioDecodeCisBody card calloc s tuple.code tuple.link :=
 round_linked held.1 tuple.code_ne_end tuple.code_ne_null held.2.1

theorem runs_empty (empty : tuple.body = []) :
  (sdioDecodeCis card calloc).Runs s .success { s.visit with addr := s.addr + 1 }.visit := by
 have null : tuple.link = sdioCisTplNull := tuple.link_eq_null.mpr empty
 refine runs_more ?_ (runs_last (round_last held.2.1 (.inr null)))
 rw [round_tuple held, sdioDecodeCisBody, if_neg tuple.link_ne_end, if_pos null]

theorem runs_refused (some_ : tuple.body ≠ []) (refused : calloc s.allocs = false) :
  (sdioDecodeCis card calloc).Runs s .errMallocFail s.visit := by
 have linked : tuple.link ≠ sdioCisTplNull := mt tuple.link_eq_null.mp some_
 refine runs_last ?_
 rw [round_tuple held, sdioDecodeCisBody, if_neg tuple.link_ne_end, if_neg linked, if_pos refused]

theorem round_pass (some_ : tuple.body ≠ []) (memory : calloc s.allocs = true) :
  ∃ dev, sdioDecodeCisRound card calloc s = some (none, s.pass tuple.fetched dev) := by
 have linked : tuple.link ≠ sdioCisTplNull := mt tuple.link_eq_null.mp some_
 obtain ⟨dev, decode⟩ := decode_defined tuple.fetched s.dev tuple.link_toNat.symm linked
 refine ⟨dev, ?_⟩
 rw [round_tuple held, sdioDecodeCisBody, if_neg tuple.link_ne_end, if_neg linked,
  if_neg (by rw [memory]; decide), fill_holds tuple held.2.2]
 exact Option.map_eq_some_iff.mpr ⟨dev, decode, rfl⟩

omit held in
theorem pass_addr (dev : SdioDevice) :
  (s.pass tuple.fetched dev).addr = (ChainTuple.linked tuple).next s.addr := by
 have link : tuple.link.toUInt32 = UInt32.ofNat tuple.body.length := by
  rw [← tuple.link_toNat, UInt32.ofNat_uInt8ToNat]
 change s.addr + 1 + tuple.link.toUInt32 + 1 = s.addr + UInt32.ofNat (tuple.body.length + 1 + 1)
 have two : UInt32.ofNat (tuple.body.length + 1 + 1) = UInt32.ofNat tuple.body.length + (1 + 1) :=
  UInt32.ofNat_add tuple.body.length 2
 rw [link, two, UInt32.add_assoc, UInt32.add_assoc, UInt32.add_comm 1, UInt32.add_assoc]

end Rounds

section Chains

variable {card : UInt32 → Option UInt8} {calloc : ℕ → Bool} {fin : ChainEnd}

theorem chainBytes_cons (tuple : ChainTuple) (rest : List ChainTuple) :
  chainBytes (tuple :: rest) fin = tuple.bytes ++ chainBytes rest fin := by
 rw [chainBytes, List.flatMap_cons, List.append_assoc, chainBytes]

structure Walkable (calloc : ℕ → Bool) (allocs : ℕ) (tuples : List ChainTuple) : Prop where
 bodies : ∀ tuple ∈ tuples, tuple.HasBody
 memory : ∀ n < tuples.length, calloc (allocs + n) = true

theorem walkable_cons {allocs : ℕ} {tuple : ChainTuple} {rest : List ChainTuple} :
  Walkable calloc allocs (tuple :: rest) ↔
   tuple.HasBody ∧ calloc allocs = true ∧ Walkable calloc (allocs + 1) rest := by
 constructor
 · intro walkable
   refine ⟨walkable.bodies _ List.mem_cons_self, walkable.memory 0 (Nat.zero_lt_succ _),
    fun t mem => walkable.bodies t (List.mem_cons_of_mem _ mem), fun n less => ?_⟩
   rw [Nat.add_assoc, Nat.add_comm 1]
   exact walkable.memory (n + 1) (Nat.succ_lt_succ less)
 · rintro ⟨body, memory, walkable⟩
   refine ⟨List.forall_mem_cons.mpr ⟨body, walkable.bodies⟩, fun n less => ?_⟩
   cases n with
   | zero => exact memory
   | succ n =>
    rw [Nat.add_comm n, ← Nat.add_assoc]
    exact walkable.memory n (Nat.lt_of_succ_lt_succ less)

variable (addr : UInt32) (tuples : List ChainTuple)

theorem entry_sublist (tuple : LinkedTuple) :
  List.Sublist ((ChainTuple.linked tuple).entry addr) [(addr, tuple.fetched)] := by
 unfold ChainTuple.entry
 change List.Sublist (if _ then _ else _) _
 split
 · exact List.Sublist.refl _
 · exact List.nil_sublist _

theorem walk_whole {s : Walk}
  (held : Holds card s.addr (chainBytes tuples fin))
  (walkable : Walkable calloc s.allocs tuples) :
  ∃ t more, (sdioDecodeCis card calloc).Runs s .success t ∧
   t.visited = s.visited ++ places s.addr tuples ∧ t.decoded = s.decoded ++ more ∧
   List.Sublist (entries s.addr tuples) more := by
 induction tuples generalizing s with
 | nil =>
  refine ⟨s.visit, [], runs_last (round_end held), rfl, (List.append_nil _).symm, ?_⟩
  exact List.nil_sublist _
 | cons tuple rest ih =>
  obtain ⟨body, memory, later⟩ := walkable_cons.mp walkable
  rw [chainBytes_cons, holds_append] at held
  cases tuple with
  | null => exact body.elim
  | linked tuple =>
   obtain ⟨dev, round⟩ := round_pass held.1 body memory
   have next := held.2
   rw [← ChainTuple.next, ← pass_addr dev] at next
   obtain ⟨t, more, run, visited, decoded, found⟩ := ih next later
   rw [pass_addr] at visited found
   refine ⟨t, (s.addr, tuple.fetched) :: more, runs_more round run, ?_, ?_,
    (entry_sublist s.addr tuple).append found⟩
   · rw [visited]
     exact List.append_assoc _ _ _
   · rw [decoded]
     exact List.append_assoc _ _ _

theorem places_ne_nil : places addr tuples ≠ [] := by
 cases tuples with
 | nil | cons tuple rest => exact List.cons_ne_nil _ _

theorem mem_places : addr ∈ places addr tuples := by
 cases tuples with
 | nil | cons tuple rest => exact List.mem_cons_self

theorem walk_stops {s : Walk}
  (held : Holds card s.addr (chainBytes tuples fin))
  (stuck : ¬Walkable calloc s.allocs tuples) :
  ∃ status t more, (sdioDecodeCis card calloc).Runs s status t ∧
   t.visited = s.visited ++ more ∧ ¬List.Sublist (places s.addr tuples) more := by
 induction tuples generalizing s with
 | nil =>
  have walkable : Walkable calloc s.allocs [] :=
   ⟨fun _ mem => (List.not_mem_nil mem).elim, fun _ less => (Nat.not_lt_zero _ less).elim⟩
  exact absurd walkable stuck
 | cons tuple rest ih =>
  rw [chainBytes_cons, holds_append] at held
  have short : ¬List.Sublist (places s.addr (tuple :: rest)) [s.addr] := fun sub =>
   places_ne_nil _ _ (List.sublist_nil.mp (List.cons_sublist_cons.mp sub))
  cases tuple with
  | null => exact ⟨.success, s.visit, [s.addr], runs_null held.1, rfl, short⟩
  | linked tuple =>
   by_cases empty : tuple.body = []
   · refine ⟨.success, _, [s.addr, s.addr + 1], runs_empty held.1 empty,
      List.append_assoc s.visited [s.addr] [s.addr + 1], fun sub => ?_⟩
     have behind := (List.cons_sublist_cons.mp sub).subset (mem_places _ rest)
     have same : s.addr + UInt32.ofNat (tuple.body.length + 1 + 1) = s.addr + 1 :=
      List.mem_singleton.mp behind
     rw [empty, UInt32.add_right_inj] at same
     exact absurd same (by decide)
   cases memory : calloc s.allocs with
   | false =>
    exact ⟨.errMallocFail, s.visit, [s.addr], runs_refused held.1 empty memory, rfl, short⟩
   | true =>
    obtain ⟨dev, round⟩ := round_pass held.1 empty memory
    have next := held.2
    rw [← ChainTuple.next, ← pass_addr dev] at next
    have later : ¬Walkable calloc (s.allocs + 1) rest := fun walkable =>
     stuck (walkable_cons.mpr ⟨empty, memory, walkable⟩)
    obtain ⟨status, t, more, run, visited, missed⟩ := ih next later
    rw [pass_addr] at missed
    refine ⟨status, t, s.addr :: more, runs_more round run, ?_, fun sub =>
     missed (List.cons_sublist_cons.mp sub)⟩
    rw [visited]
    exact List.append_assoc _ _ _

theorem not_walksChain {dev : SdioDevice} {start : UInt32} {tuples : List ChainTuple}
  (held : Holds card start (chainBytes tuples fin)) (stuck : ¬Walkable calloc 0 tuples) :
  ¬WalksChain card calloc dev start tuples := by
 rintro ⟨status, t, run, visited, -⟩
 obtain ⟨status', t', more, run', visited', missed⟩ :=
  walk_stops (s := walkFrom dev start) tuples held stuck
 obtain ⟨-, rfl⟩ := run.unique run'
 rw [visited'] at visited
 exact missed visited

theorem walksChain {start : UInt32} {tuples : List ChainTuple} (dev : SdioDevice)
  (held : Holds card start (chainBytes tuples fin)) (walkable : Walkable calloc 0 tuples) :
  WalksChain card calloc dev start tuples := by
 obtain ⟨t, more, run, visited, decoded, found⟩ :=
  walk_whole (s := walkFrom dev start) tuples held walkable
 refine ⟨.success, t, run, ?_, ?_⟩
 · rw [visited]
   exact List.Sublist.refl _
 · rw [decoded]
   exact found

end Chains

/-- Every round reads only bytes of a body that it has fetched, and on a card that holds a chain the
walk visits all of its tuples and decodes its manufacturer and function extension tuples exactly if
each of its tuples has a body and memory. -/
theorem walks_iff (card : UInt32 → Option UInt8) (calloc : ℕ → Bool) :
    (∀ s, ∃ r, sdioDecodeCisRound card calloc s = some r) ∧
      ∀ (dev : SdioDevice) (start : UInt32) (tuples : List ChainTuple) (fin : ChainEnd),
        Holds card start (chainBytes tuples fin) →
          (WalksChain card calloc dev start tuples ↔
            (∀ tuple ∈ tuples, tuple.HasBody) ∧ ∀ n < tuples.length, calloc n = true) := by
  refine ⟨round_defined card calloc, fun dev start tuples fin held => ⟨fun walks => ?_, ?_⟩⟩
  · by_contra stuck
    refine not_walksChain held (fun walkable => stuck ⟨walkable.bodies, fun n less => ?_⟩) walks
    rw [← Nat.zero_add n]
    exact walkable.memory n less
  · rintro ⟨bodies, memory⟩
    refine walksChain dev held ⟨bodies, fun n less => ?_⟩
    rw [Nat.zero_add]
    exact memory n less

/-- A card whose registers hold the bytes. -/
def cardOf (bytes : List UInt8) (argument : UInt32) : Option UInt8 := bytes[(argument >>> 9).toNat]?

def maker : LinkedTuple where
 code := sdioCisTplManfid
 body := [1, 2, 3, 4]
 code_ne_null := by decide
 code_ne_end := by decide
 fits := by decide

def emptyTuple : LinkedTuple where
 code := 0x10
 body := []
 code_ne_null := by decide
 code_ne_end := by decide
 fits := by decide

def blank : SdioDevice := ⟨0, ⟨0, 0, 0, 0⟩, none⟩

theorem walks_iff_maker :
    WalksChain (cardOf [0x20, 4, 1, 2, 3, 4, 0xFF]) (fun _ => true) blank 0 [.linked maker] := by
  have held : Holds (cardOf [0x20, 4, 1, 2, 3, 4, 0xFF]) 0 (chainBytes [.linked maker] .endTuple) :=
    ⟨rfl, rfl, rfl, rfl, rfl, rfl, rfl, trivial⟩
  refine ((walks_iff _ _).2 blank 0 [.linked maker] .endTuple held).mpr ⟨fun tuple mem => ?_, ?_⟩
  · cases List.mem_singleton.mp mem
    exact List.cons_ne_nil _ _
  · exact fun _ _ => rfl

/-- Behind a null tuple, and behind an empty one, the manufacturer is not found. -/
theorem maker_missed :
    (Holds (cardOf [0, 0x20, 4, 1, 2, 3, 4, 0xFF]) 0 (chainBytes [.null, .linked maker] .endTuple) ∧
      ¬WalksChain (cardOf [0, 0x20, 4, 1, 2, 3, 4, 0xFF]) (fun _ => true) blank 0
        [.null, .linked maker]) ∧
    Holds (cardOf [0x10, 0, 0x20, 4, 1, 2, 3, 4, 0xFF]) 0
        (chainBytes [.linked emptyTuple, .linked maker] .endTuple) ∧
      ¬WalksChain (cardOf [0x10, 0, 0x20, 4, 1, 2, 3, 4, 0xFF]) (fun _ => true) blank 0
        [.linked emptyTuple, .linked maker] := by
  have null : Holds (cardOf [0, 0x20, 4, 1, 2, 3, 4, 0xFF]) 0
      (chainBytes [.null, .linked maker] .endTuple) :=
    ⟨rfl, rfl, rfl, rfl, rfl, rfl, rfl, rfl, trivial⟩
  have empty : Holds (cardOf [0x10, 0, 0x20, 4, 1, 2, 3, 4, 0xFF]) 0
      (chainBytes [.linked emptyTuple, .linked maker] .endTuple) :=
    ⟨rfl, rfl, rfl, rfl, rfl, rfl, rfl, rfl, rfl, trivial⟩
  refine ⟨⟨null, not_walksChain null fun walkable => ?_⟩, empty,
    not_walksChain empty fun walkable => ?_⟩
  · exact walkable.bodies .null List.mem_cons_self
  · exact walkable.bodies (.linked emptyTuple) List.mem_cons_self rfl

end DriversFramework.SdioTuples
