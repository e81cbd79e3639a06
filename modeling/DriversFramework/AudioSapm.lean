import DriversFramework.FiniteGraphs
import DriversFramework.HdfBase

/-! The power check of `audio_sapm.c` and its spreading from the ends of a path that a control
connects or disconnects, outside sleep and standby. A card has `n` components, which are named by
their places; the paths are those that `AudioSapmAddRoutes` has made. -/
namespace DriversFramework.AudioSapm

open FiniteGraphs

inductive AudioSapmType where
 | input
 | output
 | mux
 | demux
 | virtMux
 | valueMux
 | mixer
 | mixerNamedCtrl
 | pga
 | outDrv
 | adc
 | dac
 | micbias
 | mic
 | hp
 | spk
 | line
 | analogSwitch
 | vmid
 | pre
 | post
 | supply
 | regulatorSupply
 | clockSupply
 | aifIn
 | aifOut
 | siggen
 | sink
 deriving DecidableEq

def sapmPowerDown : ℕ := 0
def sapmPowerUp : ℕ := 1

def audioSapmPowerUpSeq : AudioSapmType → ℕ
 | .pre => 0
 | .supply => 1
 | .micbias => 2
 | .aifIn => 3
 | .aifOut => 3
 | .mic => 4
 | .mux => 5
 | .virtMux => 5
 | .valueMux => 5
 | .dac => 6
 | .mixer => 7
 | .mixerNamedCtrl => 7
 | .pga => 8
 | .adc => 9
 | .outDrv => 10
 | .hp => 10
 | .spk => 10
 | .post => 11
 | _ => 0

def audioSapmPowerDownSeq : AudioSapmType → ℕ
 | .pre => 0
 | .adc => 1
 | .hp => 2
 | .spk => 2
 | .outDrv => 2
 | .pga => 4
 | .mixerNamedCtrl => 5
 | .mixer => 5
 | .dac => 6
 | .mic => 7
 | .micbias => 8
 | .mux => 9
 | .virtMux => 9
 | .valueMux => 9
 | .aifIn => 10
 | .aifOut => 10
 | .supply => 11
 | .post => 12
 | _ => 0

structure AudioSapmComponent where
 sapmType : AudioSapmType
 reg : ℤ
 active : ℕ
 deriving DecidableEq

structure AudioSapmPath (n : ℕ) where
 source : Fin n
 sink : Fin n
 connect : Bool
 kcontrol : Option ℕ
 deriving DecidableEq

structure AudioCard (n : ℕ) where
 component : Fin n → AudioSapmComponent
 paths : List (AudioSapmPath n)
 power : Fin n → ℕ

def inputEndPoint (type : AudioSapmType) : Bool :=
 type ∈ [.dac, .aifIn, .input, .mic, .line]

def outputEndPoint (type : AudioSapmType) : Bool :=
 type ∈ [.adc, .aifOut, .output, .hp, .spk, .line]

/-- `count += …` on an `int32_t`, which must not run over. -/
def addCount (count more : ℕ) : Option ℕ :=
 if count + more < 2 ^ 31 then some (count + more) else none

namespace AudioCard

variable {n : ℕ}

def sources (card : AudioCard n) (c : Fin n) : List (AudioSapmPath n) :=
 card.paths.filter fun path => decide (path.sink = c)

def sinks (card : AudioCard n) (c : Fin n) : List (AudioSapmPath n) :=
 card.paths.filter fun path => decide (path.source = c)

def connectedInputEndPoint (card : AudioCard n) : ℕ → Fin n → Option ℕ
 | 0, _ => none
 | fuel + 1, c =>
  if inputEndPoint (card.component c).sapmType then some 1
  else (card.sources c).foldlM (fun count path =>
   if path.connect then (card.connectedInputEndPoint fuel path.source).bind (addCount count)
   else some count) 0

def connectedOutputEndPoint (card : AudioCard n) : ℕ → Fin n → Option ℕ
 | 0, _ => none
 | fuel + 1, c =>
  if outputEndPoint (card.component c).sapmType then some 1
  else (card.sinks c).foldlM (fun count path =>
   if path.connect then (card.connectedOutputEndPoint fuel path.sink).bind (addCount count)
   else some count) 0

def genericCheckPower (card : AudioCard n) (c : Fin n) : Option ℕ :=
 (card.connectedInputEndPoint n c).bind fun input =>
  (card.connectedOutputEndPoint n c).bind fun output =>
   some (if input = 0 ∨ output = 0 then sapmPowerDown else sapmPowerUp)

def adcCheckPower (card : AudioCard n) (c : Fin n) : Option ℕ :=
 if (card.component c).active = 0 then card.genericCheckPower c else card.connectedInputEndPoint n c

def dacCheckPower (card : AudioCard n) (c : Fin n) : Option ℕ :=
 if (card.component c).active = 0 then card.genericCheckPower c else card.connectedOutputEndPoint n c

/-- The check that `AudioSampCheckPowerCallback` has set; the result is kept in a `uint8_t`. -/
def powerCheck (card : AudioCard n) (c : Fin n) : Option ℕ :=
 (if (card.component c).sapmType = .adc ∨ (card.component c).sapmType = .aifOut then
   card.adcCheckPower c
  else if (card.component c).sapmType = .dac ∨ (card.component c).sapmType = .aifIn then
   card.dacCheckPower c
  else card.genericCheckPower c).map (· % 2 ^ 8)

/-- The neighbours that `AudioSapmSetPower` looks at, those that do not have the power. -/
def differing (card : AudioCard n) (power : ℕ) (c : Fin n) : List (Fin n) :=
 ((card.sources c).filter fun path =>
   path.connect && decide (card.power path.source ≠ power)).map (·.source) ++
  ((card.sinks c).filter fun path =>
   path.connect && decide (card.power path.sink ≠ power)).map (·.sink)

def powerSeqInsert (card : AudioCard n) (seq : AudioSapmType → ℕ) (c : Fin n) :
  List (Fin n) → List (Fin n)
 | [] => [c]
 | d :: rest =>
  if seq (card.component c).sapmType < seq (card.component d).sapmType then c :: d :: rest
  else d :: card.powerSeqInsert seq c rest

structure PowerLists (n : ℕ) where
 upList : List (Fin n)
 downList : List (Fin n)

def insertPower (card : AudioCard n) (lists : PowerLists n) (c : Fin n) (power : ℕ) : PowerLists n :=
 if power ≠ 0 then { lists with upList := card.powerSeqInsert audioSapmPowerUpSeq c lists.upList }
 else { lists with downList := card.powerSeqInsert audioSapmPowerDownSeq c lists.downList }

/-- The walk over `sapmDirty`, which grows at its end: `past` and `todo` are the list. -/
def powerLoop (card : AudioCard n) :
  ℕ → List (Fin n) → List (Fin n) → PowerLists n → Option (PowerLists n)
 | 0, _, _, _ => none
 | _ + 1, _, [], lists => some lists
 | fuel + 1, past, c :: todo, lists =>
  (card.powerCheck c).bind fun newPower =>
   if newPower = card.power c then card.powerLoop fuel (past ++ [c]) todo lists
   else card.powerLoop fuel (past ++ [c])
    (todo ++ fresh (past ++ c :: todo) (card.differing newPower c))
    (card.insertPower lists c newPower)

/-- The new power of a component in `AudioSapmPowerUpSeqRun` or `AudioSapmPowerDownSeqRun`. -/
def setPowerFrom (card : AudioCard n) (before after : ℕ) (c : Fin n) : AudioCard n :=
 if 0 ≤ (card.component c).reg ∧ card.power c = before then
  { card with power := Function.update card.power c after }
 else card

def powerUpSeqRun (card : AudioCard n) (list : List (Fin n)) : AudioCard n :=
 list.foldl (fun card c => card.setPowerFrom sapmPowerDown sapmPowerUp c) card

def powerDownSeqRun (card : AudioCard n) (list : List (Fin n)) : AudioCard n :=
 list.foldl (fun card c => card.setPowerFrom sapmPowerUp sapmPowerDown c) card

def powerComponents (card : AudioCard n) (sapmDirty : List (Fin n)) : Option (AudioCard n) :=
 (card.powerLoop (n + 1) [] sapmDirty ⟨[], []⟩).map fun lists =>
  (card.powerDownSeqRun lists.downList).powerUpSeqRun lists.upList

def mixerDevice (type : AudioSapmType) : Bool :=
 type ∈ [.mixer, .mixerNamedCtrl, .pga, .spk, .analogSwitch]

def setConnect (card : AudioCard n) (i : ℕ) (pathStatus : Bool) : AudioCard n :=
 { card with paths := card.paths.modify i fun path => { path with connect := pathStatus } }

/-- `MixerUpdatePowerStatus`: the first path of the control is the one that changes. -/
def mixerUpdatePowerStatus (card : AudioCard n) (kcontrol : ℕ) (pathStatus : Bool) :
  Option (HdfStatus × AudioCard n) :=
 match card.paths.findIdx? fun path => decide (path.kcontrol = some kcontrol) with
 | none => (card.powerComponents []).map fun card => (.success, card)
 | some i =>
  match card.paths[i]? with
  | none => none
  | some path =>
   if mixerDevice (card.component path.sink).sapmType then
    ((card.setConnect i pathStatus).powerComponents [path.source, path.sink]).map fun card =>
     (.success, card)
   else some (.devErrNoDevice, card)

/-- A control change: the control and whether its path is connected. -/
def step (card : AudioCard n) (change : ℕ × Bool) : Option (AudioCard n) :=
 (card.mixerUpdatePowerStatus change.1 change.2).map (·.2)

end AudioCard

end DriversFramework.AudioSapm
