import DriversFramework.HdfBase
import DriversFramework.RunRules

/-! `hdmi_frl.c`: the mode selection takes the highest and the lowest rate from what the sink, the
controller and the video format allow, and the training goes from rate to rate between them. What
the functions read besides their own information, and what the sink answers, comes as an
environment; the settings of the hardware have no effect on the rates. -/
namespace DriversFramework.HdmiFrl

inductive HdmiFrlMode where
 | tmds
 | frl
 deriving DecidableEq

def hdmiFrlWorkMode4L12G : UInt8 := 6

def hdmiHdmi14MaxTmdsRate : UInt32 := 340000
def hdmiHdmi20MaxTmdsRate : UInt32 := 600000

inductive HdmiFrlTrainStatus where
 | null
 | fail
 | succ
 | busy
 deriving DecidableEq

inductive HdmiFrlTrainingFailReason where
 | normal
 | fltTimeout
 | fltStepTimeout
 | rateChange
 | ffeChange
 deriving DecidableEq

inductive HdmiFrlTrainStep where
 | readrCheck
 | trainStart
 | resultCheck
 | rateChange
 | resultHandle
 | retrainCheck
 | trainStop
 | butt
 deriving DecidableEq

inductive HdmiFrlRateSelect where
 | little
 | big
 | butt
 deriving DecidableEq

inductive HdmiFrlStrategyMode where
 | mode1
 | mode2
 | mode3
 | butt
 deriving DecidableEq

inductive HdmiFrlStateMachineRunningState where
 | null
 | start
 | stop
 deriving DecidableEq

inductive HdmiVideoFormatType where
 | null
 | progressive
 | interlace
 deriving DecidableEq

structure HdmiFrlStateMachineInfo where
 start : Bool := false
 trainingState : HdmiFrlTrainStep := .readrCheck
 machineState : HdmiFrlStateMachineRunningState := .null
 startTime : UInt64 := 0
 waitReadyTime : UInt32 := 0
 waitHandleTime : UInt32 := 0
 waitRetrainTime : UInt32 := 0
 timeoutCnt : UInt32 := 0

/-- The defaults are the cleared memory it is allocated in. -/
structure HdmiFrlInfo where
 curFrlRate : UInt8 := 0
 minFrlRate : UInt8 := 0
 maxFrlRate : UInt8 := 0
 preFrlRate : UInt8 := 0
 tmdsClock : UInt32 := 0
 mode : HdmiFrlMode := .tmds
 strategy : HdmiFrlStrategyMode := .mode1
 rateSelect : HdmiFrlRateSelect := .little
 ctsMode : Bool := false
 start : Bool := false
 work : Bool := false
 machineInfo : HdmiFrlStateMachineInfo := {}
 trainingFailCnt : UInt32 := 0
 trainingMaxFailTimes : UInt32 := 0

structure HdmiFrlTrainRslt where
 status : HdmiFrlTrainStatus := .null
 failReason : HdmiFrlTrainingFailReason := .normal

/-- What one round of the loop of `HdmiFrlTrainingResultHandleTimeout` reads -/
structure HandleRound where
 frlStart : Bool
 fltUpdate : Bool
 curTime : UInt64

/-- What a call reads: the controller's settings and capabilities, the sink's `EDID`, its answers
(a query that fails counts as the 0 it is replaced by), the clock. `videoInfo` is what
`HdmiCommonGetVideoDefInfo` finds, `formatSupport` what `HdmiDfmFormatSupport` says at each rate. -/
structure Env where
 hasOps : Bool
 hdmi21 : Bool
 frl : Bool
 capMaxFrlRate : UInt32
 pixelClock : UInt32
 tmdsClock : UInt32
 edidSupportFrl : Bool
 edidMaxFrlRate : UInt8
 videoInfo : Option HdmiVideoFormatType
 formatSupport : ℕ → Bool
 sinkVersion : UInt8
 testConfig1 : UInt8
 fltReady : Bool
 fltUpdate : Bool
 frlStart : Bool
 trainRslt : HdmiFrlTrainRslt
 curTime : UInt64
 restartTime : UInt64
 rounds : List HandleRound

def hdmiFrlCheckFrlCapability (env : Env) (info : HdmiFrlInfo) : HdmiFrlInfo × HdfStatus :=
 if env.edidSupportFrl = false ∨ env.hdmi21 = false ∨ env.frl = false ∨ env.sinkVersion = 0 then
  ({ info with maxFrlRate := 0 }, .errNotSupport)
 else
  ({ info with
   maxFrlRate :=
    if env.capMaxFrlRate < env.edidMaxFrlRate.toUInt32 then env.capMaxFrlRate.toUInt8
    else env.edidMaxFrlRate }, .success)

def hdmiFrlCheckFrlStrategy (strategy : HdmiFrlStrategyMode) (pixelClock tmdsClock : UInt32)
  (formatType : HdmiVideoFormatType) : Bool :=
 match strategy with
 | .mode1 => !decide (pixelClock ≤ hdmiHdmi20MaxTmdsRate ∧ tmdsClock ≤ hdmiHdmi20MaxTmdsRate)
 | .mode2 => !decide (tmdsClock ≤ hdmiHdmi14MaxTmdsRate)
 | .mode3 => !decide (formatType = .interlace)
 | .butt => true

/-- The loop over the rates from the highest down: where it stops, and `minFrlRate` then -/
def rateLoop (formatSupport : ℕ → Bool) : ℕ → UInt8 → ℕ × UInt8
 | 0, minFrlRate => (0, minFrlRate)
 | i + 1, minFrlRate =>
  if formatSupport (i + 1) then rateLoop formatSupport i (UInt8.ofNat (i + 1))
  else (i + 1, minFrlRate)

def hdnmiFrlCheckFrlMode (env : Env) (info : HdmiFrlInfo) : HdmiFrlInfo × Bool :=
 match env.videoInfo with
 | none => (info, false)
 | some formatType =>
  let info := { info with tmdsClock := env.tmdsClock }
  if hdmiFrlCheckFrlStrategy info.strategy env.pixelClock info.tmdsClock formatType = false then
   (info, false)
  else if hdmiFrlWorkMode4L12G < info.maxFrlRate then
   ({ info with maxFrlRate := hdmiFrlWorkMode4L12G }, true)
  else
   let found := rateLoop env.formatSupport info.maxFrlRate.toNat info.minFrlRate
   ({ info with minFrlRate := found.2 }, !decide (found.1 = info.maxFrlRate.toNat))

def hdmiFrlIsCtsMode (env : Env) : Bool :=
 let frlMax := (env.testConfig1 >>> 7) &&& 1
 let dscFrlMax := (env.testConfig1 >>> 6) &&& 1
 decide ((0 < frlMax ∧ dscFrlMax = 0) ∨ (frlMax = 0 ∧ 0 < dscFrlMax))

def nextRate (info : HdmiFrlInfo) : UInt8 × UInt8 :=
 if info.ctsMode then (info.maxFrlRate, info.curFrlRate)
 else if info.preFrlRate ≠ 0 then (info.preFrlRate, 0)
 else if info.rateSelect = .big then (info.curFrlRate - 1, info.preFrlRate)
 else (info.curFrlRate + 1, info.preFrlRate)

def hdmiFrlGetCurRate (info : HdmiFrlInfo) : HdmiFrlInfo × HdfStatus :=
 let next := nextRate info
 let info := { info with preFrlRate := next.2 }
 if info.maxFrlRate < next.1 ∨ next.1 < info.minFrlRate then (info, .failure)
 else ({ info with curFrlRate := next.1 }, .success)

def hdmiFrlStateMachineChangeState (env : Env) (info : HdmiFrlInfo) (state : HdmiFrlTrainStep) :
  HdmiFrlInfo :=
 { info with
  machineInfo := { info.machineInfo with trainingState := state, startTime := env.restartTime } }

def hdmiFrlTrainingReadyCheck (env : Env) (info : HdmiFrlInfo) : HdmiFrlInfo :=
 if env.fltReady then hdmiFrlStateMachineChangeState env info .trainStart else info

def hdmiFrlConfigAndStartTraining (env : Env) (info : HdmiFrlInfo) : HdmiFrlInfo :=
 if env.hasOps then hdmiFrlStateMachineChangeState env info .resultCheck else info

/-- What `HdmiFrlTrainingResultCheck` and its timeout do with a result; `failed` is the rest. -/
def trainingResult (env : Env) (info : HdmiFrlInfo) (failed : HdmiFrlInfo → HdmiFrlInfo) :
  HdmiFrlInfo :=
 if env.trainRslt.status = .succ then
  hdmiFrlStateMachineChangeState env { info with trainingFailCnt := 0 } .resultHandle
 else if env.trainRslt.failReason = .ffeChange then
  hdmiFrlStateMachineChangeState env { info with trainingFailCnt := 0 } .trainStart
 else if env.trainRslt.failReason = .rateChange then
  hdmiFrlStateMachineChangeState env { info with trainingFailCnt := 0 } .rateChange
 else failed { info with trainingFailCnt := info.trainingFailCnt + 1 }

def hdmiFrlTrainingResultCheck (env : Env) (info : HdmiFrlInfo) : HdmiFrlInfo :=
 trainingResult env info id

def hdmiFrlTrainingException (env : Env) (info : HdmiFrlInfo) : HdmiFrlInfo :=
 if env.hasOps then
  let info := { hdmiFrlStateMachineChangeState env info .trainStop with start := false }
  if hdmiHdmi20MaxTmdsRate < env.tmdsClock then info else { info with mode := .tmds }
 else info

def hdmiFrlTrainingRateChange (env : Env) (info : HdmiFrlInfo) : HdmiFrlInfo :=
 let got := hdmiFrlGetCurRate { info with ctsMode := hdmiFrlIsCtsMode env }
 if got.2 ≠ .success then hdmiFrlTrainingException env got.1
 else hdmiFrlStateMachineChangeState env got.1 .trainStart

def hdmiFrlTrainingPassedCheck (env : Env) (info : HdmiFrlInfo) : HdmiFrlInfo :=
 if env.hasOps = false ∨ info.start = false ∨ env.frlStart = false then info
 else hdmiFrlStateMachineChangeState env { info with work := true } .retrainCheck

def hdmiFrlRetrainingCheck (env : Env) (info : HdmiFrlInfo) : HdmiFrlInfo :=
 if env.hasOps = false ∨ env.fltUpdate = false then info
 else hdmiFrlStateMachineChangeState env { info with work := false } .trainStart

def hdmiFrlTrainingStop (env : Env) (info : HdmiFrlInfo) : HdmiFrlInfo :=
 if env.hasOps then hdmiFrlStateMachineChangeState env { info with work := false } .butt
 else info

def hdmiFrlTrainingStateMachineHandle (env : Env) (info : HdmiFrlInfo) : HdmiFrlInfo :=
 match info.machineInfo.trainingState with
 | .readrCheck => hdmiFrlTrainingReadyCheck env info
 | .trainStart => hdmiFrlConfigAndStartTraining env info
 | .resultCheck => hdmiFrlTrainingResultCheck env info
 | .rateChange => hdmiFrlTrainingRateChange env info
 | .resultHandle => hdmiFrlTrainingPassedCheck env info
 | .retrainCheck => hdmiFrlRetrainingCheck env info
 | .trainStop => hdmiFrlTrainingStop env info
 | .butt => info

def setTimeoutCnt (info : HdmiFrlInfo) (timeoutCnt : UInt32) : HdmiFrlInfo :=
 { info with machineInfo := { info.machineInfo with timeoutCnt := timeoutCnt } }

def hdmiFrlTrainingReadyCheckTimeout (env : Env) (info : HdmiFrlInfo) : HdmiFrlInfo :=
 let machine := info.machineInfo
 if machine.waitReadyTime.toUInt64 < env.curTime - machine.startTime then
  if env.fltReady then hdmiFrlStateMachineChangeState env (setTimeoutCnt info 0) .trainStart
  else
   hdmiFrlStateMachineChangeState env (setTimeoutCnt info (machine.timeoutCnt + 1)) .readrCheck
 else if machine.timeoutCnt < 10 then info
 else hdmiFrlTrainingException env (setTimeoutCnt info 0)

def hdmiFrlTrainingResultCheckTimeout (env : Env) (info : HdmiFrlInfo) : HdmiFrlInfo :=
 trainingResult env info fun info =>
  if info.trainingMaxFailTimes < info.trainingFailCnt then
   hdmiFrlTrainingException env { info with trainingFailCnt := 0 }
  else hdmiFrlStateMachineChangeState env info .trainStart

def handleRounds (env : Env) (info : HdmiFrlInfo) : List HandleRound → HdmiFrlInfo
 | [] => info
 | r :: rs =>
  if r.frlStart ∧ info.start then
   hdmiFrlStateMachineChangeState env { info with work := true } .retrainCheck
  else if r.frlStart = false ∧ r.fltUpdate then
   hdmiFrlStateMachineChangeState env info .trainStart
  else if info.machineInfo.waitHandleTime.toUInt64 < r.curTime - info.machineInfo.startTime then
   setTimeoutCnt info (info.machineInfo.timeoutCnt + 1)
  else handleRounds env info rs

def hdmiFrlTrainingResultHandleTimeout (env : Env) (info : HdmiFrlInfo) : HdmiFrlInfo :=
 if env.hasOps then
  let info := handleRounds env info env.rounds
  if 3 ≤ info.machineInfo.timeoutCnt then hdmiFrlTrainingException env (setTimeoutCnt info 0)
  else info
 else info

def hdmiFrlRetrainingCheckTimeout (env : Env) (info : HdmiFrlInfo) : HdmiFrlInfo :=
 if env.hasOps = false then info
 else if env.curTime - info.machineInfo.startTime ≤ info.machineInfo.waitRetrainTime.toUInt64 then
  info
 else if env.fltUpdate = false then info
 else hdmiFrlStateMachineChangeState env { info with work := true } .trainStart

def hdmiFrlTrainingStateMachineTimeoutHandle (env : Env) (info : HdmiFrlInfo) : HdmiFrlInfo :=
 match info.machineInfo.trainingState with
 | .readrCheck => hdmiFrlTrainingReadyCheckTimeout env info
 | .trainStart => hdmiFrlConfigAndStartTraining env info
 | .resultCheck => hdmiFrlTrainingResultCheckTimeout env info
 | .rateChange => hdmiFrlTrainingRateChange env info
 | .resultHandle => hdmiFrlTrainingResultHandleTimeout env info
 | .retrainCheck => hdmiFrlRetrainingCheckTimeout env info
 | .trainStop => hdmiFrlTrainingStop env info
 | .butt => info

def hdmiFrlEnable (env : Env) (info : HdmiFrlInfo) (enable : Bool) : HdmiFrlInfo :=
 let info := { info with
  start := enable
  machineInfo := { info.machineInfo with
   start := enable, machineState := if enable then .start else .stop }
  ctsMode := hdmiFrlIsCtsMode env }
 let info := if info.ctsMode then (hdmiFrlGetCurRate info).1 else info
 hdmiFrlStateMachineChangeState env info .readrCheck

def selectedMode (env : Env) (info : HdmiFrlInfo) : HdmiFrlInfo :=
 let capable := hdmiFrlCheckFrlCapability env info
 if capable.2 ≠ .success then { capable.1 with mode := .tmds }
 else
  let checked := hdnmiFrlCheckFrlMode env capable.1
  { checked.1 with mode := if checked.2 then .frl else .tmds }

def hdmiFrlModeSelect (env : Env) (info : HdmiFrlInfo) : HdmiFrlInfo × HdfStatus :=
 let info := selectedMode env info
 if info.mode = .tmds then
  if hdmiHdmi20MaxTmdsRate < env.tmdsClock then (info, .failure) else (info, .success)
 else
  ({ info with
   curFrlRate := if info.rateSelect = .big then info.maxFrlRate else info.minFrlRate
   ctsMode := false }, .success)

/-- A call on the link, with what it reads -/
inductive FrlCall where
 | modeSelect (env : Env)
 | enable (env : Env) (enable : Bool)
 | handle (env : Env)
 | timeoutHandle (env : Env)

def frlStep (info : HdmiFrlInfo) : FrlCall → HdmiFrlInfo
 | .modeSelect env => (hdmiFrlModeSelect env info).1
 | .enable env enable => hdmiFrlEnable env info enable
 | .handle env => hdmiFrlTrainingStateMachineHandle env info
 | .timeoutHandle env => hdmiFrlTrainingStateMachineTimeoutHandle env info

structure InBounds (info : HdmiFrlInfo) : Prop where
 pos : 1 ≤ info.minFrlRate
 min_le : info.minFrlRate ≤ info.curFrlRate
 le_max : info.curFrlRate ≤ info.maxFrlRate
 max_le : info.maxFrlRate ≤ hdmiFrlWorkMode4L12G

def FellBack (env : Env) (info : HdmiFrlInfo) : Prop :=
 ∃ failed, hdmiFrlGetCurRate { info with ctsMode := hdmiFrlIsCtsMode env } = (failed, .failure) ∧
  hdmiFrlTrainingRateChange env info = hdmiFrlTrainingException env failed

def TrainsAgain (env : Env) (info : HdmiFrlInfo) : Prop :=
 InBounds (hdmiFrlTrainingRateChange env info) ∧
  (hdmiFrlTrainingRateChange env info).mode = .frl ∧
  (hdmiFrlTrainingRateChange env info).machineInfo.trainingState = .trainStart

/-- What holds of a state at a fixed rate: its bounds, and what a rate change does from there -/
def RatesKept (info : HdmiFrlInfo) : Prop :=
 info.mode = .frl → InBounds info ∧ ∀ env, TrainsAgain env info ∨ FellBack env info

def ExceedsMax (env : Env) (info : HdmiFrlInfo) : Prop :=
 env.edidSupportFrl ∧ env.hdmi21 ∧ env.frl ∧ env.sinkVersion ≠ 0 ∧
  (∃ formatType, env.videoInfo = some formatType ∧
   hdmiFrlCheckFrlStrategy info.strategy env.pixelClock env.tmdsClock formatType) ∧
  hdmiFrlWorkMode4L12G.toUInt32 < env.capMaxFrlRate ∧ hdmiFrlWorkMode4L12G < env.edidMaxFrlRate

/-- Such a selection finds a minimum that an earlier one left. -/
def HasMin (info : HdmiFrlInfo) : FrlCall → Prop
 | .modeSelect env => ExceedsMax env info → info.minFrlRate ≠ 0
 | _ => True

structure KeepsRates (info info' : HdmiFrlInfo) : Prop where
 mode : info'.mode = .frl → info.mode = .frl
 minFrlRate : info'.minFrlRate = info.minFrlRate
 maxFrlRate : info'.maxFrlRate = info.maxFrlRate
 curFrlRate : info'.curFrlRate = info.curFrlRate ∨
  (info.minFrlRate ≤ info'.curFrlRate ∧ info'.curFrlRate ≤ info.maxFrlRate)

variable (env : Env) (info : HdmiFrlInfo)

namespace KeepsRates

theorem refl : KeepsRates info info := ⟨id, rfl, rfl, .inl rfl⟩

theorem inBounds {info info' : HdmiFrlInfo} (h : KeepsRates info info') (hb : InBounds info) :
  InBounds info' := by
 have hc := h.curFrlRate
 constructor
 · rw [h.minFrlRate]
   exact hb.pos
 · rw [h.minFrlRate]
   cases hc with
   | inl hc =>
    rw [hc]
    exact hb.min_le
   | inr hc => exact hc.1
 · rw [h.maxFrlRate]
   cases hc with
   | inl hc =>
    rw [hc]
    exact hb.le_max
   | inr hc => exact hc.2
 · rw [h.maxFrlRate]
   exact hb.max_le

theorem trans {a b c : HdmiFrlInfo} (hab : KeepsRates a b) (hbc : KeepsRates b c) :
  KeepsRates a c := by
 refine ⟨fun h => hab.mode (hbc.mode h), hbc.minFrlRate.trans hab.minFrlRate,
  hbc.maxFrlRate.trans hab.maxFrlRate, ?_⟩
 have hc := hbc.curFrlRate
 rw [hab.minFrlRate, hab.maxFrlRate] at hc
 cases hc with
 | inl hc =>
  rw [hc]
  exact hab.curFrlRate
 | inr hc => exact .inr hc

theorem changeState {info info' : HdmiFrlInfo} (h : KeepsRates info info') (env : Env)
  (state : HdmiFrlTrainStep) :
  KeepsRates info (hdmiFrlStateMachineChangeState env info' state) :=
 ⟨h.mode, h.minFrlRate, h.maxFrlRate, h.curFrlRate⟩

theorem timeoutCnt (n : UInt32) : KeepsRates info (setTimeoutCnt info n) :=
 ⟨id, rfl, rfl, .inl rfl⟩

theorem exception : KeepsRates info (hdmiFrlTrainingException env info) := by
 simp only [hdmiFrlTrainingException]
 split
 · split
   · exact ⟨id, rfl, rfl, .inl rfl⟩
   · exact ⟨by simp, rfl, rfl, .inl rfl⟩
 · exact refl info

theorem getCurRate : KeepsRates info (hdmiFrlGetCurRate info).1 := by
 simp only [hdmiFrlGetCurRate]
 split
 · exact ⟨id, rfl, rfl, .inl rfl⟩
 · rename_i h
   rw [not_or, UInt8.not_lt, UInt8.not_lt] at h
   exact ⟨id, rfl, rfl, .inr ⟨h.2, h.1⟩⟩

theorem rateChange : KeepsRates info (hdmiFrlTrainingRateChange env info) := by
 have hg := getCurRate { info with ctsMode := hdmiFrlIsCtsMode env }
 have hg' : KeepsRates info (hdmiFrlGetCurRate { info with ctsMode := hdmiFrlIsCtsMode env }).1 :=
  ⟨hg.mode, hg.minFrlRate, hg.maxFrlRate, hg.curFrlRate⟩
 simp only [hdmiFrlTrainingRateChange]
 split
 · exact hg'.trans (exception env _)
 · exact hg'.changeState env _

theorem trainingResult (env : Env) (info : HdmiFrlInfo) (failed : HdmiFrlInfo → HdmiFrlInfo)
  (h : ∀ i, KeepsRates i (failed i)) : KeepsRates info (trainingResult env info failed) := by
 have hc (n : UInt32) : KeepsRates info { info with trainingFailCnt := n } :=
  ⟨id, rfl, rfl, .inl rfl⟩
 simp only [HdmiFrl.trainingResult]
 split_ifs
 · exact (hc 0).changeState env _
 · exact (hc 0).changeState env _
 · exact (hc 0).changeState env _
 · exact (hc _).trans (h _)

theorem handle : KeepsRates info (hdmiFrlTrainingStateMachineHandle env info) := by
 have hr := refl info
 have hw (b : Bool) : KeepsRates info { info with work := b } := ⟨id, rfl, rfl, .inl rfl⟩
 unfold hdmiFrlTrainingStateMachineHandle
 cases info.machineInfo.trainingState with
 | readrCheck =>
  change KeepsRates info (hdmiFrlTrainingReadyCheck env info)
  unfold hdmiFrlTrainingReadyCheck
  split
  · exact hr.changeState env _
  · exact hr
 | trainStart =>
  change KeepsRates info (hdmiFrlConfigAndStartTraining env info)
  unfold hdmiFrlConfigAndStartTraining
  split
  · exact hr.changeState env _
  · exact hr
 | resultCheck => exact trainingResult env info id refl
 | rateChange => exact rateChange env info
 | resultHandle =>
  change KeepsRates info (hdmiFrlTrainingPassedCheck env info)
  unfold hdmiFrlTrainingPassedCheck
  split
  · exact hr
  · exact (hw true).changeState env _
 | retrainCheck =>
  change KeepsRates info (hdmiFrlRetrainingCheck env info)
  unfold hdmiFrlRetrainingCheck
  split
  · exact hr
  · exact (hw false).changeState env _
 | trainStop =>
  change KeepsRates info (hdmiFrlTrainingStop env info)
  unfold hdmiFrlTrainingStop
  split
  · exact (hw false).changeState env _
  · exact hr
 | butt => exact hr

theorem handleRounds (env : Env) (info : HdmiFrlInfo) (rounds : List HandleRound) :
  KeepsRates info (handleRounds env info rounds) := by
 have hr := refl info
 have hw : KeepsRates info { info with work := true } := ⟨id, rfl, rfl, .inl rfl⟩
 induction rounds with
 | nil => exact hr
 | cons r rs ih =>
  rw [HdmiFrl.handleRounds]
  split_ifs
  · exact hw.changeState env _
  · exact hr.changeState env _
  · exact timeoutCnt info _
  · exact ih

theorem timeoutHandle : KeepsRates info (hdmiFrlTrainingStateMachineTimeoutHandle env info) := by
 have hh := handle env info
 have hr := refl info
 unfold hdmiFrlTrainingStateMachineHandle at hh
 unfold hdmiFrlTrainingStateMachineTimeoutHandle
 cases hs : info.machineInfo.trainingState with
 | readrCheck =>
  change KeepsRates info (hdmiFrlTrainingReadyCheckTimeout env info)
  simp only [hdmiFrlTrainingReadyCheckTimeout]
  split_ifs
  · exact (timeoutCnt info _).changeState env _
  · exact (timeoutCnt info _).changeState env _
  · exact hr
  · exact (timeoutCnt info _).trans (exception env _)
 | resultCheck =>
  apply trainingResult
  intro i
  split
  · refine KeepsRates.trans ?_ (exception env _)
    exact ⟨id, rfl, rfl, .inl rfl⟩
  · exact (refl i).changeState env _
 | resultHandle =>
  change KeepsRates info (hdmiFrlTrainingResultHandleTimeout env info)
  simp only [hdmiFrlTrainingResultHandleTimeout]
  split_ifs
  · exact ((handleRounds env info _).trans (timeoutCnt _ _)).trans (exception env _)
  · exact handleRounds env info _
  · exact hr
 | retrainCheck =>
  change KeepsRates info (hdmiFrlRetrainingCheckTimeout env info)
  unfold hdmiFrlRetrainingCheckTimeout
  split_ifs
  · exact hr
  · exact hr
  · exact hr
  · apply changeState
    exact ⟨id, rfl, rfl, .inl rfl⟩
 | trainStart | rateChange | trainStop | butt =>
  rw [hs] at hh
  exact hh

theorem enable (b : Bool) : KeepsRates info (hdmiFrlEnable env info b) := by
 simp only [hdmiFrlEnable]
 apply changeState
 split
 · refine KeepsRates.trans ?_ (getCurRate _)
   exact ⟨id, rfl, rfl, .inl rfl⟩
 · exact ⟨id, rfl, rfl, .inl rfl⟩

end KeepsRates

theorem rateLoop_min (formatSupport : ℕ → Bool) (n : ℕ) (m : UInt8) (hn : n ≤ 255) :
  ((rateLoop formatSupport n m).1 = n ∧ (rateLoop formatSupport n m).2 = m) ∨
   ((rateLoop formatSupport n m).1 < n ∧
    1 ≤ (rateLoop formatSupport n m).2.toNat ∧ (rateLoop formatSupport n m).2.toNat ≤ n) := by
 induction n generalizing m with
 | zero => exact .inl ⟨rfl, rfl⟩
 | succ n ih =>
  rw [rateLoop]
  split
  · right
    have hm : (UInt8.ofNat (n + 1)).toNat = n + 1 := by
     rw [UInt8.toNat_ofNat', Nat.mod_eq_of_lt (by omega)]
    cases ih (UInt8.ofNat (n + 1)) (by omega) with
    | inl ih =>
     rw [ih.1, ih.2, hm]
     omega
    | inr ih => omega
  · exact .inl ⟨rfl, rfl⟩

theorem checkFrlMode_bounds {env : Env} {info : HdmiFrlInfo} (hm : info.minFrlRate ≤ 6)
  (hx : info.maxFrlRate ≤ 6) :
  (hdnmiFrlCheckFrlMode env info).1.minFrlRate ≤ 6 ∧
   ((hdnmiFrlCheckFrlMode env info).2 = true →
    1 ≤ (hdnmiFrlCheckFrlMode env info).1.minFrlRate ∧
    (hdnmiFrlCheckFrlMode env info).1.minFrlRate ≤
     (hdnmiFrlCheckFrlMode env info).1.maxFrlRate ∧
    (hdnmiFrlCheckFrlMode env info).1.maxFrlRate ≤ 6) := by
 have hx' : info.maxFrlRate.toNat ≤ 6 := hx
 unfold hdnmiFrlCheckFrlMode
 cases env.videoInfo with
 | none => exact ⟨hm, by simp⟩
 | some formatType =>
  simp only [hdmiFrlWorkMode4L12G, UInt8.not_lt.mpr hx, if_false]
  split
  · exact ⟨hm, by simp⟩
  · have hl := rateLoop_min env.formatSupport info.maxFrlRate.toNat info.minFrlRate (by omega)
    cases hl with
    | inl hl => simp [hl, hm]
    | inr hl =>
     have hp : (1 : UInt8) ≤ (rateLoop env.formatSupport info.maxFrlRate.toNat info.minFrlRate).2 :=
      UInt8.le_iff_toNat_le.mpr hl.2.1
     have hle : (rateLoop env.formatSupport info.maxFrlRate.toNat info.minFrlRate).2 ≤
       info.maxFrlRate := UInt8.le_iff_toNat_le.mpr hl.2.2
     exact ⟨UInt8.le_trans hle hx, fun _ => ⟨hp, hle, hx⟩⟩

theorem checkFrlCapability_max (h : (hdmiFrlCheckFrlCapability env info).2 = .success) :
  (hdmiFrlCheckFrlCapability env info).1.maxFrlRate ≤ 6 ↔
   ¬ (hdmiFrlWorkMode4L12G.toUInt32 < env.capMaxFrlRate ∧
    hdmiFrlWorkMode4L12G < env.edidMaxFrlRate) := by
 unfold hdmiFrlCheckFrlCapability at h ⊢
 split at h
 · cases h
 · rename_i hc
   simp only [hc, if_false, hdmiFrlWorkMode4L12G, UInt8.le_iff_toNat_le, UInt8.lt_iff_toNat_lt,
    UInt32.lt_iff_toNat_lt, UInt8.toNat_toUInt32]
   have he := env.edidMaxFrlRate.toNat_lt
   have h6 : UInt8.toNat 6 = 6 := rfl
   split
   · rw [UInt32.toNat_toUInt8, Nat.mod_eq_of_lt (by omega)]
     omega
   · omega

theorem checkFrlCapability_success : (hdmiFrlCheckFrlCapability env info).2 = .success ↔
   env.edidSupportFrl ∧ env.hdmi21 ∧ env.frl ∧ env.sinkVersion ≠ 0 := by
 unfold hdmiFrlCheckFrlCapability
 split
 · rename_i h
   simp only [reduceCtorEq, false_iff]
   grind
 · rename_i h
   simp only [true_iff]
   grind

theorem selectedMode_exceeds {env : Env} {info : HdmiFrlInfo} (h : ExceedsMax env info) :
  (selectedMode env info).mode = .frl ∧ (selectedMode env info).maxFrlRate = 6 ∧
   (selectedMode env info).minFrlRate = info.minFrlRate := by
 obtain ⟨he, h21, hf, hv, ⟨formatType, hvi, hst⟩, hmax⟩ := h
 have hs := (checkFrlCapability_success env info).mpr ⟨he, h21, hf, hv⟩
 have hx : 6 < (hdmiFrlCheckFrlCapability env info).1.maxFrlRate :=
  UInt8.not_le.mp fun hle => (checkFrlCapability_max env info hs).mp hle hmax
 have hi : (hdmiFrlCheckFrlCapability env info).1.strategy = info.strategy ∧
   (hdmiFrlCheckFrlCapability env info).1.minFrlRate = info.minFrlRate := by
  unfold hdmiFrlCheckFrlCapability
  split <;> exact ⟨rfl, rfl⟩
 have hc : hdnmiFrlCheckFrlMode env (hdmiFrlCheckFrlCapability env info).1 =
   ({ (hdmiFrlCheckFrlCapability env info).1 with
    tmdsClock := env.tmdsClock, maxFrlRate := 6 }, true) := by
  unfold hdnmiFrlCheckFrlMode
  simp [hvi, hi.1, hst, hdmiFrlWorkMode4L12G, hx]
 simp [selectedMode, hs, hc, hi.2]

theorem selectedMode_bounds {env : Env} {info : HdmiFrlInfo} (hm : info.minFrlRate ≤ 6)
  (h : ¬ ExceedsMax env info) :
  (selectedMode env info).minFrlRate ≤ 6 ∧ ((selectedMode env info).mode = .frl →
   1 ≤ (selectedMode env info).minFrlRate ∧
   (selectedMode env info).minFrlRate ≤ (selectedMode env info).maxFrlRate ∧
   (selectedMode env info).maxFrlRate ≤ 6) := by
 have hi : (hdmiFrlCheckFrlCapability env info).1.strategy = info.strategy ∧
   (hdmiFrlCheckFrlCapability env info).1.minFrlRate = info.minFrlRate := by
  unfold hdmiFrlCheckFrlCapability
  split <;> exact ⟨rfl, rfl⟩
 rw [← hi.2] at hm
 simp only [selectedMode]
 split
 · exact ⟨hm, by simp⟩
 rename_i hs
 have hs := not_not.mp hs
 by_cases hx : (hdmiFrlCheckFrlCapability env info).1.maxFrlRate ≤ 6
 · have hb := @checkFrlMode_bounds env _ hm hx
   refine ⟨hb.1, fun hmode => hb.2 ?_⟩
   by_contra hf
   simp [hf] at hmode
 -- the strategy or the video is then against a fixed rate
 have hmax := not_not.mp (mt (checkFrlCapability_max env info hs).mpr hx)
 obtain ⟨he, h21, hf, hv⟩ := (checkFrlCapability_success env info).mp hs
 have hno : ¬ ∃ formatType, env.videoInfo = some formatType ∧
   hdmiFrlCheckFrlStrategy info.strategy env.pixelClock env.tmdsClock formatType :=
  fun hst => h ⟨he, h21, hf, hv, hst, hmax⟩
 rw [← hi.1] at hno
 generalize (hdmiFrlCheckFrlCapability env info).1 = capable at hm hno ⊢
 unfold hdnmiFrlCheckFrlMode
 cases hvi : env.videoInfo with
 | none => exact ⟨hm, by simp⟩
 | some formatType =>
  have hst : hdmiFrlCheckFrlStrategy capable.strategy env.pixelClock env.tmdsClock formatType =
    false := by
   by_contra hst
   exact hno ⟨formatType, hvi, by simpa using hst⟩
  simp [hst, hm]

theorem modeSelect_fields : (hdmiFrlModeSelect env info).1.mode = (selectedMode env info).mode ∧
   (hdmiFrlModeSelect env info).1.minFrlRate = (selectedMode env info).minFrlRate ∧
   (hdmiFrlModeSelect env info).1.maxFrlRate = (selectedMode env info).maxFrlRate := by
 simp only [hdmiFrlModeSelect]
 split_ifs <;> exact ⟨rfl, rfl, rfl⟩

theorem modeSelect_inBounds {env : Env} {info : HdmiFrlInfo}
  (hf : (selectedMode env info).mode = .frl) (hp : 1 ≤ (selectedMode env info).minFrlRate)
  (hle : (selectedMode env info).minFrlRate ≤ (selectedMode env info).maxFrlRate)
  (hx : (selectedMode env info).maxFrlRate ≤ 6) : InBounds (hdmiFrlModeSelect env info).1 := by
 have ht : ¬ (selectedMode env info).mode = .tmds := by simp [hf]
 simp only [hdmiFrlModeSelect, ht, if_false]
 split
 · exact ⟨hp, hle, UInt8.le_refl _, hx⟩
 · exact ⟨hp, UInt8.le_refl _, hle, hx⟩

structure Inv (info : HdmiFrlInfo) : Prop where
 min_le : info.minFrlRate ≤ 6
 bounds : info.mode = .frl → InBounds info

theorem rateChange_cases {info : HdmiFrlInfo} (hf : info.mode = .frl) (h : InBounds info)
  (env : Env) : TrainsAgain env info ∨ FellBack env info := by
 have hk := (KeepsRates.rateChange env info).inBounds h
 have hm : (hdmiFrlGetCurRate { info with ctsMode := hdmiFrlIsCtsMode env }).1.mode = .frl := by
  simp only [hdmiFrlGetCurRate]
  split <;> exact hf
 cases hg : hdmiFrlGetCurRate { info with ctsMode := hdmiFrlIsCtsMode env } with
 | mk got status =>
  rw [hg] at hm
  by_cases hs : status = .success
  · refine .inl ⟨hk, ?_⟩
    have hr : hdmiFrlTrainingRateChange env info =
      hdmiFrlStateMachineChangeState env got .trainStart := by
     simp [hdmiFrlTrainingRateChange, hg, hs]
    rw [hr]
    exact ⟨hm, rfl⟩
  refine .inr ⟨got, ?_, by simp [hdmiFrlTrainingRateChange, hg, hs]⟩
  rw [hg]
  simp only [hdmiFrlGetCurRate] at hg
  split at hg
  · rw [← (Prod.mk.inj hg).2]
  · exact absurd (Prod.mk.inj hg).2.symm hs

theorem Inv.ratesKept {info : HdmiFrlInfo} (h : Inv info) : RatesKept info :=
 fun hf => ⟨h.bounds hf, rateChange_cases hf (h.bounds hf)⟩

theorem Inv.of_keepsRates {info info' : HdmiFrlInfo} (h : Inv info) (hk : KeepsRates info info') :
  Inv info' :=
 ⟨by rw [hk.minFrlRate]; exact h.min_le, fun hf => hk.inBounds (h.bounds (hk.mode hf))⟩

theorem Inv.modeSelect {env : Env} {info : HdmiFrlInfo} (h : Inv info)
  (hq : ExceedsMax env info → info.minFrlRate ≠ 0) : Inv (hdmiFrlModeSelect env info).1 := by
 obtain ⟨hmode, hmin, -⟩ := modeSelect_fields env info
 by_cases hx : ExceedsMax env info
 · obtain ⟨hf, h6, hm⟩ := selectedMode_exceeds hx
   refine ⟨by rw [hmin, hm]; exact h.min_le, fun _ => modeSelect_inBounds hf ?_ ?_ ?_⟩
   · rw [hm]
     exact UInt8.pos_iff_ne_zero.mpr (hq hx)
   · rw [hm, h6]
     exact h.min_le
   · rw [h6]
     exact UInt8.le_refl _
 · obtain ⟨hle, hb⟩ := selectedMode_bounds h.min_le hx
   refine ⟨by rw [hmin]; exact hle, fun hf => ?_⟩
   rw [hmode] at hf
   obtain ⟨hp, hl, h6⟩ := hb hf
   exact modeSelect_inBounds hf hp hl h6

theorem Inv.frlStep {info : HdmiFrlInfo} {call : FrlCall} (h : Inv info) (hq : HasMin info call) :
  Inv (frlStep info call) := by
 cases call with
 | modeSelect env => exact h.modeSelect hq
 | enable env b => exact h.of_keepsRates (.enable env info b)
 | handle env => exact h.of_keepsRates (.handle env info)
 | timeoutHandle env => exact h.of_keepsRates (.timeoutHandle env info)

theorem hasMin_of_ratesKept {info : HdmiFrlInfo} {call : FrlCall}
  (h : RatesKept (frlStep info call)) : HasMin info call := by
 cases call with
 | modeSelect env =>
  intro hx hz
  obtain ⟨hf, -, hm⟩ := selectedMode_exceeds hx
  obtain ⟨hmode, hmin, -⟩ := modeSelect_fields env info
  have hp : 1 ≤ (hdmiFrlModeSelect env info).1.minFrlRate := (h (hmode.trans hf)).1.pos
  rw [hmin, hm, hz] at hp
  exact absurd hp (by decide)
 | enable env b => trivial
 | handle env => trivial
 | timeoutHandle env => trivial

/-- The information as it is allocated, with the preferences and times a driver may give it -/
def freshInfo (strategy : HdmiFrlStrategyMode) (rateSelect : HdmiFrlRateSelect)
  (machineInfo : HdmiFrlStateMachineInfo) (trainingMaxFailTimes : UInt32) : HdmiFrlInfo where
 strategy := strategy
 rateSelect := rateSelect
 machineInfo := machineInfo
 trainingMaxFailTimes := trainingMaxFailTimes

theorem ratesKept_iff_hasMin (strategy : HdmiFrlStrategyMode) (rateSelect : HdmiFrlRateSelect)
    (machineInfo : HdmiFrlStateMachineInfo) (trainingMaxFailTimes : UInt32) (calls : List FrlCall) :
    RunRules.Safe (fun info call => some (frlStep info call)) RatesKept
        (freshInfo strategy rateSelect machineInfo trainingMaxFailTimes) calls ↔
      RunRules.Along (fun info call => some (frlStep info call)) HasMin
        (freshInfo strategy rateSelect machineInfo trainingMaxFailTimes) calls := by
  apply RunRules.safe_iff_along_of (J := Inv) (A := fun _ => True)
  · intro info h
    exact h.ratesKept
  · intro info call h hq
    exact ⟨_, rfl, h.frlStep hq⟩
  · rintro info call - - ⟨t, ht, hi⟩
    cases ht
    exact hasMin_of_ratesKept hi
  · exact ⟨UInt8.zero_le, by simp [freshInfo]⟩
  · intro call _
    trivial

/-- A sink and a controller that both announce the rate 7, for a video of 1.2 GHz -/
def exceedingEnv : Env where
 hasOps := true
 hdmi21 := true
 frl := true
 capMaxFrlRate := 7
 pixelClock := 1200000
 tmdsClock := 1200000
 edidSupportFrl := true
 edidMaxFrlRate := 7
 videoInfo := some .progressive
 formatSupport := fun _ => true
 sinkVersion := 1
 testConfig1 := 0
 fltReady := true
 fltUpdate := false
 frlStart := false
 trainRslt := {}
 curTime := 0
 restartTime := 0
 rounds := []

theorem exceedingEnv_out_of_bounds :
    (hdmiFrlModeSelect exceedingEnv (freshInfo .mode1 .little {} 0)).2 = .success ∧
      ¬ RunRules.Safe (fun info call => some (frlStep info call)) RatesKept
        (freshInfo .mode1 .little {} 0) [.modeSelect exceedingEnv] := by
  refine ⟨by decide, fun h => ?_⟩
  obtain ⟨info, hr, hk⟩ := h [.modeSelect exceedingEnv] (List.prefix_refl _)
  cases hr
  have hp := (hk (by decide)).1.pos
  exact absurd hp (by decide)

end DriversFramework.HdmiFrl
