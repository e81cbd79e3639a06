import DriversFramework.HdmiFrl

namespace DriversFramework.HdmiFrl

def hdmiFrlphyConfigSetOutput (env : Env) : List Bool := if env.hasOps then [false, true] else []

def hdmiFrlTrainingExceptionOutput (env : Env) : List Bool :=
 if env.hasOps then
  if hdmiHdmi20MaxTmdsRate < env.tmdsClock then [false] else [false, true]
 else []

def hdmiFrlTrainingReadyCheckOutput (env : Env) : List Bool :=
 if env.fltReady then hdmiFrlphyConfigSetOutput env else []

def hdmiFrlTrainingRateChangeOutput (env : Env) (info : HdmiFrlInfo) : List Bool :=
 if (hdmiFrlGetCurRate { info with ctsMode := hdmiFrlIsCtsMode env }).2 ≠ .success then
  hdmiFrlTrainingExceptionOutput env
 else hdmiFrlphyConfigSetOutput env

def hdmiFrlTrainingPassedCheckOutput (env : Env) (info : HdmiFrlInfo) : List Bool :=
 if env.hasOps = false ∨ info.start = false ∨ env.frlStart = false then [] else [true]

def hdmiFrlRetrainingCheckOutput (env : Env) : List Bool :=
 if env.hasOps = false ∨ env.fltUpdate = false then [] else [false]

def hdmiFrlTrainingStopOutput (env : Env) : List Bool := if env.hasOps then [false] else []

def hdmiFrlTrainingStateMachineHandleOutput (env : Env) (info : HdmiFrlInfo) : List Bool :=
 match info.machineInfo.trainingState with
 | .readrCheck => hdmiFrlTrainingReadyCheckOutput env
 | .rateChange => hdmiFrlTrainingRateChangeOutput env info
 | .resultHandle => hdmiFrlTrainingPassedCheckOutput env info
 | .retrainCheck => hdmiFrlRetrainingCheckOutput env
 | .trainStop => hdmiFrlTrainingStopOutput env
 | .trainStart | .resultCheck | .butt => []

def hdmiFrlTrainingReadyCheckTimeoutOutput (env : Env) (info : HdmiFrlInfo) : List Bool :=
 let machine := info.machineInfo
 if machine.waitReadyTime.toUInt64 < env.curTime - machine.startTime then
  if env.fltReady then hdmiFrlphyConfigSetOutput env else []
 else if machine.timeoutCnt < 10 then []
 else hdmiFrlTrainingExceptionOutput env

def hdmiFrlTrainingResultCheckTimeoutOutput (env : Env) (info : HdmiFrlInfo) : List Bool :=
 if env.trainRslt.status = .succ ∨ env.trainRslt.failReason = .ffeChange ∨
   env.trainRslt.failReason = .rateChange then []
 else if info.trainingMaxFailTimes < info.trainingFailCnt + 1 then
  hdmiFrlTrainingExceptionOutput env
 else []

def handleRoundsOutput (info : HdmiFrlInfo) : List HandleRound → List Bool
 | [] => []
 | r :: rs =>
  if r.frlStart ∧ info.start then [true]
  else if r.frlStart = false ∧ r.fltUpdate then []
  else if info.machineInfo.waitHandleTime.toUInt64 < r.curTime - info.machineInfo.startTime then
   []
  else handleRoundsOutput info rs

def hdmiFrlTrainingResultHandleTimeoutOutput (env : Env) (info : HdmiFrlInfo) : List Bool :=
 if env.hasOps then
  handleRoundsOutput info env.rounds ++
   if 3 ≤ (handleRounds env info env.rounds).machineInfo.timeoutCnt then
    hdmiFrlTrainingExceptionOutput env
   else []
 else []

def acceptsLate (env : Env) (info : HdmiFrlInfo) : Bool :=
 env.hasOps && decide (info.machineInfo.waitRetrainTime.toUInt64 <
  env.curTime - info.machineInfo.startTime) && env.fltUpdate

def hdmiFrlRetrainingCheckTimeoutOutput (env : Env) (info : HdmiFrlInfo) : List Bool :=
 if acceptsLate env info then [true] else []

def hdmiFrlTrainingStateMachineTimeoutHandleOutput (env : Env) (info : HdmiFrlInfo) : List Bool :=
 match info.machineInfo.trainingState with
 | .readrCheck => hdmiFrlTrainingReadyCheckTimeoutOutput env info
 | .resultCheck => hdmiFrlTrainingResultCheckTimeoutOutput env info
 | .rateChange => hdmiFrlTrainingRateChangeOutput env info
 | .resultHandle => hdmiFrlTrainingResultHandleTimeoutOutput env info
 | .retrainCheck => hdmiFrlRetrainingCheckTimeoutOutput env info
 | .trainStop => hdmiFrlTrainingStopOutput env
 | .trainStart | .butt => []

inductive TrainingCall where
 | handle (env : Env)
 | timeoutHandle (env : Env)

def TrainingCall.env : TrainingCall → Env
 | .handle env | .timeoutHandle env => env

def TrainingCall.next (info : HdmiFrlInfo) : TrainingCall → HdmiFrlInfo
 | .handle env => frlStep info (.handle env)
 | .timeoutHandle env => frlStep info (.timeoutHandle env)

def TrainingCall.output (info : HdmiFrlInfo) : TrainingCall → List Bool
 | .handle env => hdmiFrlTrainingStateMachineHandleOutput env info
 | .timeoutHandle env => hdmiFrlTrainingStateMachineTimeoutHandleOutput env info

def TrainingCall.late (info : HdmiFrlInfo) : TrainingCall → Bool
 | .handle _ => false
 | .timeoutHandle env => acceptsLate env info

/-- The last switch of the output (none at first), and whether the sink has asked for a training
after one was passed -/
structure Link where
 info : HdmiFrlInfo
 output : Option Bool
 requested : Bool

abbrev HdmiFrlInfo.state (info : HdmiFrlInfo) : HdmiFrlTrainStep := info.machineInfo.trainingState

/-- `canSwitch`: the controller has the method. -/
def Link.step (canSwitch : Bool) (l : Link) (call : TrainingCall) : Link :=
 { info := call.next l.info
   output := if canSwitch then (call.output l.info).getLast?.or l.output else l.output
   requested := l.requested ||
    decide (l.info.state = .retrainCheck ∧ (call.next l.info).state = .trainStart) }

def Link.Quiet (canSwitch : Bool) (l : Link) : Prop :=
 l.info.work = false ∧ (canSwitch = true → l.output = some false)

def InTraining (state : HdmiFrlTrainStep) : Prop :=
 state = .readrCheck ∨ state = .trainStart ∨ state = .resultCheck ∨ state = .rateChange

/-- What is claimed of each state -/
def WorkingRight (canSwitch : Bool) (l : Link) : Prop :=
 l.requested = true → InTraining l.info.state → l.Quiet canSwitch

/-- The steps that neither take up a request in the timeout handler nor, after a request, configure
the output for another rate -/
def StaysQuiet (canSwitch : Bool) (l : Link) (call : TrainingCall) : Prop :=
 ¬(l.info.state = .retrainCheck ∧ call.late l.info = true) ∧
  ¬(canSwitch = true ∧ l.requested = true ∧ l.info.state = .rateChange ∧
   call.env.hasOps = true ∧
   (hdmiFrlGetCurRate { l.info with ctsMode := hdmiFrlIsCtsMode call.env }).2 = .success)

def Settled (state : HdmiFrlTrainStep) : Prop :=
 state = .retrainCheck ∨ state = .trainStop ∨ state = .butt

def Unmoved (info info' : HdmiFrlInfo) (output : List Bool) : Prop :=
 info'.state ≠ .readrCheck ∧
  (Settled info'.state ∨ (info'.work = info.work ∧ output = []))

section steps
variable {env : Env} {info : HdmiFrlInfo}

theorem changeState_state (state : HdmiFrlTrainStep) :
  (hdmiFrlStateMachineChangeState env info state).state = state := rfl

theorem exception_unmoved (info' : HdmiFrlInfo) (there : info'.state ≠ .readrCheck)
  (work : info'.work = info.work) :
  Unmoved info (hdmiFrlTrainingException env info') (hdmiFrlTrainingExceptionOutput env) := by
 rw [hdmiFrlTrainingException, hdmiFrlTrainingExceptionOutput]
 by_cases ops : env.hasOps = true
 · rw [if_pos ops, if_pos ops]
   have stopped : (if hdmiHdmi20MaxTmdsRate < env.tmdsClock then
     { hdmiFrlStateMachineChangeState env info' .trainStop with start := false }
     else { hdmiFrlStateMachineChangeState env info' .trainStop with
      start := false, mode := .tmds } : HdmiFrlInfo).state = .trainStop := by
    split <;> rfl
   exact ⟨by rw [stopped]; simp, .inl (.inr (.inl stopped))⟩
 · rw [if_neg ops, if_neg ops]
   exact ⟨there, .inr ⟨work, rfl⟩⟩

theorem changeState_unmoved (info' : HdmiFrlInfo) (work : info'.work = info.work)
  (state : HdmiFrlTrainStep) (there : state ≠ .readrCheck) :
  Unmoved info (hdmiFrlStateMachineChangeState env info' state) [] :=
 ⟨there, .inr ⟨work, rfl⟩⟩

theorem trainingResult_unmoved (env : Env) (failed : HdmiFrlInfo → HdmiFrlInfo)
  (output : List Bool)
  (rest : Unmoved info (failed { info with trainingFailCnt := info.trainingFailCnt + 1 }) output) :
  Unmoved info (trainingResult env info failed)
   (if env.trainRslt.status = .succ ∨ env.trainRslt.failReason = .ffeChange ∨
    env.trainRslt.failReason = .rateChange then [] else output) := by
 rw [trainingResult]
 by_cases succ : env.trainRslt.status = .succ
 · rw [if_pos succ, if_pos (.inl succ)]
   exact changeState_unmoved _ rfl _ (by decide)
 rw [if_neg succ]
 by_cases ffe : env.trainRslt.failReason = .ffeChange
 · rw [if_pos ffe, if_pos (.inr (.inl ffe))]
   exact changeState_unmoved _ rfl _ (by decide)
 rw [if_neg ffe]
 by_cases rate : env.trainRslt.failReason = .rateChange
 · rw [if_pos rate, if_pos (.inr (.inr rate))]
   exact changeState_unmoved _ rfl _ (by decide)
 rw [if_neg rate, if_neg (by simp [succ, ffe, rate])]
 exact rest

theorem handleRounds_unmoved (at_ : info.state = .resultHandle) (rounds : List HandleRound) :
  Unmoved info (handleRounds env info rounds) (handleRoundsOutput info rounds) := by
 induction rounds with
 | nil => exact ⟨by rw [handleRounds, at_]; decide, .inr ⟨rfl, rfl⟩⟩
 | cons r rs ih =>
  rw [handleRounds, handleRoundsOutput]
  split_ifs
  · exact ⟨by rw [changeState_state]; decide, .inl (.inl rfl)⟩
  · exact changeState_unmoved _ rfl _ (by decide)
  · refine ⟨?_, .inr ⟨rfl, rfl⟩⟩
    change info.state ≠ _
    rw [at_]
    decide
  · exact ih

theorem resultHandleTimeout_unmoved (at_ : info.state = .resultHandle) :
  Unmoved info (hdmiFrlTrainingResultHandleTimeout env info)
   (hdmiFrlTrainingResultHandleTimeoutOutput env info) := by
 rw [hdmiFrlTrainingResultHandleTimeout, hdmiFrlTrainingResultHandleTimeoutOutput]
 by_cases ops : env.hasOps = true
 · obtain ⟨there, rounds⟩ := handleRounds_unmoved at_ env.rounds
   rw [if_pos ops, if_pos ops]
   dsimp only
   by_cases many : 3 ≤ (handleRounds env info env.rounds).machineInfo.timeoutCnt
   · rw [if_pos many, if_pos many]
     -- after three timeouts the training stops, whatever the rounds did
     have stopped : (hdmiFrlTrainingException env
       (setTimeoutCnt (handleRounds env info env.rounds) 0)).state = .trainStop := by
      rw [hdmiFrlTrainingException, if_pos ops]
      dsimp only
      split <;> rfl
     exact ⟨by rw [stopped]; decide, .inl (.inr (.inl stopped))⟩
   · rw [if_neg many, if_neg many, List.append_nil]
     exact ⟨there, rounds⟩
 · rw [if_neg ops, if_neg ops]
   exact ⟨by rw [at_]; decide, .inr ⟨rfl, rfl⟩⟩

theorem rateChange_unmoved (at_ : info.state = .rateChange)
  (refused : (hdmiFrlGetCurRate { info with ctsMode := hdmiFrlIsCtsMode env }).2 ≠ .success) :
  Unmoved info (hdmiFrlTrainingRateChange env info) (hdmiFrlTrainingRateChangeOutput env info) := by
 rw [hdmiFrlTrainingRateChange, hdmiFrlTrainingRateChangeOutput]
 rw [if_pos refused, if_pos refused]
 have kept : (hdmiFrlGetCurRate { info with ctsMode := hdmiFrlIsCtsMode env }).1.state =
    info.state ∧
   (hdmiFrlGetCurRate { info with ctsMode := hdmiFrlIsCtsMode env }).1.work = info.work := by
  rw [hdmiFrlGetCurRate]
  dsimp only
  split <;> exact ⟨rfl, rfl⟩
 exact exception_unmoved _ (by rw [kept.1, at_]; decide) kept.2

theorem rateChange_switches (call : TrainingCall) (at_ : info.state = .rateChange)
  (found : (hdmiFrlGetCurRate { info with ctsMode := hdmiFrlIsCtsMode call.env }).2 = .success) :
  (call.next info).state = .trainStart ∧ (call.next info).work = info.work ∧
   call.output info = if call.env.hasOps then [false, true] else [] := by
 have next : call.next info = hdmiFrlTrainingRateChange call.env info := by
  cases call
  all_goals
   simp only [TrainingCall.next, frlStep, hdmiFrlTrainingStateMachineHandle,
    hdmiFrlTrainingStateMachineTimeoutHandle, at_]
   rfl
 have output : call.output info = hdmiFrlTrainingRateChangeOutput call.env info := by
  cases call
  all_goals
   simp only [TrainingCall.output, hdmiFrlTrainingStateMachineHandleOutput,
    hdmiFrlTrainingStateMachineTimeoutHandleOutput, at_]
   rfl
 rw [next, output, hdmiFrlTrainingRateChange, hdmiFrlTrainingRateChangeOutput]
 rw [if_neg (not_not.mpr found), if_neg (not_not.mpr found)]
 refine ⟨rfl, ?_, rfl⟩
 rw [hdmiFrlGetCurRate]
 dsimp only
 split <;> rfl

theorem handle_unmoved (env : Env) (started : info.state ≠ .readrCheck)
  (passed : info.state ≠ .retrainCheck) (kept : info.state = .rateChange →
   (hdmiFrlGetCurRate { info with ctsMode := hdmiFrlIsCtsMode env }).2 ≠ .success) :
  Unmoved info (hdmiFrlTrainingStateMachineHandle env info)
   (hdmiFrlTrainingStateMachineHandleOutput env info) := by
 rw [hdmiFrlTrainingStateMachineHandle, hdmiFrlTrainingStateMachineHandleOutput]
 cases at_ : info.machineInfo.trainingState with
 | readrCheck => exact absurd at_ started
 | trainStart =>
  change Unmoved info (hdmiFrlConfigAndStartTraining env info) []
  rw [hdmiFrlConfigAndStartTraining]
  split
  · exact changeState_unmoved _ rfl _ (by decide)
  · exact ⟨started, .inr ⟨rfl, rfl⟩⟩
 | resultCheck =>
  have result := trainingResult_unmoved env id [] ⟨started, .inr ⟨rfl, rfl⟩⟩
  rw [ite_self] at result
  exact result
 | rateChange => exact rateChange_unmoved at_ (kept at_)
 | resultHandle =>
  change Unmoved info (hdmiFrlTrainingPassedCheck env info)
   (hdmiFrlTrainingPassedCheckOutput env info)
  rw [hdmiFrlTrainingPassedCheck, hdmiFrlTrainingPassedCheckOutput]
  split
  · exact ⟨started, .inr ⟨rfl, rfl⟩⟩
  · exact ⟨by rw [changeState_state]; decide, .inl (.inl rfl)⟩
 | retrainCheck => exact absurd at_ passed
 | trainStop =>
  change Unmoved info (hdmiFrlTrainingStop env info) (hdmiFrlTrainingStopOutput env)
  rw [hdmiFrlTrainingStop, hdmiFrlTrainingStopOutput]
  split
  · exact ⟨by rw [changeState_state]; decide, .inl (.inr (.inr rfl))⟩
  · exact ⟨started, .inr ⟨rfl, rfl⟩⟩
 | butt => exact ⟨started, .inr ⟨rfl, rfl⟩⟩

theorem timeoutHandle_unmoved (env : Env) (started : info.state ≠ .readrCheck)
  (passed : info.state ≠ .retrainCheck) (kept : info.state = .rateChange →
   (hdmiFrlGetCurRate { info with ctsMode := hdmiFrlIsCtsMode env }).2 ≠ .success) :
  Unmoved info (hdmiFrlTrainingStateMachineTimeoutHandle env info)
   (hdmiFrlTrainingStateMachineTimeoutHandleOutput env info) := by
 have same := handle_unmoved env started passed kept
 rw [hdmiFrlTrainingStateMachineHandle, hdmiFrlTrainingStateMachineHandleOutput] at same
 rw [hdmiFrlTrainingStateMachineTimeoutHandle, hdmiFrlTrainingStateMachineTimeoutHandleOutput]
 cases at_ : info.machineInfo.trainingState with
 | readrCheck => exact absurd at_ started
 | resultCheck =>
  refine trainingResult_unmoved env _ _ ?_
  split
  · exact exception_unmoved _ started rfl
  · exact changeState_unmoved _ rfl _ (by decide)
 | resultHandle => exact resultHandleTimeout_unmoved at_
 | retrainCheck => exact absurd at_ passed
 | trainStart | rateChange | trainStop | butt =>
  rw [at_] at same
  exact same

theorem next_unmoved (call : TrainingCall) (started : info.state ≠ .readrCheck)
  (passed : info.state ≠ .retrainCheck) (kept : info.state = .rateChange →
   (hdmiFrlGetCurRate { info with ctsMode := hdmiFrlIsCtsMode call.env }).2 ≠ .success) :
  Unmoved info (call.next info) (call.output info) := by
 cases call with
 | handle env => exact handle_unmoved env started passed kept
 | timeoutHandle env => exact timeoutHandle_unmoved env started passed kept

theorem stopped_next (call : TrainingCall) (stopped : info.state = .trainStop ∨ info.state = .butt) :
  (call.next info).state = .trainStop ∨ (call.next info).state = .butt := by
 have stop (env : Env) (at_ : info.state = .trainStop) :
   (hdmiFrlTrainingStop env info).state = .trainStop ∨
    (hdmiFrlTrainingStop env info).state = .butt := by
  rw [hdmiFrlTrainingStop]
  split
  · exact .inr rfl
  · exact .inl at_
 rcases stopped with at_ | at_
 all_goals
  cases call
  all_goals
   simp only [TrainingCall.next, frlStep, hdmiFrlTrainingStateMachineHandle,
    hdmiFrlTrainingStateMachineTimeoutHandle, at_]
 · exact stop _ at_
 · exact stop _ at_
 · exact .inr trivial
 · exact .inr trivial

theorem retrainingCheckTimeout_eq (env : Env) (info : HdmiFrlInfo) :
  hdmiFrlRetrainingCheckTimeout env info = if acceptsLate env info then
   hdmiFrlStateMachineChangeState env { info with work := true } .trainStart else info := by
 rw [hdmiFrlRetrainingCheckTimeout]
 cases ops : env.hasOps
 · simp [acceptsLate, ops]
 cases update : env.fltUpdate
 · simp [acceptsLate, update]
 by_cases late : info.machineInfo.waitRetrainTime.toUInt64 <
   env.curTime - info.machineInfo.startTime
 · rw [if_neg (by simp), if_neg (UInt64.not_le.mpr late), if_neg (by simp),
    if_pos (by simp [acceptsLate, ops, late, update])]
 · rw [if_neg (by simp), if_pos (UInt64.not_lt.mp late),
    if_neg (by simp [acceptsLate, late])]

theorem retrain_next (call : TrainingCall) (at_ : info.state = .retrainCheck) :
  (call.next info = info ∧ call.late info = false) ∨
   (call.next info).state = .trainStart ∧
    (call.next info).work = call.late info ∧
    call.output info = [(call.next info).work] := by
 cases call with
 | handle env =>
  have next : (TrainingCall.handle env).next info = hdmiFrlRetrainingCheck env info := by
   simp only [TrainingCall.next, frlStep, hdmiFrlTrainingStateMachineHandle, at_]
  have output : (TrainingCall.handle env).output info = hdmiFrlRetrainingCheckOutput env := by
   simp only [TrainingCall.output, hdmiFrlTrainingStateMachineHandleOutput, at_]
  rw [next, output, hdmiFrlRetrainingCheck, hdmiFrlRetrainingCheckOutput]
  split
  · exact .inl ⟨rfl, rfl⟩
  · exact .inr ⟨rfl, rfl, rfl⟩
 | timeoutHandle env =>
  have next : (TrainingCall.timeoutHandle env).next info =
    hdmiFrlRetrainingCheckTimeout env info := by
   simp only [TrainingCall.next, frlStep, hdmiFrlTrainingStateMachineTimeoutHandle, at_]
  have output : (TrainingCall.timeoutHandle env).output info =
    hdmiFrlRetrainingCheckTimeoutOutput env info := by
   simp only [TrainingCall.output, hdmiFrlTrainingStateMachineTimeoutHandleOutput, at_]
  rw [next, output, retrainingCheckTimeout_eq, hdmiFrlRetrainingCheckTimeoutOutput]
  split
  · next late => exact .inr ⟨rfl, late.symm, rfl⟩
  · next early => exact .inl ⟨rfl, Bool.eq_false_iff.mpr early⟩

end steps

/-- After a request the machine is out of the training, or the link is quiet. -/
def Kept (canSwitch : Bool) (l : Link) : Prop :=
 l.requested = true →
  l.info.state ≠ .readrCheck ∧ (Settled l.info.state ∨ l.Quiet canSwitch)

section runs
variable {canSwitch : Bool} {l : Link}

theorem Kept.workingRight (kept : Kept canSwitch l) : WorkingRight canSwitch l := by
 intro requested training
 obtain ⟨-, settled | quiet⟩ := kept requested
 · rcases settled with at_ | at_ | at_
   all_goals
    rw [InTraining, at_] at training
    simp at training
 · exact quiet

theorem kept_of_settled (settled : Settled l.info.state) : Kept canSwitch l := by
 intro _
 refine ⟨?_, .inl settled⟩
 rcases settled with at_ | at_ | at_
 all_goals
  rw [at_]
  decide

theorem kept_of_quiet {call : TrainingCall} (quiet : l.Quiet canSwitch)
  (started : (call.next l.info).state ≠ .readrCheck)
  (work : (call.next l.info).work = l.info.work)
  (output : canSwitch = true → call.output l.info = []) : Kept canSwitch (l.step canSwitch call) := by
 intro _
 refine ⟨started, .inr ⟨work.trans quiet.1, fun can => ?_⟩⟩
 rw [Link.step]
 dsimp only
 rw [if_pos can, output can]
 exact quiet.2 can

theorem kept_step (call : TrainingCall) (kept : Kept canSwitch l)
  (stays : StaysQuiet canSwitch l call) : Kept canSwitch (l.step canSwitch call) := by
 intro requested'
 by_cases passed : l.info.state = .retrainCheck
 · rcases retrain_next call passed with ⟨same, -⟩ | ⟨started, work, output⟩
   · have settled : Settled (l.step canSwitch call).info.state := by
      rw [Link.step, same]
      exact .inl passed
     exact kept_of_settled settled requested'
   · have early : call.late l.info = false :=
      Bool.eq_false_iff.mpr fun late => stays.1 ⟨passed, late⟩
     rw [early] at work
     refine ⟨?_, .inr ⟨work, fun can => ?_⟩⟩
     · change (call.next l.info).state ≠ _
       rw [started]
       decide
     · rw [Link.step]
       dsimp only
       rw [if_pos can, output, work]
       rfl
 have requested : l.requested = true := by
  simpa [Link.step, passed] using requested'
 obtain ⟨started, settled | quiet⟩ := kept requested
 · have stopped := stopped_next call (settled.resolve_left passed)
   exact kept_of_settled (l := l.step canSwitch call) (.inr stopped) requested'
 by_cases found : l.info.state = .rateChange ∧
   (hdmiFrlGetCurRate { l.info with ctsMode := hdmiFrlIsCtsMode call.env }).2 = .success
 · obtain ⟨trains, work, output⟩ := rateChange_switches call found.1 found.2
   refine kept_of_quiet quiet (by rw [trains]; decide) work (fun can => ?_) requested'
   rw [output, if_neg fun ops => stays.2 ⟨can, requested, found.1, ops, found.2⟩]
 · obtain ⟨started', settled | ⟨work, output⟩⟩ :=
    next_unmoved call started passed fun at_ success => found ⟨at_, success⟩
   · exact kept_of_settled (l := l.step canSwitch call) settled requested'
   · exact kept_of_quiet quiet started' work (fun _ => output) requested'

theorem staysQuiet_of_workingRight {call : TrainingCall}
  (right : WorkingRight canSwitch (l.step canSwitch call)) : StaysQuiet canSwitch l call := by
 constructor
 · rintro ⟨passed, late⟩
   rcases retrain_next call passed with ⟨-, early⟩ | ⟨started, work, -⟩
   · rw [early] at late
     cases late
   · rw [late] at work
     have quiet := (right (by simp [Link.step, passed, started]) (.inr (.inl started))).1
     change (call.next l.info).work = false at quiet
     rw [work] at quiet
     cases quiet
 · rintro ⟨can, requested, at_, ops, found⟩
   obtain ⟨trains, -, output⟩ := rateChange_switches call at_ found
   have quiet := (right (by simp [Link.step, requested]) (.inr (.inl trains))).2 can
   rw [Link.step] at quiet
   dsimp only at quiet
   rw [if_pos can, output, if_pos ops] at quiet
   simp at quiet

end runs

/-- In every run of the two handlers, the link is quiet in every training that was requested if and
only if no request is taken up by the timeout handler and the output is not configured for another
rate in such a training. -/
theorem working_right_iff (canSwitch : Bool) (info : HdmiFrlInfo) (output : Option Bool)
    (calls : List TrainingCall) :
    RunRules.Safe (fun l call => some (Link.step canSwitch l call)) (WorkingRight canSwitch)
        ⟨info, output, false⟩ calls ↔
      RunRules.Along (fun l call => some (Link.step canSwitch l call)) (StaysQuiet canSwitch)
        ⟨info, output, false⟩ calls := by
  apply RunRules.safe_iff_along_of (J := Kept canSwitch) (A := fun _ => True)
  · intro l kept
    exact kept.workingRight
  · intro l call kept stays
    exact ⟨_, rfl, kept_step call kept stays⟩
  · rintro l call - - ⟨t, here, right⟩
    cases here
    exact staysQuiet_of_workingRight right
  · intro requested
    cases requested
  · intro call _
    trivial

def askingEnv : Env :=
 { exceedingEnv with
  fltReady := true
  fltUpdate := true
  frlStart := true
  trainRslt := ⟨.succ, .normal⟩
  curTime := 1 }

/-- The link is enabled, trained and passed, and the timeout handler takes up the request. -/
theorem late_request_works : ¬∀ canSwitch info output calls,
    RunRules.Safe (fun l call => some (Link.step canSwitch l call)) (WorkingRight canSwitch)
      ⟨info, output, false⟩ calls := by
  intro right
  obtain ⟨l, run, works⟩ := right true
    (hdmiFrlEnable askingEnv (freshInfo .mode1 .little {} 0) true) none
    [.handle askingEnv, .handle askingEnv, .handle askingEnv, .handle askingEnv,
      .timeoutHandle askingEnv] _ (List.prefix_refl _)
  cases run
  have quiet := (works (by decide) (.inr (.inl (by decide)))).1
  exact absurd quiet (by decide)

end DriversFramework.HdmiFrl
