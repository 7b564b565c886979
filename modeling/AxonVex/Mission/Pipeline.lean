import AxonVex.Core.Ports
import AxonVex.Machinery.Machine
import AxonVex.Machinery.Table
import AxonVex.Machinery.Visits
import Mathlib.Logic.Function.Basic

/-!
# Mission/Pipeline — the mission pipeline and its deferred commands

    any thread, any hook:  startPipeline  abort  restart  pause  resume  reset
                                  ↓                  ↓                     ↓
                            pendingStart_       controlPort_         pendingReset_
                                  ↓                  ↓                     ↓
    scheduler:             processAsync: reset, then start, then the control command
                           processSync:  snapshot, execute, apply

A call of the control API only leaves a command behind; the scheduler drains it.  What the scheduler
has still to do in the tick it is in is a list of statements and hook calls: each locked section of
`stateMutex_`, each atomic access and each hook call is one step, and between two of them, and while
a hook runs, any thread may take steps of its own calls.  The hook may call the control API itself.
-/

namespace AxonVex

open Machinery

inductive PipelineStatus
  | idle
  | executing
  | paused
  | finished
  | aborted
  | failed
  deriving DecidableEq, Repr

/-- `static_cast<int>`. -/
def PipelineStatus.toInt : PipelineStatus → ℤ
  | idle => 0
  | executing => 1
  | paused => 2
  | finished => 3
  | aborted => 4
  | failed => 5

inductive TransitionResult
  | awaiting
  | default
  | option1
  | option2
  | option3
  | failed
  deriving DecidableEq, Repr

/-- A `MissionElement*`: an address, and the name that the element there has. -/
structure MissionElement where
  address : ℕ
  name : String
  deriving DecidableEq, Repr

namespace MissionPipeline

/-! ## The graph -/

structure Transition where
  targetName : String
  condition : TransitionResult
  deriving DecidableEq, Repr

structure Graph where
  elements_ : Table String MissionElement := ∅
  transitions_ : Table String (List Transition) := ∅
  startElementName_ : String := ""

namespace Graph

variable (g : Graph)

def addElement (element : MissionElement) : Graph :=
  { g with
    elements_ := g.elements_.insert element.name element
    startElementName_ :=
      if g.startElementName_ = "" then element.name else g.startElementName_ }

def addConditionalTransition (source target : String) (condition : TransitionResult) : Graph :=
  let targets := (g.transitions_.lookup source).getD []
  { g with transitions_ := g.transitions_.insert source (targets ++ [⟨target, condition⟩]) }

def addSequentialTransition (source target : String) : Graph :=
  g.addConditionalTransition source target .default

def setStartElement (name : String) : Graph := { g with startElementName_ := name }

/-- The first transition of an element whose target was never added. -/
def danglingTarget (transitions : List Transition) : Option Transition :=
  transitions.find? fun t => (g.elements_.lookup t.targetName).isNone

/-- The error of the entry of a transition source, if it has one. -/
def sourceError (unit source : String) (transitions : List Transition) : Option String :=
  if (g.elements_.lookup source).isNone then
    some ("MissionPipeline '" ++ unit ++ "': transition source '" ++ source ++
      "' was never added via addElement()")
  else (g.danglingTarget transitions).map fun t =>
    "MissionPipeline '" ++ unit ++ "': transition '" ++ source ++ "' -> '" ++ t.targetName ++
      "' targets an element that was never added via addElement()"

/-- The first dangling reference, if there is one; a graph without any has its start element. -/
def validateGraph (unit : String) : Except String MissionElement :=
  match g.elements_.lookup g.startElementName_ with
  | none =>
    .error ("MissionPipeline '" ++ unit ++ "': start element '" ++ g.startElementName_ ++
      "' was never added via addElement()")
  | some start =>
    match g.transitions_.entries.findSome? fun entry => g.sourceError unit entry.1 entry.2 with
    | some firstError => .error firstError
    | none => .ok start

/-- Where a result leads: the first transition with that condition counts, even if it dangles. -/
def next (element : MissionElement) (result : TransitionResult) : Option MissionElement :=
  (((g.transitions_.lookup element.name).getD []).find? fun t => t.condition = result).bind
    fun t => g.elements_.lookup t.targetName

end Graph

/-! ## Hooks, statements, calls -/

abbrev Hook := Visit MissionElement

@[match_pattern] abbrev Hook.onEnter (e : MissionElement) : Hook := .enter e

@[match_pattern] abbrev Hook.execute (e : MissionElement) : Hook := .use e

@[match_pattern] abbrev Hook.onExit (e : MissionElement) : Hook := .leave e

@[match_pattern] abbrev Hook.reset (e : MissionElement) : Hook := .aside e

/-- A statement of the scheduler. -/
inductive Code
  /-- `pendingReset_.exchange(false)` -/
  | drainReset
  /-- `pendingStart_.exchange(false)` -/
  | drainStart
  /-- `controlPort_->wasUpdated()` -/
  | testControl
  /-- `controlPort_->read()`: its own look at `wasUpdated_` -/
  | readControl
  | clearUpdated
  /-- its look at `data_`, and the choice of the command -/
  | dispatchControl
  | resetImpl
  /-- `pendingStart_.store(false)` -/
  | cancelStart
  | startImmediate
  | abortImpl
  | restartImpl
  | pauseImpl
  | resumeImpl
  /-- `processSync`: the first section -/
  | snapshot
  /-- what `execute` has returned is looked at -/
  | examine (element : MissionElement) (statusSnapshot : PipelineStatus)
  /-- the section of `Failed` -/
  | applyFailed (element : MissionElement)
  | lookUp (element : MissionElement) (result : TransitionResult)
  | applyFinished (element : MissionElement)
  | applyNext (element next : MissionElement)
  | writeStatus (status : PipelineStatus)
  | setError (error : String)
  | setState (state : ExecutionState)
  deriving DecidableEq, Repr

/-- A call on the pipeline. -/
inductive Call
  | startPipeline
  | abort
  | restart
  | pause
  | resume
  | reset
  /-- somebody else writes to the control port -/
  | control (command : ℤ)
  /-- what `resetBlock` does to the pipeline -/
  | resetBlock
  deriving DecidableEq, Repr

/-- A statement of a call. -/
inductive CallStep
  /-- `startPipeline`: its section -/
  | checkStart
  | storePendingStart
  | setError (error : String)
  | storePendingReset
  /-- `controlPort_`: `data_`, then `wasUpdated_` -/
  | storeData (data : ℤ)
  | storeUpdated (value : Bool)
  | setState (state : ExecutionState)
  deriving DecidableEq, Repr

def PipelineControl.ABORT : ℤ := 1

def PipelineControl.RESTART : ℤ := 2

def PipelineControl.PAUSE : ℤ := 3

def PipelineControl.RESUME : ℤ := 4

/-- `controlPort_->update`. -/
def update (command : ℤ) : List CallStep := [.storeData command, .storeUpdated true]

/-- The statements of a call. -/
def Call.code : Call → List CallStep
  | startPipeline => [.checkStart]
  | abort => update PipelineControl.ABORT
  | restart => update PipelineControl.RESTART
  | pause => update PipelineControl.PAUSE
  | resume => update PipelineControl.RESUME
  | reset => [.storePendingReset]
  | control command => update command
  | resetBlock => [.storePendingReset, .storeData 0, .storeUpdated false, .setState .initialized]

end MissionPipeline

/-- A thread: the scheduler's, or another. -/
inductive MissionThread
  | scheduler
  | other (n : ℕ)
  deriving DecidableEq, Repr

/-- The control port, an `AsyncInputPort<int>`. -/
structure ControlPort where
  data_ : ℤ := 0
  wasUpdated_ : Bool := false
  deriving DecidableEq, Repr

/-- A pipeline, and where its threads stand. -/
structure MissionPipeline where
  name : String := ""
  graph : MissionPipeline.Graph := {}
  currentElement_ : Option MissionElement := none
  status_ : PipelineStatus := .idle
  controlPort_ : ControlPort := {}
  pendingReset_ : Bool := false
  pendingStart_ : Bool := false
  /-- what was last written to the status port -/
  statusPort_ : Option ℤ := none
  lastError_ : String := ""
  state_ : ExecutionState := .uninitialized
  /-- what the scheduler has still to do in this tick -/
  todo : List (Duty MissionPipeline.Code MissionElement) := []
  /-- the hook that runs -/
  hook : Option MissionPipeline.Hook := none
  /-- what the last `execute` has returned -/
  result : TransitionResult := .awaiting
  /-- what is left of the call of a thread -/
  calls : MissionThread → List MissionPipeline.CallStep := fun _ => []

namespace MissionPipeline

variable (s : MissionPipeline)

/-! ## The statements of the scheduler -/

/-- These come first. -/
def push (duties : List (Duty Code MissionElement)) : MissionPipeline :=
  { s with todo := duties ++ s.todo }

/-- The hooks of a section that lets the current element go, its exit and the reset of all, and the
statement behind them. -/
def exitAndReset (last : Code) : List (Duty Code MissionElement) :=
  s.currentElement_.toList.map (fun e => .call (Hook.onExit e)) ++
    (s.graph.elements_.values.map (fun e => .call (Hook.reset e)) ++ [Duty.code last])

def resetImpl : MissionPipeline :=
  { s with currentElement_ := none, status_ := .idle }.push
    (.code .cancelStart :: s.exitAndReset (.setState .initialized))

def restartImpl : MissionPipeline :=
  { s with currentElement_ := none, status_ := .idle }.push (s.exitAndReset .startImmediate)

def startImmediate : MissionPipeline :=
  if s.status_ = .idle then
    match s.graph.validateGraph s.name with
    | .error firstError => { s with status_ := .failed }.push [.code (.setError firstError)]
    | .ok start =>
      { s with currentElement_ := some start, status_ := .executing }.push [.call (Hook.onEnter start)]
  else s

def abortImpl : MissionPipeline :=
  if s.status_ = .executing ∨ s.status_ = .paused then
    { s with currentElement_ := none, status_ := .aborted }.push
      (s.currentElement_.toList.map fun e => .call (Hook.onExit e))
  else s

def pauseImpl : MissionPipeline :=
  if s.status_ = .executing then { s with status_ := .paused } else s

def resumeImpl : MissionPipeline :=
  if s.status_ = .paused then { s with status_ := .executing } else s

/-- The choice of the command. -/
def dispatchControl : MissionPipeline :=
  if s.controlPort_.data_ = PipelineControl.ABORT then s.push [.code .abortImpl]
  else if s.controlPort_.data_ = PipelineControl.RESTART then s.push [.code .restartImpl]
  else if s.controlPort_.data_ = PipelineControl.PAUSE then s.push [.code .pauseImpl]
  else if s.controlPort_.data_ = PipelineControl.RESUME then s.push [.code .resumeImpl]
  else s

/-- The first section of `processSync`, and the call of `execute`. -/
def snapshot : MissionPipeline :=
  match s.status_, s.currentElement_ with
  | .executing, some element =>
    s.push [.call (Hook.execute element), .code (.examine element .executing)]
  | status, _ => s.push [.code (.writeStatus status)]

def examine (element : MissionElement) (statusSnapshot : PipelineStatus) : MissionPipeline :=
  match s.result with
  | .awaiting => s.push [.code (.writeStatus statusSnapshot)]
  | .failed => s.push [.code (.applyFailed element)]
  | result => s.push [.code (.lookUp element result)]

/-- The section that applies a result: it does so if nothing has changed under `execute`. -/
def apply (element : MissionElement) (status : PipelineStatus) (next : Option MissionElement) :
    MissionPipeline :=
  if s.currentElement_ = some element ∧ s.status_ = .executing then
    { s with currentElement_ := next, status_ := status }.push
      (.call (Hook.onExit element) ::
        (next.toList.map (fun e => Duty.call (Hook.onEnter e)) ++
          [Duty.code (Code.writeStatus status)]))
  else s.push [.code (.writeStatus s.status_)]

def lookUp (element : MissionElement) (result : TransitionResult) : MissionPipeline :=
  match s.graph.next element result with
  | none => s.push [.code (.applyFinished element)]
  | some next => s.push [.code (.applyNext element next)]

/-- One statement of the scheduler. -/
def exec : Code → MissionPipeline
  | .drainReset =>
    { s with pendingReset_ := false }.push (if s.pendingReset_ then [.code .resetImpl] else [])
  | .drainStart =>
    { s with pendingStart_ := false }.push (if s.pendingStart_ then [.code .startImmediate] else [])
  | .testControl => s.push (if s.controlPort_.wasUpdated_ then [.code .readControl] else [])
  -- `read` throws where it finds nothing, and the tick is over
  | .readControl =>
    if s.controlPort_.wasUpdated_ then s.push [.code .clearUpdated, .code .dispatchControl]
    else { s with todo := [] }
  | .clearUpdated => { s with controlPort_.wasUpdated_ := false }
  | .dispatchControl => s.dispatchControl
  | .resetImpl => s.resetImpl
  | .cancelStart => { s with pendingStart_ := false }
  | .startImmediate => s.startImmediate
  | .abortImpl => s.abortImpl
  | .restartImpl => s.restartImpl
  | .pauseImpl => s.pauseImpl
  | .resumeImpl => s.resumeImpl
  | .snapshot => s.snapshot
  | .examine element statusSnapshot => s.examine element statusSnapshot
  | .applyFailed element => s.apply element .failed none
  | .lookUp element result => s.lookUp element result
  | .applyFinished element => s.apply element .finished none
  | .applyNext element next => s.apply element .executing (some next)
  | .writeStatus status => { s with statusPort_ := some status.toInt }
  | .setError error => { s with lastError_ := error, state_ := .error }
  | .setState state => { s with state_ := state }

/-- `processAsync`. -/
def processAsync : List (Duty Code MissionElement) :=
  [.code .drainReset, .code .drainStart, .code .testControl]

/-- `processSync`. -/
def processSync : List (Duty Code MissionElement) := [.code (.setState .running), .code .snapshot]

/-! ## The statements of a call -/

/-- What is left of the call of a thread. -/
def setCall (t : MissionThread) (rest : List CallStep) : MissionPipeline :=
  { s with calls := Function.update s.calls t rest }

/-- The section of `startPipeline`. -/
def checkStart (t : MissionThread) : MissionPipeline :=
  if s.status_ = .idle then
    match s.graph.validateGraph s.name with
    | .error firstError => { s with status_ := .failed }.setCall t [.setError firstError]
    | .ok _ => s.setCall t [.storePendingStart]
  else s.setCall t []

/-- One statement of a call, after which this is left of it. -/
def execCall (t : MissionThread) (rest : List CallStep) : CallStep → MissionPipeline
  | .checkStart => s.checkStart t
  | .storePendingStart => { s with pendingStart_ := true }.setCall t rest
  | .setError error => { s with lastError_ := error, state_ := .error }.setCall t rest
  | .storePendingReset => { s with pendingReset_ := true }.setCall t rest
  | .storeData data => { s with controlPort_.data_ := data }.setCall t rest
  | .storeUpdated value => { s with controlPort_.wasUpdated_ := value }.setCall t rest
  | .setState state => { s with state_ := state }.setCall t rest

/-! ## Runs -/

/-- Whether the thread may begin a call: the scheduler may in a hook, and between ticks. -/
def mayCall (t : MissionThread) : Prop :=
  s.calls t = [] ∧ (t = .scheduler → s.hook.isSome ∨ s.todo = [])

instance (t : MissionThread) : Decidable (s.mayCall t) := inferInstanceAs (Decidable (_ ∧ _))

/-- The scheduler is in no hook, and in no call. -/
def runs : Prop := s.hook = none ∧ s.calls .scheduler = []

instance : Decidable s.runs := inferInstanceAs (Decidable (_ ∧ _))

/-- A step of a run. -/
inductive Label
  | addElement (element : MissionElement)
  | addConditionalTransition (source target : String) (condition : TransitionResult)
  | setStartElement (name : String)
  /-- a thread, maybe the scheduler in a hook, begins a call -/
  | call (t : MissionThread) (c : Call)
  /-- it takes the next step of it -/
  | step (t : MissionThread)
  /-- the scheduler calls `processAsync` -/
  | processAsync
  | processSync
  /-- it takes the next step of the tick -/
  | run
  /-- the hook returns; `execute` returns this -/
  | returns (result : TransitionResult)
  deriving DecidableEq, Repr

/-- The next step of the tick. -/
def next : Option MissionPipeline :=
  match s.todo with
  | [] => none
  | .call h :: rest => some { s with todo := rest, hook := some h }
  | .code c :: rest => some ({ s with todo := rest }.exec c)

/-- The hook returns. -/
def hookReturns (result : TransitionResult) : Option MissionPipeline :=
  match s.hook with
  | none => none
  | some (Hook.execute _) => some { s with hook := none, result := result }
  | some _ => some { s with hook := none }

/-- The step with this label. -/
def step : Label → Option MissionPipeline
  | .addElement element => some { s with graph := s.graph.addElement element }
  | .addConditionalTransition source target condition =>
    some { s with graph := s.graph.addConditionalTransition source target condition }
  | .setStartElement name => some { s with graph := s.graph.setStartElement name }
  | .call t c => if s.mayCall t then some (s.setCall t c.code) else none
  | .step t => match s.calls t with
    | [] => none
    | c :: rest => some (s.execCall t rest c)
  | .processAsync => if s.runs ∧ s.todo = [] then some (s.push processAsync) else none
  | .processSync => if s.runs ∧ s.todo = [] then some (s.push processSync) else none
  | .run => if s.runs then s.next else none
  | .returns result => if s.calls .scheduler = [] then s.hookReturns result else none

end MissionPipeline

/-- Pipelines with any name and any graph, from their construction on. -/
def missionPipeline : Machine MissionPipeline MissionPipeline.Label where
  init s := s = { name := s.name, graph := s.graph }
  step := MissionPipeline.step

end AxonVex
