import Rolebox.Application.Notifications
import Rolebox.Store.Approvals
import Rolebox.Store.Executions

/-! The notice conditions of one run's view: what a graph has to say while nobody asks. -/

namespace Rolebox.Graph.GraphNotifications

inductive TerminalObservationKind where
  | completed
  | failed
  deriving DecidableEq

structure NodeView where
  nodeId : String
  status : OutcomeNodeStatus
  attemptId : Option String
  inputRefusals : List DownstreamInputRefusal

/-- One armed attempt: its execution binding, and whether its outcome was accepted. -/
structure AttemptView where
  nodeId : String
  attemptId : String
  execution : Option ExecutionBindingRecord
  accepted : Bool

structure RunView where
  runId : String
  recordedPhase : Option OutcomeGraphPhase
  control : Option RunControlFact
  stop : Option OutcomeStop
  nodes : List NodeView
  approvals : List ApprovalRequestRecord
  decisions : List ControlDecisionRecord
  attempts : List AttemptView

def RunView.phase (run : RunView) : OutcomeGraphPhase :=
  match run.control with
  | none => run.recordedPhase.getD .ready
  | some _ => .stopped

structure GraphView where
  current : Option String
  runs : List RunView
  readObservation : String → Option TerminalObservationKind

def currentDispatchedAttempt (run : RunView) (attemptId : String) : Bool :=
  run.nodes.any fun node => node.status = .dispatched && node.attemptId = some attemptId

def strandedNodeNames (run : RunView) : List String :=
  (run.nodes.filter fun node => node.status = .pending).map NodeView.nodeId

def terminalStopReason (run : RunView) (stop : OutcomeStop) : String :=
  match stop with
  | .unreachablePendingNode _ =>
    let pending := strandedNodeNames run
    let detail := if pending = [] then "no node is pending in the current state"
      else "pending and unreachable: " ++ joinWith ", " pending
    stopReason stop ++ ": " ++ describeOutcomeStop stop ++ " — " ++ detail
  | _ => stopReason stop

def terminalNotice (kind : NotificationKind) (reason : String) : Notice :=
  { key := "terminal"
    kind := kind
    reason := reason
    nodeId := none
    attemptId := none
    approvalStatus := none }

def attention (key reason nodeId : String) (attemptId : Option String) : Notice :=
  { key := key
    kind := .attention
    reason := reason
    nodeId := some nodeId
    attemptId := attemptId
    approvalStatus := none }

def approvalNotice (run : RunView) (approval : ApprovalRequestRecord) : Option Notice :=
  if approval.status = .approved then none
  else if currentDispatchedAttempt run approval.attemptId then
    some
      { key := "approval:" ++ approval.attemptId ++ ":" ++ approval.status.text
        kind := .attention
        reason := "Approval " ++ approval.status.text ++ ": " ++
          approval.decisionReason.getD approval.reason
        nodeId := some approval.nodeId
        attemptId := some approval.attemptId
        approvalStatus := some approval.status.text }
  else none

def refusalsText (refusals : List DownstreamInputRefusal) : String :=
  "[" ++ joinWith "," (refusals.map fun refusal =>
    "\x7b\"from\":" ++ quote refusal.from ++ ",\"outcome\":" ++ quote refusal.outcome ++
      ",\"code\":" ++ quote refusal.code.text ++ ",\"message\":" ++ quote refusal.message ++
      "\x7d") ++ "]"

def inputsNotice (sha256 : String → String) (node : NodeView) : Option Notice :=
  if node.inputRefusals = [] then none
  else
    let reason := refusalsText node.inputRefusals
    some (attention ("inputs:" ++ node.nodeId ++ ":" ++ sha256 reason)
      ("Required inputs are unavailable: " ++ reason) node.nodeId none)

/-- A launch that failed without a proof, or was refused and left pending. -/
def dispatchNotice (run : RunView) (attempt : AttemptView) : Option Notice :=
  if currentDispatchedAttempt run attempt.attemptId then
    match attempt.execution with
    | none => none
    | some execution =>
      let notice := fun reason => attention
        ("dispatch:" ++ attempt.attemptId ++ ":" ++ toString execution.generation) reason
        attempt.nodeId (some attempt.attemptId)
      match execution.state with
      | .creating =>
        if execution.refused.any fun refusal => refusal.kind = .unprovenFailure then
          some (notice ("Worker launch failed without proof that no execution exists; " ++
            "recovery needs attention."))
        else none
      | .pending (some _) =>
        some (notice "Worker launch was refused; the dispatch remains pending.")
      | .pending none | .created _ => none
  else none

def stoppedNotice (run : RunView) (decision : ControlDecisionRecord) : Option Notice :=
  if decision.command ∉ STOPPING_CONTROL_COMMANDS then none
  else if currentDispatchedAttempt run decision.attemptId then
    match run.attempts.find? fun attempt => attempt.attemptId = decision.attemptId with
    | none => none
    | some attempt =>
      if attempt.accepted then none
      else some (attention
        ("stopped:" ++ decision.attemptId ++ ":" ++ decision.command.text)
        ("The trusted command " ++ decision.command.text ++ " stopped attempt " ++
          decision.attemptId ++ " of node " ++ decision.nodeId ++ " (" ++ decision.reason ++
          "). The run continues and this node's dependents stay unreleased — retry the node to " ++
          "mint a successor attempt, or cancel the run.")
        decision.nodeId (some decision.attemptId))
  else none

def stoppedAttempts (run : RunView) : List String :=
  (run.decisions.filter fun decision => (stoppedNotice run decision).isSome).map
    ControlDecisionRecord.attemptId

/-- An execution that is over and completed while its attempt settled nothing. -/
def unsettledNotice (run : RunView)
    (readObservation : String → Option TerminalObservationKind) (attempt : AttemptView) :
    Option Notice :=
  if attempt.accepted || (stoppedAttempts run).contains attempt.attemptId then none
  else if currentDispatchedAttempt run attempt.attemptId then
    match attempt.execution.map ExecutionBindingRecord.state with
    | some (.created execution) =>
      if readObservation execution.executionId = some .completed then
        some (attention ("unsettled-completion:" ++ attempt.attemptId)
          ("The worker execution ended and reported completion, but no outcome was settled (no " ++
            "submission arrived and the host derived none) — the attempt stays open.")
          attempt.nodeId (some attempt.attemptId))
      else none
    | _ => none
  else none

def standingNotices (sha256 : String → String) (run : RunView)
    (readObservation : String → Option TerminalObservationKind) : List Notice :=
  run.approvals.filterMap (approvalNotice run) ++ run.nodes.filterMap (inputsNotice sha256) ++
    run.attempts.filterMap (dispatchNotice run) ++ run.decisions.filterMap (stoppedNotice run) ++
    run.attempts.filterMap (unsettledNotice run readObservation)

def completionNotices (run : RunView) : List Notice :=
  match strandedNodeNames run with
  | [] => [terminalNotice .complete "All activated graph work completed."]
  | stranded =>
    [{ key := "pending:" ++ joinWith "," stranded
       kind := .stopped
       reason := "This run is recorded as complete, but " ++ toString stranded.length ++
         " node(s) are still pending: " ++ joinWith ", " stranded ++
         " — the run did not finish that work."
       nodeId := none
       attemptId := none
       approvalStatus := none }]

def notices (sha256 : String → String) (run : RunView)
    (readObservation : String → Option TerminalObservationKind) : List Notice :=
  match run.control.filter fun control => control.command ≠ .retry with
  | some control =>
    [terminalNotice .stopped (control.command.text ++ ": " ++ control.reason)]
  | none =>
    match run.stop with
    | some stop => [terminalNotice .stopped (terminalStopReason run stop)]
    | none =>
      if run.recordedPhase = some .complete then completionNotices run
      else if run.control.isSome then []
      else standingNotices sha256 run readObservation

/-- One graph as a capture reads it: its definition, its origin, and its view if it can be read. -/
structure GraphFacts where
  defined : Bool
  origin : Option InvocationOrigin
  view : Option GraphView

def GraphFacts.absent : GraphFacts := ⟨false, none, none⟩

def GraphFacts.conditions (sha256 : String → String) (facts : GraphFacts) :
    List (InvocationOrigin × String × Notice) :=
  if facts.defined then
    match facts.origin, facts.view with
    | some origin, some view =>
      view.runs.flatMap fun run =>
        (notices sha256 run view.readObservation).map fun notice => (origin, run.runId, notice)
    | _, _ => []
  else []

/-- What the check for obsolete notices reads; nothing when the graph cannot be read. -/
def GraphFacts.judged (sha256 : String → String) (facts : GraphFacts) :
    Option (Option CurrentRun) :=
  if facts.defined then
    facts.view.map fun view =>
      (view.runs.find? fun run => some run.runId = view.current).map fun run =>
        { runId := run.runId
          phase := run.phase.text
          noticeKeys := (notices sha256 run view.readObservation).map Notice.key }
  else none
end Rolebox.Graph.GraphNotifications
