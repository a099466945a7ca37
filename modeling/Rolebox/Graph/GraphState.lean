import Rolebox.Graph.AttemptCredential
import Rolebox.Graph.Inputs
import Rolebox.Graph.JoinState
import Rolebox.Graph.Progress

/-! The reducer: how one accepted outcome advances the state of a run. -/

namespace Rolebox.Graph
open General

inductive OutcomeAdvanceRefusalCode where
  | unknownNode
  | nodeNotDispatched
  | attemptMismatch
  | noRoute
  | reentryOutsideLoop
  | graphStopped
  | progressUnbound
  | unsupportedStateVersion

/-- An `OutcomeAdvanceRefusedError`, or the plain error of an unusable credential source. -/
inductive OutcomeAdvanceError where
  | refused (code : OutcomeAdvanceRefusalCode) (message : String)
  | unusableCredential (message : String)

structure ExecutionIdentity where
  graphId : String
  attemptId : String
  submissionId : String

structure AcceptedDecision where
  identity : ExecutionIdentity
  planRevision : String
  proposalDigest : String
  nodeId : String
  outcomeId : String

structure OutcomeDispatchIntent where
  nodeId : String
  attemptId : String
  agent : String
  prompt : String
  credential : String
  inputs : List ResolvedInput

structure OutcomeAdvance where
  state : OutcomeGraphState
  dispatches : List OutcomeDispatchIntent
  progress : List ProgressReport

structure AdvanceContext where
  now : Nat
  credentials : CredentialHost
  readAcceptedResult : Option (String → AcceptedResultReading)
  progress : List ProgressProjection
  dispatchIdentity : Option HostInvocationIdentity

def sharedLoopGroup (plan : JoinTopology) (source target : String) : Option CompiledLoopGroup :=
  plan.loopGroups.find? fun group => source ∈ group.nodes ∧ target ∈ group.nodes

def continuationGroups (plan : JoinTopology) (nodeId outcomeId : String) : List CompiledLoopGroup :=
  plan.loopGroups.filter fun group =>
    group.continuationOutcome = outcomeId ∧ nodeId ∈ group.nodes

/-- `(next[id] ?? 0) + 1`. -/
def CounterValue.increment : Reading CounterValue → CounterValue
  | .undefined => .number 1
  | .inherited => .text 1
  | .value (.number n) => .number (n + 1)
  | .value (.text ones) => .text (ones + 1)

def CounterValue.exceeds (traversals : CounterValue) (cap : Nat) : Bool :=
  match traversals with
  | .number n => decide (cap < n)
  | .text _ => false

def countTraversals : List CompiledLoopGroup → PlainObject CounterValue →
    Except CompiledLoopGroup (PlainObject CounterValue)
  | [], next => .ok next
  | group :: groups, next =>
    let traversals := CounterValue.increment (next.get group.id)
    if traversals.exceeds group.maxTraversals then .error group
    else countTraversals groups (next.setPrimitive group.id traversals)

/-- `loopTraversals[id] ?? 0`, which is a number whenever a cap refused the group. -/
def recordedTraversals (loopTraversals : PlainObject CounterValue) (groupId : String) : Nat :=
  match loopTraversals.get groupId with
  | .value (.number n) => n
  | _ => 0

def projectionMatchesDecision (plan : CompiledPlan) (decision : AcceptedDecision)
    (projection : ProgressProjection) : Bool :=
  let binding := projection.binding
  binding.graphId = plan.graphId ∧ binding.planRevision = plan.planRevision ∧
    binding.attemptId = decision.identity.attemptId ∧
    binding.submissionId = decision.identity.submissionId ∧
    binding.proposalDigest = decision.proposalDigest

def describeProjectionBinding (projection : ProgressProjection) : String :=
  let binding := projection.binding
  "graph " ++ quote binding.graphId ++ ", plan revision " ++ quote binding.planRevision ++
    ", attempt " ++ quote binding.attemptId ++ ", proposal " ++ quote binding.proposalDigest

structure Measurement where
  entries : PlainObject OutcomeLoopProgress
  reports : List ProgressReport
  stop : Option OutcomeProgressStalledStop

def boundProjection (plan : CompiledPlan) (decision : AcceptedDecision)
    (projections : List ProgressProjection) (group : CompiledLoopGroup) :
    Except OutcomeAdvanceError ProgressProjection :=
  match projections.find? (·.loopGroupId = group.id) with
  | none =>
    .error (.refused .progressUnbound
      ("outcome-advance: loop group " ++ quote group.id ++
        " declares a progress policy, but this submission was measured into no projection " ++
        "for it — a declared comparison is never skipped"))
  | some projection =>
    if projectionMatchesDecision plan decision projection then .ok projection
    else
      .error (.refused .progressUnbound
        ("outcome-advance: the progress projection of loop group " ++ quote group.id ++
          " is bound to " ++ describeProjectionBinding projection ++
          ", not to this submission (attempt " ++ quote decision.identity.attemptId ++
          " of plan revision " ++ quote plan.planRevision ++ ", proposal " ++
          quote decision.proposalDigest ++
          ") — a projection measures exactly the proposal it was produced for, so it is " ++
          "refused rather than compared"))

def stalledStop (group : CompiledLoopGroup) (policy : CompiledProgressPolicy)
    (decision : AcceptedDecision) (now : Nat) (comparison : ProgressComparison)
    (stop : Option OutcomeProgressStalledStop) :
    Except OutcomeAdvanceError (Option OutcomeProgressStalledStop) :=
  if comparison.report.stalled = false ∨ stop.isSome then .ok stop
  else
    match comparison.entry.baseline with
    | none =>
      .error (.refused .progressUnbound
        ("outcome-advance: loop group " ++ quote group.id ++
          " reported a stall without a recorded baseline — this build produces no such " ++
          "comparison, so the stop is refused rather than invented"))
    | some baseline =>
      .ok (some
        { loopGroupId := group.id
          nodeId := decision.nodeId
          outcomeId := decision.outcomeId
          attemptId := decision.identity.attemptId
          unchanged := comparison.entry.unchanged
          maxUnchanged := policy.maxUnchanged
          evaluator := comparison.entry.evaluator
          evaluatorVersion := comparison.entry.version
          subject := comparison.entry.subject
          baseline := baseline
          stoppedAt := now })

def measureGroup (plan : CompiledPlan) (recorded : PlainObject OutcomeLoopProgress)
    (decision : AcceptedDecision) (projections : List ProgressProjection) (now : Nat)
    (measured : Measurement) (group : CompiledLoopGroup) : Except OutcomeAdvanceError Measurement :=
  match group.progress with
  | none => .ok measured
  | some policy =>
    match recorded.get group.id with
    | .undefined =>
      .error (.refused .progressUnbound
        ("outcome-advance: loop group " ++ quote group.id ++
          " declares a progress policy, but the persisted state carries no progress record " ++
          "for it — the declared comparison is refused rather than skipped"))
    | .inherited => do
      -- an inherited property is no progress record: the comparison is unknown
      let _ ← boundProjection plan decision projections group
      return { measured with
        reports := measured.reports ++
          [{ entry := none, answer := .unknown .evaluatorIdentityMismatch, stalled := false }] }
    | .value entry => do
      let projection ← boundProjection plan decision projections group
      let comparison := compareProgress policy entry projection
      let stop ← stalledStop group policy decision now comparison measured.stop
      return {
        entries := measured.entries.set group.id comparison.entry
        reports := measured.reports ++ [comparison.report]
        stop := stop }

def measureProgress (plan : CompiledPlan) (groups : List CompiledLoopGroup)
    (recorded : PlainObject OutcomeLoopProgress) (decision : AcceptedDecision)
    (projections : List ProgressProjection) (now : Nat) : Except OutcomeAdvanceError Measurement :=
  groups.foldlM (measureGroup plan recorded decision projections now)
    { entries := recorded.spread, reports := [], stop := none }

structure Candidate where
  node : CompiledNode
  index : Nat

structure ArmDecision where
  candidate : Candidate
  assembled : DownstreamInput

def settledAttemptOf (nodes : List OutcomeNodeState) (nodeId : String) : Option String :=
  (settlementOf nodes nodeId).map (·.2)

def readAcceptedOf (context : AdvanceContext) : String → AcceptedResultReading :=
  context.readAcceptedResult.getD fun _ => .unreadable
    ("this advance was given no durable accepted-result read, so a declared input " ++
      "cannot be resolved from what the producers accepted")

section Arming
variable (plan : JoinTopology) (context : AdvanceContext) (nodes : List OutcomeNodeState)

def assembleAgainst (routedCandidates : List Candidate) (inFlight : List String) :
    List ArmDecision :=
  routedCandidates.map fun candidate =>
    { candidate := candidate
      assembled := assembleDownstreamInput candidate.node.inputs
        (fun nodeId => if nodeId ∈ inFlight then none else settledAttemptOf nodes nodeId)
        (readAcceptedOf context)
        (materializeArrivals plan nodes inFlight candidate.node.id) }

def armedAgainst (routedCandidates : List Candidate) (inFlight : List String) : List String :=
  ((assembleAgainst plan context nodes routedCandidates inFlight).filter fun entry =>
    entry.assembled.isResolved).map (·.candidate.node.id)

def sameMembers (a b : List String) : Bool :=
  a.length = b.length ∧ a.all (· ∈ b)

def swingBasis (routedCandidates : List Candidate) : Nat → List String → List String
  | 0, basis => basis
  | rounds + 1, basis =>
    let swung := armedAgainst plan context nodes routedCandidates
      (armedAgainst plan context nodes routedCandidates basis)
    if sameMembers swung basis then basis else swingBasis routedCandidates rounds swung

def armingRound (candidates armable : List Candidate) (blocked : List String) : List ArmDecision :=
  let armSet := resolveArmSet plan nodes (armable.map (·.node)) blocked
  let routedCandidates := candidates.filter fun candidate => candidate.node.id ∈ armSet
  let basis := swingBasis plan context nodes routedCandidates (routedCandidates.length + 1)
    (routedCandidates.map (·.node.id))
  assembleAgainst plan context nodes routedCandidates basis

def newlyBlocked (decisions : List ArmDecision) (blocked : List String) : List String :=
  (decisions.filter fun decision =>
    decision.assembled.isResolved = false ∧ decision.candidate.node.id ∉ blocked).map
      (·.candidate.node.id)

def decideArming (candidates armable : List Candidate) : Nat → List String → List ArmDecision
  | 0, blocked => armingRound plan context nodes candidates armable blocked
  | fuel + 1, blocked =>
    let decisions := armingRound plan context nodes candidates armable blocked
    let grown := newlyBlocked decisions blocked
    if grown = [] then decisions
    else decideArming candidates armable fuel (blocked ++ grown)

end Arming

/-- The part of an advance that applying the arm decisions extends. -/
structure Dispatching where
  nodes : List OutcomeNodeState
  attemptSeq : Nat
  dispatches : List OutcomeDispatchIntent

def applyArmDecision (plan : CompiledPlan) (context : AdvanceContext) (progress : Dispatching)
    (decision : ArmDecision) : Except OutcomeAdvanceError Dispatching :=
  let target := decision.candidate.node
  match decision.assembled with
  | .blocked refusals =>
    .ok { progress with
      nodes := progress.nodes.modify decision.candidate.index fun entry =>
        { entry with inputRefusals := some refusals } }
  | .resolved entries =>
    let attemptSeq := progress.attemptSeq + 1
    let attemptId := target.id ++ "#" ++ toString attemptSeq
    match mintAttemptCredential context.credentials.source
        (attemptCredentialBinding plan.graphId target.id attemptId plan.planRevision) with
    | .error message => .error (.unusableCredential message)
    | .ok credential =>
      .ok
        { nodes := progress.nodes.set decision.candidate.index
            { nodeId := target.id
              progress := .dispatched
                { attemptId := attemptId
                  attemptSeq := attemptSeq
                  attemptCredentialDigest := context.credentials.attemptCredentialDigest credential
                  dispatchIdentity := context.dispatchIdentity
                  dispatchedAt := context.now
                  inputs := some entries }
              arrivals := []
              inputRefusals := none }
          attemptSeq := attemptSeq
          dispatches := progress.dispatches ++
            [{ nodeId := target.id
               attemptId := attemptId
               agent := target.agent
               prompt := target.prompt
               credential := credential
               inputs := entries }] }

/-- What routing one settled outcome decides, before the state is closed again. -/
structure Routed where
  nodes : List OutcomeNodeState
  loopTraversals : PlainObject CounterValue
  loopProgress : PlainObject OutcomeLoopProgress
  attemptSeq : Nat
  dispatches : List OutcomeDispatchIntent
  reports : List ProgressReport
  stop : Option OutcomeStop

def reentryOutsideLoop (plan : JoinTopology) (nodes : List OutcomeNodeState) (nodeId : String)
    (candidates : List Candidate) : Option Candidate :=
  candidates.find? fun candidate =>
    (nodes[candidate.index]?.map (·.status)) = some .settled ∧
      sharedLoopGroup plan nodeId candidate.node.id = none

def armTargets (plan : CompiledPlan) (context : AdvanceContext) (decision : AcceptedDecision)
    (nodes : List OutcomeNodeState) (attemptSeq : Nat) (routed : List CompiledEdge) :
    Except OutcomeAdvanceError Dispatching :=
  let candidateIds := distinct (routed.map (·.to))
  match candidateIds.find? (· ∉ plan.nodeIds) with
  | some targetId =>
    .error (.refused .noRoute
      ("outcome-advance: edge " ++ quote decision.nodeId ++ " -> " ++ quote targetId ++
        " names a node the plan does not declare"))
  | none =>
    let candidates := (plan.nodes.zipIdx.filter fun p => p.1.id ∈ candidateIds).map fun p =>
      ({ node := p.1, index := p.2 } : Candidate)
    match reentryOutsideLoop plan nodes decision.nodeId candidates with
    | some candidate =>
      .error (.refused .reentryOutsideLoop
        ("outcome-advance: edge " ++ quote decision.nodeId ++ " -> " ++ quote candidate.node.id ++
          " re-enters a settled node, but the two do not share a declared loop group — " ++
          "re-entry outside a declared loop is refused"))
    | none =>
      let armable := candidates.filter fun candidate =>
        match nodes[candidate.index]? with
        | some entry => entry.status ≠ .dispatched
        | none => false
      (decideArming plan context nodes candidates armable candidates.length []).foldlM
        (applyArmDecision plan context)
        { nodes := nodes, attemptSeq := attemptSeq, dispatches := [] }

def countOutcome (decision : AcceptedDecision) (now : Nat) (groups : List CompiledLoopGroup)
    (loopTraversals : PlainObject CounterValue) : PlainObject CounterValue × Option OutcomeStop :=
  if groups = [] then (loopTraversals, none)
  else
    match countTraversals groups loopTraversals.spread with
    | .ok next => (next, none)
    | .error bound =>
      (loopTraversals, some (.loopExhausted
        { loopGroupId := bound.id
          nodeId := decision.nodeId
          outcomeId := decision.outcomeId
          attemptId := decision.identity.attemptId
          traversals := recordedTraversals loopTraversals bound.id
          maxTraversals := bound.maxTraversals
          stoppedAt := now }))

def successorsOf (plan : JoinTopology) (nodeId outcomeId : String) : List CompiledEdge :=
  plan.edges.filter fun edge => edge.from = nodeId ∧ edge.outcome = outcomeId

def measureUnlessStopped (plan : CompiledPlan) (state : OutcomeGraphState)
    (context : AdvanceContext) (decision : AcceptedDecision) (groups : List CompiledLoopGroup)
    (stop : Option OutcomeStop) : Except OutcomeAdvanceError Measurement :=
  match stop with
  | some _ => .ok { entries := state.loopProgress, reports := [], stop := none }
  | none => measureProgress plan groups state.loopProgress decision context.progress context.now

def routeOutcome (plan : CompiledPlan) (state : OutcomeGraphState) (context : AdvanceContext)
    (decision : AcceptedDecision) (nodes : List OutcomeNodeState) :
    Except OutcomeAdvanceError Routed := do
  let successors := successorsOf plan decision.nodeId decision.outcomeId
  if successors = [] then
    throw (.refused .noRoute
      ("outcome-advance: outcome " ++ quote decision.outcomeId ++ " of node " ++
        quote decision.nodeId ++ " is not a declared terminal and binds no edge — " ++
        "the plan is inconsistent and nothing was applied"))
  let groups := continuationGroups plan decision.nodeId decision.outcomeId
  let counted := countOutcome decision context.now groups state.loopTraversals
  let measured ← measureUnlessStopped plan state context decision groups counted.2
  let stop := counted.2.or (measured.stop.map .progressStalled)
  let routed := if stop.isNone then successors else []
  let armed ← armTargets plan context decision nodes state.attemptSeq routed
  return {
    nodes := armed.nodes
    loopTraversals := counted.1
    loopProgress := measured.entries
    attemptSeq := armed.attemptSeq
    dispatches := armed.dispatches
    reports := measured.reports
    stop := stop }

def describeOutcomeStop : OutcomeStop → String
  | .loopExhausted stop =>
    "loop group " ++ quote stop.loopGroupId ++ " reached its hard cap (round " ++
      toString stop.traversals ++ "/" ++ toString stop.maxTraversals ++ ") at attempt " ++
      quote stop.attemptId
  | .progressStalled stop =>
    "loop group " ++ quote stop.loopGroupId ++ " observed " ++ toString stop.unchanged ++
      " consecutive unchanged revision(s) (threshold " ++ toString stop.maxUnchanged ++
      ", evaluator " ++ quote stop.evaluator ++ " version " ++ toString stop.evaluatorVersion ++
      ", subject " ++ quote stop.subject ++ ", baseline " ++ quote stop.baseline ++
      ") at attempt " ++ quote stop.attemptId
  | .unreachablePendingNode stop =>
    let stranded := sortText stop.blockedNodes.keys
    let detail := stranded.map fun nodeId =>
      nodeId ++ " (feeder(s) that can never arrive: " ++
        joinWith ", " ((stop.blockedNodes.own? nodeId).getD []) ++ ")"
    toString stranded.length ++ " pending node(s) can never be dispatched: " ++
      joinWith "; " detail

def stopReason : OutcomeStop → String
  | .loopExhausted _ => "loop-exhausted"
  | .progressStalled _ => "progress-stalled"
  | .unreachablePendingNode _ => "unreachable-pending-node"

def ADVANCEABLE_STATE_BODY_VERSIONS : List Nat := [CURRENT_OUTCOME_STATE_BODY]

/-- The position and the in-flight attempt an accepted decision settles. -/
def dispatchedEntry (plan : CompiledPlan) (state : OutcomeGraphState)
    (decision : AcceptedDecision) :
    Except OutcomeAdvanceError (Nat × OutcomeNodeState × DispatchFacts) :=
  if state.bodyVersion ∉ ADVANCEABLE_STATE_BODY_VERSIONS then
    .error (.refused .unsupportedStateVersion
      ("outcome-advance: the state was written in body version " ++ toString state.bodyVersion ++
        ", which this build does not advance (it advances body versions " ++
        joinWith ", " (ADVANCEABLE_STATE_BODY_VERSIONS.map toString) ++
        ") — the layouts it advances record the attempt credential as the DIGEST it " ++
        "verifies against, while every version below them persists the credential itself " ++
        "(never re-persisted, never compared against a presentation and never " ++
        "re-delivered) or cannot carry the join arrivals and progress baselines this build " ++
        "writes on every attempt, and a newer one is not read by this build — the state is " ++
        "refused rather than advanced and rewritten in body version " ++
        toString CURRENT_OUTCOME_STATE_BODY))
  else
    match state.stop with
    | some stop =>
      .error (.refused .graphStopped
        ("outcome-advance: graph " ++ quote plan.graphId ++ " STOPPED (" ++ stopReason stop ++
          ": " ++ describeOutcomeStop stop ++
          ") — a stopped run advances no further, so this " ++
          "outcome was not applied and the stop is left exactly as it is"))
    | none =>
      match plan.nodes.findIdx? (·.id = decision.nodeId) with
      | none =>
        .error (.refused .unknownNode
          ("outcome-advance: the accepted decision names node " ++ quote decision.nodeId ++
            ", which plan revision " ++ plan.planRevision ++
            " does not declare — nothing was applied"))
      | some position =>
        match state.nodes[position]?.filter (·.nodeId = decision.nodeId) with
        | none =>
          .error (.refused .unknownNode
            ("outcome-advance: the state carries no progress for node " ++
              quote decision.nodeId ++ " — nothing was applied"))
        | some current =>
          match current.progress with
          | .pending =>
            .error (.refused .nodeNotDispatched
              ("outcome-advance: node " ++ quote decision.nodeId ++
                " was never dispatched, so its outcome cannot settle an attempt — " ++
                "nothing was applied"))
          | .settled _ outcomeId _ =>
            .error (.refused .nodeNotDispatched
              ("outcome-advance: node " ++ quote decision.nodeId ++
                " is already settled by outcome " ++ quote outcomeId ++
                " — a settled node is never advanced twice"))
          | .dispatched facts =>
            if facts.attemptId ≠ decision.identity.attemptId then
              .error (.refused .attemptMismatch
                ("outcome-advance: node " ++ quote decision.nodeId ++ " is on attempt " ++
                  quote facts.attemptId ++ ", but the accepted decision belongs to attempt " ++
                  quote decision.identity.attemptId ++
                  " — a stale acceptance is refused rather than applied to a newer attempt"))
            else .ok (position, current, facts)

def settleEntry (current : OutcomeNodeState) (facts : DispatchFacts) (outcomeId : String)
    (now : Nat) : OutcomeNodeState :=
  { nodeId := current.nodeId
    progress := .settled facts outcomeId now
    arrivals := current.arrivals
    inputRefusals := none }

def isTerminal (plan : CompiledPlan) (nodeId outcomeId : String) : Bool :=
  plan.terminalOutcomes.any fun entry => entry.nodeId = nodeId ∧ entry.outcome = outcomeId

def settledEverywhere (nodes : List OutcomeNodeState) : Bool :=
  nodes.all (·.status = .settled)

def canonicalNodes (plan : JoinTopology) (nodes : List OutcomeNodeState) : List OutcomeNodeState :=
  nodes.map fun entry => { entry with arrivals := materializeArrivals plan nodes [] entry.nodeId }

def strandedStop (plan : JoinTopology) (nodes : List OutcomeNodeState) (now : Nat) :
    Option OutcomeStop :=
  let blockedNodes := unsatisfiablePendingNodes plan nodes
  if blockedNodes.keys = [] then none
  else some (.unreachablePendingNode { blockedNodes := blockedNodes, stoppedAt := now })

/-- The routed stop, or the stranded one of pending nodes with nothing in flight. -/
def closingStop (plan : JoinTopology) (nodes : List OutcomeNodeState) (now : Nat)
    (stop : Option OutcomeStop) : Option OutcomeStop :=
  let dispatched := nodes.any (·.status = .dispatched)
  let attempted := nodes.any (·.status ≠ .pending)
  let complete := settledEverywhere nodes
  if stop.isNone ∧ dispatched = false ∧ attempted ∧ complete = false then
    strandedStop plan nodes now
  else stop

def phaseOf (nodes : List OutcomeNodeState) (stop : Option OutcomeStop) : OutcomeGraphPhase :=
  if stop.isSome then .stopped
  else if nodes.any (·.status = .dispatched) then .executing
  else if settledEverywhere nodes then .complete
  else if nodes.any (·.status ≠ .pending) then .executing
  else .ready

def closeState (plan : CompiledPlan) (state : OutcomeGraphState) (now : Nat) (routed : Routed) :
    OutcomeGraphState :=
  let nodes := canonicalNodes plan routed.nodes
  let stop := closingStop plan nodes now routed.stop
  { bodyVersion := CURRENT_OUTCOME_STATE_BODY
    graphId := state.graphId
    planRevision := state.planRevision
    phase := phaseOf nodes stop
    nodes := nodes
    loopTraversals := routed.loopTraversals
    attemptSeq := routed.attemptSeq
    stop := stop
    loopProgress := routed.loopProgress }

def routeSettled (plan : CompiledPlan) (state : OutcomeGraphState) (context : AdvanceContext)
    (decision : AcceptedDecision) (nodes : List OutcomeNodeState) :
    Except OutcomeAdvanceError Routed :=
  if isTerminal plan decision.nodeId decision.outcomeId then
    .ok
      { nodes := nodes
        loopTraversals := state.loopTraversals
        loopProgress := state.loopProgress
        attemptSeq := state.attemptSeq
        dispatches := []
        reports := []
        stop := none }
  else routeOutcome plan state context decision nodes

def advanceOutcomeGraph (plan : CompiledPlan) (state : OutcomeGraphState)
    (decision : AcceptedDecision) (context : AdvanceContext) :
    Except OutcomeAdvanceError OutcomeAdvance := do
  let (position, current, facts) ← dispatchedEntry plan state decision
  let nodes := state.nodes.set position
    (settleEntry current facts decision.outcomeId context.now)
  let routed ← routeSettled plan state context decision nodes
  return {
    state := closeState plan state context.now routed
    dispatches := routed.dispatches
    progress := routed.reports }

end Rolebox.Graph
