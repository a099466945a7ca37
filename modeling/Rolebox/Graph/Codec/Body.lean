import Rolebox.Graph.Codec.Values
import Rolebox.Graph.GraphState

/-! The state body of one run, and the reader that re-derives its facts. -/

namespace Rolebox.Graph
open General

inductive OutcomeStopReason where
  | loopExhausted
  | progressStalled
  | unreachablePendingNode

def OutcomeStopReason.text : OutcomeStopReason → String
  | .loopExhausted => "loop-exhausted"
  | .progressStalled => "progress-stalled"
  | .unreachablePendingNode => "unreachable-pending-node"

def OUTCOME_STOP_REASONS : List OutcomeStopReason :=
  [.loopExhausted, .progressStalled, .unreachablePendingNode]

/-- The two reasons a version-9 writer could record. -/
def OUTCOME_STATE_STOP_REASONS_V9 : List OutcomeStopReason := [.loopExhausted, .progressStalled]

def OutcomeGraphPhase.text : OutcomeGraphPhase → String
  | .ready => "ready"
  | .executing => "executing"
  | .complete => "complete"
  | .stopped => "stopped"

def OutcomeNodeStatus.text : OutcomeNodeStatus → String
  | .pending => "pending"
  | .dispatched => "dispatched"
  | .settled => "settled"

structure OutcomeStateLayout where
  version : Nat
  stopReasons : List OutcomeStopReason
  bodyKeys : List String
  phases : List OutcomeGraphPhase
  keys : OutcomeNodeStatus → List String

def outcomeStateLayout (version : Nat) (stopReasons : List OutcomeStopReason) :
    OutcomeStateLayout :=
  { version := version
    stopReasons := stopReasons
    bodyKeys := ["bodyVersion", "graphId", "planRevision", "phase", "nodes", "loopTraversals",
      "attemptSeq", "stop", "loopProgress"]
    phases := [.ready, .executing, .complete, .stopped]
    keys := fun
      | .pending => ["nodeId", "status", "arrivals", "inputRefusals"]
      | .dispatched => ["nodeId", "status", "attemptId", "attemptSeq", "attemptCredentialDigest",
          "dispatchedAt", "arrivals", "dispatchIdentity", "inputs", "inputRefusals"]
      | .settled => ["nodeId", "status", "attemptId", "attemptSeq", "attemptCredentialDigest",
          "dispatchedAt", "settledAt", "outcomeId", "arrivals", "dispatchIdentity", "inputs",
          "inputRefusals"] }

def OUTCOME_STATE_LAYOUT_V9 : OutcomeStateLayout :=
  outcomeStateLayout 9 OUTCOME_STATE_STOP_REASONS_V9

def OUTCOME_STATE_LAYOUT_V10 : OutcomeStateLayout :=
  outcomeStateLayout CURRENT_OUTCOME_STATE_BODY OUTCOME_STOP_REASONS

def optionalField (name : String) (value : Option Json) : List (String × Json) :=
  match value with
  | some value => [(name, value)]
  | none => []

def DispatchFacts.fields (facts : DispatchFacts) : List (String × Json) :=
  [("attemptId", .str facts.attemptId), ("attemptSeq", natJson facts.attemptSeq),
    ("attemptCredentialDigest", .str facts.attemptCredentialDigest)] ++
    optionalField "dispatchIdentity" (facts.dispatchIdentity.map (·.json)) ++
    [("dispatchedAt", natJson facts.dispatchedAt)] ++
    optionalField "inputs" (facts.inputs.map fun inputs => .arr (inputs.map ResolvedInput.json))

def NodeProgress.fields : NodeProgress → List (String × Json)
  | .pending => []
  | .dispatched facts => facts.fields
  | .settled facts outcomeId settledAt =>
    facts.fields ++ [("outcomeId", .str outcomeId), ("settledAt", natJson settledAt)]

def OutcomeNodeState.json (entry : OutcomeNodeState) : Json :=
  .obj ([("nodeId", .str entry.nodeId), ("status", .str entry.status.text)] ++
    entry.progress.fields ++
    [("arrivals", .arr (entry.arrivals.map OutcomeArrival.json))] ++
    optionalField "inputRefusals" (entry.inputRefusals.map fun refusals =>
      .arr (refusals.map DownstreamInputRefusal.json)))

def inheritedText (name : String) : String :=
  if name = "constructor" then "function Object() \x7b [native code] \x7d"
  else "function " ++ name ++ "() \x7b [native code] \x7d"

/-- A counter as JSON carries it; a text counter is the inherited property with its digits. -/
def CounterValue.json (name : String) : CounterValue → Json
  | .number n => natJson n
  | .text ones => .str (inheritedText name ++ String.ofList (List.replicate ones '1'))

def loopTraversalsJson (loopTraversals : PlainObject CounterValue) : Json :=
  .obj (loopTraversals.own.map fun field => (field.1, field.2.json field.1))

def OutcomeLoopProgress.json (entry : OutcomeLoopProgress) : Json :=
  .obj ([("loopGroupId", .str entry.loopGroupId), ("evaluator", .str entry.evaluator),
    ("version", natJson entry.version), ("subject", .str entry.subject),
    ("unchanged", natJson entry.unchanged)] ++
    optionalField "baseline" (entry.baseline.map Json.str))

def loopProgressJson (loopProgress : PlainObject OutcomeLoopProgress) : Json :=
  .obj (loopProgress.own.map fun field => (field.1, field.2.json))

def OutcomeStop.json : OutcomeStop → Json
  | .loopExhausted stop =>
    .obj
      [("reason", .str "loop-exhausted"), ("loopGroupId", .str stop.loopGroupId),
        ("nodeId", .str stop.nodeId), ("outcomeId", .str stop.outcomeId),
        ("attemptId", .str stop.attemptId), ("traversals", natJson stop.traversals),
        ("maxTraversals", natJson stop.maxTraversals), ("stoppedAt", natJson stop.stoppedAt)]
  | .progressStalled stop =>
    .obj
      [("reason", .str "progress-stalled"), ("loopGroupId", .str stop.loopGroupId),
        ("nodeId", .str stop.nodeId), ("outcomeId", .str stop.outcomeId),
        ("attemptId", .str stop.attemptId), ("unchanged", natJson stop.unchanged),
        ("maxUnchanged", natJson stop.maxUnchanged), ("evaluator", .str stop.evaluator),
        ("evaluatorVersion", natJson stop.evaluatorVersion), ("subject", .str stop.subject),
        ("baseline", .str stop.baseline), ("stoppedAt", natJson stop.stoppedAt)]
  | .unreachablePendingNode stop =>
    .obj
      [("reason", .str "unreachable-pending-node"),
        ("blockedNodes", .obj (stop.blockedNodes.own.map fun field =>
          (field.1, .arr (field.2.map Json.str)))),
        ("stoppedAt", natJson stop.stoppedAt)]

def OutcomeGraphState.json (state : OutcomeGraphState) : Json :=
  .obj ([("bodyVersion", natJson state.bodyVersion), ("graphId", .str state.graphId),
    ("planRevision", .str state.planRevision), ("phase", .str state.phase.text),
    ("nodes", .arr (state.nodes.map OutcomeNodeState.json)),
    ("loopTraversals", loopTraversalsJson state.loopTraversals),
    ("attemptSeq", natJson state.attemptSeq)] ++
    optionalField "stop" (state.stop.map OutcomeStop.json) ++
    [("loopProgress", loopProgressJson state.loopProgress)])

structure GraphStateRecord where
  graphId : String
  planRevision : String
  body : Json
  updatedAt : Nat

def stateRecordOf (state : OutcomeGraphState) (updatedAt : Nat) : GraphStateRecord :=
  { graphId := state.graphId
    planRevision := state.planRevision
    body := state.json
    updatedAt := updatedAt }

def readOptionalEpoch (raw : Json) (field place : String) : Except OutcomeStateError (Option Nat) :=
  match raw.field? field with
  | none => .ok none
  | some value =>
    match value.safeNat? with
    | some epoch => .ok (some epoch)
    | none =>
      .error (malformedState (place ++ "." ++ field ++ " is " ++ describeValue value ++
        ", not epoch milliseconds"))

def readNonEmptyId (value : Option Json) (place field : String) : Except OutcomeStateError String :=
  match value.bind Json.text? with
  | some id => .ok id
  | none =>
    .error (malformedState (place ++ "." ++ field ++ " is " ++ describeRead value ++
      ", not a non-empty identifier"))

def readPositiveCount (value : Option Json) (place field : String) : Except OutcomeStateError Nat :=
  match (value.bind Json.safeNat?).filter (0 < ·) with
  | some count => .ok count
  | none =>
    .error (malformedState (place ++ "." ++ field ++ " is " ++ describeRead value ++
      ", not a positive safe integer"))

def readDispatchIdentity (raw : Json) (place : String) :
    Except OutcomeStateError (Option HostInvocationIdentity) :=
  match raw.field? "dispatchIdentity" with
  | none => .ok none
  | some value =>
    match readHostInvocationIdentity value with
    | some identity => .ok (some identity)
    | none =>
      .error (malformedState (place ++ ".dispatchIdentity is not a host invocation identity"))

def readBoundInputs (raw : Json) (place : String) :
    Except OutcomeStateError (Option (List ResolvedInput)) :=
  match raw.field? "inputs" with
  | none => .ok none
  | some value =>
    match readResolvedInputs value (place ++ ".inputs") with
    | .ok entries => .ok (some entries)
    | .error message => .error (malformedState message)

def readNodeInputRefusals (raw : Json) (place : String) :
    Except OutcomeStateError (Option (List DownstreamInputRefusal)) :=
  match raw.field? "inputRefusals" with
  | none => .ok none
  | some value =>
    match readInputRefusals value (place ++ ".inputRefusals") with
    | .ok refusals => .ok (some refusals)
    | .error message => .error (malformedState message)

def rejectUnknownFields (raw : Json) (defined : List String) (place detail : String) :
    Except OutcomeStateError Unit :=
  match unknownField? raw defined with
  | none => .ok ()
  | some key =>
    .error (malformedState (place ++ " carries field " ++ quote key ++ ", which " ++ detail))

def requireStoppedAt (epoch : Option Nat) (place : String) : Except OutcomeStateError Nat :=
  match epoch with
  | some epoch => .ok epoch
  | none => .error (malformedState (place ++ " carries no stoppedAt timestamp"))

def require (holds : Bool) (message : String) : Except OutcomeStateError Unit :=
  if holds then .ok () else .error (malformedState message)

section Nodes
variable (plan : CompiledPlan) (layout : OutcomeStateLayout)

def readStatus (raw : Json) (place : String) : Except OutcomeStateError OutcomeNodeStatus :=
  match (raw.field? "status").bind Json.str? with
  | some "pending" => .ok .pending
  | some "dispatched" => .ok .dispatched
  | some "settled" => .ok .settled
  | _ =>
    .error (malformedState (place ++ ".status is " ++ describeRead (raw.field? "status") ++
      ", not pending, dispatched or settled"))

def readDispatchFacts (raw : Json) (status : OutcomeNodeStatus) (place : String)
    (dispatchIdentity : Option HostInvocationIdentity) (inputs : Option (List ResolvedInput))
    (dispatchedAt : Option Nat) : Except OutcomeStateError DispatchFacts :=
  match (raw.field? "attemptId").bind Json.text? with
  | none =>
    .error (malformedState (place ++ ".attemptId is " ++ describeRead (raw.field? "attemptId") ++
      ", not a non-empty attempt id"))
  | some attemptId =>
    match ((raw.field? "attemptSeq").bind Json.safeNat?).filter (0 < ·) with
    | none =>
      .error (malformedState (place ++ ".attemptSeq is " ++
        describeRead (raw.field? "attemptSeq") ++ ", not a positive safe integer"))
    | some attemptSeq =>
      match ((raw.field? "attemptCredentialDigest").bind Json.str?).filter
          isAttemptCredentialDigest with
      | none =>
        .error (malformedState (place ++ ".attemptCredentialDigest is " ++
          describeRead (raw.field? "attemptCredentialDigest") ++
          ", not the sha256 digest body version " ++ toString layout.version ++
          " requires on a " ++ status.text ++
          " node — this build persists only the digest of an attempt " ++
          "credential, so a record that carries anything else is refused rather " ++
          "than read as a verifier it is not"))
      | some attemptCredentialDigest =>
        match dispatchedAt with
        | none =>
          .error (malformedState (place ++ " is " ++ status.text ++
            " but carries no dispatchedAt timestamp"))
        | some dispatchedAt =>
          .ok
            { attemptId := attemptId
              attemptSeq := attemptSeq
              attemptCredentialDigest := attemptCredentialDigest
              dispatchIdentity := dispatchIdentity
              dispatchedAt := dispatchedAt
              inputs := inputs }

def readSettlement (raw : Json) (place : String) (settledAt : Option Nat) :
    Except OutcomeStateError (String × Nat) :=
  match (raw.field? "outcomeId").bind Json.text? with
  | none =>
    .error (malformedState (place ++ ".outcomeId is " ++ describeRead (raw.field? "outcomeId") ++
      ", not the non-empty outcome that settled the node"))
  | some outcomeId =>
    match settledAt with
    | none =>
      .error (malformedState (place ++ " is settled but carries no settledAt timestamp"))
    | some settledAt => .ok (outcomeId, settledAt)

def readProgress (raw : Json) (status : OutcomeNodeStatus) (place : String)
    (dispatchIdentity : Option HostInvocationIdentity) (inputs : Option (List ResolvedInput))
    (dispatchedAt settledAt : Option Nat) : Except OutcomeStateError NodeProgress := do
  match status with
  | .pending => return .pending
  | .dispatched =>
    let facts ← readDispatchFacts layout raw status place dispatchIdentity inputs dispatchedAt
    return .dispatched facts
  | .settled =>
    let facts ← readDispatchFacts layout raw status place dispatchIdentity inputs dispatchedAt
    let settlement ← readSettlement raw place settledAt
    return .settled facts settlement.1 settlement.2

def readNodeState (raw : Json) (expected : CompiledNode) (index : Nat) :
    Except OutcomeStateError OutcomeNodeState := do
  let place := "nodes[" ++ toString index ++ "]"
  require raw.isRecord (place ++ " is " ++ describeValue raw ++ ", not a node state record")
  require ((raw.field? "nodeId").bind Json.str? = some expected.id)
    (place ++ ".nodeId is " ++ describeRead (raw.field? "nodeId") ++ ", but the plan declares " ++
      quote expected.id ++ " at position " ++ toString index ++
      " — node progress is read in plan order")
  let status ← readStatus raw place
  rejectUnknownFields raw (layout.keys status) place
    ("body version " ++ toString layout.version ++ " does not define for a " ++ status.text ++
      " node — an unknown field is refused rather than dropped")
  let dispatchIdentity ← readDispatchIdentity raw place
  let inputs ← readBoundInputs raw place
  let inputRefusals ← readNodeInputRefusals raw place
  let dispatchedAt ← readOptionalEpoch raw "dispatchedAt" place
  let settledAt ← readOptionalEpoch raw "settledAt" place
  let arrivals ← readArrivals plan expected.id place (raw.field? "arrivals")
  let progress ← readProgress layout raw status place dispatchIdentity inputs dispatchedAt settledAt
  return {
    nodeId := expected.id
    progress := progress
    arrivals := arrivals
    inputRefusals := inputRefusals }

def readNodeStates : Nat → List CompiledNode → List Json →
    Except OutcomeStateError (List OutcomeNodeState)
  | index, node :: nodes, raw :: rest => do
    let entry ← readNodeState plan layout raw node index
    let others ← readNodeStates (index + 1) nodes rest
    return entry :: others
  | _, _, _ => .ok []

def describeArrivals (arrivals : List OutcomeArrival) : String :=
  "[" ++ joinWith ", " (arrivals.map fun arrival =>
    quote (arrival.from ++ ":" ++ arrival.outcome ++ "@" ++ arrival.attemptId)) ++ "]"

def verifyArrivals (nodes : List OutcomeNodeState) : Except OutcomeStateError Unit :=
  match nodes.zipIdx.find? fun p =>
      p.1.arrivals ≠ materializeArrivals plan nodes [] p.1.nodeId with
  | none => .ok ()
  | some (entry, index) =>
    .error (malformedState ("nodes[" ++ toString index ++ "].arrivals is " ++
      describeArrivals entry.arrivals ++ ", but the node entries and the plan's edges corroborate " ++
      describeArrivals (materializeArrivals plan nodes [] entry.nodeId) ++
      " — the arrival list is refused rather than trusted or silently corrected"))

end Nodes

section Records
variable (plan : CompiledPlan)

def readCounter (counters : PlainObject CounterValue) (field : String × Json) :
    Except OutcomeStateError (PlainObject CounterValue) :=
  if field.1 ∉ plan.loopGroups.map (·.id) then
    .error (malformedState ("loopTraversals names loop group " ++ quote field.1 ++
      ", which plan revision " ++ plan.planRevision ++ " does not declare"))
  else
    match field.2.safeNat? with
    | some count => .ok (counters.setPrimitive field.1 (.number count))
    | none =>
      .error (malformedState ("loopTraversals[" ++ quote field.1 ++ "] is " ++
        describeValue field.2 ++ ", not a non-negative safe integer"))

def readLoopTraversals (raw : Option Json) : Except OutcomeStateError (PlainObject CounterValue) :=
  match raw with
  | some (.obj fields) => fields.foldlM (readCounter plan) .empty
  | other =>
    .error (malformedState ("loopTraversals is " ++ describeRead other ++
      ", not a record of counters"))

def OUTCOME_LOOP_PROGRESS_KEYS : List String :=
  ["loopGroupId", "evaluator", "version", "subject", "unchanged", "baseline"]

def readToken (value : Json) : Option String :=
  value.text?.filter fun token => (codeUnits token).length ≤ PROGRESS_VALUE_MAX_LENGTH

def readBaseline (raw : Json) (place : String) : Except OutcomeStateError (Option String) :=
  match raw.field? "baseline" with
  | none => .ok none
  | some value =>
    match readToken value with
    | some token => .ok (some token)
    | none =>
      let described := match value with
        | .str text =>
          if text = "" then "an empty string"
          else "a " ++ toString (codeUnits text).length ++ "-character string"
        | other => describeValue other
      .error (malformedState (place ++ ".baseline is " ++ described ++
        ", not a revision token of 1 to " ++ toString PROGRESS_VALUE_MAX_LENGTH ++
        " characters — a projection never records more than the bound, and prefixes are never " ++
        "compared"))

def readUnchanged (raw : Json) (place : String) : Except OutcomeStateError Nat :=
  match (raw.field? "unchanged").bind Json.safeNat? with
  | some unchanged => .ok unchanged
  | none =>
    .error (malformedState (place ++ ".unchanged is " ++ describeRead (raw.field? "unchanged") ++
      ", not a non-negative safe integer"))

def readLoopProgressEntry (raw : Json) (groupId : String) (policy : CompiledProgressPolicy) :
    Except OutcomeStateError OutcomeLoopProgress := do
  let place := "loopProgress[" ++ quote groupId ++ "]"
  require raw.isRecord (place ++ " is " ++ describeValue raw ++ ", not a progress record")
  rejectUnknownFields raw OUTCOME_LOOP_PROGRESS_KEYS place
    "a progress record does not define — an unknown field is refused rather than dropped"
  require ((raw.field? "loopGroupId").bind Json.str? = some groupId)
    (place ++ ".loopGroupId is " ++ describeRead (raw.field? "loopGroupId") ++
      ", but the entry is keyed by " ++ quote groupId)
  let evaluator ← readNonEmptyId (raw.field? "evaluator") place "evaluator"
  require (evaluator = policy.evaluator)
    (place ++ ".evaluator is " ++ quote evaluator ++ ", but loop group " ++ quote groupId ++
      " declares the comparison semantics " ++ quote policy.evaluator ++
      " — a baseline recorded under another evaluator is refused rather than compared")
  let subject ← readNonEmptyId (raw.field? "subject") place "subject"
  require (subject = policy.subject)
    (place ++ ".subject is " ++ quote subject ++ ", but loop group " ++ quote groupId ++
      " declares " ++ quote policy.subject ++ " as its comparison object")
  let version ← readPositiveCount (raw.field? "version") place "version"
  let unchanged ← readUnchanged raw place
  let baseline ← readBaseline raw place
  return {
    loopGroupId := groupId
    evaluator := evaluator
    version := version
    subject := subject
    unchanged := unchanged
    baseline := baseline }

def policyOf (groupId : String) : Option CompiledProgressPolicy :=
  ((plan.loopGroups.filter (·.id = groupId)).filterMap (·.progress)).getLast?

def readProgressField (entries : PlainObject OutcomeLoopProgress) (field : String × Json) :
    Except OutcomeStateError (PlainObject OutcomeLoopProgress) :=
  match policyOf plan field.1 with
  | none =>
    .error (malformedState ("loopProgress names loop group " ++ quote field.1 ++
      (if field.1 ∈ plan.loopGroups.map (·.id) then
        ", which plan revision " ++ plan.planRevision ++
          " declares WITHOUT a progress policy — a baseline no declaration asks for is " ++
          "refused rather than read"
      else ", which plan revision " ++ plan.planRevision ++ " does not declare")))
  | some policy => do
    let entry ← readLoopProgressEntry field.2 field.1 policy
    return entries.set field.1 entry

def readLoopProgress (raw : Option Json) :
    Except OutcomeStateError (PlainObject OutcomeLoopProgress) :=
  match raw with
  | some (.obj fields) => do
    let entries ← fields.foldlM (readProgressField plan) .empty
    match plan.loopGroups.find? fun group =>
        group.progress ≠ none ∧ entries.own? group.id = none with
    | none => return entries
    | some group =>
      throw (malformedState ("loopProgress carries no entry for loop group " ++ quote group.id ++
        ", whose plan declares a progress policy — the writer records one progress entry per " ++
        "declared policy, so a missing one cannot be told from a lost baseline"))
  | other =>
    .error (malformedState ("loopProgress is " ++ describeRead other ++
      ", not a record of per-loop-group progress (body version " ++
      toString CURRENT_OUTCOME_STATE_BODY ++ " defines one entry per declared progress policy)"))

end Records

section Stops
variable (plan : CompiledPlan) (layout : OutcomeStateLayout)

def OUTCOME_LOOP_EXHAUSTED_STOP_KEYS : List String :=
  ["reason", "loopGroupId", "nodeId", "outcomeId", "attemptId", "traversals", "maxTraversals",
    "stoppedAt"]

def readLoopExhaustedStop (raw : Json) (place : String) : Except OutcomeStateError OutcomeStop := do
  rejectUnknownFields raw OUTCOME_LOOP_EXHAUSTED_STOP_KEYS place
    "a loop-exhausted stop does not define — an unknown field is refused rather than dropped"
  let loopGroupId ← readNonEmptyId (raw.field? "loopGroupId") place "loopGroupId"
  let nodeId ← readNonEmptyId (raw.field? "nodeId") place "nodeId"
  let outcomeId ← readNonEmptyId (raw.field? "outcomeId") place "outcomeId"
  let attemptId ← readNonEmptyId (raw.field? "attemptId") place "attemptId"
  let traversals ← readPositiveCount (raw.field? "traversals") place "traversals"
  let maxTraversals ← readPositiveCount (raw.field? "maxTraversals") place "maxTraversals"
  let epoch ← readOptionalEpoch raw "stoppedAt" place
  let stoppedAt ← requireStoppedAt epoch place
  return .loopExhausted
    { loopGroupId := loopGroupId
      nodeId := nodeId
      outcomeId := outcomeId
      attemptId := attemptId
      traversals := traversals
      maxTraversals := maxTraversals
      stoppedAt := stoppedAt }

def OUTCOME_PROGRESS_STALLED_STOP_KEYS : List String :=
  ["reason", "loopGroupId", "nodeId", "outcomeId", "attemptId", "unchanged", "maxUnchanged",
    "evaluator", "evaluatorVersion", "subject", "baseline", "stoppedAt"]

def readStopBaseline (raw : Json) (place : String) : Except OutcomeStateError String :=
  match (raw.field? "baseline").bind readToken with
  | some token => .ok token
  | none =>
    .error (malformedState (place ++ ".baseline is " ++ describeRead (raw.field? "baseline") ++
      ", not the non-empty revision token the run stood still on"))

def readProgressStalledStop (raw : Json) (place : String) :
    Except OutcomeStateError OutcomeStop := do
  rejectUnknownFields raw OUTCOME_PROGRESS_STALLED_STOP_KEYS place
    "a progress-stalled stop does not define — an unknown field is refused rather than dropped"
  let loopGroupId ← readNonEmptyId (raw.field? "loopGroupId") place "loopGroupId"
  let nodeId ← readNonEmptyId (raw.field? "nodeId") place "nodeId"
  let outcomeId ← readNonEmptyId (raw.field? "outcomeId") place "outcomeId"
  let attemptId ← readNonEmptyId (raw.field? "attemptId") place "attemptId"
  let unchanged ← readPositiveCount (raw.field? "unchanged") place "unchanged"
  let maxUnchanged ← readPositiveCount (raw.field? "maxUnchanged") place "maxUnchanged"
  let evaluator ← readNonEmptyId (raw.field? "evaluator") place "evaluator"
  let evaluatorVersion ← readPositiveCount (raw.field? "evaluatorVersion") place "evaluatorVersion"
  let subject ← readNonEmptyId (raw.field? "subject") place "subject"
  let baseline ← readStopBaseline raw place
  let epoch ← readOptionalEpoch raw "stoppedAt" place
  let stoppedAt ← requireStoppedAt epoch place
  return .progressStalled
    { loopGroupId := loopGroupId
      nodeId := nodeId
      outcomeId := outcomeId
      attemptId := attemptId
      unchanged := unchanged
      maxUnchanged := maxUnchanged
      evaluator := evaluator
      evaluatorVersion := evaluatorVersion
      subject := subject
      baseline := baseline
      stoppedAt := stoppedAt }

def OUTCOME_UNREACHABLE_PENDING_NODE_STOP_KEYS : List String :=
  ["reason", "blockedNodes", "stoppedAt"]

def readFeeders (place : String) : Nat → List Json → Except OutcomeStateError (List String)
  | _, [] => .ok []
  | index, raw :: rest => do
    let feeder ← readNonEmptyId (some raw) place (toString index)
    let others ← readFeeders place (index + 1) rest
    return feeder :: others

def readBlockedNode (place : String) (blocked : PlainObject (List String))
    (field : String × Json) : Except OutcomeStateError (PlainObject (List String)) :=
  match field.2 with
  | .arr items => do
    let feeders ← readFeeders (place ++ ".blockedNodes[" ++ quote field.1 ++ "]") 0 items
    return blocked.set field.1 (sortText feeders)
  | other =>
    .error (malformedState (place ++ ".blockedNodes[" ++ quote field.1 ++ "] is " ++
      describeValue other ++ ", not the list of feeder ids that can never arrive"))

def readBlockedNodes (raw : Json) (place : String) :
    Except OutcomeStateError (PlainObject (List String)) :=
  match raw.field? "blockedNodes" with
  | some (.obj fields) => fields.foldlM (readBlockedNode place) .empty
  | other =>
    .error (malformedState (place ++ ".blockedNodes is " ++ describeRead other ++
      ", not the record of stranded node ids the stop reports"))

def readUnreachablePendingNodeStop (raw : Json) (place : String) :
    Except OutcomeStateError OutcomeStop := do
  rejectUnknownFields raw OUTCOME_UNREACHABLE_PENDING_NODE_STOP_KEYS place
    ("an unreachable-pending-node stop does not define — an unknown field is refused rather " ++
      "than dropped")
  let blockedNodes ← readBlockedNodes raw place
  let epoch ← readOptionalEpoch raw "stoppedAt" place
  let stoppedAt ← requireStoppedAt epoch place
  return .unreachablePendingNode { blockedNodes := blockedNodes, stoppedAt := stoppedAt }

def readStopReason (value : Option Json) (place : String) :
    Except OutcomeStateError OutcomeStopReason :=
  match layout.stopReasons.find? fun declared => value.bind Json.str? = some declared.text with
  | some declared => .ok declared
  | none =>
    .error (malformedState (place ++ ".stop.reason is " ++ describeRead value ++
      ", not a stop reason body version " ++ toString layout.version ++
      " defines — the vocabulary is closed and every member is a condition " ++
      "decided from the plan and the state [" ++
      joinWith ", " (layout.stopReasons.map (·.text)) ++ "]"))

def readStop (raw : Option Json) (phase : OutcomeGraphPhase) (place : String) :
    Except OutcomeStateError (Option OutcomeStop) :=
  if phase ≠ .stopped then
    match raw with
    | none => .ok none
    | some _ =>
      .error (malformedState (place ++ ".stop is present, but phase is " ++ quote phase.text ++
        " — a stop record and the phase of `stopped` are the same fact written twice, and " ++
        "this body states them differently"))
  else
    match raw.filter Json.isRecord with
    | none =>
      .error (malformedState (place ++ ".stop is " ++ describeRead raw ++
        ", not the stop record a stopped run carries — a body that ended cannot leave the " ++
        "reason unrecorded"))
    | some record => do
      let reason ← readStopReason layout (record.field? "reason") place
      let stop ← match reason with
        | .loopExhausted => readLoopExhaustedStop record (place ++ ".stop")
        | .progressStalled => readProgressStalledStop record (place ++ ".stop")
        | .unreachablePendingNode => readUnreachablePendingNodeStop record (place ++ ".stop")
      return some stop

def describeNodeEntry (entry : Option OutcomeNodeState) : String :=
  match entry with
  | none => "none"
  | some entry =>
    match entry.progress with
    | .pending => "pending"
    | .dispatched facts => "dispatched on " ++ facts.attemptId
    | .settled facts outcomeId _ => "settled on " ++ facts.attemptId ++ " by " ++ outcomeId

def requireSettling (nodes : List OutcomeNodeState) (nodeId outcomeId attemptId : String) :
    Except OutcomeStateError Unit :=
  require (settlementOf nodes nodeId = some (outcomeId, attemptId))
    ("the stop records attempt " ++ quote attemptId ++ " of node " ++ quote nodeId ++
      " settling with outcome " ++ quote outcomeId ++ ", but the node entries do not " ++
      "(entry: " ++ describeNodeEntry (entryOf nodes nodeId) ++
      ") — a stop no accepted outcome corroborates is refused rather than trusted")

def findStopGroup (loopGroupId : String) : Except OutcomeStateError CompiledLoopGroup :=
  match plan.loopGroups.find? (·.id = loopGroupId) with
  | some group => .ok group
  | none =>
    .error (malformedState ("the stop names loop group " ++ quote loopGroupId ++
      ", which plan revision " ++ plan.planRevision ++ " does not declare"))

def requireContinuation (group : CompiledLoopGroup) (nodeId outcomeId : String) :
    Except OutcomeStateError Unit := do
  require (nodeId ∈ group.nodes)
    ("the stop names node " ++ quote nodeId ++ ", which is not a member of loop " ++
      "group " ++ quote group.id)
  require (group.continuationOutcome = outcomeId)
    ("the stop names outcome " ++ quote outcomeId ++ ", but loop group " ++ quote group.id ++
      " declares " ++ quote group.continuationOutcome ++ " as its continuation")

def verifyLoopExhaustedStop (nodes : List OutcomeNodeState)
    (loopTraversals : PlainObject CounterValue) (stop : OutcomeLoopExhaustedStop) :
    Except OutcomeStateError Unit := do
  let group ← findStopGroup plan stop.loopGroupId
  require (group.maxTraversals = stop.maxTraversals)
    ("the stop records a hard cap of " ++ toString stop.maxTraversals ++ " for loop group " ++
      quote stop.loopGroupId ++ ", but the plan declares " ++ toString group.maxTraversals)
  requireContinuation group stop.nodeId stop.outcomeId
  requireSettling nodes stop.nodeId stop.outcomeId stop.attemptId
  let recorded := recordedTraversals loopTraversals stop.loopGroupId
  require (recorded = stop.traversals)
    ("the stop records " ++ toString stop.traversals ++ " traversal(s) of loop group " ++
      quote stop.loopGroupId ++ ", but loopTraversals records " ++ toString recorded)
  require (stop.traversals = stop.maxTraversals)
    ("the stop records traversal " ++ toString stop.traversals ++ " of a cap of " ++
      toString stop.maxTraversals ++
      " — a cap refused the round that would have EXCEEDED it, so the counter it stopped on " ++
      "is the cap itself")

def requirePolicy (stop : OutcomeProgressStalledStop) (group : CompiledLoopGroup) :
    Except OutcomeStateError Unit := do
  match group.progress with
  | none =>
    throw (malformedState ("the stop is a progress-stalled stop on loop group " ++
      quote stop.loopGroupId ++
      ", but the plan declares no progress policy for that group — a stop no declared " ++
      "stopping policy can produce is refused rather than trusted"))
  | some policy =>
    require (policy.maxUnchanged = stop.maxUnchanged)
      ("the stop records a stagnation threshold of " ++ toString stop.maxUnchanged ++
        " for loop group " ++ quote stop.loopGroupId ++ ", but the plan declares " ++
        toString policy.maxUnchanged)
    require (policy.evaluator = stop.evaluator)
      ("the stop names evaluator " ++ quote stop.evaluator ++ ", but loop group " ++
        quote stop.loopGroupId ++ " declares " ++ quote policy.evaluator)
    require (policy.subject = stop.subject)
      ("the stop names comparison subject " ++ quote stop.subject ++ ", but loop group " ++
        quote stop.loopGroupId ++ " declares " ++ quote policy.subject)

def requireComparison (loopProgress : PlainObject OutcomeLoopProgress)
    (stop : OutcomeProgressStalledStop) : Except OutcomeStateError Unit := do
  match loopProgress.get stop.loopGroupId with
  | .value progress =>
    require (progress.evaluator = stop.evaluator ∧ progress.version = stop.evaluatorVersion ∧
        progress.subject = stop.subject)
      ("the stop records the comparison under evaluator " ++ quote stop.evaluator ++
        " version " ++ toString stop.evaluatorVersion ++ " on subject " ++ quote stop.subject ++
        ", but loopProgress records " ++ quote progress.evaluator ++ " version " ++
        toString progress.version ++ " on subject " ++ quote progress.subject)
    require (progress.unchanged = stop.unchanged)
      ("the stop records " ++ toString stop.unchanged ++
        " consecutive unchanged comparison(s) of loop group " ++ quote stop.loopGroupId ++
        ", but loopProgress records " ++ toString progress.unchanged)
    require (progress.baseline = some stop.baseline)
      ("the stop records the baseline " ++ quote stop.baseline ++ " of loop group " ++
        quote stop.loopGroupId ++ ", but loopProgress records " ++
        ((progress.baseline.map quote).getD "none"))
  | _ =>
    throw (malformedState ("the stop names loop group " ++ quote stop.loopGroupId ++
      ", but loopProgress records no progress for it"))

def verifyProgressStalledStop (nodes : List OutcomeNodeState)
    (loopProgress : PlainObject OutcomeLoopProgress) (stop : OutcomeProgressStalledStop) :
    Except OutcomeStateError Unit := do
  let group ← findStopGroup plan stop.loopGroupId
  requirePolicy stop group
  requireContinuation group stop.nodeId stop.outcomeId
  requireSettling nodes stop.nodeId stop.outcomeId stop.attemptId
  requireComparison loopProgress stop
  require (stop.unchanged = stop.maxUnchanged)
    ("the stop records " ++ toString stop.unchanged ++
      " unchanged comparison(s) of a threshold of " ++ toString stop.maxUnchanged ++
      " — the declared policy stops the run AT the threshold, so the counter it stopped on " ++
      "is the threshold itself")

def requireStranded (nodes : List OutcomeNodeState) (nodeId : String) :
    Except OutcomeStateError Unit := do
  require (nodeId ∈ plan.nodeIds)
    ("the stop names node " ++ quote nodeId ++ ", which plan revision " ++ plan.planRevision ++
      " does not declare")
  require ((nodes.filter (·.status = .pending)).any (·.nodeId = nodeId))
    ("the stop names node " ++ quote nodeId ++
      " as abandoned, but the node entries do not hold it PENDING — a stop no state " ++
      "corroborates is refused rather than trusted")

def requireFeeders (stop : OutcomeUnreachablePendingNodeStop) (nodeId : String) :
    Except OutcomeStateError Unit :=
  let feeders := sortText (plan.feederSourcesOf nodeId)
  let named := (stop.blockedNodes.own? nodeId).getD []
  require (joinWith "\x00" named = joinWith "\x00" feeders)
    ("the stop reports feeder(s) [" ++ joinWith ", " named ++
      "] that can never arrive at node " ++ quote nodeId ++
      ", but the join of that node waits for [" ++ joinWith ", " feeders ++ "]")

def verifyUnreachablePendingNodeStop (nodes : List OutcomeNodeState)
    (stop : OutcomeUnreachablePendingNodeStop) : Except OutcomeStateError Unit := do
  let recorded := sortText stop.blockedNodes.keys
  let corroborated := sortText (unsatisfiablePendingNodes plan nodes).keys
  recorded.forM (requireStranded plan nodes)
  require (joinWith "\x00" recorded = joinWith "\x00" corroborated)
    ("the stop reports the stranded nodes [" ++ joinWith ", " recorded ++
      "], but the node entries and the plan strand [" ++ joinWith ", " corroborated ++
      "] — a stop is the state's own condition, so a disagreement is refused rather than " ++
      "corrected")
  recorded.forM (requireFeeders plan stop)

def verifyStop (nodes : List OutcomeNodeState) (loopTraversals : PlainObject CounterValue)
    (loopProgress : PlainObject OutcomeLoopProgress) :
    Option OutcomeStop → Except OutcomeStateError Unit
  | none => .ok ()
  | some (.loopExhausted stop) => verifyLoopExhaustedStop plan nodes loopTraversals stop
  | some (.progressStalled stop) => verifyProgressStalledStop plan nodes loopProgress stop
  | some (.unreachablePendingNode stop) => verifyUnreachablePendingNodeStop plan nodes stop

def OutcomeStop.isStalled : OutcomeStop → Bool
  | .progressStalled _ => true
  | _ => false

def verifyGroupProgress (loopProgress : PlainObject OutcomeLoopProgress)
    (stop : Option OutcomeStop) (group : CompiledLoopGroup) : Except OutcomeStateError Unit :=
  match group.progress with
  | none => .ok ()
  | some policy =>
    match loopProgress.get group.id with
    | .value entry => do
      require (entry.unchanged ≤ policy.maxUnchanged)
        ("loopProgress[" ++ quote group.id ++ "].unchanged is " ++ toString entry.unchanged ++
          ", above the declared stagnation threshold " ++ toString policy.maxUnchanged ++
          " — the policy stops the run at the threshold, so no writer records more")
      require (stop.any (·.isStalled) ∨ entry.unchanged ≠ policy.maxUnchanged)
        ("loopProgress[" ++ quote group.id ++ "].unchanged stands on the declared " ++
          "stagnation threshold " ++ toString policy.maxUnchanged ++
          ", but the body carries no progress-stalled stop — a run that reached the threshold " ++
          "stops there")
    | _ =>
      .error (malformedState ("loopProgress carries no entry for loop group " ++ quote group.id ++
        ", whose plan declares a progress policy"))

def verifyProgress (loopProgress : PlainObject OutcomeLoopProgress) (stop : Option OutcomeStop) :
    Except OutcomeStateError Unit :=
  plan.loopGroups.forM (verifyGroupProgress loopProgress stop)

end Stops

section Body
variable (plan : CompiledPlan) (layout : OutcomeStateLayout)

def readPhase (raw : Option Json) : Except OutcomeStateError OutcomeGraphPhase :=
  match layout.phases.find? fun declared => raw.bind Json.str? = some declared.text with
  | some phase => .ok phase
  | none =>
    .error (malformedState ("phase is " ++ describeRead raw ++ ", not " ++
      joinWith ", " (layout.phases.map (·.text)) ++ " — the phase vocabulary of body version " ++
      toString layout.version ++ " is closed"))

def readAttemptSeq (raw : Option Json) : Except OutcomeStateError Nat :=
  match raw.bind Json.safeNat? with
  | some attemptSeq => .ok attemptSeq
  | none =>
    .error (malformedState ("attemptSeq is " ++ describeRead raw ++
      ", not a non-negative safe integer"))

def readNodes (raw : Option Json) : Except OutcomeStateError (List OutcomeNodeState) :=
  match (raw.bind Json.arr?).filter (·.length = plan.nodes.length) with
  | some items => readNodeStates plan layout 0 plan.nodes items
  | none =>
    .error (malformedState ("nodes is " ++
      (match raw.bind Json.arr? with
        | some items => toString items.length ++ " entries"
        | none => describeRead raw) ++
      ", but plan revision " ++ plan.planRevision ++ " declares " ++
      toString plan.nodes.length ++
      " node(s) — the state carries one entry per compiled node"))

def readStateBody (body : Json) : Except OutcomeStateError OutcomeGraphState := do
  rejectUnknownFields body layout.bodyKeys "the body"
    ("body version " ++ toString layout.version ++
      " does not define — an unknown field is refused rather than dropped; adding a " ++
      "field is a new body version")
  require ((body.field? "graphId").bind Json.str? = some plan.graphId)
    ("the body names graph " ++ describeRead (body.field? "graphId") ++
      ", but the record and the plan name " ++ quote plan.graphId)
  require ((body.field? "planRevision").bind Json.str? = some plan.planRevision)
    ("the body names plan revision " ++ describeRead (body.field? "planRevision") ++
      ", but the record and the plan name " ++ quote plan.planRevision)
  let phase ← readPhase layout (body.field? "phase")
  let stop ← readStop layout (body.field? "stop") phase "the body"
  let attemptSeq ← readAttemptSeq (body.field? "attemptSeq")
  let nodes ← readNodes plan layout (body.field? "nodes")
  verifyArrivals plan nodes
  let loopTraversals ← readLoopTraversals plan (body.field? "loopTraversals")
  let loopProgress ← readLoopProgress plan (body.field? "loopProgress")
  verifyStop plan nodes loopTraversals loopProgress stop
  verifyProgress plan loopProgress stop
  return {
    bodyVersion := layout.version
    graphId := plan.graphId
    planRevision := plan.planRevision
    phase := phase
    nodes := nodes
    loopTraversals := loopTraversals
    attemptSeq := attemptSeq
    stop := stop
    loopProgress := loopProgress }

structure OutcomeStateBodyRegistry where
  current : Nat
  formats : List OutcomeStateLayout

def DEFAULT_OUTCOME_STATE_BODY_REGISTRY : OutcomeStateBodyRegistry :=
  { current := CURRENT_OUTCOME_STATE_BODY
    formats := [OUTCOME_STATE_LAYOUT_V9, OUTCOME_STATE_LAYOUT_V10] }

inductive OutcomeStateBodyVerdict where
  | supported (layout : OutcomeStateLayout)
  | unsupported (version : Nat)
  | invalid (value : Option Json)

def classifyOutcomeStateBody (version : Option Json) (registry : OutcomeStateBodyRegistry) :
    OutcomeStateBodyVerdict :=
  match (version.bind Json.safeNat?).filter (0 < ·) with
  | none => .invalid version
  | some number =>
    match registry.formats.find? (·.version = number) with
    | some layout => .supported layout
    | none => .unsupported number

def readOutcomeGraphState (record : GraphStateRecord)
    (registry : OutcomeStateBodyRegistry) : Except OutcomeStateError OutcomeGraphState := do
  if record.graphId ≠ plan.graphId then
    throw
      { problem := .statePlanMismatch
        message := "outcome-state: the persisted state belongs to graph " ++
          quote record.graphId ++ ", but the plan in hand is the compiled plan of " ++
          quote plan.graphId }
  if record.planRevision ≠ plan.planRevision then
    throw
      { problem := .statePlanMismatch
        message := "outcome-state: the persisted state is bound to plan revision " ++
          quote record.planRevision ++ ", but the plan in hand is revision " ++
          quote plan.planRevision ++
          " — a state is never read as the state of another revision" }
  require record.body.isRecord
    ("the body is " ++ describeValue record.body ++ ", not a state record")
  match classifyOutcomeStateBody (record.body.field? "bodyVersion") registry with
  | .invalid value =>
    throw (malformedState ("bodyVersion is " ++ describeRead value ++
      ", not a state-body version — a persisted state body declares the layout it was " ++
      "written in, and this build writes body version " ++ toString registry.current))
  | .unsupported version =>
    throw
      { problem := .unsupportedStateVersion
        message := "outcome-state: the persisted graph state declares body version " ++
          toString version ++ ", but this build has no reader for it (it reads body version " ++
          joinWith ", " (registry.formats.map fun layout => toString layout.version) ++
          ") — the state is refused instead of being read partially and rewritten, so nothing " ++
          "was resumed and no field was dropped" }
  | .supported layout => readStateBody plan layout record.body

end Body
end Rolebox.Graph
