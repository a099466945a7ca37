import Rolebox.Store.Executions

/-! One dispatch as the ledger stores it and as the host is asked about it. -/

namespace Rolebox.Graph
open General

inductive OutcomeExecutionLookup where
  | created (execution : Option HostExecutionIdentity)
  | absent
  | unknown (reason : String)
  deriving DecidableEq

def OutcomeExecutionLookup.text : OutcomeExecutionLookup → String
  | .created _ => "created"
  | .absent => "absent"
  | .unknown _ => "unknown"

def joinExecutionLookups («local» : OutcomeExecutionLookup) :
    Option OutcomeExecutionLookup → OutcomeExecutionLookup
  | none => «local»
  | some platform =>
    match «local», platform with
    | .created (some execution), .created _ => .created (some execution)
    | .created none, .created execution => .created execution
    | .created execution, _ => .created execution
    | _, .created execution => .created execution
    | .absent, _ => .absent
    | _, .absent => .absent
    | .unknown reason, .unknown _ => .unknown reason

def dispatchEffectIdOf (attemptId : String) : String := "dispatch:" ++ attemptId

def dispatchEffectKeyOf (graphId attemptId : String) : StoreEffectKey :=
  { graphId := graphId
    effectId := dispatchEffectIdOf attemptId
    attemptId := attemptId }

structure OutcomeDispatchTarget where
  graphId : String
  planRevision : String
  nodeId : String
  attemptId : String
  agent : String
  prompt : String
  inputs : Option (List ResolvedInput)

structure OutcomeDispatchRequest where
  graphId : String
  planRevision : String
  nodeId : String
  attemptId : String
  agent : String
  prompt : String
  outcomes : List CompiledOutcome
  completion : Option CompiledCompletionPolicy
  inputs : List ResolvedInput
  credential : String

def OutcomeDispatchTarget.json (target : OutcomeDispatchTarget) : Json :=
  .obj ([("graphId", .str target.graphId), ("planRevision", .str target.planRevision),
    ("nodeId", .str target.nodeId), ("attemptId", .str target.attemptId),
    ("agent", .str target.agent), ("prompt", .str target.prompt)] ++
    optionalField "inputs" (target.inputs.map fun inputs => .arr (inputs.map ResolvedInput.json)))

def readDispatchRequest (payload : Json) (graphId planRevision : String) :
    Except String OutcomeDispatchTarget := do
  if !payload.isRecord then
    throw ("a dispatch effect payload is " ++ describeValue payload ++
      ", not a dispatch request record")
  if (payload.field? "graphId").bind Json.text? ≠ some graphId then
    throw ("dispatch request names graph " ++ describeRead (payload.field? "graphId") ++
      ", not " ++ quote graphId)
  if (payload.field? "planRevision").bind Json.text? ≠ some planRevision then
    throw ("dispatch request names plan revision " ++
      describeRead (payload.field? "planRevision") ++ ", not " ++ quote planRevision)
  if (payload.field? "credential").isSome then
    throw ("a dispatch effect payload carries a credential — this runtime never persists " ++
      "one on an effect, so the row was not written by this runtime and is not launched")
  match (payload.field? "nodeId").bind Json.text?, (payload.field? "attemptId").bind Json.text?,
    (payload.field? "agent").bind Json.text?, (payload.field? "prompt").bind Json.text? with
  | some nodeId, some attemptId, some agent, some prompt =>
    let inputs ← (payload.field? "inputs").mapM fun value => readResolvedInputs value "$.inputs"
    return {
      graphId := graphId
      planRevision := planRevision
      nodeId := nodeId
      attemptId := attemptId
      agent := agent
      prompt := prompt
      inputs := inputs }
  | _, _, _, _ =>
    throw ("a dispatch request carries a node, attempt, agent and prompt that are not all " ++
      "non-empty strings")

def dispatchedNodeOf (state : OutcomeGraphState) (nodeId : String) : Option DispatchFacts :=
  match entryOf state.nodes nodeId with
  | some { progress := .dispatched facts, .. } => some facts
  | _ => none

def dispatchRequestOf (plan : CompiledPlan) (nodeId attemptId agent prompt : String)
    (inputs : List ResolvedInput) (credential : String) : Except String OutcomeDispatchRequest :=
  match plan.nodes.find? (·.id = nodeId) with
  | none => .error "outcome-runtime: dispatch node is absent from the compiled plan"
  | some node =>
    .ok
      { graphId := plan.graphId
        planRevision := plan.planRevision
        nodeId := nodeId
        attemptId := attemptId
        agent := agent
        prompt := prompt
        outcomes := node.outcomes
        completion := node.completion
        inputs := inputs
        credential := credential }
end Rolebox.Graph
