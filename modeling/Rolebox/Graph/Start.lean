import Rolebox.Graph.GraphState

/-! The starting state of a run: its entry nodes dispatched, every other node pending. -/

namespace Rolebox.Graph
open General

inductive OutcomeStartError where
  | noEntryNode (message : String)
  | inputBlocked (refusals : List DownstreamInputRefusal)
  | unusableCredential (message : String)

def freshProgress (group : CompiledLoopGroup) (policy : CompiledProgressPolicy) :
    OutcomeLoopProgress :=
  { loopGroupId := group.id
    evaluator := policy.evaluator
    version := policy.version
    subject := policy.subject
    unchanged := 0
    baseline := none }

def recordFresh (entries : PlainObject OutcomeLoopProgress) (group : CompiledLoopGroup) :
    PlainObject OutcomeLoopProgress :=
  match group.progress with
  | none => entries
  | some policy => entries.set group.id (freshProgress group policy)

def startProgress (plan : JoinTopology) : PlainObject OutcomeLoopProgress :=
  plan.loopGroups.foldl recordFresh .empty

def startNode (plan : CompiledPlan) (context : AdvanceContext) (progress : Dispatching)
    (node : CompiledNode) : Except OutcomeStartError Dispatching :=
  if node.id ∉ plan.entryNodesOf.map (·.id) then
    .ok { progress with
      nodes := progress.nodes ++
        [{ nodeId := node.id, progress := .pending, arrivals := [], inputRefusals := none }] }
  else
    let attemptSeq := progress.attemptSeq + 1
    let attemptId := node.id ++ "#" ++ toString attemptSeq
    match assembleDownstreamInput node.inputs (fun _ => none) (readAcceptedOf context) [] with
    | .blocked refusals => .error (.inputBlocked refusals)
    | .resolved entries =>
      match mintAttemptCredential context.credentials.source
          (attemptCredentialBinding plan.graphId node.id attemptId plan.planRevision) with
      | .error message => .error (.unusableCredential message)
      | .ok credential =>
        .ok
          { nodes := progress.nodes ++
              [{ nodeId := node.id
                 progress := .dispatched
                  { attemptId := attemptId
                    attemptSeq := attemptSeq
                    attemptCredentialDigest :=
                      context.credentials.attemptCredentialDigest credential
                    dispatchIdentity := context.dispatchIdentity
                    dispatchedAt := context.now
                    inputs := some entries }
                 arrivals := []
                 inputRefusals := none }]
            attemptSeq := attemptSeq
            dispatches := progress.dispatches ++
              [{ nodeId := node.id
                 attemptId := attemptId
                 agent := node.agent
                 prompt := node.prompt
                 credential := credential
                 inputs := entries }] }

def noEntryNodeMessage (plan : CompiledPlan) : String :=
  "outcome-runtime: plan revision " ++ plan.planRevision ++
    " declares no entry node — every node is the target of a non-loop edge, so " ++
    "there is no node a run could start from"

def startState (plan : CompiledPlan) (nodes : List OutcomeNodeState) (attemptSeq : Nat) :
    OutcomeGraphState :=
  { bodyVersion := CURRENT_OUTCOME_STATE_BODY
    graphId := plan.graphId
    planRevision := plan.planRevision
    phase := .executing
    nodes := nodes
    loopTraversals := .empty
    attemptSeq := attemptSeq
    stop := none
    loopProgress := startProgress plan }

def startOutcomeGraph (plan : CompiledPlan) (context : AdvanceContext) (fromAttemptSeq : Nat) :
    Except OutcomeStartError (OutcomeGraphState × List OutcomeDispatchIntent) :=
  if plan.entryNodesOf = [] then .error (.noEntryNode (noEntryNodeMessage plan))
  else do
    let started ← plan.nodes.foldlM (startNode plan context)
      { nodes := [], attemptSeq := fromAttemptSeq, dispatches := [] }
    return (startState plan started.nodes started.attemptSeq, started.dispatches)

end Rolebox.Graph
