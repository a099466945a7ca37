import Rolebox.Outcome.DispatchEffects
import Rolebox.Store.Budget
import Rolebox.Store.Ledger
import Rolebox.Store.RunChain

/-! The transactions that write effect rows. -/

namespace Rolebox.Graph
open General Transaction

structure ArmedAttempt where
  nodeId : String
  attemptId : String
  limits : NodeBudgetLimits
  retention : CredentialRetention
  credential : Option String
  target : OutcomeDispatchTarget

def ArmedAttempt.effect (armed : ArmedAttempt) (graphId : String) (at' : Nat) :
    PendingEffectRecord :=
  { graphId := graphId
    runId := none
    effectId := dispatchEffectIdOf armed.attemptId
    attemptId := armed.attemptId
    kind := "dispatch"
    payload := armed.target.json
    createdAt := at'
    status := .pending }

def CANCEL_EFFECT_KIND : String := "cancel"

def cancelEffectIdOf (attemptId : String) : String := "cancel:" ++ attemptId

structure OutcomeCancelIntentInput where
  graphId : String
  nodeId : String
  attemptId : String
  reason : String
  requestedAt : Nat
  execution : Option HostExecutionIdentity

def OutcomeCancelIntentInput.target (input : OutcomeCancelIntentInput) : Json :=
  .obj ([("graphId", .str input.graphId), ("nodeId", .str input.nodeId),
    ("attemptId", .str input.attemptId), ("reason", .str input.reason),
    ("requestedAt", .num input.requestedAt)] ++
    optionalField "executionId" (input.execution.map fun execution => .str execution.executionId) ++
    optionalField "taskId" ((input.execution.bind fun execution => execution.taskId).map .str))

def cancelEffectOf (input : OutcomeCancelIntentInput) : PendingEffectRecord :=
  { graphId := input.graphId
    runId := none
    effectId := cancelEffectIdOf input.attemptId
    attemptId := input.attemptId
    kind := CANCEL_EFFECT_KIND
    payload := input.target
    createdAt := input.requestedAt
    status := .pending }

def recordCancelIntent (input : OutcomeCancelIntentInput) : StoreTx PUnit :=
  writeEffect (cancelEffectOf input)

def budgetExhausted (armed : ArmedAttempt) (exhausted : List BudgetExhaustion) : StoreFailure :=
  .failed ("outcome-runtime: the dispatch of node " ++ quote armed.nodeId ++ " as attempt " ++
    quote armed.attemptId ++ " was NOT authorized by the declared budget (" ++
    "; ".intercalate (exhausted.map BudgetExhaustion.message) ++
    ") — no attempt, state change, effect or credential record was written for it, and " ++
    "an attempt already in flight is not affected: its own claim stands and it runs to " ++
    "its settlement")

def reserveDispatchIn (graphId runId : String) (maxExecutions : Option Nat) (at' : Nat)
    (armed : ArmedAttempt) : StoreTx PUnit := do
  let claimed ← BudgetTables.reserveDispatch
    { maxExecutions := maxExecutions
      graphId := graphId
      runId := runId
      nodeId := armed.nodeId
      attemptId := armed.attemptId
      effectId := dispatchEffectIdOf armed.attemptId
      limits := armed.limits
      at' := at' }
  match claimed with
  | .exhausted exhausted => throw (budgetExhausted armed exhausted)
  | _ => pure ()

def adoptCredential (graphId : String) (at' : Nat) (armed : ArmedAttempt) : StoreTx PUnit :=
  rememberCredential
    { graphId := graphId, nodeId := armed.nodeId, attemptId := armed.attemptId }
    armed.retention armed.credential at'

def armEntry (graphId runId : String) (maxExecutions : Option Nat) (at' : Nat)
    (armed : ArmedAttempt) : StoreTx PUnit := do
  reserveDispatchIn graphId runId maxExecutions at' armed
  adoptCredential graphId at' armed

def mintRunIn (run : RunIdentityRecord) (maxExecutions : Option Nat)
    (entries : List ArmedAttempt) (state : GraphStateRecord) : StoreTx PUnit := do
  let _ ← mintRun run
  entries.forM (armEntry run.graphId run.runId maxExecutions run.startedAt)
  writeGraphState state none
  entries.forM fun entry => writeEffect (entry.effect run.graphId run.startedAt)

def ReexecutionFailure.failure : ReexecutionFailure → StoreFailure
  | .store failure => failure
  | .raced reason => .failed reason

def reexecuteIn (run : RunIdentityRecord) (afterRunId : String) (maxExecutions : Option Nat)
    (entries : List ArmedAttempt) (state : GraphStateRecord) : StoreTx PUnit := do
  (mintSuccessorRun run afterRunId).mapError ReexecutionFailure.failure
  mintRunIn run maxExecutions entries state

structure AcceptanceJoin where
  nodeId : String
  runId : Option String
  maxExecutions : Option Nat
  armed : List ArmedAttempt
  state : GraphStateRecord

def moveClaims (graphId attemptId : String) (at' : Nat) (join : AcceptanceJoin) : StoreTx PUnit :=
  match join.runId with
  | none => pure ()
  | some runId => do
    let _ ← BudgetTables.releaseReservation
      { graphId := graphId, runId := runId, nodeId := join.nodeId, attemptId := attemptId,
        at' := at' }
    join.armed.forM (reserveDispatchIn graphId runId join.maxExecutions at')

/-- Successors' intents, claims, the advanced state, and the end of the settled dispatch. -/
def settleAdvance (graphId attemptId : String) (at' : Nat) (join : AcceptanceJoin) :
    StoreTx PUnit := do
  join.armed.forM fun armed => writeEffect (armed.effect graphId at')
  moveClaims graphId attemptId at' join
  writeGraphState join.state none
  let _ ← markEffectDone graphId (dispatchEffectIdOf attemptId)

/-- What one submission writes. A rejected one, and one whose node had settled, joins nothing. -/
structure SubmissionWrite where
  receipt : ReceiptRecord
  acceptedEvent : Option AcceptedEventRecord
  acceptedResult : Option AcceptedResultRecord
  join : Option AcceptanceJoin

def SubmissionWrite.batch (write : SubmissionWrite) : GraphAcceptanceBatch :=
  { receipt := write.receipt
    acceptedEvent := write.acceptedEvent
    acceptedResult := write.acceptedResult
    effects := [] }

def SubmissionWrite.armed (write : SubmissionWrite) : List ArmedAttempt :=
  (write.join.map AcceptanceJoin.armed).getD []

def commitSubmission (write : SubmissionWrite) : StoreTx CommitResult := do
  let graphId := write.receipt.graphId
  let at' := write.receipt.committedAt
  write.armed.forM (adoptCredential graphId at')
  let verdict ← commitAccepted write.batch
  match verdict, write.join with
  | .committed _, some join => do
    settleAdvance graphId write.receipt.attemptId at' join
    pure verdict
  | _, _ => pure verdict

/-- What a retry of one node writes: its decision and the attempt that succeeds the one it names. -/
structure RetryWrite where
  decision : ControlDecisionRecord
  maxExecutions : Option Nat
  successor : ArmedAttempt
  state : GraphStateRecord

def applyRetry (write : RetryWrite) : StoreTx RunControlWriteResult := do
  let graphId := write.decision.graphId
  let at' := write.decision.decidedAt
  reserveDispatchIn graphId write.decision.runId write.maxExecutions at' write.successor
  let written ← writeControlDecision { decision := write.decision, runControl := none }
  match written with
  | .recorded _ _ => do
    adoptCredential graphId at' write.successor
    writeGraphState write.state none
    writeEffect (write.successor.effect graphId at')
    pure written
  | .replayed _ _ => pure written
  -- the command is refused, and its transaction rolled back
  | .settled _ _ => throw (.failed "attempt-already-settled")
  | .conflict _ _ => throw (.failed "control-already-decided")

/-- The three marks of a row: its work began, ended, or failed. -/
inductive EffectMark where
  | started
  | done
  | failed

def EffectMark.status : EffectMark → EffectStatus
  | .started => .started
  | .done => .done
  | .failed => .failed

def markEffect (graphId effectId : String) : EffectMark → StoreTx LedgerTransition
  | .started => markEffectStarted graphId effectId
  | .done => markEffectDone graphId effectId
  | .failed => markEffectFailed graphId effectId

theorem markEffect_eq (graphId effectId : String) (mark : EffectMark) :
    markEffect graphId effectId mark = transitionEffect graphId effectId mark.status := by
  cases mark <;> rfl

end Rolebox.Graph
