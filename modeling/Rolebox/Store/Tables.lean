import Rolebox.General.Transaction
import Rolebox.General.Rows
import Rolebox.Graph.Codec.Body

/-! The tables of the workspace's graph store and the errors a write is refused with. -/

namespace Rolebox.Graph
open General

inductive ReceiptDecision where
  | accepted
  | rejected
  deriving DecidableEq

structure ReceiptRecord where
  graphId : String
  attemptId : String
  submissionId : String
  planRevision : String
  proposalDigest : String
  decision : ReceiptDecision
  committedAt : Nat
  deriving DecidableEq

structure AcceptedEventRecord where
  graphId : String
  attemptId : String
  submissionId : String
  planRevision : String
  outcomeId : String
  acceptedAt : Nat

structure AcceptedResultRecord where
  graphId : String
  attemptId : String
  planRevision : String
  payload : AcceptedData
  artifacts : Option (List AcceptedArtifact)
  acceptedAt : Nat

inductive EffectStatus where
  | pending
  | started
  | done
  | failed
  deriving DecidableEq

def EffectStatus.text : EffectStatus → String
  | .pending => "pending"
  | .started => "started"
  | .done => "done"
  | .failed => "failed"

structure PendingEffectRecord where
  graphId : String
  runId : Option String
  effectId : String
  attemptId : String
  kind : String
  payload : Json
  createdAt : Nat
  status : EffectStatus

structure EffectRow where
  graphId : String
  runId : String
  effectId : String
  attemptId : String
  kind : String
  payload : Json
  createdAt : Nat
  status : EffectStatus

structure GraphStateRow where
  graphId : String
  runId : String
  planRevision : String
  body : Json
  updatedAt : Nat

inductive ControlCommandName where
  | failure
  | cancel
  | timeout
  | retry
  | budgetStop
  | approvalRequest
  | approve
  | reject
  deriving DecidableEq

def ControlCommandName.text : ControlCommandName → String
  | .failure => "failure"
  | .cancel => "cancel"
  | .timeout => "timeout"
  | .retry => "retry"
  | .budgetStop => "budget-stop"
  | .approvalRequest => "approval-request"
  | .approve => "approve"
  | .reject => "reject"

def STOPPING_CONTROL_COMMANDS : List ControlCommandName :=
  [.failure, .timeout, .cancel, .budgetStop]

structure ControlPrincipalRecord where
  sessionId : String
  agentId : Option String
  deriving DecidableEq

structure RunIdentityRecord where
  graphId : String
  runId : String
  startedAt : Nat
  planRevision : String

structure RunControlRecord where
  graphId : String
  runId : String
  command : ControlCommandName
  reason : String
  decidedAt : Nat
  decidedBy : Option ControlPrincipalRecord

structure RunControlFact where
  command : ControlCommandName
  reason : String
  decidedAt : Nat
  decidedBy : Option ControlPrincipalRecord

structure RunRow where
  graphId : String
  runId : String
  runSeq : Nat
  planRevision : String
  startedAt : Nat
  control : Option RunControlFact

structure StoredRunIdentity where
  graphId : String
  runId : String
  runSeq : Nat
  planRevision : String
  startedAt : Nat

def RunRow.identity (row : RunRow) : StoredRunIdentity :=
  { graphId := row.graphId
    runId := row.runId
    runSeq := row.runSeq
    planRevision := row.planRevision
    startedAt := row.startedAt }

structure ControlDecisionRecord where
  graphId : String
  runId : String
  nodeId : String
  attemptId : String
  command : ControlCommandName
  reason : String
  decidedAt : Nat
  decidedBy : Option ControlPrincipalRecord
  successorAttemptId : Option String

structure RunReexecutionRecord where
  graphId : String
  runId : String
  reason : String
  decidedAt : Nat
  decidedBy : Option ControlPrincipalRecord
  successor : Option (String × Nat)
  deriving DecidableEq

inductive ApprovalRequestStatus where
  | pending
  | approved
  | rejected
  | expired
  deriving DecidableEq

inductive ApprovalMode where
  | independentReview
  | operatorConfirmation
  deriving DecidableEq

structure ApprovalGrant where
  policyId : String
  revision : String
  digest : String
  mode : ApprovalMode

structure ApprovalRequestRecord where
  graphId : String
  runId : String
  nodeId : String
  attemptId : String
  status : ApprovalRequestStatus
  reason : String
  requestedAt : Int
  requestedBy : Option ControlPrincipalRecord
  approverSessionId : String
  authority : ApprovalGrant
  expiresAt : Int
  decidedBy : Option ControlPrincipalRecord
  decidedAt : Option Int
  decisionReason : Option String

inductive BudgetLimitKind where
  | durationMs
  | inputTokens
  | outputTokens
  | costUsd
  deriving DecidableEq

def BudgetLimitKind.text : BudgetLimitKind → String
  | .durationMs => "duration_ms"
  | .inputTokens => "input_tokens"
  | .outputTokens => "output_tokens"
  | .costUsd => "cost_usd"

def BUDGET_DIMENSIONS : List BudgetLimitKind :=
  [.durationMs, .inputTokens, .outputTokens, .costUsd]

structure NodeBudgetLimits where
  durationMs : Option Rat
  inputTokens : Option Rat
  outputTokens : Option Rat
  costUsd : Option Rat

def NO_BUDGET_LIMITS : NodeBudgetLimits :=
  { durationMs := none, inputTokens := none, outputTokens := none, costUsd := none }

def NodeBudgetLimits.limitOf (limits : NodeBudgetLimits) : BudgetLimitKind → Option Rat
  | .durationMs => limits.durationMs
  | .inputTokens => limits.inputTokens
  | .outputTokens => limits.outputTokens
  | .costUsd => limits.costUsd

structure BudgetUsageAmounts where
  executions : Nat
  durationMs : Rat
  inputTokens : Rat
  outputTokens : Rat
  costUsd : Rat
  deriving DecidableEq

def BudgetUsageAmounts.amountOf (amounts : BudgetUsageAmounts) : BudgetLimitKind → Rat
  | .durationMs => amounts.durationMs
  | .inputTokens => amounts.inputTokens
  | .outputTokens => amounts.outputTokens
  | .costUsd => amounts.costUsd

inductive BudgetReservationStatus where
  | reserved
  | reconciled (used : BudgetUsageAmounts) (settledAt : Nat)
  | released (settledAt : Nat)
  deriving DecidableEq

def BudgetReservationStatus.text : BudgetReservationStatus → String
  | .reserved => "reserved"
  | .reconciled _ _ => "reconciled"
  | .released _ => "released"

structure BudgetReservationRecord where
  graphId : String
  runId : String
  nodeId : String
  attemptId : String
  effectId : String
  status : BudgetReservationStatus
  checked : NodeBudgetLimits
  reserved : BudgetUsageAmounts
  reservedAt : Nat

/-- A credential record; the value is there exactly when it is retained. -/
structure CredentialRow where
  graphId : String
  nodeId : String
  attemptId : String
  credential : Option String
  updatedAt : Nat

structure GraphStore where
  receipts : List ReceiptRecord
  acceptedEvents : List AcceptedEventRecord
  acceptedResults : List AcceptedResultRecord
  pendingEffects : List EffectRow
  graphState : List GraphStateRow
  credentials : List CredentialRow
  runs : List RunRow
  controlDecisions : List ControlDecisionRecord
  runReexecutions : List RunReexecutionRecord
  approvalRequests : List ApprovalRequestRecord
  budgetReservations : List BudgetReservationRecord

def GraphStore.empty : GraphStore :=
  { receipts := []
    acceptedEvents := []
    acceptedResults := []
    pendingEffects := []
    graphState := []
    credentials := []
    runs := []
    controlDecisions := []
    runReexecutions := []
    approvalRequests := []
    budgetReservations := [] }

inductive GraphStoreWriteErrorCode where
  | invalidBatch
  | invalidRecord
  | invalidGraphState
  | invalidEffect
  | oversizedState
  | oversizedAcceptedData
  | writeRejected

structure GraphStoreWriteError where
  code : GraphStoreWriteErrorCode
  message : String

/-- A named refusal, a constraint, a row the readers refuse, or a plain error of a check. -/
inductive StoreFailure where
  | refused (error : GraphStoreWriteError)
  | constraint (table : String)
  | malformedRow (table : String)
  | failed (message : String)

abbrev StoreTx (α : Type) := Transaction GraphStore StoreFailure α

def refuseWrite {α : Type} (code : GraphStoreWriteErrorCode) (message : String) : StoreTx α :=
  throw (.refused { code := code, message := message })

def requireStoreIdentifier (value field : String) : StoreTx PUnit :=
  if value = "" then
    refuseWrite .invalidRecord ("graph-store: " ++ field ++ " is " ++ quote value ++
      ", not a non-empty identifier — the record was not written")
  else pure ()

def requireStoreEpoch (value : Int) (field : String) : StoreTx PUnit :=
  if maxSafeInteger < value.natAbs then
    refuseWrite .invalidRecord ("graph-store: " ++ field ++ " is " ++ toString value ++
      ", not epoch milliseconds (a safe integer) — the record was not written")
  else pure ()

def assertPrincipalShape (principal : Option ControlPrincipalRecord) (field : String) :
    StoreTx PUnit :=
  match principal with
  | none => pure ()
  | some principal => do
    requireStoreIdentifier principal.sessionId (field ++ ".sessionId")
    if principal.agentId = some "" then
      refuseWrite .invalidRecord ("graph-store: " ++ field ++ ".agentId is " ++ quote "" ++
        ", not a non-empty agent — the record was not written")
    else pure ()

section Shapes
open Transaction
variable {α : Type} {s s' : GraphStore}
variable {field : String} {u : PUnit}

theorem refuseWrite_ok {code : GraphStoreWriteErrorCode} {message : String} {a : α} :
    (refuseWrite code message : StoreTx α) s = .ok (a, s') ↔ False := throw_ok

theorem requireStoreIdentifier_ok {value : String} :
    requireStoreIdentifier value field s = .ok (u, s') ↔ value ≠ "" ∧ s' = s := by
  unfold requireStoreIdentifier
  rw [ite_ok, refuseWrite_ok, pure_ok]
  simp

theorem requireStoreEpoch_ok {value : Int} :
    requireStoreEpoch value field s = .ok (u, s') ↔ value.natAbs ≤ maxSafeInteger ∧ s' = s := by
  unfold requireStoreEpoch
  rw [ite_ok, refuseWrite_ok, pure_ok]
  simp

/-- A principal is a session, with an agent that is not empty where there is one. -/
def ControlPrincipalRecord.Shaped (principal : ControlPrincipalRecord) : Prop :=
  principal.sessionId ≠ "" ∧ principal.agentId ≠ some ""

theorem assertPrincipalShape_ok {principal : Option ControlPrincipalRecord} :
    assertPrincipalShape principal field s = .ok (u, s') ↔
      (∀ p, principal = some p → p.Shaped) ∧ s' = s := by
  cases principal with
  | none =>
    unfold assertPrincipalShape
    rw [pure_ok]
    simp
  | some principal =>
    simp only [assertPrincipalShape, bind_ok, requireStoreIdentifier_ok, ite_ok, refuseWrite_ok,
      pure_ok]
    constructor
    · rintro ⟨-, t, ⟨hsession, rfl⟩, ⟨-, h⟩ | ⟨hagent, -, rfl⟩⟩
      · exact h.elim
      · refine ⟨?_, rfl⟩
        rintro p ⟨rfl⟩
        exact ⟨hsession, hagent⟩
    · rintro ⟨hp, rfl⟩
      obtain ⟨hsession, hagent⟩ := hp principal rfl
      exact ⟨u, s', ⟨hsession, rfl⟩, .inr ⟨hagent, trivial, rfl⟩⟩

end Shapes

end Rolebox.Graph
