import Rolebox.Store.Approvals
import Rolebox.Graph.ContractDigest

/-! The acceptance ledger, with the one conditional write an acceptance commits through. -/

namespace Rolebox.Graph
open General Transaction List

def GRAPH_STATE_MAX_BYTES : Nat := 4194304

def ACCEPTED_DATA_MAX_BYTES : Nat := 262144

def UNMINTED_RUN_ID : String := "run:unminted"

def olderEffect (a b : EffectRow) : Prop := a.createdAt ≤ b.createdAt

instance : DecidableRel olderEffect := fun _ _ => inferInstanceAs (Decidable (_ ≤ _))

namespace GraphStore
variable (s : GraphStore)

def readCurrentRunId (graphId : String) : Option String :=
  (s.readRun graphId).map StoredRunIdentity.runId

def lookupReceipt (graphId attemptId submissionId : String) : Option ReceiptRecord :=
  s.receipts.find? fun row =>
    row.graphId = graphId ∧ row.attemptId = attemptId ∧ row.submissionId = submissionId

def selectAcceptedEvent (graphId attemptId : String) : Option AcceptedEventRecord :=
  s.acceptedEvents.find? fun row => row.graphId = graphId ∧ row.attemptId = attemptId

def readAcceptedResult (graphId attemptId : String) : Option AcceptedResultRecord :=
  s.acceptedResults.find? fun row => row.graphId = graphId ∧ row.attemptId = attemptId

def selectEffect (graphId effectId : String) : Option EffectRow :=
  s.pendingEffects.find? fun row => row.graphId = graphId ∧ row.effectId = effectId

def supersededRunOf (graphId attemptId : String) : Option String :=
  (s.readCurrentRunId graphId).bind fun current =>
    (firstBy olderEffect (s.pendingEffects.filter fun row =>
      row.graphId = graphId ∧ row.attemptId = attemptId ∧ row.runId ≠ current)).map (·.runId)

end GraphStore

def requireLedgerIdentifier (code : GraphStoreWriteErrorCode) (value field consequence : String) :
    StoreTx PUnit :=
  if value = "" then
    refuseWrite code ("acceptance-ledger: " ++ field ++ " is " ++ quote value ++
      ", not a non-empty identifier — " ++ consequence)
  else pure ()

def requireLedgerEpoch (code : GraphStoreWriteErrorCode) (value : Nat)
    (field consequence : String) : StoreTx PUnit :=
  if maxSafeInteger < value then
    refuseWrite code ("acceptance-ledger: " ++ field ++ " is " ++ toString value ++
      ", not epoch milliseconds (a safe integer) — " ++ consequence)
  else pure ()

def requireBatchIdentifier (value field : String) : StoreTx PUnit :=
  requireLedgerIdentifier .invalidBatch value field "the batch was not written"

def requireBatchEpoch (value : Nat) (field : String) : StoreTx PUnit :=
  requireLedgerEpoch .invalidBatch value field "the batch was not written"

def requireSame (value expected field : String) : StoreTx PUnit :=
  if value ≠ expected then
    refuseWrite .invalidBatch ("acceptance-ledger: " ++ field ++ " is " ++ quote value ++
      ", but the receipt names " ++ quote expected ++
      " — a batch describes exactly ONE submission and was not written")
  else pure ()

def assertGraphStateShape (record : GraphStateRecord) : StoreTx PUnit := do
  requireLedgerIdentifier .invalidGraphState record.graphId "graphState.graphId"
    "the state was not written"
  requireLedgerIdentifier .invalidGraphState record.planRevision "graphState.planRevision"
    "the state was not written"
  requireLedgerEpoch .invalidGraphState record.updatedAt "graphState.updatedAt"
    "the state was not written"

def assertIntent (record : PendingEffectRecord) : StoreTx PUnit :=
  if record.status ≠ .pending then
    refuseWrite .invalidEffect ("acceptance-ledger: effect " ++ record.effectId ++
      " was offered as " ++ quote record.status.text ++
      " — an intent write records work that has not begun, so only a \"pending\" effect may be " ++
      "written here; a started or terminal effect is a transition, not an intent")
  else pure ()

def assertEffectShape (record : PendingEffectRecord) : StoreTx PUnit := do
  requireLedgerIdentifier .invalidEffect record.graphId "effect.graphId" "the effect was not written"
  requireLedgerIdentifier .invalidEffect record.effectId "effect.effectId"
    "the effect was not written"
  requireLedgerIdentifier .invalidEffect record.attemptId "effect.attemptId"
    "the effect was not written"
  requireLedgerIdentifier .invalidEffect record.kind "effect.kind" "the effect was not written"
  requireLedgerEpoch .invalidEffect record.createdAt "effect.createdAt" "the effect was not written"
  assertIntent record

structure GraphAcceptanceBatch where
  receipt : ReceiptRecord
  acceptedEvent : Option AcceptedEventRecord
  acceptedResult : Option AcceptedResultRecord
  effects : List PendingEffectRecord

def assertEventShape (receipt : ReceiptRecord) : Option AcceptedEventRecord → StoreTx PUnit
  | none =>
    if receipt.decision = .accepted then
      refuseWrite .invalidBatch ("acceptance-ledger: an accepted decision requires the accepted " ++
        "event it settles — a receipt without a settlement would record a decision while leaving " ++
        "the attempt open, so the batch was not written")
    else pure ()
  | some event =>
    if receipt.decision = .rejected then
      refuseWrite .invalidBatch ("acceptance-ledger: attempt " ++ receipt.attemptId ++
        " carries a rejected decision AND an accepted event — rejected proposals do not enter the " ++
        "accepted-event stream, so the batch was not written")
    else do
      requireSame event.graphId receipt.graphId "acceptedEvent.graphId"
      requireSame event.attemptId receipt.attemptId "acceptedEvent.attemptId"
      requireSame event.submissionId receipt.submissionId "acceptedEvent.submissionId"
      requireSame event.planRevision receipt.planRevision "acceptedEvent.planRevision"
      requireBatchIdentifier event.outcomeId "acceptedEvent.outcomeId"
      requireBatchEpoch event.acceptedAt "acceptedEvent.acceptedAt"

def assertResultShape (receipt : ReceiptRecord) : Option AcceptedResultRecord → StoreTx PUnit
  | none => pure ()
  | some result =>
    if receipt.decision ≠ .accepted then
      refuseWrite .invalidBatch ("acceptance-ledger: attempt " ++ receipt.attemptId ++
        " carries a rejected decision AND an accepted result — a rejected proposal stores no " ++
        "result, so the batch was not written")
    else do
      requireBatchIdentifier result.graphId "acceptedResult.graphId"
      requireBatchIdentifier result.attemptId "acceptedResult.attemptId"
      requireBatchIdentifier result.planRevision "acceptedResult.planRevision"
      requireBatchEpoch result.acceptedAt "acceptedResult.acceptedAt"
      requireSame result.graphId receipt.graphId "acceptedResult.graphId"
      requireSame result.attemptId receipt.attemptId "acceptedResult.attemptId"
      requireSame result.planRevision receipt.planRevision "acceptedResult.planRevision"

def assertBatchEffect (receipt : ReceiptRecord) (effect : PendingEffectRecord) : StoreTx PUnit := do
  requireBatchIdentifier effect.effectId "effect.effectId"
  requireBatchIdentifier effect.kind ("effect " ++ effect.effectId ++ ".kind")
  requireSame effect.graphId receipt.graphId ("effect " ++ effect.effectId ++ ".graphId")
  requireSame effect.attemptId receipt.attemptId ("effect " ++ effect.effectId ++ ".attemptId")
  requireBatchEpoch effect.createdAt ("effect " ++ effect.effectId ++ ".createdAt")
  if effect.status ≠ .pending then
    refuseWrite .invalidBatch ("acceptance-ledger: effect " ++ effect.effectId ++
      " enters the batch as " ++ quote effect.status.text ++
      " — an acceptance batch writes PENDING effects only; a started or terminal effect is a " ++
      "transition, not part of the commit")
  else pure ()

def assertBatchShape (batch : GraphAcceptanceBatch) : StoreTx PUnit := do
  requireBatchIdentifier batch.receipt.graphId "receipt.graphId"
  requireBatchIdentifier batch.receipt.attemptId "receipt.attemptId"
  requireBatchIdentifier batch.receipt.submissionId "receipt.submissionId"
  requireBatchIdentifier batch.receipt.planRevision "receipt.planRevision"
  requireBatchIdentifier batch.receipt.proposalDigest "receipt.proposalDigest"
  requireBatchEpoch batch.receipt.committedAt "receipt.committedAt"
  assertEventShape batch.receipt batch.acceptedEvent
  assertResultShape batch.receipt batch.acceptedResult
  batch.effects.forM (assertBatchEffect batch.receipt)

/-- `sha256:` and the hexadecimal digest a revision is stored under. -/
def isArtifactId (value : String) : Bool := isAttemptCredentialDigest value

def isRetainedDigest (value : String) : Bool :=
  value.toList.length = 64 ∧ value.toList.all isLowerHex

def retainedArtifactRefusal (artifact : AcceptedArtifact) : Option String :=
  if artifact.ref = "" then some "carries a ref that is not a non-empty string"
  else if isArtifactId artifact.artifactId = false then
    some ("carries artifactId " ++ quote artifact.artifactId ++
      ", not the sha256:<hex> content identity a retained revision is stored under")
  else if isRetainedDigest artifact.digest = false then
    some ("carries digest " ++ quote artifact.digest ++ ", not 64 lowercase hex characters")
  else if maxSafeInteger < artifact.size then
    some ("carries size " ++ toString artifact.size ++ ", not a non-negative safe integer")
  else none

def requireRetainedArtifacts (artifacts : List AcceptedArtifact) (attemptId : String) :
    StoreTx PUnit :=
  artifacts.zipIdx.forM fun (artifact, index) =>
    match retainedArtifactRefusal artifact with
    | none => pure ()
    | some detail =>
      refuseWrite .invalidRecord ("acceptance-ledger: acceptedResult.artifacts[" ++
        toString index ++ "] " ++ detail ++ " — the accepted result of attempt " ++
        quote attemptId ++ " was not written")

def encodedBytes (value : Json) : Nat := (canonicalText value).utf8ByteSize

def encodeStateBody (body : Json) (graphId : String) : StoreTx PUnit :=
  if GRAPH_STATE_MAX_BYTES < encodedBytes body then
    refuseWrite .oversizedState ("acceptance-ledger: the state body of graph " ++ graphId ++
      " is " ++ toString (encodedBytes body) ++ " bytes, beyond the " ++
      toString GRAPH_STATE_MAX_BYTES ++
      "-byte limit this ledger stores — nothing from this transaction was committed")
  else pure ()

def encodeAcceptedData (payload : AcceptedData) (attemptId : String) : StoreTx PUnit :=
  if ACCEPTED_DATA_MAX_BYTES < encodedBytes payload.json then
    refuseWrite .oversizedAcceptedData ("acceptance-ledger: the accepted data of attempt " ++
      attemptId ++ " is " ++ toString (encodedBytes payload.json) ++ " bytes, beyond the " ++
      toString ACCEPTED_DATA_MAX_BYTES ++
      "-byte limit this store holds — nothing from this transaction was committed")
  else pure ()

inductive CommitResult where
  | committed (receipt : ReceiptRecord)
  | replayed (receipt : ReceiptRecord)
  | conflict (reason : String)
  | settled (reason : String)
  | controlled (control : RunControlRecord) (reason : String)
  | superseded (decision : ControlDecisionRecord) (reason : String)
  | attemptStopped (decision : ControlDecisionRecord) (reason : String)
  | runSuperseded (runId : String) (reason : String)
  | approvalBlocked (request : ApprovalRequestRecord) (reason : String)

def conflictVerdict (receipt existing : ReceiptRecord) : CommitResult :=
  .conflict ("submission (graph " ++ receipt.graphId ++ ", attempt " ++ receipt.attemptId ++
    ", submission " ++ receipt.submissionId ++ ") is already committed with proposal digest " ++
    existing.proposalDigest ++ ", and this batch carries " ++ receipt.proposalDigest ++
    " — a submission key is bound to the proposal committed under it, and nothing was written")

def settledVerdict (receipt : ReceiptRecord) (settlement : AcceptedEventRecord) : CommitResult :=
  .settled ("attempt " ++ receipt.attemptId ++ " of graph " ++ receipt.graphId ++
    " already settled on submission " ++ settlement.submissionId ++ " with outcome " ++
    settlement.outcomeId ++
    " — a distinct terminal submission is refused and nothing was written")

def controlledVerdict (control : RunControlRecord) : CommitResult :=
  .controlled control ("run " ++ control.runId ++ " of graph " ++ control.graphId ++
    " was stopped by the trusted control command " ++ control.command.text ++ " (" ++
    control.reason ++ ") before this submission committed — a controlled run accepts nothing, so " ++
    "no receipt, accepted event, state advance or successor effect was written")

def supersededVerdict (decision : ControlDecisionRecord) : CommitResult :=
  .superseded decision ("attempt " ++ decision.attemptId ++ " of node " ++ decision.nodeId ++
    " in graph " ++ decision.graphId ++ " was SUPERSEDED by the trusted retry decided at " ++
    toString decision.decidedAt ++ " (" ++ decision.reason ++
    ") before this submission committed — a superseded attempt accepts nothing, so no receipt, " ++
    "accepted event, state advance or successor effect was written; its successor carries the " ++
    "node forward")

def attemptStoppedVerdict (decision : ControlDecisionRecord) : CommitResult :=
  .attemptStopped decision ("attempt " ++ decision.attemptId ++ " of node " ++ decision.nodeId ++
    " in graph " ++ decision.graphId ++ " was STOPPED by the trusted control command " ++
    decision.command.text ++ " decided at " ++ toString decision.decidedAt ++ " (" ++
    decision.reason ++ ") before this submission committed — a stopped attempt accepts nothing, " ++
    "and the RUN itself is not stopped: its other attempts keep executing and still settle, while " ++
    "this one is carried forward only by a `retry` of its node or is closed by a run-wide " ++
    "`cancel`/`budget-stop`, so no receipt, accepted event, state advance or successor effect was " ++
    "written for it")

def supersededRunVerdict (graphId attemptId runId : String) : CommitResult :=
  let belongs :=
    if runId = UNMINTED_RUN_ID then
      "was filed under the reserved pre-run generation (no run identity), which the graph has " ++
        "SUPERSEDED with a later run"
    else "belongs to run " ++ runId ++ ", which the graph has SUPERSEDED with a later run"
  .runSuperseded runId ("attempt " ++ attemptId ++ " of graph " ++ graphId ++ " " ++ belongs ++
    " — a closed run's attempts accept nothing, so no receipt, accepted event, accepted result or " ++
    "state advance was written; the successor run carries the graph forward")

def approvalGate : ApprovalRequestStatus → String
  | .approved => "is approved"
  | .pending => "is still pending"
  | status => "was " ++ status.text

def approvalBlockedVerdict (request : ApprovalRequestRecord) : CommitResult :=
  .approvalBlocked request ("attempt " ++ request.attemptId ++ " of node " ++ request.nodeId ++
    " in graph " ++ request.graphId ++ " is PAUSED on a trusted approval request (" ++
    request.reason ++ ") raised at " ++ toString request.requestedAt ++ " that " ++
    approvalGate request.status ++ " — approval is CONTROL, not an outcome, so no submitted " ++
    "payload can satisfy it and no receipt, accepted event, state advance or successor effect was " ++
    "written; only an `approved` decision by session " ++ request.approverSessionId ++
    " opens the gate")

def stoppingVerdict (s : GraphStore) (graphId attemptId : String) : Option CommitResult :=
  (s.readStoppingDecision graphId attemptId).map fun stopped =>
    match s.readRunControl graphId with
    | some control => controlledVerdict control
    | none => attemptStoppedVerdict stopped

def commitRefusal (s : GraphStore) (graphId attemptId : String) : Option CommitResult :=
  ((s.readRunControl graphId).map controlledVerdict).or <|
  ((s.readSupersedingRetry graphId attemptId).map supersededVerdict).or <|
  (stoppingVerdict s graphId attemptId).or <|
  ((s.supersededRunOf graphId attemptId).map (supersededRunVerdict graphId attemptId)).or <|
  (s.blockingApproval graphId attemptId).map approvalBlockedVerdict

/-- The current run is not controlled, and nothing holds the attempt. -/
def batchLands (s : GraphStore) (graphId attemptId : String) : Bool :=
  !(s.runs.any fun row =>
      row.graphId = graphId ∧ row.control.isSome ∧ s.readCurrentRunId graphId = some row.runId) &&
    !(s.controlDecisions.any fun row => row.Names graphId attemptId ∧ row.command = .retry) &&
    !(s.pendingEffects.any fun row =>
      row.graphId = graphId ∧ row.attemptId = attemptId ∧
        (s.readCurrentRunId graphId).any fun current => row.runId ≠ current) &&
    !(s.approvalRequests.any fun row => row.Names graphId attemptId ∧ row.status ≠ .approved) &&
    !(s.controlDecisions.any fun row => row.Names graphId attemptId ∧ Stops row.command)

def uniqueViolation (table : String) : String := "UNIQUE constraint failed: " ++ table

def rejectBatch {α : Type} (graphId table : String) : StoreTx α :=
  refuseWrite .writeRejected ("acceptance-ledger: the store rejected a row of the batch for graph " ++
    graphId ++ " (" ++ uniqueViolation table ++
    ") — the transaction rolled back, so nothing from this batch was committed")

def insertReceipt (receipt : ReceiptRecord) : StoreTx PUnit := do
  let s ← get
  if (s.lookupReceipt receipt.graphId receipt.attemptId receipt.submissionId).isSome then
    rejectBatch receipt.graphId "graph_receipts"
  else set { s with receipts := s.receipts ++ [receipt] }

def insertAcceptedEvent (graphId : String) : Option AcceptedEventRecord → StoreTx PUnit
  | none => pure ()
  | some event => do
    let s ← get
    if (s.selectAcceptedEvent event.graphId event.attemptId).isSome then
      rejectBatch graphId "graph_accepted_events"
    else set { s with acceptedEvents := s.acceptedEvents ++ [event] }

def insertAcceptedResult (record : AcceptedResultRecord) : StoreTx PUnit := do
  let s ← get
  if (s.readAcceptedResult record.graphId record.attemptId).isSome then pure ()
  else set { s with acceptedResults := s.acceptedResults ++ [record] }

def writeAcceptedResult (record : AcceptedResultRecord) : StoreTx PUnit := do
  requireLedgerIdentifier .invalidRecord record.graphId "acceptedResult.graphId"
    "the result was not written"
  requireLedgerIdentifier .invalidRecord record.attemptId "acceptedResult.attemptId"
    "the result was not written"
  requireLedgerIdentifier .invalidRecord record.planRevision "acceptedResult.planRevision"
    "the result was not written"
  requireLedgerEpoch .invalidRecord record.acceptedAt "acceptedResult.acceptedAt"
    "the result was not written"
  encodeAcceptedData record.payload record.attemptId
  requireRetainedArtifacts (record.artifacts.getD []) record.attemptId
  insertAcceptedResult record

def insertResult : Option AcceptedResultRecord → StoreTx PUnit
  | none => pure ()
  | some result => writeAcceptedResult result

def runChanged (graphId explicit current : String) : String :=
  "acceptance-ledger: run " ++ quote explicit ++ " of graph " ++ quote graphId ++
    " is not the graph's CURRENT run (" ++ quote current ++
    ") — a superseded run's state and effects are immutable, so the write was refused " ++
    "and nothing was written"

def writeRunIdOf (graphId : String) (explicit : Option String) : StoreTx String := do
  let s ← get
  match s.readCurrentRunId graphId with
  | none => pure (explicit.getD UNMINTED_RUN_ID)
  | some current =>
    if explicit.any (· ≠ current) then
      refuseWrite .invalidRecord (runChanged graphId (explicit.getD "") current)
    else pure current

def PendingEffectRecord.row (record : PendingEffectRecord) (runId : String) : EffectRow :=
  { graphId := record.graphId
    runId := runId
    effectId := record.effectId
    attemptId := record.attemptId
    kind := record.kind
    payload := record.payload
    createdAt := record.createdAt
    status := record.status }

def insertBatchEffect (graphId : String) (effect : PendingEffectRecord) : StoreTx PUnit := do
  let runId ← writeRunIdOf effect.graphId effect.runId
  let s ← get
  if (s.selectEffect effect.graphId effect.effectId).isSome then
    rejectBatch graphId "graph_pending_effects"
  else set { s with pendingEffects := s.pendingEffects ++ [effect.row runId] }

def writeBatch (batch : GraphAcceptanceBatch) : StoreTx Bool := do
  let s ← get
  if batchLands s batch.receipt.graphId batch.receipt.attemptId then do
    insertReceipt batch.receipt
    insertAcceptedEvent batch.receipt.graphId batch.acceptedEvent
    insertResult batch.acceptedResult
    batch.effects.forM (insertBatchEffect batch.receipt.graphId)
    pure true
  else pure false

def landBatch (batch : GraphAcceptanceBatch) : StoreTx CommitResult := do
  let landed ← writeBatch batch
  if landed then pure (.committed batch.receipt)
  else do
    let s ← get
    match commitRefusal s batch.receipt.graphId batch.receipt.attemptId with
    | some verdict => pure verdict
    | none =>
      refuseWrite .invalidRecord ("acceptance-ledger: the batch write for graph " ++
        quote batch.receipt.graphId ++
        " was refused by the run-control, supersession, attempt-stop, closed-run or approval " ++
        "guard, but the store holds none of those facts for that graph and attempt — the " ++
        "guarded write and the store disagree, so the batch was rolled back and no verdict is " ++
        "reported")

/-- What the store already answers a batch with: a replay, conflict, settlement or fact. -/
def standingVerdict (s : GraphStore) (receipt : ReceiptRecord) : Option CommitResult :=
  ((s.lookupReceipt receipt.graphId receipt.attemptId receipt.submissionId).map fun existing =>
    if existing.proposalDigest = receipt.proposalDigest then .replayed existing
    else conflictVerdict receipt existing).or <|
  ((s.selectAcceptedEvent receipt.graphId receipt.attemptId).map (settledVerdict receipt)).or <|
  commitRefusal s receipt.graphId receipt.attemptId

def commitAccepted (batch : GraphAcceptanceBatch) : StoreTx CommitResult := do
  assertBatchShape batch
  let s ← get
  match standingVerdict s batch.receipt with
  | some verdict => pure verdict
  | none => landBatch batch

def sameState (graphId runId : String) (row : GraphStateRow) : Prop :=
  row.graphId = graphId ∧ row.runId = runId

instance (graphId runId : String) : DecidablePred (sameState graphId runId) := fun _ =>
  inferInstanceAs (Decidable (_ ∧ _))

def putGraphState (row : GraphStateRow) : StoreTx PUnit := do
  let s ← get
  if s.graphState.any fun other => sameState row.graphId row.runId other then
    set { s with graphState := updateWhere (sameState row.graphId row.runId) (fun _ => row)
                   s.graphState }
  else set { s with graphState := s.graphState ++ [row] }

def writeGraphState (record : GraphStateRecord) (runId : Option String) : StoreTx PUnit := do
  assertGraphStateShape record
  let filed ← writeRunIdOf record.graphId runId
  encodeStateBody record.body record.graphId
  putGraphState
    { graphId := record.graphId
      runId := filed
      planRevision := record.planRevision
      body := record.body
      updatedAt := record.updatedAt }

def writeEffect (record : PendingEffectRecord) : StoreTx PUnit := do
  assertEffectShape record
  let runId ← writeRunIdOf record.graphId record.runId
  let s ← get
  if (s.selectEffect record.graphId record.effectId).isSome then pure ()
  else set { s with pendingEffects := s.pendingEffects ++ [record.row runId] }

inductive LedgerTransition where
  | transitioned (effect : EffectRow)
  | unchanged (effect : EffectRow)
  | refused (reason : String) (effect : EffectRow)
  | missing (reason : String)

def EffectRow.Terminal (row : EffectRow) : Prop := row.status = .done ∨ row.status = .failed

instance : DecidablePred EffectRow.Terminal := fun _ => inferInstanceAs (Decidable (_ ∨ _))

def terminalEffectRefusal (graphId : String) (effect : EffectRow) (next : EffectStatus) :
    LedgerTransition :=
  .refused ("effect " ++ effect.effectId ++ " of graph " ++ graphId ++ " is " ++
    effect.status.text ++ " and terminal — a settled effect is never rewound to " ++ next.text ++
    "; new work gets a new effect id, and nothing was written") effect

def closedRunEffectRefusal (graphId : String) (effect : EffectRow) (currentRunId : String) :
    LedgerTransition :=
  let belongs :=
    if effect.runId = UNMINTED_RUN_ID then
      "was filed under the reserved pre-run generation (no run identity), which the graph has " ++
        "SUPERSEDED with run " ++ currentRunId
    else "belongs to run " ++ effect.runId ++ ", which the graph has SUPERSEDED with run " ++
      currentRunId
  .refused ("effect " ++ effect.effectId ++ " of graph " ++ graphId ++ " " ++ belongs ++
    " — a closed run's effects are immutable, so nothing was written and the row stays " ++
    effect.status.text) effect

/-- The row the conditional update moves: open, not there yet, and of the current run. -/
def movable (s : GraphStore) (graphId effectId : String) (next : EffectStatus) (row : EffectRow) :
    Prop :=
  row.graphId = graphId ∧ row.effectId = effectId ∧ ¬ row.Terminal ∧ row.status ≠ next ∧
    (s.readCurrentRunId graphId).all fun current => row.runId = current

instance (s : GraphStore) (graphId effectId : String) (next : EffectStatus) :
    DecidablePred (movable s graphId effectId next) := fun _ =>
  inferInstanceAs (Decidable (_ ∧ _ ∧ _ ∧ _ ∧ _))

def transitionEffect (graphId effectId : String) (next : EffectStatus) :
    StoreTx LedgerTransition := do
  let s ← get
  match s.selectEffect graphId effectId with
  | none =>
    pure (.missing ("graph " ++ graphId ++ " holds no effect " ++ effectId ++
      " — nothing was written"))
  | some current =>
    if current.status = next then pure (.unchanged current)
    else if current.Terminal then pure (terminalEffectRefusal graphId current next)
    else
      match (s.readCurrentRunId graphId).filter fun runId => current.runId ≠ runId with
      | some runId => pure (closedRunEffectRefusal graphId current runId)
      | none => do
        set { s with
          pendingEffects := updateWhere (movable s graphId effectId next)
            (fun row => { row with status := next }) s.pendingEffects }
        pure (.transitioned { current with status := next })

def markEffectStarted (graphId effectId : String) : StoreTx LedgerTransition :=
  transitionEffect graphId effectId .started

def markEffectDone (graphId effectId : String) : StoreTx LedgerTransition :=
  transitionEffect graphId effectId .done

def markEffectFailed (graphId effectId : String) : StoreTx LedgerTransition :=
  transitionEffect graphId effectId .failed

inductive CredentialRetention where
  | retained
  | notRetained
  deriving DecidableEq

structure CredentialRecordIdentity where
  graphId : String
  nodeId : String
  attemptId : String

def CredentialRow.Of (identity : CredentialRecordIdentity) (row : CredentialRow) : Prop :=
  row.graphId = identity.graphId ∧ row.nodeId = identity.nodeId ∧
    row.attemptId = identity.attemptId

instance (identity : CredentialRecordIdentity) : DecidablePred (CredentialRow.Of identity) :=
  fun _ => inferInstanceAs (Decidable (_ ∧ _ ∧ _))

def putCredential (identity : CredentialRecordIdentity) (row : CredentialRow) : StoreTx PUnit := do
  let s ← get
  if s.credentials.any fun other => CredentialRow.Of identity other then
    set { s with credentials := updateWhere (CredentialRow.Of identity) (fun _ => row)
                   s.credentials }
  else set { s with credentials := s.credentials ++ [row] }

def requireRetainedValue (attemptId : String) (retention : CredentialRetention)
    (credential : Option String) : StoreTx PUnit :=
  if retention = .retained ∧ credential.all (· = "") then
    refuseWrite .invalidRecord ("graph-store: refusing to record attempt " ++ quote attemptId ++
      " as retained without a credential value — the CHECK would reject the row, and a retained " ++
      "record that holds nothing reads as a deliverable attempt")
  else pure ()

def rememberCredential (identity : CredentialRecordIdentity) (retention : CredentialRetention)
    (credential : Option String) (now : Nat) : StoreTx PUnit := do
  requireStoreIdentifier identity.graphId "credential.graphId"
  requireStoreIdentifier identity.nodeId "credential.nodeId"
  requireStoreIdentifier identity.attemptId "credential.attemptId"
  requireRetainedValue identity.attemptId retention credential
  putCredential identity
    { graphId := identity.graphId
      nodeId := identity.nodeId
      attemptId := identity.attemptId
      credential := if retention = .retained then credential else none
      updatedAt := now }

section ShapeSpecs
variable {s s' : GraphStore} {u : PUnit} {code : GraphStoreWriteErrorCode}
  {value expected field consequence : String}
variable {receipt : ReceiptRecord}

theorem requireLedgerIdentifier_ok :
    requireLedgerIdentifier code value field consequence s = .ok (u, s') ↔ value ≠ "" ∧ s' = s := by
  unfold requireLedgerIdentifier
  rw [ite_ok, refuseWrite_ok, pure_ok]
  simp

theorem requireLedgerEpoch_ok {value : Nat} :
    requireLedgerEpoch code value field consequence s = .ok (u, s') ↔
      value ≤ maxSafeInteger ∧ s' = s := by
  unfold requireLedgerEpoch
  rw [ite_ok, refuseWrite_ok, pure_ok]
  simp

theorem requireBatchIdentifier_ok :
    requireBatchIdentifier value field s = .ok (u, s') ↔ value ≠ "" ∧ s' = s :=
  requireLedgerIdentifier_ok

theorem requireBatchEpoch_ok {value : Nat} :
    requireBatchEpoch value field s = .ok (u, s') ↔ value ≤ maxSafeInteger ∧ s' = s :=
  requireLedgerEpoch_ok

theorem requireSame_ok :
    requireSame value expected field s = .ok (u, s') ↔ value = expected ∧ s' = s := by
  unfold requireSame
  rw [ite_ok, refuseWrite_ok, pure_ok]
  simp

theorem assertGraphStateShape_ok {record : GraphStateRecord}
    (h : assertGraphStateShape record s = .ok (u, s')) : s' = s := by
  simp only [assertGraphStateShape, bind_ok, requireLedgerIdentifier_ok, requireLedgerEpoch_ok] at h
  obtain ⟨_, _, ⟨-, rfl⟩, _, _, ⟨-, rfl⟩, -, rfl⟩ := h
  rfl

theorem assertEffectShape_ok {record : PendingEffectRecord}
    (h : assertEffectShape record s = .ok (u, s')) : s' = s ∧ record.status = .pending := by
  simp only [assertEffectShape, assertIntent, bind_ok, requireLedgerIdentifier_ok,
    requireLedgerEpoch_ok, ite_ok, refuseWrite_ok, pure_ok] at h
  obtain ⟨_, _, ⟨-, rfl⟩, _, _, ⟨-, rfl⟩, _, _, ⟨-, rfl⟩, _, _, ⟨-, rfl⟩, _, _, ⟨-, rfl⟩,
    ⟨-, h⟩ | ⟨hpending, -, rfl⟩⟩ := h
  · exact h.elim
  · exact ⟨rfl, not_not.1 hpending⟩

structure AcceptedEventRecord.Settles (event : AcceptedEventRecord) (receipt : ReceiptRecord) :
    Prop where
  graphId : event.graphId = receipt.graphId
  attemptId : event.attemptId = receipt.attemptId
  submissionId : event.submissionId = receipt.submissionId
  planRevision : event.planRevision = receipt.planRevision

theorem assertEventShape_ok {event : Option AcceptedEventRecord}
    (h : assertEventShape receipt event s = .ok (u, s')) :
    s' = s ∧ (receipt.decision = .accepted ↔ event.isSome) ∧
      ∀ settles, event = some settles → settles.Settles receipt := by
  cases event with
  | none =>
    obtain ⟨-, h⟩ | ⟨hrejected, h⟩ := ite_ok.1 h
    · exact (refuseWrite_ok.1 h).elim
    · exact ⟨(pure_ok.1 h).2, iff_of_false hrejected (nofun), nofun⟩
  | some event =>
    obtain ⟨-, h⟩ | ⟨hdecision, h⟩ := ite_ok.1 h
    · exact (refuseWrite_ok.1 h).elim
    simp only [bind_ok, requireSame_ok, requireBatchIdentifier_ok, requireBatchEpoch_ok] at h
    obtain ⟨_, _, ⟨hgraph, rfl⟩, _, _, ⟨hattempt, rfl⟩, _, _, ⟨hsubmission, rfl⟩,
      _, _, ⟨hrevision, rfl⟩, _, _, ⟨-, rfl⟩, -, rfl⟩ := h
    have haccepted : receipt.decision = .accepted := by
      cases hd : receipt.decision with
      | accepted => rfl
      | rejected => exact absurd hd hdecision
    refine ⟨rfl, iff_of_true haccepted rfl, ?_⟩
    rintro _ ⟨rfl⟩
    exact ⟨hgraph, hattempt, hsubmission, hrevision⟩

theorem assertResultShape_ok {result : Option AcceptedResultRecord}
    (h : assertResultShape receipt result s = .ok (u, s')) :
    s' = s ∧ ∀ stored, result = some stored → receipt.decision = .accepted ∧
      stored.graphId = receipt.graphId ∧ stored.attemptId = receipt.attemptId := by
  cases result with
  | none => exact ⟨(pure_ok.1 h).2, nofun⟩
  | some result =>
    obtain ⟨-, h⟩ | ⟨haccepted, h⟩ := ite_ok.1 h
    · exact (refuseWrite_ok.1 h).elim
    simp only [bind_ok, requireSame_ok, requireBatchIdentifier_ok, requireBatchEpoch_ok] at h
    obtain ⟨_, _, ⟨-, rfl⟩, _, _, ⟨-, rfl⟩, _, _, ⟨-, rfl⟩, _, _, ⟨-, rfl⟩,
      _, _, ⟨hgraph, rfl⟩, _, _, ⟨hattempt, rfl⟩, -, rfl⟩ := h
    refine ⟨rfl, ?_⟩
    rintro _ ⟨rfl⟩
    exact ⟨not_not.1 haccepted, hgraph, hattempt⟩

theorem assertBatchEffect_ok {effect : PendingEffectRecord}
    (h : assertBatchEffect receipt effect s = .ok (u, s')) :
    s' = s ∧ effect.graphId = receipt.graphId ∧ effect.attemptId = receipt.attemptId ∧
      effect.status = .pending := by
  simp only [assertBatchEffect, bind_ok, requireSame_ok, requireBatchIdentifier_ok,
    requireBatchEpoch_ok, ite_ok, refuseWrite_ok, pure_ok] at h
  obtain ⟨_, _, ⟨-, rfl⟩, _, _, ⟨-, rfl⟩, _, _, ⟨hgraph, rfl⟩, _, _, ⟨hattempt, rfl⟩,
    _, _, ⟨-, rfl⟩, ⟨-, h⟩ | ⟨hpending, -, rfl⟩⟩ := h
  · exact h.elim
  · exact ⟨rfl, hgraph, hattempt, not_not.1 hpending⟩

structure GraphAcceptanceBatch.Shaped (batch : GraphAcceptanceBatch) : Prop where
  settles : batch.receipt.decision = .accepted ↔ batch.acceptedEvent.isSome
  event : ∀ event, batch.acceptedEvent = some event → event.Settles batch.receipt
  result : ∀ result, batch.acceptedResult = some result → batch.receipt.decision = .accepted ∧
    result.graphId = batch.receipt.graphId ∧ result.attemptId = batch.receipt.attemptId
  effects : ∀ effect ∈ batch.effects, effect.graphId = batch.receipt.graphId ∧
    effect.attemptId = batch.receipt.attemptId ∧ effect.status = .pending

theorem assertBatchShape_ok {batch : GraphAcceptanceBatch}
    (h : assertBatchShape batch s = .ok (u, s')) : s' = s ∧ batch.Shaped := by
  simp only [assertBatchShape, bind_ok, requireBatchIdentifier_ok, requireBatchEpoch_ok] at h
  obtain ⟨_, t, ⟨-, rfl⟩, _, _, ⟨-, rfl⟩, _, _, ⟨-, rfl⟩, _, _, ⟨-, rfl⟩, _, _, ⟨-, rfl⟩,
    _, _, ⟨-, rfl⟩, _, t₁, hevent, _, t₂, hresult, heffects⟩ := h
  obtain ⟨rfl, hsettles, hevents⟩ := assertEventShape_ok hevent
  obtain ⟨rfl, hresults⟩ := assertResultShape_ok hresult
  obtain ⟨rfl, hall⟩ := forM_check (fun _ _ _ _ hcheck => assertBatchEffect_ok hcheck) heffects
  exact ⟨rfl, hsettles, hevents, hresults, hall⟩

theorem encodeStateBody_ok {body : Json} {graphId : String}
    (h : encodeStateBody body graphId s = .ok (u, s')) : s' = s := by
  obtain ⟨-, h⟩ | ⟨-, h⟩ := ite_ok.1 h
  · exact (refuseWrite_ok.1 h).elim
  · exact (pure_ok.1 h).2

theorem encodeAcceptedData_ok {payload : AcceptedData} {attemptId : String}
    (h : encodeAcceptedData payload attemptId s = .ok (u, s')) : s' = s := by
  obtain ⟨-, h⟩ | ⟨-, h⟩ := ite_ok.1 h
  · exact (refuseWrite_ok.1 h).elim
  · exact (pure_ok.1 h).2

theorem requireRetainedArtifacts_ok {artifacts : List AcceptedArtifact} {attemptId : String}
    (h : requireRetainedArtifacts artifacts attemptId s = .ok (u, s')) : s' = s := by
  refine (forM_check (p := fun _ => True) (fun entry t t' _ hcheck => ?_) h).1
  cases hrefusal : retainedArtifactRefusal entry.1 with
  | none =>
    simp only [hrefusal] at hcheck
    exact ⟨(pure_ok.1 hcheck).2, trivial⟩
  | some detail =>
    simp only [hrefusal] at hcheck
    exact (refuseWrite_ok.1 hcheck).elim

end ShapeSpecs

section CommitSpecs
variable {s s' : GraphStore} {u : PUnit} {graphId attemptId : String}

theorem selectEffect_mem {effectId : String} {effect : EffectRow}
    (h : s.selectEffect graphId effectId = some effect) :
    effect ∈ s.pendingEffects ∧ effect.graphId = graphId ∧ effect.effectId = effectId := by
  have hkey := find?_some h
  exact ⟨mem_of_find?_eq_some h, by simpa using hkey⟩

theorem insertReceipt_ok {receipt : ReceiptRecord} :
    insertReceipt receipt s = .ok (u, s') ↔
      s.lookupReceipt receipt.graphId receipt.attemptId receipt.submissionId = none ∧
        s' = { s with receipts := s.receipts ++ [receipt] } := by
  simp only [insertReceipt, rejectBatch, get_bind, ite_ok, refuseWrite_ok, set_ok]
  simp

theorem insertAcceptedEvent_ok {event : Option AcceptedEventRecord} :
    insertAcceptedEvent graphId event s = .ok (u, s') ↔
      (∀ row, event = some row → s.selectAcceptedEvent row.graphId row.attemptId = none) ∧
        s' = { s with acceptedEvents := s.acceptedEvents ++ event.toList } := by
  cases event with
  | none => simp [insertAcceptedEvent, pure_ok]
  | some event =>
    simp only [insertAcceptedEvent, rejectBatch, get_bind, ite_ok, refuseWrite_ok, set_ok]
    simp

def GraphStore.withResult (s : GraphStore) (record : AcceptedResultRecord) :
    List AcceptedResultRecord :=
  if (s.readAcceptedResult record.graphId record.attemptId).isSome then s.acceptedResults
  else s.acceptedResults ++ [record]

theorem insertAcceptedResult_ok {record : AcceptedResultRecord} :
    insertAcceptedResult record s = .ok (u, s') ↔
      s' = { s with acceptedResults := s.withResult record } := by
  simp only [insertAcceptedResult, get_bind, ite_ok, pure_ok, set_ok, GraphStore.withResult]
  by_cases hheld : (s.readAcceptedResult record.graphId record.attemptId).isSome
  · simp [hheld]
  · simp [hheld]

theorem writeAcceptedResult_ok {record : AcceptedResultRecord}
    (h : writeAcceptedResult record s = .ok (u, s')) :
    s' = { s with acceptedResults := s.withResult record } := by
  simp only [writeAcceptedResult, bind_ok, requireLedgerIdentifier_ok, requireLedgerEpoch_ok] at h
  obtain ⟨_, _, ⟨-, rfl⟩, _, _, ⟨-, rfl⟩, _, _, ⟨-, rfl⟩, _, _, ⟨-, rfl⟩, _, _, hencode,
    _, _, hartifacts, hinsert⟩ := h
  obtain rfl := encodeAcceptedData_ok hencode
  obtain rfl := requireRetainedArtifacts_ok hartifacts
  exact insertAcceptedResult_ok.1 hinsert

theorem insertResult_ok {result : Option AcceptedResultRecord}
    (h : insertResult result s = .ok (u, s')) :
    s' = { s with acceptedResults := result.elim s.acceptedResults s.withResult } := by
  cases result with
  | none => exact (pure_ok.1 h).2
  | some result => exact writeAcceptedResult_ok h

def GraphStore.filedRun (s : GraphStore) (graphId : String) (explicit : Option String) : String :=
  (s.readCurrentRunId graphId).getD (explicit.getD UNMINTED_RUN_ID)

theorem writeRunIdOf_ok {explicit : Option String} {runId : String} :
    writeRunIdOf graphId explicit s = .ok (runId, s') ↔
      (∀ current named, s.readCurrentRunId graphId = some current → explicit = some named →
        named = current) ∧ runId = s.filedRun graphId explicit ∧ s' = s := by
  simp only [writeRunIdOf, get_bind, GraphStore.filedRun]
  cases hcurrent : s.readCurrentRunId graphId with
  | none => simp [pure_ok]
  | some current =>
    simp only [ite_ok, refuseWrite_ok, pure_ok]
    cases explicit with
    | none => simp
    | some named => simp

theorem insertBatchEffect_ok {effect : PendingEffectRecord}
    (h : insertBatchEffect graphId effect s = .ok (u, s')) :
    s.selectEffect effect.graphId effect.effectId = none ∧
      s' = { s with
        pendingEffects := s.pendingEffects ++
          [effect.row (s.filedRun effect.graphId effect.runId)] } := by
  simp only [insertBatchEffect, rejectBatch, bind_ok, writeRunIdOf_ok, get_bind, ite_ok,
    refuseWrite_ok, set_ok] at h
  obtain ⟨_, _, ⟨-, rfl, rfl⟩, ⟨-, h⟩ | ⟨hfree, rfl⟩⟩ := h
  · exact h.elim
  · exact ⟨by simpa using hfree, rfl⟩

theorem insertBatchEffects_ok {effects : List PendingEffectRecord}
    (h : effects.forM (insertBatchEffect graphId) s = .ok (u, s')) :
    s' = { s with
      pendingEffects := s.pendingEffects ++
        effects.map fun effect => effect.row (s.filedRun effect.graphId effect.runId) } := by
  induction effects generalizing s u with
  | nil =>
    rw [(pure_ok.1 h).2]
    simp
  | cons effect effects ih =>
    obtain ⟨_, t, hfirst, hrest⟩ := bind_ok.1 h
    obtain ⟨-, rfl⟩ := insertBatchEffect_ok hfirst
    rw [ih hrest, map_cons, ← append_cons]
    rfl

def GraphStore.batched (s : GraphStore) (batch : GraphAcceptanceBatch) : GraphStore :=
  { s with
    receipts := s.receipts ++ [batch.receipt]
    acceptedEvents := s.acceptedEvents ++ batch.acceptedEvent.toList
    acceptedResults := batch.acceptedResult.elim s.acceptedResults s.withResult
    pendingEffects := s.pendingEffects ++
      batch.effects.map fun effect => effect.row (s.filedRun effect.graphId effect.runId) }

theorem writeBatch_ok {batch : GraphAcceptanceBatch} {landed : Bool}
    (h : writeBatch batch s = .ok (landed, s')) :
    (landed = true ∧ batchLands s batch.receipt.graphId batch.receipt.attemptId = true ∧
        s.lookupReceipt batch.receipt.graphId batch.receipt.attemptId
          batch.receipt.submissionId = none ∧
        (∀ event, batch.acceptedEvent = some event →
          s.selectAcceptedEvent event.graphId event.attemptId = none) ∧ s' = s.batched batch) ∨
      (landed = false ∧ batchLands s batch.receipt.graphId batch.receipt.attemptId = false ∧
        s' = s) := by
  simp only [writeBatch, get_bind] at h
  obtain ⟨hlands, h⟩ | ⟨hheld, h⟩ := ite_ok.1 h
  · simp only [bind_ok, insertReceipt_ok, insertAcceptedEvent_ok, pure_ok] at h
    obtain ⟨_, _, ⟨hfree, rfl⟩, _, _, ⟨hevent, rfl⟩, _, t, hresult, _, t', heffects, rfl, rfl⟩ := h
    obtain rfl := insertResult_ok hresult
    obtain rfl := insertBatchEffects_ok heffects
    exact .inl ⟨rfl, hlands, hfree, hevent, rfl⟩
  · obtain ⟨rfl, rfl⟩ := pure_ok.1 h
    exact .inr ⟨rfl, by simpa using hheld, rfl⟩

/-- A batch is answered as the store stands, lands with free keys, or is held by a named fact. -/
theorem commitAccepted_ok {batch : GraphAcceptanceBatch} {result : CommitResult}
    (h : commitAccepted batch s = .ok (result, s')) :
    batch.Shaped ∧
      ((standingVerdict s batch.receipt = some result ∧ s' = s) ∨
        (standingVerdict s batch.receipt = none ∧
          batchLands s batch.receipt.graphId batch.receipt.attemptId = true ∧
          result = .committed batch.receipt ∧ s' = s.batched batch)) := by
  simp only [commitAccepted, bind_ok, get_bind] at h
  obtain ⟨_, t, hshape, h⟩ := h
  obtain ⟨rfl, hshaped⟩ := assertBatchShape_ok hshape
  refine ⟨hshaped, ?_⟩
  cases hstanding : standingVerdict t batch.receipt with
  | some verdict =>
    rw [hstanding] at h
    obtain ⟨rfl, rfl⟩ := pure_ok.1 h
    exact .inl ⟨rfl, rfl⟩
  | none =>
    rw [hstanding] at h
    obtain ⟨landed, t', hwrite, hanswer⟩ := bind_ok.1 h
    obtain ⟨rfl, hlands, -, -, rfl⟩ | ⟨rfl, -, rfl⟩ := writeBatch_ok hwrite
    · obtain ⟨rfl, rfl⟩ := pure_ok.1 hanswer
      exact .inr ⟨rfl, hlands, rfl, rfl⟩
    · -- the cascade that found no fact a moment ago finds none now
      have hnone : commitRefusal t' batch.receipt.graphId batch.receipt.attemptId = none := by
        unfold standingVerdict at hstanding
        simp only [Option.or_eq_none_iff] at hstanding
        exact hstanding.2.2
      simp only [Bool.false_eq_true, if_false, get_bind, hnone] at hanswer
      exact (refuseWrite_ok.1 hanswer).elim

end CommitSpecs

section RowSpecs
variable {s s' : GraphStore} {u : PUnit}
variable {record : PendingEffectRecord}

def GraphStore.withState (s : GraphStore) (row : GraphStateRow) : List GraphStateRow :=
  if s.graphState.any fun other => sameState row.graphId row.runId other then
    updateWhere (sameState row.graphId row.runId) (fun _ => row) s.graphState
  else s.graphState ++ [row]

theorem putGraphState_ok {row : GraphStateRow} :
    putGraphState row s = .ok (u, s') ↔ s' = { s with graphState := s.withState row } := by
  simp only [putGraphState, get_bind, ite_ok, set_ok, GraphStore.withState]
  by_cases hany : s.graphState.any fun other => sameState row.graphId row.runId other
  · simp [hany]
  · simp [hany]

theorem writeGraphState_ok {record : GraphStateRecord} {runId : Option String}
    (h : writeGraphState record runId s = .ok (u, s')) :
    (∀ current named, s.readCurrentRunId record.graphId = some current → runId = some named →
        named = current) ∧
      s' = { s with
        graphState := s.withState
          { graphId := record.graphId
            runId := s.filedRun record.graphId runId
            planRevision := record.planRevision
            body := record.body
            updatedAt := record.updatedAt } } := by
  simp only [writeGraphState, bind_ok, writeRunIdOf_ok, putGraphState_ok] at h
  obtain ⟨_, t, hshape, _, _, ⟨hcurrent, rfl, rfl⟩, _, t', hencode, rfl⟩ := h
  obtain rfl := assertGraphStateShape_ok hshape
  obtain rfl := encodeStateBody_ok hencode
  exact ⟨hcurrent, rfl⟩

def GraphStore.withEffect (s : GraphStore) (record : PendingEffectRecord) : List EffectRow :=
  if (s.selectEffect record.graphId record.effectId).isSome then s.pendingEffects
  else s.pendingEffects ++ [record.row (s.filedRun record.graphId record.runId)]

theorem writeEffect_ok (h : writeEffect record s = .ok (u, s')) :
    record.status = .pending ∧
      (∀ current named, s.readCurrentRunId record.graphId = some current →
        record.runId = some named → named = current) ∧
      s' = { s with pendingEffects := s.withEffect record } := by
  simp only [writeEffect, bind_ok, writeRunIdOf_ok, get_bind, ite_ok, pure_ok, set_ok] at h
  obtain ⟨_, t, hshape, _, _, ⟨hcurrent, rfl, rfl⟩, h⟩ := h
  obtain ⟨rfl, hpending⟩ := assertEffectShape_ok hshape
  refine ⟨hpending, hcurrent, ?_⟩
  unfold GraphStore.withEffect
  obtain ⟨hheld, -, rfl⟩ | ⟨hfree, rfl⟩ := h
  · rw [if_pos hheld]
  · rw [if_neg hfree]

theorem mem_withEffect {row : EffectRow} (h : row ∈ s.withEffect record) :
    row ∈ s.pendingEffects ∨ (s.selectEffect record.graphId record.effectId = none ∧
      row = record.row (s.filedRun record.graphId record.runId)) := by
  unfold GraphStore.withEffect at h
  split at h
  · exact .inl h
  next hfree =>
  rcases mem_append.1 h with hold | hnew
  · exact .inl hold
  · exact .inr ⟨by simpa using hfree, mem_singleton.1 hnew⟩

theorem withEffect_prefix : s.pendingEffects <+: s.withEffect record := by
  unfold GraphStore.withEffect
  split
  · exact prefix_rfl
  · exact prefix_append _ _

theorem transitionEffect_ok {graphId effectId : String} {next : EffectStatus}
    {answer : LedgerTransition} (h : transitionEffect graphId effectId next s = .ok (answer, s')) :
    s' = s ∨ ((∃ effect, s.selectEffect graphId effectId = some effect ∧ ¬ effect.Terminal ∧
        effect.status ≠ next ∧ answer = .transitioned { effect with status := next }) ∧
      s' = { s with
        pendingEffects := updateWhere (movable s graphId effectId next)
          (fun row => { row with status := next }) s.pendingEffects }) := by
  simp only [transitionEffect, get_bind] at h
  cases hselect : s.selectEffect graphId effectId with
  | none =>
    simp only [hselect, pure_ok] at h
    exact .inl h.2
  | some current =>
    simp only [hselect] at h
    obtain ⟨-, h⟩ | ⟨hmoves, h⟩ := ite_ok.1 h
    · exact .inl (pure_ok.1 h).2
    obtain ⟨-, h⟩ | ⟨hopen, h⟩ := ite_ok.1 h
    · exact .inl (pure_ok.1 h).2
    generalize Option.filter _ _ = moved at h
    cases moved with
    | some runId => exact .inl (pure_ok.1 h).2
    | none =>
      simp only [set_bind, pure_ok] at h
      obtain ⟨rfl, rfl⟩ := h
      exact .inr ⟨⟨current, rfl, hopen, hmoves, rfl⟩, rfl⟩

def GraphStore.withCredential (s : GraphStore) (identity : CredentialRecordIdentity)
    (row : CredentialRow) : List CredentialRow :=
  if s.credentials.any fun other => CredentialRow.Of identity other then
    updateWhere (CredentialRow.Of identity) (fun _ => row) s.credentials
  else s.credentials ++ [row]

def rememberedRow (identity : CredentialRecordIdentity) (retention : CredentialRetention)
    (credential : Option String) (now : Nat) : CredentialRow :=
  { graphId := identity.graphId
    nodeId := identity.nodeId
    attemptId := identity.attemptId
    credential := if retention = .retained then credential else none
    updatedAt := now }

theorem rememberCredential_ok {identity : CredentialRecordIdentity}
    {retention : CredentialRetention} {credential : Option String} {now : Nat}
    (h : rememberCredential identity retention credential now s = .ok (u, s')) :
    s' = { s with credentials :=
        s.withCredential identity (rememberedRow identity retention credential now) } := by
  simp only [rememberCredential, requireRetainedValue, putCredential, bind_ok,
    requireStoreIdentifier_ok, ite_ok, refuseWrite_ok, pure_ok, get_bind, set_ok] at h
  obtain ⟨_, _, ⟨-, rfl⟩, _, _, ⟨-, rfl⟩, _, _, ⟨-, rfl⟩, _, t, h, hput⟩ := h
  obtain ⟨-, h⟩ | ⟨-, -, rfl⟩ := h
  · exact h.elim
  unfold GraphStore.withCredential
  obtain ⟨hheld, rfl⟩ | ⟨hfree, rfl⟩ := hput
  · rw [if_pos hheld]
    rfl
  · rw [if_neg hfree]
    rfl

end RowSpecs

end Rolebox.Graph
