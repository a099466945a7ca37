import Rolebox.Store.Control

/-! The approval requests of the store: one decision each, and the sweeps that expire them. -/

namespace Rolebox.Graph
open General Transaction

def raisedFirst (a b : ApprovalRequestRecord) : Prop := a.requestedAt ≤ b.requestedAt

instance : DecidableRel raisedFirst := fun _ _ => inferInstanceAs (Decidable (_ ≤ _))

namespace ApprovalRequestRecord

def Names (row : ApprovalRequestRecord) (graphId attemptId : String) : Prop :=
  row.graphId = graphId ∧ row.attemptId = attemptId

instance (graphId attemptId : String) :
    DecidablePred fun row : ApprovalRequestRecord => row.Names graphId attemptId := fun _ =>
  inferInstanceAs (Decidable (_ ∧ _))

def SameKey (row key : ApprovalRequestRecord) : Prop :=
  row.graphId = key.graphId ∧ row.runId = key.runId ∧ row.nodeId = key.nodeId ∧
    row.attemptId = key.attemptId

instance (key : ApprovalRequestRecord) :
    DecidablePred fun row : ApprovalRequestRecord => row.SameKey key := fun _ =>
  inferInstanceAs (Decidable (_ ∧ _ ∧ _ ∧ _))

def Awaits (graphId attemptId : String) (row : ApprovalRequestRecord) : Prop :=
  row.Names graphId attemptId ∧ row.status = .pending

instance (graphId attemptId : String) : DecidablePred (Awaits graphId attemptId) := fun _ =>
  inferInstanceAs (Decidable (_ ∧ _))

def Due (graphId : String) (at' : Int) (row : ApprovalRequestRecord) : Prop :=
  row.graphId = graphId ∧ row.status = .pending ∧ row.expiresAt ≤ at'

instance (graphId : String) (at' : Int) : DecidablePred (Due graphId at') := fun _ =>
  inferInstanceAs (Decidable (_ ∧ _ ∧ _))

def AwaitsIn (graphId runId : String) (row : ApprovalRequestRecord) : Prop :=
  row.graphId = graphId ∧ row.runId = runId ∧ row.status = .pending

instance (graphId runId : String) : DecidablePred (AwaitsIn graphId runId) := fun _ =>
  inferInstanceAs (Decidable (_ ∧ _ ∧ _))

/-- An expiry writes the status, the time and the reason; nobody decided it. -/
def expire (at' : Int) (reason : String) (row : ApprovalRequestRecord) : ApprovalRequestRecord :=
  { row with status := .expired, decidedAt := some at', decisionReason := some reason }

end ApprovalRequestRecord

namespace GraphStore

def readApprovalRequest (s : GraphStore) (graphId attemptId : String) :
    Option ApprovalRequestRecord :=
  firstBy raisedFirst (s.approvalRequests.filter fun row => row.Names graphId attemptId)

/-- The request that holds one attempt: any whose status is not `approved`. -/
def blockingApproval (s : GraphStore) (graphId attemptId : String) : Option ApprovalRequestRecord :=
  (s.readApprovalRequest graphId attemptId).filter fun request => request.status ≠ .approved

end GraphStore

def requireGrantIdentifier (value : String) : StoreTx PUnit :=
  if trim value = "" then throw (.failed "approval policy identifier must be non-empty")
  else pure ()

def readApprovalGrant (grant : ApprovalGrant) : StoreTx PUnit := do
  requireGrantIdentifier grant.policyId
  requireGrantIdentifier grant.revision
  requireGrantIdentifier grant.digest

def requireIndependence (record : ApprovalRequestRecord) : StoreTx PUnit :=
  if record.authority.mode = .independentReview ∧
      record.requestedBy.all (fun principal => principal.sessionId = record.approverSessionId) then
    refuseWrite .invalidRecord "independent review requires a distinct requester and approver"
  else pure ()

def ApprovalRequestStatus.text : ApprovalRequestStatus → String
  | .pending => "pending"
  | .approved => "approved"
  | .rejected => "rejected"
  | .expired => "expired"

def requireRaised (status : ApprovalRequestStatus) : StoreTx PUnit :=
  if status ≠ .pending then
    refuseWrite .invalidRecord ("graph-store: an approval request is RAISED as pending; " ++
      quote status.text ++
      " is a decision and is written by the decision path, never by the raise")
  else pure ()

def assertApprovalRequestShape (record : ApprovalRequestRecord) : StoreTx PUnit := do
  readApprovalGrant record.authority
  requireIndependence record
  requireStoreIdentifier record.graphId "approval.graphId"
  requireStoreIdentifier record.runId "approval.runId"
  requireStoreIdentifier record.nodeId "approval.nodeId"
  requireStoreIdentifier record.attemptId "approval.attemptId"
  requireStoreIdentifier record.reason "approval.reason"
  requireStoreIdentifier record.approverSessionId "approval.approverSessionId"
  requireStoreEpoch record.requestedAt "approval.requestedAt"
  requireStoreEpoch record.expiresAt "approval.expiresAt"
  requireRaised record.status
  assertPrincipalShape record.requestedBy "approval.requestedBy"

inductive ApprovalRaiseResult where
  | raised (request : ApprovalRequestRecord)
  | replayed (request : ApprovalRequestRecord)
  | settled (attemptId : String)

def requestLands (s : GraphStore) (record : ApprovalRequestRecord) : Bool :=
  !(s.approvalRequests.any fun row => row.SameKey record) &&
    !s.accepted record.graphId record.attemptId

/-- The columns of a raise; the insert leaves the decision's own columns empty. -/
def ApprovalRequestRecord.undecided (record : ApprovalRequestRecord) : ApprovalRequestRecord :=
  { record with decidedBy := none, decidedAt := none, decisionReason := none }

def raisedRequests (s : GraphStore) (record : ApprovalRequestRecord) : List ApprovalRequestRecord :=
  if requestLands s record then s.approvalRequests ++ [record.undecided] else s.approvalRequests

def raiseApprovalRequest (record : ApprovalRequestRecord) : StoreTx ApprovalRaiseResult := do
  assertApprovalRequestShape record
  let s ← get
  let lands := requestLands s record
  set { s with approvalRequests := raisedRequests s record }
  let s ← get
  match s.readApprovalRequest record.graphId record.attemptId with
  | none => pure (.settled record.attemptId)
  | some stored => pure (if lands then .raised stored else .replayed stored)

inductive ApprovalDecisionCommand where
  | approve
  | reject

def ApprovalDecisionCommand.name : ApprovalDecisionCommand → ControlCommandName
  | .approve => .approve
  | .reject => .reject

def ApprovalDecisionCommand.status : ApprovalDecisionCommand → ApprovalRequestStatus
  | .approve => .approved
  | .reject => .rejected

structure ApprovalDecisionWrite where
  graphId : String
  runId : String
  nodeId : String
  attemptId : String
  command : ApprovalDecisionCommand
  reason : String
  decidedAt : Int
  decidedBy : ControlPrincipalRecord

inductive ApprovalDecideResult where
  | decided (request : ApprovalRequestRecord)
  | replayed (request : ApprovalRequestRecord)
  | conflict (request : ApprovalRequestRecord)
  | expired (request : ApprovalRequestRecord)
  | absent

def assertApprovalDecisionShape (write : ApprovalDecisionWrite) : StoreTx PUnit := do
  requireStoreIdentifier write.graphId "approval.graphId"
  requireStoreIdentifier write.runId "approval.runId"
  requireStoreIdentifier write.nodeId "approval.nodeId"
  requireStoreIdentifier write.attemptId "approval.attemptId"
  requireStoreIdentifier write.reason "approval.reason"
  requireStoreEpoch write.decidedAt "approval.decidedAt"
  assertPrincipalShape (some write.decidedBy) "approval.decidedBy"

def APPROVAL_DEADLINE_REASON : String :=
  "the approval deadline passed before a decision was recorded"

def ApprovalDecisionWrite.decide (write : ApprovalDecisionWrite) (row : ApprovalRequestRecord) :
    ApprovalRequestRecord :=
  { row with
    status := write.command.status
    decidedBy := some write.decidedBy
    decidedAt := some write.decidedAt
    decisionReason := some write.reason }

def expireDecided (write : ApprovalDecisionWrite) : StoreTx ApprovalDecideResult := do
  let s ← get
  set { s with
    approvalRequests := updateWhere (ApprovalRequestRecord.Awaits write.graphId write.attemptId)
      (ApprovalRequestRecord.expire write.decidedAt APPROVAL_DEADLINE_REASON)
      s.approvalRequests }
  let s ← get
  match s.readApprovalRequest write.graphId write.attemptId with
  | none => refuseWrite .invalidRecord ("graph-store: the approval request of attempt " ++
      quote write.attemptId ++
      " disappeared between the expiry and the read — nothing was recorded")
  | some expired => pure (.expired expired)

def landDecision (write : ApprovalDecisionWrite) : StoreTx ApprovalDecideResult := do
  let s ← get
  set { s with
    approvalRequests := updateWhere (ApprovalRequestRecord.Awaits write.graphId write.attemptId)
      write.decide s.approvalRequests }
  let s ← get
  match (s.readApprovalRequest write.graphId write.attemptId).filter
      fun decided => decided.status = write.command.status with
  | none => refuseWrite .invalidRecord ("graph-store: approval decision " ++
      quote write.command.name.text ++ " for attempt " ++ quote write.attemptId ++
      " did not land although the request was pending — nothing was recorded")
  | some decided => pure (.decided decided)

def decideApprovalRequest (write : ApprovalDecisionWrite) : StoreTx ApprovalDecideResult := do
  assertApprovalDecisionShape write
  let s ← get
  match s.readApprovalRequest write.graphId write.attemptId with
  | none => pure .absent
  | some existing =>
    if existing.runId ≠ write.runId ∨ existing.nodeId ≠ write.nodeId ∨
        existing.approverSessionId ≠ write.decidedBy.sessionId then
      refuseWrite .invalidRecord
        "approval decision does not match the authorized attempt and principal"
    else if existing.status = write.command.status then pure (.replayed existing)
    else if existing.status ≠ .pending then pure (.conflict existing)
    else if existing.expiresAt ≤ write.decidedAt then expireDecided write
    else landDecision write

def requestsOf (s : GraphStore) (graphId : String) (rows : List ApprovalRequestRecord) :
    List ApprovalRequestRecord :=
  rows.filterMap fun row => s.readApprovalRequest graphId row.attemptId

/-- What waits is read, expired and read again. -/
def expireWaiting (graphId : String) (waits : ApprovalRequestRecord → Prop) [DecidablePred waits]
    (at' : Int) (reason : String) : StoreTx (List ApprovalRequestRecord) := do
  requireStoreEpoch at' "approval.at"
  requireStoreIdentifier reason "approval.reason"
  let s ← get
  let due := requestsOf s graphId ((s.approvalRequests.filter waits).insertionSort raisedFirst)
  set { s with
    approvalRequests := updateWhere waits (ApprovalRequestRecord.expire at' reason)
      s.approvalRequests }
  let s ← get
  pure (requestsOf s graphId due)

def expireDueApprovals (graphId : String) (at' : Int) (reason : String) :
    StoreTx (List ApprovalRequestRecord) :=
  expireWaiting graphId (ApprovalRequestRecord.Due graphId at') at' reason

def expireRunApprovals (graphId runId : String) (at' : Int) (reason : String) :
    StoreTx (List ApprovalRequestRecord) := do
  requireStoreIdentifier runId "approval.runId"
  expireWaiting graphId (ApprovalRequestRecord.AwaitsIn graphId runId) at' reason

section Specs
variable {s s' : GraphStore} {u : PUnit}
variable {graphId : String} {record : ApprovalRequestRecord} {write : ApprovalDecisionWrite}
  {result : ApprovalDecideResult}

theorem readApprovalRequest_mem {attemptId : String} {request : ApprovalRequestRecord}
    (h : s.readApprovalRequest graphId attemptId = some request) :
    request ∈ s.approvalRequests ∧ request.Names graphId attemptId := by
  have hmem := firstBy_mem h
  rw [List.mem_filter] at hmem
  exact ⟨hmem.1, by simpa using hmem.2⟩

def ApprovalGrant.Shaped (grant : ApprovalGrant) : Prop :=
  trim grant.policyId ≠ "" ∧ trim grant.revision ≠ "" ∧ trim grant.digest ≠ ""

def ApprovalRequestRecord.Independent (record : ApprovalRequestRecord) : Prop :=
  record.authority.mode = .independentReview →
    ∃ requester, record.requestedBy = some requester ∧
      requester.sessionId ≠ record.approverSessionId

theorem requireGrantIdentifier_ok {value : String} :
    requireGrantIdentifier value s = .ok (u, s') ↔ trim value ≠ "" ∧ s' = s := by
  unfold requireGrantIdentifier
  rw [ite_ok, throw_ok, pure_ok]
  simp

theorem readApprovalGrant_ok {grant : ApprovalGrant}
    (h : readApprovalGrant grant s = .ok (u, s')) : s' = s ∧ grant.Shaped := by
  simp only [readApprovalGrant, bind_ok, requireGrantIdentifier_ok] at h
  obtain ⟨_, _, ⟨hpolicy, rfl⟩, _, _, ⟨hrevision, rfl⟩, hdigest, rfl⟩ := h
  exact ⟨rfl, hpolicy, hrevision, hdigest⟩

theorem requireIndependence_ok (h : requireIndependence record s = .ok (u, s')) :
    s' = s ∧ record.Independent := by
  obtain ⟨-, h⟩ | ⟨hdistinct, h⟩ := ite_ok.1 h
  · exact (refuseWrite_ok.1 h).elim
  refine ⟨(pure_ok.1 h).2, fun hmode => ?_⟩
  cases hrequester : record.requestedBy with
  | none => exact absurd ⟨hmode, by rw [hrequester]; rfl⟩ hdistinct
  | some requester =>
    refine ⟨requester, rfl, fun hsame => hdistinct ⟨hmode, ?_⟩⟩
    rw [hrequester]
    exact decide_eq_true hsame

theorem requireRaised_ok {status : ApprovalRequestStatus}
    (h : requireRaised status s = .ok (u, s')) : s' = s ∧ status = .pending := by
  obtain ⟨-, h⟩ | ⟨hpending, h⟩ := ite_ok.1 h
  · exact (refuseWrite_ok.1 h).elim
  · exact ⟨(pure_ok.1 h).2, not_not.1 hpending⟩

structure ApprovalRequestRecord.Raised (record : ApprovalRequestRecord) : Prop where
  grant : record.authority.Shaped
  independent : record.Independent
  graphId : record.graphId ≠ ""
  runId : record.runId ≠ ""
  nodeId : record.nodeId ≠ ""
  attemptId : record.attemptId ≠ ""
  reason : record.reason ≠ ""
  approver : record.approverSessionId ≠ ""
  requestedAt : record.requestedAt.natAbs ≤ maxSafeInteger
  expiresAt : record.expiresAt.natAbs ≤ maxSafeInteger
  requester : ∀ principal, record.requestedBy = some principal → principal.Shaped

theorem assertApprovalRequestShape_ok (h : assertApprovalRequestShape record s = .ok (u, s')) :
    s' = s ∧ record.Raised ∧ record.status = .pending := by
  simp only [assertApprovalRequestShape, bind_ok, requireStoreIdentifier_ok, requireStoreEpoch_ok,
    assertPrincipalShape_ok] at h
  obtain ⟨_, _, hgrant, _, _, hindependent, _, _, ⟨hgraph, rfl⟩, _, _, ⟨hrun, rfl⟩,
    _, _, ⟨hnode, rfl⟩, _, _, ⟨hattempt, rfl⟩, _, _, ⟨hreason, rfl⟩, _, _, ⟨happrover, rfl⟩,
    _, _, ⟨hrequested, rfl⟩, _, _, ⟨hexpires, rfl⟩, _, _, hraised, hrequester, rfl⟩ := h
  obtain ⟨rfl, hpending⟩ := requireRaised_ok hraised
  obtain ⟨rfl, hdistinct⟩ := requireIndependence_ok hindependent
  obtain ⟨rfl, hshaped⟩ := readApprovalGrant_ok hgrant
  exact ⟨rfl, ⟨hshaped, hdistinct, hgraph, hrun, hnode, hattempt, hreason, happrover, hrequested,
    hexpires, hrequester⟩, hpending⟩

theorem raiseApprovalRequest_ok {result : ApprovalRaiseResult}
    (h : raiseApprovalRequest record s = .ok (result, s')) :
    record.Raised ∧ record.status = .pending ∧
      s' = { s with approvalRequests := raisedRequests s record } ∧
      result = match s'.readApprovalRequest record.graphId record.attemptId with
        | none => .settled record.attemptId
        | some stored => if requestLands s record then .raised stored else .replayed stored := by
  simp only [raiseApprovalRequest, bind_ok, get_bind, set_bind] at h
  obtain ⟨_, t, hshape, hread⟩ := h
  obtain ⟨rfl, hraised, hpending⟩ := assertApprovalRequestShape_ok hshape
  refine ⟨hraised, hpending, ?_⟩
  generalize hstored : GraphStore.readApprovalRequest _ _ _ = stored at hread
  cases stored with
  | none | some stored =>
    obtain ⟨rfl, rfl⟩ := pure_ok.1 hread
    exact ⟨rfl, by rw [hstored]⟩

theorem expireDecided_ok (h : expireDecided write s = .ok (result, s')) :
    (∃ request, result = .expired request) ∧
      s' = { s with
        approvalRequests := updateWhere
          (ApprovalRequestRecord.Awaits write.graphId write.attemptId)
          (ApprovalRequestRecord.expire write.decidedAt APPROVAL_DEADLINE_REASON)
          s.approvalRequests } := by
  simp only [expireDecided, get_bind, set_bind] at h
  generalize GraphStore.readApprovalRequest _ _ _ = stored at h
  cases stored with
  | none => exact (refuseWrite_ok.1 h).elim
  | some expired =>
    obtain ⟨rfl, rfl⟩ := pure_ok.1 h
    exact ⟨⟨expired, rfl⟩, rfl⟩

theorem landDecision_ok (h : landDecision write s = .ok (result, s')) :
    (∃ request, result = .decided request) ∧
      s' = { s with
        approvalRequests := updateWhere
          (ApprovalRequestRecord.Awaits write.graphId write.attemptId) write.decide
          s.approvalRequests } := by
  simp only [landDecision, get_bind, set_bind] at h
  generalize Option.filter _ _ = stored at h
  cases stored with
  | none => exact (refuseWrite_ok.1 h).elim
  | some decided =>
    obtain ⟨rfl, rfl⟩ := pure_ok.1 h
    exact ⟨⟨decided, rfl⟩, rfl⟩

structure ApprovalDecisionWrite.Shaped (write : ApprovalDecisionWrite) : Prop where
  reason : write.reason ≠ ""
  decidedAt : write.decidedAt.natAbs ≤ maxSafeInteger
  decidedBy : write.decidedBy.Shaped

theorem assertApprovalDecisionShape_ok (h : assertApprovalDecisionShape write s = .ok (u, s')) :
    s' = s ∧ write.Shaped := by
  simp only [assertApprovalDecisionShape, bind_ok, requireStoreIdentifier_ok,
    requireStoreEpoch_ok, assertPrincipalShape_ok] at h
  obtain ⟨_, _, ⟨-, rfl⟩, _, _, ⟨-, rfl⟩, _, _, ⟨-, rfl⟩, _, _, ⟨-, rfl⟩, _, _, ⟨hreason, rfl⟩,
    _, _, ⟨hdecided, rfl⟩, hprincipal, rfl⟩ := h
  exact ⟨rfl, hreason, hdecided, hprincipal _ rfl⟩

structure ApprovalDecisionWrite.Decides (write : ApprovalDecisionWrite) (s : GraphStore)
    (request : ApprovalRequestRecord) : Prop where
  stands : s.readApprovalRequest write.graphId write.attemptId = some request
  approver : request.approverSessionId = write.decidedBy.sessionId
  pending : request.status = .pending

/-- The pending requests of an attempt decided or expired, or nothing changed. -/
theorem decideApprovalRequest_ok (h : decideApprovalRequest write s = .ok (result, s')) :
    write.Shaped ∧ (
      (s' = s ∧ (result = .absent ∨ ∃ request,
        s.readApprovalRequest write.graphId write.attemptId = some request ∧
          (result = .replayed request ∨ result = .conflict request))) ∨
      (∃ existing request, write.Decides s existing ∧ existing.expiresAt ≤ write.decidedAt ∧
        result = .expired request ∧ s' = { s with
          approvalRequests := updateWhere
            (ApprovalRequestRecord.Awaits write.graphId write.attemptId)
            (ApprovalRequestRecord.expire write.decidedAt APPROVAL_DEADLINE_REASON)
            s.approvalRequests }) ∨
      (∃ existing request, write.Decides s existing ∧ write.decidedAt < existing.expiresAt ∧
        result = .decided request ∧ s' = { s with
          approvalRequests := updateWhere
            (ApprovalRequestRecord.Awaits write.graphId write.attemptId) write.decide
            s.approvalRequests })) := by
  simp only [decideApprovalRequest, bind_ok, get_bind] at h
  obtain ⟨_, t, hshape, hdecide⟩ := h
  obtain ⟨rfl, hshaped⟩ := assertApprovalDecisionShape_ok hshape
  refine ⟨hshaped, ?_⟩
  cases hread : t.readApprovalRequest write.graphId write.attemptId with
  | none =>
    rw [hread] at hdecide
    obtain ⟨rfl, rfl⟩ := pure_ok.1 hdecide
    exact .inl ⟨rfl, .inl rfl⟩
  | some existing =>
    simp only [hread] at hdecide
    obtain ⟨-, h⟩ | ⟨hmatch, h⟩ := ite_ok.1 hdecide
    · exact (refuseWrite_ok.1 h).elim
    obtain ⟨-, h⟩ | ⟨-, h⟩ := ite_ok.1 h
    · obtain ⟨rfl, rfl⟩ := pure_ok.1 h
      exact .inl ⟨rfl, .inr ⟨existing, rfl, .inl rfl⟩⟩
    obtain ⟨-, h⟩ | ⟨hpending, h⟩ := ite_ok.1 h
    · obtain ⟨rfl, rfl⟩ := pure_ok.1 h
      exact .inl ⟨rfl, .inr ⟨existing, rfl, .inr rfl⟩⟩
    push Not at hmatch
    have hdecides : write.Decides t existing := ⟨hread, hmatch.2.2, not_not.1 hpending⟩
    obtain ⟨hlate, h⟩ | ⟨hearly, h⟩ := ite_ok.1 h
    · obtain ⟨⟨request, rfl⟩, rfl⟩ := expireDecided_ok h
      exact .inr (.inl ⟨existing, request, hdecides, hlate, rfl, rfl⟩)
    · obtain ⟨⟨request, rfl⟩, rfl⟩ := landDecision_ok h
      exact .inr (.inr ⟨existing, request, hdecides, not_le.1 hearly, rfl, rfl⟩)

theorem expireWaiting_ok {reason : String} {at' : Int} {expired : List ApprovalRequestRecord}
    {waits : ApprovalRequestRecord → Prop} [DecidablePred waits]
    (h : expireWaiting graphId waits at' reason s = .ok (expired, s')) :
    at'.natAbs ≤ maxSafeInteger ∧ reason ≠ "" ∧ s' = { s with
      approvalRequests := updateWhere waits (ApprovalRequestRecord.expire at' reason)
        s.approvalRequests } := by
  simp only [expireWaiting, bind_ok, requireStoreIdentifier_ok, requireStoreEpoch_ok,
    get_bind, set_bind, pure_ok] at h
  obtain ⟨_, _, ⟨hat, rfl⟩, _, _, ⟨hreason, rfl⟩, -, rfl⟩ := h
  exact ⟨hat, hreason, rfl⟩

theorem expireRunApprovals_ok {runId reason : String} {at' : Int}
    {expired : List ApprovalRequestRecord}
    (h : expireRunApprovals graphId runId at' reason s = .ok (expired, s')) :
    at'.natAbs ≤ maxSafeInteger ∧ reason ≠ "" ∧ s' = { s with
      approvalRequests := updateWhere (ApprovalRequestRecord.AwaitsIn graphId runId)
        (ApprovalRequestRecord.expire at' reason) s.approvalRequests } := by
  simp only [expireRunApprovals, bind_ok, requireStoreIdentifier_ok] at h
  obtain ⟨_, _, ⟨-, rfl⟩, h⟩ := h
  exact expireWaiting_ok h

end Specs

end Rolebox.Graph
