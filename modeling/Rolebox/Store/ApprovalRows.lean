import Rolebox.Store.Approvals

/-! The columns of an approval request, and the strict reader that takes one back from them. -/

namespace Rolebox.Graph
open General Transaction

def APPROVAL_REQUESTS : String := "graph_approval_requests"

/-- One row of the table. The authority is the value its text parses to, if it parses. -/
structure ApprovalRow where
  graphId : String
  runId : String
  nodeId : String
  attemptId : String
  status : String
  reason : String
  requestedAt : Int
  requestedBySession : Option String
  requestedByAgent : Option String
  approverSessionId : String
  authority : Option Json
  expiresAt : Int
  decidedBySession : Option String
  decidedByAgent : Option String
  decidedAt : Option Int
  decisionReason : Option String

def ApprovalMode.text : ApprovalMode → String
  | .independentReview => "independent-review"
  | .operatorConfirmation => "operator-confirmation"

def ApprovalGrant.json (grant : ApprovalGrant) : Json :=
  .obj [("policyId", .str grant.policyId), ("revision", .str grant.revision),
    ("digest", .str grant.digest), ("mode", .str grant.mode.text)]

def ApprovalRequestRecord.columns (record : ApprovalRequestRecord) : ApprovalRow :=
  { graphId := record.graphId
    runId := record.runId
    nodeId := record.nodeId
    attemptId := record.attemptId
    status := record.status.text
    reason := record.reason
    requestedAt := record.requestedAt
    requestedBySession := record.requestedBy.map ControlPrincipalRecord.sessionId
    requestedByAgent := record.requestedBy.bind ControlPrincipalRecord.agentId
    approverSessionId := record.approverSessionId
    authority := some record.authority.json
    expiresAt := record.expiresAt
    decidedBySession := record.decidedBy.map ControlPrincipalRecord.sessionId
    decidedByAgent := record.decidedBy.bind ControlPrincipalRecord.agentId
    decidedAt := record.decidedAt
    decisionReason := record.decisionReason }

def malformedApproval {α : Type} : Except StoreFailure α :=
  .error (.malformedRow APPROVAL_REQUESTS)

def readStoreText (value : String) : Except StoreFailure String :=
  if value = "" then malformedApproval else .ok value

def readStoreEpoch (value : Int) : Except StoreFailure Int :=
  if maxSafeInteger < value.natAbs then malformedApproval else .ok value

def readOptionalStoreText : Option String → Except StoreFailure (Option String)
  | none => .ok none
  | some value => some <$> readStoreText value

def readOptionalStoreEpoch : Option Int → Except StoreFailure (Option Int)
  | none => .ok none
  | some value => some <$> readStoreEpoch value

def readDecidedBy (session agent : Option String) :
    Except StoreFailure (Option ControlPrincipalRecord) :=
  match session with
  | none => if agent.isSome then malformedApproval else .ok none
  | some session => do
    let session ← readStoreText session
    let agent ← readOptionalStoreText agent
    return some { sessionId := session, agentId := agent }

def readApprovalStatus (text : String) : Except StoreFailure ApprovalRequestStatus :=
  if text = "pending" then .ok .pending
  else if text = "approved" then .ok .approved
  else if text = "rejected" then .ok .rejected
  else if text = "expired" then .ok .expired
  else malformedApproval

def readApprovalMode (value : Option Json) : Except StoreFailure ApprovalMode :=
  match value.bind Json.str? with
  | none => malformedApproval
  | some text =>
    if text = "independent-review" then .ok .independentReview
    else if text = "operator-confirmation" then .ok .operatorConfirmation
    else malformedApproval

def grantIdentifier (value : Option Json) : Except StoreFailure String :=
  match value.bind Json.str? with
  | none => malformedApproval
  | some text => if trim text = "" then malformedApproval else .ok text

def grantKeys : List String := ["policyId", "revision", "digest", "mode"]

def readGrantFields (fields : List (String × Json)) : Except StoreFailure ApprovalGrant :=
  if fields.any fun field => field.1 ∉ grantKeys then malformedApproval
  else do
    let mode ← readApprovalMode (fields.lookup "mode")
    let policyId ← grantIdentifier (fields.lookup "policyId")
    let revision ← grantIdentifier (fields.lookup "revision")
    let digest ← grantIdentifier (fields.lookup "digest")
    return { policyId := policyId, revision := revision, digest := digest, mode := mode }

def readStoredApprovalGrant (authority : Option Json) : Except StoreFailure ApprovalGrant :=
  match authority.bind Json.obj? with
  | none => malformedApproval
  | some fields => readGrantFields fields

/-- A pending row carries no decision; any other its time, reason and decider, or expired. -/
def checkDecisionColumns (status : ApprovalRequestStatus) (decidedAt : Option Int)
    (decisionReason : Option String) (decidedBy : Option ControlPrincipalRecord) :
    Except StoreFailure PUnit :=
  if status = .pending then
    if decidedAt.isSome ∨ decisionReason.isSome ∨ decidedBy.isSome then malformedApproval
    else .ok ⟨⟩
  else if decidedAt = none ∨ decisionReason = none then malformedApproval
  else if (status = .approved ∨ status = .rejected) ∧ decidedBy = none then malformedApproval
  else .ok ⟨⟩

def checkAuthority (authority : ApprovalGrant) (approverSessionId : String)
    (requestedBy decidedBy : Option ControlPrincipalRecord) : Except StoreFailure PUnit :=
  if (authority.mode = .independentReview ∧
        requestedBy.all (fun principal => principal.sessionId = approverSessionId)) ∨
      decidedBy.any (fun principal => principal.sessionId ≠ approverSessionId) then
    malformedApproval
  else .ok ⟨⟩

def readApprovalRow (row : ApprovalRow) : Except StoreFailure ApprovalRequestRecord := do
  let status ← readApprovalStatus row.status
  let decidedAt ← readOptionalStoreEpoch row.decidedAt
  let decisionReason ← readOptionalStoreText row.decisionReason
  let decidedBy ← readDecidedBy row.decidedBySession row.decidedByAgent
  checkDecisionColumns status decidedAt decisionReason decidedBy
  let requestedBy ← readDecidedBy row.requestedBySession row.requestedByAgent
  let authority ← readStoredApprovalGrant row.authority
  let approverSessionId ← readStoreText row.approverSessionId
  checkAuthority authority approverSessionId requestedBy decidedBy
  let graphId ← readStoreText row.graphId
  let runId ← readStoreText row.runId
  let nodeId ← readStoreText row.nodeId
  let attemptId ← readStoreText row.attemptId
  let reason ← readStoreText row.reason
  let requestedAt ← readStoreEpoch row.requestedAt
  let expiresAt ← readStoreEpoch row.expiresAt
  return { graphId := graphId
           runId := runId
           nodeId := nodeId
           attemptId := attemptId
           status := status
           reason := reason
           requestedAt := requestedAt
           requestedBy := requestedBy
           approverSessionId := approverSessionId
           authority := authority
           expiresAt := expiresAt
           decidedBy := decidedBy
           decidedAt := decidedAt
           decisionReason := decisionReason }

theorem readStoreText_ok {value : String} (h : value ≠ "") : readStoreText value = .ok value :=
  if_neg h

theorem readStoreEpoch_ok {value : Int} (h : value.natAbs ≤ maxSafeInteger) :
    readStoreEpoch value = .ok value :=
  if_neg (Nat.not_lt.2 h)

theorem readOptionalStoreText_ok {value : Option String} (h : value ≠ some "") :
    readOptionalStoreText value = .ok value := by
  cases value with
  | none => rfl
  | some text =>
    have htext : text ≠ "" := fun hempty => h (congrArg some hempty)
    show some <$> readStoreText text = _
    rw [readStoreText_ok htext]
    rfl

theorem readOptionalStoreEpoch_ok {value : Option Int}
    (h : ∀ at', value = some at' → at'.natAbs ≤ maxSafeInteger) :
    readOptionalStoreEpoch value = .ok value := by
  cases value with
  | none => rfl
  | some at' =>
    show some <$> readStoreEpoch at' = _
    rw [readStoreEpoch_ok (h at' rfl)]
    rfl

theorem readDecidedBy_columns {principal : Option ControlPrincipalRecord}
    (h : ∀ p, principal = some p → p.Shaped) :
    readDecidedBy (principal.map ControlPrincipalRecord.sessionId)
      (principal.bind ControlPrincipalRecord.agentId) = .ok principal := by
  cases principal with
  | none => rfl
  | some principal =>
    obtain ⟨hsession, hagent⟩ := h principal rfl
    simp only [readDecidedBy, Option.map_some, Option.bind_some, readStoreText_ok hsession,
      readOptionalStoreText_ok hagent]
    rfl

theorem readApprovalStatus_text (status : ApprovalRequestStatus) :
    readApprovalStatus status.text = .ok status := by
  cases status <;> rfl

theorem readApprovalMode_text (mode : ApprovalMode) :
    readApprovalMode (some (.str mode.text)) = .ok mode := by
  cases mode <;> rfl

theorem grantIdentifier_str {text : String} (h : trim text ≠ "") :
    grantIdentifier (some (.str text)) = .ok text :=
  if_neg h

theorem readStoredApprovalGrant_json {grant : ApprovalGrant} (h : grant.Shaped) :
    readStoredApprovalGrant (some grant.json) = .ok grant := by
  obtain ⟨hpolicy, hrevision, hdigest⟩ := h
  have hfields : readStoredApprovalGrant (some grant.json) = (do
      let mode ← readApprovalMode (some (.str grant.mode.text))
      let policyId ← grantIdentifier (some (.str grant.policyId))
      let revision ← grantIdentifier (some (.str grant.revision))
      let digest ← grantIdentifier (some (.str grant.digest))
      return { policyId := policyId, revision := revision, digest := digest, mode := mode }) := rfl
  rw [hfields, readApprovalMode_text, grantIdentifier_str hpolicy, grantIdentifier_str hrevision,
    grantIdentifier_str hdigest]
  rfl

namespace ApprovalRequestRecord

structure DecidedInTime (row : ApprovalRequestRecord) (principal : ControlPrincipalRecord)
    (at' : Int) : Prop where
  decidedBy : row.decidedBy = some principal
  decidedAt : row.decidedAt = some at'
  inTime : at' < row.expiresAt
  approver : principal.sessionId = row.approverSessionId
  shaped : principal.Shaped

/-- What the decision's columns hold under each status. -/
def Decision (row : ApprovalRequestRecord) : Prop :=
  match row.status with
  | .pending => row.decidedBy = none ∧ row.decidedAt = none ∧ row.decisionReason = none
  | .expired => row.decidedBy = none ∧ row.decidedAt.isSome ∧ row.decisionReason.isSome
  | _ => (∃ principal at', row.DecidedInTime principal at') ∧ row.decisionReason.isSome

structure Sound (row : ApprovalRequestRecord) : Prop where
  raised : row.Raised
  decision : row.Decision
  decidedAt : ∀ at', row.decidedAt = some at' → at'.natAbs ≤ maxSafeInteger
  decisionReason : row.decisionReason ≠ some ""

variable {row : ApprovalRequestRecord}

theorem Decision.principal (h : row.Decision) {principal : ControlPrincipalRecord}
    (hby : row.decidedBy = some principal) :
    principal.Shaped ∧ principal.sessionId = row.approverSessionId := by
  unfold Decision at h
  have hdecided : ∀ at' who, row.DecidedInTime who at' →
      principal.Shaped ∧ principal.sessionId = row.approverSessionId := by
    intro at' who hwho
    have hsame : principal = who := Option.some.inj (hby.symm.trans hwho.decidedBy)
    rw [hsame]
    exact ⟨hwho.shaped, hwho.approver⟩
  cases hstatus : row.status with
  | pending | expired =>
    rw [hstatus] at h
    exact nomatch h.1.symm.trans hby
  | approved | rejected =>
    rw [hstatus] at h
    obtain ⟨⟨who, at', hwho⟩, -⟩ := h
    exact hdecided at' who hwho

theorem Decision.columns (h : row.Decision) :
    checkDecisionColumns row.status row.decidedAt row.decisionReason row.decidedBy = .ok ⟨⟩ := by
  unfold Decision at h
  cases hstatus : row.status with
  | pending =>
    rw [hstatus] at h
    obtain ⟨hby, hat, hreason⟩ := h
    rw [hby, hat, hreason]
    rfl
  | expired =>
    rw [hstatus] at h
    obtain ⟨hby, hat, hreason⟩ := h
    obtain ⟨at', hat⟩ := Option.isSome_iff_exists.1 hat
    obtain ⟨reason, hreason⟩ := Option.isSome_iff_exists.1 hreason
    rw [hby, hat, hreason]
    rfl
  | approved | rejected =>
    rw [hstatus] at h
    obtain ⟨⟨principal, at', hwho⟩, hreason⟩ := h
    obtain ⟨reason, hreason⟩ := Option.isSome_iff_exists.1 hreason
    rw [hwho.decidedBy, hwho.decidedAt, hreason]
    rfl

theorem Sound.authorized (h : row.Sound) :
    checkAuthority row.authority row.approverSessionId row.requestedBy row.decidedBy = .ok ⟨⟩ := by
  refine if_neg ?_
  rintro (⟨hmode, hall⟩ | hany)
  · obtain ⟨requester, hrequester, hdistinct⟩ := h.raised.independent hmode
    rw [hrequester] at hall
    exact hdistinct (of_decide_eq_true hall)
  · cases hby : row.decidedBy with
    | none =>
      rw [hby] at hany
      exact nomatch hany
    | some principal =>
      rw [hby] at hany
      exact of_decide_eq_true hany (h.decision.principal hby).2

theorem Sound.read (h : row.Sound) : readApprovalRow row.columns = .ok row := by
  have hdecided := readDecidedBy_columns fun principal hby => (h.decision.principal hby).1
  have hrequested := readDecidedBy_columns h.raised.requester
  simp only [readApprovalRow, columns, readApprovalStatus_text, hdecided, hrequested,
    readOptionalStoreEpoch_ok h.decidedAt, readOptionalStoreText_ok h.decisionReason,
    readStoredApprovalGrant_json h.raised.grant, readStoreText_ok h.raised.approver,
    readStoreText_ok h.raised.graphId, readStoreText_ok h.raised.runId,
    readStoreText_ok h.raised.nodeId, readStoreText_ok h.raised.attemptId,
    readStoreText_ok h.raised.reason, readStoreEpoch_ok h.raised.requestedAt,
    readStoreEpoch_ok h.raised.expiresAt]
  show (do
    checkDecisionColumns row.status row.decidedAt row.decisionReason row.decidedBy
    checkAuthority row.authority row.approverSessionId row.requestedBy row.decidedBy
    pure row) = _
  rw [h.decision.columns, h.authorized]
  rfl

end ApprovalRequestRecord

end Rolebox.Graph
