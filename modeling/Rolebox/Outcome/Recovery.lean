import Rolebox.General.Interaction
import Rolebox.Outcome.DispatchEffects
import Rolebox.Outcome.Refusals

/-! Recovery of the dispatch effects a process left unsettled. -/

namespace Rolebox.Graph
open General Transaction

inductive OutcomeReconciledReason where
  | hostReportedCreated
  | recordedStarted
  | attemptSettled

structure OutcomeReconciledEffect where
  effectId : String
  attemptId : String
  reason : OutcomeReconciledReason

inductive OutcomeEffectResolution where
  | reconciledStarted
  | reportedUnreconciled

structure OutcomeEffectDivergence where
  effectId : String
  attemptId : String
  «local» : EffectStatus
  host : OutcomeExecutionLookup
  resolution : OutcomeEffectResolution

structure RecoveryReport where
  launched : List OutcomeDispatchRequest
  reconciled : List OutcomeReconciledEffect
  divergences : List OutcomeEffectDivergence
  refusals : List OutcomeRuntimeRefusal
  reissued : Bool

namespace RecoveryReport

def empty : RecoveryReport :=
  { launched := [], reconciled := [], divergences := [], refusals := [], reissued := false }

def refuse (report : RecoveryReport) (refusal : OutcomeRuntimeRefusal) : RecoveryReport :=
  { report with refusals := report.refusals ++ [refusal] }

def reconcile (report : RecoveryReport) (effectId attemptId : String)
    (reason : OutcomeReconciledReason) : RecoveryReport :=
  { report with reconciled := report.reconciled ++ [⟨effectId, attemptId, reason⟩] }

def diverge (report : RecoveryReport) (effectId attemptId : String) («local» : EffectStatus)
    (host : OutcomeExecutionLookup) (resolution : OutcomeEffectResolution) : RecoveryReport :=
  { report with
    divergences := report.divergences ++ [⟨effectId, attemptId, «local», host, resolution⟩] }

def launch (report : RecoveryReport) (request : OutcomeDispatchRequest) : RecoveryReport :=
  { report with launched := report.launched ++ [request] }

end RecoveryReport

structure UnsettledEffect extends PendingEffectRecord where
  unsettled : status = .pending ∨ status = .started

/-- What the host's credential store makes of one question. -/
inductive StoredCredentialAnswer where
  | noStore
  | threw
  | answered (value : Option String)

inductive AttemptReissueClaim where
  | noFence
  | threw (error : String)
  | held (reason : String)
  | claimed (ownerId : String)

inductive EffectTransition where
  | transitioned
  | unchanged
  | refused (reason : String)
  | missing (reason : String)

inductive RecoveryCall where
  | pendingEffects
  | lookupLocal (effect : StoreEffectKey)
  | lookupPlatform (effect : StoreEffectKey)
  | resolveCredential (nodeId attemptId : String)
  | claim (effect : StoreEffectKey)
  | abandon (effect : StoreEffectKey) (ownerId reason : String)
  | replaceAttemptCredential (nodeId attemptId : String) (now : Nat) (observedDigest : String)
  | controlDecisions
  | readRunControl
  | create (request : OutcomeDispatchRequest) (effect : StoreEffectKey)
  | markEffectStarted (effectId : String)
  | markEffectDone (effectId : String)

def RecoveryCall.Answer : RecoveryCall → Type
  | pendingEffects => Except String (List UnsettledEffect)
  | lookupLocal _ => Except String OutcomeExecutionLookup
  | lookupPlatform _ => Option OutcomeExecutionLookup
  | resolveCredential .. => StoredCredentialAnswer
  | claim _ => AttemptReissueClaim
  | abandon .. => Unit
  | replaceAttemptCredential .. => Except OutcomeRuntimeRefusal String
  | controlDecisions => List ControlDecisionRecord
  | readRunControl => Option RunControlRecord
  | create .. => Except String Unit
  | markEffectStarted _ => EffectTransition
  | markEffectDone _ => EffectTransition

def recoveryInterface : Interface := { Call := RecoveryCall, Answer := RecoveryCall.Answer }

abbrev RecoveryProgram (α : Type) := Program recoveryInterface α

abbrev RecoveryExchange := Exchange recoveryInterface

def recover (c : RecoveryCall) : RecoveryProgram c.Answer :=
  Program.ask (I := recoveryInterface) c

section Credential

/-- What ends a re-issue: a refusal, an unreadable state, or a failure not quoted. -/
inductive ReissueFailure where
  | advanceRefused (code : OutcomeRuntimeRefusalCode) (message : String)
  | state (error : OutcomeStateError)
  | failed

abbrev StateRowTx (α : Type) := Transaction (Option GraphStateRecord) ReissueFailure α

variable (plan : CompiledPlan) (attemptCredentialDigest : String → String)
  (credentialSource : AttemptCredentialBinding → Except String String)

def reissueTarget (state : OutcomeGraphState) (nodeId attemptId : String) :
    Except ReissueFailure (Nat × OutcomeNodeState × DispatchFacts) :=
  let position := plan.nodes.findIdx (·.id = nodeId)
  match (state.nodes[position]?).filter (·.attemptId? = some attemptId) with
  | none =>
    .error (.advanceRefused .attemptMismatch
      ("outcome-runtime: the credential re-issue was asked for node " ++ quote nodeId ++
        " attempt " ++ quote attemptId ++ ", but the state records " ++
        (match (state.nodes[position]?).bind OutcomeNodeState.attemptId? with
          | none => "no such attempt"
          | some recorded => "attempt " ++ quote recorded) ++ " — nothing was re-issued"))
  | some current =>
    match current.progress with
    | .dispatched facts => .ok (position, current, facts)
    | _ =>
      .error (.advanceRefused .nodeNotDispatched
        ("outcome-runtime: node " ++ quote nodeId ++ " is " ++ current.status.text ++
          " (or records no credential digest), so its attempt is not one whose lost " ++
          "credential this build re-issues — nothing was written"))

/-- The transaction of a re-issue: the digest is replaced only while it is the observed one. -/
def reissueInTransaction (nodeId attemptId : String) (now : Nat) (observedDigest : String) :
    StateRowTx (Except OutcomeRuntimeRefusal String) := do
  let row ← get
  match row with
  | none =>
    throw (.advanceRefused .stateLedgerDisagreement
      ("outcome-runtime: the state of graph " ++ quote plan.graphId ++
        " disappeared between recovery's read and the credential re-issue — nothing " ++
        "was re-issued"))
  | some record =>
    let state ← ofExcept
      ((readOutcomeGraphState plan record DEFAULT_OUTCOME_STATE_BODY_REGISTRY).mapError .state)
    if state.bodyVersion ≠ CURRENT_OUTCOME_STATE_BODY then
      throw (.advanceRefused .unsupportedStateVersion
        ("outcome-runtime: graph " ++ quote plan.graphId ++ " records state body version " ++
          toString state.bodyVersion ++ ", which this build does not rewrite — the credential " ++
          "of a recovered attempt is never re-issued into an older layout"))
    else do
      let (position, current, facts) ← ofExcept (reissueTarget plan state nodeId attemptId)
      if facts.attemptCredentialDigest ≠ observedDigest then
        return .error
          { code := .credentialReissueForbidden
            path := some "$.attemptCredentialDigest"
            message := "outcome-runtime: node " ++ quote nodeId ++ " attempt " ++
              quote attemptId ++
              " was observed with one recorded credential verifier, but the state now " ++
              "records a DIFFERENT one — another recoverer re-issued this attempt's " ++
              "credential first, and this re-issue is refused rather than overwriting a " ++
              "verifier that may already belong to a dispatched worker" }
      else do
        let minted ← ofExcept ((credentialSource
          (attemptCredentialBinding plan.graphId nodeId attemptId plan.planRevision)).mapError
            fun _ => .failed)
        let reissued :=
          { current with
            progress := .dispatched
              { facts with attemptCredentialDigest := attemptCredentialDigest minted } }
        set (some (stateRecordOf { state with nodes := state.nodes.set position reissued } now))
        return .ok minted

def reissueNotCommitted (nodeId attemptId : String) : OutcomeRuntimeRefusal :=
  { code := .credentialMissing
    path := some "$.attemptCredentialDigest"
    message := "outcome-runtime: the credential re-issue for node " ++ quote nodeId ++
      " attempt " ++ quote attemptId ++
      " could not be committed (the transaction rolled back) — nothing was re-issued and the " ++
      "effect stays unsettled" }

def replaceAttemptCredential (nodeId attemptId : String) (now : Nat) (observedDigest : String)
    (row : Option GraphStateRecord) :
    Except OutcomeRuntimeRefusal String × Option GraphStateRecord :=
  match reissueInTransaction plan attemptCredentialDigest credentialSource nodeId attemptId now
    observedDigest row with
  | .ok answered => answered
  | .error (.advanceRefused code message) =>
    (.error { code := code, path := some "$.attemptCredentialDigest", message := message }, row)
  | .error (.state error) => (.error (stateRefusal error), row)
  | .error .failed => (.error (reissueNotCommitted nodeId attemptId), row)

end Credential

section Reconcile

/-- What one recovery is given: the plan of its graph and whether a dispatcher is installed. -/
structure RecoveryContext where
  plan : CompiledPlan
  dispatch : Bool

namespace RecoveryContext
variable (context : RecoveryContext)

def graphId : String := context.plan.graphId

def effectKey (attemptId : String) : StoreEffectKey :=
  dispatchEffectKeyOf context.graphId attemptId

end RecoveryContext

variable (context : RecoveryContext)

def lookupExecution (effect : StoreEffectKey) : RecoveryProgram OutcomeExecutionLookup := do
  let answered ← recover (.lookupLocal effect)
  match answered with
  | .error error => return .unknown ("the host lookup failed (" ++ error ++ ")")
  | .ok «local» =>
    let platform ← recover (.lookupPlatform effect)
    return joinExecutionLookups «local» platform

def resolveStoredCredential (nodeId attemptId : String) :
    RecoveryProgram (Except String String) := do
  let answered ← recover (.resolveCredential nodeId attemptId)
  match answered with
  | .noStore =>
    return .error ("this process holds no version-3 credential-isolation capability with a " ++
      "\x7b remember, resolve \x7d store")
  | .threw =>
    return .error ("the host store threw while resolving it (its message is not quoted: this " ++
      "is the component that legitimately holds credentials)")
  | .answered value =>
    match value.filter isAttemptCredential with
    | none =>
      return .error ("the host store did not answer a non-empty credential (the value is not " ++
        "quoted for the same reason)")
    | some credential => return .ok credential

def reissueForbidden (effect : PendingEffectRecord) (target : OutcomeDispatchTarget)
    (path detail : String) : OutcomeRuntimeRefusal :=
  { code := .credentialReissueForbidden
    path := some path
    message := "outcome-runtime: dispatch effect " ++ quote effect.effectId ++ " names node " ++
      quote target.nodeId ++ " on attempt " ++ quote target.attemptId ++ detail }

def replaceUnderClaim (target : OutcomeDispatchTarget) (now : Nat) (observedDigest ownerId : String) :
    RecoveryProgram (Except OutcomeRuntimeRefusal String) := do
  let replaced ← recover
    (.replaceAttemptCredential target.nodeId target.attemptId now observedDigest)
  match replaced with
  | .ok credential => return .ok credential
  | .error refusal =>
    let _ ← recover (.abandon (context.effectKey target.attemptId) ownerId
      "the credential re-issue refused before any create was attempted")
    return .error refusal

/-- Re-issued only for a pending effect the host proves absent, by the create right's holder. -/
def reissueLostCredential (effect : PendingEffectRecord) (target : OutcomeDispatchTarget)
    (lookup : OutcomeExecutionLookup) (now : Nat) (reason observedDigest : String) :
    RecoveryProgram (Except OutcomeRuntimeRefusal String) := do
  if effect.status ≠ .pending then
    return .error (reissueForbidden effect target "$.status"
      (" and is recorded " ++ quote effect.status.text ++
        ", so a create RETURNED for it and an execution may exist — a lost credential is " ++
        "never replaced for an effect that was handed to the platform (the reason the host " ++
        "store could not produce it: " ++ reason ++
        "); the effect stays unsettled and is reported"))
  else if lookup ≠ .absent then
    return .error (reissueForbidden effect target "$.effectId"
      (", its credential is gone (" ++ reason ++
        "), and re-issuing one is permitted ONLY after the host proves no execution " ++
        "exists. The host answered " ++ lookup.text ++
        (match lookup with
          | .unknown unknownReason => " (" ++ unknownReason ++ ")"
          | _ => "") ++
        " — so the attempt is NOT re-issued and NOT re-delivered: a blind retry could run " ++
        "it twice, and the block is reported rather than resolved by guessing"))
  else do
    let claim ← recover (.claim (context.effectKey target.attemptId))
    match claim with
    | .noFence =>
      return .error (reissueForbidden effect target "$.effectId"
        (", its credential is gone (" ++ reason ++
          "), and re-issuing one needs the host's CREATE-RIGHT fence — this runtime holds " ++
          "none, so the attempt is NOT re-issued and NOT re-delivered: without the fence a " ++
          "second recoverer could replace the verifier of an attempt this process is about " ++
          "to dispatch, and the effect stays unsettled and is reported"))
    | .held heldReason =>
      return .error (reissueForbidden effect target "$.effectId"
        (", its credential is gone (" ++ reason ++
          "), and the create right for it is held elsewhere (" ++ heldReason ++
          ") — the re-issue is refused rather than overwriting a verifier another " ++
          "recoverer may already have committed, so the effect stays unsettled and is " ++
          "reported"))
    | .threw error =>
      return .error (reissueForbidden effect target "$.effectId"
        (", its credential is gone (" ++ reason ++
          "), and the host's create-right fence could not be read (" ++ error ++
          ") — nothing was re-issued and the effect stays unsettled"))
    | .claimed ownerId => replaceUnderClaim context target now observedDigest ownerId

def deliveredCredential (effect : PendingEffectRecord) (target : OutcomeDispatchTarget)
    (lookup : OutcomeExecutionLookup) (now : Nat) (observedDigest : String) :
    RecoveryProgram (Except OutcomeRuntimeRefusal (String × Bool)) := do
  let resolved ← resolveStoredCredential target.nodeId target.attemptId
  match resolved with
  | .ok credential => return .ok (credential, false)
  | .error reason =>
    let reissued ← reissueLostCredential context effect target lookup now reason observedDigest
    return reissued.map fun credential => (credential, true)

def markDispatchStarted (attemptId : String) : RecoveryProgram (Option OutcomeRuntimeRefusal) := do
  let effectId := dispatchEffectIdOf attemptId
  let refusal := fun (reason : String) =>
    ({ code := .stateLedgerDisagreement
       path := some "$.effectId"
       message := "outcome-runtime: the dispatch effect " ++ quote effectId ++ " of graph " ++
        quote context.graphId ++ " could not be marked started (" ++ reason ++
        ") — the host may already hold this execution, so the attempt is not " ++
        "re-launched and the effect stays unsettled" } : OutcomeRuntimeRefusal)
  let transition ← recover (.markEffectStarted effectId)
  match transition with
  | .transitioned => return none
  | .unchanged => return none
  | .refused reason => return some (refusal reason)
  | .missing reason => return some (refusal reason)

def withoutCredentials (text credential : String) : String :=
  if credential.length = 0 then text
  else text.replace credential "[redacted attempt credential]"

def createFailed (effectId error credential : String) : OutcomeRuntimeRefusal :=
  { code := .dispatchFailed
    path := some "$.effectId"
    message := "outcome-runtime: the host threw while creating effect " ++ quote effectId ++
      " (" ++ withoutCredentials error credential ++
      ") — the effect stays unsettled and is NOT reported as started; the next " ++
      "recovery asks the host again before anything is created" }

/-- Create the execution of an attempt no stopping decision ends, once. -/
def launchAttempt (report : RecoveryReport) (effect : PendingEffectRecord)
    (target : OutcomeDispatchTarget) (inputs : List ResolvedInput) (credential : String) :
    RecoveryProgram RecoveryReport := do
  let decisions ← recover .controlDecisions
  match stoppingDecisionOf decisions target.attemptId with
  | some stopping =>
    let stopped ← recover .readRunControl
    return report.refuse (refusalForStoppingDecision context.graphId stopping stopped)
  | none =>
    match dispatchRequestOf context.plan target.nodeId target.attemptId target.agent
      target.prompt inputs credential with
    | .error error => return report.refuse (createFailed effect.effectId error credential)
    | .ok request =>
      let created ← recover (.create request (context.effectKey target.attemptId))
      match created with
      | .error error => return report.refuse (createFailed effect.effectId error credential)
      | .ok () =>
        let marked ← markDispatchStarted context target.attemptId
        match marked with
        | some refusal => return report.refuse refusal
        | none => return report.launch request

def resolvePending (report : RecoveryReport) (effect : PendingEffectRecord)
    (target : OutcomeDispatchTarget) (inputs : List ResolvedInput)
    (lookup : OutcomeExecutionLookup) (credential : String) : RecoveryProgram RecoveryReport :=
  match lookup with
  | .unknown reason =>
    return report.refuse
      { code := .dispatchUnreconciled
        path := some "$.effectId"
        message := "outcome-runtime: dispatch effect " ++ quote effect.effectId ++
          " (attempt " ++ quote target.attemptId ++
          ") was committed but its execution cannot be established: " ++
          withoutCredentials reason credential ++
          " — it was NOT launched and is reported as unsettled work for the host to " ++
          "reconcile; a blind retry could run the attempt twice, and reporting success " ++
          "would hide an attempt that never started" }
  | .created execution => do
    let marked ← markDispatchStarted context target.attemptId
    match marked with
    | some refusal => return report.refuse refusal
    | none =>
      return (report.reconcile effect.effectId target.attemptId .hostReportedCreated).diverge
        effect.effectId target.attemptId .pending (.created execution) .reconciledStarted
  | .absent => launchAttempt context report effect target inputs credential

def reportStarted (report : RecoveryReport) (effect : PendingEffectRecord)
    (target : OutcomeDispatchTarget) (lookup : OutcomeExecutionLookup) : RecoveryReport :=
  if lookup = .absent then
    (report.refuse
      { code := .dispatchUnreconciled
        path := some "$.effectId"
        message := "outcome-runtime: dispatch effect " ++ quote effect.effectId ++
          " is recorded as started, but the host reports no execution for it — the " ++
          "stored fact and the host fact disagree, so the effect is left exactly as it " ++
          "is and reported for reconciliation rather than started a second time" }).diverge
      effect.effectId target.attemptId .started .absent .reportedUnreconciled
  else report.reconcile effect.effectId target.attemptId .recordedStarted

def reconcileDispatched (report : RecoveryReport) (effect : PendingEffectRecord)
    (target : OutcomeDispatchTarget) (facts : DispatchFacts) (now : Nat) :
    RecoveryProgram RecoveryReport := do
  let declaredInputs := ((context.plan.nodes.find? (·.id = target.nodeId)).map (·.inputs)).getD []
  if facts.inputs.isNone ∧ 0 < declaredInputs.length then
    return report.refuse
      { code := .dispatchInputUnbound
        path := some "$.attemptId"
        message := "outcome-runtime: dispatch effect " ++ quote effect.effectId ++
          " targets node " ++ quote target.nodeId ++ " on attempt " ++ quote target.attemptId ++
          ", which DECLARES " ++ toString declaredInputs.length ++
          " input(s), but the persisted state entry for that attempt records no bound " ++
          "input view — it was armed before this build bound inputs to the attempt, so " ++
          "it is NOT launched with a hole where its input should be: the effect stays " ++
          "unsettled and this node must be armed again under this build (a trusted " ++
          "retry or a re-execution mints an attempt that carries the binding)" }
  else do
    -- the host is asked before the credential is read: its answer decides a re-issue
    let lookup ← lookupExecution (context.effectKey target.attemptId)
    let delivered ←
      deliveredCredential context effect target lookup now facts.attemptCredentialDigest
    match delivered with
    | .error refusal => return report.refuse refusal
    | .ok (credential, reissued) =>
      let report := { report with reissued := report.reissued || reissued }
      if effect.status = .started then
        return reportStarted report effect target lookup
      else resolvePending context report effect target (facts.inputs.getD []) lookup credential

/-- Close the effect of an attempt the state records as settled, and report any other one. -/
def reconcileUncorroborated (state : OutcomeGraphState) (report : RecoveryReport)
    (effect : PendingEffectRecord) (target : OutcomeDispatchTarget) :
    RecoveryProgram RecoveryReport :=
  match (entryOf state.nodes target.nodeId).filter fun recorded =>
    recorded.status = .settled ∧ recorded.attemptId? = some target.attemptId with
  | some _ => do
    let _ ← recover (.markEffectDone effect.effectId)
    return report.reconcile effect.effectId target.attemptId .attemptSettled
  | none =>
    return report.refuse
      { code := .stateLedgerDisagreement
        path := some "$.attemptId"
        message := "outcome-runtime: dispatch effect " ++ quote effect.effectId ++
          " names node " ++ quote target.nodeId ++ " on attempt " ++ quote target.attemptId ++
          ", but the persisted state does not record that attempt as in flight — " ++
          "the effect was not launched and stays unsettled" }

def reconcileEffect (state : OutcomeGraphState) (now : Nat) (report : RecoveryReport)
    (effect : PendingEffectRecord) : RecoveryProgram RecoveryReport :=
  if effect.kind ≠ "dispatch" then return report
  else
    match readDispatchRequest effect.payload context.graphId context.plan.planRevision with
    | .error message =>
      return report.refuse
        { code := .malformedEffect, path := some "$.payload", message := message }
    | .ok target =>
      match (dispatchedNodeOf state target.nodeId).filter (·.attemptId = target.attemptId) with
      | none => reconcileUncorroborated state report effect target
      | some facts => reconcileDispatched context report effect target facts now

def reconcile (state : OutcomeGraphState) (now : Nat) :
    RecoveryProgram (Except OutcomeRuntimeRefusal RecoveryReport) := do
  let answered ← recover .pendingEffects
  match answered with
  | .error error => return .error (ledgerReadRefusal context.graphId error)
  | .ok effects =>
    if !context.dispatch then
      return .error
        { code := .dispatchUnavailable
          path := none
          message := "outcome-runtime: graph " ++ quote context.graphId ++
            " was given no dispatch adapter — a node's execution has to go somewhere, and a " ++
            "no-op would let this runtime record a dispatch it never performed, so nothing is " ++
            "started, resumed or settled" }
    else do
      let report ← effects.foldlM (fun report effect =>
        reconcileEffect context state now report effect.toPendingEffectRecord) .empty
      return .ok report

end Reconcile
end Rolebox.Graph
