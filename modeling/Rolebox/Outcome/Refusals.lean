import Rolebox.Store.Tables

/-! Why the runtime refuses to act: the codes and texts every step of a run shares. -/

namespace Rolebox.Graph

inductive OutcomeRuntimeRefusalCode where
  | malformedEffect
  | stateLedgerDisagreement
  | dispatchInputUnbound
  | dispatchUnavailable
  | dispatchUnreconciled
  | dispatchFailed
  | credentialMissing
  | credentialReissueForbidden
  | attemptMismatch
  | nodeNotDispatched
  | unreadableState
  | unsupportedStateVersion
  | planRevisionMismatch
  | attemptStopped
  | controlStopped

structure OutcomeRuntimeRefusal where
  code : OutcomeRuntimeRefusalCode
  path : Option String
  message : String

section Texts
variable (graphId : String)

def ledgerReadRefusal (error : String) : OutcomeRuntimeRefusal :=
  { code := .unreadableState
    path := none
    message := "outcome-runtime: the graph state of " ++ quote graphId ++
      " could not be read from the ledger (" ++ error ++ ")" }

def stateRefusal (error : OutcomeStateError) : OutcomeRuntimeRefusal :=
  { code :=
      match error.problem with
      | .statePlanMismatch => .planRevisionMismatch
      | .unsupportedStateVersion => .unsupportedStateVersion
      | .malformedState => .unreadableState
    path := none
    message := error.message }

def decidedByText (decidedBy : Option ControlPrincipalRecord) : String :=
  match decidedBy with
  | none => ""
  | some principal => ", decided by session " ++ quote principal.sessionId

def attemptStopRefusal (decision : ControlDecisionRecord) : OutcomeRuntimeRefusal :=
  { code := .attemptStopped
    path := some "$.attemptId"
    message := "outcome-runtime: attempt " ++ quote decision.attemptId ++ " of node " ++
      quote decision.nodeId ++ " in graph " ++ quote graphId ++
      " carries the STOPPING trusted control command " ++ quote decision.command.text ++
      " (reason: " ++ decision.reason ++ ", decided at " ++ toString decision.decidedAt ++
      decidedByText decision.decidedBy ++
      ") — the ATTEMPT is stopped, so it accepts nothing and is never (re-)launched, " ++
      "while the RUN itself is NOT stopped: its other attempts keep executing and still " ++
      "settle. Only a node-scoped `retry` of the node carries this attempt forward, by " ++
      "minting a successor attempt, and only a run-wide `cancel`/`budget-stop` closes it " ++
      "for good; nothing was written for it" }

def controlStopRefusal (control : RunControlRecord) : OutcomeRuntimeRefusal :=
  { code := .controlStopped
    path := some "$.graphId"
    message := "outcome-runtime: graph " ++ quote graphId ++
      " was STOPPED by the trusted control command " ++ quote control.command.text ++
      " (reason: " ++ control.reason ++ ", decided at " ++ toString control.decidedAt ++
      decidedByText control.decidedBy ++
      ") — a controlled run dispatches nothing, arms nothing and settles nothing, so " ++
      "this operation is refused and no state is written; the attempts the stop left in " ++
      "flight stay exactly as they are and are reported" }

def refusalForStoppingDecision (decision : ControlDecisionRecord)
    (stopped : Option RunControlRecord) : OutcomeRuntimeRefusal :=
  match stopped with
  | some control => controlStopRefusal graphId control
  | none => attemptStopRefusal graphId decision

end Texts

def stoppingDecisionOf (decisions : List ControlDecisionRecord) (attemptId : String) :
    Option ControlDecisionRecord :=
  decisions.find? fun decision =>
    decision.attemptId = attemptId ∧ decision.command ∈ STOPPING_CONTROL_COMMANDS

theorem stoppingDecisionOf_none {decisions : List ControlDecisionRecord} {attemptId : String}
    (h : stoppingDecisionOf decisions attemptId = none) :
    ∀ decision ∈ decisions, decision.attemptId = attemptId →
      decision.command ∉ STOPPING_CONTROL_COMMANDS := by
  intro decision hdecision hattempt hstop
  have hno := List.find?_eq_none.1 h decision hdecision
  exact hno (decide_eq_true ⟨hattempt, hstop⟩)

end Rolebox.Graph
