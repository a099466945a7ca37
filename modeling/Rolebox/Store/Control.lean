import Rolebox.Store.Runs

/-! The control decisions of the store, which keep a stop and an acceptance apart. -/

namespace Rolebox.Graph
open General Transaction

def Stops (command : ControlCommandName) : Prop := command ∈ STOPPING_CONTROL_COMMANDS

instance : DecidablePred Stops := fun _ => inferInstanceAs (Decidable (_ ∈ _))

def decidedFirst (a b : ControlDecisionRecord) : Prop := a.decidedAt ≤ b.decidedAt

instance : DecidableRel decidedFirst := fun _ _ => inferInstanceAs (Decidable (_ ≤ _))

def decidedLast (a b : ControlDecisionRecord) : Prop := b.decidedAt ≤ a.decidedAt

instance : DecidableRel decidedLast := fun _ _ => inferInstanceAs (Decidable (_ ≤ _))

namespace ControlDecisionRecord

def Names (row : ControlDecisionRecord) (graphId attemptId : String) : Prop :=
  row.graphId = graphId ∧ row.attemptId = attemptId

instance (graphId attemptId : String) :
    DecidablePred fun row : ControlDecisionRecord => row.Names graphId attemptId := fun _ =>
  inferInstanceAs (Decidable (_ ∧ _))

def SameAttemptKey (row key : ControlDecisionRecord) : Prop :=
  row.graphId = key.graphId ∧ row.runId = key.runId ∧ row.nodeId = key.nodeId ∧
    row.attemptId = key.attemptId

instance (key : ControlDecisionRecord) :
    DecidablePred fun row : ControlDecisionRecord => row.SameAttemptKey key := fun _ =>
  inferInstanceAs (Decidable (_ ∧ _ ∧ _ ∧ _))

end ControlDecisionRecord

namespace GraphStore

def readSupersedingRetry (s : GraphStore) (graphId attemptId : String) :
    Option ControlDecisionRecord :=
  firstBy decidedLast (s.controlDecisions.filter fun row =>
    row.Names graphId attemptId ∧ row.command = .retry)

def readStoppingDecision (s : GraphStore) (graphId attemptId : String) :
    Option ControlDecisionRecord :=
  firstBy decidedFirst (s.controlDecisions.filter fun row =>
    row.Names graphId attemptId ∧ Stops row.command)

def readControlCommandDecision (s : GraphStore) (graphId runId nodeId attemptId : String)
    (command : ControlCommandName) : Option ControlDecisionRecord :=
  s.controlDecisions.find? fun row =>
    row.graphId = graphId ∧ row.runId = runId ∧ row.nodeId = nodeId ∧
      row.attemptId = attemptId ∧ row.command = command

def readStoppingControlDecision (s : GraphStore) (key : ControlDecisionRecord) :
    Option ControlDecisionRecord :=
  firstBy decidedFirst (s.controlDecisions.filter fun row =>
    row.SameAttemptKey key ∧ Stops row.command ∧ row.command ≠ key.command)

def accepted (s : GraphStore) (graphId attemptId : String) : Bool :=
  s.acceptedEvents.any fun event => event.graphId = graphId ∧ event.attemptId = attemptId

end GraphStore

structure RunControlWrite where
  decision : ControlDecisionRecord
  runControl : Option RunControlRecord

inductive RunControlWriteResult where
  | recorded (decision : ControlDecisionRecord) (runControl : Option RunControlRecord)
  | replayed (decision : ControlDecisionRecord) (runControl : Option RunControlRecord)
  | settled (attemptId : String) (runControl : Option RunControlRecord)
  | conflict (existing : ControlDecisionRecord) (runControl : Option RunControlRecord)

def assertClaimShape (decision : ControlDecisionRecord) : Option RunControlRecord → StoreTx PUnit
  | none => pure ()
  | some control =>
    if decision.graphId ≠ control.graphId ∨ decision.runId ≠ control.runId then
      refuseWrite .invalidRecord ("graph-store: the control decision names run " ++
        quote (decision.graphId ++ "/" ++ decision.runId) ++
        " while the run control fact names " ++ quote (control.graphId ++ "/" ++ control.runId) ++
        " — the write was not made")
    else if decision.command ≠ control.command then
      refuseWrite .invalidRecord ("graph-store: the control decision records " ++
        quote decision.command.text ++ " while the run control fact records " ++
        quote control.command.text ++
        " — one write cannot record two commands, so nothing was written")
    else do
      requireStoreIdentifier control.reason "control.reason"
      requireStoreEpoch control.decidedAt "control.decidedAt"
      assertPrincipalShape control.decidedBy "control.decidedBy"

def assertSuccessorShape (command : ControlCommandName) (successor : Option String) :
    StoreTx PUnit :=
  if command = .retry then
    requireStoreIdentifier (successor.getD "") "control.successorAttemptId"
  else
    match successor with
    | none => pure ()
    | some successor =>
      refuseWrite .invalidRecord ("graph-store: the control decision records command " ++
        quote command.text ++ " with successor attempt " ++ quote successor ++
        " — only a retry mints an attempt, so nothing was written")

def assertControlWriteShape (write : RunControlWrite) : StoreTx PUnit := do
  assertClaimShape write.decision write.runControl
  requireStoreIdentifier write.decision.graphId "control.graphId"
  requireStoreIdentifier write.decision.runId "control.runId"
  requireStoreIdentifier write.decision.nodeId "control.nodeId"
  requireStoreIdentifier write.decision.attemptId "control.attemptId"
  requireStoreIdentifier write.decision.reason "control.reason"
  requireStoreEpoch write.decision.decidedAt "control.decidedAt"
  assertPrincipalShape write.decision.decidedBy "control.decidedBy"
  assertSuccessorShape write.decision.command write.decision.successorAttemptId

/-- The key is free, the attempt has no accepted event, and a stop finds no other stop. -/
def decisionLands (s : GraphStore) (key : ControlDecisionRecord) : Bool :=
  !(s.controlDecisions.any fun row => row.SameAttemptKey key ∧ row.command = key.command) &&
    !s.accepted key.graphId key.attemptId &&
    !(decide (Stops key.command) && s.controlDecisions.any fun row =>
      row.SameAttemptKey key ∧ Stops row.command ∧ row.command ≠ key.command)

def classifyDecision (s : GraphStore) (key : ControlDecisionRecord) : RunControlWriteResult :=
  match s.readControlCommandDecision key.graphId key.runId key.nodeId key.attemptId key.command with
  | some raced => .replayed raced (s.readRunControl key.graphId)
  | none =>
    match s.readStoppingControlDecision key with
    | none => .settled key.attemptId (s.readRunControl key.graphId)
    | some competing => .conflict competing (s.readRunControl key.graphId)

def claimWithDecision (key : ControlDecisionRecord) (claimed : RunControlRecord) :
    StoreTx RunControlWriteResult := do
  setRunControl claimed
  let s ← get
  match s.readRunControl key.graphId with
  | none => refuseWrite .invalidRecord ("graph-store: control decision for graph " ++
      quote key.graphId ++
      " was recorded, but the store holds no run control fact for it — the run " ++
      "identity is missing and the decision was rolled back")
  | some stored => pure (.recorded key (some stored))

def writeControlDecision (write : RunControlWrite) : StoreTx RunControlWriteResult := do
  assertControlWriteShape write
  let s ← get
  if decisionLands s write.decision then do
    set { s with controlDecisions := s.controlDecisions ++ [write.decision] }
    match write.runControl with
    | some claimed => claimWithDecision write.decision claimed
    | none => do
      let s ← get
      pure (.recorded write.decision (s.readRunControl write.decision.graphId))
  else pure (classifyDecision s write.decision)

section Specs
variable {s s' : GraphStore} {u : PUnit}

theorem assertClaimShape_ok {decision : ControlDecisionRecord}
    {claim : Option RunControlRecord} (h : assertClaimShape decision claim s = .ok (u, s')) :
    s' = s ∧ ∀ control, claim = some control → decision.graphId = control.graphId ∧
      decision.runId = control.runId ∧ decision.command = control.command := by
  cases claim with
  | none => exact ⟨(pure_ok.1 h).2, nofun⟩
  | some control =>
    obtain ⟨-, h⟩ | ⟨hrun, h⟩ := ite_ok.1 h
    · exact (refuseWrite_ok.1 h).elim
    obtain ⟨-, h⟩ | ⟨hcommand, h⟩ := ite_ok.1 h
    · exact (refuseWrite_ok.1 h).elim
    simp only [bind_ok, requireStoreIdentifier_ok, requireStoreEpoch_ok,
      assertPrincipalShape_ok] at h
    obtain ⟨_, _, ⟨-, rfl⟩, _, _, ⟨-, rfl⟩, -, rfl⟩ := h
    obtain ⟨hgraph, hrunId⟩ := not_or.1 hrun
    refine ⟨rfl, ?_⟩
    rintro _ ⟨rfl⟩
    exact ⟨not_not.1 hgraph, not_not.1 hrunId, not_not.1 hcommand⟩

theorem assertSuccessorShape_ok {command : ControlCommandName} {successor : Option String}
    (h : assertSuccessorShape command successor s = .ok (u, s')) :
    s' = s ∧ (command = .retry ↔ successor.isSome) := by
  obtain ⟨hretry, h⟩ | ⟨hother, h⟩ := ite_ok.1 h
  · obtain ⟨hne, rfl⟩ := requireStoreIdentifier_ok.1 h
    cases successor with
    | none => exact absurd rfl hne
    | some successor => exact ⟨rfl, iff_of_true hretry rfl⟩
  · cases successor with
    | none => exact ⟨(pure_ok.1 h).2, iff_of_false hother (nofun)⟩
    | some successor => exact (refuseWrite_ok.1 h).elim

theorem assertControlWriteShape_ok {write : RunControlWrite}
    (h : assertControlWriteShape write s = .ok (u, s')) :
    s' = s ∧ (∀ control, write.runControl = some control →
        write.decision.graphId = control.graphId ∧ write.decision.runId = control.runId ∧
          write.decision.command = control.command) ∧
      (write.decision.command = .retry ↔ write.decision.successorAttemptId.isSome) := by
  simp only [assertControlWriteShape, bind_ok, requireStoreIdentifier_ok, requireStoreEpoch_ok,
    assertPrincipalShape_ok] at h
  obtain ⟨_, t, hclaim, _, _, ⟨-, rfl⟩, _, _, ⟨-, rfl⟩, _, _, ⟨-, rfl⟩, _, _, ⟨-, rfl⟩,
    _, _, ⟨-, rfl⟩, _, _, ⟨-, rfl⟩, _, _, ⟨-, rfl⟩, hsuccessor⟩ := h
  obtain ⟨rfl, hlink⟩ := assertSuccessorShape_ok hsuccessor
  obtain ⟨rfl, hsame⟩ := assertClaimShape_ok hclaim
  exact ⟨rfl, hsame, hlink⟩

def claimedRuns (claim : Option RunControlRecord) (runs : List RunRow) : List RunRow :=
  match claim with
  | none => runs
  | some control =>
    updateWhere
      (fun row : RunRow =>
        row.graphId = control.graphId ∧ row.runId = control.runId ∧ row.control = none)
      (fun row => { row with
        control := some { command := control.command
                          reason := control.reason
                          decidedAt := control.decidedAt
                          decidedBy := control.decidedBy } })
      runs

/-- A decision is appended with its claim, or nothing is written and its rule is named. -/
theorem writeControlDecision_ok {write : RunControlWrite} {result : RunControlWriteResult}
    (h : writeControlDecision write s = .ok (result, s')) :
    (decisionLands s write.decision = true ∧
        (∃ runControl, result = .recorded write.decision runControl ∧
          (write.runControl.isSome → runControl.isSome)) ∧
        s' = { s with
          controlDecisions := s.controlDecisions ++ [write.decision]
          runs := claimedRuns write.runControl s.runs }) ∨
      (decisionLands s write.decision = false ∧ result = classifyDecision s write.decision ∧
        s' = s) := by
  simp only [writeControlDecision, bind_ok, get_bind] at h
  obtain ⟨_, t, hshape, hwrite⟩ := h
  obtain ⟨rfl, -, -⟩ := assertControlWriteShape_ok hshape
  obtain ⟨hlands, hwrite⟩ | ⟨hheld, hwrite⟩ := ite_ok.1 hwrite
  · refine .inl ⟨hlands, ?_⟩
    rw [set_bind] at hwrite
    cases hclaim : write.runControl with
    | none =>
      rw [hclaim] at hwrite
      simp only [get_bind, pure_ok] at hwrite
      obtain ⟨rfl, rfl⟩ := hwrite
      exact ⟨⟨_, rfl, nofun⟩, rfl⟩
    | some claimed =>
      rw [hclaim] at hwrite
      simp only [claimWithDecision, bind_ok, get_bind] at hwrite
      obtain ⟨_, t', hset, hread⟩ := hwrite
      obtain rfl := setRunControl_ok hset
      generalize GraphStore.readRunControl _ _ = stands at hread
      cases stands with
      | none => exact (refuseWrite_ok.1 hread).elim
      | some stored =>
        obtain ⟨rfl, rfl⟩ := pure_ok.1 hread
        exact ⟨⟨_, rfl, fun _ => rfl⟩, rfl⟩
  · obtain ⟨rfl, rfl⟩ := pure_ok.1 hwrite
    exact .inr ⟨by simpa using hheld, rfl, rfl⟩

end Specs

end Rolebox.Graph
