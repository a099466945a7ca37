import Rolebox.General.Numbered
import Rolebox.Store.Tables

/-! The runs of a graph, what controls one, and the orders to run it again. -/

namespace Rolebox.Graph
open General Transaction List

namespace GraphStore

def runRows (s : GraphStore) (graphId : String) : List RunRow :=
  s.runs.filter fun row => row.graphId = graphId

def readRun (s : GraphStore) (graphId : String) : Option StoredRunIdentity :=
  ((s.runRows graphId).argmax RunRow.runSeq).map RunRow.identity

def readRunOf (s : GraphStore) (graphId runId : String) : Option StoredRunIdentity :=
  (s.runs.find? fun row => row.graphId = graphId ∧ row.runId = runId).map RunRow.identity

def runsOf (s : GraphStore) (graphId : String) : List StoredRunIdentity :=
  ((s.runRows graphId).mergeSort fun a b => a.runSeq ≤ b.runSeq).map RunRow.identity

def readRunControlOf (s : GraphStore) (graphId runId : String) : Option RunControlRecord := do
  let row ← s.runs.find? fun row =>
    row.graphId = graphId ∧ row.runId = runId ∧ row.control.isSome
  let fact ← row.control
  return { graphId := graphId
           runId := row.runId
           command := fact.command
           reason := fact.reason
           decidedAt := fact.decidedAt
           decidedBy := fact.decidedBy }

def readRunControl (s : GraphStore) (graphId : String) : Option RunControlRecord :=
  (s.readRun graphId).bind fun run => s.readRunControlOf graphId run.runId

def readReexecution (s : GraphStore) (graphId runId : String) : Option RunReexecutionRecord :=
  s.runReexecutions.find? fun order => order.graphId = graphId ∧ order.runId = runId

end GraphStore

def assertRunShape (record : RunIdentityRecord) : StoreTx PUnit := do
  requireStoreIdentifier record.graphId "run.graphId"
  requireStoreIdentifier record.runId "run.runId"
  requireStoreIdentifier record.planRevision "run.planRevision"
  requireStoreEpoch record.startedAt "run.startedAt"

def assertReexecutionShape (record : RunReexecutionRecord) : StoreTx PUnit := do
  requireStoreIdentifier record.graphId "reexecution.graphId"
  requireStoreIdentifier record.runId "reexecution.runId"
  requireStoreIdentifier record.reason "reexecution.reason"
  requireStoreEpoch record.decidedAt "reexecution.decidedAt"
  assertPrincipalShape record.decidedBy "reexecution.decidedBy"
  match record.successor with
  | none => pure ()
  | some (successorRunId, successorStartedAt) => do
    requireStoreIdentifier successorRunId "reexecution.successorRunId"
    requireStoreEpoch successorStartedAt "reexecution.successorStartedAt"

def RunIdentityRecord.row (record : RunIdentityRecord) (runSeq : Nat) : RunRow :=
  { graphId := record.graphId
    runId := record.runId
    runSeq := runSeq
    planRevision := record.planRevision
    startedAt := record.startedAt
    control := none }

def insertRun (row : RunRow) : StoreTx PUnit := do
  let s ← get
  if s.runs.any fun other =>
      other.graphId = row.graphId ∧ (other.runId = row.runId ∨ other.runSeq = row.runSeq) then
    throw (.constraint "graph_runs")
  else set { s with runs := s.runs ++ [row] }

def insertFirstRun (record : RunIdentityRecord) : StoreTx PUnit := do
  let s ← get
  if s.runs.any fun row => row.graphId = record.graphId then pure ()
  else insertRun (record.row 1)

def mintRun (record : RunIdentityRecord) : StoreTx StoredRunIdentity := do
  assertRunShape record
  insertFirstRun record
  let s ← get
  match s.readRun record.graphId with
  | none => refuseWrite .invalidRecord ("graph-store: run identity of graph " ++
      quote record.graphId ++
      " disappeared between the mint and the read — the run was not recorded")
  | some stored => pure stored

def mintNextRun (record : RunIdentityRecord) (afterRunId : String) :
    StoreTx (Option StoredRunIdentity) := do
  assertRunShape record
  let s ← get
  match s.readRun record.graphId with
  | none => pure none
  | some current =>
    if current.runId ≠ afterRunId then pure none
    else do
      insertRun (record.row (current.runSeq + 1))
      let s ← get
      pure (s.readRunOf record.graphId record.runId)

/-- The run is claimed by the first command; the fact that stands is the answer. -/
def setRunControl (control : RunControlRecord) : StoreTx PUnit := do
  let s ← get
  let unclaimed := fun row : RunRow =>
    row.graphId = control.graphId ∧ row.runId = control.runId ∧ row.control = none
  if s.runs.any (fun row => unclaimed row) ∧ control.decidedBy = none then
    throw (.constraint "graph_runs")
  else
    set { s with
      runs := updateWhere unclaimed
        (fun row => { row with
          control := some { command := control.command
                            reason := control.reason
                            decidedAt := control.decidedAt
                            decidedBy := control.decidedBy } })
        s.runs }

inductive RunReexecutionWriteKind where
  | recorded
  | replayed

structure RunReexecutionWriteResult where
  kind : RunReexecutionWriteKind
  reexecution : RunReexecutionRecord

def recordReexecution (record : RunReexecutionRecord) : StoreTx RunReexecutionWriteResult := do
  assertReexecutionShape record
  let s ← get
  match s.readReexecution record.graphId record.runId with
  | some existing => pure { kind := .replayed, reexecution := existing }
  | none => do
    set { s with runReexecutions := s.runReexecutions ++ [{ record with successor := none }] }
    let s ← get
    match s.readReexecution record.graphId record.runId with
    | none => refuseWrite .invalidRecord ("graph-store: the re-execution decision of run " ++
        quote record.runId ++
        " disappeared between the write and the read — nothing was recorded")
    | some stored => pure { kind := .recorded, reexecution := stored }

def Owed (graphId runId : String) (order : RunReexecutionRecord) : Prop :=
  order.graphId = graphId ∧ order.runId = runId ∧ order.successor = none

instance (graphId runId : String) : DecidablePred (Owed graphId runId) := fun _ =>
  inferInstanceAs (Decidable (_ ∧ _ ∧ _))

def markReexecutionExecuted (graphId runId successorRunId : String) (successorStartedAt : Nat) :
    StoreTx Bool := do
  requireStoreIdentifier successorRunId "reexecution.successorRunId"
  requireStoreEpoch successorStartedAt "reexecution.successorStartedAt"
  let s ← get
  set { s with
    runReexecutions := updateWhere (Owed graphId runId)
      (fun order => { order with successor := some (successorRunId, successorStartedAt) })
      s.runReexecutions }
  pure (decide (s.runReexecutions.countP (fun order => Owed graphId runId order) = 1))

section Reads
variable {s : GraphStore} {graphId runId : String}

theorem mem_runRows {row : RunRow} :
    row ∈ s.runRows graphId ↔ row ∈ s.runs ∧ row.graphId = graphId := by
  simp [GraphStore.runRows]

theorem readRun_mem {run : StoredRunIdentity} (h : s.readRun graphId = some run) :
    ∃ row ∈ s.runRows graphId, row.identity = run := by
  obtain ⟨row, hrow, rfl⟩ := Option.map_eq_some_iff.1 h
  exact ⟨row, argmax_mem hrow, rfl⟩

theorem readReexecution_none (h : s.readReexecution graphId runId = none) :
    ∀ order ∈ s.runReexecutions, ¬ (order.graphId = graphId ∧ order.runId = runId) := by
  intro order horder
  simpa using find?_eq_none.1 h order horder

end Reads

section Specs
variable {s s' : GraphStore} {u : PUnit}
variable {record : RunIdentityRecord}

theorem assertRunShape_ok (h : assertRunShape record s = .ok (u, s')) : s' = s := by
  simp only [assertRunShape, bind_ok, requireStoreIdentifier_ok, requireStoreEpoch_ok] at h
  obtain ⟨_, _, ⟨_, rfl⟩, _, _, ⟨_, rfl⟩, _, _, ⟨_, rfl⟩, _, rfl⟩ := h
  rfl

theorem assertReexecutionShape_ok {record : RunReexecutionRecord}
    (h : assertReexecutionShape record s = .ok (u, s')) : s' = s := by
  simp only [assertReexecutionShape, bind_ok, requireStoreIdentifier_ok, requireStoreEpoch_ok,
    assertPrincipalShape_ok] at h
  obtain ⟨_, _, ⟨_, rfl⟩, _, _, ⟨_, rfl⟩, _, _, ⟨_, rfl⟩, _, _, ⟨_, rfl⟩, _, _, ⟨_, rfl⟩,
    hsuccessor⟩ := h
  cases hrecord : record.successor with
  | none =>
    rw [hrecord] at hsuccessor
    exact (pure_ok.1 hsuccessor).2
  | some successor =>
    rw [hrecord] at hsuccessor
    simp only [bind_ok, requireStoreIdentifier_ok, requireStoreEpoch_ok] at hsuccessor
    obtain ⟨_, _, ⟨_, rfl⟩, _, rfl⟩ := hsuccessor
    rfl

theorem insertRun_ok {row : RunRow} :
    insertRun row s = .ok (u, s') ↔
      (∀ other ∈ s.runRows row.graphId, other.runId ≠ row.runId ∧ other.runSeq ≠ row.runSeq) ∧
        s' = { s with runs := s.runs ++ [row] } := by
  simp only [insertRun, get_bind, ite_ok, throw_ok, set_ok, mem_runRows]
  constructor
  · rintro (⟨-, h⟩ | ⟨h, rfl⟩)
    · exact h.elim
    refine ⟨?_, rfl⟩
    rintro other ⟨hother, hgraph⟩
    simp only [any_eq_true, decide_eq_true_eq, not_exists, not_and] at h
    have hno := h other hother hgraph
    exact not_or.1 hno
  · rintro ⟨h, rfl⟩
    refine .inr ⟨?_, rfl⟩
    simp only [any_eq_true, decide_eq_true_eq, not_exists, not_and]
    intro other hother hgraph
    exact not_or.2 (h other ⟨hother, hgraph⟩)

theorem insertFirstRun_ok (h : insertFirstRun record s = .ok (u, s')) :
    (s.runRows record.graphId = [] ∧ s' = { s with runs := s.runs ++ [record.row 1] }) ∨
      (s.runRows record.graphId ≠ [] ∧ s' = s) := by
  have hrows : (s.runs.any fun row => row.graphId = record.graphId) = true ↔
      s.runRows record.graphId ≠ [] := by
    rw [GraphStore.runRows, Ne, filter_eq_nil_iff]
    simp
  simp only [insertFirstRun, get_bind, ite_ok, pure_ok, insertRun_ok] at h
  obtain ⟨hany, -, rfl⟩ | ⟨hany, -, rfl⟩ := h
  · exact .inr ⟨hrows.1 hany, rfl⟩
  · refine .inl ⟨?_, rfl⟩
    by_contra hne
    exact hany (hrows.2 hne)

/-- The first run is recorded; the answer is the run that is current afterwards. -/
theorem mintRun_ok {stored : StoredRunIdentity} (h : mintRun record s = .ok (stored, s')) :
    s'.readRun record.graphId = some stored ∧
      ((s.runRows record.graphId = [] ∧ s' = { s with runs := s.runs ++ [record.row 1] }) ∨
        (s.runRows record.graphId ≠ [] ∧ s' = s)) := by
  simp only [mintRun, bind_ok, get_bind] at h
  obtain ⟨_, t, hshape, _, t', hinsert, hread⟩ := h
  rw [assertRunShape_ok hshape] at hinsert
  cases hrun : t'.readRun record.graphId with
  | none =>
    rw [hrun] at hread
    exact (refuseWrite_ok.1 hread).elim
  | some run =>
    rw [hrun] at hread
    obtain ⟨rfl, rfl⟩ := pure_ok.1 hread
    exact ⟨hrun, insertFirstRun_ok hinsert⟩

theorem readRunOf_append {row : RunRow}
    (hfresh : ∀ other ∈ s.runRows row.graphId, other.runId ≠ row.runId) :
    ({ s with runs := s.runs ++ [row] } : GraphStore).readRunOf row.graphId row.runId =
      some row.identity := by
  have hnew : s.runs.find? (fun other => other.graphId = row.graphId ∧
      other.runId = row.runId) = none := by
    rw [find?_eq_none]
    intro other hother hkey
    simp only [decide_eq_true_eq] at hkey
    exact hfresh other (mem_runRows.2 ⟨hother, hkey.1⟩) hkey.2
  unfold GraphStore.readRunOf
  rw [find?_append, hnew]
  simp

theorem mintNextRun_ok {afterRunId : String} {answer : Option StoredRunIdentity}
    (h : mintNextRun record afterRunId s = .ok (answer, s')) :
    (answer = none ∧ s' = s ∧
        ∀ current, s.readRun record.graphId = some current → current.runId ≠ afterRunId) ∨
      ∃ current, s.readRun record.graphId = some current ∧ current.runId = afterRunId ∧
        (∀ other ∈ s.runRows record.graphId,
          other.runId ≠ record.runId ∧ other.runSeq ≠ current.runSeq + 1) ∧
        s' = { s with runs := s.runs ++ [record.row (current.runSeq + 1)] } ∧
        answer = some (record.row (current.runSeq + 1)).identity := by
  simp only [mintNextRun, bind_ok, get_bind] at h
  obtain ⟨_, t, hshape, hmint⟩ := h
  obtain rfl := assertRunShape_ok hshape
  cases hcurrent : t.readRun record.graphId with
  | none =>
    rw [hcurrent] at hmint
    obtain ⟨rfl, rfl⟩ := pure_ok.1 hmint
    exact .inl ⟨rfl, rfl, nofun⟩
  | some current =>
    rw [hcurrent] at hmint
    obtain ⟨hmoved, hpure⟩ | ⟨hsame, hnext⟩ := ite_ok.1 hmint
    · obtain ⟨rfl, rfl⟩ := pure_ok.1 hpure
      refine .inl ⟨rfl, rfl, ?_⟩
      rintro other ⟨rfl⟩
      exact hmoved
    · simp only [bind_ok, get_bind, pure_ok, insertRun_ok] at hnext
      obtain ⟨_, _, ⟨hfresh, rfl⟩, rfl, rfl⟩ := hnext
      refine .inr ⟨current, rfl, not_not.1 hsame, hfresh, rfl, ?_⟩
      exact readRunOf_append fun other hother => (hfresh other hother).1

theorem setRunControl_ok {control : RunControlRecord} (h : setRunControl control s = .ok (u, s')) :
    s' = { s with
      runs := updateWhere
        (fun row : RunRow =>
          row.graphId = control.graphId ∧ row.runId = control.runId ∧ row.control = none)
        (fun row => { row with
          control := some { command := control.command
                            reason := control.reason
                            decidedAt := control.decidedAt
                            decidedBy := control.decidedBy } })
        s.runs } := by
  simp only [setRunControl, get_bind, ite_ok, throw_ok, set_ok] at h
  obtain ⟨-, hthrow⟩ | ⟨-, hset⟩ := h
  · exact hthrow.elim
  · exact hset

theorem readReexecution_append {o : RunReexecutionRecord}
    (hnone : s.readReexecution o.graphId o.runId = none) :
    ({ s with runReexecutions := s.runReexecutions ++ [o] } : GraphStore).readReexecution
      o.graphId o.runId = some o := by
  unfold GraphStore.readReexecution at hnone ⊢
  rw [find?_append, hnone]
  simp

theorem recordReexecution_ok {record : RunReexecutionRecord} {result : RunReexecutionWriteResult}
    (h : recordReexecution record s = .ok (result, s')) :
    (s.readReexecution record.graphId record.runId = some result.reexecution ∧
        result.kind = .replayed ∧ s' = s) ∨
      (s.readReexecution record.graphId record.runId = none ∧ result.kind = .recorded ∧
        result.reexecution = { record with successor := none } ∧
        s' = { s with
          runReexecutions := s.runReexecutions ++ [{ record with successor := none }] }) := by
  simp only [recordReexecution, bind_ok, get_bind] at h
  obtain ⟨_, t, hshape, hwrite⟩ := h
  obtain rfl := assertReexecutionShape_ok hshape
  cases hread : t.readReexecution record.graphId record.runId with
  | some existing =>
    rw [hread] at hwrite
    obtain ⟨rfl, rfl⟩ := pure_ok.1 hwrite
    exact .inl ⟨rfl, rfl, rfl⟩
  | none =>
    rw [hread] at hwrite
    simp only [set_bind, get_bind] at hwrite
    have happended : _ = some { record with successor := none } :=
      readReexecution_append (o := { record with successor := none }) hread
    rw [happended] at hwrite
    obtain ⟨rfl, rfl⟩ := pure_ok.1 hwrite
    exact .inr ⟨rfl, rfl, rfl, rfl⟩

theorem markReexecutionExecuted_ok {graphId runId successorRunId : String}
    {successorStartedAt : Nat} {marked : Bool}
    (h : markReexecutionExecuted graphId runId successorRunId successorStartedAt s =
      .ok (marked, s')) :
    (marked = true ↔ s.runReexecutions.countP (fun order => Owed graphId runId order) = 1) ∧
      s' = { s with
        runReexecutions := updateWhere (Owed graphId runId)
          (fun order => { order with successor := some (successorRunId, successorStartedAt) })
          s.runReexecutions } := by
  simp only [markReexecutionExecuted, bind_ok, requireStoreIdentifier_ok, requireStoreEpoch_ok,
    get_bind, set_bind, pure_ok] at h
  obtain ⟨_, _, ⟨_, rfl⟩, _, _, ⟨_, rfl⟩, rfl, rfl⟩ := h
  exact ⟨by simp, rfl⟩

end Specs

end Rolebox.Graph
