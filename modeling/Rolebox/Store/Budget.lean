import Mathlib.Algebra.Ring.Rat
import Rolebox.Store.Runs

/-! The dispatch budget rows: claim, reconciliation and release. -/

namespace Rolebox.Graph
open General Transaction

structure BudgetExhaustion where
  kind : Option BudgetLimitKind
  limit : Rat
  committed : Rat
  message : String

structure BudgetReserveInput where
  maxExecutions : Option Nat
  graphId : String
  runId : String
  nodeId : String
  attemptId : String
  effectId : String
  limits : NodeBudgetLimits
  at' : Nat

inductive BudgetReserveResult where
  | reserved (reservation : BudgetReservationRecord)
  | replayed (reservation : BudgetReservationRecord)
  | exhausted (exhausted : List BudgetExhaustion)

/-- `executions` defaults to the dispatch itself. -/
structure BudgetUsageInput where
  graphId : String
  runId : String
  nodeId : String
  attemptId : String
  effectId : String
  executions : Option Nat
  durationMs : Rat
  inputTokens : Rat
  outputTokens : Rat
  costUsd : Rat
  at' : Nat

inductive BudgetUsageResult where
  | reconciled (reservation : BudgetReservationRecord)
  | replayed (reservation : BudgetReservationRecord)
  | recordedLate (reservation : BudgetReservationRecord)
  | ignored (reservation : BudgetReservationRecord) (reason : String)

structure BudgetReleaseInput where
  graphId : String
  runId : String
  nodeId : String
  attemptId : String
  at' : Nat

inductive BudgetReleaseResult where
  | released (reservation : BudgetReservationRecord)
  | replayed (reservation : BudgetReservationRecord)
  | absent

namespace BudgetTables

def requireIdentifier (value field : String) : StoreTx PUnit :=
  if value = "" then
    refuseWrite .invalidRecord ("graph-store: " ++ field ++ " is " ++ quote value ++
      ", not a non-empty identifier — the budget row was refused and nothing was written")
  else pure ()

def requireCount (value : Nat) (field : String) : StoreTx PUnit :=
  if maxSafeInteger < value then
    refuseWrite .invalidRecord ("graph-store: " ++ field ++ " is " ++ toString value ++
      ", not a non-negative safe integer — the budget row was refused and nothing was written")
  else pure ()

def requireAmount (value : Rat) (field : String) : StoreTx PUnit :=
  if value < 0 then
    refuseWrite .invalidRecord ("graph-store: " ++ field ++ " is " ++ numberText value ++
      ", not a finite non-negative number — the budget row was refused and nothing was written")
  else pure ()

def requireLimit (value : Option Rat) (field : String) : StoreTx PUnit :=
  match value with
  | none => pure ()
  | some value => requireAmount value field

def normalizedLimits (limits : NodeBudgetLimits) : StoreTx PUnit := do
  requireLimit limits.durationMs "budget.limits.durationMs"
  requireLimit limits.inputTokens "budget.limits.inputTokens"
  requireLimit limits.outputTokens "budget.limits.outputTokens"
  requireLimit limits.costUsd "budget.limits.costUsd"

def requireExecutions (value : Option Nat) (field : String) : StoreTx PUnit :=
  match value with
  | none => pure ()
  | some value => requireCount value field

def requireRunId (graphId explicit : String) : StoreTx PUnit := do
  let s ← get
  let current := (s.readRun graphId).map StoredRunIdentity.runId
  if current = some explicit then pure ()
  else refuseWrite .invalidRecord ("graph-store: run " ++ quote explicit ++ " of graph " ++
    quote graphId ++ " is not the graph's CURRENT run (" ++
    (current.map quote).getD "null" ++
    ") — a budget row under any other run would be a claim no reader resolves, so " ++
    "it was refused and nothing was written")

def ofRun (graphId runId : String) (row : BudgetReservationRecord) : Bool :=
  row.graphId = graphId ∧ row.runId = runId

def ofNode (graphId runId nodeId : String) (row : BudgetReservationRecord) : Bool :=
  row.graphId = graphId ∧ row.runId = runId ∧ row.nodeId = nodeId

def isReserved (row : BudgetReservationRecord) : Bool := row.status = .reserved

def isReconciled (row : BudgetReservationRecord) : Bool :=
  match row.status with
  | .reconciled _ _ => true
  | _ => false

def isReleased (row : BudgetReservationRecord) : Bool :=
  match row.status with
  | .released _ => true
  | _ => false

def usedColumn (kind : BudgetLimitKind) (row : BudgetReservationRecord) : Rat :=
  match row.status with
  | .reconciled used _ => used.amountOf kind
  | _ => 0

def reservedColumn (kind : BudgetLimitKind) (row : BudgetReservationRecord) : Rat :=
  row.reserved.amountOf kind

def readReservationIn (s : GraphStore) (graphId attemptId runId : String) :
    Option BudgetReservationRecord :=
  s.budgetReservations.find? fun row =>
    row.graphId = graphId ∧ row.runId = runId ∧ row.attemptId = attemptId

def attemptRowOrder (a b : BudgetReservationRecord) : Prop :=
  a.reservedAt < b.reservedAt ∨ (a.reservedAt = b.reservedAt ∧ textLe a.runId b.runId)

instance : DecidableRel attemptRowOrder := fun _ _ => inferInstanceAs (Decidable (_ ∨ _))

def attemptRowOf (s : GraphStore) (graphId attemptId : String) : Option BudgetReservationRecord :=
  ((s.budgetReservations.filter fun row =>
    row.graphId = graphId ∧ row.attemptId = attemptId).insertionSort attemptRowOrder).head?

def usedSum (s : GraphStore) (graphId runId nodeId : String) (kind : BudgetLimitKind) : Rat :=
  ((s.budgetReservations.filter fun row =>
    ofNode graphId runId nodeId row ∧ isReconciled row).map (usedColumn kind)).sum

def reservedSum (s : GraphStore) (graphId runId nodeId : String) (kind : BudgetLimitKind) : Rat :=
  ((s.budgetReservations.filter fun row =>
    ofNode graphId runId nodeId row ∧ isReserved row).map (reservedColumn kind)).sum

def committedOf (s : GraphStore) (graphId runId nodeId : String) (kind : BudgetLimitKind) : Rat :=
  let rows := s.budgetReservations.filter (ofNode graphId runId nodeId)
  (rows.map fun row => if isReconciled row then usedColumn kind row else 0).sum +
    (rows.map fun row => if isReserved row then reservedColumn kind row else 0).sum

def executionsOf (s : GraphStore) (graphId runId : String) : Nat :=
  s.budgetReservations.countP (ofRun graphId runId)

def headroomOf (s : GraphStore) (input : BudgetReserveInput) (kind : BudgetLimitKind) : Bool :=
  match input.limits.limitOf kind with
  | none => true
  | some limit =>
    decide (usedSum s input.graphId input.runId input.nodeId kind +
      reservedSum s input.graphId input.runId input.nodeId kind < limit)

def remainingOf (s : GraphStore) (input : BudgetReserveInput) (kind : BudgetLimitKind) : Rat :=
  match input.limits.limitOf kind with
  | none => 0
  | some limit =>
    limit - usedSum s input.graphId input.runId input.nodeId kind -
      reservedSum s input.graphId input.runId input.nodeId kind

def claimRow (s : GraphStore) (input : BudgetReserveInput) : BudgetReservationRecord :=
  { graphId := input.graphId
    runId := input.runId
    nodeId := input.nodeId
    attemptId := input.attemptId
    effectId := input.effectId
    status := .reserved
    checked := input.limits
    reserved :=
      { executions := 1
        durationMs := remainingOf s input .durationMs
        inputTokens := remainingOf s input .inputTokens
        outputTokens := remainingOf s input .outputTokens
        costUsd := remainingOf s input .costUsd }
    reservedAt := input.at' }

def claimable (s : GraphStore) (input : BudgetReserveInput) : Bool :=
  !(s.budgetReservations.any fun row =>
      ofNode input.graphId input.runId input.nodeId row ∧ row.attemptId = input.attemptId) &&
    BUDGET_DIMENSIONS.all (headroomOf s input) &&
    input.maxExecutions.all fun limit => executionsOf s input.graphId input.runId < limit

def executionExhaustion (s : GraphStore) (input : BudgetReserveInput) : List BudgetExhaustion :=
  match input.maxExecutions with
  | none => []
  | some limit =>
    let committed := executionsOf s input.graphId input.runId
    if limit ≤ committed then
      [{ kind := none
         limit := limit
         committed := committed
         message := "run " ++ quote input.runId ++ " has reserved " ++ toString committed ++
           " executions against max_executions " ++ toString limit }]
    else []

def dimensionExhaustion (s : GraphStore) (input : BudgetReserveInput) (kind : BudgetLimitKind) :
    List BudgetExhaustion :=
  match input.limits.limitOf kind with
  | none => []
  | some limit =>
    let committed := committedOf s input.graphId input.runId input.nodeId kind
    if committed < limit then []
    else
      [{ kind := some kind
         limit := limit
         committed := committed
         message := "node " ++ quote input.nodeId ++ " has no remaining " ++ kind.text ++
           " budget: " ++ numberText committed ++
           " committed (recorded usage plus outstanding reservations) against a declared " ++
           "ceiling of " ++ numberText limit ++
           ", so no further dispatch of it was authorized" }]

def exhaustionOf (s : GraphStore) (input : BudgetReserveInput) : List BudgetExhaustion :=
  executionExhaustion s input ++ BUDGET_DIMENSIONS.flatMap (dimensionExhaustion s input)

def checkReserveInput (input : BudgetReserveInput) : StoreTx PUnit := do
  requireIdentifier input.graphId "budget.graphId"
  requireIdentifier input.runId "budget.runId"
  requireIdentifier input.nodeId "budget.nodeId"
  requireIdentifier input.attemptId "budget.attemptId"
  requireIdentifier input.effectId "budget.effectId"
  requireCount input.at' "budget.at"
  normalizedLimits input.limits
  requireExecutions input.maxExecutions "budget.maxExecutions"
  requireRunId input.graphId input.runId

def reserveDispatch (input : BudgetReserveInput) : StoreTx BudgetReserveResult := do
  checkReserveInput input
  let s ← get
  if claimable s input then do
    set { s with budgetReservations := s.budgetReservations ++ [claimRow s input] }
    let s ← get
    match readReservationIn s input.graphId input.attemptId input.runId with
    | none => refuseWrite .invalidRecord ("graph-store: the budget reservation for attempt " ++
        quote input.attemptId ++
        " was inserted and could not be read back — refusing to report a claim the " ++
        "store cannot show")
    | some reservation => pure (.reserved reservation)
  else
    match readReservationIn s input.graphId input.attemptId input.runId with
    | some existing => pure (.replayed existing)
    | none => pure (.exhausted (exhaustionOf s input))

def usedOf (input : BudgetUsageInput) : BudgetUsageAmounts :=
  { executions := input.executions.getD 1
    durationMs := input.durationMs
    inputTokens := input.inputTokens
    outputTokens := input.outputTokens
    costUsd := input.costUsd }

def checkUsageInput (input : BudgetUsageInput) : StoreTx PUnit := do
  requireIdentifier input.graphId "budget.graphId"
  requireIdentifier input.runId "budget.runId"
  requireIdentifier input.nodeId "budget.nodeId"
  requireIdentifier input.attemptId "budget.attemptId"
  requireIdentifier input.effectId "budget.effectId"
  requireCount input.at' "budget.at"
  requireExecutions input.executions "budget.usage.executions"
  requireAmount input.durationMs "budget.usage.durationMs"
  requireAmount input.inputTokens "budget.usage.inputTokens"
  requireAmount input.outputTokens "budget.usage.outputTokens"
  requireAmount input.costUsd "budget.usage.costUsd"
  requireRunId input.graphId input.runId

def lateRow (input : BudgetUsageInput) : BudgetReservationRecord :=
  { graphId := input.graphId
    runId := input.runId
    nodeId := input.nodeId
    attemptId := input.attemptId
    effectId := input.effectId
    status := .reconciled (usedOf input) input.at'
    checked := NO_BUDGET_LIMITS
    reserved :=
      { executions := 0, durationMs := 0, inputTokens := 0, outputTokens := 0, costUsd := 0 }
    reservedAt := input.at' }

def describeUsage (usage : BudgetUsageAmounts) : String :=
  "executions " ++ toString usage.executions ++
    ", durationMs " ++ numberText usage.durationMs ++
    ", inputTokens " ++ numberText usage.inputTokens ++
    ", outputTokens " ++ numberText usage.outputTokens ++
    ", costUsd " ++ numberText usage.costUsd

def reconciledVerdict (reservation : BudgetReservationRecord)
    (standing used : BudgetUsageAmounts) : BudgetUsageResult :=
  if standing = used then .replayed reservation
  else .ignored reservation ("attempt " ++ quote reservation.attemptId ++
    " already carries recorded usage (" ++ describeUsage standing ++
    "), so this later report (" ++ describeUsage used ++
    ") was NOT added: one attempt has ONE usage fact, and summing a second report " ++
    "would double count it")

/-- The row a report settles: the attempt's own, while it carries no usage. -/
def unsettled (existing : BudgetReservationRecord) (row : BudgetReservationRecord) : Prop :=
  row.graphId = existing.graphId ∧ row.runId = existing.runId ∧ row.nodeId = existing.nodeId ∧
    row.attemptId = existing.attemptId ∧ isReconciled row = false

instance (existing : BudgetReservationRecord) : DecidablePred (unsettled existing) := fun _ =>
  inferInstanceAs (Decidable (_ ∧ _ ∧ _ ∧ _ ∧ _))

def recordLate (input : BudgetUsageInput) : StoreTx BudgetUsageResult := do
  let s ← get
  set { s with budgetReservations := s.budgetReservations ++ [lateRow input] }
  let s ← get
  match readReservationIn s input.graphId input.attemptId input.runId with
  | none => refuseWrite .invalidRecord ("graph-store: the late usage report for attempt " ++
      quote input.attemptId ++ " was appended and could not be read back")
  | some recorded => pure (.recordedLate recorded)

def settleExisting (input : BudgetUsageInput) (existing : BudgetReservationRecord) :
    StoreTx BudgetUsageResult := do
  let s ← get
  set { s with
    budgetReservations := updateWhere (unsettled existing)
      (fun row => { row with
        status := .reconciled (usedOf input) input.at'
        effectId := input.effectId })
      s.budgetReservations }
  if s.budgetReservations.countP (fun row => unsettled existing row) ≠ 1 then
    refuseWrite .invalidRecord ("graph-store: the budget reservation of attempt " ++
      quote input.attemptId ++
      " could not be reconciled although it is not reconciled (status " ++
      quote existing.status.text ++ ") — nothing was reported as settled")
  else do
    let s ← get
    match readReservationIn s input.graphId input.attemptId existing.runId with
    | none => refuseWrite .invalidRecord ("graph-store: the reconciled usage of attempt " ++
        quote input.attemptId ++ " could not be read back")
    | some reconciled => pure (.reconciled reconciled)

def reconcileUsage (input : BudgetUsageInput) : StoreTx BudgetUsageResult := do
  checkUsageInput input
  let s ← get
  match (readReservationIn s input.graphId input.attemptId input.runId).or
      (attemptRowOf s input.graphId input.attemptId) with
  | none => recordLate input
  | some existing =>
    match existing.status with
    | .reconciled standing _ => pure (reconciledVerdict existing standing (usedOf input))
    | _ => settleExisting input existing

def outstanding (input : BudgetReleaseInput) (row : BudgetReservationRecord) : Prop :=
  row.graphId = input.graphId ∧ row.runId = input.runId ∧ row.nodeId = input.nodeId ∧
    row.attemptId = input.attemptId ∧ row.status = .reserved

instance (input : BudgetReleaseInput) : DecidablePred (outstanding input) := fun _ =>
  inferInstanceAs (Decidable (_ ∧ _ ∧ _ ∧ _ ∧ _))

def checkReleaseInput (input : BudgetReleaseInput) : StoreTx PUnit := do
  requireIdentifier input.graphId "budget.graphId"
  requireIdentifier input.runId "budget.runId"
  requireIdentifier input.nodeId "budget.nodeId"
  requireIdentifier input.attemptId "budget.attemptId"
  requireCount input.at' "budget.at"
  requireRunId input.graphId input.runId

def releaseReservation (input : BudgetReleaseInput) : StoreTx BudgetReleaseResult := do
  checkReleaseInput input
  let s ← get
  let changed := s.budgetReservations.countP fun row => outstanding input row
  set { s with
    budgetReservations := updateWhere (outstanding input)
      (fun row => { row with status := .released input.at' }) s.budgetReservations }
  let s ← get
  match readReservationIn s input.graphId input.attemptId input.runId with
  | none => pure .absent
  | some existing =>
    if isReleased existing ∧ changed = 1 then
      pure (.released existing)
    else pure (.replayed existing)

section Specs
variable {s s' : GraphStore} {u : PUnit}
variable {field : String} {input : BudgetUsageInput} {result : BudgetUsageResult}

theorem requireIdentifier_ok {value : String} :
    requireIdentifier value field s = .ok (u, s') ↔ value ≠ "" ∧ s' = s := by
  unfold requireIdentifier
  rw [ite_ok, refuseWrite_ok, pure_ok]
  simp

theorem requireCount_ok {value : Nat} :
    requireCount value field s = .ok (u, s') ↔ value ≤ maxSafeInteger ∧ s' = s := by
  unfold requireCount
  rw [ite_ok, refuseWrite_ok, pure_ok]
  simp

theorem requireAmount_ok {value : Rat} :
    requireAmount value field s = .ok (u, s') ↔ 0 ≤ value ∧ s' = s := by
  unfold requireAmount
  rw [ite_ok, refuseWrite_ok, pure_ok, Rat.not_lt]
  simp

theorem requireLimit_ok {value : Option Rat} :
    requireLimit value field s = .ok (u, s') ↔ (∀ v, value = some v → 0 ≤ v) ∧ s' = s := by
  cases value with
  | none => simp [requireLimit, pure_ok]
  | some v => simp [requireLimit, requireAmount_ok]

theorem requireExecutions_ok {value : Option Nat} :
    requireExecutions value field s = .ok (u, s') ↔
      (∀ v, value = some v → v ≤ maxSafeInteger) ∧ s' = s := by
  cases value with
  | none => simp [requireExecutions, pure_ok]
  | some v => simp [requireExecutions, requireCount_ok]

theorem requireRunId_ok {graphId explicit : String} :
    requireRunId graphId explicit s = .ok (u, s') ↔
      (s.readRun graphId).map StoredRunIdentity.runId = some explicit ∧ s' = s := by
  simp only [requireRunId, get_bind, ite_ok, refuseWrite_ok, pure_ok]
  simp

theorem checkReserveInput_ok {input : BudgetReserveInput}
    (h : checkReserveInput input s = .ok (u, s')) :
    s' = s ∧ (s.readRun input.graphId).map StoredRunIdentity.runId = some input.runId := by
  simp only [checkReserveInput, normalizedLimits, bind_ok, requireIdentifier_ok, requireCount_ok,
    requireLimit_ok, requireExecutions_ok, requireRunId_ok] at h
  obtain ⟨_, _, ⟨_, rfl⟩, _, _, ⟨_, rfl⟩, _, _, ⟨_, rfl⟩, _, _, ⟨_, rfl⟩, _, _, ⟨_, rfl⟩,
    _, _, ⟨_, rfl⟩, _, _, ⟨_, _, ⟨_, rfl⟩, _, _, ⟨_, rfl⟩, _, _, ⟨_, rfl⟩, _, rfl⟩,
    _, _, ⟨_, rfl⟩, hrun, rfl⟩ := h
  exact ⟨rfl, hrun⟩

theorem checkUsageInput_ok (h : checkUsageInput input s = .ok (u, s')) :
    s' = s ∧ ∀ kind, 0 ≤ (usedOf input).amountOf kind := by
  simp only [checkUsageInput, bind_ok, requireIdentifier_ok, requireCount_ok, requireAmount_ok,
    requireExecutions_ok, requireRunId_ok] at h
  obtain ⟨_, _, ⟨_, rfl⟩, _, _, ⟨_, rfl⟩, _, _, ⟨_, rfl⟩, _, _, ⟨_, rfl⟩, _, _, ⟨_, rfl⟩,
    _, _, ⟨_, rfl⟩, _, _, ⟨_, rfl⟩, _, _, ⟨hduration, rfl⟩, _, _, ⟨hinput, rfl⟩,
    _, _, ⟨houtput, rfl⟩, _, _, ⟨hcost, rfl⟩, _, rfl⟩ := h
  refine ⟨rfl, fun kind => ?_⟩
  cases kind <;> assumption

theorem checkReleaseInput_ok {input : BudgetReleaseInput}
    (h : checkReleaseInput input s = .ok (u, s')) : s' = s := by
  simp only [checkReleaseInput, bind_ok, requireIdentifier_ok, requireCount_ok,
    requireRunId_ok] at h
  obtain ⟨_, _, ⟨_, rfl⟩, _, _, ⟨_, rfl⟩, _, _, ⟨_, rfl⟩, _, _, ⟨_, rfl⟩, _, _, ⟨_, rfl⟩,
    _, rfl⟩ := h
  rfl

/-- A reservation passes the gate and writes its claim, or nothing is written. -/
theorem reserveDispatch_ok {input : BudgetReserveInput} {result : BudgetReserveResult}
    (h : reserveDispatch input s = .ok (result, s')) :
    (claimable s input ∧ (∃ reservation, result = .reserved reservation) ∧
        s' = { s with budgetReservations := s.budgetReservations ++ [claimRow s input] }) ∨
      (claimable s input = false ∧ s' = s ∧ ∃ existing, result = .replayed existing) ∨
      (claimable s input = false ∧ s' = s ∧ result = .exhausted (exhaustionOf s input) ∧
        readReservationIn s input.graphId input.attemptId input.runId = none) := by
  simp only [reserveDispatch, bind_ok, get_bind] at h
  obtain ⟨_, t, hcheck, hclaim⟩ := h
  obtain ⟨rfl, -⟩ := checkReserveInput_ok hcheck
  obtain ⟨hgate, hwrite⟩ | ⟨hgate, hread⟩ := ite_ok.1 hclaim
  · simp only [set_bind, get_bind] at hwrite
    generalize hreadBack : readReservationIn _ _ _ _ = answer at hwrite
    cases answer with
    | none => exact (refuseWrite_ok.1 hwrite).elim
    | some reservation =>
      obtain ⟨rfl, rfl⟩ := pure_ok.1 hwrite
      exact .inl ⟨hgate, ⟨reservation, rfl⟩, rfl⟩
  · have hclosed : claimable t input = false := by simpa using hgate
    cases hexisting : readReservationIn t input.graphId input.attemptId input.runId with
    | some existing =>
      rw [hexisting] at hread
      obtain ⟨rfl, rfl⟩ := pure_ok.1 hread
      exact .inr (.inl ⟨hclosed, rfl, existing, rfl⟩)
    | none =>
      rw [hexisting] at hread
      obtain ⟨rfl, rfl⟩ := pure_ok.1 hread
      exact .inr (.inr ⟨hclosed, rfl, rfl, rfl⟩)

theorem releaseReservation_ok {input : BudgetReleaseInput} {result : BudgetReleaseResult}
    (h : releaseReservation input s = .ok (result, s')) :
    s' = { s with
      budgetReservations := updateWhere (outstanding input)
        (fun row => { row with status := .released input.at' }) s.budgetReservations } := by
  simp only [releaseReservation, bind_ok, get_bind, set_bind] at h
  obtain ⟨_, t, hcheck, hanswer⟩ := h
  obtain rfl := checkReleaseInput_ok hcheck
  generalize readReservationIn _ _ _ _ = answer at hanswer
  cases answer with
  | none => exact (pure_ok.1 hanswer).2
  | some existing =>
    obtain ⟨-, hpure⟩ | ⟨-, hpure⟩ := ite_ok.1 hanswer <;> exact (pure_ok.1 hpure).2

theorem recordLate_ok (h : recordLate input s = .ok (result, s')) :
    s' = { s with budgetReservations := s.budgetReservations ++ [lateRow input] } := by
  simp only [recordLate, get_bind, set_bind] at h
  generalize readReservationIn _ _ _ _ = answer at h
  cases answer with
  | none => exact (refuseWrite_ok.1 h).elim
  | some recorded => exact (pure_ok.1 h).2

theorem settleExisting_ok {existing : BudgetReservationRecord}
    (h : settleExisting input existing s = .ok (result, s')) :
    s' = { s with
      budgetReservations := updateWhere (unsettled existing)
        (fun row => { row with
          status := .reconciled (usedOf input) input.at'
          effectId := input.effectId })
        s.budgetReservations } := by
  simp only [settleExisting, get_bind, set_bind, ite_ok, refuseWrite_ok] at h
  obtain ⟨-, h⟩ | ⟨-, hread⟩ := h
  · exact h.elim
  generalize readReservationIn _ _ _ _ = answer at hread
  cases answer with
  | none => exact (refuseWrite_ok.1 hread).elim
  | some reconciled => exact (pure_ok.1 hread).2

/-- A report is appended, settles the row without usage, or leaves one with it. -/
theorem reconcileUsage_ok (h : reconcileUsage input s = .ok (result, s')) :
    (∀ kind, 0 ≤ (usedOf input).amountOf kind) ∧
      (s' = s ∨ s' = { s with budgetReservations := s.budgetReservations ++ [lateRow input] } ∨
        ∃ existing, s' = { s with
          budgetReservations := updateWhere (unsettled existing)
            (fun row => { row with
              status := .reconciled (usedOf input) input.at'
              effectId := input.effectId })
            s.budgetReservations }) := by
  simp only [reconcileUsage, bind_ok, get_bind] at h
  obtain ⟨_, t, hcheck, hanswer⟩ := h
  obtain ⟨rfl, hused⟩ := checkUsageInput_ok hcheck
  refine ⟨hused, ?_⟩
  generalize (readReservationIn _ _ _ _).or _ = held at hanswer
  cases held with
  | none => exact .inr (.inl (recordLate_ok hanswer))
  | some existing =>
    cases hstatus : existing.status with
    | reconciled standing settledAt =>
      simp only [hstatus] at hanswer
      exact .inl (pure_ok.1 hanswer).2
    | reserved | released =>
      simp only [hstatus] at hanswer
      exact .inr (.inr ⟨existing, settleExisting_ok hanswer⟩)

end Specs

end BudgetTables

end Rolebox.Graph
