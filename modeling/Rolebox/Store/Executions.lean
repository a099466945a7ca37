import Rolebox.Store.Tables

/-! The execution bindings: the claim of a host, the fence, and the confirmed execution. -/

namespace Rolebox.Graph
open General Transaction

structure StoreEffectKey where
  graphId : String
  effectId : String
  attemptId : String

structure HostExecutionIdentity where
  executionId : String
  taskId : Option String
  deriving DecidableEq

/-- Only a pending binding is released, and only a created one names an execution. -/
inductive ExecutionState where
  | pending (releasedAt : Option Int)
  | creating
  | created (execution : HostExecutionIdentity)
  deriving DecidableEq

inductive ExecutionRefusalKind where
  | staleConfirmation
  | conflictingExecution
  | unprovenFailure
  deriving DecidableEq

structure ExecutionRefusal where
  kind : ExecutionRefusalKind
  ownerId : String
  generation : Option Nat
  executionId : Option String
  refusedAt : Int

structure ExecutionBindingRecord where
  graphId : String
  effectId : String
  attemptId : String
  state : ExecutionState
  ownerId : String
  generation : Nat
  claimedAt : Int
  updatedAt : Int
  refused : Option ExecutionRefusal
  refusedCount : Nat

abbrev ExecutionTx (α : Type) := Transaction (List ExecutionBindingRecord) StoreFailure α

def EXECUTIONS : String := "host_dispatch_executions"

def ofEffect (effect : StoreEffectKey) (row : ExecutionBindingRecord) : Prop :=
  row.graphId = effect.graphId ∧ row.effectId = effect.effectId

instance (effect : StoreEffectKey) : DecidablePred (ofEffect effect) := fun _ =>
  inferInstanceAs (Decidable (_ ∧ _))

def isSafeInteger (n : Int) : Bool := decide (n.natAbs ≤ maxSafeInteger)

def ExecutionState.readable : ExecutionState → Bool
  | .pending releasedAt => releasedAt.all isSafeInteger
  | .creating => true
  | .created execution => decide (execution.executionId ≠ "")

def ExecutionRefusal.readable (refusal : ExecutionRefusal) : Bool :=
  decide (refusal.ownerId ≠ "") && decide (refusal.executionId ≠ some "") &&
    isSafeInteger refusal.refusedAt

/-- What the row's reader accepts: named texts, a minted generation and readable instants. -/
def ExecutionBindingRecord.readable (row : ExecutionBindingRecord) : Bool :=
  [row.graphId, row.effectId, row.attemptId, row.ownerId].all isNonEmpty &&
    decide (1 ≤ row.generation) &&
    [row.generation, row.refusedCount].all (fun n => decide (n ≤ maxSafeInteger)) &&
    [row.claimedAt, row.updatedAt].all isSafeInteger &&
    row.state.readable && row.refused.all ExecutionRefusal.readable

inductive ExecutionClaim where
  | claimed (ownerId : String) (generation : Nat)
  | held (row : ExecutionBindingRecord)

inductive ExecutionConfirmation where
  | confirmed (execution : HostExecutionIdentity)
  | replayed (execution : HostExecutionIdentity)
  | conflict (recorded reported : HostExecutionIdentity)
  | fenced (reason : String) (row : ExecutionBindingRecord) (ownerId : String) (generation : Nat)
  | absent

def readExecution (effect : StoreEffectKey) : ExecutionTx (Option ExecutionBindingRecord) := do
  let rows ← get
  match rows.find? (ofEffect effect) with
  | none => pure none
  | some row => if row.readable then pure (some row) else throw (.malformedRow EXECUTIONS)

def freshBinding (effect : StoreEffectKey) (ownerId : String) (now : Int) :
    ExecutionBindingRecord :=
  { graphId := effect.graphId
    effectId := effect.effectId
    attemptId := effect.attemptId
    state := .pending none
    ownerId := ownerId
    generation := 1
    claimedAt := now
    updatedAt := now
    refused := none
    refusedCount := 0 }

def insertBinding (row : ExecutionBindingRecord) : ExecutionTx PUnit :=
  modify fun rows =>
    if rows.any fun other => other.graphId = row.graphId ∧ other.effectId = row.effectId then rows
    else rows ++ [row]

def updateBindings (c : ExecutionBindingRecord → Prop) [DecidablePred c]
    (f : ExecutionBindingRecord → ExecutionBindingRecord) : ExecutionTx Nat := do
  let rows ← get
  set (updateWhere c f rows)
  pure (rows.countP fun row => c row)

def takeable (effect : StoreEffectKey) (ownerId : String) (generation : Nat) (released : Bool)
    (row : ExecutionBindingRecord) : Prop :=
  ofEffect effect row ∧ row.ownerId = ownerId ∧ row.generation = generation ∧
    match row.state with
    | .pending releasedAt => releasedAt.isSome = released
    | _ => False

instance (effect : StoreEffectKey) (ownerId : String) (generation : Nat) (released : Bool) :
    DecidablePred (takeable effect ownerId generation released) := fun row => by
  unfold takeable
  cases row.state <;> infer_instance

def takeOver (ownerId : String) (now : Int) (row : ExecutionBindingRecord) :
    ExecutionBindingRecord :=
  { row with
    ownerId := ownerId
    generation := row.generation + 1
    claimedAt := now
    updatedAt := now
    state := .pending none }

def takeOverClaim (effect : StoreEffectKey) (ownerId : String) (now : Int)
    (row : ExecutionBindingRecord) (releasedAt : Option Int) : ExecutionTx ExecutionClaim := do
  let changed ← updateBindings (takeable effect row.ownerId row.generation releasedAt.isSome)
    (takeOver ownerId now)
  let after ← readExecution effect
  if changed = 1 then
    pure (.claimed ownerId ((after.map ExecutionBindingRecord.generation).getD
      (row.generation + 1)))
  else
    match after with
    | none => pure (.claimed ownerId (row.generation + 1))
    | some after => pure (.held after)

def claimExecution (effect : StoreEffectKey) (ownerId : String) (now leaseMs : Int) :
    ExecutionTx ExecutionClaim := do
  insertBinding (freshBinding effect ownerId now)
  let row ← readExecution effect
  match row with
  | none => throw (.refused
      { code := .writeRejected
        message := "graph-store: the execution binding for effect " ++ quote effect.effectId ++
          " could not be written or read back — refusing to report a claim this store does " ++
          "not hold" })
  | some row =>
    match row.state with
    | .pending releasedAt =>
      if row.ownerId = ownerId then pure (.claimed ownerId row.generation)
      else if releasedAt = none ∧ now < row.claimedAt + leaseMs then pure (.held row)
      else takeOverClaim effect ownerId now row releasedAt
    | _ => pure (.held row)

def ofClaim (effect : StoreEffectKey) (ownerId : String) (generation : Nat)
    (row : ExecutionBindingRecord) : Prop :=
  ofEffect effect row ∧ row.ownerId = ownerId ∧ row.generation = generation

instance (effect : StoreEffectKey) (ownerId : String) (generation : Nat) :
    DecidablePred (ofClaim effect ownerId generation) := fun _ =>
  inferInstanceAs (Decidable (_ ∧ _ ∧ _))

def ExecutionState.isPending : ExecutionState → Bool
  | .pending _ => true
  | _ => false

def ExecutionState.isCreated : ExecutionState → Bool
  | .created _ => true
  | _ => false

def markExecutionCreating (effect : StoreEffectKey) (ownerId : String) (generation : Nat)
    (now : Int) : ExecutionTx Bool := do
  let changed ← updateBindings
    (fun row => ofClaim effect ownerId generation row ∧ row.state.isPending)
    (fun row => { row with state := .creating, updatedAt := now })
  pure (decide (changed = 1))

def recordExecutionRefusal (effect : StoreEffectKey) (kind : ExecutionRefusalKind)
    (ownerId : String) (generation : Nat) (executionId : Option String) (now : Int) :
    ExecutionTx PUnit :=
  modify (updateWhere (ofEffect effect) fun row => { row with
    refused := some { kind := kind
                      ownerId := ownerId
                      generation := if 1 ≤ generation then some generation else none
                      executionId := executionId
                      refusedAt := now }
    refusedCount := row.refusedCount + 1 })

def ExecutionState.text : ExecutionState → String
  | .pending _ => "pending"
  | .creating => "creating"
  | .created _ => "created"

def fencedReason (row : ExecutionBindingRecord) (ownerId : String) (generation : Nat) : String :=
  if row.ownerId ≠ ownerId then
    "the row belongs to owner " ++ quote row.ownerId ++ " and not to " ++ quote ownerId
  else if row.generation ≠ generation then
    "the row belongs to claim " ++ toString row.generation ++
      " of this owner and not to the presented claim " ++ toString generation
  else
    "the row is " ++ quote row.state.text ++
      ", not 'creating' — a confirmation records the execution a claim handed over"

def identityOf (execution : HostExecutionIdentity) : HostExecutionIdentity :=
  { execution with taskId := execution.taskId.filter fun taskId => taskId ≠ "" }

/-- Classify a confirmation that changed no row, and record its refusal. -/
def refuseConfirmation (effect : StoreEffectKey) (ownerId : String) (generation : Nat)
    (execution : HostExecutionIdentity) (now : Int) : ExecutionTx ExecutionConfirmation := do
  let row ← readExecution effect
  match row with
  | none => pure .absent
  | some row =>
    let current := row.ownerId = ownerId ∧ row.generation = generation
    match row.state with
    | .created recorded =>
      if current ∧ recorded.executionId = execution.executionId then pure (.replayed recorded)
      else if current then do
        recordExecutionRefusal effect .conflictingExecution ownerId generation
          (some execution.executionId) now
        pure (.conflict recorded (identityOf execution))
      else do
        recordExecutionRefusal effect .staleConfirmation ownerId generation
          (some execution.executionId) now
        pure (.fenced (fencedReason row ownerId generation) row ownerId generation)
    | state =>
      if ¬ current ∨ state ≠ .creating then do
        recordExecutionRefusal effect .staleConfirmation ownerId generation
          (some execution.executionId) now
        pure (.fenced (fencedReason row ownerId generation) row ownerId generation)
      else
        pure (.fenced ("the conditional confirmation applied to no row — the claim stopped " ++
          "being the row's current one") row ownerId generation)

def confirmExecution (effect : StoreEffectKey) (ownerId : String) (generation : Nat)
    (execution : HostExecutionIdentity) (now : Int) : ExecutionTx ExecutionConfirmation :=
  if execution.executionId = "" then
    throw (.refused
      { code := .invalidRecord
        message := "graph-store: refusing to record effect " ++ quote effect.effectId ++
          " as created without a non-empty host execution id — 'created' is the host's " ++
          "confirmed fact, and a state that claims one without naming the execution " ++
          "cannot be reconciled against the platform" })
  else do
    let changed ← updateBindings
      (fun row => ofClaim effect ownerId generation row ∧ row.state = .creating)
      (fun row => { row with state := .created (identityOf execution), updatedAt := now })
    if changed = 1 then pure (.confirmed (identityOf execution))
    else refuseConfirmation effect ownerId generation execution now

def recordUnprovenFailure (effect : StoreEffectKey) (ownerId : String) (generation : Nat)
    (now : Int) : ExecutionTx PUnit :=
  recordExecutionRefusal effect .unprovenFailure ownerId generation none now

structure ExecutionNotCreated where
  reason : String

def releaseExecution (effect : StoreEffectKey) (ownerId : String) (generation : Nat)
    (proof : Option ExecutionNotCreated) (now : Int) : ExecutionTx Bool :=
  match proof with
  | none => throw (.refused
      { code := .invalidRecord
        message := "graph-store: refusing to release the create right of effect " ++
          quote effect.effectId ++
          " without a not-created proof — 'the create failed' and 'no execution exists' are " ++
          "different facts, and only the second one licenses a later create" })
  | some _ => do
    let changed ← updateBindings
      (fun row => ofClaim effect ownerId generation row ∧ row.state.isCreated = false)
      (fun row => { row with
        state := .pending (some now)
        generation := row.generation + 1
        updatedAt := now })
    pure (decide (changed = 1))

end Rolebox.Graph
