import Rolebox.General.PlainObject
import Rolebox.General.Transition

/-! The recovery state of one session: updates, guarded writes and the dirty entry. -/

namespace Rolebox.Recovery
open General

inductive RecoveryErrorCategory where
  | session_error | context_window | edit_error | json_error | empty_response | tool_pair
  | guard_violation
  deriving DecidableEq

inductive AttemptResult where
  | success | retry | next_strategy | abort
  deriving DecidableEq

structure RecoveryAttempt where
  category : RecoveryErrorCategory
  errorType : String
  timestamp : Nat
  chainPosition : Nat
  strategy : String
  result : AttemptResult
  message : Option String
  deriving DecidableEq

/-- An entry of `activeChains`; one named like an inherited property may lack any field. -/
structure ChainState where
  currentStep : Option Nat
  startTime : Option Nat
  totalAttempts : Option Nat
  deriving DecidableEq

structure Tally where
  attempts : Nat
  successes : Nat
  deriving DecidableEq

structure RecoveryMetricsSnapshot where
  totalAttempts : Nat
  successfulRecoveries : Nat
  abortedChains : Nat
  exhaustedChains : Nat
  byCategory : PlainObject Tally
  byStrategy : PlainObject Tally
  errorTypeFrequency : PlainObject Nat
  deriving DecidableEq

structure RecoveryState where
  sessionID : String
  attempts : List RecoveryAttempt
  activeChains : PlainObject ChainState
  metrics : RecoveryMetricsSnapshot
  deriving DecidableEq

/-- What `JSON.parse(JSON.stringify(state))` answers: an object's own properties. -/
def RecoveryState.stored (state : RecoveryState) : RecoveryState :=
  { state with
    activeChains := state.activeChains.spread
    metrics := { state.metrics with
      byCategory := state.metrics.byCategory.spread
      byStrategy := state.metrics.byStrategy.spread
      errorTypeFrequency := state.metrics.errorTypeFrequency.spread } }

@[simp] theorem RecoveryState.stored_attempts (state : RecoveryState) :
    state.stored.attempts = state.attempts := rfl

def freshState (sessionID : String) : RecoveryState where
  sessionID := sessionID
  attempts := []
  activeChains := PlainObject.empty
  metrics :=
    { totalAttempts := 0
      successfulRecoveries := 0
      abortedChains := 0
      exhaustedChains := 0
      byCategory := PlainObject.empty
      byStrategy := PlainObject.empty
      errorTypeFrequency := PlainObject.empty }

inductive StateFile where
  | missing
  | garbled
  | holding (state : RecoveryState)

/-- How replacing the file ends; `unlinked`: the old file was removed before the failure. -/
inductive WriteOutcome where
  | done
  | failed (unlinked : Bool)

structure InFlight where
  state : RecoveryState
  gen : Nat
  deriving DecidableEq

structure RecoveryStateStore where
  file : StateFile
  dirty : Option RecoveryState
  writeGen : Nat
  inFlight : List InFlight

namespace RecoveryStateStore

/-- `load`; `readable` is false where reading the file throws. -/
def load (store : RecoveryStateStore) (readable : Bool) : Option RecoveryState :=
  match store.file with
  | .holding state => if readable then some state else none
  | .missing => none
  | .garbled => none

/-- `save`; `started` is false where the directory cannot be made, so that no write begins. -/
def save (store : RecoveryStateStore) (state : RecoveryState) (started : Bool) :
    RecoveryStateStore :=
  { store with
    dirty := some state
    writeGen := store.writeGen + 1
    inFlight := if started then store.inFlight ++ [⟨state.stored, store.writeGen + 1⟩]
      else store.inFlight }

/-- The rest of `writeAsync` once its temporary file is there or could not be written. -/
def writeAsync (store : RecoveryStateStore) (write : InFlight) (outcome : WriteOutcome) :
    RecoveryStateStore :=
  let store := { store with inFlight := store.inFlight.erase write }
  if write.gen < store.writeGen then store
  else match outcome with
    | .done => { store with file := .holding write.state, dirty := none }
    | .failed true => { store with file := .missing }
    | .failed false => store

def atomicWriteSync (file : StateFile) (content : RecoveryState) : WriteOutcome → StateFile
  | .done => .holding content.stored
  | .failed true => .missing
  | .failed false => file

def saveSync (store : RecoveryStateStore) (state : RecoveryState) (outcome : WriteOutcome) :
    RecoveryStateStore :=
  { store with
    writeGen := store.writeGen + 1
    file := atomicWriteSync store.file state outcome }

def isDuplicate (a b : RecoveryAttempt) : Bool :=
  a.timestamp == b.timestamp && a.strategy == b.strategy

def withAttempt (existing : RecoveryState) (attempt : RecoveryAttempt) : RecoveryState :=
  if existing.attempts.any (isDuplicate · attempt) then existing
  else { existing with attempts := existing.attempts ++ [attempt] }

def recordAttempt (store : RecoveryStateStore) (sessionID : String) (attempt : RecoveryAttempt)
    (readable started : Bool) : RecoveryStateStore :=
  let existing := (store.load readable).getD (freshState sessionID)
  store.save (withAttempt existing attempt) started

/-- `{ ...current, ...update }`. -/
def ChainState.update (current update : ChainState) : ChainState where
  currentStep := update.currentStep <|> current.currentStep
  startTime := update.startTime <|> current.startTime
  totalAttempts := update.totalAttempts <|> current.totalAttempts

def withChain (existing : RecoveryState) (chainKey : String) (update : ChainState) (now : Nat) :
    RecoveryState :=
  let current : ChainState := match existing.activeChains.get chainKey with
    | .undefined => ⟨some 0, some now, some 0⟩
    -- an inherited function or prototype has no own properties to spread
    | .inherited => ⟨none, none, none⟩
    | .value chain => chain
  { existing with
    activeChains := existing.activeChains.set chainKey (ChainState.update current update) }

@[simp] theorem withChain_attempts (existing : RecoveryState) (chainKey : String)
    (update : ChainState) (now : Nat) :
    (withChain existing chainKey update now).attempts = existing.attempts := rfl

def updateChainState (store : RecoveryStateStore) (sessionID chainKey : String)
    (update : ChainState) (now : Nat) (readable started : Bool) : RecoveryStateStore :=
  let existing := (store.load readable).getD (freshState sessionID)
  store.save (withChain existing chainKey update now) started

/-- `delete`; `unlinked` is false where the file cannot be removed. -/
def delete (store : RecoveryStateStore) (unlinked : Bool) : RecoveryStateStore :=
  { store with
    writeGen := store.writeGen + 1
    dirty := none
    file := if unlinked then .missing else store.file }

def flushSync (store : RecoveryStateStore) (outcome : WriteOutcome) : RecoveryStateStore :=
  match store.dirty with
  | none => store
  | some state => { store.saveSync state outcome with dirty := none }

end RecoveryStateStore

/-- A call on the store, or the end of an asynchronous write. -/
inductive Event where
  | save (state : RecoveryState) (started : Bool)
  | saveSync (state : RecoveryState) (outcome : WriteOutcome)
  | recordAttempt (attempt : RecoveryAttempt) (readable started : Bool)
  | updateChainState (chainKey : String) (update : ChainState) (now : Nat)
      (readable started : Bool)
  | delete (unlinked : Bool)
  | flushSync (outcome : WriteOutcome)
  | writeAsync (write : InFlight) (outcome : WriteOutcome)

namespace RecoveryStateStore

def perform (sessionID : String) (store : RecoveryStateStore) : Event → RecoveryStateStore
  | .save state started => store.save state started
  | .saveSync state outcome => store.saveSync state outcome
  | .recordAttempt attempt readable started =>
      store.recordAttempt sessionID attempt readable started
  | .updateChainState chainKey update now readable started =>
      store.updateChainState sessionID chainKey update now readable started
  | .delete unlinked => store.delete unlinked
  | .flushSync outcome => store.flushSync outcome
  | .writeAsync write outcome => store.writeAsync write outcome

end RecoveryStateStore
end Rolebox.Recovery
