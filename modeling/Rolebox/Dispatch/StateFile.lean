import Rolebox.Dispatch.TaskTable
import Rolebox.General.IsoDate
import Rolebox.General.Json
import Rolebox.General.OrderedMap

/-! The dispatch state file: what a save writes, and what a load answers and writes back. -/

namespace Rolebox.Dispatch.Persistence
open General

/-- `Date`; an invalid date holds no time. -/
structure Date where
  time : Option IsoDate.Time

def Date.toISOString (date : Date) : Option String := date.time.map IsoDate.toISOString

/-- `new Date(text)`, where `fallback` is how the host reads a text in no format of its own. -/
def Date.ofText (fallback : String → Option IsoDate.Time) (text : String) : Date :=
  ⟨IsoDate.parse fallback text⟩

structure TaskProgress where
  lastUpdate : Date
  toolCalls : Rat

structure MaterializedResultRef where
  sidecarPath : String
  totalChars : Rat
  hadFence : Bool
  fetchError : Option String
  materializedAt : Rat

structure TerminatingSignal where
  type : String
  payload : Json

structure DispatchTask where
  id : String
  sessionId : String
  parentSessionId : String
  parentAgent : Option String
  suppressCompletionNotification : Option Bool
  status : DispatchTaskStatus
  agent : String
  prompt : String
  description : Option String
  startedAt : Date
  completedAt : Option Date
  error : Option String
  progress : TaskProgress
  continuationOf : Option String
  messageCountAtStart : Option Rat
  timeoutMs : Option Rat
  mode : Option String
  depth : Rat
  priority : Rat
  result : Option MaterializedResultRef
  terminatingSignal : Option TerminatingSignal

structure PendingConfirm where
  messageCount : Rat
  «at» : Rat

structure TaskEventState where
  lastMessageCount : Rat
  lastProgressUpdate : Rat
  hasProducedOutput : Bool
  messageCountAtStart : Rat
  lastEventAt : Rat
  pendingConfirm : Option PendingConfirm
  consecutiveFetchFailures : Rat

structure SerializedTaskProgress where
  lastUpdate : String
  toolCalls : Rat

structure SerializedDispatchTask where
  id : String
  sessionId : String
  parentSessionId : String
  parentAgent : Option String
  suppressCompletionNotification : Option Bool
  status : DispatchTaskStatus
  agent : String
  prompt : String
  description : Option String
  startedAt : String
  completedAt : Option String
  error : Option String
  progress : SerializedTaskProgress
  continuationOf : Option String
  messageCountAtStart : Option Rat
  timeoutMs : Option Rat
  mode : Option String
  depth : Option Rat
  priority : Option Rat
  result : Option MaterializedResultRef

structure SerializedTaskEventState where
  lastMessageCount : Rat
  lastProgressUpdate : Rat
  hasProducedOutput : Bool
  messageCountAtStart : Rat
  lastEventAt : Rat
  pendingConfirm : Option PendingConfirm
  consecutiveFetchFailures : Option Rat

inductive SchemaVersion where
  | v1 | v2 | v3 | v4 | v5
  deriving DecidableEq

structure DispatchStateFile where
  version : SchemaVersion
  tasks : List SerializedDispatchTask
  outbox : Option Json
  eventState : Option (OrderedMap SerializedTaskEventState)

inductive StateText where
  | file (file : DispatchStateFile)
  | corrupt

structure Tasks where
  map : OrderedMap DispatchTask
  keyed : ∀ entry ∈ map.entries, entry.1 = entry.2.id

def Tasks.values (tasks : Tasks) : List DispatchTask := tasks.map.values

structure LoadedState where
  tasks : Tasks
  outbox : List String
  eventState : OrderedMap TaskEventState

structure TaskStateStore where
  readOnly : Bool
  text : Option StateText

def serializeTask (task : DispatchTask) : Option SerializedDispatchTask := do
  let startedAt ← task.startedAt.toISOString
  let completedAt ← task.completedAt.mapM Date.toISOString
  let lastUpdate ← task.progress.lastUpdate.toISOString
  return {
    id := task.id
    sessionId := task.sessionId
    parentSessionId := task.parentSessionId
    parentAgent := task.parentAgent
    suppressCompletionNotification := task.suppressCompletionNotification
    status := task.status
    agent := task.agent
    prompt := task.prompt
    description := task.description
    startedAt
    completedAt
    error := task.error
    progress := { lastUpdate, toolCalls := task.progress.toolCalls }
    continuationOf := task.continuationOf
    messageCountAtStart := task.messageCountAtStart
    timeoutMs := task.timeoutMs
    mode := task.mode
    depth := some task.depth
    priority := some task.priority
    result := task.result.map fun result =>
      { sidecarPath := result.sidecarPath
        totalChars := result.totalChars
        hadFence := result.hadFence
        fetchError := result.fetchError
        materializedAt := result.materializedAt } }

def serializeEventState (es : TaskEventState) : SerializedTaskEventState :=
  { lastMessageCount := es.lastMessageCount
    lastProgressUpdate := es.lastProgressUpdate
    hasProducedOutput := es.hasProducedOutput
    messageCountAtStart := es.messageCountAtStart
    lastEventAt := es.lastEventAt
    pendingConfirm := es.pendingConfirm
    consecutiveFetchFailures := some es.consecutiveFetchFailures }

def recordOf (eventState : OrderedMap TaskEventState) : OrderedMap SerializedTaskEventState :=
  (⟨eventState.record.own, eventState.record.keysNodup⟩ : OrderedMap TaskEventState).map
    serializeEventState

/-- The file of the live maps; it throws where the date of some task is invalid. -/
def serialize (tasks : Tasks) (outbox : Option (List String))
    (eventState : Option (OrderedMap TaskEventState)) : Option DispatchStateFile := do
  let serialized ← tasks.values.mapM serializeTask
  return {
    version := .v5
    tasks := serialized
    outbox := outbox.bind fun ids => if ids.length > 0 then some (.arr (ids.map .str)) else none
    eventState := eventState.bind fun states =>
      if states.entries.length > 0 then some (recordOf states) else none }

/-- A save replaces the file at once, or leaves it where it could not be written. -/
def TaskStateStore.save (store : TaskStateStore) (tasks : Tasks)
    (outbox : Option (List String)) (eventState : Option (OrderedMap TaskEventState)) :
    TaskStateStore :=
  if store.readOnly then store
  else
    match serialize tasks outbox eventState with
    | none => store
    | some file => { store with text := some (.file file) }

section Reader
variable (fallback : String → Option IsoDate.Time)

def readOutbox (file : DispatchStateFile) : List String :=
  if file.version = .v4 ∨ file.version = .v5 then
    match file.outbox with
    | some (.arr items) => items.filterMap Json.str?
    | _ => []
  else []

def readTaskEventState (es : SerializedTaskEventState) : TaskEventState :=
  { lastMessageCount := es.lastMessageCount
    lastProgressUpdate := es.lastProgressUpdate
    hasProducedOutput := es.hasProducedOutput
    messageCountAtStart := es.messageCountAtStart
    lastEventAt := es.lastEventAt
    pendingConfirm := es.pendingConfirm
    consecutiveFetchFailures := es.consecutiveFetchFailures.getD 0 }

def readEventState (file : DispatchStateFile) : OrderedMap TaskEventState :=
  if file.version = .v5 then
    match file.eventState with
    | some record => .ofList Prod.fst (fun entry => readTaskEventState entry.2) record.entries
    | none => .empty
  else .empty

def readTask (version : SchemaVersion) (st : SerializedDispatchTask) : DispatchTask :=
  { id := st.id
    sessionId := st.sessionId
    parentSessionId := st.parentSessionId
    parentAgent := st.parentAgent
    suppressCompletionNotification := st.suppressCompletionNotification
    status := st.status
    agent := st.agent
    prompt := st.prompt
    description := st.description
    startedAt := .ofText fallback st.startedAt
    completedAt := (st.completedAt.filter (· ≠ "")).map (.ofText fallback)
    error := st.error
    progress :=
      { lastUpdate := .ofText fallback st.progress.lastUpdate
        toolCalls := st.progress.toolCalls }
    continuationOf := if version = .v1 then none else st.continuationOf
    messageCountAtStart := if version = .v1 then some 0 else st.messageCountAtStart
    timeoutMs := if version = .v1 ∨ version = .v2 then none else st.timeoutMs
    mode := if version = .v1 ∨ version = .v2 then some "background" else st.mode
    depth := st.depth.getD 0
    priority := st.priority.getD 0
    result :=
      if version = .v4 ∨ version = .v5 then
        st.result.map fun result =>
          { sidecarPath := result.sidecarPath
            totalChars := result.totalChars
            hadFence := result.hadFence
            fetchError := result.fetchError
            materializedAt := result.materializedAt }
      else none
    terminatingSignal := none }

def readTasks (file : DispatchStateFile) : Tasks :=
  ⟨.ofList (·.id) (readTask fallback file.version) file.tasks, fun entry h => by
    obtain ⟨st, -, rfl⟩ := OrderedMap.mem_entries_ofList h
    rfl⟩

/-- A load answers the state, and the store once the save it starts is through. -/
def TaskStateStore.load (store : TaskStateStore) : Option LoadedState × TaskStateStore :=
  match store.text with
  | none => (none, store)
  | some .corrupt => (none, store)
  | some (.file file) =>
    let outbox := readOutbox file
    let eventState := readEventState file
    let tasks := readTasks fallback file
    (some { tasks, outbox, eventState },
      if file.version = .v5 then store else store.save tasks none none)

end Reader

end Rolebox.Dispatch.Persistence
