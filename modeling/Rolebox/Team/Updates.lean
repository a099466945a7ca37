import Rolebox.Hashline.Text
import Rolebox.Team.State

/-! The updates of a team's document, each of one operation in one transaction. -/

namespace Rolebox.Team
open General

structure RuntimeRef where
  pid : Nat
  ownerId : String
  deriving DecidableEq

inductive SendKind where
  | message
  | taskOffer
  | taskClaim
  | taskComplete
  | taskRelease
  deriving DecidableEq

def SendKind.eventType : SendKind → TeamEventType
  | message => .message
  | taskOffer => .taskOffer
  | taskClaim => .taskClaim
  | taskComplete => .taskComplete
  | taskRelease => .taskRelease

structure SendTeamEvent where
  kind : SendKind
  content : String
  taskId : Option String
  recipient : Option String
  wake : Option Bool

def MAX_EVENTS : Nat := 5000
def MAX_MEMBERS : Nat := 8
def LEASE_MS : Nat := 30 * 60000

/-- The updates of one document; each carries what its callback closes over. -/
inductive TeamUpdate where
  | beginControl (actor : Actor) (resume : Bool)
  | endControl (token : String)
  | add (actor : Actor) (roleId : String)
  | send (actor : Actor) (input : SendTeamEvent)
  | removeMember (memberId : String)
  | closeTeam (actor : Actor)
  | finishResume (actor : Actor) (continuing : List String)
  | discardDelivery (memberId deliveryId : String)
  | fail (memberId reason : String) (clearDelivery : Bool)
  | expireLeases
  | recordTurn (memberId : String) (deliveryId : Option String) (lastId : String)
      (reason : Option String)
  | reserve (memberId : String) (cursor : Nat) (pending : List TeamEvent) (deliveryId : String)
      (baseline : List String)
  | bindSession (memberId deliveryId sessionId : String)
  | withdraw (memberId deliveryId : String)
  | confirmPrompt (memberId deliveryId promptId : String)

def TeamUpdate.Result : TeamUpdate → Type
  | beginControl .. => String
  | add .. => TeamMember
  | send .. => TeamEvent
  | finishResume .. => List String
  | discardDelivery .. => Bool
  | fail .. => Option (String × String)
  | reserve .. => Bool
  | _ => Unit

section Control
variable (self : RuntimeRef) (platformId : String) (env : TeamEnv)

def controlIsLive (control : TeamControl) : Bool :=
  env.alive control.ownerPid && (decide (control.ownerPid ≠ self.pid) || env.runtimes control.ownerId)

def callerOf (state : TeamState) (actor : Actor) (resume : Bool) : Except String TeamMember :=
  if resume then memberOf state actor else ownerOf state actor

def beginControl (actor : Actor) (resume : Bool) (state : TeamState) :
    Except String (String × TeamState) := do
  assertPlatform platformId state
  let _ ← callerOf state actor resume
  refuseIf (state.status = .deleted) "Team is deleted"
  refuseIf (resume ∧ state.status ≠ .paused) "Only a paused team can resume"
  refuseIf (state.control.any (controlIsLive self env) = true)
    "A team lifecycle operation is still in progress"
  let token := env.uuid 0
  return (token, { state with
    status := .paused
    control := some { id := token, ownerPid := self.pid, ownerId := self.ownerId } })

def endControl (token : String) (state : TeamState) : TeamState :=
  { state with control := state.control.filter fun control => control.id ≠ token }

end Control

section Membership
variable (platformId : String) (env : TeamEnv)

def newTeam (actor : Actor) (name goal : String) (maxTurns : Nat) : TeamState :=
  let member : TeamMember :=
    { id := env.uuid 0, roleId := actor.agent, sessionId := some actor.sessionID, status := .active
      managed := false, cursor := 0, lastTurnId := none, delivery := none, error := none }
  append env 2 (plainEvent .teamCreated member.id goal false)
    { version := 1, id := env.uuid 1, name := name, goal := goal
      ownerSessionId := actor.sessionID, ownerRoleId := actor.agent, platformId := platformId
      status := .active, createdAt := env.now, nextSeq := 1, maxTurns := maxTurns, turns := 0
      control := none, members := [member], events := [], tasks := [] }

def eventLimitMessage : String := "Team event limit reached; create a new team for further work"

def addMember (actor : Actor) (roleId : String) (state : TeamState) :
    Except String (TeamMember × TeamState) := do
  assertPlatform platformId state
  assertActive state
  let owner ← ownerOf state actor
  refuseProblem (env.memberProblem roleId)
  refuseIf (MAX_EVENTS ≤ state.events.length) eventLimitMessage
  refuseIf (∃ member ∈ state.members, member.roleId = roleId ∧ member.isActive = true)
    "Role is already a team member"
  refuseIf (MAX_MEMBERS ≤ state.activeMembers.length) "Team member limit reached"
  let member : TeamMember :=
    { id := env.uuid 0, roleId := roleId, sessionId := none, status := .active, managed := true
      cursor := 0, lastTurnId := none, delivery := none, error := none }
  return (member, append env 1
    (plainEvent .memberJoined owner.id (roleId ++ " joined") false)
    { state with members := state.members ++ [member] })

end Membership

section Tasks
variable (platformId : String) (env : TeamEnv)

def recipientOf (state : TeamState) (member : TeamMember) (recipient : Option String) :
    Except String (Option String) :=
  match recipient.filter nonempty with
  | none => .ok none
  | some wanted =>
    match state.members.find? fun target =>
        target.isActive = true ∧ (target.id = wanted ∨ target.roleId = wanted) with
    | none => .error "Recipient is not an active team member"
    | some target =>
      if target.id = member.id then
        .error ("Event recipient is the sender; omit recipient to wake every other member, " ++
          "or name the peer that should receive this event")
      else .ok (some target.id)

def TeamState.withTask (state : TeamState) (taskId : String) (change : TeamTask → TeamTask) :
    TeamState :=
  { state with tasks := state.tasks.map fun task => if task.id = taskId then change task else task }

def claimTask (memberId : String) (task : TeamTask) : TeamTask :=
  { task with status := .claimed, owner := some memberId, leaseUntil := some (env.now + LEASE_MS) }

def completeTask (content : String) (task : TeamTask) : TeamTask :=
  { task with status := .completed, result := some content, leaseUntil := none }

def releaseTask (task : TeamTask) : TeamTask :=
  { task with status := .offered, owner := none, leaseUntil := none }

def heldByAnother (state : TeamState) (memberId : String) (task : TeamTask) : Bool :=
  match task.owner.filter nonempty with
  | none => false
  | some owner =>
    let previous := state.members.find? fun member => some member.id = task.owner
    decide (owner ≠ memberId) && (decide (env.now < task.leaseUntil.getD 0) ||
      previous.any fun member => member.delivery.isSome)

def applyTaskKind (state : TeamState) (member : TeamMember) (input : SendTeamEvent) :
    Except String (Option String × TeamState) :=
  match input.kind with
  | .message => .ok (input.taskId, state)
  | .taskOffer =>
    let taskId := input.taskId.getD (env.uuid 0)
    if state.tasks.any fun task => task.id = taskId then .error "Task ID already exists"
    else
      .ok (some taskId, { state with
        tasks := state.tasks ++ [{ id := taskId, description := input.content, status := .offered
                                   owner := none, leaseUntil := none, result := none }] })
  | kind =>
    match state.tasks.find? fun task => some task.id = input.taskId with
    | none => .error "Unknown task ID"
    | some task =>
      if task.status = .completed then .error "Task is already completed"
      else if kind = .taskClaim then
        if heldByAnother env state member.id task then
          .error "Task is already claimed by another member"
        else .ok (input.taskId, state.withTask task.id (claimTask env member.id))
      else if task.status ≠ .claimed then .error "Task is not claimed"
      else if task.owner ≠ some member.id then
        .error "Only the current task owner can complete or release it"
      else if kind = .taskComplete then
        .ok (input.taskId, state.withTask task.id (completeTask input.content))
      else .ok (input.taskId, state.withTask task.id releaseTask)

def sendEvent (actor : Actor) (input : SendTeamEvent) (state : TeamState) :
    Except String (TeamEvent × TeamState) := do
  assertPlatform platformId state
  assertActive state
  let member ← memberOf state actor
  refuseIf (MAX_EVENTS ≤ state.events.length) eventLimitMessage
  let recipient ← recipientOf state member input.recipient
  let (taskId, state) ← applyTaskKind env state member input
  let event : NewEvent :=
    { type := input.kind.eventType, sender := member.id, content := input.content
      recipient := recipient, taskId := taskId.filter nonempty
      wake := if input.kind = .taskClaim then false else input.wake.getD true }
  return (env.record 1 state.nextSeq event, append env 1 event state)

def releaseTasks (sender content : String) (released : TeamTask → Bool) (state : TeamState) :
    TeamState :=
  let notice (task : TeamTask) : NewEvent :=
    { type := .taskRelease, sender := sender, content := content, recipient := none
      taskId := some task.id, wake := true }
  appendAll env 1 ((state.tasks.filter released).map notice)
    { state with tasks := state.tasks.map fun task =>
        if released task then releaseTask task else task }

def expireLeases (state : TeamState) : TeamState :=
  if state.status ≠ .active then state
  else
    releaseTasks env "system" "Task lease expired; claim before continuing work" (fun task =>
      task.status = .claimed ∧ task.leaseUntil.any (· ≤ env.now) = true ∧
        (state.members.any fun member => some member.id = task.owner ∧
          member.delivery.isSome = true) = false) state

end Tasks

section Lifecycle
variable (platformId : String) (env : TeamEnv)

def removeMember (memberId : String) (state : TeamState) : Except String TeamState :=
  if state.status = .deleted then .ok state
  else do
    let target ← findMember state memberId
    let removed := state.withMember memberId fun member =>
      { member with status := .removed, delivery := none }
    let released := releaseTasks env memberId "Member removed; work is available" (fun task =>
      task.owner = some memberId ∧ task.status = .claimed) removed
    return append env 0 (plainEvent .memberLeft memberId (target.roleId ++ " left") false) released

def closeTeam (actor : Actor) (state : TeamState) : Except String TeamState :=
  if state.status = .deleted then .ok state
  else do
    let member ← memberOf state actor
    let closed := append env 0 (plainEvent .teamDeleted member.id "Team closed" false) state
    return { closed with
      status := .deleted
      members := closed.members.map fun member => { member with delivery := none } }

def roleChangedMessage : String :=
  "Member session is no longer the assigned role; " ++
    "restore its assigned role before resuming the team"

def resumeProblem (continuing : List String) (member : TeamMember) : Option String :=
  if member.isActive ∧ (member.managed ∨ member.delivery.isSome) ∧ !env.memberAuthorized member then
    some roleChangedMessage
  else if member.delivery.any fun delivery => delivery.id ∉ continuing then
    some "A delivery still needs reconciliation; wait for its host turn to end"
  else none

def finishResume (actor : Actor) (continuing : List String) (state : TeamState) :
    Except String (List String × TeamState) := do
  assertPlatform platformId state
  let member ← memberOf state actor
  refuseIf (state.status = .deleted) "Deleted teams cannot resume"
  refuseIf (state.maxTurns ≤ state.turns ∧ continuing = [])
    "Team turn budget exhausted; create a new team"
  refuseProblem (state.members.findSome? (resumeProblem env continuing))
  let unresolved := state.members.filterMap fun member =>
    (member.error.filter nonempty).map fun error => member.roleId ++ ": " ++ error
  let cleared := { state with
    status := .active
    members := state.members.map fun member => { member with error := none } }
  return (unresolved, append env 0
    (plainEvent .teamResumed member.id "Resume pending collaboration" false) cleared)

def TeamState.refund (state : TeamState) : TeamState := { state with turns := state.turns - 1 }

def holdsDelivery (deliveryId : String) (member : TeamMember) : Bool :=
  member.delivery.any fun delivery => delivery.id = deliveryId

def dropDelivery (memberId : String) (state : TeamState) : TeamState :=
  state.withMember memberId fun member => { member with delivery := none }

def discardDelivery (memberId deliveryId : String) (state : TeamState) :
    Except String (Bool × TeamState) := do
  let current ← findMember state memberId
  if holdsDelivery deliveryId current then return (true, (dropDelivery memberId state).refund)
  else return (false, state)

def failMember (memberId reason : String) (clearDelivery : Bool) (state : TeamState) :
    Except String (Option (String × String) × TeamState) := do
  let member ← findMember state memberId
  if state.status = .deleted ∨ member.status ≠ .active ∨
      (member.error = some reason ∧ ¬ (clearDelivery = true ∧ member.delivery.isSome = true)) then
    return (none, state)
  else
    let delivery := if clearDelivery ∨ member.boundSession = none then member.delivery else none
    let named := state.withMember memberId fun member => { member with error := some reason }
    let cleared := if delivery.isSome then (dropDelivery memberId named).refund else named
    let paused := append env 0 (plainEvent .memberFailed memberId reason false)
      { cleared with status := .paused }
    return (member.boundSession.bind fun sessionId =>
      delivery.map fun delivery => (sessionId, delivery.id), paused)

end Lifecycle

section Deliveries
variable (self : RuntimeRef) (env : TeamEnv)

def silentMessage : String :=
  "Member completed a turn without publishing a team event; its answer stays private. " ++
    "Ask it to publish with team_send_event if you need the result."

/-- The turn of a delivery ended well: the cursor moves over the events of its prompt. -/
def completeTurn (memberId lastId : String) (current : TeamMember) (state : TeamState) :
    TeamState :=
  let published := current.delivery.any fun delivery => state.events.any fun event =>
    event.type = .message ∧ event.sender = memberId ∧ delivery.startedAt ≤ event.at
  let recorded := state.withMember memberId fun member =>
    { member with
      lastTurnId := some lastId
      cursor := member.delivery.elim member.cursor TeamDelivery.throughSeq
      delivery := none
      error := none }
  let noticed := append env 0 (plainEvent .turnCompleted memberId
    "Member turn completed; shared results are published through explicit team events" false)
    recorded
  if current.managed ∧ current.delivery.isSome ∧ published = false then
    let creator := state.members.find? fun member => member.sessionId = some state.ownerSessionId
    append env 1
      { type := .memberSilent, sender := memberId, content := silentMessage
        recipient := creator.map TeamMember.id, taskId := none, wake := true } noticed
  else noticed

def failTurn (memberId lastId reason : String) (current : TeamMember) (state : TeamState) :
    TeamState :=
  let refunded := if current.delivery.isSome then state.refund else state
  let recorded := refunded.withMember memberId fun member =>
    { member with lastTurnId := some lastId, delivery := none, error := some reason }
  append env 0 (plainEvent .memberFailed memberId ("Member turn failed: " ++ reason) false)
    { recorded with status := .paused }

def recordTurn (memberId : String) (deliveryId : Option String) (lastId : String)
    (reason : Option String) (state : TeamState) : Except String TeamState := do
  let current ← findMember state memberId
  if state.status = .deleted ∨ current.status ≠ .active ∨ current.lastTurnId = some lastId ∨
      current.delivery.map TeamDelivery.id ≠ deliveryId then
    return state
  else
    return reason.elim (completeTurn env memberId lastId current state) fun reason =>
      failTurn env memberId lastId reason current state

def reservedDelivery (pending : List TeamEvent) (deliveryId : String) (baseline : List String) :
    TeamDelivery :=
  { id := deliveryId
    throughSeq := (pending.getLast?.map TeamEvent.seq).getD 0
    startedAt := env.now
    ownerPid := self.pid
    ownerId := self.ownerId
    baselineMessageIds := baseline
    promptId := none }

def reserve (memberId : String) (cursor : Nat) (pending : List TeamEvent) (deliveryId : String)
    (baseline : List String) (state : TeamState) : Except String (Bool × TeamState) := do
  let target ← findMember state memberId
  if state.status ≠ .active ∨ target.status ≠ .active ∨ target.delivery.isSome = true ∨
      target.cursor ≠ cursor then
    return (false, state)
  else if 2 ≤ state.holders.length then return (false, state)
  else if state.maxTurns ≤ state.turns then
    if state.holders = [] then
      return (false, { state.withMember memberId fun member =>
        { member with error := some "Team turn budget exhausted" } with status := .paused })
    else return (false, state)
  else
    return (true, { state.withMember memberId fun member =>
      { member with delivery := some (reservedDelivery self env pending deliveryId baseline) } with
        turns := state.turns + 1 })

def bindSession (memberId deliveryId sessionId : String) (state : TeamState) :
    Except String TeamState := do
  let target ← findMember state memberId
  if holdsDelivery deliveryId target then
    return state.withMember memberId fun member => { member with sessionId := some sessionId }
  else return state

/-- A reservation whose session is taken is given back; a negative number of turns is not stored. -/
def withdraw (memberId deliveryId : String) (state : TeamState) : Except String TeamState := do
  let waiting ← findMember state memberId
  if holdsDelivery deliveryId waiting then
    refuseIf (state.turns = 0) corruptMessage
    return (dropDelivery memberId state).refund
  else return state

def confirmPrompt (memberId deliveryId promptId : String) (state : TeamState) :
    Except String TeamState := do
  let activeMember ← findMember state memberId
  if holdsDelivery deliveryId activeMember then
    return state.withMember memberId fun member =>
      { member with
        delivery := member.delivery.map fun delivery =>
          { delivery with promptId := some promptId } }
  else return state

end Deliveries

section Update
variable (self : RuntimeRef) (platformId : String) (env : TeamEnv)

def mutate : (update : TeamUpdate) → TeamState → Except String (update.Result × TeamState)
  | .beginControl actor resume, state => beginControl self platformId env actor resume state
  | .endControl token, state => .ok ((), endControl token state)
  | .add actor roleId, state => addMember platformId env actor roleId state
  | .send actor input, state => sendEvent platformId env actor input state
  | .removeMember memberId, state => (removeMember env memberId state).map ((), ·)
  | .closeTeam actor, state => (closeTeam env actor state).map ((), ·)
  | .finishResume actor continuing, state => finishResume platformId env actor continuing state
  | .discardDelivery memberId deliveryId, state => discardDelivery memberId deliveryId state
  | .fail memberId reason clearDelivery, state => failMember env memberId reason clearDelivery state
  | .expireLeases, state => .ok ((), expireLeases env state)
  | .recordTurn memberId deliveryId lastId reason, state =>
    (recordTurn env memberId deliveryId lastId reason state).map ((), ·)
  | .reserve memberId cursor pending deliveryId baseline, state =>
    reserve self env memberId cursor pending deliveryId baseline state
  | .bindSession memberId deliveryId sessionId, state =>
    (bindSession memberId deliveryId sessionId state).map ((), ·)
  | .withdraw memberId deliveryId, state => (withdraw memberId deliveryId state).map ((), ·)
  | .confirmPrompt memberId deliveryId promptId, state =>
    (confirmPrompt memberId deliveryId promptId state).map ((), ·)

/-- What the callback makes is committed if it would be read back. -/
def update (id : String) (u : TeamUpdate) (state : TeamState) :
    Except String (u.Result × TeamState) := do
  let (result, changed) ← mutate self platformId env u state
  let encoded ← parseState changed id
  return (result, encoded)

end Update
end Rolebox.Team
