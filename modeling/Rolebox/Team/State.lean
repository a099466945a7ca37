import Rolebox.Graph.Text

/-! The document of a team, what the store accepts as one, and the lookups of operations. -/

namespace Rolebox.Team
open General

/-- `if (c) throw new Error(message)`. -/
def refuseIf (c : Prop) [Decidable c] (message : String) : Except String Unit :=
  if c then .error message else .ok ()

@[simp] theorem refuseIf_ok {c : Prop} [Decidable c] {message : String} {u : Unit} :
    refuseIf c message = .ok u ↔ ¬ c := by
  unfold refuseIf
  split <;> simp_all

def refuseProblem : Option String → Except String Unit
  | some problem => .error problem
  | none => .ok ()

@[simp] theorem refuseProblem_ok {problem : Option String} {u : Unit} :
    refuseProblem problem = .ok u ↔ problem = none := by
  cases problem <;> simp [refuseProblem]

structure TeamDelivery where
  id : String
  throughSeq : Nat
  startedAt : Nat
  ownerPid : Nat
  ownerId : String
  baselineMessageIds : List String
  promptId : Option String

inductive MemberStatus where
  | active
  | removed
  deriving DecidableEq

structure TeamMember where
  id : String
  roleId : String
  sessionId : Option String
  status : MemberStatus
  managed : Bool
  cursor : Nat
  lastTurnId : Option String
  delivery : Option TeamDelivery
  error : Option String

inductive TeamEventType where
  | teamCreated
  | memberJoined
  | memberLeft
  | memberFailed
  | memberSilent
  | turnCompleted
  | teamResumed
  | teamDeleted
  | message
  | taskOffer
  | taskClaim
  | taskComplete
  | taskRelease
  deriving DecidableEq

structure TeamEvent where
  seq : Nat
  id : String
  type : TeamEventType
  sender : String
  content : String
  recipient : Option String
  taskId : Option String
  «at» : Nat
  wake : Bool
  deriving DecidableEq

inductive TaskStatus where
  | offered
  | claimed
  | completed
  deriving DecidableEq

structure TeamTask where
  id : String
  description : String
  status : TaskStatus
  owner : Option String
  leaseUntil : Option Nat
  result : Option String

structure TeamControl where
  id : String
  ownerPid : Nat
  ownerId : String

inductive TeamStatus where
  | active
  | paused
  | deleted
  deriving DecidableEq

def TeamStatus.text : TeamStatus → String
  | active => "active"
  | paused => "paused"
  | deleted => "deleted"

structure TeamState where
  version : Nat
  id : String
  name : String
  goal : String
  ownerSessionId : String
  ownerRoleId : String
  platformId : String
  status : TeamStatus
  createdAt : Nat
  nextSeq : Nat
  maxTurns : Nat
  turns : Nat
  control : Option TeamControl
  members : List TeamMember
  events : List TeamEvent
  tasks : List TeamTask

def nonempty (text : String) : Bool := text ≠ ""

def TeamMember.boundSession (member : TeamMember) : Option String := member.sessionId.filter nonempty

def safeInteger (value : Nat) : Bool := value ≤ Graph.maxSafeInteger

def integerFrom (minimum value : Nat) : Bool := safeInteger value && decide (minimum ≤ value)

def acceptsControl (control : TeamControl) : Bool :=
  nonempty control.id && integerFrom 1 control.ownerPid && nonempty control.ownerId

def acceptsDelivery (nextSeq : Nat) (delivery : TeamDelivery) : Bool :=
  nonempty delivery.id && safeInteger delivery.throughSeq && decide (delivery.throughSeq < nextSeq) &&
    safeInteger delivery.startedAt && integerFrom 1 delivery.ownerPid &&
    nonempty delivery.ownerId && delivery.baselineMessageIds.all nonempty

def acceptsMember (nextSeq : Nat) (member : TeamMember) : Bool :=
  nonempty member.id && nonempty member.roleId && safeInteger member.cursor &&
    decide (member.cursor < nextSeq) && member.delivery.all (acceptsDelivery nextSeq)

def acceptsEvent (nextSeq : Nat) (event : TeamEvent) : Bool :=
  integerFrom 1 event.seq && decide (event.seq < nextSeq) && nonempty event.id &&
    nonempty event.sender && safeInteger event.at

def acceptsTask (task : TeamTask) : Bool :=
  nonempty task.id && nonempty task.description && task.leaseUntil.all safeInteger

/-- The checks a document passes beyond the types of its fields. -/
def accepts (value : TeamState) (id : String) : Bool :=
  value.id = id && nonempty value.name && nonempty value.goal && nonempty value.ownerSessionId &&
    nonempty value.ownerRoleId && nonempty value.platformId && safeInteger value.createdAt &&
    integerFrom 1 value.nextSeq && integerFrom 1 value.maxTurns && safeInteger value.turns &&
    value.control.all acceptsControl && value.members.all (acceptsMember value.nextSeq) &&
    decide ((value.members.map TeamMember.id).Nodup) &&
    value.events.all (acceptsEvent value.nextSeq) &&
    decide ((value.events.map TeamEvent.seq).Pairwise (· < ·)) &&
    decide ((value.events.map TeamEvent.id).Nodup) && value.tasks.all acceptsTask &&
    decide ((value.tasks.map TeamTask.id).Nodup)

def corruptMessage : String := "Team storage is corrupt or unsupported"

def parseState (value : TeamState) (id : String) : Except String TeamState :=
  if value.version ≠ 1 then .error "Unsupported team state version"
  else if accepts value id then .ok value
  else .error corruptMessage

theorem parseState_ok {value state : TeamState} {id : String} :
    parseState value id = .ok state ↔ state = value ∧ value.version = 1 ∧ accepts value id = true := by
  unfold parseState
  split
  · next hversion => simp [hversion]
  next hversion =>
  split
  · next haccepts =>
    have h1 : value.version = 1 := by simpa using hversion
    simp [haccepts, h1, eq_comm]
  · next haccepts => simp [haccepts]

structure Actor where
  sessionID : String
  agent : String

def TeamMember.isActive (member : TeamMember) : Bool := member.status = .active

def TeamMember.plays (member : TeamMember) (actor : Actor) : Bool :=
  member.isActive && decide (member.sessionId = some actor.sessionID) &&
    decide (member.roleId = actor.agent)

def memberOf (state : TeamState) (actor : Actor) : Except String TeamMember :=
  match state.members.find? (·.plays actor) with
  | some member => .ok member
  | none => .error "This session and role are not an active member of this team"

def ownerOf (state : TeamState) (actor : Actor) : Except String TeamMember := do
  let member ← memberOf state actor
  refuseIf (actor.sessionID ≠ state.ownerSessionId ∨ actor.agent ≠ state.ownerRoleId)
    "Only the team creator can change membership or lifecycle"
  return member

def assertActive (state : TeamState) : Except String Unit :=
  refuseIf (state.status ≠ .active) ("Team is " ++ state.status.text)

def assertPlatform (platformId : String) (state : TeamState) : Except String Unit :=
  refuseIf (state.platformId ≠ platformId) "Team belongs to another host platform"

def findMember (state : TeamState) (memberId : String) : Except String TeamMember :=
  match state.members.find? fun member => member.id = memberId with
  | some member => .ok member
  | none => .error "undefined is not an object"

def TeamState.withMember (state : TeamState) (memberId : String) (change : TeamMember → TeamMember) :
    TeamState :=
  { state with
    members := state.members.map fun member =>
      if member.id = memberId then change member else member }

def TeamState.activeMembers (state : TeamState) : List TeamMember :=
  state.members.filter TeamMember.isActive

def TeamState.holders (state : TeamState) : List TeamMember :=
  state.members.filter fun member => member.delivery.isSome

structure NewEvent where
  type : TeamEventType
  sender : String
  content : String
  recipient : Option String
  taskId : Option String
  wake : Bool

def plainEvent (type : TeamEventType) (sender content : String) (wake : Bool) : NewEvent :=
  { type := type, sender := sender, content := content, recipient := none, taskId := none
    wake := wake }

/-- The clock, new random ids, the live processes and runtimes, and the host's word. -/
structure TeamEnv where
  now : Nat
  uuid : Nat → String
  alive : Nat → Bool
  runtimes : String → Bool
  memberProblem : String → Option String
  memberAuthorized : TeamMember → Bool

def TeamEnv.record (env : TeamEnv) (n seq : Nat) (event : NewEvent) : TeamEvent :=
  { seq := seq, id := env.uuid n, type := event.type, sender := event.sender
    content := event.content, recipient := event.recipient, taskId := event.taskId
    «at» := env.now, wake := event.wake }

def append (env : TeamEnv) (n : Nat) (event : NewEvent) (state : TeamState) : TeamState :=
  { state with
    nextSeq := state.nextSeq + 1
    events := state.events ++ [env.record n state.nextSeq event] }

def appendAll (env : TeamEnv) : Nat → List NewEvent → TeamState → TeamState
  | _, [], state => state
  | n, event :: events, state => appendAll env (n + 1) events (append env n event state)
end Rolebox.Team
