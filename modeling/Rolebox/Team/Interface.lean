import Rolebox.General.Throwing
import Rolebox.Team.Transcript

/-! The calls a team runtime makes: on the team store, on its own variables and on the host. -/

namespace Rolebox.Team
open General

structure TeamRuntime where
  ref : RuntimeRef
  platformId : String
  canPollStatus : Bool
  observesActivity : Bool
  preparesResume : Bool
  forgets : Bool

abbrev SessionKey := String × String

/-- The calls of the store; a lease transaction is known by its number. -/
inductive StoreOp where
  | teamIds
  | read (id : String)
  | update (id : String) (u : TeamUpdate)
  | create (actor : Actor) (name goal : String) (maxTurns : Nat)
  | openLease (key : SessionKey)
  | commitLease (transaction : Nat) (key : SessionKey) (deliveryId : String)
  | closeLease (transaction : Nat)
  | releaseSession (key : SessionKey) (deliveryId : String)

def StoreOp.Result : StoreOp → Type
  | teamIds => List String
  | read _ => TeamState
  | update _ u => u.Result
  | create .. => TeamState
  | openLease _ => Nat × Option String
  | _ => Unit

/-- The variables of a runtime and of its process. -/
inductive OwnOp where
  | isStopped
  | isPumping
  | setPumping (pumping : Bool)
  | isRemoving (memberId : String)
  | setRemoving (memberId : String) (removing : Bool)
  | getStatus (sessionId : String)
  | setStatus (sessionId status : String)
  | abandoned (delivery : TeamDelivery)
  | clock
  | randomUUID

def OwnOp.Result : OwnOp → Type
  | isStopped => Bool
  | isPumping => Bool
  | isRemoving _ => Bool
  | getStatus _ => Option String
  | abandoned _ => Bool
  | clock => Nat
  | randomUUID => String
  | _ => Unit

inductive SessionActivity where
  | running
  | idle
  | interrupted
  | unknown
  deriving DecidableEq

structure TeamPrompt where
  sessionId : String
  agent : String
  deliveryId : String
  teamId : String
  memberId : String
  goal : String
  roster : List (String × String)
  tasks : List TeamTask
  throughSeq : Nat
  events : List TeamEvent

/-- A prompt is sent in one step and answered, or given up on, in a later one. -/
inductive HostOp where
  | roles
  | memberAuthorized (member : TeamMember)
  | observeActivity (sessionId : String)
  | status (sessionId : String)
  | messages (sessionId : String)
  | abort (sessionId : String)
  | prepareResume (sessionId agent : String)
  | forget (sessionId : String)
  | createSession (agent : String)
  | sendPrompt (prompt : TeamPrompt)
  | promptAnswer (deliveryId : String)

def HostOp.Result : HostOp → Type
  | roles => List String
  | memberAuthorized _ => Bool
  | observeActivity _ => SessionActivity
  | status _ => Option String
  | messages _ => List Message
  | abort _ => Bool
  | prepareResume .. => Bool
  | createSession _ => Option String
  | promptAnswer _ => Option String
  | _ => Unit

inductive TeamOp where
  | store (op : StoreOp)
  | own (op : OwnOp)
  | host (op : HostOp)

def TeamOp.Result : TeamOp → Type
  | store op => op.Result
  | own op => op.Result
  | host op => op.Result

section Programs

structure TeamCall where
  self : TeamRuntime
  op : TeamOp

def teamInterface : Interface where
  Call := TeamCall
  Answer call := Except String call.op.Result

abbrev TeamProgram (α : Type) := Throwing teamInterface String α

abbrev TeamExchange := Exchange teamInterface

variable (self : TeamRuntime)

def onStore (op : StoreOp) : TeamProgram op.Result :=
  @Throwing.ask teamInterface String _ { self := self, op := .store op } rfl

def onSelf (op : OwnOp) : TeamProgram op.Result :=
  @Throwing.ask teamInterface String _ { self := self, op := .own op } rfl

def onHost (op : HostOp) : TeamProgram op.Result :=
  @Throwing.ask teamInterface String _ { self := self, op := .host op } rfl

def onTeam (id : String) (u : TeamUpdate) : TeamProgram u.Result := onStore self (.update id u)

end Programs

def storeExchange (self : TeamRuntime) (op : StoreOp) (result : op.Result) : TeamExchange :=
  ⟨({ self := self, op := .store op } : TeamCall), (.ok result : Except String op.Result)⟩

def ownExchange (self : TeamRuntime) (op : OwnOp) (result : op.Result) : TeamExchange :=
  ⟨({ self := self, op := .own op } : TeamCall), (.ok result : Except String op.Result)⟩

def hostExchange (self : TeamRuntime) (op : HostOp) (result : op.Result) : TeamExchange :=
  ⟨({ self := self, op := .host op } : TeamCall), (.ok result : Except String op.Result)⟩

def updateExchange (self : TeamRuntime) (id : String) (u : TeamUpdate) (result : u.Result) :
    TeamExchange :=
  storeExchange self (.update id u) result

def readExchange (self : TeamRuntime) (id : String) (state : TeamState) : TeamExchange :=
  storeExchange self (.read id) state
end Rolebox.Team
