import Rolebox.General.AmbientCell
import Rolebox.Graph.StateModel

/-! The one holder of the invocation the host attributes operations to, around their awaits. -/

namespace Rolebox.Host
open General Rolebox.Graph

def nonEmptyString (value : Option String) : Option String := value.filter fun text => text ≠ ""

def hostInvocationIdentity (sessionId agentId : Option String) : Option HostInvocationIdentity := do
  let sessionId ← nonEmptyString sessionId
  let agentId ← nonEmptyString agentId
  pure { sessionId := sessionId, agentId := agentId }

structure OutcomeHostInvocation where
  sessionId : Option String
  agent : Option String

structure InvocationOrigin where
  sessionId : String
  agent : Option String

structure AttemptRef where
  graphId : String
  attemptId : String
  deriving DecidableEq

def hostIdentityCheckRefusal (recorded reading : Option HostInvocationIdentity) : Bool :=
  match recorded with
  | none => false
  | some identity => reading ≠ some identity

/-- One reading of the attribution, beside the one of the call or graph that caused it. -/
inductive Use where
  | armed (own identity : Option HostInvocationIdentity)
  | checked (own identity recorded : Option HostInvocationIdentity) (refused : Bool)
  | scoped (own session : Option String)

inductive CompletionPhase where
  | opening
  | returning
  deriving DecidableEq

/-- One call of `complete`: what it found in the holder, and the finished attempt that called it. -/
structure Completion where
  attempt : AttemptRef
  identity : Option HostInvocationIdentity
  previous : AmbientCell Nat HostInvocationIdentity
  caller : Option Nat
  phase : CompletionPhase

inductive FinishedPhase where
  | opening
  | completing
  | completed
  | returning
  deriving DecidableEq

structure FinishedAttempt where
  attempt : AttemptRef
  identity : Option HostInvocationIdentity
  previous : AmbientCell Nat HostInvocationIdentity
  phase : FinishedPhase

structure GraphStart where
  graphId : String
  invocation : OutcomeHostInvocation
  primed : Bool

inductive Operation where
  | tool (identity : Option HostInvocationIdentity) (session : Option String)
  | complete (completion : Completion)
  | finished (attempt : FinishedAttempt)
  | start (start : GraphStart)

def Operation.identity : Operation → Option HostInvocationIdentity
  | .tool identity _ => identity
  | .complete completion => completion.identity
  | .finished attempt => attempt.identity
  | .start _ => none

def Operation.session : Operation → Option String
  | .tool _ session => session
  | _ => none

/-- What an operation found in the holder and puts back. -/
def Operation.previous : Operation → Option (AmbientCell Nat HostInvocationIdentity)
  | .complete completion => some completion.previous
  | .finished attempt => some attempt.previous
  | _ => none

/-- The two holders, the records an attribution goes through, and the operations in flight. -/
structure AttributionHost where
  holder : AmbientCell Nat HostInvocationIdentity
  workerSession : AmbientCell Nat String
  origins : String → Option InvocationOrigin
  bindings : AttemptRef → Option (Option HostInvocationIdentity)
  dispatchIdentities : AttemptRef → Option HostInvocationIdentity
  operations : Nat → Option Operation
  nextOperation : Nat
  uses : List Use

section Operations
variable (s : AttributionHost)

def AttributionHost.withOperation (i : Nat) (operation : Option Operation) : AttributionHost :=
  { s with operations := Function.update s.operations i operation }

/-- A new operation takes the next number. -/
def AttributionHost.enter (operation : Operation) : AttributionHost :=
  { s.withOperation s.nextOperation (some operation) with nextOperation := s.nextOperation + 1 }

def AttributionHost.use (use : Use) : AttributionHost := { s with uses := s.uses ++ [use] }

/-- Hand a dispatch to the platform: its completion binding records the invocation in effect. -/
def deliver (own : Option HostInvocationIdentity) (attempt : AttemptRef) : AttributionHost :=
  { s with
    bindings := Function.update s.bindings attempt (some s.holder.value)
    uses := s.uses ++ [.armed own s.holder.value] }

def arm (own : Option HostInvocationIdentity) (s : AttributionHost) (attempt : AttemptRef) :
    AttributionHost :=
  deliver
    { s with
      dispatchIdentities := Function.update s.dispatchIdentities attempt s.holder.value } own attempt

/-- A settlement: the check against what the attempt recorded, and the successors it arms. -/
def settle (own : Option HostInvocationIdentity) (attempt : AttemptRef)
    (successors : List AttemptRef) : AttributionHost :=
  let recorded := s.dispatchIdentities attempt
  let refused := hostIdentityCheckRefusal recorded s.holder.value
  let checked := s.use (.checked own s.holder.value recorded refused)
  if refused then checked else successors.foldl (arm own) checked

def settleReached (own : Option HostInvocationIdentity) (attempt : AttemptRef) :
    Option (List AttemptRef) → AttributionHost
  | none => s
  | some successors => settle s own attempt successors

/-- What a tool body reads while it runs: the invocation, or the session. -/
inductive ToolUse where
  | deliver (attempt : AttemptRef)
  | session
  deriving DecidableEq

def toolUse (identity : Option HostInvocationIdentity) (session : Option String)
    (s : AttributionHost) : ToolUse → AttributionHost
  | .deliver attempt => deliver s identity attempt
  | .session => s.use (.scoped session s.workerSession.value)

def originIdentityOf (graphId : String) : Option HostInvocationIdentity :=
  (s.origins graphId).bind fun origin => hostInvocationIdentity (some origin.sessionId) origin.agent

def dispatchIdentityOf (attempt : AttemptRef) : Option HostInvocationIdentity :=
  (s.bindings attempt).join.or (originIdentityOf s attempt.graphId)

/-- Nothing is put in effect for an attempt without an identity. -/
def attributed (i : Nat) (identity : Option HostInvocationIdentity) :
    AmbientCell Nat HostInvocationIdentity :=
  if identity.isSome then .put i identity else s.holder

def complete (attempt : AttemptRef) (delivered : Bool) (caller : Option Nat) : AttributionHost :=
  let identity := dispatchIdentityOf s attempt
  let bound := (s.bindings attempt).isSome || delivered
  { s.enter (.complete
      { attempt := attempt
        identity := identity
        previous := s.holder
        caller := caller
        phase := if bound then .opening else .returning }) with
    holder := attributed s s.nextOperation identity }

def settleFinishedAttempt (attempt : AttemptRef) : AttributionHost :=
  let identity := dispatchIdentityOf s attempt
  { s.enter (.finished
      { attempt := attempt
        identity := identity
        previous := s.holder
        phase := .opening }) with
    holder := attributed s s.nextOperation identity }

def rememberOrigin (graphId : String) (invocation : OutcomeHostInvocation) : AttributionHost :=
  match nonEmptyString invocation.sessionId with
  | none => s
  | some sessionId =>
    { s with
      origins := Function.update s.origins graphId
        (some { sessionId := sessionId, agent := nonEmptyString invocation.agent }) }

/-- The dispatch window of a start, which clears the holder when it is over. -/
def resume (i : Nat) (invocation : OutcomeHostInvocation) (arms : List AttemptRef) :
    AttributionHost :=
  let identity := hostInvocationIdentity invocation.sessionId invocation.agent
  let armed := arms.foldl (arm identity) { s with holder := .put i identity }
  { armed.withOperation i none with holder := .clear }

end Operations

section Events

structure ToolContext where
  sessionID : Option String
  agent : Option String

def callAgent (getEffectiveAgent : Option String → String) (context : ToolContext) : String :=
  (nonEmptyString context.agent).getD (getEffectiveAgent context.sessionID)

/-- How far a start gets: it fails, an order is honoured, or the platform is asked first. -/
inductive StartReading where
  | failed
  | owed (arms : List AttemptRef)
  | primes

/-- One synchronous stretch of one operation, with what stores and platforms answer in it. -/
inductive AttributionEvent where
  | callTool (context : ToolContext) (refused : Bool) (uses : List ToolUse)
  | toolGoesOn (i : Nat) (uses : List ToolUse)
  | toolReturns (i : Nat)
  | complete (attempt : AttemptRef) (delivered : Bool)
  | completionGoesOn (i : Nat) (settles : Option (List AttemptRef))
  | completionReturns (i : Nat)
  | settleFinished (attempt : AttemptRef)
  | finishedOpened (i : Nat) (asks delivered : Bool)
  | derive (i : Nat) (settles : Option (List AttemptRef))
  | finishedReturns (i : Nat)
  | start (graphId : String) (invocation : OutcomeHostInvocation)
  | startOpened (i : Nat) (reading : StartReading)
  | startResumes (i : Nat) (arms : List AttemptRef)

variable (getEffectiveAgent : Option String → String) (s : AttributionHost)

def callTool (context : ToolContext) (refused : Bool) (uses : List ToolUse) : AttributionHost :=
  let identity := hostInvocationIdentity context.sessionID
    (some (callAgent getEffectiveAgent context))
  let session := nonEmptyString context.sessionID
  if refused then { s with holder := .clear, workerSession := .clear }
  else
    uses.foldl (toolUse identity session)
      { s.enter (.tool identity session) with
        holder := .put s.nextOperation identity
        workerSession := .put s.nextOperation session }

def completionGoesOn (i : Nat) (completion : Completion) (settles : Option (List AttemptRef)) :
    AttributionHost :=
  (settleReached s completion.identity completion.attempt settles).withOperation i (some (.complete { completion with phase := .returning }))

def returnTo (caller : Option Nat) : AttributionHost :=
  match caller with
  | none => s
  | some i =>
    match s.operations i with
    | some (.finished attempt) =>
      s.withOperation i (some (.finished { attempt with phase := .completed }))
    | _ => s

def completionReturns (i : Nat) (completion : Completion) : AttributionHost :=
  returnTo { s.withOperation i none with holder := completion.previous.restored } completion.caller

def finishedOpened (i : Nat) (attempt : FinishedAttempt) (asks delivered : Bool) :
    AttributionHost :=
  if asks then
    complete (s.withOperation i (some (.finished { attempt with phase := .completing })))
      attempt.attempt delivered (some i)
  else s.withOperation i (some (.finished { attempt with phase := .returning }))

def derive (i : Nat) (attempt : FinishedAttempt) (settles : Option (List AttemptRef)) :
    AttributionHost :=
  (settleReached s attempt.identity attempt.attempt settles).withOperation i (some (.finished { attempt with phase := .returning }))

def finishedReturns (i : Nat) (attempt : FinishedAttempt) : AttributionHost :=
  { s.withOperation i none with holder := attempt.previous.restored }

def startOpened (i : Nat) (start : GraphStart) : StartReading → AttributionHost
  | .failed => s.withOperation i none
  | .owed arms => resume (rememberOrigin s start.graphId start.invocation) i start.invocation arms
  | .primes =>
    (rememberOrigin s start.graphId start.invocation).withOperation i
      (some (.start { start with primed := true }))

def next : AttributionEvent → Option AttributionHost
  | .callTool context refused uses => some (callTool getEffectiveAgent s context refused uses)
  | .toolGoesOn i uses =>
    match s.operations i with
    | some (.tool identity session) => some (uses.foldl (toolUse identity session) s)
    | _ => none
  | .toolReturns i =>
    match s.operations i with
    | some (.tool _ _) =>
      some { s.withOperation i none with holder := .clear, workerSession := .clear }
    | _ => none
  | .complete attempt delivered => some (complete s attempt delivered none)
  | .completionGoesOn i settles =>
    match s.operations i with
    | some (.complete completion) =>
      if completion.phase = .opening then some (completionGoesOn s i completion settles) else none
    | _ => none
  | .completionReturns i =>
    match s.operations i with
    | some (.complete completion) =>
      if completion.phase = .returning then some (completionReturns s i completion) else none
    | _ => none
  | .settleFinished attempt => some (settleFinishedAttempt s attempt)
  | .finishedOpened i asks delivered =>
    match s.operations i with
    | some (.finished attempt) =>
      if attempt.phase = .opening then some (finishedOpened s i attempt asks delivered) else none
    | _ => none
  | .derive i settles =>
    match s.operations i with
    | some (.finished attempt) =>
      if attempt.phase = .completed then some (derive s i attempt settles) else none
    | _ => none
  | .finishedReturns i =>
    match s.operations i with
    | some (.finished attempt) =>
      if attempt.phase = .returning then some (finishedReturns s i attempt) else none
    | _ => none
  | .start graphId invocation =>
    some (s.enter (.start { graphId := graphId, invocation := invocation, primed := false }))
  | .startOpened i reading =>
    match s.operations i with
    | some (.start start) => if start.primed then none else some (startOpened s i start reading)
    | _ => none
  | .startResumes i arms =>
    match s.operations i with
    | some (.start start) => if start.primed then some (resume s i start.invocation arms) else none
    | _ => none

end Events
end Rolebox.Host
