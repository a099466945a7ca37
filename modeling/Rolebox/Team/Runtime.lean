import Rolebox.Team.Interface

/-! The operations of a team runtime, call by call. -/

namespace Rolebox.Team
open General Throwing

variable (self : TeamRuntime)

def TeamRuntime.sessionKey (sessionId : String) : SessionKey := (self.platformId, sessionId)

def TeamMember.hasError (member : TeamMember) : Bool := member.error.any nonempty

def readTeam (id : String) : TeamProgram TeamState := onStore self (.read id)

def listTeams : TeamProgram (List TeamState) := do
  let ids : List String ← onStore self .teamIds
  forAll ids (readTeam self)

def status (actor : Actor) (id : String) : TeamProgram TeamState := do
  let state ← readTeam self id
  let _ ← lift (memberOf state actor)
  lift (assertPlatform self.platformId state)
  return state

def assertRole (id : String) : TeamProgram Unit := do
  let roles : List String ← onHost self .roles
  if id ∈ roles then return ()
  else throw "Unknown top-level role. Use team_list_roles; private subroles cannot join a team"

def leaseDue (state : TeamState) (now : Nat) : Bool :=
  state.status = .active ∧ state.tasks.any fun task =>
    task.status = .claimed ∧ task.leaseUntil.any (· ≤ now) = true

def releaseSession (sessionId deliveryId : String) : TeamProgram Unit :=
  if deliveryId = "" then throw "Invalid team session lease identity"
  else onStore self (.releaseSession (self.sessionKey sessionId) deliveryId)

def isNamed (deliveryId : String) : TeamProgram Bool := do
  let teams ← listTeams self
  return teams.any fun team => team.members.any (holdsDelivery deliveryId)

def leaseTaken (lease : Option String) (deliveryId : String) : TeamProgram Bool :=
  match lease.filter (· ≠ deliveryId) with
  | none => pure false
  | some holder => isNamed self holder

def acquireSession (sessionId deliveryId : String) : TeamProgram Bool := do
  if deliveryId = "" then throw "Invalid team session lease identity"
  else
    let key := self.sessionKey sessionId
    let opened : Nat × Option String ← onStore self (.openLease key)
    recover (do
        let taken ← leaseTaken self opened.2 deliveryId
        if taken then do
          let _ : Unit ← onStore self (.closeLease opened.1)
          return false
        else do
          let _ : Unit ← onStore self (.commitLease opened.1 key deliveryId)
          return true)
      fun error => do
        let _ : Unit ← onStore self (.closeLease opened.1)
        throw error

def discard (id : String) (member : TeamMember) : TeamProgram Unit :=
  match member.delivery with
  | none => pure ()
  | some delivery => do
    let discarded : Bool ← onTeam self id (.discardDelivery member.id delivery.id)
    match member.boundSession with
    | some sessionId => if discarded then releaseSession self sessionId delivery.id else return ()
    | none => return ()

def fail (id memberId reason : String) (clearDelivery : Bool) : TeamProgram Unit := do
  let removing : Bool ← onSelf self (.isRemoving memberId)
  if removing then return ()
  else
    let released : Option (String × String) ← onTeam self id (.fail memberId reason clearDelivery)
    match released with
    | some (sessionId, deliveryId) => releaseSession self sessionId deliveryId
    | none => return ()

def create (actor : Actor) (name goal : String) (maxTurns : Nat) : TeamProgram TeamState := do
  assertRole self actor.agent
  if actor.sessionID = "" then throw "Team creation requires a host session identity"
  else
    let states ← listTeams self
    if states.any fun state => state.platformId = self.platformId ∧ state.status ≠ .deleted ∧
        state.members.any fun member => member.managed ∧ member.isActive ∧
          member.sessionId = some actor.sessionID then
      throw "Team members collaborate within their existing team; ask its creator to add another specialist"
    else if trim name = "" ∨ trim goal = "" ∨ 200 < (Graph.codeUnits name).length ∨
        16000 < (Graph.codeUnits goal).length then
      throw "Invalid team name or goal"
    else if maxTurns < 1 ∨ 100 < maxTurns then throw "max_turns must be between 1 and 100"
    else
      let state : TeamState ← onStore self (.create actor name goal maxTurns)
      let _ : Unit ← onSelf self (.setStatus actor.sessionID "busy")
      return state

def add (actor : Actor) (id roleId : String) : TeamProgram TeamMember := do
  assertRole self roleId
  onTeam self id (.add actor roleId)

def send (actor : Actor) (id : String) (input : SendTeamEvent) : TeamProgram TeamEvent :=
  if trim input.content = "" ∨ 16000 < (Graph.codeUnits input.content).length then
    throw "Event content must contain 1–16000 characters"
  else onTeam self id (.send actor input)

def forgetMember (member : Option TeamMember) : TeamProgram Unit :=
  match (member.filter TeamMember.managed).bind TeamMember.boundSession with
  | none => pure ()
  | some sessionId =>
    if self.forgets then recover (onHost self (.forget sessionId)) fun _ => pure () else pure ()

def abortTurn (member : TeamMember) (message : String) : TeamProgram Unit :=
  match member.delivery, member.boundSession with
  | some _, some sessionId => do
    let aborted : Bool ← onHost self (.abort sessionId)
    if aborted then return () else throw message
  | _, _ => pure ()

def remove (actor : Actor) (id memberId : String) : TeamProgram Unit := do
  let state ← status self actor id
  let _ ← lift (ownerOf state actor)
  if state.status = .deleted then throw "Team is deleted"
  else if (state.members.find? fun member => member.id = memberId ∧ member.isActive).any
      (·.managed) = false then
    throw "Only a managed member can be removed; use team_delete for the creator"
  else
    let token : String ← onTeam self id (.beginControl actor false)
    let _ : Unit ← onSelf self (.setRemoving memberId true)
    cleaningUp (do
        let pending ← readTeam self id
        let member ← lift (findMember pending memberId)
        abortTurn self member "Host did not confirm member cancellation; team remains paused"
        let _ : Unit ← onTeam self id (.removeMember memberId)
        let after ← readTeam self id
        forgetMember self (after.members.find? fun member => member.id = memberId))
      do
        let _ : Unit ← onSelf self (.setRemoving memberId false)
        onTeam self id (.endControl token)

def delete (actor : Actor) (id : String) : TeamProgram Unit := do
  let state ← status self actor id
  let _ ← lift (ownerOf state actor)
  if state.status = .deleted then return ()
  else
    let token : String ← onTeam self id (.beginControl actor false)
    cleaningUp (do
        let current ← readTeam self id
        forEach current.members fun member =>
          if member.managed then
            abortTurn self member "Host did not confirm cancellation; team remains paused"
          else pure ()
        let _ : Unit ← onTeam self id (.closeTeam actor)
        let after ← readTeam self id
        forEach (after.members.filter (·.managed)) fun member => forgetMember self (some member))
      (onTeam self id (.endControl token))

def idle (sessionId : String) : TeamProgram Bool := do
  if self.observesActivity then
    let activity : SessionActivity ← onHost self (.observeActivity sessionId)
    return activity = .idle
  else if self.canPollStatus then
    let type : Option String ← onHost self (.status sessionId)
    match type with
    | some type => do
      let _ : Unit ← onSelf self (.setStatus sessionId type)
      return type = "idle"
    | none => return false
  else
    let status : Option String ← onSelf self (.getStatus sessionId)
    return status = some "idle"

def activityOf (sessionId : String) : TeamProgram (Option SessionActivity) :=
  if self.observesActivity then do
    let activity : SessionActivity ← onHost self (.observeActivity sessionId)
    return some activity
  else return none

def isIdle (activity : Option SessionActivity) (sessionId : String) : TeamProgram Bool :=
  if activity = none then idle self sessionId else pure (activity = some .idle)

def isAbandoned (delivery : Option TeamDelivery) : TeamProgram Bool :=
  match delivery with
  | none => pure false
  | some delivery => onSelf self (.abandoned delivery)

def isInterrupted (activity : Option SessionActivity) (delivery : Option TeamDelivery) :
    TeamProgram Bool :=
  if activity = some .interrupted then pure true else isAbandoned self delivery

def interruptedMessage : String :=
  "Interrupted delivery has no confirmed final turn; inspect session history, " ++
    "then team_resume to replay pending events"

def recordTurnOf (id : String) (member : TeamMember) (sessionId : String) (last : Message) :
    TeamProgram Unit := do
  let _ : Unit ← onTeam self id (.recordTurn member.id (member.delivery.map TeamDelivery.id)
    last.info.id (failureReason last))
  match member.delivery with
  | none => return ()
  | some delivery =>
    let after ← readTeam self id
    if ((after.members.find? fun other => other.id = member.id).bind TeamMember.delivery).isNone then
      releaseSession self sessionId delivery.id
    else return ()

def reconcileSession (id : String) (member : TeamMember) (sessionId : String) :
    TeamProgram Unit := do
  let activity ← activityOf self sessionId
  if activity = some .running then return ()
  else
    let idle ← isIdle self activity sessionId
    let interrupted ← isInterrupted self activity member.delivery
    if idle = false ∧ interrupted = false then return ()
    else
      let messages : List Message ← onHost self (.messages sessionId)
      match (finalMessage messages).filter (unrecorded member messages) with
      | some last => recordTurnOf self id member sessionId last
      | none =>
        if interrupted ∧ member.hasError = false then fail self id member.id interruptedMessage false
        else return ()

def reconcile (id memberId : String) : TeamProgram Unit := do
  let state ← readTeam self id
  let removing : Bool ← onSelf self (.isRemoving memberId)
  if removing then return ()
  else
    let member ← lift (findMember state memberId)
    if member.managed = false ∧ member.delivery = none then return ()
    else
      let authorized : Bool ← onHost self (.memberAuthorized member)
      if authorized = false then fail self id memberId roleChangedMessage false
      else
        match member.boundSession with
        | none => do
          let abandoned ← isAbandoned self member.delivery
          if abandoned then
            fail self id memberId "Interrupted before session binding; resume to retry" true
          else return ()
        | some sessionId => reconcileSession self id member sessionId

def wakes (member : TeamMember) (event : TeamEvent) : Bool :=
  event.wake ∧ event.sender ≠ member.id ∧
    (event.recipient.filter nonempty).all (· = member.id) = true

def pendingOf (state : TeamState) (member : TeamMember) : List TeamEvent :=
  state.events.filter fun event => member.cursor < event.seq

def sessionOf (id : String) (member : TeamMember) (deliveryId : String) : TeamProgram String :=
  match member.boundSession with
  | some sessionId => pure sessionId
  | none => do
    let session : Option String ← onHost self (.createSession member.roleId)
    match session with
    | none => throw "Host could not create a team member session"
    | some sessionId => do
      let _ : Unit ← onTeam self id (.bindSession member.id deliveryId sessionId)
      return sessionId

def promptOf (state current : TeamState) (member target : TeamMember) (pending : List TeamEvent)
    (deliveryId sessionId : String) : TeamPrompt :=
  { sessionId := sessionId, agent := member.roleId, deliveryId := deliveryId, teamId := state.id
    memberId := member.id, goal := state.goal
    roster := current.activeMembers.map fun member => (member.id, member.roleId)
    tasks := current.tasks
    throughSeq := (target.delivery.map TeamDelivery.throughSeq).getD 0
    events := pending }

def promptDelivery (id : String) (member : TeamMember) (prompt : TeamPrompt) : TeamProgram Unit := do
  let _ : Unit ← onSelf self (.setStatus prompt.sessionId "busy")
  let _ : Unit ← onHost self (.sendPrompt prompt)
  let response : Option String ← onHost self (.promptAnswer prompt.deliveryId)
  match response with
  | none => throw "Host did not confirm event delivery; cursor retained, team paused"
  | some promptId =>
    let _ : Unit ← onTeam self id (.confirmPrompt member.id prompt.deliveryId promptId)
    let after ← readTeam self id
    let afterMember ← lift (findMember after member.id)
    if member.managed ∧ (afterMember.delivery = none ∨
        holdsDelivery prompt.deliveryId afterMember) ∧
        (after.status ≠ .active ∨ afterMember.status ≠ .active) then
      let _ : Bool ← onHost self (.abort prompt.sessionId)
      return ()
    else return ()

def sendDelivery (id : String) (state : TeamState) (member : TeamMember)
    (pending : List TeamEvent) (deliveryId : String) : TeamProgram Unit := do
  let sessionId ← sessionOf self id member deliveryId
  let current ← readTeam self id
  let target ← lift (findMember current member.id)
  let stopped : Bool ← onSelf self .isStopped
  if stopped ∨ current.status ≠ .active ∨ target.status ≠ .active ∨
      holdsDelivery deliveryId target = false then return ()
  else
    let acquired ← acquireSession self sessionId deliveryId
    if acquired then
      promptDelivery self id member (promptOf state current member target pending deliveryId sessionId)
    else onTeam self id (.withdraw member.id deliveryId)

def isFree (member : TeamMember) : TeamProgram Bool :=
  match member.boundSession with
  | some sessionId => idle self sessionId
  | none => pure true

def baselineOf (member : TeamMember) : TeamProgram (List Message) :=
  match member.boundSession with
  | some sessionId => onHost self (.messages sessionId)
  | none => pure []

def deliver (id memberId : String) : TeamProgram Unit := do
  let state ← readTeam self id
  let member ← lift (findMember state memberId)
  if member.delivery.isSome ∨ member.hasError ∨ member.status ≠ .active then return ()
  else
    let pending := pendingOf state member
    if pending.any (wakes member) = false then return ()
    else
      let free ← isFree self member
      if free = false then return ()
      else
        assertRole self member.roleId
        let baseline ← baselineOf self member
        let deliveryId : String ← onSelf self .randomUUID
        let reserved : Bool ← onTeam self id (.reserve member.id member.cursor pending deliveryId
          (baseline.map (·.info.id)))
        if reserved then sendDelivery self id state member pending deliveryId else return ()

def pumpMember (id : String) (member : TeamMember) : TeamProgram Bool := do
  let stopped : Bool ← onSelf self .isStopped
  if stopped then return false
  else
    recover (do
        reconcile self id member.id
        let current ← readTeam self id
        if current.status = .active then deliver self id member.id else return ())
      fun error => fail self id member.id error false
    return true

def expireDue (state : TeamState) : TeamProgram Unit := do
  let now : Nat ← onSelf self .clock
  if leaseDue state now then onTeam self state.id .expireLeases else return ()

def pumpTeam (state : TeamState) : TeamProgram Bool := do
  let stopped : Bool ← onSelf self .isStopped
  if stopped then return false
  else if state.platformId ≠ self.platformId then return true
  else
    forEach (state.members.filter fun member => member.status = .removed ∨ state.status = .deleted)
      fun member => forgetMember self (some member)
    if state.status = .deleted then return true
    else
      expireDue self state
      forWhile state.activeMembers (pumpMember self state.id)

def pump : TeamProgram Unit := do
  let states ← listTeams self
  let _ ← forWhile states (pumpTeam self)
  return ()

/-- One pump of a runtime runs at a time. -/
def tick : TeamProgram Unit := do
  let stopped : Bool ← onSelf self .isStopped
  if stopped then return ()
  else
    let pumping : Bool ← onSelf self .isPumping
    if pumping then return ()
    else
      let _ : Unit ← onSelf self (.setPumping true)
      cleaningUp (pump self) (onSelf self (.setPumping false))

inductive HostEvent where
  | idle (sessionId : String)
  | status (sessionId : String) (type : Option String)
  | error (sessionId : String)
  | deleted (sessionId : String)
  | other (sessionId : String)

def failSession (sessionId reason : String) : TeamProgram Unit := do
  let states ← listTeams self
  forEach states fun state =>
    if state.platformId ≠ self.platformId ∨ state.status = .deleted then pure ()
    else
      match state.members.find? fun member => member.sessionId = some sessionId ∧ member.isActive with
      | some member => fail self state.id member.id reason true
      | none => pure ()

def handleEvent (event : HostEvent) : TeamProgram Unit := do
  let stopped : Bool ← onSelf self .isStopped
  if stopped then return ()
  else
    match event with
    | .error sessionId => failSession self sessionId "Member session failed or was stopped"
    | .deleted sessionId => failSession self sessionId "Member session was deleted"
    | .idle sessionId => do
      let _ : Unit ← onSelf self (.setStatus sessionId "idle")
      tick self
    | .status sessionId (some type) => do
      let _ : Unit ← onSelf self (.setStatus sessionId type)
      tick self
    | _ => tick self

def peerActivity (member : TeamMember) (sessionId : String) :
    TeamProgram (Option SessionActivity) :=
  if member.hasError then pure none else activityOf self sessionId

def restoreSession (member : TeamMember) (sessionId : String) : TeamProgram Bool :=
  if self.preparesResume then onHost self (.prepareResume sessionId member.roleId) else pure true

def prepareMember (member : TeamMember) : TeamProgram Unit :=
  match member.boundSession with
  | none => pure ()
  | some sessionId =>
    if member.status ≠ .active ∨ member.managed = false then pure ()
    else do
      let authorized : Bool ← onHost self (.memberAuthorized member)
      if authorized = false then throw roleChangedMessage
      else
        let activity ← peerActivity self member sessionId
        if activity = some .running then return ()
        else
          let prepared ← restoreSession self member sessionId
          if prepared = false then
            throw "Host could not restore the member session; team remains paused"
          else
            let authorized : Bool ← onHost self (.memberAuthorized member)
            if authorized then return () else throw roleChangedMessage

def stillRunning (member : TeamMember) (delivery : TeamDelivery) : TeamProgram Bool :=
  match member.boundSession with
  | none => pure false
  | some sessionId =>
    if member.hasError ∨ delivery.promptId.any nonempty = false then pure false
    else do
      let activity ← activityOf self sessionId
      return activity = some .running

def confirmsStop (member : TeamMember) (sessionId : String) : TeamProgram Bool :=
  if member.managed then onHost self (.abort sessionId) else pure false

/-- A delivery goes on, and is answered, or is given up once its turn is known to have stopped. -/
def settleDelivery (actor : Actor) (id : String) (member : TeamMember) :
    TeamProgram (Option String) :=
  match member.delivery with
  | none => pure none
  | some delivery =>
    if member.managed ∧ member.sessionId = some actor.sessionID then
      if delivery.promptId.any nonempty = false then
        throw ("The caller's delivery is unconfirmed; " ++
          "another team member must reconcile it after this turn ends")
      else pure (some delivery.id)
    else do
      let running ← stillRunning self member delivery
      if running then return some delivery.id
      else if member.managed = false ∧ member.sessionId = some actor.sessionID then do
        discard self id member
        return none
      else
        match member.boundSession with
        | none => do
          let abandoned : Bool ← onSelf self (.abandoned delivery)
          if abandoned then do
            discard self id member
            return none
          else
            throw "Host has not confirmed the interrupted delivery stopped; team remains paused"
        | some sessionId => do
          let stopped ← confirmsStop self member sessionId
          if stopped = false then
            throw "Host has not confirmed the interrupted delivery stopped; team remains paused"
          else
            discard self id member
            let _ : Unit ← onSelf self (.setStatus sessionId "idle")
            return none

def resume (actor : Actor) (id : String) : TeamProgram (List String) := do
  let before ← status self actor id
  if before.status ≠ .paused then throw "Only a paused team can resume"
  else
    let token : String ← onTeam self id (.beginControl actor true)
    cleaningUp (do
        let prepared ← readTeam self id
        forEach prepared.members (prepareMember self)
        let reconciled ← readTeam self id
        forEach reconciled.members fun member =>
          if member.status ≠ .active ∨ (member.managed = false ∧ member.delivery = none) then pure ()
          else reconcile self id member.id
        let settled ← readTeam self id
        let continuing ← forAll settled.members (settleDelivery self actor id)
        onTeam self id (.finishResume actor (continuing.filterMap fun kept => kept)))
      (onTeam self id (.endControl token))

inductive TeamOperation where
  | create (actor : Actor) (name goal : String) (maxTurns : Nat)
  | add (actor : Actor) (id roleId : String)
  | send (actor : Actor) (id : String) (input : SendTeamEvent)
  | remove (actor : Actor) (id memberId : String)
  | delete (actor : Actor) (id : String)
  | resume (actor : Actor) (id : String)
  | tick
  | handleEvent (event : HostEvent)

def TeamOperation.run : TeamOperation → TeamProgram Unit
  | .create actor name goal maxTurns => Team.create self actor name goal maxTurns >>= fun _ => pure ()
  | .add actor id roleId => Team.add self actor id roleId >>= fun _ => pure ()
  | .send actor id input => Team.send self actor id input >>= fun _ => pure ()
  | .remove actor id memberId => Team.remove self actor id memberId
  | .delete actor id => Team.delete self actor id
  | .resume actor id => Team.resume self actor id >>= fun _ => pure ()
  | .tick => Team.tick self
  | .handleEvent event => Team.handleEvent self event
end Rolebox.Team
