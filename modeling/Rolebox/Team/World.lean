import Rolebox.Team.Changes
import Rolebox.Team.Runtime

/-! The world the runtimes share: documents, leases, runtimes and what hosts were prompted. -/

namespace Rolebox.Team
open General List

/-- New random ids, by the call that draws them and the place in it. -/
structure FreshIds where
  uuid : Nat → Nat → String
  fresh : ∀ n k n' k', uuid n k = uuid n' k' → n = n' ∧ k = k'

/-- The call in unary, a mark, and the place in unary. -/
def FreshIds.counted : FreshIds where
  uuid n k := String.ofList (replicate n 'c' ++ 'i' :: replicate k 'c')
  fresh n k n' k' h := by
    have hlist := String.ofList_injective h
    have hn := congrArg (fun l => (l.takeWhile (· = 'c')).length) hlist
    simp only [takeWhile_append, takeWhile_replicate] at hn
    simp at hn
    subst hn
    have hk := congrArg length (append_cancel_left hlist)
    simp only [length_cons, length_replicate] at hk
    exact ⟨rfl, Nat.succ.inj hk⟩

/-- The databases of a team directory; `acquired` records every lease there was. -/
structure TeamStores where
  teams : List TeamState
  leases : List (SessionKey × String)
  scheduler : Option (RuntimeRef × Nat)
  acquired : List (SessionKey × String)

/-- `live` runtimes are made and not lost; a delivery is settled once ended or stopped. -/
structure TeamWorld where
  calls : Nat
  stores : TeamStores
  live : List RuntimeRef
  gone : List RuntimeRef
  stopped : List RuntimeRef
  pumping : List RuntimeRef
  removing : List (RuntimeRef × String)
  statuses : List ((RuntimeRef × String) × String)
  prompted : List String
  settled : List String

def TeamStores.empty : TeamStores := { teams := [], leases := [], scheduler := none, acquired := [] }

def TeamWorld.initial : TeamWorld :=
  { calls := 0, stores := .empty, live := [], gone := [], stopped := [], pumping := []
    removing := [], statuses := [], prompted := [], settled := [] }

/-- The clock, the runtimes known, the order of teams, a failure, and the host's answers. -/
structure Moment where
  now : Nat
  listing : List String
  alive : Nat → Bool
  runtimes : String → Bool
  memberProblem : String → Option String
  memberAuthorized : TeamMember → Bool
  storeFailure : Option String
  host : (op : HostOp) → Except String op.Result

def Moment.agrees (moment : Moment) (world : TeamWorld) (self : RuntimeRef) : Bool :=
  world.live.all fun other =>
    moment.alive other.pid && (decide (other.pid ≠ self.pid) || moment.runtimes other.ownerId)

def Moment.env (moment : Moment) (uuid : Nat → String) : TeamEnv :=
  { now := moment.now, uuid := uuid, alive := moment.alive, runtimes := moment.runtimes
    memberProblem := moment.memberProblem, memberAuthorized := moment.memberAuthorized }

section Stores
variable (self : TeamRuntime) (env : TeamEnv)

def readState (stores : TeamStores) (id : String) : Except String TeamState :=
  match stores.teams.find? fun team => team.id = id with
  | some team => parseState team id
  | none => .error "Team was not found"

def TeamStores.replace (stores : TeamStores) (id : String) (team : TeamState) : TeamStores :=
  { stores with teams := stores.teams.map fun other => if other.id = id then team else other }

def createTeam (actor : Actor) (name goal : String) (maxTurns : Nat) (stores : TeamStores) :
    Except String (TeamState × TeamStores) := do
  let team := newTeam self.platformId env actor name goal maxTurns
  let encoded ← parseState team team.id
  refuseIf (∃ other ∈ stores.teams, other.id = team.id) "Team already exists"
  return (encoded, { stores with teams := stores.teams ++ [encoded] })

def updateTeam (id : String) (u : TeamUpdate) (stores : TeamStores) :
    Except String (u.Result × TeamStores) := do
  let team ← readState stores id
  let (result, changed) ← update self.ref self.platformId env id u team
  return (result, stores.replace id changed)

def lockedMessage : String := "database is locked"

def openLease (number : Nat) (key : SessionKey) (stores : TeamStores) :
    Except String ((Nat × Option String) × TeamStores) := do
  refuseIf (stores.scheduler ≠ none) lockedMessage
  return ((number, stores.leases.lookup key), { stores with scheduler := some (self.ref, number) })

def notLockedMessage : String := "cannot commit - no transaction is active"

def commitLease (transaction : Nat) (key : SessionKey) (deliveryId : String)
    (stores : TeamStores) : Except String (Unit × TeamStores) := do
  refuseIf (stores.scheduler ≠ some (self.ref, transaction)) notLockedMessage
  return ((), { stores with
    leases := (key, deliveryId) :: stores.leases.filter fun lease => lease.1 ≠ key
    scheduler := none
    acquired := stores.acquired ++ [(key, deliveryId)] })

def closeLease (transaction : Nat) (stores : TeamStores) : Except String (Unit × TeamStores) := do
  refuseIf (stores.scheduler ≠ some (self.ref, transaction)) notLockedMessage
  return ((), { stores with scheduler := none })

def dropLease (key : SessionKey) (deliveryId : String) (stores : TeamStores) :
    Except String (Unit × TeamStores) := do
  refuseIf (stores.scheduler ≠ none) lockedMessage
  return ((), { stores with leases := stores.leases.filter fun lease => lease ≠ (key, deliveryId) })

def listTeamIds (listing : List String) (stores : TeamStores) :
    Except String (List String × TeamStores) := do
  refuseIf (listing.isPerm (stores.teams.map TeamState.id) = false) "Team directory could not be listed"
  return (listing, stores)

def answerStore (number : Nat) (listing : List String) :
    (op : StoreOp) → TeamStores → Except String (op.Result × TeamStores)
  | .teamIds, stores => listTeamIds listing stores
  | .read id, stores => (readState stores id).map (·, stores)
  | .update id u, stores => updateTeam self env id u stores
  | .create actor name goal maxTurns, stores => createTeam self env actor name goal maxTurns stores
  | .openLease key, stores => openLease self number key stores
  | .commitLease transaction key deliveryId, stores =>
    commitLease self transaction key deliveryId stores
  | .closeLease transaction, stores => closeLease self transaction stores
  | .releaseSession key deliveryId, stores => dropLease key deliveryId stores

section Specs
variable {self : TeamRuntime} {stores stores' : TeamStores} {key : SessionKey}
  {deliveryId : String} {transaction : Nat}

theorem openLease_ok {opened : Nat × Option String} {number : Nat}
    (h : openLease self number key stores = .ok (opened, stores')) :
    stores.scheduler = none ∧ opened = (number, stores.leases.lookup key) ∧
      stores' = { stores with scheduler := some (self.ref, number) } := by
  unfold openLease at h
  simp only [bind_eq_ok, refuseIf_ok, pure, Except.pure, Except.ok.injEq, Prod.mk.injEq] at h
  obtain ⟨_, hfree, rfl, rfl⟩ := h
  exact ⟨not_not.1 hfree, rfl, rfl⟩

theorem listTeamIds_ok {listing ids : List String}
    (h : listTeamIds listing stores = .ok (ids, stores')) :
    ids.Perm (stores.teams.map TeamState.id) ∧ stores' = stores := by
  unfold listTeamIds at h
  simp only [bind_eq_ok, refuseIf_ok, pure, Except.pure, Except.ok.injEq, Prod.mk.injEq] at h
  obtain ⟨_, hperm, rfl, rfl⟩ := h
  exact ⟨isPerm_iff.1 (Bool.not_eq_false _ ▸ hperm), rfl⟩

theorem commitLease_ok {u : Unit}
    (h : commitLease self transaction key deliveryId stores = .ok (u, stores')) :
    stores.scheduler = some (self.ref, transaction) ∧ stores' = { stores with
      leases := (key, deliveryId) :: stores.leases.filter fun lease => lease.1 ≠ key
      scheduler := none
      acquired := stores.acquired ++ [(key, deliveryId)] } := by
  unfold commitLease at h
  simp only [bind_eq_ok, refuseIf_ok, pure, Except.pure, Except.ok.injEq, Prod.mk.injEq] at h
  obtain ⟨_, hlock, -, rfl⟩ := h
  exact ⟨not_not.1 hlock, rfl⟩

theorem closeLease_ok {u : Unit} (h : closeLease self transaction stores = .ok (u, stores')) :
    stores' = { stores with scheduler := none } := by
  unfold closeLease at h
  simp only [bind_eq_ok, refuseIf_ok, pure, Except.pure, Except.ok.injEq, Prod.mk.injEq] at h
  obtain ⟨_, _, -, rfl⟩ := h
  rfl

theorem dropLease_ok {u : Unit} (h : dropLease key deliveryId stores = .ok (u, stores')) :
    stores.scheduler = none ∧ stores' = { stores with
      leases := stores.leases.filter fun lease => lease ≠ (key, deliveryId) } := by
  unfold dropLease at h
  simp only [bind_eq_ok, refuseIf_ok, pure, Except.pure, Except.ok.injEq, Prod.mk.injEq] at h
  obtain ⟨_, hfree, -, rfl⟩ := h
  exact ⟨not_not.1 hfree, rfl⟩

end Specs

end Stores

section Service
variable (ids : FreshIds)

def answerOwn (self : TeamRuntime) (moment : Moment) (world : TeamWorld) :
    (op : OwnOp) → op.Result × TeamWorld
  | .isStopped => (decide (self.ref ∈ world.stopped), world)
  | .isPumping => (decide (self.ref ∈ world.pumping), world)
  | .setPumping true => ((), { world with pumping := self.ref :: world.pumping })
  | .setPumping false => ((), { world with pumping := world.pumping.filter (· ≠ self.ref) })
  | .isRemoving memberId => (decide ((self.ref, memberId) ∈ world.removing), world)
  | .setRemoving memberId true =>
    ((), { world with removing := (self.ref, memberId) :: world.removing })
  | .setRemoving memberId false =>
    ((), { world with removing := world.removing.filter (· ≠ (self.ref, memberId)) })
  | .getStatus sessionId => (world.statuses.lookup (self.ref, sessionId), world)
  | .setStatus sessionId status =>
    ((), { world with statuses := ((self.ref, sessionId), status) :: world.statuses })
  | .abandoned delivery =>
    (!moment.alive delivery.ownerPid ||
      (decide (delivery.ownerPid = self.ref.pid) && !moment.runtimes delivery.ownerId), world)
  | .clock => (moment.now, world)
  | .randomUUID => (ids.uuid world.calls 0, world)

def TeamWorld.confirmStop (world : TeamWorld) (key : SessionKey) : TeamWorld :=
  { world with
    settled := world.settled ++
      (world.stores.acquired.filter fun lease => lease.1 = key).map Prod.snd }

/-- A host answers anything; a confirmed abort has stopped the session. -/
def answerHost (self : TeamRuntime) (moment : Moment) (world : TeamWorld) :
    (op : HostOp) → Option (Except String op.Result × TeamWorld)
  | .sendPrompt prompt =>
    if self.ref ∈ world.live then
      some (.ok (), { world with prompted := world.prompted ++ [prompt.deliveryId] })
    else none
  | .abort sessionId =>
    match moment.host (.abort sessionId) with
    | .ok true => some (.ok true, world.confirmStop (self.sessionKey sessionId))
    | answer => some (answer, world)
  | op => some (moment.host op, world)

/-- The store is closed to a runtime that is gone; a call of the store that fails changes nothing. -/
def answerCall (self : TeamRuntime) (moment : Moment) (world : TeamWorld) :
    (op : TeamOp) → Option (Except String op.Result × TeamWorld)
  | .store op =>
    if self.ref ∉ world.live then some (.error "Team store is closed", world)
    else
      match moment.storeFailure,
        answerStore self (moment.env (ids.uuid world.calls)) world.calls moment.listing op
          world.stores with
      | some failure, _ => some (.error failure, world)
      | none, .error failure => some (.error failure, world)
      | none, .ok (result, stores) => some (.ok result, { world with stores := stores })
  | .own op =>
    let (result, world) := answerOwn ids self moment world op
    some (.ok result, world)
  | .host op => answerHost self moment world op

def respond (world : TeamWorld) (call : TeamCall) (moment : Moment) :
    Option (Except String call.op.Result × TeamWorld) :=
  if moment.agrees world call.self.ref then
    (answerCall ids call.self moment world call.op).map fun (answer, after) =>
      (answer, { after with calls := after.calls + 1 })
  else none

/-- What happens between two calls: runtimes are made, told to stop, and gone, and turns end. -/
inductive TeamMove where
  | starts (runtime : RuntimeRef)
  | stops (runtime : RuntimeRef)
  | leaves (runtime : RuntimeRef)
  | turnEnds (deliveryId : String)

def TeamWorld.move (world : TeamWorld) : TeamMove → Option TeamWorld
  | .starts runtime =>
    if runtime ∈ world.live ∨ runtime ∈ world.gone then none
    else some { world with live := runtime :: world.live }
  | .stops runtime => some { world with stopped := runtime :: world.stopped }
  | .leaves runtime =>
    if runtime ∈ world.live then
      some { world with
        live := world.live.filter (· ≠ runtime)
        gone := runtime :: world.gone
        stores := { world.stores with
          scheduler := world.stores.scheduler.filter (·.1 ≠ runtime) } }
    else none
  | .turnEnds deliveryId =>
    if deliveryId ∈ world.prompted then
      some { world with settled := world.settled ++ [deliveryId] }
    else none

def teamServe (world : TeamWorld) (exchange : TeamExchange) (after : TeamWorld) : Prop :=
  ∃ (moves : List TeamMove) (moved : TeamWorld) (moment : Moment), moves.foldlM TeamWorld.move world = some moved ∧
    respond ids moved exchange.call moment = some (exchange.answer, after)

end Service

section Inversion
variable {ids : FreshIds} {world moved after : TeamWorld}

def LiveLaw (world : TeamWorld) : Prop := ∀ runtime ∈ world.live, runtime ∉ world.gone

/-- What moves between calls leave alone. -/
structure Moved (world moved : TeamWorld) : Prop where
  calls : moved.calls = world.calls
  teams : moved.stores.teams = world.stores.teams
  leases : moved.stores.leases = world.stores.leases
  acquired : moved.stores.acquired = world.stores.acquired
  locked : ∀ lock, moved.stores.scheduler = some lock → world.stores.scheduler = some lock
  prompted : moved.prompted = world.prompted
  settled : world.settled ⊆ moved.settled
  gone : world.gone ⊆ moved.gone
  known : ∀ runtime, runtime ∈ world.live ∨ runtime ∈ world.gone →
    runtime ∈ moved.live ∨ runtime ∈ moved.gone
  live : LiveLaw world → LiveLaw moved

theorem Moved.refl (world : TeamWorld) : Moved world world :=
  ⟨rfl, rfl, rfl, rfl, fun _ => id, rfl, fun _ => id, fun _ => id, fun _ => id, id⟩

theorem Moved.trans {last : TeamWorld} (h : Moved world moved) (h' : Moved moved last) :
    Moved world last :=
  ⟨h'.calls.trans h.calls, h'.teams.trans h.teams, h'.leases.trans h.leases,
    h'.acquired.trans h.acquired,
    fun lock hlock => h.locked lock (h'.locked lock hlock),
    h'.prompted.trans h.prompted, fun _ hmem => h'.settled (h.settled hmem),
    fun _ hmem => h'.gone (h.gone hmem), fun runtime hknown => h'.known runtime (h.known runtime hknown),
    fun hlive => h'.live (h.live hlive)⟩

theorem Moved.live_of_known (h : Moved world moved) (hlaw : LiveLaw world) {runtime : RuntimeRef}
    (hknown : runtime ∈ world.live ∨ runtime ∈ world.gone) (hlive : runtime ∈ moved.live) :
    runtime ∈ world.live :=
  hknown.elim id fun hgone => absurd (h.gone hgone) (h.live hlaw runtime hlive)

theorem TeamWorld.move_ok {move : TeamMove} (h : world.move move = some moved) :
    Moved world moved := by
  have hbase := Moved.refl world
  cases move with
  | starts runtime =>
    simp only [TeamWorld.move] at h
    split at h
    · cases h
    next hnew =>
    obtain ⟨hdead, hfresh⟩ := not_or.1 hnew
    cases h
    refine { hbase with known := ?_, live := ?_ }
    · exact fun other hother => hother.imp_left (mem_cons_of_mem _)
    intro hlaw other hother
    rcases mem_cons.1 hother with rfl | hold
    · exact hfresh
    · exact hlaw other hold
  | stops runtime =>
    cases h
    exact { hbase with }
  | leaves runtime =>
    simp only [TeamWorld.move] at h
    split at h
    · next hlive =>
      cases h
      refine { hbase with locked := ?_, gone := ?_, known := ?_, live := ?_ }
      · intro lock hlock
        exact (Option.filter_eq_some_iff.1 hlock).1
      · exact fun _ hmem => mem_cons_of_mem _ hmem
      · intro other hother
        by_cases hsame : other = runtime
        · exact .inr (hsame ▸ .head _)
        · refine hother.imp (fun hold => ?_) (mem_cons_of_mem _)
          exact mem_filter.2 ⟨hold, decide_eq_true hsame⟩
      · intro hlaw other hother hgone
        obtain ⟨hold, hne⟩ := mem_filter.1 hother
        rcases mem_cons.1 hgone with rfl | hbefore
        · exact of_decide_eq_true hne rfl
        · exact hlaw other hold hbefore
    · cases h
  | turnEnds deliveryId =>
    simp only [TeamWorld.move] at h
    split at h
    · cases h
      exact { hbase with settled := subset_append_left _ _ }
    · cases h

theorem moves_ok {moves : List TeamMove} (h : moves.foldlM TeamWorld.move world = some moved) :
    Moved world moved := by
  induction moves generalizing world with
  | nil =>
    cases h
    exact .refl _
  | cons move moves ih =>
    rw [foldlM_cons] at h
    obtain ⟨next, hnext, hrest⟩ := Option.bind_eq_some_iff.1 h
    exact (TeamWorld.move_ok hnext).trans (ih hrest)

structure StoreEnv (ids : FreshIds) (world : TeamWorld) (runtime : RuntimeRef) (env : TeamEnv) :
    Prop where
  uuid : env.uuid = ids.uuid world.calls
  live : ∀ other ∈ world.live, env.alive other.pid = true ∧
    (other.pid ≠ runtime.pid ∨ env.runtimes other.ownerId = true)

inductive Answered (ids : FreshIds) (world : TeamWorld) : TeamExchange → TeamWorld → Prop where
  | failed (call : TeamCall) (error : String) :
      Answered ids world ⟨call, .error error⟩ { world with calls := world.calls + 1 }
  | stored (self : TeamRuntime) (op : StoreOp) (result : op.Result) (stores : TeamStores)
      (env : TeamEnv) (listing : List String) (hlive : self.ref ∈ world.live)
      (henv : StoreEnv ids world self.ref env)
      (hanswer : answerStore self env world.calls listing op world.stores = .ok (result, stores)) :
      Answered ids world (storeExchange self op result)
        { world with stores := stores, calls := world.calls + 1 }
  | own (self : TeamRuntime) (moment : Moment) (op : OwnOp) :
      Answered ids world (ownExchange self op (answerOwn ids self moment world op).1)
        { (answerOwn ids self moment world op).2 with
          calls := (answerOwn ids self moment world op).2.calls + 1 }
  | sent (self : TeamRuntime) (prompt : TeamPrompt) (hlive : self.ref ∈ world.live) :
      Answered ids world (hostExchange self (.sendPrompt prompt) ())
        { world with prompted := world.prompted ++ [prompt.deliveryId], calls := world.calls + 1 }
  | aborted (self : TeamRuntime) (sessionId : String) :
      Answered ids world (hostExchange self (.abort sessionId) true)
        { world.confirmStop (self.sessionKey sessionId) with calls := world.calls + 1 }
  | host (self : TeamRuntime) (op : HostOp) (result : op.Result)
      (hprompt : ∀ prompt, op ≠ .sendPrompt prompt) :
      Answered ids world (hostExchange self op result) { world with calls := world.calls + 1 }

theorem answerHost_cases {self : TeamRuntime} {moment : Moment} {op : HostOp}
    {answer : Except String op.Result}
    (h : answerHost self moment world op = some (answer, after)) :
    Answered ids world ⟨({ self := self, op := .host op } : TeamCall), answer⟩
      { after with calls := after.calls + 1 } := by
  have hother : ∀ op : HostOp, (∀ prompt, op ≠ .sendPrompt prompt) →
      ∀ answer : Except String op.Result,
        Answered ids world ⟨({ self := self, op := .host op } : TeamCall), answer⟩
          { world with calls := world.calls + 1 } := by
    intro op hprompt answer
    cases answer with
    | error e => exact .failed _ e
    | ok result => exact .host self op result hprompt
  cases op with
  | sendPrompt prompt =>
    simp only [answerHost] at h
    split at h
    · next hlive =>
      cases h
      exact .sent self prompt hlive
    · cases h
  | abort sessionId =>
    simp only [answerHost] at h
    split at h
    · cases h
      exact .aborted self sessionId
    · cases h
      refine hother (.abort sessionId) (fun prompt heq => ?_) _
      cases heq
  | _ =>
    simp only [answerHost] at h
    cases h
    refine hother _ (fun prompt heq => ?_) _
    cases heq

theorem answerCall_cases {self : TeamRuntime} {moment : Moment} {op : TeamOp}
    {answer : Except String op.Result} (hagrees : moment.agrees world self.ref = true)
    (h : answerCall ids self moment world op = some (answer, after)) :
    Answered ids world ⟨({ self := self, op := op } : TeamCall), answer⟩
      { after with calls := after.calls + 1 } := by
  cases op with
  | store op =>
    simp only [answerCall] at h
    split at h
    · cases h
      exact .failed _ _
    · next hlive =>
      rw [not_not] at hlive
      have henv : StoreEnv ids world self.ref (moment.env (ids.uuid world.calls)) := by
        refine ⟨rfl, fun other hother => ?_⟩
        have hseen := all_eq_true.1 hagrees other hother
        simp only [Bool.and_eq_true, Bool.or_eq_true, decide_eq_true_eq] at hseen
        exact hseen
      split at h
      · cases h
        exact .failed _ _
      · cases h
        exact .failed _ _
      · next hanswer =>
        cases h
        exact .stored self op _ _ _ _ hlive henv hanswer
  | own op =>
    simp only [answerCall] at h
    cases h
    exact .own self moment op
  | host op => exact answerHost_cases h

theorem teamServe_cases {exchange : TeamExchange} (h : teamServe ids world exchange after) :
    ∃ moved, Moved world moved ∧ Answered ids moved exchange after := by
  obtain ⟨moves, moved, moment, hmoves, hrespond⟩ := h
  refine ⟨moved, moves_ok hmoves, ?_⟩
  unfold respond at hrespond
  split at hrespond
  · next hagrees =>
    obtain ⟨⟨answer, changed⟩, hanswer, hpair⟩ := Option.map_eq_some_iff.1 hrespond
    cases exchange with
    | mk call result =>
      cases hpair
      exact answerCall_cases hagrees hanswer
  · cases hrespond

end Inversion
end Rolebox.Team
