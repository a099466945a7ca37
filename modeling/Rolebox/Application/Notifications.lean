import Mathlib.Algebra.Order.Ring.Unbundled.Rat
import Rolebox.Store.Tables

/-! The durable notices of a graph, and the drains that claim, send and finish their rows. -/

namespace Rolebox.Graph.GraphNotifications
open General

def EFFECT_KIND : String := "graph-notification"

def LEASE_MS : Rat := 60000

inductive NotificationKind where
  | complete
  | stopped
  | attention
  deriving DecidableEq

def NotificationKind.text : NotificationKind → String
  | .complete => "complete"
  | .stopped => "stopped"
  | .attention => "attention"

def readKind (text : String) : Option NotificationKind :=
  [NotificationKind.complete, .stopped, .attention].find? fun kind => kind.text = text

structure GraphNotification where
  id : String
  graphId : String
  runId : String
  sessionId : String
  agent : Option String
  kind : NotificationKind
  reason : String
  nodeId : Option String
  attemptId : Option String
  approvalStatus : Option String

structure Delivery where
  notification : GraphNotification
  attempts : Nat
  retryAt : Rat
  owner : Option String
  leaseUntil : Option Rat

def optionalField (name : String) (value : Option Json) : List (String × Json) :=
  (value.map fun json => (name, json)).toList

def GraphNotification.json (n : GraphNotification) : Json :=
  .obj ([("id", .str n.id), ("graphId", .str n.graphId), ("runId", .str n.runId),
      ("sessionId", .str n.sessionId), ("kind", .str n.kind.text), ("reason", .str n.reason)] ++
    optionalField "agent" (n.agent.map .str) ++
    optionalField "nodeId" (n.nodeId.map .str) ++
    optionalField "attemptId" (n.attemptId.map .str) ++
    optionalField "approvalStatus" (n.approvalStatus.map .str))

def Delivery.json (d : Delivery) : Json :=
  .obj ([("notification", d.notification.json), ("attempts", .num d.attempts),
      ("retryAt", .num d.retryAt)] ++
    optionalField "owner" (d.owner.map .str) ++
    optionalField "leaseUntil" (d.leaseUntil.map .num))

def deliveryIdentifier (fields : Json) (name : String) : Option String :=
  (fields.field? name).bind Json.text?

def deliveryNumber (fields : Json) (name : String) : Option Nat :=
  (fields.field? name).bind Json.safeNat?

def optionalOf {α : Type} (read : Json → Option α) (fields : Json) (name : String) :
    Option (Option α) :=
  match fields.field? name with
  | none => some none
  | some value => (read value).map some

def readNotification (notice : Json) : Option GraphNotification := do
  let id ← deliveryIdentifier notice "id"
  let graphId ← deliveryIdentifier notice "graphId"
  let runId ← deliveryIdentifier notice "runId"
  let sessionId ← deliveryIdentifier notice "sessionId"
  let kind ← ((notice.field? "kind").bind Json.str?).bind readKind
  let reason ← (notice.field? "reason").bind Json.str?
  let agent ← optionalOf Json.str? notice "agent"
  let nodeId ← optionalOf Json.str? notice "nodeId"
  let attemptId ← optionalOf Json.str? notice "attemptId"
  let approvalStatus ← optionalOf Json.str? notice "approvalStatus"
  pure
    { id := id
      graphId := graphId
      runId := runId
      sessionId := sessionId
      agent := agent
      kind := kind
      reason := reason
      nodeId := nodeId
      attemptId := attemptId
      approvalStatus := approvalStatus }

def readDelivery (payload : Json) : Option Delivery := do
  let notice ← payload.field? "notification"
  let notification ← readNotification notice
  let attempts ← deliveryNumber payload "attempts"
  let retryAt ← deliveryNumber payload "retryAt"
  let owner ← optionalOf Json.str? payload "owner"
  let leaseUntil ← optionalOf Json.safeNat? payload "leaseUntil"
  pure
    { notification := notification
      attempts := attempts
      retryAt := retryAt
      owner := owner
      leaseUntil := leaseUntil.map fun (instant : Nat) => (instant : Rat) }

/-- The payload column: JSON by the value it parses to, a text that is no JSON, or no text. -/
inductive PayloadColumn where
  | json (value : Json)
  | malformed (text : String)
  | binary
  deriving DecidableEq

def readEnvelope : PayloadColumn → Option Delivery
  | .json value => readDelivery value
  | .malformed _ => none
  | .binary => none

theorem Delivery.json_owner (d : Delivery) : d.json.field? "owner" = d.owner.map Json.str := by
  cases howner : d.owner <;> cases hlease : d.leaseUntil <;>
    simp [Delivery.json, optionalField, howner, hlease, List.lookup_cons]

structure EffectKey where
  graphId : String
  effectId : String
  deriving DecidableEq

structure NotificationRow where
  graphId : String
  runId : String
  effectId : String
  attemptId : String
  kind : String
  payload : PayloadColumn
  createdAt : Rat
  status : EffectStatus

def NotificationRow.key (row : NotificationRow) : EffectKey :=
  { graphId := row.graphId, effectId := row.effectId }

/-- The statuses an update of a live row requires. -/
def unsettled (status : EffectStatus) : Bool := status = .pending || status = .started

structure PendingNotificationEffect where
  graphId : String
  effectId : String
  payload : PayloadColumn

def PendingNotificationEffect.key (effect : PendingNotificationEffect) : EffectKey :=
  { graphId := effect.graphId, effectId := effect.effectId }

def effectOf (row : NotificationRow) : PendingNotificationEffect :=
  { graphId := row.graphId, effectId := row.effectId, payload := row.payload }

def readPendingNotificationEffects (kind : String) (rows : List NotificationRow) :
    List PendingNotificationEffect :=
  ((rows.filter fun row => row.kind = kind && unsettled row.status).mergeSort
    fun row row' => row.createdAt ≤ row'.createdAt).map effectOf

def insertEffect (row : NotificationRow) (rows : List NotificationRow) :
    Bool × List NotificationRow :=
  if rows.any fun other => other.key = row.key then (false, rows) else (true, rows ++ [row])

def refuseEffect (effect : PendingNotificationEffect) (rows : List NotificationRow) :
    List NotificationRow :=
  updateWhere (fun row => row.key = effect.key ∧ unsettled row.status)
    (fun row => { row with status := .done }) rows

/-- What the guard of the claim compares: the key, the payload that was read, a live status. -/
def Claimable (effect : PendingNotificationEffect) (row : NotificationRow) : Prop :=
  row.key = effect.key ∧ row.payload = effect.payload ∧ unsettled row.status

instance (effect : PendingNotificationEffect) (row : NotificationRow) :
    Decidable (Claimable effect row) := by
  unfold Claimable
  infer_instance

def claimEffect (effect : PendingNotificationEffect) (payload : Json)
    (rows : List NotificationRow) : List NotificationRow :=
  updateWhere (Claimable effect)
    (fun row => { row with status := .started, payload := .json payload }) rows

/-- What the guards of the renewal and of the completion compare: the payload this owner wrote. -/
def RecordedBy (effect : PendingNotificationEffect) (payload : Json) (row : NotificationRow) :
    Prop :=
  row.key = effect.key ∧ row.payload = .json payload ∧ row.status = .started

instance (effect : PendingNotificationEffect) (payload : Json) (row : NotificationRow) :
    Decidable (RecordedBy effect payload row) := by
  unfold RecordedBy
  infer_instance

def renewEffect (effect : PendingNotificationEffect) (payload next : Json)
    (rows : List NotificationRow) : List NotificationRow :=
  updateWhere (RecordedBy effect payload) (fun row => { row with payload := .json next }) rows

def finishEffect (effect : PendingNotificationEffect) (payload : Json) (status : EffectStatus)
    (next : Json) (rows : List NotificationRow) : List NotificationRow :=
  updateWhere (RecordedBy effect payload)
    (fun row => { row with status := status, payload := .json next }) rows

structure InvocationOrigin where
  sessionId : String
  agent : Option String

structure Notice where
  key : String
  kind : NotificationKind
  reason : String
  nodeId : Option String
  attemptId : Option String
  approvalStatus : Option String

abbrev Digest := String → String → String → String

def notificationId (digest : Digest) (graphId runId key : String) : String :=
  "notify:" ++ digest graphId runId key

def capturedRow (digest : Digest) (graphId runId : String) (origin : InvocationOrigin)
    (notice : Notice) (now : Rat) : NotificationRow :=
  let id := notificationId digest graphId runId notice.key
  let notification : GraphNotification :=
    { id := id
      graphId := graphId
      runId := runId
      sessionId := origin.sessionId
      agent := origin.agent
      kind := notice.kind
      reason := notice.reason
      nodeId := notice.nodeId
      attemptId := notice.attemptId
      approvalStatus := notice.approvalStatus }
  let delivery : Delivery :=
    { notification := notification, attempts := 0, retryAt := 0, owner := none, leaseUntil := none }
  { graphId := graphId
    runId := runId
    effectId := id
    attemptId := notice.attemptId.getD id
    kind := EFFECT_KIND
    payload := .json delivery.json
    createdAt := now
    status := .pending }

structure CurrentRun where
  runId : String
  phase : String
  noticeKeys : List String

def obsolete (digest : Digest) (current : Option CurrentRun) (notification : GraphNotification) :
    Bool :=
  match current with
  | none => true
  | some run =>
    run.runId ≠ notification.runId || run.phase = "complete" || run.phase = "stopped" ||
      !(run.noticeKeys.any fun key =>
        notificationId digest notification.graphId run.runId key = notification.id)

section Drains

inductive Stage where
  | claimed
  | sending
  | answered (delivered : Bool)
  deriving DecidableEq

/-- One claimed delivery of a drain; `payload` is the text it wrote last. -/
structure InFlight where
  effect : PendingNotificationEffect
  delivery : Delivery
  claimed : Delivery
  payload : Json
  stage : Stage

/-- A drain's delivery in flight and the effects it has still to visit. -/
structure Drain where
  inFlight : Option InFlight
  effects : List PendingNotificationEffect

def Drain.idle : Drain := { inFlight := none, effects := [] }

structure Notifications where
  rows : List NotificationRow
  drains : String → Drain

def Notifications.withDrain (s : Notifications) (owner : String) (drain : Drain) : Notifications :=
  { s with drains := Function.update s.drains owner drain }

/-- One atomic step of a drain. A drain that throws, is closed or crashes stops. -/
inductive DrainCall where
  | list
  | visit (retryClock leaseClock claimClock : Rat)
  | judge (view : Option (Option CurrentRun))
  | renew (now : Rat)
  | send (delivered : Bool)
  | finish (now : Rat)
  | stop

inductive Call where
  | capture (graphId runId : String) (origin : InvocationOrigin) (notice : Notice) (now : Rat)
  | drain (owner : String) (call : DrainCall)

inductive Answer where
  | captured (wrote : Bool)
  | listed
  | refused (effect : PendingNotificationEffect)
  | waiting (key : EffectKey)
  | lost (key : EffectKey)
  | claimed (key : EffectKey)
  | judged (key : EffectKey) (isObsolete : Bool)
  | renewed (key : EffectKey)
  | sent (key : EffectKey) (delivered : Bool)
  | finished (key : EffectKey)
  | stopped
  | disabled

variable (digest : Digest) (retryMs : Rat)

def due (delivery : Delivery) (retryClock leaseClock : Rat) : Bool :=
  delivery.retryAt ≤ retryClock && delivery.leaseUntil.getD 0 ≤ leaseClock

def claimedOf (delivery : Delivery) (owner : String) (now : Rat) : Delivery :=
  { delivery with owner := some owner, leaseUntil := some (now + LEASE_MS) }

def claimVisited (owner : String) (effect : PendingNotificationEffect)
    (rest : List PendingNotificationEffect) (delivery : Delivery) (now : Rat)
    (s : Notifications) : Answer × Notifications :=
  let claimed := claimedOf delivery owner now
  if s.rows.any fun row => Claimable effect row then
    let work : InFlight :=
      { effect := effect
        delivery := delivery
        claimed := claimed
        payload := claimed.json
        stage := .claimed }
    (.claimed effect.key,
      { rows := claimEffect effect claimed.json s.rows
        drains := Function.update s.drains owner { inFlight := some work, effects := rest } })
  else (.lost effect.key, s.withDrain owner { inFlight := none, effects := rest })

def visitEffect (owner : String) (effect : PendingNotificationEffect)
    (rest : List PendingNotificationEffect) (retryClock leaseClock claimClock : Rat)
    (s : Notifications) : Answer × Notifications :=
  match readEnvelope effect.payload with
  | none =>
    (.refused effect,
      { rows := refuseEffect effect s.rows
        drains := Function.update s.drains owner { inFlight := none, effects := rest } })
  | some delivery =>
    if due delivery retryClock leaseClock then claimVisited owner effect rest delivery claimClock s
    else (.waiting effect.key, s.withDrain owner { inFlight := none, effects := rest })

def judgeStage (notification : GraphNotification) (view : Option (Option CurrentRun)) : Stage :=
  if notification.kind = .attention then
    match view with
    | none => .answered false
    | some current => if obsolete digest current notification then .answered true else .sending
  else .sending

def backoff (attempts : Nat) : Rat := min (retryMs * 2 ^ min (attempts - 1) 6) 300000

def nextDelivery (delivery : Delivery) (delivered : Bool) (now : Rat) : Delivery :=
  let attempts := delivery.attempts + 1
  { notification := delivery.notification
    attempts := attempts
    retryAt := if delivered then 0 else now + backoff retryMs attempts
    owner := none
    leaseUntil := none }

def performIdle (owner : String) (drain : Drain) (s : Notifications) :
    DrainCall → Answer × Notifications
  | .list =>
    (.listed, s.withDrain owner
      { inFlight := none, effects := readPendingNotificationEffects EFFECT_KIND s.rows })
  | .visit retryClock leaseClock claimClock =>
    match drain.effects with
    | [] => (.disabled, s)
    | effect :: rest => visitEffect owner effect rest retryClock leaseClock claimClock s
  | .stop => (.stopped, s.withDrain owner Drain.idle)
  | _ => (.disabled, s)

def performInFlight (owner : String) (drain : Drain) (work : InFlight) (s : Notifications) :
    DrainCall → Answer × Notifications
  | .judge view =>
    if work.stage = .claimed then
      let stage := judgeStage digest work.delivery.notification view
      (.judged work.effect.key (stage = .answered true),
        s.withDrain owner { drain with inFlight := some { work with stage := stage } })
    else (.disabled, s)
  | .renew now =>
    if work.stage = .sending then
      let next := { work.claimed with leaseUntil := some (now + LEASE_MS) }.json
      (.renewed work.effect.key,
        { rows := renewEffect work.effect work.payload next s.rows
          drains := Function.update s.drains owner
            { drain with inFlight := some { work with payload := next } } })
    else (.disabled, s)
  | .send delivered =>
    if work.stage = .sending then
      (.sent work.effect.key delivered,
        s.withDrain owner { drain with inFlight := some { work with stage := .answered delivered } })
    else (.disabled, s)
  | .finish now =>
    match work.stage with
    | .answered delivered =>
      let next := nextDelivery retryMs work.delivery delivered now
      let status := if delivered then EffectStatus.done else EffectStatus.pending
      (.finished work.effect.key,
        { rows := finishEffect work.effect work.payload status next.json s.rows
          drains := Function.update s.drains owner { drain with inFlight := none } })
    | _ => (.disabled, s)
  | .stop => (.stopped, s.withDrain owner Drain.idle)
  | _ => (.disabled, s)

def perform (call : Call) (s : Notifications) : Answer × Notifications :=
  match call with
  | .capture graphId runId origin notice now =>
    let inserted := insertEffect (capturedRow digest graphId runId origin notice now) s.rows
    (.captured inserted.1, { s with rows := inserted.2 })
  | .drain owner call =>
    match (s.drains owner).inFlight with
    | none => performIdle owner (s.drains owner) s call
    | some work => performInFlight digest retryMs owner (s.drains owner) work s call

structure Event where
  call : Call
  answer : Answer

def Performs (s : Notifications) (event : Event) (t : Notifications) : Prop :=
  perform digest retryMs event.call s = (event.answer, t)

end Drains

end Rolebox.Graph.GraphNotifications
