import Rolebox.Application.RunNotices

/-! How the drains learn what there is to announce, and the capture of a graph's conditions. -/

namespace Rolebox.Graph.GraphNotifications
open General

deriving instance DecidableEq for NotificationRow
deriving instance DecidableEq for CurrentRun
deriving instance DecidableEq for PendingNotificationEffect
deriving instance DecidableEq for Answer

structure NoticeHost where
  digest : Digest
  sha256 : String → String
  retryMs : Rat

/-- One connection to the store's file. The journal is there once somebody watched it. -/
structure Connection where
  dataVersion : Nat := 0
  journal : Option (List String) := none
  observers : List String := []

/-- How far the pass of one drain has come. -/
inductive Phase where
  | idle
  | flushed
  | versioned (version : Nat)
  | capturing (version : Nat) (graphIds : List String)
  | listing
  | delivering
  deriving DecidableEq

structure Watch where
  connection : String
  phase : Phase := .idle
  capturedExternalVersion : Option Nat := none

/-- The committed records of the graphs, the notices, the connections and those who watch them. -/
structure Workspace where
  notifications : Notifications
  graphs : List (String × GraphFacts)
  connections : String → Connection
  watches : String → Option Watch

def Workspace.empty : Workspace where
  notifications := { rows := [], drains := fun _ => Drain.idle }
  graphs := []
  connections := fun _ => {}
  watches := fun _ => none

def Workspace.factsOf (w : Workspace) (graphId : String) : GraphFacts :=
  (w.graphs.lookup graphId).getD .absent

def Workspace.invocationOriginGraphIds (w : Workspace) : List String :=
  (w.graphs.filter fun graph => graph.2.origin.isSome).map Prod.fst

def Workspace.withConnection (w : Workspace) (c : String) (connection : Connection) : Workspace :=
  { w with connections := Function.update w.connections c connection }

def Workspace.withWatch (w : Workspace) (owner : String) (watch : Watch) : Workspace :=
  { w with watches := Function.update w.watches owner (some watch) }

section Capture
variable (host : NoticeHost)

def performCalls (calls : List Call) (n : Notifications) : Notifications :=
  calls.foldl (fun n call => (perform host.digest host.retryMs call n).2) n

def captureCalls (now : Rat) (w : Workspace) (graphId : String) : List Call :=
  ((w.factsOf graphId).conditions host.sha256).map fun (origin, runId, notice) =>
    .capture graphId runId origin notice now

def capture (now : Rat) (graphIds : List String) (w : Workspace) : Workspace :=
  { w with
    notifications := performCalls host (graphIds.flatMap (captureCalls host now w))
      w.notifications }

def beforeCommit (now : Rat) (c : String) (w : Workspace) : Workspace :=
  if (w.connections c).observers = [] then w
  else
    (capture host now ((w.connections c).journal.getD []) w).withConnection c
      { w.connections c with journal := some [] }

def recordChanges (c : String) (changes : List (String × GraphFacts)) (w : Workspace) : Workspace :=
  { w with
    graphs := changes.foldl (fun graphs change => assign change.1 change.2 graphs) w.graphs
    connections := Function.update w.connections c
      { w.connections c with
        journal := (w.connections c).journal.map (· ++ changes.map Prod.fst) } }

def advanceOthers (c : String) (w : Workspace) : Workspace :=
  { w with
    connections := fun d =>
      if d = c then w.connections d
      else { w.connections d with dataVersion := (w.connections d).dataVersion + 1 } }

/-- The file is written when records, notices or, by `others`, some other table were. -/
def commit (c : String) (changes : List (String × GraphFacts)) (others : Bool)
    (before after : Workspace) : Workspace :=
  if changes ≠ [] ∨ others ∨ after.notifications.rows ≠ before.notifications.rows then
    advanceOthers c after
  else after

def transact (now : Rat) (c : String) (changes : List (String × GraphFacts)) (others : Bool)
    (before after : Workspace) : Workspace :=
  commit c changes others before (beforeCommit host now c (recordChanges c changes after))

end Capture

section Events

/-- Changes through any connection, in a transaction or not, and the steps of the drains. -/
inductive WorkspaceEvent where
  | transaction (c : String) (changes : List (String × GraphFacts)) (now : Rat) (others : Bool)
  | statement (c : String) (changes : List (String × GraphFacts)) (others : Bool)
  | rollback (c : String) (changes : List (String × GraphFacts))
  | watch (owner c : String)
  | unwatch (owner : String)
  | start (owner : String) (now : Rat)
  | readVersion (owner : String)
  | listOrigins (owner : String)
  | captureNext (owner : String) (now : Rat)
  | checkVersion (owner : String)
  | deliver (owner : String) (call : DrainCall) (answer : Answer) (now : Rat)
  | finish (owner : String)

def Answer.transacts : Answer → Bool
  | .refused _ | .lost _ | .claimed _ | .renewed _ | .finished _ => true
  | _ => false

def Workspace.watching (w : Workspace) (owner : String) : Bool :=
  (w.watches owner).any fun watch => owner ∈ (w.connections watch.connection).observers

def judgesView (host : NoticeHost) (w : Workspace) (owner : String) : DrainCall → Bool
  | .judge view => (w.notifications.drains owner).inFlight.all fun work =>
      view = (w.factsOf work.delivery.notification.graphId).judged host.sha256
  | _ => true

/-- The phase a step of the delivery needs; any step may be the last. -/
def deliversIn (phase : Phase) : DrainCall → Bool
  | .list => phase = .listing
  | .stop => true
  | _ => phase = .delivering

def afterCall (phase : Phase) : DrainCall → Phase
  | .list => .delivering
  | .stop => .idle
  | _ => phase

variable (host : NoticeHost)

/-- One step of a drain's pass, in the phase it belongs to. -/
def advanceWatch (w : Workspace) (owner : String) (watch : Watch) :
    WorkspaceEvent → Option Workspace
  | .unwatch _ =>
    if w.watching owner then
      some (w.withConnection watch.connection
        { w.connections watch.connection with
          observers := (w.connections watch.connection).observers.filter (· ≠ owner) })
    else none
  | .start _ now =>
    if w.watching owner ∧ watch.phase = .idle then
      some ((transact host now watch.connection [] false w w).withWatch owner
        { watch with phase := .flushed })
    else none
  | .readVersion _ =>
    if watch.phase = .flushed then
      let version := (w.connections watch.connection).dataVersion
      some (w.withWatch owner
        { watch with
          phase := if watch.capturedExternalVersion = some version then .listing
            else .versioned version })
    else none
  | .listOrigins _ =>
    match watch.phase with
    | .versioned version =>
      some (w.withWatch owner
        { watch with phase := .capturing version w.invocationOriginGraphIds })
    | _ => none
  | .captureNext _ now =>
    match watch.phase with
    | .capturing version (graphId :: rest) =>
      some ((transact host now watch.connection [] false w (capture host now [graphId] w)).withWatch
        owner { watch with phase := .capturing version rest })
    | _ => none
  | .checkVersion _ =>
    match watch.phase with
    | .capturing version [] =>
      some (w.withWatch owner
        { watch with
          phase := .listing
          capturedExternalVersion :=
            if (w.connections watch.connection).dataVersion = version then some version
            else watch.capturedExternalVersion })
    | _ => none
  | .deliver _ call answer now =>
    let performed := perform host.digest host.retryMs (.drain owner call) w.notifications
    if deliversIn watch.phase call ∧ judgesView host w owner call then
      let after := { w with notifications := performed.2 }
      let written := if answer.transacts then transact host now watch.connection [] false w after
        else after
      some (written.withWatch owner { watch with phase := afterCall watch.phase call })
    else none
  | .finish _ =>
    if w.watching owner ∧ watch.phase = .delivering ∧
        (w.notifications.drains owner).inFlight.isNone ∧
        (w.notifications.drains owner).effects.isEmpty then
      some (w.withWatch owner { watch with phase := .idle })
    else none
  | _ => none

def next (w : Workspace) (event : WorkspaceEvent) : Option Workspace :=
  let ofOwner := fun owner => (w.watches owner).bind fun watch =>
    advanceWatch host w owner watch event
  match event with
  | .transaction c changes now others => some (transact host now c changes others w w)
  | .statement c changes others =>
    some (commit c changes others w (recordChanges c changes w))
  | .rollback _ _ => some w
  | .watch owner c =>
    if (w.watches owner).isNone then
      some ((w.withConnection c
        { w.connections c with
          journal := some ((w.connections c).journal.getD [])
          observers := owner :: (w.connections c).observers }).withWatch owner { connection := c })
    else none
  | .unwatch owner | .start owner _ | .readVersion owner | .listOrigins owner
  | .captureNext owner _ | .checkVersion owner | .finish owner => ofOwner owner
  | .deliver owner call answer _ =>
    (ofOwner owner).bind fun after =>
      if (perform host.digest host.retryMs (.drain owner call) w.notifications).1 = answer then
        some after
      else none

end Events
end Rolebox.Graph.GraphNotifications
