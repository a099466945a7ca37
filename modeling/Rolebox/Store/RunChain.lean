import Rolebox.Store.Runs

/-! The runs of a graph over every order of mints and orders to run it again. -/

namespace Rolebox.Graph
open General Transaction List

inductive ReexecutionFailure where
  | store (failure : StoreFailure)
  | raced (reason : String)

/-- The successor and the order's link to it, both or none. -/
def mintSuccessorRun (record : RunIdentityRecord) (runId : String) :
    Transaction GraphStore ReexecutionFailure PUnit := do
  let successor ← (mintNextRun record runId).mapError .store
  if successor = none then throw (.raced "current-run-moved")
  else do
    let marked ← (markReexecutionExecuted record.graphId runId record.runId
      record.startedAt).mapError .store
    if marked ≠ true then throw (.raced "order-already-consumed") else pure ()

theorem mintSuccessorRun_ok {record : RunIdentityRecord} {runId : String} {s s' : GraphStore}
    {u : PUnit} (h : mintSuccessorRun record runId s = .ok (u, s')) :
    ∃ successor t, mintNextRun record runId s = .ok (some successor, t) ∧
      markReexecutionExecuted record.graphId runId record.runId record.startedAt t =
        .ok (true, s') := by
  simp only [mintSuccessorRun, bind_ok, mapError_ok, ite_ok, throw_ok, pure_ok] at h
  obtain ⟨successor, t, hmint, ⟨-, h⟩ | ⟨hsome, marked, t', hmark, ⟨-, h⟩ | ⟨htrue, -, rfl⟩⟩⟩ := h
  · exact h.elim
  · exact h.elim
  · obtain ⟨run, rfl⟩ := Option.ne_none_iff_exists'.1 hsome
    rw [not_not.1 htrue] at hmark
    exact ⟨run, t, hmint, hmark⟩

structure RunChain (s : GraphStore) : Prop where
  numbered : ∀ graphId, Numbered RunRow.runSeq (s.runRows graphId)
  ids : (s.runs.map fun row => (row.graphId, row.runId)).Nodup
  orders : (s.runReexecutions.map fun order => (order.graphId, order.runId)).Nodup

namespace RunChain
variable {s s' : GraphStore} {graphId runId : String}

theorem empty : RunChain .empty := ⟨fun _ => Numbered.nil _, nodup_nil, nodup_nil⟩

theorem readRun_eq_some_iff (h : RunChain s) {run : StoredRunIdentity} :
    s.readRun graphId = some run ↔
      ∃ row ∈ s.runRows graphId, row.identity = run ∧ run.runSeq = (s.runRows graphId).length := by
  rw [GraphStore.readRun, Option.map_eq_some_iff]
  simp only [(h.numbered graphId).argmax_eq_some_iff]
  constructor
  · rintro ⟨row, ⟨hrow, hseq⟩, rfl⟩
    exact ⟨row, hrow, rfl, hseq⟩
  · rintro ⟨row, hrow, rfl, hseq⟩
    exact ⟨row, ⟨hrow, hseq⟩, rfl⟩

theorem order_unique (h : RunChain s) {order order' : RunReexecutionRecord}
    (horder : order ∈ s.runReexecutions) (horder' : order' ∈ s.runReexecutions)
    (hgraph : order.graphId = order'.graphId) (hrun : order.runId = order'.runId) :
    order = order' :=
  eq_of_key h.orders horder horder' (Prod.ext_iff.2 ⟨hgraph, hrun⟩)

theorem append (h : RunChain s) {row : RunRow}
    (hfresh : ∀ other ∈ s.runRows row.graphId, other.runId ≠ row.runId)
    (hseq : row.runSeq = (s.runRows row.graphId).length + 1) :
    RunChain { s with runs := s.runs ++ [row] } := by
  refine ⟨fun graphId => ?_, ?_, h.orders⟩
  · show Numbered RunRow.runSeq ((s.runs ++ [row]).filter fun r => r.graphId = graphId)
    rw [filter_append]
    by_cases hgraph : row.graphId = graphId
    · subst hgraph
      have hself : [row].filter (fun r => decide (r.graphId = row.graphId)) = [row] := by simp
      rw [hself]
      exact (h.numbered row.graphId).append hseq
    · have hnone : [row].filter (fun r => decide (r.graphId = graphId)) = [] := by
        simp [hgraph]
      rw [hnone, append_nil]
      exact h.numbered graphId
  · refine key_nodup_append h.ids ?_
    intro other hother hkey
    obtain ⟨hgraph, hid⟩ := Prod.ext_iff.1 hkey
    exact hfresh other (mem_runRows.2 ⟨hother, hgraph⟩) hid

theorem mintRun (record : RunIdentityRecord) : Moves (Keeping RunChain) (Graph.mintRun record) := by
  intro s stored s' hmint h
  obtain ⟨hnone, rfl⟩ | ⟨-, rfl⟩ := (mintRun_ok hmint).2
  · have hrows : s.runRows (record.row 1).graphId = [] := hnone
    refine h.append ?_ ?_
    · rw [hrows]
      exact nofun
    · rw [hrows]
      rfl
  · exact h

theorem next (h : RunChain s) {current : StoredRunIdentity} {record : RunIdentityRecord}
    (hcurrent : s.readRun record.graphId = some current)
    (hfresh : ∀ other ∈ s.runRows record.graphId, other.runId ≠ record.runId) :
    RunChain { s with runs := s.runs ++ [record.row (current.runSeq + 1)] } := by
  obtain ⟨-, -, -, hseq⟩ := h.readRun_eq_some_iff.1 hcurrent
  refine h.append ?_ (congrArg (· + 1) hseq)
  exact hfresh

theorem mintNextRun (record : RunIdentityRecord) (afterRunId : String) :
    Moves (Keeping RunChain) (Graph.mintNextRun record afterRunId) := by
  intro s answer s' hmint h
  obtain ⟨-, rfl, -⟩ | ⟨current, hcurrent, -, hfresh, rfl, -⟩ := mintNextRun_ok hmint
  · exact h
  · exact h.next hcurrent fun other hother => (hfresh other hother).1

theorem recordReexecution (record : RunReexecutionRecord) :
    Moves (Keeping RunChain) (Graph.recordReexecution record) := by
  intro s result s' hrecord h
  obtain ⟨-, -, rfl⟩ | ⟨hnone, -, -, rfl⟩ := recordReexecution_ok hrecord
  · exact h
  · refine ⟨h.numbered, h.ids, key_nodup_append h.orders ?_⟩
    intro order horder hkey
    exact readReexecution_none hnone order horder (Prod.ext_iff.1 hkey)

theorem markReexecutionExecuted (graphId runId successorRunId : String) (successorStartedAt : Nat) :
    Moves (Keeping RunChain)
      (Graph.markReexecutionExecuted graphId runId successorRunId successorStartedAt) := by
  intro s marked s' hmark h
  rw [(markReexecutionExecuted_ok hmark).2]
  refine ⟨h.numbered, h.ids, ?_⟩
  show (List.map _ (updateWhere _ _ _)).Nodup
  rw [updateWhere_map]
  · exact h.orders
  · exact fun _ => rfl

theorem mintSuccessorRun (record : RunIdentityRecord) (runId : String) :
    Moves (Keeping RunChain) (Graph.mintSuccessorRun record runId) := by
  intro s u s' hmint h
  obtain ⟨successor, t, hnext, hmark⟩ := mintSuccessorRun_ok hmint
  exact markReexecutionExecuted _ _ _ _ t _ s' hmark (mintNextRun record runId s _ t hnext h)

theorem runsOf_eq (h : RunChain s) (graphId : String) :
    s.runsOf graphId = (s.runRows graphId).map RunRow.identity := by
  unfold GraphStore.runsOf
  rw [mergeSort_of_pairwise]
  exact (h.numbered graphId).pairwise.imp fun hle => by simpa using hle

theorem runsOf_numbered (h : RunChain s) (graphId : String) :
    Numbered StoredRunIdentity.runSeq (s.runsOf graphId) := by
  refine (h.numbered graphId).congr ?_
  rw [h.runsOf_eq, map_map]
  rfl

theorem current_iff (h : RunChain s) {run : StoredRunIdentity} (hrun : run ∈ s.runsOf graphId) :
    s.readRun graphId = some run ↔ run.runSeq = (s.runsOf graphId).length := by
  rw [h.runsOf_eq] at hrun ⊢
  obtain ⟨row, hrow, rfl⟩ := mem_map.1 hrun
  rw [h.readRun_eq_some_iff, length_map]
  exact ⟨fun ⟨_, _, _, hseq⟩ => hseq, fun hseq => ⟨row, hrow, rfl, hseq⟩⟩

end RunChain

section Orders
variable {s s' t : GraphStore} {graphId runId : String}

def Marked (graphId runId : String) (s : GraphStore) : Prop :=
  ∃ order ∈ s.runReexecutions,
    order.graphId = graphId ∧ order.runId = runId ∧ order.successor ≠ none

def OrderKept (order order' : RunReexecutionRecord) : Prop :=
  order'.graphId = order.graphId ∧ order'.runId = order.runId ∧
    (order.successor ≠ none → order' = order)

instance : Std.Refl OrderKept := ⟨fun _ => ⟨rfl, rfl, fun _ => rfl⟩⟩

instance : IsTrans RunReexecutionRecord OrderKept := by
  refine ⟨fun a b c hab hbc => ⟨hbc.1.trans hab.1, hbc.2.1.trans hab.2.1, fun hne => ?_⟩⟩
  have hb := hab.2.2 hne
  rw [← hb] at hne
  exact (hbc.2.2 hne).trans hb

def OrdersKept (s s' : GraphStore) : Prop :=
  Retains OrderKept s.runReexecutions s'.runReexecutions

instance : Std.Refl OrdersKept := ⟨fun _ => Retains.refl _⟩

instance : IsTrans GraphStore OrdersKept := ⟨fun _ _ _ h h' => Retains.trans h h'⟩

theorem OrdersKept.of_eq (h : s'.runReexecutions = s.runReexecutions) : OrdersKept s s' := by
  unfold OrdersKept
  rw [h]
  exact Retains.refl _

theorem Marked.mono (h : Marked graphId runId s) (hkept : OrdersKept s s') :
    Marked graphId runId s' := by
  obtain ⟨order, horder, hgraph, hrun, hne⟩ := h
  obtain ⟨order', horder', -, -, hsame⟩ := hkept order horder
  obtain rfl := hsame hne
  exact ⟨order', horder', hgraph, hrun, hne⟩

theorem mintRun_orders (record : RunIdentityRecord) : Moves OrdersKept (mintRun record) := by
  intro s stored s' hmint
  obtain ⟨-, rfl⟩ | ⟨-, rfl⟩ := (mintRun_ok hmint).2 <;> exact OrdersKept.of_eq rfl

theorem mintNextRun_orders (record : RunIdentityRecord) (afterRunId : String) :
    Moves OrdersKept (mintNextRun record afterRunId) := by
  intro s answer s' hmint
  obtain ⟨-, rfl, -⟩ | ⟨_, -, -, -, rfl, -⟩ := mintNextRun_ok hmint <;> exact OrdersKept.of_eq rfl

theorem recordReexecution_orders (record : RunReexecutionRecord) :
    Moves OrdersKept (recordReexecution record) := by
  intro s result s' hrecord
  obtain ⟨-, -, rfl⟩ | ⟨-, -, -, rfl⟩ := recordReexecution_ok hrecord
  · exact OrdersKept.of_eq rfl
  · exact Retains.append _

theorem markReexecutionExecuted_orders (graphId runId successorRunId : String)
    (successorStartedAt : Nat) :
    Moves OrdersKept (markReexecutionExecuted graphId runId successorRunId successorStartedAt) := by
  intro s marked s' hmark
  rw [(markReexecutionExecuted_ok hmark).2]
  exact Retains.update fun order _ howed => ⟨rfl, rfl, fun hne => absurd howed.2.2 hne⟩

theorem marked_of_executed {successorRunId : String} {successorStartedAt : Nat}
    (hchain : RunChain s)
    (h : markReexecutionExecuted graphId runId successorRunId successorStartedAt s =
      .ok (true, s')) : ¬ Marked graphId runId s ∧ Marked graphId runId s' := by
  obtain ⟨hcount, rfl⟩ := markReexecutionExecuted_ok h
  have hpos : 0 < s.runReexecutions.countP (fun order => Owed graphId runId order) := by
    rw [hcount.1 rfl]
    exact Nat.one_pos
  obtain ⟨order, horder, howed⟩ := countP_pos_iff.1 hpos
  have howed : Owed graphId runId order := by simpa using howed
  constructor
  · rintro ⟨other, hother, hgraph, hrun, hne⟩
    obtain rfl := hchain.order_unique horder hother (howed.1.trans hgraph.symm)
      (howed.2.1.trans hrun.symm)
    exact hne howed.2.2
  · exact ⟨_, mem_updateWhere.2 (.inr ⟨order, horder, howed, rfl⟩), howed.1, howed.2.1,
      Option.some_ne_none _⟩

end Orders

section Links
variable {s s' : GraphStore}

def LinksFollow (s : GraphStore) : Prop :=
  ∀ order ∈ s.runReexecutions, ∀ successorRunId startedAt,
    order.successor = some (successorRunId, startedAt) →
      ∃ run ∈ s.runRows order.graphId, run.runId = order.runId ∧
        ∃ next ∈ s.runRows order.graphId, next.runId = successorRunId ∧
          next.startedAt = startedAt ∧ next.runSeq = run.runSeq + 1

theorem LinksFollow.mono (h : LinksFollow s) (horders : s'.runReexecutions = s.runReexecutions)
    (hruns : ∀ graphId, ∀ row ∈ s.runRows graphId, row ∈ s'.runRows graphId) : LinksFollow s' := by
  intro order horder successorRunId startedAt hsuccessor
  rw [horders] at horder
  obtain ⟨run, hrun, hid, next, hnext, hlink⟩ := h order horder successorRunId startedAt hsuccessor
  exact ⟨run, hruns _ run hrun, hid, next, hruns _ next hnext, hlink⟩

theorem runRows_append_subset (more : List RunRow) (graphId : String) :
    ∀ row ∈ s.runRows graphId,
      row ∈ ({ s with runs := s.runs ++ more } : GraphStore).runRows graphId := by
  intro row hrow
  obtain ⟨hmem, hgraph⟩ := mem_runRows.1 hrow
  exact mem_runRows.2 ⟨mem_append_left _ hmem, hgraph⟩

theorem mintRun_links (record : RunIdentityRecord) :
    Moves (Keeping LinksFollow) (mintRun record) := by
  intro s stored s' hmint h
  obtain ⟨-, rfl⟩ | ⟨-, rfl⟩ := (mintRun_ok hmint).2
  · exact h.mono rfl (runRows_append_subset _)
  · exact h

theorem mintNextRun_links (record : RunIdentityRecord) (afterRunId : String) :
    Moves (Keeping LinksFollow) (mintNextRun record afterRunId) := by
  intro s answer s' hmint h
  obtain ⟨-, rfl, -⟩ | ⟨_, -, -, -, rfl, -⟩ := mintNextRun_ok hmint
  · exact h
  · exact h.mono rfl (runRows_append_subset _)

theorem recordReexecution_links (record : RunReexecutionRecord) :
    Moves (Keeping LinksFollow) (recordReexecution record) := by
  intro s result s' hrecord h
  obtain ⟨-, -, rfl⟩ | ⟨-, -, -, rfl⟩ := recordReexecution_ok hrecord
  · exact h
  intro order horder successorRunId startedAt hsuccessor
  obtain hold | hnew := mem_append.1 horder
  · exact h order hold successorRunId startedAt hsuccessor
  · rw [mem_singleton.1 hnew] at hsuccessor
    cases hsuccessor

theorem mintSuccessorRun_links (record : RunIdentityRecord) (runId : String) :
    Moves (Keeping LinksFollow) (mintSuccessorRun record runId) := by
  intro s u s' hmint h
  obtain ⟨successor, t, hnext, hmark⟩ := mintSuccessorRun_ok hmint
  obtain ⟨hnone, -⟩ | ⟨current, hcurrent, hid, -, rfl, -⟩ := mintNextRun_ok hnext
  · cases hnone
  obtain ⟨row, hrow, rfl⟩ := readRun_mem hcurrent
  rw [(markReexecutionExecuted_ok hmark).2]
  have hkept : LinksFollow { s with runs := s.runs ++ [record.row (row.runSeq + 1)] } :=
    h.mono rfl (runRows_append_subset _)
  intro order horder successorRunId startedAt hsuccessor
  obtain ⟨hold, -⟩ | ⟨old, -, howed, rfl⟩ := mem_updateWhere.1 horder
  · exact hkept order hold successorRunId startedAt hsuccessor
  obtain ⟨rfl, rfl⟩ := Prod.ext_iff.1 (Option.some.inj hsuccessor)
  have hgraph : old.graphId = record.graphId := howed.1
  have hnew : record.row (row.runSeq + 1) ∈
      ({ s with runs := s.runs ++ [record.row (row.runSeq + 1)] } : GraphStore).runRows
        old.graphId :=
    mem_runRows.2 ⟨mem_append_right _ (mem_singleton.2 rfl), hgraph.symm⟩
  rw [← hgraph] at hrow
  exact ⟨row, runRows_append_subset _ _ row hrow, hid.trans howed.2.1.symm,
    record.row (row.runSeq + 1), hnew, rfl, rfl, rfl⟩

end Links

section Calls

inductive RunCall where
  | mintRun (record : RunIdentityRecord)
  | mintNextRun (record : RunIdentityRecord) (afterRunId : String)
  | recordReexecution (record : RunReexecutionRecord)
  | markReexecutionExecuted (graphId runId successorRunId : String) (successorStartedAt : Nat)
  | mintSuccessorRun (record : RunIdentityRecord) (runId : String)

inductive RunAnswer where
  | run (stored : Option StoredRunIdentity)
  | order (result : RunReexecutionWriteResult)
  | marked (marked : Bool)
  | minted

def RunCall.perform : RunCall → Transaction GraphStore ReexecutionFailure RunAnswer
  | .mintRun record => do
    let stored ← (Graph.mintRun record).mapError .store
    pure (.run (some stored))
  | .mintNextRun record afterRunId => do
    let stored ← (Graph.mintNextRun record afterRunId).mapError .store
    pure (.run stored)
  | .recordReexecution record => do
    let result ← (Graph.recordReexecution record).mapError .store
    pure (.order result)
  | .markReexecutionExecuted graphId runId successorRunId successorStartedAt => do
    let marked ← (Graph.markReexecutionExecuted graphId runId successorRunId
      successorStartedAt).mapError .store
    pure (.marked marked)
  | .mintSuccessorRun record runId => do
    Graph.mintSuccessorRun record runId
    pure .minted

abbrev RunEvent := Event RunCall ReexecutionFailure RunAnswer

abbrev callStep : GraphStore → RunEvent → GraphStore → Prop := Commits RunCall.perform

def RunEvent.executes (graphId runId : String) (event : RunEvent) : Bool :=
  match event.call, event.answer with
  | .markReexecutionExecuted g r _ _, .ok (.marked true) => g = graphId ∧ r = runId
  | .mintSuccessorRun record r, .ok _ => record.graphId = graphId ∧ r = runId
  | _, _ => false

def RunCall.linksAlone : RunCall → Bool
  | .markReexecutionExecuted .. => true
  | _ => false

variable {s t : GraphStore} {event : RunEvent} {graphId runId : String}

theorem perform_chain (call : RunCall) : Moves (Keeping RunChain) call.perform := by
  cases call with
  | mintRun record =>
    exact Moves.bind (RunChain.mintRun record).mapError fun _ => Moves.pure _
  | mintNextRun record afterRunId =>
    exact Moves.bind (RunChain.mintNextRun record afterRunId).mapError fun _ => Moves.pure _
  | recordReexecution record =>
    exact Moves.bind (RunChain.recordReexecution record).mapError fun _ => Moves.pure _
  | markReexecutionExecuted graphId runId successorRunId successorStartedAt =>
    exact Moves.bind (RunChain.markReexecutionExecuted _ _ _ _).mapError fun _ => Moves.pure _
  | mintSuccessorRun record runId =>
    exact Moves.bind (RunChain.mintSuccessorRun record runId) fun _ => Moves.pure _

theorem mintSuccessorRun_orders (record : RunIdentityRecord) (runId : String) :
    Moves OrdersKept (mintSuccessorRun record runId) := by
  intro s u s' hmint
  obtain ⟨successor, t, hnext, hmark⟩ := mintSuccessorRun_ok hmint
  have hleft : OrdersKept s t := mintNextRun_orders record runId s _ t hnext
  exact IsTrans.trans s t s' hleft (markReexecutionExecuted_orders _ _ _ _ t _ s' hmark)

theorem perform_orders (call : RunCall) : Moves OrdersKept call.perform := by
  cases call with
  | mintRun record =>
    exact Moves.bind (mintRun_orders record).mapError fun _ => Moves.pure _
  | mintNextRun record afterRunId =>
    exact Moves.bind (mintNextRun_orders record afterRunId).mapError fun _ => Moves.pure _
  | recordReexecution record =>
    exact Moves.bind (recordReexecution_orders record).mapError fun _ => Moves.pure _
  | markReexecutionExecuted graphId runId successorRunId successorStartedAt =>
    exact Moves.bind (markReexecutionExecuted_orders _ _ _ _).mapError fun _ => Moves.pure _
  | mintSuccessorRun record runId =>
    exact Moves.bind (mintSuccessorRun_orders record runId) fun _ => Moves.pure _

theorem perform_links {call : RunCall} (h : call.linksAlone = false) :
    Moves (Keeping LinksFollow) call.perform := by
  cases call with
  | mintRun record =>
    exact Moves.bind (mintRun_links record).mapError fun _ => Moves.pure _
  | mintNextRun record afterRunId =>
    exact Moves.bind (mintNextRun_links record afterRunId).mapError fun _ => Moves.pure _
  | recordReexecution record =>
    exact Moves.bind (recordReexecution_links record).mapError fun _ => Moves.pure _
  | markReexecutionExecuted graphId runId successorRunId successorStartedAt => cases h
  | mintSuccessorRun record runId =>
    exact Moves.bind (mintSuccessorRun_links record runId) fun _ => Moves.pure _

theorem marked_of_executes (hchain : RunChain s) (h : callStep s event t)
    (hexec : event.executes graphId runId) : ¬ Marked graphId runId s ∧ Marked graphId runId t := by
  obtain ⟨call, answer⟩ := event
  obtain ⟨-, failure, rfl⟩ | ⟨answer, rfl, hrun⟩ := h.cases
  · cases call <;> cases hexec
  cases call with
  | mintRun | mintNextRun | recordReexecution => cases hexec
  | markReexecutionExecuted g r successorRunId successorStartedAt =>
    simp only [RunCall.perform, bind_ok, mapError_ok, pure_ok] at hrun
    obtain ⟨marked, _, hmark, rfl, rfl⟩ := hrun
    cases marked with
    | false => cases hexec
    | true =>
      have hkey : g = graphId ∧ r = runId := by simpa [RunEvent.executes] using hexec
      obtain ⟨rfl, rfl⟩ := hkey
      exact marked_of_executed hchain hmark
  | mintSuccessorRun record r =>
    simp only [RunCall.perform, bind_ok, pure_ok] at hrun
    obtain ⟨_, _, hmint, rfl, rfl⟩ := hrun
    obtain ⟨successor, mid, hnext, hmark⟩ := mintSuccessorRun_ok hmint
    have hkey : record.graphId = graphId ∧ r = runId := by
      simpa [RunEvent.executes] using hexec
    obtain ⟨rfl, rfl⟩ := hkey
    have hmid : RunChain mid := RunChain.mintNextRun record r s _ mid hnext hchain
    have hleft : OrdersKept s mid := mintNextRun_orders record r s _ mid hnext
    obtain ⟨hno, hyes⟩ := marked_of_executed hmid hmark
    exact ⟨fun hs => hno (hs.mono hleft), hyes⟩

theorem callStep_chain (h : callStep s event t) (hs : RunChain s) : RunChain t :=
  (h.moves (perform_chain event.call)) hs

theorem callStep_orders (h : callStep s event t) : OrdersKept s t :=
  h.moves (perform_orders event.call)

theorem callStep_links (hlinks : event.call.linksAlone = false) (h : callStep s event t)
    (hs : LinksFollow s) : LinksFollow t :=
  (h.moves (perform_links hlinks)) hs

theorem executes_once {events : List RunEvent} (h : Run callStep s events t) (hs : RunChain s) :
    events.countP (RunEvent.executes graphId runId) ≤ 1 := by
  refine (Run.countP_le_one (I := RunChain) (P := Marked graphId runId) (q := fun _ => True)
    ?_ ?_ ?_ h hs fun _ _ => trivial).1
  · intro s event t hs hstep
    exact callStep_chain hstep hs
  · intro s event t hs hstep hexec
    exact marked_of_executes hs hstep hexec
  · intro s event t _ hstep _ hmarked
    exact hmarked.mono (callStep_orders hstep)

theorem links_of_run {events : List RunEvent} (h : Run callStep s events t)
    (hlinks : ∀ event ∈ events, event.call.linksAlone = false) (hs : LinksFollow s) :
    LinksFollow t := by
  induction h with
  | nil => exact hs
  | @cons s mid t event events hstep _ ih =>
    have hmid : LinksFollow mid := callStep_links (hlinks event (.head _)) hstep hs
    exact ih (fun event' h' => hlinks event' (.tail _ h')) hmid

/-- The runs form one chain with its last run current, and an order is executed at most once. -/
theorem runChain_of_calls {events : List RunEvent} (h : Run callStep .empty events s)
    (graphId : String) :
    Numbered StoredRunIdentity.runSeq (s.runsOf graphId) ∧
      (∀ run ∈ s.runsOf graphId,
        (s.readRun graphId = some run ↔ run.runSeq = (s.runsOf graphId).length) ∧
        ∀ a ∈ s.runsOf graphId, ∀ b ∈ s.runsOf graphId,
          a.runSeq = run.runSeq + 1 → b.runSeq = run.runSeq + 1 → a = b) ∧
      (s.runReexecutions.map fun order => (order.graphId, order.runId)).Nodup ∧
      (∀ runId, events.countP (RunEvent.executes graphId runId) ≤ 1) ∧
      ((∀ event ∈ events, event.call.linksAlone = false) →
        ∀ order ∈ s.runReexecutions, order.graphId = graphId →
          ∀ successorRunId startedAt, order.successor = some (successorRunId, startedAt) →
            ∃ run ∈ s.runsOf graphId, run.runId = order.runId ∧
              ∃ next ∈ s.runsOf graphId, next.runId = successorRunId ∧
                next.startedAt = startedAt ∧ next.runSeq = run.runSeq + 1) := by
  have hchain : RunChain s :=
    h.invariant (fun _ _ _ hs hstep => callStep_chain hstep hs) RunChain.empty
  have hnumbered := hchain.runsOf_numbered graphId
  refine ⟨hnumbered, ?_, hchain.orders, fun _ => executes_once h RunChain.empty, ?_⟩
  · intro run hrun
    refine ⟨hchain.current_iff hrun, ?_⟩
    intro a ha b hb hseq hseq'
    exact hnumbered.inj ha hb (hseq.trans hseq'.symm)
  · rintro hlinks order horder rfl successorRunId startedAt hsuccessor
    have hfollow : LinksFollow s := links_of_run h hlinks nofun
    obtain ⟨run, hrun, hid, next, hnext, hlink⟩ :=
      hfollow order horder successorRunId startedAt hsuccessor
    rw [hchain.runsOf_eq]
    exact ⟨run.identity, mem_map_of_mem hrun, hid, next.identity, mem_map_of_mem hnext, hlink⟩

def runIdentity (runId : String) : RunIdentityRecord :=
  { graphId := "g", runId := runId, startedAt := 1, planRevision := "p" }

def reexecutionOf (runId : String) : RunReexecutionRecord :=
  { graphId := "g", runId := runId, reason := "again", decidedAt := 1, decidedBy := none,
    successor := none }

def reexecutedCalls : List RunCall :=
  [.mintRun (runIdentity "r1"), .recordReexecution (reexecutionOf "r1"),
    .mintSuccessorRun (runIdentity "r2") "r1"]

theorem runChain_reexecuted :
    ∃ run ∈ (history RunCall.perform .empty reexecutedCalls).2.runsOf "g", run.runId = "r1" ∧
      ∃ next ∈ (history RunCall.perform .empty reexecutedCalls).2.runsOf "g", next.runId = "r2" ∧
        next.startedAt = 1 ∧ next.runSeq = run.runSeq + 1 :=
  (runChain_of_calls (history_run RunCall.perform .empty reexecutedCalls) "g").2.2.2.2
    (by rintro event (_ | ⟨_, _ | ⟨_, _ | ⟨_, h⟩⟩⟩) <;> first | rfl | cases h)
    { reexecutionOf "r1" with successor := some ("r2", 1) } (by decide) rfl "r2" 1 rfl

/-- A link made alone can name a run that no one minted. -/
theorem linkedAlone_ghost :
    ∃ events s, Run callStep .empty events s ∧
      (∃ order ∈ s.runReexecutions, order.successor = some ("ghost", 1)) ∧
      ∀ run ∈ s.runs, run.runId ≠ "ghost" := by
  refine ⟨_, _, history_run RunCall.perform .empty [.mintRun (runIdentity "r1"),
    .recordReexecution (reexecutionOf "r1"), .markReexecutionExecuted "g" "r1" "ghost" 1], ?_, ?_⟩
  · decide
  · decide

end Calls

end Rolebox.Graph
