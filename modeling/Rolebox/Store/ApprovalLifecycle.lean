import Rolebox.Store.ApprovalRows
import Rolebox.Store.Ledger

/-! The life of an approval request over every order of the operations that write it. -/

namespace Rolebox.Graph
open General Transaction List

inductive ApprovalCall where
  | raise (record : ApprovalRequestRecord)
  | decide (write : ApprovalDecisionWrite)
  | expireDue (graphId : String) (at' : Int) (reason : String)
  | expireRun (graphId runId : String) (at' : Int) (reason : String)
  | accept (batch : GraphAcceptanceBatch)

inductive ApprovalAnswer where
  | raise (result : ApprovalRaiseResult)
  | decide (result : ApprovalDecideResult)
  | expired (requests : List ApprovalRequestRecord)
  | accept (result : CommitResult)

def ApprovalCall.perform : ApprovalCall → StoreTx ApprovalAnswer
  | .raise record => do
    let result ← raiseApprovalRequest record
    pure (.raise result)
  | .decide write => do
    let result ← decideApprovalRequest write
    pure (.decide result)
  | .expireDue graphId at' reason => do
    let expired ← expireDueApprovals graphId at' reason
    pure (.expired expired)
  | .expireRun graphId runId at' reason => do
    let expired ← expireRunApprovals graphId runId at' reason
    pure (.expired expired)
  | .accept batch => do
    let result ← commitAccepted batch
    pure (.accept result)

abbrev ApprovalEvent := Event ApprovalCall StoreFailure ApprovalAnswer

/-- An attempt belongs to one run and one node: a raise names those of its attempt. -/
def ApprovalCall.Homed (home : String → String → String × String) : ApprovalCall → Prop
  | .raise record => home record.graphId record.attemptId = (record.runId, record.nodeId)
  | _ => True

/-- A call of the five, or another write that leaves requests and accepted events alone. -/
inductive ApprovalStep (home : String → String → String × String) :
    GraphStore → Option ApprovalEvent → GraphStore → Prop where
  | call {s t : GraphStore} {event : ApprovalEvent} (homed : event.call.Homed home)
      (commits : Commits ApprovalCall.perform s event t) : ApprovalStep home s (some event) t
  | elsewhere {s t : GraphStore} (requests : t.approvalRequests = s.approvalRequests)
      (events : t.acceptedEvents = s.acceptedEvents) : ApprovalStep home s none t

namespace ApprovalRequestRecord

def request (row : ApprovalRequestRecord) : ApprovalRequestRecord :=
  { row.undecided with status := .pending }

/-- Nothing, or a pending request's one answer: a decision in time, or an expiry. -/
def Follows (call : ApprovalCall) (row row' : ApprovalRequestRecord) : Prop :=
  row' = row ∨
    (row.status = .pending ∧ row'.request = row.request ∧
      (row'.status = .expired ∨
        ∃ write, call = .decide write ∧ row'.status = write.command.status ∧
          row'.DecidedInTime write.decidedBy write.decidedAt))

def Settles (row row' : ApprovalRequestRecord) : Prop :=
  row' = row ∨ (row.status = .pending ∧ row'.status ≠ .pending ∧
    row'.request = row.request)

instance : Std.Refl Settles := ⟨fun _ => .inl rfl⟩

instance : IsTrans ApprovalRequestRecord Settles := by
  refine ⟨fun a b c hab hbc => ?_⟩
  rcases hbc with rfl | ⟨hb, hc, hrest⟩
  · exact hab
  · rcases hab with rfl | ⟨-, hsettled, -⟩
    · exact .inr ⟨hb, hc, hrest⟩
    · exact absurd hb hsettled

instance (call : ApprovalCall) : Std.Refl (Follows call) := ⟨fun _ => .inl rfl⟩

theorem Follows.settles {call : ApprovalCall} {row row' : ApprovalRequestRecord}
    (h : row.Follows call row') : row.Settles row' := by
  rcases h with rfl | ⟨hpending, hrest, hexpired | ⟨write, -, hstatus, -⟩⟩
  · exact .inl rfl
  · refine .inr ⟨hpending, ?_, hrest⟩
    rw [hexpired]
    decide
  · refine .inr ⟨hpending, ?_, hrest⟩
    rw [hstatus]
    cases write.command <;> decide

section Writes
variable {row : ApprovalRequestRecord} {write : ApprovalDecisionWrite} {at' : Int} {reason : String}

theorem Raised.answered (h : row.Raised) (status : ApprovalRequestStatus)
    (decidedBy : Option ControlPrincipalRecord) (decidedAt : Option Int)
    (decisionReason : Option String) :
    ({ row with
      status := status
      decidedBy := decidedBy
      decidedAt := decidedAt
      decisionReason := decisionReason } : ApprovalRequestRecord).Raised :=
  ⟨h.grant, h.independent, h.graphId, h.runId, h.nodeId, h.attemptId, h.reason, h.approver,
    h.requestedAt, h.expiresAt, h.requester⟩

theorem Raised.sound (h : row.Raised) (hpending : row.status = .pending) : row.undecided.Sound := by
  refine ⟨h.answered row.status none none none, ?_, nofun, fun hnone =>
    (nomatch hnone)⟩
  have hstatus : row.undecided.status = .pending := hpending
  unfold Decision
  rw [hstatus]
  exact ⟨rfl, rfl, rfl⟩

theorem Sound.undecided (h : row.Sound) (hpending : row.status = .pending) :
    row.decidedBy = none := by
  have hdecision := h.decision
  unfold Decision at hdecision
  rw [hpending] at hdecision
  exact hdecision.1

theorem Sound.expire (h : row.Sound) (hpending : row.status = .pending)
    (hat : at'.natAbs ≤ maxSafeInteger) (hreason : reason ≠ "") : (row.expire at' reason).Sound := by
  refine ⟨h.raised.answered .expired row.decidedBy (some at') (some reason), ?_, ?_, ?_⟩
  · exact ⟨h.undecided hpending, rfl, rfl⟩
  · intro other hother
    cases hother
    exact hat
  · exact fun hsome => hreason (Option.some.inj hsome)

theorem expire_follows (call : ApprovalCall) (hpending : row.status = .pending) :
    row.Follows call (row.expire at' reason) :=
  .inr ⟨hpending, rfl, .inl rfl⟩

theorem decidedInTime (hwrite : write.Shaped) (happrover :
    row.approverSessionId = write.decidedBy.sessionId) (hearly : write.decidedAt < row.expiresAt) :
    (write.decide row).DecidedInTime write.decidedBy write.decidedAt :=
  ⟨rfl, rfl, hearly, happrover.symm, hwrite.decidedBy⟩

theorem Sound.decide (h : row.Sound) (hwrite : write.Shaped)
    (happrover : row.approverSessionId = write.decidedBy.sessionId)
    (hearly : write.decidedAt < row.expiresAt) : (write.decide row).Sound := by
  have hintime := decidedInTime hwrite happrover hearly
  refine ⟨h.raised.answered write.command.status (some write.decidedBy) (some write.decidedAt)
    (some write.reason), ?_, ?_, ?_⟩
  · have hstatus : (write.decide row).status = write.command.status := rfl
    unfold Decision
    rw [hstatus]
    cases write.command with
    | approve => exact ⟨⟨_, _, hintime⟩, rfl⟩
    | reject => exact ⟨⟨_, _, hintime⟩, rfl⟩
  · intro other hother
    cases hother
    exact hwrite.decidedAt
  · exact fun hsome => hwrite.reason (Option.some.inj hsome)

theorem decide_follows (hpending : row.status = .pending) (hwrite : write.Shaped)
    (happrover : row.approverSessionId = write.decidedBy.sessionId)
    (hearly : write.decidedAt < row.expiresAt) : row.Follows (.decide write) (write.decide row) :=
  .inr ⟨hpending, rfl, .inr ⟨write, rfl, rfl, decidedInTime hwrite happrover hearly⟩⟩

end Writes

end ApprovalRequestRecord

section Invariant
variable {home : String → String → String × String} {s t : GraphStore}

structure Approvals (home : String → String → String × String) (s : GraphStore) : Prop where
  homed : ∀ row ∈ s.approvalRequests,
    home row.graphId row.attemptId = (row.runId, row.nodeId)
  single : (s.approvalRequests.map fun row => (row.graphId, row.attemptId)).Nodup
  sound : ∀ row ∈ s.approvalRequests, row.Sound
  settled : ∀ row ∈ s.approvalRequests, s.accepted row.graphId row.attemptId = true →
    row.status = .approved

namespace Approvals
open ApprovalRequestRecord

theorem init (h : s.approvalRequests = []) : Approvals home s := by
  refine ⟨?_, ?_, ?_, ?_⟩
  all_goals rw [h]
  · exact fun _ hrow => nomatch hrow
  · exact nodup_nil
  · exact fun _ hrow => nomatch hrow
  · exact fun _ hrow => nomatch hrow

section

variable (h : Approvals home s)
include h

theorem of_eq (hrequests : t.approvalRequests = s.approvalRequests)
    (hevents : t.acceptedEvents = s.acceptedEvents) : Approvals home t := by
  refine ⟨?_, ?_, ?_, ?_⟩
  all_goals rw [hrequests]
  · exact h.homed
  · exact h.single
  · exact h.sound
  · intro row hrow haccepted
    rw [GraphStore.accepted, hevents] at haccepted
    exact h.settled row hrow haccepted

theorem update {c : ApprovalRequestRecord → Prop} [DecidablePred c]
    {f : ApprovalRequestRecord → ApprovalRequestRecord}
    (hrequest : ∀ row, (f row).request = row.request)
    (hpending : ∀ row, c row → row.status = .pending)
    (hsound : ∀ row ∈ s.approvalRequests, c row → (f row).Sound) :
    Approvals home { s with approvalRequests := updateWhere c f s.approvalRequests } := by
  have hids : ∀ row, (f row).graphId = row.graphId ∧ (f row).attemptId = row.attemptId ∧
      (f row).runId = row.runId ∧ (f row).nodeId = row.nodeId := by
    intro row
    have hgraph := congrArg graphId (hrequest row)
    have hattempt := congrArg attemptId (hrequest row)
    have hrun := congrArg runId (hrequest row)
    have hnode := congrArg nodeId (hrequest row)
    exact ⟨hgraph, hattempt, hrun, hnode⟩
  refine ⟨?_, ?_, ?_, ?_⟩
  · intro row hrow
    rcases mem_updateWhere.1 hrow with ⟨hold, -⟩ | ⟨old, hold, -, rfl⟩
    · exact h.homed row hold
    · obtain ⟨hgraph, hattempt, hrun, hnode⟩ := hids old
      rw [hgraph, hattempt, hrun, hnode]
      exact h.homed old hold
  · rw [updateWhere_map fun row => by rw [(hids row).1, (hids row).2.1]]
    exact h.single
  · intro row hrow
    rcases mem_updateWhere.1 hrow with ⟨hold, -⟩ | ⟨old, hold, hc, rfl⟩
    · exact h.sound row hold
    · exact hsound old hold hc
  · intro row hrow haccepted
    rcases mem_updateWhere.1 hrow with ⟨hold, -⟩ | ⟨old, hold, hc, rfl⟩
    · exact h.settled row hold haccepted
    obtain ⟨hgraph, hattempt, -, -⟩ := hids old
    rw [hgraph, hattempt] at haccepted
    have happroved := h.settled old hold haccepted
    exact nomatch happroved.symm.trans (hpending old hc)

theorem eq_of_read {graphId attemptId : String} {existing row : ApprovalRequestRecord}
    (hread : s.readApprovalRequest graphId attemptId = some existing)
    (hrow : row ∈ s.approvalRequests) (hnames : row.Names graphId attemptId) : row = existing := by
  obtain ⟨hexisting, hsame⟩ := readApprovalRequest_mem hread
  refine eq_of_key h.single hrow hexisting (Prod.ext ?_ ?_)
  · exact hnames.1.trans hsame.1.symm
  · exact hnames.2.trans hsame.2.symm

theorem raise {record : ApprovalRequestRecord} (hraised : record.Raised)
    (hpending : record.status = .pending)
    (hhome : home record.graphId record.attemptId = (record.runId, record.nodeId)) :
    Approvals home { s with approvalRequests := raisedRequests s record } := by
  unfold raisedRequests
  split
  · rename_i hlands
    rw [requestLands, Bool.and_eq_true, Bool.not_eq_true', Bool.not_eq_true'] at hlands
    obtain ⟨hfree, hopen⟩ := hlands
    have hmem : ∀ row ∈ s.approvalRequests ++ [record.undecided],
        row ∈ s.approvalRequests ∨ row = record.undecided := by
      intro row hrow
      rwa [mem_append, mem_singleton] at hrow
    refine ⟨?_, ?_, ?_, ?_⟩
    · intro row hrow
      rcases hmem row hrow with hold | rfl
      · exact h.homed row hold
      · exact hhome
    · refine key_nodup_append h.single fun other hother hkey => ?_
      obtain ⟨hgraph, hattempt⟩ := Prod.ext_iff.1 hkey
      have hplace : (other.runId, other.nodeId) = (record.runId, record.nodeId) := by
        rw [← h.homed other hother, ← hhome]
        exact congrArg₂ home hgraph hattempt
      obtain ⟨hrun, hnode⟩ := Prod.ext_iff.1 hplace
      have htaken := any_eq_false.1 hfree other hother
      exact htaken (decide_eq_true ⟨hgraph, hrun, hnode, hattempt⟩)
    · intro row hrow
      rcases hmem row hrow with hold | rfl
      · exact h.sound row hold
      · exact hraised.sound hpending
    · intro row hrow haccepted
      rcases hmem row hrow with hold | rfl
      · exact h.settled row hold haccepted
      · exact nomatch haccepted.symm.trans hopen
  · exact h

theorem accept {batch : GraphAcceptanceBatch} (hshaped : batch.Shaped)
    (hlands : batchLands s batch.receipt.graphId batch.receipt.attemptId = true) :
    Approvals home (s.batched batch) := by
  refine ⟨h.homed, h.single, h.sound, fun row hrow haccepted => ?_⟩
  obtain ⟨event, hevent, hnames⟩ := any_eq_true.1 haccepted
  obtain ⟨hgraph, hattempt⟩ := of_decide_eq_true hnames
  rcases mem_append.1 hevent with hold | hnew
  · exact h.settled row hrow (any_eq_true.2 ⟨event, hold, hnames⟩)
  have hsettles := hshaped.event event (Option.mem_toList.1 hnew)
  simp only [batchLands, Bool.and_eq_true] at hlands
  have hnone := hlands.1.2
  rw [Bool.not_eq_true'] at hnone
  have hrow' := any_eq_false.1 hnone row hrow
  by_contra hstatus
  refine hrow' (decide_eq_true ⟨⟨?_, ?_⟩, hstatus⟩)
  · exact hgraph.symm.trans hsettles.graphId
  · exact hattempt.symm.trans hsettles.attemptId

end

end Approvals

/-- Each request stays in its place with its one answer, and a further one is pending. -/
structure Moved (call : ApprovalCall) (s t : GraphStore) : Prop where
  kept : InPlace (ApprovalRequestRecord.Follows call) s.approvalRequests t.approvalRequests
  raised : ∀ (i : Nat) (row : ApprovalRequestRecord), s.approvalRequests.length ≤ i →
    t.approvalRequests[i]? = some row → row.status = .pending

namespace Moved
variable {call : ApprovalCall}

theorem of_eq (h : t.approvalRequests = s.approvalRequests) : Moved call s t := by
  refine ⟨?_, fun i row hi hrow => ?_⟩
  · rw [h]
    exact InPlace.refl _
  · rw [h, getElem?_eq_none hi] at hrow
    exact nomatch hrow

theorem update {c : ApprovalRequestRecord → Prop} [DecidablePred c]
    {f : ApprovalRequestRecord → ApprovalRequestRecord}
    (h : ∀ row ∈ s.approvalRequests, c row → row.Follows call (f row)) :
    Moved call s { s with approvalRequests := updateWhere c f s.approvalRequests } := by
  refine ⟨InPlace.update h, fun i row hi hrow => ?_⟩
  have hlength : (updateWhere c f s.approvalRequests).length = s.approvalRequests.length :=
    length_map _
  rw [getElem?_eq_none (hlength.trans_le hi)] at hrow
  exact nomatch hrow

theorem raise {record : ApprovalRequestRecord} (hpending : record.status = .pending) :
    Moved call s { s with approvalRequests := raisedRequests s record } := by
  unfold raisedRequests
  split
  · refine ⟨InPlace.append _, fun i row hi hrow => ?_⟩
    have hlast : [record.undecided][i - s.approvalRequests.length]? = some row :=
      (getElem?_append_right hi).symm.trans hrow
    have hmem := mem_singleton.1 (mem_of_getElem? hlast)
    rw [hmem]
    exact hpending
  · exact of_eq rfl

end Moved

open ApprovalRequestRecord in
theorem ApprovalCall.perform_moved {call : ApprovalCall} {answer : ApprovalAnswer}
    (h : call.perform s = .ok (answer, t)) (hhomed : call.Homed home) (hs : Approvals home s) :
    Approvals home t ∧ Moved call s t := by
  cases call with
  | raise record =>
    obtain ⟨result, u, hrun, hanswer⟩ := bind_ok.1 h
    obtain ⟨-, rfl⟩ := pure_ok.1 hanswer
    obtain ⟨hraised, hpending, rfl, -⟩ := raiseApprovalRequest_ok hrun
    exact ⟨hs.raise hraised hpending hhomed, Moved.raise hpending⟩
  | decide write =>
    obtain ⟨result, u, hrun, hanswer⟩ := bind_ok.1 h
    obtain ⟨-, rfl⟩ := pure_ok.1 hanswer
    obtain ⟨hwrite, ⟨rfl, -⟩ | ⟨existing, request, hdecides, -, -, rfl⟩ |
      ⟨existing, request, hdecides, hearly, -, rfl⟩⟩ := decideApprovalRequest_ok hrun
    · exact ⟨hs, Moved.of_eq rfl⟩
    · constructor
      · exact hs.update (fun _ => rfl) (fun _ hc => hc.2) fun row hrow hc =>
          (hs.sound row hrow).expire hc.2 hwrite.decidedAt (by decide)
      · exact Moved.update fun row _ hc => expire_follows _ hc.2
    · -- the pending request of the attempt is the one whose approver and deadline were checked
      have hsame : ∀ row ∈ s.approvalRequests, row.Awaits write.graphId write.attemptId →
          row = existing := fun row hrow hc => hs.eq_of_read hdecides.stands hrow hc.1
      constructor
      · refine hs.update (fun _ => rfl) (fun _ hc => hc.2) fun row hrow hc => ?_
        obtain rfl := hsame row hrow hc
        exact (hs.sound row hrow).decide hwrite hdecides.approver hearly
      · refine Moved.update fun row hrow hc => ?_
        obtain rfl := hsame row hrow hc
        exact decide_follows hc.2 hwrite hdecides.approver hearly
  | expireDue graphId at' reason =>
    obtain ⟨result, u, hrun, hanswer⟩ := bind_ok.1 h
    obtain ⟨-, rfl⟩ := pure_ok.1 hanswer
    obtain ⟨hat, hreason, rfl⟩ := expireWaiting_ok hrun
    constructor
    · exact hs.update (fun _ => rfl) (fun _ hc => hc.2.1) fun row hrow hc =>
        (hs.sound row hrow).expire hc.2.1 hat hreason
    · exact Moved.update fun row _ hc => expire_follows _ hc.2.1
  | expireRun graphId runId at' reason =>
    obtain ⟨result, u, hrun, hanswer⟩ := bind_ok.1 h
    obtain ⟨-, rfl⟩ := pure_ok.1 hanswer
    obtain ⟨hat, hreason, rfl⟩ := expireRunApprovals_ok hrun
    constructor
    · exact hs.update (fun _ => rfl) (fun _ hc => hc.2.2) fun row hrow hc =>
        (hs.sound row hrow).expire hc.2.2 hat hreason
    · exact Moved.update fun row _ hc => expire_follows _ hc.2.2
  | accept batch =>
    obtain ⟨result, u, hrun, hanswer⟩ := bind_ok.1 h
    obtain ⟨-, rfl⟩ := pure_ok.1 hanswer
    obtain ⟨hshaped, ⟨-, rfl⟩ | ⟨-, hlands, -, rfl⟩⟩ := commitAccepted_ok hrun
    · exact ⟨hs, Moved.of_eq rfl⟩
    · exact ⟨hs.accept hshaped hlands, Moved.of_eq rfl⟩

theorem ApprovalStep.approvals {event : Option ApprovalEvent} (h : ApprovalStep home s event t)
    (hs : Approvals home s) : Approvals home t := by
  cases h with
  | call hhomed hcommits =>
    obtain ⟨rfl, -⟩ | ⟨answer, -, hperform⟩ := hcommits.cases
    · exact hs
    · exact (ApprovalCall.perform_moved hperform hhomed hs).1
  | elsewhere hrequests hevents => exact hs.of_eq hrequests hevents

theorem ApprovalStep.moved {event : ApprovalEvent} (h : ApprovalStep home s (some event) t)
    (hs : Approvals home s) : Moved event.call s t := by
  cases h with
  | call hhomed hcommits =>
    obtain ⟨rfl, -⟩ | ⟨answer, -, hperform⟩ := hcommits.cases
    · exact Moved.of_eq rfl
    · exact (ApprovalCall.perform_moved hperform hhomed hs).2

theorem Approvals.settles_run {events : List (Option ApprovalEvent)}
    (h : Run (ApprovalStep home) s events t) (hs : Approvals home s) :
    InPlace ApprovalRequestRecord.Settles s.approvalRequests t.approvalRequests := by
  induction h with
  | nil => exact InPlace.refl _
  | @cons s u t event events hstep _ ih =>
    have hfirst : InPlace ApprovalRequestRecord.Settles s.approvalRequests u.approvalRequests := by
      cases hstep with
      | call hhomed hcommits =>
        have hmoved := (ApprovalStep.call hhomed hcommits).moved hs
        exact hmoved.kept.mono fun _ _ hfollows => hfollows.settles
      | elsewhere hrequests _ =>
        rw [hrequests]
        exact InPlace.refl _
    exact hfirst.trans (ih (hstep.approvals hs))

end Invariant

section Lifecycle
variable {home : String → String → String × String} {s t : GraphStore}

/-- Requests stay in place with one answer in time by their approver, settled ones never change, and
none of an attempt with an accepted event is pending. -/
theorem approval_lifecycle {events : List (Option ApprovalEvent)} (hinit : s.approvalRequests = [])
    (hrun : Run (ApprovalStep home) s events t) :
    (∀ row ∈ t.approvalRequests, readApprovalRow row.columns = .ok row) ∧
    (∀ row ∈ t.approvalRequests, row.status = .approved →
      ∃ approver at', row.decidedBy = some approver ∧ row.decidedAt = some at' ∧
        at' < row.expiresAt ∧ approver.sessionId = row.approverSessionId ∧
        (row.authority.mode = .independentReview →
          ∃ requester, row.requestedBy = some requester ∧
            requester.sessionId ≠ approver.sessionId)) ∧
    (∀ row ∈ t.approvalRequests, row.status = .pending →
      t.accepted row.graphId row.attemptId = false) ∧
    (∀ event u, ApprovalStep home t (some event) u → Moved event.call t u) ∧
    (∀ later u, Run (ApprovalStep home) t later u →
      InPlace ApprovalRequestRecord.Settles t.approvalRequests u.approvalRequests) := by
  have happrovals : Approvals home t :=
    hrun.invariant (fun _ _ _ hs hstep => hstep.approvals hs) (Approvals.init hinit)
  refine ⟨fun row hrow => (happrovals.sound row hrow).read, ?_, ?_, ?_, ?_⟩
  · intro row hrow hstatus
    have hsound := happrovals.sound row hrow
    have hdecision := hsound.decision
    unfold ApprovalRequestRecord.Decision at hdecision
    rw [hstatus] at hdecision
    obtain ⟨⟨approver, at', hintime⟩, -⟩ := hdecision
    refine ⟨approver, at', hintime.decidedBy, hintime.decidedAt, hintime.inTime, hintime.approver,
      fun hmode => ?_⟩
    obtain ⟨requester, hrequester, hdistinct⟩ := hsound.raised.independent hmode
    rw [hintime.approver]
    exact ⟨requester, hrequester, hdistinct⟩
  · intro row hrow hpending
    refine Bool.eq_false_iff.2 fun haccepted => ?_
    exact nomatch (happrovals.settled row hrow haccepted).symm.trans hpending
  · exact fun event u hstep => hstep.moved happrovals
  · exact fun later u hlater => happrovals.settles_run hlater

theorem calls_run {calls : List ApprovalCall} (hhomed : ∀ call ∈ calls, call.Homed home) :
    Run (ApprovalStep home) s ((history ApprovalCall.perform s calls).1.map some)
      (history ApprovalCall.perform s calls).2 := by
  induction calls generalizing s with
  | nil => exact .nil s
  | cons call calls ih =>
    refine .cons (.call (hhomed call (.head _)) rfl) (ih fun other hother => ?_)
    exact hhomed other (.tail _ hother)

def reviewRequest : ApprovalRequestRecord :=
  { graphId := "g", runId := "r1", nodeId := "n", attemptId := "n#1", status := .pending,
    reason := "ship it", requestedAt := 1,
    requestedBy := some { sessionId := "author", agentId := none },
    approverSessionId := "reviewer",
    authority := { policyId := "p", revision := "1", digest := "d", mode := .independentReview },
    expiresAt := 10, decidedBy := none, decidedAt := none, decisionReason := none }

def reviewApproval : ApprovalDecisionWrite :=
  { graphId := "g", runId := "r1", nodeId := "n", attemptId := "n#1", command := .approve,
    reason := "looks right", decidedAt := 9,
    decidedBy := { sessionId := "reviewer", agentId := none } }

def reviewedBatch : GraphAcceptanceBatch :=
  { receipt :=
      { graphId := "g", attemptId := "n#1", submissionId := "s", planRevision := "v",
        proposalDigest := "d", decision := .accepted, committedAt := 11 }
    acceptedEvent := some
      { graphId := "g", attemptId := "n#1", submissionId := "s", planRevision := "v",
        outcomeId := "done", acceptedAt := 11 }
    acceptedResult := none
    effects := [] }

/-- A batch is held before the decision, and lands after one an instant before the deadline. -/
def reviewedCalls : List ApprovalCall :=
  [.raise reviewRequest, .accept reviewedBatch, .decide reviewApproval, .expireDue "g" 10 "late",
    .accept reviewedBatch]

def reviewedStore : GraphStore := (history ApprovalCall.perform .empty reviewedCalls).2

theorem approval_lifecycle_reviewed :
    reviewedStore.approvalRequests.map ApprovalRequestRecord.status = [.approved] ∧
      reviewedStore.accepted "g" "n#1" = true ∧
      ∀ row ∈ reviewedStore.approvalRequests, readApprovalRow row.columns = .ok row := by
  have hhomed : ∀ call ∈ reviewedCalls, call.Homed fun _ _ => ("r1", "n") := by
    intro call hcall
    simp only [reviewedCalls, mem_cons, not_mem_nil, or_false] at hcall
    rcases hcall with rfl | rfl | rfl | rfl | rfl <;> trivial
  have hrun : Run (ApprovalStep fun _ _ => ("r1", "n")) .empty
    ((history ApprovalCall.perform .empty reviewedCalls).1.map some) reviewedStore :=
    calls_run hhomed
  exact ⟨by decide +kernel, by decide +kernel, (approval_lifecycle rfl hrun).1⟩

end Lifecycle

end Rolebox.Graph
