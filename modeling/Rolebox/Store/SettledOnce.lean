import Mathlib.Logic.Relation
import Rolebox.Store.Ledger

/-! An attempt settles once, in every order of the batches and the decisions about it. -/

namespace Rolebox.Graph
open General Transaction Relation List Option

/-- One receipt a submission and one settlement an attempt, which no stop and no retry ended. -/
structure GraphStore.SettledOnce (s : GraphStore) : Prop where
  receipts : (s.receipts.map fun row => (row.graphId, row.attemptId, row.submissionId)).Nodup
  events : (s.acceptedEvents.map fun row => (row.graphId, row.attemptId)).Nodup
  received : ∀ event ∈ s.acceptedEvents, ∃ receipt ∈ s.receipts,
    receipt.decision = .accepted ∧ event.Settles receipt
  settled : ∀ receipt ∈ s.receipts, receipt.decision = .accepted →
    ∃ event ∈ s.acceptedEvents, event.Settles receipt
  undecided : ∀ decision ∈ s.controlDecisions, Stops decision.command ∨ decision.command = .retry →
    ∀ event ∈ s.acceptedEvents, ¬ decision.Names event.graphId event.attemptId

/-- A batch, a decision about an attempt, or a write to other tables. -/
inductive LedgerStep (s t : GraphStore) : Prop where
  | batch {batch : GraphAcceptanceBatch} {answer : CommitResult}
      (commits : commitAccepted batch s = .ok (answer, t))
  | control {write : RunControlWrite} {answer : RunControlWriteResult}
      (decides : writeControlDecision write s = .ok (answer, t))
  | elsewhere (receipts : t.receipts = s.receipts) (events : t.acceptedEvents = s.acceptedEvents)
      (decisions : t.controlDecisions = s.controlDecisions)

section
variable {s t : GraphStore}

theorem batched_settled {batch : GraphAcceptanceBatch} (hshaped : batch.Shaped)
    (hfree : standingVerdict s batch.receipt = none)
    (hlands : batchLands s batch.receipt.graphId batch.receipt.attemptId = true)
    (h : s.SettledOnce) : (s.batched batch).SettledOnce := by
  simp only [standingVerdict, or_eq_none_iff, map_eq_none_iff] at hfree
  obtain ⟨hreceipt, hevent, -⟩ := hfree
  have hsettles : ∀ event ∈ batch.acceptedEvent.toList, event.Settles batch.receipt :=
    fun event hmem => hshaped.event event (Option.mem_toList.1 hmem)
  refine ⟨?_, ?_, fun event hmem => ?_, fun receipt hmem hdecision => ?_,
    fun decision hdecision hends event hmem hnames => ?_⟩
  · refine key_nodup_append h.receipts fun row hrow hkey => ?_
    simp only [Prod.mk.injEq] at hkey
    exact find?_eq_none.1 hreceipt row hrow (decide_eq_true hkey)
  · show ((s.acceptedEvents ++ batch.acceptedEvent.toList).map _).Nodup
    cases hsome : batch.acceptedEvent with
    | none =>
      rw [toList_none, append_nil]
      exact h.events
    | some event =>
      have hnew := hshaped.event event hsome
      refine key_nodup_append h.events fun row hrow hkey => ?_
      rw [Prod.mk.injEq, hnew.graphId, hnew.attemptId] at hkey
      exact find?_eq_none.1 hevent row hrow (decide_eq_true hkey)
  · rcases mem_append.1 hmem with hold | hnew
    · obtain ⟨receipt, hreceived, hrest⟩ := h.received event hold
      exact ⟨receipt, mem_append_left _ hreceived, hrest⟩
    · have haccepted := hshaped.settles.2 (isSome_of_mem (Option.mem_toList.1 hnew))
      exact ⟨batch.receipt, mem_append_right _ (.head _), haccepted, hsettles event hnew⟩
  · rcases mem_append.1 hmem with hold | hnew
    · obtain ⟨event, hsettled, hrest⟩ := h.settled receipt hold hdecision
      exact ⟨event, mem_append_left _ hsettled, hrest⟩
    · rw [mem_singleton.1 hnew] at hdecision ⊢
      obtain ⟨event, hsome⟩ := isSome_iff_exists.1 (hshaped.settles.1 hdecision)
      exact ⟨event, mem_append_right _ (Option.mem_toList.2 hsome), hshaped.event event hsome⟩
  · rcases mem_append.1 hmem with hold | hnew
    · exact h.undecided decision hdecision hends event hold hnames
    -- the guard of the batch found no such decision about its attempt
    rw [(hsettles event hnew).graphId, (hsettles event hnew).attemptId] at hnames
    simp only [batchLands, Bool.and_eq_true, Bool.not_eq_true', List.any_eq_false,
      decide_eq_true_eq] at hlands
    rcases hends with hstops | hretry
    · exact hlands.2 decision hdecision ⟨hnames, hstops⟩
    · exact hlands.1.1.1.2 decision hdecision ⟨hnames, hretry⟩

theorem LedgerStep.settled (hstep : LedgerStep s t) :
    s.receipts <+: t.receipts ∧ (s.SettledOnce → t.SettledOnce) := by
  cases hstep with
  | batch commits =>
    obtain ⟨hshaped, ⟨-, rfl⟩ | ⟨hfree, hlands, -, rfl⟩⟩ := commitAccepted_ok commits
    · exact ⟨prefix_rfl, id⟩
    · exact ⟨prefix_append _ _, batched_settled hshaped hfree hlands⟩
  | @control write _ decides =>
    obtain ⟨hlands, -, rfl⟩ | ⟨-, -, rfl⟩ := writeControlDecision_ok decides
    · refine ⟨prefix_rfl, fun h => { h with undecided := ?_ }⟩
      intro decision hdecision hends event hevent hnames
      rcases mem_append.1 hdecision with hold | hnew
      · exact h.undecided decision hold hends event hevent hnames
      · rw [mem_singleton.1 hnew] at hnames
        simp only [decisionLands, Bool.and_eq_true, Bool.not_eq_true', GraphStore.accepted,
          List.any_eq_false] at hlands
        exact hlands.1.2 event hevent (decide_eq_true ⟨hnames.1.symm, hnames.2.symm⟩)
    · exact ⟨prefix_rfl, id⟩
  | elsewhere receipts events decisions =>
    refine ⟨receipts ▸ prefix_rfl, fun h => ⟨?_, ?_, ?_, ?_, ?_⟩⟩
    · exact receipts ▸ h.receipts
    · exact events ▸ h.events
    · exact receipts ▸ events ▸ h.received
    · exact receipts ▸ events ▸ h.settled
    · exact decisions ▸ events ▸ h.undecided

theorem ledger_run (h : ReflTransGen LedgerStep s t) :
    s.receipts <+: t.receipts ∧ (s.SettledOnce → t.SettledOnce) := by
  induction h with
  | refl => exact ⟨prefix_rfl, id⟩
  | tail _ hstep ih =>
    obtain ⟨hgrown, hsettled⟩ := hstep.settled
    exact ⟨ih.1.trans hgrown, hsettled ∘ ih.2⟩

/-- In every order of the writes an attempt settles once, and what is submitted again is answered
by the receipt of the first submission, however much later, and writes nothing. -/
theorem settled_once (hrun : ReflTransGen LedgerStep .empty s) :
    s.SettledOnce ∧
      (∀ receipt ∈ s.receipts, ∀ receipt' ∈ s.receipts, receipt.decision = .accepted →
        receipt'.decision = .accepted → receipt.graphId = receipt'.graphId →
        receipt.attemptId = receipt'.attemptId → receipt = receipt') ∧
      ∀ t, ReflTransGen LedgerStep s t → ∀ receipt ∈ s.receipts, ∀ batch answer u,
        batch.receipt.graphId = receipt.graphId → batch.receipt.attemptId = receipt.attemptId →
        batch.receipt.submissionId = receipt.submissionId →
        commitAccepted batch t = .ok (answer, u) → u = t ∧
          answer = if receipt.proposalDigest = batch.receipt.proposalDigest then .replayed receipt
            else conflictVerdict batch.receipt receipt := by
  have hs : s.SettledOnce :=
    (ledger_run hrun).2 ⟨.nil, .nil, by simp [GraphStore.empty], by simp [GraphStore.empty],
      by simp [GraphStore.empty]⟩
  refine ⟨hs, ?_, ?_⟩
  · intro receipt hreceipt receipt' hreceipt' hdecision hdecision' hgraph hattempt
    obtain ⟨event, hevent, hsettles⟩ := hs.settled receipt hreceipt hdecision
    obtain ⟨event', hevent', hsettles'⟩ := hs.settled receipt' hreceipt' hdecision'
    have hsame : event = event' := eq_of_key hs.events hevent hevent' (Prod.ext
      (hsettles.graphId.trans (hgraph.trans hsettles'.graphId.symm))
      (hsettles.attemptId.trans (hattempt.trans hsettles'.attemptId.symm)))
    subst hsame
    exact eq_of_key hs.receipts hreceipt hreceipt' (Prod.ext hgraph (Prod.ext hattempt
      (hsettles.submissionId.symm.trans hsettles'.submissionId)))
  · intro t hlater receipt hreceipt batch answer u hgraph hattempt hsubmission hcommit
    obtain ⟨hgrown, hkept⟩ := ledger_run hlater
    have hstanding : standingVerdict t batch.receipt =
        some (if receipt.proposalDigest = batch.receipt.proposalDigest then .replayed receipt
          else conflictVerdict batch.receipt receipt) := by
      cases hfound : t.lookupReceipt batch.receipt.graphId batch.receipt.attemptId
          batch.receipt.submissionId with
      | none =>
        exact absurd (decide_eq_true ⟨hgraph.symm, hattempt.symm, hsubmission.symm⟩)
          (find?_eq_none.1 hfound receipt (hgrown.subset hreceipt))
      | some first =>
        have hkey := find?_some (id hfound : t.receipts.find? _ = some first)
        obtain ⟨hgraph', hattempt', hsubmission'⟩ := of_decide_eq_true hkey
        have hfirst : first = receipt := eq_of_key (hkept hs).receipts
          (mem_of_find?_eq_some hfound) (hgrown.subset hreceipt) (Prod.ext
            (hgraph'.trans hgraph) (Prod.ext (hattempt'.trans hattempt)
              (hsubmission'.trans hsubmission)))
        rw [standingVerdict, hfound, hfirst]
        rfl
    obtain ⟨-, ⟨hanswer, rfl⟩ | ⟨hnone, -⟩⟩ := commitAccepted_ok hcommit
    · exact ⟨rfl, Option.some.inj (hanswer.symm.trans hstanding)⟩
    · cases hstanding.symm.trans hnone

end

def doneBatch : GraphAcceptanceBatch :=
  { receipt := { graphId := "g", attemptId := "A#1", submissionId := "s", planRevision := "v",
                 proposalDigest := "d", decision := .accepted, committedAt := 5 }
    acceptedEvent := some { graphId := "g", attemptId := "A#1", submissionId := "s",
                            planRevision := "v", outcomeId := "done", acceptedAt := 5 }
    acceptedResult := none
    effects := [] }

theorem settled_once_done : ∃ s : GraphStore, s.receipts = [doneBatch.receipt] ∧ s.SettledOnce := by
  have hlands : (commitAccepted doneBatch .empty).toOption.map (·.2.receipts) =
      some [doneBatch.receipt] := by decide +kernel
  cases hcommit : commitAccepted doneBatch .empty with
  | error failure =>
    rw [hcommit] at hlands
    cases hlands
  | ok done =>
    rw [hcommit] at hlands
    exact ⟨done.2, Option.some.inj hlands, (settled_once (.single (.batch hcommit))).1⟩

end Rolebox.Graph
