import Rolebox.Graph.Codec.RoundTrip
import Rolebox.Outcome.Recovery

/-! What a committed re-issue leaves of the persisted state's digests. -/

namespace Rolebox.Graph
open General Transaction List

section ReadBack
variable {plan : CompiledPlan} {layout : OutcomeStateLayout}

def SameAttempt (read written : OutcomeNodeState) : Prop :=
  ∀ facts, read.progress = .dispatched facts → ∃ facts', written.progress = .dispatched facts' ∧
    facts'.attemptId = facts.attemptId ∧
    facts'.attemptCredentialDigest = facts.attemptCredentialDigest

theorem readDispatchFacts_written {written : OutcomeNodeState} {facts' facts : DispatchFacts}
    (hwritten : written.progress = .dispatched facts') {status : OutcomeNodeStatus} {place : String}
    {identity : Option HostInvocationIdentity} {inputs : Option (List ResolvedInput)}
    {dispatchedAt : Option Nat}
    (h : readDispatchFacts layout written.json status place identity inputs dispatchedAt =
      .ok facts) :
    facts'.attemptId = facts.attemptId ∧
      facts'.attemptCredentialDigest = facts.attemptCredentialDigest := by
  obtain ⟨hattempt, -, hdigest, -⟩ := entryJson_facts written
  have hfacts : written.progress.facts? = some facts' := by rw [hwritten]; rfl
  rw [hfacts] at hattempt hdigest
  unfold readDispatchFacts at h
  split at h
  · cases h
  next attemptId hid =>
  split at h
  · cases h
  split at h
  · cases h
  next digest hread =>
  split at h
  · cases h
  cases h
  have hid' : (Json.str facts'.attemptId).text? = some attemptId := by
    rw [hattempt] at hid
    exact hid
  have hread' : (Json.str facts'.attemptCredentialDigest).str? = some digest := by
    rw [hdigest] at hread
    exact (Option.filter_eq_some_iff.1 hread).1
  exact ⟨Option.some.inj (Option.filter_eq_some_iff.1 hid').1, Option.some.inj hread'⟩

theorem readNodeState_written {written read : OutcomeNodeState} {node : CompiledNode} {index : Nat}
    (h : readNodeState plan layout written.json node index = .ok read) :
    SameAttempt read written := by
  unfold readNodeState at h
  simp only [bind_eq_ok] at h
  obtain ⟨_, -, _, -, status, hstatus, _, -, identity, -, inputs, -, _, -, dispatchedAt, -,
    settledAt, -, _, -, progress, hprogress, h⟩ := h
  cases h
  rw [readStatus_json] at hstatus
  cases hstatus
  intro facts hfacts
  have hread : progress = .dispatched facts := hfacts
  unfold readProgress at hprogress
  cases hwritten : written.progress with
  | pending =>
    simp only [OutcomeNodeState.status, hwritten, NodeProgress.status_pending] at hprogress
    cases hprogress
    cases hread
  | dispatched facts' =>
    simp only [OutcomeNodeState.status, hwritten, NodeProgress.status_dispatched,
      bind_eq_ok] at hprogress
    obtain ⟨c, hfacts', hdone⟩ := hprogress
    cases hdone
    cases hread
    exact ⟨facts', rfl, readDispatchFacts_written hwritten hfacts'⟩
  | settled facts' outcomeId time =>
    simp only [OutcomeNodeState.status, hwritten, NodeProgress.status_settled,
      bind_eq_ok] at hprogress
    obtain ⟨c, -, settlement, -, hdone⟩ := hprogress
    cases hdone
    cases hread

theorem readNodeStates_written {nodes : List CompiledNode} {written read : List OutcomeNodeState}
    {index : Nat}
    (h : readNodeStates plan layout index nodes (written.map OutcomeNodeState.json) = .ok read)
    {i : Nat} {entry : OutcomeNodeState} (hentry : read[i]? = some entry) :
    ∃ entry', written[i]? = some entry' ∧ SameAttempt entry entry' := by
  induction nodes generalizing written read index i with
  | nil =>
    cases h
    cases hentry
  | cons node nodes ih =>
    cases written with
    | nil =>
      cases h
      cases hentry
    | cons head rest =>
      rw [map_cons, readNodeStates] at h
      simp only [bind_eq_ok] at h
      obtain ⟨first, hfirst, others, hothers, h⟩ := h
      cases h
      cases i with
      | zero =>
        cases hentry
        exact ⟨head, rfl, readNodeState_written hfirst⟩
      | succ i => exact ih hothers hentry

theorem readOutcomeGraphState_written {written read : OutcomeGraphState} {updatedAt : Nat}
    {registry : OutcomeStateBodyRegistry}
    (h : readOutcomeGraphState plan (stateRecordOf written updatedAt) registry = .ok read) {i : Nat}
    {entry : OutcomeNodeState} (hentry : read.nodes[i]? = some entry) :
    ∃ entry', written.nodes[i]? = some entry' ∧ SameAttempt entry entry' := by
  have hnodes := (stateJson_fields written).2.2.2.2.1
  obtain ⟨layout, h⟩ : ∃ layout, readStateBody plan layout written.json = .ok read := by
    unfold readOutcomeGraphState stateRecordOf at h
    cases hclass : classifyOutcomeStateBody (written.json.field? "bodyVersion") registry with
    | invalid value | unsupported version =>
      simp only [hclass] at h
      split at h
      · cases h
      split at h <;> cases h
    | supported layout =>
      simp only [hclass] at h
      split at h
      · cases h
      split at h
      · cases h
      exact ⟨layout, h⟩
  unfold readStateBody at h
  simp only [bind_eq_ok] at h
  obtain ⟨_, -, _, -, _, -, _, -, _, -, _, -, nodes, hread, _, -, _, -, _, -, _, -, _, -, h⟩ := h
  cases h
  rw [hnodes] at hread
  unfold readNodes at hread
  simp only [Option.bind_some, Json.arr?_arr] at hread
  split at hread
  · next items hitems =>
    cases (Option.filter_eq_some_iff.1 hitems).1
    exact readNodeStates_written hread hentry
  · cases hread

end ReadBack

section Recorded
variable (plan : CompiledPlan)

def recordedDigest (row : Option GraphStateRecord) (nodeId attemptId : String) : Option String := do
  let record ← row
  let state ← (readOutcomeGraphState plan record DEFAULT_OUTCOME_STATE_BODY_REGISTRY).toOption
  let (_, _, facts) ← (reissueTarget plan state nodeId attemptId).toOption
  return facts.attemptCredentialDigest

variable {plan} {row : Option GraphStateRecord} {nodeId attemptId : String}

theorem reissueTarget_ok {state : OutcomeGraphState} {position : Nat} {current : OutcomeNodeState}
    {facts : DispatchFacts} :
    reissueTarget plan state nodeId attemptId = .ok (position, current, facts) ↔
      position = plan.nodes.findIdx (·.id = nodeId) ∧ state.nodes[position]? = some current ∧
        current.progress = .dispatched facts ∧ facts.attemptId = attemptId := by
  unfold reissueTarget
  simp only
  constructor
  · intro h
    split at h
    · cases h
    next entry hentry =>
    obtain ⟨hmem, hattempt⟩ := Option.filter_eq_some_iff.1 hentry
    split at h
    · next facts' hprogress =>
      cases h
      refine ⟨rfl, hmem, hprogress, ?_⟩
      unfold OutcomeNodeState.attemptId? at hattempt
      rw [hprogress] at hattempt
      exact Option.some.inj (of_decide_eq_true hattempt)
    · cases h
  · rintro ⟨rfl, hmem, hprogress, rfl⟩
    have hattempt : current.attemptId? = some facts.attemptId := by
      unfold OutcomeNodeState.attemptId?
      rw [hprogress]
      rfl
    rw [hmem, Option.filter_some, if_pos (decide_eq_true hattempt)]
    simp only [hprogress]

theorem recordedDigest_some {digest : String} :
    recordedDigest plan row nodeId attemptId = some digest ↔
      ∃ record state position current facts, row = some record ∧
        readOutcomeGraphState plan record DEFAULT_OUTCOME_STATE_BODY_REGISTRY = .ok state ∧
        reissueTarget plan state nodeId attemptId = .ok (position, current, facts) ∧
        facts.attemptCredentialDigest = digest := by
  unfold recordedDigest
  constructor
  · intro h
    obtain ⟨record, hrow, h⟩ := Option.bind_eq_some_iff.1 h
    obtain ⟨state, hstate, h⟩ := Option.bind_eq_some_iff.1 h
    obtain ⟨⟨position, current, facts⟩, htarget, h⟩ := Option.bind_eq_some_iff.1 h
    refine ⟨record, state, position, current, facts, hrow, ?_, ?_, Option.some.inj h⟩
    · cases hread : readOutcomeGraphState plan record DEFAULT_OUTCOME_STATE_BODY_REGISTRY with
      | error error =>
        rw [hread] at hstate
        cases hstate
      | ok read =>
        rw [hread] at hstate
        cases hstate
        rfl
    · cases hread : reissueTarget plan state nodeId attemptId with
      | error error =>
        rw [hread] at htarget
        cases htarget
      | ok read =>
        rw [hread] at htarget
        cases htarget
        rfl
  · rintro ⟨record, state, position, current, facts, rfl, hstate, htarget, rfl⟩
    simp only [Option.bind_eq_bind, Option.bind_some, hstate, htarget, Except.toOption]
    rfl

structure Reissued (plan : CompiledPlan) (attemptCredentialDigest : String → String)
    (credentialSource : AttemptCredentialBinding → Except String String) (nodeId attemptId : String)
    (now : Nat) (observedDigest minted : String) (row row' : Option GraphStateRecord) : Prop where
  minted_from : credentialSource
    (attemptCredentialBinding plan.graphId nodeId attemptId plan.planRevision) = .ok minted
  written : ∃ record state position current facts, row = some record ∧
    readOutcomeGraphState plan record DEFAULT_OUTCOME_STATE_BODY_REGISTRY = .ok state ∧
    reissueTarget plan state nodeId attemptId = .ok (position, current, facts) ∧
    facts.attemptCredentialDigest = observedDigest ∧
    row' = some (stateRecordOf
      { state with
        nodes := state.nodes.set position
          { current with
            progress := .dispatched
              { facts with attemptCredentialDigest := attemptCredentialDigest minted } } } now)

variable {attemptCredentialDigest : String → String}
  {credentialSource : AttemptCredentialBinding → Except String String} {now : Nat}
  {observedDigest minted : String} {row' : Option GraphStateRecord}

theorem reissueInTransaction_ok {answer : Except OutcomeRuntimeRefusal String}
    (h : reissueInTransaction plan attemptCredentialDigest credentialSource nodeId attemptId now
      observedDigest row = .ok (answer, row')) :
    (row' = row ∧ ∃ refusal, answer = .error refusal) ∨
      ∃ minted, answer = .ok minted ∧ Reissued plan attemptCredentialDigest
        credentialSource nodeId attemptId now observedDigest minted row row' := by
  unfold reissueInTransaction at h
  rw [get_bind] at h
  cases row with
  | none =>
    simp only [throw_ok] at h
  | some record =>
    simp only [bind_ok, ofExcept_ok, ite_ok, throw_ok, and_false, false_or, set_bind, pure_ok] at h
    obtain ⟨state, _, ⟨hread, rfl⟩, -, ⟨position, current, facts⟩, _, ⟨htarget, rfl⟩, h⟩ := h
    rcases h with ⟨-, rfl, rfl⟩ | ⟨hdigest, minted, _, ⟨hminted, rfl⟩, rfl, rfl⟩
    · exact .inl ⟨rfl, _, rfl⟩
    · refine .inr ⟨minted, rfl, mapError_eq_ok.1 hminted, ?_⟩
      exact ⟨record, state, position, current, facts, rfl, mapError_eq_ok.1 hread, htarget,
        not_not.1 hdigest, rfl⟩

theorem replaceAttemptCredential_cases :
    ((replaceAttemptCredential plan attemptCredentialDigest credentialSource nodeId attemptId now
        observedDigest row).2 = row ∧
      ∃ refusal, (replaceAttemptCredential plan attemptCredentialDigest credentialSource nodeId
        attemptId now observedDigest row).1 = .error refusal) ∨
    ∃ minted, (replaceAttemptCredential plan attemptCredentialDigest credentialSource nodeId
        attemptId now observedDigest row).1 = .ok minted ∧
      Reissued plan attemptCredentialDigest credentialSource nodeId attemptId now observedDigest
        minted row (replaceAttemptCredential plan attemptCredentialDigest credentialSource nodeId
          attemptId now observedDigest row).2 := by
  unfold replaceAttemptCredential
  cases h : reissueInTransaction plan attemptCredentialDigest credentialSource nodeId attemptId now
      observedDigest row with
  | ok answered => exact reissueInTransaction_ok h
  | error failure =>
    left
    cases failure with
    | advanceRefused code message => exact ⟨rfl, _, rfl⟩
    | state error => exact ⟨rfl, _, rfl⟩
    | failed => exact ⟨rfl, _, rfl⟩

section

variable (h : Reissued plan attemptCredentialDigest credentialSource nodeId attemptId now observedDigest minted row row')
include h

theorem Reissued.observed : recordedDigest plan row nodeId attemptId = some observedDigest := by
  obtain ⟨record, state, position, current, facts, hrow, hread, htarget, hdigest, -⟩ := h.written
  exact recordedDigest_some.2
    ⟨record, state, position, current, facts, hrow, hread, htarget, hdigest⟩

theorem Reissued.recorded {nodeId' attemptId' digest : String}
    (hrecorded : recordedDigest plan row' nodeId' attemptId' = some digest) :
    digest = attemptCredentialDigest minted ∨
      recordedDigest plan row nodeId' attemptId' = some digest ∧
        (nodeId', attemptId') ≠ (nodeId, attemptId) := by
  obtain ⟨record, state, position, current, facts, rfl, hread, htarget, -, rfl⟩ := h.written
  obtain ⟨_, read, position', current', facts', hrow, hread', htarget', rfl⟩ :=
    recordedDigest_some.1 hrecorded
  cases hrow
  obtain ⟨hposition, hcurrent, hprogress, hattempt⟩ := reissueTarget_ok.1 htarget
  obtain ⟨hposition', hcurrent', hprogress', hattempt'⟩ := reissueTarget_ok.1 htarget'
  obtain ⟨entry, hentry, hsame⟩ := readOutcomeGraphState_written hread' hcurrent'
  obtain ⟨written, hwritten, hid, hdigest⟩ := hsame facts' hprogress'
  rw [getElem?_set] at hentry
  split at hentry
  · split at hentry
    · cases hentry
      cases hwritten
      exact .inl hdigest.symm
    · cases hentry
  · next hne =>
    refine .inr ⟨?_, ?_⟩
    · refine recordedDigest_some.2 ⟨record, state, position', entry, written, rfl, hread, ?_, hdigest⟩
      exact reissueTarget_ok.2 ⟨hposition', hentry, hwritten, hid.trans hattempt'⟩
    · intro heq
      obtain ⟨rfl, -⟩ := Prod.mk.inj heq
      exact hne (hposition.trans hposition'.symm)

end

end Recorded
end Rolebox.Graph
