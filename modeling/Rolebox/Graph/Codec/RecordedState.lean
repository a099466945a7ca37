import Rolebox.Graph.Codec.RecordedLoops
import Rolebox.Graph.PhaseLaw

/-! What every reachable state records, its stop included, in the terms the reader checks. -/

namespace Rolebox.Graph
open General List Option

structure StoppedBy (state : OutcomeGraphState) (group : CompiledLoopGroup)
    (nodeId outcomeId attemptId : String) : Prop where
  member : nodeId ∈ group.nodes
  continuation : group.continuationOutcome = outcomeId
  settled : settlementOf state.nodes nodeId = some (outcomeId, attemptId)

structure ExhaustedRecorded (plan : CompiledPlan) (state : OutcomeGraphState)
    (stop : OutcomeLoopExhaustedStop) (group : CompiledLoopGroup) : Prop where
  mem : group ∈ plan.loopGroups
  id : stop.loopGroupId = group.id
  cap : stop.maxTraversals = group.maxTraversals
  traversals : stop.traversals = group.maxTraversals
  recorded : recordedTraversals state.loopTraversals group.id = group.maxTraversals
  stopped : StoppedBy state group stop.nodeId stop.outcomeId stop.attemptId
  stoppedAt : stop.stoppedAt ≤ maxSafeInteger

structure StalledRecorded (plan : CompiledPlan) (state : OutcomeGraphState)
    (stop : OutcomeProgressStalledStop) (group : CompiledLoopGroup)
    (policy : CompiledProgressPolicy) (entry : OutcomeLoopProgress) : Prop where
  mem : group ∈ plan.loopGroups
  id : stop.loopGroupId = group.id
  declares : group.progress = some policy
  own : state.loopProgress.own? group.id = some entry
  threshold : stop.maxUnchanged = policy.maxUnchanged
  unchanged : stop.unchanged = entry.unchanged ∧ entry.unchanged = policy.maxUnchanged
  evaluator : stop.evaluator = entry.evaluator
  version : stop.evaluatorVersion = entry.version
  subject : stop.subject = entry.subject
  baseline : entry.baseline = some stop.baseline
  stopped : StoppedBy state group stop.nodeId stop.outcomeId stop.attemptId
  stoppedAt : stop.stoppedAt ≤ maxSafeInteger

structure StrandedRecorded (plan : CompiledPlan) (state : OutcomeGraphState)
    (stop : OutcomeUnreachablePendingNodeStop) : Prop where
  blocked : stop.blockedNodes = unsatisfiablePendingNodes plan state.nodes
  flightless : ∀ entry ∈ state.nodes, entry.status ≠ .dispatched
  stoppedAt : stop.stoppedAt ≤ maxSafeInteger

def StopRecorded (plan : CompiledPlan) (state : OutcomeGraphState) : OutcomeStop → Prop
  | .loopExhausted stop => ∃ group, ExhaustedRecorded plan state stop group
  | .progressStalled stop => ∃ group policy entry,
      StalledRecorded plan state stop group policy entry
  | .unreachablePendingNode stop => StrandedRecorded plan state stop

structure StateRecorded (plan : CompiledPlan) (state : OutcomeGraphState) : Prop where
  entries : EntriesReadable state.attemptSeq state.nodes
  arrivals : CanonicalArrivals plan state.nodes
  counters : CountersRecorded plan state.loopTraversals
  declared : ProgressDeclared plan state.loopProgress
  complete : ProgressComplete plan state.loopProgress
  unstalled : (∀ stop, state.stop = some stop → stop.isStalled = false) →
    Unstalled plan state.loopProgress
  stop : ∀ stop, state.stop = some stop → StopRecorded plan state stop
  phase : state.phase = .stopped ↔ state.stop ≠ none

section Routing
variable {plan : CompiledPlan} {state : OutcomeGraphState} {context : AdvanceContext}
  {decision : AcceptedDecision}

structure RoutedRecorded (plan : CompiledPlan) (decision : AcceptedDecision) (now : Nat)
    (routed : Routed) : Prop where
  counters : CountersRecorded plan routed.loopTraversals
  declared : ProgressDeclared plan routed.loopProgress
  complete : ProgressComplete plan routed.loopProgress
  unstalled : (∀ stop, routed.stop = some stop → stop.isStalled = false) →
    Unstalled plan routed.loopProgress
  stop : ∀ stop, routed.stop = some stop →
    (∃ bound ∈ continuationGroups plan decision.nodeId decision.outcomeId,
      recordedTraversals routed.loopTraversals bound.id = bound.maxTraversals ∧
      stop = .loopExhausted
        { loopGroupId := bound.id
          nodeId := decision.nodeId
          outcomeId := decision.outcomeId
          attemptId := decision.identity.attemptId
          traversals := bound.maxTraversals
          maxTraversals := bound.maxTraversals
          stoppedAt := now }) ∨
    ∃ stalled group policy entry, stop = .progressStalled stalled ∧
      StalledAt plan decision now
        (continuationGroups plan decision.nodeId decision.outcomeId)
        routed.loopProgress stalled group policy entry

theorem routeSettled_recorded (hwf : plan.WellFormed) (hnamed : NamedPolicies plan)
    (hc : WellFormedContext context) (hs : StateRecorded plan state) (hlive : state.stop = none)
    {nodes : List OutcomeNodeState} {routed : Routed}
    (h : routeSettled plan state context decision nodes = .ok routed) :
    RoutedRecorded plan decision context.now routed := by
  have hlow := hs.unstalled fun stop hstop => by
    rw [hlive] at hstop
    cases hstop
  unfold routeSettled at h
  split at h
  · cases h
    exact ⟨hs.counters, hs.declared, hs.complete, fun _ => hlow, fun _ hstop => by cases hstop⟩
  · have hsub : ∀ group ∈ continuationGroups plan decision.nodeId
        decision.outcomeId, group ∈ plan.loopGroups := fun group hg =>
      (continuationGroups_sublist _ _).subset hg
    have hnodup : ((continuationGroups plan decision.nodeId
        decision.outcomeId).map (·.id)).Nodup :=
      hwf.groupIds_nodup.sublist ((continuationGroups_sublist _ _).map _)
    obtain ⟨-, counted, measured, armed, hcounted, hmeasured, -, hrouted⟩ := routeOutcome_ok.1 h
    have hcounters := countOutcome_recorded hwf.groupIds_nodup hsub hs.counters decision
      context.now
    rw [hcounted] at hcounters
    rw [hrouted]
    unfold measureUnlessStopped at hmeasured
    cases hcap : counted.2 with
    | some stop =>
      rw [hcap] at hmeasured
      cases hmeasured
      obtain ⟨hkept, bound, hbound, hreached, hstop⟩ :=
        countOutcome_exhausted hnodup hs.counters (hcounted ▸ hcap)
      rw [hcounted] at hkept
      have hrecorded := hs.counters.recorded (hsub bound hbound)
        (hwf.group_cap bound (hsub bound hbound)).1 hreached
      refine ⟨hcounters, hs.declared, hs.complete, fun _ => hlow, fun given hgiven => .inl ?_⟩
      simp only [some_or, some.injEq] at hgiven
      refine ⟨bound, hbound, ?_, ?_⟩
      · simp only [hkept]
        exact hrecorded
      · rw [← hgiven, hstop, hrecorded]
    | none =>
      rw [hcap] at hmeasured
      have hfrom := measureProgress_recorded hwf hnamed hc.projections hs.declared hs.complete
        hlow hsub hmeasured
      refine ⟨hcounters, hfrom.declared, hfrom.complete, fun hno => ?_, fun given hgiven =>
        .inr ?_⟩
      · refine hfrom.unstalled ?_
        cases hstop : measured.stop with
        | none => rfl
        | some stalled =>
          have hkind := hno (.progressStalled stalled) (by simp [hstop])
          cases hkind
      · simp only [none_or, map_eq_some_iff] at hgiven
        obtain ⟨stalled, hstalled, rfl⟩ := hgiven
        obtain ⟨group, policy, entry, projection, -, -, hat⟩ := hfrom.stopped stalled hstalled
        exact ⟨stalled, group, policy, _, rfl, hat⟩

end Routing

section Closing
variable {plan : CompiledPlan} {state state' : OutcomeGraphState} {context : AdvanceContext}
  {decision : AcceptedDecision}

theorem advance_settles (hnodup : plan.nodeIds.Nodup) {advance : OutcomeAdvance}
    {routed : Routed} {position : Nat} {current : OutcomeNodeState} {facts : DispatchFacts}
    (hentry : dispatchedEntry plan state decision = .ok (position, current, facts))
    (hstep : Forall₂ (AdvanceStep plan context decision facts
      (routedTargets plan decision routed) state.attemptSeq routed.attemptSeq)
      state.nodes advance.state.nodes)
    (halign : Aligned plan advance.state.nodes) (hstop : routed.stop.isSome) :
    settlementOf advance.state.nodes decision.nodeId =
      some (decision.outcomeId, decision.identity.attemptId) := by
  obtain ⟨-, -, -, hcurrent, hid, -, hattempt⟩ := dispatchedEntry_ok.1 hentry
  obtain ⟨after, hafter, hone⟩ := forall₂_getElem? hstep hcurrent
  have hnone : routedTargets plan decision routed = [] := if_pos (.inr hstop)
  have hsettled : after.progress = .settled facts decision.outcomeId context.now := by
    rcases hone.progress with ⟨hne, -⟩ | ⟨-, hp⟩ | ⟨htarget, -⟩
    · exact absurd hid hne
    · exact hp
    · rw [hnone] at htarget
      cases htarget
  refine settlementOf_eq_some.2 ⟨after, facts, context.now, ?_, hsettled, hattempt⟩
  rw [← hid, ← hone.nodeId]
  exact halign.entryOf_mem hnodup (mem_of_getElem? hafter)

theorem StateRecorded.start (hwf : plan.WellFormed) (hnamed : NamedPolicies plan)
    (h : Starts WellFormedContext plan state) : StateRecorded plan state := by
  have hentries := h.entriesReadable hwf
  obtain ⟨context, fromAttemptSeq, dispatches, hc, hstart⟩ := h
  obtain ⟨-, -, hall, hstate⟩ := start_entries hstart
  obtain ⟨hdeclared, hlow, hcomplete⟩ := startProgress_recorded hwf hnamed
  have hunsettled : ∀ entry ∈ state.nodes, entry.status ≠ .settled := by
    intro entry hentry hsettled
    obtain ⟨node, -, hs⟩ := forall₂_exists_left hall hentry
    unfold OutcomeNodeState.status at hsettled
    rcases hs.progress with ⟨-, facts, hf, -⟩ | ⟨-, hp⟩
    · rw [hf] at hsettled
      cases hsettled
    · rw [hp] at hsettled
      cases hsettled
  have harrivals : CanonicalArrivals plan state.nodes := by
    intro entry hentry
    obtain ⟨node, -, hs⟩ := forall₂_exists_left hall hentry
    rw [materializeArrivals_eq_nil _ hunsettled]
    exact hs.arrivals
  rw [hstate] at hentries harrivals ⊢
  refine ⟨hentries, harrivals, ⟨rfl, fun _ _ hown => ?_, fun _ _ _ hown => ?_⟩, hdeclared,
    hcomplete, fun _ => hlow, fun _ hstop => ?_, ?_⟩
  · cases hown
  · cases hown
  · cases hstop
  · simp [startState]

theorem StateRecorded.advance (hwf : plan.WellFormed) (hnamed : NamedPolicies plan)
    (hinv : StateInvariant plan state) (hs : StateRecorded plan state) {submission : Submission}
    (h : Advances WellFormedContext plan state submission state') : StateRecorded plan state' := by
  have hentries := hs.entries.advance hwf hinv h
  have hafter := hinv.advance hwf.nodeIds_nodup h
  obtain ⟨hc, -, advance, hadv, rfl⟩ := h
  obtain ⟨position, current, facts, routed, hentry, hroute, hclose, -, hstep⟩ :=
    advance_entries hwf.nodeIds_nodup hinv.aligned hinv.named hadv
  obtain ⟨-, hlive, -⟩ := dispatchedEntry_ok.1 hentry
  have hrouted := routeSettled_recorded hwf hnamed hc hs hlive hroute
  have hsettles := advance_settles hwf.nodeIds_nodup hentry hstep hafter.aligned
  rw [hclose] at hentries hsettles ⊢
  have hstopped : (closeState plan state submission.context.now routed).stop =
      closingStop plan (canonicalNodes plan routed.nodes)
        submission.context.now routed.stop := rfl
  refine ⟨hentries, canonicalNodes_canonical _ _, hrouted.counters, hrouted.declared,
    hrouted.complete, fun hno => hrouted.unstalled fun stop hstop => hno stop ?_, fun stop hstop =>
    ?_, phaseOf_stopped⟩
  · rw [hstopped, closingStop_of_isSome (isSome_iff_exists.2 ⟨stop, hstop⟩)]
    exact hstop
  · rw [hstopped] at hstop
    cases hdecided : routed.stop with
    | none =>
      rw [hdecided] at hstop
      obtain ⟨hflight, rfl⟩ := closingStop_stranded hstop
      exact ⟨rfl, hflight, hc.now⟩
    | some decided =>
      have hsome : routed.stop.isSome := isSome_iff_exists.2 ⟨decided, hdecided⟩
      rw [closingStop_of_isSome hsome, hdecided] at hstop
      cases hstop
      have hsettled := hsettles hsome
      rcases hrouted.stop stop hdecided with
        ⟨bound, hbound, hrecorded, rfl⟩ | ⟨stalled, group, policy, entry, rfl, hat⟩
      · obtain ⟨hmem, hdoes⟩ := mem_filter.1 hbound
        obtain ⟨hcontinues, hmember⟩ := of_decide_eq_true hdoes
        exact ⟨bound, hmem, rfl, rfl, rfl, hrecorded, ⟨hmember, hcontinues, hsettled⟩, hc.now⟩
      · obtain ⟨hmem, hdoes⟩ := mem_filter.1 hat.mem
        obtain ⟨hcontinues, hmember⟩ := of_decide_eq_true hdoes
        have hstates := hat.states
        refine ⟨group, policy, entry, hmem, ?_, hat.declares, hat.own, ?_, ⟨?_, hat.reached⟩, ?_,
          ?_, ?_, hat.baseline, ⟨?_, ?_, ?_⟩, ?_⟩
        all_goals rw [hstates]
        · exact hmember
        · exact hcontinues
        · exact hsettled
        · exact hc.now

theorem ReachableState.recorded (hwf : plan.WellFormed) (hnamed : NamedPolicies plan)
    (h : ReachableState WellFormedContext plan state) : StateRecorded plan state := by
  refine Reachable.invariant_of_reachable (fun _ hs => StateRecorded.start hwf hnamed hs) ?_ h
  intro _ _ _ hreach hs hst
  exact hs.advance hwf hnamed (ReachableState.invariant hwf.nodeIds_nodup hreach) hst

end Closing

end Rolebox.Graph
