import Rolebox.Graph.ArmSafety

/-! What the stop of a run says of its stranded nodes, and when it is right. -/

namespace Rolebox.Graph
open General List Option

def CanArrive (plan : CompiledPlan) (state : OutcomeGraphState) (source targetId : String) : Prop :=
  ∃ submissions state', Run (Advances AnyContext plan) state submissions state' ∧
    source ∈ (materializeArrivals plan state'.nodes [] targetId).map (·.from)

def CanJoin (plan : CompiledPlan) (state : OutcomeGraphState) (node : CompiledNode) : Prop :=
  ∃ submissions state', Run (Advances AnyContext plan) state submissions state' ∧
    joinHolds plan state'.nodes node [] = true

/-- The stop names the nodes whose join no continuation satisfies, with the feeders lost. -/
structure StopAttributed (plan : CompiledPlan) (state : OutcomeGraphState)
    (stop : OutcomeUnreachablePendingNodeStop) : Prop where
  named : ∀ nodeId, nodeId ∈ stop.blockedNodes.keys ↔ ∃ node ∈ plan.nodes, node.id = nodeId ∧
    statusOf state.nodes node.id = some .pending ∧ ¬ CanJoin plan state node
  feeders : ∀ nodeId feeders, stop.blockedNodes.own? nodeId = some feeders → ∀ source,
    source ∈ feeders ↔ source ∈ plan.feederSourcesOf nodeId ∧ ¬ CanArrive plan state source nodeId

/-- No feeder of a pending node has arrived; a pending node named `__proto__` has its join. -/
def UnheardPending (plan : JoinTopology) (nodes : List OutcomeNodeState) : Prop :=
  ∀ node ∈ plan.nodes, statusOf nodes node.id = some .pending →
    if node.id = "__proto__" then joinHolds plan nodes node [] = true
    else ∀ source ∈ plan.feederSourcesOf node.id,
      source ∉ (materializeArrivals plan nodes [] node.id).map (·.from)

instance (plan : JoinTopology) (nodes : List OutcomeNodeState) :
    Decidable (UnheardPending plan nodes) :=
  inferInstanceAs (Decidable (∀ node ∈ plan.nodes, statusOf nodes node.id = some .pending →
    if node.id = "__proto__" then joinHolds plan nodes node [] = true
    else ∀ source ∈ plan.feederSourcesOf node.id,
      source ∉ (materializeArrivals plan nodes [] node.id).map (·.from)))

section Stopped
variable {plan : CompiledPlan} {state : OutcomeGraphState}
  {stop : OutcomeUnreachablePendingNodeStop}

theorem canArrive_iff (hstop : state.stop ≠ none) {source targetId : String} :
    CanArrive plan state source targetId ↔
      source ∈ (materializeArrivals plan state.nodes [] targetId).map (·.from) := by
  constructor
  · rintro ⟨submissions, state', hrun, hsource⟩
    obtain ⟨-, rfl⟩ := stopped_run hstop hrun
    exact hsource
  · intro hsource
    exact ⟨[], state, .nil state, hsource⟩

theorem canJoin_iff (hstop : state.stop ≠ none) {node : CompiledNode} :
    CanJoin plan state node ↔ joinHolds plan state.nodes node [] = true := by
  constructor
  · rintro ⟨submissions, state', hrun, hjoin⟩
    obtain ⟨-, rfl⟩ := stopped_run hstop hrun
    exact hjoin
  · intro hjoin
    exact ⟨[], state, .nil state, hjoin⟩

theorem joinHolds_unheard {nodes : List OutcomeNodeState} {node : CompiledNode}
    (hfed : plan.feederSourcesOf node.id ≠ [])
    (hunheard : ∀ source ∈ plan.feederSourcesOf node.id,
      source ∉ (materializeArrivals plan nodes [] node.id).map (·.from)) :
    joinHolds plan nodes node [] = false :=
  joinSatisfiedBy_unheard hfed hunheard

/-- The naming is right exactly when no feeder of a stranded node has arrived. -/
theorem stopAttributed_iff (hnodup : plan.nodeIds.Nodup) (hs : StateInvariant plan state)
    (hstop : state.stop ≠ none) (hflight : ∀ entry ∈ state.nodes, entry.status ≠ .dispatched)
    (hblocked : stop.blockedNodes = unsatisfiablePendingNodes plan state.nodes) :
    StopAttributed plan state stop ↔ UnheardPending plan state.nodes := by
  have hno : ∀ node ∈ plan.nodes, statusOf state.nodes node.id ≠ some .dispatched := by
    intro node hnode hdispatched
    obtain ⟨entry, he, hst⟩ :=
      (hs.aligned.exists_status hnodup .dispatched).1 ⟨node, hnode, hdispatched⟩
    exact hflight entry he hst
  have hfed : ∀ node ∈ plan.nodes, statusOf state.nodes node.id = some .pending →
      plan.feederSourcesOf node.id ≠ [] := by
    intro node hnode hpending hnil
    obtain ⟨entry, he, hid⟩ := hs.aligned.exists_entry hnode
    have hat : entry.status = .pending := by
      rw [← hid, statusOf, hs.aligned.entryOf_mem hnodup he] at hpending
      exact Option.some.inj hpending
    refine hs.entryStarted entry he (status_of_progress.1 hat) ?_
    rw [hid]
    exact List.mem_map_of_mem ((JoinTopology.feederSourcesOf_eq_nil hnode).1 hnil)
  have hkeys : ∀ nodeId, nodeId ∈ stop.blockedNodes.keys ↔ nodeId ≠ "__proto__" ∧
      ∃ node ∈ plan.nodes, node.id = nodeId ∧ statusOf state.nodes node.id = some .pending := by
    intro nodeId
    rw [hblocked, unsatisfiablePendingNodes, PlainObject.mem_keys_build hnodup]
    refine and_congr_right fun _ => ⟨?_, ?_⟩
    · rintro ⟨node, hnode, ⟨hpending, -⟩, hid⟩
      exact ⟨node, hnode, hid, hpending⟩
    · rintro ⟨node, hnode, hid, hpending⟩
      refine ⟨node, hnode, ⟨hpending, ?_⟩, hid⟩
      rw [lostFeeders_eq hno]
      exact hfed node hnode hpending
  have hown : ∀ node ∈ plan.nodes, statusOf state.nodes node.id = some .pending →
      node.id ≠ "__proto__" →
      stop.blockedNodes.own? node.id = some (plan.feederSourcesOf node.id) := by
    intro node hnode hpending hname
    have hlost : lostFeeders plan state.nodes node.id ≠ [] := by
      rw [lostFeeders_eq hno]
      exact hfed node hnode hpending
    rw [hblocked, unsatisfiablePendingNodes,
      PlainObject.own?_build_mem hnodup hnode ⟨hpending, hlost⟩ hname, lostFeeders_eq hno]
  constructor
  · intro h node hnode hpending
    split
    · next hproto =>
      by_contra hjoin
      have hstranded : node.id ∈ stop.blockedNodes.keys := by
        refine (h.named node.id).2 ⟨node, hnode, rfl, hpending, ?_⟩
        rw [canJoin_iff hstop]
        exact hjoin
      exact ((hkeys node.id).1 hstranded).1 hproto
    · next hname =>
      intro source hsource
      have hlisted := (h.feeders node.id _ (hown node hnode hpending hname) source).1 hsource
      rw [canArrive_iff hstop] at hlisted
      exact hlisted.2
  · intro h
    constructor
    · intro nodeId
      rw [hkeys nodeId]
      constructor
      · rintro ⟨hname, node, hnode, rfl, hpending⟩
        refine ⟨node, hnode, rfl, hpending, ?_⟩
        have hunheard := h node hnode hpending
        rw [if_neg hname] at hunheard
        rw [canJoin_iff hstop, joinHolds_unheard (hfed node hnode hpending) hunheard]
        exact Bool.false_ne_true
      · rintro ⟨node, hnode, rfl, hpending, hstranded⟩
        refine ⟨fun hproto => hstranded ?_, node, hnode, rfl, hpending⟩
        have hjoined := h node hnode hpending
        rw [if_pos hproto] at hjoined
        exact (canJoin_iff hstop).2 hjoined
    · intro nodeId feeders hfeeders source
      have hin : nodeId ∈ stop.blockedNodes.keys := by
        rw [PlainObject.mem_keys_iff, hfeeders]
        rfl
      obtain ⟨hname, node, hnode, rfl, hpending⟩ := (hkeys nodeId).1 hin
      rw [hown node hnode hpending hname] at hfeeders
      cases hfeeders
      have hunheard := h node hnode hpending
      rw [if_neg hname] at hunheard
      rw [canArrive_iff hstop]
      exact ⟨fun hsource => ⟨hsource, hunheard source hsource⟩, fun hsource => hsource.1⟩

end Stopped

section Stranding
variable {plan : CompiledPlan} {state state' : OutcomeGraphState} {context : AdvanceContext}
  {decision : AcceptedDecision} {advance : OutcomeAdvance}
  {stop : OutcomeUnreachablePendingNodeStop}

theorem routeSettled_stop {nodes : List OutcomeNodeState} {routed : Routed}
    (h : routeSettled plan state context decision nodes = .ok routed) :
    routed.stop ≠ some (.unreachablePendingNode stop) := by
  unfold routeSettled at h
  split at h
  · cases h
    exact nofun
  · obtain ⟨-, counted, measured, armed, hcounted, -, -, rfl⟩ := routeOutcome_ok.1 h
    intro hstop
    rcases or_eq_some_iff.1 hstop with hcap | ⟨-, hstalled⟩
    · rw [← hcounted] at hcap
      unfold countOutcome at hcap
      split at hcap
      · cases hcap
      · split at hcap <;> cases hcap
    · obtain ⟨stalled, -, hkind⟩ := map_eq_some_iff.1 hstalled
      cases hkind

theorem progress_readings {nodes nodes' : List OutcomeNodeState}
    (h : Forall₂ (fun before after : OutcomeNodeState =>
      after.nodeId = before.nodeId ∧ after.progress = before.progress) nodes nodes')
    (nodeId : String) :
    statusOf nodes' nodeId = statusOf nodes nodeId ∧
      settlementOf nodes' nodeId = settlementOf nodes nodeId := by
  have hrel := entryOf_forall₂ h (fun _ _ hone => hone.1) nodeId
  unfold statusOf settlementOf
  generalize entryOf nodes nodeId = found at hrel ⊢
  generalize entryOf nodes' nodeId = found' at hrel ⊢
  cases hrel with
  | none => exact ⟨rfl, rfl⟩
  | some hone =>
    simp only [map_some, OutcomeNodeState.status, hone.2]
    exact ⟨trivial, trivial⟩

theorem stranding_advance (hs : StateInvariant plan state)
    (hadv : advanceOutcomeGraph plan state decision context = .ok advance)
    (hstop : advance.state.stop = some (.unreachablePendingNode stop)) :
    (∀ entry ∈ advance.state.nodes, entry.status ≠ .dispatched) ∧
      stop.blockedNodes = unsatisfiablePendingNodes plan advance.state.nodes ∧
      ∀ nodeId,
        statusOf advance.state.nodes nodeId =
          statusOf (settledNodes plan state decision context.now) nodeId ∧
        settlementOf advance.state.nodes nodeId =
          settlementOf (settledNodes plan state decision context.now) nodeId := by
  obtain ⟨position, current, facts, routed, hd, hr, hclose, -, -⟩ := advanceOutcomeGraph_ok hadv
  obtain ⟨-, -, -, hc, hid, hf, -⟩ := dispatchedEntry_ok.1 hd
  have hsettled : settledNodes plan state decision context.now = state.nodes.set position
      (settleEntry current facts decision.outcomeId context.now) := settledNodes_eq hd
  have halign : Aligned plan (state.nodes.set position
      (settleEntry current facts decision.outcomeId context.now)) := hs.aligned.set hc rfl
  obtain ⟨-, hsteps⟩ :=
    routeSettled_nodes halign (hs.named.set hc hf decision.outcomeId context.now) hr
  rw [← hsettled] at hsteps
  have hopen : routed.stop = none := by
    by_contra hsome
    have hkept : advance.state.stop = routed.stop := by
      rw [hclose]
      exact closingStop_of_isSome (isSome_iff_ne_none.2 hsome)
    exact routeSettled_stop hr (hkept.symm.trans hstop)
  have hclosing : closingStop plan (canonicalNodes plan routed.nodes)
      context.now none = some (.unreachablePendingNode stop) := by
    rw [hclose] at hstop
    rw [← hopen]
    exact hstop
  obtain ⟨hflight, hsame⟩ := closingStop_stranded hclosing
  cases hsame
  have hnodes : advance.state.nodes = canonicalNodes plan routed.nodes := by
    rw [hclose]
    rfl
  rw [hnodes]
  refine ⟨hflight, rfl, progress_readings ?_⟩
  unfold canonicalNodes
  rw [forall₂_map_right_iff]
  refine forall₂_mem_right hsteps fun before after hafter hstep => ⟨hstep.nodeId, ?_⟩
  rcases hstep.progress with hprogress | ⟨-, fresh, hprogress, -⟩
  · exact hprogress
  have hidle := hflight _ (List.mem_map_of_mem hafter)
  unfold OutcomeNodeState.status at hidle
  simp only [hprogress] at hidle
  exact absurd rfl hidle

theorem materializeArrivals_congr {plan : JoinTopology} {nodes nodes' : List OutcomeNodeState}
    (h : ∀ nodeId, settlementOf nodes' nodeId = settlementOf nodes nodeId)
    (suppressed : List String) (targetId : String) :
    materializeArrivals plan nodes' suppressed targetId =
      materializeArrivals plan nodes suppressed targetId := by
  unfold materializeArrivals
  simp only [h]

theorem unheardPending_advance (hs : StateInvariant plan state)
    (hadv : advanceOutcomeGraph plan state decision context = .ok advance)
    (hstop : advance.state.stop = some (.unreachablePendingNode stop)) :
    UnheardPending plan advance.state.nodes ↔
      UnheardPending plan (settledNodes plan state decision context.now) := by
  obtain ⟨-, -, hsame⟩ := stranding_advance hs hadv hstop
  have harrivals : ∀ targetId, materializeArrivals plan advance.state.nodes []
      targetId = materializeArrivals plan
        (settledNodes plan state decision context.now) [] targetId :=
    materializeArrivals_congr (fun nodeId => (hsame nodeId).2) []
  unfold UnheardPending joinHolds
  simp only [harrivals, (hsame _).1]

theorem stranded_arises (hreach : ReachableState AnyContext plan state')
    (hstop : state'.stop = some (.unreachablePendingNode stop)) :
    ∃ state submission, ReachableState AnyContext plan state ∧
      Advances AnyContext plan state submission state' := by
  rcases Reachable.init_or_step hreach with ⟨context, fromAttemptSeq, dispatches, -, hstart⟩ | hst
  · rw [(start_entries hstart).2.2.2] at hstop
    cases hstop
  · exact hst

/-- A stop over stranded nodes is right exactly when no feeder of a pending node had arrived. -/
theorem stop_attribution {host : DigestHost} {raw : Json} {options : CompileOptions}
    (hcompiled : compileGraph host raw options = .executable plan)
    (hreach : ReachableState AnyContext plan state')
    (hstop : state'.stop = some (.unreachablePendingNode stop)) :
    (∃ state submission, ReachableState AnyContext plan state ∧
      Advances AnyContext plan state submission state') ∧
    ∀ state submission, ReachableState AnyContext plan state →
      Advances AnyContext plan state submission state' →
      (StopAttributed plan state' stop ↔ UnheardPending plan
        (settledNodes plan state submission.decision submission.context.now)) := by
  have hnodup := (compileGraph_wellFormed hcompiled).nodeIds_nodup
  refine ⟨stranded_arises hreach hstop, fun state submission hbefore hst => ?_⟩
  have hs := ReachableState.invariant hnodup hbefore
  have hs' := hs.advance hnodup hst
  obtain ⟨-, -, advance, hadv, rfl⟩ := hst
  obtain ⟨hflight, hblocked, -⟩ := stranding_advance hs hadv hstop
  have hstopped : advance.state.stop ≠ none := by
    rw [hstop]
    exact some_ne_none _
  rw [stopAttributed_iff hnodup hs' hstopped hflight hblocked, unheardPending_advance hs hadv hstop]

end Stranding

def partialTopology : JoinTopology :=
  { nodes :=
      [plainNode "A" ["no", "ok"] none [], plainNode "B" ["no", "ok"] none [],
        plainNode "P" ["done"] none []]
    edges := [⟨"A", "P", "ok"⟩, ⟨"B", "P", "ok"⟩]
    loopGroups := [] }

theorem partialTopology_compiles :
    compileGraph (plainHost "r") (declareTopology "g" partialTopology) plainOptions =
      .executable (plainPlan "g" "r" partialTopology) := rfl

def stopsOver (plan : CompiledPlan) (state : OutcomeGraphState) (decision : AcceptedDecision) :
    Option (OutcomeGraphState × OutcomeUnreachablePendingNodeStop) :=
  (advanceOutcomeGraph plan state decision plainContext).toOption.bind fun advance =>
    match advance.state.stop with
    | some (.unreachablePendingNode stop) => some (advance.state, stop)
    | _ => none

theorem stopsOver_advances {plan : CompiledPlan} {state state' : OutcomeGraphState}
    {decision : AcceptedDecision} {stop : OutcomeUnreachablePendingNodeStop}
    (hdeclared : plan.declaresOutcome decision.nodeId decision.outcomeId = true)
    (h : stopsOver plan state decision = some (state', stop)) :
    Advances AnyContext plan state ⟨decision, plainContext⟩ state' ∧
      state'.stop = some (.unreachablePendingNode stop) := by
  obtain ⟨advance, hadv, hstop⟩ := bind_eq_some_iff.1 h
  split at hstop
  · next hfound =>
    cases hstop
    exact ⟨⟨trivial, hdeclared, advance, toOption_eq_some.1 hadv, rfl⟩, hfound⟩
  · cases hstop

theorem unheard_check :
    (runDecisions (plainPlan "g" "r" partialTopology) plainContext
      [plainDecision "A" "A#1" "no"]).bind (fun state =>
        (stopsOver (plainPlan "g" "r" partialTopology) state (plainDecision "B" "B#2" "no")).map
          fun _ => decide (UnheardPending partialTopology
            (settledNodes (plainPlan "g" "r" partialTopology) state
              (plainDecision "B" "B#2" "no") plainContext.now))) = some true := by
  decide +kernel

/-- Neither feeder routes to `P`: the stop is right. -/
theorem unheard_attributed :
    ∃ state stop, ReachableState AnyContext (plainPlan "g" "r" partialTopology) state ∧
      state.stop = some (.unreachablePendingNode stop) ∧
      StopAttributed (plainPlan "g" "r" partialTopology) state stop := by
  obtain ⟨before, hrun, hchecked⟩ := bind_eq_some_iff.1 unheard_check
  obtain ⟨⟨state, stop⟩, hstops, hunheard⟩ := map_eq_some_iff.1 hchecked
  have hbefore : ReachableState AnyContext (plainPlan "g" "r" partialTopology) before :=
    runDecisions_reachable trivial hrun
  obtain ⟨hst, hstop⟩ := stopsOver_advances rfl hstops
  have hreach : ReachableState AnyContext (plainPlan "g" "r" partialTopology) state :=
    hbefore.tail hst
  exact ⟨state, stop, hreach, hstop,
    ((stop_attribution partialTopology_compiles hreach hstop).2 before _ hbefore hst).2
      (of_decide_eq_true hunheard)⟩

theorem arrived_check :
    (runDecisions (plainPlan "g" "r" partialTopology) plainContext
      [plainDecision "A" "A#1" "ok"]).bind (fun state =>
        (stopsOver (plainPlan "g" "r" partialTopology) state (plainDecision "B" "B#2" "no")).map
          fun stopped => decide (stopped.2.blockedNodes.own? "P" = some ["A", "B"] ∧
            "A" ∈ (materializeArrivals partialTopology stopped.1.nodes [] "P").map (·.from))) =
      some true := by
  decide +kernel

/-- `A` has arrived at `P`, and the stop lists it with `B` among the feeders that cannot. -/
theorem arrived_named :
    compileGraph (plainHost "r") (declareTopology "g" partialTopology) plainOptions =
      .executable (plainPlan "g" "r" partialTopology) ∧
    ∃ state stop, ReachableState AnyContext (plainPlan "g" "r" partialTopology) state ∧
      state.stop = some (.unreachablePendingNode stop) ∧
      ¬ StopAttributed (plainPlan "g" "r" partialTopology) state stop := by
  refine ⟨rfl, ?_⟩
  obtain ⟨before, hrun, hchecked⟩ := bind_eq_some_iff.1 arrived_check
  obtain ⟨⟨state, stop⟩, hstops, hnamed⟩ := map_eq_some_iff.1 hchecked
  obtain ⟨hlisted, harrived⟩ := of_decide_eq_true hnamed
  obtain ⟨hst, hstop⟩ := stopsOver_advances rfl hstops
  refine ⟨state, stop, (runDecisions_reachable trivial hrun).tail hst, hstop, fun hright => ?_⟩
  have hlost := (hright.feeders "P" _ hlisted "A").1 (.head _)
  exact hlost.2 ⟨[], state, .nil state, harrived⟩

end Rolebox.Graph
