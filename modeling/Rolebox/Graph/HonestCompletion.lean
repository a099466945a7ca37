import Rolebox.Graph.ArmSafety

/-! A complete run has settled every node; a successor refused its inputs had settled before. -/

namespace Rolebox.Graph
open General List Option

/-- A successor of the decided outcome holds refusals of this advance, and was not dispatched. -/
def DropsRefused (plan : CompiledPlan) (state : OutcomeGraphState) (decision : AcceptedDecision)
    (advance : OutcomeAdvance) : Prop :=
  ∃ edge ∈ successorsOf plan decision.nodeId decision.outcomeId,
    ∃ before after refusals, entryOf state.nodes edge.to = some before ∧
      entryOf advance.state.nodes edge.to = some after ∧ before.inputRefusals = none ∧
      after.inputRefusals = some refusals ∧ edge.to ∉ advance.dispatches.map (·.nodeId)

/-- Each successor of the last outcome had settled before and keeps that settlement. -/
structure KeepsSettled (plan : CompiledPlan) (state : OutcomeGraphState)
    (decision : AcceptedDecision) (now : Nat) (advance : OutcomeAdvance) : Prop where
  idle : advance.dispatches = []
  kept : ∀ edge ∈ successorsOf plan decision.nodeId decision.outcomeId,
    statusOf (settledNodes plan state decision now) edge.to = some .settled ∧
      settlementOf advance.state.nodes edge.to =
        settlementOf (settledNodes plan state decision now) edge.to

structure HonestCompletion (plan : CompiledPlan) (state : OutcomeGraphState) : Prop where
  stop : state.stop = none
  settled : ∀ node ∈ plan.nodes, statusOf state.nodes node.id = some .settled
  last : ∀ before decision context advance, ReachableState AnyContext plan before →
    advanceOutcomeGraph plan before decision context = .ok advance → advance.state = state →
    KeepsSettled plan before decision context.now advance
  awaited : ∀ earlier submissions, ReachableState AnyContext plan earlier →
    Run (Advances AnyContext plan) earlier submissions state →
    ∀ nodeId, statusOf earlier.nodes nodeId = some .pending →
      ∃ before submission after middle next, submissions = before ++ submission :: after ∧
        Run (Advances AnyContext plan) earlier before middle ∧
        Advances AnyContext plan middle submission next ∧
        statusOf next.nodes nodeId = some .dispatched

section Laws
variable {plan : CompiledPlan} {state state' : OutcomeGraphState} {context : AdvanceContext}
  {decision : AcceptedDecision} {advance : OutcomeAdvance}

theorem complete_settled (hnodup : plan.nodeIds.Nodup)
    (hreach : ReachableState AnyContext plan state) (hphase : state.phase = .complete) :
    state.stop = none ∧ ∀ node ∈ plan.nodes, statusOf state.nodes node.id = some .settled := by
  have halign := (ReachableState.invariant hnodup hreach).aligned
  rw [halign.forall_status hnodup]
  rcases Reachable.init_or_step hreach with ⟨start, fromAttemptSeq, dispatches, -, hstart⟩ | hst
  · rw [(start_entries hstart).2.2.2] at hphase
    cases hphase
  · obtain ⟨before, submission, -, -, -, advance, hadv, rfl⟩ := hst
    obtain ⟨-, -, -, routed, -, -, hclose, -, -⟩ := advanceOutcomeGraph_ok hadv
    rw [hclose] at hphase ⊢
    exact phaseOf_complete.1 hphase

theorem advance_leaves_pending (hnodup : plan.nodeIds.Nodup) (hs : StateInvariant plan state)
    {submission : Submission} (hst : Advances AnyContext plan state submission state')
    {nodeId : String} (hpending : statusOf state.nodes nodeId = some .pending)
    (hleft : statusOf state'.nodes nodeId ≠ some .pending) :
    statusOf state'.nodes nodeId = some .dispatched := by
  obtain ⟨-, -, advance, hadv, rfl⟩ := hst
  obtain ⟨position, current, facts, routed, hd, -, -, -, hsteps⟩ :=
    advance_entries hnodup hs.aligned hs.named hadv
  obtain ⟨-, -, -, hc, hid, hf, -⟩ := dispatchedEntry_ok.1 hd
  have hrel := entryOf_forall₂ hsteps (fun _ _ hstep => hstep.nodeId) nodeId
  unfold statusOf at hpending hleft ⊢
  obtain ⟨entry, hentry, hwaits⟩ := map_eq_some_iff.1 hpending
  obtain ⟨hmem, hname⟩ := entryOf_some hentry
  rw [hentry] at hrel
  generalize entryOf advance.state.nodes nodeId = found at hrel hleft ⊢
  cases hrel with
  | @some _ after hstep =>
  rw [map_some] at hleft ⊢
  rcases hstep.progress with ⟨-, hsame⟩ | ⟨hdecided, -⟩ | ⟨-, fresh, hfresh, -⟩
  · refine absurd ?_ hleft
    rw [OutcomeNodeState.status, hsame, ← OutcomeNodeState.status, hwaits]
  · have hcurrent := hs.aligned.entryOf_mem hnodup (mem_of_getElem? hc)
    rw [hid, ← hdecided, hname, hentry] at hcurrent
    cases hcurrent
    rw [status_of_progress, hf] at hwaits
    cases hwaits
  · rw [OutcomeNodeState.status, hfresh]
    rfl

theorem run_leaves_pending (hnodup : plan.nodeIds.Nodup) {submissions : List Submission}
    (hreach : ReachableState AnyContext plan state)
    (hrun : Run (Advances AnyContext plan) state submissions state') {nodeId : String}
    (hpending : statusOf state.nodes nodeId = some .pending)
    (hleft : statusOf state'.nodes nodeId ≠ some .pending) :
    ∃ before submission after middle next, submissions = before ++ submission :: after ∧
      Run (Advances AnyContext plan) state before middle ∧
      Advances AnyContext plan middle submission next ∧
      statusOf next.nodes nodeId = some .dispatched := by
  induction hrun with
  | nil => exact absurd hpending hleft
  | @cons s t _ submission rest hst _ ih =>
    by_cases hstill : statusOf t.nodes nodeId = some .pending
    · obtain ⟨before, other, after, middle, next, rfl, hbefore, hadv, hflight⟩ :=
        ih (hreach.tail hst) hstill hleft
      exact ⟨submission :: before, other, after, middle, next, rfl, .cons hst hbefore, hadv,
        hflight⟩
    · exact ⟨[], submission, rest, s, t, rfl, .nil s, hst, advance_leaves_pending hnodup
        (ReachableState.invariant hnodup hreach) hst hpending hstill⟩

theorem keepsSettled (hwf : plan.WellFormed) (hs : StateInvariant plan state)
    (hadv : advanceOutcomeGraph plan state decision context = .ok advance)
    (hsettled : ∀ node ∈ plan.nodes, statusOf advance.state.nodes node.id = some .settled) :
    KeepsSettled plan state decision context.now advance := by
  obtain ⟨halign, routed, blocked, -, -, harmed⟩ := advance_arms hwf hs hadv
  have hfound : ∀ node ∈ plan.nodes, settlementOf advance.state.nodes node.id ≠ none := by
    intro node hnode
    have hstatus := hsettled node hnode
    unfold statusOf at hstatus
    obtain ⟨entry, hentry, hst⟩ := map_eq_some_iff.1 hstatus
    unfold settlementOf
    rw [hentry]
    unfold OutcomeNodeState.status at hst
    cases hprogress : entry.progress with
    | pending => simp [hprogress] at hst
    | dispatched facts => simp [hprogress] at hst
    | settled facts outcomeId settledAt => simp [hprogress]
  have hnone : armedIds (routedRound plan context
      (settledNodes plan state decision context.now) routed blocked) = [] := by
    refine eq_nil_iff_forall_not_mem.2 fun nodeId harm => ?_
    have hkept := harmed.settlement nodeId
    rw [if_pos harm] at hkept
    obtain ⟨arm, hround, rfl⟩ := List.mem_map.1 harm
    obtain ⟨hmem, -, -⟩ := mem_routedRound hwf.nodeIds_nodup halign (mem_filter.1 hround).1
    have hnode := mem_of_getElem? (mem_candidatesOf.1 (mem_filter.1 hmem).1).1
    exact hfound _ hnode hkept
  refine ⟨?_, fun edge hedge => ?_⟩
  · rw [← map_eq_nil_iff, harmed.dispatched, hnone]
  obtain ⟨node, hnode, hto⟩ := List.mem_map.1
    (hwf.edge_declared edge (mem_filter.1 hedge).1).2
  have hkept := harmed.settlement edge.to
  rw [hnone, if_neg not_mem_nil] at hkept
  refine ⟨?_, hkept⟩
  have hsome := hfound node hnode
  rw [show node.id = edge.to from hto, hkept] at hsome
  obtain ⟨⟨outcomeId, attemptId⟩, hsettlement⟩ := ne_none_iff_exists'.1 hsome
  exact statusOf_of_settlement hsettlement

/-- Every complete state a run of an executable plan reaches is honest. -/
theorem honest_completion {host : DigestHost} {raw : Json} {options : CompileOptions}
    (hcompiled : compileGraph host raw options = .executable plan)
    (hreach : ReachableState AnyContext plan state) (hphase : state.phase = .complete) :
    HonestCompletion plan state := by
  have hwf := compileGraph_wellFormed hcompiled
  have hnodup := hwf.nodeIds_nodup
  obtain ⟨hstop, hsettled⟩ := complete_settled hnodup hreach hphase
  refine ⟨hstop, hsettled, ?_, ?_⟩
  · intro before decision context advance hbefore hadv hstate
    rw [← hstate] at hsettled
    exact keepsSettled hwf (ReachableState.invariant hnodup hbefore) hadv hsettled
  · intro earlier submissions hearlier hrun nodeId hpending
    refine run_leaves_pending hnodup hearlier hrun hpending fun hstill => ?_
    have halign := (ReachableState.invariant hnodup hreach).aligned
    obtain ⟨entry, hentry, -⟩ := map_eq_some_iff.1 hstill
    obtain ⟨hmem, hid⟩ := entryOf_some hentry
    obtain ⟨node, hnode, hname⟩ := halign.exists_node hmem
    have hdone := hsettled node hnode
    rw [hname, hid, hstill] at hdone
    cases hdone

end Laws

/-- A loop of two: `A` always consumes the seed `B` settles on, and `B` may settle elsewhere. -/
def seededTopology : JoinTopology :=
  { nodes :=
      [plainNode "A" ["done", "retry"] none [⟨"B", "seed", false⟩],
        plainNode "B" ["alt", "seed"] none []]
    edges := [⟨"A", "B", "retry"⟩, ⟨"B", "A", "alt"⟩, ⟨"B", "A", "seed"⟩]
    loopGroups := [⟨"l", ["A", "B"], 2, "retry", "done", none⟩] }

theorem seededTopology_compiles :
    compileGraph (plainHost "r") (declareTopology "g" seededTopology) plainOptions =
      .executable (plainPlan "g" "r" seededTopology) := rfl

def seededContext : AdvanceContext := readingContext [("B#1", "seed"), ("B#3", "alt")]

theorem seeded_check :
    (runDecisions (plainPlan "g" "r" seededTopology) seededContext
      [plainDecision "B" "B#1" "seed", plainDecision "A" "A#2" "done"]).map (·.phase) =
      some .complete := by
  decide +kernel

theorem seeded_honest :
    ∃ state, ReachableState AnyContext (plainPlan "g" "r" seededTopology) state ∧
      state.phase = .complete ∧ HonestCompletion (plainPlan "g" "r" seededTopology) state := by
  obtain ⟨state, hrun, hphase⟩ := map_eq_some_iff.1 seeded_check
  have hreach : ReachableState AnyContext (plainPlan "g" "r" seededTopology) state :=
    runDecisions_reachable trivial hrun
  exact ⟨state, hreach, hphase, honest_completion seededTopology_compiles hreach hphase⟩

def refusedAt (nodes : List OutcomeNodeState) (nodeId : String) : Option Bool :=
  (entryOf nodes nodeId).map (·.inputRefusals.isSome)

theorem refused_check :
    (runDecisions (plainPlan "g" "r" seededTopology) seededContext
      [plainDecision "B" "B#1" "seed", plainDecision "A" "A#2" "retry"]).bind (fun state =>
        (advanceOutcomeGraph (plainPlan "g" "r" seededTopology) state
          (plainDecision "B" "B#3" "alt") seededContext).toOption.map fun advance =>
            decide (advance.state.phase = .complete ∧ "A" ∉ advance.dispatches.map (·.nodeId) ∧
              refusedAt state.nodes "A" = some false ∧
              refusedAt advance.state.nodes "A" = some true)) = some true := by
  decide +kernel

/-- `A` is refused the seed of its second round, and the run completes without it. -/
theorem refused_completes :
    compileGraph (plainHost "r") (declareTopology "g" seededTopology) plainOptions =
      .executable (plainPlan "g" "r" seededTopology) ∧
    ∃ state decision advance, ReachableState AnyContext (plainPlan "g" "r" seededTopology) state ∧
      advanceOutcomeGraph (plainPlan "g" "r" seededTopology) state decision seededContext =
        .ok advance ∧ advance.state.phase = .complete ∧
      DropsRefused (plainPlan "g" "r" seededTopology) state decision advance := by
  refine ⟨rfl, ?_⟩
  obtain ⟨state, hrun, hchecked⟩ := bind_eq_some_iff.1 refused_check
  obtain ⟨advance, hadvance, hdropped⟩ := map_eq_some_iff.1 hchecked
  obtain ⟨hphase, hnot, hbefore, hafter⟩ := of_decide_eq_true hdropped
  obtain ⟨before, hold, hclean⟩ := map_eq_some_iff.1 hbefore
  obtain ⟨after, hnew, hrefused⟩ := map_eq_some_iff.1 hafter
  obtain ⟨refusals, hrefusals⟩ := isSome_iff_exists.1 hrefused
  have hedge : (⟨"B", "A", "alt"⟩ : CompiledEdge) ∈
      successorsOf (plainPlan "g" "r" seededTopology).toJoinTopology "B" "alt" := by decide
  exact ⟨state, plainDecision "B" "B#3" "alt", advance, runDecisions_reachable trivial hrun,
    toOption_eq_some.1 hadvance, hphase, _, hedge, before, after, refusals, hold, hnew,
    isSome_eq_false_iff.1 hclean |> isNone_iff_eq_none.1, hrefusals, hnot⟩

end Rolebox.Graph
