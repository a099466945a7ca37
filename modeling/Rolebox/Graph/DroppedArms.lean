import Rolebox.Graph.ArmSafety

/-! What becomes of the routed targets an advance does not dispatch. -/

namespace Rolebox.Graph
open General List

/-- Every successor of a settled outcome is dispatched, waits, or carries input refusals. -/
def NoLostArm (plan : CompiledPlan) (context : AdvanceContext) (state : OutcomeGraphState)
    (decision : AcceptedDecision) (advance : OutcomeAdvance) : Prop :=
  ∀ edge ∈ successorsOf plan decision.nodeId decision.outcomeId,
    ∀ node ∈ plan.nodes, node.id = edge.to →
      (node.id = decision.nodeId ∨ statusOf state.nodes node.id ≠ some .dispatched) →
      node.id ∈ advance.dispatches.map (·.nodeId) ∨
      joinSatisfiedFor plan node
        (materializeArrivals plan advance.state.nodes [] node.id) = false ∨
      ∃ entry refusals inFlight, entryOf advance.state.nodes node.id = some entry ∧
        entry.inputRefusals = some refusals ∧
        inputsAgainst plan context
          (settledNodes plan state decision context.now) node inFlight = .blocked refusals

/-- A target dropped with all arrivals withheld is so with those that may be in flight withheld. -/
def DropsStand (plan : JoinTopology) (context : AdvanceContext) (nodes : List OutcomeNodeState)
    (routed : List CompiledEdge) : Prop :=
  ∀ candidate ∈ armableTargets plan nodes routed,
    joinHolds plan nodes candidate.node (armableIds plan nodes routed) = false →
    ∀ inFlight, MayBeInFlight plan context nodes routed inFlight →
      joinHolds plan nodes candidate.node inFlight = false

section Main
variable {plan : CompiledPlan} {context : AdvanceContext} {nodes : List OutcomeNodeState}
  {routed : List CompiledEdge} {blocked : List String} {advance : OutcomeAdvance}

theorem armedIds_mayBeInFlight (hnodup : plan.nodeIds.Nodup)
    (halign : Aligned plan nodes) (blocked : List String) :
    MayBeInFlight plan context nodes routed
      (armedIds (routedRound plan context nodes routed blocked)) :=
  (roundBasis_mayBeInFlight hnodup halign blocked).armed hnodup halign

theorem ArmedAdvance.accounted (hnodup : plan.nodeIds.Nodup) (halign : Aligned plan nodes)
    (h : ArmedAdvance plan context nodes routed blocked advance)
    {candidate : Candidate} (hmem : candidate ∈ armableTargets plan nodes routed) :
    candidate.node.id ∈ advance.dispatches.map (·.nodeId) ∨
    joinHolds plan nodes candidate.node (armableIds plan nodes routed) = false ∨
    ∃ entry refusals inFlight, entryOf advance.state.nodes candidate.node.id = some entry ∧
      entry.inputRefusals = some refusals ∧
      inputsAgainst plan context nodes candidate.node inFlight = .blocked refusals := by
  cases hholds : joinHolds plan nodes candidate.node
      (armableIds plan nodes routed) with
  | false => exact .inr (.inl rfl)
  | true =>
    have hjoined := joinedCandidates_of_holds hnodup halign blocked hmem hholds
    have hround : (⟨candidate, inputsAgainst plan context nodes candidate.node
        (roundBasis plan context nodes (candidatesOf plan routed)
          (armableTargets plan nodes routed) blocked)⟩ : ArmDecision) ∈
        routedRound plan context nodes routed blocked :=
      mem_armingRound.2 ⟨hjoined, rfl⟩
    cases hinputs : inputsAgainst plan context nodes candidate.node
        (roundBasis plan context nodes (candidatesOf plan routed)
          (armableTargets plan nodes routed) blocked) with
    | resolved entries =>
      refine .inl ?_
      rw [h.dispatched]
      exact mem_map_of_mem (mem_filter.2 ⟨hround, by rw [hinputs]; rfl⟩)
    | blocked refusals =>
      obtain ⟨entry, hentry, hrefusals⟩ := h.refused _ hround refusals hinputs
      exact .inr (.inr ⟨entry, refusals, _, hentry, hrefusals, hinputs⟩)

theorem exists_armableTarget (hnodup : plan.nodeIds.Nodup)
    (halign : Aligned plan nodes) {node : CompiledNode} (hnode : node ∈ plan.nodes)
    {edge : CompiledEdge} (hedge : edge ∈ routed) (hto : node.id = edge.to)
    (hidle : statusOf nodes node.id ≠ some .dispatched) :
    ∃ candidate ∈ armableTargets plan nodes routed, candidate.node = node := by
  obtain ⟨index, hindex⟩ := getElem?_of_mem hnode
  obtain ⟨entry, hentry⟩ := halign.exists_entryOf hnodup hnode
  refine ⟨⟨node, index⟩, (mem_armableOf hnodup halign).2 ⟨mem_candidatesOf.2 ⟨hindex, ?_⟩,
    entry, hentry, fun hstatus => hidle ?_⟩, rfl⟩
  · rw [hto]
    exact mem_map_of_mem hedge
  · unfold statusOf
    rw [hentry, Option.map_some, hstatus]

/-- Every non-stopping advance of a reachable state in which the drops stand loses no arm. -/
theorem no_lost_arm {host : DigestHost} {raw : Json} {options : CompileOptions}
    {state : OutcomeGraphState} {decision : AcceptedDecision}
    (hcompiled : compileGraph host raw options = .executable plan)
    (hreach : ReachableState AnyContext plan state)
    (hadv : advanceOutcomeGraph plan state decision context = .ok advance)
    (hlive : advance.state.stop = none)
    (hstands : DropsStand plan context (settledNodes plan state decision context.now)
      (successorsOf plan decision.nodeId decision.outcomeId)) :
    NoLostArm plan context state decision advance := by
  have hwf := compileGraph_wellFormed hcompiled
  have hnodup := hwf.nodeIds_nodup
  have hs := ReachableState.invariant hnodup hreach
  obtain ⟨halign, routed, blocked, -, hrouted, harmed⟩ := advance_arms hwf hs hadv
  obtain ⟨position, current, facts, -, hd, -, -, -, -⟩ := advanceOutcomeGraph_ok hadv
  rw [hrouted hlive] at harmed
  intro edge hedge node hnode hto hidle
  have hstatus : statusOf (settledNodes plan state decision context.now) node.id ≠
      some .dispatched := by
    rw [statusOf_settledNodes hnodup hs.aligned hd]
    split
    · simp
    · next hne => exact hidle.resolve_left hne
  obtain ⟨candidate, hmem, rfl⟩ := exists_armableTarget hnodup halign hnode hedge hto hstatus
  rcases harmed.accounted hnodup halign hmem with hdispatched | hdropped | hrefused
  · exact .inl hdispatched
  · refine .inr (.inl ?_)
    rw [harmed.arrivals]
    exact hstands candidate hmem hdropped _ (armedIds_mayBeInFlight hnodup halign blocked)
  · exact .inr (.inr hrefused)

end Main

theorem countedState_noLostArm :
    ∃ advance, advanceOutcomeGraph (plainPlan "g" "r" countedTopology) countedState
      (plainDecision "A" "A#2" "again") plainContext = .ok advance ∧
      NoLostArm (plainPlan "g" "r" countedTopology) plainContext countedState
        (plainDecision "A" "A#2" "again") advance := by
  obtain ⟨advance, hadv, -, hlive⟩ := countedState_advance
  refine ⟨advance, hadv, no_lost_arm countedTopology_compiles countedState_reachable hadv hlive ?_⟩
  intro candidate hcandidate hdropped
  rw [countedState_candidate hcandidate] at hdropped
  exact absurd hdropped (by decide)

/-- A loop of four: `D` waits for both `N` and `Z`, and `C` for both `N` and `D`. -/
def droppedTopology : JoinTopology :=
  { nodes :=
      [plainNode "C" ["done", "retry"] none [], plainNode "D" ["ok"] none [],
        plainNode "E" ["go"] none [], plainNode "N" ["on"] none [], plainNode "Z" ["ok"] none []]
    edges :=
      [⟨"C", "N", "retry"⟩, ⟨"C", "Z", "retry"⟩, ⟨"D", "C", "ok"⟩, ⟨"E", "N", "go"⟩,
        ⟨"E", "Z", "go"⟩, ⟨"N", "C", "on"⟩, ⟨"N", "D", "on"⟩, ⟨"Z", "D", "ok"⟩]
    loopGroups := [⟨"l", ["C", "D", "N", "Z"], 2, "retry", "done", none⟩] }

def droppedDecisions : List AcceptedDecision :=
  [plainDecision "E" "E#1" "go", plainDecision "N" "N#2" "on", plainDecision "Z" "Z#3" "ok",
    plainDecision "D" "D#4" "ok", plainDecision "C" "C#5" "retry"]

theorem dropped_check :
    (runDecisions (plainPlan "g" "r" droppedTopology) plainContext droppedDecisions).bind
      (fun state => (advanceOutcomeGraph (plainPlan "g" "r" droppedTopology) state
        (plainDecision "N" "N#6" "on") plainContext).toOption.map fun advance =>
          decide (statusOf state.nodes "C" ≠ some .dispatched ∧ advance.state.stop = none ∧
            "C" ∉ advance.dispatches.map (·.nodeId) ∧
            joinHolds droppedTopology advance.state.nodes
              (plainNode "C" ["done", "retry"] none []) [] = true ∧
            (entryOf advance.state.nodes "C").all (·.inputRefusals.isNone) = true)) =
      some true := by
  decide +kernel

/-- With `Z` in flight `D` is dropped, and `C` with it, over an arrival of `D` that stands. -/
theorem dropped_lost :
    compileGraph (plainHost "r") (declareTopology "g" droppedTopology) plainOptions =
      .executable (plainPlan "g" "r" droppedTopology) ∧
    ∃ state advance, ReachableState AnyContext (plainPlan "g" "r" droppedTopology) state ∧
      advanceOutcomeGraph (plainPlan "g" "r" droppedTopology) state
        (plainDecision "N" "N#6" "on") plainContext = .ok advance ∧ advance.state.stop = none ∧
      ¬ NoLostArm (plainPlan "g" "r" droppedTopology) plainContext state
        (plainDecision "N" "N#6" "on") advance := by
  refine ⟨rfl, ?_⟩
  obtain ⟨state, hrun, hchecked⟩ := Option.bind_eq_some_iff.1 dropped_check
  obtain ⟨advance, hadvance, hlost⟩ := Option.map_eq_some_iff.1 hchecked
  obtain ⟨hidle, hlive, hnot, hjoin, hclean⟩ := of_decide_eq_true hlost
  refine ⟨state, advance, runDecisions_reachable trivial hrun, toOption_eq_some.1 hadvance, hlive,
    fun hkept => ?_⟩
  have hnode : plainNode "C" ["done", "retry"] none [] ∈
      (plainPlan "g" "r" droppedTopology).nodes := .head _
  have hedge : (⟨"N", "C", "on"⟩ : CompiledEdge) ∈
      successorsOf (plainPlan "g" "r" droppedTopology).toJoinTopology "N" "on" := by decide
  rcases hkept _ hedge _ hnode rfl (.inr hidle) with hd | hj | ⟨entry, refusals, -, he, hr, -⟩
  · exact hnot hd
  · exact absurd (hj.symm.trans hjoin) (by decide)
  · have hat : entryOf advance.state.nodes "C" = some entry := he
    rw [hat, Option.all_some, hr] at hclean
    cases hclean

end Rolebox.Graph
