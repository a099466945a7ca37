import Rolebox.Graph.ArmSet
import Rolebox.Graph.PhaseLaw

/-! A dispatched node rests on arrivals and inputs the same advance leaves in place. -/

namespace Rolebox.Graph
open General List

def settledNodes (plan : CompiledPlan) (state : OutcomeGraphState) (decision : AcceptedDecision)
    (now : Nat) : List OutcomeNodeState :=
  match dispatchedEntry plan state decision with
  | .ok (position, current, facts) =>
    state.nodes.set position (settleEntry current facts decision.outcomeId now)
  | .error _ => state.nodes

section Advance
variable {plan : CompiledPlan} {state : OutcomeGraphState} {context : AdvanceContext}
  {decision : AcceptedDecision} {nodes : List OutcomeNodeState}
variable {position : Nat} {current : OutcomeNodeState} {facts : DispatchFacts} {now : Nat}

structure ArmedAdvance (plan : JoinTopology) (context : AdvanceContext)
    (nodes : List OutcomeNodeState) (routed : List CompiledEdge) (blocked : List String)
    (advance : OutcomeAdvance) : Prop where
  final : FinalRound plan context nodes routed blocked
  dispatched : advance.dispatches.map (·.nodeId) =
    armedIds (routedRound plan context nodes routed blocked)
  bound : ∀ dispatch ∈ advance.dispatches, ∃ arm ∈ routedRound plan context nodes routed blocked,
    arm.candidate.node.id = dispatch.nodeId ∧ arm.assembled = .resolved dispatch.inputs
  settlement : ∀ nodeId, settlementOf advance.state.nodes nodeId =
    if nodeId ∈ armedIds (routedRound plan context nodes routed blocked) then none
    else settlementOf nodes nodeId
  refused : ∀ arm ∈ routedRound plan context nodes routed blocked, ∀ refusals,
    arm.assembled = .blocked refusals → ∃ entry,
      entryOf advance.state.nodes arm.candidate.node.id = some entry ∧
        entry.inputRefusals = some refusals

theorem settlementOf_none {nodes' : List OutcomeNodeState} {nodeId : String}
    (h : entryOf nodes' nodeId = none) : settlementOf nodes' nodeId = none := by
  unfold settlementOf
  rw [h]

theorem settlementOf_congr {nodes' : List OutcomeNodeState} {nodeId : String}
    {entry entry' : OutcomeNodeState} (h : entryOf nodes nodeId = some entry)
    (h' : entryOf nodes' nodeId = some entry') (hprogress : entry'.progress = entry.progress) :
    settlementOf nodes' nodeId = settlementOf nodes nodeId := by
  unfold settlementOf
  rw [h, h']
  simp only [hprogress]

theorem Applied.settlementOf {decisions : List ArmDecision} {progress : Dispatching}
    (happlied : Applied nodes decisions progress)
    (hentries : ∀ arm ∈ decisions, ∃ entry, entryOf nodes arm.candidate.node.id = some entry)
    (nodeId : String) :
    settlementOf progress.nodes nodeId =
      if nodeId ∈ armedIds decisions then none else settlementOf nodes nodeId := by
  split
  · next harmed =>
    obtain ⟨entry, facts, hentry, hprogress⟩ := happlied.armed nodeId harmed
    unfold Graph.settlementOf
    rw [hentry]
    simp only [hprogress]
  · next hnot =>
    by_cases hmem : nodeId ∈ decisions.map (·.candidate.node.id)
    · obtain ⟨arm, harm, rfl⟩ := mem_map.1 hmem
      obtain ⟨entry, hentry⟩ := hentries arm harm
      cases hassembled : arm.assembled with
      | resolved entries =>
        refine absurd (mem_map_of_mem (mem_filter.2 ⟨harm, ?_⟩)) hnot
        rw [hassembled]
        rfl
      | blocked refusals =>
        exact settlementOf_congr hentry (happlied.refused arm harm refusals hassembled entry hentry)
          rfl
    · have hsame := happlied.entry nodeId hmem
      cases hentry : entryOf nodes nodeId with
      | none => rw [settlementOf_none hentry, settlementOf_none (hsame.trans hentry)]
      | some entry => exact settlementOf_congr hentry (hsame.trans hentry) rfl

theorem Aligned.exists_entryOf (hnodup : plan.nodeIds.Nodup)
    (halign : Aligned plan nodes) {node : CompiledNode} (hnode : node ∈ plan.nodes) :
    ∃ entry, entryOf nodes node.id = some entry := by
  obtain ⟨entry, hentry, hid⟩ := halign.exists_entry hnode
  exact ⟨entry, hid ▸ halign.entryOf_mem hnodup hentry⟩

theorem entryOf_canonicalNodes (plan : JoinTopology) (nodes : List OutcomeNodeState)
    (nodeId : String) :
    entryOf (canonicalNodes plan nodes) nodeId = (entryOf nodes nodeId).map fun entry =>
      { entry with arrivals := materializeArrivals plan nodes [] entry.nodeId } := by
  unfold entryOf canonicalNodes
  rw [find?_map]
  rfl

theorem statusOf_canonicalNodes (plan : JoinTopology) (nodes : List OutcomeNodeState)
    (nodeId : String) : statusOf (canonicalNodes plan nodes) nodeId = statusOf nodes nodeId := by
  unfold statusOf
  rw [entryOf_canonicalNodes, Option.map_map]
  rfl

theorem armedAdvance_of_applied (hnodup : plan.nodeIds.Nodup)
    (halign : Aligned plan nodes) {routed : List CompiledEdge}
    {blocked : List String} {progress : Dispatching} {advance : OutcomeAdvance}
    (hfinal : FinalRound plan context nodes routed blocked)
    (happlied : Applied nodes (routedRound plan context nodes routed blocked) progress)
    (hdispatches : advance.dispatches = progress.dispatches)
    (hnodes : advance.state.nodes = canonicalNodes plan progress.nodes) :
    ArmedAdvance plan context nodes routed blocked advance := by
  have hplan : ∀ arm ∈ routedRound plan context nodes routed blocked,
      arm.candidate.node ∈ plan.nodes := by
    intro arm harm
    have hjoined := (mem_armingRound.1 harm).1
    exact mem_of_getElem? (mem_candidatesOf.1 (mem_filter.1 hjoined).1).1
  have hentries : ∀ arm ∈ routedRound plan context nodes routed blocked,
      ∃ entry, entryOf nodes arm.candidate.node.id = some entry :=
    fun arm harm => halign.exists_entryOf hnodup (hplan arm harm)
  refine ⟨hfinal, hdispatches ▸ happlied.dispatched, hdispatches ▸ happlied.bound, ?_, ?_⟩
  · intro nodeId
    rw [hnodes, settlementOf_canonicalNodes]
    exact happlied.settlementOf hentries nodeId
  · intro arm harm refusals hassembled
    obtain ⟨entry, hentry⟩ := hentries arm harm
    rw [hnodes, entryOf_canonicalNodes, happlied.refused arm harm refusals hassembled entry hentry]
    exact ⟨_, rfl, rfl⟩

theorem routeSettled_applied (hnodup : plan.nodeIds.Nodup)
    (halign : Aligned plan nodes) {routed : Routed}
    (h : routeSettled plan state context decision nodes = .ok routed) :
    ∃ edges blocked progress,
      ((edges = [] ∧ (isTerminal plan decision.nodeId decision.outcomeId = true ∨
          routed.stop ≠ none)) ∨ edges = successorsOf plan decision.nodeId decision.outcomeId) ∧
      FinalRound plan context nodes edges blocked ∧
      Applied nodes (routedRound plan context nodes edges blocked) progress ∧
      routed.nodes = progress.nodes ∧ routed.dispatches = progress.dispatches := by
  unfold routeSettled at h
  split at h
  · next hterminal =>
    cases h
    have hround : routedRound plan context nodes [] [] = [] := routedRound_nil []
    have happlied : Applied nodes (routedRound plan context nodes [] [])
        { nodes := nodes, attemptSeq := state.attemptSeq, dispatches := [] } := by
      rw [hround]
      exact applied_nil { nodes := nodes, attemptSeq := state.attemptSeq, dispatches := [] } rfl
    refine ⟨[], [], _, .inl ⟨rfl, .inl hterminal⟩, ⟨.first, ?_⟩, happlied, rfl, rfl⟩
    rw [hround]
    rfl
  · obtain ⟨-, counted, measured, armed, -, -, harm, hrouted⟩ := routeOutcome_ok.1 h
    obtain ⟨blocked, hfinal, happlied⟩ := armTargets_applied hnodup halign harm
    refine ⟨_, blocked, armed, ?_, hfinal, happlied, by rw [hrouted], by rw [hrouted]⟩
    cases hstop : routed.stop with
    | none => exact .inr rfl
    | some stop => exact .inl ⟨rfl, .inr (Option.some_ne_none stop)⟩

theorem settledNodes_eq
    (hd : dispatchedEntry plan state decision = .ok (position, current, facts)) :
    settledNodes plan state decision now =
      state.nodes.set position (settleEntry current facts decision.outcomeId now) := by
  unfold settledNodes
  rw [hd]

section

variable (hnodup : plan.nodeIds.Nodup)
include hnodup

section

variable (halign : Aligned plan state.nodes)
include halign

section

variable (hd : dispatchedEntry plan state decision = .ok (position, current, facts))
include hd

theorem entryOf_settledNodes (nodeId : String) :
    entryOf (settledNodes plan state decision now) nodeId =
      if nodeId = decision.nodeId then some (settleEntry current facts decision.outcomeId now)
      else entryOf state.nodes nodeId := by
  obtain ⟨-, -, hposition, -, hid, -, -⟩ := dispatchedEntry_ok.1 hd
  obtain ⟨hlt, hnode, -⟩ := findIdx?_eq_some_iff_getElem.1 hposition
  have hat : plan.nodes[position]? = some plan.nodes[position] := getElem?_eq_getElem hlt
  have hdecided : plan.nodes[position].id = decision.nodeId := of_decide_eq_true hnode
  have hsettled : (settleEntry current facts decision.outcomeId now).nodeId =
      plan.nodes[position].id := hid.trans hdecided.symm
  rw [settledNodes_eq hd, halign.entryOf_set hnodup hat hsettled nodeId, hdecided]

theorem statusOf_settledNodes (nodeId : String) :
    statusOf (settledNodes plan state decision now) nodeId =
      if nodeId = decision.nodeId then some .settled else statusOf state.nodes nodeId := by
  unfold statusOf
  rw [entryOf_settledNodes hnodup halign hd]
  split <;> rfl

theorem settlementOf_settledNodes (nodeId : String) :
    settlementOf (settledNodes plan state decision now) nodeId =
      if nodeId = decision.nodeId then some (decision.outcomeId, facts.attemptId)
      else settlementOf state.nodes nodeId := by
  unfold settlementOf
  rw [entryOf_settledNodes hnodup halign hd]
  by_cases hdecided : nodeId = decision.nodeId
  · rw [if_pos hdecided, if_pos hdecided]
    rfl
  · rw [if_neg hdecided, if_neg hdecided]

theorem decided_unsettled :
    statusOf state.nodes decision.nodeId = some .dispatched ∧
      settlementOf state.nodes decision.nodeId = none := by
  obtain ⟨-, -, -, hc, hid, hf, -⟩ := dispatchedEntry_ok.1 hd
  have hentry := halign.entryOf_mem hnodup (mem_of_getElem? hc)
  rw [hid] at hentry
  constructor
  · rw [statusOf, hentry, Option.map_some, OutcomeNodeState.status, hf]
    rfl
  · unfold settlementOf
    rw [hentry]
    simp only [hf]

end

end

end

theorem advance_arms (hwf : plan.WellFormed) (hs : StateInvariant plan state)
    {advance : OutcomeAdvance} (h : advanceOutcomeGraph plan state decision context = .ok advance) :
    Aligned plan (settledNodes plan state decision context.now) ∧
      ∃ routed blocked,
        (routed = [] ∨ routed = successorsOf plan decision.nodeId decision.outcomeId) ∧
        (advance.state.stop = none → routed = successorsOf plan decision.nodeId
          decision.outcomeId) ∧
        ArmedAdvance plan context
          (settledNodes plan state decision context.now) routed blocked advance := by
  have hnodup := hwf.nodeIds_nodup
  obtain ⟨position, current, facts, routed, hd, hr, hclose, hdispatches, -⟩ :=
    advanceOutcomeGraph_ok h
  obtain ⟨-, -, -, hc, -, hf, -⟩ := dispatchedEntry_ok.1 hd
  rw [← settledNodes_eq hd] at hr
  have halign : Aligned plan (settledNodes plan state decision context.now) := by
    rw [settledNodes_eq hd]
    exact hs.aligned.set hc rfl
  have hnodes : advance.state.nodes = canonicalNodes plan routed.nodes := by
    rw [hclose]
    rfl
  obtain ⟨edges, blocked, progress, hedges, hfinal, happlied, hprogress, hdispatched⟩ :=
    routeSettled_applied hnodup halign hr
  refine ⟨halign, edges, blocked, hedges.imp_left fun hnone => hnone.1, fun hlive => ?_,
    armedAdvance_of_applied hnodup halign hfinal happlied (hdispatches.trans hdispatched)
      (hnodes.trans (by rw [hprogress]))⟩
  rcases hedges with ⟨rfl, hterminal | hstopped⟩ | hsuccessors
  · symm
    unfold successorsOf
    rw [filter_eq_nil_iff]
    intro edge he hedge
    simp only [decide_eq_true_eq] at hedge
    have hfalse := isTerminal_of_edge hwf he
    rw [hedge.1, hedge.2, hterminal] at hfalse
    cases hfalse
  · refine absurd ?_ hstopped
    rw [hclose, show (closeState plan state context.now routed).stop = closingStop
      plan (canonicalNodes plan routed.nodes) context.now
        routed.stop from rfl,
      closingStop_of_isSome (Option.isSome_iff_ne_none.2 hstopped)] at hlive
    exact hlive
  · exact hsuccessors

end Advance

section Verdicts
variable {plan : CompiledPlan} {context : AdvanceContext} {nodes : List OutcomeNodeState}
  {routed : List CompiledEdge}
variable {blocked : List String}

def armableTargets (plan : JoinTopology) (nodes : List OutcomeNodeState)
    (routed : List CompiledEdge) : List Candidate := armableOf nodes (candidatesOf plan routed)

def armableIds (plan : JoinTopology) (nodes : List OutcomeNodeState)
    (routed : List CompiledEdge) : List String :=
  (armableTargets plan nodes routed).map (·.node.id)

/-- Dispatched whatever becomes of the others: no arrival of a target and no reading matters. -/
def CertainlyArmed (plan : JoinTopology) (context : AdvanceContext)
    (nodes : List OutcomeNodeState) (routed : List CompiledEdge) (nodeId : String) : Prop :=
  ∃ candidate ∈ armableTargets plan nodes routed, candidate.node.id = nodeId ∧
    joinHolds plan nodes candidate.node (armableIds plan nodes routed) = true ∧
    ∀ inFlight, (∀ id ∈ inFlight, id ∈ armableIds plan nodes routed) →
      (inputsAgainst plan context nodes candidate.node inFlight).isResolved = true

structure MayBeInFlight (plan : JoinTopology) (context : AdvanceContext)
    (nodes : List OutcomeNodeState) (routed : List CompiledEdge) (inFlight : List String) :
    Prop where
  certain : ∀ id, CertainlyArmed plan context nodes routed id → id ∈ inFlight
  routed : ∀ id ∈ inFlight, id ∈ armableIds plan nodes routed

/-- A target whose inputs resolve for one set of targets in flight and not for another. -/
def Undecided (plan : JoinTopology) (context : AdvanceContext) (nodes : List OutcomeNodeState)
    (routed : List CompiledEdge) (nodeId : String) : Prop :=
  ∃ candidate ∈ armableTargets plan nodes routed, candidate.node.id = nodeId ∧
    (∃ inFlight, MayBeInFlight plan context nodes routed inFlight ∧
      (inputsAgainst plan context nodes candidate.node inFlight).isResolved = true) ∧
    ∃ inFlight, MayBeInFlight plan context nodes routed inFlight ∧
      (inputsAgainst plan context nodes candidate.node inFlight).isResolved = false

section

variable (hnodup : plan.nodeIds.Nodup)
include hnodup

section

variable (halign : Aligned plan nodes)
include halign

theorem mem_joinedCandidates {candidate : Candidate} :
    candidate ∈ joinedCandidates plan nodes (candidatesOf plan routed)
        (armableTargets plan nodes routed) blocked ↔
      candidate ∈ armableTargets plan nodes routed ∧
        joinHolds plan nodes candidate.node
          ((armableIds plan nodes routed).filter (· ∉ blocked)) = true := by
  have hdistinct : ((armableTargets plan nodes routed).map (·.node)).map (·.id)
      |>.Nodup := by
    rw [map_map]
    exact (candidatesOf_nodup hnodup routed).sublist (filter_sublist.map _)
  have hentry : ∀ node ∈ (armableTargets plan nodes routed).map (·.node),
      entryOf nodes node.id ≠ none := by
    intro node hnode
    obtain ⟨target, htarget, rfl⟩ := mem_map.1 hnode
    obtain ⟨entry, hentry, -⟩ := ((mem_armableOf hnodup halign).1 htarget).2
    rw [hentry]
    exact Option.some_ne_none _
  have hwithheld : firstWithheld ((armableTargets plan nodes routed).map (·.node))
      blocked = (armableIds plan nodes routed).filter (· ∉ blocked) := by
    unfold firstWithheld armableIds
    rw [map_map]
    rfl
  unfold joinedCandidates
  rw [mem_filter, decide_eq_true_eq, mem_resolveArmSet_iff hdistinct hentry, hwithheld]
  constructor
  · rintro ⟨hcandidate, node, hnode, hid, hholds⟩
    obtain ⟨target, htarget, rfl⟩ := mem_map.1 hnode
    have hsame : target = candidate := inj_on_of_nodup_map (candidatesOf_nodup hnodup routed)
      (mem_filter.1 htarget).1 hcandidate hid
    exact hsame ▸ ⟨htarget, hholds⟩
  · rintro ⟨htarget, hholds⟩
    exact ⟨(mem_filter.1 htarget).1, candidate.node, mem_map_of_mem htarget, rfl, hholds⟩

theorem joinedCandidates_of_holds (blocked : List String) {candidate : Candidate}
    (hmem : candidate ∈ armableTargets plan nodes routed)
    (hholds : joinHolds plan nodes candidate.node (armableIds plan nodes routed) = true) :
    candidate ∈ joinedCandidates plan nodes (candidatesOf plan routed)
      (armableTargets plan nodes routed) blocked := by
  rw [mem_joinedCandidates hnodup halign]
  exact ⟨hmem, joinHolds_anti (fun _ hin => (mem_filter.1 hin).1) hholds⟩

theorem MayBeInFlight.armed
    {inFlight : List String} (h : MayBeInFlight plan context nodes routed inFlight) :
    MayBeInFlight plan context nodes routed
      (armedAgainst plan context nodes
        (joinedCandidates plan nodes (candidatesOf plan routed)
          (armableTargets plan nodes routed) blocked) inFlight) := by
  constructor
  · rintro id ⟨candidate, hmem, hid, hholds, hinputs⟩
    exact mem_armedAgainst.2 ⟨candidate,
      joinedCandidates_of_holds hnodup halign blocked hmem hholds, hid, hinputs inFlight h.routed⟩
  · intro id hid
    obtain ⟨candidate, hjoined, rfl, -⟩ := mem_armedAgainst.1 hid
    exact mem_map_of_mem ((mem_joinedCandidates hnodup halign).1 hjoined).1

theorem roundBasis_mayBeInFlight (blocked : List String) :
    MayBeInFlight plan context nodes routed
      (roundBasis plan context nodes (candidatesOf plan routed)
        (armableTargets plan nodes routed) blocked) := by
  refine swingBasis_invariant (I := MayBeInFlight plan context nodes routed)
    (fun basis hbasis => (hbasis.armed hnodup halign).armed hnodup halign) _ ⟨?_, ?_⟩
  · rintro id ⟨candidate, hmem, rfl, hholds, -⟩
    exact mem_map_of_mem (joinedCandidates_of_holds hnodup halign blocked hmem hholds)
  · intro id hid
    obtain ⟨candidate, hjoined, rfl⟩ := mem_map.1 hid
    exact mem_map_of_mem ((mem_joinedCandidates hnodup halign).1 hjoined).1

/-- A round decides about a target by its join without the unblocked targets, and its inputs. -/
theorem mem_routedRound
    {arm : ArmDecision} (h : arm ∈ routedRound plan context nodes routed blocked) :
    arm.candidate ∈ armableTargets plan nodes routed ∧
      joinHolds plan nodes arm.candidate.node
        ((armableIds plan nodes routed).filter (· ∉ blocked)) = true ∧
      arm.assembled = inputsAgainst plan context nodes arm.candidate.node
        (roundBasis plan context nodes (candidatesOf plan routed)
          (armableTargets plan nodes routed) blocked) := by
  obtain ⟨hjoined, hassembled⟩ := mem_armingRound.1 h
  obtain ⟨hmem, hholds⟩ := (mem_joinedCandidates hnodup halign).1 hjoined
  exact ⟨hmem, hholds, hassembled⟩

theorem undecided_of_blocked
    {nodeId : String} (hfinal : FinalRound plan context nodes routed blocked)
    (hblocked : nodeId ∈ blocked)
    (harmed : nodeId ∈ armedIds (routedRound plan context nodes routed blocked)) :
    Undecided plan context nodes routed nodeId := by
  obtain ⟨arm, harm, rfl⟩ := mem_map.1 harmed
  obtain ⟨hround, hresolved⟩ := mem_filter.1 harm
  obtain ⟨hmem, -, hassembled⟩ := mem_routedRound hnodup halign hround
  obtain ⟨earlier, refused, hrefused, hid, hunresolved⟩ := hfinal.rounds.refused hblocked
  obtain ⟨hmem', -, hassembled'⟩ := mem_routedRound hnodup halign hrefused
  have hsame : refused.candidate = arm.candidate :=
    inj_on_of_nodup_map (candidatesOf_nodup hnodup routed) (mem_filter.1 hmem').1
      (mem_filter.1 hmem).1 hid
  refine ⟨arm.candidate, hmem, rfl, ⟨_, roundBasis_mayBeInFlight hnodup halign blocked, ?_⟩,
    _, roundBasis_mayBeInFlight hnodup halign earlier, ?_⟩
  · rw [← hassembled]
    exact hresolved
  · rw [← hsame, ← hassembled']
    exact hunresolved

end

end

end Verdicts

section Inputs
variable {plan : JoinTopology} {context : AdvanceContext} {nodes : List OutcomeNodeState}
variable {settledOf : String → Option String} {acceptedOf : String → AcceptedResultReading}
  {arrivals : List OutcomeArrival} {input : CompiledInputRef}

/-- The result each triggered input of a node would be bound to is readable. -/
def ReadableArrivals (plan : JoinTopology) (context : AdvanceContext)
    (nodes : List OutcomeNodeState) (node : CompiledNode) : Prop :=
  ∀ input ∈ node.inputs, input.triggered = true →
    ∀ arrival ∈ materializeArrivals plan nodes [] node.id,
      arrival.from = input.from → arrival.outcome = input.outcome →
      ∃ facts, readAcceptedOf context arrival.attemptId = .facts facts ∧
        facts.outcomeId = input.outcome

theorem assembleDownstreamInput_isResolved {inputs : List CompiledInputRef} :
    (assembleDownstreamInput inputs settledOf acceptedOf arrivals).isResolved = true ↔
      ∀ input ∈ inputs, ∀ refusal,
        readInput settledOf acceptedOf arrivals input ≠ .refused refusal := by
  unfold assembleDownstreamInput
  simp only
  constructor
  · intro h input hinput refusal hrefused
    split at h
    · next hnone =>
      rw [filterMap_eq_nil_iff] at hnone
      have hone := hnone _ (mem_map_of_mem hinput)
      rw [hrefused] at hone
      cases hone
    · cases h
  · intro h
    split
    · rfl
    next hsome =>
    refine absurd ?_ hsome
    rw [filterMap_eq_nil_iff]
    intro reading hreading
    obtain ⟨input, hinput, rfl⟩ := mem_map.1 hreading
    cases hread : readInput settledOf acceptedOf arrivals input with
    | refused refusal => exact absurd hread (h input hinput refusal)
    | untriggered => rfl
    | entry entry => rfl

theorem readInput_triggered {refusal : DownstreamInputRefusal} (htriggered : input.triggered = true)
    (h : readInput settledOf acceptedOf arrivals input = .refused refusal) :
    ∃ arrival ∈ arrivals, arrival.from = input.from ∧ arrival.outcome = input.outcome ∧
      ∀ facts, acceptedOf arrival.attemptId = .facts facts → facts.outcomeId ≠ input.outcome := by
  unfold readInput at h
  simp only [htriggered, if_true, true_and] at h
  split at h
  · cases h
  next hfound =>
  obtain ⟨arrival, harrival⟩ := Option.ne_none_iff_exists'.1 hfound
  have hmatch := find?_some harrival
  simp only [decide_eq_true_eq] at hmatch
  refine ⟨arrival, mem_of_find?_eq_some harrival, hmatch.1, hmatch.2, fun facts hfacts heq => ?_⟩
  rw [harrival, Option.map_some, Option.some_or] at h
  simp only [resolveInput, hfacts, heq, ne_eq, not_true_eq_false, if_false] at h
  cases h

theorem readInput_required {settledOf' : String → Option String} {arrivals' : List OutcomeArrival}
    (hrequired : input.triggered = false) (hsame : settledOf input.from = settledOf' input.from) :
    readInput settledOf acceptedOf arrivals input =
      readInput settledOf' acceptedOf arrivals' input := by
  unfold readInput
  simp [hrequired, hsame]

theorem readInput_unsettled (hrequired : input.triggered = false)
    (hnone : settledOf input.from = none) :
    ∃ refusal, readInput settledOf acceptedOf arrivals input = .refused refusal := by
  unfold readInput
  simp only [hrequired, hnone, Bool.false_eq_true, false_and, if_false, Option.map_none,
    Option.or_none]
  exact ⟨_, rfl⟩

theorem readInput_from {entry : ResolvedInput}
    (h : readInput settledOf acceptedOf arrivals input = .entry entry) :
    entry.from = input.from ∧ (settledOf input.from ≠ none ∨
      ∃ arrival ∈ arrivals, arrival.from = input.from) := by
  refine ⟨(readInput_entry h).1, ?_⟩
  cases htriggered : input.triggered with
  | true =>
    unfold readInput at h
    simp only [htriggered, if_true, true_and] at h
    split at h
    · cases h
    next hfound =>
    obtain ⟨arrival, harrival⟩ := Option.ne_none_iff_exists'.1 hfound
    have hmatch := find?_some harrival
    simp only [decide_eq_true_eq] at hmatch
    exact .inr ⟨arrival, mem_of_find?_eq_some harrival, hmatch.1⟩
  | false =>
    refine .inl fun hnone => ?_
    obtain ⟨refusal, hrefused⟩ := readInput_unsettled htriggered hnone
    rw [hrefused] at h
    cases h

theorem inputsAgainst_anti {node : CompiledNode} (hread : ReadableArrivals plan context nodes node)
    {inFlight inFlight' : List String} (hsub : ∀ id ∈ inFlight, id ∈ inFlight')
    (h : (inputsAgainst plan context nodes node inFlight').isResolved = true) :
    (inputsAgainst plan context nodes node inFlight).isResolved = true := by
  unfold inputsAgainst at h ⊢
  rw [assembleDownstreamInput_isResolved] at h ⊢
  intro input hinput refusal hrefused
  cases htriggered : input.triggered with
  | true =>
    obtain ⟨arrival, harrival, hfrom, houtcome, hunread⟩ := readInput_triggered htriggered hrefused
    obtain ⟨facts, hfacts, heq⟩ := hread input hinput htriggered arrival
      (materializeArrivals_anti (fun _ hin => absurd hin not_mem_nil) harrival) hfrom houtcome
    exact hunread facts hfacts heq
  | false =>
    have hout : input.from ∉ inFlight' := by
      intro hin
      have hnone : (if input.from ∈ inFlight' then none
          else settledAttemptOf nodes input.from) = none := if_pos hin
      have hmissing : ∃ missing, readInput
          (fun nodeId => if nodeId ∈ inFlight' then none else settledAttemptOf nodes nodeId)
          (readAcceptedOf context) (materializeArrivals plan nodes inFlight' node.id) input =
            .refused missing := readInput_unsettled htriggered hnone
      obtain ⟨missing, hmissing⟩ := hmissing
      exact h input hinput missing hmissing
    have hout' : input.from ∉ inFlight := fun hin => hout (hsub _ hin)
    refine h input hinput refusal ?_
    rw [← hrefused]
    exact readInput_required htriggered ((if_neg hout).trans (if_neg hout').symm)

theorem inputsAgainst_from {node : CompiledNode} {inFlight : List String}
    {entries : List ResolvedInput}
    (h : inputsAgainst plan context nodes node inFlight = .resolved entries) :
    ∀ entry ∈ entries, entry.from ∉ inFlight := by
  intro entry hentry hin
  obtain ⟨input, -, hread⟩ := assembleDownstreamInput_resolved h hentry
  obtain ⟨hfrom, hsource⟩ := readInput_from hread
  rw [hfrom] at hin
  rcases hsource with hsettled | ⟨arrival, harrival, hsame⟩
  · exact hsettled (if_pos hin)
  · exact (mem_materializeArrivals.1 harrival).2.1 (hsame ▸ hin)

end Inputs

/-- A dispatched node's join holds on settled nodes, and no input is read off a node dispatched. -/
structure ArmSafe (plan : JoinTopology) (advance : OutcomeAdvance) : Prop where
  joined : ∀ dispatch ∈ advance.dispatches, ∃ node ∈ plan.nodes, node.id = dispatch.nodeId ∧
    joinSatisfiedFor plan node
      (materializeArrivals plan advance.state.nodes [] node.id) = true
  arrived : ∀ dispatch ∈ advance.dispatches,
    ∀ arrival ∈ materializeArrivals plan advance.state.nodes [] dispatch.nodeId,
      statusOf advance.state.nodes arrival.from = some .settled ∧
        arrival.from ∉ advance.dispatches.map (·.nodeId)
  bound : ∀ dispatch ∈ advance.dispatches, ∀ input ∈ dispatch.inputs,
    input.from ∉ advance.dispatches.map (·.nodeId)

/-- Inputs of targets are readable, and no join of a target hears an undecided one. -/
structure DecidedArming (plan : JoinTopology) (context : AdvanceContext)
    (nodes : List OutcomeNodeState) (routed : List CompiledEdge) : Prop where
  readable : ∀ candidate ∈ armableTargets plan nodes routed,
    ReadableArrivals plan context nodes candidate.node
  unheard : ∀ candidate ∈ armableTargets plan nodes routed,
    ∀ arrival ∈ materializeArrivals plan nodes [] candidate.node.id,
      arrival.from ∈ plan.feederSourcesOf candidate.node.id →
        ¬ Undecided plan context nodes routed arrival.from

section Main
variable {plan : CompiledPlan} {context : AdvanceContext} {nodes : List OutcomeNodeState}
  {routed : List CompiledEdge} {blocked : List String} {advance : OutcomeAdvance}

/-- The arrivals left behind are those of the settled nodes that were not dispatched again. -/
theorem ArmedAdvance.arrivals (h : ArmedAdvance plan context nodes routed blocked advance)
    (targetId : String) :
    materializeArrivals plan advance.state.nodes [] targetId =
      materializeArrivals plan nodes
        (armedIds (routedRound plan context nodes routed blocked)) targetId := by
  unfold materializeArrivals
  refine filterMap_congr fun source _ => ?_
  rw [h.settlement]
  by_cases harmed : source.id ∈
      armedIds (routedRound plan context nodes routed blocked)
  · rw [if_pos harmed, if_pos harmed]
    simp
  · rw [if_neg harmed, if_neg harmed]
    simp

theorem statusOf_of_settlement {nodes' : List OutcomeNodeState} {nodeId outcomeId attemptId : String}
    (h : settlementOf nodes' nodeId = some (outcomeId, attemptId)) :
    statusOf nodes' nodeId = some .settled := by
  obtain ⟨entry, facts, settledAt, hentry, hprogress, -⟩ := settlementOf_eq_some.1 h
  unfold statusOf
  rw [hentry, Option.map_some, OutcomeNodeState.status, hprogress]
  rfl

theorem armedIds_basis (hnodup : plan.nodeIds.Nodup) (halign : Aligned plan nodes)
    (hread : ∀ candidate ∈ armableTargets plan nodes routed,
      ReadableArrivals plan context nodes candidate.node) :
    armedIds (routedRound plan context nodes routed blocked) ⊆
      roundBasis plan context nodes (candidatesOf plan routed)
        (armableTargets plan nodes routed) blocked := by
  have hcovers : armedAgainst plan context nodes
      (joinedCandidates plan nodes (candidatesOf plan routed)
        (armableTargets plan nodes routed) blocked)
      (roundBasis plan context nodes (candidatesOf plan routed)
        (armableTargets plan nodes routed) blocked) ⊆
      roundBasis plan context nodes (candidatesOf plan routed)
        (armableTargets plan nodes routed) blocked := by
    refine swingBasis_covers (fun basis basis' hsub id hid => ?_) _ fun id hid => ?_
    · obtain ⟨candidate, hjoined, hsame, hresolved⟩ := mem_armedAgainst.1 hid
      have hmem := ((mem_joinedCandidates hnodup halign).1 hjoined).1
      exact mem_armedAgainst.2 ⟨candidate, hjoined, hsame,
        inputsAgainst_anti (hread candidate hmem) (fun _ hin => hsub hin) hresolved⟩
    · obtain ⟨candidate, hjoined, rfl, -⟩ := mem_armedAgainst.1 hid
      exact mem_map_of_mem hjoined
  exact hcovers

theorem armed_joined (hnodup : plan.nodeIds.Nodup) (halign : Aligned plan nodes)
    (hfinal : FinalRound plan context nodes routed blocked)
    (hdecided : DecidedArming plan context nodes routed) {arm : ArmDecision}
    (harm : arm ∈ routedRound plan context nodes routed blocked) :
    joinHolds plan nodes arm.candidate.node
      (armedIds (routedRound plan context nodes routed blocked)) = true := by
  obtain ⟨hmem, hholds, -⟩ := mem_routedRound hnodup halign harm
  refine joinHolds_of_arrivals (fun arrival harrival hfeeder => ?_) hholds
  obtain ⟨hin, hwithheld, hrest⟩ := mem_materializeArrivals.1 harrival
  refine mem_materializeArrivals.2 ⟨hin, fun harmed => ?_, hrest⟩
  have hunblocked : arrival.from ∉ blocked := by
    intro hblocked
    have hall := materializeArrivals_anti (fun _ hno => absurd hno not_mem_nil) harrival
    exact hdecided.unheard _ hmem arrival hall hfeeder
      (undecided_of_blocked hnodup halign hfinal hblocked harmed)
  obtain ⟨other, hother, hid⟩ := mem_map.1 harmed
  obtain ⟨htarget, -, -⟩ := mem_routedRound hnodup halign (mem_filter.1 hother).1
  refine hwithheld (mem_filter.2 ⟨?_, by simpa using hunblocked⟩)
  rw [← hid]
  exact mem_map_of_mem htarget

theorem ArmedAdvance.armSafe (hnodup : plan.nodeIds.Nodup) (halign : Aligned plan nodes)
    (h : ArmedAdvance plan context nodes routed blocked advance)
    (hdecided : DecidedArming plan context nodes routed) : ArmSafe plan advance := by
  refine ⟨fun dispatch hd => ?_, fun dispatch _ arrival harrival => ?_,
    fun dispatch hd input hinput => ?_⟩
  · obtain ⟨arm, harm, hid, -⟩ := h.bound dispatch hd
    obtain ⟨hmem, -, -⟩ := mem_routedRound hnodup halign harm
    refine ⟨arm.candidate.node, ?_, hid, ?_⟩
    · exact mem_of_getElem? (mem_candidatesOf.1 (mem_filter.1 hmem).1).1
    · rw [h.arrivals]
      exact armed_joined hnodup halign h.final hdecided harm
  · refine ⟨statusOf_of_settlement (mem_materializeArrivals.1 harrival).2.2.1, ?_⟩
    rw [h.arrivals] at harrival
    rw [h.dispatched]
    exact (mem_materializeArrivals.1 harrival).2.1
  · obtain ⟨arm, harm, -, hassembled⟩ := h.bound dispatch hd
    obtain ⟨-, -, hread⟩ := mem_routedRound hnodup halign harm
    rw [hread] at hassembled
    rw [h.dispatched]
    exact fun harmed => inputsAgainst_from hassembled input hinput
      (armedIds_basis hnodup halign hdecided.readable harmed)

/-- Every advance of a reachable state whose targets are decided is safe. -/
theorem arm_safety {host : DigestHost} {raw : Json} {options : CompileOptions}
    {state : OutcomeGraphState} {decision : AcceptedDecision}
    (hcompiled : compileGraph host raw options = .executable plan)
    (hreach : ReachableState AnyContext plan state)
    (hadv : advanceOutcomeGraph plan state decision context = .ok advance)
    (hdecided : DecidedArming plan context (settledNodes plan state decision context.now)
      (successorsOf plan decision.nodeId decision.outcomeId)) : ArmSafe plan advance := by
  have hwf := compileGraph_wellFormed hcompiled
  have hnodup := hwf.nodeIds_nodup
  obtain ⟨halign, routed, blocked, hrouted, -, harmed⟩ :=
    advance_arms hwf (ReachableState.invariant hnodup hreach) hadv
  rcases hrouted with rfl | rfl
  · have hnone : advance.dispatches = [] := by
      rw [← map_eq_nil_iff, harmed.dispatched, routedRound_nil]
      rfl
    refine ⟨?_, ?_, ?_⟩ <;> rw [hnone] <;> simp
  · exact harmed.armSafe hnodup halign hdecided

end Main

def readingContext (results : List (String × String)) : AdvanceContext :=
  { plainContext with
    readAcceptedResult := some fun attemptId =>
      (results.lookup attemptId).elim .none fun outcomeId => .facts ⟨outcomeId, .absent, []⟩ }

theorem countedState_advance :
    ∃ advance, advanceOutcomeGraph (plainPlan "g" "r" countedTopology) countedState
      (plainDecision "A" "A#2" "again") plainContext = .ok advance ∧
      advance.dispatches.map (·.nodeId) = ["A"] ∧ advance.state.stop = none := ⟨_, rfl, rfl, rfl⟩

theorem countedState_candidate {candidate : Candidate}
    (h : candidate ∈ armableTargets countedTopology
      (settledNodes (plainPlan "g" "r" countedTopology) countedState
        (plainDecision "A" "A#2" "again") 0) (successorsOf countedTopology "A" "again")) :
    candidate = ⟨plainNode "A" ["again", "done"] (some .any) [], 0⟩ := mem_singleton.1 h

/-- The member's own re-entry hears its feeder alone. -/
theorem countedState_armSafe :
    ∃ advance, advanceOutcomeGraph (plainPlan "g" "r" countedTopology) countedState
      (plainDecision "A" "A#2" "again") plainContext = .ok advance ∧
      advance.dispatches.map (·.nodeId) = ["A"] ∧ ArmSafe countedTopology advance := by
  obtain ⟨advance, hadv, hdispatched, -⟩ := countedState_advance
  refine ⟨advance, hadv, hdispatched,
    arm_safety countedTopology_compiles countedState_reachable hadv ⟨?_, ?_⟩⟩
  · intro candidate hcandidate input hinput
    rw [countedState_candidate hcandidate] at hinput
    cases hinput
  · rintro candidate hcandidate arrival - hfeeder ⟨target, htarget, hid, -⟩
    have hfeeds : countedTopology.feederSourcesOf "A" = ["E"] := by decide
    rw [countedState_candidate hcandidate] at hfeeder
    have hfrom : arrival.from = "E" := mem_singleton.1 (hfeeds ▸ hfeeder)
    rw [countedState_candidate htarget, hfrom] at hid
    exact absurd hid (by decide)

/-- A router, and four members that feed one another around it, `M` ready on two of three. -/
def rearmedTopology : JoinTopology :=
  { nodes :=
      [plainNode "E" ["go"] none [], plainNode "M" ["w"] (some (.quorum 2)) [],
        plainNode "N" ["again", "start", "stop"] (some .any) [],
        plainNode "P" ["y"] (some .any) [⟨"M", "w", false⟩],
        plainNode "R" ["x"] (some .any) [⟨"P", "y", false⟩], plainNode "T" ["ok"] (some .any) []]
    edges :=
      [⟨"E", "N", "go"⟩, ⟨"M", "P", "w"⟩, ⟨"N", "M", "again"⟩, ⟨"N", "M", "start"⟩,
        ⟨"N", "P", "again"⟩, ⟨"N", "P", "start"⟩, ⟨"N", "R", "again"⟩, ⟨"N", "R", "start"⟩,
        ⟨"N", "T", "start"⟩, ⟨"P", "R", "y"⟩, ⟨"P", "T", "y"⟩, ⟨"R", "M", "x"⟩,
        ⟨"R", "N", "x"⟩, ⟨"T", "M", "ok"⟩]
    loopGroups := [⟨"l", ["M", "N", "P", "R", "T"], 2, "again", "stop", none⟩] }

def rearmedContext : AdvanceContext := readingContext [("M#4", "w"), ("P#5", "y")]

def rearmedDecisions : List AcceptedDecision :=
  [plainDecision "E" "E#1" "go", plainDecision "N" "N#2" "start", plainDecision "T" "T#3" "ok",
    plainDecision "M" "M#4" "w", plainDecision "P" "P#5" "y", plainDecision "R" "R#6" "x"]

def joinsHold (plan : JoinTopology) (advance : OutcomeAdvance) : Bool :=
  advance.dispatches.all fun dispatch => plan.nodes.any fun node =>
    node.id = dispatch.nodeId && joinSatisfiedFor plan node
      (materializeArrivals plan advance.state.nodes [] node.id)

theorem rearmed_joins :
    (runDecisions (plainPlan "g" "r" rearmedTopology) rearmedContext rearmedDecisions).bind
      (fun state => (advanceOutcomeGraph (plainPlan "g" "r" rearmedTopology) state
        (plainDecision "N" "N#8" "again") rearmedContext).toOption.map
          (joinsHold rearmedTopology)) = some false := by
  decide +kernel

/-- The router's next round arms `R` after all, on whose old arrival `M` was armed. -/
theorem rearmed_unsafe :
    compileGraph (plainHost "r") (declareTopology "g" rearmedTopology) plainOptions =
      .executable (plainPlan "g" "r" rearmedTopology) ∧
    ∃ state advance, ReachableState AnyContext (plainPlan "g" "r" rearmedTopology) state ∧
      advanceOutcomeGraph (plainPlan "g" "r" rearmedTopology) state
        (plainDecision "N" "N#8" "again") rearmedContext = .ok advance ∧
      ¬ ArmSafe rearmedTopology advance := by
  refine ⟨rfl, ?_⟩
  obtain ⟨state, hrun, hchecked⟩ := Option.bind_eq_some_iff.1 rearmed_joins
  obtain ⟨advance, hadvance, hfails⟩ := Option.map_eq_some_iff.1 hchecked
  refine ⟨state, advance, runDecisions_reachable trivial hrun, toOption_eq_some.1 hadvance,
    fun hsafe => ?_⟩
  have hholds : joinsHold rearmedTopology advance = true := by
    unfold joinsHold
    rw [all_eq_true]
    intro dispatch hd
    obtain ⟨node, hnode, hid, hjoin⟩ := hsafe.joined dispatch hd
    rw [any_eq_true]
    refine ⟨node, hnode, ?_⟩
    rw [hjoin, hid, decide_eq_true rfl]
    rfl
  rw [hfails] at hholds
  cases hholds

end Rolebox.Graph
