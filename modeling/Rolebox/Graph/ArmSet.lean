import Rolebox.Graph.AdvanceSpec

/-! The arm set of one advance, and the round the arming loop ends on. -/

namespace Rolebox.Graph
open General List

section Joins
variable {plan : JoinTopology} {nodes : List OutcomeNodeState}
variable {target : CompiledNode} {arrived feeders : List String} {node : CompiledNode}
  {withheld : List String}

theorem mem_materializeArrivals {suppressed : List String} {targetId : String}
    {arrival : OutcomeArrival} :
    arrival ∈ materializeArrivals plan nodes suppressed targetId ↔
      arrival.from ∈ plan.nodeIds ∧ arrival.from ∉ suppressed ∧
        settlementOf nodes arrival.from = some (arrival.outcome, arrival.attemptId) ∧
        ∃ edge ∈ plan.edges, edge.from = arrival.from ∧ edge.to = targetId ∧
          edge.outcome = arrival.outcome := by
  unfold materializeArrivals
  rw [mem_filterMap]
  constructor
  · rintro ⟨source, hsource, h⟩
    split at h
    · cases h
    next hsup =>
    split at h
    · cases h
    next outcomeId attemptId hsettled =>
    split at h
    · next hedge =>
      cases h
      exact ⟨mem_map_of_mem hsource, hsup, hsettled, by simpa [and_assoc] using hedge⟩
    · cases h
  · rintro ⟨hin, hsup, hsettled, hedge⟩
    obtain ⟨source, hsource, hid⟩ := mem_map.1 hin
    refine ⟨source, hsource, ?_⟩
    rw [hid, if_neg hsup, hsettled]
    simp only
    rw [if_pos (by simpa [and_assoc] using hedge)]

theorem materializeArrivals_anti {suppressed suppressed' : List String} {targetId : String}
    (hsub : ∀ id ∈ suppressed, id ∈ suppressed') {arrival : OutcomeArrival}
    (h : arrival ∈ materializeArrivals plan nodes suppressed' targetId) :
    arrival ∈ materializeArrivals plan nodes suppressed targetId := by
  obtain ⟨hin, hsup, hrest⟩ := mem_materializeArrivals.1 h
  exact mem_materializeArrivals.2 ⟨hin, fun hmem => hsup (hsub _ hmem), hrest⟩

theorem joinSatisfiedBy_mono {arrived' : List String}
    (hsub : ∀ feeder ∈ feeders, feeder ∈ arrived → feeder ∈ arrived')
    (h : joinSatisfiedBy target arrived feeders = true) :
    joinSatisfiedBy target arrived' feeders = true := by
  have hle : (feeders.filter (· ∈ arrived)).length ≤ (feeders.filter (· ∈ arrived')).length := by
    rw [← countP_eq_length_filter, ← countP_eq_length_filter]
    refine countP_mono_left fun feeder hf ha => ?_
    simpa using hsub feeder hf (by simpa using ha)
  have htop : (feeders.filter (· ∈ arrived')).length ≤ feeders.length := length_filter_le _ _
  unfold joinSatisfiedBy at h ⊢
  split
  · rfl
  next hne =>
  rw [if_neg hne] at h
  simp only at h ⊢
  cases hstrategy : resolveJoinStrategy target.join with
  | quorum quorum | any =>
    simp only [hstrategy, decide_eq_true_eq] at h ⊢
    exact h.trans hle
  | all =>
    simp only [hstrategy, decide_eq_true_eq] at h ⊢
    omega

theorem resolveJoinStrategy_quorum {join : Option JoinConfig} {quorum : Nat}
    (h : resolveJoinStrategy join = .quorum quorum) : 1 ≤ quorum := by
  unfold resolveJoinStrategy at h
  split at h <;> cases h
  split <;> omega

theorem joinSatisfiedBy_unheard (hfed : feeders ≠ []) (h : ∀ feeder ∈ feeders, feeder ∉ arrived) :
    joinSatisfiedBy target arrived feeders = false := by
  have hnone : feeders.filter (· ∈ arrived) = [] := by
    rw [filter_eq_nil_iff]
    intro feeder hfeeder
    simpa using h feeder hfeeder
  have hlength : feeders.length ≠ 0 := fun hzero => hfed (length_eq_zero_iff.1 hzero)
  unfold joinSatisfiedBy
  rw [if_neg hfed, hnone]
  cases hstrategy : resolveJoinStrategy target.join with
  | all => exact decide_eq_false fun hzero => hlength hzero.symm
  | any => rfl
  | quorum quorum =>
    have hpos := resolveJoinStrategy_quorum hstrategy
    exact decide_eq_false fun hle => absurd (hpos.trans hle) (by simp)

theorem joinSatisfiedBy_all (hall : resolveJoinStrategy target.join = .all)
    (h : joinSatisfiedBy target arrived feeders = true) : ∀ feeder ∈ feeders, feeder ∈ arrived := by
  unfold joinSatisfiedBy at h
  split at h
  · next hnone =>
    rw [hnone]
    exact nofun
  · simp only [hall, decide_eq_true_eq, length_filter_eq_length_iff] at h
    exact h

def joinHolds (plan : JoinTopology) (nodes : List OutcomeNodeState) (node : CompiledNode)
    (withheld : List String) : Bool :=
  joinSatisfiedFor plan node (materializeArrivals plan nodes withheld node.id)

theorem joinHolds_of_arrivals {nodes' : List OutcomeNodeState} {withheld' : List String}
    (hsub : ∀ arrival ∈ materializeArrivals plan nodes withheld node.id,
      arrival.from ∈ plan.feederSourcesOf node.id →
        arrival ∈ materializeArrivals plan nodes' withheld' node.id)
    (h : joinHolds plan nodes node withheld = true) :
    joinHolds plan nodes' node withheld' = true := by
  refine joinSatisfiedBy_mono (fun feeder hfeeder hf => ?_) h
  obtain ⟨arrival, harrival, rfl⟩ := mem_map.1 hf
  exact mem_map_of_mem (hsub arrival harrival hfeeder)

theorem joinHolds_anti {withheld' : List String} (hsub : ∀ id ∈ withheld, id ∈ withheld')
    (h : joinHolds plan nodes node withheld' = true) : joinHolds plan nodes node withheld = true :=
  joinHolds_of_arrivals (fun _ ha _ => materializeArrivals_anti hsub ha) h

theorem joinHolds_all (hall : resolveJoinStrategy node.join = .all)
    (h : joinHolds plan nodes node withheld = true) {feeder : String}
    (hfeeder : feeder ∈ plan.feederSourcesOf node.id) :
    ∃ arrival ∈ materializeArrivals plan nodes withheld node.id, arrival.from = feeder :=
  mem_map.1 (joinSatisfiedBy_all hall h feeder hfeeder)

def firstWithheld (armable : List CompiledNode) (notInFlight : List String) : List String :=
  (armable.map (·.id)).filter (· ∉ notInFlight)

/-- The first round drops every candidate the arm decision will ever drop. -/
theorem armRound_twice (armable : List CompiledNode) (notInFlight : List String) :
    armRound plan nodes armable notInFlight (armRound plan nodes armable notInFlight []) =
      armRound plan nodes armable notInFlight [] := by
  generalize hfirst : armRound plan nodes armable notInFlight [] = dropped
  have hnone : (armable.filter fun node => node.id ∉ dropped ∧
      (entryOf nodes node.id = none ∨
        joinSatisfiedFor plan node (materializeArrivals plan nodes
          ((armable.filter fun node => node.id ∉ dropped ∧ node.id ∉ notInFlight).map (·.id))
          node.id) = false)) = [] := by
    rw [filter_eq_nil_iff]
    intro node hnode
    simp only [decide_eq_true_eq, not_and]
    intro hkept
    have hheld : ¬ (entryOf nodes node.id = none ∨
        joinHolds plan nodes node ((armable.filter fun node =>
          node.id ∉ ([] : List String) ∧ node.id ∉ notInFlight).map (·.id)) = false) := by
      intro hfail
      refine hkept ?_
      rw [← hfirst]
      exact mem_append_right _ (mem_map_of_mem
        (mem_filter.2 ⟨hnode, by simpa [joinHolds] using hfail⟩))
    intro hfail
    rcases hfail with habsent | hfail
    · exact hheld (.inl habsent)
    refine hheld (.inr ?_)
    rw [Bool.eq_false_iff] at hfail ⊢
    refine fun hholds => hfail (joinHolds_anti (fun id hid => ?_) hholds)
    obtain ⟨other, hother, rfl⟩ := mem_map.1 hid
    obtain ⟨harmable, hstays⟩ := mem_filter.1 hother
    refine mem_map_of_mem (mem_filter.2 ⟨harmable, ?_⟩)
    simp only [decide_eq_true_eq] at hstays ⊢
    exact ⟨not_mem_nil, hstays.2⟩
  unfold armRound
  simp only
  rw [hnone, map_nil, append_nil]

theorem mem_resolveArmSet_iff {armable : List CompiledNode} {notInFlight : List String}
    (hnodup : (armable.map (·.id)).Nodup)
    (hentry : ∀ node ∈ armable, entryOf nodes node.id ≠ none) {nodeId : String} :
    nodeId ∈ resolveArmSet plan nodes armable notInFlight ↔
      ∃ node ∈ armable, node.id = nodeId ∧
        joinHolds plan nodes node (firstWithheld armable notInFlight) = true := by
  have hsettled : saturate (armRound plan nodes armable notInFlight) (armable.length + 1) [] =
      armRound plan nodes armable notInFlight [] := by
    rw [saturate]
    split
    · next hfixed => exact hfixed.symm
    · exact saturate_of_fixed (armRound_twice armable notInFlight) _
  have hwithheld : ((armable.filter fun node =>
      node.id ∉ ([] : List String) ∧ node.id ∉ notInFlight).map (·.id)) =
        firstWithheld armable notInFlight := by
    unfold firstWithheld
    rw [filter_map]
    congr 1
    refine filter_congr fun node _ => ?_
    simp
  have hdropped : ∀ node ∈ armable, node.id ∈ armRound plan nodes armable notInFlight [] ↔
      joinHolds plan nodes node (firstWithheld armable notInFlight) = false := by
    intro node hnode
    unfold armRound
    simp only [nil_append]
    rw [hwithheld, mem_map]
    constructor
    · rintro ⟨other, hother, hid⟩
      obtain ⟨harmable, hfail⟩ := mem_filter.1 hother
      have hsame : other = node := inj_on_of_nodup_map hnodup harmable hnode hid
      rw [hsame] at hfail
      simp only [decide_eq_true_eq] at hfail
      exact hfail.2.resolve_left (hentry node hnode)
    · intro hfail
      refine ⟨node, mem_filter.2 ⟨hnode, ?_⟩, rfl⟩
      simp only [decide_eq_true_eq]
      exact ⟨not_mem_nil, .inr hfail⟩
  unfold resolveArmSet
  simp only [hsettled]
  rw [mem_map]
  constructor
  · rintro ⟨node, hnode, rfl⟩
    obtain ⟨harmable, hkept⟩ := mem_filter.1 hnode
    refine ⟨node, harmable, rfl, ?_⟩
    have hnot := mt (hdropped node harmable).2 (by simpa using hkept)
    simpa using hnot
  · rintro ⟨node, harmable, rfl, hholds⟩
    refine ⟨node, mem_filter.2 ⟨harmable, ?_⟩, rfl⟩
    have hnot := mt (hdropped node harmable).1 (by simp [hholds])
    simpa using hnot

end Joins

section Rounds
variable {plan : JoinTopology} {context : AdvanceContext} {nodes : List OutcomeNodeState}
variable {routedCandidates candidates armable : List Candidate} {blocked : List String}

/-- The declared inputs of one node, assembled while the nodes `inFlight` count as armed. -/
def inputsAgainst (plan : JoinTopology) (context : AdvanceContext)
    (nodes : List OutcomeNodeState) (node : CompiledNode) (inFlight : List String) :
    DownstreamInput :=
  assembleDownstreamInput node.inputs
    (fun nodeId => if nodeId ∈ inFlight then none else settledAttemptOf nodes nodeId)
    (readAcceptedOf context) (materializeArrivals plan nodes inFlight node.id)

theorem mem_armedAgainst {inFlight : List String} {nodeId : String} :
    nodeId ∈ armedAgainst plan context nodes routedCandidates inFlight ↔
      ∃ candidate ∈ routedCandidates, candidate.node.id = nodeId ∧
        (inputsAgainst plan context nodes candidate.node inFlight).isResolved = true := by
  unfold armedAgainst assembleAgainst
  rw [filter_map, map_map, mem_map]
  constructor
  · rintro ⟨candidate, hc, rfl⟩
    obtain ⟨hmem, hresolved⟩ := mem_filter.1 hc
    exact ⟨candidate, hmem, rfl, hresolved⟩
  · rintro ⟨candidate, hmem, rfl, hresolved⟩
    exact ⟨candidate, mem_filter.2 ⟨hmem, hresolved⟩, rfl⟩

theorem swingBasis_invariant {I : List String → Prop}
    (hstep : ∀ basis, I basis → I (armedAgainst plan context nodes routedCandidates
      (armedAgainst plan context nodes routedCandidates basis))) (rounds : Nat)
    {basis : List String} (h : I basis) :
    I (swingBasis plan context nodes routedCandidates rounds basis) := by
  induction rounds generalizing basis with
  | zero => exact h
  | succ rounds ih =>
    rw [swingBasis]
    split
    · exact h
    · exact ih (hstep basis h)

/-- Where arming is antitone in what is in flight, it arms nothing outside the settled set. -/
theorem swingBasis_covers (hanti : ∀ basis basis', basis ⊆ basis' →
      armedAgainst plan context nodes routedCandidates basis' ⊆
        armedAgainst plan context nodes routedCandidates basis) (rounds : Nat) {basis : List String}
    (h : armedAgainst plan context nodes routedCandidates basis ⊆ basis) :
    armedAgainst plan context nodes routedCandidates
        (swingBasis plan context nodes routedCandidates rounds basis) ⊆
      swingBasis plan context nodes routedCandidates rounds basis := by
  refine swingBasis_invariant (I := fun basis =>
    armedAgainst plan context nodes routedCandidates basis ⊆ basis) ?_ rounds h
  intro basis hbasis
  exact hanti _ _ (hanti _ _ hbasis)

def joinedCandidates (plan : JoinTopology) (nodes : List OutcomeNodeState)
    (candidates armable : List Candidate) (blocked : List String) : List Candidate :=
  candidates.filter fun candidate =>
    candidate.node.id ∈ resolveArmSet plan nodes (armable.map (·.node)) blocked

def roundBasis (plan : JoinTopology) (context : AdvanceContext) (nodes : List OutcomeNodeState)
    (candidates armable : List Candidate) (blocked : List String) : List String :=
  let routedCandidates := joinedCandidates plan nodes candidates armable blocked
  swingBasis plan context nodes routedCandidates (routedCandidates.length + 1)
    (routedCandidates.map (·.node.id))

theorem mem_armingRound {decision : ArmDecision} :
    decision ∈ armingRound plan context nodes candidates armable blocked ↔
      decision.candidate ∈ joinedCandidates plan nodes candidates armable blocked ∧
        decision.assembled = inputsAgainst plan context nodes decision.candidate.node
          (roundBasis plan context nodes candidates armable blocked) := by
  unfold armingRound assembleAgainst
  simp only
  rw [mem_map]
  constructor
  · rintro ⟨candidate, hc, rfl⟩
    exact ⟨hc, rfl⟩
  · rintro ⟨hc, hassembled⟩
    refine ⟨decision.candidate, hc, ?_⟩
    rw [show decision = ⟨decision.candidate, decision.assembled⟩ from rfl, hassembled]
    rfl

theorem armingRound_ids (blocked : List String) :
    (armingRound plan context nodes candidates armable blocked).map (·.candidate.node.id) =
      (joinedCandidates plan nodes candidates armable blocked).map (·.node.id) := by
  unfold armingRound assembleAgainst joinedCandidates
  rw [map_map]
  rfl

inductive ArmingRounds (plan : JoinTopology) (context : AdvanceContext)
    (nodes : List OutcomeNodeState) (candidates armable : List Candidate) : List String → Prop
  | first : ArmingRounds plan context nodes candidates armable []
  | next {blocked : List String} (h : ArmingRounds plan context nodes candidates armable blocked) :
      ArmingRounds plan context nodes candidates armable
        (blocked ++ newlyBlocked
          (armingRound plan context nodes candidates armable blocked) blocked)

theorem ArmingRounds.refused (h : ArmingRounds plan context nodes candidates armable blocked)
    {nodeId : String} (hmem : nodeId ∈ blocked) :
    ∃ earlier, ∃ decision ∈ armingRound plan context nodes candidates armable earlier,
      decision.candidate.node.id = nodeId ∧ decision.assembled.isResolved = false := by
  induction h with
  | first => cases hmem
  | next _ ih =>
    rcases mem_append.1 hmem with hmem | hmem
    · exact ih hmem
    · obtain ⟨decision, hd, rfl⟩ := mem_map.1 hmem
      obtain ⟨hround, hrefused⟩ := mem_filter.1 hd
      exact ⟨_, decision, hround, rfl, by simpa using (of_decide_eq_true hrefused).1⟩

theorem newlyBlocked_spec (hnodup : (candidates.map (·.node.id)).Nodup) :
    (newlyBlocked (armingRound plan context nodes candidates armable blocked) blocked).Nodup ∧
      ∀ id ∈ newlyBlocked (armingRound plan context nodes candidates armable blocked) blocked,
        id ∈ candidates.map (·.node.id) ∧ id ∉ blocked := by
  constructor
  · have hround : ((armingRound plan context nodes candidates armable blocked).map
        (·.candidate.node.id)).Nodup := by
      rw [armingRound_ids]
      exact hnodup.sublist (filter_sublist.map _)
    exact hround.sublist (filter_sublist.map _)
  · intro id hid
    obtain ⟨decision, hd, rfl⟩ := mem_map.1 hid
    obtain ⟨hround, hrefused⟩ := mem_filter.1 hd
    have hjoined := (mem_armingRound.1 hround).1
    exact ⟨mem_map_of_mem (mem_filter.1 hjoined).1, (of_decide_eq_true hrefused).2⟩

theorem decideArming_final {fuel : Nat} (hnodup : (candidates.map (·.node.id)).Nodup)
    (hrounds : ArmingRounds plan context nodes candidates armable blocked)
    (hblocked : blocked.Nodup) (hsub : ∀ id ∈ blocked, id ∈ candidates.map (·.node.id))
    (hfuel : candidates.length ≤ fuel + blocked.length) :
    ∃ final, ArmingRounds plan context nodes candidates armable final ∧
      decideArming plan context nodes candidates armable fuel blocked =
        armingRound plan context nodes candidates armable final ∧
      newlyBlocked (armingRound plan context nodes candidates armable final) final = [] := by
  have hgrown : (newlyBlocked (armingRound plan context nodes candidates armable blocked)
      blocked).Nodup ∧ ∀ id ∈ newlyBlocked (armingRound plan context nodes candidates armable
        blocked) blocked, id ∈ candidates.map (·.node.id) ∧ id ∉ blocked :=
    newlyBlocked_spec hnodup
  induction fuel generalizing blocked with
  | zero =>
    refine ⟨blocked, hrounds, rfl, ?_⟩
    rw [eq_nil_iff_forall_not_mem]
    intro id hid
    obtain ⟨hin, hout⟩ := hgrown.2 id hid
    have hcons : (id :: blocked).Nodup := nodup_cons.2 ⟨hout, hblocked⟩
    have hsubset : (id :: blocked) ⊆ candidates.map (·.node.id) := cons_subset.2 ⟨hin, hsub⟩
    have hle := (hcons.subperm hsubset).length_le
    simp only [length_cons, length_map] at hle
    omega
  | succ fuel ih =>
    rw [decideArming]
    split
    · next hnone => exact ⟨blocked, hrounds, rfl, hnone⟩
    next hsome =>
    have hpos := length_pos_iff.2 hsome
    refine ih hrounds.next ?_ ?_ ?_ (newlyBlocked_spec hnodup)
    · exact Nodup.append hblocked hgrown.1 fun id hold hnew => (hgrown.2 id hnew).2 hold
    · intro id hid
      rcases mem_append.1 hid with hid | hid
      · exact hsub id hid
      · exact (hgrown.2 id hid).1
    · rw [length_append]
      omega

end Rounds

section Applying
variable {plan : CompiledPlan} {context : AdvanceContext} {nodes : List OutcomeNodeState}
variable {index : Nat} {node : CompiledNode} {progress progress' : Dispatching}
  {decision : ArmDecision} {routed : List CompiledEdge}

theorem Aligned.set_at (halign : Aligned plan nodes) (hnode : plan.nodes[index]? = some node)
    {entry : OutcomeNodeState} (hid : entry.nodeId = node.id) :
    Aligned plan (nodes.set index entry) := by
  obtain ⟨hlt, hget⟩ := List.getElem?_eq_some_iff.1 hnode
  unfold Aligned at halign ⊢
  rw [map_set, halign, hid, ← hget]
  unfold JoinTopology.nodeIds
  rw [← map_set, set_getElem_self]

theorem Aligned.entryOf_set (hnodup : plan.nodeIds.Nodup) (halign : Aligned plan nodes)
    (hnode : plan.nodes[index]? = some node) {entry : OutcomeNodeState}
    (hid : entry.nodeId = node.id) (nodeId : String) :
    entryOf (nodes.set index entry) nodeId =
      if nodeId = node.id then some entry else entryOf nodes nodeId := by
  have hlen : nodes.length = plan.nodes.length := by
    have h := congrArg length halign
    simpa [JoinTopology.nodeIds] using h
  obtain ⟨hlt, hget⟩ := List.getElem?_eq_some_iff.1 hnode
  have halign' := halign.set_at hnode hid
  by_cases hmem : nodeId ∈ plan.nodeIds
  · obtain ⟨other, hother, rfl⟩ := mem_map.1 hmem
    obtain ⟨position, hposition⟩ := getElem?_of_mem hother
    rw [halign'.entryOf_at hnodup hposition, halign.entryOf_at hnodup hposition, getElem?_set]
    by_cases hsame : index = position
    · subst hsame
      rw [hnode] at hposition
      cases hposition
      rw [if_pos rfl, if_pos (hlen ▸ hlt), if_pos rfl]
    · have hne : other.id ≠ node.id := by
        intro heq
        have hobj : other = node := inj_on_of_nodup_map hnodup hother (mem_of_getElem? hnode) heq
        rw [hobj] at hposition
        have hnd : plan.nodes.Nodup := Nodup.of_map _ hnodup
        exact hsame ((getElem?_inj hlt hnd).1 (hnode.trans hposition.symm))
      rw [if_neg hsame, if_neg hne]
  · have hnone : ∀ entries : List OutcomeNodeState, Aligned plan entries →
        entryOf entries nodeId = none := by
      intro entries he
      unfold entryOf
      rw [find?_eq_none]
      intro found hfound heq
      refine hmem ?_
      rw [← show entries.map (·.nodeId) = plan.nodeIds from he, ← of_decide_eq_true heq]
      exact mem_map_of_mem hfound
    have hne : nodeId ≠ node.id := fun heq => hmem (heq ▸ mem_map_of_mem (mem_of_getElem? hnode))
    rw [hnone _ halign', hnone _ halign, if_neg hne]

def armedIds (decisions : List ArmDecision) : List String :=
  (decisions.filter (·.assembled.isResolved)).map (·.candidate.node.id)

structure Applied (nodes : List OutcomeNodeState) (decisions : List ArmDecision)
    (progress : Dispatching) : Prop where
  dispatched : progress.dispatches.map (·.nodeId) = armedIds decisions
  bound : ∀ dispatch ∈ progress.dispatches, ∃ decision ∈ decisions,
    decision.candidate.node.id = dispatch.nodeId ∧ decision.assembled = .resolved dispatch.inputs
  entry : ∀ nodeId ∉ decisions.map (·.candidate.node.id),
    entryOf progress.nodes nodeId = entryOf nodes nodeId
  armed : ∀ nodeId ∈ armedIds decisions, ∃ entry facts,
    entryOf progress.nodes nodeId = some entry ∧ entry.progress = .dispatched facts
  refused : ∀ decision ∈ decisions, ∀ refusals, decision.assembled = .blocked refusals →
    ∀ entry, entryOf nodes decision.candidate.node.id = some entry →
      entryOf progress.nodes decision.candidate.node.id =
        some { entry with inputRefusals := some refusals }

theorem applied_nil (progress : Dispatching) (hnone : progress.dispatches = []) :
    Applied progress.nodes [] progress := by
  refine ⟨by simp [hnone, armedIds], ?_, fun _ _ => rfl, ?_, ?_⟩
  · intro dispatch hd
    rw [hnone] at hd
    cases hd
  · intro nodeId hmem
    cases hmem
  · intro decision hd
    cases hd

/-- One decision replaces the entry at its position: a fresh dispatch, or refusals recorded. -/
theorem applyArmDecision_ok (h : applyArmDecision plan context progress decision = .ok progress') :
    (∃ refusals, decision.assembled = .blocked refusals ∧
      progress'.dispatches = progress.dispatches ∧
      progress'.nodes = progress.nodes.modify decision.candidate.index fun entry =>
        { entry with inputRefusals := some refusals }) ∨
    ∃ entries facts dispatch, decision.assembled = .resolved entries ∧
      progress'.dispatches = progress.dispatches ++ [dispatch] ∧
      dispatch.nodeId = decision.candidate.node.id ∧ dispatch.inputs = entries ∧
      progress'.nodes = progress.nodes.set decision.candidate.index
        ⟨decision.candidate.node.id, .dispatched facts, [], none⟩ := by
  unfold applyArmDecision at h
  cases hcase : decision.assembled with
  | blocked refusals =>
    rw [hcase] at h
    cases h
    exact .inl ⟨refusals, rfl, rfl, rfl⟩
  | resolved entries =>
    rw [hcase] at h
    simp only at h
    split at h
    · cases h
    · cases h
      exact .inr ⟨entries, _, _, rfl, rfl, rfl, rfl, rfl⟩

theorem armedIds_append (decisions : List ArmDecision) (decision : ArmDecision) :
    armedIds (decisions ++ [decision]) = armedIds decisions ++
      if decision.assembled.isResolved then [decision.candidate.node.id] else [] := by
  unfold armedIds
  rw [filter_append, map_append]
  cases hresolved : decision.assembled.isResolved <;> simp [hresolved]

theorem armedIds_subset (decisions : List ArmDecision) :
    ∀ id ∈ armedIds decisions, id ∈ decisions.map (·.candidate.node.id) := by
  intro id hid
  obtain ⟨decision, hd, rfl⟩ := mem_map.1 hid
  exact mem_map_of_mem (mem_filter.1 hd).1

theorem applyArmDecision_entries (hnodup : plan.nodeIds.Nodup)
    (halign : Aligned plan progress.nodes)
    (hnode : plan.nodes[decision.candidate.index]? = some decision.candidate.node)
    (h : applyArmDecision plan context progress decision = .ok progress') :
    Aligned plan progress'.nodes ∧
      ∃ before after, entryOf progress.nodes decision.candidate.node.id = some before ∧
        (∀ nodeId, entryOf progress'.nodes nodeId =
          if nodeId = decision.candidate.node.id then some after
          else entryOf progress.nodes nodeId) ∧
        ((∃ refusals, decision.assembled = .blocked refusals ∧
            progress'.dispatches = progress.dispatches ∧
            after = { before with inputRefusals := some refusals }) ∨
          ∃ entries facts dispatch, decision.assembled = .resolved entries ∧
            progress'.dispatches = progress.dispatches ++ [dispatch] ∧
            dispatch.nodeId = decision.candidate.node.id ∧ dispatch.inputs = entries ∧
            after = ⟨decision.candidate.node.id, .dispatched facts, [], none⟩) := by
  have hlen : progress.nodes.length = plan.nodes.length := by
    have hl := congrArg length halign
    simpa [JoinTopology.nodeIds] using hl
  obtain ⟨hlt, -⟩ := List.getElem?_eq_some_iff.1 hnode
  have hbefore : progress.nodes[decision.candidate.index]? =
      some (progress.nodes.get ⟨decision.candidate.index, hlen ▸ hlt⟩) := getElem?_eq_getElem _
  generalize progress.nodes.get ⟨decision.candidate.index, hlen ▸ hlt⟩ = before at hbefore
  have hid := halign.nodeId_at hnode hbefore
  have hentry : entryOf progress.nodes decision.candidate.node.id = some before := by
    rw [halign.entryOf_at hnodup hnode, hbefore]
  rcases applyArmDecision_ok h with ⟨refusals, hassembled, hsame, hnodes⟩ |
    ⟨entries, facts, dispatch, hassembled, hgrown, hto, hinputs, hnodes⟩
  · rw [modify_eq_set_getElem?, hbefore, Option.map_eq_map, Option.map_some,
      Option.getD_some] at hnodes
    refine ⟨?_, before, _, hentry, fun nodeId => ?_,
      .inl ⟨refusals, hassembled, hsame, rfl⟩⟩
    · rw [hnodes]
      exact halign.set_at hnode hid
    · rw [hnodes]
      have hrecorded : ({ before with inputRefusals := some refusals } :
          OutcomeNodeState).nodeId = decision.candidate.node.id := hid
      exact halign.entryOf_set hnodup hnode hrecorded nodeId
  · refine ⟨?_, before, _, hentry, fun nodeId => ?_,
      .inr ⟨entries, facts, dispatch, hassembled, hgrown, hto, hinputs, rfl⟩⟩
    · rw [hnodes]
      exact halign.set_at hnode rfl
    · rw [hnodes]
      exact halign.entryOf_set hnodup hnode rfl nodeId

theorem Applied.snoc {decisions : List ArmDecision} (hnodup : plan.nodeIds.Nodup)
    (halign : Aligned plan progress.nodes)
    (hnode : plan.nodes[decision.candidate.index]? = some decision.candidate.node)
    (hnew : decision.candidate.node.id ∉ decisions.map (·.candidate.node.id))
    (happlied : Applied nodes decisions progress)
    (h : applyArmDecision plan context progress decision = .ok progress') :
    Aligned plan progress'.nodes ∧ Applied nodes (decisions ++ [decision]) progress' := by
  obtain ⟨halign', before, after, hbefore, hentries, hcase⟩ :=
    applyArmDecision_entries hnodup halign hnode h
  have hkept : ∀ nodeId ∈ decisions.map (·.candidate.node.id),
      entryOf progress'.nodes nodeId = entryOf progress.nodes nodeId := by
    intro nodeId hmem
    have hne : nodeId ≠ decision.candidate.node.id := fun heq => hnew (heq ▸ hmem)
    rw [hentries, if_neg hne]
  have hat : entryOf progress'.nodes decision.candidate.node.id = some after := by
    rw [hentries, if_pos rfl]
  refine ⟨halign', ⟨?_, ?_, ?_, ?_, ?_⟩⟩
  · rw [armedIds_append, ← happlied.dispatched]
    rcases hcase with ⟨refusals, hassembled, hsame, -⟩ |
      ⟨entries, facts, dispatch, hassembled, hgrown, hto, -⟩
    · rw [hsame, hassembled]
      simp [DownstreamInput.isResolved]
    · rw [hgrown, hassembled, map_append, map_singleton, hto]
      simp [DownstreamInput.isResolved]
  · intro dispatch hd
    have hold : dispatch ∈ progress.dispatches → ∃ d ∈ decisions ++ [decision],
        d.candidate.node.id = dispatch.nodeId ∧ d.assembled = .resolved dispatch.inputs := by
      intro hmem
      obtain ⟨d, hd, hrest⟩ := happlied.bound dispatch hmem
      exact ⟨d, mem_append_left _ hd, hrest⟩
    rcases hcase with ⟨refusals, hassembled, hsame, -⟩ |
      ⟨entries, facts, fresh, hassembled, hgrown, hto, hinputs, -⟩
    · exact hold (hsame ▸ hd)
    rw [hgrown] at hd
    rcases mem_append.1 hd with hd | hd
    · exact hold hd
    · rw [mem_singleton.1 hd]
      exact ⟨decision, mem_append_right _ (mem_singleton_self _), hto.symm, hinputs ▸ hassembled⟩
  · intro nodeId hmem
    rw [map_append, mem_append, not_or] at hmem
    rw [hentries, if_neg (by simpa using hmem.2)]
    exact happlied.entry nodeId hmem.1
  · intro nodeId hmem
    rw [armedIds_append, mem_append] at hmem
    rcases hmem with hmem | hmem
    · rw [hkept nodeId (armedIds_subset _ nodeId hmem)]
      exact happlied.armed nodeId hmem
    · rcases hcase with ⟨refusals, hassembled, -⟩ | ⟨entries, facts, dispatch, -, -, -, -, rfl⟩
      · rw [hassembled] at hmem
        simp [DownstreamInput.isResolved] at hmem
      · have hid : nodeId = decision.candidate.node.id := by
          split at hmem
          · exact mem_singleton.1 hmem
          · cases hmem
        exact ⟨_, facts, hid ▸ hat, rfl⟩
  · intro d hd refusals hblocked entry hentry
    rcases mem_append.1 hd with hd | hd
    · rw [hkept _ (mem_map_of_mem hd)]
      exact happlied.refused d hd refusals hblocked entry hentry
    · rw [mem_singleton.1 hd] at hblocked hentry ⊢
      rcases hcase with ⟨recorded, hassembled, -, rfl⟩ | ⟨entries, _, _, hassembled, -⟩
      · rw [hblocked] at hassembled
        cases hassembled
        rw [happlied.entry _ hnew, hentry] at hbefore
        cases hbefore
        exact hat
      · rw [hblocked] at hassembled
        cases hassembled

theorem Applied.foldlM (hnodup : plan.nodeIds.Nodup) {rest done : List ArmDecision}
    (halign : Aligned plan progress.nodes) (hnodes : ∀ decision ∈ rest,
      plan.nodes[decision.candidate.index]? = some decision.candidate.node)
    (hdistinct : ((done ++ rest).map (·.candidate.node.id)).Nodup)
    (happlied : Applied nodes done progress)
    (h : rest.foldlM (applyArmDecision plan context) progress = .ok progress') :
    Applied nodes (done ++ rest) progress' := by
  induction rest generalizing done progress with
  | nil =>
    cases h
    rw [append_nil]
    exact happlied
  | cons decision rest ih =>
    rw [foldlM_cons] at h
    obtain ⟨middle, hfirst, hrest⟩ := bind_eq_ok.1 h
    have hnew : decision.candidate.node.id ∉ done.map (·.candidate.node.id) := by
      rw [map_append, map_cons] at hdistinct
      intro hmem
      exact (disjoint_of_nodup_append hdistinct) hmem (.head _)
    obtain ⟨halign', happlied'⟩ := happlied.snoc hnodup halign (hnodes _ (.head _)) hnew hfirst
    rw [append_cons] at hdistinct ⊢
    exact ih halign' (fun d hd => hnodes d (.tail _ hd)) hdistinct happlied' hrest

def candidatesOf (plan : JoinTopology) (routed : List CompiledEdge) : List Candidate :=
  (plan.nodes.zipIdx.filter fun p => p.1.id ∈ distinct (routed.map (·.to))).map fun p =>
    ({ node := p.1, index := p.2 } : Candidate)

def armableOf (nodes : List OutcomeNodeState) (candidates : List Candidate) : List Candidate :=
  candidates.filter fun candidate =>
    match nodes[candidate.index]? with
    | some entry => entry.status ≠ .dispatched
    | none => false

theorem mem_candidatesOf {candidate : Candidate} :
    candidate ∈ candidatesOf plan routed ↔
      plan.nodes[candidate.index]? = some candidate.node ∧
        candidate.node.id ∈ routed.map (·.to) := by
  constructor
  · exact candidate_spec
  rintro ⟨hnode, hto⟩
  refine mem_map.2 ⟨(candidate.node, candidate.index), mem_filter.2
    ⟨mem_zipIdx_iff_getElem?.2 hnode, ?_⟩, rfl⟩
  simpa using hto

theorem candidatesOf_nodup (hnodup : plan.nodeIds.Nodup) (routed : List CompiledEdge) :
    ((candidatesOf plan routed).map (·.node.id)).Nodup := by
  unfold candidatesOf
  rw [map_map]
  have hids : (plan.nodes.zipIdx.map fun p => p.1.id) = plan.nodeIds := by
    rw [show (fun p : CompiledNode × Nat => p.1.id) = (fun node : CompiledNode => node.id) ∘ Prod.fst
      from rfl, ← map_map, zipIdx_map_fst]
    rfl
  have hsub : ((plan.nodes.zipIdx.filter fun p => p.1.id ∈ distinct (routed.map (·.to))).map
      fun p => p.1.id).Nodup := by
    refine Nodup.sublist (filter_sublist.map _) ?_
    rw [hids]
    exact hnodup
  exact hsub

theorem mem_armableOf (hnodup : plan.nodeIds.Nodup) (halign : Aligned plan nodes)
    {candidate : Candidate} :
    candidate ∈ armableOf nodes (candidatesOf plan routed) ↔
      candidate ∈ candidatesOf plan routed ∧
        ∃ entry, entryOf nodes candidate.node.id = some entry ∧ entry.status ≠ .dispatched := by
  unfold armableOf
  rw [mem_filter]
  refine and_congr_right fun hc => ?_
  rw [halign.entryOf_at hnodup (mem_candidatesOf.1 hc).1]
  cases nodes[candidate.index]? with
  | none => simp
  | some entry => simp

def routedRound (plan : JoinTopology) (context : AdvanceContext) (nodes : List OutcomeNodeState)
    (routed : List CompiledEdge) (blocked : List String) : List ArmDecision :=
  armingRound plan context nodes (candidatesOf plan routed)
    (armableOf nodes (candidatesOf plan routed)) blocked

/-- The round arming the targets of the routed edges ends on. -/
structure FinalRound (plan : JoinTopology) (context : AdvanceContext)
    (nodes : List OutcomeNodeState) (routed : List CompiledEdge) (blocked : List String) :
    Prop where
  rounds : ArmingRounds plan context nodes (candidatesOf plan routed)
    (armableOf nodes (candidatesOf plan routed)) blocked
  settled : newlyBlocked (routedRound plan context nodes routed blocked) blocked = []

theorem routedRound_nil (blocked : List String) :
    routedRound plan context nodes [] blocked = [] := by
  have hnone : candidatesOf plan [] = [] := by
    unfold candidatesOf
    rw [map_eq_nil_iff, filter_eq_nil_iff]
    intro p _
    simp
  unfold routedRound armingRound assembleAgainst
  rw [hnone]
  rfl

theorem routedRound_nodup (hnodup : plan.nodeIds.Nodup) (routed : List CompiledEdge)
    (blocked : List String) :
    ((routedRound plan context nodes routed blocked).map (·.candidate.node.id)).Nodup := by
  unfold routedRound
  rw [armingRound_ids]
  have hsub : (joinedCandidates plan nodes (candidatesOf plan routed)
      (armableOf nodes (candidatesOf plan routed)) blocked).Sublist
        (candidatesOf plan routed) := filter_sublist
  exact (candidatesOf_nodup hnodup routed).sublist (hsub.map _)

theorem armTargets_applied {decision : AcceptedDecision} {attemptSeq : Nat}
    (hnodup : plan.nodeIds.Nodup) (halign : Aligned plan nodes)
    (h : armTargets plan context decision nodes attemptSeq routed = .ok progress) :
    ∃ blocked, FinalRound plan context nodes routed blocked ∧
      Applied nodes (routedRound plan context nodes routed blocked) progress := by
  have hfirst : ArmingRounds plan context nodes
      (candidatesOf plan routed)
      (armableOf nodes (candidatesOf plan routed)) [] := .first
  obtain ⟨final, hrounds, hdecided, hnone⟩ :=
    decideArming_final (candidatesOf_nodup hnodup routed) hfirst nodup_nil (by simp)
      (le_refl (candidatesOf plan routed).length)
  unfold armTargets at h
  simp only at h
  split at h
  · cases h
  split at h
  · cases h
  have hfold : (routedRound plan context nodes routed final).foldlM
      (applyArmDecision plan context)
      { nodes := nodes, attemptSeq := attemptSeq, dispatches := [] } = .ok progress := by
    unfold routedRound
    rw [← hdecided]
    exact h
  have hstart : Applied nodes [] { nodes := nodes, attemptSeq := attemptSeq, dispatches := [] } :=
    applied_nil { nodes := nodes, attemptSeq := attemptSeq, dispatches := [] } rfl
  have happlied := hstart.foldlM hnodup halign (fun decision hd => ?_) ?_ hfold
  · exact ⟨final, ⟨hrounds, hnone⟩, happlied⟩
  · have hjoined := (mem_armingRound.1 hd).1
    exact (mem_candidatesOf.1 (mem_filter.1 hjoined).1).1
  · exact routedRound_nodup hnodup routed final

end Applying

end Rolebox.Graph
