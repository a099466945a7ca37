import Rolebox.Graph.Start

/-! What one successful advance does to the node entries, stated once for every invariant. -/

namespace Rolebox.Graph
open General List

def Aligned (plan : JoinTopology) (nodes : List OutcomeNodeState) : Prop :=
  nodes.map (·.nodeId) = plan.nodeIds

def Attempted (nodes : List OutcomeNodeState) : Prop :=
  ∀ entry ∈ nodes, entry.attemptId? ≠ some ""

/-- An assembly of declared inputs against named attempts. -/
def AssembledFrom (context : AdvanceContext) (inputs : List CompiledInputRef)
    (assembled : DownstreamInput) : Prop :=
  ∃ (settledOf : String → Option String) (arrivals : List OutcomeArrival),
    (∀ nodeId, settledOf nodeId ≠ some "") ∧ (∀ arrival ∈ arrivals, arrival.attemptId ≠ "") ∧
    assembled = assembleDownstreamInput inputs settledOf (readAcceptedOf context) arrivals

def AssembledFor (plan : JoinTopology) (context : AdvanceContext) (nodeId : String)
    (assembled : DownstreamInput) : Prop :=
  ∃ node ∈ plan.nodes, node.id = nodeId ∧ AssembledFrom context node.inputs assembled

structure FreshDispatch (plan : JoinTopology) (context : AdvanceContext) (lo hi : Nat)
    (nodeId : String) (facts : DispatchFacts) : Prop where
  lo_lt : lo < facts.attemptSeq
  le_hi : facts.attemptSeq ≤ hi
  attemptId : facts.attemptId = nodeId ++ "#" ++ toString facts.attemptSeq
  digest : ∃ credential,
    facts.attemptCredentialDigest = context.credentials.attemptCredentialDigest credential
  identity : facts.dispatchIdentity = context.dispatchIdentity
  dispatchedAt : facts.dispatchedAt = context.now
  inputs : ∃ entries, facts.inputs = some entries ∧
    AssembledFor plan context nodeId (.resolved entries)

structure EntryStep (plan : JoinTopology) (context : AdvanceContext) (targets : List String)
    (lo hi : Nat) (before after : OutcomeNodeState) : Prop where
  nodeId : after.nodeId = before.nodeId
  progress : after.progress = before.progress ∨
    (before.nodeId ∈ targets ∧ ∃ facts, after.progress = .dispatched facts ∧
      FreshDispatch plan context lo hi before.nodeId facts)
  refusals : after.inputRefusals = before.inputRefusals ∨ after.inputRefusals = none ∨
    ∃ refusals, after.inputRefusals = some refusals ∧
      AssembledFor plan context before.nodeId (.blocked refusals)

section
variable {plan : CompiledPlan} {context : AdvanceContext} {targets : List String} {lo hi : Nat}

theorem FreshDispatch.mono {nodeId : String} {facts : DispatchFacts} {hi' : Nat}
    (h : FreshDispatch plan context lo hi nodeId facts) (hle : hi ≤ hi') :
    FreshDispatch plan context lo hi' nodeId facts :=
  { h with le_hi := h.le_hi.trans hle }

theorem EntryStep.refl (entry : OutcomeNodeState) :
    EntryStep plan context targets lo hi entry entry :=
  ⟨rfl, .inl rfl, .inl rfl⟩

theorem EntryStep.mono {before after : OutcomeNodeState} {hi' : Nat}
    (h : EntryStep plan context targets lo hi before after) (hle : hi ≤ hi') :
    EntryStep plan context targets lo hi' before after := by
  refine ⟨h.nodeId, h.progress.imp id ?_, h.refusals⟩
  rintro ⟨ht, facts, hf, hfresh⟩
  exact ⟨ht, facts, hf, hfresh.mono hle⟩

theorem EntryStep.armed {before : OutcomeNodeState} {facts : DispatchFacts}
    (ht : before.nodeId ∈ targets) (hf : FreshDispatch plan context lo hi before.nodeId facts) :
    EntryStep plan context targets lo hi before ⟨before.nodeId, .dispatched facts, [], none⟩ :=
  ⟨rfl, .inr ⟨ht, facts, rfl, hf⟩, .inr (.inl rfl)⟩

theorem EntryStep.blocked {before after : OutcomeNodeState} {refusals : List DownstreamInputRefusal}
    (h : EntryStep plan context targets lo hi before after)
    (hb : AssembledFor plan context before.nodeId (.blocked refusals)) :
    EntryStep plan context targets lo hi before { after with inputRefusals := some refusals } :=
  ⟨h.nodeId, h.progress, .inr (.inr ⟨refusals, rfl, hb⟩)⟩

end

section
variable {plan : CompiledPlan} {context : AdvanceContext} {nodes : List OutcomeNodeState}
variable {candidates : List Candidate} {decision : ArmDecision}

theorem Attempted.settlementOf (h : Attempted nodes) {nodeId outcomeId attemptId : String}
    (hs : settlementOf nodes nodeId = some (outcomeId, attemptId)) : attemptId ≠ "" := by
  obtain ⟨entry, facts, settledAt, hentry, hprogress, rfl⟩ := settlementOf_eq_some.1 hs
  have hid := h entry (entryOf_some hentry).1
  rw [OutcomeNodeState.attemptId?, hprogress] at hid
  exact fun hempty => hid (congrArg some hempty)

theorem Attempted.arrivals (h : Attempted nodes) {suppressed : List String} {targetId : String}
    {arrival : OutcomeArrival} (ha : arrival ∈ materializeArrivals plan nodes suppressed targetId) :
    arrival.attemptId ≠ "" := by
  obtain ⟨source, -, hsource⟩ := mem_filterMap.1 ha
  split at hsource
  · cases hsource
  split at hsource
  · cases hsource
  next hs =>
  split at hsource
  · cases hsource
    exact h.settlementOf hs
  · cases hsource

theorem settlementOf_map_arrivals (arrivalsOf : OutcomeNodeState → List OutcomeArrival)
    (nodeId : String) :
    settlementOf (nodes.map fun entry => { entry with arrivals := arrivalsOf entry }) nodeId =
      settlementOf nodes nodeId := by
  have hentry : entryOf (nodes.map fun entry => { entry with arrivals := arrivalsOf entry })
      nodeId = (entryOf nodes nodeId).map fun entry =>
        { entry with arrivals := arrivalsOf entry } := by
    unfold entryOf
    rw [find?_map]
    rfl
  unfold settlementOf
  rw [hentry]
  cases entryOf nodes nodeId <;> rfl

theorem settlementOf_canonicalNodes (plan : JoinTopology) (nodes : List OutcomeNodeState)
    (nodeId : String) :
    settlementOf (canonicalNodes plan nodes) nodeId = settlementOf nodes nodeId :=
  settlementOf_map_arrivals (fun entry => materializeArrivals plan nodes [] entry.nodeId) nodeId

def DecidedFor (context : AdvanceContext) (candidates : List Candidate)
    (decision : ArmDecision) : Prop :=
  decision.candidate ∈ candidates ∧
    AssembledFrom context decision.candidate.node.inputs decision.assembled

theorem armingRound_decided (hids : Attempted nodes) {armable : List Candidate}
    {blocked : List String}
    (h : decision ∈ armingRound plan context nodes candidates armable blocked) :
    DecidedFor context candidates decision := by
  obtain ⟨candidate, hc, rfl⟩ := mem_map.1 h
  refine ⟨(mem_filter.1 hc).1, _, _, fun nodeId => ?_, fun _ ha => hids.arrivals ha, rfl⟩
  split
  · exact Option.some_ne_none _ ∘ Eq.symm
  · intro hempty
    obtain ⟨settlement, hs, hid⟩ := Option.map_eq_some_iff.1 hempty
    exact hids.settlementOf hs hid

theorem decideArming_decided (hids : Attempted nodes) {armable : List Candidate} {fuel : Nat}
    {blocked : List String}
    (h : decision ∈ decideArming plan context nodes candidates armable fuel blocked) :
    DecidedFor context candidates decision := by
  induction fuel generalizing blocked with
  | zero => exact armingRound_decided hids h
  | succ fuel ih =>
    rw [decideArming] at h
    split at h
    · exact armingRound_decided hids h
    · exact ih h

theorem candidate_spec {routed : List CompiledEdge} {candidate : Candidate}
    (h : candidate ∈ (plan.nodes.zipIdx.filter fun p => p.1.id ∈ distinct (routed.map (·.to))).map
      fun p => ({ node := p.1, index := p.2 } : Candidate)) :
    plan.nodes[candidate.index]? = some candidate.node ∧
      candidate.node.id ∈ routed.map (·.to) := by
  obtain ⟨p, hp, rfl⟩ := mem_map.1 h
  obtain ⟨hz, hid⟩ := mem_filter.1 hp
  exact ⟨mem_zipIdx_iff_getElem?.1 hz, by simpa using hid⟩

theorem Aligned.nodeId_at (h : Aligned plan nodes) {index : Nat}
    {node : CompiledNode} {entry : OutcomeNodeState} (hn : plan.nodes[index]? = some node)
    (he : nodes[index]? = some entry) : entry.nodeId = node.id := by
  have hm : (nodes.map (·.nodeId))[index]? = (plan.nodes.map (·.id))[index]? := by
    rw [show nodes.map (·.nodeId) = plan.nodes.map (·.id) from h]
  rw [getElem?_map, getElem?_map, hn, he] at hm
  exact Option.some.inj hm

theorem Aligned.entryOf_at (hnodup : plan.nodeIds.Nodup) {index : Nat}
    {node : CompiledNode} (halign : Aligned plan nodes)
    (hnode : plan.nodes[index]? = some node) : entryOf nodes node.id = nodes[index]? := by
  have hlen : nodes.length = plan.nodes.length := by
    have h := congrArg length halign
    simpa [JoinTopology.nodeIds] using h
  obtain ⟨hlt, -⟩ := List.getElem?_eq_some_iff.1 hnode
  have hentry : nodes[index]? = some (nodes.get ⟨index, hlen ▸ hlt⟩) := getElem?_eq_getElem _
  have hid := halign.nodeId_at hnode hentry
  have hn : (nodes.map (·.nodeId)).Nodup := by
    rw [show nodes.map (·.nodeId) = plan.nodeIds from halign]
    exact hnodup
  rw [hentry, ← hid, entryOf_of_mem hn (mem_of_getElem? hentry)]

theorem applyArmDecision_step {targets : List String} {lo : Nat} {progress progress' : Dispatching}
    (halign : Aligned plan nodes)
    (hcand : ∀ candidate ∈ candidates, plan.nodes[candidate.index]? = some candidate.node ∧
      candidate.node.id ∈ targets) (hd : DecidedFor context candidates decision)
    (h : applyArmDecision plan context progress decision = .ok progress')
    (hlo : lo ≤ progress.attemptSeq)
    (hstep : Forall₂ (EntryStep plan context targets lo progress.attemptSeq)
      nodes progress.nodes) :
    lo ≤ progress'.attemptSeq ∧
      Forall₂ (EntryStep plan context targets lo progress'.attemptSeq)
        nodes progress'.nodes := by
  obtain ⟨hmem, hassembled⟩ := hd
  obtain ⟨hnode, htarget⟩ := hcand _ hmem
  have hin : decision.candidate.node ∈ plan.nodes := mem_of_getElem? hnode
  have hfor : AssembledFor plan context decision.candidate.node.id
      decision.assembled := ⟨_, hin, rfl, hassembled⟩
  have hid : ∀ entry, nodes[decision.candidate.index]? = some entry →
      entry.nodeId = decision.candidate.node.id := fun entry he => halign.nodeId_at hnode he
  unfold applyArmDecision at h
  cases hcase : decision.assembled with
  | blocked refusals =>
    rw [hcase] at h hfor
    cases h
    refine ⟨hlo, forall₂_modify hstep fun before after he hs => ?_⟩
    exact hs.blocked (hid before he ▸ hfor)
  | resolved entries =>
    rw [hcase] at h hfor
    simp only at h
    split at h
    · cases h
    cases h
    refine ⟨hlo.trans (Nat.le_succ _), forall₂_set ?_ fun before he => ?_⟩
    · exact hstep.imp fun _ _ hs => hs.mono (Nat.le_succ _)
    rw [← hid before he]
    refine EntryStep.armed (hid before he ▸ htarget) ?_
    exact
      { lo_lt := Nat.lt_succ_of_le hlo
        le_hi := le_rfl
        attemptId := by rw [hid before he]
        digest := ⟨_, rfl⟩
        identity := rfl
        dispatchedAt := rfl
        inputs := ⟨entries, rfl, hid before he ▸ hfor⟩ }

variable {decision : AcceptedDecision}

theorem armTargets_spec {attemptSeq : Nat} {routed : List CompiledEdge} {progress : Dispatching}
    (halign : Aligned plan nodes) (hids : Attempted nodes)
    (h : armTargets plan context decision nodes attemptSeq routed = .ok progress) :
    attemptSeq ≤ progress.attemptSeq ∧
      Forall₂ (EntryStep plan context (routed.map (·.to)) attemptSeq
        progress.attemptSeq) nodes progress.nodes := by
  unfold armTargets at h
  simp only at h
  split at h
  · cases h
  split at h
  · cases h
  refine foldlM_invariant
    (I := fun p : Dispatching => attemptSeq ≤ p.attemptSeq ∧
      Forall₂ (EntryStep plan context (routed.map (·.to)) attemptSeq
        p.attemptSeq) nodes p.nodes)
    (fun p d p' hd hI hp => ?_) h ⟨le_rfl, forall₂_same.2 fun _ _ => EntryStep.refl _⟩
  exact applyArmDecision_step halign (fun _ hc => candidate_spec hc) (decideArming_decided hids hd) hp
    hI.1 hI.2

theorem dispatchedEntry_ok {state : OutcomeGraphState}
    {position : Nat} {current : OutcomeNodeState} {facts : DispatchFacts} :
    dispatchedEntry plan state decision = .ok (position, current, facts) ↔
      state.bodyVersion = CURRENT_OUTCOME_STATE_BODY ∧ state.stop = none ∧
      plan.nodes.findIdx? (·.id = decision.nodeId) = some position ∧
      state.nodes[position]? = some current ∧ current.nodeId = decision.nodeId ∧
      current.progress = .dispatched facts ∧ facts.attemptId = decision.identity.attemptId := by
  unfold dispatchedEntry
  constructor
  · intro h
    split at h
    · cases h
    next hv =>
    split at h
    · cases h
    next hs =>
    split at h
    · cases h
    next hp =>
    split at h
    · cases h
    next hc =>
    obtain ⟨hc, hid⟩ := Option.filter_eq_some_iff.1 hc
    split at h
    · cases h
    · cases h
    next hf =>
    split at h
    · cases h
    next ha =>
    cases h
    exact ⟨by simpa [ADVANCEABLE_STATE_BODY_VERSIONS] using hv, hs, hp, hc, by simpa using hid,
      hf, by simpa using ha⟩
  · rintro ⟨hv, hs, hp, hc, hid, hf, ha⟩
    have hfilter : state.nodes[position]?.filter (·.nodeId = decision.nodeId) = some current :=
      Option.filter_eq_some_iff.2 ⟨hc, by simpa using hid⟩
    simp only [hv, ADVANCEABLE_STATE_BODY_VERSIONS, mem_singleton, not_true_eq_false,
      if_false, hs, hp, hfilter, hf, ha, ne_eq, if_false]

theorem advanceOutcomeGraph_ok {state : OutcomeGraphState} {advance : OutcomeAdvance}
    (h : advanceOutcomeGraph plan state decision context = .ok advance) :
    ∃ position current facts routed,
      dispatchedEntry plan state decision = .ok (position, current, facts) ∧
      routeSettled plan state context decision
        (state.nodes.set position (settleEntry current facts decision.outcomeId context.now)) =
          .ok routed ∧ advance.state = closeState plan state context.now routed ∧
      advance.dispatches = routed.dispatches ∧ advance.progress = routed.reports := by
  unfold advanceOutcomeGraph at h
  cases hd : dispatchedEntry plan state decision with
  | error e =>
    rw [hd] at h
    cases h
  | ok found =>
    obtain ⟨position, current, facts⟩ := found
    rw [hd] at h
    simp only [Except.bind, bind] at h
    cases hr : routeSettled plan state context decision
        (state.nodes.set position (settleEntry current facts decision.outcomeId context.now)) with
    | error e =>
      rw [hr] at h
      cases h
    | ok routed =>
      rw [hr] at h
      cases h
      exact ⟨position, current, facts, routed, rfl, hr, rfl, rfl, rfl⟩

end
end Rolebox.Graph
