import Rolebox.Graph.Codec.RecordedState

/-! Reading back what the reducer wrote: exactly which reachable states survive. -/

namespace Rolebox.Graph
open General List

section Verifying
variable {plan : CompiledPlan} {state : OutcomeGraphState}
variable {group : CompiledLoopGroup}

theorem verifyArrivals_ok {nodes : List OutcomeNodeState}
    (h : CanonicalArrivals plan nodes) : verifyArrivals plan nodes = .ok () := by
  unfold verifyArrivals
  have hnone : nodes.zipIdx.find? (fun p =>
      decide (p.1.arrivals ≠ materializeArrivals plan nodes [] p.1.nodeId)) =
        none := by
    refine find?_eq_none.2 fun p hp hne => ?_
    have hmem : p.1 ∈ nodes := fst_mem_of_mem_zipIdx hp
    exact of_decide_eq_true hne (h p.1 hmem)
  rw [hnone]

section

variable (hwf : plan.WellFormed)
include hwf

theorem policyOf_group (hg : group ∈ plan.loopGroups) :
    policyOf plan group.id = group.progress := by
  unfold policyOf
  rw [filter_key_eq hwf.groupIds_nodup hg]
  cases hpolicy : group.progress with
  | none => simp only [filterMap_cons, hpolicy, filterMap_nil, getLast?_nil]
  | some policy =>
    simp only [filterMap_cons, hpolicy, filterMap_nil, getLast?_singleton]

theorem CountersRecorded.readable {loopTraversals : PlainObject CounterValue}
    (h : CountersRecorded plan loopTraversals)
    (hnumbers : ∀ field ∈ loopTraversals.own, ∃ count, field.2 = .number count) :
    CountersReadable plan loopTraversals := by
  refine ⟨h.proto, fun field hf => h.declared _ _ (PlainObject.own?_of_mem hf), fun field hf => ?_⟩
  obtain ⟨count, hcount⟩ := hnumbers field hf
  have hown := PlainObject.own?_of_mem hf
  obtain ⟨group, hg, hid⟩ := mem_map.1 (h.declared _ _ hown).2
  rw [hcount, ← hid] at hown
  exact ⟨count, hcount, (h.capped group hg count hown).trans (hwf.group_cap group hg).2⟩

theorem ProgressDeclared.readable {loopProgress : PlainObject OutcomeLoopProgress}
    (h : ProgressDeclared plan loopProgress) (hcomplete : ProgressComplete plan loopProgress) :
    ProgressReadable plan loopProgress := by
  refine ⟨h.proto, fun field hf => ?_, hcomplete⟩
  obtain ⟨hname, group, hg, hid, policy, hpolicy, htracks⟩ :=
    h.declared _ _ (PlainObject.own?_of_mem hf)
  obtain ⟨hevaluator, hvpos, hvsafe, hsubject, -, hmax⟩ :=
    hwf.group_progress group hg policy hpolicy
  refine ⟨hname, policy, ?_, ?_⟩
  · rw [← hid, policyOf_group hwf hg, hpolicy]
  exact
    { loopGroupId := htracks.loopGroupId
      evaluator := ⟨htracks.evaluator, htracks.evaluator ▸ hevaluator⟩
      subject := ⟨htracks.subject, htracks.subject ▸ hsubject⟩
      version := htracks.version ▸ ⟨hvpos, hvsafe⟩
      unchanged := htracks.unchanged.trans hmax
      baseline := htracks.baseline }

theorem findStopGroup_ok (hg : group ∈ plan.loopGroups) :
    findStopGroup plan group.id = .ok group := by
  unfold findStopGroup
  rw [find?_key_eq hwf.groupIds_nodup hg]

theorem verifyLoopExhaustedStop_ok {stop : OutcomeLoopExhaustedStop}
    (h : ExhaustedRecorded plan state stop group) :
    verifyLoopExhaustedStop plan state.nodes state.loopTraversals stop = .ok () := by
  unfold verifyLoopExhaustedStop requireContinuation requireSettling
  simp only [h.id, findStopGroup_ok hwf h.mem, ok_bind, require_of h.cap.symm,
    require_of h.stopped.member, require_of h.stopped.continuation,
    require_of h.stopped.settled, require_of (h.recorded.trans h.traversals.symm),
    require_of (h.traversals.trans h.cap.symm)]

theorem verifyProgressStalledStop_ok {stop : OutcomeProgressStalledStop}
    {policy : CompiledProgressPolicy} {entry : OutcomeLoopProgress}
    (hdeclared : ProgressDeclared plan state.loopProgress)
    (h : StalledRecorded plan state stop group policy entry) :
    verifyProgressStalledStop plan state.nodes state.loopProgress stop = .ok () := by
  obtain ⟨-, owner, howner, hid, policy', hpolicy', htracks⟩ := hdeclared.declared _ _ h.own
  have hsame : owner = group := inj_on_of_nodup_map hwf.groupIds_nodup howner h.mem hid
  subst hsame
  rw [h.declares] at hpolicy'
  cases hpolicy'
  have hget := PlainObject.get_of_own h.own
  unfold verifyProgressStalledStop requirePolicy requireContinuation requireSettling
    requireComparison
  simp only [h.id, findStopGroup_ok hwf h.mem, ok_bind, h.declares, hget,
    require_of h.threshold.symm, require_of (htracks.evaluator.symm.trans h.evaluator.symm),
    require_of (htracks.subject.symm.trans h.subject.symm), require_of h.stopped.member,
    require_of h.stopped.continuation, require_of h.stopped.settled,
    require_of (⟨h.evaluator.symm, h.version.symm, h.subject.symm⟩ :
      entry.evaluator = stop.evaluator ∧ entry.version = stop.evaluatorVersion ∧
        entry.subject = stop.subject),
    require_of h.unchanged.1.symm, require_of h.baseline,
    require_of (h.unchanged.1.trans (h.unchanged.2.trans h.threshold.symm))]

theorem feederSourcesOf_sorted (nodeId : String) :
    sortText (plan.feederSourcesOf nodeId) = plan.feederSourcesOf nodeId := by
  have hsorted : (plan.feederSourcesOf nodeId).Pairwise textLe := by
    unfold JoinTopology.feederSourcesOf JoinTopology.feederEdges
    refine List.Pairwise.sublist (distinct_sublist _) ?_
    rw [pairwise_map]
    exact (hwf.edges_sorted.sublist filter_sublist).sublist filter_sublist
  exact hsorted.insertionSort_eq

theorem feederSourcesOf_ne {nodeId source : String}
    (h : source ∈ plan.feederSourcesOf nodeId) : source ≠ "" := by
  obtain ⟨edge, hedge, -, rfl⟩ := JoinTopology.mem_feederSourcesOf.1 h
  have hin := (hwf.edge_declared edge (mem_filter.1 hedge).1).1
  obtain ⟨node, hnode, hid⟩ := mem_map.1 hin
  exact hid ▸ hwf.nodeId_nonempty node hnode

theorem stranded_own
    (hflight : ∀ node ∈ plan.nodes, statusOf state.nodes node.id ≠ some .dispatched)
    {nodeId : String} (h : nodeId ∈ (unsatisfiablePendingNodes plan state.nodes).keys) :
    nodeId ≠ "__proto__" ∧ nodeId ∈ plan.nodeIds ∧ statusOf state.nodes nodeId = some .pending ∧
      (unsatisfiablePendingNodes plan state.nodes).own? nodeId =
        some (plan.feederSourcesOf nodeId) := by
  unfold unsatisfiablePendingNodes at h ⊢
  obtain ⟨hname, node, hnode, hstranded, rfl⟩ := (PlainObject.mem_keys_build hwf.nodeIds_nodup).1 h
  refine ⟨hname, mem_map_of_mem hnode, hstranded.1, ?_⟩
  rw [PlainObject.own?_build_mem hwf.nodeIds_nodup hnode hstranded hname, lostFeeders_eq hflight]

theorem StrandedRecorded.notDispatched (hinv : StateInvariant plan state)
    {stop : OutcomeUnreachablePendingNodeStop} (h : StrandedRecorded plan state stop) :
    ∀ node ∈ plan.nodes, statusOf state.nodes node.id ≠ some .dispatched := by
  intro node hnode hstatus
  obtain ⟨entry, he, hst⟩ :=
    (hinv.aligned.exists_status hwf.nodeIds_nodup .dispatched).1 ⟨node, hnode, hstatus⟩
  exact h.flightless entry he hst

theorem verifyUnreachablePendingNodeStop_ok
    (hinv : StateInvariant plan state) {stop : OutcomeUnreachablePendingNodeStop}
    (h : StrandedRecorded plan state stop) :
    verifyUnreachablePendingNodeStop plan state.nodes stop = .ok () := by
  have hflight := h.notDispatched hwf hinv
  have hstranded : ∀ nodeId ∈ sortText stop.blockedNodes.keys,
      requireStranded plan state.nodes nodeId = .ok () := by
    intro nodeId hin
    rw [mem_sortText, h.blocked] at hin
    obtain ⟨-, hdeclared, hpending, -⟩ := stranded_own hwf hflight hin
    have hheld : (state.nodes.filter (·.status = .pending)).any (·.nodeId = nodeId) = true := by
      unfold statusOf at hpending
      obtain ⟨entry, hentry, hstatus⟩ := Option.map_eq_some_iff.1 hpending
      obtain ⟨hmem, hid⟩ := entryOf_some hentry
      exact any_eq_true.2
        ⟨entry, mem_filter.2 ⟨hmem, decide_eq_true hstatus⟩, decide_eq_true hid⟩
    unfold requireStranded
    rw [require_of hdeclared, ok_bind, hheld, require_true]
  have hfeeders : ∀ nodeId ∈ sortText stop.blockedNodes.keys,
      requireFeeders plan stop nodeId = .ok () := by
    intro nodeId hin
    rw [mem_sortText, h.blocked] at hin
    obtain ⟨-, -, -, hown⟩ := stranded_own hwf hflight hin
    unfold requireFeeders
    rw [h.blocked, hown, Option.getD_some, feederSourcesOf_sorted hwf]
    exact require_of rfl _
  have hsame : joinWith "\x00" (sortText stop.blockedNodes.keys) =
      joinWith "\x00" (sortText (unsatisfiablePendingNodes plan
        state.nodes).keys) := by
    rw [h.blocked]
  unfold verifyUnreachablePendingNodeStop
  simp only [forM_ok hstranded, ok_bind, require_of hsame, forM_ok hfeeders]

theorem verifyStop_ok (hinv : StateInvariant plan state) (hs : StateRecorded plan state) :
    verifyStop plan state.nodes state.loopTraversals state.loopProgress state.stop = .ok () := by
  have hstop := hs.stop
  unfold verifyStop
  cases hdecided : state.stop with
  | none => rfl
  | some stop =>
    have hrecorded := hstop stop hdecided
    cases stop with
    | loopExhausted stop =>
      obtain ⟨group, hgroup⟩ := hrecorded
      exact verifyLoopExhaustedStop_ok hwf hgroup
    | progressStalled stop =>
      obtain ⟨group, policy, entry, hgroup⟩ := hrecorded
      exact verifyProgressStalledStop_ok hwf hs.declared hgroup
    | unreachablePendingNode stop =>
      exact verifyUnreachablePendingNodeStop_ok hwf hinv hrecorded

theorem verifyProgress_ok (hs : StateRecorded plan state) :
    verifyProgress plan state.loopProgress state.stop = .ok () := by
  refine forM_ok fun group hg => ?_
  unfold verifyGroupProgress
  cases hpolicy : group.progress with
  | none => rfl
  | some policy =>
    obtain ⟨entry, hown⟩ := Option.ne_none_iff_exists'.1 (hs.complete group hg (by simp [hpolicy]))
    obtain ⟨-, owner, howner, hid, policy', hpolicy', htracks⟩ := hs.declared.declared _ _ hown
    have hsame : owner = group := inj_on_of_nodup_map hwf.groupIds_nodup howner hg hid
    subst hsame
    rw [hpolicy] at hpolicy'
    cases hpolicy'
    have hbelow : state.stop.any (·.isStalled) = true ∨ entry.unchanged ≠ policy.maxUnchanged := by
      by_cases hstalled : state.stop.any (·.isStalled) = true
      · exact .inl hstalled
      right
      have hlow := hs.unstalled fun stop hstop => by
        rw [hstop] at hstalled
        simpa using hstalled
      exact Nat.ne_of_lt (hlow owner hg policy hpolicy entry hown)
    simp only [PlainObject.get_of_own hown, require_of htracks.unchanged, ok_bind]
    exact require_of hbelow _

end

end Verifying

section Sufficient
variable {plan : CompiledPlan} {state : OutcomeGraphState}

/-- What a state must meet to be read back: numbers for counters, and no name `__proto__`. -/
structure Codable (plan : JoinTopology) (state : OutcomeGraphState) : Prop where
  counters : ∀ field ∈ state.loopTraversals.own, ∃ count, field.2 = .number count
  policies : NamedPolicies plan
  attemptSeq : state.attemptSeq ≤ maxSafeInteger
  stranded : ∀ stop, state.stop = some (.unreachablePendingNode stop) →
    statusOf state.nodes "__proto__" ≠ some .pending

theorem stateJson_fields (state : OutcomeGraphState) :
    state.json.field? "bodyVersion" = some (natJson state.bodyVersion) ∧
    state.json.field? "graphId" = some (.str state.graphId) ∧
    state.json.field? "planRevision" = some (.str state.planRevision) ∧
    state.json.field? "phase" = some (.str state.phase.text) ∧
    state.json.field? "nodes" = some (.arr (state.nodes.map OutcomeNodeState.json)) ∧
    state.json.field? "loopTraversals" = some (loopTraversalsJson state.loopTraversals) ∧
    state.json.field? "attemptSeq" = some (natJson state.attemptSeq) ∧
    state.json.field? "stop" = state.stop.map OutcomeStop.json ∧
    state.json.field? "loopProgress" = some (loopProgressJson state.loopProgress) ∧
    unknownField? state.json OUTCOME_STATE_LAYOUT_V10.bodyKeys = none := by
  obtain ⟨_, _, _, _, _, _, _, stop, _⟩ := state
  cases stop <;> exact ⟨rfl, rfl, rfl, rfl, rfl, rfl, rfl, rfl, rfl, rfl⟩

theorem readPhase_json (phase : OutcomeGraphPhase) :
    readPhase OUTCOME_STATE_LAYOUT_V10 (some (.str phase.text)) = .ok phase := by
  cases phase <;> rfl

theorem StopRecorded.readable (hwf : plan.WellFormed) (hinv : StateInvariant plan state)
    (hs : StateRecorded plan state) (hcodable : Codable plan state)
    {stop : OutcomeStop} (hstop : state.stop = some stop) : stop.Readable := by
  have hnamed : ∀ {group : CompiledLoopGroup} {nodeId outcomeId attemptId : String},
      StoppedBy state group nodeId outcomeId attemptId →
      nodeId ≠ "" ∧ outcomeId ≠ "" ∧ attemptId ≠ "" := by
    intro group nodeId outcomeId attemptId hby
    obtain ⟨entry, facts, settledAt, hentry, hp, rfl⟩ := settlementOf_eq_some.1 hby.settled
    obtain ⟨hmem, rfl⟩ := entryOf_some hentry
    obtain ⟨node, hnode, hid⟩ := hinv.aligned.exists_node hmem
    have hread := (hs.entries entry hmem).1
    rw [hp] at hread
    exact ⟨hid ▸ hwf.nodeId_nonempty node hnode, hread.2.1, hread.1.attemptId⟩
  have hrecorded := hs.stop stop hstop
  cases stop with
  | loopExhausted stop =>
    obtain ⟨group, h⟩ := hrecorded
    obtain ⟨hpos, hsafe⟩ := hwf.group_cap group h.mem
    exact ⟨⟨h.id ▸ hwf.groupId_nonempty group h.mem, hnamed h.stopped⟩,
      h.traversals ▸ ⟨hpos, hsafe⟩, h.cap ▸ ⟨hpos, hsafe⟩, h.stoppedAt⟩
  | progressStalled stop =>
    obtain ⟨group, policy, entry, h⟩ := hrecorded
    obtain ⟨-, owner, howner, hid, policy', hpolicy', htracks⟩ := hs.declared.declared _ _ h.own
    have hsame : owner = group := inj_on_of_nodup_map hwf.groupIds_nodup howner h.mem hid
    subst hsame
    rw [h.declares] at hpolicy'
    cases hpolicy'
    obtain ⟨hevaluator, hvpos, hvsafe, hsubject, hpos, hsafe⟩ :=
      hwf.group_progress owner h.mem policy h.declares
    refine ⟨⟨h.id ▸ hwf.groupId_nonempty owner h.mem, hnamed h.stopped⟩, ?_, ?_, ⟨?_, ?_⟩, ?_,
      htracks.baseline _ h.baseline, h.stoppedAt⟩
    · rw [h.unchanged.1, h.unchanged.2]
      exact ⟨hpos, hsafe⟩
    · rw [h.threshold]
      exact ⟨hpos, hsafe⟩
    · rw [h.evaluator, htracks.evaluator]
      exact hevaluator
    · rw [h.subject, htracks.subject]
      exact hsubject
    · rw [h.version, htracks.version]
      exact ⟨hvpos, hvsafe⟩
  | unreachablePendingNode stop =>
    have hflight := hrecorded.notDispatched hwf hinv
    refine ⟨?_, fun field hf => ?_, hrecorded.stoppedAt⟩
    · rw [hrecorded.blocked]
      refine PlainObject.proto_build_eq fun node hnode hstranded hname => ?_
      exact hcodable.stranded stop hstop (hname ▸ hstranded.1)
    · rw [hrecorded.blocked] at hf
      have hown := PlainObject.own?_of_mem hf
      obtain ⟨hname, -, -, hfeeders⟩ := stranded_own hwf hflight (mem_map_of_mem hf)
      have hvalue : field.2 = plan.feederSourcesOf field.1 := (Option.mem_unique hown hfeeders)
      rw [hvalue]
      exact ⟨hname, feederSourcesOf_sorted hwf _, fun _ hsource => feederSourcesOf_ne hwf hsource⟩

theorem readOutcomeGraphState_recorded (hwf : plan.WellFormed) (hinv : StateInvariant plan state)
    (hs : StateRecorded plan state) (hcodable : Codable plan state) (updatedAt : Nat) :
    readOutcomeGraphState plan (stateRecordOf state updatedAt)
      DEFAULT_OUTCOME_STATE_BODY_REGISTRY = .ok state := by
  obtain ⟨hversion, hgraph, hrevision, hphase, hnodes, htraversals, hseq, hstop, hprogress,
    hknown⟩ := stateJson_fields state
  have hentries : Forall₂ (fun (node : CompiledNode) entry =>
      entry.nodeId = node.id ∧ entry.Readable plan) plan.nodes state.nodes := by
    have haligned : Forall₂ (fun (node : CompiledNode) (entry : OutcomeNodeState) =>
        entry.nodeId = node.id) plan.nodes state.nodes := by
      have heq : Forall₂ Eq plan.nodeIds (state.nodes.map (·.nodeId)) := by
        rw [forall₂_eq_eq_eq]
        exact hinv.aligned.symm
      rw [JoinTopology.nodeIds, forall₂_map_left_iff, forall₂_map_right_iff] at heq
      exact heq.imp fun _ _ h => h.symm
    refine forall₂_mem_right haligned fun node entry hentry hid => ⟨hid, ?_⟩
    obtain ⟨hread, hrefusals⟩ := hs.entries entry hentry
    refine ⟨hread.mono hcodable.attemptSeq, ?_, hrefusals⟩
    rw [hs.arrivals entry hentry]
    exact materializeArrivals_read hwf hs.entries entry.nodeId
  have hreadNodes := readNodes_json CURRENT_OUTCOME_STATE_BODY OUTCOME_STOP_REASONS hentries
  have hreadStop := readStop_json CURRENT_OUTCOME_STATE_BODY hs.phase
    (fun stop hdecided => StopRecorded.readable hwf hinv hs hcodable hdecided) "the body"
  have hreadSeq : readAttemptSeq (some (natJson state.attemptSeq)) = .ok state.attemptSeq := by
    unfold readAttemptSeq
    simp only [Option.bind_some, safeNat?_natJson hcodable.attemptSeq]
  have hreadTraversals := readLoopTraversals_json (hs.counters.readable hwf hcodable.counters)
  have hreadProgress := readLoopProgress_json (hs.declared.readable hwf hs.complete)
  have hlayout : OUTCOME_STATE_LAYOUT_V10 =
      outcomeStateLayout CURRENT_OUTCOME_STATE_BODY OUTCOME_STOP_REASONS := rfl
  have hbody : readStateBody plan OUTCOME_STATE_LAYOUT_V10 state.json = .ok state := by
    unfold readStateBody
    simp only [rejectUnknownFields_ok hknown, ok_bind, hgraph, hinv.graphId, hrevision,
      hinv.planRevision, Option.bind_some, Json.str?_str, decide_true, require_true, hphase,
      readPhase_json, hstop, hlayout ▸ hreadStop, hseq, hreadSeq, hnodes, hlayout ▸ hreadNodes,
      verifyArrivals_ok hs.arrivals, htraversals, hreadTraversals, hprogress, hreadProgress,
      verifyStop_ok hwf hinv hs, verifyProgress_ok hwf hs]
    rw [← hinv.graphId, ← hinv.planRevision, show OUTCOME_STATE_LAYOUT_V10.version =
      state.bodyVersion from hinv.bodyVersion.symm]
    rfl
  have hclassify : classifyOutcomeStateBody (some (natJson state.bodyVersion))
      DEFAULT_OUTCOME_STATE_BODY_REGISTRY = .supported OUTCOME_STATE_LAYOUT_V10 := by
    rw [hinv.bodyVersion]
    rfl
  unfold readOutcomeGraphState stateRecordOf
  have hrecord : state.json.isRecord = true := rfl
  simp only [hinv.graphId, hinv.planRevision, ne_eq, not_true_eq_false, if_false, hrecord,
    require_true, hversion, hclassify]
  exact hbody

end Sufficient

end Rolebox.Graph
