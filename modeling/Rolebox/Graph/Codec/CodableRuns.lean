import Rolebox.Graph.Codec.RoundTrip

/-! The states of a run that survive a write and a read: the reader's refusals, one by one. -/

namespace Rolebox.Graph
open General List

section Refusals
variable {plan : CompiledPlan} {state read : OutcomeGraphState}

theorem readAttemptSeq_safe {attemptSeq value : Nat}
    (h : readAttemptSeq (some (natJson attemptSeq)) = .ok value) : attemptSeq ≤ maxSafeInteger := by
  by_contra hunsafe
  have hnone : (natJson attemptSeq).safeNat? = none := Json.safeNat?_num_none (not_le.1 hunsafe)
  unfold readAttemptSeq at h
  simp only [Option.bind_some, hnone] at h
  cases h

theorem readLoopProgress_proto {raw : Option Json} {entries : PlainObject OutcomeLoopProgress}
    (h : readLoopProgress plan raw = .ok entries) : "__proto__" ∉ entries.keys := by
  unfold readLoopProgress at h
  split at h
  · next fields =>
    obtain ⟨built, hbuilt, hfound⟩ := bind_eq_ok.1 h
    have hproto : "__proto__" ∉ built.keys := by
      refine foldlM_invariant (I := fun entries => "__proto__" ∉ entries.keys) ?_ hbuilt
        not_mem_nil
      intro entries field entries' _ hkeys hread
      unfold readProgressField at hread
      split at hread
      · cases hread
      · obtain ⟨entry, -, hset⟩ := bind_eq_ok.1 hread
        cases hset
        exact PlainObject.proto_not_mem_keys_set _ _ hkeys
    split at hfound
    · cases hfound
      exact hproto
    · cases hfound
  · cases h

theorem readBlockedNodes_proto {stop : OutcomeUnreachablePendingNodeStop}
    {blocked : PlainObject (List String)} {place : String}
    (hnames : "__proto__" ∉ stop.blockedNodes.keys)
    (h : readBlockedNodes (OutcomeStop.unreachablePendingNode stop).json place = .ok blocked) :
    blocked.proto = none := by
  have hfields : (OutcomeStop.unreachablePendingNode stop).json.field? "blockedNodes" =
      some (.obj (stop.blockedNodes.own.map fun field =>
        (field.1, .arr (field.2.map Json.str)))) := rfl
  unfold readBlockedNodes at h
  rw [hfields] at h
  refine foldlM_invariant (I := fun blocked => blocked.proto = none) ?_ h rfl
  intro blocked field blocked' hfield hproto hread
  obtain ⟨own, hown, rfl⟩ := mem_map.1 hfield
  have hname : own.1 ≠ "__proto__" := fun heq => hnames (heq ▸ mem_map_of_mem hown)
  unfold readBlockedNode at hread
  obtain ⟨feeders, -, hset⟩ := bind_eq_ok.1 hread
  cases hset
  exact (PlainObject.proto_set_ne _ hname).trans hproto

theorem readStop_proto {phase : OutcomeGraphPhase} {place : String}
    {stop kept : OutcomeUnreachablePendingNodeStop} (hnames : "__proto__" ∉ stop.blockedNodes.keys)
    (h : readStop OUTCOME_STATE_LAYOUT_V10 (some (OutcomeStop.unreachablePendingNode stop).json)
      phase place = .ok (some (.unreachablePendingNode kept))) :
    kept.blockedNodes.proto = none := by
  unfold readStop at h
  split at h
  · cases h
  have hread : (readUnreachablePendingNodeStop (OutcomeStop.unreachablePendingNode stop).json
      (place ++ ".stop") >>= fun read => Except.ok (some read)) =
        Except.ok (some (.unreachablePendingNode kept)) := h
  obtain ⟨found, hfound, hsame⟩ := bind_eq_ok.1 hread
  cases hsame
  unfold readUnreachablePendingNodeStop at hfound
  simp only [bind_eq_ok] at hfound
  obtain ⟨_, -, blocked, hblocked, _, -, _, -, hfound⟩ := hfound
  cases hfound
  exact readBlockedNodes_proto hnames hblocked

theorem readOutcomeGraphState_parts {updatedAt : Nat}
    (hversion : state.bodyVersion = CURRENT_OUTCOME_STATE_BODY)
    (h : readOutcomeGraphState plan (stateRecordOf state updatedAt)
      DEFAULT_OUTCOME_STATE_BODY_REGISTRY = .ok read) :
    readStop OUTCOME_STATE_LAYOUT_V10 (state.stop.map OutcomeStop.json) read.phase "the body" =
      .ok read.stop ∧ readAttemptSeq (some (natJson state.attemptSeq)) = .ok read.attemptSeq ∧
    readLoopTraversals plan (some (loopTraversalsJson state.loopTraversals)) =
      .ok read.loopTraversals ∧
    readLoopProgress plan (some (loopProgressJson state.loopProgress)) = .ok read.loopProgress := by
  obtain ⟨hfversion, -, -, -, -, htraversals, hseq, hstop, hprogress, -⟩ := stateJson_fields state
  have hclassify : classifyOutcomeStateBody (state.json.field? "bodyVersion")
      DEFAULT_OUTCOME_STATE_BODY_REGISTRY = .supported OUTCOME_STATE_LAYOUT_V10 := by
    rw [hfversion, hversion]
    rfl
  have hbody : readStateBody plan OUTCOME_STATE_LAYOUT_V10 state.json = .ok read := by
    unfold readOutcomeGraphState stateRecordOf at h
    simp only [hclassify] at h
    split at h
    · cases h
    split at h
    · cases h
    · exact h
  unfold readStateBody at hbody
  simp only [bind_eq_ok] at hbody
  obtain ⟨_, -, _, -, _, -, phase, -, stop, hreadStop, attemptSeq, hreadSeq, nodes, -, _, -,
    loopTraversals, hreadTraversals, loopProgress, hreadProgress, _, -, _, -, hbody⟩ := hbody
  cases hbody
  rw [hstop] at hreadStop
  rw [hseq] at hreadSeq
  rw [htraversals] at hreadTraversals
  rw [hprogress] at hreadProgress
  exact ⟨hreadStop, hreadSeq, hreadTraversals, hreadProgress⟩

end Refusals

section Exact
variable {plan : CompiledPlan} {state : OutcomeGraphState}

theorem Codable.of_read (hwf : plan.WellFormed) (h : ReachableState WellFormedContext plan state)
    {updatedAt : Nat}
    (hread : readOutcomeGraphState plan (stateRecordOf state updatedAt)
      DEFAULT_OUTCOME_STATE_BODY_REGISTRY = .ok state) : Codable plan state := by
  have hinv := ReachableState.invariant hwf.nodeIds_nodup h
  obtain ⟨hstop, hseq, htraversals, hprogress⟩ := readOutcomeGraphState_parts hinv.bodyVersion hread
  have hnamed : NamedPolicies plan := by
    intro group hg hpolicy hname
    have hown := readLoopProgress_complete hprogress group hg hpolicy
    rw [hname] at hown
    exact readLoopProgress_proto hprogress
      (PlainObject.mem_keys_iff.2 (Option.isSome_iff_ne_none.2 hown))
  have hrecorded := ReachableState.recorded hwf hnamed h
  refine ⟨readLoopTraversals_numbers htraversals, hnamed, readAttemptSeq_safe hseq, ?_⟩
  intro stop hdecided hpending
  have hstranded : StrandedRecorded plan state stop := hrecorded.stop _ hdecided
  have hflight := hstranded.notDispatched hwf hinv
  rw [hdecided] at hstop
  have hkept : stop.blockedNodes.proto = none := by
    refine readStop_proto ?_ hstop
    rw [hstranded.blocked]
    exact fun hin => ((PlainObject.mem_keys_build hwf.nodeIds_nodup).1 hin).1 rfl
  -- the pending node named `__proto__` replaced the prototype of the record the reducer built
  obtain ⟨entry, hentry, hstatus⟩ := Option.map_eq_some_iff.1 hpending
  obtain ⟨hmem, hid⟩ := entryOf_some hentry
  obtain ⟨node, hnode, hnodeId⟩ := hinv.aligned.exists_node hmem
  have hfed := hinv.entryStarted entry hmem (status_of_progress.1 hstatus)
  have hlost : lostFeeders plan state.nodes node.id ≠ [] := by
    rw [lostFeeders_eq hflight, ne_eq, JoinTopology.feederSourcesOf_eq_nil hnode]
    exact fun hentryNode => hfed (hnodeId ▸ mem_map_of_mem hentryNode)
  refine PlainObject.proto_build_ne_none not_mem_nil (.inr ?_)
    (hstranded.blocked ▸ hkept)
  exact ⟨node, hnode, ⟨by rw [hnodeId, hid]; exact hpending, hlost⟩, hnodeId.trans hid⟩

/-- Exactly the reachable states that meet the conditions are read back as they were written. -/
theorem stateRecord_roundTrip {host : DigestHost} {raw : Json} {options : CompileOptions}
    (hcompiled : compileGraph host raw options = .executable plan)
    (h : ReachableState WellFormedContext plan state) (updatedAt : Nat) :
    readOutcomeGraphState plan (stateRecordOf state updatedAt)
      DEFAULT_OUTCOME_STATE_BODY_REGISTRY = .ok state ↔ Codable plan state := by
  have hwf := compileGraph_wellFormed hcompiled
  refine ⟨Codable.of_read hwf h, fun hcodable => ?_⟩
  exact readOutcomeGraphState_recorded hwf (ReachableState.invariant hwf.nodeIds_nodup h)
    (ReachableState.recorded hwf hcodable.policies h) hcodable updatedAt

def zeroDigest : String := "sha256:0000000000000000000000000000000000000000000000000000000000000000"

def hashedContext : AdvanceContext :=
  { plainContext with
    credentials := { source := fun _ => "c", attemptCredentialDigest := fun _ => zeroDigest } }

theorem hashedContext_wellFormed : WellFormedContext hashedContext := by
  have hdigest : isAttemptCredentialDigest zeroDigest = true := by decide
  refine ⟨by decide, fun _ => hdigest, fun _ h => ?_, fun _ _ h => ?_, fun _ h => ?_⟩
  · cases h
  · cases h
  · cases h

/-- The member's second round is refused at the cap, and the stopped state is read back. -/
theorem countedPlan_roundTrip :
    ∃ state, ReachableState WellFormedContext (plainPlan "g" "r" countedTopology) state ∧
      state.phase = .stopped ∧
      readOutcomeGraphState (plainPlan "g" "r" countedTopology) (stateRecordOf state 0)
        DEFAULT_OUTCOME_STATE_BODY_REGISTRY = .ok state := by
  have hsteps : ∃ state,
      runDecisions (plainPlan "g" "r" countedTopology) hashedContext
        [plainDecision "E" "E#1" "ok", plainDecision "A" "A#2" "again",
          plainDecision "A" "A#3" "again"] = some state ∧
      state.phase = .stopped ∧ state.loopTraversals.own = [("L", .number 1)] ∧
      state.attemptSeq = 3 ∧ statusOf state.nodes "__proto__" = none :=
    ⟨_, rfl, rfl, rfl, rfl, rfl⟩
  obtain ⟨state, hrun, hphase, hcounted, hseq, hname⟩ := hsteps
  have hreach := runDecisions_reachable hashedContext_wellFormed hrun
  refine ⟨state, hreach, hphase, (stateRecord_roundTrip countedTopology_compiles hreach 0).2
    ⟨fun field hf => ?_, ?_, ?_, fun _ _ => ?_⟩⟩
  · rw [hcounted, mem_singleton] at hf
    exact ⟨1, by rw [hf]⟩
  · intro group hg hpolicy
    rw [mem_singleton.1 hg] at hpolicy
    exact absurd rfl hpolicy
  · rw [hseq]
    decide
  · rw [hname]
    exact (Option.some_ne_none _).symm

def inheritedTopology : JoinTopology :=
  { countedTopology with loopGroups := [⟨"constructor", ["A"], 1, "again", "done", none⟩] }

/-- Counting one round writes a counter that is no number, which the reader refuses. -/
theorem inheritedPlan_refused :
    compileGraph (plainHost "r") (declareTopology "g" inheritedTopology) plainOptions =
      .executable (plainPlan "g" "r" inheritedTopology) ∧
    ∃ state, ReachableState WellFormedContext (plainPlan "g" "r" inheritedTopology) state ∧
      ∃ error, readOutcomeGraphState (plainPlan "g" "r" inheritedTopology)
        (stateRecordOf state 0) DEFAULT_OUTCOME_STATE_BODY_REGISTRY = .error error := by
  refine ⟨rfl, ?_⟩
  have hsteps : ∃ state error,
      runDecisions (plainPlan "g" "r" inheritedTopology) hashedContext
        [plainDecision "E" "E#1" "ok", plainDecision "A" "A#2" "again"] = some state ∧
      readOutcomeGraphState (plainPlan "g" "r" inheritedTopology) (stateRecordOf state 0)
        DEFAULT_OUTCOME_STATE_BODY_REGISTRY = .error error :=
    ⟨_, _, rfl, rfl⟩
  obtain ⟨state, error, hrun, hrefused⟩ := hsteps
  exact ⟨state, runDecisions_reachable hashedContext_wellFormed hrun, error, hrefused⟩

end Exact
end Rolebox.Graph
