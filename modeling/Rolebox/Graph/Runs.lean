import Rolebox.General.Transition
import Rolebox.Graph.AdvanceSpec

/-! Runs of the reducer from a starting state, and the step and run lemmas they share. -/

namespace Rolebox.Graph
open General List

structure Submission where
  decision : AcceptedDecision
  context : AdvanceContext

/-- A successful advance on an outcome the node declares. -/
def Advances (admissible : AdvanceContext → Prop) (plan : CompiledPlan)
    (state : OutcomeGraphState) (submission : Submission) (state' : OutcomeGraphState) : Prop :=
  admissible submission.context ∧
    plan.declaresOutcome submission.decision.nodeId submission.decision.outcomeId = true ∧
    ∃ advance,
      advanceOutcomeGraph plan state submission.decision submission.context = .ok advance ∧
      state' = advance.state

def Starts (admissible : AdvanceContext → Prop) (plan : CompiledPlan)
    (state : OutcomeGraphState) : Prop :=
  ∃ context fromAttemptSeq dispatches, admissible context ∧
    startOutcomeGraph plan context fromAttemptSeq = .ok (state, dispatches)

/-- The states successful advances reach from a starting state. -/
def ReachableState (admissible : AdvanceContext → Prop) (plan : CompiledPlan)
    (state : OutcomeGraphState) : Prop :=
  Reachable (Starts admissible plan) (Advances admissible plan) state

def AnyContext (_ : AdvanceContext) : Prop := True

def follow (plan : CompiledPlan) (context : AdvanceContext) (state : OutcomeGraphState)
    (decision : AcceptedDecision) : Option OutcomeGraphState :=
  if plan.declaresOutcome decision.nodeId decision.outcomeId then
    (advanceOutcomeGraph plan state decision context).toOption.map (·.state)
  else none

def runDecisions (plan : CompiledPlan) (context : AdvanceContext)
    (decisions : List AcceptedDecision) : Option OutcomeGraphState :=
  (startOutcomeGraph plan context 0).toOption.bind fun started =>
    decisions.foldlM (follow plan context) started.1

section

variable {admissible : AdvanceContext → Prop} {plan : CompiledPlan} {context : AdvanceContext}
  {decisions : List AcceptedDecision} {state state' : OutcomeGraphState}
  (hcontext : admissible context)
include hcontext

theorem follow_reachable (hreach : ReachableState admissible plan state)
    (h : decisions.foldlM (follow plan context) state = some state') :
    ReachableState admissible plan state' := by
  induction decisions generalizing state with
  | nil =>
    cases h
    exact hreach
  | cons decision decisions ih =>
    rw [foldlM_cons] at h
    obtain ⟨middle, hstep, hrest⟩ := Option.bind_eq_some_iff.1 h
    refine ih (hreach.tail (a := ⟨decision, context⟩) ?_) hrest
    unfold follow at hstep
    split at hstep
    · next hdeclared =>
      obtain ⟨advance, hadvance, rfl⟩ := Option.map_eq_some_iff.1 hstep
      exact ⟨hcontext, hdeclared, advance, toOption_eq_some.1 hadvance, rfl⟩
    · cases hstep

theorem runDecisions_reachable (h : runDecisions plan context decisions = some state) :
    ReachableState admissible plan state := by
  obtain ⟨started, hstarted, hrun⟩ := Option.bind_eq_some_iff.1 h
  have hstart := toOption_eq_some.1 hstarted
  exact follow_reachable hcontext (.of_init ⟨context, 0, started.2, hcontext, hstart⟩) hrun

end

section
variable {plan : CompiledPlan} {state : OutcomeGraphState} {context : AdvanceContext}
  {decision : AcceptedDecision}
variable {position : Nat} {current : OutcomeNodeState}

theorem routeOutcome_ok {nodes : List OutcomeNodeState} {routed : Routed} :
    routeOutcome plan state context decision nodes = .ok routed ↔
      successorsOf plan decision.nodeId decision.outcomeId ≠ [] ∧
      ∃ counted measured armed,
        countOutcome decision context.now
          (continuationGroups plan decision.nodeId decision.outcomeId)
          state.loopTraversals = counted ∧
        measureUnlessStopped plan state context decision
          (continuationGroups plan decision.nodeId decision.outcomeId) counted.2 = .ok measured ∧
        armTargets plan context decision nodes state.attemptSeq
          (if routed.stop.isNone then
            successorsOf plan decision.nodeId decision.outcomeId else []) = .ok armed ∧
        routed =
          { nodes := armed.nodes
            loopTraversals := counted.1
            loopProgress := measured.entries
            attemptSeq := armed.attemptSeq
            dispatches := armed.dispatches
            reports := measured.reports
            stop := counted.2.or (measured.stop.map .progressStalled) } := by
  unfold routeOutcome
  simp only [bind, Except.bind, throw, throwThe, MonadExceptOf.throw, pure, Except.pure]
  constructor
  · intro h
    split at h
    · cases h
    next hne =>
    split at h
    · cases h
    next measured hm =>
    split at h
    · cases h
    next armed harm =>
    cases h
    exact ⟨hne, _, measured, armed, rfl, hm, harm, rfl⟩
  · rintro ⟨hne, counted, measured, armed, rfl, hm, harm, rfl⟩
    rw [if_neg hne, hm]
    simp only at harm ⊢
    rw [harm]

def routedTargets (plan : CompiledPlan) (decision : AcceptedDecision) (routed : Routed) :
    List String :=
  if isTerminal plan decision.nodeId decision.outcomeId ∨ routed.stop.isSome then []
  else (successorsOf plan decision.nodeId decision.outcomeId).map (·.to)

theorem routeSettled_nodes {nodes : List OutcomeNodeState} {routed : Routed}
    (halign : Aligned plan nodes) (hids : Attempted nodes)
    (h : routeSettled plan state context decision nodes = .ok routed) :
    state.attemptSeq ≤ routed.attemptSeq ∧
      Forall₂ (EntryStep plan context (routedTargets plan decision routed)
        state.attemptSeq routed.attemptSeq) nodes routed.nodes := by
  unfold routeSettled at h
  split at h
  · cases h
    exact ⟨le_rfl, forall₂_same.2 fun _ _ => EntryStep.refl _⟩
  · next hterm =>
    obtain ⟨-, counted, measured, armed, -, -, harm, hrouted⟩ := routeOutcome_ok.1 h
    have hspec := armTargets_spec halign hids harm
    have htargets : (if routed.stop.isNone then
        successorsOf plan decision.nodeId decision.outcomeId else []).map (·.to) =
          routedTargets plan decision routed := by
      unfold routedTargets
      cases routed.stop <;> simp [hterm]
    rw [htargets] at hspec
    rw [hrouted]
    rw [hrouted] at hspec
    exact hspec

structure AdvanceStep (plan : CompiledPlan) (context : AdvanceContext)
    (decision : AcceptedDecision) (facts : DispatchFacts) (targets : List String) (lo hi : Nat)
    (before after : OutcomeNodeState) : Prop where
  nodeId : after.nodeId = before.nodeId
  progress :
    (before.nodeId ≠ decision.nodeId ∧ after.progress = before.progress) ∨
    (before.nodeId = decision.nodeId ∧
      after.progress = .settled facts decision.outcomeId context.now) ∨
    (before.nodeId ∈ targets ∧ ∃ fresh, after.progress = .dispatched fresh ∧
      FreshDispatch plan context lo hi before.nodeId fresh)
  refusals : after.inputRefusals = before.inputRefusals ∨ after.inputRefusals = none ∨
    ∃ refusals, after.inputRefusals = some refusals ∧
      AssembledFor plan context before.nodeId (.blocked refusals)

theorem Aligned.set (halign : Aligned plan state.nodes) {entry : OutcomeNodeState}
    (hc : state.nodes[position]? = some current) (hid : entry.nodeId = current.nodeId) :
    Aligned plan (state.nodes.set position entry) := by
  unfold Aligned at halign ⊢
  rw [← halign, map_set, hid]
  have hm : (state.nodes.map (·.nodeId))[position]? = some current.nodeId := by
    rw [getElem?_map, hc]
    rfl
  obtain ⟨hlt, hget⟩ := List.getElem?_eq_some_iff.1 hm
  rw [← hget, set_getElem_self]

theorem Attempted.set (hids : Attempted state.nodes) {facts : DispatchFacts}
    (hc : state.nodes[position]? = some current) (hf : current.progress = .dispatched facts)
    (outcomeId : String) (now : Nat) :
    Attempted (state.nodes.set position (settleEntry current facts outcomeId now)) := by
  intro entry hentry
  rcases mem_or_eq_of_mem_set hentry with hold | rfl
  · exact hids entry hold
  · have hid := hids current (mem_of_getElem? hc)
    rw [OutcomeNodeState.attemptId?, hf] at hid
    exact hid

theorem forall₂_settle (hnodup : plan.nodeIds.Nodup) (halign : Aligned plan state.nodes)
    (hc : state.nodes[position]? = some current) (entry : OutcomeNodeState) :
    Forall₂ (fun before after =>
      (before.nodeId ≠ current.nodeId ∧ after = before) ∨ (before = current ∧ after = entry))
      state.nodes (state.nodes.set position entry) := by
  have hn : (state.nodes.map (·.nodeId)).Nodup := halign ▸ hnodup
  rw [forall₂_iff_get]
  refine ⟨by simp, fun i h₁ h₂ => ?_⟩
  obtain ⟨hlt, hget⟩ := List.getElem?_eq_some_iff.1 hc
  simp only [get_eq_getElem, getElem_set]
  by_cases hi : position = i
  · subst hi
    right
    simp [hget]
  · left
    refine ⟨fun heq => hi ?_, by simp [hi]⟩
    have hp := (@List.Nodup.getElem_inj_iff _ _ hn i (by simpa using h₁) position
      (by simpa using hlt)).1 (by simpa [hget] using heq)
    exact hp.symm

theorem advance_entries {advance : OutcomeAdvance} (hnodup : plan.nodeIds.Nodup)
    (halign : Aligned plan state.nodes) (hids : Attempted state.nodes)
    (h : advanceOutcomeGraph plan state decision context = .ok advance) :
    ∃ position current facts routed,
      dispatchedEntry plan state decision = .ok (position, current, facts) ∧
      routeSettled plan state context decision
        (state.nodes.set position (settleEntry current facts decision.outcomeId context.now)) =
          .ok routed ∧ advance.state = closeState plan state context.now routed ∧
      state.attemptSeq ≤ routed.attemptSeq ∧
      Forall₂ (AdvanceStep plan context decision facts (routedTargets plan decision routed)
        state.attemptSeq routed.attemptSeq) state.nodes advance.state.nodes := by
  obtain ⟨position, current, facts, routed, hd, hr, hs, -, -⟩ := advanceOutcomeGraph_ok h
  refine ⟨position, current, facts, routed, hd, hr, hs, ?_⟩
  obtain ⟨-, -, -, hc, hid, hf, -⟩ := dispatchedEntry_ok.1 hd
  have halign' : Aligned plan (state.nodes.set position
      (settleEntry current facts decision.outcomeId context.now)) := halign.set hc rfl
  obtain ⟨hle, hstep⟩ :=
    routeSettled_nodes halign' (hids.set hc hf decision.outcomeId context.now) hr
  refine ⟨hle, ?_⟩
  have hsettle := forall₂_settle hnodup halign hc
    (settleEntry current facts decision.outcomeId context.now)
  have hnodes : advance.state.nodes = canonicalNodes plan routed.nodes := by
    rw [hs]
    rfl
  rw [hnodes, canonicalNodes, forall₂_map_right_iff]
  rw [forall₂_iff_get] at hsettle hstep ⊢
  refine ⟨hsettle.1.trans hstep.1, fun i h₁ h₂ => ?_⟩
  have hmid : i < (state.nodes.set position
      (settleEntry current facts decision.outcomeId context.now)).length := hsettle.1 ▸ h₁
  have hone := hsettle.2 i h₁ hmid
  have htwo := hstep.2 i hmid h₂
  generalize state.nodes.get ⟨i, h₁⟩ = before at hone ⊢
  generalize (state.nodes.set position
    (settleEntry current facts decision.outcomeId context.now)).get ⟨i, hmid⟩ = middle at hone htwo
  rcases hone with ⟨hne, rfl⟩ | ⟨rfl, rfl⟩
  · refine ⟨htwo.nodeId, ?_, htwo.refusals⟩
    rcases htwo.progress with hp | hp
    · exact .inl ⟨hid ▸ hne, hp⟩
    · exact .inr (.inr hp)
  · refine ⟨htwo.nodeId, ?_, .inr ?_⟩
    · rcases htwo.progress with hp | hp
      · exact .inr (.inl ⟨hid, hp⟩)
      · exact .inr (.inr hp)
    · rcases htwo.refusals with hr | hr | hr
      · exact .inl hr
      · exact .inl hr
      · exact .inr hr

theorem advance_aligned {advance : OutcomeAdvance} (hnodup : plan.nodeIds.Nodup)
    (halign : Aligned plan state.nodes) (hids : Attempted state.nodes)
    (h : advanceOutcomeGraph plan state decision context = .ok advance) :
    Aligned plan advance.state.nodes := by
  obtain ⟨_, _, _, _, _, _, _, _, hstep⟩ := advance_entries hnodup halign hids h
  unfold Aligned
  rw [forall₂_map_eq hstep fun _ _ hs => hs.nodeId]
  exact halign

end

section
variable {plan : CompiledPlan} {context : AdvanceContext}

structure StartStep (plan : CompiledPlan) (context : AdvanceContext) (lo hi : Nat)
    (node : CompiledNode) (entry : OutcomeNodeState) : Prop where
  nodeId : entry.nodeId = node.id
  arrivals : entry.arrivals = []
  refusals : entry.inputRefusals = none
  progress :
    (node.id ∈ plan.entryNodesOf.map (·.id) ∧ ∃ facts, entry.progress = .dispatched facts ∧
      FreshDispatch plan context lo hi node.id facts) ∨
    (node.id ∉ plan.entryNodesOf.map (·.id) ∧ entry.progress = .pending)

theorem StartStep.mono {lo hi hi' : Nat} {node : CompiledNode} {entry : OutcomeNodeState}
    (h : StartStep plan context lo hi node entry) (hle : hi ≤ hi') :
    StartStep plan context lo hi' node entry := by
  refine { h with progress := h.progress.imp ?_ id }
  rintro ⟨hentry, facts, hf, hfresh⟩
  exact ⟨hentry, facts, hf, hfresh.mono hle⟩

theorem startNode_step {lo : Nat} {progress progress' : Dispatching} {node : CompiledNode}
    (hnode : node ∈ plan.nodes) (hlo : lo ≤ progress.attemptSeq)
    (h : startNode plan context progress node = .ok progress') :
    progress.attemptSeq ≤ progress'.attemptSeq ∧ ∃ entry,
      progress'.nodes = progress.nodes ++ [entry] ∧
      StartStep plan context lo progress'.attemptSeq node entry := by
  unfold startNode at h
  split at h
  · next hentry =>
    cases h
    exact ⟨le_rfl, _, rfl, rfl, rfl, rfl, .inr ⟨hentry, rfl⟩⟩
  · next hentry =>
    simp only at h
    split at h
    · cases h
    next entries hassembled =>
    split at h
    · cases h
    next credential hmint =>
    cases h
    refine ⟨Nat.le_succ _, _, rfl, rfl, rfl, rfl, .inl ⟨not_not.1 hentry, _, rfl, ?_⟩⟩
    exact
      { lo_lt := Nat.lt_succ_of_le hlo
        le_hi := le_rfl
        attemptId := rfl
        digest := ⟨_, rfl⟩
        identity := rfl
        dispatchedAt := rfl
        inputs := ⟨entries, rfl, node, hnode, rfl, _, _, by simp, by simp, hassembled.symm⟩ }

theorem startNodes_step (lo : Nat) {nodes : List CompiledNode} {progress progress' : Dispatching}
    (hnodes : ∀ node ∈ nodes, node ∈ plan.nodes) (hlo : lo ≤ progress.attemptSeq)
    (h : nodes.foldlM (startNode plan context) progress = .ok progress') :
    progress.attemptSeq ≤ progress'.attemptSeq ∧ ∃ entries,
      progress'.nodes = progress.nodes ++ entries ∧
      Forall₂ (StartStep plan context lo progress'.attemptSeq) nodes entries := by
  induction nodes generalizing progress with
  | nil =>
    cases h
    exact ⟨le_rfl, [], by simp, .nil⟩
  | cons node nodes ih =>
    rw [foldlM_cons] at h
    cases hfirst : startNode plan context progress node with
    | error e =>
      rw [hfirst] at h
      cases h
    | ok middle =>
      rw [hfirst] at h
      obtain ⟨hle, entry, hone, hstep⟩ := startNode_step (hnodes _ (.head _)) hlo hfirst
      obtain ⟨hle', entries, hrest, hall⟩ :=
        ih (fun n hn => hnodes n (.tail _ hn)) (hlo.trans hle) h
      refine ⟨hle.trans hle', entry :: entries, ?_, .cons (hstep.mono hle') hall⟩
      rw [hrest, hone, append_assoc]
      rfl

theorem start_entries {fromAttemptSeq : Nat} {state : OutcomeGraphState}
    {dispatches : List OutcomeDispatchIntent}
    (h : startOutcomeGraph plan context fromAttemptSeq = .ok (state, dispatches)) :
    plan.entryNodesOf ≠ [] ∧ fromAttemptSeq ≤ state.attemptSeq ∧
      Forall₂ (StartStep plan context fromAttemptSeq state.attemptSeq) plan.nodes state.nodes ∧
      state = startState plan state.nodes state.attemptSeq := by
  unfold startOutcomeGraph at h
  split at h
  · cases h
  next hentries =>
  simp only [bind, Except.bind, pure, Except.pure] at h
  split at h
  · cases h
  next started hfold =>
  cases h
  obtain ⟨hle, entries, hnodes, hall⟩ := startNodes_step fromAttemptSeq
    (fun _ hn => hn) le_rfl hfold
  rw [nil_append] at hnodes
  exact ⟨hentries, hle, hnodes ▸ hall, rfl⟩

theorem start_aligned {fromAttemptSeq : Nat} {state : OutcomeGraphState}
    {dispatches : List OutcomeDispatchIntent}
    (h : startOutcomeGraph plan context fromAttemptSeq = .ok (state, dispatches)) :
    Aligned plan state.nodes :=
  forall₂_map_eq (start_entries h).2.2.1 fun _ _ hs => hs.nodeId

end

structure StateInvariant (plan : CompiledPlan) (state : OutcomeGraphState) : Prop where
  bodyVersion : state.bodyVersion = CURRENT_OUTCOME_STATE_BODY
  graphId : state.graphId = plan.graphId
  planRevision : state.planRevision = plan.planRevision
  aligned : Aligned plan state.nodes
  entryStarted : ∀ entry ∈ state.nodes, entry.progress = .pending →
    entry.nodeId ∉ plan.entryNodesOf.map (·.id)
  attempted : ∃ entry ∈ state.nodes, entry.progress ≠ .pending
  named : Attempted state.nodes

section
variable {plan : CompiledPlan} {state state' : OutcomeGraphState}
  {admissible : AdvanceContext → Prop}

theorem FreshDispatch.attemptId_ne {context : AdvanceContext} {lo hi : Nat} {nodeId : String}
    {facts : DispatchFacts} (h : FreshDispatch plan context lo hi nodeId facts) :
    facts.attemptId ≠ "" := by
  rw [h.attemptId]
  intro hempty
  have hlength := congrArg String.length hempty
  simp only [String.length_append, String.length_empty] at hlength
  have hsep : ("#" : String).length = 1 := rfl
  omega

theorem Starts.loopTraversals (h : Starts admissible plan state) :
    state.loopTraversals = .empty := by
  obtain ⟨_, _, _, -, hstart⟩ := h
  exact congrArg (·.loopTraversals) (start_entries hstart).2.2.2

theorem Starts.invariant (h : Starts admissible plan state) : StateInvariant plan state := by
  obtain ⟨context, fromAttemptSeq, dispatches, -, hstart⟩ := h
  obtain ⟨hentries, -, hall, hstate⟩ := start_entries hstart
  refine ⟨congrArg (·.bodyVersion) hstate, congrArg (·.graphId) hstate,
    congrArg (·.planRevision) hstate, start_aligned hstart, ?_, ?_, ?_⟩
  · intro entry hentry hpending
    obtain ⟨node, -, hs⟩ := forall₂_exists_left hall hentry
    rcases hs.progress with ⟨-, facts, hf, -⟩ | ⟨hn, -⟩
    · rw [hpending] at hf
      cases hf
    · exact hs.nodeId ▸ hn
  · obtain ⟨node, hnode⟩ := exists_mem_of_ne_nil _ hentries
    have hin : node ∈ plan.nodes := (mem_filter.1 hnode).1
    obtain ⟨i, hi, hget⟩ := getElem_of_mem hin
    obtain ⟨entry, he, hs⟩ := forall₂_getElem? hall (List.getElem?_eq_some_iff.2 ⟨hi, hget⟩)
    refine ⟨entry, mem_of_getElem? he, fun hpending => ?_⟩
    rcases hs.progress with ⟨-, facts, hf, -⟩ | ⟨hn, -⟩
    · rw [hpending] at hf
      cases hf
    · exact hn (mem_map_of_mem hnode)
  · intro entry hentry
    obtain ⟨node, -, hs⟩ := forall₂_exists_left hall hentry
    unfold OutcomeNodeState.attemptId?
    rcases hs.progress with ⟨-, facts, hf, hfresh⟩ | ⟨-, hp⟩
    · rw [hf]
      exact fun hempty => hfresh.attemptId_ne (Option.some.inj hempty)
    · rw [hp]
      exact Option.some_ne_none _ ∘ Eq.symm

theorem StateInvariant.advance (hnodup : plan.nodeIds.Nodup) (hs : StateInvariant plan state)
    {submission : Submission} (h : Advances admissible plan state submission state') :
    StateInvariant plan state' := by
  obtain ⟨-, -, advance, hadv, rfl⟩ := h
  obtain ⟨position, current, facts, routed, hd, -, hclose, -, hstep⟩ :=
    advance_entries hnodup hs.aligned hs.named hadv
  obtain ⟨-, -, -, hc, hid, hf, -⟩ := dispatchedEntry_ok.1 hd
  have hgraph : advance.state.graphId = state.graphId ∧
      advance.state.planRevision = state.planRevision ∧
      advance.state.bodyVersion = CURRENT_OUTCOME_STATE_BODY := by
    rw [hclose]
    exact ⟨rfl, rfl, rfl⟩
  refine ⟨hgraph.2.2, hgraph.1.trans hs.graphId, hgraph.2.1.trans hs.planRevision,
    advance_aligned hnodup hs.aligned hs.named hadv, ?_, ?_, ?_⟩
  · intro entry hentry hpending
    obtain ⟨before, hbefore, hone⟩ := forall₂_exists_left hstep hentry
    rw [hone.nodeId]
    rcases hone.progress with ⟨-, hp⟩ | ⟨-, hp⟩ | ⟨-, fresh, hp, -⟩
    · exact hs.entryStarted before hbefore (hp ▸ hpending)
    · rw [hpending] at hp
      cases hp
    · rw [hpending] at hp
      cases hp
  · obtain ⟨after, hafter, hone⟩ := forall₂_getElem? hstep hc
    refine ⟨after, mem_of_getElem? hafter, fun hpending => ?_⟩
    rcases hone.progress with ⟨hne, -⟩ | ⟨-, hp⟩ | ⟨-, fresh, hp, -⟩
    · exact hne hid
    · rw [hpending] at hp
      cases hp
    · rw [hpending] at hp
      cases hp
  · intro entry hentry
    obtain ⟨before, hbefore, hone⟩ := forall₂_exists_left hstep hentry
    unfold OutcomeNodeState.attemptId?
    rcases hone.progress with ⟨-, hp⟩ | ⟨-, hp⟩ | ⟨-, fresh, hp, hfresh⟩
    · rw [hp]
      exact hs.named before hbefore
    · have hnamed := hs.named current (mem_of_getElem? hc)
      rw [OutcomeNodeState.attemptId?, hf] at hnamed
      rw [hp]
      exact hnamed
    · rw [hp]
      exact fun hempty => hfresh.attemptId_ne (Option.some.inj hempty)

theorem ReachableState.invariant (hnodup : plan.nodeIds.Nodup)
    (h : ReachableState admissible plan state) : StateInvariant plan state :=
  Reachable.invariant (fun _ hs => hs.invariant) (fun _ _ _ hs hst => hs.advance hnodup hst) h

end
end Rolebox.Graph
