import Rolebox.General.Digraph
import Rolebox.General.Sums
import Rolebox.Graph.Counters

/-! Bounded repetition: a potential every successful advance lowers. -/

namespace Rolebox.Graph
open General List

def uncountedNext (plan : JoinTopology) (nodeId : String) : List String :=
  (plan.edges.filter fun edge =>
    edge.from = nodeId ∧ continuationGroups plan edge.from edge.outcome = []).map (·.to)

def EveryCycleCounted (plan : JoinTopology) : Prop := Digraph.Acyclic (uncountedNext plan)

def attemptWeight (plan : JoinTopology) (nodeId : String) : Nat :=
  Digraph.weight (uncountedNext plan) (plan.nodeIds.length + 1) nodeId

def totalWeight (plan : JoinTopology) : Nat := (plan.nodeIds.map (attemptWeight plan)).sum

def repetitionBound (plan : JoinTopology) : Nat :=
  totalWeight plan +
    (totalWeight plan + 1) * (plan.loopGroups.map (·.maxTraversals)).sum

def entryWeight (plan : JoinTopology) (entry : OutcomeNodeState) : Nat :=
  if entry.status = .dispatched then attemptWeight plan entry.nodeId else 0

def remainingRounds (plan : JoinTopology) (loopTraversals : PlainObject CounterValue) : Nat :=
  (plan.loopGroups.map fun group =>
    group.maxTraversals - traversalsOf loopTraversals group.id).sum

def potential (plan : JoinTopology) (state : OutcomeGraphState) : Nat :=
  (state.nodes.map (entryWeight plan)).sum +
    (totalWeight plan + 1) * remainingRounds plan state.loopTraversals

section
variable {plan : CompiledPlan}

theorem attemptWeight_eq (hwf : plan.WellFormed) (hc : EveryCycleCounted plan) (nodeId : String) :
    attemptWeight plan nodeId =
      1 + ((uncountedNext plan nodeId).map (attemptWeight plan)).sum := by
  refine Digraph.Acyclic.weight_eq hc plan.nodeIds (fun v hv => ?_) nodeId
  obtain ⟨w, hw⟩ := exists_mem_of_ne_nil _ hv
  obtain ⟨edge, he, -⟩ := mem_map.1 hw
  obtain ⟨hedge, hfrom⟩ := mem_filter.1 he
  simp only [decide_eq_true_eq] at hfrom
  exact hfrom.1 ▸ (hwf.edge_declared edge hedge).1

theorem successors_lt_weight (hwf : plan.WellFormed)
    (hc : EveryCycleCounted plan) {nodeId outcomeId : String}
    (hno : continuationGroups plan nodeId outcomeId = []) :
    (((successorsOf plan nodeId outcomeId).map (·.to)).map
      (attemptWeight plan)).sum + 1 ≤ attemptWeight plan nodeId := by
  rw [attemptWeight_eq hwf hc nodeId, Nat.add_comm]
  refine Nat.add_le_add_left (sum_le_of_subperm (Sublist.subperm ?_)) 1
  refine Sublist.map _ ?_
  rw [successorsOf]
  refine monotone_filter_right _ fun edge he => ?_
  simp only [decide_eq_true_eq] at he ⊢
  exact ⟨he.1, by rw [he.1, he.2]; exact hno⟩

section
variable {state : OutcomeGraphState} {decision : AcceptedDecision} {context : AdvanceContext}
  {advance : OutcomeAdvance}

theorem advance_tokens (hwf : plan.WellFormed)
    (halign : Aligned plan state.nodes) (hids : Attempted state.nodes)
    (h : advanceOutcomeGraph plan state decision context = .ok advance) :
    ∃ position current facts routed,
      dispatchedEntry plan state decision = .ok (position, current, facts) ∧
      routeSettled plan state context decision
        (state.nodes.set position (settleEntry current facts decision.outcomeId context.now)) =
          .ok routed ∧ advance.state = closeState plan state context.now routed ∧
      (advance.state.nodes.map (entryWeight plan)).sum + attemptWeight plan decision.nodeId ≤
        (state.nodes.map (entryWeight plan)).sum +
          (plan.nodeIds.map fun id =>
            if id ∈ routedTargets plan decision routed then attemptWeight plan id else 0).sum := by
  obtain ⟨position, current, facts, routed, hd, hr, hs, -, hstep⟩ :=
    advance_entries hwf.nodeIds_nodup halign hids h
  refine ⟨position, current, facts, routed, hd, hr, hs, ?_⟩
  obtain ⟨-, -, -, hcurrent, hid, hprogress, -⟩ := dispatchedEntry_ok.1 hd
  let kept : OutcomeNodeState → Nat := fun entry =>
    if entry.nodeId ≠ decision.nodeId then entryWeight plan entry else 0
  let added : OutcomeNodeState → Nat := fun entry =>
    if entry.nodeId ∈ routedTargets plan decision routed then
      attemptWeight plan entry.nodeId else 0
  have hafter : (advance.state.nodes.map (entryWeight plan)).sum ≤
      (state.nodes.map fun entry => kept entry + added entry).sum := by
    refine sum_forall₂_le hstep fun before after hone => ?_
    unfold entryWeight OutcomeNodeState.status
    rcases hone.progress with ⟨hne, hp⟩ | ⟨-, hp⟩ | ⟨ht, fresh, hp, -⟩
    · have hkeep : kept before = entryWeight plan before := if_pos hne
      rw [hkeep, hp, hone.nodeId]
      exact Nat.le_add_right _ _
    · rw [hp]
      simp
    · rw [hp, hone.nodeId]
      simp [added, ht]
  have hadded : (state.nodes.map added).sum = (plan.nodeIds.map fun id =>
      if id ∈ routedTargets plan decision routed then
        attemptWeight plan id else 0).sum := by
    rw [← halign, map_map]
    rfl
  have hkept : (state.nodes.map kept).sum + attemptWeight plan decision.nodeId ≤
      (state.nodes.map (entryWeight plan)).sum := by
    refine sum_add_le_of_mem (mem_of_getElem? hcurrent) (fun entry _ => ?_) ?_
    · simp only [kept]
      split <;> simp
    · simp [kept, hid, entryWeight, OutcomeNodeState.status, hprogress]
  have hsum : (state.nodes.map fun entry => kept entry + added entry).sum =
      (state.nodes.map kept).sum + (state.nodes.map added).sum := sum_map_add
  omega

theorem remainingRounds_counted (before : PlainObject CounterValue)
    {after : PlainObject CounterValue} {groups : List CompiledLoopGroup} (hsub : ∀ group ∈ groups, group ∈ plan.loopGroups)
    (hb : CountersBounded plan after) (hne : groups ≠ [])
    (hcount : ∀ groupId, traversalsOf after groupId = traversalsOf before groupId +
      if groupId ∈ groups.map (·.id) then 1 else 0) :
    remainingRounds plan after + 1 ≤ remainingRounds plan before := by
  obtain ⟨group, hg⟩ := exists_mem_of_ne_nil _ hne
  refine sum_add_le_of_mem (hsub group hg) (fun other _ => ?_) ?_
  · rw [hcount]
    omega
  · have hcap := (hb group (hsub group hg)).2
    have hmem : group.id ∈ groups.map (·.id) := mem_map_of_mem hg
    rw [hcount, if_pos hmem] at hcap ⊢
    omega

/-- An advance counts nothing, or one round of each continuation group of the outcome. -/
theorem advance_counters (hwf : plan.WellFormed)
    (hord : ∀ group ∈ continuationGroups plan decision.nodeId decision.outcomeId,
      group.id ∉ prototypeNames) (hb : CountersBounded plan state.loopTraversals)
    {nodes : List OutcomeNodeState} {routed : Routed}
    (h : routeSettled plan state context decision nodes = .ok routed) :
    CountersBounded plan routed.loopTraversals ∧
    ((routed.loopTraversals = state.loopTraversals ∧
        (isTerminal plan decision.nodeId decision.outcomeId = true ∨ routed.stop.isSome)) ∨
      (isTerminal plan decision.nodeId decision.outcomeId = false ∧
        ∀ groupId, traversalsOf routed.loopTraversals groupId =
          traversalsOf state.loopTraversals groupId +
            if groupId ∈ (continuationGroups plan decision.nodeId
              decision.outcomeId).map (·.id) then 1 else 0)) := by
  unfold routeSettled at h
  split at h
  · next hterm =>
    cases h
    exact ⟨hb, .inl ⟨rfl, .inl hterm⟩⟩
  · next hterm =>
    obtain ⟨-, counted, measured, armed, rfl, -, -, hrouted⟩ := routeOutcome_ok.1 h
    rcases countOutcome_spec decision context.now hord hwf.groupIds_nodup hb with ⟨-, hcount, hb'⟩ | ⟨hsame, bound, -, -, hstop⟩
    · rw [hrouted]
      exact ⟨hb', .inr ⟨by simpa using hterm, hcount⟩⟩
    · rw [hrouted, hsame]
      refine ⟨hb, .inl ⟨rfl, .inr ?_⟩⟩
      rw [hstop]
      rfl

theorem potential_lt (hwf : plan.WellFormed) (hc : EveryCycleCounted plan)
    (hord : OrdinaryGroupIds plan)
    (halign : Aligned plan state.nodes) (hids : Attempted state.nodes)
    (hb : CountersBounded plan state.loopTraversals)
    (h : advanceOutcomeGraph plan state decision context = .ok advance) :
    potential plan advance.state < potential plan state := by
  obtain ⟨position, current, facts, routed, -, hr, hs, htokens⟩ := advance_tokens hwf halign hids h
  obtain ⟨hb', hcounters⟩ := advance_counters hwf (hord.continuation _ _) hb hr
  have htraversals : advance.state.loopTraversals = routed.loopTraversals := by
    rw [hs]
    rfl
  have hpos : 1 ≤ attemptWeight plan decision.nodeId := by
    rw [attemptWeight_eq hwf hc]
    omega
  have htotal : (plan.nodeIds.map fun id =>
      if id ∈ routedTargets plan decision routed then
        attemptWeight plan id else 0).sum ≤ totalWeight plan :=
    sum_ite_le _ _ _
  unfold potential
  rw [htraversals]
  rcases hcounters with ⟨hsame, hstop⟩ | ⟨hterm, hcount⟩
  · have hnone : routedTargets plan decision routed = [] := by
      unfold routedTargets
      rw [if_pos hstop]
    have hzero : (plan.nodeIds.map fun id =>
        if id ∈ ([] : List String) then attemptWeight plan id else 0).sum = 0 := by
      simp
    rw [hnone, hzero] at htokens
    rw [hsame]
    omega
  · by_cases hno : continuationGroups plan decision.nodeId decision.outcomeId = []
    · have hrem : remainingRounds plan routed.loopTraversals =
          remainingRounds plan state.loopTraversals := by
        unfold remainingRounds
        simp [hcount, hno]
      have hlt : (plan.nodeIds.map fun id =>
          if id ∈ routedTargets plan decision routed then
            attemptWeight plan id else 0).sum + 1 ≤
          attemptWeight plan decision.nodeId := by
        refine le_trans (Nat.add_le_add_right (sum_mem_le hwf.nodeIds_nodup) 1) ?_
        refine le_trans (Nat.add_le_add_right ?_ 1) (successors_lt_weight hwf hc hno)
        unfold routedTargets
        split
        · simp
        · exact le_rfl
      rw [hrem]
      omega
    · have hrem := remainingRounds_counted state.loopTraversals
        (fun group hg => (continuationGroups_sublist _ _).subset hg) hb' hno hcount
      have hmul := Nat.mul_le_mul_left (totalWeight plan + 1) hrem
      rw [Nat.mul_add, Nat.mul_one] at hmul
      omega

end

variable {state state' : OutcomeGraphState} {admissible : AdvanceContext → Prop}

theorem countersBounded_of_reachable (hwf : plan.WellFormed)
    {step : OutcomeGraphState → Submission → OutcomeGraphState → Prop}
    (hord : ∀ s a t, step s a t →
      (∀ group ∈ continuationGroups plan a.decision.nodeId a.decision.outcomeId,
        group.id ∉ prototypeNames) ∧ Advances admissible plan s a t)
    (h : Reachable (Starts admissible plan) step state) :
    CountersBounded plan state.loopTraversals := by
  refine Reachable.invariant
    (I := fun s => CountersBounded plan s.loopTraversals)
    (fun s hs => ?_) (fun s a t hs hst => ?_) h
  · rw [hs.loopTraversals]
    intro group _
    exact ⟨fun value hv => by simp at hv, Nat.zero_le _⟩
  · obtain ⟨hround, -, -, advance, hadv, rfl⟩ := hord s a t hst
    obtain ⟨_, _, _, routed, -, hr, hclose, -, -⟩ := advanceOutcomeGraph_ok hadv
    rw [hclose]
    exact (advance_counters hwf hround hs hr).1

theorem ReachableState.countersBounded (hwf : plan.WellFormed)
    (hord : OrdinaryGroupIds plan) (h : ReachableState admissible plan state) :
    CountersBounded plan state.loopTraversals :=
  countersBounded_of_reachable hwf (fun _ _ _ hst => ⟨hord.continuation _ _, hst⟩) h

theorem potential_start_le (h : Starts admissible plan state) :
    potential plan state ≤ repetitionBound plan := by
  have halign := h.invariant.aligned
  have hempty := h.loopTraversals
  unfold potential repetitionBound
  have htokens : (state.nodes.map (entryWeight plan)).sum ≤
      totalWeight plan := by
    unfold totalWeight
    rw [← halign, map_map]
    refine sum_le_sum fun entry _ => ?_
    unfold entryWeight
    split <;> simp
  have hrounds : remainingRounds plan state.loopTraversals =
      (plan.loopGroups.map (·.maxTraversals)).sum := by
    rw [hempty]
    rfl
  rw [hrounds]
  omega

theorem run_length_le (hwf : plan.WellFormed) (hc : EveryCycleCounted plan)
    (hord : OrdinaryGroupIds plan) {submissions : List Submission}
    (hstart : Starts admissible plan state)
    (hrun : Run (Advances admissible plan) state submissions state') :
    submissions.length ≤ repetitionBound plan := by
  have hle := hrun.length_le (I := ReachableState admissible plan)
    (potential plan) (fun s a t hs hst => hs.tail hst)
    (fun s a t hs hst => ?_) (Reachable.of_init hstart)
  · have := potential_start_le hstart
    omega
  · obtain ⟨-, -, advance, hadv, rfl⟩ := hst
    have hinv := ReachableState.invariant hwf.nodeIds_nodup hs
    exact potential_lt hwf hc hord hinv.aligned hinv.named (hs.countersBounded hwf hord) hadv

end
end Rolebox.Graph
