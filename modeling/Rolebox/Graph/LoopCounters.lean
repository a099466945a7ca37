import Rolebox.Graph.BoundedRepetition

/-! How traversal counters move: one round of every group continued, or of none. -/

namespace Rolebox.Graph
open General List

def Continues (plan : JoinTopology) (decision : AcceptedDecision) (group : CompiledLoopGroup) :
    Prop :=
  ∃ edge ∈ plan.edges, edge.from = decision.nodeId ∧ edge.outcome = decision.outcomeId ∧
    edge.from ∈ group.nodes ∧ edge.outcome = group.continuationOutcome

def Exhausts (plan : JoinTopology) (state : OutcomeGraphState) (decision : AcceptedDecision) :
    Prop :=
  ∃ group ∈ plan.loopGroups, Continues plan decision group ∧
    traversalsOf state.loopTraversals group.id = group.maxTraversals

/-- The advance crosses a continuation edge of the group: no cap refuses the round. -/
def Crosses (plan : JoinTopology) (state : OutcomeGraphState) (decision : AcceptedDecision)
    (group : CompiledLoopGroup) : Prop :=
  Continues plan decision group ∧ ¬ Exhausts plan state decision

/-- What a refused round leaves: nothing dispatched, and a stop that names an exhausted group. -/
structure RefusedRound (plan : JoinTopology) (state : OutcomeGraphState)
    (decision : AcceptedDecision) (advance : OutcomeAdvance) : Prop where
  stopped : ∃ group ∈ plan.loopGroups, Continues plan decision group ∧
    traversalsOf state.loopTraversals group.id = group.maxTraversals ∧
    ∃ stop, advance.state.stop = some (.loopExhausted stop) ∧ stop.loopGroupId = group.id ∧
      stop.nodeId = decision.nodeId ∧ stop.outcomeId = decision.outcomeId ∧
      stop.traversals = group.maxTraversals
  dispatches : advance.dispatches = []
  entries : ∀ entry ∈ advance.state.nodes, entry.status = .dispatched →
    ∃ before ∈ state.nodes, before.nodeId = entry.nodeId ∧ before.progress = entry.progress

structure CountedAdvance (plan : JoinTopology) (state : OutcomeGraphState)
    (decision : AcceptedDecision) (advance : OutcomeAdvance) : Prop where
  crossed : ∀ group ∈ plan.loopGroups, Crosses plan state decision group →
    traversalsOf advance.state.loopTraversals group.id =
      traversalsOf state.loopTraversals group.id + 1
  kept : ∀ group ∈ plan.loopGroups, ¬ Crosses plan state decision group →
    traversalsOf advance.state.loopTraversals group.id =
      traversalsOf state.loopTraversals group.id
  refused : Exhausts plan state decision → RefusedRound plan state decision advance

/-- No group the outcome continues is named after a property of every object. -/
def OrdinaryRound (plan : JoinTopology) (decision : AcceptedDecision) : Prop :=
  ∀ group ∈ continuationGroups plan decision.nodeId decision.outcomeId,
    group.id ∉ prototypeNames

def OrdinaryAdvances (plan : CompiledPlan) (state : OutcomeGraphState) (submission : Submission)
    (state' : OutcomeGraphState) : Prop :=
  OrdinaryRound plan submission.decision ∧
    Advances AnyContext plan state submission state'

/-- The states runs of such advances reach. -/
def OrdinaryReachable (plan : CompiledPlan) (state : OutcomeGraphState) : Prop :=
  Reachable (Starts AnyContext plan) (OrdinaryAdvances plan) state

section Outcome
variable {plan : CompiledPlan} {state : OutcomeGraphState} {decision : AcceptedDecision}
  {context : AdvanceContext} {advance : OutcomeAdvance}
variable {group : CompiledLoopGroup} {nodes : List OutcomeNodeState}

theorem mem_continuationGroups {plan : JoinTopology} {nodeId outcomeId : String} :
    group ∈ continuationGroups plan nodeId outcomeId ↔
      group ∈ plan.loopGroups ∧ group.continuationOutcome = outcomeId ∧ nodeId ∈ group.nodes := by
  simp [continuationGroups]

theorem Continues.mem {plan : JoinTopology} (hg : group ∈ plan.loopGroups)
    (h : Continues plan decision group) :
    group ∈ continuationGroups plan decision.nodeId decision.outcomeId := by
  obtain ⟨edge, -, hfrom, houtcome, hmember, hcontinues⟩ := h
  exact mem_continuationGroups.2 ⟨hg, hcontinues.symm.trans houtcome, hfrom ▸ hmember⟩

theorem continues_of_bound {plan : JoinTopology}
    (hbound : successorsOf plan decision.nodeId decision.outcomeId ≠ [])
    (hg : group ∈ continuationGroups plan decision.nodeId decision.outcomeId) :
    Continues plan decision group := by
  obtain ⟨edge, hedge⟩ := exists_mem_of_ne_nil _ hbound
  obtain ⟨hin, hpair⟩ := mem_filter.1 hedge
  obtain ⟨hfrom, houtcome⟩ : edge.from = decision.nodeId ∧ edge.outcome = decision.outcomeId := by
    simpa using hpair
  obtain ⟨-, hcontinues, hmember⟩ := mem_continuationGroups.1 hg
  exact ⟨edge, hin, hfrom, houtcome, hfrom ▸ hmember, houtcome.trans hcontinues.symm⟩

section

variable (hwf : plan.WellFormed)
include hwf

section

variable (hterminal : isTerminal plan decision.nodeId decision.outcomeId = true)
include hterminal

theorem not_continues_of_terminal
    (group : CompiledLoopGroup) : ¬ Continues plan decision group := by
  rintro ⟨edge, hedge, hfrom, houtcome, -⟩
  rw [← hfrom, ← houtcome, isTerminal_of_edge hwf hedge] at hterminal
  exact Bool.false_ne_true hterminal

theorem not_exhausts_of_terminal : ¬ Exhausts plan state decision := by
  rintro ⟨group, -, hcontinues, -⟩
  exact not_continues_of_terminal hwf hterminal group hcontinues

end

omit hwf in
theorem armTargets_nil {attemptSeq : Nat} {armed : Dispatching}
    (h : armTargets plan context decision nodes attemptSeq [] = .ok armed) :
    armed.dispatches = [] := by
  have hdecisions : decideArming plan context nodes [] [] 0 [] = [] := rfl
  have hnone : (plan.nodes.zipIdx.filter fun p => p.1.id ∈ distinct (([] : List CompiledEdge).map
      (·.to))).map (fun p => ({ node := p.1, index := p.2 } : Candidate)) = [] := by
    simp [distinct]
  unfold armTargets at h
  simp only [hnone] at h
  have harmed : armed = { nodes := nodes, attemptSeq := attemptSeq, dispatches := [] } := by
    simpa [distinct, reentryOutsideLoop, hdecisions, pure, Except.pure, eq_comm] using h
  rw [harmed]

omit hwf in
theorem not_exhausts_of_counted {loopTraversals : PlainObject CounterValue}
    (hcount : ∀ groupId, traversalsOf loopTraversals groupId =
      traversalsOf state.loopTraversals groupId +
        if groupId ∈ (continuationGroups plan decision.nodeId
          decision.outcomeId).map (·.id) then 1 else 0) (hb : CountersBounded plan loopTraversals) :
    ¬ Exhausts plan state decision := by
  rintro ⟨group, hg, hcontinues, hcap⟩
  have hmem : group.id ∈ (continuationGroups plan decision.nodeId
      decision.outcomeId).map (·.id) := mem_map_of_mem (hcontinues.mem hg)
  have hbound := (hb group hg).2
  rw [hcount, if_pos hmem] at hbound
  omega

theorem routeSettled_refused
    (hb : CountersBounded plan state.loopTraversals) (hord : OrdinaryRound plan decision)
    (hexhausts : Exhausts plan state decision) {routed : Routed}
    (h : routeSettled plan state context decision nodes = .ok routed) :
    routed.dispatches = [] ∧ routedTargets plan decision routed = [] ∧
      ∃ group ∈ plan.loopGroups, Continues plan decision group ∧
        traversalsOf state.loopTraversals group.id = group.maxTraversals ∧
        ∃ stop, routed.stop = some (.loopExhausted stop) ∧ stop.loopGroupId = group.id ∧
          stop.nodeId = decision.nodeId ∧ stop.outcomeId = decision.outcomeId ∧
          stop.traversals = group.maxTraversals := by
  rw [routeSettled] at h
  split at h
  · case isTrue hterminal =>
    exact absurd hexhausts (not_exhausts_of_terminal hwf hterminal)
  · case isFalse =>
    obtain ⟨hbound, counted, measured, armed, rfl, -, harm, hout⟩ := routeOutcome_ok.1 h
    rcases countOutcome_spec decision context.now hord hwf.groupIds_nodup hb with
      ⟨-, hcount, hb'⟩ | ⟨-, bound, hmem, hcap, hrefused⟩
    · exact absurd hexhausts (not_exhausts_of_counted hcount hb')
    rw [hrefused, Option.some_or] at hout
    have hstop := congrArg Routed.stop hout
    simp only at hstop
    have hnone : routed.stop.isNone = false := by
      rw [hstop]
      rfl
    rw [hnone, if_neg Bool.false_ne_true] at harm
    refine ⟨?_, ?_, bound, (mem_continuationGroups.1 hmem).1, continues_of_bound hbound hmem,
      hcap, _, hstop, rfl, rfl, rfl, rfl⟩
    · rw [hout]
      exact armTargets_nil harm
    · rw [routedTargets, if_pos (.inr (by rw [hstop]; rfl))]

theorem routeSettled_counted
    (hb : CountersBounded plan state.loopTraversals) (hord : OrdinaryRound plan decision)
    {routed : Routed} (h : routeSettled plan state context decision nodes = .ok routed) :
    (∀ group ∈ plan.loopGroups, Crosses plan state decision group →
      traversalsOf routed.loopTraversals group.id =
        traversalsOf state.loopTraversals group.id + 1) ∧
    ∀ group ∈ plan.loopGroups, ¬ Crosses plan state decision group →
      traversalsOf routed.loopTraversals group.id = traversalsOf state.loopTraversals group.id := by
  rw [routeSettled] at h
  split at h
  · case isTrue hterminal =>
    obtain rfl := Except.ok.inj h
    refine ⟨fun group _ hcrosses => ?_, fun group _ _ => rfl⟩
    exact absurd hcrosses.1 (not_continues_of_terminal hwf hterminal group)
  · case isFalse =>
    obtain ⟨hbound, counted, measured, armed, rfl, -, -, hout⟩ := routeOutcome_ok.1 h
    rw [hout]
    rcases countOutcome_spec decision context.now hord hwf.groupIds_nodup hb with
      ⟨-, hcount, hb'⟩ | ⟨hkept, bound, hmem, hcap, -⟩
    · have hnot : ¬ Exhausts plan state decision :=
        not_exhausts_of_counted hcount hb'
      constructor
      · intro group hg hcrosses
        rw [hcount, if_pos (mem_map_of_mem (hcrosses.1.mem hg))]
      · intro group hg hcrosses
        have hnotIn : group.id ∉ (continuationGroups plan decision.nodeId
            decision.outcomeId).map (·.id) := by
          intro hin
          obtain ⟨other, hother, hid⟩ := mem_map.1 hin
          have hsub := (mem_continuationGroups.1 hother).1
          have heq : other = group := inj_on_of_nodup_map hwf.groupIds_nodup hsub hg hid
          exact hcrosses ⟨continues_of_bound hbound (heq ▸ hother), hnot⟩
        rw [hcount, if_neg hnotIn, Nat.add_zero]
    · have hexhausts : Exhausts plan state decision :=
        ⟨bound, (mem_continuationGroups.1 hmem).1, continues_of_bound hbound hmem, hcap⟩
      refine ⟨fun group _ hcrosses => absurd hexhausts hcrosses.2, fun group _ _ => ?_⟩
      rw [hkept]

theorem countedAdvance (hinv : StateInvariant plan state)
    (hb : CountersBounded plan state.loopTraversals) (hord : OrdinaryRound plan decision)
    (h : advanceOutcomeGraph plan state decision context = .ok advance) :
    CountedAdvance plan state decision advance := by
  obtain ⟨position, current, facts, routed, -, hrouted, hclose, hdispatches, -⟩ :=
    advanceOutcomeGraph_ok h
  obtain ⟨_, _, _, _, _, hrouted', _, _, hsteps⟩ :=
    advance_entries hwf.nodeIds_nodup hinv.aligned hinv.named h
  have hsame : advance.state.loopTraversals = routed.loopTraversals := by
    rw [hclose]
    rfl
  obtain ⟨hcrossed, hkept⟩ := routeSettled_counted hwf hb hord hrouted
  refine ⟨fun group hg hcrosses => ?_, fun group hg hcrosses => ?_, fun hexhausts => ?_⟩
  · rw [hsame]
    exact hcrossed group hg hcrosses
  · rw [hsame]
    exact hkept group hg hcrosses
  · obtain ⟨hnone, -, group, hg, hcontinues, hcap, stop, hstop, hnames⟩ :=
      routeSettled_refused hwf hb hord hexhausts hrouted
    obtain ⟨-, htargets, -⟩ := routeSettled_refused hwf hb hord hexhausts hrouted'
    refine ⟨⟨group, hg, hcontinues, hcap, stop, ?_, hnames⟩, hdispatches.trans hnone, ?_⟩
    · have hclosed : advance.state.stop = closingStop plan
          (canonicalNodes plan routed.nodes) context.now routed.stop := by
        rw [hclose]
        rfl
      rw [hclosed, closingStop_of_isSome (by rw [hstop]; rfl), hstop]
    · intro entry hentry hdispatched
      obtain ⟨before, hbefore, hstep⟩ := forall₂_exists_left hsteps hentry
      refine ⟨before, hbefore, hstep.nodeId.symm, ?_⟩
      rcases hstep.progress with ⟨-, hsame⟩ | ⟨-, hsettled⟩ | ⟨htarget, -⟩
      · exact hsame.symm
      · rw [OutcomeNodeState.status, hsettled] at hdispatched
        cases hdispatched
      · rw [htargets] at htarget
        cases htarget

end

end Outcome

section Runs
variable {plan : CompiledPlan} {state state' : OutcomeGraphState}

theorem OrdinaryReachable.reachable (h : OrdinaryReachable plan state) :
    ReachableState AnyContext plan state := by
  obtain ⟨start, submissions, hstart, hrun⟩ := h
  exact ⟨start, submissions, hstart, hrun.mono fun _ _ _ hst => hst.2⟩

theorem OrdinaryReachable.countersBounded (hwf : plan.WellFormed)
    (h : OrdinaryReachable plan state) : CountersBounded plan state.loopTraversals :=
  countersBounded_of_reachable hwf (fun _ _ _ hst => hst) h

theorem ordinaryRun_traversals_le (hwf : plan.WellFormed) {submissions : List Submission}
    (hs : OrdinaryReachable plan state) (hrun : Run (OrdinaryAdvances plan) state submissions state')
    {group : CompiledLoopGroup} (hg : group ∈ plan.loopGroups) :
    traversalsOf state.loopTraversals group.id ≤ traversalsOf state'.loopTraversals group.id := by
  induction hrun with
  | nil => exact le_rfl
  | @cons s t _ a _ hst _ ih =>
    have hnext := ih (hs.tail hst)
    obtain ⟨hord, -, -, advance, hadv, rfl⟩ := hst
    have hlaw := countedAdvance hwf (hs.reachable.invariant hwf.nodeIds_nodup)
      (hs.countersBounded hwf) hord hadv
    by_cases hcrosses : Crosses plan s a.decision group
    · have hone := hlaw.crossed group hg hcrosses
      omega
    · have hkept := hlaw.kept group hg hcrosses
      omega

end Runs

/-- Counters stay within their caps, never go back, and move with the rounds crossed. -/
theorem loop_counters {host : DigestHost} {declaration : Json} {options : CompileOptions}
    {plan : CompiledPlan} (hplan : compileGraph host declaration options = .executable plan) :
    (∀ state, OrdinaryReachable plan state → ∀ group ∈ plan.loopGroups,
      Numeric state.loopTraversals group.id ∧
        traversalsOf state.loopTraversals group.id ≤ group.maxTraversals) ∧
    (∀ state submissions state', OrdinaryReachable plan state →
      Run (OrdinaryAdvances plan) state submissions state' → ∀ group ∈ plan.loopGroups,
        traversalsOf state.loopTraversals group.id ≤ traversalsOf state'.loopTraversals group.id) ∧
    ∀ state decision context advance, OrdinaryReachable plan state → OrdinaryRound plan decision →
      advanceOutcomeGraph plan state decision context = .ok advance →
      CountedAdvance plan state decision advance := by
  have hwf := compileGraph_wellFormed hplan
  refine ⟨fun state hs group hg => hs.countersBounded hwf group hg, ?_, ?_⟩
  · intro state submissions state' hs hrun group hg
    exact ordinaryRun_traversals_le hwf hs hrun hg
  · intro state decision context advance hs hord hadv
    exact countedAdvance hwf (hs.reachable.invariant hwf.nodeIds_nodup) (hs.countersBounded hwf)
      hord hadv

theorem loop_counters_counted :
    ∃ state advance, advanceOutcomeGraph (plainPlan "g" "r" countedTopology) state
        (plainDecision "A" "A#2" "again") plainContext = .ok advance ∧
      traversalsOf advance.state.loopTraversals "L" = 1 ∧
      CountedAdvance countedTopology state (plainDecision "A" "A#2" "again") advance := by
  have hsteps : ∃ start dispatches first advance,
      startOutcomeGraph (plainPlan "g" "r" countedTopology) plainContext 0 =
        .ok (start, dispatches) ∧
      advanceOutcomeGraph (plainPlan "g" "r" countedTopology) start
        (plainDecision "E" "E#1" "ok") plainContext = .ok first ∧
      advanceOutcomeGraph (plainPlan "g" "r" countedTopology) first.state
        (plainDecision "A" "A#2" "again") plainContext = .ok advance ∧
      traversalsOf advance.state.loopTraversals "L" = 1 :=
    ⟨_, _, _, _, rfl, rfl, rfl, rfl⟩
  obtain ⟨start, dispatches, first, advance, hs, hfirst, hadv, hone⟩ := hsteps
  have hentry : OrdinaryRound countedTopology (plainDecision "E" "E#1" "ok") := by
    unfold OrdinaryRound
    decide
  have hround : OrdinaryRound countedTopology (plainDecision "A" "A#2" "again") := by
    unfold OrdinaryRound
    decide
  have hreach : OrdinaryReachable (plainPlan "g" "r" countedTopology) first.state :=
    .tail (a := ⟨plainDecision "E" "E#1" "ok", plainContext⟩)
      (.of_init ⟨plainContext, 0, dispatches, trivial, hs⟩)
      ⟨hentry, trivial, by decide, first, hfirst, rfl⟩
  exact ⟨first.state, advance, hadv, hone,
    (loop_counters countedTopology_compiles).2.2 _ _ _ _ hreach hround hadv⟩

def methodTopology : JoinTopology :=
  { countedTopology with loopGroups := [⟨"toString", ["A"], 1, "again", "done", none⟩] }

/-- The group's counter never becomes a number, so that no round of it is counted. -/
theorem methodTopology_uncounted :
    compileGraph (plainHost "r") (declareTopology "g" methodTopology) plainOptions =
      .executable (plainPlan "g" "r" methodTopology) ∧
    ¬ ∀ state decision context advance,
      ReachableState AnyContext (plainPlan "g" "r" methodTopology) state →
      advanceOutcomeGraph (plainPlan "g" "r" methodTopology) state decision context = .ok advance →
      CountedAdvance methodTopology state decision advance := by
  refine ⟨rfl, fun hlaw => ?_⟩
  have hsteps : ∃ state advance,
      runDecisions (plainPlan "g" "r" methodTopology) plainContext
        [plainDecision "E" "E#1" "ok"] = some state ∧
      advanceOutcomeGraph (plainPlan "g" "r" methodTopology) state
        (plainDecision "A" "A#2" "again") plainContext = .ok advance ∧
      traversalsOf state.loopTraversals "toString" = 0 ∧
      advance.state.loopTraversals.own? "toString" = some (.text 1) :=
    ⟨_, _, rfl, rfl, rfl, rfl⟩
  obtain ⟨state, advance, hrun, hsecond, hnone, htext⟩ := hsteps
  have hreach : ReachableState AnyContext (plainPlan "g" "r" methodTopology) state :=
    runDecisions_reachable trivial hrun
  have hcounted := hlaw _ _ _ _ hreach hsecond
  have hcrosses : Crosses methodTopology state (plainDecision "A" "A#2" "again")
      ⟨"toString", ["A"], 1, "again", "done", none⟩ := by
    refine ⟨⟨⟨"A", "A", "again"⟩, by decide, rfl, rfl, by decide, rfl⟩, ?_⟩
    rintro ⟨group, hg, -, hcap⟩
    obtain rfl := mem_singleton.1 hg
    rw [hnone] at hcap
    exact absurd hcap (by decide)
  have hone := hcounted.crossed _ (mem_singleton.2 rfl) hcrosses
  have hzero : traversalsOf advance.state.loopTraversals "toString" = 0 := by
    rw [traversalsOf, htext]
  rw [hnone, hzero] at hone
  exact absurd hone (by decide)

end Rolebox.Graph
