import Rolebox.Graph.ArmSafety

/-! The joins the compiler takes to be satisfiable, and that no run dispatches another node. -/

namespace Rolebox.Graph
open General List

section Closure
variable {plan : JoinTopology} {targetId : String}
variable {nodeId : String}

/-- The nodes that may be dispatched while `targetId` never runs, whatever the outcomes. -/
inductive DispatchableBefore (plan : JoinTopology) (targetId : String) : String → Prop
  | entry {node : CompiledNode} : node ∈ plan.entryNodesOf → node.id ≠ targetId →
      DispatchableBefore plan targetId node.id
  | armed {node : CompiledNode} {edge : CompiledEdge} {sources : List String} :
      node ∈ plan.nodes → node.id ≠ targetId → edge ∈ plan.edges → edge.to = node.id →
      edge.from ≠ targetId → DispatchableBefore plan targetId edge.from →
      (∀ source ∈ sources, DispatchableBefore plan targetId source) →
      joinSatisfiedBy node sources (plan.feederSourcesOf node.id) = true →
      DispatchableBefore plan targetId node.id

theorem DispatchableBefore.ne (h : DispatchableBefore plan targetId nodeId) :
    nodeId ≠ targetId := by
  cases h with
  | entry _ hne => exact hne
  | armed _ hne => exact hne

def dispatchStep (plan : JoinTopology) (targetId : String) (runnable : List String)
    (candidate : CompiledNode) : List String :=
  if candidate.id = targetId ∨ candidate.id ∈ runnable then runnable
  else if (plan.edges.any fun edge =>
      edge.to = candidate.id ∧ edge.from ≠ targetId ∧ edge.from ∈ runnable) &&
      joinSatisfiedBy candidate runnable (plan.feederSourcesOf candidate.id) then
    runnable ++ [candidate.id]
  else runnable

def dispatchSeeds (plan : JoinTopology) (targetId : String) : List String :=
  distinct ((plan.entryNodesOf.map (·.id)).filter (· ≠ targetId))

theorem dispatchStep_adds :
    AddsWithin (plan.nodes.map (·.id)) (dispatchStep plan targetId) plan.nodes := by
  intro runnable candidate hcandidate
  unfold dispatchStep
  split
  · exact .inl rfl
  next hnew =>
  split
  · exact .inr ⟨candidate.id, mem_map_of_mem hcandidate, fun hin => hnew (.inr hin), rfl⟩
  · exact .inl rfl

theorem mem_dispatchSeeds :
    nodeId ∈ dispatchSeeds plan targetId ↔
      nodeId ≠ targetId ∧ ∃ node ∈ plan.entryNodesOf, node.id = nodeId := by
  simp [dispatchSeeds, and_comm]

theorem dispatchSeeds_within :
    (dispatchSeeds plan targetId).Nodup ∧ dispatchSeeds plan targetId ⊆ plan.nodes.map (·.id) := by
  refine ⟨nodup_distinct _, fun nodeId hseed => ?_⟩
  obtain ⟨-, node, hentry, rfl⟩ := mem_dispatchSeeds.1 hseed
  exact mem_map_of_mem (mem_filter.1 hentry).1

theorem dispatchPass_sound {items : List CompiledNode} (hitems : items ⊆ plan.nodes)
    {runnable : List String} (h : ∀ nodeId ∈ runnable, DispatchableBefore plan targetId nodeId) :
    ∀ nodeId ∈ items.foldl (dispatchStep plan targetId) runnable,
      DispatchableBefore plan targetId nodeId := by
  induction items generalizing runnable with
  | nil => exact h
  | cons candidate items ih =>
    obtain ⟨hcandidate, hrest⟩ := cons_subset.1 hitems
    rw [foldl_cons]
    refine ih hrest ?_
    unfold dispatchStep
    split
    · exact h
    next hnew =>
    split
    · next harms =>
      obtain ⟨hreached, hjoin⟩ := Bool.and_eq_true_iff.1 harms
      obtain ⟨edge, hedge, hfeeds⟩ := any_eq_true.1 hreached
      obtain ⟨hto, hfrom, hrunnable⟩ := of_decide_eq_true hfeeds
      intro nodeId hin
      rcases mem_append.1 hin with hin | hin
      · exact h nodeId hin
      · rw [mem_singleton.1 hin]
        exact .armed hcandidate (fun heq => hnew (.inl heq)) hedge hto hfrom
          (h _ hrunnable) h hjoin
    · exact h

theorem mem_dispatchableBefore :
    nodeId ∈ dispatchableBefore plan targetId ↔ DispatchableBefore plan targetId nodeId := by
  have hfixed : ∀ node ∈ plan.nodes, dispatchStep plan targetId (dispatchableBefore plan targetId)
      node = dispatchableBefore plan targetId :=
    dispatchStep_adds.saturated dispatchSeeds_within (by rw [length_map]; omega)
  have hseeds : dispatchSeeds plan targetId ⊆ dispatchableBefore plan targetId :=
    saturate_invariant (I := fun runnable => dispatchSeeds plan targetId ⊆ runnable)
      (fun runnable hsub => Subset.trans hsub
        (dispatchStep_adds.foldl_prefix runnable).subset) _ (Subset.refl _)
  constructor
  · refine saturate_invariant
      (I := fun runnable => ∀ id ∈ runnable, DispatchableBefore plan targetId id)
      (fun runnable => dispatchPass_sound (Subset.refl _)) _ ?_ nodeId
    intro id hseed
    obtain ⟨hne, node, hentry, rfl⟩ := mem_dispatchSeeds.1 hseed
    exact .entry hentry hne
  · intro h
    induction h with
    | @entry node hentry hne => exact hseeds (mem_dispatchSeeds.2 ⟨hne, node, hentry, rfl⟩)
    | @armed node edge sources hnode hne hedge hto hfrom _ _ hjoin hreached hsources =>
      by_contra hnew
      have hstep := hfixed node hnode
      have hedges : (plan.edges.any fun edge => edge.to = node.id ∧ edge.from ≠ targetId ∧
          edge.from ∈ dispatchableBefore plan targetId) = true :=
        any_eq_true.2 ⟨edge, hedge, decide_eq_true ⟨hto, hfrom, hreached⟩⟩
      have hjoined : joinSatisfiedBy node (dispatchableBefore plan targetId)
          (plan.feederSourcesOf node.id) = true :=
        joinSatisfiedBy_mono (fun source _ hin => hsources source hin) hjoin
      unfold dispatchStep at hstep
      rw [if_neg (by simp [hne, hnew]), hedges, hjoined] at hstep
      simp at hstep

end Closure

section Refusals
variable {plan : JoinTopology} {node : CompiledNode}

def SatisfiableJoin (plan : JoinTopology) (node : CompiledNode) : Prop :=
  ∃ sources, (∀ source ∈ sources, source ∈ plan.feederSourcesOf node.id ∧
    DispatchableBefore plan node.id source) ∧
    joinSatisfiedBy node sources (plan.feederSourcesOf node.id) = true

theorem satisfiableJoin_iff :
    SatisfiableJoin plan node ↔ joinSatisfiedBy node (dispatchableBefore plan node.id)
      (plan.feederSourcesOf node.id) = true := by
  constructor
  · rintro ⟨sources, hsources, hjoin⟩
    exact joinSatisfiedBy_mono (fun source _ hin => mem_dispatchableBefore.2 (hsources source hin).2)
      hjoin
  · intro hjoin
    refine ⟨(plan.feederSourcesOf node.id).filter (· ∈ dispatchableBefore plan node.id), ?_, ?_⟩
    · intro source hsource
      obtain ⟨hfeeder, hrunnable⟩ := mem_filter.1 hsource
      exact ⟨hfeeder, mem_dispatchableBefore.1 (of_decide_eq_true hrunnable)⟩
    · refine joinSatisfiedBy_mono (fun source hfeeder hin => ?_) hjoin
      exact mem_filter.2 ⟨hfeeder, decide_eq_true hin⟩

/-- A node is refused when the feeders dispatchable before it do not satisfy its join. -/
theorem unsatisfiableJoin_iff (hnode : node ∈ plan.nodes) :
    unsatisfiableJoin plan node ≠ [] ↔ node.id ∉ plan.entryNodesOf.map (·.id) ∧
      ¬ SatisfiableJoin plan node ∧
      ∃ feeder ∈ plan.feederSourcesOf node.id, ¬ DispatchableBefore plan node.id feeder := by
  have hfed : node.id ∉ plan.entryNodesOf.map (·.id) → plan.feederSourcesOf node.id ≠ [] :=
    fun hentry hnil =>
      hentry (mem_map_of_mem ((JoinTopology.feederSourcesOf_eq_nil hnode).1 hnil))
  rw [satisfiableJoin_iff]
  unfold unsatisfiableJoin
  simp only
  split
  · next hfine =>
    refine ⟨fun hne => absurd rfl hne, ?_⟩
    rintro ⟨hentry, hjoin, -⟩
    rcases hfine with hin | hnil | hjoined
    · exact absurd hin hentry
    · exact absurd hnil (hfed hentry)
    · exact absurd hjoined hjoin
  · next hrefused =>
    rw [not_or, not_or] at hrefused
    rw [ne_eq, map_eq_nil_iff, filter_eq_nil_iff]
    constructor
    · intro hsome
      push Not at hsome
      obtain ⟨feeder, hfeeder, hout⟩ := hsome
      exact ⟨hrefused.1, hrefused.2.2, feeder, hfeeder,
        fun hbefore => of_decide_eq_true hout (mem_dispatchableBefore.2 hbefore)⟩
    · rintro ⟨-, -, feeder, hfeeder, hbefore⟩ hnone
      exact hnone feeder hfeeder
        (decide_eq_true fun hin => hbefore (mem_dispatchableBefore.1 hin))

/-- Where every feeder may be dispatched first, only a quorum above all is not satisfiable. -/
theorem satisfiableJoin_or_quorum
    (hall : ∀ feeder ∈ plan.feederSourcesOf node.id, DispatchableBefore plan node.id feeder) :
    SatisfiableJoin plan node ∨ ∃ quorum, resolveJoinStrategy node.join = .quorum quorum ∧
      (plan.feederSourcesOf node.id).length < quorum := by
  have hfull : (plan.feederSourcesOf node.id).filter (· ∈ plan.feederSourcesOf node.id) =
      plan.feederSourcesOf node.id :=
    filter_eq_self.2 fun feeder hfeeder => decide_eq_true hfeeder
  have hsources : joinSatisfiedBy node (plan.feederSourcesOf node.id)
      (plan.feederSourcesOf node.id) = true → SatisfiableJoin plan node :=
    fun hjoin => ⟨_, fun source hsource => ⟨hsource, hall source hsource⟩, hjoin⟩
  unfold joinSatisfiedBy at hsources
  rw [hfull] at hsources
  split at hsources
  · exact .inl (hsources rfl)
  next hfed =>
  have hlength : (plan.feederSourcesOf node.id).length ≠ 0 :=
    fun hzero => hfed (length_eq_zero_iff.1 hzero)
  cases hstrategy : resolveJoinStrategy node.join with
  | all =>
    rw [hstrategy] at hsources
    exact .inl (hsources (decide_eq_true rfl))
  | any =>
    rw [hstrategy] at hsources
    exact .inl (hsources (decide_eq_true (Nat.one_le_iff_ne_zero.2 hlength)))
  | quorum quorum =>
    rw [hstrategy] at hsources
    by_cases hle : quorum ≤ (plan.feederSourcesOf node.id).length
    · exact .inl (hsources (decide_eq_true hle))
    · exact .inr ⟨quorum, rfl, Nat.lt_of_not_le hle⟩

end Refusals

section Executable

/-- Some node starts, and the feeders dispatchable before a node satisfy its join. -/
structure JoinsFeasible (plan : JoinTopology) : Prop where
  entry : plan.entryNodesOf ≠ []
  joins : ∀ node ∈ plan.nodes, node.id ∉ plan.entryNodesOf.map (·.id) →
    SatisfiableJoin plan node ∨ ∃ quorum, resolveJoinStrategy node.join = .quorum quorum ∧
      (plan.feederSourcesOf node.id).length < quorum

variable {plan : JoinTopology}

theorem joins_of_unrefused (h : unsatisfiableJoinsOf plan = [])
    {node : CompiledNode} (hnode : node ∈ plan.nodes)
    (hentry : node.id ∉ plan.entryNodesOf.map (·.id)) :
    SatisfiableJoin plan node ∨
      ∀ feeder ∈ plan.feederSourcesOf node.id, DispatchableBefore plan node.id feeder := by
  by_contra hno
  rw [not_or] at hno
  obtain ⟨hjoin, hfeeders⟩ := hno
  push Not at hfeeders
  exact (unsatisfiableJoin_iff hnode).2 ⟨hentry, hjoin, hfeeders⟩
    (flatMap_eq_nil_iff.1 h node hnode)

theorem DispatchableBefore.entryNodes {targetId nodeId : String}
    (h : DispatchableBefore plan targetId nodeId) : plan.entryNodesOf ≠ [] := by
  induction h with
  | entry hentry _ => exact ne_nil_of_mem hentry
  | armed _ _ _ _ _ _ _ _ ih _ => exact ih

theorem nodes_of_terminals {nodes : List CompiledNode} {edges : List CompiledEdge}
    {declared : List CompiledTerminalOutcome}
    (h : inspectTerminals nodes edges declared = []) : nodes ≠ [] := by
  rintro rfl
  have hnone : terminalOutcomesOf [] edges = [] := rfl
  unfold inspectTerminals at h
  simp only [hnone, if_true] at h
  exact absurd (append_eq_nil_iff.1 h).1 (cons_ne_nil _ _)

theorem entryNodes_of_unrefused (h : unsatisfiableJoinsOf plan = [])
    (hnodes : plan.nodes ≠ []) : plan.entryNodesOf ≠ [] := by
  intro hnone
  obtain ⟨node, hnode⟩ := exists_mem_of_ne_nil _ hnodes
  have hentry : node.id ∉ plan.entryNodesOf.map (·.id) := by
    rw [hnone]
    exact not_mem_nil
  have hfed : plan.feederSourcesOf node.id ≠ [] := by
    intro hnil
    have hin := (JoinTopology.feederSourcesOf_eq_nil hnode).1 hnil
    rw [hnone] at hin
    cases hin
  rcases joins_of_unrefused h hnode hentry with ⟨sources, hsources, hjoin⟩ | hall
  · rw [joinSatisfiedBy_unheard hfed fun source _ hin =>
      (hsources source hin).2.entryNodes hnone] at hjoin
    cases hjoin
  · obtain ⟨feeder, hfeeder⟩ := exists_mem_of_ne_nil _ hfed
    exact (hall feeder hfeeder).entryNodes hnone

theorem executable_joins {host : DigestHost} {raw : Json} {options : CompileOptions}
    {plan : CompiledPlan} (hcompiled : compileGraph host raw options = .executable plan) :
    JoinsFeasible plan := by
  obtain ⟨-, -, -, -, hinspect, hjoins, -⟩ := compileGraph_executable hcompiled
  unfold inspectCompiledTopology at hinspect
  simp only [append_eq_nil_iff] at hinspect
  constructor
  · exact entryNodes_of_unrefused hjoins (nodes_of_terminals hinspect.1.1.1.1.2)
  intro node hnode hentry
  rcases joins_of_unrefused hjoins hnode hentry with hjoin | hall
  · exact .inl hjoin
  · exact satisfiableJoin_or_quorum hall

end Executable

section Runs
variable {plan : CompiledPlan} {state state' : OutcomeGraphState} {context : AdvanceContext}
  {decision : AcceptedDecision} {node : CompiledNode}
variable {target : CompiledNode}

/-- A node taken out of `pending` was routed to by the decided one, and its join holds then. -/
theorem advance_dispatched {advance : OutcomeAdvance} (hnodup : plan.nodeIds.Nodup)
    (hs : StateInvariant plan state)
    (hadv : advanceOutcomeGraph plan state decision context = .ok advance)
    (hnode : node ∈ plan.nodes) (hpending : statusOf state.nodes node.id = some .pending)
    (hleft : statusOf advance.state.nodes node.id ≠ some .pending) :
    (∃ edge ∈ plan.edges, edge.from = decision.nodeId ∧ edge.outcome = decision.outcomeId ∧
        edge.to = node.id) ∧
      joinHolds plan (settledNodes plan state decision context.now) node [] = true := by
  obtain ⟨position, current, facts, routed, hd, hr, hclose, -, -⟩ := advanceOutcomeGraph_ok hadv
  obtain ⟨-, -, -, hc, -, -, -⟩ := dispatchedEntry_ok.1 hd
  rw [← settledNodes_eq hd] at hr
  have halign : Aligned plan (settledNodes plan state decision context.now) := by
    rw [settledNodes_eq hd]
    exact hs.aligned.set hc rfl
  have hother : node.id ≠ decision.nodeId := by
    intro heq
    rw [heq, (decided_unsettled hnodup hs.aligned hd).1] at hpending
    cases hpending
  have hstill : statusOf (settledNodes plan state decision context.now) node.id =
      some .pending := by
    rw [statusOf_settledNodes hnodup hs.aligned hd, if_neg hother, hpending]
  obtain ⟨edges, blocked, progress, hedges, hfinal, happlied, hprogress, -⟩ :=
    routeSettled_applied hnodup halign hr
  have hmoved : statusOf progress.nodes node.id ≠ some .pending := by
    rw [hclose] at hleft
    rw [← hprogress, ← statusOf_canonicalNodes plan]
    exact hleft
  have harm : node.id ∈ (routedRound plan context
      (settledNodes plan state decision context.now) edges blocked).map
        (·.candidate.node.id) := by
    by_contra hnone
    unfold statusOf at hmoved hstill
    rw [happlied.entry node.id hnone] at hmoved
    exact hmoved hstill
  obtain ⟨arm, hround, hname⟩ := mem_map.1 harm
  obtain ⟨htarget, hholds, -⟩ := mem_routedRound hnodup halign hround
  obtain ⟨hat, hrouted⟩ := mem_candidatesOf.1 (mem_filter.1 htarget).1
  have hsame : arm.candidate.node = node :=
    inj_on_of_nodup_map hnodup (mem_of_getElem? hat) hnode hname
  rw [hsame] at hholds hrouted
  refine ⟨?_, joinHolds_anti (fun _ hnone => absurd hnone not_mem_nil) hholds⟩
  obtain ⟨edge, hedge, hto⟩ := mem_map.1 hrouted
  rcases hedges with ⟨rfl, -⟩ | rfl
  · cases hedge
  · obtain ⟨hin, hfrom⟩ := mem_filter.1 hedge
    obtain ⟨hsource, houtcome⟩ := of_decide_eq_true hfrom
    exact ⟨edge, hin, hsource, houtcome, hto⟩

/-- While the target was never dispatched, the nodes that were are dispatchable before it. -/
structure RanBefore (plan : CompiledPlan) (targetId : String) (state : OutcomeGraphState) :
    Prop where
  waits : statusOf state.nodes targetId = some .pending
  ran : ∀ node ∈ plan.nodes, statusOf state.nodes node.id ≠ some .pending →
    DispatchableBefore plan targetId node.id

section

variable (hnodup : plan.nodeIds.Nodup)
include hnodup

theorem start_status (h : Starts AnyContext plan state) (hnode : node ∈ plan.nodes) :
    statusOf state.nodes node.id =
      some (if node.id ∈ plan.entryNodesOf.map (·.id) then .dispatched else .pending) := by
  have halign := h.invariant.aligned
  obtain ⟨context, fromAttemptSeq, dispatches, -, hstart⟩ := h
  obtain ⟨-, -, hall, -⟩ := start_entries hstart
  obtain ⟨i, hi⟩ := getElem?_of_mem hnode
  obtain ⟨entry, hentry, hstep⟩ := forall₂_getElem? hall hi
  rw [← hstep.nodeId, statusOf, halign.entryOf_mem hnodup (mem_of_getElem? hentry),
    Option.map_some, OutcomeNodeState.status, hstep.nodeId]
  rcases hstep.progress with ⟨hin, facts, hf, -⟩ | ⟨hout, hf⟩
  · rw [hf, if_pos hin]
    rfl
  · rw [hf, if_neg hout]
    rfl

theorem RanBefore.start (htarget : target ∈ plan.nodes)
    (hentry : target.id ∉ plan.entryNodesOf.map (·.id)) (h : Starts AnyContext plan state) :
    RanBefore plan target.id state := by
  refine ⟨?_, fun node hnode hran => ?_⟩
  · rw [start_status hnodup h htarget, if_neg hentry]
  rw [start_status hnodup h hnode] at hran
  split at hran
  · next hin =>
    obtain ⟨other, hother, hid⟩ := mem_map.1 hin
    refine hid ▸ .entry hother fun heq => hentry ?_
    rw [← heq]
    exact mem_map_of_mem hother
  · exact absurd rfl hran

theorem RanBefore.decided {targetId : String}
    (hran : RanBefore plan targetId state) (hs : StateInvariant plan state)
    {position : Nat} {current : OutcomeNodeState} {facts : DispatchFacts}
    (hd : dispatchedEntry plan state decision = .ok (position, current, facts)) :
    DispatchableBefore plan targetId decision.nodeId := by
  obtain ⟨-, -, -, hc, hid, -, -⟩ := dispatchedEntry_ok.1 hd
  obtain ⟨node, hnode, hname⟩ := hs.aligned.exists_node (mem_of_getElem? hc)
  rw [hid] at hname
  have hstatus : statusOf state.nodes node.id ≠ some .pending := by
    rw [hname, (decided_unsettled hnodup hs.aligned hd).1]
    exact nofun
  rw [← hname]
  exact hran.ran node hnode hstatus

theorem RanBefore.joined {targetId : String}
    (hran : RanBefore plan targetId state) (hs : StateInvariant plan state)
    {position : Nat} {current : OutcomeNodeState} {facts : DispatchFacts} {now : Nat}
    (hd : dispatchedEntry plan state decision = .ok (position, current, facts)) {nodeId : String} :
    ∀ source ∈ (materializeArrivals plan (settledNodes plan state decision now) []
      nodeId).map (·.from), DispatchableBefore plan targetId source := by
  intro source hsource
  obtain ⟨arrival, harrival, rfl⟩ := mem_map.1 hsource
  obtain ⟨hin, -, hsettled, -⟩ := mem_materializeArrivals.1 harrival
  have hstatus := statusOf_of_settlement hsettled
  rw [statusOf_settledNodes hnodup hs.aligned hd] at hstatus
  split at hstatus
  · next heq =>
    rw [heq]
    exact hran.decided hnodup hs hd
  · obtain ⟨node, hnode, hid⟩ := mem_map.1 hin
    rw [← hid] at hstatus ⊢
    refine hran.ran node hnode ?_
    rw [hstatus]
    exact nofun

theorem RanBefore.advance (htarget : target ∈ plan.nodes)
    (hjoin : ¬ SatisfiableJoin plan target) (hs : StateInvariant plan state)
    (hran : RanBefore plan target.id state) {submission : Submission}
    (hst : Advances AnyContext plan state submission state') : RanBefore plan target.id state' := by
  obtain ⟨-, -, advanced, hadv, rfl⟩ := hst
  obtain ⟨position, current, facts, -, hd, -, -, -, -⟩ := advanceOutcomeGraph_ok hadv
  have hwaits : statusOf advanced.state.nodes target.id = some .pending := by
    by_contra hleft
    obtain ⟨-, hholds⟩ := advance_dispatched hnodup hs hadv htarget hran.waits hleft
    refine hjoin (satisfiableJoin_iff.2 (joinSatisfiedBy_mono (fun source _ hin => ?_) hholds))
    exact mem_dispatchableBefore.2 (hran.joined hnodup hs hd source hin)
  refine ⟨hwaits, fun node hnode hmoved => ?_⟩
  by_cases hpending : statusOf state.nodes node.id = some .pending
  · obtain ⟨⟨edge, hedge, hfrom, -, hto⟩, hholds⟩ :=
      advance_dispatched hnodup hs hadv hnode hpending hmoved
    have hdecided := hran.decided hnodup hs hd
    refine .armed hnode (fun heq => hmoved (heq ▸ hwaits)) hedge hto ?_ ?_
      (hran.joined hnodup hs hd) hholds
    · rw [hfrom]
      exact hdecided.ne
    · rw [hfrom]
      exact hdecided
  · exact hran.ran node hnode hpending

theorem refused_pending (htarget : target ∈ plan.nodes)
    (hrefused : unsatisfiableJoin plan target ≠ [])
    (hreach : ReachableState AnyContext plan state) :
    statusOf state.nodes target.id = some .pending := by
  obtain ⟨hentry, hjoin, -⟩ := (unsatisfiableJoin_iff htarget).1 hrefused
  have hran : RanBefore plan target.id state := by
    refine Reachable.invariant_of_reachable
      (fun _ hs => RanBefore.start hnodup htarget hentry hs) ?_ hreach
    intro s submission t hreach hran hst
    exact hran.advance hnodup htarget hjoin (ReachableState.invariant hnodup hreach) hst
  exact hran.waits

end

/-- Executable plans have feasible joins; a node is refused exactly when its join cannot hold, and
no run dispatches one that is. -/
theorem join_feasibility :
    (∀ (host : DigestHost) (raw : Json) (options : CompileOptions) (plan : CompiledPlan),
      compileGraph host raw options = .executable plan → JoinsFeasible plan) ∧
    ∀ plan : CompiledPlan, plan.nodeIds.Nodup → ∀ node ∈ plan.nodes,
      (unsatisfiableJoin plan node ≠ [] ↔
        node.id ∉ plan.entryNodesOf.map (·.id) ∧ ¬ SatisfiableJoin plan node ∧
          ∃ feeder ∈ plan.feederSourcesOf node.id, ¬ DispatchableBefore plan node.id feeder) ∧
      (unsatisfiableJoin plan node ≠ [] → ∀ state,
        ReachableState AnyContext plan state → statusOf state.nodes node.id = some .pending) := by
  refine ⟨fun host raw options plan hcompiled => executable_joins hcompiled, ?_⟩
  intro plan hnodup node hnode
  exact ⟨unsatisfiableJoin_iff hnode,
    fun hrefused state hreach => refused_pending hnodup hnode hrefused hreach⟩

theorem unrouted_settlement (hwf : plan.WellFormed) (hs : StateInvariant plan state)
    {advance : OutcomeAdvance}
    (hadv : advanceOutcomeGraph plan state decision context = .ok advance) {nodeId : String}
    (hunrouted : ∀ edge ∈ plan.edges, edge.to ≠ nodeId) :
    settlementOf advance.state.nodes nodeId =
      settlementOf (settledNodes plan state decision context.now) nodeId := by
  obtain ⟨halign, routed, blocked, hrouted, -, harmed⟩ := advance_arms hwf hs hadv
  rw [harmed.settlement, if_neg]
  intro harm
  obtain ⟨arm, hround, rfl⟩ := mem_map.1 harm
  obtain ⟨htarget, -, -⟩ := mem_routedRound hwf.nodeIds_nodup halign (mem_filter.1 hround).1
  obtain ⟨edge, hedge, hto⟩ := mem_map.1
    (mem_candidatesOf.1 (mem_filter.1 htarget).1).2
  rcases hrouted with rfl | rfl
  · cases hedge
  · exact hunrouted edge (mem_filter.1 hedge).1 hto

end Runs

/-- The entry node settles on what starts `A` or what feeds `N`, which waits for both. -/
def splitTopology : JoinTopology :=
  { nodes :=
      [plainNode "A" ["ok"] none [], plainNode "N" ["done"] none [],
        plainNode "S" ["x", "y"] none []]
    edges := [⟨"A", "N", "ok"⟩, ⟨"S", "A", "x"⟩, ⟨"S", "N", "y"⟩]
    loopGroups := [] }

theorem splitTopology_compiles :
    compileGraph (plainHost "r") (declareTopology "g" splitTopology) plainOptions =
      .executable (plainPlan "g" "r" splitTopology) := rfl

/-- The same nodes with an edge back from `N` to `A`, which then waits for `N`. -/
def mutualTopology : JoinTopology :=
  { splitTopology with edges := [⟨"A", "N", "ok"⟩, ⟨"N", "A", "done"⟩, ⟨"S", "N", "y"⟩] }

theorem mutual_refused : unsatisfiableJoin mutualTopology (plainNode "N" ["done"] none []) ≠ [] := by
  decide

theorem split_feasible : JoinsFeasible splitTopology ∧
    ∀ state, ReachableState AnyContext (plainPlan "g" "r" mutualTopology) state →
      statusOf state.nodes "N" = some .pending :=
  ⟨join_feasibility.1 _ _ _ _ splitTopology_compiles,
    (join_feasibility.2 (plainPlan "g" "r" mutualTopology) (by decide)
      (plainNode "N" ["done"] none []) (by decide)).2 mutual_refused⟩

/-- `A` runs only once `S` has settled on `x`. -/
def SplitLaw (state : OutcomeGraphState) : Prop :=
  statusOf state.nodes "A" ≠ some .pending →
    ∃ attemptId, settlementOf state.nodes "S" = some ("x", attemptId)

theorem splitTopology_nodup : (plainPlan "g" "r" splitTopology).nodeIds.Nodup :=
  (compileGraph_wellFormed splitTopology_compiles).nodeIds_nodup

theorem SplitLaw.start {state : OutcomeGraphState}
    (h : Starts AnyContext (plainPlan "g" "r" splitTopology) state) : SplitLaw state := by
  intro hran
  have hnode : plainNode "A" ["ok"] none [] ∈ (plainPlan "g" "r" splitTopology).nodes := .head _
  have hwaits : statusOf state.nodes "A" = some .pending :=
    (start_status splitTopology_nodup h hnode).trans (by decide)
  exact absurd hwaits hran

theorem SplitLaw.advance {state state' : OutcomeGraphState} {submission : Submission}
    (hs : StateInvariant (plainPlan "g" "r" splitTopology) state) (hlaw : SplitLaw state)
    (hst : Advances AnyContext (plainPlan "g" "r" splitTopology) state submission state') :
    SplitLaw state' := by
  intro hran
  obtain ⟨-, -, advance, hadv, rfl⟩ := hst
  obtain ⟨position, current, facts, -, hd, -, -, -, -⟩ := advanceOutcomeGraph_ok hadv
  have hnode : plainNode "A" ["ok"] none [] ∈ (plainPlan "g" "r" splitTopology).nodes := .head _
  have hfeeds : ∀ edge ∈ splitTopology.edges, edge.to = "A" →
      edge.from = "S" ∧ edge.outcome = "x" := by decide
  rw [unrouted_settlement (compileGraph_wellFormed splitTopology_compiles) hs hadv
    (show ∀ edge ∈ splitTopology.edges, edge.to ≠ "S" by decide),
    settlementOf_settledNodes splitTopology_nodup hs.aligned hd]
  by_cases hwaits : statusOf state.nodes "A" = some .pending
  · obtain ⟨⟨edge, hedge, hfrom, houtcome, hto⟩, -⟩ :=
      advance_dispatched splitTopology_nodup hs hadv hnode hwaits hran
    obtain ⟨hsource, hx⟩ := hfeeds edge hedge hto
    rw [if_pos (hsource.symm.trans hfrom), ← houtcome, hx]
    exact ⟨_, rfl⟩
  · obtain ⟨attemptId, hsettled⟩ := hlaw hwaits
    rw [if_neg]
    · exact ⟨attemptId, hsettled⟩
    · intro hdecided
      rw [hdecided, (decided_unsettled splitTopology_nodup hs.aligned hd).2] at hsettled
      cases hsettled

theorem SplitLaw.unjoined {state : OutcomeGraphState} (hlaw : SplitLaw state) :
    joinHolds splitTopology state.nodes (plainNode "N" ["done"] none []) [] = false := by
  rw [Bool.eq_false_iff]
  intro hholds
  have hall : resolveJoinStrategy (plainNode "N" ["done"] none []).join = .all := rfl
  obtain ⟨fromA, harrivalA, hA⟩ := joinHolds_all hall hholds
    (show "A" ∈ splitTopology.feederSourcesOf "N" by decide)
  obtain ⟨fromS, harrivalS, hS⟩ := joinHolds_all hall hholds
    (show "S" ∈ splitTopology.feederSourcesOf "N" by decide)
  obtain ⟨-, -, hsettledA, -⟩ := mem_materializeArrivals.1 harrivalA
  obtain ⟨-, -, hsettledS, edge, hedge, hfrom, hto, houtcome⟩ := mem_materializeArrivals.1 harrivalS
  have hdone := statusOf_of_settlement hsettledA
  rw [hA] at hdone
  obtain ⟨attemptId, hx⟩ := hlaw (by rw [hdone]; exact nofun)
  rw [hS, hx] at hsettledS
  have hfeeds : ∀ edge ∈ splitTopology.edges, edge.from = "S" → edge.to = "N" →
      edge.outcome = "y" := by decide
  have hy := hfeeds edge hedge (hfrom.trans hS) hto
  have hsame := (Prod.mk.inj (Option.some.inj hsettledS)).1
  rw [houtcome, ← hsame] at hy
  exact absurd hy (by decide)

/-- The compiler takes the plan, and no run ever satisfies the join of `N`. -/
theorem split_unjoined :
    compileGraph (plainHost "r") (declareTopology "g" splitTopology) plainOptions =
      .executable (plainPlan "g" "r" splitTopology) ∧
    ∀ state, ReachableState AnyContext (plainPlan "g" "r" splitTopology) state →
      joinHolds splitTopology state.nodes (plainNode "N" ["done"] none []) [] = false := by
  refine ⟨rfl, fun state hreach => SplitLaw.unjoined ?_⟩
  refine Reachable.invariant_of_reachable (fun _ hs => SplitLaw.start hs) ?_ hreach
  intro _ _ _ hbefore hlaw hst
  exact hlaw.advance (ReachableState.invariant splitTopology_nodup hbefore) hst

end Rolebox.Graph
