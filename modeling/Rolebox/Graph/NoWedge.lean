import Rolebox.Graph.PhaseLaw

/-! When an accepted outcome of a node in flight advances the run, and when it is refused. -/

namespace Rolebox.Graph
open General List

def stalls (loopProgress : PlainObject OutcomeLoopProgress) (projections : List ProgressProjection)
    (group : CompiledLoopGroup) : Bool :=
  match group.progress, loopProgress.get group.id,
    projections.find? (·.loopGroupId = group.id) with
  | some policy, .value entry, some projection =>
    (compareProgress policy entry projection).report.stalled
  | _, _, _ => false

def StopsRun (plan : JoinTopology) (state : OutcomeGraphState) (nodeId outcomeId : String)
    (projections : List ProgressProjection) : Prop :=
  ∃ group ∈ continuationGroups plan nodeId outcomeId,
    capReached state.loopTraversals group = true ∨
      stalls state.loopProgress projections group = true

/-- An edge whose target is settled once its source is, outside every group of the two. -/
def ReentersOutside (plan : JoinTopology) (nodes : List OutcomeNodeState) (edge : CompiledEdge) :
    Prop :=
  (edge.to = edge.from ∨ statusOf nodes edge.to = some .settled) ∧
    sharedLoopGroup plan edge.from edge.to = none

/-- A terminal outcome, or edges that end the run or re-enter no node outside a shared loop. -/
def Routable (plan : CompiledPlan) (state : OutcomeGraphState) (nodeId outcomeId : String)
    (projections : List ProgressProjection) : Prop :=
  isTerminal plan nodeId outcomeId = true ∨
    successorsOf plan nodeId outcomeId ≠ [] ∧
      (StopsRun plan state nodeId outcomeId projections ∨
        ∀ edge ∈ successorsOf plan nodeId outcomeId,
          ¬ ReentersOutside plan state.nodes edge)

def InFlight (state : OutcomeGraphState) (decision : AcceptedDecision) : Prop :=
  ∃ entry ∈ state.nodes, entry.nodeId = decision.nodeId ∧ ∃ facts,
    entry.progress = .dispatched facts ∧ facts.attemptId = decision.identity.attemptId

def WellBound (plan : CompiledPlan) (decision : AcceptedDecision)
    (projections : List ProgressProjection) : Prop :=
  ∀ group ∈ continuationGroups plan decision.nodeId decision.outcomeId,
    group.progress ≠ none → ∃ projection,
      projections.find? (·.loopGroupId = group.id) = some projection ∧
        projectionMatchesDecision plan decision projection = true

section Measuring
variable {plan : CompiledPlan} {decision : AcceptedDecision} {now : Nat}
  {recorded : PlainObject OutcomeLoopProgress} {projections : List ProgressProjection}
  {groups : List CompiledLoopGroup} {group : CompiledLoopGroup}

def RecordsProgress (plan : JoinTopology) (loopProgress : PlainObject OutcomeLoopProgress) : Prop :=
  ∀ group ∈ plan.loopGroups, group.progress ≠ none → loopProgress.get group.id ≠ .undefined

theorem boundProjection_ok {projection : ProgressProjection}
    (hfind : projections.find? (·.loopGroupId = group.id) = some projection)
    (hbound : projectionMatchesDecision plan decision projection = true) :
    boundProjection plan decision projections group = .ok projection := by
  unfold boundProjection
  rw [hfind]
  simp only [hbound, if_true]

theorem stalledStop_ok (group : CompiledLoopGroup) (policy : CompiledProgressPolicy)
    (decision : AcceptedDecision) (now : Nat) (entry : OutcomeLoopProgress)
    (projection : ProgressProjection) (stop : Option OutcomeProgressStalledStop) :
    ∃ stop', stalledStop group policy decision now (compareProgress policy entry projection) stop =
      .ok stop' ∧
      (stop'.isSome ↔ stop.isSome ∨
        (compareProgress policy entry projection).report.stalled = true) := by
  unfold stalledStop
  by_cases hkeep : (compareProgress policy entry projection).report.stalled = false ∨
      stop.isSome = true
  · refine ⟨stop, if_pos hkeep, ?_⟩
    rcases hkeep with hno | hsome
    · simp [hno]
    · simp [hsome]
  · obtain ⟨hstalled, hnone⟩ := not_or.1 hkeep
    rw [Bool.not_eq_false] at hstalled
    obtain ⟨baseline, hbaseline, hentry, -⟩ := compareProgress_stalled hstalled
    rw [if_neg hkeep]
    simp only [hentry, hbaseline]
    exact ⟨_, rfl, by simp [hstalled]⟩

theorem measureGroup_ok (now : Nat) (measured : Measurement)
    (hrecorded : group.progress ≠ none → recorded.get group.id ≠ .undefined)
    (hbound : group.progress ≠ none → ∃ projection,
      projections.find? (·.loopGroupId = group.id) = some projection ∧
        projectionMatchesDecision plan decision projection = true) :
    ∃ measured', measureGroup plan recorded decision projections now measured group =
      .ok measured' ∧
      (measured'.stop.isSome ↔ measured.stop.isSome ∨
        stalls recorded projections group = true) := by
  unfold measureGroup stalls
  cases hpolicy : group.progress with
  | none => exact ⟨measured, rfl, by simp⟩
  | some policy =>
    obtain ⟨projection, hfind, hmatch⟩ := hbound (by simp [hpolicy])
    have hprojection := boundProjection_ok hfind hmatch
    have hread := hrecorded (by simp [hpolicy])
    cases hget : recorded.get group.id with
    | undefined => exact absurd hget hread
    | inherited =>
      simp only [hprojection, bind, Except.bind, pure, Except.pure]
      exact ⟨_, rfl, by simp⟩
    | value entry =>
      obtain ⟨stop', hstop, hiff⟩ :=
        stalledStop_ok group policy decision now entry projection measured.stop
      simp only [hprojection, hstop, bind, Except.bind, pure, Except.pure, hfind]
      exact ⟨_, rfl, hiff⟩

theorem measureGroups_ok (now : Nat) (measured : Measurement)
    (hrecorded : ∀ group ∈ groups, group.progress ≠ none → recorded.get group.id ≠ .undefined)
    (hbound : ∀ group ∈ groups, group.progress ≠ none → ∃ projection,
      projections.find? (·.loopGroupId = group.id) = some projection ∧
        projectionMatchesDecision plan decision projection = true) :
    ∃ measured', groups.foldlM (measureGroup plan recorded decision projections now) measured =
      .ok measured' ∧
      (measured'.stop.isSome ↔ measured.stop.isSome ∨
        ∃ group ∈ groups, stalls recorded projections group = true) := by
  induction groups generalizing measured with
  | nil => exact ⟨measured, rfl, by simp⟩
  | cons group groups ih =>
    obtain ⟨first, hfirst, hstop⟩ := measureGroup_ok now measured
      (hrecorded group (.head _)) (hbound group (.head _))
    obtain ⟨measured', hrest, hiff⟩ := ih first
      (fun g hg => hrecorded g (.tail _ hg))
      (fun g hg => hbound g (.tail _ hg))
    refine ⟨measured', ?_, ?_⟩
    · rw [foldlM_cons, hfirst]
      exact hrest
    · rw [hiff, hstop]
      simp [or_assoc]

theorem measureGroup_records {measured measured' : Measurement} {groupId : String}
    (h : measureGroup plan recorded decision projections now measured group = .ok measured')
    (hread : measured.entries.get groupId ≠ .undefined) :
    measured'.entries.get groupId ≠ .undefined := by
  unfold measureGroup at h
  split at h
  · cases h
    exact hread
  split at h
  · cases h
  · simp only [bind, Except.bind, pure, Except.pure] at h
    split at h
    · cases h
    · cases h
      exact hread
  · simp only [bind, Except.bind, pure, Except.pure] at h
    split at h
    · cases h
    split at h
    · cases h
    · cases h
      exact PlainObject.get_set_ne_undefined _ (.inr hread)

theorem measureProgress_records {measured : Measurement}
    (h : measureProgress plan groups recorded decision projections now = .ok measured)
    {groupId : String} (hread : recorded.get groupId ≠ .undefined) :
    measured.entries.get groupId ≠ .undefined := by
  refine foldlM_invariant (I := fun m : Measurement => m.entries.get groupId ≠ .undefined)
    (fun m group m' _ hm hg => measureGroup_records hg hm) h fun hu => hread ?_
  have hspread : recorded.spread.own? groupId = none ∧ groupId ∉ prototypeNames :=
    PlainObject.get_eq_undefined.1 hu
  exact PlainObject.get_eq_undefined.2 hspread

end Measuring

section Arming
variable {plan : CompiledPlan} {nodes : List OutcomeNodeState} {context : AdvanceContext}

theorem Aligned.statusOf_at (hnodup : plan.nodeIds.Nodup)
    (halign : Aligned plan nodes) {index : Nat} {node : CompiledNode}
    (hnode : plan.nodes[index]? = some node) :
    statusOf nodes node.id = nodes[index]?.map (·.status) := by
  rw [statusOf, halign.entryOf_at hnodup hnode]

theorem armTargets_ok_iff (hnodup : plan.nodeIds.Nodup)
    (halign : Aligned plan nodes) (husable : context.credentials.Usable)
    (decision : AcceptedDecision) (attemptSeq : Nat) {routed : List CompiledEdge}
    (hrouted : ∀ edge ∈ routed, edge.to ∈ plan.nodeIds) :
    (∃ armed, armTargets plan context decision nodes attemptSeq routed = .ok armed) ↔
      ∀ edge ∈ routed, ¬ (statusOf nodes edge.to = some .settled ∧
        sharedLoopGroup plan decision.nodeId edge.to = none) := by
  have hdeclared : (distinct (routed.map (·.to))).find? (· ∉ plan.nodeIds) = none := by
    rw [find?_eq_none]
    intro id hid
    obtain ⟨edge, he, rfl⟩ := mem_map.1 (mem_distinct.1 hid)
    simpa using hrouted edge he
  unfold armTargets
  simp only [hdeclared]
  constructor
  · rintro ⟨armed, h⟩ edge he ⟨hsettled, hshared⟩
    split at h
    · cases h
    next hnone =>
    obtain ⟨node, hn, hid⟩ := mem_map.1 (hrouted edge he)
    obtain ⟨index, hindex⟩ := getElem?_of_mem hn
    have hcandidate : (⟨node, index⟩ : Candidate) ∈
        (plan.nodes.zipIdx.filter fun p => p.1.id ∈ distinct (routed.map (·.to))).map
          fun p => ({ node := p.1, index := p.2 } : Candidate) := by
      refine mem_map.2 ⟨(node, index), mem_filter.2
        ⟨mem_zipIdx_iff_getElem?.2 hindex, ?_⟩, rfl⟩
      simpa [hid] using ⟨edge, he, rfl⟩
    refine find?_eq_none.1 hnone _ hcandidate ?_
    rw [← hid, halign.statusOf_at hnodup hindex] at hsettled
    rw [← hid] at hshared
    simp [hsettled, hshared]
  · intro hno
    have hnone : reentryOutsideLoop plan nodes decision.nodeId
        ((plan.nodes.zipIdx.filter fun p => p.1.id ∈ distinct (routed.map (·.to))).map
          fun p => ({ node := p.1, index := p.2 } : Candidate)) = none := by
      refine find?_eq_none.2 fun candidate hc hreenters => ?_
      obtain ⟨hindex, hto⟩ := candidate_spec hc
      obtain ⟨edge, he, hid⟩ := mem_map.1 hto
      simp only [decide_eq_true_eq] at hreenters
      refine hno edge he ⟨?_, hid ▸ hreenters.2⟩
      rw [hid, halign.statusOf_at hnodup hindex]
      exact hreenters.1
    rw [hnone]
    simp only
    have hstep : ∀ (progress : Dispatching) (arm : ArmDecision),
        ∃ progress', applyArmDecision plan context progress arm = .ok progress' ∧ True := by
      intro progress arm
      unfold applyArmDecision
      cases arm.assembled with
      | blocked refusals => exact ⟨_, rfl, trivial⟩
      | resolved entries =>
        simp only [mintAttemptCredential_ok husable]
        exact ⟨_, rfl, trivial⟩
    obtain ⟨armed, harmed, -⟩ := foldlM_ok (I := fun _ => True)
      (fun progress arm _ _ => hstep progress arm) trivial
    exact ⟨armed, harmed⟩

end Arming

section Records
variable {plan : CompiledPlan} {state state' : OutcomeGraphState}
  {admissible : AdvanceContext → Prop}

structure LoopRecords (plan : JoinTopology) (state : OutcomeGraphState) : Prop where
  traversals : state.loopTraversals.proto = none
  progress : RecordsProgress plan state.loopProgress

theorem startProgress_records (plan : JoinTopology) :
    RecordsProgress plan (startProgress plan) := by
  have hfold : ∀ (groups : List CompiledLoopGroup) (entries : PlainObject OutcomeLoopProgress)
      (groupId : String),
      (entries.get groupId ≠ .undefined ∨
        ∃ group ∈ groups, group.progress ≠ none ∧ group.id = groupId) →
      (groups.foldl recordFresh entries).get groupId ≠ .undefined := by
    intro groups
    induction groups with
    | nil =>
      rintro entries groupId (hread | ⟨group, hg, -⟩)
      · exact hread
      · cases hg
    | cons group groups ih =>
      intro entries groupId h
      refine ih _ groupId ?_
      cases hpolicy : group.progress with
      | none =>
        simp only [recordFresh, hpolicy]
        rcases h with hread | ⟨other, ho, hp, hid⟩
        · exact .inl hread
        · rcases mem_cons.1 ho with rfl | ho
          · exact absurd hpolicy hp
          · exact .inr ⟨other, ho, hp, hid⟩
      | some policy =>
        simp only [recordFresh, hpolicy]
        rcases h with hread | ⟨other, ho, hp, hid⟩
        · exact .inl (PlainObject.get_set_ne_undefined _ (.inr hread))
        · rcases mem_cons.1 ho with rfl | ho
          · exact .inl (PlainObject.get_set_ne_undefined _ (.inl hid.symm))
          · exact .inr ⟨other, ho, hp, hid⟩
  intro group hg hp
  exact hfold plan.loopGroups .empty group.id (.inr ⟨group, hg, hp, rfl⟩)

theorem LoopRecords.advance {submission : Submission} (hs : LoopRecords plan state)
    (hst : Advances admissible plan state submission state') : LoopRecords plan state' := by
  obtain ⟨-, -, advance, hadv, rfl⟩ := hst
  obtain ⟨_, _, _, routed, -, hr, hclose, -, -⟩ := advanceOutcomeGraph_ok hadv
  have hrouted : routed.loopTraversals.proto = none ∧
      RecordsProgress plan routed.loopProgress := by
    unfold routeSettled at hr
    split at hr
    · cases hr
      exact ⟨hs.traversals, hs.progress⟩
    · obtain ⟨-, counted, measured, armed, rfl, hm, -, hrouted⟩ := routeOutcome_ok.1 hr
      rw [hrouted]
      refine ⟨countOutcome_proto hs.traversals, fun group hg hp => ?_⟩
      unfold measureUnlessStopped at hm
      split at hm
      · cases hm
        exact hs.progress group hg hp
      · exact measureProgress_records hm (hs.progress group hg hp)
  rw [hclose]
  exact ⟨hrouted.1, hrouted.2⟩

theorem ReachableState.loopRecords (h : ReachableState admissible plan state) :
    LoopRecords plan state := by
  refine Reachable.invariant (fun s hs => ?_) (fun _ _ _ hs hst => hs.advance hst) h
  obtain ⟨context, fromAttemptSeq, dispatches, -, hstart⟩ := hs
  rw [(start_entries hstart).2.2.2]
  exact ⟨rfl, startProgress_records _⟩

end Records

section Main
variable {plan : CompiledPlan} {state : OutcomeGraphState} {decision : AcceptedDecision}
  {context : AdvanceContext}

theorem dispatchedEntry_inFlight (hnodup : plan.nodeIds.Nodup) (hs : StateInvariant plan state)
    (hlive : state.stop = none) (hflight : InFlight state decision) :
    ∃ position current facts,
      dispatchedEntry plan state decision = .ok (position, current, facts) := by
  obtain ⟨entry, he, hid, facts, hprogress, hattempt⟩ := hflight
  obtain ⟨node, hn, hnode⟩ := hs.aligned.exists_node he
  obtain ⟨position, hposition⟩ := getElem?_of_mem hn
  have hfind : plan.nodes.findIdx? (·.id = decision.nodeId) = some position := by
    obtain ⟨hlt, hget⟩ := List.getElem?_eq_some_iff.1 hposition
    rw [findIdx?_eq_some_iff_getElem]
    refine ⟨hlt, by simp [hget, hnode, hid], fun j hj => ?_⟩
    have hne : plan.nodes[j].id ≠ plan.nodes[position].id := by
      intro heq
      have hj' : j < plan.nodeIds.length := by simpa [JoinTopology.nodeIds] using hj.trans hlt
      have hp' : position < plan.nodeIds.length := by simpa [JoinTopology.nodeIds] using hlt
      have hij := (@List.Nodup.getElem_inj_iff _ _ hnodup _ hj' _ hp').1
        (by simpa [JoinTopology.nodeIds] using heq)
      omega
    simpa [hget, hnode, hid] using hne
  have hlen : state.nodes.length = plan.nodes.length := by
    have h := congrArg length hs.aligned
    simpa [JoinTopology.nodeIds] using h
  obtain ⟨hlt, -⟩ := List.getElem?_eq_some_iff.1 hposition
  have hentry : state.nodes[position]? = some (state.nodes.get ⟨position, hlen ▸ hlt⟩) :=
    getElem?_eq_getElem _
  have hat := hs.aligned.nodeId_at hposition hentry
  have hsame : state.nodes.get ⟨position, hlen ▸ hlt⟩ = entry := by
    have h₁ := hs.aligned.entryOf_mem hnodup (mem_of_getElem? hentry)
    have h₂ := hs.aligned.entryOf_mem hnodup he
    rw [hat, hnode] at h₁
    exact Option.some.inj (h₁.symm.trans h₂)
  rw [hsame] at hentry
  exact ⟨position, entry, facts, dispatchedEntry_ok.2
    ⟨hs.bodyVersion, hlive, hfind, hentry, hid, hprogress, hattempt⟩⟩

theorem statusOf_settled (hnodup : plan.nodeIds.Nodup)
    (halign : Aligned plan state.nodes) {position : Nat}
    {current : OutcomeNodeState} (hcurrent : state.nodes[position]? = some current)
    (settled : OutcomeNodeState) (hid : settled.nodeId = current.nodeId) (hsettled : settled.status = .settled)
    (nodeId : String) :
    statusOf (state.nodes.set position settled) nodeId = some .settled ↔
      nodeId = current.nodeId ∨ statusOf state.nodes nodeId = some .settled := by
  have halign' : Aligned plan (state.nodes.set position settled) := halign.set hcurrent hid
  have hsteps := forall₂_settle hnodup halign hcurrent settled
  have hn : (state.nodes.map (·.nodeId)).Nodup := halign ▸ hnodup
  have hn' : ((state.nodes.set position settled).map (·.nodeId)).Nodup := halign' ▸ hnodup
  have hread : ∀ {nodes : List OutcomeNodeState}, (nodes.map (·.nodeId)).Nodup →
      (statusOf nodes nodeId = some .settled ↔
        ∃ entry ∈ nodes, entry.nodeId = nodeId ∧ entry.status = .settled) := by
    intro nodes hnodes
    unfold statusOf
    rw [Option.map_eq_some_iff]
    constructor
    · rintro ⟨entry, hentry, hstatus⟩
      exact ⟨entry, (entryOf_some hentry).1, (entryOf_some hentry).2, hstatus⟩
    · rintro ⟨entry, hentry, rfl, hstatus⟩
      exact ⟨entry, entryOf_of_mem hnodes hentry, hstatus⟩
  rw [hread hn, hread hn']
  constructor
  · rintro ⟨after, hafter, rfl, hstatus⟩
    obtain ⟨before, hbefore, hstep⟩ := forall₂_exists_left hsteps hafter
    rcases hstep with ⟨-, rfl⟩ | ⟨-, rfl⟩
    · exact .inr ⟨after, hbefore, rfl, hstatus⟩
    · exact .inl hid
  · rintro (rfl | ⟨before, hbefore, rfl, hstatus⟩)
    · obtain ⟨hlt, -⟩ := List.getElem?_eq_some_iff.1 hcurrent
      exact ⟨settled, mem_set hlt settled, hid, hsettled⟩
    · obtain ⟨i, hi⟩ := getElem?_of_mem hbefore
      obtain ⟨after, hafter, hstep⟩ := forall₂_getElem? hsteps hi
      rcases hstep with ⟨-, rfl⟩ | ⟨rfl, rfl⟩
      · exact ⟨after, mem_of_getElem? hafter, rfl, hstatus⟩
      · exact ⟨after, mem_of_getElem? hafter, hid, hsettled⟩

theorem measureUnlessStopped_ok (hrecords : LoopRecords plan state)
    (hbound : WellBound plan decision context.progress) (stop : Option OutcomeStop) :
    ∃ measured, measureUnlessStopped plan state context decision
        (continuationGroups plan decision.nodeId decision.outcomeId) stop = .ok measured ∧
      (measured.stop.isSome ↔ stop.isNone ∧
        ∃ group ∈ continuationGroups plan decision.nodeId decision.outcomeId,
          stalls state.loopProgress context.progress group = true) := by
  cases stop with
  | some stop => exact ⟨_, rfl, by simp⟩
  | none =>
    obtain ⟨measured, hmeasured, hiff⟩ := measureGroups_ok context.now
      { entries := state.loopProgress.spread, reports := [], stop := none }
      (fun group hg => hrecords.progress group (mem_filter.1 hg).1) hbound
    refine ⟨measured, hmeasured, hiff.trans ?_⟩
    simp only [Option.isSome_none, Bool.false_eq_true, false_or, Option.isNone_none, true_and]
    rfl

theorem routeOutcome_ok_iff (hwf : plan.WellFormed) (hrecords : LoopRecords plan state)
    (hbound : WellBound plan decision context.progress) (husable : context.credentials.Usable)
    {nodes : List OutcomeNodeState} (halign : Aligned plan nodes) :
    (∃ routed, routeOutcome plan state context decision nodes = .ok routed) ↔
      successorsOf plan decision.nodeId decision.outcomeId ≠ [] ∧
      (StopsRun plan state decision.nodeId decision.outcomeId context.progress ∨
        ∀ edge ∈ successorsOf plan decision.nodeId decision.outcomeId,
          ¬ (statusOf nodes edge.to = some .settled ∧
            sharedLoopGroup plan decision.nodeId edge.to = none)) := by
  have hgroups : ((continuationGroups plan decision.nodeId
      decision.outcomeId).map (·.id)).Nodup :=
    hwf.groupIds_nodup.sublist (filter_sublist.map _)
  have hcounted := countOutcome_stops decision context.now hgroups hrecords.traversals
  generalize hcount : countOutcome decision context.now (continuationGroups plan
    decision.nodeId decision.outcomeId) state.loopTraversals = counted at hcounted
  obtain ⟨measured, hmeasured, hstalled⟩ := measureUnlessStopped_ok hrecords hbound counted.2
  -- The run stops by the first cap or, when no cap is reached, by the first stall.
  have hstop : (counted.2.or (measured.stop.map OutcomeStop.progressStalled)).isSome ↔
      StopsRun plan state decision.nodeId decision.outcomeId context.progress := by
    have hsplit : StopsRun plan state decision.nodeId decision.outcomeId
        context.progress ↔ counted.2.isSome ∨
          ∃ group ∈ continuationGroups plan decision.nodeId decision.outcomeId,
            stalls state.loopProgress context.progress group = true := by
      rw [hcounted, ← exists_or]
      refine exists_congr fun group => ?_
      exact and_or_left
    rw [hsplit]
    cases hcap : counted.2 with
    | some stop => simp
    | none =>
      rw [hcap] at hstalled
      simpa using hstalled
  have htargets : ∀ edge ∈ successorsOf plan decision.nodeId decision.outcomeId,
      edge.to ∈ plan.nodeIds := fun edge he =>
    (hwf.edge_declared edge (mem_filter.1 he).1).2
  constructor
  · rintro ⟨routed, h⟩
    obtain ⟨hne, counted', measured', armed, hcount', hmeasured', harm, hrouted⟩ :=
      routeOutcome_ok.1 h
    rw [hcount] at hcount'
    subst hcount'
    rw [hmeasured] at hmeasured'
    cases hmeasured'
    refine ⟨hne, or_iff_not_imp_left.2 fun hno => ?_⟩
    have hnone : routed.stop.isNone = true := by
      rw [hrouted]
      simpa [Option.isSome_iff_ne_none] using fun hsome => hno (hstop.1 hsome)
    rw [hnone, if_pos rfl] at harm
    exact (armTargets_ok_iff hwf.nodeIds_nodup halign husable decision state.attemptSeq
      htargets).1 ⟨armed, harm⟩
  · rintro ⟨hne, hroute⟩
    have harm : ∃ armed, armTargets plan context decision nodes state.attemptSeq
        (if (counted.2.or (measured.stop.map OutcomeStop.progressStalled)).isNone then
          successorsOf plan decision.nodeId decision.outcomeId else []) =
            .ok armed := by
      rcases hroute with hstops | hno
      · have hsome := hstop.2 hstops
        have hno : ¬ (counted.2.or (measured.stop.map OutcomeStop.progressStalled)).isNone =
            true := by
          rw [Option.isNone_iff_eq_none]
          exact Option.isSome_iff_ne_none.1 hsome
        rw [if_neg hno]
        exact (armTargets_ok_iff hwf.nodeIds_nodup halign husable decision state.attemptSeq
          (fun _ he => absurd he not_mem_nil)).2 fun _ he => absurd he not_mem_nil
      · split
        · exact (armTargets_ok_iff hwf.nodeIds_nodup halign husable decision state.attemptSeq
            htargets).2 hno
        · exact (armTargets_ok_iff hwf.nodeIds_nodup halign husable decision state.attemptSeq
            (fun _ he => absurd he not_mem_nil)).2 fun _ he => absurd he not_mem_nil
    obtain ⟨armed, harmed⟩ := harm
    exact ⟨_, routeOutcome_ok.2 ⟨hne, counted, measured, armed, hcount, hmeasured, harmed, rfl⟩⟩

/-- An outcome of a node in flight is applied exactly when it is routable. -/
theorem noWedge_iff {host : DigestHost} {raw : Json} {options : CompileOptions}
    (hcompiled : compileGraph host raw options = .executable plan)
    (hreach : ReachableState AnyContext plan state) (hlive : state.stop = none)
    (hflight : InFlight state decision) (hbound : WellBound plan decision context.progress)
    (husable : context.credentials.Usable) :
    (∃ advance, advanceOutcomeGraph plan state decision context = .ok advance) ↔
      Routable plan state decision.nodeId decision.outcomeId context.progress := by
  have hwf := compileGraph_wellFormed hcompiled
  have hs := hreach.invariant hwf.nodeIds_nodup
  have hrecords := hreach.loopRecords
  obtain ⟨position, current, facts, hentry⟩ :=
    dispatchedEntry_inFlight hwf.nodeIds_nodup hs hlive hflight
  obtain ⟨-, -, -, hcurrent, hid, -, -⟩ := dispatchedEntry_ok.1 hentry
  have halign : Aligned plan (state.nodes.set position
      (settleEntry current facts decision.outcomeId context.now)) := hs.aligned.set hcurrent rfl
  have hroute : (∃ advance, advanceOutcomeGraph plan state decision context = .ok advance) ↔
      ∃ routed, routeSettled plan state context decision
        (state.nodes.set position (settleEntry current facts decision.outcomeId context.now)) =
          .ok routed := by
    unfold advanceOutcomeGraph
    rw [hentry]
    simp only [bind, Except.bind, pure, Except.pure]
    cases routeSettled plan state context decision
      (state.nodes.set position (settleEntry current facts decision.outcomeId context.now)) <;>
      simp
  rw [hroute]
  unfold routeSettled Routable
  by_cases hterminal : isTerminal plan decision.nodeId decision.outcomeId = true
  · simp [hterminal]
  rw [if_neg hterminal, routeOutcome_ok_iff hwf hrecords hbound husable halign]
  have hedges : ∀ edge ∈ successorsOf plan decision.nodeId decision.outcomeId,
      (statusOf (state.nodes.set position
          (settleEntry current facts decision.outcomeId context.now)) edge.to = some .settled ∧
        sharedLoopGroup plan decision.nodeId edge.to = none) ↔
      ReentersOutside plan state.nodes edge := by
    intro edge he
    have hfrom : edge.from = decision.nodeId := (of_decide_eq_true (mem_filter.1 he).2).1
    have hstatus := statusOf_settled hwf.nodeIds_nodup hs.aligned hcurrent
      (settleEntry current facts decision.outcomeId context.now) rfl rfl edge.to
    rw [hstatus, ReentersOutside, hfrom, hid]
  simp only [hterminal, Bool.false_eq_true, false_or]
  refine and_congr_right fun _ => or_congr_right (forall₂_congr fun edge he => ?_)
  exact not_congr (hedges edge he)

end Main

/-- The member's next round is counted, so its own re-entry is routable. -/
theorem noWedge_counted :
    (∃ advance, advanceOutcomeGraph (plainPlan "g" "r" countedTopology) countedState
      (plainDecision "A" "A#2" "again") plainContext = .ok advance) ↔
      Routable (plainPlan "g" "r" countedTopology) countedState "A" "again" [] := by
  refine noWedge_iff countedTopology_compiles countedState_reachable rfl ?_ ?_
    plainContext_usable
  · exact ⟨_, .head _, rfl, _, rfl, rfl⟩
  intro group hgroup hprogress
  have hmem := (mem_filter.1 hgroup).1
  rw [mem_singleton.1 hmem] at hprogress
  exact absurd rfl hprogress

def lateArrivalTopology : JoinTopology :=
  { nodes :=
      [plainNode "B" ["ok"] none [], plainNode "C" ["done"] (some .any) [],
        plainNode "D" ["ok"] none []]
    edges := [⟨"B", "C", "ok"⟩, ⟨"D", "C", "ok"⟩]
    loopGroups := [] }

def lateArrivalState : OutcomeGraphState :=
  { bodyVersion := CURRENT_OUTCOME_STATE_BODY
    graphId := "g"
    planRevision := "r"
    phase := .executing
    nodes :=
      [⟨"B", .settled (plainFacts "B#1" 1) "ok" 0, [], none⟩,
        ⟨"C", .settled (plainFacts "C#3" 3) "done" 0, [⟨"B", "ok", "B#1"⟩], none⟩,
        ⟨"D", .dispatched (plainFacts "D#2" 2), [], none⟩]
    loopTraversals := .empty
    attemptSeq := 3
    stop := none
    loopProgress := .empty }

/-- The only outcome of the feeder in flight is refused in a reachable state. -/
theorem lateArrival_wedged :
    compileGraph (plainHost "r") (declareTopology "g" lateArrivalTopology) plainOptions =
      .executable (plainPlan "g" "r" lateArrivalTopology) ∧
    ReachableState AnyContext (plainPlan "g" "r" lateArrivalTopology) lateArrivalState ∧
    lateArrivalState.stop = none ∧ InFlight lateArrivalState (plainDecision "D" "D#2" "ok") ∧
    (plainPlan "g" "r" lateArrivalTopology).declaresOutcome "D" "ok" = true ∧
    WellBound (plainPlan "g" "r" lateArrivalTopology) (plainDecision "D" "D#2" "ok") [] ∧
    plainContext.credentials.Usable ∧
    ∃ detail, advanceOutcomeGraph (plainPlan "g" "r" lateArrivalTopology) lateArrivalState
      (plainDecision "D" "D#2" "ok") plainContext =
        .error (.refused .reentryOutsideLoop detail) := by
  refine ⟨rfl, ?_, rfl, ?_, rfl, ?_, plainContext_usable, _, rfl⟩
  · exact runDecisions_reachable trivial (show runDecisions _ plainContext
      [plainDecision "B" "B#1" "ok", plainDecision "C" "C#3" "done"] = _ from rfl)
  · exact ⟨_, mem_cons_of_mem _ (.tail _ (.head _)), rfl, _, rfl, rfl⟩
  · intro group hgroup
    exact absurd hgroup not_mem_nil

end Rolebox.Graph
