import Rolebox.Graph.BoundedRepetition

/-! The phase of a reachable state, and why a run with work left has an attempt in flight. -/

namespace Rolebox.Graph
open General List

section
variable {plan : CompiledPlan} {nodes : List OutcomeNodeState}

theorem Aligned.entryOf_mem (hnodup : plan.nodeIds.Nodup)
    (halign : Aligned plan nodes) {entry : OutcomeNodeState} (h : entry ∈ nodes) :
    entryOf nodes entry.nodeId = some entry :=
  entryOf_of_mem (by rw [show nodes.map (·.nodeId) = plan.nodeIds from halign]; exact hnodup) h

theorem Aligned.exists_node (halign : Aligned plan nodes)
    {entry : OutcomeNodeState} (h : entry ∈ nodes) :
    ∃ node ∈ plan.nodes, node.id = entry.nodeId := by
  have hm : entry.nodeId ∈ plan.nodeIds := halign ▸ mem_map_of_mem h
  obtain ⟨node, hn, he⟩ := mem_map.1 hm
  exact ⟨node, hn, he⟩

theorem Aligned.exists_entry (halign : Aligned plan nodes)
    {node : CompiledNode} (h : node ∈ plan.nodes) : ∃ entry ∈ nodes, entry.nodeId = node.id := by
  have hm : node.id ∈ nodes.map (·.nodeId) := by
    rw [show nodes.map (·.nodeId) = plan.nodeIds from halign]
    exact mem_map_of_mem h
  obtain ⟨entry, hn, he⟩ := mem_map.1 hm
  exact ⟨entry, hn, he⟩

theorem Aligned.forall_status (hnodup : plan.nodeIds.Nodup)
    (halign : Aligned plan nodes) (status : OutcomeNodeStatus) :
    (∀ node ∈ plan.nodes, statusOf nodes node.id = some status) ↔
      ∀ entry ∈ nodes, entry.status = status := by
  constructor
  · intro h entry he
    obtain ⟨node, hn, hid⟩ := halign.exists_node he
    have := h node hn
    rw [hid, statusOf, halign.entryOf_mem hnodup he] at this
    exact Option.some.inj this
  · intro h node hn
    obtain ⟨entry, he, hid⟩ := halign.exists_entry hn
    rw [← hid, statusOf, halign.entryOf_mem hnodup he]
    exact congrArg some (h entry he)

theorem Aligned.exists_status (hnodup : plan.nodeIds.Nodup)
    (halign : Aligned plan nodes) (status : OutcomeNodeStatus) :
    (∃ node ∈ plan.nodes, statusOf nodes node.id = some status) ↔
      ∃ entry ∈ nodes, entry.status = status := by
  constructor
  · rintro ⟨node, hn, hs⟩
    obtain ⟨entry, he, hid⟩ := halign.exists_entry hn
    refine ⟨entry, he, ?_⟩
    rw [← hid, statusOf, halign.entryOf_mem hnodup he] at hs
    exact Option.some.inj hs
  · rintro ⟨entry, he, hs⟩
    obtain ⟨node, hn, hid⟩ := halign.exists_node he
    refine ⟨node, hn, ?_⟩
    rw [hid, statusOf, halign.entryOf_mem hnodup he]
    exact congrArg some hs

/-- With nothing in flight every pending node that has a feeder is stranded and, but for
`__proto__`, recorded. -/
theorem mem_stranded (hnodup : plan.nodeIds.Nodup) (halign : Aligned plan nodes)
    (hflight : ∀ entry ∈ nodes, entry.status ≠ .dispatched) {nodeId : String} :
    nodeId ∈ (unsatisfiablePendingNodes plan nodes).keys ↔
      nodeId ≠ "__proto__" ∧ nodeId ∉ plan.entryNodesOf.map (·.id) ∧
        ∃ entry ∈ nodes, entry.nodeId = nodeId ∧ entry.status = .pending := by
  have hno : ∀ node ∈ plan.nodes, statusOf nodes node.id ≠ some .dispatched := by
    intro node hn hs
    obtain ⟨entry, he, hst⟩ := (halign.exists_status hnodup .dispatched).1 ⟨node, hn, hs⟩
    exact hflight entry he hst
  have hentry : ∀ node ∈ plan.nodes,
      (plan.feederSourcesOf node.id ≠ [] ↔ node.id ∉ plan.entryNodesOf.map (·.id)) := by
    intro node hn
    rw [ne_eq, JoinTopology.feederSourcesOf_eq_nil hn, not_iff_not]
    refine ⟨fun h => mem_map_of_mem h, fun h => ?_⟩
    obtain ⟨node', hn', hid⟩ := mem_map.1 h
    have heq : node' = node := inj_on_of_nodup_map hnodup (mem_filter.1 hn').1 hn hid
    exact heq ▸ hn'
  rw [unsatisfiablePendingNodes, PlainObject.mem_keys_build hnodup]
  refine and_congr_right fun hp => ?_
  constructor
  · rintro ⟨node, hn, ⟨hs, hlost⟩, rfl⟩
    rw [lostFeeders_eq hno] at hlost
    obtain ⟨entry, he, hid⟩ := halign.exists_entry hn
    refine ⟨(hentry node hn).1 hlost, entry, he, hid, ?_⟩
    rw [← hid, statusOf, halign.entryOf_mem hnodup he] at hs
    exact Option.some.inj hs
  · rintro ⟨hne, entry, he, rfl, hs⟩
    obtain ⟨node, hn, hid⟩ := halign.exists_node he
    refine ⟨node, hn, ⟨?_, ?_⟩, hid⟩
    · rw [hid, statusOf, halign.entryOf_mem hnodup he]
      exact congrArg some hs
    · rw [lostFeeders_eq hno]
      exact (hentry node hn).2 (hid ▸ hne)

end

/-- The law of the phases: what each one says about the stop and the entries. -/
structure PhaseLaw (plan : JoinTopology) (state : OutcomeGraphState) : Prop where
  stopped : state.phase = .stopped ↔ state.stop ≠ none
  complete : state.phase = .complete ↔
    state.stop = none ∧ ∀ node ∈ plan.nodes, statusOf state.nodes node.id = some .settled
  executing : state.phase = .executing →
    ∃ node ∈ plan.nodes, statusOf state.nodes node.id = some .dispatched

section
variable {plan : JoinTopology} {nodes : List OutcomeNodeState} {now : Nat}
  {stop : Option OutcomeStop}

theorem phaseOf_stopped : phaseOf nodes stop = .stopped ↔ stop ≠ none := by
  unfold phaseOf
  cases stop with
  | some stop => simp
  | none =>
    simp only [Option.isSome_none, Bool.false_eq_true, if_false, ne_eq, not_true_eq_false,
      iff_false]
    split
    · simp
    · split
      · simp
      · split <;> simp

theorem settledEverywhere_iff :
    settledEverywhere nodes = true ↔ ∀ entry ∈ nodes, entry.status = .settled := by
  simp [settledEverywhere]

theorem phaseOf_complete :
    phaseOf nodes stop = .complete ↔ stop = none ∧ ∀ entry ∈ nodes, entry.status = .settled := by
  rw [← settledEverywhere_iff]
  unfold phaseOf
  cases stop with
  | some stop => simp
  | none =>
    simp only [Option.isSome_none, Bool.false_eq_true, if_false, true_and]
    by_cases hc : settledEverywhere nodes = true
    · have hd : nodes.any (·.status = .dispatched) = false := by
        rw [any_eq_false]
        intro entry he
        simp [settledEverywhere_iff.1 hc entry he]
      simp [hd, hc]
    · simp only [hc, if_false, Bool.false_eq_true, iff_false]
      split
      · simp
      · split <;> simp

/-- An executing phase with nothing in flight is left only by a run that names no stranded node. -/
theorem closingStop_silent (hphase : phaseOf nodes (closingStop plan nodes now stop) = .executing)
    (hflight : ∀ entry ∈ nodes, entry.status ≠ .dispatched) :
    (unsatisfiablePendingNodes plan nodes).keys = [] ∧
      ∃ entry ∈ nodes, entry.status = .pending := by
  have hd : nodes.any (·.status = .dispatched) = false := by
    rw [any_eq_false]
    intro entry he
    simpa using hflight entry he
  have hnone : closingStop plan nodes now stop = none := by
    by_contra hne
    rw [phaseOf_stopped.2 hne] at hphase
    cases hphase
  have hc : settledEverywhere nodes = false := by
    rw [Bool.eq_false_iff]
    intro hc
    rw [phaseOf_complete.2 ⟨hnone, settledEverywhere_iff.1 hc⟩] at hphase
    cases hphase
  have ha : nodes.any (·.status ≠ .pending) = true := by
    unfold phaseOf at hphase
    rw [hnone, hd, hc] at hphase
    by_contra hno
    rw [if_neg (by simp), if_neg (by simp), if_neg (by simp), if_neg hno] at hphase
    cases hphase
  constructor
  · unfold closingStop at hnone
    simp only [hd, ha, hc, and_self, and_true] at hnone
    cases stop with
    | some stop => simp at hnone
    | none =>
      rw [if_pos (by simp)] at hnone
      unfold strandedStop at hnone
      simp only at hnone
      split at hnone
      · assumption
      · cases hnone
  · obtain ⟨entry, he, hs⟩ := all_eq_false.1 hc
    refine ⟨entry, he, ?_⟩
    cases hst : entry.status with
    | pending => rfl
    | dispatched => exact absurd hst (hflight entry he)
    | settled => exact absurd (by simpa using hst) hs

theorem closingStop_stranded {stop : OutcomeStop}
    (h : closingStop plan nodes now none = some stop) :
    (∀ entry ∈ nodes, entry.status ≠ .dispatched) ∧
      stop = .unreachablePendingNode
        { blockedNodes := unsatisfiablePendingNodes plan nodes, stoppedAt := now } := by
  unfold closingStop at h
  simp only at h
  split at h
  · next hidle =>
    obtain ⟨-, hflight, -⟩ := hidle
    unfold strandedStop at h
    simp only at h
    split at h
    · cases h
    cases h
    refine ⟨fun entry he hd => ?_, rfl⟩
    have hno := any_eq_false.1 hflight entry he
    exact hno (decide_eq_true hd)
  · cases h

end

section
variable {plan : CompiledPlan} {state state' : OutcomeGraphState}
  {admissible : AdvanceContext → Prop}

theorem status_of_progress {entry : OutcomeNodeState} :
    (entry.status = .pending ↔ entry.progress = .pending) := by
  unfold OutcomeNodeState.status
  cases entry.progress <;> simp

theorem PhaseLaw.start (hnodup : plan.nodeIds.Nodup) (h : Starts admissible plan state) :
    PhaseLaw plan state := by
  have hinv := h.invariant
  obtain ⟨context, fromAttemptSeq, dispatches, -, hstart⟩ := h
  obtain ⟨hentries, -, hall, hstate⟩ := start_entries hstart
  have hphase : state.phase = .executing ∧ state.stop = none := by
    rw [hstate]
    exact ⟨rfl, rfl⟩
  obtain ⟨node, hnode⟩ := exists_mem_of_ne_nil _ hentries
  have hin : node ∈ plan.nodes := (mem_filter.1 hnode).1
  have hflight : ∃ node ∈ plan.nodes, statusOf state.nodes node.id = some .dispatched := by
    obtain ⟨i, hi, hget⟩ := getElem_of_mem hin
    obtain ⟨entry, he, hs⟩ := forall₂_getElem? hall (List.getElem?_eq_some_iff.2 ⟨hi, hget⟩)
    refine (hinv.aligned.exists_status hnodup .dispatched).2 ⟨entry, mem_of_getElem? he, ?_⟩
    rcases hs.progress with ⟨-, facts, hf, -⟩ | ⟨hn, -⟩
    · rw [OutcomeNodeState.status, hf]
      rfl
    · exact absurd (mem_map_of_mem hnode) hn
  refine ⟨by simp [hphase], ?_, fun _ => hflight⟩
  obtain ⟨node', hn', hs'⟩ := hflight
  refine ⟨fun h => ?_, fun h => ?_⟩
  · rw [hphase.1] at h
    cases h
  · have := h.2 node' hn'
    rw [hs'] at this
    cases this

/-- A node named `__proto__` starts the run. -/
def PrototypeStarts (plan : JoinTopology) : Prop :=
  "__proto__" ∈ plan.nodeIds → "__proto__" ∈ plan.entryNodesOf.map (·.id)

theorem PhaseLaw.advance (hnodup : plan.nodeIds.Nodup) (hproto : PrototypeStarts plan)
    (hs : StateInvariant plan state) {submission : Submission}
    (h : Advances admissible plan state submission state') : PhaseLaw plan state' := by
  have hinv := hs.advance hnodup h
  obtain ⟨-, -, advance, hadv, rfl⟩ := h
  obtain ⟨-, -, -, routed, -, -, hclose, -, -⟩ := advanceOutcomeGraph_ok hadv
  have halign := hinv.aligned
  have hstarted := hinv.entryStarted
  rw [hclose] at halign hstarted ⊢
  refine ⟨phaseOf_stopped, ?_, fun hphase => ?_⟩
  · rw [halign.forall_status hnodup]
    exact phaseOf_complete
  · rw [halign.exists_status hnodup]
    by_contra hno
    have hflight : ∀ entry ∈ (closeState plan state submission.context.now routed).nodes,
        entry.status ≠ .dispatched := fun entry he hd => hno ⟨entry, he, hd⟩
    obtain ⟨hkeys, entry, he, hpending⟩ := closingStop_silent hphase hflight
    have hmem : entry.nodeId ∈ (unsatisfiablePendingNodes plan
        (closeState plan state submission.context.now routed).nodes).keys := by
      have hfed := hstarted entry he (status_of_progress.1 hpending)
      refine (mem_stranded hnodup halign hflight).2 ⟨fun hp => ?_, hfed, entry, he, rfl, hpending⟩
      rw [hp] at hfed
      exact hfed (hproto (hp ▸ halign ▸ mem_map_of_mem he))
    rw [show (unsatisfiablePendingNodes plan
      (closeState plan state submission.context.now routed).nodes).keys = [] from hkeys] at hmem
    cases hmem

/-- Every reachable state obeys the phase law, unless a node named `__proto__` waits. -/
theorem executable_phaseLaw {host : DigestHost} {raw : Json} {options : CompileOptions}
    (hcompiled : compileGraph host raw options = .executable plan) (hproto : PrototypeStarts plan)
    (h : ReachableState AnyContext plan state) : PhaseLaw plan state := by
  have hnodup := (compileGraph_wellFormed hcompiled).nodeIds_nodup
  refine Reachable.invariant_of_reachable (fun _ hs => PhaseLaw.start hnodup hs) ?_ h
  intro _ _ _ hreach _ hst
  exact PhaseLaw.advance hnodup hproto (ReachableState.invariant hnodup hreach) hst

end

/-- The counted plan has no node named `__proto__`. -/
theorem countedState_phaseLaw : PhaseLaw countedTopology countedState :=
  executable_phaseLaw countedTopology_compiles (fun h => absurd h (by decide))
    countedState_reachable

/-- An entry node whose second outcome leaves its only successor, named `__proto__`, waiting. -/
def prototypeTopology : JoinTopology :=
  { nodes :=
      [plainNode "E" ["fail", "ok"] none [], plainNode "__proto__" ["done"] (some .any) []]
    edges := [⟨"E", "__proto__", "ok"⟩]
    loopGroups := [] }

/-- The run is left executing with nothing in flight and no stop recorded. -/
theorem prototypePlan_stalls :
    compileGraph (plainHost "r") (declareTopology "g" prototypeTopology) plainOptions =
      .executable (plainPlan "g" "r" prototypeTopology) ∧
    ∃ state, ReachableState AnyContext (plainPlan "g" "r" prototypeTopology) state ∧
      state.phase = .executing ∧ state.stop = none ∧
      statusOf state.nodes "__proto__" = some .pending ∧
      ∀ node ∈ prototypeTopology.nodes, statusOf state.nodes node.id ≠ some .dispatched := by
  refine ⟨rfl, ?_⟩
  have hsteps : ∃ state,
      runDecisions (plainPlan "g" "r" prototypeTopology) plainContext
        [plainDecision "E" "E#1" "fail"] = some state ∧
      state.phase = .executing ∧ state.stop = none ∧
      statusOf state.nodes "__proto__" = some .pending ∧
      ∀ node ∈ prototypeTopology.nodes, statusOf state.nodes node.id ≠ some .dispatched :=
    ⟨_, rfl, rfl, rfl, rfl, by decide⟩
  obtain ⟨state, hrun, hstalled⟩ := hsteps
  exact ⟨state, runDecisions_reachable trivial hrun, hstalled⟩

end Rolebox.Graph
