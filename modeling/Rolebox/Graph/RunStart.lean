import Rolebox.Graph.JoinFeasibility

/-! Minting a run: inputs, claims against the budget, and credentials of its entry nodes. -/

namespace Rolebox.Graph
open General List

section Minting
variable {σ ε : Type}

inductive MintRunError (ε : Type) where
  | start (error : OutcomeStartError)
  | notAuthorized (refusal : ε)

/-- Begin one node: an entry node is dispatched once its inputs are bound and budget allows. -/
def mintNode (plan : CompiledPlan) (context : AdvanceContext)
    (reserveDispatchIn : σ → String → String → Except ε σ) (progress : Dispatching × σ)
    (node : CompiledNode) : Except (MintRunError ε) (Dispatching × σ) :=
  let started := (startNode plan context progress.1 node).mapError .start
  if node.id ∉ plan.entryNodesOf.map (·.id) then started.map (·, progress.2)
  else
    match assembleDownstreamInput node.inputs (fun _ => none) (readAcceptedOf context) [] with
    | .blocked refusals => .error (.start (.inputBlocked refusals))
    | .resolved _ =>
      match reserveDispatchIn progress.2 node.id
          (node.id ++ "#" ++ toString (progress.1.attemptSeq + 1)) with
      | .error refusal => .error (.notAuthorized refusal)
      | .ok claimed => started.map (·, claimed)

def mintRunInTransaction (plan : CompiledPlan) (context : AdvanceContext)
    (reserveDispatchIn : σ → String → String → Except ε σ) (budget : σ) (fromAttemptSeq : Nat) :
    Except (MintRunError ε) ((OutcomeGraphState × List OutcomeDispatchIntent) × σ) :=
  if plan.entryNodesOf = [] then .error (.start (.noEntryNode (noEntryNodeMessage plan)))
  else
    (plan.nodes.foldlM (mintNode plan context reserveDispatchIn)
      ({ nodes := [], attemptSeq := fromAttemptSeq, dispatches := [] }, budget)).map fun minted =>
        ((startState plan minted.1.nodes minted.1.attemptSeq, minted.1.dispatches), minted.2)

end Minting

def CompiledNode.requiredInputs (node : CompiledNode) : List CompiledInputRef :=
  node.inputs.filter fun input => !input.triggered

def unsettledRefusal (input : CompiledInputRef) : DownstreamInputRefusal :=
  { «from» := input.from
    outcome := input.outcome
    code := .producerUnsettled
    message := "this node consumes the accepted result of " ++ quote input.from ++ "/" ++
      quote input.outcome ++
      ", but that node has no settled attempt — an unaccepted dependency is not an " ++
      "absent value, it is a dispatch that would run against something nobody produced" }

/-- Where nothing has settled a required input is refused, and any other adds nothing. -/
theorem readInput_start (acceptedOf : String → AcceptedResultReading) (input : CompiledInputRef) :
    readInput (fun _ => none) acceptedOf [] input =
      if input.triggered then .untriggered else .refused (unsettledRefusal input) := by
  unfold readInput
  cases input.triggered <;> rfl

theorem assembleDownstreamInput_start (acceptedOf : String → AcceptedResultReading)
    (node : CompiledNode) :
    assembleDownstreamInput node.inputs (fun _ => none) acceptedOf [] =
      if node.requiredInputs = [] then .resolved []
      else .blocked (node.requiredInputs.map unsettledRefusal) := by
  have hreadings : node.inputs.map (readInput (fun _ => none) acceptedOf []) =
      node.inputs.map fun input =>
        if input.triggered then .untriggered else .refused (unsettledRefusal input) :=
    map_congr_left fun input _ => readInput_start acceptedOf input
  have hcollected : ∀ {α : Type} (read : InputReading → Option α), read .untriggered = none →
      (node.inputs.map fun input =>
          if input.triggered then InputReading.untriggered
          else .refused (unsettledRefusal input)).filterMap read =
        node.requiredInputs.filterMap fun input => read (.refused (unsettledRefusal input)) := by
    intro α read hnone
    rw [CompiledNode.requiredInputs, filterMap_map, filterMap_filter]
    refine filterMap_congr fun input _ => ?_
    cases htriggered : input.triggered <;> simp [htriggered, hnone]
  unfold assembleDownstreamInput
  rw [hreadings]
  dsimp only
  rw [hcollected _ rfl, hcollected _ rfl]
  simp

section Starts
variable {σ ε : Type} {plan : CompiledPlan} {context : AdvanceContext}
  {reserveDispatchIn : σ → String → String → Except ε σ} {progress progress' : Dispatching × σ}
  {node : CompiledNode}

theorem mintNode_ok (h : mintNode plan context reserveDispatchIn progress node = .ok progress') :
    startNode plan context progress.1 node = .ok progress'.1 ∧
      (node.id ∈ plan.entryNodesOf.map (·.id) → node.requiredInputs = []) := by
  unfold mintNode at h
  simp only at h
  split at h
  · next hout =>
    obtain ⟨started, hstarted, rfl⟩ := map_eq_ok.1 h
    exact ⟨mapError_eq_ok.1 hstarted, fun hin => absurd hin hout⟩
  · rw [assembleDownstreamInput_start] at h
    split at h
    · cases h
    next hbound =>
    split at h
    · cases h
    obtain ⟨started, hstarted, rfl⟩ := map_eq_ok.1 h
    refine ⟨mapError_eq_ok.1 hstarted, fun _ => ?_⟩
    by_contra hrequired
    rw [if_neg hrequired] at hbound
    cases hbound

theorem mintNode_blocked (hentry : node.id ∈ plan.entryNodesOf.map (·.id))
    (hrequired : node.requiredInputs ≠ []) :
    mintNode plan context reserveDispatchIn progress node =
      .error (.start (.inputBlocked (node.requiredInputs.map unsettledRefusal))) := by
  unfold mintNode
  simp only
  rw [if_neg (not_not.2 hentry), assembleDownstreamInput_start, if_neg hrequired]

theorem mintNode_begins (husable : context.credentials.Usable)
    (hauthorized : ∀ budget nodeId attemptId,
      ∃ claimed, reserveDispatchIn budget nodeId attemptId = .ok claimed)
    (hfree : node.id ∈ plan.entryNodesOf.map (·.id) → node.requiredInputs = []) :
    ∃ progress', mintNode plan context reserveDispatchIn progress node = .ok progress' := by
  unfold mintNode
  simp only
  split
  · next hout =>
    unfold startNode
    rw [if_pos hout]
    exact ⟨_, rfl⟩
  · next hin =>
    have hentry := not_not.1 hin
    obtain ⟨claimed, hclaimed⟩ := hauthorized progress.2 node.id
      (node.id ++ "#" ++ toString (progress.1.attemptSeq + 1))
    unfold startNode
    rw [if_neg hin, assembleDownstreamInput_start, if_pos (hfree hentry), hclaimed]
    simp only [mintAttemptCredential_ok husable]
    exact ⟨_, rfl⟩

theorem mintNodes_start {nodes : List CompiledNode}
    (h : nodes.foldlM (mintNode plan context reserveDispatchIn) progress = .ok progress') :
    nodes.foldlM (startNode plan context) progress.1 = .ok progress'.1 := by
  induction nodes generalizing progress with
  | nil =>
    cases h
    rfl
  | cons node nodes ih =>
    rw [foldlM_cons] at h ⊢
    obtain ⟨middle, hfirst, hrest⟩ := bind_eq_ok.1 h
    rw [(mintNode_ok hfirst).1, ok_bind]
    exact ih hrest

theorem mintRun_admitted {budget budget' : σ} {fromAttemptSeq : Nat}
    {run : OutcomeGraphState × List OutcomeDispatchIntent}
    (h : mintRunInTransaction plan context reserveDispatchIn budget fromAttemptSeq =
      .ok (run, budget')) :
    startOutcomeGraph plan context fromAttemptSeq = .ok run ∧
      ∀ node ∈ plan.entryNodesOf, node.requiredInputs = [] := by
  unfold mintRunInTransaction at h
  split at h
  · cases h
  next hentries =>
  obtain ⟨minted, hfold, hrun⟩ := map_eq_ok.1 h
  cases hrun
  constructor
  · have hstarted := mintNodes_start hfold
    unfold startOutcomeGraph
    rw [if_neg hentries]
    simp only [hstarted, ok_bind]
    rfl
  · intro node hentry
    obtain ⟨c, c', hstep⟩ := foldlM_ok_mem hfold (mem_filter.1 hentry).1
    exact (mintNode_ok hstep).2 (mem_map_of_mem hentry)

def startsUnfed (plan : JoinTopology) (node : CompiledNode) : Bool :=
  node.id ∈ plan.entryNodesOf.map (·.id) ∧ node.requiredInputs ≠ []

/-- Minting is decided by the first entry node that requires an input; without one the run starts
as soon as budget and host allow. -/
theorem run_minting {host : DigestHost} {raw : Json} {options : CompileOptions}
    (hcompiled : compileGraph host raw options = .executable plan) (budget : σ)
    (fromAttemptSeq : Nat) :
    (∀ run, mintRunInTransaction plan context reserveDispatchIn budget fromAttemptSeq = .ok run →
      plan.nodes.find? (startsUnfed plan) = none) ∧
    (context.credentials.Usable →
      (∀ budget nodeId attemptId,
        ∃ claimed, reserveDispatchIn budget nodeId attemptId = .ok claimed) →
      match plan.nodes.find? (startsUnfed plan) with
      | none => ∃ run budget', mintRunInTransaction plan context reserveDispatchIn budget
          fromAttemptSeq = .ok (run, budget') ∧
          startOutcomeGraph plan context fromAttemptSeq = .ok run
      | some node => mintRunInTransaction plan context reserveDispatchIn budget fromAttemptSeq =
          .error (.start (.inputBlocked (node.requiredInputs.map unsettledRefusal)))) := by
  constructor
  · rintro ⟨run, budget'⟩ hminted
    obtain ⟨-, hfree⟩ := mintRun_admitted hminted
    rw [find?_eq_none]
    intro node hnode hunfed
    obtain ⟨hin, hrequired⟩ := of_decide_eq_true hunfed
    obtain ⟨entry, hentry, hid⟩ := mem_map.1 hin
    have hnodup := (compileGraph_wellFormed hcompiled).nodeIds_nodup
    have hsame : entry = node := inj_on_of_nodup_map hnodup (mem_filter.1 hentry).1 hnode hid
    exact hrequired (hfree node (hsame ▸ hentry))
  · intro husable hauthorized
    have hdecided : ∀ progress : Dispatching × σ,
        (plan.nodes.find? (startsUnfed plan) = none → ∃ minted,
          plan.nodes.foldlM (mintNode plan context reserveDispatchIn) progress = .ok minted) ∧
        ∀ node, plan.nodes.find? (startsUnfed plan) = some node →
          plan.nodes.foldlM (mintNode plan context reserveDispatchIn) progress =
            .error (.start (.inputBlocked (node.requiredInputs.map unsettledRefusal))) := by
      refine foldlM_find? (fun progress node _ hfed => ?_) (fun progress node _ hunfed => ?_)
      · refine mintNode_begins husable hauthorized fun hin => ?_
        by_contra hrequired
        rw [startsUnfed, decide_eq_true ⟨hin, hrequired⟩] at hfed
        cases hfed
      · obtain ⟨hin, hrequired⟩ := of_decide_eq_true hunfed
        exact mintNode_blocked hin hrequired
    obtain ⟨hbegins, hblocked⟩ :=
      hdecided ({ nodes := [], attemptSeq := fromAttemptSeq, dispatches := [] }, budget)
    split
    · next hnone =>
      obtain ⟨minted, hminted⟩ := hbegins hnone
      have hrun : ∃ run budget', mintRunInTransaction plan context reserveDispatchIn budget
          fromAttemptSeq = .ok (run, budget') := by
        unfold mintRunInTransaction
        rw [if_neg (executable_joins hcompiled).entry, hminted]
        exact ⟨_, _, rfl⟩
      obtain ⟨run, budget', hrun⟩ := hrun
      exact ⟨run, budget', hrun, (mintRun_admitted hrun).1⟩
    · next node hfirst =>
      unfold mintRunInTransaction
      rw [if_neg (executable_joins hcompiled).entry, hblocked node hfirst]
      rfl

end Starts

def backFedTopology : JoinTopology :=
  { nodes :=
      [plainNode "A" ["again", "done"] none [⟨"B", "ok", false⟩], plainNode "B" ["ok"] none []]
    edges := [⟨"A", "B", "again"⟩, ⟨"B", "A", "ok"⟩]
    loopGroups := [⟨"l", ["A", "B"], 2, "ok", "done", none⟩] }

def unlimited (budget : Unit) (_ _ : String) : Except Empty Unit := .ok budget

/-- The plan is executable, and no run of it starts. -/
theorem backFed_blocked :
    compileGraph (plainHost "r") (declareTopology "g" backFedTopology) plainOptions =
      .executable (plainPlan "g" "r" backFedTopology) ∧
    mintRunInTransaction (plainPlan "g" "r" backFedTopology) plainContext unlimited () 0 =
      .error (.start (.inputBlocked [unsettledRefusal ⟨"B", "ok", false⟩])) :=
  ⟨rfl, rfl⟩

theorem split_starts :
    ∃ run budget', mintRunInTransaction (plainPlan "g" "r" splitTopology) plainContext unlimited ()
      0 = .ok (run, budget') ∧
      startOutcomeGraph (plainPlan "g" "r" splitTopology) plainContext 0 = .ok run :=
  (run_minting splitTopology_compiles () 0).2 plainContext_usable fun budget _ _ => ⟨budget, rfl⟩

end Rolebox.Graph
