import Rolebox.Graph.Compiler.WellFormed
import Rolebox.Graph.Repetition

/-! Closed walks of the plan's edges cost rounds, and the plans that can repeat without end. -/

namespace Rolebox.Graph
open General List

structure ClosedWalk (plan : JoinTopology) (walk : List CompiledEdge) : Prop where
  nonempty : walk ≠ []
  edges : ∀ edge ∈ walk, edge ∈ plan.edges
  chain : walk.IsChain fun edge next => edge.to = next.from
  closed : ∀ first ∈ walk.head?, ∀ last ∈ walk.getLast?, last.to = first.from

def Traverses (submissions : List Submission) (walk : List CompiledEdge) : Prop :=
  (walk.map fun edge => (edge.from, edge.outcome)).Sublist
    (submissions.map fun submission => (submission.decision.nodeId, submission.decision.outcomeId))

section Walks
variable {plan : JoinTopology} {walk : List CompiledEdge}

theorem uncounted_step {edge : CompiledEdge} (he : edge ∈ plan.edges)
    (hno : continuationGroups plan edge.from edge.outcome = []) :
    Digraph.Edge (uncountedNext plan) edge.from edge.to := by
  refine mem_map.2 ⟨edge, mem_filter.2 ⟨he, ?_⟩, rfl⟩
  simpa using hno

theorem uncounted_walk {first : CompiledEdge} {rest : List CompiledEdge}
    (hedges : ∀ edge ∈ first :: rest, edge ∈ plan.edges)
    (hchain : (first :: rest).IsChain fun edge next => edge.to = next.from)
    (hno : ∀ edge ∈ first :: rest, continuationGroups plan edge.from edge.outcome = [])
    {last : CompiledEdge} (hlast : (first :: rest).getLast? = some last) :
    Relation.TransGen (Digraph.Edge (uncountedNext plan)) first.from last.to := by
  induction rest generalizing first with
  | nil =>
    cases hlast
    exact .single (uncounted_step (hedges _ (by simp)) (hno _ (by simp)))
  | cons next rest ih =>
    have hfirst : Digraph.Edge (uncountedNext plan) first.from first.to :=
      uncounted_step (hedges _ (by simp)) (hno _ (by simp))
    obtain ⟨hto, hrest⟩ := isChain_cons_cons.1 hchain
    have htail := ih (fun e he => hedges e (.tail _ he)) hrest
      (fun e he => hno e (.tail _ he)) (by simpa using hlast)
    exact Relation.TransGen.head (hto ▸ hfirst) htail

theorem ClosedWalk.exists_counted (hwalk : ClosedWalk plan walk) (hc : EveryCycleCounted plan) :
    ∃ edge ∈ walk, continuationGroups plan edge.from edge.outcome ≠ [] := by
  by_contra hno
  push Not at hno
  obtain ⟨hne, hedges, hchain, hclosed⟩ := hwalk
  cases walk with
  | nil => exact hne rfl
  | cons first rest =>
    have hlast := getLast?_eq_some_getLast (l := first :: rest) (by simp)
    have hcycle := uncounted_walk hedges hchain hno hlast
    rw [hclosed first rfl _ hlast] at hcycle
    exact hc first.from hcycle

end Walks

section Counting
variable {plan : CompiledPlan} {state state' : OutcomeGraphState}
  {admissible : AdvanceContext → Prop}

theorem isTerminal_of_edge (hwf : plan.WellFormed) {edge : CompiledEdge}
    (he : edge ∈ plan.edges) : isTerminal plan edge.from edge.outcome = false := by
  have hfrom : edge.from ≠ "" := by
    obtain ⟨node, hn, hid⟩ := mem_map.1 (hwf.edge_declared edge he).1
    exact hid ▸ hwf.nodeId_nonempty node hn
  have houtcome : edge.outcome ≠ "" := by
    obtain ⟨node, hn, hd⟩ := any_eq_true.1 (hwf.edge_outcome edge he)
    simp only [Bool.and_eq_true, CompiledNode.declares, any_eq_true, decide_eq_true_eq] at hd
    obtain ⟨-, outcome, ho, hid⟩ := hd
    exact hid ▸ hwf.outcomeId_nonempty node hn outcome ho
  unfold isTerminal
  rw [hwf.terminals, any_eq_false]
  intro entry hentry hsame
  simp only [decide_eq_true_eq] at hsame
  refine terminalOutcomesOf_unbound hentry (mem_map.2 ⟨edge, mem_filter.2 ⟨he, ?_⟩, ?_⟩)
  · simp [hfrom, houtcome]
  · rw [hsame.1, hsame.2]

theorem closingStop_of_isSome {nodes : List OutcomeNodeState} {now : Nat}
    {stop : Option OutcomeStop} (h : stop.isSome) : closingStop plan nodes now stop = stop := by
  unfold closingStop
  rw [if_neg]
  intro hno
  cases stop with
  | none => cases h
  | some stop => cases hno.1

variable {submissions : List Submission}

theorem stopped_run (hs : state.stop ≠ none)
    (hrun : Run (Advances admissible plan) state submissions state') :
    submissions = [] ∧ state' = state := by
  cases hrun with
  | nil => exact ⟨rfl, rfl⟩
  | cons hst _ =>
    obtain ⟨-, -, advance, hadv, -⟩ := hst
    obtain ⟨_, _, _, _, hd, -⟩ := advanceOutcomeGraph_ok hadv
    exact absurd (dispatchedEntry_ok.1 hd).2.1 hs

section
variable (hwf : plan.WellFormed) (hord : OrdinaryGroupIds plan)
include hwf hord

section

variable (hs : ReachableState admissible plan state)
include hs

theorem advance_traversals_le {submission : Submission}
    (hst : Advances admissible plan state submission state') (groupId : String) :
    traversalsOf state.loopTraversals groupId ≤ traversalsOf state'.loopTraversals groupId := by
  obtain ⟨-, -, advance, hadv, rfl⟩ := hst
  obtain ⟨_, _, _, routed, -, hr, hclose, -, -⟩ := advanceOutcomeGraph_ok hadv
  have hcounters := (advance_counters hwf (hord.continuation _ _) (hs.countersBounded hwf hord) hr).2
  have hsame : advance.state.loopTraversals = routed.loopTraversals := by
    rw [hclose]
    rfl
  rw [hsame]
  rcases hcounters with ⟨heq, -⟩ | ⟨-, hcount⟩
  · rw [heq]
  · rw [hcount]
    exact Nat.le_add_right _ _

theorem run_traversals_le
    (hrun : Run (Advances admissible plan) state submissions state') (groupId : String) :
    traversalsOf state.loopTraversals groupId ≤ traversalsOf state'.loopTraversals groupId := by
  induction hrun with
  | nil => exact le_rfl
  | cons hst _ ih =>
    exact (advance_traversals_le hwf hord hs hst groupId).trans (ih (hs.tail hst))

/-- A counted outcome moves each counter of its groups one round on, or stops the run. -/
theorem advance_counted {submission : Submission}
    (hst : Advances admissible plan state submission state') {edge : CompiledEdge}
    (he : edge ∈ plan.edges)
    (hpair : (submission.decision.nodeId, submission.decision.outcomeId) =
      (edge.from, edge.outcome)) :
    state'.stop ≠ none ∨
      ∀ group ∈ continuationGroups plan edge.from edge.outcome,
        traversalsOf state'.loopTraversals group.id =
          traversalsOf state.loopTraversals group.id + 1 := by
  obtain ⟨hnode, houtcome⟩ := Prod.mk.inj hpair
  obtain ⟨-, -, advance, hadv, rfl⟩ := hst
  obtain ⟨_, _, _, routed, -, hr, hclose, -, -⟩ := advanceOutcomeGraph_ok hadv
  have hcounters := (advance_counters hwf (hord.continuation _ _) (hs.countersBounded hwf hord) hr).2
  rw [hnode, houtcome, isTerminal_of_edge hwf he] at hcounters
  have hstop : advance.state.stop = closingStop plan
      (canonicalNodes plan routed.nodes) submission.context.now routed.stop := by
    rw [hclose]
    rfl
  have hsame : advance.state.loopTraversals = routed.loopTraversals := by
    rw [hclose]
    rfl
  rcases hcounters with ⟨-, hfalse | hsome⟩ | ⟨-, hcount⟩
  · cases hfalse
  · left
    rw [hstop, closingStop_of_isSome hsome]
    exact Option.ne_none_iff_isSome.2 hsome
  · right
    intro group hg
    rw [hsame, hcount, if_pos (mem_map_of_mem hg)]

theorem run_counted
    (hrun : Run (Advances admissible plan) state submissions state') {edge : CompiledEdge}
    (he : edge ∈ plan.edges)
    (hmem : (edge.from, edge.outcome) ∈
      submissions.map fun s => (s.decision.nodeId, s.decision.outcomeId))
    (hlive : state'.stop = none) :
    ∀ group ∈ continuationGroups plan edge.from edge.outcome,
      traversalsOf state.loopTraversals group.id < traversalsOf state'.loopTraversals group.id := by
  induction hrun with
  | nil => cases hmem
  | cons hst hrest ih =>
    intro group hg
    rcases mem_cons.1 hmem with hpair | hmem
    · rcases advance_counted hwf hord hs hst he hpair.symm with hstop | hcount
      · obtain ⟨-, rfl⟩ := stopped_run hstop hrest
        exact absurd hlive hstop
      · have hle := run_traversals_le hwf hord (hs.tail hst) hrest group.id
        have hone := hcount group hg
        omega
    · have hle := advance_traversals_le hwf hord hs hst group.id
      exact hle.trans_lt (ih (hs.tail hst) hmem hlive group hg)

end

end

/-- A plan whose cycles are counted bounds the advances of its runs, each closed walk counted. -/
theorem boundedRepetition {host : DigestHost} {declaration : Json} {options : CompileOptions}
    (hplan : compileGraph host declaration options = .executable plan)
    (hc : EveryCycleCounted plan) (hord : OrdinaryGroupIds plan) :
    (∀ start submissions state, Starts AnyContext plan start →
      Run (Advances AnyContext plan) start submissions state →
      submissions.length ≤ repetitionBound plan) ∧
    ∀ state submissions state' walk, ReachableState AnyContext plan state →
      Run (Advances AnyContext plan) state submissions state' →
      ClosedWalk plan walk → Traverses submissions walk → state'.stop = none →
      ∃ group ∈ plan.loopGroups,
        traversalsOf state.loopTraversals group.id < traversalsOf state'.loopTraversals group.id ∧
        traversalsOf state'.loopTraversals group.id ≤ group.maxTraversals := by
  have hwf := compileGraph_wellFormed hplan
  constructor
  · intro start submissions state hstart hrun
    exact run_length_le hwf hc hord hstart hrun
  · intro state submissions state' walk hs hrun hwalk htraverses hlive
    obtain ⟨edge, hedge, hcounted⟩ := hwalk.exists_counted hc
    obtain ⟨group, hg⟩ := exists_mem_of_ne_nil _ hcounted
    have hin : group ∈ plan.loopGroups := (continuationGroups_sublist _ _).subset hg
    have hmem := htraverses.subset (mem_map_of_mem hedge)
    have hs' : ReachableState AnyContext plan state' :=
      hrun.invariant (fun _ _ _ hr hst => hr.tail hst) hs
    exact ⟨group, hin, run_counted hwf hord hs hrun (hwalk.edges edge hedge) hmem hlive group hg,
      (hs'.countersBounded hwf hord group hin).2⟩

end Counting

def countedTopology : JoinTopology :=
  { nodes :=
      [plainNode "A" ["again", "done"] (some .any) [], plainNode "E" ["ok"] none []]
    edges := [⟨"A", "A", "again"⟩, ⟨"E", "A", "ok"⟩]
    loopGroups := [⟨"L", ["A"], 1, "again", "done", none⟩] }

theorem countedTopology_compiles :
    compileGraph (plainHost "r") (declareTopology "g" countedTopology) plainOptions =
      .executable (plainPlan "g" "r" countedTopology) := rfl

theorem countedTopology_counted : EveryCycleCounted countedTopology := by
  refine Digraph.acyclic_of_rank (fun id => if id = "A" then 1 else 0) fun v w hw => ?_
  obtain ⟨edge, he, rfl⟩ := mem_map.1 hw
  obtain ⟨hedge, hfrom⟩ := mem_filter.1 he
  simp only [decide_eq_true_eq] at hfrom
  obtain ⟨rfl, hno⟩ := hfrom
  rcases mem_cons.1 hedge with rfl | hedge
  · exact absurd hno (by decide)
  · rw [mem_singleton.1 hedge]
    decide

theorem boundedRepetition_counted :
    (∀ start submissions state, Starts AnyContext (plainPlan "g" "r" countedTopology) start →
      Run (Advances AnyContext (plainPlan "g" "r" countedTopology)) start submissions state →
      submissions.length ≤ repetitionBound countedTopology) ∧
    ∀ state submissions state' walk,
      ReachableState AnyContext (plainPlan "g" "r" countedTopology) state →
      Run (Advances AnyContext (plainPlan "g" "r" countedTopology)) state submissions state' →
      ClosedWalk countedTopology walk → Traverses submissions walk → state'.stop = none →
      ∃ group ∈ countedTopology.loopGroups,
        traversalsOf state.loopTraversals group.id < traversalsOf state'.loopTraversals group.id ∧
        traversalsOf state'.loopTraversals group.id ≤ group.maxTraversals :=
  boundedRepetition countedTopology_compiles countedTopology_counted (by decide)

def repeatingTopology : JoinTopology :=
  { nodes :=
      [plainNode "A" ["again", "done", "other"] (some .any) [], plainNode "E" ["ok"] none []]
    edges := [⟨"A", "A", "again"⟩, ⟨"A", "A", "other"⟩, ⟨"E", "A", "ok"⟩]
    loopGroups := [⟨"L", ["A"], 1, "again", "done", none⟩] }

def repeatingPlan : CompiledPlan := plainPlan "g" "r" repeatingTopology

def plainContext : AdvanceContext :=
  { now := 0
    credentials := { source := fun _ => "c", attemptCredentialDigest := fun _ => "d" }
    readAcceptedResult := none
    progress := []
    dispatchIdentity := none }

def plainFacts (attemptId : String) (attemptSeq : Nat) : DispatchFacts :=
  { attemptId := attemptId
    attemptSeq := attemptSeq
    attemptCredentialDigest := "d"
    dispatchIdentity := none
    dispatchedAt := 0
    inputs := some [] }

def plainDecision (nodeId attemptId outcomeId : String) : AcceptedDecision :=
  { identity := { graphId := "g", attemptId := attemptId, submissionId := "s" }
    planRevision := "r"
    proposalDigest := "p"
    nodeId := nodeId
    outcomeId := outcomeId }

theorem plainContext_usable : plainContext.credentials.Usable := by
  intro binding
  change isAttemptCredential "c" = true
  decide

def countedState : OutcomeGraphState :=
  { bodyVersion := CURRENT_OUTCOME_STATE_BODY
    graphId := "g"
    planRevision := "r"
    phase := .executing
    nodes :=
      [⟨"A", .dispatched (plainFacts "A#2" 2), [⟨"E", "ok", "E#1"⟩], none⟩,
        ⟨"E", .settled (plainFacts "E#1" 1) "ok" 0, [], none⟩]
    loopTraversals := .empty
    attemptSeq := 2
    stop := none
    loopProgress := .empty }

theorem countedState_reachable :
    ReachableState AnyContext (plainPlan "g" "r" countedTopology) countedState :=
  runDecisions_reachable trivial
    (show runDecisions _ plainContext [plainDecision "E" "E#1" "ok"] = _ from rfl)

def repeatingState (k : Nat) : OutcomeGraphState :=
  { bodyVersion := CURRENT_OUTCOME_STATE_BODY
    graphId := "g"
    planRevision := "r"
    phase := .executing
    nodes :=
      [⟨"A", .dispatched (plainFacts ("A" ++ "#" ++ toString k) k), [⟨"E", "ok", "E#1"⟩], none⟩,
        ⟨"E", .settled (plainFacts "E#1" 1) "ok" 0, [], none⟩]
    loopTraversals := .empty
    attemptSeq := k
    stop := none
    loopProgress := .empty }

def repeatingSubmission (k : Nat) : Submission :=
  ⟨plainDecision "A" ("A" ++ "#" ++ toString k) "other", plainContext⟩

theorem repeatingTopology_compiles :
    compileGraph (plainHost "r") (declareTopology "g" repeatingTopology) plainOptions =
      .executable repeatingPlan := rfl

theorem repeating_start : ∃ start, Starts AnyContext repeatingPlan start ∧
    Advances AnyContext repeatingPlan start ⟨plainDecision "E" "E#1" "ok", plainContext⟩
      (repeatingState 2) := by
  have hstart : ∃ start dispatches,
      startOutcomeGraph repeatingPlan plainContext 0 = .ok (start, dispatches) ∧
      ∃ advance, advanceOutcomeGraph repeatingPlan start (plainDecision "E" "E#1" "ok")
        plainContext = .ok advance ∧ advance.state = repeatingState 2 :=
    ⟨_, _, rfl, _, rfl, rfl⟩
  obtain ⟨start, dispatches, hs, advance, hadv, heq⟩ := hstart
  exact ⟨start, ⟨plainContext, 0, dispatches, trivial, hs⟩, trivial, rfl, advance, hadv, heq.symm⟩

def rearmed (k : Nat) : Dispatching :=
  { nodes :=
      [⟨"A", .dispatched (plainFacts ("A" ++ "#" ++ toString (k + 1)) (k + 1)), [], none⟩,
        ⟨"E", .settled (plainFacts "E#1" 1) "ok" 0, [], none⟩]
    attemptSeq := k + 1
    dispatches := [⟨"A", "A" ++ "#" ++ toString (k + 1), "agent", "prompt", "c", []⟩] }

def settledMember (k : Nat) : List OutcomeNodeState :=
  [⟨"A", .settled (plainFacts ("A" ++ "#" ++ toString k) k) "other" 0, [⟨"E", "ok", "E#1"⟩], none⟩,
    ⟨"E", .settled (plainFacts "E#1" 1) "ok" 0, [], none⟩]

def memberCandidate : Candidate :=
  ⟨plainNode "A" ["again", "done", "other"] (some .any) [], 0⟩

theorem repeating_decided (k : Nat) :
    decideArming repeatingTopology plainContext (settledMember k) [memberCandidate]
      [memberCandidate] 1 [] = [⟨memberCandidate, .resolved []⟩] := rfl

theorem repeating_arms (k : Nat) :
    armTargets repeatingPlan plainContext (repeatingSubmission k).decision (settledMember k) k
      [⟨"A", "A", "other"⟩] = .ok (rearmed k) := by
  change (decideArming repeatingTopology plainContext (settledMember k) [memberCandidate]
    [memberCandidate] 1 []).foldlM (applyArmDecision repeatingPlan plainContext)
      ⟨settledMember k, k, []⟩ = _
  rw [repeating_decided, foldlM_cons, applyArmDecision]
  simp only [mintAttemptCredential_ok plainContext_usable]
  rfl

theorem repeating_step (k : Nat) :
    Advances AnyContext repeatingPlan (repeatingState k) (repeatingSubmission k)
      (repeatingState (k + 1)) := by
  refine ⟨trivial, rfl, ?_⟩
  have hentry : dispatchedEntry repeatingPlan (repeatingState k) (repeatingSubmission k).decision =
      .ok (0, ⟨"A", .dispatched (plainFacts ("A" ++ "#" ++ toString k) k), [⟨"E", "ok", "E#1"⟩],
        none⟩, plainFacts ("A" ++ "#" ++ toString k) k) :=
    dispatchedEntry_ok.2 ⟨rfl, rfl, rfl, rfl, rfl, rfl, rfl⟩
  have hroute : routeSettled repeatingPlan (repeatingState k) plainContext
      (repeatingSubmission k).decision (settledMember k) =
      .ok ⟨(rearmed k).nodes, .empty, .empty, k + 1, (rearmed k).dispatches, [], none⟩ := by
    have hterminal : isTerminal repeatingPlan "A" "other" = false := rfl
    unfold routeSettled
    rw [show (repeatingSubmission k).decision.nodeId = "A" from rfl,
      show (repeatingSubmission k).decision.outcomeId = "other" from rfl, hterminal,
      if_neg (by decide)]
    have hedges : successorsOf repeatingTopology "A" "other" ≠ [] := by decide
    exact routeOutcome_ok.2 ⟨hedges, (.empty, none), ⟨.empty, [], none⟩, rearmed k, rfl, rfl,
      repeating_arms k, rfl⟩
  refine ⟨⟨repeatingState (k + 1), (rearmed k).dispatches, []⟩, ?_, rfl⟩
  unfold advanceOutcomeGraph
  rw [hentry]
  simp only [bind, Except.bind]
  rw [show (repeatingState k).nodes.set 0 (settleEntry ⟨"A", .dispatched (plainFacts
    ("A" ++ "#" ++ toString k) k), [⟨"E", "ok", "E#1"⟩], none⟩ (plainFacts
    ("A" ++ "#" ++ toString k) k) (repeatingSubmission k).decision.outcomeId
    (repeatingSubmission k).context.now) = settledMember k from rfl]
  rw [show (repeatingSubmission k).context = plainContext from rfl, hroute]
  rfl

theorem repeating_run (k n : Nat) :
    Run (Advances AnyContext repeatingPlan) (repeatingState k)
      ((range' k n).map repeatingSubmission) (repeatingState (k + n)) := by
  induction n generalizing k with
  | zero => exact .nil _
  | succ n ih =>
    have htail := ih (k + 1)
    rw [Nat.add_right_comm] at htail
    exact .cons (repeating_step k) htail

/-- The repeating plan compiles as executable, and no number bounds the length of its runs. -/
theorem repeatingPlan_unbounded :
    compileGraph (plainHost "r") (declareTopology "g" repeatingTopology) plainOptions =
      .executable repeatingPlan ∧
    ¬ ∃ N, ∀ start submissions state, Starts AnyContext repeatingPlan start →
      Run (Advances AnyContext repeatingPlan) start submissions state → submissions.length ≤ N := by
  refine ⟨repeatingTopology_compiles, ?_⟩
  rintro ⟨N, hN⟩
  obtain ⟨start, hstart, hfirst⟩ := repeating_start
  have hle := hN start _ _ hstart (.cons hfirst (repeating_run 2 N))
  simp only [length_cons, length_map, length_range'] at hle
  omega

end Rolebox.Graph
