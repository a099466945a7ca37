import Rolebox.General.Saturate
import Rolebox.Graph.StateModel

/-! Fan-in: feeders, canonical arrivals, the arm set and the nodes a run can still reach. -/

namespace Rolebox.Graph
open General List
variable {nodes : List OutcomeNodeState}

namespace JoinTopology
variable (plan : JoinTopology)

/-- The loop continuation edges, keyed by `from NUL to NUL outcome`. -/
def loopContinuationEdgesOf : List String :=
  plan.loopGroups.flatMap fun group =>
    (plan.edges.filter fun edge =>
      edge.outcome = group.continuationOutcome ∧ edge.from ∈ group.nodes ∧
        edge.to ∈ group.nodes).map fun edge => edgeKey edge.from edge.to edge.outcome

def feederEdges : List CompiledEdge :=
  plan.edges.filter fun edge =>
    edgeKey edge.from edge.to edge.outcome ∉ plan.loopContinuationEdgesOf

def entryNodesOf : List CompiledNode :=
  let targeted := plan.feederEdges.map (·.to)
  plan.nodes.filter fun node => node.id ∉ targeted

def feederSourcesOf (targetId : String) : List String :=
  distinct ((plan.feederEdges.filter (·.to = targetId)).map (·.from))

variable {plan}

theorem mem_feederSourcesOf {source targetId : String} :
    source ∈ plan.feederSourcesOf targetId ↔
      ∃ edge ∈ plan.feederEdges, edge.to = targetId ∧ edge.from = source := by
  simp [feederSourcesOf, and_assoc]

theorem feederSourcesOf_eq_nil {node : CompiledNode} (h : node ∈ plan.nodes) :
    plan.feederSourcesOf node.id = [] ↔ node ∈ plan.entryNodesOf := by
  have hmem : node ∈ plan.entryNodesOf ↔ node.id ∉ plan.feederEdges.map (·.to) := by
    simp [entryNodesOf, h]
  rw [hmem, feederSourcesOf, distinct_eq_nil, map_eq_nil_iff, filter_eq_nil_iff]
  simp

end JoinTopology

inductive ResolvedJoinStrategy where
  | all
  | any
  | quorum (count : Nat)

/-- An absent join is `all`, and a quorum is at least one. -/
def resolveJoinStrategy : Option JoinConfig → ResolvedJoinStrategy
  | none => .all
  | some .all => .all
  | some .any => .any
  | some (.quorum count) => .quorum (if 1 ≤ count then count else 1)

def joinSatisfiedBy (target : CompiledNode) (arrived feeders : List String) : Bool :=
  if feeders = [] then true
  else
    let count := (feeders.filter (· ∈ arrived)).length
    match resolveJoinStrategy target.join with
    | .quorum quorum => decide (quorum ≤ count)
    | .any => decide (1 ≤ count)
    | .all => decide (count = feeders.length)

def settlementOf (nodes : List OutcomeNodeState) (nodeId : String) : Option (String × String) :=
  match entryOf nodes nodeId with
  | some entry =>
    match entry.progress with
    | .settled facts outcomeId _ => some (outcomeId, facts.attemptId)
    | _ => none
  | none => none

theorem settlementOf_eq_some {nodeId outcomeId attemptId : String} :
    settlementOf nodes nodeId = some (outcomeId, attemptId) ↔
      ∃ entry facts settledAt, entryOf nodes nodeId = some entry ∧
        entry.progress = .settled facts outcomeId settledAt ∧ facts.attemptId = attemptId := by
  unfold settlementOf
  cases entryOf nodes nodeId with
  | none => simp
  | some entry =>
    cases hp : entry.progress with
    | pending => simp [hp]
    | dispatched facts => simp [hp]
    | settled facts outcome settledAt => simp [hp, and_comm]

def materializeArrivals (plan : JoinTopology) (nodes : List OutcomeNodeState)
    (suppressed : List String) (targetId : String) : List OutcomeArrival :=
  plan.nodes.filterMap fun source =>
    if source.id ∈ suppressed then none
    else
      match settlementOf nodes source.id with
      | none => none
      | some (outcomeId, attemptId) =>
        if plan.edges.any fun edge =>
            edge.from = source.id ∧ edge.to = targetId ∧ edge.outcome = outcomeId then
          some ⟨source.id, outcomeId, attemptId⟩
        else none

def joinSatisfiedFor (plan : JoinTopology) (target : CompiledNode)
    (arrivals : List OutcomeArrival) : Bool :=
  joinSatisfiedBy target (arrivals.map (·.from)) (plan.feederSourcesOf target.id)

/-- The candidates whose joins the arrivals of the others do not satisfy. -/
def armRound (plan : JoinTopology) (nodes : List OutcomeNodeState) (armable : List CompiledNode)
    (notInFlight notArmed : List String) : List String :=
  let suppressed := (armable.filter fun node => node.id ∉ notArmed ∧ node.id ∉ notInFlight).map (·.id)
  let failing := armable.filter fun node =>
    node.id ∉ notArmed ∧
      (entryOf nodes node.id = none ∨
        joinSatisfiedFor plan node (materializeArrivals plan nodes suppressed node.id) = false)
  notArmed ++ failing.map (·.id)

def resolveArmSet (plan : JoinTopology) (nodes : List OutcomeNodeState)
    (armable : List CompiledNode) (notInFlight : List String) : List String :=
  let notArmed := saturate (armRound plan nodes armable notInFlight) (armable.length + 1) []
  (armable.filter fun node => node.id ∉ notArmed).map (·.id)

def statusOf (nodes : List OutcomeNodeState) (nodeId : String) : Option OutcomeNodeStatus :=
  (entryOf nodes nodeId).map (·.status)

def reachPass (plan : JoinTopology) (nodes : List OutcomeNodeState) (reachable : List String) :
    List String :=
  plan.nodes.foldl (fun reachable node =>
    if node.id ∈ reachable ∨ statusOf nodes node.id = some .settled then reachable
    else if plan.edges.any fun edge => edge.to = node.id ∧ edge.from ∈ reachable then
      reachable ++ [node.id]
    else reachable) reachable

def stillReachableNodes (plan : JoinTopology) (nodes : List OutcomeNodeState) : List String :=
  saturate (reachPass plan nodes) (plan.nodes.length + 1)
    ((plan.nodes.filter fun node => statusOf nodes node.id = some .dispatched).map (·.id))

def lostFeeders (plan : JoinTopology) (nodes : List OutcomeNodeState) (nodeId : String) :
    List String :=
  (plan.feederSourcesOf nodeId).filter (· ∉ stillReachableNodes plan nodes)

def unsatisfiablePendingNodes (plan : JoinTopology) (nodes : List OutcomeNodeState) :
    PlainObject (List String) :=
  PlainObject.build
    (fun node => statusOf nodes node.id = some .pending ∧ lostFeeders plan nodes node.id ≠ [])
    (·.id) (fun node => lostFeeders plan nodes node.id) plan.nodes .empty

theorem stillReachableNodes_eq_nil {plan : JoinTopology}
    (h : ∀ node ∈ plan.nodes, statusOf nodes node.id ≠ some .dispatched) :
    stillReachableNodes plan nodes = [] := by
  have hseed : (plan.nodes.filter fun node => statusOf nodes node.id = some .dispatched) = [] := by
    rw [filter_eq_nil_iff]
    intro node hnode
    simpa using h node hnode
  have hpass : reachPass plan nodes [] = [] := by
    unfold reachPass
    induction plan.nodes with
    | nil => rfl
    | cons node rest ih =>
      rw [foldl_cons]
      simpa using ih
  unfold stillReachableNodes
  rw [hseed, map_nil]
  exact saturate_of_fixed hpass _

theorem lostFeeders_eq {plan : JoinTopology}
    (h : ∀ node ∈ plan.nodes, statusOf nodes node.id ≠ some .dispatched) (nodeId : String) :
    lostFeeders plan nodes nodeId = plan.feederSourcesOf nodeId := by
  unfold lostFeeders
  rw [stillReachableNodes_eq_nil h]
  simp

end Rolebox.Graph
