import Rolebox.General.PlainObject
import Rolebox.Graph.Domain

/-! The compiled plan: nodes, outcome-bound edges, loop groups and explicit terminals. -/

namespace Rolebox.Graph
open General List

structure CompiledOutcomeData where
  schema : String
  version : Option Rat
  deriving DecidableEq

structure CompiledAcceptanceRequirement where
  validator : String
  version : Option Nat
  deriving DecidableEq

structure CompiledOutcome where
  id : String
  data : Option CompiledOutcomeData
  acceptance : List CompiledAcceptanceRequirement
  deriving DecidableEq

inductive CompiledCompletionPolicy where
  | explicit
  | natural (outcome : String)
  deriving DecidableEq

structure CompiledInputRef where
  «from» : String
  outcome : String
  triggered : Bool
  deriving DecidableEq

structure CompiledNode where
  id : String
  agent : String
  prompt : String
  outcomes : List CompiledOutcome
  completion : Option CompiledCompletionPolicy
  contractRef : Option ContractRef
  join : Option JoinConfig
  budget : Option NodeBudgetSpec
  inputs : List CompiledInputRef
  tools : Option (List String)
  toolPresentation : Option WorkerToolPresentation
  deriving DecidableEq

structure CompiledEdge where
  «from» : String
  «to» : String
  outcome : String
  deriving DecidableEq

structure CompiledProgressPolicy where
  evaluator : String
  version : Nat
  subject : String
  maxUnchanged : Nat
  deriving DecidableEq

structure CompiledLoopGroup where
  id : String
  nodes : List String
  maxTraversals : Nat
  continuationOutcome : String
  exitOutcome : String
  progress : Option CompiledProgressPolicy
  deriving DecidableEq

structure CompiledTerminalOutcome where
  nodeId : String
  outcome : String
  deriving DecidableEq

structure CompiledCompletionAuthorization where
  nodeId : String
  outcome : String
  policy : CompletionPolicyRef

structure CompiledUnresolvedRequirement where
  nodeId : String
  outcomeId : String
  validator : String
  version : Option Nat
  reason : Option String
  deriving DecidableEq

inductive CompletionAuthorizationIssueCode where
  | policyUnavailable
  | policyUnknown
  | policyUnknownRevision
  | policyUngranted
  deriving DecidableEq

structure CompiledUnauthorizedCompletion where
  nodeId : String
  outcome : String
  code : CompletionAuthorizationIssueCode
  request : Option CompletionPolicyRequest
  deriving DecidableEq

inductive CompiledPlanExecutability where
  | executable
  | draft (unresolved : List CompiledUnresolvedRequirement)
      (unauthorizedCompletions : List CompiledUnauthorizedCompletion)
  deriving DecidableEq

structure JoinTopology where
  nodes : List CompiledNode
  edges : List CompiledEdge
  loopGroups : List CompiledLoopGroup

/-- An index of exact identities: id, then revision, to the digest of the content. -/
abbrev IdentityIndex := List (String × List (String × String))

structure CompiledPlanBody extends JoinTopology where
  graphId : String
  budget : Option RunBudgetSpec
  contractSnapshots : PlainObject Json
  contractIdentities : IdentityIndex
  completionPolicySnapshots : PlainObject CompletionPolicyBody
  completionPolicyIdentities : IdentityIndex
  completionAuthorizations : List CompiledCompletionAuthorization
  terminalOutcomes : List CompiledTerminalOutcome
  executability : CompiledPlanExecutability

structure CompiledPlan extends CompiledPlanBody where
  planRevision : String

instance : Coe CompiledPlan JoinTopology := ⟨fun plan => plan.toJoinTopology⟩

namespace CompiledNode

def declares (node : CompiledNode) (outcome : String) : Bool :=
  node.outcomes.any (·.id = outcome)

end CompiledNode

namespace JoinTopology
variable (plan : JoinTopology)

def nodeIds : List String := plan.nodes.map (·.id)

def declaresOutcome (nodeId outcome : String) : Bool :=
  plan.nodes.any fun node => node.id = nodeId && node.declares outcome

end JoinTopology

def sortTerminalOutcomes (entries : List CompiledTerminalOutcome) : List CompiledTerminalOutcome :=
  entries.insertionSort (thenBy (byText (·.nodeId)) (byText (·.outcome)))

def terminalOutcomesOf (nodes : List CompiledNode) (edges : List CompiledEdge) :
    List CompiledTerminalOutcome :=
  let bound := (edges.filter fun edge => edge.from ≠ "" ∧ edge.outcome ≠ "").map fun edge =>
    pairKey edge.from edge.outcome
  let pairs := (nodes.filter (·.id ≠ "")).flatMap fun node =>
    (sortText (distinct ((node.outcomes.map (·.id)).filter (· ≠ "")))).map fun outcome =>
      (node.id, outcome)
  let terminals := pairs.foldl (fun acc pair =>
    let key := pairKey pair.1 pair.2
    if key ∈ bound ∨ key ∈ acc.1 then acc
    else (acc.1 ++ [key], acc.2 ++ [⟨pair.1, pair.2⟩])) (([] : List String), [])
  sortTerminalOutcomes terminals.2

theorem terminalOutcomesOf_unbound {nodes : List CompiledNode} {edges : List CompiledEdge}
    {entry : CompiledTerminalOutcome} (h : entry ∈ terminalOutcomesOf nodes edges) :
    pairKey entry.nodeId entry.outcome ∉
      (edges.filter fun edge => edge.from ≠ "" ∧ edge.outcome ≠ "").map fun edge =>
        pairKey edge.from edge.outcome := by
  unfold terminalOutcomesOf sortTerminalOutcomes at h
  rw [(perm_insertionSort _ _).mem_iff] at h
  generalize hbound : ((edges.filter fun edge => edge.from ≠ "" ∧ edge.outcome ≠ "").map
    fun edge => pairKey edge.from edge.outcome) = bound at h ⊢
  generalize ((nodes.filter (·.id ≠ "")).flatMap fun node =>
    (sortText (distinct ((node.outcomes.map (·.id)).filter (· ≠ "")))).map fun outcome =>
      (node.id, outcome)) = pairs at h
  have hall : ∀ (pairs : List (String × String))
      (acc : List String × List CompiledTerminalOutcome),
      (∀ e ∈ acc.2, pairKey e.nodeId e.outcome ∉ bound) →
      ∀ e ∈ (pairs.foldl (fun acc pair =>
        let key := pairKey pair.1 pair.2
        if key ∈ bound ∨ key ∈ acc.1 then acc
        else (acc.1 ++ [key], acc.2 ++ [⟨pair.1, pair.2⟩])) acc).2,
        pairKey e.nodeId e.outcome ∉ bound := by
    intro pairs
    induction pairs with
    | nil => exact fun acc hacc => hacc
    | cons pair pairs ih =>
      intro acc hacc
      refine ih _ ?_
      by_cases hkey : pairKey pair.1 pair.2 ∈ bound ∨ pairKey pair.1 pair.2 ∈ acc.1
      · simp only [hkey, if_true]
        exact hacc
      · simp only [hkey, if_false]
        intro e he
        rcases mem_append.1 he with he | he
        · exact hacc e he
        · rw [mem_singleton.1 he]
          exact fun hb => hkey (.inl hb)
  exact hall pairs ([], []) (by simp) entry h

structure CompiledPlan.WellFormed (plan : CompiledPlan) : Prop where
  nodeIds_nodup : plan.nodeIds.Nodup
  nodeId_nonempty : ∀ node ∈ plan.nodes, node.id ≠ ""
  outcomeId_nonempty : ∀ node ∈ plan.nodes, ∀ outcome ∈ node.outcomes, outcome.id ≠ ""
  input_nonempty : ∀ node ∈ plan.nodes, ∀ input ∈ node.inputs,
    input.from ≠ "" ∧ input.outcome ≠ ""
  edge_declared : ∀ edge ∈ plan.edges, edge.from ∈ plan.nodeIds ∧ edge.to ∈ plan.nodeIds
  edge_outcome : ∀ edge ∈ plan.edges, plan.declaresOutcome edge.from edge.outcome = true
  edges_sorted : plan.edges.Pairwise fun a b => textLe a.from b.from
  groupIds_nodup : (plan.loopGroups.map (·.id)).Nodup
  groupId_nonempty : ∀ group ∈ plan.loopGroups, group.id ≠ ""
  group_cap : ∀ group ∈ plan.loopGroups, 0 < group.maxTraversals ∧
    group.maxTraversals ≤ maxSafeInteger
  group_progress : ∀ group ∈ plan.loopGroups, ∀ policy, group.progress = some policy →
    policy.evaluator ≠ "" ∧ 0 < policy.version ∧ policy.version ≤ maxSafeInteger ∧
      policy.subject ≠ "" ∧ 0 < policy.maxUnchanged ∧ policy.maxUnchanged ≤ maxSafeInteger
  terminals : plan.terminalOutcomes = terminalOutcomesOf plan.nodes plan.edges

end Rolebox.Graph
