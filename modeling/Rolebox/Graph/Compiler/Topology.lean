import Rolebox.Graph.Compiler.CycleDetection
import Rolebox.Graph.Plan

/-! The inspection of a compiled topology: every defect of a plan body, by code and message. -/

namespace Rolebox.Graph
open General

inductive CompiledTopologyIssueCode where
  | malformedTopology
  | duplicateNodeId
  | missingOutcomes
  | unknownEdgeEndpoint
  | unknownOutcomeReference
  | unknownLoopMember
  | unknownLoopContinuationOutcome
  | unknownLoopExitOutcome
  | loopGroupMissingLimits
  | malformedProgressPolicy
  | loopContinuationWithoutEdge
  | cycleNotInLoopGroup
  | missingTerminalOutcome
  | terminalOutcomesInconsistent
  | unpinnedValidatorVersion
  | missingCompletionAuthorization
  | unknownCompletionAuthorization
  | inconsistentCompletionPolicy
  deriving DecidableEq

structure CompiledTopologyIssue where
  code : CompiledTopologyIssueCode
  message : String

/-- `contractDigest` at the three kinds of body the compiler hashes. -/
structure DigestHost where
  contractDigest : Json → Except String String
  policyDigest : CompletionPolicyBody → Except String String
  planDigest : CompiledPlanBody → Except String String

def malformed (message : String) : CompiledTopologyIssue :=
  { code := .malformedTopology, message := message }

def readableNodes : List String → List CompiledNode → List CompiledNode
  | _, [] => []
  | seen, node :: nodes =>
    if node.id = "" ∨ node.id ∈ seen then readableNodes seen nodes
    else node :: readableNodes (seen ++ [node.id]) nodes

def inspectOutcomes (node : CompiledNode) : List CompiledTopologyIssue :=
  if node.outcomes = [] then
    [{ code := .missingOutcomes
       message := "node " ++ quote node.id ++
        " declares no outcomes — a compiled node declares at least one" }]
  else
    (node.outcomes.zipIdx.filter (·.1.id = "")).map fun p =>
      malformed ("outcome " ++ toString p.2 ++ " of node " ++ quote node.id ++
        " has no non-empty string id")

def inspectNodes : List String → Nat → List CompiledNode → List CompiledTopologyIssue
  | _, _, [] => []
  | seen, index, node :: nodes =>
    if node.id = "" then
      malformed ("nodes[" ++ toString index ++
        "] is not a compiled node with a non-empty string id") ::
        inspectNodes seen (index + 1) nodes
    else if node.id ∈ seen then
      { code := .duplicateNodeId
        message := "node id " ++ quote node.id ++
          " is declared more than once in the compiled topology — one node id has exactly " ++
          "one declaration" } ::
        inspectNodes seen (index + 1) nodes
    else inspectOutcomes node ++ inspectNodes (seen ++ [node.id]) (index + 1) nodes

def readableOutcome (nodes : List CompiledNode) (nodeId outcome : String) : Bool :=
  nodes.any fun node => node.id = nodeId && outcome ≠ "" && node.declares outcome

def describeUnknown (label id : String) : String := label ++ " " ++ quote id

def inspectEdge (nodes : List CompiledNode) (edge : CompiledEdge) : List CompiledTopologyIssue :=
  let declared := nodes.map (·.id)
  let unknown := (if edge.from ∈ declared then [] else [describeUnknown "from" edge.from]) ++
    (if edge.to ∈ declared then [] else [describeUnknown "to" edge.to])
  (if unknown = [] then []
    else
      [{ code := .unknownEdgeEndpoint
         message := "edge from " ++ quote edge.from ++ " to " ++ quote edge.to ++
          " names an undeclared " ++ joinWith " and " unknown }]) ++
    (if edge.from ∈ declared ∧ readableOutcome nodes edge.from edge.outcome = false then
      [{ code := .unknownOutcomeReference
         message := "edge from " ++ quote edge.from ++ " to " ++ quote edge.to ++
          " binds outcome " ++ quote edge.outcome ++ ", which source node " ++
          quote edge.from ++ " does not declare" }]
    else [])

def isReadableEdge (edge : CompiledEdge) : Bool :=
  edge.from ≠ "" ∧ edge.to ≠ "" ∧ edge.outcome ≠ ""

def inspectEdges (nodes : List CompiledNode) (edges : List CompiledEdge) :
    List CompiledTopologyIssue :=
  edges.zipIdx.flatMap fun p =>
    if isReadableEdge p.1 then inspectEdge nodes p.1
    else
      [malformed ("edges[" ++ toString p.2 ++
        "] is not a compiled edge \x7b from, to, outcome \x7d of non-empty strings")]

def readableMembers (nodes : List CompiledNode) (group : CompiledLoopGroup) : List String :=
  distinct (group.nodes.filter (· ∈ nodes.map (·.id)))

def isReadableGroup (group : CompiledLoopGroup) : Bool :=
  group.id ≠ "" ∧ group.continuationOutcome ≠ "" ∧ group.exitOutcome ≠ ""

def isReadableProgressPolicy (policy : CompiledProgressPolicy) : Bool :=
  policy.evaluator ≠ "" && isPositiveSafeInteger policy.version && policy.subject ≠ "" &&
    isPositiveSafeInteger policy.maxUnchanged

def inspectMember (nodes : List CompiledNode) (groupId : String) (index : Nat)
    (member : String × Nat) : List CompiledTopologyIssue :=
  if member.1 = "" then
    [malformed ("loopGroups[" ++ toString index ++ "].nodes[" ++ toString member.2 ++
      "] is not a non-empty node id")]
  else if member.1 ∉ nodes.map (·.id) then
    [{ code := .unknownLoopMember
       message := "loop group " ++ quote groupId ++ " names " ++ quote member.1 ++
        " as a member, which is not a topology node id" }]
  else []

def undeclaredRoute (groupId route outcome : String) : String :=
  "loop group " ++ quote groupId ++ " declares " ++ route ++ " outcome " ++ quote outcome ++
    ", which none of its member nodes declare"

def inspectRoutes (nodes : List CompiledNode) (edges : List CompiledEdge)
    (group : CompiledLoopGroup) : List CompiledTopologyIssue :=
  let members := readableMembers nodes group
  let declares := fun outcome => members.any fun member => readableOutcome nodes member outcome
  (if declares group.continuationOutcome = false then
    [{ code := .unknownLoopContinuationOutcome
       message := undeclaredRoute group.id "continuation" group.continuationOutcome }]
  else if edges.any fun edge => edge.outcome = group.continuationOutcome ∧
      edge.from ∈ members ∧ edge.to ∈ members then []
  else
    [{ code := .loopContinuationWithoutEdge
       message := "loop group " ++ quote group.id ++ " declares continuation outcome " ++
        quote group.continuationOutcome ++
        ", but no edge carries it from one member to another — the loop can never continue" }]) ++
  (if declares group.exitOutcome = false then
    [{ code := .unknownLoopExitOutcome
       message := undeclaredRoute group.id "exit" group.exitOutcome }]
  else [])

def inspectLoopGroup (nodes : List CompiledNode) (edges : List CompiledEdge) (index : Nat)
    (group : CompiledLoopGroup) : List CompiledTopologyIssue :=
  if isReadableGroup group = false then
    [malformed ("loopGroups[" ++ toString index ++ "] is not a compiled loop group " ++
      "\x7b id, nodes, maxTraversals, continuationOutcome, exitOutcome \x7d")]
  else
    (if isPositiveSafeInteger group.maxTraversals then []
      else
        [{ code := .loopGroupMissingLimits
           message := "loop group " ++ quote group.id ++
            " needs maxTraversals as a positive safe integer, received " ++
            toString group.maxTraversals }]) ++
    (if group.progress.all isReadableProgressPolicy then []
      else
        [{ code := .malformedProgressPolicy
           message := "loop group " ++ quote group.id ++
            " declares a progress policy that is not \x7b evaluator, version, subject, " ++
            "maxUnchanged \x7d with non-empty ids, an exact version and a positive threshold" }]) ++
    group.nodes.zipIdx.flatMap (inspectMember nodes group.id index) ++
    inspectRoutes nodes edges group

def inspectLoopGroups (nodes : List CompiledNode) (edges : List CompiledEdge)
    (groups : List CompiledLoopGroup) : List CompiledTopologyIssue :=
  groups.zipIdx.flatMap fun p => inspectLoopGroup nodes edges p.2 p.1

def uncontainedCycles (nodes : List CompiledNode) (edges : List CompiledEdge)
    (groups : List CompiledLoopGroup) : List (List String) :=
  let declared := nodes.map (·.id)
  let cycleEdges := (edges.filter fun edge => edge.from ∈ declared ∧ edge.to ∈ declared).map
    fun edge => ({ «from» := edge.from, «to» := edge.to } : CycleEdge)
  let result := stronglyConnectedComponents cycleEdges
  let loopMembers := (groups.filter (isReadableGroup ·)).flatMap (readableMembers nodes)
  ((result.components.filter fun component =>
    isCyclicComponent component result.selfLoop ∧ component.any (· ∉ loopMembers)).map
      sortText).insertionSort fun a b => textLe (joinWith "\x00" a) (joinWith "\x00" b)

def inspectCycles (nodes : List CompiledNode) (edges : List CompiledEdge)
    (groups : List CompiledLoopGroup) : List CompiledTopologyIssue :=
  (uncontainedCycles nodes edges groups).map fun component =>
    { code := .cycleNotInLoopGroup
      message := "cycle involving node(s) [" ++ joinWith ", " component ++
        "] is not contained in any declared loop group" }

def describeTerminalOutcomes (entries : List CompiledTerminalOutcome) : String :=
  if entries = [] then "none"
  else joinWith ", " (entries.map fun entry => quote entry.nodeId ++ "." ++ quote entry.outcome)

def inspectTerminals (nodes : List CompiledNode) (edges : List CompiledEdge)
    (declared : List CompiledTerminalOutcome) : List CompiledTopologyIssue :=
  let derived := terminalOutcomesOf nodes edges
  (if derived = [] then
    [{ code := .missingTerminalOutcome
       message := "every declared outcome is bound by an edge from its declaring node, so the " ++
        "plan declares no terminal exit — a graph must state how it terminates" }]
  else []) ++
  (if declared.any fun entry => entry.nodeId = "" ∨ entry.outcome = "" then
    [{ code := .terminalOutcomesInconsistent
       message := "terminalOutcomes is not an array of \x7b nodeId, outcome \x7d records of " ++
        "non-empty strings" }]
  else if derived = sortTerminalOutcomes declared then []
  else
    [{ code := .terminalOutcomesInconsistent
       message := "terminalOutcomes does not agree with the edges: the edges imply [" ++
        describeTerminalOutcomes derived ++ "], the plan declares [" ++
        describeTerminalOutcomes declared ++ "]" }])

def isReadableExecutability : CompiledPlanExecutability → Bool
  | .executable => true
  | .draft unresolved unauthorized =>
    !(unresolved.isEmpty && unauthorized.isEmpty) &&
      (unresolved.all fun entry =>
        entry.nodeId ≠ "" ∧ entry.outcomeId ≠ "" ∧ entry.validator ≠ "") &&
      unauthorized.all fun entry => decide (entry.nodeId ≠ "" ∧ entry.outcome ≠ "") &&
        entry.request.all fun request => request.id ≠ "" ∧ request.revision ≠ ""

def inspectExecutability (executability : CompiledPlanExecutability) : List CompiledTopologyIssue :=
  if isReadableExecutability executability then []
  else
    [malformed ("executability is not \x7b kind: \"executable\" \x7d or " ++
      "\x7b kind: \"draft\", unresolved: [...] \x7d")]

def inspectAcceptance (nodes : List CompiledNode) : List CompiledTopologyIssue :=
  nodes.flatMap fun node => (node.outcomes.filter (·.id ≠ "")).flatMap fun outcome =>
    (outcome.acceptance.zipIdx.filter fun p =>
      !(p.1.validator ≠ "" && p.1.version.any (isPositiveSafeInteger ·))).map fun p =>
        { code := .unpinnedValidatorVersion
          message := "executable plan acceptance requirement " ++ toString p.2 ++
            " of outcome " ++ quote outcome.id ++ " on node " ++ quote node.id ++
            " is not pinned to an exact validator version" }

def naturalOutcomesOf (nodes : List CompiledNode) : List (String × String) :=
  nodes.foldl (fun natural node =>
    match node.completion with
    | some (.natural outcome) =>
      if node.id ≠ "" ∧ outcome ≠ "" then assign node.id outcome natural else natural
    | _ => natural) []

def describeCompletionPolicyRef (ref : CompletionPolicyRef) : String :=
  quote ref.id ++ "@" ++ quote ref.revision

section Completion
variable (host : DigestHost) (body : CompiledPlanBody)

def inspectPolicyBody (nodeId : String) (policy : CompletionPolicyRef) :
    List CompiledTopologyIssue :=
  match body.completionPolicySnapshots.own? policy.digest with
  | none =>
    [{ code := .inconsistentCompletionPolicy
       message := "completion authorization of node " ++ quote nodeId ++ " pins policy " ++
        describeCompletionPolicyRef policy ++ " at digest " ++ policy.digest ++
        ", but completionPolicySnapshots carries no readable declaration body under that " ++
        "digest" }]
  | some snapshot =>
    let actual := (host.policyDigest snapshot).toOption
    if actual = some policy.digest then []
    else
      [{ code := .inconsistentCompletionPolicy
         message := "completion policy " ++ describeCompletionPolicyRef policy ++
          " is pinned at digest " ++ policy.digest ++
          ", but the body in completionPolicySnapshots hashes to " ++
          actual.getD "undefined" }]

def inspectPolicyIdentity (policy : CompletionPolicyRef) : List CompiledTopologyIssue :=
  let actual := (body.completionPolicyIdentities.lookup policy.id).bind
    (List.lookup policy.revision)
  if actual = some policy.digest then []
  else
    [{ code := .inconsistentCompletionPolicy
       message := "completion policy " ++ describeCompletionPolicyRef policy ++
        " is pinned at digest " ++ policy.digest ++
        ", but completionPolicyIdentities maps it to " ++ actual.getD "undefined" }]

def isReadablePolicyRef (policy : CompletionPolicyRef) : Bool :=
  policy.id ≠ "" ∧ policy.revision ≠ "" ∧ policy.digest ≠ ""

def inspectAuthorizations : List String → List CompiledCompletionAuthorization →
    List CompiledTopologyIssue
  | _, [] => []
  | seen, entry :: entries =>
    if entry.nodeId = "" ∨ entry.outcome = "" then
      malformed ("a completion authorization is not \x7b nodeId, outcome, policy \x7d of " ++
        "non-empty strings") :: inspectAuthorizations seen entries
    else if isReadablePolicyRef entry.policy = false then
      malformed ("completion authorization of node " ++ quote entry.nodeId ++
        " is not pinned to a policy ref \x7b id, revision, digest \x7d of non-empty strings") ::
        inspectAuthorizations seen entries
    else if pairKey entry.nodeId entry.outcome ∈ seen then
      malformed ("completion authorization for outcome " ++ quote entry.outcome ++ " of node " ++
        quote entry.nodeId ++
        " appears more than once — one mapping has one pinned authorization") ::
        inspectAuthorizations seen entries
    else
      (if (naturalOutcomesOf body.nodes).lookup entry.nodeId = some entry.outcome then []
        else
          [{ code := .unknownCompletionAuthorization
             message := "plan pins an authorization for outcome " ++ quote entry.outcome ++
              " of node " ++ quote entry.nodeId ++
              ", which the topology does not declare as that node's natural completion" }]) ++
      inspectPolicyBody host body entry.nodeId entry.policy ++
      inspectPolicyIdentity body entry.policy ++
      inspectAuthorizations (seen ++ [pairKey entry.nodeId entry.outcome]) entries

def authorizedPairs : List String :=
  (body.completionAuthorizations.filter fun entry =>
    entry.nodeId ≠ "" ∧ entry.outcome ≠ "" ∧ isReadablePolicyRef entry.policy).map fun entry =>
      pairKey entry.nodeId entry.outcome

def inspectUnauthorized : List CompiledTopologyIssue :=
  ((sortBy (·.1) (naturalOutcomesOf body.nodes)).filter fun p =>
    pairKey p.1 p.2 ∉ authorizedPairs body).map fun p =>
      { code := .missingCompletionAuthorization
        message := "executable plan node " ++ quote p.1 ++ " maps natural completion to outcome " ++
          quote p.2 ++ ", but the plan pins no authorized completion policy for that mapping" }

def inspectCompiledTopology : List CompiledTopologyIssue :=
  let nodes := readableNodes [] body.nodes
  let edges := body.edges.filter (isReadableEdge ·)
  inspectNodes [] 0 body.nodes ++ inspectEdges nodes body.edges ++
    inspectLoopGroups nodes edges body.loopGroups ++ inspectCycles nodes edges body.loopGroups ++
    inspectTerminals body.nodes body.edges body.terminalOutcomes ++
    inspectExecutability body.executability ++
    (if body.executability = .executable then inspectAcceptance nodes else []) ++
    inspectAuthorizations host body [] body.completionAuthorizations ++
    (if body.executability = .executable then inspectUnauthorized body else [])

end Completion

end Rolebox.Graph
