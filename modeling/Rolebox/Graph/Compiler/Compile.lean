import Rolebox.Graph.Compiler.Nodes
import Rolebox.Graph.JoinState

/-! Compiling a declaration: node index, edges, loop groups, plan body and its inspection. -/

namespace Rolebox.Graph
open General

def indexedNodes (declaration : GraphDeclarationV3) : List NodeDeclarationV3 :=
  (distinct (declaration.nodes.map (·.id)) |> sortText).filterMap fun id =>
    declaration.nodes.find? (·.id = id)

def positionsOf (declaration : GraphDeclarationV3) (id : String) : List Nat :=
  (declaration.nodes.zipIdx.filter (·.1.id = id)).map (·.2)

def duplicateNodes (declaration : GraphDeclarationV3) : List CompileIssue :=
  ((sortText (distinct (declaration.nodes.map (·.id)))).filter fun id =>
    1 < (positionsOf declaration id).length).map fun id =>
      issue (.topology .duplicateNodeId)
        ("node id " ++ quote id ++ " is declared " ++
          toString (positionsOf declaration id).length ++ " times (at nodes[" ++
          joinWith "], nodes[" ((positionsOf declaration id).map toString) ++
          "]) — one node id has exactly one declaration") (nodePath id)

structure EdgeReading where
  index : Nat
  «from» : String
  «to» : String
  outcome : Option String

def readEdges (declaration : GraphDeclarationV3) : List EdgeReading :=
  declaration.edges.zipIdx.map fun p =>
    { index := p.2
      «from» := p.1.from
      «to» := p.1.to
      outcome := p.1.outcome.bind Json.text? }

def sortEdges (edges : List EdgeReading) : List EdgeReading :=
  edges.insertionSort (thenBy (byText (·.from)) (thenBy (byText (·.to))
    (byText (·.outcome.getD ""))))

def unknownEndpoints (nodes : List NodeDeclarationV3) (edge : EdgeReading) : List CompileIssue :=
  let unknown :=
    (if edge.from ∈ nodes.map (·.id) then [] else [describeUnknown "from" edge.from]) ++
      (if edge.to ∈ nodes.map (·.id) then [] else [describeUnknown "to" edge.to])
  if unknown = [] then []
  else
    [issue (.topology .unknownEdgeEndpoint)
      ("edge " ++ toString edge.index ++ " names an undeclared " ++ joinWith " and " unknown)
      ("edges[" ++ toString edge.index ++ "]")]

def compileEdge (nodes : List NodeDeclarationV3) (edge : EdgeReading) :
    Reported (Option CompiledEdge) :=
  let path := "edges[" ++ toString edge.index ++ "]"
  match edge.outcome with
  | none =>
    ⟨unknownEndpoints nodes edge ++
      [issue .missingEdgeOutcome
        ("edge " ++ toString edge.index ++ " (from " ++ quote edge.from ++ " to " ++
          quote edge.to ++
          ") binds no outcome — every v3 control edge binds exactly one") path], none⟩
  | some outcome =>
    ⟨unknownEndpoints nodes edge ++
      (match nodes.find? (·.id = edge.from) with
        | none => []
        | some source =>
          if outcome ∈ declaredOutcomeIds source then []
          else
            [issue (.topology .unknownOutcomeReference)
              ("edge " ++ toString edge.index ++ " binds outcome " ++ quote outcome ++
                " which source node " ++ quote edge.from ++ " does not declare") path]),
      some { «from» := edge.from, «to» := edge.to, outcome := outcome }⟩

def compileEdges (nodes : List NodeDeclarationV3) (edges : List EdgeReading) :
    Reported (List CompiledEdge) :=
  let readings := (sortEdges edges).map (compileEdge nodes)
  ⟨readings.flatMap (·.errors), readings.filterMap (·.value)⟩

def upstreamPass (edges : List CompiledEdge) (seen : List String) : List String :=
  edges.foldl (fun seen edge =>
    if edge.to ∈ seen ∧ edge.from ∉ seen then seen ++ [edge.from] else seen) seen

def upstreamOf (edges : List CompiledEdge) (start : String) : List String :=
  saturate (upstreamPass edges) (edges.length + 1)
    (distinct ((edges.filter (·.to = start)).map (·.from)))

def inputIssues (edges : List CompiledEdge) (node : CompiledNode) (input : CompiledInputRef) :
    List CompileIssue :=
  (if input.triggered ∧ (edges.any fun edge => edge.from = input.from ∧ edge.to = node.id ∧
      edge.outcome = input.outcome) = false then
    [issue .inputTriggerNotEdge
      ("node " ++ quote node.id ++ " declares a triggered input " ++ quote input.from ++ "/" ++
        quote input.outcome ++ ", but no matching incoming edge can trigger it")
      (nodePath node.id ++ ".inputs")]
  else []) ++
  (if input.from ∈ upstreamOf edges node.id then []
  else
    [issue .inputNotUpstream
      ("node " ++ quote node.id ++ " consumes the accepted result of " ++ quote input.from ++
        ", but no declared edge path leads from that node to this one — a consumer's input is " ++
        "an UPSTREAM result") (nodePath node.id ++ ".inputs")])

def duplicateLoopGroups (groups : List LoopGroupDeclarationV3) : List CompileIssue :=
  let count := fun id => (groups.filter (·.id = id)).length
  ((sortText (distinct (groups.map (·.id)))).filter fun id => 1 < count id).map fun id =>
    issue .duplicateLoopGroupId
      ("loop group id " ++ quote id ++ " is declared " ++ toString (count id) ++
        " times — one loop group id has exactly one group") ("loop_groups." ++ id)

def readMembers (nodes : List NodeDeclarationV3) (group : LoopGroupDeclarationV3) :
    Reported (List String) :=
  let declared := fun (raw : Json) => raw.text?.filter (· ∈ nodes.map (·.id))
  ⟨(group.nodes.zipIdx.filter fun p => (declared p.1).isNone).map fun p =>
      issue (.topology .unknownLoopMember)
        ("loop group " ++ quote group.id ++ " names " ++ describeValue p.1 ++
          " as a member, which is not a declared node id")
        ("loop_groups." ++ group.id ++ ".nodes[" ++ toString p.2 ++ "]"),
    distinct (group.nodes.filterMap declared)⟩

def readRouteOutcome (raw : Option Json) (path label : String) : Reported (Option String) :=
  match raw.bind Json.text? with
  | some outcome => ⟨[], some outcome⟩
  | none =>
    ⟨[issue .malformedDeclaration
        (label ++ " outcome at " ++ path ++ " is " ++ describeField raw ++
          ", not a non-empty outcome id") path], none⟩

def positiveSafeInteger? (raw : Option Json) : Option Nat :=
  (raw.bind Json.safeNat?).filter (0 < ·)

def readProgressPolicy (raw : Json) : Option CompiledProgressPolicy := do
  let evaluator ← (raw.field? "evaluator").bind Json.text?
  let version ← positiveSafeInteger? (raw.field? "version")
  let subject ← (raw.field? "subject").bind Json.text?
  let maxUnchanged ← positiveSafeInteger? (raw.field? "max_unchanged")
  return {
    evaluator := evaluator
    version := version
    subject := subject
    maxUnchanged := maxUnchanged }

def compileProgressPolicy (raw : Option Json) (path : String) :
    Reported (Option CompiledProgressPolicy) :=
  match raw with
  | none => ⟨[], none⟩
  | some value =>
    match readProgressPolicy value with
    | some policy => ⟨[], some policy⟩
    | none =>
      ⟨[issue (.topology .malformedProgressPolicy)
          ("progress policy at " ++ path ++ " is not \x7b evaluator, version, subject, " ++
            "max_unchanged \x7d with a non-empty evaluator and subject, a positive safe integer " ++
            "version and a positive safe integer max_unchanged") path], none⟩

def membersDeclareOutcome (nodes : List NodeDeclarationV3) (members : List String)
    (outcome : String) : Bool :=
  members.any fun member =>
    (nodes.find? (·.id = member)).any fun node => outcome ∈ declaredOutcomeIds node

def undeclaredLoopOutcome (nodes : List NodeDeclarationV3) (group : LoopGroupDeclarationV3)
    (members : List String) (outcome : Option String) (label field : String)
    (code : CompiledTopologyIssueCode) : List CompileIssue :=
  match outcome with
  | none => []
  | some outcome =>
    if membersDeclareOutcome nodes members outcome then []
    else
      [issue (.topology code)
        (label ++ " outcome " ++ quote outcome ++
          " is not declared by any member of loop group " ++ quote group.id)
        ("loop_groups." ++ group.id ++ "." ++ field)]

def continuationOutside (edges : List EdgeReading) (group : LoopGroupDeclarationV3)
    (members : List String) (continuation : Option String) : List CompileIssue :=
  match continuation with
  | none => []
  | some continuation =>
    (edges.filter fun edge => edge.outcome = some continuation ∧ edge.from ∈ members ∧
      edge.to ∉ members).map fun edge =>
        issue .loopContinuationOutsideGroup
          ("edge " ++ toString edge.index ++ " carries continuation outcome " ++
            quote continuation ++ " of loop group " ++ quote group.id ++ " to " ++
            quote edge.to ++ ", outside the group") ("edges[" ++ toString edge.index ++ "]")

def compileLoopGroup (nodes : List NodeDeclarationV3) (edges : List EdgeReading)
    (group : LoopGroupDeclarationV3) : Reported CompiledLoopGroup :=
  let path := "loop_groups." ++ group.id
  let limit := positiveSafeInteger? group.maxTraversals
  let members := readMembers nodes group
  let continuation := readRouteOutcome group.continuationOutcome
    (path ++ ".continuation_outcome") "continuation"
  let exit := readRouteOutcome group.exitOutcome (path ++ ".exit_outcome") "exit"
  let progress := compileProgressPolicy group.progress (path ++ ".progress")
  ⟨(match limit with
      | some _ => []
      | none =>
        [issue (.topology .loopGroupMissingLimits)
          ("loop group " ++ quote group.id ++
            " needs max_traversals as a positive safe integer, received " ++
            describeField group.maxTraversals) path]) ++
    members.errors ++ continuation.errors ++ exit.errors ++ progress.errors ++
    undeclaredLoopOutcome nodes group members.value continuation.value "continuation"
      "continuation_outcome" .unknownLoopContinuationOutcome ++
    undeclaredLoopOutcome nodes group members.value exit.value "exit" "exit_outcome"
      .unknownLoopExitOutcome ++
    continuationOutside edges group members.value continuation.value,
    { id := group.id
      nodes := sortText members.value
      maxTraversals := limit.getD 0
      continuationOutcome := continuation.value.getD ""
      exitOutcome := exit.value.getD ""
      progress := progress.value }⟩

def indexedGroups (groups : List LoopGroupDeclarationV3) : List LoopGroupDeclarationV3 :=
  (sortText (distinct (groups.map (·.id)))).filterMap fun id => groups.find? (·.id = id)

def compileLoopGroups (nodes : List NodeDeclarationV3) (edges : List EdgeReading)
    (groups : List LoopGroupDeclarationV3) : Reported (List CompiledLoopGroup) :=
  let readings := (indexedGroups groups).map (compileLoopGroup nodes edges)
  ⟨duplicateLoopGroups groups ++ readings.flatMap (·.errors), readings.map (·.value)⟩

def dispatchPass (plan : JoinTopology) (targetId : String) (runnable : List String) : List String :=
  plan.nodes.foldl (fun runnable candidate =>
    if candidate.id = targetId ∨ candidate.id ∈ runnable then runnable
    else if (plan.edges.any fun edge =>
        edge.to = candidate.id ∧ edge.from ≠ targetId ∧ edge.from ∈ runnable) &&
        joinSatisfiedBy candidate runnable (plan.feederSourcesOf candidate.id) then
      runnable ++ [candidate.id]
    else runnable) runnable

/-- The nodes the plan can dispatch while `targetId` never runs. -/
def dispatchableBefore (plan : JoinTopology) (targetId : String) : List String :=
  saturate (dispatchPass plan targetId) (plan.nodes.length + 1)
    (distinct ((plan.entryNodesOf.map (·.id)).filter (· ≠ targetId)))

def unsatisfiableJoin (plan : JoinTopology) (node : CompiledNode) : List CompileIssue :=
  let feeders := plan.feederSourcesOf node.id
  let runnable := dispatchableBefore plan node.id
  if node.id ∈ plan.entryNodesOf.map (·.id) ∨ feeders = [] ∨
      joinSatisfiedBy node runnable feeders then []
  else
    (feeders.filter (· ∉ runnable)).map fun feeder =>
      issue .unsatisfiableJoin
        ("node " ++ quote node.id ++ " waits for the accepted result of " ++ quote feeder ++
          ", but no declared edge reaches that node on a path from the entry node(s) [" ++
          joinWith ", " (plan.entryNodesOf.map (·.id)) ++ "] once " ++ quote node.id ++
          " itself is excluded — the feeder can only run AFTER this node, so its arrival can " ++
          "never come and the join can never be satisfied; a loop continuation edge (the " ++
          "group's back-edge) is not a feeder, and a consumer's join must be satisfied by " ++
          "nodes the graph can dispatch first") (nodePath node.id ++ ".inputs")

def unsatisfiableJoinsOf (plan : JoinTopology) : List CompileIssue :=
  plan.nodes.flatMap (unsatisfiableJoin plan)

inductive CompileResult where
  | executable (plan : CompiledPlan)
  | draft (plan : CompiledPlan) (unresolved : List CompiledUnresolvedRequirement)
      (unauthorizedCompletions : List CompiledUnauthorizedCompletion)
  | failed (errors : List CompileIssue)

def readGraphCompletionPolicyRequest (raw : Option Json) :
    Reported (Option CompletionPolicyRequest) :=
  readOptional raw
    (fun value =>
      ((value.field? "id").bind Json.text?).bind fun id =>
        ((value.field? "revision").bind Json.text?).map fun revision =>
          { id := id, revision := revision })
    ("completion_policy is not \x7b id, revision \x7d of non-empty strings — a " ++
      "completion-policy request names an exact policy revision and carries no rules of its own")
    "completion_policy"

def readCompletionPolicyRequest (options : CompileOptions)
    (request : Option CompletionPolicyRequest) : GraphCompletionPolicyReading :=
  match request with
  | none => .absent
  | some request =>
    match options.completionPolicies with
    | none => .unavailable
    | some registry =>
      match resolveCompletionPolicy request registry with
      | .resolved snapshot => .resolved snapshot
      | .unknownPolicy => .unknown
      | .unknownRevision => .unknownRevision

def usedPoliciesOf (compiled : List NodeCompilation) : List (String × CompletionPolicySnapshot) :=
  (compiled.flatMap (·.grant.usedPolicies)).foldl
    (fun used snapshot => assign snapshot.ref.digest snapshot used) []

def snapshotIndex {α : Type} (snapshots : List (String × α)) : PlainObject α :=
  (sortBy (·.1) snapshots).foldl (fun index p => index.set p.1 p.2) .empty

def completionPolicyIdentityIndex (used : List CompletionPolicySnapshot) : IdentityIndex :=
  used.foldl (fun identities snapshot =>
    assign snapshot.ref.id
      (assign snapshot.ref.revision snapshot.ref.digest
        ((identities.lookup snapshot.ref.id).getD [])) identities) []

def sortUnauthorized (entries : List CompiledUnauthorizedCompletion) :
    List CompiledUnauthorizedCompletion :=
  entries.insertionSort (thenBy (byText (·.nodeId)) (byText (·.outcome)))

def executabilityOf (unresolved : List CompiledUnresolvedRequirement)
    (unauthorized : List CompiledUnauthorizedCompletion) : CompiledPlanExecutability :=
  if unresolved = [] ∧ unauthorized = [] then .executable
  else .draft unresolved (sortUnauthorized unauthorized)

def planBodyOf (graphId : String) (budget : Option RunBudgetSpec)
    (compiled : List NodeCompilation) (bindings : ContractBindings) (edges : List CompiledEdge)
    (loopGroups : List CompiledLoopGroup) : CompiledPlanBody :=
  let nodes := compiled.map (·.node)
  let used := usedPoliciesOf compiled
  { nodes := nodes
    edges := edges
    loopGroups := loopGroups
    graphId := graphId
    budget := budget
    contractSnapshots := snapshotIndex bindings.snapshots
    contractIdentities := bindings.identities
    completionPolicySnapshots := snapshotIndex (used.map fun p => (p.1, p.2.body))
    completionPolicyIdentities := completionPolicyIdentityIndex (used.map (·.2))
    completionAuthorizations := sortBy (·.nodeId) (compiled.flatMap (·.grant.authorizations))
    terminalOutcomes := terminalOutcomesOf nodes edges
    executability := executabilityOf (compiled.flatMap (·.unresolved))
      (compiled.flatMap (·.grant.unauthorized)) }

def readPlanBody (host : DigestHost) (declaration : GraphDeclarationV3)
    (options : CompileOptions) : Reported CompiledPlanBody :=
  let budget : Reported (Option RunBudgetSpec) :=
    match declaration.budget.map readRunBudget with
    | none => ⟨[], none⟩
    | some (.ok budget) => ⟨[], some budget⟩
    | some (.error text) => ⟨[issue .malformedDeclaration text "$.budget"], none⟩
  let nodes := indexedNodes declaration
  let edges := readEdges declaration
  let request := readGraphCompletionPolicyRequest declaration.completionPolicy
  let context : CompletionPolicyContext :=
    { graphId := declaration.name
      request := request.value
      reading := readCompletionPolicyRequest options request.value }
  let compiled := compileNodes host options context nodes ⟨[], []⟩ nodes
  let compiledEdges := compileEdges nodes edges
  let loopGroups := compileLoopGroups nodes edges (declaration.loopGroups.getD [])
  { errors :=
      budget.errors ++ duplicateNodes declaration ++ request.errors ++
        compiled.1.flatMap (·.errors) ++ compiledEdges.errors ++
        ((compiled.1.map (·.node)).flatMap fun node =>
          node.inputs.flatMap (inputIssues compiledEdges.value node)) ++
        loopGroups.errors
    value := planBodyOf declaration.name budget.value compiled.1 compiled.2 compiledEdges.value
      loopGroups.value }

def createCompiledPlan (host : DigestHost) (body : CompiledPlanBody) : Except String CompiledPlan :=
  (host.planDigest body).map fun planRevision => { body with planRevision := planRevision }

def succeeded (plan : CompiledPlan) : CompileResult :=
  match plan.executability with
  | .executable => .executable plan
  | .draft unresolved unauthorized => .draft plan unresolved unauthorized

def compileDeclaration (host : DigestHost) (declaration : GraphDeclarationV3)
    (options : CompileOptions) : Except String CompileResult :=
  let reading := readPlanBody host declaration options
  let inspection := inspectCompiledTopology host reading.value
  let unsatisfiable := unsatisfiableJoinsOf reading.value.toJoinTopology
  if reading.errors ≠ [] then .ok (.failed reading.errors)
  else if inspection ≠ [] then
    .ok (.failed (inspection.map fun found => issue (.topology found.code) found.message "$plan"))
  else if unsatisfiable ≠ [] then .ok (.failed unsatisfiable)
  else (createCompiledPlan host reading.value).map succeeded

def compileGraph (host : DigestHost) (declaration : Json) (options : CompileOptions) :
    CompileResult :=
  match readGraphDeclarationV3 declaration with
  | none =>
    .failed [issue .malformedDeclaration
      ("not a v3 graph declaration: expected \x7b version: 3, name, nodes: [...], " ++
        "edges: [...] \x7d with optional loop_groups") "$"]
  | some declaration =>
    match compileDeclaration host declaration options with
    | .ok result => result
    | .error text =>
      .failed [issue .malformedDeclaration
        ("compilation aborted while reading the declaration: " ++ text) "$"]

def plainNode (id : String) (outcomes : List String) (join : Option JoinConfig)
    (inputs : List CompiledInputRef) : CompiledNode :=
  { id := id
    agent := "agent"
    prompt := "prompt"
    outcomes := outcomes.map fun outcome => { id := outcome, data := none, acceptance := [] }
    completion := none
    contractRef := none
    join := join
    budget := none
    inputs := inputs
    tools := none
    toolPresentation := none }

def joinJson : JoinConfig → Json
  | .all => .obj [("strategy", .str "all")]
  | .any => .obj [("strategy", .str "any")]
  | .quorum count => .obj [("strategy", .str "quorum"), ("quorum", .num count)]

def inputJson (input : CompiledInputRef) : Json :=
  .obj ([("from", .str input.from), ("outcome", .str input.outcome)] ++
    if input.triggered then [("when", .str "triggered")] else [])

def nodeJson (node : CompiledNode) : Json :=
  .obj ([("id", .str node.id), ("agent", .str node.agent), ("prompt", .str node.prompt),
    ("outcomes", .arr (node.outcomes.map fun outcome => .obj [("id", .str outcome.id)]))] ++
    (node.join.map fun join => ("join", joinJson join)).toList ++
    if node.inputs = [] then [] else [("inputs", .arr (node.inputs.map inputJson))])

def edgeJson (edge : CompiledEdge) : Json :=
  .obj [("from", .str edge.from), ("to", .str edge.to), ("outcome", .str edge.outcome)]

def progressJson (policy : CompiledProgressPolicy) : Json :=
  .obj [("evaluator", .str policy.evaluator), ("version", .num policy.version),
    ("subject", .str policy.subject), ("max_unchanged", .num policy.maxUnchanged)]

def loopGroupJson (group : CompiledLoopGroup) : Json :=
  .obj ([("id", .str group.id), ("nodes", .arr (group.nodes.map .str)),
    ("max_traversals", .num group.maxTraversals),
    ("continuation_outcome", .str group.continuationOutcome),
    ("exit_outcome", .str group.exitOutcome)] ++
    (group.progress.map fun policy => ("progress", progressJson policy)).toList)

def declareTopology (graphId : String) (topology : JoinTopology) : Json :=
  .obj [("version", .num 3), ("name", .str graphId),
    ("nodes", .arr (topology.nodes.map nodeJson)), ("edges", .arr (topology.edges.map edgeJson)),
    ("loop_groups", .arr (topology.loopGroups.map loopGroupJson))]

def plainPlan (graphId planRevision : String) (topology : JoinTopology) : CompiledPlan :=
  { topology with
    graphId := graphId
    budget := none
    contractSnapshots := .empty
    contractIdentities := []
    completionPolicySnapshots := .empty
    completionPolicyIdentities := []
    completionAuthorizations := []
    terminalOutcomes := terminalOutcomesOf topology.nodes topology.edges
    executability := .executable
    planRevision := planRevision }

def plainOptions : CompileOptions :=
  { contracts := none
    supportedValidators := some []
    acceptanceCapabilities := none
    completionPolicies := none }

def plainHost (digest : String) : DigestHost :=
  { contractDigest := fun _ => .ok digest
    policyDigest := fun _ => .ok digest
    planDigest := fun _ => .ok digest }

end Rolebox.Graph
