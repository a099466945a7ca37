import Rolebox.Graph.Compiler.Compile
import Rolebox.Graph.ContractDigest

/-! The JSON content of a plan body, and the host that addresses it by `contractDigest`. -/

namespace Rolebox.Graph
open General

def optionalProperty {α : Type} (name : String) (toJson : α → Json) (value : Option α) :
    List (String × Json) :=
  (value.map fun a => (name, toJson a)).toList

def textsJson (texts : List String) : Json := .arr (texts.map .str)

def outcomeDataJson (data : CompiledOutcomeData) : Json :=
  .obj (("schema", .str data.schema) :: optionalProperty "version" .num data.version)

def requirementJson (requirement : CompiledAcceptanceRequirement) : Json :=
  .obj (("validator", .str requirement.validator) ::
    optionalProperty "version" (fun version => .num (version : Nat)) requirement.version)

def outcomeJson (outcome : CompiledOutcome) : Json :=
  .obj (("id", .str outcome.id) :: optionalProperty "data" outcomeDataJson outcome.data ++
    [("acceptance", .arr (outcome.acceptance.map requirementJson))])

def completionJson : CompiledCompletionPolicy → Json
  | .explicit => .obj [("mode", .str "explicit")]
  | .natural outcome => .obj [("mode", .str "natural"), ("outcome", .str outcome)]

def contractRefJson (ref : ContractRef) : Json :=
  .obj [("id", .str ref.id), ("revision", .str ref.revision), ("digest", .str ref.digest)]

def nodeBudgetJson (budget : NodeBudgetSpec) : Json :=
  .obj (optionalProperty "max_input_tokens" .num budget.maxInputTokens ++
    optionalProperty "max_output_tokens" .num budget.maxOutputTokens ++
    optionalProperty "max_cost_usd" .num budget.maxCostUsd ++
    optionalProperty "timeout_ms" .num budget.timeoutMs)

def toolModeText : WorkerToolMode → String
  | .native => "native"
  | .discover => "discover"
  | .code => "code"

def toolPresentationJson (presentation : WorkerToolPresentation) : Json :=
  .obj (("mode", .str (toolModeText presentation.mode)) ::
    optionalProperty "preload" textsJson presentation.preload)

def compiledNodeJson (node : CompiledNode) : Json :=
  .obj ([("id", .str node.id), ("agent", .str node.agent), ("prompt", .str node.prompt),
      ("outcomes", .arr (node.outcomes.map outcomeJson))] ++
    optionalProperty "completion" completionJson node.completion ++
    optionalProperty "contractRef" contractRefJson node.contractRef ++
    optionalProperty "join" joinJson node.join ++
    optionalProperty "budget" nodeBudgetJson node.budget ++
    optionalProperty "inputs" (fun inputs => .arr (inputs.map inputJson))
      (if node.inputs = [] then none else some node.inputs) ++
    optionalProperty "tools" textsJson node.tools ++
    optionalProperty "toolPresentation" toolPresentationJson node.toolPresentation)

def policyRuleJson (rule : CompletionPolicyRule) : Json :=
  .obj [("graphId", .str rule.graphId), ("nodeId", .str rule.nodeId),
    ("outcome", .str rule.outcome), ("decision", .str (if rule.allow then "allow" else "deny"))]

def fallbackText : CompletionPolicyFallback → String
  | .deny => "deny"
  | .ungranted => "ungranted"

def policyBodyJson (body : CompletionPolicyBody) : Json :=
  .obj [("version", .num 1), ("default", .str (fallbackText body.fallback)),
    ("rules", .arr (body.rules.map policyRuleJson))]

def policyRefJson (ref : CompletionPolicyRef) : Json :=
  .obj [("id", .str ref.id), ("revision", .str ref.revision), ("digest", .str ref.digest)]

def authorizationJson (entry : CompiledCompletionAuthorization) : Json :=
  .obj [("nodeId", .str entry.nodeId), ("outcome", .str entry.outcome),
    ("policy", policyRefJson entry.policy)]

def unresolvedJson (entry : CompiledUnresolvedRequirement) : Json :=
  .obj ([("nodeId", .str entry.nodeId), ("outcomeId", .str entry.outcomeId),
      ("validator", .str entry.validator)] ++
    optionalProperty "version" (fun version => .num (version : Nat)) entry.version ++
    optionalProperty "reason" .str entry.reason)

def completionIssueText : CompletionAuthorizationIssueCode → String
  | .policyUnavailable => "completion-policy-unavailable"
  | .policyUnknown => "completion-policy-unknown"
  | .policyUnknownRevision => "completion-policy-unknown-revision"
  | .policyUngranted => "completion-policy-ungranted"

def policyRequestJson (request : CompletionPolicyRequest) : Json :=
  .obj [("id", .str request.id), ("revision", .str request.revision)]

def unauthorizedJson (entry : CompiledUnauthorizedCompletion) : Json :=
  .obj ([("nodeId", .str entry.nodeId), ("outcome", .str entry.outcome),
      ("code", .str (completionIssueText entry.code))] ++
    optionalProperty "request" policyRequestJson entry.request)

def executabilityJson : CompiledPlanExecutability → Json
  | .executable => .obj [("kind", .str "executable")]
  | .draft unresolved unauthorized =>
    .obj [("kind", .str "draft"), ("unresolved", .arr (unresolved.map unresolvedJson)),
      ("unauthorizedCompletions", .arr (unauthorized.map unauthorizedJson))]

def contentJson (body : Json) : Json := .obj [("body", body)]

def snapshotsJson {α : Type} (toJson : α → Json) (snapshots : PlainObject α) : Json :=
  .obj (snapshots.own.map fun p => (p.1, toJson p.2))

def identitiesJson (identities : IdentityIndex) : Json :=
  .obj (identities.map fun p => (p.1, .obj (p.2.map fun q => (q.1, .str q.2))))

def terminalJson (entry : CompiledTerminalOutcome) : Json :=
  .obj [("nodeId", .str entry.nodeId), ("outcome", .str entry.outcome)]

def compiledProgressJson (policy : CompiledProgressPolicy) : Json :=
  .obj [("evaluator", .str policy.evaluator), ("version", .num policy.version),
    ("subject", .str policy.subject), ("maxUnchanged", .num policy.maxUnchanged)]

def compiledGroupJson (group : CompiledLoopGroup) : Json :=
  .obj ([("id", .str group.id), ("nodes", textsJson group.nodes),
      ("maxTraversals", .num group.maxTraversals),
      ("continuationOutcome", .str group.continuationOutcome),
      ("exitOutcome", .str group.exitOutcome)] ++
    optionalProperty "progress" compiledProgressJson group.progress)

def runBudgetJson (budget : RunBudgetSpec) : Json :=
  .obj (optionalProperty "max_executions" (fun count => .num (count : Nat)) budget.maxExecutions)

def planBodyFields (body : CompiledPlanBody) : List (String × Json) :=
  [("graphId", .str body.graphId), ("declarationVersion", .num 3)] ++
    optionalProperty "budget" runBudgetJson body.budget ++
    [("nodes", .arr (body.nodes.map compiledNodeJson)), ("edges", .arr (body.edges.map edgeJson)),
      ("loopGroups", .arr (body.loopGroups.map compiledGroupJson)),
      ("contractSnapshots", snapshotsJson contentJson body.contractSnapshots),
      ("contractIdentities", identitiesJson body.contractIdentities),
      ("completionPolicySnapshots", snapshotsJson policyBodyJson body.completionPolicySnapshots),
      ("completionPolicyIdentities", identitiesJson body.completionPolicyIdentities),
      ("completionAuthorizations", .arr (body.completionAuthorizations.map authorizationJson)),
      ("terminalOutcomes", .arr (body.terminalOutcomes.map terminalJson)),
      ("executability", executabilityJson body.executability)]

def planBodyJson (body : CompiledPlanBody) : Json := .obj (planBodyFields body)

def canonicalHost (sha256 : String → String) : DigestHost :=
  { contractDigest := contractDigest sha256
    policyDigest := fun body => contractDigest sha256 (policyBodyJson body)
    planDigest := fun body => contractDigest sha256 (planBodyJson body) }

end Rolebox.Graph
