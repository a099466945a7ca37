import Rolebox.Graph.Compiler.Declaration
import Rolebox.Graph.Compiler.Topology

/-! Compiling one declared node: outcomes, acceptance, inputs, completion, contract and limits. -/

namespace Rolebox.Graph
open General

inductive CompileErrorCode where
  | topology (code : CompiledTopologyIssueCode)
  | malformedDeclaration
  | duplicateOutcomeId
  | unknownInputNode
  | unknownInputOutcome
  | selfReferentialInput
  | duplicateInput
  | inputNotUpstream
  | inputTriggerNotEdge
  | missingEdgeOutcome
  | naturalCompletionUnknownOutcome
  | duplicateNaturalCompletion
  | duplicateLoopGroupId
  | loopContinuationOutsideGroup
  | unresolvedContract
  | contractDigestMismatch
  | unsupportedValidator
  | completionPolicyDenied
  | unsatisfiableJoin
  deriving DecidableEq

structure CompileIssue where
  code : CompileErrorCode
  message : String
  path : String
  deriving DecidableEq

structure SupportedValidatorV3 where
  validator : String
  version : Option Rat

structure SchemaCapabilityIdentity where
  schema : String
  version : Rat

structure CommandMappingCapabilityIdentity where
  graphId : String
  nodeId : String
  outcome : String

structure AcceptanceCapabilitySet where
  approvalMappings : List (String × String)
  schemas : List SchemaCapabilityIdentity
  commandMappings : List CommandMappingCapabilityIdentity

structure CompileOptions where
  contracts : Option ContractRegistry
  supportedValidators : Option (List SupportedValidatorV3)
  acceptanceCapabilities : Option AcceptanceCapabilitySet
  completionPolicies : Option CompletionPolicyRegistry

structure Reported (α : Type) where
  errors : List CompileIssue
  value : α

def nodePath (id : String) : String := "nodes." ++ id

def issue (code : CompileErrorCode) (message path : String) : CompileIssue :=
  { code := code, message := message, path := path }

def describeField (raw : Option Json) : String :=
  match raw with
  | none => "undefined"
  | some value => describeValue value

def readValidatorVersion (version : Rat) : Option Nat :=
  (Json.num version).safeNat?.filter (0 < ·)

def readOutcomeData (raw : Json) : Option CompiledOutcomeData :=
  ((raw.field? "schema").bind Json.text?).bind fun schema =>
    match raw.field? "version" with
    | none => some { schema := schema, version := none }
    | some version => version.num?.map fun version => { schema := schema, version := some version }

def readAcceptanceRequirement (raw : Json) : Option CompiledAcceptanceRequirement :=
  ((raw.field? "validator").bind Json.text?).bind fun validator =>
    match raw.field? "version" with
    | none => some { validator := validator, version := none }
    | some version =>
      (version.num?.bind readValidatorVersion).map fun version =>
        { validator := validator, version := some version }

inductive ValidatorResolution where
  | resolved (version : Nat)
  | unpinned
  | unsupported
  | unreadable

def resolveValidatorCapability (requirement : CompiledAcceptanceRequirement) :
    Bool → List SupportedValidatorV3 → ValidatorResolution
  | coveredWithoutVersion, [] => if coveredWithoutVersion then .unpinned else .unsupported
  | coveredWithoutVersion, capability :: supported =>
    if capability.validator ≠ requirement.validator then
      resolveValidatorCapability requirement coveredWithoutVersion supported
    else
      match capability.version with
      | none => resolveValidatorCapability requirement true supported
      | some declared =>
        match readValidatorVersion declared with
        | none => .unreadable
        | some version =>
          if requirement.version = none ∨ requirement.version = some version then
            .resolved version
          else resolveValidatorCapability requirement coveredWithoutVersion supported

def describeValidator (requirement : CompiledAcceptanceRequirement) : String :=
  match requirement.version with
  | none => quote requirement.validator
  | some version => quote requirement.validator ++ " version " ++ toString version

structure RequirementSite where
  graphId : String
  nodeId : String
  outcomeId : String
  data : Option CompiledOutcomeData

def substantiatesSchema (capabilities : AcceptanceCapabilitySet) (data : CompiledOutcomeData) :
    Bool :=
  match data.version with
  | none => false
  | some version =>
    (readValidatorVersion version).isSome &&
      capabilities.schemas.any fun identity =>
        identity.schema = data.schema ∧ identity.version = version

def missingSchema (capabilities : AcceptanceCapabilitySet) :
    Option CompiledOutcomeData → Option String
  | none =>
    some ("the outcome declares no data contract, so a schema requirement has nothing to check " ++
      "— an undeclared contract is not a passing one")
  | some data =>
    if substantiatesSchema capabilities data then none
    else
      some ("schema " ++ quote data.schema ++
        (match data.version with
          | none => " is declared without an exact version"
          | some version => "@" ++ numberText version) ++ " is not installed in this host")

def missingConcreteCapability (capabilities : AcceptanceCapabilitySet) (validator : String)
    (site : RequirementSite) : Option String :=
  if validator = "principal-approval" ∧
      (site.graphId, site.nodeId) ∉ capabilities.approvalMappings then
    some "no installed approval policy authorizes approvers for this graph and node"
  else if validator = "schema" then missingSchema capabilities site.data
  else if validator = "command-exit" then
    if capabilities.commandMappings.any fun identity => identity.graphId = site.graphId ∧
        identity.nodeId = site.nodeId ∧ identity.outcome = site.outcomeId then none
    else
      some ("no trusted command policy authorizes a check for (" ++ site.graphId ++ ", " ++
        site.nodeId ++ ", " ++ site.outcomeId ++ ")")
  else none

/-- The requirements of one outcome, and those left unresolved. -/
structure AcceptanceReading where
  acceptance : List CompiledAcceptanceRequirement
  unresolved : List CompiledUnresolvedRequirement

def unresolvedAt (site : RequirementSite) (requirement : CompiledAcceptanceRequirement)
    (reason : Option String) : CompiledUnresolvedRequirement :=
  { nodeId := site.nodeId
    outcomeId := site.outcomeId
    validator := requirement.validator
    version := requirement.version
    reason := reason }

def resolveRequirement (options : CompileOptions) (site : RequirementSite) (path : String)
    (requirement : CompiledAcceptanceRequirement) : Reported AcceptanceReading :=
  match options.supportedValidators with
  | none => ⟨[], [requirement], [unresolvedAt site requirement none]⟩
  | some supported =>
    match resolveValidatorCapability requirement false supported with
    | .resolved version =>
      let pinned := { requirement with version := some version }
      let missing := options.acceptanceCapabilities.bind fun capabilities =>
        missingConcreteCapability capabilities requirement.validator site
      ⟨[], [pinned], (missing.map fun reason => unresolvedAt site pinned (some reason)).toList⟩
    | .unpinned =>
      ⟨[issue (.topology .unpinnedValidatorVersion)
          ("validator " ++ describeValidator requirement ++
            " is covered only by an unversioned capability — an executable plan pins every " ++
            "requirement to an exact installed version") path],
        [requirement], []⟩
    | .unreadable =>
      ⟨[issue (.topology .unpinnedValidatorVersion)
          ("validator " ++ describeValidator requirement ++
            " is declared at a version that is not a positive safe integer — a version is an " ++
            "exact identity, so an unreadable one can never pin a requirement") path],
        [requirement], []⟩
    | .unsupported =>
      ⟨[issue .unsupportedValidator
          ("validator " ++ describeValidator requirement ++
            " is not installed: no declared supported validator covers it") path],
        [requirement], []⟩

def readRequirement (options : CompileOptions) (site : RequirementSite) (base : String)
    (entry : Json × Nat) : Reported AcceptanceReading :=
  let path := base ++ "[" ++ toString entry.2 ++ "]"
  match readAcceptanceRequirement entry.1 with
  | none =>
    ⟨[issue .malformedDeclaration
        ("acceptance requirement at " ++ path ++ " is not \x7b validator, version? \x7d with " ++
          "a non-empty validator and a positive safe integer version") path],
      [], []⟩
  | some requirement => resolveRequirement options site path requirement

def readAcceptance (options : CompileOptions) (site : RequirementSite) (outcomePath : String)
    (raw : Option Json) : Reported AcceptanceReading :=
  let base := outcomePath ++ ".acceptance"
  match raw with
  | none => ⟨[], [], []⟩
  | some (.arr entries) =>
    let readings := entries.zipIdx.map (readRequirement options site base)
    ⟨readings.flatMap (·.errors), readings.flatMap (·.value.acceptance),
      readings.flatMap (·.value.unresolved)⟩
  | some _ =>
    ⟨[issue .malformedDeclaration
        ("acceptance at " ++ base ++ " is not an array of \x7b validator, version? \x7d") base],
      [], []⟩

structure OutcomesReading where
  outcomes : List CompiledOutcome
  unresolved : List CompiledUnresolvedRequirement

def readOutcomes (options : CompileOptions) (graphId nodeId : String) :
    List String → Nat → List Json → Reported OutcomesReading
  | _, _, [] => ⟨[], [], []⟩
  | seen, index, raw :: rest =>
    let path := nodePath nodeId ++ ".outcomes[" ++ toString index ++ "]"
    if raw.isRecord = false then
      let tail := readOutcomes options graphId nodeId seen (index + 1) rest
      ⟨issue .malformedDeclaration ("outcome at " ++ path ++ " is not an object") path ::
        tail.errors, tail.value⟩
    else
      match (raw.field? "id").bind Json.text? with
      | none =>
        let tail := readOutcomes options graphId nodeId seen (index + 1) rest
        ⟨issue .malformedDeclaration
          ("outcome at " ++ path ++ " has no non-empty string id") path :: tail.errors,
          tail.value⟩
      | some id =>
        if id ∈ seen then
          let tail := readOutcomes options graphId nodeId seen (index + 1) rest
          ⟨issue .duplicateOutcomeId
            ("outcome id " ++ quote id ++ " is declared twice on node " ++ quote nodeId ++
              " — one outcome id has exactly one declaration") path :: tail.errors,
            tail.value⟩
        else
          let data := (raw.field? "data").bind readOutcomeData
          let acceptance := readAcceptance options
            { graphId := graphId, nodeId := nodeId, outcomeId := id, data := data } path
            (raw.field? "acceptance")
          let tail := readOutcomes options graphId nodeId (seen ++ [id]) (index + 1) rest
          ⟨(if (raw.field? "data").isSome ∧ data = none then
              [issue .malformedDeclaration
                ("data contract at " ++ path ++ ".data is not \x7b schema, version? \x7d")
                (path ++ ".data")]
            else []) ++ acceptance.errors ++ tail.errors,
            { id := id, data := data, acceptance := acceptance.value.acceptance } ::
              tail.value.outcomes,
            acceptance.value.unresolved ++ tail.value.unresolved⟩

def compileOutcomes (options : CompileOptions) (graphId : String) (node : NodeDeclarationV3) :
    Reported OutcomesReading :=
  let reading := readOutcomes options graphId node.id [] 0 node.outcomes
  { reading with value := { reading.value with outcomes := sortBy (·.id) reading.value.outcomes } }

def declaredOutcomeIds (node : NodeDeclarationV3) : List String :=
  node.outcomes.filterMap fun raw => (raw.field? "id").bind Json.text?

/-- Why one declared input is refused, or the reference it compiles to. -/
def readInputEntry (nodes : List NodeDeclarationV3) (nodeId entryPath : String)
    (seen : List String) (entry : Json) : Except CompileIssue CompiledInputRef :=
  if entry.isRecord = false then
    .error (issue .malformedDeclaration ("input at " ++ entryPath ++ " is not an object") entryPath)
  else if (entry.field? "when").any fun w => w.str? ≠ some "triggered" then
    .error (issue .malformedDeclaration
      ("input at " ++ entryPath ++ ".when must be \"triggered\" when present")
      (entryPath ++ ".when"))
  else
    match (entry.field? "from").bind Json.text?, (entry.field? "outcome").bind Json.text? with
    | some source, some outcome =>
      if source = nodeId then
        .error (issue .selfReferentialInput
          ("node " ++ quote nodeId ++ " declares an input from itself at " ++ entryPath ++
            " — a node consumes the accepted result of an UPSTREAM node, never its own")
          entryPath)
      else
        match nodes.find? (·.id = source) with
        | none =>
          .error (issue .unknownInputNode
            ("input at " ++ entryPath ++ " names node " ++ quote source ++
              ", which this graph does not declare") entryPath)
        | some producer =>
          if outcome ∉ declaredOutcomeIds producer then
            .error (issue .unknownInputOutcome
              ("input at " ++ entryPath ++ " names outcome " ++ quote outcome ++
                ", which node " ++ quote source ++ " does not declare") entryPath)
          else if pairKey source outcome ∈ seen then
            .error (issue .duplicateInput
              ("input at " ++ entryPath ++ " repeats " ++ quote source ++ "/" ++ quote outcome ++
                " — one accepted result is consumed once") entryPath)
          else
            .ok
              { «from» := source, outcome := outcome, triggered := (entry.field? "when").isSome }
    | _, _ =>
      .error (issue .malformedDeclaration
        ("input at " ++ entryPath ++ " is not \x7b from, outcome \x7d with non-empty strings")
        entryPath)

def readInputs (nodes : List NodeDeclarationV3) (nodeId : String) :
    List String → Nat → List Json → Reported (List CompiledInputRef)
  | _, _, [] => ⟨[], []⟩
  | seen, index, entry :: rest =>
    let entryPath := nodePath nodeId ++ ".inputs[" ++ toString index ++ "]"
    match readInputEntry nodes nodeId entryPath seen entry with
    | .error refused =>
      let tail := readInputs nodes nodeId seen (index + 1) rest
      ⟨refused :: tail.errors, tail.value⟩
    | .ok ref =>
      let tail := readInputs nodes nodeId (seen ++ [pairKey ref.from ref.outcome]) (index + 1) rest
      ⟨tail.errors, ref :: tail.value⟩

inductive CompletionReading where
  | absent
  | explicit
  | natural (outcome : String)
  | duplicateNatural
  | invalid

def readCompletionRecord (raw : Json) : Option (Option String) :=
  if raw.isRecord = false then none
  else if (raw.field? "mode").bind Json.str? = some "explicit" then some none
  else if (raw.field? "mode").bind Json.str? = some "natural" then
    ((raw.field? "outcome").bind Json.text?).map some
  else none

def readCompletionPolicy (raw : Option Json) : CompletionReading :=
  match raw with
  | none => .absent
  | some (.arr candidates) =>
    match candidates.mapM readCompletionRecord with
    | none => .invalid
    | some claims => if 1 < (claims.filter Option.isSome).length then .duplicateNatural else .invalid
  | some value =>
    match readCompletionRecord value with
    | none => .invalid
    | some none => .explicit
    | some (some outcome) => .natural outcome

def toPlanCompletion : CompletionReading → Option CompiledCompletionPolicy
  | .explicit => some .explicit
  | .natural outcome => some (.natural outcome)
  | _ => none

inductive GraphCompletionPolicyReading where
  | absent
  | unavailable
  | unknown
  | unknownRevision
  | resolved (snapshot : CompletionPolicySnapshot)

structure CompletionPolicyContext where
  graphId : String
  request : Option CompletionPolicyRequest
  reading : GraphCompletionPolicyReading

structure CompletionGrant where
  authorizations : List CompiledCompletionAuthorization
  unauthorized : List CompiledUnauthorizedCompletion
  usedPolicies : List CompletionPolicySnapshot

def CompletionGrant.none : CompletionGrant :=
  { authorizations := [], unauthorized := [], usedPolicies := [] }

def ungranted (context : CompletionPolicyContext) (nodeId outcome : String)
    (code : CompletionAuthorizationIssueCode) : Reported CompletionGrant :=
  ⟨[], { CompletionGrant.none with
    unauthorized :=
      [{ nodeId := nodeId, outcome := outcome, code := code, request := context.request }] }⟩

def describeCompletionPolicy (ref : CompletionPolicyRef) : String :=
  quote ref.id ++ "@" ++ quote ref.revision

def authorizeCompletion (context : CompletionPolicyContext) (nodeId outcome : String) :
    Reported CompletionGrant :=
  match context.reading with
  | .absent => ungranted context nodeId outcome .policyUnavailable
  | .unavailable => ungranted context nodeId outcome .policyUnavailable
  | .unknown => ungranted context nodeId outcome .policyUnknown
  | .unknownRevision => ungranted context nodeId outcome .policyUnknownRevision
  | .resolved snapshot =>
    match decideCompletion snapshot.body context.graphId nodeId outcome with
    | .allowed =>
      ⟨[],
        { authorizations := [{ nodeId := nodeId, outcome := outcome, policy := snapshot.ref }]
          unauthorized := []
          usedPolicies := [snapshot] }⟩
    | .denied rule =>
      ⟨[issue .completionPolicyDenied
          ("natural completion of node " ++ quote nodeId ++ " maps to outcome " ++
            quote outcome ++ ", but completion policy " ++
            describeCompletionPolicy snapshot.ref ++ " (digest " ++ snapshot.ref.digest ++
            ") explicitly forbids it: " ++
            (match rule with
              | none => "its declared default denies every mapping it does not list"
              | some _ => "its rule for node " ++ quote nodeId ++ " / outcome " ++
                quote outcome ++ " denies the mapping"))
          (nodePath nodeId ++ ".completion")],
        CompletionGrant.none⟩
    | .undecided => ungranted context nodeId outcome .policyUngranted

def compileCompletion (context : CompletionPolicyContext) (nodeId : String)
    (outcomes : List CompiledOutcome) (reading : CompletionReading) : Reported CompletionGrant :=
  let path := nodePath nodeId ++ ".completion"
  match reading with
  | .invalid =>
    ⟨[issue .malformedDeclaration
        ("completion policy of node " ++ quote nodeId ++ " is not \x7b mode: \"explicit\" \x7d " ++
          "or \x7b mode: \"natural\", outcome \x7d") path],
      CompletionGrant.none⟩
  | .duplicateNatural =>
    ⟨[issue .duplicateNaturalCompletion
        ("node " ++ quote nodeId ++ " carries more than one natural-completion claim — a " ++
          "natural policy names exactly one outcome") path],
      CompletionGrant.none⟩
  | .natural outcome =>
    if outcomes.any (·.id = outcome) then authorizeCompletion context nodeId outcome
    else
      ⟨[issue .naturalCompletionUnknownOutcome
          ("natural completion of node " ++ quote nodeId ++ " names outcome " ++ quote outcome ++
            ", which the node does not declare") path],
        CompletionGrant.none⟩
  | .absent => ⟨[], CompletionGrant.none⟩
  | .explicit => ⟨[], CompletionGrant.none⟩

/-- The contract content and identities the nodes compiled so far use. -/
structure ContractBindings where
  snapshots : List (String × Json)
  identities : IdentityIndex

def describeRef (ref : ContractRef) : String := quote ref.id ++ "@" ++ quote ref.revision

def unresolvedContract (bindings : ContractBindings) (ref : ContractRef) (path rest : String) :
    Reported (Option ContractRef × ContractBindings) :=
  ⟨[issue .unresolvedContract ("contract " ++ describeRef ref ++ rest) path], none, bindings⟩

def pinContract (bindings : ContractBindings) (ref : ContractRef) (body : Json) (path : String) :
    Reported (Option ContractRef × ContractBindings) :=
  let snapshots :=
    if ref.digest ∈ bindings.snapshots.map (·.1) then bindings.snapshots
    else bindings.snapshots ++ [(ref.digest, body)]
  let revisions := (bindings.identities.lookup ref.id).getD []
  match (revisions.lookup ref.revision).filter (· ≠ ref.digest) with
  | some known =>
    ⟨[issue .contractDigestMismatch
        ("contract " ++ describeRef ref ++ " would rebind identity to content digest " ++
          ref.digest ++ " from " ++ known ++
          " — one exact (id, revision) identity has exactly one content digest") path],
      none, { bindings with snapshots := snapshots }⟩
  | none =>
    ⟨[], some ref,
      { snapshots := snapshots
        identities := assign ref.id (assign ref.revision ref.digest revisions)
          bindings.identities }⟩

def bindContract (host : DigestHost) (options : CompileOptions) (bindings : ContractBindings)
    (nodeId : String) (raw : Option Json) : Reported (Option ContractRef × ContractBindings) :=
  let path := nodePath nodeId ++ ".contractRef"
  match raw with
  | none => ⟨[], none, bindings⟩
  | some value =>
    match readContractRef value with
    | none =>
      ⟨[issue .malformedDeclaration
          ("contractRef at " ++ path ++ " is not \x7b id, revision, digest \x7d with non-empty " ++
            "strings") path],
        none, bindings⟩
    | some ref =>
      match options.contracts with
      | none =>
        unresolvedContract bindings ref path
          " cannot be resolved: no contract registry was supplied"
      | some registry =>
        match resolveContractRef host.contractDigest ref registry with
        | .error text =>
          unresolvedContract bindings ref path (" could not be resolved: " ++ text)
        | .ok (.unknownContract id) =>
          unresolvedContract bindings ref path
            (" is not installed: no contract with id " ++ quote id)
        | .ok (.unknownRevision _) =>
          unresolvedContract bindings ref path
            (" is not installed: id " ++ quote ref.id ++ " has no revision " ++
              quote ref.revision ++ " — a revision is an exact identifier, never a range")
        | .ok (.digestMismatch _ actual) =>
          ⟨[issue .contractDigestMismatch
              ("contract " ++ quote ref.id ++ "@" ++ quote ref.revision ++ " declares digest " ++
                ref.digest ++ " but the registered body hashes to " ++ actual) path],
            none, bindings⟩
        | .ok (.resolved snapshot) => pinContract bindings ref snapshot.body path

def readOptional {α : Type} (raw : Option Json) (read : Json → Option α) (message path : String) :
    Reported (Option α) :=
  match raw with
  | none => ⟨[], none⟩
  | some value =>
    match read value with
    | some a => ⟨[], some a⟩
    | none => ⟨[issue .malformedDeclaration message path], none⟩

def readDeclaredTools (raw : Option (List Json)) (path : String) :
    Reported (Option (List String)) :=
  match raw with
  | none => ⟨[], none⟩
  | some entries =>
    match entries.mapM fun entry => (entry.str?.map trim).filter (· ≠ "") with
    | none =>
      ⟨[issue .malformedDeclaration
          ("tools at " ++ path ++ " carries an entry that is not a non-blank host tool name")
          path], none⟩
    | some names => ⟨[], some (sortText (distinct names))⟩

def compileToolPresentation (raw : Option Json) (path : String) :
    Reported (Option WorkerToolPresentation) :=
  match raw with
  | none => ⟨[], none⟩
  | some value =>
    match readToolPresentation value with
    | .ok presentation => ⟨[], some presentation⟩
    | .error message => ⟨[issue .malformedDeclaration message path], none⟩

structure NodeCompilation where
  errors : List CompileIssue
  node : CompiledNode
  unresolved : List CompiledUnresolvedRequirement
  grant : CompletionGrant

def compileNode (host : DigestHost) (options : CompileOptions)
    (context : CompletionPolicyContext) (nodes : List NodeDeclarationV3)
    (bindings : ContractBindings) (node : NodeDeclarationV3) : NodeCompilation × ContractBindings :=
  let base := nodePath node.id
  let outcomes := compileOutcomes options context.graphId node
  let inputs := readInputs nodes node.id [] 0 (node.inputs.getD [])
  let completion := readCompletionPolicy node.completion
  let grant := compileCompletion context node.id outcomes.value.outcomes completion
  let contract := bindContract host options bindings node.id node.contractRef
  let join := readOptional node.join readJoin
    ("join of node " ++ quote node.id ++ " is not a JoinConfig: \x7b strategy: \"all\" | " ++
      "\"any\" \x7d or \x7b strategy: \"quorum\", quorum: N \x7d with a positive integer N")
    (base ++ ".join")
  let budget := readOptional node.budget readBudget
    ("budget of node " ++ quote node.id ++ " is invalid or unsupported; max_retries is " ++
      "unavailable until automatic retries are implemented")
    (base ++ ".budget")
  let tools := readDeclaredTools node.tools (base ++ ".tools")
  let presentation := compileToolPresentation node.toolPresentation (base ++ ".toolPresentation")
  ({ errors :=
       outcomes.errors ++ inputs.errors ++
        (if node.outcomes = [] then
          [issue (.topology .missingOutcomes)
            ("node " ++ quote node.id ++
              " declares no outcomes — a v3 node declares at least one") base]
        else []) ++
        grant.errors ++ contract.errors ++ join.errors ++ budget.errors ++ tools.errors ++
        presentation.errors
     node :=
      { id := node.id
        agent := node.agent
        prompt := node.prompt
        outcomes := outcomes.value.outcomes
        completion := toPlanCompletion completion
        contractRef := contract.value.1
        join := join.value
        budget := budget.value
        inputs := inputs.value
        tools := tools.value
        toolPresentation := presentation.value }
     unresolved := outcomes.value.unresolved
     grant := grant.value },
   contract.value.2)

def compileNodes (host : DigestHost) (options : CompileOptions)
    (context : CompletionPolicyContext) (nodes : List NodeDeclarationV3) :
    ContractBindings → List NodeDeclarationV3 → List NodeCompilation × ContractBindings
  | bindings, [] => ([], bindings)
  | bindings, node :: rest =>
    let first := compileNode host options context nodes bindings node
    let others := compileNodes host options context nodes first.2 rest
    (first.1 :: others.1, others.2)

end Rolebox.Graph
