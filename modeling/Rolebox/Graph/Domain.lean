import Rolebox.General.Json
import Rolebox.Graph.Text

/-! What a node may declare beside its outcomes, with the readers of the raw forms. -/

namespace Rolebox.Graph
open General

def numberText (q : Rat) : String :=
  match (List.range 21).find? fun k => q.den ∣ 10 ^ k with
  | none => toString q
  | some 0 => toString q.num
  | some k =>
    let scaled := (q * (10 ^ k : Nat)).num.natAbs
    let digits := Nat.toDigits 10 (scaled % 10 ^ k)
    (if q < 0 then "-" else "") ++ toString (scaled / 10 ^ k) ++ "." ++
      String.ofList (List.replicate (k - digits.length) '0' ++ digits)

def describeValue : Json → String
  | .null => "null"
  | .str s => quote s
  | .num q => numberText q
  | .bool b => if b then "true" else "false"
  | .arr _ => "an array"
  | .obj _ => "an object"

inductive JoinConfig where
  | all
  | any
  | quorum (count : Nat)
  deriving DecidableEq

def readJoin (raw : Json) : Option JoinConfig :=
  if (raw.field? "strategy").bind Json.str? = some "all" then some .all
  else if (raw.field? "strategy").bind Json.str? = some "any" then some .any
  else if (raw.field? "strategy").bind Json.str? = some "quorum" then
    ((raw.field? "quorum").bind Json.safeNat?).bind fun quorum =>
      if 0 < quorum then some (.quorum quorum) else none
  else none

structure RunBudgetSpec where
  maxExecutions : Option Nat

def readRunBudget (value : Json) : Except String RunBudgetSpec :=
  match value with
  | .obj fields =>
    match fields.find? (·.1 ≠ "max_executions") with
    | some (key, _) => .error ("Error: unsupported run budget field: " ++ key)
    | none =>
      match fields.lookup "max_executions" with
      | none => .ok { maxExecutions := none }
      | some count =>
        match count.safeNat? with
        | some count => .ok { maxExecutions := some count }
        | none => .error "Error: max_executions must be a non-negative safe integer"
  | _ => .error "Error: run budget must be an object"

structure NodeBudgetSpec where
  maxInputTokens : Option Rat
  maxOutputTokens : Option Rat
  maxCostUsd : Option Rat
  timeoutMs : Option Rat
  deriving DecidableEq

/-- The per-node budget keys the grammar authorizes; `max_retries` is refused by name. -/
def AUTHORIZED_BUDGET_KEYS : List String :=
  ["max_input_tokens", "max_output_tokens", "max_cost_usd", "timeout_ms"]

def readBudget (raw : Json) : Option NodeBudgetSpec :=
  match raw with
  | .obj fields =>
    if fields.all fun field =>
        field.1 ∈ AUTHORIZED_BUDGET_KEYS ∧ field.2.num?.any (0 ≤ ·) then
      some
        { maxInputTokens := (fields.lookup "max_input_tokens").bind Json.num?
          maxOutputTokens := (fields.lookup "max_output_tokens").bind Json.num?
          maxCostUsd := (fields.lookup "max_cost_usd").bind Json.num?
          timeoutMs := (fields.lookup "timeout_ms").bind Json.num? }
    else none
  | _ => none

inductive WorkerToolMode where
  | native
  | discover
  | code
  deriving DecidableEq

structure WorkerToolPresentation where
  mode : WorkerToolMode
  preload : Option (List String)
  deriving DecidableEq

/-- `trim`, over the white space of the basic Latin block. -/
def trim (s : String) : String :=
  let blank : Char → Bool := fun c => c.toNat = 32 ∨ (9 ≤ c.toNat ∧ c.toNat ≤ 13) ∨ c.toNat = 160
  String.ofList ((s.toList.dropWhile blank).reverse.dropWhile blank).reverse

def startsWith (s : String) (start : String) : Bool := start.toList.isPrefixOf s.toList

def isWorkerTaskTool (name : String) : Bool :=
  let canonical := if startsWith name "rb_" then String.ofList (name.toList.drop 3) else name
  !(["graph_", "team_", "dispatch_", "loop_"].any (startsWith canonical)) &&
    canonical ∉ ["dispatch", "task", "task_retry", "session_fork"]

def readWorkerToolMode (raw : Option Json) : Option WorkerToolMode :=
  match raw.bind Json.str? with
  | some "native" => some .native
  | some "discover" => some .discover
  | some "code" => some .code
  | _ => none

def readPreloadName (value : Json) : Option String :=
  value.str?.bind fun name =>
    if trim name = "" ∨ '*' ∈ name.toList ∨ startsWith (trim name) "graph_" then none
    else some (trim name)

def normalizeWorkerToolPresentation (value : Json) : Except String WorkerToolPresentation :=
  match value with
  | .obj fields =>
    match fields.find? fun field => field.1 ≠ "mode" ∧ field.1 ≠ "preload" with
    | some (key, _) => .error ("Unknown toolPresentation field: " ++ key)
    | none =>
      match readWorkerToolMode (fields.lookup "mode") with
      | none => .error "toolPresentation.mode must be native, discover or code"
      | some mode =>
        match fields.lookup "preload" with
        | none => .ok { mode := mode, preload := none }
        | some preload =>
          match preload.arr?.filter (·.length ≤ 32) with
          | none =>
            .error ("toolPresentation.preload must be an array of at most 32 exact host tool " ++
              "names")
          | some entries =>
            match entries.mapM readPreloadName with
            | none =>
              .error "toolPresentation.preload must contain exact, non-empty host tool names"
            | some names => .ok { mode := mode, preload := some (sortText (distinct names)) }
  | _ => .error "toolPresentation must be an object"

def readToolPresentation (value : Json) : Except String WorkerToolPresentation := do
  let presentation ← normalizeWorkerToolPresentation value
  match (presentation.preload.getD []).find? (isWorkerTaskTool · = false) with
  | some name => .error ("Preloaded tool " ++ quote name ++ " is not a task tool")
  | none => return presentation

structure ContractRef where
  id : String
  revision : String
  digest : String
  deriving DecidableEq

def readContractRef (value : Json) : Option ContractRef := do
  let id ← (value.field? "id").bind Json.text?
  let revision ← (value.field? "revision").bind Json.text?
  let digest ← (value.field? "digest").bind Json.text?
  return { id := id, revision := revision, digest := digest }

structure ContractSnapshot where
  ref : ContractRef
  body : Json

structure ContractRegistry where
  contracts : List ContractSnapshot

inductive ContractResolution where
  | resolved (snapshot : ContractSnapshot)
  | unknownContract (id : String)
  | unknownRevision (ref : ContractRef)
  | digestMismatch (ref : ContractRef) (actual : String)

def resolveContractRef (contractDigest : Json → Except String String) (ref : ContractRef)
    (registry : ContractRegistry) : Except String ContractResolution :=
  let forId := registry.contracts.filter (·.ref.id = ref.id)
  if forId = [] then .ok (.unknownContract ref.id)
  else
    match forId.find? (·.ref.revision = ref.revision) with
    | none => .ok (.unknownRevision ref)
    | some snapshot => do
      let actual ← contractDigest snapshot.body
      if actual ≠ ref.digest then .ok (.digestMismatch ref actual) else .ok (.resolved snapshot)

structure CompletionPolicyRequest where
  id : String
  revision : String
  deriving DecidableEq

structure CompletionPolicyRef where
  id : String
  revision : String
  digest : String

structure CompletionPolicyRule where
  graphId : String
  nodeId : String
  outcome : String
  allow : Bool

inductive CompletionPolicyFallback where
  | deny
  | ungranted

structure CompletionPolicyBody where
  fallback : CompletionPolicyFallback
  rules : List CompletionPolicyRule

structure CompletionPolicySnapshot where
  ref : CompletionPolicyRef
  body : CompletionPolicyBody

structure CompletionPolicyRegistry where
  policies : List CompletionPolicySnapshot

inductive CompletionPolicyResolution where
  | resolved (snapshot : CompletionPolicySnapshot)
  | unknownPolicy
  | unknownRevision

def resolveCompletionPolicy (request : CompletionPolicyRequest)
    (registry : CompletionPolicyRegistry) : CompletionPolicyResolution :=
  let forId := registry.policies.filter (·.ref.id = request.id)
  if forId = [] then .unknownPolicy
  else
    match forId.find? (·.ref.revision = request.revision) with
    | none => .unknownRevision
    | some snapshot => .resolved snapshot

inductive CompletionAuthorizationVerdict where
  | allowed
  | denied (rule : Option CompletionPolicyRule)
  | undecided

def decideCompletion (body : CompletionPolicyBody) (graphId nodeId outcome : String) :
    CompletionAuthorizationVerdict :=
  match body.rules.find? fun rule =>
      rule.graphId = graphId ∧ rule.nodeId = nodeId ∧ rule.outcome = outcome with
  | some rule => if rule.allow then .allowed else .denied (some rule)
  | none =>
    match body.fallback with
    | .deny => .denied none
    | .ungranted => .undecided

end Rolebox.Graph
