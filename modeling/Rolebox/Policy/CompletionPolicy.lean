import Rolebox.General.Separated
import Rolebox.Graph.CanonicalText

/-! Completion policies: their reader, their registry, and loading the authorized ones. -/

namespace Rolebox.Policy
open General JsValue

structure CompletionPolicyMapping where
  graphId : JsText
  nodeId : JsText
  outcome : JsText
  deriving DecidableEq

inductive Decision where
  | allow
  | deny
  deriving DecidableEq

structure CompletionPolicyRule extends CompletionPolicyMapping where
  decision : Decision

inductive CompletionPolicyFallback where
  | deny
  | ungranted
  deriving DecidableEq

structure CompletionPolicyBody where
  fallback : CompletionPolicyFallback
  rules : List CompletionPolicyRule

def text (s : String) : JsText := JsText.ofText s.toList

def COMPLETION_POLICY_VERSION : Double :=
  { negative := false, place := 0x3ff0000000000000, finite := by decide }

def nul : CodeUnit := 0

def identityKey (id revision : JsText) : JsText := joinAt nul id revision

def splitIdentity (identity : JsText) : Option (JsText × JsText) := cutAt nul identity

def mappingKey (mapping : CompletionPolicyMapping) : JsText :=
  joinAt nul mapping.graphId (joinAt nul mapping.nodeId mapping.outcome)

def field (fields : List (JsText × JsValue)) (key : String) : JsValue :=
  (fields.lookup (text key)).getD (.other .undefined)

def nonEmptyString : JsValue → Option JsText
  | .str s => if s = [] then none else some s
  | _ => none

def hasExactKeys (fields : List (JsText × JsValue)) (keys : List String) : Bool :=
  fields.length = keys.length && keys.all fun key => (fields.map Prod.fst).contains (text key)

def readDecision : JsValue → Option Decision
  | .str s => if s = text "allow" then some .allow else if s = text "deny" then some .deny else none
  | _ => none

def readFallback : JsValue → Option CompletionPolicyFallback
  | .str s =>
    if s = text "deny" then some .deny else if s = text "ungranted" then some .ungranted else none
  | _ => none

def readRule : JsValue → Option CompletionPolicyRule
  | .obj fields => do
    if hasExactKeys fields ["graphId", "nodeId", "outcome", "decision"] then
      let graphId ← nonEmptyString (field fields "graphId")
      let nodeId ← nonEmptyString (field fields "nodeId")
      let outcome ← nonEmptyString (field fields "outcome")
      let decision ← readDecision (field fields "decision")
      return { graphId := graphId, nodeId := nodeId, outcome := outcome, decision := decision }
    else none
  | _ => none

def readRules (seen : List JsText) (rules : List CompletionPolicyRule) :
    List JsValue → Option (List CompletionPolicyRule)
  | [] => some rules
  | entry :: entries => do
    let rule ← readRule entry
    let key := mappingKey rule.toCompletionPolicyMapping
    if key ∈ seen then none else readRules (key :: seen) (rules ++ [rule]) entries

/-- The reader of a policy body, over the one of its list of rules. -/
def readBodyWith (rulesOf : List JsValue → Option (List CompletionPolicyRule)) :
    JsValue → Option CompletionPolicyBody
  | .obj fields =>
    if hasExactKeys fields ["version", "default", "rules"] then
      match field fields "version" with
      | .num version =>
        if version = COMPLETION_POLICY_VERSION then do
          let fallback ← readFallback (field fields "default")
          match field fields "rules" with
          | .arr entries => do
            let rules ← rulesOf entries
            return { fallback := fallback, rules := rules }
          | _ => none
        else none
      | _ => none
    else none
  | _ => none

def readCompletionPolicyBody : JsValue → Option CompletionPolicyBody :=
  readBodyWith (readRules [] [])

def Decision.value : Decision → JsValue
  | .allow => .str (text "allow")
  | .deny => .str (text "deny")

def CompletionPolicyFallback.value : CompletionPolicyFallback → JsValue
  | .deny => .str (text "deny")
  | .ungranted => .str (text "ungranted")

def CompletionPolicyRule.value (rule : CompletionPolicyRule) : JsValue :=
  .obj [(text "graphId", .str rule.graphId), (text "nodeId", .str rule.nodeId),
    (text "outcome", .str rule.outcome), (text "decision", rule.decision.value)]

def CompletionPolicyBody.value (body : CompletionPolicyBody) : JsValue :=
  .obj [(text "version", .num COMPLETION_POLICY_VERSION), (text "default", body.fallback.value),
    (text "rules", .arr (body.rules.map CompletionPolicyRule.value))]

section Registry

structure CompletionPolicyRequest where
  id : JsText
  revision : JsText
  deriving DecidableEq

structure CompletionPolicyRef extends CompletionPolicyRequest where
  digest : JsText
  deriving DecidableEq

structure CompletionPolicySnapshot where
  ref : CompletionPolicyRef
  body : CompletionPolicyBody

def describeCompletionPolicy (ref : CompletionPolicyRequest) : JsText :=
  JsText.ofText (JsText.quoted ref.id) ++ text "@" ++ JsText.ofText (JsText.quoted ref.revision)

def isCompletionPolicyRef (ref : CompletionPolicyRef) : Bool :=
  ref.id ≠ [] && ref.revision ≠ [] && ref.digest ≠ []

def notPolicyMessage : JsText :=
  text ("is not a version-1 completion policy (\x7b version, default: \"deny\" | " ++
    "\"ungranted\", rules \x7d)")

def malformedRefMessage : JsText :=
  text ("completion-policy: malformed policy ref — id, revision and digest must all be " ++
    "non-empty strings")

def duplicateMessage (ref : CompletionPolicyRequest) : JsText :=
  text "completion-policy: duplicate policy " ++ describeCompletionPolicy ref ++
    text " — one exact (id, revision) pair has exactly one declaration"

def declarationMessage (ref : CompletionPolicyRequest) (problem : JsText) : JsText :=
  text "completion-policy: declaration " ++ describeCompletionPolicy ref ++ text " " ++ problem

variable (sha256 : ByteArray → String)

def contractDigest (value : JsValue) : Except JsText JsText :=
  match Graph.Canonical.contractDigest sha256 value with
  | .error message => .error (text message)
  | .ok digest => .ok (text digest)

def installPolicies (seen : List CompletionPolicyRequest)
    (installed : List CompletionPolicySnapshot) :
    List CompletionPolicySnapshot → Except JsText (List CompletionPolicySnapshot)
  | [] => .ok installed
  | snapshot :: snapshots =>
    let ref := snapshot.ref
    if isCompletionPolicyRef ref then
      if ref.toCompletionPolicyRequest ∈ seen then
        .error (duplicateMessage ref.toCompletionPolicyRequest)
      else
        match readCompletionPolicyBody snapshot.body.value with
        | none => .error (declarationMessage ref.toCompletionPolicyRequest notPolicyMessage)
        | some body =>
          match contractDigest sha256 snapshot.body.value with
          | .error message =>
            .error (declarationMessage ref.toCompletionPolicyRequest
              (text "cannot be content-addressed: " ++ message))
          | .ok actual =>
            if actual = ref.digest then
              installPolicies (ref.toCompletionPolicyRequest :: seen)
                (installed ++ [{ ref := ref, body := body }]) snapshots
            else
              .error (declarationMessage ref.toCompletionPolicyRequest
                (text "declares digest " ++ ref.digest ++ text " but its body hashes to " ++
                  actual))
    else .error malformedRefMessage

def createCompletionPolicyRegistry (policies : List CompletionPolicySnapshot) :
    Except JsText (List CompletionPolicySnapshot) :=
  installPolicies sha256 [] [] policies

end Registry

section Loading

/-- What reading a value comes to: it is JSON-like data, or a read of one of its parts raises. -/
inductive RawBody where
  | value (v : JsValue)
  | raises (message : JsText)

/-- One value of a catalog; reading a field of it may raise. -/
inductive RawEntry where
  | notRecord
  | raises (message : JsText)
  | record (id revision : JsValue) (body : Except JsText RawBody)

inductive RawAuthorization where
  | notRecord
  | raises (message : JsText)
  | record (id revision digest : JsValue)

structure CompletionPolicyCatalogEntry extends CompletionPolicyRequest where
  body : RawBody

inductive CompletionPolicyLoadIssue where
  | malformedCatalogEntry (index : Nat) (message : JsText)
  | malformedAuthorization (index : Nat) (message : JsText)
  | conflictingAuthorization (identity : CompletionPolicyRequest) (digests : List JsText)
  | notAuthorized (identity : CompletionPolicyRequest)
  | catalogMissing (ref : CompletionPolicyRef)
  | malformedPolicy (ref : CompletionPolicyRef) (message : JsText)
  | digestMismatch (ref : CompletionPolicyRef) (actual : JsText)

/-- The identity a catalog value names, if it names one. -/
def RawEntry.identity : RawEntry → Option CompletionPolicyRequest
  | .record id revision _ => do
    let id ← nonEmptyString id
    let revision ← nonEmptyString revision
    return { id := id, revision := revision }
  | _ => none

def RawAuthorization.ref : RawAuthorization → Option CompletionPolicyRef
  | .record id revision digest => do
    let id ← nonEmptyString id
    let revision ← nonEmptyString revision
    let digest ← nonEmptyString digest
    return { id := id, revision := revision, digest := digest }
  | _ => none

def CompletionPolicyRequest.key (request : CompletionPolicyRequest) : JsText :=
  identityKey request.id request.revision

def malformedRead (message : JsText) : JsText := text "could not be read: " ++ message

def indexCatalog (index : Nat) (order : List CompletionPolicyCatalogEntry)
    (issues : List CompletionPolicyLoadIssue) :
    List RawEntry → List CompletionPolicyCatalogEntry × List CompletionPolicyLoadIssue
  | [] => (order, issues)
  | .notRecord :: entries =>
    indexCatalog (index + 1) order
      (issues ++
        [.malformedCatalogEntry index (text "is not a \x7b id, revision, body \x7d record")])
      entries
  | .raises message :: entries =>
    indexCatalog (index + 1) order
      (issues ++ [.malformedCatalogEntry index (malformedRead message)]) entries
  | .record id revision body :: entries =>
    match (RawEntry.record id revision body).identity with
    | none =>
      indexCatalog (index + 1) order
        (issues ++ [.malformedCatalogEntry index
          (text "does not declare non-empty string id and revision fields")]) entries
    | some identity =>
      if identity.key ∈ order.map fun entry => entry.toCompletionPolicyRequest.key then
        indexCatalog (index + 1) order
          (issues ++ [.malformedCatalogEntry index
            (text "repeats the identity " ++ describeCompletionPolicy identity ++
              text (" already offered by an earlier entry — one identity has one " ++
                "declaration"))]) entries
      else
        match body with
        | .error message =>
          indexCatalog (index + 1) order
            (issues ++ [.malformedCatalogEntry index (malformedRead message)]) entries
        | .ok body =>
          indexCatalog (index + 1) (order ++ [{ identity with body := body }]) issues entries

def groupAuthorizations (index : Nat) (digestsByIdentity : List (JsText × List JsText))
    (issues : List CompletionPolicyLoadIssue) :
    List RawAuthorization → List (JsText × List JsText) × List CompletionPolicyLoadIssue
  | [] => (digestsByIdentity, issues)
  | .raises message :: refs =>
    groupAuthorizations (index + 1) digestsByIdentity
      (issues ++ [.malformedAuthorization index (malformedRead message)]) refs
  | raw :: refs =>
    match raw.ref with
    | none =>
      groupAuthorizations (index + 1) digestsByIdentity
        (issues ++ [.malformedAuthorization index
          (text ("is not \x7b id, revision, digest \x7d of non-empty strings, so it names no " ++
            "policy"))]) refs
    | some ref =>
      let identity := ref.toCompletionPolicyRequest.key
      let digests := (digestsByIdentity.lookup identity).getD []
      groupAuthorizations (index + 1)
        (assign identity (if ref.digest ∈ digests then digests else digests ++ [ref.digest])
          digestsByIdentity) issues refs

variable (sha256 : ByteArray → String)

def readCatalogPolicy (entry : CompletionPolicyCatalogEntry) (ref : CompletionPolicyRef) :
    Except JsText (Except CompletionPolicyLoadIssue CompletionPolicySnapshot) :=
  match entry.body with
  | .raises message => .ok (.error (.malformedPolicy ref (malformedRead message)))
  | .value v =>
    match readCompletionPolicyBody v with
    | none => .ok (.error (.malformedPolicy ref notPolicyMessage))
    | some body =>
      match contractDigest sha256 body.value with
      | .error message => .error message
      | .ok actual =>
        if actual = ref.digest then .ok (.ok { ref := ref, body := body })
        else .ok (.error (.digestMismatch ref actual))

/-- What one authorized identity comes to. -/
def selectPolicy (catalog : List CompletionPolicyCatalogEntry)
    (digestsByIdentity : List (JsText × List JsText)) (identity : JsText) :
    Except JsText (Option (Except CompletionPolicyLoadIssue CompletionPolicySnapshot)) :=
  let digests := ((digestsByIdentity.lookup identity).getD []).insertionSort (· ≤ ·)
  match splitIdentity identity with
  | none => .ok none
  | some (id, revision) =>
    match digests with
    | [] => .ok none
    | [digest] =>
      let ref : CompletionPolicyRef := { id := id, revision := revision, digest := digest }
      match catalog.find? fun entry => entry.toCompletionPolicyRequest.key = identity with
      | none => .ok (some (.error (.catalogMissing ref)))
      | some entry => (readCatalogPolicy sha256 entry ref).map some
    | digests =>
      .ok (some (.error (.conflictingAuthorization { id := id, revision := revision } digests)))

def selectPolicies (catalog : List CompletionPolicyCatalogEntry)
    (digestsByIdentity : List (JsText × List JsText)) :
    List JsText → Except JsText (List CompletionPolicySnapshot × List CompletionPolicyLoadIssue)
  | [] => .ok ([], [])
  | identity :: identities => do
    let selected ← selectPolicy sha256 catalog digestsByIdentity identity
    let (snapshots, issues) ← selectPolicies catalog digestsByIdentity identities
    match selected with
    | none => return (snapshots, issues)
    | some (.error issue) => return (snapshots, issue :: issues)
    | some (.ok snapshot) => return (snapshot :: snapshots, issues)

structure CompletionPolicyLoadResult where
  policies : List CompletionPolicySnapshot
  issues : List CompletionPolicyLoadIssue

def loadCompletionPolicies (catalog : List RawEntry) (authorized : List RawAuthorization) :
    Except JsText CompletionPolicyLoadResult := do
  let (entries, catalogIssues) := indexCatalog 0 [] [] catalog
  let (digestsByIdentity, authorizationIssues) := groupAuthorizations 0 [] [] authorized
  let identities := (digestsByIdentity.map Prod.fst).insertionSort (· ≤ ·)
  let (snapshots, selectionIssues) ← selectPolicies sha256 entries digestsByIdentity identities
  let unauthorized := entries.filter fun entry =>
    !(digestsByIdentity.map Prod.fst).contains entry.toCompletionPolicyRequest.key
  let policies ← createCompletionPolicyRegistry sha256 snapshots
  return {
    policies := policies
    issues := catalogIssues ++ authorizationIssues ++ selectionIssues ++
      unauthorized.map fun entry => .notAuthorized entry.toCompletionPolicyRequest }

end Loading

end Rolebox.Policy
