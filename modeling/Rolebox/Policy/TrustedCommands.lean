import Rolebox.General.Grouping
import Rolebox.Hashline.Text
import Rolebox.Policy.PolicyBodies

/-! Trusted commands: their reader, one for each mapping, and what it installs. -/

namespace Rolebox.Policy
open General JsValue List

structure TrustedCommandBinding extends CompletionPolicyMapping where
  argv : List JsText
  cwd : JsText
  timeoutMs : Double
  expectExitCode : Double
  artifactRefs : List JsText
  deriving DecidableEq

def commandMappingKey (mapping : CompletionPolicyMapping) : JsText :=
  joinAt nul mapping.graphId (joinAt nul mapping.nodeId mapping.outcome)

def TrustedCommandBinding.key (binding : TrustedCommandBinding) : JsText :=
  commandMappingKey binding.toCompletionPolicyMapping

def token (s : JsText) : JsText := JsText.ofText (JsText.quoted s)

def describeMapping (mapping : CompletionPolicyMapping) : JsText :=
  text "graph " ++ token mapping.graphId ++ text " / node " ++ token mapping.nodeId ++
    text " / outcome " ++ token mapping.outcome

def isSafeInteger (x : Double) : Bool := x.value.den = 1 && |x.value| ≤ 2 ^ 53 - 1

def check (holds : Bool) (message : JsText) : Except JsText Unit :=
  if holds then .ok () else .error message

def assertCommandBinding (binding : TrustedCommandBinding) : Except JsText Unit := do
  let named (field : String) (value : JsText) :=
    check (value ≠ []) (text ("command-exit-validator: a trusted command binding needs a " ++
      "non-empty " ++ field ++ " identity"))
  let described (holds : Bool) (problem : String) :=
    check holds (text "command-exit-validator: " ++
      describeMapping binding.toCompletionPolicyMapping ++ text problem)
  named "graphId" binding.graphId
  named "nodeId" binding.nodeId
  named "outcome" binding.outcome
  described (binding.argv ≠ []) " has no argv — a command is a program and its arguments"
  described (binding.argv.all (· ≠ [])) " has an empty argv element"
  described (binding.cwd ≠ [])
    " has no working directory — the command's directory is part of the binding"
  described (isSafeInteger binding.timeoutMs && 0 < binding.timeoutMs.value)
    " needs a positive safe-integer timeout"
  described (isSafeInteger binding.expectExitCode) " needs an integer expected exit code"
  described (binding.artifactRefs ≠ []) (" names no artifact revision — a command gate must be " ++
    "bound to the artifacts it judges")
  described (binding.artifactRefs.all (· ≠ [])) " has an empty artifact reference"

structure CommandPolicyIssue where
  index : Nat
  message : JsText

structure TrustedCommandPolicyReading where
  bindings : List TrustedCommandBinding
  issues : List CommandPolicyIssue

structure Candidate where
  index : Nat
  binding : TrustedCommandBinding

def required {α : Type} (read : Option α) (message : String) : Except JsText α :=
  match read with
  | some a => .ok a
  | none => .error (text message)

def nonEmptyStrings : JsValue → Option (List JsText)
  | .arr items => if items = [] then none else items.mapM nonEmptyString
  | _ => none

def safeInteger : JsValue → Option Double
  | .num x => if isSafeInteger x then some x else none
  | _ => none

def readCommandBinding : JsValue → Except JsText TrustedCommandBinding
  | .obj fields => do
    let named := "a trusted command binding needs non-empty graph, node and outcome identities"
    let graphId ← required (nonEmptyString (field fields "graph")) named
    let nodeId ← required (nonEmptyString (field fields "node")) named
    let outcome ← required (nonEmptyString (field fields "outcome")) named
    let cwd ← required (nonEmptyString (field fields "cwd"))
      "a trusted command binding needs a working directory (cwd)"
    let argv ← required (nonEmptyStrings (field fields "argv"))
      "argv must be a non-empty array of non-empty strings"
    let timeoutMs ← required ((safeInteger (field fields "timeout_ms")).filter (0 < ·.value))
      "timeout_ms must be a positive safe integer"
    let expectExitCode ← required (safeInteger (field fields "expect_exit_code"))
      "expect_exit_code must be a safe integer"
    let artifactRefs ← required (nonEmptyStrings (field fields "artifact_refs"))
      "artifact_refs must name at least one non-empty artifact the command is bound to"
    let binding : TrustedCommandBinding :=
      { graphId := graphId, nodeId := nodeId, outcome := outcome, argv := argv, cwd := cwd
        timeoutMs := timeoutMs, expectExitCode := expectExitCode, artifactRefs := artifactRefs }
    assertCommandBinding binding
    return binding
  | _ => .error (text "a trusted command binding is not a record")

def readCommandBindings (index : Nat) : List JsValue → List Candidate × List CommandPolicyIssue
  | [] => ([], [])
  | entry :: entries =>
    let rest := readCommandBindings (index + 1) entries
    match readCommandBinding entry with
    | .ok binding => ({ index := index, binding := binding } :: rest.1, rest.2)
    | .error message => (rest.1, { index := index, message := message } :: rest.2)

def ambiguousIssues (group : List Candidate) : List CommandPolicyIssue :=
  let positions := ", ".intercalate (group.map fun candidate => toString candidate.index)
  group.map fun candidate =>
    { index := candidate.index
      message := text "mapping " ++
        describeMapping candidate.binding.toCompletionPolicyMapping ++
        text (" is authorized more than once (configured positions " ++ positions ++
          ") — an ambiguous mapping installs no command") }

def installCommands (entries : List JsValue) : TrustedCommandPolicyReading :=
  let read := readCommandBindings 0 entries
  let byMapping := read.1.foldl (addTo fun candidate => candidate.binding.key) []
  { bindings := byMapping.filterMap fun entry =>
      match entry.2 with
      | [only] => some only.binding
      | _ => none
    issues := (read.2 ++ byMapping.flatMap fun entry =>
      match entry.2 with
      | [_] => []
      | group => ambiguousIssues group).mergeSort fun left right => left.index ≤ right.index }

def trim (t : List Char) : List Char := Hashline.trimEnd (Hashline.trimStart t)

/-- Read the trusted command policy; `parseError` is what the language says of no JSON. -/
def readTrustedCommandPolicy (parseError : List Char → JsText) (t : Option (List Char)) :
    TrustedCommandPolicyReading :=
  let trimmed := trim (t.getD [])
  if trimmed = [] then { bindings := [], issues := [] }
  else
    match JsValue.parse trimmed with
    | none =>
      { bindings := []
        issues := [{ index := 0
                     message := text "the configured trusted command policy is not JSON (" ++
                       parseError trimmed ++ text ") — no command is authorized" }] }
    | some (.arr entries) => installCommands entries
    | some _ =>
      { bindings := []
        issues := [{ index := 0
                     message := text ("the configured trusted command policy is not an array of " ++
                       "bindings — no command is authorized") }] }

section Installing
variable {entries : List JsValue} {binding : TrustedCommandBinding}

def wellFormed (entries : List JsValue) : List TrustedCommandBinding :=
  entries.filterMap fun entry => (readCommandBinding entry).toOption

def configured (t : Option (List Char)) : List JsValue :=
  match JsValue.parse (trim (t.getD [])) with
  | some (.arr entries) => entries
  | _ => []

theorem readCommandBindings_bindings (index : Nat) (entries : List JsValue) :
    (readCommandBindings index entries).1.map Candidate.binding = wellFormed entries := by
  induction entries generalizing index with
  | nil => rfl
  | cons entry entries ih =>
    unfold readCommandBindings wellFormed
    cases hread : readCommandBinding entry with
    | ok binding =>
      rw [filterMap_cons_some (by rw [hread]; rfl)]
      simp only [map_cons]
      rw [ih]
      rfl
    | error message =>
      rw [filterMap_cons_none (by rw [hread]; rfl)]
      exact ih (index + 1)

theorem readCommandBinding_asserted {entry : JsValue}
    (h : readCommandBinding entry = .ok binding) : assertCommandBinding binding = .ok () := by
  cases entry with
  | obj fields =>
    simp only [readCommandBinding, bind_eq_ok] at h
    obtain ⟨_, -, _, -, _, -, _, -, _, -, _, -, _, -, _, -, _, hassert, h⟩ := h
    cases h
    exact hassert
  | _ => cases h

theorem wellFormed_asserted (h : binding ∈ wellFormed entries) :
    assertCommandBinding binding = .ok () := by
  obtain ⟨entry, -, hread⟩ := mem_filterMap.1 h
  exact readCommandBinding_asserted (toOption_eq_some.1 hread)

theorem installCommands_bindings (entries : List JsValue) :
    (installCommands entries).bindings =
      (distinct ((wellFormed entries).map TrustedCommandBinding.key)).filterMap fun key =>
        match (wellFormed entries).filter fun b => decide (b.key = key) with
        | [only] => some only
        | _ => none := by
  have hkeys : (readCommandBindings 0 entries).1.map (fun candidate => candidate.binding.key) =
      (wellFormed entries).map TrustedCommandBinding.key := by
    rw [← readCommandBindings_bindings 0 entries, map_map]
    rfl
  have hgroup : ∀ key, (wellFormed entries).filter (fun b => decide (b.key = key)) =
      ((readCommandBindings 0 entries).1.filter
        fun candidate => decide (candidate.binding.key = key)).map Candidate.binding := by
    intro key
    rw [← readCommandBindings_bindings 0 entries, filter_map]
    rfl
  unfold installCommands
  simp only [foldl_addTo, hkeys, filterMap_map]
  apply filterMap_congr
  intro key _
  rw [hgroup key]
  simp only [Function.comp_apply]
  cases hmembers : (readCommandBindings 0 entries).1.filter
      (fun candidate => decide (candidate.binding.key = key)) with
  | nil => rfl
  | cons first others =>
    cases others with
    | nil => rfl
    | cons second others => rfl

theorem mem_installed :
    binding ∈ (installCommands entries).bindings ↔
      (wellFormed entries).filter (fun b => decide (b.key = binding.key)) = [binding] := by
  rw [installCommands_bindings, mem_filterMap]
  constructor
  · rintro ⟨key, -, honly⟩
    split at honly
    · next only hgroup =>
      obtain rfl := Option.some.inj honly
      have hmem : only ∈ (wellFormed entries).filter fun b => decide (b.key = key) := by
        rw [hgroup]
        exact mem_singleton_self _
      have hkey : only.key = key := of_decide_eq_true (mem_filter.1 hmem).2
      rw [hkey]
      exact hgroup
    · cases honly
  · intro hgroup
    have hmem : binding ∈ (wellFormed entries).filter fun b => decide (b.key = binding.key) := by
      rw [hgroup]
      exact mem_singleton_self _
    refine ⟨binding.key, ?_, ?_⟩
    · exact mem_distinct.2 (mem_map_of_mem (mem_filter.1 hmem).1)
    · rw [hgroup]

theorem installed_wellFormed (h : binding ∈ (installCommands entries).bindings) :
    binding ∈ wellFormed entries := by
  have hmem : binding ∈ (wellFormed entries).filter fun b => decide (b.key = binding.key) := by
    rw [mem_installed.1 h]
    exact mem_singleton_self _
  exact (mem_filter.1 hmem).1

theorem installed_nodup (entries : List JsValue) :
    ((installCommands entries).bindings.map TrustedCommandBinding.key).Nodup := by
  rw [installCommands_bindings]
  refine Nodup.sublist ?_ (nodup_distinct ((wellFormed entries).map TrustedCommandBinding.key))
  have hkeep : ∀ keys : List JsText, ((keys.filterMap fun key =>
      match (wellFormed entries).filter fun b => decide (b.key = key) with
      | [only] => some only
      | _ => none).map TrustedCommandBinding.key).Sublist (keys.map id) := by
    intro keys
    apply map_filterMap_sublist
    intro key _ only honly
    split at honly
    · next first hgroup =>
      obtain rfl := Option.some.inj honly
      have hmem : first ∈ (wellFormed entries).filter fun b => decide (b.key = key) := by
        rw [hgroup]
        exact mem_singleton_self _
      exact of_decide_eq_true (mem_filter.1 hmem).2
    · cases honly
  have hsub := hkeep (distinct ((wellFormed entries).map TrustedCommandBinding.key))
  rwa [map_id] at hsub

theorem readTrustedCommandPolicy_bindings (parseError : List Char → JsText)
    (t : Option (List Char)) :
    (readTrustedCommandPolicy parseError t).bindings = (installCommands (configured t)).bindings := by
  unfold readTrustedCommandPolicy configured
  by_cases hempty : trim (t.getD []) = []
  · rw [if_pos hempty, hempty]
    rfl
  · rw [if_neg hempty]
    cases hparse : JsValue.parse (trim (t.getD [])) with
    | none => rfl
    | some v =>
      cases v with
      | arr items => rfl
      | _ => rfl

end Installing

end Rolebox.Policy
