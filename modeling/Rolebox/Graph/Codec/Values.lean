import Rolebox.Graph.AttemptCredential
import Rolebox.Graph.Inputs
import Rolebox.Graph.Progress

/-! The persisted form of the values a state body is made of, with writers and readers. -/

namespace Rolebox.Graph
open General List

inductive OutcomeStateProblem where
  | statePlanMismatch
  | unsupportedStateVersion
  | malformedState

structure OutcomeStateError where
  problem : OutcomeStateProblem
  message : String

def malformedState (detail : String) : OutcomeStateError :=
  { problem := .malformedState
    message := "outcome-state: the persisted graph state is not the state this build writes: " ++
      detail }

def describeRead (value : Option Json) : String := (value.map describeValue).getD "undefined"

def natJson (n : Nat) : Json := .num n

def hasExactKeys (fields : List (String × Json)) (names : List String) : Bool :=
  fields.length = names.length ∧ fields.all fun field => field.1 ∈ names

def unknownField? (raw : Json) (defined : List String) : Option String :=
  ((raw.obj?.getD []).find? fun field => field.1 ∉ defined).map (·.1)

def HostInvocationIdentity.json (identity : HostInvocationIdentity) : Json :=
  .obj [("sessionId", .str identity.sessionId), ("agentId", .str identity.agentId)]

def readHostInvocationIdentity (raw : Json) : Option HostInvocationIdentity :=
  match raw with
  | .obj fields =>
    if hasExactKeys fields ["sessionId", "agentId"] then
      match (fields.lookup "sessionId").bind Json.text?, (fields.lookup "agentId").bind Json.text? with
      | some sessionId, some agentId => some { sessionId := sessionId, agentId := agentId }
      | _, _ => none
    else none
  | _ => none

/-- Both components are non-empty. -/
def HostInvocationIdentity.WellFormed (identity : HostInvocationIdentity) : Prop :=
  identity.sessionId ≠ "" ∧ identity.agentId ≠ ""

theorem readHostInvocationIdentity_json {identity : HostInvocationIdentity}
    (h : identity.WellFormed) : readHostInvocationIdentity identity.json = some identity := by
  have hsession := Json.text?_str h.1
  have hagent := Json.text?_str h.2
  have hkeys : hasExactKeys [("sessionId", Json.str identity.sessionId),
      ("agentId", .str identity.agentId)] ["sessionId", "agentId"] = true := by
    simp [hasExactKeys]
  simp only [HostInvocationIdentity.json, readHostInvocationIdentity, hkeys, if_true]
  simp [hsession, hagent, lookup_cons]

def AcceptedData.json : AcceptedData → Json
  | .absent => .obj [("kind", .str "absent")]
  | .value json => .obj [("kind", .str "value"), ("value", json)]

def AcceptedArtifact.json (artifact : AcceptedArtifact) : Json :=
  .obj
    [("ref", .str artifact.ref), ("artifactId", .str artifact.artifactId),
      ("digest", .str artifact.digest), ("size", natJson artifact.size)]

def ResolvedInput.json (input : ResolvedInput) : Json :=
  .obj
    [("from", .str input.from), ("outcome", .str input.outcome),
      ("attemptId", .str input.attemptId), ("payload", input.payload.json),
      ("artifacts", .arr (input.artifacts.map AcceptedArtifact.json))]

def acceptedDataForm : String :=
  "(\x7b\"kind\":\"absent\"\x7d or \x7b\"kind\":\"value\",\"value\":…\x7d)"

def readAcceptedData (raw : Option Json) (place : String) : Except String AcceptedData :=
  match raw with
  | some (.obj fields) =>
    let kind := fields.lookup "kind"
    if kind.bind Json.str? = some "absent" ∧ hasExactKeys fields ["kind"] then .ok .absent
    else if kind.bind Json.str? = some "value" ∧ hasExactKeys fields ["kind", "value"] then
      .ok (.value ((fields.lookup "value").getD .null))
    else
      .error (place ++ " carries keys [" ++ joinWith ", " (fields.map fun field => quote field.1) ++
        "] with kind " ++ describeRead kind ++
        ", not the accepted-data envelope this format writes " ++ acceptedDataForm)
  | other =>
    .error (place ++ " is " ++ describeRead other ++
      ", not the accepted-data envelope this format writes " ++ acceptedDataForm)

def ACCEPTED_ARTIFACT_KEYS : List String := ["ref", "artifactId", "digest", "size"]

def readAcceptedArtifact (raw : Json) (place : String) : Except String AcceptedArtifact :=
  match raw.obj?.filter (hasExactKeys · ACCEPTED_ARTIFACT_KEYS) with
  | none =>
    .error (place ++ " is " ++ describeValue raw ++ ", not the \x7b " ++
      joinWith ", " ACCEPTED_ARTIFACT_KEYS ++ " \x7d record an accepted artifact revision is")
  | some fields =>
    match (fields.lookup "ref").bind Json.text?, (fields.lookup "artifactId").bind Json.text?,
      (fields.lookup "digest").bind Json.text?, (fields.lookup "size").bind Json.safeNat? with
    | some ref, some artifactId, some digest, some size =>
      .ok { ref := ref, artifactId := artifactId, digest := digest, size := size }
    | _, _, _, _ =>
      .error (place ++ " carries a reference, identity, digest and size that are not a " ++
        "non-empty string triple and a non-negative size")

def RESOLVED_INPUT_KEYS : List String := ["from", "outcome", "attemptId", "payload", "artifacts"]

def readEach {α : Type} (read : Json → String → Except String α) (place : String) :
    Nat → List Json → Except String (List α)
  | _, [] => .ok []
  | index, raw :: rest => do
    let first ← read raw (place ++ "[" ++ toString index ++ "]")
    let others ← readEach read place (index + 1) rest
    return first :: others

def readOneResolvedInput (raw : Json) (place : String) : Except String ResolvedInput :=
  match raw.obj?.filter (hasExactKeys · RESOLVED_INPUT_KEYS) with
  | none =>
    .error (place ++ " is " ++ describeValue raw ++ ", not the \x7b " ++
      joinWith ", " RESOLVED_INPUT_KEYS ++ " \x7d record a bound input is")
  | some fields =>
    match (fields.lookup "from").bind Json.text?, (fields.lookup "outcome").bind Json.text?,
      (fields.lookup "attemptId").bind Json.text? with
    | some source, some outcome, some attemptId => do
      let payload ← readAcceptedData (fields.lookup "payload") (place ++ ".payload")
      match (fields.lookup "artifacts").bind Json.arr? with
      | none =>
        throw (place ++ ".artifacts is " ++ describeRead (fields.lookup "artifacts") ++
          ", not the list of retained revisions a bound input carries")
      | some artifacts =>
        let artifacts ← readEach readAcceptedArtifact (place ++ ".artifacts") 0 artifacts
        return {
          «from» := source
          outcome := outcome
          attemptId := attemptId
          payload := payload
          artifacts := artifacts }
    | _, _, _ =>
      .error (place ++
        " carries a producer, outcome and attempt that are not all non-empty strings")

def readResolvedInputs (raw : Json) (place : String) : Except String (List ResolvedInput) :=
  match raw with
  | .arr items => readEach readOneResolvedInput place 0 items
  | other => .error (place ++ " is " ++ describeValue other ++ ", not a list")

/-- Non-empty identities and a size a double represents. -/
def AcceptedArtifact.WellFormed (artifact : AcceptedArtifact) : Prop :=
  artifact.ref ≠ "" ∧ artifact.artifactId ≠ "" ∧ artifact.digest ≠ "" ∧
    artifact.size ≤ maxSafeInteger

def ResolvedInput.WellFormed (input : ResolvedInput) : Prop :=
  input.from ≠ "" ∧ input.outcome ≠ "" ∧ input.attemptId ≠ "" ∧
    ∀ artifact ∈ input.artifacts, artifact.WellFormed

theorem safeNat?_natJson {n : Nat} (h : n ≤ maxSafeInteger) : (natJson n).safeNat? = some n :=
  Json.safeNat?_num h

theorem readEach_ok {α : Type} {read : Json → String → Except String α} {write : α → Json}
    {values : List α} (h : ∀ value ∈ values, ∀ place, read (write value) place = .ok value)
    (place : String) (index : Nat) : readEach read place index (values.map write) = .ok values := by
  induction values generalizing index with
  | nil => rfl
  | cons value values ih =>
    have hfirst := h value (.head _) (place ++ "[" ++ toString index ++ "]")
    have hrest := ih (fun v hv => h v (.tail _ hv)) (index + 1)
    rw [map_cons, readEach, hfirst]
    simp only [bind, Except.bind, hrest]
    rfl

theorem readAcceptedArtifact_json {artifact : AcceptedArtifact} (h : artifact.WellFormed)
    (place : String) : readAcceptedArtifact artifact.json place = .ok artifact := by
  obtain ⟨href, hid, hdigest, hsize⟩ := h
  have hkeys : hasExactKeys
      [("ref", Json.str artifact.ref), ("artifactId", .str artifact.artifactId),
        ("digest", .str artifact.digest), ("size", natJson artifact.size)]
      ACCEPTED_ARTIFACT_KEYS = true := by
    simp [hasExactKeys, ACCEPTED_ARTIFACT_KEYS]
  unfold readAcceptedArtifact AcceptedArtifact.json
  simp only [Json.obj?_obj, Option.filter_some, hkeys, if_true]
  simp [lookup_cons, Json.text?_str href, Json.text?_str hid, Json.text?_str hdigest,
    safeNat?_natJson hsize]

theorem readAcceptedData_json (data : AcceptedData) (place : String) :
    readAcceptedData (some data.json) place = .ok data := by
  cases data with
  | absent => simp [AcceptedData.json, readAcceptedData, hasExactKeys]
  | value json => simp [AcceptedData.json, readAcceptedData, hasExactKeys, lookup_cons]

theorem readOneResolvedInput_json {input : ResolvedInput} (h : input.WellFormed)
    (place : String) : readOneResolvedInput input.json place = .ok input := by
  obtain ⟨hfrom, houtcome, hattempt, hartifacts⟩ := h
  have hkeys : hasExactKeys
      [("from", Json.str input.from), ("outcome", .str input.outcome),
        ("attemptId", .str input.attemptId), ("payload", input.payload.json),
        ("artifacts", .arr (input.artifacts.map AcceptedArtifact.json))]
      RESOLVED_INPUT_KEYS = true := by
    simp [hasExactKeys, RESOLVED_INPUT_KEYS]
  have hlist := readEach_ok (fun artifact ha place =>
    readAcceptedArtifact_json (hartifacts artifact ha) place) (place ++ ".artifacts") 0
  unfold readOneResolvedInput ResolvedInput.json
  simp only [Json.obj?_obj, Option.filter_some, hkeys, if_true]
  simp [lookup_cons, Json.text?_str hfrom, Json.text?_str houtcome, Json.text?_str hattempt,
    readAcceptedData_json, hlist, bind, Except.bind, pure, Except.pure]

theorem readResolvedInputs_json {inputs : List ResolvedInput}
    (h : ∀ input ∈ inputs, input.WellFormed) (place : String) :
    readResolvedInputs (.arr (inputs.map ResolvedInput.json)) place = .ok inputs :=
  readEach_ok (fun input hi place => readOneResolvedInput_json (h input hi) place) place 0

def DownstreamInputRefusalCode.text : DownstreamInputRefusalCode → String
  | .producerUnsettled => "input-producer-unsettled"
  | .outcomeMismatch => "input-outcome-mismatch"
  | .artifactMissing => "input-artifact-missing"
  | .resultUnreadable => "input-result-unreadable"

def DOWNSTREAM_INPUT_REFUSAL_CODES : List DownstreamInputRefusalCode :=
  [.producerUnsettled, .outcomeMismatch, .artifactMissing, .resultUnreadable]

def DOWNSTREAM_INPUT_REFUSAL_KEYS : List String := ["from", "outcome", "code", "message"]

def DownstreamInputRefusal.json (refusal : DownstreamInputRefusal) : Json :=
  .obj
    [("from", .str refusal.from), ("outcome", .str refusal.outcome),
      ("code", .str refusal.code.text), ("message", .str refusal.message)]

def readInputRefusal (raw : Json) (place : String) : Except String DownstreamInputRefusal :=
  match raw.obj?.filter (hasExactKeys · DOWNSTREAM_INPUT_REFUSAL_KEYS) with
  | none =>
    .error (place ++ " is " ++ describeValue raw ++ ", not the \x7b " ++
      joinWith ", " DOWNSTREAM_INPUT_REFUSAL_KEYS ++ " \x7d record a named input refusal is")
  | some fields =>
    match (fields.lookup "from").bind Json.text?, (fields.lookup "outcome").bind Json.text?,
      (fields.lookup "message").bind Json.text? with
    | some source, some outcome, some message =>
      match DOWNSTREAM_INPUT_REFUSAL_CODES.find? fun declared =>
          (fields.lookup "code").bind Json.str? = some declared.text with
      | none =>
        .error (place ++ ".code is " ++ describeRead (fields.lookup "code") ++ ", not " ++
          joinWith ", " (DOWNSTREAM_INPUT_REFUSAL_CODES.map (·.text)) ++
          " — the refusal vocabulary is closed")
      | some code =>
        .ok { «from» := source, outcome := outcome, code := code, message := message }
    | _, _, _ =>
      .error (place ++
        " carries a producer, outcome and message that are not all non-empty strings")

def readInputRefusals (raw : Json) (place : String) : Except String (List DownstreamInputRefusal) :=
  match raw with
  | .arr items => readEach readInputRefusal place 0 items
  | other => .error (place ++ " is " ++ describeValue other ++ ", not a list")

def DownstreamInputRefusal.WellFormed (refusal : DownstreamInputRefusal) : Prop :=
  refusal.from ≠ "" ∧ refusal.outcome ≠ "" ∧ refusal.message ≠ ""

theorem find_refusalCode (code : DownstreamInputRefusalCode) :
    (DOWNSTREAM_INPUT_REFUSAL_CODES.find? fun declared => some code.text = some declared.text) =
      some code := by
  cases code <;> decide

theorem readInputRefusal_json {refusal : DownstreamInputRefusal} (h : refusal.WellFormed)
    (place : String) : readInputRefusal refusal.json place = .ok refusal := by
  obtain ⟨hfrom, houtcome, hmessage⟩ := h
  have hkeys : hasExactKeys
      [("from", Json.str refusal.from), ("outcome", .str refusal.outcome),
        ("code", .str refusal.code.text), ("message", .str refusal.message)]
      DOWNSTREAM_INPUT_REFUSAL_KEYS = true := by
    simp [hasExactKeys, DOWNSTREAM_INPUT_REFUSAL_KEYS]
  have hcode := find_refusalCode refusal.code
  unfold readInputRefusal DownstreamInputRefusal.json
  simp only [Json.obj?_obj, Option.filter_some, hkeys, if_true]
  simp only [lookup_cons, String.reduceBEq, beq_self_eq_true, Option.bind_some, Json.str?_str,
    Json.text?_str hfrom, Json.text?_str houtcome, Json.text?_str hmessage, hcode]

theorem readInputRefusals_json {refusals : List DownstreamInputRefusal}
    (h : ∀ refusal ∈ refusals, refusal.WellFormed) (place : String) :
    readInputRefusals (.arr (refusals.map DownstreamInputRefusal.json)) place = .ok refusals :=
  readEach_ok (fun refusal hr place => readInputRefusal_json (h refusal hr) place) place 0

section Arrivals

def OUTCOME_ARRIVAL_KEYS : List String := ["from", "outcome", "attemptId"]

def OutcomeArrival.json (arrival : OutcomeArrival) : Json :=
  .obj
    [("from", .str arrival.from), ("outcome", .str arrival.outcome),
      ("attemptId", .str arrival.attemptId)]

def readArrival (plan : CompiledPlan) (targetId place : String) (seen : List String) (raw : Json) :
    Except OutcomeStateError OutcomeArrival :=
  if raw.isRecord = false then
    .error (malformedState (place ++ " is " ++ describeValue raw ++ ", not an arrival record"))
  else
    match unknownField? raw OUTCOME_ARRIVAL_KEYS with
    | some key =>
      .error (malformedState (place ++ " carries field " ++ quote key ++
        ", which an arrival does not define — an unknown field is refused rather than dropped"))
    | none =>
      match (raw.field? "from").bind Json.text?, (raw.field? "outcome").bind Json.text?,
        (raw.field? "attemptId").bind Json.text? with
      | none, _, _ =>
        .error (malformedState (place ++ ".from is " ++ describeRead (raw.field? "from") ++
          ", not a non-empty predecessor node id"))
      | _, none, _ =>
        .error (malformedState (place ++ ".outcome is " ++ describeRead (raw.field? "outcome") ++
          ", not a non-empty outcome id"))
      | _, _, none =>
        .error (malformedState (place ++ ".attemptId is " ++
          describeRead (raw.field? "attemptId") ++
          ", not the non-empty attempt that produced the arrival"))
      | some source, some outcome, some attemptId =>
        if source ∈ seen then
          .error (malformedState (place ++ " names predecessor " ++ quote source ++
            " a second time — a feeder holds at most one arrival at a join"))
        else if plan.edges.any fun edge =>
            edge.from = source ∧ edge.to = targetId ∧ edge.outcome = outcome then
          .ok { «from» := source, outcome := outcome, attemptId := attemptId }
        else
          .error (malformedState (place ++ " records outcome " ++ quote outcome ++ " of node " ++
            quote source ++ " arriving at " ++ quote targetId ++ ", but plan revision " ++
            plan.planRevision ++
            " declares no such edge — an arrival no edge routes is refused rather than counted"))

def readArrivalsFrom (plan : CompiledPlan) (targetId place : String) :
    Nat → List String → List Json → Except OutcomeStateError (List OutcomeArrival)
  | _, _, [] => .ok []
  | index, seen, raw :: rest => do
    let arrival ← readArrival plan targetId (place ++ ".arrivals[" ++ toString index ++ "]") seen raw
    let others ← readArrivalsFrom plan targetId place (index + 1) (seen ++ [arrival.from]) rest
    return arrival :: others

def readArrivals (plan : CompiledPlan) (targetId place : String) (raw : Option Json) :
    Except OutcomeStateError (List OutcomeArrival) :=
  match raw with
  | some (.arr items) => readArrivalsFrom plan targetId place 0 [] items
  | other =>
    .error (malformedState (place ++ ".arrivals is " ++ describeRead other ++
      ", not the predecessor arrival list body version " ++
      toString CURRENT_OUTCOME_STATE_BODY ++ " defines for every node"))

structure ArrivalsRead (plan : CompiledPlan) (targetId : String)
    (arrivals : List OutcomeArrival) : Prop where
  named : ∀ arrival ∈ arrivals,
    arrival.from ≠ "" ∧ arrival.outcome ≠ "" ∧ arrival.attemptId ≠ ""
  routed : ∀ arrival ∈ arrivals, (plan.edges.any fun edge =>
    edge.from = arrival.from ∧ edge.to = targetId ∧ edge.outcome = arrival.outcome) = true
  distinct : (arrivals.map (·.from)).Nodup

variable {plan : CompiledPlan} {targetId : String} {arrivals : List OutcomeArrival}

theorem readArrival_json {arrival : OutcomeArrival} {seen : List String} (place : String)
    (hnamed : arrival.from ≠ "" ∧ arrival.outcome ≠ "" ∧ arrival.attemptId ≠ "")
    (hrouted : (plan.edges.any fun edge => edge.from = arrival.from ∧ edge.to = targetId ∧
      edge.outcome = arrival.outcome) = true) (hseen : arrival.from ∉ seen) :
    readArrival plan targetId place seen arrival.json = .ok arrival := by
  obtain ⟨hfrom, houtcome, hattempt⟩ := hnamed
  have hknown : unknownField? arrival.json OUTCOME_ARRIVAL_KEYS = none := by
    simp [unknownField?, OutcomeArrival.json, OUTCOME_ARRIVAL_KEYS, List.find?]
  unfold readArrival
  rw [hknown]
  simp only [OutcomeArrival.json, Json.isRecord_obj, Bool.true_eq_false, if_false,
    Json.field?_obj, lookup_cons, String.reduceBEq, beq_self_eq_true, Option.bind_some,
    Json.text?_str hfrom, Json.text?_str houtcome, Json.text?_str hattempt, if_neg hseen,
    if_pos hrouted]

theorem readArrivalsFrom_json (place : String) (index : Nat) (seen : List String)
    (h : ArrivalsRead plan targetId arrivals) (hseen : ∀ arrival ∈ arrivals, arrival.from ∉ seen) :
    readArrivalsFrom plan targetId place index seen (arrivals.map OutcomeArrival.json) =
      .ok arrivals := by
  induction arrivals generalizing index seen with
  | nil => rfl
  | cons arrival arrivals ih =>
    have hfirst := readArrival_json (place ++ ".arrivals[" ++ toString index ++ "]")
      (h.named arrival (.head _)) (h.routed arrival (.head _))
      (hseen arrival (.head _))
    obtain ⟨hnot, hdistinct⟩ := nodup_cons.1 h.distinct
    have hrest := ih (index + 1) (seen ++ [arrival.from])
      { named := fun a ha => h.named a (.tail _ ha)
        routed := fun a ha => h.routed a (.tail _ ha)
        distinct := hdistinct }
      (fun a ha hin => by
        rcases mem_append.1 hin with hin | hin
        · exact hseen a (.tail _ ha) hin
        · exact hnot (mem_map.2 ⟨a, ha, mem_singleton.1 hin⟩))
    rw [map_cons, readArrivalsFrom, hfirst]
    simp only [bind, Except.bind, hrest]
    rfl

theorem readArrivals_json (place : String) (h : ArrivalsRead plan targetId arrivals) :
    readArrivals plan targetId place (some (.arr (arrivals.map OutcomeArrival.json))) =
      .ok arrivals :=
  readArrivalsFrom_json place 0 [] h fun _ _ => not_mem_nil

end Arrivals

end Rolebox.Graph
