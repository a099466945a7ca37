import Rolebox.Graph.Codec.Body

/-! A node entry the reader accepts is read back as it was written. -/

namespace Rolebox.Graph
open General List Option

theorem require_true (message : String) : require true message = .ok () := rfl

theorem require_of {holds : Prop} [Decidable holds] (h : holds) (message : String) :
    require (decide holds) message = .ok () := by
  rw [decide_eq_true h]
  rfl

variable {raw : Json}

theorem rejectUnknownFields_ok {defined : List String}
    (h : unknownField? raw defined = none) (place detail : String) :
    rejectUnknownFields raw defined place detail = .ok () := by
  unfold rejectUnknownFields
  rw [h]

theorem readNonEmptyId_ok {id : String} (h : id ≠ "") (place field : String) :
    readNonEmptyId (some (.str id)) place field = .ok id := by
  unfold readNonEmptyId
  simp only [bind_some, Json.text?_str h]

theorem readPositiveCount_ok {n : Nat} (hpos : 0 < n) (hsafe : n ≤ maxSafeInteger)
    (place field : String) : readPositiveCount (some (natJson n)) place field = .ok n := by
  unfold readPositiveCount
  simp only [bind_some, safeNat?_natJson hsafe, filter_some, hpos, decide_true,
    if_true]

theorem readOptionalEpoch_none {field : String} (h : raw.field? field = none)
    (place : String) : readOptionalEpoch raw field place = .ok none := by
  unfold readOptionalEpoch
  rw [h]

theorem readOptionalEpoch_some {field : String} {epoch : Nat}
    (h : raw.field? field = some (natJson epoch)) (hsafe : epoch ≤ maxSafeInteger)
    (place : String) : readOptionalEpoch raw field place = .ok (some epoch) := by
  unfold readOptionalEpoch
  simp only [h, safeNat?_natJson hsafe]

structure DispatchFacts.Readable (bound : Nat) (facts : DispatchFacts) : Prop where
  attemptId : facts.attemptId ≠ ""
  attemptSeq : 0 < facts.attemptSeq ∧ facts.attemptSeq ≤ bound
  digest : isAttemptCredentialDigest facts.attemptCredentialDigest = true
  identity : ∀ identity, facts.dispatchIdentity = some identity → identity.WellFormed
  dispatchedAt : facts.dispatchedAt ≤ maxSafeInteger
  inputs : ∀ inputs, facts.inputs = some inputs → ∀ input ∈ inputs, input.WellFormed

def NodeProgress.Readable (bound : Nat) : NodeProgress → Prop
  | .pending => True
  | .dispatched facts => facts.Readable bound
  | .settled facts outcomeId settledAt =>
    facts.Readable bound ∧ outcomeId ≠ "" ∧ settledAt ≤ maxSafeInteger

structure OutcomeNodeState.Readable (plan : CompiledPlan) (entry : OutcomeNodeState) : Prop where
  progress : entry.progress.Readable maxSafeInteger
  arrivals : ArrivalsRead plan entry.nodeId entry.arrivals
  refusals : ∀ refusals, entry.inputRefusals = some refusals →
    ∀ refusal ∈ refusals, refusal.WellFormed

def NodeProgress.facts? : NodeProgress → Option DispatchFacts
  | .pending => none
  | .dispatched facts => some facts
  | .settled facts _ _ => some facts

def NodeProgress.settlement? : NodeProgress → Option (String × Nat)
  | .settled _ outcomeId settledAt => some (outcomeId, settledAt)
  | _ => none

section Fields
variable (entry : OutcomeNodeState)

theorem entryJson_fields : entry.json.field? "nodeId" = some (.str entry.nodeId) ∧
    entry.json.field? "status" = some (.str entry.status.text) ∧
    entry.json.field? "arrivals" = some (.arr (entry.arrivals.map OutcomeArrival.json)) ∧
    entry.json.field? "inputRefusals" = entry.inputRefusals.map fun refusals =>
      .arr (refusals.map DownstreamInputRefusal.json) := by
  obtain ⟨nodeId, progress, arrivals, refusals⟩ := entry
  cases progress with
  | pending => cases refusals <;> exact ⟨rfl, rfl, rfl, rfl⟩
  | dispatched facts | settled facts =>
    obtain ⟨_, _, _, identity, _, inputs⟩ := facts
    cases identity <;> cases inputs <;> cases refusals <;> exact ⟨rfl, rfl, rfl, rfl⟩

theorem entryJson_facts :
    entry.json.field? "attemptId" = entry.progress.facts?.map (fun facts => .str facts.attemptId) ∧
    entry.json.field? "attemptSeq" =
      entry.progress.facts?.map (fun facts => natJson facts.attemptSeq) ∧
    entry.json.field? "attemptCredentialDigest" =
      entry.progress.facts?.map (fun facts => .str facts.attemptCredentialDigest) ∧
    entry.json.field? "dispatchIdentity" =
      entry.progress.facts?.bind (fun facts => facts.dispatchIdentity.map (·.json)) ∧
    entry.json.field? "dispatchedAt" =
      entry.progress.facts?.map (fun facts => natJson facts.dispatchedAt) ∧
    entry.json.field? "inputs" = entry.progress.facts?.bind (fun facts =>
      facts.inputs.map fun inputs => .arr (inputs.map ResolvedInput.json)) := by
  obtain ⟨nodeId, progress, arrivals, refusals⟩ := entry
  cases progress with
  | pending => cases refusals <;> exact ⟨rfl, rfl, rfl, rfl, rfl, rfl⟩
  | dispatched facts | settled facts =>
    obtain ⟨_, _, _, identity, _, inputs⟩ := facts
    cases identity <;> cases inputs <;> cases refusals <;> exact ⟨rfl, rfl, rfl, rfl, rfl, rfl⟩

theorem entryJson_settlement :
    entry.json.field? "outcomeId" =
      entry.progress.settlement?.map (fun settlement => .str settlement.1) ∧
    entry.json.field? "settledAt" =
      entry.progress.settlement?.map (fun settlement => natJson settlement.2) := by
  obtain ⟨nodeId, progress, arrivals, refusals⟩ := entry
  cases progress with
  | pending => cases refusals <;> exact ⟨rfl, rfl⟩
  | dispatched facts | settled facts =>
    obtain ⟨_, _, _, identity, _, inputs⟩ := facts
    cases identity <;> cases inputs <;> cases refusals <;> exact ⟨rfl, rfl⟩

theorem entryJson_known (version : Nat) (reasons : List OutcomeStopReason) :
    unknownField? entry.json ((outcomeStateLayout version reasons).keys entry.status) = none := by
  obtain ⟨nodeId, progress, arrivals, refusals⟩ := entry
  cases progress with
  | pending => cases refusals <;> rfl
  | dispatched facts | settled facts =>
    obtain ⟨_, _, _, identity, _, inputs⟩ := facts
    cases identity <;> cases inputs <;> cases refusals <;> rfl

end Fields

section Entry
variable {plan : CompiledPlan} {entry : OutcomeNodeState} {layout : OutcomeStateLayout}

theorem readStatus_json (entry : OutcomeNodeState) (place : String) :
    readStatus entry.json place = .ok entry.status := by
  unfold readStatus
  rw [(entryJson_fields entry).2.1]
  cases entry.status <;> rfl

theorem readDispatchIdentity_json {identity : Option HostInvocationIdentity}
    (hraw : raw.field? "dispatchIdentity" = identity.map (·.json))
    (h : ∀ value, identity = some value → value.WellFormed) (place : String) :
    readDispatchIdentity raw place = .ok identity := by
  unfold readDispatchIdentity
  rw [hraw]
  cases identity with
  | none => rfl
  | some value => simp only [map_some, readHostInvocationIdentity_json (h value rfl)]

theorem readBoundInputs_json {inputs : Option (List ResolvedInput)}
    (hraw : raw.field? "inputs" = inputs.map fun inputs => .arr (inputs.map ResolvedInput.json))
    (h : ∀ value, inputs = some value → ∀ input ∈ value, input.WellFormed) (place : String) :
    readBoundInputs raw place = .ok inputs := by
  unfold readBoundInputs
  rw [hraw]
  cases inputs with
  | none => rfl
  | some value => simp only [map_some, readResolvedInputs_json (h value rfl)]

theorem readNodeInputRefusals_json {refusals : Option (List DownstreamInputRefusal)}
    (hraw : raw.field? "inputRefusals" = refusals.map fun refusals =>
      .arr (refusals.map DownstreamInputRefusal.json))
    (h : ∀ value, refusals = some value → ∀ refusal ∈ value, refusal.WellFormed)
    (place : String) : readNodeInputRefusals raw place = .ok refusals := by
  unfold readNodeInputRefusals
  rw [hraw]
  cases refusals with
  | none => rfl
  | some value => simp only [map_some, readInputRefusals_json (h value rfl)]

theorem DispatchFacts.Readable.mono {bound bound' : Nat} {facts : DispatchFacts}
    (h : facts.Readable bound) (hle : bound ≤ bound') : facts.Readable bound' :=
  { h with attemptSeq := ⟨h.attemptSeq.1, h.attemptSeq.2.trans hle⟩ }

theorem NodeProgress.Readable.mono {bound bound' : Nat} {progress : NodeProgress}
    (h : progress.Readable bound) (hle : bound ≤ bound') : progress.Readable bound' := by
  cases progress with
  | pending => trivial
  | dispatched facts => exact DispatchFacts.Readable.mono h hle
  | settled facts outcomeId settledAt => exact ⟨h.1.mono hle, h.2⟩

theorem readDispatchFacts_json {facts : DispatchFacts} (hfacts : entry.progress.facts? = some facts)
    (h : facts.Readable maxSafeInteger) (layout : OutcomeStateLayout) (status : OutcomeNodeStatus)
    (place : String) :
    readDispatchFacts layout entry.json status place facts.dispatchIdentity facts.inputs
      (some facts.dispatchedAt) = .ok facts := by
  obtain ⟨hid, hseq, hdigest, -, -, -⟩ := entryJson_facts entry
  unfold readDispatchFacts
  rw [hid, hseq, hdigest, hfacts]
  simp only [map_some, bind_some, Json.text?_str h.attemptId,
    safeNat?_natJson h.attemptSeq.2, filter_some, h.attemptSeq.1, decide_true, if_true,
    Json.str?_str, h.digest]

theorem readSettlement_json {outcomeId : String} {settledAt : Nat}
    (hsettled : entry.progress.settlement? = some (outcomeId, settledAt)) (h : outcomeId ≠ "")
    (place : String) :
    readSettlement entry.json place (some settledAt) = .ok (outcomeId, settledAt) := by
  unfold readSettlement
  rw [(entryJson_settlement entry).1, hsettled]
  simp only [map_some, bind_some, Json.text?_str h]

theorem readEpochs_json {bound : Nat} (h : entry.progress.Readable bound) (place : String) :
    readOptionalEpoch entry.json "dispatchedAt" place =
        .ok (entry.progress.facts?.map (·.dispatchedAt)) ∧
      readOptionalEpoch entry.json "settledAt" place =
        .ok (entry.progress.settlement?.map (·.2)) := by
  obtain ⟨-, -, -, -, hdispatched, -⟩ := entryJson_facts entry
  obtain ⟨-, hsettled⟩ := entryJson_settlement entry
  cases hp : entry.progress with
  | pending =>
    rw [hp] at hdispatched hsettled
    exact ⟨readOptionalEpoch_none hdispatched _, readOptionalEpoch_none hsettled _⟩
  | dispatched facts =>
    rw [hp] at h hdispatched hsettled
    exact ⟨readOptionalEpoch_some hdispatched h.dispatchedAt _, readOptionalEpoch_none hsettled _⟩
  | settled facts outcomeId settledAt =>
    rw [hp] at h hdispatched hsettled
    exact ⟨readOptionalEpoch_some hdispatched h.1.dispatchedAt _,
      readOptionalEpoch_some hsettled h.2.2 _⟩

theorem NodeProgress.Readable.facts {bound : Nat} (h : entry.progress.Readable bound)
    {facts : DispatchFacts} (hfacts : entry.progress.facts? = some facts) :
    facts.Readable bound := by
  cases hp : entry.progress with
  | pending =>
    rw [hp] at hfacts
    cases hfacts
  | dispatched other =>
    rw [hp] at h hfacts
    cases hfacts
    exact h
  | settled other outcomeId settledAt =>
    rw [hp] at h hfacts
    cases hfacts
    exact h.1

theorem readProgress_json (h : entry.progress.Readable maxSafeInteger) (layout : OutcomeStateLayout)
    (place : String) :
    readProgress layout entry.json entry.status place
      (entry.progress.facts?.bind (·.dispatchIdentity)) (entry.progress.facts?.bind (·.inputs))
      (entry.progress.facts?.map (·.dispatchedAt)) (entry.progress.settlement?.map (·.2)) =
        .ok entry.progress := by
  unfold readProgress OutcomeNodeState.status
  cases hp : entry.progress with
  | pending => rfl
  | dispatched facts =>
    have hfacts : entry.progress.facts? = some facts := by
      rw [hp]
      rfl
    have hread := readDispatchFacts_json hfacts (h.facts hfacts) layout .dispatched place
    change (readDispatchFacts layout entry.json .dispatched place facts.dispatchIdentity
      facts.inputs (some facts.dispatchedAt) >>= _) = _
    rw [hread]
    rfl
  | settled facts outcomeId settledAt =>
    have hfacts : entry.progress.facts? = some facts := by
      rw [hp]
      rfl
    have hsettled : entry.progress.settlement? = some (outcomeId, settledAt) := by
      rw [hp]
      rfl
    have hread := readDispatchFacts_json hfacts (h.facts hfacts) layout .settled place
    rw [hp] at h
    have hsettlement := readSettlement_json hsettled h.2.1 place
    change (readDispatchFacts layout entry.json .settled place facts.dispatchIdentity
      facts.inputs (some facts.dispatchedAt) >>= fun facts =>
        readSettlement entry.json place (some settledAt) >>= _) = _
    rw [hread, ok_bind, hsettlement]
    rfl

theorem readNodeState_json (version : Nat) (reasons : List OutcomeStopReason)
    {node : CompiledNode} (hid : entry.nodeId = node.id) (h : entry.Readable plan) (index : Nat) :
    readNodeState plan (outcomeStateLayout version reasons) entry.json node index = .ok entry := by
  obtain ⟨hnode, -, harrivals, hrefusals⟩ := entryJson_fields entry
  obtain ⟨-, -, -, hidentity, -, hinputs⟩ := entryJson_facts entry
  have hrecord : entry.json.isRecord = true := rfl
  have hstatus := readStatus_json entry
  have hknown := entryJson_known entry version reasons
  have hepochs := readEpochs_json h.progress
  have hread := readNodeInputRefusals_json hrefusals h.refusals
  have harrived := readArrivals_json ("nodes[" ++ toString index ++ "]") h.arrivals
  rw [hid] at harrived
  have hwho : ∀ place, readDispatchIdentity entry.json place =
      .ok (entry.progress.facts?.bind (·.dispatchIdentity)) := by
    refine readDispatchIdentity_json ?_ fun identity hi => ?_
    · rw [hidentity]
      cases entry.progress.facts? <;> rfl
    · obtain ⟨facts, hfacts, hsome⟩ := bind_eq_some_iff.1 hi
      exact (h.progress.facts hfacts).identity identity hsome
  have hbound : ∀ place, readBoundInputs entry.json place =
      .ok (entry.progress.facts?.bind (·.inputs)) := by
    refine readBoundInputs_json ?_ fun inputs hi => ?_
    · rw [hinputs]
      cases entry.progress.facts? <;> rfl
    · obtain ⟨facts, hfacts, hsome⟩ := bind_eq_some_iff.1 hi
      exact (h.progress.facts hfacts).inputs inputs hsome
  have hprogress := readProgress_json h.progress (outcomeStateLayout version reasons)
  unfold readNodeState
  simp only [hrecord, hnode, hid, bind_some, Json.str?_str, decide_true, require_true,
    ok_bind, hstatus, rejectUnknownFields_ok hknown, (hepochs _).1, (hepochs _).2, hread,
    harrivals, harrived, hwho, hbound, hprogress]
  rw [← hid]
  rfl

theorem readNodeStates_json (version : Nat) (reasons : List OutcomeStopReason)
    {nodes : List CompiledNode} {entries : List OutcomeNodeState}
    (h : Forall₂ (fun (node : CompiledNode) entry =>
      entry.nodeId = node.id ∧ entry.Readable plan) nodes entries) (index : Nat) :
    readNodeStates plan (outcomeStateLayout version reasons) index nodes
      (entries.map OutcomeNodeState.json) = .ok entries := by
  induction h generalizing index with
  | nil => rfl
  | cons hentry _ ih =>
    rw [map_cons, readNodeStates,
      readNodeState_json version reasons hentry.1 hentry.2 index, ok_bind, ih, ok_bind]
    rfl

theorem readNodes_json (version : Nat) (reasons : List OutcomeStopReason)
    {entries : List OutcomeNodeState}
    (h : Forall₂ (fun (node : CompiledNode) entry =>
      entry.nodeId = node.id ∧ entry.Readable plan) plan.nodes entries) :
    readNodes plan (outcomeStateLayout version reasons)
      (some (.arr (entries.map OutcomeNodeState.json))) = .ok entries := by
  have hlength : (entries.map OutcomeNodeState.json).length = plan.nodes.length := by
    rw [length_map, h.length_eq]
  unfold readNodes
  simp only [bind_some, Json.arr?_arr, filter_some, hlength, decide_true, if_true]
  exact readNodeStates_json version reasons h 0

end Entry

end Rolebox.Graph
