import Rolebox.Graph.Codec.Entries

/-! Counters, progress entries and stops the reader accepts are read back as they were written. -/

namespace Rolebox.Graph
open General List

section Counters
variable {plan : CompiledPlan} {loopTraversals : PlainObject CounterValue}

structure CountersReadable (plan : JoinTopology) (loopTraversals : PlainObject CounterValue) :
    Prop where
  proto : loopTraversals.proto = none
  declared : ∀ field ∈ loopTraversals.own,
    field.1 ≠ "__proto__" ∧ field.1 ∈ plan.loopGroups.map (·.id)
  counted : ∀ field ∈ loopTraversals.own,
    ∃ count, field.2 = .number count ∧ count ≤ maxSafeInteger

theorem readCounter_json {counters : PlainObject CounterValue} {field : String × CounterValue}
    {count : Nat} (hid : field.1 ∈ plan.loopGroups.map (·.id)) (hcount : field.2 = .number count)
    (hsafe : count ≤ maxSafeInteger) :
    readCounter plan counters (field.1, field.2.json field.1) =
      .ok (counters.setPrimitive field.1 field.2) := by
  unfold readCounter
  rw [if_neg (not_not.2 hid)]
  simp only [hcount, CounterValue.json, safeNat?_natJson hsafe]

theorem readLoopTraversals_json (h : CountersReadable plan loopTraversals) :
    readLoopTraversals plan (some (loopTraversalsJson loopTraversals)) = .ok loopTraversals := by
  have hfold := PlainObject.foldlM_rebuild (o := PlainObject.empty)
    (f := fun counters (field : String × CounterValue) =>
      readCounter plan counters (field.1, field.2.json field.1))
    (fun counters field hf hnew => by
      obtain ⟨count, hcount, hsafe⟩ := h.counted field hf
      obtain ⟨hproto, hid⟩ := h.declared field hf
      exact ⟨_, readCounter_json hid hcount hsafe,
        PlainObject.own_setPrimitive_new field.2 hnew hproto⟩)
    loopTraversals.keysNodup (fun _ _ => by simp)
  obtain ⟨counters, hread, hown, hproto⟩ := hfold
  unfold readLoopTraversals loopTraversalsJson
  simp only [foldlM_map, hread]
  exact congrArg Except.ok (PlainObject.ext_own hown (hproto.trans h.proto.symm))

theorem readLoopTraversals_numbers {counters : PlainObject CounterValue}
    (h : readLoopTraversals plan (some (loopTraversalsJson loopTraversals)) = .ok counters) :
    ∀ field ∈ loopTraversals.own, ∃ count, field.2 = .number count := by
  unfold readLoopTraversals loopTraversalsJson at h
  simp only [foldlM_map] at h
  generalize loopTraversals.own = fields at h
  generalize PlainObject.empty = start at h
  induction fields generalizing start with
  | nil => exact fun _ hf => absurd hf not_mem_nil
  | cons field fields ih =>
    rw [foldlM_cons] at h
    obtain ⟨next, hfirst, hrest⟩ := bind_eq_ok.1 h
    intro other ho
    rcases mem_cons.1 ho with rfl | ho
    · cases hvalue : other.2 with
      | number count => exact ⟨count, rfl⟩
      | text ones =>
        unfold readCounter at hfirst
        rw [hvalue] at hfirst
        split at hfirst
        · cases hfirst
        · cases hfirst
    · exact ih next hrest other ho

end Counters

section Progress
variable {plan : CompiledPlan} {loopProgress : PlainObject OutcomeLoopProgress}

def IsToken (token : String) : Prop :=
  token ≠ "" ∧ (codeUnits token).length ≤ PROGRESS_VALUE_MAX_LENGTH

structure OutcomeLoopProgress.Readable (policy : CompiledProgressPolicy) (groupId : String)
    (entry : OutcomeLoopProgress) : Prop where
  loopGroupId : entry.loopGroupId = groupId
  evaluator : entry.evaluator = policy.evaluator ∧ entry.evaluator ≠ ""
  subject : entry.subject = policy.subject ∧ entry.subject ≠ ""
  version : 0 < entry.version ∧ entry.version ≤ maxSafeInteger
  unchanged : entry.unchanged ≤ maxSafeInteger
  baseline : ∀ token, entry.baseline = some token → IsToken token

theorem readToken_str {token : String} (h : IsToken token) :
    readToken (.str token) = some token := by
  unfold readToken
  rw [Json.text?_str h.1]
  simp [Option.filter, h.2]

theorem readBaseline_json {baseline : Option String} {raw : Json}
    (hraw : raw.field? "baseline" = baseline.map Json.str)
    (h : ∀ token, baseline = some token → IsToken token) (place : String) :
    readBaseline raw place = .ok baseline := by
  unfold readBaseline
  rw [hraw]
  cases baseline with
  | none => rfl
  | some token => simp only [Option.map_some, readToken_str (h token rfl)]

theorem progressEntryJson_fields (entry : OutcomeLoopProgress) :
    entry.json.field? "loopGroupId" = some (.str entry.loopGroupId) ∧
    entry.json.field? "evaluator" = some (.str entry.evaluator) ∧
    entry.json.field? "version" = some (natJson entry.version) ∧
    entry.json.field? "subject" = some (.str entry.subject) ∧
    entry.json.field? "unchanged" = some (natJson entry.unchanged) ∧
    entry.json.field? "baseline" = entry.baseline.map Json.str ∧
    unknownField? entry.json OUTCOME_LOOP_PROGRESS_KEYS = none := by
  obtain ⟨_, _, _, _, _, baseline⟩ := entry
  cases baseline <;> exact ⟨rfl, rfl, rfl, rfl, rfl, rfl, rfl⟩

theorem readLoopProgressEntry_json {policy : CompiledProgressPolicy} {groupId : String}
    {entry : OutcomeLoopProgress} (h : entry.Readable policy groupId) :
    readLoopProgressEntry entry.json groupId policy = .ok entry := by
  obtain ⟨hgroup, hevaluator, hversion, hsubject, hunchanged, hbaseline, hknown⟩ :=
    progressEntryJson_fields entry
  have hrecord : entry.json.isRecord = true := rfl
  have hcount : ∀ place, readUnchanged entry.json place = .ok entry.unchanged := by
    intro place
    unfold readUnchanged
    simp only [hunchanged, Option.bind_some, safeNat?_natJson h.unchanged]
  unfold readLoopProgressEntry
  simp only [hrecord, require_true, ok_bind, rejectUnknownFields_ok hknown, hgroup,
    Option.bind_some, Json.str?_str, h.loopGroupId, decide_true, hevaluator,
    readNonEmptyId_ok h.evaluator.2, require_of h.evaluator.1, hsubject,
    readNonEmptyId_ok h.subject.2, require_of h.subject.1, hversion,
    readPositiveCount_ok h.version.1 h.version.2, hcount,
    readBaseline_json hbaseline h.baseline]
  rw [← h.loopGroupId]
  rfl

structure ProgressReadable (plan : CompiledPlan) (loopProgress : PlainObject OutcomeLoopProgress) :
    Prop where
  proto : loopProgress.proto = none
  declared : ∀ field ∈ loopProgress.own, field.1 ≠ "__proto__" ∧
    ∃ policy, policyOf plan field.1 = some policy ∧ field.2.Readable policy field.1
  complete : ∀ group ∈ plan.loopGroups, group.progress ≠ none →
    loopProgress.own? group.id ≠ none

theorem readLoopProgress_json (h : ProgressReadable plan loopProgress) :
    readLoopProgress plan (some (loopProgressJson loopProgress)) = .ok loopProgress := by
  have hfold := PlainObject.foldlM_rebuild (o := PlainObject.empty)
    (f := fun entries (field : String × OutcomeLoopProgress) =>
      readProgressField plan entries (field.1, field.2.json))
    (fun entries field hf hnew => by
      obtain ⟨hproto, policy, hpolicy, hreadable⟩ := h.declared field hf
      refine ⟨entries.set field.1 field.2, ?_, PlainObject.own_set_new field.2 hnew hproto⟩
      unfold readProgressField
      simp only [hpolicy, readLoopProgressEntry_json hreadable, ok_bind]
      rfl)
    loopProgress.keysNodup (fun _ _ => by simp)
  obtain ⟨entries, hread, hown, hproto⟩ := hfold
  have hsame : entries = loopProgress := PlainObject.ext_own hown (hproto.trans h.proto.symm)
  have hcomplete : plan.loopGroups.find? (fun group =>
      group.progress ≠ none ∧ entries.own? group.id = none) = none := by
    refine find?_eq_none.2 fun group hg hmissing => ?_
    obtain ⟨hpolicy, hno⟩ := of_decide_eq_true hmissing
    exact h.complete group hg hpolicy (hsame ▸ hno)
  unfold readLoopProgress loopProgressJson
  simp only [foldlM_map, hread, ok_bind, hcomplete]
  exact congrArg Except.ok hsame

theorem readLoopProgress_complete {entries : PlainObject OutcomeLoopProgress}
    (h : readLoopProgress plan (some (loopProgressJson loopProgress)) = .ok entries) :
    ∀ group ∈ plan.loopGroups, group.progress ≠ none → entries.own? group.id ≠ none := by
  unfold readLoopProgress loopProgressJson at h
  obtain ⟨read, -, hfound⟩ := bind_eq_ok.1 h
  intro group hg hpolicy hno
  split at hfound
  · next hnone =>
    cases hfound
    have hcheck := find?_eq_none.1 hnone group hg
    exact hcheck (decide_eq_true ⟨hpolicy, hno⟩)
  · cases hfound

end Progress

section Stops
variable {plan : CompiledPlan}

def OutcomeStop.Readable : OutcomeStop → Prop
  | .loopExhausted stop =>
    (stop.loopGroupId ≠ "" ∧ stop.nodeId ≠ "" ∧ stop.outcomeId ≠ "" ∧ stop.attemptId ≠ "") ∧
      (0 < stop.traversals ∧ stop.traversals ≤ maxSafeInteger) ∧
      (0 < stop.maxTraversals ∧ stop.maxTraversals ≤ maxSafeInteger) ∧
      stop.stoppedAt ≤ maxSafeInteger
  | .progressStalled stop =>
    (stop.loopGroupId ≠ "" ∧ stop.nodeId ≠ "" ∧ stop.outcomeId ≠ "" ∧ stop.attemptId ≠ "") ∧
      (0 < stop.unchanged ∧ stop.unchanged ≤ maxSafeInteger) ∧
      (0 < stop.maxUnchanged ∧ stop.maxUnchanged ≤ maxSafeInteger) ∧
      (stop.evaluator ≠ "" ∧ stop.subject ≠ "") ∧
      (0 < stop.evaluatorVersion ∧ stop.evaluatorVersion ≤ maxSafeInteger) ∧
      IsToken stop.baseline ∧ stop.stoppedAt ≤ maxSafeInteger
  | .unreachablePendingNode stop =>
    stop.blockedNodes.proto = none ∧
      (∀ field ∈ stop.blockedNodes.own, field.1 ≠ "__proto__" ∧ sortText field.2 = field.2 ∧
        ∀ feeder ∈ field.2, feeder ≠ "") ∧
      stop.stoppedAt ≤ maxSafeInteger

theorem loopExhaustedJson_fields (stop : OutcomeLoopExhaustedStop) :
    let raw := (OutcomeStop.loopExhausted stop).json
    raw.field? "loopGroupId" = some (.str stop.loopGroupId) ∧
    raw.field? "nodeId" = some (.str stop.nodeId) ∧
    raw.field? "outcomeId" = some (.str stop.outcomeId) ∧
    raw.field? "attemptId" = some (.str stop.attemptId) ∧
    raw.field? "traversals" = some (natJson stop.traversals) ∧
    raw.field? "maxTraversals" = some (natJson stop.maxTraversals) ∧
    raw.field? "stoppedAt" = some (natJson stop.stoppedAt) ∧
    unknownField? raw OUTCOME_LOOP_EXHAUSTED_STOP_KEYS = none :=
  ⟨rfl, rfl, rfl, rfl, rfl, rfl, rfl, rfl⟩

theorem readLoopExhaustedStop_json {stop : OutcomeLoopExhaustedStop}
    (h : (OutcomeStop.loopExhausted stop).Readable) (place : String) :
    readLoopExhaustedStop (OutcomeStop.loopExhausted stop).json place =
      .ok (.loopExhausted stop) := by
  obtain ⟨⟨hgroup, hnode, houtcome, hattempt⟩, htraversals, hcap, hstopped⟩ := h
  obtain ⟨hfgroup, hfnode, hfoutcome, hfattempt, hftraversals, hfcap, hfstopped, hknown⟩ :=
    loopExhaustedJson_fields stop
  unfold readLoopExhaustedStop
  simp only [rejectUnknownFields_ok hknown, ok_bind, hfgroup, readNonEmptyId_ok hgroup, hfnode,
    readNonEmptyId_ok hnode, hfoutcome, readNonEmptyId_ok houtcome, hfattempt,
    readNonEmptyId_ok hattempt, hftraversals, readPositiveCount_ok htraversals.1 htraversals.2,
    hfcap, readPositiveCount_ok hcap.1 hcap.2, readOptionalEpoch_some hfstopped hstopped,
    requireStoppedAt]
  rfl

theorem progressStalledJson_fields (stop : OutcomeProgressStalledStop) :
    let raw := (OutcomeStop.progressStalled stop).json
    raw.field? "loopGroupId" = some (.str stop.loopGroupId) ∧
    raw.field? "nodeId" = some (.str stop.nodeId) ∧
    raw.field? "outcomeId" = some (.str stop.outcomeId) ∧
    raw.field? "attemptId" = some (.str stop.attemptId) ∧
    raw.field? "unchanged" = some (natJson stop.unchanged) ∧
    raw.field? "maxUnchanged" = some (natJson stop.maxUnchanged) ∧
    raw.field? "evaluator" = some (.str stop.evaluator) ∧
    raw.field? "evaluatorVersion" = some (natJson stop.evaluatorVersion) ∧
    raw.field? "subject" = some (.str stop.subject) ∧
    raw.field? "baseline" = some (.str stop.baseline) ∧
    raw.field? "stoppedAt" = some (natJson stop.stoppedAt) ∧
    unknownField? raw OUTCOME_PROGRESS_STALLED_STOP_KEYS = none :=
  ⟨rfl, rfl, rfl, rfl, rfl, rfl, rfl, rfl, rfl, rfl, rfl, rfl⟩

theorem readProgressStalledStop_json {stop : OutcomeProgressStalledStop}
    (h : (OutcomeStop.progressStalled stop).Readable) (place : String) :
    readProgressStalledStop (OutcomeStop.progressStalled stop).json place =
      .ok (.progressStalled stop) := by
  obtain ⟨⟨hgroup, hnode, houtcome, hattempt⟩, hunchanged, hmax, ⟨hevaluator, hsubject⟩, hversion,
    hbaseline, hstopped⟩ := h
  obtain ⟨hfgroup, hfnode, hfoutcome, hfattempt, hfunchanged, hfmax, hfevaluator, hfversion,
    hfsubject, hfbaseline, hfstopped, hknown⟩ := progressStalledJson_fields stop
  have htoken : ∀ place, readStopBaseline (OutcomeStop.progressStalled stop).json place =
      .ok stop.baseline := by
    intro place
    unfold readStopBaseline
    simp only [hfbaseline, Option.bind_some, readToken_str hbaseline]
  unfold readProgressStalledStop
  simp only [rejectUnknownFields_ok hknown, ok_bind, hfgroup, readNonEmptyId_ok hgroup, hfnode,
    readNonEmptyId_ok hnode, hfoutcome, readNonEmptyId_ok houtcome, hfattempt,
    readNonEmptyId_ok hattempt, hfunchanged, readPositiveCount_ok hunchanged.1 hunchanged.2,
    hfmax, readPositiveCount_ok hmax.1 hmax.2, hfevaluator, readNonEmptyId_ok hevaluator,
    hfversion, readPositiveCount_ok hversion.1 hversion.2, hfsubject,
    readNonEmptyId_ok hsubject, htoken, readOptionalEpoch_some hfstopped hstopped,
    requireStoppedAt]
  rfl

theorem readFeeders_json {feeders : List String} (h : ∀ feeder ∈ feeders, feeder ≠ "")
    (place : String) (index : Nat) :
    readFeeders place index (feeders.map Json.str) = .ok feeders := by
  induction feeders generalizing index with
  | nil => rfl
  | cons feeder feeders ih =>
    rw [map_cons, readFeeders, readNonEmptyId_ok (h feeder (.head _)), ok_bind,
      ih (fun other ho => h other (.tail _ ho)), ok_bind]
    rfl

theorem readUnreachablePendingNodeStop_json {stop : OutcomeUnreachablePendingNodeStop}
    (h : (OutcomeStop.unreachablePendingNode stop).Readable) (place : String) :
    readUnreachablePendingNodeStop (OutcomeStop.unreachablePendingNode stop).json place =
      .ok (.unreachablePendingNode stop) := by
  obtain ⟨hproto, hfields, hstopped⟩ := h
  have hknown : unknownField? (OutcomeStop.unreachablePendingNode stop).json
      OUTCOME_UNREACHABLE_PENDING_NODE_STOP_KEYS = none := rfl
  have hfstopped : (OutcomeStop.unreachablePendingNode stop).json.field? "stoppedAt" =
      some (natJson stop.stoppedAt) := rfl
  have hfblocked : (OutcomeStop.unreachablePendingNode stop).json.field? "blockedNodes" =
      some (.obj (stop.blockedNodes.own.map fun field =>
        (field.1, .arr (field.2.map Json.str)))) := rfl
  have hfold := PlainObject.foldlM_rebuild (o := PlainObject.empty)
    (f := fun blocked (field : String × List String) =>
      readBlockedNode place blocked (field.1, .arr (field.2.map Json.str)))
    (fun blocked field hf hnew => by
      obtain ⟨hname, hsorted, hnamed⟩ := hfields field hf
      refine ⟨blocked.set field.1 field.2, ?_, PlainObject.own_set_new field.2 hnew hname⟩
      unfold readBlockedNode
      simp only [readFeeders_json hnamed, ok_bind, hsorted]
      rfl)
    stop.blockedNodes.keysNodup (fun _ _ => by simp)
  obtain ⟨blocked, hread, hown, hprotoRead⟩ := hfold
  have hsame : blocked = stop.blockedNodes :=
    PlainObject.ext_own hown (hprotoRead.trans hproto.symm)
  have hblocked : readBlockedNodes (OutcomeStop.unreachablePendingNode stop).json place =
      .ok stop.blockedNodes := by
    unfold readBlockedNodes
    simp only [hfblocked, foldlM_map, hread, hsame]
  unfold readUnreachablePendingNodeStop
  simp only [rejectUnknownFields_ok hknown, ok_bind, hblocked,
    readOptionalEpoch_some hfstopped hstopped, requireStoppedAt]
  rfl

theorem readStop_json (version : Nat) {phase : OutcomeGraphPhase} {stop : Option OutcomeStop}
    (hphase : phase = .stopped ↔ stop ≠ none) (h : ∀ value, stop = some value → value.Readable)
    (place : String) :
    readStop (outcomeStateLayout version OUTCOME_STOP_REASONS) (stop.map OutcomeStop.json) phase
      place = .ok stop := by
  cases stop with
  | none =>
    have hrunning : phase ≠ .stopped := fun hp => hphase.1 hp rfl
    unfold readStop
    rw [if_pos hrunning]
    rfl
  | some stop =>
    have hstopped : phase = .stopped := hphase.2 (Option.some_ne_none _)
    have hread := h stop rfl
    unfold readStop
    rw [if_neg (not_not.2 hstopped)]
    cases stop with
    | loopExhausted stop =>
      change (Except.ok OutcomeStopReason.loopExhausted >>= _) = _
      simp only [ok_bind, readLoopExhaustedStop_json hread]
      rfl
    | progressStalled stop =>
      change (Except.ok OutcomeStopReason.progressStalled >>= _) = _
      simp only [ok_bind, readProgressStalledStop_json hread]
      rfl
    | unreachablePendingNode stop =>
      change (Except.ok OutcomeStopReason.unreachablePendingNode >>= _) = _
      simp only [ok_bind, readUnreachablePendingNodeStop_json hread]
      rfl

end Stops
end Rolebox.Graph
