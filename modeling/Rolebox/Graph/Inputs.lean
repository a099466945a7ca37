import Rolebox.Graph.StateModel

/-! Declared inputs, assembled from what the producing attempts accepted. -/

namespace Rolebox.Graph
open List

structure AcceptedResultFacts where
  outcomeId : String
  payload : AcceptedData
  artifacts : List AcceptedArtifact

inductive AcceptedResultReading where
  | facts (facts : AcceptedResultFacts)
  | none
  | unreadable (reason : String)

inductive DownstreamInput where
  | resolved (entries : List ResolvedInput)
  | blocked (refusals : List DownstreamInputRefusal)

namespace DownstreamInput

def isResolved : DownstreamInput → Bool
  | resolved _ => true
  | blocked _ => false

end DownstreamInput

/-- One declared input: nothing, an entry, or the refusal that blocks the dispatch. -/
inductive InputReading where
  | untriggered
  | entry (entry : ResolvedInput)
  | refused (refusal : DownstreamInputRefusal)

def refuseInput (input : CompiledInputRef) (code : DownstreamInputRefusalCode)
    (message : String) : InputReading :=
  .refused { «from» := input.from, outcome := input.outcome, code := code, message := message }

def resolveInput (acceptedOf : String → AcceptedResultReading) (input : CompiledInputRef)
    (attemptId : String) : InputReading :=
  match acceptedOf attemptId with
  | .unreadable reason =>
    refuseInput input .resultUnreadable
      ("attempt " ++ quote attemptId ++ " of node " ++ quote input.from ++
        " could not be resolved to its accepted result: " ++ reason ++
        " — a consumer is never handed an empty or half-read value where a recorded " ++
        "result may exist, so the dispatch is refused instead")
  | .none =>
    refuseInput input .producerUnsettled
      ("attempt " ++ quote attemptId ++ " of node " ++ quote input.from ++
        " has no accepted result, so it produced nothing this node may consume")
  | .facts facts =>
    if facts.outcomeId ≠ input.outcome then
      refuseInput input .outcomeMismatch
        ("node " ++ quote input.from ++ " settled on outcome " ++ quote facts.outcomeId ++
          ", not " ++ quote input.outcome ++
          " — a producer that settled on another declared outcome did not produce this " ++
          "consumer's input")
    else
      .entry
        { «from» := input.from
          outcome := input.outcome
          attemptId := attemptId
          payload := facts.payload
          artifacts := facts.artifacts }

def readInput (settledAttemptOf : String → Option String)
    (acceptedOf : String → AcceptedResultReading) (arrivals : List OutcomeArrival)
    (input : CompiledInputRef) : InputReading :=
  let arrival :=
    if input.triggered then
      arrivals.find? fun entry => entry.from = input.from ∧ entry.outcome = input.outcome
    else none
  if input.triggered ∧ arrival = none then .untriggered
  else
    match (arrival.map (·.attemptId)).or (settledAttemptOf input.from) with
    | none =>
      refuseInput input .producerUnsettled
        ("this node consumes the accepted result of " ++ quote input.from ++ "/" ++
          quote input.outcome ++
          ", but that node has no settled attempt — an unaccepted dependency is not an " ++
          "absent value, it is a dispatch that would run against something nobody produced")
    | some attemptId => resolveInput acceptedOf input attemptId

def assembleDownstreamInput (inputs : List CompiledInputRef)
    (settledAttemptOf : String → Option String)
    (acceptedOf : String → AcceptedResultReading) (arrivals : List OutcomeArrival) :
    DownstreamInput :=
  let readings := inputs.map (readInput settledAttemptOf acceptedOf arrivals)
  let refusals := readings.filterMap fun
    | .refused refusal => some refusal
    | _ => none
  let entries := readings.filterMap fun
    | .entry entry => some entry
    | _ => none
  if refusals = [] then .resolved entries else .blocked refusals

section
variable {settledAttemptOf : String → Option String}
  {acceptedOf : String → AcceptedResultReading} {arrivals : List OutcomeArrival}
variable {input : CompiledInputRef} {entry : ResolvedInput} {refusal : DownstreamInputRefusal}

theorem resolveInput_entry {attemptId : String}
    (h : resolveInput acceptedOf input attemptId = .entry entry) :
    entry.from = input.from ∧ entry.outcome = input.outcome ∧ entry.attemptId = attemptId ∧
      ∃ facts, acceptedOf attemptId = .facts facts ∧ entry.artifacts = facts.artifacts := by
  unfold resolveInput at h
  cases haccepted : acceptedOf attemptId with
  | unreadable reason =>
    rw [haccepted] at h
    cases h
  | none =>
    rw [haccepted] at h
    cases h
  | facts facts =>
    rw [haccepted] at h
    simp only at h
    split at h
    · cases h
    · cases h
      exact ⟨rfl, rfl, rfl, facts, rfl, rfl⟩

theorem resolveInput_refused {attemptId : String}
    (h : resolveInput acceptedOf input attemptId = .refused refusal) :
    refusal.from = input.from ∧ refusal.outcome = input.outcome ∧ refusal.message ≠ "" := by
  unfold resolveInput at h
  cases haccepted : acceptedOf attemptId with
  | unreadable reason | none =>
    rw [haccepted] at h
    cases h
    exact ⟨rfl, rfl, by simp⟩
  | facts facts =>
    rw [haccepted] at h
    simp only at h
    split at h
    · cases h
      exact ⟨rfl, rfl, by simp⟩
    · cases h

theorem readInput_entry (h : readInput settledAttemptOf acceptedOf arrivals input = .entry entry) :
    entry.from = input.from ∧ entry.outcome = input.outcome ∧
      (settledAttemptOf input.from = some entry.attemptId ∨
        ∃ arrival ∈ arrivals, arrival.attemptId = entry.attemptId) ∧
      ∃ facts, acceptedOf entry.attemptId = .facts facts ∧ entry.artifacts = facts.artifacts := by
  unfold readInput at h
  extract_lets arrival at h
  split at h
  · cases h
  split at h
  · cases h
  next attemptId hattempt =>
  obtain ⟨hfrom, houtcome, hid, hfacts⟩ := resolveInput_entry h
  refine ⟨hfrom, houtcome, ?_, hid ▸ hfacts⟩
  rw [hid]
  rcases Option.or_eq_some_iff.1 hattempt with harrived | ⟨-, hsettled⟩
  · obtain ⟨found, hfound, hsame⟩ := Option.map_eq_some_iff.1 harrived
    have hfind : (if input.triggered then
        arrivals.find? fun entry => entry.from = input.from ∧ entry.outcome = input.outcome
      else none) = some found := hfound
    split at hfind
    · exact .inr ⟨found, mem_of_find?_eq_some hfind, hsame⟩
    · cases hfind
  · exact .inl hsettled

theorem readInput_refused
    (h : readInput settledAttemptOf acceptedOf arrivals input = .refused refusal) :
    refusal.from = input.from ∧ refusal.outcome = input.outcome ∧ refusal.message ≠ "" := by
  unfold readInput at h
  extract_lets arrival at h
  split at h
  · cases h
  split at h
  · cases h
    exact ⟨rfl, rfl, by simp⟩
  · exact resolveInput_refused h

theorem assembleDownstreamInput_resolved {inputs : List CompiledInputRef}
    {entries : List ResolvedInput}
    (h : assembleDownstreamInput inputs settledAttemptOf acceptedOf arrivals = .resolved entries)
    (he : entry ∈ entries) :
    ∃ input ∈ inputs, readInput settledAttemptOf acceptedOf arrivals input = .entry entry := by
  unfold assembleDownstreamInput at h
  simp only at h
  split at h
  · cases h
    obtain ⟨reading, hreading, hentry⟩ := mem_filterMap.1 he
    obtain ⟨input, hinput, rfl⟩ := mem_map.1 hreading
    split at hentry
    · next hread =>
      cases hentry
      exact ⟨input, hinput, hread⟩
    · cases hentry
  · cases h

theorem assembleDownstreamInput_blocked {inputs : List CompiledInputRef}
    {refusals : List DownstreamInputRefusal}
    (h : assembleDownstreamInput inputs settledAttemptOf acceptedOf arrivals = .blocked refusals)
    (hr : refusal ∈ refusals) :
    ∃ input ∈ inputs, readInput settledAttemptOf acceptedOf arrivals input = .refused refusal := by
  unfold assembleDownstreamInput at h
  simp only at h
  split at h
  · cases h
  cases h
  obtain ⟨reading, hreading, hrefusal⟩ := mem_filterMap.1 hr
  obtain ⟨input, hinput, rfl⟩ := mem_map.1 hreading
  split at hrefusal
  · next hread =>
    cases hrefusal
    exact ⟨input, hinput, hread⟩
  · cases hrefusal

end

end Rolebox.Graph
