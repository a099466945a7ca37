import Rolebox.Graph.Plan

/-! The persisted progress of one run: node entries, loop counters, progress entries, stops. -/

namespace Rolebox.Graph
open General List
variable {nodes : List OutcomeNodeState}

inductive AcceptedData where
  | absent
  | value (json : Json)

structure AcceptedArtifact where
  ref : String
  artifactId : String
  digest : String
  size : Nat

structure ResolvedInput where
  «from» : String
  outcome : String
  attemptId : String
  payload : AcceptedData
  artifacts : List AcceptedArtifact

inductive DownstreamInputRefusalCode where
  | producerUnsettled
  | outcomeMismatch
  | artifactMissing
  | resultUnreadable
  deriving DecidableEq

structure DownstreamInputRefusal where
  «from» : String
  outcome : String
  code : DownstreamInputRefusalCode
  message : String

structure OutcomeArrival where
  «from» : String
  outcome : String
  attemptId : String
  deriving DecidableEq

structure HostInvocationIdentity where
  sessionId : String
  agentId : String
  deriving DecidableEq

structure DispatchFacts where
  attemptId : String
  attemptSeq : Nat
  attemptCredentialDigest : String
  dispatchIdentity : Option HostInvocationIdentity
  dispatchedAt : Nat
  inputs : Option (List ResolvedInput)

inductive NodeProgress where
  | pending
  | dispatched (facts : DispatchFacts)
  | settled (facts : DispatchFacts) (outcomeId : String) (settledAt : Nat)

structure OutcomeNodeState where
  nodeId : String
  progress : NodeProgress
  arrivals : List OutcomeArrival
  inputRefusals : Option (List DownstreamInputRefusal)

inductive OutcomeNodeStatus where
  | pending
  | dispatched
  | settled
  deriving DecidableEq

namespace NodeProgress

def status : NodeProgress → OutcomeNodeStatus
  | pending => .pending
  | dispatched _ => .dispatched
  | settled .. => .settled

def attemptId? : NodeProgress → Option String
  | pending => none
  | dispatched facts => some facts.attemptId
  | settled facts .. => some facts.attemptId

@[simp] theorem status_pending : pending.status = .pending := rfl
@[simp] theorem status_dispatched (f : DispatchFacts) : (dispatched f).status = .dispatched := rfl
@[simp] theorem status_settled (f : DispatchFacts) (o : String) (t : Nat) :
    (settled f o t).status = .settled := rfl

end NodeProgress

namespace OutcomeNodeState

def status (entry : OutcomeNodeState) : OutcomeNodeStatus := entry.progress.status

def attemptId? (entry : OutcomeNodeState) : Option String := entry.progress.attemptId?

end OutcomeNodeState

/-- A traversal counter. `text` is a property's text followed by that many digits `1`. -/
inductive CounterValue where
  | number (n : Nat)
  | text (ones : Nat)

structure OutcomeLoopProgress where
  loopGroupId : String
  evaluator : String
  version : Nat
  subject : String
  unchanged : Nat
  baseline : Option String

inductive OutcomeGraphPhase where
  | ready
  | executing
  | complete
  | stopped
  deriving DecidableEq

structure OutcomeLoopExhaustedStop where
  loopGroupId : String
  nodeId : String
  outcomeId : String
  attemptId : String
  traversals : Nat
  maxTraversals : Nat
  stoppedAt : Nat

structure OutcomeProgressStalledStop where
  loopGroupId : String
  nodeId : String
  outcomeId : String
  attemptId : String
  unchanged : Nat
  maxUnchanged : Nat
  evaluator : String
  evaluatorVersion : Nat
  subject : String
  baseline : String
  stoppedAt : Nat

structure OutcomeUnreachablePendingNodeStop where
  blockedNodes : PlainObject (List String)
  stoppedAt : Nat

inductive OutcomeStop where
  | loopExhausted (stop : OutcomeLoopExhaustedStop)
  | progressStalled (stop : OutcomeProgressStalledStop)
  | unreachablePendingNode (stop : OutcomeUnreachablePendingNodeStop)

def CURRENT_OUTCOME_STATE_BODY : Nat := 10

structure OutcomeGraphState where
  bodyVersion : Nat
  graphId : String
  planRevision : String
  phase : OutcomeGraphPhase
  nodes : List OutcomeNodeState
  loopTraversals : PlainObject CounterValue
  attemptSeq : Nat
  stop : Option OutcomeStop
  loopProgress : PlainObject OutcomeLoopProgress

def entryOf (nodes : List OutcomeNodeState) (nodeId : String) : Option OutcomeNodeState :=
  nodes.find? (·.nodeId = nodeId)

theorem entryOf_some {nodeId : String} {entry : OutcomeNodeState}
    (h : entryOf nodes nodeId = some entry) : entry ∈ nodes ∧ entry.nodeId = nodeId :=
  ⟨mem_of_find?_eq_some h, by simpa using find?_some h⟩

theorem entryOf_of_mem (hn : (nodes.map (·.nodeId)).Nodup) {entry : OutcomeNodeState}
    (h : entry ∈ nodes) : entryOf nodes entry.nodeId = some entry := by
  induction nodes with
  | nil => cases h
  | cons head nodes ih =>
    obtain ⟨hh, hl⟩ := nodup_cons.1 hn
    unfold entryOf
    rcases mem_cons.1 h with rfl | ht
    · simp
    have hne : head.nodeId ≠ entry.nodeId := fun heq =>
      hh (mem_map.2 ⟨entry, ht, heq.symm⟩)
    rw [find?_cons_of_neg (by simpa using hne)]
    exact ih hl ht

theorem entryOf_forall₂ {R : OutcomeNodeState → OutcomeNodeState → Prop}
    {nodes' : List OutcomeNodeState} (h : Forall₂ R nodes nodes')
    (hid : ∀ before after, R before after → after.nodeId = before.nodeId) (nodeId : String) :
    Option.Rel R (entryOf nodes nodeId) (entryOf nodes' nodeId) :=
  find?_forall₂ h fun before after hr => by simp only [hid before after hr]

end Rolebox.Graph
