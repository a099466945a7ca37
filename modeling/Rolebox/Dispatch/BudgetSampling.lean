import Mathlib.Algebra.BigOperators.Group.Finset.Piecewise
import Mathlib.Algebra.Order.BigOperators.Group.List
import Mathlib.Algebra.Order.Monoid.Prod
import Mathlib.Algebra.Order.Ring.Nat
import Mathlib.Algebra.Order.Ring.Unbundled.Rat
import Mathlib.Algebra.Ring.Rat
import Rolebox.Dispatch.TaskTable

/-! The budget tracker and its sampler, against the tokens of the sessions' messages. -/

namespace Rolebox.Dispatch
open List Option

abbrev Tokens := Nat × Nat

structure UsageRecord where
  inputTokens : Nat := 0
  outputTokens : Nat := 0
  cost : Rat := 0

def UsageRecord.tokens (usage : UsageRecord) : Tokens := (usage.inputTokens, usage.outputTokens)

def UsageRecord.add (usage : UsageRecord) (tokens : Tokens) (cost : Rat) : UsageRecord :=
  { inputTokens := usage.inputTokens + tokens.1
    outputTokens := usage.outputTokens + tokens.2
    cost := usage.cost + cost }

structure SessionLimits where
  maxInputTokensPerSession : Option Nat := none
  maxCostPerSession : Option Rat := none

structure BudgetTracker where
  requestUsage : String → Option UsageRecord
  sessionUsage : String → Option UsageRecord

namespace BudgetTracker

def new : BudgetTracker := { requestUsage := fun _ => none, sessionUsage := fun _ => none }

def getRequestUsage (t : BudgetTracker) (parentSessionId : String) : UsageRecord :=
  (t.requestUsage parentSessionId).getD {}

def getSessionUsage (t : BudgetTracker) (sessionId : String) : UsageRecord :=
  (t.sessionUsage sessionId).getD {}

def recordUsage (t : BudgetTracker) (sessionId parentSessionId : String) (tokens : Tokens)
    (cost : Rat) : BudgetTracker :=
  { requestUsage := Function.update t.requestUsage parentSessionId
      (some ((t.getRequestUsage parentSessionId).add tokens cost))
    sessionUsage := Function.update t.sessionUsage sessionId
      (some ((t.getSessionUsage sessionId).add tokens cost)) }

def isSessionBudgetExceeded (t : BudgetTracker) (limits : SessionLimits) (sessionId : String) :
    Bool :=
  let usage := t.getSessionUsage sessionId
  limits.maxInputTokensPerSession.any (fun max => max ≤ usage.inputTokens) ||
    limits.maxCostPerSession.any fun max => max ≤ usage.cost

def usageLeft (parent session : UsageRecord) : Option UsageRecord :=
  let left : UsageRecord :=
    { inputTokens := parent.inputTokens - session.inputTokens
      outputTokens := parent.outputTokens - session.outputTokens
      cost := max 0 (parent.cost - session.cost) }
  if left.inputTokens = 0 ∧ left.outputTokens = 0 ∧ left.cost = 0 then none else some left

def resetSessionUsage (t : BudgetTracker) (sessionId parentSessionId : String) : BudgetTracker :=
  match t.sessionUsage sessionId with
  | none => t
  | some session =>
    { requestUsage :=
        match t.requestUsage parentSessionId with
        | none => t.requestUsage
        | some parent =>
          Function.update t.requestUsage parentSessionId (usageLeft parent session)
      sessionUsage := Function.update t.sessionUsage sessionId none }

end BudgetTracker

structure MessageUsage where
  input : Option Nat := none
  output : Option Nat := none
  cost : Option Rat := none

def tokensOf (messages : List MessageUsage) : Tokens :=
  (messages.map fun message => (message.input.getD 0, message.output.getD 0)).sum

def costOf (messages : List MessageUsage) : Rat :=
  (messages.map fun message => message.cost.getD 0).sum

/-- One turn of the sampler's loop: the session, its task, and what the session client answered. -/
structure Visit where
  sessionId : String
  task : Option DispatchTask
  answer : Except String (Option (List MessageUsage))

def Visit.sampled (visit : Visit) : Option (String × List MessageUsage) :=
  match visit.task, visit.answer with
  | some task, .ok (some messages) =>
    if task.status ≠ .running ∨ messages.isEmpty then none
    else some (task.parentSessionId, messages)
  | _, _ => none

/-- One turn of the loop of `sampleBudgetUsage`: the tracker, and whether the task is cancelled. -/
def sampleSession (limits : SessionLimits) (t : BudgetTracker) (visit : Visit) :
    BudgetTracker × Bool :=
  match visit.sampled with
  | none => (t, false)
  | some (parentSessionId, messages) =>
    let t := t.recordUsage visit.sessionId parentSessionId (tokensOf messages) (costOf messages)
    (t, t.isSessionBudgetExceeded limits visit.sessionId)

def sampleBudgetUsage (limits : SessionLimits) (t : BudgetTracker) (visits : List Visit) :
    BudgetTracker :=
  visits.foldl (fun t visit => (sampleSession limits t visit).1) t

/-- What is done to the tracker: a run of the sampler, or a retry that resets a session's usage. -/
inductive BudgetOperation where
  | sample (visits : List Visit)
  | reset (sessionId parentSessionId : String)

def BudgetOperation.apply (limits : SessionLimits) (t : BudgetTracker) :
    BudgetOperation → BudgetTracker
  | sample visits => sampleBudgetUsage limits t visits
  | reset sessionId parentSessionId => t.resetSessionUsage sessionId parentSessionId

def runBudget (limits : SessionLimits) (operations : List BudgetOperation) : BudgetTracker :=
  operations.foldl (BudgetOperation.apply limits) .new

def samplesOfVisits (sessionId : String) (samples : List (List MessageUsage)) (visits : List Visit) :
    List (List MessageUsage) :=
  visits.foldl (fun samples visit =>
    if visit.sessionId = sessionId then samples ++ (visit.sampled.map (·.2)).toList else samples) samples

def samplesOf (sessionId : String) (operations : List BudgetOperation) : List (List MessageUsage) :=
  operations.foldl (fun samples operation =>
    match operation with
    | .sample visits => samplesOfVisits sessionId samples visits
    | .reset reset _ => if reset = sessionId then [] else samples) []

def seenMessages (sessionId : String) (operations : List BudgetOperation) : List MessageUsage :=
  ((samplesOf sessionId operations).getLast?).getD []

def BudgetOperation.Under (parentOf : String → String) : BudgetOperation → Prop
  | sample visits => ∀ visit ∈ visits, ∀ task ∈ visit.task,
    task.parentSessionId = parentOf visit.sessionId
  | reset sessionId parentSessionId => parentSessionId = parentOf sessionId

structure UsageExact (parentOf : String → String) (sessions : Finset String)
    (operations : List BudgetOperation) (t : BudgetTracker) : Prop where
  session : ∀ s, (t.getSessionUsage s).tokens = tokensOf (seenMessages s operations)
  request : ∀ p, (t.getRequestUsage p).tokens =
    ∑ s ∈ sessions with parentOf s = p, tokensOf (seenMessages s operations)

structure ResetRemovesShare (parentOf : String → String) (t : BudgetTracker) : Prop where
  session : ∀ s, ((t.resetSessionUsage s (parentOf s)).getSessionUsage s).tokens = 0
  others : ∀ s s', s' ≠ s →
    (t.resetSessionUsage s (parentOf s)).getSessionUsage s' = t.getSessionUsage s'
  parent : ∀ s, ((t.resetSessionUsage s (parentOf s)).getRequestUsage (parentOf s)).tokens +
    (t.getSessionUsage s).tokens = (t.getRequestUsage (parentOf s)).tokens
  requests : ∀ s p, p ≠ parentOf s →
    (t.resetSessionUsage s (parentOf s)).getRequestUsage p = t.getRequestUsage p

def BudgetOperation.Among (sessions : Finset String) : BudgetOperation → Prop
  | sample visits => ∀ visit ∈ visits, visit.sessionId ∈ sessions
  | reset sessionId _ => sessionId ∈ sessions

/-- Since its usage was last reset, no sample of a session but the last found tokens. -/
def CountedOnce (operations : List BudgetOperation) : Prop :=
  ∀ s, ∀ earlier ∈ (samplesOf s operations).dropLast, tokensOf earlier = 0

def recorded (samples : List (List MessageUsage)) : Tokens := (samples.map tokensOf).sum

@[simp] theorem recorded_nil : recorded [] = 0 := rfl

theorem recorded_append (samples more : List (List MessageUsage)) :
    recorded (samples ++ more) = recorded samples + recorded more := by
  unfold recorded
  rw [map_append, sum_append]

theorem recorded_eq_last_iff (samples : List (List MessageUsage)) :
    recorded samples = tokensOf (samples.getLast?.getD []) ↔
      ∀ earlier ∈ samples.dropLast, tokensOf earlier = 0 := by
  induction samples using reverseRecOn with
  | nil => exact ⟨nofun, fun _ => rfl⟩
  | append_singleton samples last _ =>
    have hsum : recorded (samples ++ [last]) = recorded samples + tokensOf last := by
      rw [recorded_append]
      exact congrArg (recorded samples + ·) (add_zero (tokensOf last))
    rw [getLast?_append, dropLast_concat, hsum]
    show recorded samples + tokensOf last = tokensOf last ↔ _
    rw [add_eq_right]
    unfold recorded
    rw [sum_eq_zero_iff]
    exact List.forall_mem_map

@[simp] theorem UsageRecord.tokens_add (usage : UsageRecord) (tokens : Tokens) (cost : Rat) :
    (usage.add tokens cost).tokens = usage.tokens + tokens := rfl

@[simp] theorem BudgetTracker.tokens_usageLeft (parent session : UsageRecord) :
    ((usageLeft parent session).getD {}).tokens = parent.tokens - session.tokens := by
  unfold usageLeft
  simp only
  split
  · next hzero => exact (Prod.ext hzero.1 hzero.2.1).symm
  · rfl

section Ledger
variable {parentOf : String → String} {sessions : Finset String} {limits : SessionLimits} {t : BudgetTracker} {samples : String → List (List MessageUsage)}
variable {s : String}

structure UsageLedger (parentOf : String → String) (sessions : Finset String)
    (samples : String → List (List MessageUsage)) (t : BudgetTracker) : Prop where
  session : ∀ s, (t.getSessionUsage s).tokens = recorded (samples s)
  request : ∀ p, (t.getRequestUsage p).tokens =
    ∑ s ∈ sessions with parentOf s = p, recorded (samples s)

theorem usageLedger_new : UsageLedger parentOf sessions (fun _ => []) .new where
  session := fun _ => rfl
  request := fun _ => Finset.sum_const_zero.symm

theorem sum_sessions_add (parentOf : String → String) (f : String → Tokens) (hs : s ∈ sessions)
    (a : Tokens) (p : String) :
    ∑ x ∈ sessions with parentOf x = p, (f x + if x = s then a else 0) =
      (∑ x ∈ sessions with parentOf x = p, f x) + if parentOf s = p then a else 0 := by
  rw [Finset.sum_add_distrib, Finset.sum_ite_eq']
  simp only [Finset.mem_filter, hs, true_and]

theorem UsageLedger.sampleSession (limits : SessionLimits) (hledger : UsageLedger parentOf sessions samples t)
    {visit : Visit} (hmem : visit.sessionId ∈ sessions)
    (hunder : ∀ task ∈ visit.task, task.parentSessionId = parentOf visit.sessionId) :
    UsageLedger parentOf sessions
      (fun s => if visit.sessionId = s then samples s ++ (visit.sampled.map (·.2)).toList
        else samples s) (sampleSession limits t visit).1 := by
  unfold Dispatch.sampleSession
  cases hsampled : visit.sampled with
  | none =>
    simp only [map_none, toList_none, append_nil, ite_self]
    exact hledger
  | some found =>
    obtain ⟨parentSessionId, messages⟩ := found
    have hparent : parentSessionId = parentOf visit.sessionId := by
      unfold Visit.sampled at hsampled
      split at hsampled
      · next task messages' htask hanswer =>
        split at hsampled
        · exact nomatch hsampled
        · obtain ⟨rfl, -⟩ := Prod.mk.inj (Option.some.inj hsampled)
          exact hunder task htask
      · exact nomatch hsampled
    subst hparent
    have hnew : ∀ s, recorded (if visit.sessionId = s then samples s ++ [messages] else samples s) =
        recorded (samples s) + if s = visit.sessionId then tokensOf messages else 0 := by
      intro s
      by_cases hs : visit.sessionId = s
      · subst hs
        rw [if_pos rfl, if_pos rfl, recorded_append]
        exact congrArg (recorded _ + ·) (add_zero (tokensOf messages))
      · rw [if_neg hs, if_neg (Ne.symm hs), add_zero]
    constructor
    · intro s
      simp only [map_some, toList_some, hnew]
      by_cases hs : s = visit.sessionId
      · subst hs
        rw [if_pos rfl, ← hledger.session]
        simp [BudgetTracker.getSessionUsage, BudgetTracker.recordUsage]
      · rw [if_neg hs, add_zero, ← hledger.session]
        simp [BudgetTracker.getSessionUsage, BudgetTracker.recordUsage, hs]
    · intro p
      simp only [map_some, toList_some, hnew]
      rw [sum_sessions_add parentOf _ hmem, ← hledger.request]
      by_cases hp : parentOf visit.sessionId = p
      · subst hp
        rw [if_pos rfl]
        simp [BudgetTracker.getRequestUsage, BudgetTracker.recordUsage]
      · rw [if_neg hp, add_zero]
        simp [BudgetTracker.getRequestUsage, BudgetTracker.recordUsage, Ne.symm hp]

theorem UsageLedger.sampleBudgetUsage {visits : List Visit}
    (hledger : UsageLedger parentOf sessions samples t)
    (hmem : ∀ visit ∈ visits, visit.sessionId ∈ sessions)
    (hunder : ∀ visit ∈ visits, ∀ task ∈ visit.task,
      task.parentSessionId = parentOf visit.sessionId) :
    UsageLedger parentOf sessions (fun s => samplesOfVisits s (samples s) visits)
      (sampleBudgetUsage limits t visits) := by
  induction visits generalizing t samples with
  | nil => exact hledger
  | cons visit visits ih =>
    have hfirst := hledger.sampleSession limits (hmem visit (.head _))
      (hunder visit (.head _))
    exact ih hfirst (fun v hv => hmem v (.tail _ hv))
      fun v hv => hunder v (.tail _ hv)

theorem UsageLedger.reset (hledger : UsageLedger parentOf sessions samples t) (hs : s ∈ sessions) :
    UsageLedger parentOf sessions (fun x => if s = x then [] else samples x)
      (t.resetSessionUsage s (parentOf s)) := by
  have hnew : ∀ x, recorded (samples x) =
      recorded (if s = x then [] else samples x) + if x = s then recorded (samples s) else 0 := by
    intro x
    by_cases hx : s = x
    · subst hx
      rw [if_pos rfl, if_pos rfl, recorded_nil, zero_add]
    · rw [if_neg hx, if_neg (Ne.symm hx), add_zero]
  have hsum : ∀ p, (t.getRequestUsage p).tokens =
      (∑ x ∈ sessions with parentOf x = p, recorded (if s = x then [] else samples x)) +
        if parentOf s = p then recorded (samples s) else 0 := by
    intro p
    rw [hledger.request, ← sum_sessions_add parentOf _ hs]
    exact Finset.sum_congr rfl fun x _ => hnew x
  unfold BudgetTracker.resetSessionUsage
  cases hsession : t.sessionUsage s with
  | none =>
    have hzero : recorded (samples s) = 0 := by
      rw [← hledger.session]
      simp [BudgetTracker.getSessionUsage, hsession, UsageRecord.tokens]
    refine ⟨fun x => ?_, fun p => ?_⟩
    · rw [hledger.session, hnew x, hzero, ite_self, add_zero]
    · rw [hsum p, hzero, ite_self, add_zero]
  | some session =>
    have hshare : session.tokens = recorded (samples s) := by
      rw [← hledger.session]
      simp [BudgetTracker.getSessionUsage, hsession]
    refine ⟨fun x => ?_, fun p => ?_⟩
    · by_cases hx : s = x
      · subst hx
        simp [BudgetTracker.getSessionUsage, UsageRecord.tokens]
      · rw [if_neg hx, ← hledger.session]
        simp [BudgetTracker.getSessionUsage, Ne.symm hx]
    · have hp := hsum p
      by_cases hparent : parentOf s = p
      · subst hparent
        rw [if_pos rfl] at hp
        cases hrequest : t.requestUsage (parentOf s) with
        | none =>
          have hzero : (t.getRequestUsage (parentOf s)).tokens = 0 := by
            simp [BudgetTracker.getRequestUsage, hrequest, UsageRecord.tokens]
          rw [hzero] at hp
          simp only [BudgetTracker.getRequestUsage, hrequest, getD_none]
          exact (add_eq_zero.1 hp.symm).1.symm
        | some parent =>
          have hheld : parent.tokens = (t.getRequestUsage (parentOf s)).tokens := by
            simp [BudgetTracker.getRequestUsage, hrequest]
          simp only [BudgetTracker.getRequestUsage, Function.update_self,
            BudgetTracker.tokens_usageLeft]
          rw [hheld, hshare, hp]
          exact Prod.ext (Nat.add_sub_cancel ..) (Nat.add_sub_cancel ..)
      · rw [if_neg hparent, add_zero] at hp
        rw [← hp]
        cases hrequest : t.requestUsage (parentOf s) with
        | none => rfl
        | some parent => simp [BudgetTracker.getRequestUsage, Ne.symm hparent]

theorem runBudget_ledger (limits : SessionLimits) (sessions : Finset String)
    {operations : List BudgetOperation} (hmem : ∀ operation ∈ operations, operation.Among sessions)
    (hunder : ∀ operation ∈ operations, operation.Under parentOf) :
    UsageLedger parentOf sessions (fun s => samplesOf s operations) (runBudget limits operations) := by
  induction operations using reverseRecOn with
  | nil => exact usageLedger_new
  | append_singleton operations operation ih =>
    have hbefore := ih (fun o ho => hmem o (mem_append_left _ ho))
      fun o ho => hunder o (mem_append_left _ ho)
    have hmem' := hmem operation (mem_append_right _ (mem_singleton_self _))
    have hunder' := hunder operation (mem_append_right _ (mem_singleton_self _))
    unfold runBudget samplesOf
    simp only [foldl_append, foldl_cons, foldl_nil]
    cases operation with
    | sample visits => exact hbefore.sampleBudgetUsage hmem' hunder'
    | reset s p =>
      obtain rfl : p = parentOf s := hunder'
      exact hbefore.reset hmem'

theorem BudgetTracker.resetSessionUsage_session (t : BudgetTracker) {s' p : String} (hs : s' ≠ s) :
    (t.resetSessionUsage s p).getSessionUsage s' = t.getSessionUsage s' := by
  unfold BudgetTracker.resetSessionUsage
  cases t.sessionUsage s with
  | none => rfl
  | some session => simp [BudgetTracker.getSessionUsage, hs]

theorem BudgetTracker.resetSessionUsage_request (t : BudgetTracker) {p p' : String} (hp : p' ≠ p) :
    (t.resetSessionUsage s p).getRequestUsage p' = t.getRequestUsage p' := by
  unfold BudgetTracker.resetSessionUsage
  cases t.sessionUsage s with
  | none => rfl
  | some session =>
    cases hrequest : t.requestUsage p with
    | none => rfl
    | some parent => simp [BudgetTracker.getRequestUsage, hp]

theorem UsageLedger.reset_share (hledger : UsageLedger parentOf sessions samples t)
    (hs : s ∈ sessions) :
    ((t.resetSessionUsage s (parentOf s)).getSessionUsage s).tokens = 0 ∧
      ((t.resetSessionUsage s (parentOf s)).getRequestUsage (parentOf s)).tokens +
        (t.getSessionUsage s).tokens = (t.getRequestUsage (parentOf s)).tokens := by
  have hreset := hledger.reset hs
  constructor
  · rw [hreset.session, if_pos rfl, recorded_nil]
  rw [hreset.request, hledger.session, hledger.request]
  have hsum := sum_sessions_add parentOf (fun x => recorded (if s = x then [] else samples x)) hs
    (recorded (samples s)) (parentOf s)
  rw [if_pos rfl] at hsum
  rw [← hsum]
  refine Finset.sum_congr rfl fun x _ => ?_
  by_cases hx : s = x
  · subst hx
    rw [if_pos rfl, if_pos rfl, recorded_nil, zero_add]
  · rw [if_neg hx, if_neg (Ne.symm hx), add_zero]

end Ledger

/-- The recorded tokens are those of the messages last seen exactly when no session was sampled
again after a sample that found tokens. -/
theorem usage_exact_iff (limits : SessionLimits) (parentOf : String → String)
    (sessions : Finset String) (operations : List BudgetOperation)
    (hmem : ∀ operation ∈ operations, operation.Among sessions)
    (hunder : ∀ operation ∈ operations, operation.Under parentOf) :
    (UsageExact parentOf sessions operations (runBudget limits operations) ∧
      ResetRemovesShare parentOf (runBudget limits operations)) ↔ CountedOnce operations := by
  have hledger := runBudget_ledger limits sessions hmem hunder
  have hshare : ∀ s, _ := fun s =>
    (runBudget_ledger limits (insert s sessions)
      (fun operation hoperation => by
        have hold := hmem operation hoperation
        cases operation with
        | sample visits => exact fun visit hvisit => Finset.mem_insert_of_mem (hold visit hvisit)
        | reset s' p => exact Finset.mem_insert_of_mem hold)
      hunder).reset_share (Finset.mem_insert_self s sessions)
  constructor
  · rintro ⟨hexact, -⟩ s
    exact (recorded_eq_last_iff _).1 ((hledger.session s).symm.trans (hexact.session s))
  · intro hcounted
    have hlast : ∀ s, recorded (samplesOf s operations) = tokensOf (seenMessages s operations) :=
      fun s => (recorded_eq_last_iff _).2 (hcounted s)
    refine ⟨⟨fun s => (hledger.session s).trans (hlast s), fun p => ?_⟩, ?_⟩
    · rw [hledger.request]
      exact Finset.sum_congr rfl fun s _ => hlast s
    · exact ⟨fun s => (hshare s).1,
        fun s s' hs => BudgetTracker.resetSessionUsage_session _ hs, fun s => (hshare s).2,
        fun s p hp => BudgetTracker.resetSessionUsage_request _ hp⟩

def answeredOnce : List MessageUsage := [{ input := some 10, output := some 5 }]

def visitOf (sessionId : String) (messages : List MessageUsage) : Visit :=
  { sessionId := sessionId
    task := some { (default : DispatchTask) with parentSessionId := "parent", status := .running }
    answer := .ok (some messages) }

def answeredVisit : Visit := visitOf "worker" answeredOnce

/-- Two samples of one session whose messages did not change count them twice. -/
theorem sampled_twice_not_exact :
    ¬ UsageExact (fun _ => "parent") {"worker"} [.sample [answeredVisit], .sample [answeredVisit]]
      (runBudget {} [.sample [answeredVisit], .sample [answeredVisit]]) := by
  intro hexact
  have hsession := hexact.session "worker"
  exact absurd hsession (by decide +kernel)

def retried : List BudgetOperation :=
  [.sample [answeredVisit, visitOf "reviewer" [{ input := some 3 }]], .reset "worker" "parent",
    .sample [visitOf "worker" [{ input := some 7, output := some 2 }]]]

theorem retried_countedOnce : CountedOnce retried := by
  intro s earlier hearlier
  have hnone : (samplesOf s retried).dropLast = [] := by
    by_cases hworker : "worker" = s
    · subst hworker
      rfl
    by_cases hreviewer : "reviewer" = s
    · subst hreviewer
      rfl
    simp [samplesOf, samplesOfVisits, retried, answeredVisit, visitOf, hworker, hreviewer]
  rw [hnone] at hearlier
  exact absurd hearlier not_mem_nil

/-- A worker is sampled, retried and sampled again beside another session of its parent. -/
theorem usage_exact_iff_retried :
    ((runBudget {} retried).getRequestUsage "parent").tokens = (10, 2) ∧
      UsageExact (fun _ => "parent") {"worker", "reviewer"} retried (runBudget {} retried) ∧
      ResetRemovesShare (fun _ => "parent") (runBudget {} retried) := by
  refine ⟨by decide +kernel, (usage_exact_iff {} (fun _ => "parent") {"worker", "reviewer"} retried
    ?_ ?_).2 retried_countedOnce⟩
  · simp [retried, answeredVisit, visitOf, BudgetOperation.Among]
  · simp [retried, answeredVisit, visitOf, BudgetOperation.Under]
end Rolebox.Dispatch
