import Rolebox.Outcome.Recovery

/-! What justifies each create and each re-issue of a recovery: the exchanges before it. -/

namespace Rolebox.Graph
open General Transaction Program List

section Justified
variable (context : RecoveryContext) (state : OutcomeGraphState) {effects : List UnsettledEffect}
  {effect : StoreEffectKey} {lookup : OutcomeExecutionLookup} {h : List RecoveryExchange}

def PendingDispatch (h : List RecoveryExchange) (nodeId attemptId : String)
    (facts : DispatchFacts) : Prop :=
  ∃ effects : List UnsettledEffect, ⟨RecoveryCall.pendingEffects, .ok effects⟩ ∈ h ∧
    ∃ effect ∈ effects, effect.kind = "dispatch" ∧ effect.status = .pending ∧
      (∃ target, readDispatchRequest effect.payload context.graphId context.plan.planRevision =
          .ok target ∧ target.nodeId = nodeId ∧ target.attemptId = attemptId) ∧
      dispatchedNodeOf state nodeId = some facts ∧ facts.attemptId = attemptId

/-- The joined answers prove that no execution exists, and nothing was created since. -/
def ProvenAbsent (h : List RecoveryExchange) (effect : StoreEffectKey) : Prop :=
  ∃ before after «local» platform,
    h = before ++ [⟨RecoveryCall.lookupLocal effect, .ok «local»⟩,
      ⟨RecoveryCall.lookupPlatform effect, platform⟩] ++ after ∧
    joinExecutionLookups «local» platform = .absent ∧
    ∀ exchange ∈ after, ∀ request key, exchange.call ≠ RecoveryCall.create request key

/-- The last answer is the run's decisions, and none of them stops the attempt. -/
def NoStopRecorded (h : List RecoveryExchange) (attemptId : String) : Prop :=
  ∃ before decisions, h = before ++ [⟨RecoveryCall.controlDecisions, decisions⟩] ∧
    ∀ decision ∈ (decisions : List ControlDecisionRecord), decision.attemptId = attemptId →
      decision.command ∉ STOPPING_CONTROL_COMMANDS

/-- The last answer gave this caller the create right of the effect. -/
def ClaimTaken (h : List RecoveryExchange) (effect : StoreEffectKey) : Prop :=
  ∃ before ownerId,
    h = before ++ [⟨RecoveryCall.claim effect, AttemptReissueClaim.claimed ownerId⟩]

def RecoveryJustified (h : List RecoveryExchange) : RecoveryCall → Prop
  | .create request effect =>
    (∃ facts, PendingDispatch context state h request.nodeId request.attemptId facts) ∧
      effect = context.effectKey request.attemptId ∧ ProvenAbsent h effect ∧
      NoStopRecorded h request.attemptId
  | .replaceAttemptCredential nodeId attemptId _ observedDigest =>
    (∃ facts, PendingDispatch context state h nodeId attemptId facts ∧
        facts.attemptCredentialDigest = observedDigest) ∧
      ProvenAbsent h (context.effectKey attemptId) ∧
      ClaimTaken h (context.effectKey attemptId)
  | _ => True

theorem ProvenAbsent.snoc (habsent : ProvenAbsent h effect) {exchange : RecoveryExchange}
    (hcall : ∀ request key, exchange.call ≠ RecoveryCall.create request key) :
    ProvenAbsent (h ++ [exchange]) effect := by
  obtain ⟨before, after, «local», platform, rfl, hjoin, hnone⟩ := habsent
  refine ⟨before, after ++ [exchange], «local», platform, ?_, hjoin, ?_⟩
  · rw [append_assoc _ after]
  intro other hother
  rcases mem_append.1 hother with hafter | hlast
  · exact hnone other hafter
  · rw [mem_singleton.1 hlast]
    exact hcall

structure Asked (effects : List UnsettledEffect) (effect : StoreEffectKey)
    (lookup : OutcomeExecutionLookup) (h : List RecoveryExchange) : Prop where
  effects_mem : ⟨RecoveryCall.pendingEffects, .ok effects⟩ ∈ h
  absent : lookup = .absent → ProvenAbsent h effect

theorem Asked.snoc (hasked : Asked effects effect lookup h) (exchange : RecoveryExchange)
    (hcall : ∀ request key, exchange.call ≠ RecoveryCall.create request key) :
    Asked effects effect lookup (h ++ [exchange]) :=
  { effects_mem := mem_append_left _ hasked.effects_mem
    absent := fun habsent => (hasked.absent habsent).snoc hcall }

structure Corroborated (effects : List UnsettledEffect) (effect : UnsettledEffect)
    (target : OutcomeDispatchTarget) (facts : DispatchFacts) : Prop where
  answered : effect ∈ effects
  dispatch : effect.kind = "dispatch"
  payload : readDispatchRequest effect.payload context.graphId context.plan.planRevision =
    .ok target
  dispatched : dispatchedNodeOf state target.nodeId = some facts
  attempt : facts.attemptId = target.attemptId

variable {context state} {unsettled : UnsettledEffect} {target : OutcomeDispatchTarget}
  {facts : DispatchFacts}

theorem Corroborated.pendingDispatch
    (hnamed : Corroborated context state effects unsettled target facts)
    (hpending : unsettled.status = .pending)
    (heffects : ⟨RecoveryCall.pendingEffects, .ok effects⟩ ∈ h) :
    PendingDispatch context state h target.nodeId target.attemptId facts :=
  ⟨effects, heffects, unsettled, hnamed.answered, hnamed.dispatch, hpending,
    ⟨target, hnamed.payload, rfl, rfl⟩, hnamed.dispatched, hnamed.attempt⟩

end Justified

section Steps
variable {context : RecoveryContext} {state : OutcomeGraphState} {effects : List UnsettledEffect}
  {key : StoreEffectKey} {lookup : OutcomeExecutionLookup} {h : List RecoveryExchange}
  {effect : UnsettledEffect} {target : OutcomeDispatchTarget} {facts : DispatchFacts}
variable {attemptId : String} {now : Nat} {observedDigest : String} {inputs : List ResolvedInput}
  {credential : String} {report : RecoveryReport}

theorem lookupExecution_guarded (heffects : ⟨RecoveryCall.pendingEffects, .ok effects⟩ ∈ h) :
    Guarded (RecoveryJustified context state) (fun h lookup => Asked effects key lookup h) h
      (lookupExecution key) := by
  unfold lookupExecution
  refine Guarded.ask_bind trivial fun answered => ?_
  have hmem := mem_append_left [(⟨RecoveryCall.lookupLocal key, answered⟩ : RecoveryExchange)]
    heffects
  match answered with
  | .error error => exact Guarded.pure ⟨hmem, nofun⟩
  | .ok «local» =>
    refine Guarded.ask_bind trivial fun platform => Guarded.pure ⟨mem_append_left _ hmem, ?_⟩
    intro habsent
    refine ⟨h, [], «local», platform, ?_, habsent, by simp⟩
    rw [append_nil, append_assoc]
    rfl

theorem resolveStoredCredential_guarded {nodeId : String} (hasked : Asked effects key lookup h) :
    Guarded (RecoveryJustified context state) (fun h _ => Asked effects key lookup h) h
      (resolveStoredCredential nodeId attemptId) := by
  unfold resolveStoredCredential
  refine Guarded.ask_bind trivial fun answered => ?_
  have hnext := hasked.snoc ⟨.resolveCredential nodeId attemptId, answered⟩
    fun _ _ => RecoveryCall.noConfusion
  match answered with
  | .noStore => exact Guarded.pure hnext
  | .threw => exact Guarded.pure hnext
  | .answered value =>
    dsimp only
    split <;> exact Guarded.pure hnext

section

variable (hnamed : Corroborated context state effects effect target facts)
include hnamed

theorem replaceUnderClaim_guarded {ownerId : String}
    (hpending : effect.status = .pending) (hdigest : facts.attemptCredentialDigest = observedDigest)
    (hasked : Asked effects (context.effectKey target.attemptId) .absent h)
    (hclaim : ClaimTaken h (context.effectKey target.attemptId)) :
    Guarded (RecoveryJustified context state)
      (fun h _ => Asked effects (context.effectKey target.attemptId) .absent h) h
      (replaceUnderClaim context target now observedDigest ownerId) := by
  unfold replaceUnderClaim
  refine Guarded.ask_bind ?_ fun replaced => ?_
  · refine ⟨⟨facts, ?_, hdigest⟩, hasked.absent rfl, hclaim⟩
    exact hnamed.pendingDispatch hpending hasked.effects_mem
  have hreplaced := hasked.snoc
    ⟨.replaceAttemptCredential target.nodeId target.attemptId now observedDigest, replaced⟩
    fun _ _ => RecoveryCall.noConfusion
  match replaced with
  | .ok credential => exact Guarded.pure hreplaced
  | .error refusal =>
    refine Guarded.ask_bind trivial fun abandoned => Guarded.pure (hreplaced.snoc _ ?_)
    exact fun _ _ => RecoveryCall.noConfusion

theorem reissueLostCredential_guarded {reason : String}
    (hdigest : facts.attemptCredentialDigest = observedDigest)
    (hasked : Asked effects (context.effectKey target.attemptId) lookup h) :
    Guarded (RecoveryJustified context state)
      (fun h _ => Asked effects (context.effectKey target.attemptId) lookup h) h
      (reissueLostCredential context effect.toPendingEffectRecord target lookup now reason
        observedDigest) := by
  unfold reissueLostCredential
  refine Guarded.ite (fun _ => Guarded.pure hasked) fun hstatus => ?_
  refine Guarded.ite (fun _ => Guarded.pure hasked) fun hlookup => ?_
  have hpending : effect.status = .pending := not_not.1 hstatus
  have habsent : lookup = .absent := not_not.1 hlookup
  subst habsent
  refine Guarded.ask_bind trivial fun claim => ?_
  have hclaimed := hasked.snoc
    ⟨.claim (context.effectKey target.attemptId), claim⟩
    fun _ _ => RecoveryCall.noConfusion
  match claim with
  | .noFence => exact Guarded.pure hclaimed
  | .held heldReason => exact Guarded.pure hclaimed
  | .threw error => exact Guarded.pure hclaimed
  | .claimed ownerId =>
    exact replaceUnderClaim_guarded hnamed hpending hdigest hclaimed ⟨h, ownerId, rfl⟩

theorem deliveredCredential_guarded (hdigest : facts.attemptCredentialDigest = observedDigest)
    (hasked : Asked effects (context.effectKey target.attemptId) lookup h) :
    Guarded (RecoveryJustified context state)
      (fun h _ => Asked effects (context.effectKey target.attemptId) lookup h) h
      (deliveredCredential context effect.toPendingEffectRecord target lookup now
        observedDigest) := by
  unfold deliveredCredential
  refine Guarded.bind (resolveStoredCredential_guarded hasked) fun h resolved hresolved => ?_
  match resolved with
  | .ok credential => exact Guarded.pure hresolved
  | .error reason =>
    refine Guarded.bind (reissueLostCredential_guarded hnamed hdigest hresolved) ?_
    exact fun h reissued hreissued => Guarded.pure hreissued

end

def Answered (effects : List UnsettledEffect) (h : List RecoveryExchange) : Prop :=
  ⟨RecoveryCall.pendingEffects, .ok effects⟩ ∈ h

theorem markDispatchStarted_guarded (heffects : Answered effects h) :
    Guarded (RecoveryJustified context state) (fun h _ => Answered effects h) h
      (markDispatchStarted context attemptId) := by
  unfold markDispatchStarted
  refine Guarded.ask_bind trivial fun transition => ?_
  have hnext : Answered effects (h ++ [⟨.markEffectStarted (dispatchEffectIdOf attemptId),
      transition⟩]) := mem_append_left _ heffects
  match transition with
  | .transitioned => exact Guarded.pure hnext
  | .unchanged => exact Guarded.pure hnext
  | .refused reason => exact Guarded.pure hnext
  | .missing reason => exact Guarded.pure hnext

theorem dispatchRequestOf_ok {plan : CompiledPlan} {nodeId agent prompt : String}
    {request : OutcomeDispatchRequest}
    (hrequest : dispatchRequestOf plan nodeId attemptId agent prompt inputs credential =
      .ok request) : request.nodeId = nodeId ∧ request.attemptId = attemptId := by
  unfold dispatchRequestOf at hrequest
  split at hrequest
  · cases hrequest
  · cases hrequest
    exact ⟨rfl, rfl⟩

section

variable (hnamed : Corroborated context state effects effect target facts)
include hnamed

theorem launchAttempt_guarded (hpending : effect.status = .pending)
    (hasked : Asked effects (context.effectKey target.attemptId) .absent h) :
    Guarded (RecoveryJustified context state) (fun h _ => Answered effects h) h
      (launchAttempt context report effect.toPendingEffectRecord target inputs credential) := by
  unfold launchAttempt
  refine Guarded.ask_bind trivial fun decisions => ?_
  have hread := hasked.snoc ⟨.controlDecisions, decisions⟩
    fun _ _ => RecoveryCall.noConfusion
  cases hstopping : stoppingDecisionOf decisions target.attemptId with
  | some stopping =>
    refine Guarded.ask_bind trivial fun stopped => Guarded.pure ?_
    exact mem_append_left _ hread.effects_mem
  | none =>
    cases hrequest : dispatchRequestOf context.plan target.nodeId target.attemptId target.agent
      target.prompt inputs credential with
    | error error => exact Guarded.pure hread.effects_mem
    | ok request =>
      obtain ⟨hnode, hattempt⟩ := dispatchRequestOf_ok hrequest
      refine Guarded.ask_bind ?_ fun created => ?_
      · refine ⟨⟨facts, ?_⟩, ?_, hread.absent rfl, h, decisions, rfl, ?_⟩
        · rw [hnode, hattempt]
          exact hnamed.pendingDispatch hpending hread.effects_mem
        · rw [hattempt]
        · rw [hattempt]
          exact stoppingDecisionOf_none hstopping
      have hcreated : Answered effects (h ++ [⟨.controlDecisions, decisions⟩] ++
          [⟨.create request (context.effectKey target.attemptId), created⟩]) :=
        mem_append_left _ hread.effects_mem
      match created with
      | .error error => exact Guarded.pure hcreated
      | .ok () =>
        refine Guarded.bind (markDispatchStarted_guarded hcreated) fun h marked hmarked => ?_
        match marked with
        | some refusal => exact Guarded.pure hmarked
        | none => exact Guarded.pure hmarked

theorem resolvePending_guarded (hpending : effect.status = .pending)
    (hasked : Asked effects (context.effectKey target.attemptId) lookup h) :
    Guarded (RecoveryJustified context state) (fun h _ => Answered effects h) h
      (resolvePending context report effect.toPendingEffectRecord target inputs lookup
        credential) := by
  match lookup with
  | .unknown reason => exact Guarded.pure hasked.effects_mem
  | .absent => exact launchAttempt_guarded hnamed hpending hasked
  | .created execution =>
    refine Guarded.bind (markDispatchStarted_guarded hasked.effects_mem) fun h marked hmarked => ?_
    match marked with
    | some refusal => exact Guarded.pure hmarked
    | none => exact Guarded.pure hmarked

theorem reconcileDispatched_guarded (heffects : Answered effects h) :
    Guarded (RecoveryJustified context state) (fun h _ => Answered effects h) h
      (reconcileDispatched context report effect.toPendingEffectRecord target facts now) := by
  unfold reconcileDispatched
  refine Guarded.ite (fun _ => Guarded.pure heffects) fun _ => ?_
  refine Guarded.bind (lookupExecution_guarded heffects) fun h lookup hasked => ?_
  refine Guarded.bind (deliveredCredential_guarded hnamed rfl hasked) fun h delivered hasked => ?_
  match delivered with
  | .error refusal => exact Guarded.pure hasked.effects_mem
  | .ok (credential, reissued) =>
    refine Guarded.ite (fun _ => Guarded.pure hasked.effects_mem) fun hstarted => ?_
    exact resolvePending_guarded hnamed (effect.unsettled.resolve_right hstarted) hasked

end

theorem reconcileUncorroborated_guarded (heffects : Answered effects h) :
    Guarded (RecoveryJustified context state) (fun h _ => Answered effects h) h
      (reconcileUncorroborated state report effect.toPendingEffectRecord target) := by
  unfold reconcileUncorroborated
  split
  · refine Guarded.ask_bind trivial fun marked => Guarded.pure ?_
    exact mem_append_left _ heffects
  · exact Guarded.pure heffects

theorem reconcileEffect_guarded (hmem : effect ∈ effects) (heffects : Answered effects h) :
    Guarded (RecoveryJustified context state) (fun h _ => Answered effects h) h
      (reconcileEffect context state now report effect.toPendingEffectRecord) := by
  unfold reconcileEffect
  refine Guarded.ite (fun _ => Guarded.pure heffects) fun hkind => ?_
  split
  · exact Guarded.pure heffects
  next target hpayload =>
  split
  · exact reconcileUncorroborated_guarded heffects
  next facts hfacts =>
  obtain ⟨hdispatched, hattempt⟩ := Option.filter_eq_some_iff.1 hfacts
  refine reconcileDispatched_guarded ?_ heffects
  exact { answered := hmem
          dispatch := not_not.1 hkind
          payload := hpayload
          dispatched := hdispatched
          attempt := of_decide_eq_true hattempt }

theorem reconcile_guarded (context : RecoveryContext) (state : OutcomeGraphState) (now : Nat) :
    Guarded (RecoveryJustified context state) (fun _ _ => True) [] (reconcile context state now) := by
  unfold reconcile
  refine Guarded.ask_bind trivial fun answered => ?_
  match answered with
  | .error error => exact Guarded.pure trivial
  | .ok effects =>
    refine Guarded.ite (fun _ => Guarded.pure trivial) fun _ => ?_
    have heffects : Answered effects [⟨RecoveryCall.pendingEffects, .ok effects⟩] :=
      mem_singleton.2 rfl
    refine Guarded.bind (Guarded.foldlM (S := fun h _ => Answered effects h) heffects ?_)
      fun _ _ _ => Guarded.pure trivial
    exact fun effect hmem h report hanswered => reconcileEffect_guarded hmem hanswered

end Steps

end Rolebox.Graph
