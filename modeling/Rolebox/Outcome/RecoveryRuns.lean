import Rolebox.Outcome.CredentialReissue
import Rolebox.Outcome.RecoverySafety

/-! Interleaved recoveries: at most one re-issued credential is verified by the state. -/

namespace Rolebox.Graph
open General Transaction Program List

section World

/-- What the recoveries of a graph share: its state row, decisions and minted credentials. -/
structure RecoveryWorld where
  row : Option GraphStateRecord
  decisions : List ControlDecisionRecord
  issued : Nat

structure CredentialReissue where
  nodeId : String
  attemptId : String
  observedDigest : String
  credential : String

def reissueOf : RecoveryExchange → Option CredentialReissue
  | ⟨.replaceAttemptCredential nodeId attemptId _ observedDigest, answer⟩ =>
    match (answer : Except OutcomeRuntimeRefusal String) with
    | .ok credential => some ⟨nodeId, attemptId, observedDigest, credential⟩
    | .error _ => none
  | _ => none

def reissues (nodeId attemptId observedDigest : String) (exchange : RecoveryExchange) : Bool :=
  (reissueOf exchange).any fun reissue => reissue.nodeId = nodeId ∧ reissue.attemptId = attemptId ∧
    reissue.observedDigest = observedDigest

variable (plan : CompiledPlan) (attemptCredentialDigest : String → String)
  (mint : Nat → AttemptCredentialBinding → Except String String)

def reissuesValid (row : Option GraphStateRecord) (nodeId attemptId : String)
    (exchange : RecoveryExchange) : Bool :=
  (reissueOf exchange).any fun reissue => reissue.nodeId = nodeId ∧ reissue.attemptId = attemptId ∧
    recordedDigest plan row nodeId attemptId = some (attemptCredentialDigest reissue.credential)

/-- Only a re-issue rewrites the state row, recorded decisions stay, other answers are free. -/
inductive RecoveryServes : RecoveryWorld → RecoveryExchange → RecoveryWorld → Prop where
  | replaced (w : RecoveryWorld) (nodeId attemptId : String) (now : Nat) (observedDigest : String) :
      RecoveryServes w
        ⟨.replaceAttemptCredential nodeId attemptId now observedDigest,
          (replaceAttemptCredential plan attemptCredentialDigest (mint w.issued) nodeId attemptId
            now observedDigest w.row).1⟩
        { w with
          row := (replaceAttemptCredential plan attemptCredentialDigest (mint w.issued) nodeId
            attemptId now observedDigest w.row).2
          issued := w.issued + 1 }
  | uncommitted (w : RecoveryWorld) (nodeId attemptId : String) (now : Nat)
      (observedDigest : String) :
      RecoveryServes w
        ⟨.replaceAttemptCredential nodeId attemptId now observedDigest,
          .error (reissueNotCommitted nodeId attemptId)⟩
        { w with issued := w.issued + 1 }
  | decisions (w : RecoveryWorld) : RecoveryServes w ⟨.controlDecisions, w.decisions⟩ w
  | other {w w' : RecoveryWorld} {exchange : RecoveryExchange}
      (hreplace : ∀ nodeId attemptId now observedDigest,
        exchange.call ≠ .replaceAttemptCredential nodeId attemptId now observedDigest)
      (hdecisions : exchange.call ≠ .controlDecisions) (hrow : w'.row = w.row)
      (hissued : w.issued ≤ w'.issued) (hkept : w.decisions ⊆ w'.decisions) :
      RecoveryServes w exchange w'

/-- No two credentials share a digest, and none has a recorded one. -/
structure FreshMints (row : Option GraphStateRecord) : Prop where
  distinct : ∀ (m n : Nat) binding binding' credential credential', mint m binding = .ok credential →
    mint n binding' = .ok credential' →
    attemptCredentialDigest credential = attemptCredentialDigest credential' → m = n
  unrecorded : ∀ (m : Nat) binding credential nodeId attemptId, mint m binding = .ok credential →
    recordedDigest plan row nodeId attemptId ≠ some (attemptCredentialDigest credential)

def NeverMinted (issued : Nat) (digest : String) : Prop :=
  ∀ m, issued ≤ m → ∀ binding credential, mint m binding = .ok credential →
    attemptCredentialDigest credential ≠ digest

variable {plan attemptCredentialDigest mint} {w w' : RecoveryWorld} {exchange : RecoveryExchange}

theorem NeverMinted.mono {issued issued' : Nat} {digest : String}
    (h : NeverMinted attemptCredentialDigest mint issued digest) (hle : issued ≤ issued') :
    NeverMinted attemptCredentialDigest mint issued' digest :=
  fun m hm => h m (hle.trans hm)

theorem RecoveryServes.cases_reissue
    (h : RecoveryServes plan attemptCredentialDigest mint w exchange w') :
    (reissueOf exchange = none ∧ w'.row = w.row ∧ w.issued ≤ w'.issued) ∨
      ∃ reissue now, reissueOf exchange = some reissue ∧ w'.issued = w.issued + 1 ∧
        Reissued plan attemptCredentialDigest (mint w.issued) reissue.nodeId reissue.attemptId now
          reissue.observedDigest reissue.credential w.row w'.row := by
  cases h with
  | replaced nodeId attemptId now observedDigest =>
    rcases @replaceAttemptCredential_cases plan w.row nodeId attemptId attemptCredentialDigest
      (mint w.issued) now observedDigest with
      ⟨hrow, refusal, hanswer⟩ | ⟨minted, hanswer, hreissued⟩
    · refine .inl ⟨?_, hrow, Nat.le_succ _⟩
      rw [hanswer]
      rfl
    · refine .inr ⟨⟨nodeId, attemptId, observedDigest, minted⟩, now, ?_, rfl, hreissued⟩
      rw [hanswer]
      rfl
  | uncommitted nodeId attemptId now observedDigest => exact .inl ⟨rfl, rfl, Nat.le_succ _⟩
  | decisions => exact .inl ⟨rfl, rfl, Nat.le_refl _⟩
  | other hreplace hdecisions hrow hissued hkept =>
    refine .inl ⟨?_, hrow, hissued⟩
    obtain ⟨call, answer⟩ := exchange
    cases call with
    | replaceAttemptCredential nodeId attemptId now observedDigest =>
      exact absurd rfl (hreplace nodeId attemptId now observedDigest)
    | _ => rfl

theorem reissues_iff {nodeId attemptId observedDigest : String} :
    reissues nodeId attemptId observedDigest exchange = true ↔
      ∃ credential, reissueOf exchange = some ⟨nodeId, attemptId, observedDigest, credential⟩ := by
  unfold reissues
  cases reissueOf exchange with
  | none => simp
  | some reissue =>
    obtain ⟨node, attempt, observed, credential⟩ := reissue
    rw [Option.any_some, decide_eq_true_iff]
    constructor
    · rintro ⟨rfl, rfl, rfl⟩
      exact ⟨credential, rfl⟩
    · rintro ⟨_, h⟩
      cases h
      exact ⟨rfl, rfl, rfl⟩

def RecordedOnce (plan : CompiledPlan) (attemptCredentialDigest : String → String)
    (mint : Nat → AttemptCredentialBinding → Except String String) (w : RecoveryWorld) : Prop :=
  ∀ nodeId attemptId digest, recordedDigest plan w.row nodeId attemptId = some digest →
    NeverMinted attemptCredentialDigest mint w.issued digest

section Fresh
variable {row : Option GraphStateRecord}
  (hfresh : FreshMints plan attemptCredentialDigest mint row)
variable {exchanges : List RecoveryExchange}

include hfresh

theorem FreshMints.recordedOnce (hrow : w.row = row) :
    RecordedOnce plan attemptCredentialDigest mint w := by
  intro nodeId attemptId digest hrecorded m _ binding credential hminted hdigest
  rw [hrow, ← hdigest] at hrecorded
  exact hfresh.unrecorded m binding credential nodeId attemptId hminted hrecorded

theorem FreshMints.neverMinted {issued : Nat} {binding : AttemptCredentialBinding}
    {credential : String} (hminted : mint issued binding = .ok credential) :
    NeverMinted attemptCredentialDigest mint (issued + 1) (attemptCredentialDigest credential) := by
  intro m hm binding' credential' hminted' hdigest
  have hsame := hfresh.distinct m issued binding' binding credential' credential hminted' hminted
    hdigest
  omega

theorem RecordedOnce.step (h : RecordedOnce plan attemptCredentialDigest mint w)
    (hserve : RecoveryServes plan attemptCredentialDigest mint w exchange w') :
    RecordedOnce plan attemptCredentialDigest mint w' := by
  intro nodeId attemptId digest hrecorded
  rcases hserve.cases_reissue with ⟨-, hrow, hissued⟩ | ⟨reissue, now, -, hissued, hreissued⟩
  · rw [hrow] at hrecorded
    exact (h nodeId attemptId digest hrecorded).mono hissued
  · rw [hissued]
    rcases hreissued.recorded hrecorded with rfl | ⟨hbefore, -⟩
    · exact hfresh.neverMinted hreissued.minted_from
    · exact (h nodeId attemptId digest hbefore).mono (Nat.le_succ _)

theorem FreshMints.reissues_le_one (nodeId attemptId observedDigest : String)
    (hrun : Run (RecoveryServes plan attemptCredentialDigest mint) w exchanges w')
    (hrow : w.row = row) : exchanges.countP (reissues nodeId attemptId observedDigest) ≤ 1 := by
  refine (hrun.countP_le_one (q := fun _ => True)
    (P := fun w => recordedDigest plan w.row nodeId attemptId ≠ some observedDigest ∧
      NeverMinted attemptCredentialDigest mint w.issued observedDigest)
    (fun _ _ _ hw hserve => RecordedOnce.step hfresh hw hserve) ?_ ?_
    (hfresh.recordedOnce hrow) fun _ _ => trivial).1
  · intro w exchange w' hw hserve hreissues
    obtain ⟨credential, hof⟩ := reissues_iff.1 hreissues
    rcases hserve.cases_reissue with ⟨hnone, -⟩ | ⟨reissue, now, hsome, hissued, hreissued⟩
    · rw [hof] at hnone
      cases hnone
    rw [hof] at hsome
    cases hsome
    have hnever := hw nodeId attemptId observedDigest hreissued.observed
    refine ⟨fun h => h.1 hreissued.observed, ?_, ?_⟩
    · intro hrecorded
      rcases hreissued.recorded hrecorded with hdigest | ⟨-, hother⟩
      · exact hnever w.issued (Nat.le_refl _) _ credential hreissued.minted_from hdigest.symm
      · exact hother rfl
    · rw [hissued]
      exact hnever.mono (Nat.le_succ _)
  · rintro w exchange w' hw hserve - ⟨hrecorded, hnever⟩
    rcases hserve.cases_reissue with ⟨-, hrow, hissued⟩ | ⟨reissue, now, -, hissued, hreissued⟩
    · rw [hrow]
      exact ⟨hrecorded, hnever.mono hissued⟩
    · refine ⟨fun h => ?_, ?_⟩
      · rcases hreissued.recorded h with hdigest | ⟨hbefore, -⟩
        · exact hnever w.issued (Nat.le_refl _) _ reissue.credential hreissued.minted_from
            hdigest.symm
        · exact hrecorded hbefore
      · rw [hissued]
        exact hnever.mono (Nat.le_succ _)

theorem FreshMints.minted_le_one (digest : String)
    (hrun : Run (RecoveryServes plan attemptCredentialDigest mint) w exchanges w') :
    exchanges.countP (fun exchange => (reissueOf exchange).any fun reissue =>
      attemptCredentialDigest reissue.credential = digest) ≤ 1 := by
  refine (hrun.countP_le_one (q := fun _ => True) (I := fun _ => True)
    (P := fun w => ∃ m < w.issued, ∃ binding credential, mint m binding = .ok credential ∧
      attemptCredentialDigest credential = digest)
    (fun _ _ _ _ _ => trivial) ?_ ?_ trivial fun _ _ => trivial).1
  · intro w exchange w' _ hserve hany
    rcases hserve.cases_reissue with ⟨hnone, -⟩ | ⟨reissue, now, hsome, hissued, hreissued⟩
    · rw [hnone] at hany
      cases hany
    rw [hsome, Option.any_some] at hany
    have hdigest := of_decide_eq_true hany
    have hminted := hreissued.minted_from
    refine ⟨?_, w.issued, by omega, _, reissue.credential, hminted, hdigest⟩
    rintro ⟨m, hm, binding, credential, hbefore, hsame⟩
    have hindex := hfresh.distinct m w.issued binding _ credential reissue.credential hbefore
      hminted (hsame.trans hdigest.symm)
    omega
  · rintro w exchange w' - hserve - ⟨m, hm, hbefore⟩
    refine ⟨m, ?_, hbefore⟩
    rcases hserve.cases_reissue with ⟨-, -, hissued⟩ | ⟨reissue, now, -, hissued, -⟩ <;> omega

theorem FreshMints.valid_le_one (nodeId attemptId : String) (stored : Option GraphStateRecord)
    (hrun : Run (RecoveryServes plan attemptCredentialDigest mint) w exchanges w') :
    exchanges.countP (reissuesValid plan attemptCredentialDigest stored nodeId attemptId) ≤ 1 := by
  refine (countP_mono_left fun exchange _ hvalid => ?_).trans
    (hfresh.minted_le_one ((recordedDigest plan stored nodeId attemptId).getD "") hrun)
  unfold reissuesValid at hvalid
  obtain ⟨reissue, hof, hboth⟩ := (Option.any_eq_true _ _).1 hvalid
  obtain ⟨-, -, hrecorded⟩ := of_decide_eq_true hboth
  rw [hof, Option.any_some, hrecorded, Option.getD_some, decide_eq_true_iff]

end Fresh

variable {context : RecoveryContext} {recoveries : List (OutcomeGraphState × Nat)}
  {trace : List (Nat × RecoveryExchange)} {t : Parties recoveryInterface RecoveryWorld
    (Except OutcomeRuntimeRefusal RecoveryReport)}

def recoveriesFrom (context : RecoveryContext) (w : RecoveryWorld)
    (recoveries : List (OutcomeGraphState × Nat)) :
    Parties recoveryInterface RecoveryWorld (Except OutcomeRuntimeRefusal RecoveryReport) :=
  { world := w
    programs := recoveries.map fun recovery => reconcile context recovery.1 recovery.2 }

/-- Every call is justified by its own exchanges, a re-issue is committed once for each observed
digest, and the state verifies at most one. -/
theorem recoverySafe
    (hrun : Run (Serves (RecoveryServes context.plan attemptCredentialDigest mint))
      (recoveriesFrom context w recoveries) trace t)
    (hfresh : FreshMints context.plan attemptCredentialDigest mint w.row) :
    (∀ before i exchange after, trace = before ++ (i, exchange) :: after →
      ∃ recovery, recoveries[i]? = some recovery ∧
        RecoveryJustified context recovery.1 (exchangesOf i before) exchange.call) ∧
    (∀ before i exchange after reissue, trace = before ++ (i, exchange) :: after →
      reissueOf exchange = some reissue →
        ∃ s, Run (Serves (RecoveryServes context.plan attemptCredentialDigest mint))
            (recoveriesFrom context w recoveries) before s ∧
          recordedDigest context.plan s.world.row reissue.nodeId reissue.attemptId =
            some reissue.observedDigest) ∧
    (∀ nodeId attemptId observedDigest, trace.countP (fun event =>
      reissues nodeId attemptId observedDigest event.2) ≤ 1) ∧
    ∀ nodeId attemptId, trace.countP (fun event => reissuesValid context.plan
      attemptCredentialDigest t.world.row nodeId attemptId event.2) ≤ 1 := by
  have hworld := run_serves hrun
  refine ⟨?_, ?_, fun nodeId attemptId observedDigest => ?_, fun nodeId attemptId => ?_⟩
  · intro before i exchange after htrace
    rw [htrace] at hrun
    obtain ⟨s, hbefore, hrest⟩ := hrun.split
    cases hrest with
    | cons hevent _ =>
      obtain ⟨p, hp, hjustified⟩ := call_guarded hbefore hevent
      obtain ⟨recovery, hrecovery, rfl⟩ :=
        Option.map_eq_some_iff.1 ((getElem?_map ..).symm.trans hp)
      exact ⟨recovery, hrecovery, hjustified _ _ (reconcile_guarded context recovery.1 recovery.2)⟩
  · intro before i exchange after reissue htrace hreissue
    rw [htrace] at hrun
    obtain ⟨s, hbefore, hrest⟩ := hrun.split
    refine ⟨s, hbefore, ?_⟩
    cases hrest with
    | cons hevent _ =>
      cases hevent with
      | step _ hserve =>
        rcases hserve.cases_reissue with ⟨hnone, -⟩ | ⟨reissue', now, hsome, -, hreissued⟩
        · rw [hreissue] at hnone
          cases hnone
        · rw [hreissue] at hsome
          cases hsome
          exact hreissued.observed
  · have hcount := hfresh.reissues_le_one nodeId attemptId observedDigest hworld rfl
    rwa [countP_map] at hcount
  · have hcount := hfresh.valid_le_one nodeId attemptId t.world.row hworld
    rwa [countP_map] at hcount

end World

def lonePlan : CompiledPlan :=
  plainPlan "g" "r" { nodes := [plainNode "A" ["ok"] none []], edges := [], loopGroups := [] }

def loneFacts : DispatchFacts :=
  { attemptId := "A#1"
    attemptSeq := 1
    attemptCredentialDigest :=
      "sha256:0000000000000000000000000000000000000000000000000000000000000000"
    dispatchIdentity := none
    dispatchedAt := 0
    inputs := some [] }

def loneState : OutcomeGraphState :=
  { bodyVersion := CURRENT_OUTCOME_STATE_BODY
    graphId := "g"
    planRevision := "r"
    phase := .executing
    nodes :=
      [{ nodeId := "A", progress := .dispatched loneFacts, arrivals := [], inputRefusals := none }]
    loopTraversals := .empty
    attemptSeq := 1
    stop := none
    loopProgress := .empty }

theorem loneState_read (now : Nat) :
    readOutcomeGraphState lonePlan (stateRecordOf loneState now)
      DEFAULT_OUTCOME_STATE_BODY_REGISTRY = .ok loneState := rfl

def loneContext : RecoveryContext := { plan := lonePlan, dispatch := true }

def loneEffect : UnsettledEffect :=
  { graphId := "g"
    runId := some "run"
    effectId := "dispatch:A#1"
    attemptId := "A#1"
    kind := "dispatch"
    payload := OutcomeDispatchTarget.json
      { graphId := "g"
        planRevision := "r"
        nodeId := "A"
        attemptId := "A#1"
        agent := "agent"
        prompt := "prompt"
        inputs := some [] }
    createdAt := 0
    status := .pending
    unsettled := .inl rfl }

def loneStop : ControlDecisionRecord :=
  { graphId := "g"
    runId := "run"
    nodeId := "A"
    attemptId := "A#1"
    command := .timeout
    reason := "late"
    decidedAt := 1
    decidedBy := none
    successorAttemptId := none }

def loneDigest (_ : String) : String :=
  "sha256:1111111111111111111111111111111111111111111111111111111111111111"

def loneMint (issued : Nat) (_ : AttemptCredentialBinding) : Except String String :=
  if issued = 0 then .ok "secret" else .error "exhausted"

def loneWorld : RecoveryWorld :=
  { row := some (stateRecordOf loneState 0), decisions := [loneStop], issued := 0 }

theorem loneMints_fresh : FreshMints lonePlan loneDigest loneMint loneWorld.row := by
  have hfirst : ∀ {m : Nat} {binding credential}, loneMint m binding = .ok credential → m = 0 := by
    intro m binding credential hminted
    unfold loneMint at hminted
    split at hminted
    · assumption
    · cases hminted
  refine ⟨fun m n binding binding' credential credential' hm hn _ => ?_, ?_⟩
  · rw [hfirst hm, hfirst hn]
  intro m binding credential nodeId attemptId _ hrecorded
  obtain ⟨record, state, position, current, facts, hrow, hread, htarget, hdigest⟩ :=
    recordedDigest_some.1 hrecorded
  cases hrow
  rw [loneState_read] at hread
  cases hread
  obtain ⟨-, hcurrent, hprogress, -⟩ := reissueTarget_ok.1 htarget
  have hmem := mem_of_getElem? hcurrent
  rw [mem_singleton.1 hmem] at hprogress
  cases hprogress
  have hne : loneFacts.attemptCredentialDigest ≠ loneDigest "" := by decide
  exact hne hdigest

def loneKey : StoreEffectKey := loneContext.effectKey "A#1"

def loneReissue : Except OutcomeRuntimeRefusal String × Option GraphStateRecord :=
  replaceAttemptCredential lonePlan loneDigest (loneMint 0) "A" "A#1" 5
    loneFacts.attemptCredentialDigest loneWorld.row

def loneRefused : Except OutcomeRuntimeRefusal String × Option GraphStateRecord :=
  replaceAttemptCredential lonePlan loneDigest (loneMint 1) "A" "A#1" 6
    loneFacts.attemptCredentialDigest loneReissue.2

def lonePrefix : List (Nat × RecoveryExchange) :=
  [(0, ⟨RecoveryCall.pendingEffects, .ok [loneEffect]⟩),
    (1, ⟨RecoveryCall.pendingEffects, .ok [loneEffect]⟩),
    (0, ⟨RecoveryCall.lookupLocal loneKey, .ok .absent⟩),
    (0, ⟨RecoveryCall.lookupPlatform loneKey, none⟩),
    (1, ⟨RecoveryCall.lookupLocal loneKey, .ok .absent⟩),
    (1, ⟨RecoveryCall.lookupPlatform loneKey, none⟩),
    (0, ⟨RecoveryCall.resolveCredential "A" "A#1", StoredCredentialAnswer.answered none⟩),
    (0, ⟨RecoveryCall.claim loneKey, AttemptReissueClaim.claimed "p"⟩),
    (1, ⟨RecoveryCall.resolveCredential "A" "A#1", StoredCredentialAnswer.answered none⟩),
    (1, ⟨RecoveryCall.claim loneKey, AttemptReissueClaim.claimed "q"⟩)]

def loneTrace : List (Nat × RecoveryExchange) :=
  lonePrefix ++
    [(0, ⟨RecoveryCall.replaceAttemptCredential "A" "A#1" 5 loneFacts.attemptCredentialDigest,
        loneReissue.1⟩),
      (1, ⟨RecoveryCall.replaceAttemptCredential "A" "A#1" 6 loneFacts.attemptCredentialDigest,
        loneRefused.1⟩),
      (0, ⟨RecoveryCall.controlDecisions, [loneStop]⟩)]

theorem RecoveryServes.free {exchange : RecoveryExchange} {plan : CompiledPlan}
    {digest : String → String} {mint : Nat → AttemptCredentialBinding → Except String String}
    (w : RecoveryWorld)
    (hreplace : ∀ nodeId attemptId now observed,
      exchange.call ≠ .replaceAttemptCredential nodeId attemptId now observed)
    (hdecisions : exchange.call ≠ .controlDecisions) : RecoveryServes plan digest mint w exchange w :=
  .other hreplace hdecisions rfl (Nat.le_refl _) (Subset.refl _)

theorem loneRun : ∃ t, Run (Serves (RecoveryServes lonePlan loneDigest loneMint))
    (recoveriesFrom loneContext loneWorld [(loneState, 5), (loneState, 6)]) loneTrace t ∧
      t.world.row = loneReissue.2 := by
  refine ⟨_, .cons (.step rfl (.free _ ?_ ?_)) (.cons (.step rfl (.free _ ?_ ?_))
    (.cons (.step rfl (.free _ ?_ ?_)) (.cons (.step rfl (.free _ ?_ ?_))
    (.cons (.step rfl (.free _ ?_ ?_)) (.cons (.step rfl (.free _ ?_ ?_))
    (.cons (.step rfl (.free _ ?_ ?_)) (.cons (.step rfl (.free _ ?_ ?_))
    (.cons (.step rfl (.free _ ?_ ?_)) (.cons (.step rfl (.free _ ?_ ?_))
    (.cons (.step rfl (.replaced _ _ _ _ _)) (.cons (.step rfl (.replaced _ _ _ _ _))
    (.cons (.step rfl (.decisions _)) (.nil _))))))))))))), rfl⟩
  all_goals first | exact RecoveryCall.noConfusion | exact fun _ _ _ _ => RecoveryCall.noConfusion

theorem loneReissue_committed : reissueOf
    ⟨RecoveryCall.replaceAttemptCredential "A" "A#1" 5 loneFacts.attemptCredentialDigest,
      loneReissue.1⟩ = some ⟨"A", "A#1", loneFacts.attemptCredentialDigest, "secret"⟩ := rfl

/-- The first of two recoveries re-issues the credential, and the state verifies no other. -/
theorem recoverySafe_lone : ∃ t, Run (Serves (RecoveryServes lonePlan loneDigest loneMint))
    (recoveriesFrom loneContext loneWorld [(loneState, 5), (loneState, 6)]) loneTrace t ∧
    RecoveryJustified loneContext loneState (exchangesOf 0 lonePrefix)
      (.replaceAttemptCredential "A" "A#1" 5 loneFacts.attemptCredentialDigest) ∧
    loneTrace.countP (fun event => reissuesValid lonePlan loneDigest t.world.row "A" "A#1" event.2) ≤
      1 := by
  obtain ⟨t, hrun, -⟩ := loneRun
  have hsafe := @recoverySafe loneDigest loneMint loneWorld loneContext _ _ _ hrun loneMints_fresh
  obtain ⟨recovery, hrecovery, hjustified⟩ := hsafe.1 lonePrefix 0 _ _ rfl
  cases hrecovery
  exact ⟨t, hrun, hjustified, hsafe.2.2.2 "A" "A#1"⟩

/-- A credential is re-issued for an attempt whose stop was recorded before. -/
theorem stopped_reissued :
    ¬ ∀ (context : RecoveryContext) (digest : String → String)
      (mint : Nat → AttemptCredentialBinding → Except String String) (w : RecoveryWorld)
      (recoveries : List (OutcomeGraphState × Nat)) (trace : List (Nat × RecoveryExchange))
      (t : Parties recoveryInterface RecoveryWorld (Except OutcomeRuntimeRefusal RecoveryReport)),
      Run (Serves (RecoveryServes context.plan digest mint)) (recoveriesFrom context w recoveries)
        trace t →
      ∀ event ∈ trace, ∀ reissue, reissueOf event.2 = some reissue →
        stoppingDecisionOf w.decisions reissue.attemptId = none := by
  intro hclaim
  obtain ⟨t, hrun, -⟩ := loneRun
  have hmem : (0, (⟨RecoveryCall.replaceAttemptCredential "A" "A#1" 5
      loneFacts.attemptCredentialDigest, loneReissue.1⟩ : RecoveryExchange)) ∈ loneTrace :=
    mem_append_right _ (.head _)
  have hnone := hclaim loneContext loneDigest loneMint loneWorld [(loneState, 5), (loneState, 6)]
    loneTrace t hrun _ hmem _ loneReissue_committed
  revert hnone
  decide +kernel
end Rolebox.Graph
