import Rolebox.Outcome.EffectWrites

/-! The life of an effect row over every order of the transactions that write one. -/

namespace Rolebox.Graph
open General Transaction List

/-- The order of the lifecycle: work is intended, begun, and over, done or failed. -/
def EffectStatus.rank : EffectStatus → Nat
  | .pending => 0
  | .started => 1
  | .done => 2
  | .failed => 2

def EffectStatus.Before (status next : EffectStatus) : Prop := status.rank < next.rank

instance : DecidableRel EffectStatus.Before := fun _ _ => inferInstanceAs (Decidable (_ < _))

theorem EffectStatus.Before.opened {status next : EffectStatus} (h : status.Before next) :
    status ≠ .done ∧ status ≠ .failed := by
  constructor
  · rintro rfl
    cases next <;> exact absurd h (by decide)
  · rintro rfl
    cases next <;> exact absurd h (by decide)

namespace EffectRow

/-- A row is filed under the one id of its kind and attempt. -/
def Named (row : EffectRow) : Prop :=
  (row.kind = "dispatch" ∧ row.effectId = dispatchEffectIdOf row.attemptId) ∨
    (row.kind = CANCEL_EFFECT_KIND ∧ row.effectId = cancelEffectIdOf row.attemptId)

def Forward (row row' : EffectRow) : Prop :=
  row' = row ∨ (row.status.Before row'.status ∧ row' = { row with status := row'.status })

instance : Std.Refl Forward := ⟨fun _ => .inl rfl⟩

instance : IsTrans EffectRow Forward := by
  refine ⟨fun a b c hab hbc => ?_⟩
  rcases hbc with rfl | ⟨hnext, hc⟩
  · exact hab
  rcases hab with rfl | ⟨hfirst, hb⟩
  · exact .inr ⟨hnext, hc⟩
  · refine .inr ⟨Nat.lt_trans hfirst hnext, ?_⟩
    rw [hc, hb]

end EffectRow

namespace GraphStore

def EffectsNamed (s : GraphStore) : Prop := ∀ row ∈ s.pendingEffects, row.Named

def Dispatched (s : GraphStore) (graphId attemptId : String) : Prop :=
  ∃ row ∈ s.pendingEffects,
    row.graphId = graphId ∧ row.kind = "dispatch" ∧ row.attemptId = attemptId

def OnCurrentRun (s : GraphStore) (row : EffectRow) : Prop :=
  ∀ current, s.readCurrentRunId row.graphId = some current → row.runId = current

end GraphStore

theorem dispatchEffectIdOf_inj {attemptId other : String}
    (h : dispatchEffectIdOf attemptId = dispatchEffectIdOf other) : attemptId = other :=
  String.append_right_inj _ |>.1 h

theorem dispatch_ne_cancel (attemptId other : String) :
    dispatchEffectIdOf attemptId ≠ cancelEffectIdOf other := by
  intro h
  have htexts := congrArg String.toList h
  rw [dispatchEffectIdOf, cancelEffectIdOf, String.toList_append, String.toList_append] at htexts
  exact absurd (head_eq_of_cons_eq htexts) (by decide)

theorem EffectRow.Named.dispatch {row : EffectRow} (h : row.Named) {attemptId : String}
    (hid : row.effectId = dispatchEffectIdOf attemptId) :
    row.kind = "dispatch" ∧ row.attemptId = attemptId := by
  rcases h with ⟨hkind, hname⟩ | ⟨-, hname⟩
  · exact ⟨hkind, dispatchEffectIdOf_inj (hname.symm.trans hid)⟩
  · exact absurd (hid.symm.trans hname) (dispatch_ne_cancel _ _)

section Growth
variable {s t u : GraphStore} {out : PUnit} {keys more : List (String × String)}
variable {armed : ArmedAttempt} {graphId : String} {at' : Nat} {runId : String}
  {maxExecutions : Option Nat}

structure EffectsGrow (keys : List (String × String)) (s t : GraphStore) : Prop where
  kept : s.pendingEffects <+: t.pendingEffects
  runs : t.runs = s.runs
  named : s.EffectsNamed → t.EffectsNamed
  dispatched : s.EffectsNamed → ∀ graphId attemptId,
    t.Dispatched graphId attemptId ↔ s.Dispatched graphId attemptId ∨ (graphId, attemptId) ∈ keys

namespace EffectsGrow

theorem of_eq (hrows : t.pendingEffects = s.pendingEffects) (hruns : t.runs = s.runs) :
    EffectsGrow [] s t := by
  refine ⟨?_, hruns, ?_, fun _ graphId attemptId => ?_⟩
  · rw [hrows]
  · unfold GraphStore.EffectsNamed
    rw [hrows]
    exact id
  · rw [GraphStore.Dispatched, hrows]
    simp [GraphStore.Dispatched]

theorem trans (h : EffectsGrow keys s t) (h' : EffectsGrow more t u) :
    EffectsGrow (keys ++ more) s u := by
  refine ⟨h.kept.trans h'.kept, h'.runs.trans h.runs, fun hs => h'.named (h.named hs),
    fun hs graphId attemptId => ?_⟩
  rw [h'.dispatched (h.named hs), h.dispatched hs, mem_append, or_assoc]

theorem after (h : EffectsGrow [] s t) (h' : EffectsGrow keys t u) : EffectsGrow keys s u :=
  h.trans h'

theorem before (h : EffectsGrow keys s t) (h' : EffectsGrow [] t u) : EffectsGrow keys s u := by
  have hboth := h.trans h'
  rwa [append_nil] at hboth

theorem forM {β : Type} {write : β → StoreTx PUnit} (keysOf : β → List (String × String))
    (hwrite : ∀ b s t, write b s = .ok (⟨⟩, t) → EffectsGrow (keysOf b) s t) {l : List β}
    (h : l.forM write s = .ok (out, t)) : EffectsGrow (l.flatMap keysOf) s t := by
  induction l generalizing s out with
  | nil =>
    rw [(pure_ok.1 h).2]
    exact of_eq rfl rfl
  | cons b l ih =>
    obtain ⟨_, m, hfirst, hrest⟩ := bind_ok.1 h
    rw [flatMap_cons]
    exact (hwrite b s m hfirst).trans (ih hrest)

theorem forM_nil {β : Type} {write : β → StoreTx PUnit}
    (hwrite : ∀ b s t, write b s = .ok (⟨⟩, t) → EffectsGrow [] s t) {l : List β}
    (h : l.forM write s = .ok (out, t)) : EffectsGrow [] s t := by
  have hall := forM (fun _ => []) hwrite h
  rwa [flatMap_eq_nil_iff.2 fun _ _ => rfl] at hall

end EffectsGrow

/-- An intent filed under its own name is there afterwards, and nothing else is new. -/
theorem writeEffect_grows {record : PendingEffectRecord} (h : writeEffect record s = .ok (out, t))
    (hnamed : ∀ runId, (record.row runId).Named)
    (hkeys : ∀ graphId attemptId, (graphId, attemptId) ∈ keys ↔
      record.kind = "dispatch" ∧ record.graphId = graphId ∧ record.attemptId = attemptId) :
    EffectsGrow keys s t := by
  obtain ⟨-, -, rfl⟩ := writeEffect_ok h
  have hkept : s.pendingEffects <+: s.withEffect record := withEffect_prefix
  refine ⟨hkept, rfl, ?_, fun hs graphId attemptId => ?_⟩
  · intro hs row hrow
    rcases mem_withEffect hrow with hold | ⟨-, rfl⟩
    · exact hs row hold
    · exact hnamed _
  · rw [hkeys]
    constructor
    · rintro ⟨row, hrow, hgraph, hkind, hattempt⟩
      rcases mem_withEffect hrow with hold | ⟨-, rfl⟩
      · exact .inl ⟨row, hold, hgraph, hkind, hattempt⟩
      · exact .inr ⟨hkind, hgraph, hattempt⟩
    · rintro (⟨row, hrow, hrest⟩ | ⟨hkind, rfl, rfl⟩)
      · exact ⟨row, hkept.subset hrow, hrest⟩
      cases hselect : s.selectEffect record.graphId record.effectId with
      | none =>
        refine ⟨record.row (s.filedRun record.graphId record.runId), ?_, rfl, hkind, rfl⟩
        show _ ∈ s.withEffect record
        rw [GraphStore.withEffect, hselect]
        exact mem_append_right _ (mem_singleton_self _)
      | some row =>
        -- the id is taken, and the row that has it is this attempt's dispatch
        obtain ⟨hmem, hgraph, hid⟩ := selectEffect_mem hselect
        have hrecord := (hnamed "").resolve_right fun hcancel =>
          absurd (hkind.symm.trans hcancel.1) (by decide)
        obtain ⟨hdispatch, hattempt⟩ := (hs row hmem).dispatch (hid.trans hrecord.2)
        exact ⟨row, hkept.subset hmem, hgraph, hdispatch, hattempt⟩

theorem effect_grows (h : writeEffect (armed.effect graphId at') s = .ok (out, t)) :
    EffectsGrow [(graphId, armed.attemptId)] s t := by
  refine writeEffect_grows h (fun _ => .inl ⟨rfl, rfl⟩) fun graphId' attemptId => ?_
  simp [ArmedAttempt.effect, eq_comm]

theorem recordCancelIntent_grows {input : OutcomeCancelIntentInput}
    (h : recordCancelIntent input s = .ok (out, t)) : EffectsGrow [] s t := by
  refine writeEffect_grows h (fun _ => .inr ⟨rfl, rfl⟩) fun graphId attemptId => ?_
  simp [cancelEffectOf, CANCEL_EFFECT_KIND]

theorem reserveDispatchIn_grows
    (h : reserveDispatchIn graphId runId maxExecutions at' armed s = .ok (out, t)) :
    EffectsGrow [] s t := by
  obtain ⟨claimed, m, hclaim, hanswer⟩ := bind_ok.1 h
  have hsame : t = m := by
    cases claimed with
    | reserved _ => exact (pure_ok.1 hanswer).2
    | replayed _ => exact (pure_ok.1 hanswer).2
    | exhausted _ => exact (throw_ok.1 hanswer).elim
  obtain ⟨-, -, rfl⟩ | ⟨-, rfl, -⟩ | ⟨-, rfl, -⟩ := BudgetTables.reserveDispatch_ok hclaim
  · rw [hsame]
    exact EffectsGrow.of_eq rfl rfl
  · rw [hsame]
    exact EffectsGrow.of_eq rfl rfl
  · rw [hsame]
    exact EffectsGrow.of_eq rfl rfl

theorem adoptCredential_grows (h : adoptCredential graphId at' armed s = .ok (out, t)) :
    EffectsGrow [] s t := by
  rw [rememberCredential_ok h]
  exact EffectsGrow.of_eq rfl rfl

theorem writeGraphState_grows {record : GraphStateRecord} {runId : Option String}
    (h : writeGraphState record runId s = .ok (out, t)) : EffectsGrow [] s t := by
  obtain ⟨-, rfl⟩ := writeGraphState_ok h
  exact EffectsGrow.of_eq rfl rfl

theorem armEntry_grows (h : armEntry graphId runId maxExecutions at' armed s = .ok (out, t)) :
    EffectsGrow [] s t := by
  obtain ⟨_, m, hclaim, hadopt⟩ := bind_ok.1 h
  exact (reserveDispatchIn_grows hclaim).after (adoptCredential_grows hadopt)

theorem moveClaims_grows {attemptId : String} {join : AcceptanceJoin}
    (h : moveClaims graphId attemptId at' join s = .ok (out, t)) : EffectsGrow [] s t := by
  unfold moveClaims at h
  cases hrun : join.runId with
  | none =>
    rw [hrun] at h
    rw [(pure_ok.1 h).2]
    exact EffectsGrow.of_eq rfl rfl
  | some runId =>
    rw [hrun] at h
    obtain ⟨_, m, hrelease, hclaims⟩ := bind_ok.1 h
    have hfirst : EffectsGrow [] s m := by
      rw [BudgetTables.releaseReservation_ok hrelease]
      exact EffectsGrow.of_eq rfl rfl
    exact hfirst.after (EffectsGrow.forM_nil (fun _ _ _ hclaim => reserveDispatchIn_grows hclaim) hclaims)

def armedKeys (graphId : String) (armed : List ArmedAttempt) : List (String × String) :=
  armed.map fun attempt => (graphId, attempt.attemptId)

theorem effects_grow {armed : List ArmedAttempt}
    (h : armed.forM (fun attempt => writeEffect (attempt.effect graphId at')) s = .ok (out, t)) :
    EffectsGrow (armedKeys graphId armed) s t := by
  have hall := EffectsGrow.forM (fun attempt : ArmedAttempt => [(graphId, attempt.attemptId)])
    (fun _ _ _ hwrite => effect_grows hwrite) h
  rwa [← map_eq_flatMap] at hall

theorem mintRunIn_grows {run : RunIdentityRecord} {entries : List ArmedAttempt}
    {state : GraphStateRecord} (h : mintRunIn run maxExecutions entries state s = .ok (out, t)) :
    ∃ m : GraphStore, m.pendingEffects = s.pendingEffects ∧
      EffectsGrow (armedKeys run.graphId entries) m t := by
  obtain ⟨_, m, hmint, hrest⟩ := bind_ok.1 h
  obtain ⟨_, m₁, harm, hrest⟩ := bind_ok.1 hrest
  obtain ⟨_, m₂, hstate, heffects⟩ := bind_ok.1 hrest
  refine ⟨m, ?_, ?_⟩
  · obtain ⟨-, ⟨-, rfl⟩ | ⟨-, rfl⟩⟩ := mintRun_ok hmint
    · rfl
    · rfl
  · have harmed := EffectsGrow.forM_nil (fun _ _ _ harmed => armEntry_grows harmed) harm
    exact (harmed.after (writeGraphState_grows hstate)).after (effects_grow heffects)

theorem mintSuccessorRun_effects {record : RunIdentityRecord} {out : PUnit}
    (h : mintSuccessorRun record runId s = .ok (out, t)) : t.pendingEffects = s.pendingEffects := by
  obtain ⟨successor, m, hmint, hmark⟩ := mintSuccessorRun_ok h
  obtain ⟨-, rfl⟩ := markReexecutionExecuted_ok hmark
  obtain ⟨hnone, -, -⟩ | ⟨current, -, -, -, rfl, -⟩ := mintNextRun_ok hmint
  · exact nomatch hnone
  · rfl

def SubmissionWrite.arms (write : SubmissionWrite) : CommitResult → List (String × String)
  | .committed _ => armedKeys write.receipt.graphId write.armed
  | _ => []

theorem commitAccepted_grows {write : SubmissionWrite} {verdict : CommitResult}
    (h : commitAccepted write.batch s = .ok (verdict, t)) : EffectsGrow [] s t := by
  obtain ⟨-, ⟨-, rfl⟩ | ⟨-, -, -, rfl⟩⟩ := commitAccepted_ok h
  · exact EffectsGrow.of_eq rfl rfl
  · exact EffectsGrow.of_eq (append_nil _) rfl

theorem settleAdvance_grows {attemptId : String} {join : AcceptanceJoin}
    (h : settleAdvance graphId attemptId at' join s = .ok (out, t)) :
    ∃ m answer, EffectsGrow (armedKeys graphId join.armed) s m ∧
      transitionEffect graphId (dispatchEffectIdOf attemptId) .done m = .ok (answer, t) := by
  obtain ⟨_, m₁, heffects, hrest⟩ := bind_ok.1 h
  obtain ⟨_, m₂, hclaims, hrest⟩ := bind_ok.1 hrest
  obtain ⟨_, m₃, hstate, hrest⟩ := bind_ok.1 hrest
  obtain ⟨answer, m₄, hmark, hdone⟩ := bind_ok.1 hrest
  obtain rfl : t = m₄ := (pure_ok.1 hdone).2
  have hgrown := (effects_grow heffects).before (moveClaims_grows hclaims)
  exact ⟨m₃, answer, hgrown.before (writeGraphState_grows hstate), hmark⟩

theorem commitSubmission_grows {write : SubmissionWrite} {verdict : CommitResult}
    (h : commitSubmission write s = .ok (verdict, t)) :
    ∃ m, EffectsGrow (write.arms verdict) s m ∧
      (t = m ∨ ∃ answer, transitionEffect write.receipt.graphId
        (dispatchEffectIdOf write.receipt.attemptId) .done m = .ok (answer, t)) := by
  obtain ⟨_, m₁, hadopt, hrest⟩ := bind_ok.1 h
  obtain ⟨answered, m₂, hcommit, hsettle⟩ := bind_ok.1 hrest
  have hadopted := EffectsGrow.forM_nil (fun _ _ _ hone => adoptCredential_grows hone) hadopt
  have hgrown := hadopted.after (commitAccepted_grows hcommit)
  cases answered with
  | committed receipt =>
    cases hjoin : write.join with
    | none =>
      rw [hjoin] at hsettle
      obtain ⟨rfl, rfl⟩ := pure_ok.1 hsettle
      have hkeys : write.arms (.committed receipt) = [] := by
        show armedKeys _ ((write.join.map AcceptanceJoin.armed).getD []) = []
        rw [hjoin]
        rfl
      rw [hkeys]
      exact ⟨_, hgrown, .inl rfl⟩
    | some join =>
      rw [hjoin] at hsettle
      obtain ⟨_, m₃, hadvance, hpure⟩ := bind_ok.1 hsettle
      obtain ⟨rfl, rfl⟩ := pure_ok.1 hpure
      obtain ⟨m, answer, hsettled, hmark⟩ := settleAdvance_grows hadvance
      have hkeys : write.arms (.committed receipt) =
          armedKeys write.receipt.graphId join.armed := by
        show armedKeys _ ((write.join.map AcceptanceJoin.armed).getD []) = _
        rw [hjoin]
        rfl
      rw [hkeys]
      exact ⟨m, hgrown.after hsettled, .inr ⟨answer, hmark⟩⟩
  | _ =>
    obtain ⟨rfl, rfl⟩ := pure_ok.1 hsettle
    exact ⟨_, hgrown, .inl rfl⟩

def RetryWrite.arms (write : RetryWrite) : RunControlWriteResult → List (String × String)
  | .recorded _ _ => armedKeys write.decision.graphId [write.successor]
  | _ => []

theorem applyRetry_grows {write : RetryWrite} {result : RunControlWriteResult}
    (h : applyRetry write s = .ok (result, t)) : EffectsGrow (write.arms result) s t := by
  obtain ⟨_, m₁, hclaim, hrest⟩ := bind_ok.1 h
  obtain ⟨written, m₂, hdecide, hrest⟩ := bind_ok.1 hrest
  have hdecided : EffectsGrow [] m₁ m₂ := by
    obtain ⟨-, -, rfl⟩ | ⟨-, -, rfl⟩ := writeControlDecision_ok hdecide
    · exact EffectsGrow.of_eq rfl rfl
    · exact EffectsGrow.of_eq rfl rfl
  have hgrown := (reserveDispatchIn_grows hclaim).after hdecided
  cases written with
  | recorded decision runControl =>
    obtain ⟨_, m₃, hadopt, hrest⟩ := bind_ok.1 hrest
    obtain ⟨_, m₄, hstate, hrest⟩ := bind_ok.1 hrest
    obtain ⟨_, m₅, heffect, hpure⟩ := bind_ok.1 hrest
    obtain ⟨rfl, rfl⟩ := pure_ok.1 hpure
    have harmed := (adoptCredential_grows hadopt).after (writeGraphState_grows hstate)
    exact hgrown.after (harmed.after (effect_grows heffect))
  | replayed decision runControl =>
    obtain ⟨rfl, rfl⟩ := pure_ok.1 hrest
    exact hgrown
  | settled attemptId runControl => exact (throw_ok.1 hrest).elim
  | conflict existing runControl => exact (throw_ok.1 hrest).elim

end Growth

section Marks
variable {s t : GraphStore} {graphId effectId : String} {mark : EffectMark}

/-- What moves a row of the store: it is one of the rows named, and its run is the current one. -/
def MovesOnly (names : EffectRow → Prop) (s : GraphStore) (row row' : EffectRow) : Prop :=
  row' = row ∨ (names row ∧ s.OnCurrentRun row ∧ row.status.Before row'.status ∧
    row' = { row with status := row'.status })

instance (names : EffectRow → Prop) (s : GraphStore) : Std.Refl (MovesOnly names s) :=
  ⟨fun _ => .inl rfl⟩

theorem MovesOnly.forward {names : EffectRow → Prop} {row row' : EffectRow}
    (h : MovesOnly names s row row') : row.Forward row' := by
  rcases h with h | ⟨-, -, hbefore, hrest⟩
  · exact .inl h
  · exact .inr ⟨hbefore, hrest⟩

theorem movable_moves {row : EffectRow} (h : movable s graphId effectId mark.status row) :
    MovesOnly (fun row => row.graphId = graphId ∧ row.effectId = effectId) s row
      { row with status := mark.status } := by
  obtain ⟨hgraph, hid, hopen, hother, hcurrent⟩ := h
  refine .inr ⟨⟨hgraph, hid⟩, ?_, ?_, rfl⟩
  · intro current hrun
    rw [hgraph] at hrun
    rw [hrun] at hcurrent
    exact of_decide_eq_true hcurrent
  · show row.status.Before mark.status
    cases hstatus : row.status with
    | pending => cases mark <;> decide
    | started =>
      cases mark with
      | started => exact absurd hstatus hother
      | done => decide
      | failed => decide
    | done => exact absurd (.inl hstatus) hopen
    | failed => exact absurd (.inr hstatus) hopen

theorem transitionEffect_moves {answer : LedgerTransition}
    (h : transitionEffect graphId effectId mark.status s = .ok (answer, t)) :
    t.pendingEffects.length = s.pendingEffects.length ∧
      InPlace (MovesOnly (fun row => row.graphId = graphId ∧ row.effectId = effectId) s)
        s.pendingEffects t.pendingEffects := by
  obtain rfl | ⟨-, rfl⟩ := transitionEffect_ok h
  · exact ⟨rfl, InPlace.refl _⟩
  · exact ⟨length_map _, InPlace.update fun row _ hc => movable_moves hc⟩

theorem EffectRow.Forward.same {row row' : EffectRow} (h : row.Forward row') :
    row'.graphId = row.graphId ∧ row'.kind = row.kind ∧ row'.attemptId = row.attemptId ∧
      row'.effectId = row.effectId := by
  rcases h with rfl | ⟨-, heq⟩
  · exact ⟨rfl, rfl, rfl, rfl⟩
  · rw [heq]
    exact ⟨rfl, rfl, rfl, rfl⟩

theorem same_of_moved (hlength : t.pendingEffects.length = s.pendingEffects.length)
    (hmoved : InPlace EffectRow.Forward s.pendingEffects t.pendingEffects) :
    (s.EffectsNamed → t.EffectsNamed) ∧
      ∀ graphId attemptId, t.Dispatched graphId attemptId ↔ s.Dispatched graphId attemptId := by
  refine ⟨fun hs row' hrow' => ?_, fun graphId attemptId => ⟨?_, ?_⟩⟩
  · obtain ⟨row, hrow, hforward⟩ := hmoved.exists_of_mem_right hlength hrow'
    obtain ⟨-, hkind, hattempt, hid⟩ := hforward.same
    unfold EffectRow.Named
    rw [hkind, hattempt, hid]
    exact hs row hrow
  · rintro ⟨row', hrow', hgraph, hkind, hattempt⟩
    obtain ⟨row, hrow, hforward⟩ := hmoved.exists_of_mem_right hlength hrow'
    obtain ⟨hgraph', hkind', hattempt', -⟩ := hforward.same
    exact ⟨row, hrow, hgraph'.symm.trans hgraph, hkind'.symm.trans hkind,
      hattempt'.symm.trans hattempt⟩
  · rintro ⟨row, hrow, hgraph, hkind, hattempt⟩
    obtain ⟨row', hrow', hforward⟩ := hmoved.exists_of_mem hrow
    obtain ⟨hgraph', hkind', hattempt', -⟩ := hforward.same
    exact ⟨row', hrow', hgraph'.trans hgraph, hkind'.trans hkind, hattempt'.trans hattempt⟩

end Marks

section Calls
variable {call : EffectCall}

inductive EffectCall where
  | start (run : RunIdentityRecord) (maxExecutions : Option Nat) (entries : List ArmedAttempt)
      (state : GraphStateRecord)
  | reexecute (run : RunIdentityRecord) (afterRunId : String) (maxExecutions : Option Nat)
      (entries : List ArmedAttempt) (state : GraphStateRecord)
  | submit (write : SubmissionWrite)
  | retry (write : RetryWrite)
  | cancel (input : OutcomeCancelIntentInput)
  | mark (graphId effectId : String) (mark : EffectMark)

inductive EffectAnswer where
  | started
  | submitted (verdict : CommitResult)
  | retried (result : RunControlWriteResult)
  | recorded
  | marked (transition : LedgerTransition)

def EffectCall.perform : EffectCall → StoreTx EffectAnswer
  | .start run maxExecutions entries state => do
    mintRunIn run maxExecutions entries state
    pure .started
  | .reexecute run afterRunId maxExecutions entries state => do
    reexecuteIn run afterRunId maxExecutions entries state
    pure .started
  | .submit write => do
    let verdict ← commitSubmission write
    pure (.submitted verdict)
  | .retry write => do
    let result ← applyRetry write
    pure (.retried result)
  | .cancel input => do
    recordCancelIntent input
    pure .recorded
  | .mark graphId effectId next => do
    let transition ← markEffect graphId effectId next
    pure (.marked transition)

abbrev EffectEvent := Event EffectCall StoreFailure EffectAnswer

/-- The attempts a call arms: entries of a run, successors, or a retry's. -/
def EffectCall.arms : EffectCall → EffectAnswer → List (String × String)
  | .start run _ entries _, _ => armedKeys run.graphId entries
  | .reexecute run _ _ entries _, _ => armedKeys run.graphId entries
  | .submit write, .submitted verdict => write.arms verdict
  | .retry write, .retried result => write.arms result
  | _, _ => []

/-- A call that failed wrote nothing, and dispatched nothing. -/
def EffectEvent.dispatches (event : EffectEvent) : List (String × String) :=
  match event.answer with
  | .ok answer => event.call.arms answer
  | .error _ => []

def EffectCall.Names (call : EffectCall) (row : EffectRow) : Prop :=
  match call with
  | .submit write =>
    row.graphId = write.receipt.graphId ∧ row.attemptId = write.receipt.attemptId
  | .mark graphId effectId _ => row.graphId = graphId ∧
      (effectId = dispatchEffectIdOf row.attemptId ∨ effectId = cancelEffectIdOf row.attemptId)
  | _ => False

inductive EffectStep : GraphStore → Option EffectEvent → GraphStore → Prop where
  | call {s t : GraphStore} {event : EffectEvent} (commits : Commits EffectCall.perform s event t) :
      EffectStep s (some event) t
  | elsewhere {s t : GraphStore} (effects : t.pendingEffects = s.pendingEffects) :
      EffectStep s none t

variable {s t : GraphStore} {graphId effectId : String}

structure EffectsMoved (call : EffectCall) (keys : List (String × String)) (s t : GraphStore) :
    Prop where
  kept : InPlace (MovesOnly call.Names s) s.pendingEffects t.pendingEffects
  named : t.EffectsNamed
  dispatched : ∀ graphId attemptId,
    t.Dispatched graphId attemptId ↔ s.Dispatched graphId attemptId ∨ (graphId, attemptId) ∈ keys

theorem EffectsGrow.moved {keys : List (String × String)} {m : GraphStore}
    (h : EffectsGrow keys m t) (hsame : m.pendingEffects = s.pendingEffects) (hs : s.EffectsNamed) :
    EffectsMoved call keys s t := by
  obtain ⟨more, hmore⟩ := h.kept
  have hm : m.EffectsNamed := by
    unfold GraphStore.EffectsNamed
    rw [hsame]
    exact hs
  refine ⟨?_, h.named hm, fun graphId attemptId => ?_⟩
  · rw [← hmore, hsame]
    exact InPlace.append more
  · rw [h.dispatched hm]
    unfold GraphStore.Dispatched
    rw [hsame]

theorem onCurrentRun_congr (h : t.runs = s.runs) (row : EffectRow) :
    t.OnCurrentRun row ↔ s.OnCurrentRun row := by
  have hcurrent : t.readCurrentRunId row.graphId = s.readCurrentRunId row.graphId := by
    unfold GraphStore.readCurrentRunId GraphStore.readRun GraphStore.runRows
    rw [h]
  unfold GraphStore.OnCurrentRun
  rw [hcurrent]

theorem EffectsGrow.marked {keys : List (String × String)} {m : GraphStore}
    (h : EffectsGrow keys s m) (hs : s.EffectsNamed) (mark : EffectMark) {answer : LedgerTransition}
    (hmark : transitionEffect graphId effectId mark.status m = .ok (answer, t))
    (hnames : ∀ row, row.Named → row.graphId = graphId → row.effectId = effectId → call.Names row) :
    EffectsMoved call keys s t := by
  obtain ⟨hlength, hmoves⟩ := transitionEffect_moves hmark
  obtain ⟨hnamed, hsame⟩ := same_of_moved hlength (hmoves.mono fun _ _ => MovesOnly.forward)
  refine ⟨fun i row hrow => ?_, hnamed (h.named hs), fun graphId' attemptId => ?_⟩
  · obtain ⟨more, hmore⟩ := h.kept
    have hlt : i < s.pendingEffects.length := (List.getElem?_eq_some_iff.1 hrow).1
    have hmid : m.pendingEffects[i]? = some row := by
      rw [← hmore]
      exact (getElem?_append_left hlt).trans hrow
    obtain ⟨row', hrow', hmoved⟩ := hmoves i row hmid
    refine ⟨row', hrow', hmoved.imp_right ?_⟩
    rintro ⟨⟨hgraph, hid⟩, hcurrent, hrest⟩
    have hrowNamed := hs row (mem_of_getElem? hrow)
    exact ⟨hnames row hrowNamed hgraph hid, (onCurrentRun_congr h.runs row).1 hcurrent, hrest⟩
  · rw [hsame, h.dispatched hs]

theorem EffectCall.perform_moved {answer : EffectAnswer} (h : call.perform s = .ok (answer, t))
    (hs : s.EffectsNamed) : EffectsMoved call (call.arms answer) s t := by
  cases call with
  | start run maxExecutions entries state =>
    obtain ⟨_, u, hrun, hanswer⟩ := bind_ok.1 h
    obtain ⟨rfl, rfl⟩ := pure_ok.1 hanswer
    obtain ⟨m, hsame, hgrown⟩ := mintRunIn_grows hrun
    exact hgrown.moved hsame hs
  | reexecute run afterRunId maxExecutions entries state =>
    obtain ⟨_, u, hrun, hanswer⟩ := bind_ok.1 h
    obtain ⟨rfl, rfl⟩ := pure_ok.1 hanswer
    obtain ⟨_, m₀, hmint, hstart⟩ := bind_ok.1 hrun
    obtain ⟨m, hsame, hgrown⟩ := mintRunIn_grows hstart
    exact hgrown.moved (hsame.trans (mintSuccessorRun_effects (mapError_ok.1 hmint))) hs
  | submit write =>
    obtain ⟨verdict, u, hrun, hanswer⟩ := bind_ok.1 h
    obtain ⟨rfl, rfl⟩ := pure_ok.1 hanswer
    obtain ⟨m, hgrown, rfl | ⟨transition, hmark⟩⟩ := commitSubmission_grows hrun
    · exact hgrown.moved rfl hs
    · refine hgrown.marked hs .done hmark fun row hnamed hgraph hid => ?_
      exact ⟨hgraph, (hnamed.dispatch hid).2⟩
  | retry write =>
    obtain ⟨result, u, hrun, hanswer⟩ := bind_ok.1 h
    obtain ⟨rfl, rfl⟩ := pure_ok.1 hanswer
    exact (applyRetry_grows hrun).moved rfl hs
  | cancel input =>
    obtain ⟨_, u, hrun, hanswer⟩ := bind_ok.1 h
    obtain ⟨rfl, rfl⟩ := pure_ok.1 hanswer
    exact (recordCancelIntent_grows hrun).moved rfl hs
  | mark graphId effectId mark =>
    obtain ⟨transition, u, hrun, hanswer⟩ := bind_ok.1 h
    obtain ⟨rfl, rfl⟩ := pure_ok.1 hanswer
    rw [markEffect_eq] at hrun
    refine (EffectsGrow.of_eq rfl rfl).marked hs mark hrun fun row hnamed hgraph hid => ⟨hgraph, ?_⟩
    rcases hnamed with ⟨-, hname⟩ | ⟨-, hname⟩
    · exact .inl (hid.symm.trans hname)
    · exact .inr (hid.symm.trans hname)

theorem EffectStep.moved {event : EffectEvent} (h : EffectStep s (some event) t)
    (hs : s.EffectsNamed) : EffectsMoved event.call event.dispatches s t := by
  cases h with
  | call hcommits =>
    unfold EffectEvent.dispatches
    obtain ⟨rfl, failure, hfailed⟩ | ⟨answer, hanswer, hperform⟩ := hcommits.cases
    · rw [hfailed]
      exact (EffectsGrow.of_eq rfl rfl).moved rfl hs
    · rw [hanswer]
      exact EffectCall.perform_moved hperform hs

theorem EffectStep.named {event : Option EffectEvent} (h : EffectStep s event t)
    (hs : s.EffectsNamed) : t.EffectsNamed := by
  cases h with
  | call hcommits => exact ((EffectStep.call hcommits).moved hs).named
  | elsewhere heffects =>
    unfold GraphStore.EffectsNamed
    rw [heffects]
    exact hs

theorem effects_forward {events : List (Option EffectEvent)} (h : Run EffectStep s events t)
    (hs : s.EffectsNamed) : InPlace EffectRow.Forward s.pendingEffects t.pendingEffects := by
  induction h with
  | nil => exact InPlace.refl _
  | @cons s u t event events hstep _ ih =>
    have hfirst : InPlace EffectRow.Forward s.pendingEffects u.pendingEffects := by
      cases hstep with
      | call hcommits =>
        have hmoved := (EffectStep.call hcommits).moved hs
        exact hmoved.kept.mono fun _ _ hmoves => hmoves.forward
      | elsewhere heffects =>
        rw [heffects]
        exact InPlace.refl _
    exact hfirst.trans (ih (hstep.named hs))

/-- A dispatch row exists exactly for the attempts that were armed; rows move only forward, by calls
issued for them while their run is current, and terminal rows stay. -/
theorem effect_lifecycle {events : List (Option EffectEvent)} (hinit : s.pendingEffects = [])
    (hrun : Run EffectStep s events t) :
    (∀ graphId attemptId, t.Dispatched graphId attemptId ↔
      ∃ event, some event ∈ events ∧ (graphId, attemptId) ∈ event.dispatches) ∧
    (∀ event u, EffectStep t (some event) u →
      InPlace (MovesOnly event.call.Names t) t.pendingEffects u.pendingEffects) ∧
    (∀ later u, Run EffectStep t later u →
      InPlace (fun row row' => row.Forward row' ∧ (row.Terminal → row' = row))
        t.pendingEffects u.pendingEffects) := by
  have hinvariant : t.EffectsNamed ∧ ∀ graphId attemptId, t.Dispatched graphId attemptId ↔
      ∃ event, some event ∈ events ∧ (graphId, attemptId) ∈ event.dispatches := by
    refine hrun.history_invariant (I := fun events s => s.EffectsNamed ∧
      ∀ graphId attemptId, s.Dispatched graphId attemptId ↔
        ∃ event, some event ∈ events ∧ (graphId, attemptId) ∈ event.dispatches) ?_ ?_
    · rintro before m event u - ⟨hnamed, hdispatched⟩ hstep
      refine ⟨hstep.named hnamed, fun graphId attemptId => ?_⟩
      cases hstep with
      | call hcommits =>
        rw [((EffectStep.call hcommits).moved hnamed).dispatched, hdispatched]
        simp [or_and_right, exists_or]
      | elsewhere heffects =>
        have hsame : u.Dispatched graphId attemptId ↔ m.Dispatched graphId attemptId := by
          unfold GraphStore.Dispatched
          rw [heffects]
        rw [hsame, hdispatched]
        simp
    · constructor
      · unfold GraphStore.EffectsNamed
        rw [hinit]
        exact nofun
      · unfold GraphStore.Dispatched
        rw [hinit]
        simp
  obtain ⟨hnamed, hdispatched⟩ := hinvariant
  refine ⟨hdispatched, fun event u hstep => (hstep.moved hnamed).kept, fun later u hlater => ?_⟩
  refine (effects_forward hlater hnamed).mono fun row row' hforward => ⟨hforward, ?_⟩
  intro hterminal
  rcases hforward with heq | ⟨hbefore, -⟩
  · exact heq
  · exact absurd hterminal (not_or.2 hbefore.opened)

theorem effectCalls_run (s : GraphStore) (calls : List EffectCall) :
    Run EffectStep s ((history EffectCall.perform s calls).1.map some)
      (history EffectCall.perform s calls).2 := by
  induction calls generalizing s with
  | nil => exact .nil s
  | cons call calls ih => exact .cons (.call rfl) (ih _)

def armedOf (nodeId attemptId : String) : ArmedAttempt :=
  { nodeId := nodeId, attemptId := attemptId, limits := NO_BUDGET_LIMITS,
    retention := .notRetained, credential := none,
    target := { graphId := "g", planRevision := "v", nodeId := nodeId, attemptId := attemptId,
                agent := "worker", prompt := "do it", inputs := none } }

def stateOf (at' : Nat) : GraphStateRecord :=
  { graphId := "g", planRevision := "v", body := .obj [], updatedAt := at' }

def firstCalls : List EffectCall :=
  [.start { graphId := "g", runId := "r1", startedAt := 1, planRevision := "v" } none
      [armedOf "A" "A#1"] (stateOf 1),
    .mark "g" (dispatchEffectIdOf "A#1") .started,
    .submit
      { receipt := { graphId := "g", attemptId := "A#1", submissionId := "s", planRevision := "v",
                     proposalDigest := "d", decision := .accepted, committedAt := 5 }
        acceptedEvent := some { graphId := "g", attemptId := "A#1", submissionId := "s",
                                planRevision := "v", outcomeId := "done", acceptedAt := 5 }
        acceptedResult := none
        join := some { nodeId := "A", runId := some "r1", maxExecutions := none,
                       armed := [armedOf "B" "B#2"], state := stateOf 5 } }]

def firstStore : GraphStore := (history EffectCall.perform .empty firstCalls).2

def orderAgain (s : GraphStore) : GraphStore :=
  { s with
    runReexecutions := [{ graphId := "g", runId := "r1", reason := "again", decidedAt := 8,
                          decidedBy := none, successor := none }] }

theorem orderAgain_step (s : GraphStore) : EffectStep s none (orderAgain s) := .elsewhere rfl

def laterCalls : List EffectCall :=
  [.reexecute { graphId := "g", runId := "r2", startedAt := 9, planRevision := "v" } "r1" none
      [armedOf "A" "A#3"] (stateOf 9),
    .mark "g" (dispatchEffectIdOf "B#2") .done]

def supersededStore : GraphStore :=
  (history EffectCall.perform (orderAgain firstStore) laterCalls).2

theorem effect_lifecycle_superseded :
    supersededStore.pendingEffects.map (fun row => (row.attemptId, row.runId, row.status)) =
        [("A#1", "r1", .done), ("B#2", "r1", .pending), ("A#3", "r2", .pending)] ∧
      ∀ later u, Run EffectStep supersededStore later u →
        InPlace (fun row row' => row.Forward row' ∧ (row.Terminal → row' = row))
          supersededStore.pendingEffects u.pendingEffects := by
  have hfirst : Run EffectStep .empty _ firstStore := effectCalls_run .empty firstCalls
  have hlater : Run EffectStep (orderAgain firstStore) _ supersededStore :=
    effectCalls_run (orderAgain firstStore) laterCalls
  have hrun := (hfirst.snoc (orderAgain_step firstStore)).append hlater
  exact ⟨by decide +kernel, (effect_lifecycle rfl hrun).2.2⟩

end Calls

end Rolebox.Graph
