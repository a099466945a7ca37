import Rolebox.Graph.StateModel

/-! Progress projections and their comparison with the persisted baseline. -/

namespace Rolebox.Graph
open General

structure ValidationBinding where
  graphId : String
  attemptId : String
  submissionId : String
  planRevision : String
  proposalDigest : String

def PROGRESS_VALUE_MAX_LENGTH : Nat := 256

inductive ProgressObservation where
  | token (value : String)
  | truncated (length : Nat)
  | incomparable (received : String)

structure ProgressProjection where
  binding : ValidationBinding
  loopGroupId : String
  evaluator : String
  version : Nat
  subject : String
  observation : ProgressObservation

inductive ProgressUnknownReason where
  | evaluatorIdentityMismatch
  | truncatedValue
  | incomparableValue

inductive ProgressReportAnswer where
  | unknown (reason : ProgressUnknownReason)
  | progressed
  | unchanged

/-- One comparison as reported; `entry` is the persisted entry after it, if it was one. -/
structure ProgressReport where
  entry : Option OutcomeLoopProgress
  answer : ProgressReportAnswer
  stalled : Bool

structure ProgressComparison where
  report : ProgressReport
  entry : OutcomeLoopProgress

def reportOf (entry : OutcomeLoopProgress) (answer : ProgressReportAnswer) (stalled : Bool) :
    ProgressReport :=
  { entry := some entry, answer := answer, stalled := stalled }

def unknownComparison (entry : OutcomeLoopProgress) (reason : ProgressUnknownReason) :
    ProgressComparison :=
  let cleared := { entry with unchanged := 0 }
  { report := reportOf cleared (.unknown reason) false, entry := cleared }

def compareProgress (policy : CompiledProgressPolicy) (entry : OutcomeLoopProgress)
    (projection : ProgressProjection) : ProgressComparison :=
  if entry.evaluator ≠ projection.evaluator ∨ entry.version ≠ projection.version ∨
      entry.subject ≠ projection.subject then
    unknownComparison entry .evaluatorIdentityMismatch
  else
    match projection.observation with
    | .truncated _ => unknownComparison entry .truncatedValue
    | .incomparable _ => unknownComparison entry .incomparableValue
    | .token token =>
      match entry.baseline with
      | none =>
        let established := { entry with unchanged := 0, baseline := some token }
        { report := reportOf established .progressed false, entry := established }
      | some baseline =>
        if baseline = token then
          let same := { entry with unchanged := entry.unchanged + 1 }
          { report := reportOf same .unchanged (decide (policy.maxUnchanged ≤ same.unchanged))
            entry := same }
        else
          let progressed := { entry with unchanged := 0, baseline := some token }
          { report := reportOf progressed .progressed false, entry := progressed }

theorem compareProgress_stalled {policy : CompiledProgressPolicy} {entry : OutcomeLoopProgress}
    {projection : ProgressProjection}
    (h : (compareProgress policy entry projection).report.stalled = true) :
    ∃ baseline, entry.baseline = some baseline ∧
      (compareProgress policy entry projection).entry =
        { entry with unchanged := entry.unchanged + 1 } ∧
      policy.maxUnchanged ≤ entry.unchanged + 1 := by
  unfold compareProgress at h ⊢
  split
  · next hid => simp [hid, unknownComparison, reportOf] at h
  next hid =>
  rw [if_neg hid] at h
  cases hobs : projection.observation with
  | truncated => simp [hobs, unknownComparison, reportOf] at h
  | incomparable => simp [hobs, unknownComparison, reportOf] at h
  | token token =>
    cases hb : entry.baseline with
    | none => simp [hobs, hb, reportOf] at h
    | some baseline =>
      by_cases ht : baseline = token
      · refine ⟨baseline, rfl, by simp [ht], ?_⟩
        simpa [hobs, hb, ht, reportOf] using h
      · simp [hobs, hb, ht, reportOf] at h

section

variable (policy : CompiledProgressPolicy)

section

variable (entry : OutcomeLoopProgress)

section

variable (projection : ProgressProjection)

theorem compareProgress_identity : let after := (compareProgress policy entry projection).entry
    after.loopGroupId = entry.loopGroupId ∧ after.evaluator = entry.evaluator ∧
      after.version = entry.version ∧ after.subject = entry.subject := by
  unfold compareProgress unknownComparison
  split
  · exact ⟨rfl, rfl, rfl, rfl⟩
  cases projection.observation with
  | truncated => exact ⟨rfl, rfl, rfl, rfl⟩
  | incomparable => exact ⟨rfl, rfl, rfl, rfl⟩
  | token token =>
    cases entry.baseline with
    | none => exact ⟨rfl, rfl, rfl, rfl⟩
    | some baseline =>
      simp only
      split <;> exact ⟨rfl, rfl, rfl, rfl⟩

theorem compareProgress_baseline :
    (compareProgress policy entry projection).entry.baseline = entry.baseline ∨
      ∃ token, projection.observation = .token token ∧
        (compareProgress policy entry projection).entry.baseline = some token := by
  unfold compareProgress unknownComparison
  split
  · exact .inl rfl
  cases hobs : projection.observation with
  | truncated => exact .inl rfl
  | incomparable => exact .inl rfl
  | token token =>
    cases hb : entry.baseline with
    | none => exact .inr ⟨token, rfl, rfl⟩
    | some baseline =>
      simp only
      split
      · exact .inl rfl
      · exact .inr ⟨token, rfl, rfl⟩

theorem compareProgress_unchanged_le :
    (compareProgress policy entry projection).entry.unchanged ≤ entry.unchanged + 1 := by
  unfold compareProgress unknownComparison
  split
  · exact Nat.zero_le _
  cases projection.observation with
  | truncated => exact Nat.zero_le _
  | incomparable => exact Nat.zero_le _
  | token token =>
    cases entry.baseline with
    | none => exact Nat.zero_le _
    | some baseline =>
      simp only
      split
      · exact le_rfl
      · exact Nat.zero_le _

end

end

end

theorem compareProgress_unchanged_lt {policy : CompiledProgressPolicy}
    {entry : OutcomeLoopProgress} {projection : ProgressProjection} (hpos : 0 < policy.maxUnchanged)
    (h : (compareProgress policy entry projection).report.stalled = false) :
    (compareProgress policy entry projection).entry.unchanged < policy.maxUnchanged := by
  unfold compareProgress unknownComparison at h ⊢
  split
  · exact hpos
  next hid =>
  rw [if_neg hid] at h
  cases hobs : projection.observation with
  | truncated => exact hpos
  | incomparable => exact hpos
  | token token =>
    cases hb : entry.baseline with
    | none => exact hpos
    | some baseline =>
      by_cases ht : baseline = token
      · simpa [hobs, hb, ht, reportOf] using h
      · simpa [ht] using hpos

end Rolebox.Graph
