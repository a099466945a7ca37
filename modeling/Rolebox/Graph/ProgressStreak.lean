import Rolebox.General.Streak
import Rolebox.Graph.BoundedRepetition

/-! The unchanged count of a loop group is its streak, and the run stops at the threshold. -/

namespace Rolebox.Graph
open General List

section Comparison
variable {policy : CompiledProgressPolicy} {entry : OutcomeLoopProgress}

def shownToken (policy : CompiledProgressPolicy) (projection : ProgressProjection) :
    Option String :=
  if projection.evaluator = policy.evaluator ∧ projection.version = policy.version ∧
      projection.subject = policy.subject then
    match projection.observation with
    | .token token => some token
    | .truncated _ => none
    | .incomparable _ => none
  else none

def OutcomeLoopProgress.Under (policy : CompiledProgressPolicy) (entry : OutcomeLoopProgress) :
    Prop :=
  entry.evaluator = policy.evaluator ∧ entry.version = policy.version ∧
    entry.subject = policy.subject

structure Compared (policy : CompiledProgressPolicy) (entry : OutcomeLoopProgress)
    (shown : Option String) (comparison : ProgressComparison) : Prop where
  unchanged : comparison.entry.unchanged =
    if shown ≠ none ∧ shown = entry.baseline then entry.unchanged + 1 else 0
  baseline : comparison.entry.baseline = shown.or entry.baseline
  reported : comparison.report.entry = some comparison.entry
  stalled : comparison.report.stalled = true ↔
    (shown ≠ none ∧ shown = entry.baseline) ∧ policy.maxUnchanged ≤ entry.unchanged + 1

theorem compareProgress_compared (hunder : entry.Under policy) (projection : ProgressProjection) :
    Compared policy entry (shownToken policy projection)
      (compareProgress policy entry projection) := by
  obtain ⟨hevaluator, hversion, hsubject⟩ := hunder
  unfold compareProgress shownToken
  rw [hevaluator, hversion, hsubject]
  by_cases hsame : projection.evaluator = policy.evaluator ∧
      projection.version = policy.version ∧ projection.subject = policy.subject
  · have hid : ¬ (policy.evaluator ≠ projection.evaluator ∨ policy.version ≠ projection.version ∨
        policy.subject ≠ projection.subject) := by
      rw [hsame.1, hsame.2.1, hsame.2.2]
      simp
    rw [if_pos hsame, if_neg hid]
    cases projection.observation with
    | truncated length
    | incomparable received => exact ⟨rfl, rfl, rfl, by simp [unknownComparison, reportOf]⟩
    | token token =>
      cases hbaseline : entry.baseline with
      | none => exact ⟨by simp [hbaseline], rfl, rfl, by simp [reportOf, hbaseline]⟩
      | some baseline =>
        by_cases htoken : baseline = token
        · subst htoken
          simp only [if_true]
          exact ⟨by simp [hbaseline], by simp [hbaseline], rfl, by simp [reportOf, hbaseline]⟩
        · have hne : token ≠ baseline := Ne.symm htoken
          simp only [if_neg htoken]
          exact ⟨by simp [hne, hbaseline], rfl, rfl, by simp [reportOf, hne, hbaseline]⟩
  · have hid : policy.evaluator ≠ projection.evaluator ∨ policy.version ≠ projection.version ∨
        policy.subject ≠ projection.subject := by
      by_contra hnone
      simp only [not_or, not_not] at hnone
      exact hsame ⟨hnone.1.symm, hnone.2.1.symm, hnone.2.2.symm⟩
    rw [if_neg hsame, if_pos hid]
    exact ⟨rfl, rfl, rfl, by simp [unknownComparison, reportOf]⟩

end Comparison

section Measuring
variable {plan : CompiledPlan} {decision : AcceptedDecision} {now : Nat}
  {recorded : PlainObject OutcomeLoopProgress} {projections : List ProgressProjection}
  {group : CompiledLoopGroup} {policy : CompiledProgressPolicy} {entry : OutcomeLoopProgress}
variable {measured measured' : Measurement}

theorem own?_set_other {entries : PlainObject OutcomeLoopProgress} {j k : String}
    (a : OutcomeLoopProgress) (h : j ≠ k) : (entries.set k a).own? j = entries.own? j := by
  unfold PlainObject.set PlainObject.own?
  split
  · rfl
  · exact lookup_assign_ne a _ h

theorem stalledStop_isSome {other : CompiledLoopGroup} {comparison : ProgressComparison}
    {stop stop' : Option OutcomeProgressStalledStop}
    (h : stalledStop other policy decision now comparison stop = .ok stop') :
    (stop.isSome → stop'.isSome) ∧ (comparison.report.stalled = true → stop'.isSome) := by
  unfold stalledStop at h
  split at h
  · next hkeep =>
    obtain rfl := Except.ok.inj h
    refine ⟨id, fun hstalled => hkeep.resolve_left ?_⟩
    rw [hstalled]
    exact Bool.false_ne_true ∘ Eq.symm
  · split at h
    · cases h
    · obtain rfl := Except.ok.inj h
      exact ⟨fun _ => rfl, fun _ => rfl⟩

structure MeasuredGroup (plan : CompiledPlan) (decision : AcceptedDecision)
    (projections : List ProgressProjection) (group : CompiledLoopGroup)
    (policy : CompiledProgressPolicy) (entry : OutcomeLoopProgress) (measured : Measurement) :
    Prop where
  projected : ∃ projection, boundProjection plan decision projections group = .ok projection ∧
    measured.entries.own? group.id = some (compareProgress policy entry projection).entry ∧
    (compareProgress policy entry projection).report ∈ measured.reports ∧
    ((compareProgress policy entry projection).report.stalled = true → measured.stop.isSome)

theorem measureGroup_other (group : CompiledLoopGroup) {other : CompiledLoopGroup}
    (h : measureGroup plan recorded decision projections now measured other = .ok measured') :
    (other.id ≠ group.id → measured'.entries.own? group.id = measured.entries.own? group.id) ∧
    (∀ report ∈ measured.reports, report ∈ measured'.reports) ∧
    (measured.stop.isSome → measured'.stop.isSome) := by
  unfold measureGroup at h
  split at h
  · obtain rfl := Except.ok.inj h
    exact ⟨fun _ => rfl, fun _ hr => hr, id⟩
  · split at h
    · cases h
    · obtain ⟨_, -, hrest⟩ := bind_eq_ok.1 h
      obtain rfl := Except.ok.inj hrest
      exact ⟨fun _ => rfl, fun _ hr => mem_append_left _ hr, id⟩
    · obtain ⟨projection, -, hrest⟩ := bind_eq_ok.1 h
      obtain ⟨stop, hstop, hrest⟩ := bind_eq_ok.1 hrest
      obtain rfl := Except.ok.inj hrest
      exact ⟨fun hne => own?_set_other _ (Ne.symm hne), fun _ hr => mem_append_left _ hr,
        (stalledStop_isSome hstop).1⟩

theorem measureGroup_self (hpolicy : group.progress = some policy) (hname : group.id ≠ "__proto__")
    (hown : recorded.own? group.id = some entry)
    (h : measureGroup plan recorded decision projections now measured group = .ok measured') :
    MeasuredGroup plan decision projections group policy entry measured' := by
  unfold measureGroup at h
  rw [hpolicy, PlainObject.get_of_own hown] at h
  obtain ⟨projection, hprojection, hrest⟩ := bind_eq_ok.1 h
  obtain ⟨stop, hstop, hrest⟩ := bind_eq_ok.1 hrest
  obtain rfl := Except.ok.inj hrest
  refine ⟨projection, hprojection, ?_, by simp, (stalledStop_isSome hstop).2⟩
  rw [PlainObject.own?_set_of_ne _ _ hname, if_pos rfl]

theorem measureGroups_spec (hpolicy : group.progress = some policy) (hname : group.id ≠ "__proto__")
    (hown : recorded.own? group.id = some entry) {groups : List CompiledLoopGroup}
    (hnodup : (groups.map (·.id)).Nodup)
    (h : groups.foldlM (measureGroup plan recorded decision projections now) measured =
      .ok measured') :
    (group.id ∉ groups.map (·.id) →
      measured'.entries.own? group.id = measured.entries.own? group.id) ∧
    (group ∈ groups → MeasuredGroup plan decision projections group policy entry measured') ∧
    (∀ report ∈ measured.reports, report ∈ measured'.reports) ∧
    (measured.stop.isSome → measured'.stop.isSome) := by
  induction groups generalizing measured with
  | nil =>
    obtain rfl := Except.ok.inj h
    exact ⟨fun _ => rfl, (nofun), fun _ hr => hr, id⟩
  | cons other groups ih =>
    rw [foldlM_cons] at h
    obtain ⟨middle, hfirst, hrest⟩ := bind_eq_ok.1 h
    obtain ⟨hnot, hnodup'⟩ := nodup_cons.1 hnodup
    obtain ⟨hkeep, hmeasured, hreports, hstop⟩ := ih hnodup' hrest
    obtain ⟨hkeep', hreports', hstop'⟩ := measureGroup_other group hfirst
    refine ⟨fun hout => ?_, fun hg => ?_, fun r hr => hreports r (hreports' r hr),
      fun hs => hstop (hstop' hs)⟩
    · rw [map_cons, mem_cons, not_or] at hout
      rw [hkeep hout.2, hkeep' (Ne.symm hout.1)]
    · rcases mem_cons.1 hg with rfl | hg
      · obtain ⟨projection, hprojection, hentry, hreport, hstalled⟩ :=
          (measureGroup_self hpolicy hname hown hfirst).projected
        exact ⟨projection, hprojection, (hkeep hnot).trans hentry, hreports _ hreport,
          fun hs => hstop (hstalled hs)⟩
      · exact hmeasured hg

end Measuring

section Watching
variable {plan : CompiledPlan} {group : CompiledLoopGroup} {policy : CompiledProgressPolicy}
variable {watched : Watched}

def recordedObservation (plan : CompiledPlan) (group : CompiledLoopGroup)
    (policy : CompiledProgressPolicy) (state : OutcomeGraphState) (decision : AcceptedDecision)
    (context : AdvanceContext) : Option (Option String) :=
  let groups := continuationGroups plan decision.nodeId decision.outcomeId
  if isTerminal plan decision.nodeId decision.outcomeId = true ∨ group ∉ groups ∨
      (countOutcome decision context.now groups state.loopTraversals).2.isSome = true then none
  else (context.progress.find? (·.loopGroupId = group.id)).map (shownToken policy)

/-- A run state with the observations recorded for one group so far. -/
structure Watched where
  state : OutcomeGraphState
  seen : List (Option String)

def WatchStarts (plan : CompiledPlan) (watched : Watched) : Prop :=
  Starts AnyContext plan watched.state ∧ watched.seen = []

def Watches (plan : CompiledPlan) (group : CompiledLoopGroup) (policy : CompiledProgressPolicy)
    (watched : Watched) (submission : Submission) (watched' : Watched) : Prop :=
  Advances AnyContext plan watched.state submission watched'.state ∧
    watched'.seen = watched.seen ++ (recordedObservation plan group policy watched.state
      submission.decision submission.context).toList

/-- The stored entry counts the streak of the observations and holds the last one. -/
structure StreakKept (group : CompiledLoopGroup) (policy : CompiledProgressPolicy)
    (watched : Watched) : Prop where
  stored : ∃ entry, watched.state.loopProgress.own? group.id = some entry ∧
    entry.loopGroupId = group.id ∧ entry.Under policy ∧
    entry.unchanged = streak watched.seen ∧ entry.baseline = lastSeen watched.seen
  capped : streak watched.seen ≤ policy.maxUnchanged
  live : watched.state.stop = none → streak watched.seen < policy.maxUnchanged

theorem own?_recordFresh (hpolicy : group.progress = some policy) (hname : group.id ≠ "__proto__")
    {groups : List CompiledLoopGroup} (hnodup : (groups.map (·.id)).Nodup)
    (entries : PlainObject OutcomeLoopProgress) :
    (group.id ∉ groups.map (·.id) →
      (groups.foldl recordFresh entries).own? group.id = entries.own? group.id) ∧
    (group ∈ groups →
      (groups.foldl recordFresh entries).own? group.id = some (freshProgress group policy)) := by
  induction groups generalizing entries with
  | nil => exact ⟨fun _ => rfl, nofun⟩
  | cons other groups ih =>
    obtain ⟨hnot, hnodup'⟩ := nodup_cons.1 hnodup
    obtain ⟨hkeep, hfresh⟩ := ih hnodup' (recordFresh entries other)
    rw [foldl_cons]
    refine ⟨fun hout => ?_, fun hg => ?_⟩
    · rw [map_cons, mem_cons, not_or] at hout
      rw [hkeep hout.2, recordFresh]
      split
      · rfl
      · exact own?_set_other _ hout.1
    · rcases mem_cons.1 hg with rfl | hg
      · rw [hkeep hnot, recordFresh, hpolicy]
        simp only
        rw [PlainObject.own?_set_of_ne _ _ hname, if_pos rfl]
      · exact hfresh hg

theorem own?_startProgress (hnodup : (plan.loopGroups.map (·.id)).Nodup)
    (hg : group ∈ plan.loopGroups) (hpolicy : group.progress = some policy)
    (hname : group.id ≠ "__proto__") :
    (startProgress plan).own? group.id = some (freshProgress group policy) :=
  (own?_recordFresh hpolicy hname hnodup .empty).2 hg

/-- An advance keeps the entry where it records nothing, and compares it otherwise. -/
structure StreakAdvance (group : CompiledLoopGroup) (policy : CompiledProgressPolicy)
    (entry : OutcomeLoopProgress) (recorded : Option (Option String)) (advance : OutcomeAdvance) :
    Prop where
  kept : recorded = none → advance.state.loopProgress.own? group.id = some entry
  compared : ∀ shown, recorded = some shown → ∃ comparison, Compared policy entry shown comparison ∧
    comparison.entry.loopGroupId = entry.loopGroupId ∧ comparison.entry.Under policy ∧
    advance.state.loopProgress.own? group.id = some comparison.entry ∧
    comparison.report ∈ advance.progress ∧
    (comparison.report.stalled = true → ∃ stop, advance.state.stop = some (.progressStalled stop))

variable {decision : AcceptedDecision}

theorem boundProjection_found
    {projections : List ProgressProjection} {projection : ProgressProjection}
    (h : boundProjection plan decision projections group = .ok projection) :
    projections.find? (·.loopGroupId = group.id) = some projection := by
  unfold boundProjection at h
  split at h
  · cases h
  next hfound =>
  split at h
  · rw [hfound, Except.ok.inj h]
  · cases h

theorem streakAdvance (hwf : plan.WellFormed) (hg : group ∈ plan.loopGroups)
    (hpolicy : group.progress = some policy) (hname : group.id ≠ "__proto__")
    {state : OutcomeGraphState} {context : AdvanceContext}
    {advance : OutcomeAdvance} {entry : OutcomeLoopProgress}
    (hown : state.loopProgress.own? group.id = some entry) (hunder : entry.Under policy)
    (h : advanceOutcomeGraph plan state decision context = .ok advance) :
    StreakAdvance group policy entry
      (recordedObservation plan group policy state decision context) advance := by
  obtain ⟨position, current, facts, routed, -, hrouted, hclose, -, hreports⟩ :=
    advanceOutcomeGraph_ok h
  have hprogress : advance.state.loopProgress = routed.loopProgress := by
    rw [hclose]
    rfl
  have hstop : advance.state.stop = closingStop plan
      (canonicalNodes plan routed.nodes) context.now routed.stop := by
    rw [hclose]
    rfl
  simp only [recordedObservation]
  rw [routeSettled] at hrouted
  split at hrouted
  · case isTrue hterminal =>
    obtain rfl := Except.ok.inj hrouted
    simp only [hterminal, true_or, if_true]
    refine ⟨fun _ => ?_, nofun⟩
    rw [hprogress]
    exact hown
  · case isFalse hterminal =>
    obtain ⟨-, counted, measured, armed, hcounted, hmeasured, -, hout⟩ := routeOutcome_ok.1 hrouted
    have hentries : routed.loopProgress = measured.entries := by rw [hout]
    rw [hcounted]
    cases hrefused : counted.2 with
    | some stop =>
      rw [hrefused] at hmeasured
      have hsame : measured.entries = state.loopProgress := by
        rw [← Except.ok.inj hmeasured]
      simp only [Option.isSome_some, or_true, if_true]
      refine ⟨fun _ => ?_, nofun⟩
      rw [hprogress, hentries, hsame]
      exact hown
    | none =>
      rw [hrefused] at hmeasured
      have hsublist : ((continuationGroups plan decision.nodeId
          decision.outcomeId).map (·.id)).Nodup :=
        ((continuationGroups_sublist _ _).map _).nodup hwf.groupIds_nodup
      obtain ⟨hkeep, hself, -, -⟩ := measureGroups_spec hpolicy hname hown hsublist hmeasured
      by_cases hin : group ∈ continuationGroups plan decision.nodeId
          decision.outcomeId
      · obtain ⟨projection, hprojection, hentry, hreport, hstalled⟩ := (hself hin).projected
        have hfound := boundProjection_found hprojection
        simp only [hterminal, hin, not_true_eq_false, Option.isSome_none, Bool.false_eq_true,
          or_self, if_false, hfound, Option.map_some]
        refine ⟨(nofun), ?_⟩
        rintro shown hshown
        cases hshown
        obtain ⟨hid, hevaluator, hversion, hsubject⟩ := compareProgress_identity policy entry projection
        refine ⟨_, compareProgress_compared hunder projection, hid,
          ⟨hevaluator.trans hunder.1, hversion.trans hunder.2.1, hsubject.trans hunder.2.2⟩, ?_, ?_,
          fun hreported => ?_⟩
        · rw [hprogress, hentries]
          exact hentry
        · rw [hreports, hout]
          exact hreport
        · obtain ⟨stalled, hstalledStop⟩ := Option.isSome_iff_exists.1 (hstalled hreported)
          have hroutedStop : routed.stop = some (.progressStalled stalled) := by
            rw [hout, hrefused, hstalledStop]
            rfl
          refine ⟨stalled, ?_⟩
          rw [hstop, closingStop_of_isSome (by rw [hroutedStop]; rfl), hroutedStop]
      · have hout' : group.id ∉ (continuationGroups plan decision.nodeId
            decision.outcomeId).map (·.id) := by
          intro hmem
          obtain ⟨other, hother, hid⟩ := mem_map.1 hmem
          have hsame : other = group := inj_on_of_nodup_map hwf.groupIds_nodup
            ((continuationGroups_sublist _ _).subset hother) hg hid
          exact hin (hsame ▸ hother)
        simp only [hin, not_false_eq_true, true_or, or_true, if_true]
        refine ⟨fun _ => ?_, nofun⟩
        rw [hprogress, hentries, hkeep hout', PlainObject.own?_spread]
        exact hown

theorem StreakKept.start (hwf : plan.WellFormed) (hg : group ∈ plan.loopGroups)
    (hpolicy : group.progress = some policy) (hname : group.id ≠ "__proto__")
    (h : WatchStarts plan watched) : StreakKept group policy watched := by
  obtain ⟨⟨context, fromAttemptSeq, dispatches, -, hstart⟩, hseen⟩ := h
  have hpos : 0 < policy.maxUnchanged := (hwf.group_progress group hg policy hpolicy).2.2.2.2.1
  have hprogress : watched.state.loopProgress = startProgress plan :=
    congrArg (·.loopProgress) (start_entries hstart).2.2.2
  refine ⟨⟨freshProgress group policy, ?_, rfl, ⟨rfl, rfl, rfl⟩, ?_, ?_⟩, ?_, fun _ => ?_⟩
  · rw [hprogress]
    exact own?_startProgress hwf.groupIds_nodup hg hpolicy hname
  · rw [hseen]
    rfl
  · rw [hseen]
    rfl
  · rw [hseen]
    exact Nat.zero_le _
  · rw [hseen]
    exact hpos

/-- The streak with the new observation is reported, as stalled exactly on the threshold. -/
structure StreakReported (group : CompiledLoopGroup) (policy : CompiledProgressPolicy)
    (seen : List (Option String)) (advance : OutcomeAdvance) : Prop where
  report : ∃ report ∈ advance.progress, ∃ entry, report.entry = some entry ∧
    entry.loopGroupId = group.id ∧ entry.unchanged = streak seen ∧
    (report.stalled = true ↔ streak seen = policy.maxUnchanged)
  stops : streak seen = policy.maxUnchanged →
    ∃ stop, advance.state.stop = some (.progressStalled stop)

theorem StreakKept.advance (hwf : plan.WellFormed) (hg : group ∈ plan.loopGroups)
    (hpolicy : group.progress = some policy) (hname : group.id ≠ "__proto__")
    (hkept : StreakKept group policy watched) {context : AdvanceContext} {advance : OutcomeAdvance}
    (h : advanceOutcomeGraph plan watched.state decision context = .ok advance) :
    let recorded := recordedObservation plan group policy watched.state decision context
    StreakKept group policy ⟨advance.state, watched.seen ++ recorded.toList⟩ ∧
      ∀ shown, recorded = some shown →
        StreakReported group policy (watched.seen ++ [shown]) advance := by
  intro recorded
  obtain ⟨entry, hown, hid, hunder, hunchanged, hbaseline⟩ := hkept.stored
  have hstep := streakAdvance hwf hg hpolicy hname hown hunder h
  obtain ⟨_, _, _, _, hentered, -⟩ := advanceOutcomeGraph_ok h
  have hlow := hkept.live (dispatchedEntry_ok.1 hentered).2.1
  cases hrecorded : recorded with
  | none =>
    simp only [Option.toList_none, append_nil]
    exact ⟨⟨⟨entry, hstep.kept hrecorded, hid, hunder, hunchanged, hbaseline⟩, hkept.capped,
      fun _ => hlow⟩, (nofun)⟩
  | some shown =>
    obtain ⟨comparison, hcompared, hid', hunder', hown', hreport, hstalled⟩ :=
      hstep.compared shown hrecorded
    have hstreak : comparison.entry.unchanged = streak (watched.seen ++ [shown]) := by
      rw [hcompared.unchanged, streak_concat, hbaseline, hunchanged]
    have hseen : comparison.entry.baseline = lastSeen (watched.seen ++ [shown]) := by
      rw [hcompared.baseline, lastSeen_concat, hbaseline]
    have hle : streak (watched.seen ++ [shown]) ≤ policy.maxUnchanged := by
      rw [streak_concat]
      split
      · exact hlow
      · exact Nat.zero_le _
    -- the threshold is reached exactly by the comparison that reports the stall
    have hreached : comparison.report.stalled = true ↔
        streak (watched.seen ++ [shown]) = policy.maxUnchanged := by
      rw [hcompared.stalled, streak_concat, hbaseline, hunchanged]
      by_cases hsame : shown ≠ none ∧ shown = lastSeen watched.seen
      · rw [if_pos hsame]
        constructor
        · rintro ⟨-, hmax⟩
          omega
        · intro heq
          exact ⟨hsame, by omega⟩
      · rw [if_neg hsame]
        constructor
        · rintro ⟨hrepeat, -⟩
          exact absurd hrepeat hsame
        · intro hzero
          omega
    have hstops : streak (watched.seen ++ [shown]) = policy.maxUnchanged →
        ∃ stop, advance.state.stop = some (.progressStalled stop) := fun heq =>
      hstalled (hreached.2 heq)
    simp only [Option.toList_some]
    refine ⟨⟨⟨comparison.entry, hown', hid'.trans hid, hunder', hstreak, hseen⟩, hle,
      fun hlive => ?_⟩, ?_⟩
    · by_contra hnot
      obtain ⟨stop, hstop⟩ := hstops (by
        have hlive' : ¬ streak (watched.seen ++ [shown]) < policy.maxUnchanged := hnot
        omega)
      have hlive' : advance.state.stop = none := hlive
      rw [hlive'] at hstop
      cases hstop
    · intro shown' hshown
      cases hshown
      exact ⟨⟨comparison.report, hreport, comparison.entry, hcompared.reported, hid'.trans hid,
        hstreak, hreached⟩, hstops⟩

theorem StreakKept.reachable (hwf : plan.WellFormed) (hg : group ∈ plan.loopGroups)
    (hpolicy : group.progress = some policy) (hname : group.id ≠ "__proto__")
    (h : Reachable (WatchStarts plan) (Watches plan group policy) watched) :
    StreakKept group policy watched := by
  refine Reachable.invariant (I := StreakKept group policy)
    (fun s hs => StreakKept.start hwf hg hpolicy hname hs) (fun s a t hs hst => ?_) h
  obtain ⟨⟨-, -, advance, hadv, hstate⟩, hseen⟩ := hst
  have hnext := (hs.advance hwf hg hpolicy hname hadv).1
  rw [← hstate, ← hseen] at hnext
  exact hnext

end Watching

/-- The stored count is the streak, and exactly on its threshold the run stops. -/
theorem progress_streak {host : DigestHost} {declaration : Json} {options : CompileOptions}
    {plan : CompiledPlan} (hplan : compileGraph host declaration options = .executable plan)
    {group : CompiledLoopGroup} (hg : group ∈ plan.loopGroups) {policy : CompiledProgressPolicy}
    (hpolicy : group.progress = some policy) (hname : group.id ≠ "__proto__") :
    (∀ watched, Reachable (WatchStarts plan) (Watches plan group policy) watched →
      StreakKept group policy watched) ∧
    ∀ watched decision context advance shown,
      Reachable (WatchStarts plan) (Watches plan group policy) watched →
      advanceOutcomeGraph plan watched.state decision context = .ok advance →
      recordedObservation plan group policy watched.state decision context = some shown →
      StreakReported group policy (watched.seen ++ [shown]) advance := by
  have hwf := compileGraph_wellFormed hplan
  refine ⟨fun watched hs => StreakKept.reachable hwf hg hpolicy hname hs, ?_⟩
  intro watched decision context advance shown hs hadv hrecorded
  have hkept := StreakKept.reachable hwf hg hpolicy hname hs
  exact (hkept.advance hwf hg hpolicy hname hadv).2 shown hrecorded

def revisionPolicy : CompiledProgressPolicy := ⟨"revision-token", 1, "rev", 1⟩

def watchedGroup (groupId : String) : CompiledLoopGroup :=
  ⟨groupId, ["A"], 3, "again", "done", some revisionPolicy⟩

def watchedTopology (groupId : String) : JoinTopology :=
  { countedTopology with loopGroups := [watchedGroup groupId] }

theorem watchedTopology_compiles :
    compileGraph (plainHost "r") (declareTopology "g" (watchedTopology "L")) plainOptions =
      .executable (plainPlan "g" "r" (watchedTopology "L")) := rfl

theorem progress_streak_watched :
    (∀ watched, Reachable (WatchStarts (plainPlan "g" "r" (watchedTopology "L")))
        (Watches (plainPlan "g" "r" (watchedTopology "L")) (watchedGroup "L") revisionPolicy)
        watched → StreakKept (watchedGroup "L") revisionPolicy watched) ∧
    ∀ watched decision context advance shown,
      Reachable (WatchStarts (plainPlan "g" "r" (watchedTopology "L")))
        (Watches (plainPlan "g" "r" (watchedTopology "L")) (watchedGroup "L") revisionPolicy)
        watched →
      advanceOutcomeGraph (plainPlan "g" "r" (watchedTopology "L")) watched.state decision
        context = .ok advance →
      recordedObservation (plainPlan "g" "r" (watchedTopology "L")) (watchedGroup "L")
        revisionPolicy watched.state decision context = some shown →
      StreakReported (watchedGroup "L") revisionPolicy (watched.seen ++ [shown]) advance :=
  progress_streak watchedTopology_compiles (mem_singleton.2 rfl) rfl (by decide)

def measuredContext (groupId attemptId : String) : AdvanceContext :=
  { plainContext with
    progress :=
      [{ binding :=
           { graphId := "g", attemptId := attemptId, submissionId := "s", planRevision := "r",
             proposalDigest := "p" }
         loopGroupId := groupId
         evaluator := "revision-token"
         version := 1
         subject := "rev"
         observation := .token "t" }] }

/-- A group named `__proto__` sees one revision twice, and is not reported stalled. -/
theorem protoGroup_unstalled :
    compileGraph (plainHost "r") (declareTopology "g" (watchedTopology "__proto__")) plainOptions =
      .executable (plainPlan "g" "r" (watchedTopology "__proto__")) ∧
    ¬ ∀ watched decision context advance shown,
      Reachable (WatchStarts (plainPlan "g" "r" (watchedTopology "__proto__")))
        (Watches (plainPlan "g" "r" (watchedTopology "__proto__")) (watchedGroup "__proto__")
          revisionPolicy) watched →
      advanceOutcomeGraph (plainPlan "g" "r" (watchedTopology "__proto__")) watched.state decision
        context = .ok advance →
      recordedObservation (plainPlan "g" "r" (watchedTopology "__proto__"))
        (watchedGroup "__proto__") revisionPolicy watched.state decision context = some shown →
      StreakReported (watchedGroup "__proto__") revisionPolicy (watched.seen ++ [shown])
        advance := by
  refine ⟨rfl, fun hlaw => ?_⟩
  have hsteps : ∃ start dispatches first second third,
      startOutcomeGraph (plainPlan "g" "r" (watchedTopology "__proto__")) plainContext 0 =
        .ok (start, dispatches) ∧
      advanceOutcomeGraph (plainPlan "g" "r" (watchedTopology "__proto__")) start
        (plainDecision "E" "E#1" "ok") plainContext = .ok first ∧
      advanceOutcomeGraph (plainPlan "g" "r" (watchedTopology "__proto__")) first.state
        (plainDecision "A" "A#2" "again") (measuredContext "__proto__" "A#2") = .ok second ∧
      advanceOutcomeGraph (plainPlan "g" "r" (watchedTopology "__proto__")) second.state
        (plainDecision "A" "A#3" "again") (measuredContext "__proto__" "A#3") = .ok third ∧
      recordedObservation (plainPlan "g" "r" (watchedTopology "__proto__"))
        (watchedGroup "__proto__") revisionPolicy start (plainDecision "E" "E#1" "ok")
        plainContext = none ∧
      recordedObservation (plainPlan "g" "r" (watchedTopology "__proto__"))
        (watchedGroup "__proto__") revisionPolicy first.state (plainDecision "A" "A#2" "again")
        (measuredContext "__proto__" "A#2") = some (some "t") ∧
      recordedObservation (plainPlan "g" "r" (watchedTopology "__proto__"))
        (watchedGroup "__proto__") revisionPolicy second.state (plainDecision "A" "A#3" "again")
        (measuredContext "__proto__" "A#3") = some (some "t") ∧
      third.state.stop = none :=
    ⟨_, _, _, _, _, rfl, rfl, rfl, rfl, rfl, rfl, rfl, rfl⟩
  obtain ⟨start, dispatches, first, second, third, hs, hfirst, hsecond, hthird, hnone, hone, htwo,
    hlive⟩ := hsteps
  have hstart : Reachable (WatchStarts (plainPlan "g" "r" (watchedTopology "__proto__")))
      (Watches (plainPlan "g" "r" (watchedTopology "__proto__")) (watchedGroup "__proto__")
        revisionPolicy) ⟨start, []⟩ :=
    .of_init ⟨⟨plainContext, 0, dispatches, trivial, hs⟩, rfl⟩
  have hfirst' := hstart.tail (a := ⟨plainDecision "E" "E#1" "ok", plainContext⟩)
    (t := ⟨first.state, []⟩) ⟨⟨trivial, rfl, first, hfirst, rfl⟩, by rw [hnone]; rfl⟩
  have hsecond' := hfirst'.tail
    (a := ⟨plainDecision "A" "A#2" "again", measuredContext "__proto__" "A#2"⟩)
    (t := ⟨second.state, [some "t"]⟩) ⟨⟨trivial, rfl, second, hsecond, rfl⟩, by rw [hone]; rfl⟩
  obtain ⟨stop, hstop⟩ := (hlaw _ _ _ _ _ hsecond' hthird htwo).stops rfl
  rw [hlive] at hstop
  cases hstop

end Rolebox.Graph
