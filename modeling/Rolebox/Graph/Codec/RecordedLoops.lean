import Rolebox.Graph.Codec.RecordedEntries
import Rolebox.Graph.Counters

/-! The counters and progress entries of a reachable state, in the terms the reader checks. -/

namespace Rolebox.Graph
open General List

section Counters
variable {plan : JoinTopology} {next next' loopTraversals : PlainObject CounterValue}
  {groups : List CompiledLoopGroup}

structure CountersRecorded (plan : JoinTopology) (loopTraversals : PlainObject CounterValue) :
    Prop where
  proto : loopTraversals.proto = none
  declared : ∀ key value, loopTraversals.own? key = some value →
    key ≠ "__proto__" ∧ key ∈ plan.loopGroups.map (·.id)
  capped : ∀ group ∈ plan.loopGroups, ∀ count,
    loopTraversals.own? group.id = some (.number count) → count ≤ group.maxTraversals

theorem CountersRecorded.proto_not_mem (h : CountersRecorded plan loopTraversals) :
    "__proto__" ∉ loopTraversals.keys := by
  intro hin
  obtain ⟨value, hvalue⟩ := Option.isSome_iff_exists.1 (PlainObject.mem_keys_iff.1 hin)
  exact (h.declared _ value hvalue).1 rfl

section

variable (hnodup : (plan.loopGroups.map (·.id)).Nodup)
include hnodup

theorem CountersRecorded.count
    (h : CountersRecorded plan next) {group : CompiledLoopGroup} (hg : group ∈ plan.loopGroups)
    {traversals : CounterValue} (hcap : ¬ traversals.exceeds group.maxTraversals = true) :
    CountersRecorded plan (next.setPrimitive group.id traversals) := by
  by_cases hproto : group.id = "__proto__"
  · rw [hproto, PlainObject.setPrimitive_proto _ h.proto_not_mem]
    exact h
  · have hown := fun key => PlainObject.own?_setPrimitive_of_ne (o := next) key traversals hproto
    refine ⟨(PlainObject.proto_setPrimitive ..).trans h.proto, fun key value hkey => ?_,
      fun other ho count hcount => ?_⟩
    · rw [hown] at hkey
      split at hkey
      · next heq => exact heq ▸ ⟨hproto, mem_map_of_mem hg⟩
      · exact h.declared key value hkey
    · rw [hown] at hcount
      split at hcount
      · next heq =>
        have hsame : other = group := inj_on_of_nodup_map hnodup ho hg heq
        cases hcount
        rw [hsame]
        simpa [CounterValue.exceeds] using hcap
      · exact h.capped other ho count hcount

theorem countTraversals_recorded
    (hsub : ∀ group ∈ groups, group ∈ plan.loopGroups) (h : CountersRecorded plan next)
    (hcount : countTraversals groups next = .ok next') : CountersRecorded plan next' := by
  induction groups generalizing next with
  | nil =>
    cases hcount
    exact h
  | cons group groups ih =>
    rw [countTraversals] at hcount
    split at hcount
    · cases hcount
    next hcap =>
    exact ih (fun g hg => hsub g (.tail _ hg))
      (h.count hnodup (hsub group (.head _)) hcap) hcount

omit hnodup in
theorem CountersRecorded.recorded (h : CountersRecorded plan loopTraversals)
    {group : CompiledLoopGroup} (hg : group ∈ plan.loopGroups) (hpos : 0 < group.maxTraversals)
    (hcap : capReached loopTraversals group = true) :
    recordedTraversals loopTraversals group.id = group.maxTraversals := by
  unfold capReached at hcap
  unfold recordedTraversals
  cases hget : loopTraversals.get group.id with
  | undefined =>
    rw [hget] at hcap
    simp only [CounterValue.increment, CounterValue.exceeds, decide_eq_true_eq] at hcap
    omega
  | inherited =>
    rw [hget] at hcap
    cases hcap
  | value value =>
    rw [hget] at hcap
    cases value with
    | text ones => cases hcap
    | number count =>
      have hle := h.capped group hg count (PlainObject.own?_of_get h.proto hget)
      simp only [CounterValue.increment, CounterValue.exceeds, decide_eq_true_eq] at hcap
      simp only
      omega

theorem countOutcome_recorded (hsub : ∀ group ∈ groups, group ∈ plan.loopGroups)
    (h : CountersRecorded plan loopTraversals) (decision : AcceptedDecision) (now : Nat) :
    CountersRecorded plan (countOutcome decision now groups loopTraversals).1 := by
  unfold countOutcome
  split
  · exact h
  split
  · next hcount =>
    rw [PlainObject.spread_eq_self h.proto] at hcount
    exact countTraversals_recorded hnodup hsub h hcount
  · exact h

end

theorem countOutcome_exhausted (hnodup : (groups.map (·.id)).Nodup)
    (h : CountersRecorded plan loopTraversals) {decision : AcceptedDecision} {now : Nat}
    {stop : OutcomeStop} (hstop : (countOutcome decision now groups loopTraversals).2 = some stop) :
    (countOutcome decision now groups loopTraversals).1 = loopTraversals ∧
      ∃ bound ∈ groups, capReached loopTraversals bound = true ∧
        stop = .loopExhausted
          { loopGroupId := bound.id
            nodeId := decision.nodeId
            outcomeId := decision.outcomeId
            attemptId := decision.identity.attemptId
            traversals := recordedTraversals loopTraversals bound.id
            maxTraversals := bound.maxTraversals
            stoppedAt := now } := by
  unfold countOutcome at hstop ⊢
  split at hstop
  · cases hstop
  next hne =>
  rw [if_neg hne]
  split at hstop
  · cases hstop
  next bound hcount =>
  cases hstop
  rw [PlainObject.spread_eq_self h.proto] at hcount
  obtain ⟨hmem, hcap⟩ := countTraversals_bound hnodup hcount
  exact ⟨rfl, bound, hmem, hcap, rfl⟩

end Counters

section Progress
variable {plan : JoinTopology} {entries loopProgress : PlainObject OutcomeLoopProgress}
  {group : CompiledLoopGroup} {policy : CompiledProgressPolicy}
variable {entry : OutcomeLoopProgress}

/-- No group that declares a policy is named `__proto__`. -/
def NamedPolicies (plan : JoinTopology) : Prop :=
  ∀ group ∈ plan.loopGroups, group.progress ≠ none → group.id ≠ "__proto__"

structure OutcomeLoopProgress.Tracks (policy : CompiledProgressPolicy) (groupId : String)
    (entry : OutcomeLoopProgress) : Prop where
  loopGroupId : entry.loopGroupId = groupId
  evaluator : entry.evaluator = policy.evaluator
  version : entry.version = policy.version
  subject : entry.subject = policy.subject
  unchanged : entry.unchanged ≤ policy.maxUnchanged
  baseline : ∀ token, entry.baseline = some token → IsToken token

structure ProgressDeclared (plan : JoinTopology) (entries : PlainObject OutcomeLoopProgress) :
    Prop where
  proto : entries.proto = none
  declared : ∀ key entry, entries.own? key = some entry → key ≠ "__proto__" ∧
    ∃ group ∈ plan.loopGroups, group.id = key ∧ ∃ policy,
      group.progress = some policy ∧ entry.Tracks policy key

def ProgressComplete (plan : JoinTopology) (entries : PlainObject OutcomeLoopProgress) : Prop :=
  ∀ group ∈ plan.loopGroups, group.progress ≠ none → entries.own? group.id ≠ none

def Unstalled (plan : JoinTopology) (entries : PlainObject OutcomeLoopProgress) : Prop :=
  ∀ group ∈ plan.loopGroups, ∀ policy, group.progress = some policy → ∀ entry,
    entries.own? group.id = some entry → entry.unchanged < policy.maxUnchanged

theorem ProgressDeclared.set (h : ProgressDeclared plan entries) (hg : group ∈ plan.loopGroups)
    (hname : group.id ≠ "__proto__") (hpolicy : group.progress = some policy)
    (hentry : entry.Tracks policy group.id) :
    ProgressDeclared plan (entries.set group.id entry) := by
  refine ⟨(PlainObject.proto_set_ne _ hname).trans h.proto, fun key other hkey => ?_⟩
  rw [PlainObject.own?_set_of_ne _ _ hname] at hkey
  split at hkey
  · next heq =>
    cases hkey
    exact heq ▸ ⟨hname, group, hg, rfl, policy, hpolicy, hentry⟩
  · exact h.declared key other hkey

theorem Unstalled.set (hnodup : (plan.loopGroups.map (·.id)).Nodup) (h : Unstalled plan entries)
    (hg : group ∈ plan.loopGroups) (hname : group.id ≠ "__proto__")
    (hpolicy : group.progress = some policy) (hentry : entry.unchanged < policy.maxUnchanged) :
    Unstalled plan (entries.set group.id entry) := by
  intro other ho policy' hpolicy' found hfound
  rw [PlainObject.own?_set_of_ne _ _ hname] at hfound
  split at hfound
  · next heq =>
    have hsame : other = group := inj_on_of_nodup_map hnodup ho hg heq
    subst hsame
    rw [hpolicy] at hpolicy'
    cases hpolicy'
    cases hfound
    exact hentry
  · exact h other ho policy' hpolicy' found hfound

theorem own?_set_ne_none {key : String} (hname : key ≠ "__proto__") {other : String}
    (h : other = key ∨ entries.own? other ≠ none) : (entries.set key entry).own? other ≠ none := by
  rw [PlainObject.own?_set_of_ne _ _ hname]
  split
  · exact Option.some_ne_none _
  · next hne => exact h.resolve_left hne

theorem startProgress_recorded {plan : CompiledPlan} (hwf : plan.WellFormed)
    (hnamed : NamedPolicies plan) :
    ProgressDeclared plan (startProgress plan) ∧ Unstalled plan (startProgress plan) ∧
      ProgressComplete plan (startProgress plan) := by
  have hfold : ∀ (groups : List CompiledLoopGroup) (entries : PlainObject OutcomeLoopProgress),
      (∀ group ∈ groups, group ∈ plan.loopGroups) →
      ProgressDeclared plan entries → Unstalled plan entries →
      let entries' := groups.foldl recordFresh entries
      ProgressDeclared plan entries' ∧ Unstalled plan entries' ∧
        ∀ key, (entries.own? key ≠ none ∨
          ∃ group ∈ groups, group.progress ≠ none ∧ group.id = key) → entries'.own? key ≠ none := by
    intro groups
    induction groups with
    | nil =>
      intro entries _ hdeclared hlow
      refine ⟨hdeclared, hlow, ?_⟩
      rintro key (hkey | ⟨group, hg, -⟩)
      · exact hkey
      · cases hg
    | cons group groups ih =>
      intro entries hsub hdeclared hlow
      have hg := hsub group (.head _)
      have hrest := fun g hg => hsub g (.tail _ hg)
      rw [foldl_cons, recordFresh]
      cases hpolicy : group.progress with
      | none =>
        obtain ⟨hd, hl, hc⟩ := ih entries hrest hdeclared hlow
        refine ⟨hd, hl, fun key hkey => hc key ?_⟩
        rcases hkey with hkey | ⟨other, ho, hp, hid⟩
        · exact .inl hkey
        · rcases mem_cons.1 ho with rfl | ho
          · exact absurd hpolicy hp
          · exact .inr ⟨other, ho, hp, hid⟩
      | some policy =>
        have hname := hnamed group hg (by simp [hpolicy])
        have hpos := (hwf.group_progress group hg policy hpolicy).2.2.2.2.1
        have hfresh : OutcomeLoopProgress.Tracks policy group.id (freshProgress group policy) :=
          ⟨rfl, rfl, rfl, rfl, Nat.zero_le _, by simp [freshProgress]⟩
        obtain ⟨hd, hl, hc⟩ := ih _ hrest (hdeclared.set hg hname hpolicy hfresh)
          (hlow.set hwf.groupIds_nodup hg hname hpolicy hpos)
        refine ⟨hd, hl, fun key hkey => hc key ?_⟩
        rcases hkey with hkey | ⟨other, ho, hp, hid⟩
        · exact .inl (own?_set_ne_none hname (.inr hkey))
        · rcases mem_cons.1 ho with rfl | ho
          · exact .inl (own?_set_ne_none hname (.inl hid.symm))
          · exact .inr ⟨other, ho, hp, hid⟩
  obtain ⟨hd, hl, hc⟩ := hfold plan.loopGroups .empty (fun _ hg => hg)
    ⟨rfl, fun _ _ hown => by cases hown⟩ (fun _ _ _ _ _ hown => by cases hown)
  exact ⟨hd, hl, fun group hg hp => hc group.id (.inr ⟨group, hg, hp, rfl⟩)⟩

end Progress

section Measuring
variable {plan : CompiledPlan} {decision : AcceptedDecision} {now : Nat}
  {recorded : PlainObject OutcomeLoopProgress} {projections : List ProgressProjection}

/-- The recorded entry of a group, one unchanged revision short of its threshold. -/
structure StalledAt (plan : CompiledPlan) (decision : AcceptedDecision) (now : Nat)
    (groups : List CompiledLoopGroup) (entries : PlainObject OutcomeLoopProgress)
    (stop : OutcomeProgressStalledStop) (group : CompiledLoopGroup)
    (policy : CompiledProgressPolicy) (entry : OutcomeLoopProgress) : Prop where
  mem : group ∈ groups
  declares : group.progress = some policy
  own : entries.own? group.id = some entry
  reached : entry.unchanged = policy.maxUnchanged
  baseline : entry.baseline = some stop.baseline
  states : stop =
    { loopGroupId := group.id
      nodeId := decision.nodeId
      outcomeId := decision.outcomeId
      attemptId := decision.identity.attemptId
      unchanged := entry.unchanged
      maxUnchanged := policy.maxUnchanged
      evaluator := entry.evaluator
      evaluatorVersion := entry.version
      subject := entry.subject
      baseline := stop.baseline
      stoppedAt := now }

structure MeasuredFrom (plan : CompiledPlan) (recorded : PlainObject OutcomeLoopProgress)
    (decision : AcceptedDecision) (projections : List ProgressProjection) (now : Nat)
    (groups : List CompiledLoopGroup) (measured : Measurement) : Prop where
  declared : ProgressDeclared plan measured.entries
  complete : ProgressComplete plan measured.entries
  unstalled : measured.stop = none → Unstalled plan measured.entries
  stopped : ∀ stop, measured.stop = some stop → ∃ group policy entry projection,
    recorded.own? group.id = some entry ∧
    boundProjection plan decision projections group = .ok projection ∧
    StalledAt plan decision now groups measured.entries stop group policy
      (compareProgress policy entry projection).entry

theorem boundProjection_mem {group : CompiledLoopGroup} {projection : ProgressProjection}
    (h : boundProjection plan decision projections group = .ok projection) :
    projection ∈ projections := by
  unfold boundProjection at h
  split at h
  · cases h
  next found hfound =>
  split at h
  · cases h
    exact mem_of_find?_eq_some hfound
  · cases h

theorem compareProgress_tracks {policy : CompiledProgressPolicy} {groupId : String}
    {entry : OutcomeLoopProgress} {projection : ProgressProjection}
    (h : entry.Tracks policy groupId) (hlow : entry.unchanged < policy.maxUnchanged)
    (hprojection : projection.WellFormed) :
    (compareProgress policy entry projection).entry.Tracks policy groupId := by
  obtain ⟨hgroup, hevaluator, hversion, hsubject⟩ :=
    compareProgress_identity policy entry projection
  have hle := compareProgress_unchanged_le policy entry projection
  refine ⟨hgroup.trans h.loopGroupId, hevaluator.trans h.evaluator, hversion.trans h.version,
    hsubject.trans h.subject, by omega, fun token htoken => ?_⟩
  rcases compareProgress_baseline policy entry projection with hsame | ⟨given, hgiven, htaken⟩
  · exact h.baseline token (hsame ▸ htoken)
  · rw [htaken] at htoken
    cases htoken
    exact hprojection token hgiven

theorem MeasuredFrom.group (hwf : plan.WellFormed) (hnamed : NamedPolicies plan)
    (hprojections : ∀ projection ∈ projections, projection.WellFormed)
    (hrecorded : ProgressDeclared plan recorded)
    (hlow : Unstalled plan recorded) {groups : List CompiledLoopGroup}
    (hsub : ∀ group ∈ groups, group ∈ plan.loopGroups) {measured measured' : Measurement}
    {group : CompiledLoopGroup} (hg : group ∈ groups)
    (h : MeasuredFrom plan recorded decision projections now groups measured)
    (hstep : measureGroup plan recorded decision projections now measured group = .ok measured') :
    MeasuredFrom plan recorded decision projections now groups measured' := by
  unfold measureGroup at hstep
  cases hpolicy : group.progress with
  | none =>
    rw [hpolicy] at hstep
    cases hstep
    exact h
  | some policy =>
  rw [hpolicy] at hstep
  simp only at hstep
  have hgroup := hsub group hg
  have hname := hnamed group hgroup (by simp [hpolicy])
  obtain ⟨-, -, -, -, hpos, -⟩ := hwf.group_progress group hgroup policy hpolicy
  cases hget : recorded.get group.id with
  | undefined =>
    rw [hget] at hstep
    cases hstep
  | inherited =>
    rw [hget] at hstep
    obtain ⟨_, -, hrest⟩ := bind_eq_ok.1 hstep
    cases hrest
    exact ⟨h.declared, h.complete, h.unstalled, h.stopped⟩
  | value entry =>
  rw [hget] at hstep
  obtain ⟨projection, hprojection, hrest⟩ := bind_eq_ok.1 hstep
  obtain ⟨stop, hstop, hrest⟩ := bind_eq_ok.1 hrest
  cases hrest
  have hown := PlainObject.own?_of_get hrecorded.proto hget
  have hbelow := hlow group hgroup policy hpolicy entry hown
  obtain ⟨-, owner, howner, hid, policy', hpolicy', htracks⟩ := hrecorded.declared _ _ hown
  have hsame : owner = group := inj_on_of_nodup_map hwf.groupIds_nodup howner hgroup hid
  subst hsame
  rw [hpolicy] at hpolicy'
  cases hpolicy'
  have hafter := compareProgress_tracks htracks hbelow
    (hprojections projection (boundProjection_mem hprojection))
  unfold stalledStop at hstop
  refine ⟨h.declared.set hgroup hname hpolicy hafter, fun other ho hp => ?_, fun hnone => ?_,
    fun recordedStop hrecordedStop => ?_⟩
  · exact own?_set_ne_none hname (.inr (h.complete other ho hp))
  · simp only at hnone
    subst hnone
    split at hstop
    · next hkeep =>
      have hkept : measured.stop = none := Except.ok.inj hstop
      rcases hkeep with hno | hsome
      · exact (h.unstalled hkept).set hwf.groupIds_nodup hgroup hname hpolicy
          (compareProgress_unchanged_lt hpos hno)
      · rw [hkept] at hsome
        cases hsome
    · split at hstop <;> cases hstop
  · simp only at hrecordedStop
    subst hrecordedStop
    split at hstop
    · -- the stop of an earlier group is kept, and its entry with it
      obtain ⟨first, firstPolicy, firstEntry, firstProjection, hfirst, hbound, hstalled⟩ :=
        h.stopped recordedStop (Except.ok.inj hstop)
      refine ⟨first, firstPolicy, firstEntry, firstProjection, hfirst, hbound,
        { hstalled with own := ?_ }⟩
      rw [PlainObject.own?_set_of_ne _ _ hname]
      split
      · next heq =>
        have hsame : first = owner :=
          inj_on_of_nodup_map hwf.groupIds_nodup (hsub first hstalled.mem) hgroup heq
        subst hsame
        have hp := hstalled.declares
        rw [hpolicy] at hp
        cases hp
        rw [hown] at hfirst
        cases hfirst
        rw [hprojection] at hbound
        cases hbound
        rfl
      · exact hstalled.own
    · next hkeep =>
      obtain ⟨hstalled, -⟩ := not_or.1 hkeep
      rw [Bool.not_eq_false] at hstalled
      obtain ⟨baseline, hbaseline, hentry, hreached⟩ := compareProgress_stalled hstalled
      split at hstop
      · cases hstop
      next token htoken =>
      cases hstop
      refine ⟨owner, policy, entry, projection, hown, hprojection,
        ⟨hg, hpolicy, ?_, ?_, htoken, rfl⟩⟩
      · rw [PlainObject.own?_set_of_ne _ _ hname, if_pos rfl]
      · rw [hentry]
        simp only
        omega

theorem measureProgress_recorded (hwf : plan.WellFormed) (hnamed : NamedPolicies plan)
    (hprojections : ∀ projection ∈ projections, projection.WellFormed)
    (hrecorded : ProgressDeclared plan recorded) (hcomplete : ProgressComplete plan recorded)
    (hlow : Unstalled plan recorded) {groups : List CompiledLoopGroup}
    (hsub : ∀ group ∈ groups, group ∈ plan.loopGroups) {measured : Measurement}
    (h : measureProgress plan groups recorded decision projections now = .ok measured) :
    MeasuredFrom plan recorded decision projections now groups measured := by
  refine foldlM_invariant
    (I := MeasuredFrom plan recorded decision projections now groups)
    (fun m group m' hg hm hstep =>
      hm.group hwf hnamed hprojections hrecorded hlow hsub hg hstep) h ?_
  rw [PlainObject.spread_eq_self hrecorded.proto]
  exact ⟨hrecorded, hcomplete, fun _ => hlow, fun _ hstop => by cases hstop⟩

end Measuring

end Rolebox.Graph
