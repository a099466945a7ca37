import Rolebox.Graph.Runs

/-! The traversal counters of the loop groups along a run. -/

namespace Rolebox.Graph
open General List

def traversalsOf (loopTraversals : PlainObject CounterValue) (groupId : String) : Nat :=
  match loopTraversals.own? groupId with
  | some (.number n) => n
  | _ => 0

def Numeric (loopTraversals : PlainObject CounterValue) (groupId : String) : Prop :=
  ∀ value, loopTraversals.own? groupId = some value → ∃ n, value = .number n

def CountersBounded (plan : JoinTopology) (loopTraversals : PlainObject CounterValue) : Prop :=
  ∀ group ∈ plan.loopGroups, Numeric loopTraversals group.id ∧
    traversalsOf loopTraversals group.id ≤ group.maxTraversals

def OrdinaryGroupIds (plan : JoinTopology) : Prop :=
  ∀ group ∈ plan.loopGroups, group.id ∉ prototypeNames

instance (plan : JoinTopology) : Decidable (OrdinaryGroupIds plan) :=
  inferInstanceAs (Decidable (∀ group ∈ plan.loopGroups, group.id ∉ prototypeNames))

section
variable {next next' : PlainObject CounterValue} {groups : List CompiledLoopGroup}
variable {groupId : String}

section

variable (hord : groupId ∉ prototypeNames)
include hord

theorem increment_numeric (hnum : Numeric next groupId) :
    CounterValue.increment (next.get groupId) = .number (traversalsOf next groupId + 1) := by
  rw [PlainObject.get_of_ordinary hord]
  unfold traversalsOf
  cases hown : next.own? groupId with
  | none => rfl
  | some value =>
    obtain ⟨n, rfl⟩ := hnum value hown
    rfl

theorem traversalsOf_setPrimitive (n : Nat) (j : String) :
    traversalsOf (next.setPrimitive groupId (.number n)) j =
      if j = groupId then n else traversalsOf next j := by
  unfold traversalsOf
  rw [PlainObject.own?_setPrimitive _ _ hord]
  by_cases hj : j = groupId
  · rw [if_pos hj, if_pos hj]
  · rw [if_neg hj, if_neg hj]

theorem Numeric.setPrimitive {j : String} (n : Nat)
    (h : Numeric next j) : Numeric (next.setPrimitive groupId (.number n)) j := by
  intro value hv
  rw [PlainObject.own?_setPrimitive _ _ hord] at hv
  split at hv
  · exact ⟨n, (Option.some.inj hv).symm⟩
  · exact h value hv

end

theorem countTraversals_ok (hord : ∀ group ∈ groups, group.id ∉ prototypeNames)
    (hnodup : (groups.map (·.id)).Nodup) (hnum : ∀ group ∈ groups, Numeric next group.id)
    (h : countTraversals groups next = .ok next') :
    (∀ groupId, traversalsOf next' groupId =
      traversalsOf next groupId + if groupId ∈ groups.map (·.id) then 1 else 0) ∧
    (∀ groupId, Numeric next groupId → Numeric next' groupId) ∧
    (∀ groupId ∉ groups.map (·.id), next'.own? groupId = next.own? groupId) ∧
    next'.proto = next.proto ∧
    ∀ group ∈ groups, traversalsOf next group.id + 1 ≤ group.maxTraversals := by
  induction groups generalizing next with
  | nil =>
    cases h
    exact ⟨by simp, fun _ hn => hn, fun _ _ => rfl, rfl, by simp⟩
  | cons group groups ih =>
    have ho := hord group (.head _)
    obtain ⟨hnot, hrest⟩ := nodup_cons.1 hnodup
    rw [countTraversals, increment_numeric ho (hnum group (.head _))] at h
    simp only [CounterValue.exceeds, decide_eq_true_eq] at h
    split at h
    · cases h
    next hcap =>
    have hne : ∀ other ∈ groups, other.id ≠ group.id := fun other hm heq =>
      hnot (mem_map.2 ⟨other, hm, heq⟩)
    obtain ⟨hcount, hkeep, hown, hproto, hbound⟩ :=
      ih (fun g hg => hord g (.tail _ hg)) hrest
        (fun g hg => (hnum g (.tail _ hg)).setPrimitive ho _) h
    refine ⟨fun groupId => ?_, fun groupId hn => hkeep groupId (hn.setPrimitive ho _),
      fun groupId hm => ?_, ?_, fun g hg => ?_⟩
    · rw [hcount, traversalsOf_setPrimitive ho]
      by_cases hid : groupId = group.id
      · subst hid
        have hmem : group.id ∈ (group :: groups).map (·.id) := by simp
        rw [if_pos rfl, if_neg hnot, if_pos hmem]
      · simp [hid]
    · rw [map_cons, mem_cons, not_or] at hm
      rw [hown groupId hm.2, PlainObject.own?_setPrimitive _ _ ho, if_neg hm.1]
    · rw [hproto, (PlainObject.setPrimitive_ordinary _ ho).2]
    · rcases mem_cons.1 hg with rfl | hg
      · omega
      · have := hbound g hg
        rwa [traversalsOf_setPrimitive ho, if_neg (hne g hg)] at this

def capReached (loopTraversals : PlainObject CounterValue) (group : CompiledLoopGroup) : Bool :=
  (CounterValue.increment (loopTraversals.get group.id)).exceeds group.maxTraversals

theorem capReached_setPrimitive {group : CompiledLoopGroup} {groupId : String}
    (value : CounterValue) (h : group.id ≠ groupId) :
    capReached (next.setPrimitive groupId value) group = capReached next group := by
  unfold capReached
  rw [PlainObject.get_setPrimitive_ne value h]

theorem countTraversals_bound (hnodup : (groups.map (·.id)).Nodup) {bound : CompiledLoopGroup}
    (h : countTraversals groups next = .error bound) :
    bound ∈ groups ∧ capReached next bound = true := by
  induction groups generalizing next with
  | nil => cases h
  | cons group groups ih =>
    obtain ⟨hnot, hrest⟩ := nodup_cons.1 hnodup
    rw [countTraversals] at h
    split at h
    · next hcap =>
      cases h
      exact ⟨.head _, hcap⟩
    · obtain ⟨hm, hreached⟩ := ih hrest h
      have hother : bound.id ≠ group.id := fun heq => hnot (mem_map.2 ⟨bound, hm, heq⟩)
      exact ⟨mem_cons_of_mem _ hm, by rwa [capReached_setPrimitive _ hother] at hreached⟩

theorem countTraversals_refused (hnodup : (groups.map (·.id)).Nodup) :
    (∃ bound, countTraversals groups next = .error bound) ↔
      ∃ group ∈ groups, capReached next group = true := by
  refine ⟨fun ⟨bound, h⟩ => ⟨bound, countTraversals_bound hnodup h⟩, ?_⟩
  rintro ⟨other, ho, hreached⟩
  induction groups generalizing next with
  | nil => exact absurd ho not_mem_nil
  | cons group groups ih =>
    obtain ⟨hnot, hrest⟩ := nodup_cons.1 hnodup
    rw [countTraversals]
    split
    · exact ⟨group, rfl⟩
    · next hcap =>
      rcases mem_cons.1 ho with rfl | hin
      · exact absurd hreached hcap
      · have hother : other.id ≠ group.id := fun heq => hnot (mem_map.2 ⟨other, hin, heq⟩)
        exact ih hrest hin (by rwa [capReached_setPrimitive _ hother])

theorem countTraversals_error (hord : ∀ group ∈ groups, group.id ∉ prototypeNames)
    (hnodup : (groups.map (·.id)).Nodup) (hnum : ∀ group ∈ groups, Numeric next group.id)
    {bound : CompiledLoopGroup} (h : countTraversals groups next = .error bound) :
    bound ∈ groups ∧ bound.maxTraversals ≤ traversalsOf next bound.id := by
  obtain ⟨hm, hreached⟩ := countTraversals_bound hnodup h
  rw [capReached, increment_numeric (hord bound hm) (hnum bound hm)] at hreached
  simp only [CounterValue.exceeds, decide_eq_true_eq] at hreached
  exact ⟨hm, by omega⟩

theorem countTraversals_proto
    (h : countTraversals groups next = .ok next') : next'.proto = next.proto := by
  induction groups generalizing next with
  | nil =>
    cases h
    rfl
  | cons group groups ih =>
    rw [countTraversals] at h
    split at h
    · cases h
    · rw [ih h, PlainObject.proto_setPrimitive]

end

section
variable {plan : JoinTopology} {loopTraversals : PlainObject CounterValue}
  {decision : AcceptedDecision} {now : Nat}

theorem continuationGroups_sublist (nodeId outcomeId : String) :
    (continuationGroups plan nodeId outcomeId).Sublist plan.loopGroups :=
  filter_sublist

theorem OrdinaryGroupIds.continuation (hord : OrdinaryGroupIds plan) (nodeId outcomeId : String) :
    ∀ group ∈ continuationGroups plan nodeId outcomeId, group.id ∉ prototypeNames :=
  fun group hg => hord group ((continuationGroups_sublist _ _).subset hg)

/-- Each continuation group of an outcome moves one round on, or one on its cap stops the run. -/
theorem countOutcome_spec (decision : AcceptedDecision) (now : Nat)
    (hord : ∀ group ∈ continuationGroups plan decision.nodeId decision.outcomeId,
      group.id ∉ prototypeNames)
    (hnodup : (plan.loopGroups.map (·.id)).Nodup) (hb : CountersBounded plan loopTraversals) :
    let groups := continuationGroups plan decision.nodeId decision.outcomeId
    let counted := countOutcome decision now groups loopTraversals
    (counted.2 = none ∧
      (∀ groupId, traversalsOf counted.1 groupId = traversalsOf loopTraversals groupId +
        if groupId ∈ groups.map (·.id) then 1 else 0) ∧
      CountersBounded plan counted.1) ∨
    (counted.1 = loopTraversals ∧ ∃ bound ∈ groups,
      traversalsOf loopTraversals bound.id = bound.maxTraversals ∧
      counted.2 = some (.loopExhausted
        { loopGroupId := bound.id
          nodeId := decision.nodeId
          outcomeId := decision.outcomeId
          attemptId := decision.identity.attemptId
          traversals := bound.maxTraversals
          maxTraversals := bound.maxTraversals
          stoppedAt := now })) := by
  intro groups counted
  have hsub : ∀ group ∈ groups, group ∈ plan.loopGroups := fun group hg =>
    (continuationGroups_sublist _ _).subset hg
  have hnodup' : (groups.map (·.id)).Nodup := ((continuationGroups_sublist _ _).map _).nodup hnodup
  have hnum : ∀ group ∈ groups, Numeric loopTraversals.spread group.id := fun g hg =>
    (hb g (hsub g hg)).1
  by_cases hnil : groups = []
  · left
    have hc : counted = (loopTraversals, none) := by
      change countOutcome decision now groups loopTraversals = _
      rw [countOutcome, if_pos hnil]
    rw [hc, hnil]
    exact ⟨rfl, by simp, hb⟩
  · cases hcount : countTraversals groups loopTraversals.spread with
    | ok next =>
      left
      have hc : counted = (next, none) := by
        change countOutcome decision now groups loopTraversals = _
        rw [countOutcome, if_neg hnil, hcount]
      obtain ⟨hplus, hkeep, -, -, hcap⟩ := countTraversals_ok hord hnodup' hnum hcount
      rw [hc]
      refine ⟨rfl, hplus, fun group hg => ⟨hkeep _ (hb group hg).1, ?_⟩⟩
      rw [hplus]
      split
      · next hm =>
        obtain ⟨other, hother, hid⟩ := mem_map.1 hm
        have heq : other = group := inj_on_of_nodup_map hnodup (hsub other hother) hg hid
        exact hcap group (heq ▸ hother)
      · exact (hb group hg).2
    | error bound =>
      right
      obtain ⟨hm, hle⟩ := countTraversals_error hord hnodup' hnum hcount
      have heq : traversalsOf loopTraversals bound.id = bound.maxTraversals :=
        le_antisymm (hb bound (hsub bound hm)).2 hle
      have hrec : recordedTraversals loopTraversals bound.id = bound.maxTraversals := by
        rw [← heq]
        unfold recordedTraversals traversalsOf
        rw [PlainObject.get_of_ordinary (hord bound hm)]
        cases hown : loopTraversals.own? bound.id with
        | none => rfl
        | some value =>
          obtain ⟨n, rfl⟩ := (hb bound (hsub bound hm)).1 value hown
          rfl
      have hc : counted = (loopTraversals, some (.loopExhausted
          { loopGroupId := bound.id
            nodeId := decision.nodeId
            outcomeId := decision.outcomeId
            attemptId := decision.identity.attemptId
            traversals := recordedTraversals loopTraversals bound.id
            maxTraversals := bound.maxTraversals
            stoppedAt := now })) := by
        change countOutcome decision now groups loopTraversals = _
        rw [countOutcome, if_neg hnil, hcount]
      rw [hc, hrec]
      exact ⟨rfl, bound, hm, heq, rfl⟩

end

section Counting
variable {groups : List CompiledLoopGroup}

theorem countOutcome_stops (decision : AcceptedDecision) (now : Nat)
    {loopTraversals : PlainObject CounterValue} (hnodup : (groups.map (·.id)).Nodup)
    (hproto : loopTraversals.proto = none) :
    (countOutcome decision now groups loopTraversals).2.isSome ↔
      ∃ group ∈ groups, capReached loopTraversals group = true := by
  unfold countOutcome
  by_cases hempty : groups = []
  · simp [hempty]
  · rw [if_neg hempty, PlainObject.spread_eq_self hproto, ← countTraversals_refused hnodup]
    cases countTraversals groups loopTraversals <;> simp

theorem countOutcome_proto {decision : AcceptedDecision} {now : Nat}
    {loopTraversals : PlainObject CounterValue} (hproto : loopTraversals.proto = none) :
    (countOutcome decision now groups loopTraversals).1.proto = none := by
  unfold countOutcome
  split
  · exact hproto
  split
  · next hcount =>
    rw [countTraversals_proto hcount]
    rfl
  · exact hproto

end Counting

end Rolebox.Graph
