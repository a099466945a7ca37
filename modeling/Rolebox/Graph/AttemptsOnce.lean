import Rolebox.General.Separated
import Rolebox.Graph.BoundedRepetition

/-! No attempt of a run settles twice, and no two attempts of a run have one id. -/

namespace Rolebox.Graph
open General List

/-- A node's id may hold the separator; the number after the last one holds none. -/
theorem attemptId_inj {nodeId nodeId' : String} {seq seq' : Nat}
    (h : nodeId ++ "#" ++ toString seq = nodeId' ++ "#" ++ toString seq') :
    nodeId = nodeId' ∧ seq = seq' := by
  have hdigits : ∀ n : Nat, '#' ∉ (Nat.repr n).toList.reverse := by
    intro n hmem
    rw [mem_reverse, Nat.toList_repr] at hmem
    exact absurd (Nat.isDigit_of_mem_toDigits (by decide) (by decide) hmem) (by decide)
  have htext := congrArg (fun t : String => t.toList.reverse) h
  simp only [String.toList_append, reverse_append] at htext
  obtain ⟨hseq, hnode⟩ := joinAt_inj (hdigits seq) (hdigits seq') htext
  have hsame : Nat.toDigits 10 seq = Nat.toDigits 10 seq' := by
    rw [← Nat.toList_repr, ← Nat.toList_repr]
    exact reverse_injective hseq
  refine ⟨String.toList_injective (reverse_injective hnode), ?_⟩
  rw [← @Nat.ofDigitChars_ten_toDigits seq, hsame, Nat.ofDigitChars_ten_toDigits]

/-- What the attempts submitted so far in a run leave of its state. -/
structure AttemptsOnce (state : OutcomeGraphState) (submitted : List String) : Prop where
  nodup : submitted.Nodup
  past : ∀ id ∈ submitted, ∃ nodeId seq, id = nodeId ++ "#" ++ toString seq ∧
    seq ≤ state.attemptSeq
  recorded : ∀ entry ∈ state.nodes, ∀ id ∈ entry.attemptId?, ∃ seq ≤ state.attemptSeq,
    id = entry.nodeId ++ "#" ++ toString seq
  live : ∀ entry ∈ state.nodes, ∀ facts, entry.progress = .dispatched facts →
    facts.attemptId ∉ submitted
  settled : ∀ entry ∈ state.nodes, ∀ facts outcomeId settledAt,
    entry.progress = .settled facts outcomeId settledAt → facts.attemptId ∈ submitted

section
variable {plan : CompiledPlan} {admissible : AdvanceContext → Prop}
  {state state' started : OutcomeGraphState} {submitted : List String}

theorem AttemptsOnce.start (h : Starts admissible plan state) : AttemptsOnce state [] := by
  obtain ⟨context, fromAttemptSeq, dispatches, -, hstart⟩ := h
  obtain ⟨-, -, hall, -⟩ := start_entries hstart
  refine ⟨.nil, by simp, ?_, fun _ _ _ _ => not_mem_nil, ?_⟩
  · intro entry hentry id hid
    obtain ⟨node, -, hs⟩ := forall₂_exists_left hall hentry
    rcases hs.progress with ⟨-, facts, hf, hfresh⟩ | ⟨-, hp⟩
    · rw [OutcomeNodeState.attemptId?, hf] at hid
      cases hid
      exact ⟨facts.attemptSeq, hfresh.le_hi, hs.nodeId ▸ hfresh.attemptId⟩
    · rw [OutcomeNodeState.attemptId?, hp] at hid
      cases hid
  · intro entry hentry facts outcomeId settledAt hsettled
    obtain ⟨node, -, hs⟩ := forall₂_exists_left hall hentry
    rcases hs.progress with ⟨-, _, hf, -⟩ | ⟨-, hp⟩
    · cases hsettled.symm.trans hf
    · cases hsettled.symm.trans hp

theorem AttemptsOnce.advance (hnodup : plan.nodeIds.Nodup) (hinv : StateInvariant plan state)
    (hs : AttemptsOnce state submitted) {submission : Submission}
    (h : Advances admissible plan state submission state') :
    AttemptsOnce state' (submitted ++ [submission.decision.identity.attemptId]) := by
  obtain ⟨-, -, advance, hadv, rfl⟩ := h
  obtain ⟨position, current, facts, routed, hd, -, hclose, hle, hstep⟩ :=
    advance_entries hnodup hinv.aligned hinv.named hadv
  obtain ⟨-, -, -, hc, hid, hf, hattempt⟩ := dispatchedEntry_ok.1 hd
  have hcurrent : current ∈ state.nodes := mem_of_getElem? hc
  have hseq : advance.state.attemptSeq = routed.attemptSeq := by
    rw [hclose]
    rfl
  obtain ⟨seq, hbound, hname⟩ := hs.recorded current hcurrent facts.attemptId (by
    rw [OutcomeNodeState.attemptId?, hf]
    rfl)
  rw [← hattempt]
  have hpast : ∀ id ∈ submitted ++ [facts.attemptId], ∃ nodeId seq,
      id = nodeId ++ "#" ++ toString seq ∧ seq ≤ state.attemptSeq := by
    intro id hmem
    rcases mem_append.1 hmem with hold | hnew
    · exact hs.past id hold
    · exact ⟨current.nodeId, seq, (mem_singleton.1 hnew).trans hname, hbound⟩
  refine ⟨?_, fun id hmem => ?_, fun entry hentry id hmem => ?_, fun entry hentry fresh hfresh => ?_,
    fun entry hentry was outcomeId settledAt hsettled => ?_⟩
  · rw [(perm_append_singleton _ _).nodup_iff]
    exact nodup_cons.2 ⟨hs.live current hcurrent facts hf, hs.nodup⟩
  · obtain ⟨nodeId, n, htext, hn⟩ := hpast id hmem
    exact ⟨nodeId, n, htext, hn.trans (hseq ▸ hle)⟩
  · obtain ⟨before, hbefore, hone⟩ := forall₂_exists_left hstep hentry
    rw [hone.nodeId, hseq]
    have hkept : id ∈ before.attemptId? → ∃ n ≤ routed.attemptSeq,
        id = before.nodeId ++ "#" ++ toString n := by
      intro hold
      obtain ⟨n, hn, htext⟩ := hs.recorded before hbefore id hold
      exact ⟨n, hn.trans hle, htext⟩
    rcases hone.progress with ⟨-, hp⟩ | ⟨hsame, hp⟩ | ⟨-, fresh, hp, hdispatch⟩
    · rw [OutcomeNodeState.attemptId?, hp] at hmem
      exact hkept hmem
    · rw [OutcomeNodeState.attemptId?, hp] at hmem
      cases hmem
      exact ⟨seq, hbound.trans hle, by rw [hname, hsame, hid]⟩
    · rw [OutcomeNodeState.attemptId?, hp] at hmem
      cases hmem
      exact ⟨fresh.attemptSeq, hdispatch.le_hi, hdispatch.attemptId⟩
  · obtain ⟨before, hbefore, hone⟩ := forall₂_exists_left hstep hentry
    intro hmem
    rcases hone.progress with ⟨hne, hp⟩ | ⟨-, hp⟩ | ⟨-, facts', hp, hdispatch⟩
    · rcases mem_append.1 hmem with hold | hnew
      · exact hs.live before hbefore fresh (hp ▸ hfresh) hold
      · obtain ⟨n, -, htext⟩ := hs.recorded before hbefore fresh.attemptId (by
          rw [OutcomeNodeState.attemptId?, ← hp, hfresh]
          rfl)
        rw [htext, hname, mem_singleton] at hnew
        exact hne ((attemptId_inj hnew).1.trans hid)
    · cases hfresh.symm.trans hp
    · -- a number drawn in this advance is above every number drawn before it
      cases hfresh.symm.trans hp
      obtain ⟨nodeId, n, htext, hn⟩ := hpast _ hmem
      have hsame := (attemptId_inj (hdispatch.attemptId.symm.trans htext)).2
      exact absurd hdispatch.lo_lt (by omega)
  · obtain ⟨before, hbefore, hone⟩ := forall₂_exists_left hstep hentry
    rcases hone.progress with ⟨-, hp⟩ | ⟨-, hp⟩ | ⟨-, fresh, hp, -⟩
    · exact mem_append_left _ (hs.settled before hbefore was _ _ (hp ▸ hsettled))
    · cases hsettled.symm.trans hp
      exact mem_append_right _ (.head _)
    · cases hsettled.symm.trans hp

/-- In every run from a start each submission settles another attempt, which is then neither in
flight nor given out again, and what the state records as settled is what was submitted. -/
theorem attempts_settle_once (hnodup : plan.nodeIds.Nodup) (hstart : Starts admissible plan started)
    {submissions : List Submission} (hrun : Run (Advances admissible plan) started submissions state) :
    AttemptsOnce state (submissions.map (·.decision.identity.attemptId)) ∧
      (state.nodes.filterMap (·.attemptId?)).Nodup := by
  have honce : StateInvariant plan state ∧
      AttemptsOnce state (submissions.map (·.decision.identity.attemptId)) := by
    refine hrun.history_invariant (I := fun submissions state => StateInvariant plan state ∧
      AttemptsOnce state (submissions.map (·.decision.identity.attemptId))) ?_
      ⟨hstart.invariant, .start hstart⟩
    rintro before middle submission after - ⟨hinv, hs⟩ hadvance
    refine ⟨hinv.advance hnodup hadvance, ?_⟩
    rw [map_append, map_singleton]
    exact hs.advance hnodup hinv hadvance
  refine ⟨honce.2, ?_⟩
  have hnodes : (state.nodes.map (·.nodeId)).Nodup := honce.1.aligned ▸ hnodup
  rw [Nodup, pairwise_filterMap]
  refine (pairwise_map.1 hnodes).imp_of_mem fun {a b} ha hb hne id hid id' hid' hsame => hne ?_
  obtain ⟨seq, -, rfl⟩ := honce.2.recorded a ha id hid
  obtain ⟨seq', -, rfl⟩ := honce.2.recorded b hb id' hid'
  exact (attemptId_inj hsame).1

end

theorem attempts_settle_once_counted : ∃ submissions : List Submission,
    AttemptsOnce countedState (submissions.map (·.decision.identity.attemptId)) ∧
      (countedState.nodes.filterMap (·.attemptId?)).Nodup := by
  obtain ⟨started, submissions, hstart, hrun⟩ := countedState_reachable
  exact ⟨submissions, attempts_settle_once (by decide) hstart hrun⟩

end Rolebox.Graph
