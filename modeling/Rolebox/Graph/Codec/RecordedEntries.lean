import Rolebox.Graph.Codec.Records
import Rolebox.Graph.Runs

/-! The node entries and arrivals of a reachable state, in the terms the reader checks. -/

namespace Rolebox.Graph
open General List

/-- A projection whose token is within the bound of a recorded baseline. -/
def ProgressProjection.WellFormed (projection : ProgressProjection) : Prop :=
  ∀ token, projection.observation = .token token → IsToken token

/-- What the callers promise: an epoch clock, digests, an identity and accepted results. -/
structure WellFormedContext (context : AdvanceContext) : Prop where
  now : context.now ≤ maxSafeInteger
  digest : ∀ credential,
    isAttemptCredentialDigest (context.credentials.attemptCredentialDigest credential) = true
  identity : ∀ identity, context.dispatchIdentity = some identity → identity.WellFormed
  accepted : ∀ attemptId facts, readAcceptedOf context attemptId = .facts facts →
    ∀ artifact ∈ facts.artifacts, artifact.WellFormed
  projections : ∀ projection ∈ context.progress, projection.WellFormed

section Assembled
variable {plan : CompiledPlan} {context : AdvanceContext} {nodeId : String}

theorem AssembledFor.resolved (hwf : plan.WellFormed) (hc : WellFormedContext context)
    {entries : List ResolvedInput} (h : AssembledFor plan context nodeId (.resolved entries)) :
    ∀ entry ∈ entries, entry.WellFormed := by
  obtain ⟨node, hnode, -, settledOf, arrivals, hsettled, harrivals, hassembled⟩ := h
  intro entry hentry
  obtain ⟨input, hinput, hread⟩ := assembleDownstreamInput_resolved hassembled.symm hentry
  obtain ⟨hfrom, houtcome, hattempt, facts, hfacts, hartifacts⟩ := readInput_entry hread
  obtain ⟨hne, hone⟩ := hwf.input_nonempty node hnode input hinput
  refine ⟨hfrom ▸ hne, houtcome ▸ hone, ?_, ?_⟩
  · intro hempty
    rcases hattempt with hs | ⟨arrival, harrival, hid⟩
    · exact hsettled input.from (hempty ▸ hs)
    · exact harrivals arrival harrival (hid.trans hempty)
  · intro artifact hartifact
    rw [hartifacts] at hartifact
    exact hc.accepted _ _ hfacts artifact hartifact

theorem AssembledFor.blocked (hwf : plan.WellFormed) {refusals : List DownstreamInputRefusal}
    (h : AssembledFor plan context nodeId (.blocked refusals)) :
    ∀ refusal ∈ refusals, refusal.WellFormed := by
  obtain ⟨node, hnode, -, settledOf, arrivals, -, -, hassembled⟩ := h
  intro refusal hrefusal
  obtain ⟨input, hinput, hread⟩ := assembleDownstreamInput_blocked hassembled.symm hrefusal
  obtain ⟨hfrom, houtcome, hmessage⟩ := readInput_refused hread
  obtain ⟨hne, hone⟩ := hwf.input_nonempty node hnode input hinput
  exact ⟨hfrom ▸ hne, houtcome ▸ hone, hmessage⟩

theorem FreshDispatch.readable (hwf : plan.WellFormed) (hc : WellFormedContext context)
    {lo hi : Nat} {facts : DispatchFacts}
    (h : FreshDispatch plan context lo hi nodeId facts) : facts.Readable hi := by
  obtain ⟨credential, hdigest⟩ := h.digest
  obtain ⟨entries, hentries, hassembled⟩ := h.inputs
  refine
    { attemptId := h.attemptId_ne
      attemptSeq := ⟨Nat.zero_lt_of_lt h.lo_lt, h.le_hi⟩
      digest := hdigest ▸ hc.digest credential
      identity := fun identity hi => hc.identity identity (h.identity ▸ hi)
      dispatchedAt := h.dispatchedAt ▸ hc.now
      inputs := fun inputs hinputs => ?_ }
  rw [hentries] at hinputs
  cases hinputs
  exact hassembled.resolved hwf hc

end Assembled

def EntriesReadable (bound : Nat) (nodes : List OutcomeNodeState) : Prop :=
  ∀ entry ∈ nodes, entry.progress.Readable bound ∧
    ∀ refusals, entry.inputRefusals = some refusals → ∀ refusal ∈ refusals, refusal.WellFormed

section Entries
variable {plan : CompiledPlan} {state state' : OutcomeGraphState}

theorem declaresOutcome_ne (hwf : plan.WellFormed) {nodeId outcomeId : String}
    (h : plan.declaresOutcome nodeId outcomeId = true) : outcomeId ≠ "" := by
  obtain ⟨node, hnode, hdeclares⟩ := any_eq_true.1 h
  obtain ⟨-, hany⟩ := Bool.and_eq_true_iff.1 hdeclares
  obtain ⟨outcome, houtcome, hid⟩ := any_eq_true.1 hany
  have hne := hwf.outcomeId_nonempty node hnode outcome houtcome
  rwa [of_decide_eq_true hid] at hne

theorem Starts.entriesReadable (hwf : plan.WellFormed) (h : Starts WellFormedContext plan state) :
    EntriesReadable state.attemptSeq state.nodes := by
  obtain ⟨context, fromAttemptSeq, dispatches, hc, hstart⟩ := h
  obtain ⟨-, -, hall, -⟩ := start_entries hstart
  intro entry hentry
  obtain ⟨node, -, hs⟩ := forall₂_exists_left hall hentry
  refine ⟨?_, fun refusals hr => ?_⟩
  · rcases hs.progress with ⟨-, facts, hf, hfresh⟩ | ⟨-, hp⟩
    · rw [hf]
      exact hfresh.readable hwf hc
    · rw [hp]
      trivial
  · rw [hs.refusals] at hr
    cases hr

theorem EntriesReadable.advance (hwf : plan.WellFormed) (hs : StateInvariant plan state)
    (hread : EntriesReadable state.attemptSeq state.nodes) {submission : Submission}
    (h : Advances WellFormedContext plan state submission state') :
    EntriesReadable state'.attemptSeq state'.nodes := by
  obtain ⟨hc, hdeclared, advance, hadv, rfl⟩ := h
  obtain ⟨position, current, facts, routed, hd, -, hclose, hle, hstep⟩ :=
    advance_entries hwf.nodeIds_nodup hs.aligned hs.named hadv
  obtain ⟨-, -, -, hcurrent, -, hf, -⟩ := dispatchedEntry_ok.1 hd
  have hseq : advance.state.attemptSeq = routed.attemptSeq := by
    rw [hclose]
    rfl
  rw [hseq]
  intro entry hentry
  obtain ⟨before, hbefore, hone⟩ := forall₂_exists_left hstep hentry
  refine ⟨?_, fun refusals hr => ?_⟩
  · rcases hone.progress with ⟨-, hp⟩ | ⟨-, hp⟩ | ⟨-, fresh, hp, hfresh⟩
    · rw [hp]
      exact (hread before hbefore).1.mono hle
    · have hfacts := (hread current (mem_of_getElem? hcurrent)).1
      rw [hf] at hfacts
      rw [hp]
      exact ⟨DispatchFacts.Readable.mono hfacts hle, declaresOutcome_ne hwf hdeclared, hc.now⟩
    · rw [hp]
      exact hfresh.readable hwf hc
  · rcases hone.refusals with hsame | hnone | ⟨blocked, hblocked, hassembled⟩
    · exact (hread before hbefore).2 refusals (hsame ▸ hr)
    · rw [hnone] at hr
      cases hr
    · rw [hblocked] at hr
      cases hr
      exact hassembled.blocked hwf

end Entries

section Arrivals
variable {plan : CompiledPlan} {nodes : List OutcomeNodeState}

def CanonicalArrivals (plan : JoinTopology) (nodes : List OutcomeNodeState) : Prop :=
  ∀ entry ∈ nodes, entry.arrivals = materializeArrivals plan nodes [] entry.nodeId

theorem canonicalNodes_canonical (plan : JoinTopology) (nodes : List OutcomeNodeState) :
    CanonicalArrivals plan (canonicalNodes plan nodes) := by
  intro entry hentry
  obtain ⟨before, -, rfl⟩ := mem_map.1 hentry
  change materializeArrivals plan nodes [] before.nodeId =
    materializeArrivals plan (canonicalNodes plan nodes) [] before.nodeId
  unfold materializeArrivals
  refine filterMap_congr fun source _ => ?_
  rw [settlementOf_canonicalNodes]

theorem materializeArrivals_eq_nil {plan : JoinTopology} (targetId : String)
    (h : ∀ entry ∈ nodes, entry.status ≠ .settled) :
    materializeArrivals plan nodes [] targetId = [] := by
  have hnone : ∀ nodeId, settlementOf nodes nodeId = none := by
    intro nodeId
    rw [Option.eq_none_iff_forall_ne_some]
    rintro ⟨outcomeId, attemptId⟩ hsettled
    obtain ⟨entry, facts, settledAt, hentry, hp, -⟩ := settlementOf_eq_some.1 hsettled
    refine h entry (entryOf_some hentry).1 ?_
    rw [OutcomeNodeState.status, hp]
    rfl
  unfold materializeArrivals
  rw [filterMap_eq_nil_iff]
  intro source _
  simp [hnone]

theorem materializeArrivals_read (hwf : plan.WellFormed) {bound : Nat}
    (hreadable : EntriesReadable bound nodes) (targetId : String) :
    ArrivalsRead plan targetId (materializeArrivals plan nodes [] targetId) := by
  obtain ⟨read, hread, hspec⟩ : ∃ read : CompiledNode → Option OutcomeArrival,
      materializeArrivals plan nodes [] targetId = plan.nodes.filterMap read ∧
      ∀ source ∈ plan.nodes, ∀ arrival, read source = some arrival →
        arrival.from = source.id ∧ arrival.outcome ≠ "" ∧ arrival.attemptId ≠ "" ∧
          (plan.edges.any fun edge => edge.from = arrival.from ∧ edge.to = targetId ∧
            edge.outcome = arrival.outcome) = true := by
    refine ⟨_, rfl, fun source hsource arrival harrival => ?_⟩
    rw [if_neg not_mem_nil] at harrival
    split at harrival
    · cases harrival
    next outcomeId attemptId hsettled =>
    split at harrival
    · next hrouted =>
      cases harrival
      have hnamed : outcomeId ≠ "" ∧ attemptId ≠ "" := by
        obtain ⟨entry, facts, settledAt, hentry, hp, rfl⟩ := settlementOf_eq_some.1 hsettled
        have hprogress := (hreadable entry (entryOf_some hentry).1).1
        rw [hp] at hprogress
        exact ⟨hprogress.2.1, hprogress.1.attemptId⟩
      exact ⟨rfl, hnamed.1, hnamed.2, hrouted⟩
    · cases harrival
  rw [hread]
  refine ⟨fun arrival ha => ?_, fun arrival ha => ?_, ?_⟩
  · obtain ⟨source, hsource, hs⟩ := mem_filterMap.1 ha
    obtain ⟨hfrom, houtcome, hattempt, -⟩ := hspec source hsource arrival hs
    exact ⟨hfrom ▸ hwf.nodeId_nonempty source hsource, houtcome, hattempt⟩
  · obtain ⟨source, hsource, hs⟩ := mem_filterMap.1 ha
    exact (hspec source hsource arrival hs).2.2.2
  · have hsub : ((plan.nodes.filterMap read).map (·.from)).Sublist
        plan.nodeIds := map_filterMap_sublist fun source hsource arrival hs =>
      (hspec source hsource arrival hs).1
    exact hwf.nodeIds_nodup.sublist hsub

end Arrivals

end Rolebox.Graph
