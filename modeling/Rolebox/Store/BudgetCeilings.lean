import Mathlib.Tactic.Linarith
import Rolebox.General.Sums
import Rolebox.Store.Budget

/-! The declared ceilings of a run over every order of its claims, reports and releases. -/

namespace Rolebox.Graph
open General Transaction List Function

namespace BudgetTables
variable {s s' t : GraphStore} {graphId runId nodeId : String} {kind : BudgetLimitKind}

/-- What one row holds of a ceiling: its usage once reported, its claim until then. -/
def holding (kind : BudgetLimitKind) (row : BudgetReservationRecord) : Rat :=
  (if isReconciled row then usedColumn kind row else 0) +
    if isReserved row then reservedColumn kind row else 0

theorem committedOf_eq_sum :
    committedOf s graphId runId nodeId kind =
      ((s.budgetReservations.filter (ofNode graphId runId nodeId)).map (holding kind)).sum := by
  unfold committedOf holding
  rw [← sum_map_add]

theorem committedOf_eq :
    committedOf s graphId runId nodeId kind =
      usedSum s graphId runId nodeId kind + reservedSum s graphId runId nodeId kind := by
  simp only [committedOf, usedSum, reservedSum, sum_ite_eq_filter, filter_filter]
  congr 4 <;> funext row <;> simp [Bool.and_comm]

theorem committedOf_append (row : BudgetReservationRecord) :
    committedOf { s with budgetReservations := s.budgetReservations ++ [row] }
        graphId runId nodeId kind =
      committedOf s graphId runId nodeId kind +
        if ofNode graphId runId nodeId row then holding kind row else 0 := by
  rw [committedOf_eq_sum, committedOf_eq_sum]
  show (List.map _ (List.filter _ (s.budgetReservations ++ [row]))).sum = _
  rw [filter_append, map_append, sum_append]
  congr 1
  by_cases h : ofNode graphId runId nodeId row
  · rw [if_pos h, filter_cons_of_pos h, filter_nil]
    simp
  · rw [if_neg h, filter_cons_of_neg h, filter_nil]
    rfl

section Explanation
variable {input : BudgetReserveInput}

theorem headroomOf_eq_true :
    headroomOf s input kind = true ↔
      ∀ limit, input.limits.limitOf kind = some limit →
        committedOf s input.graphId input.runId input.nodeId kind < limit := by
  unfold headroomOf
  rw [committedOf_eq]
  cases input.limits.limitOf kind with
  | none => simp
  | some limit => simp

theorem mem_dimensions (kind : BudgetLimitKind) : kind ∈ BUDGET_DIMENSIONS := by
  cases kind <;> decide

theorem claimable_eq_true :
    claimable s input = true ↔
      (∀ row ∈ s.budgetReservations, ofNode input.graphId input.runId input.nodeId row →
        row.attemptId ≠ input.attemptId) ∧
      (∀ kind limit, input.limits.limitOf kind = some limit →
        committedOf s input.graphId input.runId input.nodeId kind < limit) ∧
      ∀ limit, input.maxExecutions = some limit →
        executionsOf s input.graphId input.runId < limit := by
  have hdimensions : BUDGET_DIMENSIONS.all (headroomOf s input) = true ↔
      ∀ kind limit, input.limits.limitOf kind = some limit →
        committedOf s input.graphId input.runId input.nodeId kind < limit := by
    rw [all_eq_true]
    constructor
    · intro h kind
      exact headroomOf_eq_true.1 (h kind (mem_dimensions kind))
    · intro h kind _
      exact headroomOf_eq_true.2 (h kind)
  unfold claimable
  rw [Bool.and_eq_true, Bool.and_eq_true, hdimensions, and_assoc]
  refine and_congr ?_ (and_congr Iff.rfl ?_)
  · simp
  · cases input.maxExecutions <;> simp

theorem exhaustionOf_named {e : BudgetExhaustion} (h : e ∈ exhaustionOf s input) :
    e.limit ≤ e.committed := by
  obtain h | h := mem_append.1 h
  · unfold executionExhaustion at h
    cases hmax : input.maxExecutions with
    | none =>
      rw [hmax] at h
      cases h
    | some limit =>
      simp only [hmax] at h
      split at h
      · next hle =>
        rw [mem_singleton.1 h]
        exact Nat.cast_le.2 hle
      · cases h
  · obtain ⟨kind, -, h⟩ := mem_flatMap.1 h
    unfold dimensionExhaustion at h
    cases hlimit : input.limits.limitOf kind with
    | none =>
      rw [hlimit] at h
      cases h
    | some limit =>
      simp only [hlimit] at h
      split at h
      · cases h
      · next hnot =>
        rw [mem_singleton.1 h]
        exact not_lt.1 hnot

/-- A claim refused with no row in the way is refused by a dimension that is named. -/
theorem exhaustionOf_ne_nil (hclosed : claimable s input = false)
    (hrow : readReservationIn s input.graphId input.attemptId input.runId = none) :
    exhaustionOf s input ≠ [] := by
  intro hempty
  obtain ⟨hexecutions, hdimensions⟩ := append_eq_nil_iff.1 hempty
  have hopen : claimable s input = true := by
    refine claimable_eq_true.2 ⟨?_, ?_, ?_⟩
    · intro row hrow' hnode hattempt
      have hno := find?_eq_none.1 hrow row hrow'
      simp only [ofNode, decide_eq_true_eq] at hnode hno
      exact hno ⟨hnode.1, hnode.2.1, hattempt⟩
    · intro kind limit hlimit
      have hnil := flatMap_eq_nil_iff.1 hdimensions kind (mem_dimensions kind)
      simp only [dimensionExhaustion, hlimit] at hnil
      by_contra hnot
      rw [if_neg hnot] at hnil
      cases hnil
    · intro limit hlimit
      simp only [executionExhaustion, hlimit] at hexecutions
      by_contra hnot
      rw [if_pos (not_lt.1 hnot)] at hexecutions
      cases hexecutions
  rw [hopen] at hclosed
  cases hclosed

end Explanation

section Ceilings

def outstandingOf (graphId runId nodeId : String) (row : BudgetReservationRecord) : Bool :=
  ofNode graphId runId nodeId row && isReserved row

def claimOf (graphId runId : String) (row : BudgetReservationRecord) : Bool :=
  ofRun graphId runId row && decide (row.reserved.executions = 1)

structure Ceilings (graphId runId : String) (limitsOf : String → NodeBudgetLimits)
    (maxExecutions : Option Nat) (s : GraphStore) : Prop where
  single : ∀ nodeId kind limit, (limitsOf nodeId).limitOf kind = some limit →
    s.budgetReservations.countP (outstandingOf graphId runId nodeId) ≤ 1
  closed : ∀ nodeId kind limit, (limitsOf nodeId).limitOf kind = some limit →
    (∃ row ∈ s.budgetReservations, outstandingOf graphId runId nodeId row) →
      limit ≤ committedOf s graphId runId nodeId kind
  counted : ∀ limit, maxExecutions = some limit →
    s.budgetReservations.countP (claimOf graphId runId) ≤ limit

variable {limitsOf : String → NodeBudgetLimits} {maxExecutions : Option Nat}

theorem ofRun_of_ofNode {row : BudgetReservationRecord} (h : ofNode graphId runId nodeId row) :
    ofRun graphId runId row := by
  simp only [ofNode, ofRun, decide_eq_true_eq] at h ⊢
  exact ⟨h.1, h.2.1⟩

theorem Ceilings.init (h : ∀ row ∈ s.budgetReservations, ofRun graphId runId row = false) :
    Ceilings graphId runId limitsOf maxExecutions s := by
  have hnone : ∀ nodeId, ∀ row ∈ s.budgetReservations,
      ¬ outstandingOf graphId runId nodeId row := by
    intro nodeId row hrow hout
    have hrun := ofRun_of_ofNode (Bool.and_eq_true_iff.1 hout).1
    rw [h row hrow] at hrun
    cases hrun
  refine ⟨fun nodeId _ _ _ => ?_, fun nodeId _ _ _ ⟨row, hrow, hout⟩ => ?_, fun limit _ => ?_⟩
  · rw [countP_eq_zero.2 (hnone nodeId)]
    exact Nat.zero_le 1
  · exact absurd hout (hnone nodeId row hrow)
  · have hclaims : s.budgetReservations.countP (claimOf graphId runId) = 0 := by
      refine countP_eq_zero.2 fun row hrow hclaim => ?_
      have hrun := (Bool.and_eq_true_iff.1 hclaim).1
      rw [h row hrow] at hrun
      cases hrun
    rw [hclaims]
    exact Nat.zero_le limit

theorem holding_claimRow {input : BudgetReserveInput} {limit : Rat}
    (hlimit : input.limits.limitOf kind = some limit)
    (hempty : ∀ row ∈ s.budgetReservations,
      ¬ outstandingOf input.graphId input.runId input.nodeId row) :
    committedOf s input.graphId input.runId input.nodeId kind + holding kind (claimRow s input) =
      limit := by
  have hreserved : reservedSum s input.graphId input.runId input.nodeId kind = 0 := by
    have hrows : (s.budgetReservations.filter fun row =>
        ofNode input.graphId input.runId input.nodeId row ∧ isReserved row) = [] := by
      rw [filter_eq_nil_iff]
      intro row hrow hout
      refine hempty row hrow ?_
      simpa [outstandingOf] using hout
    unfold reservedSum
    rw [hrows]
    rfl
  have hclaim : holding kind (claimRow s input) = remainingOf s input kind := by
    cases kind <;>
      simp [holding, claimRow, isReconciled, isReserved, reservedColumn,
        BudgetUsageAmounts.amountOf]
  rw [hclaim, committedOf_eq, hreserved]
  unfold remainingOf
  simp only [hlimit, hreserved]
  linarith

theorem ofNode_claimRow (input : BudgetReserveInput) :
    ofNode graphId runId nodeId (claimRow s input) = true ↔
      input.graphId = graphId ∧ input.runId = runId ∧ input.nodeId = nodeId :=
  decide_eq_true_iff

section

variable (h : Ceilings graphId runId limitsOf maxExecutions s)
include h

theorem Ceilings.reserve {input : BudgetReserveInput} (hopen : claimable s input)
    (hdeclared : input.graphId = graphId → input.runId = runId →
      input.limits = limitsOf input.nodeId ∧ input.maxExecutions = maxExecutions) :
    Ceilings graphId runId limitsOf maxExecutions
      { s with budgetReservations := s.budgetReservations ++ [claimRow s input] } := by
  obtain ⟨-, hheadroom, hexecutions⟩ := claimable_eq_true.1 hopen
  -- under a declared ceiling the gate is closed while a claim of the node is outstanding
  have hempty : ∀ kind limit, input.limits.limitOf kind = some limit →
      input.graphId = graphId → input.runId = runId → ∀ row ∈ s.budgetReservations,
        ¬ outstandingOf graphId runId input.nodeId row := by
    rintro kind limit hlimit rfl rfl row hrow hout
    have hlimits := (hdeclared rfl rfl).1
    have hle := h.closed input.nodeId kind limit (hlimits ▸ hlimit) ⟨row, hrow, hout⟩
    exact absurd (hheadroom kind limit hlimit) (not_lt.2 hle)
  refine ⟨?_, ?_, ?_⟩
  · intro nodeId kind limit hlimit
    show countP _ (s.budgetReservations ++ [claimRow s input]) ≤ 1
    rw [countP_append]
    by_cases hnode : ofNode graphId runId nodeId (claimRow s input)
    · obtain ⟨hgraph, hrun, rfl⟩ := (ofNode_claimRow input).1 hnode
      rw [← (hdeclared hgraph hrun).1] at hlimit
      rw [countP_eq_zero.2 (hempty kind limit hlimit hgraph hrun)]
      exact (Nat.zero_add _).le.trans countP_le_length
    · have hnone : countP (outstandingOf graphId runId nodeId) [claimRow s input] = 0 := by
        refine countP_eq_zero.2 fun row hrow hout => ?_
        rw [mem_singleton.1 hrow] at hout
        exact hnode (Bool.and_eq_true_iff.1 hout).1
      rw [hnone]
      exact h.single nodeId kind limit hlimit
  · rintro nodeId kind limit hlimit ⟨row, hrow, hout⟩
    rw [committedOf_append]
    by_cases hnode : ofNode graphId runId nodeId (claimRow s input)
    · obtain ⟨rfl, rfl, rfl⟩ := (ofNode_claimRow input).1 hnode
      rw [← (hdeclared rfl rfl).1] at hlimit
      rw [if_pos hnode, holding_claimRow hlimit (hempty kind limit hlimit rfl rfl)]
    · rw [if_neg hnode, add_zero]
      refine h.closed nodeId kind limit hlimit ⟨row, ?_, hout⟩
      obtain hold | hnew := mem_append.1 hrow
      · exact hold
      · rw [mem_singleton.1 hnew] at hout
        exact absurd (Bool.and_eq_true_iff.1 hout).1 hnode
  · intro limit hlimit
    show countP _ (s.budgetReservations ++ [claimRow s input]) ≤ limit
    rw [countP_append]
    by_cases hrun : input.graphId = graphId ∧ input.runId = runId
    · obtain ⟨rfl, rfl⟩ := hrun
      have hlt := hexecutions limit (((hdeclared rfl rfl).2).trans hlimit)
      have hle : s.budgetReservations.countP (claimOf input.graphId input.runId) ≤
          executionsOf s input.graphId input.runId :=
        countP_mono_left fun row _ hclaim => (Bool.and_eq_true_iff.1 hclaim).1
      have hone : countP (claimOf input.graphId input.runId) [claimRow s input] ≤ 1 :=
        countP_le_length
      omega
    · have hnone : countP (claimOf graphId runId) [claimRow s input] = 0 := by
        refine countP_eq_zero.2 fun row hrow hclaim => ?_
        rw [mem_singleton.1 hrow] at hclaim
        have hof := (Bool.and_eq_true_iff.1 hclaim).1
        exact hrun (decide_eq_true_iff.1 hof)
      rw [hnone]
      exact h.counted limit hlimit

theorem Ceilings.late
    {input : BudgetUsageInput} (hused : ∀ kind, 0 ≤ (usedOf input).amountOf kind) :
    Ceilings graphId runId limitsOf maxExecutions
      { s with budgetReservations := s.budgetReservations ++ [lateRow input] } := by
  have hout : ∀ nodeId, ¬ outstandingOf graphId runId nodeId (lateRow input) := by
    intro nodeId hout
    exact absurd (Bool.and_eq_true_iff.1 hout).2 (by simp [isReserved, lateRow])
  have hnone : ∀ nodeId, countP (outstandingOf graphId runId nodeId) [lateRow input] = 0 := by
    intro nodeId
    refine countP_eq_zero.2 fun row hrow => ?_
    rw [mem_singleton.1 hrow]
    exact hout nodeId
  refine ⟨?_, ?_, ?_⟩
  · intro nodeId kind limit hlimit
    show countP _ (s.budgetReservations ++ [lateRow input]) ≤ 1
    rw [countP_append, hnone]
    exact h.single nodeId kind limit hlimit
  · rintro nodeId kind limit hlimit ⟨row, hrow, hrowout⟩
    have hold : row ∈ s.budgetReservations := by
      obtain hold | hnew := mem_append.1 hrow
      · exact hold
      · rw [mem_singleton.1 hnew] at hrowout
        exact absurd hrowout (hout nodeId)
    have hholding : holding kind (lateRow input) = (usedOf input).amountOf kind := by
      simp [holding, isReconciled, isReserved, usedColumn, lateRow]
    have hle := h.closed nodeId kind limit hlimit ⟨row, hold, hrowout⟩
    have hnonneg := hused kind
    rw [committedOf_append, hholding]
    split <;> linarith
  · intro limit hlimit
    show countP _ (s.budgetReservations ++ [lateRow input]) ≤ limit
    have hclaim : countP (claimOf graphId runId) [lateRow input] = 0 := by
      refine countP_eq_zero.2 fun row hrow => ?_
      rw [mem_singleton.1 hrow]
      simp [claimOf, lateRow]
    rw [countP_append, hclaim]
    exact h.counted limit hlimit

theorem Ceilings.settle {c : BudgetReservationRecord → Prop} [DecidablePred c]
    {f : BudgetReservationRecord → BudgetReservationRecord}
    (hnode : ∀ nodeId row, ofNode graphId runId nodeId (f row) = ofNode graphId runId nodeId row)
    (hclaim : ∀ row, claimOf graphId runId (f row) = claimOf graphId runId row)
    (hpending : ∀ row, c row → isReconciled row = false)
    (hsettled : ∀ row, isReserved (f row) = false)
    (hholding : ∀ kind row, 0 ≤ holding kind (f row)) :
    Ceilings graphId runId limitsOf maxExecutions
      { s with budgetReservations := updateWhere c f s.budgetReservations } := by
  have hnot : ∀ nodeId row, ¬ outstandingOf graphId runId nodeId (f row) := by
    intro nodeId row hout
    have hreserved := (Bool.and_eq_true_iff.1 hout).2
    rw [hsettled] at hreserved
    cases hreserved
  refine ⟨?_, ?_, ?_⟩
  · intro nodeId kind limit hlimit
    refine (countP_updateWhere_le ?_).trans (h.single nodeId kind limit hlimit)
    exact fun row hout => absurd hout (hnot nodeId row)
  · rintro nodeId kind limit hlimit ⟨row, hrow, hout⟩
    -- the claim still outstanding was the node's only one, so no other row of it was
    obtain ⟨hold, hkept⟩ | ⟨old, -, -, rfl⟩ := mem_updateWhere.1 hrow
    · have hle := h.closed nodeId kind limit hlimit ⟨row, hold, hout⟩
      refine hle.trans ?_
      rw [committedOf_eq_sum, committedOf_eq_sum]
      show _ ≤ (List.map _ (List.filter _ (updateWhere _ _ _))).sum
      rw [updateWhere_filter (hnode nodeId)]
      unfold updateWhere
      rw [map_map]
      refine sum_le_sum fun other hother => ?_
      obtain ⟨hmem, hof⟩ := mem_filter.1 hother
      by_cases hc : c other
      · rw [comp_apply, if_pos hc]
        have hnotout : isReserved other = false := by
          by_contra hreserved
          have hother : outstandingOf graphId runId nodeId other :=
            Bool.and_eq_true_iff.2 ⟨hof, Bool.eq_true_of_not_eq_false hreserved⟩
          have hsame := eq_of_countP_le_one (h.single nodeId kind limit hlimit) hmem hold hother
            hout
          exact hkept (hsame ▸ hc)
        have hzero : holding kind other = 0 := by
          simp [holding, hpending other hc, hnotout]
        rw [hzero]
        exact hholding kind other
      · rw [comp_apply, if_neg hc]
    · exact absurd hout (hnot nodeId old)
  · intro limit hlimit
    refine (countP_updateWhere_le ?_).trans (h.counted limit hlimit)
    intro row hrow
    rwa [hclaim] at hrow

end

end Ceilings

section Calls

inductive BudgetCall where
  | reserve (input : BudgetReserveInput)
  | release (input : BudgetReleaseInput)
  | reconcile (input : BudgetUsageInput)

inductive BudgetAnswer where
  | reserve (result : BudgetReserveResult)
  | release (result : BudgetReleaseResult)
  | reconcile (result : BudgetUsageResult)

def BudgetCall.perform : BudgetCall → StoreTx BudgetAnswer
  | .reserve input => do
    let result ← reserveDispatch input
    pure (.reserve result)
  | .release input => do
    let result ← releaseReservation input
    pure (.release result)
  | .reconcile input => do
    let result ← reconcileUsage input
    pure (.reconcile result)

abbrev BudgetEvent := Event BudgetCall StoreFailure BudgetAnswer

def BudgetCall.Declared (graphId runId : String) (limitsOf : String → NodeBudgetLimits)
    (maxExecutions : Option Nat) : BudgetCall → Prop
  | .reserve input => input.graphId = graphId → input.runId = runId →
      input.limits = limitsOf input.nodeId ∧ input.maxExecutions = maxExecutions
  | _ => True

def budgetStep (graphId runId : String) (limitsOf : String → NodeBudgetLimits)
    (maxExecutions : Option Nat) (s : GraphStore) (event : BudgetEvent) (t : GraphStore) : Prop :=
  event.call.Declared graphId runId limitsOf maxExecutions ∧
    Commits BudgetCall.perform s event t

variable {limitsOf : String → NodeBudgetLimits} {maxExecutions : Option Nat}

theorem perform_ceilings {call : BudgetCall}
    (h : call.Declared graphId runId limitsOf maxExecutions) :
    Moves (Keeping (Ceilings graphId runId limitsOf maxExecutions)) call.perform := by
  cases call with
  | reserve input =>
    refine Moves.bind ?_ fun _ => Moves.pure _
    intro s result s' hrun hs
    obtain ⟨hopen, -, rfl⟩ | ⟨-, rfl, -⟩ | ⟨-, rfl, -⟩ := reserveDispatch_ok hrun
    · exact hs.reserve hopen h
    · exact hs
    · exact hs
  | release input =>
    refine Moves.bind ?_ fun _ => Moves.pure _
    intro s result s' hrun hs
    rw [releaseReservation_ok hrun]
    refine hs.settle (fun _ _ => rfl) (fun _ => rfl) ?_ (fun row => by simp [isReserved]) ?_
    · intro row hc
      simp [isReconciled, hc.2.2.2.2]
    · intro kind row
      simp [holding, isReconciled, isReserved]
  | reconcile input =>
    refine Moves.bind ?_ fun _ => Moves.pure _
    intro s result s' hrun hs
    obtain ⟨hused, rfl | rfl | ⟨existing, rfl⟩⟩ := reconcileUsage_ok hrun
    · exact hs
    · exact hs.late hused
    refine hs.settle (fun _ _ => rfl) (fun _ => rfl) (fun row hc => hc.2.2.2.2)
      (fun row => by simp [isReserved]) ?_
    intro kind row
    have hholding := hused kind
    simpa [holding, isReconciled, isReserved, usedColumn] using hholding

theorem budgetStep_ceilings {event : BudgetEvent}
    (h : budgetStep graphId runId limitsOf maxExecutions s event t)
    (hs : Ceilings graphId runId limitsOf maxExecutions s) :
    Ceilings graphId runId limitsOf maxExecutions t := by
  obtain ⟨hdeclared, hcommit⟩ := h
  exact (hcommit.moves (perform_ceilings hdeclared)) hs

/-- A claim is granted below every ceiling; a refused one names a ceiling and writes nothing. -/
def Answered (s : GraphStore) (input : BudgetReserveInput) (answer : BudgetReserveResult)
    (t : GraphStore) : Prop :=
  (∀ reservation, answer = .reserved reservation →
    (∀ kind limit, input.limits.limitOf kind = some limit →
      usedSum s input.graphId input.runId input.nodeId kind +
        reservedSum s input.graphId input.runId input.nodeId kind < limit) ∧
    ∀ limit, input.maxExecutions = some limit →
      executionsOf s input.graphId input.runId < limit) ∧
  (∀ existing, answer = .replayed existing → t = s) ∧
  ∀ exhausted, answer = .exhausted exhausted →
    exhausted ≠ [] ∧ (∀ e ∈ exhausted, e.limit ≤ e.committed) ∧ t = s

theorem reserveDispatch_answer {input : BudgetReserveInput} {answer : BudgetReserveResult}
    (h : reserveDispatch input s = .ok (answer, t)) : Answered s input answer t := by
  obtain ⟨hopen, ⟨granted, rfl⟩, -⟩ | ⟨-, rfl, existing, rfl⟩ | ⟨hclosed, rfl, rfl, hrow⟩ :=
    reserveDispatch_ok h
  · refine ⟨fun reservation _ => ?_, fun _ h => (nomatch h), fun _ h => (nomatch h)⟩
    obtain ⟨-, hheadroom, hexecutions⟩ := claimable_eq_true.1 hopen
    refine ⟨fun kind limit hlimit => ?_, hexecutions⟩
    rw [← committedOf_eq]
    exact hheadroom kind limit hlimit
  · exact ⟨fun _ h => (nomatch h), fun _ _ => rfl, fun _ h => (nomatch h)⟩
  · refine ⟨fun _ h => (nomatch h), fun _ h => (nomatch h), ?_⟩
    rintro exhausted ⟨rfl⟩
    exact ⟨exhaustionOf_ne_nil hclosed hrow, fun e he => exhaustionOf_named he, rfl⟩

/-- Over every order the claims stay within the limit, one outstanding under a ceiling. -/
theorem budget_enforced {events : List BudgetEvent}
    (hinit : ∀ row ∈ s.budgetReservations, ofRun graphId runId row = false)
    (h : Run (budgetStep graphId runId limitsOf maxExecutions) s events t) :
    (∀ limit, maxExecutions = some limit →
      t.budgetReservations.countP (claimOf graphId runId) ≤ limit) ∧
    (∀ nodeId kind limit, (limitsOf nodeId).limitOf kind = some limit →
      t.budgetReservations.countP (outstandingOf graphId runId nodeId) ≤ 1) ∧
    ∀ input answer u, reserveDispatch input t = .ok (answer, u) → Answered t input answer u := by
  have hceilings : Ceilings graphId runId limitsOf maxExecutions t :=
    h.invariant (fun _ _ _ hs hstep => budgetStep_ceilings hstep hs) (Ceilings.init hinit)
  exact ⟨hceilings.counted, hceilings.single, fun _ _ _ hanswer => reserveDispatch_answer hanswer⟩

def budgetedRun : GraphStore :=
  { GraphStore.empty with
    runs := [{ graphId := "g", runId := "r1", runSeq := 1, planRevision := "p", startedAt := 1,
               control := none }] }

def budgetedClaim (attemptId : String) : BudgetReserveInput :=
  { maxExecutions := some 1, graphId := "g", runId := "r1", nodeId := "n", attemptId := attemptId,
    effectId := attemptId, limits := { NO_BUDGET_LIMITS with costUsd := some 1 }, at' := 1 }

def lateReport : BudgetUsageInput :=
  { graphId := "g", runId := "r1", nodeId := "n", attemptId := "n#2", effectId := "n#2",
    executions := none, durationMs := 0, inputTokens := 0, outputTokens := 0, costUsd := 0,
    at' := 2 }

def budgetEvent (s : GraphStore) (call : BudgetCall) : BudgetEvent × GraphStore :=
  let (answer, t) := call.perform.commit s
  ({ call := call, answer := answer }, t)

theorem budgetEvent_step (call : BudgetCall)
    (h : call.Declared graphId runId limitsOf maxExecutions) :
    budgetStep graphId runId limitsOf maxExecutions s (budgetEvent s call).1
      (budgetEvent s call).2 :=
  ⟨h, rfl⟩

theorem budgetedClaim_declared (attemptId : String) :
    (BudgetCall.reserve (budgetedClaim attemptId)).Declared "g" "r1"
      (fun _ => { NO_BUDGET_LIMITS with costUsd := some 1 }) (some 1) :=
  fun _ _ => ⟨rfl, rfl⟩

def claimRelease : BudgetReleaseInput :=
  { graphId := "g", runId := "r1", nodeId := "n", attemptId := "n#1", at' := 2 }

def isExhausted : BudgetReserveResult → Bool
  | .exhausted _ => true
  | _ => false

/-- A claim, its release, a late report, and a claim refused for the executions of the run. -/
theorem budgetedClaim_enforced :
    ∃ events t, Run (budgetStep "g" "r1" (fun _ => { NO_BUDGET_LIMITS with costUsd := some 1 })
        (some 1)) budgetedRun events t ∧ executionsOf t "g" "r1" = 2 ∧
      t.budgetReservations.countP (claimOf "g" "r1") ≤ 1 ∧
      t.budgetReservations.countP (outstandingOf "g" "r1" "n") ≤ 1 ∧
      ∃ exhausted, reserveDispatch (budgetedClaim "n#4") t = .ok (.exhausted exhausted, t) ∧
        exhausted ≠ [] := by
  have hrun : ∃ events t, Run (budgetStep "g" "r1"
      (fun _ => { NO_BUDGET_LIMITS with costUsd := some 1 }) (some 1)) budgetedRun events t ∧
      executionsOf t "g" "r1" = 2 ∧
      ((reserveDispatch (budgetedClaim "n#4") t).toOption.any fun answer =>
        isExhausted answer.1) = true := by
    refine ⟨_, _, Run.cons (budgetEvent_step _ (budgetedClaim_declared "n#1")) <|
      Run.cons (budgetEvent_step (.release claimRelease) trivial) <|
      Run.cons (budgetEvent_step (.reconcile lateReport) trivial) <| .nil _, ?_, ?_⟩
    · decide +kernel
    · decide +kernel
  obtain ⟨events, t, hrun, htwo, hanswer⟩ := hrun
  obtain ⟨hclaims, hsingle, hanswers⟩ := budget_enforced (by decide) hrun
  refine ⟨events, t, hrun, htwo, hclaims 1 rfl, hsingle "n" .costUsd 1 rfl, ?_⟩
  cases hreserve : reserveDispatch (budgetedClaim "n#4") t with
  | error failure =>
    rw [hreserve] at hanswer
    cases hanswer
  | ok answer =>
    rw [hreserve] at hanswer
    obtain ⟨result, u⟩ := answer
    cases result with
    | reserved | replayed => cases hanswer
    | exhausted exhausted =>
      obtain ⟨hsome, -, rfl⟩ := (hanswers _ _ _ hreserve).2.2 exhausted rfl
      exact ⟨exhausted, rfl, hsome⟩

/-- A late report is one more row than the execution limit allows. -/
theorem lateReport_exceeds :
    ∃ events t, Run (budgetStep "g" "r1"
        (fun _ => { NO_BUDGET_LIMITS with costUsd := some 1 }) (some 1)) budgetedRun events t ∧
      1 < executionsOf t "g" "r1" := by
  refine ⟨_, _, Run.cons (budgetEvent_step _ (budgetedClaim_declared "n#1"))
    (Run.cons (budgetEvent_step (.reconcile lateReport) trivial) (.nil _)), ?_⟩
  decide +kernel

end Calls

end BudgetTables

end Rolebox.Graph
