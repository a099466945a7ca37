import Rolebox.Graph.Compiler.Compile

/-! Every plan the compiler answers as executable is well formed. -/

namespace Rolebox.Graph
open General List

section Inspection
variable {nodes : List CompiledNode} {edges : List CompiledEdge}

theorem inspectNodes_nil {seen : List String} {index : Nat}
    (h : inspectNodes seen index nodes = []) :
    readableNodes seen nodes = nodes ∧ (nodes.map (·.id)).Nodup ∧
      ∀ node ∈ nodes, node.id ≠ "" ∧ node.id ∉ seen ∧ inspectOutcomes node = [] := by
  induction nodes generalizing seen index with
  | nil => exact ⟨rfl, nodup_nil, by simp⟩
  | cons node nodes ih =>
    rw [inspectNodes] at h
    split at h
    · cases h
    next hid =>
    split at h
    · cases h
    next hseen =>
    obtain ⟨hout, hrest⟩ := append_eq_nil_iff.1 h
    obtain ⟨hread, hnodup, hall⟩ := ih hrest
    refine ⟨?_, ?_, fun other ho => ?_⟩
    · rw [readableNodes, if_neg (not_or.2 ⟨hid, hseen⟩), hread]
    · refine nodup_cons.2 ⟨fun hm => ?_, hnodup⟩
      obtain ⟨other, ho, heq⟩ := mem_map.1 hm
      exact (hall other ho).2.1 (heq ▸ by simp)
    · rcases mem_cons.1 ho with rfl | ho
      · exact ⟨hid, hseen, hout⟩
      · obtain ⟨hne, hns, hio⟩ := hall other ho
        exact ⟨hne, fun hm => hns (mem_append_left _ hm), hio⟩

theorem inspectOutcomes_nil {node : CompiledNode} (h : inspectOutcomes node = []) :
    ∀ outcome ∈ node.outcomes, outcome.id ≠ "" := by
  unfold inspectOutcomes at h
  split at h
  · cases h
  intro outcome ho hempty
  obtain ⟨i, hi⟩ := getElem?_of_mem ho
  rw [map_eq_nil_iff, filter_eq_nil_iff] at h
  exact h (outcome, i) (mem_zipIdx_iff_getElem?.2 hi) (by simpa using hempty)

theorem inspectEdges_nil (h : inspectEdges nodes edges = []) :
    ∀ edge ∈ edges, edge.from ∈ nodes.map (·.id) ∧ edge.to ∈ nodes.map (·.id) ∧
      readableOutcome nodes edge.from edge.outcome = true := by
  intro edge he
  obtain ⟨i, hi⟩ := getElem?_of_mem he
  have hedge := flatMap_eq_nil_iff.1 h (edge, i) (mem_zipIdx_iff_getElem?.2 hi)
  simp only at hedge
  split at hedge
  · unfold inspectEdge at hedge
    obtain ⟨hends, hout⟩ := append_eq_nil_iff.1 hedge
    have hfrom : edge.from ∈ nodes.map (·.id) := by
      by_contra hno
      simp [hno] at hends
    have hto : edge.to ∈ nodes.map (·.id) := by
      by_contra hno
      simp [hno] at hends
    refine ⟨hfrom, hto, ?_⟩
    by_contra hno
    rw [if_pos ⟨hfrom, by simpa using hno⟩] at hout
    cases hout
  · cases hedge

theorem isPositiveSafeInteger_natCast {n : Nat} :
    isPositiveSafeInteger n = true ↔ 0 < n ∧ n ≤ maxSafeInteger := by
  unfold isPositiveSafeInteger
  simp only [Bool.and_eq_true, decide_eq_true_eq]
  omega

theorem inspectLoopGroups_nil {groups : List CompiledLoopGroup}
    (h : inspectLoopGroups nodes edges groups = []) :
    ∀ group ∈ groups, group.id ≠ "" ∧ isPositiveSafeInteger group.maxTraversals = true ∧
      group.progress.all isReadableProgressPolicy = true := by
  intro group hg
  obtain ⟨i, hi⟩ := getElem?_of_mem hg
  have hgroup := flatMap_eq_nil_iff.1 h (group, i) (mem_zipIdx_iff_getElem?.2 hi)
  simp only [inspectLoopGroup] at hgroup
  split at hgroup
  · cases hgroup
  next hread =>
  simp only [append_eq_nil_iff] at hgroup
  obtain ⟨⟨⟨hlimit, hprogress⟩, -⟩, -⟩ := hgroup
  refine ⟨?_, ?_, ?_⟩
  · have hr : isReadableGroup group = true := by simpa using hread
    unfold isReadableGroup at hr
    exact (of_decide_eq_true hr).1
  · by_contra hno
    rw [if_neg hno] at hlimit
    cases hlimit
  · by_contra hno
    rw [if_neg hno] at hprogress
    cases hprogress

end Inspection

section Reading
variable {declaration : GraphDeclarationV3} {host : DigestHost} {options : CompileOptions}
variable {raw : Json} {plan : CompiledPlan}

theorem filterMap_find_key {α : Type} {key : α → String} {l : List α} {ids : List String}
    (h : ∀ id ∈ ids, id ∈ l.map key) :
    (ids.filterMap fun id => l.find? (key · = id)).map key = ids := by
  induction ids with
  | nil => rfl
  | cons id ids ih =>
    obtain ⟨a, ha, hid⟩ := mem_map.1 (h id (.head _))
    cases hf : l.find? (key · = id) with
    | none =>
      rw [find?_eq_none] at hf
      exact absurd hid (by simpa using hf a ha)
    | some b =>
      have hb : key b = id := by simpa using find?_some hf
      rw [filterMap_cons, hf, map_cons, hb, ih fun other ho => h other (.tail _ ho)]

theorem indexedGroups_ids (groups : List LoopGroupDeclarationV3) :
    (indexedGroups groups).map (·.id) = sortText (distinct (groups.map (·.id))) :=
  filterMap_find_key fun id hid => by simpa using hid

theorem compileLoopGroups_ids (nodes : List NodeDeclarationV3) (edges : List EdgeReading)
    (groups : List LoopGroupDeclarationV3) :
    ((compileLoopGroups nodes edges groups).value.map (·.id)).Nodup := by
  have hids : (compileLoopGroups nodes edges groups).value.map (·.id) =
      (indexedGroups groups).map (·.id) := by
    simp [compileLoopGroups, compileLoopGroup]
  rw [hids, indexedGroups_ids]
  exact sortText_nodup (nodup_distinct _)

variable {nodes : List NodeDeclarationV3}

theorem compileEdge_from {edge : EdgeReading}
    {compiled : CompiledEdge} (h : (compileEdge nodes edge).value = some compiled) :
    compiled.from = edge.from := by
  unfold compileEdge at h
  split at h
  · cases h
  · cases h
    rfl

theorem compileEdges_sorted (nodes : List NodeDeclarationV3) (edges : List EdgeReading) :
    (compileEdges nodes edges).value.Pairwise fun a b => textLe a.from b.from := by
  have hsorted : (sortEdges edges).Pairwise fun a b => textLe a.from b.from :=
    (pairwise_insertionSort _ edges).imp fun h => h.1
  rw [compileEdges, filterMap_map]
  refine List.Pairwise.filterMap _ (fun a b hab a' ha b' hb => ?_) hsorted
  rw [compileEdge_from ha, compileEdge_from hb]
  exact hab

theorem readInputEntry_ok {nodeId entryPath : String}
    {seen : List String} {entry : Json} {ref : CompiledInputRef}
    (h : readInputEntry nodes nodeId entryPath seen entry = .ok ref) :
    ref.from ≠ "" ∧ ref.outcome ≠ "" := by
  unfold readInputEntry at h
  split at h
  · cases h
  split at h
  · cases h
  split at h
  · next source outcome hs ho =>
    have hsource : source ≠ "" := by
      obtain ⟨v, -, hv⟩ := Option.bind_eq_some_iff.1 hs
      simpa using (Option.filter_eq_some_iff.1 hv).2
    have houtcome : outcome ≠ "" := by
      obtain ⟨v, -, hv⟩ := Option.bind_eq_some_iff.1 ho
      simpa using (Option.filter_eq_some_iff.1 hv).2
    split at h
    · cases h
    split at h
    · cases h
    split at h
    · cases h
    split at h
    · cases h
    cases h
    exact ⟨hsource, houtcome⟩
  · cases h

theorem readInputs_nonempty {nodeId : String}
    {seen : List String} {index : Nat} {entries : List Json} {ref : CompiledInputRef}
    (h : ref ∈ (readInputs nodes nodeId seen index entries).value) :
    ref.from ≠ "" ∧ ref.outcome ≠ "" := by
  induction entries generalizing seen index with
  | nil => cases h
  | cons entry entries ih =>
    rw [readInputs] at h
    split at h
    · exact ih h
    next first hok =>
    rcases mem_cons.1 h with rfl | h
    · exact readInputEntry_ok hok
    · exact ih h

theorem compileNodes_inputs {context : CompletionPolicyContext}
    {declared nodes : List NodeDeclarationV3} {bindings : ContractBindings}
    {compiled : NodeCompilation}
    (h : compiled ∈ (compileNodes host options context declared bindings nodes).1) :
    ∀ input ∈ compiled.node.inputs, input.from ≠ "" ∧ input.outcome ≠ "" := by
  induction nodes generalizing bindings with
  | nil => cases h
  | cons node nodes ih =>
    rw [compileNodes] at h
    rcases mem_cons.1 h with rfl | h
    · intro input hi
      exact readInputs_nonempty hi
    · exact ih h

def CompileResult.plan? : CompileResult → Option CompiledPlan
  | .executable plan => some plan
  | .draft plan _ _ => some plan
  | .failed _ => none

theorem compileGraph_plan (h : (compileGraph host raw options).plan? = some plan) :
    ∃ declaration, readGraphDeclarationV3 raw = some declaration ∧
      plan.toCompiledPlanBody = (readPlanBody host declaration options).value ∧
      (readPlanBody host declaration options).errors = [] ∧
      inspectCompiledTopology host plan.toCompiledPlanBody = [] ∧
      unsatisfiableJoinsOf plan = [] := by
  unfold compileGraph at h
  split at h
  · cases h
  next declaration hread =>
  refine ⟨declaration, hread, ?_⟩
  split at h
  · next result hresult =>
    unfold compileDeclaration at hresult
    simp only at hresult
    split at hresult
    · cases hresult
      cases h
    next herrors =>
    split at hresult
    · cases hresult
      cases h
    next hinspect =>
    split at hresult
    · cases hresult
      cases h
    next hjoins =>
    unfold createCompiledPlan at hresult
    cases hdigest : host.planDigest (readPlanBody host declaration options).value with
    | error text =>
      rw [hdigest] at hresult
      cases hresult
    | ok revision =>
      rw [hdigest] at hresult
      have hplan := Except.ok.inj hresult
      have hbody : plan = { (readPlanBody host declaration options).value with
          planRevision := revision } := by
        rw [← hplan] at h
        simp only [succeeded] at h
        split at h
        · exact (Option.some.inj h).symm
        · exact (Option.some.inj h).symm
      subst hbody
      exact ⟨rfl, not_not.1 herrors, not_not.1 hinspect, not_not.1 hjoins⟩
  · cases h

section

variable (h : compileGraph host raw options = .executable plan)
include h

theorem compileGraph_executability : plan.executability = .executable := by
  unfold compileGraph at h
  split at h
  · cases h
  split at h
  · next result hresult =>
    subst h
    unfold compileDeclaration at hresult
    simp only at hresult
    split at hresult
    · cases hresult
    split at hresult
    · cases hresult
    split at hresult
    · cases hresult
    obtain ⟨compiled, -, hplan⟩ := map_eq_ok.1 hresult
    simp only [succeeded] at hplan
    split at hplan
    · next hexec =>
      cases hplan
      exact hexec
    · cases hplan
  · cases h

theorem compileGraph_executable :
    ∃ declaration, readGraphDeclarationV3 raw = some declaration ∧
      plan.toCompiledPlanBody = (readPlanBody host declaration options).value ∧
      (readPlanBody host declaration options).errors = [] ∧
      inspectCompiledTopology host plan.toCompiledPlanBody = [] ∧ unsatisfiableJoinsOf plan = [] ∧
      plan.executability = .executable := by
  have hplan : (compileGraph host raw options).plan? = some plan := by
    rw [h]
    rfl
  obtain ⟨declaration, hread, hbody, herrors, hinspect, hjoins⟩ := compileGraph_plan hplan
  exact ⟨declaration, hread, hbody, herrors, hinspect, hjoins, compileGraph_executability h⟩

omit h in
theorem compileGraph_plan_wellFormed (h : (compileGraph host raw options).plan? = some plan) :
    plan.WellFormed := by
  obtain ⟨declaration, -, hbody, -, hinspect, -⟩ := compileGraph_plan h
  unfold inspectCompiledTopology at hinspect
  simp only [append_eq_nil_iff] at hinspect
  obtain ⟨⟨⟨⟨⟨⟨⟨⟨hnodes, hedges⟩, hgroups⟩, -⟩, -⟩, -⟩, -⟩, -⟩, -⟩ := hinspect
  obtain ⟨hread, hnodup, hnode⟩ := inspectNodes_nil hnodes
  rw [hread] at hedges hgroups
  have hedge := inspectEdges_nil hedges
  have hgroup := inspectLoopGroups_nil hgroups
  refine
    { nodeIds_nodup := hnodup
      nodeId_nonempty := fun node hn => (hnode node hn).1
      outcomeId_nonempty := fun node hn => inspectOutcomes_nil (hnode node hn).2.2
      input_nonempty := ?_
      edge_declared := fun edge he => ⟨(hedge edge he).1, (hedge edge he).2.1⟩
      edge_outcome := fun edge he => ?_
      edges_sorted := ?_
      groupIds_nodup := ?_
      groupId_nonempty := fun group hg => (hgroup group hg).1
      group_cap := fun group hg => isPositiveSafeInteger_natCast.1 (hgroup group hg).2.1
      group_progress := fun group hg policy hp => ?_
      terminals := ?_ }
  · rw [hbody]
    intro node hn
    obtain ⟨compiled, hc, rfl⟩ := mem_map.1 hn
    exact compileNodes_inputs hc
  · obtain ⟨node, hn, hd⟩ := any_eq_true.1 (hedge edge he).2.2
    refine any_eq_true.2 ⟨node, hn, ?_⟩
    simp only [Bool.and_eq_true] at hd ⊢
    exact ⟨hd.1.1, hd.2⟩
  · rw [hbody]
    exact compileEdges_sorted _ _
  · rw [hbody]
    exact compileLoopGroups_ids _ _ _
  · have hall := (hgroup group hg).2.2
    rw [hp] at hall
    simp only [Option.all_some, isReadableProgressPolicy, Bool.and_eq_true,
      decide_eq_true_eq, isPositiveSafeInteger_natCast] at hall
    obtain ⟨⟨⟨heval, hver⟩, hsub⟩, hmax⟩ := hall
    exact ⟨heval, hver.1, hver.2, hsub, hmax.1, hmax.2⟩
  · rw [hbody]
    rfl

theorem compileGraph_wellFormed : plan.WellFormed := by
  have hplan : (compileGraph host raw options).plan? = some plan := by
    rw [h]
    rfl
  exact compileGraph_plan_wellFormed hplan

end

end Reading
end Rolebox.Graph
