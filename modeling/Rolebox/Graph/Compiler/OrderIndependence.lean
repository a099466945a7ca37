import Rolebox.Graph.Compiler.PlanContent
import Rolebox.Graph.Compiler.ReorderedNodes
import Rolebox.Graph.Compiler.WellFormed

/-! The order of a declaration's parts moves neither the verdict nor an executable plan. -/

namespace Rolebox.Graph
open General List

theorem forall₂_filterMap {α β γ : Type} {R : β → γ → Prop} {f : α → Option β}
    {g : α → Option γ} (h : ∀ a, Option.Rel R (f a) (g a)) (l : List α) :
    Forall₂ R (l.filterMap f) (l.filterMap g) := by
  induction l with
  | nil => exact .nil
  | cons a l ih =>
    rw [filterMap_cons, filterMap_cons]
    have hrel := h a
    cases hf : f a <;> cases hg : g a <;> rw [hf, hg] at hrel
    · exact ih
    · cases hrel
    · cases hrel
    · cases hrel with
      | some hr => exact .cons hr ih

theorem repeated_eq_nil {α β : Type} {key : α → String} {l : List α} {report : String → β} :
    ((sortText (distinct (l.map key))).filter fun id =>
      1 < (l.filter (key · = id)).length).map report = [] ↔ (l.map key).Nodup := by
  rw [map_eq_nil_iff, filter_eq_nil_iff, nodup_iff_count_le_one]
  have hcount : ∀ id, (l.map key).count id = (l.filter (key · = id)).length := by
    intro id
    rw [count_eq_countP, countP_map, countP_eq_length_filter]
    congr 2
  simp only [hcount, mem_sortText, mem_distinct, decide_eq_true_eq, not_lt]
  constructor
  · intro h id
    by_cases hid : id ∈ l.map key
    · exact h id hid
    · have hnone : (l.map key).count id = 0 := count_eq_zero.2 hid
      rw [← hcount, hnone]
      exact Nat.zero_le 1
  · exact fun h id _ => h id

theorem duplicateLoopGroups_eq_nil {groups : List LoopGroupDeclarationV3} :
    duplicateLoopGroups groups = [] ↔ (groups.map (·.id)).Nodup :=
  repeated_eq_nil

theorem positionsOf_length (declaration : GraphDeclarationV3) (id : String) :
    (positionsOf declaration id).length = (declaration.nodes.filter (·.id = id)).length := by
  have hfirst : (declaration.nodes.zipIdx.filter (·.1.id = id)).map Prod.fst =
      declaration.nodes.filter (·.id = id) := by
    conv_rhs => rw [← zipIdx_map_fst 0 declaration.nodes, filter_map]
    rfl
  unfold positionsOf
  rw [length_map, ← hfirst, length_map]

theorem duplicateNodes_eq_nil {declaration : GraphDeclarationV3} :
    duplicateNodes declaration = [] ↔ (declaration.nodes.map (·.id)).Nodup := by
  unfold duplicateNodes
  simp only [positionsOf_length]
  exact repeated_eq_nil

/-- No node, loop group or outcome id of a node is declared twice. -/
structure DeclaredOnce (declaration : GraphDeclarationV3) : Prop where
  nodes : (declaration.nodes.map (·.id)).Nodup
  groups : ((declaration.loopGroups.getD []).map (·.id)).Nodup
  outcomes : ∀ node ∈ declaration.nodes, (declaredOutcomeIds node).Nodup

section Once
variable {kept : Prop} {declaration declaration' : GraphDeclarationV3}

theorem ReorderedV3.groups_reordered {groups groups' : Option (List LoopGroupDeclarationV3)}
    (h : Option.Rel (Reordered ReorderedGroupV3) groups groups') :
    Reordered ReorderedGroupV3 (groups.getD []) (groups'.getD []) := by
  cases h with
  | some hr => exact hr
  | none => exact .nil

section

variable (h : ReorderedV3 kept declaration declaration')
include h

theorem DeclaredOnce.reordered (hd : DeclaredOnce declaration) : DeclaredOnce declaration' := by
  obtain ⟨nodes, edges, groups, hnodes, -, hgroups, rfl⟩ := h
  have hgroups := ReorderedV3.groups_reordered hgroups
  refine ⟨?_, ?_, fun node' hn => ?_⟩
  · exact (hnodes.map_perm fun _ _ hr => hr.id_eq).nodup_iff.1 hd.nodes
  · exact (hgroups.map_perm fun _ _ hr => hr.id_eq).nodup_iff.1 hd.groups
  · obtain ⟨node, hm, hr⟩ := hnodes.exists_left hn
    exact (declaredOutcomeIds_perm hr).nodup_iff.1 (hd.outcomes node hm)

theorem ReorderedV3.symm : ReorderedV3 kept declaration' declaration := by
  obtain ⟨nodes, edges, groups, hnodes, hedges, hgroups, rfl⟩ := h
  refine ⟨declaration.nodes, declaration.edges, declaration.loopGroups, ?_, hedges.symm, ?_, rfl⟩
  · refine hnodes.symm.mono ?_
    rintro node' - node - ⟨outcomes, ⟨hperm, hkept⟩, rfl⟩
    exact ⟨node.outcomes, ⟨hperm.symm, fun hk => (hkept hk).symm⟩, rfl⟩
  · refine rel_swap hgroups fun listed listed' hr => hr.symm.mono ?_
    rintro group' - group - ⟨members, hperm, rfl⟩
    exact ⟨group.nodes, hperm.symm, rfl⟩

theorem indexedNodes_same (hd : DeclaredOnce declaration) :
    Forall₂ (ReorderedNodeV3 kept) (indexedNodes declaration) (indexedNodes declaration') := by
  obtain ⟨nodes, edges, groups, hnodes, -, -, rfl⟩ := h
  have hids := hnodes.map_perm (f := (·.id)) (g := (·.id)) fun _ _ hr => hr.id_eq
  unfold indexedNodes
  rw [sortText_eq_of_perm (distinct_perm hids)]
  exact forall₂_filterMap (fun id => hnodes.find?_key (fun _ _ hr => hr.id_eq) hd.nodes id) _

end

theorem indexedGroups_same {groups groups' : List LoopGroupDeclarationV3}
    (h : Reordered ReorderedGroupV3 groups groups') (hn : (groups.map (·.id)).Nodup) :
    Forall₂ ReorderedGroupV3 (indexedGroups groups) (indexedGroups groups') := by
  have hids := h.map_perm (f := (·.id)) (g := (·.id)) fun _ _ hr => hr.id_eq
  unfold indexedGroups
  rw [sortText_eq_of_perm (distinct_perm hids)]
  exact forall₂_filterMap (fun id => h.find?_key (fun _ _ hr => hr.id_eq) hn id) _

theorem mem_of_indexedNodes {node : NodeDeclarationV3} (h : node ∈ indexedNodes declaration) :
    node ∈ declaration.nodes := by
  obtain ⟨id, -, hfind⟩ := mem_filterMap.1 h
  exact mem_of_find?_eq_some hfind

theorem mem_indexedNodes {node : NodeDeclarationV3} (hn : (declaration.nodes.map (·.id)).Nodup)
    (h : node ∈ declaration.nodes) : node ∈ indexedNodes declaration := by
  refine mem_filterMap.2 ⟨node.id, ?_, find?_key_eq hn h⟩
  rw [mem_sortText, mem_distinct]
  exact mem_map_of_mem h

end Once

section Edges
variable {kept : Prop} {nodes nodes' : List NodeDeclarationV3}
variable {edge edge' : EdgeReading}

def SameEdge (edge edge' : EdgeReading) : Prop :=
  edge.from = edge'.from ∧ edge.to = edge'.to ∧ edge.outcome = edge'.outcome

theorem readEdges_same {declaration declaration' : GraphDeclarationV3}
    (h : declaration.edges.Perm declaration'.edges) :
    Reordered SameEdge (readEdges declaration) (readEdges declaration') :=
  (Reordered.of_perm h).zipIdx.map fun p q (hpq : p.1 = q.1) => by
    obtain ⟨edge, index⟩ := p
    obtain ⟨edge', index'⟩ := q
    cases hpq
    exact ⟨rfl, rfl, rfl⟩

theorem readEdges_outcome {declaration : GraphDeclarationV3} (h : edge ∈ readEdges declaration) :
    edge.outcome ≠ some "" := by
  obtain ⟨p, -, rfl⟩ := mem_map.1 h
  intro houtcome
  obtain ⟨raw, -, htext⟩ := Option.bind_eq_some_iff.1 houtcome
  simpa using (Option.filter_eq_some_iff.1 htext).2

def EdgeReading.unplaced (edge : EdgeReading) : EdgeReading := { edge with index := 0 }

theorem sameEdge_iff : SameEdge edge edge' ↔ edge.unplaced = edge'.unplaced := by
  simp [SameEdge, EdgeReading.unplaced]

theorem unplaced_antisymm (hne : edge.outcome ≠ some "") (hne' : edge'.outcome ≠ some "")
    (h : thenBy (byText (·.from)) (thenBy (byText (·.to)) (byText (·.outcome.getD ""))) edge edge')
    (h' : thenBy (byText (·.from)) (thenBy (byText (·.to)) (byText (·.outcome.getD ""))) edge' edge) :
    SameEdge edge edge' := by
  obtain ⟨hfrom, hrest⟩ := h
  obtain ⟨hfrom', hrest'⟩ := h'
  obtain ⟨hto, hlast⟩ := hrest hfrom'
  obtain ⟨hto', hlast'⟩ := hrest' hfrom
  have houtcome : edge.outcome.getD "" = edge'.outcome.getD "" :=
    Std.Antisymm.antisymm (r := textLe) _ _ (hlast hto') (hlast' hto)
  refine ⟨Std.Antisymm.antisymm (r := textLe) _ _ hfrom hfrom',
    Std.Antisymm.antisymm (r := textLe) _ _ hto hto', ?_⟩
  cases ho : edge.outcome <;> cases ho' : edge'.outcome <;> simp_all

theorem sortEdges_same {edges edges' : List EdgeReading} (h : Reordered SameEdge edges edges')
    (hne : ∀ edge ∈ edges, edge.outcome ≠ some "") :
    Forall₂ SameEdge (sortEdges edges) (sortEdges edges') := by
  have hsorted : ∀ l : List EdgeReading,
      (sortEdges l).map (·.unplaced) = sortEdges (l.map (·.unplaced)) := fun l =>
    map_insertionSort _ _ _ _ fun _ _ _ _ => Iff.rfl
  have hperm : (edges.map (·.unplaced)).Perm (edges'.map (·.unplaced)) :=
    h.map_perm fun _ _ => sameEdge_iff.1
  have hmap : (sortEdges edges).map (·.unplaced) = (sortEdges edges').map (·.unplaced) := by
    rw [hsorted, hsorted]
    apply insertionSort_eq_of_perm hperm
    intro a ha b hb hab hba
    obtain ⟨edge, he, rfl⟩ := mem_map.1 ha
    obtain ⟨edge', he', rfl⟩ := mem_map.1 hb
    exact sameEdge_iff.1 (unplaced_antisymm (hne edge he) (hne edge' he') hab hba)
  have hpairs : Forall₂ Eq ((sortEdges edges).map (·.unplaced))
      ((sortEdges edges').map (·.unplaced)) := by
    rw [forall₂_eq_eq_eq]
    exact hmap
  rw [forall₂_map_left_iff, forall₂_map_right_iff] at hpairs
  exact hpairs.imp fun _ _ => sameEdge_iff.2

section

variable (h : Forall₂ (ReorderedNodeV3 kept) nodes nodes')
include h

theorem unknownEndpoints_same (he : SameEdge edge edge') :
    Forall₂ SameDiagnostic (unknownEndpoints nodes edge) (unknownEndpoints nodes' edge') := by
  obtain ⟨index, «from», «to», outcome⟩ := edge
  obtain ⟨index', from', to', outcome'⟩ := edge'
  obtain ⟨hfrom, hto, houtcome⟩ := he
  dsimp only at hfrom hto houtcome
  subst hfrom hto houtcome
  unfold unknownEndpoints
  rw [forall₂_ids h]
  dsimp only
  generalize ((if «from» ∈ nodes'.map (·.id) then [] else [describeUnknown "from" «from»]) ++
    (if «to» ∈ nodes'.map (·.id) then [] else [describeUnknown "to" «to»])) = unknown
  split
  · exact .nil
  · exact sameIssue ((((SlotText.text _).append .slot).append (.text _)).append (.text _))
      (((SlotText.text _).append .slot).append (.text _))

theorem compileEdge_same (he : SameEdge edge edge') :
    SameReading (compileEdge nodes edge) (compileEdge nodes' edge') := by
  have hends := unknownEndpoints_same h he
  obtain ⟨index, «from», «to», outcome⟩ := edge
  obtain ⟨index', from', to', outcome'⟩ := edge'
  obtain ⟨hfrom, hto, houtcome⟩ := he
  dsimp only at hfrom hto houtcome
  subst hfrom hto houtcome
  have hpath : SlotText index index' ("edges[" ++ toString index ++ "]")
      ("edges[" ++ toString index' ++ "]") :=
    ((SlotText.text _).append .slot).append (.text _)
  unfold compileEdge
  cases outcome with
  | none =>
    refine ⟨rel_append hends (sameIssue ?_ hpath), rfl⟩
    exact ((((((SlotText.text _).append .slot).append (.text _)).append (.text _)).append
      (.text _)).append (.text _)).append (.text _)
  | some outcome =>
    refine ⟨rel_append hends ?_, rfl⟩
    have hfind := forall₂_find? h «from»
    cases hl : nodes.find? (·.id = «from») <;> cases hr : nodes'.find? (·.id = «from») <;>
      rw [hl, hr] at hfind
    · exact .nil
    · cases hfind
    · cases hfind
    cases hfind with
    | some hnode =>
      simp only [mem_declaredOutcomeIds hnode]
      split
      · exact .nil
      · exact sameIssue ((((((SlotText.text _).append .slot).append (.text _)).append
          (.text _)).append (.text _)).append (.text _) |>.append (.text _)) hpath

theorem compileEdges_same {edges edges' : List EdgeReading} (he : Reordered SameEdge edges edges')
    (hne : ∀ edge ∈ edges, edge.outcome ≠ some "") :
    SameReading (compileEdges nodes edges) (compileEdges nodes' edges') := by
  have hread : Forall₂ SameReading ((sortEdges edges).map (compileEdge nodes))
      ((sortEdges edges').map (compileEdge nodes')) := by
    rw [forall₂_map_left_iff, forall₂_map_right_iff]
    exact (sortEdges_same he hne).imp fun _ _ => compileEdge_same h
  constructor
  · exact rel_flatMap hread fun _ _ hr => hr.errors
  have hvalues := forall₂_map_eq hread fun _ _ hr => hr.value.symm
  have hread_values : ∀ readings : List (Reported (Option CompiledEdge)),
      readings.filterMap (·.value) = (readings.map (·.value)).filterMap id := by
    intro readings
    rw [filterMap_map]
    rfl
  simp only [compileEdges, hread_values, hvalues]

end

end Edges

section LoopGroups
variable {kept : Prop} {nodes nodes' : List NodeDeclarationV3}
variable {group group' : LoopGroupDeclarationV3} {edges edges' : List EdgeReading}

section

variable (h : Forall₂ (ReorderedNodeV3 kept) nodes nodes')
include h

theorem readMembers_same {entries : List Json} (hperm : group.nodes.Perm entries) :
    SameReport kept (readMembers nodes group).errors
        (readMembers nodes' { group with nodes := entries }).errors ∧
      (readMembers nodes group).value.Perm
        (readMembers nodes' { group with nodes := entries }).value := by
  unfold readMembers
  dsimp only
  rw [forall₂_ids h]
  constructor
  · apply SameReport.of_code _ (.topology .unknownLoopMember)
    · intro found hf
      obtain ⟨p, -, rfl⟩ := mem_map.1 hf
      rfl
    · have hentries := (Reordered.of_perm hperm).zipIdx.filter
        (p := fun p => (p.1.text?.filter (· ∈ nodes'.map (·.id))).isNone)
        (q := fun p => (p.1.text?.filter (· ∈ nodes'.map (·.id))).isNone)
        fun p q (hpq : p.1 = q.1) => by rw [hpq]
      apply hentries.map
      rintro ⟨raw, index⟩ ⟨raw', index'⟩ hraw
      cases hraw
      exact .renumbered _ (.text _)
        ((((SlotText.text _).append .slot).append (.text _)))
  · exact distinct_perm (hperm.filterMap _)

theorem undeclaredLoopOutcome_same
    (hid : group.id = group'.id) {members members' : List String} (hperm : members.Perm members')
    (outcome : Option String) (label field : String) (code : CompiledTopologyIssueCode) :
    undeclaredLoopOutcome nodes group members outcome label field code =
      undeclaredLoopOutcome nodes' group' members' outcome label field code := by
  have hdeclare : ∀ outcome, membersDeclareOutcome nodes members outcome =
      membersDeclareOutcome nodes' members' outcome := by
    intro outcome
    apply (Reordered.of_perm hperm).any_eq
    intro member member' hm
    subst hm
    have hfind := forall₂_find? h member
    cases hl : nodes.find? (·.id = member) <;> cases hr : nodes'.find? (·.id = member) <;>
      rw [hl, hr] at hfind
    · cases hfind
    · cases hfind
    · cases hfind with
      | some hnode => simp only [Option.any_some, mem_declaredOutcomeIds hnode]
  unfold undeclaredLoopOutcome
  simp only [hdeclare, hid]

omit h in
theorem continuationOutside_same (he : Reordered SameEdge edges edges') (hid : group.id = group'.id)
    {members members' : List String} (hperm : members.Perm members')
    (continuation : Option String) :
    SameReport kept (continuationOutside edges group members continuation)
      (continuationOutside edges' group' members' continuation) := by
  unfold continuationOutside
  cases continuation with
  | none => exact .refl _
  | some continuation =>
    apply SameReport.of_code _ .loopContinuationOutsideGroup
    · intro found hf
      obtain ⟨edge, -, rfl⟩ := mem_map.1 hf
      rfl
    · have hedges := he.filter
        (p := fun edge => edge.outcome = some continuation ∧ edge.from ∈ members ∧
          edge.to ∉ members)
        (q := fun edge => edge.outcome = some continuation ∧ edge.from ∈ members' ∧
          edge.to ∉ members')
        fun edge edge' ⟨hfrom, hto, houtcome⟩ => by
          simp only [hfrom, hto, houtcome, hperm.mem_iff]
      apply hedges.map
      rintro edge edge' ⟨-, hto, -⟩
      rw [hto, hid]
      exact .renumbered _
        ((((((((SlotText.text _).append .slot).append (.text _)).append (.text _)).append
          (.text _)).append (.text _)).append (.text _)).append (.text _) |>.append (.text _))
        (((SlotText.text _).append .slot).append (.text _))

theorem compileLoopGroup_same
    (he : Reordered SameEdge edges edges') (hg : ReorderedGroupV3 group group') :
    SameReport kept (compileLoopGroup nodes edges group).errors
        (compileLoopGroup nodes' edges' group').errors ∧
      (compileLoopGroup nodes edges group).value =
        (compileLoopGroup nodes' edges' group').value := by
  obtain ⟨members, hperm, rfl⟩ := hg
  obtain ⟨herrors, hmembers⟩ := readMembers_same h hperm
  constructor
  · have hid : group.id = ({ group with nodes := members } : LoopGroupDeclarationV3).id := rfl
    have hundeclared := fun outcome label field code =>
      undeclaredLoopOutcome_same h hid hmembers outcome label field code
    unfold compileLoopGroup
    dsimp only
    rw [← hundeclared, ← hundeclared]
    exact (((((((SameReport.refl _).append herrors).append (.refl _)).append (.refl _)).append
      (.refl _)).append (.refl _)).append (.refl _)).append
        (continuationOutside_same he rfl hmembers _)
  · simp only [compileLoopGroup, sortText_eq_of_perm hmembers]

theorem compileLoopGroups_same
    (he : Reordered SameEdge edges edges') {groups groups' : List LoopGroupDeclarationV3}
    (hg : Reordered ReorderedGroupV3 groups groups') (hn : (groups.map (·.id)).Nodup) :
    SameReport kept (compileLoopGroups nodes edges groups).errors
        (compileLoopGroups nodes' edges' groups').errors ∧
      (compileLoopGroups nodes edges groups).value =
        (compileLoopGroups nodes' edges' groups').value := by
  have hn' := (hg.map_perm fun _ _ hr => hr.id_eq).nodup_iff.1 hn
  have hindexed := indexedGroups_same hg hn
  unfold compileLoopGroups
  dsimp only
  rw [duplicateLoopGroups_eq_nil.2 hn, duplicateLoopGroups_eq_nil.2 hn', flatMap_map,
    flatMap_map, map_map, map_map]
  constructor
  · exact (SameReport.refl []).append
      (SameReport.flatMap hindexed fun _ _ hr => (compileLoopGroup_same h he hr).1)
  · exact (forall₂_map_eq hindexed fun _ _ hr => (compileLoopGroup_same h he hr).2.symm).symm

end

end LoopGroups

section Body
variable {kept : Prop} {host : DigestHost} {options : CompileOptions}
variable {e e' : CompiledPlanExecutability}

inductive SameExecutability (kept : Prop) :
    CompiledPlanExecutability → CompiledPlanExecutability → Prop
  | executable : SameExecutability kept .executable .executable
  | draft {unresolved unresolved' : List CompiledUnresolvedRequirement}
    (unauthorized : List CompiledUnauthorizedCompletion)
    (h : SameUnresolved kept unresolved unresolved') :
    SameExecutability kept (.draft unresolved unauthorized) (.draft unresolved' unauthorized)

structure SameBody (kept : Prop) (body body' : CompiledPlanBody) : Prop where
  rest : body' = { body with executability := body'.executability }
  executability : SameExecutability kept body.executability body'.executability

theorem executabilityOf_same {unresolved unresolved' : List CompiledUnresolvedRequirement}
    (h : SameUnresolved kept unresolved unresolved')
    (unauthorized : List CompiledUnauthorizedCompletion) :
    SameExecutability kept (executabilityOf unresolved unauthorized)
      (executabilityOf unresolved' unauthorized) := by
  have hempty : unresolved = [] ↔ unresolved' = [] := by
    rw [← length_eq_zero_iff, ← length_eq_zero_iff, h.perm.length_eq]
  unfold executabilityOf
  simp only [hempty]
  split
  · exact .executable
  · exact .draft _ h

theorem planBodyOf_same {compiled compiled' : List NodeCompilation}
    (h : Forall₂ (SameNode kept) compiled compiled') (graphId : String)
    (budget : Option RunBudgetSpec) (bindings : ContractBindings) (edges : List CompiledEdge)
    (loopGroups : List CompiledLoopGroup) :
    SameBody kept (planBodyOf graphId budget compiled bindings edges loopGroups)
      (planBodyOf graphId budget compiled' bindings edges loopGroups) := by
  have hnodes : compiled.map (·.node) = compiled'.map (·.node) :=
    (forall₂_map_eq h fun _ _ hr => hr.node.symm).symm
  have hused : usedPoliciesOf compiled = usedPoliciesOf compiled' := by
    unfold usedPoliciesOf
    rw [forall₂_flatMap_eq h fun _ _ hr => congrArg CompletionGrant.usedPolicies hr.grant]
  have hgranted : compiled.flatMap (·.grant.authorizations) =
      compiled'.flatMap (·.grant.authorizations) :=
    forall₂_flatMap_eq h fun _ _ hr => congrArg CompletionGrant.authorizations hr.grant
  have hungranted : compiled.flatMap (·.grant.unauthorized) =
      compiled'.flatMap (·.grant.unauthorized) :=
    forall₂_flatMap_eq h fun _ _ hr => congrArg CompletionGrant.unauthorized hr.grant
  have hunresolved : SameUnresolved kept (compiled.flatMap (·.unresolved))
      (compiled'.flatMap (·.unresolved)) := by
    constructor
    · exact ((Reordered.of_forall₂ h).flatMap fun _ _ hr => .of_perm hr.unresolved.perm).perm
    · exact fun hk => forall₂_flatMap_eq h fun _ _ hr => hr.unresolved.order hk
  unfold planBodyOf
  rw [hnodes, hused, hgranted, hungranted]
  exact ⟨rfl, executabilityOf_same hunresolved _⟩

theorem readPlanBody_same {declaration declaration' : GraphDeclarationV3}
    (h : ReorderedV3 kept declaration declaration') (hd : DeclaredOnce declaration) :
    SameReport kept (readPlanBody host declaration options).errors
        (readPlanBody host declaration' options).errors ∧
      SameBody kept (readPlanBody host declaration options).value
        (readPlanBody host declaration' options).value := by
  have hd' := hd.reordered h
  have hnodes := indexedNodes_same h hd
  have houtcomes : ∀ node ∈ indexedNodes declaration, (declaredOutcomeIds node).Nodup :=
    fun node hn => hd.outcomes node (mem_of_indexedNodes hn)
  have hnone := duplicateNodes_eq_nil.2 hd.nodes
  have hnone' := duplicateNodes_eq_nil.2 hd'.nodes
  have hedges : Reordered SameEdge (readEdges declaration) (readEdges declaration') := by
    obtain ⟨nodes, edges, groups, -, hperm, -, rfl⟩ := h
    exact readEdges_same hperm
  have hgroups : Reordered ReorderedGroupV3 (declaration.loopGroups.getD [])
      (declaration'.loopGroups.getD []) := by
    obtain ⟨nodes, edges, groups, -, -, hlisted, rfl⟩ := h
    exact ReorderedV3.groups_reordered hlisted
  have hname : declaration.name = declaration'.name ∧
      declaration.completionPolicy = declaration'.completionPolicy ∧
      declaration.budget = declaration'.budget := by
    obtain ⟨nodes, edges, groups, -, -, -, rfl⟩ := h
    exact ⟨rfl, rfl, rfl⟩
  obtain ⟨hname, hpolicy, hbudget⟩ := hname
  have hcompiledEdges := compileEdges_same hnodes hedges fun _ => readEdges_outcome
  have hcompiledGroups := compileLoopGroups_same hnodes hedges hgroups hd.groups
  unfold readPlanBody
  dsimp only
  rw [hnone, hnone', ← hname, ← hpolicy, ← hbudget, ← hcompiledEdges.value, ← hcompiledGroups.2]
  generalize ({ graphId := _, request := _, reading := _ } : CompletionPolicyContext) = context
  obtain ⟨hcompiled, hbindings⟩ := compileNodes_same host options context hnodes hnodes houtcomes
    ⟨[], []⟩
  rw [← hbindings, forall₂_map_eq hcompiled fun _ _ hr => hr.node.symm]
  refine ⟨?_, planBodyOf_same hcompiled _ _ _ _ _⟩
  exact ((((((SameReport.refl _).append (.refl _)).append (.refl _)).append
    (SameReport.flatMap hcompiled fun _ _ hr => hr.errors)).append
    (.of_forall₂ hcompiledEdges.errors)).append (.refl _)).append hcompiledGroups.1

theorem compileNodes_outcomes {context : CompletionPolicyContext}
    {nodes rest : List NodeDeclarationV3} {bindings : ContractBindings}
    (h : (compileNodes host options context nodes bindings rest).1.flatMap (·.errors) = []) :
    ∀ node ∈ rest, (declaredOutcomeIds node).Nodup := by
  induction rest generalizing bindings with
  | nil => simp
  | cons first rest ih =>
    rw [compileNodes, flatMap_cons] at h
    obtain ⟨hfirst, hrest⟩ := append_eq_nil_iff.1 h
    intro node hn
    rcases mem_cons.1 hn with rfl | hn
    · simp only [compileNode, append_eq_nil_iff] at hfirst
      obtain ⟨⟨⟨⟨⟨⟨⟨⟨houtcomes, -⟩, -⟩, -⟩, -⟩, -⟩, -⟩, -⟩, -⟩ := hfirst
      exact (readOutcomes_nodup houtcomes).1
    · exact ih hrest node hn

theorem readPlanBody_errors {declaration : GraphDeclarationV3}
    (h : (readPlanBody host declaration options).errors = []) : DeclaredOnce declaration := by
  unfold readPlanBody at h
  simp only [append_eq_nil_iff] at h
  obtain ⟨⟨⟨⟨⟨⟨-, hnodes⟩, -⟩, hcompiled⟩, -⟩, -⟩, hgroups⟩ := h
  have hids := duplicateNodes_eq_nil.1 hnodes
  refine ⟨hids, ?_, fun node hn => ?_⟩
  · exact duplicateLoopGroups_eq_nil.1 (append_eq_nil_iff.1 hgroups).1
  · exact compileNodes_outcomes hcompiled node (mem_indexedNodes hids hn)

section

variable (h : SameExecutability kept e e')
include h

theorem SameExecutability.executable_iff : e = .executable ↔ e' = .executable := by
  cases h <;> simp

theorem SameExecutability.eq_of_kept (hk : kept) : e = e' := by
  cases h with
  | executable => rfl
  | draft unauthorized hs => rw [hs.order hk]

theorem SameExecutability.readable_eq : isReadableExecutability e = isReadableExecutability e' := by
  cases h with
  | executable => rfl
  | draft unauthorized hs =>
    have hall := (Reordered.of_perm hs.perm).all_eq
      (p := fun entry => entry.nodeId ≠ "" ∧ entry.outcomeId ≠ "" ∧ entry.validator ≠ "")
      (q := fun entry => entry.nodeId ≠ "" ∧ entry.outcomeId ≠ "" ∧ entry.validator ≠ "")
      fun _ _ he => by rw [he]
    have hempty : ∀ l l' : List CompiledUnresolvedRequirement, l.Perm l' →
        l.isEmpty = l'.isEmpty := by
      intro l l' hperm
      rw [Bool.eq_iff_iff, isEmpty_iff_length_eq_zero, isEmpty_iff_length_eq_zero, hperm.length_eq]
    simp only [isReadableExecutability, hall, hempty _ _ hs.perm]

end

theorem inspectAuthorizations_executability (body : CompiledPlanBody)
    (e : CompiledPlanExecutability) (seen : List String)
    (entries : List CompiledCompletionAuthorization) :
    inspectAuthorizations host { body with executability := e } seen entries =
      inspectAuthorizations host body seen entries := by
  induction entries generalizing seen with
  | nil => rfl
  | cons entry entries ih =>
    rw [inspectAuthorizations, inspectAuthorizations, ih, ih]
    rfl

theorem inspectCompiledTopology_same {body body' : CompiledPlanBody} (h : SameBody kept body body') :
    inspectCompiledTopology host body = inspectCompiledTopology host body' := by
  have hexec := h.executability.executable_iff
  have hread := h.executability.readable_eq
  rw [h.rest]
  unfold inspectCompiledTopology inspectExecutability
  simp only [hexec, hread, inspectAuthorizations_executability]
  rfl

end Body

section Digest
variable {kept : Prop} {sha256 : String → String}

theorem executabilityJson_extent {e e' : CompiledPlanExecutability}
    (h : SameExecutability kept e e') :
    SameExtent (executabilityJson e) (executabilityJson e') := by
  cases h with
  | executable => exact .refl _
  | draft unauthorized hs =>
    have hlisted : SameExtent (.arr (List.map unresolvedJson _)) (.arr (List.map unresolvedJson _)) :=
      .arr ((Reordered.of_perm hs.perm).map fun a b hab => hab ▸ SameExtent.refl (unresolvedJson a))
    exact .obj (.of_forall₂ (.cons ⟨rfl, .refl _⟩ (.cons ⟨rfl, hlisted⟩
      (.cons ⟨rfl, .refl _⟩ .nil))))

theorem planBodyJson_extent {body body' : CompiledPlanBody} (h : SameBody kept body body') :
    SameExtent (planBodyJson body) (planBodyJson body') := by
  have hexec := executabilityJson_extent h.executability
  have hsame : ∀ f : String × Json, f.1 = f.1 ∧ SameExtent f.2 f.2 := fun f => ⟨rfl, .refl f.2⟩
  rw [h.rest]
  apply SameExtent.obj
  apply Reordered.of_forall₂
  refine rel_append (forall₂_same.2 fun f _ => hsame f) ?_
  -- ten fields follow the budget, the executability last
  iterate 9 refine .cons (hsame _) ?_
  exact .cons ⟨rfl, hexec⟩ .nil

end Digest

section Verdict
variable {kept : Prop} {sha256 : String → String} {options : CompileOptions}
variable {body body' : CompiledPlanBody} {once : Prop}

inductive SameVerdict (kept once : Prop) : CompileResult → CompileResult → Prop
  | executable (plan : CompiledPlan) : SameVerdict kept once (.executable plan) (.executable plan)
  | draft {plan plan' : CompiledPlan}
    {unresolved unresolved' : List CompiledUnresolvedRequirement}
    (unauthorized : List CompiledUnauthorizedCompletion)
    (body : plan'.toCompiledPlanBody =
      { plan.toCompiledPlanBody with executability := .draft unresolved' unauthorized })
    (lacking : SameUnresolved kept unresolved unresolved') (revision : kept → plan = plan') :
    SameVerdict kept once (.draft plan unresolved unauthorized)
      (.draft plan' unresolved' unauthorized)
  | failed {errors errors' : List CompileIssue} (report : once → SameReport kept errors errors') :
    SameVerdict kept once (.failed errors) (.failed errors')

def verdictOf : Except String CompileResult → CompileResult
  | .ok result => result
  | .error text => .failed [abortedIssue text]

section

variable (h : SameBody kept body body')
include h

theorem SameBody.eq_of_executability
    (he : body.executability = body'.executability) : body = body' := by
  rw [h.rest, ← he]

theorem SameBody.eq_of_kept (hk : kept) : body = body' :=
  h.eq_of_executability (h.executability.eq_of_kept hk)

theorem succeeded_same {revision revision' : String}
    (hrevision : body = body' → revision = revision') :
    SameVerdict kept once (succeeded { body with planRevision := revision })
      (succeeded { body' with planRevision := revision' }) := by
  have heq := h.eq_of_executability
  have hkept : kept → ({ body with planRevision := revision } : CompiledPlan) =
      { body' with planRevision := revision' } := by
    intro hk
    have hbody := h.eq_of_kept hk
    rw [hrevision hbody, hbody]
  obtain ⟨hrest, hexec⟩ := h
  generalize he : body.executability = e at hexec heq
  generalize he' : body'.executability = e' at hexec heq hrest
  cases hexec with
  | executable =>
    have hbody := heq rfl
    rw [hrevision hbody, hbody]
    simp only [succeeded, he']
    exact .executable _
  | draft unauthorized hs =>
    simp only [succeeded, he, he']
    exact .draft unauthorized hrest hs hkept

theorem createCompiledPlan_same :
    SameVerdict kept once
      (verdictOf ((createCompiledPlan (canonicalHost sha256) body).map succeeded))
      (verdictOf ((createCompiledPlan (canonicalHost sha256) body').map succeeded)) := by
  have hextent := planBodyJson_extent h
  unfold createCompiledPlan canonicalHost
  dsimp only
  cases hd : contractDigest sha256 (planBodyJson body) with
  | ok revision =>
    obtain ⟨revision', hd'⟩ := hextent.digest_isSome hd
    rw [hd']
    apply succeeded_same h
    rintro rfl
    exact Except.ok.inj (hd.symm.trans hd')
  | error text =>
    cases hd' : contractDigest sha256 (planBodyJson body') with
    | ok revision' =>
      obtain ⟨revision, hok⟩ := hextent.symm.digest_isSome hd'
      rw [hd] at hok
      cases hok
    | error text' =>
      exact .failed fun _ => .of_forall₂ (.cons (.aborted text text') .nil)

end

theorem compileDeclaration_same {declaration declaration' : GraphDeclarationV3}
    (h : ReorderedV3 kept declaration declaration') (hd : DeclaredOnce declaration) :
    SameVerdict kept once
      (verdictOf (compileDeclaration (canonicalHost sha256) declaration options))
      (verdictOf (compileDeclaration (canonicalHost sha256) declaration' options)) := by
  obtain ⟨hreport, hbody⟩ :=
    @readPlanBody_same kept (canonicalHost sha256) options declaration declaration' h hd
  have hinspect := @inspectCompiledTopology_same kept (canonicalHost sha256) _ _ hbody
  have hjoins : unsatisfiableJoinsOf
        (readPlanBody (canonicalHost sha256) declaration options).value.toJoinTopology =
      unsatisfiableJoinsOf
        (readPlanBody (canonicalHost sha256) declaration' options).value.toJoinTopology := by
    rw [hbody.rest]
  unfold compileDeclaration
  dsimp only
  rw [← hinspect, ← hjoins]
  by_cases herrors : (readPlanBody (canonicalHost sha256) declaration options).errors = []
  · have herrors' := hreport.eq_nil_iff.1 herrors
    rw [if_neg (not_not.2 herrors), if_neg (not_not.2 herrors')]
    split_ifs
    · exact .failed fun _ => .refl _
    · exact .failed fun _ => .refl _
    · exact createCompiledPlan_same hbody
  · have herrors' := mt hreport.eq_nil_iff.2 herrors
    rw [if_pos herrors, if_pos herrors']
    exact .failed fun _ => hreport

theorem compileDeclaration_repeated {host : DigestHost} {declaration : GraphDeclarationV3}
    (h : ¬ DeclaredOnce declaration) :
    ∃ errors, compileDeclaration host declaration options = .ok (.failed errors) := by
  have herrors : (readPlanBody host declaration options).errors ≠ [] := fun hnone =>
    h (readPlanBody_errors hnone)
  unfold compileDeclaration
  simp only [if_pos herrors]
  exact ⟨_, rfl⟩

/-- Whatever the order of its parts, a declaration gets the same verdict, plan and defects. -/
theorem compileGraph_reordered (sha256 : String → String) (options : CompileOptions)
    {raw raw' : Json} (h : ReorderedDeclaration kept raw raw') :
    SameVerdict kept
      (∀ declaration, readGraphDeclarationV3 raw = some declaration → DeclaredOnce declaration)
      (compileGraph (canonicalHost sha256) raw options)
      (compileGraph (canonicalHost sha256) raw' options) := by
  have hread := h.read
  unfold compileGraph
  cases hr : readGraphDeclarationV3 raw <;> cases hr' : readGraphDeclarationV3 raw' <;>
    rw [hr, hr'] at hread
  · exact .failed fun _ => .refl _
  · cases hread
  · cases hread
  next declaration declaration' =>
  have hsame : ReorderedV3 kept declaration declaration' := by
    cases hread with
    | some hsame => exact hsame
  by_cases hd : DeclaredOnce declaration
  · exact compileDeclaration_same hsame hd
  have hd' : ¬ DeclaredOnce declaration' := fun honce => hd (honce.reordered hsame.symm)
  obtain ⟨errors, herrors⟩ :=
    @compileDeclaration_repeated options (canonicalHost sha256) declaration hd
  obtain ⟨errors', herrors'⟩ :=
    @compileDeclaration_repeated options (canonicalHost sha256) declaration' hd'
  simp only [herrors, herrors']
  exact .failed fun honce => absurd (honce declaration rfl) hd

def declareGraph (nodes edges : List Json) : Json :=
  .obj [("version", .num 3), ("name", .str "graph"), ("nodes", .arr nodes), ("edges", .arr edges)]

theorem declareGraph_reordered {nodes nodes' edges edges' : List Json}
    (hnodes : nodes.Perm nodes') (hedges : edges.Perm edges') :
    ReorderedDeclaration kept (declareGraph nodes edges) (declareGraph nodes' edges') := by
  refine ⟨fun name hname => ?_, .inr ⟨nodes, nodes', rfl, rfl, ?_⟩,
    .inr ⟨edges, edges', rfl, rfl, hedges⟩, .inl rfl⟩
  · have hnode : (name == "nodes") = false := by simp_all
    have hedge : (name == "edges") = false := by simp_all
    simp only [declareGraph, Json.field?_obj, lookup_cons, hnode, hedge]
  · exact (Reordered.of_perm hnodes).mono fun a _ b _ hab => hab ▸ ReorderedNode.refl a

/-- Two nodes whose one edge leads on, declared in either order. -/
theorem compileGraph_reordered_pair : let first := nodeJson (plainNode "a" ["done"] none [])
    let second := nodeJson (plainNode "b" ["done"] none [])
    let edge := edgeJson { «from» := "a", «to» := "b", outcome := "done" }
    SameVerdict True
      (∀ declaration, readGraphDeclarationV3 (declareGraph [first, second] [edge]) =
        some declaration → DeclaredOnce declaration)
      (compileGraph (canonicalHost id) (declareGraph [first, second] [edge]) plainOptions)
      (compileGraph (canonicalHost id) (declareGraph [second, first] [edge]) plainOptions) :=
  compileGraph_reordered id plainOptions
    (declareGraph_reordered (.swap _ _ []) (.refl _))

def CompileResult.errors : CompileResult → List CompileIssue
  | .failed errors => errors
  | _ => []

/-- Exchanging two edges between undeclared nodes changes the diagnostics. -/
theorem compileGraph_slots : let first := edgeJson { «from» := "a", «to» := "b", outcome := "done" }
    let second := edgeJson { «from» := "c", «to» := "d", outcome := "done" }
    ReorderedDeclaration True (declareGraph [] [first, second]) (declareGraph [] [second, first]) ∧
      (compileGraph (canonicalHost id) (declareGraph [] [first, second]) plainOptions).errors ≠
        (compileGraph (canonicalHost id) (declareGraph [] [second, first])
          plainOptions).errors := by
  refine ⟨declareGraph_reordered (.refl _) (.swap _ _ []), ?_⟩
  decide +kernel

end Verdict

end Rolebox.Graph
