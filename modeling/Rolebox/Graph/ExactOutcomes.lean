import Rolebox.Graph.Compiler.WellFormed

/-! Terminal outcomes, feeders and entry nodes, against their definition over pairs. -/

namespace Rolebox.Graph
open General List

section Reference
variable (plan : JoinTopology)

def Routes (nodeId outcome : String) : Prop :=
  ∃ edge ∈ plan.edges, edge.from = nodeId ∧ edge.outcome = outcome

/-- The route on which a member of a loop group asks for another round. -/
def Continuation (edge : CompiledEdge) : Prop :=
  ∃ group ∈ plan.loopGroups, edge.outcome = group.continuationOutcome ∧
    edge.from ∈ group.nodes ∧ edge.to ∈ group.nodes

def Feeds (source targetId : String) : Prop :=
  ∃ edge ∈ plan.edges, edge.from = source ∧ edge.to = targetId ∧ ¬ Continuation plan edge

end Reference

/-- The sets the plan's readers derive from joined keys are the sets of the pairs. -/
structure ExactOutcomes (plan : CompiledPlan) : Prop where
  terminals : ∀ nodeId outcome, ⟨nodeId, outcome⟩ ∈ plan.terminalOutcomes ↔
    plan.declaresOutcome nodeId outcome = true ∧ ¬ Routes plan nodeId outcome
  feeders : ∀ source targetId, source ∈ plan.feederSourcesOf targetId ↔
    Feeds plan source targetId
  entries : ∀ node ∈ plan.nodes, node ∈ plan.entryNodesOf ↔
    ∀ source, ¬ Feeds plan source node.id

/-- Which names may read the same once they are joined: none where one is routed only. -/
structure LegibleNames (plan : CompiledPlan) : Prop where
  outcomes : ∀ nodeId outcome nodeId' outcome',
    plan.declaresOutcome nodeId outcome = true → plan.declaresOutcome nodeId' outcome' = true →
    pairKey nodeId outcome = pairKey nodeId' outcome' → (nodeId, outcome) ≠ (nodeId', outcome') →
    Routes plan nodeId outcome ∧ Routes plan nodeId' outcome'
  edges : ∀ edge ∈ plan.edges, ¬ Continuation plan edge →
    ∃ twin ∈ plan.edges, twin.from = edge.from ∧ twin.to = edge.to ∧
      ¬ Continuation plan twin ∧
      ∀ loop ∈ plan.edges, Continuation plan loop →
        edgeKey loop.from loop.to loop.outcome ≠ edgeKey twin.from twin.to twin.outcome

section Terminals
variable {bound : List String}

def takePair (bound : List String) (acc : List String × List CompiledTerminalOutcome)
    (pair : String × String) : List String × List CompiledTerminalOutcome :=
  let key := pairKey pair.1 pair.2
  if key ∈ bound ∨ key ∈ acc.1 then acc
  else (acc.1 ++ [key], acc.2 ++ [⟨pair.1, pair.2⟩])

structure TakenPairs (bound : List String) (pairs : List (String × String))
    (acc : List String × List CompiledTerminalOutcome) : Prop where
  keys : acc.1 = acc.2.map fun entry => pairKey entry.nodeId entry.outcome
  nodup : acc.1.Nodup
  listed : ∀ entry ∈ acc.2, (entry.nodeId, entry.outcome) ∈ pairs
  unbound : ∀ key ∈ acc.1, key ∉ bound
  covered : ∀ pair ∈ pairs, pairKey pair.1 pair.2 ∉ bound → pairKey pair.1 pair.2 ∈ acc.1

theorem TakenPairs.take {pairs : List (String × String)}
    {acc : List String × List CompiledTerminalOutcome} (h : TakenPairs bound pairs acc)
    (pair : String × String) : TakenPairs bound (pairs ++ [pair]) (takePair bound acc pair) := by
  have hlisted : ∀ entry ∈ acc.2, (entry.nodeId, entry.outcome) ∈ pairs ++ [pair] :=
    fun entry hentry => mem_append_left _ (h.listed entry hentry)
  unfold takePair
  by_cases hpassed : pairKey pair.1 pair.2 ∈ bound ∨ pairKey pair.1 pair.2 ∈ acc.1
  · simp only [hpassed, if_true]
    refine ⟨h.keys, h.nodup, hlisted, h.unbound, ?_⟩
    intro other hother hfree
    rcases mem_append.1 hother with hold | hnew
    · exact h.covered other hold hfree
    · rw [mem_singleton.1 hnew] at hfree ⊢
      exact hpassed.resolve_left hfree
  · simp only [hpassed, if_false]
    rw [not_or] at hpassed
    refine ⟨?_, ?_, ?_, ?_, ?_⟩
    · simp [h.keys]
    · rw [nodup_append]
      refine ⟨h.nodup, nodup_singleton _, ?_⟩
      intro key hkey other hother
      rw [mem_singleton.1 hother]
      exact fun heq => hpassed.2 (heq ▸ hkey)
    · intro entry hentry
      rcases mem_append.1 hentry with hold | hnew
      · exact hlisted entry hold
      · rw [mem_singleton.1 hnew]
        simp
    · intro key hkey
      rcases mem_append.1 hkey with hold | hnew
      · exact h.unbound key hold
      · rw [mem_singleton.1 hnew]
        exact hpassed.1
    · intro other hother hfree
      rcases mem_append.1 hother with hold | hnew
      · exact mem_append_left _ (h.covered other hold hfree)
      · rw [mem_singleton.1 hnew]
        simp

theorem takenPairs_foldl (bound : List String) (pairs : List (String × String)) :
    TakenPairs bound pairs (pairs.foldl (takePair bound) ([], [])) := by
  have hstart : TakenPairs bound [] ([], []) := ⟨rfl, nodup_nil, by simp, by simp, by simp⟩
  have hall : ∀ (before : List (String × String)) (acc : List String × List CompiledTerminalOutcome),
      TakenPairs bound before acc → TakenPairs bound (before ++ pairs) (pairs.foldl (takePair bound) acc) := by
    induction pairs with
    | nil =>
      intro before acc h
      simpa using h
    | cons pair pairs ih =>
      intro before acc h
      have hnext := ih (before ++ [pair]) _ (h.take pair)
      simpa using hnext
  simpa using hall [] ([], []) hstart

def declaredPairs (nodes : List CompiledNode) : List (String × String) :=
  (nodes.filter (·.id ≠ "")).flatMap fun node =>
    (sortText (distinct ((node.outcomes.map (·.id)).filter (· ≠ "")))).map fun outcome =>
      (node.id, outcome)

def boundKeys (edges : List CompiledEdge) : List String :=
  (edges.filter fun edge => edge.from ≠ "" ∧ edge.outcome ≠ "").map fun edge =>
    pairKey edge.from edge.outcome

theorem mem_terminalOutcomesOf {nodes : List CompiledNode} {edges : List CompiledEdge}
    {entry : CompiledTerminalOutcome} :
    entry ∈ terminalOutcomesOf nodes edges ↔
      entry ∈ ((declaredPairs nodes).foldl (takePair (boundKeys edges)) ([], [])).2 :=
  (perm_insertionSort _ _).mem_iff

end Terminals

section Exact
variable {plan : CompiledPlan}
variable {nodeId outcome : String} {topology : JoinTopology}

section

variable (hwf : plan.WellFormed)
include hwf

theorem mem_declaredPairs :
    (nodeId, outcome) ∈ declaredPairs plan.nodes ↔ plan.declaresOutcome nodeId outcome = true := by
  unfold declaredPairs JoinTopology.declaresOutcome CompiledNode.declares
  simp only [mem_flatMap, mem_filter, mem_map, mem_sortText, mem_distinct,
    Prod.mk.injEq, any_eq_true, Bool.and_eq_true, decide_eq_true_eq]
  constructor
  · rintro ⟨node, ⟨hnode, -⟩, read, ⟨⟨declared, hdeclared, rfl⟩, -⟩, rfl, rfl⟩
    exact ⟨node, hnode, rfl, declared, hdeclared, rfl⟩
  · rintro ⟨node, hnode, rfl, declared, hdeclared, rfl⟩
    exact ⟨node, ⟨hnode, hwf.nodeId_nonempty node hnode⟩, declared.id,
      ⟨⟨declared, hdeclared, rfl⟩, hwf.outcomeId_nonempty node hnode declared hdeclared⟩, rfl, rfl⟩

theorem declares_of_routes (h : Routes plan nodeId outcome) :
    plan.declaresOutcome nodeId outcome = true := by
  obtain ⟨edge, hedge, rfl, rfl⟩ := h
  exact hwf.edge_outcome edge hedge

theorem mem_boundKeys {key : String} :
    key ∈ boundKeys plan.edges ↔
      ∃ nodeId outcome, Routes plan nodeId outcome ∧ pairKey nodeId outcome = key := by
  unfold boundKeys
  simp only [mem_map, mem_filter, decide_eq_true_eq]
  constructor
  · rintro ⟨edge, ⟨hedge, -⟩, rfl⟩
    exact ⟨edge.from, edge.outcome, ⟨edge, hedge, rfl, rfl⟩, rfl⟩
  · rintro ⟨nodeId, outcome, hroutes, rfl⟩
    have hdeclared := (mem_declaredPairs hwf).2 (declares_of_routes hwf hroutes)
    obtain ⟨edge, hedge, rfl, rfl⟩ := hroutes
    unfold declaredPairs at hdeclared
    simp only [mem_flatMap, mem_filter, mem_map, mem_sortText, mem_distinct,
      Prod.mk.injEq, decide_eq_true_eq] at hdeclared
    obtain ⟨node, ⟨-, hnode⟩, read, ⟨-, hread⟩, heq, rfl⟩ := hdeclared
    exact ⟨edge, ⟨hedge, heq ▸ hnode, hread⟩, rfl⟩

/-- The terminal outcomes have distinct keys and are the unbound keys of the declared pairs. -/
theorem terminals_taken :
    ∃ taken, TakenPairs (boundKeys plan.edges) (declaredPairs plan.nodes) taken ∧
      ∀ entry, entry ∈ plan.terminalOutcomes ↔ entry ∈ taken.2 := by
  refine ⟨_, takenPairs_foldl _ _, ?_⟩
  intro entry
  rw [hwf.terminals]
  exact mem_terminalOutcomesOf

end

theorem LegibleNames.terminals (h : LegibleNames plan) (hwf : plan.WellFormed)
    (nodeId outcome : String) :
    ⟨nodeId, outcome⟩ ∈ plan.terminalOutcomes ↔
      plan.declaresOutcome nodeId outcome = true ∧ ¬ Routes plan nodeId outcome := by
  obtain ⟨taken, htaken, hmem⟩ := terminals_taken hwf
  rw [hmem]
  constructor
  · intro hentry
    have hkey : pairKey nodeId outcome ∈ taken.1 := by
      rw [htaken.keys]
      exact mem_map_of_mem hentry
    refine ⟨(mem_declaredPairs hwf).1 (htaken.listed _ hentry), ?_⟩
    intro hroutes
    exact htaken.unbound _ hkey ((mem_boundKeys hwf).2 ⟨nodeId, outcome, hroutes, rfl⟩)
  · rintro ⟨hdeclared, hunrouted⟩
    -- another declared pair of this key would have to be routed, and so would this one
    have hsame : ∀ nodeId' outcome', plan.declaresOutcome nodeId' outcome' = true →
        pairKey nodeId' outcome' = pairKey nodeId outcome → nodeId' = nodeId ∧ outcome' = outcome := by
      intro nodeId' outcome' hdeclared' hkey
      by_contra hne
      have hpair : (nodeId', outcome') ≠ (nodeId, outcome) := by
        intro heq
        exact hne ⟨congrArg Prod.fst heq, congrArg Prod.snd heq⟩
      exact hunrouted (h.outcomes _ _ _ _ hdeclared' hdeclared hkey hpair).2
    have hfree : pairKey nodeId outcome ∉ boundKeys plan.edges := by
      intro hbound
      obtain ⟨nodeId', outcome', hroutes, hkey⟩ := (mem_boundKeys hwf).1 hbound
      obtain ⟨rfl, rfl⟩ := hsame _ _ (declares_of_routes hwf hroutes) hkey
      exact hunrouted hroutes
    have htook := htaken.covered _ ((mem_declaredPairs hwf).2 hdeclared) hfree
    rw [htaken.keys] at htook
    obtain ⟨entry, hentry, hkey⟩ := mem_map.1 htook
    have hlisted := (mem_declaredPairs hwf).1 (htaken.listed entry hentry)
    obtain ⟨hnode, houtcome⟩ := hsame _ _ hlisted hkey
    rw [← hnode, ← houtcome]
    exact hentry

theorem ExactOutcomes.outcomes (h : ExactOutcomes plan) (hwf : plan.WellFormed)
    {nodeId' outcome' : String} (hdeclared : plan.declaresOutcome nodeId outcome = true)
    (hdeclared' : plan.declaresOutcome nodeId' outcome' = true)
    (hkey : pairKey nodeId outcome = pairKey nodeId' outcome')
    (hne : (nodeId, outcome) ≠ (nodeId', outcome')) : Routes plan nodeId outcome := by
  obtain ⟨taken, htaken, hmem⟩ := terminals_taken hwf
  by_contra hunrouted
  have hentry := (hmem _).1 ((h.terminals nodeId outcome).2 ⟨hdeclared, hunrouted⟩)
  have htook : pairKey nodeId outcome ∈ taken.1 := by
    rw [htaken.keys]
    exact mem_map_of_mem hentry
  by_cases hroutes : Routes plan nodeId' outcome'
  · exact htaken.unbound _ htook ((mem_boundKeys hwf).2 ⟨nodeId', outcome', hroutes, hkey.symm⟩)
  have hentry' := (hmem _).1 ((h.terminals nodeId' outcome').2 ⟨hdeclared', hroutes⟩)
  have hnodup := htaken.nodup
  rw [htaken.keys] at hnodup
  have heq := inj_on_of_nodup_map hnodup hentry hentry' hkey
  exact hne (congrArg (fun entry => (entry.nodeId, entry.outcome)) heq)

theorem mem_feederEdges {edge : CompiledEdge} :
    edge ∈ topology.feederEdges ↔ edge ∈ topology.edges ∧
      ∀ loop ∈ topology.edges, Continuation topology loop →
        edgeKey loop.from loop.to loop.outcome ≠ edgeKey edge.from edge.to edge.outcome := by
  unfold JoinTopology.feederEdges JoinTopology.loopContinuationEdgesOf Continuation
  simp only [mem_filter, mem_flatMap, mem_map, decide_eq_true_eq, not_exists,
    not_and, and_congr_right_iff]
  intro _
  constructor
  · rintro hkeys loop hloop ⟨group, hgroup, houtcome, hfrom, hto⟩
    exact hkeys group hgroup loop ⟨hloop, houtcome, hfrom, hto⟩
  · intro hkeys group hgroup loop hloop
    exact hkeys loop hloop.1 ⟨group, hgroup, hloop.2⟩

theorem feeders_exact_iff :
    (∀ source targetId, source ∈ topology.feederSourcesOf targetId ↔
        Feeds topology source targetId) ↔
      ∀ edge ∈ topology.edges, ¬ Continuation topology edge →
        ∃ twin ∈ topology.edges, twin.from = edge.from ∧ twin.to = edge.to ∧
          ¬ Continuation topology twin ∧
          ∀ loop ∈ topology.edges, Continuation topology loop →
            edgeKey loop.from loop.to loop.outcome ≠ edgeKey twin.from twin.to twin.outcome := by
  have hnot : ∀ edge ∈ topology.feederEdges, ¬ Continuation topology edge := by
    intro edge hedge hloop
    obtain ⟨hmem, hkeys⟩ := mem_feederEdges.1 hedge
    exact hkeys edge hmem hloop rfl
  constructor
  · intro h edge hedge hfeeds
    have hsource := (h edge.from edge.to).2 ⟨edge, hedge, rfl, rfl, hfeeds⟩
    obtain ⟨twin, htwin, hto, hfrom⟩ := JoinTopology.mem_feederSourcesOf.1 hsource
    obtain ⟨hmem, hkeys⟩ := mem_feederEdges.1 htwin
    exact ⟨twin, hmem, hfrom, hto, hnot twin htwin, hkeys⟩
  · intro h source targetId
    rw [JoinTopology.mem_feederSourcesOf]
    constructor
    · rintro ⟨edge, hedge, hto, hfrom⟩
      exact ⟨edge, (mem_feederEdges.1 hedge).1, hfrom, hto, hnot edge hedge⟩
    · rintro ⟨edge, hedge, rfl, rfl, hfeeds⟩
      obtain ⟨twin, htwin, hfrom, hto, -, hkeys⟩ := h edge hedge hfeeds
      exact ⟨twin, mem_feederEdges.2 ⟨htwin, hkeys⟩, hto, hfrom⟩

theorem mem_entryNodesOf_iff (h : ∀ source targetId, source ∈ topology.feederSourcesOf targetId ↔
      Feeds topology source targetId) {node : CompiledNode} (hnode : node ∈ topology.nodes) :
    node ∈ topology.entryNodesOf ↔ ∀ source, ¬ Feeds topology source node.id := by
  rw [← JoinTopology.feederSourcesOf_eq_nil hnode, eq_nil_iff_forall_not_mem]
  simp only [h]

/-- A compiled plan reads its outcomes and edges exactly when its names stay apart once joined. -/
theorem exact_outcomes {host : DigestHost} {raw : Json} {options : CompileOptions}
    (hcompiled : (compileGraph host raw options).plan? = some plan) :
    ExactOutcomes plan ↔ LegibleNames plan := by
  have hwf := compileGraph_plan_wellFormed hcompiled
  constructor
  · intro h
    refine ⟨?_, feeders_exact_iff.1 h.feeders⟩
    intro nodeId outcome nodeId' outcome' hdeclared hdeclared' hkey hne
    exact ⟨h.outcomes hwf hdeclared hdeclared' hkey hne,
      h.outcomes hwf hdeclared' hdeclared hkey.symm hne.symm⟩
  · intro h
    have hfeeders := feeders_exact_iff.2 h.edges
    exact ⟨h.terminals hwf, hfeeders, fun node hnode => mem_entryNodesOf_iff hfeeders hnode⟩

end Exact

def clashingTopology : JoinTopology :=
  { nodes := [plainNode "a" ["b\x00c"] none [], plainNode "a\x00b" ["c"] none [],
      plainNode "z" ["ok"] none []]
    edges := [{ «from» := "a\x00b", «to» := "z", outcome := "c" }]
    loopGroups := [] }

def legibleTopology : JoinTopology :=
  { nodes := [plainNode "a" ["b", "c"] none [], plainNode "z" ["ok"] none []]
    edges := [{ «from» := "a", «to» := "z", outcome := "c" }]
    loopGroups := [] }

/-- The unrouted outcome of `a` reads like the routed one of the other node. -/
theorem clashing_not_exact :
    (compileGraph (plainHost "r") (declareTopology "g" clashingTopology) plainOptions).plan? =
      some (plainPlan "g" "r" clashingTopology) ∧
    ¬ ExactOutcomes (plainPlan "g" "r" clashingTopology) := by
  refine ⟨rfl, fun h => ?_⟩
  have hdeclared : (plainPlan "g" "r" clashingTopology).declaresOutcome "a" "b\x00c" = true := by
    decide
  have hunrouted : ¬ Routes clashingTopology "a" "b\x00c" := by
    rintro ⟨edge, hedge, hfrom, -⟩
    rw [mem_singleton.1 hedge] at hfrom
    exact absurd hfrom (by decide)
  have hmissing : (⟨"a", "b\x00c"⟩ : CompiledTerminalOutcome) ∉
      (plainPlan "g" "r" clashingTopology).terminalOutcomes := by decide
  exact hmissing ((h.terminals "a" "b\x00c").2 ⟨hdeclared, hunrouted⟩)

theorem legible_exact : ExactOutcomes (plainPlan "g" "r" legibleTopology) := by
  have hcompiled : (compileGraph (plainHost "r") (declareTopology "g" legibleTopology)
      plainOptions).plan? = some (plainPlan "g" "r" legibleTopology) := rfl
  refine (exact_outcomes hcompiled).2 ⟨?_, ?_⟩
  · have hpairs : ∀ nodeId outcome,
        (plainPlan "g" "r" legibleTopology).declaresOutcome nodeId outcome = true →
        (nodeId, outcome) ∈ [("a", "b"), ("a", "c"), ("z", "ok")] := by
      intro nodeId outcome h
      have hlisted := (mem_declaredPairs (compileGraph_plan_wellFormed hcompiled)).2 h
      have hpairs : declaredPairs (plainPlan "g" "r" legibleTopology).nodes =
          [("a", "b"), ("a", "c"), ("z", "ok")] := by decide
      rwa [hpairs] at hlisted
    have hkeys : ∀ p ∈ [("a", "b"), ("a", "c"), ("z", "ok")],
        ∀ q ∈ [("a", "b"), ("a", "c"), ("z", "ok")], pairKey p.1 p.2 = pairKey q.1 q.2 → p = q := by
      decide
    intro nodeId outcome nodeId' outcome' hdeclared hdeclared' hkey hne
    exact absurd (hkeys _ (hpairs _ _ hdeclared) _ (hpairs _ _ hdeclared') hkey) hne
  · intro edge hedge hfeeds
    refine ⟨edge, hedge, rfl, rfl, hfeeds, ?_⟩
    rintro loop - ⟨group, hgroup, -⟩
    cases hgroup
end Rolebox.Graph
