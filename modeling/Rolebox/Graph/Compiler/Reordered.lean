import Rolebox.Graph.Compiler.Declaration

/-! Declarations that differ only in the order of their parts. -/

namespace Rolebox.Graph
open General

def ReorderedField (R : List Json → List Json → Prop) (name : String) (a b : Json) : Prop :=
  a.field? name = b.field? name ∨
    ∃ items items', a.field? name = some (.arr items) ∧ b.field? name = some (.arr items') ∧
      R items items'

def ReorderedOutcomes (kept : Prop) (outcomes outcomes' : List Json) : Prop :=
  outcomes.Perm outcomes' ∧ (kept → outcomes = outcomes')

structure ReorderedNode (kept : Prop) (a b : Json) : Prop where
  rest : ∀ name, name ≠ "outcomes" → a.field? name = b.field? name
  outcomes : ReorderedField (ReorderedOutcomes kept) "outcomes" a b

structure ReorderedGroup (a b : Json) : Prop where
  rest : ∀ name, name ≠ "nodes" → a.field? name = b.field? name
  members : ReorderedField List.Perm "nodes" a b

/-- A declaration with its parts in some order; `kept`: every outcome list keeps its own. -/
structure ReorderedDeclaration (kept : Prop) (a b : Json) : Prop where
  rest : ∀ name, name ∉ ["nodes", "edges", "loop_groups"] → a.field? name = b.field? name
  nodes : ReorderedField (Reordered (ReorderedNode kept)) "nodes" a b
  edges : ReorderedField List.Perm "edges" a b
  loopGroups : ReorderedField (Reordered ReorderedGroup) "loop_groups" a b

def ReorderedNodeV3 (kept : Prop) (node node' : NodeDeclarationV3) : Prop :=
  ∃ outcomes, ReorderedOutcomes kept node.outcomes outcomes ∧
    node' = { node with outcomes := outcomes }

def ReorderedGroupV3 (group group' : LoopGroupDeclarationV3) : Prop :=
  ∃ members, group.nodes.Perm members ∧ group' = { group with nodes := members }

def ReorderedV3 (kept : Prop) (declaration declaration' : GraphDeclarationV3) : Prop :=
  ∃ nodes edges groups, Reordered (ReorderedNodeV3 kept) declaration.nodes nodes ∧
    declaration.edges.Perm edges ∧
    Option.Rel (Reordered ReorderedGroupV3) declaration.loopGroups groups ∧
    declaration' = { declaration with nodes := nodes, edges := edges, loopGroups := groups }

theorem ReorderedNodeV3.id_eq {kept : Prop} {node node' : NodeDeclarationV3}
    (h : ReorderedNodeV3 kept node node') : node.id = node'.id := by
  obtain ⟨outcomes, -, rfl⟩ := h
  rfl

theorem ReorderedGroupV3.refl (group : LoopGroupDeclarationV3) : ReorderedGroupV3 group group :=
  ⟨group.nodes, .refl _, rfl⟩

theorem ReorderedGroupV3.id_eq {group group' : LoopGroupDeclarationV3}
    (h : ReorderedGroupV3 group group') : group.id = group'.id := by
  obtain ⟨members, -, rfl⟩ := h
  rfl

section Reading
variable {kept : Prop} {a b : Json}
variable {α β γ δ : Type} {R : α → β → Prop} {S : γ → δ → Prop} {x : Option α} {y : Option β}

theorem rel_bind {f : α → Option γ} {g : β → Option δ} (h : Option.Rel R x y)
    (hfg : ∀ a b, R a b → Option.Rel S (f a) (g b)) : Option.Rel S (x >>= f) (y >>= g) := by
  cases h with
  | some hr => exact hfg _ _ hr
  | none => exact .none

theorem rel_refl {R : α → α → Prop} (h : ∀ a, R a a) (x : Option α) : Option.Rel R x x := by
  cases x with
  | some a => exact .some (h a)
  | none => exact .none

theorem rel_map {f : α → γ} {g : β → δ} (h : Option.Rel R x y)
    (hfg : ∀ a b, R a b → S (f a) (g b)) : Option.Rel S (x.map f) (y.map g) := by
  cases h with
  | some hr => exact .some (hfg _ _ hr)
  | none => exact .none

theorem rel_swap {S : β → α → Prop} (h : Option.Rel R x y) (hRS : ∀ a b, R a b → S b a) :
    Option.Rel S y x := by
  cases h with
  | some hr => exact .some (hRS _ _ hr)
  | none => exact .none

theorem rel_bind_same (x : Option α) {f : α → Option γ} {g : α → Option δ}
    (hfg : ∀ a, Option.Rel S (f a) (g a)) : Option.Rel S (x >>= f) (x >>= g) := by
  cases x with
  | some a => exact hfg a
  | none => exact .none

theorem ReorderedField.arr {R : List Json → List Json → Prop} {name : String}
    (h : ReorderedField R name a b) (hrefl : ∀ items, R items items) :
    Option.Rel R ((a.field? name).bind Json.arr?) ((b.field? name).bind Json.arr?) := by
  rcases h with h | ⟨items, items', ha, hb, hR⟩
  · rw [h]
    cases (b.field? name).bind Json.arr? with
    | some items => exact .some (hrefl items)
    | none => exact .none
  · rw [ha, hb]
    exact .some hR

theorem ReorderedOutcomes.refl (outcomes : List Json) : ReorderedOutcomes kept outcomes outcomes :=
  ⟨.refl _, fun _ => rfl⟩

theorem ReorderedNode.refl (a : Json) : ReorderedNode kept a a := ⟨fun _ _ => rfl, .inl rfl⟩

theorem ReorderedNode.read (h : ReorderedNode kept a b) :
    Option.Rel (ReorderedNodeV3 kept) (readNodeDeclarationV3 a) (readNodeDeclarationV3 b) := by
  have houtcomes := h.outcomes.arr ReorderedOutcomes.refl
  unfold readNodeDeclarationV3 guardedArray guardedField
  simp only [h.rest "id" (by decide), h.rest "inputs" (by decide), h.rest "tools" (by decide),
    h.rest "toolPresentation" (by decide), h.rest "agent" (by decide),
    h.rest "prompt" (by decide), h.rest "completion" (by decide),
    h.rest "contractRef" (by decide), h.rest "join" (by decide), h.rest "budget" (by decide)]
  refine rel_bind_same _ fun id => rel_bind_same _ fun inputs => rel_bind_same _ fun tools =>
    rel_bind_same _ fun presentation => rel_bind_same _ fun agent => rel_bind_same _ fun prompt =>
    rel_bind houtcomes fun outcomes outcomes' hR => rel_bind_same _ fun completion =>
    rel_bind_same _ fun contractRef => rel_bind_same _ fun join => rel_bind_same _ fun budget => ?_
  exact .some ⟨outcomes', hR, rfl⟩

theorem ReorderedGroup.read (h : ReorderedGroup a b) :
    Option.Rel ReorderedGroupV3 (readLoopGroupDeclarationV3 a) (readLoopGroupDeclarationV3 b) := by
  have hmembers := h.members.arr List.Perm.refl
  unfold readLoopGroupDeclarationV3
  simp only [h.rest "id" (by decide), h.rest "max_traversals" (by decide),
    h.rest "continuation_outcome" (by decide), h.rest "exit_outcome" (by decide),
    h.rest "progress" (by decide)]
  refine rel_bind_same _ fun id => rel_bind hmembers fun members members' hR => ?_
  exact .some ⟨members', hR, rfl⟩

/-- The loop groups of a declaration that may list none. -/
def listedGroups : Option Json → Option (Option (List LoopGroupDeclarationV3))
  | none => some none
  | some raw => (raw.arr?.bind (List.mapM readLoopGroupDeclarationV3)).map some

theorem ReorderedDeclaration.read (h : ReorderedDeclaration kept a b) :
    Option.Rel (ReorderedV3 kept) (readGraphDeclarationV3 a) (readGraphDeclarationV3 b) := by
  have hnodes := rel_bind (h.nodes.arr fun _ => Reordered.refl fun _ _ => ReorderedNode.refl _)
    fun items items' hR => hR.mapM fun _ _ => ReorderedNode.read
  have hedges := rel_bind (h.edges.arr List.Perm.refl) fun items items' hR =>
    (Reordered.of_perm hR).mapM (f := readEdgeDeclarationV3) (g := readEdgeDeclarationV3)
      (S := Eq) fun x y hxy => by
        subst hxy
        cases readEdgeDeclarationV3 x with
        | some edge => exact .some rfl
        | none => exact .none
  have hgroups : Option.Rel (Option.Rel (Reordered ReorderedGroupV3))
      (listedGroups (a.field? "loop_groups")) (listedGroups (b.field? "loop_groups")) := by
    rcases h.loopGroups with hsame | ⟨items, items', ha, hb, hR⟩
    · rw [hsame]
      apply rel_refl
      intro groups
      apply rel_refl
      exact fun listed => Reordered.refl fun _ _ => ReorderedGroupV3.refl _
    · rw [ha, hb]
      exact rel_map (hR.mapM fun _ _ => ReorderedGroup.read) fun _ _ hread => .some hread
  unfold readGraphDeclarationV3 guardedField
  simp only [h.rest "version" (by decide), h.rest "name" (by decide),
    h.rest "completion_policy" (by decide), h.rest "budget" (by decide)]
  refine rel_bind_same _ fun version => ?_
  split
  · exact .none
  refine rel_bind_same _ fun name => rel_bind hnodes fun nodes nodes' hn =>
    rel_bind hedges fun edges edges' he => ?_
  -- the rest of the reading is repeated in both branches of the loop groups
  cases hga : a.field? "loop_groups" <;> cases hgb : b.field? "loop_groups" <;>
    rw [hga, hgb] at hgroups <;>
    exact rel_bind hgroups fun groups groups' hg => rel_bind_same _ fun policy =>
      .some ⟨nodes', edges', groups', hn, he.perm, hg, rfl⟩

end Reading

end Rolebox.Graph
