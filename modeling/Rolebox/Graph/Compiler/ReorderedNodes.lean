import Rolebox.Graph.Compiler.Nodes
import Rolebox.Graph.Compiler.Reordered

/-! Compiling the nodes of reordered declarations, up to the slots diagnostics name. -/

namespace Rolebox.Graph
open General List

inductive SlotText (slot slot' : Nat) : String → String → Prop
  | text (s : String) : SlotText slot slot' s s
  | slot : SlotText slot slot' (toString slot) (toString slot')
  | append {s s' t t' : String} : SlotText slot slot' s s' → SlotText slot slot' t t' →
    SlotText slot slot' (s ++ t) (s' ++ t')

def abortedIssue (text : String) : CompileIssue :=
  issue .malformedDeclaration
    ("compilation aborted while reading the declaration: " ++ text) "$"

inductive SameDiagnostic : CompileIssue → CompileIssue → Prop
  | renumbered {slot slot' : Nat} (code : CompileErrorCode) {message message' path path' : String}
    (hmessage : SlotText slot slot' message message') (hpath : SlotText slot slot' path path') :
    SameDiagnostic (issue code message path) (issue code message' path')
  | aborted (text text' : String) : SameDiagnostic (abortedIssue text) (abortedIssue text')

theorem SameDiagnostic.refl (found : CompileIssue) : SameDiagnostic found found :=
  @renumbered 0 0 found.code _ _ _ _ (.text found.message) (.text found.path)

theorem SameDiagnostic.code_eq {a b : CompileIssue} (h : SameDiagnostic a b) : a.code = b.code := by
  cases h <;> rfl

structure SameReport (kept : Prop) (found found' : List CompileIssue) : Prop where
  diagnostics : Reordered SameDiagnostic found found'
  codes : kept → found.map (·.code) = found'.map (·.code)

namespace SameReport
variable {kept : Prop} {found found' more more' : List CompileIssue}

theorem refl (found : List CompileIssue) : SameReport kept found found :=
  ⟨.refl fun _ _ => .refl _, fun _ => rfl⟩

theorem of_forall₂ (h : Forall₂ SameDiagnostic found found') : SameReport kept found found' :=
  ⟨.of_forall₂ h, fun _ => (forall₂_map_eq h fun _ _ hr => hr.code_eq.symm).symm⟩

theorem of_code (h : Reordered SameDiagnostic found found') (code : CompileErrorCode)
    (hcode : ∀ a ∈ found, a.code = code) : SameReport kept found found' := by
  have hcode' : ∀ b ∈ found', b.code = code := by
    intro b hb
    obtain ⟨a, ha, hab⟩ := h.exists_left hb
    exact hab.code_eq.symm.trans (hcode a ha)
  refine ⟨h, fun _ => ?_⟩
  rw [eq_replicate_of_mem (l := found.map (·.code)) (a := code) (by simpa using hcode),
    eq_replicate_of_mem (l := found'.map (·.code)) (a := code) (by simpa using hcode'),
    length_map, length_map, h.length_eq]

theorem append (h : SameReport kept found found') (h' : SameReport kept more more') :
    SameReport kept (found ++ more) (found' ++ more') :=
  ⟨h.diagnostics.append h'.diagnostics, fun hk => by
    rw [map_append, map_append, h.codes hk, h'.codes hk]⟩

theorem flatMap {α β : Type} {R : α → β → Prop} {l : List α} {l' : List β}
    {f : α → List CompileIssue} {g : β → List CompileIssue} (h : Forall₂ R l l')
    (hfg : ∀ a b, R a b → SameReport kept (f a) (g b)) :
    SameReport kept (l.flatMap f) (l'.flatMap g) := by
  induction h with
  | nil => exact refl []
  | cons hr _ ih =>
    rw [flatMap_cons, flatMap_cons]
    exact (hfg _ _ hr).append ih

theorem eq_nil_iff (h : SameReport kept found found') : found = [] ↔ found' = [] := by
  have hlength := h.diagnostics.length_eq
  rw [← length_eq_zero_iff, ← length_eq_zero_iff, hlength]

end SameReport

section Outcomes
variable {options : CompileOptions} {slot slot' : Nat}

structure SameReading {α : Type} (a b : Reported α) : Prop where
  errors : Forall₂ SameDiagnostic a.errors b.errors
  value : a.value = b.value

theorem sameIssue {code : CompileErrorCode} {message message' path path' : String}
    (hmessage : SlotText slot slot' message message') (hpath : SlotText slot slot' path path') :
    Forall₂ SameDiagnostic [issue code message path] [issue code message' path'] :=
  .cons (.renumbered code hmessage hpath) .nil

section

variable (site : RequirementSite)

theorem resolveRequirement_slot {path path' : String}
    (hpath : SlotText slot slot' path path') (requirement : CompiledAcceptanceRequirement) :
    SameReading (resolveRequirement options site path requirement)
      (resolveRequirement options site path' requirement) := by
  unfold resolveRequirement
  split
  · exact ⟨.nil, rfl⟩
  split
  · exact ⟨.nil, rfl⟩
  · exact ⟨sameIssue (.text _) hpath, rfl⟩
  · exact ⟨sameIssue (.text _) hpath, rfl⟩
  · exact ⟨sameIssue (.text _) hpath, rfl⟩

theorem readRequirement_slot {base base' : String}
    (hbase : SlotText slot slot' base base') (entry : Json × Nat) :
    SameReading (readRequirement options site base entry)
      (readRequirement options site base' entry) := by
  have hpath : SlotText slot slot' (base ++ "[" ++ toString entry.2 ++ "]")
      (base' ++ "[" ++ toString entry.2 ++ "]") :=
    ((hbase.append (.text _)).append (.text _)).append (.text _)
  unfold readRequirement
  split
  · exact ⟨sameIssue ((((SlotText.text _).append hpath).append (.text _)).append (.text _)) hpath,
      rfl⟩
  · exact resolveRequirement_slot site hpath _

theorem readAcceptance_slot {path path' : String}
    (hpath : SlotText slot slot' path path') (raw : Option Json) :
    SameReading (readAcceptance options site path raw) (readAcceptance options site path' raw) := by
  have hbase : SlotText slot slot' (path ++ ".acceptance") (path' ++ ".acceptance") :=
    hpath.append (.text _)
  unfold readAcceptance
  split
  · exact ⟨.nil, rfl⟩
  · next entries =>
    have hread : Forall₂ SameReading
        (entries.zipIdx.map (readRequirement options site (path ++ ".acceptance")))
        (entries.zipIdx.map (readRequirement options site (path' ++ ".acceptance"))) := by
      rw [forall₂_map_left_iff, forall₂_map_right_iff, forall₂_same]
      exact fun entry _ => readRequirement_slot site hbase entry
    constructor
    · exact rel_flatMap hread fun _ _ hr => hr.errors
    have hacceptance := forall₂_flatMap_eq hread fun _ _ hr =>
      congrArg AcceptanceReading.acceptance hr.value
    have hunresolved := forall₂_flatMap_eq hread fun _ _ hr =>
      congrArg AcceptanceReading.unresolved hr.value
    exact congrArg₂ AcceptanceReading.mk hacceptance hunresolved
  · exact ⟨sameIssue ((((SlotText.text _).append hbase).append (.text _))) hbase, rfl⟩

end

def outcomeIdOf (raw : Json) : Option String := (raw.field? "id").bind Json.text?

def readOutcomeEntry (options : CompileOptions) (graphId nodeId : String) (entry : Json × Nat) :
    Reported OutcomesReading :=
  let path := nodePath nodeId ++ ".outcomes[" ++ toString entry.2 ++ "]"
  if entry.1.isRecord = false then
    ⟨[issue .malformedDeclaration ("outcome at " ++ path ++ " is not an object") path], [], []⟩
  else
    match outcomeIdOf entry.1 with
    | none =>
      ⟨[issue .malformedDeclaration
          ("outcome at " ++ path ++ " has no non-empty string id") path], [], []⟩
    | some id =>
      let data := (entry.1.field? "data").bind readOutcomeData
      let acceptance := readAcceptance options
        { graphId := graphId, nodeId := nodeId, outcomeId := id, data := data } path
        (entry.1.field? "acceptance")
      ⟨(if (entry.1.field? "data").isSome ∧ data = none then
          [issue .malformedDeclaration
            ("data contract at " ++ path ++ ".data is not \x7b schema, version? \x7d")
            (path ++ ".data")]
        else []) ++ acceptance.errors,
        [{ id := id, data := data, acceptance := acceptance.value.acceptance }],
        acceptance.value.unresolved⟩

theorem readOutcomeEntry_ids (graphId nodeId : String) (entry : Json × Nat) :
    (readOutcomeEntry options graphId nodeId entry).value.outcomes.map (·.id) =
      (outcomeIdOf entry.1).toList := by
  obtain ⟨raw, index⟩ := entry
  have hrecord : raw.isRecord = false → outcomeIdOf raw = none := by
    intro hraw
    cases raw <;> first | rfl | cases hraw
  unfold readOutcomeEntry
  dsimp only
  split
  · next hraw => simp [hrecord hraw]
  · split
    · next hid => simp [hid]
    · next id hid => simp [hid]

theorem readOutcomeEntry_slot (graphId nodeId : String) {entry entry' : Json × Nat}
    (h : entry.1 = entry'.1) :
    SameReading (readOutcomeEntry options graphId nodeId entry)
      (readOutcomeEntry options graphId nodeId entry') := by
  obtain ⟨raw, index⟩ := entry
  obtain ⟨raw', index'⟩ := entry'
  cases h
  have hpath : SlotText index index'
      (nodePath nodeId ++ ".outcomes[" ++ toString index ++ "]")
      (nodePath nodeId ++ ".outcomes[" ++ toString index' ++ "]") :=
    ((SlotText.text _).append .slot).append (.text _)
  unfold readOutcomeEntry
  dsimp only
  split
  · exact ⟨sameIssue (((SlotText.text _).append hpath).append (.text _)) hpath, rfl⟩
  split
  · exact ⟨sameIssue (((SlotText.text _).append hpath).append (.text _)) hpath, rfl⟩
  next id _ =>
  have hacceptance := @readAcceptance_slot options index index'
    { graphId := graphId, nodeId := nodeId, outcomeId := id
      data := (raw.field? "data").bind readOutcomeData } _ _ hpath (raw.field? "acceptance")
  constructor
  · apply rel_append _ hacceptance.errors
    split
    · exact sameIssue (((SlotText.text _).append hpath).append (.text _)) (hpath.append (.text _))
    · exact .nil
  · simp only [hacceptance.value]

theorem readOutcomes_eq {graphId nodeId : String} {seen : List String} {index : Nat}
    {raws : List Json} (hn : (raws.filterMap outcomeIdOf).Nodup)
    (hseen : ∀ id ∈ raws.filterMap outcomeIdOf, id ∉ seen) :
    let readings := (raws.zipIdx index).map (readOutcomeEntry options graphId nodeId)
    readOutcomes options graphId nodeId seen index raws =
      ⟨readings.flatMap (·.errors), readings.flatMap (·.value.outcomes),
        readings.flatMap (·.value.unresolved)⟩ := by
  induction raws generalizing seen index with
  | nil => rfl
  | cons raw raws ih =>
    have hrecord : raw.isRecord = false → outcomeIdOf raw = none := by
      intro hraw
      cases raw <;> first | rfl | cases hraw
    rw [zipIdx_cons, map_cons, readOutcomes]
    cases hid : outcomeIdOf raw with
    | none =>
      rw [filterMap_cons_none hid] at hn hseen
      have htail := @ih seen (index + 1) hn hseen
      have hraw : (raw.field? "id").bind Json.text? = none := hid
      by_cases hr : raw.isRecord = false <;>
        simp [readOutcomeEntry, hr, hid, hraw, htail]
    | some id =>
      rw [filterMap_cons_some hid] at hn hseen
      obtain ⟨hfresh, hrest⟩ := nodup_cons.1 hn
      have hr : raw.isRecord ≠ false := by
        intro hraw
        rw [hrecord hraw] at hid
        cases hid
      have htail := @ih (seen ++ [id]) (index + 1) hrest (by
        intro other ho hmem
        rcases mem_append.1 hmem with hmem | hmem
        · exact hseen other (.tail _ ho) hmem
        · exact hfresh (mem_singleton.1 hmem ▸ ho))
      have hnew : id ∉ seen := hseen id (.head _)
      have hraw : (raw.field? "id").bind Json.text? = some id := hid
      simp [readOutcomeEntry, hr, hid, hraw, hnew, htail]

theorem readOutcomes_nodup {graphId nodeId : String} {seen : List String} {index : Nat}
    {raws : List Json} (h : (readOutcomes options graphId nodeId seen index raws).errors = []) :
    (raws.filterMap outcomeIdOf).Nodup ∧ ∀ id ∈ raws.filterMap outcomeIdOf, id ∉ seen := by
  induction raws generalizing seen index with
  | nil => exact ⟨nodup_nil, by simp⟩
  | cons raw raws ih =>
    rw [readOutcomes] at h
    split at h
    · cases h
    split at h
    · cases h
    next id hid =>
    split at h
    · cases h
    next hnew =>
    obtain ⟨hrest, hunseen⟩ := ih (append_eq_nil_iff.1 h).2
    have hhead : outcomeIdOf raw = some id := hid
    rw [filterMap_cons_some hhead]
    refine ⟨nodup_cons.2 ⟨fun hm => ?_, hrest⟩, fun other ho => ?_⟩
    · exact hunseen id hm (mem_append_right _ (mem_singleton.2 rfl))
    · rcases mem_cons.1 ho with rfl | ho
      · exact hnew
      · exact fun hm => hunseen other ho (mem_append_left _ hm)

structure SameUnresolved (kept : Prop) (entries entries' : List CompiledUnresolvedRequirement) :
    Prop where
  perm : entries.Perm entries'
  order : kept → entries = entries'

structure SameOutcomes (kept : Prop) (a b : Reported OutcomesReading) : Prop where
  errors : SameReport kept a.errors b.errors
  outcomes : a.value.outcomes = b.value.outcomes
  unresolved : SameUnresolved kept a.value.unresolved b.value.unresolved

theorem declaredOutcomeIds_perm {kept : Prop} {node node' : NodeDeclarationV3}
    (h : ReorderedNodeV3 kept node node') :
    (declaredOutcomeIds node).Perm (declaredOutcomeIds node') := by
  obtain ⟨outcomes, hperm, rfl⟩ := h
  exact hperm.1.filterMap _

theorem compileOutcomes_same {kept : Prop} {node node' : NodeDeclarationV3} (graphId : String)
    (h : ReorderedNodeV3 kept node node') (hn : (declaredOutcomeIds node).Nodup) :
    SameOutcomes kept (compileOutcomes options graphId node)
      (compileOutcomes options graphId node') := by
  have hn' := (declaredOutcomeIds_perm h).nodup_iff.1 hn
  obtain ⟨outcomes, ⟨hperm, hkept⟩, rfl⟩ := h
  have hread : readOutcomes options graphId node.id [] 0 node.outcomes = _ :=
    readOutcomes_eq hn (by simp)
  have hread' : readOutcomes options graphId node.id [] 0 outcomes = _ :=
    readOutcomes_eq hn' (by simp)
  have hentries : Reordered SameReading
      (node.outcomes.zipIdx.map (readOutcomeEntry options graphId node.id))
      (outcomes.zipIdx.map (readOutcomeEntry options graphId node.id)) :=
    (Reordered.of_perm hperm).zipIdx.map fun _ _ hr => readOutcomeEntry_slot graphId node.id hr
  -- kept in order the two lists are one
  have horder : kept → compileOutcomes options graphId { node with outcomes := outcomes } =
      compileOutcomes options graphId node := fun hk => by rw [← hkept hk]
  refine ⟨⟨?_, fun hk => by rw [horder hk]⟩, ?_, ?_, fun hk => by rw [horder hk]⟩
  · have hfound := hentries.flatMap fun _ _ hr => Reordered.of_forall₂ hr.errors
    unfold compileOutcomes
    rw [hread, hread']
    exact hfound
  · have houtcomes := (hentries.flatMap (f := (·.value.outcomes)) (g := (·.value.outcomes))
      fun _ _ hr => .of_perm (by rw [hr.value])).perm
    have hids : ((node.outcomes.zipIdx.map (readOutcomeEntry options graphId node.id)).flatMap
        (·.value.outcomes)).map (·.id) = declaredOutcomeIds node := by
      rw [map_flatMap, flatMap_map]
      simp only [readOutcomeEntry_ids]
      rw [← filterMap_eq_flatMap_toList]
      change node.outcomes.zipIdx.filterMap (outcomeIdOf ∘ Prod.fst) = _
      rw [← filterMap_map, zipIdx_map_fst]
      rfl
    unfold compileOutcomes
    rw [hread, hread']
    exact sortBy_eq_of_perm houtcomes (hids ▸ hn)
  · have hunresolved := (hentries.flatMap (f := (·.value.unresolved)) (g := (·.value.unresolved))
      fun _ _ hr => .of_perm (by rw [hr.value])).perm
    unfold compileOutcomes
    rw [hread, hread']
    exact hunresolved

end Outcomes

section Nodes
variable {kept : Prop} {nodes nodes' : List NodeDeclarationV3}

section

variable (h : Forall₂ (ReorderedNodeV3 kept) nodes nodes')
include h

theorem forall₂_ids : nodes.map (·.id) = nodes'.map (·.id) :=
  (forall₂_map_eq h fun _ _ hr => hr.id_eq.symm).symm

theorem forall₂_find? (id : String) :
    Option.Rel (ReorderedNodeV3 kept) (nodes.find? (·.id = id)) (nodes'.find? (·.id = id)) := by
  induction h with
  | nil => exact .none
  | @cons node node' _ _ hr _ ih =>
    rw [find?_cons, find?_cons, ← hr.id_eq]
    split
    · exact .some hr
    · exact ih

omit h in
theorem mem_declaredOutcomeIds {node node' : NodeDeclarationV3}
    (h : ReorderedNodeV3 kept node node') (outcome : String) :
    outcome ∈ declaredOutcomeIds node ↔ outcome ∈ declaredOutcomeIds node' :=
  (declaredOutcomeIds_perm h).mem_iff

theorem readInputEntry_same (nodeId entryPath : String) (seen : List String) (entry : Json) :
    readInputEntry nodes nodeId entryPath seen entry =
      readInputEntry nodes' nodeId entryPath seen entry := by
  unfold readInputEntry
  cases hsource : (entry.field? "from").bind Json.text? with
  | none => rfl
  | some source =>
    cases (entry.field? "outcome").bind Json.text? with
    | none => rfl
    | some outcome =>
    have hfind := forall₂_find? h source
    cases hl : nodes.find? (·.id = source) <;> cases hr : nodes'.find? (·.id = source) <;>
      rw [hl, hr] at hfind
    · simp only [hl, hr]
    · cases hfind
    · cases hfind
    · cases hfind with
      | some hnode => simp only [hl, hr, mem_declaredOutcomeIds hnode]

theorem readInputs_same (nodeId : String) (seen : List String) (index : Nat) (entries : List Json) :
    readInputs nodes nodeId seen index entries = readInputs nodes' nodeId seen index entries := by
  induction entries generalizing seen index with
  | nil => rfl
  | cons entry entries ih =>
    simp only [readInputs, readInputEntry_same h, ih]

end

structure SameNode (kept : Prop) (a b : NodeCompilation) : Prop where
  errors : SameReport kept a.errors b.errors
  node : a.node = b.node
  unresolved : SameUnresolved kept a.unresolved b.unresolved
  grant : a.grant = b.grant

variable (host : DigestHost) (options : CompileOptions) (context : CompletionPolicyContext)

theorem compileNode_same (h : Forall₂ (ReorderedNodeV3 kept) nodes nodes')
    (bindings : ContractBindings) {node node' : NodeDeclarationV3}
    (hnode : ReorderedNodeV3 kept node node') (hn : (declaredOutcomeIds node).Nodup) :
    SameNode kept (compileNode host options context nodes bindings node).1
        (compileNode host options context nodes' bindings node').1 ∧
      (compileNode host options context nodes bindings node).2 =
        (compileNode host options context nodes' bindings node').2 := by
  have houtcomes := @compileOutcomes_same options kept node node' context.graphId hnode hn
  obtain ⟨outcomes, ⟨hperm, -⟩, rfl⟩ := hnode
  have hempty : (outcomes = []) = (node.outcomes = []) := by
    rw [← length_eq_zero_iff, ← length_eq_zero_iff, hperm.length_eq]
  refine ⟨⟨?_, ?_, houtcomes.unresolved, ?_⟩, rfl⟩
  · simp only [compileNode, ← houtcomes.outcomes, readInputs_same h, hempty]
    -- only the diagnostics of the outcomes name slots
    exact (((((((houtcomes.errors.append (.refl _)).append (.refl _)).append (.refl _)).append
      (.refl _)).append (.refl _)).append (.refl _)).append (.refl _)).append (.refl _)
  · simp only [compileNode, houtcomes.outcomes, readInputs_same h]
  · simp only [compileNode, houtcomes.outcomes]

theorem compileNodes_same (h : Forall₂ (ReorderedNodeV3 kept) nodes nodes')
    {rest rest' : List NodeDeclarationV3} (hrest : Forall₂ (ReorderedNodeV3 kept) rest rest')
    (hn : ∀ node ∈ rest, (declaredOutcomeIds node).Nodup) (bindings : ContractBindings) :
    Forall₂ (SameNode kept) (compileNodes host options context nodes bindings rest).1
        (compileNodes host options context nodes' bindings rest').1 ∧
      (compileNodes host options context nodes bindings rest).2 =
        (compileNodes host options context nodes' bindings rest').2 := by
  induction hrest generalizing bindings with
  | nil => exact ⟨.nil, rfl⟩
  | cons hr _ ih =>
    obtain ⟨hfirst, hbound⟩ := compileNode_same host options context h bindings hr
      (hn _ (.head _))
    obtain ⟨hothers, hlast⟩ := ih (fun node hm => hn node (.tail _ hm))
      (compileNode host options context nodes bindings _).2
    rw [compileNodes, compileNodes, ← hbound]
    exact ⟨.cons hfirst hothers, hlast⟩

end Nodes

end Rolebox.Graph
