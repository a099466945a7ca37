import Rolebox.General.Json
import Rolebox.General.Transition

/-! Declaring a graph: its reading, decision and write, interleaved with those of other calls. -/

namespace Rolebox.Graph
open General Function Option

structure GraphDefinitionRecord where
  graphId : String
  declarationDigest : String
  planRevision : String
  declaration : Json
  plan : Json
  recordedAt : Int

abbrev Definitions := String → Option GraphDefinitionRecord

inductive DefinitionWriteResult where
  | recorded
  | preserved (definition : GraphDefinitionRecord)
  | changed (definition : GraphDefinitionRecord)

def DefinitionShape (record : GraphDefinitionRecord) : Prop :=
  record.graphId ≠ "" ∧ record.declarationDigest ≠ "" ∧ record.planRevision ≠ "" ∧
    record.recordedAt.natAbs ≤ 9007199254740991

instance (record : GraphDefinitionRecord) : Decidable (DefinitionShape record) :=
  inferInstanceAs (Decidable (_ ∧ _))

def writeDefinition (definitions : Definitions) (record : GraphDefinitionRecord) (inserts : Bool) :
    Except String (DefinitionWriteResult × Definitions) :=
  if ¬ DefinitionShape record then .error "invalid-record"
  else match definitions record.graphId with
    | some current =>
      if current.declarationDigest = record.declarationDigest ∧
          current.planRevision = record.planRevision then
        .ok (.preserved current, definitions)
      else .ok (.changed current, definitions)
    | none =>
      if inserts then
        .ok (.recorded, update definitions record.graphId (some record))
      else .error "write-rejected"

section Writes
variable {definitions definitions' : Definitions} {record current : GraphDefinitionRecord}
  {inserts : Bool} {result : DefinitionWriteResult}
  (h : writeDefinition definitions record inserts = .ok (result, definitions'))
include h

theorem writeDefinition_ok : DefinitionShape record ∧
    ((∃ current, definitions record.graphId = some current ∧ definitions' = definitions) ∨
      (definitions record.graphId = none ∧
        definitions' = update definitions record.graphId (some record))) := by
  unfold writeDefinition at h
  split at h
  · exact nomatch h
  next hshape =>
  refine ⟨not_not.1 hshape, ?_⟩
  split at h
  · next current hcurrent =>
    refine .inl ⟨current, hcurrent, ?_⟩
    split at h <;> exact (Prod.mk.inj (Except.ok.inj h)).2.symm
  · next hnone =>
    split at h
    · exact .inr ⟨hnone, (Prod.mk.inj (Except.ok.inj h)).2.symm⟩
    · exact nomatch h

theorem writeDefinition_keeps {graphId : String} (hstored : definitions graphId = some current) :
    definitions' graphId = some current := by
  obtain ⟨-, ⟨-, -, rfl⟩ | ⟨hnone, rfl⟩⟩ := writeDefinition_ok h
  · exact hstored
  · have hne : graphId ≠ record.graphId := fun heq => by
      rw [heq, hnone] at hstored
      exact nomatch hstored
    rw [update_of_ne hne]
    exact hstored

theorem writeDefinition_stores :
    definitions' record.graphId = some ((definitions record.graphId).getD record) := by
  obtain ⟨-, ⟨current, hcurrent, rfl⟩ | ⟨hnone, rfl⟩⟩ := writeDefinition_ok h
  · rw [hcurrent]
    rfl
  · rw [update_self, hnone]
    rfl

end Writes

/-- What the decoder of a stored definition asks of the readers of its two bodies. -/
structure DefinitionReaders where
  parseGraphDeclarationV3 : Json → Option String
  contractDigest : Json → Option String
  readPersistedCompiledPlan : Json → Option (String × String)

structure StoredDefinitionIssue where
  code : String
  path : String

def decodeStoredDefinition (readers : DefinitionReaders) (row : GraphDefinitionRecord) :
    Except StoredDefinitionIssue String :=
  if row.graphId = "" then .error ⟨"malformed-definition", "$.graph_id"⟩
  else if row.declarationDigest = "" then
    .error ⟨"malformed-definition", "$.declaration_digest"⟩
  else if row.planRevision = "" then .error ⟨"malformed-definition", "$.plan_revision"⟩
  else match readers.parseGraphDeclarationV3 row.declaration with
    | none => .error ⟨"malformed-definition", "$.declaration"⟩
    | some name =>
      if name ≠ row.graphId then .error ⟨"malformed-definition", "$.declaration.name"⟩
      else match readers.contractDigest row.declaration with
        | none => .error ⟨"unaddressable-declaration", "$.declaration_digest"⟩
        | some digest =>
          if digest ≠ row.declarationDigest then
            .error ⟨"declaration-changed", "$.declaration_digest"⟩
          else match readers.readPersistedCompiledPlan row.plan with
            | none => .error ⟨"unrunnable-plan", "$.plan"⟩
            | some (graphId, planRevision) =>
              if graphId ≠ row.graphId then .error ⟨"unrunnable-plan", "$.plan"⟩
              else if planRevision ≠ row.planRevision then
                .error ⟨"declaration-changed", "$.plan_revision"⟩
              else .ok planRevision

theorem decodeStoredDefinition_ok {readers : DefinitionReaders} {row : GraphDefinitionRecord}
    {planRevision : String} (h : decodeStoredDefinition readers row = .ok planRevision) :
    row.planRevision = planRevision := by
  unfold decodeStoredDefinition at h
  iterate 10
    split at h
    · exact nomatch h
  · next hsame =>
    obtain rfl := Except.ok.inj h
    exact (not_not.1 hsame).symm

inductive ExistingDeclaredGraph where
  | absent
  | declared (planRevision : String)
  | unreadable

/-- Read the store's definition for a graph id, unless this build may not read the store. -/
def readExistingDeclaredGraph (readers : DefinitionReaders) (definitions : Definitions)
    (readable : Bool) (graphId : String) : ExistingDeclaredGraph :=
  if !readable then .unreadable
  else match definitions graphId with
    | none => .absent
    | some row =>
      match decodeStoredDefinition readers row with
      | .ok planRevision => .declared planRevision
      | .error _ => .unreadable

structure DeclaredOutcomeGraph where
  graphId : String
  declarationDigest : String
  planRevision : String
  declaration : Json
  record : Json

def DeclaredOutcomeGraph.row (graph : DeclaredOutcomeGraph) (now : Int) : GraphDefinitionRecord :=
  { graphId := graph.graphId
    declarationDigest := graph.declarationDigest
    planRevision := graph.planRevision
    declaration := graph.declaration
    plan := graph.record
    recordedAt := now }

inductive DeclareRefusal where
  | persistedStateUnreadable
  | declarationChanged
  deriving DecidableEq

inductive GraphDeclareAnswer where
  | refused (code : DeclareRefusal)
  | result (planRevision : String) (persisted preserved : Bool)
  deriving DecidableEq

/-- Where a call of `graph_declare` stands once its declaration is compiled. -/
inductive DeclarePhase where
  | checking
  | reading
  | writing
  | answered (answer : GraphDeclareAnswer)
  deriving DecidableEq

structure DeclareCall where
  graph : DeclaredOutcomeGraph
  storeDirectory : Bool
  phase : DeclarePhase

inductive StoreOpening where
  | refused
  | opened (inserts : Bool)

def persistDeclaredGraph (graph : DeclaredOutcomeGraph) (storeDirectory : Bool) (now : Int)
    (opening : StoreOpening) (definitions : Definitions) : Bool × Definitions :=
  if !storeDirectory then (false, definitions)
  else match opening with
    | .refused => (false, definitions)
    | .opened inserts =>
      match writeDefinition definitions (graph.row now) inserts with
      | .ok (_, definitions) => (true, definitions)
      | .error _ => (false, definitions)

structure DeclareDesk where
  definitions : Definitions
  calls : Nat → Option DeclareCall

inductive DeclareEvent where
  | call (i : Nat) (graph : DeclaredOutcomeGraph) (storeDirectory : Bool)
  | check (i : Nat) (retired : Bool)
  | read (i : Nat) (readable : Bool)
  | write (i : Nat) (now : Int) (opening : StoreOpening)

namespace DeclareDesk

def goto (s : DeclareDesk) (i : Nat) (call : DeclareCall) (phase : DeclarePhase) : DeclareDesk :=
  { s with calls := update s.calls i (some { call with phase := phase }) }

def afterRead (graph : DeclaredOutcomeGraph) : ExistingDeclaredGraph → DeclarePhase
  | .unreadable => .answered (.refused .persistedStateUnreadable)
  | .declared planRevision =>
    if planRevision ≠ graph.planRevision then .answered (.refused .declarationChanged)
    else .answered (.result graph.planRevision true true)
  | .absent => .writing

def step (readers : DefinitionReaders) (s : DeclareDesk) : DeclareEvent → Option DeclareDesk
  | .call i graph storeDirectory =>
    match s.calls i with
    | some _ => none
    | none => some { s with calls := update s.calls i (some ⟨graph, storeDirectory, .checking⟩) }
  | .check i retired => do
    let call ← s.calls i
    if call.phase ≠ .checking then none
    else if retired then some (s.goto i call (.answered (.refused .persistedStateUnreadable)))
    else some (s.goto i call .reading)
  | .read i readable => do
    let call ← s.calls i
    if call.phase ≠ .reading then none
    else if !call.storeDirectory then some (s.goto i call .writing)
    else some (s.goto i call (afterRead call.graph
      (readExistingDeclaredGraph readers s.definitions readable call.graph.graphId)))
  | .write i now opening => do
    let call ← s.calls i
    if call.phase ≠ .writing then none
    else
      let written := persistDeclaredGraph call.graph call.storeDirectory now opening s.definitions
      some ({ s with definitions := written.2 }.goto i call
        (.answered (.result call.graph.planRevision written.1 false)))

end DeclareDesk

section Law
variable {readers : DefinitionReaders} {s s' : DeclareDesk} {event : DeclareEvent}

/-- A call that answers persisted names the revision its graph is stored at. -/
def DeclaredMeansStored (s : DeclareDesk) : Prop :=
  ∀ i call planRevision preserved, s.calls i = some call →
    call.phase = .answered (.result planRevision true preserved) →
    planRevision = call.graph.planRevision ∧
      ∃ definition, s.definitions call.graph.graphId = some definition ∧
        definition.planRevision = planRevision

def DefinitionsKept (s s' : DeclareDesk) : Prop :=
  ∀ graphId definition, s.definitions graphId = some definition →
    s'.definitions graphId = some definition

/-- The write reaches a store in which another call defined the graph since this call's reading. -/
def Overtaken (s : DeclareDesk) (event : DeclareEvent) : Prop :=
  ∃ i now inserts call definition, event = .write i now (.opened inserts) ∧
    s.calls i = some call ∧ call.phase = .writing ∧ call.storeDirectory = true ∧
    DefinitionShape (call.graph.row now) ∧
    s.definitions call.graph.graphId = some definition ∧
    definition.planRevision ≠ call.graph.planRevision

theorem persistDeclaredGraph_cases (graph : DeclaredOutcomeGraph) (storeDirectory : Bool) (now : Int)
    (opening : StoreOpening) (definitions : Definitions) :
    persistDeclaredGraph graph storeDirectory now opening definitions = (false, definitions) ∨
      ∃ inserts result, opening = .opened inserts ∧ storeDirectory = true ∧
        (persistDeclaredGraph graph storeDirectory now opening definitions).1 = true ∧
        writeDefinition definitions (graph.row now) inserts = .ok (result,
          (persistDeclaredGraph graph storeDirectory now opening definitions).2) := by
  unfold persistDeclaredGraph
  cases storeDirectory with
  | false => exact .inl rfl
  | true =>
    cases opening with
    | refused => exact .inl rfl
    | opened inserts =>
      simp only [Bool.not_true, Bool.false_eq_true, if_false]
      cases hwrite : writeDefinition definitions (graph.row now) inserts with
      | error e => exact .inl rfl
      | ok written => exact .inr ⟨inserts, written.1, rfl, trivial, rfl, hwrite⟩

/-- A call that finds its own revision stored answers it; every other reading answers none. -/
theorem afterRead_persisted {graph : DeclaredOutcomeGraph} {definitions : Definitions}
    {readable preserved : Bool} {planRevision : String}
    (h : DeclareDesk.afterRead graph (readExistingDeclaredGraph readers definitions readable
      graph.graphId) = .answered (.result planRevision true preserved)) :
    planRevision = graph.planRevision ∧ ∃ definition,
      definitions graph.graphId = some definition ∧ definition.planRevision = planRevision := by
  cases hreading : readExistingDeclaredGraph readers definitions readable graph.graphId with
  | absent =>
    rw [hreading] at h
    exact nomatch h
  | unreadable =>
    rw [hreading] at h
    exact nomatch h
  | declared stored =>
    rw [hreading] at h
    unfold DeclareDesk.afterRead at h
    by_cases hsame : stored = graph.planRevision
    · simp only [if_neg (not_not.2 hsame), DeclarePhase.answered.injEq,
        GraphDeclareAnswer.result.injEq] at h
      refine ⟨h.1.symm, ?_⟩
      unfold readExistingDeclaredGraph at hreading
      split at hreading
      · exact nomatch hreading
      split at hreading
      · exact nomatch hreading
      next row hrow =>
      split at hreading
      · next revision hdecoded =>
        obtain rfl := ExistingDeclaredGraph.declared.inj hreading
        exact ⟨row, hrow, (decodeStoredDefinition_ok hdecoded).trans (hsame.trans h.1)⟩
      · exact nomatch hreading
    · simp only [if_pos hsame] at h
      exact nomatch h

/-- Only a write changes definitions, and it stores the call's own row. -/
theorem declare_step_cases (h : DeclareDesk.step readers s event = some s') :
    ∃ i call, s'.calls = update s.calls i (some call) ∧
      (∀ before, s.calls i = some before → ∃ phase, call = { before with phase := phase } ∧
        ∀ answer, before.phase ≠ .answered answer) ∧
      ((s'.definitions = s.definitions ∧ ∀ planRevision preserved,
          call.phase = .answered (.result planRevision true preserved) →
          planRevision = call.graph.planRevision ∧ ∃ definition,
            s.definitions call.graph.graphId = some definition ∧
              definition.planRevision = planRevision) ∨
        ∃ now inserts result, event = .write i now (.opened inserts) ∧
          (∃ before, s.calls i = some before ∧ before.phase = .writing ∧
            before.graph = call.graph ∧ before.storeDirectory = true) ∧
          call.phase = .answered (.result call.graph.planRevision true false) ∧
          writeDefinition s.definitions (call.graph.row now) inserts =
            .ok (result, s'.definitions)) := by
  cases event with
  | call i graph storeDirectory =>
    cases hcall : s.calls i with
    | some before =>
      simp only [DeclareDesk.step, hcall] at h
      exact nomatch h
    | none =>
      simp only [DeclareDesk.step, hcall] at h
      cases h
      exact ⟨i, ⟨graph, storeDirectory, .checking⟩, rfl,
        fun before hbefore => (nomatch hcall.symm.trans hbefore),
        .inl ⟨rfl, nofun⟩⟩
  | check i retired =>
    obtain ⟨call, hcall, hrest⟩ := bind_eq_some_iff.1 h
    by_cases hphase : call.phase = .checking
    · rw [if_neg (not_not.2 hphase)] at hrest
      have hopen : ∀ answer, call.phase ≠ .answered answer := fun answer heq => by
        rw [hphase] at heq
        exact nomatch heq
      cases retired with
      | true | false =>
        cases hrest
        refine ⟨i, _, rfl, fun before hbefore => ?_, .inl ⟨rfl, nofun⟩⟩
        obtain rfl := mem_unique hcall hbefore
        exact ⟨_, rfl, hopen⟩
    · rw [if_pos hphase] at hrest
      exact nomatch hrest
  | read i readable =>
    obtain ⟨call, hcall, hrest⟩ := bind_eq_some_iff.1 h
    by_cases hphase : call.phase = .reading
    · rw [if_neg (not_not.2 hphase)] at hrest
      have hopen : ∀ answer, call.phase ≠ .answered answer := fun answer heq => by
        rw [hphase] at heq
        exact nomatch heq
      have hsame : ∀ phase before, s.calls i = some before → ∃ phase',
          ({ call with phase := phase } : DeclareCall) = { before with phase := phase' } ∧
            ∀ answer, before.phase ≠ .answered answer := fun phase before hbefore => by
        obtain rfl := mem_unique hcall hbefore
        exact ⟨phase, rfl, hopen⟩
      by_cases hroot : call.storeDirectory = true
      · rw [hroot] at hrest
        cases hrest
        refine ⟨i, _, rfl, hsame _, .inl ⟨rfl, fun planRevision preserved heq => ?_⟩⟩
        exact afterRead_persisted heq
      · rw [eq_false_of_ne_true hroot] at hrest
        cases hrest
        exact ⟨i, _, rfl, hsame _, .inl ⟨rfl, nofun⟩⟩
    · rw [if_pos hphase] at hrest
      exact nomatch hrest
  | write i now opening =>
    obtain ⟨call, hcall, hrest⟩ := bind_eq_some_iff.1 h
    by_cases hphase : call.phase = .writing
    · rw [if_neg (not_not.2 hphase)] at hrest
      cases hrest
      refine ⟨i, _, rfl, fun before hbefore => ?_, ?_⟩
      · obtain rfl := mem_unique hcall hbefore
        refine ⟨_, rfl, fun answer heq => ?_⟩
        rw [hphase] at heq
        exact nomatch heq
      · rcases persistDeclaredGraph_cases call.graph call.storeDirectory now opening s.definitions with
          hnot | ⟨inserts, result, rfl, hroot, hpersisted, hwritten⟩
        · refine .inl ⟨congrArg Prod.snd hnot, fun planRevision preserved heq => ?_⟩
          simp only [DeclarePhase.answered.injEq, GraphDeclareAnswer.result.injEq, hnot] at heq
          exact nomatch heq.2.1
        · refine .inr ⟨now, inserts, result, rfl, ⟨call, hcall, hphase, rfl, hroot⟩, ?_, hwritten⟩
          simp only [hpersisted]
    · rw [if_pos hphase] at hrest
      exact nomatch hrest

theorem step_keeps_definitions (h : DeclareDesk.step readers s event = some s') :
    DefinitionsKept s s' := by
  intro graphId definition hstored
  obtain ⟨i, call, -, -, ⟨hsame, -⟩ | ⟨now, inserts, result, -, -, -, hwritten⟩⟩ :=
    declare_step_cases h
  · rw [hsame]
    exact hstored
  · exact writeDefinition_keeps hwritten hstored

theorem step_declared_iff (hlaw : DeclaredMeansStored s)
    (h : DeclareDesk.step readers s event = some s') :
    DeclaredMeansStored s' ↔ ¬ Overtaken s event := by
  have hkept := step_keeps_definitions h
  obtain ⟨i, call, hcalls, hbefore, hwhat⟩ := declare_step_cases h
  constructor
  · rintro hlaw' ⟨j, now, inserts, before, definition, rfl, hwriting, hphase, hroot, hshape, hstored,
      hother⟩
    have hanswer : ∃ call', s'.calls j = some call' ∧ call'.graph = before.graph ∧
        call'.phase = .answered (.result before.graph.planRevision true false) := by
      simp only [DeclareDesk.step, hwriting, bind_eq_bind, bind_some,
        if_neg (not_not.2 hphase)] at h
      cases h
      refine ⟨_, update_self .., rfl, ?_⟩
      have hpersisted : (persistDeclaredGraph before.graph before.storeDirectory now
          (.opened inserts) s.definitions).1 = true := by
        unfold persistDeclaredGraph writeDefinition
        have hrow : s.definitions (before.graph.row now).graphId = some definition := hstored
        simp only [hroot, Bool.not_true, Bool.false_eq_true, if_false, if_neg (not_not.2 hshape), hrow]
        split
        · next hverdict =>
          split at hverdict
          · rfl
          · rfl
        · next hverdict =>
          split at hverdict
          · exact nomatch hverdict
          · exact nomatch hverdict
      simp only [hpersisted]
    obtain ⟨call', hcall', hgraph, hanswered⟩ := hanswer
    obtain ⟨hrevision, definition', hstored', hsame⟩ := hlaw' j call' _ _ hcall' hanswered
    rw [hgraph] at hstored'
    rw [hkept _ _ hstored] at hstored'
    cases hstored'
    exact hother hsame
  · intro hclear j call' planRevision preserved hcall' hanswered
    rw [hcalls] at hcall'
    by_cases hj : j = i
    · subst hj
      rw [update_self] at hcall'
      cases hcall'
      rcases hwhat with ⟨hsame, hread⟩ | ⟨now, inserts, result, rfl, ⟨before, hcall, hphase, hgraph,
        hroot⟩, hpersisted, hwritten⟩
      · rw [hsame]
        exact hread planRevision preserved hanswered
      · have hrevision : call.graph.planRevision = planRevision := by
          rw [hpersisted] at hanswered
          exact (GraphDeclareAnswer.result.inj (DeclarePhase.answered.inj hanswered)).1
        refine ⟨hrevision.symm, _, writeDefinition_stores hwritten, ?_⟩
        cases hstored : s.definitions call.graph.graphId with
        | none =>
          have hfresh : s.definitions (call.graph.row now).graphId = none := hstored
          rw [hfresh]
          exact hrevision
        | some definition =>
          have hold : s.definitions (call.graph.row now).graphId = some definition := hstored
          rw [hold, ← hrevision]
          by_contra hother
          refine hclear ⟨j, now, inserts, before, definition, rfl, hcall, hphase, hroot, ?_, ?_, ?_⟩
          · rw [hgraph]
            exact (writeDefinition_ok hwritten).1
          · rw [hgraph]
            exact hstored
          · rw [hgraph]
            exact hother
    · rw [update_of_ne hj] at hcall'
      obtain ⟨hrevision, definition, hstored, hsame⟩ := hlaw j call' planRevision preserved hcall'
        hanswered
      exact ⟨hrevision, definition, hkept _ _ hstored, hsame⟩

end Law

section Declared
variable {readers : DefinitionReaders} {s₀ s : DeclareDesk} {events : List DeclareEvent}

/-- No stored definition ever changes; while no write is overtaken, a call that answers persisted
leaves the store holding the revision it names. -/
theorem declared_means_stored
    (h : Run (fun s event s' => ¬ Overtaken s event ∧ DeclareDesk.step readers s event = some s')
      s₀ events s) (hidle : ∀ i, s₀.calls i = none) :
    DefinitionsKept s₀ s ∧ DeclaredMeansStored s ∧
      ∀ event s', DeclareDesk.step readers s event = some s' →
        DefinitionsKept s s' ∧ (DeclaredMeansStored s' ↔ ¬ Overtaken s event) := by
  have hinitial : DeclaredMeansStored s₀ := fun i call _ _ hcall _ => by
    rw [hidle i] at hcall
    exact nomatch hcall
  have hboth : DefinitionsKept s₀ s ∧ DeclaredMeansStored s :=
    h.invariant (I := fun s => DefinitionsKept s₀ s ∧ DeclaredMeansStored s)
      (fun s event s' hs hstep => ⟨fun graphId definition hstored =>
        step_keeps_definitions hstep.2 graphId definition (hs.1 graphId definition hstored),
        (step_declared_iff hs.2 hstep.2).2 hstep.1⟩)
      ⟨fun _ _ hstored => hstored, hinitial⟩
  exact ⟨hboth.1, hboth.2, fun event s' hstep =>
    ⟨step_keeps_definitions hstep, step_declared_iff hboth.2 hstep⟩⟩

def declaredAt (planRevision : String) : DeclaredOutcomeGraph :=
  { graphId := "g"
    declarationDigest := "digest of " ++ planRevision
    planRevision := planRevision
    declaration := .obj [("name", .str "g")]
    record := .obj [("planRevision", .str planRevision)] }

def nameReaders : DefinitionReaders :=
  { parseGraphDeclarationV3 := fun declaration => (declaration.field? "name").bind Json.str?
    contractDigest := fun declaration => (declaration.field? "digest").bind Json.str?
    readPersistedCompiledPlan := fun plan =>
      ((plan.field? "planRevision").bind Json.str?).map fun planRevision => ("g", planRevision) }

def emptyDesk : DeclareDesk := ⟨fun _ => none, fun _ => none⟩

def declaresAt (i : Nat) (planRevision : String) : List DeclareEvent :=
  [.call i (declaredAt planRevision) true, .check i false, .read i true]

/-- Two calls that both read the store before either writes. -/
def bothRead (second : String) : List DeclareEvent :=
  declaresAt 0 "p1" ++ declaresAt 1 second ++ [.write 0 1 (.opened true), .write 1 2 (.opened true)]

def bothReadEnd (second : String) : DeclareDesk :=
  ((bothRead second).foldlM (DeclareDesk.step nameReaders) emptyDesk).getD emptyDesk

/-- The second of two declarations answers that it is persisted; the store holds the first one's. -/
theorem declared_not_stored :
    ¬ ∀ (readers : DefinitionReaders) (s₀ s : DeclareDesk) (events : List DeclareEvent),
      Run (fun s event s' => DeclareDesk.step readers s event = some s') s₀ events s →
      (∀ i, s₀.calls i = none) → DeclaredMeansStored s := by
  intro hclaim
  have hrun : (bothRead "p2").foldlM (DeclareDesk.step nameReaders) emptyDesk =
      some (bothReadEnd "p2") := rfl
  have hlaw := hclaim nameReaders emptyDesk _ _ (Run.of_foldlM hrun) fun _ => rfl
  have hanswered : ((bothReadEnd "p2").calls 1).map DeclareCall.phase =
      some (.answered (.result "p2" true false)) := by decide
  have hheld : ((bothReadEnd "p2").definitions "g").map GraphDefinitionRecord.planRevision =
      some "p1" := by decide
  obtain ⟨call, hcall, hphase⟩ := map_eq_some_iff.1 hanswered
  have hgraph : ((bothReadEnd "p2").calls 1).map (fun call => call.graph.graphId) = some "g" := by decide
  rw [hcall] at hgraph
  obtain ⟨-, definition, hstored, hrevision⟩ := hlaw 1 call "p2" false hcall hphase
  have hid : call.graph.graphId = "g" := Option.some.inj hgraph
  rw [hid] at hstored
  rw [hstored, map_some, hrevision] at hheld
  exact absurd (Option.some.inj hheld) (by decide)

theorem declared_means_stored_alike : DeclaredMeansStored (bothReadEnd "p1") := by
  have hclear : ∀ (calls : Nat → Option DeclareCall) (event : DeclareEvent),
      ¬ Overtaken ⟨fun _ => none, calls⟩ event := by
    rintro calls event ⟨_, _, _, _, _, -, -, -, -, -, hstored, -⟩
    exact nomatch hstored
  have hsame : ∀ s : DeclareDesk, (s.calls 1).map (·.graph) = some (declaredAt "p1") →
      (s.definitions "g").map (·.planRevision) = some "p1" →
      ¬ Overtaken s (.write 1 2 (.opened true)) := by
    rintro s hgraph hheld ⟨_, _, _, call, definition, hevent, hcall, -, -, -, hstored, hother⟩
    cases hevent
    rw [hcall, map_some] at hgraph
    rw [Option.some.inj hgraph] at hstored hother
    rw [show s.definitions "g" = some definition from hstored, map_some] at hheld
    exact hother (Option.some.inj hheld)
  have hrun : Run (fun s event s' => ¬ Overtaken s event ∧
      DeclareDesk.step nameReaders s event = some s') emptyDesk (bothRead "p1") (bothReadEnd "p1") :=
    .cons ⟨hclear _ _, rfl⟩ <| .cons ⟨hclear _ _, rfl⟩ <| .cons ⟨hclear _ _, rfl⟩ <|
    .cons ⟨hclear _ _, rfl⟩ <| .cons ⟨hclear _ _, rfl⟩ <| .cons ⟨hclear _ _, rfl⟩ <|
    .cons ⟨hclear _ _, rfl⟩ <| .cons ⟨hsame _ rfl rfl, rfl⟩ <| .nil _
  exact (declared_means_stored hrun fun _ => rfl).2.1

end Declared
end Rolebox.Graph
