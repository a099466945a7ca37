import Rolebox.Store.Executions

/-! The fence around the create request of a dispatch effect, over any number of hosts. -/

namespace Rolebox.Graph
open General Transaction List

/-- A binding keeps its effect, its generation rises with owners, its execution stays. -/
structure Evolves (row row' : ExecutionBindingRecord) : Prop where
  graphId : row'.graphId = row.graphId
  effectId : row'.effectId = row.effectId
  generation : row.generation ≤ row'.generation
  owner : row'.ownerId ≠ row.ownerId → row.generation < row'.generation
  created : ∀ execution, row.state = .created execution → row'.state = .created execution

structure EvolvesHeld (row row' : ExecutionBindingRecord) : Prop extends Evolves row row' where
  held : row.state.isPending = false → row'.state.isPending = false

instance : Std.Refl Evolves :=
  ⟨fun _ => ⟨rfl, rfl, Nat.le_refl _, fun h => absurd rfl h, fun _ h => h⟩⟩

instance : IsTrans ExecutionBindingRecord Evolves := by
  refine ⟨fun a b c hab hbc => ⟨hbc.graphId.trans hab.graphId, hbc.effectId.trans hab.effectId,
    hab.generation.trans hbc.generation, ?_, fun e h => hbc.created e (hab.created e h)⟩⟩
  intro howner
  by_cases hb : b.ownerId = a.ownerId
  · rw [← hb] at howner
    exact hab.generation.trans_lt (hbc.owner howner)
  · exact (hab.owner hb).trans_le hbc.generation

instance : Std.Refl EvolvesHeld := ⟨fun row => ⟨Std.Refl.refl row, fun h => h⟩⟩

instance : IsTrans ExecutionBindingRecord EvolvesHeld :=
  ⟨fun _ _ _ hab hbc => ⟨IsTrans.trans _ _ _ hab.toEvolves hbc.toEvolves,
    fun h => hbc.held (hab.held h)⟩⟩

def BindingKeys (rows : List ExecutionBindingRecord) : Prop :=
  (rows.map fun row => (row.graphId, row.effectId)).Nodup

def Fenced (E : ExecutionBindingRecord → ExecutionBindingRecord → Prop)
    (rows rows' : List ExecutionBindingRecord) : Prop :=
  Retains E rows rows' ∧ (BindingKeys rows → BindingKeys rows')

instance (E : ExecutionBindingRecord → ExecutionBindingRecord → Prop) [Std.Refl E] :
    Std.Refl (Fenced E) := ⟨fun rows => ⟨Retains.refl rows, fun h => h⟩⟩

instance (E : ExecutionBindingRecord → ExecutionBindingRecord → Prop)
    [IsTrans ExecutionBindingRecord E] : IsTrans (List ExecutionBindingRecord) (Fenced E) :=
  ⟨fun _ _ _ h h' => ⟨h.1.trans h'.1, fun hk => h'.2 (h.2 hk)⟩⟩

theorem Fenced.weaken {rows rows' : List ExecutionBindingRecord}
    (h : Fenced EvolvesHeld rows rows') : Fenced Evolves rows rows' := by
  refine ⟨fun row hrow => ?_, h.2⟩
  obtain ⟨row', hrow', hE⟩ := h.1 row hrow
  exact ⟨row', hrow', hE.toEvolves⟩

section Steps
variable {rows rows' : List ExecutionBindingRecord} {effect : StoreEffectKey}
variable {c : ExecutionBindingRecord → Prop} {f : ExecutionBindingRecord → ExecutionBindingRecord}

theorem BindingKeys.unique (h : BindingKeys rows) {row other : ExecutionBindingRecord}
    (hrow : row ∈ rows) (hother : other ∈ rows) (heff : ofEffect effect row)
    (heff' : ofEffect effect other) : row = other :=
  eq_of_key h hrow hother
    (Prod.ext_iff.2 ⟨heff.1.trans heff'.1.symm, heff.2.trans heff'.2.symm⟩)

theorem readExecution_ok {answer : Option ExecutionBindingRecord}
    (h : readExecution effect rows = .ok (answer, rows')) :
    rows' = rows ∧ ∀ row, answer = some row → row ∈ rows ∧ ofEffect effect row := by
  simp only [readExecution, get_bind] at h
  cases hrow : rows.find? (ofEffect effect) with
  | none =>
    rw [hrow] at h
    obtain ⟨rfl, rfl⟩ := pure_ok.1 h
    exact ⟨rfl, nofun⟩
  | some row =>
    rw [hrow] at h
    obtain ⟨-, hpure⟩ | ⟨-, hthrow⟩ := ite_ok.1 h
    · obtain ⟨rfl, rfl⟩ := pure_ok.1 hpure
      refine ⟨rfl, ?_⟩
      rintro _ ⟨rfl⟩
      exact ⟨mem_of_find?_eq_some hrow, by simpa using find?_some hrow⟩
    · exact (throw_ok.1 hthrow).elim

theorem updateBindings_ok [DecidablePred c] {changed : Nat}
    (h : updateBindings c f rows = .ok (changed, rows')) :
    changed = rows.countP (fun row => c row) ∧ rows' = updateWhere c f rows := by
  simp only [updateBindings, get_bind, set_bind] at h
  exact pure_ok.1 h

theorem readExecution_moves {R : List ExecutionBindingRecord → List ExecutionBindingRecord → Prop}
    [Std.Refl R] (effect : StoreEffectKey) : Moves R (readExecution effect) := by
  intro rows answer rows' h
  rw [(readExecution_ok h).1]
  exact Std.Refl.refl rows

theorem updateWhere_fenced {E : ExecutionBindingRecord → ExecutionBindingRecord → Prop} [Std.Refl E]
    [DecidablePred c] (hE : ∀ row, c row → E row (f row))
    (hkey : ∀ row, (f row).graphId = row.graphId ∧ (f row).effectId = row.effectId)
    (rows : List ExecutionBindingRecord) : Fenced E rows (updateWhere c f rows) := by
  refine ⟨Retains.update fun row _ hc => hE row hc, fun h => ?_⟩
  unfold BindingKeys
  rw [updateWhere_map]
  · exact h
  · exact fun row => Prod.ext_iff.2 (hkey row)

theorem updateBindings_moves {E : ExecutionBindingRecord → ExecutionBindingRecord → Prop}
    [Std.Refl E] [DecidablePred c] (hE : ∀ row, c row → E row (f row))
    (hkey : ∀ row, (f row).graphId = row.graphId ∧ (f row).effectId = row.effectId) :
    Moves (Fenced E) (updateBindings c f) := by
  intro rows changed rows' h
  rw [(updateBindings_ok h).2]
  exact updateWhere_fenced hE hkey rows

theorem recordExecutionRefusal_moves (effect : StoreEffectKey) (kind : ExecutionRefusalKind)
    (ownerId : String) (generation : Nat) (executionId : Option String) (now : Int) :
    Moves (Fenced EvolvesHeld)
      (recordExecutionRefusal effect kind ownerId generation executionId now) := by
  refine Moves.modify fun rows => updateWhere_fenced ?_ ?_ rows
  · exact fun _ _ => ⟨⟨rfl, rfl, Nat.le_refl _, fun h => absurd rfl h, fun _ h => h⟩, fun h => h⟩
  · exact fun _ => ⟨rfl, rfl⟩

theorem insertBinding_moves (row : ExecutionBindingRecord) :
    Moves (Fenced EvolvesHeld) (insertBinding row) := by
  refine Moves.modify fun rows => ?_
  split
  · exact Std.Refl.refl rows
  next hfresh =>
  refine ⟨Retains.append _, fun h => key_nodup_append h ?_⟩
  intro other hother hkey
  apply hfresh
  rw [any_eq_true]
  exact ⟨other, hother, by simpa using Prod.ext_iff.1 hkey⟩

section

variable (effect : StoreEffectKey)

section

variable (ownerId : String)

theorem takeOverClaim_moves (now : Int) (row : ExecutionBindingRecord) (releasedAt : Option Int) :
    Moves (Fenced EvolvesHeld) (takeOverClaim effect ownerId now row releasedAt) := by
  refine Moves.bind (updateBindings_moves ?_ fun _ => ⟨rfl, rfl⟩) fun changed => ?_
  · intro other htake
    have hpending : other.state.isPending = true := by
      have hstate := htake.2.2.2
      cases hs : other.state with
      | pending _ => rfl
      | creating | created _ => simp [hs] at hstate
    refine ⟨⟨rfl, rfl, Nat.le_succ _, fun _ => Nat.lt_succ_self _, fun execution h => ?_⟩,
      fun h => ?_⟩
    · rw [h] at hpending
      cases hpending
    · rw [hpending] at h
      cases h
  · refine Moves.bind (readExecution_moves effect) fun after => Moves.ite ?_ ?_
    · exact fun _ => Moves.pure _
    · intro _
      cases after <;> exact Moves.pure _

theorem claimExecution_moves (now leaseMs : Int) :
    Moves (Fenced EvolvesHeld) (claimExecution effect ownerId now leaseMs) := by
  refine Moves.bind (insertBinding_moves _) fun _ => ?_
  refine Moves.bind (readExecution_moves effect) fun row => ?_
  cases row with
  | none => exact Moves.throw _
  | some row =>
    dsimp only
    cases row.state with
    | pending releasedAt =>
      refine Moves.ite (fun _ => Moves.pure _) fun _ => ?_
      exact Moves.ite (fun _ => Moves.pure _) fun _ => takeOverClaim_moves _ _ _ _ _
    | creating | created _ => exact Moves.pure _

section

variable (generation : Nat)

theorem markExecutionCreating_moves (now : Int) :
    Moves (Fenced EvolvesHeld) (markExecutionCreating effect ownerId generation now) := by
  refine Moves.bind (updateBindings_moves ?_ fun _ => ⟨rfl, rfl⟩) fun _ => Moves.pure _
  rintro row ⟨-, hpending⟩
  refine ⟨⟨rfl, rfl, Nat.le_refl _, fun h => absurd rfl h, fun execution h => ?_⟩, fun _ => rfl⟩
  rw [h] at hpending
  cases hpending

theorem refuseConfirmation_moves (execution : HostExecutionIdentity) (now : Int) :
    Moves (Fenced EvolvesHeld) (refuseConfirmation effect ownerId generation execution now) := by
  refine Moves.bind (readExecution_moves effect) fun row => ?_
  have hrecord : ∀ kind (answer : ExecutionConfirmation), Moves (Fenced EvolvesHeld) (do
      recordExecutionRefusal effect kind ownerId generation (some execution.executionId) now
      pure answer) :=
    fun kind answer => Moves.bind (recordExecutionRefusal_moves _ _ _ _ _ _) fun _ => Moves.pure _
  cases row with
  | none => exact Moves.pure _
  | some row =>
    dsimp only
    cases row.state with
    | created recorded =>
      refine Moves.ite (fun _ => Moves.pure _) fun _ => ?_
      exact Moves.ite (fun _ => hrecord _ _) fun _ => hrecord _ _
    | pending _ | creating =>
      exact Moves.ite (fun _ => hrecord _ _) fun _ => Moves.pure _

theorem confirmExecution_moves (execution : HostExecutionIdentity) (now : Int) :
    Moves (Fenced EvolvesHeld) (confirmExecution effect ownerId generation execution now) := by
  refine Moves.ite (fun _ => Moves.throw _) fun _ => ?_
  refine Moves.bind (updateBindings_moves ?_ fun _ => ⟨rfl, rfl⟩) fun _ => ?_
  · rintro row ⟨-, hcreating⟩
    refine ⟨⟨rfl, rfl, Nat.le_refl _, fun h => absurd rfl h, fun other h => ?_⟩, fun _ => rfl⟩
    rw [hcreating] at h
    cases h
  · exact Moves.ite (fun _ => Moves.pure _) fun _ => refuseConfirmation_moves _ _ _ _ _

theorem releaseExecution_moves (proof : Option ExecutionNotCreated) (now : Int) :
    Moves (Fenced Evolves) (releaseExecution effect ownerId generation proof now) := by
  cases proof with
  | none => exact Moves.throw _
  | some proof =>
    refine Moves.bind (updateBindings_moves ?_ fun _ => ⟨rfl, rfl⟩) fun _ => Moves.pure _
    rintro row ⟨-, hopen⟩
    refine ⟨rfl, rfl, Nat.le_succ _, fun _ => Nat.lt_succ_self _, fun execution h => ?_⟩
    rw [h] at hopen
    cases hopen

end

end

end

end Steps

section Answers
variable {rows rows' : List ExecutionBindingRecord} {effect : StoreEffectKey}
variable {ownerId : String} {generation : Nat} {now : Int}

def HandedOver (effect : StoreEffectKey) (rows : List ExecutionBindingRecord) : Prop :=
  ∃ row ∈ rows, ofEffect effect row ∧ row.state.isPending = false

theorem HandedOver.mono (h : HandedOver effect rows) (hheld : Fenced EvolvesHeld rows rows') :
    HandedOver effect rows' := by
  obtain ⟨row, hrow, heff, hstate⟩ := h
  obtain ⟨row', hrow', hE⟩ := hheld.1 row hrow
  exact ⟨row', hrow', ⟨hE.graphId.trans heff.1, hE.effectId.trans heff.2⟩, hE.held hstate⟩

theorem updateBindings_found {c : ExecutionBindingRecord → Prop} [DecidablePred c]
    {f : ExecutionBindingRecord → ExecutionBindingRecord} {changed : Nat}
    (h : updateBindings c f rows = .ok (changed, rows')) (hone : changed = 1) :
    ∃ row ∈ rows, c row ∧ f row ∈ rows' := by
  obtain ⟨rfl, rfl⟩ := updateBindings_ok h
  have hpos : 0 < rows.countP (fun row => c row) := by
    rw [hone]
    exact Nat.one_pos
  obtain ⟨row, hrow, hc⟩ := countP_pos_iff.1 hpos
  have hc : c row := by simpa using hc
  exact ⟨row, hrow, hc, mem_updateWhere.2 (.inr ⟨row, hrow, hc, rfl⟩)⟩

theorem markExecutionCreating_granted (hkeys : BindingKeys rows)
    (h : markExecutionCreating effect ownerId generation now rows = .ok (true, rows')) :
    ¬ HandedOver effect rows ∧ HandedOver effect rows' := by
  simp only [markExecutionCreating, bind_ok, pure_ok] at h
  obtain ⟨changed, _, hupdate, hchanged, rfl⟩ := h
  obtain ⟨row, hrow, ⟨hclaim, hpending⟩, hnew⟩ :=
    updateBindings_found hupdate (of_decide_eq_true hchanged.symm)
  constructor
  · rintro ⟨other, hother, heff, hstate⟩
    obtain rfl := hkeys.unique hrow hother hclaim.1 heff
    rw [hpending] at hstate
    cases hstate
  · exact ⟨_, hnew, hclaim.1, rfl⟩

theorem releaseExecution_granted {proof : Option ExecutionNotCreated} (hkeys : BindingKeys rows)
    (h : releaseExecution effect ownerId generation proof now rows = .ok (true, rows'))
    {row : ExecutionBindingRecord} (hrow : row ∈ rows) (heff : ofEffect effect row) :
    ∃ row' ∈ rows', ofEffect effect row' ∧ row'.generation = row.generation + 1 := by
  cases proof with
  | none => exact (throw_ok.1 h).elim
  | some proof =>
    simp only [releaseExecution, bind_ok, pure_ok] at h
    obtain ⟨changed, _, hupdate, hchanged, rfl⟩ := h
    obtain ⟨found, hfound, ⟨hclaim, -⟩, hnew⟩ :=
      updateBindings_found hupdate (of_decide_eq_true hchanged.symm)
    obtain rfl := hkeys.unique hfound hrow hclaim.1 heff
    exact ⟨_, hnew, hclaim.1, rfl⟩

def RefusalOnly (effect : StoreEffectKey) (rows rows' : List ExecutionBindingRecord) : Prop :=
  rows' = rows ∨ ∃ refusal,
    rows' = updateWhere (ofEffect effect)
      (fun row => { row with refused := some refusal, refusedCount := row.refusedCount + 1 }) rows

theorem recordExecutionRefusal_only {kind : ExecutionRefusalKind} {executionId : Option String} :
    Moves (RefusalOnly effect)
      (recordExecutionRefusal effect kind ownerId generation executionId now) :=
  Moves.modify fun _ => .inr ⟨_, rfl⟩

theorem refuseConfirmation_only {execution : HostExecutionIdentity} {answer : ExecutionConfirmation}
    (h : refuseConfirmation effect ownerId generation execution now rows = .ok (answer, rows')) :
    RefusalOnly effect rows rows' := by
  simp only [refuseConfirmation, bind_ok] at h
  obtain ⟨read, mid, hread, h⟩ := h
  obtain ⟨rfl, -⟩ := readExecution_ok hread
  have hrecord : ∀ kind (answer' : ExecutionConfirmation), (do
      recordExecutionRefusal effect kind ownerId generation (some execution.executionId) now
      pure answer' : ExecutionTx ExecutionConfirmation) mid = .ok (answer, rows') →
        RefusalOnly effect mid rows' := by
    intro kind answer' hrec
    simp only [bind_ok, pure_ok] at hrec
    obtain ⟨_, _, hwrite, -, rfl⟩ := hrec
    exact recordExecutionRefusal_only _ _ _ hwrite
  have hsame : ∀ answer' : ExecutionConfirmation,
      (pure answer' : ExecutionTx ExecutionConfirmation) mid = .ok (answer, rows') →
        RefusalOnly effect mid rows' :=
    fun _ hpure => .inl (pure_ok.1 hpure).2
  cases read with
  | none => exact hsame _ h
  | some row =>
    cases hstate : row.state with
    | created recorded =>
      simp only [hstate, ite_ok] at h
      obtain ⟨-, h⟩ | ⟨-, ⟨-, h⟩ | ⟨-, h⟩⟩ := h
      · exact hsame _ h
      · exact hrecord _ _ h
      · exact hrecord _ _ h
    | pending _ | creating =>
      simp only [hstate, ite_ok] at h
      obtain ⟨-, h⟩ | ⟨-, h⟩ := h
      · exact hrecord _ _ h
      · exact hsame _ h

/-- A confirmation of another generation changes nothing but the refusal it records. -/
theorem confirmExecution_stale {execution : HostExecutionIdentity} {answer : ExecutionConfirmation}
    (hstale : ∀ row ∈ rows, ofEffect effect row → row.generation ≠ generation)
    (h : confirmExecution effect ownerId generation execution now rows = .ok (answer, rows')) :
    RefusalOnly effect rows rows' := by
  obtain ⟨-, hthrow⟩ | ⟨-, hconfirm⟩ := ite_ok.1 h
  · exact (throw_ok.1 hthrow).elim
  simp only [bind_ok] at hconfirm
  obtain ⟨changed, mid, hupdate, hrest⟩ := hconfirm
  obtain ⟨hchanged, hmid⟩ := updateBindings_ok hupdate
  have hnone : ∀ row ∈ rows, ¬ (ofClaim effect ownerId generation row ∧
      row.state = .creating) :=
    fun row hrow hc => hstale row hrow hc.1.1 hc.1.2.2
  rw [updateWhere_eq_self hnone] at hmid
  have hzero : changed = 0 := by
    rw [hchanged, countP_eq_zero]
    intro row hrow hc
    exact hnone row hrow (by simpa using hc)
  subst hmid hzero
  obtain ⟨hone, -⟩ | ⟨-, hrefuse⟩ := ite_ok.1 hrest
  · cases hone
  · exact refuseConfirmation_only hrefuse

end Answers

section Calls
variable {other : StoreEffectKey}

inductive ExecutionCall where
  | claim (effect : StoreEffectKey) (ownerId : String) (now leaseMs : Int)
  | markCreating (effect : StoreEffectKey) (ownerId : String) (generation : Nat) (now : Int)
  | confirm (effect : StoreEffectKey) (ownerId : String) (generation : Nat)
      (execution : HostExecutionIdentity) (now : Int)
  | unproven (effect : StoreEffectKey) (ownerId : String) (generation : Nat) (now : Int)
  | release (effect : StoreEffectKey) (ownerId : String) (generation : Nat)
      (proof : Option ExecutionNotCreated) (now : Int)

inductive ExecutionAnswer where
  | claim (claim : ExecutionClaim)
  | marked (marked : Bool)
  | confirmation (confirmation : ExecutionConfirmation)
  | recorded
  | released (released : Bool)

def ExecutionCall.perform : ExecutionCall → ExecutionTx ExecutionAnswer
  | .claim effect ownerId now leaseMs => do
    let claim ← claimExecution effect ownerId now leaseMs
    pure (.claim claim)
  | .markCreating effect ownerId generation now => do
    let marked ← markExecutionCreating effect ownerId generation now
    pure (.marked marked)
  | .confirm effect ownerId generation execution now => do
    let confirmation ← confirmExecution effect ownerId generation execution now
    pure (.confirmation confirmation)
  | .unproven effect ownerId generation now => do
    recordUnprovenFailure effect ownerId generation now
    pure .recorded
  | .release effect ownerId generation proof now => do
    let released ← releaseExecution effect ownerId generation proof now
    pure (.released released)

abbrev ExecutionEvent := Event ExecutionCall StoreFailure ExecutionAnswer

abbrev executionStep :
    List ExecutionBindingRecord → ExecutionEvent → List ExecutionBindingRecord → Prop :=
  Commits ExecutionCall.perform

def StoreEffectKey.same (effect other : StoreEffectKey) : Bool :=
  other.graphId = effect.graphId ∧ other.effectId = effect.effectId

def ExecutionEvent.hands (effect : StoreEffectKey) (event : ExecutionEvent) : Bool :=
  match event.call, event.answer with
  | .markCreating other _ _ _, .ok (.marked true) => effect.same other
  | _, _ => false

/-- A proof that the effect's request was not created was accepted. -/
def ExecutionEvent.releases (effect : StoreEffectKey) (event : ExecutionEvent) : Bool :=
  match event.call, event.answer with
  | .release other _ _ _ _, .ok (.released true) => effect.same other
  | _, _ => false

variable {rows rows' : List ExecutionBindingRecord} {event : ExecutionEvent}
  {effect : StoreEffectKey}

theorem executionStep_fenced (h : executionStep rows event rows') : Fenced Evolves rows rows' := by
  refine h.moves ?_
  cases event.call with
  | claim effect ownerId now leaseMs =>
    exact Moves.bind ((claimExecution_moves effect ownerId now leaseMs).mono
      fun _ _ => Fenced.weaken) fun _ => Moves.pure _
  | markCreating effect ownerId generation now =>
    exact Moves.bind ((markExecutionCreating_moves effect ownerId generation now).mono
      fun _ _ => Fenced.weaken) fun _ => Moves.pure _
  | confirm effect ownerId generation execution now =>
    exact Moves.bind ((confirmExecution_moves effect ownerId generation execution now).mono
      fun _ _ => Fenced.weaken) fun _ => Moves.pure _
  | unproven effect ownerId generation now =>
    exact Moves.bind ((recordExecutionRefusal_moves effect _ ownerId generation _ now).mono
      fun _ _ => Fenced.weaken) fun _ => Moves.pure _
  | release effect ownerId generation proof now =>
    exact Moves.bind (releaseExecution_moves effect ownerId generation proof now)
      fun _ => Moves.pure _

theorem same_of_ofEffect {row : ExecutionBindingRecord} (heff : ofEffect effect row)
    (hother : ofEffect other row) : effect.same other :=
  decide_eq_true ⟨hother.1.symm.trans heff.1, hother.2.symm.trans heff.2⟩

theorem releaseExecution_held {ownerId : String} {generation : Nat}
    {proof : Option ExecutionNotCreated} {now : Int} {released : Bool} (hkeys : BindingKeys rows)
    (h : releaseExecution other ownerId generation proof now rows = .ok (released, rows'))
    (hnot : effect.same other → released = false) (hheld : HandedOver effect rows) :
    HandedOver effect rows' := by
  cases proof with
  | none => exact (throw_ok.1 h).elim
  | some proof =>
    simp only [releaseExecution, bind_ok, pure_ok] at h
    obtain ⟨changed, _, hupdate, hreleased, rfl⟩ := h
    obtain ⟨hchanged, rfl⟩ := updateBindings_ok hupdate
    obtain ⟨row, hrow, heff, hstate⟩ := hheld
    refine ⟨row, mem_updateWhere.2 (.inl ⟨hrow, fun hc => ?_⟩), heff, hstate⟩
    have hsame := same_of_ofEffect heff hc.1.1
    rw [hnot hsame] at hreleased
    have hle : changed ≤ 1 := by
      rw [hchanged]
      refine countP_key_le_one hkeys fun a ha b hb hca hcb => ?_
      have hca := (of_decide_eq_true hca).1.1
      have hcb := (of_decide_eq_true hcb).1.1
      exact Prod.ext_iff.2 ⟨hca.1.trans hcb.1.symm, hca.2.trans hcb.2.symm⟩
    have hpos : 0 < changed := by
      rw [hchanged]
      exact countP_pos_iff.2 ⟨row, hrow, by simpa using hc⟩
    have hone : changed = 1 := by omega
    simp [hone] at hreleased

theorem executionStep_held (hkeys : BindingKeys rows) (h : executionStep rows event rows')
    (hrelease : event.releases effect = false) (hheld : HandedOver effect rows) :
    HandedOver effect rows' := by
  obtain ⟨call, answer⟩ := event
  obtain ⟨rfl, -⟩ | ⟨answer, rfl, hrun⟩ := h.cases
  · exact hheld
  cases call with
  | claim other ownerId now leaseMs =>
    refine hheld.mono (Moves.bind (claimExecution_moves other ownerId now leaseMs)
      (fun _ => Moves.pure _) _ _ _ hrun)
  | markCreating other ownerId generation now =>
    exact hheld.mono (Moves.bind (markExecutionCreating_moves other ownerId generation now)
      (fun _ => Moves.pure _) _ _ _ hrun)
  | confirm other ownerId generation execution now =>
    exact hheld.mono (Moves.bind
      (confirmExecution_moves other ownerId generation execution now)
      (fun _ => Moves.pure _) _ _ _ hrun)
  | unproven other ownerId generation now =>
    exact hheld.mono (Moves.bind
      (recordExecutionRefusal_moves other _ ownerId generation _ now)
      (fun _ => Moves.pure _) _ _ _ hrun)
  | release other ownerId generation proof now =>
    simp only [ExecutionCall.perform, bind_ok, pure_ok] at hrun
    obtain ⟨released, _, hrel, rfl, rfl⟩ := hrun
    refine releaseExecution_held hkeys hrel (fun hsame => ?_) hheld
    cases released with
    | false => rfl
    | true =>
      rw [← hrelease]
      exact hsame.symm

theorem same_symm (h : effect.same other) :
    other.graphId = effect.graphId ∧ other.effectId = effect.effectId :=
  of_decide_eq_true h

theorem ofEffect_congr (h : effect.same other) (row : ExecutionBindingRecord) :
    ofEffect other row ↔ ofEffect effect row := by
  obtain ⟨hgraph, heffect⟩ := same_symm h
  unfold ofEffect
  rw [hgraph, heffect]

theorem executionStep_hands (hkeys : BindingKeys rows) (h : executionStep rows event rows')
    (hhands : event.hands effect) : ¬ HandedOver effect rows ∧ HandedOver effect rows' := by
  obtain ⟨call, answer⟩ := event
  obtain ⟨-, failure, rfl⟩ | ⟨answer, rfl, hrun⟩ := h.cases
  · cases call <;> cases hhands
  cases call with
  | claim | confirm | unproven | release => cases hhands
  | markCreating other ownerId generation now =>
    simp only [ExecutionCall.perform, bind_ok, pure_ok] at hrun
    obtain ⟨marked, _, hmark, rfl, rfl⟩ := hrun
    cases marked with
    | false => cases hhands
    | true =>
      have hgranted := markExecutionCreating_granted hkeys hmark
      have hcongr := ofEffect_congr hhands
      simpa only [HandedOver, hcongr] using hgranted

theorem executionStep_releases (hkeys : BindingKeys rows) (h : executionStep rows event rows')
    (hreleases : event.releases effect) {row : ExecutionBindingRecord} (hrow : row ∈ rows)
    (heff : ofEffect effect row) :
    ∃ row' ∈ rows', ofEffect effect row' ∧ row'.generation = row.generation + 1 := by
  obtain ⟨call, answer⟩ := event
  obtain ⟨-, failure, rfl⟩ | ⟨answer, rfl, hrun⟩ := h.cases
  · cases call <;> cases hreleases
  cases call with
  | claim | confirm | unproven | markCreating => cases hreleases
  | release other ownerId generation proof now =>
    simp only [ExecutionCall.perform, bind_ok, pure_ok] at hrun
    obtain ⟨released, _, hrel, rfl, rfl⟩ := hrun
    cases released with
    | false => cases hreleases
    | true =>
      have hcongr := ofEffect_congr hreleases
      obtain ⟨row', hrow', heff', hgen⟩ :=
        releaseExecution_granted hkeys hrel hrow ((hcongr row).2 heff)
      exact ⟨row', hrow', (hcongr row').1 heff', hgen⟩

theorem executionRun_fenced {events : List ExecutionEvent} (h : Run executionStep rows events rows') :
    Fenced Evolves rows rows' := by
  induction h with
  | nil => exact Std.Refl.refl _
  | cons hstep _ ih => exact IsTrans.trans _ _ _ (executionStep_fenced hstep) ih

/-- The create request of an effect is handed over once between two proofs of its absence,
generations rise, and stale confirmations change only the refusal they record. -/
theorem executionFence {events : List ExecutionEvent} (h : Run executionStep [] events rows) :
    (∀ effect before between after, events = before ++ between ++ after →
      (∀ event ∈ between, event.releases effect = false) →
        between.countP (ExecutionEvent.hands effect) ≤ 1) ∧
    (∀ event rows', executionStep rows event rows' →
      ∀ row ∈ rows, ∃ row' ∈ rows', row'.graphId = row.graphId ∧ row'.effectId = row.effectId ∧
        row.generation ≤ row'.generation ∧
        (row'.ownerId ≠ row.ownerId → row.generation < row'.generation) ∧
        ∀ effect, ofEffect effect row → event.releases effect → row.generation < row'.generation) ∧
    (∀ later rows', Run executionStep rows later rows' →
      ∀ row ∈ rows, ∀ execution, row.state = .created execution →
        ∀ row' ∈ rows', row'.graphId = row.graphId → row'.effectId = row.effectId →
          row'.state = .created execution) ∧
    ∀ effect ownerId generation execution now answer rows',
      (∀ row ∈ rows, ofEffect effect row → row.generation ≠ generation) →
        (confirmExecution effect ownerId generation execution now).commit rows =
          (answer, rows') → RefusalOnly effect rows rows' := by
  have hempty : BindingKeys [] := nodup_nil
  have hkeys : BindingKeys rows := (executionRun_fenced h).2 hempty
  refine ⟨?_, ?_, ?_, ?_⟩
  · rintro effect before between after rfl hbetween
    obtain ⟨mid', hleft, -⟩ := h.split
    obtain ⟨mid, hbefore, hrun⟩ := hleft.split
    refine (Run.countP_le_one (I := BindingKeys) (P := HandedOver effect)
      (q := fun event => event.releases effect = false) ?_ ?_ ?_ hrun
        ((executionRun_fenced hbefore).2 hempty) hbetween).1
    · intro s event t hs hstep
      exact (executionStep_fenced hstep).2 hs
    · intro s event t hs hstep hhands
      exact executionStep_hands hs hstep hhands
    · intro s event t hs hstep hrelease hheld
      exact executionStep_held hs hstep hrelease hheld
  · intro event rows' hstep row hrow
    obtain ⟨hretains, hkeep⟩ := executionStep_fenced hstep
    obtain ⟨row', hrow', hE⟩ := hretains row hrow
    refine ⟨row', hrow', hE.graphId, hE.effectId, hE.generation, hE.owner, ?_⟩
    intro effect heff hreleases
    obtain ⟨next, hnext, heff', hgen⟩ := executionStep_releases hkeys hstep hreleases hrow heff
    have hsame : row' = next :=
      (hkeep hkeys).unique hrow' hnext
        ⟨hE.graphId.trans heff.1, hE.effectId.trans heff.2⟩ heff'
    rw [hsame, hgen]
    exact Nat.lt_succ_self _
  · intro later rows' hrun row hrow execution hcreated row' hrow' hgraph heffect
    obtain ⟨hretains, hkeep⟩ := executionRun_fenced hrun
    obtain ⟨next, hnext, hE⟩ := hretains row hrow
    have hsame : row' = next :=
      eq_of_key (hkeep hkeys) hrow' hnext
        (Prod.ext_iff.2 ⟨hgraph.trans hE.graphId.symm, heffect.trans hE.effectId.symm⟩)
    rw [hsame]
    exact hE.created execution hcreated
  · intro effect ownerId generation execution now answer rows' hstale hcommit
    cases hrun : confirmExecution effect ownerId generation execution now rows with
    | error failure =>
      rw [commit_error hrun] at hcommit
      exact .inl (Prod.ext_iff.1 hcommit).2.symm
    | ok result =>
      rw [commit_ok hrun] at hcommit
      obtain ⟨-, rfl⟩ := Prod.ext_iff.1 hcommit
      exact confirmExecution_stale hstale hrun

def handedEffect : StoreEffectKey :=
  { graphId := "g", effectId := "dispatch:n#1", attemptId := "n#1" }

def racedCalls : List ExecutionCall :=
  [.claim handedEffect "host" 0 10, .claim handedEffect "host" 5 10,
    .markCreating handedEffect "host" 1 6, .markCreating handedEffect "host" 1 7]

theorem executionFence_raced :
    (history ExecutionCall.perform [] racedCalls).1.countP (ExecutionEvent.hands handedEffect)
      ≤ 1 :=
  (executionFence (history_run ExecutionCall.perform [] racedCalls)).1 handedEffect [] _ []
    (by rw [nil_append, append_nil]) (by decide)

end Calls

end Rolebox.Graph
