import Rolebox.General.Transition
import Rolebox.Host.Attribution

/-! No attribution reaches another operation while each puts back only what is in flight. -/

namespace Rolebox.Host
open General Rolebox.Graph List Option
variable {s t : AttributionHost} {i : Nat} {own : Option HostInvocationIdentity}
  {getEffectiveAgent : Option String → String} {event : AttributionEvent}

def AttributionHost.identityOf (s : AttributionHost) (i : Nat) : Option HostInvocationIdentity :=
  (s.operations i).bind Operation.identity

def AttributionHost.sessionOf (s : AttributionHost) (i : Nat) : Option String :=
  (s.operations i).bind Operation.session

def AttributionHost.previousOf (s : AttributionHost) (i : Nat) :
    Option (AmbientCell Nat HostInvocationIdentity) :=
  (s.operations i).bind Operation.previous

/-- What was read is what the call or graph that caused it carries. -/
def Use.Lawful : Use → Prop
  | .armed own identity => identity = own
  | .checked own identity recorded refused =>
    identity = own ∧ (refused = true → hostIdentityCheckRefusal recorded own = true)
  | .scoped own session => session = own

/-- Nothing is read across operations, and nothing is in effect when none is in flight. -/
structure Isolated (s : AttributionHost) : Prop where
  uses : ∀ use ∈ s.uses, use.Lawful
  quiescent : (∀ i, s.operations i = none) → s.holder.value = none ∧ s.workerSession.value = none

/-- Who reads a holder is the one that moved it last; who puts back is still in flight. -/
def AttributionEvent.InOrder (s : AttributionHost) : AttributionEvent → Prop
  | .toolGoesOn i uses =>
    ((∃ attempt, .deliver attempt ∈ uses) → s.holder.InEffect i (s.identityOf i)) ∧
      (.session ∈ uses → s.workerSession.InEffect i (s.sessionOf i))
  | .completionGoesOn i settles | .derive i settles =>
    settles.isSome → s.holder.InEffect i (s.identityOf i)
  | .completionReturns i | .finishedReturns i =>
    ∀ found, s.previousOf i = some found → found.StillHeld s.identityOf
  | _ => True

/-- A process that has begun no operation yet, over any records. -/
structure Initial (s : AttributionHost) : Prop where
  operations : ∀ i, s.operations i = none
  holder : s.holder = .clear
  workerSession : s.workerSession = .clear
  uses : s.uses = []

def Moves (getEffectiveAgent : Option String → String) (s : AttributionHost)
    (event : AttributionEvent) (t : AttributionHost) : Prop :=
  next getEffectiveAgent s event = some t

def MovesInOrder (getEffectiveAgent : Option String → String) (s : AttributionHost)
    (event : AttributionEvent) (t : AttributionHost) : Prop :=
  event.InOrder s ∧ Moves getEffectiveAgent s event t

/-- The two states differ in what was recorded and read at most. -/
structure SameHolders (s t : AttributionHost) : Prop where
  holder : t.holder = s.holder
  workerSession : t.workerSession = s.workerSession
  operations : t.operations = s.operations
  nextOperation : t.nextOperation = s.nextOperation

theorem SameHolders.refl (s : AttributionHost) : SameHolders s s := ⟨rfl, rfl, rfl, rfl⟩

theorem SameHolders.trans {u : AttributionHost} (h : SameHolders s t) (h' : SameHolders t u) :
    SameHolders s u where
  holder := h'.holder.trans h.holder
  workerSession := h'.workerSession.trans h.workerSession
  operations := h'.operations.trans h.operations
  nextOperation := h'.nextOperation.trans h.nextOperation

section

variable (own : Option HostInvocationIdentity)

theorem arms_reads (attempts : List AttemptRef) (s : AttributionHost) :
    SameHolders s (attempts.foldl (arm own) s) ∧
      ∀ use ∈ (attempts.foldl (arm own) s).uses, use ∈ s.uses ∨ use = .armed own s.holder.value := by
  induction attempts generalizing s with
  | nil => exact ⟨.refl s, fun _ h => .inl h⟩
  | cons attempt attempts ih =>
    have hfirst : SameHolders s (arm own s attempt) := ⟨rfl, rfl, rfl, rfl⟩
    obtain ⟨hsame, huses⟩ := ih (arm own s attempt)
    refine ⟨hfirst.trans hsame, fun use h => ?_⟩
    rcases huses use h with hold | hnew
    · rcases mem_append.1 hold with hold | hnew
      · exact .inl hold
      · exact .inr (mem_singleton.1 hnew)
    · exact .inr hnew

theorem settle_reads (attempt : AttemptRef)
    (successors : List AttemptRef) (s : AttributionHost) (hown : s.holder.value = own) :
    SameHolders s (settle s own attempt successors) ∧
      ∀ use ∈ (settle s own attempt successors).uses, use ∈ s.uses ∨ use.Lawful := by
  let checked := s.use (.checked own s.holder.value (s.dispatchIdentities attempt)
    (hostIdentityCheckRefusal (s.dispatchIdentities attempt) s.holder.value))
  have hchecked : ∀ use ∈ checked.uses, use ∈ s.uses ∨ use.Lawful := by
    intro use h
    rcases mem_append.1 h with hold | hnew
    · exact .inl hold
    · obtain rfl := mem_singleton.1 hnew
      refine .inr ⟨hown, fun hrefused => ?_⟩
      rwa [hown] at hrefused
  have hfirst : SameHolders s checked := ⟨rfl, rfl, rfl, rfl⟩
  obtain ⟨hsame, huses⟩ := arms_reads own successors checked
  unfold settle
  dsimp only
  split
  · exact ⟨hfirst, hchecked⟩
  refine ⟨hfirst.trans hsame, fun use h => ?_⟩
  rcases huses use h with hold | rfl
  · exact hchecked use hold
  · exact .inr hown

theorem tool_reads (session : Option String) (uses : List ToolUse) (s : AttributionHost)
    (hown : (∃ attempt, ToolUse.deliver attempt ∈ uses) → s.holder.value = own)
    (hsession : ToolUse.session ∈ uses → s.workerSession.value = session) :
    SameHolders s (uses.foldl (toolUse own session) s) ∧
      ∀ use ∈ (uses.foldl (toolUse own session) s).uses, use ∈ s.uses ∨ use.Lawful := by
  induction uses generalizing s with
  | nil => exact ⟨.refl s, fun _ h => .inl h⟩
  | cons first uses ih =>
    have hfirst : SameHolders s (toolUse own session s first) ∧
        ∀ use ∈ (toolUse own session s first).uses, use ∈ s.uses ∨ use.Lawful := by
      cases first with
      | deliver attempt =>
        refine ⟨⟨rfl, rfl, rfl, rfl⟩, fun use h => ?_⟩
        rcases mem_append.1 h with hold | hnew
        · exact .inl hold
        · obtain rfl := mem_singleton.1 hnew
          exact .inr (hown ⟨attempt, .head _⟩)
      | session =>
        refine ⟨⟨rfl, rfl, rfl, rfl⟩, fun use h => ?_⟩
        rcases mem_append.1 h with hold | hnew
        · exact .inl hold
        · obtain rfl := mem_singleton.1 hnew
          exact .inr (hsession (.head _))
    have hrest : (∃ attempt, ToolUse.deliver attempt ∈ uses) →
        (toolUse own session s first).holder.value = own := by
      rintro ⟨attempt, h⟩
      rw [hfirst.1.holder]
      exact hown ⟨attempt, mem_cons_of_mem _ h⟩
    have hrest' : ToolUse.session ∈ uses →
        (toolUse own session s first).workerSession.value = session := by
      intro h
      rw [hfirst.1.workerSession]
      exact hsession (.tail _ h)
    obtain ⟨hsame, huses⟩ := ih (toolUse own session s first) hrest hrest'
    refine ⟨hfirst.1.trans hsame, fun use h => ?_⟩
    rcases huses use h with hold | hlawful
    · exact hfirst.2 use hold
    · exact .inr hlawful

end

structure Orderly (s : AttributionHost) : Prop where
  holder : s.holder.Current s.identityOf
  session : s.workerSession.Current s.sessionOf
  fresh : ∀ i operation, s.operations i = some operation → i < s.nextOperation
  found : ∀ i found, s.previousOf i = some found →
    found.Found s.identityOf ∧ ∀ k, found.setBy = some k → k < i
  uses : ∀ use ∈ s.uses, use.Lawful

theorem Orderly.isolated (h : Orderly s) : Isolated s where
  uses := h.uses
  quiescent := by
    intro hnone
    constructor
    · refine h.holder.value_none fun i => ?_
      rw [AttributionHost.identityOf, hnone i]
      rfl
    · refine h.session.value_none fun i => ?_
      rw [AttributionHost.sessionOf, hnone i]
      rfl

theorem Initial.orderly (h : Initial s) : Orderly s where
  holder := by rw [h.holder]; exact AmbientCell.current_clear
  session := by rw [h.workerSession]; exact AmbientCell.current_clear
  fresh := by
    intro i operation hi
    exact nomatch (h.operations i).symm.trans hi
  found := by
    intro i found hi
    rw [AttributionHost.previousOf, h.operations i] at hi
    exact nomatch hi
  uses := by
    intro use huse
    rw [h.uses] at huse
    exact nomatch huse

theorem Orderly.of_same (h : Orderly s) (hsame : SameHolders s t)
    (huses : ∀ use ∈ t.uses, use ∈ s.uses ∨ use.Lawful) : Orderly t where
  holder := by
    unfold AttributionHost.identityOf
    rw [hsame.holder, hsame.operations]
    exact h.holder
  session := by
    unfold AttributionHost.sessionOf
    rw [hsame.workerSession, hsame.operations]
    exact h.session
  fresh := by
    rw [hsame.operations, hsame.nextOperation]
    exact h.fresh
  found := by
    unfold AttributionHost.previousOf AttributionHost.identityOf
    rw [hsame.operations]
    exact h.found
  uses := fun use huse => (huses use huse).elim (h.uses use) id

theorem operations_withOperation (s : AttributionHost) (i k : Nat) (operation : Option Operation) :
    (s.withOperation i operation).operations k = if k = i then operation else s.operations k := by
  show Function.update s.operations i operation k = _
  rw [Function.update_apply]

theorem lt_of_identity (h : Orderly s) {k : Nat} (hk : (s.identityOf k).isSome) :
    k < s.nextOperation := by
  cases hoperation : s.operations k with
  | none =>
    rw [AttributionHost.identityOf, hoperation] at hk
    exact nomatch hk
  | some operation => exact h.fresh k operation hoperation

theorem Orderly.goes_on (h : Orderly s) {operation operation' : Operation}
    (hi : s.operations i = some operation) (hidentity : operation'.identity = operation.identity)
    (hsession : operation'.session = operation.session)
    (hprevious : operation'.previous = operation.previous) :
    Orderly (s.withOperation i (some operation')) := by
  have hreads {α : Type} {read : Operation → Option α} (hread : read operation' = read operation)
      (k : Nat) : ((s.withOperation i (some operation')).operations k).bind read =
        (s.operations k).bind read := by
    rw [operations_withOperation]
    split
    · next hk =>
      subst hk
      rw [hi]
      exact hread
    · rfl
  have hidentityOf : (s.withOperation i (some operation')).identityOf = s.identityOf :=
    funext (hreads hidentity)
  have hsessionOf : (s.withOperation i (some operation')).sessionOf = s.sessionOf :=
    funext (hreads hsession)
  have hpreviousOf : (s.withOperation i (some operation')).previousOf = s.previousOf :=
    funext (hreads hprevious)
  refine ⟨?_, ?_, fun k operation'' hk => ?_, ?_, h.uses⟩
  · rw [hidentityOf]
    exact h.holder
  · rw [hsessionOf]
    exact h.session
  · rw [operations_withOperation] at hk
    split at hk
    · next hki =>
      subst hki
      exact h.fresh _ operation hi
    · exact h.fresh k operation'' hk
  · rw [hpreviousOf, hidentityOf]
    exact h.found

theorem identityOf_left {k : Nat} (hk : k ≠ i) :
    (s.withOperation i none).identityOf k = s.identityOf k := by
  unfold AttributionHost.identityOf
  rw [operations_withOperation, if_neg hk]

theorem identityOf_left_some {k : Nat} {v : HostInvocationIdentity}
    (h : (s.withOperation i none).identityOf k = some v) : s.identityOf k = some v := by
  by_cases hk : k = i
  · subst hk
    unfold AttributionHost.identityOf at h
    rw [operations_withOperation, if_pos rfl] at h
    exact nomatch h
  · rwa [identityOf_left hk] at h

section

variable (h : Orderly s)
include h

theorem Orderly.leaves {holder : AmbientCell Nat HostInvocationIdentity}
    {session : AmbientCell Nat String}
    (hholder : holder.Current (s.withOperation i none).identityOf)
    (hsession : session.Current (s.withOperation i none).sessionOf) :
    Orderly { s.withOperation i none with holder := holder, workerSession := session } := by
  refine ⟨hholder, hsession, fun k operation hk => ?_, fun k found hk => ?_, h.uses⟩
  · have hk' : (s.withOperation i none).operations k = some operation := hk
    rw [operations_withOperation] at hk'
    split at hk'
    · exact nomatch hk'
    · exact h.fresh k operation hk'
  · have hk' : ((s.withOperation i none).operations k).bind Operation.previous = some found := hk
    rw [operations_withOperation] at hk'
    split at hk'
    · exact nomatch hk'
    · obtain ⟨hfound, hbefore⟩ := h.found k found hk'
      exact ⟨hfound.of_fewer fun _ _ _ hsome => identityOf_left_some hsome, hbefore⟩

theorem Orderly.restores {found : AmbientCell Nat HostInvocationIdentity}
    (hprevious : s.previousOf i = some found) (hheld : found.StillHeld s.identityOf) :
    found.restored.Current (s.withOperation i none).identityOf := by
  obtain ⟨hfound, hbefore⟩ := h.found i found hprevious
  refine AmbientCell.Current.of_same (hfound.restored hheld) fun k hk => ?_
  refine identityOf_left (Nat.ne_of_lt (hbefore k ?_))
  unfold AmbientCell.restored at hk
  split at hk
  · exact nomatch hk
  · exact hk

theorem Orderly.enters (operation : Operation)
    (holder : AmbientCell Nat HostInvocationIdentity) (session : AmbientCell Nat String)
    (hprevious : ∀ found, operation.previous = some found → found = s.holder)
    (hholder : holder = s.holder ∨ holder = .put s.nextOperation operation.identity)
    (hsession : session = s.workerSession ∨ session = .put s.nextOperation operation.session) :
    Orderly { s.enter operation with holder := holder, workerSession := session } := by
  have hoperation : ∀ k, (s.enter operation).operations k =
      if k = s.nextOperation then some operation else s.operations k :=
    fun k => operations_withOperation s s.nextOperation k (some operation)
  have hidentity : ∀ k, k ≠ s.nextOperation →
      (s.enter operation).identityOf k = s.identityOf k := by
    intro k hk
    unfold AttributionHost.identityOf
    rw [hoperation, if_neg hk]
  have hself : (s.enter operation).identityOf s.nextOperation = operation.identity := by
    unfold AttributionHost.identityOf
    rw [hoperation, if_pos rfl]
    rfl
  refine ⟨?_, ?_, fun k other hk => ?_, fun k found hk => ?_, h.uses⟩
  · rcases hholder with rfl | rfl
    · refine h.holder.of_same fun k hk => hidentity k ?_
      have hcurrent := h.holder
      unfold AmbientCell.Current at hcurrent
      rw [hk] at hcurrent
      exact Nat.ne_of_lt (lt_of_identity h hcurrent.1)
    · exact AmbientCell.current_put hself
  · rcases hsession with rfl | rfl
    · refine h.session.of_same fun k hk => ?_
      have hcurrent := h.session
      unfold AmbientCell.Current at hcurrent
      rw [hk] at hcurrent
      unfold AttributionHost.sessionOf
      rw [hoperation, if_neg]
      rintro rfl
      obtain ⟨hsome, -⟩ := hcurrent
      unfold AttributionHost.sessionOf at hsome
      cases hnext : s.operations s.nextOperation with
      | none =>
        rw [hnext] at hsome
        exact nomatch hsome
      | some other => exact Nat.lt_irrefl _ (h.fresh _ other hnext)
    · apply AmbientCell.current_put
      unfold AttributionHost.sessionOf
      rw [hoperation, if_pos rfl]
      rfl
  · have hk' : (s.enter operation).operations k = some other := hk
    rw [hoperation] at hk'
    show k < s.nextOperation + 1
    split at hk'
    · next hnew => exact Nat.lt_succ_of_le hnew.le
    · exact Nat.lt_succ_of_lt (h.fresh k other hk')
  · have hk' : ((s.enter operation).operations k).bind Operation.previous = some found := hk
    show found.Found (s.enter operation).identityOf ∧ _
    rw [hoperation] at hk'
    have hbefore : found.Found s.identityOf ∧ ∀ j, found.setBy = some j →
        j < k ∧ j < s.nextOperation := by
      split at hk'
      · next hnew =>
        obtain rfl := hprevious found hk'
        refine ⟨h.holder.found, fun j hj => ?_⟩
        have hcurrent := h.holder
        unfold AmbientCell.Current at hcurrent
        rw [hj] at hcurrent
        have hlt := lt_of_identity h hcurrent.1
        exact ⟨hnew ▸ hlt, hlt⟩
      · obtain ⟨hfound, hlt⟩ := h.found k found hk'
        refine ⟨hfound, fun j hj => ⟨hlt j hj, ?_⟩⟩
        cases hother : s.operations k with
        | none =>
          rw [hother] at hk'
          exact nomatch hk'
        | some other => exact (hlt j hj).trans (h.fresh k other hother)
    refine ⟨hbefore.1.of_fewer fun j v hj hv => ?_, fun j hj => (hbefore.2 j hj).1⟩
    rwa [hidentity j (Nat.ne_of_lt (hbefore.2 j hj).2)] at hv

theorem Orderly.moves {holder : AmbientCell Nat HostInvocationIdentity}
    {session : AmbientCell Nat String} (hholder : holder.Current s.identityOf)
    (hsession : session.Current s.sessionOf) :
    Orderly { s with holder := holder, workerSession := session } :=
  ⟨hholder, hsession, h.fresh, h.found, h.uses⟩

theorem session_left (hsession : s.sessionOf i = none) :
    s.workerSession.Current (s.withOperation i none).sessionOf := by
  refine h.session.of_same fun k hk => ?_
  unfold AttributionHost.sessionOf
  rw [operations_withOperation, if_neg]
  rintro rfl
  have hcurrent := h.session
  unfold AmbientCell.Current at hcurrent
  rw [hk] at hcurrent
  dsimp only at hcurrent
  rw [hsession] at hcurrent
  exact nomatch hcurrent.1

theorem Orderly.leaves_holders (hidentity : s.identityOf i = none)
    (hsession : s.sessionOf i = none) : Orderly (s.withOperation i none) := by
  have hholder : s.holder.Current (s.withOperation i none).identityOf := by
    refine h.holder.of_same fun k hk => identityOf_left ?_
    rintro rfl
    have hcurrent := h.holder
    unfold AmbientCell.Current at hcurrent
    rw [hk] at hcurrent
    dsimp only at hcurrent
    rw [hidentity] at hcurrent
    exact nomatch hcurrent.1
  exact h.leaves hholder (session_left h hsession)

end

section Steps
variable {completion : Completion} {finished : FinishedAttempt} {start : GraphStart}
  {settles : Option (List AttemptRef)}
variable {operation : Operation}

section

variable (hi : s.operations i = some operation)
include hi

theorem identityOf_of : s.identityOf i = operation.identity := by
  unfold AttributionHost.identityOf
  rw [hi]
  rfl

theorem sessionOf_of : s.sessionOf i = operation.session := by
  unfold AttributionHost.sessionOf
  rw [hi]
  rfl

theorem previousOf_of : s.previousOf i = operation.previous := by
  unfold AttributionHost.previousOf
  rw [hi]
  rfl

end

section

variable (h : Orderly s)
include h

theorem Orderly.callTool (context : ToolContext) (refused : Bool)
    (uses : List ToolUse) : Orderly (callTool getEffectiveAgent s context refused uses) := by
  unfold Host.callTool
  split
  · exact h.moves AmbientCell.current_clear AmbientCell.current_clear
  generalize hostInvocationIdentity context.sessionID
    (some (callAgent getEffectiveAgent context)) = identity
  generalize nonEmptyString context.sessionID = session
  have hentered := h.enters (.tool identity session) (.put s.nextOperation identity)
    (.put s.nextOperation session) (nofun) (.inr rfl) (.inr rfl)
  obtain ⟨hsame, huses⟩ := tool_reads identity session uses
    { s.enter (.tool identity session) with
      holder := .put s.nextOperation identity
      workerSession := .put s.nextOperation session } (fun _ => rfl) fun _ => rfl
  exact hentered.of_same hsame huses

theorem Orderly.complete (attempt : AttemptRef) (delivered : Bool)
    (caller : Option Nat) : Orderly (complete s attempt delivered caller) := by
  unfold Host.complete
  refine h.enters _ _ s.workerSession (fun found hfound => ?_) ?_ (.inl rfl)
  · exact (Option.some.inj hfound).symm
  unfold attributed
  split
  · exact .inr rfl
  · exact .inl rfl

theorem Orderly.settleFinished (attempt : AttemptRef) :
    Orderly (settleFinishedAttempt s attempt) := by
  unfold settleFinishedAttempt
  refine h.enters _ _ s.workerSession (fun found hfound => ?_) ?_ (.inl rfl)
  · exact (Option.some.inj hfound).symm
  unfold attributed
  split
  · exact .inr rfl
  · exact .inl rfl

theorem Orderly.settled (attempt : AttemptRef)
    (horder : settles.isSome → s.holder.InEffect i (s.identityOf i)) (hown : s.identityOf i = own) :
    SameHolders s (settleReached s own attempt settles) ∧
      Orderly (settleReached s own attempt settles) := by
  cases settles with
  | none => exact ⟨.refl s, h⟩
  | some successors =>
    have heffect := horder rfl
    rw [hown] at heffect
    obtain ⟨hsame, huses⟩ := settle_reads own attempt successors s (h.holder.value_eq heffect hown)
    exact ⟨hsame, h.of_same hsame huses⟩

theorem Orderly.completionGoesOn (hi : s.operations i = some (.complete completion))
    (horder : settles.isSome → s.holder.InEffect i (s.identityOf i)) :
    Orderly (completionGoesOn s i completion settles) := by
  obtain ⟨hsame, hsettled⟩ := h.settled completion.attempt horder (identityOf_of hi)
  rw [← hsame.operations] at hi
  exact hsettled.goes_on hi rfl rfl rfl

section

variable (hi : s.operations i = some (.finished finished))
include hi

theorem Orderly.derive (horder : settles.isSome → s.holder.InEffect i (s.identityOf i)) :
    Orderly (derive s i finished settles) := by
  obtain ⟨hsame, hsettled⟩ := h.settled finished.attempt horder (identityOf_of hi)
  rw [← hsame.operations] at hi
  exact hsettled.goes_on hi rfl rfl rfl

omit hi in
theorem Orderly.returnTo (caller : Option Nat) : Orderly (returnTo s caller) := by
  unfold Host.returnTo
  split
  · exact h
  · split
    · next hi => exact h.goes_on hi rfl rfl rfl
    · exact h

omit hi in
theorem Orderly.completionReturns (hi : s.operations i = some (.complete completion))
    (horder : ∀ found, s.previousOf i = some found → found.StillHeld s.identityOf) :
    Orderly (completionReturns s i completion) := by
  have hprevious : s.previousOf i = some completion.previous := previousOf_of hi
  refine Orderly.returnTo ?_ completion.caller
  exact h.leaves (h.restores hprevious (horder _ hprevious)) (session_left h (sessionOf_of hi))

theorem Orderly.finishedReturns
    (horder : ∀ found, s.previousOf i = some found → found.StillHeld s.identityOf) :
    Orderly (finishedReturns s i finished) := by
  have hprevious : s.previousOf i = some finished.previous := previousOf_of hi
  exact h.leaves (h.restores hprevious (horder _ hprevious)) (session_left h (sessionOf_of hi))

theorem Orderly.finishedOpened
    (asks delivered : Bool) : Orderly (finishedOpened s i finished asks delivered) := by
  unfold Host.finishedOpened
  split
  · have hasking : Orderly (s.withOperation i
        (some (.finished { finished with phase := .completing }))) := h.goes_on hi rfl rfl rfl
    exact hasking.complete finished.attempt delivered (some i)
  · exact h.goes_on hi rfl rfl rfl

end

theorem Orderly.resume (hi : s.operations i = some (.start start))
    (invocation : OutcomeHostInvocation) (arms : List AttemptRef) :
    Orderly (resume s i invocation arms) := by
  have hcleared : Orderly { s with holder := .clear } := h.moves AmbientCell.current_clear h.session
  have hleft := hcleared.leaves_holders (identityOf_of hi) (sessionOf_of hi)
  unfold Host.resume
  generalize hostInvocationIdentity invocation.sessionId invocation.agent = identity
  obtain ⟨hsame, huses⟩ := arms_reads identity arms { s with holder := .put i identity }
  refine hleft.of_same ⟨rfl, hsame.workerSession, ?_, hsame.nextOperation⟩ fun use huse => ?_
  · exact congrArg (fun operations => Function.update operations i none) hsame.operations
  · rcases huses use huse with hold | rfl
    · exact .inl hold
    · exact .inr rfl

end

theorem rememberOrigin_same (s : AttributionHost) (graphId : String)
    (invocation : OutcomeHostInvocation) :
    SameHolders s (rememberOrigin s graphId invocation) ∧
      (rememberOrigin s graphId invocation).uses = s.uses := by
  unfold rememberOrigin
  split
  · exact ⟨.refl s, rfl⟩
  · exact ⟨⟨rfl, rfl, rfl, rfl⟩, rfl⟩

theorem Orderly.startOpened (h : Orderly s) (hi : s.operations i = some (.start start))
    (reading : StartReading) : Orderly (startOpened s i start reading) := by
  obtain ⟨hsame, huses⟩ := rememberOrigin_same s start.graphId start.invocation
  have hremembered := h.of_same hsame fun use huse => .inl (huses ▸ huse)
  have hi' := hi
  rw [← hsame.operations] at hi'
  cases reading with
  | failed => exact h.leaves_holders (identityOf_of hi) (sessionOf_of hi)
  | owed arms => exact hremembered.resume hi' start.invocation arms
  | primes => exact hremembered.goes_on hi' rfl rfl rfl

theorem Orderly.next (h : Orderly s) (horder : event.InOrder s)
    (hnext : Moves getEffectiveAgent s event t) : Orderly t := by
  unfold Moves Host.next at hnext
  cases event with
  | callTool context refused uses =>
    cases hnext
    exact h.callTool context refused uses
  | toolGoesOn i uses =>
    dsimp only at hnext
    split at hnext
    · next identity session hi =>
      cases hnext
      have hidentity : s.identityOf i = identity := identityOf_of hi
      have hsession : s.sessionOf i = session := sessionOf_of hi
      obtain ⟨hsame, huses⟩ := tool_reads identity session uses s
        (fun hdeliver => h.holder.value_eq (hidentity ▸ horder.1 hdeliver) hidentity)
        fun hread => h.session.value_eq (hsession ▸ horder.2 hread) hsession
      exact h.of_same hsame huses
    · exact nomatch hnext
  | toolReturns i =>
    dsimp only at hnext
    split at hnext
    · cases hnext
      exact h.leaves AmbientCell.current_clear AmbientCell.current_clear
    · exact nomatch hnext
  | complete attempt delivered =>
    cases hnext
    exact h.complete attempt delivered none
  | completionGoesOn i settles =>
    dsimp only at hnext
    split at hnext
    · next hi =>
      obtain ⟨-, ⟨⟩⟩ := ite_none_right_eq_some.1 hnext
      exact h.completionGoesOn hi horder
    · exact nomatch hnext
  | completionReturns i =>
    dsimp only at hnext
    split at hnext
    · next hi =>
      obtain ⟨-, ⟨⟩⟩ := ite_none_right_eq_some.1 hnext
      exact h.completionReturns hi horder
    · exact nomatch hnext
  | settleFinished attempt =>
    cases hnext
    exact h.settleFinished attempt
  | finishedOpened i asks delivered =>
    dsimp only at hnext
    split at hnext
    · next hi =>
      obtain ⟨-, ⟨⟩⟩ := ite_none_right_eq_some.1 hnext
      exact h.finishedOpened hi asks delivered
    · exact nomatch hnext
  | derive i settles =>
    dsimp only at hnext
    split at hnext
    · next hi =>
      obtain ⟨-, ⟨⟩⟩ := ite_none_right_eq_some.1 hnext
      exact h.derive hi horder
    · exact nomatch hnext
  | finishedReturns i =>
    dsimp only at hnext
    split at hnext
    · next hi =>
      obtain ⟨-, ⟨⟩⟩ := ite_none_right_eq_some.1 hnext
      exact h.finishedReturns hi horder
    · exact nomatch hnext
  | start graphId invocation =>
    cases hnext
    exact h.enters _ s.holder s.workerSession (nofun) (.inl rfl)
      (.inl rfl)
  | startOpened i reading =>
    dsimp only at hnext
    split at hnext
    · next hi =>
      split at hnext
      · exact nomatch hnext
      · cases hnext
        exact h.startOpened hi reading
    · exact nomatch hnext
  | startResumes i arms =>
    dsimp only at hnext
    split at hnext
    · next hi =>
      obtain ⟨-, ⟨⟩⟩ := ite_none_right_eq_some.1 hnext
      exact h.resume hi _ arms
    · exact nomatch hnext

end Steps

/-- In runs in order nothing is read across operations, and nothing stays when none is in flight. -/
theorem attribution_isolated (getEffectiveAgent : Option String → String)
    {s t : AttributionHost} {trace : List AttributionEvent} (hinit : Initial s)
    (hrun : Run (MovesInOrder getEffectiveAgent) s trace t) : Isolated t := by
  have horderly : Orderly t :=
    hrun.invariant (fun _ _ _ h hmove => h.next hmove.1 hmove.2) hinit.orderly
  exact horderly.isolated

def plannedAttempt : AttemptRef := { graphId := "g", attemptId := "g:n:1" }

def plannedHost : AttributionHost where
  holder := .clear
  workerSession := .clear
  origins := fun graphId =>
    if graphId = "g" then some { sessionId := "s1", agent := some "planner" } else none
  bindings := fun _ => none
  dispatchIdentities := fun attempt =>
    if attempt = plannedAttempt then some { sessionId := "s1", agentId := "planner" } else none
  operations := fun _ => none
  nextOperation := 0
  uses := []

theorem plannedHost_initial : Initial plannedHost := ⟨fun _ => rfl, rfl, rfl, rfl⟩

def coderCall : ToolContext := { sessionID := some "s2", agent := some "coder" }

def nestedTrace : List AttributionEvent :=
  [.callTool coderCall false [.session], .complete plannedAttempt true,
    .completionGoesOn 1 (some []), .completionReturns 1,
    .toolGoesOn 0 [.deliver { graphId := "h", attemptId := "h:n:1" }], .toolReturns 0]

theorem attribution_isolated_nested :
    ∃ t, Run (MovesInOrder fun _ => "") plannedHost nestedTrace t ∧ Isolated t := by
  have hrun : ∃ t, Run (MovesInOrder fun _ => "") plannedHost nestedTrace t := by
    refine ⟨_, .cons ⟨trivial, rfl⟩ (.cons ⟨trivial, rfl⟩ (.cons ⟨fun _ => rfl, rfl⟩
      (.cons ⟨?_, rfl⟩ (.cons ⟨⟨fun _ => rfl, nofun⟩, rfl⟩
        (.cons ⟨trivial, rfl⟩ (.nil _))))))⟩
    rintro found hfound k hk
    cases hfound
    cases hk
    rfl
  obtain ⟨t, hrun⟩ := hrun
  exact ⟨t, hrun, attribution_isolated _ plannedHost_initial hrun⟩

def overtakenTrace : List AttributionEvent :=
  [.complete plannedAttempt true, .callTool coderCall false [], .toolReturns 1,
    .completionGoesOn 0 (some [])]

def outlastingTrace : List AttributionEvent :=
  [.callTool coderCall false [], .complete plannedAttempt true, .toolReturns 0,
    .completionGoesOn 1 none, .completionReturns 1]

/-- A tool call clears the holder of a settlement, and an old attribution is put back. -/
theorem attribution_crosses :
    (¬ ∀ (getEffectiveAgent : Option String → String) (s t : AttributionHost)
        (trace : List AttributionEvent), Initial s → Run (Moves getEffectiveAgent) s trace t →
        ∀ use ∈ t.uses, use.Lawful) ∧
      ¬ ∀ (getEffectiveAgent : Option String → String) (s t : AttributionHost)
        (trace : List AttributionEvent), Initial s → Run (Moves getEffectiveAgent) s trace t →
        (∀ i, t.operations i = none) → t.holder.value = none ∧ t.workerSession.value = none := by
  constructor
  · intro hclaim
    have hrun : ∃ t, Run (Moves fun _ => "") plannedHost overtakenTrace t ∧
        t.uses = [.checked (some { sessionId := "s1", agentId := "planner" }) none
          (some { sessionId := "s1", agentId := "planner" }) true] :=
      ⟨_, .cons rfl (.cons rfl (.cons rfl (.cons rfl (.nil _)))), rfl⟩
    obtain ⟨t, hrun, huses⟩ := hrun
    have hlawful := hclaim _ _ _ _ plannedHost_initial hrun _ (huses ▸ mem_singleton_self _)
    exact nomatch hlawful.1
  · intro hclaim
    have hrun : ∃ t, Run (Moves fun _ => "") plannedHost outlastingTrace t ∧
        t.holder.value = some { sessionId := "s2", agentId := "coder" } ∧
        ∀ i, t.operations i = none := by
      refine ⟨_, .cons rfl (.cons rfl (.cons rfl (.cons rfl (.cons rfl (.nil _))))), rfl, ?_⟩
      intro i
      match i with
      | 0 => rfl
      | 1 => rfl
      | _ + 2 => rfl
    obtain ⟨t, hrun, hvalue, hnone⟩ := hrun
    exact nomatch hvalue.symm.trans (hclaim _ _ _ _ plannedHost_initial hrun hnone).1
end Rolebox.Host
