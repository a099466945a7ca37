import Rolebox.Recovery.StateStore

/-! Runs of a recovery state store in which the file keeps what was asked and recorded. -/

namespace Rolebox.Recovery
open General List

structure Watched where
  store : RecoveryStateStore
  /-- the state file the latest write intent asks for -/
  latest : StateFile
  /-- the attempts recorded since the last delete -/
  recorded : List RecoveryAttempt

namespace Watched
variable {recorded : List RecoveryAttempt}

def intent (sessionID : String) (store : RecoveryStateStore) : Event → Option StateFile
  | .save state _ => some (.holding state.stored)
  | .saveSync state _ => some (.holding state.stored)
  | .recordAttempt attempt readable _ =>
      some (.holding (RecoveryStateStore.withAttempt
        ((store.load readable).getD (freshState sessionID)) attempt).stored)
  | .updateChainState chainKey update now readable _ =>
      some (.holding (RecoveryStateStore.withChain
        ((store.load readable).getD (freshState sessionID)) chainKey update now).stored)
  | .delete _ => some .missing
  | .flushSync _ => none
  | .writeAsync _ _ => none

def record (recorded : List RecoveryAttempt) : Event → List RecoveryAttempt
  | .recordAttempt attempt _ _ => recorded ++ [attempt]
  | .delete _ => []
  | _ => recorded

def perform (sessionID : String) (w : Watched) (e : Event) : Watched where
  store := w.store.perform sessionID e
  latest := (intent sessionID w.store e).getD w.latest
  recorded := record w.recorded e

def AtStart (w : Watched) : Prop :=
  w.store.dirty = none ∧ w.store.inFlight = [] ∧ w.latest = w.store.file ∧ w.recorded = []

def Step (sessionID : String) (w : Watched) (e : Event) (w' : Watched) : Prop :=
  (∀ write outcome, e = .writeAsync write outcome → write ∈ w.store.inFlight) ∧
    w' = w.perform sessionID e

def Holds (file : StateFile) (recorded : List RecoveryAttempt) : Prop :=
  ∀ attempt ∈ recorded, ∃ state, file = .holding state ∧ state.attempts.count attempt = 1

def Kept (w : Watched) : Prop := w.store.file = w.latest ∧ Holds w.store.file w.recorded

/-- A step brings no state to the file but the one last asked for. -/
def NothingOld (w w' : Watched) : Prop :=
  ∀ state, w'.store.file = .holding state → w.store.file = .holding state ∨
    w'.latest = .holding state

/-- No update reads the file while it is dirty, callers save the recorded attempts, attempts are
their own, and the synchronous operations succeed. -/
def Calm (w : Watched) : Event → Prop
  | .save state _ => Holds (.holding state) w.recorded
  | .saveSync state outcome =>
      w.store.dirty = none ∧ outcome = .done ∧ Holds (.holding state) w.recorded
  | .recordAttempt attempt readable _ =>
      w.store.dirty = none ∧ readable = true ∧
        ∀ state, w.store.file = .holding state → state.attempts.count attempt ≤ 1 ∧
          ∀ other ∈ state.attempts, RecoveryStateStore.isDuplicate other attempt →
            other = attempt
  | .updateChainState _ _ _ readable _ => w.store.dirty = none ∧ readable = true
  | .delete unlinked => unlinked = true
  | .flushSync outcome => outcome = .done
  | .writeAsync _ _ => True

/-- A step on which no asynchronous write fails that is not superseded. -/
def Completes (w : Watched) : Event → Prop
  | .save _ started => started = true
  | .recordAttempt _ _ started => started = true
  | .updateChainState _ _ _ _ started => started = true
  | .writeAsync write outcome => write.gen < w.store.writeGen ∨ outcome = .done
  | _ => True

def CalmStep (sessionID : String) (w : Watched) (e : Event) (w' : Watched) : Prop :=
  Step sessionID w e w' ∧ w.Calm e

def CompletingStep (sessionID : String) (w : Watched) (e : Event) (w' : Watched) : Prop :=
  CalmStep sessionID w e w' ∧ w.Completes e

structure Inv (w : Watched) : Prop where
  gens : ∀ write ∈ w.store.inFlight, write.gen ≤ w.store.writeGen
  apart : (w.store.inFlight.map InFlight.gen).Nodup
  current : ∀ write ∈ w.store.inFlight, write.gen = w.store.writeGen →
    w.latest = .holding write.state ∧ w.store.dirty ≠ none
  clean : w.store.dirty = none → w.store.file = w.latest
  pending : ∀ state, w.store.dirty = some state → w.latest = .holding state.stored
  held : Holds w.latest w.recorded

def Flying (w : Watched) : Prop :=
  w.store.dirty ≠ none → ∃ write ∈ w.store.inFlight, write.gen = w.store.writeGen

theorem Holds.of_attempts {state other : RecoveryState} (h : Holds (.holding state) recorded)
    (hsame : other.attempts = state.attempts) : Holds (.holding other) recorded := by
  intro attempt ha
  obtain ⟨_, hstate, hcount⟩ := h attempt ha
  obtain rfl := StateFile.holding.inj hstate
  exact ⟨other, rfl, hsame ▸ hcount⟩

theorem Holds.stored {state : RecoveryState} (h : Holds (.holding state) recorded) :
    Holds (.holding state.stored) recorded :=
  h.of_attempts state.stored_attempts

theorem holds_nil (file : StateFile) : Holds file [] := nofun

variable {sessionID : String}

theorem Holds.loaded {store : RecoveryStateStore} (h : Holds store.file recorded) :
    Holds (.holding ((store.load true).getD (freshState sessionID))) recorded := by
  intro attempt ha
  obtain ⟨state, hfile, hcount⟩ := h attempt ha
  refine ⟨_, rfl, ?_⟩
  have hload : store.load true = some state := by
    unfold RecoveryStateStore.load
    rw [hfile]
    rfl
  rwa [hload]

theorem Holds.withAttempt {existing : RecoveryState} {attempt : RecoveryAttempt}
    (h : Holds (.holding existing) recorded) (hcount : existing.attempts.count attempt ≤ 1)
    (hown : ∀ other ∈ existing.attempts, RecoveryStateStore.isDuplicate other attempt →
      other = attempt) :
    Holds (.holding (RecoveryStateStore.withAttempt existing attempt)) (recorded ++ [attempt]) := by
  have hself : RecoveryStateStore.isDuplicate attempt attempt = true := by
    simp [RecoveryStateStore.isDuplicate]
  intro a ha
  refine ⟨_, rfl, ?_⟩
  unfold RecoveryStateStore.withAttempt
  by_cases hany : existing.attempts.any (RecoveryStateStore.isDuplicate · attempt)
  · rw [if_pos hany]
    rcases mem_append.1 ha with ha | ha
    · obtain ⟨_, hsame, hone⟩ := h a ha
      obtain rfl := StateFile.holding.inj hsame
      exact hone
    · -- the attempt found there is the one recorded
      obtain rfl := mem_singleton.1 ha
      obtain ⟨other, hmem, hdup⟩ := any_eq_true.1 hany
      have hfound : a ∈ existing.attempts := hown other hmem hdup ▸ hmem
      have hpos := count_pos_iff.2 hfound
      omega
  · rw [if_neg hany]
    have hnew : attempt ∉ existing.attempts := fun hmem =>
      hany (any_eq_true.2 ⟨attempt, hmem, hself⟩)
    show (existing.attempts ++ [attempt]).count a = 1
    rw [count_append]
    rcases mem_append.1 ha with ha | ha
    · obtain ⟨_, hsame, hone⟩ := h a ha
      obtain rfl := StateFile.holding.inj hsame
      have hmem : a ∈ existing.attempts := count_pos_iff.1 (by omega)
      have hne : attempt ≠ a := fun heq => hnew (heq ▸ hmem)
      rw [hone, count_singleton, beq_false_of_ne hne]
      rfl
    · obtain rfl := mem_singleton.1 ha
      rw [count_eq_zero_of_not_mem hnew, count_singleton_self]

section Steps
variable {sessionID : String} {w w' : Watched}

theorem Inv.save {state : RecoveryState} {started : Bool} {recorded : List RecoveryAttempt}
    (h : Inv w) (hholds : Holds (.holding state) recorded) :
    Inv ⟨w.store.save state started, .holding state.stored, recorded⟩ := by
  have hold : ∀ write ∈ w.store.inFlight, write.gen < w.store.writeGen + 1 := fun write hw =>
    Nat.lt_succ_of_le (h.gens write hw)
  have hnew : w.store.writeGen + 1 ∉ w.store.inFlight.map InFlight.gen := by
    intro hmem
    obtain ⟨write, hw, hgen⟩ := mem_map.1 hmem
    exact Nat.ne_of_lt (hold write hw) hgen
  have hpending : ∀ other, (w.store.save state started).dirty = some other →
      StateFile.holding state.stored = .holding other.stored := by
    intro other hsome
    cases hsome
    rfl
  cases started with
  | false =>
    exact ⟨fun write hw => Nat.le_of_lt (hold write hw), h.apart,
      fun write hw hgen => absurd hgen (Nat.ne_of_lt (hold write hw)),
      (nofun), hpending, hholds.stored⟩
  | true =>
    have hcases : ∀ write ∈ (w.store.save state true).inFlight, write ∈ w.store.inFlight ∨
        write = ⟨state.stored, w.store.writeGen + 1⟩ := fun write hw =>
      (mem_append.1 hw).imp_right mem_singleton.1
    refine ⟨?_, ?_, ?_, (nofun), hpending, hholds.stored⟩
    · intro write hw
      rcases hcases write hw with hw | rfl
      · exact Nat.le_of_lt (hold write hw)
      · exact Nat.le_refl _
    · show ((w.store.inFlight ++ [(⟨state.stored, w.store.writeGen + 1⟩ : InFlight)]).map
        InFlight.gen).Nodup
      rw [map_append]
      exact nodup_append'.2 ⟨h.apart, nodup_singleton _, disjoint_singleton.2 hnew⟩
    · intro write hw hgen
      rcases hcases write hw with hw | rfl
      · exact absurd hgen (Nat.ne_of_lt (hold write hw))
      · exact ⟨rfl, (nofun)⟩

theorem Inv.written {file : StateFile} {recorded : List RecoveryAttempt} (h : Inv w)
    (hholds : Holds file recorded) :
    Inv ⟨{ w.store with writeGen := w.store.writeGen + 1, dirty := none, file := file }, file,
      recorded⟩ where
  gens := fun write hw => Nat.le_succ_of_le (h.gens write hw)
  apart := h.apart
  current := by
    intro write hw hgen
    have hle := h.gens write hw
    exact absurd hgen (show write.gen ≠ w.store.writeGen + 1 by omega)
  clean := fun _ => rfl
  pending := nofun
  held := hholds

/-- A superseded write changes nothing, the current one brings what was last asked for. -/
theorem Inv.settled {write : InFlight} (outcome : WriteOutcome) (h : Inv w)
    (hmem : write ∈ w.store.inFlight) :
    Inv { w with store := w.store.writeAsync write outcome } := by
  have hsub : ∀ other ∈ w.store.inFlight.erase write, other ∈ w.store.inFlight :=
    fun other ho => mem_of_mem_erase ho
  have hgens := fun other ho => h.gens other (hsub other ho)
  have hapart : ((w.store.inFlight.erase write).map InFlight.gen).Nodup :=
    h.apart.sublist (erase_sublist.map _)
  unfold RecoveryStateStore.writeAsync
  by_cases hlate : write.gen < w.store.writeGen
  · simp only [hlate, if_true]
    exact ⟨hgens, hapart, fun other ho => h.current other (hsub other ho), h.clean, h.pending,
      h.held⟩
  · have hgen : write.gen = w.store.writeGen := by
      have := h.gens write hmem
      omega
    obtain ⟨hlatest, hdirty⟩ := h.current write hmem hgen
    -- no other write in flight is current
    have hrest : ∀ other ∈ w.store.inFlight.erase write, other.gen ≠ w.store.writeGen := by
      intro other ho heq
      have hsame := inj_on_of_nodup_map h.apart (hsub other ho) hmem (heq.trans hgen.symm)
      exact (Nodup.of_map _ h.apart).mem_erase_iff.1 ho |>.1 hsame
    simp only [hlate, if_false]
    cases outcome with
    | done =>
      exact ⟨hgens, hapart, fun other ho heq => absurd heq (hrest other ho),
        fun _ => hlatest.symm, (nofun), h.held⟩
    | failed unlinked =>
      cases unlinked with
      | true | false =>
        exact ⟨hgens, hapart, fun other ho heq => absurd heq (hrest other ho),
          fun hnone => absurd hnone hdirty, h.pending, h.held⟩

theorem Inv.loaded (h : Inv w) (hclean : w.store.dirty = none) :
    Holds (.holding ((w.store.load true).getD (freshState sessionID))) w.recorded := by
  apply Holds.loaded
  rw [h.clean hclean]
  exact h.held

variable {e : Event}

theorem Inv.step (h : Inv w) (hstep : CalmStep sessionID w e w') : Inv w' := by
  obtain ⟨⟨hflying, rfl⟩, hcalm⟩ := hstep
  cases e with
  | save state started => exact h.save hcalm
  | saveSync state outcome =>
    obtain ⟨hclean, rfl, hholds⟩ := hcalm
    have hwritten := h.written hholds.stored
    rwa [← hclean] at hwritten
  | recordAttempt attempt readable started =>
    obtain ⟨hclean, rfl, hown⟩ := hcalm
    apply h.save
    apply (h.loaded hclean).withAttempt
    · cases hfile : w.store.file with
      | holding state =>
        have hload : w.store.load true = some state := by simp [RecoveryStateStore.load, hfile]
        rw [hload]
        exact (hown state hfile).1
      | missing => simp [RecoveryStateStore.load, hfile, freshState]
      | garbled => simp [RecoveryStateStore.load, hfile, freshState]
    · cases hfile : w.store.file with
      | holding state =>
        have hload : w.store.load true = some state := by simp [RecoveryStateStore.load, hfile]
        rw [hload]
        exact (hown state hfile).2
      | missing => simp [RecoveryStateStore.load, hfile, freshState]
      | garbled => simp [RecoveryStateStore.load, hfile, freshState]
  | updateChainState chainKey update now readable started =>
    obtain ⟨hclean, rfl⟩ := hcalm
    exact h.save ((h.loaded hclean).of_attempts (RecoveryStateStore.withChain_attempts ..))
  | delete unlinked =>
    obtain rfl : unlinked = true := hcalm
    exact h.written (holds_nil .missing)
  | flushSync outcome =>
    obtain rfl : outcome = .done := hcalm
    show Inv ⟨w.store.flushSync .done, w.latest, w.recorded⟩
    unfold RecoveryStateStore.flushSync
    cases hdirty : w.store.dirty with
    | none => exact h
    | some state =>
      have hlatest := h.pending state hdirty
      have hwritten := h.written h.held
      rw [hlatest] at hwritten ⊢
      exact hwritten
  | writeAsync write outcome => exact h.settled outcome (hflying write outcome rfl)

theorem Inv.of_atStart (h : AtStart w) : Inv w := by
  obtain ⟨hdirty, hflight, hlatest, hrecorded⟩ := h
  refine ⟨?_, ?_, ?_, fun _ => hlatest.symm, ?_, ?_⟩
  · simp [hflight]
  · simp [hflight]
  · simp [hflight]
  · simp [hdirty]
  · rw [hrecorded]
    exact holds_nil _

theorem Inv.kept (h : Inv w) (hclean : w.store.dirty = none) : Kept w := by
  have hfile := h.clean hclean
  exact ⟨hfile, hfile ▸ h.held⟩

theorem flushSync_clean (store : RecoveryStateStore) (outcome : WriteOutcome) :
    (store.flushSync outcome).dirty = none := by
  unfold RecoveryStateStore.flushSync
  cases hdirty : store.dirty with
  | none => exact hdirty
  | some state => rfl

theorem Inv.nothingOld (h : Inv w) (hstep : CalmStep sessionID w e w') : NothingOld w w' := by
  have hnext := h.step hstep
  obtain ⟨⟨hflying, rfl⟩, hcalm⟩ := hstep
  intro state hfile
  cases e with
  | save _ _ => exact .inl hfile
  | recordAttempt _ _ _ => exact .inl hfile
  | updateChainState _ _ _ _ _ => exact .inl hfile
  | saveSync other outcome => exact .inr ((hnext.clean hcalm.1).symm.trans hfile)
  | delete unlinked =>
    obtain rfl : unlinked = true := hcalm
    exact nomatch hfile
  | flushSync outcome =>
    exact .inr ((hnext.clean (flushSync_clean _ _)).symm.trans hfile)
  | writeAsync write outcome =>
    have hmem := hflying write outcome rfl
    change (w.store.writeAsync write outcome).file = .holding state at hfile
    unfold RecoveryStateStore.writeAsync at hfile
    by_cases hlate : write.gen < w.store.writeGen
    · simp only [hlate, if_true] at hfile
      exact .inl hfile
    · have hgen : write.gen = w.store.writeGen := by
        have := h.gens write hmem
        omega
      simp only [hlate, if_false] at hfile
      cases outcome with
      | done => exact .inr ((h.current write hmem hgen).1.trans hfile)
      | failed unlinked =>
        cases unlinked with
        | true => exact nomatch hfile
        | false => exact .inl hfile

theorem flying_save (store : RecoveryStateStore) (state : RecoveryState) (latest : StateFile)
    (recorded : List RecoveryAttempt) : Flying ⟨store.save state true, latest, recorded⟩ := by
  intro _
  exact ⟨⟨state.stored, store.writeGen + 1⟩, mem_append_right _ (mem_singleton_self _), rfl⟩

theorem Flying.step (h : Flying w) (hstep : CompletingStep sessionID w e w') : Flying w' := by
  obtain ⟨⟨⟨hflying, rfl⟩, hcalm⟩, hdone⟩ := hstep
  cases e with
  | save state started | recordAttempt attempt readable started
  | updateChainState chainKey update now readable started =>
    obtain rfl : started = true := hdone
    exact flying_save _ _ _ _
  | saveSync state outcome => exact fun hdirty => absurd hcalm.1 hdirty
  | delete unlinked => exact fun hdirty => absurd rfl hdirty
  | flushSync outcome => exact fun hdirty => absurd (flushSync_clean _ _) hdirty
  | writeAsync write outcome =>
    have hmem := hflying write outcome rfl
    intro hdirty
    change (w.store.writeAsync write outcome).dirty ≠ none at hdirty
    show ∃ other ∈ (w.store.writeAsync write outcome).inFlight,
      other.gen = (w.store.writeAsync write outcome).writeGen
    unfold RecoveryStateStore.writeAsync at hdirty ⊢
    by_cases hlate : write.gen < w.store.writeGen
    · simp only [hlate, if_true] at hdirty ⊢
      obtain ⟨other, ho, hgen⟩ := h hdirty
      have hne : other ≠ write := by
        rintro rfl
        omega
      exact ⟨other, (mem_erase_of_ne hne).2 ho, hgen⟩
    · obtain rfl : outcome = .done := hdone.resolve_left hlate
      simp only [hlate, if_false] at hdirty
      exact absurd rfl hdirty

end Steps

theorem inv_of_run {w₀ w : Watched} {es : List Event} (h₀ : AtStart w₀)
    (hrun : Run (CalmStep sessionID) w₀ es w) : Inv w :=
  hrun.invariant (fun _ _ _ h hstep => h.step hstep) (Inv.of_atStart h₀)

theorem flying_of_run {w₀ w : Watched} {es : List Event} (h₀ : AtStart w₀)
    (hrun : Run (CompletingStep sessionID) w₀ es w) : Flying w := by
  have hboth : Inv w ∧ Flying w :=
    hrun.invariant (I := fun w => Inv w ∧ Flying w)
      (fun _ _ _ h hstep => ⟨h.1.step hstep.1, h.2.step hstep⟩)
      ⟨Inv.of_atStart h₀, fun hdirty => absurd h₀.1 hdirty⟩
  exact hboth.2

/-- In calm runs no old state reaches the file, and a flush leaves the last one asked for. -/
theorem attempts_kept {sessionID : String} {w₀ w : Watched} {es : List Event} (h₀ : AtStart w₀)
    (hrun : Run (CalmStep sessionID) w₀ es w) :
    (∀ e w', CalmStep sessionID w e w' → NothingOld w w') ∧
      (∀ outcome w', CalmStep sessionID w (.flushSync outcome) w' → Kept w') ∧
      (Run (CompletingStep sessionID) w₀ es w → w.store.inFlight = [] → Kept w) := by
  have hinv := inv_of_run h₀ hrun
  refine ⟨fun e w' hstep => hinv.nothingOld hstep, ?_, ?_⟩
  · intro outcome w' hstep
    have hnext := hinv.step hstep
    obtain ⟨⟨-, rfl⟩, -⟩ := hstep
    exact hnext.kept (flushSync_clean _ _)
  · intro hcomplete hidle
    apply hinv.kept
    by_contra hdirty
    obtain ⟨write, hmem, -⟩ := flying_of_run h₀ hcomplete hdirty
    rw [hidle] at hmem
    exact nomatch hmem

def sampleStart : Watched := ⟨⟨.missing, none, 0, []⟩, .missing, []⟩

def sampleAttempt (position : Nat) : RecoveryAttempt :=
  ⟨.session_error, "ETIMEDOUT", 1000 + position, position, "retry", .next_strategy, none⟩

def sampleEvents : List Event :=
  let first := RecoveryStateStore.withAttempt (freshState "s") (sampleAttempt 0)
  [.recordAttempt (sampleAttempt 0) true true, .writeAsync ⟨first, 1⟩ .done,
    .recordAttempt (sampleAttempt 1) true true]

def hastyEvents : List Event :=
  [.recordAttempt (sampleAttempt 0) true true, .recordAttempt (sampleAttempt 1) true true]

theorem sampleStart_atStart : AtStart sampleStart := ⟨rfl, rfl, rfl, rfl⟩

theorem sample_run :
    Run (CalmStep "s") sampleStart sampleEvents
      (sampleEvents.foldl (Watched.perform "s") sampleStart) := by
  refine .cons ⟨⟨nofun, rfl⟩, rfl, rfl, nofun⟩
    (.cons ⟨⟨?_, rfl⟩, trivial⟩ (.cons ⟨⟨nofun, rfl⟩, rfl, rfl, ?_⟩ (.nil _)))
  · intro write outcome h
    cases h
    decide +kernel
  · intro state hfile
    cases hfile
    decide +kernel

theorem attempts_kept_sample :
    AtStart sampleStart ∧
      ∀ outcome w', CalmStep "s" (sampleEvents.foldl (Watched.perform "s") sampleStart)
        (.flushSync outcome) w' → Kept w' :=
  ⟨sampleStart_atStart, (attempts_kept sampleStart_atStart sample_run).2.1⟩

/-- The second of two attempts loads the file before the first one is written. -/
theorem attempts_kept_hasty :
    ¬ ∀ (w₀ w w' : Watched) (es : List Event), AtStart w₀ → Run (Step "s") w₀ es w →
      Step "s" w (.flushSync .done) w' → Kept w' := by
  intro hall
  have hrun : Run (Step "s") sampleStart hastyEvents
      (hastyEvents.foldl (Watched.perform "s") sampleStart) :=
    .cons ⟨nofun, rfl⟩ (.cons ⟨nofun, rfl⟩ (.nil _))
  have hkept := hall _ _ _ _ sampleStart_atStart hrun ⟨nofun, rfl⟩
  obtain ⟨state, hfile, hcount⟩ := hkept.2 (sampleAttempt 0) (by decide +kernel)
  have hstate : state = (RecoveryStateStore.withAttempt (freshState "s") (sampleAttempt 1)).stored := by
    cases hfile
    decide +kernel
  rw [hstate] at hcount
  exact absurd hcount (by decide +kernel)

end Watched
end Rolebox.Recovery
