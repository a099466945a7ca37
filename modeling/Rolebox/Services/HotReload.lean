import Mathlib.Data.List.DropRight
import Rolebox.General.Transition
import Rolebox.Hashline.Text

/-! Hot reload: watched changes are buffered, debounced, classified and reported. -/

namespace Rolebox.Services
open General List
open Hashline (Text)

structure PluginContext where
  rawDirectory : Text
  directory : Text
  roleboxDir : Text
  globalSkillsDir : Text
  configDir : Text
  builtinDir : Text

/-- A change a watcher reports: the directory it watches and the path inside it. -/
structure Change where
  watchedDir : Text
  filename : Text

inductive ChangeScope where
  | full
  | skipped
  | role (roleId : Text)
  | skill (roleId : Text)

inductive ReloadPath where
  | full
  | medium (roleIds : List Text)
  | fast (roleIds : List Text)

def toPosixPath (p : Text) : Text := p.map fun c => if c = '\\' then '/' else c

def watches (dir : Text) (change : Change) : Bool := dir ≠ [] ∧ change.watchedDir = dir

def changeScope (ctx : PluginContext) (change : Change) : ChangeScope :=
  if watches ctx.globalSkillsDir change then .full
  else if watches ctx.configDir change then .full
  else if ¬ (watches ctx.roleboxDir change ∨ watches ctx.directory change ∨
      watches ctx.rawDirectory change) then .full
  else
    let rel := toPosixPath change.filename
    if '/' ∉ rel then .skipped
    else
      let roleId := rel.takeWhile (· ≠ '/')
      let subPath := (rel.dropWhile (· ≠ '/')).tail
      if roleId = [] ∨ roleId.head? = some '.' then .skipped
      else if subPath = "role.yaml".toList then .role roleId
      else if "skills/".toList <+: subPath ∨ "/skills/".toList <:+: subPath then .skill roleId
      else .full

def addRole (roles : List Text) (roleId : Text) : List Text :=
  if roleId ∈ roles then roles else roles ++ [roleId]

/-- The changed roles in order; none where a change asks for a full reload. -/
def changedRoles (ctx : PluginContext) :
    List Change → List Text → List Text → Option (List Text × List Text)
  | [], medium, fast => some (medium, fast)
  | change :: changes, medium, fast =>
    match changeScope ctx change with
    | .full => none
    | .skipped => changedRoles ctx changes medium fast
    | .role roleId => changedRoles ctx changes (addRole medium roleId) fast
    | .skill roleId => changedRoles ctx changes medium (addRole fast roleId)

def classifyChanges (ctx : PluginContext) (changes : List Change) : ReloadPath :=
  match changedRoles ctx changes [] [] with
  | none => .full
  | some (medium, fast) =>
    if medium ≠ [] then .medium medium
    else if fast.length = 1 then .fast fast
    else .full

def settleMs : Nat := 200

def maxSafeInteger : Nat := 9007199254740991

def maxTime : Nat := 8640000000000000

def pendingCapacity : Nat := 200

/-- A change reported since the last reload started, and whether reloads could run then. -/
structure Report where
  change : Change
  heard : Bool

structure HotReload where
  debounceTimer : Bool
  reloadSuppressUntil : Nat
  running : Option ReloadPath
  pendingChanges : List Change
  lastEnd : Option Nat
  uncovered : List Report

structure Config where
  disabled : Bool
  ctx : PluginContext

/-- The resolver context fields are set. -/
def Config.ready (cfg : Config) : Bool :=
  cfg.ctx.roleboxDir ≠ [] ∧ cfg.ctx.globalSkillsDir ≠ [] ∧ cfg.ctx.configDir ≠ [] ∧
    cfg.ctx.builtinDir ≠ []

inductive ReloadEvent where
  | changed (change : Change) (now : Nat)
  | timer (now : Nat)
  | trigger
  | finished (now : Nat)

namespace HotReload
variable (cfg : Config)

def start : HotReload :=
  { debounceTimer := false, reloadSuppressUntil := 0, running := none, pendingChanges := []
    lastEnd := none, uncovered := [] }

def performReload (s : HotReload) : HotReload :=
  if cfg.disabled then s
  else if ¬ cfg.ready then s
  else if s.running.isSome then s
  else
    { s with
      reloadSuppressUntil := maxSafeInteger
      running := some (classifyChanges cfg.ctx s.pendingChanges)
      uncovered := [] }

def recordChange (s : HotReload) (change : Change) : HotReload :=
  { s with pendingChanges := (s.pendingChanges ++ [change]).rtake pendingCapacity }

def scheduleReload (s : HotReload) (now : Nat) : HotReload :=
  if cfg.disabled then s
  else if now < s.reloadSuppressUntil then s
  else { s with debounceTimer := true }

def hears (s : HotReload) (now : Nat) : Bool := cfg.ready ∧ s.reloadSuppressUntil ≤ now

section Fields
variable (s : HotReload) (change : Change)

@[simp] theorem recordChange_reloadSuppressUntil :
    (s.recordChange change).reloadSuppressUntil = s.reloadSuppressUntil := by
  unfold recordChange
  rfl

@[simp] theorem recordChange_running : (s.recordChange change).running = s.running := by
  unfold recordChange
  rfl

end Fields

def onFileChange (s : HotReload) (change : Change) (now : Nat) : HotReload :=
  scheduleReload cfg
    { s.recordChange change with
      uncovered := s.uncovered ++ [{ change, heard := s.hears cfg now }] } now

/-- Directories are watched unless reloads are disabled; reloads end with any result. -/
def step (s : HotReload) : ReloadEvent → Option HotReload
  | .changed change now =>
    if cfg.disabled = false ∧ now ≤ maxTime then some (s.onFileChange cfg change now) else none
  | .timer now =>
    if s.debounceTimer ∧ now ≤ maxTime then
      let fired := { s with debounceTimer := false }
      some (if now < s.reloadSuppressUntil then fired else fired.performReload cfg)
    else none
  | .trigger => some (s.performReload cfg)
  | .finished now =>
    if s.running.isSome then
      some { s with pendingChanges := [], running := none, lastEnd := some now }
    else none

def OpenStep (s : HotReload) (event : ReloadEvent) (s' : HotReload) : Prop :=
  s.step cfg event = some s' ∧ ∀ change now, event = .changed change now → s.hears cfg now = true

/-- No reload is running, no timer is pending and the settle window of the last reload is over. -/
structure Idle (s : HotReload) (now : Nat) : Prop where
  notRunning : s.running = none
  noTimer : s.debounceTimer = false
  settled : ∀ ended ∈ s.lastEnd, ended + settleMs ≤ now

end HotReload

section Classified
variable {cfg : Config} {s : HotReload} {ctx : PluginContext} {changes : List Change}
  {roles : List Text}

theorem changedRoles_some {medium fast medium' fast' : List Text}
    (h : changedRoles ctx changes medium fast = some (medium', fast')) :
    medium ⊆ medium' ∧ fast ⊆ fast' ∧ ∀ change ∈ changes, changeScope ctx change = .skipped ∨
      (∃ id ∈ medium', changeScope ctx change = .role id) ∨
        ∃ id ∈ fast', changeScope ctx change = .skill id := by
  have hadded (roles : List Text) (id : Text) : roles ⊆ addRole roles id ∧ id ∈ addRole roles id := by
    unfold addRole
    split <;> simp [*]
  induction changes generalizing medium fast with
  | nil =>
    cases h
    exact ⟨Subset.refl _, Subset.refl _, forall_mem_nil _⟩
  | cons change changes ih =>
    rw [changedRoles] at h
    simp only [forall_mem_cons]
    split at h
    · cases h
    · next hscope =>
      obtain ⟨hmedium, hfast, hrest⟩ := ih h
      exact ⟨hmedium, hfast, .inl hscope, hrest⟩
    · next id hscope =>
      obtain ⟨hmedium, hfast, hrest⟩ := ih h
      obtain ⟨hkept, hid⟩ := hadded medium id
      exact ⟨Subset.trans hkept hmedium, hfast, .inr (.inl ⟨id, hmedium hid, hscope⟩), hrest⟩
    · next id hscope =>
      obtain ⟨hmedium, hfast, hrest⟩ := ih h
      obtain ⟨hkept, hid⟩ := hadded fast id
      exact ⟨hmedium, Subset.trans hkept hfast, .inr (.inr ⟨id, hfast hid, hscope⟩), hrest⟩

/-- A reload is fast only where all that is pending, but what is skipped, is skills of its role. -/
theorem performReload_fast (hidle : s.running = none)
    (h : (s.performReload cfg).running = some (.fast roles)) :
    ∃ roleId, roles = [roleId] ∧ ∀ change ∈ s.pendingChanges,
      changeScope cfg.ctx change = .skipped ∨ changeScope cfg.ctx change = .skill roleId := by
  have hclass : classifyChanges cfg.ctx s.pendingChanges = .fast roles := by
    unfold HotReload.performReload at h
    rw [hidle] at h
    split at h
    · exact nomatch hidle.symm.trans h
    split at h
    · exact nomatch hidle.symm.trans h
    · exact Option.some.inj h
  unfold classifyChanges at hclass
  split at hclass
  · cases hclass
  next medium fast hroles =>
  split at hclass
  · cases hclass
  next hmedium =>
  split at hclass
  · next hone =>
    cases hclass
    obtain ⟨roleId, rfl⟩ := length_eq_one_iff.1 hone
    refine ⟨roleId, rfl, fun change hchange => ?_⟩
    obtain ⟨-, -, hall⟩ := changedRoles_some hroles
    rcases hall change hchange with hskipped | ⟨id, hid, -⟩ | ⟨id, hid, hskill⟩
    · exact .inl hskipped
    · rw [not_not.1 hmedium] at hid
      exact absurd hid not_mem_nil
    · exact .inr (mem_singleton.1 hid ▸ hskill)
  · cases hclass

end Classified

section Covered
variable {cfg : Config} {s s' : HotReload} {now : Nat}

structure Waiting (cfg : Config) (s : HotReload) : Prop where
  disabled : cfg.disabled = true → s.uncovered = []
  suppressed : s.reloadSuppressUntil = 0 ∨ s.reloadSuppressUntil = maxSafeInteger
  running : s.running.isSome = true → s.reloadSuppressUntil = maxSafeInteger
  scheduled : cfg.ready = true → s.reloadSuppressUntil = 0 →
    s.uncovered = [] ∨ s.debounceTimer = true
  reported : ∀ report ∈ s.uncovered,
    report.heard = (cfg.ready && decide (s.reloadSuppressUntil = 0))

theorem maxSafeInteger_ne_zero : maxSafeInteger ≠ 0 := Nat.succ_ne_zero _

theorem Waiting.start : Waiting cfg HotReload.start where
  disabled := fun _ => rfl
  suppressed := .inl rfl
  running := by simp [HotReload.start]
  scheduled := fun _ _ => .inl rfl
  reported := by simp [HotReload.start]

theorem Waiting.performReload (h : Waiting cfg { s with debounceTimer := true }) :
    Waiting cfg (s.performReload cfg) := by
  unfold HotReload.performReload
  split
  · next hdisabled =>
    exact ⟨h.disabled, h.suppressed, h.running, fun _ _ => .inl (h.disabled hdisabled), h.reported⟩
  split
  · next hready =>
    exact ⟨h.disabled, h.suppressed, h.running, fun hnow => absurd hnow hready, h.reported⟩
  split
  · next hrunning =>
    have hmax : s.reloadSuppressUntil = maxSafeInteger := h.running hrunning
    refine ⟨h.disabled, h.suppressed, h.running, fun _ hzero => ?_, h.reported⟩
    exact absurd (hmax.symm.trans hzero) maxSafeInteger_ne_zero
  · exact ⟨fun _ => rfl, .inr rfl, fun _ => rfl,
      fun _ hzero => absurd hzero maxSafeInteger_ne_zero, forall_mem_nil _⟩

theorem Waiting.scheduleReload (hdisabled : cfg.disabled = false)
    (h : Waiting cfg { s with debounceTimer := true }) :
    Waiting cfg (s.scheduleReload cfg now) := by
  unfold HotReload.scheduleReload
  rw [hdisabled]
  simp only [Bool.false_eq_true, if_false]
  split
  · next hlt =>
    refine ⟨h.disabled, h.suppressed, h.running, fun _ hzero => ?_, h.reported⟩
    omega
  · exact h

/-- The clock is a safe integer, so a change is heard exactly before the first reload. -/
theorem Waiting.hears (h : Waiting cfg s) (htime : now ≤ maxTime) :
    s.hears cfg now = (cfg.ready && decide (s.reloadSuppressUntil = 0)) := by
  have hdate : maxTime < maxSafeInteger := by decide
  unfold HotReload.hears
  rw [Bool.decide_and, Bool.decide_eq_true]
  congr 1
  rcases h.suppressed with hzero | hmax
  · simp [hzero]
  · apply decide_eq_decide.2
    rw [hmax]
    exact ⟨fun hle => by omega, fun hzero => absurd hzero maxSafeInteger_ne_zero⟩

theorem Waiting.step {event : ReloadEvent} (h : Waiting cfg s)
    (hstep : s.step cfg event = some s') : Waiting cfg s' := by
  cases event with
  | changed change now =>
    simp only [HotReload.step] at hstep
    split at hstep
    swap
    · exact absurd hstep (by simp)
    next hopen =>
    obtain ⟨hdisabled, htime⟩ := hopen
    cases hstep
    have hreported : ∀ report ∈ s.uncovered ++ [{ change, heard := s.hears cfg now }],
        report.heard = (cfg.ready && decide (s.reloadSuppressUntil = 0)) := by
      intro report hmem
      rcases mem_append.1 hmem with hold | hnew
      · exact h.reported report hold
      · rw [mem_singleton.1 hnew]
        exact h.hears htime
    unfold HotReload.onFileChange
    apply Waiting.scheduleReload hdisabled
    refine ⟨fun hoff => absurd (hdisabled.symm.trans hoff) Bool.false_ne_true, ?_, ?_,
      fun _ _ => .inr rfl, ?_⟩
    · simpa using h.suppressed
    · simpa using h.running
    · simpa using hreported
  | timer now =>
    simp only [HotReload.step] at hstep
    split at hstep
    swap
    · exact absurd hstep (by simp)
    cases hstep
    split
    · next hlt =>
      have hsuppressed : now < s.reloadSuppressUntil := hlt
      refine ⟨h.disabled, h.suppressed, h.running, fun _ hzero => ?_, h.reported⟩
      have hzero' : s.reloadSuppressUntil = 0 := hzero
      omega
    · exact Waiting.performReload
        ⟨h.disabled, h.suppressed, h.running, fun _ _ => .inr rfl, h.reported⟩
  | trigger =>
    cases hstep
    exact Waiting.performReload
      ⟨h.disabled, h.suppressed, h.running, fun _ _ => .inr rfl, h.reported⟩
  | finished now =>
    simp only [HotReload.step] at hstep
    split at hstep
    · cases hstep
      exact ⟨h.disabled, h.suppressed, fun hrunning => absurd hrunning (by simp), h.scheduled,
        h.reported⟩
    · exact absurd hstep (by simp)

theorem Waiting.covered (h : Waiting cfg s) (hidle : s.Idle now)
    (hheard : ∀ report ∈ s.uncovered, report.heard = true) : s.uncovered = [] := by
  by_contra hsome
  obtain ⟨report, hreport⟩ := exists_mem_of_ne_nil _ hsome
  have hflag := (h.reported report hreport).symm.trans (hheard report hreport)
  obtain ⟨hready, hzero⟩ := (Bool.and_eq_true _ _).mp hflag
  rcases h.scheduled hready (of_decide_eq_true hzero) with hnone | htimer
  · exact hsome hnone
  · exact absurd (htimer.symm.trans hidle.noTimer) (by decide)

theorem uncovered_of_step {event : ReloadEvent} (hstep : s.step cfg event = some s') :
    s'.uncovered = s.uncovered ∨ s'.uncovered = [] ∨
      ∃ change now, event = .changed change now ∧
        s'.uncovered = s.uncovered ++ [{ change, heard := s.hears cfg now }] := by
  have hperform : ∀ s : HotReload, (s.performReload cfg).uncovered = s.uncovered ∨
      (s.performReload cfg).uncovered = [] := by
    intro s
    unfold HotReload.performReload
    split
    · exact .inl rfl
    split
    · exact .inl rfl
    split
    · exact .inl rfl
    · exact .inr rfl
  cases event with
  | changed change now =>
    simp only [HotReload.step] at hstep
    split at hstep
    · cases hstep
      refine .inr (.inr ⟨change, now, rfl, ?_⟩)
      unfold HotReload.onFileChange HotReload.scheduleReload
      split
      · rfl
      split <;> rfl
    · exact absurd hstep (by simp)
  | timer now =>
    simp only [HotReload.step] at hstep
    split at hstep
    · cases hstep
      split
      · exact .inl rfl
      · exact (hperform _).imp_right .inl
    · exact absurd hstep (by simp)
  | trigger =>
    cases hstep
    exact (hperform s).imp_right .inl
  | finished now =>
    simp only [HotReload.step] at hstep
    split at hstep
    · cases hstep
      exact .inl rfl
    · exact absurd hstep (by simp)

/-- In idle states each change is covered exactly when every change left was heard. -/
theorem changes_covered {events : List ReloadEvent} (hidle : s.Idle now) :
    (Run (HotReload.OpenStep cfg) .start events s → s.uncovered = []) ∧
      (Run (fun s event s' => s.step cfg event = some s') .start events s →
        (s.uncovered = [] ↔ ∀ report ∈ s.uncovered, report.heard = true)) := by
  have hwaiting : Run (fun s event s' => s.step cfg event = some s') .start events s →
      Waiting cfg s :=
    fun hrun => hrun.invariant (fun _ _ _ hs hstep => hs.step hstep) Waiting.start
  constructor
  · intro hrun
    refine (hwaiting (hrun.mono fun _ _ _ hstep => hstep.1)).covered hidle ?_
    refine hrun.invariant (I := fun s => ∀ report ∈ s.uncovered, report.heard = true)
      (fun s event s' hs ⟨hstep, hopen⟩ => ?_) (forall_mem_nil _)
    rcases uncovered_of_step hstep with hsame | hnone | ⟨change, now, hevent, hadded⟩
    · rwa [hsame]
    · rw [hnone]
      exact forall_mem_nil _
    · rw [hadded]
      intro report hmem
      rcases mem_append.1 hmem with hold | hnew
      · exact hs report hold
      · rw [mem_singleton.1 hnew]
        exact hopen change now hevent
  · intro hrun
    exact ⟨fun hnone => by simp [hnone], (hwaiting hrun).covered hidle⟩

def sampleConfig : Config :=
  { disabled := false
    ctx :=
      { rawDirectory := ['w'], directory := ['w'], roleboxDir := ['r'], globalSkillsDir := ['g']
        configDir := ['c'], builtinDir := ['b'] } }

def sampleChange : Change := { watchedDir := ['r'], filename := "dev/role.yaml".toList }

theorem changes_covered_sample :
    ∃ s, Run (HotReload.OpenStep sampleConfig) .start
        [.changed sampleChange 0, .timer 500, .finished 900] s ∧
      s.Idle 1100 ∧ s.uncovered = [] := by
  have hrun : ∃ s, Run (HotReload.OpenStep sampleConfig) .start
      [.changed sampleChange 0, .timer 500, .finished 900] s ∧ s.Idle 1100 := by
    refine ⟨_, .cons ⟨rfl, fun _ _ hevent => by cases hevent; decide⟩ (.cons ⟨rfl, nofun⟩
      (.cons ⟨rfl, nofun⟩ (.nil _))), rfl, rfl, fun ended hended => ?_⟩
    rw [← Option.some.inj hended]
    decide
  obtain ⟨s, hrun, hidle⟩ := hrun
  exact ⟨s, hrun, hidle, (changes_covered hidle).1 hrun⟩

/-- After one reload a change is recorded and nothing is scheduled for it. -/
theorem later_change_not_covered :
    ∃ s, Run (fun (s : HotReload) event s' => s.step sampleConfig event = some s') .start
        [.trigger, .finished 100, .changed sampleChange 1000] s ∧
      s.Idle 1000 ∧ s.uncovered ≠ [] := by
  refine ⟨_, .cons rfl (.cons rfl (.cons rfl (.nil _))), ⟨rfl, rfl, fun ended hended => ?_⟩, ?_⟩
  · rw [← Option.some.inj hended]
    decide
  · exact cons_ne_nil _ _

end Covered

end Rolebox.Services
