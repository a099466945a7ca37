import Mathlib.Algebra.Group.Nat.Defs
import Mathlib.Data.List.Infix
import Rolebox.General.Transition

/-! Supervised restarts: the tracking state read before a restart and written after it. -/

namespace Rolebox.Services
open General List Function Option

inductive RestartStatus where
  | ok
  | backoff
  | permanentlyDegraded
  deriving DecidableEq

structure ServiceRestartState where
  attempts : Nat
  firstAttemptTime : Nat
  lastAttemptTime : Nat
  backoffUntil : Nat
  status : RestartStatus

def maxRestartsPerWindow : Nat := 3
def windowMs : Nat := 60000
def baseBackoffMs : Nat := 1000
def backoffFactor : Nat := 2
def maxBackoffMs : Nat := 30000

def guardBudget (state : ServiceRestartState) : ServiceRestartState × Bool :=
  if maxRestartsPerWindow ≤ state.attempts then
    ({ state with status := .permanentlyDegraded }, false)
  else (state, true)

def enter (state : Option ServiceRestartState) (now : Nat) : ServiceRestartState × Bool :=
  match state with
  | none =>
    guardBudget { attempts := 0, firstAttemptTime := now, lastAttemptTime := now,
                  backoffUntil := 0, status := .ok }
  | some state =>
    if state.status = .permanentlyDegraded then (state, false)
    else if state.status = .backoff ∧ now < state.backoffUntil then (state, false)
    else
      guardBudget
        (if windowMs < now - state.firstAttemptTime then
          { state with attempts := 0, firstAttemptTime := now }
        else state)

def afterSuccess (state : ServiceRestartState) : ServiceRestartState :=
  { state with attempts := 0, status := .ok }

def afterFailure (state : ServiceRestartState) (now : Nat) : ServiceRestartState :=
  let attempts := state.attempts + 1
  if maxRestartsPerWindow ≤ attempts then
    { state with attempts, lastAttemptTime := now, status := .permanentlyDegraded }
  else
    { state with
      attempts, lastAttemptTime := now, status := .backoff
      backoffUntil := now + min (baseBackoffMs * backoffFactor ^ attempts) maxBackoffMs }

section Runs
variable {Name : Type} [DecidableEq Name]

/-- A restart in progress: when its call was made, and the attempt its budget counts from. -/
structure Restart where
  time : Nat
  window : Nat

/-- What happened to a service. A failure sets a backoff period or marks the service degraded. -/
inductive Event where
  | started (time : Nat)
  | succeeded
  | failed (time window : Nat) (backoff : Option Nat)
  | degraded
  deriving DecidableEq

structure Supervisor (Name : Type) where
  states : Name → Option ServiceRestartState
  running : Name → List Restart
  clock : Nat
  log : Name → List Event

def Supervisor.start : Supervisor Name :=
  { states := fun _ => none, running := fun _ => [], clock := 0, log := fun _ => [] }

inductive Action (Name : Type) where
  | call (name : Name) (now : Nat)
  | settle (name : Name) (i : Nat) (ok : Bool)

def isDegraded (state : Option ServiceRestartState) : Prop :=
  ∃ s ∈ state, s.status = .permanentlyDegraded

instance (state : Option ServiceRestartState) : Decidable (isDegraded state) :=
  inferInstanceAs (Decidable (∃ s ∈ state, s.status = .permanentlyDegraded))

def degradedEvents (before after : Option ServiceRestartState) : List Event :=
  if isDegraded after ∧ ¬ isDegraded before then [.degraded] else []

/-- A call runs up to its restart at once; a restart in progress ends at any later time. -/
def Supervisor.step (w : Supervisor Name) : Action Name → Option (Supervisor Name)
  | .call name now =>
    if now < w.clock then none
    else
      let (state, restarts) := enter (w.states name) now
      some
        { states := update w.states name (some state)
          running := update w.running name
            (w.running name ++
              if restarts then [{ time := now, window := state.firstAttemptTime }] else [])
          clock := now
          log := update w.log name
            (w.log name ++ (if restarts then [.started now] else []) ++
              degradedEvents (w.states name) (some state)) }
  | .settle name i ok =>
    match (w.running name)[i]?, w.states name with
    | some restart, some state =>
      let next := if ok then afterSuccess state else afterFailure state restart.time
      let event :=
        if ok then .succeeded
        else .failed restart.time restart.window
          (if next.status = .backoff then some next.backoffUntil else none)
      some
        { w with
          states := update w.states name (some next)
          running := update w.running name ((w.running name).eraseIdx i)
          log := update w.log name
            (w.log name ++ [event] ++ degradedEvents (some state) (some next)) }
    | _, _ => none

/-- A step of runs in which no call for a service is made while a restart of it is running. -/
def SoloStep (w : Supervisor Name) (a : Action Name) (w' : Supervisor Name) : Prop :=
  w.step a = some w' ∧ ∀ name now, a = .call name now → w.running name = []

end Runs

section Discipline
variable {event : Event} {window : Nat} {backoff : Option Nat} {restart : Restart}

/-- No restart starts in a backoff period, and none once the service is degraded. -/
def Respects : Event → Event → Prop
  | .failed _ _ (some backoffUntil), .started time => backoffUntil ≤ time
  | .degraded, .started _ => False
  | _, _ => True

def isFailedIn (window : Nat) : Event → Bool
  | .failed _ w _ => w = window
  | _ => false

def failuresSince (window : Nat) (log : List Event) : Nat :=
  (log.reverse.takeWhile (· ≠ .succeeded)).countP (isFailedIn window)

theorem failuresSince_concat (window : Nat) (log : List Event) (event : Event) :
    failuresSince window (log ++ [event]) = if event = .succeeded then 0
      else failuresSince window log + if isFailedIn window event then 1 else 0 := by
  rw [failuresSince, reverse_append, reverse_singleton, singleton_append, takeWhile_cons]
  by_cases h : event = .succeeded
  · simp [h]
  · simp [h, failuresSince, countP_cons]

structure Tracked (clock : Nat) (state : ServiceRestartState) (running : List Restart)
    (log : List Event) : Prop where
  anchored : state.firstAttemptTime ≤ clock
  below : state.status ≠ .permanentlyDegraded → state.attempts < maxRestartsPerWindow
  counted : state.attempts = failuresSince state.firstAttemptTime log
  windows : ∀ time window backoff, Event.failed time window backoff ∈ log →
    window ≤ state.firstAttemptTime ∧ window ≤ time ∧ time ≤ window + windowMs
  lifted : ∀ time window backoffUntil, Event.failed time window (some backoffUntil) ∈ log →
    (state.status = .backoff → backoffUntil ≤ state.backoffUntil) ∧
      (state.status = .ok → backoffUntil ≤ clock)
  inProgress : ∀ restart ∈ running, state.status ≠ .permanentlyDegraded ∧
    restart.window = state.firstAttemptTime ∧ restart.window ≤ restart.time ∧
      restart.time ≤ restart.window + windowMs ∧ restart.time ≤ clock ∧
        ∀ time window backoffUntil, Event.failed time window (some backoffUntil) ∈ log →
          backoffUntil ≤ restart.time

structure Inv (clock : Nat) (state : Option ServiceRestartState) (running : List Restart)
    (log : List Event) : Prop where
  solo : running.length ≤ 1
  fresh : state = none → running = [] ∧ log = []
  respects : log.Pairwise Respects
  final : Event.degraded ∈ log ↔ isDegraded state
  budget : ∀ before, before <+: log → ∀ window, failuresSince window before ≤ maxRestartsPerWindow
  tracked : ∀ s ∈ state, Tracked clock s running log

variable {clock now : Nat} {state : Option ServiceRestartState} {s : ServiceRestartState}
  {running : List Restart} {log : List Event}

theorem isDegraded_some (s : ServiceRestartState) :
    isDegraded (some s) ↔ s.status = .permanentlyDegraded := by
  simp [isDegraded]

theorem Inv.init : Inv clock none [] [] where
  solo := Nat.zero_le _
  fresh := fun _ => ⟨rfl, rfl⟩
  respects := .nil
  final := by simp [isDegraded]
  budget := by
    intro before hbegins window
    rw [prefix_nil.1 hbegins]
    exact Nat.zero_le _
  tracked := by simp

theorem Inv.later (h : Inv clock state running log) (hle : clock ≤ now) :
    Inv now state running log where
  solo := h.solo
  fresh := h.fresh
  respects := h.respects
  final := h.final
  budget := h.budget
  tracked := fun s hs => by
    have ht := h.tracked s hs
    refine { ht with anchored := ht.anchored.trans hle, lifted := ?_, inProgress := ?_ }
    · intro time window backoffUntil hmem
      exact ⟨(ht.lifted _ _ _ hmem).1, fun hok => ((ht.lifted _ _ _ hmem).2 hok).trans hle⟩
    · intro restart hrestart
      obtain ⟨hlive, hwindow, hfrom, huntil, htime, hlifted⟩ := ht.inProgress restart hrestart
      exact ⟨hlive, hwindow, hfrom, huntil, htime.trans hle, hlifted⟩

theorem budget_concat
    (h : ∀ before, before <+: log → ∀ window, failuresSince window before ≤ maxRestartsPerWindow)
    (hevent : ∀ window, failuresSince window (log ++ [event]) ≤ maxRestartsPerWindow) :
    ∀ before, before <+: log ++ [event] → ∀ window,
      failuresSince window before ≤ maxRestartsPerWindow := by
  intro before hbegins window
  rcases prefix_concat_iff.1 hbegins with rfl | hbefore
  · exact hevent window
  · exact h before hbefore window

theorem respects_concat (h : log.Pairwise Respects)
    (hevent : ∀ earlier ∈ log, Respects earlier event) : (log ++ [event]).Pairwise Respects :=
  pairwise_append.2 ⟨h, pairwise_singleton _ _, fun earlier hmem later hlater => by
    rw [mem_singleton.1 hlater]
    exact hevent earlier hmem⟩

/-- A call leaves the state, or restarts the service out of any backoff within its budget. -/
theorem enter_some (hbelow : s.status ≠ .permanentlyDegraded → s.attempts < maxRestartsPerWindow) :
    enter (some s) now = (s, false) ∨
      ∃ next, enter (some s) now = (next, true) ∧ s.status ≠ .permanentlyDegraded ∧
        (s.status = .backoff → s.backoffUntil ≤ now) ∧ next.status = s.status ∧
          next.backoffUntil = s.backoffUntil ∧
            (next = s ∧ now ≤ s.firstAttemptTime + windowMs ∨
              next.attempts = 0 ∧ next.firstAttemptTime = now ∧
                s.firstAttemptTime + windowMs < now) := by
  unfold enter
  dsimp only
  split
  · exact .inl rfl
  next hlive =>
  split
  · exact .inl rfl
  next hopen =>
  have hbackoff : s.status = .backoff → s.backoffUntil ≤ now := fun hstatus =>
    Nat.not_lt.1 fun hlt => hopen ⟨hstatus, hlt⟩
  right
  split
  · next hexpired =>
    refine ⟨_, if_neg ?_, hlive, hbackoff, rfl, rfl, .inr ⟨rfl, rfl, by omega⟩⟩
    simp [maxRestartsPerWindow]
  · next hcurrent =>
    exact ⟨s, if_neg (Nat.not_le.2 (hbelow hlive)), hlive, hbackoff, rfl, rfl, .inl ⟨rfl, by omega⟩⟩

theorem failuresSince_of_later
    (h : ∀ time w backoff, Event.failed time w backoff ∈ log → w < window) :
    failuresSince window log = 0 := by
  refine countP_eq_zero.2 fun event hmem hfailed => ?_
  cases event with
  | failed time w backoff =>
    have hlog : Event.failed time w backoff ∈ log :=
      mem_reverse.1 ((takeWhile_sublist _).subset hmem)
    have heq : w = window := by simpa [isFailedIn] using hfailed
    exact absurd (h _ _ _ hlog) (by omega)
  | _ => simp [isFailedIn] at hfailed

theorem mem_concat_failed {time : Nat} (hevent : event ≠ .failed time window backoff) :
    Event.failed time window backoff ∈ log ++ [event] ↔ Event.failed time window backoff ∈ log := by
  simp [Ne.symm hevent]

theorem Inv.first :
    Inv now (some (enter none now).1) [{ time := now, window := now }] [.started now] where
  solo := le_rfl
  fresh := by simp
  respects := pairwise_singleton _ _
  final := by simp [isDegraded, enter, guardBudget, maxRestartsPerWindow]
  budget := by
    have hempty : ∀ before : List Event, before <+: [] → ∀ window,
        failuresSince window before ≤ maxRestartsPerWindow := by
      intro before hbegins window
      rw [prefix_nil.1 hbegins]
      exact Nat.zero_le _
    exact budget_concat hempty fun _ => Nat.zero_le _
  tracked := by
    simp only [mem_def, some.injEq, forall_eq']
    constructor
    · exact le_rfl
    · simp [enter, guardBudget, maxRestartsPerWindow]
    · rfl
    · simp
    · simp
    · simp [enter, guardBudget, maxRestartsPerWindow, windowMs]

theorem Inv.begin {next : ServiceRestartState} (h : Inv clock (some s) [] log) (hle : clock ≤ now)
    (hlive : s.status ≠ .permanentlyDegraded)
    (hbackoff : s.status = .backoff → s.backoffUntil ≤ now) (hstatus : next.status = s.status)
    (huntil : next.backoffUntil = s.backoffUntil)
    (hwindow : next = s ∧ now ≤ s.firstAttemptTime + windowMs ∨
      next.attempts = 0 ∧ next.firstAttemptTime = now ∧ s.firstAttemptTime + windowMs < now) :
    Inv now (some next) [{ time := now, window := next.firstAttemptTime }]
      (log ++ [.started now]) := by
  have ht := h.tracked s rfl
  have hlifted : ∀ time window backoffUntil,
      Event.failed time window (some backoffUntil) ∈ log → backoffUntil ≤ now := by
    intro time window backoffUntil hmem
    obtain ⟨hback, hok⟩ := ht.lifted _ _ _ hmem
    cases hs : s.status with
    | ok => exact (hok hs).trans hle
    | backoff => exact (hback hs).trans (hbackoff hs)
    | permanentlyDegraded => exact absurd hs hlive
  have hanchor : s.firstAttemptTime ≤ now := ht.anchored.trans hle
  have hsame : ∀ window, failuresSince window (log ++ [.started now]) = failuresSince window log :=
    fun window => by rw [failuresSince_concat]; simp [isFailedIn]
  refine ⟨le_rfl, by simp, respects_concat h.respects ?_, ?_, budget_concat h.budget ?_, ?_⟩
  · intro earlier hmem
    cases earlier with
    | failed time window backoff =>
      cases backoff with
      | none => trivial
      | some backoffUntil => exact hlifted _ _ _ hmem
    | degraded => exact hlive ((isDegraded_some s).1 (h.final.1 hmem))
    | _ => trivial
  · have hfinal := h.final
    rw [isDegraded_some] at hfinal
    rw [isDegraded_some, hstatus, ← hfinal]
    simp
  · intro window
    rw [hsame]
    exact h.budget log (prefix_refl log) window
  · simp only [mem_def, some.injEq, forall_eq']
    have hmem : ∀ time window backoff, Event.failed time window backoff ∈ log ++ [.started now] ↔
        Event.failed time window backoff ∈ log := fun _ _ _ => mem_concat_failed (by simp)
    refine ⟨?_, ?_, ?_, ?_, ?_, ?_⟩
    · rcases hwindow with ⟨rfl, -⟩ | ⟨-, hfirst, -⟩
      · exact hanchor
      · exact hfirst.le
    · intro _
      rcases hwindow with ⟨rfl, -⟩ | ⟨hzero, -⟩
      · exact ht.below hlive
      · rw [hzero]
        decide
    · rw [hsame]
      rcases hwindow with ⟨rfl, -⟩ | ⟨hzero, hfirst, hexpired⟩
      · exact ht.counted
      · rw [hzero, hfirst, failuresSince_of_later fun time window backoff hlog => ?_]
        have hle' := (ht.windows _ _ _ hlog).1
        omega
    · intro time window backoff hlog
      obtain ⟨hfirst, hbounds⟩ := ht.windows _ _ _ ((hmem _ _ _).1 hlog)
      refine ⟨hfirst.trans ?_, hbounds⟩
      rcases hwindow with ⟨rfl, -⟩ | ⟨-, hnext, -⟩
      · exact le_rfl
      · rwa [hnext]
    · intro time window backoffUntil hlog
      obtain ⟨hback, -⟩ := ht.lifted _ _ _ ((hmem _ _ _).1 hlog)
      rw [hstatus, huntil]
      exact ⟨hback, fun _ => hlifted _ _ _ ((hmem _ _ _).1 hlog)⟩
    · intro restart hrestart
      obtain rfl := mem_singleton.1 hrestart
      refine ⟨by rwa [hstatus], rfl, ?_, ?_, le_rfl, fun time window backoffUntil hlog =>
        hlifted _ _ _ ((hmem _ _ _).1 hlog)⟩
      · rcases hwindow with ⟨rfl, -⟩ | ⟨-, hnext, -⟩
        · exact hanchor
        · exact hnext.le
      · rcases hwindow with ⟨rfl, hcurrent⟩ | ⟨-, hnext, -⟩
        · exact hcurrent
        · rw [hnext]
          exact Nat.le_add_right _ _

section

variable (h : Inv clock (some s) [restart] log)
include h

theorem Inv.success : Inv clock (some (afterSuccess s)) [] (log ++ [.succeeded]) := by
  have ht := h.tracked s rfl
  obtain ⟨hlive, -, -, -, htime, hlifted⟩ := ht.inProgress restart (by simp)
  have hmem : ∀ time window backoff, Event.failed time window backoff ∈ log ++ [.succeeded] ↔
      Event.failed time window backoff ∈ log := fun _ _ _ => mem_concat_failed (by simp)
  refine ⟨Nat.zero_le _, by simp, respects_concat h.respects ?_, ?_, budget_concat h.budget ?_, ?_⟩
  · intro earlier _
    cases earlier with
    | failed time window backoff => cases backoff <;> trivial
    | _ => trivial
  · have hfinal := h.final
    rw [isDegraded_some] at hfinal
    rw [isDegraded_some]
    simp [afterSuccess, hfinal, hlive]
  · intro window
    rw [failuresSince_concat, if_pos rfl]
    exact Nat.zero_le _
  · simp only [mem_def, some.injEq, forall_eq']
    refine ⟨ht.anchored, fun _ => Nat.zero_lt_succ _, ?_, ?_, ?_, by simp⟩
    · rw [failuresSince_concat, if_pos rfl]
      rfl
    · intro time window backoff hlog
      exact ht.windows _ _ _ ((hmem _ _ _).1 hlog)
    · intro time window backoffUntil hlog
      refine ⟨fun hback => absurd hback (by simp [afterSuccess]), fun _ => ?_⟩
      exact (hlifted _ _ _ ((hmem _ _ _).1 hlog)).trans htime

omit h in
theorem Tracked.failures (window : Nat) (h : Tracked clock s [restart] log) :
    failuresSince window (log ++ [.failed restart.time restart.window backoff]) =
      failuresSince window log + if window = s.firstAttemptTime then 1 else 0 := by
  obtain ⟨-, hwindow, -⟩ := h.inProgress restart (by simp)
  rw [failuresSince_concat, if_neg (by simp), hwindow]
  by_cases heq : window = s.firstAttemptTime
  · simp [isFailedIn, heq]
  · simp [isFailedIn, heq, Ne.symm heq]

theorem Inv.failure_budget (window : Nat) :
    failuresSince window (log ++ [.failed restart.time restart.window backoff]) ≤
      maxRestartsPerWindow := by
  have ht := h.tracked s rfl
  rw [ht.failures]
  split
  · next hwindow =>
    have hbelow := ht.below (ht.inProgress restart (by simp)).1
    rw [hwindow, ← ht.counted]
    omega
  · exact h.budget log (prefix_refl log) window

omit h in
theorem respects_failed (earlier : Event) (time window : Nat) (backoff : Option Nat) :
    Respects earlier (.failed time window backoff) := by
  cases earlier with
  | failed _ _ backoff => cases backoff <;> trivial
  | _ => trivial

omit h in
theorem respects_degraded (earlier : Event) : Respects earlier .degraded := by
  cases earlier with
  | failed _ _ backoff => cases backoff <;> trivial
  | _ => trivial

omit h in
theorem Tracked.windows_failed (h : Tracked clock s [restart] log) {time : Nat} {b : Option Nat}
    (hmem : Event.failed time window b ∈ log ++ [.failed restart.time restart.window backoff]) :
    window ≤ s.firstAttemptTime ∧ window ≤ time ∧ time ≤ window + windowMs := by
  obtain ⟨-, hwindow, hfrom, huntil, -, -⟩ := h.inProgress restart (by simp)
  rcases mem_append.1 hmem with hlog | hnew
  · exact h.windows _ _ _ hlog
  · obtain ⟨rfl, rfl, -⟩ := Event.failed.inj (mem_singleton.1 hnew)
    exact ⟨hwindow.le, hfrom, huntil⟩

theorem Inv.failure (hbudget : s.attempts + 1 < maxRestartsPerWindow) :
    Inv clock (some (afterFailure s restart.time)) []
      (log ++ [.failed restart.time restart.window
        (some (afterFailure s restart.time).backoffUntil)]) := by
  have ht := h.tracked s rfl
  obtain ⟨hlive, hwindow, hfrom, huntil, htime, hlifted⟩ := ht.inProgress restart (by simp)
  obtain ⟨backoffUntil, hbackoff⟩ :
    ∃ backoffUntil, (afterFailure s restart.time).backoffUntil = backoffUntil := ⟨_, rfl⟩
  have hnext : afterFailure s restart.time = { s with
      attempts := s.attempts + 1, lastAttemptTime := restart.time, status := .backoff
      backoffUntil := backoffUntil } := by
    rw [← hbackoff]
    simp [afterFailure, Nat.not_le.2 hbudget]
  have hset : restart.time ≤ backoffUntil := by
    rw [← hbackoff, afterFailure, if_neg (Nat.not_le.2 hbudget)]
    exact Nat.le_add_right _ _
  rw [hnext]
  refine ⟨Nat.zero_le _, by simp, respects_concat h.respects fun earlier _ =>
    respects_failed earlier _ _ _, ?_, budget_concat h.budget h.failure_budget, ?_⟩
  · have hfinal := h.final
    rw [isDegraded_some] at hfinal
    rw [isDegraded_some]
    simp [hfinal, hlive]
  · simp only [mem_def, some.injEq, forall_eq']
    refine ⟨ht.anchored, fun _ => hbudget, ?_, fun _ _ _ => ht.windows_failed, ?_, by simp⟩
    · rw [ht.failures, if_pos rfl, ← ht.counted]
    intro time window until' hlog
    refine ⟨fun _ => ?_, fun hok => absurd hok (by simp)⟩
    rcases mem_append.1 hlog with hold | hnew
    · exact (hlifted _ _ _ hold).trans hset
    · obtain ⟨-, -, hthis⟩ := Event.failed.inj (mem_singleton.1 hnew)
      exact (Option.some.inj hthis).le

theorem Inv.lastFailure (hbudget : maxRestartsPerWindow ≤ s.attempts + 1) :
    Inv clock (some (afterFailure s restart.time)) []
      (log ++ [.failed restart.time restart.window none] ++ [.degraded]) := by
  have ht := h.tracked s rfl
  obtain ⟨hlive, -⟩ := ht.inProgress restart (by simp)
  have hnext : afterFailure s restart.time = { s with
      attempts := s.attempts + 1, lastAttemptTime := restart.time
      status := .permanentlyDegraded } := by
    simp [afterFailure, hbudget]
  have hsame : ∀ window log, failuresSince window (log ++ [.degraded]) = failuresSince window log :=
    fun window log => by rw [failuresSince_concat]; simp [isFailedIn]
  have hfailed : ∀ window, failuresSince window
      (log ++ [.failed restart.time restart.window none]) ≤ maxRestartsPerWindow :=
    h.failure_budget
  have hone := budget_concat h.budget hfailed
  rw [hnext]
  refine ⟨Nat.zero_le _, by simp, ?_, ?_, budget_concat hone ?_, ?_⟩
  · exact respects_concat (respects_concat h.respects fun earlier _ =>
      respects_failed earlier _ _ _) fun earlier _ => respects_degraded earlier
  · simp [isDegraded_some]
  · intro window
    rw [hsame]
    exact h.failure_budget window
  · simp only [mem_def, some.injEq, forall_eq']
    refine ⟨ht.anchored, fun hok => absurd rfl hok, ?_, ?_, ?_, by simp⟩
    · rw [hsame, ht.failures, if_pos rfl, ← ht.counted]
    · intro time window backoff hlog
      exact ht.windows_failed ((mem_concat_failed (by simp)).1 hlog)
    · intro time window backoffUntil hlog
      exact ⟨fun hback => absurd hback (by simp), fun hok => absurd hok (by simp)⟩

end

end Discipline

section Kept
variable {Name : Type} [DecidableEq Name] {w w' : Supervisor Name}

theorem degradedEvents_of_live {before after : Option ServiceRestartState}
    (h : ¬ isDegraded after) : degradedEvents before after = [] :=
  if_neg fun hboth => h hboth.1

theorem degradedEvents_self (state : Option ServiceRestartState) :
    degradedEvents state state = [] :=
  if_neg fun hboth => hboth.2 hboth.1

def Kept (w : Supervisor Name) : Prop :=
  ∀ name, Inv w.clock (w.states name) (w.running name) (w.log name)

theorem Kept.call {name : Name} {now : Nat} (h : Kept w) (hsolo : w.running name = [])
    (hstep : w.step (.call name now) = some w') : Kept w' := by
  simp only [Supervisor.step] at hstep
  split at hstep
  · exact absurd hstep (by simp)
  next hclock =>
  have hle : w.clock ≤ now := Nat.not_lt.1 hclock
  cases hstep
  intro other
  by_cases hother : other = name
  · subst hother
    simp only [update_self, hsolo, nil_append]
    have hinv := h other
    rw [hsolo] at hinv
    cases hstate : w.states other with
    | none =>
      have hfirst : enter none now = ((enter none now).1, true) := rfl
      have hlive : ¬ isDegraded (some (enter none now).1) := by
        simp [isDegraded, enter, guardBudget, maxRestartsPerWindow]
      rw [(hinv.fresh hstate).2, degradedEvents_of_live hlive, hfirst]
      exact Inv.first
    | some s =>
      rw [hstate] at hinv
      have ht := hinv.tracked s rfl
      rcases (show enter (some s) now = (s, false) ∨ _ from enter_some ht.below) with
        hskip | ⟨next, hnext, hlive, hbackoff, hstatus, huntil, hwindow⟩
      · rw [hskip]
        simp only [Bool.false_eq_true, if_false, append_nil, degradedEvents_self]
        exact hinv.later hle
      · have hnot : ¬ isDegraded (some next) := by rwa [isDegraded_some, hstatus]
        rw [hnext]
        simp only [if_true, degradedEvents_of_live hnot, append_nil]
        exact hinv.begin hle hlive hbackoff hstatus huntil hwindow
  · simp only [update_of_ne hother]
    exact (h other).later hle

theorem Kept.settle {name : Name} {i : Nat} {ok : Bool} (h : Kept w)
    (hstep : w.step (.settle name i ok) = some w') : Kept w' := by
  simp only [Supervisor.step] at hstep
  split at hstep
  case h_2 => exact absurd hstep (by simp)
  next restart s hrestart hstate =>
  cases hstep
  intro other
  by_cases hother : other = name
  · subst hother
    have hinv := h other
    -- the one running restart is the one that ends
    have honly : w.running other = [restart] ∧ i = 0 := by
      obtain ⟨hlt, hget⟩ := List.getElem?_eq_some_iff.1 hrestart
      have hsolo := hinv.solo
      obtain ⟨only, hrunning⟩ := length_eq_one_iff.1 (show (w.running other).length = 1 by omega)
      have hzero : i = 0 := by omega
      subst hzero
      rw [hrunning] at hrestart
      exact ⟨by rw [hrunning, Option.some.inj hrestart], rfl⟩
    obtain ⟨hrunning, rfl⟩ := honly
    rw [hrunning, hstate] at hinv
    simp only [update_self, hrunning, eraseIdx_cons_zero]
    cases ok with
    | true =>
      have hlive : ¬ isDegraded (some (afterSuccess s)) := by simp [isDegraded, afterSuccess]
      simp only [if_true, degradedEvents_of_live hlive, append_nil]
      exact hinv.success
    | false =>
      simp only [Bool.false_eq_true, if_false]
      by_cases hbudget : maxRestartsPerWindow ≤ s.attempts + 1
      · have hlast : (afterFailure s restart.time).status = .permanentlyDegraded := by
          simp [afterFailure, hbudget]
        have hlive := ((hinv.tracked s rfl).inProgress restart (by simp)).1
        have hevents : degradedEvents (some s) (some (afterFailure s restart.time)) = [.degraded] :=
          if_pos ⟨(isDegraded_some _).2 hlast, fun hs => hlive ((isDegraded_some s).1 hs)⟩
        rw [hevents, hlast, if_neg (by simp)]
        exact hinv.lastFailure hbudget
      · have hback : (afterFailure s restart.time).status = .backoff := by
          simp [afterFailure, hbudget]
        have hlive : ¬ isDegraded (some (afterFailure s restart.time)) := by
          rw [isDegraded_some, hback]
          simp
        rw [degradedEvents_of_live hlive, hback, if_pos rfl, append_nil]
        exact hinv.failure (by omega)
  · simp only [update_of_ne hother]
    exact h other

theorem Kept.step {a : Action Name} (h : Kept w) (hstep : SoloStep w a w') : Kept w' := by
  obtain ⟨hstep, hsolo⟩ := hstep
  cases a with
  | call name now => exact h.call (hsolo name now rfl) hstep
  | settle name i ok => exact h.settle hstep

/-- What the restarts of one service keep to. -/
structure Disciplined (w : Supervisor Name) (name : Name) : Prop where
  oneAtATime : (w.running name).length ≤ 1
  respected : (w.log name).Pairwise Respects
  final : Event.degraded ∈ w.log name ↔ isDegraded (w.states name)
  budget : ∀ before, before <+: w.log name → ∀ window,
    failuresSince window before ≤ maxRestartsPerWindow
  inWindow : ∀ time window backoff, Event.failed time window backoff ∈ w.log name →
    window ≤ time ∧ time ≤ window + windowMs

/-- In a run whose calls do not overlap the restarts of every service are disciplined. -/
theorem restart_discipline {actions : List (Action Name)}
    (h : Run SoloStep Supervisor.start actions w) (name : Name) : Disciplined w name := by
  have hkept : Kept w := h.invariant (I := Kept) (fun _ _ _ hs hstep => hs.step hstep)
    fun _ => Inv.init
  have hinv := hkept name
  refine ⟨hinv.solo, hinv.respects, hinv.final, hinv.budget, fun time window backoff hlog => ?_⟩
  cases hstate : w.states name with
  | none =>
    rw [(hinv.fresh hstate).2] at hlog
    exact absurd hlog (not_mem_nil)
  | some s => exact ((hinv.tracked s hstate).windows _ _ _ hlog).2

def failedStarts (log : List Event) : List Nat :=
  log.filterMap fun
    | .failed time _ _ => some time
    | _ => none

def forgivenActions : List (Action Unit) :=
  [.call () 0, .settle () 0 false, .call () 2000, .settle () 0 false, .call () 6000,
    .settle () 0 true, .call () 6001, .settle () 0 false, .call () 8001, .settle () 0 false]

theorem restart_discipline_sample :
    ∃ w, Run SoloStep Supervisor.start forgivenActions w ∧ Disciplined w () := by
  have hrun : ∃ w, Run SoloStep Supervisor.start forgivenActions w := by
    refine ⟨_, .cons ⟨rfl, fun _ _ _ => rfl⟩ (.cons ⟨rfl, nofun⟩ (.cons ⟨rfl, fun _ _ _ => rfl⟩
      (.cons ⟨rfl, nofun⟩ (.cons ⟨rfl, fun _ _ _ => rfl⟩ (.cons ⟨rfl, nofun⟩
        (.cons ⟨rfl, fun _ _ _ => rfl⟩ (.cons ⟨rfl, nofun⟩ (.cons ⟨rfl, fun _ _ _ => rfl⟩
          (.cons ⟨rfl, nofun⟩ (.nil _))))))))))⟩
  obtain ⟨w, hrun⟩ := hrun
  exact ⟨w, hrun, restart_discipline hrun ()⟩

/-- Four failed restarts start within nine seconds: the success between them resets the budget. -/
theorem success_resets_budget :
    ∃ w, Run SoloStep Supervisor.start forgivenActions w ∧
      maxRestartsPerWindow < (failedStarts (w.log ())).countP
        fun time => 0 ≤ time ∧ time ≤ 0 + windowMs := by
  refine ⟨_, .cons ⟨rfl, fun _ _ _ => rfl⟩ (.cons ⟨rfl, nofun⟩ (.cons ⟨rfl, fun _ _ _ => rfl⟩
    (.cons ⟨rfl, nofun⟩ (.cons ⟨rfl, fun _ _ _ => rfl⟩ (.cons ⟨rfl, nofun⟩
      (.cons ⟨rfl, fun _ _ _ => rfl⟩ (.cons ⟨rfl, nofun⟩ (.cons ⟨rfl, fun _ _ _ => rfl⟩
        (.cons ⟨rfl, nofun⟩ (.nil _)))))))))), ?_⟩
  decide +kernel

end Kept

end Rolebox.Services
