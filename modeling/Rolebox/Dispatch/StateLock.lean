import Rolebox.General.Json
import Rolebox.General.Transition

/-! The lock file beside the dispatch state: the calls that take and release it, step by step. -/

namespace Rolebox.Dispatch
open General List Function

def StaleLockTimeoutMs : Rat := 300000

inductive LockFile where
  | absent
  | unparsable
  | value (json : Json)
  deriving DecidableEq

structure LockData where
  pid : Rat
  startedAt : Rat
  lastHeartbeat : Option Rat
  deriving DecidableEq

def LockData.file (data : LockData) : LockFile :=
  .value (.obj ([("pid", .num data.pid), ("startedAt", .num data.startedAt)] ++
    data.lastHeartbeat.toList.map fun beat => ("lastHeartbeat", Json.num beat)))

def readLockFile : LockFile → Option LockData
  | .value json => do
    let pid ← (json.field? "pid").bind Json.num?
    let startedAt ← (json.field? "startedAt").bind Json.num?
    return {
      pid := pid
      startedAt := startedAt
      lastHeartbeat := (json.field? "lastHeartbeat").bind Json.num? }
  | _ => none

@[simp] theorem readLockFile_file (data : LockData) : readLockFile data.file = some data := by
  obtain ⟨pid, startedAt, lastHeartbeat⟩ := data
  cases lastHeartbeat <;> rfl

def LockData.Same (a b : LockData) : Prop := a.pid = b.pid ∧ a.startedAt = b.startedAt

instance (a b : LockData) : Decidable (a.Same b) := inferInstanceAs (Decidable (_ ∧ _))

/-- Where one call of `acquireStateLock`, or the release it answered, stands. -/
inductive CallPhase where
  | looking
  | reading
  | probing (existing : LockData)
  | aging (existing : LockData)
  | replacing (stale : Option (LockData × Rat))
  | installing (data : LockData)
  | held (data : LockData) (takenOver : Option Rat)
  | contended (heldByPid : Rat)
  | removing (data : LockData)
  | released
  deriving DecidableEq

def CallPhase.lock? : CallPhase → Option LockData
  | installing data => some data
  | held data _ => some data
  | removing data => some data
  | _ => none

/-- The call has looked at or read the lock path and may still act on what it found. -/
def CallPhase.acting : CallPhase → Bool
  | probing _ | aging _ | replacing _ | installing _ | removing _ => true
  | _ => false

structure Call where
  pid : Rat
  phase : CallPhase
  deriving DecidableEq

/-- A lock held that another call replaces as stale is marked with the time of that decision. -/
def Call.overtaken (call : Call) (stale : LockData) (now : Rat) : Call :=
  match call.phase with
  | .held data none => if data.Same stale then ⟨call.pid, .held data (some now)⟩ else call
  | _ => call

/-- The lock path, the processes alive, and their calls; no step reads `takenOver`. -/
structure Machine where
  file : LockFile
  live : List Rat
  calls : Nat → Option Call

namespace Machine

def goto (s : Machine) (i : Nat) (call : Call) : Machine :=
  { s with calls := update s.calls i (some call) }

def overtake (s : Machine) (stale : Option (LockData × Rat)) : Machine :=
  match stale with
  | none => s
  | some (existing, now) => { s with calls := fun i => (s.calls i).map (·.overtaken existing now) }

end Machine

section Moves
variable {s : Machine} {i j : Nat} {call : Call} {existing data : LockData} {now : Rat}

theorem Machine.goto_self : (s.goto i call).calls i = some call := update_self ..

theorem Machine.goto_ne (h : j ≠ i) : (s.goto i call).calls j = s.calls j := update_of_ne h ..

theorem Machine.goto_cases {found : Call} (h : (s.goto i call).calls j = some found) :
    (j = i ∧ found = call) ∨ (j ≠ i ∧ s.calls j = some found) := by
  by_cases hij : j = i
  · subst hij
    rw [goto_self] at h
    exact .inl ⟨rfl, (Option.some.inj h).symm⟩
  · rw [goto_ne hij] at h
    exact .inr ⟨hij, h⟩

theorem Call.overtaken_cases (call : Call) (existing : LockData) (now : Rat) :
    (call.overtaken existing now = call ∧
      ∀ data, call.phase = .held data none → ¬ data.Same existing) ∨
    ∃ data, call.phase = .held data none ∧ data.Same existing ∧
      call.overtaken existing now = ⟨call.pid, .held data (some now)⟩ := by
  obtain ⟨pid, phase⟩ := call
  unfold Call.overtaken
  split
  · next held hheld =>
    by_cases hsame : held.Same existing
    · exact .inr ⟨held, hheld, hsame, if_pos hsame⟩
    · refine .inl ⟨if_neg hsame, fun data hd => ?_⟩
      obtain ⟨rfl, -⟩ := CallPhase.held.inj (hheld.symm.trans hd)
      exact hsame
  · next hother => exact .inl ⟨rfl, fun data hd => absurd hd (hother data)⟩

theorem Call.overtaken_keeps (call : Call) (existing : LockData) (now : Rat) :
    (call.overtaken existing now).pid = call.pid ∧
      (call.overtaken existing now).phase.lock? = call.phase.lock? := by
  rcases call.overtaken_cases existing now with ⟨hsame, -⟩ | ⟨data, hheld, -, hmarked⟩
  · rw [hsame]
    exact ⟨rfl, rfl⟩
  · rw [hmarked, hheld]
    exact ⟨rfl, rfl⟩

/-- A call of the machine overtaken is one of the machine, marked where it held the stale lock. -/
theorem Machine.overtake_calls {stale : Option (LockData × Rat)}
    (h : (s.overtake stale).calls i = some call) :
    ∃ old, s.calls i = some old ∧ old.pid = call.pid ∧ old.phase.lock? = call.phase.lock? ∧
      (call = old ∧ (∀ existing now, stale = some (existing, now) →
          ∀ data, old.phase = .held data none → ¬ data.Same existing) ∨
        ∃ existing now data, stale = some (existing, now) ∧ data.Same existing ∧
          call.phase = .held data (some now)) := by
  cases stale with
  | none => exact ⟨call, h, rfl, rfl, .inl ⟨rfl, fun _ _ hnone => by cases hnone⟩⟩
  | some found =>
    obtain ⟨old, hold, rfl⟩ := Option.map_eq_some_iff.1 h
    obtain ⟨hpid, hlock⟩ := old.overtaken_keeps found.1 found.2
    refine ⟨old, hold, hpid.symm, hlock.symm, ?_⟩
    rcases old.overtaken_cases found.1 found.2 with ⟨hsame, hother⟩ | ⟨data, -, hdata, hmarked⟩
    · refine .inl ⟨hsame, fun existing now hfound => ?_⟩
      cases hfound
      exact hother
    · exact .inr ⟨found.1, found.2, data, rfl, hdata, congrArg Call.phase hmarked⟩

end Moves

/-- One step of a call, with what the system answered, or the start or the end of a process. -/
inductive LockEvent where
  | start (pid : Rat)
  | die (pid : Rat)
  | acquire (i : Nat) (pid : Rat)
  | look (i : Nat)
  | read (i : Nat) (fails : Bool)
  | probe (i : Nat) (alive : Option Bool)
  | age (i : Nat) (now : Rat)
  | replace (i : Nat) (startedAt lastHeartbeat : Rat)
  | rename (i : Nat)
  | fail (i : Nat)
  | release (i : Nat) (fails : Bool)
  | remove (i : Nat)

def probeAnswers (s : Machine) (pid : Rat) (alive : Option Bool) : Bool :=
  decide (alive = some false → pid ∉ s.live)

def afterRead : Option LockData → CallPhase
  | some existing => .probing existing
  | none => .replacing none

def afterProbe (existing : LockData) (alive : Option Bool) : CallPhase :=
  if alive = some false then .replacing none else .aging existing

def afterAge (existing : LockData) (now : Rat) : CallPhase :=
  if now - existing.startedAt > StaleLockTimeoutMs then .replacing (some (existing, now))
  else .contended existing.pid

def afterReleaseRead (data : LockData) (existing : Option LockData) : CallPhase :=
  match existing with
  | some other => if other.Same data then .removing data else .released
  | none => .released

def step (s : Machine) : LockEvent → Option Machine
  | .start pid => if pid ∈ s.live then none else some { s with live := pid :: s.live }
  | .die pid =>
    some { s with
      live := s.live.filter (· ≠ pid)
      calls := fun i => (s.calls i).filter (·.pid ≠ pid) }
  | .acquire i pid =>
    if pid ∈ s.live ∧ s.calls i = none then some (s.goto i ⟨pid, .looking⟩) else none
  | .look i =>
    match s.calls i with
    | some ⟨pid, .looking⟩ =>
      some (s.goto i ⟨pid, if s.file = .absent then .replacing none else .reading⟩)
    | _ => none
  | .read i fails =>
    match s.calls i with
    | some ⟨pid, .reading⟩ =>
      some (s.goto i ⟨pid, afterRead (if fails then none else readLockFile s.file)⟩)
    | _ => none
  | .probe i alive =>
    match s.calls i with
    | some ⟨pid, .probing existing⟩ =>
      if probeAnswers s existing.pid alive then
        some (s.goto i ⟨pid, afterProbe existing alive⟩)
      else none
    | _ => none
  | .age i now =>
    match s.calls i with
    | some ⟨pid, .aging existing⟩ => some (s.goto i ⟨pid, afterAge existing now⟩)
    | _ => none
  | .replace i startedAt lastHeartbeat =>
    -- the lock is written to a file of its own first; what the path names is unlinked
    match s.calls i with
    | some ⟨pid, .replacing stale⟩ =>
      some (({ s with file := .absent }.overtake stale).goto i
        ⟨pid, .installing ⟨pid, startedAt, some lastHeartbeat⟩⟩)
    | _ => none
  | .rename i =>
    match s.calls i with
    | some ⟨pid, .installing data⟩ =>
      some ({ s with file := data.file }.goto i ⟨pid, .held data none⟩)
    | _ => none
  | .fail i =>
    match s.calls i with
    | some ⟨_, .replacing _⟩ | some ⟨_, .installing _⟩ =>
      some { s with calls := update s.calls i none }
    | _ => none
  | .release i fails =>
    match s.calls i with
    | some ⟨pid, .held data _⟩ =>
      some (s.goto i ⟨pid, afterReleaseRead data (if fails then none else readLockFile s.file)⟩)
    | _ => none
  | .remove i =>
    match s.calls i with
    | some ⟨pid, .removing _⟩ => some ({ s with file := .absent }.goto i ⟨pid, .released⟩)
    | _ => none

/-- No process holds the lock yet; the lock path may name anything. -/
def Initial (s : Machine) : Prop := ∀ i, s.calls i = none

/-- The locks held and not taken over as stale are one process's. -/
def Exclusive (s : Machine) : Prop :=
  ∀ i j a b data data', s.calls i = some ⟨a, .held data none⟩ →
    s.calls j = some ⟨b, .held data' none⟩ → a = b

/-- Only a lock older than the timeout was taken over. -/
def Overdue (s : Machine) : Prop :=
  ∀ i pid data now, s.calls i = some ⟨pid, .held data (some now)⟩ →
    now - data.startedAt > StaleLockTimeoutMs

/-- The file a release is about to remove is no other process's lock. -/
def RemovesOwn (s : Machine) : Prop :=
  ∀ i pid data other, s.calls i = some ⟨pid, .removing data⟩ → readLockFile s.file = some other →
    other.pid = pid

/-- No other call stands between what it looked at and what it does about it. -/
def Alone (s : Machine) (i : Nat) : Prop :=
  ∀ j call, j ≠ i → s.calls j = some call → call.phase.acting = false

/-- Calls change the lock path one at a time, reads succeed, and start times are not repeated. -/
def Undisturbed (s : Machine) : LockEvent → Prop
  | .read _ fails => fails = false
  | .replace i startedAt _ =>
    Alone s i ∧ ∀ j pid phase phase' data, s.calls i = some ⟨pid, phase⟩ →
      s.calls j = some ⟨pid, phase'⟩ → phase'.lock? = some data → data.startedAt ≠ startedAt
  | .rename i => Alone s i
  | .remove i => Alone s i
  | _ => True

def Attended (s : Machine) (event : LockEvent) (t : Machine) : Prop :=
  step s event = some t ∧ Undisturbed s event

def Steps (s : Machine) (event : LockEvent) (t : Machine) : Prop := step s event = some t

/-- No lock is held but those taken over as stale. -/
def Free (s : Machine) : Prop := ∀ i pid data, s.calls i ≠ some ⟨pid, .held data none⟩

/-- What a call found on the lock path, or left there, is there still. -/
def Stands (s : Machine) : CallPhase → Prop
  | .probing existing | .aging existing => readLockFile s.file = some existing
  | .replacing none | .installing _ => Free s
  | .replacing (some (existing, now)) =>
    readLockFile s.file = some existing ∧ now - existing.startedAt > StaleLockTimeoutMs
  | .held data none => readLockFile s.file = some data
  | .held data (some now) => now - data.startedAt > StaleLockTimeoutMs
  | .removing data => ∃ other, readLockFile s.file = some other ∧ other.Same data
  | _ => True

theorem Stands.of_file {s t : Machine} {phase : CallPhase} (h : Stands s phase)
    (hfile : t.file = s.file) (hfree : Free s → Free t) : Stands t phase := by
  cases phase with
  | probing | aging | removing => simpa only [Stands, hfile] using h
  | installing => exact hfree h
  | replacing stale =>
    cases stale with
    | none => exact hfree h
    | some => simpa only [Stands, hfile] using h
  | held data takenOver =>
    cases takenOver with
    | none => simpa only [Stands, hfile] using h
    | some => exact h
  | _ => trivial

theorem Stands.of_not_acting {s t : Machine} {phase : CallPhase} (h : Stands s phase)
    (hacting : phase.acting = false) (hheld : ∀ data, phase ≠ .held data none) :
    Stands t phase := by
  cases phase with
  | held data takenOver =>
    cases takenOver with
    | none => exact absurd rfl (hheld data)
    | some => exact h
  | looking | reading | contended | released => trivial
  | _ => cases hacting

/-- Calls are of live processes, no two unreleased locks are the same, and what each found stands. -/
structure Guarded (s : Machine) : Prop where
  running : ∀ i call, s.calls i = some call → call.pid ∈ s.live
  own : ∀ i call data, s.calls i = some call → call.phase.lock? = some data → data.pid = call.pid
  distinct : ∀ i j call call' data data', i ≠ j → s.calls i = some call → s.calls j = some call' →
    call.phase.lock? = some data → call'.phase.lock? = some data' → ¬ data.Same data'
  stands : ∀ i call, s.calls i = some call → Stands s call.phase

namespace Guarded
variable {s t : Machine} {pid : Rat} {phase : CallPhase} {i : Nat} {data : LockData}

theorem initial (h : Initial s) : Guarded s := by
  have hnone : ∀ {i call}, s.calls i ≠ some call := by
    intro i call hcall
    rw [h i] at hcall
    cases hcall
  exact ⟨fun _ _ hi => absurd hi hnone, fun _ _ _ hi => absurd hi hnone,
    fun _ _ _ _ _ _ _ hi => absurd hi hnone, fun _ _ hi => absurd hi hnone⟩

section

variable (h : Guarded s)
include h

theorem alive (hcall : s.calls i = some ⟨pid, phase⟩) : pid ∈ s.live :=
  h.running i ⟨pid, phase⟩ hcall

theorem held_read (hcall : s.calls i = some ⟨pid, .held data none⟩) :
    readLockFile s.file = some data := h.stands i _ hcall

theorem exclusive : Exclusive s := by
  intro i j a b data data' hi hj
  have hfile := h.held_read hi
  rw [h.held_read hj] at hfile
  obtain rfl := Option.some.inj hfile
  exact (h.own i _ data' hi rfl).symm.trans (h.own j _ data' hj rfl)

theorem removesOwn : RemovesOwn s := by
  intro i pid data other hcall hread
  obtain ⟨found, hfound, hsame⟩ := h.stands i _ hcall
  rw [hread] at hfound
  cases hfound
  exact hsame.1.trans (h.own i _ data hcall rfl)

/-- Where the lock path names no lock, or a dead process's, no lock is held. -/
theorem free (hfree : ∀ data, readLockFile s.file = some data → data.pid ∉ s.live) : Free s := by
  intro i pid data hcall
  have hpid : data.pid = pid := h.own i _ data hcall rfl
  exact hfree data (h.held_read hcall) (hpid ▸ h.alive hcall)

/-- A step keeps the invariant when the calls it leaves carry no lock or the lock they had. -/
theorem carry (hcall : ∀ i call, t.calls i = some call → call.pid ∈ t.live ∧
      (call.phase.lock? = none ∨ ∃ old, s.calls i = some old ∧ old.pid = call.pid ∧
        old.phase.lock? = call.phase.lock?) ∧ Stands t call.phase) : Guarded t := by
  have hold : ∀ i call data, t.calls i = some call → call.phase.lock? = some data →
      ∃ old, s.calls i = some old ∧ old.pid = call.pid ∧ old.phase.lock? = some data := by
    intro i call data hi hdata
    rcases (hcall i call hi).2.1 with hnone | ⟨old, hs, hpid, hlock⟩
    · rw [hnone] at hdata
      cases hdata
    · exact ⟨old, hs, hpid, hlock.trans hdata⟩
  refine ⟨fun i call hi => (hcall i call hi).1, ?_, ?_, fun i call hi => (hcall i call hi).2.2⟩
  · intro i call data hi hdata
    obtain ⟨old, hs, hpid, hlock⟩ := hold i call data hi hdata
    exact (h.own i old data hs hlock).trans hpid
  · intro i j call call' data data' hij hi hj hdata hdata'
    obtain ⟨old, hs, -, hlock⟩ := hold i call data hi hdata
    obtain ⟨old', hs', -, hlock'⟩ := hold j call' data' hj hdata'
    exact h.distinct i j old old' data data' hij hs hs' hlock hlock'

/-- A step that keeps the lock path and no call it does not know. -/
theorem keep (hfile : t.file = s.file)
    (hcall : ∀ i call, t.calls i = some call → s.calls i = some call ∧ call.pid ∈ t.live) :
    Guarded t := by
  refine h.carry fun i call hi => ⟨(hcall i call hi).2, .inr ?_, ?_⟩
  · exact ⟨call, (hcall i call hi).1, rfl, rfl⟩
  · exact (h.stands i call (hcall i call hi).1).of_file hfile
      fun hfree j pid data hj => hfree j pid data (hcall j _ hj).1

theorem goto (hpid : pid ∈ s.live)
    (hphase : phase.lock? = none ∨ ∃ old, s.calls i = some ⟨pid, old⟩ ∧
      old.lock? = phase.lock? ∧ ∀ data, phase ≠ .held data none) (hstands : Stands s phase) :
    Guarded (s.goto i ⟨pid, phase⟩) := by
  have hheld : ∀ data, phase ≠ .held data none := by
    rintro data rfl
    obtain hnone | ⟨-, -, -, hheld⟩ := hphase
    · cases hnone
    · exact hheld data rfl
  have hfree : Free s → Free (s.goto i ⟨pid, phase⟩) := by
    intro hfree j pid' data hj
    rcases Machine.goto_cases hj with ⟨-, hnew⟩ | ⟨-, hj⟩
    · exact hheld data (congrArg Call.phase hnew).symm
    · exact hfree j pid' data hj
  refine h.carry fun j call hj => ?_
  rcases Machine.goto_cases hj with ⟨rfl, rfl⟩ | ⟨-, hj⟩
  · refine ⟨hpid, hphase.imp id ?_, hstands.of_file rfl hfree⟩
    rintro ⟨old, hcall, hlock, -⟩
    exact ⟨⟨pid, old⟩, hcall, rfl, hlock⟩
  · exact ⟨h.running j call hj, .inr ⟨call, hj, rfl, rfl⟩, (h.stands j call hj).of_file rfl hfree⟩

/-- A call between two deeds has nothing to find again, where the lock path is not its lock's. -/
theorem others {j : Nat} {call : Call} (halone : Alone s i) (hij : j ≠ i)
    (hj : s.calls j = some call) (hheld : ∀ pid' data, call ≠ ⟨pid', .held data none⟩) :
    Stands t call.phase := by
  refine (h.stands j call hj).of_not_acting (halone j call hij hj) fun data hd => ?_
  obtain ⟨pid', phase⟩ := call
  obtain rfl : phase = .held data none := hd
  exact hheld pid' data rfl

/-- The lock path is unlinked where no lock is held, or only the one taken over. -/
theorem unlinked {stale : Option (LockData × Rat)}
    (hcall : s.calls i = some ⟨pid, .replacing stale⟩) (halone : Alone s i) :
    Guarded (({ s with file := .absent }.overtake stale).goto i ⟨pid, .replacing none⟩) := by
  have hstands := h.stands i _ hcall
  -- the lock held is the one found stale, and so marked
  have hfree : Free (({ s with file := .absent }.overtake stale).goto i ⟨pid, .replacing none⟩) := by
    intro j pid' data hj
    rcases Machine.goto_cases hj with ⟨-, hnew⟩ | ⟨-, hj⟩
    · cases hnew
    obtain ⟨old, hold, -, -, ⟨rfl, hother⟩ | ⟨existing, now, data', -, -, hmarked⟩⟩ :=
      Machine.overtake_calls hj
    · cases stale with
      | none => exact hstands j pid' data hold
      | some found =>
        have hread := h.held_read hold
        rw [hstands.1] at hread
        exact hother found.1 found.2 rfl data rfl (by cases hread; exact ⟨rfl, rfl⟩)
    · cases hmarked
  refine h.carry fun j call hj => ?_
  have hlive : ∀ {a : Rat}, a ∈ s.live → a ∈
      (({ s with file := .absent }.overtake stale).goto i ⟨pid, .replacing none⟩).live := by
    cases stale <;> exact id
  rcases Machine.goto_cases hj with ⟨rfl, rfl⟩ | ⟨hij, hbefore⟩
  · exact ⟨hlive (h.alive hcall), .inl rfl, hfree⟩
  obtain ⟨old, hold, hpid, hlock, hmark⟩ := Machine.overtake_calls hbefore
  refine ⟨hlive (hpid ▸ h.running j old hold), .inr ⟨old, hold, hpid, hlock⟩, ?_⟩
  rcases hmark with ⟨rfl, -⟩ | ⟨existing, now, data, rfl, hdata, hmarked⟩
  · refine h.others halone hij hold ?_
    rintro pid' data rfl
    exact hfree j pid' data hj
  · rw [hmarked]
    show now - data.startedAt > StaleLockTimeoutMs
    rw [hdata.2]
    exact hstands.2

theorem install (data : LockData) (hcall : s.calls i = some ⟨pid, .replacing none⟩) (hown : data.pid = pid)
    (hnew : ∀ j phase other, s.calls j = some ⟨pid, phase⟩ → phase.lock? = some other →
      other.startedAt ≠ data.startedAt) : Guarded (s.goto i ⟨pid, .installing data⟩) := by
  -- another call's lock is another process's, or carries another time
  have hother : ∀ j call other, j ≠ i → s.calls j = some call → call.phase.lock? = some other →
      ¬ other.Same data := by
    rintro j ⟨pid', phase'⟩ other - hj hlock ⟨hsamePid, hsameTime⟩
    have hpid : pid' = pid := (h.own j _ other hj hlock).symm.trans (hsamePid.trans hown)
    subst hpid
    exact hnew j phase' other hj hlock hsameTime
  have hfree : Free (s.goto i ⟨pid, .installing data⟩) := by
    intro j pid' other hj
    rcases Machine.goto_cases hj with ⟨-, hnew⟩ | ⟨-, hj⟩
    · cases hnew
    · exact h.stands i _ hcall j pid' other hj
  refine ⟨?_, ?_, ?_, ?_⟩
  · intro j call hj
    rcases Machine.goto_cases hj with ⟨rfl, rfl⟩ | ⟨hij, hj⟩
    · exact h.alive hcall
    · exact h.running j call hj
  · intro j call other hj hlock
    rcases Machine.goto_cases hj with ⟨rfl, rfl⟩ | ⟨hij, hj⟩
    · cases hlock
      exact hown
    · exact h.own j call other hj hlock
  · intro j k call call' other other' hjk hj hk hlock hlock' hsame
    rcases Machine.goto_cases hj with ⟨rfl, rfl⟩ | ⟨hji, hbefore⟩
    · cases hlock
      rw [Machine.goto_ne (Ne.symm hjk)] at hk
      exact hother k call' other' (Ne.symm hjk) hk hlock' ⟨hsame.1.symm, hsame.2.symm⟩
    · rcases Machine.goto_cases hk with ⟨rfl, rfl⟩ | ⟨hki, hk⟩
      · cases hlock'
        exact hother j call other hji hbefore hlock hsame
      · exact h.distinct j k call call' other other' hjk hbefore hk hlock hlock' hsame
  · intro j call hj
    rcases Machine.goto_cases hj with ⟨rfl, rfl⟩ | ⟨-, hj⟩
    · exact hfree
    · exact (h.stands j call hj).of_file rfl fun _ => hfree

theorem renamed (hcall : s.calls i = some ⟨pid, .installing data⟩) (halone : Alone s i) :
    Guarded ({ s with file := data.file }.goto i ⟨pid, .held data none⟩) := by
  refine h.carry fun j call hj => ?_
  rcases Machine.goto_cases hj with ⟨rfl, rfl⟩ | ⟨hij, hj⟩
  · exact ⟨h.alive hcall, .inr ⟨_, hcall, rfl, rfl⟩, readLockFile_file data⟩
  refine ⟨h.running j call hj, .inr ⟨call, hj, rfl, rfl⟩, h.others halone hij hj ?_⟩
  rintro pid' other rfl
  exact h.stands i _ hcall j pid' other hj

theorem removed (hcall : s.calls i = some ⟨pid, .removing data⟩) (halone : Alone s i) :
    Guarded ({ s with file := .absent }.goto i ⟨pid, .released⟩) := by
  obtain ⟨found, hread, hsame⟩ := h.stands i _ hcall
  refine h.carry fun j call hj => ?_
  rcases Machine.goto_cases hj with ⟨rfl, rfl⟩ | ⟨hij, hj⟩
  · exact ⟨h.alive hcall, .inl rfl, trivial⟩
  refine ⟨h.running j call hj, .inr ⟨call, hj, rfl, rfl⟩, h.others halone hij hj ?_⟩
  rintro pid' other rfl
  -- the lock in place would be that call's and this one's
  rw [h.held_read hj] at hread
  cases hread
  exact h.distinct j i _ _ _ data hij hj hcall rfl rfl hsame

theorem step {event : LockEvent} (hstep : Attended s event t) : Guarded t := by
  obtain ⟨hstep, hcond⟩ := hstep
  cases event with
  | start pid =>
    simp only [Dispatch.step] at hstep
    split at hstep
    · cases hstep
    cases hstep
    exact h.keep rfl fun i call hi => ⟨hi, mem_cons_of_mem _ (h.running i call hi)⟩
  | die pid =>
    cases hstep
    refine h.keep rfl fun i call hi => ?_
    obtain ⟨hs, hne⟩ := Option.filter_eq_some_iff.1 hi
    exact ⟨hs, mem_filter.2 ⟨h.running i call hs, hne⟩⟩
  | acquire i pid =>
    simp only [Dispatch.step] at hstep
    split at hstep
    · next hfree =>
      cases hstep
      exact h.goto hfree.1 (.inl rfl) trivial
    · cases hstep
  | look i =>
    simp only [Dispatch.step] at hstep
    split at hstep
    · next pid hcall =>
      cases hstep
      split
      · next habsent =>
        refine h.goto (h.alive hcall) (.inl rfl) (h.free fun data hread => ?_)
        rw [habsent] at hread
        cases hread
      · exact h.goto (h.alive hcall) (.inl rfl) trivial
    · cases hstep
  | read i fails =>
    obtain rfl : fails = false := hcond
    simp only [Dispatch.step] at hstep
    split at hstep
    · next pid hcall =>
      cases hstep
      rw [if_neg Bool.false_ne_true]
      cases hread : readLockFile s.file with
      | none =>
        refine h.goto (h.alive hcall) (.inl rfl) (h.free fun data hdata => ?_)
        rw [hread] at hdata
        cases hdata
      | some existing => exact h.goto (h.alive hcall) (.inl rfl) hread
    · cases hstep
  | probe i alive =>
    simp only [Dispatch.step] at hstep
    split at hstep
    · next pid existing hcall =>
      split at hstep
      · next hanswers =>
        cases hstep
        unfold afterProbe
        split
        · next hdead =>
          refine h.goto (h.alive hcall) (.inl rfl) (h.free fun data hread => ?_)
          rw [h.stands i _ hcall] at hread
          cases hread
          exact of_decide_eq_true hanswers hdead
        · exact h.goto (h.alive hcall) (.inl rfl) (h.stands i _ hcall)
      · cases hstep
    · cases hstep
  | age i now =>
    simp only [Dispatch.step] at hstep
    split at hstep
    · next pid existing hcall =>
      cases hstep
      unfold afterAge
      split
      · next hstale =>
        exact h.goto (h.alive hcall) (.inl rfl) ⟨h.stands i _ hcall, hstale⟩
      · exact h.goto (h.alive hcall) (.inl rfl) trivial
    · cases hstep
  | replace i startedAt lastHeartbeat =>
    obtain ⟨halone, hnew⟩ := hcond
    simp only [Dispatch.step] at hstep
    split at hstep
    · next pid stale hcall =>
      cases hstep
      have hinstalled := (h.unlinked hcall halone).install ⟨pid, startedAt, some lastHeartbeat⟩
        Machine.goto_self rfl ?_
      · rwa [Machine.goto, Machine.goto, update_idem] at hinstalled
      intro j phase other hj hlock
      rcases Machine.goto_cases hj with ⟨-, hself⟩ | ⟨-, hj⟩
      · cases hself
        cases hlock
      obtain ⟨⟨pid', old⟩, hold, rfl, hsame, -⟩ := Machine.overtake_calls hj
      exact hnew j pid' _ old other hcall hold (hsame.trans hlock)
    · cases hstep
  | rename i =>
    simp only [Dispatch.step] at hstep
    split at hstep
    · next pid data hcall =>
      cases hstep
      exact h.renamed hcall hcond
    · cases hstep
  | fail i =>
    have hgone : ∀ j call, (update s.calls i none) j = some call →
        s.calls j = some call := by
      intro j call hj
      by_cases hij : j = i
      · subst hij
        rw [update_self] at hj
        cases hj
      · rwa [update_of_ne hij] at hj
    have hkeep : Guarded { s with calls := update s.calls i none } :=
      h.keep rfl fun j call hj => ⟨hgone j call hj, h.running j call (hgone j call hj)⟩
    simp only [Dispatch.step] at hstep
    split at hstep
    · cases hstep
      exact hkeep
    · cases hstep
      exact hkeep
    · cases hstep
  | release i fails =>
    simp only [Dispatch.step] at hstep
    split at hstep
    · next pid data takenOver hcall =>
      cases hstep
      unfold afterReleaseRead
      split
      · next other hread =>
        split
        · next hsame =>
          refine h.goto (h.alive hcall) (.inr ⟨_, hcall, rfl, ?_⟩) ⟨other, ?_, hsame⟩
          · intro data' hd
            cases hd
          · cases fails with
            | false => exact hread
            | true => cases hread
        · exact h.goto (h.alive hcall) (.inl rfl) trivial
      · exact h.goto (h.alive hcall) (.inl rfl) trivial
    · cases hstep
  | remove i =>
    simp only [Dispatch.step] at hstep
    split at hstep
    · next pid data hcall =>
      cases hstep
      exact h.removed hcall hcond
    · cases hstep

end

end Guarded

/-- The locks held and not taken over as stale are one process's, only locks older than the timeout
are taken over, and a release removes no other process's lock. -/
theorem stateLock_exclusive {s t : Machine} {events : List LockEvent} (h₀ : Initial s)
    (h : Run Attended s events t) : Exclusive t ∧ Overdue t ∧ RemovesOwn t := by
  have hguarded : Guarded t :=
    h.invariant (fun _ _ _ hs hstep => hs.step hstep) (Guarded.initial h₀)
  exact ⟨hguarded.exclusive, fun i _ _ _ hcall => hguarded.stands i _ hcall, hguarded.removesOwn⟩

def twoProcesses : Machine := { file := .absent, live := [1, 2], calls := fun _ => none }

section Two
variable {s : Machine} {i : Nat}

theorem calls_of_two {p : Nat → Call → Bool} (hrest : ∀ j, s.calls (j + 2) = none)
    (htwo : ∀ j < 2, (s.calls j).all (p j)) {j : Nat} {call : Call} (hcall : s.calls j = some call) :
    p j call := by
  have hj : j < 2 := by
    by_contra hj
    obtain ⟨k, rfl⟩ := Nat.exists_eq_add_of_le' (Nat.le_of_not_lt hj)
    rw [hrest] at hcall
    cases hcall
  have hall := htwo j hj
  rwa [hcall] at hall

theorem alone_of_two (hrest : ∀ j, s.calls (j + 2) = none)
    (htwo : ∀ j < 2, (s.calls j).all fun call => j == i || !call.phase.acting) : Alone s i := by
  intro j call hij hcall
  have hidle := calls_of_two hrest htwo hcall
  rwa [beq_false_of_ne hij, Bool.false_or, Bool.not_eq_true'] at hidle

theorem fresh_of_two {startedAt : Rat} (hrest : ∀ j, s.calls (j + 2) = none)
    (htwo : ∀ j < 2, (s.calls j).all fun call => call.phase.lock?.all (·.startedAt != startedAt))
    {j : Nat} {pid : Rat} {phase : CallPhase} {data : LockData}
    (hcall : s.calls j = some ⟨pid, phase⟩) (hlock : phase.lock? = some data) :
    data.startedAt ≠ startedAt := by
  have hall : phase.lock?.all (·.startedAt != startedAt) := calls_of_two hrest htwo hcall
  rw [hlock] at hall
  exact bne_iff_ne.1 hall

end Two

/-- A lock is contended, then taken over as stale, and both calls release. -/
theorem stateLock_exclusive_taken_over :
    ∃ t, Run Attended twoProcesses
        [.acquire 0 1, .look 0, .replace 0 5 5, .rename 0, .acquire 1 2, .look 1, .read 1 false,
          .probe 1 (some true), .age 1 400000, .replace 1 400000 400000, .rename 1,
          .release 0 false, .release 1 false] t ∧ (t.calls 0).map (·.phase) = some .released ∧
      (t.calls 1).map (·.phase) = some (.removing ⟨2, 400000, some 400000⟩) ∧
      Exclusive t ∧ Overdue t ∧ RemovesOwn t := by
  have hrun : ∃ t, Run Attended twoProcesses
      [.acquire 0 1, .look 0, .replace 0 5 5, .rename 0, .acquire 1 2, .look 1, .read 1 false,
        .probe 1 (some true), .age 1 400000, .replace 1 400000 400000, .rename 1,
        .release 0 false, .release 1 false] t ∧
      (t.calls 0).map (·.phase) = some .released ∧
      (t.calls 1).map (·.phase) = some (.removing ⟨2, 400000, some 400000⟩) := by
    have hage : ∀ s, s.calls 1 = some ⟨2, .aging ⟨1, 5, some 5⟩⟩ → step s (.age 1 400000) =
        some (s.goto 1 ⟨2, .replacing (some (⟨1, 5, some 5⟩, 400000))⟩) := by
      intro s hcall
      have hstale : (400000 : Rat) - 5 > StaleLockTimeoutMs := by decide +kernel
      simp only [step, hcall, afterAge, if_pos hstale]
    refine ⟨_, .cons ⟨rfl, trivial⟩ <| .cons ⟨rfl, trivial⟩ <| .cons ⟨rfl, ?_, ?_⟩ <|
      .cons ⟨rfl, ?_⟩ <| .cons ⟨rfl, trivial⟩ <| .cons ⟨rfl, trivial⟩ <| .cons ⟨rfl, rfl⟩ <|
      .cons ⟨rfl, trivial⟩ <| .cons ⟨hage _ rfl, trivial⟩ <| .cons ⟨rfl, ?_, ?_⟩ <|
      .cons ⟨rfl, ?_⟩ <| .cons ⟨rfl, trivial⟩ <| .cons ⟨rfl, trivial⟩ <| .nil _, ?_, ?_⟩
    · exact alone_of_two (fun _ => rfl) (by decide +kernel)
    · intro j pid phase phase' data _ hcall hlock
      exact fresh_of_two (fun _ => rfl) (by decide +kernel) hcall hlock
    · exact alone_of_two (fun _ => rfl) (by decide +kernel)
    · exact alone_of_two (fun _ => rfl) (by decide +kernel)
    · intro j pid phase phase' data _ hcall hlock
      exact fresh_of_two (fun _ => rfl) (by decide +kernel) hcall hlock
    · exact alone_of_two (fun _ => rfl) (by decide +kernel)
    · rfl
    · rfl
  obtain ⟨t, hrun, hfirst, hsecond⟩ := hrun
  exact ⟨t, hrun, hfirst, hsecond, stateLock_exclusive (fun _ => rfl) hrun⟩

def bothLook : List LockEvent :=
  [.acquire 0 1, .acquire 1 2, .look 0, .look 1, .replace 0 5 5, .rename 0, .replace 1 6 6, .rename 1]

theorem stateLock_shared : ¬ ∀ s events t, Initial s → Run Steps s events t → Exclusive t := by
  intro h
  have hheld : (bothLook.foldlM step twoProcesses).map (fun t => (t.calls 0, t.calls 1)) =
      some (some ⟨1, .held ⟨1, 5, some 5⟩ none⟩, some ⟨2, .held ⟨2, 6, some 6⟩ none⟩) := by
    decide +kernel
  obtain ⟨t, hrun, hcalls⟩ := Option.map_eq_some_iff.1 hheld
  obtain ⟨h0, h1⟩ := Prod.mk.inj hcalls
  have hsame : (1 : Rat) = 2 :=
    h twoProcesses bothLook t (fun _ => rfl) (Run.of_foldlM hrun) 0 1 1 2 _ _ h0 h1
  exact absurd hsame (by decide)

end Rolebox.Dispatch
