import Rolebox.Dispatch.Notification

/-! The outbox of final notices: completions, sweeps, and the cleanup of tasks. -/

namespace Rolebox.Dispatch.Notification
open General List

inductive Call where
  | materializing (taskId : String)
  | notifying (taskId : String) (ticket : Option Nat)
  | finished

inductive Sweep where
  | looping
  | sending (taskId : String) (ticket : Option Nat)
  | finished

/-- `records` holds every task, also those whose key left `tasks`. -/
structure Manager where
  notifier : Notifier
  records : List DispatchTask
  tasks : List String
  notifyOutbox : List String
  pendingNotifications : List String
  calls : List Call
  sweeps : List Sweep

def add (id : String) (l : List String) : List String := if id ∈ l then l else l ++ [id]

def delete (id : String) (l : List String) : List String := l.filter fun other => other ≠ id

namespace Manager

def record (m : Manager) (taskId : String) : Option DispatchTask :=
  m.records.find? fun task => task.id = taskId

def get (m : Manager) (taskId : String) : Option DispatchTask :=
  if taskId ∈ m.tasks then m.record taskId else none

def addToOutbox (m : Manager) (taskId : String) : Manager :=
  { m with notifyOutbox := add taskId m.notifyOutbox }

def cleanupTask (m : Manager) (taskId : String) : Manager :=
  { m with tasks := delete taskId m.tasks }

def sendNotification (m : Manager) (task : DispatchTask) (remaining maxRetries : Nat) :
    Manager × Option Nat :=
  let (notifier, ticket) := m.notifier.notifyParent task (.count remaining) maxRetries
  ({ m with notifier := notifier }, ticket)

/-- The start of `notifyCompletion` by a call. -/
def notifyCompletion (m : Manager) (task : DispatchTask) (remaining : Nat)
    (await : Call → List Call) : Manager :=
  let (m, ticket) := m.sendNotification task remaining NOTIFY_MAX_RETRIES
  { m with
    pendingNotifications := add task.id m.pendingNotifications
    calls := await (.notifying task.id ticket) }

/-- After the result of a completed task: only a final notice is added to the outbox. -/
def materialized (m : Manager) (k : Nat) (task : DispatchTask) (remaining : Nat) : Manager :=
  let m := if remaining = 0 then m.addToOutbox task.id else m
  m.notifyCompletion task remaining fun call => m.calls.set k call

/-- One round of a sweep's loop, at an entry of the outbox. -/
def visit (m : Manager) (k : Nat) (taskId : String) : Manager :=
  match m.get taskId with
  | none => { m with notifyOutbox := delete taskId m.notifyOutbox }
  | some task =>
    if taskId ∈ m.notifier.sentFinalNotifies then
      { m with notifyOutbox := delete taskId m.notifyOutbox }
    else
      let (m, ticket) := m.sendNotification task 0 NOTIFY_MAX_RETRIES
      { m with sweeps := m.sweeps.set k (.sending taskId ticket) }

def resume (m : Manager) (k : Nat) (taskId : String) (sent : Bool) : Manager :=
  { m with
    notifyOutbox := if sent then delete taskId m.notifyOutbox else m.notifyOutbox
    sweeps := m.sweeps.set k .looping }

end Manager

inductive Event where
  | send (e : SendEvent)
  | launch (task : DispatchTask)
  | setStatus (taskId : String) (status : DispatchTaskStatus)
  | materialize (taskId : String)
  | materialized (k remaining : Nat)
  | notifyCompletion (taskId : String) (remaining : Nat)
  | notified (k : Nat)
  | notifyParent (taskId : String) (remaining maxRetries : Nat)
  | sweep
  | visit (k : Nat) (taskId : String)
  | resume (k : Nat)
  | sweepEnd (k : Nat)
  | cleanupTimer (taskId : String)
  | cleanupTask (taskId : String)

/-- What runs between two awaits. Which entry a sweep comes to next is left open. -/
inductive Step : Manager → Event → Manager → Prop where
  | send {m : Manager} {e : SendEvent} {n : Notifier} (hstep : SendStep m.notifier e n) :
      Step m (.send e) { m with notifier := n }
  | launch {m : Manager} {task : DispatchTask} (hfresh : task.id ∉ m.records.map (·.id)) :
      Step m (.launch task)
        { m with records := m.records ++ [task], tasks := add task.id m.tasks }
  | setStatus {m : Manager} (taskId : String) (status : DispatchTaskStatus) :
      Step m (.setStatus taskId status)
        { m with
          records := m.records.map fun task =>
            if task.id = taskId then { task with status := status } else task }
  | materialize {m : Manager} {taskId : String} {task : DispatchTask}
      (htask : m.get taskId = some task) (hcompleted : task.status = .completed) :
      Step m (.materialize taskId) { m with calls := m.calls ++ [.materializing taskId] }
  | materialized {m : Manager} {k : Nat} {taskId : String} {task : DispatchTask}
      (remaining : Nat) (hcall : m.calls[k]? = some (.materializing taskId))
      (htask : m.record taskId = some task) :
      Step m (.materialized k remaining) (m.materialized k task remaining)
  | notifyCompletion {m : Manager} {taskId : String} {task : DispatchTask} (remaining : Nat)
      (htask : m.record taskId = some task) :
      Step m (.notifyCompletion taskId remaining)
        (m.notifyCompletion task remaining fun call => m.calls ++ [call])
  | notified {m : Manager} {k : Nat} {taskId : String} {ticket : Option Nat} {sent : Bool}
      (hcall : m.calls[k]? = some (.notifying taskId ticket))
      (hanswer : m.notifier.answerOf ticket = some sent) :
      Step m (.notified k)
        { m with
          pendingNotifications := delete taskId m.pendingNotifications
          calls := m.calls.set k .finished }
  | notifyParent {m : Manager} {taskId : String} {task : DispatchTask}
      (remaining maxRetries : Nat) (htask : m.record taskId = some task) :
      Step m (.notifyParent taskId remaining maxRetries)
        (m.sendNotification task remaining maxRetries).1
  | sweep {m : Manager} : Step m .sweep { m with sweeps := m.sweeps ++ [.looping] }
  | visit {m : Manager} {k : Nat} {taskId : String} (hsweep : m.sweeps[k]? = some .looping)
      (hentry : taskId ∈ m.notifyOutbox) : Step m (.visit k taskId) (m.visit k taskId)
  | resume {m : Manager} {k : Nat} {taskId : String} {ticket : Option Nat} {sent : Bool}
      (hsweep : m.sweeps[k]? = some (.sending taskId ticket))
      (hanswer : m.notifier.answerOf ticket = some sent) :
      Step m (.resume k) (m.resume k taskId sent)
  | sweepEnd {m : Manager} {k : Nat} (hsweep : m.sweeps[k]? = some .looping) :
      Step m (.sweepEnd k) { m with sweeps := m.sweeps.set k .finished }
  | cleanupTimer {m : Manager} {taskId : String}
      (hdone : taskId ∉ m.pendingNotifications ∧ taskId ∉ m.notifyOutbox) :
      Step m (.cleanupTimer taskId) (m.cleanupTask taskId)
  | cleanupTask {m : Manager} (taskId : String) :
      Step m (.cleanupTask taskId) (m.cleanupTask taskId)

/-- No prompt of a final or failure notice resolves to null, and no sweep comes to the entry of a task
that suppresses its notice. -/
def Answered (m : Manager) : Event → Prop
  | .send (.answer i answer) => ∀ notice attempt, m.notifier.notices[i]? = some notice →
      notice.phase = .prompting true attempt → answer ≠ .refused
  | .visit _ taskId => ∀ task, m.get taskId = some task →
      task.suppressCompletionNotification = false
  | _ => True

def AnsweredStep (m : Manager) (e : Event) (m' : Manager) : Prop := Step m e m' ∧ Answered m e

/-- A process as it starts: restored tasks and outbox, and no send under way. -/
structure Initial (m : Manager) : Prop where
  queues : m.notifier.parentQueues = Mutexes.empty
  notices : m.notifier.notices = []
  seeded : m.notifier.accepted.Nodup ∧
    ∀ id, id ∈ m.notifier.accepted ↔ id ∈ m.notifier.sentFinalNotifies
  idsNodup : (m.records.map (·.id)).Nodup
  calls : m.calls = []
  sweeps : m.sweeps = []

section Notices
variable {n n' : Notifier} {i : Nat} {notice : Notice}

def Notice.subject (notice : Notice) : String × String := (notice.taskId, notice.parentSessionId)

theorem subjects_set {l : List Notice} (h : l[i]? = some notice) {notice' : Notice}
    (hsame : notice'.subject = notice.subject) :
    (l.set i notice').map Notice.subject = l.map Notice.subject := by
  obtain ⟨hlt, rfl⟩ := List.getElem?_eq_some_iff.1 h
  rw [map_set, hsame, ← getElem_map Notice.subject (h := by simpa using hlt)]
  exact set_getElem_self _

theorem SendStep.subjects {e : SendEvent} (h : SendStep n e n') :
    n'.notices.map Notice.subject = n.notices.map Notice.subject := by
  cases h with
  | begin reading ht hpassed hnotice hqueued =>
    unfold Notifier.doNotify
    simp only
    split
    · split
      · exact subjects_set hnotice rfl
      · exact subjects_set hnotice rfl
    · exact subjects_set hnotice rfl
  | answer answer hnotice hprompting =>
    unfold Notifier.promptAnswered
    split
    · split
      · split
        · exact subjects_set hnotice rfl
        · exact subjects_set hnotice rfl
      · exact subjects_set hnotice rfl
    · exact subjects_set hnotice rfl
  | delayOver hnotice hdelaying => exact subjects_set hnotice rfl
  | settle ht hreleased hpassed => rfl
  | forget htail ht hsettled => rfl

theorem notifyParent_cases (n : Notifier) (task : DispatchTask)
    (remainingProvider : RemainingProvider) (maxRetries : Nat) :
    (task.suppressCompletionNotification = true ∧
      n.notifyParent task remainingProvider maxRetries = (n, none)) ∨
    ∃ notice, notice.subject = (task.id, task.parentSessionId) ∧
      (n.notifyParent task remainingProvider maxRetries).1.notices = n.notices ++ [notice] ∧
      (n.notifyParent task remainingProvider maxRetries).2 = some n.notices.length := by
  unfold Notifier.notifyParent
  split
  · next hsuppress => exact .inl ⟨hsuppress, rfl⟩
  · exact .inr ⟨_, rfl, rfl, rfl⟩

theorem answerOf_sent (h : Sends n) {ticket : Option Nat}
    (hanswer : n.answerOf ticket = some true) :
    ticket = none ∨ ∃ i notice, ticket = some i ∧ n.notices[i]? = some notice ∧
      notice.taskId ∈ n.sentFinalNotifies := by
  cases ticket with
  | none => exact .inl rfl
  | some i =>
    simp only [Notifier.answerOf] at hanswer
    split at hanswer
    · next t notice ht hnotice =>
      split at hanswer
      · next sent hreturned =>
        split at hanswer
        · cases hanswer
          exact .inr ⟨i, notice, rfl, hnotice, h.told notice (mem_of_getElem? hnotice) hreturned⟩
        · cases hanswer
      · cases hanswer
    · cases hanswer

end Notices

section Outbox
variable {m m' : Manager} {task : DispatchTask} {taskId : String}

def Awaits (m : Manager) : Sweep → Prop
  | .sending taskId (some i) => ∃ notice, m.notifier.notices[i]? = some notice ∧
      notice.taskId = taskId
  | _ => True

def Manager.subjects (m : Manager) : List (String × String) :=
  m.records.map fun task => (task.id, task.parentSessionId)

structure Keeps (m : Manager) : Prop where
  sends : Sends m.notifier
  idsNodup : (m.records.map (·.id)).Nodup
  owned : ∀ notice ∈ m.notifier.notices, notice.subject ∈ m.subjects
  awaits : ∀ sweep ∈ m.sweeps, Awaits m sweep

theorem record_mem (h : m.record taskId = some task) : task ∈ m.records ∧ task.id = taskId := by
  have hid := find?_some (p := fun task : DispatchTask => decide (task.id = taskId)) h
  exact ⟨mem_of_find?_eq_some h, of_decide_eq_true hid⟩

theorem get_record (h : m.get taskId = some task) : m.record taskId = some task := by
  unfold Manager.get at h
  split at h
  · exact h
  · cases h

namespace Keeps

section

variable (h : Keeps m)
include h

/-- What is recorded of tasks and the notices only grow, and sweeps await what they did. -/
theorem of_grown (hsends : Sends m'.notifier)
    (hids : (m'.records.map (·.id)).Nodup) (hrecords : m.subjects ⊆ m'.subjects)
    (hnotices : ∃ added, m'.notifier.notices.map Notice.subject =
      m.notifier.notices.map Notice.subject ++ added ∧ ∀ subject ∈ added, subject ∈ m'.subjects)
    (hsweeps : ∀ sweep ∈ m'.sweeps, sweep ∈ m.sweeps ∨ Awaits m' sweep) : Keeps m' := by
  obtain ⟨added, hmap, hadded⟩ := hnotices
  refine ⟨hsends, hids, fun notice hnotice => ?_, fun sweep hsweep => ?_⟩
  · have hsubject : notice.subject ∈ m'.notifier.notices.map Notice.subject :=
      mem_map_of_mem hnotice
    rw [hmap] at hsubject
    rcases mem_append.1 hsubject with hold | hnew
    · obtain ⟨old, hmem, heq⟩ := mem_map.1 hold
      exact hrecords (heq ▸ h.owned old hmem)
    · exact hadded _ hnew
  · rcases hsweeps sweep hsweep with hold | hnew
    · have hbefore := h.awaits sweep hold
      match sweep, hbefore with
      | .looping, _ => trivial
      | .finished, _ => trivial
      | .sending _ none, _ => trivial
      | .sending id (some i), ⟨notice, hnotice, hid⟩ =>
        have hat : (m'.notifier.notices.map Notice.subject)[i]? = some notice.subject := by
          have hlt : i < (m.notifier.notices.map Notice.subject).length := by
            rw [length_map]
            exact (List.getElem?_eq_some_iff.1 hnotice).1
          rw [hmap, getElem?_append_left hlt, getElem?_map, hnotice]
          rfl
        rw [getElem?_map] at hat
        obtain ⟨notice', hnotice', heq⟩ := Option.map_eq_some_iff.1 hat
        exact ⟨notice', hnotice', (congrArg Prod.fst heq).trans hid⟩
    · exact hnew

theorem of_same (hnotifier : m'.notifier = m.notifier) (hrecords : m'.records = m.records)
    (hsweeps : ∀ sweep ∈ m'.sweeps, sweep ∈ m.sweeps ∨ Awaits m' sweep) : Keeps m' := by
  refine h.of_grown ?_ ?_ ?_ ⟨[], ?_, nofun⟩ hsweeps
  · rw [hnotifier]
    exact h.sends
  · rw [hrecords]
    exact h.idsNodup
  · rw [Manager.subjects, Manager.subjects, hrecords]
    exact fun _ hsubject => hsubject
  · rw [hnotifier, append_nil]

theorem sending (htask : task ∈ m.records) (remaining maxRetries : Nat) :
    Keeps (m.sendNotification task remaining maxRetries).1 ∧
      Awaits (m.sendNotification task remaining maxRetries).1
        (.sending task.id (m.sendNotification task remaining maxRetries).2) := by
  have hparent : ∀ other ∈ m.notifier.notices, other.taskId = task.id →
      other.parentSessionId = task.parentSessionId := by
    intro other hother hid
    obtain ⟨old, hold, heq⟩ := mem_map.1 (h.owned other hother)
    obtain ⟨hidOld, hparentOld⟩ := Prod.mk.inj heq
    have hsame : old = task := inj_on_of_nodup_map h.idsNodup hold htask (hidOld.trans hid)
    exact hparentOld.symm.trans (congrArg DispatchTask.parentSessionId hsame)
  have hsends := h.sends.notifyParent (.count remaining) maxRetries hparent
  have hsubject : (task.id, task.parentSessionId) ∈ m.subjects := mem_map.2 ⟨task, htask, rfl⟩
  rcases notifyParent_cases m.notifier task (.count remaining) maxRetries with
    ⟨hsuppress, hsame⟩ | ⟨notice, hnotice, hnotices, hticket⟩
  · unfold Manager.sendNotification
    rw [hsame]
    exact ⟨h.of_same rfl rfl fun _ hsweep => .inl hsweep, trivial⟩
  · constructor
    · refine h.of_grown hsends h.idsNodup (fun _ hmem => hmem) ⟨[notice.subject], ?_, ?_⟩
        fun _ hsweep => .inl hsweep
      · exact (congrArg (List.map Notice.subject) hnotices).trans map_append
      · intro subject hin
        rw [mem_singleton.1 hin, hnotice]
        exact hsubject
    · show Awaits _ (.sending task.id
        (m.notifier.notifyParent task (.count remaining) maxRetries).2)
      rw [hticket]
      refine ⟨notice, ?_, congrArg Prod.fst hnotice⟩
      show (m.notifier.notifyParent task (.count remaining) maxRetries).1.notices[_]? = _
      rw [hnotices, getElem?_append_right (Nat.le_refl _), Nat.sub_self]
      rfl

theorem notifyCompletion (htask : task ∈ m.records) (remaining : Nat)
    (await : Call → List Call) : Keeps (m.notifyCompletion task remaining await) :=
  (h.sending htask remaining NOTIFY_MAX_RETRIES).1.of_same rfl rfl fun _ hsweep => .inl hsweep

theorem visit (k : Nat) (taskId : String) : Keeps (m.visit k taskId) := by
  unfold Manager.visit
  split
  · exact h.of_same rfl rfl fun _ hsweep => .inl hsweep
  next task hget =>
  split
  · exact h.of_same rfl rfl fun _ hsweep => .inl hsweep
  obtain ⟨hmem, hid⟩ := record_mem (get_record hget)
  obtain ⟨hkeeps, hawaits⟩ := h.sending hmem 0 NOTIFY_MAX_RETRIES
  rw [hid] at hawaits
  refine hkeeps.of_same rfl rfl fun sweep hsweep => ?_
  rcases mem_or_eq_of_mem_set hsweep with hold | rfl
  · exact .inl hold
  · exact .inr hawaits

theorem step {e : Event} (hstep : Step m e m') : Keeps m' := by
  cases hstep with
  | send hstep =>
    refine h.of_grown (h.sends.step hstep) h.idsNodup (fun _ hmem => hmem)
      ⟨[], hstep.subjects.trans (append_nil _).symm, nofun⟩
      fun _ hsweep => .inl hsweep
  | @launch task hfresh =>
    refine h.of_grown h.sends ?_ ?_
      ⟨[], (append_nil _).symm, nofun⟩
      fun _ hsweep => .inl hsweep
    · rw [map_append, nodup_append]
      refine ⟨h.idsNodup, nodup_singleton _, fun id hid id' hid' heq => hfresh ?_⟩
      have hsame : id = task.id := heq.trans (mem_singleton.1 hid')
      rw [← hsame]
      exact hid
    · intro subject hsubject
      rw [Manager.subjects, map_append]
      exact mem_append_left _ hsubject
  | setStatus taskId status =>
    have hkeeps : ∀ {α : Type} (f : DispatchTask → α),
        (∀ task : DispatchTask, f { task with status := status } = f task) →
        (m.records.map fun task =>
          if task.id = taskId then { task with status := status } else task).map f =
          m.records.map f := by
      intro α f hf
      rw [map_map]
      refine map_congr_left fun task _ => ?_
      show f (if task.id = taskId then { task with status := status } else task) = f task
      split
      · exact hf task
      · rfl
    refine h.of_grown h.sends ?_ ?_
      ⟨[], (append_nil _).symm, nofun⟩
      fun _ hsweep => .inl hsweep
    · rw [hkeeps (·.id) fun _ => rfl]
      exact h.idsNodup
    · unfold Manager.subjects
      rw [hkeeps _ fun _ => rfl]
      exact fun _ hsubject => hsubject
  | materialize htask hcompleted => exact h.of_same rfl rfl fun _ hsweep => .inl hsweep
  | @materialized k taskId task remaining hcall htask =>
    obtain ⟨hmem, -⟩ := record_mem htask
    unfold Manager.materialized
    simp only
    split
    · have hadded : Keeps (m.addToOutbox task.id) :=
        h.of_same rfl rfl fun _ hsweep => .inl hsweep
      exact hadded.notifyCompletion hmem remaining _
    · exact h.notifyCompletion hmem remaining _
  | notifyCompletion remaining htask =>
    exact h.notifyCompletion (record_mem htask).1 remaining _
  | notified hcall hanswer => exact h.of_same rfl rfl fun _ hsweep => .inl hsweep
  | notifyParent remaining maxRetries htask =>
    exact (h.sending (record_mem htask).1 remaining maxRetries).1
  | sweep =>
    refine h.of_same rfl rfl fun sweep hsweep => ?_
    rcases mem_append.1 hsweep with hold | hnew
    · exact .inl hold
    · rw [mem_singleton.1 hnew]
      exact .inr trivial
  | @visit k taskId hsweep hentry => exact h.visit k taskId
  | resume hsweep hanswer | sweepEnd hsweep =>
    refine h.of_same rfl rfl fun sweep hin => ?_
    rcases mem_or_eq_of_mem_set hin with hold | rfl
    · exact .inl hold
    · exact .inr trivial
  | cleanupTimer hdone => exact h.of_same rfl rfl fun _ hsweep => .inl hsweep
  | cleanupTask taskId => exact h.of_same rfl rfl fun _ hsweep => .inl hsweep

end

theorem initial (h : Initial m) : Keeps m where
  sends := by
    obtain ⟨hqueues, hnotices, ⟨hnodup, hknown⟩, -, -, -⟩ := h
    have hnone : ∀ notice, notice ∉ m.notifier.notices := by
      rw [hnotices]
      exact fun _ => not_mem_nil
    refine
      { sound := hqueues ▸ Mutexes.sound_empty
        size := ?_
        slot := fun i t notice _ hnotice => absurd (mem_of_getElem? hnotice) (hnone notice)
        oneParent := fun notice hnotice => absurd hnotice (hnone notice)
        nodup := hnodup
        known := fun id => (hknown id).1
        unsent := fun notice hnotice => absurd hnotice (hnone notice)
        told := fun notice hnotice => absurd hnotice (hnone notice) }
    rw [hnotices, hqueues]
    rfl
  idsNodup := h.idsNodup
  owned notice hnotice := by
    rw [h.notices] at hnotice
    cases hnotice
  awaits sweep hsweep := by
    rw [h.sweeps] at hsweep
    cases hsweep

theorem reachable (h : Reachable Initial Step m) : Keeps m :=
  h.invariant (fun _ => initial) fun _ _ _ hkeeps hstep => hkeeps.step hstep

end Keeps

/-- What is marked as sent was accepted, and no sweep awaits a send that made no prompt. -/
structure Heard (m : Manager) : Prop where
  accepted : m.notifier.sentFinalNotifies ⊆ m.notifier.accepted
  prompted : ∀ taskId, Sweep.sending taskId none ∉ m.sweeps

namespace Heard

theorem initial (h : Initial m) : Heard m where
  accepted id := (h.seeded.2 id).2
  prompted taskId hsweep := by
    rw [h.sweeps] at hsweep
    cases hsweep

theorem send {n n' : Notifier} {e : SendEvent} (h : n.sentFinalNotifies ⊆ n.accepted)
    (hstep : SendStep n e n') (hanswer : ∀ i answer, e = .answer i answer → ∀ notice attempt,
      n.notices[i]? = some notice → notice.phase = .prompting true attempt → answer ≠ .refused) :
    n'.sentFinalNotifies ⊆ n'.accepted := by
  cases hstep with
  | begin reading ht hpassed hnotice hqueued =>
    unfold Notifier.doNotify
    simp only
    split
    · split <;> exact h
    · exact h
  | @answer i notice shouldReply attempt answer hnotice hprompting =>
    unfold Notifier.promptAnswered
    split
    · next hreply =>
      split
      · split <;> exact h
      · next hresolved =>
        subst hreply
        have haccepted : answer = .accepted := by
          cases answer with
          | accepted => rfl
          | refused => exact absurd rfl (hanswer i _ rfl notice attempt hnotice hprompting)
          | failed => exact absurd rfl hresolved
        simp only [if_pos haccepted]
        split
        · exact fun _ hid => mem_append_left _ (h hid)
        · intro id hid
          rcases mem_append.1 hid with hold | hnew
          · exact mem_append_left _ (h hold)
          · exact mem_append_right _ hnew
    · exact h
  | delayOver | settle | forget => exact h

variable (h : Heard m)
include h

theorem of_sweeps (hnotifier : m'.notifier.sentFinalNotifies = m.notifier.sentFinalNotifies ∧
      m'.notifier.accepted = m.notifier.accepted)
    (hsweeps : ∀ taskId, Sweep.sending taskId none ∈ m'.sweeps →
      Sweep.sending taskId none ∈ m.sweeps) : Heard m' where
  accepted := by
    rw [hnotifier.1, hnotifier.2]
    exact h.accepted
  prompted taskId hsweep := h.prompted taskId (hsweeps taskId hsweep)

end Heard

/-- A send queued changes neither what was marked as sent nor what was accepted. -/
theorem sendNotification_sent (m : Manager) (task : DispatchTask) (remaining maxRetries : Nat) :
    (m.sendNotification task remaining maxRetries).1.notifier.sentFinalNotifies =
        m.notifier.sentFinalNotifies ∧
      (m.sendNotification task remaining maxRetries).1.notifier.accepted = m.notifier.accepted := by
  show (m.notifier.notifyParent task (.count remaining) maxRetries).1.sentFinalNotifies = _ ∧
    (m.notifier.notifyParent task (.count remaining) maxRetries).1.accepted = _
  unfold Notifier.notifyParent
  split <;> exact ⟨rfl, rfl⟩

theorem Heard.step (h : Heard m) {e : Event} (hstep : AnsweredStep m e m') : Heard m' := by
  obtain ⟨hstep, hanswered⟩ := hstep
  cases hstep with
  | send hstep =>
    refine ⟨Heard.send h.accepted hstep ?_, h.prompted⟩
    rintro i answer rfl
    exact hanswered
  | sweep =>
    refine h.of_sweeps ⟨rfl, rfl⟩ fun taskId hsweep => ?_
    rcases mem_append.1 hsweep with hold | hnew
    · exact hold
    · cases mem_singleton.1 hnew
  | @visit k taskId hsweep hentry =>
    unfold Manager.visit
    split
    · exact h.of_sweeps ⟨rfl, rfl⟩ fun _ hsweep => hsweep
    next task hget =>
    split
    · exact h.of_sweeps ⟨rfl, rfl⟩ fun _ hsweep => hsweep
    refine h.of_sweeps (sendNotification_sent m task 0 NOTIFY_MAX_RETRIES) fun id hin => ?_
    rcases mem_or_eq_of_mem_set hin with hold | hnew
    · exact hold
    -- the task visited does not suppress its notice, so its send has a ticket
    rcases notifyParent_cases m.notifier task (.count 0) NOTIFY_MAX_RETRIES with
      ⟨hsuppress, -⟩ | ⟨notice, -, -, hticket⟩
    · rw [hanswered task hget] at hsuppress
      cases hsuppress
    · have hnone : none = some m.notifier.notices.length :=
        (Sweep.sending.inj hnew).2.trans hticket
      cases hnone
  | resume hsweep hanswer | sweepEnd hsweep =>
    refine h.of_sweeps ⟨rfl, rfl⟩ fun taskId hin => ?_
    rcases mem_or_eq_of_mem_set hin with hold | hnew
    · exact hold
    · cases hnew
  | notifyParent remaining maxRetries htask =>
    exact h.of_sweeps (sendNotification_sent ..) fun _ hsweep => hsweep
  | notifyCompletion remaining htask =>
    exact h.of_sweeps (sendNotification_sent ..) fun _ hsweep => hsweep
  | materialized remaining hcall htask =>
    unfold Manager.materialized
    simp only
    split <;> exact h.of_sweeps (sendNotification_sent ..) fun _ hsweep => hsweep
  | _ => exact h.of_sweeps ⟨rfl, rfl⟩ fun _ hsweep => hsweep

theorem removed (h : Keeps m) (hheard : Heard m) {e : Event} (hstep : Step m e m')
    (hin : taskId ∈ m.notifyOutbox) (hout : taskId ∉ m'.notifyOutbox) :
    taskId ∈ m.notifier.accepted ∨ m.get taskId = none := by
  have hdeleted : ∀ {id}, taskId ∉ delete id m.notifyOutbox → taskId = id := by
    intro id hnot
    by_contra hne
    exact hnot (mem_filter.2 ⟨hin, decide_eq_true hne⟩)
  cases hstep with
  | @materialized k id task remaining hcall htask =>
    refine absurd ?_ hout
    unfold Manager.materialized Manager.notifyCompletion Manager.sendNotification
    simp only
    split
    · show taskId ∈ add task.id m.notifyOutbox
      unfold add
      split
      · exact hin
      · exact mem_append_left _ hin
    · exact hin
  | @visit k id hsweep hentry =>
    unfold Manager.visit at hout
    split at hout
    · next hgone =>
      obtain rfl := hdeleted hout
      exact .inr hgone
    · split at hout
      · next hsent =>
        obtain rfl := hdeleted hout
        exact .inl (hheard.accepted hsent)
      · exact absurd hin hout
  | @resume k id ticket sent hsweep hanswer =>
    unfold Manager.resume at hout
    simp only at hout
    cases sent with
    | false => exact absurd hin hout
    | true =>
      obtain rfl := hdeleted hout
      have hmem := mem_of_getElem? hsweep
      rcases answerOf_sent h.sends hanswer with rfl | ⟨i, notice, rfl, hnotice, htold⟩
      · exact absurd hmem (hheard.prompted taskId)
      · obtain ⟨notice', hnotice', hid⟩ := h.awaits _ hmem
        rw [(Option.mem_unique hnotice' hnotice)] at hid
        exact .inl (hheard.accepted (hid ▸ htold))
  | _ => exact absurd hin hout

def OneAtATime (n : Notifier) : Prop :=
  ∀ (i j : Nat) notice notice', n.notices[i]? = some notice → n.notices[j]? = some notice' →
    notice.parentSessionId = notice'.parentSessionId →
    notice.phase.begun = true → notice.phase.ended = false →
    notice'.phase.begun = true → notice'.phase.ended = false → i = j

/-- In every run a task has one accepted final prompt and a parent one send at a time; where no
such prompt resolves to null, no entry leaves the outbox before its task's notice was accepted. -/
theorem final_notification {m : Manager} :
    (Reachable Initial Step m → m.notifier.accepted.Nodup ∧ OneAtATime m.notifier) ∧
    (Reachable Initial AnsweredStep m → ∀ e m' taskId, Step m e m' →
      taskId ∈ m.notifyOutbox → taskId ∉ m'.notifyOutbox →
      taskId ∈ m.notifier.accepted ∨ m.get taskId = none) := by
  constructor
  · intro hreach
    have hsends := (Keeps.reachable hreach).sends
    refine ⟨hsends.nodup, ?_⟩
    intro i j notice notice' hi hj hparent hbegun hended hbegun' hended'
    exact hsends.exclusive hi hj hparent hbegun hbegun' hended hended'
  · intro hreach e m' taskId hstep
    have hkeeps : Keeps m :=
      hreach.invariant (fun _ => Keeps.initial) fun _ _ _ hkeeps hstep => hkeeps.step hstep.1
    exact removed hkeeps
      (hreach.invariant (fun _ => Heard.initial) fun _ _ _ hheard hstep => hheard.step hstep) hstep

end Outbox

/-- A process with nothing to restore. -/
def fresh : Manager :=
  { notifier :=
      { parentQueues := Mutexes.empty, notices := [], sentFinalNotifies := [], accepted := [] }
    records := [], tasks := [], notifyOutbox := [], pendingNotifications := [], calls := []
    sweeps := [] }

theorem fresh_initial : Initial fresh where
  queues := rfl
  notices := rfl
  seeded := ⟨nodup_nil, fun _ => Iff.rfl⟩
  idsNodup := nodup_nil
  calls := rfl
  sweeps := rfl

def lastTask : DispatchTask :=
  { id := "bg_1", parentSessionId := "ses_0", status := .completed,
    suppressCompletionNotification := false }

/-- The prompt of the last task is taken at the second attempt, and a sweep comes to its entry. -/
theorem final_notification_retried :
    ∃ m m', Run AnsweredStep fresh
        [.launch lastTask, .materialize "bg_1", .materialized 0 0, .send (.begin 0 0),
          .send (.answer 0 .failed), .send (.delayOver 0), .send (.answer 0 .accepted), .sweep] m ∧
      Step m (.visit 0 "bg_1") m' ∧ "bg_1" ∈ m.notifyOutbox ∧ "bg_1" ∉ m'.notifyOutbox ∧
      (m.notifier.accepted.Nodup ∧ OneAtATime m.notifier) ∧
      ("bg_1" ∈ m.notifier.accepted ∨ m.get "bg_1" = none) := by
  have hrun : ∃ m m', Run AnsweredStep fresh
      [.launch lastTask, .materialize "bg_1", .materialized 0 0, .send (.begin 0 0),
        .send (.answer 0 .failed), .send (.delayOver 0), .send (.answer 0 .accepted), .sweep] m ∧
      Step m (.visit 0 "bg_1") m' ∧ "bg_1" ∈ m.notifyOutbox ∧ "bg_1" ∉ m'.notifyOutbox := by
    refine ⟨_, _, .cons ⟨.launch not_mem_nil, trivial⟩ <| .cons ⟨.materialize rfl rfl, trivial⟩ <|
      .cons ⟨.materialized 0 rfl rfl, trivial⟩ <|
      .cons ⟨.send (.begin 0 rfl rfl rfl rfl), trivial⟩ <|
      .cons ⟨.send (.answer .failed rfl rfl), fun _ _ _ _ => by decide⟩ <|
      .cons ⟨.send (.delayOver rfl rfl), trivial⟩ <|
      .cons ⟨.send (.answer .accepted rfl rfl), fun _ _ _ _ => by decide⟩ <|
      .cons ⟨.sweep, trivial⟩ <| .nil _, .visit rfl (mem_singleton_self _), ?_, ?_⟩
    · exact mem_singleton_self _
    · exact not_mem_nil
  obtain ⟨m, m', hrun, hvisit, hin, hout⟩ := hrun
  refine ⟨m, m', hrun, hvisit, hin, hout, final_notification.1 ?_, final_notification.2 ?_ _ m'
    "bg_1" hvisit hin hout⟩
  · exact ⟨fresh, _, fresh_initial, hrun.mono fun _ _ _ hstep => hstep.1⟩
  · exact ⟨fresh, _, fresh_initial, hrun⟩

/-- The host refuses the prompt of the last task, and a sweep removes its entry. -/
theorem refused_removed :
    Initial fresh ∧ ∃ m m', Run Step fresh
        [.launch lastTask, .materialize "bg_1", .materialized 0 0, .send (.begin 0 0),
          .send (.answer 0 .refused), .sweep] m ∧
      Step m (.visit 0 "bg_1") m' ∧ "bg_1" ∈ m.notifyOutbox ∧ "bg_1" ∉ m'.notifyOutbox ∧
      m.notifier.accepted = [] ∧ m.get "bg_1" = some lastTask := by
  refine ⟨fresh_initial, _, _, .cons (.launch not_mem_nil) <| .cons (.materialize rfl rfl) <|
    .cons (.materialized 0 rfl rfl) <| .cons (.send (.begin 0 rfl rfl rfl rfl)) <|
    .cons (.send (.answer .refused rfl rfl)) <| .cons .sweep <| .nil _,
    .visit rfl (mem_singleton_self _), ?_, ?_, ?_, ?_⟩
  · exact mem_singleton_self _
  · exact not_mem_nil
  · rfl
  · rfl

end Rolebox.Dispatch.Notification
