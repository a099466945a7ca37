import Mathlib.Data.List.Nodup
import Rolebox.Dispatch.TaskTable
import Rolebox.General.KeyedMutex

/-! The notices of finished tasks: one chain of sends for each parent session. -/

namespace Rolebox.Dispatch.Notification
open General List

structure DispatchTask where
  id : String
  parentSessionId : String
  status : DispatchTaskStatus
  suppressCompletionNotification : Bool

def NOTIFY_MAX_RETRIES : Nat := 3

/-- How a notice learns how many tasks remain: as a number, or by asking when its turn comes. -/
inductive RemainingProvider where
  | count (remaining : Nat)
  | provider

def RemainingProvider.read (reading : Nat) : RemainingProvider → Nat
  | count remaining => remaining
  | provider => reading

/-- How far a send has come. A delay follows a failed attempt. -/
inductive Phase where
  | queued
  | prompting (shouldReply : Bool) (attempt : Nat)
  | delaying (attempt : Nat)
  | returned (sent : Bool)

/-- What `client.prompt` comes to: it resolves to null where the host refused, and is rejected where
it throws. -/
inductive PromptAnswer where
  | accepted
  | refused
  | failed
  deriving DecidableEq

structure Notice where
  taskId : String
  parentSessionId : String
  remainingProvider : RemainingProvider
  isTaskFailure : Bool
  maxRetries : Nat
  phase : Phase

/-- The chains of sends, where notice `i` runs as request `i`; no function reads `accepted`. -/
structure Notifier where
  parentQueues : Mutexes String Nat
  notices : List Notice
  sentFinalNotifies : List String
  accepted : List String

namespace Notifier

def enqueueNotify (n : Notifier) (notice : Notice) : Notifier :=
  { n with
    parentQueues := n.parentQueues.request notice.parentSessionId n.notices.length
    notices := n.notices ++ [notice] }

/-- A call answers at once for a task that suppresses its notice, else as the send it queues. -/
def notifyParent (n : Notifier) (task : DispatchTask) (remainingProvider : RemainingProvider)
    (maxRetries : Nat) : Notifier × Option Nat :=
  if task.suppressCompletionNotification then (n, none)
  else
    (n.enqueueNotify
      { taskId := task.id
        parentSessionId := task.parentSessionId
        remainingProvider := remainingProvider
        isTaskFailure := task.status = .error ∨ task.status = .cancelled ∨ task.status = .timeout
        maxRetries := maxRetries
        phase := .queued },
      some n.notices.length)

def setPhase (n : Notifier) (i : Nat) (notice : Notice) (phase : Phase) : Notifier :=
  { n with notices := n.notices.set i { notice with phase := phase } }

def returnFrom (n : Notifier) (i : Nat) (notice : Notice) (sent : Bool) : Notifier :=
  { n.setPhase i notice (.returned sent) with
    parentQueues := n.parentQueues.release fun tag => tag = i }

def doNotify (n : Notifier) (i : Nat) (notice : Notice) (reading : Nat) : Notifier :=
  let remainingCount := notice.remainingProvider.read reading
  let shouldReply := remainingCount = 0 ∨ notice.isTaskFailure
  let n := { n with parentQueues := n.parentQueues.grant i }
  if shouldReply then
    if notice.taskId ∈ n.sentFinalNotifies then n.returnFrom i notice true
    else n.setPhase i notice (.prompting true 0)
  else n.setPhase i notice (.prompting false 0)

def promptAnswered (n : Notifier) (i : Nat) (notice : Notice) (shouldReply : Bool)
    (attempt : Nat) (answer : PromptAnswer) : Notifier :=
  if shouldReply then
    if answer = .failed then
      if attempt < notice.maxRetries then n.setPhase i notice (.delaying attempt)
      else n.returnFrom i notice false
    else
      -- a prompt that resolved counts as sent, to null or not
      { n.returnFrom i notice true with
        sentFinalNotifies :=
          if notice.taskId ∈ n.sentFinalNotifies then n.sentFinalNotifies
          else n.sentFinalNotifies ++ [notice.taskId]
        accepted :=
          if answer = .accepted then n.accepted ++ [notice.taskId] else n.accepted }
  else n.returnFrom i notice false

def answerOf (n : Notifier) : Option Nat → Option Bool
  | none => some true
  | some i =>
    match n.parentQueues.tickets[i]?, n.notices[i]? with
    | some ticket, some notice =>
      match notice.phase with
      | .returned sent => if ticket.settled then some sent else none
      | _ => none
    | _, _ => none

end Notifier

inductive SendEvent where
  | begin (i reading : Nat)
  | answer (i : Nat) (answer : PromptAnswer)
  | delayOver (i : Nat)
  | settle (i : Nat)
  | forget (parentSessionId : String)

/-- What runs between two awaits of the sends. -/
inductive SendStep : Notifier → SendEvent → Notifier → Prop where
  | begin {n : Notifier} {i : Nat} (reading : Nat) {t : Ticket String Nat} {notice : Notice}
      (ht : n.parentQueues.tickets[i]? = some t) (hpassed : n.parentQueues.passed t = true)
      (hnotice : n.notices[i]? = some notice) (hqueued : notice.phase = .queued) :
      SendStep n (.begin i reading) (n.doNotify i notice reading)
  | answer {n : Notifier} {i : Nat} {notice : Notice} {shouldReply : Bool} {attempt : Nat}
      (answer : PromptAnswer) (hnotice : n.notices[i]? = some notice)
      (hprompting : notice.phase = .prompting shouldReply attempt) :
      SendStep n (.answer i answer) (n.promptAnswered i notice shouldReply attempt answer)
  | delayOver {n : Notifier} {i : Nat} {notice : Notice} {attempt : Nat}
      (hnotice : n.notices[i]? = some notice) (hdelaying : notice.phase = .delaying attempt) :
      SendStep n (.delayOver i) (n.setPhase i notice (.prompting true (attempt + 1)))
  | settle {n : Notifier} {i : Nat} {t : Ticket String Nat}
      (ht : n.parentQueues.tickets[i]? = some t) (hreleased : t.released = true)
      (hpassed : n.parentQueues.passed t = true) :
      SendStep n (.settle i) { n with parentQueues := n.parentQueues.settle i }
  | forget {n : Notifier} {parentSessionId : String} {i : Nat} {t : Ticket String Nat}
      (htail : n.parentQueues.tails parentSessionId = some i)
      (ht : n.parentQueues.tickets[i]? = some t) (hsettled : t.settled = true) :
      SendStep n (.forget parentSessionId)
        { n with parentQueues := n.parentQueues.forget parentSessionId }

namespace Phase

def begun : Phase → Bool
  | queued => false
  | _ => true

def ended : Phase → Bool
  | returned _ => true
  | _ => false

def replying : Phase → Bool
  | prompting shouldReply _ => shouldReply
  | delaying _ => true
  | _ => false

end Phase

structure Slot (i : Nat) (t : Ticket String Nat) (notice : Notice) : Prop where
  tag : t.tag = i
  key : t.key = notice.parentSessionId
  granted : t.granted = notice.phase.begun
  released : t.released = notice.phase.ended

structure Sends (n : Notifier) : Prop where
  sound : n.parentQueues.Sound
  size : n.notices.length = n.parentQueues.tickets.length
  slot : ∀ i t notice, n.parentQueues.tickets[i]? = some t → n.notices[i]? = some notice →
    Slot i t notice
  oneParent : ∀ notice ∈ n.notices, ∀ notice' ∈ n.notices, notice.taskId = notice'.taskId →
    notice.parentSessionId = notice'.parentSessionId
  nodup : n.accepted.Nodup
  known : n.accepted ⊆ n.sentFinalNotifies
  unsent : ∀ notice ∈ n.notices, notice.phase.replying = true →
    notice.taskId ∉ n.sentFinalNotifies
  told : ∀ notice ∈ n.notices, notice.phase = .returned true →
    notice.taskId ∈ n.sentFinalNotifies

namespace Sends
variable {n n' : Notifier} {i j : Nat} {notice notice' : Notice}
variable {phase : Phase} {queues : Mutexes String Nat}

theorem ticket (h : Sends n) (hnotice : n.notices[i]? = some notice) :
    ∃ t, n.parentQueues.tickets[i]? = some t ∧ Slot i t notice := by
  have hlt : i < n.parentQueues.tickets.length := by
    rw [← h.size]
    exact (List.getElem?_eq_some_iff.1 hnotice).1
  refine ⟨_, getElem?_eq_getElem hlt, ?_⟩
  exact h.slot i _ notice (getElem?_eq_getElem hlt) hnotice

theorem exclusive (h : Sends n) (hi : n.notices[i]? = some notice)
    (hj : n.notices[j]? = some notice') (hparent : notice.parentSessionId = notice'.parentSessionId)
    (hbegun : notice.phase.begun = true) (hbegun' : notice'.phase.begun = true)
    (hended : notice.phase.ended = false) (hended' : notice'.phase.ended = false) : i = j := by
  obtain ⟨t, ht, hslot⟩ := h.ticket hi
  obtain ⟨t', ht', hslot'⟩ := h.ticket hj
  refine h.sound.exclusive ht ht' ?_ (hslot.granted.trans hbegun) (hslot'.granted.trans hbegun')
    (hslot.released.trans hended) (hslot'.released.trans hended')
  exact hslot.key.trans (hparent.trans hslot'.key.symm)

theorem replying_begun (h : phase.replying = true) : phase.begun = true ∧ phase.ended = false := by
  cases phase <;> first | exact ⟨rfl, rfl⟩ | cases h

theorem moved (h : Sends n) (hi : n.notices[i]? = some notice) {sent accepted : List String}
    (hsound : queues.Sound) (hlength : queues.tickets.length = n.parentQueues.tickets.length)
    (htickets : ∀ j t', queues.tickets[j]? = some t' → ∃ t, n.parentQueues.tickets[j]? = some t ∧
      t'.tag = t.tag ∧ t'.key = t.key ∧
      (j ≠ i → t'.granted = t.granted ∧ t'.released = t.released) ∧
      (j = i → t'.granted = phase.begun ∧ t'.released = phase.ended)) (hnodup : accepted.Nodup)
    (hknown : accepted ⊆ sent) (hgrows : ∀ id ∈ n.sentFinalNotifies, id ∈ sent)
    (hunsent : ∀ (j : Nat) other, j ≠ i → n.notices[j]? = some other →
      other.phase.replying = true → other.taskId ∉ sent)
    (hreplying : phase.replying = true → notice.taskId ∉ sent)
    (htold : phase = .returned true → notice.taskId ∈ sent) :
    Sends
      { parentQueues := queues
        notices := n.notices.set i { notice with phase := phase }
        sentFinalNotifies := sent
        accepted := accepted } := by
  have hlt := (List.getElem?_eq_some_iff.1 hi).1
  have hread : ∀ {j : Nat} {other : Notice},
      (n.notices.set i { notice with phase := phase })[j]? = some other →
      (j = i ∧ other = { notice with phase := phase }) ∨
        (j ≠ i ∧ n.notices[j]? = some other) := by
    intro j other hj
    by_cases hji : j = i
    · subst hji
      rw [getElem?_set_self hlt] at hj
      exact .inl ⟨rfl, (Option.some.inj hj).symm⟩
    · rw [getElem?_set_ne (Ne.symm hji)] at hj
      exact .inr ⟨hji, hj⟩
  -- a notice keeps its task and its parent
  have hsame : ∀ other ∈ n.notices.set i { notice with phase := phase },
      ∃ old ∈ n.notices, other.taskId = old.taskId ∧
        other.parentSessionId = old.parentSessionId := by
    intro other hother
    obtain ⟨j, hj⟩ := getElem?_of_mem hother
    rcases hread hj with ⟨-, rfl⟩ | ⟨-, hold⟩
    · exact ⟨notice, mem_of_getElem? hi, rfl, rfl⟩
    · exact ⟨other, mem_of_getElem? hold, rfl, rfl⟩
  refine
    { sound := hsound
      size := by rw [length_set, h.size, hlength]
      slot := ?_
      oneParent := ?_
      nodup := hnodup
      known := hknown
      unsent := ?_
      told := ?_ }
  · intro j t' other ht' hother
    obtain ⟨t, ht, htag, hkey, hothers, hself⟩ := htickets j t' ht'
    rcases hread hother with ⟨rfl, rfl⟩ | ⟨hji, hold⟩
    · have hslot := h.slot _ t notice ht hi
      obtain ⟨hgranted, hreleased⟩ := hself rfl
      exact ⟨htag.trans hslot.tag, hkey.trans hslot.key, hgranted, hreleased⟩
    · have hslot := h.slot j t other ht hold
      obtain ⟨hgranted, hreleased⟩ := hothers hji
      exact ⟨htag.trans hslot.tag, hkey.trans hslot.key, hgranted.trans hslot.granted,
        hreleased.trans hslot.released⟩
  · intro one hone two htwo hid
    obtain ⟨old, hold, hid₁, hparent₁⟩ := hsame one hone
    obtain ⟨old', hold', hid₂, hparent₂⟩ := hsame two htwo
    rw [hparent₁, hparent₂]
    exact h.oneParent old hold old' hold' (hid₁.symm.trans (hid.trans hid₂))
  · intro other hother hphase
    obtain ⟨j, hj⟩ := getElem?_of_mem hother
    rcases hread hj with ⟨-, rfl⟩ | ⟨hji, hold⟩
    · exact hreplying hphase
    · exact hunsent j other hji hold hphase
  · intro other hother hphase
    obtain ⟨j, hj⟩ := getElem?_of_mem hother
    rcases hread hj with ⟨-, rfl⟩ | ⟨-, hold⟩
    · exact htold hphase
    · exact hgrows _ (h.told other (mem_of_getElem? hold) hphase)

theorem tag_eq (h : Sends n) {t : Ticket String Nat}
    (ht : n.parentQueues.tickets[j]? = some t) : t.tag = j := by
  have hlt : j < n.notices.length := by
    rw [h.size]
    exact (List.getElem?_eq_some_iff.1 ht).1
  exact (h.slot j t _ ht (getElem?_eq_getElem hlt)).tag

theorem tickets_released (h : Sends n)
    (hqueues : ∀ j t', queues.tickets[j]? = some t' → ∃ t, n.parentQueues.tickets[j]? = some t ∧
      t'.tag = t.tag ∧ t'.key = t.key ∧ t'.released = t.released ∧
      (j ≠ i → t'.granted = t.granted) ∧ (j = i → t'.granted = true)) (t' : Ticket String Nat)
    (ht' : (queues.release fun tag => tag = i).tickets[j]? = some t') :
    ∃ t, n.parentQueues.tickets[j]? = some t ∧ t'.tag = t.tag ∧ t'.key = t.key ∧
      (j ≠ i → t'.granted = t.granted ∧ t'.released = t.released) ∧
      (j = i → t'.granted = true ∧ t'.released = true) := by
  obtain ⟨w, hw, rfl⟩ := Mutexes.getElem?_update.1 ht'
  obtain ⟨t, ht, htag, hkey, hreleased, hothers, hself⟩ := hqueues j w hw
  have hindex : w.tag = j := htag.trans (h.tag_eq ht)
  refine ⟨t, ht, ?_, ?_, fun hji => ?_, fun hji => ?_⟩
  · split <;> exact htag
  · split <;> exact hkey
  · have hother : ¬ (decide (w.tag = i) = true) := by
      rw [hindex]
      exact fun heq => hji (of_decide_eq_true heq)
    rw [if_neg hother]
    exact ⟨hothers hji, hreleased⟩
  · have hown : decide (w.tag = i) = true := decide_eq_true (hindex.trans hji)
    rw [if_pos hown]
    exact ⟨hself hji, rfl⟩

theorem tickets_granted {j : Nat} {t' : Ticket String Nat}
    (ht' : (n.parentQueues.grant i).tickets[j]? = some t') :
    ∃ t, n.parentQueues.tickets[j]? = some t ∧ t'.tag = t.tag ∧ t'.key = t.key ∧
      t'.released = t.released ∧ (j ≠ i → t'.granted = t.granted) ∧
      (j = i → t'.granted = true) := by
  obtain ⟨t, ht, rfl⟩ := Mutexes.getElem?_update.1 ht'
  refine ⟨t, ht, ?_, ?_, ?_, fun hji => ?_, fun hji => ?_⟩
  · split <;> rfl
  · split <;> rfl
  · split <;> rfl
  · rw [if_neg fun heq => hji (of_decide_eq_true heq)]
  · rw [if_pos (decide_eq_true hji)]

theorem length_update (m : Mutexes String Nat) (c : Nat → Ticket String Nat → Bool)
    (f : Ticket String Nat → Ticket String Nat) :
    (m.update c f).tickets.length = m.tickets.length := length_mapIdx

section

variable (h : Sends n)
include h

section

variable (hi : n.notices[i]? = some notice)
include hi

theorem replying_other
    (hj : n.notices[j]? = some notice') (hji : j ≠ i) (hbegun : notice.phase.begun = true)
    (hended : notice.phase.ended = false) (hreplying : notice'.phase.replying = true) :
    notice'.taskId ≠ notice.taskId := by
  intro hid
  obtain ⟨hbegun', hended'⟩ := replying_begun hreplying
  refine hji (h.exclusive hj hi ?_ hbegun' hbegun hended' hended)
  exact h.oneParent _ (mem_of_getElem? hj) _ (mem_of_getElem? hi) hid

theorem proceed (hbegun : notice.phase.begun = true) (hended : notice.phase.ended = false)
    (hphase : phase.begun = true) (hphase' : phase.ended = false)
    (hreplying : phase.replying = true → notice.taskId ∉ n.sentFinalNotifies) :
    Sends (n.setPhase i notice phase) := by
  refine h.moved hi h.sound rfl ?_ h.nodup h.known (fun _ hid => hid)
    (fun j other _ hj => h.unsent other (mem_of_getElem? hj)) hreplying ?_
  · intro j t ht
    refine ⟨t, ht, rfl, rfl, fun _ => ⟨rfl, rfl⟩, fun hji => ?_⟩
    subst hji
    have hslot := h.slot _ t notice ht hi
    exact ⟨hslot.granted.trans (hbegun.trans hphase.symm),
      hslot.released.trans (hended.trans hphase'.symm)⟩
  · intro hreturned
    rw [hreturned] at hphase'
    cases hphase'

theorem returns (hbegun : notice.phase.begun = true) (sent : Bool) {known accepted : List String}
    (hnodup : accepted.Nodup) (hknown : accepted ⊆ known)
    (hgrows : ∀ id ∈ n.sentFinalNotifies, id ∈ known)
    (hunsent : ∀ (j : Nat) other, j ≠ i → n.notices[j]? = some other →
      other.phase.replying = true → other.taskId ∉ known)
    (htold : sent = true → notice.taskId ∈ known) :
    Sends
      { n.returnFrom i notice sent with
        sentFinalNotifies := known
        accepted := accepted } := by
  refine h.moved hi (h.sound.release fun tag => decide (tag = i)) (length_update _ _ _) ?_ hnodup
    hknown hgrows hunsent (nofun)
    (fun hreturned => htold (Phase.returned.inj hreturned))
  intro j t' ht'
  refine h.tickets_released (fun j t ht => ⟨t, ht, rfl, rfl, rfl, fun _ => rfl, fun hji => ?_⟩)
    t' ht'
  subst hji
  exact (h.slot _ t notice ht hi).granted.trans hbegun

end

theorem doNotify {t : Ticket String Nat} (reading : Nat)
    (ht : n.parentQueues.tickets[i]? = some t) (hpassed : n.parentQueues.passed t = true)
    (hi : n.notices[i]? = some notice) (hqueued : notice.phase = .queued) :
    Sends (n.doNotify i notice reading) := by
  have hsound : (n.parentQueues.grant i).Sound := by
    refine h.sound.grant fun w hw => ?_
    rw [(Option.mem_unique hw ht)]
    exact hpassed
  have hunsent : ∀ (j : Nat) other, j ≠ i → n.notices[j]? = some other →
      other.phase.replying = true → other.taskId ∉ n.sentFinalNotifies :=
    fun j other _ hj => h.unsent other (mem_of_getElem? hj)
  have hbegins : ∀ shouldReply, (shouldReply = true → notice.taskId ∉ n.sentFinalNotifies) →
      Sends ({ n with parentQueues := n.parentQueues.grant i }.setPhase i notice
        (.prompting shouldReply 0)) := by
    intro shouldReply hnew
    refine h.moved hi hsound (length_update _ _ _) ?_ h.nodup h.known (fun _ hid => hid) hunsent
      hnew (nofun)
    intro j t' ht'
    obtain ⟨w, hw, htag, hkey, hreleased, hothers, hself⟩ := tickets_granted ht'
    refine ⟨w, hw, htag, hkey, fun hji => ⟨hothers hji, hreleased⟩, fun hji => ⟨hself hji, ?_⟩⟩
    subst hji
    rw [hreleased, (h.slot _ w notice hw hi).released, hqueued]
    rfl
  unfold Notifier.doNotify
  simp only
  split
  · split
    · next htaken =>
      -- the task was told of before: the send ends without a prompt
      refine h.moved hi (hsound.release fun tag => decide (tag = i)) ?_ ?_ h.nodup h.known
        (fun _ hid => hid) hunsent (nofun) fun _ => htaken
      · exact (length_update _ _ _).trans (length_update _ _ _)
      · exact fun j t' ht' => h.tickets_released (fun j t => tickets_granted) t' ht'
    · next hnew => exact hbegins true fun _ => hnew
  · exact hbegins false nofun

theorem promptAnswered (hi : n.notices[i]? = some notice) {shouldReply : Bool}
    {attempt : Nat} (answer : PromptAnswer)
    (hprompting : notice.phase = .prompting shouldReply attempt) :
    Sends (n.promptAnswered i notice shouldReply attempt answer) := by
  have hbegun : notice.phase.begun = true := by
    rw [hprompting]
    rfl
  have hended : notice.phase.ended = false := by
    rw [hprompting]
    rfl
  have hunsent : ∀ (j : Nat) other, j ≠ i → n.notices[j]? = some other →
      other.phase.replying = true → other.taskId ∉ n.sentFinalNotifies :=
    fun j other _ hj => h.unsent other (mem_of_getElem? hj)
  have hfails : Sends (n.returnFrom i notice false) :=
    h.returns hi hbegun false h.nodup h.known (fun _ hid => hid) hunsent
      (nofun)
  unfold Notifier.promptAnswered
  cases shouldReply with
  | false => exact hfails
  | true =>
    have hreplying : notice.phase.replying = true := by
      rw [hprompting]
      rfl
    have hnew : notice.taskId ∉ n.sentFinalNotifies :=
      h.unsent notice (mem_of_getElem? hi) hreplying
    have hgrows : ∀ id ∈ n.sentFinalNotifies, id ∈ n.sentFinalNotifies ++ [notice.taskId] :=
      fun _ hid => mem_append_left _ hid
    simp only [if_true]
    split
    · split
      · exact h.proceed hi hbegun hended rfl rfl fun _ => hnew
      · exact hfails
    · refine h.returns hi hbegun true ?_ (fun id hid => ?_) hgrows
        (fun j other hji hj hphase => ?_) fun _ => mem_append_right _ (mem_singleton_self _)
      · split
        · rw [nodup_append]
          refine ⟨h.nodup, nodup_singleton _, fun id hid id' hid' heq => hnew ?_⟩
          rw [mem_singleton.1 hid'] at heq
          exact heq ▸ h.known hid
        · exact h.nodup
      · split at hid
        · rcases mem_append.1 hid with hid | hid
          · exact hgrows id (h.known hid)
          · exact mem_append_right _ hid
        · exact hgrows id (h.known hid)
      · rw [mem_append, mem_singleton, not_or]
        exact ⟨hunsent j other hji hj hphase, h.replying_other hi hj hji hbegun hended hphase⟩

theorem requeued (hsound : queues.Sound)
    (hlength : queues.tickets.length = n.parentQueues.tickets.length)
    (htickets : ∀ (j : Nat) t', queues.tickets[j]? = some t' →
      ∃ t, n.parentQueues.tickets[j]? = some t ∧ t'.tag = t.tag ∧ t'.key = t.key ∧
        t'.granted = t.granted ∧ t'.released = t.released) :
    Sends { n with parentQueues := queues } where
  sound := hsound
  size := h.size.trans hlength.symm
  slot j t' notice ht' hnotice := by
    obtain ⟨t, ht, htag, hkey, hgranted, hreleased⟩ := htickets j t' ht'
    have hslot := h.slot j t notice ht hnotice
    exact ⟨htag.trans hslot.tag, hkey.trans hslot.key, hgranted.trans hslot.granted,
      hreleased.trans hslot.released⟩
  oneParent := h.oneParent
  nodup := h.nodup
  known := h.known
  unsent := h.unsent
  told := h.told

theorem step {e : SendEvent} (hstep : SendStep n e n') : Sends n' := by
  cases hstep with
  | begin reading ht hpassed hnotice hqueued =>
    exact h.doNotify reading ht hpassed hnotice hqueued
  | answer answer hnotice hprompting => exact h.promptAnswered hnotice answer hprompting
  | delayOver hnotice hdelaying =>
    have hmem := mem_of_getElem? hnotice
    refine h.proceed hnotice ?_ ?_ rfl rfl fun _ => h.unsent _ hmem ?_
    · rw [hdelaying]
      rfl
    · rw [hdelaying]
      rfl
    · rw [hdelaying]
      rfl
  | settle ht hreleased hpassed =>
    refine h.requeued (h.sound.settle fun w hw => ?_) (length_update _ _ _) ?_
    · rw [(Option.mem_unique hw ht)]
      exact ⟨hreleased, hpassed⟩
    · intro j t' ht'
      obtain ⟨w, hw, rfl⟩ := Mutexes.getElem?_update.1 ht'
      refine ⟨w, hw, ?_⟩
      split <;> exact ⟨rfl, rfl, rfl, rfl⟩
  | forget htail ht hsettled =>
    refine h.requeued (h.sound.forget htail fun w hw => ?_) rfl
      fun j t' ht' => ⟨t', ht', rfl, rfl, rfl, rfl⟩
    rw [(Option.mem_unique hw ht)]
    exact hsettled

theorem enqueueNotify {notice : Notice} (hqueued : notice.phase = .queued)
    (hparent : ∀ other ∈ n.notices, other.taskId = notice.taskId →
      other.parentSessionId = notice.parentSessionId) : Sends (n.enqueueNotify notice) where
  sound := h.sound.request _ _
  size := by
    show (n.notices ++ [notice]).length = (n.parentQueues.tickets ++ [_]).length
    rw [length_append, length_append, h.size]
    rfl
  slot j t other ht hother := by
    rcases Mutexes.getElem?_request ht with ⟨hlt, hold⟩ | ⟨rfl, rfl⟩
    · rw [← h.size] at hlt
      rw [Notifier.enqueueNotify, getElem?_append_left hlt] at hother
      exact h.slot j t other hold hother
    · have hlast : (n.notices ++ [notice])[n.parentQueues.tickets.length]? = some notice := by
        rw [← h.size, getElem?_append_right (Nat.le_refl _), Nat.sub_self]
        rfl
      obtain rfl := Option.mem_unique hlast hother
      refine ⟨h.size, rfl, ?_, ?_⟩
      · rw [hqueued]
        rfl
      · rw [hqueued]
        rfl
  oneParent one hone two htwo hid := by
    rcases mem_append.1 hone with hold | hnew <;>
      rcases mem_append.1 htwo with hold' | hnew'
    · exact h.oneParent one hold two hold' hid
    · obtain rfl := mem_singleton.1 hnew'
      exact hparent one hold hid
    · obtain rfl := mem_singleton.1 hnew
      exact (hparent two hold' hid.symm).symm
    · rw [mem_singleton.1 hnew, mem_singleton.1 hnew']
  nodup := h.nodup
  known := h.known
  unsent other hother hphase := by
    rcases mem_append.1 hother with hother | hother
    · exact h.unsent other hother hphase
    · rw [mem_singleton.1 hother, hqueued] at hphase
      cases hphase
  told other hother hphase := by
    rcases mem_append.1 hother with hother | hother
    · exact h.told other hother hphase
    · rw [mem_singleton.1 hother, hqueued] at hphase
      cases hphase

theorem notifyParent {task : DispatchTask} (remainingProvider : RemainingProvider)
    (maxRetries : Nat)
    (hparent : ∀ other ∈ n.notices, other.taskId = task.id →
      other.parentSessionId = task.parentSessionId) :
    Sends (n.notifyParent task remainingProvider maxRetries).1 := by
  unfold Notifier.notifyParent
  split
  · exact h
  · exact h.enqueueNotify rfl hparent

end

end Sends

end Rolebox.Dispatch.Notification
