import Rolebox.Team.Laws

/-! What one update does to members, events, completed tasks and the control. -/

namespace Rolebox.Team
open General List

section Members

def TeamMember.holding (member : TeamMember) : Option (String × Nat) :=
  member.delivery.map fun delivery => (delivery.id, delivery.throughSeq)

def lastSeq (pending : List TeamEvent) : Nat := (pending.getLast?.map TeamEvent.seq).getD 0

inductive MemberChange (u : TeamUpdate) (status : TeamStatus) (before after : TeamMember) : Prop where
  | kept (hid : after.id = before.id) (hcursor : after.cursor = before.cursor)
      (hholding : after.holding = before.holding)
  | cleared (hid : after.id = before.id) (hcursor : after.cursor = before.cursor)
      (hnone : after.delivery = none)
  | completed (delivery : TeamDelivery) (lastId : String) (hid : after.id = before.id)
      (hheld : before.delivery = some delivery)
      (hu : u = .recordTurn before.id (some delivery.id) lastId none)
      (hcursor : after.cursor = delivery.throughSeq) (hnone : after.delivery = none)
  | reserved (pending : List TeamEvent) (deliveryId : String) (baseline : List String)
      (hid : after.id = before.id) (hfree : before.delivery = none) (hactive : status = .active)
      (hu : u = .reserve before.id before.cursor pending deliveryId baseline)
      (hcursor : after.cursor = before.cursor)
      (hholding : after.holding = some (deliveryId, lastSeq pending))

def MembersChange (u : TeamUpdate) (state state' : TeamState) : Prop :=
  ∃ changed added, state'.members = changed ++ added ∧
    Forall₂ (MemberChange u state.status) state.members changed ∧
    ∀ member ∈ added, member.delivery = none ∧ member.cursor = 0

variable {u : TeamUpdate} {state state' : TeamState} {env : TeamEnv}

theorem MemberChange.refl {status : TeamStatus} (member : TeamMember) :
    MemberChange u status member member := .kept rfl rfl rfl

theorem MembersChange.of_eq (hmembers : state'.members = state.members) :
    MembersChange u state state' :=
  ⟨state.members, [], by rw [hmembers, append_nil],
    forall₂_same.2 fun member _ => .refl member, nofun⟩

theorem MembersChange.map {f : TeamMember → TeamMember}
    (hmembers : state'.members = state.members.map f)
    (hf : ∀ member ∈ state.members, MemberChange u state.status member (f member)) :
    MembersChange u state state' :=
  ⟨state.members.map f, [], by rw [hmembers, append_nil],
    forall₂_map_right_iff.2 (forall₂_same.2 hf), nofun⟩

theorem MembersChange.one (memberId : String) {f : TeamMember → TeamMember}
    (hmembers : state'.members = (state.withMember memberId f).members)
    (hf : ∀ member ∈ state.members, member.id = memberId →
      MemberChange u state.status member (f member)) : MembersChange u state state' := by
  refine .map hmembers fun member hmem => ?_
  by_cases hid : member.id = memberId
  · rw [if_pos hid]
    exact hf member hmem hid
  · rw [if_neg hid]
    exact .refl member

theorem MembersChange.dropped {memberId : String}
    (hmembers : state'.members = (dropDelivery memberId state).members) :
    MembersChange u state state' :=
  .one memberId hmembers fun _ _ _ => .cleared rfl rfl rfl

section
variable (n : Nat) (events : List NewEvent)

theorem appendAll_reads {α : Type} (read : TeamState → α)
    (hread : ∀ n event state, read (append env n event state) = read state) :
    read (appendAll env n events state) = read state := by
  induction events generalizing n state with
  | nil => rfl
  | cons event events ih => exact (ih (n + 1)).trans (hread n event state)

@[simp] theorem members_appendAll : (appendAll env n events state).members = state.members :=
  appendAll_reads n events TeamState.members fun _ _ _ => rfl

@[simp] theorem tasks_appendAll : (appendAll env n events state).tasks = state.tasks :=
  appendAll_reads n events TeamState.tasks fun _ _ _ => rfl

@[simp] theorem status_appendAll : (appendAll env n events state).status = state.status :=
  appendAll_reads n events TeamState.status fun _ _ _ => rfl

@[simp] theorem control_appendAll : (appendAll env n events state).control = state.control :=
  appendAll_reads n events TeamState.control fun _ _ _ => rfl

end

theorem events_append (env : TeamEnv) (state : TeamState) (n : Nat) (event : NewEvent) :
    state.events <+: (append env n event state).events := prefix_append ..

theorem events_appendAll (env : TeamEnv) (state : TeamState) (n : Nat) (events : List NewEvent) :
    state.events <+: (appendAll env n events state).events := by
  induction events generalizing n state with
  | nil => exact prefix_rfl
  | cons event events ih =>
    exact (events_append env state n event).trans (ih (append env n event state) (n + 1))

end Members

section Tasks

def CompletedKept (tasks tasks' : List TeamTask) : Prop :=
  ∀ task ∈ tasks, task.status = .completed → task ∈ tasks'

variable {state state' : TeamState} {env : TeamEnv}

theorem CompletedKept.refl (tasks : List TeamTask) : CompletedKept tasks tasks := fun _ h _ => h

theorem CompletedKept.map {tasks : List TeamTask} {f : TeamTask → TeamTask}
    (hf : ∀ task ∈ tasks, task.status = .completed → f task = task) :
    CompletedKept tasks (tasks.map f) :=
  fun task hmem hdone => mem_map.2 ⟨task, hmem, hf task hmem hdone⟩

section Released
variable (env : TeamEnv) (state : TeamState) (sender content : String) (released : TeamTask → Bool)

theorem members_releaseTasks :
    (releaseTasks env sender content released state).members = state.members :=
  members_appendAll 1 _

theorem status_releaseTasks :
    (releaseTasks env sender content released state).status = state.status :=
  status_appendAll 1 _

theorem control_releaseTasks :
    (releaseTasks env sender content released state).control = state.control :=
  control_appendAll 1 _

theorem events_releaseTasks :
    state.events <+: (releaseTasks env sender content released state).events := by
  unfold releaseTasks
  exact events_appendAll env
    { state with
      tasks := state.tasks.map fun task => if released task then releaseTask task else task } 1 _

end Released

theorem completed_releaseTasks (state : TeamState) (sender content : String)
    {released : TeamTask → Bool} (hreleased : ∀ task, released task = true → task.status = .claimed) :
    CompletedKept state.tasks (releaseTasks env sender content released state).tasks := by
  have htasks : (releaseTasks env sender content released state).tasks = state.tasks.map fun task =>
      if released task then releaseTask task else task := tasks_appendAll 1 _
  rw [htasks]
  refine .map fun task _ hdone => if_neg fun hgone => ?_
  rw [hreleased task hgone] at hdone
  exact nomatch hdone

theorem TaskChange.completed {memberId : String} (hchange : TaskChange memberId state state')
    (htasks : (state.tasks.map TeamTask.id).Nodup) : CompletedKept state.tasks state'.tasks := by
  cases hchange with
  | none => exact .refl _
  | offer task _ => exact fun _ hmem _ => mem_append_left _ hmem
  | change task change hmem hopen hid hclaim =>
    refine .map fun other hother hdone => if_neg fun hsame => hopen ?_
    rw [← inj_on_of_nodup_map htasks hother hmem hsame]
    exact hdone

theorem TaskChange.rest {memberId : String} (hchange : TaskChange memberId state state') :
    state' = { state with tasks := state'.tasks } := by
  cases hchange <;> rfl

end Tasks

section Control
variable {memberId : String}

inductive ControlChange (self : RuntimeRef) (env : TeamEnv) (u : TeamUpdate)
    (state state' : TeamState) : Prop where
  | kept (hcontrol : state'.control = state.control)
  | begun (actor : Actor) (resume : Bool) (hu : u = .beginControl actor resume)
      (hidle : state.control.any (controlIsLive self env) = false)
      (hcontrol : state'.control = some
        { id := env.uuid 0, ownerPid := self.pid, ownerId := self.ownerId })
      (hstatus : state'.status = .paused)
  | ended (token : String) (hu : u = .endControl token)
      (hcontrol : state'.control = state.control.filter fun control => control.id ≠ token)

structure UpdateChange (runtime : RuntimeRef) (env : TeamEnv) (u : TeamUpdate)
    (state state' : TeamState) : Prop where
  members : MembersChange u state state'
  events : state.events <+: state'.events
  completed : CompletedKept state.tasks state'.tasks
  resumed : state'.status = .active → state.status = .active ∨
    ∃ actor continuing, u = .finishResume actor continuing
  control : ControlChange runtime env u state state'

variable {self : RuntimeRef} {platformId : String} {env : TeamEnv} {state state' : TeamState}

theorem UpdateChange.refl (u : TeamUpdate) : UpdateChange self env u state state :=
  ⟨.of_eq rfl, prefix_rfl, .refl _, .inl, .kept rfl⟩

theorem UpdateChange.of_members {u : TeamUpdate} (hmembers : MembersChange u state state')
    (hevents : state.events <+: state'.events) (htasks : state'.tasks = state.tasks)
    (hstatus : state'.status = .active → state.status = .active)
    (hcontrol : state'.control = state.control) : UpdateChange self env u state state' :=
  ⟨hmembers, hevents, htasks ▸ .refl _, fun hactive => .inl (hstatus hactive), .kept hcontrol⟩

theorem removeMember_change (hremove : removeMember env memberId state = .ok state') :
    UpdateChange self env (.removeMember memberId) state state' := by
  obtain rfl | ⟨_, _, _, event, content, rfl⟩ := removeMember_ok hremove
  · exact .refl _
  refine ⟨.one memberId
    (f := fun member => { member with status := .removed, delivery := none })
    (members_releaseTasks ..) fun _ _ _ => .cleared rfl rfl rfl, ?_, ?_, fun hactive => .inl ?_,
    .kept (control_releaseTasks ..)⟩
  · exact (events_releaseTasks env (state.withMember memberId _) memberId content _).trans
      (events_append env _ 0 event)
  · refine completed_releaseTasks (state.withMember memberId _) memberId content
      fun task hreleased => ?_
    have hboth : task.owner = some memberId ∧ task.status = .claimed := of_decide_eq_true hreleased
    exact hboth.2
  · exact (status_releaseTasks env (state.withMember memberId _) memberId content _).symm.trans hactive

theorem closeTeam_change {actor : Actor} (hclose : closeTeam env actor state = .ok state') :
    UpdateChange self env (.closeTeam actor) state state' := by
  obtain rfl | ⟨event, rfl⟩ := closeTeam_ok hclose
  · exact .refl _
  · exact .of_members (.map rfl fun _ _ => .cleared rfl rfl rfl) (events_append env _ 0 event) rfl
      (nofun) rfl

theorem failMember_change {reason : String} {clearDelivery : Bool}
    {released : Option (String × String)}
    (hfail : failMember env memberId reason clearDelivery state = .ok (released, state')) :
    UpdateChange self env (.fail memberId reason clearDelivery) state state' := by
  obtain ⟨-, rfl⟩ | ⟨_, _, _, _, event, ⟨_, _, _, rfl⟩ | ⟨_, rfl⟩⟩ := failMember_ok hfail
  · exact .refl _
  · refine .of_members (.map (f := fun member => if member.id = memberId then
        { member with error := some reason, delivery := none } else member) ?_ fun member _ => ?_)
      (events_append env _ 0 event) rfl (nofun) rfl
    · show (state.members.map _).map _ = _
      rw [map_map]
      refine map_congr_left fun member _ => ?_
      by_cases hid : member.id = memberId <;> simp [hid]
    · split
      · exact .cleared rfl rfl rfl
      · exact .refl member
  · exact .of_members (.one memberId
      (f := fun member => { member with error := some reason }) rfl fun _ _ _ => .kept rfl rfl rfl)
      (events_append env _ 0 event) rfl (nofun) rfl

section

variable (hids : (state.members.map TeamMember.id).Nodup)
include hids

theorem completeTurn_change {lastId : String} {deliveryId : Option String} {member : TeamMember}
    (hmem : member ∈ state.members)
    (hid : member.id = memberId) (hdelivery : member.delivery.map TeamDelivery.id = deliveryId) :
    UpdateChange self env (.recordTurn memberId deliveryId lastId none) state
      (completeTurn env memberId lastId member state) := by
  have hchange : ∀ m ∈ state.members, m.id = memberId →
      MemberChange (.recordTurn memberId deliveryId lastId none) state.status m
        { m with
          lastTurnId := some lastId
          cursor := m.delivery.elim m.cursor TeamDelivery.throughSeq
          delivery := none
          error := none } := by
    intro m hm hmid
    obtain rfl := eq_of_member_id hids hm hmem (hmid.trans hid.symm)
    cases hheld : m.delivery with
    | none => exact .cleared rfl rfl rfl
    | some delivery =>
      rw [hheld] at hdelivery
      rw [← hdelivery, ← hid]
      exact .completed delivery lastId rfl hheld rfl rfl rfl
  unfold completeTurn
  dsimp only
  split
  · exact .of_members (.one memberId rfl hchange)
      ((events_append env _ 0 _).trans (events_append env _ 1 _)) rfl id rfl
  · exact .of_members (.one memberId rfl hchange) (events_append env _ 0 _) rfl id rfl

omit hids in
theorem failTurn_change {lastId reason : String} {deliveryId : Option String}
    {member : TeamMember} :
    UpdateChange self env (.recordTurn memberId deliveryId lastId (some reason)) state
      (failTurn env memberId lastId reason member state) := by
  unfold failTurn
  dsimp only
  split
  · exact .of_members (.one memberId rfl fun _ _ _ => .cleared rfl rfl rfl)
      (events_append env _ 0 _) rfl (nofun) rfl
  · exact .of_members (.one memberId rfl fun _ _ _ => .cleared rfl rfl rfl)
      (events_append env _ 0 _) rfl (nofun) rfl

theorem reserve_change {cursor : Nat} {pending : List TeamEvent} {deliveryId : String}
    {baseline : List String} {reserved : Bool}
    (hreserve : reserve self env memberId cursor pending deliveryId baseline state =
      .ok (reserved, state')) :
    UpdateChange self env (.reserve memberId cursor pending deliveryId baseline) state state' := by
  obtain ⟨-, rfl | ⟨error, rfl⟩⟩ |
    ⟨-, member, hmem, hid, _, hfree, hcursor, hactive, _, _, rfl⟩ := reserve_ok hreserve
  · exact .refl _
  · exact .of_members (.one memberId
      (f := fun member => { member with error := some error }) rfl fun _ _ _ => .kept rfl rfl rfl)
      prefix_rfl rfl (nofun) rfl
  · refine .of_members (.one memberId
      (f := fun member => { member with
        delivery := some (reservedDelivery self env pending deliveryId baseline) }) rfl
      fun m hm hmid => ?_) prefix_rfl rfl id rfl
    obtain rfl := eq_of_member_id hids hm hmem (hmid.trans hid.symm)
    rw [← hid, ← hcursor]
    exact .reserved pending deliveryId baseline rfl hfree hactive rfl rfl rfl

theorem mutate_change {u : TeamUpdate} {result : u.Result}
    (htasks : (state.tasks.map TeamTask.id).Nodup)
    (hmutate : mutate self platformId env u state = .ok (result, state')) :
    UpdateChange self env u state state' := by
  cases u with
  | beginControl actor resume =>
    obtain ⟨rfl, -, hidle, rfl⟩ := beginControl_ok hmutate
    exact ⟨.of_eq rfl, prefix_rfl, .refl _, nofun, .begun actor resume rfl hidle rfl rfl⟩
  | endControl token =>
    cases hmutate
    exact ⟨.of_eq rfl, prefix_rfl, .refl _, .inl, .ended token rfl rfl⟩
  | add actor roleId =>
    obtain ⟨-, -, rfl, event, rfl⟩ := addMember_ok hmutate
    refine .of_members ⟨state.members, _, rfl, forall₂_same.2 fun member _ => .refl member,
      fun member hnew => ?_⟩ (events_append env _ 1 event) rfl id rfl
    rw [mem_singleton.1 hnew]
    exact ⟨rfl, rfl⟩
  | send actor input =>
    obtain ⟨member, hmem, hactive, changed, event, hchange, rfl⟩ := sendEvent_ok hmutate
    have hrest := hchange.rest
    have hmembers : changed.members = state.members := by rw [hrest]
    have hevents : changed.events = state.events := by rw [hrest]
    have hstatus : changed.status = state.status := by rw [hrest]
    have hcontrol : changed.control = state.control := by rw [hrest]
    refine ⟨.of_eq hmembers, ?_, hchange.completed htasks, fun hactive => .inl ?_, .kept hcontrol⟩
    · exact hevents ▸ events_append env changed 1 event
    · exact hstatus.symm.trans hactive
  | removeMember memberId =>
    obtain ⟨_, hremove, hpair⟩ := map_eq_ok.1 hmutate
    cases hpair
    exact removeMember_change hremove
  | closeTeam actor =>
    obtain ⟨_, hclose, hpair⟩ := map_eq_ok.1 hmutate
    cases hpair
    exact closeTeam_change hclose
  | finishResume actor continuing =>
    obtain ⟨event, rfl⟩ := finishResume_ok hmutate
    exact ⟨.map rfl fun _ _ => .kept rfl rfl rfl, events_append env _ 0 event, .refl _,
      fun _ => .inr ⟨actor, continuing, rfl⟩, .kept rfl⟩
  | discardDelivery memberId deliveryId =>
    obtain ⟨-, rfl⟩ | ⟨_, _, _, _, _, rfl⟩ := discardDelivery_ok hmutate
    · exact .refl _
    · exact .of_members (.dropped rfl) prefix_rfl rfl id rfl
  | fail memberId reason clearDelivery => exact failMember_change hmutate
  | expireLeases =>
    cases hmutate
    unfold expireLeases
    split
    · exact .refl _
    refine ⟨.of_eq (members_releaseTasks ..), events_releaseTasks ..,
      completed_releaseTasks state _ _ fun task hreleased => ?_, fun hactive => .inl ?_,
      .kept (control_releaseTasks ..)⟩
    · have hall : task.status = .claimed ∧ _ := of_decide_eq_true hreleased
      exact hall.1
    · exact (status_releaseTasks ..).symm.trans hactive
  | recordTurn memberId deliveryId lastId reason =>
    obtain ⟨_, hrecord, hpair⟩ := map_eq_ok.1 hmutate
    cases hpair
    obtain rfl | ⟨member, hmem, hid, _, hdelivery, ⟨rfl, rfl⟩ | ⟨why, rfl, rfl⟩⟩ :=
      recordTurn_ok hrecord
    · exact .refl _
    · exact completeTurn_change hids hmem hid hdelivery
    · exact failTurn_change
  | reserve memberId cursor pending deliveryId baseline => exact reserve_change hids hmutate
  | bindSession memberId deliveryId sessionId =>
    obtain ⟨_, hbind, hpair⟩ := map_eq_ok.1 hmutate
    cases hpair
    obtain rfl | ⟨_, _, _, _, rfl⟩ := bindSession_ok hbind
    · exact .refl _
    · exact .of_members (.one memberId rfl fun _ _ _ => .kept rfl rfl rfl) prefix_rfl rfl id rfl
  | withdraw memberId deliveryId =>
    obtain ⟨_, hwithdraw, hpair⟩ := map_eq_ok.1 hmutate
    cases hpair
    obtain rfl | ⟨_, _, _, _, rfl⟩ := withdraw_ok hwithdraw
    · exact .refl _
    · exact .of_members (.dropped rfl) prefix_rfl rfl id rfl
  | confirmPrompt memberId deliveryId promptId =>
    obtain ⟨_, hconfirm, hpair⟩ := map_eq_ok.1 hmutate
    cases hpair
    obtain rfl | rfl := confirmPrompt_ok hconfirm
    · exact .refl _
    · refine .of_members (.one memberId rfl fun member _ _ => .kept rfl rfl ?_) prefix_rfl rfl id rfl
      unfold TeamMember.holding
      cases member.delivery <;> rfl

end

end Control
end Rolebox.Team
