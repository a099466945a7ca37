import Rolebox.Team.UpdateSpecs

/-! The law of a team's document, which every update keeps. -/

namespace Rolebox.Team
open General List

def OwnersActive (members : List TeamMember) (tasks : List TeamTask) : Prop :=
  ∀ task ∈ tasks, task.status = .claimed → ∀ member ∈ members, task.owner = some member.id →
    member.status = .active

structure TeamLaw (state : TeamState) : Prop where
  positive : 1 ≤ state.nextSeq
  numbered : state.events.map TeamEvent.seq = range' 1 (state.nextSeq - 1)
  holders : state.holders.length ≤ 2
  turns : state.turns ≤ state.maxTurns
  owners : OwnersActive state.members state.tasks
  count : state.activeMembers.length ≤ MAX_MEMBERS
  roles : (state.activeMembers.map TeamMember.roleId).Nodup

section Parts
variable {state : TeamState} {env : TeamEnv}
variable {f : TeamMember → TeamMember}

theorem OwnersActive.sub {members : List TeamMember} {tasks tasks' : List TeamTask}
    (h : OwnersActive members tasks) (hsub : ∀ task ∈ tasks', task.status = .claimed → task ∈ tasks) :
    OwnersActive members tasks' :=
  fun task htask hclaimed => h task (hsub task htask hclaimed) hclaimed

namespace TeamLaw

section

variable (h : TeamLaw state)
include h

theorem append (n : Nat) (event : NewEvent) : TeamLaw (Team.append env n event state) := by
  refine ⟨Nat.le_succ_of_le h.positive, ?_, h.holders, h.turns, h.owners, h.count, h.roles⟩
  show (state.events ++ [env.record n state.nextSeq event]).map TeamEvent.seq =
    range' 1 (state.nextSeq + 1 - 1)
  have hsplit : state.nextSeq + 1 - 1 = (state.nextSeq - 1) + 1 := by
    have hpositive := h.positive
    omega
  have hlast : 1 + (state.nextSeq - 1) = state.nextSeq := by
    have hpositive := h.positive
    omega
  rw [map_append, h.numbered, hsplit, range'_1_concat, hlast]
  rfl

theorem appendAll (n : Nat) (events : List NewEvent) :
    TeamLaw (Team.appendAll env n events state) := by
  induction events generalizing n state with
  | nil => exact h
  | cons event events ih => exact ih (h.append n event) (n + 1)

theorem withStatus (status : TeamStatus) : TeamLaw { state with status := status } :=
  ⟨h.positive, h.numbered, h.holders, h.turns, h.owners, h.count, h.roles⟩

theorem withControl (control : Option TeamControl) : TeamLaw { state with control := control } :=
  ⟨h.positive, h.numbered, h.holders, h.turns, h.owners, h.count, h.roles⟩

theorem withTasks {tasks : List TeamTask}
    (howners : OwnersActive state.members tasks) : TeamLaw { state with tasks := tasks } :=
  ⟨h.positive, h.numbered, h.holders, h.turns, howners, h.count, h.roles⟩

theorem refund : TeamLaw state.refund :=
  ⟨h.positive, h.numbered, h.holders, (Nat.sub_le ..).trans h.turns, h.owners, h.count, h.roles⟩

end

end TeamLaw

/-- A change of members that gives none of them a delivery, a role or its membership back. -/
structure Lowers (f : TeamMember → TeamMember) : Prop where
  id : ∀ member, (f member).id = member.id
  role : ∀ member, (f member).roleId = member.roleId
  active : ∀ member, (f member).isActive = true → member.isActive = true
  delivery : ∀ member, (f member).delivery.isSome = true → member.delivery.isSome = true

theorem Lowers.one (h : Lowers f) (memberId : String) :
    Lowers fun member => if member.id = memberId then f member else member := by
  constructor
  · intro member
    split
    · exact h.id member
    · rfl
  · intro member
    split
    · exact h.role member
    · rfl
  · intro member
    split
    · exact h.active member
    · exact fun h => h
  · intro member
    split
    · exact h.delivery member
    · exact fun h => h

theorem Lowers.activeRoles (h : Lowers f) (members : List TeamMember) :
    (((members.map f).filter TeamMember.isActive).map TeamMember.roleId).Sublist
      ((members.filter TeamMember.isActive).map TeamMember.roleId) := by
  have hroles : ∀ l : List TeamMember, (l.map f).map TeamMember.roleId =
      l.map TeamMember.roleId := fun l => by
    rw [map_map]
    exact map_congr_left fun member _ => h.role member
  rw [filter_map, hroles]
  exact (monotone_filter_right members h.active).map _

theorem Lowers.holders (h : Lowers f) (members : List TeamMember) :
    ((members.map f).filter fun member => member.delivery.isSome).length ≤
      (members.filter fun member => member.delivery.isSome).length := by
  rw [filter_map, length_map]
  exact (monotone_filter_right members h.delivery).length_le

section

variable (h : TeamLaw state)
include h

theorem TeamLaw.lower (hf : Lowers f) {tasks : List TeamTask}
    (howners : OwnersActive (state.members.map f) tasks) :
    TeamLaw { state with members := state.members.map f, tasks := tasks } := by
  have hsub := hf.activeRoles state.members
  refine ⟨h.positive, h.numbered, (hf.holders state.members).trans h.holders, h.turns, howners,
    ?_, h.roles.sublist hsub⟩
  have hlength := hsub.length_le
  rw [length_map, length_map] at hlength
  exact hlength.trans h.count

theorem TeamLaw.mapMembers (hf : Lowers f) (hstatus : ∀ member, (f member).status = member.status) :
    TeamLaw { state with members := state.members.map f } := by
  refine h.lower hf fun task htask hclaimed member hmember howner => ?_
  obtain ⟨before, hbefore, rfl⟩ := mem_map.1 hmember
  rw [hf.id] at howner
  rw [hstatus]
  exact h.owners task htask hclaimed before hbefore howner

theorem TeamLaw.withMember (memberId : String) (hf : Lowers f)
    (hstatus : ∀ member, (f member).status = member.status) :
    TeamLaw (state.withMember memberId f) := by
  refine h.mapMembers (hf.one memberId) fun member => ?_
  split
  · exact hstatus member
  · rfl

theorem TeamLaw.dropDelivery (memberId : String) : TeamLaw (Team.dropDelivery memberId state) :=
  h.withMember memberId ⟨fun _ => rfl, fun _ => rfl, fun _ => id, nofun⟩ fun _ => rfl

theorem TeamLaw.releaseTasks (sender content : String)
    (released : TeamTask → Bool) : TeamLaw (Team.releaseTasks env sender content released state) := by
  refine (h.withTasks fun task htask hclaimed => ?_).appendAll 1 _
  obtain ⟨before, hbefore, rfl⟩ := mem_map.1 htask
  split at hclaimed
  · exact nomatch hclaimed
  · next hkept =>
    rw [if_neg hkept]
    exact h.owners before hbefore hclaimed

theorem TeamLaw.remove (memberId content : String) :
    TeamLaw (Team.releaseTasks env memberId content
      (fun task => task.owner = some memberId ∧ task.status = .claimed)
      (state.withMember memberId fun member =>
        { member with status := .removed, delivery := none })) := by
  have hlowers : Lowers fun member : TeamMember =>
      { member with status := .removed, delivery := none } :=
    ⟨fun _ => rfl, fun _ => rfl, nofun, nofun⟩
  refine (h.lower (hlowers.one memberId) ?_).appendAll 1 _
  intro task htask hclaimed member hmember howner
  obtain ⟨before, hbefore, rfl⟩ := mem_map.1 htask
  obtain ⟨previous, hprevious, rfl⟩ := mem_map.1 hmember
  split at hclaimed
  · exact nomatch hclaimed
  next hkept =>
  rw [if_neg hkept] at howner
  rw [(hlowers.one memberId).id] at howner
  have hother : previous.id ≠ memberId := by
    rintro rfl
    exact hkept (by simp [howner, hclaimed])
  rw [if_neg hother]
  exact h.owners before hbefore hclaimed previous hprevious howner

end

theorem TaskChange.law {memberId : String} {state' : TeamState}
    (hchange : TaskChange memberId state state') (h : TeamLaw state)
    (hids : (state.members.map TeamMember.id).Nodup)
    (hactive : ∃ member ∈ state.members, member.id = memberId ∧ member.status = .active) :
    TeamLaw state' := by
  cases hchange with
  | none => exact h
  | offer task hstatus =>
    refine h.withTasks (h.owners.sub fun other hother hclaimed => ?_)
    rcases mem_append.1 hother with hold | hnew
    · exact hold
    · rw [mem_singleton.1 hnew, hstatus] at hclaimed
      exact nomatch hclaimed
  | change task change hmem hopen hid hclaim =>
    refine h.withTasks fun other hother hclaimed member hmember howner => ?_
    obtain ⟨before, hbefore, rfl⟩ := mem_map.1 hother
    split at hclaimed
    · next hsame =>
      rw [if_pos hsame, hclaim before hclaimed] at howner
      obtain ⟨sender, hsender, hsenderId, hstatus⟩ := hactive
      have heq : sender = member := eq_of_member_id hids hsender hmember
        (hsenderId.trans (Option.some.inj howner))
      rw [← heq]
      exact hstatus
    · next hsame =>
      rw [if_neg hsame] at howner
      exact h.owners before hbefore hclaimed member hmember howner

theorem holders_reserve_le {members : List TeamMember} (hids : (members.map TeamMember.id).Nodup)
    (memberId : String) (f : TeamMember → TeamMember) :
    ((members.map fun member => if member.id = memberId then f member else member).filter
        fun member => member.delivery.isSome).length ≤
      (members.filter fun member => member.delivery.isSome).length + 1 := by
  induction members with
  | nil => exact Nat.zero_le _
  | cons member members ih =>
    rw [map_cons, nodup_cons] at hids
    by_cases hid : member.id = memberId
    · have hrest : members.map (fun member => if member.id = memberId then f member else member) =
          members := by
        refine (map_congr_left fun other hother => ?_).trans (map_id members)
        refine if_neg fun hsame => hids.1 ?_
        rw [hid, ← hsame]
        exact mem_map_of_mem hother
      rw [map_cons, hrest, if_pos hid]
      have hupper : ∀ m : TeamMember, ((m :: members).filter fun member =>
          member.delivery.isSome).length ≤
            (members.filter fun member => member.delivery.isSome).length + 1 := by
        intro m
        rw [filter_cons]
        split
        · exact Nat.le_refl _
        · exact Nat.le_succ _
      have hlower : (members.filter fun member => member.delivery.isSome).length ≤
          ((member :: members).filter fun member => member.delivery.isSome).length := by
        rw [filter_cons]
        split
        · exact Nat.le_succ _
        · exact Nat.le_refl _
      exact (hupper _).trans (Nat.succ_le_succ hlower)
    · have hle := ih hids.2
      rw [map_cons, if_neg hid, filter_cons, filter_cons]
      split
      · simp only [length_cons]
        omega
      · exact hle

theorem TeamLaw.reserve (h : TeamLaw state) (hids : (state.members.map TeamMember.id).Nodup)
    (memberId : String) (delivery : TeamDelivery) (hroom : state.holders.length < 2)
    (hturns : state.turns < state.maxTurns) :
    TeamLaw { state.withMember memberId fun member => { member with delivery := some delivery } with
      turns := state.turns + 1 } := by
  have hheld := holders_reserve_le hids memberId fun member =>
    { member with delivery := some delivery }
  have hactive : (state.withMember memberId fun member =>
      { member with delivery := some delivery }).activeMembers.map TeamMember.roleId =
      state.activeMembers.map TeamMember.roleId := by
    unfold TeamState.activeMembers TeamState.withMember
    rw [filter_map, map_map]
    have hsame : (TeamMember.isActive ∘ fun member : TeamMember =>
        if member.id = memberId then { member with delivery := some delivery } else member) =
        TeamMember.isActive := by
      funext member
      show (if member.id = memberId then _ else member : TeamMember).isActive = member.isActive
      split <;> rfl
    rw [hsame]
    refine map_congr_left fun member _ => ?_
    show (if member.id = memberId then _ else member : TeamMember).roleId = member.roleId
    split <;> rfl
  refine ⟨h.positive, h.numbered, hheld.trans (by unfold TeamState.holders at hroom; omega),
    hturns, ?_, ?_, hactive ▸ h.roles⟩
  · intro task htask hclaimed member hmember howner
    obtain ⟨before, hbefore, rfl⟩ := mem_map.1 hmember
    by_cases hid : before.id = memberId
    · rw [if_pos hid] at howner ⊢
      exact h.owners task htask hclaimed before hbefore howner
    · rw [if_neg hid] at howner ⊢
      exact h.owners task htask hclaimed before hbefore howner
  · have hlength := congrArg length hactive
    rw [length_map, length_map] at hlength
    exact hlength ▸ h.count

theorem TeamLaw.add (h : TeamLaw state) {member : TeamMember} (hactive : member.status = .active)
    (hdelivery : member.delivery = none)
    (hrole : ∀ other ∈ state.members, other.status = .active → other.roleId ≠ member.roleId)
    (hroom : state.activeMembers.length < MAX_MEMBERS) :
    TeamLaw { state with members := state.members ++ [member] } := by
  have hactives : ({ state with members := state.members ++ [member] } : TeamState).activeMembers =
      state.activeMembers ++ [member] := by
    unfold TeamState.activeMembers
    rw [filter_append]
    simp [TeamMember.isActive, hactive]
  refine ⟨h.positive, h.numbered, ?_, h.turns, ?_, ?_, ?_⟩
  · unfold TeamState.holders
    rw [filter_append]
    have hheld := h.holders
    unfold TeamState.holders at hheld
    simpa [hdelivery] using hheld
  · intro task htask hclaimed owner howner hsame
    rcases mem_append.1 howner with hold | hnew
    · exact h.owners task htask hclaimed owner hold hsame
    · rw [mem_singleton.1 hnew]
      exact hactive
  · rw [hactives, length_append]
    exact hroom
  · rw [hactives, map_append, nodup_append]
    refine ⟨h.roles, nodup_singleton _, fun role hold other hnew => ?_⟩
    obtain ⟨before, hbefore, rfl⟩ := mem_map.1 hold
    rw [map_singleton, mem_singleton] at hnew
    have hmem := mem_filter.1 hbefore
    rw [hnew]
    exact hrole before hmem.1 (by simpa [TeamMember.isActive] using hmem.2)

end Parts

section Law
variable {self : RuntimeRef} {platformId : String} {env : TeamEnv} {state state' : TeamState}

theorem newTeam_law {actor : Actor} {name goal : String} {maxTurns : Nat} :
    TeamLaw (newTeam platformId env actor name goal maxTurns) := by
  refine TeamLaw.append ?_ 2 _
  have hone : 1 ≤ MAX_MEMBERS := by decide
  exact ⟨Nat.le_refl 1, rfl, Nat.zero_le _, Nat.zero_le _, nofun, hone, nodup_singleton _⟩

section

variable (h : TeamLaw state)
include h

theorem failMember_law {memberId reason : String} {clearDelivery : Bool}
    {released : Option (String × String)}
    (hfail : failMember env memberId reason clearDelivery state = .ok (released, state')) :
    TeamLaw state' := by
  have hnamed : TeamLaw (state.withMember memberId fun member =>
      { member with error := some reason }) :=
    h.withMember memberId ⟨fun _ => rfl, fun _ => rfl, fun _ => id, fun _ => id⟩ fun _ => rfl
  obtain ⟨-, rfl⟩ | ⟨_, _, _, _, event, ⟨_, _, _, rfl⟩ | ⟨_, rfl⟩⟩ := failMember_ok hfail
  · exact h
  · exact ((hnamed.dropDelivery memberId).refund.withStatus .paused).append 0 event
  · exact (hnamed.withStatus .paused).append 0 event

theorem completeTurn_law (memberId lastId : String) (current : TeamMember) :
    TeamLaw (completeTurn env memberId lastId current state) := by
  unfold completeTurn
  have hrecorded : TeamLaw (state.withMember memberId fun member =>
      { member with
        lastTurnId := some lastId
        cursor := member.delivery.elim member.cursor TeamDelivery.throughSeq
        delivery := none
        error := none }) :=
    h.withMember memberId ⟨fun _ => rfl, fun _ => rfl, fun _ => id, nofun⟩
      fun _ => rfl
  dsimp only
  split
  · exact (hrecorded.append 0 _).append 1 _
  · exact hrecorded.append 0 _

theorem failTurn_law (memberId lastId reason : String) (current : TeamMember) :
    TeamLaw (failTurn env memberId lastId reason current state) := by
  unfold failTurn
  have hrefunded : TeamLaw (if current.delivery.isSome then state.refund else state) := by
    split
    · exact h.refund
    · exact h
  have hrecorded := hrefunded.withMember memberId
    (f := fun member =>
      { member with lastTurnId := some lastId, delivery := none, error := some reason })
    ⟨fun _ => rfl, fun _ => rfl, fun _ => id, nofun⟩ fun _ => rfl
  exact (hrecorded.withStatus .paused).append 0 _

theorem mutate_law {u : TeamUpdate} {result : u.Result}
    (hids : (state.members.map TeamMember.id).Nodup)
    (hmutate : mutate self platformId env u state = .ok (result, state')) : TeamLaw state' := by
  have hsilent : ∀ (memberId : String) (f : TeamMember → TeamMember), Lowers f →
      (∀ member, (f member).status = member.status) → TeamLaw (state.withMember memberId f) :=
    fun memberId _ hf hstatus => h.withMember memberId hf hstatus
  cases u with
  | beginControl actor resume =>
    obtain ⟨-, -, -, rfl⟩ := beginControl_ok hmutate
    exact (h.withStatus .paused).withControl _
  | endControl token =>
    cases hmutate
    exact h.withControl _
  | add actor roleId =>
    obtain ⟨hrole, hroom, rfl, event, rfl⟩ := addMember_ok hmutate
    exact (h.add rfl rfl hrole hroom).append 1 event
  | send actor input =>
    obtain ⟨member, hmem, hactive, changed, event, hchange, rfl⟩ := sendEvent_ok hmutate
    exact (hchange.law h hids ⟨member, hmem, rfl, hactive⟩).append 1 event
  | removeMember memberId =>
    obtain ⟨_, hremove, hpair⟩ := map_eq_ok.1 hmutate
    cases hpair
    obtain rfl | ⟨_, _, _, event, content, rfl⟩ := removeMember_ok hremove
    · exact h
    · exact (h.remove memberId content).append 0 event
  | closeTeam actor =>
    obtain ⟨_, hclose, hpair⟩ := map_eq_ok.1 hmutate
    cases hpair
    obtain rfl | ⟨event, rfl⟩ := closeTeam_ok hclose
    · exact h
    have happended : TeamLaw (append env 0 event state) := h.append 0 event
    have hclosed := happended.mapMembers
      (f := fun member => { member with delivery := none })
      ⟨fun _ => rfl, fun _ => rfl, fun _ => id, nofun⟩ fun _ => rfl
    exact hclosed.withStatus .deleted
  | finishResume actor continuing =>
    obtain ⟨event, rfl⟩ := finishResume_ok hmutate
    have hcleared := h.mapMembers (f := fun member => { member with error := none })
      ⟨fun _ => rfl, fun _ => rfl, fun _ => id, fun _ => id⟩ fun _ => rfl
    exact (hcleared.withStatus .active).append 0 event
  | discardDelivery memberId deliveryId =>
    obtain ⟨-, rfl⟩ | ⟨_, _, _, _, _, rfl⟩ := discardDelivery_ok hmutate
    · exact h
    · exact (h.dropDelivery memberId).refund
  | fail memberId reason clearDelivery => exact failMember_law h hmutate
  | expireLeases =>
    cases hmutate
    unfold expireLeases
    split
    · exact h
    · exact h.releaseTasks _ _ _
  | recordTurn memberId deliveryId lastId reason =>
    obtain ⟨_, hrecord, hpair⟩ := map_eq_ok.1 hmutate
    cases hpair
    obtain rfl | ⟨member, _, _, _, _, ⟨_, rfl⟩ | ⟨why, _, rfl⟩⟩ := recordTurn_ok hrecord
    · exact h
    · exact completeTurn_law h memberId lastId member
    · exact failTurn_law h memberId lastId why member
  | reserve memberId cursor pending deliveryId baseline =>
    obtain ⟨-, rfl | ⟨error, rfl⟩⟩ | ⟨-, member, _, _, _, _, _, _, hroom, hturns, rfl⟩ :=
      reserve_ok hmutate
    · exact h
    · exact (hsilent memberId (fun member => { member with error := some error })
        ⟨fun _ => rfl, fun _ => rfl, fun _ => id, fun _ => id⟩ fun _ => rfl).withStatus .paused
    · exact h.reserve hids memberId _ hroom hturns
  | bindSession memberId deliveryId sessionId =>
    obtain ⟨_, hbind, hpair⟩ := map_eq_ok.1 hmutate
    cases hpair
    obtain rfl | ⟨_, _, _, _, rfl⟩ := bindSession_ok hbind
    · exact h
    · exact hsilent memberId _ ⟨fun _ => rfl, fun _ => rfl, fun _ => id, fun _ => id⟩ fun _ => rfl
  | withdraw memberId deliveryId =>
    obtain ⟨_, hwithdraw, hpair⟩ := map_eq_ok.1 hmutate
    cases hpair
    obtain rfl | ⟨_, _, _, _, rfl⟩ := withdraw_ok hwithdraw
    · exact h
    · exact (h.dropDelivery memberId).refund
  | confirmPrompt memberId deliveryId promptId =>
    obtain ⟨_, hconfirm, hpair⟩ := map_eq_ok.1 hmutate
    cases hpair
    obtain rfl | rfl := confirmPrompt_ok hconfirm
    · exact h
    · refine hsilent memberId _ ⟨fun _ => rfl, fun _ => rfl, fun _ => id, fun member hsome => ?_⟩
        fun _ => rfl
      simpa using hsome

end

end Law
end Rolebox.Team
