import Rolebox.Team.Updates

/-! What each update of a team's document has made of it where it did not throw. -/

namespace Rolebox.Team
open General List

variable {self : RuntimeRef} {platformId : String} {env : TeamEnv} {state state' : TeamState}

section Lookups
variable {member : TeamMember}

theorem findMember_ok {memberId : String} (h : findMember state memberId = .ok member) :
    member ∈ state.members ∧ member.id = memberId := by
  unfold findMember at h
  split at h
  · next found hfound =>
    cases h
    exact ⟨mem_of_find?_eq_some hfound, by simpa using find?_some hfound⟩
  · cases h

theorem findMember_bind {α : Type} {memberId : String} {f : TeamMember → Except String α} {a : α}
    (h : findMember state memberId >>= f = .ok a) :
    ∃ member ∈ state.members, member.id = memberId ∧ f member = .ok a := by
  obtain ⟨member, hmember, h⟩ := bind_eq_ok.1 h
  obtain ⟨hmem, hid⟩ := findMember_ok hmember
  exact ⟨member, hmem, hid, h⟩

theorem memberOf_ok {actor : Actor} (h : memberOf state actor = .ok member) :
    member ∈ state.members ∧ member.status = .active ∧ member.sessionId = some actor.sessionID ∧
      member.roleId = actor.agent := by
  unfold memberOf at h
  split at h
  · next found hfound =>
    cases h
    have hplays := find?_some hfound
    simp only [TeamMember.plays, TeamMember.isActive, Bool.and_eq_true, decide_eq_true_eq] at hplays
    exact ⟨mem_of_find?_eq_some hfound, hplays.1.1, hplays.1.2, hplays.2⟩
  · cases h

theorem eq_of_member_id (hids : (state.members.map TeamMember.id).Nodup) {a b : TeamMember}
    (ha : a ∈ state.members) (hb : b ∈ state.members) (hid : a.id = b.id) : a = b :=
  inj_on_of_nodup_map hids ha hb hid

theorem holdsDelivery_iff {deliveryId : String} :
    holdsDelivery deliveryId member = true ↔
      ∃ delivery, member.delivery = some delivery ∧ delivery.id = deliveryId := by
  unfold holdsDelivery
  cases member.delivery <;> simp

end Lookups

section Specs
variable {actor : Actor} {memberId deliveryId : String}

theorem beginControl_ok {resume : Bool} {token : String}
    (h : beginControl self platformId env actor resume state = .ok (token, state')) :
    token = env.uuid 0 ∧ state.status ≠ .deleted ∧
      state.control.any (controlIsLive self env) = false ∧
      state' = { state with
        status := .paused
        control := some { id := token, ownerPid := self.pid, ownerId := self.ownerId } } := by
  unfold beginControl assertPlatform at h
  simp only [bind_eq_ok, refuseIf_ok, pure, Except.pure, Except.ok.injEq, Prod.mk.injEq] at h
  obtain ⟨_, _, _, _, _, hdeleted, _, _, _, hlive, rfl, rfl⟩ := h
  exact ⟨rfl, hdeleted, by simpa using hlive, rfl⟩

theorem addMember_ok {roleId : String} {member : TeamMember}
    (h : addMember platformId env actor roleId state = .ok (member, state')) :
    (∀ other ∈ state.members, other.status = .active → other.roleId ≠ roleId) ∧
      state.activeMembers.length < MAX_MEMBERS ∧
      member = { id := env.uuid 0, roleId := roleId, sessionId := none, status := .active
                 managed := true, cursor := 0, lastTurnId := none, delivery := none
                 error := none } ∧
      ∃ event, state' = append env 1 event { state with members := state.members ++ [member] } := by
  unfold addMember assertPlatform assertActive at h
  simp only [bind_eq_ok, refuseIf_ok, refuseProblem_ok, pure, Except.pure, Except.ok.injEq,
    Prod.mk.injEq] at h
  obtain ⟨_, _, _, _, _, _, _, _, _, _, _, hrole, _, hcount, rfl, rfl⟩ := h
  refine ⟨?_, by omega, rfl, _, rfl⟩
  intro other hother hactive hsame
  exact hrole ⟨other, hother, hsame, by simp [TeamMember.isActive, hactive]⟩

inductive TaskChange (memberId : String) (state : TeamState) : TeamState → Prop where
  | none : TaskChange memberId state state
  | offer (task : TeamTask) (hstatus : task.status = .offered) :
      TaskChange memberId state { state with tasks := state.tasks ++ [task] }
  | change (task : TeamTask) (change : TeamTask → TeamTask) (hmem : task ∈ state.tasks)
      (hopen : task.status ≠ .completed) (hid : ∀ other, (change other).id = other.id)
      (hclaim : ∀ other, (change other).status = .claimed →
        (change other).owner = some memberId) :
      TaskChange memberId state (state.withTask task.id change)

theorem applyTaskKind_ok {member : TeamMember} {input : SendTeamEvent} {taskId : Option String}
    (h : applyTaskKind env state member input = .ok (taskId, state')) :
    TaskChange member.id state state' := by
  unfold applyTaskKind at h
  split at h
  · cases h
    exact .none
  · dsimp only at h
    split at h
    · cases h
    · cases h
      exact .offer _ rfl
  · split at h
    · cases h
    next task hfound =>
    have hmem := mem_of_find?_eq_some hfound
    by_cases hopen : task.status = .completed
    · rw [if_pos hopen] at h
      cases h
    rw [if_neg hopen] at h
    split at h
    · split at h
      · cases h
      · cases h
        exact .change task _ hmem hopen (fun _ => rfl) fun _ _ => rfl
    · split at h
      · cases h
      split at h
      · cases h
      split at h
      · cases h
        exact .change task _ hmem hopen (fun _ => rfl) nofun
      · cases h
        exact .change task _ hmem hopen (fun _ => rfl) nofun

theorem sendEvent_ok {input : SendTeamEvent} {event : TeamEvent}
    (h : sendEvent platformId env actor input state = .ok (event, state')) :
    ∃ member ∈ state.members, member.status = .active ∧
      ∃ changed event, TaskChange member.id state changed ∧ state' = append env 1 event changed := by
  unfold sendEvent assertPlatform assertActive at h
  simp only [bind_eq_ok, refuseIf_ok, pure, Except.pure, Except.ok.injEq, Prod.mk.injEq] at h
  obtain ⟨_, _, _, _, member, hmember, _, _, recipient, _, ⟨taskId, changed⟩, htask, _, rfl⟩ := h
  obtain ⟨hmem, hactive, _⟩ := memberOf_ok hmember
  exact ⟨member, hmem, hactive, changed, _, applyTaskKind_ok htask, rfl⟩

theorem removeMember_ok (h : removeMember env memberId state = .ok state') :
    state' = state ∨ ∃ member ∈ state.members, member.id = memberId ∧ ∃ event content,
      state' = append env 0 event (releaseTasks env memberId content (fun task =>
        task.owner = some memberId ∧ task.status = .claimed)
        (state.withMember memberId fun member =>
          { member with status := .removed, delivery := none })) := by
  unfold removeMember at h
  split at h
  · cases h
    exact .inl rfl
  · simp only [bind_eq_ok, pure, Except.pure, Except.ok.injEq] at h
    obtain ⟨member, hmember, rfl⟩ := h
    obtain ⟨hmem, hid⟩ := findMember_ok hmember
    exact .inr ⟨member, hmem, hid, _, _, rfl⟩

theorem closeTeam_ok (h : closeTeam env actor state = .ok state') :
    state' = state ∨ ∃ event, state' = { append env 0 event state with
      status := .deleted
      members := state.members.map fun member => { member with delivery := none } } := by
  unfold closeTeam at h
  split at h
  · cases h
    exact .inl rfl
  · simp only [bind_eq_ok, pure, Except.pure, Except.ok.injEq] at h
    obtain ⟨member, _, rfl⟩ := h
    exact .inr ⟨_, rfl⟩

theorem finishResume_ok {continuing unresolved : List String}
    (h : finishResume platformId env actor continuing state = .ok (unresolved, state')) :
    ∃ event, state' = append env 0 event { state with
      status := .active
      members := state.members.map fun member => { member with error := none } } := by
  unfold finishResume assertPlatform at h
  simp only [bind_eq_ok, refuseIf_ok, refuseProblem_ok, pure, Except.pure, Except.ok.injEq,
    Prod.mk.injEq] at h
  obtain ⟨_, _, _, _, _, _, _, _, _, _, _, rfl⟩ := h
  exact ⟨_, rfl⟩

theorem discardDelivery_ok {discarded : Bool}
    (h : discardDelivery memberId deliveryId state = .ok (discarded, state')) :
    (discarded = false ∧ state' = state) ∨
      ∃ member ∈ state.members, member.id = memberId ∧ holdsDelivery deliveryId member = true ∧
        discarded = true ∧ state' = (dropDelivery memberId state).refund := by
  unfold discardDelivery at h
  obtain ⟨member, hmem, hid, h⟩ := findMember_bind h
  split at h
  · next hholds =>
    cases h
    exact .inr ⟨member, hmem, hid, hholds, rfl, rfl⟩
  · cases h
    exact .inl ⟨rfl, rfl⟩

theorem withdraw_ok (h : withdraw memberId deliveryId state = .ok state') :
    state' = state ∨ ∃ member ∈ state.members, member.id = memberId ∧
      holdsDelivery deliveryId member = true ∧ state' = (dropDelivery memberId state).refund := by
  unfold withdraw at h
  obtain ⟨member, hmem, hid, h⟩ := findMember_bind h
  split at h
  · next hholds =>
    simp only [bind_eq_ok, refuseIf_ok, pure, Except.pure, Except.ok.injEq] at h
    obtain ⟨_, _, rfl⟩ := h
    exact .inr ⟨member, hmem, hid, hholds, rfl⟩
  · cases h
    exact .inl rfl

theorem failMember_ok {reason : String} {clearDelivery : Bool} {released : Option (String × String)}
    (h : failMember env memberId reason clearDelivery state = .ok (released, state')) :
    (released = none ∧ state' = state) ∨
      ∃ member ∈ state.members, member.id = memberId ∧ member.status = .active ∧ ∃ event,
        let named := state.withMember memberId fun member => { member with error := some reason }
        ((member.delivery.isSome = true ∧ (clearDelivery = true ∨ member.boundSession = none) ∧
            released = member.boundSession.bind (fun sessionId =>
              member.delivery.map fun delivery => (sessionId, delivery.id)) ∧
            state' = append env 0 event
              { (dropDelivery memberId named).refund with status := .paused }) ∨
          (released = none ∧
            state' = append env 0 event { named with status := .paused })) := by
  unfold failMember at h
  obtain ⟨member, hmem, hid, h⟩ := findMember_bind h
  split at h
  · cases h
    exact .inl ⟨rfl, rfl⟩
  · next hgo =>
    simp only [not_or, not_not] at hgo
    cases h
    refine .inr ⟨member, hmem, hid, hgo.2.1, plainEvent .memberFailed memberId reason false, ?_⟩
    dsimp only
    by_cases hclear : clearDelivery = true ∨ member.boundSession = none
    · rw [if_pos hclear]
      cases hdelivery : member.delivery with
      | none =>
        refine .inr ⟨?_, rfl⟩
        cases member.boundSession <;> rfl
      | some delivery => exact .inl ⟨rfl, hclear, rfl, rfl⟩
    · rw [if_neg hclear]
      refine .inr ⟨?_, rfl⟩
      cases member.boundSession <;> rfl

theorem recordTurn_ok {lastId : String} {deliveryId reason : Option String}
    (h : recordTurn env memberId deliveryId lastId reason state = .ok state') :
    state' = state ∨ ∃ member ∈ state.members, member.id = memberId ∧ member.status = .active ∧
      member.delivery.map TeamDelivery.id = deliveryId ∧
      ((reason = none ∧ state' = completeTurn env memberId lastId member state) ∨
        ∃ why, reason = some why ∧ state' = failTurn env memberId lastId why member state) := by
  unfold recordTurn at h
  obtain ⟨member, hmem, hid, h⟩ := findMember_bind h
  split at h
  · cases h
    exact .inl rfl
  · next hgo =>
    simp only [not_or, not_not] at hgo
    cases h
    refine .inr ⟨member, hmem, hid, hgo.2.1, hgo.2.2.2, ?_⟩
    cases reason with
    | none => exact .inl ⟨rfl, rfl⟩
    | some why => exact .inr ⟨why, rfl, rfl⟩

theorem reserve_ok {cursor : Nat} {pending : List TeamEvent} {baseline : List String}
    {reserved : Bool} (h : reserve self env memberId cursor pending deliveryId baseline state =
      .ok (reserved, state')) :
    (reserved = false ∧ (state' = state ∨ ∃ error, state' =
        { state.withMember memberId fun member => { member with error := some error } with
          status := .paused })) ∨
      (reserved = true ∧ ∃ member ∈ state.members, member.id = memberId ∧
        member.status = .active ∧ member.delivery = none ∧ member.cursor = cursor ∧
        state.status = .active ∧ state.holders.length < 2 ∧ state.turns < state.maxTurns ∧
        state' = { state.withMember memberId fun member =>
          { member with
            delivery := some (reservedDelivery self env pending deliveryId baseline) } with
          turns := state.turns + 1 }) := by
  unfold reserve at h
  obtain ⟨member, hmem, hid, h⟩ := findMember_bind h
  split at h
  · cases h
    exact .inl ⟨rfl, .inl rfl⟩
  · next hgo =>
    simp only [not_or, not_not, Option.not_isSome_iff_eq_none] at hgo
    split at h
    · cases h
      exact .inl ⟨rfl, .inl rfl⟩
    · split at h
      · split at h
        · cases h
          exact .inl ⟨rfl, .inr ⟨_, rfl⟩⟩
        · cases h
          exact .inl ⟨rfl, .inl rfl⟩
      · cases h
        exact .inr ⟨rfl, member, hmem, hid, hgo.2.1, hgo.2.2.1, hgo.2.2.2, hgo.1, by omega,
          by omega, rfl⟩

theorem bindSession_ok {sessionId : String}
    (h : bindSession memberId deliveryId sessionId state = .ok state') :
    state' = state ∨ ∃ member ∈ state.members, member.id = memberId ∧
      holdsDelivery deliveryId member = true ∧
      state' = state.withMember memberId fun member => { member with sessionId := some sessionId } := by
  unfold bindSession at h
  obtain ⟨member, hmem, hid, h⟩ := findMember_bind h
  split at h
  · next hholds =>
    cases h
    exact .inr ⟨member, hmem, hid, hholds, rfl⟩
  · cases h
    exact .inl rfl

theorem confirmPrompt_ok {promptId : String}
    (h : confirmPrompt memberId deliveryId promptId state = .ok state') :
    state' = state ∨ state' = state.withMember memberId fun member =>
      { member with
        delivery := member.delivery.map fun delivery =>
          { delivery with promptId := some promptId } } := by
  unfold confirmPrompt at h
  simp only [bind_eq_ok] at h
  obtain ⟨member, _, h⟩ := h
  split at h
  · cases h
    exact .inr rfl
  · cases h
    exact .inl rfl

theorem update_ok {id : String} {u : TeamUpdate} {result : u.Result}
    (h : update self platformId env id u state = .ok (result, state')) :
    mutate self platformId env u state = .ok (result, state') ∧ parseState state' id = .ok state' := by
  unfold update at h
  simp only [bind_eq_ok] at h
  obtain ⟨⟨made, changed⟩, hmutate, h⟩ := h
  simp only [pure, Except.pure, Except.ok.injEq, Prod.mk.injEq] at h
  obtain ⟨encoded, hparse, rfl, rfl⟩ := h
  obtain ⟨rfl, _⟩ := parseState_ok.1 hparse
  exact ⟨hmutate, hparse⟩

end Specs
end Rolebox.Team
