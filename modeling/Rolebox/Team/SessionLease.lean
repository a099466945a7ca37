import Rolebox.Team.Delivery

/-! The lease of a host session belongs to the named delivery that acquired it. -/

namespace Rolebox.Team
open General List

variable {ids : FreshIds} {operations : List (TeamRuntime × TeamOperation)}
  {history : List (Nat × TeamExchange)} {s t : TeamSystem}

section Holding

def ReservedOn (history : List (Nat × TeamExchange)) (id memberId deliveryId : String) : Prop :=
  ∃ (j : Nat) (self : TeamRuntime) (cursor : Nat) (pending : List TeamEvent)
    (baseline : List String) (reserved : Bool),
    (j, updateExchange self id (.reserve memberId cursor pending deliveryId baseline) reserved) ∈
      history

def Holding (world : TeamWorld) (id memberId deliveryId : String) : Prop :=
  ∃ team ∈ world.stores.teams, team.id = id ∧ ∃ member ∈ team.members, member.id = memberId ∧
    holdsDelivery deliveryId member = true

def Named (world : TeamWorld) (deliveryId : String) : Prop :=
  ∃ team ∈ world.stores.teams, ∃ member ∈ team.members, holdsDelivery deliveryId member = true

variable {id memberId deliveryId : String} {i : Nat} {exchange : TeamExchange}

theorem ReservedOn.append {after : List (Nat × TeamExchange)}
    (h : ReservedOn history id memberId deliveryId) :
    ReservedOn (history ++ after) id memberId deliveryId := by
  obtain ⟨j, self, cursor, pending, baseline, reserved, hmem⟩ := h
  exact ⟨j, self, cursor, pending, baseline, reserved, mem_append_left _ hmem⟩

theorem holding_of_holds {member : TeamMember} (h : holdsDelivery deliveryId member = true) :
    ∃ throughSeq, member.holding = some (deliveryId, throughSeq) := by
  obtain ⟨delivery, hdelivery, rfl⟩ := holdsDelivery_iff.1 h
  exact ⟨delivery.throughSeq, by rw [TeamMember.holding, hdelivery]; rfl⟩

section

variable (h : Run (Serves (teamServe ids)) (startOf operations) history s)
include h

theorem Holding.reserved (hholding : Holding s.world id memberId deliveryId) :
    ReservedOn history id memberId deliveryId := by
  obtain ⟨team, hteam, rfl, member, hmember, rfl, hholds⟩ := hholding
  obtain ⟨throughSeq, hheld⟩ := holding_of_holds hholds
  obtain ⟨j, self, pending, baseline, reserved, hmem, -⟩ :=
    (delivery_run h).reserved team hteam member hmember deliveryId throughSeq hheld
  exact ⟨j, self, member.cursor, pending, baseline, reserved, hmem⟩

theorem ReservedOn.unique {id' memberId' : String} (hr : ReservedOn history id memberId deliveryId)
    (hr' : ReservedOn history id' memberId' deliveryId) : id = id' ∧ memberId = memberId' := by
  obtain ⟨j, self, cursor, pending, baseline, reserved, hmem⟩ := hr
  obtain ⟨j', self', cursor', pending', baseline', reserved', hmem'⟩ := hr'
  obtain ⟨rfl, rfl, -⟩ := reserve_unique h hmem hmem'
  exact ⟨rfl, rfl⟩

theorem Named.holding
    (hnamed : Named s.world deliveryId) (hreserved : ReservedOn history id memberId deliveryId) :
    Holding s.world id memberId deliveryId := by
  obtain ⟨team, hteam, member, hmember, hholds⟩ := hnamed
  have hholding : Holding s.world team.id member.id deliveryId :=
    ⟨team, hteam, rfl, member, hmember, rfl, hholds⟩
  obtain ⟨rfl, rfl⟩ := hreserved.unique h (hholding.reserved h)
  exact hholding

theorem not_holding_step (hstep : Serves (teamServe ids) s (i, exchange) t)
    (hreserved : ReservedOn history id memberId deliveryId)
    (hnot : ¬ Holding s.world id memberId deliveryId) :
    ¬ Holding t.world id memberId deliveryId := by
  rintro ⟨team', hteam', rfl, member', hmember', rfl, hholds⟩
  have hdocuments := documents_run h
  obtain ⟨moved, hmoved, hanswered, -⟩ := step_cases h hstep
  rcases team_before hdocuments hmoved hanswered hteam' with hcreated | ⟨team, hteam, hid, hchanged⟩
  · obtain ⟨⟨platformId, env, actor, name, goal, maxTurns, -, rfl⟩, -⟩ := hcreated
    obtain rfl := mem_singleton.1 hmember'
    exact nomatch hholds
  have hkeep : ∀ member ∈ team.members, member'.id = member.id →
      holdsDelivery deliveryId member = true → False := fun member hmember hmemberId hheld =>
    hnot ⟨team, hteam, hid.symm, member, hmember, hmemberId.symm, hheld⟩
  cases hchanged with
  | kept => exact hkeep member' hmember' rfl hholds
  | updated self u result env team' hexchange hlive henv hmutate haccepted =>
    have hbefore := hdocuments.accepted team hteam
    obtain ⟨changed, added, hsplit, hforall, hadded⟩ :=
      (mutate_change (accepted_members hbefore) (accepted_tasks hbefore) hmutate).members
    obtain ⟨delivery, hdelivery, hdeliveryId⟩ := holdsDelivery_iff.1 hholds
    rw [hsplit] at hmember'
    rcases mem_append.1 hmember' with hold | hnew
    · obtain ⟨n, hn, rfl⟩ := getElem_of_mem hold
      have hn' : n < team.members.length := hforall.length_eq ▸ hn
      have hchange := hforall.get hn' hn
      simp only [get_eq_getElem] at hchange
      cases hchange with
      | kept hsame hcursor hheld =>
        refine hkeep _ (getElem_mem hn') hsame (holdsDelivery_iff.2 ?_)
        unfold TeamMember.holding at hheld
        rw [hdelivery, Option.map_some] at hheld
        obtain ⟨previous, hprevious, hpair⟩ := Option.map_eq_some_iff.1 hheld.symm
        exact ⟨previous, hprevious, (Prod.mk.inj hpair).1.trans hdeliveryId⟩
      | cleared hsame hcursor hnone => exact nomatch hnone.symm.trans hdelivery
      | completed ended lastId hsame hheld hu hcursor hnone => exact nomatch hnone.symm.trans hdelivery
      | reserved pending drawn baseline hsame hfree hactive hu hcursor hheld =>
        -- The id would be reserved a second time.
        subst hu
        unfold TeamMember.holding at hheld
        rw [hdelivery, Option.map_some, Option.some.injEq, Prod.mk.injEq] at hheld
        obtain ⟨rfl, -⟩ := hheld
        obtain ⟨j, other, cursor, pending', baseline', reserved, hmem⟩ := hreserved
        rw [hdeliveryId] at hexchange
        obtain ⟨before, after, rfl⟩ := append_of_mem hmem
        rw [hexchange] at hstep
        have hrun := h.snoc hstep
        have honce := reserve_once hrun rfl
          (show _ = before ++ (j, updateExchange other _ (.reserve _ cursor pending' deliveryId
            baseline') reserved) :: (after ++ [(i, updateExchange self team.id (.reserve _ _ pending
              deliveryId baseline) result)]) by rw [append_assoc, cons_append])
        have hlength := congrArg length honce.1
        rw [length_append, length_cons] at hlength
        omega
    · exact nomatch (hadded member' hnew).1.symm.trans hdelivery

end

theorem not_holding_run {before after : List (Nat × TeamExchange)} {m : TeamSystem}
    (h : Run (Serves (teamServe ids)) (startOf operations) before m)
    (hrest : Run (Serves (teamServe ids)) m after s)
    (hreserved : ReservedOn before id memberId deliveryId)
    (hnot : ¬ Holding m.world id memberId deliveryId) :
    ¬ Holding s.world id memberId deliveryId := by
  induction hrest generalizing before with
  | nil => exact hnot
  | @cons m u v event after hstep _ ih =>
    exact ih (h.snoc hstep) hreserved.append (not_holding_step h hstep hreserved hnot)

theorem not_named_of_gone {before after : List (Nat × TeamExchange)}
    (h : Run (Serves (teamServe ids)) (startOf operations) (before ++ (i, exchange) :: after) s)
    (hgone : ∀ m u, Run (Serves (teamServe ids)) (startOf operations) before m →
      Serves (teamServe ids) m (i, exchange) u → ∃ id memberId, ReservedOn before id memberId deliveryId ∧
        ¬ Holding u.world id memberId deliveryId) : ¬ Named s.world deliveryId := by
  obtain ⟨m, hbefore, hrest⟩ := h.split
  cases hrest with
  | @cons _ u _ _ _ hstep hrest =>
    obtain ⟨id, memberId, hreserved, hnot⟩ := hgone m u hbefore hstep
    have hnot' := not_holding_run (hbefore.snoc hstep) hrest hreserved.append hnot
    exact fun hnamed => hnot' (hnamed.holding h hreserved.append)

end Holding

section Release
variable {id memberId deliveryId : String} {i : Nat} {m u : TeamSystem} {self : TeamRuntime}

theorem dropDelivery_none {team : TeamState} {member : TeamMember}
    (hmem : member ∈ (dropDelivery memberId team).members) (hid : member.id = memberId) :
    holdsDelivery deliveryId member = false := by
  obtain ⟨before, hbefore, rfl⟩ := mem_map.1 hmem
  by_cases hsame : before.id = memberId
  · rw [if_pos hsame]
    rfl
  · rw [if_neg hsame] at hid
    exact absurd hid hsame

section

variable (hrun : Run (Serves (teamServe ids)) (startOf operations) history m)
include hrun

theorem cleared_not_holding {up : TeamUpdate} {result : up.Result}
    (hstep : Serves (teamServe ids) m (i, updateExchange self id up result) u)
    (hclears : ∀ platformId env team team', mutate self.ref platformId env up team = .ok (result, team') →
      (∃ member ∈ team.members, member.id = memberId ∧ holdsDelivery deliveryId member = true) ∧
        ∀ member ∈ team'.members, member.id = memberId → holdsDelivery deliveryId member = false) :
    ReservedOn history id memberId deliveryId ∧ ¬ Holding u.world id memberId deliveryId := by
  obtain ⟨moved, hmoved, hanswered, -⟩ := step_cases hrun hstep
  obtain ⟨-, env, team, team', -, hteam, hid, hteam', hid', hmutate⟩ := updated_team hanswered
  obtain ⟨⟨member, hmember, hmemberId, hholds⟩, hnone⟩ := hclears _ env team team' hmutate
  refine ⟨Holding.reserved hrun ⟨team, hmoved.teams ▸ hteam, hid, member, hmember, hmemberId, hholds⟩, ?_⟩
  rintro ⟨other, hother, hotherId, member', hmember', hmemberId', hholds'⟩
  have hunique := (documents_run (hrun.snoc hstep)).unique
  obtain rfl := inj_on_of_nodup_map hunique hother hteam' (hotherId.trans hid'.symm)
  exact Bool.false_ne_true ((hnone member' hmember' hmemberId').symm.trans hholds')

theorem discard_gone
    (hstep : Serves (teamServe ids) m
      (i, updateExchange self id (.discardDelivery memberId deliveryId) true) u) :
    ReservedOn history id memberId deliveryId ∧ ¬ Holding u.world id memberId deliveryId := by
  refine cleared_not_holding hrun hstep fun platformId env team team' hmutate => ?_
  rcases discardDelivery_ok hmutate with ⟨hfalse, -⟩ | ⟨member, hmember, hid, hholds, -, rfl⟩
  · exact nomatch hfalse
  · exact ⟨⟨member, hmember, hid, hholds⟩, fun member' hmember' => dropDelivery_none hmember'⟩

theorem fail_gone {reason sessionId : String} {clear : Bool}
    (hstep : Serves (teamServe ids) m
      (i, updateExchange self id (.fail memberId reason clear) (some (sessionId, deliveryId))) u) :
    ReservedOn history id memberId deliveryId ∧ ¬ Holding u.world id memberId deliveryId := by
  refine cleared_not_holding hrun hstep fun platformId env team team' hmutate => ?_
  rcases failMember_ok hmutate with ⟨hnone, -⟩ | ⟨member, hmember, hid, -, event, hcases⟩
  · exact nomatch hnone
  rcases hcases with ⟨-, -, hreleased, rfl⟩ | ⟨hnone, -⟩
  · obtain ⟨session, -, hdelivery⟩ := Option.bind_eq_some_iff.1 hreleased.symm
    obtain ⟨delivery, hheld, hpair⟩ := Option.map_eq_some_iff.1 hdelivery
    exact ⟨⟨member, hmember, hid, holdsDelivery_iff.2 ⟨delivery, hheld, (Prod.mk.inj hpair).2⟩⟩,
      fun member' hmember' => dropDelivery_none hmember'⟩
  · exact nomatch hnone

theorem read_at
    {state : TeamState} (hstep : Serves (teamServe ids) m (i, readExchange self id state) u) :
    state ∈ m.world.stores.teams ∧ state ∈ u.world.stores.teams ∧ state.id = id := by
  obtain ⟨moved, hmoved, hanswered, -⟩ := step_cases hrun hstep
  obtain ⟨-, env, listing, -, hanswer⟩ := Answered.store hanswered
  obtain ⟨read, hread, hpair⟩ := map_eq_ok.1 hanswer
  obtain ⟨rfl, hstores⟩ := Prod.mk.inj hpair
  obtain ⟨hteam, hid, -⟩ := readState_ok hread
  exact ⟨hmoved.teams ▸ hteam, hstores ▸ hteam, hid⟩

theorem read_not_holding
    {state : TeamState} (hstep : Serves (teamServe ids) m (i, readExchange self id state) u)
    (hfree : ∀ member ∈ state.members, member.id = memberId →
      holdsDelivery deliveryId member = false) : ¬ Holding u.world id memberId deliveryId := by
  rintro ⟨team, hteam, hid, member, hmember, hmemberId, hholds⟩
  obtain ⟨-, hstate, hstateId⟩ := read_at hrun hstep
  have hunique := (documents_run (hrun.snoc hstep)).unique
  obtain rfl := inj_on_of_nodup_map hunique hteam hstate (hid.trans hstateId.symm)
  exact Bool.false_ne_true ((hfree member hmember hmemberId).symm.trans hholds)

end

theorem givenUp_not_named (h : Run (Serves (teamServe ids)) (startOf operations) history s)
    (hgiven : GivenUp (exchangesOf i history) self deliveryId) : ¬ Named s.world deliveryId := by
  rcases hgiven with ⟨id, memberId, hmem⟩ | ⟨id, memberId, reason, clear, sessionId, hmem⟩ |
    ⟨first, id, state, member, after, hread, hmember, hholds, hfree, hsince⟩
  · obtain ⟨before, rest, rfl⟩ := append_of_mem (mem_exchangesOf.1 hmem)
    exact not_named_of_gone h fun m u hrun hstep => ⟨id, memberId, discard_gone hrun hstep⟩
  · obtain ⟨before, rest, rfl⟩ := append_of_mem (mem_exchangesOf.1 hmem)
    exact not_named_of_gone h fun m u hrun hstep => ⟨id, memberId, fail_gone hrun hstep⟩
  · obtain ⟨more, hsplit, hafter⟩ := hsince
    obtain ⟨x, y, rfl⟩ := append_of_mem hafter
    rw [← append_assoc] at hsplit
    obtain ⟨before, rest, rfl, hbefore, -⟩ := exchangesOf_split hsplit
    refine not_named_of_gone h fun m u hrun hstep => ⟨id, member.id, ?_, ?_⟩
    · have hmem : (i, readExchange self id state) ∈ before :=
        mem_exchangesOf.1 (hbefore ▸ mem_append_left x hread)
      obtain ⟨earlier, later, rfl⟩ := append_of_mem hmem
      obtain ⟨n, hearlier, hrest⟩ := hrun.split
      cases hrest with
      | cons hread' _ =>
        obtain ⟨hstate, -, hid⟩ := read_at hearlier hread'
        exact (Holding.reserved hearlier ⟨state, hstate, hid, member, hmember, rfl, hholds⟩).append
    · refine read_not_holding hrun hstep fun other hother hid => ?_
      obtain ⟨-, hafterRead, -⟩ := read_at hrun hstep
      have hunique := accepted_members
        ((documents_run (hrun.snoc hstep)).accepted after hafterRead)
      have hfind : after.members.find? (fun candidate => decide (candidate.id = member.id)) = some other :=
        hid ▸ find?_key_eq hunique hother
      rw [hfind] at hfree
      have hnone : other.delivery = none := hfree
      unfold holdsDelivery
      rw [hnone, Option.any_none]

end Release

section Unnamed
variable {id memberId deliveryId : String} {i : Nat} {m u : TeamSystem} {self : TeamRuntime}

theorem known_team (h : Run (Serves (teamServe ids)) (startOf operations) history s)
    (hreserved : ReservedOn history id memberId deliveryId) :
    id ∈ s.world.stores.teams.map TeamState.id := by
  refine h.history_invariant (I := fun history s => ∀ id memberId deliveryId,
      ReservedOn history id memberId deliveryId → id ∈ s.world.stores.teams.map TeamState.id)
    (fun history s ⟨j, exchange⟩ t hrun hknown hstep => ?_)
    (fun _ _ _ ⟨_, _, _, _, _, _, hmem⟩ => nomatch hmem) id memberId deliveryId hreserved
  obtain ⟨moved, hmoved, hanswered, -⟩ := step_cases hrun hstep
  rintro id memberId deliveryId ⟨k, other, cursor, pending, baseline, reserved, hmem⟩
  rcases mem_append.1 hmem with hold | hnew
  · obtain ⟨team, hteam, rfl⟩ := mem_map.1 (hknown id memberId deliveryId
      ⟨k, other, cursor, pending, baseline, reserved, hold⟩)
    obtain ⟨team', hteam', hid, -⟩ := team_after (documents_run hrun) hmoved hanswered hteam
    exact mem_map.2 ⟨team', hteam', hid⟩
  · obtain ⟨rfl, rfl⟩ := Prod.mk.inj (mem_singleton.1 hnew)
    obtain ⟨-, -, -, team', -, -, -, hteam', hid', -⟩ := updated_team hanswered
    exact mem_map.2 ⟨team', hteam', hid'⟩

theorem unnamed_not_named {first rest : List (Nat × TeamExchange)} {x : TeamExchange}
    (h : Run (Serves (teamServe ids)) (startOf operations) (first ++ (i, x) :: rest) s)
    (hreserved : ReservedOn first id memberId deliveryId)
    (hunnamed : Unnamed (exchangesOf i first ++ [x]) (exchangesOf i (first ++ (i, x) :: rest)) self
      deliveryId) : ¬ Named s.world deliveryId := by
  have hsplit : exchangesOf i (first ++ (i, x) :: rest) =
      (exchangesOf i first ++ [x]) ++ exchangesOf i rest := by
    simp [exchangesOf, filterMap_append]
  have hafter : ∀ y, Since (exchangesOf i first ++ [x]) y (exchangesOf i (first ++ (i, x) :: rest)) →
      (i, y) ∈ rest := by
    rintro y ⟨more, hmore, hy⟩
    rw [hsplit] at hmore
    exact mem_exchangesOf.1 (append_cancel_left hmore ▸ hy)
  obtain ⟨listed, hlisted, hread⟩ := hunnamed
  have hid : id ∈ listed := by
    obtain ⟨before, after, rfl⟩ := append_of_mem (hafter _ hlisted)
    have hrun := h
    rw [← cons_append, ← append_assoc] at hrun
    obtain ⟨n, hbefore, hrest⟩ := hrun.split
    have hknown := known_team hbefore hreserved.append
    cases hrest with
    | cons hstep _ =>
      obtain ⟨moved, hmoved, hanswered, -⟩ := step_cases hbefore hstep
      obtain ⟨-, env, listing, -, hanswer⟩ := Answered.store hanswered
      obtain ⟨hperm, -⟩ := listTeamIds_ok hanswer
      exact hperm.mem_iff.2 (hmoved.teams ▸ hknown)
  obtain ⟨team, hteam, hfree⟩ := hread id hid
  obtain ⟨before, after, rfl⟩ := append_of_mem (hafter _ hteam)
  rw [← cons_append, ← append_assoc] at h
  refine not_named_of_gone h fun m u hrun hstep => ⟨id, memberId, hreserved.append, ?_⟩
  refine read_not_holding hrun hstep fun member hmember _ => ?_
  exact Bool.eq_false_iff.2 fun hholds =>
    Bool.false_ne_true (hfree.symm.trans (any_eq_true.2 ⟨member, hmember, hholds⟩))

end Unnamed
end Rolebox.Team
