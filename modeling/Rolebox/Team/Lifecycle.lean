import Rolebox.General.Rows
import Rolebox.Team.Steps

/-! Every document keeps its law, and nothing is delivered during a removal or deletion. -/

namespace Rolebox.Team
open General List

variable {ids : FreshIds} {operations : List (TeamRuntime × TeamOperation)}
  {history : List (Nat × TeamExchange)} {s t : TeamSystem}

section Documents
variable {world : TeamWorld} {exchange : TeamExchange}

structure Documents (history : List (Nat × TeamExchange)) (world : TeamWorld) : Prop where
  calls : world.calls = history.length
  live : LiveLaw world
  unique : (world.stores.teams.map TeamState.id).Nodup
  accepted : ∀ team ∈ world.stores.teams, parseState team team.id = .ok team
  law : ∀ team ∈ world.stores.teams, TeamLaw team

theorem TeamStep.accepted {team team' : TeamState} (hstep : TeamStep ids world exchange team team')
    (haccepted : parseState team team.id = .ok team) : parseState team' team'.id = .ok team' := by
  cases hstep with
  | kept => exact haccepted
  | updated self u result env team' hexchange hlive henv hmutate haccepted' =>
    rw [accepted_id haccepted']
    exact haccepted'

theorem TeamStep.law {team team' : TeamState} (hstep : TeamStep ids world exchange team team')
    (haccepted : parseState team team.id = .ok team) (hlaw : TeamLaw team) : TeamLaw team' := by
  cases hstep with
  | kept => exact hlaw
  | updated self u result env team' hexchange hlive henv hmutate haccepted' =>
    exact mutate_law hlaw (accepted_members haccepted) hmutate

theorem documents_step {moved after : TeamWorld} {i : Nat} (hmoved : Moved world moved)
    (hanswered : Answered ids moved exchange after) (h : Documents history world) :
    Documents (history ++ [(i, exchange)]) after := by
  have hunique : (moved.stores.teams.map TeamState.id).Nodup := hmoved.teams ▸ h.unique
  obtain ⟨hcalls, hlive, hgone⟩ := hanswered.rest
  have hlaw : LiveLaw after := by
    intro runtime hrun
    rw [hgone]
    exact hmoved.live h.live runtime (hlive ▸ hrun)
  have hcount : after.calls = (history ++ [(i, exchange)]).length := by
    rw [hcalls, hmoved.calls, h.calls, length_append, length_singleton]
  cases hanswered.teams hunique with
  | changed f hteams hid hf =>
    have hids : after.stores.teams.map TeamState.id = moved.stores.teams.map TeamState.id := by
      rw [hteams, map_map]
      exact map_congr_left hid
    refine ⟨hcount, hlaw, hids ▸ hunique, fun team' hteam' => ?_, fun team' hteam' => ?_⟩
    · rw [hteams] at hteam'
      obtain ⟨team, hteam, rfl⟩ := mem_map.1 hteam'
      exact (hf team hteam).accepted (h.accepted team (hmoved.teams ▸ hteam))
    · rw [hteams] at hteam'
      obtain ⟨team, hteam, rfl⟩ := mem_map.1 hteam'
      have hbefore : team ∈ world.stores.teams := hmoved.teams ▸ hteam
      exact (hf team hteam).law (h.accepted team hbefore) (h.law team hbefore)
  | created team hteams hcreated =>
    obtain ⟨⟨platformId, env, actor, name, goal, maxTurns, -, hnew⟩, haccepted, hfresh⟩ := hcreated
    refine ⟨hcount, hlaw, ?_, fun other hother => ?_, fun other hother => ?_⟩
    · rw [hteams]
      exact key_nodup_append hunique hfresh
    · rw [hteams] at hother
      rcases mem_append.1 hother with hold | hnewest
      · exact h.accepted other (hmoved.teams ▸ hold)
      · rw [mem_singleton.1 hnewest]
        exact haccepted
    · rw [hteams] at hother
      rcases mem_append.1 hother with hold | hnewest
      · exact h.law other (hmoved.teams ▸ hold)
      · rw [mem_singleton.1 hnewest, hnew]
        exact newTeam_law

theorem documents_run (h : Run (Serves (teamServe ids)) (startOf operations) history s) :
    Documents history s.world := by
  refine h.history_invariant (I := fun history s => Documents history s.world)
    (fun history s ⟨i, exchange⟩ t hrun hdocuments hstep => ?_)
    ⟨rfl, nofun, nodup_nil, nofun, nofun⟩
  obtain ⟨moved, hmoved, hanswered, -⟩ := step_cases hrun hstep
  exact documents_step hmoved hanswered hdocuments

end Documents

section Control
variable {self : TeamRuntime} {id : String} {resume : Bool} {token : String}

def TeamRuntime.controls (self : TeamRuntime) (token : String) : TeamControl :=
  { id := token, ownerPid := self.ref.pid, ownerId := self.ref.ownerId }

structure ControlLaw (ids : FreshIds) (history : List (Nat × TeamExchange)) (world : TeamWorld) :
    Prop where
  drawn : ∀ (n i : Nat) (self : TeamRuntime) (id : String) (actor : Actor) (resume : Bool)
    (token : String),
    history[n]? = some (i, updateExchange self id (.beginControl actor resume) token) →
      token = ids.uuid n 0
  known : ∀ (i : Nat) (self : TeamRuntime) (id : String) (actor : Actor) (resume : Bool)
    (token : String),
    (i, updateExchange self id (.beginControl actor resume) token) ∈ history →
      self.ref ∈ world.live ∨ self.ref ∈ world.gone
  held : ∀ (i : Nat) (self : TeamRuntime) (id : String) (resume : Bool) (token : String),
    Controls (exchangesOf i history) self id resume token → self.ref ∈ world.live →
      ∃ team ∈ world.stores.teams, team.id = id ∧ team.control = some (self.controls token)
  quiet : ∀ team ∈ world.stores.teams, ∀ control, team.control = some control →
    ∀ (i : Nat) (self : TeamRuntime) (actor : Actor),
      (i, updateExchange self team.id (.beginControl actor false) control.id) ∈ history →
        self.ref ∈ world.live → team.status ≠ .active

theorem updateExchange_inj {self' : TeamRuntime} {id' : String} {u u' : TeamUpdate}
    {result : u.Result} {result' : u'.Result}
    (h : updateExchange self id u result = updateExchange self' id' u' result') :
    self = self' ∧ id = id' ∧ u = u' := by
  have hcall : ({ self := self, op := .store (.update id u) } : TeamCall) =
      { self := self', op := .store (.update id' u') } := congrArg Exchange.call h
  simp only [TeamCall.mk.injEq, TeamOp.store.injEq, StoreOp.update.injEq] at hcall
  exact hcall

variable {world moved after : TeamWorld} {i j : Nat} {exchange : TeamExchange}

theorem ControlLaw.token_unique (h : ControlLaw ids history world) {self' : TeamRuntime}
    {id' : String} {actor actor' : Actor} {resume' : Bool}
    (hi : (i, updateExchange self id (.beginControl actor resume) token) ∈ history)
    (hj : (j, updateExchange self' id' (.beginControl actor' resume') token) ∈ history) :
    i = j ∧ resume = resume' := by
  obtain ⟨n, hn⟩ := mem_iff_getElem?.1 hi
  obtain ⟨m, hm⟩ := mem_iff_getElem?.1 hj
  have hposition := (h.drawn n i self id actor resume token hn).symm.trans
    (h.drawn m j self' id' actor' resume' token hm)
  obtain ⟨rfl, -⟩ := ids.fresh n 0 m 0 hposition
  obtain ⟨rfl, hsame⟩ := Prod.mk.inj ((Option.mem_unique hn hm))
  obtain ⟨-, -, hu⟩ := updateExchange_inj hsame
  simp only [TeamUpdate.beginControl.injEq] at hu
  exact ⟨rfl, hu.2⟩

theorem Controls.begun {h : List TeamExchange} (hcontrols : Controls h self id resume token) :
    ∃ actor, updateExchange self id (.beginControl actor resume) token ∈ h := by
  obtain ⟨before, after, actor, rfl, -⟩ := hcontrols
  exact ⟨actor, mem_append_right _ (.head _)⟩

theorem Controls.snoc_cases {h : List TeamExchange} {x : TeamExchange}
    (hcontrols : Controls (h ++ [x]) self id resume token) :
    (∃ actor, x = updateExchange self id (.beginControl actor resume) token) ∨
      (Controls h self id resume token ∧ Plain x.call) := by
  obtain ⟨before, after, actor, heq, hafter⟩ := hcontrols
  rcases eq_nil_or_concat' after with rfl | ⟨init, last, rfl⟩
  · obtain ⟨-, hlast⟩ := append_inj' heq rfl
    exact .inl ⟨actor, singleton_inj.1 hlast⟩
  · rw [← cons_append, ← append_assoc] at heq
    obtain ⟨hinit, hlast⟩ := append_inj' heq rfl
    obtain rfl := singleton_inj.1 hlast
    refine .inr ⟨⟨before, init, actor, hinit, fun y hy => ?_⟩, ?_⟩
    · exact hafter y (mem_append_left _ hy)
    · exact hafter x (mem_append_right _ (mem_singleton_self x))

theorem TeamStep.control_kept {team team' : TeamState}
    (hstep : TeamStep ids moved exchange team team')
    (haccepted : parseState team team.id = .ok team)
    (hcontrol : team.control = some (self.controls token)) (hlive : self.ref ∈ moved.live)
    (hend : ∀ other : TeamRuntime, exchange ≠ updateExchange other team.id (.endControl token) ()) :
    team'.control = some (self.controls token) := by
  cases hstep with
  | kept => exact hcontrol
  | updated other u result env team' hexchange hother henv hmutate haccepted' =>
    cases (mutate_change (accepted_members haccepted) (accepted_tasks haccepted) hmutate).control with
    | kept hkept => exact hkept.trans hcontrol
    | begun actor resume hu hidle hbegun hstatus =>
      obtain ⟨halive, hown⟩ := henv.live self.ref hlive
      have hseen : controlIsLive other.ref env (self.controls token) = true := by
        unfold controlIsLive TeamRuntime.controls
        simpa [halive] using hown
      rw [hcontrol, Option.any_some, hseen] at hidle
      exact nomatch hidle
    | ended token' hu hended =>
      subst hu
      have hne : token' ≠ token := by
        rintro rfl
        exact hend other hexchange
      have hother : (self.controls token).id ≠ token' := fun hsame => hne hsame.symm
      rw [hended, hcontrol, Option.filter_some]
      simp [hother]

theorem updated_team {u : TeamUpdate} {result : u.Result}
    (hanswered : Answered ids moved (updateExchange self id u result) after) :
    self.ref ∈ moved.live ∧ ∃ env team team', StoreEnv ids moved self.ref env ∧
      team ∈ moved.stores.teams ∧ team.id = id ∧ team' ∈ after.stores.teams ∧ team'.id = id ∧
      mutate self.ref self.platformId env u team = .ok (result, team') := by
  obtain ⟨hlive, env, _, henv, hanswer⟩ := Answered.store hanswered
  obtain ⟨team, hmem, hid, team', hmem', hid', hmutate⟩ := updateTeam_found hanswer
  exact ⟨hlive, env, team, team', henv, hmem, hid, hmem', hid', hmutate⟩

theorem ControlLaw.initial : ControlLaw ids [] .initial := by
  refine ⟨nofun, nofun, ?_, nofun⟩
  intro i self id resume token hcontrols
  obtain ⟨actor, hmem⟩ := hcontrols.begun
  exact nomatch mem_exchangesOf.1 hmem

section Step
variable (hdocuments : Documents history world) (h : ControlLaw ids history world)
  (hmoved : Moved world moved) (hanswered : Answered ids moved exchange after)
  (hjustified : Justified (exchangesOf i history) exchange.call)

include hdocuments hmoved hanswered in
theorem team_before {team' : TeamState} (hteam' : team' ∈ after.stores.teams) :
    Created ids moved team' ∨ ∃ team ∈ world.stores.teams, team'.id = team.id ∧
      TeamStep ids moved exchange team team' := by
  cases hanswered.teams (hmoved.teams ▸ hdocuments.unique) with
  | changed f hteams hid hf =>
    rw [hteams] at hteam'
    obtain ⟨team, hteam, rfl⟩ := mem_map.1 hteam'
    exact .inr ⟨team, hmoved.teams ▸ hteam, hid team hteam, hf team hteam⟩
  | created team hteams hcreated =>
    rw [hteams] at hteam'
    rcases mem_append.1 hteam' with hold | hnew
    · exact .inr ⟨team', hmoved.teams ▸ hold, rfl, .kept⟩
    · rw [mem_singleton.1 hnew]
      exact .inl hcreated

include hdocuments hmoved hanswered in
theorem team_after {team : TeamState} (hteam : team ∈ world.stores.teams) :
    ∃ team' ∈ after.stores.teams, team'.id = team.id ∧ TeamStep ids moved exchange team team' := by
  have hteam₁ : team ∈ moved.stores.teams := hmoved.teams ▸ hteam
  cases hanswered.teams (hmoved.teams ▸ hdocuments.unique) with
  | changed f hteams hid hf =>
    exact ⟨f team, hteams ▸ mem_map_of_mem hteam₁, hid team hteam₁, hf team hteam₁⟩
  | created created hteams hcreated =>
    exact ⟨team, hteams ▸ mem_append_left _ hteam₁, rfl, .kept⟩

include hdocuments h hmoved hanswered hjustified in
theorem held_step {self : TeamRuntime} {id token : String} {resume : Bool}
    (hcontrols : Controls (exchangesOf j (history ++ [(i, exchange)])) self id resume token)
    (hlive : self.ref ∈ after.live) :
    ∃ team ∈ after.stores.teams, team.id = id ∧ team.control = some (self.controls token) := by
  have hlive₁ : self.ref ∈ moved.live := hanswered.rest.2.1 ▸ hlive
  -- A control begun before is still its team's, unless the exchange ends it.
  have hbefore : Controls (exchangesOf j history) self id resume token →
      (∀ other : TeamRuntime, exchange ≠ updateExchange other id (.endControl token) ()) →
      ∃ team ∈ after.stores.teams, team.id = id ∧ team.control = some (self.controls token) := by
    intro hold hend
    obtain ⟨actor, hbegun⟩ := hold.begun
    have hknown := h.known j self id actor resume token (mem_exchangesOf.1 hbegun)
    obtain ⟨team, hteam, rfl, hcontrol⟩ := h.held j self id resume token hold
      (hmoved.live_of_known hdocuments.live hknown hlive₁)
    obtain ⟨team', hteam', hid, hstep⟩ := team_after hdocuments hmoved hanswered hteam
    exact ⟨team', hteam', hid,
      hstep.control_kept (hdocuments.accepted team hteam) hcontrol hlive₁ hend⟩
  by_cases hsame : i = j
  · subst hsame
    rw [exchangesOf_snoc_self] at hcontrols
    rcases hcontrols.snoc_cases with ⟨actor, rfl⟩ | ⟨hold, hplain⟩
    · obtain ⟨-, env, team, team', henv, hteam, hid, hteam', hid', hmutate⟩ :=
        updated_team hanswered
      obtain ⟨-, -, -, rfl⟩ := beginControl_ok hmutate
      exact ⟨_, hteam', hid', rfl⟩
    · refine hbefore hold fun other hend => ?_
      rw [hend] at hplain
      exact hplain
  · rw [exchangesOf_snoc_other hsame] at hcontrols
    refine hbefore hcontrols fun other hend => ?_
    rw [hend] at hjustified
    obtain ⟨resume', hown⟩ : ∃ resume', Controls (exchangesOf i history) other id resume' token :=
      hjustified
    obtain ⟨actor, hbegun⟩ := hown.begun
    obtain ⟨actor', hbegun'⟩ := hcontrols.begun
    exact hsame (h.token_unique (mem_exchangesOf.1 hbegun) (mem_exchangesOf.1 hbegun')).1

include hdocuments h hmoved hjustified in
theorem quiet_team {team team' : TeamState} (hteam : team ∈ world.stores.teams)
    (hid : team'.id = team.id) (hstep : TeamStep ids moved exchange team team')
    {control : TeamControl} (hcontrol : team'.control = some control) {self : TeamRuntime}
    {actor : Actor}
    (hbegun : (j, updateExchange self team'.id (.beginControl actor false) control.id) ∈ history)
    (hlive : self.ref ∈ moved.live) : team'.status ≠ .active := by
  intro hactive
  rw [hid] at hbegun
  have hrun := hmoved.live_of_known hdocuments.live (h.known j self _ actor false _ hbegun) hlive
  have hquiet : team.control = some control → team.status ≠ .active := fun hold =>
    h.quiet team hteam control hold j self actor hbegun hrun
  cases hstep with
  | kept => exact hquiet hcontrol hactive
  | updated other u result env team' hexchange hother henv hmutate haccepted =>
    have hchange := mutate_change (accepted_members (hdocuments.accepted team hteam))
      (accepted_tasks (hdocuments.accepted team hteam)) hmutate
    have hold : team.control = some control := by
      cases hchange.control with
      | kept hkept => exact hkept.symm.trans hcontrol
      | begun actor' resume hu hidle hnew hstatus =>
        rw [hstatus] at hactive
        exact nomatch hactive
      | ended token hu hended =>
        rw [hended] at hcontrol
        exact (Option.filter_eq_some_iff.1 hcontrol).1
    rcases hchange.resumed hactive with hbefore | ⟨actor', continuing, rfl⟩
    · exact hquiet hold hbefore
    rw [hexchange] at hjustified
    obtain ⟨token, hown⟩ : ∃ token, Controls (exchangesOf i history) other team.id true token :=
      hjustified
    obtain ⟨actor'', hresume⟩ := hown.begun
    have hresumed := mem_exchangesOf.1 hresume
    have hotherRuns := hmoved.live_of_known hdocuments.live
      (h.known i other _ actor'' true _ hresumed) hother
    obtain ⟨same, hsame, hsameId, hsameControl⟩ := h.held i other team.id true token hown hotherRuns
    obtain rfl := inj_on_of_nodup_map hdocuments.unique hsame hteam hsameId
    have htoken : control = other.controls token := Option.mem_unique hold hsameControl
    rw [htoken] at hbegun
    exact nomatch (h.token_unique hbegun hresumed).2

include hdocuments h hmoved hanswered hjustified in
theorem ControlLaw.step : ControlLaw ids (history ++ [(i, exchange)]) after := by
  obtain ⟨hcalls, hliveEq, hgoneEq⟩ := hanswered.rest
  have hknown : ∀ runtime, runtime ∈ world.live ∨ runtime ∈ world.gone →
      runtime ∈ after.live ∨ runtime ∈ after.gone := by
    intro runtime hbefore
    rw [hliveEq, hgoneEq]
    exact hmoved.known runtime hbefore
  refine ⟨?_, ?_, ?_, ?_⟩
  · intro n j self id actor resume token hn
    rcases getElem?_snoc hn with ⟨-, hold⟩ | ⟨rfl, hlast⟩
    · exact h.drawn n j self id actor resume token hold
    · obtain ⟨-, rfl⟩ := Prod.mk.inj hlast
      obtain ⟨-, env, team, team', henv, hteam, hid, hteam', hid', hmutate⟩ :=
        updated_team hanswered
      obtain ⟨rfl, -⟩ := beginControl_ok hmutate
      rw [henv.uuid, hmoved.calls, hdocuments.calls]
  · intro j self id actor resume token hmem
    rcases mem_append.1 hmem with hold | hnew
    · exact hknown _ (h.known j self id actor resume token hold)
    · obtain ⟨rfl, rfl⟩ := Prod.mk.inj (mem_singleton.1 hnew)
      obtain ⟨hlive, -⟩ := updated_team hanswered
      exact .inl (hliveEq ▸ hlive)
  · intro j self id resume token hcontrols hlive
    exact held_step hdocuments h hmoved hanswered hjustified hcontrols hlive
  · intro team' hteam' control hcontrol j self actor hmem hlive
    have hlive₁ : self.ref ∈ moved.live := hliveEq ▸ hlive
    rcases mem_append.1 hmem with hold | hnew
    · rcases team_before hdocuments hmoved hanswered hteam' with hcreated | ⟨team, hteam, hid, hstep⟩
      · obtain ⟨⟨platformId, env, actor, name, goal, maxTurns, -, rfl⟩, -⟩ := hcreated
        exact nomatch hcontrol
      · exact quiet_team hdocuments h hmoved hjustified hteam hid hstep hcontrol hold hlive₁
    · -- The exchange began the control itself, and left its team paused.
      obtain ⟨rfl, rfl⟩ := Prod.mk.inj (mem_singleton.1 hnew)
      obtain ⟨-, env, team, same, henv, hteam, hid, hsame, hsameId, hmutate⟩ :=
        updated_team hanswered
      have hdocuments' : Documents (history ++ [(j, _)]) after :=
        documents_step hmoved hanswered hdocuments
      obtain rfl := inj_on_of_nodup_map hdocuments'.unique hsame hteam' hsameId
      obtain ⟨-, -, -, rfl⟩ := beginControl_ok hmutate
      exact nofun

end Step

theorem control_run (h : Run (Serves (teamServe ids)) (startOf operations) history s) :
    ControlLaw ids history s.world := by
  refine h.history_invariant (I := fun history s => ControlLaw ids history s.world)
    (fun history s ⟨i, exchange⟩ t hrun hlaw hstep => ?_) .initial
  obtain ⟨moved, hmoved, hanswered, hjustified⟩ := step_cases hrun hstep
  exact hlaw.step (documents_run hrun) hmoved hanswered hjustified

end Control

def HeldForRemoval (history : List (Nat × TeamExchange)) (world : TeamWorld) (team : TeamState) :
    Prop :=
  ∃ (i : Nat) (self : TeamRuntime) (actor : Actor) (control : TeamControl),
    team.control = some control ∧ self.ref ∈ world.live ∧
      (i, updateExchange self team.id (.beginControl actor false) control.id) ∈ history

def NoNewDelivery (team team' : TeamState) : Prop :=
  ∀ member' ∈ team'.members, ∀ delivery', member'.delivery = some delivery' →
    ∃ member ∈ team.members, member.id = member'.id ∧
      ∃ delivery, member.delivery = some delivery ∧ delivery.id = delivery'.id

theorem MembersChange.noNewDelivery {u : TeamUpdate} {team team' : TeamState}
    (hmembers : MembersChange u team team') (hstatus : team.status ≠ .active) :
    NoNewDelivery team team' := by
  obtain ⟨changed, added, hsplit, hforall, hadded⟩ := hmembers
  intro member' hmember' delivery' hdelivery'
  rw [hsplit] at hmember'
  rcases mem_append.1 hmember' with hold | hnew
  · obtain ⟨n, hn, rfl⟩ := getElem_of_mem hold
    have hn' : n < team.members.length := hforall.length_eq ▸ hn
    have hchange := hforall.get hn' hn
    refine ⟨_, get_mem team.members ⟨n, hn'⟩, ?_⟩
    simp only [get_eq_getElem] at hchange ⊢
    cases hchange with
    | kept hid hcursor hholding =>
      refine ⟨hid.symm, ?_⟩
      unfold TeamMember.holding at hholding
      rw [hdelivery', Option.map_some] at hholding
      obtain ⟨delivery, hdelivery, hpair⟩ := Option.map_eq_some_iff.1 hholding.symm
      exact ⟨delivery, hdelivery, (Prod.mk.inj hpair).1⟩
    | cleared hid hcursor hnone => exact nomatch hnone.symm.trans hdelivery'
    | completed delivery lastId hid hheld hu hcursor hnone => exact nomatch hnone.symm.trans hdelivery'
    | reserved pending deliveryId baseline hid hfree hactive hu hcursor hholding =>
      exact absurd hactive hstatus
  · exact nomatch (hadded member' hnew).1.symm.trans hdelivery'

structure TeamKept (history : List (Nat × TeamExchange)) (after : TeamWorld) (team team' : TeamState) :
    Prop where
  id : team'.id = team.id
  completed : CompletedKept team.tasks team'.tasks
  quiet : HeldForRemoval history after team → NoNewDelivery team team'

/-- Every committed document is accepted and keeps its law and completed tasks, and no delivery is
made under the control of a removal or a deletion. -/
theorem team_state_invariant (h : Run (Serves (teamServe ids)) (startOf operations) history s) :
    (∀ team ∈ s.world.stores.teams, parseState team team.id = .ok team ∧ TeamLaw team) ∧
      ∀ label t, Serves (teamServe ids) s label t → ∀ team ∈ s.world.stores.teams,
        ∃ team' ∈ t.world.stores.teams, TeamKept history t.world team team' := by
  have hdocuments := documents_run h
  have hcontrols := control_run h
  refine ⟨fun team hteam => ⟨hdocuments.accepted team hteam, hdocuments.law team hteam⟩, ?_⟩
  rintro ⟨i, exchange⟩ t hserves team hteam
  obtain ⟨moved, hmoved, hanswered, hjustified⟩ := step_cases h hserves
  obtain ⟨team', hteam', hid, hstep⟩ := team_after hdocuments hmoved hanswered hteam
  refine ⟨team', hteam', hid, ?_, ?_⟩
  · cases hstep with
    | kept => exact .refl _
    | updated self u result env team' hexchange hlive henv hmutate haccepted =>
      exact (mutate_change (accepted_members (hdocuments.accepted team hteam))
        (accepted_tasks (hdocuments.accepted team hteam)) hmutate).completed
  · rintro ⟨j, self, actor, control, hcontrol, hlive, hbegun⟩
    have hlive₁ : self.ref ∈ moved.live := hanswered.rest.2.1 ▸ hlive
    have hrun := hmoved.live_of_known hdocuments.live
      (hcontrols.known j self team.id actor false control.id hbegun) hlive₁
    have hstatus := hcontrols.quiet team hteam control hcontrol j self actor hbegun hrun
    cases hstep with
    | kept => exact MembersChange.noNewDelivery (u := .expireLeases) (.of_eq rfl) hstatus
    | updated other u result env team' hexchange hother henv hmutate haccepted =>
      exact (mutate_change (accepted_members (hdocuments.accepted team hteam))
        (accepted_tasks (hdocuments.accepted team hteam)) hmutate).members.noNewDelivery hstatus

def quietMoment : Moment :=
  { now := 1, listing := [], alive := fun _ => true, runtimes := fun _ => true, memberProblem := fun _ => none
    memberAuthorized := fun _ => true, storeFailure := none
    host := fun
      | .roles => .ok ["lead"]
      | _ => .error "unanswered" }

def soleRuntime : TeamRuntime :=
  { ref := ⟨1, "runtime"⟩, platformId := "host", canPollStatus := false, observesActivity := false
    preparesResume := false, forgets := false }

def deskMoment (deliveryId : String) : Moment :=
  { quietMoment with
    listing := [FreshIds.counted.uuid 2 1]
    host := fun
      | .roles => .ok ["lead", "worker"]
      | .memberAuthorized _ => .ok true
      | .createSession _ => .ok (some "desk")
      | .promptAnswer _ => .ok (some "prompt")
      | .messages _ => .ok
        [{ info := ⟨"message", "user", none, none, none⟩, parts := [.text (marker deliveryId)] },
          { info := ⟨"answer", "assistant", some "stop", none, some 1⟩, parts := [.text "done"] }]
      | _ => .error "unanswered" }

def deskOperations : List (TeamRuntime × TeamOperation) :=
  [(soleRuntime, .create ⟨"session", "lead"⟩ "team" "goal" 3),
    (soleRuntime, .add ⟨"session", "lead"⟩ (FreshIds.counted.uuid 2 1) "worker"),
    (soleRuntime, .send ⟨"session", "lead"⟩ (FreshIds.counted.uuid 2 1)
      ⟨.taskOffer, "work", none, none, some true⟩),
    (soleRuntime, .tick), (soleRuntime, .handleEvent (.idle "desk"))]

def deskScript : List (Nat × List TeamMove × Moment) :=
  (0, [.starts soleRuntime.ref], { deskMoment "" with listing := [] }) ::
    (replicate 3 (0, [], { deskMoment "" with listing := [] }) ++
      replicate 2 (1, [], deskMoment "") ++ [(2, [], deskMoment "")] ++
      replicate 33 (3, [], deskMoment "") ++
      replicate 21 (4, [], deskMoment (FreshIds.counted.uuid 26 0)))

def counts (s : TeamSystem) : List (Nat × Nat × Nat) :=
  s.world.stores.teams.map fun team =>
    (team.members.length, team.tasks.length, (team.members.filterMap TeamMember.delivery).length)

/-- A team of two with a task on offer, whose member's turn is being read when the next call comes. -/
theorem team_state_invariant_desk :
    ∃ history s event t, Run (Serves (teamServe .counted)) (startOf deskOperations) history s ∧
      Serves (teamServe .counted) s event t ∧ counts s = [(2, 1, 1)] ∧ counts t = [(2, 1, 0)] ∧
      (∀ team ∈ s.world.stores.teams, parseState team team.id = .ok team ∧ TeamLaw team) ∧
      ∀ team ∈ s.world.stores.teams,
        ∃ team' ∈ t.world.stores.teams, TeamKept history t.world team team' := by
  have hplay : (play .counted (startOf deskOperations) deskScript).bind (fun played =>
      (playCall .counted played.2 4 [] (deskMoment (FreshIds.counted.uuid 26 0))).map fun next =>
        (counts played.2, counts next.2)) = some ([(2, 1, 1)], [(2, 1, 0)]) := by
    decide +kernel
  obtain ⟨⟨history, s⟩, hrun, hnext⟩ := Option.bind_eq_some_iff.1 hplay
  obtain ⟨⟨event, t⟩, hserves, hcounts⟩ := Option.map_eq_some_iff.1 hnext
  obtain ⟨hbefore, hafter⟩ := Prod.mk.inj hcounts
  have hlaw := team_state_invariant (play_run hrun)
  exact ⟨history, s, event, t, play_run hrun, playCall_serves hserves, hbefore, hafter, hlaw.1,
    hlaw.2 event t (playCall_serves hserves)⟩
end Rolebox.Team
