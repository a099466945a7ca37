import Rolebox.Team.Justified

/-! One step of the runtimes: the document it changes, and what its runtime did before. -/

namespace Rolebox.Team
open General List

section Documents
variable {ids : FreshIds} {world after : TeamWorld} {exchange : TeamExchange}
variable {team : TeamState} {id : String} {stores : TeamStores} {self : TeamRuntime} {env : TeamEnv}

section

variable (h : parseState team id = .ok team)
include h

theorem accepted_id : team.id = id := by
  obtain ⟨-, -, haccepts⟩ := parseState_ok.1 h
  unfold accepts at haccepts
  simp only [Bool.and_eq_true, decide_eq_true_eq] at haccepts
  exact haccepts.1.1.1.1.1.1.1.1.1.1.1.1.1.1.1.1.1

theorem accepted_members : (team.members.map TeamMember.id).Nodup := by
  obtain ⟨-, -, haccepts⟩ := parseState_ok.1 h
  unfold accepts at haccepts
  simp only [Bool.and_eq_true, decide_eq_true_eq] at haccepts
  exact haccepts.1.1.1.1.1.2

theorem accepted_tasks : (team.tasks.map TeamTask.id).Nodup := by
  obtain ⟨-, -, haccepts⟩ := parseState_ok.1 h
  unfold accepts at haccepts
  simp only [Bool.and_eq_true, decide_eq_true_eq] at haccepts
  exact haccepts.2

end

theorem readState_ok (h : readState stores id = .ok team) :
    team ∈ stores.teams ∧ team.id = id ∧ parseState team id = .ok team := by
  unfold readState at h
  split at h
  · next found hfound =>
    obtain ⟨rfl, _, _⟩ := parseState_ok.1 h
    exact ⟨mem_of_find?_eq_some hfound, by simpa using find?_some hfound, h⟩
  · cases h

inductive TeamStep (ids : FreshIds) (world : TeamWorld) (exchange : TeamExchange)
    (team : TeamState) : TeamState → Prop where
  | kept : TeamStep ids world exchange team team
  | updated (self : TeamRuntime) (u : TeamUpdate) (result : u.Result) (env : TeamEnv)
      (team' : TeamState) (hexchange : exchange = updateExchange self team.id u result)
      (hlive : self.ref ∈ world.live) (henv : StoreEnv ids world self.ref env)
      (hmutate : mutate self.ref self.platformId env u team = .ok (result, team'))
      (haccepted : parseState team' team.id = .ok team') :
      TeamStep ids world exchange team team'

def Created (ids : FreshIds) (world : TeamWorld) (team : TeamState) : Prop :=
  (∃ platformId env actor name goal maxTurns, env.uuid = ids.uuid world.calls ∧
    team = newTeam platformId env actor name goal maxTurns) ∧ parseState team team.id = .ok team ∧
    ∀ other ∈ world.stores.teams, other.id ≠ team.id

inductive TeamsStep (ids : FreshIds) (world : TeamWorld) (exchange : TeamExchange)
    (teams : List TeamState) : Prop where
  | changed (f : TeamState → TeamState) (hteams : teams = world.stores.teams.map f)
      (hid : ∀ team ∈ world.stores.teams, (f team).id = team.id)
      (hf : ∀ team ∈ world.stores.teams, TeamStep ids world exchange team (f team))
  | created (team : TeamState) (hteams : teams = world.stores.teams ++ [team])
      (hcreated : Created ids world team)

theorem TeamsStep.kept {teams : List TeamState} (hteams : teams = world.stores.teams) :
    TeamsStep ids world exchange teams :=
  .changed (fun team => team) (by rw [hteams, map_id']) (fun _ _ => rfl) fun _ _ => .kept

theorem updateTeam_changed {before : TeamStores} {u : TeamUpdate} {result : u.Result}
    (h : updateTeam self env id u before = .ok (result, stores)) :
    ∃ team ∈ before.teams, team.id = id ∧ ∃ changed,
      mutate self.ref self.platformId env u team = .ok (result, changed) ∧
      parseState changed team.id = .ok changed ∧ stores = { before with
        teams := before.teams.map fun other => if other.id = team.id then changed else other } := by
  unfold updateTeam at h
  simp only [bind_eq_ok] at h
  obtain ⟨team, hread, ⟨made, changed⟩, hupdate, h⟩ := h
  simp only [pure, Except.pure, Except.ok.injEq, Prod.mk.injEq] at h
  obtain ⟨rfl, rfl⟩ := h
  obtain ⟨hmem, rfl, -⟩ := readState_ok hread
  obtain ⟨hmutate, haccepted⟩ := update_ok hupdate
  exact ⟨team, hmem, rfl, changed, hmutate, haccepted, rfl⟩

theorem updateTeam_ok {u : TeamUpdate} {result : u.Result}
    (hunique : (world.stores.teams.map TeamState.id).Nodup) (hlive : self.ref ∈ world.live)
    (henv : StoreEnv ids world self.ref env)
    (h : updateTeam self env id u world.stores = .ok (result, stores)) :
    TeamsStep ids world (updateExchange self id u result) stores.teams := by
  obtain ⟨team, hmem, rfl, changed, hmutate, haccepted, rfl⟩ := updateTeam_changed h
  refine .changed (fun other => if other.id = team.id then changed else other) rfl ?_ ?_
  · intro other _
    split
    · next hsame => rw [accepted_id haccepted, hsame]
    · rfl
  · intro other hother
    split
    · next hsame =>
      obtain rfl := inj_on_of_nodup_map hunique hother hmem hsame
      exact .updated self u result env changed rfl hlive henv hmutate haccepted
    · exact .kept

theorem updateTeam_found {u : TeamUpdate} {result : u.Result}
    (h : updateTeam self env id u world.stores = .ok (result, stores)) :
    ∃ team ∈ world.stores.teams, team.id = id ∧ ∃ team' ∈ stores.teams, team'.id = id ∧
      mutate self.ref self.platformId env u team = .ok (result, team') := by
  obtain ⟨team, hmem, rfl, changed, hmutate, haccepted, rfl⟩ := updateTeam_changed h
  exact ⟨team, hmem, rfl, changed, mem_map.2 ⟨team, hmem, if_pos rfl⟩,
    accepted_id haccepted, hmutate⟩

theorem createTeam_ok {actor : Actor} {name goal : String} {maxTurns : Nat}
    (henv : StoreEnv ids world self.ref env)
    (h : createTeam self env actor name goal maxTurns world.stores = .ok (team, stores)) :
    stores.teams = world.stores.teams ++ [team] ∧ Created ids world team ∧
      stores.leases = world.stores.leases ∧ stores.scheduler = world.stores.scheduler ∧
      stores.acquired = world.stores.acquired := by
  unfold createTeam at h
  simp only [bind_eq_ok, refuseIf_ok, pure, Except.pure, Except.ok.injEq, Prod.mk.injEq] at h
  obtain ⟨encoded, hparse, _, hfresh, rfl, rfl⟩ := h
  obtain ⟨hsame, -, -⟩ := parseState_ok.1 hparse
  rw [hsame] at hparse ⊢
  refine ⟨rfl, ⟨⟨_, env, actor, name, goal, maxTurns, henv.uuid, rfl⟩, hparse, ?_⟩, rfl, rfl, rfl⟩
  intro other hother heq
  exact hfresh ⟨other, hother, heq⟩

theorem Answered.teams (h : Answered ids world exchange after)
    (hunique : (world.stores.teams.map TeamState.id).Nodup) :
    TeamsStep ids world exchange after.stores.teams := by
  cases h with
  | failed call error => exact .kept rfl
  | stored self op result stores env listing hlive henv hanswer =>
    cases op with
    | update id u => exact updateTeam_ok hunique hlive henv hanswer
    | create actor name goal maxTurns =>
      obtain ⟨hteams, hcreated, -⟩ := createTeam_ok henv hanswer
      exact .created _ hteams hcreated
    | teamIds =>
      obtain ⟨-, rfl⟩ := listTeamIds_ok hanswer
      exact .kept rfl
    | read id =>
      obtain ⟨_, _, hpair⟩ := map_eq_ok.1 hanswer
      cases hpair
      exact .kept rfl
    | openLease key =>
      obtain ⟨-, -, rfl⟩ := openLease_ok hanswer
      exact .kept rfl
    | commitLease transaction key deliveryId =>
      obtain ⟨-, rfl⟩ := commitLease_ok hanswer
      exact .kept rfl
    | closeLease transaction =>
      obtain rfl := closeLease_ok hanswer
      exact .kept rfl
    | releaseSession key deliveryId =>
      obtain ⟨-, rfl⟩ := dropLease_ok hanswer
      exact .kept rfl
  | own self moment op =>
    refine .kept ?_
    cases op with
    | setPumping pumping => cases pumping <;> rfl
    | setRemoving memberId removing => cases removing <;> rfl
    | _ => rfl
  | sent self prompt hlive => exact .kept rfl
  | aborted self sessionId => exact .kept rfl
  | host self op result hprompt => exact .kept rfl

theorem Answered.store {op : StoreOp} {result : op.Result}
    (h : Answered ids world (storeExchange self op result) after) :
    self.ref ∈ world.live ∧ ∃ env listing, StoreEnv ids world self.ref env ∧
      answerStore self env world.calls listing op world.stores = .ok (result, after.stores) := by
  generalize hx : storeExchange self op result = x at h
  cases h with
  | failed call error => cases hx
  | stored self' op' result' stores env listing hlive henv hanswer =>
    cases hx
    exact ⟨hlive, env, listing, henv, hanswer⟩
  | _ => cases hx

theorem Answered.drawn (h : Answered ids world (ownExchange self .randomUUID id) after) :
    id = ids.uuid world.calls 0 := by
  generalize hx : ownExchange self .randomUUID id = x at h
  cases h with
  | own self' moment op' =>
    cases hx
    rfl
  | _ => cases hx

theorem Answered.rest (h : Answered ids world exchange after) :
    after.calls = world.calls + 1 ∧ after.live = world.live ∧ after.gone = world.gone := by
  cases h with
  | own self moment op =>
    cases op with
    | setPumping pumping => cases pumping <;> exact ⟨rfl, rfl, rfl⟩
    | setRemoving memberId removing => cases removing <;> exact ⟨rfl, rfl, rfl⟩
    | _ => exact ⟨rfl, rfl, rfl⟩
  | _ => exact ⟨rfl, rfl, rfl⟩

end Documents

section System

abbrev TeamSystem := Parties teamInterface TeamWorld (Except String Unit)

def startOf (operations : List (TeamRuntime × TeamOperation)) : TeamSystem :=
  { world := .initial
    programs := operations.map fun operation => (operation.2.run operation.1).run }

variable {ids : FreshIds} {operations : List (TeamRuntime × TeamOperation)}
  {trace : List (Nat × TeamExchange)} {s t : TeamSystem} {i : Nat} {exchange : TeamExchange}

theorem step_cases (h : Run (Serves (teamServe ids)) (startOf operations) trace s)
    (hstep : Serves (teamServe ids) s (i, exchange) t) :
    ∃ moved, Moved s.world moved ∧ Answered ids moved exchange t.world ∧
      Justified (exchangesOf i trace) exchange.call := by
  obtain ⟨p, hp, hjustified⟩ := call_guarded h hstep
  have hcall : Justified (exchangesOf i trace) exchange.call := by
    obtain ⟨operation, -, rfl⟩ := mem_map.1 (mem_of_getElem? hp)
    exact hjustified _ _ (operation_justified operation.2)
  have hserve : teamServe ids s.world exchange t.world := by
    cases hstep with
    | step _ hserve => exact hserve
  obtain ⟨moved, hmoved, hanswered⟩ := teamServe_cases hserve
  exact ⟨moved, hmoved, hanswered, hcall⟩

theorem justified_at {before after : List (Nat × TeamExchange)}
    (h : Run (Serves (teamServe ids)) (startOf operations) (before ++ (i, exchange) :: after) s) :
    Justified (exchangesOf i before) exchange.call := by
  obtain ⟨m, hbefore, hrest⟩ := h.split
  cases hrest with
  | cons hstep _ =>
    obtain ⟨_, _, _, hjustified⟩ := step_cases hbefore hstep
    exact hjustified

def playCall (ids : FreshIds) (s : TeamSystem) (i : Nat) (moves : List TeamMove)
    (moment : Moment) : Option ((Nat × TeamExchange) × TeamSystem) :=
  match s.programs[i]? with
  | some (.call call next) => do
    let moved ← moves.foldlM TeamWorld.move s.world
    let (answer, after) ← respond ids moved call moment
    return ((i, ⟨call, answer⟩), { world := after, programs := s.programs.set i (next answer) })
  | _ => none

def playIf (ids : FreshIds) (allowed : TeamSystem → Nat × TeamExchange → TeamSystem → Bool) :
    TeamSystem → List (Nat × List TeamMove × Moment) → Option (List (Nat × TeamExchange) × TeamSystem)
  | s, [] => some ([], s)
  | s, (i, moves, moment) :: rest => do
    let (event, t) ← playCall ids s i moves moment
    if allowed s event t then
      let (events, u) ← playIf ids allowed t rest
      return (event :: events, u)
    else none

def play (ids : FreshIds) : TeamSystem → List (Nat × List TeamMove × Moment) →
    Option (List (Nat × TeamExchange) × TeamSystem) := playIf ids fun _ _ _ => true

theorem playCall_serves {moves : List TeamMove} {moment : Moment} {event : Nat × TeamExchange}
    (h : playCall ids s i moves moment = some (event, t)) : Serves (teamServe ids) s event t := by
  unfold playCall at h
  split at h
  · next call next hparty =>
    simp only [Option.bind_eq_bind, Option.bind_eq_some_iff] at h
    obtain ⟨moved, hmoved, ⟨answer, after⟩, hanswer, h⟩ := h
    obtain ⟨rfl, rfl⟩ := Prod.mk.inj (Option.some.inj h)
    exact .step hparty ⟨moves, moved, moment, hmoved, hanswer⟩
  · cases h

theorem playIf_run {allowed : TeamSystem → Nat × TeamExchange → TeamSystem → Bool}
    {script : List (Nat × List TeamMove × Moment)} {events : List (Nat × TeamExchange)}
    (h : playIf ids allowed s script = some (events, t)) :
    Run (fun s event t => Serves (teamServe ids) s event t ∧ allowed s event t = true)
      s events t := by
  induction script generalizing s events with
  | nil =>
    obtain ⟨rfl, rfl⟩ := Prod.mk.inj (Option.some.inj h)
    exact .nil _
  | cons entry rest ih =>
    obtain ⟨i, moves, moment⟩ := entry
    simp only [playIf, Option.bind_eq_bind, Option.bind_eq_some_iff] at h
    obtain ⟨⟨event, u⟩, hcall, h⟩ := h
    split at h
    · next hallowed =>
      simp only [Option.bind_eq_some_iff] at h
      obtain ⟨⟨events', v⟩, hrest, h⟩ := h
      obtain ⟨rfl, rfl⟩ := Prod.mk.inj (Option.some.inj h)
      exact .cons ⟨playCall_serves hcall, hallowed⟩ (ih hrest)
    · cases h

theorem play_run {script : List (Nat × List TeamMove × Moment)}
    {events : List (Nat × TeamExchange)} (h : play ids s script = some (events, t)) :
    Run (Serves (teamServe ids)) s events t := (playIf_run h).mono fun _ _ _ hstep => hstep.1

end System
end Rolebox.Team
