import Rolebox.Team.Lifecycle

/-! A member's cursor moves over events only after a turn that started with them ended well. -/

namespace Rolebox.Team
open General List

variable {ids : FreshIds} {operations : List (TeamRuntime × TeamOperation)}
  {history : List (Nat × TeamExchange)} {s t : TeamSystem}

theorem mem_of_seq_le {events first : List TeamEvent} {n : Nat}
    (hnumbered : events.map TeamEvent.seq = range' 1 n) (hearlier : first <+: events)
    {bound event : TeamEvent} (hbound : bound ∈ first) (hevent : event ∈ events)
    (hle : event.seq ≤ bound.seq) : event ∈ first := by
  obtain ⟨rest, rfl⟩ := hearlier
  rcases mem_append.1 hevent with hfirst | hrest
  · exact hfirst
  have hsorted : (first ++ rest).Pairwise fun a b => a.seq < b.seq := by
    rw [← pairwise_map, hnumbered]
    exact pairwise_lt_range'
  have hlt := (pairwise_append.1 hsorted).2.2 bound hbound event hrest
  omega

theorem lastSeq_mem {pending : List TeamEvent} (hne : pending ≠ []) :
    ∃ last ∈ pending, last.seq = lastSeq pending := by
  refine ⟨pending.getLast hne, getLast_mem hne, ?_⟩
  unfold lastSeq
  rw [getLast?_eq_some_getLast hne]
  rfl

section Reservations
variable {team : TeamState} {deliveryId : String} {cursor : Nat} {self : TeamRuntime}
  {id memberId : String} {pending : List TeamEvent} {baseline : List String} {reserved : Bool}

def ReservedFor (history : List (Nat × TeamExchange)) (team : TeamState) (member : TeamMember)
    (deliveryId : String) (throughSeq : Nat) : Prop :=
  ∃ (j : Nat) (self : TeamRuntime) (pending : List TeamEvent) (baseline : List String)
    (reserved : Bool),
    (j, updateExchange self team.id
      (.reserve member.id member.cursor pending deliveryId baseline) reserved) ∈ history ∧
    member.cursor < throughSeq ∧ (∃ last ∈ team.events, last.seq = throughSeq) ∧
    ∀ event ∈ team.events, member.cursor < event.seq → event.seq ≤ throughSeq → event ∈ pending

/-- Ids are drawn one by one, documents only grow, deliveries were reserved for their use. -/
structure DeliveryLaw (ids : FreshIds) (history : List (Nat × TeamExchange)) (world : TeamWorld) :
    Prop where
  drawn : ∀ (n i : Nat) (self : TeamRuntime) (drawn : String),
    history[n]? = some (i, ownExchange self .randomUUID drawn) → drawn = ids.uuid n 0
  read : ∀ (i : Nat) (self : TeamRuntime) (id : String) (state : TeamState),
    (i, readExchange self id state) ∈ history →
      ∃ team ∈ world.stores.teams, team.id = id ∧ state.events <+: team.events
  reserved : ∀ team ∈ world.stores.teams, ∀ member ∈ team.members, ∀ deliveryId throughSeq,
    member.holding = some (deliveryId, throughSeq) →
      ReservedFor history team member deliveryId throughSeq

variable {world moved after : TeamWorld} {i : Nat} {exchange : TeamExchange}

theorem TeamStep.events {team' : TeamState} (hstep : TeamStep ids moved exchange team team')
    (haccepted : parseState team team.id = .ok team) : team.events <+: team'.events := by
  cases hstep with
  | kept => exact prefix_rfl
  | updated self u result env team' hexchange hlive henv hmutate haccepted' =>
    exact (mutate_change (accepted_members haccepted) (accepted_tasks haccepted) hmutate).events

theorem ReservedFor.extend {history' : List (Nat × TeamExchange)} {team' : TeamState}
    {member member' : TeamMember} {throughSeq : Nat}
    (h : ReservedFor history team member deliveryId throughSeq)
    (hhistory : ∀ event ∈ history, event ∈ history') (hteam : team'.id = team.id)
    (hid : member'.id = member.id) (hcursor : member'.cursor = member.cursor)
    (hevents : team.events <+: team'.events) (hlaw : TeamLaw team') :
    ReservedFor history' team' member' deliveryId throughSeq := by
  obtain ⟨j, self, pending, baseline, reserved, hmem, hlt, ⟨last, hlast, hseq⟩, hcover⟩ := h
  rw [← hteam, ← hid, ← hcursor] at hmem
  refine ⟨j, self, pending, baseline, reserved, hhistory _ hmem, hcursor ▸ hlt,
    ⟨last, hevents.subset hlast, hseq⟩, fun event hevent hafter hle => ?_⟩
  have hold := mem_of_seq_le hlaw.numbered hevents hlast hevent (hseq ▸ hle)
  exact hcover event hold (hcursor ▸ hafter) hle

theorem reserved_covers {state : TeamState} {member : TeamMember} (hlaw : TeamLaw team)
    (hread : state.events <+: team.events) (hcursor : cursor = member.cursor)
    (hne : pendingOf state member ≠ []) :
    cursor < lastSeq (pendingOf state member) ∧
      (∃ last ∈ team.events, last.seq = lastSeq (pendingOf state member)) ∧
      ∀ event ∈ team.events, cursor < event.seq → event.seq ≤ lastSeq (pendingOf state member) →
        event ∈ pendingOf state member := by
  subst hcursor
  obtain ⟨last, hlast, hseq⟩ := lastSeq_mem hne
  obtain ⟨hstate, hafter⟩ := mem_filter.1 hlast
  rw [← hseq]
  refine ⟨of_decide_eq_true hafter, ⟨last, hread.subset hstate, rfl⟩, fun event hevent hgt hle => ?_⟩
  have hold := mem_of_seq_le hlaw.numbered hread hstate hevent hle
  exact mem_filter.2 ⟨hold, decide_eq_true hgt⟩

section Step
variable (hdocuments : Documents history world) (h : DeliveryLaw ids history world)
  (hmoved : Moved world moved) (hanswered : Answered ids moved exchange after)
  (hjustified : Justified (exchangesOf i history) exchange.call)

include hdocuments h hmoved hanswered hjustified in
theorem DeliveryLaw.step : DeliveryLaw ids (history ++ [(i, exchange)]) after := by
  have hdocuments' : Documents (history ++ [(i, exchange)]) after :=
    documents_step hmoved hanswered hdocuments
  refine ⟨?_, ?_, ?_⟩
  · intro n j self drawn hn
    rcases getElem?_snoc hn with ⟨-, hold⟩ | ⟨rfl, hlast⟩
    · exact h.drawn n j self drawn hold
    · obtain ⟨-, rfl⟩ := Prod.mk.inj hlast
      rw [Answered.drawn hanswered, hmoved.calls, hdocuments.calls]
  · intro j self id state hmem
    have hgrown : (∃ team ∈ world.stores.teams, team.id = id ∧ state.events <+: team.events) →
        ∃ team ∈ after.stores.teams, team.id = id ∧ state.events <+: team.events := by
      rintro ⟨team, hteam, rfl, hearlier⟩
      obtain ⟨team', hteam', hid, hstep⟩ := team_after hdocuments hmoved hanswered hteam
      exact ⟨team', hteam', hid, hearlier.trans (hstep.events (hdocuments.accepted team hteam))⟩
    rcases mem_append.1 hmem with hold | hnew
    · exact hgrown (h.read j self id state hold)
    obtain ⟨rfl, rfl⟩ := Prod.mk.inj (mem_singleton.1 hnew)
    obtain ⟨-, env, listing, -, hanswer⟩ := Answered.store hanswered
    obtain ⟨read, hread, hpair⟩ := map_eq_ok.1 hanswer
    obtain ⟨rfl, -⟩ := Prod.mk.inj hpair
    obtain ⟨hteam, hid, -⟩ := readState_ok hread
    exact hgrown ⟨read, hmoved.teams ▸ hteam, hid, prefix_rfl⟩
  · intro team' hteam' member' hmember' deliveryId throughSeq hholding
    have hlaw' := hdocuments'.law team' hteam'
    rcases team_before hdocuments hmoved hanswered hteam' with hcreated | ⟨team, hteam, hid, hstep⟩
    · obtain ⟨⟨platformId, env, actor, name, goal, maxTurns, -, rfl⟩, -⟩ := hcreated
      obtain rfl := mem_singleton.1 hmember'
      exact nomatch hholding
    · have haccepted := hdocuments.accepted team hteam
      have hevents := hstep.events haccepted
      have hkeep : ∀ member ∈ team.members, member'.id = member.id →
          member'.cursor = member.cursor → member.holding = some (deliveryId, throughSeq) →
          ReservedFor (history ++ [(i, exchange)]) team' member' deliveryId throughSeq :=
        fun member hmember hmemberId hcursor hheld =>
          (h.reserved team hteam member hmember deliveryId throughSeq hheld).extend
            (fun _ hmem => mem_append_left _ hmem) hid hmemberId hcursor hevents hlaw'
      cases hstep with
      | kept => exact hkeep member' hmember' rfl rfl hholding
      | updated self u result env team' hexchange hlive henv hmutate haccepted' =>
        obtain ⟨changed, added, hsplit, hforall, hadded⟩ :=
          (mutate_change (accepted_members haccepted) (accepted_tasks haccepted) hmutate).members
        rw [hsplit] at hmember'
        rcases mem_append.1 hmember' with hold | hnew
        · obtain ⟨n, hn, rfl⟩ := getElem_of_mem hold
          have hn' : n < team.members.length := hforall.length_eq ▸ hn
          have hchange := hforall.get hn' hn
          have hmember := getElem_mem hn'
          simp only [get_eq_getElem] at hchange
          cases hchange with
          | kept hsame hcursor hheld => exact hkeep _ hmember hsame hcursor (hheld ▸ hholding)
          | cleared hsame hcursor hnone | completed delivery lastId hsame hheld hu hcursor hnone =>
            unfold TeamMember.holding at hholding
            rw [hnone] at hholding
            exact nomatch hholding
          | reserved pending drawn baseline hsame hfree hactive hu hcursor hheld =>
            subst hu
            rw [hheld, Option.some.injEq, Prod.mk.injEq] at hholding
            obtain ⟨rfl, rfl⟩ := hholding
            rw [hexchange] at hjustified
            obtain ⟨⟨state, member, hread, hmem, hmemberId, hcursorRead, rfl, hne⟩, -⟩ :
              Reserving (exchangesOf i history) self team.id _ _ pending drawn := hjustified
            obtain ⟨team₂, hteam₂, hid₂, hearlier⟩ := h.read i self team.id state
              (mem_exchangesOf.1 hread)
            obtain rfl := inj_on_of_nodup_map hdocuments.unique hteam₂ hteam hid₂
            obtain ⟨hlt, hlast, hcover⟩ := reserved_covers hlaw' (hearlier.trans hevents)
              hcursorRead hne
            refine ⟨i, self, _, baseline, result, ?_, hcursor ▸ hlt, hlast, hcursor ▸ hcover⟩
            rw [hid, hsame, hcursor, hexchange]
            exact mem_append_right _ (mem_singleton_self _)
        · unfold TeamMember.holding at hholding
          rw [(hadded member' hnew).1] at hholding
          exact nomatch hholding

end Step

section

variable (h : Run (Serves (teamServe ids)) (startOf operations) history s)
include h

theorem delivery_run : DeliveryLaw ids history s.world := by
  refine h.history_invariant (I := fun history s => DeliveryLaw ids history s.world)
    (fun history s ⟨i, exchange⟩ t hrun hlaw hstep => ?_)
    ⟨nofun, nofun, nofun⟩
  obtain ⟨moved, hmoved, hanswered, hjustified⟩ := step_cases hrun hstep
  exact hlaw.step (documents_run hrun) hmoved hanswered hjustified

theorem reserve_once {before before' after after' : List (Nat × TeamExchange)} {i j : Nat}
    {other : TeamRuntime} {id' memberId' : String} {cursor' : Nat} {pending' : List TeamEvent}
    {baseline' : List String} {reserved' : Bool}
    (hi : history = before ++ (i, updateExchange self id
      (.reserve memberId cursor pending deliveryId baseline) reserved) :: after)
    (hj : history = before' ++ (j, updateExchange other id'
      (.reserve memberId' cursor' pending' deliveryId baseline') reserved') :: after') :
    before = before' ∧ id = id' ∧ memberId = memberId' ∧ cursor = cursor' ∧ pending = pending' := by
  have hdrawn := (delivery_run h).drawn
  have hrun := h
  rw [hi] at hrun
  have hrun' := h
  rw [hj] at hrun'
  obtain ⟨-, hlast⟩ : Reserving (exchangesOf i before) self id memberId cursor pending deliveryId :=
    justified_at hrun
  obtain ⟨-, hlast'⟩ :
    Reserving (exchangesOf j before') other id' memberId' cursor' pending' deliveryId :=
      justified_at hrun'
  obtain ⟨first, rest, rfl, hrest⟩ := exchangesOf_getLast hlast
  obtain ⟨first', rest', rfl, hrest'⟩ := exchangesOf_getLast hlast'
  rw [append_assoc, cons_append] at hi hj
  have hat : history[first.length]? = some (i, ownExchange self .randomUUID deliveryId) := by
    rw [hi, getElem?_append_right (Nat.le_refl _), Nat.sub_self]
    rfl
  have hat' : history[first'.length]? = some (j, ownExchange other .randomUUID deliveryId) := by
    rw [hj, getElem?_append_right (Nat.le_refl _), Nat.sub_self]
    rfl
  obtain ⟨hlength, -⟩ := ids.fresh _ _ _ _ ((hdrawn _ _ _ _ hat).symm.trans (hdrawn _ _ _ _ hat'))
  obtain ⟨rfl, hevents⟩ := append_inj (hi.symm.trans hj) hlength
  obtain ⟨hdraw, htail⟩ := List.cons.inj hevents
  obtain ⟨rfl, hself⟩ := Prod.mk.inj hdraw
  obtain ⟨rfl, hsame⟩ := firstExchange_unique htail hrest hrest'
  obtain ⟨-, rfl, hu⟩ := updateExchange_inj hsame
  simp only [TeamUpdate.reserve.injEq] at hu
  exact ⟨by rw [hself], rfl, hu.1, hu.2.1, hu.2.2.1⟩

theorem drawn_of_reserve {i : Nat}
    (hmem : (i, updateExchange self id (.reserve memberId cursor pending deliveryId baseline)
      reserved) ∈ history) : (i, ownExchange self .randomUUID deliveryId) ∈ history := by
  obtain ⟨before, after, rfl⟩ := append_of_mem hmem
  obtain ⟨-, hlast⟩ : Reserving (exchangesOf i before) self id memberId cursor pending deliveryId :=
    justified_at h
  exact mem_append_left _ (mem_exchangesOf.1 (mem_of_getLast? hlast))

theorem reserve_unique {i j : Nat}
    {other : TeamRuntime} {id' memberId' : String} {cursor' : Nat} {pending' : List TeamEvent}
    {baseline' : List String} {reserved' : Bool}
    (hi : (i, updateExchange self id (.reserve memberId cursor pending deliveryId baseline)
      reserved) ∈ history)
    (hj : (j, updateExchange other id' (.reserve memberId' cursor' pending' deliveryId baseline')
      reserved') ∈ history) :
    id = id' ∧ memberId = memberId' ∧ cursor = cursor' ∧ pending = pending' := by
  obtain ⟨before, after, hsplit⟩ := append_of_mem hi
  obtain ⟨before', after', hsplit'⟩ := append_of_mem hj
  exact (reserve_once h hsplit hsplit').2

end

end Reservations

/-- The first message with an id's marker is the message of a prompt sent for that id. -/
def MarkersArePrompts (history : List (Nat × TeamExchange)) : Prop :=
  ∀ (before : List (Nat × TeamExchange)) (i : Nat) (self : TeamRuntime) (sessionId : String)
    (messages : List Message) (after : List (Nat × TeamExchange)),
    history = before ++ (i, hostExchange self (.messages sessionId) messages) :: after →
      ∀ (k : Nat) (drawer : TeamRuntime) (deliveryId : String),
        (k, ownExchange drawer .randomUUID deliveryId) ∈ history →
          ∀ index, markerIndex messages deliveryId = some index →
            (∃ message, messages[index]? = some message ∧ message.info.role = "user") ∧
            ∃ (j : Nat) (sender : TeamRuntime) (prompt : TeamPrompt),
              (j, hostExchange sender (.sendPrompt prompt) ()) ∈ before ∧
                prompt.deliveryId = deliveryId

/-- A final turn that ended well started with a prompt of the delivery, or after one. -/
def TurnAfterPrompt (history : List (Nat × TeamExchange)) (i : Nat) (team : TeamState)
    (member : TeamMember) (delivery : TeamDelivery) (lastId : String) : Prop :=
  ∃ (self : TeamRuntime) (before after : List (Nat × TeamExchange)) (sessionId : String)
    (messages : List Message) (last : Message) (j : Nat) (sender : TeamRuntime)
    (prompt : TeamPrompt) (marked final start : Nat),
    history = before ++ (i, hostExchange self (.messages sessionId) messages) :: after ∧
    (j, hostExchange sender (.sendPrompt prompt) ()) ∈ before ∧ prompt.deliveryId = delivery.id ∧
    prompt.memberId = member.id ∧
    (∀ event ∈ team.events, member.cursor < event.seq → event.seq ≤ delivery.throughSeq →
      event ∈ prompt.events) ∧
    finalMessage messages = some last ∧ last.info.id = lastId ∧ last.failed = false ∧
    markerIndex messages delivery.id = some marked ∧ finalIndex messages last = some final ∧
    turnStart messages final = some start ∧ marked ≤ start ∧ start ≤ final

/-- Nothing, or a turn recorded after the prompt of the delivery the member holds. -/
inductive CursorStep (history : List (Nat × TeamExchange)) (event : Nat × TeamExchange)
    (team : TeamState) (member member' : TeamMember) : Prop where
  | kept (hcursor : member'.cursor = member.cursor)
  | moved (self : TeamRuntime) (delivery : TeamDelivery) (lastId : String)
      (hdelivery : member.delivery = some delivery)
      (hevent : event.2 = updateExchange self team.id
        (.recordTurn member.id (some delivery.id) lastId none) ())
      (hcursor : member'.cursor = delivery.throughSeq) (hlt : member.cursor < delivery.throughSeq)
      (hturn : TurnAfterPrompt history event.1 team member delivery lastId)

theorem turnStart_le {messages : List Message} {index start : Nat}
    (h : turnStart messages index = some start) : start ≤ index := by
  have hmem := mem_of_getLast? h
  exact Nat.le_of_lt_succ (mem_range.1 (mem_filter.1 hmem).1)

theorem not_failed_of_reason {last : Message} (h : failureReason last = none) :
    last.failed = false := by
  unfold failureReason at h
  split at h
  · exact nomatch h
  · next hfailed => exact Bool.eq_false_iff.2 hfailed

theorem delivered_some {messages : List Message} {delivery : TeamDelivery} {last : Message}
    (h : delivered messages (some delivery) last = true) :
    ∃ marked final, markerIndex messages delivery.id = some marked ∧
      finalIndex messages last = some final ∧ marked < final := by
  unfold delivered at h
  rw [Option.all_some] at h
  split at h
  · next marked final hmarked hfinal => exact ⟨marked, final, hmarked, hfinal, of_decide_eq_true h⟩
  · exact nomatch h

theorem turn_after_prompt (h : Run (Serves (teamServe ids)) (startOf operations) history s)
    (hmarkers : MarkersArePrompts history) {i : Nat} {self : TeamRuntime} {team : TeamState}
    {member : TeamMember} {delivery : TeamDelivery} {lastId : String}
    (hteam : team ∈ s.world.stores.teams) (hmember : member ∈ team.members)
    (hdelivery : member.delivery = some delivery)
    (hseen : TurnSeen (exchangesOf i history) self team.id member.id (some delivery.id) lastId none) :
    member.cursor < delivery.throughSeq ∧
      TurnAfterPrompt history i team member delivery lastId := by
  have hlaw := delivery_run h
  obtain ⟨state, read, sessionId, messages, last, -, -, -, -, hmessages, hfinal, hunrecorded, hid,
    rfl, hreason⟩ := hseen
  obtain ⟨known, hknown, hknownId⟩ := Option.map_eq_some_iff.1 hid.symm
  unfold unrecorded at hunrecorded
  simp only [Bool.and_eq_true] at hunrecorded
  rw [hknown] at hunrecorded
  obtain ⟨marked, final, hmarked, hfinalIndex, hlt⟩ := delivered_some hunrecorded.1.1
  rw [hknownId] at hmarked
  obtain ⟨before, after, hsplit⟩ := append_of_mem (mem_exchangesOf.1 hmessages)
  obtain ⟨k, holder, pending, baseline', reserved, hheld, hcursor, -, hcover⟩ :=
    hlaw.reserved team hteam member hmember delivery.id delivery.throughSeq
      (by rw [TeamMember.holding, hdelivery]; rfl)
  obtain ⟨⟨message, hat, huser⟩, j, sender, prompt, hsent, hprompt⟩ :=
    hmarkers before i self sessionId messages after hsplit k holder delivery.id
      (drawn_of_reserve h hheld) marked hmarked
  obtain ⟨start, hstart, hle⟩ := le_turnStart hat huser (Nat.le_of_lt hlt)
  -- The prompt's events are those its id was reserved for, by the one call that reserved it.
  obtain ⟨earlier, later, hsplit'⟩ := append_of_mem
    (show (j, hostExchange sender (.sendPrompt prompt) ()) ∈ history from
      hsplit ▸ mem_append_left _ hsent)
  have hrun := h
  rw [hsplit'] at hrun
  obtain ⟨⟨id, cursor, reserver, baseline, hreserve⟩, -⟩ :
    Prompting (exchangesOf j earlier) sender prompt := justified_at hrun
  have hreserve' := mem_exchangesOf.1 hreserve
  have hreserve'' : (j, updateExchange reserver id
      (.reserve prompt.memberId cursor prompt.events delivery.id baseline) true) ∈ history := by
    rw [hsplit', ← hprompt]
    exact mem_append_left _ hreserve'
  obtain ⟨-, hmemberId, -, rfl⟩ := reserve_unique h hheld hreserve''
  exact ⟨hcursor, self, before, after, sessionId, messages, last, j, sender, prompt, marked, final,
    start, hsplit, hsent, hprompt, hmemberId.symm, hcover, hfinal, rfl, not_failed_of_reason hreason.symm, hmarked,
    hfinalIndex, hstart, hle, turnStart_le hstart⟩

/-- A cursor never decreases, and moves over events only after a turn whose prompt had them. -/
theorem cursor_moves_after_turn (h : Run (Serves (teamServe ids)) (startOf operations) history s)
    (hmarkers : MarkersArePrompts history) {event : Nat × TeamExchange}
    (hstep : Serves (teamServe ids) s event t) :
    ∀ team ∈ s.world.stores.teams, ∃ team' ∈ t.world.stores.teams, team'.id = team.id ∧
      ∀ member ∈ team.members, ∃ member' ∈ team'.members, member'.id = member.id ∧
        member.cursor ≤ member'.cursor ∧ CursorStep history event team member member' := by
  obtain ⟨i, exchange⟩ := event
  have hdocuments := documents_run h
  intro team hteam
  obtain ⟨moved, hmoved, hanswered, hjustified⟩ := step_cases h hstep
  obtain ⟨team', hteam', hid, hchanged⟩ := team_after hdocuments hmoved hanswered hteam
  refine ⟨team', hteam', hid, fun member hmember => ?_⟩
  cases hchanged with
  | kept => exact ⟨member, hmember, rfl, Nat.le_refl _, .kept rfl⟩
  | updated self u result env team' hexchange hlive henv hmutate haccepted =>
    have hbefore := hdocuments.accepted team hteam
    obtain ⟨changed, added, hsplit, hforall, -⟩ :=
      (mutate_change (accepted_members hbefore) (accepted_tasks hbefore) hmutate).members
    obtain ⟨n, hn, rfl⟩ := getElem_of_mem hmember
    have hn' : n < changed.length := hforall.length_eq ▸ hn
    have hchange := hforall.get hn hn'
    simp only [get_eq_getElem] at hchange
    refine ⟨changed[n], hsplit ▸ mem_append_left _ (getElem_mem hn'), ?_⟩
    cases hchange with
    | kept hsame hcursor hholding =>
      exact ⟨hsame, Nat.le_of_eq hcursor.symm, .kept hcursor⟩
    | cleared hsame hcursor hnone => exact ⟨hsame, Nat.le_of_eq hcursor.symm, .kept hcursor⟩
    | reserved pending drawn baseline hsame hfree hactive hu hcursor hholding =>
      exact ⟨hsame, Nat.le_of_eq hcursor.symm, .kept hcursor⟩
    | completed delivery lastId hsame hheld hu hcursor hnone =>
      subst hu
      rw [hexchange] at hjustified
      obtain ⟨hlt, hturn⟩ := turn_after_prompt h hmarkers hteam hmember hheld hjustified
      exact ⟨hsame, hcursor ▸ Nat.le_of_lt hlt,
        .moved self delivery lastId hheld hexchange hcursor hlt hturn⟩

def readTranscript : TeamExchange → Option (List Message)
  | ⟨⟨_, .host (.messages _)⟩, answer⟩ =>
    match (answer : Except String (List Message)) with
    | .ok messages => some messages
    | .error _ => none
  | _ => none

def drawnId : TeamExchange → Option String
  | ⟨⟨_, .own .randomUUID⟩, answer⟩ =>
    match (answer : Except String String) with
    | .ok drawn => some drawn
    | .error _ => none
  | _ => none

def sentPrompt : TeamExchange → Option (TeamRuntime × TeamPrompt)
  | ⟨⟨self, .host (.sendPrompt prompt)⟩, answer⟩ =>
    match (answer : Except String Unit) with
    | .ok _ => some (self, prompt)
    | .error _ => none
  | _ => none

theorem sentPrompt_ok {exchange : TeamExchange} {sender : TeamRuntime} {prompt : TeamPrompt}
    (h : sentPrompt exchange = some (sender, prompt)) :
    exchange = hostExchange sender (.sendPrompt prompt) () := by
  unfold sentPrompt at h
  split at h
  · next self sent answer =>
    cases answer with
    | ok u =>
      obtain ⟨rfl, rfl⟩ := Prod.mk.inj (Option.some.inj h)
      rfl
    | error error => exact nomatch h
  · exact nomatch h

def markersArePrompts (history : List (Nat × TeamExchange)) : Bool :=
  (range history.length).all fun n =>
    ((history[n]?).bind fun event => readTranscript event.2).all fun messages =>
      (history.filterMap fun event => drawnId event.2).all fun deliveryId =>
        (markerIndex messages deliveryId).all fun index =>
          (messages[index]?).any (fun message => message.info.role = "user") &&
            (history.take n).any fun event =>
              (sentPrompt event.2).any fun sent => sent.2.deliveryId = deliveryId

theorem markersArePrompts_ok (h : markersArePrompts history = true) : MarkersArePrompts history := by
  intro before i self sessionId messages after hsplit k drawer deliveryId hdrawn index hindex
  have hn : before.length < history.length := by
    rw [hsplit, length_append, length_cons]
    omega
  have hat : history[before.length]? = some (i, hostExchange self (.messages sessionId) messages) := by
    rw [hsplit, getElem?_append_right (Nat.le_refl _), Nat.sub_self]
    rfl
  have hplace := all_eq_true.1 h before.length (mem_range.2 hn)
  rw [hat] at hplace
  have hids := all_eq_true.1 hplace deliveryId
    (mem_filterMap.2 ⟨_, hdrawn, rfl⟩)
  rw [hindex, Option.all_some, Bool.and_eq_true] at hids
  obtain ⟨huser, hsent⟩ := hids
  obtain ⟨message, hmessage, hrole⟩ := (Option.any_eq_true _ _).1 huser
  obtain ⟨⟨j, sent⟩, hbefore, hprompt⟩ := any_eq_true.1 hsent
  obtain ⟨⟨sender, prompt⟩, hsender, hid⟩ := (Option.any_eq_true _ _).1 hprompt
  obtain rfl := sentPrompt_ok hsender
  have htake : history.take before.length = before := by
    rw [hsplit, take_left]
  exact ⟨⟨message, hmessage, of_decide_eq_true hrole⟩, j, sender, prompt, htake ▸ hbefore,
    of_decide_eq_true hid⟩

def cursors (s : TeamSystem) : List (List Nat) :=
  s.world.stores.teams.map fun team => team.members.map TeamMember.cursor

theorem cursor_moves_after_turn_desk :
    ∃ history s event t, Run (Serves (teamServe .counted)) (startOf deskOperations) history s ∧
      Serves (teamServe .counted) s event t ∧ cursors s = [[0, 0]] ∧ cursors t = [[0, 3]] ∧
      ∀ team ∈ s.world.stores.teams, ∃ team' ∈ t.world.stores.teams, team'.id = team.id ∧
        ∀ member ∈ team.members, ∃ member' ∈ team'.members, member'.id = member.id ∧
          member.cursor ≤ member'.cursor ∧ CursorStep history event team member member' := by
  have hplay : (play .counted (startOf deskOperations) deskScript).bind (fun played =>
      (playCall .counted played.2 4 [] (deskMoment (FreshIds.counted.uuid 26 0))).map fun next =>
        (markersArePrompts played.1, cursors played.2, cursors next.2)) =
      some (true, [[0, 0]], [[0, 3]]) := by
    decide +kernel
  obtain ⟨⟨history, s⟩, hrun, hnext⟩ := Option.bind_eq_some_iff.1 hplay
  obtain ⟨⟨event, t⟩, hserves, hcursors⟩ := Option.map_eq_some_iff.1 hnext
  simp only [Prod.mk.injEq] at hcursors
  exact ⟨history, s, event, t, play_run hrun, playCall_serves hserves, hcursors.2.1, hcursors.2.2,
    cursor_moves_after_turn (play_run hrun) (markersArePrompts_ok hcursors.1)
      (playCall_serves hserves)⟩
end Rolebox.Team
