import Rolebox.Team.SessionLease

/-! A session is prompted by one team at a time where no running delivery is dropped. -/

namespace Rolebox.Team
open General List Option

variable {ids : FreshIds} {operations : List (TeamRuntime × TeamOperation)}
  {history : List (Nat × TeamExchange)} {s t : TeamSystem} {i : Nat} {exchange : TeamExchange}

section Leases

inductive LeaseStep (world : TeamWorld) (exchange : TeamExchange) (stores : TeamStores) : Prop where
  | kept (hleases : stores.leases = world.stores.leases)
      (hlock : stores.scheduler = world.stores.scheduler)
      (hacquired : stores.acquired = world.stores.acquired)
  | opened (self : TeamRuntime) (hleases : stores.leases = world.stores.leases)
      (hlock : stores.scheduler = some (self.ref, world.calls))
      (hacquired : stores.acquired = world.stores.acquired)
  | committed (self : TeamRuntime) (transaction : Nat) (key : SessionKey) (deliveryId : String)
      (hexchange : exchange = storeExchange self (.commitLease transaction key deliveryId) ())
      (hheld : world.stores.scheduler = some (self.ref, transaction))
      (hleases : stores.leases =
        (key, deliveryId) :: world.stores.leases.filter fun lease => lease.1 ≠ key)
      (hlock : stores.scheduler = none)
      (hacquired : stores.acquired = world.stores.acquired ++ [(key, deliveryId)])
  | closed (hleases : stores.leases = world.stores.leases) (hlock : stores.scheduler = none)
      (hacquired : stores.acquired = world.stores.acquired)
  | dropped (self : TeamRuntime) (key : SessionKey) (deliveryId : String)
      (hexchange : exchange = storeExchange self (.releaseSession key deliveryId) ())
      (hleases : stores.leases = world.stores.leases.filter fun lease => lease ≠ (key, deliveryId))
      (hlock : stores.scheduler = none) (hacquired : stores.acquired = world.stores.acquired)

theorem Answered.leaseStep {world after : TeamWorld} (h : Answered ids world exchange after) :
    LeaseStep world exchange after.stores := by
  cases h with
  | failed call error | sent self prompt hlive | aborted self sessionId
  | host self op result hprompt => exact .kept rfl rfl rfl
  | stored self op result stores env listing hlive henv hanswer =>
    cases op with
    | update id u =>
      obtain ⟨_, _, _, _, _, _, rfl⟩ := updateTeam_changed hanswer
      exact .kept rfl rfl rfl
    | create actor name goal maxTurns =>
      obtain ⟨-, -, hleases, hlock, hacquired⟩ := createTeam_ok henv hanswer
      exact .kept hleases hlock hacquired
    | teamIds =>
      obtain ⟨-, rfl⟩ := listTeamIds_ok hanswer
      exact .kept rfl rfl rfl
    | read id =>
      obtain ⟨_, _, hpair⟩ := map_eq_ok.1 hanswer
      obtain rfl := (Prod.mk.inj hpair).2
      exact .kept rfl rfl rfl
    | openLease key =>
      obtain ⟨-, -, rfl⟩ := openLease_ok hanswer
      exact .opened self rfl rfl rfl
    | commitLease transaction key deliveryId =>
      obtain ⟨hheld, rfl⟩ := commitLease_ok hanswer
      exact .committed self transaction key deliveryId rfl hheld rfl rfl rfl
    | closeLease transaction =>
      obtain rfl := closeLease_ok hanswer
      exact .closed rfl rfl rfl
    | releaseSession key deliveryId =>
      obtain ⟨hfree, rfl⟩ := dropLease_ok hanswer
      exact .dropped self key deliveryId rfl rfl hfree rfl
  | own self moment op =>
    cases op with
    | setPumping pumping => cases pumping <;> exact .kept rfl rfl rfl
    | setRemoving memberId removing => cases removing <;> exact .kept rfl rfl rfl
    | _ => exact .kept rfl rfl rfl

structure LeaseHistory (history : List (Nat × TeamExchange)) (world : TeamWorld) : Prop where
  opened : ∀ (n i : Nat) (self : TeamRuntime) (key : SessionKey) (transaction : Nat)
    (lease : Option String),
    history[n]? = some (i, storeExchange self (.openLease key) (transaction, lease)) →
      transaction = n
  locked : ∀ (i : Nat) (self : TeamRuntime) (key : SessionKey) (transaction : Nat)
    (lease : Option String),
    (i, storeExchange self (.openLease key) (transaction, lease)) ∈ history →
      world.stores.scheduler = some (self.ref, transaction) → world.stores.leases.lookup key = lease
  leased : ∀ entry ∈ world.stores.leases, entry ∈ world.stores.acquired
  acquired : ∀ key deliveryId, (key, deliveryId) ∈ world.stores.acquired →
    ∃ id memberId, ReservedOn history id memberId deliveryId
  committed : ∀ (i : Nat) (self : TeamRuntime) (transaction : Nat) (key : SessionKey)
    (deliveryId : String),
    (i, storeExchange self (.commitLease transaction key deliveryId) ()) ∈ history →
      (key, deliveryId) ∈ world.stores.acquired

theorem LeaseFree.reserved {self : TeamRuntime} {transaction : Nat} {key : SessionKey}
    {deliveryId : String} (h : LeaseFree (exchangesOf i history) self transaction key deliveryId) :
    ∃ id memberId, ReservedOn history id memberId deliveryId := by
  obtain ⟨before, lease, ⟨more, hsplit, -⟩, ⟨id, memberId, cursor, pending, holder, baseline, hmem⟩, -⟩ := h
  exact ⟨id, memberId, i, holder, cursor, pending, baseline, true,
    mem_exchangesOf.1 (hsplit ▸ mem_append_left more hmem)⟩

variable {world moved after : TeamWorld}

section Step
variable (hdocuments : Documents history world) (h : LeaseHistory history world)
  (hmoved : Moved world moved) (hanswered : Answered ids moved exchange after)
  (hjustified : Justified (exchangesOf i history) exchange.call)

include hdocuments h hmoved hanswered in
theorem opened_step {n j : Nat} {self : TeamRuntime} {key : SessionKey} {transaction : Nat}
    {lease : Option String}
    (hn : (history ++ [(i, exchange)])[n]? =
      some (j, storeExchange self (.openLease key) (transaction, lease))) : transaction = n := by
  rcases getElem?_snoc hn with ⟨-, hold⟩ | ⟨rfl, hlast⟩
  · exact h.opened n j self key transaction lease hold
  · obtain ⟨-, rfl⟩ := Prod.mk.inj hlast
    obtain ⟨-, env, listing, -, hanswer⟩ := Answered.store hanswered
    obtain ⟨-, hpair, -⟩ := openLease_ok hanswer
    rw [(Prod.mk.inj hpair).1, hmoved.calls, hdocuments.calls]

include hdocuments h hmoved hanswered in
theorem locked_step {j : Nat} {self : TeamRuntime} {key : SessionKey} {transaction : Nat}
    {lease : Option String}
    (hmem : (j, storeExchange self (.openLease key) (transaction, lease)) ∈ history ++ [(i, exchange)])
    (hlock : after.stores.scheduler = some (self.ref, transaction)) :
    after.stores.leases.lookup key = lease := by
  rcases mem_append.1 hmem with hold | hnew
  · have hkept : moved.stores.scheduler = some (self.ref, transaction) →
        moved.stores.leases.lookup key = lease := fun hbefore =>
      hmoved.leases ▸ h.locked j self key transaction lease hold (hmoved.locked _ hbefore)
    cases hanswered.leaseStep with
    | kept hleases hsame hacquired => exact hleases ▸ hkept (hsame ▸ hlock)
    | opened other hleases hnew hacquired =>
      -- The open transaction is the new one, and an older one has a smaller number.
      rw [hnew, some.injEq, Prod.mk.injEq] at hlock
      obtain ⟨n, hn⟩ := mem_iff_getElem?.1 hold
      have hnumber := h.opened n j self key transaction lease hn
      have hlt := (List.getElem?_eq_some_iff.1 hn).1
      have hcalls : moved.calls = history.length := hmoved.calls.trans hdocuments.calls
      omega
    | committed other transaction' key' deliveryId hexchange hheld hleases hnone hacquired =>
      exact nomatch hnone.symm.trans hlock
    | closed hleases hnone hacquired => exact nomatch hnone.symm.trans hlock
    | dropped other key' deliveryId hexchange hleases hnone hacquired =>
      exact nomatch hnone.symm.trans hlock
  · obtain ⟨rfl, rfl⟩ := Prod.mk.inj (mem_singleton.1 hnew)
    obtain ⟨-, env, listing, -, hanswer⟩ := Answered.store hanswered
    obtain ⟨-, hpair, hstores⟩ := openLease_ok hanswer
    rw [hstores, (Prod.mk.inj hpair).2]

include hdocuments h hmoved hanswered hjustified in
theorem LeaseHistory.step : LeaseHistory (history ++ [(i, exchange)]) after := by
  have hreserved : ∀ key deliveryId, (key, deliveryId) ∈ moved.stores.acquired →
      ∃ id memberId, ReservedOn (history ++ [(i, exchange)]) id memberId deliveryId := by
    intro key deliveryId hmem
    obtain ⟨id, memberId, hold⟩ := h.acquired key deliveryId (hmoved.acquired ▸ hmem)
    exact ⟨id, memberId, hold.append⟩
  have hleased : ∀ entry ∈ moved.stores.leases, entry ∈ moved.stores.acquired := fun entry hmem =>
    hmoved.acquired ▸ h.leased entry (hmoved.leases ▸ hmem)
  have hgrown : ∀ entry ∈ moved.stores.acquired, entry ∈ after.stores.acquired := by
    intro entry hmem
    cases hanswered.leaseStep with
    | kept hleases hlock hacquired | opened other hleases hlock hacquired
    | closed hleases hlock hacquired
    | dropped other key deliveryId hexchange hleases hlock hacquired => exact hacquired ▸ hmem
    | committed other transaction key deliveryId hexchange hheld hleases hlock hacquired =>
      exact hacquired ▸ mem_append_left _ hmem
  refine ⟨fun n j self key transaction lease => opened_step hdocuments h hmoved hanswered,
    fun j self key transaction lease => locked_step hdocuments h hmoved hanswered, ?_, ?_, ?_⟩
  · intro entry hmem
    cases hanswered.leaseStep with
    | kept hleases hlock hacquired | opened other hleases hlock hacquired
    | closed hleases hlock hacquired => exact hgrown entry (hleased entry (hleases ▸ hmem))
    | committed other transaction key deliveryId hexchange hheld hleases hlock hacquired =>
      rw [hleases] at hmem
      rw [hacquired]
      rcases mem_cons.1 hmem with rfl | hold
      · exact mem_append_right _ (mem_singleton_self _)
      · exact mem_append_left _ (hleased entry (mem_filter.1 hold).1)
    | dropped other key deliveryId hexchange hleases hlock hacquired =>
      rw [hleases] at hmem
      exact hgrown entry (hleased entry (mem_filter.1 hmem).1)
  · intro key deliveryId hmem
    cases hanswered.leaseStep with
    | kept hleases hlock hacquired | opened other hleases hlock hacquired
    | closed hleases hlock hacquired => exact hreserved key deliveryId (hacquired ▸ hmem)
    | committed other transaction key' deliveryId' hexchange hheld hleases hlock hacquired =>
      rw [hacquired] at hmem
      rcases mem_append.1 hmem with hold | hnew
      · exact hreserved key deliveryId hold
      obtain ⟨rfl, rfl⟩ := Prod.mk.inj (mem_singleton.1 hnew)
      rw [hexchange] at hjustified
      obtain ⟨id, memberId, hnow⟩ := LeaseFree.reserved hjustified
      exact ⟨id, memberId, hnow.append⟩
    | dropped other key' deliveryId' hexchange hleases hlock hacquired =>
      exact hreserved key deliveryId (hacquired ▸ hmem)
  · intro j self transaction key deliveryId hmem
    rcases mem_append.1 hmem with hold | hnew
    · exact hgrown _ (hmoved.acquired ▸ h.committed j self transaction key deliveryId hold)
    obtain ⟨rfl, rfl⟩ := Prod.mk.inj (mem_singleton.1 hnew)
    obtain ⟨-, env, listing, -, hanswer⟩ := Answered.store hanswered
    obtain ⟨-, hstores⟩ := commitLease_ok hanswer
    rw [hstores]
    exact mem_append_right _ (mem_singleton_self _)

end Step

theorem lease_run (h : Run (Serves (teamServe ids)) (startOf operations) history s) :
    LeaseHistory history s.world := by
  refine h.history_invariant (I := fun history s => LeaseHistory history s.world)
    (fun history s ⟨i, exchange⟩ t hrun hlaw hstep => ?_)
    ⟨nofun, nofun, nofun, nofun, nofun⟩
  obtain ⟨moved, hmoved, hanswered, hjustified⟩ := step_cases hrun hstep
  exact hlaw.step (documents_run hrun) hmoved hanswered hjustified

end Leases

section Owner
variable {key : SessionKey} {deliveryId : String}

section

variable (h : Run (Serves (teamServe ids)) (startOf operations) history s)
include h

theorem Named.before (hstep : Serves (teamServe ids) s (i, exchange) t) {id memberId : String}
    (hreserved : ReservedOn history id memberId deliveryId) (hnamed : Named t.world deliveryId) :
    Named s.world deliveryId := by
  have hholding := hnamed.holding (h.snoc hstep) hreserved.append
  have hbefore : Holding s.world id memberId deliveryId :=
    not_not.1 fun hnot => not_holding_step h hstep hreserved hnot hholding
  obtain ⟨team, hteam, -, member, hmember, -, hholds⟩ := hbefore
  exact ⟨team, hteam, member, hmember, hholds⟩

theorem taken_over {self : TeamRuntime} {transaction : Nat} {taker : String}
    (hfree : LeaseFree (exchangesOf i history) self transaction key taker)
    (hlock : s.world.stores.scheduler = some (self.ref, transaction))
    (hlease : s.world.stores.leases.lookup key = some deliveryId) (hne : deliveryId ≠ taker) :
    ¬ Named s.world deliveryId := by
  obtain ⟨before, lease, ⟨more, hsplit, hopen⟩, -, hholder⟩ := hfree
  have hmem : (i, storeExchange self (.openLease key) (transaction, lease)) ∈ history :=
    mem_exchangesOf.1 (hsplit ▸ mem_append_right _ hopen)
  obtain rfl : some deliveryId = lease :=
    hlease.symm.trans ((lease_run h).locked i self key transaction lease hmem hlock)
  have hunnamed := hholder deliveryId rfl hne
  -- The lease was opened right after `before`: everything `Unnamed` speaks of came after it.
  obtain ⟨listed, ⟨rest, hrest, hlisted⟩, -⟩ := id hunnamed
  rw [append_assoc, singleton_append] at hrest
  obtain ⟨first, after, rfl, hfirst, -⟩ := exchangesOf_split hrest
  obtain ⟨m, hbefore, hafter⟩ := h.split
  cases hafter with
  | cons hstep _ =>
    obtain ⟨moved, hmoved, hanswered, -⟩ := step_cases hbefore hstep
    obtain ⟨-, env, listing, -, hanswer⟩ := Answered.store hanswered
    obtain ⟨-, hpair, -⟩ := openLease_ok hanswer
    have hlooked : m.world.stores.leases.lookup key = some deliveryId :=
      hmoved.leases ▸ (Prod.mk.inj hpair).2.symm
    have hlaw := lease_run hbefore
    obtain ⟨id, memberId, hreserved⟩ :=
      hlaw.acquired key deliveryId (hlaw.leased _ (mem_of_lookup hlooked))
    exact unnamed_not_named h hreserved (hfirst ▸ hunnamed)

theorem owned_run :
    ∀ key deliveryId, (key, deliveryId) ∈ s.world.stores.acquired → Named s.world deliveryId →
      s.world.stores.leases.lookup key = some deliveryId := by
  refine h.history_invariant (I := fun _ s => ∀ key deliveryId,
      (key, deliveryId) ∈ s.world.stores.acquired → Named s.world deliveryId →
        s.world.stores.leases.lookup key = some deliveryId)
    (fun history s ⟨i, exchange⟩ t hrun howned hstep => ?_) (nofun)
  intro key deliveryId hmem hnamed
  obtain ⟨moved, hmoved, hanswered, hjustified⟩ := step_cases hrun hstep
  have hold : (key, deliveryId) ∈ moved.stores.acquired →
      Named s.world deliveryId ∧ moved.stores.leases.lookup key = some deliveryId := by
    intro hbefore
    have hacquired : (key, deliveryId) ∈ s.world.stores.acquired := hmoved.acquired ▸ hbefore
    obtain ⟨id, memberId, hreserved⟩ := (lease_run hrun).acquired key deliveryId hacquired
    have hthen := hnamed.before hrun hstep hreserved
    exact ⟨hthen, hmoved.leases ▸ howned key deliveryId hacquired hthen⟩
  cases hanswered.leaseStep with
  | kept hleases hlock hacquired | opened other hleases hlock hacquired
  | closed hleases hlock hacquired => exact hleases ▸ (hold (hacquired ▸ hmem)).2
  | committed other transaction key' taker hexchange hheld hleases hlock hacquired =>
    rw [hexchange] at hjustified
    rw [hleases, lookup_cons]
    rw [hacquired] at hmem
    by_cases hkey : key = key'
    · subst hkey
      rw [beq_self_eq_true]
      rcases mem_append.1 hmem with hbefore | hnew
      · obtain ⟨hthen, hlease⟩ := hold hbefore
        by_cases hsame : deliveryId = taker
        · exact congrArg some hsame.symm
        · exact absurd hthen
            (taken_over hrun hjustified (hmoved.locked _ hheld) (hmoved.leases ▸ hlease) hsame)
      · exact congrArg some (Prod.mk.inj (mem_singleton.1 hnew)).2.symm
    · have hbeq : (key == key') = false := beq_false_of_ne hkey
      rw [hbeq, lookup_filter_other hkey]
      rcases mem_append.1 hmem with hbefore | hnew
      · exact (hold hbefore).2
      · exact absurd (Prod.mk.inj (mem_singleton.1 hnew)).1 hkey
  | dropped other key' dropped hexchange hleases hlock hacquired =>
    rw [hexchange] at hjustified
    obtain ⟨hthen, hlease⟩ := hold (hacquired ▸ hmem)
    rw [hleases]
    refine lookup_filter_entry hlease fun hentry => ?_
    obtain ⟨rfl, rfl⟩ := Prod.mk.inj hentry
    exact givenUp_not_named hrun hjustified hthen

end

end Owner

/-- The delivery a call takes a session for: by its lease, or by its prompt. -/
def engages : TeamOp → Option String
  | .store (.commitLease _ _ deliveryId) => some deliveryId
  | .host (.sendPrompt prompt) => some prompt.deliveryId
  | _ => none

/-- A session is taken for a named delivery, and none that runs on one was dropped. -/
structure Careful (s : TeamSystem) (event : Nat × TeamExchange) (t : TeamSystem) : Prop where
  engaged : ∀ deliveryId ∈ engages event.2.call.op, Named s.world deliveryId
  dropped : ∀ lease ∈ s.world.stores.acquired, Named s.world lease.2 →
    Named t.world lease.2 ∨ lease.2 ∈ t.world.settled

/-- A prompt goes to a session whose other deliveries have ended or were stopped. -/
def SoleDelivery (history : List (Nat × TeamExchange)) (s : TeamSystem)
    (event : Nat × TeamExchange) (t : TeamSystem) : Prop :=
  ∀ (self : TeamRuntime) (prompt : TeamPrompt), event.2 = hostExchange self (.sendPrompt prompt) () →
    ∀ other, (self.sessionKey prompt.sessionId, other) ∈ s.world.stores.acquired →
      ∀ id memberId id' memberId', ReservedOn history id memberId prompt.deliveryId →
        ReservedOn history id' memberId' other → id ≠ id' → other ∈ t.world.settled

theorem Answered.settled {world after : TeamWorld} (h : Answered ids world exchange after) :
    world.settled ⊆ after.settled := by
  cases h with
  | own self moment op =>
    cases op with
    | setPumping pumping => cases pumping <;> exact fun _ => id
    | setRemoving memberId removing => cases removing <;> exact fun _ => id
    | _ => exact fun _ => id
  | aborted self sessionId => exact subset_append_left _ _
  | _ => exact fun _ => id

abbrev CarefulStep (ids : FreshIds) (s : TeamSystem) (event : Nat × TeamExchange) (t : TeamSystem) :
    Prop :=
  Serves (teamServe ids) s event t ∧ Careful s event t

theorem careful_run (h : Run (CarefulStep ids) (startOf operations) history s) :
    ∀ lease ∈ s.world.stores.acquired, lease.2 ∈ s.world.settled ∨ Named s.world lease.2 := by
  refine h.history_invariant (I := fun _ s => ∀ lease ∈ s.world.stores.acquired,
      lease.2 ∈ s.world.settled ∨ Named s.world lease.2)
    (fun history s ⟨i, exchange⟩ t hrun hkept hstep => ?_) (nofun)
  obtain ⟨hserves, hcareful⟩ := hstep
  have hplain := hrun.mono fun _ _ _ hstep => hstep.1
  obtain ⟨moved, hmoved, hanswered, -⟩ := step_cases hplain hserves
  intro lease hmem
  have hold : lease ∈ moved.stores.acquired →
      lease.2 ∈ t.world.settled ∨ Named t.world lease.2 := by
    intro hbefore
    rw [hmoved.acquired] at hbefore
    rcases hkept lease hbefore with hsettled | hnamed
    · exact .inl (hanswered.settled (hmoved.settled hsettled))
    · exact (hcareful.dropped lease hbefore hnamed).symm
  cases hanswered.leaseStep with
  | kept hleases hlock hacquired | opened other hleases hlock hacquired
  | closed hleases hlock hacquired
  | dropped other key dropped hexchange hleases hlock hacquired => exact hold (hacquired ▸ hmem)
  | committed other transaction key taker hexchange hheld hleases hlock hacquired =>
    rw [hacquired] at hmem
    rcases mem_append.1 hmem with hbefore | hnew
    · exact hold hbefore
    obtain rfl := mem_singleton.1 hnew
    right
    subst hexchange
    obtain ⟨team, hteam, member, hmember, hholds⟩ := hcareful.engaged taker rfl
    obtain ⟨-, env, listing, -, hanswer⟩ := Answered.store hanswered
    obtain ⟨-, hstores⟩ := commitLease_ok hanswer
    have hteams : t.world.stores.teams = s.world.stores.teams := by
      rw [hstores]
      exact hmoved.teams
    exact ⟨team, hteams ▸ hteam, member, hmember, hholds⟩

/-- In careful runs every prompt goes to a session no other team's delivery runs on. -/
theorem sole_delivery_of_careful (h : Run (CarefulStep ids) (startOf operations) history s)
    {event : Nat × TeamExchange} (hstep : Serves (teamServe ids) s event t)
    (hcareful : Careful s event t) : SoleDelivery history s event t := by
  obtain ⟨i, exchange⟩ := event
  intro self prompt hevent other hother id memberId id' memberId' hreserved hreserved' hne
  obtain rfl : exchange = hostExchange self (.sendPrompt prompt) () := hevent
  have hrun := h.mono fun _ _ _ hstep => hstep.1
  obtain ⟨moved, hmoved, hanswered, hjustified⟩ := step_cases hrun hstep
  obtain ⟨-, transaction, hcommit⟩ : Prompting (exchangesOf i history) self prompt := hjustified
  have hacquired := (lease_run hrun).committed i self transaction _ _ (mem_exchangesOf.1 hcommit)
  have hlease := owned_run hrun _ _ hacquired (hcareful.engaged prompt.deliveryId rfl)
  rcases careful_run h _ hother with hsettled | hnamed
  · exact hanswered.settled (hmoved.settled hsettled)
  have hsame : prompt.deliveryId = other :=
    Option.some.inj (hlease.symm.trans (owned_run hrun _ _ hother hnamed))
  rw [← hsame] at hreserved'
  exact absurd (hreserved.unique hrun hreserved').1 hne

def reservation : TeamExchange → Option (String × String × String)
  | ⟨⟨_, .store (.update id (.reserve memberId _ _ deliveryId _))⟩, answer⟩ =>
    match (answer : Except String Bool) with
    | .ok _ => some (id, memberId, deliveryId)
    | .error _ => none
  | _ => none

theorem reservedOn_of {id memberId deliveryId : String}
    (h : (id, memberId, deliveryId) ∈ history.filterMap fun event => reservation event.2) :
    ReservedOn history id memberId deliveryId := by
  obtain ⟨⟨j, exchange⟩, hmem, hreserved⟩ := mem_filterMap.1 h
  simp only at hreserved
  unfold reservation at hreserved
  split at hreserved
  · next self id' memberId' cursor pending deliveryId' baseline answer =>
    cases answer with
    | ok reserved =>
      simp only [some.injEq, Prod.mk.injEq] at hreserved
      obtain ⟨rfl, rfl, rfl⟩ := hreserved
      exact ⟨j, self, cursor, pending, baseline, reserved, hmem⟩
    | error error => exact nomatch hreserved
  · exact nomatch hreserved

instance (world : TeamWorld) (deliveryId : String) : Decidable (Named world deliveryId) :=
  inferInstanceAs (Decidable (∃ team ∈ world.stores.teams, ∃ member ∈ team.members, _))

instance (s : TeamSystem) (event : Nat × TeamExchange) (t : TeamSystem) :
    Decidable (Careful s event t) :=
  decidable_of_iff
    ((∀ deliveryId ∈ engages event.2.call.op, Named s.world deliveryId) ∧
      ∀ lease ∈ s.world.stores.acquired, Named s.world lease.2 →
        Named t.world lease.2 ∨ lease.2 ∈ t.world.settled)
    ⟨fun ⟨hengaged, hdropped⟩ => ⟨hengaged, hdropped⟩, fun h => ⟨h.engaged, h.dropped⟩⟩

def playCareful (ids : FreshIds) : TeamSystem → List (Nat × List TeamMove × Moment) →
    Option (List (Nat × TeamExchange) × TeamSystem) :=
  playIf ids fun s event t => decide (Careful s event t)

theorem playCareful_run {script : List (Nat × List TeamMove × Moment)}
    {events : List (Nat × TeamExchange)} (h : playCareful ids s script = some (events, t)) :
    Run (CarefulStep ids) s events t :=
  (playIf_run h).mono fun _ _ _ hstep => ⟨hstep.1, of_decide_eq_true hstep.2⟩

def firstRuntime : TeamRuntime := { soleRuntime with observesActivity := true }

def secondRuntime : TeamRuntime := { firstRuntime with ref := ⟨2, "other runtime"⟩ }

def firstTeam : String := FreshIds.counted.uuid 2 1

def secondTeam : String := FreshIds.counted.uuid 7 1

def creator : Actor := ⟨"session", "lead"⟩

/-- One session creates two teams and claims a task in each, and their timers fire. -/
def twoTeams : List (TeamRuntime × TeamOperation) :=
  [(firstRuntime, .create creator "first" "goal" 3), (firstRuntime, .create creator "second" "goal" 3),
    (firstRuntime, .send creator firstTeam ⟨.taskOffer, "work", some "task", none, none⟩),
    (firstRuntime, .send creator firstTeam ⟨.taskClaim, "mine", some "task", none, none⟩),
    (firstRuntime, .send creator secondTeam ⟨.taskOffer, "work", some "task", none, none⟩),
    (firstRuntime, .send creator secondTeam ⟨.taskClaim, "mine", some "task", none, none⟩),
    (secondRuntime, .tick), (firstRuntime, .tick), (firstRuntime, .delete creator firstTeam),
    (firstRuntime, .tick)]

def idleMoment (listing : List String) (now : Nat) (messages : List Message) : Moment :=
  { quietMoment with
    listing := listing
    now := now
    host := fun
      | .roles => .ok ["lead"]
      | .memberAuthorized _ => .ok true
      | .observeActivity _ => .ok .idle
      | .promptAnswer _ => .ok (some "prompt")
      | .messages _ => .ok messages
      | _ => .error "unanswered" }

def laterMoment : Moment := idleMoment [secondTeam, firstTeam] (2 * LEASE_MS) []

def twoReservations : List (Nat × List TeamMove × Moment) :=
  (0, [.starts firstRuntime.ref, .starts secondRuntime.ref], idleMoment [] 1 []) ::
    (replicate 3 (0, [], idleMoment [] 1 []) ++
      replicate 5 (1, [], idleMoment [firstTeam] 1 []) ++
      ([2, 3, 4, 5].map fun i => (i, [], idleMoment [] 1 [])) ++
      replicate 20 (6, [], laterMoment) ++ replicate 40 (7, [], laterMoment))

def firstDelivery : String := FreshIds.counted.uuid 61 0

def secondDelivery : String := FreshIds.counted.uuid 30 0

def endedMoment : Moment :=
  idleMoment [secondTeam, firstTeam] (2 * LEASE_MS)
    [{ info := ⟨"message", "user", none, none, none⟩, parts := [.text (marker firstDelivery)] },
      { info := ⟨"answer", "assistant", some "stop", none, some 1⟩, parts := [.text "done"] }]

theorem sole_delivery_of_careful_ended :
    ∃ history s event t, Run (CarefulStep .counted) (startOf twoTeams) history s ∧
      Serves (teamServe .counted) s event t ∧
      (∃ sent, sentPrompt event.2 = some sent ∧ sent.2.deliveryId = secondDelivery) ∧
      s.world.stores.acquired.map Prod.snd = [firstDelivery, secondDelivery] ∧
      SoleDelivery history s event t := by
  have hplay : (playCareful .counted (startOf twoTeams) (twoReservations ++
      (9, [.turnEnds firstDelivery], endedMoment) :: replicate 31 (9, [], endedMoment) ++
        replicate 4 (6, [], laterMoment))).bind (fun played =>
          (playCall .counted played.2 6 [] laterMoment).map fun next =>
            ((sentPrompt next.1.2).map (·.2.deliveryId),
              played.2.world.stores.acquired.map Prod.snd,
              decide (Careful played.2 next.1 next.2))) =
      some (some secondDelivery, [firstDelivery, secondDelivery], true) := by
    decide +kernel
  obtain ⟨⟨history, s⟩, hrun, hnext⟩ := bind_eq_some_iff.1 hplay
  obtain ⟨⟨event, t⟩, hserves, hfacts⟩ := map_eq_some_iff.1 hnext
  simp only [Prod.mk.injEq] at hfacts
  obtain ⟨hsent, hacquired, hcareful⟩ := hfacts
  exact ⟨history, s, event, t, playCareful_run hrun, playCall_serves hserves,
    map_eq_some_iff.1 hsent, hacquired,
    sole_delivery_of_careful (playCareful_run hrun) (playCall_serves hserves)
      (of_decide_eq_true hcareful)⟩

/-- The first team is deleted while its delivery's turn runs; the second prompts the session. -/
theorem deleted_team_loses_lease :
    ∃ history s event t, Run (Serves (teamServe .counted)) (startOf twoTeams) history s ∧
      Serves (teamServe .counted) s event t ∧ ¬ SoleDelivery history s event t := by
  have hplay : (play .counted (startOf twoTeams) (twoReservations ++
      replicate 6 (8, [], laterMoment) ++ replicate 7 (6, [], laterMoment))).bind
        (fun played => (playCall .counted played.2 6 [] laterMoment).bind fun next =>
          (sentPrompt next.1.2).map fun sent =>
            (decide ((sent.1.sessionKey sent.2.sessionId, firstDelivery) ∈
                played.2.world.stores.acquired ∧
              (firstTeam, FreshIds.counted.uuid 2 0, firstDelivery) ∈
                (played.1.filterMap fun event => reservation event.2) ∧
              (secondTeam, FreshIds.counted.uuid 7 0, sent.2.deliveryId) ∈
                (played.1.filterMap fun event => reservation event.2) ∧
              firstDelivery ∉ next.2.world.settled))) = some true := by
    decide +kernel
  obtain ⟨⟨history, s⟩, hrun, hnext⟩ := bind_eq_some_iff.1 hplay
  obtain ⟨⟨event, t⟩, hserves, hprompt⟩ := bind_eq_some_iff.1 hnext
  obtain ⟨⟨self, prompt⟩, hsent, hfacts⟩ := map_eq_some_iff.1 hprompt
  obtain ⟨hacquired, hfirst, hsecond, hsettled⟩ := of_decide_eq_true hfacts
  refine ⟨history, s, event, t, play_run hrun, playCall_serves hserves, fun hsole => hsettled ?_⟩
  exact hsole self prompt (sentPrompt_ok hsent) firstDelivery hacquired _ _ _ _
    (reservedOn_of hsecond) (reservedOn_of hfirst) (by decide)
end Rolebox.Team
