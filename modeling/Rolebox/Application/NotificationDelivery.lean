import Rolebox.Application.Notifications

/-! Runs of the notification drains: when a row is done, and when its lease is taken. -/

namespace Rolebox.Graph.GraphNotifications
open General List Function
variable {digest : Digest} {retryMs : Rat} {s t : Notifications} {event : Event}

section Steps
variable {owner : String}

inductive Effects (digest : Digest) (retryMs : Rat) (s : Notifications) (event : Event) :
    Notifications → Prop where
  | still : Effects digest retryMs s event s
  | captured {row : NotificationRow} (hstatus : row.status = .pending) :
      Effects digest retryMs s event { s with rows := (insertEffect row s.rows).2 }
  | dropped (owner : String) (effects : List PendingNotificationEffect) :
      Effects digest retryMs s event (s.withDrain owner { inFlight := none, effects := effects })
  | refused {owner : String} {effect : PendingNotificationEffect}
      (rest : List PendingNotificationEffect) (hread : readEnvelope effect.payload = none)
      (hanswer : event.answer = .refused effect) :
      Effects digest retryMs s event
        { rows := refuseEffect effect s.rows
          drains := update s.drains owner { inFlight := none, effects := rest } }
  | claimed {owner : String} {effect : PendingNotificationEffect} {delivery : Delivery}
      {retryClock leaseClock claimClock : Rat} (rest : List PendingNotificationEffect)
      (hread : readEnvelope effect.payload = some delivery)
      (hdue : due delivery retryClock leaseClock)
      (hcall : event.call = .drain owner (.visit retryClock leaseClock claimClock)) :
      Effects digest retryMs s event
        { rows := claimEffect effect (claimedOf delivery owner claimClock).json s.rows
          drains := update s.drains owner
            { inFlight := some
                { effect := effect
                  delivery := delivery
                  claimed := claimedOf delivery owner claimClock
                  payload := (claimedOf delivery owner claimClock).json
                  stage := .claimed }
              effects := rest } }
  | staged {owner : String} {work : InFlight} (stage : Stage)
      (hwork : (s.drains owner).inFlight = some work)
      (hanswer : stage = .answered true →
        event.answer = .judged work.effect.key true ∨ event.answer = .sent work.effect.key true) :
      Effects digest retryMs s event
        (s.withDrain owner { s.drains owner with inFlight := some { work with stage := stage } })
  | renewed {owner : String} {work : InFlight} {now : Rat}
      (hwork : (s.drains owner).inFlight = some work) (hstage : work.stage = .sending)
      (hcall : event.call = .drain owner (.renew now)) :
      Effects digest retryMs s event
        { rows := renewEffect work.effect work.payload
            { work.claimed with leaseUntil := some (now + LEASE_MS) }.json s.rows
          drains := update s.drains owner
            { s.drains owner with
              inFlight := some
                { work with
                  payload := { work.claimed with leaseUntil := some (now + LEASE_MS) }.json } } }
  | finished {owner : String} {work : InFlight} {delivered : Bool} {now : Rat}
      (hwork : (s.drains owner).inFlight = some work) (hstage : work.stage = .answered delivered)
      (hcall : event.call = .drain owner (.finish now)) :
      Effects digest retryMs s event
        { rows := finishEffect work.effect work.payload
            (if delivered then .done else .pending)
            (nextDelivery retryMs work.delivery delivered now).json s.rows
          drains := update s.drains owner { s.drains owner with inFlight := none } }

theorem claimVisited_effects {effect : PendingNotificationEffect}
    {rest : List PendingNotificationEffect} {delivery : Delivery}
    {retryClock leaseClock claimClock : Rat} (hread : readEnvelope effect.payload = some delivery)
    (hdue : due delivery retryClock leaseClock)
    (hcall : event.call = .drain owner (.visit retryClock leaseClock claimClock)) :
    Effects digest retryMs s event (claimVisited owner effect rest delivery claimClock s).2 := by
  unfold claimVisited
  dsimp only
  split
  · exact .claimed rest hread hdue hcall
  · exact .dropped owner rest

theorem visitEffect_effects {effect : PendingNotificationEffect}
    {rest : List PendingNotificationEffect} {retryClock leaseClock claimClock : Rat}
    (hcall : event.call = .drain owner (.visit retryClock leaseClock claimClock))
    (h : visitEffect owner effect rest retryClock leaseClock claimClock s = (event.answer, t)) :
    Effects digest retryMs s event t := by
  unfold visitEffect at h
  cases hread : readEnvelope effect.payload with
  | none =>
    rw [hread] at h
    obtain ⟨hanswer, rfl⟩ := Prod.ext_iff.1 h
    exact .refused rest hread hanswer.symm
  | some delivery =>
    simp only [hread] at h
    split at h
    · next hdue =>
      have hnext : Effects digest retryMs s event
          (claimVisited owner effect rest delivery claimClock s).2 :=
        claimVisited_effects hread hdue hcall
      rwa [h] at hnext
    · obtain ⟨-, rfl⟩ := Prod.ext_iff.1 h
      exact .dropped owner rest

theorem performIdle_effects {call : DrainCall} (hcall : event.call = .drain owner call)
    (h : performIdle owner (s.drains owner) s call = (event.answer, t)) :
    Effects digest retryMs s event t := by
  cases call with
  | list =>
    obtain ⟨-, rfl⟩ := Prod.ext_iff.1 h
    exact .dropped owner _
  | visit retryClock leaseClock claimClock =>
    unfold performIdle at h
    cases heffects : (s.drains owner).effects with
    | nil =>
      simp only [heffects] at h
      obtain ⟨-, rfl⟩ := Prod.ext_iff.1 h
      exact .still
    | cons effect rest =>
      simp only [heffects] at h
      exact visitEffect_effects hcall h
  | stop =>
    obtain ⟨-, rfl⟩ := Prod.ext_iff.1 h
    exact .dropped owner []
  | judge | renew | send | finish =>
    obtain ⟨-, rfl⟩ := Prod.ext_iff.1 h
    exact .still

theorem performInFlight_effects {work : InFlight} {call : DrainCall}
    (hwork : (s.drains owner).inFlight = some work) (hcall : event.call = .drain owner call)
    (h : performInFlight digest retryMs owner (s.drains owner) work s call = (event.answer, t)) :
    Effects digest retryMs s event t := by
  cases call with
  | judge view =>
    unfold performInFlight at h
    dsimp only at h
    split at h
    · obtain ⟨hanswer, rfl⟩ := Prod.mk.inj h
      refine .staged _ hwork fun hstage => .inl ?_
      rw [← hanswer]
      exact congrArg _ (decide_eq_true hstage)
    · obtain ⟨-, rfl⟩ := Prod.ext_iff.1 h
      exact .still
  | renew now =>
    unfold performInFlight at h
    dsimp only at h
    split at h
    · next hstage =>
      obtain ⟨-, rfl⟩ := Prod.ext_iff.1 h
      exact .renewed hwork hstage hcall
    · obtain ⟨-, rfl⟩ := Prod.ext_iff.1 h
      exact .still
  | send delivered =>
    unfold performInFlight at h
    dsimp only at h
    split at h
    · obtain ⟨hanswer, rfl⟩ := Prod.mk.inj h
      refine .staged _ hwork fun hstage => .inr ?_
      rw [← hanswer]
      exact congrArg _ (Stage.answered.inj hstage)
    · obtain ⟨-, rfl⟩ := Prod.ext_iff.1 h
      exact .still
  | finish now =>
    unfold performInFlight at h
    cases hstage : work.stage with
    | answered delivered =>
      simp only [hstage] at h
      obtain ⟨-, rfl⟩ := Prod.ext_iff.1 h
      exact .finished hwork hstage hcall
    | claimed | sending =>
      simp only [hstage] at h
      obtain ⟨-, rfl⟩ := Prod.ext_iff.1 h
      exact .still
  | stop =>
    obtain ⟨-, rfl⟩ := Prod.ext_iff.1 h
    exact .dropped owner []
  | list | visit =>
    obtain ⟨-, rfl⟩ := Prod.ext_iff.1 h
    exact .still

theorem performs_effects (h : Performs digest retryMs s event t) :
    Effects digest retryMs s event t := by
  unfold Performs perform at h
  cases hcall : event.call with
  | capture graphId runId origin notice now =>
    rw [hcall] at h
    obtain ⟨-, rfl⟩ := Prod.ext_iff.1 h
    exact .captured rfl
  | drain owner call =>
    simp only [hcall] at h
    cases hwork : (s.drains owner).inFlight with
    | none =>
      simp only [hwork] at h
      exact performIdle_effects hcall h
    | some work =>
      simp only [hwork] at h
      exact performInFlight_effects hwork hcall h

theorem mem_insertEffect {row other : NotificationRow} {rows : List NotificationRow} :
    other ∈ (insertEffect row rows).2 → other ∈ rows ∨ other = row := by
  unfold insertEffect
  split
  · exact .inl
  intro h
  rcases mem_append.1 h with hold | hnew
  · exact .inl hold
  · exact .inr (mem_singleton.1 hnew)

theorem update_inFlight {drains : String → Drain} {other : String} {drain : Drain} {work : InFlight}
    (h : (update drains owner drain other).inFlight = some work) :
    (other = owner ∧ drain.inFlight = some work) ∨ (drains other).inFlight = some work := by
  by_cases howner : other = owner
  · subst howner
    rw [update_self] at h
    exact .inl ⟨rfl, h⟩
  · rw [update_of_ne howner] at h
    exact .inr h

end Steps

/-- A step in which a notice was accepted, was found obsolete, or was read and found unreadable. -/
def Settles (event : Event) (key : EffectKey) : Prop :=
  event.answer = .sent key true ∨ event.answer = .judged key true ∨
    ∃ effect, event.answer = .refused effect ∧ effect.key = key ∧
      readEnvelope effect.payload = none

def Settled (key : EffectKey) (s : Notifications) : Prop :=
  (∃ row ∈ s.rows, row.key = key ∧ row.status = .done) ∨
    ∃ owner work, (s.drains owner).inFlight = some work ∧ work.effect.key = key ∧
      work.stage = .answered true

theorem done_arises (h : Effects digest retryMs s event t) {row : NotificationRow}
    (hrow : row ∈ t.rows) (hdone : row.status = .done) :
    Settled row.key s ∨ Settles event row.key := by
  have hsame : row ∈ s.rows → Settled row.key s ∨ Settles event row.key := fun hold =>
    .inl (.inl ⟨row, hold, rfl, hdone⟩)
  cases h with
  | still | dropped | staged => exact hsame hrow
  | captured hstatus =>
    rcases mem_insertEffect hrow with hold | rfl
    · exact hsame hold
    · rw [hstatus] at hdone
      cases hdone
  | refused rest hread hanswer =>
    rcases mem_updateWhere.1 hrow with ⟨hold, -⟩ | ⟨old, -, ⟨hkey, -⟩, rfl⟩
    · exact hsame hold
    · exact .inr (.inr (.inr ⟨_, hanswer, hkey.symm, hread⟩))
  | claimed =>
    rcases mem_updateWhere.1 hrow with ⟨hold, -⟩ | ⟨old, -, -, rfl⟩
    · exact hsame hold
    · cases hdone
  | renewed =>
    rcases mem_updateWhere.1 hrow with ⟨hold, -⟩ | ⟨old, hold, -, rfl⟩
    · exact hsame hold
    · exact .inl (.inl ⟨old, hold, rfl, hdone⟩)
  | @finished owner work delivered now hwork hstage hcall =>
    rcases mem_updateWhere.1 hrow with ⟨hold, -⟩ | ⟨old, -, ⟨hkey, -⟩, rfl⟩
    · exact hsame hold
    · cases delivered with
      | false => cases hdone
      | true => exact .inl (.inr ⟨owner, work, hwork, hkey.symm, hstage⟩)

theorem answered_arises (h : Effects digest retryMs s event t) {owner : String} {work : InFlight}
    (hwork : (t.drains owner).inFlight = some work) (hstage : work.stage = .answered true) :
    Settled work.effect.key s ∨ Settles event work.effect.key := by
  have hsame : (s.drains owner).inFlight = some work →
      Settled work.effect.key s ∨ Settles event work.effect.key := fun hold =>
    .inl (.inr ⟨owner, work, hold, rfl, hstage⟩)
  cases h with
  | still | captured => exact hsame hwork
  | dropped | refused | finished =>
    rcases update_inFlight hwork with ⟨-, hnone⟩ | hold
    · cases hnone
    · exact hsame hold
  | claimed =>
    rcases update_inFlight hwork with ⟨-, hnew⟩ | hold
    · cases hnew
      cases hstage
    · exact hsame hold
  | staged stage hold hanswer =>
    rcases update_inFlight hwork with ⟨-, hnew⟩ | hold
    · cases hnew
      rcases hanswer hstage with hjudged | hsent
      · exact .inr (.inr (.inl hjudged))
      · exact .inr (.inl hsent)
    · exact hsame hold
  | renewed _ hsending =>
    rcases update_inFlight hwork with ⟨-, hnew⟩ | hold
    · cases hnew
      rw [hsending] at hstage
      cases hstage
    · exact hsame hold

theorem settled_arises {key : EffectKey} (h : Performs digest retryMs s event t)
    (hsettled : Settled key t) : Settled key s ∨ Settles event key := by
  have heffects := performs_effects h
  rcases hsettled with ⟨row, hrow, rfl, hdone⟩ | ⟨owner, work, hwork, rfl, hstage⟩
  · exact done_arises heffects hrow hdone
  · exact answered_arises heffects hwork hstage

section Leases
variable {rows : List NotificationRow} {row : NotificationRow} {owner : String}

/-- A table whose rows have their primary key and whose drains have not begun. -/
structure Opened (s : Notifications) : Prop where
  keys : (s.rows.map NotificationRow.key).Nodup
  live : ∀ row ∈ s.rows, row.status ≠ .failed
  idle : ∀ owner, s.drains owner = Drain.idle

structure Sound (s : Notifications) : Prop where
  keys : (s.rows.map NotificationRow.key).Nodup
  live : ∀ row ∈ s.rows, row.status ≠ .failed
  owned : ∀ owner work, (s.drains owner).inFlight = some work →
    work.claimed.owner = some owner ∧ work.payload.field? "owner" = some (.str owner)

theorem Opened.sound (h : Opened s) : Sound s where
  keys := h.keys
  live := h.live
  owned owner work hwork := by
    rw [h.idle owner] at hwork
    cases hwork

theorem updateWhere_keys {c : NotificationRow → Prop} [DecidablePred c]
    {f : NotificationRow → NotificationRow} (hf : ∀ row, (f row).key = row.key)
    (h : (rows.map NotificationRow.key).Nodup) :
    ((updateWhere c f rows).map NotificationRow.key).Nodup := by
  rw [updateWhere_map]
  · exact h
  · exact hf

theorem updateWhere_live {c : NotificationRow → Prop} [DecidablePred c]
    {f : NotificationRow → NotificationRow}
    (hf : ∀ row, row.status ≠ .failed → (f row).status ≠ .failed)
    (h : ∀ row ∈ rows, row.status ≠ .failed) :
    ∀ row ∈ updateWhere c f rows, row.status ≠ .failed := by
  intro row hrow
  rcases mem_updateWhere.1 hrow with ⟨hold, -⟩ | ⟨old, hold, -, rfl⟩
  · exact h row hold
  · exact hf old (h old hold)

theorem insertEffect_keys (h : (rows.map NotificationRow.key).Nodup) :
    ((insertEffect row rows).2.map NotificationRow.key).Nodup := by
  unfold insertEffect
  split
  · exact h
  · next hfree =>
    refine key_nodup_append h fun other hother hkey => hfree ?_
    exact any_eq_true.2 ⟨other, hother, decide_eq_true hkey⟩

section

variable (h : Effects digest retryMs s event t)
include h

theorem Effects.keys (hkeys : (s.rows.map NotificationRow.key).Nodup) :
    (t.rows.map NotificationRow.key).Nodup := by
  cases h with
  | still | dropped | staged => exact hkeys
  | captured => exact insertEffect_keys hkeys
  | refused | claimed | renewed | finished =>
    apply updateWhere_keys _ hkeys
    intro row
    rfl

theorem Effects.live
    (hlive : ∀ row ∈ s.rows, row.status ≠ .failed) : ∀ row ∈ t.rows, row.status ≠ .failed := by
  cases h with
  | still | dropped | staged => exact hlive
  | captured hstatus =>
    intro row hrow
    rcases mem_insertEffect hrow with hold | rfl
    · exact hlive row hold
    · rw [hstatus]
      exact EffectStatus.noConfusion
  | refused | claimed =>
    apply updateWhere_live _ hlive
    intro row _
    exact EffectStatus.noConfusion
  | renewed =>
    apply updateWhere_live _ hlive
    intro row h
    exact h
  | @finished _ _ delivered =>
    apply updateWhere_live _ hlive
    intro row _
    cases delivered <;> exact EffectStatus.noConfusion

theorem Effects.owned
    (howned : ∀ owner work, (s.drains owner).inFlight = some work →
      work.claimed.owner = some owner ∧ work.payload.field? "owner" = some (.str owner))
    {work : InFlight} (hwork : (t.drains owner).inFlight = some work) :
    work.claimed.owner = some owner ∧ work.payload.field? "owner" = some (.str owner) := by
  cases h with
  | still | captured => exact howned owner work hwork
  | dropped | refused | finished =>
    rcases update_inFlight hwork with ⟨-, hnone⟩ | hold
    · cases hnone
    · exact howned owner work hold
  | claimed =>
    rcases update_inFlight hwork with ⟨rfl, hnew⟩ | hold
    · cases hnew
      exact ⟨rfl, Delivery.json_owner _⟩
    · exact howned owner work hold
  | staged stage hbefore =>
    rcases update_inFlight hwork with ⟨rfl, hnew⟩ | hold
    · cases hnew
      have hsame := howned _ _ hbefore
      exact hsame
    · exact howned owner work hold
  | renewed hbefore =>
    rcases update_inFlight hwork with ⟨rfl, hnew⟩ | hold
    · cases hnew
      -- a renewal rewrites the instant alone, so the owner is the one of the claim
      have hclaimed := (howned owner _ hbefore).1
      refine ⟨hclaimed, (Delivery.json_owner _).trans ?_⟩
      exact congrArg (Option.map Json.str) hclaimed
    · exact howned owner work hold

end

theorem Sound.performs (h : Performs digest retryMs s event t) (hs : Sound s) : Sound t where
  keys := (performs_effects h).keys hs.keys
  live := (performs_effects h).live hs.live
  owned _ _ hwork := (performs_effects h).owned hs.owned hwork

def Holds (s : Notifications) (owner : String) (row : NotificationRow) : Prop :=
  row ∈ s.rows ∧ row.status = .started ∧
    ∃ work, (s.drains owner).inFlight = some work ∧ work.effect.key = row.key ∧
      row.payload = .json work.payload

theorem Sound.holder_unique (hs : Sound s) {owner' : String} {row' : NotificationRow}
    (h : Holds s owner row) (h' : Holds s owner' row') (hkey : row.key = row'.key) :
    owner = owner' := by
  obtain ⟨hrow, -, work, hwork, -, hpayload⟩ := h
  obtain ⟨hrow', -, work', hwork', -, hpayload'⟩ := h'
  have hsame : row = row' := eq_of_key hs.keys hrow hrow' hkey
  have hjson : work.payload = work'.payload := by
    rw [hsame, hpayload'] at hpayload
    exact (PayloadColumn.json.inj hpayload).symm
  have howner := (hs.owned owner work hwork).2
  rw [hjson, (hs.owned owner' work' hwork').2] at howner
  exact (Json.str.inj (Option.some.inj howner)).symm

/-- The step renews or finishes the delivery whose lease the row records. -/
def ByHolder (s : Notifications) (event : Event) (row : NotificationRow) : Prop :=
  ∃ owner now, Holds s owner row ∧
    (event.call = .drain owner (.renew now) ∨ event.call = .drain owner (.finish now))

/-- The step claims the row on clock readings past its backoff and past the lease it records. -/
def ClaimsExpired (event : Event) (row : NotificationRow) : Prop :=
  ∃ owner retryClock leaseClock claimClock delivery,
    event.call = .drain owner (.visit retryClock leaseClock claimClock) ∧
      readEnvelope row.payload = some delivery ∧ delivery.retryAt ≤ retryClock ∧
      delivery.leaseUntil.getD 0 ≤ leaseClock

theorem due_eq_true {delivery : Delivery} {retryClock leaseClock : Rat} :
    due delivery retryClock leaseClock = true ↔
      delivery.retryAt ≤ retryClock ∧ delivery.leaseUntil.getD 0 ≤ leaseClock := by
  unfold due
  rw [Bool.and_eq_true, decide_eq_true_iff, decide_eq_true_iff]

theorem holds_of_recorded {work : InFlight} (hwork : (s.drains owner).inFlight = some work)
    (hrow : row ∈ s.rows) (hrecorded : RecordedBy work.effect work.payload row) :
    Holds s owner row :=
  ⟨hrow, hrecorded.2.2, work, hwork, hrecorded.1.symm, hrecorded.2.1⟩

theorem Sound.lease_passes (hs : Sound s) (h : Performs digest retryMs s event t)
    {row' : NotificationRow} (hrow : row ∈ s.rows) (hrow' : row' ∈ t.rows)
    (hkey : row'.key = row.key) (hpayload : row'.payload ≠ row.payload) :
    ByHolder s event row ∨ ClaimsExpired event row := by
  have hsame : row' ∈ s.rows → ByHolder s event row ∨ ClaimsExpired event row := fun hold =>
    absurd (congrArg NotificationRow.payload (eq_of_key hs.keys hold hrow hkey)) hpayload
  cases performs_effects h with
  | still | dropped | staged => exact hsame hrow'
  | captured =>
    unfold insertEffect at hrow'
    split at hrow'
    · exact hsame hrow'
    next hfree =>
    rcases mem_append.1 hrow' with hold | hnew
    · exact hsame hold
    · rw [mem_singleton.1 hnew] at hkey
      exact absurd (any_eq_true.2 ⟨row, hrow, decide_eq_true hkey.symm⟩) hfree
  | refused =>
    rcases eq_or_changed_of_key hs.keys hrow hrow' (fun _ => rfl) hkey with rfl | ⟨-, rfl⟩
    · exact absurd rfl hpayload
    · exact absurd rfl hpayload
  | claimed rest hread hdue hcall =>
    rcases eq_or_changed_of_key hs.keys hrow hrow' (fun _ => rfl) hkey with rfl | ⟨hclaim, rfl⟩
    · exact absurd rfl hpayload
    · obtain ⟨hretry, hlease⟩ := due_eq_true.1 hdue
      rw [← hclaim.2.1] at hread
      exact .inr ⟨_, _, _, _, _, hcall, hread, hretry, hlease⟩
  | renewed hwork hstage hcall =>
    rcases eq_or_changed_of_key hs.keys hrow hrow' (fun _ => rfl) hkey with rfl | ⟨hrecorded, rfl⟩
    · exact absurd rfl hpayload
    · exact .inl ⟨_, _, holds_of_recorded hwork hrow hrecorded, .inl hcall⟩
  | finished hwork hstage hcall =>
    rcases eq_or_changed_of_key hs.keys hrow hrow' (fun _ => rfl) hkey with rfl | ⟨hrecorded, rfl⟩
    · exact absurd rfl hpayload
    · exact .inl ⟨_, _, holds_of_recorded hwork hrow hrecorded, .inr hcall⟩

end Leases

def SameNotice (row row' : NotificationRow) : Prop :=
  row'.key = row.key ∧ row'.runId = row.runId ∧ row'.kind = row.kind ∧
    (row.status = .done → row'.status = .done)

instance : Std.Refl SameNotice := ⟨fun _ => ⟨rfl, rfl, rfl, id⟩⟩

instance : IsTrans NotificationRow SameNotice :=
  ⟨fun _ _ _ h h' =>
    ⟨h'.1.trans h.1, h'.2.1.trans h.2.1, h'.2.2.1.trans h.2.2.1, h'.2.2.2 ∘ h.2.2.2⟩⟩

theorem Effects.retains (h : Effects digest retryMs s event t) :
    Retains SameNotice s.rows t.rows := by
  cases h with
  | still | dropped | staged => exact Retains.refl s.rows
  | @captured row =>
    show Retains SameNotice s.rows (insertEffect row s.rows).2
    unfold insertEffect
    split
    · exact Retains.refl s.rows
    · exact Retains.append [row]
  | refused => exact Retains.update fun _ _ _ => ⟨rfl, rfl, rfl, fun _ => rfl⟩
  | claimed =>
    refine Retains.update fun row _ hclaim => ⟨rfl, rfl, rfl, fun hdone => ?_⟩
    have hlive := hclaim.2.2
    rw [hdone] at hlive
    cases hlive
  | renewed => exact Retains.update fun _ _ _ => ⟨rfl, rfl, rfl, id⟩
  | finished =>
    refine Retains.update fun row _ hrecorded => ⟨rfl, rfl, rfl, fun hdone => ?_⟩
    have hstarted := hrecorded.2.2
    rw [hdone] at hstarted
    cases hstarted

theorem run_retains {trace : List Event} (h : Run (Performs digest retryMs) s trace t) :
    Retains SameNotice s.rows t.rows := by
  induction h with
  | nil => exact Retains.refl _
  | cons hstep _ ih => exact (performs_effects hstep).retains.trans ih

/-- Any owner with nothing in flight claims the row on clocks past its backoff and its lease. -/
def StaysClaimable (digest : Digest) (retryMs : Rat) (s : Notifications) (row : NotificationRow)
    (delivery : Delivery) : Prop :=
  ∀ owner, (s.drains owner).inFlight = none →
    effectOf row ∈ ((perform digest retryMs (.drain owner .list) s).2.drains owner).effects ∧
      ∀ rest retryClock leaseClock claimClock, delivery.retryAt ≤ retryClock →
        delivery.leaseUntil.getD 0 ≤ leaseClock →
        (perform digest retryMs (.drain owner (.visit retryClock leaseClock claimClock))
          (s.withDrain owner { inFlight := none, effects := effectOf row :: rest })).1 =
            .claimed row.key

theorem unsettled_eq_true {status : EffectStatus} (hdone : status ≠ .done)
    (hfailed : status ≠ .failed) : unsettled status = true := by
  cases status with
  | pending | started => rfl
  | done => exact absurd rfl hdone
  | failed => exact absurd rfl hfailed

theorem mem_readPending {kind : String} {rows : List NotificationRow} {row : NotificationRow}
    (hrow : row ∈ rows) (hkind : row.kind = kind) (hlive : unsettled row.status = true) :
    effectOf row ∈ readPendingNotificationEffects kind rows := by
  refine mem_map_of_mem (mem_mergeSort.2 (mem_filter.2 ⟨hrow, ?_⟩))
  rw [hlive, Bool.and_true]
  exact decide_eq_true hkind

theorem Sound.claimable (hs : Sound s) {row : NotificationRow} (hrow : row ∈ s.rows)
    (hkind : row.kind = EFFECT_KIND) (hdone : row.status ≠ .done) {delivery : Delivery}
    (hread : readEnvelope row.payload = some delivery) :
    StaysClaimable digest retryMs s row delivery := by
  have hlive : unsettled row.status = true := unsettled_eq_true hdone (hs.live row hrow)
  intro owner hidle
  constructor
  · have hlist : (perform digest retryMs (.drain owner .list) s).2.drains owner =
        { inFlight := none, effects := readPendingNotificationEffects EFFECT_KIND s.rows } := by
      unfold perform
      simp only [hidle]
      exact update_self ..
    rw [hlist]
    exact mem_readPending hrow hkind hlive
  · intro rest retryClock leaseClock claimClock hretry hlease
    have hfound : (s.rows.any fun other => Claimable (effectOf row) other) = true :=
      any_eq_true.2 ⟨row, hrow, decide_eq_true ⟨rfl, rfl, hlive⟩⟩
    have hdue : due delivery retryClock leaseClock = true := due_eq_true.2 ⟨hretry, hlease⟩
    have hread' : readEnvelope (effectOf row).payload = some delivery := hread
    unfold perform
    simp only [Notifications.withDrain, update_self, performIdle, visitEffect, hread',
      hdue, if_true, claimVisited, hfound]
    rfl

/-- A row is done only for a reason, has one lease at a time and can be claimed until then. -/
theorem notificationDelivery (digest : Digest) (retryMs : Rat) {s₀ s : Notifications}
    {trace : List Event} (hopen : Opened s₀) (hrun : Run (Performs digest retryMs) s₀ trace s) :
    (∀ row ∈ s.rows, row.status = .done →
      (∃ old ∈ s₀.rows, old.key = row.key ∧ old.status = .done) ∨
        ∃ event ∈ trace, Settles event row.key) ∧
    (∀ owner owner' row row', Holds s owner row → Holds s owner' row' → row.key = row'.key →
      owner = owner') ∧
    (∀ event t, Performs digest retryMs s event t → ∀ row ∈ s.rows, ∀ row' ∈ t.rows,
      row'.key = row.key → row'.payload ≠ row.payload →
        ByHolder s event row ∨ ClaimsExpired event row) ∧
    (∀ row ∈ s.rows,
      (∀ more t, Run (Performs digest retryMs) s more t → ∃ row' ∈ t.rows, SameNotice row row') ∧
      (row.kind = EFFECT_KIND → row.status ≠ .done → ∀ delivery,
        readEnvelope row.payload = some delivery → StaysClaimable digest retryMs s row delivery)) ∧
    ∀ graphId runId key, s.rows.countP (fun row =>
      row.graphId = graphId && row.effectId = notificationId digest graphId runId key) ≤ 1 := by
  have hsound : Sound s := hrun.invariant (fun _ _ _ hs h => hs.performs h) hopen.sound
  refine ⟨?_, ?_, ?_, ?_, ?_⟩
  · intro row hrow hdone
    have hsettled : Settled row.key s := .inl ⟨row, hrow, rfl, hdone⟩
    rcases hrun.arises (fun _ _ _ h => settled_arises h) hsettled with hstart | hevent
    · refine .inl (hstart.resolve_right ?_)
      rintro ⟨owner, work, hwork, -, -⟩
      rw [hopen.idle owner] at hwork
      cases hwork
    · exact .inr hevent
  · intro owner owner' row row' h h' hkey
    exact hsound.holder_unique h h' hkey
  · intro event t h row hrow row' hrow' hkey hpayload
    exact hsound.lease_passes h hrow hrow' hkey hpayload
  · intro row hrow
    refine ⟨fun more t hmore => run_retains hmore row hrow, ?_⟩
    intro hkind hdone delivery hread
    exact hsound.claimable hrow hkind hdone hread
  · intro graphId runId key
    refine countP_key_le_one hsound.keys fun row _ row' _ h h' => ?_
    rw [Bool.and_eq_true, decide_eq_true_iff, decide_eq_true_iff] at h h'
    unfold NotificationRow.key
    rw [h.1, h.2, h'.1, h'.2]

def performAll (digest : Digest) (retryMs : Rat) :
    List Call → Notifications → List Event × Notifications
  | [], s => ([], s)
  | call :: calls, s =>
    let performed := perform digest retryMs call s
    let rest := performAll digest retryMs calls performed.2
    ({ call := call, answer := performed.1 } :: rest.1, rest.2)

theorem performAll_run (digest : Digest) (retryMs : Rat) (calls : List Call) (s : Notifications) :
    Run (Performs digest retryMs) s (performAll digest retryMs calls s).1
      (performAll digest retryMs calls s).2 := by
  induction calls generalizing s with
  | nil => exact .nil s
  | cons call calls ih => exact .cons rfl (ih _)

def emptyTable : Notifications := { rows := [], drains := fun _ => Drain.idle }

theorem emptyTable_opened : Opened emptyTable where
  keys := nodup_nil
  live _ hrow := absurd hrow not_mem_nil
  idle _ := rfl

def completionNotice : Call :=
  .capture "g" "r" { sessionId := "s", agent := none }
    { key := "terminal", kind := .complete, reason := "", nodeId := none, attemptId := none,
      approvalStatus := none } 0

def plainDigest : Digest := fun graphId runId key => graphId ++ runId ++ key

def noticeKey : EffectKey := { graphId := "g", effectId := "notify:grterminal" }

def acceptedCalls : List Call :=
  [completionNotice, .drain "a" .list, .drain "a" (.visit 1 1 1), .drain "a" (.judge none),
    .drain "a" (.renew 2), .drain "a" (.send true), .drain "a" (.finish 3)]

def acceptedRun : List Event × Notifications := performAll plainDigest 5000 acceptedCalls emptyTable

theorem acceptedRun_done :
    (acceptedRun.2.rows.map fun row => (row.key, row.status)) = [(noticeKey, .done)] := by
  decide +kernel

theorem notificationDelivery_accepted : ∃ event ∈ acceptedRun.1, Settles event noticeKey := by
  have hrun := performAll_run plainDigest 5000 acceptedCalls emptyTable
  have hdelivery := notificationDelivery plainDigest 5000 emptyTable_opened hrun
  have hrow : (noticeKey, EffectStatus.done) ∈
      acceptedRun.2.rows.map fun row => (row.key, row.status) := by
    rw [acceptedRun_done]
    exact mem_singleton_self _
  obtain ⟨row, hmem, heq⟩ := mem_map.1 hrow
  obtain ⟨hkey, hstatus⟩ := Prod.mk.inj heq
  rw [← hkey]
  rcases hdelivery.1 row hmem hstatus with ⟨old, hold, -⟩ | hevent
  · cases hold
  · exact hevent

def unreadableCalls : List Call :=
  [completionNotice, .drain "a" .list, .drain "a" (.visit 1 1 1), .drain "a" (.judge none),
    .drain "a" (.send false), .drain "a" (.finish (3 / 2)), .drain "a" .list,
    .drain "a" (.visit 9000 9000 9000)]

def unreadableRun : List Event × Notifications :=
  performAll plainDigest 5000 unreadableCalls emptyTable

def Answer.accepted : Answer → Bool
  | .sent _ delivered => delivered
  | .judged _ isObsolete => isObsolete
  | _ => false

theorem unreadableRun_done :
    (unreadableRun.2.rows.map fun row => row.status) = [.done] ∧
      (unreadableRun.1.any fun event => event.answer.accepted) = false := by
  decide +kernel

/-- A row whose envelope cannot be read is done although its notice was never accepted. -/
theorem unreadable_done :
    ¬ ∀ (digest : Digest) (retryMs : Rat) (s₀ s : Notifications) (trace : List Event),
      Opened s₀ → Run (Performs digest retryMs) s₀ trace s → ∀ row ∈ s.rows, row.status = .done →
        (∃ old ∈ s₀.rows, old.key = row.key ∧ old.status = .done) ∨
          ∃ event ∈ trace, event.answer = .sent row.key true ∨ event.answer = .judged row.key true := by
  intro hclaim
  have hrun := performAll_run plainDigest 5000 unreadableCalls emptyTable
  have hdone : EffectStatus.done ∈ unreadableRun.2.rows.map fun row => row.status := by
    rw [unreadableRun_done.1]
    exact mem_singleton_self _
  obtain ⟨row, hrow, hstatus⟩ := mem_map.1 hdone
  rcases hclaim plainDigest 5000 emptyTable _ _ emptyTable_opened hrun row hrow hstatus with
    ⟨old, hold, -⟩ | ⟨event, hevent, hanswer⟩
  · cases hold
  have haccepted : event.answer.accepted = true := by
    rcases hanswer with h | h
    · rw [h]
      rfl
    · rw [h]
      rfl
  have hnone := any_eq_false.1 unreadableRun_done.2 event hevent
  exact hnone haccepted

end Rolebox.Graph.GraphNotifications
