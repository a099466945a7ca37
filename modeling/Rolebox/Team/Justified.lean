import Rolebox.Team.World

/-! What every call of a runtime's operations is preceded by. -/

namespace Rolebox.Team
open General Throwing List

def Plain (call : TeamCall) : Prop :=
  match call.op with
  | .store (.update _ (.beginControl ..)) => False
  | .store (.update _ (.endControl _)) => False
  | _ => True

def Controls (h : List TeamExchange) (self : TeamRuntime) (id : String) (resume : Bool)
    (token : String) : Prop :=
  ∃ before after actor, h = before ++ updateExchange self id (.beginControl actor resume) token :: after ∧
    ∀ x ∈ after, Plain x.call

def Since (before : List TeamExchange) (x : TeamExchange) (h : List TeamExchange) : Prop :=
  ∃ more, h = before ++ more ∧ x ∈ more

def TurnSeen (h : List TeamExchange) (self : TeamRuntime) (id memberId : String)
    (deliveryId : Option String) (lastId : String) (reason : Option String) : Prop :=
  ∃ state member sessionId messages last, readExchange self id state ∈ h ∧
    member ∈ state.members ∧ member.id = memberId ∧ member.boundSession = some sessionId ∧
    hostExchange self (.messages sessionId) messages ∈ h ∧ finalMessage messages = some last ∧
    unrecorded member messages last = true ∧ deliveryId = member.delivery.map TeamDelivery.id ∧
    lastId = last.info.id ∧ reason = failureReason last

def Reserving (h : List TeamExchange) (self : TeamRuntime) (id memberId : String) (cursor : Nat)
    (pending : List TeamEvent) (deliveryId : String) : Prop :=
  (∃ state member, readExchange self id state ∈ h ∧ member ∈ state.members ∧
    member.id = memberId ∧ cursor = member.cursor ∧ pending = pendingOf state member ∧
    pending ≠ []) ∧
  h.getLast? = some (ownExchange self .randomUUID deliveryId)

def Reserved (h : List TeamExchange) (id memberId : String) (cursor : Nat)
    (pending : List TeamEvent) (deliveryId : String) : Prop :=
  ∃ self baseline,
    updateExchange self id (.reserve memberId cursor pending deliveryId baseline) true ∈ h

def Unnamed (opened h : List TeamExchange) (self : TeamRuntime) (holder : String) : Prop :=
  ∃ ids : List String, Since opened (storeExchange self .teamIds ids) h ∧ ∀ id ∈ ids, ∃ team,
    Since opened (readExchange self id team) h ∧
      team.members.any (holdsDelivery holder) = false

def LeaseFree (h : List TeamExchange) (self : TeamRuntime) (transaction : Nat) (key : SessionKey)
    (deliveryId : String) : Prop :=
  ∃ before lease, Since before (storeExchange self (.openLease key) (transaction, lease)) h ∧
    (∃ id memberId cursor pending, Reserved before id memberId cursor pending deliveryId) ∧
    ∀ holder, lease = some holder → holder ≠ deliveryId →
      Unnamed (before ++ [storeExchange self (.openLease key) (transaction, lease)]) h self holder

def GivenUp (h : List TeamExchange) (self : TeamRuntime) (deliveryId : String) : Prop :=
  (∃ id memberId, updateExchange self id (.discardDelivery memberId deliveryId) true ∈ h) ∨
  (∃ id memberId reason clear sessionId,
    updateExchange self id (.fail memberId reason clear) (some (sessionId, deliveryId)) ∈ h) ∨
  ∃ before id state member after, readExchange self id state ∈ before ∧ member ∈ state.members ∧
    holdsDelivery deliveryId member = true ∧
    (after.members.find? fun other => other.id = member.id).bind TeamMember.delivery = none ∧
    Since before (readExchange self id after) h

def Prompting (h : List TeamExchange) (self : TeamRuntime) (prompt : TeamPrompt) : Prop :=
  (∃ id cursor, Reserved h id prompt.memberId cursor prompt.events prompt.deliveryId) ∧
    ∃ transaction, storeExchange self
      (.commitLease transaction (self.sessionKey prompt.sessionId) prompt.deliveryId) () ∈ h

def UpdateJustified (h : List TeamExchange) (self : TeamRuntime) (id : String) : TeamUpdate → Prop
  | .beginControl .. => ∀ x ∈ h, Plain x.call
  | .endControl token => ∃ resume, Controls h self id resume token
  | .finishResume .. => ∃ token, Controls h self id true token
  | .recordTurn memberId deliveryId lastId reason =>
    TurnSeen h self id memberId deliveryId lastId reason
  | .reserve memberId cursor pending deliveryId _ =>
    Reserving h self id memberId cursor pending deliveryId
  | _ => True

def Justified (h : List TeamExchange) (call : TeamCall) : Prop :=
  match call.op with
  | .store (.update id u) => UpdateJustified h call.self id u
  | .store (.commitLease transaction key deliveryId) =>
    LeaseFree h call.self transaction key deliveryId
  | .store (.releaseSession _ deliveryId) => GivenUp h call.self deliveryId
  | .host (.sendPrompt prompt) => Prompting h call.self prompt
  | _ => True

section Basics
variable {self : TeamRuntime} {N : TeamCall → Prop} {h h' : List TeamExchange}
variable {before : List TeamExchange} {x : TeamExchange} {id : String}

theorem Since.mem (hx : Since before x h) : x ∈ h := by
  obtain ⟨more, rfl, hmem⟩ := hx
  exact mem_append_right _ hmem

theorem Since.extend (hx : Since before x h) (hext : Extends (I := teamInterface) N h h') :
    Since before x h' := by
  obtain ⟨more, rfl, hmem⟩ := hx
  obtain ⟨rest, rfl, -⟩ := hext
  exact ⟨more ++ rest, append_assoc .., mem_append_left _ hmem⟩

theorem Since.earlier (hx : Since h' x h) (hext : Extends (I := teamInterface) N before h') :
    Since before x h := by
  obtain ⟨more, rfl, hmem⟩ := hx
  obtain ⟨rest, rfl, -⟩ := hext
  exact ⟨rest ++ more, append_assoc .., mem_append_right _ hmem⟩

theorem Since.last (h : List TeamExchange) (x : TeamExchange) : Since h x (h ++ [x]) :=
  ⟨[x], rfl, mem_singleton_self x⟩

theorem Controls.extend {token : String} {resume : Bool} (hc : Controls h self id resume token)
    (hext : Extends (I := teamInterface) Plain h h') : Controls h' self id resume token := by
  obtain ⟨before, after, actor, rfl, hafter⟩ := hc
  obtain ⟨more, rfl, hmore⟩ := hext
  refine ⟨before, after ++ more, actor, by simp, fun x hx => ?_⟩
  exact (mem_append.1 hx).elim (hafter x) (hmore x)

theorem Reserved.extend {memberId deliveryId : String} {cursor : Nat} {pending : List TeamEvent}
    (hr : Reserved h id memberId cursor pending deliveryId)
    (hext : Extends (I := teamInterface) N h h') : Reserved h' id memberId cursor pending deliveryId := by
  obtain ⟨self, baseline, hmem⟩ := hr
  exact ⟨self, baseline, hext.mem hmem⟩

theorem safe_onStore {op : StoreOp} {Q : op.Result → List TeamExchange → Prop}
    (hJ : Justified h { self := self, op := .store op }) (hN : N { self := self, op := .store op })
    (hQ : ∀ result, Q result (h ++ [storeExchange self op result])) :
    Safe Justified N h (onStore self op) Q := by
  refine Safe.ask hJ hN fun answer result hanswer => ?_
  cases hanswer
  exact hQ result

theorem safe_onSelf {op : OwnOp} {Q : op.Result → List TeamExchange → Prop}
    (hJ : Justified h { self := self, op := .own op }) (hN : N { self := self, op := .own op })
    (hQ : ∀ result, Q result (h ++ [ownExchange self op result])) :
    Safe Justified N h (onSelf self op) Q := by
  refine Safe.ask hJ hN fun answer result hanswer => ?_
  cases hanswer
  exact hQ result

theorem safe_onHost {op : HostOp} {Q : op.Result → List TeamExchange → Prop}
    (hJ : Justified h { self := self, op := .host op }) (hN : N { self := self, op := .host op })
    (hQ : ∀ result, Q result (h ++ [hostExchange self op result])) :
    Safe Justified N h (onHost self op) Q := by
  refine Safe.ask hJ hN fun answer result hanswer => ?_
  cases hanswer
  exact hQ result

theorem safe_ownCall {op : OwnOp} : Safe Justified Plain h (onSelf self op) fun _ _ => True :=
  safe_onSelf trivial trivial fun _ => trivial

theorem safe_hostCall {op : HostOp} (hJ : Justified h { self := self, op := .host op }) :
    Safe Justified Plain h (onHost self op) fun _ _ => True :=
  safe_onHost hJ trivial fun _ => trivial

theorem safe_read : Safe Justified Plain h (readTeam self id) fun state h' =>
    Since h (readExchange self id state) h' :=
  safe_onStore trivial trivial fun state => Since.last h (readExchange self id state)

theorem safe_listTeams : Safe Justified Plain h (listTeams self) fun teams h' =>
    ∃ ids : List String, Since h (storeExchange self .teamIds ids) h' ∧
      Forall₂ (fun id team => Since h (readExchange self id team) h') ids teams := by
  refine Safe.bind (Q := fun ids h' => Since h (storeExchange self .teamIds ids) h')
    (safe_onStore trivial trivial fun ids => Since.last h (storeExchange self .teamIds ids))
    fun ids h' hext hids => ?_
  have hloop : Safe Justified Plain h' (forAll ids (readTeam self)) fun teams h'' =>
      Since h (storeExchange self .teamIds ids) h'' ∧
        Forall₂ (fun id team => Since h (readExchange self id team) h'') ids teams := by
    refine Safe.forAll (T := fun id team h'' => Since h (readExchange self id team) h'') hids
      (fun _ _ _ _ hext' hread => hread.extend hext') fun id _ h'' hext' hids' => ?_
    exact Safe.mono safe_read fun team h''' hread hsince =>
      ⟨hids'.extend hread, hsince.earlier (hext.trans hext')⟩
  exact hloop.mono fun teams _ _ hpost => ⟨ids, hpost⟩

end Basics

section Leases
variable {self : TeamRuntime} {h : List TeamExchange} {id memberId sessionId deliveryId : String}

theorem safe_releaseSession (hgone : GivenUp h self deliveryId) :
    Safe Justified Plain h (releaseSession self sessionId deliveryId) fun _ _ => True :=
  Safe.ite (fun _ => Safe.throw) fun _ => safe_onStore hgone trivial fun _ => trivial

theorem safe_isNamed {holder : String} :
    Safe Justified Plain h (isNamed self holder) fun named h' =>
      named = false → Unnamed h h' self holder := by
  refine Safe.bind safe_listTeams fun teams h' hext hteams => Safe.pure fun hnone => ?_
  obtain ⟨ids, hids, hreads⟩ := hteams
  refine ⟨ids, hids, fun id hid => ?_⟩
  obtain ⟨n, hn, rfl⟩ := getElem_of_mem hid
  have hn' : n < teams.length := hreads.length_eq ▸ hn
  have hread := hreads.get hn hn'
  have hteam := (any_eq_false.1 hnone) _ (get_mem teams ⟨n, hn'⟩)
  exact ⟨_, hread, by simpa using hteam⟩

theorem safe_leaseTaken {lease : Option String} :
    Safe Justified Plain h (leaseTaken self lease deliveryId) fun taken h' =>
      taken = false → ∀ holder, lease = some holder → holder ≠ deliveryId →
        Unnamed h h' self holder := by
  unfold leaseTaken
  split
  · next hfree =>
    refine Safe.pure fun _ holder hlease hother => ?_
    rw [hlease, Option.filter_some, if_pos (decide_eq_true hother)] at hfree
    exact nomatch hfree
  · next other hheld =>
    obtain ⟨hlease, -⟩ := Option.filter_eq_some_iff.1 hheld
    refine safe_isNamed.mono fun named h' _ hnamed hfalse holder hholder _ => ?_
    obtain rfl := Option.mem_unique hlease hholder
    exact hnamed hfalse

theorem safe_acquireSession {cursor : Nat} {pending : List TeamEvent}
    (hreserved : Reserved h id memberId cursor pending deliveryId) :
    Safe Justified Plain h (acquireSession self sessionId deliveryId) fun acquired h' =>
      acquired = true → ∃ transaction,
        storeExchange self (.commitLease transaction (self.sessionKey sessionId) deliveryId) () ∈ h' := by
  refine Safe.ite (fun _ => Safe.throw) fun _ => ?_
  refine Safe.bind (Q := fun opened h' =>
      h' = h ++ [storeExchange self (.openLease (self.sessionKey sessionId)) opened])
    (safe_onStore trivial trivial fun _ => rfl) fun opened h' hext hopened => ?_
  subst hopened
  refine Safe.recover ?_ fun error h' _ => ?_
  · refine Safe.bind safe_leaseTaken fun taken h' hext' hfree => Safe.ite (fun _ => ?_) fun htaken => ?_
    · exact Safe.bind (Q := fun _ _ => True) (safe_onStore trivial trivial fun _ => trivial)
        fun _ _ _ _ => Safe.pure nofun
    · have hcommit : Justified h' { self := self, op := .store (.commitLease opened.1
          (self.sessionKey sessionId) deliveryId) } :=
        ⟨h, opened.2, (Since.last h _).extend hext', ⟨id, memberId, cursor, pending, hreserved⟩,
          hfree (Bool.eq_false_iff.2 htaken)⟩
      refine Safe.bind (Q := fun _ h'' => storeExchange self (.commitLease opened.1
          (self.sessionKey sessionId) deliveryId) () ∈ h'')
        (safe_onStore hcommit trivial fun _ => mem_append_right _ (mem_singleton_self _))
        fun _ h'' _ hmem => Safe.pure fun _ => ⟨opened.1, hmem⟩
  · exact Safe.bind (Q := fun _ _ => True) (safe_onStore trivial trivial fun _ => trivial)
      fun _ _ _ _ => Safe.throw

theorem safe_discard {member : TeamMember} :
    Safe Justified Plain h (discard self id member) fun _ _ => True := by
  unfold discard
  split
  · exact Safe.pure trivial
  next delivery hdelivery =>
  refine Safe.bind (Q := fun discarded h' => updateExchange self id
      (.discardDelivery member.id delivery.id) discarded ∈ h')
    (safe_onStore trivial trivial fun _ => mem_append_right _ (mem_singleton_self _))
    fun discarded h' _ hmem => ?_
  split
  · split
    · next hdone =>
      rw [hdone] at hmem
      exact safe_releaseSession (.inl ⟨id, member.id, hmem⟩)
    · exact Safe.pure trivial
  · exact Safe.pure trivial

theorem safe_fail {reason : String} {clear : Bool} :
    Safe Justified Plain h (fail self id memberId reason clear) fun _ _ => True := by
  refine Safe.bind safe_ownCall fun removing h' _ _ => Safe.ite (fun _ => Safe.pure trivial) fun _ => ?_
  refine Safe.bind (Q := fun released h'' => updateExchange self id
      (.fail memberId reason clear) released ∈ h'')
    (safe_onStore trivial trivial fun _ => mem_append_right _ (mem_singleton_self _))
    fun released h'' _ hmem => ?_
  split
  · next sessionId deliveryId =>
    exact safe_releaseSession (.inr (.inl ⟨id, memberId, reason, clear, sessionId, hmem⟩))
  · exact Safe.pure trivial

end Leases

section Turns
variable {self : TeamRuntime} {h : List TeamExchange} {id memberId sessionId : String}

theorem safe_idle : Safe Justified Plain h (idle self sessionId) fun _ _ => True := by
  refine Safe.ite (fun _ => ?_) fun _ => Safe.ite (fun _ => ?_) fun _ => ?_
  · exact Safe.bind (safe_hostCall trivial) fun _ _ _ _ => Safe.pure trivial
  · refine Safe.bind (safe_hostCall trivial) fun type _ _ _ => ?_
    split
    · exact Safe.bind safe_ownCall fun _ _ _ _ => Safe.pure trivial
    · exact Safe.pure trivial
  · exact Safe.bind safe_ownCall fun _ _ _ _ => Safe.pure trivial

theorem safe_activityOf : Safe Justified Plain h (activityOf self sessionId) fun _ _ => True :=
  Safe.ite (fun _ => Safe.bind (safe_hostCall trivial) fun _ _ _ _ => Safe.pure trivial)
    fun _ => Safe.pure trivial

theorem safe_isIdle {activity : Option SessionActivity} :
    Safe Justified Plain h (isIdle self activity sessionId) fun _ _ => True :=
  Safe.ite (fun _ => safe_idle) fun _ => Safe.pure trivial

theorem safe_isAbandoned {delivery : Option TeamDelivery} :
    Safe Justified Plain h (isAbandoned self delivery) fun _ _ => True := by
  unfold isAbandoned
  split
  · exact Safe.pure trivial
  · exact safe_ownCall

theorem safe_isInterrupted {activity : Option SessionActivity} {delivery : Option TeamDelivery} :
    Safe Justified Plain h (isInterrupted self activity delivery) fun _ _ => True :=
  Safe.ite (fun _ => Safe.pure trivial) fun _ => safe_isAbandoned

theorem safe_recordTurnOf {state : TeamState} {member : TeamMember} {messages : List Message}
    {last : Message} (hread : readExchange self id state ∈ h) (hmem : member ∈ state.members)
    (hbound : member.boundSession = some sessionId)
    (hmessages : hostExchange self (.messages sessionId) messages ∈ h)
    (hlast : finalMessage messages = some last) (hunrecorded : unrecorded member messages last = true) :
    Safe Justified Plain h (recordTurnOf self id member sessionId last) fun _ _ => True := by
  have hseen : TurnSeen h self id member.id (member.delivery.map TeamDelivery.id) last.info.id
      (failureReason last) :=
    ⟨state, member, sessionId, messages, last, hread, hmem, rfl, hbound, hmessages, hlast,
      hunrecorded, rfl, rfl, rfl⟩
  refine Safe.bind (Q := fun _ _ => True) (safe_onStore hseen trivial fun _ => trivial)
    fun _ h' hext _ => ?_
  split
  · exact Safe.pure trivial
  next delivery hdelivery =>
  refine Safe.bind safe_read fun after h'' _ hafter => ?_
  refine Safe.ite (fun hnone => ?_) fun _ => Safe.pure trivial
  refine safe_releaseSession (.inr (.inr ⟨h', id, state, member, after, hext.mem hread, hmem,
    holdsDelivery_iff.2 ⟨delivery, hdelivery, rfl⟩, Option.isNone_iff_eq_none.1 hnone, hafter⟩))

theorem safe_reconcileSession {state : TeamState} {member : TeamMember}
    (hread : readExchange self id state ∈ h) (hmem : member ∈ state.members)
    (hbound : member.boundSession = some sessionId) :
    Safe Justified Plain h (reconcileSession self id member sessionId) fun _ _ => True := by
  refine Safe.bind safe_activityOf fun activity h₁ hext₁ _ => ?_
  refine Safe.ite (fun _ => Safe.pure trivial) fun _ => ?_
  refine Safe.bind safe_isIdle fun idle h₂ hext₂ _ => ?_
  refine Safe.bind safe_isInterrupted fun interrupted h₃ hext₃ _ => ?_
  refine Safe.ite (fun _ => Safe.pure trivial) fun _ => ?_
  refine Safe.bind (Q := fun messages h' => hostExchange self (.messages sessionId) messages ∈ h')
    (safe_onHost trivial trivial fun _ => mem_append_right _ (mem_singleton_self _))
    fun messages h₄ hext₄ hmessages => ?_
  have hread₄ := ((((hext₁.trans hext₂).trans hext₃).trans hext₄).mem hread)
  split
  · next last hlast =>
    obtain ⟨hfinal, hunrecorded⟩ := Option.filter_eq_some_iff.1 hlast
    exact safe_recordTurnOf hread₄ hmem hbound hmessages hfinal hunrecorded
  · exact Safe.ite (fun _ => safe_fail) fun _ => Safe.pure trivial

theorem safe_reconcile : Safe Justified Plain h (reconcile self id memberId) fun _ _ => True := by
  refine Safe.bind safe_read fun state h₁ _ hread => ?_
  refine Safe.bind safe_ownCall fun removing h₂ hext₂ _ => ?_
  refine Safe.ite (fun _ => Safe.pure trivial) fun _ => ?_
  refine Safe.bind (Safe.lift (Q := fun member _ => member ∈ state.members)
    fun member hfound => (findMember_ok hfound).1) fun member h₃ hext₃ hmem => ?_
  refine Safe.ite (fun _ => Safe.pure trivial) fun _ => ?_
  refine Safe.bind (safe_hostCall trivial) fun authorized h₄ hext₄ _ => ?_
  refine Safe.ite (fun _ => safe_fail) fun _ => ?_
  split
  · refine Safe.bind safe_isAbandoned fun abandoned h₅ _ _ => ?_
    exact Safe.ite (fun _ => safe_fail) fun _ => Safe.pure trivial
  · next sessionId hbound =>
    have hread₄ := ((hext₂.trans hext₃).trans hext₄).mem hread.mem
    exact safe_reconcileSession hread₄ hmem hbound

end Turns

section Deliveries
variable {self : TeamRuntime} {h : List TeamExchange} {id deliveryId : String}
variable {member : TeamMember}

theorem safe_sessionOf :
    Safe Justified Plain h (sessionOf self id member deliveryId) fun _ _ => True := by
  unfold sessionOf
  split
  · exact Safe.pure trivial
  refine Safe.bind (safe_hostCall trivial) fun session _ _ _ => ?_
  split
  · exact Safe.throw
  · exact Safe.bind (Q := fun _ _ => True) (safe_onStore trivial trivial fun _ => trivial)
      fun _ _ _ _ => Safe.pure trivial

theorem safe_promptDelivery {prompt : TeamPrompt} (hprompt : Prompting h self prompt) :
    Safe Justified Plain h (promptDelivery self id member prompt) fun _ _ => True := by
  refine Safe.bind safe_ownCall fun _ h₁ hext₁ _ => ?_
  have hprompt₁ : Prompting h₁ self prompt := by
    obtain ⟨⟨team, cursor, hreserved⟩, transaction, hlease⟩ := hprompt
    exact ⟨⟨team, cursor, hreserved.extend hext₁⟩, transaction, hext₁.mem hlease⟩
  refine Safe.bind (safe_hostCall hprompt₁) fun _ h₂ _ _ => ?_
  refine Safe.bind (safe_hostCall trivial) fun response h₃ _ _ => ?_
  split
  · exact Safe.throw
  refine Safe.bind (Q := fun _ _ => True) (safe_onStore trivial trivial fun _ => trivial)
    fun _ h₄ _ _ => ?_
  refine Safe.bind safe_read fun after h₅ _ _ => ?_
  refine Safe.bind (Safe.lift (Q := fun _ _ => True) fun _ _ => trivial) fun _ h₆ _ _ => ?_
  refine Safe.ite (fun _ => ?_) fun _ => Safe.pure trivial
  exact Safe.bind (safe_hostCall trivial) fun _ _ _ _ => Safe.pure trivial

theorem safe_sendDelivery {state : TeamState} {pending : List TeamEvent}
    (hreserved : Reserved h id member.id member.cursor pending deliveryId) :
    Safe Justified Plain h (sendDelivery self id state member pending deliveryId)
      fun _ _ => True := by
  refine Safe.bind safe_sessionOf fun sessionId h₁ hext₁ _ => ?_
  refine Safe.bind safe_read fun current h₂ hext₂ _ => ?_
  refine Safe.bind (Safe.lift (Q := fun _ _ => True) fun _ _ => trivial) fun target h₃ hext₃ _ => ?_
  refine Safe.bind safe_ownCall fun stopped h₄ hext₄ _ => ?_
  refine Safe.ite (fun _ => Safe.pure trivial) fun _ => ?_
  have hreserved₄ := hreserved.extend (((hext₁.trans hext₂).trans hext₃).trans hext₄)
  refine Safe.bind (safe_acquireSession hreserved₄) fun acquired h₅ hext₅ hacquired => ?_
  refine Safe.ite (fun hyes => ?_) fun _ => safe_onStore trivial trivial fun _ => trivial
  exact safe_promptDelivery ⟨⟨id, member.cursor, hreserved₄.extend hext₅⟩, hacquired hyes⟩

theorem safe_assertRole {role : String} :
    Safe Justified Plain h (assertRole self role) fun _ _ => True :=
  Safe.bind (safe_hostCall trivial) fun _ _ _ _ =>
    Safe.ite (fun _ => Safe.pure trivial) fun _ => Safe.throw

theorem safe_isFree : Safe Justified Plain h (isFree self member) fun _ _ => True := by
  unfold isFree
  split
  · exact safe_idle
  · exact Safe.pure trivial

theorem safe_baselineOf : Safe Justified Plain h (baselineOf self member) fun _ _ => True := by
  unfold baselineOf
  split
  · exact safe_hostCall trivial
  · exact Safe.pure trivial

theorem safe_deliver {memberId : String} :
    Safe Justified Plain h (deliver self id memberId) fun _ _ => True := by
  refine Safe.bind safe_read fun state h₁ _ hread => ?_
  refine Safe.bind (Safe.lift (Q := fun member _ => member ∈ state.members)
    fun member hfound => (findMember_ok hfound).1) fun member h₂ hext₂ hmem => ?_
  refine Safe.ite (fun _ => Safe.pure trivial) fun _ => ?_
  refine Safe.ite (fun _ => Safe.pure trivial) fun hwake => ?_
  refine Safe.bind safe_isFree fun free h₃ hext₃ _ => ?_
  refine Safe.ite (fun _ => Safe.pure trivial) fun _ => ?_
  refine Safe.bind safe_assertRole fun _ h₄ hext₄ _ => ?_
  refine Safe.bind safe_baselineOf fun baseline h₅ hext₅ _ => ?_
  refine Safe.bind (Q := fun deliveryId h' => h' = h₅ ++ [ownExchange self .randomUUID deliveryId])
    (safe_onSelf trivial trivial fun _ => rfl) fun deliveryId h₆ hext₆ hdrawn => ?_
  have hpending : pendingOf state member ≠ [] := by
    intro hnone
    rw [hnone] at hwake
    exact hwake rfl
  have hread₆ := (((((hext₂.trans hext₃).trans hext₄).trans hext₅).trans hext₆).mem hread.mem)
  have hlast : h₆.getLast? = some (ownExchange self .randomUUID deliveryId) := by
    rw [hdrawn, getLast?_append]
    rfl
  have hmake : Reserving h₆ self id member.id member.cursor (pendingOf state member) deliveryId :=
    ⟨⟨state, member, hread₆, hmem, rfl, rfl, rfl, hpending⟩, hlast⟩
  refine Safe.bind (Q := fun reserved h' => updateExchange self id (.reserve member.id member.cursor
      (pendingOf state member) deliveryId (baseline.map (·.info.id))) reserved ∈ h')
    (safe_onStore hmake trivial fun _ => mem_append_right _ (mem_singleton_self _))
    fun reserved h₇ _ hreserved => ?_
  refine Safe.ite (fun hyes => ?_) fun _ => Safe.pure trivial
  rw [hyes] at hreserved
  exact safe_sendDelivery ⟨self, baseline.map (·.info.id), hreserved⟩

end Deliveries

section Pump
variable {self : TeamRuntime} {h : List TeamExchange} {id : String}

theorem safe_forgetMember {member : Option TeamMember} :
    Safe Justified Plain h (forgetMember self member) fun _ _ => True := by
  unfold forgetMember
  split
  · exact Safe.pure trivial
  · refine Safe.ite (fun _ => ?_) fun _ => Safe.pure trivial
    exact Safe.recover (safe_hostCall trivial) fun _ _ _ => Safe.pure trivial

theorem safe_pumpMember {member : TeamMember} :
    Safe Justified Plain h (pumpMember self id member) fun _ _ => True := by
  refine Safe.bind safe_ownCall fun stopped h₁ _ _ => Safe.ite (fun _ => Safe.pure trivial) fun _ => ?_
  have hturn : Safe Justified Plain h₁ (recover (do
        reconcile self id member.id
        let current ← readTeam self id
        if current.status = .active then deliver self id member.id else return ())
      fun error => fail self id member.id error false) fun _ _ => True := by
    refine Safe.recover ?_ fun _ _ _ => safe_fail
    refine Safe.bind safe_reconcile fun _ _ _ _ => Safe.bind safe_read fun current _ _ _ => ?_
    exact Safe.ite (fun _ => safe_deliver) fun _ => Safe.pure trivial
  exact Safe.bind hturn fun _ _ _ _ => Safe.pure trivial

theorem safe_pumpTeam {state : TeamState} :
    Safe Justified Plain h (pumpTeam self state) fun _ _ => True := by
  refine Safe.bind safe_ownCall fun stopped h₁ _ _ => Safe.ite (fun _ => Safe.pure trivial) fun _ => ?_
  refine Safe.ite (fun _ => Safe.pure trivial) fun _ => ?_
  refine Safe.bind (Safe.forEach fun _ _ _ _ => safe_forgetMember) fun _ h₂ _ _ => ?_
  refine Safe.ite (fun _ => Safe.pure trivial) fun _ => ?_
  have hexpire : Safe Justified Plain h₂ (expireDue self state) fun _ _ => True := by
    refine Safe.bind safe_ownCall fun now _ _ _ => ?_
    exact Safe.ite (fun _ => safe_onStore trivial trivial fun _ => trivial) fun _ => Safe.pure trivial
  exact Safe.bind hexpire fun _ _ _ _ => Safe.forWhile fun _ _ _ _ => safe_pumpMember

theorem safe_tick : Safe Justified Plain h (tick self) fun _ _ => True := by
  refine Safe.bind safe_ownCall fun stopped h₁ _ _ => Safe.ite (fun _ => Safe.pure trivial) fun _ => ?_
  refine Safe.bind safe_ownCall fun pumping h₂ _ _ => Safe.ite (fun _ => Safe.pure trivial) fun _ => ?_
  refine Safe.bind safe_ownCall fun _ h₃ _ _ => ?_
  have hpump : Safe Justified Plain h₃ (pump self) fun _ _ => True :=
    Safe.bind safe_listTeams fun _ _ _ _ =>
      Safe.bind (Safe.forWhile fun _ _ _ _ => safe_pumpTeam) fun _ _ _ _ => Safe.pure trivial
  exact Safe.cleaningUp (fun _ => id) hpump fun _ _ => safe_ownCall

theorem safe_failSession {sessionId reason : String} :
    Safe Justified Plain h (failSession self sessionId reason) fun _ _ => True := by
  refine Safe.bind safe_listTeams fun states _ _ _ => Safe.forEach fun state _ _ _ => ?_
  refine Safe.ite (fun _ => Safe.pure trivial) fun _ => ?_
  split
  · exact safe_fail
  · exact Safe.pure trivial

theorem safe_handleEvent {event : HostEvent} :
    Safe Justified Plain h (handleEvent self event) fun _ _ => True := by
  refine Safe.bind safe_ownCall fun stopped h₁ _ _ => Safe.ite (fun _ => Safe.pure trivial) fun _ => ?_
  split
  · exact safe_failSession
  · exact safe_failSession
  · exact Safe.bind safe_ownCall fun _ _ _ _ => safe_tick
  · exact Safe.bind safe_ownCall fun _ _ _ _ => safe_tick
  · exact safe_tick

end Pump

section Lifecycle
variable {self : TeamRuntime} {h : List TeamExchange} {id : String} {actor : Actor}

theorem safe_status : Safe Justified Plain h (status self actor id) fun _ _ => True := by
  refine Safe.bind safe_read fun state _ _ _ => ?_
  refine Safe.bind (Safe.lift (Q := fun _ _ => True) fun _ _ => trivial) fun _ _ _ _ => ?_
  exact Safe.bind (Safe.lift (Q := fun _ _ => True) fun _ _ => trivial)
    fun _ _ _ _ => Safe.pure trivial

theorem safe_abortTurn {member : TeamMember} {message : String} :
    Safe Justified Plain h (abortTurn self member message) fun _ _ => True := by
  unfold abortTurn
  split
  · refine Safe.bind (safe_hostCall trivial) fun aborted _ _ _ => ?_
    exact Safe.ite (fun _ => Safe.pure trivial) fun _ => Safe.throw
  · exact Safe.pure trivial

theorem safe_beginControl {resume : Bool} (hplain : ∀ x ∈ h, Plain x.call) :
    Safe Justified (fun _ => True) h (onTeam self id (.beginControl actor resume)) fun token h' =>
      Controls h' self id resume token :=
  safe_onStore hplain trivial fun _ => ⟨h, [], actor, rfl, fun _ hmem => nomatch hmem⟩

theorem safe_endControl {resume : Bool} {token : String}
    (hcontrols : Controls h self id resume token) :
    Safe Justified (fun _ => True) h (onTeam self id (.endControl token)) fun _ _ => True :=
  safe_onStore ⟨resume, hcontrols⟩ trivial fun _ => trivial

theorem plain_of_extends {h' : List TeamExchange}
    (hext : Extends (I := teamInterface) Plain [] h') : ∀ x ∈ h', Plain x.call :=
  fun _ hx => (hext.cases hx).elim (nofun) id

theorem safe_remove {memberId : String} :
    Safe Justified (fun _ => True) [] (remove self actor id memberId) fun _ _ => True := by
  refine Safe.first (fun _ _ => trivial) safe_status fun state h₁ hext₁ _ => ?_
  refine Safe.first (fun _ _ => trivial) (Safe.lift (N := Plain) (Q := fun _ _ => True)
    fun _ _ => trivial) fun _ h₂ hext₂ _ => ?_
  refine Safe.ite (fun _ => Safe.throw) fun _ => Safe.ite (fun _ => Safe.throw) fun _ => ?_
  refine Safe.bind (safe_beginControl (plain_of_extends (hext₁.trans hext₂)))
    fun token h₃ _ hbegun => ?_
  refine Safe.first (fun _ _ => trivial) safe_ownCall fun _ h₄ hext₄ _ => ?_
  refine Safe.cleaningUp (fun _ _ => trivial) (N := Plain) (Q := fun _ _ => True) ?_
    fun h₅ hext₅ => ?_
  · refine Safe.bind safe_read fun pending _ _ _ => ?_
    refine Safe.bind (Safe.lift (Q := fun _ _ => True) fun _ _ => trivial) fun member _ _ _ => ?_
    refine Safe.bind safe_abortTurn fun _ _ _ _ => ?_
    refine Safe.bind (Q := fun _ _ => True) (safe_onStore trivial trivial fun _ => trivial)
      fun _ _ _ _ => ?_
    exact Safe.bind safe_read fun _ _ _ _ => safe_forgetMember
  · refine Safe.first (fun _ _ => trivial) safe_ownCall fun _ h₆ hext₆ _ => ?_
    exact safe_endControl (hbegun.extend ((hext₄.trans hext₅).trans hext₆))

theorem safe_delete : Safe Justified (fun _ => True) [] (delete self actor id) fun _ _ => True := by
  refine Safe.first (fun _ _ => trivial) safe_status fun state h₁ hext₁ _ => ?_
  refine Safe.first (fun _ _ => trivial) (Safe.lift (N := Plain) (Q := fun _ _ => True)
    fun _ _ => trivial) fun _ h₂ hext₂ _ => ?_
  refine Safe.ite (fun _ => Safe.pure trivial) fun _ => ?_
  refine Safe.bind (safe_beginControl (plain_of_extends (hext₁.trans hext₂)))
    fun token h₃ _ hbegun => ?_
  refine Safe.cleaningUp (fun _ _ => trivial) (N := Plain) (Q := fun _ _ => True) ?_
    fun h₄ hext₄ => safe_endControl (hbegun.extend hext₄)
  refine Safe.bind safe_read fun current _ _ _ => ?_
  refine Safe.bind (Safe.forEach fun member _ _ _ => ?_) fun _ _ _ _ => ?_
  · exact Safe.ite (fun _ => safe_abortTurn) fun _ => Safe.pure trivial
  · refine Safe.bind (Q := fun _ _ => True) (safe_onStore trivial trivial fun _ => trivial)
      fun _ _ _ _ => ?_
    exact Safe.bind safe_read fun after _ _ _ => Safe.forEach fun _ _ _ _ => safe_forgetMember

end Lifecycle

section Resume
variable {self : TeamRuntime} {h : List TeamExchange} {id : String} {actor : Actor}
  {member : TeamMember}

theorem safe_prepareMember : Safe Justified Plain h (prepareMember self member) fun _ _ => True := by
  unfold prepareMember
  split
  · exact Safe.pure trivial
  refine Safe.ite (fun _ => Safe.pure trivial) fun _ => ?_
  refine Safe.bind (safe_hostCall trivial) fun authorized h₁ _ _ => ?_
  refine Safe.ite (fun _ => Safe.throw) fun _ => ?_
  refine Safe.bind (Safe.ite (fun _ => Safe.pure trivial) fun _ => safe_activityOf)
    fun activity h₂ _ _ => ?_
  refine Safe.ite (fun _ => Safe.pure trivial) fun _ => ?_
  refine Safe.bind (Safe.ite (fun _ => safe_hostCall trivial) fun _ => Safe.pure trivial)
    fun prepared h₃ _ _ => ?_
  refine Safe.ite (fun _ => Safe.throw) fun _ => ?_
  refine Safe.bind (safe_hostCall trivial) fun authorized h₄ _ _ => ?_
  exact Safe.ite (fun _ => Safe.pure trivial) fun _ => Safe.throw

theorem safe_stillRunning {delivery : TeamDelivery} :
    Safe Justified Plain h (stillRunning self member delivery) fun _ _ => True := by
  unfold stillRunning
  split
  · exact Safe.pure trivial
  · refine Safe.ite (fun _ => Safe.pure trivial) fun _ => ?_
    exact Safe.bind safe_activityOf fun _ _ _ _ => Safe.pure trivial

theorem safe_settleDelivery :
    Safe Justified Plain h (settleDelivery self actor id member) fun _ _ => True := by
  unfold settleDelivery
  split
  · exact Safe.pure trivial
  refine Safe.ite (fun _ => ?_) fun _ => ?_
  · exact Safe.ite (fun _ => Safe.throw) fun _ => Safe.pure trivial
  refine Safe.bind safe_stillRunning fun running h₁ _ _ => ?_
  refine Safe.ite (fun _ => Safe.pure trivial) fun _ => Safe.ite (fun _ => ?_) fun _ => ?_
  · exact Safe.bind safe_discard fun _ _ _ _ => Safe.pure trivial
  split
  · refine Safe.bind safe_ownCall fun abandoned h₂ _ _ => ?_
    refine Safe.ite (fun _ => ?_) fun _ => Safe.throw
    exact Safe.bind safe_discard fun _ _ _ _ => Safe.pure trivial
  · refine Safe.bind (Safe.ite (fun _ => safe_hostCall trivial) fun _ => Safe.pure trivial)
      fun stopped h₂ _ _ => ?_
    refine Safe.ite (fun _ => Safe.throw) fun _ => ?_
    refine Safe.bind safe_discard fun _ _ _ _ => ?_
    exact Safe.bind safe_ownCall fun _ _ _ _ => Safe.pure trivial

theorem safe_resume : Safe Justified (fun _ => True) [] (resume self actor id) fun _ _ => True := by
  refine Safe.first (fun _ _ => trivial) safe_status fun before h₁ hext₁ _ => ?_
  refine Safe.ite (fun _ => Safe.throw) fun _ => ?_
  refine Safe.bind (safe_beginControl (plain_of_extends hext₁)) fun token h₂ _ hbegun => ?_
  refine Safe.cleaningUp (fun _ _ => trivial) (N := Plain) (Q := fun _ _ => True) ?_
    fun h₃ hext₃ => safe_endControl (hbegun.extend hext₃)
  refine Safe.bind safe_read fun prepared h₃ hext₃ _ => ?_
  refine Safe.bind (Safe.forEach fun _ _ _ _ => safe_prepareMember) fun _ h₄ hext₄ _ => ?_
  refine Safe.bind safe_read fun reconciled h₅ hext₅ _ => ?_
  refine Safe.bind (Safe.forEach fun _ _ _ _ =>
    Safe.ite (fun _ => Safe.pure trivial) fun _ => safe_reconcile) fun _ h₆ hext₆ _ => ?_
  refine Safe.bind safe_read fun settled h₇ hext₇ _ => ?_
  have hsettle : Safe Justified Plain h₇ (forAll settled.members (settleDelivery self actor id))
      fun _ _ => True := by
    refine Safe.mono (Safe.forAll (P := fun _ => True) (T := fun _ _ _ => True) trivial
      (fun _ _ _ _ _ _ => trivial) fun _ _ _ _ _ => ?_) fun _ _ _ _ => trivial
    exact safe_settleDelivery.mono fun _ _ _ _ => ⟨trivial, trivial⟩
  refine Safe.bind hsettle fun continuing h₈ hext₈ _ => ?_
  have hext := ((((hext₃.trans hext₄).trans hext₅).trans hext₆).trans hext₇).trans hext₈
  exact safe_onStore ⟨token, hbegun.extend hext⟩ trivial fun _ => trivial

end Resume

section Operations
variable {self : TeamRuntime}

theorem safe_create {h : List TeamExchange} {actor : Actor} {name goal : String} {maxTurns : Nat} :
    Safe Justified Plain h (create self actor name goal maxTurns) fun _ _ => True := by
  refine Safe.bind safe_assertRole fun _ _ _ _ => Safe.ite (fun _ => Safe.throw) fun _ => ?_
  refine Safe.bind safe_listTeams fun states _ _ _ => ?_
  refine Safe.ite (fun _ => Safe.throw) fun _ => Safe.ite (fun _ => Safe.throw) fun _ => ?_
  refine Safe.ite (fun _ => Safe.throw) fun _ => ?_
  refine Safe.bind (Q := fun _ _ => True) (safe_onStore trivial trivial fun _ => trivial)
    fun _ _ _ _ => ?_
  exact Safe.bind safe_ownCall fun _ _ _ _ => Safe.pure trivial

theorem operation_justified (operation : TeamOperation) :
    Safe Justified (fun _ => True) [] (operation.run self) fun _ _ => True := by
  have hall : ∀ c : teamInterface.Call, Plain c → True := fun _ _ => trivial
  cases operation with
  | create actor name goal maxTurns =>
    exact (safe_create.calls hall).bind fun _ _ _ _ => Safe.pure trivial
  | add actor id roleId =>
    refine Safe.bind (Q := fun _ _ => True) ?_ fun _ _ _ _ => Safe.pure trivial
    exact Safe.first hall safe_assertRole fun _ _ _ _ =>
      safe_onStore trivial trivial fun _ => trivial
  | send actor id input =>
    refine Safe.bind (Q := fun _ _ => True) ?_ fun _ _ _ _ => Safe.pure trivial
    exact Safe.ite (fun _ => Safe.throw) fun _ => safe_onStore trivial trivial fun _ => trivial
  | remove actor id memberId => exact safe_remove
  | delete actor id => exact safe_delete
  | resume actor id => exact safe_resume.bind fun _ _ _ _ => Safe.pure trivial
  | tick => exact safe_tick.calls hall
  | handleEvent event => exact safe_handleEvent.calls hall

end Operations
end Rolebox.Team
