import Rolebox.Application.NoticeCoverage

/-! When a drain is through, every condition that holds has a notice, unless one was dropped. -/

namespace Rolebox.Graph.GraphNotifications
open General List Function
variable {host : NoticeHost} {w w' : Workspace} {c graphId owner : String} {now : Rat}
  {n n' : Notifications} {key : EffectKey} {event : WorkspaceEvent}

def CapturedIn (host : NoticeHost) (w : Workspace) (event : Event) : Prop :=
  ∃ graphId now, ∃ x ∈ w.conditions host graphId, ∃ wrote,
    event.call = .capture graphId x.2.1 x.1 x.2.2 now ∧ event.answer = .captured wrote

theorem performCalls_events (host : NoticeHost) (calls : List Call) (n : Notifications) :
    ∃ events, Run (Performs host.digest host.retryMs) n events (performCalls host calls n) ∧
      ∀ event ∈ events, event.call ∈ calls ∧
        ∃ m, event.answer = (perform host.digest host.retryMs event.call m).1 := by
  induction calls generalizing n with
  | nil => exact ⟨[], .nil n, fun _ h => nomatch h⟩
  | cons call calls ih =>
    obtain ⟨events, hrun, hcalls⟩ := ih (perform host.digest host.retryMs call n).2
    refine ⟨⟨call, (perform host.digest host.retryMs call n).1⟩ :: events, .cons rfl hrun, ?_⟩
    intro event h
    rcases mem_cons.1 h with rfl | hrest
    · exact ⟨.head _, n, rfl⟩
    · exact ⟨mem_cons_of_mem _ (hcalls event hrest).1, (hcalls event hrest).2⟩

theorem capture_events (host : NoticeHost) (now : Rat) (ids : List String) (w : Workspace)
    {u : Workspace} (hgraphs : u.graphs = w.graphs) :
    ∃ events, Run (Performs host.digest host.retryMs) w.notifications events
        (capture host now ids w).notifications ∧ ∀ event ∈ events, CapturedIn host u event := by
  obtain ⟨events, hrun, hcalls⟩ := performCalls_events host
    (ids.flatMap (captureCalls host now w)) w.notifications
  refine ⟨events, hrun, fun event h => ?_⟩
  obtain ⟨hcall, m, hanswer⟩ := hcalls event h
  obtain ⟨graphId, -, hcall⟩ := mem_flatMap.1 hcall
  obtain ⟨x, hx, hcall⟩ := mem_map.1 hcall
  have hu : x ∈ u.conditions host graphId := by
    unfold Workspace.conditions Workspace.factsOf
    rw [hgraphs]
    exact hx
  refine ⟨graphId, now, x, hu, ?_⟩
  rw [← hcall] at hanswer
  exact ⟨_, hcall.symm, hanswer⟩

theorem transact_events (host : NoticeHost) (now : Rat) (c : String)
    (changes : List (String × GraphFacts)) (others : Bool) (w v : Workspace) :
    ∃ events, Run (Performs host.digest host.retryMs) v.notifications events
        (transact host now c changes others w v).notifications ∧
      ∀ event ∈ events, CapturedIn host (transact host now c changes others w v) event := by
  obtain ⟨hgraphs, hnotifications, -, -⟩ := commit_fields c changes others w
    (beforeCommit host now c (recordChanges c changes v))
  have hsame : (transact host now c changes others w v).graphs =
      (recordChanges c changes v).graphs := hgraphs.trans graphs_beforeCommit
  unfold transact at hsame ⊢
  rw [hnotifications]
  by_cases hobserved : ((recordChanges c changes v).connections c).observers = []
  · refine ⟨[], ?_, fun _ h => nomatch h⟩
    rw [beforeCommit, if_pos hobserved]
    exact .nil _
  · rw [beforeCommit, if_neg hobserved] at hsame ⊢
    exact capture_events host now _ (recordChanges c changes v) hsame

theorem Moved.events (h : Moved host w event w') :
    ∃ events, Run (Performs host.digest host.retryMs) w.notifications events w'.notifications ∧
      ∀ e ∈ events, CapturedIn host w' e ∨ ∃ owner call answer now,
        event = .deliver owner call answer now ∧ e = ⟨.drain owner call, answer⟩ := by
  have hnone : ∃ events, Run (Performs host.digest host.retryMs) w.notifications events
      w.notifications ∧ ∀ e ∈ events, CapturedIn host w' e ∨ ∃ owner call answer now,
        event = .deliver owner call answer now ∧ e = ⟨.drain owner call, answer⟩ :=
    ⟨[], .nil _, fun _ h => nomatch h⟩
  cases h with
  | rollback | watch | unwatch | readVersion | listOrigins | checkVersion | finish => exact hnone
  | statement c changes others =>
    have hsame := (commit_fields c changes others w (recordChanges c changes w)).2.1
    rw [hsame]
    exact ⟨[], .nil _, fun _ h => nomatch h⟩
  | transaction c changes now others =>
    obtain ⟨events, hrun, hcaptured⟩ := transact_events host now c changes others w w
    exact ⟨events, hrun, fun e he => Or.inl (hcaptured e he)⟩
  | @start owner watch now hwatch hwatching hidle =>
    obtain ⟨events, hrun, hcaptured⟩ := transact_events host now watch.connection []
      false w w
    exact ⟨events, hrun, fun e he => Or.inl (hcaptured e he)⟩
  | @captureNext owner graphId watch version rest now hwatch hphase =>
    obtain ⟨events, hrun, hcaptured⟩ := transact_events host now watch.connection []
      false w (capture host now [graphId] w)
    have hgraphs : (transact host now watch.connection [] false w
        (capture host now [graphId] w)).graphs = w.graphs :=
      (commit_fields ..).1.trans graphs_beforeCommit
    obtain ⟨first, hfirst, hcaptured'⟩ := capture_events host now [graphId] w hgraphs
    refine ⟨first ++ events, hfirst.append hrun, fun e he => Or.inl ?_⟩
    rcases mem_append.1 he with he | he
    · exact hcaptured' e he
    · exact hcaptured e he
  | @deliver owner watch call answer after now hwatch hphase hview hperform =>
    have hfirst : Performs host.digest host.retryMs w.notifications ⟨.drain owner call, answer⟩
        after := hperform
    by_cases htransacts : answer.transacts = true
    · rw [if_pos htransacts]
      obtain ⟨events, hrun, hcaptured⟩ := transact_events host now watch.connection [] false w
        { w with notifications := after }
      refine ⟨_ :: events, .cons hfirst hrun, fun e he => ?_⟩
      rcases mem_cons.1 he with rfl | he
      · exact Or.inr ⟨owner, call, answer, now, rfl, rfl⟩
      · exact Or.inl (hcaptured e he)
    · rw [if_neg htransacts]
      refine ⟨[_], .cons hfirst (.nil _), fun e he => ?_⟩
      obtain rfl := mem_singleton.1 he
      exact Or.inr ⟨owner, call, answer, now, rfl, rfl⟩

def Accepted (event : WorkspaceEvent) (key : EffectKey) : Prop :=
  ∃ owner call now, event = .deliver owner call (.sent key true) now

def Discarded (event : WorkspaceEvent) (key : EffectKey) : Prop :=
  ∃ owner call answer now, event = .deliver owner call answer now ∧
    (answer = .judged key true ∨ ∃ effect, answer = .refused effect ∧ effect.key = key)

theorem Moved.settled (h : Moved host w event w') (hs : Settled key w'.notifications) :
    Settled key w.notifications ∨ Accepted event key ∨ Discarded event key := by
  obtain ⟨events, hrun, hevents⟩ := h.events
  rcases hrun.arises (fun _ _ _ h => settled_arises h) hs with hold | ⟨e, he, hsettles⟩
  · exact Or.inl hold
  right
  rcases hevents e he with ⟨_, _, _, _, wrote, -, hanswer⟩ | ⟨owner, call, answer, now, rfl, rfl⟩
  · rcases hsettles with h | h | ⟨effect, h, -⟩ <;> exact nomatch hanswer.symm.trans h
  rcases hsettles with hsent | hjudged | ⟨effect, hrefused, hkey, -⟩
  · have hsent' : answer = .sent key true := hsent
    exact Or.inl ⟨owner, call, now, by rw [hsent']⟩
  · exact Or.inr ⟨owner, call, answer, now, rfl, Or.inl hjudged⟩
  · exact Or.inr ⟨owner, call, answer, now, rfl, Or.inr ⟨effect, hrefused, hkey⟩⟩

theorem noted_updateWhere {p : NotificationRow → Prop} [DecidablePred p]
    {f : NotificationRow → NotificationRow} (hf : ∀ row, (f row).key = row.key)
    {rows : List NotificationRow} (h : ∃ row ∈ updateWhere p f rows, row.key = key) :
    ∃ row ∈ rows, row.key = key := by
  obtain ⟨row, hrow, hkey⟩ := h
  rcases mem_updateWhere.1 hrow with ⟨hold, -⟩ | ⟨old, hold, -, rfl⟩
  · exact ⟨row, hold, hkey⟩
  · exact ⟨old, hold, (hf old).symm.trans hkey⟩

theorem noted_of_drain {digest : Digest} {retryMs : Rat} {call : DrainCall}
    (h : Noted (perform digest retryMs (.drain owner call) n).2 key) : Noted n key := by
  unfold perform at h
  dsimp only at h
  split at h
  · unfold performIdle at h
    split at h
    · exact h
    · split at h
      · exact h
      unfold visitEffect at h
      split at h
      · exact noted_updateWhere (fun _ => by rfl) h
      split at h
      · unfold claimVisited at h
        dsimp only at h
        split at h
        · exact noted_updateWhere (fun _ => by rfl) h
        · exact h
      · exact h
    · exact h
    · exact h
  · unfold performInFlight at h
    split at h
    · split at h <;> exact h
    · split at h
      · exact noted_updateWhere (fun _ => by rfl) h
      · exact h
    · split at h <;> exact h
    · split at h
      · exact noted_updateWhere (fun _ => by rfl) h
      · exact h
    · exact h
    · exact h

theorem noted_arises {e : Event} (h : Performs host.digest host.retryMs n e n')
    (hnoted : Noted n' key) : Noted n key ∨ ∃ graphId runId origin notice now,
      e.call = .capture graphId runId origin notice now ∧
        key = conditionKey host graphId (origin, runId, notice) := by
  unfold Performs at h
  rw [show n' = (perform host.digest host.retryMs e.call n).2 from by rw [h]] at hnoted
  cases hcall : e.call with
  | drain owner call =>
    rw [hcall] at hnoted
    exact .inl (noted_of_drain hnoted)
  | capture graphId runId origin notice now =>
    rw [hcall] at hnoted
    obtain ⟨row, hrow, rfl⟩ := hnoted
    rcases mem_insertEffect hrow with hold | rfl
    · exact .inl ⟨row, hold, rfl⟩
    · exact .inr ⟨graphId, runId, origin, notice, now, rfl, rfl⟩

theorem Moved.noted_arises (h : Moved host w event w') (hnoted : Noted w'.notifications key) :
    Noted w.notifications key ∨
      ∃ graphId, ∃ x ∈ w'.conditions host graphId, key = conditionKey host graphId x := by
  obtain ⟨events, hrun, hevents⟩ := h.events
  rcases hrun.arises (fun _ _ _ h => GraphNotifications.noted_arises h) hnoted with hold | hnew
  · exact Or.inl hold
  obtain ⟨e, he, graphId, runId, origin, notice, now, hcall, hkey⟩ := hnew
  rcases hevents e he with ⟨g, now', x, hx, wrote, hcaptured, -⟩ | ⟨o, call, answer, now', -, rfl⟩
  · obtain ⟨rfl, rfl, rfl, rfl, rfl⟩ := Call.capture.inj (hcall.symm.trans hcaptured)
    exact Or.inr ⟨_, x, hx, hkey⟩
  · exact nomatch hcall

section Watches
variable {watch : Watch} {version : Nat} {ids : List String}

def Behind (host : NoticeHost) (w : Workspace) (c : String) (version : Nat) (ids : List String) :
    Prop :=
  version ≤ (w.connections c).dataVersion ∧
    (version = (w.connections c).dataVersion → ∀ graphId, Uncovered host w graphId →
      InJournal w c graphId ∨ graphId ∈ ids)

theorem Behind.moves (h : Behind host w c version ids) (hj : (w.connections c).journal.isSome)
    (hmoves : Moves host c w w') : Behind host w' c version ids := by
  refine ⟨h.1.trans hmoves.version, fun heq graphId hun => ?_⟩
  have hstill : (w'.connections c).dataVersion = (w.connections c).dataVersion :=
    le_antisymm (heq ▸ h.1) hmoves.version
  rcases hmoves.follows hj hstill graphId hun with hin | ⟨hbefore, hnot⟩
  · exact .inl hin
  · exact .inr ((h.2 (heq.trans hstill) graphId hbefore).resolve_left hnot)

def PhaseLaw (host : NoticeHost) (w : Workspace) (c : String) : Phase → Prop
  | .versioned version => version ≤ (w.connections c).dataVersion
  | .capturing version ids => Behind host w c version ids
  | _ => True

structure WatchLaw (host : NoticeHost) (w : Workspace) (watch : Watch) : Prop where
  journal : (w.connections watch.connection).journal.isSome
  captured : ∀ version, watch.capturedExternalVersion = some version →
    Behind host w watch.connection version []
  phase : PhaseLaw host w watch.connection watch.phase

theorem WatchLaw.moves (h : WatchLaw host w watch) (hmoves : Moves host watch.connection w w') :
    WatchLaw host w' watch where
  journal := hmoves.journal h.journal
  captured := fun version hversion => (h.captured version hversion).moves h.journal hmoves
  phase := by
    have hphase := h.phase
    cases hcase : watch.phase with
    | versioned version =>
      rw [hcase] at hphase
      exact hphase.trans hmoves.version
    | capturing version ids =>
      rw [hcase] at hphase
      exact Behind.moves hphase h.journal hmoves
    | idle | flushed | listing | delivering => trivial

def Watched (host : NoticeHost) (w : Workspace) : Prop :=
  ∀ owner watch, w.watches owner = some watch → WatchLaw host w watch

theorem Watched.withWatch (hall : Watched host w) (hmoves : ∀ c, Moves host c w w')
    (hwatches : w'.watches = w.watches) (hnew : WatchLaw host w' watch) :
    Watched host (w'.withWatch owner watch) := by
  intro other watch' h
  by_cases howner : other = owner
  · subst howner
    have hself : (w'.withWatch other watch).watches other = some watch := update_self ..
    obtain rfl := Option.mem_unique hself h
    exact ⟨hnew.journal, hnew.captured, hnew.phase⟩
  · have hother : (w'.withWatch owner watch).watches other = w.watches other := by
      rw [← hwatches]
      exact update_of_ne howner ..
    have hold := (hall other watch' (hother ▸ h)).moves (hmoves _)
    exact ⟨hold.journal, hold.captured, hold.phase⟩

theorem transact_watches {changes : List (String × GraphFacts)} {others : Bool} (w v : Workspace) :
    (transact host now c changes others w v).watches = v.watches := by
  have hbefore : (beforeCommit host now c (recordChanges c changes v)).watches = v.watches := by
    unfold beforeCommit
    split <;> rfl
  unfold transact commit
  split
  · exact hbefore
  · exact hbefore

theorem Uncovered.origin (h : Uncovered host w graphId) : graphId ∈ w.invocationOriginGraphIds := by
  obtain ⟨x, hx, -⟩ := h
  unfold Workspace.conditions Workspace.factsOf at hx
  cases hfacts : w.graphs.lookup graphId with
  | none =>
    rw [hfacts] at hx
    exact nomatch hx
  | some facts =>
    rw [hfacts] at hx
    have horigin : facts.origin.isSome := by
      cases horigin : facts.origin with
      | some _ => rfl
      | none =>
        simp only [Option.getD_some, GraphFacts.conditions, horigin] at hx
        split at hx <;> exact nomatch hx
    exact mem_map.2 ⟨(graphId, facts), mem_filter.2 ⟨mem_of_lookup hfacts, horigin⟩, rfl⟩

theorem not_uncovered_capture (hw' : w' = transact host now c [] false w
    (capture host now [graphId] w)) : ¬ Uncovered host w' graphId := by
  rintro ⟨x, hx, hno⟩
  obtain ⟨hgraphs, hnotifications, -, -⟩ := commit_fields c [] false w
    (beforeCommit host now c (recordChanges c [] (capture host now [graphId] w)))
  have hsame : w'.graphs = w.graphs := by
    rw [hw']
    exact hgraphs.trans graphs_beforeCommit
  have hx' : x ∈ w.conditions host graphId := by
    unfold Workspace.conditions Workspace.factsOf at hx
    rwa [hsame] at hx
  apply hno
  rw [hw', transact, hnotifications]
  exact noted_beforeCommit
    (w := recordChanges c [] (capture host now [graphId] w))
    (noted_of_capture (mem_singleton_self _) hx')

theorem phaseLaw_afterCall {phase : Phase} {call : DrainCall} (h : deliversIn phase call = true) :
    PhaseLaw host w c (afterCall phase call) := by
  cases call with
  | list | stop => trivial
  | visit | judge | renew | send | finish =>
    have hphase : phase = .delivering := of_decide_eq_true h
    rw [hphase]
    trivial

theorem Watched.moved (hall : Watched host w) (h : Moved host w event w') : Watched host w' := by
  have hmoves := h.moves
  cases h with
  | transaction c changes now others =>
    intro owner watch hwatch
    rw [transact_watches] at hwatch
    exact (hall owner watch hwatch).moves (hmoves _)
  | statement c changes others =>
    intro owner watch hwatch
    have hsame : (commit c changes others w (recordChanges c changes w)).watches = w.watches := by
      unfold commit
      split <;> rfl
    rw [hsame] at hwatch
    exact (hall owner watch hwatch).moves (hmoves _)
  | rollback => exact hall
  | watch owner c hfree =>
    refine hall.withWatch (fun d => ?_) rfl ⟨?_, fun _ h => (nomatch h), trivial⟩
    · exact ⟨(hmoves d).journal, (hmoves d).version, (hmoves d).follows, (hmoves d).noted⟩
    · show (update w.connections c _ c).journal.isSome
      rw [update_self]
      rfl
  | unwatch hwatch =>
    intro other watch hother
    exact (hall other watch hother).moves (hmoves _)
  | @start owner watch now hwatch hwatching hidle =>
    have htransact : ∀ d, Moves host d w (transact host now watch.connection [] false w w) :=
      fun d => transact_moves (.refl w)
    have hlaw := (hall owner watch hwatch).moves (htransact _)
    exact hall.withWatch htransact (transact_watches w w) ⟨hlaw.journal, hlaw.captured, trivial⟩
  | @readVersion owner watch hwatch hphase =>
    have hlaw := hall owner watch hwatch
    refine hall.withWatch (fun _ => (Prepared.refl w).moves) rfl ⟨hlaw.journal, hlaw.captured, ?_⟩
    dsimp only
    split
    · trivial
    · exact le_rfl
  | @listOrigins owner watch version hwatch hphase =>
    have hlaw := hall owner watch hwatch
    refine hall.withWatch (fun _ => (Prepared.refl w).moves) rfl ⟨hlaw.journal, hlaw.captured, ?_⟩
    have hle := hlaw.phase
    rw [hphase] at hle
    exact ⟨hle, fun _ graphId hun => .inr hun.origin⟩
  | @captureNext owner graphId watch version rest now hwatch hphase =>
    have htransact : ∀ d, Moves host d w (transact host now watch.connection [] false w
        (capture host now [graphId] w)) := fun d => transact_moves (prepared_capture [graphId])
    have hlaw := (hall owner watch hwatch).moves (htransact _)
    refine hall.withWatch htransact (transact_watches w _) ⟨hlaw.journal, hlaw.captured, ?_⟩
    have hbehind := hlaw.phase
    rw [hphase] at hbehind
    refine ⟨hbehind.1, fun heq other hun => ?_⟩
    rcases hbehind.2 heq other hun with hin | hmem
    · exact .inl hin
    · rcases mem_cons.1 hmem with rfl | hrest
      · exact absurd hun (not_uncovered_capture rfl)
      · exact .inr hrest
  | @checkVersion owner watch version hwatch hphase =>
    have hlaw := hall owner watch hwatch
    refine hall.withWatch (fun _ => (Prepared.refl w).moves) rfl ⟨hlaw.journal, ?_, trivial⟩
    intro version' hversion'
    dsimp only at hversion'
    split at hversion'
    · cases hversion'
      have hbehind := hlaw.phase
      rw [hphase] at hbehind
      exact hbehind
    · exact hlaw.captured version' hversion'
  | @deliver owner watch call answer after now hwatch hphase hview hperform =>
    have hprepared := prepared_perform hperform
    generalize hwritten : (if answer.transacts = true then
      transact host now watch.connection [] false w { w with notifications := after }
      else { w with notifications := after }) = v
    have hv : (∀ d, Moves host d w v) ∧ v.watches = w.watches := by
      rw [← hwritten]
      split
      · exact ⟨fun d => transact_moves hprepared, transact_watches ..⟩
      · exact ⟨fun d => hprepared.moves, rfl⟩
    have hlaw := (hall owner watch hwatch).moves (hv.1 _)
    exact hall.withWatch hv.1 hv.2 ⟨hlaw.journal, hlaw.captured, phaseLaw_afterCall hphase⟩
  | @finish owner watch hwatch hwatching hphase =>
    have hlaw := hall owner watch hwatch
    exact hall.withWatch (fun _ => (Prepared.refl w).moves) rfl
      ⟨hlaw.journal, hlaw.captured, trivial⟩

end Watches

section Passes

def WorkspaceEvent.changes : WorkspaceEvent → List (String × GraphFacts)
  | .transaction _ changes _ _ | .statement _ changes _ => changes
  | _ => []

/-- Records change, if at all, in a transaction of that connection. -/
def Quiet (c : String) (event : WorkspaceEvent) : Prop :=
  event.changes = [] ∨ ∃ changes now others, event = .transaction c changes now others

variable {watch : Watch} {d : String} {changes : List (String × GraphFacts)} {others : Bool}
  {v : Workspace}

theorem transact_graphs : (transact host now d [] others w v).graphs = v.graphs :=
  (commit_fields ..).1.trans graphs_beforeCommit

theorem Moved.graphs (h : Moved host w event w') (hchanges : event.changes = []) :
    w'.graphs = w.graphs := by
  cases h with
  | transaction =>
    obtain rfl := hchanges
    exact transact_graphs
  | statement =>
    obtain rfl := hchanges
    exact (commit_fields ..).1
  | start | captureNext => exact transact_graphs
  | rollback | watch | unwatch | readVersion | listOrigins | checkVersion | finish => rfl
  | @deliver _ _ _ answer _ =>
    show (if answer.transacts = true then _ else _ : Workspace).graphs = _
    split
    · exact transact_graphs
    · rfl

theorem Moved.uncovered (h : Moved host w event w') (hchanges : event.changes = [])
    (hun : Uncovered host w' graphId) : Uncovered host w graphId :=
  hun.back (by rw [Workspace.factsOf, h.graphs hchanges]; rfl) (h.moves "").noted

theorem transact_journal_other (h : c ≠ d) :
    ((transact host now d changes others w v).connections c).journal =
      (v.connections c).journal := by
  unfold transact
  rw [((commit_fields ..).2.2.2 c).1, connections_beforeCommit_of_ne h, recordChanges_of_ne h]

theorem transact_observers :
    ((transact host now d changes others w v).connections c).observers =
      (v.connections c).observers := by
  unfold transact
  rw [((commit_fields ..).2.2.2 c).2, (beforeCommit_connection ..).2.1,
    (recordChanges_connection ..).2.1]

theorem transact_journal_empty (hp : Prepared w v) (howner : owner ∈ (w.connections c).observers)
    (hjournal : (w.connections c).journal = some []) :
    ((transact host now d changes others w v).connections c).journal = some [] := by
  by_cases h : c = d
  · subst h
    exact transact_journal hp (ne_nil_of_mem howner)
  · rw [transact_journal_other h, hp.connections]
    exact hjournal

theorem transact_uncovered (howner : owner ∈ (w.connections c).observers)
    (hjournal : (w.connections c).journal = some [])
    (hun : Uncovered host (transact host now c changes others w w) graphId) :
    Uncovered host w graphId := by
  have hmoves : Moves host c w (transact host now c changes others w w) := transact_moves (.refl w)
  have hversion : ((transact host now c changes others w w).connections c).dataVersion =
      (w.connections c).dataVersion := by
    unfold transact
    rw [(commit_fields ..).2.2.1, (beforeCommit_connection ..).1, (recordChanges_connection ..).1]
  have hafter : ((transact host now c changes others w w).connections c).journal = some [] :=
    transact_journal (.refl w) (ne_nil_of_mem howner)
  rcases hmoves.follows (hjournal ▸ rfl) hversion graphId hun with ⟨journal, hj, hmem⟩ | hbefore
  · obtain rfl := Option.mem_unique hafter hj
    exact nomatch hmem
  · exact hbefore.1

/-- What a quiet step keeps of a connection: its watchers, an empty journal and full coverage. -/
structure Calm (host : NoticeHost) (owner c : String) (w w' : Workspace) : Prop where
  observers : owner ∈ (w'.connections c).observers → owner ∈ (w.connections c).observers
  journal : owner ∈ (w.connections c).observers → (w.connections c).journal = some [] →
    (w'.connections c).journal = some []
  uncovered : owner ∈ (w.connections c).observers → (w.connections c).journal = some [] →
    ∀ graphId, Uncovered host w' graphId → Uncovered host w graphId

/-- While its owner watches, only the graphs a pass has still to capture are uncovered. -/
def CurrentAt (host : NoticeHost) (w : Workspace) (watch : Watch) : Prop :=
  watch.phase ≠ .idle → (w.connections watch.connection).journal = some [] ∧
    match watch.phase with
    | .capturing _ ids => ∀ graphId, Uncovered host w graphId → graphId ∈ ids
    | .listing | .delivering => ∀ graphId, ¬ Uncovered host w graphId
    | _ => True

def Current (host : NoticeHost) (owner : String) (w : Workspace) : Prop :=
  ∀ watch, w.watches owner = some watch →
    owner ∈ (w.connections watch.connection).observers → CurrentAt host w watch

theorem CurrentAt.calm (h : CurrentAt host w watch)
    (howner : owner ∈ (w.connections watch.connection).observers)
    (hcalm : Calm host owner watch.connection w w') : CurrentAt host w' watch := by
  intro hphase
  obtain ⟨hjournal, hcase⟩ := h hphase
  have hback := hcalm.uncovered howner hjournal
  refine ⟨hcalm.journal howner hjournal, ?_⟩
  cases hp : watch.phase with
  | idle | flushed | versioned => trivial
  | capturing version ids | listing | delivering =>
    rw [hp] at hcase
    exact fun graphId hun => hcase graphId (hback graphId hun)

theorem Current.calm (h : Current host owner w) (hwatches : w'.watches owner = w.watches owner)
    (hcalm : ∀ watch, w.watches owner = some watch → Calm host owner watch.connection w w') :
    Current host owner w' := by
  intro watch hwatch howner
  rw [hwatches] at hwatch
  have hbefore := (hcalm watch hwatch).observers howner
  exact (h watch hwatch hbefore).calm hbefore (hcalm watch hwatch)

theorem Current.withWatch {actor : String} (h : Current host owner w)
    (hwatches : w'.watches = w.watches)
    (hcalm : ∀ watch, w.watches owner = some watch → Calm host owner watch.connection w w')
    (hnew : actor = owner → owner ∈ (w'.connections watch.connection).observers →
      CurrentAt host w' watch) : Current host owner (w'.withWatch actor watch) := by
  by_cases hactor : actor = owner
  · subst hactor
    intro watch' hwatch' howner
    have hself : (w'.withWatch actor watch).watches actor = some watch := update_self ..
    obtain rfl := Option.mem_unique hself hwatch'
    exact hnew rfl howner
  · refine Current.calm h ?_ fun watch' hwatch' => ?_
    · rw [← hwatches]
      exact update_of_ne (Ne.symm hactor) ..
    · exact ⟨(hcalm watch' hwatch').observers, (hcalm watch' hwatch').journal,
        (hcalm watch' hwatch').uncovered⟩

theorem transact_calm (hp : Prepared w v) :
    Calm host owner c w (transact host now d [] others w v) where
  observers := by rw [transact_observers, hp.connections]; exact id
  journal := transact_journal_empty hp
  uncovered _ _ graphId hun := by
    refine hun.back ?_ (transact_moves (d := d) hp).noted
    rw [Workspace.factsOf, transact_graphs, hp.graphs]
    rfl

theorem Prepared.calm (hp : Prepared w v) : Calm host owner c w v where
  observers := by rw [hp.connections]; exact id
  journal _ hjournal := by rw [hp.connections]; exact hjournal
  uncovered _ _ graphId hun := by
    refine hun.back ?_ hp.noted
    rw [Workspace.factsOf, hp.graphs]
    rfl

theorem Quiet.transact_calm (hquiet : changes = [] ∨ d = c) :
    Calm host owner c w (transact host now d changes others w w) := by
  rcases hquiet with rfl | rfl
  · exact GraphNotifications.transact_calm (.refl w)
  · exact ⟨by rw [transact_observers]; exact id, transact_journal_empty (.refl w),
      fun howner hjournal _ hun => transact_uncovered howner hjournal hun⟩

theorem statement_calm : Calm host owner c w (commit d [] others w (recordChanges d [] w)) := by
  obtain ⟨hgraphs, hnotifications, -, hrest⟩ := commit_fields d [] others w (recordChanges d [] w)
  refine ⟨?_, fun _ hjournal => ?_, fun _ _ graphId hun => ?_⟩
  · rw [(hrest c).2, (recordChanges_connection ..).2.1]
    exact id
  · rw [(hrest c).1]
    by_cases h : c = d
    · subst h
      rw [recordChanges_self, hjournal]
      rfl
    · rw [recordChanges_of_ne h, hjournal]
  · refine hun.back ?_ ?_
    · rw [Workspace.factsOf, hgraphs]
      rfl
    · rw [hnotifications]
      exact fun _ => id

theorem withConnection_calm {connection : Connection}
    (hjournal : (w.connections d).journal = some [] → connection.journal = some [])
    (howner : d = c → owner ∈ connection.observers → owner ∈ (w.connections d).observers) :
    Calm host owner c w (w.withConnection d connection) := by
  refine ⟨?_, fun _ hbefore => ?_, fun _ _ _ hun => hun⟩
  · by_cases h : c = d
    · subst h
      rw [show (w.withConnection c connection).connections c = connection from
        update_self ..]
      exact howner rfl
    · rw [show (w.withConnection d connection).connections c = w.connections c from
        update_of_ne h ..]
      exact id
  · by_cases h : c = d
    · subst h
      rw [show (w.withConnection c connection).connections c = connection from
        update_self ..]
      exact hjournal hbefore
    · rw [show (w.withConnection d connection).connections c = w.connections c from
        update_of_ne h ..]
      exact hbefore

theorem mem_nil_of_journal (h : InJournal w c graphId)
    (hjournal : (w.connections c).journal = some []) : False := by
  obtain ⟨journal, hj, hmem⟩ := h
  obtain rfl := Option.mem_unique hjournal hj
  exact nomatch hmem

theorem Current.moved (h : Current host owner w) (hall : Watched host w)
    (hmoved : Moved host w event w')
    (hquiet : ∀ watch, w.watches owner = some watch → Quiet watch.connection event) :
    Current host owner w' := by
  cases hmoved with
  | transaction d changes now others =>
    refine h.calm (by rw [transact_watches]) fun watch hwatch => Quiet.transact_calm ?_
    rcases hquiet watch hwatch with hnone | ⟨_, _, _, hevent⟩
    · exact .inl hnone
    · exact .inr (WorkspaceEvent.transaction.inj hevent).1
  | statement d changes others =>
    have hsame : (commit d changes others w (recordChanges d changes w)).watches = w.watches := by
      unfold commit
      split <;> rfl
    refine h.calm (by rw [hsame]) fun watch hwatch => ?_
    rcases hquiet watch hwatch with hnone | ⟨_, _, _, hevent⟩
    · obtain rfl := hnone
      exact statement_calm
    · exact nomatch hevent
  | rollback => exact h
  | watch actor d hfree =>
    refine h.withWatch rfl (fun watch hwatch => withConnection_calm ?_ ?_) fun _ _ hphase => ?_
    · intro hjournal
      show some ((w.connections d).journal.getD []) = some []
      rw [hjournal]
      rfl
    · intro _ hmem
      rcases mem_cons.1 hmem with rfl | hmem
      · exact nomatch hfree.symm.trans hwatch
      · exact hmem
    · exact absurd rfl hphase
  | unwatch hwatch =>
    refine h.calm rfl fun watch _ => withConnection_calm id fun _ hmem => ?_
    exact (mem_filter.1 hmem).1
  | @start actor watch now hwatch hwatching hidle =>
    refine h.withWatch (transact_watches w w) (fun _ _ => transact_calm (.refl w)) fun _ _ _ => ?_
    exact ⟨transact_journal (.refl w) (ne_nil_of_mem hwatching), trivial⟩
  | @readVersion actor watch hwatch hphase =>
    refine h.withWatch rfl (fun _ _ => (Prepared.refl w).calm) ?_
    rintro rfl howner _
    obtain ⟨hjournal, -⟩ := h watch hwatch howner (by rw [hphase]; exact nofun)
    refine ⟨hjournal, ?_⟩
    dsimp only
    split
    · next hlisting =>
      split at hlisting
      · exact nomatch hlisting
      · exact nomatch hlisting
    · next hlisting =>
      split at hlisting
      · next hcaptured =>
        intro graphId hun
        have hbehind := (hall _ watch hwatch).captured _ hcaptured
        rcases hbehind.2 rfl graphId hun with hin | hmem
        · exact mem_nil_of_journal hin hjournal
        · exact nomatch hmem
      · exact nomatch hlisting
    · next hdelivering =>
      split at hdelivering
      · exact nomatch hdelivering
      · exact nomatch hdelivering
    · trivial
  | @listOrigins actor watch version hwatch hphase =>
    refine h.withWatch rfl (fun _ _ => (Prepared.refl w).calm) ?_
    rintro rfl howner _
    obtain ⟨hjournal, -⟩ := h watch hwatch howner (by rw [hphase]; exact nofun)
    exact ⟨hjournal, fun graphId hun => hun.origin⟩
  | @captureNext actor graphId watch version rest now hwatch hphase =>
    have hcalm : ∀ d, Calm host owner d w (transact host now watch.connection [] false w
        (capture host now [graphId] w)) := fun d => transact_calm (prepared_capture [graphId])
    refine h.withWatch (transact_watches w _) (fun _ _ => hcalm _) ?_
    rintro rfl howner _
    have hbefore := (hcalm _).observers howner
    obtain ⟨hjournal, hcase⟩ := h watch hwatch hbefore (by rw [hphase]; exact nofun)
    refine ⟨(hcalm _).journal hbefore hjournal, fun other hun => ?_⟩
    rw [hphase] at hcase
    rcases mem_cons.1 (hcase other ((hcalm _).uncovered hbefore hjournal other hun)) with
      rfl | hrest
    · exact absurd hun (not_uncovered_capture rfl)
    · exact hrest
  | @checkVersion actor watch version hwatch hphase =>
    refine h.withWatch rfl (fun _ _ => (Prepared.refl w).calm) ?_
    rintro rfl howner _
    obtain ⟨hjournal, hcase⟩ := h watch hwatch howner (by rw [hphase]; exact nofun)
    rw [hphase] at hcase
    exact ⟨hjournal, fun graphId hun => nomatch hcase graphId hun⟩
  | @deliver actor watch call answer after now hwatch hphase hview hperform =>
    have hprepared := prepared_perform hperform
    generalize hwritten : (if answer.transacts = true then
      transact host now watch.connection [] false w { w with notifications := after }
      else { w with notifications := after }) = v
    have hv : (∀ d, Calm host owner d w v) ∧ v.watches = w.watches := by
      rw [← hwritten]
      split
      · exact ⟨fun d => transact_calm hprepared, transact_watches ..⟩
      · exact ⟨fun d => hprepared.calm, rfl⟩
    refine h.withWatch hv.2 (fun _ _ => hv.1 _) ?_
    rintro rfl howner
    have hbefore := (hv.1 _).observers howner
    have hcurrent := (h watch hwatch hbefore).calm hbefore (hv.1 _)
    cases call with
    | stop => exact fun hidle => absurd rfl hidle
    | list =>
      have hlisting : watch.phase = .listing := of_decide_eq_true hphase
      intro _
      obtain ⟨hjournal, hcase⟩ := hcurrent (by rw [hlisting]; exact nofun)
      rw [hlisting] at hcase
      exact ⟨hjournal, hcase⟩
    | visit | judge | renew | send | finish => exact hcurrent
  | @finish actor watch hwatch hwatching hphase =>
    refine h.withWatch rfl (fun _ _ => (Prepared.refl w).calm) fun _ _ hidle => ?_
    exact absurd rfl hidle

end Passes

section Drains

/-- A drain finishes a notice without a send: it is obsolete, or its envelope unreadable. -/
inductive Dropped (host : NoticeHost) (w : Workspace) (key : EffectKey) : WorkspaceEvent → Prop where
  | lapsed {owner : String} {work : InFlight} {current : Option CurrentRun}
      {view : Option (Option CurrentRun)} {answer : Answer} {now : Rat}
      (hwork : (w.notifications.drains owner).inFlight = some work)
      (hkey : work.effect.key = key) (hkind : work.delivery.notification.kind = .attention)
      (hcurrent : (w.factsOf work.delivery.notification.graphId).judged host.sha256 = some current)
      (hobsolete : obsolete host.digest current work.delivery.notification = true) :
      Dropped host w key (.deliver owner (.judge view) answer now)
  | unreadable {owner : String} {effect : PendingNotificationEffect}
      {rest : List PendingNotificationEffect} {retryClock leaseClock claimClock : Rat}
      {answer : Answer} {now : Rat}
      (heffects : (w.notifications.drains owner).effects = effect :: rest)
      (hkey : effect.key = key) (hunreadable : readEnvelope effect.payload = none) :
      Dropped host w key (.deliver owner (.visit retryClock leaseClock claimClock) answer now)

theorem judgeStage_true {digest : Digest} {notification : GraphNotification}
    {view : Option (Option CurrentRun)} (h : judgeStage digest notification view = .answered true) :
    notification.kind = .attention ∧
      ∃ current, view = some current ∧ obsolete digest current notification = true := by
  unfold judgeStage at h
  split at h
  · next hkind =>
    refine ⟨hkind, ?_⟩
    cases view with
    | none => exact nomatch h
    | some current =>
      dsimp only at h
      split at h
      · next hobsolete => exact ⟨current, rfl, hobsolete⟩
      · exact nomatch h
  · exact nomatch h

theorem discards_found {digest : Digest} {retryMs : Rat} {call : DrainCall}
    (h : (perform digest retryMs (.drain owner call) n).1 = .judged key true ∨
      ∃ effect, (perform digest retryMs (.drain owner call) n).1 = .refused effect ∧
        effect.key = key) :
    (∃ view work, call = .judge view ∧ (n.drains owner).inFlight = some work ∧
        work.effect.key = key ∧
        judgeStage digest work.delivery.notification view = .answered true) ∨
      ∃ retryClock leaseClock claimClock effect rest,
        call = .visit retryClock leaseClock claimClock ∧
        (n.drains owner).effects = effect :: rest ∧ effect.key = key ∧
        readEnvelope effect.payload = none := by
  unfold perform at h
  dsimp only at h
  cases hwork : (n.drains owner).inFlight with
  | none =>
    right
    rw [hwork] at h
    dsimp only at h
    cases call with
    | visit retryClock leaseClock claimClock =>
      cases heffects : (n.drains owner).effects with
      | nil =>
        simp only [performIdle, heffects] at h
        rcases h with h | ⟨_, h, -⟩ <;> cases h
      | cons effect rest =>
        simp only [performIdle, heffects, visitEffect] at h
        cases hread : readEnvelope effect.payload with
        | none =>
          simp only [hread, reduceCtorEq, false_or, Answer.refused.injEq, exists_eq_left'] at h
          exact ⟨_, _, _, effect, rest, rfl, rfl, h, hread⟩
        | some delivery =>
          simp only [hread, claimVisited] at h
          split at h
          · split at h <;> rcases h with h | ⟨_, h, -⟩ <;> cases h
          · rcases h with h | ⟨_, h, -⟩ <;> cases h
    | list | judge | renew | send | finish | stop =>
      rcases h with h | ⟨_, h, -⟩ <;> cases h
  | some work =>
    left
    rw [hwork] at h
    dsimp only at h
    cases call with
    | judge view =>
      simp only [performInFlight] at h
      split at h
      · rcases h with h | ⟨_, h, -⟩
        · obtain ⟨hkey, hstage⟩ := Answer.judged.inj h
          exact ⟨view, work, rfl, rfl, hkey, of_decide_eq_true hstage⟩
        · cases h
      · rcases h with h | ⟨_, h, -⟩ <;> cases h
    | list | visit | stop => rcases h with h | ⟨_, h, -⟩ <;> cases h
    | renew | send | finish =>
      simp only [performInFlight] at h
      split at h <;> rcases h with h | ⟨_, h, -⟩ <;> cases h

theorem Moved.dropped (h : Moved host w event w') (hdiscarded : Discarded event key) :
    Dropped host w key event := by
  obtain ⟨owner, call, answer, now, rfl, hanswer⟩ := hdiscarded
  cases h with
  | deliver _ hwatch hphase hview hperform =>
    rw [← show (perform host.digest host.retryMs (.drain owner call) w.notifications).1 = answer
      from by rw [hperform]] at hanswer
    rcases discards_found hanswer with ⟨view, work, rfl, hwork, hkey, hstage⟩ |
      ⟨_, _, _, effect, rest, rfl, heffects, hkey, hread⟩
    · obtain ⟨hkind, current, rfl, hobsolete⟩ := judgeStage_true hstage
      unfold judgesView at hview
      rw [hwork] at hview
      exact .lapsed hwork hkey hkind (of_decide_eq_true hview).symm hobsolete
    · exact .unreadable heffects hkey hread

variable {before after pass trace : List WorkspaceEvent} {watch : Watch}

def Advances (host : NoticeHost) (w : Workspace) (event : WorkspaceEvent) (w' : Workspace) : Prop :=
  next host w event = some w'

theorem run_watched (h : Run (Advances host) w trace w') (hw : Watched host w) : Watched host w' :=
  h.invariant (fun _ _ _ hall hnext => hall.moved (next_moved hnext)) hw

theorem Moved.connection (h : Moved host w event w') (hwatch : w.watches owner = some watch) :
    ∃ watch', w'.watches owner = some watch' ∧ watch'.connection = watch.connection := by
  have hset : ∀ {u : Workspace} {actor : String} {old new : Watch}, u.watches = w.watches →
      w.watches actor = some old → new.connection = old.connection →
      ∃ watch', (u.withWatch actor new).watches owner = some watch' ∧
        watch'.connection = watch.connection := by
    intro u actor old new hu hold hsame
    by_cases hactor : owner = actor
    · subst hactor
      obtain rfl := Option.mem_unique hold hwatch
      exact ⟨new, update_self .., hsame⟩
    · refine ⟨watch, ?_, rfl⟩
      rw [← hwatch, ← hu]
      exact update_of_ne hactor ..
  cases h with
  | transaction => exact ⟨watch, by rw [transact_watches]; exact hwatch, rfl⟩
  | statement c changes others =>
    refine ⟨watch, ?_, rfl⟩
    unfold commit
    split <;> exact hwatch
  | rollback | unwatch => exact ⟨watch, hwatch, rfl⟩
  | watch actor c hfree =>
    refine ⟨watch, ?_, rfl⟩
    rw [← hwatch]
    refine update_of_ne ?_ ..
    rintro rfl
    exact nomatch hfree.symm.trans hwatch
  | start now hold => exact hset (transact_watches w w) hold rfl
  | readVersion hold | listOrigins hold | checkVersion hold | finish hold => exact hset rfl hold rfl
  | captureNext now hold => exact hset (transact_watches w _) hold rfl
  | deliver now hold =>
    refine hset ?_ hold rfl
    split
    · exact transact_watches ..
    · rfl

theorem run_current (hrun : Run (Advances host) w pass w')
    (hall : Watched host w) (hcurrent : Current host owner w)
    (hwatch : w.watches owner = some watch) (hquiet : ∀ e ∈ pass, Quiet watch.connection e) :
    Watched host w' ∧ Current host owner w' := by
  induction hrun generalizing watch with
  | nil => exact ⟨hall, hcurrent⟩
  | cons hnext _ ih =>
    have hmoved := next_moved hnext
    have hstep := hcurrent.moved hall hmoved fun watch' hwatch' => by
      obtain rfl := Option.mem_unique hwatch hwatch'
      exact hquiet _ (.head _)
    obtain ⟨watch', hwatch', hsame⟩ := hmoved.connection hwatch
    refine ih (hall.moved hmoved) hstep hwatch' ?_
    rw [hsame]
    exact fun e he => hquiet e (.tail _ he)

theorem run_uncovered (hrun : Run (Advances host) w after w') (hafter : ∀ e ∈ after, e.changes = [])
    (hun : Uncovered host w' graphId) : Uncovered host w graphId := by
  induction hrun with
  | nil => exact hun
  | cons hnext _ ih =>
    have hrest := ih (fun e he => hafter e (.tail _ he)) hun
    exact (next_moved hnext).uncovered (hafter _ (.head _)) hrest

theorem covered_of_drained (hrun : Run (Advances host) w
      (.start owner now :: (pass ++ .finish owner :: after)) w') (hall : Watched host w)
    (hwatch : w.watches owner = some watch) (hquiet : ∀ e ∈ pass, Quiet watch.connection e)
    (hafter : ∀ e ∈ after, e.changes = []) : ¬ Uncovered host w' graphId := by
  intro hun
  cases hrun with
  | @cons _ started _ _ _ hstart hrest =>
    obtain ⟨ended, hpass, hlast⟩ := hrest.split
    have hmoved := next_moved hstart
    have hidle : watch.phase = .idle := by
      cases hmoved with
      | start _ hwatch' _ hphase =>
        obtain rfl := Option.mem_unique hwatch hwatch'
        exact hphase
    have hcurrent : Current host owner w := by
      intro watch' hwatch' _ hbusy
      obtain rfl := Option.mem_unique hwatch hwatch'
      exact absurd hidle hbusy
    have hfirst := hcurrent.moved hall hmoved fun _ _ => .inl rfl
    obtain ⟨watch', hwatch', hsame⟩ := hmoved.connection hwatch
    obtain ⟨-, hended⟩ := run_current hpass (hall.moved hmoved) hfirst hwatch' (hsame ▸ hquiet)
    cases hlast with
    | @cons _ finished _ _ _ hfinish hidleRest =>
      have hbefore := run_uncovered hidleRest hafter hun
      have hfinal := next_moved hfinish
      have huncovered := hfinal.uncovered rfl hbefore
      cases hfinal with
      | finish hwatch'' hwatching hphase =>
        obtain ⟨-, hcase⟩ := hended _ hwatch'' hwatching (by rw [hphase]; exact nofun)
        rw [hphase] at hcase
        exact hcase graphId huncovered

end Drains

section Announcements
variable {trace : List WorkspaceEvent}

/-- A drain of the connection made those steps and finished, and no records changed afterwards. -/
def DrainFinished (host : NoticeHost) (trace : List WorkspaceEvent) (c : String)
    (pass : List WorkspaceEvent) : Prop :=
  ∃ owner before now after w watch,
    trace = before ++ .start owner now :: (pass ++ .finish owner :: after) ∧
      Run (Advances host) .empty before w ∧ w.watches owner = some watch ∧
      watch.connection = c ∧ ∀ e ∈ after, e.changes = []

def DroppedIn (host : NoticeHost) (trace : List WorkspaceEvent) (key : EffectKey) : Prop :=
  ∃ before event after w, trace = before ++ event :: after ∧
    Run (Advances host) .empty before w ∧ Dropped host w key event

/-- A durable notice of that key is there, undelivered or accepted by a send. -/
def Announced (trace : List WorkspaceEvent) (w : Workspace) (key : EffectKey) : Prop :=
  ∃ row ∈ w.notifications.rows, row.key = key ∧
    (row.status = .done → ∃ event ∈ trace, Accepted event key)

def Warranted (host : NoticeHost) (trace : List WorkspaceEvent) (key : EffectKey) : Prop :=
  ∃ before after w, trace = before ++ after ∧ Run (Advances host) .empty before w ∧
    ∃ graphId, ∃ x ∈ w.conditions host graphId, key = conditionKey host graphId x

theorem watched_empty (host : NoticeHost) : Watched host .empty := nofun

theorem announced_of_covered (hrun : Run (Advances host) .empty trace w)
    (hcovered : ¬ Uncovered host w graphId) {x : Condition} (hx : x ∈ w.conditions host graphId)
    (hkept : ¬ DroppedIn host trace (conditionKey host graphId x)) :
    Announced trace w (conditionKey host graphId x) := by
  have hnoted : Noted w.notifications (conditionKey host graphId x) :=
    not_not.1 fun hno => hcovered ⟨x, hx, hno⟩
  obtain ⟨row, hrow, hkey⟩ := hnoted
  refine ⟨row, hrow, hkey, fun hdone => ?_⟩
  have hsettled : Settled (conditionKey host graphId x) w.notifications :=
    .inl ⟨row, hrow, hkey, hdone⟩
  have hcause := hrun.arises_at (P := fun w => Settled (conditionKey host graphId x) w.notifications)
    (fun _ _ _ hnext hs => (next_moved hnext).settled hs) hsettled
  rcases hcause with hstart | ⟨before, event, after, u, v, htrace, hbefore, hnext, hevent⟩
  · rcases hstart with ⟨_, h, -⟩ | ⟨_, _, h, -⟩ <;> exact nomatch h
  rcases hevent with haccepted | hdiscarded
  · refine ⟨event, ?_, haccepted⟩
    rw [htrace]
    exact mem_append_right _ (.head _)
  · exact absurd ⟨before, event, after, u, htrace, hbefore, (next_moved hnext).dropped hdiscarded⟩
      hkept

theorem warranted_of_noted (hrun : Run (Advances host) .empty trace w)
    (hnoted : Noted w.notifications key) : Warranted host trace key := by
  have hcause := hrun.arises_at (P := fun w => Noted w.notifications key)
    (fun _ _ _ hnext h => (next_moved hnext).noted_arises h) hnoted
  rcases hcause with ⟨_, h, -⟩ | ⟨before, event, after, u, v, rfl, hbefore, hnext, graphId, x, hx, hkey⟩
  · exact nomatch h
  refine ⟨before ++ [event], after, v, ?_, hbefore.snoc hnext, graphId, x, hx, hkey⟩
  rw [append_assoc]
  rfl

/-- After a drain, with changes through its own connection only, every condition that holds is
announced unless its notice was once dropped, and no notice is there without its condition. -/
theorem no_silent_condition (host : NoticeHost) {trace : List WorkspaceEvent} {w : Workspace}
    (hrun : Run (Advances host) .empty trace w) :
    (∀ c pass, DrainFinished host trace c pass → (∀ e ∈ pass, Quiet c e) →
      ∀ graphId, ∀ x ∈ w.conditions host graphId,
        ¬ DroppedIn host trace (conditionKey host graphId x) →
          Announced trace w (conditionKey host graphId x)) ∧
      ∀ row ∈ w.notifications.rows, Warranted host trace row.key := by
  constructor
  · rintro c pass ⟨owner, before, now, after, u, watch, rfl, hbefore, hwatch, rfl, hafter⟩ hquiet
      graphId x hx hkept
    refine announced_of_covered hrun (fun hun => ?_) hx hkept
    obtain ⟨u', hbefore', hrest⟩ := hrun.split
    obtain rfl : u = u' := hbefore.deterministic
      (fun _ _ _ _ h h' => Option.some.inj (h.symm.trans h')) hbefore'
    exact covered_of_drained hrest (run_watched hbefore (watched_empty host)) hwatch hquiet hafter
      hun
  · intro row hrow
    exact warranted_of_noted hrun ⟨row, hrow, rfl⟩

end Announcements

theorem run_of_accepted (host : NoticeHost) (trace : List WorkspaceEvent) (p : Workspace → Bool)
    (h : (trace.foldlM (next host) Workspace.empty).any p = true) :
    ∃ w, Run (Advances host) .empty trace w ∧ p w = true := by
  obtain ⟨w, hw, hp⟩ := (Option.any_eq_true _ _).1 h
  exact ⟨w, Run.of_foldlM hw, hp⟩

def plainHost : NoticeHost where
  digest := plainDigest
  sha256 := id
  retryMs := 5000

def plainRun (phase : OutcomeGraphPhase) (refusals : List DownstreamInputRefusal) : RunView where
  runId := "r"
  recordedPhase := some phase
  control := none
  stop := none
  nodes := [{ nodeId := "n", status := if phase = .complete then .settled else .pending,
              attemptId := none, inputRefusals := refusals }]
  approvals := []
  decisions := []
  attempts := []

def plainGraph (phase : OutcomeGraphPhase) (refusals : List DownstreamInputRefusal) : GraphFacts where
  defined := true
  origin := some { sessionId := "s", agent := none }
  view := some { current := some "r", runs := [plainRun phase refusals],
                 readObservation := fun _ => none }

def completingPass : List WorkspaceEvent :=
  [.readVersion "a", .listOrigins "a", .checkVersion "a", .deliver "a" .list .listed 1,
    .transaction "main" [("g", plainGraph .complete [])] 1 false]

def completingTrace : List WorkspaceEvent :=
  [.watch "a" "main"] ++ .start "a" 1 :: (completingPass ++ .finish "a" :: [])

theorem watched_main : ∃ w, Run (Advances plainHost) .empty [.watch "a" "main"] w ∧
    w.watches "a" = some { connection := "main" } := by
  refine ⟨_, .cons rfl (.nil _), ?_⟩
  show update (fun _ => none) "a" (some _) "a" = _
  exact update_self ..

theorem completing_finished : DrainFinished plainHost completingTrace "main" completingPass := by
  obtain ⟨w, hrun, hwatch⟩ := watched_main
  exact ⟨"a", _, 1, [], w, _, rfl, hrun, hwatch, rfl, fun _ h => nomatch h⟩

theorem completing_quiet : ∀ e ∈ completingPass, Quiet "main" e := by
  intro e he
  simp only [completingPass, mem_cons, not_mem_nil, or_false] at he
  rcases he with rfl | rfl | rfl | rfl | rfl
  · exact .inl rfl
  · exact .inl rfl
  · exact .inl rfl
  · exact .inl rfl
  · exact .inr ⟨_, _, _, rfl⟩

theorem completing_drops_nothing : ¬ DroppedIn plainHost completingTrace key := by
  rintro ⟨before, event, after, w, htrace, -, hdropped⟩
  have hmem : event ∈ completingTrace := by
    rw [htrace]
    exact mem_append_right _ (.head _)
  simp only [completingTrace, completingPass, cons_append, nil_append, mem_cons,
    not_mem_nil, or_false] at hmem
  rcases hmem with rfl | rfl | rfl | rfl | rfl | rfl | rfl | rfl <;> cases hdropped

theorem no_silent_condition_completing : ∃ w, Run (Advances plainHost) .empty completingTrace w ∧
    Announced completingTrace w noticeKey := by
  obtain ⟨w, hrun, hcondition⟩ := run_of_accepted plainHost completingTrace
    (fun w => noticeKey ∈ (w.conditions plainHost "g").map (conditionKey plainHost "g"))
    (by decide +kernel)
  obtain ⟨x, hx, hkey⟩ := mem_map.1 (of_decide_eq_true hcondition)
  refine ⟨w, hrun, ?_⟩
  rw [← hkey]
  exact (no_silent_condition plainHost hrun).1 "main" completingPass completing_finished
    completing_quiet "g" x hx completing_drops_nothing

def missingInput : DownstreamInputRefusal where
  «from» := "p"
  outcome := "done"
  code := .producerUnsettled
  message := "p has not settled"

def inputsNoticeKey : String := "inputs:n:" ++ refusalsText [missingInput]

def inputsKey : EffectKey :=
  { graphId := "g", effectId := notificationId plainDigest "g" "r" inputsNoticeKey }

def uneventfulPass : List WorkspaceEvent := [.readVersion "a", .deliver "a" .list .listed 9000]

def recurringTrace : List WorkspaceEvent :=
  [.watch "a" "main", .transaction "main" [("g", plainGraph .executing [missingInput])] 1 false,
    .start "a" 1, .readVersion "a", .listOrigins "a", .captureNext "a" 1, .checkVersion "a",
    .deliver "a" .list .listed 1,
    .deliver "a" (.visit 1 1 1) (.claimed inputsKey) 1,
    .deliver "a" (.judge ((plainGraph .executing [missingInput]).judged id))
      (.judged inputsKey false) 1,
    .deliver "a" (.send false) (.sent inputsKey false) 1,
    .deliver "a" (.finish 1) (.finished inputsKey) 1,
    .finish "a",
    .transaction "main" [("g", plainGraph .executing [])] 2 false,
    .start "a" 9000, .readVersion "a", .deliver "a" .list .listed 9000,
    .deliver "a" (.visit 9000 9000 9000) (.claimed inputsKey) 9000,
    .deliver "a" (.judge ((plainGraph .executing []).judged id)) (.judged inputsKey true) 9000,
    .deliver "a" (.finish 9000) (.finished inputsKey) 9000,
    .finish "a",
    .transaction "main" [("g", plainGraph .executing [missingInput])] 9001 false] ++
  .start "a" 9002 :: (uneventfulPass ++ .finish "a" :: [])

def WorkspaceEvent.sent : WorkspaceEvent → Bool
  | .deliver _ _ (.sent _ delivered) _ => delivered
  | _ => false

/-- A notice dropped while its condition had lapsed silences the condition when it holds again. -/
theorem recurring_condition_silent :
    ¬ ∀ (host : NoticeHost) (trace : List WorkspaceEvent) (w : Workspace),
      Run (Advances host) .empty trace w → ∀ c pass, DrainFinished host trace c pass →
        ∀ graphId, ∀ x ∈ w.conditions host graphId,
          Announced trace w (conditionKey host graphId x) := by
  intro hclaim
  obtain ⟨w, hrun, hend⟩ := run_of_accepted plainHost recurringTrace
    (fun w => decide (inputsKey ∈ (w.conditions plainHost "g").map (conditionKey plainHost "g")) &&
      w.notifications.rows.all fun row => row.status = .done) (by decide +kernel)
  obtain ⟨hcondition, hdone⟩ := Bool.and_eq_true_iff.1 hend
  obtain ⟨x, hx, hkey⟩ := mem_map.1 (of_decide_eq_true hcondition)
  have hfinished : DrainFinished plainHost recurringTrace "main" uneventfulPass := by
    obtain ⟨u, hbefore, hwatch⟩ := run_of_accepted plainHost (recurringTrace.take 22)
      (fun u => (u.watches "a").any fun watch => watch.connection = "main") (by decide +kernel)
    obtain ⟨watch, hwatch, hmain⟩ := (Option.any_eq_true _ _).1 hwatch
    exact ⟨"a", _, 9002, [], u, watch, rfl, hbefore, hwatch, of_decide_eq_true hmain,
      fun _ h => nomatch h⟩
  obtain ⟨row, hrow, -, hsent⟩ := hclaim plainHost recurringTrace w hrun "main" uneventfulPass
    hfinished "g" x hx
  obtain ⟨event, hevent, owner, call, now, rfl⟩ :=
    hsent (of_decide_eq_true (all_eq_true.1 hdone row hrow))
  have hnone : (recurringTrace.any WorkspaceEvent.sent) = false := by decide +kernel
  exact absurd rfl (any_eq_false.1 hnone _ hevent)
end Rolebox.Graph.GraphNotifications
