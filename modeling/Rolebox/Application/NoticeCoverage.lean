import Rolebox.Application.NoticeCapture
import Rolebox.Application.NotificationDelivery

/-! What one step of the workspace leaves uncaptured is in the journal or the data version tells. -/

namespace Rolebox.Graph.GraphNotifications
open General List Function Option
variable {host : NoticeHost} {w w' : Workspace} {c d graphId : String} {now : Rat}
  {changes : List (String × GraphFacts)} {others : Bool} {n n' : Notifications} {key : EffectKey}

abbrev Condition := InvocationOrigin × String × Notice

def Workspace.conditions (host : NoticeHost) (w : Workspace) (graphId : String) : List Condition :=
  (w.factsOf graphId).conditions host.sha256

def conditionKey (host : NoticeHost) (graphId : String) (x : Condition) : EffectKey :=
  { graphId := graphId, effectId := notificationId host.digest graphId x.2.1 x.2.2.key }

def Noted (n : Notifications) (key : EffectKey) : Prop := ∃ row ∈ n.rows, row.key = key

def Uncovered (host : NoticeHost) (w : Workspace) (graphId : String) : Prop :=
  ∃ x ∈ w.conditions host graphId, ¬ Noted w.notifications (conditionKey host graphId x)

theorem Noted.run {events : List Event} (h : Noted n key)
    (hrun : Run (Performs host.digest host.retryMs) n events n') : Noted n' key := by
  obtain ⟨row, hrow, rfl⟩ := h
  obtain ⟨row', hrow', hsame⟩ := run_retains hrun row hrow
  exact ⟨row', hrow', hsame.1⟩

theorem Noted.afterCall (h : Noted n key) (host : NoticeHost) (call : Call) :
    Noted (perform host.digest host.retryMs call n).2 key := by
  have hrun : Run (Performs host.digest host.retryMs) n
      [⟨call, (perform host.digest host.retryMs call n).1⟩]
      (perform host.digest host.retryMs call n).2 := .cons rfl (.nil _)
  exact h.run hrun

theorem Noted.afterCalls (h : Noted n key) (calls : List Call) :
    Noted (performCalls host calls n) key := by
  induction calls generalizing n with
  | nil => exact h
  | cons call calls ih => exact ih (h.afterCall host call)

theorem noted_captured (host : NoticeHost) (graphId runId : String) (origin : InvocationOrigin)
    (notice : Notice) (now : Rat) (n : Notifications) :
    Noted (perform host.digest host.retryMs (.capture graphId runId origin notice now) n).2
      (conditionKey host graphId (origin, runId, notice)) := by
  show Noted { n with rows := (insertEffect _ n.rows).2 } _
  unfold insertEffect
  split
  · next htaken =>
    obtain ⟨row, hrow, hkey⟩ := List.any_eq_true.1 htaken
    exact ⟨row, hrow, of_decide_eq_true hkey⟩
  · exact ⟨_, mem_append_right _ (mem_singleton_self _), rfl⟩

theorem noted_of_mem {x : Condition} {calls : List Call}
    (h : .capture graphId x.2.1 x.1 x.2.2 now ∈ calls) :
    Noted (performCalls host calls n) (conditionKey host graphId x) := by
  induction calls generalizing n with
  | nil => exact nomatch h
  | cons call calls ih =>
    rcases mem_cons.1 h with rfl | hrest
    · exact (noted_captured host graphId x.2.1 x.1 x.2.2 now n).afterCalls calls
    · exact ih hrest

theorem noted_of_capture {ids : List String} (hid : graphId ∈ ids) {x : Condition}
    (hx : x ∈ w.conditions host graphId) :
    Noted (capture host now ids w).notifications (conditionKey host graphId x) :=
  noted_of_mem (mem_flatMap.2 ⟨graphId, hid, List.mem_map.2 ⟨x, hx, rfl⟩⟩)

theorem Uncovered.back (h : Uncovered host w' graphId)
    (hfacts : w'.factsOf graphId = w.factsOf graphId)
    (hnoted : ∀ key, Noted w.notifications key → Noted w'.notifications key) :
    Uncovered host w graphId := by
  obtain ⟨x, hx, hno⟩ := h
  unfold Workspace.conditions at hx
  rw [hfacts] at hx
  exact ⟨x, hx, fun hyes => hno (hnoted _ hyes)⟩

theorem factsOf_recordChanges (h : graphId ∉ changes.map Prod.fst) :
    (recordChanges c changes w).factsOf graphId = w.factsOf graphId := by
  unfold Workspace.factsOf recordChanges
  congr 1
  generalize w.graphs = graphs
  induction changes generalizing graphs with
  | nil => rfl
  | cons change changes ih =>
    rw [map_cons, mem_cons, not_or] at h
    rw [foldl_cons, ih h.2]
    exact lookup_assign_ne _ _ h.1

def InJournal (w : Workspace) (c graphId : String) : Prop :=
  ∃ journal, (w.connections c).journal = some journal ∧ graphId ∈ journal

/-- Whatever is uncovered afterwards stands in the journal, or was so before. -/
def Follows (host : NoticeHost) (c : String) (w w' : Workspace) : Prop :=
  ∀ graphId, Uncovered host w' graphId →
    InJournal w' c graphId ∨ (Uncovered host w graphId ∧ ¬ InJournal w c graphId)

theorem Follows.refl (host : NoticeHost) (c : String) (w : Workspace) : Follows host c w w := by
  intro graphId h
  by_cases hin : InJournal w c graphId
  · exact .inl hin
  · exact .inr ⟨h, hin⟩

theorem Follows.trans {w'' : Workspace} (h : Follows host c w w') (h' : Follows host c w' w'') :
    Follows host c w w'' := by
  intro graphId hun
  rcases h' graphId hun with hin | ⟨hun', hnot⟩
  · exact .inl hin
  · rcases h graphId hun' with hin | hbefore
    · exact absurd hin hnot
    · exact .inr hbefore

theorem Follows.of_same (hgraphs : w'.graphs = w.graphs)
    (hnoted : ∀ key, Noted w.notifications key → Noted w'.notifications key)
    (hjournal : (w'.connections c).journal = (w.connections c).journal) : Follows host c w w' := by
  intro graphId h
  have hbefore : Uncovered host w graphId := h.back (by rw [Workspace.factsOf, hgraphs]; rfl) hnoted
  unfold InJournal
  rw [hjournal]
  by_cases hin : InJournal w c graphId
  · exact .inl hin
  · exact .inr ⟨hbefore, hin⟩

theorem follows_recordChanges (hj : (w.connections c).journal.isSome) :
    Follows host c w (recordChanges c changes w) := by
  obtain ⟨journal, hjournal⟩ := isSome_iff_exists.1 hj
  have hafter : ((recordChanges c changes w).connections c).journal =
      some (journal ++ changes.map Prod.fst) := by
    show (update w.connections c _ c).journal = _
    rw [update_self, hjournal]
    rfl
  intro graphId h
  by_cases hchanged : graphId ∈ changes.map Prod.fst
  · exact .inl ⟨_, hafter, mem_append_right _ hchanged⟩
  have hbefore : Uncovered host w graphId := h.back (factsOf_recordChanges hchanged) fun _ => id
  by_cases hin : InJournal w c graphId
  · obtain ⟨j, hj', hmem⟩ := hin
    obtain rfl := mem_unique hjournal hj'
    exact .inl ⟨_, hafter, mem_append_left _ hmem⟩
  · exact .inr ⟨hbefore, hin⟩

theorem noted_beforeCommit (h : Noted w.notifications key) :
    Noted (beforeCommit host now c w).notifications key := by
  unfold beforeCommit
  split
  · exact h
  · exact h.afterCalls _

theorem graphs_beforeCommit : (beforeCommit host now c w).graphs = w.graphs := by
  unfold beforeCommit
  split <;> rfl

theorem connections_beforeCommit_of_ne (h : d ≠ c) :
    (beforeCommit host now c w).connections d = w.connections d := by
  unfold beforeCommit
  split
  · rfl
  · exact update_of_ne h ..

theorem connections_beforeCommit_self (hobserved : (w.connections c).observers ≠ []) :
    (beforeCommit host now c w).connections c = { w.connections c with journal := some [] } := by
  unfold beforeCommit
  rw [if_neg hobserved]
  exact update_self ..

theorem connections_beforeCommit_unobserved (h : (w.connections c).observers = []) :
    (beforeCommit host now c w).connections d = w.connections d := by
  unfold beforeCommit
  rw [if_pos h]

theorem beforeCommit_connection (host : NoticeHost) (now : Rat) (c d : String) (w : Workspace) :
    ((beforeCommit host now c w).connections d).dataVersion = (w.connections d).dataVersion ∧
      ((beforeCommit host now c w).connections d).observers = (w.connections d).observers ∧
      ((w.connections d).journal.isSome →
        ((beforeCommit host now c w).connections d).journal.isSome) := by
  by_cases hobserved : (w.connections c).observers = []
  · rw [connections_beforeCommit_unobserved hobserved]
    exact ⟨rfl, rfl, id⟩
  · by_cases h : d = c
    · rw [h, connections_beforeCommit_self hobserved]
      exact ⟨rfl, rfl, fun _ => rfl⟩
    · rw [connections_beforeCommit_of_ne h]
      exact ⟨rfl, rfl, id⟩

theorem follows_beforeCommit : Follows host c w (beforeCommit host now c w) := by
  by_cases hobserved : (w.connections c).observers = []
  · unfold beforeCommit
    rw [if_pos hobserved]
    exact Follows.refl _ _ _
  · intro graphId h
    have hbefore : Uncovered host w graphId :=
      h.back (by rw [Workspace.factsOf, graphs_beforeCommit]; rfl) fun _ => noted_beforeCommit
    refine .inr ⟨hbefore, ?_⟩
    rintro ⟨journal, hjournal, hmem⟩
    obtain ⟨x, hx, hno⟩ := h
    have hsame : x ∈ w.conditions host graphId := by
      unfold Workspace.conditions Workspace.factsOf at hx
      rwa [graphs_beforeCommit] at hx
    apply hno
    unfold beforeCommit
    rw [if_neg hobserved, hjournal]
    exact noted_of_capture hmem hsame

section Inversion
variable {event : WorkspaceEvent}

inductive Moved (host : NoticeHost) (w : Workspace) : WorkspaceEvent → Workspace → Prop where
  | transaction (c : String) (changes : List (String × GraphFacts)) (now : Rat) (others : Bool) :
      Moved host w (.transaction c changes now others) (transact host now c changes others w w)
  | statement (c : String) (changes : List (String × GraphFacts)) (others : Bool) :
      Moved host w (.statement c changes others)
        (commit c changes others w (recordChanges c changes w))
  | rollback (c : String) (changes : List (String × GraphFacts)) :
      Moved host w (.rollback c changes) w
  | watch (owner c : String) (hfree : w.watches owner = none) :
      Moved host w (.watch owner c) ((w.withConnection c
        { w.connections c with
          journal := some ((w.connections c).journal.getD [])
          observers := owner :: (w.connections c).observers }).withWatch owner { connection := c })
  | unwatch {owner : String} {watch : Watch} (hwatch : w.watches owner = some watch) :
      Moved host w (.unwatch owner) (w.withConnection watch.connection
        { w.connections watch.connection with
          observers := (w.connections watch.connection).observers.filter (· ≠ owner) })
  | start {owner : String} {watch : Watch} (now : Rat) (hwatch : w.watches owner = some watch)
      (hwatching : owner ∈ (w.connections watch.connection).observers)
      (hphase : watch.phase = .idle) :
      Moved host w (.start owner now) ((transact host now watch.connection [] false w w).withWatch
        owner { watch with phase := .flushed })
  | readVersion {owner : String} {watch : Watch} (hwatch : w.watches owner = some watch)
      (hphase : watch.phase = .flushed) :
      Moved host w (.readVersion owner) (w.withWatch owner
        { watch with
          phase := if watch.capturedExternalVersion =
              some (w.connections watch.connection).dataVersion then .listing
            else .versioned (w.connections watch.connection).dataVersion })
  | listOrigins {owner : String} {watch : Watch} {version : Nat}
      (hwatch : w.watches owner = some watch) (hphase : watch.phase = .versioned version) :
      Moved host w (.listOrigins owner) (w.withWatch owner
        { watch with phase := .capturing version w.invocationOriginGraphIds })
  | captureNext {owner graphId : String} {watch : Watch} {version : Nat} {rest : List String}
      (now : Rat) (hwatch : w.watches owner = some watch)
      (hphase : watch.phase = .capturing version (graphId :: rest)) :
      Moved host w (.captureNext owner now)
        ((transact host now watch.connection [] false w (capture host now [graphId] w)).withWatch
          owner { watch with phase := .capturing version rest })
  | checkVersion {owner : String} {watch : Watch} {version : Nat}
      (hwatch : w.watches owner = some watch) (hphase : watch.phase = .capturing version []) :
      Moved host w (.checkVersion owner) (w.withWatch owner
        { watch with
          phase := .listing
          capturedExternalVersion :=
            if (w.connections watch.connection).dataVersion = version then some version
            else watch.capturedExternalVersion })
  | deliver {owner : String} {watch : Watch} {call : DrainCall} {answer : Answer}
      {after : Notifications} (now : Rat) (hwatch : w.watches owner = some watch)
      (hphase : deliversIn watch.phase call) (hview : judgesView host w owner call)
      (hperform : perform host.digest host.retryMs (.drain owner call) w.notifications =
        (answer, after)) :
      Moved host w (.deliver owner call answer now)
        ((if answer.transacts then
            transact host now watch.connection [] false w { w with notifications := after }
          else { w with notifications := after }).withWatch owner
          { watch with phase := afterCall watch.phase call })
  | finish {owner : String} {watch : Watch} (hwatch : w.watches owner = some watch)
      (hwatching : owner ∈ (w.connections watch.connection).observers)
      (hphase : watch.phase = .delivering) :
      Moved host w (.finish owner) (w.withWatch owner { watch with phase := .idle })

theorem mem_observers_of_watching {owner : String} {watch : Watch}
    (hwatch : w.watches owner = some watch) (h : w.watching owner = true) :
    owner ∈ (w.connections watch.connection).observers := by
  unfold Workspace.watching at h
  rw [hwatch] at h
  exact of_decide_eq_true h

theorem next_moved (h : next host w event = some w') : Moved host w event w' := by
  unfold next at h
  cases event with
  | transaction c changes now others =>
    cases h
    exact .transaction ..
  | statement c changes others =>
    cases h
    exact .statement ..
  | rollback c changes =>
    cases h
    exact .rollback ..
  | watch owner c =>
    obtain ⟨hfree, ⟨⟩⟩ := ite_none_right_eq_some.1 h
    exact .watch owner c (isNone_iff_eq_none.1 hfree)
  | unwatch owner =>
    obtain ⟨watch, hwatch, h⟩ := bind_eq_some_iff.1 h
    obtain ⟨-, ⟨⟩⟩ := ite_none_right_eq_some.1 h
    exact .unwatch hwatch
  | start owner now =>
    obtain ⟨watch, hwatch, h⟩ := bind_eq_some_iff.1 h
    obtain ⟨hready, ⟨⟩⟩ := ite_none_right_eq_some.1 h
    exact .start now hwatch (mem_observers_of_watching hwatch hready.1) hready.2
  | readVersion owner =>
    obtain ⟨watch, hwatch, h⟩ := bind_eq_some_iff.1 h
    obtain ⟨hphase, ⟨⟩⟩ := ite_none_right_eq_some.1 h
    exact .readVersion hwatch hphase
  | listOrigins owner =>
    obtain ⟨watch, hwatch, h⟩ := bind_eq_some_iff.1 h
    unfold advanceWatch at h
    dsimp only at h
    split at h
    · next hphase =>
      cases h
      exact .listOrigins hwatch hphase
    · exact nomatch h
  | captureNext owner now =>
    obtain ⟨watch, hwatch, h⟩ := bind_eq_some_iff.1 h
    unfold advanceWatch at h
    dsimp only at h
    split at h
    · next hphase =>
      cases h
      exact .captureNext now hwatch hphase
    · exact nomatch h
  | checkVersion owner =>
    obtain ⟨watch, hwatch, h⟩ := bind_eq_some_iff.1 h
    unfold advanceWatch at h
    dsimp only at h
    split at h
    · next hphase =>
      cases h
      exact .checkVersion hwatch hphase
    · exact nomatch h
  | deliver owner call answer now =>
    obtain ⟨after, hafter, h⟩ := bind_eq_some_iff.1 h
    obtain ⟨watch, hwatch, hafter⟩ := bind_eq_some_iff.1 hafter
    obtain ⟨hanswer, ⟨⟩⟩ := ite_none_right_eq_some.1 h
    obtain ⟨hready, ⟨⟩⟩ := ite_none_right_eq_some.1 hafter
    exact .deliver now hwatch hready.1 hready.2 (Prod.ext hanswer rfl)
  | finish owner =>
    obtain ⟨watch, hwatch, h⟩ := bind_eq_some_iff.1 h
    obtain ⟨hready, ⟨⟩⟩ := ite_none_right_eq_some.1 h
    exact .finish hwatch (mem_observers_of_watching hwatch hready.1) hready.2.1

end Inversion

section Commits
variable {v : Workspace}

structure Prepared (w v : Workspace) : Prop where
  graphs : v.graphs = w.graphs
  connections : v.connections = w.connections
  noted : ∀ key, Noted w.notifications key → Noted v.notifications key

theorem Prepared.refl (w : Workspace) : Prepared w w := ⟨rfl, rfl, fun _ => id⟩

/-- While the data version stands, a step leaves nothing behind for the watchers of a connection. -/
structure Moves (host : NoticeHost) (c : String) (w w' : Workspace) : Prop where
  journal : (w.connections c).journal.isSome → (w'.connections c).journal.isSome
  version : (w.connections c).dataVersion ≤ (w'.connections c).dataVersion
  follows : (w.connections c).journal.isSome →
    (w'.connections c).dataVersion = (w.connections c).dataVersion → Follows host c w w'
  noted : ∀ key, Noted w.notifications key → Noted w'.notifications key

theorem Moves.of_same (hgraphs : w'.graphs = w.graphs)
    (hnoted : ∀ key, Noted w.notifications key → Noted w'.notifications key)
    (hversion : (w'.connections c).dataVersion = (w.connections c).dataVersion)
    (hjournal : (w'.connections c).journal = (w.connections c).journal) : Moves host c w w' where
  journal := by rw [hjournal]; exact id
  version := hversion.ge
  follows := fun _ _ => .of_same hgraphs hnoted hjournal
  noted := hnoted

theorem commit_fields (c : String) (changes : List (String × GraphFacts)) (others : Bool)
    (w v : Workspace) :
    (commit c changes others w v).graphs = v.graphs ∧
      (commit c changes others w v).notifications = v.notifications ∧
      (commit c changes others w v).connections c = v.connections c ∧
      ∀ d, ((commit c changes others w v).connections d).journal = (v.connections d).journal ∧
        ((commit c changes others w v).connections d).observers = (v.connections d).observers := by
  unfold commit
  split
  · refine ⟨rfl, rfl, if_pos rfl, fun d => ?_⟩
    unfold advanceOthers
    dsimp only
    split <;> exact ⟨rfl, rfl⟩
  · exact ⟨rfl, rfl, rfl, fun _ => ⟨rfl, rfl⟩⟩

theorem commit_version (changes : List (String × GraphFacts)) (others : Bool) (w v : Workspace)
    (h : d ≠ c) :
    (v.connections d).dataVersion ≤ ((commit c changes others w v).connections d).dataVersion ∧
      (((commit c changes others w v).connections d).dataVersion = (v.connections d).dataVersion →
        changes = [] ∧ v.notifications.rows = w.notifications.rows) := by
  unfold commit
  split
  · have hnext : ((advanceOthers c v).connections d).dataVersion =
        (v.connections d).dataVersion + 1 := by
      unfold advanceOthers
      dsimp only
      rw [if_neg h]
    rw [hnext]
    exact ⟨Nat.le_succ _, fun heq => absurd heq (Nat.succ_ne_self _)⟩
  · next hsame =>
    rw [not_or, not_or, not_not, not_not] at hsame
    exact ⟨le_rfl, fun _ => ⟨hsame.1, hsame.2.2⟩⟩

theorem recordChanges_self :
    (recordChanges c changes w).connections c =
      { w.connections c with
        journal := (w.connections c).journal.map (· ++ changes.map Prod.fst) } :=
  update_self ..

theorem recordChanges_of_ne (h : d ≠ c) :
    (recordChanges c changes w).connections d = w.connections d := update_of_ne h ..

theorem recordChanges_connection (c d : String) (changes : List (String × GraphFacts))
    (w : Workspace) :
    ((recordChanges c changes w).connections d).dataVersion = (w.connections d).dataVersion ∧
      ((recordChanges c changes w).connections d).observers = (w.connections d).observers ∧
      ((w.connections d).journal.isSome →
        ((recordChanges c changes w).connections d).journal.isSome) := by
  by_cases h : d = c
  · subst h
    rw [recordChanges_self]
    refine ⟨rfl, rfl, fun hj => ?_⟩
    rw [isSome_map]
    exact hj
  · rw [recordChanges_of_ne h]
    exact ⟨rfl, rfl, id⟩

theorem commit_moves {u : Workspace} (hp : Prepared w v)
    (hnotes : ∀ key, Noted v.notifications key → Noted u.notifications key)
    (hkept : (v.connections d).journal.isSome → (u.connections d).journal.isSome)
    (hversion : (u.connections d).dataVersion = (v.connections d).dataVersion)
    (hgraphs : changes = [] → u.graphs = v.graphs)
    (hown : d = c → (v.connections d).journal.isSome → Follows host d v u)
    (hother : d ≠ c → (u.connections d).journal = (v.connections d).journal) :
    Moves host d w (commit c changes others w u) := by
  obtain ⟨hg, hn, hself, hrest⟩ := commit_fields c changes others w u
  have hnoted : ∀ key, Noted w.notifications key →
      Noted (commit c changes others w u).notifications key := by
    rw [hn]
    exact fun key h => hnotes key (hp.noted key h)
  have hjournals : (w.connections d).journal.isSome →
      ((commit c changes others w u).connections d).journal.isSome := by
    rw [(hrest d).1, ← hp.connections]
    exact hkept
  by_cases h : d = c
  · subst h
    refine ⟨hjournals, ?_, ?_, hnoted⟩
    · rw [hself, hversion, hp.connections]
    intro hj _
    rw [← hp.connections] at hj
    have hfirst : Follows host d w v := .of_same hp.graphs hp.noted (by rw [hp.connections])
    have hlast : Follows host d u (commit d changes others w u) :=
      .of_same hg (by rw [hn]; exact fun _ => id) (by rw [hself])
    exact (hfirst.trans (hown rfl hj)).trans hlast
  · obtain ⟨hle, hunseen⟩ := commit_version changes others w u h
    refine ⟨hjournals, ?_, ?_, hnoted⟩
    · rw [hversion, hp.connections] at hle
      exact hle
    · intro _ heq
      rw [← hp.connections, ← hversion] at heq
      obtain ⟨hnone, -⟩ := hunseen heq
      refine .of_same ?_ hnoted ?_
      · rw [hg, hgraphs hnone, hp.graphs]
      · rw [(hrest d).1, hother h, hp.connections]

theorem statement_moves : Moves host d w (commit c changes others w (recordChanges c changes w)) := by
  obtain ⟨hversion, -, hkept⟩ := recordChanges_connection c d changes w
  refine commit_moves (.refl w) (fun _ => id) hkept hversion ?_ ?_ ?_
  · rintro rfl
    rfl
  · rintro rfl hj
    exact follows_recordChanges hj
  · intro h
    rw [recordChanges_of_ne h]

theorem transact_moves (hp : Prepared w v) :
    Moves host d w (transact host now c changes others w v) := by
  have hrecorded := recordChanges_connection c d changes v
  have hcaptured := beforeCommit_connection host now c d (recordChanges c changes v)
  refine commit_moves hp (fun key hkey => noted_beforeCommit (w := recordChanges c changes v) hkey)
    ?_ ?_ ?_ ?_ ?_
  · exact fun hj => hcaptured.2.2 (hrecorded.2.2 hj)
  · rw [hcaptured.1, hrecorded.1]
  · rintro rfl
    exact graphs_beforeCommit
  · rintro rfl hj
    exact (follows_recordChanges hj).trans follows_beforeCommit
  · intro h
    rw [connections_beforeCommit_of_ne h, recordChanges_of_ne h]

theorem transact_journal (hp : Prepared w v) (h : (w.connections c).observers ≠ []) :
    ((transact host now c changes others w v).connections c).journal = some [] := by
  unfold transact
  rw [(commit_fields ..).2.2.1, connections_beforeCommit_self]
  rw [(recordChanges_connection ..).2.1, hp.connections]
  exact h

theorem prepared_capture (ids : List String) : Prepared w (capture host now ids w) :=
  ⟨rfl, rfl, fun _ h => h.afterCalls _⟩

theorem prepared_perform {owner : String} {call : DrainCall} {answer : Answer}
    {after : Notifications}
    (h : perform host.digest host.retryMs (.drain owner call) w.notifications = (answer, after)) :
    Prepared w { w with notifications := after } := by
  refine ⟨rfl, rfl, fun key hkey => ?_⟩
  have hafter := hkey.afterCall host (.drain owner call)
  rw [h] at hafter
  exact hafter

theorem Prepared.moves (hp : Prepared w v) : Moves host c w v :=
  .of_same hp.graphs hp.noted (by rw [hp.connections]) (by rw [hp.connections])

theorem Moves.withWatch (h : Moves host c w w') (owner : String) (watch : Watch) :
    Moves host c w (w'.withWatch owner watch) := ⟨h.journal, h.version, h.follows, h.noted⟩

theorem withConnection_moves {connection : Connection}
    (hversion : connection.dataVersion = (w.connections d).dataVersion)
    (hjournal : (w.connections d).journal.isSome → connection.journal = (w.connections d).journal) :
    Moves host c w (w.withConnection d connection) := by
  by_cases h : c = d
  · subst h
    have hself : (w.withConnection c connection).connections c = connection := update_self ..
    refine ⟨fun hj => ?_, ?_, fun hj _ => .of_same rfl (fun _ => id) ?_, fun _ => id⟩
    · rw [hself, hjournal hj]
      exact hj
    · rw [hself, hversion]
    · rw [hself, hjournal hj]
  · have hother : (w.withConnection d connection).connections c = w.connections c :=
      update_of_ne h ..
    exact .of_same rfl (fun _ => id) (by rw [hother]) (by rw [hother])

theorem Moved.moves {event : WorkspaceEvent} (h : Moved host w event w') (c : String) :
    Moves host c w w' := by
  cases h with
  | transaction => exact transact_moves (.refl w)
  | start => exact (transact_moves (.refl w)).withWatch _ _
  | statement => exact statement_moves
  | rollback => exact (Prepared.refl w).moves
  | watch owner d =>
    apply Moves.withWatch
    apply withConnection_moves
    · rfl
    intro hj
    obtain ⟨journal, hjournal⟩ := isSome_iff_exists.1 hj
    rw [hjournal]
    rfl
  | unwatch => exact withConnection_moves rfl fun _ => rfl
  | readVersion | listOrigins | checkVersion | finish =>
    exact (Prepared.refl w).moves.withWatch _ _
  | captureNext => exact (transact_moves (prepared_capture _)).withWatch _ _
  | deliver now hwatch hphase hview hperform =>
    refine Moves.withWatch ?_ _ _
    split
    · exact transact_moves (prepared_perform hperform)
    · exact (prepared_perform hperform).moves

end Commits
end Rolebox.Graph.GraphNotifications
