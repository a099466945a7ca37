import Rolebox.Dispatch.StateFile
import Rolebox.General.Reorder

/-! The state file read back after a save, and after the load of an older version. -/

namespace Rolebox.Dispatch.Persistence
open General List Option

section Dates
variable {fallback : String → Option IsoDate.Time}

theorem ofText_toISOString {date : Date} {text : String} (h : date.toISOString = some text) :
    Date.ofText fallback text = date := by
  obtain ⟨time⟩ := date
  obtain ⟨t, ht, rfl⟩ := map_eq_some_iff.1 h
  have htime : time = some t := ht
  rw [Date.ofText, IsoDate.parse_toISOString, htime]

theorem toISOString_isSome {date : Date} : date.toISOString.isSome = date.time.isSome :=
  isSome_map

end Dates

section Tasks
variable {fallback : String → Option IsoDate.Time} {task : DispatchTask}

structure DispatchTask.Timely (task : DispatchTask) : Prop where
  startedAt : task.startedAt.time.isSome
  completedAt : ∀ date ∈ task.completedAt, date.time.isSome
  lastUpdate : task.progress.lastUpdate.time.isSome

/-- A task without the signal it ended with, which nothing reads and no file holds. -/
def DispatchTask.persisted (task : DispatchTask) : DispatchTask :=
  { task with terminatingSignal := none }

theorem isoText_ne_empty (t : IsoDate.Time) : IsoDate.toISOString t ≠ "" := by
  intro h
  have hread := IsoDate.readIso_toISOString t
  rw [h] at hread
  cases hread

theorem readTask_serializeTask {st : SerializedDispatchTask} (h : serializeTask task = some st) :
    readTask fallback .v5 st = task.persisted ∧ st.id = task.id := by
  unfold serializeTask at h
  simp only [bind_eq_bind, Option.pure_def, bind_eq_some_iff, some.injEq] at h
  obtain ⟨startedAt, hstarted, completedAt, hcompleted, lastUpdate, hupdate, rfl⟩ := h
  have hdone : (completedAt.filter (· ≠ "")).map (Date.ofText fallback) = task.completedAt := by
    cases hdate : task.completedAt with
    | none =>
      rw [hdate] at hcompleted
      cases hcompleted
      rfl
    | some date =>
      rw [hdate] at hcompleted
      obtain ⟨text, htext, rfl⟩ := map_eq_some_iff.1 hcompleted
      obtain ⟨t, -, rfl⟩ := map_eq_some_iff.1 htext
      have hkeep : decide (IsoDate.toISOString t ≠ "") = true := decide_eq_true (isoText_ne_empty t)
      rw [filter_some, if_pos hkeep, map_some, ofText_toISOString htext]
  refine ⟨?_, rfl⟩
  unfold readTask DispatchTask.persisted
  rw [hdone, ofText_toISOString hstarted, ofText_toISOString hupdate]
  simp

theorem serializeTask_isSome : (serializeTask task).isSome ↔ task.Timely := by
  have hcompleted : (task.completedAt.mapM Date.toISOString).isSome ↔
      ∀ date ∈ task.completedAt, date.time.isSome := by
    cases hdate : task.completedAt with
    | none => simp
    | some date =>
      have hdone : (Option.mapM Date.toISOString (some date)).isSome = date.time.isSome :=
        isSome_map.trans toISOString_isSome
      rw [hdone]
      simp
  have hparts : (serializeTask task).isSome ↔ task.startedAt.toISOString.isSome ∧
      (task.completedAt.mapM Date.toISOString).isSome ∧
      task.progress.lastUpdate.toISOString.isSome := by
    unfold serializeTask
    cases task.startedAt.toISOString <;> cases task.completedAt.mapM Date.toISOString <;>
      cases task.progress.lastUpdate.toISOString <;> simp
  rw [hparts, hcompleted, toISOString_isSome, toISOString_isSome]
  exact ⟨fun ⟨hs, hc, hu⟩ => ⟨hs, hc, hu⟩, fun ⟨hs, hc, hu⟩ => ⟨hs, hc, hu⟩⟩

theorem serializeTasks_some {l : List DispatchTask} {serialized : List SerializedDispatchTask}
    (h : l.mapM serializeTask = some serialized) :
    serialized.map (fun st => (st.id, readTask fallback .v5 st)) =
      l.map fun task => (task.id, task.persisted) := by
  induction l generalizing serialized with
  | nil =>
    cases h
    rfl
  | cons task l ih =>
    simp only [mapM_cons, bind_eq_bind, Option.pure_def, bind_eq_some_iff,
      some.injEq] at h
    obtain ⟨st, hst, rest, hrest, rfl⟩ := h
    obtain ⟨hread, hid⟩ := @readTask_serializeTask fallback _ _ hst
    rw [map_cons, map_cons, ih hrest, hread, hid]

theorem serializeTasks_isSome {l : List DispatchTask} :
    (l.mapM serializeTask).isSome ↔ ∀ task ∈ l, task.Timely := by
  rw [mapM_eq]
  split
  · next hall =>
    refine ⟨fun _ task htask => ?_, fun _ => rfl⟩
    exact serializeTask_isSome.1 (List.all_eq_true.1 hall task htask)
  · next hall =>
    refine ⟨(nofun), fun h => absurd ?_ hall⟩
    exact List.all_eq_true.2 fun task htask => serializeTask_isSome.2 (h task htask)

end Tasks

section Files
variable {fallback : String → Option IsoDate.Time} {tasks : Tasks} {outbox : List String}
  {eventState : OrderedMap TaskEventState} {store : TaskStateStore}
variable {file : DispatchStateFile}

def Tasks.Timely (tasks : Tasks) : Prop := ∀ task ∈ tasks.values, task.Timely

theorem Tasks.entries_eq (tasks : Tasks) :
    tasks.map.entries = tasks.values.map fun task => (task.id, task) := by
  have hkeyed := tasks.keyed
  unfold values OrderedMap.values
  rw [List.map_map]
  refine (List.map_congr_left fun entry hentry => ?_).trans (List.map_id _) |>.symm
  exact Prod.ext (hkeyed entry hentry).symm rfl

theorem Tasks.ids_nodup (tasks : Tasks) : (tasks.values.map (·.id)).Nodup := by
  have hkeys := tasks.map.keysNodup
  rw [tasks.entries_eq, List.map_map] at hkeys
  exact hkeys

theorem serialize_isSome (outbox : Option (List String))
    (eventState : Option (OrderedMap TaskEventState)) :
    (serialize tasks outbox eventState).isSome ↔ tasks.Timely := by
  have hparts : (serialize tasks outbox eventState).isSome =
      (tasks.values.mapM serializeTask).isSome := by
    unfold serialize
    cases tasks.values.mapM serializeTask <;> rfl
  rw [hparts]
  exact serializeTasks_isSome

theorem readTasks_serialize {outbox : Option (List String)}
    {eventState : Option (OrderedMap TaskEventState)}
    (h : serialize tasks outbox eventState = some file) :
    (readTasks fallback file).map = tasks.map.map DispatchTask.persisted := by
  unfold serialize at h
  simp only [bind_eq_bind, Option.pure_def, bind_eq_some_iff, some.injEq] at h
  obtain ⟨serialized, hserialized, rfl⟩ := h
  have hread := @serializeTasks_some fallback _ _ hserialized
  have hids : serialized.map (·.id) = tasks.values.map (·.id) := by
    have hfirst := congrArg (List.map Prod.fst) hread
    rw [List.map_map, List.map_map] at hfirst
    exact hfirst
  have hnodup : (serialized.map (·.id)).Nodup := by
    rw [hids]
    exact tasks.ids_nodup
  apply OrderedMap.ext_entries
  refine (OrderedMap.entries_ofList hnodup).trans (hread.trans ?_)
  show _ = tasks.map.entries.map _
  rw [tasks.entries_eq, List.map_map]
  rfl

theorem filterMap_str? (ids : List String) : (ids.map Json.str).filterMap Json.str? = ids := by
  rw [filterMap_map]
  exact filterMap_some

theorem readOutbox_serialize {outbox : Option (List String)}
    {eventState : Option (OrderedMap TaskEventState)}
    (h : serialize tasks outbox eventState = some file) : readOutbox file = outbox.getD [] := by
  unfold serialize at h
  simp only [bind_eq_bind, Option.pure_def, bind_eq_some_iff, some.injEq] at h
  obtain ⟨serialized, -, rfl⟩ := h
  rw [readOutbox, if_pos (.inr rfl)]
  cases outbox with
  | none => rfl
  | some ids =>
    cases ids with
    | nil => rfl
    | cons id ids => exact filterMap_str? (id :: ids)

theorem get_recordOf (states : OrderedMap TaskEventState) (id : String) :
    (recordOf states).get id =
      if id = "__proto__" then none else (states.get id).map serializeEventState := by
  unfold recordOf
  rw [OrderedMap.get_map]
  have hown : (⟨states.record.own, states.record.keysNodup⟩ : OrderedMap TaskEventState).get id =
      if id = "__proto__" then none else states.get id := OrderedMap.own?_record states id
  rw [hown]
  split <;> rfl

theorem readEventState_migrated {outbox : Option (List String)}
    (h : serialize tasks outbox none = some file) : readEventState file = .empty := by
  unfold serialize at h
  simp only [bind_eq_bind, Option.pure_def, bind_eq_some_iff, some.injEq] at h
  obtain ⟨serialized, -, rfl⟩ := h
  rfl

theorem get_readEventState {outbox : Option (List String)}
    {eventState : Option (OrderedMap TaskEventState)}
    (h : serialize tasks outbox eventState = some file) (id : String) :
    (readEventState file).get id =
      if id = "__proto__" then none else (eventState.getD .empty).get id := by
  unfold serialize at h
  simp only [bind_eq_bind, Option.pure_def, bind_eq_some_iff, some.injEq] at h
  obtain ⟨serialized, -, rfl⟩ := h
  rw [readEventState, if_pos rfl]
  cases eventState with
  | none => exact (ite_self _).symm
  | some states =>
    simp only [bind_some, getD_some]
    split
    · next record hrecord =>
      split at hrecord
      · cases hrecord
        rw [OrderedMap.ofList_entries, OrderedMap.get_map, get_recordOf]
        split
        · rfl
        · rw [Option.map_map]
          cases states.get id <;> rfl
      · cases hrecord
    · next hrecord =>
      split at hrecord
      · cases hrecord
      next hempty =>
      have hnone : states.entries = [] := length_eq_zero_iff.1 (by omega)
      have hget : states.get id = none := by
        unfold OrderedMap.get
        rw [hnone]
        rfl
      rw [hget]
      exact (ite_self _).symm

def Restores (loaded : Option LoadedState) (tasks : Tasks) (outbox : List String)
    (eventState : OrderedMap TaskEventState) : Prop :=
  ∃ state, loaded = some state ∧ state.tasks.map = tasks.map.map DispatchTask.persisted ∧
    state.outbox = outbox ∧ ∀ id, state.eventState.get id = eventState.get id

theorem load_file (h : store.text = some (.file file)) :
    (store.load fallback).1 =
      some { tasks := readTasks fallback file, outbox := readOutbox file,
             eventState := readEventState file } := by
  unfold TaskStateStore.load
  rw [h]

theorem save_written {outbox : Option (List String)}
    {eventState : Option (OrderedMap TaskEventState)} (hwritable : store.readOnly = false)
    (htimely : tasks.Timely) :
    ∃ file, serialize tasks outbox eventState = some file ∧
      (store.save tasks outbox eventState).text = some (.file file) := by
  have hwrites := (serialize_isSome outbox eventState).2 htimely
  obtain ⟨file, hfile⟩ := isSome_iff_exists.1 hwrites
  refine ⟨file, hfile, ?_⟩
  unfold TaskStateStore.save
  rw [hwritable, hfile]
  rfl

theorem save_kept {outbox : Option (List String)} {eventState : Option (OrderedMap TaskEventState)}
    (h : store.readOnly = true ∨ ¬ tasks.Timely) : store.save tasks outbox eventState = store := by
  unfold TaskStateStore.save
  by_cases hreadOnly : store.readOnly = true
  · rw [if_pos hreadOnly]
  have hthrown : serialize tasks outbox eventState = none := by
    rw [← not_isSome_iff_eq_none, serialize_isSome]
    exact h.resolve_left hreadOnly
  rw [if_neg hreadOnly, hthrown]

/-- A load of a saved state restores it, unless an event state is named `__proto__`. -/
theorem load_save (hwritable : store.readOnly = false) (htimely : tasks.Timely) :
    Restores ((store.save tasks (some outbox) (some eventState)).load fallback).1 tasks outbox
      eventState ↔ "__proto__" ∉ eventState.keys := by
  obtain ⟨file, hfile, htext⟩ :=
    @save_written tasks store (some outbox) (some eventState) hwritable htimely
  rw [load_file htext, ← OrderedMap.get_eq_none]
  have hget : ∀ id, (readEventState file).get id =
      if id = "__proto__" then none else eventState.get id := get_readEventState hfile
  constructor
  · rintro ⟨state, hstate, -, -, hevents⟩
    cases hstate
    rw [← hevents, hget, if_pos rfl]
  · intro hproto
    refine ⟨_, rfl, readTasks_serialize hfile, readOutbox_serialize hfile, fun id => ?_⟩
    refine (hget id).trans ?_
    split
    · next hid => rw [hid, hproto]
    · rfl

end Files

section Migration
variable {fallback : String → Option IsoDate.Time} {store : TaskStateStore}
  {file : DispatchStateFile}

/-- The texts of a record's dates are read as times. -/
structure SerializedDispatchTask.Timely (fallback : String → Option IsoDate.Time)
    (st : SerializedDispatchTask) : Prop where
  startedAt : (IsoDate.parse fallback st.startedAt).isSome
  completedAt : ∀ text ∈ st.completedAt, text ≠ "" → (IsoDate.parse fallback text).isSome
  lastUpdate : (IsoDate.parse fallback st.progress.lastUpdate).isSome

def DispatchStateFile.recordOf (file : DispatchStateFile) (id : String) :
    Option SerializedDispatchTask := file.tasks.reverse.find? fun st => st.id = id

def DispatchStateFile.Timely (fallback : String → Option IsoDate.Time)
    (file : DispatchStateFile) : Prop :=
  ∀ id, ∀ st ∈ file.recordOf id, st.Timely fallback

/-- A file whose version has an outbox, with the task among those still to be announced. -/
def DispatchStateFile.Owes (file : DispatchStateFile) (id : String) : Prop :=
  (file.version = .v4 ∨ file.version = .v5) ∧
    ∃ items, file.outbox = some (.arr items) ∧ Json.str id ∈ items

theorem mem_readOutbox {id : String} : id ∈ readOutbox file ↔ file.Owes id := by
  unfold readOutbox DispatchStateFile.Owes
  by_cases hversion : file.version = .v4 ∨ file.version = .v5
  · rw [if_pos hversion]
    split
    · next items hitems =>
      constructor
      · intro hid
        obtain ⟨item, hitem, hread⟩ := mem_filterMap.1 hid
        refine ⟨hversion, items, hitems, ?_⟩
        cases item with
        | str text =>
          cases hread
          exact hitem
        | _ => cases hread
      · rintro ⟨-, items', hitems', hid⟩
        rw [hitems] at hitems'
        cases hitems'
        exact mem_filterMap.2 ⟨_, hid, rfl⟩
    · next hother =>
      refine ⟨fun h => absurd h not_mem_nil, ?_⟩
      rintro ⟨-, items, hitems, -⟩
      exact absurd hitems (hother items)
  · rw [if_neg hversion]
    exact ⟨fun h => absurd h not_mem_nil, fun h => absurd h.1 hversion⟩

theorem readOutbox_eq_nil : readOutbox file = [] ↔ ¬ ∃ id, file.Owes id := by
  rw [eq_nil_iff_forall_not_mem, not_exists]
  exact forall_congr' fun id => not_congr mem_readOutbox

theorem get_readTasks (id : String) :
    (readTasks fallback file).map.get id =
      (file.recordOf id).map (readTask fallback file.version) :=
  OrderedMap.get_ofList _ _ _ id

theorem readTask_timely {st : SerializedDispatchTask} (version : SchemaVersion) :
    (readTask fallback version st).Timely ↔ st.Timely fallback := by
  constructor
  · rintro ⟨hstarted, hcompleted, hupdate⟩
    refine ⟨hstarted, fun text htext hne => ?_, hupdate⟩
    refine hcompleted (.ofText fallback text) (Option.mem_map_of_mem _ ?_)
    exact mem_filter_iff.2 ⟨htext, decide_eq_true hne⟩
  · rintro ⟨hstarted, hcompleted, hupdate⟩
    refine ⟨hstarted, fun date hdate => ?_, hupdate⟩
    obtain ⟨text, htext, rfl⟩ := map_eq_some_iff.1 hdate
    obtain ⟨hmem, hne⟩ := mem_filter_iff.1 htext
    exact hcompleted text hmem (of_decide_eq_true hne)

theorem readTasks_timely : (readTasks fallback file).Timely ↔ file.Timely fallback := by
  constructor
  · intro h id st hst
    have hget := @get_readTasks fallback file id
    rw [mem_def.1 hst, map_some] at hget
    have hvalue := List.mem_map_of_mem (f := Prod.snd) (OrderedMap.mem_of_get hget)
    exact (readTask_timely _).1 (h _ hvalue)
  · intro h task htask
    obtain ⟨⟨id, task'⟩, hentry, rfl⟩ := List.mem_map.1 htask
    have hget := OrderedMap.get_of_mem hentry
    rw [get_readTasks] at hget
    obtain ⟨st, hst, rfl⟩ := map_eq_some_iff.1 hget
    exact (readTask_timely _).2 (h id st hst)

theorem readTasks_persisted :
    (readTasks fallback file).map.map DispatchTask.persisted = (readTasks fallback file).map := by
  apply OrderedMap.ext_entries
  refine (List.map_congr_left fun entry hentry => ?_).trans (List.map_id _)
  obtain ⟨st, -, rfl⟩ := OrderedMap.mem_entries_ofList hentry
  rfl

/-- What is answered of one record: all its version has, and the default of the rest. -/
structure Carries (fallback : String → Option IsoDate.Time) (version : SchemaVersion)
    (st : SerializedDispatchTask) (task : DispatchTask) : Prop where
  identity : task.id = st.id ∧ task.sessionId = st.sessionId ∧
    task.parentSessionId = st.parentSessionId ∧ task.parentAgent = st.parentAgent ∧
    task.suppressCompletionNotification = st.suppressCompletionNotification
  work : task.status = st.status ∧ task.agent = st.agent ∧ task.prompt = st.prompt ∧
    task.description = st.description ∧ task.error = st.error
  dates : task.startedAt.time = IsoDate.parse fallback st.startedAt ∧
    task.progress.lastUpdate.time = IsoDate.parse fallback st.progress.lastUpdate ∧
    (∀ text ∈ st.completedAt, text ≠ "" →
      task.completedAt = some ⟨IsoDate.parse fallback text⟩) ∧
    (st.completedAt = none → task.completedAt = none)
  toolCalls : task.progress.toolCalls = st.progress.toolCalls
  rank : task.depth = st.depth.getD 0 ∧ task.priority = st.priority.getD 0
  continuation : version ≠ .v1 → task.continuationOf = st.continuationOf ∧
    task.messageCountAtStart = st.messageCountAtStart
  execution : version ≠ .v1 → version ≠ .v2 → task.timeoutMs = st.timeoutMs ∧ task.mode = st.mode
  result : version = .v4 ∨ version = .v5 → task.result = st.result

theorem readTask_carries (version : SchemaVersion) (st : SerializedDispatchTask) :
    Carries fallback version st (readTask fallback version st) where
  identity := ⟨rfl, rfl, rfl, rfl, rfl⟩
  work := ⟨rfl, rfl, rfl, rfl, rfl⟩
  dates := by
    refine ⟨rfl, rfl, fun text htext hne => ?_, fun hnone => ?_⟩
    · show (st.completedAt.filter _).map _ = _
      rw [mem_def.1 htext, filter_some, if_pos (decide_eq_true hne)]
      rfl
    · show (st.completedAt.filter _).map _ = _
      rw [hnone]
      rfl
  toolCalls := rfl
  rank := ⟨rfl, rfl⟩
  continuation := fun h => ⟨if_neg h, if_neg h⟩
  execution := fun h₁ h₂ => ⟨if_neg (not_or.2 ⟨h₁, h₂⟩), if_neg (not_or.2 ⟨h₁, h₂⟩)⟩
  result := fun h => by
    show (if _ then _ else _) = _
    rw [if_pos h]
    cases st.result <;> rfl

/-- What is answered of a file: each id's record, and the tasks still to be announced. -/
def CarriesFile (fallback : String → Option IsoDate.Time) (file : DispatchStateFile)
    (state : LoadedState) : Prop :=
  (∀ id, Option.Rel (Carries fallback file.version) (file.recordOf id)
    (state.tasks.map.get id)) ∧
  ∀ id, id ∈ state.outbox ↔ file.Owes id

/-- The next load restores a save and what a load wrote back, and without a write the file stays. -/
theorem state_file_round_trip (fallback : String → Option IsoDate.Time) (store : TaskStateStore) :
    (∀ tasks outbox eventState, store.readOnly = false → tasks.Timely →
      (Restores ((store.save tasks (some outbox) (some eventState)).load fallback).1 tasks outbox
        eventState ↔ "__proto__" ∉ eventState.keys)) ∧
    ∀ file, store.text = some (.file file) → file.version ≠ .v5 →
      ∃ state, (store.load fallback).1 = some state ∧ CarriesFile fallback file state ∧
        (((store.load fallback).2.load fallback).1 = some state ↔
          store.readOnly = true ∨ ¬ file.Timely fallback ∨ ¬ ∃ id, file.Owes id) := by
  refine ⟨fun tasks outbox eventState => load_save, fun file htext hversion => ?_⟩
  refine ⟨_, load_file htext, ⟨fun id => ?_, fun id => mem_readOutbox⟩, ?_⟩
  · show Option.Rel _ _ ((readTasks fallback file).map.get id)
    rw [get_readTasks]
    cases file.recordOf id with
    | none => exact .none
    | some st => exact .some (readTask_carries file.version st)
  · have hback : (store.load fallback).2 = store.save (readTasks fallback file) none none := by
      unfold TaskStateStore.load
      rw [htext]
      exact if_neg hversion
    rw [hback]
    by_cases hkept : store.readOnly = true ∨ ¬ file.Timely fallback
    · have hstore : store.save (readTasks fallback file) none none = store :=
        save_kept (hkept.imp_right (not_congr readTasks_timely).2)
      rw [hstore, load_file htext]
      exact ⟨fun _ => hkept.imp_right .inl, fun _ => rfl⟩
    · obtain ⟨hwritable, htimely⟩ := not_or.1 hkept
      have htasks : (readTasks fallback file).Timely := readTasks_timely.2 (not_not.1 htimely)
      obtain ⟨written, hwritten, hnow⟩ := @save_written (readTasks fallback file) store none none
        (Bool.eq_false_iff.2 hwritable) htasks
      have hsame : readTasks fallback written = readTasks fallback file := by
        have hmap := @readTasks_serialize fallback _ _ _ _ hwritten
        rw [readTasks_persisted] at hmap
        cases hread : readTasks fallback written
        cases hread' : readTasks fallback file
        rw [hread, hread'] at hmap
        cases hmap
        rfl
      have houtbox : readOutbox written = [] := readOutbox_serialize hwritten
      have hstates : readEventState written = readEventState file :=
        (readEventState_migrated hwritten).trans (if_neg hversion).symm
      rw [load_file hnow, hsame, houtbox, hstates, ← or_assoc (a := _), or_iff_right hkept,
        ← readOutbox_eq_nil]
      constructor
      · intro heq
        exact (congrArg LoadedState.outbox (Option.some.inj heq)).symm
      · intro hnone
        rw [hnone]

def noFallback (_ : String) : Option IsoDate.Time := none

def announcedTask : SerializedDispatchTask :=
  { id := "bg_1", sessionId := "ses_1", parentSessionId := "ses_0", parentAgent := none,
    suppressCompletionNotification := none, status := .completed, agent := "worker",
    prompt := "go", description := none, startedAt := "2026-01-01T00:00:00.000Z",
    completedAt := some "2026-01-01T00:00:01.000Z", error := none,
    progress := ⟨"2026-01-01T00:00:01.000Z", 0⟩, continuationOf := none,
    messageCountAtStart := some 0, timeoutMs := none, mode := some "background", depth := some 0,
    priority := some 0, result := none }

def announcedStore : TaskStateStore :=
  { readOnly := false
    text := some (.file
      { version := .v4, tasks := [announcedTask], outbox := some (.arr [.str "bg_1"]),
        eventState := none }) }

/-- The load of a version-4 file answers its outbox, and what it writes back has none. -/
theorem announced_lost : (announcedStore.load noFallback).1.map (·.outbox) = some ["bg_1"] ∧
    ((announcedStore.load noFallback).2.load noFallback).1.map (·.outbox) = some [] := by
  decide +kernel

def quietFile : DispatchStateFile :=
  { version := .v4, tasks := [announcedTask], outbox := none, eventState := none }

def quietStore : TaskStateStore := { readOnly := false, text := some (.file quietFile) }

def sawOutput : OrderedMap TaskEventState :=
  OrderedMap.empty.set "bg_1"
    { lastMessageCount := 2, lastProgressUpdate := 1, hasProducedOutput := true
      messageCountAtStart := 1, lastEventAt := 1, pendingConfirm := some ⟨2, 1⟩
      consecutiveFetchFailures := 0 }

/-- The task is saved with its outbox entry and event state, and a quiet file is written back. -/
theorem saved_and_kept :
    Restores ((quietStore.save (readTasks noFallback quietFile) (some ["bg_1"])
        (some sawOutput)).load noFallback).1 (readTasks noFallback quietFile) ["bg_1"] sawOutput ∧
      ((quietStore.load noFallback).2.load noFallback).1 = (quietStore.load noFallback).1 := by
  obtain ⟨hsave, hload⟩ := state_file_round_trip noFallback quietStore
  constructor
  · refine (hsave _ _ _ rfl fun task htask => ?_).2 (by decide)
    obtain rfl : task = readTask noFallback .v4 announcedTask := mem_singleton.1 htask
    exact (readTask_timely _).2
      ⟨by decide +kernel, fun text htext _ => Option.some.inj htext ▸ by decide +kernel,
        by decide +kernel⟩
  · obtain ⟨state, hstate, -, hiff⟩ := hload _ rfl (by decide)
    rw [hstate]
    refine hiff.2 (.inr (.inr ?_))
    rintro ⟨id, -, items, hitems, -⟩
    cases hitems

end Migration

end Rolebox.Dispatch.Persistence
