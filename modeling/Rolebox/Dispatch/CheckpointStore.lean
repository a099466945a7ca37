import Rolebox.General.LastOnes
import Rolebox.General.Transition

/-! The checkpoint file of one task, and the calls that read and replace it between awaits. -/

namespace Rolebox.Dispatch.Checkpoints
open General List Function

section Model
variable {Data : Type}

/-- The time a checkpoint was created, in milliseconds; absent where its text is no date. -/
abbrev CreatedAt (Data : Type) := Data → Option Int

inductive FileContent (Data : Type) where
  | array (entries : List Data)
  | notArray
  | corrupt

def entriesOf : Option (FileContent Data) → List Data
  | some (.array entries) => entries
  | _ => []

def maxCheckpointsPerTask : Nat := 100

def expired (createdAt : CreatedAt Data) (ttlMs now : Int) (data : Data) : Bool :=
  match createdAt data with
  | some created => ¬ (now - created < ttlMs)
  | none => true

/-- A call at one of its awaits: before its listing, its read or its write, or after them; a call
that waits for a read the system has answered has its next write or unlink before it. -/
inductive Call (Data : Type) where
  | saving (data : Data)
  | saveWriting (data : Data) (entries : List Data)
  | saveWritten (data : Data) (entries : List Data)
  | cleaning (ttlMs : Int)
  | cleanReading (ttlMs now : Int)
  | cleanWriting (entries : List Data)
  | cleanWritten (entries : List Data)
  | cleanUnlinking

def Call.pending : Call Data → Bool
  | .saveWriting .. | .saveWritten .. | .cleanWriting _ | .cleanWritten _ | .cleanUnlinking => true
  | _ => false

/-- A completed save, excused once its checkpoint has expired or the file was deleted by request. -/
structure Saved (Data : Type) where
  number : Nat
  data : Data
  excused : Bool

structure TaskFile (Data : Type) where
  file : Option (FileContent Data)
  tmp : Option (FileContent Data)
  calls : Nat → Option (Call Data)
  log : List (Saved Data)

def excuse (p : Data → Bool) (saved : Saved Data) : Saved Data :=
  { saved with excused := saved.excused || p saved.data }

/-- The calls by their ids, and how their system calls end: a failed write leaves any file. -/
inductive Action (Data : Type) where
  | save (id : Nat) (data : Data)
  | cleanup (id : Nat) (ttlMs : Int)
  | listed (id : Nat) (now : Int) (found : Bool)
  | read (id : Nat) (ok : Bool)
  | wrote (id : Nat) (ok : Bool) (left : Option (FileContent Data))
  | replace (id : Nat) (unlinked renamed : Bool)
  | unlink (id : Nat) (unlinked : Bool)
  | delete

namespace TaskFile
variable (createdAt : CreatedAt Data)

def setCall (w : TaskFile Data) (id : Nat) (call : Option (Call Data)) : TaskFile Data :=
  { w with calls := update w.calls id call }

def readForSave (w : TaskFile Data) (id : Nat) (data : Data) (ok : Bool) : TaskFile Data :=
  w.setCall id (some (.saveWriting data
    ((entriesOf (if ok then w.file else none) ++ [data]).rtake maxCheckpointsPerTask)))

def validOf (w : TaskFile Data) (ttlMs now : Int) : List Data :=
  (entriesOf w.file).filter fun data => !expired createdAt ttlMs now data

/-- A missing, corrupt or unreadable file is skipped. -/
def readable (w : TaskFile Data) (ok : Bool) : Bool :=
  match w.file with
  | none | some .corrupt => false
  | some _ => ok

def afterRead (w : TaskFile Data) (ttlMs now : Int) : Option (Call Data) :=
  let valid := w.validOf createdAt ttlMs now
  -- the file is deleted once the call resumes, whatever it holds by then
  if valid = [] then some .cleanUnlinking
  else if valid.length < (entriesOf w.file).length then some (.cleanWriting valid)
  else none

def readForCleanup (w : TaskFile Data) (id : Nat) (ttlMs now : Int) (ok : Bool) : TaskFile Data :=
  if w.readable ok then
    { w.setCall id (w.afterRead createdAt ttlMs now) with
      log := w.log.map (excuse (expired createdAt ttlMs now)) }
  else w.setCall id none

def renameOver (w : TaskFile Data) (unlinked renamed : Bool) : TaskFile Data :=
  if renamed ∧ w.tmp.isSome then { w with file := w.tmp, tmp := none }
  else { w with file := if unlinked then none else w.file }

def step (w : TaskFile Data) : Action Data → Option (TaskFile Data)
  | .save id data =>
    match w.calls id with
    | none => some (w.setCall id (some (.saving data)))
    | some _ => none
  | .cleanup id ttlMs =>
    match w.calls id with
    | none => some (w.setCall id (some (.cleaning ttlMs)))
    | some _ => none
  | .listed id now found =>
    match w.calls id with
    | some (.cleaning ttlMs) =>
      some (w.setCall id (if found then some (.cleanReading ttlMs now) else none))
    | _ => none
  | .read id ok =>
    match w.calls id with
    | some (.saving data) => some (w.readForSave id data ok)
    | some (.cleanReading ttlMs now) => some (w.readForCleanup createdAt id ttlMs now ok)
    | _ => none
  | .wrote id ok left =>
    match w.calls id with
    | some (.saveWriting data entries) =>
      some
        (if ok then
          { w.setCall id (some (.saveWritten data entries)) with tmp := some (.array entries) }
        else { w.setCall id none with tmp := left })
    | some (.cleanWriting entries) =>
      some
        (if ok then
          { w.setCall id (some (.cleanWritten entries)) with tmp := some (.array entries) }
        else { w.setCall id none with tmp := left })
    | _ => none
  | .replace id unlinked renamed =>
    match w.calls id with
    | some (.saveWritten data _) =>
      let replaced := (w.setCall id none).renameOver unlinked renamed
      some
        (if renamed ∧ w.tmp.isSome then
          { replaced with
            log := w.log ++ [{ number := w.log.length, data, excused := false }] }
        else replaced)
    | some (.cleanWritten _) => some ((w.setCall id none).renameOver unlinked renamed)
    | _ => none
  | .unlink id unlinked =>
    match w.calls id with
    | some .cleanUnlinking =>
      some { w.setCall id none with file := if unlinked then none else w.file }
    | _ => none
  | .delete => some { w with file := none, log := w.log.map (excuse fun _ => true) }

/-- A save goes on to write, a cleanup where entries are expired or the file it read holds none. -/
def goesOn (w : TaskFile Data) (ok : Bool) : Call Data → Bool
  | .saving _ => true
  | .cleanReading ttlMs now => w.readable ok && (w.afterRead createdAt ttlMs now).isSome
  | _ => false

/-- No call reads to go on while another has yet to change the file, and no read of entries and no
rename fails. -/
def Safe (w : TaskFile Data) : Action Data → Prop
  | .read id ok =>
    (∀ data, w.calls id = some (.saving data) → ok = true ∨ entriesOf w.file = []) ∧
      ∀ call, w.calls id = some call → w.goesOn createdAt ok call = true →
        ∀ other call', w.calls other = some call' → call'.pending = false
  | .replace _ unlinked renamed =>
    renamed = true ∧ w.tmp.isSome = true ∨ unlinked = false ∨ w.file = none
  | _ => True

def SafeStep (w : TaskFile Data) (a : Action Data) (w' : TaskFile Data) : Prop :=
  w.step createdAt a = some w' ∧ w.Safe createdAt a

def start (file tmp : Option (FileContent Data)) : TaskFile Data :=
  { file, tmp, calls := fun _ => none
    log := (entriesOf file).mapIdx fun i data => { number := i, data, excused := false } }

end TaskFile

/-- The saves the file has to hold: of the last ones, those that are not excused. -/
def due (log : List (Saved Data)) : List (Saved Data) :=
  (log.rtake maxCheckpointsPerTask).filter fun saved => !saved.excused

/-- The checkpoints of all due saves are in the file, in the order the saves completed. -/
def TaskFile.Retained (w : TaskFile Data) : Prop :=
  ((due w.log).map (·.data)).Sublist (entriesOf w.file)

def TaskFile.Fails (w : TaskFile Data) : Action Data → Prop
  | .wrote _ ok _ => ok = false
  | .replace _ _ renamed => ¬ (renamed = true ∧ w.tmp.isSome = true)
  | _ => False

end Model

section Holding
variable {Data : Type} {log held : List (Saved Data)} {entries : List Data}

structure Holds (log held : List (Saved Data)) (entries : List Data) : Prop where
  sublist : held.Sublist log
  entries : entries = held.map (·.data)
  due : (due log).Sublist held

section

variable (h : Holds log held entries)
include h

theorem Holds.retained : ((Checkpoints.due log).map (·.data)).Sublist entries := by
  rw [h.entries]
  exact h.due.map _

omit h in
theorem Holds.start {entries : List Data} :
    Holds (entries.mapIdx fun i data => { number := i, data, excused := false : Saved Data })
      (entries.mapIdx fun i data => { number := i, data, excused := false : Saved Data })
      entries where
  sublist := Sublist.refl _
  entries := by
    apply ext_getElem <;> simp
  due := filter_sublist.trans (rtake_suffix _ _).sublist

omit h in
theorem due_excuse (p : Data → Bool) (log : List (Saved Data)) :
    (due (log.map (excuse p))).Sublist ((due log).map (excuse p)) := by
  unfold due
  rw [rtake, length_map, ← map_drop, ← rtake, filter_map]
  refine Sublist.map _ (monotone_filter_right _ fun saved => ?_)
  simp only [comp_apply, excuse, Bool.not_or, Bool.and_eq_true]
  exact And.left

theorem Holds.excuse (p : Data → Bool) :
    Holds (log.map (excuse p)) (held.map (excuse p)) entries where
  sublist := h.sublist.map _
  entries := by
    rw [h.entries, map_map]
    rfl
  due := (due_excuse p log).trans (h.due.map _)

theorem Holds.save (hnodup : log.Nodup) (saved : Saved Data) :
    Holds (log ++ [saved]) ((held ++ [saved]).rtake maxCheckpointsPerTask)
      ((entries ++ [saved.data]).rtake maxCheckpointsPerTask) where
  sublist := (rtake_suffix _ _).sublist.trans (h.sublist.append (Sublist.refl _))
  entries := by
    rw [h.entries, rtake, rtake, map_drop]
    simp
  due := filter_rtake_concat hnodup h.sublist saved h.due

theorem Holds.filter (p : Data → Bool) :
    Holds (log.map (Checkpoints.excuse p))
      ((held.filter fun saved => !p saved.data).map (Checkpoints.excuse p))
      (entries.filter fun data => !p data) where
  sublist := (filter_sublist.trans h.sublist).map _
  entries := by
    rw [h.entries, map_map, filter_map]
    rfl
  due := by
    have hdue := (due_excuse p log).trans (h.due.map _)
    have hall : ∀ saved ∈ Checkpoints.due (log.map (Checkpoints.excuse p)), !p saved.data := by
      intro saved hmem
      obtain ⟨hlog, hexcused⟩ := mem_filter.1 hmem
      obtain ⟨original, -, rfl⟩ := mem_map.1 ((rtake_suffix _ _).subset hlog)
      simp only [Checkpoints.excuse, Bool.not_or, Bool.and_eq_true] at hexcused
      exact hexcused.2
    have hkept := hdue.filter fun saved => !p saved.data
    rwa [filter_eq_self.2 hall, filter_map] at hkept

end

end Holding

section Invariant
variable {Data : Type} {createdAt : CreatedAt Data} {w w' : TaskFile Data} {log : List (Saved Data)}
  {tmp : Option (FileContent Data)} {id : Nat} {call : Call Data}
variable {data : Data} {ok unlinked renamed : Bool}

def SaveOk (log : List (Saved Data)) (data : Data) (entries : List Data) : Prop :=
  ∃ held before, Holds log held before ∧
    entries = (before ++ [data]).rtake maxCheckpointsPerTask

def CallOk (log : List (Saved Data)) (tmp : Option (FileContent Data)) : Call Data → Prop
  | .saveWriting data entries => SaveOk log data entries
  | .saveWritten data entries => SaveOk log data entries ∧ tmp = some (.array entries)
  | .cleanWriting entries => ∃ held, Holds log held entries
  | .cleanWritten entries => (∃ held, Holds log held entries) ∧ tmp = some (.array entries)
  | .cleanUnlinking => ∃ held, Holds log held []
  | _ => True

theorem CallOk.of_not_pending (h : call.pending = false) : CallOk log tmp call := by
  cases call <;> trivial

theorem SaveOk.excuse {entries : List Data} (h : SaveOk log data entries) (p : Data → Bool) :
    SaveOk (log.map (excuse p)) data entries := by
  obtain ⟨held, before, hholds, hentries⟩ := h
  exact ⟨_, before, hholds.excuse p, hentries⟩

theorem CallOk.excuse (h : CallOk log tmp call) (p : Data → Bool) :
    CallOk (log.map (excuse p)) tmp call := by
  cases call with
  | saveWriting data entries => exact SaveOk.excuse h p
  | saveWritten data entries => exact ⟨SaveOk.excuse h.1 p, h.2⟩
  | cleanWriting | cleanUnlinking => exact ⟨_, h.choose_spec.excuse p⟩
  | cleanWritten entries => exact ⟨⟨_, h.1.choose_spec.excuse p⟩, h.2⟩
  | _ => trivial

structure Inv (w : TaskFile Data) : Prop where
  numbered : w.log.map (·.number) = range w.log.length
  kept : ∃ held, Holds w.log held (entriesOf w.file)
  calls : ∀ id call, w.calls id = some call → CallOk w.log w.tmp call
  alone : ∀ id id' call call', w.calls id = some call → w.calls id' = some call' →
    call.pending = true → call'.pending = true → id = id'

theorem Inv.nodup (h : Inv w) : w.log.Nodup := Nodup.of_map _ (h.numbered ▸ nodup_range)

theorem Inv.start (file tmp : Option (FileContent Data)) : Inv (TaskFile.start file tmp) where
  numbered := by
    apply ext_getElem <;> simp [TaskFile.start]
  kept := ⟨_, Holds.start⟩
  calls := by simp [TaskFile.start]
  alone := by simp [TaskFile.start]

section

variable (h : Inv w)
include h

theorem Inv.setCall {next : Option (Call Data)}
    (hok : ∀ call, next = some call → CallOk w.log w.tmp call)
    (halone : ∀ call, next = some call → call.pending = true →
      ∀ other call', other ≠ id → w.calls other = some call' → call'.pending = false) :
    Inv (w.setCall id next) where
  numbered := h.numbered
  kept := h.kept
  calls := by
    intro id' call' hcall
    simp only [TaskFile.setCall] at hcall ⊢
    by_cases hid : id' = id
    · subst hid
      rw [update_self] at hcall
      exact hok _ hcall
    · rw [update_of_ne hid] at hcall
      exact h.calls _ _ hcall
  alone := by
    intro i j call₁ call₂ h₁ h₂ hp₁ hp₂
    simp only [TaskFile.setCall] at h₁ h₂
    by_cases hi : i = id
    · by_cases hj : j = id
      · rw [hi, hj]
      subst hi
      rw [update_self] at h₁
      rw [update_of_ne hj] at h₂
      exact absurd hp₂ (by rw [halone _ h₁ hp₁ j _ hj h₂]; decide)
    · rw [update_of_ne hi] at h₁
      by_cases hj : j = id
      · subst hj
        rw [update_self] at h₂
        exact absurd hp₁ (by rw [halone _ h₂ hp₂ i _ hi h₁]; decide)
      · rw [update_of_ne hj] at h₂
        exact h.alone i j _ _ h₁ h₂ hp₁ hp₂

theorem Inv.setIdle {next : Option (Call Data)}
    (hidle : ∀ call, next = some call → call.pending = false) : Inv (w.setCall id next) :=
  h.setCall (fun call hnext => .of_not_pending (hidle call hnext)) fun call hnext hpending =>
    absurd hpending (by rw [hidle call hnext]; decide)

theorem Inv.end : Inv (w.setCall id none) := h.setIdle fun _ hnext => absurd hnext (by simp)

theorem Inv.excuse (p : Data → Bool) : Inv { w with log := w.log.map (Checkpoints.excuse p) } where
  numbered := by
    rw [map_map, length_map, ← h.numbered]
    rfl
  kept := ⟨_, h.kept.choose_spec.excuse p⟩
  calls := fun id call hcall => (h.calls id call hcall).excuse p
  alone := h.alone

theorem Inv.setFile {file : Option (FileContent Data)}
    (hkept : ∃ held, Holds w.log held (entriesOf file)) : Inv { w with file } where
  numbered := h.numbered
  kept := hkept
  calls := h.calls
  alone := h.alone

theorem Inv.setTmp (hidle : ∀ id call, w.calls id = some call → call.pending = false) :
    Inv { w with tmp } where
  numbered := h.numbered
  kept := h.kept
  calls := fun id call hcall => .of_not_pending (hidle id call hcall)
  alone := h.alone

theorem Inv.idle_of_end (hcall : w.calls id = some call) (hpending : call.pending = true) :
    ∀ other call', (w.setCall id none).calls other = some call' → call'.pending = false := by
  intro other call' hother
  simp only [TaskFile.setCall] at hother
  by_cases hid : other = id
  · rw [hid, update_self] at hother
    exact absurd hother (by simp)
  · rw [update_of_ne hid] at hother
    by_contra hp
    exact hid (h.alone _ _ _ _ hother hcall (by simpa using hp) hpending)

theorem Inv.readForSave (hread : ok = true ∨ entriesOf w.file = [])
    (halone : ∀ other call', w.calls other = some call' → call'.pending = false) :
    Inv (w.readForSave id data ok) := by
  have hentries : entriesOf (if ok then w.file else none) = entriesOf w.file := by
    cases ok with
    | true => rfl
    | false => exact (hread.resolve_left (by simp)).symm
  refine h.setCall (fun call hnext => ?_) fun _ _ _ other call' _ => halone other call'
  cases hnext
  obtain ⟨held, hheld⟩ := h.kept
  exact ⟨held, _, hheld, by rw [hentries]⟩

theorem Inv.readForCleanup {ttlMs now : Int}
    (halone : w.goesOn createdAt ok (.cleanReading ttlMs now) = true →
      ∀ other call', w.calls other = some call' → call'.pending = false) :
    Inv (w.readForCleanup createdAt id ttlMs now ok) := by
  have hvalid : ∃ held, Holds (w.log.map (Checkpoints.excuse (expired createdAt ttlMs now))) held
      (w.validOf createdAt ttlMs now) :=
    ⟨_, h.kept.choose_spec.filter (expired createdAt ttlMs now)⟩
  unfold TaskFile.readForCleanup
  split
  · next hreadable =>
    refine (h.excuse (expired createdAt ttlMs now)).setCall (fun call hnext => ?_) ?_
    · unfold TaskFile.afterRead at hnext
      dsimp only at hnext
      split at hnext
      · next hnone =>
        cases hnext
        rwa [hnone] at hvalid
      · split at hnext
        · cases hnext
          exact hvalid
        · cases hnext
    · intro call hnext _ other call' _
      refine halone ?_ other call'
      show (w.readable ok && (w.afterRead createdAt ttlMs now).isSome) = true
      rw [hreadable, hnext]
      rfl
  · exact h.end

theorem Inv.wrote {next : Call Data} {entries : List Data} {left : Option (FileContent Data)}
    (hcall : w.calls id = some call) (hpending : call.pending = true)
    (hok : CallOk w.log (some (.array entries)) next) :
    Inv (if ok then { w.setCall id (some next) with tmp := some (.array entries) }
      else { w.setCall id none with tmp := left }) := by
  have hidle := h.idle_of_end hcall hpending
  cases ok with
  | false => exact h.end.setTmp hidle
  | true =>
    have hend : Inv { w.setCall id none with tmp := some (.array entries) } := h.end.setTmp hidle
    have hwritten : Inv (TaskFile.setCall { w.setCall id none with tmp := some (.array entries) }
        id (some next)) := by
      apply hend.setCall
      · intro call hnext
        cases hnext
        exact hok
      · exact fun _ _ _ other call' _ => hidle other call'
    simpa [TaskFile.setCall] using hwritten

end

theorem TaskFile.renameOver_failed (hfails : ¬ (renamed = true ∧ w.tmp.isSome = true))
    (hsafe : unlinked = false ∨ w.file = none) : w.renameOver unlinked renamed = w := by
  have hfile : (if unlinked then none else w.file) = w.file := by
    rcases hsafe with hunlinked | hnone
    · rw [hunlinked]
      rfl
    · rw [hnone]
      exact ite_self none
  unfold TaskFile.renameOver
  rw [if_neg hfails, hfile]

theorem Inv.renameOver (h : Inv w)
    (hidle : ∀ id call, w.calls id = some call → call.pending = false)
    (hkept : ∃ held, Holds w.log held (entriesOf w.tmp))
    (hsafe : renamed = true ∧ w.tmp.isSome = true ∨ unlinked = false ∨ w.file = none) :
    Inv (w.renameOver unlinked renamed) := by
  by_cases hrenamed : renamed = true ∧ w.tmp.isSome = true
  · unfold TaskFile.renameOver
    rw [if_pos hrenamed]
    exact (h.setFile hkept).setTmp hidle
  · rw [TaskFile.renameOver_failed hrenamed (hsafe.resolve_left hrenamed)]
    exact h

theorem Inv.saved {entries : List Data} (h : Inv w)
    (hidle : ∀ id call, w.calls id = some call → call.pending = false)
    (hsave : SaveOk w.log data entries) :
    Inv { w with
      file := some (.array entries), tmp := none
      log := w.log ++ [{ number := w.log.length, data, excused := false }] } where
  numbered := by
    rw [map_append, h.numbered, length_append, length_singleton, range_succ]
    rfl
  kept := by
    obtain ⟨held, before, hheld, rfl⟩ := hsave
    exact ⟨_, hheld.save h.nodup { number := w.log.length, data, excused := false }⟩
  calls := fun id call hcall => .of_not_pending (hidle id call hcall)
  alone := h.alone

theorem Inv.replace (h : Inv w)
    (hsafe : renamed = true ∧ w.tmp.isSome = true ∨ unlinked = false ∨ w.file = none)
    (hstep : w.step createdAt (.replace id unlinked renamed) = some w') : Inv w' := by
  simp only [TaskFile.step] at hstep
  split at hstep
  · next data entries hcall =>
    cases hstep
    have hidle := h.idle_of_end hcall rfl
    obtain ⟨hsave, htmp⟩ := h.calls _ _ hcall
    split
    · next hrenamed =>
      have hsaved := h.end.saved hidle hsave
      simpa [TaskFile.renameOver, TaskFile.setCall, hrenamed, htmp] using hsaved
    · next hfails =>
      have hkept : (w.setCall id none).renameOver unlinked renamed = w.setCall id none :=
        TaskFile.renameOver_failed hfails (hsafe.resolve_left hfails)
      rw [hkept]
      exact h.end
  · next entries hcall =>
    cases hstep
    obtain ⟨hheld, htmp⟩ := h.calls _ _ hcall
    refine h.end.renameOver (h.idle_of_end hcall rfl) ?_ hsafe
    rw [show (w.setCall id none).tmp = w.tmp from rfl, htmp]
    exact hheld
  · exact absurd hstep (by simp)

theorem Inv.step {a : Action Data} (h : Inv w) (hstep : TaskFile.SafeStep createdAt w a w') :
    Inv w' := by
  obtain ⟨hstep, hsafe⟩ := hstep
  cases a with
  | save id data | cleanup id ttlMs =>
    simp only [TaskFile.step] at hstep
    split at hstep
    · cases hstep
      exact h.setIdle fun call hnext => by rw [← Option.some.inj hnext]; rfl
    · exact absurd hstep (by simp)
  | listed id now found =>
    simp only [TaskFile.step] at hstep
    split at hstep
    · cases hstep
      refine h.setIdle fun call hnext => ?_
      split at hnext
      · rw [← Option.some.inj hnext]
        rfl
      · exact absurd hnext (by simp)
    · exact absurd hstep (by simp)
  | read id ok =>
    simp only [TaskFile.step] at hstep
    split at hstep
    · next data hcall =>
      cases hstep
      exact h.readForSave (hsafe.1 data hcall) (hsafe.2 _ hcall rfl)
    · next ttlMs now hcall =>
      cases hstep
      exact h.readForCleanup (hsafe.2 _ hcall)
    · exact absurd hstep (by simp)
  | wrote id ok left =>
    simp only [TaskFile.step] at hstep
    split at hstep
    · next data entries hcall =>
      cases hstep
      exact h.wrote hcall rfl ⟨h.calls _ _ hcall, rfl⟩
    · next entries hcall =>
      cases hstep
      exact h.wrote hcall rfl ⟨h.calls _ _ hcall, rfl⟩
    · exact absurd hstep (by simp)
  | replace id unlinked renamed => exact h.replace hsafe hstep
  | unlink id unlinked =>
    simp only [TaskFile.step] at hstep
    split at hstep
    · next hcall =>
      cases hstep
      refine h.end.setFile ?_
      cases unlinked with
      | true => exact h.calls _ _ hcall
      | false => exact h.kept
    · exact absurd hstep (by simp)
  | delete =>
    cases hstep
    refine (h.excuse fun _ => true).setFile ⟨[], ?_⟩
    have hnone := h.kept.choose_spec.filter fun _ => true
    simpa [entriesOf] using hnone

end Invariant

section Runs
variable {Data : Type} {createdAt : CreatedAt Data} {w w' : TaskFile Data}

theorem TaskFile.file_of_fails {a : Action Data} (hstep : w.SafeStep createdAt a w')
    (hfails : w.Fails a) : w'.file = w.file := by
  obtain ⟨hstep, hsafe⟩ := hstep
  cases a with
  | wrote id ok left =>
    obtain rfl : ok = false := hfails
    simp only [TaskFile.step] at hstep
    split at hstep
    · cases hstep
      rfl
    · cases hstep
      rfl
    · exact absurd hstep (by simp)
  | replace id unlinked renamed =>
    have hkept : (w.setCall id none).renameOver unlinked renamed = w.setCall id none :=
      TaskFile.renameOver_failed hfails (hsafe.resolve_left hfails)
    simp only [TaskFile.step] at hstep
    split at hstep
    · cases hstep
      rw [if_neg hfails, hkept]
      rfl
    · cases hstep
      rw [hkept]
      rfl
    · exact absurd hstep (by simp)
  | _ => exact hfails.elim

/-- In every run whose steps are safe no checkpoint is lost, and a failing call changes nothing. -/
theorem checkpoints_retained {file tmp : Option (FileContent Data)} {actions : List (Action Data)}
    (h : Run (TaskFile.SafeStep createdAt) (TaskFile.start file tmp) actions w) :
    w.Retained ∧ ∀ a w', w.SafeStep createdAt a w' → w.Fails a → w'.file = w.file := by
  have hinv : Inv w := h.invariant (fun _ _ _ hs hstep => hs.step hstep) (Inv.start file tmp)
  exact ⟨hinv.kept.choose_spec.retained, fun _ _ => TaskFile.file_of_fails⟩

theorem TaskFile.idle_of_three {w : TaskFile Int} (hrest : ∀ i, w.calls (i + 3) = none)
    (hidle : ∀ i < 3, (w.calls i).all (!·.pending)) :
    ∀ other call, w.calls other = some call → call.pending = false := by
  intro other call hcall
  have hother : other < 3 := by
    by_contra hother
    obtain ⟨i, rfl⟩ := Nat.exists_eq_add_of_le' (Nat.le_of_not_lt hother)
    rw [hrest] at hcall
    cases hcall
  have hall := hidle other hother
  rwa [hcall, Option.all_some, Bool.not_eq_true'] at hall

/-- Two saves one after the other, and a cleanup that removes the first checkpoint. -/
theorem checkpoints_retained_sample :
    ∃ w, Run (TaskFile.SafeStep fun n : Int => some n) (TaskFile.start none none)
        [.save 0 10, .read 0 true, .save 1 20, .cleanup 2 15, .wrote 0 true none,
          .replace 0 true true, .read 1 true, .wrote 1 true none, .listed 2 30 true,
          .replace 1 true true, .read 2 true, .wrote 2 true none] w ∧
      w.file = some (.array [10, 20]) ∧ w.tmp = some (.array [20]) ∧ w.Retained ∧
        ∀ a w', w.SafeStep (fun n : Int => some n) a w' → w.Fails a → w'.file = w.file := by
  have hrun : ∃ w, Run (TaskFile.SafeStep fun n : Int => some n) (TaskFile.start none none)
      [.save 0 10, .read 0 true, .save 1 20, .cleanup 2 15, .wrote 0 true none,
        .replace 0 true true, .read 1 true, .wrote 1 true none, .listed 2 30 true,
        .replace 1 true true, .read 2 true, .wrote 2 true none] w ∧
      w.file = some (.array [10, 20]) ∧ w.tmp = some (.array [20]) := by
    refine ⟨_, .cons ⟨rfl, trivial⟩ <| .cons ⟨rfl, fun _ _ => .inl rfl, fun _ _ _ => ?_⟩ <|
      .cons ⟨rfl, trivial⟩ <| .cons ⟨rfl, trivial⟩ <| .cons ⟨rfl, trivial⟩ <|
      .cons ⟨rfl, .inl ⟨rfl, rfl⟩⟩ <| .cons ⟨rfl, fun _ _ => .inl rfl, fun _ _ _ => ?_⟩ <|
      .cons ⟨rfl, trivial⟩ <| .cons ⟨rfl, trivial⟩ <| .cons ⟨rfl, .inl ⟨rfl, rfl⟩⟩ <|
      .cons ⟨rfl, fun _ _ => .inl rfl, fun _ _ _ => ?_⟩ <| .cons ⟨rfl, trivial⟩ <| .nil _, ?_, ?_⟩
    · exact TaskFile.idle_of_three (fun _ => rfl) (by decide +kernel)
    · exact TaskFile.idle_of_three (fun _ => rfl) (by decide +kernel)
    · exact TaskFile.idle_of_three (fun _ => rfl) (by decide +kernel)
    · rfl
    · rfl
  obtain ⟨w, hrun, hfile, htmp⟩ := hrun
  exact ⟨w, hrun, hfile, htmp, checkpoints_retained hrun⟩

/-- Two saves that read the file before either writes it lose one checkpoint. -/
theorem overlapping_saves_lose_one :
    ∃ w, Run (fun w a w' => TaskFile.step (fun n : Int => some n) w a = some w')
        (TaskFile.start none none)
        [.save 0 10, .save 1 20, .read 0 true, .read 1 true, .wrote 0 true none,
          .replace 0 true true, .wrote 1 true none, .replace 1 true true] w ∧ ¬ w.Retained := by
  refine ⟨_, .cons rfl (.cons rfl (.cons rfl (.cons rfl (.cons rfl (.cons rfl (.cons rfl
    (.cons rfl (.nil _)))))))), ?_⟩
  unfold TaskFile.Retained
  decide +kernel

end Runs

end Rolebox.Dispatch.Checkpoints
