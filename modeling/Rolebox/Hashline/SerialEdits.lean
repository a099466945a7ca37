import Rolebox.Hashline.PathLock

/-! Runs of concurrent edit batches: when the batches of a path never overlap. -/

namespace Rolebox.Hashline
open General Mutexes List
variable {host : Host} {s t : Editor} {event : Event}

section Locks
variable {m : Locks} {b : Nat}

abbrev Request := Ticket String LockRequest

abbrev Locks := Mutexes String LockRequest

def HasLock (m : Locks) (b : Nat) (path : String) : Prop :=
  ∃ (i : Nat) (ticket : Request), m.tickets[i]? = some ticket ∧ ticket.tag = { batch := b, path := path } ∧
    ticket.granted = true ∧ ticket.released = false

/-- Of two requests of one path the later was filed under the standing key of the earlier. -/
def SamePath (m : Locks) : Prop :=
  ∀ (i j : Nat) (earlier later : Request), m.tickets[i]? = some earlier → m.tickets[j]? = some later →
    i < j → earlier.tag.path = later.tag.path → earlier.released = false →
      earlier.key = later.key

theorem HasLock.unique (hsound : Sound m) (hpath : SamePath m) {b' : Nat} {path : String}
    (h : HasLock m b path) (h' : HasLock m b' path) : b = b' := by
  obtain ⟨i, ticket, ht, htag, hgranted, hheld⟩ := h
  obtain ⟨j, ticket', ht', htag', hgranted', hheld'⟩ := h'
  have hpaths : ticket.tag.path = ticket'.tag.path := by
    rw [htag, htag']
  have hsame : i = j := by
    rcases Nat.lt_trichotomy i j with hlt | heq | hlt
    · have hkey := hpath i j ticket ticket' ht ht' hlt hpaths hheld
      exact hsound.exclusive ht ht' hkey hgranted hgranted' hheld hheld'
    · exact heq
    · have hkey := hpath j i ticket' ticket ht' ht hlt hpaths.symm hheld'
      exact hsound.exclusive ht ht' hkey.symm hgranted hgranted' hheld hheld'
  subst hsame
  have hticket : ticket = ticket' := Option.mem_unique ht ht'
  subst hticket
  exact congrArg LockRequest.batch (htag.symm.trans htag')

def Keeps (b : Nat) (m m' : Locks) : Prop :=
  ∀ (i : Nat) (ticket : Request), m.tickets[i]? = some ticket → ∃ ticket', m'.tickets[i]? = some ticket' ∧
    ticket'.tag = ticket.tag ∧ (ticket.granted → ticket'.granted) ∧
      (ticket.tag.batch = b → ticket'.released = ticket.released)

theorem Keeps.refl (b : Nat) (m : Locks) : Keeps b m m :=
  fun _ ticket h => ⟨ticket, h, rfl, id, fun _ => rfl⟩

theorem Keeps.request (b : Nat) (m : Locks) (key : String) (tag : LockRequest) :
    Keeps b m (m.request key tag) :=
  fun _ ticket h => ⟨ticket, getElem?_request_old h, rfl, id, fun _ => rfl⟩

theorem Keeps.update {c : Nat → Request → Bool} {f : Request → Request} (hf : ∀ t, Advances t (f t))
    (hreleased : ∀ i ticket, c i ticket → ticket.tag.batch = b →
      (f ticket).released = ticket.released) : Keeps b m (m.update c f) := by
  intro i ticket h
  refine ⟨_, getElem?_update.2 ⟨ticket, h, rfl⟩, (update_advances hf i ticket).tag,
    (update_advances hf i ticket).granted, ?_⟩
  intro hb
  by_cases hc : c i ticket
  · rw [if_pos hc]
    exact hreleased i ticket hc hb
  · rw [if_neg hc]

theorem Keeps.hasLock {m' : Locks} (hkeeps : Keeps b m m') {path : String} (h : HasLock m b path) :
    HasLock m' b path := by
  obtain ⟨i, ticket, ht, htag, hgranted, hheld⟩ := h
  obtain ⟨ticket', ht', htag', hgranted', hreleased⟩ := hkeeps i ticket ht
  have hbatch : ticket.tag.batch = b := congrArg LockRequest.batch htag
  exact ⟨i, ticket', ht', htag'.trans htag, hgranted' hgranted, (hreleased hbatch).trans hheld⟩

theorem SamePath.update (h : SamePath m) {c : Nat → Request → Bool} {f : Request → Request}
    (hf : ∀ t, Advances t (f t)) : SamePath (m.update c f) := by
  intro i j earlier later hi hj hlt hpath hheld
  obtain ⟨v, hv, rfl⟩ := getElem?_update.1 hi
  obtain ⟨w, hw, rfl⟩ := getElem?_update.1 hj
  have hadv := update_advances (c := c) hf i v
  have hadv' := update_advances (c := c) hf j w
  have hheld' : v.released = false := by
    cases hr : v.released with
    | false => rfl
    | true =>
      rw [hadv.released hr] at hheld
      cases hheld
  rw [hadv.tag, hadv'.tag] at hpath
  rw [hadv.key, hadv'.key]
  exact h i j v w hv hw hlt hpath hheld'

def FiledUnder (m : Locks) (path key : String) : Prop :=
  ∀ ticket ∈ m.tickets, ticket.tag.path = path → ticket.released = false → ticket.key = key

theorem SamePath.request (h : SamePath m) {key : String} {tag : LockRequest}
    (hfiled : FiledUnder m tag.path key) : SamePath (m.request key tag) := by
  intro i j earlier later hi hj hlt hpath hheld
  rcases getElem?_request hj with ⟨hjlt, hjold⟩ | ⟨rfl, rfl⟩
  · rcases getElem?_request hi with ⟨-, hiold⟩ | ⟨rfl, -⟩
    · exact h i j earlier later hiold hjold hlt hpath hheld
    · exact absurd hjlt (Nat.not_lt.2 (Nat.le_of_lt hlt))
  · rcases getElem?_request hi with ⟨-, hiold⟩ | ⟨rfl, -⟩
    · exact hfiled earlier (mem_of_getElem? hiold) hpath hheld
    · exact absurd hlt (Nat.lt_irrefl _)

end Locks

section Coverage
variable {fs : FileSystem} {m : Locks} {b : Nat} {files : List FileEdit}

theorem unique_of_no_duplicates {key : String → String} {seen paths : List String}
    (h : duplicates key seen paths = []) : unique key seen paths = paths := by
  induction paths generalizing seen with
  | nil => rfl
  | cons path paths ih =>
    unfold duplicates at h
    unfold unique
    split at h
    · cases h
    · next hnew =>
      rw [if_neg hnew, ih h]

theorem mem_acquirePathLocks {paths : List String}
    (h : duplicates (normalizeLockKey host fs) [] paths = []) {path : String}
    (hpath : path ∈ paths) : path ∈ acquirePathLocks host fs paths := by
  unfold acquirePathLocks
  rw [Graph.mem_sortBy, unique_of_no_duplicates h]
  exact hpath

def Stage.paths : Stage → List String
  | .reading todo results => todo.map FileEdit.filePath ++ results.map fun r => r.file.filePath
  | .checking todo _ results =>
    (todo.map fun r => r.file.filePath) ++ results.map fun r => r.file.filePath
  | .resolving todo staged =>
    (todo.map fun r => r.file.filePath) ++ staged.map StagedWrite.filePath
  | .writing todo => todo.map StagedWrite.filePath
  | .finished => []

def Covered (m : Locks) (b : Nat) (batch : Batch) : Prop :=
  match batch.phase with
  | .acquiring rest =>
    ∀ file ∈ batch.files, file.filePath ∈ rest ∨ HasLock m b file.filePath
  | .waiting i rest =>
    ∃ ticket, m.tickets[i]? = some ticket ∧ ticket.tag.batch = b ∧ ticket.released = false ∧
      ∀ file ∈ batch.files,
        file.filePath = ticket.tag.path ∨ file.filePath ∈ rest ∨ HasLock m b file.filePath
  | .locked stage =>
    (∀ file ∈ batch.files, HasLock m b file.filePath) ∧
      stage.paths ⊆ batch.files.map FileEdit.filePath
  | .done => True

theorem Covered.keeps {m' : Locks} {batch : Batch} (h : Covered m b batch) (hkeeps : Keeps b m m') :
    Covered m' b batch := by
  unfold Covered at h ⊢
  cases hphase : batch.phase with
  | acquiring rest =>
    simp only [hphase] at h ⊢
    intro file hfile
    exact (h file hfile).imp_right hkeeps.hasLock
  | waiting i rest =>
    simp only [hphase] at h ⊢
    obtain ⟨ticket, ht, hb, hheld, hfiles⟩ := h
    obtain ⟨ticket', ht', htag, -, hreleased⟩ := hkeeps i ticket ht
    refine ⟨ticket', ht', (congrArg LockRequest.batch htag).trans hb,
      (hreleased hb).trans hheld, ?_⟩
    intro file hfile
    rw [htag]
    exact (hfiles file hfile).imp_right fun h => h.imp_right hkeeps.hasLock
  | locked stage =>
    simp only [hphase] at h ⊢
    exact ⟨fun file hfile => hkeeps.hasLock (h.1 file hfile), h.2⟩
  | done => trivial

theorem acquired_covered {rest : List String}
    (h : ∀ file ∈ files, file.filePath ∈ rest ∨ HasLock m b file.filePath) :
    Covered m b { files := files, phase := acquired files rest } := by
  unfold acquired
  cases rest with
  | nil =>
    refine ⟨fun file hfile => (h file hfile).resolve_left not_mem_nil, ?_⟩
    intro path hpath
    rcases mem_append.1 hpath with hfile | hnone
    · exact hfile
    · exact absurd hnone not_mem_nil
  | cons path rest => exact h

theorem execute_covered : Covered m b (execute host fs files) := by
  unfold execute
  dsimp only
  split
  · next hnone =>
    have hno := List.isEmpty_iff.1 hnone
    refine acquired_covered fun file hfile => .inl ?_
    exact mem_acquirePathLocks hno (mem_map_of_mem hfile)
  · trivial

theorem Covered.locked {stage stage' : Stage}
    (h : Covered m b { files := files, phase := .locked stage })
    (hpaths : stage'.paths ⊆ stage.paths) :
    Covered m b { files := files, phase := .locked stage' } :=
  ⟨h.1, Subset.trans hpaths h.2⟩

theorem processSingleFile_file {file : FileEdit} :
    (processSingleFile host fs file).file = file := by
  unfold processSingleFile
  split <;> rfl

theorem afterRead_paths {file : FileEdit} {todo : List FileEdit} {results : List ProcessedFile} :
    (afterRead host fs file todo results).paths ⊆ (Stage.reading (file :: todo) results).paths := by
  have hresults : ∀ path ∈ ((results ++ [processSingleFile host fs file]).map
      fun r => r.file.filePath), path ∈ (Stage.reading (file :: todo) results).paths := by
    intro path hpath
    rw [map_append, mem_append, map_singleton, processSingleFile_file, mem_singleton] at hpath
    rcases hpath with hold | rfl
    · exact mem_append_right _ hold
    · exact .head _
  unfold afterRead
  dsimp only
  split
  · split
    · intro path hpath
      rcases mem_append.1 hpath with h | h
      · exact hresults path h
      · exact hresults path h
    · exact nil_subset _
  · intro path hpath
    rcases mem_append.1 hpath with h | h
    · exact mem_append_left _ (.tail _ h)
    · exact hresults path h

theorem afterCheck_paths {result : ProcessedFile} {todo : List ProcessedFile} {conflicts : Bool}
    {results : List ProcessedFile} :
    (afterCheck host fs result todo conflicts results).paths ⊆
      (Stage.checking (result :: todo) conflicts results).paths := by
  unfold afterCheck
  dsimp only
  split
  · split
    · exact nil_subset _
    · intro path hpath
      rw [Stage.paths, map_nil, append_nil] at hpath
      exact mem_append_right _ hpath
  · intro path hpath
    rcases mem_append.1 hpath with h | h
    · exact mem_append_left _ (.tail _ h)
    · exact mem_append_right _ h

theorem afterResolve_paths {result : ProcessedFile} {todo : List ProcessedFile}
    {staged : List StagedWrite} :
    (afterResolve fs result todo staged).paths ⊆
      (Stage.resolving (result :: todo) staged).paths := by
  have hstaged : ∀ path ∈ (staged ++ [stageWrite fs result]).map StagedWrite.filePath,
      path ∈ (Stage.resolving (result :: todo) staged).paths := by
    intro path hpath
    rw [map_append, mem_append, map_singleton, mem_singleton] at hpath
    rcases hpath with hold | rfl
    · exact mem_append_right _ hold
    · exact .head _
  unfold afterResolve
  dsimp only
  split
  · exact hstaged
  intro path hpath
  rcases mem_append.1 hpath with h | h
  · exact mem_append_left _ (.tail _ h)
  · exact hstaged path h

theorem afterWrite_paths {write : StagedWrite} {todo : List StagedWrite} :
    (afterWrite todo).paths ⊆ (Stage.writing (write :: todo)).paths := by
  unfold afterWrite
  split
  · exact nil_subset _
  · exact subset_cons_self _ _

end Coverage

section Steps
variable {b : Nat} {m : Locks}

structure Serial (s : Editor) : Prop where
  sound : Sound s.locks
  samePath : SamePath s.locks
  covered : ∀ (b : Nat) batch, s.batches[b]? = some batch → Covered s.locks b batch

theorem serial_opened (fs : FileSystem) : Serial (opened fs) where
  sound := sound_empty
  samePath i j earlier later hi := by simp [opened, Mutexes.empty] at hi
  covered b batch hb := by simp [opened] at hb

/-- A request of a path finds the requests of the path that stand filed under its key. -/
def KeyStable (host : Host) (s : Editor) : Event → Prop
  | .request _ path => FiledUnder s.locks path (normalizeLockKey host s.fs path)
  | _ => True

theorem getElem?_set_cases {l : List Batch} {b' : Nat} {new batch : Batch}
    (h : (l.set b new)[b']? = some batch) :
    (b' = b ∧ batch = new) ∨ (b' ≠ b ∧ l[b']? = some batch) := by
  by_cases hb : b' = b
  · subst hb
    have hlt : b' < l.length := by
      have hbound := (List.getElem?_eq_some_iff.1 h).1
      rwa [length_set] at hbound
    rw [getElem?_set_self hlt] at h
    exact .inl ⟨rfl, (Option.some.inj h).symm⟩
  · rw [getElem?_set_ne (Ne.symm hb)] at h
    exact .inr ⟨hb, h⟩

theorem covered_set {m' : Locks} {batches : List Batch} {new : Batch}
    (h : ∀ (b : Nat) batch, batches[b]? = some batch → Covered m b batch) (hnew : Covered m' b new)
    (hkeeps : ∀ b', b' ≠ b → Keeps b' m m') :
    ∀ (b' : Nat) batch, (batches.set b new)[b']? = some batch → Covered m' b' batch := by
  intro b' batch hb'
  rcases getElem?_set_cases hb' with ⟨rfl, rfl⟩ | ⟨hne, hold⟩
  · exact hnew
  · exact (h b' batch hold).keeps (hkeeps b' hne)

theorem keeps_grant (b : Nat) (m : Locks) (i : Nat) : Keeps b m (m.grant i) :=
  Keeps.update (fun _ => ⟨rfl, rfl, rfl, fun _ => rfl, id, id⟩) fun _ _ _ _ => rfl

theorem keeps_settle (b : Nat) (m : Locks) (i : Nat) : Keeps b m (m.settle i) :=
  Keeps.update (fun _ => ⟨rfl, rfl, rfl, id, id, fun _ => rfl⟩) fun _ _ _ _ => rfl

theorem keeps_release {b' : Nat} (hne : b' ≠ b) (m : Locks) :
    Keeps b' m (m.release fun tag => tag.batch = b) := by
  refine Keeps.update (fun _ => ⟨rfl, rfl, rfl, id, fun _ => rfl, id⟩) ?_
  intro i ticket hc hb'
  exact absurd (hb'.symm.trans (of_decide_eq_true hc)) hne

theorem granted_covered {i : Nat} {files : List FileEdit} {rest : List String}
    (h : Covered m b { files := files, phase := .waiting i rest }) :
    Covered (m.grant i) b { files := files, phase := acquired files rest } := by
  obtain ⟨ticket, ht, hb, hheld, hfiles⟩ := h
  refine acquired_covered fun file hfile => ?_
  rcases hfiles file hfile with hpath | hrest | hlock
  · refine .inr ⟨i, _, getElem?_update.2 ⟨ticket, ht, rfl⟩, ?_⟩
    rw [if_pos (decide_eq_true rfl)]
    refine ⟨?_, rfl, hheld⟩
    rw [← hb, hpath]
  · exact .inl hrest
  · exact .inr ((keeps_grant b m i).hasLock hlock)

theorem requested_covered {files : List FileEdit} {path key : String} {rest : List String}
    (h : Covered m b { files := files, phase := .acquiring (path :: rest) }) :
    Covered (m.request key { batch := b, path := path }) b
      { files := files, phase := .waiting m.tickets.length rest } := by
  refine ⟨_, getElem?_concat_length, rfl, rfl, fun file hfile => ?_⟩
  rcases h file hfile with hmem | hlock
  · rcases mem_cons.1 hmem with heq | hrest
    · exact .inl heq
    · exact .inr (.inl hrest)
  · exact .inr (.inr ((Keeps.request b m key _).hasLock hlock))

theorem Serial.step (hs : Serial s) (h : Step host s event t) (hkey : KeyStable host s event) :
    Serial t := by
  cases h with
  | start files =>
    refine ⟨hs.sound, hs.samePath, fun b batch hb => ?_⟩
    rcases getElem?_snoc hb with ⟨-, hold⟩ | ⟨-, rfl⟩
    · exact hs.covered b batch hold
    · exact execute_covered
  | @request b files path rest hbatch =>
    refine ⟨hs.sound.request _ _, hs.samePath.request hkey, ?_⟩
    exact covered_set hs.covered (requested_covered (hs.covered b _ hbatch))
      fun b' _ => Keeps.request b' _ _ _
  | @grant b i files rest ticket hbatch ht hpassed =>
    refine ⟨hs.sound.grant fun w hw => ?_, hs.samePath.update ?_, ?_⟩
    · rw [← (Option.mem_unique ht hw)]
      exact hpassed
    · exact fun _ => ⟨rfl, rfl, rfl, fun _ => rfl, id, id⟩
    · exact covered_set hs.covered (granted_covered (hs.covered b _ hbatch))
        fun b' _ => keeps_grant b' _ i
  | @read b files file todo results hbatch =>
    refine ⟨hs.sound, hs.samePath, ?_⟩
    exact covered_set hs.covered ((hs.covered b _ hbatch).locked afterRead_paths)
      fun b' _ => Keeps.refl b' _
  | @check b files result todo conflicts results hbatch =>
    refine ⟨hs.sound, hs.samePath, ?_⟩
    exact covered_set hs.covered ((hs.covered b _ hbatch).locked afterCheck_paths)
      fun b' _ => Keeps.refl b' _
  | @resolve b files result todo staged hbatch =>
    refine ⟨hs.sound, hs.samePath, ?_⟩
    exact covered_set hs.covered ((hs.covered b _ hbatch).locked afterResolve_paths)
      fun b' _ => Keeps.refl b' _
  | @write b files write todo fresh hbatch hfresh =>
    refine ⟨hs.sound, hs.samePath, ?_⟩
    exact covered_set hs.covered ((hs.covered b _ hbatch).locked afterWrite_paths)
      fun b' _ => Keeps.refl b' _
  | @release b files stage hbatch =>
    refine ⟨hs.sound.release fun tag => tag.batch = b, hs.samePath.update ?_, ?_⟩
    · exact fun _ => ⟨rfl, rfl, rfl, id, fun _ => rfl, id⟩
    · exact covered_set hs.covered trivial fun b' hne => keeps_release hne _
  | @settle i ticket ht hreleased hpassed =>
    refine ⟨hs.sound.settle fun w hw => ?_, hs.samePath.update ?_, fun b batch hb => ?_⟩
    · rw [← (Option.mem_unique ht hw)]
      exact ⟨hreleased, hpassed⟩
    · exact fun _ => ⟨rfl, rfl, rfl, id, id, fun _ => rfl⟩
    · exact (hs.covered b batch hb).keeps (keeps_settle b _ i)
  | @forget key i ticket htail ht hsettled =>
    refine ⟨hs.sound.forget htail fun w hw => ?_, hs.samePath, fun b batch hb => ?_⟩
    · rw [← (Option.mem_unique ht hw)]
      exact hsettled
    · exact (hs.covered b batch hb).keeps (Keeps.refl b _)
  | external fs => exact ⟨hs.sound, hs.samePath, hs.covered⟩

end Steps

section Sections
variable {b : Nat} {path : String} {files : List FileEdit}

/-- The batch names the path and is between the return of its locks and their release. -/
def Inside (s : Editor) (b : Nat) (path : String) : Prop :=
  ∃ files stage, s.batches[b]? = some { files := files, phase := .locked stage } ∧
    path ∈ files.map FileEdit.filePath

theorem Serial.inside_unique (hs : Serial s) {b' : Nat} (h : Inside s b path)
    (h' : Inside s b' path) : b = b' := by
  obtain ⟨files, stage, hb, hpath⟩ := h
  obtain ⟨files', stage', hb', hpath'⟩ := h'
  obtain ⟨file, hfile, rfl⟩ := mem_map.1 hpath
  obtain ⟨file', hfile', hsame⟩ := mem_map.1 hpath'
  have hlock : HasLock s.locks b file.filePath := (hs.covered b _ hb).1 file hfile
  have hlock' : HasLock s.locks b' file'.filePath := (hs.covered b' _ hb').1 file' hfile'
  rw [hsame] at hlock'
  exact hlock.unique hs.sound hs.samePath hlock'

theorem inside_of_stage (hs : Serial s) {stage : Stage}
    (hb : s.batches[b]? = some { files := files, phase := .locked stage })
    (hpath : path ∈ stage.paths) : Inside s b path :=
  ⟨files, stage, hb, (hs.covered b _ hb).2 hpath⟩

theorem read_inside (hs : Serial s) (h : Step host s (.read b path) t) : Inside s b path := by
  cases h with
  | read hbatch => exact inside_of_stage hs hbatch (.head _)

theorem write_inside (hs : Serial s) {fresh : FileId} (h : Step host s (.write b path fresh) t) :
    Inside s b path := by
  cases h with
  | write hbatch => exact inside_of_stage hs hbatch (.head _)

def Entered (s : Editor) (b : Nat) (path : String) : Prop :=
  Inside s b path ∨ ∃ files, s.batches[b]? = some { files := files, phase := .done }

theorem set_eq_some {l : List Batch} {old new : Batch} (h : l[b]? = some old) :
    (l.set b new)[b]? = some new :=
  getElem?_set_self (List.getElem?_eq_some_iff.1 h).1

theorem set_phase {l : List Batch} {b' : Nat} {files' : List FileEdit} {phase phase' new : Phase}
    (h : l[b]? = some { files := files, phase := phase })
    (h' : l[b']? = some { files := files', phase := phase' }) :
    (b' = b ∧ files' = files ∧ phase' = phase ∧
      (l.set b { files := files, phase := new })[b']? =
        some { files := files', phase := new }) ∨
    (l.set b { files := files, phase := new })[b']? =
      some { files := files', phase := phase' } := by
  by_cases hb : b' = b
  · subst hb
    have hsame := Option.mem_unique h' h
    obtain ⟨rfl, rfl⟩ := Batch.mk.inj hsame
    exact .inl ⟨rfl, rfl, rfl, set_eq_some h⟩
  · rw [getElem?_set_ne (Ne.symm hb)]
    exact .inr h'

theorem Step.phase_of_locked (h : Step host s event t) {stage : Stage}
    (hb : s.batches[b]? = some { files := files, phase := .locked stage }) :
    (∃ stage', t.batches[b]? = some { files := files, phase := .locked stage' }) ∨
      t.batches[b]? = some { files := files, phase := .done } := by
  cases h with
  | start => exact .inl ⟨stage, (getElem?_append_left
      (List.getElem?_eq_some_iff.1 hb).1).trans hb⟩
  | request hbatch | grant hbatch =>
    rcases set_phase hbatch hb with ⟨-, -, hphase, -⟩ | hsame
    · cases hphase
    · exact .inl ⟨stage, hsame⟩
  | read hbatch | check hbatch | resolve hbatch | write hbatch =>
    rcases set_phase hbatch hb with ⟨-, -, -, hnew⟩ | hsame
    · exact .inl ⟨_, hnew⟩
    · exact .inl ⟨stage, hsame⟩
  | release hbatch =>
    rcases set_phase hbatch hb with ⟨-, -, -, hnew⟩ | hsame
    · exact .inr hnew
    · exact .inl ⟨stage, hsame⟩
  | settle | forget | external => exact .inl ⟨stage, hb⟩

theorem Step.phase_of_done (h : Step host s event t)
    (hb : s.batches[b]? = some { files := files, phase := .done }) :
    t.batches[b]? = some { files := files, phase := .done } := by
  cases h with
  | start => exact (getElem?_append_left (List.getElem?_eq_some_iff.1 hb).1).trans hb
  | request hbatch | grant hbatch | read hbatch | check hbatch | resolve hbatch | write hbatch
  | release hbatch =>
    rcases set_phase hbatch hb with ⟨-, -, hphase, -⟩ | hsame
    · cases hphase
    · exact hsame
  | settle | forget | external => exact hb

theorem Step.entered (h : Step host s event t) (hb : Entered s b path) : Entered t b path := by
  rcases hb with ⟨files, stage, hlocked, hpath⟩ | ⟨files, hdone⟩
  · rcases h.phase_of_locked hlocked with ⟨stage', hnext⟩ | hnext
    · exact .inl ⟨files, stage', hnext, hpath⟩
    · exact .inr ⟨files, hnext⟩
  · exact .inr ⟨files, h.phase_of_done hdone⟩

def StableStep (host : Host) (s : Editor) (event : Event) (t : Editor) : Prop :=
  Step host s event t ∧ KeyStable host s event

variable {trace : List Event}

section

variable (hrun : Run (StableStep host) s trace t)
include hrun

theorem run_serial (hs : Serial s) : Serial t :=
  hrun.invariant (fun _ _ _ hs h => hs.step h.1 h.2) hs

theorem run_entered (h : Entered s b path) : Entered t b path :=
  hrun.invariant (I := fun s => Entered s b path) (fun _ _ _ h hst => hst.1.entered h) h

theorem run_done (h : s.batches[b]? = some { files := files, phase := .done }) :
    t.batches[b]? = some { files := files, phase := .done } :=
  hrun.invariant (I := fun s => s.batches[b]? = some { files := files, phase := .done })
    (fun _ _ _ h hst => hst.1.phase_of_done h) h

theorem inside_between {path' : String}
    (h : Entered s b path) (h' : Inside t b path') : Inside s b path := by
  refine h.resolve_right ?_
  rintro ⟨files, hdone⟩
  obtain ⟨files', stage, hlocked, -⟩ := h'
  have hboth := hlocked.symm.trans (run_done hrun hdone)
  cases Batch.mk.inj (Option.some.inj hboth) |>.2

end

end Sections

/-- While a path keeps its key, no two batches are in its section and none writes in between. -/
theorem editsSerialized (host : Host) (fs : FileSystem) {trace : List Event} {s : Editor}
    (hrun : Run (StableStep host) (opened fs) trace s) :
    (∀ b b' path, Inside s b path → Inside s b' path → b = b') ∧
    ∀ before between after b b' path fresh fresh',
      trace = before ++ .read b path :: (between ++ .write b path fresh :: after) →
      .write b' path fresh' ∈ between → b' = b := by
  have hopened := serial_opened fs
  refine ⟨fun b b' path => (run_serial hrun hopened).inside_unique, ?_⟩
  intro before between after b b' path fresh fresh' htrace hwrite
  obtain ⟨first, second, rfl⟩ := append_of_mem hwrite
  rw [htrace] at hrun
  obtain ⟨s₁, hrun₁, hrest⟩ := hrun.split
  cases hrest with
  | cons hread hrest =>
    have hs₁ := run_serial hrun₁ hopened
    have hs₂ := hs₁.step hread.1 hread.2
    have hentered : Entered _ b path := hread.1.entered (.inl (read_inside hs₁ hread.1))
    rw [append_assoc] at hrest
    obtain ⟨s₃, hrun₃, hrest⟩ := hrest.split
    have hs₃ := run_serial hrun₃ hs₂
    have hentered₃ : Entered s₃ b path := run_entered hrun₃ hentered
    -- from the other batch's write the run goes on to this one's write
    obtain ⟨s₄, hrun₄, hlast⟩ := hrest.split
    have hs₄ := run_serial hrun₄ hs₃
    cases hlast with
    | cons hown _ =>
      have hinside : Inside s₃ b path := inside_between hrun₄ hentered₃ (write_inside hs₄ hown.1)
      cases hrun₄ with
      | cons hother _ => exact hs₃.inside_unique (write_inside hs₃ hother.1) hinside

def plainHost : Host := { resolve := id, caseInsensitive := false, computeVersion := id }

def oneFile : FileSystem :=
  { entries := [("/w/f", { dev := 1, ino := 1 })], symlinks := [], contents := fun _ => "a" }

def firstEdit : FileEdit := { filePath := "/w/f", version := "a", edited := fun _ => some "b" }

def nextEdit : FileEdit := { filePath := "/w/f", version := "b", edited := fun _ => some "c" }

def firstResult : ProcessedFile := { file := firstEdit, existed := true, content := some "b" }

def firstWrite : StagedWrite :=
  { filePath := "/w/f", content := "b", target := "/w/f", inPlace := false }

def queuedTrace : List Event :=
  [.start 0 [firstEdit], .request 0 "/w/f", .grant 0, .start 1 [nextEdit], .request 1 "/w/f",
    .read 0 "/w/f", .check 0 "/w/f", .resolve 0 "/w/f", .write 0 "/w/f" { dev := 1, ino := 2 },
    .release 0, .settle 0, .grant 1]

theorem queuedRun : ∃ s, Run (StableStep plainHost) (opened oneFile) queuedTrace s ∧
    Inside s 1 "/w/f" := by
  refine ⟨_, .cons ⟨.start [firstEdit], trivial⟩ (.cons ⟨.request rfl, ?_⟩
    (.cons ⟨.grant rfl rfl rfl, trivial⟩ (.cons ⟨.start [nextEdit], trivial⟩
    (.cons ⟨.request rfl, ?_⟩ (.cons ⟨@Step.read _ _ _ _ firstEdit _ _ rfl, trivial⟩
    (.cons ⟨@Step.check _ _ _ _ firstResult _ _ _ rfl, trivial⟩
    (.cons ⟨@Step.resolve _ _ _ _ firstResult _ _ rfl, trivial⟩
    (.cons ⟨@Step.write _ _ _ _ firstWrite _ _ rfl ?_, trivial⟩
    (.cons ⟨.release rfl, trivial⟩ (.cons ⟨.settle rfl rfl rfl, trivial⟩
    (.cons ⟨.grant rfl rfl ?_, trivial⟩ (.nil _)))))))))))), ?_⟩
  · intro ticket hticket
    cases hticket
  · intro ticket hticket _ _
    rw [mem_singleton.1 hticket]
    rfl
  · decide +kernel
  · decide +kernel
  · exact ⟨_, _, rfl, mem_singleton_self _⟩

theorem editsSerialized_queued : ∃ s, Run (StableStep plainHost) (opened oneFile) queuedTrace s ∧
    Inside s 1 "/w/f" ∧ ∀ b, Inside s b "/w/f" → b = 1 := by
  obtain ⟨s, hrun, hinside⟩ := queuedRun
  refine ⟨s, hrun, hinside, fun b hb => ?_⟩
  exact (editsSerialized plainHost oneFile hrun).1 b 1 "/w/f" hb hinside

def overlapTrace : List Event :=
  [.start 0 [firstEdit], .request 0 "/w/f", .grant 0, .read 0 "/w/f", .check 0 "/w/f",
    .resolve 0 "/w/f", .write 0 "/w/f" { dev := 1, ino := 2 }, .start 1 [nextEdit],
    .request 1 "/w/f", .grant 1]

theorem overlapRun : ∃ s, Run (Step plainHost) (opened oneFile) overlapTrace s ∧
    Inside s 0 "/w/f" ∧ Inside s 1 "/w/f" := by
  refine ⟨_, .cons (.start [firstEdit]) (.cons (.request rfl) (.cons (.grant rfl rfl rfl)
    (.cons (@Step.read _ _ _ _ firstEdit _ _ rfl)
    (.cons (@Step.check _ _ _ _ firstResult _ _ _ rfl)
    (.cons (@Step.resolve _ _ _ _ firstResult _ _ rfl)
    (.cons (@Step.write _ _ _ _ firstWrite _ _ rfl ?_) (.cons (.start [nextEdit])
    (.cons (.request rfl) (.cons (.grant rfl rfl ?_) (.nil _)))))))))), ?_, ?_⟩
  · decide +kernel
  · decide +kernel
  · exact ⟨_, _, rfl, mem_singleton_self _⟩
  · exact ⟨_, _, rfl, mem_singleton_self _⟩

/-- A rename gives the path a new key, under which a newcomer enters while the old holds. -/
theorem renamed_overlaps :
    ¬ ∀ (host : Host) (fs : FileSystem) (trace : List Event) (s : Editor),
      Run (Step host) (opened fs) trace s → (∀ other, .external other ∉ trace) →
        ∀ b b' path, Inside s b path → Inside s b' path → b = b' := by
  intro hclaim
  obtain ⟨s, hrun, hfirst, hnext⟩ := overlapRun
  have hbatches : ∀ other, Event.external other ∉ overlapTrace := by
    intro other hother
    simp [overlapTrace] at hother
  cases hclaim plainHost oneFile overlapTrace s hrun hbatches 0 1 "/w/f" hfirst hnext

end Rolebox.Hashline
