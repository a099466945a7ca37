import Mathlib.Data.Rat.Floor
import Rolebox.Log.Files

/-! Pruning a log directory: the retention and age gates, and the byte budget over what they leave. -/

namespace Rolebox.Log
open List

structure PruneLogsOptions where
  source : LogSource := .dir
  olderThanMs : Option Rat := none
  keepRotated : Option Rat := none
  dryRun : Bool := false
  maxTotalBytes : Option Rat := none

structure PruneRemoval where
  path : String
  sizeBytes : Nat

structure PruneBudgetReport where
  maxTotalBytes : Nat
  removed : Nat
  remainingBytes : Int
  satisfied : Bool

structure PruneLogsResult where
  removed : List PruneRemoval
  freedBytes : Nat
  kept : Int
  budget : Option PruneBudgetReport

def DEFAULT_RETAIN : Nat := 3

def resolveKeepRotated (explicit : Option Rat) (environment : Option Int) : Nat :=
  match explicit.filter (0 ≤ ·) with
  | some count => count.floor.toNat
  | none =>
    match environment.filter (0 ≤ ·) with
    | some count => count.toNat
    | none => DEFAULT_RETAIN

/-- The modification time up to which a copy counts as old enough. -/
def PruneLogsOptions.cutoff (options : PruneLogsOptions) (now : Rat) : Option Rat :=
  (options.olderThanMs.filter (0 ≤ ·)).map (now - ·)

def PruneLogsOptions.byteBudget (options : PruneLogsOptions) : Option Nat :=
  (options.maxTotalBytes.filter (0 ≤ ·)).map (·.floor.toNat)

def LogFileInfo.removal (file : LogFileInfo) : PruneRemoval := ⟨file.path, file.sizeBytes⟩

def LogFileInfo.rotated (file : LogFileInfo) : Bool := 1 ≤ file.rotation

def oldEnough (cutoff : Option Rat) (file : LogFileInfo) : Bool :=
  match cutoff with
  | none => true
  | some cutoff => file.mtimeMs ≤ cutoff

def newestFirst (collation : Collation) : LogFileInfo → LogFileInfo → Ordering :=
  compareLex (compareOn LogFileInfo.rotation) collation.comparePaths

def oldestFirst (collation : Collation) : LogFileInfo → LogFileInfo → Ordering :=
  compareLex (compareOn LogFileInfo.mtimeMs)
    (compareLex (fun left right => compareOn LogFileInfo.rotation right left)
      collation.comparePaths)

def channelCopies (collation : Collation) (files : List LogFileInfo) (channel : String) :
    List LogFileInfo :=
  sortBy (newestFirst collation)
    ((files.filter LogFileInfo.rotated).filter fun file => file.channel = channel)

def byChannel (collation : Collation) (files : List LogFileInfo) : List (List LogFileInfo) :=
  (((files.filter LogFileInfo.rotated).map LogFileInfo.channel).eraseDups).map
    (channelCopies collation files)

def removeLogFile (fails : String → Bool) (disk : LogDirectory) (path : String) :
    Option LogDirectory :=
  if fails path then none else some (disk.rmSync path)

def attemptRemoval (dryRun : Bool) (fails : String → Bool) (disk : LogDirectory) (path : String) :
    Option LogDirectory :=
  if dryRun then some disk else removeLogFile fails disk path

structure GatePass where
  removed : List PruneRemoval
  freedBytes : Nat
  kept : Int
  remainingFiles : List LogFileInfo
  budgetCandidates : List LogFileInfo
  disk : LogDirectory

/-- One copy at its place in its channel: removed when it is beyond the window and old enough. -/
def gateCopy (keep : Nat) (cutoff : Option Rat) (dryRun : Bool) (fails : String → Bool)
    (p : GatePass) (copy : LogFileInfo × Nat) : GatePass :=
  let beyondRetention := keep ≤ copy.2
  if ¬ beyondRetention ∨ ¬ oldEnough cutoff copy.1 then
    { p with
      kept := p.kept + 1
      remainingFiles := p.remainingFiles ++ [copy.1]
      budgetCandidates := if oldEnough cutoff copy.1 then p.budgetCandidates ++ [copy.1]
        else p.budgetCandidates }
  else match attemptRemoval dryRun fails p.disk copy.1.path with
    | none =>
      { p with
        kept := p.kept + 1
        remainingFiles := p.remainingFiles ++ [copy.1] }
    | some disk =>
      { p with
        removed := p.removed ++ [copy.1.removal]
        freedBytes := p.freedBytes + copy.1.sizeBytes
        disk := disk }

structure BudgetPass where
  removed : List PruneRemoval
  freedBytes : Nat
  kept : Int
  remainingBytes : Int
  budgetRemoved : Nat
  disk : LogDirectory

def removeOldest (maxTotalBytes : Nat) (dryRun : Bool) (fails : String → Bool) :
    List LogFileInfo → BudgetPass → BudgetPass
  | [], p => p
  | file :: rest, p =>
    if p.remainingBytes ≤ maxTotalBytes then p
    else match attemptRemoval dryRun fails p.disk file.path with
      | none => removeOldest maxTotalBytes dryRun fails rest p
      | some disk => removeOldest maxTotalBytes dryRun fails rest
        { removed := p.removed ++ [file.removal]
          freedBytes := p.freedBytes + file.sizeBytes
          kept := p.kept - 1
          remainingBytes := p.remainingBytes - file.sizeBytes
          budgetRemoved := p.budgetRemoved + 1
          disk := disk }

def totalBytes (files : List LogFileInfo) : Nat := (files.map LogFileInfo.sizeBytes).sum

def pruneLogs (collation : Collation) (environment : Option Int) (now : Rat)
    (options : PruneLogsOptions) (fails : String → Bool) (d : LogDirectory) :
    PruneLogsResult × LogDirectory :=
  let keep := resolveKeepRotated options.keepRotated environment
  let files := listLogFiles collation options.source d
  let activeBytes := totalBytes (files.filter fun file => ¬ file.rotated)
  let gates := (byChannel collation files).foldl
    (fun p group => group.zipIdx.foldl
      (gateCopy keep (options.cutoff now) options.dryRun fails) p)
    ⟨[], 0, 0, [], [], d⟩
  match options.byteBudget with
  | none => (⟨gates.removed, gates.freedBytes, gates.kept, none⟩, gates.disk)
  | some maxTotalBytes =>
    let pass := removeOldest maxTotalBytes options.dryRun fails
      (sortBy (oldestFirst collation) gates.budgetCandidates)
      { removed := gates.removed
        freedBytes := gates.freedBytes
        kept := gates.kept
        remainingBytes := activeBytes + totalBytes gates.remainingFiles
        budgetRemoved := 0
        disk := gates.disk }
    (⟨pass.removed, pass.freedBytes, pass.kept, some
      { maxTotalBytes := maxTotalBytes
        removed := pass.budgetRemoved
        remainingBytes := pass.remainingBytes
        satisfied := pass.remainingBytes ≤ maxTotalBytes }⟩, pass.disk)

section PassLaws
variable {keep maxTotalBytes : Nat} {cutoff : Option Rat} {dryRun : Bool} {fails : String → Bool}
  {d : LogDirectory} {collation : Collation}

def goes (dryRun : Bool) (fails : String → Bool) (file : LogFileInfo) : Bool :=
  dryRun || !fails file.path

def diskAfter (dryRun : Bool) (d : LogDirectory) (removed : List LogFileInfo) : LogDirectory :=
  if dryRun then d else d.without (removed.map LogFileInfo.path)

theorem diskAfter_append (removed removed' : List LogFileInfo) :
    diskAfter dryRun (diskAfter dryRun d removed) removed' =
      diskAfter dryRun d (removed ++ removed') := by
  cases dryRun with
  | true => rfl
  | false =>
    unfold diskAfter
    simp only [Bool.false_eq_true, if_false]
    rw [LogDirectory.without_without, map_append]

@[simp] theorem diskAfter_nil : diskAfter dryRun d [] = d := by
  unfold diskAfter
  simp

theorem attemptRemoval_eq (file : LogFileInfo) :
    attemptRemoval dryRun fails d file.path =
      if goes dryRun fails file then some (diskAfter dryRun d [file]) else none := by
  unfold attemptRemoval removeLogFile goes diskAfter
  cases dryRun with
  | true => rfl
  | false =>
    cases fails file.path with
    | true => rfl
    | false => rfl

/-- Whether the gates reject a copy at its place and its removal is taken for done. -/
def gated (keep : Nat) (cutoff : Option Rat) (dryRun : Bool) (fails : String → Bool)
    (copy : LogFileInfo × Nat) : Bool :=
  keep ≤ copy.2 ∧ oldEnough cutoff copy.1 ∧ goes dryRun fails copy.1

def candidate (keep : Nat) (cutoff : Option Rat) (copy : LogFileInfo × Nat) : Bool :=
  ¬ keep ≤ copy.2 ∧ oldEnough cutoff copy.1

theorem gateCopy_gated {p : GatePass} {copy : LogFileInfo × Nat}
    (h : gated keep cutoff dryRun fails copy = true) :
    gateCopy keep cutoff dryRun fails p copy =
      { p with
        removed := p.removed ++ [copy.1.removal]
        freedBytes := p.freedBytes + copy.1.sizeBytes
        disk := diskAfter dryRun p.disk [copy.1] } := by
  obtain ⟨hbeyond, hold, hgoes⟩ := of_decide_eq_true h
  unfold gateCopy
  rw [if_neg (by rw [not_or, not_not, not_not]; exact ⟨hbeyond, hold⟩), attemptRemoval_eq,
    if_pos hgoes]

theorem gateCopy_kept {p : GatePass} {copy : LogFileInfo × Nat}
    (h : gated keep cutoff dryRun fails copy = false) :
    gateCopy keep cutoff dryRun fails p copy =
      { p with
        kept := p.kept + 1
        remainingFiles := p.remainingFiles ++ [copy.1]
        budgetCandidates := p.budgetCandidates ++
          (if candidate keep cutoff copy then [copy.1] else []) } := by
  have hgated := of_decide_eq_false h
  unfold gateCopy candidate
  by_cases hbeyond : keep ≤ copy.2
  · by_cases hold : oldEnough cutoff copy.1 = true
    · have hstays : goes dryRun fails copy.1 ≠ true := fun hgoes => hgated ⟨hbeyond, hold, hgoes⟩
      rw [if_neg (by rw [not_or, not_not, not_not]; exact ⟨hbeyond, hold⟩), attemptRemoval_eq,
        if_neg hstays]
      simp [hbeyond]
    · rw [if_pos (.inr hold)]
      simp [hold]
  · rw [if_pos (.inl hbeyond)]
    by_cases hold : oldEnough cutoff copy.1 = true
    · simp [hold, hbeyond]
    · simp [hold]

theorem foldl_gateCopy (copies : List (LogFileInfo × Nat)) (p : GatePass) :
    copies.foldl (gateCopy keep cutoff dryRun fails) p =
      { removed := p.removed ++
          ((copies.filter (gated keep cutoff dryRun fails)).map Prod.fst).map LogFileInfo.removal
        freedBytes := p.freedBytes +
          totalBytes ((copies.filter (gated keep cutoff dryRun fails)).map Prod.fst)
        kept := p.kept + (copies.filter fun copy => ¬ gated keep cutoff dryRun fails copy).length
        remainingFiles := p.remainingFiles ++
          (copies.filter fun copy => ¬ gated keep cutoff dryRun fails copy).map Prod.fst
        budgetCandidates := p.budgetCandidates ++
          (copies.filter (candidate keep cutoff)).map Prod.fst
        disk := diskAfter dryRun p.disk
          ((copies.filter (gated keep cutoff dryRun fails)).map Prod.fst) } := by
  induction copies generalizing p with
  | nil => simp [totalBytes]
  | cons copy copies ih =>
    rw [foldl_cons, ih]
    cases hgated : gated keep cutoff dryRun fails copy with
    | true =>
      have hplace := (of_decide_eq_true hgated).1
      have hnot : candidate keep cutoff copy = false := decide_eq_false fun h => h.1 hplace
      rw [gateCopy_gated hgated]
      simp only [filter_cons, hgated, hnot, map_cons, totalBytes, sum_cons,
        diskAfter_append, append_assoc, singleton_append, Nat.add_assoc, not_true_eq_false,
        decide_false, Bool.false_eq_true, if_true, if_false]
    | false =>
      rw [gateCopy_kept hgated]
      simp only [filter_cons, hgated, map_cons, length_cons, append_assoc,
        singleton_append, Bool.false_eq_true, not_false_eq_true, decide_true, if_true, if_false,
        Nat.cast_add, Nat.cast_one, Int.add_assoc, Int.add_comm 1, apply_ite (List.map Prod.fst)]
      cases candidate keep cutoff copy with
      | true => rfl
      | false => rfl

def taken (maxTotalBytes : Nat) (going : LogFileInfo → Bool) :
    Int → List LogFileInfo → List LogFileInfo
  | _, [] => []
  | remaining, file :: rest =>
    if remaining ≤ maxTotalBytes then []
    else if going file then file :: taken maxTotalBytes going (remaining - file.sizeBytes) rest
    else taken maxTotalBytes going remaining rest

theorem removeOldest_eq (candidates : List LogFileInfo) (p : BudgetPass) :
    removeOldest maxTotalBytes dryRun fails candidates p =
      { removed := p.removed ++
          (taken maxTotalBytes (goes dryRun fails) p.remainingBytes candidates).map
            LogFileInfo.removal
        freedBytes := p.freedBytes +
          totalBytes (taken maxTotalBytes (goes dryRun fails) p.remainingBytes candidates)
        kept := p.kept -
          (taken maxTotalBytes (goes dryRun fails) p.remainingBytes candidates).length
        remainingBytes := p.remainingBytes -
          totalBytes (taken maxTotalBytes (goes dryRun fails) p.remainingBytes candidates)
        budgetRemoved := p.budgetRemoved +
          (taken maxTotalBytes (goes dryRun fails) p.remainingBytes candidates).length
        disk := diskAfter dryRun p.disk
          (taken maxTotalBytes (goes dryRun fails) p.remainingBytes candidates) } := by
  induction candidates generalizing p with
  | nil => simp [removeOldest, taken, totalBytes]
  | cons file rest ih =>
    unfold removeOldest taken
    by_cases hfits : p.remainingBytes ≤ maxTotalBytes
    · simp [if_pos hfits, totalBytes]
    rw [if_neg hfits, if_neg hfits, attemptRemoval_eq]
    by_cases hgoes : goes dryRun fails file = true
    · rw [if_pos hgoes, if_pos hgoes]
      dsimp only
      rw [ih]
      simp only [diskAfter_append, append_assoc, singleton_append, map_cons,
        totalBytes, sum_cons, length_cons, Nat.cast_add, Nat.cast_one, Nat.add_assoc,
        Nat.add_comm 1, Int.sub_sub, Int.add_comm 1]
    · rw [if_neg hgoes, if_neg hgoes]
      exact ih p

section Taken
variable {going : LogFileInfo → Bool} {remaining : Int} {candidates : List LogFileInfo}
variable {file : LogFileInfo}

theorem taken_sublist : (taken maxTotalBytes going remaining candidates).Sublist candidates := by
  induction candidates generalizing remaining with
  | nil => exact .slnil
  | cons file rest ih =>
    unfold taken
    split
    · exact nil_sublist _
    · split
      · exact ih.cons_cons file
      · exact ih.cons file

theorem going_of_mem_taken (h : file ∈ taken maxTotalBytes going remaining candidates) :
    going file = true := by
  induction candidates generalizing remaining with
  | nil => exact nomatch h
  | cons other rest ih =>
    unfold taken at h
    split at h
    · exact nomatch h
    split at h
    · next hgoing =>
      rcases mem_cons.1 h with rfl | hrest
      · exact hgoing
      · exact ih hrest
    · exact ih h

theorem taken_needed {before after : List LogFileInfo}
    (h : taken maxTotalBytes going remaining candidates = before ++ file :: after) :
    (maxTotalBytes : Int) < remaining - totalBytes before := by
  induction candidates generalizing remaining before with
  | nil => exact absurd h.symm (by simp [taken])
  | cons other rest ih =>
    unfold taken at h
    split at h
    · exact absurd h.symm (by simp)
    next hexceeds =>
    split at h
    · cases before with
      | nil =>
        have hempty : totalBytes [] = 0 := rfl
        rw [hempty]
        omega
      | cons first before =>
        obtain ⟨rfl, hrest⟩ := List.cons.inj h
        have hneeded := ih hrest
        have htotal : totalBytes (other :: before) = other.sizeBytes + totalBytes before := by
          simp [totalBytes]
        rw [htotal]
        push_cast
        omega
    · exact ih h

/-- A candidate not taken stands behind every one that was, and what is left fits. -/
theorem of_not_taken (hcandidate : file ∈ candidates) (hgoing : going file = true)
    (hnot : file ∉ taken maxTotalBytes going remaining candidates) :
    remaining - totalBytes (taken maxTotalBytes going remaining candidates) ≤ maxTotalBytes ∧
      ∃ before after, candidates = before ++ after ∧ file ∈ after ∧
        (taken maxTotalBytes going remaining candidates).Sublist before := by
  induction candidates generalizing remaining with
  | nil => exact nomatch hcandidate
  | cons other rest ih =>
    unfold taken at hnot ⊢
    split
    · next hfits =>
      exact ⟨by simpa [totalBytes] using hfits, [], other :: rest, rfl, hcandidate, nil_sublist _⟩
    · next hexceeds =>
      rw [if_neg hexceeds] at hnot
      split
      · next hother =>
        rw [if_pos hother, mem_cons, not_or] at hnot
        have hrest := (mem_cons.1 hcandidate).resolve_left hnot.1
        obtain ⟨hfits, before, after, rfl, hafter, hbefore⟩ := ih hrest hnot.2
        refine ⟨?_, other :: before, after, rfl, hafter, hbefore.cons_cons other⟩
        simp only [totalBytes, map_cons, sum_cons, Nat.cast_add]
        simp only [totalBytes] at hfits
        omega
      · next hother =>
        rw [if_neg hother] at hnot
        have hne : file ≠ other := fun heq => hother (heq ▸ hgoing)
        obtain ⟨hfits, before, after, rfl, hafter, hbefore⟩ :=
          ih ((mem_cons.1 hcandidate).resolve_left hne) hnot
        exact ⟨hfits, other :: before, after, rfl, hafter, hbefore.cons other⟩

end Taken
end PassLaws

section Places
variable {collation : Collation} {files : List LogFileInfo} {keep i : Nat} {file : LogFileInfo}

def placedCopies (collation : Collation) (files : List LogFileInfo) : List (LogFileInfo × Nat) :=
  (byChannel collation files).flatMap fun group => group.zipIdx

def Retained (collation : Collation) (files : List LogFileInfo) (keep : Nat)
    (file : LogFileInfo) : Prop :=
  file ∈ (channelCopies collation files file.channel).take keep

theorem channelCopies_perm (channel : String) :
    (channelCopies collation files channel).Perm
      ((files.filter LogFileInfo.rotated).filter fun file => file.channel = channel) :=
  sortBy_perm _ _

theorem placedCopies_perm :
    ((placedCopies collation files).map Prod.fst).Perm (files.filter LogFileInfo.rotated) := by
  unfold placedCopies byChannel
  rw [map_flatMap, flatMap_map]
  refine Perm.trans ?_
    (General.flatMap_filter_key_perm LogFileInfo.channel (files.filter LogFileInfo.rotated))
  refine Perm.flatMap_left _ fun channel _ => ?_
  rw [zipIdx_map_fst]
  exact channelCopies_perm channel

theorem mem_placedCopies (h : (file, i) ∈ placedCopies collation files) :
    (channelCopies collation files file.channel)[i]? = some file := by
  obtain ⟨group, hgroup, hplace⟩ := mem_flatMap.1 h
  obtain ⟨channel, -, rfl⟩ := mem_map.1 hgroup
  have hi := mk_mem_zipIdx_iff_getElem?.1 hplace
  have hmem := (channelCopies_perm channel).mem_iff.1 (mem_of_getElem? hi)
  have hchannel : file.channel = channel := of_decide_eq_true (mem_filter.1 hmem).2
  rw [hchannel]
  exact hi

theorem exists_place (hfile : file ∈ files) (hrotated : file.rotated = true) :
    ∃ i, (file, i) ∈ placedCopies collation files := by
  have hmem : file ∈ (placedCopies collation files).map Prod.fst :=
    placedCopies_perm.mem_iff.2 (mem_filter.2 ⟨hfile, hrotated⟩)
  obtain ⟨⟨_, i⟩, hplace, rfl⟩ := mem_map.1 hmem
  exact ⟨i, hplace⟩

theorem retained_iff (hnodup : files.Nodup) (h : (file, i) ∈ placedCopies collation files) :
    Retained collation files keep file ↔ i < keep := by
  have hplace := mem_placedCopies h
  have hdistinct : (channelCopies collation files file.channel).Nodup :=
    (channelCopies_perm _).nodup_iff.2 ((hnodup.filter _).filter _)
  obtain ⟨hi, hget⟩ := List.getElem?_eq_some_iff.1 hplace
  constructor
  · intro hmem
    obtain ⟨j, hj, hsame⟩ := mem_take_iff_getElem.1 hmem
    have hij : i = j := (Nodup.getElem_inj_iff hdistinct).1 (hget.trans hsame.symm)
    omega
  · intro hlt
    exact mem_take_iff_getElem.2 ⟨i, by omega, hget⟩

end Places

section Account
variable (collation : Collation) (files : List LogFileInfo) (keep : Nat) (cutoff : Option Rat)
  (byteBudget : Option Nat) (going : LogFileInfo → Bool)

def gateRemovals : List LogFileInfo :=
  ((placedCopies collation files).filter fun copy =>
    keep ≤ copy.2 ∧ oldEnough cutoff copy.1 ∧ going copy.1).map Prod.fst

def budgetCandidates : List LogFileInfo :=
  sortBy (oldestFirst collation)
    (((placedCopies collation files).filter (candidate keep cutoff)).map Prod.fst)

def budgetRemovals : List LogFileInfo :=
  match byteBudget with
  | none => []
  | some maxTotalBytes => taken maxTotalBytes going
      (totalBytes files - totalBytes (gateRemovals collation files keep cutoff going))
      (budgetCandidates collation files keep cutoff)

def removals : List LogFileInfo :=
  gateRemovals collation files keep cutoff going ++
    budgetRemovals collation files keep cutoff byteBudget going

def reported : PruneLogsResult :=
  { removed := (removals collation files keep cutoff byteBudget going).map LogFileInfo.removal
    freedBytes := totalBytes (removals collation files keep cutoff byteBudget going)
    kept := (files.filter LogFileInfo.rotated).length -
      (removals collation files keep cutoff byteBudget going).length
    budget := byteBudget.map fun maxTotalBytes =>
      { maxTotalBytes := maxTotalBytes
        removed := (budgetRemovals collation files keep cutoff byteBudget going).length
        remainingBytes := totalBytes files -
          totalBytes (removals collation files keep cutoff byteBudget going)
        satisfied := (totalBytes files : Int) -
          totalBytes (removals collation files keep cutoff byteBudget going) ≤ maxTotalBytes } }

end Account

theorem totalBytes_append (files files' : List LogFileInfo) :
    totalBytes (files ++ files') = totalBytes files + totalBytes files' := by
  unfold totalBytes
  rw [map_append, sum_append]

theorem totalBytes_perm {files files' : List LogFileInfo} (h : files.Perm files') :
    totalBytes files = totalBytes files' := (h.map LogFileInfo.sizeBytes).sum_eq

theorem totalBytes_filter (p : LogFileInfo → Bool) (files : List LogFileInfo) :
    totalBytes (files.filter p) + totalBytes (files.filter fun file => !p file) =
      totalBytes files := by
  rw [← totalBytes_append]
  exact totalBytes_perm (filter_append_perm p files)

section Gates
variable (collation : Collation) (files : List LogFileInfo) (keep : Nat) (cutoff : Option Rat)
  (dryRun : Bool) (fails : String → Bool)

def gateSurvivors : List LogFileInfo :=
  ((placedCopies collation files).filter fun copy => ¬ gated keep cutoff dryRun fails copy).map
    Prod.fst

theorem gates_eq (d : LogDirectory) :
    (placedCopies collation files).foldl (gateCopy keep cutoff dryRun fails) ⟨[], 0, 0, [], [], d⟩ =
      { removed := (gateRemovals collation files keep cutoff (goes dryRun fails)).map
          LogFileInfo.removal
        freedBytes := totalBytes (gateRemovals collation files keep cutoff (goes dryRun fails))
        kept := (gateSurvivors collation files keep cutoff dryRun fails).length
        remainingFiles := gateSurvivors collation files keep cutoff dryRun fails
        budgetCandidates :=
          ((placedCopies collation files).filter (candidate keep cutoff)).map Prod.fst
        disk := diskAfter dryRun d
          (gateRemovals collation files keep cutoff (goes dryRun fails)) } := by
  rw [foldl_gateCopy]
  simp only [nil_append, Nat.zero_add, Int.zero_add, gateSurvivors, length_map]
  rfl

theorem gates_split : (gateRemovals collation files keep cutoff (goes dryRun fails) ++
    gateSurvivors collation files keep cutoff dryRun fails).Perm
      (files.filter LogFileInfo.rotated) := by
  have hsplit := (filter_append_perm (gated keep cutoff dryRun fails)
    (placedCopies collation files)).map Prod.fst
  rw [map_append] at hsplit
  have hneg : (placedCopies collation files).filter
      (fun copy => !gated keep cutoff dryRun fails copy) =
        (placedCopies collation files).filter
          fun copy => ¬ gated keep cutoff dryRun fails copy := by
    refine filter_congr fun copy _ => ?_
    cases gated keep cutoff dryRun fails copy with
    | true => rfl
    | false => rfl
  rw [hneg] at hsplit
  exact hsplit.trans placedCopies_perm

theorem gates_bytes :
    totalBytes (files.filter fun file => ¬ file.rotated) +
        totalBytes (gateSurvivors collation files keep cutoff dryRun fails) +
        totalBytes (gateRemovals collation files keep cutoff (goes dryRun fails)) =
      totalBytes files := by
  have hrotated := totalBytes_filter LogFileInfo.rotated files
  have hneg : (files.filter fun file => !file.rotated) = files.filter fun file => ¬ file.rotated := by
    refine filter_congr fun file _ => ?_
    cases file.rotated with
    | true => rfl
    | false => rfl
  have hgates := totalBytes_perm (gates_split collation files keep cutoff dryRun fails)
  rw [totalBytes_append] at hgates
  rw [hneg] at hrotated
  omega

end Gates

theorem pruneLogs_eq (collation : Collation) (environment : Option Int) (now : Rat)
    (options : PruneLogsOptions) (fails : String → Bool) (d : LogDirectory) :
    pruneLogs collation environment now options fails d =
      (reported collation (listLogFiles collation options.source d)
        (resolveKeepRotated options.keepRotated environment) (options.cutoff now)
        options.byteBudget (goes options.dryRun fails),
      diskAfter options.dryRun d (removals collation (listLogFiles collation options.source d)
        (resolveKeepRotated options.keepRotated environment) (options.cutoff now)
        options.byteBudget (goes options.dryRun fails))) := by
  have hpasses : ∀ p : GatePass, (byChannel collation (listLogFiles collation options.source d)).foldl
      (fun p group => group.zipIdx.foldl
        (gateCopy (resolveKeepRotated options.keepRotated environment) (options.cutoff now)
          options.dryRun fails) p) p =
      (placedCopies collation (listLogFiles collation options.source d)).foldl
        (gateCopy (resolveKeepRotated options.keepRotated environment) (options.cutoff now)
          options.dryRun fails) p := fun p => (foldl_flatMap ..).symm
  generalize hfiles : listLogFiles collation options.source d = files at hpasses
  unfold pruneLogs
  simp only [hfiles, hpasses]
  generalize resolveKeepRotated options.keepRotated environment = keep
  generalize options.cutoff now = cutoff
  generalize options.dryRun = dryRun
  have hkept := (gates_split collation files keep cutoff dryRun fails).length_eq
  have hbytes := gates_bytes collation files keep cutoff dryRun fails
  rw [length_append] at hkept
  rw [gates_eq]
  cases options.byteBudget with
  | none =>
    have hcount : ((gateSurvivors collation files keep cutoff dryRun fails).length : Int) =
        (files.filter LogFileInfo.rotated).length -
          (gateRemovals collation files keep cutoff (goes dryRun fails)).length := by omega
    simp only [hcount, reported, removals, budgetRemovals, append_nil, Option.map_none]
  | some maxTotalBytes =>
    have hstart : ((totalBytes (files.filter fun file => ¬ file.rotated) : Int) +
        totalBytes (gateSurvivors collation files keep cutoff dryRun fails)) =
          totalBytes files -
            totalBytes (gateRemovals collation files keep cutoff (goes dryRun fails)) := by omega
    simp only [hstart, removeOldest_eq]
    have hbudget : taken maxTotalBytes (goes dryRun fails) (totalBytes files -
        totalBytes (gateRemovals collation files keep cutoff (goes dryRun fails)))
          (sortBy (oldestFirst collation)
            (((placedCopies collation files).filter (candidate keep cutoff)).map Prod.fst)) =
        budgetRemovals collation files keep cutoff (some maxTotalBytes) (goes dryRun fails) := rfl
    rw [hbudget]
    have hcount : ((gateSurvivors collation files keep cutoff dryRun fails).length : Int) -
        (budgetRemovals collation files keep cutoff (some maxTotalBytes) (goes dryRun fails)).length =
          (files.filter LogFileInfo.rotated).length -
            (removals collation files keep cutoff (some maxTotalBytes) (goes dryRun fails)).length := by
      unfold removals
      rw [length_append]
      omega
    have hleft : (totalBytes files : Int) -
        totalBytes (gateRemovals collation files keep cutoff (goes dryRun fails)) -
          totalBytes (budgetRemovals collation files keep cutoff (some maxTotalBytes)
            (goes dryRun fails)) =
        totalBytes files -
          totalBytes (removals collation files keep cutoff (some maxTotalBytes)
            (goes dryRun fails)) := by
      unfold removals
      rw [totalBytes_append]
      omega
    rw [hcount, hleft, diskAfter_append, ← map_append, ← totalBytes_append, Nat.zero_add]
    rfl

section Removals
variable {collation : Collation} {files : List LogFileInfo} {keep : Nat} {cutoff : Option Rat}
  {byteBudget : Option Nat} {going : LogFileInfo → Bool} {file : LogFileInfo}

theorem mem_of_place {i : Nat} (h : (file, i) ∈ placedCopies collation files) :
    file ∈ files ∧ file.rotated = true :=
  mem_filter.1 (placedCopies_perm.mem_iff.1 (mem_map_of_mem h))

/-- A copy the gates remove is beyond the window, old enough, and could go. -/
theorem mem_gateRemovals (hnodup : files.Nodup) :
    file ∈ gateRemovals collation files keep cutoff going ↔
      file ∈ files ∧ file.rotated = true ∧ ¬ Retained collation files keep file ∧
        oldEnough cutoff file = true ∧ going file = true := by
  constructor
  · intro h
    obtain ⟨⟨_, i⟩, hplace, rfl⟩ := mem_map.1 h
    obtain ⟨hmem, hgated⟩ := mem_filter.1 hplace
    obtain ⟨hbeyond, hold, hgoing⟩ := of_decide_eq_true hgated
    refine ⟨(mem_of_place hmem).1, (mem_of_place hmem).2, fun hretained => ?_, hold, hgoing⟩
    exact absurd ((retained_iff hnodup hmem).1 hretained) (Nat.not_lt.2 hbeyond)
  · rintro ⟨hfile, hrotated, hbeyond, hold, hgoing⟩
    obtain ⟨i, hplace⟩ := exists_place hfile hrotated
    refine mem_map.2 ⟨(file, i), mem_filter.2 ⟨hplace, decide_eq_true ?_⟩, rfl⟩
    exact ⟨Nat.not_lt.1 fun hlt => hbeyond ((retained_iff hnodup hplace).2 hlt), hold, hgoing⟩

theorem mem_budgetCandidates (hnodup : files.Nodup) :
    file ∈ budgetCandidates collation files keep cutoff ↔
      file ∈ files ∧ file.rotated = true ∧ Retained collation files keep file ∧
        oldEnough cutoff file = true := by
  unfold budgetCandidates
  rw [mem_sortBy]
  constructor
  · intro h
    obtain ⟨⟨_, i⟩, hplace, rfl⟩ := mem_map.1 h
    obtain ⟨hmem, hcandidate⟩ := mem_filter.1 hplace
    obtain ⟨hinside, hold⟩ := of_decide_eq_true hcandidate
    exact ⟨(mem_of_place hmem).1, (mem_of_place hmem).2,
      (retained_iff hnodup hmem).2 (Nat.not_le.1 hinside), hold⟩
  · rintro ⟨hfile, hrotated, hinside, hold⟩
    obtain ⟨i, hplace⟩ := exists_place hfile hrotated
    refine mem_map.2 ⟨(file, i), mem_filter.2 ⟨hplace, decide_eq_true ?_⟩, rfl⟩
    exact ⟨Nat.not_le.2 ((retained_iff hnodup hplace).1 hinside), hold⟩

theorem budgetRemovals_sublist : (budgetRemovals collation files keep cutoff byteBudget going).Sublist
    (budgetCandidates collation files keep cutoff) := by
  cases byteBudget with
  | none => exact nil_sublist _
  | some maxTotalBytes => exact taken_sublist

theorem going_of_mem_budgetRemovals
    (h : file ∈ budgetRemovals collation files keep cutoff byteBudget going) :
    going file = true := by
  cases byteBudget with
  | none => exact nomatch h
  | some maxTotalBytes => exact going_of_mem_taken h

theorem mem_removals (hnodup : files.Nodup)
    (h : file ∈ removals collation files keep cutoff byteBudget going) :
    file ∈ files ∧ file.rotated = true ∧ oldEnough cutoff file = true ∧ going file = true := by
  rcases mem_append.1 h with hgate | hbudget
  · obtain ⟨hfile, hrotated, -, hold, hgoing⟩ := (mem_gateRemovals hnodup).1 hgate
    exact ⟨hfile, hrotated, hold, hgoing⟩
  · obtain ⟨hfile, hrotated, -, hold⟩ :=
      (mem_budgetCandidates hnodup).1 (budgetRemovals_sublist.subset hbudget)
    exact ⟨hfile, hrotated, hold, going_of_mem_budgetRemovals hbudget⟩

theorem removals_nodup (hnodup : files.Nodup) :
    (removals collation files keep cutoff byteBudget going).Nodup := by
  have hplaced : ((placedCopies collation files).map Prod.fst).Nodup :=
    placedCopies_perm.nodup_iff.2 (hnodup.filter _)
  refine nodup_append.2 ⟨hplaced.sublist (filter_sublist.map _), ?_, ?_⟩
  · refine Nodup.sublist budgetRemovals_sublist ?_
    exact (sortBy_perm _ _).nodup_iff.2 (hplaced.sublist (filter_sublist.map _))
  · rintro file hgate other hbudget rfl
    have hinside := (mem_budgetCandidates hnodup).1 (budgetRemovals_sublist.subset hbudget)
    exact ((mem_gateRemovals hnodup).1 hgate).2.2.1 hinside.2.2.1

theorem removals_perm (hnodup : files.Nodup) :
    (removals collation files keep cutoff byteBudget going).Perm
      (files.filter fun file => file ∈ removals collation files keep cutoff byteBudget going) := by
  refine (perm_ext_iff_of_nodup (removals_nodup hnodup) (hnodup.filter _)).2 fun file => ?_
  rw [mem_filter, decide_eq_true_iff]
  exact ⟨fun h => ⟨(mem_removals hnodup h).1, h⟩, And.right⟩

end Removals

section Accounts
variable {collation : Collation} {environment : Option Int} {now : Rat}
  {options : PruneLogsOptions} {fails : String → Bool} {d : LogDirectory}

def Older (file file' : LogFileInfo) : Prop :=
  file.mtimeMs < file'.mtimeMs ∨ file.mtimeMs = file'.mtimeMs ∧ file'.rotation < file.rotation

structure ReportedExactly (options : PruneLogsOptions) (files left : List LogFileInfo)
    (result : PruneLogsResult) : Prop where
  still : ∀ file ∈ left, file ∈ files
  removed : result.removed.Perm ((files.filter fun file => decide (file ∉ left)).map
    LogFileInfo.removal)
  freedBytes : result.freedBytes + totalBytes left = totalBytes files
  kept : result.kept = (left.filter LogFileInfo.rotated).length
  asked : result.budget.map PruneBudgetReport.maxTotalBytes = options.byteBudget
  budget : ∀ report ∈ result.budget, report.remainingBytes = totalBytes left ∧
    (report.satisfied = true ↔ totalBytes left ≤ report.maxTotalBytes)

/-- Never an active file or a young copy, and in the window only what a budget requires. -/
structure RemovesOnly (collation : Collation) (keep : Nat) (cutoff : Option Rat)
    (fails : String → Bool) (files left : List LogFileInfo) (result : PruneLogsResult) : Prop where
  active : ∀ file ∈ files, file.rotated = false → file ∈ left
  young : ∀ file ∈ files, oldEnough cutoff file = false → file ∈ left
  beyond : ∀ file ∈ files, file.rotated = true → oldEnough cutoff file = true →
    ¬ Retained collation files keep file → fails file.path = false → file ∉ left
  budget : ∃ taken : List LogFileInfo, taken.map LogFileInfo.removal <:+ result.removed ∧
    (∀ file ∈ files, Retained collation files keep file → (file ∉ left ↔ file ∈ taken)) ∧
    taken.Pairwise (fun file file' => ¬ Older file' file) ∧
    match result.budget with
    | none => taken = []
    | some report => report.removed = taken.length ∧
      (∀ before file after, taken = before ++ file :: after →
        report.maxTotalBytes < totalBytes left + totalBytes (file :: after)) ∧
      ∀ file ∈ left, Retained collation files keep file → oldEnough cutoff file = true →
        fails file.path = false →
          totalBytes left ≤ report.maxTotalBytes ∧ ∀ file' ∈ taken, ¬ Older file file'

theorem listed_after {removed : List LogFileInfo}
    (hsub : ∀ file ∈ removed, file ∈ listLogFiles collation options.source d) :
    (listLogFiles collation options.source (d.without (removed.map LogFileInfo.path))).Perm
      ((listLogFiles collation options.source d).filter fun file => file ∉ removed) := by
  refine listLogFiles_without.trans (.of_eq (filter_congr fun file hfile => ?_))
  have hsame : file.path ∈ removed.map LogFileInfo.path ↔ file ∈ removed := by
    constructor
    · intro hpath
      obtain ⟨other, hother, heq⟩ := mem_map.1 hpath
      have hpaths : ((listLogFiles collation options.source d).map LogFileInfo.path).Nodup :=
        listLogFiles_nodup
      have hfiles := inj_on_of_nodup_map hpaths
      rwa [hfiles (hsub other hother) hfile heq] at hother
    · exact fun hmem => mem_map_of_mem hmem
  exact decide_eq_decide.2 (not_congr hsame)

theorem reported_exactly {files left : List LogFileInfo} {keep : Nat} {cutoff : Option Rat}
    {going : LogFileInfo → Bool} (hnodup : files.Nodup)
    (hleft : left.Perm (files.filter fun file =>
      file ∉ removals collation files keep cutoff options.byteBudget going)) :
    ReportedExactly options files left
      (reported collation files keep cutoff options.byteBudget going) := by
  have hremoved : (removals collation files keep cutoff options.byteBudget going).Perm
      (files.filter fun file =>
        file ∈ removals collation files keep cutoff options.byteBudget going) := removals_perm hnodup
  have hrotated : ∀ file ∈ removals collation files keep cutoff options.byteBudget going,
      file.rotated = true := fun file hfile => (mem_removals hnodup hfile).2.1
  generalize hR : removals collation files keep cutoff options.byteBudget going = R at *
  have hmem : ∀ file, file ∈ left ↔ file ∈ files ∧ file ∉ R := fun file => by
    rw [hleft.mem_iff, mem_filter, decide_eq_true_iff]
  have hsplit : (R ++ left).Perm files := by
    have hneg : (files.filter fun file => !decide (file ∈ R)) =
        files.filter fun file => file ∉ R := by
      refine filter_congr fun file _ => ?_
      rw [decide_not]
    have hparts := filter_append_perm (fun file => decide (file ∈ R)) files
    rw [hneg] at hparts
    exact (hremoved.append hleft).trans hparts
  have hbytes : totalBytes R + totalBytes left = totalBytes files := by
    rw [← totalBytes_append]
    exact totalBytes_perm hsplit
  refine ⟨fun file hfile => ((hmem file).1 hfile).1, ?_, ?_, ?_, ?_, ?_⟩
  · have hgone : (files.filter fun file => decide (file ∉ left)) =
        files.filter fun file => file ∈ R := by
      refine filter_congr fun file hfile => decide_eq_decide.2 ?_
      rw [hmem, not_and, not_not]
      exact ⟨fun h => h hfile, fun h _ => h⟩
    unfold reported
    rw [hR, hgone]
    exact hremoved.map _
  · unfold reported
    rw [hR]
    exact hbytes
  · have hcount := (hsplit.filter LogFileInfo.rotated).length_eq
    have hall : R.filter LogFileInfo.rotated = R := filter_eq_self.2 hrotated
    rw [filter_append, length_append, hall] at hcount
    unfold reported
    simp only [hR]
    omega
  · cases options.byteBudget with
    | none => rfl
    | some maxTotalBytes => rfl
  · intro report hreport
    obtain ⟨maxTotalBytes, -, rfl⟩ := Option.map_eq_some_iff.1 hreport
    rw [hR]
    dsimp only
    rw [decide_eq_true_iff]
    constructor
    · omega
    · omega

instance (collation : Collation) : Std.TransCmp (oldestFirst collation) :=
  inferInstanceAs (Std.TransCmp (compareLex _ _))

theorem not_older_of_oldestFirst {file file' : LogFileInfo}
    (h : (oldestFirst collation file file').isLE = true) : ¬ Older file' file := by
  unfold oldestFirst compareLex compareOn at h
  rintro (hlt | ⟨heq, hrotation⟩)
  · have hgt : compare file.mtimeMs file'.mtimeMs = .gt := compare_gt_iff_gt.2 hlt
    rw [hgt] at h
    exact nomatch h
  · have hsame : compare file.mtimeMs file'.mtimeMs = .eq := compare_eq_iff_eq.2 heq.symm
    have hgt : compare file'.rotation file.rotation = .gt := compare_gt_iff_gt.2 hrotation
    rw [hsame] at h
    dsimp only [Ordering.then] at h
    rw [hgt] at h
    exact nomatch h

theorem removes_only {files left : List LogFileInfo} {keep : Nat} {cutoff : Option Rat}
    (hnodup : files.Nodup)
    (hleft : left.Perm (files.filter fun file =>
      file ∉ removals collation files keep cutoff options.byteBudget (goes false fails))) :
    RemovesOnly collation keep cutoff fails files left
      (reported collation files keep cutoff options.byteBudget (goes false fails)) := by
  have hmem : ∀ file, file ∈ left ↔ file ∈ files ∧
      file ∉ removals collation files keep cutoff options.byteBudget (goes false fails) :=
    fun file => by rw [hleft.mem_iff, mem_filter, decide_eq_true_iff]
  refine ⟨fun file hfile hactive => ?_, fun file hfile hyoung => ?_,
    fun file hfile hrotated hold hbeyond hgoes => ?_,
    budgetRemovals collation files keep cutoff options.byteBudget (goes false fails), ?_, ?_, ?_, ?_⟩
  · refine (hmem file).2 ⟨hfile, fun hremoved => ?_⟩
    rw [(mem_removals hnodup hremoved).2.1] at hactive
    exact nomatch hactive
  · refine (hmem file).2 ⟨hfile, fun hremoved => ?_⟩
    rw [(mem_removals hnodup hremoved).2.2.1] at hyoung
    exact nomatch hyoung
  · intro hkept
    refine ((hmem file).1 hkept).2 (mem_append_left _ ((mem_gateRemovals hnodup).2 ?_))
    refine ⟨hfile, hrotated, hbeyond, hold, ?_⟩
    unfold goes
    rw [hgoes]
    rfl
  · refine ⟨(gateRemovals collation files keep cutoff (goes false fails)).map LogFileInfo.removal, ?_⟩
    unfold reported removals
    rw [map_append]
  · intro file hfile hinside
    have hnot : file ∉ gateRemovals collation files keep cutoff (goes false fails) :=
      fun hgate => ((mem_gateRemovals hnodup).1 hgate).2.2.1 hinside
    rw [hmem, not_and, not_not]
    unfold removals
    rw [mem_append]
    exact ⟨fun h => (h hfile).resolve_left hnot, fun h _ => .inr h⟩
  · have hsorted : (budgetCandidates collation files keep cutoff).Pairwise
        fun left right => (oldestFirst collation left right).isLE = true :=
      sortBy_pairwise (oldestFirst collation) _
    exact (hsorted.imp not_older_of_oldestFirst).sublist budgetRemovals_sublist
  · have hbytes : totalBytes (removals collation files keep cutoff options.byteBudget
        (goes false fails)) + totalBytes left = totalBytes files :=
      (reported_exactly hnodup hleft).freedBytes
    cases hbudget : options.byteBudget with
    | none => rfl
    | some maxTotalBytes =>
      rw [hbudget] at hmem hbytes
      refine ⟨rfl, fun before file after htaken => ?_, fun file hfile hinside hold hgoes => ?_⟩
      · have hneeded := taken_needed htaken
        have hparts : totalBytes (removals collation files keep cutoff (some maxTotalBytes)
            (goes false fails)) =
          totalBytes (gateRemovals collation files keep cutoff (goes false fails)) +
            (totalBytes before + totalBytes (file :: after)) := by
          unfold removals
          rw [totalBytes_append, htaken, totalBytes_append]
        dsimp only
        omega
      · obtain ⟨hlisted, hnot⟩ := (hmem file).1 hfile
        have hrotated : file.rotated = true := by
          have hcopy := (channelCopies_perm _).mem_iff.1 (mem_of_mem_take hinside)
          exact (mem_filter.1 (mem_filter.1 hcopy).1).2
        have hgoing : goes false fails file = true := by
          unfold goes
          rw [hgoes]
          rfl
        obtain ⟨hfits, before, after, hcandidates, hafter, hbefore⟩ :=
          of_not_taken ((mem_budgetCandidates hnodup).2 ⟨hlisted, hrotated, hinside, hold⟩) hgoing
            fun htaken => hnot (mem_append_right _ htaken)
        refine ⟨?_, fun file' hfile' => ?_⟩
        · have hparts : totalBytes (removals collation files keep cutoff (some maxTotalBytes)
              (goes false fails)) =
            totalBytes (gateRemovals collation files keep cutoff (goes false fails)) +
              totalBytes (budgetRemovals collation files keep cutoff (some maxTotalBytes)
                (goes false fails)) := totalBytes_append _ _
          unfold budgetRemovals at hparts
          dsimp only at hparts ⊢
          omega
        · have hordered : (before ++ after).Pairwise
              fun left right => (oldestFirst collation left right).isLE = true := by
            rw [← hcandidates]
            exact sortBy_pairwise (oldestFirst collation) _
          exact not_older_of_oldestFirst
            ((pairwise_append.1 hordered).2.2 file' (hbefore.subset hfile') file hafter)

/-- Every prune removes only what it may and reports it; a dry run reports the same. -/
theorem pruneLogs_accounts (collation : Collation) (environment : Option Int) (now : Rat)
    (options : PruneLogsOptions) (fails : String → Bool) (d : LogDirectory) :
    let run := pruneLogs collation environment now { options with dryRun := false } fails d
    let files := listLogFiles collation options.source d
    let left := listLogFiles collation options.source run.2
    ReportedExactly options files left run.1 ∧
      RemovesOnly collation (resolveKeepRotated options.keepRotated environment)
        (options.cutoff now) fails files left run.1 ∧
      pruneLogs collation environment now { options with dryRun := true } fails d =
        ((pruneLogs collation environment now { options with dryRun := false } (fun _ => false)
          d).1, d) := by
  intro run files left
  have hnodup : files.Nodup := Nodup.of_map LogFileInfo.path listLogFiles_nodup
  have hrun : run = (reported collation files
      (resolveKeepRotated options.keepRotated environment) (options.cutoff now) options.byteBudget
      (goes false fails), d.without ((removals collation files
        (resolveKeepRotated options.keepRotated environment) (options.cutoff now)
        options.byteBudget (goes false fails)).map LogFileInfo.path)) :=
    pruneLogs_eq collation environment now { options with dryRun := false } fails d
  have hleft : left.Perm (files.filter fun file => file ∉
      removals collation files (resolveKeepRotated options.keepRotated environment)
        (options.cutoff now) options.byteBudget (goes false fails)) := by
    have hdisk : left = listLogFiles collation options.source run.2 := rfl
    rw [hdisk, hrun]
    exact listed_after fun file hfile => (mem_removals hnodup hfile).1
  refine ⟨?_, ?_, ?_⟩
  · rw [hrun]
    exact reported_exactly hnodup hleft
  · rw [hrun]
    exact removes_only hnodup hleft
  · have hdry : goes true fails = goes false fun _ => false := by
      funext file
      rfl
    rw [pruneLogs_eq, pruneLogs_eq]
    rw [hdry]
    rfl

end Accounts

end Rolebox.Log
