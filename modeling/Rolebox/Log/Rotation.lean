import Rolebox.Log.FileSink

/-! Rotation under the lock file: one process at a time shifts the copies. -/

namespace Rolebox.Log
open General List Function Option

section Law
variable {retain : Nat} {s t : LogWorld} {event : LogEvent}

/-- At most one process is shifting the copies. -/
def OneShifter (s : LogWorld) : Prop :=
  ∀ i j w w', s.writers i = some w → s.writers j = some w' → w.phase.shifting = true →
    w'.phase.shifting = true → i = j

/-- Every appended line is in one file, once; and that file has one name, unless it was shifted out. -/
def LinesOnce (files : LogFiles) : Prop :=
  ∀ id < files.nextLine, ∃ inode,
    ((files.contents inode).filter fun line => line.id = id).length = 1 ∧
    (∀ other, ∀ line ∈ files.contents other, line.id = id → other = inode) ∧
    (inode ∈ files.shiftedOut ∨
      ∃ k, files.slots k = some inode ∧ ∀ j, files.slots j = some inode → j = k)

/-- A file keeps its name or moves one up; only the copy at `retain` is shifted out. -/
def CopiesKept (retain : Nat) (files files' : LogFiles) : Prop :=
  (∀ k inode, files.slots k = some inode → files'.slots k = some inode ∨
    (k < retain ∧ files'.slots (k + 1) = some inode) ∨
    (k = retain ∧ inode ∈ files'.shiftedOut)) ∧
  ∀ inode ∈ files'.shiftedOut, inode ∈ files.shiftedOut ∨ files.slots retain = some inode

/-- The step does not remove, as a stale lock, the lock file of a process that still holds it. -/
def BreaksNoHeldLock (s : LogWorld) (event : LogEvent) : Prop :=
  ∀ i answer w attempt lock, event = .turn i answer → answer.fails = false →
    s.writers i = some w → w.phase = .breaking attempt → s.share.lock = some lock →
    ∀ j holder, s.writers j = some holder → holder.phase.lock? ≠ some lock.ino

def Attended (retain : Nat) (s : LogWorld) (event : LogEvent) (t : LogWorld) : Prop :=
  BreaksNoHeldLock s event ∧ LogWorld.step retain s event = some t

structure FilesKept (files : LogFiles) : Prop where
  apart : ∀ a b inode, files.slots a = some inode → files.slots b = some inode → a = b
  allocated : ∀ k inode, files.slots k = some inode → inode < files.nextInode
  out : ∀ inode ∈ files.shiftedOut, inode < files.nextInode
  found : ∀ inode < files.nextInode, inode ∈ files.shiftedOut ∨ ∃ k, files.slots k = some inode
  filed : ∀ inode, ∀ line ∈ files.contents inode,
    line.id < files.nextLine ∧ inode < files.nextInode
  once : ∀ id < files.nextLine, ∃ inode,
    ((files.contents inode).filter fun line => line.id = id).length = 1 ∧
    ∀ other, ∀ line ∈ files.contents other, line.id = id → other = inode

/-- No process is writing yet; the lock path may hold a lock left behind. -/
def Initial (s : LogWorld) : Prop :=
  (∀ i, s.writers i = none) ∧ FilesKept s.share.files ∧
    ∀ lock, s.share.lock = some lock → lock.ino < s.share.nextLock

theorem FilesKept.linesOnce {files : LogFiles} (h : FilesKept files) : LinesOnce files := by
  intro id hid
  obtain ⟨inode, hone, honly⟩ := h.once id hid
  have hmem : ∃ line ∈ files.contents inode, line.id = id := by
    obtain ⟨line, hline⟩ := exists_mem_of_length_pos (Nat.lt_of_lt_of_eq Nat.zero_lt_one hone.symm)
    obtain ⟨hmem, hsame⟩ := mem_filter.1 hline
    exact ⟨line, hmem, of_decide_eq_true hsame⟩
  obtain ⟨line, hline, -⟩ := hmem
  refine ⟨inode, hone, honly, ?_⟩
  rcases h.found inode (h.filed inode line hline).2 with hout | ⟨k, hk⟩
  · exact .inl hout
  · exact .inr ⟨k, hk, fun j hj => h.apart j k inode hj hk⟩

end Law

section FileSteps
variable {retain index inode bytes : Nat} {files files' : LogFiles}

theorem renameTo_eq (h : files.renameTo index = some files') :
    ∃ inode, files.slots (index - 1) = some inode ∧
      (∀ k, files'.slots k =
        if k = index - 1 then none else if k = index then some inode else files.slots k) ∧
      files'.contents = files.contents ∧ files'.nextInode = files.nextInode ∧
      files'.nextLine = files.nextLine ∧
      files'.shiftedOut = (files.slots index).toList ++ files.shiftedOut := by
  unfold LogFiles.renameTo at h
  split at h
  · exact nomatch h
  next inode hinode =>
  cases h
  refine ⟨inode, hinode, fun k => ?_, rfl, rfl, rfl, rfl⟩
  simp only [update_apply]

theorem renameTo_kept (h : files.renameTo index = some files') (hindex : 1 ≤ index)
    (hle : index ≤ retain) (hfree : files.slots index = none ∨ index = retain)
    (hkept : FilesKept files) : CopiesKept retain files files' ∧ FilesKept files' := by
  obtain ⟨inode, hinode, hslots, hcontents, hnext, hline, hout⟩ := renameTo_eq h
  have hmem : ∀ other, other ∈ files'.shiftedOut ↔
      files.slots index = some other ∨ other ∈ files.shiftedOut := fun other => by
    rw [hout, mem_append, Option.mem_toList]
  refine ⟨⟨fun k other hk => ?_, fun other hother => ?_⟩, ?_⟩
  · by_cases hsource : k = index - 1
    · subst hsource
      obtain rfl := mem_unique hinode hk
      refine .inr (.inl ⟨by omega, ?_⟩)
      rw [hslots, if_neg (by omega), if_pos (by omega)]
    · by_cases htarget : k = index
      · subst htarget
        rcases hfree with hnone | rfl
        · rw [hnone] at hk
          exact nomatch hk
        · exact .inr (.inr ⟨rfl, (hmem other).2 (.inl hk)⟩)
      · refine .inl ?_
        rw [hslots, if_neg hsource, if_neg htarget]
        exact hk
  · rcases (hmem other).1 hother with hover | hbefore
    · rcases hfree with hnone | rfl
      · rw [hnone] at hover
        exact nomatch hover
      · exact .inr hover
    · exact .inl hbefore
  · refine ⟨fun a b other ha hb => ?_, fun k other hk => ?_, fun other hother => ?_,
      fun other hother => ?_, ?_, ?_⟩
    · rw [hslots] at ha hb
      split at ha
      · exact nomatch ha
      split at ha
      · cases ha
        split at hb
        · exact nomatch hb
        split at hb
        · omega
        · have := hkept.apart _ _ _ hinode hb
          omega
      · split at hb
        · exact nomatch hb
        split at hb
        · cases hb
          have := hkept.apart _ _ _ hinode ha
          omega
        · exact hkept.apart a b other ha hb
    · rw [hnext]
      rw [hslots] at hk
      split at hk
      · exact nomatch hk
      split at hk
      · cases hk
        exact hkept.allocated _ _ hinode
      · exact hkept.allocated k other hk
    · rw [hnext]
      rcases (hmem other).1 hother with hover | hbefore
      · exact hkept.allocated _ _ hover
      · exact hkept.out other hbefore
    · rw [hnext] at hother
      rcases hkept.found other hother with hbefore | ⟨k, hk⟩
      · exact .inl ((hmem other).2 (.inr hbefore))
      by_cases hsource : k = index - 1
      · subst hsource
        obtain rfl := mem_unique hinode hk
        refine .inr ⟨index, ?_⟩
        rw [hslots, if_neg (by omega), if_pos rfl]
      · by_cases htarget : k = index
        · subst htarget
          exact .inl ((hmem other).2 (.inl hk))
        · refine .inr ⟨k, ?_⟩
          rw [hslots, if_neg hsource, if_neg htarget]
          exact hk
    · rw [hcontents, hline, hnext]
      exact hkept.filed
    · rw [hcontents, hline]
      exact hkept.once

theorem removeActive_kept (hkept : FilesKept files) :
    CopiesKept 0 files files.removeActive ∧ FilesKept files.removeActive := by
  have hslots : ∀ k, files.removeActive.slots k = if k = 0 then none else files.slots k :=
    fun k => by simp only [LogFiles.removeActive, update_apply]
  have hmem : ∀ other, other ∈ files.removeActive.shiftedOut ↔
      files.slots 0 = some other ∨ other ∈ files.shiftedOut := fun other => by
    simp only [LogFiles.removeActive, mem_append, Option.mem_toList]
  refine ⟨⟨fun k other hk => ?_, fun other hother => ?_⟩, ?_⟩
  · by_cases hactive : k = 0
    · subst hactive
      exact .inr (.inr ⟨rfl, (hmem other).2 (.inl hk)⟩)
    · refine .inl ?_
      rw [hslots, if_neg hactive]
      exact hk
  · exact ((hmem other).1 hother).symm
  · refine ⟨fun a b other ha hb => ?_, fun k other hk => ?_, fun other hother => ?_,
      fun other hother => ?_, hkept.filed, hkept.once⟩
    · rw [hslots] at ha hb
      split at ha
      · exact nomatch ha
      · split at hb
        · exact nomatch hb
        · exact hkept.apart a b other ha hb
    · rw [hslots] at hk
      split at hk
      · exact nomatch hk
      · exact hkept.allocated k other hk
    · rcases (hmem other).1 hother with hactive | hbefore
      · exact hkept.allocated 0 other hactive
      · exact hkept.out other hbefore
    · rcases hkept.found other hother with hbefore | ⟨k, hk⟩
      · exact .inl ((hmem other).2 (.inr hbefore))
      by_cases hactive : k = 0
      · subst hactive
        exact .inl ((hmem other).2 (.inl hk))
      · refine .inr ⟨k, ?_⟩
        rw [hslots, if_neg hactive]
        exact hk

theorem openActive_kept (retain : Nat) (hkept : FilesKept files) :
    CopiesKept retain files files.openActive.2 ∧ FilesKept files.openActive.2 ∧
      files.openActive.1 < files.openActive.2.nextInode ∧
      files.nextInode ≤ files.openActive.2.nextInode ∧
      ∀ k, 1 ≤ k → files.openActive.2.slots k = files.slots k := by
  unfold LogFiles.openActive
  split
  · next inode hactive =>
    exact ⟨⟨fun k other hk => .inl hk, fun other hother => .inl hother⟩, hkept,
      hkept.allocated 0 inode hactive, Nat.le_refl _, fun k _ => rfl⟩
  · next hnone =>
    have hslots : ∀ k, (update files.slots 0 (some files.nextInode)) k =
        if k = 0 then some files.nextInode else files.slots k :=
      fun k => by simp only [update_apply]
    have hstill : ∀ k other, files.slots k = some other →
        update files.slots 0 (some files.nextInode) k = some other :=
      fun k other hk => by
        have hne : k ≠ 0 := fun hzero => by
          rw [hzero, hnone] at hk
          exact nomatch hk
        rw [hslots, if_neg hne]
        exact hk
    refine ⟨⟨fun k other hk => .inl (hstill k other hk), fun other hother => .inl hother⟩,
      ⟨fun a b other ha hb => ?_, fun k other hk => ?_, fun other hother => ?_,
        fun other hother => ?_, fun other line hline => ?_, hkept.once⟩,
      Nat.lt_succ_self _, Nat.le_succ _, fun k hk => ?_⟩
    · dsimp only at ha hb
      rw [hslots] at ha hb
      split at ha
      · cases ha
        split at hb
        · omega
        · exact absurd (hkept.allocated _ _ hb) (Nat.lt_irrefl _)
      · split at hb
        · cases hb
          exact absurd (hkept.allocated _ _ ha) (Nat.lt_irrefl _)
        · exact hkept.apart a b other ha hb
    · dsimp only at hk
      rw [hslots] at hk
      split at hk
      · cases hk
        exact Nat.lt_succ_self _
      · exact Nat.lt_succ_of_lt (hkept.allocated k other hk)
    · exact Nat.lt_succ_of_lt (hkept.out other hother)
    · rcases Nat.lt_succ_iff_lt_or_eq.1 hother with hold | rfl
      · exact (hkept.found other hold).imp_right fun ⟨k, hk⟩ => ⟨k, hstill k other hk⟩
      · refine .inr ⟨0, ?_⟩
        dsimp only
        rw [hslots, if_pos rfl]
    · exact ⟨(hkept.filed other line hline).1, Nat.lt_succ_of_lt (hkept.filed other line hline).2⟩
    · dsimp only
      rw [hslots, if_neg (by omega)]

theorem append_kept (hkept : FilesKept files) (hopen : inode < files.nextInode) :
    CopiesKept retain files (files.append inode bytes) ∧ FilesKept (files.append inode bytes) := by
  have hcontents : ∀ other, (files.append inode bytes).contents other =
      if other = inode then files.contents inode ++ [⟨files.nextLine, bytes⟩]
      else files.contents other := fun other => by
    simp only [LogFiles.append, update_apply]
  have hmem : ∀ other line, line ∈ (files.append inode bytes).contents other →
      line ∈ files.contents other ∨ other = inode ∧ line = ⟨files.nextLine, bytes⟩ :=
    fun other line hline => by
      rw [hcontents] at hline
      split at hline
      · next heq =>
        subst heq
        exact (mem_append.1 hline).imp_right fun h => ⟨rfl, mem_singleton.1 h⟩
      · exact .inl hline
  refine ⟨⟨fun k other hk => .inl hk, fun other hother => .inl hother⟩, hkept.apart,
    hkept.allocated, hkept.out, hkept.found, fun other line hline => ?_, fun id hid => ?_⟩
  · rcases hmem other line hline with hold | ⟨rfl, rfl⟩
    · exact ⟨Nat.lt_succ_of_lt (hkept.filed other line hold).1, (hkept.filed other line hold).2⟩
    · exact ⟨Nat.lt_succ_self _, hopen⟩
  · rcases Nat.lt_succ_iff_lt_or_eq.1 hid with hold | rfl
    · obtain ⟨home, hone, honly⟩ := hkept.once id hold
      refine ⟨home, ?_, fun other line hline hsame => ?_⟩
      · rw [hcontents]
        split
        · next heq =>
          subst heq
          rw [filter_append, filter_cons_of_neg, filter_nil, append_nil]
          · exact hone
          · simpa using Nat.ne_of_gt hold
        · exact hone
      · rcases hmem other line hline with hbefore | ⟨-, rfl⟩
        · exact honly other line hbefore hsame
        · exact absurd hsame (Nat.ne_of_gt hold)
    · have hnone : (files.contents inode).filter (fun line => line.id = files.nextLine) = [] :=
        filter_eq_nil_iff.2 fun line hline hsame =>
          absurd (of_decide_eq_true hsame) (Nat.ne_of_lt (hkept.filed inode line hline).1)
      refine ⟨inode, ?_, fun other line hline hsame => ?_⟩
      · rw [hcontents, if_pos rfl, filter_append, hnone]
        simp
      · rcases hmem other line hline with hbefore | ⟨rfl, -⟩
        · exact absurd hsame (Nat.ne_of_lt (hkept.filed other line hbefore).1)
        · rfl

end FileSteps

section Turns
variable {retain i : Nat} {live : Nat → Bool} {share share' : LogShare} {w w' : Writer}
  {answer : Answer}

/-- What a writer knows at its place: where the shift stands, and which file it has open. -/
def Ready (retain : Nat) (files : LogFiles) : WriterPhase → Prop
  | .removing _ => retain = 0
  | .scanning _ index => 1 ≤ index ∧ 1 ≤ retain
  | .looking _ index =>
    1 ≤ index ∧ index ≤ retain ∧ (files.slots index = none ∨ index = retain)
  | .moving _ index =>
    1 ≤ index ∧ index ≤ retain ∧ (files.slots index = none ∨ index = retain)
  | .writing inode => inode < files.nextInode
  | _ => True

inductive TurnEffect (retain : Nat) (share : LogShare) (w : Writer) (answer : Answer) :
    LogShare → Writer → Prop where
  | quiet {share' : LogShare} {w' : Writer} (files : share'.files = share.files)
      (lock : share'.lock.map RotationLockFile.ino = share.lock.map RotationLockFile.ino)
      (next : share'.nextLock = share.nextLock)
      (holds : w'.phase.lock? = none ∨ w'.phase.lock? = w.phase.lock?)
      (ready : Ready retain share.files w.phase → Ready retain share.files w'.phase) :
      TurnEffect retain share w answer share' w'
  | created {attempt : Nat} {lock : RotationLockFile} (at_ : w.phase = .creating attempt)
      (free : share.lock = none) (ino : lock.ino = share.nextLock) :
      TurnEffect retain share w answer
        { share with lock := some lock, nextLock := share.nextLock + 1 }
        (w.goto (.rechecking share.nextLock))
  | broke {attempt : Nat} {phase : WriterPhase} (at_ : w.phase = .breaking attempt)
      (works : answer.fails = false) (holds : phase.lock? = none)
      (ready : Ready retain share.files phase) :
      TurnEffect retain share w answer { share with lock := none } (w.goto phase)
  | released {lock : Nat} (at_ : w.phase = .releasing lock) :
      TurnEffect retain share w answer { share with lock := none } (w.goto .opening)
  | removed {lock : Nat} (at_ : w.phase = .removing lock) :
      TurnEffect retain share w answer { share with files := share.files.removeActive }
        (w.goto (.releasing lock))
  | moved {lock index : Nat} {files : LogFiles} (at_ : w.phase = .moving lock index)
      (rename : share.files.renameTo index = some files) :
      TurnEffect retain share w answer { share with files := files } (w.goto (nextShift lock index))
  | opened (at_ : w.phase = .opening) :
      TurnEffect retain share w answer { share with files := share.files.openActive.2 }
        (w.goto (.writing share.files.openActive.1))
  | wrote {inode : Nat} (at_ : w.phase = .writing inode) :
      TurnEffect retain share w answer { share with files := share.files.append inode w.bytes }
        (w.goto .idle)

theorem TurnEffect.passes {w₁ : Writer} (heq : some (share, w') = some (share', w₁))
    (h : w'.phase.lock? = none ∨ w'.phase.lock? = w.phase.lock?)
    (hready : Ready retain share.files w.phase → Ready retain share.files w'.phase) :
    TurnEffect retain share w answer share' w₁ := by
  obtain ⟨rfl, rfl⟩ := Prod.mk.inj (Option.some.inj heq)
  exact .quiet rfl rfl rfl h hready

theorem nextShift_lock? (lock index : Nat) : (nextShift lock index).lock? = some lock := by
  unfold nextShift
  split
  · rfl
  · rfl

theorem nextShift_ready {files : LogFiles} {lock index : Nat} (hle : index ≤ retain)
    (hfree : files.slots (index - 1) = none) : Ready retain files (nextShift lock index) := by
  unfold nextShift
  split
  · trivial
  · exact ⟨by omega, by omega, .inl hfree⟩

theorem announce_files : (announceRotationProgress share answer).files = share.files := by
  unfold announceRotationProgress
  split
  · rfl
  · rfl

theorem announce_nextLock : (announceRotationProgress share answer).nextLock = share.nextLock := by
  unfold announceRotationProgress
  split
  · rfl
  · rfl

theorem announce_lock : (announceRotationProgress share answer).lock.map RotationLockFile.ino =
    share.lock.map RotationLockFile.ino := by
  unfold announceRotationProgress
  split
  · rfl
  · exact Option.map_map _ _ _

theorem turn_effect (h : turn retain live share i w answer = some (share', w')) :
    TurnEffect retain share w answer share' w' := by
  cases hphase : w.phase with
  | idle =>
    simp only [turn, hphase] at h
    exact nomatch h
  | measuring | aging attempt =>
    simp only [turn, hphase] at h
    split at h
    · exact .passes h (.inl rfl) (fun _ => trivial)
    · exact .passes h (.inl rfl) (fun _ => trivial)
  | creating attempt =>
    simp only [turn, hphase] at h
    split at h
    · exact .passes h (.inl rfl) (fun _ => trivial)
    next hfree =>
    obtain ⟨rfl, rfl⟩ := Prod.mk.inj (Option.some.inj h)
    have hnone : share.lock = none := by
      rw [← not_isSome_iff_eq_none]
      exact fun hsome => hfree (.inr hsome)
    exact .created hphase hnone rfl
  | breaking attempt =>
    simp only [turn, hphase] at h
    split at h
    · exact .passes h (.inl rfl) (fun _ => trivial)
    next hworks =>
    obtain ⟨rfl, rfl⟩ := Prod.mk.inj (Option.some.inj h)
    refine .broke hphase (eq_false_of_ne_true hworks) ?_ ?_
    · split
      · rfl
      · rfl
    · split
      · trivial
      · trivial
  | stamping =>
    simp only [turn, hphase] at h
    split at h
    · exact .passes h (.inl rfl) (fun _ => trivial)
    · split at h
      · exact .passes h (.inl rfl) (fun _ => trivial)
      · exact .passes h (.inl rfl) (fun _ => trivial)
  | polling =>
    simp only [turn, hphase] at h
    split at h
    · exact .passes h (.inl rfl) (fun _ => trivial)
    · split at h
      · exact .passes h (.inl rfl) (fun _ => trivial)
      · exact .passes h (.inr rfl) id
  | rechecking lock =>
    simp only [turn, hphase] at h
    split at h
    · split at h
      · next hretain => exact .passes h (.inr (by rw [hphase]; rfl)) (fun _ => hretain)
      next hretain =>
      obtain ⟨rfl, rfl⟩ := Prod.mk.inj (Option.some.inj h)
      refine .quiet announce_files announce_lock announce_nextLock (.inr ?_) fun _ => ?_
      · rw [hphase]
        rfl
      · exact ⟨Nat.le_refl 1, Nat.one_le_iff_ne_zero.2 hretain⟩
    · exact .passes h (.inr (by rw [hphase]; rfl)) (fun _ => trivial)
  | removing lock =>
    simp only [turn, hphase] at h
    split at h
    · exact .passes h (.inr (by rw [hphase]; rfl)) (fun _ => trivial)
    · obtain ⟨rfl, rfl⟩ := Prod.mk.inj (Option.some.inj h)
      exact .removed hphase
  | scanning lock index =>
    simp only [turn, hphase] at h
    split at h
    · refine .passes h (.inr (by rw [hphase]; rfl)) (fun hready => ?_)
      rw [hphase] at hready
      exact ⟨Nat.le_succ_of_le hready.1, hready.2⟩
    · next hstop =>
      refine .passes h (.inr (by rw [hphase]; rfl)) (fun hready => ?_)
      rw [hphase] at hready
      obtain ⟨hindex, hretain⟩ := hready
      refine ⟨Nat.le_min.2 ⟨hretain, hindex⟩, Nat.min_le_left _ _, ?_⟩
      by_cases hle : index ≤ retain
      · rw [Nat.min_eq_right hle]
        refine .inl ?_
        rw [← not_isSome_iff_eq_none]
        exact fun hsome => hstop ⟨hle, hsome⟩
      · exact .inr (Nat.min_eq_left (Nat.le_of_not_le hle))
  | looking lock index =>
    simp only [turn, hphase] at h
    split at h
    · refine .passes h (.inr (by rw [hphase]; rfl)) (fun hready => ?_)
      rw [hphase] at hready
      exact hready
    · next hmissing =>
      refine .passes h (.inr ?_) (fun hready => ?_)
      · rw [hphase]
        exact nextShift_lock? lock index
      · rw [hphase] at hready
        exact nextShift_ready hready.2.1 (not_isSome_iff_eq_none.1 hmissing)
  | moving lock index =>
    simp only [turn, hphase] at h
    split at h
    · next files hrename =>
      split at h
      · exact .passes h (.inr (by rw [hphase]; rfl)) (fun _ => trivial)
      · obtain ⟨rfl, rfl⟩ := Prod.mk.inj (Option.some.inj h)
        exact .moved hphase hrename
    · exact .passes h (.inr (by rw [hphase]; rfl)) (fun _ => trivial)
  | releasing lock =>
    simp only [turn, hphase] at h
    split at h
    · exact .passes h (.inl rfl) (fun _ => trivial)
    · obtain ⟨rfl, rfl⟩ := Prod.mk.inj (Option.some.inj h)
      exact .released hphase
  | opening =>
    simp only [turn, hphase] at h
    split at h
    · exact .passes h (.inl rfl) (fun _ => trivial)
    · obtain ⟨rfl, rfl⟩ := Prod.mk.inj (Option.some.inj h)
      exact .opened hphase
  | writing inode =>
    simp only [turn, hphase] at h
    split at h
    · exact .passes h (.inl rfl) (fun _ => trivial)
    · obtain ⟨rfl, rfl⟩ := Prod.mk.inj (Option.some.inj h)
      exact .wrote hphase

end Turns

section Invariant
variable {retain i : Nat} {s t : LogWorld} {share' : LogShare} {w w' : Writer} {answer : Answer}
  {event : LogEvent}
variable {phase : WriterPhase}

/-- The lock of a holder is the lock file in place, and each writer knows its place. -/
structure Guarded (retain : Nat) (s : LogWorld) : Prop where
  held : ∀ i w n, s.writers i = some w → w.phase.lock? = some n →
    s.share.lock.map RotationLockFile.ino = some n
  alone : ∀ i j w w' n, s.writers i = some w → s.writers j = some w' → w.phase.lock? = some n →
    w'.phase.lock? = some n → i = j
  minted : ∀ lock, s.share.lock = some lock → lock.ino < s.share.nextLock
  ready : ∀ i w, s.writers i = some w → Ready retain s.share.files w.phase
  kept : FilesKept s.share.files

theorem lock?_of_shifting (h : phase.shifting = true) : ∃ n, phase.lock? = some n := by
  cases phase with
  | removing lock => exact ⟨lock, rfl⟩
  | scanning lock index => exact ⟨lock, rfl⟩
  | looking lock index => exact ⟨lock, rfl⟩
  | moving lock index => exact ⟨lock, rfl⟩
  | _ => exact nomatch h

section

variable (hs : Guarded retain s)
include hs

theorem Guarded.one_holder {j : Nat} {n m : Nat}
    (hi : s.writers i = some w) (hj : s.writers j = some w') (hn : w.phase.lock? = some n)
    (hm : w'.phase.lock? = some m) : i = j := by
  have hsame : n = m := Option.some.inj ((hs.held i w n hi hn).symm.trans (hs.held j w' m hj hm))
  subst hsame
  exact hs.alone i j w w' n hi hj hn hm

theorem Guarded.oneShifter : OneShifter s :=
  fun i j w w' hi hj hw hw' => by
    obtain ⟨n, hn⟩ := lock?_of_shifting hw
    obtain ⟨m, hm⟩ := lock?_of_shifting hw'
    exact hs.one_holder hi hj hn hm

theorem Guarded.put
    (hown : ∀ n, w'.phase.lock? = some n → share'.lock.map RotationLockFile.ino = some n ∧
      ∀ j other, j ≠ i → s.writers j = some other → other.phase.lock? ≠ some n)
    (hothers : ∀ j other n, j ≠ i → s.writers j = some other → other.phase.lock? = some n →
      share'.lock.map RotationLockFile.ino = some n)
    (hminted : ∀ lock, share'.lock = some lock → lock.ino < share'.nextLock)
    (hready : Ready retain share'.files w'.phase)
    (hstable : ∀ j other, j ≠ i → s.writers j = some other → Ready retain share'.files other.phase)
    (hkept : FilesKept share'.files) : Guarded retain (s.put i share' w') := by
  have hcases : ∀ j found, (s.put i share' w').writers j = some found →
      (j = i ∧ found = w') ∨ (j ≠ i ∧ s.writers j = some found) := fun j found hj => by
    by_cases hji : j = i
    · subst hji
      refine .inl ⟨rfl, ?_⟩
      have hself : (s.put j share' w').writers j = some w' := update_self ..
      exact (mem_unique hj hself)
    · refine .inr ⟨hji, ?_⟩
      have hother : (s.put i share' w').writers j = s.writers j := update_of_ne hji ..
      rw [← hother]
      exact hj
  refine ⟨fun j found n hj hn => ?_, fun j k found found' n hj hk hn hn' => ?_, hminted,
    fun j found hj => ?_, hkept⟩
  · rcases hcases j found hj with ⟨-, rfl⟩ | ⟨hji, hold⟩
    · exact (hown n hn).1
    · exact hothers j found n hji hold hn
  · rcases hcases j found hj with ⟨rfl, rfl⟩ | ⟨hji, hold⟩
    · rcases hcases k found' hk with ⟨rfl, -⟩ | ⟨hki, hold'⟩
      · rfl
      · exact absurd hn' ((hown n hn).2 k found' hki hold')
    · rcases hcases k found' hk with ⟨rfl, rfl⟩ | ⟨hki, hold'⟩
      · exact absurd hn ((hown n hn').2 j found hji hold)
      · exact hs.alone j k found found' n hold hold' hn hn'
  · rcases hcases j found hj with ⟨-, rfl⟩ | ⟨hji, hold⟩
    · exact hready
    · exact hstable j found hji hold

theorem Guarded.put_same_lock
    (hlock : share'.lock.map RotationLockFile.ino = s.share.lock.map RotationLockFile.ino)
    (hnext : share'.nextLock = s.share.nextLock)
    (hholds : w'.phase.lock? = none ∨ ∃ w, s.writers i = some w ∧ w'.phase.lock? = w.phase.lock?)
    (hready : Ready retain share'.files w'.phase)
    (hstable : ∀ j other, j ≠ i → s.writers j = some other → Ready retain share'.files other.phase)
    (hkept : FilesKept share'.files) : Guarded retain (s.put i share' w') := by
  refine hs.put (fun n hn => ?_) (fun j other n hji hj hn => ?_) (fun lock hlock' => ?_) hready
    hstable hkept
  · rcases hholds with hnone | ⟨w, hw, hsame⟩
    · rw [hnone] at hn
      exact nomatch hn
    · rw [hsame] at hn
      rw [hlock]
      exact ⟨hs.held i w n hw hn, fun j other hji hj hn' =>
        hji (hs.alone j i other w n hj hw hn' hn)⟩
  · rw [hlock]
    exact hs.held j other n hj hn
  · rw [hlock', map_some] at hlock
    obtain ⟨old, hold, hino⟩ := map_eq_some_iff.1 hlock.symm
    rw [hnext, ← hino]
    exact hs.minted old hold

end

theorem Ready.mono {files files' : LogFiles} (hslots : ∀ k, 1 ≤ k → files'.slots k = files.slots k)
    (hnext : files.nextInode ≤ files'.nextInode) (h : Ready retain files phase) :
    Ready retain files' phase := by
  cases phase with
  | looking lock index | moving lock index =>
    obtain ⟨hindex, hle, hfree⟩ := h
    exact ⟨hindex, hle, by rwa [hslots index hindex]⟩
  | writing inode => exact Nat.lt_of_lt_of_le h hnext
  | _ => exact h

theorem Ready.of_no_lock {files files' : LogFiles} (hnone : phase.lock? = none)
    (hnext : files.nextInode ≤ files'.nextInode) (h : Ready retain files phase) :
    Ready retain files' phase := by
  cases phase with
  | writing inode => exact Nat.lt_of_lt_of_le h hnext
  | looking lock index => exact nomatch hnone
  | moving lock index => exact nomatch hnone
  | _ => exact h

theorem TurnEffect.copies {share : LogShare} (h : TurnEffect retain share w answer share' w')
    (hready : Ready retain share.files w.phase) (hkept : FilesKept share.files) :
    CopiesKept retain share.files share'.files ∧ FilesKept share'.files := by
  have hsame : CopiesKept retain share.files share.files :=
    ⟨fun k other hk => .inl hk, fun other hother => .inl hother⟩
  cases h with
  | quiet files =>
    rw [files]
    exact ⟨hsame, hkept⟩
  | created => exact ⟨hsame, hkept⟩
  | broke => exact ⟨hsame, hkept⟩
  | released => exact ⟨hsame, hkept⟩
  | removed at_ =>
    rw [at_] at hready
    obtain rfl : retain = 0 := hready
    exact removeActive_kept hkept
  | moved at_ rename =>
    rw [at_] at hready
    exact renameTo_kept rename hready.1 hready.2.1 hready.2.2 hkept
  | opened => exact ⟨(openActive_kept retain hkept).1, (openActive_kept retain hkept).2.1⟩
  | wrote at_ =>
    rw [at_] at hready
    exact append_kept hkept hready

theorem TurnEffect.guarded (h : TurnEffect retain s.share w answer share' w')
    (hw : s.writers i = some w) (hs : Guarded retain s)
    (hbreaks : ∀ attempt lock, answer.fails = false → w.phase = .breaking attempt →
      s.share.lock = some lock → ∀ j holder, s.writers j = some holder →
        holder.phase.lock? ≠ some lock.ino) : Guarded retain (s.put i share' w') := by
  have hkept := (h.copies (hs.ready i w hw) hs.kept).2
  have hnone : ∀ n, w.phase.lock? = some n → ∀ j other, j ≠ i → s.writers j = some other →
      other.phase.lock? = none := fun n hn j other hji hj => by
    cases hother : other.phase.lock? with
    | none => rfl
    | some m => exact absurd (hs.one_holder hj hw hother hn) hji
  cases h with
  | quiet files lock next holds ready =>
    refine hs.put_same_lock lock next (holds.imp_right fun h => ⟨w, hw, h⟩) ?_ ?_ hkept
    · rw [files]
      exact ready (hs.ready i w hw)
    · intro j other _ hj
      rw [files]
      exact hs.ready j other hj
  | @created attempt lock at_ free ino =>
    refine hs.put (fun n hn => ?_) (fun j other n _ hj hn => ?_) (fun lock' hlock => ?_) trivial
      (fun j other _ hj => hs.ready j other hj) hkept
    · cases hn
      refine ⟨congrArg some ino, fun j other _ hj hn' => ?_⟩
      have hheld := hs.held j other _ hj hn'
      rw [free] at hheld
      exact nomatch hheld
    · have hheld := hs.held j other n hj hn
      rw [free] at hheld
      exact nomatch hheld
    · cases hlock
      rw [ino]
      exact Nat.lt_succ_self _
  | @broke attempt phase at_ works holds ready =>
    have hnobody : ∀ j other n, s.writers j = some other → other.phase.lock? ≠ some n :=
      fun j other n hj hn => by
        have hheld := hs.held j other n hj hn
        obtain ⟨lock, hlock, hino⟩ := map_eq_some_iff.1 hheld
        rw [← hino] at hn
        exact hbreaks attempt lock works at_ hlock j other hj hn
    refine hs.put (fun n hn => ?_) (fun j other n _ hj hn => absurd hn (hnobody j other n hj))
      (nofun) ready (fun j other _ hj => hs.ready j other hj) hkept
    rw [Writer.goto_phase, holds] at hn
    exact nomatch hn
  | @released lock at_ =>
    have hholds : w.phase.lock? = some lock := by
      rw [at_]
      rfl
    refine hs.put (nofun) (fun j other n hji hj hn => ?_)
      (nofun) trivial (fun j other _ hj => hs.ready j other hj) hkept
    rw [hnone lock hholds j other hji hj] at hn
    exact nomatch hn
  | @removed lock at_ =>
    have hholds : w.phase.lock? = some lock := by
      rw [at_]
      rfl
    refine hs.put_same_lock rfl rfl (.inr ⟨w, hw, hholds.symm⟩) trivial
      (fun j other hji hj => ?_) hkept
    have hle : s.share.files.nextInode ≤ s.share.files.removeActive.nextInode := Nat.le_refl _
    exact Ready.of_no_lock (hnone lock hholds j other hji hj) hle (hs.ready j other hj)
  | @moved lock index files at_ rename =>
    have hholds : w.phase.lock? = some lock := by
      rw [at_]
      rfl
    obtain ⟨inode, -, hslots, -, hnext, -⟩ := renameTo_eq rename
    have hready := hs.ready i w hw
    rw [at_] at hready
    refine hs.put_same_lock rfl rfl (.inr ⟨w, hw, ?_⟩) ?_ (fun j other hji hj => ?_) hkept
    · rw [hholds]
      exact nextShift_lock? lock index
    · refine nextShift_ready hready.2.1 ?_
      rw [hslots, if_pos rfl]
    · exact Ready.of_no_lock (hnone lock hholds j other hji hj) (Nat.le_of_eq hnext.symm)
        (hs.ready j other hj)
  | opened at_ =>
    obtain ⟨-, -, hopen, hnext, hslots⟩ := openActive_kept retain hs.kept
    exact hs.put_same_lock rfl rfl (.inl rfl) hopen
      (fun j other _ hj => Ready.mono hslots hnext (hs.ready j other hj)) hkept
  | wrote at_ =>
    exact hs.put_same_lock rfl rfl (.inl rfl) trivial
      (fun j other _ hj => Ready.mono (fun _ _ => rfl) (Nat.le_refl _) (hs.ready j other hj)) hkept

/-- What a step can do besides a death and a turn: it leaves the files, and at most stamps the lock. -/
inductive StepEffect (retain : Nat) (s : LogWorld) (event : LogEvent) : LogWorld → Prop where
  | died {i : Nat} (h : event = .die i) :
    StepEffect retain s event { s with writers := update s.writers i none }
  | turned {i : Nat} {answer : Answer} {w : Writer} {share' : LogShare} {w' : Writer}
      (h : event = .turn i answer) (hw : s.writers i = some w)
      (hturn : turn retain (fun pid => (s.writers pid).isSome) s.share i w answer =
        some (share', w')) :
    StepEffect retain s event (s.put i share' w')
  | stamped {share' : LogShare} {w' : Writer} (files : share'.files = s.share.files)
      (lock : share'.lock.map RotationLockFile.ino = s.share.lock.map RotationLockFile.ino)
      (next : share'.nextLock = s.share.nextLock)
      (holds : w'.phase.lock? = none ∨ s.writers event.actor = some w')
      (ready : Ready retain s.share.files w'.phase ∨ s.writers event.actor = some w') :
    StepEffect retain s event (s.put event.actor share' w')

theorem step_effect (h : LogWorld.step retain s event = some t) : StepEffect retain s event t := by
  cases event with
  | start i maxBytes =>
    simp only [LogWorld.step] at h
    split at h
    · cases h
      exact .stamped rfl rfl rfl (.inl rfl) (.inl trivial)
    · exact nomatch h
  | die i =>
    cases h
    exact .died rfl
  | record i bytes =>
    obtain ⟨w, hw, hrest⟩ := bind_eq_some_iff.1 h
    split at hrest
    · cases hrest
      exact .stamped rfl rfl rfl (.inl rfl) (.inl trivial)
    · exact nomatch hrest
  | turn i answer =>
    obtain ⟨w, hw, hrest⟩ := bind_eq_some_iff.1 h
    obtain ⟨⟨share', w'⟩, hturn, hnext⟩ := bind_eq_some_iff.1 hrest
    cases hnext
    exact .turned rfl hw hturn
  | announce i answer =>
    obtain ⟨w, hw, hrest⟩ := bind_eq_some_iff.1 h
    split at hrest
    · cases hrest
      exact .stamped announce_files announce_lock announce_nextLock (.inr hw) (.inr hw)
    · exact nomatch hrest

theorem Guarded.copies (hs : Guarded retain s) (h : LogWorld.step retain s event = some t) :
    CopiesKept retain s.share.files t.share.files := by
  have hsame : ∀ share : LogShare, share.files = s.share.files →
      CopiesKept retain s.share.files share.files := fun share hfiles => by
    rw [hfiles]
    exact ⟨fun k other hk => .inl hk, fun other hother => .inl hother⟩
  cases step_effect h with
  | died => exact hsame s.share rfl
  | turned _ hw hturn => exact ((turn_effect hturn).copies (hs.ready _ _ hw) hs.kept).1
  | stamped files => exact hsame _ files

theorem Guarded.step (hs : Guarded retain s) (h : Attended retain s event t) :
    Guarded retain t := by
  obtain ⟨hbreaks, h⟩ := h
  cases step_effect h with
  | @died i =>
    have hstill : ∀ j w, update s.writers i none j = some w → s.writers j = some w :=
      fun j w hj => by
        by_cases hji : j = i
        · rw [hji, update_self] at hj
          exact nomatch hj
        · rwa [update_of_ne hji] at hj
    exact ⟨fun j w n hj hn => hs.held j w n (hstill j w hj) hn,
      fun j k w w' n hj hk hn hn' => hs.alone j k w w' n (hstill j w hj) (hstill k w' hk) hn hn',
      hs.minted, fun j w hj => hs.ready j w (hstill j w hj), hs.kept⟩
  | @turned i answer w _ _ hevent hw hturn =>
    exact (turn_effect hturn).guarded hw hs fun attempt lock hworks hphase hlock =>
      hbreaks i answer w attempt lock hevent hworks hw hphase hlock
  | stamped files lock next holds ready =>
    refine hs.put_same_lock lock next (holds.imp_right fun hw => ⟨_, hw, rfl⟩) ?_ ?_ ?_ <;>
      rw [files]
    · exact ready.elim id fun hw => hs.ready _ _ hw
    · exact fun j other _ hj => hs.ready j other hj
    · exact hs.kept

theorem step_writers {j : Nat} (h : LogWorld.step retain s event = some t) (hj : j ≠ event.actor) :
    t.writers j = s.writers j := by
  cases step_effect h with
  | died hevent =>
    rw [hevent] at hj
    exact update_of_ne hj ..
  | turned hevent =>
    rw [hevent] at hj
    exact update_of_ne hj ..
  | stamped => exact update_of_ne hj ..

theorem Guarded.initial (h : Initial s) : Guarded retain s := by
  obtain ⟨hidle, hkept, hminted⟩ := h
  have hnone : ∀ i w, s.writers i ≠ some w := fun i w hw => by
    rw [hidle i] at hw
    exact nomatch hw
  exact ⟨fun i w _ hw => absurd hw (hnone i w), fun i _ w _ _ hw => absurd hw (hnone i w), hminted,
    fun i w hw => absurd hw (hnone i w), hkept⟩

end Invariant

section Rotation
variable {retain : Nat} {s₀ s : LogWorld} {events : List LogEvent}

/-- While no lock still held is removed as stale, one process shifts at a time, every line is in one
file until it is shifted out, and no copy is overwritten. -/
theorem rotation_loses_nothing (h : Run (Attended retain) s₀ events s) (h₀ : Initial s₀) :
    OneShifter s ∧ LinesOnce s.share.files ∧
      ∀ event t, LogWorld.step retain s event = some t →
        CopiesKept retain s.share.files t.share.files := by
  have hs : Guarded retain s :=
    h.invariant (I := Guarded retain) (fun _ _ _ hs hstep => hs.step hstep) (Guarded.initial h₀)
  exact ⟨hs.oneShifter, hs.kept.linesOnce, fun event t hstep => hs.copies hstep⟩

def oneLine : LogWorld :=
  { share := {
      files := {
        slots := fun k => if k = 0 then some 0 else none
        contents := fun inode => if inode = 0 then [⟨0, 1⟩] else []
        nextInode := 1
        nextLine := 1
        shiftedOut := [] }
      lock := none
      nextLock := 0 }
    writers := fun _ => none }

def turns (i count : Nat) : List LogEvent := replicate count (.turn i {})

def brokenLock : List LogEvent :=
  [.start 0 1, .start 1 1, .start 2 1, .record 0 1, .record 1 1, .record 2 1] ++
    turns 0 2 ++ turns 1 2 ++ turns 0 7 ++ turns 1 1 ++ turns 2 3 ++ turns 1 3 ++ turns 2 4 ++
    turns 1 6 ++ turns 2 1

def brokenLockEnd : LogWorld := (brokenLock.foldlM (LogWorld.step 2) oneLine).getD oneLine

theorem initial_oneLine : Initial oneLine := by
  have hslot : ∀ k inode, oneLine.share.files.slots k = some inode → k = 0 ∧ inode = 0 :=
    fun k inode hk => by
      by_cases hactive : k = 0
      · subst hactive
        exact ⟨rfl, (Option.some.inj hk).symm⟩
      · have hnone : oneLine.share.files.slots k = none := if_neg hactive
        rw [hnone] at hk
        exact nomatch hk
  have hline : ∀ inode line, line ∈ oneLine.share.files.contents inode →
      inode = 0 ∧ line = ⟨0, 1⟩ := fun inode line hmem => by
    by_cases hactive : inode = 0
    · subst hactive
      exact ⟨rfl, mem_singleton.1 hmem⟩
    · have hempty : oneLine.share.files.contents inode = [] := if_neg hactive
      rw [hempty] at hmem
      exact nomatch hmem
  refine ⟨fun i => rfl, ⟨fun a b inode ha hb => ?_, fun k inode hk => ?_, nofun,
    fun inode hlt => ?_, fun inode line hmem => ?_, fun id hid => ⟨0, ?_, ?_⟩⟩,
    nofun⟩
  · rw [(hslot a inode ha).1, (hslot b inode hb).1]
  · rw [(hslot k inode hk).2]
    exact Nat.zero_lt_one
  · obtain rfl : inode = 0 := Nat.lt_one_iff.1 hlt
    exact .inr ⟨0, rfl⟩
  · obtain ⟨rfl, rfl⟩ := hline inode line hmem
    exact ⟨Nat.zero_lt_one, Nat.zero_lt_one⟩
  · obtain rfl : id = 0 := Nat.lt_one_iff.1 hid
    rfl
  · exact fun other line hmem _ => (hline other line hmem).1

/-- The last rename replaces a copy below `retain` that holds a line. -/
theorem rotation_loses_line :
    ¬ ∀ (retain : Nat) (s₀ s : LogWorld) (events : List LogEvent),
      Run (fun s event t => LogWorld.step retain s event = some t) s₀ events s → Initial s₀ →
        OneShifter s ∧ LinesOnce s.share.files ∧
          ∀ event t, LogWorld.step retain s event = some t →
            CopiesKept retain s.share.files t.share.files := by
  intro hclaim
  have hrun : brokenLock.foldlM (LogWorld.step 2) oneLine = some brokenLockEnd := rfl
  obtain ⟨-, -, hcopies⟩ := hclaim 2 oneLine brokenLockEnd brokenLock (Run.of_foldlM hrun)
    initial_oneLine
  have hlast : (LogWorld.step 2 brokenLockEnd (.turn 2 {})).isSome = true := by decide +kernel
  obtain ⟨t, ht⟩ := isSome_iff_exists.1 hlast
  have hafter : (LogWorld.step 2 brokenLockEnd (.turn 2 {})).map
      (fun t => (t.share.files.slots 1, t.share.files.slots 2)) = some (some 2, some 0) := by
    decide +kernel
  rw [ht, map_some] at hafter
  obtain ⟨hone, htwo⟩ := Prod.mk.inj (Option.some.inj hafter)
  have hbefore : brokenLockEnd.share.files.slots 1 = some 1 := by decide +kernel
  rcases (hcopies _ t ht).1 1 1 hbefore with hsame | ⟨-, hup⟩ | ⟨hlast, -⟩
  · rw [hone] at hsame
    exact absurd hsame (by decide)
  · rw [htwo] at hup
    exact absurd hup (by decide)
  · exact absurd hlast (by decide)

/-- The event is of one of the first `crew` processes, and none of them holds a lock if it breaks one. -/
def sparesHolders (crew : Nat) (s : LogWorld) (event : LogEvent) : Bool :=
  let breaks := match (s.writers event.actor).map Writer.phase with
    | some (.breaking _) => true
    | _ => false
  decide (event.actor < crew) && (!breaks || (range crew).all fun j =>
    (s.writers j).all fun holder => holder.phase.lock?.isNone)

theorem run_of_sparing (crew : Nat) {t : LogWorld} (hidle : ∀ j, crew ≤ j → s.writers j = none)
    (h : events.foldlM (fun s event => if sparesHolders crew s event then
      LogWorld.step retain s event else none) s = some t) : Run (Attended retain) s events t := by
  induction events generalizing s with
  | nil =>
    cases h
    exact .nil _
  | cons event rest ih =>
    obtain ⟨u, hstep, hrest⟩ := bind_eq_some_iff.1 h
    dsimp only at hstep
    split at hstep
    · next hspares =>
      obtain ⟨hactor, hholders⟩ := Bool.and_eq_true_iff.1 hspares
      refine .cons ⟨fun i answer w attempt lock hevent _ hw hphase _ j holder hj hheld => ?_, hstep⟩
        (ih (fun j hj => ?_) hrest)
      · subst hevent
        have hall : (range crew).all (fun j =>
            (s.writers j).all fun holder => holder.phase.lock?.isNone) = true := by
          simpa only [LogEvent.actor, hw, map_some, hphase, Bool.not_true,
            Bool.false_or] using hholders
        have hcrew : j < crew := Nat.lt_of_not_le fun hle => by
          rw [hidle j hle] at hj
          exact nomatch hj
        have hnone := List.all_eq_true.1 hall j (mem_range.2 hcrew)
        rw [hj, all_some, hheld] at hnone
        exact nomatch hnone
      · rw [step_writers hstep (Nat.ne_of_gt (Nat.lt_of_lt_of_le (of_decide_eq_true hactor) hj))]
        exact hidle j hj
    · exact nomatch hstep

def rotatesOver : List LogEvent :=
  [.start 0 1, .record 0 1] ++ turns 0 3 ++ [.die 0, .start 1 1, .record 1 1] ++ turns 1 2 ++
    [.turn 1 { now := 10001 }] ++ turns 1 9

/-- A process dies in its shift; the next one removes its stale lock and rotates. -/
theorem rotation_loses_nothing_over :
    ∃ s, Run (Attended 2) oneLine rotatesOver s ∧ s.share.files.slots 1 = some 0 ∧
      LinesOnce s.share.files := by
  have hplay : (rotatesOver.foldlM (fun s event => if sparesHolders 2 s event then
      LogWorld.step 2 s event else none) oneLine).map (fun s => s.share.files.slots 1) =
        some (some 0) := by
    decide +kernel
  obtain ⟨s, hfold, hshifted⟩ := map_eq_some_iff.1 hplay
  have hrun := run_of_sparing 2 (fun _ _ => rfl) hfold
  exact ⟨s, hrun, hshifted, (rotation_loses_nothing hrun initial_oneLine).2.1⟩

end Rotation
end Rolebox.Log
