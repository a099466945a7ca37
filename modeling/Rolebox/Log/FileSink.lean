import Mathlib.Algebra.BigOperators.Group.List.Basic
import Mathlib.Algebra.GroupWithZero.Nat
import Mathlib.Data.Rat.Defs
import Rolebox.General.Transition

/-! The file sink's writers: a record measures the file, may rotate it, and is appended. -/

namespace Rolebox.Log
open General

/-- How long a rotation lock may sit unmodified before another process breaks it. -/
def ROTATE_LOCK_STALE_MS : Rat := 10000

/-- How long a writer tolerates no progress from another process's rotation. -/
def ROTATE_WAIT_MS : Rat := 25

structure LogLine where
  id : Nat
  bytes : Nat

/-- The files of one log path: index 0 is the active file, `k` the copy `.k`. -/
structure LogFiles where
  slots : Nat → Option Nat
  contents : Nat → List LogLine
  nextInode : Nat
  nextLine : Nat
  shiftedOut : List Nat

namespace LogFiles

def fileSize (files : LogFiles) : Nat :=
  match files.slots 0 with
  | none => 0
  | some inode => ((files.contents inode).map LogLine.bytes).sum

def renameTo (files : LogFiles) (index : Nat) : Option LogFiles :=
  match files.slots (index - 1) with
  | none => none
  | some inode => some { files with
      slots := Function.update (Function.update files.slots index (some inode)) (index - 1) none
      shiftedOut := (files.slots index).toList ++ files.shiftedOut }

def removeActive (files : LogFiles) : LogFiles :=
  { files with
    slots := Function.update files.slots 0 none
    shiftedOut := (files.slots 0).toList ++ files.shiftedOut }

def openActive (files : LogFiles) : Nat × LogFiles :=
  match files.slots 0 with
  | some inode => (inode, files)
  | none => (files.nextInode, { files with
      slots := Function.update files.slots 0 (some files.nextInode)
      nextInode := files.nextInode + 1 })

def append (files : LogFiles) (inode bytes : Nat) : LogFiles :=
  { files with
    contents := Function.update files.contents inode
      (files.contents inode ++ [⟨files.nextLine, bytes⟩])
    nextLine := files.nextLine + 1 }

end LogFiles

structure RotationLockFile where
  ino : Nat
  owner : Option Nat
  mtimeMs : Rat

/-- Where a writer stands in its record; the number of a lock file is read by no step. -/
inductive WriterPhase where
  | idle
  | measuring
  | creating (attempt : Nat)
  | aging (attempt : Nat)
  | breaking (attempt : Nat)
  | stamping
  | polling
  | rechecking (lock : Nat)
  | removing (lock : Nat)
  | scanning (lock index : Nat)
  | looking (lock index : Nat)
  | moving (lock index : Nat)
  | releasing (lock : Nat)
  | opening
  | writing (inode : Nat)
  deriving DecidableEq

def WriterPhase.lock? : WriterPhase → Option Nat
  | rechecking lock => some lock
  | removing lock => some lock
  | scanning lock _ => some lock
  | looking lock _ => some lock
  | moving lock _ => some lock
  | releasing lock => some lock
  | _ => none

def WriterPhase.shifting : WriterPhase → Bool
  | removing _ => true
  | scanning _ _ => true
  | looking _ _ => true
  | moving _ _ => true
  | _ => false

structure Writer where
  maxBytes : Nat
  phase : WriterPhase := .idle
  bytes : Nat := 0
  disabled : Bool := false
  rotationBroken : Bool := false
  stalledRotation : Option (Nat × Rat) := none

def Writer.goto (w : Writer) (phase : WriterPhase) : Writer := { w with phase := phase }

@[simp] theorem Writer.goto_phase (w : Writer) (phase : WriterPhase) :
    (w.goto phase).phase = phase := rfl

/-- What the processes share: the files, and the lock path. -/
structure LogShare where
  files : LogFiles
  lock : Option RotationLockFile
  nextLock : Nat

structure LogWorld where
  share : LogShare
  writers : Nat → Option Writer

/-- What the system answers one call: refusal, clock, lock content, probe of a process. -/
structure Answer where
  fails : Bool := false
  now : Rat := 0
  pidWritten : Bool := true
  ownerGone : Bool := false

def rotationOwnerMayBeAlive (live : Nat → Bool) (lock : RotationLockFile) (answer : Answer) : Bool :=
  match lock.owner with
  | none => true
  | some pid => live pid || !answer.ownerGone

def rotationLockIsStale (lock : Option RotationLockFile) (answer : Answer) : Bool :=
  match lock with
  | none => true
  | some lock => answer.fails || ROTATE_LOCK_STALE_MS < answer.now - lock.mtimeMs

def lockStampKey (lock : RotationLockFile) : Nat × Rat := (lock.ino, lock.mtimeMs)

def announceRotationProgress (share : LogShare) (answer : Answer) : LogShare :=
  if answer.fails then share
  else { share with lock := share.lock.map fun lock => { lock with mtimeMs := answer.now } }

def nextShift (lock index : Nat) : WriterPhase :=
  if index ≤ 1 then .releasing lock else .looking lock (index - 1)

/-- The next call a writer makes on the file system in its record, with the answer it gets. -/
def turn (retain : Nat) (live : Nat → Bool) (share : LogShare) (i : Nat) (w : Writer)
    (answer : Answer) : Option (LogShare × Writer) :=
  match w.phase with
  | .idle => none
  | .measuring =>
    if 0 < w.maxBytes ∧ w.rotationBroken = false ∧ w.maxBytes ≤ share.files.fileSize then
      some (share, w.goto (.creating 0))
    else some (share, w.goto .opening)
  | .creating attempt =>
    if answer.fails ∨ share.lock.isSome then some (share, w.goto (.aging attempt))
    else
      some ({ share with
        lock := some ⟨share.nextLock, if answer.pidWritten then some i else none, answer.now⟩
        nextLock := share.nextLock + 1 }, w.goto (.rechecking share.nextLock))
  | .aging attempt =>
    if rotationLockIsStale share.lock answer then some (share, w.goto (.breaking attempt))
    else some (share, w.goto .stamping)
  | .breaking attempt =>
    -- the lock path is removed, whichever file it names by now
    if answer.fails then some (share, w.goto .stamping)
    else some ({ share with lock := none }, w.goto (if attempt = 0 then .creating 1 else .stamping))
  | .stamping =>
    match share.lock with
    | none => some (share, { w with phase := .opening, stalledRotation := none })
    | some lock =>
      if w.stalledRotation = some (lockStampKey lock) then some (share, w.goto .opening)
      else some (share, w.goto .polling)
  | .polling =>
    match share.lock with
    | none => some (share, { w with phase := .opening, stalledRotation := none })
    | some lock =>
      if ROTATE_LOCK_STALE_MS < answer.now - lock.mtimeMs ∨
          (ROTATE_WAIT_MS < answer.now - lock.mtimeMs ∧
            rotationOwnerMayBeAlive live lock answer = false) then
        some (share, { w with phase := .opening, stalledRotation := some (lockStampKey lock) })
      else some (share, w)
  | .rechecking lock =>
    if w.maxBytes ≤ share.files.fileSize then
      if retain = 0 then some (share, w.goto (.removing lock))
      else some (announceRotationProgress share answer, w.goto (.scanning lock 1))
    else some (share, w.goto (.releasing lock))
  | .removing lock =>
    if answer.fails then some (share, { w with phase := .releasing lock, rotationBroken := true })
    else some ({ share with files := share.files.removeActive }, w.goto (.releasing lock))
  | .scanning lock index =>
    -- the copies that exist, up from `.1`; the shift starts one above the highest
    if index ≤ retain ∧ (share.files.slots index).isSome then
      some (share, w.goto (.scanning lock (index + 1)))
    else some (share, w.goto (.looking lock (min retain index)))
  | .looking lock index =>
    if (share.files.slots (index - 1)).isSome then some (share, w.goto (.moving lock index))
    else some (share, w.goto (nextShift lock index))
  | .moving lock index =>
    match share.files.renameTo index with
    | some files =>
      if answer.fails then some (share, { w with phase := .releasing lock, rotationBroken := true })
      else some ({ share with files := files }, w.goto (nextShift lock index))
    | none => some (share, { w with phase := .releasing lock, rotationBroken := true })
  | .releasing _ =>
    if answer.fails then some (share, w.goto .opening)
    else some ({ share with lock := none }, w.goto .opening)
  | .opening =>
    if answer.fails then some (share, { w with phase := .idle, disabled := true })
    else some ({ share with files := share.files.openActive.2 },
      w.goto (.writing share.files.openActive.1))
  | .writing inode =>
    if answer.fails then some (share, { w with phase := .idle, disabled := true })
    else some ({ share with files := share.files.append inode w.bytes }, w.goto .idle)

inductive LogEvent where
  | start (i maxBytes : Nat)
  | die (i : Nat)
  | record (i bytes : Nat)
  | turn (i : Nat) (answer : Answer)
  | announce (i : Nat) (answer : Answer)

def LogEvent.actor : LogEvent → Nat
  | start i _ => i
  | die i => i
  | record i _ => i
  | turn i _ => i
  | announce i _ => i

namespace LogWorld

def put (s : LogWorld) (i : Nat) (share : LogShare) (w : Writer) : LogWorld :=
  { share := share, writers := Function.update s.writers i (some w) }

/-- One step of a process. The holder of a lock refreshes it at any moment of its shift. -/
def step (retain : Nat) (s : LogWorld) : LogEvent → Option LogWorld
  | .start i maxBytes =>
    if s.writers i = none then some (s.put i s.share { maxBytes := maxBytes }) else none
  | .die i => some { s with writers := Function.update s.writers i none }
  | .record i bytes => do
    let w ← s.writers i
    if w.phase = .idle ∧ w.disabled = false then
      some (s.put i s.share { w with phase := .measuring, bytes := bytes })
    else none
  | .turn i answer => do
    let w ← s.writers i
    let next ← Log.turn retain (fun pid => (s.writers pid).isSome) s.share i w answer
    some (s.put i next.1 next.2)
  | .announce i answer => do
    let w ← s.writers i
    if w.phase.shifting then some (s.put i (announceRotationProgress s.share answer) w) else none

end LogWorld
end Rolebox.Log
