import Rolebox.General.Cursor
import Rolebox.General.Transition
import Rolebox.Log.Files

/-! Following the log files as they grow, while writers append and rotations rename. -/

namespace Rolebox.Log
open General List

/-- How many file identities a follower remembers before it forgets the oldest. -/
def MAX_FOLLOW_IDENTITIES : Nat := 4096

/-- How many times one poll may re-list and read what it has not read yet. -/
def MAX_FOLLOW_PASSES : Nat := 6

/-- What the names of the directory are of, and the bytes of every file. -/
structure Disk where
  dir : String
  names : List (String × Nat)
  distinct : (names.map Prod.fst).Nodup
  contents : Nat → List UInt8
  nextInode : Nat

namespace Disk

def join (d : Disk) (name : String) : String := d.dir ++ "/" ++ name

def listing (d : Disk) : LogDirectory where
  dir := d.dir
  entries := d.names.map fun entry =>
    (entry.1, some { dev := 0, ino := entry.2, sizeBytes := (d.contents entry.2).length, mtimeMs := 0 })
  nodup := by
    rw [map_map]
    exact d.distinct

def inode? (d : Disk) (path : String) : Option Nat :=
  (d.names.find? fun entry => d.join entry.1 = path).map Prod.snd

def append (d : Disk) (inode : Nat) (bytes : List UInt8) : Disk :=
  { d with contents := Function.update d.contents inode (d.contents inode ++ bytes) }

theorem distinct_filter (d : Disk) (p : String × Nat → Bool) :
    ((d.names.filter p).map Prod.fst).Nodup := d.distinct.sublist (filter_sublist.map _)

/-- Give a name to a file, taking it from the file that had it. -/
def name (d : Disk) (name : String) (inode : Nat) : Disk :=
  { d with
    names := d.names.filter (fun entry => entry.1 ≠ name) ++ [(name, inode)]
    distinct := by
      rw [map_append, nodup_append]
      refine ⟨d.distinct_filter _, nodup_singleton _, fun a ha b hb hab => ?_⟩
      obtain ⟨entry, hentry, rfl⟩ := mem_map.1 ha
      have hne : entry.1 ≠ name := of_decide_eq_true (mem_filter.1 hentry).2
      exact hne (hab.trans (mem_singleton.1 hb)) }

def unname (d : Disk) (name : String) : Disk :=
  { d with
    names := d.names.filter fun entry => entry.1 ≠ name
    distinct := d.distinct_filter _ }

end Disk

section Follower
variable {Record : Type*}

/-- What a follower is asked to read: explicit paths, or a source's own scan. -/
structure FollowQuery where
  files : List String := []
  source : LogSource := .dir

def queryPaths (collation : Collation) (query : FollowQuery) (d : Disk) : List String :=
  if query.files ≠ [] then query.files.filter (· ≠ "")
  else (scanLogFiles collation query.source d.listing).map LogFileInfo.path

/-- A record as it was delivered, with the file and offset it was read from. -/
structure Delivery (Record : Type*) where
  inode : Nat
  start : Nat
  record : Record

def Delivery.line (delivery : Delivery Record) : Nat × Nat := (delivery.inode, delivery.start)

inductive FollowPhase where
  | starting
  | baselining (paths : List String)
  | sleeping
  | listing
  | walking (paths : List String)
  | reading (inode sizeBytes : Nat) (paths : List String)

/-- A follower: its offset ledger, its poll, what it delivered; the other fields no step reads. -/
structure Follower (Record : Type*) where
  phase : FollowPhase := .starting
  state : List (Nat × Nat) := []
  batch : List (Delivery Record) := []
  pass : Nat := 0
  readAnyBytes : Bool := false
  delivered : List (List (Delivery Record)) := []
  base : Nat → Nat := fun _ => 0
  seen : Nat → List (List UInt8) := fun _ => []
  due : List (Nat × Nat) := []
  pending : List Nat := []

def remember (state : List (Nat × Nat)) (identity offset : Nat) : List (Nat × Nat) :=
  let updated := state.filter (fun entry => entry.1 ≠ identity) ++ [(identity, offset)]
  updated.drop (updated.length - MAX_FOLLOW_IDENTITIES)

def readNewLines (content : List UInt8) (offset : Nat) (fails : Bool) :
    Option (List (List UInt8) × Nat) :=
  if fails then none
  else
    let read := readLines 10 (content.drop offset)
    some (read.1, offset + read.2)

def carriedOffset (state : List (Nat × Nat)) (identity sizeBytes : Nat) : Nat :=
  match state.lookup identity with
  | some carried => if carried ≤ sizeBytes then carried else 0
  | none => 0

def listed (d : Disk) (paths : List String) : List (Nat × Nat) :=
  (paths.filterMap d.inode?).map fun inode => (inode, (d.contents inode).length)

inductive FollowEvent where
  | append (inode : Nat) (bytes : List UInt8)
  | create (name : String)
  | rename (name name' : String)
  | remove (name : String)
  | call (fails : Bool)

structure FollowWorld (Record : Type*) where
  disk : Disk
  follower : Follower Record

abbrev LineReader (Record : Type*) := List UInt8 → Option Record

namespace Follower
variable (parse : LineReader Record) (time : Record → Rat)

def deliveries (inode offset : Nat) (lines : List (List UInt8)) : List (Delivery Record) :=
  (placed offset lines).filterMap fun line => (parse line.2).map fun record =>
    { inode := inode, start := line.1, record := record }

def read (f : Follower Record) (content : List UInt8) (inode sizeBytes : Nat) (paths : List String)
    (fails : Bool) : Follower Record :=
  let offset := carriedOffset f.state inode sizeBytes
  match readNewLines content offset fails with
  | none => { f with phase := .walking paths, state := remember f.state inode offset }
  | some (lines, end_) =>
    { f with
      phase := .walking paths
      state := remember f.state inode end_
      batch := f.batch ++ deliveries parse inode offset lines
      readAnyBytes := f.readAnyBytes || !lines.isEmpty
      seen := Function.update f.seen inode (f.seen inode ++ lines)
      pending := f.pending.filter (· ≠ inode) }

def deliver (f : Follower Record) : Follower Record :=
  { f with
    phase := .sleeping
    batch := []
    delivered := f.delivered ++
      [f.batch.mergeSort fun left right => time left.record ≤ time right.record] }

def call (collation : Collation) (query : FollowQuery) (d : Disk) (f : Follower Record)
    (fails : Bool) : Follower Record :=
  match f.phase with
  | .starting =>
    { f with
      phase := .baselining (queryPaths collation query d)
      state := [] }
  | .baselining [] => { f with phase := .sleeping }
  | .baselining (path :: paths) =>
    match if fails then none else d.inode? path with
    | none => { f with phase := .baselining paths }
    | some inode =>
      { f with
        phase := .baselining paths
        state := remember f.state inode (d.contents inode).length
        base := Function.update f.base inode (d.contents inode).length }
  | .sleeping =>
    { f with
      phase := .listing
      batch := []
      pass := 0
      due := []
      pending := [] }
  | .listing =>
    let paths := queryPaths collation query d
    { f with
      phase := .walking paths
      readAnyBytes := false
      due := f.due ++ listed d paths
      pending := f.pending ++ (listed d paths).map Prod.fst }
  | .walking (path :: paths) =>
    match if fails then none else d.inode? path with
    | none => { f with phase := .walking paths }
    | some inode => { f with phase := .reading inode (d.contents inode).length paths }
  | .reading inode sizeBytes paths => f.read parse (d.contents inode) inode sizeBytes paths fails
  | .walking [] =>
    -- a pass that found no unread byte has nothing left to catch
    if f.readAnyBytes = false ∨ f.pass + 1 = MAX_FOLLOW_PASSES then f.deliver time
    else { f with phase := .listing, pass := f.pass + 1 }

end Follower

/-- One step: an append, a rename, creation or removal, or the follower's next call. -/
def FollowWorld.step (parse : LineReader Record) (time : Record → Rat) (collation : Collation)
    (query : FollowQuery) (s : FollowWorld Record) : FollowEvent → Option (FollowWorld Record)
  | .append inode bytes =>
    if inode < s.disk.nextInode then some { s with disk := s.disk.append inode bytes } else none
  | .create name =>
    if s.disk.names.any (·.1 = name) then none
    else some { s with
      disk := { s.disk.name name s.disk.nextInode with nextInode := s.disk.nextInode + 1 } }
  | .rename name name' =>
    match s.disk.names.find? (·.1 = name) with
    | none => none
    | some entry => some { s with disk := (s.disk.unname name).name name' entry.2 }
  | .remove name => some { s with disk := s.disk.unname name }
  | .call fails =>
    some { s with follower := s.follower.call parse time collation query s.disk fails }

end Follower
end Rolebox.Log
