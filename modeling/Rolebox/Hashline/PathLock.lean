import Mathlib.Data.List.DropRight
import Rolebox.General.KeyedMutex
import Rolebox.Graph.Text

/-! Concurrent batches of file edits: the lock key of a path, and what a batch does under it. -/

namespace Rolebox.Hashline
open General

structure FileId where
  dev : Nat
  ino : Nat
  deriving DecidableEq

/-- The directory entries, the final target of every symbolic link, and the text of every file. -/
structure FileSystem where
  entries : List (String × FileId)
  symlinks : List (String × String)
  contents : FileId → String

namespace FileSystem

def stat (fs : FileSystem) (path : String) : Option FileId := fs.entries.lookup path

def realpath (fs : FileSystem) (path : String) : Option String :=
  let target := (fs.symlinks.lookup path).getD path
  if (fs.stat target).isSome then some target else none

def nlink (fs : FileSystem) (id : FileId) : Nat := fs.entries.countP fun entry => entry.2 = id

def readFile (fs : FileSystem) (path : String) : Option String :=
  (fs.realpath path).bind fun target => (fs.stat target).map fs.contents

/-- Put a new file in the place of a directory entry. -/
def rename (fs : FileSystem) (fresh : FileId) (content target : String) : FileSystem :=
  { fs with
    entries := (target, fresh) :: fs.entries.filter fun entry => entry.1 ≠ target
    contents := Function.update fs.contents fresh content }

def writeFile (fs : FileSystem) (fresh : FileId) (content target : String) : FileSystem :=
  match fs.stat target with
  | some id => { fs with contents := Function.update fs.contents id content }
  | none => fs.rename fresh content target

end FileSystem

/-- What the process reads of its platform; the version is the digest of a text's canonical form. -/
structure Host where
  resolve : String → String
  caseInsensitive : Bool
  computeVersion : String → String

def isSeparator (c : Char) : Bool := c.toNat = 47 || c.toNat = 92

def stripTrailingSeparators (filePath : String) : String :=
  let stripped := String.ofList (filePath.toList.rdropWhile isSeparator)
  if stripped = "" then filePath else stripped

/-- The key of a path without a file has its ASCII letters lowered, where `toLowerCase` lowers all. -/
def normalizeLockKey (host : Host) (fs : FileSystem) (filePath : String) : String :=
  let stripped := stripTrailingSeparators filePath
  match (fs.realpath stripped).bind fs.stat with
  | some id => "ino:" ++ toString id.dev ++ ":" ++ toString id.ino
  | none =>
    let fallback := host.resolve stripped
    if host.caseInsensitive then fallback.toLower else fallback

structure FileEdit where
  filePath : String
  version : String
  edited : Option String → Option String

/-- What one file's edits came to; no content is an error. -/
structure ProcessedFile where
  file : FileEdit
  existed : Bool
  content : Option String

def processSingleFile (host : Host) (fs : FileSystem) (file : FileEdit) : ProcessedFile :=
  match fs.readFile file.filePath with
  | none => { file := file, existed := false, content := file.edited none }
  | some raw =>
    { file := file
      existed := true
      content := if host.computeVersion raw = file.version then file.edited (some raw) else none }

def verifyFileUnchanged (host : Host) (fs : FileSystem) (result : ProcessedFile) : Bool :=
  match fs.readFile result.file.filePath with
  | none => !result.existed
  | some raw => result.existed && host.computeVersion raw = result.file.version

structure StagedWrite where
  filePath : String
  content : String
  target : String
  inPlace : Bool

def resolveWriteTarget (fs : FileSystem) (filePath : String) : String × Bool :=
  match fs.realpath filePath with
  | none => (filePath, false)
  | some target => (target, (fs.stat target).any fun id => 1 < fs.nlink id)

def stageWrite (fs : FileSystem) (result : ProcessedFile) : StagedWrite :=
  let resolved := resolveWriteTarget fs result.file.filePath
  { filePath := result.file.filePath
    content := result.content.getD ""
    target := resolved.1
    inPlace := resolved.2 }

def commitWrite (fs : FileSystem) (fresh : FileId) (write : StagedWrite) : FileSystem :=
  if write.inPlace then fs.writeFile fresh write.content write.target
  else fs.rename fresh write.content write.target

/-- Where a batch is between the return of its locks and their release. -/
inductive Stage where
  | reading (todo : List FileEdit) (results : List ProcessedFile)
  | checking (todo : List ProcessedFile) (conflicts : Bool) (results : List ProcessedFile)
  | resolving (todo : List ProcessedFile) (staged : List StagedWrite)
  | writing (todo : List StagedWrite)
  | finished

def afterRead (host : Host) (fs : FileSystem) (file : FileEdit) (todo : List FileEdit)
    (results : List ProcessedFile) : Stage :=
  let results := results ++ [processSingleFile host fs file]
  if todo.isEmpty then
    -- one failed file fails the whole batch before anything is written
    if results.all fun result => result.content.isSome then .checking results false results
    else .finished
  else .reading todo results

def afterCheck (host : Host) (fs : FileSystem) (result : ProcessedFile)
    (todo : List ProcessedFile) (conflicts : Bool) (results : List ProcessedFile) : Stage :=
  let conflicts := conflicts || !verifyFileUnchanged host fs result
  if todo.isEmpty then if conflicts then .finished else .resolving results []
  else .checking todo conflicts results

def afterResolve (fs : FileSystem) (result : ProcessedFile) (todo : List ProcessedFile)
    (staged : List StagedWrite) : Stage :=
  let staged := staged ++ [stageWrite fs result]
  if todo.isEmpty then .writing staged else .resolving todo staged

def afterWrite (todo : List StagedWrite) : Stage :=
  if todo.isEmpty then .finished else .writing todo

/-- Where a batch is: requesting its locks in order, waiting for one, holding all, or done. -/
inductive Phase where
  | acquiring (rest : List String)
  | waiting (ticket : Nat) (rest : List String)
  | locked (stage : Stage)
  | done

structure Batch where
  files : List FileEdit
  phase : Phase

structure LockRequest where
  batch : Nat
  path : String

structure Editor where
  fs : FileSystem
  locks : Mutexes String LockRequest
  batches : List Batch

/-- The paths whose key an earlier path of the batch has. -/
def duplicates (key : String → String) (seen : List String) : List String → List String
  | [] => []
  | path :: paths =>
    if key path ∈ seen then path :: duplicates key seen paths
    else duplicates key (key path :: seen) paths

def unique (key : String → String) (seen : List String) : List String → List String
  | [] => []
  | path :: paths =>
    if key path ∈ seen then unique key seen paths
    else path :: unique key (key path :: seen) paths

def acquirePathLocks (host : Host) (fs : FileSystem) (paths : List String) : List String :=
  Graph.sortBy (normalizeLockKey host fs) (unique (normalizeLockKey host fs) [] paths)

def acquired (files : List FileEdit) (rest : List String) : Phase :=
  if rest.isEmpty then .locked (.reading files []) else .acquiring rest

def execute (host : Host) (fs : FileSystem) (files : List FileEdit) : Batch :=
  let paths := files.map FileEdit.filePath
  { files := files
    phase :=
      if (duplicates (normalizeLockKey host fs) [] paths).isEmpty then
        acquired files (acquirePathLocks host fs paths)
      else .done }

inductive Event where
  | start (batch : Nat) (files : List FileEdit)
  | request (batch : Nat) (path : String)
  | grant (batch : Nat)
  | read (batch : Nat) (path : String)
  | check (batch : Nat) (path : String)
  | resolve (batch : Nat) (path : String)
  | write (batch : Nat) (path : String) (fresh : FileId)
  | release (batch : Nat)
  | settle (ticket : Nat)
  | forget (key : String)
  | external (fs : FileSystem)

/-- What runs between two awaits; a critical section may be left, files may change, at any point. -/
inductive Step (host : Host) : Editor → Event → Editor → Prop where
  | start {s : Editor} (files : List FileEdit) :
      Step host s (.start s.batches.length files)
        { s with batches := s.batches ++ [execute host s.fs files] }
  | request {s : Editor} {b : Nat} {files : List FileEdit} {path : String} {rest : List String}
      (hbatch : s.batches[b]? = some { files := files, phase := .acquiring (path :: rest) }) :
      Step host s (.request b path)
        { s with
          locks := s.locks.request (normalizeLockKey host s.fs path) { batch := b, path := path }
          batches := s.batches.set b
            { files := files, phase := .waiting s.locks.tickets.length rest } }
  | grant {s : Editor} {b i : Nat} {files : List FileEdit} {rest : List String}
      {t : Ticket String LockRequest}
      (hbatch : s.batches[b]? = some { files := files, phase := .waiting i rest })
      (ht : s.locks.tickets[i]? = some t) (hpassed : s.locks.passed t = true) :
      Step host s (.grant b)
        { s with
          locks := s.locks.grant i
          batches := s.batches.set b { files := files, phase := acquired files rest } }
  | read {s : Editor} {b : Nat} {files : List FileEdit} {file : FileEdit} {todo : List FileEdit}
      {results : List ProcessedFile}
      (hbatch : s.batches[b]? =
        some { files := files, phase := .locked (.reading (file :: todo) results) }) :
      Step host s (.read b file.filePath)
        { s with
          batches := s.batches.set b
            { files := files, phase := .locked (afterRead host s.fs file todo results) } }
  | check {s : Editor} {b : Nat} {files : List FileEdit} {result : ProcessedFile}
      {todo : List ProcessedFile} {conflicts : Bool} {results : List ProcessedFile}
      (hbatch : s.batches[b]? =
        some { files := files, phase := .locked (.checking (result :: todo) conflicts results) }) :
      Step host s (.check b result.file.filePath)
        { s with
          batches := s.batches.set b
            { files := files
              phase := .locked (afterCheck host s.fs result todo conflicts results) } }
  | resolve {s : Editor} {b : Nat} {files : List FileEdit} {result : ProcessedFile}
      {todo : List ProcessedFile} {staged : List StagedWrite}
      (hbatch : s.batches[b]? =
        some { files := files, phase := .locked (.resolving (result :: todo) staged) }) :
      Step host s (.resolve b result.file.filePath)
        { s with
          batches := s.batches.set b
            { files := files, phase := .locked (afterResolve s.fs result todo staged) } }
  | write {s : Editor} {b : Nat} {files : List FileEdit} {write : StagedWrite}
      {todo : List StagedWrite} {fresh : FileId}
      (hbatch : s.batches[b]? =
        some { files := files, phase := .locked (.writing (write :: todo)) })
      (hfresh : ∀ entry ∈ s.fs.entries, entry.2 ≠ fresh) :
      Step host s (.write b write.filePath fresh)
        { s with
          fs := commitWrite s.fs fresh write
          batches := s.batches.set b { files := files, phase := .locked (afterWrite todo) } }
  | release {s : Editor} {b : Nat} {files : List FileEdit} {stage : Stage}
      (hbatch : s.batches[b]? = some { files := files, phase := .locked stage }) :
      Step host s (.release b)
        { s with
          locks := s.locks.release fun tag => tag.batch = b
          batches := s.batches.set b { files := files, phase := .done } }
  | settle {s : Editor} {i : Nat} {t : Ticket String LockRequest}
      (ht : s.locks.tickets[i]? = some t) (hreleased : t.released = true)
      (hpassed : s.locks.passed t = true) :
      Step host s (.settle i) { s with locks := s.locks.settle i }
  | forget {s : Editor} {key : String} {i : Nat} {t : Ticket String LockRequest}
      (htail : s.locks.tails key = some i) (ht : s.locks.tickets[i]? = some t)
      (hsettled : t.settled = true) :
      Step host s (.forget key) { s with locks := s.locks.forget key }
  | external {s : Editor} (fs : FileSystem) : Step host s (.external fs) { s with fs := fs }

def opened (fs : FileSystem) : Editor := { fs := fs, locks := Mutexes.empty, batches := [] }

end Rolebox.Hashline
