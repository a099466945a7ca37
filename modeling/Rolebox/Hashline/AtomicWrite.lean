import Rolebox.General.Disk
import Rolebox.Hashline.PathLock

/-! Writing a batch of edited files by temporary files and renames. Every call may fail. -/

namespace Rolebox.Hashline.AtomicWrite
open General

abbrev Files := Disk String FileId String

/-- The entry a path leads to, the path of a new file beside one, and a path's normal form. -/
structure Paths where
  entryOf : String → String
  beside : String → String → String
  resolve : String → String
  caseInsensitive : Bool

/-- How a call that changes files ends; a write that fails may leave other text behind. -/
inductive Fate where
  | done
  | failed (cause : String) (left : Option String)

/-- One entry of a batch, and what the platform answers while it is written. -/
structure Entry where
  filePath : String
  content : String
  random : String
  inode : FileId
  probeFails : Bool
  realpathFails : Bool
  stat : Option String
  stage : Fate
  commit : Fate
  unlinkFails : Bool

/-- `writeFile`: an existing file keeps its names. -/
def writeFile (d : Files) (name : String) (inode : FileId) (content : String) (fate : Fate) :
    Files × Option String :=
  let put := fun text =>
    match d.stat name with
    | some id => d.write id text
    | none => d.create name inode text
  match fate with
  | .done => (put content, none)
  | .failed cause none => (d, some cause)
  | .failed cause (some left) => (put left, some cause)

def renameFile (d : Files) (old new : String) (fate : Fate) : Files × Option String :=
  match fate with
  | .failed cause _ => (d, some cause)
  | .done =>
    match d.rename old new with
    | some d => (d, none)
    | none =>
      (d, some ("ENOENT: no such file or directory, rename '" ++ old ++ "' -> '" ++ new ++ "'"))

/-- The key of a path without a file has its ASCII letters lowered, where `toLowerCase` lowers all. -/
def normalizeLockKey (paths : Paths) (d : Files) (e : Entry) : String :=
  let stripped := stripTrailingSeparators e.filePath
  match if e.probeFails then none else d.stat (paths.entryOf stripped) with
  | some id => "ino:" ++ toString id.dev ++ ":" ++ toString id.ino
  | none =>
    let fallback := paths.resolve stripped
    if paths.caseInsensitive then fallback.toLower else fallback

structure Resolved extends Entry where
  target : String
  inPlace : Bool

/-- What `realpath` cannot follow stays; a file with more names than one is written in place. -/
def resolveWriteTarget (paths : Paths) (d : Files) (e : Entry) : Except String Resolved :=
  match if e.realpathFails then none else d.realpath (paths.entryOf e.filePath) with
  | none => .ok { e with target := paths.entryOf e.filePath, inPlace := false }
  | some resolved =>
    match e.stat with
    | some cause => .error cause
    | none =>
      .ok { e with
        target := resolved
        inPlace := (d.stat resolved).any fun id => decide (1 < d.nlink id) }

def Resolved.tmp (paths : Paths) (r : Resolved) : String :=
  paths.beside r.target ("." ++ r.random ++ ".tmp")

def discard (paths : Paths) (d : Files) (r : Resolved) : Files :=
  if r.unlinkFails then d else d.unlink (r.tmp paths)

def cleanupTemps (paths : Paths) (d : Files) (temps : List Resolved) : Files :=
  temps.foldl (discard paths) d

inductive WritePhase where
  | staging
  | commit
  deriving DecidableEq

def WritePhase.text : WritePhase → String
  | .staging => "staging"
  | .commit => "commit"

structure BatchWriteError where
  written : List String
  failed : String
  phase : WritePhase
  cause : String
  deriving DecidableEq

def BatchWriteError.message (err : BatchWriteError) : String :=
  let writtenList := if err.written.isEmpty then "none" else String.intercalate ", " err.written
  "atomicWriteBatch " ++ err.phase.text ++ " phase failed on \"" ++ err.failed ++ "\": " ++
    err.cause ++ " (written: " ++ writtenList ++ ")."

inductive WriteError where
  | plain (message : String)
  | batch (err : BatchWriteError)
  deriving DecidableEq

def duplicateTarget (paths : Paths) (d : Files) (seen : List String) : List Entry → Option String
  | [] => none
  | e :: es =>
    if normalizeLockKey paths d e ∈ seen then some e.filePath
    else duplicateTarget paths d (normalizeLockKey paths d e :: seen) es

structure StagedFile where
  tmp : String
  target : String

/-- The temporary files of the entries not written in place, and where each is to go. -/
def stageAll (paths : Paths) (d : Files) (temps : List Resolved)
    (staged : List (String × StagedFile)) :
    List Resolved → Files × Except BatchWriteError (List Resolved × List (String × StagedFile))
  | [] => (d, .ok (temps, staged))
  | r :: rs =>
    if r.inPlace then stageAll paths d temps staged rs
    else
      let temps := temps ++ [r]
      match writeFile d (r.tmp paths) r.inode r.content r.stage with
      | (d, some cause) =>
        (cleanupTemps paths d temps,
          .error { written := [], failed := r.filePath, phase := .staging, cause := cause })
      | (d, none) =>
        stageAll paths d temps
          (assign r.filePath { tmp := r.tmp paths, target := r.target } staged) rs

def commitOne (d : Files) (staged : List (String × StagedFile)) (r : Resolved) :
    Files × Option String :=
  if r.inPlace then writeFile d r.target r.inode r.content r.commit
  else
    match staged.lookup r.filePath with
    | some s => renameFile d s.tmp s.target r.commit
    | none => (d, some "Cannot read properties of undefined (reading 'tmp')")

def commitAll (paths : Paths) (temps : List Resolved) (staged : List (String × StagedFile))
    (d : Files) (written : List String) : List Resolved → Files × Option BatchWriteError
  | [] => (d, none)
  | r :: rs =>
    match commitOne d staged r with
    | (d, none) => commitAll paths temps staged d (written ++ [r.filePath]) rs
    | (d, some cause) =>
      (cleanupTemps paths d temps,
        some { written := written, failed := r.filePath, phase := .commit, cause := cause })

def writeResolved (paths : Paths) (d : Files) (rs : List Resolved) :
    Files × Option BatchWriteError :=
  match stageAll paths d [] [] rs with
  | (d, .error err) => (d, some err)
  | (d, .ok (temps, staged)) => commitAll paths temps staged d [] rs

def atomicWriteBatch (paths : Paths) (d : Files) (es : List Entry) : Files × Option WriteError :=
  match duplicateTarget paths d [] es with
  | some filePath =>
    (d, some (.plain ("atomicWriteBatch: duplicate target path \"" ++ filePath ++ "\"")))
  | none =>
    match es.mapM (resolveWriteTarget paths d) with
    | .error cause => (d, some (.plain cause))
    | .ok rs =>
      match writeResolved paths d rs with
      | (d, err) => (d, err.map .batch)

def atomicWriteFile (paths : Paths) (d : Files) (e : Entry) : Files × Option WriteError :=
  match resolveWriteTarget paths d e with
  | .error cause => (d, some (.plain cause))
  | .ok r =>
    if r.inPlace then
      match writeFile d r.target r.inode r.content r.commit with
      | (d, cause) => (d, cause.map .plain)
    else
      match writeFile d (r.tmp paths) r.inode r.content r.stage with
      | (d, some cause) => (discard paths d r, some (.plain cause))
      | (d, none) =>
        match renameFile d (r.tmp paths) r.target r.commit with
        | (d, some cause) => (discard paths d r, some (.plain cause))
        | (d, none) => (d, none)

/-- The end of an edit: all files written, a conflict found before the first write, or an error. -/
inductive Reply where
  | written
  | conflict (conflicts : List String)
  | failed (entries : List Entry) (err : WriteError)

def writeFiles (paths : Paths) (d : Files) : List Entry → Files × Option WriteError
  | [e] => atomicWriteFile paths d e
  | es => atomicWriteBatch paths d es

def execute (paths : Paths) (d : Files) (conflicts : List String) (es : List Entry) :
    Files × Reply :=
  if conflicts.isEmpty then
    match writeFiles paths d es with
    | (d, none) => (d, .written)
    | (d, some err) => (d, .failed es err)
  else (d, .conflict conflicts)

def conflictLine : String :=
  "Error: Edit failed: files changed while the edit was being computed. No files were written."

def nothingWrittenLine : String := "No files were written."

def failureLine (causeText : String) : String :=
  "Error: Write failed: file system error (" ++ causeText ++ ")."

def accountLines (err : BatchWriteError) (es : List Entry) : List String :=
  let notWritten := (es.map Entry.filePath).filter fun filePath =>
    filePath ≠ err.failed && !err.written.contains filePath
  ["Failed file: " ++ err.failed ++ ".", if err.written.isEmpty then nothingWrittenLine
    else "Files written before the failure: " ++ String.intercalate ", " err.written ++ ".",
    "Files not written: " ++ String.intercalate ", " notWritten]

/-- The lines of the report; the report of a success says nothing of failures. -/
def Reply.lines : Reply → List String
  | .written => []
  | .conflict conflicts =>
    [conflictLine, ""] ++ conflicts ++
      ["", "Re-read each file with hashline_read to get fresh versions and anchors, then retry."]
  | .failed es (.plain message) =>
    [failureLine message, "Failed file: " ++ (es.head?.map Entry.filePath).getD "" ++ "."]
  | .failed es (.batch err) => failureLine err.message :: accountLines err es

end Rolebox.Hashline.AtomicWrite
