import Rolebox.General.Disk
import Rolebox.General.Transition
import Rolebox.Graph.AttemptCredential

/-! The artifact store: deposits by a temporary file, a link and a verifying read. -/

namespace Rolebox.Artifacts
open General

abbrev Bytes := List UInt8

abbrev Files := Disk String Nat Bytes

def ARTIFACT_STORE_DIR : String := "artifacts"

def TEMPORARY_PREFIX : String := ".deposit-"

def artifactIdOf (digest : String) : String := "sha256:" ++ digest

def isDigest (digits : List Char) : Bool := digits.length = 64 && digits.all Graph.isLowerHex

def isArtifactId (value : String) : Bool :=
  value.toList.take 7 = "sha256:".toList && isDigest (value.toList.drop 7)

def storeDirectory (root : String) : String := root ++ "/" ++ ARTIFACT_STORE_DIR

def artifactObjectPath (root artifactId : String) : String :=
  storeDirectory root ++ "/" ++ String.ofList (artifactId.toList.drop 7)

def temporaryPath (root random : String) : String :=
  storeDirectory root ++ "/" ++ (TEMPORARY_PREFIX ++ random)

inductive ArtifactObjectRead where
  | read (bytes : Bytes) (digest : String)
  | problem (reason : String)

def readArtifactById (digestOf : Bytes → String) (root : String) (d : Files) (readFails : Bool)
    (artifactId : String) : ArtifactObjectRead :=
  if isArtifactId artifactId then
    match if readFails then none else d.read (artifactObjectPath root artifactId) with
    | none =>
      .problem ("retained artifact " ++ artifactId ++ " is not present in this store — the " ++
        "accepted revision cannot be produced, and the reference the record carries is NOT " ++
        "re-read as a substitute")
    | some bytes =>
      if artifactIdOf (digestOf bytes) = artifactId then .read bytes (digestOf bytes)
      else
        .problem ("retained artifact " ++ artifactId ++ " does not hash to its own identity " ++
          "(read " ++ artifactIdOf (digestOf bytes) ++ ") — the object was altered after it was " ++
          "retained, so it is refused instead of returned")
  else
    .problem ("artifact identity " ++ Graph.quote artifactId ++ " is not a sha256 content " ++
      "identity — a retained artifact is named by its content and by nothing else")

section Deposits

inductive ArtifactDepositResult where
  | deposited (artifactId digest : String) (size : Nat)
  | problem (reason : String)

inductive Phase where
  | creatingDirectory
  | opening
  | writing (temporary : String) (inode : Nat) (rest : Bytes)
  | linking (temporary : String) (inode : Nat)
  | discarding (temporary : String) (inode : Nat) (answer : Option ArtifactDepositResult)
  | verifying
  | answered (result : ArtifactDepositResult)
  | crashed

structure Call where
  bytes : Bytes
  phase : Phase

inductive CallEvent where
  | directory (error : Option String)
  | opened (random : String) (inode : Nat)
  | openFailed (error : String)
  | wrote (chunk : Bytes)
  | closed
  | writeFailed (error : String)
  | linked
  | linkFailed (code : Option String) (error : String)
  | discarded (done : Bool)
  | verified (readFails : Bool)
  | crashed

variable (digestOf : Bytes → String) (root : String)

def Call.artifactId (c : Call) : String := artifactIdOf (digestOf c.bytes)

def directoryProblem (c : Call) (error : String) : ArtifactDepositResult :=
  .problem ("the artifact store directory " ++ Graph.quote (storeDirectory root) ++
    " could not be created (" ++ error ++ "), so " ++ c.artifactId digestOf ++ " was not deposited")

def writeProblem (c : Call) (error : String) : ArtifactDepositResult :=
  .problem ("the bytes of " ++ c.artifactId digestOf ++ " could not be written to a temporary " ++
    "file in the store (" ++ error ++ "), so nothing was published")

def linkProblem (c : Call) (error : String) : ArtifactDepositResult :=
  .problem (c.artifactId digestOf ++ " could not be published (" ++ error ++ ") — the temporary " ++
    "file was discarded and any existing object was left untouched")

def verifyExisting (d : Files) (readFails : Bool) (c : Call) : ArtifactDepositResult :=
  match readArtifactById digestOf root d readFails (c.artifactId digestOf) with
  | .read bytes digest => .deposited (c.artifactId digestOf) digest bytes.length
  | .problem reason =>
    .problem (c.artifactId digestOf ++ " is already published, but the existing object does not " ++
      "verify (" ++ reason ++ ") — a deposit never overwrites an object an accepted result may " ++
      "already name, and never repairs it in place")

/-- One call of the file system by one deposit; any may fail, the process end before each. -/
inductive CallStep (d : Files) (c : Call) : CallEvent → Files → Phase → Prop where
  | directory (hphase : c.phase = .creatingDirectory) : CallStep d c (.directory none) d .opening
  | directoryFailed (hphase : c.phase = .creatingDirectory) (error : String) :
      CallStep d c (.directory (some error)) d (.answered (directoryProblem digestOf root c error))
  | opened (hphase : c.phase = .opening) (random : String) (inode : Nat)
      (hnew : d.node (temporaryPath root random) = none)
      (hdrawn : ∀ name, d.node name ≠ some (.link (temporaryPath root random)))
      (hinode : ∀ name, d.node name ≠ some (.file inode)) :
      CallStep d c (.opened random inode) (d.create (temporaryPath root random) inode [])
        (.writing (temporaryPath root random) inode c.bytes)
  | openFailed (hphase : c.phase = .opening) (error : String) :
      CallStep d c (.openFailed error) d (.answered (writeProblem digestOf c error))
  | wrote {temporary : String} {inode : Nat} {chunk rest : Bytes}
      (hphase : c.phase = .writing temporary inode (chunk ++ rest)) :
      CallStep d c (.wrote chunk) (d.write inode (d.data inode ++ chunk))
        (.writing temporary inode rest)
  | closed {temporary : String} {inode : Nat} (hphase : c.phase = .writing temporary inode []) :
      CallStep d c .closed d (.linking temporary inode)
  -- the temporary file of a write that failed is left in the store
  | writeFailed {temporary : String} {inode : Nat} {rest : Bytes}
      (hphase : c.phase = .writing temporary inode rest) (error : String) :
      CallStep d c (.writeFailed error) d (.answered (writeProblem digestOf c error))
  | linked {temporary : String} {inode : Nat} {d' : Files}
      (hphase : c.phase = .linking temporary inode)
      (hlink : d.link temporary (artifactObjectPath root (c.artifactId digestOf)) = some d') :
      CallStep d c .linked d'
        (.discarding temporary inode
          (some (.deposited (c.artifactId digestOf) (digestOf c.bytes) c.bytes.length)))
  | linkFailed {temporary : String} {inode : Nat} (hphase : c.phase = .linking temporary inode)
      (code : Option String) (error : String) :
      CallStep d c (.linkFailed code error) d
        (.discarding temporary inode
          (if code = some "EEXIST" then none else some (linkProblem digestOf c error)))
  | discarded {temporary : String} {inode : Nat} {answer : Option ArtifactDepositResult}
      (hphase : c.phase = .discarding temporary inode answer) (done : Bool) :
      CallStep d c (.discarded done) (if done then d.unlink temporary else d)
        (match answer with
        | some result => .answered result
        | none => .verifying)
  | verified (hphase : c.phase = .verifying) (readFails : Bool) :
      CallStep d c (.verified readFails) d
        (.answered (verifyExisting digestOf root d readFails c))
  | crashed : CallStep d c .crashed d .crashed

/-- The store's directory, the deposits so far, and the temporary names they drew. -/
structure Store where
  disk : Files
  calls : List Call
  drawn : List String

inductive Event where
  | start (bytes : Bytes)
  | call (index : Nat) (event : CallEvent)

def CallEvent.drawn : CallEvent → List String
  | .opened random _ => [temporaryPath root random]
  | _ => []

inductive Step : Store → Event → Store → Prop where
  | start {s : Store} (bytes : Bytes) :
      Step s (.start bytes)
        { s with calls := s.calls ++ [{ bytes := bytes, phase := .creatingDirectory }] }
  | call {s : Store} {i : Nat} {c : Call} {event : CallEvent} {d : Files} {phase : Phase}
      (hcall : s.calls[i]? = some c) (hstep : CallStep digestOf root s.disk c event d phase) :
      Step s (.call i event)
        { disk := d
          calls := s.calls.set i { c with phase := phase }
          drawn := event.drawn root ++ s.drawn }

/-- A store no deposit was made to yet, whatever its directory holds. -/
def opened (d : Files) : Store := { disk := d, calls := [], drawn := [] }

def stored (d : Files) (artifactId : String) : Option Bytes :=
  d.read (artifactObjectPath root artifactId)

end Deposits

end Rolebox.Artifacts
