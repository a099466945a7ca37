import Rolebox.Artifacts.ArtifactStore
import Rolebox.General.Interaction
import Rolebox.Policy.TrustedCommands

/-! The command gate: a command runs between two equal readings of its artifacts. -/

namespace Rolebox.Policy
open General Artifacts

def slash : CodeUnit := 47

def dot : CodeUnit := 46

def pushSegment (path : List JsText) (segment : JsText) : List JsText :=
  if segment = [] ∨ segment = [dot] then path
  else if segment = [dot, dot] then path.dropLast
  else path ++ [segment]

def normalize (path : JsText) : JsText :=
  slash :: [slash].intercalate ((path.splitOn slash).foldl pushSegment [])

def resolve (root ref : JsText) : JsText :=
  if ref.head? = some slash then normalize ref else normalize (root ++ slash :: ref)

def isInside (root candidate : JsText) : Bool :=
  candidate = root ||
    (if root.getLast? = some slash then root else root ++ [slash]).isPrefixOf candidate

structure ArtifactEvidence where
  ref : JsText
  artifactId : String
  digest : String
  size : Nat

inductive CommandRunResult where
  | exited (exitCode : Option Double) (signal : Option JsText)
  | unavailable (reason : JsText)

/-- What starting a program without a shell answers. -/
structure SpawnResult where
  error : Option JsText
  status : Option Double
  signal : Option JsText

inductive Verdict where
  | pass
  | fail
  | indeterminate

structure CommandExitEvidence extends CompletionPolicyMapping where
  argv : List JsText
  cwd : JsText
  expectExitCode : Double
  exitCode : Option Double
  signal : Option JsText
  artifactRevisions : List ArtifactEvidence
  verdict : Verdict
  reason : JsText

/-- What the gate asks of its host; a failure answers the text of its error. -/
inductive GateCall where
  | realpath (path : JsText)
  | isFile (path : JsText)
  | readFile (path : JsText)
  | spawn (executable : JsText) (args : List JsText) (cwd : JsText) (timeoutMs : Double)
  | run (argv : List JsText) (cwd : JsText) (timeoutMs : Double)
  | putArtifact (storeRoot : String) (bytes : Bytes)
  | onCheck (evidence : CommandExitEvidence)

abbrev GateCall.Answer : GateCall → Type
  | .realpath _ => Except JsText JsText
  | .isFile _ => Except JsText Bool
  | .readFile _ => Except JsText Bytes
  | .spawn .. => Except JsText SpawnResult
  | .run .. => Except JsText CommandRunResult
  | .putArtifact .. => ArtifactDepositResult
  | .onCheck _ => Unit

abbrev Gate : Interface := { Call := GateCall, Answer := GateCall.Answer }

def ask (c : GateCall) : Program Gate (GateCall.Answer c) := Program.ask (I := Gate) c

section Readings

inductive ArtifactRead where
  | read (evidence : ArtifactEvidence) (bytes : Bytes)
  | problem (reason : JsText)

structure RevisionEntry where
  evidence : ArtifactEvidence
  bytes : Bytes

def refProblem (ref : JsText) (problem : JsText) : ArtifactRead :=
  .problem (text "evidence reference " ++ token ref ++ problem)

def failed (what : String) (error : JsText) : JsText :=
  text (" " ++ what ++ " (") ++ error ++ text ")"

variable (digestOf : Bytes → String)

def evidenceFor (ref : JsText) (bytes : Bytes) : ArtifactEvidence where
  ref := ref
  artifactId := artifactIdOf (digestOf bytes)
  digest := digestOf bytes
  size := bytes.length

def readArtifact (root ref : JsText) : Program Gate ArtifactRead :=
  if ref = [] ∨ nul ∈ ref then
    pure (refProblem ref (text " is empty or contains a NUL byte"))
  else do
    match ← ask (.realpath root) with
    | .error error =>
      pure (.problem (text "the artifact root " ++ token root ++
        failed "cannot be resolved" error))
    | .ok realRoot =>
      if isInside realRoot (resolve realRoot ref) then
        match ← ask (.realpath (resolve realRoot ref)) with
        | .error error => pure (refProblem ref (failed "does not resolve to a real path" error))
        | .ok realPath =>
          if isInside realRoot realPath then
            match ← ask (.isFile realPath) with
            | .error error => pure (refProblem ref (failed "cannot be examined" error))
            | .ok false => pure (refProblem ref (text " is not a regular file"))
            | .ok true =>
              match ← ask (.readFile realPath) with
              | .error error => pure (refProblem ref (failed "cannot be read" error))
              | .ok bytes => pure (.read (evidenceFor digestOf ref bytes) bytes)
          else
            pure (refProblem ref (text " resolves through a link to " ++ token realPath ++
              text ", outside the artifact root " ++ token realRoot))
      else
        pure (refProblem ref (text " escapes the artifact root " ++ token realRoot))

def readRevisions (root : JsText) : List JsText → Program Gate (Except JsText (List RevisionEntry))
  | [] => pure (.ok [])
  | ref :: refs => do
    match ← readArtifact digestOf root ref with
    | .problem reason => pure (.error reason)
    | .read evidence bytes =>
      match ← readRevisions root refs with
      | .error reason => pure (.error reason)
      | .ok entries => pure (.ok ({ evidence := evidence, bytes := bytes } :: entries))

def evidenceOf (entries : List RevisionEntry) : List ArtifactEvidence :=
  entries.map RevisionEntry.evidence

def sameRevisions (before after : List RevisionEntry) : Bool :=
  before.length = after.length && (before.zip after).all fun (entry, other) =>
    entry.evidence.ref = other.evidence.ref && entry.evidence.digest = other.evidence.digest &&
      entry.evidence.size = other.evidence.size

def describeRevisionChange (before after : List RevisionEntry) : JsText :=
  let changed := before.zipIdx.filterMap fun (entry, index) =>
    match after[index]? with
    | none => some (token entry.evidence.ref)
    | some other =>
      if other.evidence.digest ≠ entry.evidence.digest then some (token entry.evidence.ref)
      else none
  if changed = [] then text "a reference set changed" else (text ", ").intercalate changed

def depositRevisions (storeRoot : String) :
    List RevisionEntry → Program Gate (Except JsText (List ArtifactEvidence))
  | [] => pure (.ok [])
  | entry :: entries => do
    match ← ask (.putArtifact storeRoot entry.bytes) with
    | .problem reason =>
      pure (.error (text "artifact " ++ token entry.evidence.ref ++ text " could not be retained: " ++
        text reason))
    | .deposited artifactId digest size =>
      match ← depositRevisions storeRoot entries with
      | .error reason => pure (.error reason)
      | .ok retained =>
        pure (.ok ({ entry.evidence with artifactId := artifactId, digest := digest, size := size } ::
          retained))

end Readings

section Validator

inductive ValidationOutcome where
  | pass (evidence : List ArtifactEvidence)
  | fail (reason : JsText)
  | indeterminate (reason : JsText)

/-- What the gate is built with; `run` and `onCheck`: the host gives a runner, observes checks. -/
structure CommandExitValidatorOptions where
  commands : List TrustedCommandBinding
  run : Bool
  onCheck : Bool
  artifactStoreRoot : Option String

structure ValidatorRequest extends CompletionPolicyMapping where
  artifactRoot : JsText

def runCommandDirectly (argv : List JsText) (cwd : JsText) (timeoutMs : Double) :
    Program Gate (Except JsText CommandRunResult) :=
  match argv with
  | [] => pure (.ok (.unavailable (text "the command has no program")))
  | executable :: args => do
    match ← ask (.spawn executable args cwd timeoutMs) with
    | .error error => pure (.error error)
    | .ok result =>
      match result.error with
      | some error => pure (.ok (.unavailable error))
      | none => pure (.ok (.exited result.status result.signal))

variable (options : CommandExitValidatorOptions) (binding : TrustedCommandBinding)

def runCommand : Program Gate (Except JsText CommandRunResult) :=
  if options.run then ask (.run binding.argv binding.cwd binding.timeoutMs)
  else runCommandDirectly binding.argv binding.cwd binding.timeoutMs

def record (revisions : List ArtifactEvidence) (exitCode : Option Double) (signal : Option JsText)
    (verdict : Verdict) (reason : JsText) : Program Gate ValidationOutcome := do
  if options.onCheck then
    ask (.onCheck
      { binding.toCompletionPolicyMapping with
        argv := binding.argv, cwd := binding.cwd, expectExitCode := binding.expectExitCode
        exitCode := exitCode, signal := signal, artifactRevisions := revisions
        verdict := verdict, reason := reason })
  match verdict with
  | .pass => pure (.pass revisions)
  | .fail => pure (.fail reason)
  | .indeterminate => pure (.indeterminate reason)

def numberToken (x : Double) : JsText := JsText.ofText x.numberText

def unauthorizedReason (mapping : CompletionPolicyMapping) : JsText :=
  text "no trusted command policy authorizes a check for " ++ describeMapping mapping ++
    text (" — the command a requirement is judged by comes from the host, never from the " ++
      "submission, and an unauthorized mapping is never treated as passed")

def noStoreReason : JsText :=
  text ("this host has no artifact store root to deposit the revision into, so a required " ++
    "command-exit gate could never retain the bytes it verified — no command was run, and the " ++
    "gate is never treated as passed")

def changedReason (before after : List RevisionEntry) : JsText :=
  text "the artifacts changed while the trusted command ran (" ++
    describeRevisionChange before after ++
    text "), so its result describes no fixed artifact revision"

def killedReason (signal : Option JsText) : JsText :=
  text "the trusted command did not exit on its own (signal " ++
    (match signal with
    | none => text "null"
    | some signal => token signal) ++
    text ") — a killed or timed-out check never satisfies a required gate"

def exitReason (exitCode expected : Double) : JsText :=
  text "the trusted command exited with code " ++ numberToken exitCode ++
    text ", and this mapping requires " ++ numberToken expected

def undepositedReason (expected : Double) (reason : JsText) : JsText :=
  text "the trusted command exited with the required code " ++ numberToken expected ++
    text " against a fixed artifact revision, but that revision could not be deposited (" ++
    reason ++
    text ") — an acceptance naming it could never produce it, so the gate does not pass"

def passReason (expected : Double) (cwd : JsText) : JsText :=
  text "the trusted command exited with the required code " ++ numberToken expected ++
    text " in " ++ token cwd ++ text (" against the recorded artifact revision, which was " ++
      "deposited as the revision this pass names")

variable (digestOf : Bytes → String)

def judge (storeRoot : String) (artifactRoot : JsText) (before : List RevisionEntry)
    (exitCode : Option Double) (signal : Option JsText) : Program Gate ValidationOutcome := do
  let indeterminate (revisions : List RevisionEntry) (reason : JsText) :=
    record options binding (evidenceOf revisions) exitCode signal .indeterminate reason
  match ← readRevisions digestOf artifactRoot binding.artifactRefs with
  | .error reason =>
    indeterminate before
      (text ("the artifacts this check is bound to could not be re-read after the command ran: ") ++
        reason)
  | .ok after =>
    if sameRevisions before after then
      match signal, exitCode with
      | none, some code =>
        if code.value = binding.expectExitCode.value then
          match ← depositRevisions storeRoot after with
          | .error reason =>
            indeterminate after (undepositedReason binding.expectExitCode reason)
          | .ok evidence =>
            record options binding evidence exitCode signal .pass
              (passReason binding.expectExitCode binding.cwd)
        else
          record options binding (evidenceOf before) exitCode signal .fail
            (exitReason code binding.expectExitCode)
      | _, _ => indeterminate before (killedReason signal)
    else indeterminate before (changedReason before after)

def checkCommand (storeRoot : String) (artifactRoot : JsText) : Program Gate ValidationOutcome := do
  match ← readRevisions digestOf artifactRoot binding.artifactRefs with
  | .error reason =>
    record options binding [] none none .indeterminate
      (text ("the artifacts this check is bound to could not be read before the command ran: ") ++
        reason)
  | .ok before =>
    match ← runCommand options binding with
    | .error error =>
      record options binding (evidenceOf before) none none .indeterminate
        (text "the trusted command could not be executed (" ++ error ++ text ")")
    | .ok (.unavailable reason) =>
      record options binding (evidenceOf before) none none .indeterminate
        (text "the trusted command could not be executed: " ++ reason)
    | .ok (.exited exitCode signal) =>
      judge options binding digestOf storeRoot artifactRoot before exitCode signal

def installBindings (commands : List (JsText × TrustedCommandBinding)) :
    List TrustedCommandBinding → Except JsText (List (JsText × TrustedCommandBinding))
  | [] => .ok commands
  | binding :: bindings => do
    assertCommandBinding binding
    if binding.key ∈ commands.map Prod.fst then
      .error (text "command-exit-validator: mapping " ++
        describeMapping binding.toCompletionPolicyMapping ++
        text " is authorized twice — one mapping has exactly one trusted command")
    else installBindings (commands ++ [(binding.key, binding)]) bindings

def createCommandExitValidator :
    Except JsText (ValidatorRequest → Program Gate ValidationOutcome) := do
  let commands ← installBindings [] options.commands
  return fun request =>
    match commands.lookup (commandMappingKey request.toCompletionPolicyMapping) with
    | none => pure (.indeterminate (unauthorizedReason request.toCompletionPolicyMapping))
    | some binding =>
      match options.artifactStoreRoot with
      | none => record options binding [] none none .indeterminate noStoreReason
      | some storeRoot =>
        checkCommand options binding digestOf storeRoot request.artifactRoot

end Validator

end Rolebox.Policy
