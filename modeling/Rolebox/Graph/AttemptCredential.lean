import Rolebox.Graph.Text

/-! The credential bound to one attempt, and the digest the state records for it. -/

namespace Rolebox.Graph

def SUBMIT_OUTCOME_PERMISSION : String := "submit-outcome"

structure AttemptCredentialBinding where
  graphId : String
  nodeId : String
  attemptId : String
  planRevision : String
  permission : String

def attemptCredentialBinding (graphId nodeId attemptId planRevision : String) :
    AttemptCredentialBinding :=
  { graphId := graphId
    nodeId := nodeId
    attemptId := attemptId
    planRevision := planRevision
    permission := SUBMIT_OUTCOME_PERMISSION }

def isLowerHex (c : Char) : Bool :=
  (48 ≤ c.toNat && c.toNat ≤ 57) || (97 ≤ c.toNat && c.toNat ≤ 102)

/-- `sha256:` followed by 64 lowercase hexadecimal digits. -/
def isAttemptCredentialDigest (value : String) : Bool :=
  let chars := value.toList
  chars.take 7 = "sha256:".toList ∧ (chars.drop 7).length = 64 ∧ (chars.drop 7).all isLowerHex

def isAttemptCredential (value : String) : Bool :=
  isNonEmpty value && !isAttemptCredentialDigest value

structure CredentialHost where
  source : AttemptCredentialBinding → String
  attemptCredentialDigest : String → String

def mintAttemptCredential (source : AttemptCredentialBinding → String)
    (binding : AttemptCredentialBinding) : Except String String :=
  let credential := source binding
  if isAttemptCredential credential then .ok credential
  else
    .error ("attempt-credential: the injected credential source answered " ++ quote credential ++
      " for attempt " ++ quote binding.nodeId ++
      " — an attempt credential is a non-empty string")

def CredentialHost.Usable (host : CredentialHost) : Prop :=
  ∀ binding, isAttemptCredential (host.source binding) = true

theorem mintAttemptCredential_ok {host : CredentialHost} (h : host.Usable)
    (binding : AttemptCredentialBinding) :
    mintAttemptCredential host.source binding = .ok (host.source binding) := by
  unfold mintAttemptCredential
  simp only [h binding, if_true]

end Rolebox.Graph
