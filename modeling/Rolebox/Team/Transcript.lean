import Rolebox.Team.Updates

/-! The transcript of a host session: final messages, prompts and failed turns. -/

namespace Rolebox.Team
open General List

/-- The error of a message: a text, a record whose fields may be texts, or anything else. -/
inductive HostError where
  | text (text : String)
  | record (message code : Option String)
  | other

inductive MessagePart where
  | text (text : String)
  | tool (status : Option String)
  | other

structure MessageInfo where
  id : String
  role : String
  finish : Option String
  error : Option HostError
  completed : Option Nat

structure Message where
  info : MessageInfo
  parts : List MessagePart

def HostError.truthy : HostError → Bool
  | text s => nonempty s
  | _ => true

def trim (s : String) : String :=
  String.ofList (Hashline.trimEnd (Hashline.trimStart s.toList))

def failureText : Option HostError → String
  | some (.text s) => if nonempty (trim s) then trim s else "Member turn failed"
  | some (.record message code) =>
    let message := (message.map trim).getD ""
    let code := (code.map trim).getD ""
    if nonempty message ∧ nonempty code then message ++ " (" ++ code ++ ")"
    else if nonempty message then message
    else if nonempty code then code
    else "Member turn failed"
  | _ => "Member turn failed"

def MessagePart.running : MessagePart → Bool
  | tool (some status) => status = "running" ∨ status = "pending"
  | _ => false

def lastAnswer : List Message → Option Message
  | [] => none
  | candidate :: earlier =>
    if candidate.info.role = "user" ∨ candidate.info.role = "idle" then none
    else if candidate.info.role = "assistant" then some candidate
    else lastAnswer earlier

def endedTurn (last : Message) (earlier : List Message) : Message :=
  let succeeded : Bool := last.info.finish = some "succeeded"
  { info :=
      { last.info with
        role := "assistant"
        finish := some (if succeeded then "stop" else "error")
        error :=
          if succeeded then last.info.error
          else some (last.info.error.getD (.text "Host turn failed or was interrupted")) }
    parts := ((lastAnswer earlier).map Message.parts).getD [] }

def finalOf : List Message → Option Message
  | [] => none
  | last :: earlier =>
    if last.info.role = "idle" then
      if last.info.finish.any (· ∈ ["succeeded", "failed", "interrupted"]) then
        some (endedTurn last earlier)
      else none
    else if last.info.role ≠ "assistant" then none
    else if last.parts.any MessagePart.running then none
    else if last.info.finish = some "tool-calls" ∨ last.info.finish = some "tool_use" then none
    else if last.info.completed.any (· ≠ 0) ∨ last.info.finish.any nonempty ∨
        last.info.error.any HostError.truthy then
      some last
    else none

def finalMessage (messages : List Message) : Option Message := finalOf messages.reverse

def Message.failed (message : Message) : Bool :=
  message.info.error.any HostError.truthy || message.info.finish = some "aborted" ||
    message.info.finish = some "error"

def failureReason (last : Message) : Option String :=
  if last.failed then
    some (failureText (some (last.info.error.getD (.text
      (if last.info.finish = some "aborted" then "Member turn was stopped" else "Member turn failed")))))
  else none

def TEAM_MARKER : String := "[rolebox-team "

def marker (deliveryId : String) : String := TEAM_MARKER ++ deliveryId ++ "]"

def MessagePart.startsWith (start : String) : MessagePart → Bool
  | text s => start.toList.isPrefixOf s.toList
  | _ => false

def Message.marks (deliveryId : String) (message : Message) : Bool :=
  message.parts.any (·.startsWith (marker deliveryId))

def markerIndex (messages : List Message) (deliveryId : String) : Option Nat :=
  messages.findIdx? (·.marks deliveryId)

def finalIndex (messages : List Message) (last : Message) : Option Nat :=
  messages.findIdx? fun message => message.info.id = last.info.id

def delivered (messages : List Message) (delivery : Option TeamDelivery) (last : Message) : Bool :=
  delivery.all fun delivery =>
    match markerIndex messages delivery.id, finalIndex messages last with
    | some marked, some final => decide (marked < final)
    | _, _ => false

/-- A turn the member has not recorded yet: its delivery's, and none from before it. -/
def unrecorded (member : TeamMember) (messages : List Message) (last : Message) : Bool :=
  delivered messages member.delivery last && decide (some last.info.id ≠ member.lastTurnId) &&
    member.delivery.all fun delivery => last.info.id ∉ delivery.baselineMessageIds

def turnStart (messages : List Message) (index : Nat) : Option Nat :=
  ((range (index + 1)).filter fun i =>
    (messages[i]?).any fun message => message.info.role = "user").getLast?

theorem le_turnStart {messages : List Message} {index final : Nat} {message : Message}
    (hmessage : messages[index]? = some message) (huser : message.info.role = "user")
    (hle : index ≤ final) : ∃ start, turnStart messages final = some start ∧ index ≤ start := by
  have hmem : index ∈ (range (final + 1)).filter fun i =>
      (messages[i]?).any fun message => message.info.role = "user" := by
    rw [mem_filter, mem_range, hmessage]
    exact ⟨Nat.lt_succ_of_le hle, by simp [huser]⟩
  have hsorted : ((range (final + 1)).filter fun i =>
      (messages[i]?).any fun message => message.info.role = "user").Pairwise (· < ·) :=
    pairwise_lt_range.filter _
  unfold turnStart
  have hne := ne_nil_of_mem hmem
  refine ⟨_, getLast?_eq_some_getLast hne, ?_⟩
  rw [← dropLast_append_getLast hne] at hsorted hmem
  rcases mem_append.1 hmem with hinit | hlast
  · have hlt := (pairwise_append.1 hsorted).2.2 index hinit _ (mem_singleton_self _)
    exact Nat.le_of_lt hlt
  · exact Nat.le_of_eq (mem_singleton.1 hlast)
end Rolebox.Team
