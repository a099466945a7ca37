import Mathlib.Data.List.Basic

/-! The task records of the dispatch manager. -/

namespace Rolebox.Dispatch

inductive DispatchTaskStatus where
  | pending | running | completed | awaitingApproval | error | cancelled | timeout
  deriving DecidableEq

inductive TaskMode where
  | background | sync

structure DispatchTask where
  id : String
  sessionId : String
  parentSessionId : String
  status : DispatchTaskStatus
  agent : String
  prompt : String
  startedAt : Int
  completedAt : Option Int := none
  error : Option String := none
  timeoutMs : Option Int := none
  messageCountAtStart : Option Nat := none
  mode : TaskMode := .background

instance : Inhabited DispatchTask := ⟨⟨"", "", "", .pending, "", "", 0, none, none, none, none, .background⟩⟩

end Rolebox.Dispatch
