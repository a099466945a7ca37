import Rolebox.General.Json
import Rolebox.Graph.Text

/-! Version 3 graph declarations, typed where the compiler's guard reads them. -/

namespace Rolebox.Graph
open General

structure NodeDeclarationV3 where
  id : String
  agent : String
  prompt : String
  outcomes : List Json
  completion : Option Json
  contractRef : Option Json
  join : Option Json
  budget : Option Json
  inputs : Option (List Json)
  tools : Option (List Json)
  toolPresentation : Option Json

structure EdgeDeclarationV3 where
  «from» : String
  «to» : String
  outcome : Option Json

structure LoopGroupDeclarationV3 where
  id : String
  nodes : List Json
  maxTraversals : Option Json
  continuationOutcome : Option Json
  exitOutcome : Option Json
  progress : Option Json

structure GraphDeclarationV3 where
  name : String
  nodes : List NodeDeclarationV3
  edges : List EdgeDeclarationV3
  loopGroups : Option (List LoopGroupDeclarationV3)
  completionPolicy : Option Json
  budget : Option Json

def guardedField (test : Json → Bool) (value : Json) (name : String) : Option (Option Json) :=
  match value.field? name with
  | none => some none
  | some raw => if test raw then some (some raw) else none

def guardedArray (test : Json → Bool) (value : Json) (name : String) :
    Option (Option (List Json)) :=
  match value.field? name with
  | none => some none
  | some raw => (raw.arr?.filter (·.all test)).map some

def isInputDeclaration (entry : Json) : Bool :=
  ((entry.field? "from").bind Json.text?).isSome &&
    ((entry.field? "outcome").bind Json.text?).isSome

def readNodeDeclarationV3 (value : Json) : Option NodeDeclarationV3 := do
  let id ← (value.field? "id").bind Json.text?
  let inputs ← guardedArray isInputDeclaration value "inputs"
  let tools ← guardedArray (fun _ => true) value "tools"
  let toolPresentation ← guardedField Json.isRecord value "toolPresentation"
  let agent ← (value.field? "agent").bind Json.str?
  let prompt ← (value.field? "prompt").bind Json.str?
  let outcomes ← (value.field? "outcomes").bind Json.arr?
  let completion ← guardedField Json.isContainer value "completion"
  let contractRef ← guardedField Json.isContainer value "contractRef"
  let join ← guardedField Json.isContainer value "join"
  let budget ← guardedField Json.isContainer value "budget"
  return {
    id := id
    agent := agent
    prompt := prompt
    outcomes := outcomes
    completion := completion
    contractRef := contractRef
    join := join
    budget := budget
    inputs := inputs
    tools := tools
    toolPresentation := toolPresentation }

def readEdgeDeclarationV3 (value : Json) : Option EdgeDeclarationV3 := do
  let source ← (value.field? "from").bind Json.text?
  let target ← (value.field? "to").bind Json.text?
  return { «from» := source, «to» := target, outcome := value.field? "outcome" }

def readLoopGroupDeclarationV3 (value : Json) : Option LoopGroupDeclarationV3 := do
  let id ← (value.field? "id").bind Json.text?
  let nodes ← (value.field? "nodes").bind Json.arr?
  return {
    id := id
    nodes := nodes
    maxTraversals := value.field? "max_traversals"
    continuationOutcome := value.field? "continuation_outcome"
    exitOutcome := value.field? "exit_outcome"
    progress := value.field? "progress" }

def readGraphDeclarationV3 (value : Json) : Option GraphDeclarationV3 := do
  let version ← (value.field? "version").bind Json.safeNat?
  if version ≠ 3 then none
  let name ← (value.field? "name").bind Json.text?
  let nodes ← ((value.field? "nodes").bind Json.arr?).bind (List.mapM readNodeDeclarationV3)
  let edges ← ((value.field? "edges").bind Json.arr?).bind (List.mapM readEdgeDeclarationV3)
  let loopGroups ←
    match value.field? "loop_groups" with
    | none => some none
    | some raw => (raw.arr?.bind (List.mapM readLoopGroupDeclarationV3)).map some
  let completionPolicy ← guardedField Json.isContainer value "completion_policy"
  return {
    name := name
    nodes := nodes
    edges := edges
    loopGroups := loopGroups
    completionPolicy := completionPolicy
    budget := value.field? "budget" }

end Rolebox.Graph
