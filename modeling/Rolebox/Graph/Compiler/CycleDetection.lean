import Rolebox.General.Keyed

/-! The strongly connected components of the plan edges, by Tarjan's algorithm. -/

namespace Rolebox.Graph
open General

structure CycleEdge where
  «from» : String
  «to» : String

structure TarjanState where
  indices : List (String × Nat)
  lowlink : List (String × Nat)
  onStack : List String
  stack : List String
  components : List (List String)
  index : Nat

structure TarjanResult where
  components : List (List String)
  selfLoop : List String

namespace TarjanState

def initial : TarjanState :=
  { indices := [], lowlink := [], onStack := [], stack := [], components := [], index := 0 }

def enter (state : TarjanState) (node : String) : TarjanState :=
  { state with
    indices := assign node state.index state.indices
    lowlink := assign node state.index state.lowlink
    index := state.index + 1
    stack := node :: state.stack
    onStack := node :: state.onStack }

def lower (state : TarjanState) (node : String) (value : Nat) : TarjanState :=
  { state with
    lowlink := assign node (min ((state.lowlink.lookup node).getD 0) value) state.lowlink }

/-- The stack down to and including `node`, and what is left below it. -/
def popComponent (node : String) : List String → List String × List String
  | [] => ([], [])
  | popped :: rest =>
    if popped = node then ([popped], rest)
    else
      let below := popComponent node rest
      (popped :: below.1, below.2)

/-- Close the component of `node` when its lowlink never fell below its own index. -/
def close (state : TarjanState) (node : String) : TarjanState :=
  if state.lowlink.lookup node = state.indices.lookup node then
    let popped := popComponent node state.stack
    { state with
      stack := popped.2
      onStack := state.onStack.filter (· ∉ popped.1)
      components := state.components ++ [popped.1] }
  else state

end TarjanState

def visitNeighbor (connect : TarjanState → String → TarjanState) (node : String)
    (state : TarjanState) (neighbor : String) : TarjanState :=
  match state.indices.lookup neighbor with
  | none =>
    let visited := connect state neighbor
    visited.lower node ((visited.lowlink.lookup neighbor).getD 0)
  | some neighborIndex =>
    if neighbor ∈ state.onStack then state.lower node neighborIndex else state

/-- `strongConnect`, its recursion bounded by the depth of the search. -/
def strongConnect (adj : String → List String) : Nat → TarjanState → String → TarjanState
  | 0, state, _ => state
  | depth + 1, state, node =>
    ((adj node).foldl (visitNeighbor (strongConnect adj depth) node) (state.enter node)).close node

def adjacency (edges : List CycleEdge) (node : String) : List String :=
  (edges.filter (·.from = node)).map (·.to)

def stronglyConnectedComponents (edges : List CycleEdge) : TarjanResult :=
  let readable := edges.filter fun edge => edge.from ≠ "" ∧ edge.to ≠ ""
  let nodes := distinct (readable.flatMap fun edge => [edge.from, edge.to])
  let state := nodes.foldl (fun state node =>
    if (state.indices.lookup node).isSome then state
    else strongConnect (adjacency readable) nodes.length state node) TarjanState.initial
  { components := state.components
    selfLoop := distinct ((readable.filter fun edge => edge.from = edge.to).map (·.from)) }

def isCyclicComponent (component selfLoop : List String) : Bool :=
  match component with
  | [] => false
  | [only] => only ∈ selfLoop
  | _ => true

end Rolebox.Graph
