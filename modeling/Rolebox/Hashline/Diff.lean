import Rolebox.Hashline.Text

/-! The difference of two lists of lines: the edit script, and the report of an edit. -/

namespace Rolebox.Hashline
open General

inductive DiffEntry where
  | equal (oldLine newLine : Nat) (content : Text)
  | insert (newLine : Nat) (content : Text)
  | delete (oldLine : Nat) (content : Text)

def snake (oldLines newLines : List Text) : Nat → Nat → Nat → Nat × Nat
  | 0, x, y => (x, y)
  | fuel + 1, x, y =>
    match oldLines[x]?, newLines[y]? with
    | some a, some b => if a = b then snake oldLines newLines fuel (x + 1) (y + 1) else (x, y)
    | _, _ => (x, y)

def furthest (oldLines newLines : List Text) (distance : Nat) (previous : List Nat) (i : Nat) :
    Nat × Nat :=
  let before := previous.getD (i - 1) 0
  let after := previous.getD i 0
  let x := if i = 0 ∨ (i ≠ distance ∧ before < after) then after else before + 1
  -- y = x - k for the diagonal k = 2 * i - distance
  let y := x + distance - 2 * i
  snake oldLines newLines (oldLines.length + 1) x y

def frontier (oldLines newLines : List Text) (distance : Nat) (previous : List Nat) :
    Nat → Nat → List Nat → List Nat × Bool
  | 0, _, current => (current, false)
  | fuel + 1, i, current =>
    let place := furthest oldLines newLines distance previous i
    let current := current ++ [place.1]
    if oldLines.length ≤ place.1 ∧ newLines.length ≤ place.2 then (current, true)
    else frontier oldLines newLines distance previous fuel (i + 1) current

def searchDistance (oldLines newLines : List Text) :
    Nat → Nat → List Nat → List (List Nat) → Option (Nat × List (List Nat))
  | 0, _, _, _ => none
  | fuel + 1, distance, previous, trace =>
    let found := frontier oldLines newLines distance previous (distance + 1) 0 []
    let trace := trace ++ [found.1]
    if found.2 then some (distance, trace)
    else searchDistance oldLines newLines fuel (distance + 1) found.1 trace

def equalRun (oldLines : List Text) (prevX prevY : Int) : Nat → Nat → List DiffEntry × Nat × Nat
  | x + 1, y + 1 =>
    if prevX < (x + 1 : Nat) ∧ prevY < (y + 1 : Nat) then
      let rest := equalRun oldLines prevX prevY x y
      (.equal (x + 1) (y + 1) (oldLines.getD x []) :: rest.1, rest.2)
    else ([], x + 1, y + 1)
  | x, y => ([], x, y)

def buildDiff (oldLines newLines : List Text) (trace : List (List Nat)) :
    Nat → Nat → Nat → List DiffEntry
  | 0, x, y => (equalRun oldLines 0 0 x y).1
  | distance + 1, x, y =>
    let k : Int := (x : Int) - y
    let d : Int := ((distance + 1 : Nat) : Int)
    -- the frontier before has diagonal j at index (j + distance) / 2
    let reached (diagonal : Int) : Int :=
      (((trace.getD distance []).getD ((diagonal + distance) / 2).toNat 0 : Nat) : Int)
    let prevK := if k = -d ∨ (k ≠ d ∧ reached (k - 1) < reached (k + 1)) then k + 1 else k - 1
    let prevX := reached prevK
    let prevY := prevX - prevK
    let run := equalRun oldLines prevX prevY x y
    match run.2 with
    | (x, y) =>
      if prevX < x then
        run.1 ++ .delete x (oldLines.getD (x - 1) []) ::
          buildDiff oldLines newLines trace distance (x - 1) y
      else if prevY < y then
        run.1 ++ .insert y (newLines.getD (y - 1) []) ::
          buildDiff oldLines newLines trace distance x (y - 1)
      else run.1 ++ buildDiff oldLines newLines trace distance x y

def myersDiff (oldLines newLines : List Text) : List DiffEntry :=
  if oldLines = [] then newLines.mapIdx fun i line => .insert (i + 1) line
  else if newLines = [] then oldLines.mapIdx fun i line => .delete (i + 1) line
  else if oldLines = newLines then oldLines.mapIdx fun i line => .equal (i + 1) (i + 1) line
  else
    let max := oldLines.length + newLines.length
    match searchDistance oldLines newLines (max + 1) 0 [0] [] with
    | some (distance, trace) =>
      (buildDiff oldLines newLines trace distance oldLines.length newLines.length).reverse
    | none => []

def DiffEntry.isEqual : DiffEntry → Bool
  | equal _ _ _ => true
  | _ => false

def DiffEntry.oldLine : DiffEntry → Option Nat
  | equal oldLine _ _ => some oldLine
  | insert _ _ => none
  | delete oldLine _ => some oldLine

def DiffEntry.newLine : DiffEntry → Option Nat
  | equal _ newLine _ => some newLine
  | insert newLine _ => some newLine
  | delete _ _ => none

def DiffEntry.unified : DiffEntry → Text
  | equal _ _ content => ' ' :: content
  | insert _ content => '+' :: content
  | delete _ content => '-' :: content

structure Hunk where
  oldStart : Int
  oldCount : Int
  newStart : Int
  newCount : Int
  lines : List Text

def unifiedDiffContext : Nat := 3

def hunkOf (contextBefore changes contextAfter : List DiffEntry) : Hunk :=
  let entries := contextBefore ++ changes ++ contextAfter
  let starts :=
    match contextBefore, changes with
    | first :: _, _ => (first.oldLine.getD 1, first.newLine.getD 1)
    | [], first :: _ =>
      ((first.oldLine.or first.newLine).getD 1, (first.newLine.or first.oldLine).getD 1)
    | [], [] => (1, 1)
  { oldStart := starts.1
    oldCount := entries.countP fun entry => entry.oldLine.isSome
    newStart := starts.2
    newCount := entries.countP fun entry => entry.newLine.isSome
    lines := entries.map DiffEntry.unified }

/-- The hunks of what is left, after the entries seen so far, last first. -/
def collectHunks : Nat → List DiffEntry → List DiffEntry → List Hunk
  | 0, _, _ => []
  | fuel + 1, seen, rest =>
    let equals := rest.takeWhile DiffEntry.isEqual
    let seen := equals.reverse ++ seen
    let rest := rest.drop equals.length
    if rest = [] then []
    else
      let contextBefore := ((seen.takeWhile DiffEntry.isEqual).take unifiedDiffContext).reverse
      let changes := rest.takeWhile fun entry => !entry.isEqual
      let after := rest.drop changes.length
      let contextAfter := (after.takeWhile DiffEntry.isEqual).take unifiedDiffContext
      hunkOf contextBefore changes contextAfter ::
        collectHunks fuel (contextAfter.reverse ++ changes.reverse ++ seen)
          (after.drop contextAfter.length)

def Hunk.dropContext (hunk : Hunk) : Hunk :=
  let context := hunk.lines.takeWhile fun line => line.head? = some ' '
  { hunk with
    lines := hunk.lines.drop context.length
    oldCount := hunk.oldCount - context.length
    newCount := hunk.newCount - context.length
    oldStart := hunk.oldStart + context.length
    newStart := hunk.newStart + context.length }

def mergeHunks (last curr : Hunk) (gap : Int) : Hunk :=
  let overlapStart := max last.oldStart curr.oldStart
  let overlapEnd := min (last.oldStart + last.oldCount - 1) (curr.oldStart + curr.oldCount - 1)
  let curr := if overlapStart ≤ overlapEnd then curr.dropContext else curr
  let added := if 0 < gap then gap else 0
  { last with
    lines := last.lines ++ curr.lines
    oldCount := last.oldCount + curr.oldCount + added
    newCount := last.newCount + curr.newCount + added }

def mergeAdjacentHunks : List Hunk → List Hunk
  | [] => []
  | first :: hunks =>
    let merged := hunks.foldl (fun (merged : List Hunk × Hunk) curr =>
      let gap := curr.oldStart - (merged.2.oldStart + merged.2.oldCount)
      if gap ≤ unifiedDiffContext * 2 then (merged.1, mergeHunks merged.2 curr gap)
      else (merged.1 ++ [merged.2], curr)) ([], first)
    merged.1 ++ [merged.2]

def hunkText (hunk : Hunk) : Text :=
  let numeral (n : Int) : Text := (toString n).toList
  "@@ -".toList ++ numeral hunk.oldStart ++ [','] ++ numeral hunk.oldCount ++ " +".toList ++
    numeral hunk.newStart ++ [','] ++ numeral hunk.newCount ++ " @@\n".toList ++
    joinLines hunk.lines

def formatUnifiedDiff (diff : List DiffEntry) (filePath : Text) : Text :=
  if diff.all DiffEntry.isEqual then []
  else
    let hunks := mergeAdjacentHunks (collectHunks diff.length [] diff)
    "--- a/".toList ++ filePath ++ "\n+++ b/".toList ++ filePath ++ ['\n'] ++
      joinLines (hunks.map hunkText) ++ ['\n']

structure ReanchoredLine where
  line : Nat
  oldAnchor : Text
  newAnchor : Text
  newContent : Text

def reanchorDiffEntries (host : TextHost) (oldLines : List Text) (diff : List DiffEntry)
    (hashWidth : Nat) : List ReanchoredLine :=
  diff.filterMap fun entry =>
    match entry with
    | .equal _ _ _ => none
    | .insert newLine content =>
      some
        { line := newLine
          oldAnchor := computeLineHash host (oldLines.getD (newLine - 1) []) hashWidth newLine
          newAnchor := computeLineHash host content hashWidth newLine
          newContent := content }
    | .delete oldLine content =>
      some
        { line := oldLine
          oldAnchor := computeLineHash host content hashWidth oldLine
          newAnchor := []
          newContent := [] }

def countAdditions (diff : List DiffEntry) : Nat :=
  diff.countP fun entry => match entry with | .insert _ _ => true | _ => false

def countDeletions (diff : List DiffEntry) : Nat :=
  diff.countP fun entry => match entry with | .delete _ _ => true | _ => false

structure DiffReport where
  diff : Text
  additions : Nat
  deletions : Nat
  reanchored : List ReanchoredLine

def generateDiffReport (host : TextHost) (oldLines newLines : List Text) (filePath : Text)
    (hashWidth : Nat) : DiffReport :=
  let entries := myersDiff oldLines newLines
  { diff := formatUnifiedDiff entries filePath
    additions := countAdditions entries
    deletions := countDeletions entries
    reanchored := reanchorDiffEntries host oldLines entries hashWidth }
end Rolebox.Hashline
