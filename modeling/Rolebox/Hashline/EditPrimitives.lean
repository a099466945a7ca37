import Mathlib.Data.List.Sort
import Mathlib.Algebra.Order.Monoid.Unbundled.WithTop
import Rolebox.Hashline.Anchors

/-! A batch of edits: normalized, without repeats, sorted bottom-up, validated and applied. -/

namespace Rolebox.Hashline
open General

inductive EditKind where
  | replace
  | append
  | prepend
  deriving DecidableEq

structure RawEditOp where
  op : Option EditKind
  pos : Option Text
  endPos : Option Text
  lines : Option EditLines

inductive EditOp where
  | replace (pos : Text) (endPos : Option Text) (lines : EditLines)
  | append (pos : Option Text) (lines : EditLines)
  | prepend (pos : Option Text) (lines : EditLines)
  deriving DecidableEq

def normalizeEdits (rawEdits : List RawEditOp) : List EditOp :=
  rawEdits.map fun raw =>
    let lines := raw.lines.getD (.text [])
    match raw.op.getD .replace with
    | .replace => .replace (raw.pos.getD []) raw.endPos lines
    | .append => .append raw.pos lines
    | .prepend => .prepend raw.pos lines

def givenAnchor (anchor : Option Text) : Option Text := anchor.filter (· ≠ [])

def EditOp.pos : EditOp → Option Text
  | replace pos _ _ => givenAnchor (some pos)
  | append pos _ => givenAnchor pos
  | prepend pos _ => givenAnchor pos

def EditOp.endPos : EditOp → Option Text
  | replace _ endPos _ => givenAnchor endPos
  | append _ _ => none
  | prepend _ _ => none

def getEditLineNumber (edit : EditOp) : Except EditError (WithTop Nat) :=
  match edit, edit.pos with
  | _, some pos => do
    let anchor ← parseLineRef pos
    return (anchor.line : WithTop Nat)
  | .append _ _, none => .ok ⊤
  | _, none => .ok ((0 : Nat) : WithTop Nat)

def collectLineRefs (edits : List EditOp) : List Text :=
  edits.flatMap fun edit => edit.pos.toList ++ edit.endPos.toList

def opPriority : EditOp → Nat
  | .replace _ _ _ => 0
  | .append _ _ => 1
  | .prepend _ _ => 2

def bottomUp (a b : WithTop Nat × EditOp) : Prop :=
  b.1 < a.1 ∨ a.1 = b.1 ∧ opPriority a.2 ≤ opPriority b.2

instance : DecidableRel bottomUp := fun a b =>
  inferInstanceAs (Decidable (b.1 < a.1 ∨ a.1 = b.1 ∧ opPriority a.2 ≤ opPriority b.2))

def sortEditsBottomUp (edits : List EditOp) : Except EditError (List EditOp) := do
  let lines ← edits.mapM getEditLineNumber
  return ((lines.zip edits).insertionSort bottomUp).map Prod.snd

def editKey (edit : EditOp) : Text :=
  let linesKey (lines : EditLines) : Text :=
    match lines with
    | .lines content => joinLines content
    | .text content => content
  match edit with
  | .replace pos endPos lines =>
    "replace|".toList ++ pos ++ ['|'] ++ endPos.getD [] ++ ['|'] ++ linesKey lines
  | .append pos lines => "append|".toList ++ pos.getD [] ++ "||".toList ++ linesKey lines
  | .prepend pos lines => "prepend|".toList ++ pos.getD [] ++ "||".toList ++ linesKey lines

def deduplicateEdits (edits : List EditOp) : List EditOp × Nat :=
  let found := edits.foldl (fun (kept : List EditOp × List Text × Nat) edit =>
    let key := editKey edit
    if key ∈ kept.2.1 then (kept.1, kept.2.1, kept.2.2 + 1)
    else (kept.1 ++ [edit], kept.2.1 ++ [key], kept.2.2)) ([], [], 0)
  (found.1, found.2.2)

structure ReplaceRange where
  first : Nat
  last : Nat
  pos : Text
  endRef : Option Text

def rangesOverlap (a b : ReplaceRange) : Bool := a.first ≤ b.last && b.first ≤ a.last

def rangeText (range : ReplaceRange) : Text :=
  range.pos ++ range.endRef.elim [] ("..".toList ++ ·)

def overlapMessage (range existing : ReplaceRange) : Text :=
  "Overlapping replace ranges detected: \"".toList ++ rangeText range ++
    "\" overlaps with \"".toList ++ rangeText existing ++ "\". Edits must not overlap.".toList

def replaceRangeOf (edit : EditOp) : Except EditError (Option ReplaceRange) :=
  match edit, edit.pos with
  | .replace _ _ _, some pos => do
    let first ← parseLineRef pos
    match edit.endPos with
    | some endPos =>
      let last ← parseLineRef endPos
      return some { first := first.line, last := last.line, pos := pos, endRef := some endPos }
    | none => return some { first := first.line, last := first.line, pos := pos, endRef := none }
  | _, _ => .ok none

def detectOverlappingRanges (edits : List EditOp) : Except EditError Unit := do
  let _ ← edits.foldlM (fun (ranges : List ReplaceRange) edit => do
    match ← replaceRangeOf edit with
    | none => return ranges
    | some range =>
      match ranges.find? (rangesOverlap range) with
      | some existing => throw (.error (overlapMessage range existing))
      | none => return ranges ++ [range]) []
  return ()

/-- `result.splice(start, count, ...newLines)`. -/
def splice (lines : List Text) (start count : Nat) (newLines : List Text) : List Text :=
  lines.take start ++ newLines ++ lines.drop (start + count)

def indentFirst (templateLine : Option Text) : List Text → List Text
  | [] => []
  | first :: rest => templateLine.elim first (restoreLeadingIndent · first) :: rest

def applyReplaceSingle (host : TextHost) (lines : List Text) (anchor : Text) (newText : EditLines)
    (hashWidth : Nat) (originalLines : List Text) : Except EditError (List Text) := do
  let parsed ← parseLineRef anchor
  validateLineRef host originalLines anchor hashWidth
  let newLines := stripLinePrefixes (toNewLines newText) originalLines.length
  let lineIndex := parsed.line - 1
  return splice lines lineIndex 1 (indentFirst originalLines[lineIndex]? newLines)

structure AttachedInsert where
  prependLines : List Text
  appendLines : List Text

def invalidRangeMessage (first last : Nat) : Text :=
  "Invalid replace range: start line ".toList ++ numeral first ++ " > end line ".toList ++
    numeral last

def applyReplaceRange (host : TextHost) (lines : List Text) (startAnchor endAnchor : Text)
    (newText : EditLines) (hashWidth : Nat) (originalLines : List Text)
    (attached : Option AttachedInsert) : Except EditError (List Text) := do
  let first ← parseLineRef startAnchor
  let last ← parseLineRef endAnchor
  if last.line < first.line then throw (.error (invalidRangeMessage first.line last.line))
  validateLineRef host originalLines startAnchor hashWidth
  validateLineRef host originalLines endAnchor hashWidth
  let echoed := stripRangeBoundaryEcho originalLines first.line last.line (toNewLines newText)
  let newLines := indentFirst originalLines[first.line - 1]?
    (stripLinePrefixes echoed originalLines.length)
  let rangeLen := last.line - first.line + 1
  let inserted := attached.getD { prependLines := [], appendLines := [] }
  return splice lines (first.line - 1) rangeLen
    (inserted.prependLines ++ newLines ++ inserted.appendLines)

def isNoopInsert (newLines : List Text) : Bool := newLines = [] || newLines = [[]]

def applyInsertAfter (host : TextHost) (lines : List Text) (anchor : Text) (text : EditLines)
    (hashWidth : Nat) (originalLines : List Text) : Except EditError (List Text) := do
  let parsed ← parseLineRef anchor
  validateLineRef host originalLines anchor hashWidth
  let given := toNewLines text
  if isNoopInsert given then return lines
  let echoed := stripInsertAnchorEcho (originalLines.getD (parsed.line - 1) []) given
  let newLines := stripLinePrefixes echoed originalLines.length
  if newLines = [] then return lines
  return splice lines (parsed.line - 1 + 1) 0 newLines

def applyInsertBefore (host : TextHost) (lines : List Text) (anchor : Text) (text : EditLines)
    (hashWidth : Nat) (originalLines : List Text) : Except EditError (List Text) := do
  let parsed ← parseLineRef anchor
  validateLineRef host originalLines anchor hashWidth
  let given := toNewLines text
  if isNoopInsert given then return lines
  let echoed := stripInsertBeforeEcho (originalLines.getD (parsed.line - 1) []) given
  let newLines := stripLinePrefixes echoed originalLines.length
  if newLines = [] then return lines
  return splice lines (parsed.line - 1) 0 newLines

def applyAppend (lines : List Text) (text : EditLines) (refLineCount : Nat) : List Text :=
  let given := toNewLines text
  if isNoopInsert given then lines
  else (if lines = [[]] then [] else lines) ++ stripLinePrefixes given refLineCount

def applyPrepend (lines : List Text) (text : EditLines) (refLineCount : Nat) : List Text :=
  let given := toNewLines text
  if isNoopInsert given then lines else stripLinePrefixes given refLineCount ++ lines

def hostRanges (edits : List EditOp) : Except EditError (List (Nat × Nat × EditOp)) := do
  let ranges ← edits.mapM fun edit =>
    match edit.pos, edit.endPos with
    | some pos, some endPos => do
      let first ← parseLineRef pos
      let last ← parseLineRef endPos
      return some (first.line, last.line, edit)
    | _, _ => return none
  return ranges.filterMap id

def normalizeAttachedInsert (edit : EditOp) (anchorLine : Nat) (originalLines : List Text) :
    List Text :=
  let line := originalLines.getD (anchorLine - 1) []
  let strip (lines : EditLines) (stripEcho : Text → List Text → List Text) : List Text :=
    let given := toNewLines lines
    if isNoopInsert given then [] else stripLinePrefixes (stripEcho line given) originalLines.length
  match edit with
  | .append _ lines => strip lines stripInsertAnchorEcho
  | .prepend _ lines => strip lines stripInsertBeforeEcho
  | .replace _ _ _ => []

def attach (edit : EditOp) (newLines : List Text) (entry : AttachedInsert) : AttachedInsert :=
  match edit with
  | .append _ _ => { entry with appendLines := entry.appendLines ++ newLines }
  | _ => { entry with prependLines := entry.prependLines ++ newLines }

abbrev Attachments := List (EditOp × AttachedInsert)

def attachTo (attached : Attachments) (range edit : EditOp) (newLines : List Text) : Attachments :=
  let entry := (attached.lookup range).getD { prependLines := [], appendLines := [] }
  (range, attach edit newLines entry) :: attached.filter fun other => other.1 ≠ range

def attachInsertsInsideRanges (edits : List EditOp) (originalLines : List Text) :
    Except EditError (List EditOp × Attachments) := do
  let ranges ← hostRanges edits
  edits.foldlM (fun (found : List EditOp × Attachments) edit =>
    match edit, edit.pos with
    | .replace _ _ _, _ => return (found.1 ++ [edit], found.2)
    | _, none => return (found.1 ++ [edit], found.2)
    | _, some pos => do
      let anchor ← parseLineRef pos
      match ranges.find? fun range => range.1 < anchor.line ∧ anchor.line < range.2.1 with
      | none => return (found.1 ++ [edit], found.2)
      | some range =>
        let newLines := normalizeAttachedInsert edit anchor.line originalLines
        if newLines = [] then return found
        else return (found.1, attachTo found.2 range.2.2 edit newLines)) ([], [])

def applyEdit (host : TextHost) (hashWidth : Nat) (originalLines : List Text)
    (attached : Attachments) (lines : List Text) (edit : EditOp) : Except EditError (List Text) :=
  match edit with
  | .replace pos endPos newText =>
    match givenAnchor endPos with
    | some endPos =>
      applyReplaceRange host lines pos endPos newText hashWidth originalLines (attached.lookup edit)
    | none => applyReplaceSingle host lines pos newText hashWidth originalLines
  | .append pos text =>
    match givenAnchor pos with
    | some pos => applyInsertAfter host lines pos text hashWidth originalLines
    | none => .ok (applyAppend lines text originalLines.length)
  | .prepend pos text =>
    match givenAnchor pos with
    | some pos => applyInsertBefore host lines pos text hashWidth originalLines
    | none => .ok (applyPrepend lines text originalLines.length)

structure AppliedEdits where
  content : Text
  noopEdits : Nat
  deduplicatedEdits : Nat
  deriving DecidableEq

def applyEditsToLinesWithReport (host : TextHost) (lines : List Text) (edits : List EditOp)
    (hashWidth : Nat) : Except EditError AppliedEdits := do
  let deduped := deduplicateEdits edits
  let found ← attachInsertsInsideRanges deduped.1 lines
  let sorted ← sortEditsBottomUp found.1
  -- the anchors of attached inserts are validated with all others
  validateLineRefs host lines (collectLineRefs deduped.1) hashWidth
  detectOverlappingRanges sorted
  let applied ← sorted.foldlM (fun (working : List Text × Nat) edit => do
    let lines ← applyEdit host hashWidth lines found.2 working.1 edit
    return (lines, if lines = working.1 then working.2 + 1 else working.2)) (lines, 0)
  return { content := joinLines applied.1, noopEdits := applied.2, deduplicatedEdits := deduped.2 }
end Rolebox.Hashline
