import Rolebox.General.Keyed
import Rolebox.Hashline.EditPrimitives

/-! Stale anchors: the lines nearby with their hash, and the offset that moves them all. -/

namespace Rolebox.Hashline
open General

def fuzzySearchWindow : Nat := 10

def hashMatchesCandidate (host : TextHost) (lines : List Text) (candidateLine targetLine : Nat)
    (expectedHash : Text) (hashWidth : Nat) : Bool :=
  let content := lines.getD (candidateLine - 1) []
  computeLineHash host content hashWidth candidateLine = expectedHash ||
    computeLineHash host content hashWidth targetLine = expectedHash

def linesAt (targetLine dist : Nat) : List Nat :=
  (if dist < targetLine then [targetLine - dist] else []) ++ [targetLine + dist]

def candidateLines (host : TextHost) (lines : List Text) (targetLine : Nat) (expectedHash : Text)
    (hashWidth : Nat) : List Nat :=
  ((List.range fuzzySearchWindow).flatMap fun dist => linesAt targetLine (dist + 1)).filter
    fun line => line ≤ lines.length ∧
      hashMatchesCandidate host lines line targetLine expectedHash hashWidth = true

def findNearbyMatch (host : TextHost) (lines : List Text) (targetLine : Nat) (expectedHash : Text)
    (hashWidth : Nat) : Option Nat :=
  (candidateLines host lines targetLine expectedHash hashWidth).head?

def signedNumeral (n : Int) : Text := (toString n).toList

def suggestCorrectAnchor (host : TextHost) (mismatch : HashMismatch) (fileLines : List Text)
    (hashWidth : Nat) : Option Text :=
  (findNearbyMatch host fileLines mismatch.line mismatch.expected hashWidth).map fun (found : Nat) =>
    let offset : Int := (found : Int) - mismatch.line
    let offsetStr := if 0 < offset then '+' :: signedNumeral offset else signedNumeral offset
    let actualHash := computeLineHash host (fileLines.getD (found - 1) []) hashWidth found
    "Line ".toList ++ numeral mismatch.line ++ ['#'] ++ mismatch.expected ++
      " not found. Did you mean line ".toList ++ numeral found ++ ['#'] ++ actualHash ++
      "? (content matches, line shifted by ".toList ++ offsetStr ++ [')']

def candidateOffsets (host : TextHost) (fileLines : List Text) (hashWidth : Nat)
    (mismatch : HashMismatch) : List (Int × Nat) :=
  (candidateLines host fileLines mismatch.line mismatch.expected hashWidth).map fun (line : Nat) =>
    ((line : Int) - mismatch.line, line)

def anchorText (line : Nat) (hash : Text) : Text := numeral line ++ '#' :: hash

def ambiguousMessage (anchor : Text) (candidates : List Nat) (hashWidth : Nat) : Text :=
  "Ambiguous anchor ".toList ++ anchor ++ ": hash collision at width ".toList ++
    numeral hashWidth ++ " — content-different candidate lines ".toList ++
    List.intercalate ", ".toList (candidates.map numeral) ++
    (" share this hash, so the corrected line cannot be determined. " ++
      "Re-read the file with hashline_read to get fresh anchors, then retry.").toList

/-- The smallest offset, the one above before the one below. -/
def preferred (a b : Int) : Prop := a.natAbs < b.natAbs ∨ a.natAbs = b.natAbs ∧ a ≤ b

instance : DecidableRel preferred := fun a b =>
  inferInstanceAs (Decidable (a.natAbs < b.natAbs ∨ a.natAbs = b.natAbs ∧ a ≤ b))

def detectUniformOffset (host : TextHost) (mismatches : List HashMismatch) (fileLines : List Text)
    (hashWidth : Nat) : Except Text (Option (List (Text × Text))) :=
  let offsets := mismatches.map fun mismatch =>
    (mismatch, candidateOffsets host fileLines hashWidth mismatch)
  match offsets with
  | [] => .ok (some [])
  | (_, first) :: others =>
    let common := (first.map Prod.fst).filter fun offset =>
      others.all fun other => (other.2.lookup offset).isSome
    let lineOf (candidates : List (Int × Nat)) (offset : Int) := (candidates.lookup offset).getD 0
    let ambiguous := offsets.find? fun candidate =>
      1 < (distinct (common.map fun offset =>
        fileLines.getD (lineOf candidate.2 offset - 1) [])).length
    match common.insertionSort preferred, ambiguous with
    | [], _ => .ok none
    | _ :: _, some candidate =>
      .error (ambiguousMessage (anchorText candidate.1.line candidate.1.expected)
        (common.map (lineOf candidate.2)) hashWidth)
    | chosen :: _, none =>
      .ok (some (offsets.foldl (fun corrections candidate =>
        let line := lineOf candidate.2 chosen
        let actualHash := computeLineHash host (fileLines.getD (line - 1) []) hashWidth line
        assign (anchorText candidate.1.line candidate.1.expected) (anchorText line actualHash)
          corrections) []))
end Rolebox.Hashline
