import Rolebox.Hashline.Text

/-! Line anchors and the texts of an edit: parsing, validation and stripping. -/

namespace Rolebox.Hashline
open General

inductive EditLines where
  | text (content : Text)
  | lines (content : List Text)
  deriving DecidableEq

def isAnchorChar (c : Char) : Bool :=
  isDigit c || (65 ≤ c.toNat && c.toNat ≤ 90) || (97 ≤ c.toNat && c.toNat ≤ 122) || c = '_' || c = '-'

def isLineTerminator (c : Char) : Bool :=
  c = '\n' || c = '\r' || c.toNat = 0x2028 || c.toNat = 0x2029

def matchLinePrefix (line : Text) : Option (Text × Text) :=
  let digits := line.takeWhile isDigit
  match line.drop digits.length with
  | '#' :: rest =>
    let hash := rest.takeWhile isAnchorChar
    match rest.drop hash.length with
    | '|' :: content =>
      if digits ≠ [] ∧ 2 ≤ hash.length ∧ hash.length ≤ 8 then some (digits, content) else none
    | _ => none
  | _ => none

def matchLinePrefixFull (line : Text) : Option Text :=
  (matchLinePrefix line).bind fun found =>
    if found.2.any isLineTerminator then none else some found.2

def toNewLines : EditLines → List Text
  | .lines content => content
  | .text content => if content = [] then [] else content.splitOn '\n'

def stripLinePrefixes (lines : List Text) (refLineCount : Nat) : List Text :=
  lines.map fun line =>
    match matchLinePrefix line with
    | none => line
    | some (digits, content) =>
      if digitsValue digits < 1 ∨ refLineCount < digitsValue digits then line else content

def restoreLeadingIndent (templateLine replacementLine : Text) : Text :=
  let indent := templateLine.takeWhile isWhitespace
  if indent = [] ∨ replacementLine = [] ∨ (replacementLine.head?.any isWhitespace) = true then
    replacementLine
  else indent ++ replacementLine

def stripInsertAnchorEcho (anchorLine : Text) (newLines : List Text) : List Text :=
  match newLines with
  | [] => []
  | first :: rest => if matchLinePrefixFull first = some anchorLine then rest else newLines

def stripInsertBeforeEcho (anchorLine : Text) (newLines : List Text) : List Text :=
  match newLines.getLast? with
  | none => []
  | some last =>
    if matchLinePrefixFull last = some anchorLine then newLines.dropLast else newLines

def stripRangeBoundaryEcho (lines : List Text) (startLine endLine : Nat) (newLines : List Text) :
    List Text :=
  let atLine (line : Nat) : Option Text := if 1 ≤ line then lines[line - 1]? else none
  let withoutStart :=
    match atLine startLine with
    | some line => stripInsertAnchorEcho line newLines
    | none => newLines
  match atLine endLine with
  | some line => stripInsertBeforeEcho line withoutStart
  | none => withoutStart

structure HashAnchor where
  line : Nat
  hash : Text
  deriving DecidableEq

structure HashMismatch where
  line : Nat
  expected : Text
  actual : Option Text
  deriving DecidableEq

/-- Anchors that do not hold are answered with a correction; any other error ends the call. -/
inductive EditError where
  | mismatch (mismatches : List HashMismatch) (fileLines : List Text)
  | error (message : Text)
  deriving DecidableEq

def trim (text : Text) : Text := trimEnd (trimStart text)

def stripMarker (marker : Text) (text : Text) : Text :=
  if marker.isPrefixOf text then trimStart (text.drop marker.length) else text

/-- `text.replace(/#\s+/, "#")`. -/
def closeHash : Text → Text
  | [] => []
  | c :: text =>
    if c = '#' ∧ (text.head?.any isWhitespace) = true then '#' :: trimStart text
    else c :: closeHash text

/-- `text.replace(/\|.*$/, "")`. -/
def stripContent : Text → Text
  | [] => []
  | c :: text =>
    if c = '|' ∧ text.any isLineTerminator = false then [] else c :: stripContent text

def numeral (n : Nat) : Text := (toString n).toList

def parseLineRef (ref : Text) : Except EditError HashAnchor :=
  let marked := stripMarker ">>>".toList (trim ref)
  let unmarked :=
    if marked.head? = some '+' ∨ marked.head? = some '-' then trimStart marked.tail else marked
  let cleaned := trim (stripContent (closeHash unmarked))
  let digits := cleaned.takeWhile isDigit
  let hash := (cleaned.drop digits.length).tail
  if digits ≠ [] ∧ (cleaned.drop digits.length).head? = some '#' ∧ hash.all isAnchorChar = true ∧
      2 ≤ hash.length ∧ hash.length ≤ 8 then
    .ok { line := digitsValue digits, hash := hash }
  else
    .error (.error ("Invalid line reference: \"".toList ++ ref ++
      "\". Expected format: LINE#HASH (e.g., \"42#aB3\")".toList))

def anchorMismatch (host : TextHost) (lines : List Text) (anchor : HashAnchor) (hashWidth : Nat) :
    Option HashMismatch :=
  match if 1 ≤ anchor.line then lines[anchor.line - 1]? else none with
  | none => some { line := anchor.line, expected := anchor.hash, actual := none }
  | some line =>
    let actual := computeLineHash host line hashWidth anchor.line
    if actual = anchor.hash then none
    else some { line := anchor.line, expected := anchor.hash, actual := some actual }

def validateLineRef (host : TextHost) (lines : List Text) (ref : Text) (hashWidth : Nat) :
    Except EditError Unit := do
  let anchor ← parseLineRef ref
  match anchorMismatch host lines anchor hashWidth with
  | some mismatch => throw (.mismatch [mismatch] lines)
  | none => pure ()

def validateLineRefs (host : TextHost) (lines : List Text) (refs : List Text) (hashWidth : Nat) :
    Except EditError Unit := do
  let anchors ← refs.mapM parseLineRef
  let mismatches := anchors.filterMap fun anchor => anchorMismatch host lines anchor hashWidth
  if mismatches ≠ [] then throw (.mismatch mismatches lines)
end Rolebox.Hashline
