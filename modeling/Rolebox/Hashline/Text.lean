import Rolebox.General.Lines

/-! Texts of files: logical lines, the canonical form, and line endings restored. -/

namespace Rolebox.Hashline
open General List

abbrev Text := List Char

instance : LawfulBEq Text := inferInstance

/-- The digest of bytes, Unicode's letters and digits, and the variable for the hash width. -/
structure TextHost where
  sha256 : List UInt8 → List UInt8
  isLetterOrNumber : Char → Bool
  widthOverride : Option Text

def endsWith (text : Text) (c : Char) : Bool := text.getLast? = some c

def includesCrlf (text : Text) : Bool := decide (['\r', '\n'] <:+: text)

def joinLines (lines : List Text) : Text := ['\n'].intercalate lines

def splitLines (content : Text) : List Text :=
  if content = [] then []
  else (if endsWith content '\n' then content.dropLast else content).splitOn '\n'

@[simp] theorem splitLines_nil : splitLines [] = [] := rfl

theorem splitLines_append_newline (content : Text) :
    splitLines (content ++ ['\n']) = content.splitOn '\n' := by
  simp [splitLines, endsWith]

theorem splitLines_of_not_endsWith {content : Text} (hne : content ≠ [])
    (h : endsWith content '\n' = false) : splitLines content = content.splitOn '\n' := by
  simp [splitLines, hne, h]

theorem eq_dropLast_newline {content : Text} (h : endsWith content '\n' = true) :
    content = content.dropLast ++ ['\n'] := by
  have hlast : content.getLast? = some '\n' := by simpa [endsWith] using h
  exact (dropLast_append_getLast? _ hlast).symm

theorem splitLines_last {line : Text} (hne : line ≠ []) (h : '\n' ∉ line) :
    splitLines line = [line] := by
  have hend : endsWith line '\n' = false := by
    simp only [endsWith, decide_eq_false_iff_not]
    exact fun hlast => h (mem_of_getLast? hlast)
  rw [splitLines_of_not_endsWith hne hend, splitOn_eq_singleton h]

theorem splitLines_line {line : Text} (h : '\n' ∉ line) (rest : Text) :
    splitLines (line ++ '\n' :: rest) = line :: splitLines rest := by
  rcases eq_nil_or_concat rest with rfl | ⟨front, c, rfl⟩
  · rw [splitLines_append_newline, splitOn_eq_singleton h, splitLines_nil]
  rw [concat_eq_append]
  have hshape : line ++ '\n' :: (front ++ [c]) = (line ++ '\n' :: front) ++ [c] := by simp
  by_cases hc : c = '\n'
  · subst hc
    rw [hshape, splitLines_append_newline, splitLines_append_newline, splitOn_line h]
  · have hend (text : Text) : endsWith (text ++ [c]) '\n' = false := by simp [endsWith, hc]
    have hrest : splitLines (front ++ [c]) = (front ++ [c]).splitOn '\n' :=
      splitLines_of_not_endsWith (by simp) (hend front)
    rw [hrest, hshape, splitLines_of_not_endsWith (by simp) (hend _), ← hshape, splitOn_line h]

theorem splitLines_append_newline_iff (content : Text) :
    splitLines content = splitLines (content ++ ['\n']) ↔
      content ≠ [] ∧ endsWith content '\n' = false := by
  rw [splitLines_append_newline]
  constructor
  · intro h
    have hne : content ≠ [] := by
      rintro rfl
      exact absurd h (by simp)
    refine ⟨hne, ?_⟩
    by_contra hend
    rw [Bool.not_eq_false] at hend
    have hdrop := eq_dropLast_newline hend
    rw [hdrop, splitLines_append_newline, splitOn_append_separator] at h
    have hlength := congrArg length h
    rw [length_append, length_singleton] at hlength
    omega
  · rintro ⟨hne, hend⟩
    exact splitLines_of_not_endsWith hne hend

def visible (text : Text) : Nat := text.countP (· ≠ '\n')

theorem sum_length_splitLines (content : Text) :
    ((splitLines content).map length).sum = visible content := by
  by_cases hne : content = []
  · subst hne
    rfl
  by_cases hend : endsWith content '\n' = true
  · have hdrop := eq_dropLast_newline hend
    rw [hdrop, splitLines_append_newline, sum_length_splitOn, visible, countP_append]
    rfl
  · rw [splitLines_of_not_endsWith hne (by simpa using hend), sum_length_splitOn, visible]

theorem visible_append_newline (content : Text) :
    visible (content ++ ['\n']) = visible content := by
  rw [visible, countP_append]
  rfl

def smallFileThreshold : Nat := 1000
def mediumFileThreshold : Nat := 10000
def hashWidthSmall : Nat := 2
def hashWidthMedium : Nat := 3
def hashWidthLarge : Nat := 4

def base64Dict : List Char :=
  "ABCDEFGHIJKLMNOPQRSTUVWXYZabcdefghijklmnopqrstuvwxyz0123456789_-".toList

/-- The characters `\s` matches and `trim` removes. -/
def isWhitespace (c : Char) : Bool :=
  let n := c.toNat
  (9 ≤ n ∧ n ≤ 13) ∨ n = 0x20 ∨ n = 0xA0 ∨ n = 0x1680 ∨ (0x2000 ≤ n ∧ n ≤ 0x200A) ∨ n = 0x2028 ∨
    n = 0x2029 ∨ n = 0x202F ∨ n = 0x205F ∨ n = 0x3000 ∨ n = 0xFEFF

def isDigit (c : Char) : Bool := 48 ≤ c.toNat ∧ c.toNat ≤ 57

def trimStart (text : Text) : Text := text.dropWhile isWhitespace

def trimEnd (text : Text) : Text := (text.reverse.dropWhile isWhitespace).reverse

def digitsValue (digits : Text) : Nat := digits.foldl (fun n c => 10 * n + (c.toNat - 48)) 0

/-- `parseInt(text, 10)`; absent where it is not a number. -/
def parseInt (text : Text) : Option Int :=
  let body := trimStart text
  let negative := body.head? = some '-'
  let unsigned := if negative ∨ body.head? = some '+' then body.tail else body
  let digits := unsigned.takeWhile isDigit
  if digits = [] then none
  else some (if negative then -(digitsValue digits : Int) else digitsValue digits)

def hashWidthForLineCount (host : TextHost) (lineCount : Nat) : Nat :=
  let bySize :=
    if lineCount ≤ smallFileThreshold then hashWidthSmall
    else if lineCount ≤ mediumFileThreshold then hashWidthMedium
    else hashWidthLarge
  match host.widthOverride.bind parseInt with
  | some w => if 2 ≤ w ∧ w ≤ 8 then w.toNat else bySize
  | none => bySize

def utf8 (text : Text) : List UInt8 := text.flatMap String.utf8EncodeChar

def base64Char (digest : List UInt8) (bytesNeeded i : Nat) : Char :=
  let bitOffset := i * 6
  let byteIndex := bytesNeeded - 1 - bitOffset / 8
  let shift := bitOffset % 8
  let low := (digest.getD byteIndex 0).toNat >>> shift
  let value := if 2 < shift then low ||| (digest.getD (byteIndex - 1) 0).toNat <<< (8 - shift) else low
  base64Dict.getD (value % 64) 'A'

def computeLineHash (host : TextHost) (content : Text) (width lineNumber : Nat) : Text :=
  let trimmed := trimEnd (content.filter (· ≠ '\r'))
  let seed := if trimmed.any host.isLetterOrNumber then [] else (toString lineNumber).toList
  let digest := host.sha256 (utf8 (seed ++ trimmed))
  let bytesNeeded := min ((width * 6 + 7) / 8 + 1) digest.length
  (range width).reverse.map (base64Char digest bytesNeeded)

def hexByte (byte : UInt8) : Text :=
  [Nat.digitChar (byte.toNat / 16), Nat.digitChar (byte.toNat % 16)]

def computeFileVersion (host : TextHost) (content : Text) : Text :=
  (host.sha256 (utf8 content)).flatMap hexByte

inductive LineEnding where
  | lf
  | crlf
  deriving DecidableEq

def LineEnding.text : LineEnding → Text
  | lf => ['\n']
  | crlf => ['\r', '\n']

/-- The canonical text of a file and what it takes to write it back. -/
structure FileTextEnvelope where
  content : Text
  hadBom : Bool
  lineEnding : LineEnding
  lineEols : List (Option LineEnding)

def byteOrderMark : Char := Char.ofNat 0xFEFF

def startsWithBom (text : Text) : Bool := text.head? = some byteOrderMark

def stripBom (text : Text) : Text := if startsWithBom text then text.tail else text

def buildLineEols (raw : Text) : List (Option LineEnding) :=
  if raw = [] then []
  else
    let endsWithNl := endsWith raw '\n'
    let segments := (if endsWithNl then raw.dropLast else raw).splitOn '\n'
    segments.mapIdx fun i segment =>
      if !endsWithNl ∧ i = segments.length - 1 then none
      else if endsWith segment '\r' then some .crlf
      else some .lf

def normalizeLineEndings (content : Text) (hasCrlf hasCr : Bool) : Text :=
  if hasCrlf then squeeze '\r' '\n' content
  else if hasCr then content.map fun c => if c = '\r' then '\n' else c
  else content

def canonicalizeFileContent (rawContent : Text) : Text :=
  let content := stripBom rawContent
  let hasCrlf := includesCrlf content
  normalizeLineEndings content hasCrlf (!hasCrlf && content.contains '\r')

def canonicalizeFileText (rawContent : Text) : FileTextEnvelope :=
  let rawLines := stripBom rawContent
  let hasCrlf := includesCrlf rawLines
  let hasCr := !hasCrlf && rawLines.contains '\r'
  let content := normalizeLineEndings rawLines hasCrlf hasCr
  { content := content
    hadBom := startsWithBom rawContent
    lineEnding := if hasCrlf || hasCr then .crlf else .lf
    lineEols :=
      -- a file with bare carriage returns is written back with a pair after every line
      if hasCr then replicate (splitLines content).length (some .crlf)
      else buildLineEols rawLines }

/-- `content.replace(/\r?\n/g, "\r\n")`. -/
def expandNewlines : Text → Text
  | [] => []
  | c :: text =>
    if c = '\r' ∧ text.head? = some '\n' then expandNewlines text
    else if c = '\n' then '\r' :: '\n' :: expandNewlines text
    else c :: expandNewlines text

def FileTextEnvelope.eolAt (envelope : FileTextEnvelope) (i : Nat) : LineEnding :=
  ((envelope.lineEols[i]?).join).getD envelope.lineEnding

/-- Every segment but the last with the terminator of its place. -/
def restoreSegments (eolAt : Nat → LineEnding) : Nat → List Text → Text
  | _, [] => []
  | _, [segment] => segment
  | i, segment :: next :: segments =>
    let kept := if eolAt i = .crlf then dropTrailing '\r' segment else segment
    kept ++ (eolAt i).text ++ restoreSegments eolAt (i + 1) (next :: segments)

def restoreFileText (content : Text) (envelope : FileTextEnvelope) : Text :=
  let restored :=
    if envelope.lineEols.all fun eol => eol = none ∨ eol = some envelope.lineEnding then
      if envelope.lineEnding = .lf then content else expandNewlines content
    else restoreSegments envelope.eolAt 0 (content.splitOn '\n')
  if envelope.hadBom then byteOrderMark :: restored else restored
end Rolebox.Hashline
