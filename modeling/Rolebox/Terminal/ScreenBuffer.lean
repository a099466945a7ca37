import Mathlib.Algebra.GroupWithZero.Nat
import Mathlib.Data.List.Basic
import Mathlib.Logic.Function.Iterate

/-! The terminal screen, fed one code point at a time. -/

namespace Rolebox.Terminal

/-- A code point of a string; a lone surrogate is one. -/
abbrev CodePoint := Nat

def charWidth (cp : CodePoint) : Nat :=
  if (0x0300 ≤ cp ∧ cp ≤ 0x036f) ∨ (0x1ab0 ≤ cp ∧ cp ≤ 0x1aff) ∨ (0x1dc0 ≤ cp ∧ cp ≤ 0x1dff) ∨
      (0x200b ≤ cp ∧ cp ≤ 0x200f) ∨ (0x20d0 ≤ cp ∧ cp ≤ 0x20ff) ∨ (0xfe00 ≤ cp ∧ cp ≤ 0xfe0f) ∨
      cp = 0xfeff then 0
  else if (0x1100 ≤ cp ∧ cp ≤ 0x115f) ∨ cp = 0x2329 ∨ cp = 0x232a ∨
      (0x2e80 ≤ cp ∧ cp ≤ 0xa4cf ∧ cp ≠ 0x303f) ∨ (0xac00 ≤ cp ∧ cp ≤ 0xd7a3) ∨
      (0xf900 ≤ cp ∧ cp ≤ 0xfaff) ∨ (0xfe30 ≤ cp ∧ cp ≤ 0xfe4f) ∨ (0xff00 ≤ cp ∧ cp ≤ 0xff60) ∨
      (0xffe0 ≤ cp ∧ cp ≤ 0xffe6) ∨ (0x1f300 ≤ cp ∧ cp ≤ 0x1f9ff) ∨
      (0x20000 ≤ cp ∧ cp ≤ 0x3fffd) then 2
  else 1

/-- A cell holds the empty string, which continues a wide character, or one character. -/
inductive Cell where
  | empty
  | char (code : CodePoint)
  deriving DecidableEq

abbrev Line := List Cell

def blank : Cell := .char 0x20

def blankLine (cols : Nat) : Line := List.replicate cols blank

/-- `splice(i, 0, a)`. -/
def spliceIn {α : Type} (l : List α) (i : Nat) (a : α) : List α := l.take i ++ a :: l.drop i

def eraseSpan (start stop : Nat) (line : Line) : Line :=
  line.take start ++ List.replicate (stop - start) blank ++ line.drop stop

def insertCells (x n : Nat) : Line → Line := (fun line => (spliceIn line x blank).dropLast)^[n]

def deleteCells (x n : Nat) : Line → Line := (fun line => line.eraseIdx x ++ [blank])^[n]

def putCell (cols x : Nat) (code : CodePoint) (line : Line) : Line :=
  let line := line.set x (.char code)
  if charWidth code = 2 ∧ x + 1 < cols then line.set (x + 1) .empty else line

inductive ParserState where
  | ground | esc | csi | osc | str | charset
  deriving DecidableEq

structure SavedScreen where
  lines : List Line
  curX : Nat
  curY : Nat

inductive Reply where
  | cursor (row col : Nat)
  | status
  | attributes (secondary : Bool)
  | size (kind rows cols : Nat)
  | color (foreground : Bool)
  deriving DecidableEq

structure Sent where
  reply : Reply
  rows : Nat
  cols : Nat
  deriving DecidableEq

structure TerminalScreen where
  cols : Nat
  rows : Nat
  paintOps : Nat
  lines : List Line
  curX : Nat
  curY : Nat
  savedX : Nat
  savedY : Nat
  scrollTop : Nat
  scrollBottom : Nat
  altSaved : Option SavedScreen
  sent : List Sent
  state : ParserState
  csiParams : List Char
  csiIntermediates : List Char
  oscBuf : List CodePoint
  strEsc : Bool

def blankLines (cols rows : Nat) : List Line := List.replicate rows (blankLine cols)

def create (cols rows : Int) : TerminalScreen :=
  let cols := (max 2 cols).toNat
  let rows := (max 1 rows).toNat
  { cols, rows, paintOps := 0, lines := blankLines cols rows, curX := 0, curY := 0, savedX := 0
    savedY := 0, scrollTop := 0, scrollBottom := rows - 1, altSaved := none, sent := []
    state := .ground, csiParams := [], csiIntermediates := [], oscBuf := [], strEsc := false }

def Reply.text : Reply → String
  | .cursor row col => s!"\u001b[{row};{col}R"
  | .status => "\u001b[0n"
  | .attributes secondary => if secondary then "\u001b[>0;276;0c" else "\u001b[?62;22c"
  | .size kind rows cols =>
    if kind = 18 then s!"\u001b[8;{rows};{cols}t"
    else if kind = 14 then s!"\u001b[4;{rows * 16};{cols * 8}t"
    else "\u001b[6;16;8t"
  | .color foreground =>
    if foreground then "\u001b]10;rgb:d4d4/d4d4/d4d4\u001b\\"
    else "\u001b]11;rgb:1e1e/1e1e/1e1e\u001b\\"

namespace TerminalScreen
variable (s : TerminalScreen)

def line : Line := s.lines.getD s.curY []

def onLine (edit : Line → Line) : TerminalScreen :=
  { s with lines := s.lines.set s.curY (edit s.line) }

def moveTo (x y : Nat) : TerminalScreen := { s with curX := x, curY := y }

def respond (reply : Reply) : TerminalScreen :=
  { s with sent := s.sent ++ [{ reply, rows := s.rows, cols := s.cols }] }

def shiftLines (out into n : Nat) : TerminalScreen :=
  { s with lines := (fun lines => spliceIn (lines.eraseIdx out) into (blankLine s.cols))^[n] s.lines }

def scrollUp (n : Nat) : TerminalScreen := s.shiftLines s.scrollTop s.scrollBottom n

def scrollDown (n : Nat) : TerminalScreen := s.shiftLines s.scrollBottom s.scrollTop n

def insertLines (n : Nat) : TerminalScreen :=
  if s.curY < s.scrollTop ∨ s.scrollBottom < s.curY then s
  else s.shiftLines s.scrollBottom s.curY n

def deleteLines (n : Nat) : TerminalScreen :=
  if s.curY < s.scrollTop ∨ s.scrollBottom < s.curY then s
  else s.shiftLines s.curY s.scrollBottom n

def lineFeed : TerminalScreen :=
  if s.curY = s.scrollBottom then s.scrollUp 1
  else { s with curY := min (s.rows - 1) (s.curY + 1) }

def reverseLineFeed : TerminalScreen :=
  if s.curY = s.scrollTop then s.scrollDown 1 else { s with curY := s.curY - 1 }

/-- Begin the next line when a character of the width does not fit in this one. -/
def wrapped (width : Nat) : TerminalScreen :=
  if s.cols < s.curX + width then { s with curX := 0 }.lineFeed else s

def putChar (code : CodePoint) : TerminalScreen :=
  let w := charWidth code
  if w = 0 then s
  else
    let s := s.wrapped w
    { s.onLine (putCell s.cols s.curX code) with curX := s.curX + w }

def eraseLine (mode : Nat) : TerminalScreen :=
  s.onLine fun line =>
    if mode = 0 then eraseSpan s.curX s.cols line
    else if mode = 1 then eraseSpan 0 (min s.curX (s.cols - 1) + 1) line
    else blankLine s.cols

def blankRows (start stop : Nat) : TerminalScreen :=
  { s with lines := s.lines.mapIdx fun y line =>
      if start ≤ y ∧ y < stop then blankLine s.cols else line }

def eraseDisplay (mode : Nat) : TerminalScreen :=
  if mode = 0 then (s.eraseLine 0).blankRows (s.curY + 1) s.rows
  else if mode = 1 then (s.eraseLine 1).blankRows 0 s.curY
  else s.blankRows 0 s.rows

def insertChars (n : Nat) : TerminalScreen := s.onLine (insertCells s.curX n)

def deleteChars (n : Nat) : TerminalScreen := s.onLine (deleteCells s.curX n)

def eraseChars (n : Nat) : TerminalScreen :=
  s.onLine (eraseSpan s.curX (min s.cols (s.curX + n)))

def fitLine (cols : Nat) (line : Line) : Line :=
  line.take cols ++ List.replicate (cols - line.length) blank

def fitLines (cols rows : Nat) (lines : List Line) : List Line :=
  (lines.map (fitLine cols)).take rows ++ List.replicate (rows - lines.length) (blankLine cols)

def resize (cols rows : Int) : TerminalScreen :=
  let cols := (max 2 cols).toNat
  let rows := (max 1 rows).toNat
  { s with
    lines := fitLines cols rows s.lines
    altSaved := s.altSaved.map fun saved => { saved with lines := fitLines cols rows saved.lines }
    cols
    rows
    scrollTop := 0
    scrollBottom := rows - 1
    curX := min s.curX (cols - 1)
    curY := min s.curY (rows - 1) }

def reset : TerminalScreen :=
  { s with
    altSaved := none
    lines := blankLines s.cols s.rows
    curX := 0
    curY := 0
    savedX := 0
    savedY := 0
    scrollTop := 0
    scrollBottom := s.rows - 1
    state := .ground }

def saveCursor : TerminalScreen := { s with savedX := s.curX, savedY := s.curY }

def restoreCursor : TerminalScreen :=
  s.moveTo (min s.savedX (s.cols - 1)) (min s.savedY (s.rows - 1))

def enterAlternate : TerminalScreen :=
  if s.altSaved.isSome then s
  else
    { s with
      altSaved := some { lines := s.lines, curX := s.curX, curY := s.curY }
      lines := blankLines s.cols s.rows
      curX := 0
      curY := 0
      scrollTop := 0
      scrollBottom := s.rows - 1 }

def leaveAlternate : TerminalScreen :=
  match s.altSaved with
  | none => s
  | some saved =>
    { s with
      lines := saved.lines
      curX := min saved.curX (s.cols - 1)
      curY := min saved.curY (s.rows - 1)
      altSaved := none
      scrollTop := 0
      scrollBottom := s.rows - 1 }

def handleDecMode (params : List Nat) (set : Bool) : TerminalScreen :=
  params.foldl (fun s mode =>
    if mode = 1049 ∨ mode = 47 ∨ mode = 1047 then
      if set then s.enterAlternate else s.leaveAlternate
    else s) s

def startCsi : TerminalScreen :=
  { s with state := .csi, csiParams := [], csiIntermediates := [] }

def csiPrefix : Option Char := s.csiParams.head?.filter (· ∈ ['<', '=', '>', '?'])

def csiRaw : List Char := if s.csiPrefix.isSome then s.csiParams.tail else s.csiParams

/-- `parseInt` of digits, zero where it is not finite. -/
def readParam (text : List Char) : Nat :=
  let n := Nat.ofDigitChars 10 (text.takeWhile Char.isDigit) 0
  if n < 2 ^ 1024 - 2 ^ 970 then n else 0

def params : List Nat := (s.csiRaw.splitOn ';').map readParam

def param (i default : Nat) : Nat :=
  if 0 < s.params.getD i 0 then s.params.getD i 0 else default

def setScrollRegion : TerminalScreen :=
  let top := s.param 0 1 - 1
  let bottom := min (s.rows - 1) (s.param 1 s.rows - 1)
  let s :=
    if top < bottom then { s with scrollTop := top, scrollBottom := bottom }
    else { s with scrollTop := 0, scrollBottom := s.rows - 1 }
  s.moveTo 0 0

/-- Answer the status, attribute and size queries. -/
def answer (final : Char) : TerminalScreen :=
  let first := s.params.getD 0 0
  if final = 'n' then
    if s.csiPrefix = none ∧ first = 6 then s.respond (.cursor (s.curY + 1) (s.curX + 1))
    else if s.csiPrefix = none ∧ first = 5 then s.respond .status
    else s
  else if final = 'c' then
    if s.csiPrefix = some '>' then s.respond (.attributes true)
    else if s.csiPrefix = none ∧ first = 0 then s.respond (.attributes false)
    else s
  else if first = 18 ∨ first = 14 ∨ first = 16 then s.respond (.size first s.rows s.cols)
  else s

def perform (final : Char) : TerminalScreen :=
  let n := s.param 0 1
  let column := min (s.cols - 1) (n - 1)
  let row := min (s.rows - 1) (n - 1)
  match final with
  | 'A' => s.moveTo s.curX (s.curY - n)
  | 'B' | 'e' => s.moveTo s.curX (min (s.rows - 1) (s.curY + n))
  | 'C' | 'a' => s.moveTo (min (s.cols - 1) (s.curX + n)) s.curY
  | 'D' => s.moveTo (s.curX - n) s.curY
  | 'E' => s.moveTo 0 (min (s.rows - 1) (s.curY + n))
  | 'F' => s.moveTo 0 (s.curY - n)
  | 'G' | '`' => s.moveTo column s.curY
  | 'H' | 'f' => s.moveTo (min (s.cols - 1) (s.param 1 1 - 1)) row
  | 'd' => s.moveTo s.curX row
  | 'J' => s.eraseDisplay (s.params.getD 0 0)
  | 'K' => s.eraseLine (s.params.getD 0 0)
  | 'L' => s.insertLines n
  | 'M' => s.deleteLines n
  | '@' => s.insertChars n
  | 'P' => s.deleteChars n
  | 'X' => s.eraseChars n
  | 'S' => s.scrollUp n
  | 'T' => s.scrollDown n
  | 'r' => s.setScrollRegion
  | 's' => if s.csiParams = [] then s.saveCursor else s
  | 'u' => if s.csiParams = [] then s.restoreCursor else s
  | 'n' | 'c' | 't' => s.answer final
  | _ => s

def dispatchCsi (final : Char) : TerminalScreen :=
  let s :=
    if final ∈ "HfJKLM@PXSTrd".toList then { s with paintOps := s.paintOps + 1 } else s
  if s.csiPrefix = some '?' ∧ (final = 'h' ∨ final = 'l') then s.handleDecMode s.params (final = 'h')
  else if s.csiPrefix ≠ none ∧ final ≠ 'c' ∧ final ≠ 'n' then s
  else s.perform final

def dispatchOsc : TerminalScreen :=
  let query (text : String) : Bool := s.oscBuf = text.toList.map Char.toNat
  let s := if query "10;?" then s.respond (.color true)
    else if query "11;?" then s.respond (.color false) else s
  { s with oscBuf := [] }

def feedEsc (ch : CodePoint) : TerminalScreen :=
  let ground (s : TerminalScreen) : TerminalScreen := { s with state := .ground }
  match Char.ofNat ch with
  | '[' => s.startCsi
  | ']' => { s with state := .osc, oscBuf := [], strEsc := false }
  | 'P' | 'X' | '^' | '_' => { s with state := .str, strEsc := false }
  | '(' | ')' | '*' | '+' => { s with state := .charset }
  | '7' => ground s.saveCursor
  | '8' => ground s.restoreCursor
  | 'D' => ground s.lineFeed
  | 'M' => ground s.reverseLineFeed
  | 'E' => ground { s with curX := 0 }.lineFeed
  | 'c' => s.reset
  | _ => ground s

def feedCsi (ch : CodePoint) : TerminalScreen :=
  if ch = 0x1b then { s with state := .esc }
  else if 0x30 ≤ ch ∧ ch ≤ 0x3f then { s with csiParams := s.csiParams ++ [Char.ofNat ch] }
  else if 0x20 ≤ ch ∧ ch ≤ 0x2f then
    { s with csiIntermediates := s.csiIntermediates ++ [Char.ofNat ch] }
  else if 0x40 ≤ ch ∧ ch ≤ 0x7e then { s.dispatchCsi (Char.ofNat ch) with state := .ground }
  else { s with state := .ground }

def feedString (ch : CodePoint) (osc : Bool) : TerminalScreen :=
  let finish (s : TerminalScreen) : TerminalScreen :=
    { if osc then s.dispatchOsc else s with state := .ground }
  if s.strEsc then
    if ch = 0x5c then finish { s with strEsc := false }
    else { s with strEsc := false, state := .esc }.feedEsc ch
  else if ch = 0x1b then { s with strEsc := true }
  else if ch = 0x07 then finish s
  else if osc ∧ (s.oscBuf.map fun cp => if cp < 0x10000 then 1 else 2).sum < 4096 then
    { s with oscBuf := s.oscBuf ++ [ch] }
  else s

def feedGround (code : CodePoint) : TerminalScreen :=
  if code = 0x1b then { s with state := .esc }
  else if code = 0x9b then s.startCsi
  else if code = 0x0d then { s with curX := 0 }
  else if code = 0x0a ∨ code = 0x0b ∨ code = 0x0c then s.lineFeed
  else if code = 0x08 then { s with curX := s.curX - 1 }
  else if code = 0x09 then { s with curX := min (s.cols - 1) ((s.curX / 8 + 1) * 8) }
  else if code < 0x20 ∨ code = 0x7f then s
  else s.putChar code

def feedChar (ch : CodePoint) : TerminalScreen :=
  match s.state with
  | .ground => s.feedGround ch
  | .esc => s.feedEsc ch
  | .csi => s.feedCsi ch
  | .osc => s.feedString ch true
  | .str => s.feedString ch false
  | .charset => { s with state := .ground }

def feed (data : List CodePoint) : TerminalScreen := data.foldl feedChar s

end TerminalScreen

end Rolebox.Terminal
