import Rolebox.General.Transition
import Rolebox.Terminal.ScreenBuffer

/-! What one code point does to the lines of a screen, and the grid that every call keeps. -/

namespace Rolebox.Terminal
open General List

theorem charWidth_le_two (cp : CodePoint) : charWidth cp ≤ 2 := by
  unfold charWidth
  split
  · omega
  split <;> omega

inductive Edit where
  | print (code : CodePoint)
  | erase (start stop : Nat)
  | insert (n : Nat)
  | delete (n : Nat)

def Edit.apply (cols x : Nat) : Edit → Line → Line
  | print code => putCell cols x code
  | erase start stop => eraseSpan start stop
  | insert n => insertCells x n
  | delete n => deleteCells x n

namespace TerminalScreen
variable (s : TerminalScreen)

def csiEdit (final : Char) : Option Edit :=
  let n := s.param 0 1
  let mode := s.params.getD 0 0
  match final with
  | 'J' | 'K' =>
    if mode = 0 then some (.erase s.curX s.cols)
    else if mode = 1 then some (.erase 0 (min s.curX (s.cols - 1) + 1))
    else none
  | '@' => some (.insert n)
  | 'P' => some (.delete n)
  | 'X' => some (.erase s.curX (min s.cols (s.curX + n)))
  | _ => none

def editOf (ch : CodePoint) : Option (TerminalScreen × Edit) :=
  match s.state with
  | .ground =>
    if ch < 0x20 ∨ ch = 0x7f ∨ ch = 0x9b ∨ charWidth ch = 0 then none
    else some (s.wrapped (charWidth ch), .print ch)
  | .csi =>
    if s.csiPrefix = none ∧ 0x40 ≤ ch ∧ ch ≤ 0x7e then
      (s.csiEdit (Char.ofNat ch)).map fun edit => (s, edit)
    else none
  | _ => none

theorem lineFeed_same : s.lineFeed.curX = s.curX ∧ s.lineFeed.cols = s.cols := by
  unfold lineFeed
  split
  · exact ⟨rfl, rfl⟩
  · exact ⟨rfl, rfl⟩

theorem wrapped_cols (width : Nat) : (s.wrapped width).cols = s.cols := by
  unfold wrapped
  split
  · exact (lineFeed_same _).2
  · rfl

variable {s} in
theorem wrapped_fits {width : Nat} (h : width ≤ s.cols) :
    (s.wrapped width).curX + width ≤ (s.wrapped width).cols := by
  rw [wrapped_cols]
  unfold wrapped
  split
  · rw [(lineFeed_same _).1]
    show 0 + width ≤ s.cols
    omega
  · omega

def Remains (rows : Nat) (line : Line) : Prop :=
  line ∈ s.lines.take rows ∨ ∃ saved ∈ s.altSaved, line ∈ saved.lines.take rows

def EndsCsi (final : Char) (ch : CodePoint) : Prop :=
  s.state = .csi ∧ s.csiPrefix = none ∧ Char.ofNat ch = final

def AsksCursor (ch : CodePoint) : Prop := s.EndsCsi 'n' ch ∧ s.params.getD 0 0 = 6

instance (final : Char) (ch : CodePoint) : Decidable (s.EndsCsi final ch) :=
  inferInstanceAs (Decidable (_ ∧ _ ∧ _))

instance (ch : CodePoint) : Decidable (s.AsksCursor ch) := inferInstanceAs (Decidable (_ ∧ _))

variable {s}

theorem csiEdit_erase {final : Char} {start stop : Nat}
    (h : s.csiEdit final = some (.erase start stop)) (hx : s.curX ≤ s.cols) (hcols : 2 ≤ s.cols) :
    start ≤ stop ∧ stop ≤ s.cols := by
  unfold csiEdit at h
  dsimp only at h
  split at h
  · split at h
    · cases h
      exact ⟨hx, Nat.le_refl _⟩
    split at h
    · cases h
      exact ⟨Nat.zero_le _, by omega⟩
    · cases h
  · split at h
    · cases h
      exact ⟨hx, Nat.le_refl _⟩
    split at h
    · cases h
      exact ⟨Nat.zero_le _, by omega⟩
    · cases h
  · cases h
  · cases h
  · cases h
    exact ⟨by omega, Nat.min_le_left ..⟩
  · cases h

theorem csiEdit_delete {final : Char} {n : Nat} (h : s.csiEdit final = some (.delete n)) :
    final = 'P' := by
  unfold csiEdit at h
  dsimp only at h
  split at h
  case h_4 => rfl
  all_goals repeat' first | cases h | split at h

theorem editOf_cases {ch : CodePoint} {t : TerminalScreen} {edit : Edit}
    (h : s.editOf ch = some (t, edit)) :
    (t = s.wrapped (charWidth ch) ∧ edit = .print ch ∧ charWidth ch ≠ 0) ∨
      (t = s ∧ s.csiEdit (Char.ofNat ch) = some edit ∧ s.EndsCsi (Char.ofNat ch) ch) := by
  unfold editOf at h
  split at h
  · split at h
    · cases h
    · next hprinted =>
      cases h
      exact .inl ⟨rfl, rfl, fun hwidth => hprinted (.inr (.inr (.inr hwidth)))⟩
  · next hstate =>
    split at h
    · next hfinal =>
      obtain ⟨found, hfound, hpair⟩ := Option.map_eq_some_iff.1 h
      cases hpair
      exact .inr ⟨rfl, hfound, hstate, hfinal.1, rfl⟩
    · cases h
  · cases h

end TerminalScreen

section Sound
variable {P : Nat → Line → Prop} {Q : Nat → Nat → Nat → Nat → Prop} {s : TerminalScreen}

structure Sound (P : Nat → Line → Prop) (Q : Nat → Nat → Nat → Nat → Prop) (s : TerminalScreen) :
    Prop where
  cols : 2 ≤ s.cols
  height : s.lines.length = s.rows
  lines : ∀ line ∈ s.lines, P s.cols line
  saved : ∀ saved ∈ s.altSaved,
    saved.lines.length = s.rows ∧ ∀ line ∈ saved.lines, P s.cols line
  scroll : s.scrollTop ≤ s.scrollBottom ∧ s.scrollBottom < s.rows
  curY : s.curY < s.rows
  curX : s.curX ≤ s.cols
  reported : ∀ sent ∈ s.sent, ∀ row col, sent.reply = .cursor row col →
    Q row col sent.rows sent.cols

namespace Sound

section

variable (h : Sound P Q s)
include h

theorem withLines {lines : List Line} (hlength : lines.length = s.rows)
    (hlines : ∀ line ∈ lines, P s.cols line) : Sound P Q { s with lines } :=
  { h with height := hlength, lines := hlines }

theorem moveTo {x y : Nat} (hx : x ≤ s.cols) (hy : y < s.rows) : Sound P Q (s.moveTo x y) :=
  { h with curX := hx, curY := hy }

theorem line : P s.cols s.line := by
  have hy : s.curY < s.lines.length := h.height ▸ h.curY
  have hline : s.line = s.lines[s.curY] := by simp [TerminalScreen.line, hy]
  rw [hline]
  exact h.lines _ (getElem_mem hy)

theorem onLine {edit : Line → Line} (hedit : P s.cols (edit s.line)) :
    Sound P Q (s.onLine edit) := by
  refine h.withLines (by rw [length_set, h.height]) fun line hline => ?_
  rcases mem_or_eq_of_mem_set hline with hold | hnew
  · exact h.lines line hold
  · rw [hnew]
    exact hedit

theorem respond {reply : Reply}
    (hreply : ∀ row col, reply = .cursor row col → Q row col s.rows s.cols) :
    Sound P Q (s.respond reply) := by
  refine { h with reported := fun sent hsent => ?_ }
  rcases mem_append.1 hsent with hold | hnew
  · exact h.reported sent hold
  · rw [mem_singleton.1 hnew]
    exact hreply

theorem restoreCursor : Sound P Q s.restoreCursor := by
  have hcols := h.cols
  have hrows := h.curY
  exact h.moveTo (by omega) (by omega)

theorem answer (final : Char)
    (hask : s.csiPrefix = none → s.params.getD 0 0 = 6 → final = 'n' →
      Q (s.curY + 1) (s.curX + 1) s.rows s.cols) : Sound P Q (s.answer final) := by
  have hother : ∀ {reply : Reply}, (∀ row col, reply ≠ .cursor row col) →
      Sound P Q (s.respond reply) := fun hne =>
    h.respond fun row col hcursor => absurd hcursor (hne row col)
  unfold TerminalScreen.answer
  dsimp only
  split
  · next hfinal =>
    split
    · next hcursor =>
      refine h.respond fun row col hreply => ?_
      cases hreply
      exact hask hcursor.1 hcursor.2 hfinal
    split
    · exact hother (by simp)
    · exact h
  split
  · split
    · exact hother (by simp)
    split
    · exact hother (by simp)
    · exact h
  split
  · exact hother (by simp)
  · exact h

theorem setScrollRegion : Sound P Q s.setScrollRegion := by
  have hrows := h.curY
  unfold TerminalScreen.setScrollRegion
  dsimp only
  split
  · next hregion =>
    have hscrolled : Sound P Q { s with
        scrollTop := s.param 0 1 - 1
        scrollBottom := min (s.rows - 1) (s.param 1 s.rows - 1) } :=
      { h with scroll := ⟨Nat.le_of_lt hregion, by show min _ _ < s.rows; omega⟩ }
    exact hscrolled.moveTo (Nat.zero_le _) (Nat.zero_lt_of_lt hrows)
  · have hscrolled : Sound P Q { s with scrollTop := 0, scrollBottom := s.rows - 1 } :=
      { h with scroll := ⟨Nat.zero_le _, by show s.rows - 1 < s.rows; omega⟩ }
    exact hscrolled.moveTo (Nat.zero_le _) (Nat.zero_lt_of_lt hrows)

end

section Shifting
variable (hblank : ∀ cols, P cols (blankLine cols))
include hblank

section

variable (h : Sound P Q s)
include h

theorem shiftLines {out into : Nat} (hout : out < s.rows) (n : Nat) :
    Sound P Q (s.shiftLines out into n) := by
  have hshift : ∀ lines : List Line, lines.length = s.rows → (∀ line ∈ lines, P s.cols line) →
      (spliceIn (lines.eraseIdx out) into (blankLine s.cols)).length = s.rows ∧
        ∀ line ∈ spliceIn (lines.eraseIdx out) into (blankLine s.cols), P s.cols line := by
    intro lines hlength hlines
    refine ⟨?_, fun line hline => ?_⟩
    · have herase := length_eraseIdx_of_lt (l := lines) (i := out) (by omega)
      simp [spliceIn, herase]
      omega
    · have hsplit : line ∈ lines.eraseIdx out ∨ line = blankLine s.cols := by
        rcases mem_append.1 hline with hfront | hback
        · exact .inl (mem_of_mem_take hfront)
        · rcases mem_cons.1 hback with hnew | hback
          · exact .inr hnew
          · exact .inl (mem_of_mem_drop hback)
      rcases hsplit with hold | hnew
      · exact hlines line (mem_of_mem_eraseIdx hold)
      · rw [hnew]
        exact hblank s.cols
  have hall : ∀ (n : Nat) (lines : List Line), lines.length = s.rows →
      (∀ line ∈ lines, P s.cols line) →
      ((fun lines => spliceIn (lines.eraseIdx out) into (blankLine s.cols))^[n] lines).length =
          s.rows ∧
        ∀ line ∈ (fun lines => spliceIn (lines.eraseIdx out) into (blankLine s.cols))^[n] lines,
          P s.cols line := by
    intro n
    induction n with
    | zero => exact fun lines hlength hlines => ⟨hlength, hlines⟩
    | succ n ih =>
      intro lines hlength hlines
      obtain ⟨hlength', hlines'⟩ := hshift lines hlength hlines
      exact ih _ hlength' hlines'
  obtain ⟨hlength, hlines⟩ := hall n s.lines h.height h.lines
  exact h.withLines hlength hlines

theorem lineFeed : Sound P Q s.lineFeed := by
  have hrows := h.curY
  unfold TerminalScreen.lineFeed
  split
  · exact h.shiftLines hblank (Nat.lt_of_le_of_lt h.scroll.1 h.scroll.2) 1
  · exact h.moveTo h.curX (by omega)

theorem reverseLineFeed : Sound P Q s.reverseLineFeed := by
  have hrows := h.curY
  unfold TerminalScreen.reverseLineFeed
  split
  · exact h.shiftLines hblank h.scroll.2 1
  · exact h.moveTo h.curX (by omega)

theorem wrapped (width : Nat) : Sound P Q (s.wrapped width) := by
  unfold TerminalScreen.wrapped
  split
  · have hstart : Sound P Q { s with curX := 0 } := { h with curX := Nat.zero_le _ }
    exact hstart.lineFeed hblank
  · exact h

theorem feedPrint (ch : CodePoint)
    (hedit : charWidth ch ≠ 0 → ∀ t, t = s.wrapped (charWidth ch) → Sound P Q t →
      P t.cols (putCell t.cols t.curX ch t.line)) : Sound P Q (s.putChar ch) := by
  unfold TerminalScreen.putChar
  dsimp only
  split
  · exact h
  next hwidth =>
  have hwrapped := h.wrapped hblank (charWidth ch)
  have hput := hwrapped.onLine (hedit hwidth _ rfl hwrapped)
  have hfits := Nat.le_trans (charWidth_le_two ch) h.cols
  exact { hput with curX := TerminalScreen.wrapped_fits hfits }

theorem blankRows (start stop : Nat) : Sound P Q (s.blankRows start stop) := by
  refine h.withLines (by rw [length_mapIdx, h.height]) fun line hline => ?_
  obtain ⟨y, hy, rfl⟩ := mem_mapIdx.1 hline
  split
  · exact hblank s.cols
  · exact h.lines _ (getElem_mem hy)

end

theorem blanks (cols rows : Nat) : ∀ line ∈ blankLines cols rows, P cols line := by
  intro line hline
  rw [eq_of_mem_replicate hline]
  exact hblank cols

section

variable (h : Sound P Q s)
include h

theorem renewed {altSaved : Option SavedScreen}
    (hsaved : ∀ saved ∈ altSaved,
      saved.lines.length = s.rows ∧ ∀ line ∈ saved.lines, P s.cols line) :
    Sound P Q { s with
      altSaved, lines := blankLines s.cols s.rows, curX := 0, curY := 0, scrollTop := 0
      scrollBottom := s.rows - 1 } := by
  have hrows := h.curY
  refine ⟨h.cols, length_replicate, blanks hblank _ _, hsaved, ⟨Nat.zero_le _, ?_⟩, ?_,
    Nat.zero_le _, h.reported⟩
  · show s.rows - 1 < s.rows
    omega
  · show 0 < s.rows
    omega

theorem reset : Sound P Q s.reset := by
  have hnone : ∀ saved ∈ (none : Option SavedScreen),
      saved.lines.length = s.rows ∧ ∀ line ∈ saved.lines, P s.cols line :=
    nofun
  exact { h.renewed hblank hnone with }

theorem handleDecMode (params : List Nat) (set : Bool) :
    Sound P Q (s.handleDecMode params set) := by
  have henter : ∀ {s : TerminalScreen}, Sound P Q s → Sound P Q s.enterAlternate := by
    intro s h
    unfold TerminalScreen.enterAlternate
    split
    · exact h
    · refine h.renewed hblank fun saved hsaved => ?_
      rw [← Option.some.inj hsaved]
      exact ⟨h.height, h.lines⟩
  have hleave : ∀ {s : TerminalScreen}, Sound P Q s → Sound P Q s.leaveAlternate := by
    intro s h
    have hcols := h.cols
    have hrows := h.curY
    unfold TerminalScreen.leaveAlternate
    split
    · exact h
    next saved hsaved =>
    obtain ⟨hheight, hlines⟩ := h.saved saved hsaved
    refine ⟨h.cols, hheight, hlines, by simp, ⟨Nat.zero_le _, ?_⟩, ?_, ?_, h.reported⟩
    · show s.rows - 1 < s.rows
      omega
    · show min saved.curY (s.rows - 1) < s.rows
      omega
    · show min saved.curX (s.cols - 1) ≤ s.cols
      omega
  unfold TerminalScreen.handleDecMode
  induction params generalizing s with
  | nil => exact h
  | cons mode params ih =>
    rw [foldl_cons]
    apply ih
    split
    · split
      · exact henter h
      · exact hleave h
    · exact h

theorem eraseLine {mode : Nat} (hright : mode = 0 → P s.cols (eraseSpan s.curX s.cols s.line))
    (hleft : mode = 1 → P s.cols (eraseSpan 0 (min s.curX (s.cols - 1) + 1) s.line)) :
    Sound P Q (s.eraseLine mode) := by
  apply h.onLine
  split
  · next hmode => exact hright hmode
  split
  · next hmode => exact hleft hmode
  · exact hblank s.cols

theorem eraseDisplay {mode : Nat} (hright : mode = 0 → P s.cols (eraseSpan s.curX s.cols s.line))
    (hleft : mode = 1 → P s.cols (eraseSpan 0 (min s.curX (s.cols - 1) + 1) s.line)) :
    Sound P Q (s.eraseDisplay mode) := by
  unfold TerminalScreen.eraseDisplay
  split
  · next hmode =>
    exact (h.eraseLine hblank (fun _ => hright hmode) (by simp)).blankRows hblank _ _
  split
  · next hmode =>
    exact (h.eraseLine hblank (by simp) fun _ => hleft hmode).blankRows hblank _ _
  · exact h.blankRows hblank _ _

theorem perform (final : Char)
    (hask : s.csiPrefix = none → s.params.getD 0 0 = 6 → final = 'n' →
      Q (s.curY + 1) (s.curX + 1) s.rows s.cols)
    (hedit : ∀ edit, s.csiEdit final = some edit → P s.cols (edit.apply s.cols s.curX s.line)) :
    Sound P Q (s.perform final) := by
  have hcols := h.cols
  have hx := h.curX
  have hy := h.curY
  have hscroll := h.scroll
  have herase : final = 'J' ∨ final = 'K' →
      (s.params.getD 0 0 = 0 → P s.cols (eraseSpan s.curX s.cols s.line)) ∧
      (s.params.getD 0 0 = 1 →
        P s.cols (eraseSpan 0 (min s.curX (s.cols - 1) + 1) s.line)) := by
    intro hfinal
    constructor
    · intro hmode
      refine hedit (.erase s.curX s.cols) ?_
      rcases hfinal with rfl | rfl <;> exact if_pos hmode
    · intro hmode
      refine hedit (.erase 0 (min s.curX (s.cols - 1) + 1)) ?_
      have hother : ¬ s.params.getD 0 0 = 0 := by omega
      rcases hfinal with rfl | rfl <;> exact (if_neg hother).trans (if_pos hmode)
  unfold TerminalScreen.perform
  split
  case h_1 => exact h.moveTo hx (by omega)
  case h_2 | h_3 => exact h.moveTo hx (by omega)
  case h_4 | h_5 => exact h.moveTo (by omega) hy
  case h_6 => exact h.moveTo (by omega) hy
  case h_7 => exact h.moveTo (Nat.zero_le _) (by omega)
  case h_8 => exact h.moveTo (Nat.zero_le _) (by omega)
  case h_9 | h_10 => exact h.moveTo (by omega) hy
  case h_11 | h_12 => exact h.moveTo (by omega) (by omega)
  case h_13 => exact h.moveTo hx (by omega)
  case h_14 => exact h.eraseDisplay hblank (herase (.inl rfl)).1 (herase (.inl rfl)).2
  case h_15 => exact h.eraseLine hblank (herase (.inr rfl)).1 (herase (.inr rfl)).2
  case h_16 =>
    unfold TerminalScreen.insertLines
    split
    · exact h
    · exact h.shiftLines hblank hscroll.2 _
  case h_17 =>
    unfold TerminalScreen.deleteLines
    split
    · exact h
    · exact h.shiftLines hblank hy _
  case h_18 => exact h.onLine (hedit _ rfl)
  case h_19 => exact h.onLine (hedit _ rfl)
  case h_20 => exact h.onLine (hedit _ rfl)
  case h_21 => exact h.shiftLines hblank (Nat.lt_of_le_of_lt hscroll.1 hscroll.2) _
  case h_22 => exact h.shiftLines hblank hscroll.2 _
  case h_23 => exact h.setScrollRegion
  case h_24 =>
    split
    · exact { h with }
    · exact h
  case h_25 =>
    split
    · exact h.restoreCursor
    · exact h
  case h_26 | h_27 | h_28 => exact h.answer _ hask
  case h_29 => exact h

theorem dispatchCsi (final : Char)
    (hask : s.csiPrefix = none → s.params.getD 0 0 = 6 → final = 'n' →
      Q (s.curY + 1) (s.curX + 1) s.rows s.cols)
    (hedit : s.csiPrefix = none → ∀ edit, s.csiEdit final = some edit →
      P s.cols (edit.apply s.cols s.curX s.line)) : Sound P Q (s.dispatchCsi final) := by
  obtain ⟨t, ht⟩ : ∃ t, t = (if final ∈ "HfJKLM@PXSTrd".toList then
      { s with paintOps := s.paintOps + 1 } else s) := ⟨_, rfl⟩
  have hpainted : Sound P Q t ∧ t.csiPrefix = s.csiPrefix ∧ t.params = s.params ∧
      t.csiEdit final = s.csiEdit final ∧ t.curX = s.curX ∧ t.curY = s.curY ∧ t.rows = s.rows ∧
      t.cols = s.cols ∧ t.line = s.line := by
    rw [ht]
    split
    · exact ⟨{ h with }, rfl, rfl, rfl, rfl, rfl, rfl, rfl, rfl⟩
    · exact ⟨h, rfl, rfl, rfl, rfl, rfl, rfl, rfl, rfl⟩
  obtain ⟨hsound, hbegins, hparams, hcsi, hx, hy, hrows, hcols, hline⟩ := hpainted
  unfold TerminalScreen.dispatchCsi
  rw [← ht]
  dsimp only
  split
  · exact hsound.handleDecMode hblank _ _
  split
  · exact hsound
  next hplain =>
  by_cases hnone : s.csiPrefix = none
  · apply hsound.perform hblank
    · rw [hbegins, hparams, hx, hy, hrows, hcols]
      exact hask
    · rw [hcsi, hcols, hx, hline]
      exact hedit hnone
  · -- a prefixed sequence ends in c or n, and these edit nothing
    have hfinal : final = 'c' ∨ final = 'n' := by
      rw [hbegins] at hplain
      by_contra hother
      exact hplain ⟨hnone, fun hc => hother (.inl hc), fun hn => hother (.inr hn)⟩
    apply hsound.perform hblank
    · intro hno
      exact absurd (hbegins ▸ hno) hnone
    · rcases hfinal with rfl | rfl <;> exact nofun

theorem feedEsc (ch : CodePoint) : Sound P Q (s.feedEsc ch) := by
  have hstart : Sound P Q { s with curX := 0 } := { h with curX := Nat.zero_le _ }
  unfold TerminalScreen.feedEsc
  split
  case h_12 => exact { h.restoreCursor with }
  case h_13 => exact { h.lineFeed hblank with }
  case h_14 => exact { h.reverseLineFeed hblank with }
  case h_15 => exact { hstart.lineFeed hblank with }
  case h_16 => exact h.reset hblank
  all_goals exact { h with }

theorem feedString (ch : CodePoint) (osc : Bool) : Sound P Q (s.feedString ch osc) := by
  have hfinish : ∀ {s : TerminalScreen}, Sound P Q s →
      Sound P Q { if osc then s.dispatchOsc else s with state := .ground } := by
    intro s h
    have hrespond : ∀ light, Sound P Q (s.respond (.color light)) := fun light =>
      h.respond nofun
    split
    · unfold TerminalScreen.dispatchOsc
      dsimp only
      split
      · exact { hrespond true with }
      split
      · exact { hrespond false with }
      · exact { h with }
    · exact { h with }
  unfold TerminalScreen.feedString
  dsimp only
  split
  · split
    · apply hfinish
      exact { h with }
    · apply feedEsc hblank
      exact { h with }
  split
  · exact { h with }
  split
  · exact hfinish h
  split
  · exact { h with }
  · exact h

theorem feedChar (ch : CodePoint)
    (hask : s.AsksCursor ch → Q (s.curY + 1) (s.curX + 1) s.rows s.cols)
    (hedit : ∀ t edit, s.editOf ch = some (t, edit) → Sound P Q t →
      P t.cols (edit.apply t.cols t.curX t.line)) : Sound P Q (s.feedChar ch) := by
  have hcols := h.cols
  have hx := h.curX
  unfold TerminalScreen.feedChar
  cases hstate : s.state with
  | ground =>
    dsimp only
    unfold TerminalScreen.feedGround
    split
    · exact { h with }
    split
    · exact { h with }
    split
    · exact { h with curX := Nat.zero_le _ }
    split
    · exact h.lineFeed hblank
    split
    · exact { h with curX := by show s.curX - 1 ≤ s.cols; omega }
    split
    · exact { h with curX := by show min (s.cols - 1) _ ≤ s.cols; omega }
    split
    · exact h
    next hesc hcsi hcr hlf hbs htab hignored =>
    refine h.feedPrint hblank ch fun hwidth t ht hsound => hedit t (.print ch) ?_ hsound
    have hprinted : ¬ (ch < 0x20 ∨ ch = 0x7f ∨ ch = 0x9b ∨ charWidth ch = 0) := by
      rintro (hc | hc | hc | hc)
      · exact hignored (.inl hc)
      · exact hignored (.inr hc)
      · exact hcsi hc
      · exact hwidth hc
    rw [TerminalScreen.editOf, hstate, ht]
    exact if_neg hprinted
  | esc => exact h.feedEsc hblank ch
  | csi =>
    dsimp only
    unfold TerminalScreen.feedCsi
    split
    · exact { h with }
    split
    · exact { h with }
    split
    · exact { h with }
    split
    · next hfinal =>
      have hdispatch : Sound P Q (s.dispatchCsi (Char.ofNat ch)) := by
        apply h.dispatchCsi hblank
        · exact fun hnone hsix hn => hask ⟨⟨hstate, hnone, hn⟩, hsix⟩
        intro hnone edit hsome
        refine hedit s edit ?_ h
        unfold TerminalScreen.editOf
        rw [hstate]
        dsimp only
        rw [if_pos ⟨hnone, hfinal⟩, hsome]
        rfl
      exact { hdispatch with }
    · exact { h with }
  | osc => exact h.feedString hblank ch true
  | str => exact h.feedString hblank ch false
  | charset => exact { h with }

end

theorem create (cols rows : Int) : Sound P Q (create cols rows) := by
  refine ⟨?_, length_replicate, blanks hblank _ _, ?_, ⟨Nat.zero_le _, ?_⟩, ?_, Nat.zero_le _, ?_⟩
  · show 2 ≤ (max 2 cols).toNat
    omega
  · exact nofun
  · show (max 1 rows).toNat - 1 < (max 1 rows).toNat
    omega
  · show 0 < (max 1 rows).toNat
    omega
  · exact nofun

theorem resize (h : Sound P Q s) (cols rows : Int)
    (hfit : ∀ line, s.Remains (max 1 rows).toNat line →
      P (max 2 cols).toNat (TerminalScreen.fitLine (max 2 cols).toNat line)) :
    Sound P Q (s.resize cols rows) := by
  have hlines : ∀ lines : List Line,
      (∀ line ∈ lines.take (max 1 rows).toNat,
        P (max 2 cols).toNat (TerminalScreen.fitLine (max 2 cols).toNat line)) →
      (TerminalScreen.fitLines (max 2 cols).toNat (max 1 rows).toNat lines).length =
          (max 1 rows).toNat ∧
        ∀ line ∈ TerminalScreen.fitLines (max 2 cols).toNat (max 1 rows).toNat lines,
          P (max 2 cols).toNat line := by
    intro lines hfit
    refine ⟨by simp [TerminalScreen.fitLines]; omega, fun line hline => ?_⟩
    rcases mem_append.1 hline with hold | hnew
    · rw [← map_take] at hold
      obtain ⟨before, hbefore, rfl⟩ := mem_map.1 hold
      exact hfit before hbefore
    · rw [eq_of_mem_replicate hnew]
      exact hblank _
  obtain ⟨hheight, hkept⟩ := hlines s.lines fun line hline => hfit line (.inl hline)
  refine ⟨?_, hheight, hkept, ?_, ⟨Nat.zero_le _, ?_⟩, ?_, ?_, h.reported⟩
  · show 2 ≤ (max 2 cols).toNat
    omega
  · intro saved hsaved
    obtain ⟨saved, hold, rfl⟩ := Option.map_eq_some_iff.1 hsaved
    exact hlines saved.lines fun line hline => hfit line (.inr ⟨saved, hold, hline⟩)
  · show (max 1 rows).toNat - 1 < (max 1 rows).toNat
    omega
  · show min s.curY ((max 1 rows).toNat - 1) < (max 1 rows).toNat
    omega
  · show min s.curX ((max 2 cols).toNat - 1) ≤ (max 2 cols).toNat
    omega

end Shifting

end Sound

end Sound

section Calls

inductive Call where
  | feed (data : List CodePoint)
  | resize (cols rows : Int)

def Call.run : Call → TerminalScreen → TerminalScreen
  | feed data, s => s.feed data
  | resize cols rows, s => s.resize cols rows

variable {ok : TerminalScreen → CodePoint → Prop} {fits : TerminalScreen → Nat → Nat → Prop}

def FeedsWith (ok : TerminalScreen → CodePoint → Prop) (s : TerminalScreen) : List CodePoint → Prop
  | [] => True
  | ch :: data => ok s ch ∧ FeedsWith ok (s.feedChar ch) data

def Call.Meets (ok : TerminalScreen → CodePoint → Prop)
    (fits : TerminalScreen → Nat → Nat → Prop) (s : TerminalScreen) : Call → Prop
  | feed data => FeedsWith ok s data
  | resize cols rows => fits s (max 2 cols).toNat (max 1 rows).toNat

def Steps (ok : TerminalScreen → CodePoint → Prop) (fits : TerminalScreen → Nat → Nat → Prop)
    (s : TerminalScreen) (call : Call) (t : TerminalScreen) : Prop :=
  call.Meets ok fits s ∧ t = call.run s

instance [∀ s ch, Decidable (ok s ch)] :
    (data : List CodePoint) → (s : TerminalScreen) → Decidable (FeedsWith ok s data)
  | [], _ => .isTrue True.intro
  | ch :: data, s =>
    haveI : Decidable (FeedsWith ok (s.feedChar ch) data) := instDecidableFeedsWith data _
    inferInstanceAs (Decidable (_ ∧ _))

theorem kept_by_calls {I : TerminalScreen → Prop}
    (hchar : ∀ s ch, ok s ch → I s → I (s.feedChar ch))
    (hsize : ∀ s cols rows, fits s (max 2 cols).toNat (max 1 rows).toNat → I s →
      I (s.resize cols rows))
    {s t : TerminalScreen} {calls : List Call} (hrun : Run (Steps ok fits) s calls t)
    (hs : I s) : I t := by
  refine hrun.invariant (fun s call t hs hstep => ?_) hs
  obtain ⟨hmeets, rfl⟩ := hstep
  cases call with
  | feed data =>
    induction data generalizing s with
    | nil => exact hs
    | cons ch data ih => exact ih _ (hchar s ch hmeets.1 hs) hmeets.2
  | resize cols rows => exact hsize s cols rows hmeets hs

end Calls

section Grid
variable {s : TerminalScreen} {x : Nat} {line : Line}

/-- `rows` lines of `cols` cells, cursor and region inside, and positions reported inside. -/
structure TerminalScreen.Grid (s : TerminalScreen) : Prop where
  lines : s.lines.length = s.rows ∧ ∀ line ∈ s.lines, line.length = s.cols
  saved : ∀ saved ∈ s.altSaved,
    saved.lines.length = s.rows ∧ ∀ line ∈ saved.lines, line.length = s.cols
  scroll : 0 ≤ s.scrollTop ∧ s.scrollTop ≤ s.scrollBottom ∧ s.scrollBottom < s.rows
  cursor : s.curY < s.rows ∧ s.curX ≤ s.cols
  reported : ∀ sent ∈ s.sent, ∀ row col, sent.reply = .cursor row col →
    (1 ≤ row ∧ row ≤ sent.rows) ∧ (1 ≤ col ∧ col ≤ sent.cols)

/-- No characters are deleted and no position is reported with the cursor past the last column. -/
def TerminalScreen.Unwrapped (s : TerminalScreen) (ch : CodePoint) : Prop :=
  s.curX = s.cols → ¬ s.EndsCsi 'P' ch ∧ ¬ s.AsksCursor ch

theorem length_eraseSpan {start stop : Nat} (h : start ≤ stop) (hstop : stop ≤ line.length) :
    (eraseSpan start stop line).length = line.length := by
  simp [eraseSpan]
  omega

theorem length_insertCells (n : Nat) : (insertCells x n line).length = line.length := by
  induction n generalizing line with
  | zero => rfl
  | succ n ih =>
    refine ih.trans ?_
    simp [spliceIn]
    omega

theorem length_deleteCells (h : x < line.length) (n : Nat) :
    (deleteCells x n line).length = line.length := by
  induction n generalizing line with
  | zero => rfl
  | succ n ih =>
    have hone : (line.eraseIdx x ++ [blank]).length = line.length := by
      rw [length_append, length_eraseIdx_of_lt h]
      exact Nat.sub_add_cancel (Nat.zero_lt_of_lt h)
    exact (ih (hone ▸ h)).trans hone

theorem length_putCell {cols : Nat} {code : CodePoint} :
    (putCell cols x code line).length = line.length := by
  unfold putCell
  split <;> simp

abbrev SoundGrid : TerminalScreen → Prop :=
  Sound (fun cols line => line.length = cols) fun row col rows cols =>
    (1 ≤ row ∧ row ≤ rows) ∧ (1 ≤ col ∧ col ≤ cols)

theorem SoundGrid.feedChar (h : SoundGrid s) {ch : CodePoint} (hok : s.Unwrapped ch) :
    SoundGrid (s.feedChar ch) := by
  have hcols := h.cols
  have hx := h.curX
  have hy := h.curY
  have hinside : s.EndsCsi 'P' ch ∨ s.AsksCursor ch → s.curX < s.cols := by
    intro hends
    refine Nat.lt_of_le_of_ne hx fun hpast => ?_
    rcases hends with hdelete | hask
    · exact (hok hpast).1 hdelete
    · exact (hok hpast).2 hask
  refine Sound.feedChar (fun cols => length_replicate) h ch ?_ ?_
  · intro hask
    have hlt := hinside (.inr hask)
    omega
  · intro t edit hedit ht
    have hline := ht.line
    cases edit with
    | print code => exact length_putCell.trans hline
    | insert n => exact (length_insertCells n).trans hline
    | erase start stop =>
      obtain ⟨-, hprint, -⟩ | ⟨rfl, hcsi, -⟩ := TerminalScreen.editOf_cases hedit
      · cases hprint
      · obtain ⟨hle, hstop⟩ := TerminalScreen.csiEdit_erase hcsi hx hcols
        exact (length_eraseSpan hle (hline ▸ hstop)).trans hline
    | delete n =>
      obtain ⟨-, hprint, -⟩ | ⟨rfl, hcsi, hends⟩ := TerminalScreen.editOf_cases hedit
      · cases hprint
      · have hlt := hinside (.inl (TerminalScreen.csiEdit_delete hcsi ▸ hends))
        exact (length_deleteCells (by omega) n).trans hline

instance (ch : CodePoint) : Decidable (s.Unwrapped ch) := inferInstanceAs (Decidable (_ → _ ∧ _))

/-- With no deletion and no position report past the last column, every screen is a grid. -/
theorem grid_of_unwrapped {cols rows : Int} {calls : List Call}
    (h : Run (Steps TerminalScreen.Unwrapped fun _ _ _ => True) (create cols rows) calls s) :
    s.Grid := by
  have hblank : ∀ cols, (blankLine cols).length = cols := fun cols => length_replicate
  have hsound : SoundGrid s := by
    refine kept_by_calls (I := SoundGrid) ?_ ?_ h (Sound.create hblank cols rows)
    · exact fun s ch hok hs => hs.feedChar hok
    intro s cols rows _ hs
    refine Sound.resize hblank hs cols rows fun line _ => ?_
    simp [TerminalScreen.fitLine]
    omega
  exact
    { lines := ⟨hsound.height, hsound.lines⟩
      saved := hsound.saved
      scroll := ⟨Nat.zero_le _, hsound.scroll⟩
      cursor := ⟨hsound.curY, hsound.curX⟩
      reported := hsound.reported }

theorem grid_of_unwrapped_report :
    ((create 2 2).feed [97, 98, 99, 27, 91, 80, 27, 91, 54, 110]).Grid := by
  have hrun : Run (Steps TerminalScreen.Unwrapped fun _ _ _ => True) (create 2 2)
      [.feed [97, 98, 99, 27, 91, 80, 27, 91, 54, 110]]
      ((create 2 2).feed [97, 98, 99, 27, 91, 80, 27, 91, 54, 110]) := by
    refine .cons ⟨?_, rfl⟩ (.nil _)
    show FeedsWith _ _ _
    decide +kernel
  exact grid_of_unwrapped hrun

/-- Deleting on a full line makes it longer, and the position reported is past its end. -/
theorem pending_wrap_not_grid :
    (∃ s, Run (Steps (fun _ _ => True) fun _ _ _ => True) (create 2 1)
      [.feed [97, 98, 27, 91, 80]] s ∧ ¬ s.Grid) ∧
    ∃ s, Run (Steps (fun _ _ => True) fun _ _ _ => True) (create 2 1)
      [.feed [97, 98, 27, 91, 54, 110]] s ∧ ¬ s.Grid := by
  have hfree : ∀ data s, FeedsWith (fun _ _ => True) s data := by
    intro data
    induction data with
    | nil => exact fun _ => True.intro
    | cons ch data ih => exact fun s => ⟨True.intro, ih _⟩
  refine ⟨⟨_, .cons ⟨hfree _ _, rfl⟩ (.nil _), fun h => ?_⟩,
    ⟨_, .cons ⟨hfree _ _, rfl⟩ (.nil _), fun h => ?_⟩⟩
  · have hline := h.lines.2 [.char 97, .char 98, blank] (by decide +kernel)
    exact absurd hline (by decide +kernel)
  · have hreport := h.reported { reply := .cursor 1 3, rows := 1, cols := 2 } ?_ 1 3 rfl
    · exact absurd hreport.2.2 (by decide)
    · decide +kernel

end Grid

end Rolebox.Terminal
