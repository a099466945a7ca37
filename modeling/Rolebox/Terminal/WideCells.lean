import Mathlib.Data.List.DropRight
import Rolebox.Hashline.Text
import Rolebox.Terminal.ScreenGrid

/-! Lines in which each double-width character is followed by its empty cell. -/

namespace Rolebox.Terminal
open General List Function
variable {line : Line} {x y : Nat}

/-- Read a cell; the flag says that an empty cell must come. -/
def owe (owed : Bool) : Cell → Option Bool
  | .empty => if owed then some false else none
  | .char code => if owed ∨ charWidth code = 0 then none else some (charWidth code = 2)

def readCells (owed : Bool) (line : Line) : Option Bool := line.foldlM owe owed

def Paired (line : Line) : Prop := readCells false line = some false

/-- The left edge of cell `x` falls inside a wide character. -/
def Splits (line : Line) (x : Nat) : Prop := (line)[x]? = some .empty

instance : Decidable (Splits line x) := inferInstanceAs (Decidable (_ = _))

theorem owe_empty {owed next : Bool} :
    owe owed .empty = some next ↔ owed = true ∧ next = false := by
  cases owed <;> cases next <;> decide

theorem owe_char {owed next : Bool} {code : CodePoint} :
    owe owed (.char code) = some next ↔
      owed = false ∧ charWidth code ≠ 0 ∧ next = decide (charWidth code = 2) := by
  cases owed with
  | true => simp [owe]
  | false =>
    by_cases hzero : charWidth code = 0
    · simp [owe, hzero]
    · simp [owe, hzero, eq_comm]

theorem readCells_append (owed : Bool) (line rest : Line) :
    readCells owed (line ++ rest) = (readCells owed line).bind fun owed => readCells owed rest :=
  foldlM_append

theorem readCells_blanks (n : Nat) : readCells false (replicate n blank) = some false := by
  induction n with
  | zero => rfl
  | succ n ih => exact ih

section

variable (h : Paired line)
include h

theorem Paired.readCells_at (x : Nat) :
    readCells false (line.take x) = some (decide (Splits line x)) ∧
      readCells (decide (Splits line x)) (line.drop x) = some false := by
  have hwhole : readCells false (line.take x ++ line.drop x) = some false := by
    rw [take_append_drop]
    exact h
  rw [readCells_append] at hwhole
  obtain ⟨owed, hleft, hright⟩ := Option.bind_eq_some_iff.1 hwhole
  have hhead : Splits line x ↔ (line.drop x).head? = some .empty := by
    rw [head?_drop]
    rfl
  have howed : owed = decide (Splits line x) := by
    rw [Bool.eq_iff_iff, decide_eq_true_iff, hhead]
    cases hdrop : line.drop x with
    | nil =>
      rw [hdrop] at hright
      simp [Option.some.inj hright]
    | cons cell rest =>
      rw [hdrop, readCells, foldlM_cons] at hright
      obtain ⟨after, hcell, -⟩ := Option.bind_eq_some_iff.1 hright
      cases cell with
      | empty => simp [(owe_empty.1 hcell).1]
      | char code => simp [(owe_char.1 hcell).1]
  exact ⟨howed ▸ hleft, howed ▸ hright⟩

section

variable (hx : ¬ Splits line x)
include hx

theorem Paired.readCells_left : readCells false (line.take x) = some false := by
  rw [(h.readCells_at x).1, decide_eq_false hx]

theorem Paired.readCells_right : readCells false (line.drop x) = some false := by
  have hright := (h.readCells_at x).2
  rwa [decide_eq_false hx] at hright

theorem Paired.readCells_between (hxy : x ≤ y)
    (hy : ¬ Splits line y) : readCells false ((line.drop x).take (y - x)) = some false := by
  have hleft := h.readCells_left hy
  obtain ⟨k, rfl⟩ := Nat.exists_eq_add_of_le hxy
  rw [take_add, readCells_append, h.readCells_left hx] at hleft
  rwa [Nat.add_sub_cancel_left]

theorem Paired.replace {cells : Line}
    (hcells : readCells false cells = some false) (hy : ¬ Splits line y) :
    Paired (line.take x ++ cells ++ line.drop y) := by
  unfold Paired
  rw [readCells_append, readCells_append, h.readCells_left hx]
  show ((readCells false cells).bind _) = _
  rw [hcells]
  exact h.readCells_right hy

end

end

section Editing

/-- The edges of an edit do not fall inside wide characters. -/
def Edit.Whole (line : Line) (x : Nat) : Edit → Prop
  | print code => ¬ Splits line x ∧ ¬ Splits line (x + charWidth code)
  | erase start stop => start < stop → ¬ Splits line start ∧ ¬ Splits line stop
  | insert n => ¬ Splits line x ∧ ¬ Splits line (max x (line.length - n))
  | delete n => Splits line x ↔ Splits line (x + n)

instance (edit : Edit) : Decidable (edit.Whole line x) := by
  cases edit <;> unfold Edit.Whole <;> infer_instance

variable {cols : Nat}

theorem putCell_eq {code : CodePoint} (hwidth : charWidth code ≠ 0)
    (hfits : x + charWidth code ≤ cols) (hcols : cols ≤ line.length) :
    ∃ cells, putCell cols x code line = line.take x ++ cells ++ line.drop (x + charWidth code) ∧
      readCells false cells = some false := by
  have htwo := charWidth_le_two code
  have hset : line.set x (.char code) = line.take x ++ .char code :: line.drop (x + 1) := by
    rw [set_eq_take_append_cons_drop, if_pos (by omega)]
  by_cases hwide : charWidth code = 2
  · refine ⟨[.char code, .empty], ?_, by simp [readCells, owe, hwide]⟩
    have hnext : (line.drop (x + 1)).set 0 .empty = .empty :: line.drop (x + 2) := by
      rw [set_eq_take_append_cons_drop, if_pos (by rw [length_drop]; omega)]
      simp
    rw [putCell, if_pos ⟨hwide, by omega⟩, hset, hwide,
      set_append_right _ _ (by rw [length_take]; omega), length_take,
      Nat.min_eq_left (by omega), Nat.add_sub_cancel_left, set_cons_succ, hnext]
    simp
  · have hone : charWidth code = 1 := by omega
    refine ⟨[.char code], ?_, by simp [readCells, owe, hone]⟩
    rw [putCell, if_neg (fun h => hwide h.1), hset, hone]
    simp

theorem insertCells_eq (hx : x ≤ line.length) (n : Nat) :
    insertCells x n line =
      line.take x ++ (replicate n blank ++ line.drop x).take (line.length - x) := by
  induction n with
  | zero =>
    rw [replicate_zero, nil_append, ← length_drop, take_length, take_append_drop]
    rfl
  | succ n ih =>
    have hbegins : (line.take x).length = x := length_take_of_le hx
    rw [insertCells, iterate_succ_apply']
    show (spliceIn (insertCells x n line) x blank).dropLast = _
    rw [ih, spliceIn, take_left' hbegins, drop_left' hbegins, dropLast_eq_take]
    have hlength : (line.take x ++ blank :: (replicate n blank ++ line.drop x).take
        (line.length - x)).length - 1 = x + (line.length - x) := by
      simp
      omega
    rw [hlength, take_append, hbegins, take_of_length_le (by omega),
      Nat.add_sub_cancel_left, replicate_succ, cons_append]
    congr 1
    cases hrest : line.length - x with
    | zero => rfl
    | succ k => rw [take_succ_cons, take_succ_cons, take_take, Nat.min_eq_left]; omega

theorem deleteCells_eq (hx : x ≤ line.length) (n : Nat) :
    ∃ k, deleteCells x n line = line.take x ++ line.drop (x + n) ++ replicate k blank := by
  induction n with
  | zero => exact ⟨0, by simp [deleteCells]⟩
  | succ n ih =>
    obtain ⟨k, hk⟩ := ih
    have hbegins : (line.take x).length = x := length_take_of_le hx
    rw [deleteCells, iterate_succ_apply']
    show ∃ k, (deleteCells x n line).eraseIdx x ++ [blank] = _
    rw [hk, append_assoc, eraseIdx_append_of_length_le (by omega), hbegins, Nat.sub_self,
      eraseIdx_zero]
    cases hdrop : line.drop (x + n) with
    | nil =>
      have hnext : line.drop (x + (n + 1)) = [] := by
        rw [← Nat.add_assoc, ← tail_drop, hdrop]
        rfl
      refine ⟨k - 1 + 1, ?_⟩
      rw [hnext, nil_append, tail_replicate, append_nil, append_assoc, replicate_succ']
    | cons cell rest =>
      have hnext : line.drop (x + (n + 1)) = rest := by
        rw [← Nat.add_assoc, ← tail_drop, hdrop]
        rfl
      refine ⟨k + 1, ?_⟩
      rw [hnext, cons_append, tail_cons, replicate_succ']
      simp only [append_assoc]

theorem length_le_deleteCells (n : Nat) : line.length ≤ (deleteCells x n line).length := by
  induction n generalizing line with
  | zero => exact Nat.le_refl _
  | succ n ih =>
    refine Nat.le_trans ?_ (@ih (line.eraseIdx x ++ [blank]))
    rw [length_append, length_singleton, length_eraseIdx]
    split <;> omega

def Edit.Fits (cols x : Nat) : Edit → Prop
  | print code => charWidth code ≠ 0 ∧ x + charWidth code ≤ cols
  | erase start stop => start ≤ stop ∧ stop ≤ cols
  | insert _ | delete _ => x ≤ cols

theorem TerminalScreen.editOf_fits {s t : TerminalScreen} {ch : CodePoint} {edit : Edit}
    (h : s.editOf ch = some (t, edit)) (hx : s.curX ≤ s.cols) (hcols : 2 ≤ s.cols) :
    edit.Fits t.cols t.curX := by
  obtain ⟨rfl, rfl, hwidth⟩ | ⟨rfl, hcsi, -⟩ := editOf_cases h
  · exact ⟨hwidth, wrapped_fits (Nat.le_trans (charWidth_le_two ch) hcols)⟩
  cases edit with
  | print code =>
    unfold csiEdit at hcsi
    dsimp only at hcsi
    repeat' first | cases hcsi | split at hcsi
  | erase start stop => exact csiEdit_erase hcsi hx hcols
  | insert n => exact hx
  | delete n => exact hx

theorem Paired.apply {edit : Edit} (h : Paired line) (hcols : cols ≤ line.length)
    (hfits : edit.Fits cols x) (hwhole : edit.Whole line x) :
    Paired (edit.apply cols x line) ∧ cols ≤ (edit.apply cols x line).length := by
  cases edit with
  | print code =>
    obtain ⟨cells, heq, hcells⟩ := putCell_eq hfits.1 hfits.2 hcols
    refine ⟨?_, hcols.trans_eq length_putCell.symm⟩
    show Paired (putCell cols x code line)
    rw [heq]
    exact h.replace hwhole.1 hcells hwhole.2
  | erase start stop =>
    refine ⟨?_, hcols.trans_eq (length_eraseSpan hfits.1 (hfits.2.trans hcols)).symm⟩
    rcases Nat.lt_or_eq_of_le hfits.1 with hlt | rfl
    · exact h.replace (hwhole hlt).1 (readCells_blanks _) (hwhole hlt).2
    · show Paired (eraseSpan start start line)
      rw [eraseSpan, Nat.sub_self, replicate_zero, append_nil, take_append_drop]
      exact h
  | insert n =>
    have hx : x ≤ line.length := Nat.le_trans hfits hcols
    refine ⟨?_, hcols.trans_eq (length_insertCells n).symm⟩
    show readCells false (insertCells x n line) = some false
    rw [insertCells_eq hx, readCells_append, h.readCells_left hwhole.1, take_append,
      take_replicate, length_replicate]
    show readCells false _ = some false
    rw [readCells_append, readCells_blanks]
    show readCells false _ = some false
    have hbetween := h.readCells_between hwhole.1 (Nat.le_max_left ..) hwhole.2
    rwa [show max x (line.length - n) - x = line.length - x - n by omega] at hbetween
  | delete n =>
    refine ⟨?_, hcols.trans (length_le_deleteCells n)⟩
    obtain ⟨k, hk⟩ := deleteCells_eq (Nat.le_trans hfits hcols) n
    show readCells false (deleteCells x n line) = some false
    have hright := (h.readCells_at (x + n)).2
    rw [decide_eq_decide.2 (Iff.symm hwhole)] at hright
    rw [hk, readCells_append, readCells_append, (h.readCells_at x).1]
    show (readCells _ (line.drop (x + n))).bind _ = _
    rw [hright]
    exact readCells_blanks k

theorem Paired.fitLine (h : Paired line) (hcut : ¬ Splits line cols) :
    Paired (TerminalScreen.fitLine cols line) := by
  unfold Paired TerminalScreen.fitLine
  rw [readCells_append, h.readCells_left hcut]
  exact readCells_blanks _

end Editing

def Cell.text : Cell → List CodePoint
  | .empty => []
  | .char code => [code]

def joined (line : Line) : List CodePoint := line.flatMap Cell.text

def displayWidth (text : List CodePoint) : Nat := (text.map charWidth).sum

def snapshotRow (line : Line) : List CodePoint :=
  (joined line).rdropWhile fun cp => Hashline.isWhitespace (Char.ofNat cp)

def TerminalScreen.snapshot (s : TerminalScreen) : List (List CodePoint) :=
  (s.lines.map snapshotRow).rdropWhile (· = [])

theorem displayWidth_joined {owed after : Bool} (h : readCells owed line = some after) :
    displayWidth (joined line) + owed.toNat = line.length + after.toNat := by
  induction line generalizing owed with
  | nil =>
    cases h
    rfl
  | cons cell line ih =>
    rw [readCells, foldlM_cons] at h
    obtain ⟨next, hcell, hrest⟩ := Option.bind_eq_some_iff.1 h
    have hline := ih hrest
    cases cell with
    | empty =>
      obtain ⟨rfl, rfl⟩ := owe_empty.1 hcell
      simp only [displayWidth, joined, flatMap_cons, Cell.text, nil_append,
        length_cons, Bool.toNat_true, Bool.toNat_false] at hline ⊢
      omega
    | char code =>
      obtain ⟨rfl, hzero, rfl⟩ := owe_char.1 hcell
      have hwidth : charWidth code = 1 + (decide (charWidth code = 2)).toNat := by
        have htwo := charWidth_le_two code
        by_cases hwide : charWidth code = 2
        · simp [hwide]
        · simp [hwide]
          omega
      simp only [displayWidth, joined, flatMap_cons, Cell.text, cons_append,
        nil_append, map_cons, sum_cons, length_cons,
        Bool.toNat_false] at hline ⊢
      omega

theorem Paired.owe_eq (h : Paired line) {cell : Cell} (hcell : (line)[x]? = some cell) :
    owe (decide (Splits line x)) cell = some (decide (Splits line (x + 1))) := by
  have hnext := (h.readCells_at (x + 1)).1
  rw [take_add_one, hcell, readCells_append, (h.readCells_at x).1] at hnext
  simpa [readCells] using hnext

/-- Wide characters and empty cells pair, and a cell's text starts at its column. -/
structure TerminalScreen.Aligned (s : TerminalScreen) : Prop where
  continues : ∀ line ∈ s.lines, ∀ x, (line)[x]? = some .empty →
    ∃ y code, x = y + 1 ∧ (line)[y]? = some (.char code) ∧ charWidth code = 2
  continued : ∀ line ∈ s.lines, ∀ x code, (line)[x]? = some (.char code) → charWidth code = 2 →
    (line)[x + 1]? = some .empty
  columns : ∀ (y : Nat) row, s.snapshot[y]? = some row → ∃ line, s.lines[y]? = some line ∧
    row <+: joined line ∧ ∀ x code, (line)[x]? = some (.char code) →
      joined (line.take x) ++ [code] <+: joined line ∧ displayWidth (joined (line.take x)) = x

theorem Paired.continues (h : Paired line) (hx : (line)[x]? = some .empty) :
    ∃ y code, x = y + 1 ∧ (line)[y]? = some (.char code) ∧ charWidth code = 2 := by
  cases x with
  | zero =>
    have hstart := (h.readCells_at 0).1
    rw [decide_eq_true (p := Splits line 0) hx] at hstart
    cases hstart
  | succ y =>
    have hy : y < line.length := by
      have hlt := (List.getElem?_eq_some_iff.1 hx).1
      omega
    have howe := h.owe_eq (getElem?_eq_getElem hy)
    rw [decide_eq_true (p := Splits line (y + 1)) hx] at howe
    cases hcell : (line)[y] with
    | empty => exact absurd (owe_empty.1 (hcell ▸ howe)).2 (by simp)
    | char code =>
      obtain ⟨-, -, hwide⟩ := owe_char.1 (hcell ▸ howe)
      refine ⟨y, code, rfl, ?_, of_decide_eq_true hwide.symm⟩
      rw [getElem?_eq_getElem hy, hcell]

theorem Paired.continued (h : Paired line) {code : CodePoint}
    (hx : (line)[x]? = some (.char code)) (hwide : charWidth code = 2) :
    (line)[x + 1]? = some .empty := by
  obtain ⟨-, -, hsplits⟩ := owe_char.1 (h.owe_eq hx)
  rw [decide_eq_true hwide] at hsplits
  exact of_decide_eq_true hsplits

theorem Paired.startsAt (h : Paired line) {code : CodePoint} (hx : (line)[x]? = some (.char code)) :
    joined (line.take x) ++ [code] <+: joined line ∧ displayWidth (joined (line.take x)) = x := by
  obtain ⟨hlt, hcell⟩ := List.getElem?_eq_some_iff.1 hx
  constructor
  · refine ⟨joined (line.drop (x + 1)), ?_⟩
    conv_rhs => rw [← take_append_drop x line, drop_eq_getElem_cons hlt, hcell]
    simp [joined, Cell.text]
  · have hsplits : ¬ Splits line x := fun hempty => nomatch hx.symm.trans hempty
    have hwidth := displayWidth_joined (h.readCells_left hsplits)
    rwa [length_take_of_le (Nat.le_of_lt hlt)] at hwidth

section Runs
variable {s : TerminalScreen}

def TerminalScreen.EditsWhole (s : TerminalScreen) (ch : CodePoint) : Prop :=
  match s.editOf ch with
  | none => True
  | some (t, edit) => edit.Whole t.line t.curX

instance (ch : CodePoint) : Decidable (s.EditsWhole ch) := by
  unfold TerminalScreen.EditsWhole
  split <;> infer_instance

/-- The last column left by a new size is not the left half of a wide character. -/
def TerminalScreen.CutsWhole (s : TerminalScreen) (cols rows : Nat) : Prop :=
  ∀ line, s.Remains rows line → ¬ Splits line cols

abbrev SoundPairs : TerminalScreen → Prop :=
  Sound (fun cols line => Paired line ∧ cols ≤ line.length) fun _ _ _ _ => True

theorem blankLine_paired (cols : Nat) : Paired (blankLine cols) ∧ cols ≤ (blankLine cols).length :=
  ⟨readCells_blanks cols, length_replicate.ge⟩

theorem SoundPairs.feedChar (h : SoundPairs s) {ch : CodePoint} (hok : s.EditsWhole ch) :
    SoundPairs (s.feedChar ch) := by
  refine Sound.feedChar blankLine_paired h ch (fun _ => True.intro) fun t edit hedit ht => ?_
  have hwhole : edit.Whole t.line t.curX := by
    rw [TerminalScreen.EditsWhole, hedit] at hok
    exact hok
  exact ht.line.1.apply ht.line.2 (TerminalScreen.editOf_fits hedit h.curX h.cols) hwhole

/-- With no edit and no cut inside a wide character, every screen keeps its columns. -/
theorem aligned_of_whole {cols rows : Int} {calls : List Call}
    (h : Run (Steps TerminalScreen.EditsWhole TerminalScreen.CutsWhole) (create cols rows) calls s) :
    s.Aligned := by
  have hsound : SoundPairs s := by
    refine kept_by_calls (I := SoundPairs) ?_ ?_ h (Sound.create blankLine_paired cols rows)
    · exact fun s ch hok hs => hs.feedChar hok
    intro s cols rows hcut hs
    refine Sound.resize blankLine_paired hs cols rows fun line hline => ⟨?_, ?_⟩
    · refine Paired.fitLine ?_ (hcut line hline)
      rcases hline with hscreen | ⟨saved, hsaved, hline⟩
      · exact (hs.lines line (mem_of_mem_take hscreen)).1
      · exact ((hs.saved saved hsaved).2 line (mem_of_mem_take hline)).1
    · simp [TerminalScreen.fitLine]
      omega
  refine
    { continues := fun line hline x hx => (hsound.lines line hline).1.continues hx
      continued := fun line hline x code hx => (hsound.lines line hline).1.continued hx
      columns := fun y row hrow => ?_ }
  obtain ⟨hy, hget⟩ := List.getElem?_eq_some_iff.1 hrow
  have hbegins : s.snapshot <+: s.lines.map snapshotRow := rdropWhile_prefix ..
  have hmapped : (s.lines.map snapshotRow)[y]? = some row :=
    (prefix_iff_getElem?.1 hbegins y hy).trans (congrArg some hget)
  rw [getElem?_map] at hmapped
  obtain ⟨line, hline, rfl⟩ := Option.map_eq_some_iff.1 hmapped
  refine ⟨line, hline, rdropWhile_prefix .., fun x code hx => ?_⟩
  exact (hsound.lines line (mem_of_getElem? hline)).1.startsAt hx

theorem aligned_of_whole_resized :
    (((create 5 1).feed [0x6f22, 0x61, 0x6f22]).resize 3 2).Aligned := by
  have hrun : Run (Steps TerminalScreen.EditsWhole TerminalScreen.CutsWhole) (create 5 1)
      [.feed [0x6f22, 0x61, 0x6f22], .resize 3 2]
      (((create 5 1).feed [0x6f22, 0x61, 0x6f22]).resize 3 2) := by
    refine .cons ⟨?_, rfl⟩ (.cons ⟨?_, rfl⟩ (.nil _))
    · show FeedsWith _ _ _
      decide +kernel
    · rintro line (hscreen | ⟨saved, hsaved, -⟩)
      · have hline : line = [.char 0x6f22, .empty, .char 0x61, .char 0x6f22, .empty] :=
          mem_singleton.1 hscreen
        rw [hline]
        decide
      · exact nomatch hsaved
  exact aligned_of_whole hrun

/-- Backing up by one column and printing there overwrites half of a wide character. -/
theorem overwritten_half_not_aligned : ∃ s, Run
    (Steps (fun _ _ => True) fun _ _ _ => True) (create 4 1) [.feed [0x6f22, 0x08, 0x61]] s ∧
      ¬ s.Aligned := by
  refine ⟨_, .cons ⟨⟨True.intro, True.intro, True.intro, True.intro⟩, rfl⟩ (.nil _), fun h => ?_⟩
  have hempty := h.continued [.char 0x6f22, .char 0x61, blank, blank] (by decide +kernel) 0 0x6f22
    rfl (by decide)
  exact absurd hempty (by decide)

end Runs

end Rolebox.Terminal
