import Rolebox.General.Cursor
import Rolebox.Hashline.EditPrimitives

/-! Which edits of a batch count as repeats, by a key of anchors and lines in a row. -/

namespace Rolebox.Hashline
open General List

def EditOp.kind : EditOp → EditKind
  | replace _ _ _ => .replace
  | append _ _ => .append
  | prepend _ _ => .prepend

def EditOp.newLines : EditOp → List Text
  | replace _ _ lines => toNewLines lines
  | append _ lines => toNewLines lines
  | prepend _ lines => toNewLines lines

def anchorLine (anchor : Option Text) : Except EditError (Option Nat) :=
  match anchor with
  | none => .ok none
  | some ref => (parseLineRef ref).map fun parsed => some parsed.line

def EditOp.anchorLines (edit : EditOp) :
    Except EditError (Option Nat) × Except EditError (Option Nat) :=
  (anchorLine edit.pos, anchorLine edit.endPos)

/-- The same operation at the same lines, writing the same lines. -/
def EditOp.Repeats (edit earlier : EditOp) : Prop :=
  earlier.kind = edit.kind ∧ earlier.anchorLines = edit.anchorLines ∧
    earlier.newLines = edit.newLines

/-- An edit after others of its batch is dropped: it adds nothing to those that are kept. -/
def Dropped (before : List EditOp) (edit : EditOp) : Prop :=
  (deduplicateEdits (before ++ [edit])).1 = (deduplicateEdits before).1

def DropsOnlyRepeats (batch : List EditOp) : Prop :=
  ∀ before edit after, batch = before ++ edit :: after → Dropped before edit →
    ∃ earlier ∈ before, edit.Repeats earlier

def EditOp.rawPos : EditOp → Text
  | replace pos _ _ => pos
  | append pos _ => pos.getD []
  | prepend pos _ => pos.getD []

def EditOp.rawEnd : EditOp → Text
  | replace _ endPos _ => endPos.getD []
  | append _ _ => []
  | prepend _ _ => []

/-- The anchors and the lines of an edit in a row, with a bar after each anchor. -/
def EditOp.reading (edit : EditOp) : Text :=
  edit.rawPos ++ '|' :: (edit.rawEnd ++ '|' :: joinLines edit.newLines)

/-- Where the reading is cut: after each anchor, and after each line. -/
def EditOp.cuts (edit : EditOp) : Nat × Nat × List Nat :=
  (edit.rawPos.length, edit.rawEnd.length, edit.newLines.map length)

/-- Two edits of one operation that read the same but are cut at other places. -/
def EditOp.Blurs (edit earlier : EditOp) : Prop :=
  earlier.kind = edit.kind ∧ earlier.reading = edit.reading ∧ earlier.cuts ≠ edit.cuts

def BlursOnlyRepeats (batch : List EditOp) : Prop :=
  ∀ before edit after, batch = before ++ edit :: after →
    (∃ earlier ∈ before, edit.Blurs earlier) → ∃ earlier ∈ before, edit.Repeats earlier

def linesKey : EditLines → Text
  | .lines content => joinLines content
  | .text content => content

theorem joinLines_toNewLines (lines : EditLines) :
    joinLines (toNewLines lines) = linesKey lines := by
  rcases lines with content | content
  · by_cases h : content = []
    · subst h
      rfl
    · rw [toNewLines, if_neg h]
      exact intercalate_splitOn '\n'
  · rfl

def kindName : EditKind → String
  | .replace => "replace|"
  | .append => "append|"
  | .prepend => "prepend|"

theorem editKey_eq (edit : EditOp) :
    editKey edit = (kindName edit.kind).toList ++ edit.reading := by
  cases edit with
  | replace pos endPos lines =>
    rw [EditOp.reading, EditOp.newLines, joinLines_toNewLines]
    show "replace|".toList ++ pos ++ ['|'] ++ endPos.getD [] ++ ['|'] ++ linesKey lines = _
    rw [append_assoc, append_assoc, append_assoc, append_assoc]
    rfl
  | append pos lines =>
    rw [EditOp.reading, EditOp.newLines, joinLines_toNewLines]
    show "append|".toList ++ pos.getD [] ++ "||".toList ++ linesKey lines = _
    rw [append_assoc, append_assoc]
    rfl
  | prepend pos lines =>
    rw [EditOp.reading, EditOp.newLines, joinLines_toNewLines]
    show "prepend|".toList ++ pos.getD [] ++ "||".toList ++ linesKey lines = _
    rw [append_assoc, append_assoc]
    rfl

theorem kindName_head (a b : EditKind)
    (h : (kindName a).toList.head? = (kindName b).toList.head?) : a = b := by
  cases a <;> cases b <;> first | rfl | exact absurd h (by decide)

theorem kindName_append_inj {a b : EditKind} {s t : Text}
    (h : (kindName a).toList ++ s = (kindName b).toList ++ t) : a = b ∧ s = t := by
  have hne (kind : EditKind) : (kindName kind).toList ≠ [] := by cases kind <;> decide
  have hhead := congrArg List.head? h
  rw [head?_append_of_ne_nil _ (hne a), head?_append_of_ne_nil _ (hne b)] at hhead
  have hab : a = b := kindName_head a b hhead
  subst hab
  exact ⟨rfl, append_cancel_left h⟩

theorem editKey_eq_iff {a b : EditOp} :
    editKey a = editKey b ↔ a.kind = b.kind ∧ a.reading = b.reading := by
  rw [editKey_eq, editKey_eq]
  constructor
  · exact kindName_append_inj
  · rintro ⟨hkind, hreading⟩
    rw [hkind, hreading]

theorem joinLines_inj {xs ys : List Text} (h : joinLines xs = joinLines ys)
    (hlength : xs.map length = ys.map length) : xs = ys := by
  induction xs generalizing ys with
  | nil =>
    have hys : ys = [] := by simpa using hlength.symm
    exact hys.symm
  | cons x xs ih =>
    obtain ⟨y, ys, rfl⟩ : ∃ y rest, ys = y :: rest := by
      cases ys with
      | nil => simp at hlength
      | cons y ys => exact ⟨y, ys, rfl⟩
    rw [map_cons, map_cons, List.cons.injEq] at hlength
    have hsame : xs = [] ↔ ys = [] := by
      rw [← map_eq_nil_iff (f := length), hlength.2, map_eq_nil_iff]
    by_cases hxs : xs = []
    · have hys := hsame.1 hxs
      subst hxs hys
      simpa [joinLines, List.intercalate] using h
    · have hys : ys ≠ [] := fun hnil => hxs (hsame.2 hnil)
      have hcons (z : Text) {zs : List Text} (hzs : zs ≠ []) :
          joinLines (z :: zs) = z ++ '\n' :: joinLines zs := by
        obtain ⟨w, ws, rfl⟩ := exists_cons_of_ne_nil hzs
        simp [joinLines, List.intercalate]
      rw [hcons x hxs, hcons y hys] at h
      obtain ⟨hx, hrest⟩ := append_inj h hlength.1
      rw [hx, ih (List.cons.inj hrest).2 hlength.2]

theorem parts_eq_of_reading {a b : EditOp} (hreading : a.reading = b.reading)
    (hcuts : a.cuts = b.cuts) :
    a.rawPos = b.rawPos ∧ a.rawEnd = b.rawEnd ∧ a.newLines = b.newLines := by
  obtain ⟨hpos, hend, hlines⟩ : a.rawPos.length = b.rawPos.length ∧
      a.rawEnd.length = b.rawEnd.length ∧
      a.newLines.map length = b.newLines.map length := by
    simpa [EditOp.cuts] using hcuts
  obtain ⟨hposEq, hrest⟩ := append_inj hreading hpos
  obtain ⟨hendEq, hjoin⟩ := append_inj (List.cons.inj hrest).2 hend
  exact ⟨hposEq, hendEq, joinLines_inj (List.cons.inj hjoin).2 hlines⟩

theorem givenAnchor_eq (anchor : Option Text) :
    givenAnchor anchor = givenAnchor (some (anchor.getD [])) := by
  cases anchor <;> rfl

theorem EditOp.pos_eq (edit : EditOp) : edit.pos = givenAnchor (some edit.rawPos) := by
  cases edit with
  | replace pos endPos lines => rfl
  | append pos lines => exact givenAnchor_eq pos
  | prepend pos lines => exact givenAnchor_eq pos

theorem EditOp.endPos_eq (edit : EditOp) : edit.endPos = givenAnchor (some edit.rawEnd) := by
  cases edit with
  | replace pos endPos lines => exact givenAnchor_eq endPos
  | append pos lines => rfl
  | prepend pos lines => rfl

theorem repeats_of_key {edit earlier : EditOp} (hkey : editKey earlier = editKey edit)
    (hcuts : earlier.cuts = edit.cuts) : edit.Repeats earlier := by
  obtain ⟨hkind, hreading⟩ := editKey_eq_iff.1 hkey
  obtain ⟨hpos, hend, hlines⟩ := parts_eq_of_reading hreading hcuts
  refine ⟨hkind, ?_, hlines⟩
  rw [EditOp.anchorLines, EditOp.anchorLines, EditOp.pos_eq, EditOp.pos_eq edit, hpos,
    EditOp.endPos_eq, EditOp.endPos_eq edit, hend]

def dedupPass (batch : List EditOp) : List EditOp × List Text × Nat :=
  batch.foldl (fun (kept : List EditOp × List Text × Nat) edit =>
    let key := editKey edit
    if key ∈ kept.2.1 then (kept.1, kept.2.1, kept.2.2 + 1)
    else (kept.1 ++ [edit], kept.2.1 ++ [key], kept.2.2)) ([], [], 0)

section

variable (batch : List EditOp)

theorem deduplicateEdits_eq :
    deduplicateEdits batch = ((dedupPass batch).1, (dedupPass batch).2.2) := rfl

theorem dedupPass_concat (edit : EditOp) :
    dedupPass (batch ++ [edit]) =
      if editKey edit ∈ (dedupPass batch).2.1 then
        ((dedupPass batch).1, (dedupPass batch).2.1, (dedupPass batch).2.2 + 1)
      else ((dedupPass batch).1 ++ [edit], (dedupPass batch).2.1 ++ [editKey edit],
        (dedupPass batch).2.2) := by
  rw [dedupPass, foldl_append]
  rfl

theorem mem_seen_iff (key : Text) : key ∈ (dedupPass batch).2.1 ↔ key ∈ batch.map editKey := by
  induction batch using reverseRecOn with
  | nil => exact Iff.rfl
  | append_singleton batch edit ih =>
    rw [dedupPass_concat, map_append, mem_append, ← ih]
    split
    · case isTrue hseen =>
      have hadded : key ∈ [edit].map editKey → key ∈ (dedupPass batch).2.1 := by
        intro hmem
        have hkey : key = editKey edit := by simpa using hmem
        rwa [hkey]
      exact ⟨.inl, fun h => h.elim id hadded⟩
    · simp

theorem deduplicateEdits_concat (edit : EditOp) :
    (deduplicateEdits (batch ++ [edit])).1 =
      if editKey edit ∈ batch.map editKey then (deduplicateEdits batch).1
      else (deduplicateEdits batch).1 ++ [edit] := by
  simp only [deduplicateEdits_eq, dedupPass_concat, mem_seen_iff]
  split <;> rfl

end

theorem dropped_iff (before : List EditOp) (edit : EditOp) :
    Dropped before edit ↔ ∃ earlier ∈ before, editKey earlier = editKey edit := by
  rw [Dropped, deduplicateEdits_concat]
  split
  · case isTrue hmem =>
    have hearlier : ∃ earlier ∈ before, editKey earlier = editKey edit := by simpa using hmem
    simpa using hearlier
  · case isFalse hnot =>
    have hnone : ¬ ∃ earlier ∈ before, editKey earlier = editKey edit := by simpa using hnot
    constructor
    · intro hsame
      simp at hsame
    · intro hearlier
      exact absurd hearlier hnone

/-- Only repeats are lost exactly where no edit blurs with one it does not repeat. -/
theorem dropsOnlyRepeats_iff (batch : List EditOp) :
    DropsOnlyRepeats batch ↔ BlursOnlyRepeats batch := by
  constructor
  · rintro h before edit after hbatch ⟨earlier, hmem, hkind, hreading, -⟩
    apply h before edit after hbatch
    exact (dropped_iff before edit).2 ⟨earlier, hmem, editKey_eq_iff.2 ⟨hkind, hreading⟩⟩
  · intro h before edit after hbatch hdropped
    obtain ⟨earlier, hmem, hkey⟩ := (dropped_iff before edit).1 hdropped
    by_cases hcuts : earlier.cuts = edit.cuts
    · exact ⟨earlier, hmem, repeats_of_key hkey hcuts⟩
    · obtain ⟨hkind, hreading⟩ := editKey_eq_iff.1 hkey
      exact h before edit after hbatch ⟨earlier, hmem, hkind, hreading, hcuts⟩

def blankingBatch : List EditOp :=
  [.replace "1#aa".toList none (.text []), .replace "1#aa".toList none (.lines [[]])]

theorem blankingBatch_loses : ¬ DropsOnlyRepeats blankingBatch := by
  intro h
  have hdropped : Dropped [.replace "1#aa".toList none (.text [])]
      (.replace "1#aa".toList none (.lines [[]])) := by
    unfold Dropped
    decide +kernel
  obtain ⟨earlier, hmem, -, -, hlines⟩ := h _ _ [] rfl hdropped
  obtain rfl : earlier = .replace "1#aa".toList none (.text []) := by simpa using hmem
  exact absurd hlines (by decide)

structure EditOp.Plain (edit : EditOp) : Prop where
  pos : '|' ∉ edit.rawPos
  endPos : '|' ∉ edit.rawEnd
  lines : ∀ line ∈ edit.newLines, '\n' ∉ line
  written : edit.newLines ≠ [[]]

theorem lines_of_joined {xs ys : List Text} (hxs : ∀ line ∈ xs, '\n' ∉ line)
    (hys : ∀ line ∈ ys, '\n' ∉ line) (hx : xs ≠ [[]]) (hy : ys ≠ [[]])
    (h : joinLines xs = joinLines ys) : xs = ys := by
  have hsplit {zs : List Text} (hzs : ∀ line ∈ zs, '\n' ∉ line) (hne : zs ≠ []) :
      (joinLines zs).splitOn '\n' = zs := splitOn_intercalate '\n' hzs hne
  by_cases hnil : xs = []
  · subst hnil
    by_contra hne
    exact hy ((hsplit hys (Ne.symm hne)).symm.trans (h ▸ rfl))
  · by_cases hnil' : ys = []
    · subst hnil'
      exact absurd ((hsplit hxs hnil).symm.trans (h ▸ rfl)) hx
    · rw [← hsplit hxs hnil, h, hsplit hys hnil']

/-- Without a bar in an anchor, a newline in a line or a sole blank line, only repeats are lost. -/
theorem plain_dropsOnlyRepeats {batch : List EditOp} (hplain : ∀ edit ∈ batch, edit.Plain) :
    DropsOnlyRepeats batch := by
  rintro before edit after rfl hdropped
  obtain ⟨earlier, hmem, hkey⟩ := (dropped_iff before edit).1 hdropped
  have ha := hplain earlier (mem_append_left _ hmem)
  have hb := hplain edit (by simp)
  obtain ⟨hpos, hrest⟩ := first_line_unique ha.pos hb.pos (editKey_eq_iff.1 hkey).2
  obtain ⟨hend, hjoined⟩ := first_line_unique ha.endPos hb.endPos hrest
  have hlines := lines_of_joined ha.lines hb.lines ha.written hb.written hjoined
  refine ⟨earlier, hmem, repeats_of_key hkey ?_⟩
  rw [EditOp.cuts, EditOp.cuts, hpos, hend, hlines]
end Rolebox.Hashline
