import Rolebox.Hashline.ShortestScript

/-! The unified diff as a patch, of hunks that are consecutive pieces of a script. -/

namespace Rolebox.Hashline
open General List

def oldContent : Text → Option Text
  | ' ' :: content => some content
  | '-' :: content => some content
  | _ => none

def newContent : Text → Option Text
  | ' ' :: content => some content
  | '+' :: content => some content
  | _ => none

def applyHunks (oldLines : List Text) : Nat → List Hunk → List Text
  | place, [] => oldLines.drop place
  | place, hunk :: hunks =>
    let start := (hunk.oldStart - 1).toNat
    (oldLines.drop place).take (start - place) ++ hunk.lines.filterMap newContent ++
      applyHunks oldLines (start + hunk.oldCount.toNat) hunks

structure Faithful (oldLines newLines : List Text) (hunks : List Hunk) : Prop where
  counts : ∀ hunk ∈ hunks, hunk.oldCount = (hunk.lines.filterMap oldContent).length ∧
    hunk.newCount = (hunk.lines.filterMap newContent).length
  ordered : hunks.Pairwise fun a b =>
    a.oldStart + a.oldCount ≤ b.oldStart ∧ a.newStart + a.newCount ≤ b.newStart
  oldSide : ∀ hunk ∈ hunks, 1 ≤ hunk.oldStart ∧ hunk.lines.filterMap oldContent =
    (oldLines.drop (hunk.oldStart - 1).toNat).take hunk.oldCount.toNat
  applies : applyHunks oldLines 0 hunks = newLines

def unifiedHunks (diff : List DiffEntry) : List Hunk :=
  if diff.all DiffEntry.isEqual then [] else mergeAdjacentHunks (collectHunks diff.length [] diff)

def patchText (filePath : Text) (hunks : List Hunk) : Text :=
  if hunks = [] then []
  else "--- a/".toList ++ filePath ++ "\n+++ b/".toList ++ filePath ++ ['\n'] ++
    joinLines (hunks.map hunkText) ++ ['\n']

section Pieces
variable {a b before rest : List DiffEntry} {hunks : List Hunk}

def oldText (entries : List DiffEntry) : List Text := (entries.filterMap DiffEntry.oldPart).map Prod.snd

def newText (entries : List DiffEntry) : List Text := (entries.filterMap DiffEntry.newPart).map Prod.snd

@[simp] theorem oldText_nil : oldText [] = [] := rfl

@[simp] theorem newText_nil : newText [] = [] := rfl

@[simp] theorem oldText_append (a b : List DiffEntry) : oldText (a ++ b) = oldText a ++ oldText b := by
  simp [oldText]

@[simp] theorem newText_append (a b : List DiffEntry) : newText (a ++ b) = newText a ++ newText b := by
  simp [newText]

def AllEqual (entries : List DiffEntry) : Prop := ∀ e ∈ entries, e.isEqual = true

theorem AllEqual.texts {entries : List DiffEntry} (h : AllEqual entries) :
    oldText entries = newText entries ∧ (oldText entries).length = entries.length := by
  induction entries with
  | nil => exact ⟨rfl, rfl⟩
  | cons e entries ih =>
    obtain ⟨hsame, hlen⟩ := ih fun e he => h e (.tail _ he)
    cases e with
    | equal oldLine newLine content =>
      constructor
      · show content :: oldText entries = content :: newText entries
        rw [hsame]
      · show (oldText entries).length + 1 = entries.length + 1
        rw [hlen]
    | _ => exact nomatch h _ (.head _)

theorem AllEqual.append (ha : AllEqual a) (hb : AllEqual b) :
    AllEqual (a ++ b) := fun e he => (mem_append.1 he).elim (ha e) (hb e)

theorem AllEqual.right (h : AllEqual (a ++ b)) : AllEqual b :=
  fun e he => h e (mem_append_right a he)

theorem AllEqual.left (h : AllEqual (a ++ b)) : AllEqual a :=
  fun e he => h e (mem_append_left b he)

theorem contents_unified (entries : List DiffEntry) :
    (entries.map DiffEntry.unified).filterMap oldContent = oldText entries ∧
      (entries.map DiffEntry.unified).filterMap newContent = newText entries := by
  induction entries with
  | nil => exact ⟨rfl, rfl⟩
  | cons e entries ih =>
    cases e with
    | equal oldLine newLine content =>
      exact ⟨congrArg (content :: ·) ih.1, congrArg (content :: ·) ih.2⟩
    | insert newLine content => exact ⟨ih.1, congrArg (content :: ·) ih.2⟩
    | delete oldLine content => exact ⟨congrArg (content :: ·) ih.1, ih.2⟩

def pieceHunk (before piece : List DiffEntry) : Hunk where
  oldStart := (oldText before).length + 1
  oldCount := (oldText piece).length
  newStart := (newText before).length + 1
  newCount := (newText piece).length
  lines := piece.map DiffEntry.unified

inductive Pieces : List DiffEntry → List DiffEntry → List Hunk → Prop where
  | nil {before rest : List DiffEntry} : AllEqual rest → Pieces before rest []
  | cons {before between piece rest : List DiffEntry} {hunks : List Hunk} : AllEqual between →
      Pieces (before ++ between ++ piece) rest hunks →
      Pieces before (between ++ (piece ++ rest)) (pieceHunk (before ++ between) piece :: hunks)

theorem Pieces.extend {between : List DiffEntry} (hequal : AllEqual between)
    (h : Pieces (before ++ between) rest hunks) : Pieces before (between ++ rest) hunks := by
  cases h with
  | nil hrest => exact .nil (hequal.append hrest)
  | @cons _ more piece rest hunks hmore hpieces =>
    have hgoal := @Pieces.cons before (between ++ more) piece _ _ (hequal.append hmore)
      (by simpa only [append_assoc] using hpieces)
    simpa only [append_assoc] using hgoal

theorem Pieces.mem (h : Pieces before rest hunks) {hunk : Hunk} (hmem : hunk ∈ hunks) :
    ∃ front piece after, before ++ rest = front ++ piece ++ after ∧ hunk = pieceHunk front piece ∧
      before.length ≤ front.length := by
  induction h with
  | nil _ => exact nomatch hmem
  | @cons before between piece rest hunks _ _ ih =>
    rcases mem_cons.1 hmem with rfl | hmem
    · exact ⟨before ++ between, piece, rest, by simp, rfl, by simp⟩
    obtain ⟨front, next, after, hsplit, rfl, hle⟩ := ih hmem
    refine ⟨front, next, after, ?_, rfl, ?_⟩
    · rw [← hsplit]
      simp
    · simp only [length_append] at hle
      omega

theorem pieceHunk_after {front after : List DiffEntry} (hsplit : before ++ rest = front ++ after)
    (hle : before.length ≤ front.length) :
    (oldText before).length ≤ (oldText front).length ∧
      (newText before).length ≤ (newText front).length := by
  obtain ⟨more, hmore, -⟩ | ⟨more, hmore, -⟩ := append_eq_append_iff.1 hsplit
  · rw [hmore]
    simp
  · have hnil : more = [] := by
      have hlen := congrArg length hmore
      rw [length_append] at hlen
      exact length_eq_zero_iff.1 (by omega)
    rw [hmore, hnil]
    simp

theorem Pieces.ordered (h : Pieces before rest hunks) :
    hunks.Pairwise fun a b =>
      a.oldStart + a.oldCount ≤ b.oldStart ∧ a.newStart + a.newCount ≤ b.newStart := by
  induction h with
  | nil _ => exact List.Pairwise.nil
  | @cons before between piece rest hunks _ hpieces ih =>
    refine List.Pairwise.cons ?_ ih
    intro hunk hmem
    obtain ⟨front, next, after, hsplit, rfl, hle⟩ := hpieces.mem hmem
    rw [append_assoc front] at hsplit
    obtain ⟨hold, hnew⟩ := pieceHunk_after hsplit hle
    simp only [pieceHunk, oldText_append, newText_append, length_append] at hold hnew ⊢
    constructor <;> omega

theorem Pieces.applies (h : Pieces before rest hunks) :
    applyHunks (oldText (before ++ rest)) (oldText before).length hunks = newText rest := by
  induction h with
  | @nil before rest hrest =>
    rw [applyHunks, oldText_append, drop_left, hrest.texts.1]
  | @cons before between piece rest hunks hbetween _ ih =>
    have hstart : ((pieceHunk (before ++ between) piece).oldStart - 1).toNat =
        (oldText before).length + (oldText between).length := by
      simp only [pieceHunk, oldText_append, length_append]
      omega
    have hcount : (pieceHunk (before ++ between) piece).oldCount.toNat = (oldText piece).length :=
      Int.toNat_natCast _
    have hlines : (pieceHunk (before ++ between) piece).lines.filterMap newContent = newText piece :=
      (contents_unified piece).2
    rw [applyHunks, hstart, hcount, hlines]
    have hrest : applyHunks (oldText (before ++ (between ++ (piece ++ rest))))
        ((oldText before).length + (oldText between).length + (oldText piece).length) hunks =
        newText rest := by
      rw [← ih]
      simp [Nat.add_assoc]
    rw [hrest, Nat.add_sub_cancel_left, oldText_append, drop_left, oldText_append,
      take_left, hbetween.texts.1]
    simp

theorem Pieces.faithful {diff : List DiffEntry} (h : Pieces [] diff hunks) :
    Faithful (oldText diff) (newText diff) hunks where
  counts := by
    intro hunk hmem
    obtain ⟨front, piece, after, -, rfl, -⟩ := h.mem hmem
    have hcontents := contents_unified piece
    exact ⟨congrArg (fun l => ((length l : Nat) : Int)) hcontents.1.symm,
      congrArg (fun l => ((length l : Nat) : Int)) hcontents.2.symm⟩
  ordered := h.ordered
  oldSide := by
    intro hunk hmem
    obtain ⟨front, piece, after, hsplit, rfl, -⟩ := h.mem hmem
    have hdiff : diff = front ++ piece ++ after := hsplit
    have hstart : ((pieceHunk front piece).oldStart - 1).toNat = (oldText front).length := by
      simp only [pieceHunk]
      omega
    refine ⟨?_, ?_⟩
    · simp only [pieceHunk]
      omega
    · rw [hstart, hdiff, oldText_append, oldText_append, append_assoc, drop_left]
      show _ = List.take (oldText piece).length _
      rw [take_left]
      exact (contents_unified piece).1
  applies := h.applies

end Pieces
end Rolebox.Hashline
