import Rolebox.General.Folds
import Rolebox.General.Placed
import Rolebox.Hashline.Deduplication

/-! What an edit does to the working lines: it is placed by the line its anchor names. -/

namespace Rolebox.Hashline
open General List

def refLine (ref : Text) : Option Nat := (parseLineRef ref).toOption.map HashAnchor.line

def fileInsert (text : EditLines) (refLineCount : Nat) : List Text :=
  let given := toNewLines text
  if isNoopInsert given then [] else stripLinePrefixes given refLineCount

/-- The lines put in the place of a line, or of a range that begins there. -/
def replacement (originalLines : List Text) (first : Nat) (newLines : List Text) : List Text :=
  indentFirst originalLines[first - 1]? (stripLinePrefixes newLines originalLines.length)

def withAttached (attached : Option AttachedInsert) (newLines : List Text) : List Text :=
  let inserted := attached.getD { prependLines := [], appendLines := [] }
  inserted.prependLines ++ newLines ++ inserted.appendLines

/-- Where an edit is placed among the original lines; one whose anchor names none has no place. -/
def EditOp.place (originalLines : List Text) (attached : Attachments) (edit : EditOp) :
    Option (Placed Text) :=
  match edit with
  | .replace pos endPos newText =>
    match givenAnchor endPos with
    | some endPos => do
      let first ← refLine pos
      let last ← refLine endPos
      let echoed := stripRangeBoundaryEcho originalLines first last (toNewLines newText)
      if last < first then none
      else some (.replace first last
        (withAttached (attached.lookup edit) (replacement originalLines first echoed)))
    | none => (refLine pos).map fun first =>
        .replace first first (replacement originalLines first (toNewLines newText))
  | .append pos text =>
    match givenAnchor pos with
    | some pos => (refLine pos).map fun n => .after n (normalizeAttachedInsert edit n originalLines)
    | none => some (.atEnd (fileInsert text originalLines.length))
  | .prepend pos text =>
    match givenAnchor pos with
    | some pos =>
      (refLine pos).map fun n => .before n (normalizeAttachedInsert edit n originalLines)
    | none => some (.atStart (fileInsert text originalLines.length))

section Anchors
variable {ref : Text} {n : Nat}

variable {host : TextHost} {lines : List Text} {hashWidth : Nat}

def RefHolds (host : TextHost) (lines : List Text) (hashWidth : Nat) (ref : Text) (n : Nat) : Prop :=
  ∃ anchor, parseLineRef ref = .ok anchor ∧ anchor.line = n ∧
    anchorMismatch host lines anchor hashWidth = none

section

variable (h : RefHolds host lines hashWidth ref n)
include h

theorem RefHolds.refLine : refLine ref = some n := by
  obtain ⟨anchor, hparse, hline, -⟩ := h
  rw [Hashline.refLine, hparse, ← hline]
  rfl

theorem RefHolds.within : 1 ≤ n ∧ n ≤ lines.length := by
  obtain ⟨anchor, -, rfl, hmatch⟩ := h
  by_cases hn : 1 ≤ anchor.line
  · refine ⟨hn, ?_⟩
    by_contra hlong
    have hnone : lines[anchor.line - 1]? = none := getElem?_eq_none (by omega)
    rw [anchorMismatch, if_pos hn, hnone] at hmatch
    exact nomatch hmatch
  · rw [anchorMismatch, if_neg hn] at hmatch
    exact nomatch hmatch

theorem RefHolds.validate :
    ∃ anchor, parseLineRef ref = .ok anchor ∧ anchor.line = n ∧
      validateLineRef host lines ref hashWidth = .ok () := by
  obtain ⟨anchor, hparse, hline, hmatch⟩ := h
  refine ⟨anchor, hparse, hline, ?_⟩
  rw [validateLineRef, hparse, ok_bind, hmatch]
  rfl

end

theorem validateLineRefs_iff (refs : List Text) :
    validateLineRefs host lines refs hashWidth = .ok () ↔
      ∀ ref ∈ refs, ∃ n, RefHolds host lines hashWidth ref n := by
  constructor
  · intro h ref href
    obtain ⟨anchors, hanchors, hrest⟩ := bind_eq_ok.1 h
    obtain ⟨anchor, hmem, hparse⟩ := mapM_ok_mem hanchors href
    refine ⟨anchor.line, anchor, hparse, rfl, ?_⟩
    by_contra hmismatch
    obtain ⟨mismatch, hsome⟩ := Option.ne_none_iff_exists'.1 hmismatch
    have hfound : mismatch ∈ anchors.filterMap fun anchor =>
        anchorMismatch host lines anchor hashWidth := mem_filterMap.2 ⟨anchor, hmem, hsome⟩
    rw [if_pos (ne_nil_of_mem hfound)] at hrest
    exact nomatch hrest
  · intro h
    have hparse : ∀ ref ∈ refs, parseLineRef ref = .ok ((parseLineRef ref).toOption.getD ⟨0, []⟩) := by
      intro ref href
      obtain ⟨n, anchor, hparse, -⟩ := h ref href
      rw [hparse]
      rfl
    have hnone : (refs.map fun ref => (parseLineRef ref).toOption.getD ⟨0, []⟩).filterMap
        (fun anchor => anchorMismatch host lines anchor hashWidth) = [] := by
      rw [filterMap_eq_nil_iff]
      intro anchor hanchor
      obtain ⟨ref, href, rfl⟩ := mem_map.1 hanchor
      obtain ⟨n, anchor, hparse, -, hmatch⟩ := h ref href
      rw [hparse]
      exact hmatch
    rw [validateLineRefs, mapM_ok hparse, ok_bind, hnone]
    rfl

end Anchors

section Primitives
variable {n : Nat} {ref : Text}

variable {host : TextHost} {lines working : List Text} {hashWidth : Nat}

theorem splice_eq_make_after (hn : 1 ≤ n) (text : List Text) :
    splice working (n - 1 + 1) 0 text = (Placed.after n text).make working := by
  rw [splice, Nat.sub_add_cancel hn]
  rfl

section

variable (h : RefHolds host lines hashWidth ref n)
include h

theorem applyInsertAfter_eq (pos : Option Text) (text : EditLines) :
    applyInsertAfter host working ref text hashWidth lines =
      .ok ((Placed.after n (normalizeAttachedInsert (.append pos text) n lines)).make working) := by
  have hn := h.within.1
  obtain ⟨anchor, hparse, rfl, hvalid⟩ := h.validate
  rw [applyInsertAfter, hparse, ok_bind, hvalid, ok_bind, normalizeAttachedInsert]
  dsimp only
  by_cases hnoop : isNoopInsert (toNewLines text) = true
  · rw [if_pos hnoop, if_pos hnoop, Placed.make_after_nil]
    rfl
  · rw [if_neg hnoop, if_neg hnoop]
    split
    · case isTrue hnil =>
      rw [hnil, Placed.make_after_nil]
      rfl
    · rw [splice_eq_make_after hn]
      rfl

theorem applyInsertBefore_eq (pos : Option Text) (text : EditLines) :
    applyInsertBefore host working ref text hashWidth lines =
      .ok ((Placed.before n (normalizeAttachedInsert (.prepend pos text) n lines)).make working) := by
  obtain ⟨anchor, hparse, rfl, hvalid⟩ := h.validate
  have hnil : (Placed.before anchor.line []).make working = working := by
    rw [Placed.make, append_nil, take_append_drop]
  rw [applyInsertBefore, hparse, ok_bind, hvalid, ok_bind, normalizeAttachedInsert]
  dsimp only
  by_cases hnoop : isNoopInsert (toNewLines text) = true
  · rw [if_pos hnoop, if_pos hnoop, hnil]
    rfl
  · rw [if_neg hnoop, if_neg hnoop]
    split
    · case isTrue hempty =>
      rw [hempty, hnil]
      rfl
    · rfl

omit h in
theorem applyAppend_eq (text : EditLines) (h : working = [[]] → fileInsert text lines.length = []) :
    applyAppend working text lines.length =
      (Placed.atEnd (fileInsert text lines.length)).make working := by
  rw [applyAppend, fileInsert]
  by_cases hnoop : isNoopInsert (toNewLines text) = true
  · rw [if_pos hnoop, if_pos hnoop, Placed.make, append_nil]
  rw [if_neg hnoop, if_neg hnoop]
  have hblank : ¬ working = [[]] := by
    intro hworking
    have hnil := h hworking
    rw [fileInsert, if_neg hnoop, stripLinePrefixes, map_eq_nil_iff] at hnil
    exact hnoop (by simp [isNoopInsert, hnil])
  rw [if_neg hblank]
  rfl

omit h in
theorem applyPrepend_eq (text : EditLines) :
    applyPrepend working text lines.length =
      (Placed.atStart (fileInsert text lines.length)).make working := by
  rw [applyPrepend, fileInsert]
  split
  · rfl
  · rfl

theorem applyReplaceSingle_eq (text : EditLines) :
    applyReplaceSingle host working ref text hashWidth lines =
      .ok ((Placed.replace n n (replacement lines n (toNewLines text))).make working) := by
  obtain ⟨anchor, hparse, rfl, hvalid⟩ := h.validate
  rw [applyReplaceSingle, hparse, ok_bind, hvalid, ok_bind, Placed.make, Nat.sub_self]
  rfl

end

theorem applyReplaceRange_eq {endRef : Text} {first last : Nat}
    (h : RefHolds host lines hashWidth ref first) (hend : RefHolds host lines hashWidth endRef last)
    (hle : first ≤ last) (text : EditLines) (attached : Option AttachedInsert) :
    applyReplaceRange host working ref endRef text hashWidth lines attached =
      .ok ((Placed.replace first last (withAttached attached (replacement lines first
        (stripRangeBoundaryEcho lines first last (toNewLines text))))).make working) := by
  obtain ⟨anchor, hparse, rfl, hvalid⟩ := h.validate
  obtain ⟨endAnchor, hparseEnd, rfl, hvalidEnd⟩ := hend.validate
  rw [applyReplaceRange, hparse, ok_bind, hparseEnd, ok_bind, if_neg (by omega)]
  show (validateLineRef host lines ref hashWidth >>= fun _ => _) = _
  rw [hvalid, ok_bind, hvalidEnd, ok_bind]
  rfl

end Primitives

section Placing

variable {host : TextHost} {lines : List Text} {hashWidth : Nat}

def EditOp.Holds (host : TextHost) (lines : List Text) (hashWidth : Nat) : EditOp → Prop
  | .replace pos endPos _ => ∃ first, RefHolds host lines hashWidth pos first ∧
      ∀ ref, givenAnchor endPos = some ref →
        ∃ last, RefHolds host lines hashWidth ref last ∧ first ≤ last
  | .append pos _ => ∀ ref, givenAnchor pos = some ref → ∃ n, RefHolds host lines hashWidth ref n
  | .prepend pos _ => ∀ ref, givenAnchor pos = some ref → ∃ n, RefHolds host lines hashWidth ref n

def ReplaceRange.span (range : ReplaceRange) : Nat × Nat := (range.first, range.last)

structure EditOp.PlacedAs (host : TextHost) (lines : List Text) (hashWidth : Nat)
    (attached : Attachments) (edit : EditOp) (p : Placed Text) : Prop where
  place : edit.place lines attached = some p
  within : p.Within lines.length
  line : getEditLineNumber edit = .ok p.line
  rank : opPriority edit = p.rank
  endText : lines = [] → p.endText ≠ [[]]
  range : ∃ found, replaceRangeOf edit = .ok found ∧ found.map ReplaceRange.span = p.span
  make : ∀ working, (working = [[]] → p.endText = []) →
    applyEdit host hashWidth lines attached working edit = .ok (p.make working)

theorem stripLinePrefixes_zero (newLines : List Text) : stripLinePrefixes newLines 0 = newLines := by
  conv_rhs => rw [← map_id newLines]
  apply map_congr_left
  intro line _
  split
  · rfl
  · exact if_pos (by omega)

theorem fileInsert_ne_blank (text : EditLines) (h : lines = []) :
    fileInsert text lines.length ≠ [[]] := by
  subst h
  rw [fileInsert, length_nil, stripLinePrefixes_zero]
  intro hblank
  split at hblank
  · exact nomatch hblank
  · case isFalse hnoop => exact hnoop (by simp [isNoopInsert, hblank])

theorem refLine_eq_none_of_empty : refLine [] = none := by decide +kernel

theorem RefHolds.given {ref : Text} {n : Nat} (h : RefHolds host lines hashWidth ref n) :
    givenAnchor (some ref) = some ref := by
  have hne : ref ≠ [] := by
    rintro rfl
    have hline := h.refLine
    rw [refLine_eq_none_of_empty] at hline
    exact nomatch hline
  simp [givenAnchor, hne]

theorem getEditLineNumber_of_pos {edit : EditOp} {ref : Text} {n : Nat} (hpos : edit.pos = some ref)
    (h : RefHolds host lines hashWidth ref n) : getEditLineNumber edit = .ok (n : WithTop Nat) := by
  obtain ⟨anchor, hparse, rfl, -⟩ := h
  rw [getEditLineNumber.eq_def, hpos]
  dsimp only
  rw [hparse]
  rfl

theorem EditOp.Holds.placed {edit : EditOp} (h : edit.Holds host lines hashWidth)
    (attached : Attachments) : ∃ p, edit.PlacedAs host lines hashWidth attached p := by
  cases edit with
  | replace pos endPos newText =>
    obtain ⟨first, hfirst, hend⟩ := h
    have hpos : (EditOp.replace pos endPos newText).pos = some pos := hfirst.given
    cases hgiven : givenAnchor endPos with
    | none =>
      refine ⟨.replace first first (replacement lines first (toNewLines newText)), ?_, ?_, ?_, rfl,
        fun _ => cons_ne_nil _ _ ∘ Eq.symm, ?_, ?_⟩
      · rw [EditOp.place, hgiven, hfirst.refLine]
        rfl
      · exact ⟨hfirst.within.1, le_rfl, hfirst.within.2⟩
      · exact getEditLineNumber_of_pos hpos hfirst
      · have hendPos : (EditOp.replace pos endPos newText).endPos = none := hgiven
        obtain ⟨anchor, hparse, rfl, -⟩ := hfirst
        refine ⟨some ⟨anchor.line, anchor.line, pos, none⟩, ?_, rfl⟩
        rw [replaceRangeOf.eq_def, hpos]
        dsimp only
        rw [hparse, ok_bind, hendPos]
        rfl
      · intro working _
        rw [applyEdit, hgiven]
        exact applyReplaceSingle_eq hfirst newText
    | some endRef =>
      obtain ⟨last, hlast, hle⟩ := hend endRef hgiven
      refine ⟨.replace first last (withAttached (attached.lookup (.replace pos endPos newText))
        (replacement lines first (stripRangeBoundaryEcho lines first last (toNewLines newText)))),
        ?_, ?_, ?_, rfl, fun _ => cons_ne_nil _ _ ∘ Eq.symm, ?_, ?_⟩
      · have hnot : ¬ last < first := by omega
        rw [EditOp.place, hgiven, hfirst.refLine]
        dsimp only
        rw [hlast.refLine]
        exact if_neg hnot
      · exact ⟨hfirst.within.1, hle, hlast.within.2⟩
      · exact getEditLineNumber_of_pos hpos hfirst
      · have hendPos : (EditOp.replace pos endPos newText).endPos = some endRef := hgiven
        obtain ⟨anchor, hparse, rfl, -⟩ := hfirst
        obtain ⟨endAnchor, hparseEnd, rfl, -⟩ := hlast
        refine ⟨some ⟨anchor.line, endAnchor.line, pos, some endRef⟩, ?_, rfl⟩
        rw [replaceRangeOf.eq_def, hpos]
        dsimp only
        rw [hparse, ok_bind, hendPos]
        dsimp only
        rw [hparseEnd]
        rfl
      · intro working _
        rw [applyEdit, hgiven]
        exact applyReplaceRange_eq hfirst hlast hle newText _
  | append pos text =>
    cases hgiven : givenAnchor pos with
    | none =>
      refine ⟨.atEnd (fileInsert text lines.length), ?_, trivial, ?_, rfl,
        fileInsert_ne_blank text, ⟨none, rfl, rfl⟩, ?_⟩
      · rw [EditOp.place, hgiven]
      · have hpos : (EditOp.append pos text).pos = none := hgiven
        rw [getEditLineNumber.eq_def, hpos]
        rfl
      · intro working hblank
        rw [applyEdit, hgiven]
        exact congrArg Except.ok (applyAppend_eq text hblank)
    | some ref =>
      obtain ⟨n, hn⟩ := h ref hgiven
      refine ⟨.after n (normalizeAttachedInsert (.append pos text) n lines), ?_, hn.within, ?_, rfl,
        fun _ => cons_ne_nil _ _ ∘ Eq.symm, ⟨none, rfl, rfl⟩, ?_⟩
      · rw [EditOp.place, hgiven]
        dsimp only
        rw [hn.refLine]
        rfl
      · exact getEditLineNumber_of_pos hgiven hn
      · intro working _
        rw [applyEdit, hgiven]
        exact applyInsertAfter_eq hn pos text
  | prepend pos text =>
    cases hgiven : givenAnchor pos with
    | none =>
      refine ⟨.atStart (fileInsert text lines.length), ?_, trivial, ?_, rfl,
        fun _ => cons_ne_nil _ _ ∘ Eq.symm, ⟨none, rfl, rfl⟩, ?_⟩
      · rw [EditOp.place, hgiven]
      · have hpos : (EditOp.prepend pos text).pos = none := hgiven
        rw [getEditLineNumber.eq_def, hpos]
        rfl
      · intro working _
        rw [applyEdit, hgiven]
        exact congrArg Except.ok (applyPrepend_eq text)
    | some ref =>
      obtain ⟨n, hn⟩ := h ref hgiven
      refine ⟨.before n (normalizeAttachedInsert (.prepend pos text) n lines), ?_, hn.within, ?_, rfl,
        fun _ => cons_ne_nil _ _ ∘ Eq.symm, ⟨none, rfl, rfl⟩, ?_⟩
      · rw [EditOp.place, hgiven]
        dsimp only
        rw [hn.refLine]
        rfl
      · exact getEditLineNumber_of_pos hgiven hn
      · intro working _
        rw [applyEdit, hgiven]
        exact applyInsertBefore_eq hn pos text

end Placing

section Sorting

variable {host : TextHost} {lines : List Text} {hashWidth : Nat} {attached : Attachments}
variable {edits : List EditOp} {place : EditOp → Placed Text}

instance : Std.Total bottomUp := by
  constructor
  intro a b
  rcases lt_trichotomy a.1 b.1 with h | h | h
  · exact .inr (.inl h)
  · rcases le_total (opPriority a.2) (opPriority b.2) with hle | hle
    · exact .inl (.inr ⟨h, hle⟩)
    · exact .inr (.inr ⟨h.symm, hle⟩)
  · exact .inl (.inl h)

instance : IsTrans (WithTop Nat × EditOp) bottomUp := by
  constructor
  rintro a b c (hab | ⟨hab, hab'⟩) (hbc | ⟨hbc, hbc'⟩)
  · exact .inl (hbc.trans hab)
  · exact .inl (hbc ▸ hab)
  · exact .inl (hab.symm ▸ hbc)
  · exact .inr ⟨hab.trans hbc, hab'.trans hbc'⟩

theorem sortEditsBottomUp_perm {line : EditOp → WithTop Nat}
    (h : ∀ edit ∈ edits, getEditLineNumber edit = .ok (line edit)) :
    ∃ sorted, sortEditsBottomUp edits = .ok sorted ∧ sorted.Perm edits ∧
      sorted.Pairwise fun a b => bottomUp (line a, a) (line b, b) := by
  let numbered (edit : EditOp) : WithTop Nat × EditOp := (line edit, edit)
  have hzip : (edits.map line).zip edits = edits.map numbered := by
    conv_lhs => rw [← map_id edits, map_map]
    exact zip_map'
  have hperm := perm_insertionSort bottomUp (edits.map numbered)
  have hmem : ∀ pair ∈ (edits.map numbered).insertionSort bottomUp, pair = numbered pair.2 := by
    intro pair hpair
    obtain ⟨edit, hedit, rfl⟩ := mem_map.1 (hperm.mem_iff.1 hpair)
    rfl
  refine ⟨((edits.map numbered).insertionSort bottomUp).map Prod.snd, ?_, ?_, ?_⟩
  · rw [sortEditsBottomUp, mapM_ok h, ok_bind, hzip]
    rfl
  · have hsnd := hperm.map Prod.snd
    rwa [map_map, show Prod.snd ∘ numbered = id from rfl, map_id] at hsnd
  · rw [pairwise_map]
    apply (pairwise_insertionSort bottomUp (edits.map numbered)).imp_of_mem
    intro a b ha hb hab
    rwa [hmem a ha, hmem b hb] at hab

theorem sortEditsBottomUp_ok
    (h : ∀ edit ∈ edits, edit.PlacedAs host lines hashWidth attached (place edit)) :
    ∃ sorted, sortEditsBottomUp edits = .ok sorted ∧ sorted.Perm edits ∧
      sorted.Pairwise fun a b => (place a).Precedes (place b) := by
  obtain ⟨sorted, hsorted, hperm, hpairwise⟩ :=
    sortEditsBottomUp_perm fun edit hedit => (h edit hedit).line
  refine ⟨sorted, hsorted, hperm, hpairwise.imp_of_mem ?_⟩
  intro a b ha hb hab
  rw [bottomUp, (h a (hperm.mem_iff.1 ha)).rank, (h b (hperm.mem_iff.1 hb)).rank] at hab
  exact hab

end Sorting

section Overlaps

variable {host : TextHost} {lines : List Text} {hashWidth : Nat} {attached : Attachments}
variable {edits : List EditOp} {place : EditOp → Placed Text}

def rangesPass (edits : List EditOp) : Except EditError (List ReplaceRange) :=
  edits.foldlM (fun (ranges : List ReplaceRange) edit => do
    match ← replaceRangeOf edit with
    | none => return ranges
    | some range =>
      match ranges.find? (rangesOverlap range) with
      | some existing => throw (.error (overlapMessage range existing))
      | none => return ranges ++ [range]) []

theorem detectOverlappingRanges_eq (edits : List EditOp) :
    detectOverlappingRanges edits = (rangesPass edits).map fun _ => () := by
  show (rangesPass edits >>= fun _ => _) = _
  cases rangesPass edits <;> rfl

theorem rangesPass_concat (edits : List EditOp) (edit : EditOp) :
    rangesPass (edits ++ [edit]) = rangesPass edits >>= fun ranges => do
      match ← replaceRangeOf edit with
      | none => return ranges
      | some range =>
        match ranges.find? (rangesOverlap range) with
        | some existing => throw (.error (overlapMessage range existing))
        | none => return ranges ++ [range] := by
  rw [rangesPass, foldlM_append]
  simp only [foldlM_cons, foldlM_nil, bind_pure]
  rfl

section

variable (h : ∀ edit ∈ edits, edit.PlacedAs host lines hashWidth attached (place edit))
include h

theorem rangesPass_spans {ranges : List ReplaceRange} (hpass : rangesPass edits = .ok ranges) :
    ranges.map ReplaceRange.span = (edits.map place).filterMap Placed.span := by
  induction edits using reverseRecOn generalizing ranges with
  | nil =>
    obtain rfl : ranges = [] := by cases hpass; rfl
    rfl
  | append_singleton edits edit ih =>
    rw [rangesPass_concat] at hpass
    obtain ⟨before, hbefore, hstep⟩ := bind_eq_ok.1 hpass
    have hspans := ih (fun e he => h e (mem_append_left _ he)) hbefore
    obtain ⟨found, hfound, hspan⟩ := (h edit (by simp)).range
    rw [hfound, ok_bind] at hstep
    rw [map_append, filterMap_append, ← hspans, map_singleton]
    cases found with
    | none =>
      obtain rfl : ranges = before := by cases hstep; rfl
      rw [filterMap_cons_none hspan.symm, filterMap_nil, append_nil]
    | some range =>
      dsimp only at hstep
      split at hstep
      · exact nomatch hstep
      · obtain rfl : ranges = before ++ [range] := by cases hstep; rfl
        rw [filterMap_cons_some hspan.symm, map_append]
        rfl

theorem rangesPass_ok_iff :
    (∃ ranges, rangesPass edits = .ok ranges) ↔ (edits.map place).Pairwise Placed.Apart := by
  induction edits using reverseRecOn with
  | nil => exact ⟨fun _ => List.Pairwise.nil, fun _ => ⟨[], rfl⟩⟩
  | append_singleton edits edit ih =>
    have hedits : ∀ e ∈ edits, e.PlacedAs host lines hashWidth attached (place e) :=
      fun e he => h e (mem_append_left _ he)
    have hedit := h edit (by simp)
    obtain ⟨found, hfound, hspan⟩ := hedit.range
    -- the new range meets none of those collected before
    have hstep {ranges : List ReplaceRange} (hbefore : rangesPass edits = .ok ranges) :
        (∃ after, rangesPass (edits ++ [edit]) = .ok after) ↔
          ∀ e ∈ edits, (place e).Apart (place edit) := by
      have hspans := rangesPass_spans hedits hbefore
      have hapart : (∀ e ∈ edits, (place e).Apart (place edit)) ↔
          ∀ r ∈ ranges, ∀ t ∈ (place edit).span, ¬ (t.1 ≤ r.last ∧ r.first ≤ t.2) := by
        constructor
        · intro hall r hr t ht
          have hmem : r.span ∈ (edits.map place).filterMap Placed.span := hspans ▸ mem_map_of_mem hr
          obtain ⟨p, hp, hpspan⟩ := mem_filterMap.1 hmem
          obtain ⟨e, he, rfl⟩ := mem_map.1 hp
          exact (Placed.apart_iff (hedits e he).within hedit.within).1 (hall e he) r.span hpspan t ht
        · intro hall e he
          apply (Placed.apart_iff (hedits e he).within hedit.within).2
          intro s hs t ht
          have hmem : s ∈ (edits.map place).filterMap Placed.span :=
            mem_filterMap.2 ⟨place e, mem_map_of_mem he, hs⟩
          rw [← hspans] at hmem
          obtain ⟨r, hr, rfl⟩ := mem_map.1 hmem
          exact hall r hr t ht
      rw [hapart, rangesPass_concat, hbefore, ok_bind, hfound, ok_bind, ← hspan]
      cases found with
      | none => exact ⟨nofun, fun _ => ⟨ranges, rfl⟩⟩
      | some range =>
        dsimp only
        cases hfind : ranges.find? (rangesOverlap range) with
        | none =>
          refine ⟨fun _ r hr t ht => ?_, fun _ => ⟨ranges ++ [range], rfl⟩⟩
          obtain rfl : range.span = t := Option.some.inj ht
          have hnot := find?_eq_none.1 hfind r hr
          simpa [rangesOverlap, ReplaceRange.span] using hnot
        | some existing =>
          refine ⟨fun ⟨after, hafter⟩ => (nomatch hafter), fun hall => ?_⟩
          have hoverlap := find?_some hfind
          have hnot := hall existing (mem_of_find?_eq_some hfind) range.span rfl
          simp only [rangesOverlap, Bool.and_eq_true, decide_eq_true_eq] at hoverlap
          exact absurd hoverlap hnot
    have hpairwise : ((edits ++ [edit]).map place).Pairwise Placed.Apart ↔
        (edits.map place).Pairwise Placed.Apart ∧ ∀ e ∈ edits, (place e).Apart (place edit) := by
      rw [map_append, pairwise_append]
      simp
    rw [hpairwise, ← ih hedits]
    constructor
    · rintro ⟨after, hafter⟩
      have hpass := hafter
      rw [rangesPass_concat] at hpass
      obtain ⟨before, hbefore, -⟩ := bind_eq_ok.1 hpass
      exact ⟨⟨before, hbefore⟩, (hstep hbefore).1 ⟨after, hafter⟩⟩
    · rintro ⟨⟨before, hbefore⟩, hall⟩
      exact (hstep hbefore).2 hall

theorem detectOverlappingRanges_iff :
    detectOverlappingRanges edits = .ok () ↔ (edits.map place).Pairwise Placed.Apart := by
  rw [← rangesPass_ok_iff h, detectOverlappingRanges_eq, map_eq_ok]
  simp

end

end Overlaps

section Running

variable {host : TextHost} {lines : List Text} {hashWidth : Nat} {attached : Attachments}
variable {sorted : List EditOp} {place : EditOp → Placed Text}

theorem blank_mem_of_flatten {texts : List (List Text)} (h : texts.flatten = [[]]) : [[]] ∈ texts := by
  induction texts with
  | nil => exact nomatch h
  | cons text texts ih =>
    rw [flatten_cons] at h
    rcases append_eq_singleton_iff.1 h with ⟨-, hrest⟩ | ⟨htext, -⟩
    · exact .tail _ (ih hrest)
    · exact mem_cons.2 (.inl htext.symm)

theorem Placed.line_eq_top {q : Placed Text} {text : List Text}
    (h : q.Precedes (.atEnd text)) : ∃ given, q = .atEnd given := by
  have hline : q.line = ⊤ := top_le_iff.1 h.line_le
  cases q with
  | atEnd given => exact ⟨given, rfl⟩
  | replace first last block | after number given | before number given
  | atStart given => exact absurd hline (WithTop.coe_ne_top)

theorem layout_of_atEnd {ps : List (Placed Text)} (h : ∀ p ∈ ps, ∃ text, p = .atEnd text) :
    layout lines ps = lines ++ (ps.map Placed.endText).flatten := by
  have hcells : cells (cell ps) 1 lines = cells (fun _ x => [x]) 1 lines := by
    apply cells_congr
    intro n _ _ x
    apply cell_of_misses
    intro p hp
    obtain ⟨text, rfl⟩ := h p hp
    exact ⟨rfl, rfl, rfl, rfl⟩
  have hstart : gathered Placed.startText ps = [] := by
    apply gathered_eq_nil
    intro p hp
    obtain ⟨text, rfl⟩ := h p hp
    rfl
  rw [layout, hcells, cells_singleton, hstart, nil_append]

/-- Where a text goes to the end, the working lines are not one blank line. -/
theorem layout_ne_blank {before : List EditOp} {edit : EditOp}
    (hplaced : ∀ e ∈ before ++ [edit], e.PlacedAs host lines hashWidth attached (place e))
    (hprecedes : ∀ e ∈ before, (place e).Precedes (place edit))
    (hblank : lines = [[]] → (place edit).endText = [])
    (h : layout lines (before.map place) = [[]]) : (place edit).endText = [] := by
  cases hplace : place edit with
  | atEnd text =>
    have hends : ∀ p ∈ before.map place, ∃ given, p = .atEnd given := by
      intro p hp
      obtain ⟨e, he, rfl⟩ := mem_map.1 hp
      exact Placed.line_eq_top (hplace ▸ hprecedes e he)
    rw [layout_of_atEnd hends] at h
    rcases append_eq_singleton_iff.1 h with ⟨hempty, htexts⟩ | ⟨hone, -⟩
    · obtain ⟨p, hp, hblankText⟩ := mem_map.1 (blank_mem_of_flatten htexts)
      obtain ⟨e, he, rfl⟩ := mem_map.1 hp
      exact absurd hblankText ((hplaced e (mem_append_left _ he)).endText hempty)
    · rw [← hplace]
      exact hblank hone
  | replace first last block => rfl
  | after number text => rfl
  | before number text => rfl
  | atStart text => rfl

theorem foldlM_applyEdit
    (hplaced : ∀ edit ∈ sorted, edit.PlacedAs host lines hashWidth attached (place edit))
    (hfits : sorted.Pairwise fun a b => (place a).Precedes (place b) ∧ (place a).Fits (place b))
    (hblank : lines = [[]] → ∀ edit ∈ sorted, (place edit).endText = []) :
    ∃ noops, sorted.foldlM (fun (working : List Text × Nat) edit => do
        let applied ← applyEdit host hashWidth lines attached working.1 edit
        return (applied, if applied = working.1 then working.2 + 1 else working.2)) (lines, 0) =
      .ok (layout lines (sorted.map place), noops) := by
  induction sorted using reverseRecOn with
  | nil => exact ⟨0, by rw [map_nil, layout_nil]; rfl⟩
  | append_singleton sorted edit ih =>
    obtain ⟨hsorted, -, hlast⟩ := pairwise_append.1 hfits
    have hbefore : ∀ e ∈ sorted, e ∈ sorted ++ [edit] := fun e => mem_append_left _
    have hedit : edit ∈ sorted ++ [edit] := by simp
    obtain ⟨noops, hnoops⟩ := ih (fun e he => hplaced e (hbefore e he)) hsorted
      fun hlines e he => hblank hlines e (hbefore e he)
    have hprecedes : ∀ e ∈ sorted, (place e).Precedes (place edit) :=
      fun e he => (hlast e he edit (mem_singleton_self edit)).1
    have happly := (hplaced edit hedit).make (layout lines (sorted.map place))
      (layout_ne_blank hplaced hprecedes fun hlines => hblank hlines edit hedit)
    have hmake : (place edit).make (layout lines (sorted.map place)) =
        layout lines ((sorted ++ [edit]).map place) := by
      rw [map_append, map_singleton]
      apply make_layout (hplaced edit hedit).within
      intro q hq
      obtain ⟨e, he, rfl⟩ := mem_map.1 hq
      exact hlast e he edit (mem_singleton_self edit)
    rw [hmake] at happly
    refine ⟨if layout lines ((sorted ++ [edit]).map place) = layout lines (sorted.map place) then
      noops + 1 else noops, ?_⟩
    rw [foldlM_append, hnoops, ok_bind, foldlM_cons, happly, ok_bind]
    rfl

end Running
end Rolebox.Hashline
