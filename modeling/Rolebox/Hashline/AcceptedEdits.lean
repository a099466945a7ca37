import Rolebox.Hashline.PlacedEdits

/-! An accepted batch: its anchors hold, and the file becomes the layout of its edits. -/

namespace Rolebox.Hashline
open General List Option

section Attaching
variable {edit : EditOp}

variable {host : TextHost} {lines : List Text} {hashWidth : Nat} {edits : List EditOp}

def EditOp.Anchored (host : TextHost) (lines : List Text) (hashWidth : Nat) (edit : EditOp) : Prop :=
  ∀ ref ∈ edit.pos.toList ++ edit.endPos.toList, ∃ n, RefHolds host lines hashWidth ref n

theorem EditOp.Anchored.pos {ref : Text} (h : edit.Anchored host lines hashWidth)
    (hpos : edit.pos = some ref) : ∃ n, RefHolds host lines hashWidth ref n :=
  h ref (mem_append_left _ (by simp [hpos]))

theorem EditOp.Anchored.endPos {ref : Text} (h : edit.Anchored host lines hashWidth)
    (hend : edit.endPos = some ref) : ∃ n, RefHolds host lines hashWidth ref n :=
  h ref (mem_append_right _ (by simp [hend]))

theorem validate_collected_iff (edits : List EditOp) :
    validateLineRefs host lines (collectLineRefs edits) hashWidth = .ok () ↔
      ∀ edit ∈ edits, edit.Anchored host lines hashWidth := by
  rw [validateLineRefs_iff]
  constructor
  · intro h edit hedit ref href
    exact h ref (mem_flatMap.2 ⟨edit, hedit, href⟩)
  · intro h ref href
    obtain ⟨edit, hedit, hmem⟩ := mem_flatMap.1 href
    exact h edit hedit ref hmem

theorem EditOp.Holds.anchored (h : edit.Holds host lines hashWidth) :
    edit.Anchored host lines hashWidth := by
  intro ref href
  cases edit with
  | replace pos endPos newText =>
    obtain ⟨first, hfirst, hend⟩ := h
    rcases mem_append.1 href with hpos | hpos
    · have hsame : givenAnchor (some pos) = some ref := Option.mem_toList.1 hpos
      rw [hfirst.given] at hsame
      obtain rfl : pos = ref := Option.some.inj hsame
      exact ⟨first, hfirst⟩
    · obtain ⟨last, hlast, -⟩ := hend ref (Option.mem_toList.1 hpos)
      exact ⟨last, hlast⟩
  | append pos text
  | prepend pos text => exact h ref (by simpa [EditOp.pos, EditOp.endPos] using href)

def EditOp.range (edit : EditOp) : Option (Nat × Nat × EditOp) :=
  match edit.pos, edit.endPos with
  | some pos, some endPos => do
    let first ← refLine pos
    let last ← refLine endPos
    some (first, last, edit)
  | _, _ => none

theorem hostRanges_eq (h : ∀ edit ∈ edits, edit.Anchored host lines hashWidth) :
    hostRanges edits = .ok (edits.filterMap EditOp.range) := by
  have hpass : hostRanges edits = (Except.ok (edits.map EditOp.range)).map (List.filterMap id) := by
    rw [hostRanges, mapM_ok (g := EditOp.range)]
    · rfl
    intro edit hedit
    rw [EditOp.range]
    cases hpos : edit.pos with
    | none => rfl
    | some pos =>
      cases hend : edit.endPos with
      | none => rfl
      | some endPos =>
        obtain ⟨first, hfirst⟩ := (h edit hedit).pos hpos
        obtain ⟨last, hlast⟩ := (h edit hedit).endPos hend
        dsimp only
        rw [hfirst.refLine, hlast.refLine]
        obtain ⟨anchor, hparse, rfl, -⟩ := hfirst
        obtain ⟨endAnchor, hparseEnd, rfl, -⟩ := hlast
        rw [hparse, hparseEnd]
        rfl
  rw [hpass, Except.map, filterMap_map]
  rfl

def ridesWith (ranges : List (Nat × Nat × EditOp)) (edit : EditOp) : Option (Nat × EditOp) :=
  match edit, edit.pos with
  | .replace _ _ _, _ => none
  | _, none => none
  | _, some pos => do
    let n ← refLine pos
    let range ← ranges.find? fun range => range.1 < n ∧ n < range.2.1
    some (n, range.2.2)

theorem EditOp.range_of_endPos (h : edit.endPos = none) : edit.range = none := by
  rw [EditOp.range, h]
  cases edit.pos <;> rfl

theorem EditOp.Holds.range (h : edit.Holds host lines hashWidth) (attached : Attachments)
    {r : Nat × Nat × EditOp} (hrange : edit.range = some r) :
    ∃ block, edit.place lines attached = some (.replace r.1 r.2.1 block) ∧ r.2.2 = edit := by
  cases edit with
  | replace pos endPos newText =>
    obtain ⟨first, hfirst, hend⟩ := h
    have hpos : (EditOp.replace pos endPos newText).pos = some pos := hfirst.given
    cases hgiven : givenAnchor endPos with
    | none =>
      have hendPos : (EditOp.replace pos endPos newText).endPos = none := hgiven
      rw [EditOp.range, hpos, hendPos] at hrange
      cases hrange
    | some ref =>
      obtain ⟨last, hlast, hle⟩ := hend ref hgiven
      have hendPos : (EditOp.replace pos endPos newText).endPos = some ref := hgiven
      rw [EditOp.range, hpos, hendPos] at hrange
      dsimp only at hrange
      rw [hfirst.refLine, hlast.refLine] at hrange
      cases hrange
      have hnot : ¬ last < first := by omega
      refine ⟨withAttached (attached.lookup (.replace pos endPos newText))
        (replacement lines first (stripRangeBoundaryEcho lines first last (toNewLines newText))), ?_, rfl⟩
      rw [EditOp.place, hgiven, hfirst.refLine]
      dsimp only
      rw [hlast.refLine]
      exact if_neg hnot
  | append pos text | prepend pos text =>
    rw [EditOp.range_of_endPos rfl] at hrange
    cases hrange

theorem ridesWith_eq_some {ranges : List (Nat × Nat × EditOp)} {n : Nat} {range : EditOp}
    (hride : ridesWith ranges edit = some (n, range)) :
    ∃ ref, edit.pos = some ref ∧ refLine ref = some n ∧
      ∃ r ∈ ranges, r.1 < n ∧ n < r.2.1 ∧ r.2.2 = range := by
  rw [ridesWith.eq_def] at hride
  split at hride
  · cases hride
  · cases hride
  · next ref _ hpos =>
    obtain ⟨m, hm, hride⟩ := bind_eq_some_iff.1 hride
    obtain ⟨r, hr, hride⟩ := bind_eq_some_iff.1 hride
    obtain ⟨rfl, rfl⟩ : m = n ∧ r.2.2 = range := by simpa using hride
    have hinside := find?_some hr
    simp only [Bool.decide_and, Bool.and_eq_true, decide_eq_true_eq] at hinside
    exact ⟨ref, hpos, hm, r, mem_of_find?_eq_some hr, hinside.1, hinside.2, rfl⟩

theorem EditOp.Holds.rides (h : edit.Holds host lines hashWidth) (attached : Attachments)
    {ranges : List (Nat × Nat × EditOp)} {n : Nat} {range : EditOp}
    (hride : ridesWith ranges edit = some (n, range)) :
    ∃ p, edit.place lines attached = some p ∧ p.insertedAt = some n ∧
      p.text = normalizeAttachedInsert edit n lines ∧
      ∃ r ∈ ranges, r.1 < n ∧ n < r.2.1 ∧ r.2.2 = range := by
  obtain ⟨ref, hpos, hline, hrange⟩ := ridesWith_eq_some hride
  cases edit with
  | replace pos endPos newText =>
    rw [ridesWith.eq_def] at hride
    cases hride
  | append pos text =>
    refine ⟨.after n (normalizeAttachedInsert (.append pos text) n lines), ?_, rfl, rfl, hrange⟩
    rw [EditOp.place, (show givenAnchor pos = some ref from hpos)]
    dsimp only
    rw [hline]
    rfl
  | prepend pos text =>
    refine ⟨.before n (normalizeAttachedInsert (.prepend pos text) n lines), ?_, rfl, rfl, hrange⟩
    rw [EditOp.place, (show givenAnchor pos = some ref from hpos)]
    dsimp only
    rw [hline]
    rfl

def attachStep (originalLines : List Text) (ranges : List (Nat × Nat × EditOp))
    (found : List EditOp × Attachments) (edit : EditOp) : List EditOp × Attachments :=
  match ridesWith ranges edit with
  | none => (found.1 ++ [edit], found.2)
  | some (n, range) =>
    let newLines := normalizeAttachedInsert edit n originalLines
    if newLines = [] then found else (found.1, attachTo found.2 range edit newLines)

def attachPass (originalLines : List Text) (edits : List EditOp) : List EditOp × Attachments :=
  edits.foldl (attachStep originalLines (edits.filterMap EditOp.range)) ([], [])

theorem attachInsertsInsideRanges_eq (h : ∀ edit ∈ edits, edit.Anchored host lines hashWidth) :
    attachInsertsInsideRanges edits lines = .ok (attachPass lines edits) := by
  rw [attachInsertsInsideRanges, hostRanges_eq h, ok_bind]
  apply foldlM_eq
  intro found edit hedit
  have hpos : ∀ ref, edit.pos = some ref →
      ∃ anchor, parseLineRef ref = .ok anchor ∧ refLine ref = some anchor.line := by
    intro ref hpos
    obtain ⟨n, anchor, hparse, -, -⟩ := (h edit hedit).pos hpos
    exact ⟨anchor, hparse, by rw [refLine, hparse]; rfl⟩
  rw [attachStep, ridesWith.eq_def]
  cases hgiven : edit.pos with
  | none => cases edit <;> rfl
  | some ref =>
    obtain ⟨anchor, hparse, hline⟩ := hpos ref hgiven
    cases edit with
    | replace pos endPos newText => rfl
    | append pos text | prepend pos text =>
      dsimp only
      rw [hparse, ok_bind, hline]
      simp only [bind_eq_bind, bind_some]
      generalize (edits.filterMap EditOp.range).find? _ = host
      cases host with
      | none => rfl
      | some range =>
        dsimp only [bind_some]
        split <;> rfl

theorem foldl_attachStep_fst (ranges : List (Nat × Nat × EditOp)) (edits : List EditOp)
    (found : List EditOp × Attachments) :
    (edits.foldl (attachStep lines ranges) found).1 =
      found.1 ++ edits.filter fun edit => (ridesWith ranges edit).isNone := by
  induction edits generalizing found with
  | nil => rw [foldl_nil, filter_nil, append_nil]
  | cons edit edits ih =>
    rw [foldl_cons, ih, attachStep]
    cases hrides : ridesWith ranges edit with
    | none =>
      rw [filter_cons_of_pos (by rw [hrides]; rfl), append_assoc]
      rfl
    | some ride =>
      rw [filter_cons_of_neg (by rw [hrides]; exact Bool.false_ne_true)]
      dsimp only
      split <;> rfl

theorem attachPass_fst (edits : List EditOp) :
    (attachPass lines edits).1 =
      edits.filter fun edit => (ridesWith (edits.filterMap EditOp.range) edit).isNone := by
  rw [attachPass, foldl_attachStep_fst, nil_append]

theorem mem_attachPass (h : edit ∈ (attachPass lines edits).1) : edit ∈ edits := by
  rw [attachPass_fst] at h
  exact mem_of_mem_filter h

theorem replace_mem_attachPass (lines : List Text) {pos : Text} {endPos : Option Text} {newText : EditLines}
    (h : .replace pos endPos newText ∈ edits) :
    .replace pos endPos newText ∈ (attachPass lines edits).1 := by
  rw [attachPass_fst]
  exact mem_filter.2 ⟨h, rfl⟩

theorem attachPass_of_none (lines : List Text)
    (h : ∀ edit ∈ edits, ridesWith (edits.filterMap EditOp.range) edit = none) :
    attachPass lines edits = (edits, []) := by
  have hpass (ranges : List (Nat × Nat × EditOp)) (rest : List EditOp) (kept : List EditOp)
      (hrest : ∀ edit ∈ rest, ridesWith ranges edit = none) :
      rest.foldl (attachStep lines ranges) (kept, []) = (kept ++ rest, []) := by
    induction rest generalizing kept with
    | nil => rw [foldl_nil, append_nil]
    | cons edit rest ih =>
      rw [foldl_cons, attachStep, hrest edit mem_cons_self]
      dsimp only
      rw [ih _ fun e he => hrest e (.tail _ he), append_assoc, singleton_append]
  exact hpass _ edits [] h

def entryOf (attached : Attachments) (range : EditOp) : AttachedInsert :=
  (attached.lookup range).getD { prependLines := [], appendLines := [] }

theorem entryOf_attachTo (attached : Attachments) (range other edit : EditOp)
    (newLines : List Text) :
    entryOf (attachTo attached range edit newLines) other =
      if other = range then attach edit newLines (entryOf attached range)
      else entryOf attached other := by
  by_cases hsame : other = range
  · subst hsame
    rw [if_pos rfl, entryOf, attachTo, List.lookup_cons_self]
    rfl
  · have hfilter : (attached.filter fun found => found.1 ≠ range).lookup other =
        attached.lookup other := by
      induction attached with
      | nil => rfl
      | cons found attached ih =>
        by_cases hfound : found.1 = range
        · have hne : (other == found.1) = false := by simpa [hfound] using hsame
          rw [filter_cons_of_neg (by simpa using hfound), ih]
          obtain ⟨key, entry⟩ := found
          rw [lookup_cons, hne]
        · rw [filter_cons_of_pos (by simpa using hfound)]
          obtain ⟨key, entry⟩ := found
          rw [lookup_cons, lookup_cons, ih]
    rw [if_neg hsame, entryOf, attachTo, lookup_cons]
    have hne : (other == range) = false := by simpa using hsame
    rw [hne]
    dsimp only
    rw [hfilter]
    rfl

def riderLines (originalLines : List Text) (ranges : List (Nat × Nat × EditOp)) (range : EditOp)
    (kind : EditKind) (edit : EditOp) : List Text :=
  match ridesWith ranges edit with
  | some (n, found) =>
    if found = range ∧ edit.kind = kind then normalizeAttachedInsert edit n originalLines else []
  | none => []

theorem kind_of_rides {ranges : List (Nat × Nat × EditOp)} {ride : Nat × EditOp}
    (h : ridesWith ranges edit = some ride) : edit.kind = .append ∨ edit.kind = .prepend := by
  cases edit with
  | replace pos endPos newText => exact nomatch h
  | append pos text => exact .inl rfl
  | prepend pos text => exact .inr rfl

theorem entryOf_foldl (lines : List Text) (ranges : List (Nat × Nat × EditOp)) (edits : List EditOp) (range : EditOp) :
    entryOf (edits.foldl (attachStep lines ranges) ([], [])).2 range =
      { prependLines := edits.flatMap (riderLines lines ranges range .prepend)
        appendLines := edits.flatMap (riderLines lines ranges range .append) } := by
  induction edits using reverseRecOn with
  | nil => rfl
  | append_singleton edits edit ih =>
    rw [foldl_append, foldl_cons, foldl_nil, flatMap_append,
      flatMap_append, flatMap_singleton, flatMap_singleton, attachStep, riderLines,
      riderLines]
    cases hrides : ridesWith ranges edit with
    | none =>
      dsimp only
      rw [ih, append_nil, append_nil]
    | some ride =>
      obtain ⟨n, found⟩ := ride
      dsimp only
      by_cases hnil : normalizeAttachedInsert edit n lines = []
      · rw [if_pos hnil, hnil, ite_self, ite_self, append_nil, append_nil, ih]
      rw [if_neg hnil, entryOf_attachTo]
      by_cases hsame : range = found
      · subst hsame
        rw [if_pos rfl, ih]
        rcases kind_of_rides hrides with hkind | hkind
        · cases edit with
          | append pos text => simp [attach, EditOp.kind]
          | _ => exact nomatch hkind
        · cases edit with
          | prepend pos text => simp [attach, EditOp.kind]
          | _ => exact nomatch hkind
      · have hne : found ≠ range := fun hfound => hsame hfound.symm
        simp [hsame, hne, ih]

end Attaching

section Accepting

variable {host : TextHost} {lines : List Text} {hashWidth : Nat} {batch : List EditOp}

abbrev kept (batch : List EditOp) : List EditOp := (deduplicateEdits batch).1

def EditOp.placeAt (originalLines : List Text) (attached : Attachments) (edit : EditOp) :
    Placed Text :=
  (edit.place originalLines attached).getD (.atEnd [])

theorem EditOp.Holds.placeAt {edit : EditOp} (h : edit.Holds host lines hashWidth)
    (attached : Attachments) :
    edit.PlacedAs host lines hashWidth attached (edit.placeAt lines attached) := by
  obtain ⟨p, hp⟩ := h.placed attached
  have hplace : edit.placeAt lines attached = p := by
    rw [EditOp.placeAt, hp.place]
    rfl
  rwa [hplace]

theorem accepted_stages {report : AppliedEdits}
    (h : applyEditsToLinesWithReport host lines batch hashWidth = .ok report) :
    (∀ edit ∈ kept batch, edit.Anchored host lines hashWidth) ∧
      ∃ sorted applied, sortEditsBottomUp (attachPass lines (kept batch)).1 = .ok sorted ∧
        detectOverlappingRanges sorted = .ok () ∧
        sorted.foldlM (fun (working : List Text × Nat) edit => do
          let lines ← applyEdit host hashWidth lines (attachPass lines (kept batch)).2 working.1 edit
          return (lines, if lines = working.1 then working.2 + 1 else working.2)) (lines, 0) =
          .ok applied ∧ report.content = joinLines applied.1 := by
  obtain ⟨found, hattach, h⟩ := bind_eq_ok.1 h
  obtain ⟨sorted, hsort, h⟩ := bind_eq_ok.1 h
  obtain ⟨_, hvalid, h⟩ := bind_eq_ok.1 h
  obtain ⟨_, hdetect, h⟩ := bind_eq_ok.1 h
  obtain ⟨applied, happlied, hreport⟩ := bind_eq_ok.1 h
  have hanchored := (validate_collected_iff (kept batch)).1 hvalid
  have hfound : found = attachPass lines (kept batch) := by
    rw [attachInsertsInsideRanges_eq hanchored] at hattach
    cases hattach
    rfl
  subst hfound
  refine ⟨hanchored, sorted, applied, hsort, hdetect, happlied, ?_⟩
  cases hreport
  rfl

theorem getEditLineNumber_of_anchored {edit : EditOp} (h : edit.Anchored host lines hashWidth) :
    ∃ line, getEditLineNumber edit = .ok line := by
  cases hpos : edit.pos with
  | some ref =>
    obtain ⟨n, hn⟩ := h.pos hpos
    exact ⟨n, getEditLineNumber_of_pos hpos hn⟩
  | none =>
    rw [getEditLineNumber.eq_def, hpos]
    cases edit with
    | replace pos endPos newText => exact ⟨_, rfl⟩
    | append pos text => exact ⟨_, rfl⟩
    | prepend pos text => exact ⟨_, rfl⟩

theorem parseLineRef_empty (anchor : HashAnchor) : parseLineRef [] ≠ .ok anchor := by
  intro h
  have hline : refLine [] = some anchor.line := by rw [refLine, h]; rfl
  rw [refLine_eq_none_of_empty] at hline
  cases hline

theorem holds_of_applied {pos : Text} {endPos : Option Text} {newText : EditLines}
    {attached : Attachments} {working after : List Text}
    (hanchored : (EditOp.replace pos endPos newText).Anchored host lines hashWidth)
    (h : applyEdit host hashWidth lines attached working (.replace pos endPos newText) = .ok after) :
    (EditOp.replace pos endPos newText).Holds host lines hashWidth := by
  have hparsed : ∃ anchor, parseLineRef pos = .ok anchor := by
    rw [applyEdit] at h
    split at h
    · obtain ⟨anchor, hparse, -⟩ := bind_eq_ok.1 h
      exact ⟨anchor, hparse⟩
    · obtain ⟨anchor, hparse, -⟩ := bind_eq_ok.1 h
      exact ⟨anchor, hparse⟩
  have hpos : (EditOp.replace pos endPos newText).pos = some pos := by
    obtain ⟨anchor, hparse⟩ := hparsed
    have hne : pos ≠ [] := by
      rintro rfl
      exact parseLineRef_empty anchor hparse
    simp [EditOp.pos, givenAnchor, hne]
  obtain ⟨first, hfirst⟩ := hanchored.pos hpos
  refine ⟨first, hfirst, fun ref hgiven => ?_⟩
  have hendPos : (EditOp.replace pos endPos newText).endPos = some ref := hgiven
  obtain ⟨last, hlast⟩ := hanchored.endPos hendPos
  refine ⟨last, hlast, ?_⟩
  by_contra hgt
  obtain ⟨anchor, hparse, rfl, -⟩ := hfirst
  obtain ⟨endAnchor, hparseEnd, rfl, -⟩ := hlast
  rw [applyEdit, hgiven] at h
  dsimp only at h
  rw [applyReplaceRange, hparse, ok_bind, hparseEnd, ok_bind, if_pos (by omega)] at h
  cases h

theorem holds_of_accepted {report : AppliedEdits}
    (h : applyEditsToLinesWithReport host lines batch hashWidth = .ok report) :
    (∀ edit ∈ kept batch, edit.Holds host lines hashWidth) ∧
      ((attachPass lines (kept batch)).1.map
        (EditOp.placeAt lines (attachPass lines (kept batch)).2)).Pairwise Placed.Apart := by
  obtain ⟨hanchored, sorted, applied, hsort, hdetect, happlied, -⟩ := accepted_stages h
  have hline : ∀ edit ∈ (attachPass lines (kept batch)).1,
      ∃ line, getEditLineNumber edit = .ok line :=
    fun edit hedit => getEditLineNumber_of_anchored (hanchored edit (mem_attachPass hedit))
  choose! line hline using hline
  obtain ⟨sorted', hsort', hperm, -⟩ := sortEditsBottomUp_perm hline
  obtain rfl : sorted' = sorted := by
    rw [hsort] at hsort'
    cases hsort'
    rfl
  have hholds : ∀ edit ∈ kept batch, edit.Holds host lines hashWidth := by
    intro edit hedit
    cases edit with
    | replace pos endPos newText =>
      have hmem := hperm.mem_iff.2 (replace_mem_attachPass lines hedit)
      obtain ⟨working, after, hstep⟩ := foldlM_ok_mem happlied hmem
      obtain ⟨applied, hstep, -⟩ := bind_eq_ok.1 hstep
      exact holds_of_applied (hanchored _ hedit) hstep
    | append pos text | prepend pos text =>
      intro ref hgiven
      exact (hanchored _ hedit).pos hgiven
  refine ⟨hholds, ?_⟩
  have hplaced : ∀ edit ∈ sorted', edit.PlacedAs host lines hashWidth
      (attachPass lines (kept batch)).2
      (edit.placeAt lines (attachPass lines (kept batch)).2) :=
    fun edit hedit => (hholds edit (mem_attachPass (hperm.mem_iff.1 hedit))).placeAt _
  have hapart := (detectOverlappingRanges_iff hplaced).1 hdetect
  exact ((hperm.map _).pairwise_iff Placed.Apart.symm).1 hapart

/-- Edits that hold and do not overlap are accepted, and the file becomes their layout. -/
theorem applied_layout (batch : List EditOp)
    (hholds : ∀ edit ∈ kept batch, edit.Holds host lines hashWidth)
    (hapart : ((attachPass lines (kept batch)).1.map
      (EditOp.placeAt lines (attachPass lines (kept batch)).2)).Pairwise Placed.Apart)
    (hrespects : ∀ a ∈ (attachPass lines (kept batch)).1, ∀ b ∈ (attachPass lines (kept batch)).1,
      (a.placeAt lines (attachPass lines (kept batch)).2).Respects
        (b.placeAt lines (attachPass lines (kept batch)).2))
    (hblank : lines = [[]] → ∀ edit ∈ (attachPass lines (kept batch)).1,
      (edit.placeAt lines (attachPass lines (kept batch)).2).endText = []) :
    ∃ report sorted, applyEditsToLinesWithReport host lines batch hashWidth = .ok report ∧
      Perm sorted (attachPass lines (kept batch)).1 ∧
      (sorted.Pairwise fun a b =>
        (a.placeAt lines (attachPass lines (kept batch)).2).Precedes
            (b.placeAt lines (attachPass lines (kept batch)).2) ∧
          (a.placeAt lines (attachPass lines (kept batch)).2).Fits
            (b.placeAt lines (attachPass lines (kept batch)).2)) ∧
      report.content = joinLines (layout lines
        (sorted.map (EditOp.placeAt lines (attachPass lines (kept batch)).2))) := by
  have hplaced : ∀ edit ∈ (attachPass lines (kept batch)).1, edit.PlacedAs host lines hashWidth
      (attachPass lines (kept batch)).2
      (edit.placeAt lines (attachPass lines (kept batch)).2) :=
    fun edit hedit => (hholds edit (mem_attachPass hedit)).placeAt _
  obtain ⟨sorted, hsort, hperm, hprecedes⟩ := sortEditsBottomUp_ok hplaced
  have hmem {edit : EditOp} (hedit : edit ∈ sorted) := hperm.mem_iff.1 hedit
  have hsorted : ∀ edit ∈ sorted, edit.PlacedAs host lines hashWidth
      (attachPass lines (kept batch)).2
      (edit.placeAt lines (attachPass lines (kept batch)).2) :=
    fun edit hedit => hplaced edit (hmem hedit)
  have hapartSorted := ((hperm.map _).pairwise_iff Placed.Apart.symm).2 hapart
  have hfits : sorted.Pairwise fun a b =>
      (a.placeAt lines (attachPass lines (kept batch)).2).Precedes
          (b.placeAt lines (attachPass lines (kept batch)).2) ∧
        (a.placeAt lines (attachPass lines (kept batch)).2).Fits
          (b.placeAt lines (attachPass lines (kept batch)).2) := by
    have hboth := hprecedes.and (pairwise_map.1 hapartSorted)
    apply hboth.imp_of_mem
    rintro a b ha hb ⟨hab, hab'⟩
    exact ⟨hab, hab.fits (hsorted a ha).within hab' (hrespects a (hmem ha) b (hmem hb))⟩
  obtain ⟨noops, hfold⟩ := foldlM_applyEdit hsorted hfits
    fun hlines edit hedit => hblank hlines edit (hmem hedit)
  have hanchored : ∀ edit ∈ kept batch, edit.Anchored host lines hashWidth :=
    fun edit hedit => (hholds edit hedit).anchored
  have hdetect := (detectOverlappingRanges_iff hsorted).2 hapartSorted
  refine ⟨{ content := joinLines (layout lines (sorted.map
        (EditOp.placeAt lines (attachPass lines (kept batch)).2)))
            noopEdits := noops, deduplicatedEdits := (deduplicateEdits batch).2 }, sorted, ?_, hperm, hfits, rfl⟩
  rw [applyEditsToLinesWithReport, attachInsertsInsideRanges_eq hanchored, ok_bind, hsort, ok_bind,
    (validate_collected_iff (kept batch)).2 hanchored, ok_bind, hdetect, ok_bind]
  show (sorted.foldlM _ (lines, 0) >>= fun _ => _) = _
  rw [hfold]
  rfl

end Accepting
end Rolebox.Hashline
