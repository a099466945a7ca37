import Mathlib.Data.List.Pairwise
import Rolebox.Hashline.AcceptedEdits
import Rolebox.Hashline.AnchorLines

/-! Batches whose edits keep apart do what their edits do at once. -/

namespace Rolebox.Hashline
open General List Option

/-- Two inserts of one kind at one anchor; the end of the file and its start are anchors too. -/
def ShareAnchor : Placed Text → Placed Text → Prop
  | .after n _, .after m _ => n = m
  | .before n _, .before m _ => n = m
  | .atEnd _, .atEnd _ => True
  | .atStart _, .atStart _ => True
  | _, _ => False

def places (lines : List Text) (batch : List EditOp) : List (Placed Text) :=
  batch.filterMap (EditOp.place lines [])

structure DisjointBatch (lines : List Text) (batch : List EditOp) : Prop where
  replaces : (places lines batch).Pairwise Placed.Apart
  inserts : ∀ p ∈ places lines batch, ∀ q ∈ places lines batch, ∀ n, q.covers n = true →
    p.insertedAt ≠ some n
  anchors : (places lines batch).Pairwise fun p q => ¬ ShareAnchor p q

section Repeats
variable {attached : Attachments} {p : Placed Text} {edit : EditOp}

variable {host : TextHost} {lines : List Text} {hashWidth : Nat} {batch : List EditOp}

theorem refLine_of_bar {a b s t : Text} (h : a ++ '|' :: s = b ++ '|' :: t) {n m : Nat}
    (ha : refLine a = some n) (hb : refLine b = some m) : n = m := by
  obtain ⟨anchor, hparse, rfl⟩ := map_eq_some_iff.1 ha
  obtain ⟨anchor', hparse', rfl⟩ := map_eq_some_iff.1 hb
  rw [toOption_eq_some] at hparse hparse'
  rcases append_eq_append_iff.1 h with ⟨more, hmore, hrest⟩ | ⟨more, hmore, hrest⟩
  · subst hmore
    cases more with
    | nil =>
      rw [append_nil, hparse] at hparse'
      cases hparse'
      rfl
    | cons c more =>
      obtain rfl : '|' = c := (List.cons.inj hrest).1
      exact line_of_bar hparse hparse'
  · subst hmore
    cases more with
    | nil =>
      rw [append_nil, hparse'] at hparse
      cases hparse
      rfl
    | cons c more =>
      obtain rfl : '|' = c := (List.cons.inj hrest).1
      exact (line_of_bar hparse' hparse).symm

def Collide (p q : Placed Text) : Prop := ¬ p.Apart q ∨ ShareAnchor p q

theorem place_replace_eq_some {pos : Text} {endPos : Option Text} {newText : EditLines}
    (h : (EditOp.replace pos endPos newText).place lines attached = some p) :
    ∃ first last block, p = .replace first last block ∧ refLine pos = some first ∧ first ≤ last := by
  rw [EditOp.place] at h
  split at h
  · obtain ⟨first, hfirst, h⟩ := bind_eq_some_iff.1 h
    obtain ⟨last, hlast, h⟩ := bind_eq_some_iff.1 h
    dsimp only at h
    split at h
    · cases h
    · case isFalse hle =>
      cases h
      exact ⟨first, last, _, rfl, hfirst, by omega⟩
  · obtain ⟨first, hfirst, rfl⟩ := map_eq_some_iff.1 h
    exact ⟨first, first, _, rfl, hfirst, le_rfl⟩

def insertAt (kind : EditKind) (line : Option Nat) (text : List Text) : Placed Text :=
  match kind, line with
  | .prepend, none => .atStart text
  | .prepend, some n => .before n text
  | _, none => .atEnd text
  | _, some n => .after n text

theorem shareAnchor_insertAt (kind : EditKind) (line : Option Nat) (text text' : List Text) :
    ShareAnchor (insertAt kind line text) (insertAt kind line text') := by
  cases kind <;> cases line <;> trivial

theorem givenAnchor_eq_none {pos : Option Text} (h : givenAnchor pos = none) : pos.getD [] = [] := by
  cases pos with
  | none => rfl
  | some ref =>
    by_contra hne
    rw [getD_some] at hne
    simp [givenAnchor, hne] at h

theorem givenAnchor_eq_some {pos : Option Text} {ref : Text} (h : givenAnchor pos = some ref) :
    pos.getD [] = ref := by
  rw [givenAnchor, filter_eq_some_iff] at h
  rw [h.1]
  rfl

theorem place_insert (hkind : edit.kind ≠ .replace) (h : edit.place lines attached = some p) :
    ∃ line text, p = insertAt edit.kind line text ∧ (line = none → edit.rawPos = []) ∧
      ∀ n ∈ line, refLine edit.rawPos = some n := by
  cases edit with
  | replace pos endPos newText => exact absurd rfl hkind
  | append pos text | prepend pos text =>
    rw [EditOp.place] at h
    split at h
    · case h_1 ref hgiven =>
      obtain ⟨n, hn, rfl⟩ := map_eq_some_iff.1 h
      refine ⟨some n, _, rfl, by simp, fun m hm => ?_⟩
      obtain rfl : n = m := Option.some.inj hm
      rw [EditOp.rawPos, givenAnchor_eq_some hgiven, hn]
    · case h_2 hgiven =>
      cases h
      exact ⟨none, _, rfl, fun _ => givenAnchor_eq_none hgiven, by simp⟩

theorem span_of_insert (hkind : edit.kind ≠ .replace) (h : edit.place lines attached = some p) :
    p.span = none := by
  obtain ⟨line, text, rfl, -⟩ := place_insert hkind h
  cases edit.kind <;> cases line <;> rfl

theorem refLine_of_empty_reading {b s t : Text} (h : '|' :: s = b ++ '|' :: t) : refLine b = none := by
  cases b with
  | nil => exact refLine_eq_none_of_empty
  | cons c b =>
    obtain rfl : '|' = c := (List.cons.inj h).1
    cases hparse : parseLineRef ('|' :: b) with
    | error e => rw [refLine, hparse]; rfl
    | ok anchor => exact absurd hparse (parse_bar b anchor)

theorem collide_of_key {a b : EditOp} {q : Placed Text} (hkey : editKey a = editKey b)
    (hp : a.place lines attached = some p) (hq : b.place lines attached = some q) :
    Collide p q := by
  obtain ⟨hkind, hreading⟩ := editKey_eq_iff.1 hkey
  by_cases hreplace : a.kind = .replace
  · obtain ⟨pos, endPos, newText, rfl⟩ : ∃ pos endPos newText, a = .replace pos endPos newText := by
      cases a with
      | replace pos endPos newText => exact ⟨pos, endPos, newText, rfl⟩
      | _ => cases hreplace
    obtain ⟨pos', endPos', newText', rfl⟩ :
        ∃ pos' endPos' newText', b = .replace pos' endPos' newText' := by
      cases b with
      | replace pos endPos newText => exact ⟨pos, endPos, newText, rfl⟩
      | _ => cases hkind
    obtain ⟨first, last, block, rfl, hfirst, hle⟩ := place_replace_eq_some hp
    obtain ⟨first', last', block', rfl, hfirst', hle'⟩ := place_replace_eq_some hq
    obtain rfl : first = first' := refLine_of_bar hreading hfirst hfirst'
    refine .inl fun hapart => ?_
    have hnot := hapart first (by simp [Placed.covers, hle])
    simp [Placed.covers, hle'] at hnot
  · obtain ⟨line, text, rfl, hnone, hsome⟩ := place_insert hreplace hp
    obtain ⟨line', text', rfl, hnone', hsome'⟩ := place_insert (hkind ▸ hreplace) hq
    have hsame : line = line' := by
      cases line with
      | none =>
        cases line' with
        | none => rfl
        | some m =>
          have hm := hsome' m rfl
          have hempty := hnone rfl
          rw [EditOp.reading, EditOp.reading, hempty] at hreading
          rw [refLine_of_empty_reading hreading] at hm
          cases hm
      | some n =>
        have hn := hsome n rfl
        cases line' with
        | none =>
          have hempty := hnone' rfl
          rw [EditOp.reading, EditOp.reading, hempty] at hreading
          rw [refLine_of_empty_reading hreading.symm] at hn
          cases hn
        | some m => rw [refLine_of_bar hreading hn (hsome' m rfl)]
    subst hsame
    rw [hkind]
    exact .inr (shareAnchor_insertAt b.kind line text text')

theorem exists_kept_of_key {key : Text} (h : key ∈ batch.map editKey) :
    ∃ edit ∈ kept batch, editKey edit = key := by
  induction batch using reverseRecOn with
  | nil => exact nomatch h
  | append_singleton batch edit ih =>
    rw [kept, deduplicateEdits_concat]
    rw [map_append, mem_append] at h
    by_cases hseen : editKey edit ∈ batch.map editKey
    · rw [if_pos hseen]
      rcases h with h | h
      · exact ih h
      · exact ih (mem_singleton.1 h ▸ hseen)
    · rw [if_neg hseen]
      rcases h with h | h
      · obtain ⟨e, he, hkey⟩ := ih h
        exact ⟨e, mem_append_left _ he, hkey⟩
      · exact ⟨edit, by simp, (mem_singleton.1 h).symm⟩

theorem mem_of_mem_kept (h : edit ∈ kept batch) : edit ∈ batch := by
  induction batch using reverseRecOn with
  | nil => exact nomatch h
  | append_singleton batch last ih =>
    rw [kept, deduplicateEdits_concat] at h
    by_cases hseen : editKey last ∈ batch.map editKey
    · rw [if_pos hseen] at h
      exact mem_append_left _ (ih h)
    · rw [if_neg hseen] at h
      rcases mem_append.1 h with h | h
      · exact mem_append_left _ (ih h)
      · exact mem_append_right _ h

theorem places_kept (hplaced : ∀ edit ∈ kept batch, ∃ p, edit.place lines [] = some p)
    (hcollide : (places lines batch).Pairwise fun p q => ¬ Collide p q) :
    places lines (kept batch) = places lines batch := by
  induction batch using reverseRecOn with
  | nil => rfl
  | append_singleton batch edit ih =>
    have hkept := deduplicateEdits_concat batch edit
    have hsplit : places lines (batch ++ [edit]) = places lines batch ++ places lines [edit] := by
      rw [places, filterMap_append]
      rfl
    rw [hsplit, pairwise_append] at hcollide
    by_cases hseen : editKey edit ∈ batch.map editKey
    · rw [if_pos hseen] at hkept
      have hbefore := ih (by rwa [kept, hkept] at hplaced) hcollide.1
      -- a kept edit has its key; the two cannot both have a place
      have hnone : edit.place lines [] = none := by
        by_contra hsome
        obtain ⟨q, hq⟩ := ne_none_iff_exists'.1 hsome
        obtain ⟨e, he, hkey⟩ := exists_kept_of_key hseen
        obtain ⟨p, hp⟩ := hplaced e (by rw [kept, hkept]; exact he)
        have hpmem : p ∈ places lines batch := hbefore ▸ mem_filterMap.2 ⟨e, he, hp⟩
        have hqmem : q ∈ places lines [edit] := mem_filterMap.2 ⟨edit, by simp, hq⟩
        exact hcollide.2.2 p hpmem q hqmem (collide_of_key hkey hp hq)
      rw [hsplit, kept, hkept, ← hbefore]
      simp [places, hnone]
    · rw [if_neg hseen] at hkept
      have hbefore := ih (fun e he => hplaced e (by rw [kept, hkept]; exact mem_append_left _ he))
        hcollide.1
      rw [hsplit, kept, hkept, places, filterMap_append, ← hbefore]
      rfl

end Repeats

section Disjointness

variable {host : TextHost} {lines : List Text} {hashWidth : Nat} {batch : List EditOp}

theorem DisjointBatch.collide (h : DisjointBatch lines batch) :
    (places lines batch).Pairwise fun p q => ¬ Collide p q := by
  apply (h.replaces.and h.anchors).imp
  rintro p q ⟨hapart, hanchor⟩ (hnot | hshare)
  · exact hnot hapart
  · exact hanchor hshare

theorem Collide.symm {p q : Placed Text} (h : Collide p q) : Collide q p := by
  rcases h with h | h
  · exact .inl fun hapart => h hapart.symm
  · refine .inr ?_
    cases p <;> cases q <;> first | exact h | exact h.symm

theorem DisjointBatch.perm {other : List EditOp} (h : DisjointBatch lines batch)
    (hperm : batch.Perm other) : DisjointBatch lines other := by
  have hplaces : (places lines batch).Perm (places lines other) := hperm.filterMap _
  refine ⟨(hplaces.pairwise_iff Placed.Apart.symm).1 h.replaces, ?_, ?_⟩
  · intro p hp q hq
    exact h.inserts p (hplaces.mem_iff.2 hp) q (hplaces.mem_iff.2 hq)
  · apply (hplaces.pairwise_iff ?_).1 h.anchors
    intro p q hpq hshare
    apply hpq
    cases p <;> cases q <;> first | exact hshare | exact hshare.symm

theorem le_of_mem_places {first last : Nat} {block : List Text}
    (h : .replace first last block ∈ places lines batch) : first ≤ last := by
  obtain ⟨edit, -, hplace⟩ := mem_filterMap.1 h
  by_cases hkind : edit.kind = .replace
  · cases edit with
    | replace pos endPos newText =>
      obtain ⟨first', last', block', hsame, -, hle⟩ := place_replace_eq_some hplace
      cases hsame
      exact hle
    | _ => exact nomatch hkind
  · exact nomatch span_of_insert hkind hplace

section

variable (h : DisjointBatch lines batch)
include h

theorem DisjointBatch.lone : Lone (places lines batch) := by
  apply h.collide.imp_of_mem
  intro p q hp hq hpq
  have hapart : p.Apart q := by
    by_contra hnot
    exact hpq (.inl hnot)
  have hanchor : ¬ ShareAnchor p q := fun hshare => hpq (.inr hshare)
  refine ⟨fun n => ?_, fun n => ?_, fun n => ?_, ?_, ?_⟩
  · by_contra hboth
    obtain ⟨hp', hq'⟩ := not_or.1 hboth
    obtain ⟨text, rfl⟩ := Placed.eq_before hp'
    obtain ⟨text', rfl⟩ := Placed.eq_before hq'
    exact hanchor rfl
  · by_contra hboth
    obtain ⟨hp', hq'⟩ := not_or.1 hboth
    obtain ⟨text, rfl⟩ := Placed.eq_after hp'
    obtain ⟨text', rfl⟩ := Placed.eq_after hq'
    exact hanchor rfl
  · by_contra hboth
    obtain ⟨hp', hq'⟩ := not_or.1 hboth
    obtain ⟨last, block, rfl⟩ := Placed.eq_replace hp'
    obtain ⟨last', block', rfl⟩ := Placed.eq_replace hq'
    have hnot := hapart n (by simp [Placed.covers, le_of_mem_places hp])
    simp [Placed.covers, le_of_mem_places hq] at hnot
  · by_contra hboth
    obtain ⟨hp', hq'⟩ := not_or.1 hboth
    obtain ⟨text, rfl⟩ := Placed.eq_atStart hp'
    obtain ⟨text', rfl⟩ := Placed.eq_atStart hq'
    exact hanchor trivial
  · by_contra hboth
    obtain ⟨hp', hq'⟩ := not_or.1 hboth
    obtain ⟨text, rfl⟩ := Placed.eq_atEnd hp'
    obtain ⟨text', rfl⟩ := Placed.eq_atEnd hq'
    exact hanchor trivial

theorem DisjointBatch.rides_none (hholds : ∀ edit ∈ kept batch, edit.Holds host lines hashWidth)
    (hkept : places lines (kept batch) = places lines batch) :
    ∀ edit ∈ kept batch, ridesWith ((kept batch).filterMap EditOp.range) edit = none := by
  intro edit hedit
  by_contra hrides
  obtain ⟨⟨n, range⟩, hride⟩ := ne_none_iff_exists'.1 hrides
  obtain ⟨p, hp, hline, -, r, hr, hlt, hgt, -⟩ := (hholds edit hedit).rides [] hride
  obtain ⟨e, he, hrange⟩ := mem_filterMap.1 hr
  obtain ⟨block, hq, -⟩ := (hholds e he).range [] hrange
  have hpmem : p ∈ places lines batch := hkept ▸ mem_filterMap.2 ⟨edit, hedit, hp⟩
  have hqmem : .replace r.1 r.2.1 block ∈ places lines batch := hkept ▸ mem_filterMap.2 ⟨e, he, hq⟩
  exact h.inserts p hpmem _ hqmem n (by simp [Placed.covers, hlt.le, hgt.le]) hline

theorem DisjointBatch.respects {p q : Placed Text}
    (hp : p ∈ places lines batch) (hq : q ∈ places lines batch) : p.Respects q := by
  have haway {p q : Placed Text} (hp : p ∈ places lines batch) (hq : q ∈ places lines batch)
      {n first last : Nat} {block : List Text} (hrange : q = .replace first last block)
      (hfirst : first ≤ n) (hlast : n ≤ last) : p.insertedAt ≠ some n :=
    h.inserts p hp q hq n (by rw [hrange]; simp [Placed.covers, hfirst, hlast])
  cases p with
  | replace first last block =>
    cases q with
    | after number text =>
      intro hsame _
      exact absurd rfl (haway hq hp rfl hsame.le (hsame ▸ le_of_mem_places hp))
    | _ => trivial
  | after number text =>
    cases q with
    | replace first last block =>
      intro hfirst hlast
      exact absurd rfl (haway hp hq rfl hfirst.le hlast.le)
    | _ => trivial
  | before number text =>
    cases q with
    | replace first last block =>
      intro hfirst hlast
      exact absurd rfl (haway hp hq rfl hfirst.le hlast)
    | _ => trivial
  | atEnd text => cases q <;> trivial
  | atStart text => cases q <;> trivial

end

theorem map_placeAt {edits : List EditOp} (h : ∀ edit ∈ edits, edit.Holds host lines hashWidth) :
    edits.map (EditOp.placeAt lines []) = places lines edits := by
  rw [places, ← filterMap_eq_map]
  apply filterMap_congr
  intro edit hedit
  obtain ⟨p, hp⟩ := (h edit hedit).placed []
  rw [hp.place, Function.comp_apply, EditOp.placeAt, hp.place]
  rfl

/-- A batch of disjoint edits that hold is accepted, and does what its edits do at once. -/
theorem DisjointBatch.content (h : DisjointBatch lines batch) (hlines : lines ≠ [[]])
    (hholds : ∀ edit ∈ kept batch, edit.Holds host lines hashWidth) :
    ∃ report, applyEditsToLinesWithReport host lines batch hashWidth = .ok report ∧
      report.content = joinLines (simultaneous lines (places lines batch)) := by
  have hplaced : ∀ edit ∈ kept batch, ∃ p, edit.place lines [] = some p := by
    intro edit hedit
    obtain ⟨p, hp⟩ := (hholds edit hedit).placed []
    exact ⟨p, hp.place⟩
  have hkept := places_kept hplaced h.collide
  have hmap : (kept batch).map (EditOp.placeAt lines []) = places lines batch :=
    (map_placeAt hholds).trans hkept
  have hmem : ∀ edit ∈ kept batch, edit.placeAt lines [] ∈ places lines batch :=
    fun edit hedit => hmap ▸ List.mem_map_of_mem hedit
  have hpass := attachPass_of_none lines (h.rides_none hholds hkept)
  obtain ⟨report, sorted, hreport, hperm, -, hcontent⟩ := applied_layout batch hholds
    (by rw [hpass, hmap]; exact h.replaces)
    (by
      rw [hpass]
      intro a ha b hb
      exact h.respects (hmem a ha) (hmem b hb))
    (fun hblank => absurd hblank hlines)
  refine ⟨report, hreport, ?_⟩
  rw [hpass] at hperm hcontent
  have hsorted : (sorted.map (EditOp.placeAt lines [])).Perm (places lines batch) :=
    hmap ▸ hperm.map _
  have hafter : ∀ q ∈ sorted.map (EditOp.placeAt lines []), ∀ n, q.covers n = true →
      ∀ p ∈ sorted.map (EditOp.placeAt lines []), p.afterText n = [] := by
    intro q hq n hcovers p hp
    by_contra hne
    obtain ⟨text, rfl⟩ := Placed.eq_after hne
    exact h.inserts _ (hsorted.mem_iff.1 hp) q (hsorted.mem_iff.1 hq) n hcovers rfl
  rw [hcontent, layout_eq_simultaneous hafter, ← simultaneous_perm hsorted.symm h.lone]

theorem DisjointBatch.mem_kept (h : DisjointBatch lines batch)
    (hplaced : ∀ edit ∈ batch, ∃ p, edit.place lines [] = some p) {edit : EditOp}
    (hedit : edit ∈ batch) : edit ∈ kept batch := by
  obtain ⟨e, he, hkey⟩ := exists_kept_of_key (List.mem_map_of_mem hedit)
  have hbatch : e ∈ batch := mem_of_mem_kept he
  by_cases hsame : edit = e
  · rwa [hsame]
  have hpairwise := pairwise_filterMap.1 h.collide
  have hsymm : Std.Symm fun a b : EditOp => ∀ p, a.place lines [] = some p →
      ∀ q, b.place lines [] = some q → ¬ Collide p q :=
    ⟨fun a b hab p hp q hq hcollide => hab q hq p hp hcollide.symm⟩
  have hapart := hpairwise.forall hedit hbatch hsame
  obtain ⟨p, hp⟩ := hplaced edit hedit
  obtain ⟨q, hq⟩ := hplaced e hbatch
  exact absurd (collide_of_key hkey.symm hp hq) (hapart p hp q hq)

/-- Disjoint edits do what they do at once, whatever their order. -/
theorem disjoint_edits_simultaneous (host : TextHost) (lines : List Text) (batch : List EditOp)
    (hashWidth : Nat) (report : AppliedEdits) (hlines : lines ≠ [[]])
    (hdisjoint : DisjointBatch lines batch)
    (h : applyEditsToLinesWithReport host lines batch hashWidth = .ok report) :
    report.content = joinLines (simultaneous lines (places lines batch)) ∧
      ∀ other, batch.Perm other →
        (∀ again, applyEditsToLinesWithReport host lines other hashWidth = .ok again →
          again.content = report.content) ∧
        ((∀ edit ∈ batch, ∃ p, edit.place lines [] = some p) →
          ∃ again, applyEditsToLinesWithReport host lines other hashWidth = .ok again) := by
  have hcontent {batch : List EditOp} {report : AppliedEdits} (hdisjoint : DisjointBatch lines batch)
      (h : applyEditsToLinesWithReport host lines batch hashWidth = .ok report) :
      report.content = joinLines (simultaneous lines (places lines batch)) := by
    obtain ⟨found, hfound, hcontent⟩ := hdisjoint.content hlines (holds_of_accepted h).1
    rw [h] at hfound
    cases hfound
    exact hcontent
  refine ⟨hcontent hdisjoint h, fun other hperm => ⟨fun again hagain => ?_, fun hplaced => ?_⟩⟩
  · have hplaces : (places lines batch).Perm (places lines other) := hperm.filterMap _
    rw [hcontent hdisjoint h, hcontent (hdisjoint.perm hperm) hagain]
    rw [simultaneous_perm hplaces hdisjoint.lone]
  · have hholds : ∀ edit ∈ kept other, edit.Holds host lines hashWidth := by
      intro edit hedit
      have hbatch : edit ∈ batch := hperm.mem_iff.2 (mem_of_mem_kept hedit)
      exact (holds_of_accepted h).1 edit (hdisjoint.mem_kept hplaced hbatch)
    obtain ⟨again, hagain, -⟩ := (hdisjoint.perm hperm).content hlines hholds
    exact ⟨again, hagain⟩

def letterHost : TextHost :=
  { sha256 := fun _ =>
      [202, 151, 129, 18, 202, 27, 189, 202, 250, 194, 49, 179, 154, 35, 220, 77, 167, 134, 239, 248,
        20, 124, 78, 114, 185, 128, 119, 133, 175, 238, 72, 187]
    isLetterOrNumber := Char.isAlphanum
    widthOverride := none }

def letterLines (count : Nat) : List Text := replicate count ['a']

def apartBatch : List EditOp :=
  [.append none (.text "end".toList), .prepend (some "4#eB".toList) (.text "before".toList),
    .replace "2#eB".toList (some "3#eB".toList) (.text "two\nthree\nmore".toList),
    .append (some "1#eB".toList) (.text "after".toList), .prepend none (.text "top".toList)]

theorem places_apartBatch : places (letterLines 4) apartBatch =
    [.atEnd ["end".toList], .before 4 ["before".toList],
      .replace 2 3 ["two".toList, "three".toList, "more".toList], .after 1 ["after".toList],
      .atStart ["top".toList]] := by
  decide +kernel

theorem apartBatch_disjoint : DisjointBatch (letterLines 4) apartBatch := by
  refine ⟨?_, ?_, ?_⟩
  · rw [places_apartBatch]
    simp [Placed.Apart, Placed.covers]
  · rw [places_apartBatch]
    intro p hp q hq n hn hline
    simp only [mem_cons, not_mem_nil, or_false] at hp hq
    have hrange : 2 ≤ n ∧ n ≤ 3 := by
      rcases hq with rfl | rfl | rfl | rfl | rfl <;> simp [Placed.covers] at hn
      exact hn
    rcases hp with rfl | rfl | rfl | rfl | rfl <;> simp [Placed.insertedAt] at hline <;> omega
  · rw [places_apartBatch]
    simp [ShareAnchor]

theorem disjoint_edits_simultaneous_apart :
    ∃ report, applyEditsToLinesWithReport letterHost (letterLines 4) apartBatch 2 = .ok report ∧
      report.content =
        joinLines (simultaneous (letterLines 4) (places (letterLines 4) apartBatch)) := by
  obtain ⟨report, hreport⟩ : ∃ report,
      applyEditsToLinesWithReport letterHost (letterLines 4) apartBatch 2 = .ok report :=
    ⟨{ content := "top\na\nafter\ntwo\nthree\nmore\nbefore\na\nend".toList, noopEdits := 0,
       deduplicatedEdits := 0 }, by decide +kernel⟩
  exact ⟨report, hreport, (disjoint_edits_simultaneous letterHost (letterLines 4) apartBatch 2 report
    (by decide) apartBatch_disjoint hreport).1⟩

end Disjointness
end Rolebox.Hashline
