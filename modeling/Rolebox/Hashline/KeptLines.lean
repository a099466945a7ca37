import Rolebox.General.PlacedPieces
import Rolebox.Hashline.DisjointEdits

/-! The new file assembled from original lines, inserts and replacements, each in its place. -/

namespace Rolebox.Hashline
open General List

/-- A piece of the new file: an original line, an insert, or a line of a replacement. -/
inductive Piece where
  | line (number : Nat)
  | insert (edit : EditOp)
  | part (edit : EditOp) (line : Text)
  deriving DecidableEq

/-- What an edit writes, but for what rides along with it. -/
def EditOp.written (lines : List Text) (edit : EditOp) : List Text :=
  ((edit.place lines []).map Placed.text).getD []

namespace Piece

def spell (lines : List Text) : Piece → List Text
  | line n => [lines.getD (n - 1) []]
  | insert edit => edit.written lines
  | part _ text => [text]

def line? : Piece → Option Nat
  | line n => some n
  | _ => none

def insert? : Piece → Option EditOp
  | insert edit => some edit
  | _ => none

def part? (edit : EditOp) : Piece → Option Text
  | part other text => if other = edit then some text else none
  | _ => none

end Piece

def covered (lines : List Text) (edits : List EditOp) (n : Nat) : Bool :=
  edits.any fun edit => (edit.place lines []).any (Placed.covers n)

def survivors (lines : List Text) (edits : List EditOp) : List Nat :=
  (range' 1 lines.length).filter fun n => !covered lines edits n

def standsBefore (n : Nat) : Placed Text → Bool
  | .after k _ => n ≤ k
  | .before k _ => n < k
  | .atEnd _ => true
  | .atStart _ => false
  | .replace _ _ _ => false

/-- Unreplaced lines once and in order, inserts once and in their place, replacements whole. -/
structure AssembledFrom (lines : List Text) (edits : List EditOp) (content : Text)
    (pieces : List Piece) : Prop where
  content : content = joinLines (pieces.flatMap (Piece.spell lines))
  survivors : pieces.filterMap Piece.line? = survivors lines edits
  inserts : (pieces.filterMap Piece.insert?).Perm
    (edits.filter fun edit => edit.kind ≠ .replace ∧ edit.written lines ≠ [])
  between : ∀ front edit back, pieces = front ++ .insert edit :: back →
    front.filterMap Piece.line? = (Hashline.survivors lines edits).filter fun n =>
      (edit.place lines []).any (standsBefore n)
  parts : ∀ edit, pieces.filterMap (Piece.part? edit) =
    if edit ∈ edits ∧ edit.kind = .replace then edit.written lines else []

def Assembled (lines : List Text) (edits : List EditOp) (content : Text) : Prop :=
  ∃ pieces, AssembledFrom lines edits content pieces

section Placing
variable {edit : EditOp}

variable {lines : List Text} {edits : List EditOp}

/-- The inserts of one operation that ride along with a range and write something. -/
def riders (lines : List Text) (edits : List EditOp) (kind : EditKind) (range : EditOp) :
    List EditOp :=
  edits.filter fun edit => edit.kind = kind ∧
    (ridesWith (edits.filterMap EditOp.range) edit).map Prod.snd = some range ∧
    edit.written lines ≠ []

def piecesOf (lines : List Text) (edits : List EditOp) (edit : EditOp) : List Piece :=
  if edit.kind = .replace then
    (riders lines edits .prepend edit).map .insert ++ (edit.written lines).map (.part edit) ++
      (riders lines edits .append edit).map .insert
  else if edit.written lines = [] then [] else [.insert edit]

variable {host : TextHost} {hashWidth : Nat}

theorem place_of_insert (hkind : edit.kind ≠ .replace) (attached : Attachments) :
    edit.place lines attached = edit.place lines [] := by
  cases edit with
  | replace pos endPos newText => exact absurd rfl hkind
  | append pos text => rfl
  | prepend pos text => rfl

theorem written_eq (edit : EditOp) : edit.written lines = (edit.placeAt lines []).text := by
  rw [EditOp.written, EditOp.placeAt]
  cases edit.place lines [] <;> rfl

theorem written_of_place {p : Placed Text} (h : edit.place lines [] = some p) :
    edit.written lines = p.text := by
  rw [EditOp.written, h]
  rfl

theorem spell_ne_nil_of_mem_piecesOf {piece : Piece} (h : piece ∈ piecesOf lines edits edit) :
    piece.spell lines ≠ [] := by
  have hrider {kind : EditKind} (hmem : piece ∈ (riders lines edits kind edit).map Piece.insert) :
      piece.spell lines ≠ [] := by
    obtain ⟨rider, hrider, rfl⟩ := mem_map.1 hmem
    have hprops := (mem_filter.1 hrider).2
    simp only [decide_eq_true_eq] at hprops
    exact hprops.2.2
  rw [piecesOf] at h
  split at h
  · rcases mem_append.1 h with h | h
    · rcases mem_append.1 h with h | h
      · exact hrider h
      · obtain ⟨text, -, rfl⟩ := mem_map.1 h
        exact cons_ne_nil _ _
    · exact hrider h
  · split at h
    · exact nomatch h
    · case isFalse hne =>
      rw [mem_singleton.1 h]
      exact hne

theorem flatMap_piecesOf_eq_nil (h : (piecesOf lines edits edit).flatMap (Piece.spell lines) = []) :
    piecesOf lines edits edit = [] := by
  by_contra hne
  obtain ⟨piece, rest, hpieces⟩ := exists_cons_of_ne_nil hne
  have hmem : piece ∈ piecesOf lines edits edit := by rw [hpieces]; exact mem_cons_self
  exact spell_ne_nil_of_mem_piecesOf hmem (flatMap_eq_nil_iff.1 h piece hmem)

section

variable (hholds : ∀ edit ∈ edits, edit.Holds host lines hashWidth)
include hholds

theorem flatMap_riders (kind : EditKind) (range : EditOp) :
    edits.flatMap (riderLines lines (edits.filterMap EditOp.range) range kind) =
      ((riders lines edits kind range).map Piece.insert).flatMap (Piece.spell lines) := by
  have hlines : ∀ edit ∈ edits, riderLines lines (edits.filterMap EditOp.range) range kind edit =
      if edit.kind = kind ∧
          (ridesWith (edits.filterMap EditOp.range) edit).map Prod.snd = some range ∧
          edit.written lines ≠ [] then edit.written lines else [] := by
    intro edit hedit
    rw [riderLines]
    cases hrides : ridesWith (edits.filterMap EditOp.range) edit with
    | none => simp
    | some ride =>
      obtain ⟨n, found⟩ := ride
      obtain ⟨p, hp, -, htext, -⟩ := (hholds edit hedit).rides [] hrides
      have hwritten : edit.written lines = normalizeAttachedInsert edit n lines := by
        rw [written_of_place hp, htext]
      dsimp only
      rw [← hwritten]
      by_cases hsame : found = range ∧ edit.kind = kind
      · obtain ⟨rfl, hkind⟩ := hsame
        by_cases hnil : edit.written lines = []
        · simp [hnil]
        · simp [hkind, hnil]
      · rw [if_neg hsame, if_neg]
        rintro ⟨hkind, hfound, -⟩
        exact hsame ⟨by simpa using hfound, hkind⟩
  rw [flatMap_congr hlines, flatMap_ite, flatMap_map]
  rfl

omit hholds in
theorem flatMap_parts (edit : EditOp) (texts : List Text) :
    (texts.map (Piece.part edit)).flatMap (Piece.spell lines) = texts := by
  rw [flatMap_map]
  exact flatMap_singleton' texts

theorem riders_of_endPos {range : EditOp} (hend : range.endPos = none) (kind : EditKind) :
    riders lines edits kind range = [] := by
  rw [riders, filter_eq_nil_iff]
  intro edit hedit hrider
  simp only [decide_eq_true_eq] at hrider
  obtain ⟨-, hrides, -⟩ := hrider
  obtain ⟨⟨n, found⟩, hride, hfound⟩ := Option.map_eq_some_iff.1 hrides
  obtain ⟨p, -, -, -, r, hr, -, -, hrange⟩ := (hholds edit hedit).rides [] hride
  obtain ⟨e, he, her⟩ := mem_filterMap.1 hr
  obtain ⟨block, -, hsame⟩ := (hholds e he).range [] her
  have hrangeSame : e = range := by rw [← hsame, hrange, ← hfound]
  rw [hrangeSame, EditOp.range_of_endPos hend] at her
  exact nomatch her

theorem spell_piecesOf (hedit : edit ∈ edits) :
    (piecesOf lines edits edit).flatMap (Piece.spell lines) =
      (edit.placeAt lines (attachPass lines edits).2).text := by
  rw [piecesOf]
  by_cases hkind : edit.kind = .replace
  · rw [if_pos hkind]
    cases edit with
    | replace pos endPos newText =>
      obtain ⟨first, hfirst, hend⟩ := hholds _ hedit
      cases hgiven : givenAnchor endPos with
      | none =>
        have hendPos : (EditOp.replace pos endPos newText).endPos = none := hgiven
        have hplace (attached : Attachments) :
            (EditOp.replace pos endPos newText).place lines attached =
              some (.replace first first (replacement lines first (toNewLines newText))) := by
          rw [EditOp.place, hgiven, hfirst.refLine]
          rfl
        rw [riders_of_endPos hholds hendPos, riders_of_endPos hholds hendPos,
          written_of_place (hplace []), EditOp.placeAt, hplace]
        simp only [map_nil, nil_append, append_nil]
        exact flatMap_parts _ _
      | some ref =>
        obtain ⟨last, hlast, hle⟩ := hend ref hgiven
        have hnot : ¬ last < first := by omega
        have hplace (attached : Attachments) :
            (EditOp.replace pos endPos newText).place lines attached =
              some (.replace first last (withAttached
                (attached.lookup (.replace pos endPos newText)) (replacement lines first
                  (stripRangeBoundaryEcho lines first last (toNewLines newText))))) := by
          rw [EditOp.place, hgiven, hfirst.refLine]
          dsimp only
          rw [hlast.refLine]
          exact if_neg hnot
        have hwritten : (EditOp.replace pos endPos newText).written lines = replacement lines first
            (stripRangeBoundaryEcho lines first last (toNewLines newText)) := by
          rw [written_of_place (hplace [])]
          exact append_nil _
        have hentry := entryOf_foldl lines (edits.filterMap EditOp.range) edits
          (.replace pos endPos newText)
        rw [flatMap_append, flatMap_append, flatMap_parts, ← flatMap_riders hholds,
          ← flatMap_riders hholds, hwritten, EditOp.placeAt, hplace]
        show _ = (entryOf (attachPass lines edits).2 _).prependLines ++ _ ++
          (entryOf (attachPass lines edits).2 _).appendLines
        rw [attachPass, hentry]
    | _ => cases hkind
  · rw [if_neg hkind, EditOp.placeAt, place_of_insert hkind, ← EditOp.placeAt, ← written_eq]
    split
    · case isTrue hnil => rw [hnil]; rfl
    · rw [flatMap_singleton]
      rfl

end

end Placing

section Laying
variable {gone : List Piece} {n : Nat} {p : Placed Piece} {front rest : List Piece}

variable {count : Nat} {stands : EditOp → Nat → Bool} {qs : List (Placed Piece)}

def originals (count : Nat) : List Piece := (range' 1 count).map .line

/-- A line comes before an insert exactly where it stands before it. -/
def Ordered (stands : EditOp → Nat → Bool) : Piece → Piece → Prop
  | .line n, .insert edit => stands edit n = true
  | .insert edit, .line n => stands edit n = false
  | _, _ => True

/-- Which original lines stand before an insert that is put in with the change. -/
def Placed.Stands (stands : Nat → Bool) : Placed Piece → Prop
  | .replace first last _ => (∀ n < first, stands n = true) ∧ ∀ n, last < n → stands n = false
  | .after k _ => ∀ n, stands n = decide (n ≤ k)
  | .before k _ => ∀ n, stands n = decide (n < k)
  | .atEnd _ => ∀ n, stands n = true
  | .atStart _ => ∀ n, stands n = false

structure Laid (count : Nat) (stands : EditOp → Nat → Bool) (qs : List (Placed Piece))
    (pieces : List Piece) : Prop where
  lines : pieces.filterMap Piece.line? =
    (range' 1 count).filter fun n => !qs.any (Placed.covers n)
  inserts : (pieces.filterMap Piece.insert?).Perm ((qs.flatMap Placed.text).filterMap Piece.insert?)
  parts : ∀ edit, pieces.filterMap (Piece.part? edit) =
    (qs.flatMap Placed.text).filterMap (Piece.part? edit)
  order : pieces.Pairwise (Ordered stands)

theorem line?_originals (numbers : List Nat) :
    (numbers.map Piece.line).filterMap Piece.line? = numbers := by
  rw [filterMap_map]
  exact filterMap_some

theorem filterMap_originals {β : Type} {f : Piece → Option β} (hf : ∀ n, f (.line n) = none)
    (h : ∀ piece ∈ gone, ∃ n, piece = .line n) : gone.filterMap f = [] := by
  rw [filterMap_eq_nil_iff]
  intro piece hpiece
  obtain ⟨n, rfl⟩ := h piece hpiece
  exact hf n

theorem laid_nil : Laid count stands [] (originals count) := by
  have hlines : ∀ piece ∈ originals count, ∃ n, piece = .line n := by
    intro piece hpiece
    obtain ⟨n, -, rfl⟩ := mem_map.1 hpiece
    exact ⟨n, rfl⟩
  refine ⟨?_, ?_, ?_, ?_⟩
  · rw [originals, line?_originals]
    simp
  · rw [filterMap_originals (fun _ => rfl) hlines]
    exact Perm.refl []
  · intro edit
    rw [filterMap_originals (fun _ => rfl) hlines]
    rfl
  · apply pairwise_of_forall_mem_list
    intro a ha b hb
    obtain ⟨n, rfl⟩ := hlines a ha
    obtain ⟨m, rfl⟩ := hlines b hb
    trivial

theorem originals_split (first last : Nat) (hfirst : 1 ≤ first) (hle : first ≤ last + 1)
    (hlast : last ≤ count) :
    originals count = originals (first - 1) ++ ((range' first (last + 1 - first)).map .line ++
      (range' (last + 1) (count - last)).map .line) := by
  have hback : range' first (last + 1 - first) ++ range' (last + 1) (count - last) =
      range' first (count + 1 - first) := by
    have happend : range' first (last + 1 - first) ++
        range' (first + (last + 1 - first)) (count - last) =
          range' first (last + 1 - first + (count - last)) := range'_append_1
    rw [show first + (last + 1 - first) = last + 1 by omega,
      show last + 1 - first + (count - last) = count + 1 - first by omega] at happend
    exact happend
  have hall : range' 1 (first - 1) ++ range' first (count + 1 - first) =
      range' 1 count := by
    have happend : range' 1 (first - 1) ++ range' (1 + (first - 1)) (count + 1 - first) =
        range' 1 (first - 1 + (count + 1 - first)) := range'_append_1
    rw [show 1 + (first - 1) = first by omega,
      show first - 1 + (count + 1 - first) = count by omega] at happend
    exact happend
  rw [originals, originals, ← map_append, ← map_append, hback, hall]

theorem originals_length (count : Nat) : (originals count).length = count := by
  rw [originals, length_map, length_range']

theorem take_originals {m : Nat} (h : m ≤ count) : (originals count).take m = originals m := by
  have hsplit := originals_split (m + 1) m (by omega) le_rfl h
  rw [hsplit, Nat.add_sub_cancel]
  exact take_left' (originals_length m)

theorem gone_originals {first last : Nat} (hfirst : 1 ≤ first) (hle : first ≤ last)
    (hlast : last ≤ count) :
    ((originals count).drop (first - 1)).take (last - first + 1) =
      (range' first (last + 1 - first)).map Piece.line := by
  rw [originals_split _ _ hfirst (by omega) hlast, drop_left' (originals_length _)]
  apply take_left'
  rw [length_map, length_range']
  omega

theorem mem_line? {pieces : List Piece} : n ∈ pieces.filterMap Piece.line? ↔ .line n ∈ pieces := by
  constructor
  · intro h
    obtain ⟨piece, hpiece, hline⟩ := mem_filterMap.1 h
    cases piece with
    | line m =>
      obtain rfl : m = n := Option.some.inj hline
      exact hpiece
    | _ => exact nomatch hline
  · intro h
    exact mem_filterMap.2 ⟨.line n, h, rfl⟩

theorem mem_originals : .line n ∈ originals count ↔ 1 ≤ n ∧ n ≤ count := by
  rw [originals, mem_map]
  constructor
  · rintro ⟨m, hm, hline⟩
    obtain rfl : m = n := by simpa using hline
    rw [mem_range'_1] at hm
    omega
  · intro hn
    exact ⟨n, mem_range'_1.2 (by omega), rfl⟩

theorem mem_gone (hwithin : p.Within count)
    (hput : PutBetween (originals count) qs p front gone rest) (n : Nat) :
    .line n ∈ gone ↔ p.covers n = true := by
  cases hspan : p.span with
  | none =>
    rw [hput.others hspan]
    have hcovers : p.covers n = false := by
      by_contra hcovers
      obtain ⟨s, hs, -⟩ := Placed.covers_iff.1 (by simpa using hcovers)
      rw [hspan] at hs
      cases hs
    simp [hcovers]
  | some span =>
    cases p with
    | replace first last block =>
      obtain ⟨hfirst, hle, hlast⟩ := hwithin
      rw [(hput.range first last block rfl).2, gone_originals hfirst hle hlast, mem_map]
      constructor
      · rintro ⟨m, hm, hline⟩
        obtain rfl : m = n := by simpa using hline
        rw [mem_range'_1] at hm
        have hrange : first ≤ m ∧ m ≤ last := by omega
        simp [Placed.covers, hrange]
      · intro hcovers
        have hrange : first ≤ n ∧ n ≤ last := by simpa [Placed.covers] using hcovers
        exact ⟨n, mem_range'_1.2 (by omega), rfl⟩
    | _ => cases hspan

theorem gone_lines (hwithin : p.Within count)
    (hput : PutBetween (originals count) qs p front gone rest) :
    ∀ piece ∈ gone, ∃ n, piece = .line n := by
  intro piece hpiece
  cases hspan : p.span with
  | none =>
    rw [hput.others hspan] at hpiece
    exact nomatch hpiece
  | some span =>
    cases p with
    | replace first last block =>
      obtain ⟨hfirst, hle, hlast⟩ := hwithin
      rw [(hput.range first last block rfl).2, gone_originals hfirst hle hlast] at hpiece
      obtain ⟨n, -, rfl⟩ := mem_map.1 hpiece
      exact ⟨n, rfl⟩
    | _ => exact nomatch hspan

theorem mem_text_of_blockAt {q : Placed Piece} {piece : Piece} (h : piece ∈ q.blockAt n) :
    piece ∈ q.text := by
  obtain ⟨last, block, rfl⟩ := Placed.eq_replace (ne_nil_of_mem h)
  rwa [Placed.blockAt, if_pos rfl] at h

theorem stands_of_put {stands : Nat → Bool} (hwithin : p.Within count)
    (hput : PutBetween (originals count) qs p front gone rest)
    (htexts : ∀ q ∈ qs, ∀ piece ∈ q.text, piece.line? = none)
    (hlines : (front ++ (gone ++ rest)).filterMap Piece.line? =
      (range' 1 count).filter fun n => !qs.any (Placed.covers n)) (hne : p.text ≠ [])
    (hstands : Placed.Stands stands p) :
    (∀ n, .line n ∈ front → stands n = true) ∧ ∀ n, .line n ∈ rest → stands n = false := by
  have hnodup : ((front ++ (gone ++ rest)).filterMap Piece.line?).Nodup := by
    rw [hlines]
    exact Nodup.filter _ nodup_range'
  rw [filterMap_append, filterMap_append] at hlines hnodup
  have hrest {n : Nat} (hn : .line n ∈ rest) :
      1 ≤ n ∧ n ≤ count ∧ qs.any (Placed.covers n) = false := by
    have hmem : n ∈ front.filterMap Piece.line? ++
        (gone.filterMap Piece.line? ++ rest.filterMap Piece.line?) :=
      mem_append_right _ (mem_append_right _ (mem_line?.2 hn))
    rw [hlines, mem_filter, mem_range'_1] at hmem
    exact ⟨hmem.1.1, by omega, by simpa using hmem.2⟩
  have hapart {n : Nat} (hn : .line n ∈ rest) : .line n ∉ front ∧ .line n ∉ gone := by
    obtain ⟨-, hback, hdisjoint⟩ := nodup_append.1 hnodup
    obtain ⟨-, -, hdisjoint'⟩ := nodup_append.1 hback
    constructor
    · intro hfront
      exact hdisjoint n (mem_line?.2 hfront) n (mem_append_right _ (mem_line?.2 hn)) rfl
    · intro hgone
      exact hdisjoint' n (mem_line?.2 hgone) n (mem_line?.2 hn) rfl
  cases p with
  | replace first last block =>
    have hbounds : 1 ≤ first ∧ first ≤ last ∧ last ≤ count := hwithin
    obtain ⟨hfirst, hle, hlast⟩ := hbounds
    have hfront : front = originals (first - 1) := by
      rw [(hput.range first last block rfl).1, take_originals (by omega)]
    constructor
    · intro n hn
      rw [hfront, mem_originals] at hn
      exact hstands.1 n (by omega)
    · intro n hn
      have hnotFront := (hapart hn).1
      have hnotGone := (hapart hn).2
      rw [hfront, mem_originals] at hnotFront
      rw [mem_gone hwithin hput] at hnotGone
      have hrange : ¬ (first ≤ n ∧ n ≤ last) := by simpa [Placed.covers] using hnotGone
      have hone := (hrest hn).1
      exact hstands.2 n (by omega)
  | after k text =>
    obtain ⟨hk, hle⟩ : 1 ≤ k ∧ k ≤ count := hwithin
    obtain ⟨x, y, hx, hfront, hy⟩ := hput.after k text rfl hne
    obtain rfl : .line k = x := by
      rw [originals, getElem?_map, getElem?_range' (by omega)] at hx
      have hnumber : Piece.line (1 + 1 * (k - 1)) = x := Option.some.inj hx
      rw [← hnumber, Nat.one_mul, Nat.add_sub_cancel' hk]
    rw [take_originals (by omega)] at hfront
    by_cases hcovers : qs.any (Placed.covers k) = true
    · -- what is put behind the first line of a replacement
      rw [body, if_pos hcovers] at hy
      have hynone : y.line? = none := by
        obtain ⟨block, hblock, hyblock⟩ := mem_flatten.1 (mem_of_mem_head? hy)
        obtain ⟨q, hq, rfl⟩ := mem_map.1 (mem_reverse.1 hblock)
        exact htexts q hq y (mem_text_of_blockAt hyblock)
      have hfrontMem {n : Nat} : .line n ∈ front ↔ 1 ≤ n ∧ n ≤ k - 1 := by
        rw [hfront, mem_append, mem_singleton, mem_originals]
        refine ⟨fun hn => hn.elim id fun hline => ?_, .inl⟩
        rw [← hline] at hynone
        cases hynone
      constructor
      · intro n hn
        have hle := hfrontMem.1 hn
        rw [hstands n, decide_eq_true_eq]
        omega
      · intro n hn
        have hnotFront := mt hfrontMem.2 (hapart hn).1
        have hone := (hrest hn).1
        have hk' : n ≠ k := by
          rintro rfl
          rw [(hrest hn).2.2] at hcovers
          cases hcovers
        rw [hstands n, decide_eq_false_iff_not]
        omega
    · rw [body, if_neg hcovers] at hy
      obtain rfl : .line k = y := Option.some.inj hy
      have hfrontMem {n : Nat} : .line n ∈ front ↔ 1 ≤ n ∧ n ≤ k := by
        rw [hfront, mem_append, mem_singleton, mem_originals, Piece.line.injEq]
        omega
      constructor
      · intro n hn
        have hle := hfrontMem.1 hn
        rw [hstands n, decide_eq_true_eq]
        omega
      · intro n hn
        have hnotFront := mt hfrontMem.2 (hapart hn).1
        have hone := (hrest hn).1
        rw [hstands n, decide_eq_false_iff_not]
        omega
  | before k text =>
    have hfront : front = originals (k - 1) := by
      rw [hput.before k text rfl, take_originals (by have := hwithin.2; omega)]
    have hk : 1 ≤ k := hwithin.1
    constructor
    · intro n hn
      rw [hfront, mem_originals] at hn
      rw [hstands n, decide_eq_true_eq]
      omega
    · intro n hn
      have hnotFront := (hapart hn).1
      rw [hfront, mem_originals] at hnotFront
      have hone := (hrest hn).1
      rw [hstands n, decide_eq_false_iff_not]
      omega
  | atEnd text =>
    refine ⟨fun n _ => hstands n, fun n hn => ?_⟩
    rw [hput.ending text rfl] at hn
    cases hn
  | atStart text =>
    refine ⟨fun n hn => ?_, fun n _ => hstands n⟩
    rw [hput.start text rfl] at hn
    cases hn

theorem Laid.concat (h : Laid count stands qs (layout (originals count) qs))
    (hwithin : p.Within count) (hfits : ∀ q ∈ qs, q.Precedes p ∧ q.Fits p)
    (htexts : ∀ q ∈ qs ++ [p], ∀ piece ∈ q.text, piece.line? = none)
    (hstands : ∀ edit, .insert edit ∈ p.text → Placed.Stands (stands edit) p)
    (hparts : ∀ edit, p.text.filterMap (Piece.part? edit) = [] ∨
      (qs.flatMap Placed.text).filterMap (Piece.part? edit) = []) :
    Laid count stands (qs ++ [p]) (layout (originals count) (qs ++ [p])) := by
  obtain ⟨front, gone, rest, hput⟩ := exists_putBetween (by rwa [originals_length]) hfits
  obtain ⟨hlines, hinserts, hpartsOld, horder⟩ := h
  have hgoneLines := gone_lines hwithin hput
  have htextLines : p.text.filterMap Piece.line? = [] := by
    rw [filterMap_eq_nil_iff]
    exact htexts p (by simp)
  rw [hput.old] at hlines hinserts hpartsOld horder
  rw [hput.new]
  have hflat : (qs ++ [p]).flatMap Placed.text = qs.flatMap Placed.text ++ p.text := by
    rw [flatMap_append, flatMap_singleton]
  refine ⟨?_, ?_, ?_, ?_⟩
  · -- the lines in front and behind are those the change does not cover
    have hcovers (n : Nat) : (!(qs ++ [p]).any (Placed.covers n)) =
        (!p.covers n && !qs.any (Placed.covers n)) := by
      rw [any_append, any_cons, any_nil, Bool.or_false, Bool.not_or, Bool.and_comm]
    have hnodup : ((front ++ (gone ++ rest)).filterMap Piece.line?).Nodup := by
      rw [hlines]
      exact Nodup.filter _ nodup_range'
    simp only [hcovers, ← filter_filter, ← hlines]
    rw [filterMap_append, filterMap_append] at hnodup ⊢
    obtain ⟨-, hback, hdisjoint⟩ := nodup_append.1 hnodup
    obtain ⟨-, -, hdisjoint'⟩ := nodup_append.1 hback
    have hgone : (gone.filterMap Piece.line?).filter (fun n => !p.covers n) = [] := by
      rw [filter_eq_nil_iff]
      intro n hn
      simp [(mem_gone hwithin hput n).1 (mem_line?.1 hn)]
    have hmemGone {n : Nat} (hn : p.covers n = true) : n ∈ gone.filterMap Piece.line? :=
      mem_line?.2 ((mem_gone hwithin hput n).2 hn)
    have hfront : (front.filterMap Piece.line?).filter (fun n => !p.covers n) =
        front.filterMap Piece.line? := by
      rw [filter_eq_self]
      intro n hn
      by_contra hnot
      exact hdisjoint n hn n (mem_append_left _ (hmemGone (by simpa using hnot))) rfl
    have hrest : (rest.filterMap Piece.line?).filter (fun n => !p.covers n) =
        rest.filterMap Piece.line? := by
      rw [filter_eq_self]
      intro n hn
      by_contra hnot
      exact hdisjoint' n (hmemGone (by simpa using hnot)) n hn rfl
    rw [filterMap_append, filterMap_append, htextLines, filter_append,
      filter_append, hgone, hfront, hrest]
  · have hgone : gone.filterMap Piece.insert? = [] :=
      filterMap_originals (fun _ => rfl) hgoneLines
    rw [hflat]
    simp only [filterMap_append, hgone, nil_append] at hinserts ⊢
    exact (perm_append_comm_assoc _ _ _).trans
      ((hinserts.append_left _).trans perm_append_comm)
  · intro edit
    have hgone : gone.filterMap (Piece.part? edit) = [] :=
      filterMap_originals (fun _ => rfl) hgoneLines
    have hold := hpartsOld edit
    rw [hflat]
    simp only [filterMap_append, hgone, nil_append] at hold ⊢
    rcases hparts edit with hnil | hnil
    · rw [hnil, nil_append, append_nil, hold]
    · rw [hnil] at hold ⊢
      obtain ⟨hfront, hrest⟩ := append_eq_nil_iff.1 hold
      rw [hfront, hrest, append_nil]
  · have hsides {edit : EditOp} (hedit : .insert edit ∈ p.text) :=
      stands_of_put hwithin hput (fun q hq => htexts q (mem_append_left _ hq)) hlines
        (ne_nil_of_mem hedit) (hstands edit hedit)
    have hnoLine {n : Nat} (hn : .line n ∈ p.text) : False := nomatch htexts p (by simp) _ hn
    obtain ⟨hfront, hback, hcross⟩ := pairwise_append.1 horder
    obtain ⟨-, hrest, -⟩ := pairwise_append.1 hback
    have htext : p.text.Pairwise (Ordered stands) := by
      apply pairwise_of_forall_mem_list
      intro a ha b hb
      cases a with
      | line n => exact (hnoLine ha).elim
      | part edit text => trivial
      | insert edit =>
        cases b with
        | line n => exact (hnoLine hb).elim
        | _ => trivial
    refine pairwise_append.2 ⟨hfront, pairwise_append.2 ⟨htext, hrest, ?_⟩, ?_⟩
    · intro a ha b hb
      cases a with
      | line n => exact (hnoLine ha).elim
      | part edit text => trivial
      | insert edit =>
        cases b with
        | line n => exact (hsides ha).2 n hb
        | _ => trivial
    · intro a ha b hb
      rcases mem_append.1 hb with hb | hb
      · cases b with
        | line n => exact (hnoLine hb).elim
        | part edit text => cases a <;> trivial
        | insert edit =>
          cases a with
          | line n => exact (hsides hb).1 n ha
          | _ => trivial
      · exact hcross a ha b (mem_append_right _ hb)

theorem laid_layout (hwithin : ∀ q ∈ qs, q.Within count)
    (hfits : qs.Pairwise fun q p => q.Precedes p ∧ q.Fits p)
    (htexts : ∀ q ∈ qs, ∀ piece ∈ q.text, piece.line? = none)
    (hstands : ∀ q ∈ qs, ∀ edit, .insert edit ∈ q.text → Placed.Stands (stands edit) q)
    (hparts : qs.Pairwise fun q p => ∀ edit, p.text.filterMap (Piece.part? edit) = [] ∨
      q.text.filterMap (Piece.part? edit) = []) :
    Laid count stands qs (layout (originals count) qs) := by
  induction qs using reverseRecOn with
  | nil =>
    rw [layout_nil]
    exact laid_nil
  | append_singleton qs p ih =>
    have hp : p ∈ qs ++ [p] := by simp
    have hqs : ∀ q ∈ qs, q ∈ qs ++ [p] := fun q => mem_append_left _
    obtain ⟨hfitsBefore, -, hfitsLast⟩ := pairwise_append.1 hfits
    obtain ⟨hpartsBefore, -, hpartsLast⟩ := pairwise_append.1 hparts
    have hbefore := ih (fun q hq => hwithin q (hqs q hq)) hfitsBefore
      (fun q hq => htexts q (hqs q hq)) (fun q hq => hstands q (hqs q hq)) hpartsBefore
    apply hbefore.concat (hwithin p hp) (fun q hq => hfitsLast q hq p (mem_singleton_self p))
      htexts (hstands p hp)
    intro edit
    by_cases hnil : p.text.filterMap (Piece.part? edit) = []
    · exact .inl hnil
    refine .inr ?_
    rw [filterMap_eq_nil_iff]
    intro piece hpiece
    obtain ⟨q, hq, hmem⟩ := mem_flatMap.1 hpiece
    have hnone := (hpartsLast q hq p (mem_singleton_self p) edit).resolve_left hnil
    exact filterMap_eq_nil_iff.1 hnone piece hmem

end Laying

section PutIn
variable {edit : EditOp}

variable {host : TextHost} {lines : List Text} {hashWidth : Nat} {edits : List EditOp}

def piecePlace (lines : List Text) (edits : List EditOp) (edit : EditOp) : Placed Piece :=
  (edit.placeAt lines (attachPass lines edits).2).withText (piecesOf lines edits edit)

def anchorBehind (lines : List Text) (edit : EditOp) (n : Nat) : Bool :=
  (edit.place lines []).any (standsBefore n)

theorem piecesOf_eq_nil_iff (hholds : ∀ edit ∈ edits, edit.Holds host lines hashWidth)
    (hedit : edit ∈ edits) :
    (edit.placeAt lines (attachPass lines edits).2).text = [] ↔ piecesOf lines edits edit = [] := by
  rw [← spell_piecesOf hholds hedit]
  constructor
  · exact flatMap_piecesOf_eq_nil
  · intro h
    rw [h]
    rfl

theorem mem_riders {kind : EditKind} {range rider : EditOp}
    (h : rider ∈ riders lines edits kind range) :
    rider ∈ edits ∧ rider.kind = kind ∧
      (∃ n, ridesWith (edits.filterMap EditOp.range) rider = some (n, range)) ∧
      rider.written lines ≠ [] := by
  obtain ⟨hmem, hprops⟩ := mem_filter.1 h
  simp only [decide_eq_true_eq] at hprops
  obtain ⟨hkind, hrides, hwritten⟩ := hprops
  obtain ⟨⟨n, found⟩, hride, rfl⟩ := Option.map_eq_some_iff.1 hrides
  exact ⟨hmem, hkind, ⟨n, hride⟩, hwritten⟩

theorem line?_piecesOf (edit : EditOp) : ∀ piece ∈ piecesOf lines edits edit, piece.line? = none := by
  intro piece hpiece
  rw [piecesOf] at hpiece
  split at hpiece
  · rcases mem_append.1 hpiece with hpiece | hpiece
    · rcases mem_append.1 hpiece with hpiece | hpiece
      · obtain ⟨rider, -, rfl⟩ := mem_map.1 hpiece
        rfl
      · obtain ⟨text, -, rfl⟩ := mem_map.1 hpiece
        rfl
    · obtain ⟨rider, -, rfl⟩ := mem_map.1 hpiece
      rfl
  · split at hpiece
    · exact nomatch hpiece
    · rw [mem_singleton.1 hpiece]
      rfl

theorem insert_mem_piecesOf {insert : EditOp} :
    .insert insert ∈ piecesOf lines edits edit ↔
      if edit.kind = .replace then
        insert ∈ riders lines edits .prepend edit ∨ insert ∈ riders lines edits .append edit
      else edit = insert ∧ edit.written lines ≠ [] := by
  rw [piecesOf]
  by_cases hkind : edit.kind = .replace
  · simp [hkind]
  rw [if_neg hkind, if_neg hkind]
  by_cases hwritten : edit.written lines = []
  · simp [hwritten]
  · simp [hwritten, eq_comm]

theorem part?_piecesOf (edit other : EditOp) :
    (piecesOf lines edits edit).filterMap (Piece.part? other) =
      if edit = other ∧ edit.kind = .replace then edit.written lines else [] := by
  have hriders (inserts : List EditOp) :
      (inserts.map Piece.insert).filterMap (Piece.part? other) = [] := by
    rw [filterMap_eq_nil_iff]
    intro piece hpiece
    obtain ⟨rider, -, rfl⟩ := mem_map.1 hpiece
    rfl
  rw [piecesOf]
  by_cases hkind : edit.kind = .replace
  · rw [if_pos hkind, filterMap_append, filterMap_append, hriders, hriders,
      nil_append, append_nil, filterMap_map]
    by_cases hsame : edit = other
    · subst hsame
      rw [if_pos ⟨rfl, hkind⟩]
      have hpart : Piece.part? edit ∘ Piece.part edit = some := by
        funext text
        exact if_pos rfl
      rw [hpart, filterMap_some]
    · rw [if_neg fun h => hsame h.1, filterMap_eq_nil_iff]
      intro text _
      exact if_neg hsame
  · have hnot : ¬ (edit = other ∧ edit.kind = .replace) := fun h => hkind h.2
    simp only [if_neg hkind, if_neg hnot]
    split <;> rfl

theorem stands_piecePlace (hholds : ∀ edit ∈ edits, edit.Holds host lines hashWidth)
    {insert : EditOp} (hedit : edit ∈ edits) (h : .insert insert ∈ piecesOf lines edits edit) :
    Placed.Stands (anchorBehind lines insert) (piecePlace lines edits edit) := by
  rw [insert_mem_piecesOf] at h
  by_cases hkind : edit.kind = .replace
  · rw [if_pos hkind] at h
    have hrider : ∃ n, ridesWith (edits.filterMap EditOp.range) insert = some (n, edit) ∧
        insert ∈ edits := by
      rcases h with h | h
      · obtain ⟨hmem, -, ⟨n, hride⟩, -⟩ := mem_riders h
        exact ⟨n, hride, hmem⟩
      · obtain ⟨hmem, -, ⟨n, hride⟩, -⟩ := mem_riders h
        exact ⟨n, hride, hmem⟩
    obtain ⟨n, hride, hmem⟩ := hrider
    obtain ⟨p, hp, hline, -, r, hr, hlt, hgt, hrange⟩ := (hholds insert hmem).rides [] hride
    obtain ⟨e, he, her⟩ := mem_filterMap.1 hr
    obtain ⟨block, hplace, hsame⟩ := (hholds e he).range (attachPass lines edits).2 her
    obtain rfl : e = edit := by rw [← hsame, hrange]
    have hplaceAt : piecePlace lines edits e =
        .replace r.1 r.2.1 (piecesOf lines edits e) := by
      rw [piecePlace, EditOp.placeAt, hplace]
      rfl
    rw [hplaceAt]
    have hbehind (m : Nat) : anchorBehind lines insert m = standsBefore m p := by
      rw [anchorBehind, hp]
      rfl
    constructor
    · intro m hm
      rw [hbehind]
      cases p with
      | after k text =>
        obtain rfl : k = n := Option.some.inj hline
        simpa [standsBefore] using (hm.trans hlt).le
      | before k text =>
        obtain rfl : k = n := Option.some.inj hline
        simpa [standsBefore] using hm.trans hlt
      | _ => cases hline
    · intro m hm
      rw [hbehind]
      cases p with
      | after k text =>
        obtain rfl : k = n := Option.some.inj hline
        simpa [standsBefore] using hgt.trans hm
      | before k text =>
        obtain rfl : k = n := Option.some.inj hline
        simpa [standsBefore] using (hgt.trans hm).le
      | _ => cases hline
  · rw [if_neg hkind] at h
    obtain ⟨rfl, -⟩ := h
    obtain ⟨p, hp⟩ := (hholds edit hedit).placed []
    have hplaceAt : edit.placeAt lines (attachPass lines edits).2 = p := by
      rw [EditOp.placeAt, place_of_insert hkind, hp.place]
      rfl
    have hbehind (m : Nat) : anchorBehind lines edit m = standsBefore m p := by
      rw [anchorBehind, hp.place]
      rfl
    rw [piecePlace, hplaceAt]
    cases p with
    | replace first last block => cases span_of_insert hkind hp.place
    | after k text => exact hbehind
    | before k text => exact hbehind
    | atEnd text => exact hbehind
    | atStart text => exact hbehind

theorem kept_nodup (batch : List EditOp) : (kept batch).Nodup := by
  induction batch using reverseRecOn with
  | nil => exact nodup_nil
  | append_singleton batch edit ih =>
    rw [kept, deduplicateEdits_concat]
    split
    · exact ih
    case isFalse hseen =>
    rw [nodup_append]
    refine ⟨ih, nodup_singleton edit, fun a ha b hb hab => hseen ?_⟩
    rw [mem_singleton] at hb
    subst hb hab
    exact mem_map_of_mem (mem_of_mem_kept ha)

theorem range_of_rides (hholds : ∀ edit ∈ edits, edit.Holds host lines hashWidth) {range : EditOp}
    {n : Nat} (hedit : edit ∈ edits)
    (hride : ridesWith (edits.filterMap EditOp.range) edit = some (n, range)) :
    range ∈ edits ∧ range.kind = .replace := by
  obtain ⟨p, -, -, -, r, hr, -, -, hrange⟩ := (hholds edit hedit).rides [] hride
  obtain ⟨e, he, her⟩ := mem_filterMap.1 hr
  obtain ⟨block, hplace, hsame⟩ := (hholds e he).range [] her
  obtain rfl : e = range := by rw [← hsame, hrange]
  refine ⟨he, ?_⟩
  by_contra hkind
  exact nomatch span_of_insert hkind hplace

def insertsIn (lines : List Text) (edits put : List EditOp) : List EditOp :=
  put.flatMap fun edit => (piecesOf lines edits edit).filterMap Piece.insert?

theorem mem_insert? {pieces : List Piece} :
    edit ∈ pieces.filterMap Piece.insert? ↔ .insert edit ∈ pieces := by
  constructor
  · intro h
    obtain ⟨piece, hpiece, hinsert⟩ := mem_filterMap.1 h
    cases piece with
    | insert other =>
      obtain rfl : other = edit := Option.some.inj hinsert
      exact hpiece
    | _ => exact nomatch hinsert
  · intro h
    exact mem_filterMap.2 ⟨.insert edit, h, rfl⟩

theorem mem_stays :
    edit ∈ (attachPass lines edits).1 ↔
      edit ∈ edits ∧ ridesWith (edits.filterMap EditOp.range) edit = none := by
  rw [attachPass_fst, mem_filter, Option.isNone_iff_eq_none]

theorem mem_insertsIn (hholds : ∀ edit ∈ edits, edit.Holds host lines hashWidth) :
    edit ∈ insertsIn lines edits (attachPass lines edits).1 ↔
      edit ∈ edits ∧ edit.kind ≠ .replace ∧ edit.written lines ≠ [] := by
  rw [insertsIn, mem_flatMap]
  simp only [mem_insert?, insert_mem_piecesOf, mem_stays]
  constructor
  · rintro ⟨other, ⟨hother, -⟩, hput⟩
    split at hput
    · rcases hput with hrider | hrider
      · obtain ⟨hmem, hkind, -, hwritten⟩ := mem_riders hrider
        exact ⟨hmem, by rw [hkind]; exact nofun, hwritten⟩
      · obtain ⟨hmem, hkind, -, hwritten⟩ := mem_riders hrider
        exact ⟨hmem, by rw [hkind]; exact nofun, hwritten⟩
    · case isFalse hkind =>
      obtain ⟨rfl, hwritten⟩ := hput
      exact ⟨hother, hkind, hwritten⟩
  · rintro ⟨hmem, hkind, hwritten⟩
    cases hrides : ridesWith (edits.filterMap EditOp.range) edit with
    | none => exact ⟨edit, ⟨hmem, hrides⟩, by rw [if_neg hkind]; exact ⟨rfl, hwritten⟩⟩
    | some ride =>
      obtain ⟨n, range⟩ := ride
      obtain ⟨hrange, hreplace⟩ := range_of_rides hholds hmem hrides
      have hstays : ridesWith (edits.filterMap EditOp.range) range = none := by
        cases range with
        | replace pos endPos newText => rfl
        | _ => exact nomatch hreplace
      refine ⟨range, ⟨hrange, hstays⟩, ?_⟩
      have hrider {kind : EditKind} (hsame : edit.kind = kind) :
          edit ∈ riders lines edits kind range := by
        refine mem_filter.2 ⟨hmem, ?_⟩
        simp [hsame, hrides, hwritten]
      rw [if_pos hreplace]
      cases hk : edit.kind with
      | replace => exact absurd hk hkind
      | append => exact .inr (hrider hk)
      | prepend => exact .inl (hrider hk)

theorem insertsIn_nodup (hnodup : edits.Nodup) :
    (insertsIn lines edits (attachPass lines edits).1).Nodup := by
  have hinsert? (inserts : List EditOp) :
      (inserts.map Piece.insert).filterMap Piece.insert? = inserts := by
    rw [filterMap_map]
    exact filterMap_some
  have hparts (edit : EditOp) (texts : List Text) :
      (texts.map (Piece.part edit)).filterMap Piece.insert? = [] := by
    rw [filterMap_eq_nil_iff]
    intro piece hpiece
    obtain ⟨text, -, rfl⟩ := mem_map.1 hpiece
    rfl
  rw [insertsIn, nodup_flatMap]
  constructor
  · intro edit _
    rw [piecesOf]
    split
    · rw [filterMap_append, filterMap_append, hinsert?, hinsert?, hparts, append_nil, nodup_append]
      refine ⟨hnodup.filter _, hnodup.filter _, ?_⟩
      rintro a ha b hb rfl
      have hkind := (mem_riders ha).2.1
      rw [(mem_riders hb).2.1] at hkind
      exact nomatch hkind
    · split
      · exact nodup_nil
      · exact nodup_singleton edit
  · have hstays : (attachPass lines edits).1.Nodup := by
      rw [attachPass_fst]
      exact hnodup.filter _
    apply hstays.imp_of_mem
    intro a b ha hb hab edit hput hput'
    rw [mem_insert?, insert_mem_piecesOf] at hput hput'
    have hrider {range : EditOp}
        (h : edit ∈ riders lines edits .prepend range ∨ edit ∈ riders lines edits .append range) :
        ∃ n, ridesWith (edits.filterMap EditOp.range) edit = some (n, range) := by
      rcases h with h | h
      · exact (mem_riders h).2.2.1
      · exact (mem_riders h).2.2.1
    split at hput
    · obtain ⟨n, hn⟩ := hrider hput
      split at hput'
      · obtain ⟨m, hm⟩ := hrider hput'
        rw [hn] at hm
        cases hm
        exact hab rfl
      · obtain ⟨rfl, -⟩ := hput'
        rw [(mem_stays.1 hb).2] at hn
        exact nomatch hn
    · obtain ⟨rfl, -⟩ := hput
      split at hput'
      · obtain ⟨m, hm⟩ := hrider hput'
        rw [(mem_stays.1 ha).2] at hm
        exact nomatch hm
      · exact hab hput'.1.symm

end PutIn

section Amended
variable {edit : EditOp} {p : Placed Text} {first last : Nat} {block : List Text}

/-- No append at a blank end, no prepend inside a replaced range, none into a block's first line. -/
structure KeepsApart (lines : List Text) (edits : List EditOp) : Prop where
  blank : lines = [[]] → ∀ edit ∈ edits, ∀ text, edit.place lines [] = some (.atEnd text) → text = []
  last : ∀ edit ∈ edits, ∀ range ∈ edits, ∀ n text first block,
    edit.place lines [] = some (.before n text) →
    range.place lines [] = some (.replace first n block) → first < n → text = []
  first : ∀ edit ∈ edits, ∀ range ∈ edits, ∀ n text last block,
    edit.place lines [] = some (.after n text) →
    range.place lines [] = some (.replace n last block) → text ≠ [] →
    ∃ piece ∈ (piecesOf lines edits range).head?, (piece.spell lines).length = 1

variable {host : TextHost} {lines : List Text} {hashWidth : Nat} {edits : List EditOp}

theorem pos_of_insertedAt {n : Nat} (hp : edit.place lines [] = some p)
    (hline : p.insertedAt = some n) :
    edit.kind ≠ .replace ∧ ∃ ref, edit.pos = some ref ∧ refLine ref = some n := by
  cases edit with
  | replace pos endPos newText =>
    obtain ⟨first, last, block, rfl, -⟩ := place_replace_eq_some hp
    cases hline
  | append pos text | prepend pos text =>
    refine ⟨by rintro ⟨⟩, ?_⟩
    rw [EditOp.place] at hp
    split at hp
    · case h_1 ref hgiven =>
      obtain ⟨m, hm, rfl⟩ := Option.map_eq_some_iff.1 hp
      obtain rfl : m = n := Option.some.inj hline
      exact ⟨ref, hgiven, hm⟩
    · cases hp
      cases hline

theorem kind_of_place_replace {attached : Attachments}
    (h : edit.place lines attached = some (.replace first last block)) : edit.kind = .replace := by
  by_contra hkind
  exact nomatch span_of_insert hkind h

theorem range_of_place (h : edit.place lines [] = some (.replace first last block))
    (hlt : first < last) : edit.range = some (first, last, edit) := by
  have hkind := kind_of_place_replace h
  cases edit with
  | replace pos endPos newText =>
    rw [EditOp.place] at h
    split at h
    · case h_1 ref hgiven =>
      obtain ⟨first', hfirst, h⟩ := Option.bind_eq_some_iff.1 h
      obtain ⟨last', hlast, h⟩ := Option.bind_eq_some_iff.1 h
      dsimp only at h
      split at h
      · cases h
      obtain ⟨rfl, rfl, -⟩ : first' = first ∧ last' = last ∧ _ := by simpa using h
      have hne : pos ≠ [] := by
        rintro rfl
        rw [refLine_eq_none_of_empty] at hfirst
        cases hfirst
      have hpos : (EditOp.replace pos endPos newText).pos = some pos := by
        simp [EditOp.pos, givenAnchor, hne]
      have hendPos : (EditOp.replace pos endPos newText).endPos = some ref := hgiven
      rw [EditOp.range, hpos, hendPos]
      dsimp only
      rw [hfirst, hlast]
      rfl
    · obtain ⟨first', -, hsame⟩ := Option.map_eq_some_iff.1 h
      obtain ⟨rfl, rfl, -⟩ : first' = first ∧ first' = last ∧ _ := by simpa using hsame
      exact absurd hlt (lt_irrefl _)
  | _ => cases hkind

theorem not_inside_of_stays {range : EditOp} (hedit : edit ∈ (attachPass lines edits).1)
    (hrange : range ∈ edits) {n : Nat} (hp : edit.place lines [] = some p)
    (hline : p.insertedAt = some n) (hq : range.place lines [] = some (.replace first last block)) :
    ¬ (first < n ∧ n < last) := by
  rintro ⟨hlt, hgt⟩
  obtain ⟨hkind, ref, hpos, href⟩ := pos_of_insertedAt hp hline
  have hnone := (mem_stays.1 hedit).2
  have hmem : (first, last, range) ∈ edits.filterMap EditOp.range :=
    mem_filterMap.2 ⟨range, hrange, range_of_place hq (hlt.trans hgt)⟩
  have hfound : ((edits.filterMap EditOp.range).find? fun range =>
      range.1 < n ∧ n < range.2.1).isSome = true := by
    rw [find?_isSome]
    exact ⟨(first, last, range), hmem, by simp [hlt, hgt]⟩
  obtain ⟨found, hfound⟩ := Option.isSome_iff_exists.1 hfound
  cases edit with
  | replace pos endPos newText => exact hkind rfl
  | append pos text | prepend pos text =>
    rw [ridesWith.eq_def, hpos] at hnone
    dsimp only at hnone
    rw [href, Option.bind_eq_bind, Option.bind_some, hfound] at hnone
    cases hnone

section

variable (h : edit.place lines [] = some p)
include h

theorem placeAt_attached (attached : Attachments) :
    edit.placeAt lines attached = p.withText (edit.placeAt lines attached).text := by
  by_cases hkind : edit.kind = .replace
  · cases edit with
    | replace pos endPos newText =>
      rw [EditOp.place] at h
      split at h
      · case h_1 ref hgiven =>
        obtain ⟨first, hfirst, h⟩ := Option.bind_eq_some_iff.1 h
        obtain ⟨last, hlast, h⟩ := Option.bind_eq_some_iff.1 h
        dsimp only at h
        split at h
        · cases h
        case isFalse hnot =>
        cases h
        have hplace : (EditOp.replace pos endPos newText).place lines attached =
            some (.replace first last (withAttached
              (attached.lookup (.replace pos endPos newText)) (replacement lines first
                (stripRangeBoundaryEcho lines first last (toNewLines newText))))) := by
          rw [EditOp.place, hgiven, hfirst]
          dsimp only
          rw [hlast]
          exact if_neg hnot
        rw [EditOp.placeAt, hplace]
        rfl
      · case h_2 hgiven =>
        obtain ⟨first, hfirst, rfl⟩ := Option.map_eq_some_iff.1 h
        have hplace : (EditOp.replace pos endPos newText).place lines attached =
            some (.replace first first (replacement lines first (toNewLines newText))) := by
          rw [EditOp.place, hgiven, hfirst]
          rfl
        rw [EditOp.placeAt, hplace]
        rfl
    | _ => cases hkind
  · have hplaceAt : edit.placeAt lines attached = p := by
      rw [EditOp.placeAt, place_of_insert hkind, h]
      rfl
    rw [hplaceAt]
    cases p <;> rfl

theorem kind_of_span (hspan : p.span = none) : edit.kind ≠ .replace := by
  intro hkind
  cases edit with
  | replace pos endPos newText =>
    obtain ⟨first, last, block, rfl, -⟩ := place_replace_eq_some h
    exact nomatch hspan
  | _ => exact nomatch hkind

theorem placeAt_of_insert (hspan : p.span = none)
    (attached : Attachments) : edit.placeAt lines attached = p := by
  rw [EditOp.placeAt, place_of_insert (kind_of_span h hspan), h]
  rfl

end

theorem KeepsApart.respects (h : KeepsApart lines edits)
    (hholds : ∀ edit ∈ edits, edit.Holds host lines hashWidth) {a b : EditOp}
    (ha : a ∈ (attachPass lines edits).1) (hb : b ∈ (attachPass lines edits).1) :
    (a.placeAt lines (attachPass lines edits).2).Respects
      (b.placeAt lines (attachPass lines edits).2) := by
  have haMem := (mem_stays.1 ha).1
  have hbMem := (mem_stays.1 hb).1
  obtain ⟨p, hp⟩ := (hholds a haMem).placed []
  obtain ⟨q, hq⟩ := (hholds b hbMem).placed []
  cases p with
  | replace first last block =>
    cases q with
    | after n text =>
      have hnone := (piecesOf_eq_nil_iff hholds haMem).1
      rw [placeAt_attached hp.place, placeAt_of_insert hq.place rfl]
      intro hsame hblock
      by_contra htext
      obtain ⟨piece, hpiece, -⟩ := h.first b hbMem a haMem n text last block hq.place
        (hsame ▸ hp.place) htext
      rw [hnone hblock] at hpiece
      exact nomatch hpiece
    | replace first' last' block' =>
      rw [placeAt_attached hp.place, placeAt_attached hq.place]
      trivial
    | before n text | atEnd text | atStart text =>
      rw [placeAt_attached hp.place, placeAt_of_insert hq.place rfl]
      trivial
  | before n text =>
    rw [placeAt_of_insert hp.place rfl, placeAt_attached hq.place]
    cases q with
    | replace first last block =>
      intro hfirst hlast
      have hinside := not_inside_of_stays ha hbMem hp.place rfl hq.place
      obtain rfl : n = last := by omega
      exact h.last a haMem b hbMem n text first block hp.place hq.place hfirst
    | _ => trivial
  | after n text =>
    rw [placeAt_of_insert hp.place rfl, placeAt_attached hq.place]
    cases q with
    | replace first last block =>
      intro hfirst hlast
      exact absurd ⟨hfirst, hlast⟩ (not_inside_of_stays ha hbMem hp.place rfl hq.place)
    | _ => trivial
  | atEnd text =>
    rw [placeAt_of_insert hp.place rfl]
    trivial
  | atStart text =>
    rw [placeAt_of_insert hp.place rfl]
    trivial

theorem exists_head_of_gathered {text : Placed Piece → List Piece} {qs : List (Placed Piece)}
    {piece : Piece} (h : piece ∈ (gathered text qs).head?) : ∃ q ∈ qs, piece ∈ (text q).head? := by
  rw [gathered, head?_flatten] at h
  obtain ⟨pieces, hpieces, hhead⟩ := exists_of_findSome?_eq_some h
  obtain ⟨q, hq, rfl⟩ := mem_map.1 (mem_reverse.1 hpieces)
  exact ⟨q, hq, hhead⟩

theorem KeepsApart.head (h : KeepsApart lines edits)
    (hholds : ∀ edit ∈ edits, edit.Holds host lines hashWidth) {put : List EditOp}
    (hput : ∀ edit ∈ put, edit ∈ edits) (n : Nat) {x : Piece} (hx : (x.spell lines).length = 1) :
    gathered (Placed.afterText n) (put.map (piecePlace lines edits)) = [] ∨
      ∀ y ∈ (body (put.map (piecePlace lines edits)) n x).head?, (y.spell lines).length = 1 := by
  by_cases hnil : gathered (Placed.afterText n) (put.map (piecePlace lines edits)) = []
  · exact .inl hnil
  refine .inr fun y hy => ?_
  -- some edit puts a text behind the line
  obtain ⟨edit, hedit, text, hplace, htext⟩ : ∃ edit ∈ edits, ∃ text,
      edit.place lines [] = some (.after n text) ∧ text ≠ [] := by
    by_contra hnone
    apply hnil
    apply gathered_eq_nil
    intro q hq
    obtain ⟨edit, hedit, rfl⟩ := mem_map.1 hq
    by_contra hne
    obtain ⟨pieces, hafter⟩ := Placed.eq_after hne
    obtain ⟨p, hp⟩ := (hholds edit (hput edit hedit)).placed []
    have htextIff := piecesOf_eq_nil_iff hholds (hput edit hedit)
    rw [piecePlace, placeAt_attached hp.place] at hafter hne
    cases p with
    | after m text =>
      obtain ⟨rfl, -⟩ : m = n ∧ _ := by simpa [Placed.withText] using hafter
      refine hnone ⟨edit, hput edit hedit, text, hp.place, fun hempty => hne ?_⟩
      have hwritten : (edit.placeAt lines (attachPass lines edits).2).text = [] := by
        rw [placeAt_of_insert hp.place rfl]
        exact hempty
      rw [htextIff.1 hwritten]
      exact ite_self _
    | _ => cases hafter
  rw [body] at hy
  split at hy
  · obtain ⟨q, hq, hhead⟩ := exists_head_of_gathered hy
    obtain ⟨range, hrange, rfl⟩ := mem_map.1 hq
    obtain ⟨p, hp⟩ := (hholds range (hput range hrange)).placed []
    have hne : (piecePlace lines edits range).blockAt n ≠ [] := by
      intro hempty
      rw [hempty] at hhead
      cases hhead
    obtain ⟨last, block, hreplace⟩ := Placed.eq_replace hne
    rw [hreplace, Placed.blockAt, if_pos rfl] at hhead
    rw [piecePlace, placeAt_attached hp.place] at hreplace
    cases p with
    | replace first last' block' =>
      obtain ⟨rfl, -, rfl⟩ : first = n ∧ last' = last ∧ piecesOf lines edits range = block := by
        simpa [Placed.withText] using hreplace
      obtain ⟨piece, hpiece, hone⟩ := h.first edit hedit range (hput range hrange) first text last'
        block' hplace hp.place htext
      obtain rfl : piece = y := Option.mem_unique hpiece hhead
      exact hone
    | _ => cases hreplace
  · obtain rfl : x = y := Option.some.inj hy
    exact hx

theorem text_piecePlace (put : List EditOp) :
    (put.map (piecePlace lines edits)).flatMap Placed.text = put.flatMap (piecesOf lines edits) := by
  rw [flatMap_map]
  exact flatMap_congr fun edit _ => withText_text _ _

section

variable (hholds : ∀ edit ∈ edits, edit.Holds host lines hashWidth)
include hholds

theorem covers_piecePlace (hedit : edit ∈ edits) (n : Nat) :
    (piecePlace lines edits edit).covers n = (edit.place lines []).any (Placed.covers n) := by
  obtain ⟨p, hp⟩ := (hholds edit hedit).placed []
  rw [piecePlace, withText_covers, placeAt_attached hp.place, withText_covers, hp.place]
  rfl

theorem any_covers_piecePlace
    {put : List EditOp} (hperm : put.Perm (attachPass lines edits).1) (n : Nat) :
    (put.map (piecePlace lines edits)).any (Placed.covers n) = covered lines edits n := by
  apply Bool.eq_iff_iff.2
  rw [covered, any_map, any_eq_true, any_eq_true]
  constructor
  · rintro ⟨edit, hedit, hcovers⟩
    have hmem := (mem_stays.1 (hperm.mem_iff.1 hedit)).1
    exact ⟨edit, hmem, (covers_piecePlace hholds hmem n).symm.trans hcovers⟩
  · rintro ⟨edit, hedit, hcovers⟩
    refine ⟨edit, hperm.mem_iff.2 ?_, (covers_piecePlace hholds hedit n).trans hcovers⟩
    have hkind : edit.kind = .replace := by
      by_contra hkind
      obtain ⟨p, hp⟩ := (hholds edit hedit).placed []
      rw [hp.place, Option.any_some] at hcovers
      obtain ⟨s, hs, -⟩ := Placed.covers_iff.1 hcovers
      rw [span_of_insert hkind hp.place] at hs
      exact nomatch hs
    cases edit with
    | replace pos endPos newText => exact replace_mem_attachPass lines hedit
    | _ => exact nomatch hkind

omit hholds in
theorem originals_spell (lines : List Text) :
    (originals lines.length).map (fun piece => (piece.spell lines).headD []) = lines := by
  rw [originals, map_map]
  apply ext_getElem
  · rw [length_map, length_range']
  · intro i hi hi'
    rw [getElem_map, getElem_range']
    simp [Piece.spell, hi']

theorem spelled_sorted (hkeeps : KeepsApart lines edits) {sorted : List EditOp}
    (hmem : ∀ edit ∈ sorted, edit ∈ edits) :
    layout lines (sorted.map (EditOp.placeAt lines (attachPass lines edits).2)) =
      (layout (originals lines.length) (sorted.map (piecePlace lines edits))).flatMap
        (Piece.spell lines) := by
  have hone : ∀ piece ∈ originals lines.length,
      piece.spell lines = [(piece.spell lines).headD []] := by
    intro piece hpiece
    obtain ⟨n, -, rfl⟩ := mem_map.1 hpiece
    rfl
  have hplaces : (sorted.map (piecePlace lines edits)).map (Placed.spell (Piece.spell lines)) =
      sorted.map (EditOp.placeAt lines (attachPass lines edits).2) := by
    rw [map_map]
    apply map_congr_left
    intro edit hedit
    exact spell_withText (spell_piecesOf hholds (hmem edit hedit))
  rw [← layout_spell hone fun n piece hpiece => hkeeps.head hholds hmem n
    (by rw [hone piece hpiece]; rfl), hplaces, originals_spell]

omit hholds in
theorem front_lines {stands : EditOp → Nat → Bool} {front back : List Piece}
    (h : (front ++ .insert edit :: back).Pairwise (Ordered stands)) :
    front.filterMap Piece.line? =
      ((front ++ .insert edit :: back).filterMap Piece.line?).filter (stands edit) := by
  obtain ⟨-, hback, hfront⟩ := pairwise_append.1 h
  have hbefore : (front.filterMap Piece.line?).filter (stands edit) =
      front.filterMap Piece.line? := by
    rw [filter_eq_self]
    intro n hn
    exact hfront (.line n) (mem_line?.1 hn) (.insert edit) mem_cons_self
  have hbehind : (back.filterMap Piece.line?).filter (stands edit) = [] := by
    rw [filter_eq_nil_iff]
    intro n hn
    have hfalse : stands edit n = false := (pairwise_cons.1 hback).1 (.line n) (mem_line?.1 hn)
    rw [hfalse]
    exact Bool.false_ne_true
  rw [filterMap_append, filterMap_cons_none rfl, filter_append, hbefore, hbehind, append_nil]

theorem laid_sorted
    {sorted : List EditOp} (hmem : ∀ edit ∈ sorted, edit ∈ edits) (hnodup : sorted.Nodup)
    (hfits : sorted.Pairwise fun a b =>
      (a.placeAt lines (attachPass lines edits).2).Precedes
          (b.placeAt lines (attachPass lines edits).2) ∧
        (a.placeAt lines (attachPass lines edits).2).Fits
          (b.placeAt lines (attachPass lines edits).2)) :
    Laid lines.length (anchorBehind lines) (sorted.map (piecePlace lines edits))
      (layout (originals lines.length) (sorted.map (piecePlace lines edits))) := by
  have htext (edit : EditOp) :
      (piecePlace lines edits edit).text = piecesOf lines edits edit := withText_text _ _
  apply laid_layout
  · intro q hq
    obtain ⟨edit, hedit, rfl⟩ := mem_map.1 hq
    exact withText_within _ _ ((hholds edit (hmem edit hedit)).placeAt _).within
  · rw [pairwise_map]
    apply hfits.imp_of_mem
    rintro a b ha hb ⟨hprecedes, hfit⟩
    exact ⟨withText_precedes _ _ _ _ hprecedes,
      withText_fits hfit (piecesOf_eq_nil_iff hholds (hmem a ha))
        (piecesOf_eq_nil_iff hholds (hmem b hb))⟩
  · intro q hq piece hpiece
    obtain ⟨edit, hedit, rfl⟩ := mem_map.1 hq
    rw [htext] at hpiece
    exact line?_piecesOf edit piece hpiece
  · intro q hq insert hinsert
    obtain ⟨edit, hedit, rfl⟩ := mem_map.1 hq
    rw [htext] at hinsert
    exact stands_piecePlace hholds (hmem edit hedit) hinsert
  · rw [pairwise_map]
    apply hnodup.imp
    intro a b hab edit
    rw [htext, htext, part?_piecesOf, part?_piecesOf]
    by_cases ha : a = edit
    · exact .inl (if_neg fun hb => hab (ha.trans hb.1.symm))
    · exact .inr (if_neg fun h => ha h.1)

end

/-- Lines that stay are there once and in order, every insert once, whole and in its place. -/
theorem edits_assembled (host : TextHost) (lines : List Text) (batch : List EditOp)
    (hashWidth : Nat) (report : AppliedEdits) (hkeeps : KeepsApart lines (kept batch))
    (h : applyEditsToLinesWithReport host lines batch hashWidth = .ok report) :
    Assembled lines (kept batch) report.content := by
  obtain ⟨hholds, hapart⟩ := holds_of_accepted h
  have hblank : lines = [[]] → ∀ edit ∈ (attachPass lines (kept batch)).1,
      (edit.placeAt lines (attachPass lines (kept batch)).2).endText = [] := by
    intro hlines edit hedit
    have hmem := (mem_stays.1 hedit).1
    obtain ⟨p, hp⟩ := (hholds edit hmem).placed []
    cases p with
    | atEnd text =>
      rw [placeAt_of_insert hp.place rfl]
      exact hkeeps.blank hlines edit hmem text hp.place
    | replace first last block =>
      rw [placeAt_attached hp.place]
      rfl
    | after n text =>
      rw [placeAt_attached hp.place]
      rfl
    | before n text =>
      rw [placeAt_attached hp.place]
      rfl
    | atStart text =>
      rw [placeAt_attached hp.place]
      rfl
  obtain ⟨found, sorted, hfound, hperm, hfits, hcontent⟩ := applied_layout batch hholds hapart
    (fun a ha b hb => hkeeps.respects hholds ha hb) hblank
  obtain rfl : found = report := by
    rw [h] at hfound
    cases hfound
    rfl
  have hmem {edit : EditOp} (hedit : edit ∈ sorted) : edit ∈ kept batch :=
    (mem_stays.1 (hperm.mem_iff.1 hedit)).1
  have hnodup : sorted.Nodup := by
    rw [hperm.nodup_iff, attachPass_fst]
    exact (kept_nodup batch).filter _
  have hlaid := laid_sorted hholds (fun edit => hmem) hnodup hfits
  have hspelled := spelled_sorted hholds hkeeps (fun edit => hmem)
  refine ⟨layout (originals lines.length) (sorted.map (piecePlace lines (kept batch))),
    ?_, ?_, ?_, ?_, ?_⟩
  · rw [hcontent, hspelled]
  · rw [hlaid.lines, survivors]
    simp only [any_covers_piecePlace hholds hperm]
  · have hinserts := hlaid.inserts
    rw [text_piecePlace, filterMap_flatMap] at hinserts
    have hstays : (insertsIn lines (kept batch) sorted).Perm
        (insertsIn lines (kept batch) (attachPass lines (kept batch)).1) := hperm.flatMap_right _
    refine (hinserts.trans hstays).trans ?_
    rw [perm_ext_iff_of_nodup (insertsIn_nodup (kept_nodup batch))
      ((kept_nodup batch).filter _)]
    intro edit
    rw [mem_insertsIn hholds, mem_filter, decide_eq_true_eq]
  · intro front edit back hpieces
    have hlines := hlaid.lines
    have horder := hlaid.order
    rw [hpieces] at hlines horder
    rw [survivors]
    simp only [← any_covers_piecePlace hholds hperm]
    rw [← hlines]
    exact front_lines horder
  · intro edit
    rw [hlaid.parts edit, text_piecePlace, filterMap_flatMap]
    simp only [part?_piecesOf]
    by_cases hkind : edit.kind = .replace
    · have hstays : edit ∈ sorted ↔ edit ∈ kept batch := by
        refine ⟨hmem, fun hedit => hperm.mem_iff.2 ?_⟩
        cases edit with
        | replace pos endPos newText => exact replace_mem_attachPass lines hedit
        | _ => exact nomatch hkind
      have hsame : ∀ e ∈ sorted, (if e = edit ∧ e.kind = .replace then e.written lines else []) =
          if e = edit then e.written lines else [] := by
        intro e _
        by_cases he : e = edit
        · subst he
          rw [if_pos ⟨rfl, hkind⟩, if_pos rfl]
        · rw [if_neg fun h => he h.1, if_neg he]
      rw [flatMap_congr hsame, flatMap_single _ edit hnodup]
      simp only [hstays, hkind, and_true]
    · have hnot : ¬ (edit ∈ kept batch ∧ edit.kind = .replace) := fun h => hkind h.2
      rw [if_neg hnot, flatMap_eq_nil_iff]
      intro e _
      apply if_neg
      rintro ⟨rfl, hreplace⟩
      exact hkind hreplace

def aroundBatch : List EditOp :=
  [.replace "2#eB".toList (some "4#eB".toList) (.text "x\ny".toList),
    .append (some "3#eB".toList) (.text "inner".toList),
    .append (some "4#eB".toList) (.text "last".toList),
    .prepend (some "2#eB".toList) (.text "before".toList),
    .append (some "2#eB".toList) (.text "within".toList)]

theorem places_aroundBatch : (kept aroundBatch).map (EditOp.place (letterLines 5) []) =
    [some (.replace 2 4 ["x".toList, "y".toList]), some (.after 3 ["inner".toList]),
      some (.after 4 ["last".toList]), some (.before 2 ["before".toList]),
      some (.after 2 ["within".toList])] := by
  decide +kernel

theorem aroundBatch_keepsApart : KeepsApart (letterLines 5) (kept aroundBatch) := by
  have hplace {edit : EditOp} (hedit : edit ∈ kept aroundBatch) :
      edit.place (letterLines 5) [] ∈ (kept aroundBatch).map (EditOp.place (letterLines 5) []) :=
    mem_map_of_mem hedit
  rw [places_aroundBatch] at hplace
  refine ⟨fun hlines => absurd hlines (by decide), ?_, ?_⟩
  · intro edit hedit range hrange n text first block hbefore hreplace hlt
    obtain ⟨rfl, -⟩ : n = 2 ∧ text = ["before".toList] := by simpa [hbefore] using hplace hedit
    obtain ⟨-, hlast, -⟩ : first = 2 ∧ 2 = 4 ∧ block = ["x".toList, "y".toList] := by
      simpa [hreplace] using hplace hrange
    exact absurd hlast (by decide)
  · intro edit hedit range hrange n text last block hafter hreplace _
    have hkind := kind_of_place_replace hreplace
    have hkept : kept aroundBatch = aroundBatch := by decide +kernel
    rw [hkept] at hrange
    simp only [aroundBatch, mem_cons, not_mem_nil, or_false] at hrange
    rcases hrange with rfl | rfl | rfl | rfl | rfl
    · refine ⟨.part (.replace "2#eB".toList (some "4#eB".toList) (.text "x\ny".toList))
        "x".toList, ?_, rfl⟩
      decide +kernel
    all_goals exact nomatch hkind

theorem edits_assembled_around :
    ∃ report, applyEditsToLinesWithReport letterHost (letterLines 5) aroundBatch 2 = .ok report ∧
      Assembled (letterLines 5) (kept aroundBatch) report.content := by
  obtain ⟨report, hreport⟩ : ∃ report,
      applyEditsToLinesWithReport letterHost (letterLines 5) aroundBatch 2 = .ok report :=
    ⟨{ content := "a\nbefore\nx\nwithin\ny\ninner\nlast\na".toList, noopEdits := 0,
       deduplicatedEdits := 0 }, by decide +kernel⟩
  exact ⟨report, hreport, edits_assembled letterHost (letterLines 5) aroundBatch 2 report
    aroundBatch_keepsApart hreport⟩

theorem newline_mem_joinLines {texts : List Text} (h : 2 ≤ texts.length) :
    '\n' ∈ joinLines texts := by
  match texts, h with
  | x :: y :: texts, _ => simp [joinLines, List.intercalate]

/-- The one blank line of a file gives way to a text at its end. -/
theorem edits_not_assembled :
    ¬ ∀ (host : TextHost) (lines : List Text) (batch : List EditOp) (hashWidth : Nat)
        (report : AppliedEdits),
      applyEditsToLinesWithReport host lines batch hashWidth = .ok report →
        Assembled lines batch report.content := by
  intro hclaim
  have happlied : applyEditsToLinesWithReport letterHost [[]] [.append none (.text "x".toList)] 2 =
      .ok { content := "x".toList, noopEdits := 0, deduplicatedEdits := 0 } := by
    decide +kernel
  obtain ⟨pieces, hpieces⟩ := hclaim _ _ _ _ _ happlied
  have hwritten : (EditOp.append none (.text "x".toList)).written [[]] = ["x".toList] := by
    decide +kernel
  have hinsert : .insert (.append none (.text "x".toList)) ∈ pieces := by
    rw [← mem_insert?, hpieces.inserts.mem_iff]
    decide +kernel
  obtain ⟨front, back, hsplit⟩ := append_of_mem hinsert
  have hfront : .line 1 ∈ front := by
    rw [← mem_line?, hpieces.between front _ back hsplit]
    decide +kernel
  -- the blank line and the insert are two lines, so a newline is written
  have hlength : 2 ≤ (pieces.flatMap (Piece.spell [[]])).length := by
    have hline : 1 ≤ (front.flatMap (Piece.spell [[]])).length := by
      exact length_pos_of_mem
        (mem_flatMap.2 ⟨.line 1, hfront, mem_singleton_self []⟩)
    rw [hsplit, flatMap_append, flatMap_cons, length_append, length_append]
    have hone : (Piece.spell [[]] (.insert (.append none (.text "x".toList)))).length = 1 := by
      rw [Piece.spell, hwritten]
      rfl
    omega
  have hnewline := newline_mem_joinLines hlength
  rw [← hpieces.content] at hnewline
  exact absurd hnewline (by decide)

end Amended
end Rolebox.Hashline
