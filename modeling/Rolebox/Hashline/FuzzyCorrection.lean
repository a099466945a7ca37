import Rolebox.Hashline.FreshRead

/-! Corrected anchors: how they are written, and when all of a batch are corrected. -/

namespace Rolebox.Hashline.EditTool
open General List

section Spelling
variable {c : Char} {text : Text}

structure IsHash (hash : Text) : Prop where
  chars : ∀ c ∈ hash, isAnchorChar c = true
  short : 2 ≤ hash.length
  long : hash.length ≤ 8

theorem numeral_eq (n : Nat) : numeral n = Nat.toDigits 10 n := by
  exact Nat.toList_repr

theorem isDigit_numeral {n : Nat} (h : c ∈ numeral n) : isDigit c = true := by
  rw [numeral_eq] at h
  have hdigit := Nat.isDigit_of_mem_toDigits (by decide) (by decide) h
  unfold isDigit
  simpa [Char.isDigit, UInt32.le_iff_toNat_le] using hdigit

theorem digitsValue_numeral (n : Nat) : digitsValue (numeral n) = n := by
  have hvalue := @Nat.ofDigitChars_ten_toDigits n
  rw [Nat.ofDigitChars_eq_foldl, ← numeral_eq] at hvalue
  exact hvalue

theorem numeral_ne_nil (n : Nat) : numeral n ≠ [] := by
  rw [numeral_eq]
  exact Nat.toDigits_ne_nil

def Plain (c : Char) : Prop := isDigit c = true ∨ c = '#' ∨ isAnchorChar c = true

theorem Plain.range (h : Plain c) : 33 ≤ c.toNat ∧ c.toNat ≤ 122 := by
  rcases h with h | rfl | h
  · simp [isDigit] at h
    omega
  · decide
  · simp only [isAnchorChar, isDigit, Bool.or_eq_true, decide_eq_true_eq, Bool.and_eq_true] at h
    rcases h with (((h | h) | h) | rfl) | rfl
    · omega
    · omega
    · omega
    · decide
    · decide

theorem Plain.not_space (h : Plain c) : isWhitespace c = false := by
  have hrange := h.range
  simp [isWhitespace]
  omega

theorem isDigit_ne (h : isDigit c = true) : c ≠ '#' ∧ c ≠ '|' ∧ c ≠ '>' ∧ c ≠ '+' ∧ c ≠ '-' := by
  refine ⟨?_, ?_, ?_, ?_, ?_⟩ <;>
    rintro rfl <;>
    exact absurd h (by decide)

theorem trim_plain (h : ∀ c ∈ text, isWhitespace c = false) : trim text = text := by
  have hstart : ∀ text : Text, (∀ c ∈ text, isWhitespace c = false) →
      text.dropWhile isWhitespace = text := by
    intro text htext
    cases text with
    | nil => rfl
    | cons c text =>
      rw [dropWhile_cons_of_neg (by rw [htext c (.head _)]; decide)]
  unfold trim trimEnd trimStart
  rw [hstart text h, hstart _ fun c hc => h c (mem_reverse.1 hc), reverse_reverse]

theorem closeHash_plain (h : ∀ c ∈ text, isWhitespace c = false) : closeHash text = text := by
  induction text with
  | nil => rfl
  | cons c text ih =>
    have hnext : (text.head?.any isWhitespace) = false := by
      cases text with
      | nil => rfl
      | cons d text => exact h d (by simp)
    rw [closeHash, hnext, if_neg (by simp), ih fun d hd => h d (.tail _ hd)]

theorem stripContent_plain (h : ∀ c ∈ text, c ≠ '|') : stripContent text = text := by
  induction text with
  | nil => rfl
  | cons c text ih =>
    rw [stripContent, if_neg fun hbar => h c (.head _) hbar.1, ih fun d hd => h d (.tail _ hd)]

theorem parse_anchorText {line : Nat} {hash : Text} (h : IsHash hash) :
    parseLineRef (anchorText line hash) = .ok { line := line, hash := hash } := by
  have hplain : ∀ c ∈ anchorText line hash, Plain c := by
    intro c hc
    rcases mem_append.1 hc with hc | hc
    · exact Or.inl (isDigit_numeral hc)
    · rcases mem_cons.1 hc with rfl | hc
      · exact Or.inr (Or.inl rfl)
      · exact Or.inr (Or.inr (h.chars c hc))
  have hspace : ∀ c ∈ anchorText line hash, isWhitespace c = false :=
    fun c hc => (hplain c hc).not_space
  have hbar : ∀ c ∈ anchorText line hash, c ≠ '|' := by
    intro c hc
    rintro rfl
    exact absurd (hplain _ hc).range (by decide)
  obtain ⟨d, digits, hdigits⟩ := exists_cons_of_ne_nil (numeral_ne_nil line)
  have hfirst : isDigit d = true := isDigit_numeral (hdigits ▸ mem_cons_self ..)
  obtain ⟨-, -, hmark, hplus, hminus⟩ := isDigit_ne hfirst
  have hhead : (anchorText line hash).head? = some d := by
    unfold anchorText
    rw [hdigits]
    rfl
  have hmarker : stripMarker ">>>".toList (anchorText line hash) = anchorText line hash := by
    unfold stripMarker
    rw [if_neg]
    unfold anchorText
    rw [hdigits]
    simp [List.isPrefixOf, Ne.symm hmark]
  have htake : (anchorText line hash).takeWhile isDigit = numeral line := by
    unfold anchorText
    rw [takeWhile_append_of_pos fun c hc => isDigit_numeral hc,
      takeWhile_cons_of_neg (by decide), append_nil]
  have hdrop : (anchorText line hash).drop (numeral line).length = '#' :: hash := drop_left
  unfold parseLineRef
  rw [trim_plain hspace, hmarker]
  simp only [hhead, Option.some.injEq, hplus, hminus, or_self, if_false]
  rw [closeHash_plain hspace, stripContent_plain hbar, trim_plain hspace]
  simp only [htake, hdrop, head?_cons, tail_cons, digitsValue_numeral]
  rw [if_pos ⟨numeral_ne_nil line, trivial, all_eq_true.2 h.chars, h.short, h.long⟩]

theorem parse_cleaned (ref : Text) :
    ∃ cleaned : Text, parseLineRef ref = let digits := cleaned.takeWhile isDigit
      let hash := (cleaned.drop digits.length).tail
      if digits ≠ [] ∧ (cleaned.drop digits.length).head? = some '#' ∧
          hash.all isAnchorChar = true ∧ 2 ≤ hash.length ∧ hash.length ≤ 8 then
        .ok { line := digitsValue digits, hash := hash }
      else .error (.error ("Invalid line reference: \"".toList ++ ref ++
        "\". Expected format: LINE#HASH (e.g., \"42#aB3\")".toList)) := ⟨_, rfl⟩

theorem isHash_of_parse {ref : Text} {anchor : HashAnchor} (h : parseLineRef ref = .ok anchor) :
    IsHash anchor.hash := by
  obtain ⟨cleaned, hparse⟩ := parse_cleaned ref
  rw [hparse] at h
  dsimp only at h
  split at h
  · case isTrue hread =>
    obtain ⟨-, -, hchars, hshort, hlong⟩ := hread
    obtain rfl := Except.ok.inj h
    exact ⟨all_eq_true.1 hchars, hshort, hlong⟩
  · exact nomatch h

theorem isHash_computeLineHash (host : TextHost) (content : Text) {width : Nat} (lineNumber : Nat)
    (hshort : 2 ≤ width) (hlong : width ≤ 8) :
    IsHash (computeLineHash host content width lineNumber) where
  chars := by
    intro c hc
    obtain ⟨i, -, rfl⟩ := mem_map.1 hc
    have hdict : ∀ n < 64, isAnchorChar (base64Dict.getD n 'A') = true := by decide +kernel
    exact hdict _ (Nat.mod_lt _ (by decide))
  short := by simpa [computeLineHash] using hshort
  long := by simpa [computeLineHash] using hlong

end Spelling

section Offsets
variable {host : TextHost} {lines : List Text} {width : Nat}
variable {line : Nat} {mismatch : HashMismatch}

/-- A line in the window an offset leads a mismatch to, with the expected hash. -/
structure Leads (host : TextHost) (lines : List Text) (width : Nat) (mismatch : HashMismatch)
    (offset : Int) (line : Nat) : Prop where
  place : (line : Int) = mismatch.line + offset
  moved : offset ≠ 0
  near : offset.natAbs ≤ fuzzySearchWindow
  first : 1 ≤ line
  last : line ≤ lines.length
  hash : computeLineHash host (lines.getD (line - 1) []) width line = mismatch.expected ∨
    computeLineHash host (lines.getD (line - 1) []) width mismatch.line = mismatch.expected

theorem mem_linesAt {target dist : Nat} (hdist : 1 ≤ dist) :
    line ∈ linesAt target dist ↔ 1 ≤ line ∧ ((line : Int) - target).natAbs = dist := by
  unfold linesAt
  by_cases hlt : dist < target
  · simp only [hlt, if_true, mem_append, mem_singleton]
    omega
  · simp only [hlt, if_false, nil_append, mem_singleton]
    omega

theorem mem_candidateLines :
    line ∈ candidateLines host lines mismatch.line mismatch.expected width ↔
      Leads host lines width mismatch ((line : Int) - mismatch.line) line := by
  unfold candidateLines
  simp only [mem_filter, mem_flatMap, mem_range, decide_eq_true_eq,
    hashMatchesCandidate, Bool.or_eq_true]
  constructor
  · rintro ⟨⟨dist, hdist, hline⟩, hlast, hhash⟩
    rw [mem_linesAt (Nat.succ_pos dist)] at hline
    have hwindow : dist < 10 := hdist
    exact ⟨by omega, by omega, by show _ ≤ 10; omega, hline.1, hlast, hhash⟩
  · rintro ⟨-, hmoved, hnear, hfirst, hlast, hhash⟩
    have hwindow : ((line : Int) - mismatch.line).natAbs ≤ 10 := hnear
    refine ⟨⟨((line : Int) - mismatch.line).natAbs - 1, ?_, ?_⟩, hlast, hhash⟩
    · omega
    · rw [mem_linesAt (Nat.succ_pos _)]
      omega

theorem lookup_candidateOffsets {offset : Int} :
    (candidateOffsets host lines width mismatch).lookup offset = some line ↔
      Leads host lines width mismatch offset line := by
  have hkeys : ∀ (candidates : List Nat),
      (candidates.map fun (line : Nat) => ((line : Int) - mismatch.line, line)).lookup offset =
        some line ↔ line ∈ candidates ∧ (line : Int) - mismatch.line = offset := by
    intro candidates
    induction candidates with
    | nil => simp
    | cons c candidates ih =>
      by_cases hc : offset = (c : Int) - mismatch.line
      · subst hc
        rw [map_cons, List.lookup_cons_self]
        constructor
        · intro h
          cases h
          exact ⟨.head _, rfl⟩
        · rintro ⟨-, hsame⟩
          have : line = c := by omega
          rw [this]
      · rw [map_cons, lookup_cons_of_ne _ hc, ih]
        constructor
        · exact fun h => ⟨mem_cons_of_mem _ h.1, h.2⟩
        rintro ⟨hmem, hsame⟩
        rcases mem_cons.1 hmem with rfl | hmem
        · exact absurd hsame.symm hc
        · exact ⟨hmem, hsame⟩
  unfold candidateOffsets
  rw [hkeys, mem_candidateLines]
  constructor
  · rintro ⟨hleads, rfl⟩
    exact hleads
  · intro h
    have hoffset : (line : Int) - mismatch.line = offset := by
      have := h.place
      omega
    exact ⟨hoffset ▸ h, hoffset⟩

def Qualifies (host : TextHost) (lines : List Text) (width : Nat) (mismatches : List HashMismatch)
    (offset : Int) : Prop := ∀ m ∈ mismatches, ∃ line, Leads host lines width m offset line

def contentAt (lines : List Text) (mismatch : HashMismatch) (offset : Int) : Text :=
  lines.getD ((mismatch.line + offset).toNat - 1) []

theorem Leads.content {offset : Int} (h : Leads host lines width mismatch offset line) :
    line = (mismatch.line + offset).toNat ∧
      lines.getD (line - 1) [] = contentAt lines mismatch offset := by
  have hline : line = (mismatch.line + offset).toNat := by
    have := h.place
    omega
  exact ⟨hline, by rw [contentAt, ← hline]⟩

def corrected (host : TextHost) (lines : List Text) (width : Nat) (mismatch : HashMismatch)
    (offset : Int) : Text :=
  let line := (mismatch.line + offset).toNat
  anchorText line (computeLineHash host (contentAt lines mismatch offset) width line)

def correctionsOf (host : TextHost) (lines : List Text) (width : Nat)
    (mismatches : List HashMismatch) (offset : Int) : List (Text × Text) :=
  mismatches.foldl (fun corrections m =>
    assign (anchorText m.line m.expected) (corrected host lines width m offset) corrections) []

theorem length_distinct_le_one {α : Type*} [DecidableEq α] {l : List α}
    (h : ¬ 1 < (distinct l).length) {a b : α} (ha : a ∈ l) (hb : b ∈ l) : a = b := by
  have ha' := mem_distinct.2 ha
  have hb' := mem_distinct.2 hb
  generalize distinct l = kept at h ha' hb'
  match kept, h, ha', hb' with
  | [c], _, ha', hb' => exact (mem_singleton.1 ha').trans (mem_singleton.1 hb').symm
  | c :: d :: rest, h, _, _ => exact absurd (by simp) h

/-- Corrections: one qualifying offset, to whose content every other leads too. -/
theorem detect_spec {mismatches : List HashMismatch} {corrections : List (Text × Text)}
    (h : detectUniformOffset host mismatches lines width = .ok (some corrections))
    (hne : mismatches ≠ []) :
    ∃ offset, Qualifies host lines width mismatches offset ∧
      (∀ other, Qualifies host lines width mismatches other →
        ∀ m ∈ mismatches, contentAt lines m other = contentAt lines m offset) ∧
      corrections = correctionsOf host lines width mismatches offset := by
  obtain ⟨first, others, rfl⟩ := exists_cons_of_ne_nil hne
  unfold detectUniformOffset at h
  simp only [map_cons] at h
  generalize hcommon : ((candidateOffsets host lines width first).map Prod.fst).filter
    (fun offset => (others.map fun m => (m, candidateOffsets host lines width m)).all
      fun other => (other.2.lookup offset).isSome) = common at h
  have hmem : ∀ offset, offset ∈ common ↔
      Qualifies host lines width (first :: others) offset := by
    intro offset
    have hsome : ∀ m : HashMismatch, (∃ line, Leads host lines width m offset line) ↔
        ((candidateOffsets host lines width m).lookup offset).isSome := by
      intro m
      rw [Option.isSome_iff_exists]
      exact exists_congr fun line => lookup_candidateOffsets.symm
    have hfirst : offset ∈ (candidateOffsets host lines width first).map Prod.fst ↔
        ((candidateOffsets host lines width first).lookup offset).isSome := by
      rw [← not_iff_not, ← General.lookup_eq_none_iff, Option.not_isSome_iff_eq_none]
    rw [← hcommon, mem_filter, hfirst, all_eq_true]
    unfold Qualifies
    simp only [forall_mem_cons, forall_mem_map, hsome]
  cases hsorted : common.insertionSort preferred with
  | nil =>
    rw [hsorted] at h
    exact nomatch h
  | cons chosen rest =>
    rw [hsorted] at h
    have hchosen : chosen ∈ common := by
      rw [← mem_insertionSort preferred, hsorted]
      exact .head _
    have hqualifies := (hmem chosen).1 hchosen
    split at h
    · case h_1 heq => exact nomatch heq
    · exact nomatch h
    case h_3 chosen' rest' heq hnone =>
    obtain ⟨rfl, -⟩ := List.cons.inj heq
    have hline : ∀ offset, Qualifies host lines width (first :: others) offset →
        ∀ m ∈ first :: others, ((candidateOffsets host lines width m).lookup offset).getD 0 =
          (m.line + offset).toNat := by
      intro offset hoffset m hm
      obtain ⟨line, hleads⟩ := hoffset m hm
      rw [lookup_candidateOffsets.2 hleads]
      exact hleads.content.1
    refine ⟨chosen, hqualifies, ?_, ?_⟩
    · intro other hother m hm
      have hsame := find?_eq_none.1 hnone (m, candidateOffsets host lines width m) (by
        rw [← map_cons (f := fun m => (m, candidateOffsets host lines width m))]
        exact mem_map_of_mem hm)
      simp only [decide_eq_true_eq] at hsame
      have hcontents : ∀ offset ∈ common, contentAt lines m offset ∈ common.map fun offset =>
          lines.getD (((candidateOffsets host lines width m).lookup offset).getD 0 - 1) [] := by
        intro offset hoffset
        apply mem_map.2
        exact ⟨offset, hoffset, by rw [hline offset ((hmem offset).1 hoffset) m hm]; rfl⟩
      exact length_distinct_le_one hsame (hcontents other ((hmem other).2 hother))
        (hcontents chosen hchosen)
    · obtain rfl := Option.some.inj (Except.ok.inj h)
      rw [← map_cons (f := fun m => (m, candidateOffsets host lines width m)), foldl_map]
      apply foldl_ext
      intro corrections m hm
      rw [hline chosen hqualifies m hm]
      rfl

end Offsets

theorem lookup_text {β : Type*} (l : List (Text × β)) (k : Text) :
    l.lookup k = @List.lookup Text β instBEqOfDecidableEq k l := by
  congr 1
  exact lawful_beq_subsingleton _ _

section Corrections
variable {host : TextHost} {lines : List Text} {width : Nat} {mismatches : List HashMismatch}
  {offset : Int}

theorem anchorText_injective {line line' : Nat} {hash hash' : Text} (h : IsHash hash)
    (h' : IsHash hash') (heq : anchorText line hash = anchorText line' hash') :
    line = line' ∧ hash = hash' := by
  have hparse := (parse_anchorText h).symm.trans (heq ▸ parse_anchorText h')
  have hanchor := Except.ok.inj hparse
  exact ⟨congrArg HashAnchor.line hanchor, congrArg HashAnchor.hash hanchor⟩

theorem lookup_correctionsOf {m : HashMismatch} (hm : m ∈ mismatches)
    (hhash : ∀ m ∈ mismatches, IsHash m.expected) :
    (correctionsOf host lines width mismatches offset).lookup (anchorText m.line m.expected) =
      some (corrected host lines width m offset) := by
  have hfold : ∀ (rest : List HashMismatch) (corrections : List (Text × Text)),
      (∀ m ∈ rest, IsHash m.expected) →
      m ∈ rest ∨ corrections.lookup (anchorText m.line m.expected) =
        some (corrected host lines width m offset) →
      (rest.foldl (fun corrections m => assign (anchorText m.line m.expected)
        (corrected host lines width m offset) corrections) corrections).lookup
          (anchorText m.line m.expected) = some (corrected host lines width m offset) := by
    intro rest
    induction rest with
    | nil =>
      rintro corrections - (hmem | hfound)
      · exact nomatch hmem
      · exact hfound
    | cons next rest ih =>
      intro corrections hhashes hor
      rw [foldl_cons]
      apply ih _ fun m hm => hhashes m (.tail _ hm)
      by_cases hkey : anchorText m.line m.expected = anchorText next.line next.expected
      · right
        obtain ⟨hline, hexpected⟩ := anchorText_injective (hhash m hm)
          (hhashes next (.head _)) hkey
        rw [hkey, lookup_text, lookup_assign_self]
        unfold corrected contentAt
        rw [hline]
      · rcases hor with hmem | hfound
        · rcases mem_cons.1 hmem with rfl | hmem
          · exact absurd rfl hkey
          · exact .inl hmem
        · right
          rw [lookup_text, lookup_assign_ne _ _ hkey, ← lookup_text, hfound]
  exact hfold mismatches [] hhash (.inl hm)

theorem mem_correctionsOf {text value : Text}
    (h : (correctionsOf host lines width mismatches offset).lookup text = some value) :
    ∃ m ∈ mismatches, text = anchorText m.line m.expected := by
  have hfold : ∀ (rest : List HashMismatch) (corrections : List (Text × Text)),
      text ∈ (rest.foldl (fun corrections m => assign (anchorText m.line m.expected)
        (corrected host lines width m offset) corrections) corrections).map Prod.fst →
      text ∈ corrections.map Prod.fst ∨ ∃ m ∈ rest, text = anchorText m.line m.expected := by
    intro rest
    induction rest with
    | nil => exact fun _ hmem => .inl hmem
    | cons next rest ih =>
      intro corrections hmem
      rw [foldl_cons] at hmem
      rcases ih _ hmem with hmem | ⟨m, hm, htext⟩
      · rcases mem_assign_keys.1 hmem with rfl | hmem
        · exact .inr ⟨next, .head _, rfl⟩
        · exact .inl hmem
      · exact .inr ⟨m, mem_cons_of_mem _ hm, htext⟩
  rcases hfold mismatches [] (mem_keys_of_lookup (lookup_text _ _ ▸ h)) with hmem | hfound
  · exact nomatch hmem
  · exact hfound

theorem corrected_holds {m : HashMismatch} {line : Nat} (hshort : 2 ≤ width) (hlong : width ≤ 8)
    (h : Leads host lines width m offset line) :
    ∃ anchor, parseLineRef (corrected host lines width m offset) = .ok anchor ∧
      anchor.line = line ∧ anchorMismatch host lines anchor width = none := by
  obtain ⟨hline, hcontent⟩ := h.content
  refine ⟨⟨line, computeLineHash host (contentAt lines m offset) width line⟩, ?_, rfl, ?_⟩
  · unfold corrected
    rw [← hline]
    exact parse_anchorText (isHash_computeLineHash host _ line hshort hlong)
  · have hlt : line - 1 < lines.length := by
      have := h.first
      have := h.last
      omega
    unfold anchorMismatch
    rw [if_pos h.first, getElem?_eq_getElem hlt]
    rw [← hcontent, getD_eq_getElem?_getD, getElem?_eq_getElem hlt]
    exact if_pos rfl

end Corrections

section Batch
variable {host : TextHost} {lines : List Text} {width : Nat} {edits : List EditOp}
  {mismatches : List HashMismatch} {corrections : List (Text × Text)}

def remapRef (corrections : List (Text × Text)) (ref : Text) : Text :=
  (corrections.lookup ref).getD ref

theorem collectLineRefs_remap (hvalues : ∀ text value, corrections.lookup text = some value →
    value ≠ []) (edits : List EditOp) :
    collectLineRefs (remapEditAnchors edits corrections) =
      (collectLineRefs edits).map (remapRef corrections) := by
  have hanchor : ∀ anchor : Option Text, givenAnchor (remapAnchor corrections anchor) =
      (givenAnchor anchor).map (remapRef corrections) := by
    intro anchor
    unfold remapAnchor
    cases hgiven : givenAnchor anchor with
    | none => exact hgiven
    | some text =>
      obtain ⟨rfl, hne⟩ : anchor = some text ∧ decide (text ≠ []) = true :=
        Option.filter_eq_some_iff.1 hgiven
      show givenAnchor ((corrections.lookup text).or (some text)) = some (remapRef corrections text)
      unfold remapRef
      cases hfound : corrections.lookup text with
      | none => exact hgiven
      | some value =>
        show Option.filter _ (some value) = some value
        rw [Option.filter_some, if_pos (decide_eq_true (hvalues text value hfound))]
  have hpos : ∀ pos : Text, givenAnchor (some ((remapAnchor corrections (some pos)).getD pos)) =
      (givenAnchor (some pos)).map (remapRef corrections) := by
    intro pos
    rw [← hanchor]
    unfold remapAnchor
    cases givenAnchor (some pos) with
    | none => rfl
    | some text =>
      cases hfound : corrections.lookup text with
      | none => simp [hfound]
      | some value => simp [hfound]
  unfold collectLineRefs remapEditAnchors
  rw [flatMap_map, map_flatMap]
  congr 1
  funext edit
  cases edit with
  | replace pos endPos lines =>
    simp only [EditOp.pos, EditOp.endPos, hpos, hanchor, map_append]
    cases givenAnchor (some pos) <;> cases givenAnchor endPos <;> rfl
  | append pos lines | prepend pos lines =>
    simp only [EditOp.pos, EditOp.endPos, hanchor, map_append]
    cases givenAnchor pos <;> rfl

/-- An anchor that reads as one that does not hold. -/
def Stale (host : TextHost) (lines : List Text) (width : Nat) (ref : Text) (mismatch : HashMismatch) :
    Prop :=
  ∃ anchor, parseLineRef ref = .ok anchor ∧ anchorMismatch host lines anchor width = some mismatch

def Targets (host : TextHost) (lines : List Text) (width : Nat) (ref : Text) (line : Nat) : Prop :=
  ∃ anchor, parseLineRef ref = .ok anchor ∧ anchor.line = line ∧
    anchorMismatch host lines anchor width = none

/-- One offset moves every stale anchor to the only content there is, and leaves none stale. -/
def SoundCorrections (host : TextHost) (lines : List Text) (width : Nat) (edits : List EditOp)
    (mismatches : List HashMismatch) (corrections : List (Text × Text)) : Prop :=
  ∃ offset, Qualifies host lines width mismatches offset ∧
    (∀ other, Qualifies host lines width mismatches other →
      ∀ m ∈ mismatches, contentAt lines m other = contentAt lines m offset) ∧
    Forall₂ (fun before after => ∀ m, Stale host lines width before m →
        ∃ line, Leads host lines width m offset line ∧ Targets host lines width after line)
      (collectLineRefs edits) (collectLineRefs (remapEditAnchors edits corrections))

theorem Stale.anchor {ref : Text} {m : HashMismatch} (h : Stale host lines width ref m) :
    parseLineRef ref = .ok { line := m.line, hash := m.expected } := by
  obtain ⟨anchor, hparse, hmismatch⟩ := h
  have hm : m.line = anchor.line ∧ m.expected = anchor.hash := by
    unfold anchorMismatch at hmismatch
    split at hmismatch
    · cases hmismatch
      exact ⟨rfl, rfl⟩
    · dsimp only at hmismatch
      split_ifs at hmismatch
      cases hmismatch
      exact ⟨rfl, rfl⟩
  rw [hparse, hm.1, hm.2]

theorem parse_not_mismatch (ref : Text) (found : List HashMismatch) (fileLines : List Text) :
    parseLineRef ref ≠ .error (.mismatch found fileLines) := by
  intro h
  obtain ⟨cleaned, hparse⟩ := parse_cleaned ref
  rw [hparse] at h
  dsimp only at h
  split at h
  · exact nomatch h
  · exact nomatch h

theorem mem_mismatches {refs fileLines : List Text}
    (h : validateLineRefs host lines refs width = .error (.mismatch mismatches fileLines)) :
    mismatches ≠ [] ∧ ∀ m, m ∈ mismatches ↔ ∃ ref ∈ refs, Stale host lines width ref m := by
  unfold validateLineRefs at h
  cases hanchors : refs.mapM parseLineRef with
  | error e =>
    rw [hanchors] at h
    obtain rfl := Except.error.inj h
    obtain ⟨ref, -, hparse⟩ := mapM_error_mem hanchors
    exact absurd hparse (parse_not_mismatch ref _ _)
  | ok anchors =>
    rw [hanchors, ok_bind] at h
    dsimp only at h
    split_ifs at h with hsome
    · obtain ⟨rfl, -⟩ := EditError.mismatch.inj (Except.error.inj h)
      refine ⟨hsome, ?_⟩
      intro m
      rw [mem_filterMap]
      constructor
      · rintro ⟨anchor, hanchor, hm⟩
        obtain ⟨ref, href, hparse⟩ := mem_mapM_ok hanchors hanchor
        exact ⟨ref, href, anchor, hparse, hm⟩
      · rintro ⟨ref, href, anchor, hparse, hm⟩
        obtain ⟨anchor', hanchor', hparse'⟩ := mapM_ok_mem hanchors href
        obtain rfl := Except.ok.inj (hparse.symm.trans hparse')
        exact ⟨anchor, hanchor', hm⟩
    · exact nomatch h

/-- Corrections are sound exactly when stale anchors are a line number, a sign and a hash. -/
theorem corrections_sound_iff {fileLines : List Text} (hshort : 2 ≤ width) (hlong : width ≤ 8)
    (hvalid : validateLineRefs host lines (collectLineRefs edits) width =
      .error (.mismatch mismatches fileLines))
    (hdetect : detectUniformOffset host mismatches lines width = .ok (some corrections)) :
    SoundCorrections host lines width edits mismatches corrections ↔
      ∀ ref ∈ collectLineRefs edits, ∀ m, Stale host lines width ref m →
        ref = anchorText m.line m.expected := by
  obtain ⟨hne, hmem⟩ := mem_mismatches hvalid
  obtain ⟨offset, hqualifies, hcontent, rfl⟩ := detect_spec hdetect hne
  have hhash : ∀ m ∈ mismatches, IsHash m.expected := by
    intro m hm
    obtain ⟨ref, -, hstale⟩ := (hmem m).1 hm
    exact isHash_of_parse hstale.anchor
  have hvalues : ∀ text value,
      (correctionsOf host lines width mismatches offset).lookup text = some value → value ≠ [] := by
    intro text value hfound
    obtain ⟨m, hm, rfl⟩ := mem_correctionsOf hfound
    rw [lookup_correctionsOf hm hhash] at hfound
    cases hfound
    exact append_ne_nil_of_left_ne_nil (numeral_ne_nil _) _
  unfold SoundCorrections
  rw [collectLineRefs_remap hvalues]
  simp only [forall₂_map_right_iff, forall₂_same]
  constructor
  · rintro ⟨other, -, -, hcorrected⟩ ref href m hstale
    obtain ⟨line, -, anchor, hparse, -, hholds⟩ := hcorrected ref href m hstale
    unfold remapRef at hparse
    cases hfound : (correctionsOf host lines width mismatches offset).lookup ref with
    | none =>
      -- an anchor no correction is found for stays stale
      rw [hfound] at hparse
      obtain ⟨anchor', hparse', hmismatch⟩ := hstale
      obtain rfl := Except.ok.inj (hparse'.symm.trans hparse)
      exact nomatch hmismatch.symm.trans hholds
    | some value =>
      obtain ⟨m', hm', rfl⟩ := mem_correctionsOf hfound
      have hanchor := Except.ok.inj ((parse_anchorText (hhash m' hm')).symm.trans hstale.anchor)
      have hline : m'.line = m.line := congrArg HashAnchor.line hanchor
      have hexpected : m'.expected = m.expected := congrArg HashAnchor.hash hanchor
      rw [hline, hexpected]
  · intro hwritten
    refine ⟨offset, hqualifies, hcontent, ?_⟩
    intro ref href m hstale
    have hm := (hmem m).2 ⟨ref, href, hstale⟩
    obtain ⟨line, hleads⟩ := hqualifies m hm
    refine ⟨line, hleads, ?_⟩
    have hremap : remapRef (correctionsOf host lines width mismatches offset) ref =
        corrected host lines width m offset := by
      unfold remapRef
      rw [hwritten ref href m hstale, lookup_correctionsOf hm hhash]
      rfl
    rw [hremap]
    exact corrected_holds hshort hlong hleads

end Batch

def shiftedHost : TextHost where
  sha256 := fun bytes =>
    if bytes = utf8 "ab".toList then
      [251, 142, 32, 252, 46, 76, 63, 36, 140, 96, 195, 155, 214, 82, 243, 193,
        52, 114, 152, 187, 151, 123, 139, 77, 89, 3, 184, 80, 85, 98, 6, 3]
    else
      [33, 231, 33, 195, 90, 88, 35, 253, 180, 82, 250, 47, 159, 10, 97, 44,
        116, 251, 149, 46, 6, 146, 116, 137, 198, 178, 122, 67, 184, 23, 190, 212]
  isLetterOrNumber := Char.isAlphanum
  widthOverride := none

def shiftedLines : List Text := ["cd".toList, "ab".toList]

def shiftedEdits (anchor : String) : List EditOp := [.replace anchor.toList none (.text ['z'])]

def shiftedMismatch : HashMismatch := ⟨1, "4g".toList, some "ch".toList⟩

theorem shifted_stale (anchor : String) (h : anchor = "1#4g" ∨ anchor = ">>> 1#4g") :
    validateLineRefs shiftedHost shiftedLines (collectLineRefs (shiftedEdits anchor)) 2 =
      .error (.mismatch [shiftedMismatch] shiftedLines) := by
  rcases h with rfl | rfl
  · decide +kernel
  · decide +kernel

theorem shifted_detected :
    detectUniformOffset shiftedHost [shiftedMismatch] shiftedLines 2 =
      .ok (some [("1#4g".toList, "2#4g".toList)]) := by
  decide +kernel

theorem shifted_parse (anchor : String) (h : anchor = "1#4g" ∨ anchor = ">>> 1#4g") :
    parseLineRef anchor.toList = .ok { line := 1, hash := "4g".toList } := by
  rcases h with rfl | rfl
  · decide +kernel
  · decide +kernel

theorem corrections_sound_shifted :
    SoundCorrections shiftedHost shiftedLines 2 (shiftedEdits "1#4g") [shiftedMismatch]
      [("1#4g".toList, "2#4g".toList)] := by
  apply (corrections_sound_iff (by decide) (by decide) (shifted_stale _ (.inl rfl))
    shifted_detected).2
  intro ref href m hstale
  obtain rfl := mem_singleton.1 href
  have hanchor := Except.ok.inj ((shifted_parse "1#4g" (.inl rfl)).symm.trans hstale.anchor)
  have hline : 1 = m.line := congrArg HashAnchor.line hanchor
  have hexpected : "4g".toList = m.expected := congrArg HashAnchor.hash hanchor
  rw [← hline, ← hexpected]
  decide +kernel

/-- An anchor with a marker before it is found stale and never corrected. -/
theorem corrections_unsound_marked :
    ¬ ∀ (host : TextHost) (lines fileLines : List Text) (width : Nat) (edits : List EditOp)
      (mismatches : List HashMismatch) (corrections : List (Text × Text)), 2 ≤ width → width ≤ 8 →
      validateLineRefs host lines (collectLineRefs edits) width =
        .error (.mismatch mismatches fileLines) →
      detectUniformOffset host mismatches lines width = .ok (some corrections) →
      SoundCorrections host lines width edits mismatches corrections := by
  intro hall
  obtain ⟨offset, -, -, hcorrected⟩ := hall shiftedHost shiftedLines shiftedLines 2
    (shiftedEdits ">>> 1#4g") [shiftedMismatch] [("1#4g".toList, "2#4g".toList)] (by decide)
    (by decide) (shifted_stale _ (.inr rfl)) shifted_detected
  have hparse := shifted_parse ">>> 1#4g" (.inr rfl)
  have hmismatch : anchorMismatch shiftedHost shiftedLines { line := 1, hash := "4g".toList } 2 =
      some shiftedMismatch := by
    decide +kernel
  have hkept : collectLineRefs (remapEditAnchors (shiftedEdits ">>> 1#4g")
      [("1#4g".toList, "2#4g".toList)]) = [">>> 1#4g".toList] := by
    decide +kernel
  rw [hkept] at hcorrected
  have hrefs : collectLineRefs (shiftedEdits ">>> 1#4g") = [">>> 1#4g".toList] := by
    decide +kernel
  rw [hrefs, forall₂_cons] at hcorrected
  obtain ⟨line, -, anchor, hparse', -, hholds⟩ :=
    hcorrected.1 shiftedMismatch ⟨_, hparse, hmismatch⟩
  obtain rfl := Except.ok.inj (hparse.symm.trans hparse')
  exact nomatch hmismatch.symm.trans hholds
end Rolebox.Hashline.EditTool
