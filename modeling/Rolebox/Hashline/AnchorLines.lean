import Mathlib.Data.List.TakeWhile
import Rolebox.Hashline.Anchors

/-! The line number of an anchor: the first digits after its markers. -/

namespace Rolebox.Hashline
open List

section Blank
variable {text : Text}

def Starts (p : Char → Bool) (text : Text) : Prop := ∀ c ∈ text.head?, p c = false

theorem takeWhile_append_of_starts {p : Char → Bool} (front : Text) {rest : Text}
    (h : Starts p rest) : (front ++ rest).takeWhile p = front.takeWhile p := by
  have hrest : rest.takeWhile p = [] := by
    cases rest with
    | nil => rfl
    | cons c rest => exact takeWhile_cons_of_neg (by simp [h c rfl])
  induction front with
  | nil => exact hrest
  | cons c front ih =>
    by_cases hc : p c = true
    · rw [cons_append, takeWhile_cons_of_pos hc, takeWhile_cons_of_pos hc, ih]
    · rw [cons_append, takeWhile_cons_of_neg hc, takeWhile_cons_of_neg hc]

theorem trimStart_append_of_ne_nil (h : trimStart text ≠ []) (rest : Text) :
    trimStart (text ++ rest) = trimStart text ++ rest := by
  have hne : ¬ (text.dropWhile isWhitespace).isEmpty = true := by simpa [trimStart] using h
  rw [trimStart, dropWhile_append, if_neg hne]
  rfl

theorem trimStart_append_of_eq_nil (h : trimStart text = []) (rest : Text) :
    trimStart (text ++ rest) = trimStart rest := by
  have hnil : (text.dropWhile isWhitespace).isEmpty = true := by simpa [trimStart] using h
  rw [trimStart, dropWhile_append, if_pos hnil]
  rfl

theorem trimStart_of_starts (h : Starts isWhitespace text) : trimStart text = text := by
  cases text with
  | nil => rfl
  | cons c text => exact dropWhile_cons_of_neg (by simp [h c rfl])

def Padded (text padded : Text) : Prop :=
  ∃ space, (∀ c ∈ space, isWhitespace c = true) ∧ padded = text ++ space

theorem Padded.refl (text : Text) : Padded text text := ⟨[], nofun, (append_nil text).symm⟩

theorem trimStart_space {space : Text} (h : ∀ c ∈ space, isWhitespace c = true) :
    trimStart space = [] := by
  exact dropWhile_eq_nil_iff.2 h

theorem Padded.trimStart {padded : Text} (h : Padded text padded) :
    Padded (trimStart text) (trimStart padded) := by
  obtain ⟨space, hspace, rfl⟩ := h
  by_cases hnil : Hashline.trimStart text = []
  · rw [trimStart_append_of_eq_nil hnil, hnil, trimStart_space hspace]
    exact Padded.refl []
  · rw [trimStart_append_of_ne_nil hnil]
    exact ⟨space, hspace, rfl⟩

theorem padded_trimEnd (text : Text) : Padded (trimEnd text) text := by
  refine ⟨(text.reverse.takeWhile isWhitespace).reverse, ?_, ?_⟩
  · intro c hc
    exact mem_takeWhile_imp (mem_reverse.1 hc)
  · rw [trimEnd, ← reverse_append, takeWhile_append_dropWhile, reverse_reverse]

end Blank

section Markers
variable {text rest : Text}

def unsign (marked : Text) : Text :=
  if marked.head? = some '+' ∨ marked.head? = some '-' then trimStart marked.tail else marked

theorem unsign_cons (c : Char) (marked : Text) :
    unsign (c :: marked) = if c = '+' ∨ c = '-' then trimStart marked else c :: marked := by
  simp [unsign]

def unmark (text : Text) : Text := unsign (stripMarker ">>>".toList text)

def anchorDigits (ref : Text) : Text :=
  (trimStart (unmark (trimStart ref))).takeWhile isDigit

structure Ends (c : Char) : Prop where
  marker : c ∉ ">>>".toList
  plus : c ≠ '+'
  minus : c ≠ '-'

theorem ends_bar : Ends '|' := ⟨by decide, by decide, by decide⟩

theorem ends_of_space {c : Char} (h : isWhitespace c = true) : Ends c := by
  refine ⟨?_, ?_, ?_⟩
  · intro hmem
    have hc : c = '>' := by simpa using hmem
    subst hc
    exact absurd h (by decide)
  · rintro rfl
    exact absurd h (by decide)
  · rintro rfl
    exact absurd h (by decide)

theorem isPrefixOf_append {marker : Text} (h : ∀ c ∈ rest.head?, c ∉ marker) :
    marker.isPrefixOf (text ++ rest) = marker.isPrefixOf text := by
  induction marker generalizing text with
  | nil => rfl
  | cons m marker ih =>
    cases text with
    | nil =>
      cases rest with
      | nil => rfl
      | cons c rest =>
        have hne : (m == c) = false := by
          simpa using fun hmc : m = c => h c rfl (by simp [hmc])
        show ((m == c) && marker.isPrefixOf rest) = false
        rw [hne, Bool.false_and]
    | cons c text =>
      have hrest : ∀ c ∈ rest.head?, c ∉ marker :=
        fun c hc hmem => h c hc (mem_cons_of_mem m hmem)
      show ((m == c) && marker.isPrefixOf (text ++ rest)) = ((m == c) && marker.isPrefixOf text)
      rw [ih hrest]

theorem stripMarker_append (h : ∀ c ∈ rest.head?, Ends c) :
    stripMarker ">>>".toList (text ++ rest) =
      if ">>>".toList.isPrefixOf text then trimStart (text.drop 3 ++ rest) else text ++ rest := by
  rw [stripMarker, isPrefixOf_append fun c hc => (h c hc).marker]
  by_cases hbegins : ">>>".toList.isPrefixOf text = true
  · have hlength : 3 ≤ text.length := (List.isPrefixOf_iff_prefix.1 hbegins).length_le
    rw [if_pos hbegins, if_pos hbegins, ← drop_append_of_le_length hlength]
    rfl
  · rw [if_neg hbegins, if_neg hbegins]

theorem Padded.head? {padded : Text} (h : Padded text padded) (hnil : text = []) :
    ∀ c ∈ padded.head?, Ends c := by
  obtain ⟨space, hspace, rfl⟩ := h
  subst hnil
  intro c hc
  exact ends_of_space (hspace c (mem_of_mem_head? hc))

theorem Padded.unmark {padded : Text} (h : Padded text padded) :
    Padded (unmark text) (unmark padded) := by
  have hmarked : Padded (stripMarker ">>>".toList text) (stripMarker ">>>".toList padded) := by
    obtain ⟨space, hspace, rfl⟩ := h
    have hends : ∀ c ∈ space.head?, Ends c :=
      fun c hc => ends_of_space (hspace c (mem_of_mem_head? hc))
    rw [stripMarker_append hends, stripMarker]
    split
    · exact Padded.trimStart ⟨space, hspace, rfl⟩
    · exact ⟨space, hspace, rfl⟩
  rw [Hashline.unmark, Hashline.unmark]
  generalize stripMarker ">>>".toList text = marked at hmarked
  generalize stripMarker ">>>".toList padded = marked' at hmarked
  cases marked with
  | nil =>
    have hends := hmarked.head? rfl
    have hsign : ¬ (marked'.head? = some '+' ∨ marked'.head? = some '-') := by
      rintro (hplus | hminus)
      · exact (hends '+' hplus).plus rfl
      · exact (hends '-' hminus).minus rfl
    rw [unsign, unsign, if_neg hsign]
    exact hmarked
  | cons c marked =>
    obtain ⟨space, hspace, rfl⟩ := hmarked
    rw [cons_append, unsign_cons, unsign_cons]
    by_cases hsign : c = '+' ∨ c = '-'
    · rw [if_pos hsign, if_pos hsign]
      exact Padded.trimStart ⟨space, hspace, rfl⟩
    · rw [if_neg hsign, if_neg hsign]
      exact ⟨space, hspace, rfl⟩

theorem unmark_append (h : ∀ c ∈ rest.head?, Ends c) (hne : unmark text ≠ []) :
    unmark (text ++ rest) = unmark text ++ rest := by
  have hmarked (hmarkedNe : stripMarker ">>>".toList text ≠ []) :
      stripMarker ">>>".toList (text ++ rest) = stripMarker ">>>".toList text ++ rest := by
    rw [stripMarker_append h]
    rw [stripMarker] at hmarkedNe ⊢
    split
    · case isTrue hbegins =>
      rw [if_pos hbegins] at hmarkedNe
      exact trimStart_append_of_ne_nil hmarkedNe rest
    · rfl
  rw [unmark] at hne ⊢
  cases hcase : stripMarker ">>>".toList text with
  | nil =>
    rw [hcase] at hne
    exact absurd rfl hne
  | cons c marked =>
    rw [hmarked (by rw [hcase]; exact cons_ne_nil c marked), unmark, hcase, cons_append,
      unsign_cons, unsign_cons]
    rw [hcase, unsign_cons] at hne
    by_cases hsign : c = '+' ∨ c = '-'
    · rw [if_pos hsign] at hne
      rw [if_pos hsign, if_pos hsign]
      exact trimStart_append_of_ne_nil hne rest
    · rw [if_neg hsign, if_neg hsign]
      rfl

end Markers

theorem exists_front (text : Text) :
    ∃ front rest cut, text = front ++ rest ∧ stripContent (closeHash text) = front ++ cut ∧
      (∀ c ∈ rest.head?, c = '#' ∨ c = '|') ∧ ∀ c ∈ cut.head?, c = '#' ∨ c = '|' := by
  induction text with
  | nil => exact ⟨[], [], [], rfl, rfl, nofun, nofun⟩
  | cons c text ih =>
    by_cases hhash : c = '#'
    · subst hhash
      obtain ⟨closed, hclosed⟩ : ∃ closed, closeHash ('#' :: text) = '#' :: closed := by
        rw [closeHash]
        split
        · exact ⟨_, rfl⟩
        · exact ⟨_, rfl⟩
      refine ⟨[], '#' :: text, '#' :: stripContent closed, rfl, ?_, ?_, ?_⟩
      · rw [hclosed, stripContent, if_neg (by simp), nil_append]
      · intro c hc
        exact .inl (Option.some.inj hc).symm
      · intro c hc
        exact .inl (Option.some.inj hc).symm
    · have hclosed : closeHash (c :: text) = c :: closeHash text := by
        rw [closeHash, if_neg (fun h => hhash h.1)]
      by_cases hbar : c = '|'
      · subst hbar
        refine ⟨[], '|' :: text, stripContent ('|' :: closeHash text), rfl, by rw [hclosed]; rfl,
          fun c hc => .inr (Option.some.inj hc).symm, ?_⟩
        intro c hc
        rw [stripContent] at hc
        split at hc
        · exact nomatch hc
        · exact .inr (Option.some.inj hc).symm
      · obtain ⟨front, rest, cut, htext, hcut, hrest, hends⟩ := ih
        refine ⟨c :: front, rest, cut, by rw [htext]; rfl, ?_, hrest, hends⟩
        rw [hclosed, stripContent, if_neg (fun h => hbar h.1), hcut]
        rfl

theorem digits_trimStart {front rest cut : Text} (hrest : ∀ c ∈ rest.head?, c = '#' ∨ c = '|')
    (hcut : ∀ c ∈ cut.head?, c = '#' ∨ c = '|') :
    (trimStart (front ++ cut)).takeWhile isDigit = (trimStart (front ++ rest)).takeWhile isDigit := by
  have hstops {text : Text} (h : ∀ c ∈ text.head?, c = '#' ∨ c = '|') :
      Starts isDigit text ∧ Starts isWhitespace text := by
    constructor
    · intro c hc
      rcases h c hc with rfl | rfl <;> decide
    · intro c hc
      rcases h c hc with rfl | rfl <;> decide
  have hnone {text : Text} (h : Starts isDigit text) : text.takeWhile isDigit = [] := by
    simpa using takeWhile_append_of_starts [] h
  by_cases hnil : trimStart front = []
  · rw [trimStart_append_of_eq_nil hnil, trimStart_append_of_eq_nil hnil,
      trimStart_of_starts (hstops hcut).2, trimStart_of_starts (hstops hrest).2,
      hnone (hstops hcut).1, hnone (hstops hrest).1]
  · rw [trimStart_append_of_ne_nil hnil, trimStart_append_of_ne_nil hnil,
      takeWhile_append_of_starts _ (hstops hcut).1, takeWhile_append_of_starts _ (hstops hrest).1]

theorem Padded.digits {text padded : Text} (h : Padded text padded) :
    padded.takeWhile isDigit = text.takeWhile isDigit := by
  obtain ⟨space, hspace, rfl⟩ := h
  apply takeWhile_append_of_starts
  intro c hc
  have hwhite := hspace c (mem_of_mem_head? hc)
  simp only [isWhitespace, Bool.decide_or, Bool.decide_and, Bool.or_eq_true, Bool.and_eq_true,
    decide_eq_true_eq] at hwhite
  simp only [isDigit, Bool.decide_and, Bool.and_eq_false_iff, decide_eq_false_iff_not]
  omega

theorem line_of_parse {ref : Text} {anchor : HashAnchor} (h : parseLineRef ref = .ok anchor) :
    anchorDigits ref ≠ [] ∧ anchor.line = digitsValue (anchorDigits ref) := by
  obtain ⟨front, rest, cut, hfront, hcut, hrest, hends⟩ := exists_front (unmark (trim ref))
  have hcleaned : (trim (stripContent (closeHash (unmark (trim ref))))).takeWhile isDigit =
      anchorDigits ref := by
    have hpadded : Padded (trimStart (unmark (trim ref))) (trimStart (unmark (trimStart ref))) :=
      (padded_trimEnd (trimStart ref)).unmark.trimStart
    rw [anchorDigits, hpadded.digits, trim, ← (padded_trimEnd _).digits, hcut, hfront]
    exact digits_trimStart hrest hends
  have hparse : parseLineRef ref =
      let cleaned := trim (stripContent (closeHash (unmark (trim ref))))
      let digits := cleaned.takeWhile isDigit
      let hash := (cleaned.drop digits.length).tail
      if digits ≠ [] ∧ (cleaned.drop digits.length).head? = some '#' ∧
          hash.all isAnchorChar = true ∧ 2 ≤ hash.length ∧ hash.length ≤ 8 then
        .ok { line := digitsValue digits, hash := hash }
      else .error (.error ("Invalid line reference: \"".toList ++ ref ++
        "\". Expected format: LINE#HASH (e.g., \"42#aB3\")".toList)) := rfl
  rw [hparse] at h
  dsimp only at h
  rw [hcleaned] at h
  split at h
  · case isTrue hparsed =>
    refine ⟨hparsed.1, ?_⟩
    cases h
    rfl
  · exact nomatch h

theorem line_of_bar {ref rest : Text} {anchor anchor' : HashAnchor}
    (h : parseLineRef ref = .ok anchor) (h' : parseLineRef (ref ++ '|' :: rest) = .ok anchor') :
    anchor.line = anchor'.line := by
  obtain ⟨hne, hline⟩ := line_of_parse h
  obtain ⟨-, hline'⟩ := line_of_parse h'
  have hends : ∀ c ∈ ('|' :: rest).head?, Ends c := by
    intro c hc
    obtain rfl : '|' = c := Option.some.inj hc
    exact ends_bar
  have hsame : anchorDigits (ref ++ '|' :: rest) = anchorDigits ref := by
    have hlead : trimStart (unmark (trimStart ref)) ≠ [] := by
      intro hnil
      rw [anchorDigits, hnil] at hne
      exact hne rfl
    have hunmark : unmark (trimStart ref) ≠ [] := by
      intro hnil
      rw [hnil] at hlead
      exact hlead rfl
    have htrim : trimStart ref ≠ [] := by
      intro hnil
      rw [hnil] at hunmark
      exact hunmark rfl
    rw [anchorDigits, anchorDigits, trimStart_append_of_ne_nil htrim, unmark_append hends hunmark,
      trimStart_append_of_ne_nil hlead]
    apply takeWhile_append_of_starts
    intro c hc
    obtain rfl : '|' = c := Option.some.inj hc
    decide
  rw [hline, hline', hsame]

theorem parse_bar (rest : Text) (anchor : HashAnchor) : parseLineRef ('|' :: rest) ≠ .ok anchor := by
  intro h
  obtain ⟨hne, -⟩ := line_of_parse h
  apply hne
  rfl
end Rolebox.Hashline
