import Rolebox.Hashline.Text

/-! Writing a text back in a file's own line endings, and reading it again. -/

namespace Rolebox.Hashline
open General List

def assemble (eolAt : Nat → LineEnding) (i : Nat) (content : Text) : Text :=
  restoreSegments eolAt i (content.splitOn '\n')

section Assemble
variable {eolAt : Nat → LineEnding} {i : Nat} {line rest content : Text}

theorem cr_ne_newline : '\r' ≠ '\n' := by decide

theorem assemble_last (h : '\n' ∉ line) : assemble eolAt i line = line := by
  unfold assemble
  rw [splitOn_eq_singleton h]
  rfl

theorem assemble_line (h : '\n' ∉ line) (rest : Text) :
    assemble eolAt i (line ++ '\n' :: rest) =
      (if eolAt i = .crlf then dropTrailing '\r' line else line) ++ (eolAt i).text ++
        assemble eolAt (i + 1) rest := by
  unfold assemble
  rw [splitOn_line h]
  obtain ⟨next, segments, hrest⟩ := exists_cons_of_ne_nil (splitOn_ne_nil '\n' rest)
  rw [hrest]
  rfl

theorem not_mem_dropTrailing (h : '\n' ∉ line) : '\n' ∉ dropTrailing '\r' line := by
  unfold dropTrailing
  split
  · exact fun hmem => h (mem_of_mem_dropLast hmem)
  · exact h

theorem crlf_line (line rest : Text) :
    dropTrailing '\r' line ++ LineEnding.crlf.text ++ rest =
      (dropTrailing '\r' line ++ ['\r']) ++ '\n' :: rest := by
  simp [LineEnding.text]

theorem squeeze_crlf_line (h : '\n' ∉ line) (rest : Text) :
    squeeze '\r' '\n' (dropTrailing '\r' line ++ LineEnding.crlf.text ++ rest) =
      dropTrailing '\r' line ++ '\n' :: squeeze '\r' '\n' rest := by
  have hmark : '\n' ∉ dropTrailing '\r' line ++ ['\r'] := by
    simpa using not_mem_dropTrailing h
  rw [crlf_line, squeeze_line cr_ne_newline hmark]
  simp [dropTrailing]

theorem squeeze_assemble (content : Text) (i : Nat) :
    squeeze '\r' '\n' (assemble eolAt i content) = squeeze '\r' '\n' content := by
  induction content using lines_induction '\n' generalizing i with
  | last line h => rw [assemble_last h]
  | line line rest h ih =>
    rw [assemble_line h, squeeze_line cr_ne_newline h]
    cases heol : eolAt i with
    | crlf => rw [if_pos rfl, squeeze_crlf_line h, ih]
    | lf =>
      have hshape : line ++ LineEnding.lf.text ++ assemble eolAt (i + 1) rest =
          line ++ '\n' :: assemble eolAt (i + 1) rest := by simp [LineEnding.text]
      rw [if_neg (by decide), hshape, squeeze_line cr_ne_newline h, ih]

theorem pair_infix_assemble (content : Text) (i : Nat) :
    ['\r', '\n'] <:+: assemble eolAt i content ↔
      ['\r', '\n'] <:+: content ∨ ∃ j < content.count '\n', eolAt (i + j) = .crlf := by
  induction content using lines_induction '\n' generalizing i with
  | last line h =>
    rw [assemble_last h, count_eq_zero.2 h]
    simp
  | line line rest h ih =>
    have hcount : (line ++ '\n' :: rest).count '\n' = rest.count '\n' + 1 := by
      rw [count_append, count_eq_zero.2 h, count_cons_self, zero_add]
    -- the terminators of the rest are those after the first
    have hshift : (∃ j < rest.count '\n' + 1, eolAt (i + j) = .crlf) ↔
        eolAt i = .crlf ∨ ∃ j < rest.count '\n', eolAt (i + 1 + j) = .crlf := by
      constructor
      · rintro ⟨j, hj, heol⟩
        rcases j with _ | j
        · exact .inl heol
        · exact .inr ⟨j, by omega, by rwa [show i + 1 + j = i + (j + 1) by omega]⟩
      · rintro (heol | ⟨j, hj, heol⟩)
        · exact ⟨0, by omega, heol⟩
        · exact ⟨j + 1, by omega, by rwa [show i + (j + 1) = i + 1 + j by omega]⟩
    rw [assemble_line h, pair_infix_line cr_ne_newline h, hcount, hshift]
    cases heol : eolAt i with
    | crlf =>
      have hmark : '\n' ∉ dropTrailing '\r' line ++ ['\r'] := by
        simpa using not_mem_dropTrailing h
      rw [if_pos rfl, crlf_line, pair_infix_line cr_ne_newline hmark]
      simp
    | lf =>
      have hshape : line ++ LineEnding.lf.text ++ assemble eolAt (i + 1) rest =
          line ++ '\n' :: assemble eolAt (i + 1) rest := by simp [LineEnding.text]
      rw [if_neg (by decide), hshape, pair_infix_line cr_ne_newline h, ih]
      simp only [reduceCtorEq, false_or, or_assoc]

theorem assemble_lf (content : Text) {i : Nat}
    (h : ∀ j < content.count '\n', eolAt (i + j) = .lf) : assemble eolAt i content = content := by
  induction content using lines_induction '\n' generalizing i with
  | last line hline => exact assemble_last hline
  | line line rest hline ih =>
    have hcount : (line ++ '\n' :: rest).count '\n' = rest.count '\n' + 1 := by
      rw [count_append, count_eq_zero.2 hline, count_cons_self, zero_add]
    rw [hcount] at h
    have hfirst : eolAt i = .lf := h 0 (by omega)
    have hrest := ih (i := i + 1) fun j hj => by
      rw [show i + 1 + j = i + (j + 1) by omega]
      exact h (j + 1) (by omega)
    rw [assemble_line hline, hfirst, if_neg (by decide), hrest]
    simp [LineEnding.text]

theorem expandNewlines_last (h : '\n' ∉ line) : expandNewlines line = line := by
  induction line with
  | nil => rfl
  | cons c line ih =>
    obtain ⟨hc, hline⟩ : '\n' ≠ c ∧ '\n' ∉ line := by simpa using h
    have hhead : ¬ (c = '\r' ∧ line.head? = some '\n') :=
      fun hpair => hline (mem_of_head? hpair.2)
    rw [expandNewlines, if_neg hhead, if_neg hc.symm, ih hline]

theorem expandNewlines_line (h : '\n' ∉ line) (rest : Text) :
    expandNewlines (line ++ '\n' :: rest) =
      dropTrailing '\r' line ++ LineEnding.crlf.text ++ expandNewlines rest := by
  induction line with
  | nil =>
    rw [nil_append, expandNewlines, if_neg fun hpair => absurd hpair.1 (by decide), if_pos rfl]
    rfl
  | cons c line ih =>
    obtain ⟨hc, hline⟩ : '\n' ≠ c ∧ '\n' ∉ line := by simpa using h
    rw [cons_append, expandNewlines, ih hline]
    cases line with
    | nil => by_cases hcr : c = '\r' <;> simp [dropTrailing, hcr, hc.symm]
    | cons d line =>
      have hd : d ≠ '\n' := by
        rintro rfl
        exact hline (.head _)
      by_cases hlast : (d :: line).getLast? = some '\r'
      · simp [dropTrailing, getLast?_cons_cons, hlast, hd, hc.symm]
      · simp [dropTrailing, getLast?_cons_cons, hlast, hd, hc.symm]

theorem assemble_crlf (h : ∀ j, eolAt j = .crlf) (content : Text) (i : Nat) :
    assemble eolAt i content = expandNewlines content := by
  induction content using lines_induction '\n' generalizing i with
  | last line hline => rw [assemble_last hline, expandNewlines_last hline]
  | line line rest hline ih =>
    rw [assemble_line hline, expandNewlines_line hline, ih, h i, if_pos rfl]

theorem assemble_cons {c : Char} (hnl : c ≠ '\n') (hcr : c ≠ '\r') (content : Text) :
    assemble eolAt i (c :: content) = c :: assemble eolAt i content := by
  induction content using lines_induction '\n' with
  | last line h =>
    have hcons : '\n' ∉ c :: line := by simp [h, hnl.symm]
    rw [assemble_last h, assemble_last hcons]
  | line line rest h =>
    have hcons : '\n' ∉ c :: line := by simp [h, hnl.symm]
    have hkept : dropTrailing '\r' (c :: line) = c :: dropTrailing '\r' line := by
      cases line with
      | nil => simp [dropTrailing, hcr]
      | cons d line =>
        by_cases hlast : (d :: line).getLast? = some '\r' <;>
          simp [dropTrailing, getLast?_cons_cons, hlast]
    rw [← cons_append, assemble_line h, assemble_line hcons, hkept]
    split <;> rfl

theorem head?_assemble {c : Char} (hnl : c ≠ '\n') (hcr : c ≠ '\r') :
    (assemble eolAt i content).head? = some c ↔ content.head? = some c := by
  cases content with
  | nil => rw [assemble_last (not_mem_nil)]
  | cons d content =>
    by_cases hdnl : d = '\n'
    · subst hdnl
      have hline : assemble eolAt i ([] ++ '\n' :: content) = _ := assemble_line not_mem_nil content
      rw [nil_append] at hline
      rw [hline]
      cases heol : eolAt i with
      | lf => simp [LineEnding.text]
      | crlf => simp [LineEnding.text, dropTrailing, hnl.symm, hcr.symm]
    · by_cases hdcr : d = '\r'
      · subst hdcr
        induction content using lines_induction '\n' with
        | last line h =>
          have hcons : '\n' ∉ '\r' :: line := by simp [h]
          rw [assemble_last hcons]
        | line line rest h =>
          have hcons : '\n' ∉ '\r' :: line := by simp [h]
          rw [← cons_append, assemble_line hcons]
          cases heol : eolAt i with
          | lf => simp
          | crlf =>
            cases line with
            | nil => simp [LineEnding.text, dropTrailing]
            | cons e line =>
              by_cases hlast : (e :: line).getLast? = some '\r' <;>
                simp [dropTrailing, getLast?_cons_cons, hlast]
      · rw [assemble_cons hdnl hdcr]
        rfl

end Assemble

section Restore
variable {content : Text} {envelope : FileTextEnvelope}

theorem eolAt_uniform
    (h : envelope.lineEols.all fun eol => eol = none ∨ eol = some envelope.lineEnding) (i : Nat) :
    envelope.eolAt i = envelope.lineEnding := by
  unfold FileTextEnvelope.eolAt
  cases heol : envelope.lineEols[i]? with
  | none => rfl
  | some eol =>
    have hmem := all_eq_true.1 h eol (mem_of_getElem? heol)
    rcases of_decide_eq_true hmem with rfl | rfl <;> rfl

theorem restoreFileText_eq (content : Text) (envelope : FileTextEnvelope) :
    restoreFileText content envelope =
      (if envelope.hadBom then [byteOrderMark] else []) ++ assemble envelope.eolAt 0 content := by
  have hrestored : (if envelope.lineEols.all fun eol => eol = none ∨ eol = some envelope.lineEnding
      then if envelope.lineEnding = .lf then content else expandNewlines content
      else restoreSegments envelope.eolAt 0 (content.splitOn '\n')) =
        assemble envelope.eolAt 0 content := by
    split
    · next hall =>
      have huniform := eolAt_uniform hall
      split
      · next hlf => exact (assemble_lf content fun j _ => (huniform _).trans hlf).symm
      next hlf =>
      have hcrlf : envelope.lineEnding = .crlf := by
        cases hending : envelope.lineEnding with
        | lf => exact absurd hending hlf
        | crlf => rfl
      exact (assemble_crlf (fun j => (huniform j).trans hcrlf) content 0).symm
    · rfl
  unfold restoreFileText
  rw [hrestored]
  split <;> rfl

theorem visible_map_lt (h : '\r' ∈ content) :
    visible (content.map fun c => if c = '\r' then '\n' else c) < visible content := by
  induction content with
  | nil => simp at h
  | cons c content ih =>
    have hle (text : Text) :
        visible (text.map fun c => if c = '\r' then '\n' else c) ≤ visible text := by
      unfold visible
      rw [countP_map]
      apply countP_mono_left
      intro d _ hd
      by_cases hcr : d = '\r'
      · subst hcr
        rfl
      · simpa [hcr] using hd
    by_cases hc : c = '\r'
    · subst hc
      have hrest := hle content
      simp only [visible, map_cons] at hrest ⊢
      rw [countP_cons_of_neg (by simp), countP_cons_of_pos (by decide)]
      omega
    · have hrest := ih ((mem_cons.1 h).resolve_left (Ne.symm hc))
      simp only [visible, map_cons, if_neg hc, countP_cons] at hrest ⊢
      omega

def normalized (content : Text) : Text :=
  normalizeLineEndings content (includesCrlf content)
    (!includesCrlf content && content.contains '\r')

theorem canonicalizeFileContent_eq (rawContent : Text) :
    canonicalizeFileContent rawContent = normalized (stripBom rawContent) := rfl

structure KeepsReturns (eolAt : Nat → LineEnding) (content : Text) : Prop where
  pairs : ¬ ['\r', '\n'] <:+: content
  lone : '\r' ∈ content → ∃ j < content.count '\n', eolAt j = .crlf

variable {eolAt : Nat → LineEnding}

theorem normalized_assemble :
    normalized (assemble eolAt 0 content) =
      if ['\r', '\n'] <:+: assemble eolAt 0 content then squeeze '\r' '\n' content
      else if '\r' ∈ content then content.map fun c => if c = '\r' then '\n' else c
      else content := by
  unfold normalized normalizeLineEndings includesCrlf
  by_cases hpair : ['\r', '\n'] <:+: assemble eolAt 0 content
  · rw [if_pos (decide_eq_true hpair), if_pos hpair, squeeze_assemble]
  have hlf : ∀ j < content.count '\n', eolAt (0 + j) = .lf := by
    intro j hj
    cases heol : eolAt (0 + j) with
    | lf => rfl
    | crlf => exact absurd ((pair_infix_assemble content 0).2 (.inr ⟨j, hj, heol⟩)) hpair
  rw [assemble_lf content hlf] at hpair ⊢
  simp [hpair]

theorem normalized_assemble_of_keeps (h : KeepsReturns eolAt content) :
    normalized (assemble eolAt 0 content) = content := by
  rw [normalized_assemble]
  split
  · exact squeeze_eq_self h.pairs
  next hpair =>
  rw [if_neg]
  intro hcr
  obtain ⟨j, hj, heol⟩ := h.lone hcr
  exact hpair ((pair_infix_assemble content 0).2 (.inr ⟨j, hj, by rwa [zero_add]⟩))

theorem visible_normalized_lt (h : ¬ KeepsReturns eolAt content) :
    visible (normalized (assemble eolAt 0 content)) < visible content := by
  rw [normalized_assemble]
  by_cases hcontent : ['\r', '\n'] <:+: content
  · rw [if_pos ((pair_infix_assemble content 0).2 (.inl hcontent))]
    exact countP_squeeze_lt (by decide) hcontent
  · have hlone : ¬ ('\r' ∈ content → ∃ j < content.count '\n', eolAt j = .crlf) :=
      fun hlone => h ⟨hcontent, hlone⟩
    obtain ⟨hcr, hnone⟩ := Classical.not_imp.1 hlone
    have hpair : ¬ ['\r', '\n'] <:+: assemble eolAt 0 content := by
      rw [pair_infix_assemble]
      simpa [hcontent] using hnone
    rw [if_neg hpair, if_pos hcr]
    exact visible_map_lt hcr

theorem visible_normalized_le (eolAt : Nat → LineEnding) (content : Text) :
    visible (normalized (assemble eolAt 0 content)) ≤ visible content := by
  by_cases h : KeepsReturns eolAt content
  · rw [normalized_assemble_of_keeps h]
  · exact (visible_normalized_lt h).le

/-- No byte order mark begins the text that the file did not have, and no return is lost. -/
structure ReadsBack (envelope : FileTextEnvelope) (content : Text) : Prop where
  bom : envelope.hadBom = true ∨ startsWithBom content = false
  returns : KeepsReturns envelope.eolAt content

theorem stripBom_restoreFileText (h : envelope.hadBom = true ∨ startsWithBom content = false) :
    stripBom (restoreFileText content envelope) = assemble envelope.eolAt 0 content := by
  rw [restoreFileText_eq]
  by_cases hbom : envelope.hadBom = true
  · rw [if_pos hbom]
    rfl
  · have hhead : startsWithBom (assemble envelope.eolAt 0 content) = false := by
      have hcontent := h.resolve_left hbom
      simp only [startsWithBom, decide_eq_false_iff_not] at hcontent ⊢
      rwa [head?_assemble (by decide) (by decide)]
    rw [if_neg hbom, nil_append, stripBom, if_neg (by simp [hhead])]

theorem canonicalize_restore (h : ReadsBack envelope content) :
    canonicalizeFileContent (restoreFileText content envelope) = content := by
  rw [canonicalizeFileContent_eq, stripBom_restoreFileText h.bom,
    normalized_assemble_of_keeps h.returns]

theorem visible_canonicalize_restore_lt (h : ¬ ReadsBack envelope content) :
    visible (canonicalizeFileContent (restoreFileText content envelope)) < visible content := by
  rw [canonicalizeFileContent_eq]
  by_cases hbom : envelope.hadBom = true ∨ startsWithBom content = false
  · rw [stripBom_restoreFileText hbom]
    exact visible_normalized_lt fun hreturns => h ⟨hbom, hreturns⟩
  · rw [not_or, Bool.not_eq_true, Bool.not_eq_false] at hbom
    obtain ⟨hhad, hstarts⟩ := hbom
    obtain ⟨rest, rfl⟩ : ∃ rest, content = byteOrderMark :: rest := by
      have hhead : content.head? = some byteOrderMark := by simpa [startsWithBom] using hstarts
      exact ⟨content.tail, (eq_cons_of_mem_head? hhead)⟩
    have hwritten : restoreFileText (byteOrderMark :: rest) envelope =
        byteOrderMark :: assemble envelope.eolAt 0 rest := by
      rw [restoreFileText_eq, if_neg (by simp [hhad]), nil_append,
        assemble_cons (by decide) (by decide)]
    have hstrip : stripBom (byteOrderMark :: assemble envelope.eolAt 0 rest) =
        assemble envelope.eolAt 0 rest := rfl
    have hle := visible_normalized_le envelope.eolAt rest
    rw [hwritten, hstrip]
    have hcons : visible (byteOrderMark :: rest) = visible rest + 1 :=
      countP_cons_of_pos (by decide)
    omega

end Restore
end Rolebox.Hashline
