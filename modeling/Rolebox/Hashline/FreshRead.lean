import Rolebox.Hashline.Diff
import Rolebox.Hashline.Fuzzy
import Rolebox.Hashline.ReadSnapshot

/-! The edits of one file, their report, and a later read of the written text. -/

namespace Rolebox.Hashline.EditTool
open General

structure FileEditRequest where
  filePath : Text
  version : Text
  edits : List RawEditOp
  hashWidth : Option Nat

inductive FileRead where
  | found (raw : Text)
  | missing
  | failed (message : Text)

structure ProcessedFileResult where
  filePath : Text
  version : Text
  existed : Bool
  diff : Text
  additions : Nat
  deletions : Nat
  reanchored : Text
  error : Option Text
  content : Option Text
  correctionsApplied : Option (List (Text × Text))
  noopEdits : Option Nat
  deduplicatedEdits : Option Nat
  verifiedSnapshot : Option (Text × Text)

def failedFile (filePath : Text) (existed : Bool) (version error : Text) : ProcessedFileResult :=
  { filePath := filePath, version := version, existed := existed, diff := [], additions := 0
    deletions := 0, reanchored := [], error := some error, content := none
    correctionsApplied := none, noopEdits := none, deduplicatedEdits := none
    verifiedSnapshot := none }

def remapAnchor (corrections : List (Text × Text)) (anchor : Option Text) : Option Text :=
  match givenAnchor anchor with
  | some text => (corrections.lookup text).or anchor
  | none => anchor

def remapEditAnchors (edits : List EditOp) (corrections : List (Text × Text)) : List EditOp :=
  edits.map fun edit =>
    match edit with
    | .replace pos endPos lines =>
      .replace ((remapAnchor corrections (some pos)).getD pos) (remapAnchor corrections endPos) lines
    | .append pos lines => .append (remapAnchor corrections pos) lines
    | .prepend pos lines => .prepend (remapAnchor corrections pos) lines

def buildHashMismatchErrorDetail (host : TextHost) (mismatches : List HashMismatch)
    (fileLines : List Text) (hashWidth : Nat) : Text :=
  let detail (mismatch : HashMismatch) : List Text :=
    let lineInfo := "  Line ".toList ++ numeral mismatch.line ++ ": expected hash \"".toList ++
      mismatch.expected ++ "\", got \"".toList ++
      mismatch.actual.getD "(line does not exist)".toList ++ ['"']
    let suggestion := suggestCorrectAnchor host mismatch fileLines hashWidth
    lineInfo :: (suggestion.map ("  → ".toList ++ ·)).toList ++ [[]]
  joinLines
    (["Hashline verification failed. The following anchors could not be validated:".toList, []] ++
      mismatches.flatMap detail ++
      ["Re-read the file with hashline_read to get fresh anchors and version, then retry.".toList])

/-- The edits applied, a second time with corrected anchors where the first were stale. -/
def applyCorrected (host : TextHost) (oldLines : List Text) (edits : List EditOp)
    (hashWidth : Nat) : Except Text (Except Text (AppliedEdits × Option (List (Text × Text)))) :=
  match applyEditsToLinesWithReport host oldLines edits hashWidth with
  | .ok applied => .ok (.ok (applied, none))
  | .error (.error message) => .error message
  | .error (.mismatch mismatches fileLines) =>
    match detectUniformOffset host mismatches fileLines hashWidth with
    | .error message => .ok (.error message)
    | .ok none | .ok (some []) =>
      .ok (.error (buildHashMismatchErrorDetail host mismatches fileLines hashWidth))
    | .ok (some corrections) =>
      match applyEditsToLinesWithReport host oldLines (remapEditAnchors edits corrections)
          hashWidth with
      | .ok applied => .ok (.ok (applied, some corrections))
      | .error (.error message) => .error message
      | .error (.mismatch mismatches fileLines) =>
        .ok (.error (buildHashMismatchErrorDetail host mismatches fileLines hashWidth))

def fileNotFoundMessage (filePath : Text) : Text :=
  "File not found: ".toList ++ filePath ++ (". Cannot apply anchor-based edits to a non-existent " ++
    "file. Use anchorless append/prepend to create a new file.").toList

def versionMismatchMessage (filePath expected actual : Text) : Text :=
  "File version mismatch for ".toList ++ filePath ++ ": expected ".toList ++ expected ++
    ", got ".toList ++ actual ++
    ". Re-read the file with hashline_read to get the current version.".toList

def hashWidthMismatchMessage (filePath : Text) (provided hashWidth : Nat) : Text :=
  "hashWidth mismatch for ".toList ++ filePath ++ ": expected ".toList ++ numeral provided ++
    " from read output, computed ".toList ++ numeral hashWidth ++ " from file".toList

def noChangesMessage (filePath : Text) : Text :=
  "No changes were made to ".toList ++ filePath ++ (". The resulting content is identical to the " ++
    "original. Re-read the file and provide different edit content.").toList

def reanchoredText (line : ReanchoredLine) : Text :=
  "    line ".toList ++ numeral line.line ++ ": ".toList ++ line.oldAnchor ++ " → ".toList ++
    (if line.newAnchor = [] then "(deleted)".toList else line.newAnchor)

def finalContentOf (raw resultContent : Text) : Text :=
  if endsWith (canonicalizeFileContent raw) '\n' then resultContent ++ ['\n'] else resultContent

def editedFile (host : TextHost) (filePath : Text) (existed : Bool) (raw : Text)
    (applied : AppliedEdits) (corrections : Option (List (Text × Text))) : ProcessedFileResult :=
  let envelope := canonicalizeFileText raw
  let actualVersion := computeFileVersion host envelope.content
  let finalContent := finalContentOf raw applied.content
  if finalContent = envelope.content then
    { failedFile filePath existed actualVersion (noChangesMessage filePath) with
      correctionsApplied := corrections
      noopEdits := some applied.noopEdits
      deduplicatedEdits := some applied.deduplicatedEdits }
  else
    let written := restoreFileText finalContent envelope
    let newLines := splitLines applied.content
    let postHashWidth := hashWidthForLineCount host newLines.length
    let report :=
      generateDiffReport host (splitLines envelope.content) newLines filePath postHashWidth
    { filePath := filePath
      version := computeFileVersion host (canonicalizeFileContent written)
      existed := existed
      diff := report.diff
      additions := report.additions
      deletions := report.deletions
      reanchored := joinLines (report.reanchored.map reanchoredText)
      error := none
      content := some written
      correctionsApplied := corrections
      noopEdits := some applied.noopEdits
      deduplicatedEdits := some applied.deduplicatedEdits
      verifiedSnapshot := if existed then some (raw, actualVersion) else none }

def applyRequest (host : TextHost) (request : FileEditRequest) (raw : Text) :
    Except Text (Except Text (AppliedEdits × Option (List (Text × Text)))) :=
  let oldLines := splitLines (canonicalizeFileContent raw)
  applyCorrected host oldLines (normalizeEdits request.edits)
    (hashWidthForLineCount host oldLines.length)

def processText (host : TextHost) (request : FileEditRequest) (existed : Bool) (raw : Text) :
    Except Text ProcessedFileResult :=
  let content := canonicalizeFileContent raw
  let actualVersion := computeFileVersion host content
  let hashWidth := hashWidthForLineCount host (splitLines content).length
  if existed ∧ request.version ≠ actualVersion then
    .ok (failedFile request.filePath existed actualVersion
      (versionMismatchMessage request.filePath request.version actualVersion))
  else
    match request.hashWidth.filter (· ≠ hashWidth) with
    | some provided =>
      .ok (failedFile request.filePath existed actualVersion
        (hashWidthMismatchMessage request.filePath provided hashWidth))
    | none =>
      match applyRequest host request raw with
      | .error message => .error message
      | .ok (.error message) => .ok (failedFile request.filePath existed actualVersion message)
      | .ok (.ok (applied, corrections)) =>
        .ok (editedFile host request.filePath existed raw applied corrections)

def processSingleFile (host : TextHost) (request : FileEditRequest) :
    FileRead → Except Text ProcessedFileResult
  | .failed message =>
    .ok (failedFile request.filePath true []
      ("Error reading file ".toList ++ request.filePath ++ ": ".toList ++ message))
  | .missing =>
    if collectLineRefs (normalizeEdits request.edits) ≠ [] then
      .ok (failedFile request.filePath false [] (fileNotFoundMessage request.filePath))
    else processText host request false []
  | .found raw => processText host request true raw

def FileRead.raw : FileRead → Text
  | found raw => raw
  | missing => []
  | failed _ => []

section Accepted
variable {host : TextHost} {request : FileEditRequest} {read : FileRead}
  {result : ProcessedFileResult} {written : Text}

theorem editedFile_written {filePath raw : Text} {existed : Bool} {applied : AppliedEdits}
    {corrections : Option (List (Text × Text))}
    (h : (editedFile host filePath existed raw applied corrections).content = some written) :
    written = restoreFileText (finalContentOf raw applied.content) (canonicalizeFileText raw) ∧
      finalContentOf raw applied.content ≠ canonicalizeFileContent raw := by
  unfold editedFile at h
  dsimp only at h
  split at h
  · exact absurd h (by simp [failedFile])
  · next hchanged => exact ⟨(Option.some.inj h).symm, hchanged⟩

theorem processText_written {existed : Bool} {raw : Text}
    (h : processText host request existed raw = .ok result) (hwritten : result.content = some written) :
    ∃ applied corrections, applyRequest host request raw = .ok (.ok (applied, corrections)) ∧
      result = editedFile host request.filePath existed raw applied corrections := by
  unfold processText at h
  dsimp only at h
  have hfailed : ∀ existed version message,
      (failedFile request.filePath existed version message).content ≠ some written :=
    fun _ _ _ => Option.some_ne_none _ ∘ Eq.symm
  split at h
  · cases h
    exact absurd hwritten (hfailed _ _ _)
  · split at h
    · cases h
      exact absurd hwritten (hfailed _ _ _)
    · split at h
      · cases h
      · cases h
        exact absurd hwritten (hfailed _ _ _)
      · next applied corrections happlied =>
        cases h
        exact ⟨applied, corrections, happlied, rfl⟩

theorem processSingleFile_written (h : processSingleFile host request read = .ok result)
    (hwritten : result.content = some written) :
    ∃ applied corrections existed,
      applyRequest host request read.raw = .ok (.ok (applied, corrections)) ∧
        result = editedFile host request.filePath existed read.raw applied corrections := by
  cases read with
  | found raw =>
    obtain ⟨applied, corrections, happlied, hresult⟩ := processText_written h hwritten
    exact ⟨applied, corrections, true, happlied, hresult⟩
  | missing =>
    rw [processSingleFile] at h
    split at h
    · cases h
      cases hwritten
    · obtain ⟨applied, corrections, happlied, hresult⟩ := processText_written h hwritten
      exact ⟨applied, corrections, false, happlied, hresult⟩
  | failed message =>
    cases h
    cases hwritten

end Accepted

/-- The edited text is read back as it was made, and its last line is no terminator. -/
structure ReadsAsReported (raw resultContent : Text) : Prop where
  trailing : endsWith (canonicalizeFileContent raw) '\n' = true →
    resultContent ≠ [] ∧ endsWith resultContent '\n' = false
  readsBack : ReadsBack (canonicalizeFileText raw) (finalContentOf raw resultContent)

section

variable (raw resultContent : Text)

theorem visible_finalContentOf :
    visible (finalContentOf raw resultContent) = visible resultContent := by
  unfold finalContentOf
  split
  · exact visible_append_newline resultContent
  · rfl

theorem splitLines_finalContentOf_iff :
    splitLines resultContent = splitLines (finalContentOf raw resultContent) ↔
      (endsWith (canonicalizeFileContent raw) '\n' = true →
        resultContent ≠ [] ∧ endsWith resultContent '\n' = false) := by
  unfold finalContentOf
  by_cases hend : endsWith (canonicalizeFileContent raw) '\n' = true
  · rw [if_pos hend, splitLines_append_newline_iff]
    simp only [hend, forall_const]
  · rw [if_neg hend]
    exact ⟨fun _ h => absurd h hend, fun _ => rfl⟩

/-- The reported lines are those of the written text exactly under that condition. -/
theorem splitLines_written_iff :
    splitLines resultContent = splitLines (canonicalizeFileContent
        (restoreFileText (finalContentOf raw resultContent) (canonicalizeFileText raw))) ↔
      ReadsAsReported raw resultContent := by
  constructor
  · intro h
    have hback : ReadsBack (canonicalizeFileText raw) (finalContentOf raw resultContent) := by
      by_contra hnot
      have hlt := visible_canonicalize_restore_lt hnot
      rw [visible_finalContentOf, ← sum_length_splitLines, ← sum_length_splitLines, ← h] at hlt
      exact lt_irrefl _ hlt
    rw [canonicalize_restore hback] at h
    exact ⟨(splitLines_finalContentOf_iff raw resultContent).1 h, hback⟩
  · intro h
    rw [canonicalize_restore h.readsBack]
    exact (splitLines_finalContentOf_iff raw resultContent).2 h.trailing

end

/-- The version, lines, line count and hash width of an edit are those of a read. -/
structure ReportIsRead (host : TextHost) (result : ProcessedFileResult) (newLines : List Text)
    (read : ReadOutput) : Prop where
  version : result.version = read.version
  lines : newLines = read.lines.map AnnotatedLine.content
  lineCount : newLines.length = read.totalLines
  hashWidth : hashWidthForLineCount host newLines.length = read.hashWidth

theorem editedFile_report {host : TextHost} {filePath raw written : Text} {existed : Bool}
    {applied : AppliedEdits} {corrections : Option (List (Text × Text))}
    (h : (editedFile host filePath existed raw applied corrections).content = some written) :
    let result := editedFile host filePath existed raw applied corrections
    let newLines := splitLines applied.content
    let report := generateDiffReport host (splitLines (canonicalizeFileContent raw)) newLines filePath
      (hashWidthForLineCount host newLines.length)
    result.version = computeFileVersion host (canonicalizeFileContent written) ∧
      result.diff = report.diff ∧ result.additions = report.additions ∧
      result.deletions = report.deletions ∧
      result.reanchored = joinLines (report.reanchored.map reanchoredText) := by
  obtain ⟨hrestored, hchanged⟩ := editedFile_written h
  have hcontent : ¬ finalContentOf raw applied.content = (canonicalizeFileText raw).content :=
    hchanged
  dsimp only
  unfold editedFile
  dsimp only
  rw [if_neg hcontent, hrestored]
  exact ⟨rfl, rfl, rfl, rfl, rfl⟩

/-- The report is that of a later read exactly where the written file reads as reported. -/
theorem edit_report_is_fresh_read {host : TextHost} {request : FileEditRequest} {read : FileRead}
    {result : ProcessedFileResult} {written : Text}
    (h : processSingleFile host request read = .ok result) (hwritten : result.content = some written)
    (cache : HashlineReadCache host) (cachePath : String) :
    ∃ applied corrections, applyRequest host request read.raw = .ok (.ok (applied, corrections)) ∧
      (let newLines := splitLines applied.content
        let report := generateDiffReport host (splitLines (canonicalizeFileContent read.raw)) newLines
          request.filePath (hashWidthForLineCount host newLines.length)
        result.diff = report.diff ∧ result.additions = report.additions ∧
          result.deletions = report.deletions ∧
          result.reanchored = joinLines (report.reanchored.map reanchoredText) ∧
          result.version = (hashlineRead host cache cachePath written none none).1.version ∧
          (ReportIsRead host result newLines (hashlineRead host cache cachePath written none none).1 ↔
            ReadsAsReported read.raw applied.content)) := by
  obtain ⟨applied, corrections, existed, happlied, rfl⟩ := processSingleFile_written h hwritten
  obtain ⟨hversion, hdiff, hadditions, hdeletions, hreanchored⟩ := editedFile_report hwritten
  have hfresh := hashlineRead_full cache cachePath written
  have hlines := splitLines_written_iff read.raw applied.content
  rw [← (editedFile_written hwritten).1] at hlines
  refine ⟨applied, corrections, happlied, hdiff, hadditions, hdeletions, hreanchored, ?_, ?_⟩
  · rw [hfresh]
    exact hversion
  · rw [← hlines, hfresh]
    constructor
    · intro hread
      have hsame := hread.lines
      rwa [annotate_map_content] at hsame
    · intro hsame
      refine ⟨hversion, ?_, ?_, ?_⟩
      · rw [annotate_map_content, hsame]
      · rw [hsame]
      · rw [hsame]

def exampleHost : TextHost :=
  { sha256 := fun bytes =>
      if bytes = utf8 "a\n".toList then
        [135, 66, 143, 197, 34, 128, 61, 49, 6, 94, 123, 206, 60, 240, 63, 228, 117, 9, 102, 49,
        229, 224, 123, 189, 122, 15, 222, 96, 196, 207, 37, 199]
      else if bytes = utf8 "a\nx\n".toList then
        [122, 14, 98, 79, 233, 21, 137, 209, 222, 180, 194, 235, 77, 210, 59, 227, 41, 20, 7, 40,
        202, 140, 133, 113, 188, 220, 19, 18, 76, 240, 245, 162]
      else
        [255, 132, 63, 27, 57, 242, 102, 81, 172, 89, 184, 125, 75, 215, 15, 52, 156, 194, 221,
        186, 229, 126, 231, 180, 37, 67, 200, 227, 38, 111, 70, 44]
    isLetterOrNumber := Char.isAlphanum
    widthOverride := none }

def appendRequest (content : Text) : FileEditRequest :=
  { filePath := "f".toList
    version := computeFileVersion exampleHost "a\n".toList
    edits := [{ op := some .append, pos := none, endPos := none, lines := some (.text content) }]
    hashWidth := none }

def emptyCache (host : TextHost) : HashlineReadCache host :=
  { entries := [], bytes := 0, maxBytes := 32 * 1024 * 1024, maxEntries := 8 }

theorem written_of_run (host : TextHost) (request : FileEditRequest) (read : FileRead)
    (written : Text)
    (h : (processSingleFile host request read).toOption.bind ProcessedFileResult.content =
      some written) :
    ∃ result, processSingleFile host request read = .ok result ∧ result.content = some written := by
  obtain ⟨result, hresult, hwritten⟩ := Option.bind_eq_some_iff.1 h
  cases hrun : processSingleFile host request read with
  | error message =>
    rw [hrun] at hresult
    cases hresult
  | ok found =>
    rw [hrun] at hresult
    cases hresult
    exact ⟨_, rfl, hwritten⟩

theorem edit_report_is_fresh_read_append :
    ∃ (result : ProcessedFileResult) (applied : AppliedEdits),
      processSingleFile exampleHost (appendRequest "x".toList) (.found "a\n".toList) = .ok result ∧
      result.content = some "a\nx\n".toList ∧
      ReportIsRead exampleHost result (splitLines applied.content)
        (hashlineRead exampleHost (emptyCache exampleHost) "f" "a\nx\n".toList none none).1 := by
  obtain ⟨result, hresult, hwritten⟩ := written_of_run exampleHost (appendRequest "x".toList)
    (.found "a\n".toList) "a\nx\n".toList (by decide +kernel)
  obtain ⟨applied, corrections, happlied, hreport⟩ :=
    edit_report_is_fresh_read hresult hwritten (emptyCache exampleHost) "f"
  have hcontent : (applyRequest exampleHost (appendRequest "x".toList) "a\n".toList).toOption.bind
      (fun found => found.toOption.map fun found => found.1.content) = some "a\nx".toList := by
    decide +kernel
  rw [show FileRead.raw (.found "a\n".toList) = "a\n".toList from rfl] at happlied hreport
  rw [happlied] at hcontent
  have happend : applied.content = "a\nx".toList := Option.some.inj hcontent
  refine ⟨result, applied, hresult, hwritten, hreport.2.2.2.2.2.2 ?_⟩
  rw [happend]
  have hcr : '\r' ∉ finalContentOf "a\n".toList "a\nx".toList := by decide +kernel
  refine ⟨fun _ => ⟨by decide +kernel, by decide +kernel⟩, .inr (by decide +kernel), ?_, ?_⟩
  · exact fun hpair => hcr (hpair.subset (by simp))
  · exact fun hmem => absurd hmem hcr

/-- New text that ends in a newline leaves a blank line the report does not have. -/
theorem edit_report_not_fresh_read :
    ¬ ∀ (host : TextHost) (request : FileEditRequest) (read : FileRead)
        (result : ProcessedFileResult) (written : Text) (applied : AppliedEdits)
        (corrections : Option (List (Text × Text))) (cache : HashlineReadCache host)
        (cachePath : String),
      processSingleFile host request read = .ok result → result.content = some written →
        applyRequest host request read.raw = .ok (.ok (applied, corrections)) →
        ReportIsRead host result (splitLines applied.content)
          (hashlineRead host cache cachePath written none none).1 := by
  intro hclaim
  obtain ⟨result, hresult, hwritten⟩ := written_of_run exampleHost (appendRequest "x\n".toList)
    (.found "a\n".toList) "a\nx\n\n".toList (by decide +kernel)
  obtain ⟨applied, corrections, _, happlied, _⟩ := processSingleFile_written hresult hwritten
  have hread := (hclaim _ _ _ _ _ applied corrections (emptyCache exampleHost) "f" hresult hwritten
    happlied).lineCount
  have hcontent : (applyRequest exampleHost (appendRequest "x\n".toList) "a\n".toList).toOption.bind
      (fun found => found.toOption.map fun found => found.1.content) = some "a\nx\n".toList := by
    decide +kernel
  rw [show FileRead.raw (.found "a\n".toList) = "a\n".toList from rfl] at happlied
  rw [happlied] at hcontent
  have happend : applied.content = "a\nx\n".toList := Option.some.inj hcontent
  rw [happend, hashlineRead_full] at hread
  exact absurd hread (by decide +kernel)
end Rolebox.Hashline.EditTool
