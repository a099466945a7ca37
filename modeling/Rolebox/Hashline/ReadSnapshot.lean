import Mathlib.Data.List.TakeWhile
import Rolebox.Graph.Text
import Rolebox.Hashline.LineEndings

/-! Reading a file: its snapshot, the cache of snapshots, and the lines of a window. -/

namespace Rolebox.Hashline
open General List Function

def lineIndexStride : Nat := 256

/-- A canonical text, its version, and the starts of every so many lines. -/
structure ReadSnapshot where
  content : Text
  version : Text
  totalLines : Nat
  lineStarts : List Nat

/-- `content.indexOf("\n", start)`. -/
def indexOfNewline (content : Text) (start : Nat) : Option Nat :=
  let rest := content.drop start
  let front := rest.takeWhile (· ≠ '\n')
  if front.length < rest.length then some (start + front.length) else none

def nextLineStart (content : Text) (lineStart : Nat) : Nat :=
  match indexOfNewline content lineStart with
  | some lineEnd => lineEnd + 1
  | none => content.length

def indexLines (content : Text) : Nat → Nat → Nat → List Nat → Nat × List Nat
  | 0, _, totalLines, lineStarts => (totalLines, lineStarts)
  | fuel + 1, lineStart, totalLines, lineStarts =>
    if lineStart < content.length then
      let lineStarts :=
        if totalLines % lineIndexStride = 0 then lineStarts ++ [lineStart] else lineStarts
      indexLines content fuel (nextLineStart content lineStart) (totalLines + 1) lineStarts
    else (totalLines, lineStarts)

def indexReadSnapshot (content version : Text) : ReadSnapshot :=
  let index := indexLines content content.length 0 0 []
  { content := content, version := version, totalLines := index.1, lineStarts := index.2 }

def createReadSnapshot (host : TextHost) (raw : Text) : ReadSnapshot :=
  let content := if raw.contains '\r' then canonicalizeFileContent raw else stripBom raw
  indexReadSnapshot content (computeFileVersion host content)

def utf16Length (text : Text) : Nat := (text.flatMap Graph.utf16Units).length

def createBufferReadSnapshot (host : TextHost) (buffer : List UInt8) (raw : Text) : ReadSnapshot :=
  let hasBom := startsWithBom raw
  let byteOffset := if hasBom then 3 else 0
  let contentLength := utf16Length raw - (if hasBom then 1 else 0)
  if buffer.length - byteOffset = contentLength ∨ buffer.contains 13 then
    createReadSnapshot host raw
  else
    let content := if hasBom then raw.tail else raw
    let canonicalBytes := if hasBom then buffer.drop byteOffset else buffer
    indexReadSnapshot content ((host.sha256 canonicalBytes).flatMap hexByte)

def findReadLineStart (snapshot : ReadSnapshot) (line : Nat) : Nat :=
  let index := (line - 1) / lineIndexStride
  let afterNewline (start : Nat) := (indexOfNewline snapshot.content start).elim 0 (· + 1)
  Nat.iterate afterNewline (line - (index * lineIndexStride + 1))
    (snapshot.lineStarts.getD index 0)

section SnapshotLines
variable {content : Text}
variable {start k : Nat}

theorem indexOfNewline_line {line : Text} (front rest : Text) (h : '\n' ∉ line) :
    indexOfNewline (front ++ (line ++ '\n' :: rest)) front.length =
      some (front.length + line.length) := by
  have htake : (line ++ '\n' :: rest).takeWhile (· ≠ '\n') = line := by
    rw [takeWhile_append_of_pos fun c hc => by simpa using ne_of_mem_of_not_mem hc h]
    simp
  simp only [indexOfNewline, drop_left, htake]
  rw [if_pos (by simp)]

theorem indexOfNewline_last {line : Text} (front : Text) (h : '\n' ∉ line) :
    indexOfNewline (front ++ line) front.length = none := by
  have htake : line.takeWhile (· ≠ '\n') = line :=
    takeWhile_eq_self_iff.2 fun c hc => by simpa using ne_of_mem_of_not_mem hc h
  simp only [indexOfNewline, drop_left, htake]
  rw [if_neg (lt_irrefl _)]

theorem line_at (content : Text) (hstart : start ≤ content.length) :
    (∃ line, '\n' ∉ line ∧ content.drop start = line ∧ indexOfNewline content start = none ∧
        nextLineStart content start = content.length) ∨
      ∃ line rest, '\n' ∉ line ∧ content.drop start = line ++ '\n' :: rest ∧
        indexOfNewline content start = some (start + line.length) ∧
        nextLineStart content start = start + line.length + 1 ∧
        content.drop (start + line.length + 1) = rest := by
  have hsplit : content = content.take start ++ content.drop start :=
    (take_append_drop start content).symm
  have hlength : (content.take start).length = start := length_take_of_le hstart
  by_cases h : '\n' ∈ content.drop start
  · obtain ⟨line, rest, hline, hmem⟩ := eq_append_cons_of_mem h
    have hindex : indexOfNewline content start = some (start + line.length) := by
      have hfound := indexOfNewline_line (content.take start) rest hmem
      rwa [← hline, ← hsplit, hlength] at hfound
    refine .inr ⟨line, rest, hmem, hline, hindex, by rw [nextLineStart, hindex], ?_⟩
    rw [show start + line.length + 1 = start + (line.length + 1) by omega, ← drop_drop, hline]
    simp
  · have hindex : indexOfNewline content start = none := by
      have hfound := indexOfNewline_last (content.take start) h
      rwa [← hsplit, hlength] at hfound
    exact .inl ⟨_, h, rfl, hindex, by rw [nextLineStart, hindex]⟩

theorem splitLines_eq_nil {text : Text} : splitLines text = [] ↔ text = [] := by
  constructor
  · intro h
    by_contra hne
    rw [splitLines, if_neg hne] at h
    exact splitOn_ne_nil _ _ h
  · rintro rfl
    rfl

theorem nextLineStart_le (hstart : start ≤ content.length) :
    nextLineStart content start ≤ content.length := by
  rcases line_at content hstart with ⟨_, _, _, _, hnext⟩ | ⟨line, rest, _, hline, _, hnext, _⟩
  · rw [hnext]
  · have hlength := congrArg length hline
    simp only [length_drop, length_append, length_cons] at hlength
    omega

theorem lt_nextLineStart (hstart : start < content.length) :
    start < nextLineStart content start := by
  rcases line_at content hstart.le with ⟨_, _, _, _, hnext⟩ | ⟨_, _, _, _, _, hnext, _⟩
  · rw [hnext]
    exact hstart
  · omega

theorem splitLines_nextLineStart (hstart : start ≤ content.length) :
    splitLines (content.drop (nextLineStart content start)) =
      (splitLines (content.drop start)).tail := by
  rcases line_at content hstart with
    ⟨line, hmem, hline, _, hnext⟩ | ⟨line, rest, hmem, hline, _, hnext, hrest⟩
  · rw [hnext, drop_length, hline]
    by_cases hnil : line = []
    · rw [hnil]
      rfl
    · rw [splitLines_last hnil hmem]
      rfl
  · rw [hnext, hrest, hline, splitLines_line hmem]
    rfl

def lineStartAt (content : Text) : Nat → Nat
  | 0 => 0
  | k + 1 => nextLineStart content (lineStartAt content k)

theorem lineStartAt_le (content : Text) (k : Nat) : lineStartAt content k ≤ content.length := by
  induction k with
  | zero => exact Nat.zero_le _
  | succ k ih => exact nextLineStart_le ih

theorem splitLines_lineStartAt (content : Text) (k : Nat) :
    splitLines (content.drop (lineStartAt content k)) = (splitLines content).drop k := by
  induction k with
  | zero => rfl
  | succ k ih =>
    rw [lineStartAt, splitLines_nextLineStart (lineStartAt_le content k), ih, tail_drop]

theorem lineStartAt_lt_iff :
    lineStartAt content k < content.length ↔ k < (splitLines content).length := by
  have hlines := splitLines_lineStartAt content k
  constructor
  · intro h
    by_contra hk
    have hnil : (splitLines content).drop k = [] := drop_eq_nil_of_le (by omega)
    rw [hnil, splitLines_eq_nil, drop_eq_nil_iff] at hlines
    omega
  · intro hk
    by_contra h
    have hnil : content.drop (lineStartAt content k) = [] := drop_eq_nil_of_le (by omega)
    rw [hnil, splitLines_nil] at hlines
    have hempty := drop_eq_nil_iff.1 hlines.symm
    omega

structure IndexedTo (content : Text) (k : Nat) (lineStarts : List Nat) : Prop where
  size : lineStarts.length = (k + 255) / 256
  starts : ∀ i, 256 * i < k → lineStarts[i]? = some (lineStartAt content (256 * i))

theorem IndexedTo.next {lineStarts : List Nat} (h : IndexedTo content k lineStarts) :
    IndexedTo content (k + 1)
      (if k % lineIndexStride = 0 then lineStarts ++ [lineStartAt content k] else lineStarts) := by
  have hsize := h.size
  unfold lineIndexStride
  by_cases hk : k % 256 = 0
  · rw [if_pos hk]
    refine ⟨?_, fun i hi => ?_⟩
    · rw [length_append, length_singleton]
      omega
    · by_cases hlast : 256 * i = k
      · have hi' : i = lineStarts.length := by omega
        rw [hi', getElem?_concat_length, ← hi', hlast]
      · rw [getElem?_append_left (by omega)]
        exact h.starts i (by omega)
  · rw [if_neg hk]
    exact ⟨by omega, fun i hi => h.starts i (by omega)⟩

theorem indexLines_spec {fuel : Nat} {lineStarts : List Nat} (h : IndexedTo content k lineStarts)
    (hk : k ≤ (splitLines content).length) (hfuel : content.length ≤ fuel + lineStartAt content k) :
    (indexLines content fuel (lineStartAt content k) k lineStarts).1 = (splitLines content).length ∧
      IndexedTo content (splitLines content).length
        (indexLines content fuel (lineStartAt content k) k lineStarts).2 := by
  induction fuel generalizing k lineStarts with
  | zero =>
    have hend : k = (splitLines content).length := by
      have hstop := mt lineStartAt_lt_iff.2 (by omega : ¬ lineStartAt content k < content.length)
      omega
    subst hend
    exact ⟨rfl, h⟩
  | succ fuel ih =>
    by_cases hlt : lineStartAt content k < content.length
    · have hadvance := lt_nextLineStart hlt
      have hnext := ih h.next (lineStartAt_lt_iff.1 hlt) (by rw [lineStartAt]; omega)
      rw [lineStartAt] at hnext
      rw [indexLines, if_pos hlt]
      exact hnext
    · have hend : k = (splitLines content).length := by
        have hstop := mt lineStartAt_lt_iff.2 hlt
        omega
      subst hend
      rw [indexLines, if_neg hlt]
      exact ⟨rfl, h⟩

theorem indexReadSnapshot_spec (content version : Text) :
    (indexReadSnapshot content version).totalLines = (splitLines content).length ∧
      IndexedTo content (splitLines content).length
        (indexReadSnapshot content version).lineStarts := by
  have hempty : IndexedTo content 0 [] := ⟨rfl, fun i hi => absurd hi (Nat.not_lt_zero _)⟩
  exact indexLines_spec hempty (Nat.zero_le _) (by rw [lineStartAt]; omega)

theorem findReadLineStart_eq (version : Text) {line : Nat} (hpos : 1 ≤ line)
    (hline : line ≤ (splitLines content).length) :
    findReadLineStart (indexReadSnapshot content version) line = lineStartAt content (line - 1) := by
  have hstarts := (indexReadSnapshot_spec content version).2.starts
  -- from one line start the next newline leads to the following one
  have hstep : ∀ n k, k + n < (splitLines content).length →
      Nat.iterate (fun start => (indexOfNewline content start).elim 0 (· + 1)) n
        (lineStartAt content k) = lineStartAt content (k + n) := by
    intro n
    induction n with
    | zero => exact fun k _ => rfl
    | succ n ih =>
      intro k hk
      have hnext : (indexOfNewline content (lineStartAt content k)).elim 0 (· + 1) =
          lineStartAt content (k + 1) := by
        have hlt : lineStartAt content (k + 1) < content.length := lineStartAt_lt_iff.2 (by omega)
        rw [lineStartAt] at hlt ⊢
        rcases line_at content (lineStartAt_le content k) with
          ⟨_, _, _, _, hend⟩ | ⟨_, _, _, _, hindex, hnext, _⟩
        · omega
        · rw [hindex, hnext]
          rfl
      rw [iterate_succ_apply, hnext, ih (k + 1) (by omega)]
      congr 1
      omega
  have hindexed := hstarts ((line - 1) / 256) (by omega)
  unfold findReadLineStart lineIndexStride
  simp only [getD_eq_getElem?_getD, hindexed, Option.getD_some]
  rw [show (indexReadSnapshot content version).content = content from rfl, hstep _ _ (by omega)]
  congr 1
  omega

end SnapshotLines

structure AnnotatedLine where
  number : Nat
  hash : Text
  content : Text

structure ReadOutput where
  version : Text
  hashWidth : Nat
  totalLines : Nat
  window : Option (Nat × Nat)
  lines : List AnnotatedLine

def readLines (content : Text) : Nat → Nat → List Text
  | 0, _ => []
  | count + 1, lineStart =>
    let lineEnd := (indexOfNewline content lineStart).getD content.length
    (content.drop lineStart).take (lineEnd - lineStart) :: readLines content count (lineEnd + 1)

def annotate (host : TextHost) (width first : Nat) (lines : List Text) : List AnnotatedLine :=
  lines.mapIdx fun i line =>
    { number := first + i, hash := computeLineHash host line width (first + i), content := line }

def formatSnapshot (host : TextHost) (snapshot : ReadSnapshot) (offset limit : Option Nat) :
    ReadOutput :=
  let totalLines := snapshot.totalLines
  let hashWidth := hashWidthForLineCount host totalLines
  let effectiveStart := if 0 < totalLines then min (offset.getD 1) totalLines else 1
  let effectiveEnd :=
    match limit with
    | some (count + 1) => min (effectiveStart + count) totalLines
    | _ => totalLines
  if totalLines = 0 then
    { version := snapshot.version, hashWidth := hashWidth, totalLines := 0, window := none
      lines := [] }
  else
    let lines := readLines snapshot.content (effectiveEnd + 1 - effectiveStart)
      (findReadLineStart snapshot effectiveStart)
    { version := snapshot.version
      hashWidth := hashWidth
      totalLines := totalLines
      window :=
        if offset.isSome ∨ limit.isSome then some (effectiveStart, effectiveEnd) else none
      lines := annotate host hashWidth effectiveStart lines }

theorem readLines_eq {content : Text} {count k : Nat}
    (h : k + count ≤ (splitLines content).length) :
    readLines content count (lineStartAt content k) = ((splitLines content).drop k).take count := by
  induction count generalizing k with
  | zero => rfl
  | succ count ih =>
    have hlt : lineStartAt content k < content.length := lineStartAt_lt_iff.2 (by omega)
    have hlines := splitLines_lineStartAt content k
    rw [readLines]
    rcases line_at content (lineStartAt_le content k) with
      ⟨line, hmem, hline, hindex, hnext⟩ | ⟨line, rest, hmem, hline, hindex, hnext, hrest⟩
    · have hne : line ≠ [] := by
        rintro rfl
        rw [drop_eq_nil_iff] at hline
        omega
      rw [hline, splitLines_last hne hmem] at hlines
      -- a line without a newline is the last one
      have hcount : count = 0 := by
        have hlength := congrArg length hlines
        rw [length_drop, length_singleton] at hlength
        omega
      have hlength := congrArg length hline
      rw [length_drop] at hlength
      subst hcount
      rw [← hlines, hindex, hline, Option.getD_none, hlength, take_length]
      rfl
    · rw [hline, splitLines_line hmem] at hlines
      have htail : (splitLines content).drop (k + 1) = splitLines rest := by
        rw [← tail_drop, ← hlines]
        rfl
      have hstart : lineStartAt content k + line.length + 1 = lineStartAt content (k + 1) := by
        rw [lineStartAt, hnext]
      have hmore := ih (k := k + 1) (by omega)
      rw [htail] at hmore
      rw [← hlines, hindex, hline, Option.getD_some, hstart, hmore, Nat.add_sub_cancel_left,
        take_left, take_succ_cons]

@[simp] theorem annotate_map_content (host : TextHost) (width first : Nat) (lines : List Text) :
    (annotate host width first lines).map AnnotatedLine.content = lines := by
  apply ext_getElem?
  intro i
  simp [annotate, comp_def]

theorem formatSnapshot_full (host : TextHost) (content version : Text) :
    formatSnapshot host (indexReadSnapshot content version) none none =
      { version := version
        hashWidth := hashWidthForLineCount host (splitLines content).length
        totalLines := (splitLines content).length
        window := none
        lines := annotate host (hashWidthForLineCount host (splitLines content).length) 1
          (splitLines content) } := by
  have htotal := (indexReadSnapshot_spec content version).1
  have hversion : (indexReadSnapshot content version).version = version := rfl
  unfold formatSnapshot
  by_cases hempty : (splitLines content).length = 0
  · simp only [htotal, hversion, hempty, if_pos]
    rw [length_eq_zero_iff.1 hempty]
    rfl
  · have hone : 1 ≤ (splitLines content).length := by omega
    have hlines := findReadLineStart_eq version le_rfl hone
    have hfull : readLines content (splitLines content).length (lineStartAt content 0) = _ :=
      readLines_eq (by omega)
    have hmin : min 1 (splitLines content).length = 1 := by omega
    have hcontent : (indexReadSnapshot content version).content = content := rfl
    rw [drop_zero, take_length] at hfull
    simp only [htotal, Option.getD_none, if_pos (Nat.pos_of_ne_zero hempty), hmin, if_neg hempty,
      hlines, hcontent, Nat.add_sub_cancel, Nat.sub_self, hfull]
    rfl

section Snapshots
variable {host : TextHost}

theorem createReadSnapshot_eq (raw : Text) :
    createReadSnapshot host raw = indexReadSnapshot (canonicalizeFileContent raw)
      (computeFileVersion host (canonicalizeFileContent raw)) := by
  unfold createReadSnapshot
  split
  · rfl
  next hcr =>
  have hstrip : '\r' ∉ stripBom raw := by
    have hraw : '\r' ∉ raw := by simpa using hcr
    unfold stripBom
    split
    · exact fun hmem => hraw (mem_of_mem_tail hmem)
    · exact hraw
  have hpair : includesCrlf (stripBom raw) = false := by
    rw [includesCrlf, decide_eq_false_iff_not]
    exact fun hpair => hstrip (hpair.subset (by simp))
  have hcanonical : canonicalizeFileContent raw = stripBom raw := by
    simp [canonicalizeFileContent, hpair, normalizeLineEndings, hstrip]
  rw [hcanonical]

theorem utf8_bom (text : Text) : (utf8 (byteOrderMark :: text)).drop 3 = utf8 text := by
  have hbom : String.utf8EncodeChar byteOrderMark = [0xEF, 0xBB, 0xBF] := by decide
  rw [utf8, flatMap_cons, hbom]
  rfl

theorem mem_utf8_cr {text : Text} (h : '\r' ∈ text) : 13 ∈ utf8 text :=
  mem_flatMap.2 ⟨'\r', h, by decide⟩

theorem createBufferReadSnapshot_eq (raw : Text) :
    createBufferReadSnapshot host (utf8 raw) raw = createReadSnapshot host raw := by
  unfold createBufferReadSnapshot
  dsimp only
  by_cases h : (utf8 raw).length - (if startsWithBom raw then 3 else 0) =
      utf16Length raw - (if startsWithBom raw then 1 else 0) ∨ (utf8 raw).contains 13 = true
  · rw [if_pos h]
  rw [if_neg h]
  obtain ⟨_, hbytes⟩ := not_or.1 h
  have hcr : raw.contains '\r' = false := by
    rw [Bool.eq_false_iff]
    intro hmem
    exact hbytes (by simpa using mem_utf8_cr (by simpa using hmem))
  have hplain : createReadSnapshot host raw =
      indexReadSnapshot (stripBom raw) (computeFileVersion host (stripBom raw)) := by
    simp only [createReadSnapshot, hcr, Bool.false_eq_true, if_false]
  rw [hplain, stripBom]
  by_cases hbom : startsWithBom raw = true
  · obtain ⟨text, rfl⟩ : ∃ text, raw = byteOrderMark :: text := by
      have hhead : raw.head? = some byteOrderMark := by simpa [startsWithBom] using hbom
      exact ⟨raw.tail, eq_cons_of_mem_head? hhead⟩
    simp only [hbom, if_true, utf8_bom, tail_cons]
    rfl
  · simp only [hbom, Bool.false_eq_true, if_false]
    rfl

end Snapshots

structure CacheEntry (host : TextHost) where
  raw : Text
  snapshot : ReadSnapshot
  bytes : Nat
  sound : snapshot = createReadSnapshot host raw

structure HashlineReadCache (host : TextHost) where
  entries : List (String × CacheEntry host)
  bytes : Nat
  maxBytes : Nat
  maxEntries : Nat

inductive ReadInput where
  | text (raw : Text)
  | buffer (raw : Text)

def ReadInput.raw : ReadInput → Text
  | text raw => raw
  | buffer raw => raw

namespace HashlineReadCache
variable {host : TextHost}

def has (cache : HashlineReadCache host) (filePath : String) : Bool :=
  (cache.entries.lookup filePath).isSome

def delete (cache : HashlineReadCache host) (filePath : String) : HashlineReadCache host :=
  match cache.entries.lookup filePath with
  | some cached =>
    { cache with
      entries := cache.entries.filter fun entry => entry.1 ≠ filePath
      bytes := cache.bytes - cached.bytes }
  | none => cache

/-- Drop entries from the oldest on until one more fits. -/
def evict (maxBytes maxEntries added : Nat) :
    List (String × CacheEntry host) → Nat → List (String × CacheEntry host) × Nat
  | [], bytes => ([], bytes)
  | oldest :: entries, bytes =>
    if maxEntries ≤ (oldest :: entries).length ∨ maxBytes < bytes + added then
      evict maxBytes maxEntries added entries (bytes - oldest.2.bytes)
    else (oldest :: entries, bytes)

def snapshotOf (host : TextHost) : ReadInput → ReadSnapshot
  | .text raw => createReadSnapshot host raw
  | .buffer raw => createBufferReadSnapshot host (utf8 raw) raw

theorem snapshotOf_eq (input : ReadInput) :
    snapshotOf host input = createReadSnapshot host input.raw := by
  cases input with
  | text raw => rfl
  | buffer raw => exact createBufferReadSnapshot_eq raw

/-- Keep a new snapshot, if it fits at all. -/
def fill (cache : HashlineReadCache host) (filePath : String) (input : ReadInput) :
    ReadSnapshot × HashlineReadCache host :=
  let snapshot := snapshotOf host input
  let bytes := 256 + filePath.length * 2 + utf16Length input.raw * 2 +
    (if snapshot.content = input.raw then 0 else utf16Length snapshot.content * 2) +
    snapshot.lineStarts.length * 16
  if cache.maxBytes < bytes ∨ cache.maxEntries = 0 then (snapshot, cache)
  else
    let kept := evict cache.maxBytes cache.maxEntries bytes cache.entries cache.bytes
    let entry : CacheEntry host :=
      { raw := input.raw, snapshot := snapshot, bytes := bytes, sound := snapshotOf_eq input }
    (snapshot, { cache with entries := kept.1 ++ [(filePath, entry)], bytes := kept.2 + bytes })

theorem fill_snapshot (cache : HashlineReadCache host) (filePath : String) (input : ReadInput) :
    (cache.fill filePath input).1 = createReadSnapshot host input.raw := by
  rw [← snapshotOf_eq]
  unfold fill
  dsimp only
  generalize 256 + filePath.length * 2 + utf16Length input.raw * 2 + _ + _ = bytes
  split <;> rfl

/-- The text just read decides whether the cached snapshot still holds. -/
def get (cache : HashlineReadCache host) (filePath : String) (input : ReadInput) :
    ReadSnapshot × HashlineReadCache host :=
  match cache.entries.lookup filePath with
  | some cached =>
    if cached.raw = input.raw then
      let others := cache.entries.filter fun entry => entry.1 ≠ filePath
      (cached.snapshot, { cache with entries := others ++ [(filePath, cached)] })
    else (cache.delete filePath).fill filePath input
  | none => (cache.delete filePath).fill filePath input

theorem get_snapshot (cache : HashlineReadCache host) (filePath : String) (input : ReadInput) :
    (cache.get filePath input).1 = createReadSnapshot host input.raw := by
  unfold get
  split
  · next cached _ =>
    split
    · next hraw => rw [cached.sound, hraw]
    · exact fill_snapshot _ filePath input
  · exact fill_snapshot _ filePath input

end HashlineReadCache

def hashlineRead (host : TextHost) (cache : HashlineReadCache host) (filePath : String) (raw : Text)
    (offset limit : Option Nat) : ReadOutput × HashlineReadCache host :=
  let input := if cache.has filePath then ReadInput.text raw else .buffer raw
  let found := cache.get filePath input
  (formatSnapshot host found.1 offset limit, found.2)

theorem hashlineRead_full {host : TextHost} (cache : HashlineReadCache host) (filePath : String)
    (raw : Text) :
    (hashlineRead host cache filePath raw none none).1 = let content := canonicalizeFileContent raw
      let hashWidth := hashWidthForLineCount host (splitLines content).length
      { version := computeFileVersion host content
        hashWidth := hashWidth
        totalLines := (splitLines content).length
        window := none
        lines := annotate host hashWidth 1 (splitLines content) } := by
  have hraw : (if cache.has filePath then ReadInput.text raw else .buffer raw).raw = raw := by
    split <;> rfl
  unfold hashlineRead
  dsimp only
  rw [cache.get_snapshot, hraw, createReadSnapshot_eq, formatSnapshot_full]
end Rolebox.Hashline
