import Rolebox.General.Framing
import Rolebox.General.JsText
import Rolebox.General.StableSort
import Rolebox.Log.Files

/-! The integrity digest of an installed role: when it is an identity of what was installed. -/

namespace Rolebox.Cli
open List

open General
open Utf8 (Bytes)
open Log (Collation sortBy)

mutual

inductive TreeEntry where
  | dir (entries : Listing)
  | link (target : Bytes)
  | file (data : Bytes)
  | unreadable (message : String)
  | other

inductive Listing where
  | nil
  | cons (name : String) (entry : TreeEntry) (rest : Listing)

end

inductive EntryKind where
  | f
  | l
  | d
  deriving DecidableEq

def EntryKind.text : EntryKind → String
  | .f => "f"
  | .l => "l"
  | .d => "d"

structure IntegrityEntry where
  relativePath : String
  kind : EntryKind
  data : Bytes
  deriving DecidableEq

def relPath (sep pre entry : String) : String := if pre = "" then entry else pre ++ sep ++ entry

mutual

def walkFiles (sep pre : String) : Listing → Except String (List IntegrityEntry)
  | .nil => .ok []
  | .cons name entry rest => do
    let results ← walkEntry sep (relPath sep pre name) entry
    let more ← walkFiles sep pre rest
    .ok (results ++ more)

def walkEntry (sep path : String) : TreeEntry → Except String (List IntegrityEntry)
  | .dir entries => do
    let inside ← walkFiles sep path entries
    .ok (⟨path, .d, []⟩ :: inside)
  -- The target is read as a string, and the bytes of that string are kept.
  | .link target => .ok [⟨path, .l, Utf8.encode (Utf8.decode target)⟩]
  | .file data => .ok [⟨path, .f, data⟩]
  | .unreadable message => .error message
  | .other => .error ("cannot compute integrity of " ++ path ++
      ": unsupported entry type (not a file, directory or symlink)")

end

mutual

/-- What a listing holds, if it can be read in full. -/
def Listing.contents (sep pre : String) : Listing → Option (List IntegrityEntry)
  | .nil => some []
  | .cons name entry rest => do
    let here ← entry.contents sep (relPath sep pre name)
    let more ← rest.contents sep pre
    some (here ++ more)

def TreeEntry.contents (sep path : String) : TreeEntry → Option (List IntegrityEntry)
  | .dir entries => (entries.contents sep path).map (⟨path, .d, []⟩ :: ·)
  | .link target => some [⟨path, .l, target⟩]
  | .file data => some [⟨path, .f, data⟩]
  | .unreadable _ | .other => none

end

/-- An entry as the digest sees it. -/
def IntegrityEntry.read (entry : IntegrityEntry) : IntegrityEntry :=
  match entry.kind with
  | .l => { entry with data := Utf8.encode (Utf8.decode entry.data) }
  | _ => entry

def IntegrityEntry.Fits (entry : IntegrityEntry) : Prop :=
  (Utf8.encode entry.relativePath.toList).length < 2 ^ 64 ∧ entry.data.length < 2 ^ 64

/-- A directory tree: no two entries have one path, and every string and buffer has a length. -/
structure RoleTree (sep : String) where
  entries : Listing
  distinct : ∀ es ∈ entries.contents sep "", (es.map (·.relativePath)).Nodup
  sized : ∀ es ∈ entries.contents sep "", ∀ e ∈ es, e.read.Fits

inductive DirPath (sep : String) where
  | missing
  | unlistable (message : String)
  | tree (role : RoleTree sep)

variable {sep : String}

def DirPath.files : DirPath sep → Except String (List IntegrityEntry)
  | .missing => .ok []
  | .unlistable message => .error message
  | .tree role => walkFiles sep "" role.entries

def hashField (hash value : Bytes) : Bytes := hash ++ Framing.frame value

def hashEntry (hash : Bytes) (file : IntegrityEntry) : Bytes :=
  let hash := hashField hash (Utf8.encode file.relativePath.toList)
  let hash := hashField hash (Utf8.encode file.kind.text.toList)
  hashField hash file.data

def comparePaths (collation : Collation) (a b : IntegrityEntry) : Ordering :=
  collation.localeCompare a.relativePath b.relativePath

def computeIntegrity (sha256 : Bytes → String) (collation : Collation) (dir : DirPath sep) :
    Except String String := do
  let files ← dir.files
  .ok ("sha256-" ++ sha256 ((sortBy (comparePaths collation) files).foldl hashEntry []))

def DirPath.contents : DirPath sep → Option (List IntegrityEntry)
  | .tree role => role.entries.contents sep ""
  | _ => none

/-- Two computations tell two directories apart exactly when they differ, and refuse partial ones. -/
structure Identifies (sha256 : Bytes → String) (collation collation' : Collation)
    (a b : DirPath sep) : Prop where
  same : ∀ es ∈ a.contents, ∀ es' ∈ b.contents,
    computeIntegrity sha256 collation a = computeIntegrity sha256 collation' b ↔
      ∀ e, e ∈ es ↔ e ∈ es'
  left : a.contents = none → ∃ message, computeIntegrity sha256 collation a = .error message
  right : b.contents = none → ∃ message, computeIntegrity sha256 collation' b = .error message

/-- No two entries are put one way by the first computation and the other way by the second. -/
def SortedAlike (collation collation' : Collation) (es es' : List IntegrityEntry) : Prop :=
  ∀ x ∈ es, ∀ y ∈ es, StableSort.Before (comparePaths collation) es x y →
    StableSort.Before (comparePaths collation') es' x y

/-- Links that are read alike at one path have one target. -/
def SameTargets (es es' : List IntegrityEntry) : Prop :=
  ∀ e ∈ es, ∀ e' ∈ es', e.read = e'.read → e = e'

instance (collation : Collation) : Std.TransCmp (comparePaths collation) where
  eq_swap := collation.lawful.eq_swap
  isLE_trans := collation.lawful.isLE_trans

mutual

theorem walkFiles_eq (pre : String) : ∀ listing : Listing,
    (∀ es ∈ listing.contents sep pre, walkFiles sep pre listing = .ok (es.map (·.read))) ∧
    (listing.contents sep pre = none → ∃ message, walkFiles sep pre listing = .error message)
  | .nil => ⟨by rintro es ⟨⟩; rfl, nofun⟩
  | .cons name entry rest => by
    obtain ⟨hhere, hrefused⟩ := walkEntry_eq (relPath sep pre name) entry
    obtain ⟨hmore, hstopped⟩ := walkFiles_eq pre rest
    rw [Listing.contents, walkFiles]
    cases hentry : entry.contents sep (relPath sep pre name) with
    | none =>
      obtain ⟨message, hmessage⟩ := hrefused hentry
      rw [hmessage]
      exact ⟨nofun, fun _ => ⟨message, rfl⟩⟩
    | some here =>
      rw [hhere here hentry]
      cases hrest : rest.contents sep pre with
      | none =>
        obtain ⟨message, hmessage⟩ := hstopped hrest
        rw [hmessage]
        exact ⟨nofun, fun _ => ⟨message, rfl⟩⟩
      | some more =>
        rw [hmore more hrest]
        refine ⟨?_, nofun⟩
        rintro es ⟨⟩
        rw [map_append]
        rfl

theorem walkEntry_eq (path : String) : ∀ entry : TreeEntry,
    (∀ es ∈ entry.contents sep path, walkEntry sep path entry = .ok (es.map (·.read))) ∧
    (entry.contents sep path = none → ∃ message, walkEntry sep path entry = .error message)
  | .dir entries => by
    obtain ⟨hinside, hrefused⟩ := walkFiles_eq path entries
    rw [TreeEntry.contents, walkEntry]
    cases hentries : entries.contents sep path with
    | none =>
      obtain ⟨message, hmessage⟩ := hrefused hentries
      rw [hmessage]
      exact ⟨nofun, fun _ => ⟨message, rfl⟩⟩
    | some inside =>
      rw [hinside inside hentries]
      exact ⟨by rintro es ⟨⟩; rfl, nofun⟩
  | .link target => ⟨by rintro es ⟨⟩; rfl, nofun⟩
  | .file data => ⟨by rintro es ⟨⟩; rfl, nofun⟩
  | .unreadable message => ⟨nofun, fun _ => ⟨message, rfl⟩⟩
  | .other => ⟨nofun, fun _ => ⟨_, rfl⟩⟩

end

variable {sha256 : Bytes → String} {collation collation' : Collation} {a b : DirPath sep}
  {es es' : List IntegrityEntry}

theorem read_path (e : IntegrityEntry) : e.read.relativePath = e.relativePath := by
  unfold IntegrityEntry.read
  split <;> rfl

theorem DirPath.files_eq (h : es ∈ a.contents) : a.files = .ok (es.map (·.read)) := by
  cases a with
  | tree role => exact (walkFiles_eq "" role.entries).1 es h
  | missing => exact nomatch h
  | unlistable message => exact nomatch h

theorem DirPath.contents_nodup (h : es ∈ a.contents) : (es.map (·.relativePath)).Nodup := by
  cases a with
  | tree role => exact role.distinct es h
  | missing => exact nomatch h
  | unlistable message => exact nomatch h

theorem DirPath.reads_nodup (h : es ∈ a.contents) : (es.map (·.read)).Nodup := by
  refine .of_map (·.relativePath) ?_
  rw [map_map, Function.comp_def]
  simp only [read_path]
  exact contents_nodup h

theorem DirPath.sized (h : es ∈ a.contents) : ∀ e ∈ es.map (·.read), e.Fits := by
  cases a with
  | tree role => exact forall_mem_map.2 (role.sized es h)
  | missing => exact nomatch h
  | unlistable message => exact nomatch h

/-- A partial directory is refused, unless it is not there at all. -/
theorem computeIntegrity_error (h : a.contents = none) :
    (∃ message, computeIntegrity sha256 collation a = .error message) ↔ a ≠ .missing := by
  cases a with
  | missing => exact ⟨fun ⟨_, hdigest⟩ => (nomatch hdigest), fun hne => (hne rfl).elim⟩
  | unlistable message => exact ⟨nofun, fun _ => ⟨message, rfl⟩⟩
  | tree role =>
    obtain ⟨message, hmessage⟩ := (walkFiles_eq "" role.entries).2 h
    refine ⟨nofun, fun _ => ⟨message, ?_⟩⟩
    rw [computeIntegrity, DirPath.files, hmessage]
    rfl

def code (file : IntegrityEntry) : Bytes :=
  Framing.frame (Utf8.encode file.relativePath.toList) ++
    (Framing.frame (Utf8.encode file.kind.text.toList) ++ Framing.frame file.data)

theorem foldl_hashEntry (files : List IntegrityEntry) (hash : Bytes) :
    files.foldl hashEntry hash = hash ++ files.flatMap code := by
  induction files generalizing hash with
  | nil => exact (append_nil hash).symm
  | cons file files ih =>
    rw [foldl_cons, ih, flatMap_cons]
    simp only [hashEntry, hashField, code, append_assoc]

theorem encode_inj {s t : String} (h : Utf8.encode s.toList = Utf8.encode t.toList) : s = t := by
  have hdecoded := congrArg Utf8.decode h
  rw [Utf8.decode_encode, Utf8.decode_encode] at hdecoded
  exact String.toList_inj.1 hdecoded

theorem code_append_inj {e e' : IntegrityEntry} {x y : Bytes} (he : e.Fits) (he' : e'.Fits)
    (h : code e ++ x = code e' ++ y) : e = e' ∧ x = y := by
  have hkind : ∀ kind : EntryKind, (Utf8.encode kind.text.toList).length < 2 ^ 64 := by
    rintro (_ | _ | _) <;> decide
  simp only [code, append_assoc] at h
  obtain ⟨hpath, h⟩ := Framing.frame_append_inj he.1 he'.1 h
  obtain ⟨hkind, h⟩ := Framing.frame_append_inj (hkind _) (hkind _) h
  obtain ⟨hdata, hrest⟩ := Framing.frame_append_inj he.2 he'.2 h
  have htext : ∀ kind kind' : EntryKind, kind.text = kind'.text → kind = kind' := by
    rintro (_ | _ | _) (_ | _ | _) heq
    all_goals first | rfl | exact absurd heq (by decide)
  cases e
  cases e'
  cases encode_inj hpath
  cases htext _ _ (encode_inj hkind)
  cases hdata
  exact ⟨rfl, hrest⟩

/-- Equal digests are digests of the same entries in the same order. -/
theorem digest_eq_iff (hsha : Function.Injective sha256) (ha : es ∈ a.contents)
    (hb : es' ∈ b.contents) :
    computeIntegrity sha256 collation a = computeIntegrity sha256 collation' b ↔
      sortBy (comparePaths collation) (es.map (·.read)) =
        sortBy (comparePaths collation') (es'.map (·.read)) := by
  rw [computeIntegrity, computeIntegrity, DirPath.files_eq ha, DirPath.files_eq hb]
  refine ⟨fun h => ?_, fun h => ?_⟩
  · have hdigest := hsha (String.append_right_inj _ |>.1 (Except.ok.inj h))
    rw [foldl_hashEntry, foldl_hashEntry, nil_append, nil_append] at hdigest
    refine Framing.flatMap_inj (fun e hnil => ?_) (fun e he e' he' x y => ?_) hdigest
    · exact nomatch congrArg length hnil
    · exact code_append_inj (DirPath.sized ha e (Log.mem_sortBy.1 he))
        (DirPath.sized hb e' (Log.mem_sortBy.1 he'))
  · show Except.ok _ = Except.ok _
    rw [h]

theorem reads_perm (ha : es ∈ a.contents) (hb : es' ∈ b.contents)
    (h : ∀ e, e ∈ es.map (·.read) ↔ e ∈ es'.map (·.read)) :
    (es.map (·.read)).Perm (es'.map (·.read)) :=
  (perm_ext_iff_of_nodup (DirPath.reads_nodup ha) (DirPath.reads_nodup hb)).2 h

theorem same_reads (h : ∀ e, e ∈ es ↔ e ∈ es') (e : IntegrityEntry) :
    e ∈ es.map (·.read) ↔ e ∈ es'.map (·.read) := by
  simp only [mem_map, h]

/-- Two trees that are read alike hold the same entries when their links have the same targets. -/
theorem same_iff_targets (ha : es ∈ a.contents)
    (hreads : ∀ e, e ∈ es.map (·.read) ↔ e ∈ es'.map (·.read)) :
    (∀ e, e ∈ es ↔ e ∈ es') ↔ SameTargets es es' := by
  refine ⟨fun h e he e' he' hread => ?_, fun h e => ⟨fun he => ?_, fun he => ?_⟩⟩
  · have hpath := congrArg (·.relativePath) hread
    simp only [read_path] at hpath
    exact inj_on_of_nodup_map (DirPath.contents_nodup ha) he ((h e').2 he') hpath
  · obtain ⟨e', he', hread⟩ := mem_map.1 ((hreads e.read).1 (mem_map_of_mem he))
    rwa [h e he e' he' hread.symm]
  · obtain ⟨e', he', hread⟩ := mem_map.1 ((hreads e.read).2 (mem_map_of_mem he))
    rwa [← h e' he' e he hread]

theorem digest_eq_iff_sorted (hsha : Function.Injective sha256) (ha : es ∈ a.contents)
    (hb : es' ∈ b.contents) (hreads : ∀ e, e ∈ es.map (·.read) ↔ e ∈ es'.map (·.read)) :
    computeIntegrity sha256 collation a = computeIntegrity sha256 collation' b ↔
      SortedAlike collation collation' (es.map (·.read)) (es'.map (·.read)) :=
  (digest_eq_iff hsha ha hb).trans
    (StableSort.mergeSort_eq_iff (DirPath.reads_nodup ha) (reads_perm ha hb hreads))

/-- The digest is an identity of the two directories exactly when neither is missing, no two
entries of equal trees are sorted apart, and trees read and sorted alike have the same targets. -/
theorem integrity_identifies_iff (hsha : Function.Injective sha256) :
    Identifies sha256 collation collation' a b ↔
      (a ≠ .missing ∧ b ≠ .missing) ∧ ∀ es ∈ a.contents, ∀ es' ∈ b.contents,
        (∀ e, e ∈ es.map (·.read) ↔ e ∈ es'.map (·.read)) →
          (SameTargets es es' ↔
            SortedAlike collation collation' (es.map (·.read)) (es'.map (·.read))) := by
  refine ⟨fun h => ⟨⟨?_, ?_⟩, fun es ha es' hb hreads => ?_⟩, fun ⟨⟨hleft, hright⟩, h⟩ => ?_⟩
  · rintro rfl
    exact (computeIntegrity_error rfl).1 (h.left rfl) rfl
  · rintro rfl
    exact (computeIntegrity_error rfl).1 (h.right rfl) rfl
  · rw [← same_iff_targets ha hreads, ← h.same es ha es' hb]
    exact digest_eq_iff_sorted hsha ha hb hreads
  · refine ⟨fun es ha es' hb => ⟨fun hdigest => ?_, fun hsame => ?_⟩, fun hnone => ?_,
      fun hnone => ?_⟩
    · have hsorted := (digest_eq_iff hsha ha hb).1 hdigest
      have hreads : ∀ e, e ∈ es.map (·.read) ↔ e ∈ es'.map (·.read) := by
        intro e
        rw [← @Log.mem_sortBy _ (comparePaths collation), hsorted, Log.mem_sortBy]
      exact (same_iff_targets ha hreads).2 ((h es ha es' hb hreads).2
        ((digest_eq_iff_sorted hsha ha hb hreads).1 hdigest))
    · have hreads := same_reads hsame
      exact (digest_eq_iff_sorted hsha ha hb hreads).2
        ((h es ha es' hb hreads).1 ((same_iff_targets ha hreads).1 hsame))
    · exact (computeIntegrity_error hnone).2 hleft
    · exact (computeIntegrity_error hnone).2 hright

def plainHash (bytes : Bytes) : String :=
  String.ofList (bytes.map fun byte => Char.ofNat byte.toNat)

theorem plainHash_injective : Function.Injective plainHash := fun _ _ h =>
  JsText.charOfByte_injective.list_map (String.ofList_injective h)

def byCodePoint : Collation := ⟨compare, Log.transCmp_compare⟩

def reviewSkills : TreeEntry := .dir (.cons "review.md" (.file [2]) .nil)

def listedRole : DirPath "/" :=
  .tree ⟨.cons "role.yaml" (.file [1]) (.cons "skills" reviewSkills .nil), by rintro es ⟨⟩; decide, by
    rintro es ⟨⟩
    unfold IntegrityEntry.Fits
    decide +kernel⟩

def relistedRole : DirPath "/" :=
  .tree ⟨.cons "skills" reviewSkills (.cons "role.yaml" (.file [1]) .nil), by rintro es ⟨⟩; decide, by
    rintro es ⟨⟩
    unfold IntegrityEntry.Fits
    decide +kernel⟩

def editedRole : DirPath "/" :=
  .tree ⟨.cons "role.yaml" (.file [3]) (.cons "skills" reviewSkills .nil), by rintro es ⟨⟩; decide, by
    rintro es ⟨⟩
    unfold IntegrityEntry.Fits
    decide +kernel⟩

theorem integrity_identifies_trees :
    Identifies plainHash byCodePoint byCodePoint listedRole relistedRole ∧
      Identifies plainHash byCodePoint byCodePoint listedRole editedRole := by
  constructor
  · refine (integrity_identifies_iff plainHash_injective).2 ⟨⟨nofun, nofun⟩, ?_⟩
    rintro es ⟨⟩ es' ⟨⟩ -
    refine iff_of_true (by unfold SameTargets; decide) ?_
    unfold SortedAlike StableSort.Before
    decide +kernel
  · refine (integrity_identifies_iff plainHash_injective).2 ⟨⟨nofun, nofun⟩, ?_⟩
    rintro es ⟨⟩ es' ⟨⟩ hreads
    exact absurd ((hreads _).1 (.head _)) (by decide)

/-- A missing directory has a digest. -/
theorem missing_has_digest :
    ¬ ∀ (sha256 : Bytes → String), Function.Injective sha256 →
      ∀ (collation collation' : Collation) (sep : String) (a b : DirPath sep),
        Identifies sha256 collation collation' a b := by
  intro hclaim
  have hmissing := (hclaim plainHash plainHash_injective byCodePoint byCodePoint "/" .missing
    listedRole).left rfl
  exact (computeIntegrity_error rfl).1 hmissing rfl

end Rolebox.Cli
