import Mathlib.Data.List.TakeWhile
import Mathlib.Data.List.Nodup
import Mathlib.Data.Rat.Defs
import Rolebox.General.Folds

/-! The files of a log directory: their channels and rotations, and their order. -/

namespace Rolebox.Log
open List Option

structure FileStat where
  dev : Nat
  ino : Nat
  sizeBytes : Nat
  mtimeMs : Rat

structure LogFileInfo where
  path : String
  channel : String
  rotation : Nat
  sizeBytes : Nat
  mtimeMs : Rat
  deriving DecidableEq

/-- A directory: its entries, and the stat of those that are readable regular files. -/
structure LogDirectory where
  dir : String
  entries : List (String × Option FileStat)
  nodup : (entries.map Prod.fst).Nodup

/-- The order strings are compared in by the host's locale. -/
structure Collation where
  localeCompare : String → String → Ordering
  lawful : Std.TransCmp localeCompare

attribute [instance] Collation.lawful

theorem transCmp_compare : Std.TransCmp (compare : String → String → Ordering) := inferInstance

def Collation.comparePaths (collation : Collation) (left right : LogFileInfo) : Ordering :=
  collation.localeCompare left.path right.path

instance (collation : Collation) : Std.TransCmp collation.comparePaths where
  eq_swap := collation.lawful.eq_swap
  isLE_trans := collation.lawful.isLE_trans

namespace LogDirectory

def join (d : LogDirectory) (name : String) : String := d.dir ++ "/" ++ name

theorem join_injective (d : LogDirectory) : Function.Injective d.join := fun _ _ h =>
  String.append_right_inj _ |>.1 h

def statLogFile (d : LogDirectory) (name : String) : Option FileStat :=
  (d.entries.find? fun entry => entry.1 = name).bind Prod.snd

def without (d : LogDirectory) (paths : List String) : LogDirectory where
  dir := d.dir
  entries := d.entries.filter fun entry => d.join entry.1 ∉ paths
  nodup := d.nodup.sublist (filter_sublist.map _)

def rmSync (d : LogDirectory) (path : String) : LogDirectory := d.without [path]

@[simp] theorem without_join (d : LogDirectory) (paths : List String) :
    (d.without paths).join = d.join := rfl

@[simp] theorem without_nil (d : LogDirectory) : d.without [] = d := by
  unfold without
  simp

theorem without_without (d : LogDirectory) (paths paths' : List String) :
    (d.without paths).without paths' = d.without (paths ++ paths') := by
  have hentries : (d.entries.filter fun entry => d.join entry.1 ∉ paths).filter
      (fun entry => d.join entry.1 ∉ paths') =
        d.entries.filter fun entry => d.join entry.1 ∉ paths ++ paths' := by
    rw [List.filter_filter]
    refine filter_congr fun entry _ => ?_
    simp only [mem_append, not_or, Bool.decide_and, Bool.and_comm]
  unfold without
  simp only [LogDirectory.mk.injEq, true_and]
  exact hentries

theorem statLogFile_without {d : LogDirectory} {paths : List String} {name : String} :
    (d.without paths).statLogFile name =
      if d.join name ∈ paths then none else d.statLogFile name := by
  unfold statLogFile without
  rw [find?_filter]
  split
  · next hgone =>
    rw [find?_eq_none.2]
    · rfl
    intro entry _ hentry
    obtain ⟨hkept, hname⟩ := of_decide_eq_true hentry
    rw [of_decide_eq_true hname] at hkept
    exact of_decide_eq_true hkept hgone
  · next hkept =>
    have hsame : (fun entry : String × Option FileStat =>
        decide (decide (d.join entry.1 ∉ paths) = true ∧ decide (entry.1 = name) = true)) =
          fun entry => decide (entry.1 = name) := by
      funext entry
      by_cases hname : entry.1 = name
      · simp only [hname, hkept, not_false_eq_true, decide_true, and_self]
      · simp only [hname, decide_false, Bool.false_eq_true, and_false]
    rw [hsame]

end LogDirectory

def parseDigits (digits : List Char) : Nat :=
  digits.foldl (fun n c => 10 * n + (c.toNat - '0'.toNat)) 0

def endsLine (c : Char) : Bool :=
  c = '\n' ∨ c = '\r' ∨ c = '\u2028' ∨ c = '\u2029'

def channelFileParts (name : String) : Option (String × Nat) :=
  let digits := (name.toList.reverse.takeWhile Char.isDigit).reverse
  let stem := (name.toList.reverse.dropWhile Char.isDigit).reverse
  let parts : Option (List Char × Nat) :=
    if digits = [] then (name.toList.dropSuffix? ".log".toList).map fun channel => (channel, 0)
    else (stem.dropSuffix? ".log.".toList).map fun channel => (channel, max 1 (parseDigits digits))
  match parts with
  | none => none
  | some (channel, rotation) =>
    if channel = [] ∨ channel.any endsLine ∨ channel.filter (· ≠ '.') = [] then none
    else some (String.ofList channel, rotation)

def legacyChannel (name : String) : String :=
  match channelFileParts name with
  | some parts => parts.1
  | none =>
    let stem := (name.toList.reverse.dropWhile (· ≠ '.')).tail.reverse
    if stem = [] then (if name = "" then "rolebox" else name) else String.ofList stem

section Listing

inductive LogSource where
  | dir
  | file (single : String)

inductive LogOrder where
  | asc
  | desc

def fileInfo (d : LogDirectory) (name channel : String) (rotation : Nat) (info : FileStat) :
    LogFileInfo :=
  { path := d.join name
    channel := channel
    rotation := rotation
    sizeBytes := info.sizeBytes
    mtimeMs := info.mtimeMs }

def siblingRotation (single name : String) : Option Nat :=
  match name.toList.dropPrefix? (single.toList ++ ['.']) with
  | none => none
  | some digits =>
    if digits ≠ [] ∧ digits.all Char.isDigit then some (max 1 (parseDigits digits)) else none

def entryFiles (d : LogDirectory) (parts : String → Option (String × Nat)) : List LogFileInfo :=
  d.entries.filterMap fun entry =>
    (parts entry.1).bind fun parts => entry.2.map (fileInfo d entry.1 parts.1 parts.2)

def collectSingleFile (d : LogDirectory) (single : String) : List LogFileInfo :=
  ((d.statLogFile single).map (fileInfo d single (legacyChannel single) 0)).toList ++
    entryFiles d fun name =>
      (siblingRotation single name).map fun rotation => (legacyChannel single, rotation)

def compareLogFiles (collation : Collation) (direction : LogOrder) :
    LogFileInfo → LogFileInfo → Ordering :=
  compareLex (fun left right => collation.localeCompare left.channel right.channel)
    (compareLex
      (fun left right => match direction with
        | .asc => compare left.rotation right.rotation
        | .desc => compare right.rotation left.rotation)
      collation.comparePaths)

def sortBy {α : Type*} (cmp : α → α → Ordering) (l : List α) : List α :=
  l.mergeSort fun a b => (cmp a b).isLE

def collectFiles (source : LogSource) (d : LogDirectory) : List LogFileInfo :=
  match source with
  | .file single => collectSingleFile d single
  | .dir => entryFiles d channelFileParts

def scanLogFiles (collation : Collation) (source : LogSource) (d : LogDirectory) :
    List LogFileInfo :=
  sortBy (compareLogFiles collation .desc) (collectFiles source d)

def listLogFiles (collation : Collation) (source : LogSource) (d : LogDirectory) :
    List LogFileInfo :=
  sortBy (compareLogFiles collation .asc) (scanLogFiles collation source d)

variable {collation : Collation} {source : LogSource} {d : LogDirectory} {paths : List String}

variable {α : Type*}

theorem sortBy_perm (cmp : α → α → Ordering) (l : List α) : (sortBy cmp l).Perm l :=
  mergeSort_perm l _

@[simp] theorem mem_sortBy {cmp : α → α → Ordering} {l : List α} {a : α} :
    a ∈ sortBy cmp l ↔ a ∈ l := (sortBy_perm cmp l).mem_iff

theorem sortBy_pairwise (cmp : α → α → Ordering) [Std.TransCmp cmp] (l : List α) :
    (sortBy cmp l).Pairwise fun a b => (cmp a b).isLE := by
  have htrans : ∀ a b c : α, (cmp a b).isLE = true → (cmp b c).isLE = true →
      (cmp a c).isLE = true := fun _ _ _ => Std.TransCmp.isLE_trans
  refine pairwise_mergeSort htrans (fun a b => ?_) l
  cases hcmp : cmp a b with
  | lt => rfl
  | eq => rfl
  | gt =>
    have hback : cmp b a = .lt := Std.OrientedCmp.lt_of_gt hcmp
    rw [hback]
    rfl

theorem listLogFiles_perm : (listLogFiles collation source d).Perm (collectFiles source d) :=
  (sortBy_perm _ _).trans (sortBy_perm _ _)

theorem entryFiles_nodup (parts : String → Option (String × Nat)) :
    ((entryFiles d parts).map LogFileInfo.path).Nodup := by
  have hpaths : (d.entries.map fun entry => d.join entry.1).Nodup := by
    have hmap := d.nodup.map d.join_injective
    rwa [List.map_map] at hmap
  refine hpaths.sublist (General.map_filterMap_sublist fun entry _ file hfile => ?_)
  obtain ⟨found, -, hfound⟩ := bind_eq_some_iff.1 hfile
  obtain ⟨info, -, rfl⟩ := map_eq_some_iff.1 hfound
  rfl

theorem entryFiles_without (parts : String → Option (String × Nat)) :
    entryFiles (d.without paths) parts =
      (entryFiles d parts).filter fun file => file.path ∉ paths := by
  unfold entryFiles LogDirectory.without
  rw [filterMap_filter, filter_filterMap]
  refine filterMap_congr fun entry _ => ?_
  cases hparts : parts entry.1 with
  | none => simp only [bind_none, ite_self, filter_none]
  | some found =>
    cases hinfo : entry.2 with
    | none => simp only [bind_some, map_none, ite_self, filter_none]
    | some info =>
      simp only [bind_some, map_some, filter_some]
      rfl

theorem siblingRotation_ne {single name : String} {rotation : Nat}
    (h : siblingRotation single name = some rotation) : name ≠ single := by
  rintro rfl
  unfold siblingRotation at h
  split at h
  · exact nomatch h
  next digits hdigits =>
  obtain ⟨pre, hpre, hname⟩ := dropPrefix?_eq_some_iff.1 hdigits
  rw [eq_of_beq hname] at hpre
  have hlength := congrArg length hpre
  simp only [length_append, length_cons, length_nil] at hlength
  omega

theorem mem_entryFiles {parts : String → Option (String × Nat)} {file : LogFileInfo}
    (h : file ∈ entryFiles d parts) : ∃ name found, parts name = some found ∧
      file.path = d.join name ∧ file.channel = found.1 ∧ file.rotation = found.2 := by
  obtain ⟨entry, -, hfile⟩ := mem_filterMap.1 h
  obtain ⟨found, hfound, hrest⟩ := bind_eq_some_iff.1 hfile
  obtain ⟨info, -, rfl⟩ := map_eq_some_iff.1 hrest
  exact ⟨entry.1, found, hfound, rfl, rfl, rfl⟩

theorem listLogFiles_nodup : ((listLogFiles collation source d).map LogFileInfo.path).Nodup := by
  refine (listLogFiles_perm.map LogFileInfo.path).nodup_iff.2 ?_
  cases source with
  | dir => exact entryFiles_nodup _
  | file single =>
    unfold collectFiles collectSingleFile
    rw [map_append, nodup_append]
    refine ⟨?_, entryFiles_nodup _, fun path hpath other hother hsame => ?_⟩
    · cases d.statLogFile single with
      | none => exact nodup_nil
      | some info => exact nodup_singleton _
    · obtain ⟨active, hactive, rfl⟩ := List.mem_map.1 hpath
      obtain ⟨info, -, rfl⟩ := map_eq_some_iff.1 (Option.mem_toList.1 hactive)
      obtain ⟨copy, hcopy, rfl⟩ := List.mem_map.1 hother
      obtain ⟨name, found, hfound, hpath', -⟩ := mem_entryFiles hcopy
      obtain ⟨rotation, hrotation, -⟩ := map_eq_some_iff.1 hfound
      exact siblingRotation_ne hrotation (d.join_injective (hsame.trans hpath').symm)

theorem listLogFiles_without :
    (listLogFiles collation source (d.without paths)).Perm
      ((listLogFiles collation source d).filter fun file => file.path ∉ paths) := by
  refine listLogFiles_perm.trans (Perm.trans ?_ (listLogFiles_perm.filter _).symm)
  cases source with
  | dir => exact .of_eq (entryFiles_without _)
  | file single =>
    have hactive : ((d.without paths).statLogFile single).map
        (fileInfo (d.without paths) single (legacyChannel single) 0) =
          ((d.statLogFile single).map (fileInfo d single (legacyChannel single) 0)).filter
            fun file => file.path ∉ paths := by
      rw [LogDirectory.statLogFile_without]
      cases d.statLogFile single with
      | none => simp only [ite_self, map_none, filter_none]
      | some info =>
        by_cases hgone : d.join single ∈ paths
        · rw [if_pos hgone, map_some, filter_some_neg]
          · rfl
          · exact decide_eq_false (not_not.2 hgone)
        · rw [if_neg hgone, map_some, map_some, filter_some_pos]
          · rfl
          · exact decide_eq_true hgone
    refine .of_eq ?_
    simp only [collectFiles, collectSingleFile]
    rw [hactive, entryFiles_without, filter_append, toList_filter]

end Listing
end Rolebox.Log
