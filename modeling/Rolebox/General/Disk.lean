import Mathlib.Data.List.Basic

/-! Directory entries, the files they name by inodes, links, and the calls that change them. -/

namespace General
open Function
variable {Name Inode Data : Type*}

inductive Node (Name Inode : Type*) where
  | file (inode : Inode)
  | link (target : Name)
  deriving DecidableEq

/-- What a reader of one entry alone can tell: the text of its file, or where its link leads. -/
inductive Held (Name Data : Type*) where
  | file (data : Data)
  | link (target : Name)
  deriving DecidableEq

structure Disk (Name Inode Data : Type*) where
  node : Name → Option (Node Name Inode)
  data : Inode → Data
  nlink : Inode → Nat

namespace Disk
variable {d : Disk Name Inode Data} {name : Name}

/-- The file at an entry or at the end of its link. -/
def stat (d : Disk Name Inode Data) (name : Name) : Option Inode :=
  match d.node name with
  | some (.file inode) => some inode
  | some (.link target) =>
    match d.node target with
    | some (.file inode) => some inode
    | _ => none
  | none => none

def realpath (d : Disk Name Inode Data) (name : Name) : Option Name :=
  match d.node name with
  | some (.file _) => some name
  | some (.link target) =>
    match d.node target with
    | some (.file _) => some target
    | _ => none
  | none => none

theorem realpath_some {target : Name} (h : d.realpath name = some target) :
    ∃ inode, d.node target = some (.file inode) ∧ d.stat name = some inode := by
  unfold realpath at h
  unfold stat
  split at h
  · next inode hnode =>
    cases h
    exact ⟨inode, hnode, rfl⟩
  · next last hnode =>
    split at h
    · next inode hlast =>
      cases h
      exact ⟨inode, hlast, rfl⟩
    · cases h
  · cases h

theorem realpath_none (h : d.realpath name = none) :
    d.stat name = none ∧ ∀ inode, d.node name ≠ some (.file inode) := by
  unfold realpath at h
  unfold stat
  split at h
  · cases h
  · next target hnode =>
    split at h
    · cases h
    · exact ⟨rfl, fun inode hfile => nomatch hnode.symm.trans hfile⟩
  · next hnode => exact ⟨rfl, fun inode hfile => nomatch hnode.symm.trans hfile⟩

def read (d : Disk Name Inode Data) (name : Name) : Option Data := (d.stat name).map d.data

def held (d : Disk Name Inode Data) (name : Name) : Option (Held Name Data) :=
  (d.node name).map fun
    | .file inode => .file (d.data inode)
    | .link target => .link target

theorem held_of_file {inode : Inode} (h : d.node name = some (.file inode)) :
    d.held name = some (.file (d.data inode)) := by
  simp only [held, h, Option.map_some]

section Calls
variable [DecidableEq Name] [DecidableEq Inode]

def create (d : Disk Name Inode Data) (name : Name) (inode : Inode) (x : Data) :
    Disk Name Inode Data :=
  { node := update d.node name (some (.file inode))
    data := update d.data inode x
    nlink := update d.nlink inode 1 }

/-- The content of a file is replaced, under all of its names. -/
def write (d : Disk Name Inode Data) (inode : Inode) (x : Data) : Disk Name Inode Data :=
  { d with data := update d.data inode x }

def dropLink (d : Disk Name Inode Data) : Option (Node Name Inode) → Inode → Nat
  | some (.file inode) => update d.nlink inode (d.nlink inode - 1)
  | _ => d.nlink

def unlink (d : Disk Name Inode Data) (name : Name) : Disk Name Inode Data :=
  { d with
    node := update d.node name none
    nlink := d.dropLink (d.node name) }

/-- A second name for a file; an entry that exists is never replaced. -/
def link (d : Disk Name Inode Data) (old new : Name) : Option (Disk Name Inode Data) :=
  match d.node old, d.node new with
  | some (.file inode), none =>
    some { d with
      node := update d.node new (some (.file inode))
      nlink := update d.nlink inode (d.nlink inode + 1) }
  | _, _ => none

/-- An entry takes the place of another; two names of one file stay as they are. -/
def rename (d : Disk Name Inode Data) (old new : Name) : Option (Disk Name Inode Data) :=
  match d.node old with
  | none => none
  | some node =>
    if d.node new = some node then some d
    else
      some { d with
        node := update (update d.node new (some node)) old none
        nlink := d.dropLink (d.node new) }

end Calls

theorem stat_some {inode : Inode} (h : d.stat name = some inode) :
    ∃ last, d.node last = some (.file inode) ∧ (last = name ∨ d.node name = some (.link last)) := by
  unfold stat at h
  split at h
  · next hnode =>
    cases h
    exact ⟨name, hnode, .inl rfl⟩
  · next target hnode =>
    split at h
    · next hlast =>
      cases h
      exact ⟨target, hlast, .inr hnode⟩
    · cases h
  · cases h

/-- An entry is as it was, and so is the file it names. -/
structure Untouched (d d' : Disk Name Inode Data) (name : Name) : Prop where
  node : d'.node name = d.node name
  data : ∀ inode, d.node name = some (.file inode) → d'.data inode = d.data inode

namespace Untouched
variable {d d' d'' : Disk Name Inode Data} {name : Name}

theorem refl (d : Disk Name Inode Data) (name : Name) : Untouched d d name := ⟨rfl, fun _ _ => rfl⟩

theorem trans (h : Untouched d d' name) (h' : Untouched d' d'' name) : Untouched d d'' name := by
  refine ⟨h'.node.trans h.node, ?_⟩
  intro inode hinode
  have hnext : d'.node name = some (.file inode) := h.node.trans hinode
  rw [h'.data inode hnext, h.data inode hinode]

theorem read {x : Data} (h : d.read name = some x)
    (hkeep : ∀ p node, d.node p = some node → p = name ∨ d.node name = some (.link p) →
      Untouched d d' p) : d'.read name = some x := by
  obtain ⟨inode, hstat, hdata⟩ := Option.map_eq_some_iff.1 h
  obtain ⟨last, hlast, hpath⟩ := stat_some hstat
  have hkept := hkeep last _ hlast hpath
  have hstat' : d'.stat name = some inode := by
    rcases hpath with rfl | hlink
    · simp only [stat, hkept.node, hlast]
    · have hname := hkeep name _ hlink (.inl rfl)
      simp only [stat, hname.node, hlink, hkept.node, hlast]
  unfold Disk.read
  rw [hstat', Option.map_some, hkept.data inode hlast, hdata]

end Untouched

section Frames
variable [DecidableEq Name] [DecidableEq Inode] {d d' : Disk Name Inode Data} {name other : Name}
  {inode : Inode}
variable {old new : Name}

theorem untouched_create (x : Data) (hname : other ≠ name)
    (hinode : d.node other ≠ some (.file inode)) : Untouched d (d.create name inode x) other := by
  refine ⟨update_of_ne hname _ _, ?_⟩
  intro i hi
  have hne : i ≠ inode := by
    rintro rfl
    exact hinode hi
  exact update_of_ne hne _ _

omit [DecidableEq Name] in
theorem untouched_write (x : Data) (hinode : d.node other ≠ some (.file inode)) :
    Untouched d (d.write inode x) other := by
  refine ⟨rfl, ?_⟩
  intro i hi
  have hne : i ≠ inode := by
    rintro rfl
    exact hinode hi
  exact update_of_ne hne _ _

theorem untouched_unlink (hname : other ≠ name) : Untouched d (d.unlink name) other :=
  ⟨update_of_ne hname _ _, fun _ _ => rfl⟩

theorem untouched_link (h : d.link old new = some d') (hnew : other ≠ new) :
    Untouched d d' other := by
  unfold link at h
  split at h
  · cases h
    exact ⟨update_of_ne hnew _ _, fun _ _ => rfl⟩
  · cases h

theorem untouched_rename (h : d.rename old new = some d') (hold : other ≠ old)
    (hnew : other ≠ new) : Untouched d d' other := by
  unfold rename at h
  split at h
  · cases h
  split at h
  · cases h
    exact .refl d other
  · cases h
    refine ⟨?_, fun _ _ => rfl⟩
    show update (update d.node new _) old none other = d.node other
    rw [update_of_ne hold, update_of_ne hnew]

theorem rename_file (hold : d.node old = some (.file inode))
    (hnew : d.node new ≠ some (.file inode)) :
    ∃ d', d.rename old new = some d' ∧ d'.data = d.data ∧
      d'.node = update (update d.node new (some (.file inode))) old none := by
  unfold rename
  rw [hold]
  simp only [if_neg hnew]
  exact ⟨_, rfl, rfl, rfl⟩

end Frames

end Disk

end General
