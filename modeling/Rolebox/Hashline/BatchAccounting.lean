import Rolebox.Hashline.AtomicWrite

/-! A batch write accounts for every file, also when it fails. -/

namespace Rolebox.Hashline.AtomicWrite
open General List Function

def aim (paths : Paths) (d : Files) (e : Entry) : Resolved :=
  match if e.realpathFails then none else d.realpath (paths.entryOf e.filePath) with
  | none => { e with target := paths.entryOf e.filePath, inPlace := false }
  | some resolved =>
    { e with
      target := resolved
      inPlace := (d.stat resolved).any fun id => decide (1 < d.nlink id) }

/-- The temporary names drawn are new, and so are the files the platform makes for them. -/
structure FreshTemps (paths : Paths) (d : Files) (rs : List Resolved) : Prop where
  names : rs.Pairwise fun r q => r.tmp paths ≠ q.tmp paths
  inodes : rs.Pairwise fun r q => r.inode ≠ q.inode
  newName : ∀ r ∈ rs, d.node (r.tmp paths) = none
  notTarget : ∀ r ∈ rs, ∀ q ∈ rs, r.tmp paths ≠ q.target
  newInode : ∀ r ∈ rs, ∀ name, d.node name ≠ some (.file r.inode)

structure DistinctFiles (d : Files) (rs : List Resolved) : Prop where
  paths : rs.Pairwise fun r q => r.filePath ≠ q.filePath
  targets : rs.Pairwise fun r q => r.target ≠ q.target
  files : rs.Pairwise fun r q =>
    ∀ id, d.node r.target = some (.file id) → d.node q.target ≠ some (.file id)

def Temporary (paths : Paths) (rs : List Resolved) (name : String) : Prop :=
  ∃ r ∈ rs, name = r.tmp paths

def Unwritten (paths : Paths) (rs : List Resolved) (d d' : Files) : Prop :=
  ∀ name, ¬ Temporary paths rs name → d.Untouched d' name

def Landed (d' : Files) (r : Resolved) : Prop := d'.held r.target = some (.file r.content)

section Apart
variable {paths : Paths} {d : Files} {rs before after : List Resolved} {r q : Resolved}
variable {e : Entry}

theorem resolveWriteTarget_ok (h : resolveWriteTarget paths d e = .ok r) : r = aim paths d e := by
  unfold resolveWriteTarget at h
  unfold aim
  generalize (if e.realpathFails then none else d.realpath (paths.entryOf e.filePath)) = path
    at h ⊢
  cases path with
  | none => exact (Except.ok.inj h).symm
  | some resolved =>
    dsimp only at h
    split at h
    · cases h
    · exact (Except.ok.inj h).symm

theorem resolveAll_ok {es : List Entry} (h : es.mapM (resolveWriteTarget paths d) = .ok rs) :
    rs = es.map (aim paths d) := by
  induction es generalizing rs with
  | nil =>
    cases h
    rfl
  | cons e es ih =>
    rw [mapM_cons] at h
    cases he : resolveWriteTarget paths d e with
    | error cause =>
      rw [he] at h
      cases h
    | ok r =>
      cases hes : es.mapM (resolveWriteTarget paths d) with
      | error cause =>
        rw [he, hes] at h
        cases h
      | ok rest =>
        rw [he, hes] at h
        cases h
        rw [map_cons, ← resolveWriteTarget_ok he, ← ih hes]

theorem aim_of_realpath {target : String} (hf : e.realpathFails = false)
    (h : d.realpath (paths.entryOf e.filePath) = some target) :
    (aim paths d e).target = target := by
  simp only [aim, hf, Bool.false_eq_true, if_false, h]

theorem aim_of_absent (h : d.realpath (paths.entryOf e.filePath) = none) :
    (aim paths d e).target = paths.entryOf e.filePath := by
  simp only [aim, h, ite_self]

theorem aim_filePath (e : Entry) : (aim paths d e).filePath = e.filePath := by
  unfold aim
  split <;> rfl

theorem aim_inPlace (h : (aim paths d e).inPlace = true) :
    ∃ id, d.node (aim paths d e).target = some (.file id) := by
  unfold aim at h ⊢
  split
  · next hpath =>
    rw [hpath] at h
    cases h
  · next resolved hpath =>
    have hreal : d.realpath (paths.entryOf e.filePath) = some resolved := by
      by_cases hf : e.realpathFails
      · rw [if_pos hf] at hpath
        cases hpath
      · rwa [if_neg hf] at hpath
    obtain ⟨id, hnode, -⟩ := Disk.realpath_some hreal
    exact ⟨id, hnode⟩

end Apart

section Keys
variable {paths : Paths} {d : Files} {es : List Entry}

structure Probed (paths : Paths) (d : Files) (es : List Entry) : Prop where
  answers : ∀ e ∈ es, e.probeFails = false ∧ e.realpathFails = false
  separators : ∀ e ∈ es,
    paths.entryOf (stripTrailingSeparators e.filePath) = paths.entryOf e.filePath
  absent : ∀ e ∈ es, ∀ q ∈ es, d.realpath (paths.entryOf e.filePath) = none →
    paths.entryOf e.filePath = paths.entryOf q.filePath →
      paths.resolve (stripTrailingSeparators e.filePath) =
        paths.resolve (stripTrailingSeparators q.filePath)

theorem keys_of_duplicateTarget {seen : List String} (h : duplicateTarget paths d seen es = none) :
    (∀ e ∈ es, normalizeLockKey paths d e ∉ seen) ∧
      es.Pairwise fun e q => normalizeLockKey paths d e ≠ normalizeLockKey paths d q := by
  induction es generalizing seen with
  | nil => exact ⟨(nofun), .nil⟩
  | cons e es ih =>
    unfold duplicateTarget at h
    split at h
    · cases h
    next hnew =>
    obtain ⟨hseen, hpair⟩ := ih h
    refine ⟨?_, .cons ?_ hpair⟩
    · intro q hq
      rcases mem_cons.1 hq with rfl | hq
      · exact hnew
      · exact fun hmem => hseen q hq (.tail _ hmem)
    · intro q hq hsame
      exact hseen q hq (hsame ▸ .head _)

variable {e q : Entry}

section

variable (hp : Probed paths d es)
include hp

theorem Probed.key_eq (he : e ∈ es) (hq : q ∈ es)
    (hstat : d.stat (paths.entryOf e.filePath) = d.stat (paths.entryOf q.filePath))
    (habsent : d.stat (paths.entryOf e.filePath) = none →
      paths.resolve (stripTrailingSeparators e.filePath) =
        paths.resolve (stripTrailingSeparators q.filePath)) :
    normalizeLockKey paths d e = normalizeLockKey paths d q := by
  unfold normalizeLockKey
  simp only [(hp.answers e he).1, (hp.answers q hq).1, Bool.false_eq_true, if_false,
    hp.separators e he, hp.separators q hq, ← hstat]
  cases hfile : d.stat (paths.entryOf e.filePath) with
  | none => rw [habsent hfile]
  | some id => rfl

theorem Probed.key_eq_of_target (he : e ∈ es)
    (hq : q ∈ es) (h : (aim paths d e).target = (aim paths d q).target) :
    normalizeLockKey paths d e = normalizeLockKey paths d q := by
  cases hpath : d.realpath (paths.entryOf e.filePath) with
  | none =>
    obtain ⟨hstat, hnode⟩ := Disk.realpath_none hpath
    rw [aim_of_absent hpath] at h
    cases hpath' : d.realpath (paths.entryOf q.filePath) with
    | none =>
      rw [aim_of_absent hpath'] at h
      exact hp.key_eq he hq (by rw [h]) fun _ => hp.absent e he q hq hpath h
    | some target =>
      obtain ⟨id, hfile, -⟩ := Disk.realpath_some hpath'
      rw [aim_of_realpath (hp.answers q hq).2 hpath'] at h
      exact absurd (h ▸ hfile) (hnode id)
  | some target =>
    obtain ⟨id, hfile, hstat⟩ := Disk.realpath_some hpath
    rw [aim_of_realpath (hp.answers e he).2 hpath] at h
    cases hpath' : d.realpath (paths.entryOf q.filePath) with
    | none =>
      obtain ⟨-, hnode⟩ := Disk.realpath_none hpath'
      rw [aim_of_absent hpath'] at h
      exact absurd (h ▸ hfile) (hnode id)
    | some target' =>
      obtain ⟨id', hfile', hstat'⟩ := Disk.realpath_some hpath'
      rw [aim_of_realpath (hp.answers q hq).2 hpath'] at h
      rw [h] at hfile
      have hid : id = id' := Node.file.inj ((Option.mem_unique hfile hfile'))
      refine hp.key_eq he hq (by rw [hstat, hstat', hid]) fun hnone => ?_
      rw [hstat] at hnone
      cases hnone

theorem Probed.key_eq_of_file (he : e ∈ es) (hq : q ∈ es)
    {id : FileId} (hfile : d.node (aim paths d e).target = some (.file id))
    (hfile' : d.node (aim paths d q).target = some (.file id)) :
    normalizeLockKey paths d e = normalizeLockKey paths d q := by
  have hstat : ∀ e ∈ es, d.node (aim paths d e).target = some (.file id) →
      d.stat (paths.entryOf e.filePath) = some id := by
    intro e he hfile
    cases hpath : d.realpath (paths.entryOf e.filePath) with
    | none =>
      rw [aim_of_absent hpath] at hfile
      exact absurd hfile ((Disk.realpath_none hpath).2 id)
    | some target =>
      obtain ⟨id', hnode, hstat⟩ := Disk.realpath_some hpath
      rw [aim_of_realpath (hp.answers e he).2 hpath] at hfile
      rw [hstat, Node.file.inj ((Option.mem_unique hnode hfile))]
  refine hp.key_eq he hq (by rw [hstat e he hfile, hstat q hq hfile']) fun hnone => ?_
  rw [hstat e he hfile] at hnone
  cases hnone

theorem Probed.distinctFiles (h : duplicateTarget paths d [] es = none) :
    DistinctFiles d (es.map (aim paths d)) := by
  have hkeys := (keys_of_duplicateTarget h).2
  refine ⟨?_, ?_, ?_⟩ <;> rw [pairwise_map]
  · apply hkeys.imp_of_mem
    intro e q he hq hne hsame
    rw [aim_filePath, aim_filePath] at hsame
    exact hne (hp.key_eq he hq (by rw [hsame]) fun _ => by rw [hsame])
  · apply hkeys.imp_of_mem
    intro e q he hq hne hsame
    exact hne (hp.key_eq_of_target he hq hsame)
  · apply hkeys.imp_of_mem
    intro e q he hq hne id hfile hfile'
    exact hne (hp.key_eq_of_file he hq hfile hfile')

end

end Keys

section Calls
variable {d d' : Files} {name other content : String} {inode id : FileId} {fate : Fate}

theorem writeFile_new_frame (hname : d.node name = none) (hother : other ≠ name)
    (hinode : d.node other ≠ some (.file inode)) :
    d.Untouched (writeFile d name inode content fate).1 other := by
  have hstat : d.stat name = none := by
    simp only [Disk.stat, hname]
  cases fate with
  | done =>
    simp only [writeFile, hstat]
    exact Disk.untouched_create _ hother hinode
  | failed cause left =>
    cases left with
    | none => exact .refl d other
    | some left =>
      simp only [writeFile, hstat]
      exact Disk.untouched_create _ hother hinode

theorem writeFile_new_done (hname : d.node name = none)
    (h : writeFile d name inode content fate = (d', none)) : d' = d.create name inode content := by
  have hstat : d.stat name = none := by
    simp only [Disk.stat, hname]
  cases fate with
  | done =>
    simp only [writeFile, hstat] at h
    exact (congrArg Prod.fst h).symm
  | failed cause left => cases left <;> cases congrArg Prod.snd h

theorem writeFile_file_frame (hname : d.node name = some (.file id))
    (hfile : d.node other ≠ some (.file id)) :
    d.Untouched (writeFile d name inode content fate).1 other := by
  have hstat : d.stat name = some id := by
    simp only [Disk.stat, hname]
  cases fate with
  | done =>
    simp only [writeFile, hstat]
    exact Disk.untouched_write _ hfile
  | failed cause left =>
    cases left with
    | none => exact .refl d other
    | some left =>
      simp only [writeFile, hstat]
      exact Disk.untouched_write _ hfile

theorem writeFile_file_done (hname : d.node name = some (.file id))
    (h : writeFile d name inode content fate = (d', none)) : d' = d.write id content := by
  have hstat : d.stat name = some id := by
    simp only [Disk.stat, hname]
  cases fate with
  | done =>
    simp only [writeFile, hstat] at h
    exact (congrArg Prod.fst h).symm
  | failed cause left => cases left <;> cases congrArg Prod.snd h

theorem renameFile_frame {old new : String} (hold : other ≠ old) (hnew : other ≠ new) :
    d.Untouched (renameFile d old new fate).1 other := by
  cases fate with
  | failed cause left => exact .refl d other
  | done =>
    dsimp only [renameFile]
    cases hrename : d.rename old new with
    | none => exact .refl d other
    | some d' => exact Disk.untouched_rename hrename hold hnew

end Calls

section Staging
variable {paths : Paths} {d₀ d d' : Files} {all done rest temps : List Resolved} {r q : Resolved}
  {staged : List (String × StagedFile)}

def StagedAt (paths : Paths) (d : Files) (r : Resolved) : Prop :=
  d.node (r.tmp paths) = some (.file r.inode) ∧ d.data r.inode = r.content

theorem StagedAt.keep (h : StagedAt paths d r) (hkept : d.Untouched d' (r.tmp paths)) :
    StagedAt paths d' r :=
  ⟨hkept.node.trans h.1, (hkept.data _ h.1).trans h.2⟩

structure Staging (paths : Paths) (all : List Resolved) (d₀ d : Files)
    (staged : List (String × StagedFile)) (done rest : List Resolved) : Prop where
  kept : Unwritten paths all d₀ d
  made : ∀ r ∈ done, r.inPlace = false → StagedAt paths d r
  known : ∀ r ∈ done, r.inPlace = false →
    staged.lookup r.filePath = some { tmp := r.tmp paths, target := r.target }
  clear : ∀ r ∈ rest,
    d.node (r.tmp paths) = none ∧ ∀ name, d.node name ≠ some (.file r.inode)

theorem cleanup_untouched {name : String} (htemps : ∀ t ∈ temps, t ∈ all)
    (hname : ¬ Temporary paths all name) : d.Untouched (cleanupTemps paths d temps) name := by
  induction temps generalizing d with
  | nil => exact .refl d name
  | cons t temps ih =>
    have hfirst : d.Untouched (discard paths d t) name := by
      unfold discard
      split
      · exact .refl d name
      · apply Disk.untouched_unlink
        intro hsame
        exact hname ⟨t, htemps t (.head _), hsame⟩
    exact hfirst.trans (ih fun q hq => htemps q (.tail _ hq))

theorem Staging.make (hfresh : FreshTemps paths d₀ (done ++ r :: rest))
    (hpaths : (done ++ r :: rest).Pairwise fun r q => r.filePath ≠ q.filePath)
    (h : Staging paths (done ++ r :: rest) d₀ d staged done (r :: rest)) :
    Staging paths (done ++ r :: rest) d₀ (d.create (r.tmp paths) r.inode r.content)
      (assign r.filePath { tmp := r.tmp paths, target := r.target } staged) (done ++ [r]) rest := by
  obtain ⟨hnone, hunused⟩ := h.clear r (.head _)
  have hbefore := (pairwise_append.1 hfresh.names).2.2
  have hafter := (pairwise_cons.1 (pairwise_append.1 hfresh.names).2.1).1
  have hinodes := (pairwise_cons.1 (pairwise_append.1 hfresh.inodes).2.1).1
  have hknown := (pairwise_append.1 hpaths).2.2
  refine ⟨?_, ?_, ?_, ?_⟩
  · intro name hname
    refine (h.kept name hname).trans (Disk.untouched_create _ ?_ (hunused name))
    intro hsame
    exact hname ⟨r, mem_append_right _ (.head _), hsame⟩
  · intro q hq hplace
    rcases mem_append.1 hq with hq | hq
    · have hne := hbefore q hq r (.head _)
      exact (h.made q hq hplace).keep (Disk.untouched_create _ hne (hunused _))
    · cases mem_singleton.1 hq
      exact ⟨update_self .., update_self ..⟩
  · intro q hq hplace
    rcases mem_append.1 hq with hq | hq
    · rw [lookup_assign_ne _ _ (hknown q hq r (.head _))]
      exact h.known q hq hplace
    · cases mem_singleton.1 hq
      exact lookup_assign_self ..
  · intro q hq
    obtain ⟨hqnone, hqunused⟩ := h.clear q (.tail _ hq)
    refine ⟨?_, ?_⟩
    · exact (update_of_ne (hafter q hq).symm _ _).trans hqnone
    intro name
    show update d.node (r.tmp paths) _ name ≠ _
    by_cases hname : name = r.tmp paths
    · subst hname
      rw [update_self]
      intro hsame
      exact hinodes q hq (Node.file.inj (Option.some.inj hsame))
    · rw [update_of_ne hname]
      exact hqunused name

theorem Staging.skip (h : Staging paths all d₀ d staged done (r :: rest))
    (hplace : r.inPlace = true) : Staging paths all d₀ d staged (done ++ [r]) rest := by
  refine ⟨h.kept, ?_, ?_, fun q hq => h.clear q (.tail _ hq)⟩
  · intro q hq hqplace
    rcases mem_append.1 hq with hq | hq
    · exact h.made q hq hqplace
    · cases mem_singleton.1 hq
      rw [hplace] at hqplace
      cases hqplace
  · intro q hq hqplace
    rcases mem_append.1 hq with hq | hq
    · exact h.known q hq hqplace
    · cases mem_singleton.1 hq
      rw [hplace] at hqplace
      cases hqplace

theorem stageAll_spec (hfresh : FreshTemps paths d₀ all)
    (hpaths : all.Pairwise fun r q => r.filePath ≠ q.filePath) (hall : all = done ++ rest)
    (htemps : ∀ t ∈ temps, t ∈ all) (h : Staging paths all d₀ d staged done rest) :
    match stageAll paths d temps staged rest with
    | (d', .error err) => Unwritten paths all d₀ d' ∧ err.written = [] ∧ err.phase = .staging
    | (d', .ok (temps', staged')) =>
      (∀ t ∈ temps', t ∈ all) ∧ Staging paths all d₀ d' staged' all [] := by
  induction rest generalizing done d temps staged with
  | nil =>
    rw [append_nil] at hall
    subst hall
    exact ⟨htemps, h⟩
  | cons r rest ih =>
    have hnext : all = (done ++ [r]) ++ rest := by
      rw [hall, append_assoc, singleton_append]
    have hr : r ∈ all := by
      rw [hall]
      exact mem_append_right _ (.head _)
    unfold stageAll
    by_cases hplace : r.inPlace = true
    · rw [if_pos hplace]
      exact ih hnext htemps (h.skip hplace)
    rw [if_neg hplace]
    have htemps' : ∀ t ∈ temps ++ [r], t ∈ all := by
      intro t ht
      rcases mem_append.1 ht with ht | ht
      · exact htemps t ht
      · exact mem_singleton.1 ht ▸ hr
    obtain ⟨hnone, hunused⟩ := h.clear r (.head _)
    cases hwrite : writeFile d (r.tmp paths) r.inode r.content r.stage with
    | mk d' cause =>
      cases cause with
      | none =>
        rw [writeFile_new_done hnone hwrite]
        subst hall
        exact ih hnext htemps' (h.make hfresh hpaths)
      | some cause =>
        refine ⟨?_, rfl, rfl⟩
        intro name hname
        have hne : name ≠ r.tmp paths := fun hsame => hname ⟨r, hr, hsame⟩
        have hframe : d.Untouched d' name := by
          have hwritten : (writeFile d (r.tmp paths) r.inode r.content r.stage).1 = d' := by
            rw [hwrite]
          exact hwritten ▸ writeFile_new_frame hnone hne (hunused name)
        exact ((h.kept name hname).trans hframe).trans (cleanup_untouched htemps' hname)

end Staging

section Committing
variable {paths : Paths} {d₀ d d' : Files} {all before rest temps : List Resolved}
  {r q : Resolved} {staged : List (String × StagedFile)} {cause : String} {written : List String}

/-- The new text of an entry is at its target, in the file made for it or in the one it had. -/
def LandedIn (d₀ d : Files) (r : Resolved) : Prop :=
  ∃ id, d.node r.target = some (.file id) ∧ d.data id = r.content ∧
    (id = r.inode ∨ d₀.node r.target = some (.file id))

theorem LandedIn.landed (h : LandedIn d₀ d r) : Landed d r := by
  obtain ⟨id, hnode, hdata, -⟩ := h
  unfold Landed
  rw [Disk.held_of_file hnode, hdata]

theorem LandedIn.keep (h : LandedIn d₀ d r) (hkept : d.Untouched d' r.target) :
    LandedIn d₀ d' r := by
  obtain ⟨id, hnode, hdata, hfrom⟩ := h
  exact ⟨id, hkept.node.trans hnode, (hkept.data id hnode).trans hdata, hfrom⟩

structure Committing (paths : Paths) (all : List Resolved) (d₀ d : Files)
    (staged : List (String × StagedFile)) (before rest : List Resolved) : Prop where
  landed : ∀ r ∈ before, LandedIn d₀ d r
  kept : ∀ r ∈ rest, d₀.Untouched d r.target
  made : ∀ r ∈ rest, r.inPlace = false → StagedAt paths d r
  known : ∀ r ∈ rest, r.inPlace = false →
    staged.lookup r.filePath = some { tmp := r.tmp paths, target := r.target }
  unwritten : before = [] → Unwritten paths all d₀ d

section

variable (hfile : r.inPlace = true → ∃ id, d.node r.target = some (.file id))
include hfile

section

variable (hknown : r.inPlace = false → staged.lookup r.filePath = some { tmp := r.tmp paths, target := r.target })
include hknown

theorem commitOne_frame {other : String} (htarget : other ≠ r.target) (htmp : other ≠ r.tmp paths)
    (hother : ∀ id, d.node r.target = some (.file id) → d.node other ≠ some (.file id)) :
    d.Untouched (commitOne d staged r).1 other := by
  unfold commitOne
  cases hplace : r.inPlace with
  | true =>
    obtain ⟨id, hid⟩ := hfile hplace
    exact writeFile_file_frame hid (hother id hid)
  | false =>
    simp only [hknown hplace]
    exact renameFile_frame htmp htarget

theorem commitOne_landed
    (hmade : r.inPlace = false → StagedAt paths d r) (hne : r.tmp paths ≠ r.target)
    (hkept : d₀.Untouched d r.target) (hnew : ∀ name, d₀.node name ≠ some (.file r.inode))
    (h : commitOne d staged r = (d', none)) : LandedIn d₀ d' r := by
  unfold commitOne at h
  cases hplace : r.inPlace with
  | true =>
    obtain ⟨id, hid⟩ := hfile hplace
    rw [if_pos hplace] at h
    rw [writeFile_file_done hid h]
    exact ⟨id, hid, update_self .., .inr (hkept.node.symm.trans hid)⟩
  | false =>
    obtain ⟨htmp, hdata⟩ := hmade hplace
    have htarget : d.node r.target ≠ some (.file r.inode) := by
      rw [hkept.node]
      exact hnew _
    obtain ⟨d'', hrename, hdata', hnode'⟩ := Disk.rename_file htmp htarget
    simp only [hplace, hknown hplace] at h
    cases hfate : r.commit with
    | failed cause left =>
      rw [hfate] at h
      cases congrArg Prod.snd h
    | done =>
      rw [hfate] at h
      simp only [renameFile, hrename] at h
      cases h
      refine ⟨r.inode, ?_, ?_, .inl rfl⟩
      · rw [hnode', update_of_ne hne.symm, update_self]
      · rw [hdata', hdata]

end

end

theorem commitOne_failed (hplace : r.inPlace = false)
    (hknown : staged.lookup r.filePath = some { tmp := r.tmp paths, target := r.target })
    (h : commitOne d staged r = (d', some cause)) : d' = d := by
  unfold commitOne at h
  simp only [hplace, hknown, renameFile] at h
  cases hfate : r.commit with
  | failed cause left =>
    rw [hfate] at h
    exact (congrArg Prod.fst h).symm
  | done =>
    rw [hfate] at h
    cases hrename : d.rename (r.tmp paths) r.target with
    | none =>
      simp only [hrename] at h
      exact (congrArg Prod.fst h).symm
    | some d'' =>
      simp only [hrename] at h
      cases congrArg Prod.snd h

structure Sound (paths : Paths) (d₀ : Files) (all : List Resolved) : Prop where
  fresh : FreshTemps paths d₀ all
  distinct : DistinctFiles d₀ all
  file : ∀ r ∈ all, r.inPlace = true → ∃ id, d₀.node r.target = some (.file id)

theorem Sound.target_not_temporary (hs : Sound paths d₀ all) (hr : r ∈ all) :
    ¬ Temporary paths all r.target := by
  rintro ⟨q, hq, hsame⟩
  exact hs.fresh.notTarget q hq r hr hsame.symm

theorem Committing.frame (hs : Sound paths d₀ (before ++ r :: rest))
    (h : Committing paths (before ++ r :: rest) d₀ d staged before (r :: rest)) :
    (∀ b ∈ before, d.Untouched (commitOne d staged r).1 b.target) ∧
      (∀ q ∈ rest, d.Untouched (commitOne d staged r).1 q.target) ∧
      ∀ q ∈ rest, q.inPlace = false → d.Untouched (commitOne d staged r).1 (q.tmp paths) := by
  have hr : r ∈ before ++ r :: rest := mem_append_right _ (.head _)
  have hkept := h.kept r (.head _)
  have hknown := h.known r (.head _)
  have hfile : r.inPlace = true → ∃ id, d.node r.target = some (.file id) := by
    intro hplace
    obtain ⟨id, hid⟩ := hs.file r hr hplace
    exact ⟨id, hkept.node.trans hid⟩
  have hnew : ∀ q ∈ before ++ r :: rest, ∀ id, d.node r.target = some (.file id) →
      q.inode ≠ id := by
    intro q hq id hid hsame
    exact hs.fresh.newInode q hq r.target (hsame ▸ hkept.node.symm.trans hid)
  refine ⟨?_, ?_, ?_⟩
  · intro b hb
    have hb' : b ∈ before ++ r :: rest := mem_append_left _ hb
    have hne := (pairwise_append.1 hs.distinct.targets).2.2 b hb r (.head _)
    refine commitOne_frame hfile hknown hne (hs.fresh.notTarget r hr b hb').symm ?_
    intro id hid hsame
    obtain ⟨i, hi, -, hfrom⟩ := h.landed b hb
    have hsame' : i = id := Node.file.inj ((Option.mem_unique hi hsame))
    rcases hfrom with hfrom | hfrom
    · exact hnew b hb' id hid (hfrom.symm.trans hsame')
    · have hfiles := (pairwise_append.1 hs.distinct.files).2.2 b hb r (.head _)
      exact hfiles id (hsame' ▸ hfrom) (hkept.node.symm.trans hid)
  · intro q hq
    have hq' : q ∈ before ++ r :: rest := mem_append_right _ (.tail _ hq)
    have htail := (pairwise_append.1 hs.distinct.targets).2.1
    have hne := (pairwise_cons.1 htail).1 q hq
    refine commitOne_frame hfile hknown hne.symm (hs.fresh.notTarget r hr q hq').symm ?_
    intro id hid hsame
    have hfiles := (pairwise_cons.1 (pairwise_append.1 hs.distinct.files).2.1).1 q hq
    exact hfiles id (hkept.node.symm.trans hid)
      ((h.kept q (.tail _ hq)).node.symm.trans hsame)
  · intro q hq hplace
    have hq' : q ∈ before ++ r :: rest := mem_append_right _ (.tail _ hq)
    have hnames := (pairwise_cons.1 (pairwise_append.1 hs.fresh.names).2.1).1 q hq
    refine commitOne_frame hfile hknown (hs.fresh.notTarget q hq' r hr) hnames.symm ?_
    intro id hid hsame
    have hmade := (h.made q (.tail _ hq) hplace).1
    cases hmade.symm.trans hsame
    exact hnew q hq' _ hid rfl

theorem Committing.advance (hs : Sound paths d₀ (before ++ r :: rest))
    (h : Committing paths (before ++ r :: rest) d₀ d staged before (r :: rest))
    (hdone : commitOne d staged r = (d', none)) :
    Committing paths (before ++ r :: rest) d₀ d' staged (before ++ [r]) rest := by
  have hr : r ∈ before ++ r :: rest := mem_append_right _ (.head _)
  have hkept := h.kept r (.head _)
  have hd' : (commitOne d staged r).1 = d' := by
    rw [hdone]
  obtain ⟨hbefore, htargets, htmps⟩ := h.frame hs
  rw [hd'] at hbefore htargets htmps
  refine ⟨?_, ?_, ?_, fun q hq => h.known q (.tail _ hq), ?_⟩
  · intro b hb
    rcases mem_append.1 hb with hb | hb
    · exact (h.landed b hb).keep (hbefore b hb)
    cases mem_singleton.1 hb
    refine commitOne_landed ?_ (h.known r (.head _))
      (h.made r (.head _)) (hs.fresh.notTarget r hr r hr) hkept
      (hs.fresh.newInode r hr) hdone
    intro hplace
    obtain ⟨id, hid⟩ := hs.file r hr hplace
    exact ⟨id, hkept.node.trans hid⟩
  · intro q hq
    exact (h.kept q (.tail _ hq)).trans (htargets q hq)
  · intro q hq hplace
    exact (h.made q (.tail _ hq) hplace).keep (htmps q hq hplace)
  · intro hnil
    cases append_ne_nil_of_right_ne_nil before (cons_ne_nil r []) hnil

structure Account (paths : Paths) (all : List Resolved) (d₀ d : Files) (err : BatchWriteError)
    (before : List Resolved) (r : Resolved) (after : List Resolved) : Prop where
  batch : all = before ++ r :: after
  written : err.written = before.map fun r => r.filePath
  failed : err.failed = r.filePath
  phase : err.phase = .commit
  landed : ∀ b ∈ before, Landed d b
  kept : ∀ q ∈ after, d₀.Untouched d q.target
  notWritten : r.inPlace = false → d₀.Untouched d r.target
  unwritten : before = [] → r.inPlace = false → Unwritten paths all d₀ d

theorem commitAll_spec (hs : Sound paths d₀ all) (hall : all = before ++ rest)
    (htemps : ∀ t ∈ temps, t ∈ all) (hwritten : written = before.map fun r => r.filePath)
    (h : Committing paths all d₀ d staged before rest) :
    match commitAll paths temps staged d written rest with
    | (d', none) => ∀ r ∈ all, Landed d' r
    | (d', some err) => ∃ before r after, Account paths all d₀ d' err before r after := by
  induction rest generalizing before d written with
  | nil =>
    rw [append_nil] at hall
    subst hall
    exact fun r hr => (h.landed r hr).landed
  | cons r rest ih =>
    unfold commitAll
    subst hall
    cases hcommit : commitOne d staged r with
    | mk d' cause =>
      cases cause with
      | none =>
        have hnext : before ++ r :: rest = (before ++ [r]) ++ rest := by
          rw [append_assoc, singleton_append]
        refine ih hnext ?_ (h.advance hs hcommit)
        rw [hwritten, map_append]
        rfl
      | some cause =>
        have hd' : (commitOne d staged r).1 = d' := by
          rw [hcommit]
        have hclean : ∀ q ∈ before ++ r :: rest,
            d'.Untouched (cleanupTemps paths d' temps) q.target :=
          fun q hq => cleanup_untouched htemps (hs.target_not_temporary hq)
        obtain ⟨hbefore, htargets, -⟩ := h.frame hs
        rw [hd'] at hbefore htargets
        refine ⟨before, r, rest, rfl, hwritten, rfl, rfl, ?_, ?_, ?_, ?_⟩
        · intro b hb
          have hlanded := (h.landed b hb).keep (hbefore b hb)
          exact (hlanded.keep (hclean b (mem_append_left _ hb))).landed
        · intro q hq
          have hq' := mem_cons_of_mem r hq
          exact ((h.kept q hq').trans (htargets q hq)).trans
            (hclean q (mem_append_right _ hq'))
        · intro hplace
          have hr := mem_cons_self (a := r) (l := rest)
          rw [commitOne_failed hplace (h.known r hr hplace) hcommit] at hclean ⊢
          exact (h.kept r hr).trans (hclean r (mem_append_right _ hr))
        · intro hnil hplace
          have hr := mem_cons_self (a := r) (l := rest)
          rw [commitOne_failed hplace (h.known r hr hplace) hcommit]
          intro name hname
          exact (h.unwritten hnil name hname).trans (cleanup_untouched htemps hname)

end Committing

section Accounts
variable {paths : Paths} {d : Files} {es : List Entry} {rs : List Resolved}

/-- The entries of a batch with the directory entries they are to land on. -/
def aims (paths : Paths) (d : Files) (es : List Entry) : List Resolved := es.map (aim paths d)

def Accounted (paths : Paths) (d : Files) (es : List Entry) : Prop :=
  match atomicWriteBatch paths d es with
  | (d', none) => ∀ r ∈ aims paths d es, Landed d' r
  | (d', some (.plain _)) => d' = d
  | (d', some (.batch err)) =>
    match err.phase with
    | .staging => err.written = [] ∧ Unwritten paths (aims paths d es) d d'
    | .commit => ∃ before r after, Account paths (aims paths d es) d d' err before r after

def Reply.saysNothingWritten (reply : Reply) : Prop :=
  nothingWrittenLine ∈ reply.lines ∨ conflictLine ∈ reply.lines

/-- The entry the error names is not one written in place. -/
def Reply.FailsRenaming (paths : Paths) (d : Files) (reply : Reply) : Prop :=
  ∀ es err, reply = .failed es (.batch err) →
    ∀ r ∈ aims paths d es, r.filePath = err.failed → r.inPlace = false

theorem writeResolved_spec (hs : Sound paths d rs) : match writeResolved paths d rs with
    | (d', none) => ∀ r ∈ rs, Landed d' r
    | (d', some err) =>
      match err.phase with
      | .staging => err.written = [] ∧ Unwritten paths rs d d'
      | .commit => ∃ before r after, Account paths rs d d' err before r after := by
  have hstart : Staging paths rs d d [] [] rs := by
    refine ⟨fun name _ => .refl d name, ?_, ?_, ?_⟩
    · intro r hr
      cases hr
    · intro r hr
      cases hr
    · exact fun r hr => ⟨hs.fresh.newName r hr, hs.fresh.newInode r hr⟩
  have hnone : ∀ t ∈ ([] : List Resolved), t ∈ rs := by
    intro t ht
    cases ht
  have hstage := stageAll_spec hs.fresh hs.distinct.paths (nil_append rs).symm hnone hstart
  unfold writeResolved
  generalize stageAll paths d [] [] rs = called at hstage ⊢
  obtain ⟨d', err | ⟨temps, staged⟩⟩ := called
  · obtain ⟨hunwritten, hwritten, hphase⟩ := hstage
    simp only [hphase]
    exact ⟨hwritten, hunwritten⟩
  · obtain ⟨htemps, hstaged⟩ := hstage
    have hbegin : Committing paths rs d d' staged [] rs := by
      refine ⟨?_, ?_, hstaged.made, hstaged.known, fun _ => hstaged.kept⟩
      · intro r hr
        cases hr
      · intro r hr
        exact hstaged.kept _ (hs.target_not_temporary hr)
    have hnil : ([] : List String) = ([] : List Resolved).map fun r => r.filePath := rfl
    have hcommit := commitAll_spec hs (nil_append rs).symm htemps hnil hbegin
    simp only
    split at hcommit
    · exact hcommit
    next d'' err _ =>
    obtain ⟨before, r, after, haccount⟩ := hcommit
    simp only [haccount.phase]
    exact ⟨before, r, after, haccount⟩

theorem accounted (hfresh : FreshTemps paths d (aims paths d es))
    (hdistinct : DistinctFiles d (aims paths d es)) : Accounted paths d es := by
  unfold Accounted atomicWriteBatch
  cases duplicateTarget paths d [] es with
  | some filePath => rfl
  | none =>
    cases hresolve : es.mapM (resolveWriteTarget paths d) with
    | error cause => rfl
    | ok rs =>
      have hrs : rs = aims paths d es := resolveAll_ok hresolve
      have hsound : Sound paths d rs := by
        subst hrs
        refine ⟨hfresh, hdistinct, ?_⟩
        intro r hr hplace
        obtain ⟨e, -, rfl⟩ := mem_map.1 hr
        exact aim_inPlace hplace
      have hspec := writeResolved_spec hsound
      subst hrs
      simp only
      cases hwrite : writeResolved paths d (aims paths d es) with
      | mk d' err =>
        rw [hwrite] at hspec
        cases err with
        | none => exact hspec
        | some err => exact hspec

theorem append_ne {before after text : String} (h : ¬ before.toList <+: text.toList) :
    before ++ after ≠ text := by
  rintro rfl
  apply h
  rw [String.toList_append]
  exact prefix_append ..

theorem failureLine_ne {cause text : String}
    (h : ¬ "Error: Write failed: file system error (".toList <+: text.toList) :
    failureLine cause ≠ text := by
  unfold failureLine
  rw [String.append_assoc]
  exact append_ne h

theorem failedLine_ne {filePath text : String} (h : ¬ "Failed file: ".toList <+: text.toList) :
    "Failed file: " ++ filePath ++ "." ≠ text := by
  rw [String.append_assoc]
  exact append_ne h

theorem saysNothingWritten_failed {es : List Entry} {err : WriteError}
    (h : (Reply.failed es err).saysNothingWritten) :
    ∃ account, err = .batch account ∧ account.written = [] := by
  cases err with
  | plain message =>
    have hnot : ∀ text, text = nothingWrittenLine ∨ text = conflictLine →
        text ∉ (Reply.failed es (.plain message)).lines := by
      rintro text (rfl | rfl) hmem
      · rcases mem_cons.1 hmem with hline | hmem
        · exact failureLine_ne (by simp [nothingWrittenLine]) hline.symm
        · exact failedLine_ne (by simp [nothingWrittenLine]) (mem_singleton.1 hmem).symm
      · rcases mem_cons.1 hmem with hline | hmem
        · exact failureLine_ne (by simp [conflictLine]) hline.symm
        · exact failedLine_ne (by simp [conflictLine]) (mem_singleton.1 hmem).symm
    rcases h with h | h
    · exact absurd h (hnot _ (.inl rfl))
    · exact absurd h (hnot _ (.inr rfl))
  | batch account =>
    refine ⟨account, rfl, ?_⟩
    by_contra hwritten
    have hempty : account.written.isEmpty = false := by
      simpa using hwritten
    have hnot : ∀ text, ¬ "Error: Write failed: file system error (".toList <+: text.toList →
        ¬ "Failed file: ".toList <+: text.toList →
        ¬ "Files written before the failure: ".toList <+: text.toList →
        ¬ "Files not written: ".toList <+: text.toList →
        text ∉ (Reply.failed es (.batch account)).lines := by
      intro text hfailure hfailed hbefore hafter hmem
      simp only [Reply.lines, accountLines, hempty, Bool.false_eq_true, if_false,
        mem_cons, not_mem_nil, or_false] at hmem
      rcases hmem with hline | hline | hline | hline
      · exact failureLine_ne hfailure hline.symm
      · exact failedLine_ne hfailed hline.symm
      · rw [String.append_assoc] at hline
        exact append_ne hbefore hline.symm
      · exact append_ne hafter hline.symm
    rcases h with h | h
    · refine hnot _ ?_ ?_ ?_ ?_ h <;> simp [nothingWrittenLine]
    · refine hnot _ ?_ ?_ ?_ ?_ h <;> simp [conflictLine]

theorem atomicWriteFile_plain {e : Entry} {d' : Files} {err : WriteError}
    (h : atomicWriteFile paths d e = (d', some err)) : ∃ message, err = .plain message := by
  unfold atomicWriteFile at h
  split at h
  · cases h
    exact ⟨_, rfl⟩
  · split at h
    · split at h
      next cause _ =>
        cases cause with
        | none => cases congrArg Prod.snd h
        | some cause =>
          cases h
          exact ⟨_, rfl⟩
    · split at h
      · cases h
        exact ⟨_, rfl⟩
      · split at h
        · cases h
          exact ⟨_, rfl⟩
        · cases h

theorem report_true (hfresh : FreshTemps paths d (aims paths d es))
    (hdistinct : DistinctFiles d (aims paths d es)) (conflicts : List String)
    (hquiet : (execute paths d conflicts es).2.saysNothingWritten)
    (hrename : (execute paths d conflicts es).2.FailsRenaming paths d) :
    Unwritten paths (aims paths d es) d (execute paths d conflicts es).1 := by
  unfold execute at hquiet hrename ⊢
  by_cases hconflict : conflicts.isEmpty
  · simp only [hconflict, if_true] at hquiet hrename ⊢
    cases hwrite : writeFiles paths d es with
    | mk d' err =>
    rw [hwrite] at hquiet hrename
    cases err with
    | none => rcases hquiet with h | h <;> cases h
    | some err =>
      obtain ⟨account, rfl, hwritten⟩ := saysNothingWritten_failed hquiet
      have hbatch : atomicWriteBatch paths d es = (d', some (.batch account)) := by
        unfold writeFiles at hwrite
        split at hwrite
        · obtain ⟨message, hplain⟩ := atomicWriteFile_plain hwrite
          cases hplain
        · exact hwrite
      have haccounted := accounted hfresh hdistinct
      unfold Accounted at haccounted
      rw [hbatch] at haccounted
      simp only at haccounted
      split at haccounted
      · exact haccounted.2
      obtain ⟨before, r, after, haccount⟩ := haccounted
      have hnil : before = [] := map_eq_nil_iff.1 (haccount.written.symm.trans hwritten)
      have hmem : r ∈ aims paths d es := by
        rw [haccount.batch]
        exact mem_append_right _ (.head _)
      exact haccount.unwritten hnil (hrename es account rfl r hmem haccount.failed.symm)
  · simp only [hconflict, Bool.false_eq_true, if_false]
    exact fun name _ => .refl d name

/-- A batch of different files is accounted for, whatever fails. -/
theorem batch_accounted (paths : Paths) (d : Files) (es : List Entry)
    (hfresh : FreshTemps paths d (aims paths d es))
    (hdistinct : DistinctFiles d (aims paths d es)) :
    Accounted paths d es ∧
      ∀ conflicts, (execute paths d conflicts es).2.saysNothingWritten →
        (execute paths d conflicts es).2.FailsRenaming paths d →
        Unwritten paths (aims paths d es) d (execute paths d conflicts es).1 :=
  ⟨accounted hfresh hdistinct, report_true hfresh hdistinct⟩

end Accounts

def samplePaths : Paths where
  entryOf := id
  beside := fun _ name => "/" ++ name
  resolve := id
  caseInsensitive := false

def sampleFiles : Files where
  node := fun name =>
    if name = "/a.ts" then some (.file ⟨1, 1⟩)
    else if name = "/b.ts" then some (.file ⟨1, 1⟩)
    else if name = "/c.ts" then some (.file ⟨1, 2⟩)
    else none
  data := fun id => if id = ⟨1, 1⟩ then "first" else "second"
  nlink := fun id => if id = ⟨1, 1⟩ then 2 else 1

def sampleEntry (filePath random : String) (ino : Nat) (commit : Fate) : Entry where
  filePath := filePath
  content := "edited"
  random := random
  inode := ⟨1, ino⟩
  probeFails := false
  realpathFails := false
  stat := none
  stage := .done
  commit := commit
  unlinkFails := false

def refusedRename : Fate := .failed "EACCES: permission denied" none

def fullDisk : Fate := .failed "ENOSPC: no space left on device" (some "ed")

def sampleBatch : List Entry :=
  [sampleEntry "/a.ts" "0a" 10 .done, sampleEntry "/c.ts" "0b" 11 refusedRename,
    sampleEntry "/d.ts" "0c" 12 .done]

theorem sampleBatch_fresh :
    FreshTemps samplePaths sampleFiles (aims samplePaths sampleFiles sampleBatch) := by
  refine ⟨by decide +kernel, by decide +kernel, by decide +kernel, by decide +kernel, ?_⟩
  intro r hr name hname
  have hinode : ∀ r ∈ aims samplePaths sampleFiles sampleBatch, 2 < r.inode.ino := by
    decide +kernel
  have hold : ∀ id, sampleFiles.node name = some (.file id) → id.ino ≤ 2 := by
    intro id hid
    simp only [sampleFiles] at hid
    split at hid
    · cases hid
      decide
    · split at hid
      · cases hid
        decide
      · split at hid
        · cases hid
          decide
        · cases hid
  have hlt := hinode r hr
  have hle := hold _ hname
  omega

theorem sampleBatch_probed : Probed samplePaths sampleFiles sampleBatch := by
  refine ⟨by decide +kernel, by decide +kernel, ?_⟩
  intro e _ q _ _ hsame
  have hpath : e.filePath = q.filePath := hsame
  rw [hpath]

theorem batch_accounted_sample :
    Accounted samplePaths sampleFiles sampleBatch ∧
      ∀ conflicts, (execute samplePaths sampleFiles conflicts sampleBatch).2.saysNothingWritten →
        (execute samplePaths sampleFiles conflicts sampleBatch).2.FailsRenaming samplePaths
          sampleFiles →
        Unwritten samplePaths (aims samplePaths sampleFiles sampleBatch) sampleFiles
          (execute samplePaths sampleFiles conflicts sampleBatch).1 :=
  batch_accounted samplePaths sampleFiles sampleBatch sampleBatch_fresh
    (sampleBatch_probed.distinctFiles (by decide +kernel))

/-- Every outcome is one of three, and the report of none written is true. -/
def Expected (paths : Paths) (d : Files) (es : List Entry) : Prop :=
  (match atomicWriteBatch paths d es with
    | (d', none) => ∀ r ∈ aims paths d es, Landed d' r
    | (_, some (.plain _)) => False
    | (d', some (.batch err)) =>
      match err.phase with
      | .staging => ∀ r ∈ aims paths d es, d'.held r.target = d.held r.target
      | .commit => ∃ before r after, aims paths d es = before ++ r :: after ∧
          err.written = before.map (fun b => b.filePath) ∧ err.failed = r.filePath ∧
          (∀ b ∈ before, Landed d' b) ∧ (Landed d' r → Landed d r) ∧
          ∀ q ∈ after, d'.held q.target = d.held q.target) ∧
    ∀ conflicts, (execute paths d conflicts es).2.saysNothingWritten →
      ∀ r ∈ aims paths d es, (execute paths d conflicts es).1.held r.target = d.held r.target

def hardLinkedBatch : List Entry :=
  [sampleEntry "/a.ts" "0a" 10 .done, sampleEntry "/b.ts" "0b" 11 .done]

def tornBatch : List Entry :=
  [sampleEntry "/a.ts" "0a" 10 fullDisk, sampleEntry "/c.ts" "0b" 11 .done]

/-- Two names of one file give an error with no phase; half a write is reported as none. -/
theorem batch_not_expected :
    ¬ Expected samplePaths sampleFiles hardLinkedBatch ∧
      ¬ Expected samplePaths sampleFiles tornBatch := by
  refine ⟨?_, ?_⟩
  · intro h
    have hplain : (atomicWriteBatch samplePaths sampleFiles hardLinkedBatch).2 =
        some (.plain "atomicWriteBatch: duplicate target path \"/b.ts\"") := by
      decide +kernel
    obtain ⟨houtcome, -⟩ := h
    cases hwrite : atomicWriteBatch samplePaths sampleFiles hardLinkedBatch with
    | mk d' err =>
      rw [hwrite] at houtcome hplain
      cases hplain
      simp only at houtcome
  · intro h
    have hquiet : (execute samplePaths sampleFiles [] tornBatch).2.saysNothingWritten := by
      unfold Reply.saysNothingWritten
      decide +kernel
    have hkept : (execute samplePaths sampleFiles [] tornBatch).1.held "/a.ts" =
        sampleFiles.held "/a.ts" :=
      h.2 [] hquiet (aim samplePaths sampleFiles (sampleEntry "/a.ts" "0a" 10 fullDisk))
        (.head _)
    revert hkept
    decide +kernel

end Rolebox.Hashline.AtomicWrite
