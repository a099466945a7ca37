import Rolebox.General.Keyed
import Rolebox.General.Transition
import Rolebox.Cli.RoleStore

/-! Every lock entry names its copy: what each command leaves, when nothing it removes is lost. -/

namespace Rolebox.Cli
open List Function
variable {Tree : Type} {host : Host Tree} {w w' : RoleStore Tree} {dir : RoleDir} {c : RoleCopy}

def SyncLink.Inside (link : SyncLink) (dir : RoleDir) : Prop :=
  ∃ path, link.destination = some path ∧ dir.segments <+: path

def Recorded (host : Host Tree) (w : RoleStore Tree) (e : LockEntry) : Prop :=
  ∃ tree, w.dirs e.copy.dir = some tree ∧ host.computeIntegrity tree = e.integrity

/-- Different copies never share a directory. -/
def Apart (w : RoleStore Tree) : Prop := ∀ c ∈ w.placed, ∀ d ∈ w.placed, c.dir = d.dir → c = d

/-- The lock, and every copy it named, are as before. -/
def Kept (w w' : RoleStore Tree) : Prop :=
  w'.lock = w.lock ∧ ∀ e ∈ w.entries, w'.dirs e.copy.dir = w.dirs e.copy.dir

/-- No directory of that role from that source is left, nor a link into one. -/
def Gone (c : RoleCopy) (w : RoleStore Tree) : Prop :=
  ∀ d ∈ w.placed, d.registry = c.registry → d.role = c.role →
    w.dirs d.dir = none ∧ ∀ link ∈ w.links, ¬ link.Inside d.dir

/-- What a command promises besides: a failure keeps the lock, an uninstalled role is gone. -/
def Promise (host : Host Tree) (w : RoleStore Tree) : Command Tree → Prop
  | .install run => ∀ e, (install host run w).1 = .error e → Kept w (install host run w).2
  | .update run =>
    (∀ e, (update host run w).1 = .error e → Kept w (update host run w).2) ∧
    ∀ updated, (update host run w).1 = .ok updated →
      (∀ e ∈ w.entries, (update host run w).2.dirs e.copy.dir = w.dirs e.copy.dir ∧
        (e ∉ updated → e ∈ (update host run w).2.entries)) ∧
      (updated = [] → (update host run w).2.lock = w.lock)
  | .uninstall run => ∀ c, (uninstall host run w).1 = .ok c → Gone c (uninstall host run w).2
  | .relink _ => True

def Lawful (host : Host Tree) (w : RoleStore Tree) (command : Command Tree) : Prop :=
  (∀ e ∈ (step host w command).entries, Recorded host (step host w command) e) ∧
    Apart (step host w command) ∧ Promise host w command

/-- What was downloaded is admitted: it is there, it has the declared digest, its path is safe. -/
def Admitted (host : Host Tree) (resolved : Resolved) (archive : Tree) (f : PlaceFaults Tree) :
    Prop :=
  f.download = false ∧ f.integrity = false ∧
    (∀ expected, given resolved.role.integrity = some expected →
      expected = host.computeIntegrity archive) ∧
    getRolePath resolved.copy = .ok resolved.copy.dir

def Fresh (w : RoleStore Tree) (c : RoleCopy) : Prop := ∀ d ∈ w.placed, ¬ c.RunsOn d ∧ ¬ d.RunsOn c

/-- Over an installed version the old copy is removed and the lock written, or nothing changes. -/
def CarefulInstall (host : Host Tree) (run : InstallRun Tree) (w : RoleStore Tree) : Prop :=
  ∀ resolved, resolveInstall run.config run.network run.spec = .ok resolved →
    Admitted host resolved run.archive run.faults →
    match findInLock resolved.copy.role resolved.copy.registry w.entries with
    | none => Fresh w resolved.copy ∧ ∀ left, run.writeLock = some left → left = w.lock
    | some old => old.version ≠ resolved.copy.version →
      Fresh w resolved.copy ∧ (∀ left, run.removeOld = some left → left = w.dirs old.copy.dir) ∧
        run.writeLock = none

/-- A version found newer is another version, and a lock write that fails leaves the lock. -/
def CarefulRole (host : Host Tree) (run : UpdateRun Tree) (w : RoleStore Tree)
    (entry : LockEntry) : Prop :=
  ∀ resolved, newerVersion host run entry = some resolved →
    Admitted host resolved (run.roles entry).archive (run.roles entry).faults →
    resolved.copy.version ≠ entry.version ∧ Fresh w resolved.copy ∧
      ∀ left, (run.roles entry).writeLock = some left → left = w.lock

def roleStep (host : Host Tree) (run : UpdateRun Tree) (w : RoleStore Tree) (entry : LockEntry) :
    RoleStore Tree := (updateRole host run entry w).2

def CarefulUpdate (host : Host Tree) (run : UpdateRun Tree) (w : RoleStore Tree) : Prop :=
  General.Along (roleStep host run) (CarefulRole host run) w (rolesToUpdate run.role w.entries)

/-- The removal is done or changes nothing, and no other copy or link into one is left. -/
def CarefulUninstall (run : UninstallRun Tree) (w : RoleStore Tree) : Prop :=
  ∀ entry, selectInstalled run.spec w.entries = .ok entry →
    (∀ left, run.removal = some left → left = w.dirs entry.copy.dir) ∧
    (run.removal = none →
      (∀ left, run.writeLock = some left →
        (left.getD []).Sublist (withoutEntry entry.role entry.registry w.entries)) ∧
      (run.writeLock = none →
        (∀ d ∈ w.placed, d.registry = entry.registry → d.role = entry.role → d ≠ entry.copy →
          w.dirs d.dir = none ∧ ∀ link ∈ w.links, ¬ link.Inside d.dir) ∧
        ∀ link ∈ w.links, link.Inside entry.copy.dir →
          run.unreadable link = false ∧ run.stuck link = false))

def Careful (host : Host Tree) (w : RoleStore Tree) : Command Tree → Prop
  | .install run => CarefulInstall host run w
  | .update run => CarefulUpdate host run w
  | .uninstall run => CarefulUninstall run w
  | .relink _ => True

section Frames
variable {fault : Option (Option Tree)} {f : PlaceFaults Tree} {extracted archive : Tree}
  {resolved : Resolved}

structure SameBut (dir : RoleDir) (w w' : RoleStore Tree) : Prop where
  dirs : ∀ d, d ≠ dir → w'.dirs d = w.dirs d
  lock : w'.lock = w.lock
  links : w'.links = w.links
  placed : w'.placed = w.placed

theorem SameBut.refl (dir : RoleDir) (w : RoleStore Tree) : SameBut dir w w :=
  ⟨fun _ _ => rfl, rfl, rfl, rfl⟩

theorem SameBut.trans {w'' : RoleStore Tree} (h : SameBut dir w w') (h' : SameBut dir w' w'') :
    SameBut dir w w'' :=
  ⟨fun d hd => (h'.dirs d hd).trans (h.dirs d hd), h'.lock.trans h.lock, h'.links.trans h.links,
    h'.placed.trans h.placed⟩

theorem SameBut.entries (h : SameBut dir w w') : w'.entries = w.entries := by
  rw [RoleStore.entries, RoleStore.entries, h.lock]

theorem sameBut_setDir (w : RoleStore Tree) (dir : RoleDir) (tree : Option Tree) :
    SameBut dir w (w.setDir dir tree) :=
  ⟨fun _ hd => update_of_ne hd .., rfl, rfl, rfl⟩

@[simp]
theorem setDir_dirs_self (w : RoleStore Tree) (dir : RoleDir) (tree : Option Tree) :
    (w.setDir dir tree).dirs dir = tree := update_self ..

/-- When the removal is done nothing is there; when it fails, what the failure leaves. -/
theorem removeIfPresent_spec {result : Except CliError Unit}
    (h : removeIfPresent fault dir w = (result, w')) :
    SameBut dir w w' ∧ (result = .ok () → w'.dirs dir = none ∧ (fault = none ∨ w.dirs dir = none)) ∧
      ∀ e, result = .error e → ∃ left, fault = some left ∧ w'.dirs dir = left := by
  unfold removeIfPresent at h
  split at h
  · unfold rmSync at h
    split at h
    · obtain ⟨rfl, rfl⟩ := Prod.mk.inj h
      exact ⟨sameBut_setDir .., fun _ => ⟨setDir_dirs_self .., .inl rfl⟩, nofun⟩
    · next left =>
      obtain ⟨rfl, rfl⟩ := Prod.mk.inj h
      exact ⟨sameBut_setDir .., nofun, fun _ _ => ⟨left, rfl, setDir_dirs_self ..⟩⟩
  · next hnone =>
    obtain ⟨rfl, rfl⟩ := Prod.mk.inj h
    have hno : w.dirs dir = none := Option.not_isSome_iff_eq_none.1 hnone
    exact ⟨.refl .., fun _ => ⟨hno, .inr hno⟩, nofun⟩

theorem swapIn_spec {result : Except CliError Unit} (h : swapIn f dir extracted w = (result, w')) :
    SameBut dir w w' ∧ (result = .ok () → w'.dirs dir = some extracted) := by
  unfold swapIn at h
  split at h
  · obtain ⟨rfl, rfl⟩ := Prod.mk.inj h
    exact ⟨.refl .., nofun⟩
  · split at h
    · next w₁ hremove =>
      obtain ⟨rfl, rfl⟩ := Prod.mk.inj h
      exact ⟨(removeIfPresent_spec hremove).1, nofun⟩
    · next w₁ hremove =>
      have hclear := (removeIfPresent_spec hremove).1
      split at h
      · obtain ⟨rfl, rfl⟩ := Prod.mk.inj h
        exact ⟨hclear.trans (sameBut_setDir ..), nofun⟩
      · obtain ⟨rfl, rfl⟩ := Prod.mk.inj h
        exact ⟨hclear.trans (sameBut_setDir ..), fun _ => setDir_dirs_self ..⟩

def RoleStore.place (w : RoleStore Tree) (c : RoleCopy) : RoleStore Tree :=
  { w with placed := c :: w.placed }

/-- A placement that is admitted touches the copy's directory only, a refused one nothing. -/
theorem placeVersion_spec {result : Except CliError String}
    (h : placeVersion host resolved archive f w = (result, w')) :
    ((∃ e, result = .error e) ∧ w' = w) ∨
      (Admitted host resolved archive f ∧ SameBut resolved.copy.dir (w.place resolved.copy) w' ∧
        ∀ integrity, result = .ok integrity →
          w'.dirs resolved.copy.dir = some archive ∧ host.computeIntegrity archive = integrity) := by
  unfold placeVersion at h
  dsimp only at h
  split at h
  · obtain ⟨rfl, rfl⟩ := Prod.mk.inj h
    exact .inl ⟨⟨_, rfl⟩, rfl⟩
  · next hfetched =>
    split at h
    · obtain ⟨rfl, rfl⟩ := Prod.mk.inj h
      exact .inl ⟨⟨_, rfl⟩, rfl⟩
    · next hdigest =>
      split at h
      · obtain ⟨rfl, rfl⟩ := Prod.mk.inj h
        exact .inl ⟨⟨_, rfl⟩, rfl⟩
      · next targetDir hpath =>
        obtain rfl := eq_dir_of_getRolePath hpath
        have hadmitted : Admitted host resolved archive f := by
          simp only [not_or, Bool.not_eq_true] at hfetched
          refine ⟨hfetched.1, hfetched.2, ?_, hpath⟩
          intro expected hexpected
          by_contra hne
          rw [hexpected] at hdigest
          exact hdigest (decide_eq_true hne)
        right
        split at h
        · obtain ⟨rfl, rfl⟩ := Prod.mk.inj h
          exact ⟨hadmitted, .refl .., nofun⟩
        · split at h
          · next hswap =>
            obtain ⟨rfl, rfl⟩ := Prod.mk.inj h
            exact ⟨hadmitted, (swapIn_spec hswap).1, nofun⟩
          · next hswap =>
            obtain ⟨rfl, rfl⟩ := Prod.mk.inj h
            obtain ⟨hsame, hdone⟩ := swapIn_spec hswap
            refine ⟨hadmitted, hsame, fun integrity hok => ⟨hdone rfl, Except.ok.inj hok⟩⟩

end Frames

section Locks
variable {entry e : LockEntry} {roles : List LockEntry}

section

variable (hn : (roles.map LockEntry.source).Nodup)
include hn

theorem mem_withEntry (h : e ∈ withEntry entry roles) :
    e = entry ∨ (e ∈ roles ∧ e.source ≠ entry.source) := by
  induction roles with
  | nil => exact .inl (mem_singleton.1 h)
  | cons r rest ih =>
    rw [map_cons, nodup_cons] at hn
    unfold withEntry at h
    split at h
    · next hsource =>
      rcases mem_cons.1 h with rfl | hrest
      · exact .inl rfl
      · refine .inr ⟨mem_cons_of_mem _ hrest, fun heq => hn.1 ?_⟩
        rw [hsource, ← heq]
        exact mem_map_of_mem hrest
    · next hsource =>
      rcases mem_cons.1 h with rfl | hrest
      · exact .inr ⟨.head _, hsource⟩
      · exact (ih hn.2 hrest).imp_right fun hr => ⟨mem_cons_of_mem _ hr.1, hr.2⟩

omit hn in
theorem mem_withEntry_of_ne (h : e ∈ roles) (hne : e.source ≠ entry.source) :
    e ∈ withEntry entry roles := by
  induction roles with
  | nil => exact nomatch h
  | cons r rest ih =>
    unfold withEntry
    split
    · next hsource =>
      rcases mem_cons.1 h with rfl | hrest
      · exact absurd hsource hne
      · exact .tail _ hrest
    · rcases mem_cons.1 h with rfl | hrest
      · exact .head _
      · exact .tail _ (ih hrest)

theorem nodup_withEntry : ((withEntry entry roles).map LockEntry.source).Nodup := by
  induction roles with
  | nil => exact nodup_singleton _
  | cons r rest ih =>
    have hrest := nodup_cons.1 (map_cons ▸ hn)
    unfold withEntry
    split
    · next hsource =>
      rw [map_cons, ← hsource]
      exact nodup_cons.2 hrest
    · next hsource =>
      rw [map_cons, nodup_cons]
      refine ⟨fun hmem => ?_, ih hrest.2⟩
      obtain ⟨d, hd, heq⟩ := mem_map.1 hmem
      rcases mem_withEntry hrest.2 hd with rfl | ⟨hd, -⟩
      · exact hsource heq.symm
      · exact hrest.1 (heq ▸ mem_map_of_mem hd)

theorem findInLock_eq {roleId registry : String}
    (he : e ∈ roles) (hs : e.source = (roleId, registry)) :
    findInLock roleId registry roles = some e := by
  have h := General.find?_key_eq hn he
  rw [hs] at h
  exact h

end

theorem findInLock_some {roleId registry : String} (h : findInLock roleId registry roles = some e) :
    e ∈ roles ∧ e.source = (roleId, registry) :=
  ⟨mem_of_find?_eq_some h, by simpa using find?_some h⟩

end Locks

/-- What every command keeps: one entry a source, each recorded and placed, no directory shared. -/
structure Inv (host : Host Tree) (w : RoleStore Tree) : Prop where
  keys : (w.entries.map LockEntry.source).Nodup
  recorded : ∀ e ∈ w.entries, Recorded host w e
  named : ∀ e ∈ w.entries, e.copy ∈ w.placed
  apart : Apart w

theorem Inv.empty (host : Host Tree) : Inv host RoleStore.empty where
  keys := nodup_nil
  recorded := nofun
  named := nofun
  apart := nofun

theorem Recorded.of_dirs {e : LockEntry} (h : Recorded host w e)
    (hdirs : w'.dirs e.copy.dir = w.dirs e.copy.dir) : Recorded host w' e := by
  unfold Recorded
  rw [hdirs]
  exact h

theorem Fresh.apart (h : Fresh w c) (ha : Apart w) : Apart (w.place c) := by
  have hone : ∀ d ∈ w.placed, c.dir = d.dir → c = d := by
    intro d hd hdir
    rcases RoleCopy.dir_eq_iff.1 hdir with heq | hruns | hruns
    · exact heq
    · exact absurd hruns (h d hd).1
    · exact absurd hruns (h d hd).2
  intro a hmem b hmem' hdir
  rcases mem_cons.1 hmem with rfl | ha'
  · rcases mem_cons.1 hmem' with rfl | hb
    · rfl
    · exact hone b hb hdir
  · rcases mem_cons.1 hmem' with rfl | hb
    · exact (hone a ha' hdir.symm).symm
    · exact ha a ha' b hb hdir

theorem Inv.of_same (hi : Inv host w) (hlock : w'.lock = w.lock) (hplaced : w'.placed = w.placed)
    (hdirs : ∀ e ∈ w.entries, w'.dirs e.copy.dir = w.dirs e.copy.dir) : Inv host w' := by
  have hentries : w'.entries = w.entries := by rw [RoleStore.entries, RoleStore.entries, hlock]
  refine ⟨hentries ▸ hi.keys, ?_, ?_, ?_⟩
  · intro e he
    rw [hentries] at he
    exact (hi.recorded e he).of_dirs (hdirs e he)
  · rw [hentries, hplaced]
    exact hi.named
  · unfold Apart
    rw [hplaced]
    exact hi.apart

theorem Inv.place (hi : Inv host w) (hfresh : Fresh w c) : Inv host (w.place c) :=
  ⟨hi.keys, hi.recorded, fun e he => mem_cons_of_mem _ (hi.named e he), hfresh.apart hi.apart⟩

theorem Inv.withLock (hi : Inv host w) (lock : LockFile)
    (hkeys : ((lock.getD []).map LockEntry.source).Nodup)
    (hrecorded : ∀ e ∈ lock.getD [], Recorded host w' e)
    (hnamed : ∀ e ∈ lock.getD [], e.copy ∈ w.placed)
    (hlock : w'.lock = lock) (hplaced : w'.placed = w.placed) : Inv host w' := by
  have hentries : w'.entries = lock.getD [] := by rw [RoleStore.entries, hlock]
  refine ⟨hentries ▸ hkeys, hentries ▸ hrecorded, ?_, ?_⟩
  · rw [hentries, hplaced]
    exact hnamed
  · unfold Apart
    rw [hplaced]
    exact hi.apart

theorem SameBut.dirs_of_ne (h : SameBut c.dir w w') (ha : Apart w) (hc : c ∈ w.placed)
    {d : RoleCopy} (hd : d ∈ w.placed) (hne : d ≠ c) : w'.dirs d.dir = w.dirs d.dir :=
  h.dirs _ fun hdir => hne (ha d hd c hc hdir)

section Locking
variable {fault : Option LockFile} {entry : LockEntry} {result : Except CliError Unit}
  {roleId registry : String}

theorem updateLock_spec {change : List LockEntry → List LockEntry}
    (h : updateLock fault change w = (result, w')) :
    (fault = none ∧ result = .ok () ∧ w.lock.isSome ∧
        w' = { w with lock := some (change w.entries) }) ∨
      ((∃ e, result = .error e) ∧
        ((w.lock = none ∧ w' = w) ∨ ∃ left, fault = some left ∧ w' = { w with lock := left })) := by
  unfold updateLock at h
  split at h
  · next hlock =>
    obtain ⟨rfl, rfl⟩ := Prod.mk.inj h
    exact .inr ⟨⟨_, rfl⟩, .inl ⟨hlock, rfl⟩⟩
  · next roles hlock =>
    have hentries : w.entries = roles := by rw [RoleStore.entries, hlock]; rfl
    unfold saveLock at h
    split at h
    · obtain ⟨rfl, rfl⟩ := Prod.mk.inj h
      exact .inl ⟨rfl, rfl, hlock ▸ rfl, by rw [hentries]⟩
    · next left =>
      obtain ⟨rfl, rfl⟩ := Prod.mk.inj h
      exact .inr ⟨⟨_, rfl⟩, .inr ⟨left, rfl, rfl⟩⟩

theorem Inv.setEntry (hi : Inv host w) (entry : LockEntry) (hplaced : w'.placed = w.placed)
    (hlock : w'.lock = some (withEntry entry w.entries)) (hentry : Recorded host w' entry)
    (hnamed : entry.copy ∈ w.placed)
    (hothers : ∀ e ∈ w.entries, e.source ≠ entry.source → Recorded host w' e) : Inv host w' := by
  refine hi.withLock (some (withEntry entry w.entries)) (nodup_withEntry hi.keys) ?_ ?_ hlock
    hplaced
  · intro e he
    rcases mem_withEntry hi.keys he with rfl | ⟨he, hne⟩
    · exact hentry
    · exact hothers e he hne
  · intro e he
    rcases mem_withEntry hi.keys he with rfl | ⟨he, -⟩
    · exact hnamed
    · exact hi.named e he

end Locking

section Installing
variable {run : InstallRun Tree}

theorem Kept.refl (w : RoleStore Tree) : Kept w w := ⟨rfl, fun _ _ => rfl⟩

theorem removeOldVersion_spec {fault : Option (Option Tree)} {existing : Option LockEntry}
    {result : Except CliError Unit} (h : removeOldVersion fault existing dir w = (result, w')) :
    (w' = w ∨ ∃ old, existing = some old ∧ SameBut old.copy.dir w w') ∧
      ∀ e, result = .error e →
        w' = w ∨ ∃ old left, existing = some old ∧ fault = some left ∧
          SameBut old.copy.dir w w' ∧ w'.dirs old.copy.dir = left := by
  unfold removeOldVersion at h
  split at h
  · obtain ⟨rfl, rfl⟩ := Prod.mk.inj h
    exact ⟨.inl rfl, fun _ _ => .inl rfl⟩
  · next old =>
    split at h
    · obtain ⟨rfl, rfl⟩ := Prod.mk.inj h
      exact ⟨.inl rfl, fun _ _ => .inl rfl⟩
    · next oldPath hpath =>
      obtain rfl := eq_dir_of_getRolePath hpath
      split at h
      · obtain ⟨hsame, -, hfailed⟩ := removeIfPresent_spec h
        refine ⟨.inr ⟨old, rfl, hsame⟩, fun e he => ?_⟩
        obtain ⟨left, hfault, hleft⟩ := hfailed e he
        exact .inr ⟨old, left, rfl, hfault, hsame, hleft⟩
      · obtain ⟨rfl, rfl⟩ := Prod.mk.inj h
        exact ⟨.inl rfl, fun _ _ => .inl rfl⟩

structure Placed (host : Host Tree) (c : RoleCopy) (w w' : RoleStore Tree) : Prop where
  inv : Inv host w'
  same : SameBut c.dir (w.place c) w'
  kept : Kept w w'
  other : ∀ e ∈ w.entries, e.copy ≠ c

theorem Inv.placedCopy (hi : Inv host w) (hfresh : Fresh w c)
    (hother : ∀ e ∈ w.entries, e.copy ≠ c) (hsame : SameBut c.dir (w.place c) w') :
    Placed host c w w' := by
  have hplace := hi.place hfresh
  have hkept : ∀ e ∈ w.entries, w'.dirs e.copy.dir = w.dirs e.copy.dir := fun e he =>
    hsame.dirs_of_ne hplace.apart (.head _) (hplace.named e he) (hother e he)
  exact ⟨hplace.of_same hsame.lock hsame.placed hkept, hsame, ⟨hsame.lock, hkept⟩, hother⟩

theorem Placed.mem (h : Placed host c w w') : c ∈ w'.placed := by
  rw [h.same.placed]
  exact .head _

theorem Placed.entries (h : Placed host c w w') : w'.entries = w.entries := h.same.entries

theorem Placed.dirs_of_old {w'' : RoleStore Tree} (h : Placed host c w w') {old : LockEntry}
    (hold : old ∈ w.entries) (hsame : SameBut old.copy.dir w' w'') :
    w''.dirs c.dir = w'.dirs c.dir :=
  hsame.dirs_of_ne h.inv.apart (h.inv.named old (h.entries ▸ hold)) h.mem
    (h.other old hold).symm

theorem Placed.setEntry {w₁ w₂ w' : RoleStore Tree} {now integrity : String} {archive : Tree}
    (hplaced : Placed host c w w₁)
    (hdir : w₁.dirs c.dir = some archive) (hdigest : host.computeIntegrity archive = integrity)
    (hremoved : w₂ = w₁ ∨ ∃ old ∈ w.entries, old.source = (c.role, c.registry) ∧
      SameBut old.copy.dir w₁ w₂)
    (hw' : w' = { w₂ with lock := some (withEntry (lockEntry c now integrity) w₂.entries) }) :
    Inv host w' := by
  subst hw'
  have hmem : (lockEntry c now integrity).copy ∈ w₁.placed := hplaced.mem
  rcases hremoved with rfl | ⟨old, hold, hsource, hsame⟩
  · refine hplaced.inv.setEntry _ rfl rfl ?_ hmem ?_
    · exact ⟨archive, hdir, hdigest⟩
    · intro e he _
      exact (hplaced.inv.recorded e he).of_dirs rfl
  · refine hplaced.inv.setEntry (lockEntry c now integrity) hsame.placed ?_ ?_ hmem ?_
    · rw [hsame.entries]
    · exact ⟨archive, (hplaced.dirs_of_old hold hsame).trans hdir, hdigest⟩
    intro e he hne
    have hne_old : e.copy ≠ old.copy := by
      intro heq
      apply hne
      have hrole : e.role = old.role := congrArg RoleCopy.role heq
      have hregistry : e.registry = old.registry := congrArg RoleCopy.registry heq
      rw [LockEntry.source, hrole, hregistry]
      exact hsource
    exact (hplaced.inv.recorded e he).of_dirs (hsame.dirs_of_ne hplaced.inv.apart
      (hplaced.inv.named old (hplaced.entries ▸ hold)) (hplaced.inv.named e he) hne_old)

theorem install_spec (hi : Inv host w) (hc : CarefulInstall host run w) :
    Inv host (install host run w).2 ∧
      ∀ e, (install host run w).1 = .error e → Kept w (install host run w).2 := by
  rcases hinstall : install host run w with ⟨result, w'⟩
  have hnothing : w' = w → Inv host w' ∧ ∀ e, result = .error e → Kept w w' := by
    rintro rfl
    exact ⟨hi, fun _ _ => .refl _⟩
  unfold install at hinstall
  split at hinstall
  · exact hnothing (Prod.mk.inj hinstall).2.symm
  next resolved hresolved =>
  split at hinstall
  · exact hnothing (Prod.mk.inj hinstall).2.symm
  next roles hlock =>
  have hentries : w.entries = roles := by rw [RoleStore.entries, hlock]; rfl
  dsimp only at hinstall
  split at hinstall
  · exact hnothing (Prod.mk.inj hinstall).2.symm
  next hversion =>
  rw [← hentries] at hversion hinstall
  rcases hplace : placeVersion host resolved run.archive run.faults w with ⟨outcome, w₁⟩
  rw [hplace] at hinstall
  rcases placeVersion_spec hplace with ⟨⟨e, rfl⟩, hsame⟩ | ⟨hadmitted, hsame, hdone⟩
  · exact hnothing ((Prod.mk.inj hinstall).2.symm.trans hsame)
  have hcareful := hc resolved hresolved hadmitted
  have hother : ∀ e ∈ w.entries, e.copy ≠ resolved.copy := by
    intro e he heq
    rw [findInLock_eq hi.keys he (by rw [← heq]; rfl)] at hversion
    exact hversion (by rw [← heq]; rfl)
  -- a copy of the source that is installed is of another version, or there is none
  have hcases : Fresh w resolved.copy ∧
      (∀ old left, findInLock resolved.copy.role resolved.copy.registry w.entries = some old →
        (run.removeOld = some left → left = w.dirs old.copy.dir) ∧ run.writeLock = none) ∧
      (findInLock resolved.copy.role resolved.copy.registry w.entries = none →
        ∀ left, run.writeLock = some left → left = w.lock) := by
    cases hexisting : findInLock resolved.copy.role resolved.copy.registry w.entries with
    | none =>
      rw [hexisting] at hcareful
      exact ⟨hcareful.1, nofun, fun _ => hcareful.2⟩
    | some old =>
      rw [hexisting] at hcareful hversion
      obtain ⟨hfresh, hremove, hwrite⟩ := hcareful fun heq => hversion (congrArg some heq)
      refine ⟨hfresh, ?_, nofun⟩
      intro old' left h
      cases h
      exact ⟨hremove left, hwrite⟩
  obtain ⟨hfresh, hold, hfirst⟩ := hcases
  have hplaced := hi.placedCopy hfresh hother hsame
  cases outcome with
  | error e =>
    obtain ⟨-, rfl⟩ := Prod.mk.inj hinstall
    exact ⟨hplaced.inv, fun _ _ => hplaced.kept⟩
  | ok integrity =>
    obtain ⟨hdir, hdigest⟩ := hdone integrity rfl
    dsimp only at hinstall
    rcases hremove : removeOldVersion run.removeOld
      (findInLock resolved.copy.role resolved.copy.registry w.entries) resolved.copy.dir w₁
      with ⟨removal, w₂⟩
    rw [hremove] at hinstall
    obtain ⟨hremoved, hfailed⟩ := removeOldVersion_spec hremove
    cases removal with
    | error e =>
      obtain ⟨-, rfl⟩ := Prod.mk.inj hinstall
      rcases hfailed e rfl with rfl | ⟨old, left, hexisting, hfault, hsame₂, hleft⟩
      · exact ⟨hplaced.inv, fun _ _ => hplaced.kept⟩
      have hmem := (findInLock_some hexisting).1
      have hunchanged : w₂.dirs old.copy.dir = w₁.dirs old.copy.dir := by
        rw [hleft, (hold old left hexisting).1 hfault, hplaced.kept.2 old hmem]
      have hkept : ∀ e ∈ w₁.entries, w₂.dirs e.copy.dir = w₁.dirs e.copy.dir := by
        intro e he
        by_cases heq : e.copy.dir = old.copy.dir
        · rw [heq]
          exact hunchanged
        · exact hsame₂.dirs _ heq
      refine ⟨hplaced.inv.of_same hsame₂.lock hsame₂.placed hkept, fun _ _ => ?_⟩
      refine ⟨hsame₂.lock.trans hplaced.kept.1, fun e he => ?_⟩
      exact (hkept e (hplaced.entries ▸ he)).trans (hplaced.kept.2 e he)
    | ok _ =>
      rcases updateLock_spec hinstall with ⟨-, rfl, -, hw'⟩ | ⟨-, hw'⟩
      · refine ⟨hplaced.setEntry hdir hdigest ?_ hw', nofun⟩
        rcases hremoved with rfl | ⟨old, hexisting, hsame₂⟩
        · exact .inl rfl
        · obtain ⟨hmem, hsource⟩ := findInLock_some hexisting
          exact .inr ⟨old, hmem, hsource, hsame₂⟩
      · -- the lock is not written: nothing was removed, and the lock is as it was
        have hlock₂ : w₂.lock = w.lock := by
          rcases hremoved with rfl | ⟨old, -, hsame₂⟩
          · exact hplaced.kept.1
          · exact hsame₂.lock.trans hplaced.kept.1
        rcases hw' with ⟨hnone, -⟩ | ⟨left, hfault, hw'⟩
        · rw [hlock₂, hlock] at hnone
          exact nomatch hnone
        · rcases hremoved with rfl | ⟨old, hexisting, -⟩
          · cases hexisting : findInLock resolved.copy.role resolved.copy.registry w.entries with
            | some old =>
              rw [(hold old none hexisting).2] at hfault
              exact nomatch hfault
            | none =>
              have hleft := hfirst hexisting left hfault
              have hkept : Kept w w' := by
                rw [hw']
                exact ⟨hleft, hplaced.kept.2⟩
              refine ⟨hplaced.inv.of_same ?_ ?_ fun e _ => ?_, fun _ _ => hkept⟩
              · exact hkept.1.trans hplaced.kept.1.symm
              · rw [hw']
              · rw [hw']
          · rw [(hold old none hexisting).2] at hfault
            exact nomatch hfault

end Installing

section Updating
variable {run : UpdateRun Tree} {entry : LockEntry}

theorem newerVersion_source {resolved : Resolved} (h : newerVersion host run entry = some resolved) :
    (resolved.copy.role, resolved.copy.registry) = entry.source := by
  unfold newerVersion at h
  split at h
  · exact nomatch h
  split at h
  · exact nomatch h
  split at h
  · exact nomatch h
  · cases h
    rfl

structure RoleUpdated (host : Host Tree) (entry : LockEntry) (done : Bool)
    (w w' : RoleStore Tree) : Prop where
  inv : Inv host w'
  placed : ∀ d ∈ w.placed, d ∈ w'.placed
  dirs : ∀ e : LockEntry, e.copy ∈ w.placed → (e.source = entry.source → e = entry) →
    w'.dirs e.copy.dir = w.dirs e.copy.dir
  failed : done = false → w'.lock = w.lock
  others : ∀ e ∈ w.entries, e.source ≠ entry.source → e ∈ w'.entries

theorem RoleUpdated.refl (hi : Inv host w) : RoleUpdated host entry false w w :=
  ⟨hi, fun _ hd => hd, fun _ _ _ => rfl, fun _ => rfl, fun _ he _ => he⟩

theorem updateRole_spec (hi : Inv host w) (hentry : entry ∈ w.entries)
    (hc : CarefulRole host run w entry) :
    RoleUpdated host entry (updateRole host run entry w).1 w (updateRole host run entry w).2 := by
  unfold updateRole
  split
  · exact .refl hi
  next resolved hresolved =>
  dsimp only
  rcases hplace : placeVersion host resolved (run.roles entry).archive (run.roles entry).faults w
    with ⟨outcome, w₁⟩
  rcases placeVersion_spec hplace with ⟨⟨e, rfl⟩, rfl⟩ | ⟨hadmitted, hsame, hdone⟩
  · exact .refl hi
  obtain ⟨hversion, hfresh, hwrite⟩ := hc resolved hresolved hadmitted
  have hsource := newerVersion_source hresolved
  have hne : ∀ e : LockEntry, (e.source = entry.source → e = entry) → e.copy ≠ resolved.copy := by
    intro e hone heq
    have hcopy : e.source = entry.source := by
      rw [← hsource, ← heq]
      rfl
    rw [hone hcopy] at heq
    exact hversion (congrArg RoleCopy.version heq).symm
  have hone : ∀ e ∈ w.entries, e.source = entry.source → e = entry := fun e he h =>
    inj_on_of_nodup_map hi.keys he hentry h
  have hplaced := hi.placedCopy hfresh (fun e he => hne e (hone e he)) hsame
  have hgrown : ∀ d ∈ w.placed, d ∈ w₁.placed := by
    intro d hd
    rw [hsame.placed]
    exact .tail _ hd
  have hdirs : ∀ e : LockEntry, e.copy ∈ w.placed → (e.source = entry.source → e = entry) →
      w₁.dirs e.copy.dir = w.dirs e.copy.dir := fun e he h =>
    hsame.dirs_of_ne (hi.place hfresh).apart (.head _) (.tail _ he)
      (hne e h)
  cases outcome with
  | error e =>
    exact ⟨hplaced.inv, hgrown, hdirs, fun _ => hplaced.kept.1, fun e he _ => hplaced.entries ▸ he⟩
  | ok integrity =>
    obtain ⟨hdir, hdigest⟩ := hdone integrity rfl
    dsimp only
    rcases hadd : addToLock (run.roles entry).writeLock
      (lockEntry resolved.copy (run.roles entry).now integrity) w₁ with ⟨written, w₂⟩
    rcases updateLock_spec hadd with ⟨-, rfl, -, hw₂⟩ | ⟨⟨e, rfl⟩, ⟨-, rfl⟩ | ⟨left, hfault, rfl⟩⟩
    · refine ⟨hplaced.setEntry hdir hdigest (.inl rfl) hw₂, ?_, ?_, nofun, ?_⟩
      · rw [hw₂]
        exact hgrown
      · rw [hw₂]
        exact hdirs
      · intro e he hother
        rw [hw₂]
        refine mem_withEntry_of_ne (hplaced.entries ▸ he) fun heq => hother (heq.trans hsource)
    · exact ⟨hplaced.inv, hgrown, hdirs, fun _ => hplaced.kept.1, fun e he _ => hplaced.entries ▸ he⟩
    · have hlock : left = w₁.lock := (hwrite left hfault).trans hplaced.kept.1.symm
      refine ⟨hplaced.inv.of_same hlock rfl fun _ _ => rfl, hgrown, hdirs,
        fun _ => hwrite left hfault, fun e he _ => ?_⟩
      rw [RoleStore.entries, hwrite left hfault]
      exact he

/-- No copy of the entries is touched, and an entry whose update did not go through stays. -/
theorem updateRoles_spec {entries : List LockEntry} (hn : (entries.map LockEntry.source).Nodup)
    {roles : List LockEntry} (hsub : roles.Sublist entries) (hi : Inv host w)
    (hnamed : ∀ e ∈ entries, e.copy ∈ w.placed) (hin : ∀ e ∈ roles, e ∈ w.entries)
    (hc : General.Along (roleStep host run) (CarefulRole host run) w roles) :
    Inv host (updateRoles host run roles w).2 ∧
      (∀ e ∈ entries, (updateRoles host run roles w).2.dirs e.copy.dir = w.dirs e.copy.dir) ∧
      (∀ e ∈ w.entries, e ∉ (updateRoles host run roles w).1 →
        e ∈ (updateRoles host run roles w).2.entries) ∧
      ((updateRoles host run roles w).1 = [] → (updateRoles host run roles w).2.lock = w.lock) := by
  induction roles generalizing w with
  | nil => exact ⟨hi, fun _ _ => rfl, fun _ he _ => he, fun _ => rfl⟩
  | cons entry rest ih =>
    have hentry : entry ∈ entries := hsub.subset (.head _)
    have hstep := updateRole_spec hi (hin entry (.head _)) hc.1
    have hrest : rest.Sublist entries := (sublist_cons_self entry rest).trans hsub
    have hdistinct : ∀ e ∈ rest, e.source ≠ entry.source := by
      have hnodup := (hsub.map LockEntry.source).nodup hn
      intro e he heq
      rw [map_cons, nodup_cons] at hnodup
      exact hnodup.1 (heq ▸ mem_map_of_mem he)
    have hnamed' := fun e he => hstep.placed _ (hnamed e he)
    have hin' := fun e he => hstep.others e (hin e (.tail _ he)) (hdistinct e he)
    obtain ⟨hinv, hdirs, hkept, hlock⟩ := ih hrest hstep.inv hnamed' hin' hc.2
    have hdirs' : ∀ e ∈ entries, (updateRoles host run rest (updateRole host run entry w).2).2.dirs
        e.copy.dir = w.dirs e.copy.dir := fun e he =>
      (hdirs e he).trans (hstep.dirs e (hnamed e he) fun h => inj_on_of_nodup_map hn he hentry h)
    rcases hupdate : updateRole host run entry w with ⟨done, w₁⟩
    rw [hupdate] at hstep hinv hdirs' hkept hlock
    unfold updateRoles
    rw [hupdate]
    cases done with
    | false =>
      refine ⟨hinv, hdirs', ?_, fun h => (hlock h).trans (hstep.failed rfl)⟩
      intro e he hnot
      apply hkept e _ hnot
      rw [RoleStore.entries, hstep.failed rfl]
      exact he
    | true =>
      refine ⟨hinv, hdirs', ?_, nofun⟩
      intro e he hnot
      obtain ⟨hne, hrest'⟩ := not_or.1 (mem_cons.not.1 hnot)
      refine hkept e (hstep.others e he fun heq => hne ?_) hrest'
      exact inj_on_of_nodup_map hi.keys he (hin entry (.head _)) heq

theorem findInLock_sublist {roleId registry : String} {roles : List LockEntry} :
    ((findInLock roleId registry roles).toList).Sublist roles := by
  cases hfind : findInLock roleId registry roles with
  | none => exact nil_sublist _
  | some e => exact singleton_sublist.2 (findInLock_some hfind).1

theorem entriesOf_sublist (spec : String) (roles : List LockEntry) :
    (entriesOf spec roles).Sublist roles := by
  unfold entriesOf
  dsimp only
  split
  · exact findInLock_sublist
  · exact filter_sublist

theorem rolesToUpdate_sublist (role : Option String) (roles : List LockEntry) :
    (rolesToUpdate role roles).Sublist roles := by
  unfold rolesToUpdate
  split
  · exact .refl _
  · exact entriesOf_sublist ..

theorem update_spec (hi : Inv host w) (hc : CarefulUpdate host run w) :
    Inv host (update host run w).2 ∧ Promise host w (.update run) := by
  unfold Promise update
  cases hlock : w.lock with
  | none => exact ⟨hi, fun _ _ => .refl _, nofun⟩
  | some roles =>
    have hentries : w.entries = roles := by rw [RoleStore.entries, hlock]; rfl
    have hsub := rolesToUpdate_sublist run.role w.entries
    obtain ⟨hinv, hdirs, hkept, hnone⟩ := updateRoles_spec hi.keys hsub hi hi.named
      (fun e he => hsub.subset he) hc
    rw [hentries] at hinv hdirs hkept hnone
    refine ⟨hinv, nofun, fun updated h => ?_⟩
    obtain rfl := Except.ok.inj h
    rw [hentries]
    exact ⟨fun e he => ⟨hdirs e he, hkept e he⟩, fun h => (hnone h).trans hlock⟩

end Updating

section Uninstalling
variable {run : UninstallRun Tree}

theorem isSameOrInside_iff {candidate parent : List String} :
    isSameOrInside candidate parent = true ↔ parent <+: candidate := isPrefixOf_iff_prefix

theorem realpath_eq {path real : List String} (h : realpath host w path = some real) :
    real = path := by
  unfold realpath at h
  split at h
  · split at h
    · exact (Option.some.inj h).symm
    · exact nomatch h
  · exact (Option.some.inj h).symm

theorem realpath_role {rolePath : RoleDir} {path real : List String}
    (h : realpath host w path = some real) (hinside : rolePath.segments <+: path) :
    realpath host w rolePath.segments = some rolePath.segments := by
  obtain ⟨inner, rfl⟩ := hinside
  have hdir : (w.dirs rolePath).isSome := by
    rw [RoleDir.segments, cons_append, cons_append] at h
    unfold realpath at h
    split at h
    · next registry name rest heq =>
      obtain ⟨rfl, hrest⟩ := List.cons.inj heq
      obtain ⟨rfl, -⟩ := List.cons.inj hrest
      split at h
      · next hany =>
        obtain ⟨tree, htree, -⟩ := (Option.any_eq_true ..).1 hany
        rw [show rolePath = ⟨rolePath.registry, rolePath.name⟩ from rfl, htree]
        rfl
      · exact nomatch h
    · next hshape => exact absurd rfl (hshape _ _ _)
  obtain ⟨tree, htree⟩ := Option.isSome_iff_exists.1 hdir
  rw [RoleDir.segments, realpath, if_pos]
  rw [show (⟨rolePath.registry, rolePath.name⟩ : RoleDir) = rolePath from rfl, htree]
  simp

theorem linkPointsAtRole_iff {link : SyncLink} {rolePath : RoleDir} :
    linkPointsAtRole host w link rolePath = true ↔ link.Inside rolePath := by
  unfold linkPointsAtRole SyncLink.Inside
  cases hdestination : link.destination with
  | none => exact ⟨nofun, fun ⟨_, h, _⟩ => (nomatch h)⟩
  | some stored =>
    have hinside : (∃ path, some stored = some path ∧ rolePath.segments <+: path) ↔
        rolePath.segments <+: stored :=
      ⟨fun ⟨path, h, hp⟩ => Option.some.inj h ▸ hp, fun h => ⟨stored, rfl, h⟩⟩
    rw [hinside]
    dsimp only
    cases hreal : realpath host w stored with
    | none => exact isSameOrInside_iff
    | some linkReal =>
      obtain rfl := realpath_eq hreal
      dsimp only
      constructor
      · intro h
        split at h
        · exact nomatch h
        · next roleReal hroleReal =>
          rw [realpath_eq hroleReal] at h
          exact isSameOrInside_iff.1 h
      · intro h
        rw [realpath_role hreal h]
        exact isSameOrInside_iff.2 h

variable {entry : LockEntry}

theorem selectInstalled_mem {spec : String} {roles : List LockEntry}
    (h : selectInstalled spec roles = .ok entry) : entry ∈ roles := by
  have hsub := entriesOf_sublist spec roles
  unfold selectInstalled at h
  split at h
  · exact nomatch h
  · next only honly =>
    obtain rfl := Except.ok.inj h
    exact hsub.subset (honly ▸ mem_singleton_self only)
  · exact nomatch h

theorem Inv.keepOthers (hi : Inv host w) (hentry : entry ∈ w.entries)
    (hsame : SameBut entry.copy.dir w w') {e : LockEntry}
    (he : e ∈ withoutEntry entry.role entry.registry w.entries) :
    e ∈ w.entries ∧ Recorded host w' e := by
  obtain ⟨hmem, hne⟩ := mem_filter.1 he
  have hcopy : e.copy ≠ entry.copy := by
    intro heq
    apply of_decide_eq_true hne
    have hrole : e.role = entry.role := congrArg RoleCopy.role heq
    have hregistry : e.registry = entry.registry := congrArg RoleCopy.registry heq
    rw [LockEntry.source, hrole, hregistry]
  exact ⟨hmem, (hi.recorded e hmem).of_dirs (hsame.dirs_of_ne hi.apart (hi.named _ hentry)
    (hi.named _ hmem) hcopy)⟩

theorem Inv.dropEntry {w₁ : RoleStore Tree} {lock : LockFile} (hi : Inv host w)
    (hentry : entry ∈ w.entries) (hsame : SameBut entry.copy.dir w w₁)
    (hsub : (lock.getD []).Sublist (withoutEntry entry.role entry.registry w.entries))
    (hlock : w'.lock = lock) (hdirs : w'.dirs = w₁.dirs) (hplaced : w'.placed = w₁.placed) :
    Inv host w' := by
  refine hi.withLock lock ?_ ?_ ?_ hlock (hplaced.trans hsame.placed)
  · exact ((hsub.trans filter_sublist).map LockEntry.source).nodup hi.keys
  · intro e he
    exact (hi.keepOthers hentry hsame (hsub.subset he)).2.of_dirs (by rw [hdirs])
  · intro e he
    exact hi.named e (hi.keepOthers hentry hsame (hsub.subset he)).1

theorem uninstall_spec (hi : Inv host w) (hc : CarefulUninstall run w) :
    Inv host (uninstall host run w).2 ∧
      ∀ c, (uninstall host run w).1 = .ok c → Gone c (uninstall host run w).2 := by
  rcases huninstall : uninstall host run w with ⟨result, w'⟩
  have hnothing : (∃ e, result = .error e) → w' = w →
      Inv host w' ∧ ∀ c, result = .ok c → Gone c w' := by
    rintro ⟨e, rfl⟩ rfl
    exact ⟨hi, nofun⟩
  unfold uninstall at huninstall
  split at huninstall
  · obtain ⟨rfl, rfl⟩ := Prod.mk.inj huninstall
    exact hnothing ⟨_, rfl⟩ rfl
  next roles hlock =>
  have hentries : w.entries = roles := by rw [RoleStore.entries, hlock]; rfl
  rw [← hentries] at huninstall
  split at huninstall
  · obtain ⟨rfl, rfl⟩ := Prod.mk.inj huninstall
    exact hnothing ⟨_, rfl⟩ rfl
  next entry hentry =>
  obtain ⟨hremoval, hcompletes⟩ := hc entry hentry
  have hmem := selectInstalled_mem hentry
  split at huninstall
  · obtain ⟨rfl, rfl⟩ := Prod.mk.inj huninstall
    exact hnothing ⟨_, rfl⟩ rfl
  next rolePath hpath =>
  obtain rfl := eq_dir_of_getRolePath hpath
  rcases hremove : removeIfPresent run.removal entry.copy.dir w with ⟨removal, w₁⟩
  rw [hremove] at huninstall
  obtain ⟨hsame, hremoved, hfailed⟩ := removeIfPresent_spec hremove
  cases removal with
  | error e =>
    obtain ⟨rfl, rfl⟩ := Prod.mk.inj huninstall
    obtain ⟨left, hfault, hleft⟩ := hfailed e rfl
    refine ⟨hi.of_same hsame.lock hsame.placed fun d _ => ?_, nofun⟩
    by_cases heq : d.copy.dir = entry.copy.dir
    · rw [heq, hleft, hremoval left hfault]
    · exact hsame.dirs _ heq
  | ok _ =>
    dsimp only at huninstall
    obtain ⟨hgone, hdone⟩ := hremoved rfl
    have hfault : run.removal = none := by
      rcases hdone with hdone | hdone
      · exact hdone
      · obtain ⟨tree, htree, -⟩ := hi.recorded entry hmem
        rw [hdone] at htree
        exact nomatch htree
    obtain ⟨hfewer, honly⟩ := hcompletes hfault
    generalize hcollect : collectRoleLinks host run w entry.copy.dir = links at huninstall
    rcases hdrop : removeFromLock run.writeLock entry.role entry.registry
      (unlinkAll run.stuck links w₁) with ⟨written, w₂⟩
    rw [hdrop] at huninstall
    have hentries₁ : (unlinkAll run.stuck links w₁).entries = w.entries := hsame.entries
    rcases updateLock_spec hdrop with ⟨hwrite, rfl, -, hw₂⟩ |
      ⟨⟨e, rfl⟩, ⟨hnone, -⟩ | ⟨left, hleft, hw₂⟩⟩
    · obtain ⟨rfl, rfl⟩ := Prod.mk.inj huninstall
      rw [hentries₁] at hw₂
      have hinv : Inv host w₂ := by
        rw [hw₂]
        exact hi.dropEntry hmem hsame (.refl _) rfl rfl rfl
      refine ⟨hinv, fun c hok => ?_⟩
      obtain rfl := Except.ok.inj hok
      obtain ⟨hothers, hlinks⟩ := honly hwrite
      rw [hw₂]
      intro d hd hregistry hrole
      have hplaced : d ∈ w.placed := hsame.placed ▸ hd
      have hstays : ∀ link ∈ (unlinkAll run.stuck links w₁).links, link ∈ w.links := fun link h =>
        hsame.links ▸ (mem_filter.1 h).1
      by_cases hcopy : d = entry.copy
      · rw [hcopy]
        refine ⟨hgone, fun link hlink hinside => ?_⟩
        obtain ⟨hread, hfree⟩ := hlinks link (hstays link hlink) hinside
        have hcollected : link ∈ links := by
          rw [← hcollect]
          refine mem_filter.2 ⟨hstays link hlink, ?_⟩
          simp only [hread, linkPointsAtRole_iff.2 hinside, Bool.false_eq_true, not_false_eq_true,
            and_self, decide_true]
        have hkept := of_decide_eq_true (mem_filter.1 hlink).2
        exact hkept ⟨hcollected, by simp [hfree]⟩
      · obtain ⟨hnone, hno⟩ := hothers d hplaced hregistry hrole hcopy
        refine ⟨?_, fun link hlink => hno link (hstays link hlink)⟩
        by_cases hdir : d.dir = entry.copy.dir
        · rw [hdir]
          exact hgone
        · exact (hsame.dirs _ hdir).trans hnone
    · rw [unlinkAll, hsame.lock, hlock] at hnone
      exact nomatch hnone
    · obtain ⟨rfl, rfl⟩ := Prod.mk.inj huninstall
      exact ⟨hi.dropEntry hmem hsame (hfewer left hleft) (by rw [hw₂]) (by rw [hw₂]; rfl)
        (by rw [hw₂]; rfl), nofun⟩

end Uninstalling

theorem careful_step (w : RoleStore Tree) (command : Command Tree) (hi : Inv host w)
    (hc : Careful host w command) : Lawful host w command ∧ Inv host (step host w command) := by
  have hlaw : Inv host (step host w command) → Promise host w command →
      Lawful host w command ∧ Inv host (step host w command) := fun hinv hpromise =>
    ⟨⟨hinv.recorded, hinv.apart, hpromise⟩, hinv⟩
  cases command with
  | install run =>
    obtain ⟨hinv, hpromise⟩ := install_spec hi hc
    exact hlaw hinv hpromise
  | update run =>
    obtain ⟨hinv, hpromise⟩ := update_spec hi hc
    exact hlaw hinv hpromise
  | uninstall run =>
    obtain ⟨hinv, hpromise⟩ := uninstall_spec hi hc
    exact hlaw hinv hpromise
  | relink links => exact hlaw (hi.of_same rfl rfl fun _ _ => rfl) trivial

/-- Careful commands keep every entry recorded, copies apart, and what a failure found. -/
theorem installed_roles (host : Host Tree) (commands : List (Command Tree))
    (hc : General.Along (step host) (Careful host) RoleStore.empty commands) :
    General.Along (step host) (Lawful host) RoleStore.empty commands :=
  General.Along.of_invariant careful_step (.empty host) hc

def textHost : Host String where
  computeIntegrity := id
  contains := fun _ _ => false
  number := fun text => if text = "1" then .finite 1 else if text = "2" then .finite 2 else .nan

def publishes (role version : String) : Network := fun _ => some ⟨[(role, ⟨version, none⟩)]⟩

def shelf : RoleboxConfig := ⟨[⟨"shelf", true⟩]⟩

def installOf (role version : String) : InstallRun String where
  spec := "shelf:" ++ role
  config := shelf
  network := publishes role version
  archive := version
  now := "noon"

def updateOf (version : String) (faults : PlaceFaults String) : UpdateRun String where
  role := none
  config := shelf
  network := publishes "coder" version
  roles := fun _ => { archive := version, now := "noon", faults := faults }

def coder (version : String) : RoleCopy := ⟨"shelf", "coder", version⟩

def deployed : SyncLink := ⟨"rolebox/coder", some ["shelf", "coder@1"]⟩

def deployedStore : RoleStore String :=
  step textHost (step textHost (step textHost .empty (.install (installOf "coder" "1")))
    (.relink [deployed])) (.update (updateOf "2" { download := true }))

theorem deployedStore_placed : deployedStore.placed = [coder "1"] := by decide +kernel

theorem deployedStore_entries : deployedStore.entries = [lockEntry (coder "1") "noon" "1"] := by
  decide +kernel

theorem installed_roles_uninstalled : General.Along (step textHost) (Lawful textHost) .empty
    [.install (installOf "coder" "1"), .relink [deployed],
      .update (updateOf "2" { download := true }), .uninstall { spec := "coder" }] := by
  apply installed_roles
  refine ⟨?_, trivial, ?_, ?_, trivial⟩
  · intro resolved _ _
    exact ⟨nofun, nofun⟩
  · have hentries : (step textHost (step textHost .empty (.install (installOf "coder" "1")))
        (.relink [deployed])).entries = [lockEntry (coder "1") "noon" "1"] := by decide +kernel
    show CarefulUpdate _ _ _
    unfold CarefulUpdate
    rw [hentries]
    exact ⟨fun _ _ hadmitted => (nomatch hadmitted.1), trivial⟩
  · show CarefulUninstall _ deployedStore
    intro entry hentry
    rw [deployedStore_entries] at hentry
    obtain rfl : lockEntry (coder "1") "noon" "1" = entry :=
      mem_singleton.1 (selectInstalled_mem hentry) |>.symm
    refine ⟨nofun, fun _ => ⟨nofun, fun _ => ⟨?_, ?_⟩⟩⟩
    · intro d hd _ _ hne
      rw [deployedStore_placed] at hd
      exact absurd (mem_singleton.1 hd) hne
    · exact fun _ _ _ => ⟨rfl, rfl⟩

/-- A failed lock write or an uninstall loses a copy, and two copies may share one directory. -/
theorem installed_roles_lost :
    (¬ General.Along (step textHost) (Lawful textHost) .empty
      [.install (installOf "coder" "1"), .install { installOf "coder" "2" with
        writeLock := some (some [lockEntry (coder "1") "noon" "1"]) }]) ∧
    (¬ General.Along (step textHost) (Lawful textHost) .empty
      [.install (installOf "coder" "1"), .update (updateOf "2" {}),
        .uninstall { spec := "coder" }]) ∧
    ¬ General.Along (step textHost) (Lawful textHost) .empty
      [.install { installOf "a@b" "c" with spec := "shelf:a@b@c" },
        .install (installOf "a" "b@c")] := by
  refine ⟨?_, ?_, ?_⟩
  · rintro ⟨-, ⟨hrecorded, -, -⟩, -⟩
    obtain ⟨tree, htree, -⟩ := hrecorded (lockEntry (coder "1") "noon" "1") (by decide +kernel)
    revert htree
    have hnone : (step textHost (step textHost .empty (.install (installOf "coder" "1")))
        (.install { installOf "coder" "2" with
          writeLock := some (some [lockEntry (coder "1") "noon" "1"]) })).dirs (coder "1").dir =
        none := by decide +kernel
    rw [show (lockEntry (coder "1") "noon" "1").copy = coder "1" from rfl, hnone]
    exact nofun
  · rintro ⟨-, -, ⟨-, -, hgone⟩, -⟩
    have hleft := (hgone (coder "2") (by decide +kernel) (coder "1") (by decide +kernel) rfl rfl).1
    revert hleft
    decide +kernel
  · rintro ⟨-, ⟨-, hapart, -⟩, -⟩
    have hsame := hapart ⟨"shelf", "a@b", "c"⟩ (by decide +kernel) ⟨"shelf", "a", "b@c"⟩
      (by decide +kernel) (by decide +kernel)
    exact absurd hsame (by decide)
end Rolebox.Cli
