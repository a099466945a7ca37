import Rolebox.Cli.RoleSources

/-! The installed copies, the lock file and the sync links, and the commands over them. -/

namespace Rolebox.Cli

structure LockEntry where
  role : String
  registry : String
  version : String
  installedAt : String
  integrity : String
  deriving DecidableEq

def LockEntry.copy (e : LockEntry) : RoleCopy := ⟨e.registry, e.role, e.version⟩

def LockEntry.source (e : LockEntry) : String × String := (e.role, e.registry)

abbrev LockFile := Option (List LockEntry)

def findInLock (roleId registry : String) (roles : List LockEntry) : Option LockEntry :=
  roles.find? fun r => r.source = (roleId, registry)

def findAllInLock (roleId : String) (roles : List LockEntry) : List LockEntry :=
  roles.filter fun r => r.role = roleId

def entriesOf (spec : String) (roles : List LockEntry) : List LockEntry :=
  let parsed := parseRoleSpec spec
  match given parsed.registry with
  | some registry => (findInLock parsed.roleId registry roles).toList
  | none => findAllInLock parsed.roleId roles

def withEntry (entry : LockEntry) : List LockEntry → List LockEntry
  | [] => [entry]
  | r :: rest => if r.source = entry.source then entry :: rest else r :: withEntry entry rest

def withoutEntry (roleId registry : String) (roles : List LockEntry) : List LockEntry :=
  roles.filter fun r => r.source ≠ (roleId, registry)

section Store
variable {Tree : Type}

structure SyncLink where
  path : String
  destination : Option (List String)
  deriving DecidableEq

structure RoleStore (Tree : Type) where
  dirs : RoleDir → Option Tree
  lock : LockFile
  links : List SyncLink
  /-- The copies a command has taken a directory for, since the store was empty. -/
  placed : List RoleCopy

def RoleStore.empty : RoleStore Tree := ⟨fun _ => none, some [], [], []⟩

def RoleStore.entries (w : RoleStore Tree) : List LockEntry := w.lock.getD []

def RoleStore.setDir (w : RoleStore Tree) (dir : RoleDir) (tree : Option Tree) : RoleStore Tree :=
  { w with dirs := Function.update w.dirs dir tree }

/-- What the commands take from outside: digests, contents of trees, numbers in texts. -/
structure Host (Tree : Type) where
  computeIntegrity : Tree → String
  contains : Tree → List String → Bool
  number : String → Num

def rmSync (fault : Option (Option Tree)) (dir : RoleDir) (w : RoleStore Tree) :
    Except CliError Unit × RoleStore Tree :=
  match fault with
  | none => (.ok (), w.setDir dir none)
  | some left => (.error .host, w.setDir dir left)

def removeIfPresent (fault : Option (Option Tree)) (dir : RoleDir) (w : RoleStore Tree) :
    Except CliError Unit × RoleStore Tree :=
  if (w.dirs dir).isSome then rmSync fault dir w else (.ok (), w)

def saveLock (fault : Option LockFile) (roles : List LockEntry) (w : RoleStore Tree) :
    Except CliError Unit × RoleStore Tree :=
  match fault with
  | none => (.ok (), { w with lock := some roles })
  | some left => (.error .host, { w with lock := left })

def updateLock (fault : Option LockFile) (change : List LockEntry → List LockEntry)
    (w : RoleStore Tree) : Except CliError Unit × RoleStore Tree :=
  match w.lock with
  | none => (.error .lockUnreadable, w)
  | some roles => saveLock fault (change roles) w

def addToLock (fault : Option LockFile) (entry : LockEntry) :
    RoleStore Tree → Except CliError Unit × RoleStore Tree := updateLock fault (withEntry entry)

def removeFromLock (fault : Option LockFile) (roleId registry : String) :
    RoleStore Tree → Except CliError Unit × RoleStore Tree :=
  updateLock fault (withoutEntry roleId registry)

end Store

section Placement
variable {Tree : Type}

/-- Which of the steps that place a copy fail, and what the last two of them leave at the target. -/
structure PlaceFaults (Tree : Type) where
  download : Bool := false
  integrity : Bool := false
  directory : Bool := false
  staging : Bool := false
  clearing : Option (Option Tree) := none
  moving : Option (Option Tree) := none

def swapIn (f : PlaceFaults Tree) (targetDir : RoleDir) (extracted : Tree) (w : RoleStore Tree) :
    Except CliError Unit × RoleStore Tree :=
  if f.staging then (.error .notPlaced, w)
  else match removeIfPresent f.clearing targetDir w with
    | (.error _, w) => (.error .notPlaced, w)
    | (.ok _, w) =>
      match f.moving with
      | some left => (.error .notPlaced, w.setDir targetDir left)
      | none => (.ok (), w.setDir targetDir (some extracted))

def placeVersion (host : Host Tree) (resolved : Resolved) (archive : Tree) (f : PlaceFaults Tree)
    (w : RoleStore Tree) : Except CliError String × RoleStore Tree :=
  let integrity := host.computeIntegrity archive
  let expectedIntegrity := given resolved.role.integrity
  if f.download ∨ f.integrity then (.error .host, w)
  else if expectedIntegrity.any (· ≠ integrity) then
    (.error (.integrityMismatch (expectedIntegrity.getD "") integrity), w)
  else match getRolePath resolved.copy with
    | .error e => (.error e, w)
    | .ok targetDir =>
      let w := { w with placed := resolved.copy :: w.placed }
      if f.directory then (.error .host, w)
      else match swapIn f targetDir archive w with
        | (.error e, w) => (.error e, w)
        | (.ok _, w) => (.ok integrity, w)

end Placement

section Install
variable {Tree : Type}

/-- An installation: what it is asked for, what the world answers, and where it fails. -/
structure InstallRun (Tree : Type) where
  spec : String
  config : RoleboxConfig
  network : Network
  archive : Tree
  now : String
  faults : PlaceFaults Tree := {}
  removeOld : Option (Option Tree) := none
  writeLock : Option LockFile := none

def removeOldVersion (fault : Option (Option Tree)) (existing : Option LockEntry)
    (targetDir : RoleDir) (w : RoleStore Tree) : Except CliError Unit × RoleStore Tree :=
  match existing with
  | none => (.ok (), w)
  | some old =>
    match getRolePath old.copy with
    | .error e => (.error e, w)
    | .ok oldPath =>
      if oldPath ≠ targetDir then removeIfPresent fault oldPath w else (.ok (), w)

def lockEntry (copy : RoleCopy) (now integrity : String) : LockEntry :=
  ⟨copy.role, copy.registry, copy.version, now, integrity⟩

def install (host : Host Tree) (run : InstallRun Tree) (w : RoleStore Tree) :
    Except CliError Unit × RoleStore Tree :=
  match resolveInstall run.config run.network run.spec with
  | .error e => (.error e, w)
  | .ok resolved =>
    match w.lock with
    | none => (.error .lockUnreadable, w)
    | some roles =>
      let existing := findInLock resolved.copy.role resolved.copy.registry roles
      if existing.map LockEntry.version = some resolved.copy.version then (.ok (), w)
      else match placeVersion host resolved run.archive run.faults w with
        | (.error e, w) => (.error e, w)
        | (.ok integrity, w) =>
          match removeOldVersion run.removeOld existing resolved.copy.dir w with
          | (.error e, w) => (.error e, w)
          | (.ok _, w) => addToLock run.writeLock (lockEntry resolved.copy run.now integrity) w

end Install

section Update
variable {Tree : Type}

structure RoleUpdate (Tree : Type) where
  archive : Tree
  now : String
  faults : PlaceFaults Tree := {}
  writeLock : Option LockFile := none

structure UpdateRun (Tree : Type) where
  role : Option String
  config : RoleboxConfig
  network : Network
  roles : LockEntry → RoleUpdate Tree

def newerVersion (host : Host Tree) (run : UpdateRun Tree) (entry : LockEntry) : Option Resolved :=
  match (effectiveRegistries run.config).reverse.find? fun r => r.name = entry.registry with
  | none => none
  | some source =>
    match (run.network source).bind fun manifest => manifest.roles.lookup entry.role with
    | none => none
    | some role =>
      if upToDate host.number role.version entry.version then none
      else some ⟨⟨entry.registry, entry.role, role.version⟩, role⟩

def updateRole (host : Host Tree) (run : UpdateRun Tree) (entry : LockEntry)
    (w : RoleStore Tree) : Bool × RoleStore Tree :=
  match newerVersion host run entry with
  | none => (false, w)
  | some resolved =>
    let world := run.roles entry
    match placeVersion host resolved world.archive world.faults w with
    | (.error _, w) => (false, w)
    | (.ok integrity, w) =>
      match addToLock world.writeLock (lockEntry resolved.copy world.now integrity) w with
      | (.error _, w) => (false, w)
      | (.ok _, w) => (true, w)

def rolesToUpdate (role : Option String) (roles : List LockEntry) : List LockEntry :=
  match given role with
  | none => roles
  | some spec => entriesOf spec roles

def updateRoles (host : Host Tree) (run : UpdateRun Tree) :
    List LockEntry → RoleStore Tree → List LockEntry × RoleStore Tree
  | [], w => ([], w)
  | entry :: rest, w =>
    match updateRole host run entry w with
    | (false, w) => updateRoles host run rest w
    | (true, w) =>
      let (updated, w) := updateRoles host run rest w
      (entry :: updated, w)

def update (host : Host Tree) (run : UpdateRun Tree) (w : RoleStore Tree) :
    Except CliError (List LockEntry) × RoleStore Tree :=
  match w.lock with
  | none => (.error .lockUnreadable, w)
  | some roles =>
    let (updated, w) := updateRoles host run (rolesToUpdate run.role roles) w
    (.ok updated, w)

end Update

section Uninstall
variable {Tree : Type}

def RoleDir.segments (dir : RoleDir) : List String := [dir.registry, dir.name]

def isSameOrInside (candidate parent : List String) : Bool := parent.isPrefixOf candidate

/-- Where a path below the roles directory leads, if anything is there. -/
def realpath (host : Host Tree) (w : RoleStore Tree) (path : List String) : Option (List String) :=
  match path with
  | registry :: name :: inner =>
    if (w.dirs ⟨registry, name⟩).any fun tree => inner = [] ∨ host.contains tree inner then some path
    else none
  | _ => some path

/-- The link leads into the copy at a path or, when it leads nowhere, stores a target there. -/
def linkPointsAtRole (host : Host Tree) (w : RoleStore Tree) (link : SyncLink)
    (rolePath : RoleDir) : Bool :=
  match link.destination with
  | none => false
  | some stored =>
    match realpath host w stored with
    | some linkReal =>
      match realpath host w rolePath.segments with
      | none => false
      | some roleReal => isSameOrInside linkReal roleReal
    | none => isSameOrInside stored rolePath.segments

structure UninstallRun (Tree : Type) where
  spec : String
  /-- The links that cannot be read while the links are collected. -/
  unreadable : SyncLink → Bool := fun _ => false
  /-- The links that cannot be removed. -/
  stuck : SyncLink → Bool := fun _ => false
  removal : Option (Option Tree) := none
  writeLock : Option LockFile := none

def collectRoleLinks (host : Host Tree) (run : UninstallRun Tree) (w : RoleStore Tree)
    (rolePath : RoleDir) : List SyncLink :=
  w.links.filter fun link => ¬ run.unreadable link ∧ linkPointsAtRole host w link rolePath

def selectInstalled (spec : String) (roles : List LockEntry) : Except CliError LockEntry :=
  match entriesOf spec roles with
  | [] => .error (.notInstalled (parseRoleSpec spec).roleId)
  | [entry] => .ok entry
  | entries => .error (.severalSources (parseRoleSpec spec).roleId (entries.map (·.registry)))

def unlinkAll (stuck : SyncLink → Bool) (links : List SyncLink) (w : RoleStore Tree) :
    RoleStore Tree :=
  { w with links := w.links.filter fun link => ¬ (link ∈ links ∧ ¬ stuck link) }

/-- Remove an installed copy, its links and its entry; what was uninstalled is returned. -/
def uninstall (host : Host Tree) (run : UninstallRun Tree) (w : RoleStore Tree) :
    Except CliError RoleCopy × RoleStore Tree :=
  match w.lock with
  | none => (.error .lockUnreadable, w)
  | some roles =>
    match selectInstalled run.spec roles with
    | .error e => (.error e, w)
    | .ok entry =>
      match getRolePath entry.copy with
      | .error e => (.error e, w)
      | .ok rolePath =>
        let links := collectRoleLinks host run w rolePath
        match removeIfPresent run.removal rolePath w with
        | (.error e, w) => (.error e, w)
        | (.ok _, w) =>
          match removeFromLock run.writeLock entry.role entry.registry
              (unlinkAll run.stuck links w) with
          | (.error e, w) => (.error e, w)
          | (.ok _, w) => (.ok entry.copy, w)

end Uninstall

section Commands
variable {Tree : Type}

inductive Command (Tree : Type) where
  | install (run : InstallRun Tree)
  | update (run : UpdateRun Tree)
  | uninstall (run : UninstallRun Tree)
  | relink (links : List SyncLink)

def step (host : Host Tree) (w : RoleStore Tree) : Command Tree → RoleStore Tree
  | .install run => (install host run w).2
  | .update run => (update host run w).2
  | .uninstall run => (uninstall host run w).2
  | .relink links => { w with links := links }

end Commands
end Rolebox.Cli
