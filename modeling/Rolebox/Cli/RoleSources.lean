import Mathlib.Data.Rat.Defs
import Rolebox.Cli.RolePath

/-! Role sources: which exist, in what order they are consulted, and which version one publishes. -/

namespace Rolebox.Cli

structure RegistryEntry where
  name : String
  default : Bool := false

def BUILTIN_REGISTRY_NAME : String := "oh-my-role"

def BUILTIN_REGISTRY : RegistryEntry := ⟨BUILTIN_REGISTRY_NAME, true⟩

structure RoleboxConfig where
  registries : List RegistryEntry

def effectiveRegistries (config : RoleboxConfig) : List RegistryEntry :=
  match config.registries with
  | [] => []
  | registries =>
    let isBuiltin := fun r : RegistryEntry => r.name = BUILTIN_REGISTRY_NAME
    let builtinEntry := (registries.find? isBuiltin).getD BUILTIN_REGISTRY
    let customEntries := registries.eraseP isBuiltin
    { builtinEntry with default := !customEntries.any (·.default) } :: customEntries

def defaultRegistry (config : RoleboxConfig) : Option RegistryEntry :=
  let registries := effectiveRegistries config
  (registries.find? (·.default)).or registries.head?

def findRegistry (config : RoleboxConfig) (name : String) : Option RegistryEntry :=
  (effectiveRegistries config).find? fun r => r.name = name

def lookupOrder (config : RoleboxConfig) : List RegistryEntry :=
  match defaultRegistry config with
  | none => effectiveRegistries config
  | some preferred =>
    preferred :: (effectiveRegistries config).filter fun r => r.name ≠ preferred.name

structure RegistryManifestRole where
  version : String
  integrity : Option String

structure RegistryManifest where
  roles : List (String × RegistryManifestRole)

/-- What the sources answer while a command runs: a manifest, or that it cannot be fetched. -/
abbrev Network := RegistryEntry → Option RegistryManifest

def resolveRoleSource (roleId : String) (network : Network) :
    List RegistryEntry → Option (RegistryEntry × RegistryManifestRole)
  | [] => none
  | registry :: rest =>
    match (network registry).bind fun manifest => manifest.roles.lookup roleId with
    | some role => some (registry, role)
    | none => resolveRoleSource roleId network rest

/-- What an installation is of: the copy, and the manifest entry it is installed by. -/
structure Resolved where
  copy : RoleCopy
  role : RegistryManifestRole

/-- The source and the version a specifier stands for. -/
def resolveInstall (config : RoleboxConfig) (network : Network) (spec : String) :
    Except CliError Resolved :=
  let parsed := parseRoleSpec spec
  let found := fun (source : RegistryEntry) (role : RegistryManifestRole) =>
    Except.ok (⟨⟨source.name, parsed.roleId, (given parsed.version).getD role.version⟩, role⟩ :
      Resolved)
  match given parsed.registry with
  | some name =>
    match findRegistry config name with
    | none => .error (.registryNotFound name)
    | some source =>
      match network source with
      | none => .error .host
      | some manifest =>
        match manifest.roles.lookup parsed.roleId with
        | none => .error (.roleNotFound parsed.roleId)
        | some role => found source role
  | none =>
    if effectiveRegistries config = [] then .error .noRegistries
    else match resolveRoleSource parsed.roleId network (lookupOrder config) with
      | none => .error (.roleNotFound parsed.roleId)
      | some (source, role) => found source role

inductive Num where
  | nan
  | finite (value : Rat)
  | infinity
  | negInfinity

namespace Num

def orZero : Num → Num
  | .nan => .finite 0
  | n => n

def diffSign : Num → Num → Option Ordering
  | .nan, _ | _, .nan => none
  | .infinity, .infinity | .negInfinity, .negInfinity => none
  | .infinity, _ | _, .negInfinity => some .gt
  | .negInfinity, _ | _, .infinity => some .lt
  | .finite a, .finite b => some (if a < b then .lt else if a = b then .eq else .gt)

end Num

/-- The sign of the first of three components that differ; `none` when it is not a number. -/
def compareVersions (number : String → Num) (a b : String) : Option Ordering :=
  let part := fun (version : String) (i : Nat) =>
    match (version.toList.splitOn '.')[i]? with
    | some text => (number (String.ofList text)).orZero
    | none => Num.finite 0
  match (List.range 3).find? fun i => (part a i).diffSign (part b i) ≠ some .eq with
  | some i => (part a i).diffSign (part b i)
  | none => some .eq

/-- `compareVersions(latest, installed) <= 0`. -/
def upToDate (number : String → Num) (latest installed : String) : Bool :=
  match compareVersions number latest installed with
  | some .gt | none => false
  | some .lt | some .eq => true
end Rolebox.Cli
