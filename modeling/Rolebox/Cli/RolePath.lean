import Rolebox.General.Cursor
import Rolebox.Hashline.Text

/-! Role specifiers, and the directories of installed copies. -/

namespace Rolebox.Cli
open List

/-- What a command fails with; an error of the file system or the network carries no text here. -/
inductive CliError where
  | unsafeSegment (message : String)
  | registryNotFound (registry : String)
  | noRegistries
  | roleNotFound (roleId : String)
  | integrityMismatch (expected computed : String)
  | notInstalled (roleId : String)
  | severalSources (roleId : String) (registries : List String)
  | lockUnreadable
  | notPlaced
  | host
  deriving DecidableEq

structure RoleSpec where
  roleId : String
  registry : Option String
  version : Option String
  deriving DecidableEq

/-- A specifier is `[registry:]<roleId>[@version]`. -/
def parseRoleSpec (spec : String) : RoleSpec :=
  let chars := spec.toList
  let (registry, remaining) := match chars.idxOf? ':' with
    | some colonIdx => (some (String.ofList (chars.take colonIdx)), chars.drop (colonIdx + 1))
    | none => (none, chars)
  match General.lastIndexOf '@' remaining with
  | some atIdx =>
    ⟨.ofList (remaining.take atIdx), registry, some (.ofList (remaining.drop (atIdx + 1)))⟩
  | none => ⟨.ofList remaining, registry, none⟩

example : parseRoleSpec "my-registry:role@2.0.0" = ⟨"role", some "my-registry", some "2.0.0"⟩ := by
  decide +kernel

/-- An empty part of a specifier counts as absent. -/
def given (part : Option String) : Option String := part.filter (· ≠ "")

def WIN_INVALID_CHARS : List Char := [':', '*', '?', '"', '<', '>', '|']

def WIN_RESERVED_NAMES : List String :=
  ["CON", "PRN", "AUX", "NUL"] ++ (range 9).map (fun i => s!"COM{i + 1}") ++
    (range 9).map fun i => s!"LPT{i + 1}"

def isControl (c : Char) : Bool := c.val ≤ 0x1f ∨ c.val = 0x7f

def hexCode (c : Char) : String :=
  let digits := (Nat.toDigits 16 c.toNat).map Char.toUpper
  String.ofList (if digits.length < 2 then '0' :: digits else digits)

def assertSafePathSegment (value label : String) : Except CliError Unit :=
  let chars := value.toList
  if '/' ∈ chars ∨ '\\' ∈ chars then
    .error (.unsafeSegment
      s!"{label} '{value}' contains a path separator; refusing to use it in a filesystem path")
  else if ['.', '.'] <:+: chars then
    .error (.unsafeSegment
      s!"{label} '{value}' contains '..' (path traversal); refusing to use it in a filesystem path")
  else if chars.head? = some '.' then
    .error (.unsafeSegment
      s!"{label} '{value}' starts with a dot; refusing to use it in a filesystem path")
  else if chars.any (· ∈ WIN_INVALID_CHARS) then
    .error (.unsafeSegment (s!"{label} '{value}' contains a Windows-invalid character " ++
      "(one of : * ? \" < > |); refusing to use it in a filesystem path"))
  else if String.ofList (chars.map Char.toUpper) ∈ WIN_RESERVED_NAMES then
    .error (.unsafeSegment (s!"{label} '{value}' is a Windows reserved device name; " ++
      "refusing to use it in a filesystem path"))
  else if Hashline.trimStart chars = [] then
    .error (.unsafeSegment s!"{label} is empty; refusing to use it in a filesystem path")
  else match chars.find? isControl with
    | some control => .error (.unsafeSegment
        (s!"{label} contains a control character (U+{hexCode control}); " ++
          "refusing to use it in a filesystem path"))
    | none => .ok ()

structure RoleCopy where
  registry : String
  role : String
  version : String
  deriving DecidableEq

structure RoleDir where
  registry : String
  name : String
  deriving DecidableEq

def RoleCopy.dir (c : RoleCopy) : RoleDir := ⟨c.registry, c.role ++ "@" ++ c.version⟩

/-- The path of a role installation: `{rolesDir}/{registry}/{roleId}@{version}`. -/
def getRolePath (c : RoleCopy) : Except CliError RoleDir := do
  assertSafePathSegment c.registry "registry"
  assertSafePathSegment c.role "roleId"
  assertSafePathSegment c.version "version"
  return c.dir

theorem eq_dir_of_getRolePath {c : RoleCopy} {dir : RoleDir} (h : getRolePath c = .ok dir) :
    dir = c.dir := by
  unfold getRolePath at h
  cases hregistry : assertSafePathSegment c.registry "registry" with
  | error e => rw [hregistry] at h; exact nomatch h
  | ok _ =>
    cases hrole : assertSafePathSegment c.role "roleId" with
    | error e => rw [hregistry, hrole] at h; exact nomatch h
    | ok _ =>
      cases hversion : assertSafePathSegment c.version "version" with
      | error e => rw [hregistry, hrole, hversion] at h; exact nomatch h
      | ok _ =>
        rw [hregistry, hrole, hversion] at h
        exact (Except.ok.inj h).symm

/-- The other role id is this one run on at an `@`, which its version takes back. -/
def RoleCopy.RunsOn (c d : RoleCopy) : Prop :=
  c.registry = d.registry ∧ ∃ x, d.role = c.role ++ "@" ++ x ∧ c.version = x ++ "@" ++ d.version

theorem RoleCopy.RunsOn.dir_eq {c d : RoleCopy} (h : c.RunsOn d) : c.dir = d.dir := by
  obtain ⟨hregistry, x, hrole, hversion⟩ := h
  rw [RoleCopy.dir, RoleCopy.dir, hregistry, hrole, hversion]
  simp only [String.append_assoc]

theorem split_at_separator {sep : Char} {as bs cs ds : List Char}
    (h : as ++ sep :: bs = cs ++ sep :: ds) :
    (as = cs ∧ bs = ds) ∨ (∃ x, cs = as ++ sep :: x ∧ bs = x ++ sep :: ds) ∨
      ∃ x, as = cs ++ sep :: x ∧ ds = x ++ sep :: bs := by
  rcases append_eq_append_iff.1 h with ⟨x, hcs, hrest⟩ | ⟨x, has, hrest⟩
  · cases x with
    | nil =>
      rw [append_nil] at hcs
      exact .inl ⟨hcs.symm, (List.cons.inj hrest).2⟩
    | cons c x =>
      obtain ⟨rfl, hbs⟩ := List.cons.inj hrest
      exact .inr (.inl ⟨x, hcs, hbs⟩)
  · cases x with
    | nil =>
      rw [append_nil] at has
      exact .inl ⟨has, (List.cons.inj hrest).2.symm⟩
    | cons c x =>
      obtain ⟨rfl, hds⟩ := List.cons.inj hrest
      exact .inr (.inr ⟨x, has, hds⟩)

theorem toList_asset (role version : String) :
    (role ++ "@" ++ version).toList = role.toList ++ '@' :: version.toList := by
  rw [String.toList_append, String.toList_append, append_assoc]
  rfl

theorem eq_asset_of_toList {text role : String} {x : List Char}
    (h : text.toList = role.toList ++ '@' :: x) : text = role ++ "@" ++ String.ofList x := by
  rw [← String.toList_inj, toList_asset, String.toList_ofList, h]

/-- Two copies share a directory exactly when one's role id runs on into the other's version. -/
theorem RoleCopy.dir_eq_iff {c d : RoleCopy} : c.dir = d.dir ↔ c = d ∨ c.RunsOn d ∨ d.RunsOn c := by
  constructor
  · intro h
    obtain ⟨hregistry, hname⟩ := RoleDir.mk.inj h
    rw [← String.toList_inj, toList_asset, toList_asset] at hname
    rcases split_at_separator hname with ⟨hrole, hversion⟩ | ⟨x, hrole, hversion⟩ |
      ⟨x, hrole, hversion⟩
    · left
      cases c
      cases d
      exact RoleCopy.mk.injEq .. ▸
        ⟨hregistry, String.toList_inj.1 hrole, String.toList_inj.1 hversion⟩
    · refine .inr (.inl ⟨hregistry, .ofList x, eq_asset_of_toList hrole, ?_⟩)
      rw [← String.toList_inj, toList_asset, String.toList_ofList, hversion]
    · refine .inr (.inr ⟨hregistry.symm, .ofList x, eq_asset_of_toList hrole, ?_⟩)
      rw [← String.toList_inj, toList_asset, String.toList_ofList, hversion]
  · rintro (rfl | h | h)
    · rfl
    · exact h.dir_eq
    · exact h.dir_eq.symm
end Rolebox.Cli
