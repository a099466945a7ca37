import Mathlib.Data.List.Find
import Rolebox.Policy.PolicyLoading

/-! Policies are loaded under their own identity while the flat keys tell them apart. -/

namespace Rolebox.Policy
open General JsValue List

section Statement
variable (sha256 : ByteArray → String) (catalog : List RawEntry)
  (authorized : List RawAuthorization)

def OnlyDigest (authorized : List RawAuthorization) (request : CompletionPolicyRequest)
    (digest : JsText) : Prop :=
  (∃ ref ∈ grants authorized, ref.toCompletionPolicyRequest = request ∧ ref.digest = digest) ∧
    ∀ ref ∈ grants authorized, ref.toCompletionPolicyRequest = request → ref.digest = digest

def firstOffer (catalog : List RawEntry) (request : CompletionPolicyRequest) :
    Option CompletionPolicyCatalogEntry :=
  (offers catalog).find? fun entry => entry.toCompletionPolicyRequest = request

def Installable (snapshot : CompletionPolicySnapshot) : Prop :=
  OnlyDigest authorized snapshot.ref.toCompletionPolicyRequest snapshot.ref.digest ∧
    ∃ entry, firstOffer catalog snapshot.ref.toCompletionPolicyRequest = some entry ∧
      entry.body.read = some snapshot.body ∧
        contractDigest sha256 snapshot.body.value = .ok snapshot.ref.digest

/-- Exactly the installable are installed, the rest reported, whatever the order authorized. -/
structure LoadsExactly : Prop where
  total : ∃ result, loadCompletionPolicies sha256 catalog authorized = .ok result
  installs : ∀ result, loadCompletionPolicies sha256 catalog authorized = .ok result →
    ∀ snapshot, snapshot ∈ result.policies ↔ Installable sha256 catalog authorized snapshot
  unordered : ∀ authorized' result result', authorized.Perm authorized' →
    loadCompletionPolicies sha256 catalog authorized = .ok result →
      loadCompletionPolicies sha256 catalog authorized' = .ok result' →
        ∀ snapshot, snapshot ∈ result.policies ↔ snapshot ∈ result'.policies
  refused : ∀ result, loadCompletionPolicies sha256 catalog authorized = .ok result →
    ∀ ref ∈ grants authorized,
      (∀ snapshot ∈ result.policies,
        snapshot.ref.toCompletionPolicyRequest ≠ ref.toCompletionPolicyRequest) →
      ∃ issue ∈ result.issues, issue.identity = some ref.toCompletionPolicyRequest
  unauthorized : ∀ result, loadCompletionPolicies sha256 catalog authorized = .ok result →
    ∀ entry ∈ offers catalog,
      (∀ ref ∈ grants authorized, ref.toCompletionPolicyRequest ≠ entry.toCompletionPolicyRequest) →
      .notAuthorized entry.toCompletionPolicyRequest ∈ result.issues
  duplicates : ∀ entry ∈ offers catalog, ∀ v body, entry.body = .value v →
    declaredBody v = some body →
      (¬ (body.rules.map CompletionPolicyRule.toCompletionPolicyMapping).Nodup →
        readCompletionPolicyBody v = none) ∧
      ((body.rules.map CompletionPolicyRule.toCompletionPolicyMapping).Nodup →
        readCompletionPolicyBody v = some body)

def identities : List CompletionPolicyRequest :=
  (offers catalog).map (fun entry => entry.toCompletionPolicyRequest) ++
    (grants authorized).map fun ref => ref.toCompletionPolicyRequest

/-- No authorized id has a NUL, flat keys are told apart, and bodies to verify have digests. -/
structure Distinguishable : Prop where
  ids : ∀ ref ∈ grants authorized, nul ∉ ref.id
  keys : ∀ p ∈ identities catalog authorized, ∀ q ∈ identities catalog authorized,
    p.key = q.key → p = q
  mappings : ∀ entry ∈ offers catalog, ∀ v body, entry.body = .value v →
    declaredBody v = some body →
      (body.rules.map CompletionPolicyRule.toCompletionPolicyMapping).Nodup → body.Unambiguous
  digests : ∀ request digest entry body, OnlyDigest authorized request digest →
    firstOffer catalog request = some entry → entry.body.read = some body →
      ∃ actual, contractDigest sha256 body.value = .ok actual

end Statement

section Decomposition
variable {sha256 : ByteArray → String} {catalog : List RawEntry}
  {authorized : List RawAuthorization} {result : CompletionPolicyLoadResult}

def indexed (catalog : List RawEntry) : List CompletionPolicyCatalogEntry :=
  (indexCatalog 0 [] [] catalog).1

def grouped (authorized : List RawAuthorization) : List (JsText × List JsText) :=
  (groupAuthorizations 0 [] [] authorized).1

def authorizedKeys (authorized : List RawAuthorization) : List JsText :=
  ((grouped authorized).map Prod.fst).insertionSort (· ≤ ·)

section

variable (catalog : List RawEntry)

theorem indexed_nodup : ((indexed catalog).map CompletionPolicyCatalogEntry.key).Nodup :=
  (indexCatalog_spec 0 [] [] catalog nodup_nil (nofun)).1

theorem indexed_find (key : JsText) :
    (indexed catalog).find? (fun entry => entry.key = key) =
      (offers catalog).find? fun entry => entry.key = key :=
  (indexCatalog_spec 0 [] [] catalog nodup_nil (nofun)).2.1 key

theorem catalog_issues : ∀ i ∈ (indexCatalog 0 [] [] catalog).2, i.identity = none :=
  (indexCatalog_spec 0 [] [] catalog nodup_nil (nofun)).2.2

end

theorem grouped_grants (authorized : List RawAuthorization) :
    Grouped (grouped authorized) (grants authorized) :=
  (groupAuthorizations_spec 0 [] authorized grouped_nil (nofun)).1

theorem authorization_issues (authorized : List RawAuthorization) :
    ∀ i ∈ (groupAuthorizations 0 [] [] authorized).2, i.identity = none :=
  (groupAuthorizations_spec 0 [] authorized grouped_nil (nofun)).2

theorem mem_authorizedKeys {key : JsText} :
    key ∈ authorizedKeys authorized ↔ ∃ ref ∈ grants authorized, ref.key = key := by
  unfold authorizedKeys
  rw [mem_insertionSort]
  exact (grouped_grants authorized).mem_key key

theorem authorizedKeys_nodup (authorized : List RawAuthorization) :
    (authorizedKeys authorized).Nodup :=
  (perm_insertionSort _ _).nodup_iff.2 (grouped_grants authorized).keys

def reported (catalog : List RawEntry) (authorized : List RawAuthorization)
    (issues : List CompletionPolicyLoadIssue) : List CompletionPolicyLoadIssue :=
  (indexCatalog 0 [] [] catalog).2 ++ (groupAuthorizations 0 [] [] authorized).2 ++ issues ++
    ((indexed catalog).filter fun entry =>
      !((grouped authorized).map Prod.fst).contains entry.key).map fun entry =>
        .notAuthorized entry.toCompletionPolicyRequest

theorem load_eq :
    loadCompletionPolicies sha256 catalog authorized = (do
      let selection ← selectPolicies sha256 (indexed catalog) (grouped authorized)
        (authorizedKeys authorized) let policies ← createCompletionPolicyRegistry sha256 selection.1
      return { policies := policies, issues := reported catalog authorized selection.2 }) := rfl

theorem load_ok :
    loadCompletionPolicies sha256 catalog authorized = .ok result ↔
      ∃ snapshots issues,
        selectPolicies sha256 (indexed catalog) (grouped authorized) (authorizedKeys authorized) =
          .ok (snapshots, issues) ∧
        createCompletionPolicyRegistry sha256 snapshots = .ok result.policies ∧
        result.issues = reported catalog authorized issues := by
  rw [load_eq]
  cases hselect : selectPolicies sha256 (indexed catalog) (grouped authorized)
      (authorizedKeys authorized) with
  | error message =>
    constructor
    · intro h
      cases h
    · rintro ⟨snapshots, issues, h, -⟩
      cases h
  | ok selection =>
    obtain ⟨snapshots, issues⟩ := selection
    rw [ok_bind]
    cases hcreate : createCompletionPolicyRegistry sha256 snapshots with
    | error message =>
      constructor
      · intro h
        cases h
      · rintro ⟨snapshots', issues', h, h', -⟩
        cases h
        rw [hcreate] at h'
        cases h'
    | ok policies =>
      constructor
      · intro h
        cases h
        exact ⟨snapshots, issues, rfl, hcreate, rfl⟩
      · rintro ⟨snapshots', issues', h, h', hissues⟩
        cases h
        rw [hcreate] at h'
        cases h'
        rw [← hissues]
        rfl

theorem mem_reported {issues : List CompletionPolicyLoadIssue} {issue : CompletionPolicyLoadIssue}
    {request : CompletionPolicyRequest} (h : issue ∈ reported catalog authorized issues)
    (hidentity : issue.identity = some request) :
    issue ∈ issues ∨ (issue = .notAuthorized request ∧ ∃ entry ∈ indexed catalog,
      entry.toCompletionPolicyRequest = request ∧ request.key ∉ authorizedKeys authorized) := by
  have hnone : ∀ {i : CompletionPolicyLoadIssue}, i.identity = none → i ≠ issue := by
    rintro i hi rfl
    rw [hi] at hidentity
    cases hidentity
  rcases mem_append.1 h with h | h
  · rcases mem_append.1 h with h | h
    · rcases mem_append.1 h with h | h
      · exact absurd rfl (hnone (catalog_issues catalog issue h))
      · exact absurd rfl (hnone (authorization_issues authorized issue h))
    · exact .inl h
  · right
    obtain ⟨entry, hentry, rfl⟩ := mem_map.1 h
    obtain ⟨hmem, hkey⟩ := mem_filter.1 hentry
    cases hidentity
    refine ⟨rfl, entry, hmem, rfl, ?_⟩
    unfold authorizedKeys
    rw [mem_insertionSort]
    intro hold
    have hcontains := contains_iff_mem.2 hold
    have hsame : entry.key = entry.toCompletionPolicyRequest.key := rfl
    rw [hsame, hcontains] at hkey
    cases hkey

theorem notAuthorized_mem {issues : List CompletionPolicyLoadIssue}
    {entry : CompletionPolicyCatalogEntry} (hentry : entry ∈ indexed catalog)
    (hkey : entry.key ∉ authorizedKeys authorized) :
    .notAuthorized entry.toCompletionPolicyRequest ∈ reported catalog authorized issues := by
  refine mem_append_right _ (mem_map.2 ⟨entry, mem_filter.2 ⟨hentry, ?_⟩, rfl⟩)
  unfold authorizedKeys at hkey
  rw [mem_insertionSort] at hkey
  rw [Bool.not_eq_true', ← Bool.not_eq_true, contains_iff_mem]
  exact hkey

end Decomposition

section Identities
variable {sha256 : ByteArray → String} {catalog : List RawEntry}
  {authorized authorized' : List RawAuthorization} {p q request : CompletionPolicyRequest}
  {digest : JsText}

theorem key_inj (hp : nul ∉ p.id) (hq : nul ∉ q.id) (h : p.key = q.key) : p = q := by
  obtain ⟨hid, hrevision⟩ := joinAt_inj hp hq h
  cases p
  cases q
  cases hid
  cases hrevision
  rfl

theorem grants_named {ref : CompletionPolicyRef} (h : ref ∈ grants authorized) :
    isCompletionPolicyRef ref = true := by
  obtain ⟨raw, -, hraw⟩ := mem_filterMap.1 h
  cases raw with
  | record id revision digest =>
    obtain ⟨i, hi, hraw⟩ := Option.bind_eq_some_iff.1 hraw
    obtain ⟨r, hr, hraw⟩ := Option.bind_eq_some_iff.1 hraw
    obtain ⟨d, hd, hraw⟩ := Option.bind_eq_some_iff.1 hraw
    cases hraw
    simp [isCompletionPolicyRef, nonEmptyString_some hi, nonEmptyString_some hr,
      nonEmptyString_some hd]
  | _ => cases hraw

theorem sole_iff (hids : ∀ ref ∈ grants authorized, nul ∉ ref.id) (hid : nul ∉ request.id) :
    Sole (grouped authorized) request.key digest ↔ OnlyDigest authorized request digest := by
  have hgrouped := grouped_grants authorized
  have hsame : ∀ ref ∈ grants authorized,
      ref.key = request.key ↔ ref.toCompletionPolicyRequest = request := by
    intro ref href
    constructor
    · exact fun h => key_inj (hids ref href) hid h
    · rintro rfl
      rfl
  unfold Sole OnlyDigest
  constructor
  · intro hsole
    have hmem := fun d => hgrouped.digests request.key d
    rw [hsole] at hmem
    refine ⟨?_, ?_⟩
    · obtain ⟨ref, href, hkey, hdigest⟩ := (hmem digest).1 (mem_singleton.2 rfl)
      exact ⟨ref, href, (hsame ref href).1 hkey, hdigest⟩
    · intro ref href hrequest
      exact mem_singleton.1 ((hmem ref.digest).2 ⟨ref, href, (hsame ref href).2 hrequest, rfl⟩)
  · rintro ⟨⟨ref, href, hrequest, hdigest⟩, honly⟩
    have hall : ∀ d ∈ ((grouped authorized).lookup request.key).getD [], d = digest := by
      intro d hd
      obtain ⟨other, hother, hkey, rfl⟩ := (hgrouped.digests request.key d).1 hd
      exact honly other hother ((hsame other hother).1 hkey)
    have hmem : digest ∈ ((grouped authorized).lookup request.key).getD [] :=
      (hgrouped.digests request.key digest).2 ⟨ref, href, (hsame ref href).2 hrequest, hdigest⟩
    have hnodup := hgrouped.nodup request.key
    by_contra hne
    rcases (hnodup.ne_singleton_iff digest).1 hne with hnil | ⟨d, hd, hother⟩
    · rw [hnil] at hmem
      cases hmem
    · exact hother (hall d hd)

theorem find?_identity (hkeys : ∀ p ∈ identities catalog authorized,
    ∀ q ∈ identities catalog authorized, p.key = q.key → p = q)
    (hrequest : request ∈ identities catalog authorized) :
    (indexed catalog).find? (fun entry => entry.key = request.key) =
      firstOffer catalog request := by
  rw [indexed_find]
  unfold firstOffer
  apply find?_congr
  intro entry hentry
  have hmem : entry.toCompletionPolicyRequest ∈ identities catalog authorized :=
    mem_append_left _ (mem_map_of_mem hentry)
  rw [decide_eq_decide]
  constructor
  · exact fun h => hkeys _ hmem _ hrequest h
  · exact fun h => congrArg CompletionPolicyRequest.key h

theorem mem_identities_of_grant {ref : CompletionPolicyRef} (h : ref ∈ grants authorized) :
    ref.toCompletionPolicyRequest ∈ identities catalog authorized :=
  mem_append_right _ (mem_map.2 ⟨ref, h, rfl⟩)

theorem indexed_offered {entry : CompletionPolicyCatalogEntry} (h : entry ∈ indexed catalog) :
    entry ∈ offers catalog := by
  have hfind : (indexed catalog).find? (fun other => other.key = entry.key) = some entry := by
    refine find?_key_eq ?_ h
    exact indexed_nodup catalog
  rw [indexed_find] at hfind
  exact mem_of_find?_eq_some hfind

theorem offered_indexed {entry : CompletionPolicyCatalogEntry} (h : entry ∈ offers catalog) :
    ∃ first ∈ indexed catalog, first.key = entry.key := by
  cases hfind : (offers catalog).find? fun other => other.key = entry.key with
  | none => exact absurd (decide_eq_true rfl) (find?_eq_none.1 hfind entry h)
  | some first =>
    have hkey := find?_some hfind
    rw [← indexed_find] at hfind
    exact ⟨first, mem_of_find?_eq_some hfind, of_decide_eq_true hkey⟩

theorem selectPolicy_eq (sha256 : ByteArray → String) (entries : List CompletionPolicyCatalogEntry)
    {groups : List (JsText × List JsText)} (hid : nul ∉ request.id)
    (hsole : Sole groups request.key digest) :
    selectPolicy sha256 entries groups request.key =
      match entries.find? fun entry => entry.key = request.key with
      | none => .ok (some (.error (.catalogMissing { request with digest := digest })))
      | some entry =>
        (readCatalogPolicy sha256 entry { request with digest := digest }).map some := by
  have hsplit : splitIdentity request.key = some (request.id, request.revision) :=
    cutAt_joinAt hid request.revision
  unfold selectPolicy
  unfold Sole at hsole
  simp only [hsplit, hsole]
  rfl

end Identities

section Necessary
variable {sha256 : ByteArray → String} {catalog : List RawEntry}
  {authorized : List RawAuthorization} {p q : CompletionPolicyRequest}

section

variable (h : LoadsExactly sha256 catalog authorized)
include h

theorem LoadsExactly.ids : ∀ ref ∈ grants authorized, nul ∉ ref.id := by
  intro ref href hnul
  obtain ⟨result, hresult⟩ := h.total
  obtain ⟨snapshots, issues, hselect, hcreate, hissues⟩ := load_ok.1 hresult
  obtain ⟨-, -, hsnapshots, hselected⟩ := selectPolicies_ok hselect
  have hrefs := installPolicies_refs hcreate
  have hnot : ∀ snapshot ∈ result.policies,
      snapshot.ref.toCompletionPolicyRequest ≠ ref.toCompletionPolicyRequest := by
    intro snapshot hsnapshot hsame
    have hmem : snapshot.ref ∈ result.policies.map CompletionPolicySnapshot.ref :=
      mem_map_of_mem hsnapshot
    rw [hrefs, map_nil, nil_append] at hmem
    obtain ⟨selected, hmem, heq⟩ := mem_map.1 hmem
    obtain ⟨key, -, hok⟩ := (hsnapshots selected).1 hmem
    have hid := (selectPolicy_ok hok).1
    rw [heq, hsame] at hid
    exact hid hnul
  obtain ⟨issue, hissue, hidentity⟩ := h.refused result hresult ref href hnot
  rw [hissues] at hissue
  rcases mem_reported hissue hidentity with hissue | ⟨-, entry, -, -, hkey⟩
  · obtain ⟨key, -, hok⟩ := (hselected issue).1 hissue
    obtain ⟨request, hrequest, hid, -⟩ := selectPolicy_issue hok
    cases hidentity.symm.trans hrequest
    exact hid hnul
  · exact hkey (mem_authorizedKeys.2 ⟨ref, href, rfl⟩)

theorem LoadsExactly.indexed
    {entry : CompletionPolicyCatalogEntry} (hentry : entry ∈ offers catalog)
    (hnot : ∀ ref ∈ grants authorized,
      ref.toCompletionPolicyRequest ≠ entry.toCompletionPolicyRequest) :
    ∃ first ∈ indexed catalog,
      first.toCompletionPolicyRequest = entry.toCompletionPolicyRequest ∧
        entry.key ∉ authorizedKeys authorized := by
  obtain ⟨result, hresult⟩ := h.total
  obtain ⟨snapshots, issues, hselect, -, hissues⟩ := load_ok.1 hresult
  obtain ⟨-, -, -, hselected⟩ := selectPolicies_ok hselect
  have hissue := h.unauthorized result hresult entry hentry hnot
  rw [hissues] at hissue
  rcases mem_reported hissue rfl with hissue | ⟨-, first, hfirst, hsame, hkey⟩
  · obtain ⟨key, -, hok⟩ := (hselected _).1 hissue
    obtain ⟨-, -, -, -, hkind⟩ := selectPolicy_issue hok
    exact absurd rfl (hkind _)
  · exact ⟨first, hfirst, hsame, hkey⟩

theorem LoadsExactly.keys :
    ∀ p ∈ identities catalog authorized, ∀ q ∈ identities catalog authorized,
      p.key = q.key → p = q := by
  have hcases : ∀ p ∈ identities catalog authorized,
      (∃ ref ∈ grants authorized, ref.toCompletionPolicyRequest = p) ∨
        ∃ first ∈ Policy.indexed catalog, first.toCompletionPolicyRequest = p ∧
          p.key ∉ authorizedKeys authorized := by
    intro p hp
    by_cases hgrant : ∃ ref ∈ grants authorized, ref.toCompletionPolicyRequest = p
    · exact .inl hgrant
    right
    rcases mem_append.1 hp with hp | hp
    · obtain ⟨entry, hentry, rfl⟩ := mem_map.1 hp
      apply h.indexed hentry
      intro ref href hsame
      exact hgrant ⟨ref, href, hsame⟩
    · obtain ⟨ref, href, rfl⟩ := mem_map.1 hp
      exact absurd ⟨ref, href, rfl⟩ hgrant
  intro p hp q hq hsame
  rcases hcases p hp with ⟨ref, href, rfl⟩ | ⟨first, hfirst, rfl, hkey⟩
  · rcases hcases q hq with ⟨ref', href', rfl⟩ | ⟨first', -, rfl, hkey'⟩
    · exact key_inj (h.ids ref href) (h.ids ref' href') hsame
    · exact absurd (mem_authorizedKeys.2 ⟨ref, href, hsame⟩) hkey'
  · rcases hcases q hq with ⟨ref', href', rfl⟩ | ⟨first', hfirst', rfl, -⟩
    · exact absurd (mem_authorizedKeys.2 ⟨ref', href', hsame.symm⟩) hkey
    · have heq : first = first' :=
        inj_on_of_nodup_map (indexed_nodup catalog) hfirst hfirst' hsame
      rw [heq]

theorem LoadsExactly.distinguishable : Distinguishable sha256 catalog authorized := by
  refine ⟨h.ids, h.keys, ?_, ?_⟩
  · intro entry hentry v body hbody hdeclared hmappings
    have hread := (h.duplicates entry hentry v body hbody hdeclared).2 hmappings
    exact (readCompletionPolicyBody_some.1 hread).2
  · intro request digest entry body honly hfirst hread
    obtain ⟨⟨ref, href, hrequest, -⟩, -⟩ := id honly
    have hid : nul ∉ request.id := hrequest ▸ h.ids ref href
    obtain ⟨result, hresult⟩ := h.total
    obtain ⟨snapshots, issues, hselect, -, -⟩ := load_ok.1 hresult
    have hkey : request.key ∈ authorizedKeys authorized :=
      mem_authorizedKeys.2 ⟨ref, href, congrArg CompletionPolicyRequest.key hrequest⟩
    obtain ⟨selected, hselected⟩ := (selectPolicies_ok hselect).1 request.key hkey
    have hmem : request ∈ identities catalog authorized := hrequest ▸ mem_identities_of_grant href
    rw [selectPolicy_eq sha256 _ hid ((sole_iff h.ids hid).2 honly), find?_identity h.keys hmem,
      hfirst] at hselected
    obtain ⟨v, hbody, hread⟩ := RawBody.read_some hread
    cases hdigest : contractDigest sha256 body.value with
    | ok actual => exact ⟨actual, rfl⟩
    | error message =>
      simp only [readCatalogPolicy, hbody, hread, hdigest] at hselected
      cases hselected

end

end Necessary

section Sufficient
variable {sha256 : ByteArray → String} {catalog : List RawEntry}
  {authorized authorized' : List RawAuthorization} {key : JsText}
  {snapshot : CompletionPolicySnapshot}
variable {ref : CompletionPolicyRef}

theorem identity_of_key (h : Distinguishable sha256 catalog authorized)
    {request : CompletionPolicyRequest} (hid : nul ∉ request.id) (href : ref ∈ grants authorized)
    (hkey : ref.key = request.key) : ref.toCompletionPolicyRequest = request :=
  key_inj (h.ids ref href) hid hkey

theorem readCatalogPolicy_total {entry : CompletionPolicyCatalogEntry} (ref : CompletionPolicyRef)
    (h : ∀ body, entry.body.read = some body →
      ∃ actual, contractDigest sha256 body.value = .ok actual) :
    ∃ outcome, readCatalogPolicy sha256 entry ref = .ok outcome := by
  unfold readCatalogPolicy
  cases hbody : entry.body with
  | raises message => exact ⟨_, rfl⟩
  | value v =>
    simp only
    cases hread : readCompletionPolicyBody v with
    | none => exact ⟨_, rfl⟩
    | some body =>
      obtain ⟨actual, hactual⟩ := h body (by rw [hbody]; exact hread)
      simp only [hactual]
      split <;> exact ⟨_, rfl⟩

section

variable (h : Distinguishable sha256 catalog authorized)
include h

theorem Distinguishable.selected (href : ref ∈ grants authorized) :
    ∃ outcome, selectPolicy sha256 (indexed catalog) (grouped authorized) ref.key =
      .ok (some outcome) := by
  have hid := h.ids ref href
  cases hdigests : ((grouped authorized).lookup ref.key).getD [] with
  | nil =>
    have hmem := ((grouped_grants authorized).digests ref.key ref.digest).2 ⟨ref, href, rfl, rfl⟩
    rw [hdigests] at hmem
    cases hmem
  | cons digest digests =>
    by_cases hmany : digests = []
    · have hsole : Sole (grouped authorized) ref.key digest := by
        rw [Sole, hdigests, hmany]
      have honly := (sole_iff h.ids hid).1 hsole
      have hselect := selectPolicy_eq sha256 (indexed catalog) hid hsole
      have hfind := find?_identity h.keys (mem_identities_of_grant href)
      cases hfirst : firstOffer catalog ref.toCompletionPolicyRequest with
      | none =>
        rw [hfind, hfirst] at hselect
        exact ⟨_, hselect⟩
      | some entry =>
        rw [hfind, hfirst] at hselect
        obtain ⟨outcome, houtcome⟩ := readCatalogPolicy_total
          { ref.toCompletionPolicyRequest with digest := digest }
          (h.digests ref.toCompletionPolicyRequest digest entry · honly hfirst)
        simp only [houtcome] at hselect
        exact ⟨outcome, hselect⟩
    · have hsplit : splitIdentity ref.key = some (ref.id, ref.revision) :=
        cutAt_joinAt hid ref.revision
      have hlength : 2 ≤ ((digest :: digests).insertionSort (· ≤ ·)).length := by
        rw [length_insertionSort, length_cons]
        have hpos := length_pos_of_ne_nil hmany
        omega
      unfold selectPolicy
      simp only [hsplit, hdigests]
      generalize (digest :: digests).insertionSort (· ≤ ·) = sorted at hlength
      match sorted, hlength with
      | first :: second :: rest, _ => exact ⟨_, rfl⟩

theorem Distinguishable.total_selection :
    ∃ snapshots issues,
      selectPolicies sha256 (indexed catalog) (grouped authorized) (authorizedKeys authorized) =
        .ok (snapshots, issues) := by
  have hall : ∀ key ∈ authorizedKeys authorized, ∃ selected,
      selectPolicy sha256 (indexed catalog) (grouped authorized) key = .ok selected := by
    intro key hkey
    obtain ⟨ref, href, rfl⟩ := mem_authorizedKeys.1 hkey
    obtain ⟨outcome, houtcome⟩ := h.selected href
    exact ⟨_, houtcome⟩
  obtain ⟨⟨snapshots, issues⟩, hselect⟩ := selectPolicies_total hall
  exact ⟨snapshots, issues, hselect⟩

theorem Distinguishable.selected_iff :
    (∃ key ∈ authorizedKeys authorized,
      selectPolicy sha256 (indexed catalog) (grouped authorized) key = .ok (some (.ok snapshot))) ↔
        Installable sha256 catalog authorized snapshot := by
  constructor
  · rintro ⟨key, hkey, hselect⟩
    obtain ⟨hid, rfl, hsole, entry, hentry, hread, hdigest⟩ := selectPolicy_ok hselect
    obtain ⟨ref, href, hsame⟩ := mem_authorizedKeys.1 hkey
    have hrequest := identity_of_key h hid href hsame
    have hmem : snapshot.ref.toCompletionPolicyRequest ∈ identities catalog authorized :=
      hrequest ▸ mem_identities_of_grant href
    have hfirst := find?_identity h.keys hmem
    exact ⟨(sole_iff h.ids hid).1 hsole, entry, hfirst.symm.trans hentry, hread, hdigest⟩
  · rintro ⟨honly, entry, hfirst, hread, hdigest⟩
    obtain ⟨⟨ref, href, hrequest, -⟩, -⟩ := id honly
    have hid : nul ∉ snapshot.ref.id := by
      have hnul := h.ids ref href
      rwa [hrequest] at hnul
    refine ⟨snapshot.ref.key, mem_authorizedKeys.2 ⟨ref, href, ?_⟩, ?_⟩
    · exact congrArg CompletionPolicyRequest.key hrequest
    have hmem : snapshot.ref.toCompletionPolicyRequest ∈ identities catalog authorized :=
      hrequest ▸ mem_identities_of_grant href
    have hselect := selectPolicy_eq sha256 (indexed catalog) hid
      ((sole_iff h.ids hid).2 honly)
    rw [find?_identity h.keys hmem, hfirst] at hselect
    have hverified : readCatalogPolicy sha256 entry snapshot.ref = .ok (.ok snapshot) := by
      obtain ⟨v, hbody, hread⟩ := RawBody.read_some hread
      simp only [readCatalogPolicy, hbody, hread, hdigest, if_true]
    exact hselect.trans (congrArg (Except.map some) hverified)

theorem Distinguishable.created
    {snapshots : List CompletionPolicySnapshot} {issues : List CompletionPolicyLoadIssue}
    (hselect : selectPolicies sha256 (indexed catalog) (grouped authorized)
      (authorizedKeys authorized) = .ok (snapshots, issues)) :
    createCompletionPolicyRegistry sha256 snapshots = .ok snapshots := by
  obtain ⟨-, hsub, hsnapshots, -⟩ := selectPolicies_ok hselect
  have hall : ∀ s ∈ snapshots, Installable sha256 catalog authorized s :=
    fun s hs => h.selected_iff.1 ((hsnapshots s).1 hs)
  refine installPolicies_ok ?_ ?_ ?_ ?_ (fun s _ => not_mem_nil)
  · intro s hs
    obtain ⟨⟨⟨ref, href, hrequest, hdigest⟩, -⟩, -⟩ := hall s hs
    have hnamed := grants_named href
    unfold isCompletionPolicyRef at hnamed ⊢
    rwa [← hrequest, ← hdigest]
  · intro s hs
    obtain ⟨-, entry, -, hread, -⟩ := hall s hs
    obtain ⟨v, -, hread⟩ := RawBody.read_some hread
    exact readCompletionPolicyBody_value hread
  · intro s hs
    obtain ⟨-, entry, -, -, hdigest⟩ := hall s hs
    exact hdigest
  · have hnodup := hsub.nodup (authorizedKeys_nodup authorized)
    have hkeys : (snapshots.map fun s => s.ref.key) =
        (snapshots.map fun s => s.ref.toCompletionPolicyRequest).map
          CompletionPolicyRequest.key := by
      rw [map_map]
      rfl
    rw [hkeys] at hnodup
    exact Nodup.of_map _ hnodup

end

variable {result : CompletionPolicyLoadResult}

theorem Distinguishable.installs (h : Distinguishable sha256 catalog authorized)
    (hresult : loadCompletionPolicies sha256 catalog authorized = .ok result) :
    snapshot ∈ result.policies ↔ Installable sha256 catalog authorized snapshot := by
  obtain ⟨snapshots, issues, hselect, hcreate, -⟩ := load_ok.1 hresult
  rw [h.created hselect] at hcreate
  cases hcreate
  rw [(selectPolicies_ok hselect).2.2.1]
  exact h.selected_iff

section

variable (h : authorized.Perm authorized')
include h

theorem grants_perm : ref ∈ grants authorized ↔ ref ∈ grants authorized' :=
  (h.filterMap RawAuthorization.ref).mem_iff

theorem onlyDigest_perm {request : CompletionPolicyRequest} {digest : JsText} :
    OnlyDigest authorized request digest ↔ OnlyDigest authorized' request digest := by
  unfold OnlyDigest
  simp only [grants_perm h]

theorem identities_perm {p : CompletionPolicyRequest} :
    p ∈ identities catalog authorized ↔ p ∈ identities catalog authorized' := by
  unfold identities
  simp only [mem_append, mem_map, grants_perm h]

end

section

variable (h : Distinguishable sha256 catalog authorized)
include h

theorem Distinguishable.perm
    (hperm : authorized.Perm authorized') : Distinguishable sha256 catalog authorized' := by
  refine ⟨?_, ?_, h.mappings, ?_⟩
  · exact fun ref href => h.ids ref ((grants_perm hperm).2 href)
  · exact fun p hp q hq => h.keys p ((identities_perm hperm).2 hp) q ((identities_perm hperm).2 hq)
  · exact fun request digest entry body honly =>
      h.digests request digest entry body ((onlyDigest_perm hperm).2 honly)

section

variable (hresult : loadCompletionPolicies sha256 catalog authorized = .ok result)
include hresult

theorem Distinguishable.refused
    (href : ref ∈ grants authorized) (hnot : ∀ snapshot ∈ result.policies,
      snapshot.ref.toCompletionPolicyRequest ≠ ref.toCompletionPolicyRequest) :
    ∃ issue ∈ result.issues, issue.identity = some ref.toCompletionPolicyRequest := by
  obtain ⟨snapshots, issues, hselect, hcreate, hissues⟩ := load_ok.1 hresult
  rw [h.created hselect] at hcreate
  cases hcreate
  obtain ⟨-, -, hsnapshots, hselected⟩ := selectPolicies_ok hselect
  have hkey : ref.key ∈ authorizedKeys authorized := mem_authorizedKeys.2 ⟨ref, href, rfl⟩
  obtain ⟨outcome, houtcome⟩ := h.selected href
  cases outcome with
  | ok s =>
    obtain ⟨hid, hsame, -⟩ := selectPolicy_ok houtcome
    have hrequest := identity_of_key h hid href hsame.symm
    exact absurd hrequest.symm (hnot s ((hsnapshots s).2 ⟨ref.key, hkey, houtcome⟩))
  | error issue =>
    obtain ⟨request, hidentity, hid, hsame, -⟩ := selectPolicy_issue houtcome
    have hrequest := identity_of_key h hid href hsame.symm
    refine ⟨issue, ?_, hrequest ▸ hidentity⟩
    rw [hissues]
    exact mem_append_left _
      (mem_append_right _ ((hselected issue).2 ⟨ref.key, hkey, houtcome⟩))

theorem Distinguishable.unauthorized
    {entry : CompletionPolicyCatalogEntry} (hentry : entry ∈ offers catalog)
    (hnot : ∀ ref ∈ grants authorized,
      ref.toCompletionPolicyRequest ≠ entry.toCompletionPolicyRequest) :
    .notAuthorized entry.toCompletionPolicyRequest ∈ result.issues := by
  obtain ⟨snapshots, issues, -, -, hissues⟩ := load_ok.1 hresult
  obtain ⟨first, hfirst, hkey⟩ := offered_indexed hentry
  have hmem : ∀ e ∈ offers catalog, e.toCompletionPolicyRequest ∈ identities catalog authorized :=
    fun e he => mem_append_left _ (mem_map_of_mem he)
  have hsame : first.toCompletionPolicyRequest = entry.toCompletionPolicyRequest :=
    h.keys _ (hmem first (indexed_offered hfirst)) _ (hmem entry hentry) hkey
  rw [hissues, ← hsame]
  apply notAuthorized_mem hfirst
  intro hauthorized
  obtain ⟨ref, href, hrefkey⟩ := mem_authorizedKeys.1 hauthorized
  have hrequest := h.keys _ (mem_identities_of_grant href) _ (hmem entry hentry)
    (hrefkey.trans hkey)
  exact hnot ref href hrequest

end

theorem Distinguishable.loadsExactly : LoadsExactly sha256 catalog authorized := by
  refine ⟨?_, ?_, ?_, ?_, ?_, ?_⟩
  · obtain ⟨snapshots, issues, hselect⟩ := h.total_selection
    exact ⟨{ policies := snapshots, issues := reported catalog authorized issues },
      load_ok.2 ⟨snapshots, issues, hselect, h.created hselect, rfl⟩⟩
  · exact fun result hresult snapshot => h.installs hresult
  · intro authorized' result result' hperm hresult hresult' snapshot
    rw [h.installs hresult, (h.perm hperm).installs hresult']
    unfold Installable
    rw [onlyDigest_perm hperm]
  · exact fun result hresult ref href hnot => h.refused hresult href hnot
  · exact fun result hresult entry hentry hnot => h.unauthorized hresult hentry hnot
  intro entry hentry v body hbody hdeclared
  constructor
  · intro htwice
    cases hread : readCompletionPolicyBody v with
    | none => rfl
    | some read =>
      obtain ⟨hdeclared', hkeys⟩ := readCompletionPolicyBody_some.1 hread
      cases hdeclared.symm.trans hdeclared'
      have hmapped : body.rules.map CompletionPolicyRule.key =
          (body.rules.map CompletionPolicyRule.toCompletionPolicyMapping).map mappingKey := by
        rw [map_map]
        rfl
      unfold CompletionPolicyBody.Unambiguous at hkeys
      rw [hmapped] at hkeys
      exact absurd (Nodup.of_map _ hkeys) htwice
  · intro honce
    exact readCompletionPolicyBody_some.2
      ⟨hdeclared, h.mappings entry hentry v body hbody hdeclared honce⟩

end

/-- Loading is exact while flat keys tell identities and mappings apart and bodies have digests. -/
theorem loadsExactly_iff (sha256 : ByteArray → String) (catalog : List RawEntry)
    (authorized : List RawAuthorization) :
    LoadsExactly sha256 catalog authorized ↔ Distinguishable sha256 catalog authorized :=
  ⟨LoadsExactly.distinguishable, Distinguishable.loadsExactly⟩

end Sufficient

def sampleBody : CompletionPolicyBody where
  fallback := .ungranted
  rules :=
    [{ graphId := text "build", nodeId := text "review", outcome := text "done",
       decision := .allow }]

def sampleId : JsText := nul :: text "policy"

def sampleCatalog : List RawEntry :=
  [.record (.str sampleId) (.str (text "1")) (.ok (.value sampleBody.value))]

def sampleAuthorized : List RawAuthorization :=
  [.record (.str sampleId) (.str (text "1")) (.str (text "digest"))]

/-- The id is cut at its own NUL, so its policy is treated under an empty id. -/
theorem not_loadsExactly : ¬ LoadsExactly (fun _ => "digest") sampleCatalog sampleAuthorized := by
  intro h
  have hgrant : { id := sampleId, revision := text "1", digest := text "digest" } ∈
      grants sampleAuthorized := by
    decide +kernel
  exact h.ids _ hgrant (.head _)

end Rolebox.Policy
