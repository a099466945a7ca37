import Rolebox.Policy.PolicyBodies

/-! Loading completion policies: what is offered, authorized, installed and reported. -/

namespace Rolebox.Policy
open General JsValue List Option

def RawEntry.offered : RawEntry → Option CompletionPolicyCatalogEntry
  | .record id revision (.ok body) =>
    (RawEntry.record id revision (.ok body)).identity.map fun identity =>
      { identity with body := body }
  | _ => none

def offers (catalog : List RawEntry) : List CompletionPolicyCatalogEntry :=
  catalog.filterMap RawEntry.offered

def grants (authorized : List RawAuthorization) : List CompletionPolicyRef :=
  authorized.filterMap RawAuthorization.ref

def CompletionPolicyCatalogEntry.key (entry : CompletionPolicyCatalogEntry) : JsText :=
  entry.toCompletionPolicyRequest.key

def CompletionPolicyRef.key (ref : CompletionPolicyRef) : JsText :=
  ref.toCompletionPolicyRequest.key

def CompletionPolicyLoadIssue.identity : CompletionPolicyLoadIssue → Option CompletionPolicyRequest
  | .malformedCatalogEntry .. => none
  | .malformedAuthorization .. => none
  | .conflictingAuthorization identity _ => some identity
  | .notAuthorized identity => some identity
  | .catalogMissing ref => some ref.toCompletionPolicyRequest
  | .malformedPolicy ref _ => some ref.toCompletionPolicyRequest
  | .digestMismatch ref _ => some ref.toCompletionPolicyRequest

section Catalog
variable {index : Nat} {order : List CompletionPolicyCatalogEntry}
  {issues : List CompletionPolicyLoadIssue} {catalog : List RawEntry}

/-- The entry a catalog value adds to the index: the one it offers, unless its key is there. -/
def fresh (order : List CompletionPolicyCatalogEntry) (raw : RawEntry) :
    List CompletionPolicyCatalogEntry :=
  raw.offered.toList.filter fun entry => entry.key ∉ order.map CompletionPolicyCatalogEntry.key

theorem offered_record {id revision : JsValue} {body : RawBody} {identity : CompletionPolicyRequest}
    (h : (RawEntry.record id revision (.ok body)).identity = some identity) :
    (RawEntry.record id revision (.ok body)).offered = some { identity with body := body } := by
  show ((RawEntry.record id revision (.ok body)).identity.map _) = _
  rw [h, map_some]

theorem indexCatalog_cons (raw : RawEntry) :
    ∃ issue : List CompletionPolicyLoadIssue, (∀ i ∈ issue, i.identity = none) ∧
      indexCatalog index order issues (raw :: catalog) =
        indexCatalog (index + 1) (order ++ fresh order raw) (issues ++ issue) catalog := by
  have hskip : ∀ message, fresh order raw = [] →
      indexCatalog index order issues (raw :: catalog) =
        indexCatalog (index + 1) order (issues ++ [.malformedCatalogEntry index message]) catalog →
      ∃ issue : List CompletionPolicyLoadIssue, (∀ i ∈ issue, i.identity = none) ∧
        indexCatalog index order issues (raw :: catalog) =
          indexCatalog (index + 1) (order ++ fresh order raw) (issues ++ issue) catalog := by
    intro message hnone hstep
    refine ⟨[.malformedCatalogEntry index message], ?_, ?_⟩
    · intro i hi
      cases mem_singleton.1 hi
      rfl
    · rw [hnone, append_nil, hstep]
  cases raw with
  | notRecord => exact hskip _ rfl rfl
  | raises message => exact hskip _ rfl rfl
  | record id revision body =>
    cases hidentity : (RawEntry.record id revision body).identity with
    | none =>
      apply hskip
      · cases body with
        | error message => rfl
        | ok body =>
          show ((RawEntry.record id revision (.ok body)).identity.map _).toList.filter _ = []
          rw [hidentity, map_none]
          rfl
      · simp only [indexCatalog, hidentity]
        rfl
    | some identity =>
      by_cases hseen : identity.key ∈ order.map fun entry => entry.toCompletionPolicyRequest.key
      · apply hskip
        · cases body with
          | error message => rfl
          | ok body =>
            unfold fresh
            rw [offered_record hidentity, toList_some, filter_eq_nil_iff]
            intro entry hentry
            cases mem_singleton.1 hentry
            rw [decide_eq_true_eq, not_not]
            exact hseen
        · simp only [indexCatalog, hidentity, if_pos hseen]
          rfl
      · cases body with
        | error message =>
          apply hskip
          · rfl
          · simp only [indexCatalog, hidentity, if_neg hseen]
            rfl
        | ok body =>
          refine ⟨[], ?_, ?_⟩
          · intro i hi
            cases hi
          · have hnew : fresh order (.record id revision (.ok body)) =
                [{ identity with body := body }] := by
              unfold fresh
              rw [offered_record hidentity, toList_some, List.filter_eq_self]
              intro entry hentry
              cases mem_singleton.1 hentry
              exact decide_eq_true hseen
            rw [hnew, append_nil]
            simp only [indexCatalog, hidentity, if_neg hseen]

theorem fresh_nodup (horder : (order.map CompletionPolicyCatalogEntry.key).Nodup) (raw : RawEntry) :
    ((order ++ fresh order raw).map CompletionPolicyCatalogEntry.key).Nodup := by
  unfold fresh
  cases raw.offered with
  | none => simpa using horder
  | some entry =>
    rw [toList_some, filter_cons]
    split
    · next hnew =>
      rw [decide_eq_true_eq] at hnew
      rw [map_append, filter_nil]
      exact nodup_append_comm.1 (nodup_cons.2 ⟨hnew, horder⟩)
    · simpa using horder

theorem find?_fresh (raw : RawEntry) (rest : List CompletionPolicyCatalogEntry) (key : JsText) :
    (order ++ fresh order raw ++ rest).find? (fun entry => entry.key = key) =
      (order ++ raw.offered.toList ++ rest).find? fun entry => entry.key = key := by
  unfold fresh
  cases raw.offered with
  | none => rfl
  | some entry =>
    rw [toList_some, filter_cons, filter_nil]
    split
    · rfl
    next hold =>
    rw [decide_eq_true_eq, not_not] at hold
    rw [append_nil, append_assoc, find?_append, find?_append]
    cases hfind : order.find? fun entry => entry.key = key with
    | some found => rfl
    | none =>
      have hne : entry.key ≠ key := by
        rintro rfl
        obtain ⟨other, hother, hkey⟩ := List.mem_map.1 hold
        have hnot := find?_eq_none.1 hfind other hother
        exact hnot (decide_eq_true hkey)
      rw [none_or, none_or, singleton_append, find?_cons_of_neg]
      simpa using hne

theorem indexCatalog_spec (index : Nat) (order : List CompletionPolicyCatalogEntry)
    (issues : List CompletionPolicyLoadIssue) (catalog : List RawEntry)
    (horder : (order.map CompletionPolicyCatalogEntry.key).Nodup)
    (hissues : ∀ i ∈ issues, i.identity = none) :
    ((indexCatalog index order issues catalog).1.map CompletionPolicyCatalogEntry.key).Nodup ∧
      (∀ key, (indexCatalog index order issues catalog).1.find? (fun entry => entry.key = key) =
        (order ++ offers catalog).find? fun entry => entry.key = key) ∧
      ∀ i ∈ (indexCatalog index order issues catalog).2, i.identity = none := by
  induction catalog generalizing index order issues with
  | nil =>
    refine ⟨horder, ?_, hissues⟩
    intro key
    rw [indexCatalog, offers, filterMap_nil, append_nil]
  | cons raw catalog ih =>
    obtain ⟨issue, hissue, hstep⟩ := @indexCatalog_cons index order issues catalog raw
    have hall : ∀ i ∈ issues ++ issue, i.identity = none := by
      intro i hi
      rcases mem_append.1 hi with hi | hi
      · exact hissues i hi
      · exact hissue i hi
    have hoffers : offers (raw :: catalog) = raw.offered.toList ++ offers catalog := by
      cases hoffered : raw.offered with
      | none => rw [offers, filterMap_cons_none hoffered]; rfl
      | some entry => rw [offers, filterMap_cons_some hoffered]; rfl
    obtain ⟨hnodup, hfind, hnone⟩ := ih (index + 1) (order ++ fresh order raw) (issues ++ issue)
      (fresh_nodup horder raw) hall
    rw [hstep]
    refine ⟨hnodup, ?_, hnone⟩
    intro key
    rw [hfind key, find?_fresh, hoffers, append_assoc]

end Catalog

section Authorizations
variable {groups : List (JsText × List JsText)} {refs : List CompletionPolicyRef}

theorem lookup_key {β : Type*} (l : List (JsText × β)) (key : JsText) :
    l.lookup key = @List.lookup JsText β instBEqOfDecidableEq key l := by
  congr 1
  exact lawful_beq_subsingleton _ _

structure Grouped (groups : List (JsText × List JsText)) (refs : List CompletionPolicyRef) :
    Prop where
  keys : (groups.map Prod.fst).Nodup
  mem_key : ∀ key, key ∈ groups.map Prod.fst ↔ ∃ ref ∈ refs, ref.key = key
  digests : ∀ key digest, digest ∈ (groups.lookup key).getD [] ↔
    ∃ ref ∈ refs, ref.key = key ∧ ref.digest = digest
  nodup : ∀ key, ((groups.lookup key).getD []).Nodup

theorem grouped_nil : Grouped [] [] := by
  refine ⟨nodup_nil, ?_, ?_, fun _ => nodup_nil⟩
  · simp
  · simp

theorem Grouped.add (h : Grouped groups refs) (ref : CompletionPolicyRef) :
    Grouped
      (assign ref.key
        (if ref.digest ∈ (groups.lookup ref.key).getD [] then (groups.lookup ref.key).getD []
          else (groups.lookup ref.key).getD [] ++ [ref.digest]) groups) (refs ++ [ref]) := by
  have hmem : ∀ {P : CompletionPolicyRef → Prop},
      (∃ r ∈ refs ++ [ref], P r) ↔ (∃ r ∈ refs, P r) ∨ P ref := by
    intro P
    simp [or_and_right, exists_or]
  refine ⟨assign_keys_nodup h.keys, ?_, ?_, ?_⟩
  · intro key
    rw [mem_assign_keys, h.mem_key, hmem, or_comm]
    exact or_congr_right eq_comm
  · intro key digest
    rw [hmem]
    by_cases hkey : key = ref.key
    · subst hkey
      rw [lookup_key, lookup_assign_self, getD_some]
      split
      · next hold =>
        rw [h.digests]
        constructor
        · exact .inl
        · rintro (hex | ⟨-, rfl⟩)
          · exact hex
          · exact (h.digests _ _).1 hold
      · rw [mem_append, h.digests, mem_singleton]
        refine or_congr_right ?_
        simp [eq_comm]
    · rw [lookup_key, lookup_assign_ne _ _ hkey, ← lookup_key, h.digests]
      constructor
      · exact .inl
      · rintro (hex | ⟨hsame, -⟩)
        · exact hex
        · exact absurd hsame.symm hkey
  · intro key
    by_cases hkey : key = ref.key
    · subst hkey
      rw [lookup_key, lookup_assign_self, getD_some]
      split
      · exact h.nodup _
      · next hnew => exact nodup_append_comm.1 (nodup_cons.2 ⟨hnew, h.nodup _⟩)
    · rw [lookup_key, lookup_assign_ne _ _ hkey, ← lookup_key]
      exact h.nodup key

theorem groupAuthorizations_spec (index : Nat) (issues : List CompletionPolicyLoadIssue)
    (authorized : List RawAuthorization) (h : Grouped groups refs)
    (hissues : ∀ i ∈ issues, i.identity = none) :
    Grouped (groupAuthorizations index groups issues authorized).1 (refs ++ grants authorized) ∧
      ∀ i ∈ (groupAuthorizations index groups issues authorized).2, i.identity = none := by
  have hnext : ∀ (issues : List CompletionPolicyLoadIssue) (index : Nat) (message : JsText),
      (∀ i ∈ issues, i.identity = none) →
        ∀ i ∈ issues ++ [CompletionPolicyLoadIssue.malformedAuthorization index message],
          i.identity = none := by
    intro issues index message hissues i hi
    rcases mem_append.1 hi with hi | hi
    · exact hissues i hi
    · cases mem_singleton.1 hi
      rfl
  induction authorized generalizing index groups refs issues with
  | nil =>
    refine ⟨?_, hissues⟩
    rw [groupAuthorizations, grants, filterMap_nil, append_nil]
    exact h
  | cons raw authorized ih =>
    cases hraw : raw.ref with
    | none =>
      have hgrants : grants (raw :: authorized) = grants authorized := filterMap_cons_none hraw
      rw [hgrants]
      cases raw with
      | raises message => exact ih _ _ h (hnext _ _ _ hissues)
      | notRecord => exact ih _ _ h (hnext _ _ _ hissues)
      | record id revision digest =>
        simp only [groupAuthorizations, hraw]
        exact ih _ _ h (hnext _ _ _ hissues)
    | some ref =>
      have hgrants : grants (raw :: authorized) = ref :: grants authorized :=
        filterMap_cons_some hraw
      rw [hgrants]
      cases raw with
      | raises message => cases hraw
      | notRecord => cases hraw
      | record id revision digest =>
        simp only [groupAuthorizations, hraw]
        have hadd := ih (index + 1) issues (h.add ref) hissues
        rwa [append_assoc, singleton_append] at hadd

end Authorizations

section Selection
variable {sha256 : ByteArray → String} {catalog : List CompletionPolicyCatalogEntry}
  {groups : List (JsText × List JsText)} {key : JsText} {snapshot : CompletionPolicySnapshot}
  {issue : CompletionPolicyLoadIssue}

def RawBody.read : RawBody → Option CompletionPolicyBody
  | .value v => readCompletionPolicyBody v
  | .raises _ => none

theorem RawBody.read_some {raw : RawBody} {body : CompletionPolicyBody}
    (h : raw.read = some body) : ∃ v, raw = .value v ∧ readCompletionPolicyBody v = some body := by
  cases raw with
  | value v => exact ⟨v, rfl, h⟩
  | raises message => cases h

def Sole (groups : List (JsText × List JsText)) (key digest : JsText) : Prop :=
  (groups.lookup key).getD [] = [digest]

theorem insertionSort_eq_singleton {l : List JsText} {digest : JsText} :
    l.insertionSort (· ≤ ·) = [digest] ↔ l = [digest] := by
  constructor
  · intro h
    have hperm := perm_insertionSort (· ≤ ·) l
    rw [h] at hperm
    exact perm_singleton.1 hperm.symm
  · rintro rfl
    rfl

theorem readCatalogPolicy_ok {entry : CompletionPolicyCatalogEntry} {ref : CompletionPolicyRef}
    (h : readCatalogPolicy sha256 entry ref = .ok (.ok snapshot)) :
    snapshot.ref = ref ∧ entry.body.read = some snapshot.body ∧
      contractDigest sha256 snapshot.body.value = .ok ref.digest := by
  unfold readCatalogPolicy at h
  split at h
  · cases h
  next v hv =>
  split at h
  · cases h
  next body hbody =>
  split at h
  · cases h
  next actual hactual =>
  split at h
  · next hsame =>
    cases h
    rw [hv]
    exact ⟨rfl, hbody, hsame ▸ hactual⟩
  · cases h

theorem readCatalogPolicy_issue {entry : CompletionPolicyCatalogEntry} {ref : CompletionPolicyRef}
    (h : readCatalogPolicy sha256 entry ref = .ok (.error issue)) :
    issue.identity = some ref.toCompletionPolicyRequest ∧
      ∀ request, issue ≠ .notAuthorized request := by
  unfold readCatalogPolicy at h
  split at h
  · cases h
    exact ⟨rfl, nofun⟩
  · split at h
    · cases h
      exact ⟨rfl, nofun⟩
    · split at h
      · cases h
      split at h
      · cases h
      · cases h
        exact ⟨rfl, nofun⟩

theorem selectPolicy_ok (h : selectPolicy sha256 catalog groups key = .ok (some (.ok snapshot))) :
    nul ∉ snapshot.ref.id ∧ snapshot.ref.key = key ∧ Sole groups key snapshot.ref.digest ∧
      ∃ entry, catalog.find? (fun entry => entry.key = key) = some entry ∧
        entry.body.read = some snapshot.body ∧
          contractDigest sha256 snapshot.body.value = .ok snapshot.ref.digest := by
  unfold selectPolicy at h
  simp only at h
  split at h
  · cases h
  next id revision hsplit =>
  obtain ⟨hkey, hid⟩ := cutAt_some hsplit
  split at h
  · cases h
  · next digest hdigests =>
    split at h
    · cases h
    next entry hentry =>
    cases hread : readCatalogPolicy sha256 entry
        { id := id, revision := revision, digest := digest } with
    | error message =>
      rw [hread] at h
      cases h
    | ok selected =>
      rw [hread] at h
      cases h
      obtain ⟨href, hbody, hdigest⟩ := readCatalogPolicy_ok hread
      rw [href]
      exact ⟨hid, hkey.symm, insertionSort_eq_singleton.1 hdigests, entry, hentry, hbody, hdigest⟩
  · cases h

theorem selectPolicy_issue
    (h : selectPolicy sha256 catalog groups key = .ok (some (.error issue))) :
    ∃ request, issue.identity = some request ∧ nul ∉ request.id ∧ request.key = key ∧
      ∀ request, issue ≠ .notAuthorized request := by
  unfold selectPolicy at h
  simp only at h
  split at h
  · cases h
  next id revision hsplit =>
  obtain ⟨hkey, hid⟩ := cutAt_some hsplit
  split at h
  · cases h
  · next digest hdigests =>
    split at h
    · cases h
      exact ⟨_, rfl, hid, hkey.symm, nofun⟩
    · next entry hentry =>
      cases hread : readCatalogPolicy sha256 entry
          { id := id, revision := revision, digest := digest } with
      | error message =>
        rw [hread] at h
        cases h
      | ok selected =>
        rw [hread] at h
        cases h
        obtain ⟨hidentity, hkind⟩ := readCatalogPolicy_issue hread
        exact ⟨_, hidentity, hid, hkey.symm, hkind⟩
  · cases h
    exact ⟨_, rfl, hid, hkey.symm, nofun⟩

theorem selectPolicies_ok {keys : List JsText} {snapshots : List CompletionPolicySnapshot}
    {issues : List CompletionPolicyLoadIssue}
    (h : selectPolicies sha256 catalog groups keys = .ok (snapshots, issues)) :
    (∀ key ∈ keys, ∃ selected, selectPolicy sha256 catalog groups key = .ok selected) ∧
      (snapshots.map fun snapshot => snapshot.ref.key).Sublist keys ∧
      (∀ snapshot, snapshot ∈ snapshots ↔
        ∃ key ∈ keys, selectPolicy sha256 catalog groups key = .ok (some (.ok snapshot))) ∧
      ∀ issue, issue ∈ issues ↔
        ∃ key ∈ keys, selectPolicy sha256 catalog groups key = .ok (some (.error issue)) := by
  induction keys generalizing snapshots issues with
  | nil =>
    cases h
    simp
  | cons key keys ih =>
    unfold selectPolicies at h
    cases hselect : selectPolicy sha256 catalog groups key with
    | error message =>
      rw [hselect] at h
      cases h
    | ok selected =>
      rw [hselect] at h
      cases hrest : selectPolicies sha256 catalog groups keys with
      | error message =>
        rw [hrest] at h
        cases h
      | ok rest =>
        obtain ⟨restSnapshots, restIssues⟩ := rest
        rw [hrest] at h
        obtain ⟨htotal, hsub, hsnapshots, hissues⟩ := ih hrest
        have hall : ∀ k ∈ key :: keys, ∃ selected,
            selectPolicy sha256 catalog groups k = .ok selected := by
          intro k hk
          rcases mem_cons.1 hk with rfl | hk
          · exact ⟨selected, hselect⟩
          · exact htotal k hk
        refine ⟨hall, ?_⟩
        cases selected with
        | none =>
          cases h
          refine ⟨hsub.cons _, ?_, ?_⟩
          · intro snapshot
            simp [hsnapshots, hselect]
          · intro issue
            simp [hissues, hselect]
        | some outcome =>
          cases outcome with
          | error issue =>
            cases h
            refine ⟨hsub.cons _, ?_, ?_⟩
            · intro snapshot
              simp [hsnapshots, hselect]
            · intro other
              simp [hissues, hselect, eq_comm]
          | ok snapshot =>
            cases h
            have hkey := (selectPolicy_ok hselect).2.1
            refine ⟨?_, ?_, ?_⟩
            · rw [map_cons, hkey]
              exact hsub.cons_cons key
            · intro other
              simp [hsnapshots, hselect, eq_comm]
            · intro issue
              simp [hissues, hselect]

theorem selectPolicies_total {keys : List JsText}
    (h : ∀ key ∈ keys, ∃ selected, selectPolicy sha256 catalog groups key = .ok selected) :
    ∃ selection, selectPolicies sha256 catalog groups keys = .ok selection := by
  induction keys with
  | nil => exact ⟨_, rfl⟩
  | cons key keys ih =>
    obtain ⟨selected, hselect⟩ := h key (.head _)
    obtain ⟨⟨snapshots, issues⟩, hrest⟩ := ih fun k hk => h k (.tail _ hk)
    unfold selectPolicies
    rw [hselect, hrest]
    cases selected with
    | none => exact ⟨_, rfl⟩
    | some outcome => cases outcome <;> exact ⟨_, rfl⟩

end Selection

section Installation
variable {sha256 : ByteArray → String}

theorem installPolicies_refs {seen : List CompletionPolicyRequest}
    {installed snapshots policies : List CompletionPolicySnapshot}
    (h : installPolicies sha256 seen installed snapshots = .ok policies) :
    policies.map CompletionPolicySnapshot.ref =
      installed.map CompletionPolicySnapshot.ref ++ snapshots.map CompletionPolicySnapshot.ref := by
  induction snapshots generalizing seen installed with
  | nil =>
    cases h
    rw [map_nil, append_nil]
  | cons snapshot snapshots ih =>
    unfold installPolicies at h
    simp only at h
    split at h
    · split at h
      · cases h
      split at h
      · cases h
      split at h
      · cases h
      split at h
      · rw [ih h, map_append, append_assoc]
        rfl
      · cases h
    · cases h

theorem installPolicies_ok {seen : List CompletionPolicyRequest}
    {installed snapshots : List CompletionPolicySnapshot}
    (hrefs : ∀ s ∈ snapshots, isCompletionPolicyRef s.ref = true)
    (hbodies : ∀ s ∈ snapshots, readCompletionPolicyBody s.body.value = some s.body)
    (hdigests : ∀ s ∈ snapshots, contractDigest sha256 s.body.value = .ok s.ref.digest)
    (hdistinct : (snapshots.map fun s => s.ref.toCompletionPolicyRequest).Nodup)
    (hseen : ∀ s ∈ snapshots, s.ref.toCompletionPolicyRequest ∉ seen) :
    installPolicies sha256 seen installed snapshots = .ok (installed ++ snapshots) := by
  induction snapshots generalizing seen installed with
  | nil => rw [installPolicies, append_nil]
  | cons s snapshots ih =>
    have hs := mem_cons_self (a := s) (l := snapshots)
    obtain ⟨hnew, hrest⟩ := nodup_cons.1 hdistinct
    unfold installPolicies
    simp only [hrefs s hs, if_true, if_neg (hseen s hs), hbodies s hs, hdigests s hs]
    rw [ih (fun r hr => hrefs r (.tail _ hr))
      (fun r hr => hbodies r (.tail _ hr))
      (fun r hr => hdigests r (.tail _ hr)) hrest ?_]
    · rw [append_assoc, singleton_append]
    intro r hr hmem
    rcases mem_cons.1 hmem with hsame | hmem
    · exact hnew (List.mem_map.2 ⟨r, hr, hsame⟩)
    · exact hseen r (.tail _ hr) hmem

end Installation

end Rolebox.Policy
