import Mathlib
import Rolebox.Graph.CanonicalText

/-! The canonical form of a proposal and the digest it is known by. -/

namespace Rolebox.Graph.Canonical
open General JsValue List

/-- What a worker submits: `data` is undefined where it is not given. -/
structure OutcomeProposal where
  nodeId : JsText
  outcomeId : JsText
  credential : Option JsText
  data : JsValue
  evidenceRefs : Option (List JsText)
  keyed : data.Keyed

structure NormalizedOutcomeProposal where
  nodeId : JsText
  outcomeId : JsText
  credential : Option JsText
  data : JsValue
  evidenceRefs : List JsText
  keyed : data.Keyed

def isUndefined : JsValue → Bool
  | .other .undefined => true
  | _ => false

def sortRefs (refs : List JsText) : List JsText := (distinct refs).insertionSort (· ≤ ·)

def normalizeProposal (proposal : OutcomeProposal) : NormalizedOutcomeProposal :=
  { nodeId := proposal.nodeId
    outcomeId := proposal.outcomeId
    credential := proposal.credential
    data := proposal.data
    evidenceRefs :=
      match proposal.evidenceRefs with
      | none => []
      | some refs => sortRefs refs
    keyed := proposal.keyed }

def fieldKey (name : String) : JsText := JsText.ofText name.toList

/-- The object the canonical form is: no key for an absent credential or payload. -/
def NormalizedOutcomeProposal.fields (proposal : NormalizedOutcomeProposal) :
    List (JsText × JsValue) :=
  [(fieldKey "nodeId", .str proposal.nodeId), (fieldKey "outcomeId", .str proposal.outcomeId)] ++
    (proposal.credential.toList.map fun credential => (fieldKey "credential", .str credential)) ++
    (if isUndefined proposal.data then [] else [(fieldKey "data", proposal.data)]) ++
    [(fieldKey "evidenceRefs", .arr (proposal.evidenceRefs.map .str))]

def proposalDigest (sha256 : ByteArray → String) (proposal : OutcomeProposal) :
    Except String String :=
  contractDigest sha256 (.obj (normalizeProposal proposal).fields)

section Equality

/-- The references a proposal names, whatever their order and however often. -/
def OutcomeProposal.refs (proposal : OutcomeProposal) : List JsText :=
  proposal.evidenceRefs.getD []

/-- Equal up to the key order of the payload and the order and repetition of the references. -/
structure SameProposal (p q : OutcomeProposal) : Prop where
  nodeId : p.nodeId = q.nodeId
  outcomeId : p.outcomeId = q.outcomeId
  credential : p.credential = q.credential
  data : p.data.Same q.data
  refs : ∀ ref, ref ∈ p.refs ↔ ref ∈ q.refs

theorem sortRefs_eq_iff {refs refs' : List JsText} :
    sortRefs refs = sortRefs refs' ↔ ∀ ref, ref ∈ refs ↔ ref ∈ refs' := by
  constructor
  · intro h ref
    have hmem : ref ∈ sortRefs refs ↔ ref ∈ sortRefs refs' := by rw [h]
    rwa [sortRefs, sortRefs, mem_insertionSort, mem_insertionSort, mem_distinct,
      mem_distinct] at hmem
  · intro h
    have hperm : (distinct refs).Perm (distinct refs') := by
      rw [perm_ext_iff_of_nodup (nodup_distinct _) (nodup_distinct _)]
      simpa using h
    exact insertionSort_eq_of_perm hperm fun a _ b _ hab hba => le_antisymm hab hba

theorem normalized_refs (p : OutcomeProposal) :
    (normalizeProposal p).evidenceRefs = sortRefs p.refs := by
  unfold normalizeProposal OutcomeProposal.refs
  cases p.evidenceRefs <;> rfl

theorem fieldKeys_nodup :
    [fieldKey "nodeId", fieldKey "outcomeId", fieldKey "credential", fieldKey "data",
      fieldKey "evidenceRefs"].Nodup := by
  decide +kernel

variable {p q : NormalizedOutcomeProposal}

theorem mem_fields {key : JsText} {value : JsValue} :
    (key, value) ∈ p.fields ↔
      (key = fieldKey "nodeId" ∧ value = .str p.nodeId) ∨
        (key = fieldKey "outcomeId" ∧ value = .str p.outcomeId) ∨
        (key = fieldKey "credential" ∧ ∃ credential, p.credential = some credential ∧
          value = .str credential) ∨
        (key = fieldKey "data" ∧ isUndefined p.data = false ∧ value = p.data) ∨
        (key = fieldKey "evidenceRefs" ∧ value = .arr (p.evidenceRefs.map .str)) := by
  unfold NormalizedOutcomeProposal.fields
  cases p.credential <;> cases isUndefined p.data <;> simp

theorem field_values {value : JsValue} :
    ((fieldKey "nodeId", value) ∈ p.fields ↔ value = .str p.nodeId) ∧
      ((fieldKey "outcomeId", value) ∈ p.fields ↔ value = .str p.outcomeId) ∧
      ((fieldKey "credential", value) ∈ p.fields ↔
        ∃ credential, p.credential = some credential ∧ value = .str credential) ∧
      ((fieldKey "data", value) ∈ p.fields ↔ isUndefined p.data = false ∧ value = p.data) ∧
      ((fieldKey "evidenceRefs", value) ∈ p.fields ↔ value = .arr (p.evidenceRefs.map .str)) := by
  have hkeys := fieldKeys_nodup
  simp only [nodup_cons, mem_cons, not_mem_nil, or_false, not_or] at hkeys
  obtain ⟨⟨h₁, h₂, h₃, h₄⟩, ⟨h₅, h₆, h₇⟩, ⟨h₈, h₉⟩, h₁₀, -⟩ := hkeys
  simp [mem_fields, h₁, h₂, h₃, h₄, h₅, h₆, h₇, h₈, h₉, h₁₀, Ne.symm h₁, Ne.symm h₂, Ne.symm h₃,
    Ne.symm h₄, Ne.symm h₅, Ne.symm h₆, Ne.symm h₇, Ne.symm h₈, Ne.symm h₉, Ne.symm h₁₀]

theorem fields_keys :
    p.fields.map Prod.fst = [fieldKey "nodeId", fieldKey "outcomeId"] ++
      (if p.credential.isSome then [fieldKey "credential"] else []) ++
      (if isUndefined p.data then [] else [fieldKey "data"]) ++ [fieldKey "evidenceRefs"] := by
  unfold NormalizedOutcomeProposal.fields
  cases p.credential <;> cases isUndefined p.data <;> rfl

theorem fields_keyed : Keyed (.obj p.fields) := by
  constructor
  · have hsublist : (p.fields.map Prod.fst).Sublist [fieldKey "nodeId", fieldKey "outcomeId",
        fieldKey "credential", fieldKey "data", fieldKey "evidenceRefs"] := by
      rw [fields_keys]
      cases p.credential <;> cases isUndefined p.data <;> simp
    exact Nodup.sublist hsublist fieldKeys_nodup
  · rw [keyedFields_iff]
    rintro ⟨key, value⟩ hfield
    rcases mem_fields.1 hfield with ⟨-, rfl⟩ | ⟨-, rfl⟩ | ⟨-, _, -, rfl⟩ | ⟨-, -, rfl⟩ | ⟨-, rfl⟩
    · trivial
    · trivial
    · trivial
    · exact p.keyed
    apply (keyedItems_iff _).2
    intro item hitem
    obtain ⟨ref, -, rfl⟩ := mem_map.1 hitem
    trivial

theorem same_strings {refs refs' : List JsText} :
    Same (.arr (refs.map .str)) (.arr (refs'.map .str)) ↔ refs = refs' := by
  show SameItems (refs.map .str) (refs'.map .str) ↔ refs = refs'
  induction refs generalizing refs' with
  | nil => cases refs' <;> simp [SameItems]
  | cons ref refs ih =>
    cases refs' with
    | nil => simp [SameItems]
    | cons ref' refs' => rw [map_cons, map_cons, SameItems, ih, Same, List.cons.injEq]

theorem isUndefined_of_same {a b : JsValue} (h : Same a b) : isUndefined a = isUndefined b := by
  cases a <;> cases b <;> first | rfl | exact h.elim | skip
  rw [show _ = _ from h]

theorem eq_of_undefined {a : JsValue} (h : isUndefined a = true) : a = .other .undefined := by
  unfold isUndefined at h
  split at h
  · rfl
  · exact absurd h Bool.false_ne_true

theorem mem_keys {key : JsText} :
    key ∈ p.fields.map Prod.fst ↔ ∃ value, (key, value) ∈ p.fields := by
  simp

theorem same_fields :
    Same (.obj p.fields) (.obj q.fields) ↔
      p.nodeId = q.nodeId ∧ p.outcomeId = q.outcomeId ∧ p.credential = q.credential ∧
        Same p.data q.data ∧ p.evidenceRefs = q.evidenceRefs := by
  rw [Same, sameFields_iff_forall]
  constructor
  · rintro ⟨hkeys, hvalues⟩
    have hvalue : ∀ {key value}, (key, value) ∈ p.fields →
        ∃ value', (key, value') ∈ q.fields ∧ Same value value' := fun hfield => hvalues _ hfield
    have hback : ∀ {key value}, (key, value) ∈ q.fields → ∃ value', (key, value') ∈ p.fields :=
      fun hfield => mem_keys.1 (hkeys.mem_iff.2 (mem_keys.2 ⟨_, hfield⟩))
    obtain ⟨node, hnode, hsameNode⟩ := hvalue (field_values.1.2 rfl)
    obtain ⟨outcome, houtcome, hsameOutcome⟩ := hvalue (field_values.2.1.2 rfl)
    obtain ⟨refs, hrefs, hsameRefs⟩ := hvalue (field_values.2.2.2.2.2 rfl)
    rw [field_values.1] at hnode
    rw [field_values.2.1] at houtcome
    rw [field_values.2.2.2.2] at hrefs
    subst hnode houtcome hrefs
    refine ⟨hsameNode, hsameOutcome, ?_, ?_, same_strings.1 hsameRefs⟩
    · cases hp : p.credential with
      | none =>
        cases hq : q.credential with
        | none => rfl
        | some credential =>
          obtain ⟨value, hfield⟩ := hback (field_values.2.2.1.2 ⟨credential, hq, rfl⟩)
          obtain ⟨found, hfound, -⟩ := field_values.2.2.1.1 hfield
          exact absurd (hp.symm.trans hfound) (by simp)
      | some credential =>
        obtain ⟨value, hfield, hsame⟩ := hvalue (field_values.2.2.1.2 ⟨credential, hp, rfl⟩)
        obtain ⟨found, hfound, rfl⟩ := field_values.2.2.1.1 hfield
        rw [hfound, show credential = found from hsame]
    · cases hp : isUndefined p.data with
      | true =>
        cases hq : isUndefined q.data with
        | true =>
          rw [eq_of_undefined hp, eq_of_undefined hq]
          exact rfl
        | false =>
          obtain ⟨value, hfield⟩ := hback (field_values.2.2.2.1.2 ⟨hq, rfl⟩)
          have hfound := (field_values.2.2.2.1.1 hfield).1
          exact absurd (hp.symm.trans hfound) (by simp)
      | false =>
        obtain ⟨value, hfield, hsame⟩ := hvalue (field_values.2.2.2.1.2 ⟨hp, rfl⟩)
        obtain ⟨-, rfl⟩ := field_values.2.2.2.1.1 hfield
        exact hsame
  · rintro ⟨hnode, houtcome, hcredential, hdata, hrefs⟩
    constructor
    · rw [fields_keys, fields_keys, hcredential, isUndefined_of_same hdata]
    rintro ⟨key, value⟩ hfield
    rcases mem_fields.1 hfield with ⟨rfl, rfl⟩ | ⟨rfl, rfl⟩ | ⟨rfl, credential, hp, rfl⟩ |
      ⟨rfl, hp, rfl⟩ | ⟨rfl, rfl⟩
    · exact ⟨_, field_values.1.2 rfl, hnode⟩
    · exact ⟨_, field_values.2.1.2 rfl, houtcome⟩
    · exact ⟨_, field_values.2.2.1.2 ⟨credential, hcredential ▸ hp, rfl⟩, rfl⟩
    · exact ⟨_, field_values.2.2.2.1.2 ⟨isUndefined_of_same hdata ▸ hp, rfl⟩, hdata⟩
    · exact ⟨_, field_values.2.2.2.2.2 rfl, same_strings.2 hrefs⟩

theorem same_normalized {p q : OutcomeProposal} :
    Same (.obj (normalizeProposal p).fields) (.obj (normalizeProposal q).fields) ↔
      SameProposal p q := by
  rw [same_fields, normalized_refs, normalized_refs, sortRefs_eq_iff]
  exact ⟨fun ⟨hnode, houtcome, hcredential, hdata, hrefs⟩ =>
      ⟨hnode, houtcome, hcredential, hdata, hrefs⟩,
    fun h => ⟨h.nodeId, h.outcomeId, h.credential, h.data, h.refs⟩⟩

end Equality

theorem proposalDigest_of_same {sha256 : ByteArray → String} {p q : OutcomeProposal}
    (h : SameProposal p q) : proposalDigest sha256 p = proposalDigest sha256 q := by
  have htext := canonicalText_of_same fields_keyed fields_keyed (same_normalized.2 h)
  rw [proposalDigest, proposalDigest, contractDigest, contractDigest, htext]

theorem proposalDigest_eq_iff {sha256 : ByteArray → String} (hsha : Function.Injective sha256)
    {p q : OutcomeProposal} {d e : String} (hd : proposalDigest sha256 p = .ok d)
    (he : proposalDigest sha256 q = .ok e) : d = e ↔ SameProposal p q := by
  obtain ⟨s, hs, rfl⟩ := contractDigest_ok.1 hd
  obtain ⟨t, ht, rfl⟩ := contractDigest_ok.1 he
  rw [hsha.eq_iff, String.toByteArray_inj, ← same_normalized]
  exact canonicalText_eq_iff fields_keyed fields_keyed hs ht

/-- A value whose objects name each key once. -/
structure Body where
  value : JsValue
  keyed : value.Keyed

/-- Canonical texts and proposal digests are equal exactly for equal values. -/
theorem canonical_identity (sha256 : ByteArray → String) (hsha : Function.Injective sha256) :
    (∀ (a b : Body) (s t : String), canonicalText a.value = .ok s → canonicalText b.value = .ok t →
        (s = t ↔ a.value.Same b.value)) ∧
      (∀ a b : Body, a.value.Same b.value → canonicalText a.value = canonicalText b.value) ∧
      (∀ (a : Body) (s : String), canonicalText a.value = .ok s →
        ∃ read, JsValue.parse a.value.text = some read ∧ canonicalText read = .ok s) ∧
      (∀ (p q : OutcomeProposal) (d e : String), proposalDigest sha256 p = .ok d →
        proposalDigest sha256 q = .ok e → (d = e ↔ SameProposal p q)) ∧
      ∀ p q : OutcomeProposal, SameProposal p q →
        proposalDigest sha256 p = proposalDigest sha256 q := by
  refine ⟨?_, ?_, ?_, ?_, ?_⟩
  · intro a b s t hs ht
    exact canonicalText_eq_iff a.keyed b.keyed hs ht
  · intro a b h
    exact canonicalText_of_same a.keyed b.keyed h
  · intro a s hs
    exact canonicalText_parse a.keyed hs
  · intro p q d e hd he
    exact proposalDigest_eq_iff hsha hd he
  · intro p q h
    exact proposalDigest_of_same h

def sampleText : String :=
  "\x7b\"data\":\x7b\"a\":0,\"b\":[1.5]\x7d,\"evidenceRefs\":[\"r1\",\"r2\"],\"nodeId\":\"n\",\"outcomeId\":\"done\"\x7d"

def sampleHash (bytes : ByteArray) : String :=
  if bytes = sampleText.toByteArray then
    "a16d8806563e0142b3fe03724d6cb3e4f14ebc442e90b638287af5ed941d8022"
  else String.ofList ('~' :: bytes.data.toList.map fun byte => Char.ofNat byte.toNat)

theorem sampleHash_injective : Function.Injective sampleHash := by
  intro a b h
  unfold sampleHash at h
  split at h <;> split at h
  · next ha hb => exact ha.trans hb.symm
  · exact absurd (congrArg (fun s => s.toList.head?) h) (by simp)
  · exact absurd (congrArg (fun s => s.toList.head?) h) (by simp)
  · have hlist := (List.cons.inj (String.ofList_inj.1 h)).2
    exact ByteArray.ext (Array.toList_inj.1 (JsText.charOfByte_injective.list_map hlist))

def samplePayload (fields : List (JsText × JsValue)) (refs : List String)
    (keyed : (JsValue.obj fields).Keyed) : OutcomeProposal :=
  { nodeId := fieldKey "n", outcomeId := fieldKey "done", credential := none, data := .obj fields
    evidenceRefs := some (refs.map fieldKey), keyed := keyed }

def oneAndAHalf : Double := ⟨false, 0x3ff8000000000000, by decide⟩

def negativeZero : Double := ⟨true, 0, infinityPlace_pos⟩

def sampleProposal : OutcomeProposal :=
  samplePayload [(fieldKey "b", .arr [.num oneAndAHalf]), (fieldKey "a", .num negativeZero)]
    ["r2", "r1", "r2"] (by simp [Keyed, KeyedFields, KeyedItems, fieldKey]; decide)

def sampleReordered : OutcomeProposal :=
  samplePayload [(fieldKey "a", .num negativeZero.positiveZero),
    (fieldKey "b", .arr [.num oneAndAHalf])] ["r1", "r2"]
    (by simp [Keyed, KeyedFields, KeyedItems, fieldKey]; decide)

theorem sample_same : SameProposal sampleProposal sampleReordered := by
  refine ⟨rfl, rfl, rfl, ?_, ?_⟩
  · apply (same_iff_normal _ _ sampleProposal.keyed sampleReordered.keyed).2
    rfl
  · intro ref
    show ref ∈ ["r2", "r1", "r2"].map fieldKey ↔ ref ∈ ["r1", "r2"].map fieldKey
    simp only [map_cons, map_nil, mem_cons, not_mem_nil, or_false]
    tauto

/-- Key order, a signed zero and a repeated reference leave the digest as it is. -/
theorem canonical_identity_sample :
    proposalDigest sampleHash sampleProposal =
        .ok "a16d8806563e0142b3fe03724d6cb3e4f14ebc442e90b638287af5ed941d8022" ∧
      proposalDigest sampleHash sampleReordered =
        .ok "a16d8806563e0142b3fe03724d6cb3e4f14ebc442e90b638287af5ed941d8022" := by
  have hdigest : proposalDigest sampleHash sampleProposal =
      .ok "a16d8806563e0142b3fe03724d6cb3e4f14ebc442e90b638287af5ed941d8022" := by
    decide +kernel
  have hsame := (canonical_identity sampleHash sampleHash_injective).2.2.2.2 _ _ sample_same
  exact ⟨hdigest, hsame ▸ hdigest⟩

structure SameListed (p q : OutcomeProposal) : Prop extends SameProposal p q where
  listed : p.evidenceRefs.isSome = q.evidenceRefs.isSome

def bareProposal (refs : Option (List JsText)) : OutcomeProposal :=
  { nodeId := fieldKey "n", outcomeId := fieldKey "done", credential := none
    data := .other .undefined, evidenceRefs := refs, keyed := trivial }

/-- No list of references and an empty one are one submission. -/
theorem canonical_identity_unlisted :
    ¬ ∀ (sha256 : ByteArray → String), Function.Injective sha256 →
      ∀ (p q : OutcomeProposal) (d e : String), proposalDigest sha256 p = .ok d →
        proposalDigest sha256 q = .ok e → (d = e ↔ SameListed p q) := by
  intro hclaim
  have hsame : SameProposal (bareProposal none) (bareProposal (some [])) :=
    ⟨rfl, rfl, rfl, rfl, fun _ => Iff.rfl⟩
  have htext : canonicalText (.obj (normalizeProposal (bareProposal none)).fields) =
      .ok "\x7b\"evidenceRefs\":[],\"nodeId\":\"n\",\"outcomeId\":\"done\"\x7d" := by
    decide +kernel
  have hdigest : proposalDigest sampleHash (bareProposal none) = .ok (sampleHash _) :=
    contractDigest_ok.2 ⟨_, htext, rfl⟩
  have hsecond := proposalDigest_of_same hsame ▸ hdigest
  have hlisted := (hclaim sampleHash sampleHash_injective _ _ _ _ hdigest hsecond).1 rfl
  exact absurd hlisted.listed Bool.false_ne_true

end Rolebox.Graph.Canonical
