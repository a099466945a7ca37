import Rolebox.Policy.CompletionPolicy

/-! What the reader of a policy body accepts, and that a body that was read reads as itself. -/

namespace Rolebox.Policy
open General JsValue List Option

section Rules
variable {entries : List JsValue} {rules : List CompletionPolicyRule} {rule : CompletionPolicyRule}

def CompletionPolicyRule.key (rule : CompletionPolicyRule) : JsText :=
  mappingKey rule.toCompletionPolicyMapping

theorem readRules_eq (seen : List JsText) (rules : List CompletionPolicyRule)
    (entries : List JsValue) :
    readRules seen rules entries =
      (entries.mapM readRule).bind fun read =>
        if (read.map CompletionPolicyRule.key).Nodup ∧ ∀ rule ∈ read, rule.key ∉ seen then
          some (rules ++ read) else none := by
  induction entries generalizing seen rules with
  | nil => simp [readRules]
  | cons entry entries ih =>
    rw [mapM_cons]
    cases hrule : readRule entry with
    | none => simp [readRules, hrule]
    | some rule =>
      have hkey : mappingKey rule.toCompletionPolicyMapping = rule.key := rfl
      simp only [readRules, hrule, bind_eq_bind, bind_some, hkey]
      by_cases hseen : rule.key ∈ seen
      · rw [if_pos hseen]
        cases hrest : entries.mapM readRule with
        | none => rfl
        | some read =>
          simp only [bind_some, Option.pure_def]
          rw [if_neg]
          rintro ⟨-, hnew⟩
          exact hnew rule (.head _) hseen
      · rw [if_neg hseen, ih]
        cases hrest : entries.mapM readRule with
        | none => rfl
        | some read =>
          simp only [bind_some, Option.pure_def, append_assoc, singleton_append]
          congr 1
          simp only [map_cons, nodup_cons, mem_cons, forall_eq_or_imp, not_or,
            List.mem_map, not_exists, not_and, eq_iff_iff]
          constructor
          · rintro ⟨hnodup, hnew⟩
            exact ⟨⟨fun other hother => (hnew other hother).1, hnodup⟩, hseen,
              fun other hother => (hnew other hother).2⟩
          · rintro ⟨⟨hfirst, hnodup⟩, -, hnew⟩
            exact ⟨hnodup, fun other hother => ⟨hfirst other hother, hnew other hother⟩⟩

def CompletionPolicyRule.Named (rule : CompletionPolicyRule) : Prop :=
  rule.graphId ≠ [] ∧ rule.nodeId ≠ [] ∧ rule.outcome ≠ []

theorem nonEmptyString_some {v : JsValue} {s : JsText} (h : nonEmptyString v = some s) :
    s ≠ [] := by
  cases v with
  | str t =>
    simp only [nonEmptyString] at h
    split at h
    · cases h
    · next hne =>
      cases h
      exact hne
  | _ => cases h

theorem readRule_named {entry : JsValue} (h : readRule entry = some rule) : rule.Named := by
  cases entry with
  | obj fields =>
    simp only [readRule] at h
    split at h
    · obtain ⟨graphId, hgraph, h⟩ := bind_eq_some_iff.1 h
      obtain ⟨nodeId, hnode, h⟩ := bind_eq_some_iff.1 h
      obtain ⟨outcome, houtcome, h⟩ := bind_eq_some_iff.1 h
      obtain ⟨decision, -, h⟩ := bind_eq_some_iff.1 h
      cases h
      exact ⟨nonEmptyString_some hgraph, nonEmptyString_some hnode, nonEmptyString_some houtcome⟩
    · cases h
  | _ => cases h

theorem readDecision_value (decision : Decision) : readDecision decision.value = some decision := by
  cases decision <;> decide

theorem readFallback_value (fallback : CompletionPolicyFallback) :
    readFallback fallback.value = some fallback := by
  cases fallback <;> decide

theorem nonEmptyString_str {s : JsText} (h : s ≠ []) : nonEmptyString (.str s) = some s := by
  simp only [nonEmptyString, if_neg h]

theorem field_self {fields : List (JsText × JsValue)} (key : String) (v : JsValue) :
    field ((text key, v) :: fields) key = v := by
  simp [field]

theorem field_other {fields : List (JsText × JsValue)} {key other : String} (v : JsValue)
    (h : text key ≠ text other) : field ((text other, v) :: fields) key = field fields key := by
  have hkey : (text key == text other) = false := beq_false_of_ne h
  simp only [field, lookup_cons, hkey]

theorem readRule_value (h : rule.Named) : readRule rule.value = some rule := by
  obtain ⟨hgraph, hnode, houtcome⟩ := h
  have hkeys : hasExactKeys [(text "graphId", .str rule.graphId), (text "nodeId", .str rule.nodeId),
      (text "outcome", .str rule.outcome), (text "decision", rule.decision.value)]
      ["graphId", "nodeId", "outcome", "decision"] = true := by
    simp only [hasExactKeys, map_cons, map_nil, length_cons, length_nil]
    decide +kernel
  simp only [readRule, CompletionPolicyRule.value, hkeys, if_true]
  rw [field_self, field_other _ (by decide +kernel), field_self,
    field_other _ (by decide +kernel), field_other _ (by decide +kernel), field_self,
    field_other _ (by decide +kernel), field_other _ (by decide +kernel),
    field_other _ (by decide +kernel), field_self, nonEmptyString_str hgraph,
    nonEmptyString_str hnode, nonEmptyString_str houtcome, readDecision_value]
  rfl

end Rules

theorem mapM_some_all {α β : Type} {f : α → Option β} {P : β → Prop} {l : List α} {l' : List β}
    (hf : ∀ a b, f a = some b → P b) (h : l.mapM f = some l') : ∀ b ∈ l', P b := by
  induction l generalizing l' with
  | nil =>
    cases h
    intro b hb
    cases hb
  | cons a l ih =>
    rw [mapM_cons] at h
    obtain ⟨b, hb, h⟩ := bind_eq_some_iff.1 h
    obtain ⟨bs, hbs, h⟩ := bind_eq_some_iff.1 h
    cases h
    intro c hc
    rcases mem_cons.1 hc with rfl | hc
    · exact hf a c hb
    · exact ih hbs c hc

theorem mapM_map_some {α β : Type} {f : α → Option β} {g : β → α} {l : List β}
    (h : ∀ b ∈ l, f (g b) = some b) : (l.map g).mapM f = some l := by
  induction l with
  | nil => rfl
  | cons b l ih =>
    rw [map_cons, mapM_cons, h b (.head _), ih fun c hc => h c (.tail _ hc)]
    rfl

section Bodies
variable {v : JsValue} {body : CompletionPolicyBody}

def declaredBody : JsValue → Option CompletionPolicyBody := readBodyWith (·.mapM readRule)

theorem readBodyWith_some {rulesOf : List JsValue → Option (List CompletionPolicyRule)} :
    readBodyWith rulesOf v = some body ↔ ∃ fields entries, v = .obj fields ∧
      hasExactKeys fields ["version", "default", "rules"] = true ∧
      field fields "version" = .num COMPLETION_POLICY_VERSION ∧
      readFallback (field fields "default") = some body.fallback ∧
      field fields "rules" = .arr entries ∧ rulesOf entries = some body.rules := by
  constructor
  · intro h
    cases v with
    | obj fields =>
      simp only [readBodyWith] at h
      split at h
      · next hkeys =>
        split at h
        · next version hversion =>
          split at h
          · next hcurrent =>
            obtain ⟨fallback, hfallback, h⟩ := bind_eq_some_iff.1 h
            split at h
            · next entries hentries =>
              obtain ⟨rules, hrules, h⟩ := bind_eq_some_iff.1 h
              cases h
              exact ⟨fields, entries, rfl, hkeys, hcurrent ▸ hversion, hfallback, hentries, hrules⟩
            · cases h
          · cases h
        · cases h
      · cases h
    | _ => cases h
  · rintro ⟨fields, entries, rfl, hkeys, hversion, hfallback, hentries, hrules⟩
    simp only [readBodyWith, if_pos hkeys, hversion, if_true, hfallback, bind_eq_bind, bind_some,
      hentries, hrules, Option.pure_def]

def CompletionPolicyBody.Unambiguous (body : CompletionPolicyBody) : Prop :=
  (body.rules.map CompletionPolicyRule.key).Nodup

instance (body : CompletionPolicyBody) : Decidable body.Unambiguous :=
  inferInstanceAs (Decidable (Nodup _))

theorem readCompletionPolicyBody_some :
    readCompletionPolicyBody v = some body ↔ declaredBody v = some body ∧ body.Unambiguous := by
  have hrules (entries : List JsValue) : readRules [] [] entries = some body.rules ↔
      entries.mapM readRule = some body.rules ∧ body.Unambiguous := by
    rw [readRules_eq, bind_eq_some_iff]
    simp only [not_mem_nil, not_false_eq_true, implies_true, and_true, nil_append,
      ite_none_right_eq_some, some.injEq]
    constructor
    · rintro ⟨rules, hread, hkeys, rfl⟩
      exact ⟨hread, hkeys⟩
    · exact fun ⟨hread, hkeys⟩ => ⟨_, hread, hkeys, rfl⟩
  simp only [readCompletionPolicyBody, declaredBody, readBodyWith_some, hrules, ← and_assoc,
    exists_and_right]

theorem declaredBody_named (h : declaredBody v = some body) : ∀ rule ∈ body.rules, rule.Named := by
  obtain ⟨_, _, -, -, -, -, -, hrules⟩ := readBodyWith_some.1 h
  exact mapM_some_all (fun _ _ => readRule_named) hrules

theorem readCompletionPolicyBody_value (h : readCompletionPolicyBody v = some body) :
    readCompletionPolicyBody body.value = some body := by
  obtain ⟨hdeclared, hkeys⟩ := readCompletionPolicyBody_some.1 h
  have hrules : (body.rules.map CompletionPolicyRule.value).mapM readRule = some body.rules :=
    mapM_map_some fun rule hrule => readRule_value (declaredBody_named hdeclared rule hrule)
  refine readCompletionPolicyBody_some.2
    ⟨readBodyWith_some.2 ⟨_, _, rfl, ?_, field_self .., ?_, ?_, hrules⟩, hkeys⟩
  · simp only [hasExactKeys, map_cons, map_nil, length_cons, length_nil]
    decide +kernel
  · rw [field_other _ (by decide +kernel), field_self, readFallback_value]
  · rw [field_other _ (by decide +kernel), field_other _ (by decide +kernel), field_self]

end Bodies

end Rolebox.Policy
