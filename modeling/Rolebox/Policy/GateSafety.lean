import Rolebox.Artifacts.PublishOnce
import Rolebox.Policy.CommandGate
import Rolebox.Policy.PolicyLoading

/-! What a pass of the command gate stands for. -/

namespace Rolebox.Policy
open General Artifacts List

section Claims
variable (digestOf : Bytes → String) (root : String)

def contents (h : List (Exchange Gate)) : List Bytes :=
  h.filterMap fun
    | ⟨.readFile _, .ok bytes⟩ => some bytes
    | _ => none

def puts (h : List (Exchange Gate)) : List Bytes :=
  h.filterMap fun
    | ⟨.putArtifact _ bytes, _⟩ => some bytes
    | _ => none

inductive Ran (binding : TrustedCommandBinding) (exitCode : Double) : Exchange Gate → Prop where
  | run : Ran binding exitCode
      ⟨.run binding.argv binding.cwd binding.timeoutMs, .ok (.exited (some exitCode) none)⟩
  | spawn {executable : JsText} {args : List JsText} (hargv : binding.argv = executable :: args) :
      Ran binding exitCode ⟨.spawn executable args binding.cwd binding.timeoutMs,
        .ok { error := none, status := some exitCode, signal := none }⟩

/-- One call of the gate: deposits go on and may be its own, all else answers as it likes. -/
inductive Answers : Store → Exchange Gate → Store → Prop where
  | deposit {s t u : Store} {before during : List Event} {bytes : Bytes}
      {result : ArtifactDepositResult} (hbefore : Run (Step digestOf root) s before t)
      (hduring : Run (Step digestOf root) t (.start bytes :: during) u)
      (hanswered : u.calls[t.calls.length]? =
        some { bytes := bytes, phase := .answered result }) :
      Answers s ⟨.putArtifact root bytes, result⟩ u
  | other {s t : Store} {events : List Event} {c : GateCall} {answer : GateCall.Answer c}
      (hcall : ∀ storeRoot bytes, c ≠ .putArtifact storeRoot bytes)
      (hevents : Run (Step digestOf root) s events t) : Answers s ⟨c, answer⟩ t

/-- What a pass stands for. -/
def Justified (bindings : List TrustedCommandBinding) (request : ValidatorRequest) (t : Store)
    (h : List (Exchange Gate)) (evidence : List ArtifactEvidence) : Prop :=
  ∃ binding before exchange after exitCode,
    bindings.filter (fun b => decide (b.toCompletionPolicyMapping =
      request.toCompletionPolicyMapping)) = [binding] ∧
    h = before ++ exchange :: after ∧
    Ran binding exitCode exchange ∧ exitCode.value = binding.expectExitCode.value ∧
    contents before = contents after ∧ puts before = [] ∧ puts after = contents after ∧
    (contents after).length = binding.artifactRefs.length ∧
    evidence = zipWith (evidenceFor digestOf) binding.artifactRefs (contents after) ∧
    ∀ bytes ∈ contents after, stored root t.disk (artifactIdOf (digestOf bytes)) = some bytes

variable (parseError : List Char → JsText) (policy : Option (List Char))
  (request : ValidatorRequest)

/-- The reader's commands make a validator, no ambiguous one is installed, passes are justified. -/
structure GateSafe : Prop where
  constructs : ∀ options : CommandExitValidatorOptions,
    options.commands = (readTrustedCommandPolicy parseError policy).bindings →
      ∃ validator, createCommandExitValidator options digestOf = .ok validator
  ambiguous : ∀ (i j : Nat) first second one other, i ≠ j → (configured policy)[i]? = some first →
    (configured policy)[j]? = some second → readCommandBinding first = .ok one →
      readCommandBinding second = .ok other →
        one.toCompletionPolicyMapping = other.toCompletionPolicyMapping →
          ∀ binding ∈ (readTrustedCommandPolicy parseError policy).bindings,
            binding.toCompletionPolicyMapping ≠ one.toCompletionPolicyMapping
  passes : ∀ (options : CommandExitValidatorOptions) validator (d : Files) before s h t evidence,
    options.commands = (readTrustedCommandPolicy parseError policy).bindings →
      createCommandExitValidator options digestOf = .ok validator →
        options.artifactStoreRoot ∈ [none, some root] →
          Run (Step digestOf root) (opened d) before s → Run (Answers digestOf root) s h t →
            Set.InjOn digestOf (occurring root t ∪ { bytes | bytes ∈ contents h }) →
              (validator request).Returns h (.pass evidence) →
                Justified digestOf root options.commands request t h evidence

/-- A command alone under the request's key, with readable artifacts, is for its mapping. -/
def Unmistakable (policy : Option (List Char)) (request : ValidatorRequest) : Prop :=
  ∀ binding ∈ wellFormed (configured policy),
    (wellFormed (configured policy)).filter (fun b => decide (b.key = binding.key)) = [binding] →
      binding.key = commandMappingKey request.toCompletionPolicyMapping →
        (∀ ref ∈ binding.artifactRefs, nul ∉ ref) →
          binding.toCompletionPolicyMapping = request.toCompletionPolicyMapping

end Claims

section Installing
variable {bindings : List TrustedCommandBinding} {binding : TrustedCommandBinding}

theorem installBindings_ok (hshape : ∀ b ∈ bindings, assertCommandBinding b = .ok ())
    (hkeys : (bindings.map TrustedCommandBinding.key).Nodup)
    (commands : List (JsText × TrustedCommandBinding))
    (hnew : ∀ b ∈ bindings, b.key ∉ commands.map Prod.fst) :
    installBindings commands bindings = .ok (commands ++ bindings.map fun b => (b.key, b)) := by
  induction bindings generalizing commands with
  | nil =>
    show Except.ok commands = _
    rw [map_nil, append_nil]
  | cons first rest ih =>
    obtain ⟨hfirst, hrest⟩ := nodup_cons.1 hkeys
    have hnext : ∀ b ∈ rest, b.key ∉ (commands ++ [(first.key, first)]).map Prod.fst := by
      intro b hb hmem
      rw [map_append] at hmem
      rcases mem_append.1 hmem with hold | hsame
      · exact hnew b (.tail _ hb) hold
      · have hkey : b.key = first.key := mem_singleton.1 hsame
        exact hfirst (hkey ▸ mem_map_of_mem hb)
    unfold installBindings
    rw [hshape first (.head _), ok_bind, if_neg (hnew first (.head _)),
      ih (fun b hb => hshape b (.tail _ hb)) hrest _ hnext]
    simp

theorem installed_ok (parseError : List Char → JsText) (policy : Option (List Char)) :
    installBindings [] (readTrustedCommandPolicy parseError policy).bindings =
      .ok ((readTrustedCommandPolicy parseError policy).bindings.map fun b => (b.key, b)) := by
  rw [readTrustedCommandPolicy_bindings]
  have hok := installBindings_ok
    (fun b hb => wellFormed_asserted (installed_wellFormed hb))
    (installed_nodup (configured policy)) [] (nofun)
  rwa [nil_append] at hok

theorem lookup_bindings {key : JsText}
    (h : (bindings.map fun b => (b.key, b)).lookup key = some binding) :
    binding ∈ bindings ∧ binding.key = key := by
  obtain ⟨b, hb, hpair⟩ := mem_map.1 (mem_of_lookup h)
  cases hpair
  exact ⟨hb, rfl⟩

theorem filter_mapping (hkeys : (bindings.map TrustedCommandBinding.key).Nodup)
    (hmem : binding ∈ bindings) :
    bindings.filter (fun b => decide (b.toCompletionPolicyMapping =
      binding.toCompletionPolicyMapping)) = [binding] := by
  have hmapping : (bindings.map TrustedCommandBinding.toCompletionPolicyMapping).Nodup := by
    apply Nodup.of_map commandMappingKey
    rw [map_map]
    exact hkeys
  exact filter_key_eq hmapping hmem

end Installing

section Programs
variable {digestOf : Bytes → String} {root : String} {artifactRoot ref : JsText}
  {calls : List (Exchange Gate)}

theorem contents_append (h h' : List (Exchange Gate)) :
    contents (h ++ h') = contents h ++ contents h' := filterMap_append ..

theorem puts_append (h h' : List (Exchange Gate)) : puts (h ++ h') = puts h ++ puts h' :=
  filterMap_append ..

theorem readArtifact_returns {read : ArtifactRead}
    (h : (readArtifact digestOf artifactRoot ref).Returns calls read) :
    puts calls = [] ∧ ∀ evidence bytes, read = .read evidence bytes →
      nul ∉ ref ∧ evidence = evidenceFor digestOf ref bytes ∧ contents calls = [bytes] := by
  unfold readArtifact at h
  split at h
  · obtain ⟨rfl, rfl⟩ := Program.returns_pure.1 h
    exact ⟨rfl, nofun⟩
  · next hnul =>
    obtain ⟨answer, after, rfl, hroot⟩ := Program.returns_ask_bind.1 h
    cases answer with
    | error error =>
      obtain ⟨rfl, rfl⟩ := Program.returns_pure.1 hroot
      exact ⟨rfl, nofun⟩
    | ok realRoot =>
      replace hroot : Program.Returns (if _ then _ else _) after read := hroot
      split at hroot
      · obtain ⟨answer, after, rfl, hpath⟩ := Program.returns_ask_bind.1 hroot
        cases answer with
        | error error =>
          obtain ⟨rfl, rfl⟩ := Program.returns_pure.1 hpath
          exact ⟨rfl, nofun⟩
        | ok realPath =>
          replace hpath : Program.Returns (if _ then _ else _) after read := hpath
          split at hpath
          · obtain ⟨answer, after, rfl, hfile⟩ := Program.returns_ask_bind.1 hpath
            match answer with
            | .error error =>
              obtain ⟨rfl, rfl⟩ := Program.returns_pure.1 hfile
              exact ⟨rfl, nofun⟩
            | .ok false =>
              obtain ⟨rfl, rfl⟩ := Program.returns_pure.1 hfile
              exact ⟨rfl, nofun⟩
            | .ok true =>
              obtain ⟨answer, after, rfl, hbytes⟩ := Program.returns_ask_bind.1 hfile
              cases answer with
              | error error =>
                obtain ⟨rfl, rfl⟩ := Program.returns_pure.1 hbytes
                exact ⟨rfl, nofun⟩
              | ok bytes =>
                obtain ⟨rfl, rfl⟩ := Program.returns_pure.1 hbytes
                refine ⟨rfl, fun evidence read hread => ?_⟩
                cases hread
                exact ⟨fun hmem => hnul (.inr hmem), rfl, rfl⟩
          · obtain ⟨rfl, rfl⟩ := Program.returns_pure.1 hpath
            exact ⟨rfl, nofun⟩
      · obtain ⟨rfl, rfl⟩ := Program.returns_pure.1 hroot
        exact ⟨rfl, nofun⟩

def entriesOf (digestOf : Bytes → String) (refs : List JsText) (bytes : List Bytes) :
    List RevisionEntry :=
  zipWith (fun ref b => { evidence := evidenceFor digestOf ref b, bytes := b }) refs bytes

theorem readRevisions_returns {refs : List JsText} {read : Except JsText (List RevisionEntry)}
    (h : (readRevisions digestOf artifactRoot refs).Returns calls read) :
    puts calls = [] ∧ ∀ entries, read = .ok entries → (∀ ref ∈ refs, nul ∉ ref) ∧
      (contents calls).length = refs.length ∧ entries = entriesOf digestOf refs (contents calls) := by
  induction refs generalizing calls read with
  | nil =>
    obtain ⟨rfl, rfl⟩ := Program.returns_pure.1 h
    refine ⟨rfl, fun entries hread => ?_⟩
    cases hread
    exact ⟨forall_mem_nil _, rfl, rfl⟩
  | cons ref refs ih =>
    obtain ⟨before, first, after, rfl, hfirst, hnext⟩ := Program.returns_bind.1 h
    obtain ⟨hputs, hread⟩ := readArtifact_returns hfirst
    cases first with
    | problem reason =>
      obtain ⟨rfl, rfl⟩ := Program.returns_pure.1 hnext
      rw [append_nil]
      exact ⟨hputs, nofun⟩
    | read evidence bytes =>
      obtain ⟨hnul, rfl, hcontents⟩ := hread evidence bytes rfl
      obtain ⟨middle, others, last, rfl, hothers, hlast⟩ := Program.returns_bind.1 hnext
      obtain ⟨hputs', hread'⟩ := ih hothers
      cases others with
      | error reason =>
        obtain ⟨rfl, rfl⟩ := Program.returns_pure.1 hlast
        rw [append_nil, puts_append, hputs, hputs']
        exact ⟨rfl, nofun⟩
      | ok entries =>
        obtain ⟨rfl, rfl⟩ := Program.returns_pure.1 hlast
        obtain ⟨hnuls, hlength, hentries⟩ := hread' entries rfl
        rw [append_nil, puts_append, hputs, hputs', contents_append, hcontents]
        refine ⟨rfl, fun all hall => ?_⟩
        cases hall
        refine ⟨?_, ?_, ?_⟩
        · intro other hother
          rcases mem_cons.1 hother with rfl | hother
          · exact hnul
          · exact hnuls other hother
        · simpa using hlength
        · rw [hentries]
          rfl

theorem runCommand_returns {options : CommandExitValidatorOptions}
    {binding : TrustedCommandBinding} {result : Except JsText CommandRunResult}
    (h : (runCommand options binding).Returns calls result) :
    puts calls = [] ∧ contents calls = [] ∧ ∀ exitCode, result = .ok (.exited (some exitCode) none) →
      ∃ exchange, calls = [exchange] ∧ Ran binding exitCode exchange := by
  unfold runCommand at h
  split at h
  · obtain rfl := Program.returns_ask.1 h
    refine ⟨rfl, rfl, fun exitCode hresult => ⟨_, rfl, ?_⟩⟩
    rw [hresult]
    exact .run
  · unfold runCommandDirectly at h
    split at h
    · obtain ⟨rfl, rfl⟩ := Program.returns_pure.1 h
      exact ⟨rfl, rfl, nofun⟩
    · next executable args hargv =>
      obtain ⟨answer, after, rfl, hspawned⟩ := Program.returns_ask_bind.1 h
      match answer with
      | .error error =>
        obtain ⟨rfl, rfl⟩ := Program.returns_pure.1 hspawned
        exact ⟨rfl, rfl, nofun⟩
      | .ok { error := some error, status := _, signal := _ } =>
        obtain ⟨rfl, rfl⟩ := Program.returns_pure.1 hspawned
        exact ⟨rfl, rfl, nofun⟩
      | .ok { error := none, status := status, signal := signal } =>
        obtain ⟨rfl, rfl⟩ := Program.returns_pure.1 hspawned
        refine ⟨rfl, rfl, fun exitCode hresult => ⟨_, rfl, ?_⟩⟩
        cases hresult
        exact .spawn hargv

theorem record_pass {options : CommandExitValidatorOptions} {binding : TrustedCommandBinding}
    {revisions evidence : List ArtifactEvidence} {exitCode : Option Double}
    {signal : Option JsText} {verdict : Verdict} {reason : JsText}
    (h : (record options binding revisions exitCode signal verdict reason).Returns calls
      (.pass evidence)) :
    verdict = .pass ∧ evidence = revisions ∧ puts calls = [] ∧ contents calls = [] := by
  unfold record at h
  cases verdict with
  | pass =>
    dsimp only at h
    split at h
    · obtain ⟨_, after, rfl, hverdict⟩ := Program.returns_ask_bind.1 h
      obtain ⟨rfl, hevidence⟩ := Program.returns_pure.1 hverdict
      cases hevidence
      exact ⟨rfl, rfl, rfl, rfl⟩
    · obtain ⟨rfl, hevidence⟩ := Program.returns_pure.1 h
      cases hevidence
      exact ⟨rfl, rfl, rfl, rfl⟩
  | fail | indeterminate =>
    dsimp only at h
    split at h
    · obtain ⟨_, after, -, hverdict⟩ := Program.returns_ask_bind.1 h
      cases (Program.returns_pure.1 hverdict).2
    · cases (Program.returns_pure.1 h).2

end Programs

section Deposits
variable {digestOf : Bytes → String} {root : String} {s t : Store} {calls : List (Exchange Gate)}

theorem Answers.run {exchange : Exchange Gate} (h : Answers digestOf root s exchange t) :
    ∃ events, Run (Step digestOf root) s events t := by
  cases h with
  | deposit hbefore hduring hanswered => exact ⟨_, hbefore.append hduring⟩
  | other hcall hevents => exact ⟨_, hevents⟩

theorem answers_run (h : Run (Answers digestOf root) s calls t) :
    ∃ events, Run (Step digestOf root) s events t := by
  induction h with
  | nil s => exact ⟨[], .nil s⟩
  | cons hfirst _ ih =>
    obtain ⟨events, hevents⟩ := hfirst.run
    obtain ⟨later, hlater⟩ := ih
    exact ⟨events ++ later, hevents.append hlater⟩

def Retained (digestOf : Bytes → String) (root : String) (t : Store) (entry : RevisionEntry)
    (evidence : ArtifactEvidence) : Prop :=
  evidence.ref = entry.evidence.ref ∧ evidence.digest = digestOf entry.bytes ∧
    evidence.artifactId = artifactIdOf (digestOf entry.bytes) ∧
      ∃ bytes, stored root t.disk (artifactIdOf (digestOf entry.bytes)) = some bytes ∧
        digestOf bytes = digestOf entry.bytes ∧ evidence.size = bytes.length

variable (hhex : ∀ bytes, isDigest (digestOf bytes).toList = true)
include hhex

theorem Retained.later {entry : RevisionEntry} {evidence : ArtifactEvidence}
    (h : Retained digestOf root s entry evidence) (hs : Sound digestOf root s)
    {events : List Event} (hrun : Run (Step digestOf root) s events t) :
    Retained digestOf root t entry evidence := by
  obtain ⟨href, hdigest, hid, bytes, hstored, hsame, hsize⟩ := h
  have hlater := (run_stays hhex hs hrun (isArtifactId_artifactIdOf (hhex entry.bytes))).1
  exact ⟨href, hdigest, hid, bytes, hlater bytes hstored, hsame, hsize⟩

theorem Answers.retained {entry : RevisionEntry} {artifactId digest : String} {size : Nat}
    (hs : Sound digestOf root s)
    (h : Answers digestOf root s
      ⟨.putArtifact root entry.bytes, .deposited artifactId digest size⟩ t) :
    Retained digestOf root t entry
      { entry.evidence with artifactId := artifactId, digest := digest, size := size } := by
  cases h with
  | other hcall _ => exact absurd rfl (hcall root entry.bytes)
  | deposit hbefore hduring hanswered =>
    have hsound : Sound digestOf root t := hs.run hhex (hbefore.append hduring)
    obtain ⟨hid, hdigest, bytes, hstored, hsame, hsize⟩ :=
      hsound.owned _ (mem_of_getElem? hanswered)
    have hname : artifactId = artifactIdOf (digestOf entry.bytes) := hid
    refine ⟨rfl, hdigest, hname, bytes, ?_, hsame.trans hdigest, hsize⟩
    rw [← hname]
    exact hstored

theorem depositRevisions_retained {storeRoot : String} {entries : List RevisionEntry}
    {evidence : List ArtifactEvidence} (hs : Sound digestOf root s)
    (hrun : Run (Answers digestOf root) s calls t)
    (h : (depositRevisions storeRoot entries).Returns calls (.ok evidence)) :
    contents calls = [] ∧ puts calls = entries.map RevisionEntry.bytes ∧
      Forall₂ (Retained digestOf root t) entries evidence := by
  induction entries generalizing s calls evidence with
  | nil =>
    obtain ⟨rfl, hevidence⟩ := Program.returns_pure.1 h
    cases hevidence
    exact ⟨rfl, rfl, .nil⟩
  | cons entry entries ih =>
    obtain ⟨answer, after, rfl, hnext⟩ := Program.returns_ask_bind.1 h
    cases answer with
    | problem reason =>
      obtain ⟨-, hevidence⟩ := Program.returns_pure.1 hnext
      cases hevidence
    | deposited artifactId digest size =>
      obtain ⟨before, others, last, rfl, hothers, hlast⟩ := Program.returns_bind.1 hnext
      cases others with
      | error reason =>
        obtain ⟨-, hevidence⟩ := Program.returns_pure.1 hlast
        cases hevidence
      | ok retained =>
        obtain ⟨rfl, hevidence⟩ := Program.returns_pure.1 hlast
        cases hevidence
        rw [append_nil] at hrun ⊢
        cases hrun with
        | @cons _ m _ _ _ hfirst hrest =>
          -- a deposit is answered by the store the gate deposits into
          have hroot : storeRoot = root := by
            cases hfirst with
            | deposit _ _ _ => rfl
            | other hcall _ => exact absurd rfl (hcall storeRoot entry.bytes)
          subst hroot
          obtain ⟨events, hevents⟩ := hfirst.run
          obtain ⟨later, hlater⟩ := answers_run hrest
          have hm : Sound digestOf storeRoot m := hs.run hhex hevents
          obtain ⟨hcontents, hputs, hretained⟩ := ih hm hrest hothers
          have hentry := (Answers.retained hhex hs hfirst).later hhex hm hlater
          refine ⟨?_, ?_, .cons hentry hretained⟩
          · exact hcontents
          · show entry.bytes :: puts before = _
            rw [hputs, map_cons]

end Deposits

section Passes
variable {digestOf : Bytes → String} {root : String} {s t : Store} {calls : List (Exchange Gate)}
  {options : CommandExitValidatorOptions} {binding : TrustedCommandBinding}
  {artifactRoot : JsText} {evidence : List ArtifactEvidence}
variable {refs : List JsText} {before : List Bytes}

theorem entriesOf_bytes {bytes : List Bytes} (h : bytes.length = refs.length) :
    (entriesOf digestOf refs bytes).map RevisionEntry.bytes = bytes := by
  induction refs generalizing bytes with
  | nil =>
    rw [length_eq_zero_iff.1 h]
    rfl
  | cons ref refs ih =>
    cases bytes with
    | nil => cases h
    | cons first bytes => exact congrArg (first :: ·) (ih (Nat.succ.inj h))

theorem sameRevisions_digests {after : List Bytes} (hbefore : before.length = refs.length)
    (hafter : after.length = refs.length)
    (h : sameRevisions (entriesOf digestOf refs before) (entriesOf digestOf refs after) = true) :
    before.map digestOf = after.map digestOf := by
  induction refs generalizing before after with
  | nil =>
    rw [length_eq_zero_iff.1 hbefore, length_eq_zero_iff.1 hafter]
  | cons ref refs ih =>
    cases before with
    | nil => cases hbefore
    | cons first before =>
      cases after with
      | nil => cases hafter
      | cons other after =>
        simp only [sameRevisions, entriesOf, zipWith_cons_cons, length_cons,
          zip_cons_cons, all_cons, Bool.and_eq_true, decide_eq_true_eq] at h
        obtain ⟨hlength, ⟨⟨-, hdigest⟩, -⟩, hrest⟩ := h
        have htail : before.map digestOf = after.map digestOf := by
          apply ih (Nat.succ.inj hbefore) (Nat.succ.inj hafter)
          simp only [sameRevisions, entriesOf, Bool.and_eq_true]
          exact ⟨decide_eq_true (Nat.succ.inj (of_decide_eq_true hlength)), hrest⟩
        have hhead : digestOf first = digestOf other := hdigest
        rw [map_cons, map_cons, hhead, htail]

theorem eq_of_digests {seen : Set Bytes} (hcollision : Set.InjOn digestOf seen) {after : List Bytes}
    (hbefore : ∀ b ∈ before, b ∈ seen) (hafter : ∀ b ∈ after, b ∈ seen)
    (h : before.map digestOf = after.map digestOf) : before = after := by
  induction before generalizing after with
  | nil => exact (map_eq_nil_iff.1 h.symm).symm
  | cons first before ih =>
    cases after with
    | nil => cases h
    | cons other after =>
      obtain ⟨hhead, htail⟩ := List.cons.inj h
      have hfirst : first = other :=
        hcollision (hbefore first (.head _)) (hafter other (.head _))
          hhead
      rw [hfirst, ih (fun b hb => hbefore b (.tail _ hb))
        (fun b hb => hafter b (.tail _ hb)) htail]

theorem retained_evidence {bytes : List Bytes}
    (hcollision : Set.InjOn digestOf (occurring root t ∪ { b | b ∈ bytes }))
    (hhex : ∀ bytes, isDigest (digestOf bytes).toList = true) (hlength : bytes.length = refs.length)
    (h : Forall₂ (Retained digestOf root t) (entriesOf digestOf refs bytes) evidence) :
    evidence = zipWith (evidenceFor digestOf) refs bytes ∧
      ∀ b ∈ bytes, stored root t.disk (artifactIdOf (digestOf b)) = some b := by
  induction refs generalizing bytes evidence with
  | nil =>
    obtain rfl := length_eq_zero_iff.1 hlength
    cases h
    exact ⟨rfl, forall_mem_nil _⟩
  | cons ref refs ih =>
    cases bytes with
    | nil => cases hlength
    | cons first bytes =>
      cases h with
      | @cons _ retained _ others hfirst hothers =>
        have hsub : Set.InjOn digestOf (occurring root t ∪ { b | b ∈ bytes }) := by
          apply hcollision.mono
          rintro b (hb | hb)
          · exact .inl hb
          · exact .inr (.tail _ hb)
        obtain ⟨hrest, hstoredRest⟩ := ih hsub (Nat.succ.inj hlength) hothers
        obtain ⟨href, hdigest, hid, kept, hstored, hsame, hsize⟩ := hfirst
        have hkept : kept = first := by
          apply hcollision
          · exact .inl (.inl ⟨_, isArtifactId_artifactIdOf (hhex first), hstored⟩)
          · exact .inr (.head _)
          · exact hsame
        subst hkept
        refine ⟨?_, ?_⟩
        · rw [zipWith_cons_cons, ← hrest]
          congr 1
          obtain ⟨_, _, _, _⟩ := retained
          cases href
          cases hdigest
          cases hid
          cases hsize
          rfl
        · intro b hb
          rcases mem_cons.1 hb with rfl | hb
          · exact hstored
          · exact hstoredRest b hb

variable (hhex : ∀ bytes, isDigest (digestOf bytes).toList = true)
include hhex

theorem judge_passes {storeRoot : String} {exitCode : Option Double} {signal : Option JsText}
    (hs : Sound digestOf root s) (hrun : Run (Answers digestOf root) s calls t)
    (hcollision : Set.InjOn digestOf (occurring root t ∪ { b | b ∈ before ∨ b ∈ contents calls }))
    (hlength : before.length = binding.artifactRefs.length)
    (h : (judge options binding digestOf storeRoot artifactRoot
      (entriesOf digestOf binding.artifactRefs before) exitCode signal).Returns calls
        (.pass evidence)) :
    (∃ code, exitCode = some code ∧ signal = none ∧ code.value = binding.expectExitCode.value) ∧
      before = contents calls ∧ puts calls = contents calls ∧
      evidence = zipWith (evidenceFor digestOf) binding.artifactRefs (contents calls) ∧
      ∀ bytes ∈ contents calls,
        stored root t.disk (artifactIdOf (digestOf bytes)) = some bytes := by
  unfold judge at h
  obtain ⟨first, read, rest, rfl, hread, hjudged⟩ := Program.returns_bind.1 h
  obtain ⟨hputs, hok⟩ := readRevisions_returns hread
  cases read with
  | error reason => cases (record_pass hjudged).1
  | ok entries =>
    obtain ⟨-, hlength', hentries⟩ := hok entries rfl
    subst hentries
    dsimp only at hjudged
    split at hjudged
    · next hsame =>
      split at hjudged
      · next code =>
        split at hjudged
        · next hcode =>
          obtain ⟨second, deposited, last, rfl, hdeposit, hrecord⟩ := Program.returns_bind.1 hjudged
          cases deposited with
          | error reason => cases (record_pass hrecord).1
          | ok retained =>
            obtain ⟨-, rfl, hlastPuts, hlastContents⟩ := record_pass hrecord
            obtain ⟨m, hreading, hrest⟩ := hrun.split
            obtain ⟨n, hdeposits, hlast⟩ := hrest.split
            obtain ⟨events, hevents⟩ := answers_run hreading
            obtain ⟨during, hduring⟩ := answers_run hdeposits
            obtain ⟨later, hlater⟩ := answers_run hlast
            have hm : Sound digestOf root m := hs.run hhex hevents
            have hn : Sound digestOf root n := hm.run hhex hduring
            obtain ⟨hnone, hbytes, hkept⟩ := depositRevisions_retained hhex hm hdeposits hdeposit
            have hcontents : contents (first ++ (second ++ last)) = contents first := by
              rw [contents_append, contents_append, hnone, hlastContents, append_nil, append_nil]
            have hput : puts (first ++ (second ++ last)) = contents first := by
              rw [puts_append, puts_append, hputs, hbytes, hlastPuts, append_nil,
                nil_append, entriesOf_bytes hlength']
            rw [hcontents] at hcollision ⊢
            have hequal : before = contents first :=
              eq_of_digests hcollision (fun b hb => .inr (.inl hb)) (fun b hb => .inr (.inr hb))
                (sameRevisions_digests hlength hlength' hsame)
            have hsub : Set.InjOn digestOf (occurring root t ∪ { b | b ∈ contents first }) := by
              apply hcollision.mono
              rintro b (hb | hb)
              · exact .inl hb
              · exact .inr (.inr hb)
            have hlast : Forall₂ (Retained digestOf root t)
                (entriesOf digestOf binding.artifactRefs (contents first)) evidence :=
              hkept.imp fun entry evidence hentry => hentry.later hhex hn hlater
            obtain ⟨hevidence, hstored⟩ := retained_evidence hsub hhex hlength' hlast
            exact ⟨⟨code, rfl, rfl, hcode⟩, hequal, hput, hevidence, hstored⟩
        · cases (record_pass hjudged).1
      · cases (record_pass hjudged).1
    · cases (record_pass hjudged).1

theorem checkCommand_passes {storeRoot : String} (hs : Sound digestOf root s)
    (hrun : Run (Answers digestOf root) s calls t)
    (hcollision : Set.InjOn digestOf (occurring root t ∪ { b | b ∈ contents calls }))
    (h : (checkCommand options binding digestOf storeRoot artifactRoot).Returns calls
      (.pass evidence)) :
    (∀ ref ∈ binding.artifactRefs, nul ∉ ref) ∧
      ∃ before exchange after exitCode, calls = before ++ exchange :: after ∧
        Ran binding exitCode exchange ∧ exitCode.value = binding.expectExitCode.value ∧
        contents before = contents after ∧ puts before = [] ∧ puts after = contents after ∧
        (contents after).length = binding.artifactRefs.length ∧
        evidence = zipWith (evidenceFor digestOf) binding.artifactRefs (contents after) ∧
        ∀ bytes ∈ contents after,
          stored root t.disk (artifactIdOf (digestOf bytes)) = some bytes := by
  unfold checkCommand at h
  obtain ⟨before, read, rest, rfl, hread, hrest⟩ := Program.returns_bind.1 h
  obtain ⟨hputs, hok⟩ := readRevisions_returns hread
  cases read with
  | error reason => cases (record_pass hrest).1
  | ok entries =>
    obtain ⟨hnuls, hlength, hentries⟩ := hok entries rfl
    subst hentries
    obtain ⟨middle, result, after, rfl, hcommand, hjudged⟩ := Program.returns_bind.1 hrest
    obtain ⟨hquietPuts, hquiet, hran⟩ := runCommand_returns hcommand
    match result with
    | .error error => cases (record_pass hjudged).1
    | .ok (.unavailable reason) => cases (record_pass hjudged).1
    | .ok (.exited exitCode signal) =>
      obtain ⟨m, hreading, hmore⟩ := hrun.split
      obtain ⟨n, hrunning, hlast⟩ := hmore.split
      obtain ⟨events, hevents⟩ := answers_run hreading
      obtain ⟨during, hduring⟩ := answers_run hrunning
      have hn : Sound digestOf root n := (hs.run hhex hevents).run hhex hduring
      have hseen : Set.InjOn digestOf
          (occurring root t ∪ { b | b ∈ contents before ∨ b ∈ contents after }) := by
        apply hcollision.mono
        rintro b (hb | hb)
        · exact .inl hb
        refine .inr ?_
        show b ∈ contents (before ++ (middle ++ after))
        rw [contents_append, contents_append, hquiet]
        exact mem_append.2 hb
      obtain ⟨⟨code, rfl, rfl, hcode⟩, hequal, hput, hevidence, hstored⟩ :=
        judge_passes hhex hn hlast hseen hlength hjudged
      obtain ⟨exchange, rfl, hexchange⟩ := hran code rfl
      exact ⟨hnuls, before, exchange, after, code, rfl, hexchange, hcode, hequal, hputs, hput,
        hequal ▸ hlength, hevidence, hstored⟩

end Passes

section Safety
variable {digestOf : Bytes → String} {root : String} {parseError : List Char → JsText}
  {policy : Option (List Char)} {request : ValidatorRequest}

def installedValidator (digestOf : Bytes → String) (options : CommandExitValidatorOptions)
    (request : ValidatorRequest) : Program Gate ValidationOutcome :=
  match (options.commands.map fun b => (b.key, b)).lookup
      (commandMappingKey request.toCompletionPolicyMapping) with
  | none => pure (.indeterminate (unauthorizedReason request.toCompletionPolicyMapping))
  | some binding =>
    match options.artifactStoreRoot with
    | none => record options binding [] none none .indeterminate noStoreReason
    | some storeRoot => checkCommand options binding digestOf storeRoot request.artifactRoot

theorem createCommandExitValidator_ok {options : CommandExitValidatorOptions}
    (h : options.commands = (readTrustedCommandPolicy parseError policy).bindings) :
    createCommandExitValidator options digestOf = .ok (installedValidator digestOf options) := by
  unfold createCommandExitValidator
  rw [h, installed_ok, ok_bind]
  unfold installedValidator
  rw [h]
  rfl

theorem ambiguous_none {entries : List JsValue} {i j : Nat} {first second : JsValue}
    {one other binding : TrustedCommandBinding} (hij : i ≠ j) (hfirst : entries[i]? = some first)
    (hsecond : entries[j]? = some second) (hone : readCommandBinding first = .ok one)
    (hother : readCommandBinding second = .ok other)
    (hsame : one.toCompletionPolicyMapping = other.toCompletionPolicyMapping)
    (hbinding : binding ∈ (installCommands entries).bindings) :
    binding.toCompletionPolicyMapping ≠ one.toCompletionPolicyMapping := by
  intro hmapping
  have halone := mem_installed.1 hbinding
  have hkey : one.key = binding.key := congrArg commandMappingKey hmapping.symm
  have hkey' : other.key = binding.key := (congrArg commandMappingKey hsame).symm.trans hkey
  rw [wellFormed, filter_filterMap] at halone
  have hkept : ∀ {entry : JsValue} {b : TrustedCommandBinding}, readCommandBinding entry = .ok b →
      b.key = binding.key → (readCommandBinding entry).toOption.filter
        (fun b => decide (b.key = binding.key)) = some b := by
    intro entry b hread hb
    rw [hread]
    exact Option.filter_some_pos (decide_eq_true hb)
  exact filterMap_ne_singleton hij hfirst hsecond (hkept hone hkey) (hkept hother hkey') halone

theorem Unmistakable.gateSafe (hhex : ∀ bytes, isDigest (digestOf bytes).toList = true)
    (h : Unmistakable policy request) : GateSafe digestOf root parseError policy request where
  constructs := fun options hoptions => ⟨_, createCommandExitValidator_ok hoptions⟩
  ambiguous := by
    intro i j first second one other hij hfirst hsecond hone hother hsame binding hbinding
    rw [readTrustedCommandPolicy_bindings] at hbinding
    exact ambiguous_none hij hfirst hsecond hone hother hsame hbinding
  passes := by
    intro options validator d before s calls t evidence hoptions hvalidator hroot hbefore hrun
      hcollision hpass
    have hs : Sound digestOf root s := (sound_opened d).run hhex hbefore
    rw [createCommandExitValidator_ok hoptions] at hvalidator
    cases hvalidator
    unfold installedValidator at hpass
    split at hpass
    · obtain ⟨-, hevidence⟩ := Program.returns_pure.1 hpass
      cases hevidence
    · next binding hlookup =>
      split at hpass
      · cases (record_pass hpass).1
      next storeRoot hstore =>
      obtain ⟨hmem, hkey⟩ := lookup_bindings hlookup
      have hseen : Set.InjOn digestOf (occurring root t ∪ { b | b ∈ contents calls }) := hcollision
      obtain ⟨hnuls, first, exchange, after, code, hcalls, hran, hcode, hequal, hputs, hput,
        hlength, hevidence, hstored⟩ := checkCommand_passes hhex hs hrun hseen hpass
      have hinstalled : binding ∈ (installCommands (configured policy)).bindings := by
        rw [← readTrustedCommandPolicy_bindings parseError policy, ← hoptions]
        exact hmem
      have hmapping := h binding (installed_wellFormed hinstalled) (mem_installed.1 hinstalled)
        hkey hnuls
      have hnodup : (options.commands.map TrustedCommandBinding.key).Nodup := by
        rw [hoptions, readTrustedCommandPolicy_bindings]
        exact installed_nodup _
      refine ⟨binding, first, exchange, after, code, ?_, hcalls, hran, hcode, hequal, hputs,
        hput, hlength, hevidence, hstored⟩
      rw [← hmapping]
      exact filter_mapping hnodup hmem

end Safety

end Rolebox.Policy
