import Rolebox.Policy.GateSafety

/-! A mapping mistaken for another: ids with a NUL share a key, and the gate passes wrongly. -/

namespace Rolebox.Policy
open General Artifacts List Function

section Blank
variable {digestOf : Bytes → String} {root : String}

def blankCall (phase : Phase) : Call := { bytes := [], phase := phase }

def blankAnswer (digestOf : Bytes → String) : ArtifactDepositResult :=
  .deposited (artifactIdOf (digestOf [])) (digestOf []) 0

def blankObject (digestOf : Bytes → String) (root : String) : String :=
  artifactObjectPath root (artifactIdOf (digestOf []))

structure Blank (digestOf : Bytes → String) (root : String) (s : Store) : Prop where
  nodes : ∀ name node, s.disk.node name = some node →
    name = blankObject digestOf root ∧ node = .file 0
  data : s.disk.data 0 = []
  calls : ∀ c ∈ s.calls, c.bytes = []

def blankDisk : Files := { node := fun _ => none, data := fun _ => [], nlink := fun _ => 0 }

theorem blank_opened : Blank digestOf root (opened blankDisk) where
  nodes := nofun
  data := rfl
  calls := forall_mem_nil _

theorem Blank.occurring {s : Store} (h : Blank digestOf root s) {bytes : Bytes}
    (hbytes : bytes ∈ occurring root s) : bytes = [] := by
  rcases hbytes with ⟨artifactId, -, hstored⟩ | ⟨c, hc, rfl⟩
  · obtain ⟨inode, hstat, hdata⟩ := Option.map_eq_some_iff.1 hstored
    obtain ⟨last, hlast, -⟩ := Disk.stat_some hstat
    have hinode : inode = 0 := by
      have hfile := (h.nodes last _ hlast).2
      cases hfile
      rfl
    rw [hinode, h.data] at hdata
    exact hdata.symm
  · exact h.calls c hc

theorem step_last {d d' : Files} {cs : List Call} {c : Call} {drawn : List String}
    {event : CallEvent} {phase : Phase} (h : CallStep digestOf root d c event d' phase) :
    Step digestOf root { disk := d, calls := cs ++ [c], drawn := drawn } (.call cs.length event)
      { disk := d', calls := cs ++ [{ c with phase := phase }]
        drawn := event.drawn root ++ drawn } := by
  have hcall : (cs ++ [c])[cs.length]? = some c := getElem?_concat_length ..
  have hset : (cs ++ [c]).set cs.length { c with phase := phase } =
      cs ++ [{ c with phase := phase }] := by
    rw [set_append_right _ _ (le_refl _), Nat.sub_self]
    rfl
  rw [← hset]
  exact .call hcall h

theorem run_linking {d : Files} {inode : Nat} (cs : List Call) (drawn : List String)
    (hnew : d.node (temporaryPath root "0") = none)
    (hdrawn : ∀ name, d.node name ≠ some (.link (temporaryPath root "0")))
    (hinode : ∀ name, d.node name ≠ some (.file inode)) :
    Run (Step digestOf root)
      { disk := d, calls := cs ++ [blankCall .creatingDirectory], drawn := drawn }
      [.call cs.length (.directory none), .call cs.length (.opened "0" inode),
        .call cs.length .closed]
      { disk := d.create (temporaryPath root "0") inode []
        calls := cs ++ [blankCall (.linking (temporaryPath root "0") inode)]
        drawn := temporaryPath root "0" :: drawn } := by
  refine .cons (step_last (.directory rfl)) ?_
  refine .cons (step_last (.opened rfl "0" inode hnew hdrawn hinode)) ?_
  refine .cons (step_last (.closed rfl)) ?_
  exact .nil _

variable (hhex : ∀ bytes, isDigest (digestOf bytes).toList = true)
include hhex

theorem Blank.deposit {s : Store} (h : Blank digestOf root s) :
    ∃ t, Answers digestOf root s ⟨.putArtifact root [], blankAnswer digestOf⟩ t ∧
      Blank digestOf root t := by
  obtain ⟨d, cs, drawn⟩ := s
  have hid : isArtifactId (artifactIdOf (digestOf [])) = true := isArtifactId_artifactIdOf (hhex [])
  have hne : blankObject digestOf root ≠ temporaryPath root "0" :=
    artifactObjectPath_ne_temporaryPath hid "0"
  have hnew : d.node (temporaryPath root "0") = none := by
    cases hnode : d.node (temporaryPath root "0") with
    | none => rfl
    | some node => exact absurd (h.nodes _ _ hnode).1.symm hne
  have hdrawn : ∀ name, d.node name ≠ some (.link (temporaryPath root "0")) := by
    intro name hlink
    cases (h.nodes _ _ hlink).2
  have hcalls : ∀ c ∈ cs ++ [blankCall (.answered (blankAnswer digestOf))], c.bytes = [] := by
    intro c hc
    rcases mem_append.1 hc with hold | hlast
    · exact h.calls c hold
    · rw [mem_singleton.1 hlast]
      rfl
  have hanswered : ∀ {e : Files} {events : List Event} {drawn' : List String},
      Run (Step digestOf root)
        { disk := d, calls := cs ++ [blankCall .creatingDirectory], drawn := drawn } events
        { disk := e, calls := cs ++ [blankCall (.answered (blankAnswer digestOf))]
          drawn := drawn' } →
      (∀ name node, e.node name = some node →
        name = blankObject digestOf root ∧ node = .file 0) → e.data 0 = [] →
      ∃ t, Answers digestOf root { disk := d, calls := cs, drawn := drawn }
        ⟨.putArtifact root [], blankAnswer digestOf⟩ t ∧ Blank digestOf root t := by
    intro e events drawn' hrun hnodes hdata
    exact ⟨_, .deposit (.nil _) (.cons (.start []) hrun) (getElem?_concat_length ..),
      hnodes, hdata, hcalls⟩
  cases hobject : d.node (blankObject digestOf root) with
  | none =>
    -- the first deposit publishes its temporary file
    have hinode : ∀ name, d.node name ≠ some (.file 0) := by
      intro name hfile
      rw [(h.nodes _ _ hfile).1, hobject] at hfile
      cases hfile
    obtain ⟨e, he⟩ : ∃ e, (d.create (temporaryPath root "0") 0 []).link (temporaryPath root "0")
        (blankObject digestOf root) = some e := by
      simp [Disk.link, Disk.create, update_of_ne hne, hobject]
    refine hanswered ((run_linking cs drawn hnew hdrawn hinode).append
      (.cons (step_last (.linked rfl he))
        (.cons (step_last (.discarded rfl true)) (.nil _)))) ?_ ?_
    all_goals
      simp only [Disk.link, Disk.create, update_self, update_of_ne hne,
        hobject, Option.some.injEq] at he
      subst he
    · intro name node hnode
      by_cases htemp : name = temporaryPath root "0"
      · simp [Disk.unlink, htemp] at hnode
      by_cases hname : name = blankObject digestOf root
      · refine ⟨hname, ?_⟩
        simp [Disk.unlink, hname, hne] at hnode
        exact hnode.symm
      · simp [Disk.unlink, htemp, hname] at hnode
        exact h.nodes name node hnode
    · simp [Disk.unlink]
  | some node =>
    -- every later deposit finds the object and verifies it
    obtain rfl : node = .file 0 := (h.nodes _ _ hobject).2
    have hdata : d.data 0 = [] := h.data
    have hinode : ∀ name, d.node name ≠ some (.file 1) := by
      intro name hfile
      cases (h.nodes _ _ hfile).2
    have hread : ((d.create (temporaryPath root "0") 1 []).unlink (temporaryPath root "0")).read
        (blankObject digestOf root) = some [] := by
      have hstat : ((d.create (temporaryPath root "0") 1 []).unlink
          (temporaryPath root "0")).stat (blankObject digestOf root) = some 0 := by
        simp [Disk.stat, Disk.unlink, Disk.create, update_of_ne hne, hobject]
      rw [Disk.read, hstat]
      simp [Disk.unlink, Disk.create, hdata]
    have hverified : verifyExisting digestOf root
        ((d.create (temporaryPath root "0") 1 []).unlink (temporaryPath root "0")) false
        (blankCall .verifying) = blankAnswer digestOf := by
      have hfound : readArtifactById digestOf root
          ((d.create (temporaryPath root "0") 1 []).unlink (temporaryPath root "0")) false
          (artifactIdOf (digestOf [])) = .read [] (digestOf []) := by
        unfold readArtifactById
        rw [if_pos hid]
        simp only [Bool.false_eq_true, if_false]
        rw [show artifactObjectPath root (artifactIdOf (digestOf [])) =
          blankObject digestOf root from rfl, hread]
        simp only [if_true]
      unfold verifyExisting
      rw [show Call.artifactId digestOf (blankCall .verifying) = artifactIdOf (digestOf [])
        from rfl, hfound]
      rfl
    refine hanswered ((run_linking cs drawn hnew hdrawn hinode).append
      (.cons (step_last (.linkFailed rfl (some "EEXIST") ""))
        (.cons (step_last (.discarded rfl true))
          (.cons (hverified ▸ step_last (.verified rfl false)) (.nil _))))) ?_ ?_
    · intro name node hnode
      by_cases htemp : name = temporaryPath root "0"
      · simp [Disk.unlink, htemp] at hnode
      · simp [Disk.unlink, Disk.create, htemp] at hnode
        exact h.nodes name node hnode
    · simp [Disk.unlink, Disk.create, hdata]

end Blank

section Mistaken
variable {digestOf : Bytes → String} {root : String} {artifactRoot : JsText}

def blankReading (artifactRoot ref : JsText) : List (Exchange Gate) :=
  [⟨.realpath artifactRoot, .ok [slash]⟩,
    ⟨.realpath (resolve [slash] ref), .ok (resolve [slash] ref)⟩,
    ⟨.isFile (resolve [slash] ref), .ok true⟩, ⟨.readFile (resolve [slash] ref), .ok []⟩]

def blankEntry (digestOf : Bytes → String) (ref : JsText) : RevisionEntry where
  evidence := evidenceFor digestOf ref []
  bytes := []

theorem isInside_slash (ref : JsText) : isInside [slash] (resolve [slash] ref) = true := by
  have hhead : ∀ path, isInside [slash] (normalize path) = true := by
    intro path
    simp [isInside, normalize, List.isPrefixOf]
  unfold resolve
  split
  · exact hhead _
  · exact hhead _

theorem readArtifact_blank {ref : JsText} (href : ref ≠ []) (hnul : nul ∉ ref) :
    (readArtifact digestOf artifactRoot ref).Returns (blankReading artifactRoot ref)
      (.read (evidenceFor digestOf ref []) []) := by
  unfold readArtifact
  rw [if_neg (by simp [href, hnul])]
  refine Program.returns_ask_bind.2 ⟨_, _, rfl, ?_⟩
  show Program.Returns (if _ then _ else _) _ _
  rw [if_pos (isInside_slash ref)]
  refine Program.returns_ask_bind.2 ⟨_, _, rfl, ?_⟩
  show Program.Returns (if _ then _ else _) _ _
  rw [if_pos (isInside_slash ref)]
  refine Program.returns_ask_bind.2 ⟨_, _, rfl, ?_⟩
  refine Program.returns_ask_bind.2 ⟨_, _, rfl, ?_⟩
  exact Program.returns_pure.2 ⟨rfl, rfl⟩

theorem readRevisions_blank {refs : List JsText} (hrefs : ∀ ref ∈ refs, ref ≠ [] ∧ nul ∉ ref) :
    (readRevisions digestOf artifactRoot refs).Returns (refs.flatMap (blankReading artifactRoot))
      (.ok (refs.map (blankEntry digestOf))) := by
  induction refs with
  | nil => exact Program.returns_pure.2 ⟨rfl, rfl⟩
  | cons ref refs ih =>
    obtain ⟨href, hnul⟩ := hrefs ref (.head _)
    have hrest := ih fun other hother => hrefs other (.tail _ hother)
    unfold readRevisions
    refine Program.returns_bind.2 ⟨_, _, _, flatMap_cons .., readArtifact_blank href hnul, ?_⟩
    refine Program.returns_bind.2 ⟨_, _, _, (append_nil _).symm, hrest, ?_⟩
    exact Program.returns_pure.2 ⟨rfl, rfl⟩

theorem depositRevisions_blank (refs : List JsText) :
    (depositRevisions root (refs.map (blankEntry digestOf))).Returns
      (refs.map fun _ => ⟨.putArtifact root [], blankAnswer digestOf⟩)
      (.ok (refs.map fun ref => evidenceFor digestOf ref [])) := by
  induction refs with
  | nil => exact Program.returns_pure.2 ⟨rfl, rfl⟩
  | cons ref refs ih =>
    refine Program.returns_ask_bind.2 ⟨_, _, rfl, ?_⟩
    refine Program.returns_bind.2 ⟨_, _, _, (append_nil _).symm, ih, ?_⟩
    exact Program.returns_pure.2 ⟨rfl, rfl⟩

theorem sameRevisions_self (entries : List RevisionEntry) : sameRevisions entries entries = true := by
  have hzip : entries.zip entries = entries.map fun entry => (entry, entry) := by
    rw [List.zip, zipWith_self]
  simp [sameRevisions, hzip]

def blankOptions (bindings : List TrustedCommandBinding) (root : String) :
    CommandExitValidatorOptions where
  commands := bindings
  run := true
  onCheck := false
  artifactStoreRoot := some root

def blankCheck (digestOf : Bytes → String) (root : String) (binding : TrustedCommandBinding)
    (artifactRoot : JsText) : List (Exchange Gate) :=
  binding.artifactRefs.flatMap (blankReading artifactRoot) ++
    (⟨.run binding.argv binding.cwd binding.timeoutMs,
        .ok (.exited (some binding.expectExitCode) none)⟩ ::
      (binding.artifactRefs.flatMap (blankReading artifactRoot) ++
        binding.artifactRefs.map fun _ => ⟨.putArtifact root [], blankAnswer digestOf⟩))

theorem checkCommand_blank {binding : TrustedCommandBinding} (bindings : List TrustedCommandBinding)
    (hrefs : ∀ ref ∈ binding.artifactRefs, ref ≠ [] ∧ nul ∉ ref) :
    (checkCommand (blankOptions bindings root) binding digestOf root artifactRoot).Returns
      (blankCheck digestOf root binding artifactRoot)
      (.pass (binding.artifactRefs.map fun ref => evidenceFor digestOf ref [])) := by
  unfold checkCommand blankCheck
  refine Program.returns_bind.2 ⟨_, _, _, rfl, readRevisions_blank hrefs, ?_⟩
  refine Program.returns_ask_bind.2 ⟨_, _, rfl, ?_⟩
  show (judge _ _ _ _ _ _ _ _).Returns _ _
  unfold judge
  refine Program.returns_bind.2 ⟨_, _, _, rfl, readRevisions_blank hrefs, ?_⟩
  dsimp only
  rw [if_pos (sameRevisions_self _), if_pos rfl]
  refine Program.returns_bind.2 ⟨_, _, _, (append_nil _).symm, depositRevisions_blank _, ?_⟩
  exact Program.returns_pure.2 ⟨rfl, rfl⟩

theorem answers_quiet {calls : List (Exchange Gate)}
    (h : ∀ exchange ∈ calls, ∀ storeRoot bytes, exchange.call ≠ .putArtifact storeRoot bytes)
    (s : Store) : Run (Answers digestOf root) s calls s := by
  induction calls with
  | nil => exact .nil s
  | cons exchange calls ih =>
    refine .cons (.other (h exchange (.head _)) (.nil s)) ?_
    exact ih fun other hother => h other (.tail _ hother)

theorem blankReading_quiet (refs : List JsText) : ∀ exchange ∈
    refs.flatMap (blankReading artifactRoot), ∀ storeRoot bytes,
      exchange.call ≠ .putArtifact storeRoot bytes := by
  intro exchange hexchange storeRoot bytes hcall
  obtain ⟨ref, -, hmem⟩ := mem_flatMap.1 hexchange
  simp only [blankReading, mem_cons, not_mem_nil, or_false] at hmem
  rcases hmem with rfl | rfl | rfl | rfl <;> cases hcall

theorem contents_blank (refs : List JsText) :
    ∀ bytes ∈ contents (refs.flatMap (blankReading artifactRoot)), bytes = [] := by
  induction refs with
  | nil => exact forall_mem_nil _
  | cons ref refs ih =>
    intro bytes hbytes
    rw [flatMap_cons, contents_append] at hbytes
    rcases mem_append.1 hbytes with hfirst | hrest
    · exact mem_singleton.1 hfirst
    · exact ih bytes hrest

theorem contents_check (binding : TrustedCommandBinding) :
    ∀ bytes ∈ contents (blankCheck digestOf root binding artifactRoot), bytes = [] := by
  intro bytes hbytes
  have hdeposits : contents (binding.artifactRefs.map fun _ =>
      (⟨.putArtifact root [], blankAnswer digestOf⟩ : Exchange Gate)) = [] := by
    rw [contents, filterMap_map]
    exact filterMap_eq_nil_iff.2 fun _ _ => rfl
  rw [blankCheck, contents_append] at hbytes
  rcases mem_append.1 hbytes with hfirst | hrest
  · exact contents_blank _ bytes hfirst
  have hsecond : bytes ∈ contents (binding.artifactRefs.flatMap (blankReading artifactRoot) ++
      binding.artifactRefs.map fun _ => ⟨.putArtifact root [], blankAnswer digestOf⟩) := hrest
  rw [contents_append, hdeposits, append_nil] at hsecond
  exact contents_blank _ bytes hsecond

variable (hhex : ∀ bytes, isDigest (digestOf bytes).toList = true)
include hhex

theorem Blank.deposits (refs : List JsText) {s : Store} (h : Blank digestOf root s) :
    ∃ t, Run (Answers digestOf root) s
      (refs.map fun _ => ⟨.putArtifact root [], blankAnswer digestOf⟩) t ∧
        Blank digestOf root t := by
  induction refs generalizing s with
  | nil => exact ⟨s, .nil s, h⟩
  | cons ref refs ih =>
    obtain ⟨m, hfirst, hm⟩ := h.deposit hhex
    obtain ⟨t, hrest, ht⟩ := ih hm
    exact ⟨t, .cons hfirst hrest, ht⟩

theorem answers_blank (binding : TrustedCommandBinding) (artifactRoot : JsText) :
    ∃ t, Run (Answers digestOf root) (opened blankDisk)
      (blankCheck digestOf root binding artifactRoot) t ∧ Blank digestOf root t := by
  obtain ⟨t, hdeposits, ht⟩ := blank_opened.deposits hhex binding.artifactRefs
  refine ⟨t, ?_, ht⟩
  unfold blankCheck
  refine (answers_quiet (blankReading_quiet _) _).append (.cons (.other ?_ (.nil _)) ?_)
  · intro _ _ hcall
    cases hcall
  · exact (answers_quiet (blankReading_quiet _) _).append hdeposits

end Mistaken

section Exactness
variable {digestOf : Bytes → String} {root : String} {parseError : List Char → JsText}
  {policy : Option (List Char)} {request : ValidatorRequest}

theorem asserted_refs {binding : TrustedCommandBinding}
    (h : assertCommandBinding binding = .ok ()) : ∀ ref ∈ binding.artifactRefs, ref ≠ [] := by
  simp only [assertCommandBinding, bind_eq_ok] at h
  obtain ⟨_, -, _, -, _, -, _, -, _, -, _, -, _, -, _, -, _, -, hrefs⟩ := h
  unfold check at hrefs
  split at hrefs
  · next hall =>
    intro ref href
    exact of_decide_eq_true (all_eq_true.1 hall ref href)
  · cases hrefs

theorem GateSafe.unmistakable (hhex : ∀ bytes, isDigest (digestOf bytes).toList = true)
    (h : GateSafe digestOf root parseError policy request) : Unmistakable policy request := by
  intro binding hmem halone hkey hnuls
  have hinstalled : binding ∈ (readTrustedCommandPolicy parseError policy).bindings := by
    rw [readTrustedCommandPolicy_bindings]
    exact mem_installed.2 halone
  have hnodup : ((readTrustedCommandPolicy parseError policy).bindings.map
      TrustedCommandBinding.key).Nodup := by
    rw [readTrustedCommandPolicy_bindings]
    exact installed_nodup _
  have hrefs : ∀ ref ∈ binding.artifactRefs, ref ≠ [] ∧ nul ∉ ref := fun ref href =>
    ⟨asserted_refs (wellFormed_asserted hmem) ref href, hnuls ref href⟩
  have hlookup : ((readTrustedCommandPolicy parseError policy).bindings.map
      fun b => (b.key, b)).lookup (commandMappingKey request.toCompletionPolicyMapping) =
        some binding := by
    rw [lookup_key, ← hkey]
    apply lookup_of_mem
    · rw [map_map]
      exact hnodup
    · exact mem_map.2 ⟨binding, hinstalled, rfl⟩
  have hblank : ∃ t, Run (Answers digestOf root) (opened blankDisk)
      (blankCheck digestOf root binding request.artifactRoot) t ∧ Blank digestOf root t :=
    answers_blank hhex binding request.artifactRoot
  obtain ⟨t, hrun, ht⟩ := hblank
  have hcollision : Set.InjOn digestOf (occurring root t ∪
      { bytes | bytes ∈ contents (blankCheck digestOf root binding request.artifactRoot) }) := by
    have hempty : ∀ bytes ∈ occurring root t ∪
        { bytes | bytes ∈ contents (blankCheck digestOf root binding request.artifactRoot) },
          bytes = [] := by
      rintro bytes (hbytes | hbytes)
      · exact ht.occurring hbytes
      · exact contents_check _ bytes hbytes
    intro one hone other hother _
    rw [hempty one hone, hempty other hother]
  have hpass : (installedValidator digestOf
      (blankOptions (readTrustedCommandPolicy parseError policy).bindings root) request).Returns
        (blankCheck digestOf root binding request.artifactRoot)
        (.pass (binding.artifactRefs.map fun ref => evidenceFor digestOf ref [])) := by
    unfold installedValidator
    rw [show (blankOptions (readTrustedCommandPolicy parseError policy).bindings root).commands =
      (readTrustedCommandPolicy parseError policy).bindings from rfl, hlookup]
    exact checkCommand_blank _ hrefs
  obtain ⟨authorized, -, -, -, -, hfilter, -⟩ :=
    h.passes (blankOptions (readTrustedCommandPolicy parseError policy).bindings root) _ blankDisk
      [] (opened blankDisk) _ t _ rfl (createCommandExitValidator_ok rfl) (by simp [blankOptions])
      (.nil _) hrun hcollision hpass
  -- the one command of the request's mapping has the request's key, so it is the one that ran
  have hauthorized : authorized ∈ (readTrustedCommandPolicy parseError policy).bindings.filter
      fun b => decide (b.toCompletionPolicyMapping = request.toCompletionPolicyMapping) := by
    rw [show (readTrustedCommandPolicy parseError policy).bindings = (blankOptions
      (readTrustedCommandPolicy parseError policy).bindings root).commands from rfl, hfilter]
    exact mem_singleton_self _
  obtain ⟨hamong, hmapping⟩ := mem_filter.1 hauthorized
  have hrequest := of_decide_eq_true hmapping
  have hsame : authorized = binding := by
    apply inj_on_of_nodup_map hnodup hamong hinstalled
    rw [hkey]
    exact congrArg commandMappingKey hrequest
  rw [← hsame]
  exact hrequest

/-- The gate is safe exactly where the request's mapping is not mistaken for another. -/
theorem gateSafe_iff (digestOf : Bytes → String) (root : String)
    (parseError : List Char → JsText) (policy : Option (List Char)) (request : ValidatorRequest)
    (hhex : ∀ bytes, isDigest (digestOf bytes).toList = true) :
    GateSafe digestOf root parseError policy request ↔ Unmistakable policy request :=
  ⟨fun h => h.unmistakable hhex, fun h => h.gateSafe hhex⟩

end Exactness

def samplePolicy : List Char :=
  ("[\x7b\"graph\":\"a\\u0000b\",\"node\":\"c\",\"outcome\":\"d\",\"cwd\":\"/w\"," ++
    "\"argv\":[\"true\"],\"timeout_ms\":1,\"expect_exit_code\":0,\"artifact_refs\":[\"r\"]\x7d]").toList

def zero : Double := { negative := false, place := 0, finite := infinityPlace_pos }

def sampleBinding : TrustedCommandBinding where
  graphId := text "a" ++ nul :: text "b"
  nodeId := text "c"
  outcome := text "d"
  argv := [text "true"]
  cwd := text "/w"
  timeoutMs := COMPLETION_POLICY_VERSION
  expectExitCode := zero
  artifactRefs := [text "r"]

def sampleRequest : ValidatorRequest where
  graphId := text "a"
  nodeId := text "b" ++ nul :: text "c"
  outcome := text "d"
  artifactRoot := text "/work"

theorem sample_wellFormed : wellFormed (configured (some samplePolicy)) = [sampleBinding] := by
  decide +kernel

theorem sampleDigest_hex (bytes : Bytes) : isDigest (sampleDigest bytes).toList = true := by
  unfold sampleDigest
  split <;> decide +kernel

theorem gateSafe_iff_sample :
    GateSafe sampleDigest sampleRoot (fun _ => []) (some samplePolicy) sampleRequest ↔
      Unmistakable (some samplePolicy) sampleRequest :=
  gateSafe_iff sampleDigest sampleRoot (fun _ => []) (some samplePolicy) sampleRequest
    sampleDigest_hex

/-- The command of one mapping passes a submission for another. -/
theorem not_gateSafe :
    ¬ GateSafe sampleDigest sampleRoot (fun _ => []) (some samplePolicy) sampleRequest := by
  intro h
  have hmapping := h.unmistakable sampleDigest_hex sampleBinding
  rw [sample_wellFormed] at hmapping
  have hsame := hmapping (mem_singleton_self _) (by decide +kernel) (by decide +kernel)
    (by decide +kernel)
  revert hsame
  decide +kernel

end Rolebox.Policy
