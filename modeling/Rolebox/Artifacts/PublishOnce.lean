import Rolebox.Artifacts.ArtifactStore

/-! What is stored under an identity never changes, and an answered deposit can be read back. -/

namespace Rolebox.Artifacts
open General List Function

section Names
variable {root : String}

theorem isDigest_head {digits : List Char} (h : isDigest digits = true) :
    ∃ c rest, digits = c :: rest ∧ Graph.isLowerHex c = true := by
  simp only [isDigest, Bool.and_eq_true, decide_eq_true_eq] at h
  obtain ⟨hlength, hall⟩ := h
  cases digits with
  | nil => cases hlength
  | cons c rest => exact ⟨c, rest, rfl, (all_eq_true.1 hall) c (.head _)⟩

theorem artifactObjectPath_ne_temporaryPath {artifactId : String}
    (h : isArtifactId artifactId = true) (random : String) :
    artifactObjectPath root artifactId ≠ temporaryPath root random := by
  simp only [isArtifactId, Bool.and_eq_true] at h
  obtain ⟨c, rest, hdigits, hhex⟩ := isDigest_head h.2
  intro hsame
  have htext := congrArg String.toList hsame
  simp only [artifactObjectPath, temporaryPath, TEMPORARY_PREFIX, String.toList_append,
    String.toList_ofList, append_assoc, hdigits] at htext
  have htail := append_cancel_left (append_cancel_left htext)
  have hdot : c = '.' := by
    have hhead := congrArg List.head? htail
    simpa using hhead
  rw [hdot] at hhex
  revert hhex
  decide

theorem isArtifactId_artifactIdOf {digest : String} (h : isDigest digest.toList = true) :
    isArtifactId (artifactIdOf digest) = true := by
  simp only [isArtifactId, artifactIdOf, String.toList_append]
  have hbegins : ("sha256:".toList ++ digest.toList).take 7 = "sha256:".toList := by
    simp
  have hdrop : ("sha256:".toList ++ digest.toList).drop 7 = digest.toList := by
    simp
  rw [hbegins, hdrop, h]
  simp

end Names

section Steps
variable {digestOf : Bytes → String} {root : String} {d d' : Files} {c c' : Call}
  {event : CallEvent} {phase : Phase}

def Call.temporary (c : Call) : Option String :=
  match c.phase with
  | .writing temporary _ _ => some temporary
  | .linking temporary _ => some temporary
  | .discarding temporary _ _ => some temporary
  | _ => none

def Sole (d : Files) (name : String) (inode : Nat) : Prop :=
  ∀ other, d.node other = some (.file inode) → other = name

/-- What an answered deposit promised is stored. -/
def Kept (digestOf : Bytes → String) (root : String) (d : Files) (c : Call) :
    ArtifactDepositResult → Prop
  | .deposited artifactId digest size =>
    artifactId = c.artifactId digestOf ∧ digest = digestOf c.bytes ∧
      ∃ bytes, stored root d artifactId = some bytes ∧ digestOf bytes = digest ∧
        size = bytes.length
  | .problem _ => True

def Owned (digestOf : Bytes → String) (root : String) (d : Files) (c : Call) : Prop :=
  match c.phase with
  | .writing temporary inode rest =>
    d.node temporary = some (.file inode) ∧ Sole d temporary inode ∧
      d.data inode ++ rest = c.bytes
  | .linking temporary inode =>
    d.node temporary = some (.file inode) ∧ Sole d temporary inode ∧ d.data inode = c.bytes
  | .discarding temporary inode answer =>
    d.node temporary = some (.file inode) ∧
      ∀ result, answer = some result → Kept digestOf root d c result
  | .answered result => Kept digestOf root d c result
  | _ => True

section

variable (h : CallStep digestOf root d c event d' phase)
include h

theorem CallStep.untouched
    (howned : Owned digestOf root d c) {name : String} {node : Node String Nat}
    (hnode : d.node name = some node) (hname : c.temporary ≠ some name) : d.Untouched d' name := by
  cases h with
  | opened hphase random inode hnew hdrawn hinode =>
    refine Disk.untouched_create _ ?_ (hinode name)
    rintro rfl
    rw [hnew] at hnode
    cases hnode
  | @wrote temporary inode chunk rest hphase =>
    simp only [Owned, hphase] at howned
    apply Disk.untouched_write
    intro hfile
    apply hname
    rw [howned.2.1 name hfile]
    simp only [Call.temporary, hphase]
  | linked hphase hlink =>
    refine Disk.untouched_link hlink ?_
    rintro rfl
    unfold Disk.link at hlink
    split at hlink
    · next hnone =>
      rw [hnone] at hnode
      cases hnode
    · cases hlink
  | @discarded temporary inode answer hphase done =>
    cases done with
    | false => exact .refl d name
    | true =>
      apply Disk.untouched_unlink
      rintro rfl
      apply hname
      simp only [Call.temporary, hphase]
  | _ => exact .refl d name

theorem CallStep.file {name : String} {inode : Nat} (hfile : d'.node name = some (.file inode)) :
    d.node name = some (.file inode) ∨ (∀ other, d.node other ≠ some (.file inode)) ∨
      ∃ temporary, c.temporary = some temporary ∧ d.node temporary = some (.file inode) := by
  cases h with
  | opened hphase random fresh hnew hdrawn hinode =>
    by_cases hname : name = temporaryPath root random
    · subst hname
      have hsame : fresh = inode := by
        simpa [Disk.create] using hfile
      exact .inr (.inl (hsame ▸ hinode))
    · exact .inl (by simpa [Disk.create, hname] using hfile)
  | @linked temporary fresh d' hphase hlink =>
    unfold Disk.link at hlink
    split at hlink
    · next old htemp hnone =>
      cases hlink
      by_cases hname : name = artifactObjectPath root (c.artifactId digestOf)
      · subst hname
        have hsame : old = inode := by
          simpa using hfile
        refine .inr (.inr ⟨temporary, ?_, hsame ▸ htemp⟩)
        simp only [Call.temporary, hphase]
      · exact .inl (by simpa [hname] using hfile)
    · cases hlink
  | @discarded temporary fresh answer hphase done =>
    cases done with
    | false => exact .inl hfile
    | true =>
      by_cases hname : name = temporary
      · subst hname
        simp [Disk.unlink] at hfile
      · exact .inl (by simpa [Disk.unlink, hname] using hfile)
  | _ => exact .inl hfile

theorem CallStep.link {name target : String}
    (hlink : d'.node name = some (.link target)) : d.node name = some (.link target) := by
  cases h with
  | opened hphase random fresh hnew hdrawn hinode =>
    by_cases hname : name = temporaryPath root random
    · subst hname
      simp [Disk.create] at hlink
    · simpa [Disk.create, hname] using hlink
  | @linked temporary fresh d' hphase hmade =>
    unfold Disk.link at hmade
    split at hmade
    · cases hmade
      by_cases hname : name = artifactObjectPath root (c.artifactId digestOf)
      · subst hname
        simp at hlink
      · simpa [hname] using hlink
    · cases hmade
  | @discarded temporary fresh answer hphase done =>
    cases done with
    | false => exact hlink
    | true =>
      by_cases hname : name = temporary
      · subst hname
        simp [Disk.unlink] at hlink
      · simpa [Disk.unlink, hname] using hlink
  | _ => exact hlink

end

def Drawn (root : String) (d : Files) (temporary : String) : Prop :=
  (∃ random, temporary = temporaryPath root random) ∧ ∀ name, d.node name ≠ some (.link temporary)

section

variable (h : CallStep digestOf root d c event d' phase)
include h

section

variable (howned : Owned digestOf root d c)
include howned

section

variable (hdrawn : ∀ t, c.temporary = some t → Drawn root d t)
include hdrawn

theorem CallStep.stored {artifactId : String} (hid : isArtifactId artifactId = true) {bytes : Bytes}
    (hstored : stored root d artifactId = some bytes) : stored root d' artifactId = some bytes := by
  apply Disk.Untouched.read hstored
  intro name node hnode hpath
  refine h.untouched howned hnode ?_
  intro htemp
  obtain ⟨⟨random, hrandom⟩, hlinks⟩ := hdrawn name htemp
  rcases hpath with rfl | hlink
  · exact artifactObjectPath_ne_temporaryPath hid random hrandom
  · exact hlinks _ hlink

theorem CallStep.kept
    (hhex : ∀ bytes, isDigest (digestOf bytes).toList = true) {result : ArtifactDepositResult}
    (hkept : Kept digestOf root d c' result) : Kept digestOf root d' c' result := by
  cases result with
  | problem reason => trivial
  | deposited artifactId digest size =>
    obtain ⟨hid, hdigest, bytes, hstored, hrest⟩ := hkept
    refine ⟨hid, hdigest, bytes, h.stored howned hdrawn ?_ hstored, hrest⟩
    rw [hid]
    exact isArtifactId_artifactIdOf (hhex _)

theorem CallStep.owned_other (hhex : ∀ bytes, isDigest (digestOf bytes).toList = true)
    (hapart : ∀ t, c.temporary = some t → c'.temporary ≠ some t)
    (hother : Owned digestOf root d c') : Owned digestOf root d' c' := by
  have hkeep : ∀ t node, c'.temporary = some t → d.node t = some node → d.Untouched d' t := by
    intro t node ht hnode
    exact h.untouched howned hnode fun hsame => hapart t hsame ht
  have hsole : ∀ t inode, c'.temporary = some t → d.node t = some (.file inode) →
      Sole d t inode → Sole d' t inode := by
    intro t inode ht hnode hsole name hfile
    rcases h.file hfile with hold | hnew | ⟨t', ht', hfile'⟩
    · exact hsole name hold
    · exact absurd hnode (hnew t)
    · rw [hsole t' hfile'] at ht'
      exact absurd ht (hapart t ht')
  unfold Owned at hother ⊢
  cases hphase : c'.phase with
  | writing temporary inode rest | linking temporary inode =>
    have ht : c'.temporary = some temporary := by
      simp only [Call.temporary, hphase]
    simp only [hphase] at hother ⊢
    obtain ⟨hnode, honly, hdata⟩ := hother
    have hkept := hkeep temporary _ ht hnode
    refine ⟨hkept.node.trans hnode, hsole temporary inode ht hnode honly, ?_⟩
    rw [hkept.data inode hnode]
    exact hdata
  | discarding temporary inode answer =>
    have ht : c'.temporary = some temporary := by
      simp only [Call.temporary, hphase]
    simp only [hphase] at hother ⊢
    obtain ⟨hnode, hanswer⟩ := hother
    exact ⟨(hkeep temporary _ ht hnode).node.trans hnode, fun result hresult =>
      h.kept howned hdrawn hhex (hanswer result hresult)⟩
  | answered result =>
    simp only [hphase] at hother ⊢
    exact h.kept howned hdrawn hhex hother
  | _ => trivial

end

end

end

theorem kept_verifyExisting (readFails : Bool) :
    Kept digestOf root d c (verifyExisting digestOf root d readFails c) := by
  unfold verifyExisting
  cases hread : readArtifactById digestOf root d readFails (c.artifactId digestOf) with
  | problem reason => trivial
  | read bytes digest =>
    unfold readArtifactById at hread
    split at hread
    · split at hread
      · cases hread
      next found hfound =>
      split at hread
      · next hverified =>
        cases hread
        have hdigest : digestOf bytes = digestOf c.bytes := by
          have htext := congrArg String.toList hverified
          simp only [Call.artifactId, artifactIdOf, String.toList_append] at htext
          exact String.toList_inj.1 (append_cancel_left htext)
        have hstored : d.read (artifactObjectPath root (c.artifactId digestOf)) = some bytes := by
          split at hfound
          · cases hfound
          · exact hfound
        exact ⟨rfl, hdigest, bytes, hstored, rfl, rfl⟩
      · cases hread
    · cases hread

theorem CallStep.owned (h : CallStep digestOf root d c event d' phase)
    (howned : Owned digestOf root d c) (hdrawn : ∀ t, c.temporary = some t → Drawn root d t)
    (hhex : ∀ bytes, isDigest (digestOf bytes).toList = true) :
    Owned digestOf root d' { c with phase := phase } := by
  cases h with
  | directory | crashed => trivial
  | directoryFailed | openFailed | writeFailed => trivial
  | opened hphase random inode hnew hlinks hinode =>
    refine ⟨update_self .., ?_, ?_⟩
    · intro name hname
      by_contra hne
      have hold : d.node name = some (.file inode) := by
        simpa [Disk.create, hne] using hname
      exact hinode name hold
    · show update d.data inode [] inode ++ c.bytes = c.bytes
      rw [update_self, nil_append]
  | @wrote temporary inode chunk rest hphase =>
    simp only [Owned, hphase] at howned
    obtain ⟨hnode, hsole, hdata⟩ := howned
    refine ⟨hnode, hsole, ?_⟩
    show update d.data inode (d.data inode ++ chunk) inode ++ rest = c.bytes
    rw [update_self, append_assoc]
    exact hdata
  | @closed temporary inode hphase =>
    simp only [Owned, hphase] at howned
    obtain ⟨hnode, hsole, hdata⟩ := howned
    exact ⟨hnode, hsole, (append_nil _).symm.trans hdata⟩
  | @linked temporary inode d' hphase hlink =>
    simp only [Owned, hphase] at howned
    obtain ⟨hnode, hsole, hdata⟩ := howned
    have hid : isArtifactId (c.artifactId digestOf) = true :=
      isArtifactId_artifactIdOf (hhex c.bytes)
    unfold Disk.link at hlink
    rw [hnode] at hlink
    split at hlink
    · next old hold hnone =>
      cases hold
      cases hlink
      refine ⟨?_, ?_⟩
      · refine (update_of_ne ?_ _ _).trans hnode
        rintro rfl
        rw [hnode] at hnone
        cases hnone
      · rintro result ⟨⟩
        refine ⟨rfl, rfl, c.bytes, ?_, rfl, rfl⟩
        simp only [Artifacts.stored, Disk.read, Disk.stat, update_self, Option.map_some, hdata]
    · cases hlink
  | @linkFailed temporary inode hphase code error =>
    unfold Owned at howned
    rw [hphase] at howned
    refine ⟨howned.1, ?_⟩
    intro result hresult
    split at hresult
    · cases hresult
    · cases hresult
      trivial
  | @discarded temporary inode answer hphase done =>
    have hstep : CallStep digestOf root d c (.discarded done)
        (if done then d.unlink temporary else d) _ := .discarded hphase done
    have howned' := howned
    simp only [Owned, hphase] at howned'
    cases answer with
    | none => trivial
    | some result =>
      exact hstep.kept howned hdrawn hhex (howned'.2 result rfl)
  | verified hphase readFails => exact kept_verifyExisting readFails

end Steps

section Runs
variable {digestOf : Bytes → String} {root : String} {s t : Store} {event : Event}
  {events : List Event}
variable {artifactId : String}

structure Sound (digestOf : Bytes → String) (root : String) (s : Store) : Prop where
  owned : ∀ c ∈ s.calls, Owned digestOf root s.disk c
  apart : ∀ (i j : Nat) (c c' : Call), i ≠ j → s.calls[i]? = some c → s.calls[j]? = some c' →
    ∀ t, c.temporary = some t → c'.temporary ≠ some t
  held : ∀ c ∈ s.calls, ∀ t, c.temporary = some t → t ∈ s.drawn
  drawn : ∀ t ∈ s.drawn, Drawn root s.disk t

theorem sound_opened (d : Files) : Sound digestOf root (opened d) := by
  refine ⟨?_, ?_, ?_, ?_⟩
  · intro c hc
    cases hc
  · intro i j c c' _ hc
    cases hc
  · intro c hc
    cases hc
  · intro t ht
    cases ht

variable {c : Call}

theorem Sound.drawn_of_call (hs : Sound digestOf root s) (hc : c ∈ s.calls) :
    ∀ t, c.temporary = some t → Drawn root s.disk t :=
  fun t ht => hs.drawn t (hs.held c hc t ht)

variable {phase : Phase}

/-- A step leaves its deposit with the name it had, or with one no deposit holds. -/
theorem CallStep.temporary {d d' : Files} {event : CallEvent}
    (h : CallStep digestOf root d c event d' phase) {t : String}
    (ht : Call.temporary { c with phase := phase } = some t) :
    c.temporary = some t ∨ (t ∈ event.drawn root ∧ d.node t = none) := by
  cases h with
  | opened hphase random inode hnew hlinks hinode =>
    cases ht
    exact .inr ⟨.head _, hnew⟩
  | wrote hphase | closed hphase | linked hphase | linkFailed hphase =>
    cases ht
    exact .inl (by simp only [Call.temporary, hphase])
  | @discarded _ _ answer hphase done => cases answer <;> cases ht
  | _ => cases ht

theorem Owned.node {d : Files} (h : Owned digestOf root d c) {t : String}
    (ht : c.temporary = some t) : ∃ node, d.node t = some node := by
  unfold Owned at h
  unfold Call.temporary at ht
  cases hphase : c.phase with
  | writing temporary inode rest | linking temporary inode | discarding temporary inode answer =>
    simp only [hphase] at h ht
    cases ht
    exact ⟨_, h.1⟩
  | _ =>
    simp only [hphase] at ht
    cases ht

theorem CallEvent.drawn_step {d d' : Files} {event : CallEvent}
    (h : CallStep digestOf root d c event d' phase) {t : String} (ht : t ∈ event.drawn root) :
    Drawn root d t := by
  cases h with
  | opened hphase random inode hnew hlinks hinode =>
    cases mem_singleton.1 ht
    exact ⟨⟨random, rfl⟩, hlinks⟩
  | _ => cases ht

theorem getElem?_concat {l : List Call} {x c : Call} {i : Nat} (h : (l ++ [x])[i]? = some c) :
    l[i]? = some c ∨ c = x := by
  rw [getElem?_append] at h
  split at h
  · exact .inl h
  · have hmem := mem_of_getElem? h
    exact .inr (mem_singleton.1 hmem)

theorem Sound.start (hs : Sound digestOf root s) (bytes : Bytes) :
    Sound digestOf root
      { s with calls := s.calls ++ [{ bytes := bytes, phase := .creatingDirectory }] } := by
  have hlast : ∀ c ∈ s.calls ++ [{ bytes := bytes, phase := .creatingDirectory }],
      c ∈ s.calls ∨ c = { bytes := bytes, phase := .creatingDirectory } := by
    intro c hc
    simpa using hc
  refine ⟨?_, ?_, ?_, hs.drawn⟩
  · intro c hc
    rcases hlast c hc with hc | rfl
    · exact hs.owned c hc
    · trivial
  · intro i j c c' hne hc hc' t ht
    rcases getElem?_concat hc' with hold' | rfl
    · rcases getElem?_concat hc with hold | rfl
      · exact hs.apart i j c c' hne hold hold' t ht
      · cases ht
    · simp [Call.temporary]
  · intro c hc t ht
    rcases hlast c hc with hc | rfl
    · exact hs.held c hc t ht
    · cases ht

section

variable (hhex : ∀ bytes, isDigest (digestOf bytes).toList = true)
include hhex

theorem Sound.call (hs : Sound digestOf root s) {i : Nat} {event : CallEvent} {d : Files}
    (hcall : s.calls[i]? = some c) (hstep : CallStep digestOf root s.disk c event d phase) :
    Sound digestOf root
      { disk := d
        calls := s.calls.set i { c with phase := phase }
        drawn := event.drawn root ++ s.drawn } := by
  have hmem := mem_of_getElem? hcall
  have howned := hs.owned c hmem
  have hdrawn := hs.drawn_of_call hmem
  have hother : ∀ (j : Nat) (c' : Call), i ≠ j → s.calls[j]? = some c' →
      ∀ t, Call.temporary { c with phase := phase } = some t → c'.temporary ≠ some t := by
    intro j c' hne hc' t ht
    rcases hstep.temporary ht with hold | ⟨-, hnone⟩
    · exact hs.apart i j c c' hne hcall hc' t hold
    intro hsame
    obtain ⟨node, hnode⟩ := (hs.owned c' (mem_of_getElem? hc')).node hsame
    rw [hnone] at hnode
    cases hnode
  have hcases : ∀ (j : Nat) (x : Call), (s.calls.set i { c with phase := phase })[j]? = some x →
      (j = i ∧ x = { c with phase := phase }) ∨ (i ≠ j ∧ s.calls[j]? = some x) := by
    intro j x hx
    rw [getElem?_set] at hx
    split at hx
    · next heq =>
      split at hx
      · exact .inl ⟨heq.symm, (Option.some.inj hx).symm⟩
      · cases hx
    · next hne => exact .inr ⟨hne, hx⟩
  refine ⟨?_, ?_, ?_, ?_⟩
  · intro x hx
    obtain ⟨j, hj⟩ := mem_iff_getElem?.1 hx
    rcases hcases j x hj with ⟨-, rfl⟩ | ⟨hne, hold⟩
    · exact hstep.owned howned hdrawn hhex
    · refine hstep.owned_other howned hdrawn hhex ?_ (hs.owned x (mem_of_getElem? hold))
      exact fun t ht => hs.apart i j c x hne hcall hold t ht
  · intro j k x y hne hx hy t ht
    rcases hcases j x hx with ⟨rfl, rfl⟩ | ⟨hj, hx'⟩
    · rcases hcases k y hy with ⟨rfl, rfl⟩ | ⟨hk, hy'⟩
      · exact absurd rfl hne
      · exact hother k y hk hy' t ht
    · rcases hcases k y hy with ⟨rfl, rfl⟩ | ⟨hk, hy'⟩
      · exact fun hsame => hother j x hj hx' t hsame ht
      · exact hs.apart j k x y hne hx' hy' t ht
  · intro x hx t ht
    obtain ⟨j, hj⟩ := mem_iff_getElem?.1 hx
    rcases hcases j x hj with ⟨-, rfl⟩ | ⟨-, hold⟩
    · rcases hstep.temporary ht with hold | ⟨hnew, -⟩
      · exact mem_append_right _ (hs.held c hmem t hold)
      · exact mem_append_left _ hnew
    · exact mem_append_right _ (hs.held x (mem_of_getElem? hold) t ht)
  · intro t ht
    have hbefore : Drawn root s.disk t := by
      rcases mem_append.1 ht with hnew | hold
      · exact CallEvent.drawn_step hstep hnew
      · exact hs.drawn t hold
    exact ⟨hbefore.1, fun name hlink => hbefore.2 name (hstep.link hlink)⟩

theorem Sound.step
    (hs : Sound digestOf root s) (h : Step digestOf root s event t) : Sound digestOf root t := by
  cases h with
  | start bytes => exact hs.start bytes
  | call hcall hstep => exact hs.call hhex hcall hstep

theorem Sound.run (hs : Sound digestOf root s) (h : Run (Step digestOf root) s events t) :
    Sound digestOf root t :=
  h.invariant (fun _ _ _ hs hst => hs.step hhex hst) hs

end

theorem Step.stays (hs : Sound digestOf root s) (h : Step digestOf root s event t)
    (hid : isArtifactId artifactId = true) :
    (∀ bytes, stored root s.disk artifactId = some bytes →
        stored root t.disk artifactId = some bytes) ∧
      ∀ node, s.disk.node (artifactObjectPath root artifactId) = some node →
        t.disk.node (artifactObjectPath root artifactId) = some node := by
  cases h with
  | start bytes => exact ⟨fun _ h => h, fun _ h => h⟩
  | @call i c event d phase hcall hstep =>
    have hmem := mem_of_getElem? hcall
    have hdrawn := hs.drawn_of_call hmem
    refine ⟨fun bytes hstored => hstep.stored (hs.owned c hmem) hdrawn hid hstored, ?_⟩
    intro node hnode
    refine (hstep.untouched (hs.owned c hmem) hnode ?_).node.trans hnode
    intro htemp
    obtain ⟨⟨random, hrandom⟩, -⟩ := hdrawn _ htemp
    exact artifactObjectPath_ne_temporaryPath hid random hrandom

theorem run_stays (hhex : ∀ bytes, isDigest (digestOf bytes).toList = true)
    (hs : Sound digestOf root s) (h : Run (Step digestOf root) s events t)
    (hid : isArtifactId artifactId = true) :
    (∀ bytes, stored root s.disk artifactId = some bytes →
        stored root t.disk artifactId = some bytes) ∧
      ∀ node, s.disk.node (artifactObjectPath root artifactId) = some node →
        t.disk.node (artifactObjectPath root artifactId) = some node := by
  induction h with
  | nil => exact ⟨fun _ h => h, fun _ h => h⟩
  | cons hst _ ih =>
    obtain ⟨hbytes, hnode⟩ := hst.stays hs hid
    obtain ⟨hbytes', hnode'⟩ := ih (hs.step hhex hst)
    exact ⟨fun bytes h => hbytes' bytes (hbytes bytes h), fun node h => hnode' node (hnode node h)⟩

/-- The contents that matter to a store: what its objects hold, and what its deposits carry. -/
def occurring (root : String) (s : Store) : Set Bytes :=
  { bytes | (∃ artifactId, isArtifactId artifactId = true ∧
      stored root s.disk artifactId = some bytes) ∨ ∃ c ∈ s.calls, c.bytes = bytes }

theorem Sound.deposited (hhex : ∀ bytes, isDigest (digestOf bytes).toList = true)
    (hs : Sound digestOf root s) (hcollision : Set.InjOn digestOf (occurring root s))
    (hc : c ∈ s.calls) {digest : String} {size : Nat}
    (hphase : c.phase = .answered (.deposited artifactId digest size)) :
    artifactId = artifactIdOf (digestOf c.bytes) ∧ size = c.bytes.length ∧
      readArtifactById digestOf root s.disk false artifactId = .read c.bytes digest := by
  have howned := hs.owned c hc
  simp only [Owned, hphase, Kept] at howned
  obtain ⟨hid, hdigest, bytes, hstored, hsame, hsize⟩ := howned
  have hvalid : isArtifactId artifactId = true := by
    rw [hid]
    exact isArtifactId_artifactIdOf (hhex _)
  have hbytes : bytes = c.bytes :=
    hcollision (.inl ⟨artifactId, hvalid, hstored⟩) (.inr ⟨c, hc, rfl⟩) (hsame.trans hdigest)
  subst hbytes
  refine ⟨hid, hsize, ?_⟩
  have hread : s.disk.read (artifactObjectPath root artifactId) = some c.bytes := hstored
  simp only [readArtifactById, hvalid, if_true, Bool.false_eq_true, if_false, hread, ← hdigest]
  rw [if_pos]
  rw [hid, hdigest]
  rfl

theorem Sound.never_temporary (hs : Sound digestOf root s) (hid : isArtifactId artifactId = true) :
    (∀ t ∈ s.drawn, s.disk.realpath (artifactObjectPath root artifactId) ≠ some t) ∧
      ∀ c ∈ s.calls, ∀ temporary inode rest, c.phase = .writing temporary inode rest →
        s.disk.stat (artifactObjectPath root artifactId) ≠ some inode := by
  have hpath : ∀ t ∈ s.drawn, ∀ last, last = artifactObjectPath root artifactId ∨
      s.disk.node (artifactObjectPath root artifactId) = some (.link last) → last ≠ t := by
    rintro t ht last hlast rfl
    obtain ⟨⟨random, hrandom⟩, hlinks⟩ := hs.drawn last ht
    rcases hlast with hlast | hlink
    · exact artifactObjectPath_ne_temporaryPath hid random (hlast.symm.trans hrandom)
    · exact hlinks _ hlink
  refine ⟨?_, ?_⟩
  · intro t ht hreal
    unfold Disk.realpath at hreal
    split at hreal
    · cases hreal
      exact hpath _ ht _ (.inl rfl) rfl
    · next last hlink =>
      split at hreal
      · cases hreal
        exact hpath _ ht _ (.inr hlink) rfl
      · cases hreal
    · cases hreal
  · intro c hc temporary inode rest hphase hstat
    have howned := hs.owned c hc
    simp only [Owned, hphase] at howned
    obtain ⟨last, hfile, hlast⟩ := Disk.stat_some hstat
    have htemp : c.temporary = some temporary := by
      simp only [Call.temporary, hphase]
    exact hpath temporary (hs.held c hc temporary htemp) last hlast (howned.2.1 last hfile)

/-- Publication happens once, for deposits that interleave, fail and crash at any call. -/
theorem published_once (digestOf : Bytes → String) (root : String) (d : Files)
    {before after : List Event} {s t : Store}
    (hhex : ∀ bytes, isDigest (digestOf bytes).toList = true)
    (hrun : Run (Step digestOf root) (opened d) before s)
    (hlater : Run (Step digestOf root) s after t)
    (hcollision : Set.InjOn digestOf (occurring root t)) :
    (∀ artifactId, isArtifactId artifactId = true → ∀ bytes,
        stored root s.disk artifactId = some bytes → stored root t.disk artifactId = some bytes) ∧
      (∀ c ∈ t.calls, ∀ artifactId digest size,
        c.phase = .answered (.deposited artifactId digest size) →
          artifactId = artifactIdOf (digestOf c.bytes) ∧ size = c.bytes.length ∧
            readArtifactById digestOf root t.disk false artifactId = .read c.bytes digest) ∧
      (∀ artifactId, isArtifactId artifactId = true →
        (∀ node, s.disk.node (artifactObjectPath root artifactId) = some node →
          t.disk.node (artifactObjectPath root artifactId) = some node) ∧
        ∀ bytes, stored root s.disk artifactId = some bytes →
          artifactIdOf (digestOf bytes) ≠ artifactId →
            ∀ c ∈ t.calls, ∀ digest size, c.phase ≠ .answered (.deposited artifactId digest size)) ∧
      ∀ artifactId, isArtifactId artifactId = true →
        (∀ temporary ∈ t.drawn,
          t.disk.realpath (artifactObjectPath root artifactId) ≠ some temporary) ∧
        ∀ c ∈ t.calls, ∀ temporary inode rest, c.phase = .writing temporary inode rest →
          t.disk.stat (artifactObjectPath root artifactId) ≠ some inode := by
  have hs : Sound digestOf root s := (sound_opened d).run hhex hrun
  have ht : Sound digestOf root t := hs.run hhex hlater
  refine ⟨?_, ?_, ?_, ?_⟩
  · exact fun artifactId hid => (run_stays hhex hs hlater hid).1
  · intro c hc artifactId digest size hphase
    exact ht.deposited hhex hcollision hc hphase
  · intro artifactId hid
    refine ⟨(run_stays hhex hs hlater hid).2, ?_⟩
    intro bytes hstored hbad c hc digest size hphase
    obtain ⟨hname, -, hread⟩ := ht.deposited hhex hcollision hc hphase
    have hlast : t.disk.read (artifactObjectPath root artifactId) = some bytes :=
      (run_stays hhex hs hlater hid).1 bytes hstored
    simp only [readArtifactById, hid, if_true, Bool.false_eq_true, if_false, hlast,
      if_neg hbad] at hread
    cases hread
  · exact fun artifactId hid => ht.never_temporary hid

end Runs

def sampleDigest (bytes : Bytes) : String :=
  if bytes = [1] then "4bf5122f344554c53bde2ebb8cd2b7e3d1600ad631c385a5d7cce23c7785459a"
  else "e3b0c44298fc1c149afbf4c8996fb92427ae41e4649b934ca495991b7852b855"

def sampleRoot : String := "/graph"

def sampleEmpty : Files := { node := fun _ => none, data := fun _ => [], nlink := fun _ => 0 }

def sampleTemporary : String := temporaryPath sampleRoot "0f"

def sampleObject : String := artifactObjectPath sampleRoot (artifactIdOf (sampleDigest [1]))

def sampleWritten : Files := (sampleEmpty.create sampleTemporary 0 []).write 0 [1]

def sampleLinked : Files :=
  { sampleWritten with
    node := update sampleWritten.node sampleObject (some (.file 0))
    nlink := update sampleWritten.nlink 0 (sampleWritten.nlink 0 + 1) }

def sampleEvents : List Event :=
  [.start [1], .call 0 (.directory none), .call 0 (.opened "0f" 0), .call 0 (.wrote [1]),
    .call 0 .closed, .call 0 .linked, .call 0 (.discarded true)]

def sampleDeposited : Store where
  disk := sampleLinked.unlink sampleTemporary
  calls :=
    [{ bytes := [1]
       phase := .answered
        (.deposited (artifactIdOf (sampleDigest [1])) (sampleDigest [1]) 1) }]
  drawn := [sampleTemporary]

theorem sampleObject_ne : sampleObject ≠ sampleTemporary := by
  decide +kernel

theorem sampleLinked_link :
    sampleWritten.link sampleTemporary sampleObject = some sampleLinked := by
  have htemp : sampleWritten.node sampleTemporary = some (.file 0) := by
    simp [sampleWritten, Disk.write, Disk.create]
  have hobject : sampleWritten.node sampleObject = none := by
    simp [sampleWritten, sampleEmpty, Disk.write, Disk.create, sampleObject_ne]
  simp only [Disk.link, htemp, hobject]
  rfl

theorem sample_run :
    Run (Step sampleDigest sampleRoot) (opened sampleEmpty) sampleEvents sampleDeposited := by
  refine .cons (.start [1]) ?_
  refine .cons (.call rfl (.directory rfl)) ?_
  refine .cons (.call rfl (.opened rfl "0f" 0 rfl (nofun) nofun)) ?_
  refine .cons (.call rfl (.wrote rfl)) ?_
  refine .cons (.call rfl (.closed rfl)) ?_
  refine .cons (.call rfl (.linked rfl sampleLinked_link)) ?_
  refine .cons (.call rfl (.discarded rfl true)) ?_
  exact .nil _

def sharedEvents : List Event :=
  [.start [1], .call 1 (.directory none), .call 1 (.opened "1e" 1), .call 1 (.wrote [1]),
    .call 1 .closed, .call 1 (.linkFailed (some "EEXIST") "EEXIST"), .call 1 (.discarded true),
    .call 1 (.verified false)]

def sharedTemporary : String := temporaryPath sampleRoot "1e"

def sharedDisk : Files :=
  ((sampleDeposited.disk.create sharedTemporary 1 []).write 1 [1]).unlink sharedTemporary

def sampleShared : Store where
  disk := sharedDisk
  calls := sampleDeposited.calls ++
    [{ bytes := [1]
       phase := .answered (verifyExisting sampleDigest sampleRoot sharedDisk false
        { bytes := [1], phase := .verifying }) }]
  drawn := [sharedTemporary, sampleTemporary]

theorem sampleDeposited_node {last : String} {node : Node String Nat}
    (h : sampleDeposited.disk.node last = some node) : last = sampleObject ∧ node = .file 0 := by
  by_cases htemp : last = sampleTemporary
  · simp [sampleDeposited, Disk.unlink, htemp] at h
  by_cases hobject : last = sampleObject
  · refine ⟨hobject, ?_⟩
    simpa [sampleDeposited, Disk.unlink, sampleLinked, sampleObject_ne, hobject, eq_comm] using h
  · simp [sampleDeposited, Disk.unlink, sampleLinked, sampleWritten, Disk.write, Disk.create,
      sampleEmpty, htemp, hobject] at h

theorem shared_run :
    Run (Step sampleDigest sampleRoot) sampleDeposited sharedEvents sampleShared := by
  have hnew : sampleDeposited.disk.node sharedTemporary = none := by
    cases hnode : sampleDeposited.disk.node sharedTemporary with
    | none => rfl
    | some node => exact absurd (sampleDeposited_node hnode).1 (by decide +kernel)
  refine .cons (.start [1]) ?_
  refine .cons (.call rfl (.directory rfl)) ?_
  refine .cons (.call rfl (.opened rfl "1e" 1 hnew (fun name hname => ?_) fun name hname => ?_)) ?_
  · cases (sampleDeposited_node hname).2
  · cases (sampleDeposited_node hname).2
  refine .cons (.call rfl (.wrote rfl)) ?_
  refine .cons (.call rfl (.closed rfl)) ?_
  refine .cons (.call rfl (.linkFailed rfl (some "EEXIST") "EEXIST")) ?_
  refine .cons (.call rfl (.discarded rfl true)) ?_
  exact .cons (.call rfl (.verified rfl false)) (.nil _)

theorem shared_collision : Set.InjOn sampleDigest (occurring sampleRoot sampleShared) := by
  have hone : ∀ bytes ∈ occurring sampleRoot sampleShared, bytes = [1] := by
    rintro bytes (⟨artifactId, -, hstored⟩ | ⟨c, hc, rfl⟩)
    · obtain ⟨inode, hstat, hdata⟩ := Option.map_eq_some_iff.1 hstored
      obtain ⟨last, hlast, -⟩ := Disk.stat_some hstat
      have hinode : inode = 0 := by
        by_cases htemp : last = sharedTemporary
        · simp [sampleShared, sharedDisk, Disk.unlink, htemp] at hlast
        · have hnode : sampleDeposited.disk.node last = some (.file inode) := by
            simpa [sampleShared, sharedDisk, Disk.unlink, Disk.write, Disk.create, htemp] using hlast
          cases (sampleDeposited_node hnode).2
          rfl
      rw [hinode] at hdata
      exact hdata.symm
    · rcases mem_append.1 hc with hold | hnew
      · cases mem_singleton.1 hold
        rfl
      · cases mem_singleton.1 hnew
        rfl
  intro a ha b hb _
  rw [hone a ha, hone b hb]

/-- A second deposit of the same bytes finds the object of the first. -/
theorem published_once_sample :
    (∀ artifactId, isArtifactId artifactId = true → ∀ bytes,
        stored sampleRoot sampleDeposited.disk artifactId = some bytes →
          stored sampleRoot sampleShared.disk artifactId = some bytes) ∧
      ∀ c ∈ sampleShared.calls, ∀ artifactId digest size,
        c.phase = .answered (.deposited artifactId digest size) →
          artifactId = artifactIdOf (sampleDigest c.bytes) ∧ size = c.bytes.length ∧
            readArtifactById sampleDigest sampleRoot sampleShared.disk false artifactId =
              .read c.bytes digest := by
  have hhex : ∀ bytes, isDigest (sampleDigest bytes).toList = true := by
    intro bytes
    unfold sampleDigest
    split <;> decide +kernel
  have hall := published_once sampleDigest sampleRoot sampleEmpty hhex sample_run shared_run
    shared_collision
  exact ⟨hall.1, hall.2.1⟩

end Rolebox.Artifacts
