import Rolebox.Hashline.UnifiedPatch
import Mathlib.Data.List.TakeWhile

/-! Collecting and merging hunks: which runs of equal lines leave them pieces of the script. -/

namespace Rolebox.Hashline
open General List

def HasNumbers (diff : List DiffEntry) : Prop :=
  ∀ before e after, diff = before ++ e :: after →
    (∀ n, e.oldLine = some n → n = (oldText before).length + 1) ∧
      ∀ n, e.newLine = some n → n = (newText before).length + 1

theorem numbered_get {lines : List Text} {i : Nat} {place : Nat × Text}
    (h : (numbered lines)[i]? = some place) : place.1 = i + 1 := by
  unfold numbered at h
  rw [getElem?_mapIdx] at h
  obtain ⟨line, -, rfl⟩ := Option.map_eq_some_iff.1 h
  rfl

theorem length_oldText (entries : List DiffEntry) :
    (oldText entries).length = (entries.filterMap DiffEntry.oldPart).length := length_map ..

theorem length_newText (entries : List DiffEntry) :
    (newText entries).length = (entries.filterMap DiffEntry.newPart).length := length_map ..

theorem IsScript.hasNumbers {oldLines newLines : List Text} {diff : List DiffEntry}
    (h : IsScript oldLines newLines diff) : HasNumbers diff := by
  intro before e after hdiff
  have hold := h.old
  have hnew := h.new
  rw [hdiff, filterMap_append, filterMap_cons] at hold hnew
  constructor
  · intro n hn
    obtain ⟨content, hpart⟩ : ∃ content, e.oldPart = some (n, content) := by
      cases e with
      | equal oldLine newLine content => exact ⟨content, by obtain rfl := Option.some.inj hn; rfl⟩
      | insert newLine content => exact nomatch hn
      | delete oldLine content => exact ⟨content, by obtain rfl := Option.some.inj hn; rfl⟩
    rw [hpart] at hold
    have hget : (numbered oldLines)[(oldText before).length]? = some (n, content) := by
      rw [← hold, length_oldText, getElem?_append_right (Nat.le_refl _), Nat.sub_self]
      rfl
    exact numbered_get hget
  · intro n hn
    obtain ⟨content, hpart⟩ : ∃ content, e.newPart = some (n, content) := by
      cases e with
      | equal oldLine newLine content => exact ⟨content, by obtain rfl := Option.some.inj hn; rfl⟩
      | insert newLine content => exact ⟨content, by obtain rfl := Option.some.inj hn; rfl⟩
      | delete oldLine content => exact nomatch hn
    rw [hpart] at hnew
    have hget : (numbered newLines)[(newText before).length]? = some (n, content) := by
      rw [← hnew, length_newText, getElem?_append_right (Nat.le_refl _), Nat.sub_self]
      rfl
    exact numbered_get hget

theorem countP_lines (entries : List DiffEntry) :
    (entries.countP fun entry => entry.oldLine.isSome) = (oldText entries).length ∧
      (entries.countP fun entry => entry.newLine.isSome) = (newText entries).length := by
  induction entries with
  | nil => exact ⟨rfl, rfl⟩
  | cons e entries ih =>
    rw [countP_cons, countP_cons, ih.1, ih.2]
    cases e <;> exact ⟨rfl, rfl⟩

theorem hunkOf_eq {before contextBefore changes contextAfter after : List DiffEntry}
    (h : HasNumbers (before ++ (contextBefore ++ changes ++ contextAfter ++ after)))
    (hequal : AllEqual contextBefore) (hstart : contextBefore = [] → before = [])
    (hchanges : changes ≠ []) :
    hunkOf contextBefore changes contextAfter =
      pieceHunk before (contextBefore ++ changes ++ contextAfter) := by
  unfold hunkOf pieceHunk
  simp only [(countP_lines _).1, (countP_lines _).2]
  cases contextBefore with
  | cons first rest =>
    obtain ⟨hold, hnew⟩ := h before first (rest ++ changes ++ contextAfter ++ after) (by simp)
    cases first with
    | equal oldLine newLine content =>
      have holdLine := hold oldLine rfl
      have hnewLine := hnew newLine rfl
      subst holdLine hnewLine
      rfl
    | _ => exact nomatch hequal _ (.head _)
  | nil =>
    obtain rfl := hstart rfl
    cases changes with
    | nil => exact absurd rfl hchanges
    | cons first rest =>
      obtain ⟨hold, hnew⟩ := h [] first (rest ++ contextAfter ++ after) (by simp)
      cases first with
      | equal oldLine newLine content =>
        have holdLine := hold oldLine rfl
        have hnewLine := hnew newLine rfl
        subst holdLine hnewLine
        rfl
      | insert newLine content =>
        have hnewLine := hnew newLine rfl
        subst hnewLine
        rfl
      | delete oldLine content =>
        have holdLine := hold oldLine rfl
        subst holdLine
        rfl

def AllChanges (entries : List DiffEntry) : Prop := ∀ e ∈ entries, e.isEqual = false

/-- The lengths of the runs of equal entries before each change, after `n` equal entries. -/
def runsAfter : Nat → List DiffEntry → List Nat
  | _, [] => []
  | n, e :: entries => if e.isEqual then runsAfter (n + 1) entries else n :: runsAfter 0 entries

def innerRuns (diff : List DiffEntry) : List Nat := (runsAfter 0 diff).tail

/-- A run between two changes that merging leaves right. -/
def Mergeable (g : Nat) : Prop := g ≤ 3 ∨ g = 6 ∨ 13 ≤ g

instance (g : Nat) : Decidable (Mergeable g) := inferInstanceAs (Decidable (_ ∨ _ ∨ _))

theorem runsAfter_equals {equals : List DiffEntry} (h : AllEqual equals) (n : Nat)
    (rest : List DiffEntry) : runsAfter n (equals ++ rest) = runsAfter (n + equals.length) rest := by
  induction equals generalizing n with
  | nil => rfl
  | cons e equals ih =>
    rw [cons_append, runsAfter, if_pos (h e (.head _)),
      ih (fun e' he => h e' (.tail _ he)), length_cons, Nat.add_right_comm,
      Nat.add_assoc]

theorem mem_runsAfter_changes {changes rest : List DiffEntry} {n g : Nat}
    (h : AllChanges changes) (hne : changes ≠ []) (hg : g ∈ runsAfter 0 rest ∨ g = n) :
    g ∈ runsAfter n (changes ++ rest) := by
  induction changes generalizing n with
  | nil => exact absurd rfl hne
  | cons e changes ih =>
    rw [cons_append, runsAfter, if_neg (by rw [h e (.head _)]; decide)]
    rcases hg with hg | rfl
    · apply mem_cons_of_mem
      cases changes with
      | nil => exact hg
      | cons e' changes =>
        exact ih (fun x hx => h x (.tail _ hx)) (cons_ne_nil _ _) (.inl hg)
    · exact .head _

def mergeFrom : Hunk → List Hunk → List Hunk
  | last, [] => [last]
  | last, curr :: hunks =>
    let gap := curr.oldStart - (last.oldStart + last.oldCount)
    if gap ≤ unifiedDiffContext * 2 then mergeFrom (mergeHunks last curr gap) hunks
    else last :: mergeFrom curr hunks

theorem mergeAdjacentHunks_cons (first : Hunk) (hunks : List Hunk) :
    mergeAdjacentHunks (first :: hunks) = mergeFrom first hunks := by
  have hfold : ∀ (hunks merged : List Hunk) (last : Hunk),
      (hunks.foldl (fun (merged : List Hunk × Hunk) curr =>
        let gap := curr.oldStart - (merged.2.oldStart + merged.2.oldCount)
        if gap ≤ unifiedDiffContext * 2 then (merged.1, mergeHunks merged.2 curr gap)
        else (merged.1 ++ [merged.2], curr)) (merged, last)).1 ++
      [(hunks.foldl (fun (merged : List Hunk × Hunk) curr =>
        let gap := curr.oldStart - (merged.2.oldStart + merged.2.oldCount)
        if gap ≤ unifiedDiffContext * 2 then (merged.1, mergeHunks merged.2 curr gap)
        else (merged.1 ++ [merged.2], curr)) (merged, last)).2] = merged ++ mergeFrom last hunks := by
    intro hunks
    induction hunks with
    | nil => exact fun _ _ => rfl
    | cons curr hunks ih =>
      intro merged last
      rw [foldl_cons, mergeFrom]
      by_cases hgap : curr.oldStart - (last.oldStart + last.oldCount) ≤ unifiedDiffContext * 2
      · simp only [hgap, if_true]
        exact ih merged _
      · simp only [hgap, if_false]
        rw [ih (merged ++ [last]) curr, append_assoc]
        rfl
  exact hfold hunks [] first

theorem dropContext_piece {before context changes after : List DiffEntry}
    (hequal : AllEqual context) (hchanges : AllChanges changes) (hne : changes ≠ []) :
    (pieceHunk before (context ++ changes ++ after)).dropContext =
      pieceHunk (before ++ context) (changes ++ after) := by
  have htake : ((context ++ changes ++ after).map DiffEntry.unified).takeWhile
      (fun line => line.head? = some ' ') = context.map DiffEntry.unified := by
    obtain ⟨e, changes, rfl⟩ := exists_cons_of_ne_nil hne
    rw [append_assoc, map_append, takeWhile_append_of_pos]
    · rw [cons_append, map_cons, takeWhile_cons_of_neg, append_nil]
      have hchange := hchanges e (.head _)
      cases e with
      | equal oldLine newLine content => simp [DiffEntry.isEqual] at hchange
      | insert newLine content => simp [DiffEntry.unified]
      | delete oldLine content => simp [DiffEntry.unified]
    · intro line hline
      obtain ⟨e, he, rfl⟩ := mem_map.1 hline
      have hsame := hequal e he
      cases e with
      | equal oldLine newLine content => rfl
      | insert newLine content => simp [DiffEntry.isEqual] at hsame
      | delete oldLine content => simp [DiffEntry.isEqual] at hsame
  unfold Hunk.dropContext
  have hlen := hequal.texts
  simp only [pieceHunk] at htake ⊢
  rw [htake]
  simp only [append_assoc, oldText_append, newText_append, length_append, length_map,
    map_append, Hunk.mk.injEq, ← hlen.1, hlen.2]
  refine ⟨?_, ?_, ?_, ?_, ?_⟩
  · omega
  · omega
  · omega
  · omega
  · rw [← length_map (f := DiffEntry.unified), drop_left]

theorem mergeHunks_overlapping {before piece context changes after : List DiffEntry}
    (hequal : AllEqual context) (hne : context ≠ []) (hchanges : AllChanges changes)
    (hsome : changes ≠ []) : let last := pieceHunk before (piece ++ context)
    let curr := pieceHunk (before ++ piece) (context ++ changes ++ after)
    mergeHunks last curr (curr.oldStart - (last.oldStart + last.oldCount)) =
      pieceHunk before (piece ++ context ++ changes ++ after) := by
  intro last curr
  have hlen := hequal.texts
  have hpos : 0 < context.length := length_pos_iff.2 hne
  have hgap : curr.oldStart - (last.oldStart + last.oldCount) = -(context.length : Int) := by
    simp only [last, curr, pieceHunk, oldText_append, length_append, hlen.2]
    omega
  have hoverlap : max last.oldStart curr.oldStart ≤
      min (last.oldStart + last.oldCount - 1) (curr.oldStart + curr.oldCount - 1) := by
    simp only [last, curr, pieceHunk, oldText_append, length_append, hlen.2]
    omega
  have hdrop : curr.dropContext = pieceHunk (before ++ piece ++ context) (changes ++ after) :=
    dropContext_piece hequal hchanges hsome
  have hadded : ¬ 0 < -(context.length : Int) := by omega
  unfold mergeHunks
  simp only [hgap, hoverlap, if_true, hdrop, hadded, if_false]
  simp only [last, pieceHunk, oldText_append, newText_append, length_append, map_append,
    Hunk.mk.injEq, append_assoc, true_and, and_true]
  constructor <;> omega

theorem mergeHunks_touching (before piece next : List DiffEntry) :
    let last := pieceHunk before piece
    let curr := pieceHunk (before ++ piece) next
    curr.oldStart - (last.oldStart + last.oldCount) = 0 ∧
      mergeHunks last curr 0 = pieceHunk before (piece ++ next) := by
  intro last curr
  constructor
  · simp only [last, curr, pieceHunk, oldText_append, length_append]
    omega
  · have hapart : ¬ max last.oldStart curr.oldStart ≤
        min (last.oldStart + last.oldCount - 1) (curr.oldStart + curr.oldCount - 1) := by
      simp only [last, curr, pieceHunk, oldText_append, length_append]
      omega
    unfold mergeHunks
    simp only [hapart, if_false]
    simp [last, curr, pieceHunk]

def lastContext (run : List DiffEntry) : List DiffEntry := run.drop (run.length - unifiedDiffContext)

def EndsChanged (entries : List DiffEntry) : Prop :=
  ∀ front e, entries = front ++ [e] → e.isEqual = false

def StartsChanged (entries : List DiffEntry) : Prop :=
  ∀ e rest, entries = e :: rest → e.isEqual = false

theorem takeWhile_reverse_append {front run : List DiffEntry} (hrun : AllEqual run)
    (hfront : EndsChanged front) :
    ((front ++ run).reverse.takeWhile DiffEntry.isEqual) = run.reverse := by
  rw [reverse_append, takeWhile_append_of_pos fun e he => hrun e (mem_reverse.1 he)]
  rcases eq_nil_or_concat front with rfl | ⟨front', e, rfl⟩
  · exact append_nil _
  · have hchange := hfront front' e (concat_eq_append)
    rw [concat_eq_append, reverse_append, reverse_singleton, singleton_append,
      takeWhile_cons_of_neg (by rw [hchange]; decide), append_nil]

theorem contextBefore_eq {front run : List DiffEntry} (hrun : AllEqual run)
    (hfront : EndsChanged front) :
    (((front ++ run).reverse.takeWhile DiffEntry.isEqual).take unifiedDiffContext).reverse =
      lastContext run := by
  rw [takeWhile_reverse_append hrun hfront, take_reverse, reverse_reverse]
  rfl

structure NextHunk (rest equals changes context after : List DiffEntry) : Prop where
  split : rest = equals ++ (changes ++ (context ++ after))
  equal : AllEqual equals
  change : AllChanges changes
  some : changes ≠ []
  contextEqual : AllEqual context
  contextLength : context.length ≤ unifiedDiffContext
  contextFull : context.length < unifiedDiffContext → StartsChanged after
  contextNone : context = [] → after = []

theorem allChanges_takeWhile (entries : List DiffEntry) :
    AllChanges (entries.takeWhile fun entry => !entry.isEqual) := by
  intro e he
  simpa using mem_takeWhile_imp he

theorem allEqual_takeWhile (entries : List DiffEntry) :
    AllEqual (entries.takeWhile DiffEntry.isEqual) := fun _ he => mem_takeWhile_imp he

theorem drop_length_takeWhile {β : Type*} (p : β → Bool) (l : List β) :
    l.drop (l.takeWhile p).length = l.dropWhile p := by
  have hsplit := takeWhile_append_dropWhile (p := p) (l := l)
  calc l.drop (l.takeWhile p).length
      = (l.takeWhile p ++ l.dropWhile p).drop (l.takeWhile p).length := by rw [hsplit]
    _ = l.dropWhile p := drop_left

theorem head_dropWhile_neg {β : Type*} {p : β → Bool} {l rest : List β} {e : β}
    (h : l.dropWhile p = e :: rest) : p e = false := by
  induction l with
  | nil => exact nomatch h
  | cons a l ih =>
    by_cases ha : p a = true
    · rw [dropWhile_cons_of_pos ha] at h
      exact ih h
    · rw [dropWhile_cons_of_neg ha] at h
      obtain ⟨rfl, -⟩ := List.cons.inj h
      simpa using ha

theorem contextAfter_spec {after : List DiffEntry} (h : ∀ e rest, after = e :: rest → e.isEqual) :
    let context := (after.takeWhile DiffEntry.isEqual).take unifiedDiffContext
    after = context ++ after.drop context.length ∧ AllEqual context ∧
      context.length ≤ unifiedDiffContext ∧
      (context.length < unifiedDiffContext → StartsChanged (after.drop context.length)) ∧
      (context = [] → after = []) := by
  intro context
  have hall : AllEqual context := fun e he =>
    mem_takeWhile_imp (mem_of_mem_take he)
  have hbegins : after = context ++ after.drop context.length := by
    have htake : context = after.take context.length := by
      have hpre : context <+: after := (List.take_prefix _ _).trans (List.takeWhile_prefix _)
      exact prefix_iff_eq_take.1 hpre
    conv_lhs => rw [← take_append_drop context.length after, ← htake]
  refine ⟨hbegins, hall, length_take_le _ _, ?_, ?_⟩
  · intro hshort e rest hdrop
    have hwhole : context = after.takeWhile DiffEntry.isEqual := by
      apply take_of_length_le
      by_contra hlong
      have hlen : context.length = unifiedDiffContext := length_take_of_le (by omega)
      omega
    rw [hwhole, drop_length_takeWhile] at hdrop
    exact head_dropWhile_neg hdrop
  · intro hnone
    cases after with
    | nil => rfl
    | cons e rest =>
      have hfirst := h e rest rfl
      have hsome : context = e :: (rest.takeWhile DiffEntry.isEqual).take 2 := by
        show ((e :: rest).takeWhile DiffEntry.isEqual).take 3 = _
        rw [takeWhile_cons_of_pos hfirst]
        rfl
      rw [hnone] at hsome
      exact nomatch hsome

theorem collectHunks_step {rest front run : List DiffEntry} (hrun : AllEqual run)
    (hfront : EndsChanged front) :
    (AllEqual rest ∧ ∀ fuel, collectHunks fuel (front ++ run).reverse rest = []) ∨
      ∃ equals changes context after, NextHunk rest equals changes context after ∧
        ∀ fuel, collectHunks (fuel + 1) (front ++ run).reverse rest =
          hunkOf (lastContext (run ++ equals)) changes context ::
            collectHunks fuel (front ++ run ++ equals ++ changes ++ context).reverse after := by
  have hrest := takeWhile_append_dropWhile (p := DiffEntry.isEqual) (l := rest)
  have hequal := allEqual_takeWhile rest
  by_cases hnone : rest.dropWhile DiffEntry.isEqual = []
  · left
    rw [hnone, append_nil] at hrest
    refine ⟨hrest ▸ hequal, ?_⟩
    intro fuel
    cases fuel with
    | zero => rfl
    | succ fuel =>
      unfold collectHunks
      simp only [drop_length_takeWhile, hnone, if_true]
  · right
    generalize hequals : rest.takeWhile DiffEntry.isEqual = equals at hrest hequal
    generalize hmore : rest.dropWhile DiffEntry.isEqual = more at hrest hnone
    have hsplit := takeWhile_append_dropWhile (p := fun entry : DiffEntry => !entry.isEqual)
      (l := more)
    have hchange := allChanges_takeWhile more
    have hsome : (more.takeWhile fun entry => !entry.isEqual) ≠ [] := by
      obtain ⟨e, others, rfl⟩ := exists_cons_of_ne_nil hnone
      have hfirst := head_dropWhile_neg hmore
      rw [takeWhile_cons_of_pos (by rw [hfirst]; rfl)]
      exact cons_ne_nil _ _
    have hafter : ∀ e others, (more.dropWhile fun entry => !entry.isEqual) = e :: others →
        e.isEqual := by
      intro e others hcons
      simpa using head_dropWhile_neg hcons
    generalize hchanges : (more.takeWhile fun entry => !entry.isEqual) = changes
      at hsplit hchange hsome
    generalize haft : (more.dropWhile fun entry => !entry.isEqual) = after at hsplit hafter
    obtain ⟨hcontext, hall, hlen, hfull, hempty⟩ := contextAfter_spec hafter
    refine ⟨equals, changes, (after.takeWhile DiffEntry.isEqual).take unifiedDiffContext,
      after.drop ((after.takeWhile DiffEntry.isEqual).take unifiedDiffContext).length,
      ⟨?_, hequal, hchange, hsome, hall, hlen, hfull, ?_⟩, ?_⟩
    · rw [← hcontext, hsplit, hrest]
    · intro hnil
      rw [hempty hnil]
      exact drop_nil
    · intro fuel
      have hdrop : more.drop changes.length = after := by
        rw [← hchanges, drop_length_takeWhile, haft]
      have hbefore : ((((front ++ run).reverse.reverse ++ equals).reverse.takeWhile
          DiffEntry.isEqual).take unifiedDiffContext).reverse = lastContext (run ++ equals) := by
        rw [reverse_reverse, append_assoc]
        exact contextBefore_eq (hrun.append hequal) hfront
      have hseen : equals.reverse ++ (front ++ run).reverse =
          ((front ++ run).reverse.reverse ++ equals).reverse := by
        simp
      have hdropRest : rest.drop equals.length = more := by
        rw [← hequals, drop_length_takeWhile, hmore]
      rw [collectHunks]
      simp only [hequals, hdropRest, hnone, if_false, hchanges, hdrop, hseen, hbefore]
      congr 2
      simp

theorem endsChanged_append {front changes : List DiffEntry} (h : AllChanges changes)
    (hne : changes ≠ []) : EndsChanged (front ++ changes) := by
  intro begin e hend
  rcases eq_nil_or_concat changes with rfl | ⟨others, last, rfl⟩
  · exact absurd rfl hne
  rw [concat_eq_append] at h hend
  rw [← append_assoc] at hend
  obtain ⟨-, hlast⟩ := append_inj' hend rfl
  obtain rfl := singleton_inj.1 hlast
  exact h last (mem_append_right _ (mem_singleton_self last))

theorem lastContext_split (run : List DiffEntry) :
    run = run.take (run.length - unifiedDiffContext) ++ lastContext run :=
  (take_append_drop _ run).symm

theorem NextHunk.mem_runs {rest equals changes context after : List DiffEntry}
    (h : NextHunk rest equals changes context after) (n : Nat) :
    n + equals.length ∈ runsAfter n rest ∧
      ∀ g ∈ runsAfter context.length after, g ∈ runsAfter n rest := by
  have hafter : runsAfter context.length after = runsAfter 0 (context ++ after) := by
    rw [runsAfter_equals h.contextEqual, Nat.zero_add]
  rw [h.split, runsAfter_equals h.equal, hafter]
  exact ⟨mem_runsAfter_changes h.change h.some (.inr rfl),
    fun g hg => mem_runsAfter_changes h.change h.some (.inl hg)⟩

theorem NextHunk.mem_innerRuns {diff equals changes context after : List DiffEntry} {g : Nat}
    (h : NextHunk diff equals changes context after) (hg : g ∈ runsAfter context.length after) :
    g ∈ innerRuns diff := by
  have hafter : runsAfter context.length after = runsAfter 0 (context ++ after) := by
    rw [runsAfter_equals h.contextEqual, Nat.zero_add]
  rw [hafter] at hg
  unfold innerRuns
  rw [h.split, runsAfter_equals h.equal]
  obtain ⟨e, others, hchanges⟩ := exists_cons_of_ne_nil h.some
  have hchange := h.change
  rw [hchanges] at hchange ⊢
  rw [cons_append, runsAfter, if_neg (by rw [hchange e (.head _)]; decide), tail_cons]
  cases others with
  | nil => exact hg
  | cons e' others =>
    exact mem_runsAfter_changes (fun x hx => hchange x (.tail _ hx))
      (cons_ne_nil _ _) (.inl hg)

/-- A script's beginning is its own patch where equal entries follow. -/
theorem pieces_last {before piece rest : List DiffEntry} (h : AllEqual rest) :
    Pieces before (piece ++ rest) (mergeFrom (pieceHunk before piece) []) := by
  have hlast := @Pieces.cons before [] piece rest [] (nofun) (.nil h)
  rw [mergeFrom]
  simpa only [append_nil, nil_append] using hlast

theorem pieces_apart {before piece between rest : List DiffEntry} {hunks : List Hunk}
    (hbetween : AllEqual between) (h : Pieces (before ++ piece ++ between) rest hunks) :
    Pieces before (piece ++ (between ++ rest)) (pieceHunk before piece :: hunks) := by
  have hcons := @Pieces.cons before [] piece _ _ (nofun)
    (by simpa only [append_nil] using h.extend hbetween)
  simpa only [append_nil, nil_append] using hcons

section Step
variable {before body context equals changes more after : List DiffEntry} {hunks : List Hunk}

theorem mergeFrom_overlapping
    (hnumbers : HasNumbers (before ++ body ++ context ++ (changes ++ (more ++ after))))
    (hequal : AllEqual context) (hne : context ≠ []) (hlength : context.length ≤ 3)
    (hchanges : AllChanges changes) (hsome : changes ≠ []) :
    mergeFrom (pieceHunk before (body ++ context))
        (hunkOf (lastContext context) changes more :: hunks) =
      mergeFrom (pieceHunk before (body ++ context ++ changes ++ more)) hunks := by
  have hwhole : lastContext context = context := by
    unfold lastContext
    rw [show context.length - unifiedDiffContext = 0 from Nat.sub_eq_zero_of_le hlength, drop_zero]
  have hcurr : hunkOf context changes more =
      pieceHunk (before ++ body) (context ++ changes ++ more) := by
    apply @hunkOf_eq _ _ _ _ after _ hequal (fun h => absurd h hne) hsome
    simpa only [append_assoc] using hnumbers
  have hclose : (pieceHunk (before ++ body) (context ++ changes ++ more)).oldStart -
      ((pieceHunk before (body ++ context)).oldStart +
        (pieceHunk before (body ++ context)).oldCount) ≤ unifiedDiffContext * 2 := by
    simp only [pieceHunk, oldText_append, length_append, unifiedDiffContext]
    omega
  rw [hwhole, hcurr, mergeFrom]
  simp only [hclose, if_true]
  rw [@mergeHunks_overlapping before body context changes more hequal hne hchanges hsome]

section

variable (hnumbers : HasNumbers (before ++ body ++ context ++ (equals ++ (changes ++ (more ++ after)))))
include hnumbers

theorem mergeFrom_touching
    (hequal : AllEqual equals) (hthree : equals.length = 3) (hsome : changes ≠ []) :
    mergeFrom (pieceHunk before (body ++ context))
        (hunkOf (lastContext (context ++ equals)) changes more :: hunks) =
      mergeFrom (pieceHunk before (body ++ context ++ equals ++ changes ++ more)) hunks := by
  have hlast : lastContext (context ++ equals) = equals := by
    unfold lastContext
    rw [length_append, hthree, show context.length + 3 - unifiedDiffContext = context.length
      from Nat.add_sub_cancel _ 3, drop_left]
  have hne : equals ≠ [] := by
    rintro rfl
    exact nomatch hthree
  have hcurr : hunkOf equals changes more =
      pieceHunk (before ++ (body ++ context)) (equals ++ changes ++ more) := by
    apply @hunkOf_eq _ _ _ _ after _ hequal (fun h => absurd h hne) hsome
    simpa only [append_assoc] using hnumbers
  obtain ⟨hzero, hmerged⟩ :=
    mergeHunks_touching before (body ++ context) (equals ++ changes ++ more)
  rw [hlast, hcurr, mergeFrom]
  simp only [hzero, hmerged, show (0 : Int) ≤ unifiedDiffContext * 2 by decide, if_true]
  simp only [append_assoc]

/-- Beyond thirteen entries or more a hunk of its own begins three before the change. -/
theorem mergeFrom_apart
    (hequal : AllEqual equals) (hcontext : context.length = 3) (hlong : 10 ≤ equals.length)
    (hsome : changes ≠ []) :
    ∃ head tail, equals = head ++ tail ∧
      mergeFrom (pieceHunk before (body ++ context))
          (hunkOf (lastContext (context ++ equals)) changes more :: hunks) =
        pieceHunk before (body ++ context) ::
          mergeFrom (pieceHunk (before ++ (body ++ context) ++ head) (tail ++ changes ++ more))
            hunks := by
  have hlast : lastContext (context ++ equals) = lastContext equals := by
    unfold lastContext unifiedDiffContext
    rw [length_append, show context.length + equals.length - 3 =
      context.length + (equals.length - 3) by omega, drop_append,
      drop_eq_nil_of_le (Nat.le_add_right _ _), nil_append, Nat.add_sub_cancel_left]
  have hsplit := lastContext_split equals
  have htailLength : (lastContext equals).length = 3 := by
    unfold lastContext unifiedDiffContext
    rw [length_drop]
    omega
  generalize equals.take (equals.length - unifiedDiffContext) = head at hsplit
  generalize lastContext equals = tail at hsplit hlast htailLength
  refine ⟨head, tail, hsplit, ?_⟩
  rw [hsplit] at hnumbers hequal hlong
  rw [length_append] at hlong
  have hne : tail ≠ [] := by
    rintro rfl
    exact nomatch htailLength
  have hcurr : hunkOf tail changes more =
      pieceHunk (before ++ (body ++ context) ++ head) (tail ++ changes ++ more) := by
    apply @hunkOf_eq _ _ _ _ after _ hequal.right (fun h => absurd h hne) hsome
    simpa only [append_assoc] using hnumbers
  have hapart : ¬ (pieceHunk (before ++ (body ++ context) ++ head)
      (tail ++ changes ++ more)).oldStart -
        ((pieceHunk before (body ++ context)).oldStart +
          (pieceHunk before (body ++ context)).oldCount) ≤ unifiedDiffContext * 2 := by
    have hlen := hequal.left.texts.2
    simp only [pieceHunk, oldText_append, length_append, unifiedDiffContext, hlen]
    omega
  rw [hlast, hcurr, mergeFrom]
  simp only [hapart, if_false]

end

end Step

/-- Hunks collected and merged over right runs are pieces of the script. -/
theorem pieces_collect (fuel : Nat) {before body context rest : List DiffEntry}
    (hfuel : rest.length ≤ fuel) (hnumbers : HasNumbers (before ++ body ++ context ++ rest))
    (hequal : AllEqual context) (hlength : context.length ≤ 3)
    (hfull : context.length < 3 → StartsChanged rest)
    (hnone : context = [] → rest = []) (hbody : EndsChanged (before ++ body))
    (hruns : ∀ g ∈ runsAfter context.length rest, Mergeable g) :
    Pieces before (body ++ context ++ rest)
      (mergeFrom (pieceHunk before (body ++ context))
        (collectHunks fuel (before ++ body ++ context).reverse rest)) := by
  induction fuel generalizing before body context rest with
  | zero =>
    obtain rfl := length_eq_zero_iff.1 (Nat.le_zero.1 hfuel)
    exact pieces_last nofun
  | succ fuel ih =>
    rcases @collectHunks_step rest _ _ hequal hbody with ⟨hrest, hcollect⟩ |
      ⟨equals, changes, more, after, hnext, hcollect⟩
    · rw [hcollect]
      exact pieces_last hrest
    · obtain ⟨hgap, hmore⟩ := hnext.mem_runs context.length
      have hgood := hruns _ hgap
      have hafterRuns : ∀ g ∈ runsAfter more.length after, Mergeable g :=
        fun g hg => hruns g (hmore g hg)
      have hshorter : after.length ≤ fuel := by
        have hlen := congrArg length hnext.split
        have hpos := length_pos_iff.2 hnext.some
        simp only [length_append] at hlen
        omega
      -- equal entries are left before the next change only where the context is full
      have hfirst : context.length = 3 ∨ equals = [] := by
        by_contra hneither
        obtain ⟨hthree, hne⟩ := not_or.1 hneither
        obtain ⟨e, others, rfl⟩ := exists_cons_of_ne_nil hne
        have hchanged := hfull (by omega) e _ hnext.split
        have hsame := hnext.equal e (.head _)
        rw [hchanged] at hsame
        exact nomatch hsame
      have hlater : ∀ front : List DiffEntry, EndsChanged (front ++ changes) :=
        fun front => endsChanged_append hnext.change hnext.some
      rw [hcollect]
      obtain rfl := hnext.split
      rcases hgood with hshort | hsix | hfar
      · have hequals : equals = [] := by
          rcases hfirst with hthree | hequals
          · exact length_eq_zero_iff.1 (by omega)
          · exact hequals
        subst hequals
        have hcontext : context ≠ [] := by
          intro hempty
          have hrest := hnone hempty
          rw [nil_append, append_eq_nil_iff] at hrest
          exact hnext.some hrest.1
        rw [nil_append] at hnumbers
        rw [append_nil, mergeFrom_overlapping hnumbers hequal hcontext hlength hnext.change
          hnext.some]
        have hrest := @ih before (body ++ context ++ changes) more after hshorter
          (by simpa only [append_assoc, nil_append] using hnumbers)
          hnext.contextEqual hnext.contextLength hnext.contextFull hnext.contextNone
          (by rw [← append_assoc]; exact hlater _) hafterRuns
        simpa only [append_assoc, nil_append] using hrest
      · have hthree : context.length = 3 := by
          rcases hfirst with hthree | hequals
          · exact hthree
          · rw [hequals, length_nil] at hsix
            omega
        rw [mergeFrom_touching hnumbers hnext.equal (by omega) hnext.some]
        have hrest := @ih before (body ++ context ++ equals ++ changes) more after hshorter
          (by simpa only [append_assoc] using hnumbers)
          hnext.contextEqual hnext.contextLength hnext.contextFull hnext.contextNone
          (by rw [← append_assoc]; exact hlater _) hafterRuns
        simpa only [append_assoc] using hrest
      · have hthree : context.length = 3 := by
          rcases hfirst with hthree | hequals
          · exact hthree
          · rw [hequals, length_nil] at hfar
            omega
        obtain ⟨head, tail, rfl, hmerge⟩ := @mergeFrom_apart before body context equals changes more
          after (collectHunks fuel
            (before ++ body ++ context ++ equals ++ changes ++ more).reverse after)
          hnumbers hnext.equal hthree (by omega) hnext.some
        rw [hmerge]
        have hrest := @ih (before ++ (body ++ context) ++ head) (tail ++ changes) more after hshorter
          (by simpa only [append_assoc] using hnumbers)
          hnext.contextEqual hnext.contextLength hnext.contextFull hnext.contextNone
          (by rw [← append_assoc]; exact hlater _) hafterRuns
        have hpieces := pieces_apart hnext.equal.left hrest
        simpa only [append_assoc] using hpieces

/-- The hunks of a script with no run merged wrongly are pieces of it. -/
theorem pieces_unified {diff : List DiffEntry} (hnumbers : HasNumbers diff)
    (hruns : ∀ g ∈ innerRuns diff, Mergeable g) : Pieces [] diff (unifiedHunks diff) := by
  unfold unifiedHunks
  by_cases hall : diff.all DiffEntry.isEqual
  · rw [if_pos hall]
    exact .nil (all_eq_true.1 hall)
  · rw [if_neg hall]
    have hbegin : EndsChanged [] := by
      intro front e h
      exact absurd h.symm (append_ne_nil_of_right_ne_nil _ (cons_ne_nil _ _))
    rcases @collectHunks_step diff [] [] (nofun) hbegin with ⟨hrest, -⟩ |
      ⟨equals, changes, more, after, hnext, hcollect⟩
    · exact absurd (all_eq_true.2 hrest) hall
    obtain ⟨n, hn⟩ : ∃ n, diff.length = n + 1 := by
      apply Nat.exists_eq_succ_of_ne_zero
      intro hzero
      rw [length_eq_zero_iff.1 hzero] at hall
      exact hall rfl
    have hafterLength : after.length ≤ n := by
      have hlen := congrArg length hnext.split
      have hpos := length_pos_iff.2 hnext.some
      simp only [length_append] at hlen
      omega
    have hsplit := lastContext_split equals
    have hwhole : lastContext equals = [] → equals.take (equals.length - unifiedDiffContext) = [] := by
      intro hempty
      have hlen := congrArg length hempty
      rw [lastContext, length_drop, length_nil, unifiedDiffContext] at hlen
      rw [length_eq_zero_iff.1 (show equals.length = 0 by omega)]
      rfl
    generalize equals.take (equals.length - unifiedDiffContext) = head at hsplit hwhole
    generalize htail : lastContext equals = tail at hsplit hwhole
    have hequal := hnext.equal
    rw [hsplit] at hequal
    have hdiff : diff = head ++ (tail ++ changes ++ more ++ after) := by
      rw [hnext.split, hsplit]
      simp only [append_assoc]
    have hfirst : hunkOf tail changes more = pieceHunk head (tail ++ changes ++ more) :=
      @hunkOf_eq _ _ _ _ after (hdiff ▸ hnumbers) hequal.right hwhole hnext.some
    have hlater : ∀ g ∈ runsAfter more.length after, Mergeable g :=
      fun g hg => hruns g (hnext.mem_innerRuns hg)
    have hrest := @pieces_collect n head (tail ++ changes) more after hafterLength
      (by rw [hdiff] at hnumbers; simpa only [append_assoc] using hnumbers)
      hnext.contextEqual hnext.contextLength hnext.contextFull hnext.contextNone
      (by rw [← append_assoc]; exact endsChanged_append hnext.change hnext.some) hlater
    have hseen : equals ++ changes ++ more = head ++ (tail ++ changes) ++ more := by
      rw [hsplit]
      simp only [append_assoc]
    have hstart := hcollect n
    simp only [nil_append, reverse_nil] at hstart
    rw [hn, hstart, mergeAdjacentHunks_cons, htail, hfirst, hseen]
    have hpieces := @Pieces.extend [] _ _ head hequal.left hrest
    rwa [← hdiff] at hpieces

theorem mergeFrom_ne_nil (last : Hunk) (hunks : List Hunk) : mergeFrom last hunks ≠ [] := by
  induction hunks generalizing last with
  | nil => exact cons_ne_nil _ _
  | cons curr hunks ih =>
    rw [mergeFrom]
    split_ifs
    · exact ih _
    · exact cons_ne_nil _ _

theorem collectHunks_ne_nil {diff : List DiffEntry} (h : ¬ diff.all DiffEntry.isEqual) :
    collectHunks diff.length [] diff ≠ [] := by
  have hbegin : EndsChanged [] := by
    intro front e h
    exact absurd h.symm (append_ne_nil_of_right_ne_nil _ (cons_ne_nil _ _))
  rcases @collectHunks_step diff [] [] (nofun) hbegin with ⟨hrest, -⟩ |
    ⟨equals, changes, more, after, -, hcollect⟩
  · exact absurd (all_eq_true.2 hrest) h
  cases diff with
  | nil => exact absurd rfl h
  | cons e diff =>
    intro hnone
    have hstep := hcollect diff.length
    simp only [nil_append, reverse_nil] at hstep
    exact cons_ne_nil _ _ (hstep.symm.trans hnone)

theorem formatUnifiedDiff_eq (diff : List DiffEntry) (filePath : Text) :
    formatUnifiedDiff diff filePath = patchText filePath (unifiedHunks diff) := by
  unfold formatUnifiedDiff patchText unifiedHunks
  by_cases hall : diff.all DiffEntry.isEqual
  · rw [if_pos hall, if_pos hall, if_pos rfl]
  have hsome : mergeAdjacentHunks (collectHunks diff.length [] diff) ≠ [] := by
    obtain ⟨first, hunks, hcollect⟩ := exists_cons_of_ne_nil (collectHunks_ne_nil hall)
    rw [hcollect, mergeAdjacentHunks_cons]
    exact mergeFrom_ne_nil first hunks
  rw [if_neg hall, if_neg hall, if_neg hsome]

theorem IsScript.texts {oldLines newLines : List Text} {diff : List DiffEntry}
    (h : IsScript oldLines newLines diff) : oldText diff = oldLines ∧ newText diff = newLines := by
  unfold oldText newText
  rw [h.old, h.new]
  exact ⟨(numbered_lines oldLines).1, (numbered_lines newLines).1⟩

/-- The patch is faithful where the runs between changes have at most three lines, six, or at
least thirteen. -/
theorem unifiedDiff_faithful (oldLines newLines : List Text) (filePath : Text)
    (hruns : ∀ g ∈ innerRuns (myersDiff oldLines newLines), Mergeable g) :
    formatUnifiedDiff (myersDiff oldLines newLines) filePath =
        patchText filePath (unifiedHunks (myersDiff oldLines newLines)) ∧
      Faithful oldLines newLines (unifiedHunks (myersDiff oldLines newLines)) := by
  have hscript := (myersDiff_shortest oldLines newLines).2.1.script
  have hfaithful := (pieces_unified hscript.hasNumbers hruns).faithful
  rw [hscript.texts.1, hscript.texts.2] at hfaithful
  exact ⟨formatUnifiedDiff_eq _ _, hfaithful⟩

def sampleLine (n : Nat) : Text := [Char.ofNat (97 + n)]

def sampleLines (n : Nat) : List Text := (range n).map sampleLine

theorem unifiedDiff_faithful_sample :
    Faithful (sampleLines 6) ([['x']] ++ sampleLines 6 ++ [['y']])
      (unifiedHunks (myersDiff (sampleLines 6) ([['x']] ++ sampleLines 6 ++ [['y']]))) :=
  (unifiedDiff_faithful _ _ [] (by decide +kernel)).2

/-- Seven equal lines between two changes are counted in the header but not all written. -/
theorem unifiedDiff_miscounted :
    ¬ ∀ oldLines newLines : List Text,
      Faithful oldLines newLines (unifiedHunks (myersDiff oldLines newLines)) := by
  intro hall
  have hcounts := (hall (sampleLines 7) ([['x']] ++ sampleLines 7 ++ [['y']])).counts
  exact absurd hcounts (by decide +kernel)
end Rolebox.Hashline
