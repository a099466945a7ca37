import Rolebox.Hashline.MyersSearch
import Mathlib.Data.List.Enum

/-! The script of a difference spells both lists with the least number of edits. -/

namespace Rolebox.Hashline
open General List Option

section Spelled
variable {oldLines newLines : List Text}

inductive Spelled (oldLines newLines : List Text) : List DiffEntry → Nat → Nat → Prop where
  | nil : Spelled oldLines newLines [] 0 0
  | equal {x y : Nat} {c : Text} {rest : List DiffEntry} : oldLines[x]? = some c →
      newLines[y]? = some c → Spelled oldLines newLines rest x y →
      Spelled oldLines newLines (.equal (x + 1) (y + 1) c :: rest) (x + 1) (y + 1)
  | insert {x y : Nat} {c : Text} {rest : List DiffEntry} : newLines[y]? = some c →
      Spelled oldLines newLines rest x y →
      Spelled oldLines newLines (.insert (y + 1) c :: rest) x (y + 1)
  | delete {x y : Nat} {c : Text} {rest : List DiffEntry} : oldLines[x]? = some c →
      Spelled oldLines newLines rest x y →
      Spelled oldLines newLines (.delete (x + 1) c :: rest) (x + 1) y

def DiffEntry.oldPart : DiffEntry → Option (Nat × Text)
  | equal oldLine _ content => some (oldLine, content)
  | insert _ _ => none
  | delete oldLine content => some (oldLine, content)

def DiffEntry.newPart : DiffEntry → Option (Nat × Text)
  | equal _ newLine content => some (newLine, content)
  | insert newLine content => some (newLine, content)
  | delete _ _ => none

def numbered (lines : List Text) : List (Nat × Text) := lines.mapIdx fun i line => (i + 1, line)

def editCount (entries : List DiffEntry) : Nat := entries.countP fun entry => !entry.isEqual

theorem mapIdx_take_succ {β : Type*} {lines : List Text} {x : Nat} {c : Text}
    (f : Nat → Text → β) (h : lines[x]? = some c) :
    (lines.take (x + 1)).mapIdx f = (lines.take x).mapIdx f ++ [f x c] := by
  have hlt : x < lines.length := (List.getElem?_eq_some_iff.1 h).1
  rw [take_add_one, h, toList_some, mapIdx_append]
  simp [Nat.min_eq_left (Nat.le_of_lt hlt)]

theorem numbered_take_succ {lines : List Text} {x : Nat} {c : Text} (h : lines[x]? = some c) :
    numbered (lines.take (x + 1)) = numbered (lines.take x) ++ [(x + 1, c)] :=
  mapIdx_take_succ _ h

theorem Spelled.old {entries : List DiffEntry} {x y : Nat}
    (h : Spelled oldLines newLines entries x y) :
    entries.reverse.filterMap DiffEntry.oldPart = numbered (oldLines.take x) := by
  induction h with
  | nil => rfl
  | equal hold _ _ ih | delete hold _ ih =>
    rw [reverse_cons, filterMap_append, ih, numbered_take_succ hold]
    rfl
  | insert _ _ ih =>
    rw [reverse_cons, filterMap_append, ih]
    exact append_nil _

theorem Spelled.new {entries : List DiffEntry} {x y : Nat}
    (h : Spelled oldLines newLines entries x y) :
    entries.reverse.filterMap DiffEntry.newPart = numbered (newLines.take y) := by
  induction h with
  | nil => rfl
  | equal _ hnew _ ih | insert hnew _ ih =>
    rw [reverse_cons, filterMap_append, ih, numbered_take_succ hnew]
    rfl
  | delete _ _ ih =>
    rw [reverse_cons, filterMap_append, ih]
    exact append_nil _

theorem editCount_run {run rest : List DiffEntry} {entry : DiffEntry} (hrun : editCount run = 0)
    (hedit : entry.isEqual = false) : editCount (run ++ entry :: rest) = editCount rest + 1 := by
  unfold editCount at hrun ⊢
  rw [countP_append, hrun, countP_cons, hedit, Nat.zero_add]
  rfl

theorem equalRun_spelled (prevX prevY : Int) {u v n : Nat} {rest : List DiffEntry}
    (hx : prevX ≤ u) (hy : prevY ≤ v) (hstop : ¬ (prevX < u ∧ prevY < v))
    (hmatch : Matches oldLines newLines u v n) (h : Spelled oldLines newLines rest u v) :
    (equalRun oldLines prevX prevY (u + n) (v + n)).2 = (u, v) ∧
      editCount (equalRun oldLines prevX prevY (u + n) (v + n)).1 = 0 ∧
      Spelled oldLines newLines ((equalRun oldLines prevX prevY (u + n) (v + n)).1 ++ rest)
        (u + n) (v + n) := by
  induction n with
  | zero =>
    have hnone : equalRun oldLines prevX prevY u v = ([], u, v) := by
      unfold equalRun
      cases u with
      | zero => rfl
      | succ u =>
        cases v with
        | zero => rfl
        | succ v => exact if_neg hstop
    rw [Nat.add_zero, Nat.add_zero, hnone]
    exact ⟨rfl, rfl, h⟩
  | succ n ih =>
    obtain ⟨hplace, hcount, hspelled⟩ := ih (hmatch.mono (Nat.le_succ n))
    obtain ⟨c, hold, hnew⟩ := hmatch n (Nat.lt_succ_self n)
    have hgo : prevX < ((u + n + 1 : Nat) : Int) ∧ prevY < ((v + n + 1 : Nat) : Int) := by omega
    rw [← Nat.add_assoc, ← Nat.add_assoc, equalRun, if_pos hgo]
    refine ⟨hplace, hcount, ?_⟩
    rw [getD_eq_getElem?_getD, hold]
    exact hspelled.equal hold hnew

end Spelled

section Backtracking
variable {oldLines newLines : List Text} {trace : List (List Nat)} {k : Int}

theorem reached_spec {distance d : Nat}
    (h : Searched oldLines newLines distance trace) (hd : d < distance)
    (hparity : (k + d) % 2 = 0) (hlow : -(d : Int) ≤ k) (hhigh : k ≤ d) :
    ∃ x y : Nat, reached? trace d k = some (x : Int) ∧ Furthest oldLines newLines d k x y := by
  obtain ⟨row, hrow, hisRow⟩ := h.rows d hd
  obtain ⟨x, y, hx, hfur⟩ := hisRow.get (i := ((k + d) / 2).toNat) (by omega)
  have hindex : ((2 * ((k + d) / 2).toNat : Nat) : Int) - d = k := by omega
  refine ⟨x, y, ?_, ?_⟩
  · unfold reached?
    rw [if_pos ⟨hparity, by omega⟩, hrow, bind_some, hx]
    rfl
  · rwa [show (2 * (((k + d) / 2).toNat : Int) - d) = k by omega] at hfur

inductive LastEdit (oldLines newLines : List Text) (trace : List (List Nat)) (d x y : Nat) :
    Prop where
  | down (u v n : Nat) : prevK? trace d ((x : Int) - y) = some ((x : Int) - y + 1) →
      reached? trace d ((x : Int) - y + 1) = some (u : Int) →
      Furthest oldLines newLines d ((x : Int) - y + 1) u v → x = u + n → y = v + 1 + n →
      Matches oldLines newLines u (v + 1) n → LastEdit oldLines newLines trace d x y
  | right (u v n : Nat) : prevK? trace d ((x : Int) - y) = some ((x : Int) - y - 1) →
      reached? trace d ((x : Int) - y - 1) = some (u : Int) →
      Furthest oldLines newLines d ((x : Int) - y - 1) u v → x = u + 1 + n → y = v + n →
      Matches oldLines newLines (u + 1) v n → LastEdit oldLines newLines trace d x y

theorem lastEdit_down {d x y u v : Nat} (hfur : Furthest oldLines newLines (d + 1) k x y)
    (hprev : prevK? trace d k = some (k + 1)) (hread : reached? trace d (k + 1) = some (u : Int))
    (hdown : Furthest oldLines newLines d (k + 1) u v)
    (hright : ∀ x y, EditPath oldLines newLines d x y → (x : Int) - y = k - 1 → x + 1 ≤ u) :
    LastEdit oldLines newLines trace d x y := by
  obtain ⟨n, -, hmatch, hend⟩ := @snake_end oldLines newLines u (v + 1)
  obtain ⟨hx, hy⟩ := hfur.eq_of_furthest (hdown.step_down hright hmatch hend)
  obtain rfl := hfur.diagonal
  exact .down u v n hprev hread hdown hx hy hmatch

theorem lastEdit_right {d x y u v : Nat} (hfur : Furthest oldLines newLines (d + 1) k x y)
    (hprev : prevK? trace d k = some (k - 1)) (hread : reached? trace d (k - 1) = some (u : Int))
    (hright : Furthest oldLines newLines d (k - 1) u v)
    (hdown : ∀ x y, EditPath oldLines newLines d x y → (x : Int) - y = k + 1 → x ≤ u + 1) :
    LastEdit oldLines newLines trace d x y := by
  obtain ⟨n, -, hmatch, hend⟩ := @snake_end oldLines newLines (u + 1) v
  obtain ⟨hx, hy⟩ := hfur.eq_of_furthest (hright.step_right hdown hmatch hend)
  obtain rfl := hfur.diagonal
  exact .right u v n hprev hread hright hx hy hmatch

theorem lastEdit_of_furthest {distance d x y : Nat}
    (h : Searched oldLines newLines distance trace) (hd : d < distance)
    (hfur : Furthest oldLines newLines (d + 1) k x y) : LastEdit oldLines newLines trace d x y := by
  obtain ⟨s, -, -, hlen⟩ := hfur.path.common
  have hrange := hfur.path.diagonal_range
  have hdiag := hfur.diagonal
  by_cases hlow : k = -((d + 1 : Nat) : Int)
  · obtain ⟨u, v, hread, hdown⟩ :=
      reached_spec (k := k + 1) h hd (by omega) (by omega) (by omega)
    apply lastEdit_down hfur _ hread hdown
    · intro p q hpath hpq
      have := hpath.diagonal_range
      omega
    · exact if_pos hlow
  · by_cases hhigh : k = ((d + 1 : Nat) : Int)
    · obtain ⟨u, v, hread, hright⟩ :=
        reached_spec (k := k - 1) h hd (by omega) (by omega) (by omega)
      apply lastEdit_right hfur _ hread hright
      · intro p q hpath hpq
        have := hpath.diagonal_range
        omega
      · unfold prevK?
        rw [if_neg hlow, if_pos hhigh]
    · obtain ⟨u, v, hread, hright⟩ :=
        reached_spec (k := k - 1) h hd (by omega) (by omega) (by omega)
      obtain ⟨w, z, hread', hdown⟩ :=
        reached_spec (k := k + 1) h hd (by omega) (by omega) (by omega)
      have hprev : prevK? trace d k = some (if (u : Int) < w then k + 1 else k - 1) := by
        unfold prevK?
        rw [if_neg hlow, if_neg hhigh, hread, hread']
      by_cases hlt : (u : Int) < w
      · rw [if_pos hlt] at hprev
        apply lastEdit_down hfur hprev hread' hdown
        intro p q hpath hpq
        have := hright.furthest p q hpath hpq
        omega
      · rw [if_neg hlt] at hprev
        apply lastEdit_right hfur hprev hread hright
        intro p q hpath hpq
        have := hdown.furthest p q hpath hpq
        omega

/-- The walk back spells the lines before a point, one edit a distance, inside the rows. -/
theorem buildDiff_spec {distance : Nat} (h : Searched oldLines newLines distance trace) {d : Nat}
    (hd : d ≤ distance) {x y : Nat} (hfur : Furthest oldLines newLines d k x y)
    (hx : x ≤ oldLines.length) (hy : y ≤ newLines.length) :
    ∃ entries, buildDiff? oldLines newLines trace d x y = some entries ∧
      Spelled oldLines newLines entries x y ∧ editCount entries = d := by
  induction d generalizing x y k with
  | zero =>
    obtain ⟨rfl, hmatch⟩ := hfur.path.noEdit rfl
    obtain ⟨-, hcount, hspelled⟩ := equalRun_spelled 0 0 (u := 0) (v := 0)
      (by omega) (by omega) (by omega) hmatch .nil
    rw [Nat.zero_add] at hcount hspelled
    rw [append_nil] at hspelled
    exact ⟨_, rfl, hspelled, hcount⟩
  | succ d ih =>
    unfold buildDiff?
    rcases lastEdit_of_furthest h hd hfur with
      ⟨u, v, n, hprev, hread, hback, rfl, rfl, hmatch⟩ |
        ⟨u, v, n, hprev, hread, hback, rfl, rfl, hmatch⟩
    · obtain ⟨rest, hrest, hspelled, hcount⟩ := ih (by omega) hback (by omega) (by omega)
      have hline : newLines[v]? = some newLines[v] := getElem?_eq_getElem (by omega)
      have hv : (u : Int) - ((u + n : Nat) - (v + 1 + n : Nat) + 1) = v := by omega
      obtain ⟨hplace, hnone, hall⟩ :=
        equalRun_spelled u v (by omega) (by omega) (by omega) hmatch
          (hspelled.insert hline)
      simp only [hprev, hread, bind_eq_bind, bind_some, hv, hplace,
        Int.lt_irrefl, if_false]
      rw [if_pos (by omega), Nat.add_sub_cancel, hrest]
      refine ⟨_, rfl, ?_, ?_⟩
      · rw [getD_eq_getElem?_getD, hline]
        exact hall
      · rw [editCount_run hnone rfl, hcount]
    · obtain ⟨rest, hrest, hspelled, hcount⟩ := ih (by omega) hback (by omega) (by omega)
      have hline : oldLines[u]? = some oldLines[u] := getElem?_eq_getElem (by omega)
      have hv : (u : Int) - ((u + 1 + n : Nat) - (v + n : Nat) - 1) = v := by omega
      obtain ⟨hplace, hnone, hall⟩ :=
        equalRun_spelled u v (by omega) (by omega) (by omega) hmatch
          (hspelled.delete hline)
      simp only [hprev, hread, bind_eq_bind, bind_some, hv, hplace]
      rw [if_pos (by omega), Nat.add_sub_cancel, hrest]
      refine ⟨_, rfl, ?_, ?_⟩
      · rw [getD_eq_getElem?_getD, hline]
        exact hall
      · rw [editCount_run hnone rfl, hcount]

end Backtracking

section Shortest
variable {oldLines newLines : List Text}

structure IsScript (oldLines newLines : List Text) (entries : List DiffEntry) : Prop where
  old : entries.filterMap DiffEntry.oldPart = numbered oldLines
  new : entries.filterMap DiffEntry.newPart = numbered newLines

structure IsLongestCommon (oldLines newLines common : List Text) : Prop where
  old : common.Sublist oldLines
  new : common.Sublist newLines
  longest : ∀ other : List Text, other.Sublist oldLines → other.Sublist newLines →
    other.length ≤ common.length

theorem Spelled.isScript {entries : List DiffEntry}
    (h : Spelled oldLines newLines entries oldLines.length newLines.length) :
    IsScript oldLines newLines entries.reverse where
  old := by rw [h.old, take_length]
  new := by rw [h.new, take_length]

theorem exists_longestCommon {distance : Nat}
    (hpath : EditPath oldLines newLines distance oldLines.length newLines.length)
    (hfirst : ∀ e < distance, ¬ EditPath oldLines newLines e oldLines.length newLines.length) :
    ∃ common, IsLongestCommon oldLines newLines common ∧
      distance + 2 * common.length = oldLines.length + newLines.length := by
  obtain ⟨common, hold, hnew, hlen⟩ := hpath.common
  rw [take_length] at hold hnew
  refine ⟨common, ⟨hold, hnew, ?_⟩, hlen⟩
  intro other hold' hnew'
  obtain ⟨e, hsum, hother⟩ := EditPath.of_common hold' hnew'
  by_contra hlonger
  exact hfirst e (by omega) hother

theorem spelled_mapIdx (oldLines newLines lines : List Text) (entry : Nat → Text → DiffEntry) (u v : Nat → Nat)
    (hu : u 0 = 0) (hv : v 0 = 0)
    (hnext : ∀ x c rest, lines[x]? = some c → Spelled oldLines newLines rest (u x) (v x) →
      Spelled oldLines newLines (entry x c :: rest) (u (x + 1)) (v (x + 1)))
    (x : Nat) (hx : x ≤ lines.length) :
    Spelled oldLines newLines ((lines.take x).mapIdx entry).reverse (u x) (v x) := by
  induction x with
  | zero =>
    rw [hu, hv]
    exact .nil
  | succ x ih =>
    have hline : lines[x]? = some lines[x] := getElem?_eq_getElem (by omega)
    rw [mapIdx_take_succ entry hline, reverse_append]
    exact hnext x _ _ hline (ih (by omega))

theorem editCount_mapIdx (lines : List Text) (entry : Nat → Text → DiffEntry)
    (h : ∀ i line, (entry i line).isEqual = false) :
    editCount (lines.mapIdx entry) = lines.length := by
  unfold editCount
  rw [countP_eq_length.2, length_mapIdx]
  intro e he
  obtain ⟨i, hi, rfl⟩ := mem_mapIdx.1 he
  rw [h]
  rfl

/-- A script of both lists with the edits a longest common subsequence leaves. -/
structure IsShortest (oldLines newLines : List Text) (entries : List DiffEntry) : Prop where
  script : IsScript oldLines newLines entries
  least : ∃ common, IsLongestCommon oldLines newLines common ∧
    editCount entries + 2 * common.length = oldLines.length + newLines.length

theorem isShortest_inserts (newLines : List Text) :
    IsShortest [] newLines (newLines.mapIdx fun i line => .insert (i + 1) line) where
  script := by
    have hspelled := spelled_mapIdx [] newLines newLines
      (fun i line => .insert (i + 1) line) (fun _ => 0) id rfl rfl
      (fun x c rest hc h => h.insert hc) newLines.length (Nat.le_refl _)
    rw [take_length] at hspelled
    have hscript := hspelled.isScript
    rwa [reverse_reverse] at hscript
  least := by
    refine ⟨[], ⟨Sublist.refl _, nil_sublist _, ?_⟩, ?_⟩
    · intro other hold _
      exact hold.length_le
    · rw [editCount_mapIdx _ _ fun _ _ => rfl]
      simp

theorem isShortest_deletes (oldLines : List Text) :
    IsShortest oldLines [] (oldLines.mapIdx fun i line => .delete (i + 1) line) where
  script := by
    have hspelled := spelled_mapIdx oldLines [] oldLines
      (fun i line => .delete (i + 1) line) id (fun _ => 0) rfl rfl
      (fun x c rest hc h => h.delete hc) oldLines.length (Nat.le_refl _)
    rw [take_length] at hspelled
    have hscript := hspelled.isScript
    rwa [reverse_reverse] at hscript
  least := by
    refine ⟨[], ⟨nil_sublist _, Sublist.refl _, ?_⟩, ?_⟩
    · intro other _ hnew
      exact hnew.length_le
    · rw [editCount_mapIdx _ _ fun _ _ => rfl]
      simp

theorem isShortest_equals (lines : List Text) :
    IsShortest lines lines (lines.mapIdx fun i line => .equal (i + 1) (i + 1) line) where
  script := by
    have hspelled := spelled_mapIdx lines lines lines
      (fun i line => .equal (i + 1) (i + 1) line) id id rfl rfl
      (fun x c rest hc h => h.equal hc hc) lines.length (Nat.le_refl _)
    rw [take_length] at hspelled
    have hscript := hspelled.isScript
    rwa [reverse_reverse] at hscript
  least := by
    refine ⟨lines, ⟨Sublist.refl _, Sublist.refl _, ?_⟩, ?_⟩
    · intro other hold _
      exact hold.length_le
    · have hnone : editCount (lines.mapIdx fun i line => .equal (i + 1) (i + 1) line) = 0 := by
        unfold editCount
        rw [countP_eq_zero]
        intro e he
        obtain ⟨i, hi, rfl⟩ := mem_mapIdx.1 he
        exact Bool.false_ne_true
      omega

/-- The search reads inside its rows and finds a script with the least number of edits. -/
theorem myersDiff?_spec (oldLines newLines : List Text) :
    ∃ entries, myersDiff? oldLines newLines = some entries ∧
      IsShortest oldLines newLines entries := by
  unfold myersDiff?
  by_cases hold : oldLines = []
  · subst hold
    exact ⟨_, if_pos rfl, isShortest_inserts newLines⟩
  · rw [if_neg hold]
    by_cases hnew : newLines = []
    · subst hnew
      exact ⟨_, if_pos rfl, isShortest_deletes oldLines⟩
    · rw [if_neg hnew]
      by_cases hsame : oldLines = newLines
      · subst hsame
        exact ⟨_, if_pos rfl, isShortest_equals oldLines⟩
      · rw [if_neg hsame]
        obtain ⟨distance, rows, hsearch, hsearched, hfur⟩ :=
          @searchDistance_spec oldLines newLines 0 [] [0] (oldLines.length + newLines.length + 1)
            rfl ⟨fun e he => absurd he (Nat.not_lt_zero e),
              fun e he => absurd he (Nat.not_lt_zero e)⟩ rfl (by omega)
        obtain ⟨entries, hback, hspelled, hcount⟩ :=
          buildDiff_spec hsearched (Nat.le_refl _) hfur (Nat.le_refl _) (Nat.le_refl _)
        refine ⟨entries.reverse, ?_, hspelled.isScript, ?_⟩
        · simp only [hsearch, bind_eq_bind, bind_some, hback]
        have hreverse : editCount entries.reverse = distance := by
          unfold editCount at hcount ⊢
          rw [countP_reverse, hcount]
        rw [hreverse]
        exact exists_longestCommon hfur.path hsearched.first

def DiffEntry.common : DiffEntry → Option Text
  | equal _ _ content => some content
  | insert _ _ => none
  | delete _ _ => none

theorem common_sublist (entries : List DiffEntry) :
    (entries.filterMap DiffEntry.common).Sublist
        ((entries.filterMap DiffEntry.oldPart).map Prod.snd) ∧
      (entries.filterMap DiffEntry.common).Sublist
        ((entries.filterMap DiffEntry.newPart).map Prod.snd) := by
  induction entries with
  | nil => exact ⟨Sublist.refl _, Sublist.refl _⟩
  | cons e entries ih =>
    cases e with
    | equal oldLine newLine content => exact ⟨ih.1.cons_cons content, ih.2.cons_cons content⟩
    | insert newLine content => exact ⟨ih.1, ih.2.cons content⟩
    | delete oldLine content => exact ⟨ih.1.cons content, ih.2⟩

theorem editCount_parts (entries : List DiffEntry) :
    editCount entries + 2 * (entries.filterMap DiffEntry.common).length =
      (entries.filterMap DiffEntry.oldPart).length +
        (entries.filterMap DiffEntry.newPart).length := by
  induction entries with
  | nil => rfl
  | cons e entries ih =>
    have hcount : editCount (e :: entries) = editCount entries + if e.isEqual then 0 else 1 := by
      unfold editCount
      rw [countP_cons]
      cases e.isEqual <;> rfl
    rw [hcount]
    cases e <;>
      simp only [filterMap_cons, DiffEntry.common, DiffEntry.oldPart, DiffEntry.newPart,
        DiffEntry.isEqual, length_cons, Bool.false_eq_true, if_true, if_false] <;>
      omega

theorem numbered_lines (lines : List Text) :
    (numbered lines).map Prod.snd = lines ∧ (numbered lines).length = lines.length := by
  have hlen : (numbered lines).length = lines.length := length_mapIdx
  refine ⟨ext_getElem (by simp [hlen]) ?_, hlen⟩
  intro i _ _
  simp [numbered]

theorem IsShortest.le_of_isScript {entries other : List DiffEntry}
    (h : IsShortest oldLines newLines entries) (hother : IsScript oldLines newLines other) :
    editCount entries ≤ editCount other := by
  obtain ⟨common, hcommon, hsum⟩ := h.least
  have hparts := editCount_parts other
  obtain ⟨hold, hnew⟩ := common_sublist other
  rw [hother.old] at hold hparts
  rw [hother.new] at hnew hparts
  rw [(numbered_lines oldLines).1] at hold
  rw [(numbered_lines newLines).1] at hnew
  rw [(numbered_lines oldLines).2, (numbered_lines newLines).2] at hparts
  have hlongest := hcommon.longest _ hold hnew
  omega

/-- The difference of any lists is read inside its arrays, spells both, and is shortest. -/
theorem myersDiff_shortest (oldLines newLines : List Text) :
    myersDiff? oldLines newLines = some (myersDiff oldLines newLines) ∧
      IsShortest oldLines newLines (myersDiff oldLines newLines) ∧
      ∀ other, IsScript oldLines newLines other →
        editCount (myersDiff oldLines newLines) ≤ editCount other := by
  obtain ⟨entries, hentries, hshortest⟩ := myersDiff?_spec oldLines newLines
  rw [myersDiff_of_some hentries]
  exact ⟨hentries, hshortest, fun other hother => hshortest.le_of_isScript hother⟩

end Shortest
section Report

theorem counts_parts (entries : List DiffEntry) :
    countAdditions entries + (entries.filterMap DiffEntry.common).length =
        (entries.filterMap DiffEntry.newPart).length ∧
      countDeletions entries + (entries.filterMap DiffEntry.common).length =
        (entries.filterMap DiffEntry.oldPart).length := by
  unfold countAdditions countDeletions
  induction entries with
  | nil => exact ⟨rfl, rfl⟩
  | cons entry entries ih =>
    obtain ⟨hnew, hold⟩ := ih
    rw [countP_cons, countP_cons]
    cases entry <;>
      simp only [filterMap_cons, DiffEntry.common, DiffEntry.oldPart, DiffEntry.newPart,
        length_cons, Bool.false_eq_true, if_true, if_false] <;>
      omega

/-- Two parts of a list have in common what they cannot leave out of it. -/
theorem exists_common_part {whole left right : List Text} (hleft : left.Sublist whole)
    (hright : right.Sublist whole) : ∃ common : List Text, common.Sublist left ∧
      common.Sublist right ∧ left.length + right.length ≤ common.length + whole.length := by
  induction whole generalizing left right with
  | nil =>
    cases hleft
    exact ⟨[], nil_sublist _, nil_sublist _, by simpa using hright.length_le⟩
  | cons line whole ih =>
    cases hleft with
    | cons _ hleft =>
      cases hright with
      | cons _ hright =>
        obtain ⟨common, hl, hr, hle⟩ := ih hleft hright
        exact ⟨common, hl, hr, hle.trans (Nat.le_succ _)⟩
      | cons_cons _ hright =>
        obtain ⟨common, hl, hr, hle⟩ := ih hleft hright
        exact ⟨common, hl, hr.cons _, Nat.succ_le_succ hle⟩
    | @cons_cons left _ _ hleft =>
      cases hright with
      | cons _ hright =>
        obtain ⟨common, hl, hr, hle⟩ := ih hleft hright
        refine ⟨common, hl.cons _, hr, ?_⟩
        rw [length_cons, length_cons]
        omega
      | cons_cons _ hright =>
        obtain ⟨common, hl, hr, hle⟩ := ih hleft hright
        refine ⟨line :: common, hl.cons_cons _, hr.cons_cons _, ?_⟩
        simp only [length_cons]
        omega

variable (host : TextHost) (filePath : Text) (hashWidth : Nat)

theorem report_counts {oldLines newLines : List Text} {report : DiffReport}
    (h : generateDiffReport host oldLines newLines filePath hashWidth = report) : ∃ common,
    IsLongestCommon oldLines newLines common ∧ report.additions + common.length = newLines.length ∧
      report.deletions + common.length = oldLines.length ∧
      (report.diff = [] ↔ report.additions + report.deletions = 0) := by
  obtain ⟨entries, hentries, hshortest⟩ := myersDiff?_spec oldLines newLines
  obtain ⟨common, hcommon, hsum⟩ := hshortest.least
  unfold generateDiffReport at h
  rw [myersDiff_of_some hentries] at h
  subst h
  obtain ⟨hnew, hold⟩ := counts_parts entries
  have hparts := editCount_parts entries
  rw [hshortest.script.new, (numbered_lines newLines).2] at hnew hparts
  rw [hshortest.script.old, (numbered_lines oldLines).2] at hold hparts
  have hedits : editCount entries = countAdditions entries + countDeletions entries := by omega
  refine ⟨common, hcommon, by dsimp only; omega, by dsimp only; omega, ?_⟩
  dsimp only
  rw [← hedits, editCount, countP_eq_zero, formatUnifiedDiff]
  split
  · next hall => simpa using hall
  · next hnot =>
    refine ⟨fun hempty => ?_, fun hall => absurd ?_ hnot⟩
    · simp at hempty
    · simpa using hall

/-- The counts of reports measure how far texts are apart, and a report without a diff has none. -/
theorem diff_reports_measure (old mid new : List Text) :
    let report oldLines newLines := generateDiffReport host oldLines newLines filePath hashWidth
    let distance oldLines newLines :=
      (report oldLines newLines).additions + (report oldLines newLines).deletions
    (report old new).additions + old.length = (report old new).deletions + new.length ∧
      (report new old).additions = (report old new).deletions ∧
      (distance old new = 0 ↔ old = new) ∧ ((report old new).diff = [] ↔ old = new) ∧
      distance old new ≤ distance old mid + distance mid new := by
  dsimp only
  generalize hthere : generateDiffReport host old new filePath hashWidth = there
  generalize hback : generateDiffReport host new old filePath hashWidth = back
  generalize hfirst : generateDiffReport host old mid filePath hashWidth = first
  generalize hsecond : generateDiffReport host mid new filePath hashWidth = second
  obtain ⟨common, hcommon, hadded, hdeleted, hdiff⟩ := report_counts host filePath hashWidth hthere
  obtain ⟨common', hcommon', hadded', hdeleted', -⟩ := report_counts host filePath hashWidth hback
  obtain ⟨left, hleft, haddedLeft, hdeletedLeft, -⟩ := report_counts host filePath hashWidth hfirst
  obtain ⟨right, hright, haddedRight, hdeletedRight, -⟩ :=
    report_counts host filePath hashWidth hsecond
  have hle := hcommon.longest common' hcommon'.new hcommon'.old
  have hge := hcommon'.longest common hcommon.new hcommon.old
  have hzero : there.additions + there.deletions = 0 ↔ old = new := by
    constructor
    · intro hsum
      have hold : common.length = old.length := by omega
      have hnew : common.length = new.length := by omega
      exact (hcommon.old.eq_of_length hold).symm.trans (hcommon.new.eq_of_length hnew)
    · rintro rfl
      have hwhole := hcommon.longest old (Sublist.refl _) (Sublist.refl _)
      omega
  obtain ⟨shared, hshared, hshared', hlength⟩ := exists_common_part hleft.new hright.old
  have hbest := hcommon.longest shared (hshared.trans hleft.old) (hshared'.trans hright.new)
  refine ⟨by omega, by omega, hzero, hdiff.trans hzero, by omega⟩

end Report

end Rolebox.Hashline
