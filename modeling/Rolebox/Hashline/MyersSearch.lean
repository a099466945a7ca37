import Rolebox.General.EditGraph
import Rolebox.General.Transition
import Rolebox.Hashline.Diff

/-! The search for the shortest edit script, row by row of furthest places. -/

namespace Rolebox.Hashline
open General List Option

/-- Where `furthest` starts its run; a place outside the row before answers nothing. -/
def start? (distance : Nat) (previous : List Nat) (i : Nat) : Option Nat :=
  if i = 0 then previous[i]?
  else if i = distance then previous[i - 1]?.map (· + 1)
  else match previous[i - 1]?, previous[i]? with
    | some before, some after => some (if before < after then after else before + 1)
    | _, _ => none

def furthest? (oldLines newLines : List Text) (distance : Nat) (previous : List Nat) (i : Nat) :
    Option (Nat × Nat) :=
  (start? distance previous i).map fun x =>
    snake oldLines newLines (oldLines.length + 1) x (x + distance - 2 * i)

def frontier? (oldLines newLines : List Text) (distance : Nat) (previous : List Nat) :
    Nat → Nat → List Nat → Option (List Nat × Bool)
  | 0, _, current => some (current, false)
  | fuel + 1, i, current => do
    let place ← furthest? oldLines newLines distance previous i
    let current := current ++ [place.1]
    if oldLines.length ≤ place.1 ∧ newLines.length ≤ place.2 then some (current, true)
    else frontier? oldLines newLines distance previous fuel (i + 1) current

def searchDistance? (oldLines newLines : List Text) :
    Nat → Nat → List Nat → List (List Nat) → Option (Nat × List (List Nat))
  | 0, _, _, _ => none
  | fuel + 1, distance, previous, trace => do
    let found ← frontier? oldLines newLines distance previous (distance + 1) 0 []
    let trace := trace ++ [found.1]
    if found.2 then some (distance, trace)
    else searchDistance? oldLines newLines fuel (distance + 1) found.1 trace

/-- `trace[distance - 1][…]`; an index that is no place of the array answers nothing. -/
def reached? (trace : List (List Nat)) (distance : Nat) (diagonal : Int) : Option Int :=
  if (diagonal + distance) % 2 = 0 ∧ 0 ≤ diagonal + distance then
    ((trace)[distance]?.bind fun row => row[((diagonal + distance) / 2).toNat]?).map Nat.cast
  else none

def prevK? (trace : List (List Nat)) (distance : Nat) (k : Int) : Option Int :=
  if k = -((distance + 1 : Nat) : Int) then some (k + 1)
  else if k = ((distance + 1 : Nat) : Int) then some (k - 1)
  else match reached? trace distance (k - 1), reached? trace distance (k + 1) with
    | some before, some after => some (if before < after then k + 1 else k - 1)
    | _, _ => none

def buildDiff? (oldLines newLines : List Text) (trace : List (List Nat)) :
    Nat → Nat → Nat → Option (List DiffEntry)
  | 0, x, y => some (equalRun oldLines 0 0 x y).1
  | distance + 1, x, y => do
    let prevK ← prevK? trace distance ((x : Int) - y)
    let prevX ← reached? trace distance prevK
    let prevY := prevX - prevK
    let run := equalRun oldLines prevX prevY x y
    match run.2 with
    | (x, y) =>
      if prevX < x then do
        let rest ← buildDiff? oldLines newLines trace distance (x - 1) y
        some (run.1 ++ .delete x (oldLines.getD (x - 1) []) :: rest)
      else if prevY < y then do
        let rest ← buildDiff? oldLines newLines trace distance x (y - 1)
        some (run.1 ++ .insert y (newLines.getD (y - 1) []) :: rest)
      else do
        let rest ← buildDiff? oldLines newLines trace distance x y
        some (run.1 ++ rest)

/-- `myersDiff` where a place read outside its row answers nothing. -/
def myersDiff? (oldLines newLines : List Text) : Option (List DiffEntry) :=
  if oldLines = [] then some (newLines.mapIdx fun i line => .insert (i + 1) line)
  else if newLines = [] then some (oldLines.mapIdx fun i line => .delete (i + 1) line)
  else if oldLines = newLines then
    some (oldLines.mapIdx fun i line => .equal (i + 1) (i + 1) line)
  else do
    let max := oldLines.length + newLines.length
    let found ← searchDistance? oldLines newLines (max + 1) 0 [0] []
    let entries ← buildDiff? oldLines newLines found.2 found.1 oldLines.length newLines.length
    some entries.reverse

section Lookups
variable {oldLines newLines : List Text}
variable {distance i : Nat} {previous : List Nat} {trace : List (List Nat)}

theorem furthest_of_start {x : Nat} (h : start? distance previous i = some x) :
    furthest oldLines newLines distance previous i =
      snake oldLines newLines (oldLines.length + 1) x (x + distance - 2 * i) := by
  unfold start? at h
  unfold furthest
  by_cases hzero : i = 0
  · subst hzero
    simp only [if_true] at h
    simp [getD_eq_getElem?_getD, h]
  · by_cases hlast : i = distance
    · subst hlast
      simp only [hzero, if_false, if_true] at h
      obtain ⟨before, hbefore, rfl⟩ := map_eq_some_iff.1 h
      simp [hzero, getD_eq_getElem?_getD, hbefore]
    · simp only [hzero, hlast, if_false] at h
      cases hbefore : previous[i - 1]? with
      | none => rw [hbefore] at h; exact nomatch h
      | some before =>
        cases hafter : previous[i]? with
        | none => rw [hbefore, hafter] at h; exact nomatch h
        | some after =>
          rw [hbefore, hafter] at h
          cases h
          simp [hzero, hlast, getD_eq_getElem?_getD, hbefore, hafter]

theorem furthest_of_some {place : Nat × Nat}
    (h : furthest? oldLines newLines distance previous i = some place) :
    furthest oldLines newLines distance previous i = place := by
  obtain ⟨x, hx, rfl⟩ := map_eq_some_iff.1 h
  exact furthest_of_start hx

theorem frontier_of_some {fuel : Nat} {current : List Nat} {found : List Nat × Bool}
    (h : frontier? oldLines newLines distance previous fuel i current = some found) :
    frontier oldLines newLines distance previous fuel i current = found := by
  induction fuel generalizing i current with
  | zero => exact Option.some.inj h
  | succ fuel ih =>
    unfold frontier? at h
    unfold frontier
    obtain ⟨place, hplace, hrest⟩ := bind_eq_some_iff.1 h
    rw [furthest_of_some hplace]
    by_cases hend : oldLines.length ≤ place.1 ∧ newLines.length ≤ place.2
    · simp only [hend, and_self, if_true] at hrest ⊢
      exact Option.some.inj hrest
    · simp only [hend, if_false] at hrest ⊢
      exact ih hrest

theorem searchDistance_of_some {fuel : Nat} {found : Nat × List (List Nat)}
    (h : searchDistance? oldLines newLines fuel distance previous trace = some found) :
    searchDistance oldLines newLines fuel distance previous trace = some found := by
  induction fuel generalizing distance previous trace with
  | zero => exact nomatch h
  | succ fuel ih =>
    unfold searchDistance? at h
    unfold searchDistance
    obtain ⟨row, hrow, hrest⟩ := bind_eq_some_iff.1 h
    rw [frontier_of_some hrow]
    by_cases hend : row.2 = true
    · simp only [hend, if_true] at hrest ⊢
      exact hrest
    · simp only [hend] at hrest ⊢
      exact ih hrest

theorem reached_of_some {diagonal x : Int} (h : reached? trace distance diagonal = some x) :
    (((trace.getD distance []).getD ((diagonal + distance) / 2).toNat 0 : Nat) : Int) = x := by
  unfold reached? at h
  by_cases hindex : (diagonal + distance) % 2 = 0 ∧ 0 ≤ diagonal + distance
  · rw [if_pos hindex] at h
    obtain ⟨place, hplace, rfl⟩ := map_eq_some_iff.1 h
    obtain ⟨row, hrow, hread⟩ := bind_eq_some_iff.1 hplace
    simp [getD_eq_getElem?_getD, hrow, hread]
  · rw [if_neg hindex] at h
    exact nomatch h

theorem prevK_of_some {k j : Int} (h : prevK? trace distance k = some j) :
    (if k = -((distance + 1 : Nat) : Int) ∨ (k ≠ ((distance + 1 : Nat) : Int) ∧
        (((trace.getD distance []).getD ((k - 1 + distance) / 2).toNat 0 : Nat) : Int) <
          (((trace.getD distance []).getD ((k + 1 + distance) / 2).toNat 0 : Nat) : Int))
      then k + 1 else k - 1) = j := by
  unfold prevK? at h
  by_cases hlow : k = -((distance + 1 : Nat) : Int)
  · rw [if_pos hlow] at h
    rw [if_pos (.inl hlow)]
    exact Option.some.inj h
  · rw [if_neg hlow] at h
    by_cases hhigh : k = ((distance + 1 : Nat) : Int)
    · rw [if_pos hhigh] at h
      rw [if_neg fun hor => hor.elim hlow fun hand => hand.1 hhigh]
      exact Option.some.inj h
    · rw [if_neg hhigh] at h
      cases hbefore : reached? trace distance (k - 1) with
      | none => rw [hbefore] at h; exact nomatch h
      | some before =>
        cases hafter : reached? trace distance (k + 1) with
        | none => rw [hbefore, hafter] at h; exact nomatch h
        | some after =>
          rw [hbefore, hafter] at h
          rw [reached_of_some hbefore, reached_of_some hafter]
          simp only [hlow, hhigh, false_or, ne_eq, not_false_eq_true, true_and]
          exact Option.some.inj h

theorem buildDiff_of_some {x y : Nat} {entries : List DiffEntry}
    (h : buildDiff? oldLines newLines trace distance x y = some entries) :
    buildDiff oldLines newLines trace distance x y = entries := by
  induction distance generalizing x y entries with
  | zero => exact Option.some.inj h
  | succ distance ih =>
    unfold buildDiff? at h
    unfold buildDiff
    obtain ⟨prevK, hprevK, h⟩ := bind_eq_some_iff.1 h
    obtain ⟨prevX, hprevX, h⟩ := bind_eq_some_iff.1 h
    simp only [prevK_of_some hprevK, reached_of_some hprevX]
    simp only at h
    by_cases hdelete : prevX < (equalRun oldLines prevX (prevX - prevK) x y).2.1
    · simp only [hdelete, if_true] at h ⊢
      obtain ⟨rest, hrest, hentries⟩ := bind_eq_some_iff.1 h
      rw [ih hrest]
      exact Option.some.inj hentries
    · simp only [hdelete, if_false] at h ⊢
      by_cases hinsert : prevX - prevK < (equalRun oldLines prevX (prevX - prevK) x y).2.2
      · simp only [hinsert, if_true] at h ⊢
        obtain ⟨rest, hrest, hentries⟩ := bind_eq_some_iff.1 h
        rw [ih hrest]
        exact Option.some.inj hentries
      · simp only [hinsert, if_false] at h ⊢
        obtain ⟨rest, hrest, hentries⟩ := bind_eq_some_iff.1 h
        rw [ih hrest]
        exact Option.some.inj hentries

theorem myersDiff_of_some {entries : List DiffEntry}
    (h : myersDiff? oldLines newLines = some entries) : myersDiff oldLines newLines = entries := by
  unfold myersDiff? at h
  unfold myersDiff
  by_cases hold : oldLines = []
  · rw [if_pos hold] at h ⊢
    exact Option.some.inj h
  · rw [if_neg hold] at h ⊢
    by_cases hnew : newLines = []
    · rw [if_pos hnew] at h ⊢
      exact Option.some.inj h
    · rw [if_neg hnew] at h ⊢
      by_cases hsame : oldLines = newLines
      · rw [if_pos hsame] at h ⊢
        exact Option.some.inj h
      · rw [if_neg hsame] at h ⊢
        obtain ⟨found, hfound, h⟩ := bind_eq_some_iff.1 h
        obtain ⟨back, hback, h⟩ := bind_eq_some_iff.1 h
        simp only [searchDistance_of_some hfound, buildDiff_of_some hback]
        exact Option.some.inj h

end Lookups

section Rows
variable {oldLines newLines : List Text}
variable {distance : Nat} {row : List Nat} {trace : List (List Nat)}

theorem snake_run (fuel x y : Nat) :
    ∃ n, snake oldLines newLines fuel x y = (x + n, y + n) ∧ Matches oldLines newLines x y n ∧
      (oldLines.length < x + fuel →
        ∀ c, oldLines[x + n]? = some c → newLines[y + n]? ≠ some c) := by
  induction fuel generalizing x y with
  | zero =>
    refine ⟨0, rfl, .zero x y, ?_⟩
    intro hlen c hc
    have hlt := (List.getElem?_eq_some_iff.1 hc).1
    omega
  | succ fuel ih =>
    unfold snake
    cases hold : oldLines[x]? with
    | none => exact ⟨0, rfl, .zero x y, fun _ c hc => by simp [hold] at hc⟩
    | some a =>
      cases hnew : newLines[y]? with
      | none => exact ⟨0, rfl, .zero x y, fun _ c _ => by simp [hnew]⟩
      | some b =>
        by_cases hsame : a = b
        · obtain ⟨n, hsnake, hmatch, hend⟩ := ih (x + 1) (y + 1)
          subst hsame
          refine ⟨n + 1, ?_, hmatch.cons hold hnew, ?_⟩
          · simp only [if_true, hsnake, Prod.mk.injEq]
            omega
          · intro hlen c hc
            rw [show x + (n + 1) = x + 1 + n by omega] at hc
            rw [show y + (n + 1) = y + 1 + n by omega]
            exact hend (by omega) c hc
        · refine ⟨0, if_neg hsame, .zero x y, ?_⟩
          intro _ c hc hc'
          rw [Nat.add_zero, hold] at hc
          rw [Nat.add_zero, hnew] at hc'
          exact hsame ((Option.some.inj hc).trans (Option.some.inj hc').symm)

theorem snake_end (x y : Nat) :
    ∃ n, snake oldLines newLines (oldLines.length + 1) x y = (x + n, y + n) ∧
      Matches oldLines newLines x y n ∧
      ∀ c, oldLines[x + n]? = some c → newLines[y + n]? ≠ some c := by
  obtain ⟨n, hsnake, hmatch, hend⟩ := snake_run (oldLines.length + 1) x y
  exact ⟨n, hsnake, hmatch, hend (by omega)⟩

structure IsRow (oldLines newLines : List Text) (distance : Nat) (row : List Nat) : Prop where
  length : row.length = distance + 1
  furthest : ∀ (i : Nat) (x : Nat), row[i]? = some x →
    ∃ y, Furthest oldLines newLines distance (2 * i - distance) x y

theorem IsRow.get {i : Nat} (h : IsRow oldLines newLines distance row) (hi : i ≤ distance) :
    ∃ x y, row[i]? = some x ∧ Furthest oldLines newLines distance (2 * i - distance) x y := by
  have hlt : i < row.length := by
    rw [h.length]
    exact Nat.lt_succ_of_le hi
  obtain ⟨y, hy⟩ := h.furthest i row[i] (getElem?_eq_getElem hlt)
  exact ⟨row[i], y, getElem?_eq_getElem hlt, hy⟩

def Prior (oldLines newLines : List Text) : Nat → List Nat → Prop
  | 0, previous => previous = [0]
  | distance + 1, previous => IsRow oldLines newLines distance previous

section Neighbours
variable {d i u v : Nat} {previous : List Nat}

theorem furthest_down (hstart : start? (d + 1) previous i = some u)
    (h : Furthest oldLines newLines d (2 * i - d) u v)
    (hright : ∀ x y, EditPath oldLines newLines d x y →
      (x : Int) - y = 2 * i - (d + 1 : Nat) - 1 → x + 1 ≤ u) :
    ∃ x y, furthest? oldLines newLines (d + 1) previous i = some (x, y) ∧
      Furthest oldLines newLines (d + 1) (2 * i - (d + 1 : Nat)) x y := by
  have hdiag := h.diagonal
  rw [show (2 * i - d : Int) = 2 * i - (d + 1 : Nat) + 1 by omega] at h
  obtain ⟨n, hsnake, hmatch, hend⟩ := @snake_end oldLines newLines u (v + 1)
  refine ⟨u + n, v + 1 + n, ?_, h.step_down hright hmatch hend⟩
  unfold furthest?
  rw [hstart, map_some, show u + (d + 1) - 2 * i = v + 1 by omega, hsnake]

theorem furthest_right (hstart : start? (d + 1) previous i = some (u + 1))
    (h : Furthest oldLines newLines d (2 * i - d - 2) u v)
    (hdown : ∀ x y, EditPath oldLines newLines d x y →
      (x : Int) - y = 2 * i - (d + 1 : Nat) + 1 → x ≤ u + 1) :
    ∃ x y, furthest? oldLines newLines (d + 1) previous i = some (x, y) ∧
      Furthest oldLines newLines (d + 1) (2 * i - (d + 1 : Nat)) x y := by
  have hdiag := h.diagonal
  rw [show (2 * i - d - 2 : Int) = 2 * i - (d + 1 : Nat) - 1 by omega] at h
  obtain ⟨n, hsnake, hmatch, hend⟩ := @snake_end oldLines newLines (u + 1) v
  refine ⟨u + 1 + n, v + n, ?_, h.step_right hdown hmatch hend⟩
  unfold furthest?
  rw [hstart, map_some, show u + 1 + (d + 1) - 2 * i = v by omega, hsnake]

end Neighbours

variable {previous : List Nat}

theorem furthest_of_prior {i : Nat}
    (h : Prior oldLines newLines distance previous) (hi : i ≤ distance) :
    ∃ x y, furthest? oldLines newLines distance previous i = some (x, y) ∧
      Furthest oldLines newLines distance (2 * i - distance) x y := by
  cases distance with
  | zero =>
    obtain rfl : previous = [0] := h
    obtain rfl : i = 0 := Nat.le_zero.1 hi
    obtain ⟨n, hsnake, hmatch, hend⟩ := @snake_end oldLines newLines 0 0
    simp only [Nat.zero_add] at hsnake hend
    exact ⟨n, n, congrArg some hsnake, Furthest.zero hmatch hend⟩
  | succ d =>
    have hrow : IsRow oldLines newLines d previous := h
    by_cases hzero : i = 0
    · -- no path stands on the diagonal below the lowest
      subst hzero
      obtain ⟨u, v, hu, hfur⟩ := hrow.get (Nat.zero_le d)
      apply furthest_down (u := u) (v := v) _ hfur
      · intro x y hpath hxy
        have := hpath.diagonal_range
        omega
      · simp [start?, hu]
    · by_cases hlast : i = d + 1
      · subst hlast
        obtain ⟨u, v, hu, hfur⟩ := hrow.get (Nat.le_refl d)
        apply furthest_right (u := u) (v := v) (by simp [start?, hu])
        · rwa [show (2 * (d + 1 : Nat) - d - 2 : Int) = 2 * d - d by omega]
        · intro x y hpath hxy
          have := hpath.diagonal_range
          omega
      · obtain ⟨before, y, hbefore, hfur⟩ := hrow.get (show i - 1 ≤ d by omega)
        obtain ⟨after, z, hafter, hfur'⟩ := hrow.get (show i ≤ d by omega)
        have hshift : (2 * (i - 1 : Nat) - d : Int) = 2 * i - d - 2 := by omega
        rw [hshift] at hfur
        have hstart : start? (d + 1) previous i =
            some (if before < after then after else before + 1) := by
          simp [start?, hzero, hlast, hbefore, hafter]
        by_cases hlt : before < after
        · rw [if_pos hlt] at hstart
          apply furthest_down hstart hfur'
          intro u v hpath huv
          have := hfur.furthest u v hpath (by omega)
          omega
        · rw [if_neg hlt] at hstart
          apply furthest_right hstart hfur
          intro u v hpath huv
          have := hfur'.furthest u v hpath (by omega)
          omega

theorem IsRow.not_reached (h : IsRow oldLines newLines distance row)
    (hopen : ∀ (i x y : Nat), row[i]? = some x →
      Furthest oldLines newLines distance (2 * i - distance) x y →
      ¬ (oldLines.length ≤ x ∧ newLines.length ≤ y)) :
    ¬ EditPath oldLines newLines distance oldLines.length newLines.length := by
  intro hpath
  obtain ⟨s, -, -, hlen⟩ := hpath.common
  have hrange := hpath.diagonal_range
  obtain ⟨x, y, hx, hfur⟩ :=
    h.get (i := (oldLines.length + distance - newLines.length) / 2) (by omega)
  have hle := hfur.furthest _ _ hpath (by omega)
  have hdiag := hfur.diagonal
  exact hopen _ _ _ hx hfur ⟨hle, by omega⟩

/-- A distance ends at a point past both ends, or with a row that has none. -/
theorem frontier_spec (h : Prior oldLines newLines distance previous)
    (fuel i : Nat) (current : List Nat) (hfuel : i + fuel = distance + 1)
    (hlen : current.length = i) (hplaces : ∀ (j x : Nat), current[j]? = some x → ∃ y,
      Furthest oldLines newLines distance (2 * j - distance) x y ∧
        ¬ (oldLines.length ≤ x ∧ newLines.length ≤ y)) :
    ∃ row ended, frontier? oldLines newLines distance previous fuel i current = some (row, ended) ∧
      (ended = true → ∃ k x y, Furthest oldLines newLines distance k x y ∧
        oldLines.length ≤ x ∧ newLines.length ≤ y) ∧
      (ended = false → IsRow oldLines newLines distance row ∧
        ¬ EditPath oldLines newLines distance oldLines.length newLines.length) := by
  induction fuel generalizing i current with
  | zero =>
    refine ⟨current, false, rfl, (nofun), fun _ => ?_⟩
    have hrow : IsRow oldLines newLines distance current :=
      ⟨by omega, fun j x hx => ⟨_, (hplaces j x hx).choose_spec.1⟩⟩
    refine ⟨hrow, hrow.not_reached ?_⟩
    intro j x y hx hfur
    obtain ⟨z, hfur', hopen⟩ := hplaces j x hx
    obtain ⟨-, rfl⟩ := hfur.eq_of_furthest hfur'
    exact hopen
  | succ fuel ih =>
    obtain ⟨x, y, hplace, hfur⟩ := furthest_of_prior h (show i ≤ distance by omega)
    unfold frontier?
    rw [hplace]
    by_cases hend : oldLines.length ≤ x ∧ newLines.length ≤ y
    · refine ⟨current ++ [x], true, ?_, fun _ => ⟨_, x, y, hfur, hend.1, hend.2⟩, nofun⟩
      simp [hend.1, hend.2]
    · obtain ⟨row, ended, hrow, hspec⟩ := ih (i + 1) (current ++ [x]) (by omega)
        (by simp [hlen]) (by
          intro j z hz
          rcases getElem?_snoc hz with ⟨-, hold⟩ | ⟨rfl, rfl⟩
          · exact hplaces j z hold
          · exact ⟨y, hlen ▸ hfur, hend⟩)
      refine ⟨row, ended, ?_, hspec⟩
      rw [← hrow]
      simp only [bind_eq_bind, bind_some, hend, if_false]

/-- The rows of the distances below one, and that none of them reaches both ends. -/
structure Searched (oldLines newLines : List Text) (distance : Nat) (trace : List (List Nat)) :
    Prop where
  rows : ∀ e < distance, ∃ row, (trace)[e]? = some row ∧ IsRow oldLines newLines e row
  first : ∀ e < distance, ¬ EditPath oldLines newLines e oldLines.length newLines.length

theorem Searched.snoc (h : Searched oldLines newLines distance trace)
    (hlen : trace.length = distance) (hrow : IsRow oldLines newLines distance row)
    (hopen : ¬ EditPath oldLines newLines distance oldLines.length newLines.length) :
    Searched oldLines newLines (distance + 1) (trace ++ [row]) where
  rows := by
    intro e he
    rcases Nat.lt_succ_iff_lt_or_eq.1 he with he | rfl
    · obtain ⟨old, hold, hisRow⟩ := h.rows e he
      exact ⟨old, by rw [getElem?_append_left (by omega), hold], hisRow⟩
    · refine ⟨row, ?_, hrow⟩
      rw [getElem?_append_right (by omega), hlen, Nat.sub_self]
      rfl
  first := by
    intro e he
    rcases Nat.lt_succ_iff_lt_or_eq.1 he with he | rfl
    · exact h.first e he
    · exact hopen

theorem Searched.append (row : List Nat) (h : Searched oldLines newLines distance trace) :
    Searched oldLines newLines distance (trace ++ [row]) where
  rows := by
    intro e he
    obtain ⟨old, hold, hisRow⟩ := h.rows e he
    have hlt : e < trace.length := (List.getElem?_eq_some_iff.1 hold).1
    exact ⟨old, by rw [getElem?_append_left hlt, hold], hisRow⟩
  first := h.first

theorem editPath_all :
    EditPath oldLines newLines (oldLines.length + newLines.length) oldLines.length
      newLines.length := by
  obtain ⟨d, hsum, hpath⟩ := EditPath.of_common (nil_sublist oldLines) (nil_sublist newLines)
  rwa [show d = oldLines.length + newLines.length by simpa using hsum] at hpath

theorem searchDistance_spec {fuel : Nat} (hprior : Prior oldLines newLines distance previous)
    (hsearched : Searched oldLines newLines distance trace) (hlen : trace.length = distance)
    (hfuel : oldLines.length + newLines.length < distance + fuel) :
    ∃ found rows, searchDistance? oldLines newLines fuel distance previous trace =
        some (found, rows) ∧ Searched oldLines newLines found rows ∧
      Furthest oldLines newLines found ((oldLines.length : Int) - newLines.length)
        oldLines.length newLines.length := by
  induction fuel generalizing distance previous trace with
  | zero => exact absurd editPath_all (hsearched.first _ (by omega))
  | succ fuel ih =>
    obtain ⟨row, ended, hfrontier, hended, hopen⟩ :=
      frontier_spec hprior (distance + 1) 0 [] (by omega) rfl
        (nofun)
    unfold searchDistance?
    rw [hfrontier]
    cases ended with
    | true =>
      obtain ⟨k, x, y, hfur, hx, hy⟩ := hended rfl
      obtain ⟨rfl, rfl⟩ := Furthest.at_end hfur.path hx hy hsearched.first
      refine ⟨distance, trace ++ [row], rfl, hsearched.append row, ?_⟩
      rwa [hfur.diagonal]
    | false =>
      obtain ⟨hrow, hnot⟩ := hopen rfl
      exact ih (show Prior oldLines newLines (distance + 1) row from hrow)
        (hsearched.snoc hlen hrow hnot) (by simp [hlen]) (by omega)

end Rows
end Rolebox.Hashline
