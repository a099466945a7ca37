import Rolebox.General.Lines

/-! Reading the complete lines of a text that grows, from where the last reading ended. -/

namespace General
open List
variable {α : Type*} [DecidableEq α] {nl : α}

/-- The lines, each closed by a separator, as one text. -/
def joined (nl : α) (ls : List (List α)) : List α := ls.flatMap (· ++ [nl])

omit [DecidableEq α] in
@[simp] theorem joined_nil : joined nl [] = [] := rfl

omit [DecidableEq α] in
@[simp] theorem joined_cons (l : List α) (ls : List (List α)) :
    joined nl (l :: ls) = l ++ nl :: joined nl ls := by
  unfold joined
  rw [flatMap_cons, append_assoc, singleton_append]

omit [DecidableEq α] in
theorem joined_append (ls ls' : List (List α)) :
    joined nl (ls ++ ls') = joined nl ls ++ joined nl ls' := flatMap_append

theorem exists_joined (nl : α) (xs : List α) :
    ∃ ls tail, (∀ l ∈ ls, nl ∉ l) ∧ nl ∉ tail ∧ xs = joined nl ls ++ tail := by
  induction xs using lines_induction nl with
  | last l hl => exact ⟨[], l, nofun, hl, rfl⟩
  | line l rest hl ih =>
    obtain ⟨ls, tail, hls, htail, rfl⟩ := ih
    refine ⟨l :: ls, tail, fun m hm => ?_, htail, ?_⟩
    · rcases mem_cons.1 hm with rfl | hm
      · exact hl
      · exact hls m hm
    · rw [joined_cons, append_assoc, cons_append]

def lastIndexOf (nl : α) : List α → Option Nat
  | [] => none
  | x :: xs =>
    match lastIndexOf nl xs with
    | some k => some (k + 1)
    | none => if x = nl then some 0 else none

theorem lastIndexOf_of_not_mem {l : List α} (h : nl ∉ l) : lastIndexOf nl l = none := by
  induction l with
  | nil => rfl
  | cons x l ih =>
    obtain ⟨hx, hl⟩ : nl ≠ x ∧ nl ∉ l := by simpa using h
    rw [lastIndexOf, ih hl]
    exact if_neg hx.symm

theorem lastIndexOf_line {l : List α} (h : nl ∉ l) (rest : List α) :
    lastIndexOf nl (l ++ nl :: rest) =
      some (l.length + ((lastIndexOf nl rest).map (· + 1)).getD 0) := by
  induction l with
  | nil =>
    rw [nil_append, lastIndexOf]
    cases lastIndexOf nl rest with
    | none => simp
    | some k => simp
  | cons x l ih =>
    obtain ⟨hx, hl⟩ : nl ≠ x ∧ nl ∉ l := by simpa using h
    rw [cons_append, lastIndexOf, ih hl]
    simp only [length_cons, Option.some.injEq]
    omega

def readLines (nl : α) (xs : List α) : List (List α) × Nat :=
  match lastIndexOf nl xs with
  | none => ([], 0)
  | some k => ((xs.take k).splitOn nl, k + 1)

theorem readLines_joined {ls : List (List α)} {tail : List α} (hls : ∀ l ∈ ls, nl ∉ l)
    (htail : nl ∉ tail) : readLines nl (joined nl ls ++ tail) = (ls, (joined nl ls).length) := by
  induction ls with
  | nil =>
    unfold readLines
    rw [joined_nil, nil_append, lastIndexOf_of_not_mem htail]
    rfl
  | cons l ls ih =>
    have hl : nl ∉ l := hls l (.head _)
    have hrest := ih fun m hm => hls m (.tail _ hm)
    unfold readLines at hrest ⊢
    rw [joined_cons, append_assoc, cons_append, lastIndexOf_line hl]
    cases hlast : lastIndexOf nl (joined nl ls ++ tail) with
    | none =>
      rw [hlast] at hrest
      obtain ⟨rfl, -⟩ := Prod.mk.inj hrest
      simp only [Option.map_none, Option.getD_none, Nat.add_zero, take_left', joined_nil,
        length_append, length_cons, length_nil, splitOn_eq_singleton hl]
    | some k =>
      rw [hlast] at hrest
      obtain ⟨hsplit, hlength⟩ := Prod.mk.inj hrest
      have htake : (l ++ nl :: (joined nl ls ++ tail)).take (l.length + (k + 1)) =
          l ++ nl :: (joined nl ls ++ tail).take k := by
        rw [take_append, take_of_length_le (by omega), Nat.add_sub_cancel_left,
          take_succ_cons]
      simp only [Option.map_some, Option.getD_some, htake, splitOn_line hl, hsplit]
      simp only [length_append, length_cons, Prod.mk.injEq, true_and]
      omega

section Places
variable {start k : Nat} {l : List α} {ls : List (List α)} {line tail : List α}

/-- Lines at the offsets they start at, the first of them given. -/
def placed (start : Nat) : List (List α) → List (Nat × List α)
  | [] => []
  | l :: ls => (start, l) :: placed (start + l.length + 1) ls

omit [DecidableEq α] in
theorem placed_append (nl : α) (start : Nat) (ls ls' : List (List α)) :
    placed start (ls ++ ls') = placed start ls ++ placed (start + (joined nl ls).length) ls' := by
  induction ls generalizing start with
  | nil => simp [placed]
  | cons l ls ih =>
    simp only [cons_append, placed, ih, joined_cons, length_append, length_cons]
    congr 3
    omega

omit [DecidableEq α] in
theorem placed_le (h : (k, l) ∈ placed start ls) : start ≤ k := by
  induction ls generalizing start with
  | nil => exact nomatch h
  | cons m ls ih =>
    rcases mem_cons.1 h with heq | hrest
    · exact Nat.le_of_eq (Prod.mk.inj heq).1.symm
    · exact Nat.le_trans (by omega) (ih hrest)

omit [DecidableEq α] in
theorem placed_lt (nl : α) (h : (k, l) ∈ placed start ls) :
    k + l.length < start + (joined nl ls).length := by
  induction ls generalizing start with
  | nil => exact nomatch h
  | cons m ls ih =>
    rw [joined_cons, length_append, length_cons]
    rcases mem_cons.1 h with heq | hrest
    · obtain ⟨rfl, rfl⟩ := Prod.mk.inj heq
      omega
    · have hlt := ih hrest
      omega

omit [DecidableEq α] in
theorem placed_nodup (start : Nat) (ls : List (List α)) :
    ((placed start ls).map Prod.fst).Nodup := by
  induction ls generalizing start with
  | nil => exact nodup_nil
  | cons l ls ih =>
    refine nodup_cons.2 ⟨fun h => ?_, ih _⟩
    obtain ⟨⟨k, m⟩, hmem, hk⟩ := mem_map.1 h
    have hle := placed_le hmem
    have hsame : k = start := hk
    omega

def LineAt (nl : α) (xs : List α) (start : Nat) (line : List α) : Prop :=
  ∃ before after, xs = before ++ line ++ nl :: after ∧ before.length = start ∧ nl ∉ line ∧
    (before = [] ∨ before.getLast? = some nl)

def AtLineEnd (nl : α) (xs : List α) : Prop := xs = [] ∨ xs.getLast? = some nl

omit [DecidableEq α] in
theorem LineAt.append {xs ys : List α} (h : LineAt nl xs start line) :
    LineAt nl (xs ++ ys) start line := by
  obtain ⟨before, after, rfl, hlength, hline, hstart⟩ := h
  exact ⟨before, after ++ ys, by simp, hlength, hline, hstart⟩

omit [DecidableEq α] in
theorem LineAt.of_take {xs : List α} {n : Nat} (h : LineAt nl (xs.take n) start line) :
    LineAt nl xs start line := by
  have happend : LineAt nl (xs.take n ++ xs.drop n) start line := h.append
  rwa [take_append_drop] at happend

omit [DecidableEq α] in
theorem lineAt_of_placed {base : List α} (hbase : AtLineEnd nl base) (hls : ∀ l ∈ ls, nl ∉ l)
    (h : (k, line) ∈ placed base.length ls) :
    LineAt nl (base ++ (joined nl ls ++ tail)) k line := by
  induction ls generalizing base with
  | nil => exact nomatch h
  | cons l ls ih =>
    rcases mem_cons.1 h with heq | hrest
    · obtain ⟨rfl, rfl⟩ := Prod.mk.inj heq
      refine ⟨base, joined nl ls ++ tail, ?_, rfl, hls _ (.head _), hbase⟩
      simp
    · have hlength : base.length + l.length + 1 = (base ++ (l ++ [nl])).length := by
        simp only [length_append, length_cons, length_nil]
        omega
      rw [hlength] at hrest
      have hfound := @ih (base ++ (l ++ [nl])) (.inr (by simp))
        (fun m hm => hls m (.tail _ hm)) hrest
      simpa using hfound

theorem first_line_unique {l' rest rest' : List α} (hl : nl ∉ l) (hl' : nl ∉ l')
    (h : l ++ nl :: rest = l' ++ nl :: rest') : l = l' ∧ rest = rest' := by
  have hsplit := congrArg (List.splitOn nl) h
  rw [splitOn_line hl, splitOn_line hl'] at hsplit
  obtain ⟨rfl, -⟩ := List.cons.inj hsplit
  exact ⟨rfl, (List.cons.inj (append_cancel_left h)).2⟩

theorem placed_of_split {m after : List α} (hls : ∀ l ∈ ls, nl ∉ l) (htail : nl ∉ tail)
    (h : joined nl ls ++ tail = m ++ line ++ nl :: after) (hline : nl ∉ line)
    (hm : m = [] ∨ m.getLast? = some nl) : (start + m.length, line) ∈ placed start ls := by
  induction ls generalizing start m with
  | nil =>
    refine absurd ?_ htail
    rw [joined_nil, nil_append] at h
    rw [h]
    simp
  | cons l ls ih =>
    have hl : nl ∉ l := hls l (.head _)
    rw [joined_cons, append_assoc, cons_append] at h
    rcases hm with rfl | hlast
    · rw [nil_append] at h
      obtain ⟨rfl, -⟩ := first_line_unique hl hline h
      exact .head _
    · -- the text before the line has a first line of its own, and it is this one
      have hmem : nl ∈ m := mem_of_getLast? hlast
      obtain ⟨first, m, rfl, hfirst⟩ := eq_append_cons_of_mem hmem
      have hrest : first ++ nl :: m ++ line ++ nl :: after =
          first ++ nl :: (m ++ line ++ nl :: after) := by simp
      rw [hrest] at h
      obtain ⟨rfl, htext⟩ := first_line_unique hl hfirst h
      have hmend : m = [] ∨ m.getLast? = some nl := by
        by_cases hempty : m = []
        · exact .inl hempty
        · refine .inr ?_
          rwa [getLast?_append_of_ne_nil _ (cons_ne_nil _ _),
            getLast?_cons_of_ne_nil hempty] at hlast
      have hfound := @ih (start + l.length + 1) m
        (fun k hk => hls k (.tail _ hk)) htext hmend
      have hplace : start + (l ++ nl :: m).length = start + l.length + 1 + m.length := by
        rw [length_append, length_cons]
        omega
      rw [hplace]
      exact .tail _ hfound

theorem placed_of_lineAt {base : List α} (hls : ∀ l ∈ ls, nl ∉ l) (htail : nl ∉ tail)
    (hle : base.length ≤ k) (h : LineAt nl (base ++ (joined nl ls ++ tail)) k line) :
    (k, line) ∈ placed base.length ls := by
  obtain ⟨before, after, htext, rfl, hline, hstart⟩ := h
  rw [append_assoc] at htext
  obtain ⟨m, rfl⟩ : base <+: before := prefix_of_prefix_length_le ⟨_, rfl⟩ ⟨_, htext.symm⟩ hle
  rw [append_assoc] at htext
  have hrest := append_cancel_left htext
  rw [← append_assoc] at hrest
  rw [length_append]
  refine placed_of_split hls htail hrest hline ?_
  by_cases hempty : m = []
  · exact .inl hempty
  refine .inr ?_
  rcases hstart with hnil | hlast
  · exact absurd (append_eq_nil_iff.1 hnil).2 hempty
  · rwa [getLast?_append_of_ne_nil _ hempty] at hlast

end Places
end General
