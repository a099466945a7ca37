import Mathlib.Data.List.Basic

/-! The edit graph of two lists, its furthest points, and what paths say of common subsequences. -/

namespace General
open List
variable {α : Type*} {a b : List α}

/-- A path from the origin with its number of edits; a diagonal needs an element of each list. -/
inductive EditPath (a b : List α) : Nat → Nat → Nat → Prop where
  | start : EditPath a b 0 0 0
  | right {d x y : Nat} : EditPath a b d x y → EditPath a b (d + 1) (x + 1) y
  | down {d x y : Nat} : EditPath a b d x y → EditPath a b (d + 1) x (y + 1)
  | diagonal {d x y : Nat} {c : α} : EditPath a b d x y → a[x]? = some c → b[y]? = some c →
      EditPath a b d (x + 1) (y + 1)

def Matches (a b : List α) (x y n : Nat) : Prop :=
  ∀ j < n, ∃ c, a[x + j]? = some c ∧ b[y + j]? = some c

theorem Matches.zero (x y : Nat) : Matches a b x y 0 := fun _ hj => absurd hj (Nat.not_lt_zero _)

theorem Matches.succ {x y n : Nat} {c : α} (h : Matches a b x y n) (ha : a[x + n]? = some c)
    (hb : b[y + n]? = some c) : Matches a b x y (n + 1) := by
  intro j hj
  rcases Nat.lt_succ_iff_lt_or_eq.1 hj with hj | rfl
  · exact h j hj
  · exact ⟨c, ha, hb⟩

theorem Matches.cons {x y n : Nat} {c : α} (ha : a[x]? = some c) (hb : b[y]? = some c)
    (h : Matches a b (x + 1) (y + 1) n) : Matches a b x y (n + 1) := by
  intro j hj
  cases j with
  | zero => exact ⟨c, ha, hb⟩
  | succ j =>
    obtain ⟨e, hae, hbe⟩ := h j (Nat.lt_of_succ_lt_succ hj)
    exact ⟨e, by rwa [← Nat.add_assoc, Nat.add_right_comm], by rwa [← Nat.add_assoc, Nat.add_right_comm]⟩

theorem Matches.mono {x y n m : Nat} (h : Matches a b x y n) (hm : m ≤ n) : Matches a b x y m :=
  fun j hj => h j (Nat.lt_of_lt_of_le hj hm)

namespace EditPath

theorem slide {d x y n : Nat} (h : EditPath a b d x y) (hmatch : Matches a b x y n) :
    EditPath a b d (x + n) (y + n) := by
  induction n with
  | zero => exact h
  | succ n ih =>
    obtain ⟨c, hac, hbc⟩ := hmatch n (Nat.lt_succ_self n)
    exact .diagonal (ih (hmatch.mono (Nat.le_succ n))) hac hbc

variable {d x y : Nat}

section

variable (h : EditPath a b d x y)
include h

theorem noEdit (hd : d = 0) : x = y ∧ Matches a b 0 0 x := by
  induction h with
  | start => exact ⟨rfl, .zero 0 0⟩
  | right _ _ => exact nomatch hd
  | down _ _ => exact nomatch hd
  | @diagonal d x y c _ ha hb ih =>
    obtain ⟨rfl, hmatch⟩ := ih hd
    exact ⟨rfl, hmatch.succ (by rwa [Nat.zero_add]) (by rwa [Nat.zero_add])⟩

omit h in
theorem lastEdit (h : EditPath a b (d + 1) x y) :
    ∃ u v n, x = u + n ∧ y = v + n ∧ Matches a b u v n ∧
      ((∃ w, u = w + 1 ∧ EditPath a b d w v) ∨ ∃ w, v = w + 1 ∧ EditPath a b d u w) := by
  generalize he : d + 1 = e at h
  induction h with
  | start => exact nomatch he
  | @right _ x y h _ =>
    obtain rfl := Nat.succ.inj he
    exact ⟨x + 1, y, 0, rfl, rfl, .zero _ _, .inl ⟨x, rfl, h⟩⟩
  | @down _ x y h _ =>
    obtain rfl := Nat.succ.inj he
    exact ⟨x, y + 1, 0, rfl, rfl, .zero _ _, .inr ⟨y, rfl, h⟩⟩
  | diagonal _ ha hb ih =>
    obtain ⟨u, v, n, rfl, rfl, hmatch, hedit⟩ := ih he
    exact ⟨u, v, n + 1, rfl, rfl, hmatch.succ ha hb, hedit⟩

theorem diagonal_range : x ≤ y + d ∧ y ≤ x + d := by
  induction h with
  | start => exact ⟨Nat.le_refl _, Nat.le_refl _⟩
  | right _ ih => omega
  | down _ ih => omega
  | diagonal _ _ _ ih => omega

theorem clamp :
    ∃ e, e + (x - a.length) + (y - b.length) = d ∧
      EditPath a b e (min x a.length) (min y b.length) := by
  induction h with
  | start => exact ⟨0, by omega, by rw [Nat.zero_min, Nat.zero_min]; exact .start⟩
  | @right d x y _ ih =>
    obtain ⟨e, hsum, hpath⟩ := ih
    by_cases hx : x < a.length
    · refine ⟨e + 1, by omega, ?_⟩
      rw [show min (x + 1) a.length = min x a.length + 1 by omega]
      exact hpath.right
    · refine ⟨e, by omega, ?_⟩
      rwa [show min (x + 1) a.length = min x a.length by omega]
  | @down d x y _ ih =>
    obtain ⟨e, hsum, hpath⟩ := ih
    by_cases hy : y < b.length
    · refine ⟨e + 1, by omega, ?_⟩
      rw [show min (y + 1) b.length = min y b.length + 1 by omega]
      exact hpath.down
    · refine ⟨e, by omega, ?_⟩
      rwa [show min (y + 1) b.length = min y b.length by omega]
  | @diagonal d x y c _ ha hb ih =>
    obtain ⟨e, hsum, hpath⟩ := ih
    have hx : x < a.length := (List.getElem?_eq_some_iff.1 ha).1
    have hy : y < b.length := (List.getElem?_eq_some_iff.1 hb).1
    refine ⟨e, by omega, ?_⟩
    rw [Nat.min_eq_left (Nat.le_of_lt hx), Nat.min_eq_left (Nat.le_of_lt hy)] at hpath
    rw [Nat.min_eq_left hx, Nat.min_eq_left hy]
    exact hpath.diagonal ha hb

theorem common :
    ∃ s : List α, s.Sublist (a.take x) ∧ s.Sublist (b.take y) ∧ d + 2 * s.length = x + y := by
  induction h with
  | start => exact ⟨[], nil_sublist _, nil_sublist _, rfl⟩
  | right _ ih =>
    obtain ⟨s, hsa, hsb, hlen⟩ := ih
    exact ⟨s, hsa.trans (take_sublist_take_left (Nat.le_succ _)), hsb, by omega⟩
  | down _ ih =>
    obtain ⟨s, hsa, hsb, hlen⟩ := ih
    exact ⟨s, hsa, hsb.trans (take_sublist_take_left (Nat.le_succ _)), by omega⟩
  | @diagonal d x y c _ ha hb ih =>
    obtain ⟨s, hsa, hsb, hlen⟩ := ih
    refine ⟨s ++ [c], ?_, ?_, ?_⟩
    · rw [take_add_one, ha]
      exact hsa.append (Sublist.refl _)
    · rw [take_add_one, hb]
      exact hsb.append (Sublist.refl _)
    · rw [length_append, length_singleton]
      omega

end

section Fronts
variable {c : α} {d x y : Nat}

theorem afterRight (h : EditPath a b d x y) : EditPath (c :: a) b (d + 1) (x + 1) y := by
  induction h with
  | start => exact start.right
  | right _ ih => exact ih.right
  | down _ ih => exact ih.down
  | diagonal _ ha hb ih => exact ih.diagonal (by rwa [getElem?_cons_succ]) hb

theorem afterDown (h : EditPath a b d x y) : EditPath a (c :: b) (d + 1) x (y + 1) := by
  induction h with
  | start => exact start.down
  | right _ ih => exact ih.right
  | down _ ih => exact ih.down
  | diagonal _ ha hb ih => exact ih.diagonal ha (by rwa [getElem?_cons_succ])

theorem afterDiagonal (h : EditPath a b d x y) : EditPath (c :: a) (c :: b) d (x + 1) (y + 1) := by
  induction h with
  | start => exact start.diagonal (c := c) rfl rfl
  | right _ ih => exact ih.right
  | down _ ih => exact ih.down
  | diagonal _ ha hb ih =>
    exact ih.diagonal (by rwa [getElem?_cons_succ]) (by rwa [getElem?_cons_succ])

end Fronts

theorem downs (b : List α) : EditPath [] b b.length 0 b.length := by
  induction b with
  | nil => exact .start
  | cons c b ih => exact ih.afterDown

theorem of_common {s a b : List α} (ha : s.Sublist a) (hb : s.Sublist b) :
    ∃ d, d + 2 * s.length = a.length + b.length ∧ EditPath a b d a.length b.length := by
  induction ha generalizing b with
  | slnil => exact ⟨b.length, by simp, downs b⟩
  | cons c _ ih =>
    obtain ⟨d, hsum, hpath⟩ := ih hb
    exact ⟨d + 1, by rw [length_cons]; omega, hpath.afterRight⟩
  | @cons_cons s a c _ ih =>
    induction b with
    | nil => exact nomatch hb
    | cons e b ihb =>
      cases hb with
      | cons _ hb =>
        obtain ⟨d, hsum, hpath⟩ := ihb hb
        refine ⟨d + 1, ?_, hpath.afterDown⟩
        simp only [length_cons] at hsum ⊢
        omega
      | cons_cons _ hb =>
        obtain ⟨d, hsum, hpath⟩ := ih hb
        refine ⟨d, ?_, hpath.afterDiagonal⟩
        simp only [length_cons]
        omega

end EditPath

/-- The furthest point some number of edits reaches on a diagonal. -/
structure Furthest (a b : List α) (d : Nat) (k : Int) (x y : Nat) : Prop where
  path : EditPath a b d x y
  diagonal : (x : Int) - y = k
  furthest : ∀ u v, EditPath a b d u v → (u : Int) - v = k → u ≤ x

namespace Furthest
variable {k : Int} {u v n : Nat}

theorem eq_of_furthest {d : Nat} {x y : Nat} (h : Furthest a b d k x y)
    (h' : Furthest a b d k u v) : x = u ∧ y = v := by
  have hxu := h'.furthest x y h.path h.diagonal
  have hux := h.furthest u v h'.path h'.diagonal
  have := h.diagonal
  have := h'.diagonal
  omega

theorem le_slide {x y m : Nat} (hdiag : (u : Int) - v = (x : Int) - y) (hle : u ≤ x)
    (hmatch : Matches a b u v m) (hend : ∀ c, a[x + n]? = some c → b[y + n]? ≠ some c) :
    u + m ≤ x + n := by
  by_contra hlt
  obtain ⟨c, hac, hbc⟩ := hmatch (x + n - u) (by omega)
  rw [show u + (x + n - u) = x + n by omega] at hac
  rw [show v + (x + n - u) = y + n by omega] at hbc
  exact hend c hac hbc

theorem zero (hmatch : Matches a b 0 0 n) (hend : ∀ c, a[n]? = some c → b[n]? ≠ some c) :
    Furthest a b 0 0 n n where
  path := by
    have hslide := EditPath.start.slide hmatch
    rwa [Nat.zero_add] at hslide
  diagonal := by omega
  furthest := by
    intro u v hpath _
    obtain ⟨rfl, hrun⟩ := hpath.noEdit rfl
    have hle : 0 + u ≤ 0 + n := le_slide rfl (Nat.le_refl 0) hrun (by rwa [Nat.zero_add])
    omega

/-- One edit from the further neighbour reaches the furthest point on a diagonal. -/
theorem succ {d x y : Nat}
    (hedit : (∃ u, x = u + 1 ∧ EditPath a b d u y) ∨ ∃ v, y = v + 1 ∧ EditPath a b d x v)
    (hdiag : (x : Int) - y = k)
    (hright : ∀ u v, EditPath a b d u v → (u : Int) - v = k - 1 → u + 1 ≤ x)
    (hdown : ∀ u v, EditPath a b d u v → (u : Int) - v = k + 1 → u ≤ x) (hmatch : Matches a b x y n)
    (hend : ∀ c, a[x + n]? = some c → b[y + n]? ≠ some c) :
    Furthest a b (d + 1) k (x + n) (y + n) where
  path := by
    apply EditPath.slide _ hmatch
    rcases hedit with ⟨u, rfl, hpath⟩ | ⟨v, rfl, hpath⟩
    · exact hpath.right
    · exact hpath.down
  diagonal := by omega
  furthest := by
    intro u v hpath huv
    obtain ⟨s, t, m, rfl, rfl, hrun, hlast⟩ := hpath.lastEdit
    have hst : (s : Int) - t = (x : Int) - y := by omega
    apply le_slide hst _ hrun hend
    rcases hlast with ⟨w, rfl, hw⟩ | ⟨w, rfl, hw⟩
    · exact hright w t hw (by omega)
    · exact hdown s w hw (by omega)

theorem step_down {d : Nat} (h : Furthest a b d (k + 1) u v)
    (hright : ∀ x y, EditPath a b d x y → (x : Int) - y = k - 1 → x + 1 ≤ u)
    (hmatch : Matches a b u (v + 1) n) (hend : ∀ c, a[u + n]? = some c → b[v + 1 + n]? ≠ some c) :
    Furthest a b (d + 1) k (u + n) (v + 1 + n) := by
  have hdiag := h.diagonal
  exact succ (.inr ⟨v, rfl, h.path⟩) (by omega) hright h.furthest hmatch hend

theorem step_right {d : Nat} (h : Furthest a b d (k - 1) u v)
    (hdown : ∀ x y, EditPath a b d x y → (x : Int) - y = k + 1 → x ≤ u + 1)
    (hmatch : Matches a b (u + 1) v n) (hend : ∀ c, a[u + 1 + n]? = some c → b[v + n]? ≠ some c) :
    Furthest a b (d + 1) k (u + 1 + n) (v + n) := by
  have hdiag := h.diagonal
  refine succ (.inl ⟨u, rfl, h.path⟩) (by omega) ?_ hdown hmatch hend
  intro x y hpath hxy
  exact Nat.succ_le_succ (h.furthest x y hpath hxy)

theorem at_end {d x y : Nat} (hpath : EditPath a b d x y) (hx : a.length ≤ x) (hy : b.length ≤ y)
    (hfirst : ∀ e < d, ¬ EditPath a b e a.length b.length) : x = a.length ∧ y = b.length := by
  obtain ⟨e, hsum, hclamped⟩ := hpath.clamp
  rw [Nat.min_eq_right hx, Nat.min_eq_right hy] at hclamped
  by_contra hne
  exact hfirst e (by omega) hclamped

end Furthest
end General
