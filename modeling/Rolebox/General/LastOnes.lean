import Mathlib.Data.List.DropRight
import Mathlib.Data.List.Nodup

/-! A copy of a list cut down to its last elements holds what it held of the list's last. -/

namespace General
open List
variable {α : Type*} {l r : List α} {n : Nat} {p : α → Bool}

theorem rtake_suffix (l : List α) (n : Nat) : l.rtake n <:+ l := drop_suffix _ _

theorem suffix_rtake {s : List α} (h : s <:+ l) (hlength : s.length ≤ n) : s <:+ l.rtake n :=
  suffix_of_suffix_length_le h (rtake_suffix l n) (by
    have hle := h.length_le
    rw [rtake, length_drop]
    omega)

theorem length_rtake_le (l : List α) (n : Nat) : (l.rtake n).length ≤ n := by
  rw [rtake, length_drop]
  omega

theorem filter_rtake_sublist (hnodup : l.Nodup) (hr : r.Sublist l) (h : ((l.rtake n).filter p).Sublist r) :
    ((l.rtake n).filter p).Sublist (r.rtake n) := by
  obtain ⟨front, hfront⟩ := rtake_suffix l n
  rw [← hfront] at hnodup hr
  obtain ⟨r₁, r₂, rfl, hr₁, hr₂⟩ := sublist_append_iff.1 hr
  obtain ⟨k₁, k₂, hk, hk₁, hk₂⟩ := sublist_append_iff.1 h
  -- nothing of the last elements is found in the part of the copy before them
  have hempty : k₁ = [] := by
    refine eq_nil_iff_forall_not_mem.2 fun x hx => ?_
    have hlast : x ∈ l.rtake n := mem_of_mem_filter (hk ▸ mem_append_left k₂ hx)
    exact disjoint_of_nodup_append hnodup (hr₁.subset (hk₁.subset hx)) hlast
  rw [hk, hempty, nil_append]
  have hshort : r₂.length ≤ n := hr₂.length_le.trans (length_rtake_le l n)
  exact hk₂.trans (suffix_rtake (suffix_append r₁ r₂) hshort).sublist

theorem filter_rtake_concat (hnodup : l.Nodup) (hr : r.Sublist l) (x : α)
    (h : ((l.rtake (n + 1)).filter p).Sublist r) :
    (((l ++ [x]).rtake (n + 1)).filter p).Sublist ((r ++ [x]).rtake (n + 1)) := by
  have hshorter : l.rtake n <:+ l.rtake (n + 1) :=
    suffix_rtake (rtake_suffix l n) ((length_rtake_le l n).trans (Nat.le_succ n))
  have hkept := filter_rtake_sublist hnodup hr ((hshorter.sublist.filter p).trans h)
  rw [rtake_concat_succ, rtake_concat_succ, filter_append]
  exact hkept.append (filter_sublist ..)

end General
