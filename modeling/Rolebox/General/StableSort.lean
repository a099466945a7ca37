import Mathlib.Data.List.Nodup

/-! Stable sorting: which orders and listings sort the same elements alike. -/

namespace General.StableSort
open List

variable {α : Type*} {cmp cmp' : α → α → Ordering} {l l' : List α} {x y : α}

/-- Sorting the listing `l` by `cmp` puts `x` before `y`. -/
def Before (cmp : α → α → Ordering) (l : List α) (x y : α) : Prop :=
  cmp x y = .lt ∨ cmp x y = .eq ∧ [x, y].Sublist l

theorem not_reversed (hnodup : l.Nodup) : l.Pairwise fun x y => ¬ [y, x].Sublist l := by
  induction l with
  | nil => exact .nil
  | cons x l ih =>
    obtain ⟨hx, hl⟩ := nodup_cons.1 hnodup
    have hinside : ∀ y ∈ l, ∀ z, [y, z].Sublist (x :: l) → [y, z].Sublist l := by
      intro y hy z hsub
      rcases sublist_cons_iff.1 hsub with hsub | ⟨r, hr, -⟩
      · exact hsub
      · exact absurd hy ((List.cons.inj hr).1 ▸ hx)
    refine pairwise_cons.2 ⟨fun y hy hsub => hx ?_, (ih hl).imp_of_mem ?_⟩
    · exact (hinside y hy x hsub).subset (.tail _ (.head _))
    · exact fun _ hz hback hsub => hback (hinside _ hz _ hsub)

theorem pair_or_pair (hx : x ∈ l) (hy : y ∈ l) (hne : x ≠ y) :
    [x, y].Sublist l ∨ [y, x].Sublist l := by
  obtain ⟨front, back, rfl⟩ := append_of_mem hx
  rcases mem_append.1 hy with hfront | hback
  · exact .inr ((singleton_sublist.2 hfront).append (.cons_cons x (nil_sublist back)))
  · have hin : y ∈ back := (mem_cons.1 hback).resolve_left hne.symm
    exact .inl ((Sublist.cons_cons x (singleton_sublist.2 hin)).trans
      (sublist_append_right ..))

section

variable [Std.TransCmp cmp] (hnodup : l.Nodup)
include hnodup

theorem Before.asymm (h : Before cmp l x y) (h' : Before cmp l y x) : False := by
  rcases h with hlt | ⟨heq, hsub⟩
  · rcases h' with hgt | ⟨heq, -⟩
    · exact nomatch (Std.OrientedCmp.gt_of_lt hlt).symm.trans hgt
    · exact nomatch (Std.OrientedCmp.gt_of_lt hlt).symm.trans heq
  · rcases h' with hgt | ⟨-, hback⟩
    · exact nomatch (Std.OrientedCmp.eq_symm heq).symm.trans hgt
    · exact pairwise_iff_forall_sublist.1 (not_reversed hnodup) hsub hback

variable (cmp) in
theorem pairwise_mergeSort : (l.mergeSort fun a b => (cmp a b).isLE).Pairwise (Before cmp l) := by
  have htrans : ∀ a b c : α, (cmp a b).isLE = true → (cmp b c).isLE = true →
      (cmp a c).isLE = true := fun _ _ _ => Std.TransCmp.isLE_trans
  have htotal : ∀ a b : α, ((cmp a b).isLE || (cmp b a).isLE) = true := by
    intro a b
    rw [show cmp b a = _ from Std.OrientedCmp.eq_swap]
    cases cmp a b <;> rfl
  have hsorted := (mergeSort_perm l fun a b => (cmp a b).isLE).nodup_iff.2 hnodup
  refine pairwise_iff_forall_sublist.2 fun {x y} hsub => ?_
  have hle := pairwise_iff_forall_sublist.1 (List.pairwise_mergeSort htrans htotal l) hsub
  cases hcmp : cmp x y with
  | lt => exact .inl hcmp
  | gt =>
    rw [hcmp] at hle
    exact nomatch hle
  | eq =>
    have hne : x ≠ y := fun h => (nodup_cons.1 (hsub.nodup hsorted)).1 (h ▸ .head _)
    have hx : x ∈ l := mem_mergeSort.1 (hsub.subset (.head _))
    have hy : y ∈ l := mem_mergeSort.1 (hsub.subset (.tail _ (.head _)))
    refine .inr ⟨hcmp, (pair_or_pair hx hy hne).resolve_right fun hback => ?_⟩
    have hkept := pair_sublist_mergeSort htrans htotal
      (show (cmp y x).isLE = true by rw [Std.OrientedCmp.eq_symm hcmp]; rfl) hback
    exact pairwise_iff_forall_sublist.1 (not_reversed hsorted) hsub hkept

theorem sublist_mergeSort (hx : x ∈ l) (hy : y ∈ l) (h : Before cmp l x y) :
    [x, y].Sublist (l.mergeSort fun a b => (cmp a b).isLE) := by
  have hne : x ≠ y := by
    rintro rfl
    exact h.asymm hnodup h
  refine (pair_or_pair (mem_mergeSort.2 hx) (mem_mergeSort.2 hy) hne).resolve_right
    fun hback => h.asymm hnodup ?_
  exact pairwise_iff_forall_sublist.1 (pairwise_mergeSort cmp hnodup) hback

/-- Two listings of the same elements sort alike when the two orders put no pair apart. -/
theorem mergeSort_eq_iff [Std.TransCmp cmp'] (hperm : l.Perm l') :
    (l.mergeSort fun a b => (cmp a b).isLE) = (l'.mergeSort fun a b => (cmp' a b).isLE) ↔
      ∀ x ∈ l, ∀ y ∈ l, Before cmp l x y → Before cmp' l' x y := by
  have hnodup' := hperm.nodup_iff.1 hnodup
  have hsorted' := pairwise_mergeSort cmp' hnodup'
  refine ⟨fun heq x hx y hy hbefore => ?_, fun h => ?_⟩
  · have hsub := sublist_mergeSort hnodup hx hy hbefore
    rw [heq] at hsub
    exact pairwise_iff_forall_sublist.1 hsorted' hsub
  · have hsorted := (pairwise_mergeSort cmp hnodup).imp_of_mem fun {x y} hx hy =>
      h x (mem_mergeSort.1 hx) y (mem_mergeSort.1 hy)
    refine Perm.eq_of_pairwise (fun x y _ _ hxy hyx => ?_) hsorted hsorted'
      ((mergeSort_perm ..).trans (hperm.trans (mergeSort_perm ..).symm))
    exact (hxy.asymm hnodup' hyx).elim

end

end General.StableSort
