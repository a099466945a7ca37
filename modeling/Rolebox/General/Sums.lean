import Mathlib.Algebra.Order.BigOperators.Group.List
import Mathlib.Algebra.Order.Group.Nat
import Mathlib.Data.List.Nodup
import Mathlib.Data.List.Perm.Subperm
import Mathlib.Algebra.GroupWithZero.Nat

/-! Sums of weights over lists of distinct keys. -/

namespace General
open List
variable {α : Type*}

theorem sum_le_of_subperm {w : α → ℕ} {l l' : List α} (h : l.Subperm l') :
    (l.map w).sum ≤ (l'.map w).sum := by
  obtain ⟨m, hp, hs⟩ := h
  rw [← (hp.map w).sum_eq]
  exact (hs.map w).sum_le_sum fun _ _ => Nat.zero_le _

theorem sum_ite_eq_filter {M : Type*} [AddMonoid M] (w : α → M) (p : α → Prop) [DecidablePred p]
    (l : List α) : (l.map fun a => if p a then w a else 0).sum = ((l.filter (p ·)).map w).sum := by
  induction l with
  | nil => rfl
  | cons a l ih => by_cases h : p a <;> simp [h, ih]

theorem sum_mem_le [DecidableEq α] {w : α → ℕ} {keys targets : List α} (hn : keys.Nodup) :
    (keys.map fun a => if a ∈ targets then w a else 0).sum ≤ (targets.map w).sum := by
  rw [sum_ite_eq_filter]
  refine sum_le_of_subperm (Nodup.subperm (Nodup.filter _ hn) fun a ha => ?_)
  simpa using (mem_filter.1 ha).2

theorem sum_ite_le (w : α → ℕ) (p : α → Prop) [DecidablePred p] (l : List α) :
    (l.map fun a => if p a then w a else 0).sum ≤ (l.map w).sum := by
  rw [sum_ite_eq_filter]
  exact sum_le_of_subperm filter_sublist.subperm

theorem sum_add_le_of_mem {f g : α → ℕ} {l : List α} {a : α} (ha : a ∈ l)
    (hfg : ∀ b ∈ l, f b ≤ g b) {n : ℕ} (hn : f a + n ≤ g a) :
    (l.map f).sum + n ≤ (l.map g).sum := by
  induction l with
  | nil => cases ha
  | cons b l ih =>
    simp only [map_cons, sum_cons]
    rcases mem_cons.1 ha with rfl | ha
    · have := sum_le_sum fun c hc => hfg c (.tail _ hc)
      omega
    · have := ih ha fun c hc => hfg c (.tail _ hc)
      have := hfg b (.head _)
      omega

theorem sum_forall₂_le {β : Type*} {R : α → β → Prop} {f : α → ℕ} {g : β → ℕ} {l : List α}
    {l' : List β} (h : Forall₂ R l l') (hfg : ∀ a b, R a b → g b ≤ f a) :
    (l'.map g).sum ≤ (l.map f).sum := by
  induction h with
  | nil => simp
  | cons hr _ ih =>
    simp only [map_cons, sum_cons]
    exact Nat.add_le_add (hfg _ _ hr) ih

end General
