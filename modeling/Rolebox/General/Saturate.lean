import Mathlib.Data.List.Perm.Subperm
import Mathlib.Order.Basic

/-! Repeating a pass until it changes nothing. -/

namespace General
open List
variable {α : Type*} [DecidableEq α]

def saturate (pass : α → α) : Nat → α → α
  | 0, s => s
  | fuel + 1, s => if pass s = s then s else saturate pass fuel (pass s)

variable {pass : α → α}

theorem saturate_of_fixed {s : α} (h : pass s = s) (fuel : Nat) : saturate pass fuel s = s := by
  cases fuel with
  | zero => rfl
  | succ fuel => rw [saturate, if_pos h]

theorem saturate_invariant {I : α → Prop} (hI : ∀ s, I s → I (pass s)) (fuel : Nat) {s : α}
    (hs : I s) : I (saturate pass fuel s) := by
  induction fuel generalizing s with
  | zero => exact hs
  | succ fuel ih =>
    rw [saturate]
    split
    · exact hs
    · exact ih (hI s hs)

/-- A pass that only raises a bounded measure reaches a fixed point within the rise it has left. -/
theorem saturate_fixed {I : α → Prop} {μ : α → Nat} {bound : Nat}
    (hI : ∀ s, I s → I (pass s)) (hμ : ∀ s, I s → pass s ≠ s → μ s < μ (pass s))
    (hb : ∀ s, I s → μ s ≤ bound) {fuel : Nat} {s : α} (hs : I s) (hf : bound < fuel + μ s) :
    pass (saturate pass fuel s) = saturate pass fuel s := by
  induction fuel generalizing s with
  | zero =>
    have := hb s hs
    omega
  | succ fuel ih =>
    rw [saturate]
    split
    · assumption
    · next hne =>
      have hlt := hμ s hs hne
      exact ih (hI s hs) (by omega)

section Growing
variable {β ι : Type*} {add : List β → ι → List β} {items : List ι} {carrier s : List β}

def AddsWithin (carrier : List β) (add : List β → ι → List β) (items : List ι) : Prop :=
  ∀ s, ∀ a ∈ items, add s a = s ∨ ∃ b ∈ carrier, b ∉ s ∧ add s a = s ++ [b]

theorem AddsWithin.tail {a : ι} (h : AddsWithin carrier add (a :: items)) :
    AddsWithin carrier add items := fun s b hb => h s b (.tail _ hb)

section

variable (h : AddsWithin carrier add items)
include h

theorem AddsWithin.foldl_prefix (s : List β) : s <+: items.foldl add s := by
  induction items generalizing s with
  | nil => exact prefix_refl s
  | cons a items ih =>
    have hone : s <+: add s a := by
      rcases h s a (.head _) with hsame | ⟨b, -, -, hadd⟩
      · exact hsame.symm ▸ prefix_refl s
      · rw [hadd]
        exact prefix_append s [b]
    exact hone.trans (ih h.tail (add s a))

theorem AddsWithin.foldl_fixed (hfixed : items.foldl add s = s) : ∀ a ∈ items, add s a = s := by
  induction items with
  | nil => exact nofun
  | cons a items ih =>
    have hkept : add s a = s := by
      rcases h s a (.head _) with hsame | ⟨b, -, -, hadd⟩
      · exact hsame
      · have hlonger := (h.tail.foldl_prefix (add s a)).length_le
        rw [← foldl_cons, hfixed, hadd, length_append, length_singleton] at hlonger
        omega
    rw [foldl_cons, hkept] at hfixed
    intro b hb
    rcases mem_cons.1 hb with rfl | hb
    · exact hkept
    · exact ih h.tail hfixed b hb

theorem AddsWithin.foldl_within (hs : s.Nodup ∧ s ⊆ carrier) :
    (items.foldl add s).Nodup ∧ items.foldl add s ⊆ carrier := by
  induction items generalizing s with
  | nil => exact hs
  | cons a items ih =>
    rw [foldl_cons]
    rcases h s a (.head _) with hsame | ⟨b, hb, hnew, hadd⟩
    · rw [hsame]
      exact ih h.tail hs
    · rw [hadd]
      refine ih h.tail ⟨?_, ?_⟩
      · refine nodup_append.2 ⟨hs.1, pairwise_singleton _ b, fun c hc d hd => ?_⟩
        rw [mem_singleton.1 hd]
        exact fun heq => hnew (heq ▸ hc)
      · exact append_subset.2 ⟨hs.2, fun c hc => mem_singleton.1 hc ▸ hb⟩

/-- Repeating a growing pass more often than the carrier is long adds nothing more. -/
theorem AddsWithin.saturated [DecidableEq β]
    (hs : s.Nodup ∧ s ⊆ carrier) {fuel : Nat} (hfuel : carrier.length < fuel) :
    ∀ a ∈ items, add (saturate (fun s => items.foldl add s) fuel s) a =
      saturate (fun s => items.foldl add s) fuel s := by
  refine h.foldl_fixed (saturate_fixed (I := fun s => s.Nodup ∧ s ⊆ carrier) (fun s hs => h.foldl_within hs) (fun s _ hne => ?_)
    (fun s hs => (hs.1.subperm hs.2).length_le) hs (Nat.lt_add_right _ hfuel))
  have hstart := h.foldl_prefix s
  refine Nat.lt_of_le_of_ne hstart.length_le fun hlength => hne ?_
  exact (hstart.eq_of_length hlength).symm

end

end Growing

end General
