import Mathlib.Data.Multiset.Bind
import Mathlib.Data.List.Sort
import Rolebox.General.Folds
import Rolebox.General.Keyed

/-! Lists that agree up to order and a relation, and what sorting by a key restores. -/

namespace General
open List
variable {α β γ δ : Type*}

/-- Some rearrangement of the one list relates entry by entry to the other. -/
def Reordered (R : α → β → Prop) (l : List α) (l' : List β) : Prop :=
  Multiset.Rel R (l : Multiset α) (l' : Multiset β)

variable {f : α → Option γ}

theorem mapM_eq {l : List α} :
    l.mapM f = if l.all (fun a => (f a).isSome) then some (l.filterMap f) else none := by
  induction l with
  | nil => rfl
  | cons a l ih =>
    cases hf : f a with
    | none => simp [hf]
    | some c =>
      rw [mapM_cons, hf, ih, all_cons, hf, filterMap_cons_some hf]
      cases l.all fun a => (f a).isSome <;> rfl

namespace Reordered
variable {R : α → β → Prop} {S : γ → δ → Prop} {l : List α} {l' : List β}
variable {p : α → Bool} {q : β → Bool}

theorem nil : Reordered R [] [] := Multiset.Rel.zero

theorem refl {T : α → α → Prop} (h : ∀ a ∈ l, T a a) : Reordered T l l :=
  Multiset.rel_refl_of_refl_on h

theorem of_perm {l l' : List α} (h : l.Perm l') : Reordered Eq l l' :=
  Multiset.rel_eq.2 (Multiset.coe_eq_coe.2 h)

theorem perm {l l' : List α} (h : Reordered Eq l l') : l.Perm l' :=
  Multiset.coe_eq_coe.1 (Multiset.rel_eq.1 h)

theorem of_forall₂ (h : Forall₂ R l l') : Reordered R l l' := by
  induction h with
  | nil => exact Multiset.Rel.zero
  | cons hr _ ih => exact Multiset.Rel.cons hr ih

section

variable (h : Reordered R l l')
include h

theorem mono {R' : α → β → Prop} (hR : ∀ a ∈ l, ∀ b ∈ l', R a b → R' a b) : Reordered R' l l' :=
  Multiset.Rel.mono h hR

theorem symm : Reordered (fun b a => R a b) l' l := Multiset.rel_flip.2 h

theorem append {r : List α} {r' : List β} (hr : Reordered R r r') :
    Reordered R (l ++ r) (l' ++ r') := by
  unfold Reordered
  rw [← Multiset.coe_add, ← Multiset.coe_add]
  exact Multiset.Rel.add h hr

theorem exists_right {a : α} (ha : a ∈ l) : ∃ b ∈ l', R a b :=
  Multiset.exists_mem_of_rel_of_mem h (Multiset.mem_coe.2 ha)

theorem exists_left {b : β} (hb : b ∈ l') : ∃ a ∈ l, R a b := h.symm.exists_right hb

theorem length_eq : l.length = l'.length := Multiset.card_eq_card_of_rel h

theorem map {f : α → γ} {g : β → δ}
    (hfg : ∀ a b, R a b → S (f a) (g b)) : Reordered S (l.map f) (l'.map g) := by
  unfold Reordered
  rw [← Multiset.map_coe, ← Multiset.map_coe, Multiset.rel_map]
  exact Multiset.Rel.mono h fun a _ b _ => hfg a b

theorem map_perm {f : α → γ} {g : β → γ}
    (hfg : ∀ a b, R a b → f a = g b) : (l.map f).Perm (l'.map g) :=
  (h.map hfg).perm

theorem flatMap {f : α → List γ} {g : β → List δ}
    (hfg : ∀ a b, R a b → Reordered S (f a) (g b)) : Reordered S (l.flatMap f) (l'.flatMap g) := by
  unfold Reordered
  rw [← Multiset.coe_bind, ← Multiset.coe_bind]
  exact Multiset.rel_bind (r := R) (fun a b hab => hfg a b hab) h

theorem filterMap {g : β → Option δ} (hfg : ∀ a b, R a b → Option.Rel S (f a) (g b)) :
    Reordered S (l.filterMap f) (l'.filterMap g) := by
  rw [filterMap_eq_flatMap_toList, filterMap_eq_flatMap_toList]
  apply h.flatMap
  intro a b hab
  cases hf : f a <;> cases hg : g b <;> have hrel := hfg a b hab <;> rw [hf, hg] at hrel
  · exact nil
  · cases hrel
  · cases hrel
  · cases hrel with
    | some hr => exact of_forall₂ (.cons hr .nil)

section

variable (hpq : ∀ a b, R a b → p a = q b)
include hpq

theorem filter : Reordered R (l.filter p) (l'.filter q) := by
  rw [← filterMap_eq_filter, ← filterMap_eq_filter]
  apply h.filterMap
  intro a b hab
  have hp := hpq a b hab
  cases hq : q b <;> rw [hq] at hp
  · simp [Option.guard, hp, hq]
  · simpa [Option.guard, hp, hq] using Option.Rel.some hab

theorem any_eq : l.any p = l'.any q := by
  rw [Bool.eq_iff_iff, any_eq_true, any_eq_true]
  constructor
  · rintro ⟨a, ha, hp⟩
    obtain ⟨b, hb, hab⟩ := h.exists_right ha
    exact ⟨b, hb, hpq a b hab ▸ hp⟩
  · rintro ⟨b, hb, hq⟩
    obtain ⟨a, ha, hab⟩ := h.exists_left hb
    exact ⟨a, ha, (hpq a b hab).trans hq⟩

theorem all_eq : l.all p = l'.all q := by
  rw [all_eq_not_any_not, all_eq_not_any_not]
  exact congrArg Bool.not (h.any_eq fun a b hab => congrArg Bool.not (hpq a b hab))

end

theorem zipIdx : Reordered (fun p q => R p.1 q.1) l.zipIdx l'.zipIdx := by
  unfold Reordered at h ⊢
  rw [← Multiset.rel_map, Multiset.map_coe, Multiset.map_coe]
  simpa only [zipIdx_map_fst] using h

theorem mapM {g : β → Option δ} (hfg : ∀ a b, R a b → Option.Rel S (f a) (g b)) :
    Option.Rel (Reordered S) (l.mapM f) (l'.mapM g) := by
  have hread : (l.all fun a => (f a).isSome) = l'.all fun b => (g b).isSome := by
    apply h.all_eq
    intro a b hab
    have hrel := hfg a b hab
    cases hf : f a <;> cases hg : g b <;> rw [hf, hg] at hrel <;> first | rfl | cases hrel
  rw [mapM_eq, mapM_eq, hread]
  split
  · exact .some (h.filterMap hfg)
  · exact .none

theorem find?_key {κ : Type*} [DecidableEq κ] {key : α → κ} {key' : β → κ}
    (hkey : ∀ a b, R a b → key a = key' b) (hn : (l.map key).Nodup)
    (k : κ) : Option.Rel R (l.find? (key · = k)) (l'.find? (key' · = k)) := by
  have hn' : (l'.map key').Nodup := (h.map_perm hkey).nodup_iff.1 hn
  cases hl : l.find? (key · = k) with
  | some a =>
    obtain ⟨b, hb, hab⟩ := h.exists_right (mem_of_find?_eq_some hl)
    have hk : key a = k := by simpa using find?_some hl
    have hfound := find?_key_eq hn' hb
    rw [← hkey a b hab, hk] at hfound
    rw [hfound]
    exact .some hab
  | none =>
    have hnone : l'.find? (key' · = k) = none := by
      rw [find?_eq_none] at hl ⊢
      intro b hb
      obtain ⟨a, ha, hab⟩ := h.exists_left hb
      rw [← hkey a b hab]
      exact hl a ha
    rw [hnone]
    exact .none

end

end Reordered

section Sorting
variable {r : α → α → Prop} [DecidableRel r] [Std.Total r] [IsTrans α r]

theorem insertionSort_eq_of_perm {l l' : List α} (h : l.Perm l')
    (hr : ∀ a ∈ l, ∀ b ∈ l, r a b → r b a → a = b) : l.insertionSort r = l'.insertionSort r := by
  have hperm : (l.insertionSort r).Perm (l'.insertionSort r) :=
    (perm_insertionSort r l).trans (h.trans (perm_insertionSort r l').symm)
  refine hperm.eq_of_pairwise ?_ (pairwise_insertionSort r l)
    (pairwise_insertionSort r l')
  intro a b ha hb
  exact hr a ((mem_insertionSort r).1 ha) b (h.mem_iff.2 ((mem_insertionSort r).1 hb))

variable [DecidableEq α]

theorem distinct_perm {l l' : List α} (h : l.Perm l') : (distinct l).Perm (distinct l') := by
  rw [perm_ext_iff_of_nodup (nodup_distinct l) (nodup_distinct l')]
  intro a
  rw [mem_distinct, mem_distinct]
  exact h.mem_iff

end Sorting

end General
