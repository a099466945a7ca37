import Mathlib.Data.List.Pairwise
import Mathlib.Data.List.Sort

/-! Tables as lists of rows: conditional updates, primary keys, and what later tables keep. -/

namespace General
open List Function
variable {α κ : Type*}

def updateWhere (c : α → Prop) [DecidablePred c] (f : α → α) (rows : List α) : List α :=
  rows.map fun row => if c row then f row else row

section Update
variable {c : α → Prop} [DecidablePred c] {f : α → α} {rows : List α}

theorem mem_updateWhere {row : α} :
    row ∈ updateWhere c f rows ↔ (row ∈ rows ∧ ¬ c row) ∨ ∃ old ∈ rows, c old ∧ f old = row := by
  unfold updateWhere
  rw [mem_map]
  constructor
  · rintro ⟨old, hold, rfl⟩
    by_cases hc : c old
    · exact .inr ⟨old, hold, hc, (if_pos hc).symm⟩
    · rw [if_neg hc]
      exact .inl ⟨hold, hc⟩
  · rintro (⟨hrow, hc⟩ | ⟨old, hold, hc, rfl⟩)
    · exact ⟨row, hrow, if_neg hc⟩
    · exact ⟨old, hold, if_pos hc⟩

theorem updateWhere_map {β : Type*} {g : α → β} (h : ∀ row, g (f row) = g row) :
    (updateWhere c f rows).map g = rows.map g := by
  unfold updateWhere
  rw [map_map]
  refine map_congr_left fun row _ => ?_
  by_cases hc : c row
  · simp only [comp_apply, if_pos hc, h]
  · simp only [comp_apply, if_neg hc]

theorem countP_updateWhere_le {p : α → Bool} (h : ∀ row, p (f row) → p row) :
    (updateWhere c f rows).countP p ≤ rows.countP p := by
  unfold updateWhere
  rw [countP_map]
  refine countP_mono_left fun row _ hp => ?_
  by_cases hc : c row
  · rw [comp_apply, if_pos hc] at hp
    exact h row hp
  · rwa [comp_apply, if_neg hc] at hp

theorem updateWhere_filter {p : α → Bool} (h : ∀ row, p (f row) = p row) :
    (updateWhere c f rows).filter p = updateWhere c f (rows.filter p) := by
  unfold updateWhere
  rw [filter_map]
  congr 1
  refine filter_congr fun row _ => ?_
  by_cases hc : c row
  · simp only [comp_apply, if_pos hc, h]
  · simp only [comp_apply, if_neg hc]

theorem updateWhere_eq_self (h : ∀ row ∈ rows, ¬ c row) : updateWhere c f rows = rows := by
  unfold updateWhere
  rw [map_congr_left fun row hrow => if_neg (h row hrow)]
  exact map_id _

end Update

theorem eq_of_countP_le_one {p : α → Bool} {rows : List α} (h : rows.countP p ≤ 1) {a b : α}
    (ha : a ∈ rows) (hb : b ∈ rows) (hpa : p a) (hpb : p b) : a = b := by
  rw [countP_eq_length_filter] at h
  have hfa : a ∈ rows.filter p := mem_filter.2 ⟨ha, hpa⟩
  have hfb : b ∈ rows.filter p := mem_filter.2 ⟨hb, hpb⟩
  match hl : rows.filter p, h with
  | [], _ =>
    rw [hl] at hfa
    cases hfa
  | [c], _ =>
    rw [hl, mem_singleton] at hfa hfb
    exact hfa.trans hfb.symm

def Retains (E : α → α → Prop) (rows rows' : List α) : Prop :=
  ∀ row ∈ rows, ∃ row' ∈ rows', E row row'

section Retention
variable {E : α → α → Prop} {rows rows' rows'' : List α}

theorem Retains.refl [Std.Refl E] (rows : List α) : Retains E rows rows :=
  fun row h => ⟨row, h, Std.Refl.refl row⟩

theorem Retains.trans [IsTrans α E] (h : Retains E rows rows') (h' : Retains E rows' rows'') :
    Retains E rows rows'' := by
  intro row hrow
  obtain ⟨row', hrow', hE⟩ := h row hrow
  obtain ⟨row'', hrow'', hE'⟩ := h' row' hrow'
  exact ⟨row'', hrow'', IsTrans.trans _ _ _ hE hE'⟩

theorem Retains.append [Std.Refl E] (more : List α) : Retains E rows (rows ++ more) :=
  fun row h => ⟨row, mem_append_left _ h, Std.Refl.refl row⟩

theorem Retains.update [Std.Refl E] {c : α → Prop} [DecidablePred c] {f : α → α}
    (h : ∀ row ∈ rows, c row → E row (f row)) : Retains E rows (updateWhere c f rows) := by
  intro row hrow
  by_cases hc : c row
  · exact ⟨f row, mem_updateWhere.2 (.inr ⟨row, hrow, hc, rfl⟩), h row hrow hc⟩
  · exact ⟨row, mem_updateWhere.2 (.inl ⟨hrow, hc⟩), Std.Refl.refl row⟩

end Retention

/-- Every row of the first table stands in its place in the second one, up to a change of it. -/
def InPlace (E : α → α → Prop) (rows rows' : List α) : Prop :=
  ∀ (i : Nat) (row : α), rows[i]? = some row → ∃ row', rows'[i]? = some row' ∧ E row row'

section Places
variable {E : α → α → Prop} {rows rows' rows'' : List α}

theorem InPlace.refl [Std.Refl E] (rows : List α) : InPlace E rows rows :=
  fun _ row h => ⟨row, h, Std.Refl.refl row⟩

section

variable (h : InPlace E rows rows')
include h

theorem InPlace.trans [IsTrans α E] (h' : InPlace E rows' rows'') : InPlace E rows rows'' := by
  intro i row hrow
  obtain ⟨row', hrow', hE⟩ := h i row hrow
  obtain ⟨row'', hrow'', hE'⟩ := h' i row' hrow'
  exact ⟨row'', hrow'', IsTrans.trans _ _ _ hE hE'⟩

omit h in
theorem InPlace.append [Std.Refl E] (more : List α) : InPlace E rows (rows ++ more) := by
  intro i row hrow
  have hlt : i < rows.length := (List.getElem?_eq_some_iff.1 hrow).1
  exact ⟨row, (getElem?_append_left hlt).trans hrow, Std.Refl.refl row⟩

omit h in
theorem InPlace.update [Std.Refl E] {c : α → Prop} [DecidablePred c] {f : α → α}
    (h : ∀ row ∈ rows, c row → E row (f row)) : InPlace E rows (updateWhere c f rows) := by
  intro i row hrow
  refine ⟨if c row then f row else row, ?_, ?_⟩
  · rw [updateWhere, getElem?_map, hrow]
    rfl
  · split
    · exact h row (mem_of_getElem? hrow) ‹_›
    · exact Std.Refl.refl row

theorem InPlace.exists_of_mem {row : α} (hrow : row ∈ rows) : ∃ row' ∈ rows', E row row' := by
  obtain ⟨i, hi, rfl⟩ := getElem_of_mem hrow
  obtain ⟨row', hrow', hE⟩ := h i _ (getElem?_eq_getElem hi)
  exact ⟨row', mem_of_getElem? hrow', hE⟩

theorem InPlace.exists_of_mem_right
    (hlength : rows'.length = rows.length) {row' : α} (hrow' : row' ∈ rows') :
    ∃ row ∈ rows, E row row' := by
  obtain ⟨i, hi, rfl⟩ := getElem_of_mem hrow'
  have hlt : i < rows.length := hlength ▸ hi
  obtain ⟨other, hother, hE⟩ := h i _ (getElem?_eq_getElem hlt)
  rw [getElem?_eq_getElem hi] at hother
  cases hother
  exact ⟨rows[i], getElem_mem hlt, hE⟩

theorem InPlace.mono {F : α → α → Prop}
    (hEF : ∀ row row', E row row' → F row row') : InPlace F rows rows' := by
  intro i row hrow
  obtain ⟨row', hrow', hE⟩ := h i row hrow
  exact ⟨row', hrow', hEF row row' hE⟩

end

end Places

section Keyed
variable {key : α → κ} {rows : List α}

section

variable (h : (rows.map key).Nodup)
include h

theorem eq_of_key {row row' : α} (hrow : row ∈ rows)
    (hrow' : row' ∈ rows) (hkey : key row = key row') : row = row' :=
  inj_on_of_nodup_map h hrow hrow' hkey

theorem key_nodup_append {row : α}
    (hfresh : ∀ other ∈ rows, key other ≠ key row) : ((rows ++ [row]).map key).Nodup := by
  rw [map_append, map_cons, map_nil]
  refine nodup_append.2 ⟨h, nodup_singleton _, ?_⟩
  intro k hk k' hk' heq
  obtain ⟨other, hother, rfl⟩ := mem_map.1 hk
  rw [mem_singleton] at hk'
  exact hfresh other hother (heq.trans hk')

theorem eq_or_changed_of_key {c : α → Prop} [DecidablePred c]
    {f : α → α} {row row' : α} (hrow : row ∈ rows) (hrow' : row' ∈ updateWhere c f rows)
    (hf : ∀ row, key (f row) = key row) (hkey : key row' = key row) :
    row' = row ∨ (c row ∧ row' = f row) := by
  rcases mem_updateWhere.1 hrow' with ⟨hold, -⟩ | ⟨old, hold, hc, rfl⟩
  · exact .inl (eq_of_key h hold hrow hkey)
  · have hsame : old = row := eq_of_key h hold hrow ((hf old).symm.trans hkey)
    subst hsame
    exact .inr ⟨hc, rfl⟩

theorem countP_key_le_one {p : α → Bool}
    (hp : ∀ row ∈ rows, ∀ row' ∈ rows, p row → p row' → key row = key row') :
    rows.countP p ≤ 1 := by
  induction rows with
  | nil => exact Nat.zero_le 1
  | cons row rows ih =>
    rw [map_cons, nodup_cons] at h
    have hrest := ih h.2 fun a ha b hb =>
      hp a (.tail _ ha) b (.tail _ hb)
    rw [countP_cons]
    by_cases hrow : p row
    · have hnone : rows.countP p = 0 := by
        refine countP_eq_zero.2 fun other hother hpo => h.1 ?_
        rw [hp row (.head _) other (.tail _ hother) hrow hpo]
        exact mem_map_of_mem hother
      rw [hnone, if_pos hrow]
    · rw [if_neg hrow]
      exact hrest

end

end Keyed

section Ordered
variable {r : α → α → Prop} [DecidableRel r] {rows : List α}

def firstBy (r : α → α → Prop) [DecidableRel r] (rows : List α) : Option α :=
  (rows.insertionSort r).head?

theorem firstBy_mem {row : α} (h : firstBy r rows = some row) : row ∈ rows :=
  (perm_insertionSort r rows).mem_iff.1 (mem_of_head? h)

end Ordered

end General
