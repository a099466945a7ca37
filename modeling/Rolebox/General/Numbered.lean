import Mathlib.Data.List.MinMax
import Mathlib.Data.List.Nodup
import Mathlib.Data.List.Range

/-! Rows numbered from one without a gap in the order they were written. -/

namespace General
open List
variable {α : Type*} {f : α → ℕ} {rows : List α}

def Numbered (f : α → ℕ) (rows : List α) : Prop :=
  rows.map f = range' 1 rows.length

namespace Numbered
variable {row : α}

theorem nil (f : α → ℕ) : Numbered f [] := rfl

section

variable (h : Numbered f rows)
include h

theorem append (hrow : f row = rows.length + 1) : Numbered f (rows ++ [row]) := by
  have hlen : (rows ++ [row]).length = rows.length + 1 := by simp
  unfold Numbered at h ⊢
  rw [map_append, h, hlen, range'_1_concat, map_cons, map_nil, hrow, Nat.add_comm]

theorem congr {β : Type*} {g : β → ℕ} {rows' : List β}
    (hmap : rows'.map g = rows.map f) : Numbered g rows' := by
  have hlen : rows'.length = rows.length := by
    rw [← length_map g, hmap, length_map]
  unfold Numbered at h ⊢
  rw [hmap, h, hlen]

theorem nodup : (rows.map f).Nodup := by
  rw [h]
  exact nodup_range'

theorem pairwise : rows.Pairwise fun a b => f a ≤ f b := by
  rw [← pairwise_map, h]
  exact pairwise_le_range'

theorem inj {row' : α} (hrow : row ∈ rows) (hrow' : row' ∈ rows)
    (heq : f row = f row') : row = row' :=
  inj_on_of_nodup_map h.nodup hrow hrow' heq

theorem exists_iff (k : ℕ) : (∃ row ∈ rows, f row = k) ↔ 1 ≤ k ∧ k ≤ rows.length := by
  rw [← mem_map, h, mem_range'_1]
  omega

theorem bounds (hrow : row ∈ rows) : 1 ≤ f row ∧ f row ≤ rows.length :=
  (h.exists_iff _).1 ⟨row, hrow, rfl⟩

end

theorem of_append (h : Numbered f (rows ++ [row])) : Numbered f rows ∧ f row = rows.length + 1 := by
  have hlen : (rows ++ [row]).length = rows.length + 1 := by simp
  unfold Numbered at h ⊢
  rw [map_append, hlen, range'_1_concat, map_cons, map_nil] at h
  obtain ⟨hrows, hrow⟩ := append_inj' h rfl
  exact ⟨hrows, (singleton_inj.1 hrow).trans (Nat.add_comm ..)⟩

theorem argmax_eq (h : Numbered f rows) : rows.argmax f = rows.getLast? := by
  induction rows using reverseRecOn with
  | nil => rfl
  | append_singleton rows row ih =>
    obtain ⟨hrows, hrow⟩ := h.of_append
    rw [argmax_concat, ih hrows, getLast?_append]
    cases hlast : rows.getLast? with
    | none => rfl
    | some last =>
      have hle := (hrows.bounds (mem_of_getLast? hlast)).2
      exact if_pos (by omega)

theorem argmax_eq_some_iff (h : Numbered f rows) :
    rows.argmax f = some row ↔ row ∈ rows ∧ f row = rows.length := by
  have hlast : ∀ last, rows.argmax f = some last → last ∈ rows ∧ f last = rows.length := by
    intro last hl
    rw [h.argmax_eq] at hl
    obtain ⟨front, rfl⟩ := getLast?_eq_some_iff.1 hl
    have hnum := h.of_append.2
    exact ⟨by simp, by simpa using hnum⟩
  refine ⟨hlast row, ?_⟩
  rintro ⟨hmem, hnum⟩
  cases hmax : rows.argmax f with
  | none => simp [argmax_eq_none.1 hmax] at hmem
  | some last =>
    obtain ⟨hl, hln⟩ := hlast last hmax
    rw [h.inj hl hmem (hln.trans hnum.symm)]

end Numbered
end General
