import Mathlib.Data.List.Induction
import Rolebox.General.Keyed

/-! The members of a list grouped by a key, in the order the keys first occur. -/

namespace General
open List
variable {α γ : Type*} [DecidableEq α]

theorem distinct_concat (l : List α) (a : α) :
    distinct (l ++ [a]) = if a ∈ l then distinct l else distinct l ++ [a] := by
  induction l with
  | nil => simp [distinct]
  | cons b l ih =>
    show b :: (distinct (l ++ [a])).filter (· ≠ b) = _
    rw [ih]
    by_cases hab : a = b
    · subst hab
      by_cases hmem : a ∈ l <;> simp [distinct, hmem]
    · by_cases hmem : a ∈ l <;> simp [distinct, hmem, hab]

variable (key : γ → α)

def addTo (groups : List (α × List γ)) (c : γ) : List (α × List γ) :=
  assign (key c) ((groups.lookup (key c)).getD [] ++ [c]) groups

theorem foldl_addTo (l : List γ) :
    l.foldl (addTo key) [] =
      (distinct (l.map key)).map fun k => (k, l.filter fun c => decide (key c = k)) := by
  induction l using reverseRecOn with
  | nil => rfl
  | append_singleton l c ih =>
    have hkeys : ((distinct (l.map key)).map
        fun k => (k, l.filter fun c => decide (key c = k))).map Prod.fst = distinct (l.map key) := by
      rw [map_map]
      exact map_id _
    rw [foldl_append, foldl_cons, foldl_nil, ih, addTo, map_append,
      map_singleton, distinct_concat, assign, hkeys]
    by_cases hmem : key c ∈ l.map key
    · have hlookup : ((distinct (l.map key)).map
          fun k => (k, l.filter fun c => decide (key c = k))).lookup (key c) =
            some (l.filter fun c' => decide (key c' = key c)) := by
        apply lookup_of_mem
        · rw [hkeys]
          exact nodup_distinct _
        · exact mem_map.2 ⟨key c, mem_distinct.2 hmem, rfl⟩
      rw [if_pos (mem_distinct.2 hmem), if_pos hmem, hlookup, map_map]
      apply map_congr_left
      intro k _
      by_cases hk : k = key c
      · simp [hk]
      · simp [hk, Ne.symm hk]
    · have hlookup : ((distinct (l.map key)).map
          fun k => (k, l.filter fun c => decide (key c = k))).lookup (key c) = none := by
        rw [lookup_eq_none_iff, hkeys, mem_distinct]
        exact hmem
      have hnone : l.filter (fun c' => decide (key c' = key c)) = [] := by
        rw [filter_eq_nil_iff]
        intro c' hc' hsame
        exact hmem (of_decide_eq_true hsame ▸ mem_map_of_mem hc')
      rw [if_neg (mt mem_distinct.1 hmem), if_neg hmem, hlookup, map_append,
        map_singleton, filter_append, hnone]
      congr 1
      · apply map_congr_left
        intro k hk
        have hne : key c ≠ k := by
          rintro rfl
          exact hmem (mem_distinct.1 hk)
        simp [hne]
      · simp

omit [DecidableEq α] in
theorem filterMap_ne_singleton {f : α → Option γ} {l : List α} {i j : ℕ} {a b : α} {c d e : γ}
    (hij : i ≠ j) (hi : l[i]? = some a) (hj : l[j]? = some b) (ha : f a = some c)
    (hb : f b = some d) : l.filterMap f ≠ [e] := by
  induction l generalizing i j with
  | nil => cases hi
  | cons first l ih =>
    have hrest : ∀ {k : ℕ} {x : α} {y : γ}, l[k]? = some x → f x = some y → l.filterMap f ≠ [] := by
      intro k x y hk hx hnil
      have hmem : y ∈ l.filterMap f := mem_filterMap.2 ⟨x, mem_of_getElem? hk, hx⟩
      rw [hnil] at hmem
      cases hmem
    intro hone
    cases hfirst : f first with
    | none =>
      rw [filterMap_cons_none hfirst] at hone
      cases i with
      | zero =>
        cases hi
        rw [ha] at hfirst
        cases hfirst
      | succ i =>
        cases j with
        | zero =>
          cases hj
          rw [hb] at hfirst
          cases hfirst
        | succ j => exact ih (fun h => hij (congrArg _ h)) hi hj hone
    | some c' =>
      rw [filterMap_cons_some hfirst] at hone
      have hnil : l.filterMap f = [] := (List.cons.inj hone).2
      cases i with
      | zero =>
        cases j with
        | zero => exact hij rfl
        | succ j => exact hrest hj hb hnil
      | succ i => exact hrest hi ha hnil

end General
