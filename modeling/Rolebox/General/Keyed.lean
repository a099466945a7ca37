import Mathlib.Data.List.Dedup
import Mathlib.Data.List.Perm.Basic

/-! Insertion-ordered sets and association lists with one entry per key. -/

namespace General
open List
variable {α β : Type*} [DecidableEq α]
variable {k : α} {b : β} {l : List (α × β)} {j : α}

/-- The members of a list in the order they first occur, each once. -/
def distinct : List α → List α
  | [] => []
  | a :: l => a :: (distinct l).filter (· ≠ a)

@[simp] theorem mem_distinct {a : α} {l : List α} : a ∈ distinct l ↔ a ∈ l := by
  induction l with
  | nil => rfl
  | cons b l ih =>
    by_cases h : a = b
    · simp [distinct, h]
    · simp [distinct, h, ih]

theorem nodup_distinct (l : List α) : (distinct l).Nodup := by
  induction l with
  | nil => exact nodup_nil
  | cons b l ih =>
    refine nodup_cons.2 ⟨?_, ih.filter _⟩
    simp

theorem distinct_sublist (l : List α) : (distinct l).Sublist l := by
  induction l with
  | nil => exact Sublist.slnil
  | cons b l ih => exact (filter_sublist.trans ih).cons_cons b

@[simp] theorem distinct_eq_nil {l : List α} : distinct l = [] ↔ l = [] := by
  cases l <;> simp [distinct]

/-- Write one entry: an existing key keeps its place, a new key goes last. -/
def assign (k : α) (b : β) (l : List (α × β)) : List (α × β) :=
  if k ∈ l.map Prod.fst then l.map (fun p => if p.1 = k then (k, b) else p) else l ++ [(k, b)]

theorem assign_keys (k : α) (b : β) (l : List (α × β)) :
    (assign k b l).map Prod.fst =
      if k ∈ l.map Prod.fst then l.map Prod.fst else l.map Prod.fst ++ [k] := by
  unfold assign
  split
  · rw [map_map]
    apply map_congr_left
    intro p _
    by_cases hp : p.1 = k <;> simp [hp]
  · simp

theorem assign_keys_nodup (h : (l.map Prod.fst).Nodup) : ((assign k b l).map Prod.fst).Nodup := by
  rw [assign_keys]
  split
  · exact h
  · next hk => exact nodup_append_comm.1 (nodup_cons.2 ⟨hk, h⟩)

theorem mem_assign_keys : j ∈ (assign k b l).map Prod.fst ↔ j = k ∨ j ∈ l.map Prod.fst := by
  rw [assign_keys]
  split
  · next hk => exact ⟨.inr, fun h => h.elim (fun e => e ▸ hk) id⟩
  · simp [or_comm]

theorem lookup_cons_of_ne {p : α × β} (l : List (α × β)) (h : k ≠ p.1) :
    (p :: l).lookup k = l.lookup k := by
  obtain ⟨j, b⟩ := p
  simp only [lookup_cons, beq_false_of_ne h]

theorem lookup_cons_self (p : α × β) (l : List (α × β)) : (p :: l).lookup p.1 = some p.2 := by
  obtain ⟨j, b⟩ := p
  simp only [lookup_cons, beq_self_eq_true]

theorem lookup_map_ne (b : β) (l : List (α × β)) (h : j ≠ k) :
    (l.map (fun p => if p.1 = k then (k, b) else p)).lookup j = l.lookup j := by
  induction l with
  | nil => rfl
  | cons p l ih =>
    rw [map_cons]
    by_cases hp : p.1 = k
    · rw [if_pos hp, lookup_cons_of_ne _ h, lookup_cons_of_ne _ (hp ▸ h), ih]
    rw [if_neg hp]
    by_cases hj : j = p.1
    · rw [hj, lookup_cons_self, lookup_cons_self]
    · rw [lookup_cons_of_ne _ hj, lookup_cons_of_ne _ hj, ih]

theorem lookup_map_self (b : β) (l : List (α × β)) (h : k ∈ l.map Prod.fst) :
    (l.map (fun p => if p.1 = k then (k, b) else p)).lookup k = some b := by
  induction l with
  | nil => cases h
  | cons p l ih =>
    rw [map_cons]
    by_cases hp : p.1 = k
    · rw [if_pos hp]
      exact lookup_cons_self (k, b) _
    · have hk : k ∈ l.map Prod.fst := by
        rcases mem_cons.1 h with e | e
        · exact absurd e.symm hp
        · exact e
      rw [if_neg hp, lookup_cons_of_ne _ (Ne.symm hp), ih hk]

theorem lookup_eq_none_iff : l.lookup k = none ↔ k ∉ l.map Prod.fst := by
  induction l with
  | nil => simp
  | cons p l ih =>
    by_cases hp : k = p.1
    · rw [hp, lookup_cons_self]
      simp
    · rw [lookup_cons_of_ne _ hp, ih, map_cons, mem_cons, not_or]
      exact ⟨fun h => ⟨hp, h⟩, fun h => h.2⟩

@[simp] theorem lookup_assign_self (k : α) (b : β) (l : List (α × β)) :
    (assign k b l).lookup k = some b := by
  unfold assign
  split
  · next hk => exact lookup_map_self b l hk
  · next hk => simp [lookup_append, lookup_eq_none_iff.2 hk]

theorem lookup_assign_ne (b : β) (l : List (α × β)) (h : j ≠ k) :
    (assign k b l).lookup j = l.lookup j := by
  unfold assign
  split
  · exact lookup_map_ne b l h
  · simp [lookup_append, lookup_cons, beq_false_of_ne h]

theorem mem_keys_of_lookup (h : l.lookup k = some b) : k ∈ l.map Prod.fst := by
  by_contra hk
  rw [lookup_eq_none_iff.2 hk] at h
  cases h

theorem lookup_of_mem (hn : (l.map Prod.fst).Nodup) (h : (k, b) ∈ l) : l.lookup k = some b := by
  induction l with
  | nil => cases h
  | cons p l ih =>
    obtain ⟨hp, hl⟩ := nodup_cons.1 hn
    rcases mem_cons.1 h with rfl | hm
    · exact lookup_cons_self (k, b) l
    have hk : k ≠ p.1 := by
      rintro rfl
      exact hp (mem_map.2 ⟨_, hm, rfl⟩)
    rw [lookup_cons_of_ne _ hk]
    exact ih hl hm

theorem foldl_assign_eq {acc : List (α × β)} (h : ((acc ++ l).map Prod.fst).Nodup) :
    l.foldl (fun m p => assign p.1 p.2 m) acc = acc ++ l := by
  induction l generalizing acc with
  | nil => simp
  | cons p l ih =>
    have hp : p.1 ∉ acc.map Prod.fst := by
      rw [map_append, map_cons] at h
      exact fun hm => (nodup_append.1 h).2.2 _ hm _ (.head _) rfl
    have he : assign p.1 p.2 acc = acc ++ [p] := by
      unfold assign
      rw [if_neg hp]
    rw [foldl_cons, he, ih (by simpa using h)]
    simp

section Keys
variable {κ : Type*} [DecidableEq κ] {γ : Type*} {key : γ → κ} {l : List γ} {a : γ}

theorem find?_key_eq (hn : (l.map key).Nodup) (ha : a ∈ l) :
    l.find? (fun b => decide (key b = key a)) = some a := by
  induction l with
  | nil => cases ha
  | cons b l ih =>
    obtain ⟨hb, hl⟩ := nodup_cons.1 hn
    rcases mem_cons.1 ha with rfl | ha
    · exact find?_cons_of_pos (decide_eq_true rfl)
    · have hne : key b ≠ key a := fun heq => hb (heq ▸ mem_map_of_mem ha)
      rw [find?_cons_of_neg (by simpa using hne)]
      exact ih hl ha

theorem filter_key_eq (hn : (l.map key).Nodup) (ha : a ∈ l) :
    l.filter (fun b => decide (key b = key a)) = [a] := by
  induction l with
  | nil => cases ha
  | cons b l ih =>
    obtain ⟨hb, hl⟩ := nodup_cons.1 hn
    rcases mem_cons.1 ha with rfl | ha
    · have hrest : l.filter (fun b => decide (key b = key a)) = [] := by
        rw [filter_eq_nil_iff]
        intro c hc heq
        exact hb (of_decide_eq_true heq ▸ mem_map_of_mem hc)
      simp only [filter_cons, decide_true, if_true, hrest]
    · have hne : key b ≠ key a := fun heq => hb (heq ▸ mem_map_of_mem ha)
      rw [filter_cons_of_neg (by simpa using hne)]
      exact ih hl ha

end Keys

section Lookups
variable {α β : Type*} [BEq α] [LawfulBEq α] {l : List (α × β)} {key : α} {value : β}

theorem mem_of_lookup (h : l.lookup key = some value) : (key, value) ∈ l := by
  obtain ⟨before, after, rfl, -⟩ := lookup_eq_some_iff.1 h
  exact mem_append_right _ (.head _)

theorem lookup_filter_other [DecidableEq α] {other : α} (hne : key ≠ other) :
    (l.filter fun entry => entry.1 ≠ other).lookup key = l.lookup key := by
  induction l with
  | nil => rfl
  | cons entry l ih =>
    obtain ⟨k, v⟩ := entry
    by_cases hk : k = other
    · have hbeq : (key == k) = false := beq_false_of_ne fun heq => hne (heq.trans hk)
      rw [filter_cons_of_neg (by simp [hk]), ih, lookup_cons, hbeq]
    · rw [filter_cons_of_pos (by simp [hk]), lookup_cons, lookup_cons, ih]

theorem lookup_filter_entry [DecidableEq (α × β)] {entry : α × β} (h : l.lookup key = some value)
    (hne : (key, value) ≠ entry) : (l.filter fun e => e ≠ entry).lookup key = some value := by
  induction l with
  | nil => exact nomatch h
  | cons first l ih =>
    obtain ⟨k, v⟩ := first
    rw [lookup_cons] at h
    by_cases hk : key = k
    · subst hk
      rw [beq_self_eq_true] at h
      cases h
      rw [filter_cons_of_pos (by simp [hne]), lookup_cons, beq_self_eq_true]
    · have hbeq : (key == k) = false := beq_false_of_ne hk
      rw [hbeq] at h
      by_cases hfirst : (k, v) = entry
      · rw [filter_cons_of_neg (by simp [hfirst])]
        exact ih h
      · rw [filter_cons_of_pos (by simp [hfirst]), lookup_cons, hbeq]
        exact ih h

end Lookups

end General
