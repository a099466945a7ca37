import Mathlib.Data.List.Infix
import Mathlib.Algebra.BigOperators.Group.List.Basic
import Mathlib.Algebra.GroupWithZero.Nat

/-! Lines over any alphabet: a text cut at a separator, and a mark dropped before it. -/

namespace General
open List
variable {α : Type*} [DecidableEq α] {nl cr : α}

theorem lines_induction {P : List α → Prop} (nl : α) (last : ∀ l, nl ∉ l → P l)
    (line : ∀ l rest, nl ∉ l → P rest → P (l ++ nl :: rest)) (xs : List α) : P xs := by
  induction hn : xs.length using Nat.strong_induction_on generalizing xs with
  | _ n ih =>
    by_cases h : nl ∈ xs
    · obtain ⟨l, rest, rfl, hl⟩ := eq_append_cons_of_mem h
      refine line l rest hl (ih rest.length ?_ rest rfl)
      rw [← hn, length_append, length_cons]
      omega
    · exact last xs h

@[simp] theorem splitOn_append_separator (xs : List α) :
    (xs ++ [nl]).splitOn nl = xs.splitOn nl ++ [[]] := by
  rw [splitOn_append_cons_self, splitOn_nil]

theorem splitOn_line {l : List α} (h : nl ∉ l) (rest : List α) :
    (l ++ nl :: rest).splitOn nl = l :: rest.splitOn nl :=
  splitOn_append_cons_self_of_not_mem h rest

theorem sum_length_splitOn (xs : List α) :
    ((xs.splitOn nl).map length).sum = xs.countP (· ≠ nl) := by
  induction xs using lines_induction nl with
  | last l hl =>
    have hall : l.countP (· ≠ nl) = l.length :=
      countP_eq_length.2 fun a ha => by simpa using ne_of_mem_of_not_mem ha hl
    rw [splitOn_eq_singleton hl, hall]
    simp
  | line l rest hl ih =>
    have hall : l.countP (· ≠ nl) = l.length :=
      countP_eq_length.2 fun a ha => by simpa using ne_of_mem_of_not_mem ha hl
    rw [splitOn_line hl, map_cons, sum_cons, ih, countP_append, hall]
    simp

section Squeeze
variable {xs : List α}

def dropTrailing (cr : α) (l : List α) : List α :=
  if l.getLast? = some cr then l.dropLast else l

/-- Drop every mark that stands right before a separator. -/
def squeeze (cr nl : α) : List α → List α
  | [] => []
  | a :: xs => if a = cr ∧ xs.head? = some nl then squeeze cr nl xs else a :: squeeze cr nl xs

omit [DecidableEq α] in
theorem pair_infix_cons {a : α} :
    [cr, nl] <:+: a :: xs ↔ a = cr ∧ xs.head? = some nl ∨ [cr, nl] <:+: xs := by
  rw [infix_cons_iff, cons_prefix_cons]
  have hhead : [nl] <+: xs ↔ xs.head? = some nl := by
    cases xs with
    | nil => simp
    | cons b xs => simp [cons_prefix_cons, eq_comm]
  rw [hhead, eq_comm (a := cr)]

theorem squeeze_eq_self (h : ¬ [cr, nl] <:+: xs) : squeeze cr nl xs = xs := by
  induction xs with
  | nil => rfl
  | cons a xs ih =>
    rw [pair_infix_cons, not_or] at h
    rw [squeeze, if_neg h.1, ih h.2]

theorem countP_squeeze_le (p : α → Bool) (xs : List α) :
    (squeeze cr nl xs).countP p ≤ xs.countP p := by
  induction xs with
  | nil => exact le_rfl
  | cons a xs ih =>
    rw [squeeze]
    split
    · exact ih.trans ((sublist_cons_self a xs).countP_le)
    · rw [countP_cons, countP_cons]
      exact Nat.add_le_add_right ih _

theorem countP_squeeze_lt {p : α → Bool} (hp : p cr = true) (h : [cr, nl] <:+: xs) :
    (squeeze cr nl xs).countP p < xs.countP p := by
  induction xs with
  | nil => simp at h
  | cons a xs ih =>
    rw [squeeze]
    by_cases hmark : a = cr ∧ xs.head? = some nl
    · rw [if_pos hmark, hmark.1, countP_cons_of_pos hp]
      exact Nat.lt_succ_of_le (countP_squeeze_le p xs)
    · rw [if_neg hmark, countP_cons, countP_cons]
      exact Nat.add_lt_add_right (ih ((pair_infix_cons.1 h).resolve_left hmark)) _

theorem squeeze_line (hne : cr ≠ nl) {l : List α} (hl : nl ∉ l) (rest : List α) :
    squeeze cr nl (l ++ nl :: rest) = dropTrailing cr l ++ nl :: squeeze cr nl rest := by
  induction l with
  | nil =>
    have hkeep : ¬ (nl = cr ∧ rest.head? = some nl) := fun h => hne h.1.symm
    simp [squeeze, dropTrailing, if_neg hkeep]
  | cons a l ih =>
    obtain ⟨ha, hl⟩ : nl ≠ a ∧ nl ∉ l := by simpa using hl
    rw [cons_append, squeeze, ih hl]
    cases l with
    | nil => by_cases hcr : a = cr <;> simp [dropTrailing, hcr]
    | cons b l =>
      have hb : b ≠ nl := by
        rintro rfl
        exact hl (.head _)
      by_cases hlast : (b :: l).getLast? = some cr
      · simp [dropTrailing, getLast?_cons_cons, hlast, hb]
      · simp [dropTrailing, getLast?_cons_cons, hlast, hb]

omit [DecidableEq α] in
theorem pair_infix_line (hne : cr ≠ nl) {l : List α} (hl : nl ∉ l) (rest : List α) :
    [cr, nl] <:+: l ++ nl :: rest ↔ l.getLast? = some cr ∨ [cr, nl] <:+: rest := by
  induction l with
  | nil =>
    rw [nil_append, pair_infix_cons]
    simp [hne.symm]
  | cons a l ih =>
    obtain ⟨ha, hl⟩ : nl ≠ a ∧ nl ∉ l := by simpa using hl
    rw [cons_append, pair_infix_cons, ih hl]
    cases l with
    | nil => simp
    | cons b l =>
      have hb : b ≠ nl := by
        rintro rfl
        exact hl (.head _)
      simp [getLast?_cons_cons, hb]

end Squeeze
end General
