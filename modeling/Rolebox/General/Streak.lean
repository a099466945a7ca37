import Mathlib.Data.List.Induction

/-! Streaks: how often in a row an observation repeated the one before it. -/

namespace General
open List
variable {α : Type*}

def lastSeen (observations : List (Option α)) : Option α :=
  observations.foldl (fun seen observation => observation.or seen) none

def streak [DecidableEq α] (observations : List (Option α)) : Nat :=
  (observations.foldl (fun (s : Option α × Nat) observation =>
    (observation.or s.1, if observation ≠ none ∧ observation = s.1 then s.2 + 1 else 0))
    (none, 0)).2

@[simp] theorem lastSeen_nil : lastSeen ([] : List (Option α)) = none := rfl

@[simp] theorem lastSeen_concat (observations : List (Option α)) (observation : Option α) :
    lastSeen (observations ++ [observation]) = observation.or (lastSeen observations) := by
  rw [lastSeen, foldl_append]
  rfl

section Streak
variable [DecidableEq α]

@[simp] theorem streak_nil : streak ([] : List (Option α)) = 0 := rfl

theorem streak_concat (observations : List (Option α)) (observation : Option α) :
    streak (observations ++ [observation]) =
      if observation ≠ none ∧ observation = lastSeen observations then streak observations + 1
      else 0 := by
  have hseen (xs : List (Option α)) : (xs.foldl (fun (s : Option α × Nat) observation =>
      (observation.or s.1, if observation ≠ none ∧ observation = s.1 then s.2 + 1 else 0))
      (none, 0)).1 = lastSeen xs := by
    induction xs using reverseRecOn with
    | nil => rfl
    | append_singleton xs x ih => rw [foldl_append, lastSeen_concat, ← ih]; rfl
  rw [streak, foldl_append, foldl_cons, foldl_nil, hseen]
  rfl

end Streak
end General
