import Mathlib.Logic.Function.Basic

/-! A cell with the value in effect: holders set it, clear it, and put back what they found. -/

namespace General
variable {κ α : Type*}

structure AmbientCell (κ α : Type*) where
  value : Option α
  setBy : Option κ

namespace AmbientCell
variable {c : AmbientCell κ α} {k : κ} {own : Option α} {valueOf valueOf' : κ → Option α}

def clear : AmbientCell κ α := ⟨none, none⟩

def put (k : κ) (own : Option α) : AmbientCell κ α := ⟨own, own.map fun _ => k⟩

def restored (found : AmbientCell κ α) : AmbientCell κ α :=
  match found.value with
  | none => clear
  | some _ => found

def InEffect (c : AmbientCell κ α) (k : κ) (own : Option α) : Prop := c.setBy = own.map fun _ => k

def Current (valueOf : κ → Option α) (c : AmbientCell κ α) : Prop :=
  match c.setBy with
  | none => c.value = none
  | some k => (valueOf k).isSome ∧ c.value = valueOf k

def Found (valueOf : κ → Option α) (c : AmbientCell κ α) : Prop :=
  match c.setBy with
  | none => c.value = none
  | some k => ∀ v, valueOf k = some v → c.value = some v

/-- Whoever set what was found is still at work. -/
def StillHeld (valueOf : κ → Option α) (c : AmbientCell κ α) : Prop :=
  ∀ k, c.setBy = some k → (valueOf k).isSome

theorem current_clear : (clear : AmbientCell κ α).Current valueOf := rfl

theorem current_put (h : valueOf k = own) : (put k own).Current valueOf := by
  cases hown : own with
  | none => rfl
  | some v =>
    refine ⟨?_, ?_⟩
    · rw [h, hown]
      rfl
    · rw [h, hown]
      rfl

section

variable (h : c.Current valueOf)
include h

theorem Current.found : c.Found valueOf := by
  unfold Current at h
  unfold Found
  cases hset : c.setBy with
  | none =>
    rw [hset] at h
    exact h
  | some k =>
    rw [hset] at h
    exact fun v hv => h.2.trans hv

omit h in
theorem Found.restored (h : c.Found valueOf) (hheld : c.StillHeld valueOf) :
    c.restored.Current valueOf := by
  unfold AmbientCell.restored
  cases hvalue : c.value with
  | none => exact current_clear
  | some v =>
    unfold Current
    unfold Found at h
    dsimp only
    cases hset : c.setBy with
    | none =>
      rw [hset] at h
      exact nomatch hvalue.symm.trans h
    | some k =>
      rw [hset] at h
      obtain ⟨u, hu⟩ := Option.isSome_iff_exists.1 (hheld k hset)
      refine ⟨Option.isSome_iff_exists.2 ⟨u, hu⟩, ?_⟩
      rw [hu]
      exact h u hu

theorem Current.value_eq (heffect : c.InEffect k own) (hown : valueOf k = own) : c.value = own := by
  unfold InEffect at heffect
  unfold Current at h
  cases hcase : own with
  | none =>
    rw [heffect, hcase] at h
    exact h
  | some v =>
    rw [heffect, hcase] at h
    exact h.2.trans (hown.trans hcase)

theorem Current.value_none (hnone : ∀ k, valueOf k = none) : c.value = none := by
  unfold Current at h
  cases hset : c.setBy with
  | none =>
    rw [hset] at h
    exact h
  | some k =>
    rw [hset] at h
    dsimp only at h
    rw [hnone k] at h
    exact nomatch h.1

theorem Current.of_same
    (hsame : ∀ k, c.setBy = some k → valueOf' k = valueOf k) : c.Current valueOf' := by
  unfold Current at h ⊢
  cases hset : c.setBy with
  | none =>
    rw [hset] at h
    exact h
  | some k =>
    rw [hset] at h
    dsimp only
    rw [hsame k hset]
    exact h

end

theorem Found.of_fewer (h : c.Found valueOf)
    (hfewer : ∀ k v, c.setBy = some k → valueOf' k = some v → valueOf k = some v) :
    c.Found valueOf' := by
  unfold Found at h ⊢
  cases hset : c.setBy with
  | none =>
    rw [hset] at h
    exact h
  | some k =>
    rw [hset] at h
    exact fun v hv => h v (hfewer k v hset hv)

end AmbientCell
end General
