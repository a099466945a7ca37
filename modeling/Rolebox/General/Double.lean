import Mathlib.Data.Rat.Floor

/-! Finite binary64 numbers by the place of their magnitude, and the nearest of a rational. -/

namespace General

def infinityPlace : Nat := 0x7ff0000000000000

theorem infinityPlace_pos : 0 < infinityPlace := by decide

/-- A finite double: its sign and the 63 bits of its encoding that number its magnitude. -/
structure Double where
  negative : Bool
  place : Nat
  finite : place < infinityPlace
  deriving DecidableEq

def magnitude (place : Nat) : Nat :=
  if place < 2 ^ 52 then place else (2 ^ 52 + place % 2 ^ 52) * 2 ^ (place / 2 ^ 52 - 1)

def placeBelow (n : Nat) : Nat :=
  (Nat.log2 n - 52) * 2 ^ 52 + n / 2 ^ (Nat.log2 n - 52)

def nearest (q : ℚ) : Nat :=
  let units := q * 2 ^ 1074
  let low := placeBelow units.floor.toNat
  let ends : ℚ := ((magnitude low + magnitude (low + 1) : Nat) : ℚ)
  if 2 * units < ends then low
  else if ends < 2 * units then low + 1
  else if low % 2 = 0 then low
  else low + 1

theorem placeBelow_magnitude (place : Nat) : placeBelow (magnitude place) = place := by
  unfold magnitude
  split
  · next hsmall =>
    have hlog : place.log2 - 52 = 0 := by
      by_cases hzero : place = 0
      · rw [hzero, Nat.log2_zero]
      · have hlt := (Nat.log2_lt hzero).2 hsmall
        omega
    simp [placeBelow, hlog]
  · next hlarge =>
    obtain ⟨k, hk⟩ : ∃ k, place / 2 ^ 52 = k + 1 := ⟨place / 2 ^ 52 - 1, by omega⟩
    have hrest : place % 2 ^ 52 < 2 ^ 52 := Nat.mod_lt _ (by decide)
    have hpos : 0 < 2 ^ k := Nat.two_pow_pos k
    have hlog : ((2 ^ 52 + place % 2 ^ 52) * 2 ^ k).log2 = 52 + k := by
      apply (Nat.log2_eq_iff (Nat.mul_pos (by omega) hpos).ne').2
      rw [Nat.pow_add, show 52 + k + 1 = 53 + k by omega, Nat.pow_add]
      exact ⟨Nat.mul_le_mul_right _ (by omega), Nat.mul_lt_mul_of_pos_right (by omega) hpos⟩
    rw [hk, Nat.add_sub_cancel, placeBelow, hlog, Nat.add_sub_cancel_left,
      Nat.mul_div_cancel _ hpos]
    omega

theorem magnitude_injective : Function.Injective magnitude :=
  Function.LeftInverse.injective placeBelow_magnitude

theorem magnitude_lt_succ (place : Nat) : magnitude place < magnitude (place + 1) := by
  unfold magnitude
  split
  · next hsmall =>
    split
    · omega
    next hlarge =>
    have hplace : place + 1 = 2 ^ 52 := by omega
    rw [hplace]
    omega
  · next hlarge =>
    rw [if_neg (by omega)]
    obtain ⟨k, hk⟩ : ∃ k, place / 2 ^ 52 = k + 1 := ⟨place / 2 ^ 52 - 1, by omega⟩
    have hpos : 0 < 2 ^ k := Nat.two_pow_pos k
    by_cases hnext : (place + 1) / 2 ^ 52 = k + 1
    · rw [hk, hnext]
      exact Nat.mul_lt_mul_of_pos_right (by omega) (Nat.two_pow_pos _)
    · have hcarry : (place + 1) / 2 ^ 52 = k + 2 ∧ (place + 1) % 2 ^ 52 = 0 := by omega
      rw [hk, hcarry.1, hcarry.2, show k + 2 - 1 = k + 1 by omega, Nat.add_sub_cancel,
        Nat.add_zero, Nat.pow_succ 2 k]
      calc (2 ^ 52 + place % 2 ^ 52) * 2 ^ k < 2 ^ 53 * 2 ^ k :=
            Nat.mul_lt_mul_of_pos_right (by omega) hpos
        _ = 2 ^ 52 * (2 ^ k * 2) := by ring

theorem nearest_magnitude (place : Nat) : nearest (magnitude place / 2 ^ 1074) = place := by
  have hunits : (magnitude place / 2 ^ 1074 : ℚ) * 2 ^ 1074 = (magnitude place : ℤ) := by
    rw [div_mul_cancel₀ _ (by positivity), Int.cast_natCast]
  have hbetween : 2 * ((magnitude place : ℤ) : ℚ) <
      ((magnitude place + magnitude (place + 1) : Nat) : ℚ) := by
    have hlt := magnitude_lt_succ place
    rw [Int.cast_natCast]
    exact_mod_cast (by omega : 2 * magnitude place < magnitude place + magnitude (place + 1))
  unfold nearest
  simp only [hunits, Rat.floor_intCast, Int.toNat_natCast, placeBelow_magnitude]
  exact if_pos hbetween

theorem nearest_zero : nearest 0 = 0 := by
  have hzero := nearest_magnitude 0
  rwa [show magnitude 0 = 0 from rfl, Nat.cast_zero, zero_div] at hzero

namespace Double
variable {x y : Double}

def value (x : Double) : ℚ := (if x.negative then -1 else 1) * (magnitude x.place / 2 ^ 1074)

def positiveZero (x : Double) : Double := if x.place = 0 then { x with negative := false } else x

theorem place_positiveZero (x : Double) : x.positiveZero.place = x.place := by
  unfold positiveZero
  split <;> rfl

theorem value_positiveZero (x : Double) : x.positiveZero.value = x.value := by
  unfold positiveZero
  split
  · next hzero =>
    have hmagnitude : magnitude x.place = 0 := by rw [hzero, magnitude, if_pos (by decide)]
    simp [value, hmagnitude]
  · rfl

theorem abs_value (x : Double) : |x.value| = magnitude x.place / 2 ^ 1074 := by
  have hsign : |(if x.negative then -1 else 1 : ℚ)| = 1 := by split <;> simp
  rw [value, abs_mul, hsign, one_mul, abs_of_nonneg (by positivity)]

theorem place_eq_of_value (h : x.value = y.value) : x.place = y.place := by
  have habs : (magnitude x.place : ℚ) / 2 ^ 1074 = magnitude y.place / 2 ^ 1074 := by
    rw [← abs_value, ← abs_value, h]
  have hcast := (div_left_inj' (by positivity : (2 : ℚ) ^ 1074 ≠ 0)).1 habs
  exact magnitude_injective (by exact_mod_cast hcast)

theorem negative_eq_of_value (h : x.value = y.value) (hpos : x.place ≠ 0) :
    x.negative = y.negative := by
  have hmagnitude : magnitude x.place ≠ 0 := fun hzero =>
    hpos (magnitude_injective (hzero.trans (by decide : 0 = magnitude 0)))
  have hunits : (magnitude x.place / 2 ^ 1074 : ℚ) ≠ 0 :=
    div_ne_zero (Nat.cast_ne_zero.2 hmagnitude) (by positivity)
  rw [value, value, ← place_eq_of_value h] at h
  have hsign := mul_right_cancel₀ hunits h
  revert hsign
  cases x.negative <;> cases y.negative <;> norm_num

theorem value_eq_iff : x.value = y.value ↔ x.positiveZero = y.positiveZero := by
  constructor
  · intro h
    have hplace := place_eq_of_value h
    unfold positiveZero
    by_cases hzero : x.place = 0
    · rw [if_pos hzero, if_pos (hplace ▸ hzero), mk.injEq]
      exact ⟨rfl, hplace⟩
    · rw [if_neg hzero, if_neg (hplace ▸ hzero), mk.injEq]
      exact ⟨negative_eq_of_value h hzero, hplace⟩
  · intro h
    rw [← value_positiveZero x, h, value_positiveZero]

end Double
end General
