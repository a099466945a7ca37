import Mathlib.Algebra.Group.Nat.Defs
import Rolebox.General.Utf8

/-! Length-prefixed frames: a sequence of records is read back from its frames. -/

namespace General.Framing
open List

open Utf8 (Bytes)

variable {a b x y : Bytes}

/-- The `k` lower bytes of a number, the highest first. -/
def bigEndian : Nat → Nat → Bytes
  | 0, _ => []
  | k + 1, n => bigEndian k (n / 256) ++ [UInt8.ofNat n]

@[simp] theorem length_bigEndian (k n : Nat) : (bigEndian k n).length = k := by
  induction k generalizing n with
  | zero => rfl
  | succ k ih => rw [bigEndian, length_append, ih, length_singleton]

theorem bigEndian_inj {k n m : Nat} (hn : n < 256 ^ k) (hm : m < 256 ^ k)
    (h : bigEndian k n = bigEndian k m) : n = m := by
  induction k generalizing n m with
  | zero =>
    rw [Nat.pow_zero] at hn hm
    omega
  | succ k ih =>
    rw [Nat.pow_succ] at hn hm
    obtain ⟨hhigh, hlow⟩ := append_inj' h rfl
    have hhigh := ih (Nat.div_lt_of_lt_mul (Nat.mul_comm .. ▸ hn))
      (Nat.div_lt_of_lt_mul (Nat.mul_comm .. ▸ hm)) hhigh
    have hlow := congrArg UInt8.toNat (List.cons.inj hlow).1
    rw [UInt8.toNat_ofNat', UInt8.toNat_ofNat'] at hlow
    omega

/-- A value after its length in eight bytes. -/
def frame (value : Bytes) : Bytes := bigEndian 8 value.length ++ value

theorem frame_append_inj (ha : a.length < 2 ^ 64) (hb : b.length < 2 ^ 64)
    (h : frame a ++ x = frame b ++ y) : a = b ∧ x = y := by
  rw [frame, frame, append_assoc, append_assoc] at h
  obtain ⟨hlength, hrest⟩ := append_inj h (by simp)
  exact append_inj hrest (bigEndian_inj ha hb hlength)

/-- Records whose codes cannot continue one another are read back from their codes in a row. -/
theorem flatMap_inj {α β : Type*} {code : α → List β} {l l' : List α} (hne : ∀ r, code r ≠ [])
    (hcode : ∀ r ∈ l, ∀ r' ∈ l', ∀ x y, code r ++ x = code r' ++ y → r = r' ∧ x = y)
    (h : l.flatMap code = l'.flatMap code) : l = l' := by
  induction l generalizing l' with
  | nil =>
    cases l' with
    | nil => rfl
    | cons r' l' => exact absurd (append_eq_nil_iff.1 h.symm).1 (hne r')
  | cons r l ih =>
    cases l' with
    | nil => exact absurd (append_eq_nil_iff.1 h).1 (hne r)
    | cons r' l' =>
      obtain ⟨rfl, hrest⟩ := hcode r (.head _) r' (.head _) _ _ h
      rw [ih (fun s hs s' hs' => hcode s (.tail _ hs) s' (.tail _ hs')) hrest]

end General.Framing
