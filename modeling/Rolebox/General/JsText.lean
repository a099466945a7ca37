import Mathlib.Data.List.Basic
import Mathlib.Tactic.IntervalCases

/-! JavaScript strings: lists of UTF-16 code units, and their JSON text. -/

namespace General
open List

abbrev CodeUnit := Fin 65536

instance codeUnit_neZero : NeZero 65536 := ⟨by decide⟩

/-- A JavaScript string. -/
abbrev JsText := List CodeUnit

instance : LawfulBEq JsText := inferInstance

namespace JsText

def isHigh (u : CodeUnit) : Bool := 0xD800 ≤ u.val && u.val < 0xDC00

def isLow (u : CodeUnit) : Bool := 0xDC00 ≤ u.val && u.val < 0xE000

def units (c : Char) : JsText :=
  if c.toNat < 0x10000 then [Fin.ofNat 65536 c.toNat]
  else [Fin.ofNat 65536 (0xD800 + (c.toNat - 0x10000) / 0x400),
    Fin.ofNat 65536 (0xDC00 + (c.toNat - 0x10000) % 0x400)]

def ofText (l : List Char) : JsText := l.flatMap units

def paired (high low : CodeUnit) : Char :=
  Char.ofNat (0x10000 + (high.val - 0xD800) * 0x400 + (low.val - 0xDC00))

def hexDigits (n : Nat) : List Char :=
  [Nat.digitChar (n / 4096), Nat.digitChar (n / 256 % 16), Nat.digitChar (n / 16 % 16),
    Nat.digitChar (n % 16)]

def escaped (u : CodeUnit) : List Char :=
  if u.val = 34 then ['\\', '"']
  else if u.val = 92 then ['\\', '\\']
  else if u.val = 8 then ['\\', 'b']
  else if u.val = 9 then ['\\', 't']
  else if u.val = 10 then ['\\', 'n']
  else if u.val = 12 then ['\\', 'f']
  else if u.val = 13 then ['\\', 'r']
  else if u.val < 32 ∨ isHigh u ∨ isLow u then '\\' :: 'u' :: hexDigits u.val
  else [Char.ofNat u.val]

def escapedAll : JsText → List Char
  | [] => []
  | [u] => escaped u
  | u :: v :: rest =>
    if isHigh u ∧ isLow v then paired u v :: escapedAll rest
    else escaped u ++ escapedAll (v :: rest)

/-- `JSON.stringify` of a string. -/
def quoted (s : JsText) : List Char := '"' :: (escapedAll s ++ ['"'])

def readHexDigit (c : Char) : Option Nat :=
  if c.isDigit then some (c.toNat - 48)
  else if 'a' ≤ c ∧ c ≤ 'f' then some (c.toNat - 87)
  else if 'A' ≤ c ∧ c ≤ 'F' then some (c.toNat - 55)
  else none

def readEscape : List Char → Option (CodeUnit × List Char)
  | [] => none
  | c :: rest =>
    if c = 'u' then
      match rest with
      | h₁ :: h₂ :: h₃ :: h₄ :: rest => do
        let d₁ ← readHexDigit h₁
        let d₂ ← readHexDigit h₂
        let d₃ ← readHexDigit h₃
        let d₄ ← readHexDigit h₄
        return (Fin.ofNat 65536 (d₁ * 4096 + d₂ * 256 + d₃ * 16 + d₄), rest)
      | _ => none
    else if c = '"' then some (34, rest)
    else if c = '\\' then some (92, rest)
    else if c = '/' then some (47, rest)
    else if c = 'b' then some (8, rest)
    else if c = 't' then some (9, rest)
    else if c = 'n' then some (10, rest)
    else if c = 'f' then some (12, rest)
    else if c = 'r' then some (13, rest)
    else none

def readString : Nat → List Char → Option (JsText × List Char)
  | 0, _ => none
  | _ + 1, [] => none
  | fuel + 1, c :: rest =>
    if c = '"' then some ([], rest)
    else if c = '\\' then
      (readEscape rest).bind fun unit =>
        (readString fuel unit.2).map fun read => (unit.1 :: read.1, read.2)
    else if c.toNat < 32 then none
    else (readString fuel rest).map fun read => (units c ++ read.1, read.2)

section RoundTrip
variable {fuel : Nat}

theorem readHexDigit_digitChar {n : Nat} (h : n < 16) :
    readHexDigit (Nat.digitChar n) = some n := by
  interval_cases n <;> rfl

theorem readEscape_hexDigits (u : CodeUnit) (l : List Char) :
    readEscape ('u' :: (hexDigits u.val ++ l)) = some (u, l) := by
  have hu := u.isLt
  have hread : readEscape ('u' :: (hexDigits u.val ++ l)) = (do
      let d₁ ← readHexDigit (Nat.digitChar (u.val / 4096))
      let d₂ ← readHexDigit (Nat.digitChar (u.val / 256 % 16))
      let d₃ ← readHexDigit (Nat.digitChar (u.val / 16 % 16))
      let d₄ ← readHexDigit (Nat.digitChar (u.val % 16))
      return (Fin.ofNat 65536 (d₁ * 4096 + d₂ * 256 + d₃ * 16 + d₄), l)) := rfl
  rw [hread, readHexDigit_digitChar (by omega), readHexDigit_digitChar (by omega),
    readHexDigit_digitChar (by omega), readHexDigit_digitChar (by omega)]
  have hvalue : u.val / 4096 * 4096 + u.val / 256 % 16 * 256 + u.val / 16 % 16 * 16 + u.val % 16 =
      u.val := by omega
  show some (Fin.ofNat 65536 (u.val / 4096 * 4096 + u.val / 256 % 16 * 256 +
    u.val / 16 % 16 * 16 + u.val % 16), l) = some (u, l)
  rw [hvalue, Fin.ofNat_val_eq_self]

theorem toNat_ofNat {n : Nat} (h : n.isValidChar) : (Char.ofNat n).toNat = n := by
  rw [Char.ofNat, dif_pos h]
  rfl

theorem charOfByte_injective : Function.Injective fun byte : UInt8 => Char.ofNat byte.toNat := by
  intro a b h
  have hvalid : ∀ byte : UInt8, byte.toNat.isValidChar := fun byte =>
    .inl (byte.toNat_lt.trans (by decide))
  have hnat := congrArg Char.toNat h
  simp only [toNat_ofNat (hvalid _)] at hnat
  exact UInt8.toNat_inj.1 hnat

theorem readString_escape {u : CodeUnit} {l rest : List Char} (h : readEscape l = some (u, rest)) :
    readString (fuel + 1) ('\\' :: l) =
      (readString fuel rest).map fun read => (u :: read.1, read.2) := by
  rw [readString, if_neg (by decide), if_pos rfl, h]
  rfl

theorem readString_plain {c : Char} (rest : List Char) (hquote : c.toNat ≠ 34)
    (hescape : c.toNat ≠ 92) (hcontrol : 32 ≤ c.toNat) :
    readString (fuel + 1) (c :: rest) =
      (readString fuel rest).map fun read => (units c ++ read.1, read.2) := by
  have hneither : c ≠ '"' ∧ c ≠ '\\' := by
    constructor <;> rintro rfl <;> contradiction
  rw [readString, if_neg hneither.1, if_neg hneither.2, if_neg (not_lt.2 hcontrol)]

theorem readString_escaped (fuel : Nat) (u : CodeUnit) (l : List Char) :
    readString (fuel + 1) (escaped u ++ l) =
      (readString fuel l).map fun read => (u :: read.1, read.2) := by
  have hshort : ∀ (c : Char) (n : CodeUnit), u.val = n.val → readEscape (c :: l) = some (n, l) →
      readString (fuel + 1) (['\\', c] ++ l) =
        (readString fuel l).map fun read => (u :: read.1, read.2) := by
    intro c n hn hread
    rw [Fin.ext hn]
    exact readString_escape hread
  unfold escaped
  split
  · exact hshort '"' 34 ‹_› rfl
  split
  · exact hshort '\\' 92 ‹_› rfl
  split
  · exact hshort 'b' 8 ‹_› rfl
  split
  · exact hshort 't' 9 ‹_› rfl
  split
  · exact hshort 'n' 10 ‹_› rfl
  split
  · exact hshort 'f' 12 ‹_› rfl
  split
  · exact hshort 'r' 13 ‹_› rfl
  split
  · exact readString_escape (readEscape_hexDigits u l)
  next hplain =>
  -- the unit is a character of its own
  simp only [isHigh, isLow, Bool.and_eq_true, decide_eq_true_eq, not_or, not_and, not_lt] at hplain
  have hu := u.isLt
  have hnat : (Char.ofNat u.val).toNat = u.val := by
    apply toNat_ofNat
    rw [Nat.isValidChar]
    omega
  have hunits : units (Char.ofNat u.val) = [u] := by
    rw [units, hnat, if_pos hu, Fin.ofNat_val_eq_self]
  rw [singleton_append, readString_plain l (by omega) (by omega) (by omega), hunits]
  rfl

theorem readString_paired (fuel : Nat) {u v : CodeUnit} (hu : isHigh u = true)
    (hv : isLow v = true) (l : List Char) :
    readString (fuel + 1) (paired u v :: l) =
      (readString fuel l).map fun read => (u :: v :: read.1, read.2) := by
  simp only [isHigh, isLow, Bool.and_eq_true, decide_eq_true_eq] at hu hv
  have hnat : (paired u v).toNat = 0x10000 + (u.val - 0xD800) * 0x400 + (v.val - 0xDC00) := by
    apply toNat_ofNat
    rw [Nat.isValidChar]
    omega
  have hhigh : 0xD800 + ((paired u v).toNat - 0x10000) / 0x400 = u.val := by omega
  have hlow : 0xDC00 + ((paired u v).toNat - 0x10000) % 0x400 = v.val := by omega
  have hunits : units (paired u v) = [u, v] := by
    rw [units, if_neg (by omega), hhigh, hlow, Fin.ofNat_val_eq_self, Fin.ofNat_val_eq_self]
  rw [readString_plain l (by omega) (by omega) (by omega), hunits]
  rfl

theorem escaped_length_pos (u : CodeUnit) : 0 < (escaped u).length := by
  unfold escaped
  repeat' split
  all_goals exact Nat.succ_pos _

theorem readString_escapedAll (s : JsText) (rest : List Char) (h : (escapedAll s).length < fuel) :
    readString fuel (escapedAll s ++ '"' :: rest) = some (s, rest) := by
  obtain ⟨fuel, rfl⟩ : ∃ k, fuel = k + 1 := ⟨fuel - 1, by omega⟩
  induction s using escapedAll.induct generalizing fuel with
  | case1 => rfl
  | case2 u =>
    obtain ⟨fuel, rfl⟩ : ∃ k, fuel = k + 1 := by
      have hpos := escaped_length_pos u
      rw [escapedAll] at h
      exact ⟨fuel - 1, by omega⟩
    rw [escapedAll, readString_escaped]
    rfl
  | case3 u v s hpair ih =>
    rw [escapedAll, if_pos hpair, length_cons] at h
    obtain ⟨fuel, rfl⟩ : ∃ k, fuel = k + 1 := ⟨fuel - 1, by omega⟩
    rw [escapedAll, if_pos hpair, cons_append, readString_paired _ hpair.1 hpair.2,
      ih fuel (by omega)]
    rfl
  | case4 u v s hpair ih =>
    have hpos := escaped_length_pos u
    rw [escapedAll, if_neg hpair, length_append] at h
    obtain ⟨fuel, rfl⟩ : ∃ k, fuel = k + 1 := ⟨fuel - 1, by omega⟩
    rw [escapedAll, if_neg hpair, append_assoc, readString_escaped, ih fuel (by omega)]
    rfl

end RoundTrip
end JsText
end General
