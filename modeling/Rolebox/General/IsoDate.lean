import Mathlib.Data.List.Basic
import Mathlib.Tactic.IntervalCases

/-! Time values and their texts in the date-time format of ECMAScript. -/

namespace General.IsoDate
open List

/-- The day a date falls on; a year counts from its March, so that the leap day is its last. -/
def daysOfCivil (year month day : Int) : Int :=
  let y := if month ≤ 2 then year - 1 else year
  let monthIndex := if month ≤ 2 then month + 9 else month - 3
  let yearOfEra := y % 400
  y / 400 * 146097 + yearOfEra * 365 + yearOfEra / 4 - yearOfEra / 100 +
    ((153 * monthIndex + 2) / 5 + day - 1) - 719468

def yearOfEra (dayOfEra : Int) : Int × Int :=
  let century := min (dayOfEra / 36524) 3
  let dayOfCentury := dayOfEra - century * 36524
  let dayOfQuad := dayOfCentury % 1461
  let yearOfQuad := min (dayOfQuad / 365) 3
  (century * 100 + dayOfCentury / 1461 * 4 + yearOfQuad, dayOfQuad - yearOfQuad * 365)

def civilOfDays (days : Int) : Int × Int × Int :=
  let era := (days + 719468) / 146097
  let (year, dayOfYear) := yearOfEra ((days + 719468) % 146097)
  let monthIndex := (5 * dayOfYear + 2) / 153
  let day := dayOfYear - (153 * monthIndex + 2) / 5 + 1
  if monthIndex < 10 then (era * 400 + year, monthIndex + 3, day)
  else (era * 400 + year + 1, monthIndex - 9, day)

theorem yearOfEra_spec {dayOfEra : Int} (hlow : 0 ≤ dayOfEra) (hhigh : dayOfEra < 146097) :
    ∃ year dayOfYear, yearOfEra dayOfEra = (year, dayOfYear) ∧ 0 ≤ year ∧ year < 400 ∧
      0 ≤ dayOfYear ∧ dayOfYear ≤ 365 ∧
      year * 365 + year / 4 - year / 100 + dayOfYear = dayOfEra := by
  obtain ⟨century, hcentury⟩ : ∃ c, c = min (dayOfEra / 36524) 3 := ⟨_, rfl⟩
  obtain ⟨quad, hquad⟩ : ∃ q, q = (dayOfEra - century * 36524) / 1461 := ⟨_, rfl⟩
  obtain ⟨dayOfQuad, hdayOfQuad⟩ : ∃ d, d = (dayOfEra - century * 36524) % 1461 := ⟨_, rfl⟩
  obtain ⟨yearOfQuad, hyearOfQuad⟩ : ∃ y, y = min (dayOfQuad / 365) 3 := ⟨_, rfl⟩
  have hsplit : dayOfEra = century * 36524 + quad * 1461 + dayOfQuad := by omega
  have hc : 0 ≤ century ∧ century ≤ 3 := by omega
  have hq : 0 ≤ quad ∧ quad ≤ 24 := by omega
  have hy : 0 ≤ yearOfQuad ∧ yearOfQuad ≤ 3 := by omega
  have hd : 0 ≤ dayOfQuad - yearOfQuad * 365 ∧ dayOfQuad - yearOfQuad * 365 ≤ 365 := by omega
  refine ⟨century * 100 + quad * 4 + yearOfQuad, dayOfQuad - yearOfQuad * 365, ?_, ?_⟩
  · unfold yearOfEra
    simp only [← hcentury, ← hquad, ← hdayOfQuad, ← hyearOfQuad]
  · have hfour : (century * 100 + quad * 4 + yearOfQuad) / 4 = century * 25 + quad := by omega
    have hhundred : (century * 100 + quad * 4 + yearOfQuad) / 100 = century := by omega
    rw [hfour, hhundred]
    omega

theorem daysOfCivil_civilOfDays (days : Int) :
    ∃ year month day, civilOfDays days = (year, month, day) ∧
      daysOfCivil year month day = days ∧ 1 ≤ month ∧ month ≤ 12 ∧ 1 ≤ day ∧ day ≤ 31 ∧
      (days + 719468) / 146097 * 400 ≤ year ∧ year ≤ (days + 719468) / 146097 * 400 + 400 := by
  obtain ⟨era, hera⟩ : ∃ e, e = (days + 719468) / 146097 := ⟨_, rfl⟩
  obtain ⟨dayOfEra, hdayOfEra⟩ : ∃ d, d = (days + 719468) % 146097 := ⟨_, rfl⟩
  obtain ⟨year, dayOfYear, hsplit, hyear, hyear', hday, hday', hsum⟩ :=
    @yearOfEra_spec dayOfEra (by omega) (by omega)
  have hmonth : 0 ≤ (5 * dayOfYear + 2) / 153 ∧ (5 * dayOfYear + 2) / 153 ≤ 11 := by omega
  unfold civilOfDays
  simp only [← hera, ← hdayOfEra, hsplit]
  by_cases hspring : (5 * dayOfYear + 2) / 153 < 10
  · refine ⟨_, _, _, if_pos hspring, ?_, by omega, by omega, by omega, by omega, by omega,
      by omega⟩
    unfold daysOfCivil
    rw [if_neg (by omega), if_neg (by omega)]
    have hq : (era * 400 + year) / 400 = era := by omega
    have hr : (era * 400 + year) % 400 = year := by omega
    simp only [hq, hr]
    omega
  · refine ⟨_, _, _, if_neg hspring, ?_, by omega, by omega, by omega, by omega, by omega,
      by omega⟩
    unfold daysOfCivil
    rw [if_pos (by omega), if_pos (by omega)]
    have hq : (era * 400 + year + 1 - 1) / 400 = era := by omega
    have hr : (era * 400 + year + 1 - 1) % 400 = year := by omega
    simp only [hq, hr]
    omega

def digits : Nat → Nat → List Char
  | 0, _ => []
  | k + 1, n => digits k (n / 10) ++ [Nat.digitChar (n % 10)]

def number (l : List Char) : Option Nat :=
  if l.all Char.isDigit then some (l.foldl (fun n c => 10 * n + (c.toNat - 48)) 0) else none

def field (k : Nat) (separator : Char) (l : List Char) : Option (Nat × List Char) :=
  match l.drop k with
  | [] => none
  | c :: rest => if c = separator then (number (l.take k)).map (·, rest) else none

@[simp] theorem length_digits (k n : Nat) : (digits k n).length = k := by
  induction k generalizing n with
  | zero => rfl
  | succ k ih => rw [digits, length_append, ih, length_singleton]

theorem digitChar_spec {n : Nat} (h : n < 10) :
    (Nat.digitChar n).isDigit = true ∧ (Nat.digitChar n).toNat - 48 = n := by
  interval_cases n <;> exact ⟨rfl, rfl⟩

theorem number_digits {k n : Nat} (h : n < 10 ^ k) : number (digits k n) = some n := by
  have hread : ∀ k n, (digits k n).all Char.isDigit = true ∧
      (n < 10 ^ k → (digits k n).foldl (fun n c => 10 * n + (c.toNat - 48)) 0 = n) := by
    intro k
    induction k with
    | zero => exact fun n => ⟨rfl, fun h => by rw [digits, foldl_nil]; omega⟩
    | succ k ih =>
      intro n
      obtain ⟨hdigit, hvalue⟩ := digitChar_spec (Nat.mod_lt n (by decide : 10 > 0))
      constructor
      · rw [digits, all_append, (ih _).1, all_cons, hdigit]
        rfl
      · intro h
        have hshort : n / 10 < 10 ^ k := by
          rw [pow_succ] at h
          omega
        rw [digits, foldl_append, (ih _).2 hshort, foldl_cons, foldl_nil, hvalue]
        omega
  rw [number, if_pos (hread k n).1, (hread k n).2 h]

theorem field_digits {k n : Nat} (h : n < 10 ^ k) (separator : Char) (rest : List Char) :
    field k separator (digits k n ++ separator :: rest) = some (n, rest) := by
  unfold field
  rw [drop_left' (length_digits k n), take_left' (length_digits k n)]
  simp only
  rw [if_pos trivial, number_digits h]
  rfl

abbrev Time := { t : Int // -8640000000000000 ≤ t ∧ t ≤ 8640000000000000 }

def yearText (year : Int) : List Char :=
  if 0 ≤ year ∧ year ≤ 9999 then digits 4 year.toNat
  else (if year < 0 then '-' else '+') :: digits 6 year.natAbs

def toISOString (t : Time) : String :=
  let (year, month, day) := civilOfDays (t.val / 86400000)
  let ms := (t.val % 86400000).toNat
  String.ofList (yearText year ++ '-' :: (digits 2 month.toNat ++ '-' ::
    (digits 2 day.toNat ++ 'T' :: (digits 2 (ms / 3600000) ++ ':' ::
    (digits 2 (ms / 60000 % 60) ++ ':' :: (digits 2 (ms / 1000 % 60) ++ '.' ::
    (digits 3 (ms % 1000) ++ ['Z'])))))))

def readYear (l : List Char) : Option (Int × List Char) :=
  match l with
  | '-' :: rest => (field 6 '-' rest).map fun read => (-read.1, read.2)
  | '+' :: rest => (field 6 '-' rest).map fun read => ((read.1 : Int), read.2)
  | _ => (field 4 '-' l).map fun read => ((read.1 : Int), read.2)

def readIso (text : String) : Option Int := do
  let (year, l) ← readYear text.toList
  let (month, l) ← field 2 '-' l
  let (day, l) ← field 2 'T' l
  let (hour, l) ← field 2 ':' l
  let (minute, l) ← field 2 ':' l
  let (second, l) ← field 2 '.' l
  let (ms, l) ← field 3 'Z' l
  if l = [] then
    some (daysOfCivil year month day * 86400000 + hour * 3600000 + minute * 60000 +
      second * 1000 + ms)
  else none

/-- `new Date(text)`: a text `toISOString` writes, or any other as the host reads it. -/
def parse (fallback : String → Option Time) (text : String) : Option Time :=
  match readIso text with
  | none => fallback text
  | some t =>
    if h : -8640000000000000 ≤ t ∧ t ≤ 8640000000000000 then
      if toISOString ⟨t, h⟩ = text then some ⟨t, h⟩ else fallback text
    else fallback text

theorem readYear_yearText {year : Int} (hlow : -1000000 < year) (hhigh : year < 1000000)
    (rest : List Char) : readYear (yearText year ++ '-' :: rest) = some (year, rest) := by
  unfold yearText
  split
  · next hplain =>
    -- four digits: the text begins with no sign
    have hread : field 4 '-' (digits 4 year.toNat ++ '-' :: rest) = some (year.toNat, rest) :=
      field_digits (by omega) '-' rest
    have hback : ((year.toNat : Nat) : Int) = year := Int.toNat_of_nonneg hplain.1
    have hfirst : ∀ c l, digits 4 year.toNat ++ '-' :: rest = c :: l → c.isDigit = true := by
      intro c l heq
      have hc : c = Nat.digitChar (year.toNat / 10 / 10 / 10 % 10) := (List.cons.inj heq).1.symm
      rw [hc]
      exact (digitChar_spec (Nat.mod_lt _ (by decide))).1
    unfold readYear
    split
    · next l heq => exact absurd (hfirst _ _ heq) (by decide)
    · next l heq => exact absurd (hfirst _ _ heq) (by decide)
    · rw [hread, Option.map_some, hback]
  · next hsigned =>
    have hread : field 6 '-' (digits 6 year.natAbs ++ '-' :: rest) = some (year.natAbs, rest) :=
      field_digits (by omega) '-' rest
    by_cases hneg : year < 0
    · have hback : -((year.natAbs : Nat) : Int) = year := by omega
      rw [if_pos hneg, cons_append]
      show (field 6 '-' (digits 6 year.natAbs ++ '-' :: rest)).map _ = _
      rw [hread, Option.map_some, hback]
    · have hback : ((year.natAbs : Nat) : Int) = year := by omega
      rw [if_neg hneg, cons_append]
      show (field 6 '-' (digits 6 year.natAbs ++ '-' :: rest)).map _ = _
      rw [hread, Option.map_some, hback]

theorem readIso_toISOString (t : Time) : readIso (toISOString t) = some t.val := by
  obtain ⟨t, hlow, hhigh⟩ := t
  obtain ⟨days, hdays⟩ : ∃ d, d = t / 86400000 := ⟨_, rfl⟩
  obtain ⟨ms, hms⟩ : ∃ m, m = (t % 86400000).toNat := ⟨_, rfl⟩
  have ht : t = days * 86400000 + ms := by omega
  have hshort : ms < 86400000 := by omega
  obtain ⟨year, month, day, hcivil, hback, hm, hm', hd, hd', hy, hy'⟩ :=
    daysOfCivil_civilOfDays days
  have hmonth : ((month.toNat : Nat) : Int) = month := Int.toNat_of_nonneg (by omega)
  have hday : ((day.toNat : Nat) : Int) = day := Int.toNat_of_nonneg (by omega)
  unfold readIso toISOString
  simp only [← hdays, ← hms, hcivil, String.toList_ofList]
  -- every field is read back as it was written, since its digits hold it
  rw [readYear_yearText (by omega) (by omega)]
  simp (disch := omega) only [Option.bind_eq_bind, Option.bind_some, field_digits]
  rw [if_pos trivial, hmonth, hday, hback]
  congr 1
  omega

theorem parse_toISOString (fallback : String → Option Time) (t : Time) :
    parse fallback (toISOString t) = some t := by
  unfold parse
  rw [readIso_toISOString]
  simp only
  rw [dif_pos t.property]
  exact if_pos trivial

end General.IsoDate
