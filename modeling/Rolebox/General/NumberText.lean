import Mathlib.Data.List.DropRight
import Mathlib.Tactic.IntervalCases
import Rolebox.General.Double

/-! The shortest decimal text of a double, and the reading of a number in a JSON text. -/

namespace General
open List Option

/-- The multiple of `10 ^ cut` next to a magnitude that reads back to its place. -/
def roundsTo (place exact cut : Nat) : Option Nat :=
  let low := exact / 10 ^ cut
  let rest := exact % 10 ^ cut
  let candidates :=
    if 2 * rest < 10 ^ cut ∨ 2 * rest = 10 ^ cut ∧ low % 2 = 0 then [low, low + 1]
    else [low + 1, low]
  candidates.find? fun s => nearest ((s * 10 ^ cut : Nat) / 10 ^ 1074) = place

/-- The first cut of an expansion of `total` digits, the deepest one first, that reads back. -/
def shortestOf (place exact total : Nat) : Nat × Nat :=
  ((range total).findSome? fun i =>
    (roundsTo place exact (total - 1 - i)).map (·, total - 1 - i)).getD (exact, 0)

/-- The fewest digits that read back to a magnitude, and the zeros behind them. -/
def shortest (place : Nat) : Nat × Nat :=
  shortestOf place (magnitude place * 5 ^ 1074) (Nat.toDigits 10 (magnitude place * 5 ^ 1074)).length

theorem nearest_exact (place : Nat) :
    nearest ((magnitude place * 5 ^ 1074 * 10 ^ 0 : Nat) / 10 ^ 1074) = place := by
  have hten : (10 : ℚ) ^ 1074 = 2 ^ 1074 * 5 ^ 1074 := by rw [← mul_pow]; norm_num only
  have hvalue : ((magnitude place * 5 ^ 1074 * 10 ^ 0 : Nat) / 10 ^ 1074 : ℚ) =
      magnitude place / 2 ^ 1074 := by
    rw [pow_zero, Nat.mul_one, Nat.cast_mul, Nat.cast_pow, Nat.cast_ofNat, hten]
    exact mul_div_mul_right _ _ (pow_ne_zero _ (by norm_num only))
  rw [hvalue]
  exact nearest_magnitude place

theorem nearest_roundsTo {place exact cut s : Nat} (h : roundsTo place exact cut = some s) :
    nearest ((s * 10 ^ cut : Nat) / 10 ^ 1074) = place := by
  unfold roundsTo at h
  have hreads := find?_some h
  rwa [decide_eq_true_eq] at hreads

theorem nearest_shortestOf {place exact : Nat} (total : Nat)
    (h : nearest ((exact * 10 ^ 0 : Nat) / 10 ^ 1074) = place) :
    nearest (((shortestOf place exact total).1 * 10 ^ (shortestOf place exact total).2 : Nat) /
      10 ^ 1074) = place := by
  unfold shortestOf
  cases hfound : (range total).findSome? fun i =>
      (roundsTo place exact (total - 1 - i)).map (·, total - 1 - i) with
  | none => exact h
  | some found =>
    obtain ⟨i, -, hi⟩ := exists_of_findSome?_eq_some hfound
    obtain ⟨s, hs, rfl⟩ := map_eq_some_iff.1 hi
    exact nearest_roundsTo hs

theorem nearest_shortest (place : Nat) :
    nearest (((shortest place).1 * 10 ^ (shortest place).2 : Nat) / 10 ^ 1074) = place :=
  nearest_shortestOf _ (nearest_exact place)

/-- The number digits write before `e` zeros, or with the point that many places inside. -/
def decimal (digits : List Char) (e : Int) : ℚ := (Nat.ofDigitChars 10 digits 0 : ℚ) * 10 ^ e

def fractionText (fraction : List Char) : List Char :=
  if fraction = [] then [] else '.' :: fraction

def exponentText : Option Int → List Char
  | none => []
  | some e => 'e' :: (if e < 0 then '-' else '+') :: Nat.toDigits 10 e.natAbs

/-- The text of the number `0.digits * 10 ^ n`, as ECMAScript writes a number. -/
def decimalText (digits : List Char) (n : Int) : List Char :=
  if digits.length ≤ n ∧ n ≤ 21 then
    digits ++ replicate (n.toNat - digits.length) '0'
  else if 0 < n ∧ n ≤ 21 then digits.take n.toNat ++ fractionText (digits.drop n.toNat)
  else if -6 < n ∧ n ≤ 0 then
    '0' :: fractionText (replicate (-n).toNat '0' ++ digits)
  else digits.take 1 ++ (fractionText (digits.drop 1) ++ exponentText (some (n - 1)))

/-- `JSON.stringify` of a finite number: no sign is written on a zero. -/
def Double.numberText (x : Double) : List Char :=
  if x.place = 0 then ['0']
  else
    let digits := Nat.toDigits 10 (shortest x.place).1
    (if x.negative then ['-'] else []) ++
      decimalText (digits.rdropWhile (· = '0')) (digits.length + (shortest x.place).2 - 1074)

def readDigits (l : List Char) : Option (List Char × List Char) :=
  if l.takeWhile Char.isDigit = [] then none
  else some (l.takeWhile Char.isDigit, l.dropWhile Char.isDigit)

def readFraction : List Char → Option (List Char × List Char)
  | '.' :: l => readDigits l
  | l => some ([], l)

def readExponent (l : List Char) : Option (Int × List Char) :=
  match l with
  | [] => some (0, [])
  | c :: rest =>
    if c = 'e' ∨ c = 'E' then
      match rest with
      | '-' :: rest => (readDigits rest).map fun read => (-(Nat.ofDigitChars 10 read.1 0 : Int), read.2)
      | '+' :: rest => (readDigits rest).map fun read => ((Nat.ofDigitChars 10 read.1 0 : Int), read.2)
      | rest => (readDigits rest).map fun read => ((Nat.ofDigitChars 10 read.1 0 : Int), read.2)
    else some (0, c :: rest)

def readMagnitude (l : List Char) : Option (ℚ × List Char) := do
  let (whole, l) ← readDigits l
  if whole.head? = some '0' ∧ 1 < whole.length then none
  let (fraction, l) ← readFraction l
  let (exponent, l) ← readExponent l
  return (decimal (whole ++ fraction) (exponent - fraction.length), l)

def readNumber : List Char → Option ((Bool × ℚ) × List Char)
  | '-' :: l => (readMagnitude l).map fun read => ((true, read.1), read.2)
  | l => (readMagnitude l).map fun read => ((false, read.1), read.2)

def Digits (l : List Char) : Prop := ∀ c ∈ l, c.isDigit = true

def Ends (rest : List Char) : Prop :=
  ∀ c ∈ rest.head?, c.isDigit = false ∧ c ≠ '.' ∧ c ≠ 'e' ∧ c ≠ 'E'

theorem Digits.append {l l' : List Char} (h : Digits l) (h' : Digits l') : Digits (l ++ l') := by
  intro c hc
  rcases mem_append.1 hc with hc | hc
  · exact h c hc
  · exact h' c hc

theorem digits_zeros (n : Nat) : Digits (replicate n '0') := by
  intro c hc
  rw [eq_of_mem_replicate hc]
  rfl

theorem digits_toDigits (n : Nat) : Digits (Nat.toDigits 10 n) := fun _ hc =>
  Nat.isDigit_of_mem_toDigits (by decide) (by decide) hc

theorem readDigits_append {digits rest : List Char} (hdigits : Digits digits) (hne : digits ≠ [])
    (hrest : ∀ c ∈ rest.head?, c.isDigit = false) :
    readDigits (digits ++ rest) = some (digits, rest) := by
  have hstop : rest.takeWhile Char.isDigit = [] ∧ rest.dropWhile Char.isDigit = rest := by
    cases rest with
    | nil => exact ⟨rfl, rfl⟩
    | cons c rest =>
      have hc := hrest c rfl
      rw [takeWhile_cons_of_neg (by simp [hc]), dropWhile_cons_of_neg (by simp [hc])]
      exact ⟨rfl, rfl⟩
  rw [readDigits, takeWhile_append_of_pos hdigits, dropWhile_append_of_pos hdigits,
    hstop.1, hstop.2, append_nil, if_neg hne]

theorem readFraction_text {fraction rest : List Char} (hfraction : Digits fraction)
    (hrest : ∀ c ∈ rest.head?, c.isDigit = false ∧ c ≠ '.') :
    readFraction (fractionText fraction ++ rest) = some (fraction, rest) := by
  unfold fractionText
  split
  · next hnil =>
    rw [hnil, nil_append, readFraction.eq_def]
    split
    · exact absurd rfl (hrest '.' rfl).2
    · rfl
  · next hne => exact readDigits_append hfraction hne fun c hc => (hrest c hc).1

theorem readExponent_text (e : Option Int) {rest : List Char} (hrest : Ends rest) :
    readExponent (exponentText e ++ rest) = some (e.getD 0, rest) := by
  cases e with
  | none =>
    cases rest with
    | nil => rfl
    | cons c rest =>
      obtain ⟨-, -, hlower, hupper⟩ := hrest c rfl
      have hneither : ¬ (c = 'e' ∨ c = 'E') := by rintro (rfl | rfl) <;> contradiction
      exact if_neg hneither
  | some e =>
    have hread := readDigits_append (digits_toDigits e.natAbs) Nat.toDigits_ne_nil
      fun c hc => (hrest c hc).1
    have hvalue := @Nat.ofDigitChars_ten_toDigits e.natAbs
    by_cases hneg : e < 0
    · simp only [exponentText, if_pos hneg, cons_append, readExponent, true_or, if_true, hread,
        map_some, hvalue, getD_some]
      rw [show (-(e.natAbs : Int)) = e by omega]
    · simp only [exponentText, if_neg hneg, cons_append, readExponent, true_or, if_true, hread,
        map_some, hvalue, getD_some]
      rw [show (e.natAbs : Int) = e by omega]

theorem readMagnitude_parts {whole fraction rest : List Char} (e : Option Int)
    (hwhole : Digits whole) (hne : whole ≠ []) (hlead : whole.head? = some '0' → whole.length ≤ 1)
    (hfraction : Digits fraction) (hrest : Ends rest) :
    readMagnitude (whole ++ (fractionText fraction ++ (exponentText e ++ rest))) =
      some (decimal (whole ++ fraction) (e.getD 0 - fraction.length), rest) := by
  have hexponent : ∀ c ∈ (exponentText e ++ rest).head?, c.isDigit = false ∧ c ≠ '.' := by
    intro c hc
    cases e with
    | none => exact ⟨(hrest c hc).1, (hrest c hc).2.1⟩
    | some e =>
      obtain rfl : 'e' = c := Option.some.inj hc
      decide
  have hpoint : ∀ c ∈ (fractionText fraction ++ (exponentText e ++ rest)).head?,
      c.isDigit = false := by
    intro c hc
    unfold fractionText at hc
    split at hc
    · exact (hexponent c hc).1
    · obtain rfl : '.' = c := Option.some.inj hc
      decide
  have hzero : ¬ (whole.head? = some '0' ∧ 1 < whole.length) := fun h =>
    absurd (hlead h.1) (not_le.2 h.2)
  simp only [readMagnitude, readDigits_append hwhole hne hpoint, readFraction_text hfraction hexponent,
    readExponent_text e hrest, bind_eq_bind, bind_some, if_neg hzero, Option.pure_def]

structure Leading (l : List Char) : Prop where
  digits : Digits l
  ne_nil : l ≠ []
  head : l.head? ≠ some '0'

theorem decimal_zeros (digits : List Char) (n : Nat) (e : Int) :
    decimal (digits ++ replicate n '0') e = decimal digits (e + n) := by
  rw [decimal, decimal, Nat.ofDigitChars_append, Nat.ofDigitChars_replicate_zero, Nat.cast_mul,
    Nat.cast_pow, Nat.cast_ofNat, zpow_add₀ (by norm_num), zpow_natCast]
  ring

theorem decimal_zeros_append (digits : List Char) (n : Nat) (e : Int) :
    decimal (replicate n '0' ++ digits) e = decimal digits e := by
  rw [decimal, decimal, Nat.ofDigitChars_append, Nat.ofDigitChars_replicate_zero, Nat.mul_zero]

theorem readMagnitude_decimalText {digits rest : List Char} (h : Leading digits) (n : Int)
    (hrest : Ends rest) :
    readMagnitude (decimalText digits n ++ rest) =
      some (decimal digits (n - digits.length), rest) := by
  have hlength : 0 < digits.length := length_pos_iff.2 h.ne_nil
  have htake : ∀ k, 0 < k → digits.take k ≠ [] ∧ (digits.take k).head? ≠ some '0' := by
    intro k hk
    rw [head?_take, if_neg hk.ne']
    exact ⟨fun hnil => h.ne_nil ((take_eq_nil_iff.1 hnil).resolve_left hk.ne'), h.head⟩
  unfold decimalText
  split
  · next hwhole =>
    -- the digits, and zeros up to the point
    have hhead : (digits ++ replicate (n.toNat - digits.length) '0').head? ≠ some '0' := by
      rw [head?_append_of_ne_nil _ h.ne_nil]
      exact h.head
    have hparts := @readMagnitude_parts _ [] rest none
      (h.digits.append (digits_zeros (n.toNat - digits.length)))
      (append_ne_nil_of_left_ne_nil h.ne_nil _) (fun hzero => absurd hzero hhead)
      (nofun) hrest
    rw [show fractionText [] = [] from rfl, exponentText, nil_append, nil_append] at hparts
    rw [hparts, append_nil, decimal_zeros, getD_none, length_nil]
    congr 3
    omega
  · split
    · next hpoint =>
      -- the point stands among the digits
      have hcount : 0 < n.toNat := by omega
      have hparts := @readMagnitude_parts (digits.take n.toNat) (digits.drop n.toNat) rest none
        (fun c hc => h.digits c (mem_of_mem_take hc)) (htake _ hcount).1
        (fun hzero => absurd hzero (htake _ hcount).2)
        (fun c hc => h.digits c (mem_of_mem_drop hc)) hrest
      rw [exponentText, nil_append, take_append_drop] at hparts
      rw [append_assoc, hparts, getD_none, length_drop]
      congr 3
      omega
    · split
      · next hsmall =>
        -- zeros between the point and the digits
        have hparts := @readMagnitude_parts ['0'] (replicate (-n).toNat '0' ++ digits) rest none
          (digits_zeros 1) (cons_ne_nil _ _) (fun _ => le_rfl)
          ((digits_zeros _).append h.digits) hrest
        rw [exponentText, nil_append, singleton_append, singleton_append] at hparts
        rw [cons_append, hparts, ← singleton_append, ← append_assoc,
          show ['0'] ++ replicate (-n).toNat '0' = replicate ((-n).toNat + 1) '0' from
            replicate_succ.symm, decimal_zeros_append, getD_none, length_append,
          length_replicate]
        congr 3
        omega
      · -- one digit before the point, and an exponent
        have hparts := @readMagnitude_parts (digits.take 1) (digits.drop 1) rest (some (n - 1))
          (fun c hc => h.digits c (mem_of_mem_take hc)) (htake _ Nat.one_pos).1
          (fun hzero => absurd hzero (htake _ Nat.one_pos).2)
          (fun c hc => h.digits c (mem_of_mem_drop hc)) hrest
        rw [take_append_drop] at hparts
        rw [append_assoc, append_assoc, hparts, getD_some, length_drop]
        congr 3
        omega

theorem toDigits_head {s : Nat} (hs : 0 < s) : (Nat.toDigits 10 s).head? ≠ some '0' := by
  induction s using Nat.strong_induction_on with
  | _ s ih =>
    by_cases hsmall : s < 10
    · rw [Nat.toDigits_of_lt_base hsmall, head?_cons]
      interval_cases s <;> decide
    · rw [Nat.toDigits_of_base_le (by decide) (not_lt.1 hsmall),
        head?_append_of_ne_nil _ Nat.toDigits_ne_nil]
      exact ih (s / 10) (Nat.div_lt_self hs (by decide)) (by omega)

theorem toDigits_split {s : Nat} (hs : 0 < s) :
    ∃ digits zeros, (Nat.toDigits 10 s).rdropWhile (· = '0') = digits ∧
      Nat.toDigits 10 s = digits ++ replicate zeros '0' ∧ Leading digits := by
  have hsplit := @rdropWhile_append_rtakeWhile _ (fun c : Char => decide (c = '0'))
    (Nat.toDigits 10 s)
  obtain ⟨digits, hdigits⟩ : ∃ digits, (Nat.toDigits 10 s).rdropWhile (· = '0') = digits := ⟨_, rfl⟩
  rw [hdigits] at hsplit
  have hzeros : ∀ c ∈ (Nat.toDigits 10 s).rtakeWhile (fun c => decide (c = '0')), c = '0' :=
    fun c hc => by simpa using mem_rtakeWhile_imp hc
  rw [eq_replicate_of_mem hzeros] at hsplit
  refine ⟨digits, _, hdigits, hsplit.symm, ?_, ?_, ?_⟩
  · intro c hc
    apply digits_toDigits s c
    rw [← hsplit]
    exact mem_append_left _ hc
  · rintro rfl
    have hvalue := @Nat.ofDigitChars_ten_toDigits s
    rw [← hsplit, nil_append, Nat.ofDigitChars_replicate_zero] at hvalue
    omega
  · intro hhead
    apply toDigits_head hs
    rw [← hsplit, head?_append, hhead]
    rfl

theorem decimalText_head {digits : List Char} (h : Leading digits) (n : Int) :
    ∃ c l, decimalText digits n = c :: l ∧ c.isDigit = true := by
  obtain ⟨c, l, rfl⟩ := exists_cons_of_ne_nil h.ne_nil
  have hc : c.isDigit = true := h.digits c (.head _)
  unfold decimalText
  split
  · exact ⟨c, _, rfl, hc⟩
  split
  · next hpoint =>
    obtain ⟨k, hk⟩ : ∃ k, n.toNat = k + 1 := ⟨n.toNat - 1, by omega⟩
    rw [hk]
    exact ⟨c, _, rfl, hc⟩
  · split
    · exact ⟨'0', _, rfl, rfl⟩
    · exact ⟨c, _, rfl, hc⟩

theorem decimal_toDigits (s cut places : Nat) :
    decimal (Nat.toDigits 10 s) (cut - places) = (s * 10 ^ cut : Nat) / 10 ^ places := by
  rw [decimal, Nat.ofDigitChars_ten_toDigits, zpow_sub₀ (by norm_num only), zpow_natCast,
    zpow_natCast, Nat.cast_mul, Nat.cast_pow, Nat.cast_ofNat, mul_div_assoc]

theorem decimal_stripped {s : Nat} (hs : 0 < s) (cut places : Nat) :
    ∃ digits, Leading digits ∧ (Nat.toDigits 10 s).rdropWhile (· = '0') = digits ∧
      decimal digits ((Nat.toDigits 10 s).length + cut - places - digits.length) =
        (s * 10 ^ cut : Nat) / 10 ^ places := by
  obtain ⟨digits, zeros, hstrip, hsplit, hleading⟩ := toDigits_split hs
  have hexponent : ((Nat.toDigits 10 s).length : Int) + cut - places - digits.length =
      cut - places + zeros := by
    rw [hsplit, length_append, length_replicate]
    omega
  refine ⟨digits, hleading, hstrip, ?_⟩
  rw [hexponent, ← decimal_zeros, ← hsplit]
  exact decimal_toDigits s cut places

theorem nearest_digits {place : Nat} (hplace : place ≠ 0) :
    ∃ digits, Leading digits ∧ (Nat.toDigits 10 (shortest place).1).rdropWhile (· = '0') = digits ∧
      nearest (decimal digits ((Nat.toDigits 10 (shortest place).1).length + (shortest place).2 - 1074 -
        digits.length)) = place := by
  have hnearest := nearest_shortest place
  have hs : 0 < (shortest place).1 := by
    rcases Nat.eq_zero_or_pos (shortest place).1 with hzero | hs
    · rw [hzero, Nat.zero_mul, Nat.cast_zero, zero_div, nearest_zero] at hnearest
      exact absurd hnearest.symm hplace
    · exact hs
  obtain ⟨digits, hleading, hstrip, hvalue⟩ := decimal_stripped hs (shortest place).2 1074
  rw [Nat.cast_ofNat] at hvalue
  refine ⟨digits, hleading, hstrip, ?_⟩
  rw [hvalue]
  exact hnearest

theorem numberText_head (x : Double) :
    ∃ c l, x.numberText = c :: l ∧ (c = '-' ∨ c.isDigit = true) := by
  unfold Double.numberText
  split
  · exact ⟨'0', _, rfl, .inr rfl⟩
  next hplace =>
  obtain ⟨digits, hleading, hstrip, -⟩ := nearest_digits hplace
  dsimp only
  rw [hstrip]
  obtain ⟨c, l, htext, hc⟩ := decimalText_head hleading
    ((Nat.toDigits 10 (shortest x.place).1).length + (shortest x.place).2 - 1074)
  rw [htext]
  cases x.negative with
  | true => exact ⟨'-', _, rfl, .inl rfl⟩
  | false => exact ⟨c, l, rfl, .inr hc⟩

theorem readNumber_digit {c : Char} {l : List Char} (hc : c.isDigit = true) :
    readNumber (c :: l) = (readMagnitude (c :: l)).map fun read => ((false, read.1), read.2) := by
  rw [readNumber.eq_def]
  split
  · next h =>
    obtain rfl : c = '-' := (List.cons.inj h).1
    exact absurd hc (by decide)
  · rfl

theorem readNumber_numberText (x : Double) {rest : List Char} (hrest : Ends rest) :
    ∃ q, readNumber (x.numberText ++ rest) = some ((x.positiveZero.negative, q), rest) ∧
      nearest q = x.place := by
  unfold Double.numberText Double.positiveZero
  split
  · next hplace =>
    have hparts := @readMagnitude_parts ['0'] [] rest none (digits_zeros 1) (cons_ne_nil _ _)
      (fun _ => le_rfl) (fun _ hc => by cases hc) hrest
    have hread : readMagnitude ('0' :: rest) = some (decimal ['0'] 0, rest) := hparts
    refine ⟨decimal ['0'] 0, ?_, ?_⟩
    · rw [singleton_append, readNumber_digit rfl, hread]
      rfl
    · rw [hplace, decimal, show Nat.ofDigitChars 10 ['0'] 0 = 0 from rfl, Nat.cast_zero, zero_mul]
      exact nearest_zero
  · next hplace =>
    obtain ⟨digits, hleading, hstrip, hnearest⟩ := nearest_digits hplace
    have hread := readMagnitude_decimalText hleading
      ((Nat.toDigits 10 (shortest x.place).1).length + (shortest x.place).2 - 1074) hrest
    obtain ⟨c, l, htext, hc⟩ := decimalText_head hleading
      ((Nat.toDigits 10 (shortest x.place).1).length + (shortest x.place).2 - 1074)
    refine ⟨_, ?_, hnearest⟩
    dsimp only
    rw [hstrip]
    cases x.negative with
    | true =>
      rw [if_pos rfl, append_assoc, singleton_append, readNumber, hread]
      rfl
    | false =>
      rw [htext] at hread ⊢
      rw [if_neg Bool.false_ne_true, nil_append, cons_append, readNumber_digit hc]
      rw [cons_append] at hread
      rw [hread]
      rfl
end General
