import Mathlib.Data.Fin.VecNotation
import Mathlib.Data.List.Chain
import Mathlib.Data.List.MinMax
import Mathlib.Data.List.OfFn
import Mathlib.Data.List.TakeWhile

/-! The hosts of URLs and their canonical texts, and numbers in a base up to sixteen. -/

namespace General
open List

section Digits

def digitValue (c : Char) : Nat :=
  if c.toNat < 58 then c.toNat - 48
  else if c.toNat < 71 then c.toNat - 55
  else c.toNat - 87

def isDigitOf (base : Nat) (c : Char) : Bool :=
  (48 ≤ c.toNat ∧ c.toNat < 58 ∨ 65 ≤ c.toNat ∧ c.toNat < 71 ∨ 97 ≤ c.toNat ∧ c.toNat < 103) ∧
    digitValue c < base

def digitsNumber (base : Nat) (digits : List Char) : Nat :=
  digits.foldl (fun n c => base * n + digitValue c) 0

variable {base : Nat}

theorem digitChar_digit {d : Nat} (hbase : base ≤ 16) (hd : d < base) :
    isDigitOf base (Nat.digitChar d) = true ∧ digitValue (Nat.digitChar d) = d := by
  have hall : ∀ d < 16, digitValue (Nat.digitChar d) = d ∧
      isDigitOf 16 (Nat.digitChar d) = true := by decide
  obtain ⟨hvalue, hdigit⟩ := hall d (by omega)
  refine ⟨?_, hvalue⟩
  simp only [isDigitOf, Bool.decide_and, Bool.and_eq_true, decide_eq_true_eq] at hdigit ⊢
  exact ⟨hdigit.1, by omega⟩

theorem digitsNumber_toDigits (hlow : 2 ≤ base) (hbase : base ≤ 16) (n : Nat) :
    (∀ c ∈ Nat.toDigits base n, isDigitOf base c = true) ∧
      digitsNumber base (Nat.toDigits base n) = n := by
  induction n using Nat.strong_induction_on with
  | _ n ih =>
    rw [Nat.toDigits_eq_if (by omega)]
    split
    · next hsmall =>
      obtain ⟨hdigit, hvalue⟩ := digitChar_digit hbase hsmall
      refine ⟨fun c hc => ?_, ?_⟩
      · rwa [mem_singleton.1 hc]
      · show base * 0 + digitValue (Nat.digitChar n) = n
        rw [hvalue]
        omega
    · next hlarge =>
      have hless : n / base < n := Nat.div_lt_self (by omega) hlow
      obtain ⟨hdigits, hnumber⟩ := ih (n / base) hless
      obtain ⟨hdigit, hvalue⟩ := digitChar_digit hbase (Nat.mod_lt n (show 0 < base by omega))
      refine ⟨fun c hc => ?_, ?_⟩
      · rcases mem_append.1 hc with hfront | hlast
        · exact hdigits c hfront
        · rwa [mem_singleton.1 hlast]
      · have hfold : digitsNumber base (Nat.toDigits base (n / base) ++ [Nat.digitChar (n % base)])
            = base * digitsNumber base (Nat.toDigits base (n / base))
              + digitValue (Nat.digitChar (n % base)) := by
          simp [digitsNumber, foldl_append]
        rw [hfold, hnumber, hvalue]
        exact Nat.div_add_mod n base

end Digits

section Doubled
variable {α : Type*} {sep : α} {l rest : List α} {groups : List (List α)}

def splitDouble [DecidableEq α] (sep : α) : List α → List (List α)
  | [] => [[]]
  | [a] => [[a]]
  | a :: b :: l =>
    if a = sep ∧ b = sep then [] :: splitDouble sep l
    else (splitDouble sep (b :: l)).modifyHead (a :: ·)

def Single (sep : α) (l : List α) : Prop := l.IsChain fun a b => ¬ (a = sep ∧ b = sep)

theorem Single.no_pair (h : Single sep l) : ¬ [sep, sep] <:+: l := by
  intro hinfix
  have hpair := h.infix hinfix
  rw [isChain_pair] at hpair
  exact hpair ⟨rfl, rfl⟩

theorem single_of_not_mem (h : sep ∉ l) : Single sep l := by
  induction l with
  | nil => exact .nil
  | cons a l ih =>
    have ha : a ≠ sep := fun hsep => h (hsep ▸ .head _)
    have hl := ih fun hmem => h (.tail _ hmem)
    exact isChain_cons.2 ⟨fun b _ hab => ha hab.1, hl⟩

/-- Parts without separators, none of them empty, joined by separators. -/
structure Groups (sep : α) (groups : List (List α)) : Prop where
  nonempty : ∀ group ∈ groups, group ≠ []
  free : ∀ group ∈ groups, sep ∉ group

theorem Groups.tail {group : List α} (h : Groups sep (group :: groups)) : Groups sep groups :=
  ⟨fun g hg => h.nonempty g (.tail _ hg), fun g hg => h.free g (.tail _ hg)⟩

theorem Groups.join (h : Groups sep groups) :
    Single sep ([sep].intercalate groups) ∧ (∀ a ∈ ([sep].intercalate groups).head?, a ≠ sep) ∧
      ∀ a ∈ ([sep].intercalate groups).getLast?, a ≠ sep := by
  induction groups with
  | nil => exact ⟨.nil, by simp, by simp⟩
  | cons group groups ih =>
    have hne : group ≠ [] := h.nonempty group (.head _)
    have hfree : sep ∉ group := h.free group (.head _)
    have hends : ∀ a ∈ group, a ≠ sep := fun a ha hsep => hfree (hsep ▸ ha)
    cases groups with
    | nil =>
      rw [intercalate_singleton]
      exact ⟨single_of_not_mem hfree, fun a ha => hends a (mem_of_mem_head? ha),
        fun a ha => hends a (mem_of_mem_getLast? ha)⟩
    | cons next groups =>
      obtain ⟨hsingle, hhead, hlast⟩ := ih h.tail
      have hnext : ([sep].intercalate (next :: groups)) ≠ [] := by
        intro hnil
        have hsub : next <:+: [sep].intercalate (next :: groups) := by
          cases groups with
          | nil =>
            exact (intercalate_singleton ▸ infix_rfl)
          | cons g gs =>
            rw [intercalate_cons_cons]
            exact ⟨[], [sep] ++ [sep].intercalate (g :: gs), by simp⟩
        rw [hnil] at hsub
        exact h.nonempty next (by simp) (infix_nil.1 hsub)
      rw [intercalate_cons_cons, append_assoc]
      refine ⟨?_, ?_, ?_⟩
      · refine isChain_append.2 ⟨single_of_not_mem hfree, ?_, ?_⟩
        · refine isChain_cons.2 ⟨fun b hb hboth => ?_, hsingle⟩
          exact hhead b hb hboth.2
        · intro a ha b _ hboth
          exact hends a (mem_of_mem_getLast? ha) hboth.1
      · intro a ha
        rw [head?_append_of_ne_nil _ hne] at ha
        exact hends a (mem_of_mem_head? ha)
      · intro a ha
        rw [getLast?_append_of_ne_nil _ (by simp),
          getLast?_append_of_ne_nil _ hnext] at ha
        exact hlast a ha

variable [DecidableEq α]

theorem splitDouble_single (h : Single sep l) : splitDouble sep l = [l] := by
  induction l with
  | nil => rfl
  | cons a l ih =>
    cases l with
    | nil => rfl
    | cons b l =>
      obtain ⟨hab, hl⟩ := isChain_cons_cons.1 h
      unfold splitDouble
      rw [if_neg hab, ih hl]
      rfl

theorem splitDouble_append (h : Single sep l) (hlast : ∀ a ∈ l.getLast?, a ≠ sep) :
    splitDouble sep (l ++ sep :: sep :: rest) = l :: splitDouble sep rest := by
  induction l with
  | nil => simp [splitDouble]
  | cons a l ih =>
    cases l with
    | nil =>
      have ha : a ≠ sep := hlast a rfl
      simp [splitDouble, ha]
    | cons b l =>
      obtain ⟨hab, hl⟩ := isChain_cons_cons.1 h
      have hrest := ih hl fun c hc => hlast c (by rwa [getLast?_cons_cons])
      rw [cons_append, cons_append] at *
      rw [splitDouble, if_neg hab, hrest]
      rfl

end Doubled

abbrev Ipv4Address := Fin 4 → Fin 256

/-- The four numbers with dots between them. -/
def Ipv4Address.text (a : Ipv4Address) : List Char :=
  ['.'].intercalate ((List.ofFn a).map fun n => Nat.toDigits 10 n.val)

abbrev Ipv6Address := Fin 8 → Fin 65536

def Ipv6Address.pieces (a : Ipv6Address) : List Nat := List.ofFn fun i => (a i).val

def zeroRun (pieces : List Nat) (i : Nat) : Nat := ((pieces.drop i).takeWhile (· = 0)).length

/-- The first longest run of two or more zero pieces. -/
def Ipv6Address.compress (a : Ipv6Address) : Option Nat :=
  ((range 8).argmax (zeroRun a.pieces)).filter (2 ≤ zeroRun a.pieces ·)

def piecesText (pieces : List Nat) : List Char :=
  [':'].intercalate (pieces.map (Nat.toDigits 16))

/-- The pieces in shortest hexadecimal, with the run to compress left out. -/
def Ipv6Address.text (a : Ipv6Address) : List Char :=
  match a.compress with
  | none => piecesText a.pieces
  | some i =>
    piecesText (a.pieces.take i) ++ ':' :: ':' ::
      piecesText (a.pieces.drop (i + zeroRun a.pieces i))

def isDomainChar (c : Char) : Bool :=
  0x21 ≤ c.toNat ∧ c.toNat < 0x7F ∧ ¬ c.isUpper ∧ c ∉ "#%/:<>?@[\\]^|".toList

structure DomainName where
  text : List Char
  chars : ∀ c ∈ text, isDomainChar c = true

inductive Host where
  | domain (name : DomainName)
  | ipv4 (address : Ipv4Address)
  | ipv6 (address : Ipv6Address)

def Host.text : Host → List Char
  | .domain name => name.text
  | .ipv4 address => address.text
  | .ipv6 address => '[' :: address.text ++ [']']

theorem pieces_lt (a : Ipv6Address) : ∀ piece ∈ a.pieces, piece < 65536 := by
  intro piece hpiece
  obtain ⟨i, rfl⟩ := mem_ofFn.1 hpiece
  exact (a i).isLt

@[simp] theorem length_pieces (a : Ipv6Address) : a.pieces.length = 8 := length_ofFn

theorem groups_toDigits {sep : Char} {base : Nat} (hlow : 2 ≤ base) (hbase : base ≤ 16)
    (hsep : isDigitOf base sep = false) (pieces : List Nat) :
    Groups sep (pieces.map (Nat.toDigits base)) where
  nonempty group hgroup := by
    obtain ⟨piece, -, rfl⟩ := mem_map.1 hgroup
    exact Nat.toDigits_ne_nil
  free group hgroup hmem := by
    obtain ⟨piece, -, rfl⟩ := mem_map.1 hgroup
    have hdigit := (digitsNumber_toDigits hlow hbase piece).1 sep hmem
    exact absurd (hdigit.symm.trans hsep) (by decide)

theorem mem_join_digits {sep c : Char} {base : Nat} (hlow : 2 ≤ base) (hbase : base ≤ 16)
    {pieces : List Nat} (h : c ∈ [sep].intercalate (pieces.map (Nat.toDigits base))) :
    c = sep ∨ isDigitOf base c = true := by
  induction pieces with
  | nil => exact absurd h (by simp)
  | cons piece pieces ih =>
    have hpiece : c ∈ Nat.toDigits base piece → isDigitOf base c = true :=
      (digitsNumber_toDigits hlow hbase piece).1 c
    cases pieces with
    | nil =>
      refine .inr (hpiece ?_)
      simpa using h
    | cons next pieces =>
      rw [map_cons, map_cons, intercalate_cons_cons] at h
      rcases mem_append.1 h with hfront | hrest
      · rcases mem_append.1 hfront with hmem | hsep
        · exact .inr (hpiece hmem)
        · exact .inl (mem_singleton.1 hsep)
      · exact ih hrest

theorem pieces_run (pieces : List Nat) (i : Nat) :
    pieces = pieces.take i ++ replicate (zeroRun pieces i) 0 ++
      pieces.drop (i + zeroRun pieces i) := by
  have hzeros : (pieces.drop i).takeWhile (· = 0) = replicate (zeroRun pieces i) 0 :=
    eq_replicate_of_mem fun piece hpiece => by simpa using mem_takeWhile_imp hpiece
  have hrest : pieces.drop (i + zeroRun pieces i) = (pieces.drop i).dropWhile (· = 0) := by
    rw [← drop_drop]
    conv_lhs => rw [← takeWhile_append_dropWhile (p := (· = 0)) (l := pieces.drop i)]
    exact drop_left
  rw [hrest, ← hzeros, append_assoc, takeWhile_append_dropWhile, take_append_drop]

theorem two_le_zeroRun {a : Ipv6Address} {i : Nat} (h : a.compress = some i) :
    2 ≤ zeroRun a.pieces i := by
  obtain ⟨-, hrun⟩ := Option.filter_eq_some_iff.1 h
  exact of_decide_eq_true hrun

end General
