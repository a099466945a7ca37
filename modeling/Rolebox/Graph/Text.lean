import Rolebox.General.Reorder

/-! Identifiers: UTF-16 order, quoting and the NUL-joined keys of the plan readers. -/

namespace Rolebox.Graph
open General List
variable {l : List String} {α : Type}

def utf16Units (c : Char) : List Nat :=
  if c.toNat < 0x10000 then [c.toNat]
  else [0xD800 + (c.toNat - 0x10000) / 0x400, 0xDC00 + (c.toNat - 0x10000) % 0x400]

def codeUnits (s : String) : List Nat := s.toList.flatMap utf16Units

/-- `compareText a b <= 0`. -/
def textLe (a b : String) : Prop := codeUnits a ≤ codeUnits b

instance : DecidableRel textLe := fun a b => inferInstanceAs (Decidable (codeUnits a ≤ codeUnits b))

instance : Std.Total textLe := ⟨fun a b => le_total (codeUnits a) (codeUnits b)⟩

instance : IsTrans String textLe := ⟨fun _ _ _ h h' => @le_trans (List Nat) _ _ _ _ h h'⟩

theorem char_scalar (c : Char) : c.toNat < 0xD800 ∨ 0xDFFF < c.toNat ∧ c.toNat < 0x110000 := c.valid

theorem utf16Units_inj {c d : Char} {l l' : List Nat}
    (h : utf16Units c ++ l = utf16Units d ++ l') : c = d ∧ l = l' := by
  have hc := char_scalar c
  have hd := char_scalar d
  rw [← Char.toNat_inj]
  unfold utf16Units at h
  split at h <;> split at h <;>
    simp only [cons_append, nil_append, List.cons.injEq] at h
  · exact h
  · omega
  · omega
  · obtain ⟨hhigh, hlow, hrest⟩ := h
    exact ⟨by omega, hrest⟩

theorem utf16Units_ne_nil (c : Char) : utf16Units c ≠ [] := by
  unfold utf16Units
  split <;> exact cons_ne_nil _ _

theorem codeUnits_injective : Function.Injective codeUnits := by
  have hchars : ∀ l l' : List Char, l.flatMap utf16Units = l'.flatMap utf16Units → l = l' := by
    intro l
    induction l with
    | nil =>
      intro l' h
      cases l' with
      | nil => rfl
      | cons d l' => simp [utf16Units_ne_nil] at h
    | cons c l ih =>
      intro l' h
      cases l' with
      | nil => simp [utf16Units_ne_nil] at h
      | cons d l' =>
        rw [flatMap_cons, flatMap_cons] at h
        obtain ⟨rfl, hrest⟩ := utf16Units_inj h
        rw [ih l' hrest]
  intro s t h
  exact String.toList_inj.1 (hchars _ _ h)

instance : Std.Antisymm textLe :=
  ⟨fun _ _ h h' => codeUnits_injective (@le_antisymm (List Nat) _ _ _ h h')⟩

def sortText (l : List String) : List String := l.insertionSort textLe

@[simp] theorem mem_sortText {a : String} : a ∈ sortText l ↔ a ∈ l :=
  (perm_insertionSort textLe l).mem_iff

theorem sortText_nodup (h : l.Nodup) : (sortText l).Nodup :=
  (perm_insertionSort textLe l).nodup_iff.2 h

theorem sortText_eq_of_perm {l' : List String} (h : l.Perm l') : sortText l = sortText l' :=
  insertionSort_eq_of_perm h fun _ _ _ _ hab hba => Std.Antisymm.antisymm _ _ hab hba

def byText {α : Type} (key : α → String) (a b : α) : Prop := textLe (key a) (key b)

instance {α : Type} (key : α → String) : DecidableRel (byText key) := fun a b =>
  inferInstanceAs (Decidable (textLe (key a) (key b)))

instance {α : Type} (key : α → String) : Std.Total (byText key) :=
  ⟨fun a b => le_total (codeUnits (key a)) (codeUnits (key b))⟩

instance {α : Type} (key : α → String) : IsTrans α (byText key) :=
  ⟨fun _ _ _ h h' => @le_trans (List Nat) _ _ _ _ h h'⟩

def thenBy {α : Type} (r s : α → α → Prop) (a b : α) : Prop := r a b ∧ (r b a → s a b)

instance {α : Type} (r s : α → α → Prop) [DecidableRel r] [DecidableRel s] :
    DecidableRel (thenBy r s) := fun a b => inferInstanceAs (Decidable (r a b ∧ (r b a → s a b)))

instance {α : Type} (r s : α → α → Prop) [Std.Total r] [Std.Total s] : Std.Total (thenBy r s) where
  total a b := by
    rcases Std.Total.total (r := r) a b with hr | hr <;>
      rcases Std.Total.total (r := s) a b with hs | hs
    · exact .inl ⟨hr, fun _ => hs⟩
    · by_cases hr' : r b a
      · exact .inr ⟨hr', fun _ => hs⟩
      · exact .inl ⟨hr, fun h => absurd h hr'⟩
    · by_cases hr' : r a b
      · exact .inl ⟨hr', fun _ => hs⟩
      · exact .inr ⟨hr, fun h => absurd h hr'⟩
    · exact .inr ⟨hr, fun _ => hs⟩

instance {α : Type} (r s : α → α → Prop) [IsTrans α r] [IsTrans α s] : IsTrans α (thenBy r s) where
  trans a b c := by
    rintro ⟨hab, hsab⟩ ⟨hbc, hsbc⟩
    refine ⟨IsTrans.trans _ _ _ hab hbc, fun hca => ?_⟩
    exact IsTrans.trans _ _ _ (hsab (IsTrans.trans _ _ _ hbc hca)) (hsbc (IsTrans.trans _ _ _ hca hab))

def sortBy {α : Type} (key : α → String) (l : List α) : List α := l.insertionSort (byText key)

theorem sortBy_perm (key : α → String) (l : List α) : (sortBy key l).Perm l :=
  perm_insertionSort _ l

@[simp] theorem mem_sortBy {key : α → String} {a : α} {l : List α} : a ∈ sortBy key l ↔ a ∈ l :=
  (sortBy_perm key l).mem_iff

theorem sortBy_eq_of_perm {key : α → String} {l l' : List α} (h : l.Perm l')
    (hn : (l.map key).Nodup) : sortBy key l = sortBy key l' :=
  insertionSort_eq_of_perm h fun _ ha _ hb hab hba =>
    inj_on_of_nodup_map hn ha hb (Std.Antisymm.antisymm (r := textLe) _ _ hab hba)

def hexDigit (n : Nat) : Char := Nat.digitChar n

/-- One character as `JSON.stringify` writes it inside a string. -/
def quoteChar (c : Char) : String :=
  if c.toNat = 34 then "\\\""
  else if c.toNat = 92 then "\\\\"
  else if c.toNat = 10 then "\\n"
  else if c.toNat = 13 then "\\r"
  else if c.toNat = 9 then "\\t"
  else if c.toNat = 8 then "\\b"
  else if c.toNat = 12 then "\\f"
  else if c.toNat < 32 then
    "\\u00" ++ String.ofList [hexDigit (c.toNat / 16), hexDigit (c.toNat % 16)]
  else String.ofList [c]

def quote (s : String) : String :=
  "\"" ++ String.join (s.toList.map quoteChar) ++ "\""

def joinWith (sep : String) : List String → String
  | [] => ""
  | [a] => a
  | a :: l => a ++ sep ++ joinWith sep l

def pairKey (a b : String) : String := a ++ "\x00" ++ b

def edgeKey (a b c : String) : String := a ++ "\x00" ++ b ++ "\x00" ++ c

def maxSafeInteger : Nat := 9007199254740991

def isNonEmpty (s : String) : Bool := s ≠ ""

def isPositiveSafeInteger (n : Int) : Bool := decide (0 < n) && decide (n ≤ maxSafeInteger)

end Rolebox.Graph
