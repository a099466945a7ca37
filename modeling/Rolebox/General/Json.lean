import Mathlib.Data.Rat.Defs

/-! JSON values as `JSON.parse` answers them, and the readings of one value. -/

namespace General

inductive Json where
  | null
  | bool (b : Bool)
  | num (q : Rat)
  | str (s : String)
  | arr (items : List Json)
  | obj (fields : List (String × Json))

namespace Json

def field? (value : Json) (name : String) : Option Json :=
  match value with
  | obj fields => fields.lookup name
  | _ => none

def str? : Json → Option String
  | str s => some s
  | _ => none

def num? : Json → Option Rat
  | num q => some q
  | _ => none

def arr? : Json → Option (List Json)
  | arr items => some items
  | _ => none

def obj? : Json → Option (List (String × Json))
  | obj fields => some fields
  | _ => none

def isRecord (value : Json) : Bool := value.obj?.isSome

def isContainer : Json → Bool
  | arr _ => true
  | obj _ => true
  | _ => false

def text? (value : Json) : Option String := value.str?.filter (· ≠ "")

def safeNat? (value : Json) : Option Nat :=
  value.num?.bind fun q =>
    if q.den = 1 ∧ 0 ≤ q.num ∧ q.num ≤ 9007199254740991 then some q.num.toNat else none

@[simp] theorem str?_str (s : String) : (str s).str? = some s := rfl
@[simp] theorem arr?_arr (items : List Json) : (arr items).arr? = some items := rfl
@[simp] theorem obj?_obj (fields : List (String × Json)) : (obj fields).obj? = some fields := rfl
@[simp] theorem isRecord_obj (fields : List (String × Json)) : (obj fields).isRecord = true := rfl
@[simp] theorem field?_obj (fields : List (String × Json)) (name : String) :
    (obj fields).field? name = fields.lookup name := rfl

theorem text?_str {s : String} (h : s ≠ "") : (str s).text? = some s := by
  simp [text?, Option.filter, h]

theorem safeNat?_natCast (n : Nat) :
    (num (n : Rat)).safeNat? = if n ≤ 9007199254740991 then some n else none := by
  have hread : (num (n : Rat)).safeNat? =
      if (n : Rat).den = 1 ∧ 0 ≤ (n : Rat).num ∧ (n : Rat).num ≤ 9007199254740991 then
        some (n : Rat).num.toNat else none := rfl
  have hcond : ((n : Rat).den = 1 ∧ 0 ≤ (n : Rat).num ∧ (n : Rat).num ≤ 9007199254740991) ↔
      n ≤ 9007199254740991 := by
    rw [Rat.num_natCast, Rat.den_natCast]
    omega
  rw [hread, Rat.num_natCast, Int.toNat_natCast]
  exact if_congr (by simpa only [Rat.num_natCast] using hcond) rfl rfl

theorem safeNat?_num {n : Nat} (h : n ≤ 9007199254740991) : (num (n : Rat)).safeNat? = some n := by
  rw [safeNat?_natCast, if_pos h]

theorem safeNat?_num_none {n : Nat} (h : 9007199254740991 < n) :
    (num (n : Rat)).safeNat? = none := by
  rw [safeNat?_natCast, if_neg (not_le.2 h)]

/-! Two values are compared structurally, as their canonical texts are. -/

mutual

def decEq : (a b : Json) → Decidable (a = b)
  | null, null => isTrue rfl
  | bool b, bool b' => decidable_of_iff (b = b') (by simp)
  | num q, num q' => decidable_of_iff (q = q') (by simp)
  | str s, str s' => decidable_of_iff (s = s') (by simp)
  | arr l, arr l' =>
    have := decEqItems l l'
    decidable_of_iff (l = l') (by simp)
  | obj l, obj l' =>
    have := decEqFields l l'
    decidable_of_iff (l = l') (by simp)
  | null, bool _ | null, num _ | null, str _ | null, arr _ | null, obj _
  | bool _, null | bool _, num _ | bool _, str _ | bool _, arr _ | bool _, obj _
  | num _, null | num _, bool _ | num _, str _ | num _, arr _ | num _, obj _
  | str _, null | str _, bool _ | str _, num _ | str _, arr _ | str _, obj _
  | arr _, null | arr _, bool _ | arr _, num _ | arr _, str _ | arr _, obj _
  | obj _, null | obj _, bool _ | obj _, num _ | obj _, str _ | obj _, arr _ =>
    isFalse (by intro h; cases h)

def decEqItems : (a b : List Json) → Decidable (a = b)
  | [], [] => isTrue rfl
  | [], _ :: _ | _ :: _, [] => isFalse (by intro h; cases h)
  | a :: l, b :: l' =>
    have := decEq a b
    have := decEqItems l l'
    decidable_of_iff (a = b ∧ l = l') (by simp)

def decEqFields : (a b : List (String × Json)) → Decidable (a = b)
  | [], [] => isTrue rfl
  | [], _ :: _ | _ :: _, [] => isFalse (by intro h; cases h)
  | a :: l, b :: l' =>
    have := decEqField a b
    have := decEqFields l l'
    decidable_of_iff (a = b ∧ l = l') (by simp)

def decEqField : (a b : String × Json) → Decidable (a = b)
  | (name, v), (name', v') =>
    have := decEq v v'
    decidable_of_iff (name = name' ∧ v = v') (by simp)

end

instance : DecidableEq Json := decEq

end Json
end General
