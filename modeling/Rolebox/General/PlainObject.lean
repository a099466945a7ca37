import Rolebox.General.Keyed

/-! JavaScript plain objects used as records: own properties over `Object.prototype`. -/

namespace General
open List

/-- The property names a plain object answers from `Object.prototype`. -/
def prototypeNames : List String :=
  ["constructor", "__defineGetter__", "__defineSetter__", "hasOwnProperty",
    "__lookupGetter__", "__lookupSetter__", "isPrototypeOf", "propertyIsEnumerable",
    "toString", "valueOf", "__proto__", "toLocaleString"]

/-- An object literal in insertion order; `proto` is what an assignment to `__proto__` installed. -/
structure PlainObject (α : Type*) where
  own : List (String × α)
  proto : Option α
  keysNodup : (own.map Prod.fst).Nodup
  deriving DecidableEq

inductive Reading (α : Type*) where
  | undefined
  | inherited
  | value (a : α)

namespace PlainObject
variable {α : Type*}
variable {o : PlainObject α} {k : String}

def empty : PlainObject α := ⟨[], none, nodup_nil⟩

def keys (o : PlainObject α) : List String := o.own.map Prod.fst

def get (o : PlainObject α) (k : String) : Reading α :=
  match o.own.lookup k with
  | some a => .value a
  | none =>
    if k = "__proto__" then
      match o.proto with
      | some a => .value a
      | none => .inherited
    else if k ∈ prototypeNames then .inherited
    else .undefined

def own? (o : PlainObject α) (k : String) : Option α := o.own.lookup k

/-- `o[k] = a` for an object `a`: the name `__proto__` replaces the prototype. -/
def set (o : PlainObject α) (k : String) (a : α) : PlainObject α :=
  if k = "__proto__" ∧ k ∉ o.keys then { o with proto := some a }
  else ⟨assign k a o.own, o.proto, assign_keys_nodup o.keysNodup⟩

/-- `o[k] = a` for a primitive `a`: the name `__proto__` is ignored. -/
def setPrimitive (o : PlainObject α) (k : String) (a : α) : PlainObject α :=
  if k = "__proto__" ∧ k ∉ o.keys then o
  else ⟨assign k a o.own, o.proto, assign_keys_nodup o.keysNodup⟩

def spread (o : PlainObject α) : PlainObject α := { o with proto := none }

@[simp] theorem own?_empty (k : String) : (empty : PlainObject α).own? k = none := rfl

@[simp] theorem keys_empty : (empty : PlainObject α).keys = [] := rfl

@[simp] theorem own?_spread (o : PlainObject α) (k : String) : o.spread.own? k = o.own? k := rfl

@[simp] theorem keys_spread (o : PlainObject α) : o.spread.keys = o.keys := rfl

theorem mem_keys_iff : k ∈ o.keys ↔ (o.own? k).isSome := by
  rw [← not_iff_not, keys, ← lookup_eq_none_iff, own?, Option.not_isSome_iff_eq_none]

theorem get_of_own {a : α} (h : o.own? k = some a) : o.get k = .value a := by
  unfold get
  rw [show o.own.lookup k = some a from h]

theorem own?_of_get {a : α} (hproto : o.proto = none) (h : o.get k = .value a) :
    o.own? k = some a := by
  unfold get at h
  unfold own?
  cases hown : o.own.lookup k with
  | some b =>
    rw [hown] at h
    cases h
    rfl
  | none =>
    rw [hown, hproto] at h
    simp only at h
    split at h
    · cases h
    · split at h <;> cases h

theorem own?_of_mem {field : String × α} (h : field ∈ o.own) :
    o.own? field.1 = some field.2 := lookup_of_mem o.keysNodup h

theorem get_of_ordinary (hk : k ∉ prototypeNames) :
    o.get k = match o.own? k with | some a => .value a | none => .undefined := by
  have hp : k ≠ "__proto__" := by
    rintro rfl
    exact hk (by decide)
  unfold get own?
  split <;> simp_all

theorem setPrimitive_ordinary (a : α) (hk : k ∉ prototypeNames) :
    (o.setPrimitive k a).own = assign k a o.own ∧ (o.setPrimitive k a).proto = o.proto := by
  have hp : k ≠ "__proto__" := by
    rintro rfl
    exact hk (by decide)
  unfold setPrimitive
  rw [if_neg (fun h => hp h.1)]
  exact ⟨rfl, rfl⟩

theorem own?_setPrimitive (j : String) (a : α) (hk : k ∉ prototypeNames) :
    (o.setPrimitive k a).own? j = if j = k then some a else o.own? j := by
  unfold own?
  rw [(setPrimitive_ordinary a hk).1]
  split
  · next h => rw [h, lookup_assign_self]
  · next h => exact lookup_assign_ne a _ h

theorem get_eq_undefined : o.get k = .undefined ↔ o.own? k = none ∧ k ∉ prototypeNames := by
  have hproto : "__proto__" ∈ prototypeNames := by decide
  unfold get own?
  cases o.own.lookup k with
  | some a => simp
  | none =>
    by_cases hp : k = "__proto__"
    · subst hp
      cases o.proto <;> simp [hproto]
    · by_cases hk : k ∈ prototypeNames <;> simp [hp, hk]

theorem get_setPrimitive_ne {j : String} (a : α) (h : j ≠ k) :
    (o.setPrimitive k a).get j = o.get j := by
  unfold setPrimitive
  split
  · rfl
  · unfold get
    simp only [lookup_assign_ne a _ h]

theorem spread_eq_self (h : o.proto = none) : o.spread = o := by
  obtain ⟨own, proto, hn⟩ := o
  cases h
  rfl

theorem proto_setPrimitive (o : PlainObject α) (k : String) (a : α) :
    (o.setPrimitive k a).proto = o.proto := by
  unfold setPrimitive
  split <;> rfl

theorem own?_set_proto (a : α) (h : "__proto__" ∉ o.keys) (j : String) :
    (o.set "__proto__" a).own? j = o.own? j := by
  unfold set
  rw [if_pos ⟨rfl, h⟩]
  rfl

theorem own?_set_of_ne (j : String) (a : α) (hk : k ≠ "__proto__") :
    (o.set k a).own? j = if j = k then some a else o.own? j := by
  unfold set own?
  rw [if_neg fun h => hk h.1]
  simp only
  split
  · next h => rw [h, lookup_assign_self]
  · next h => exact lookup_assign_ne a _ h

theorem proto_set_ne (a : α) (hk : k ≠ "__proto__") : (o.set k a).proto = o.proto := by
  unfold set
  rw [if_neg fun h => hk h.1]

theorem proto_set_proto (a : α) (h : "__proto__" ∉ o.keys) :
    (o.set "__proto__" a).proto = some a := by
  unfold set
  rw [if_pos ⟨rfl, h⟩]

theorem proto_not_mem_keys_set (k : String) (a : α) (h : "__proto__" ∉ o.keys) :
    "__proto__" ∉ (o.set k a).keys := by
  by_cases hk : k = "__proto__"
  · rw [mem_keys_iff, hk, own?_set_proto _ h, ← mem_keys_iff]
    exact h
  · rw [mem_keys_iff, own?_set_of_ne _ _ hk, if_neg (Ne.symm hk), ← mem_keys_iff]
    exact h

theorem setPrimitive_proto (a : α) (h : "__proto__" ∉ o.keys) :
    o.setPrimitive "__proto__" a = o := if_pos ⟨rfl, h⟩

theorem own?_setPrimitive_of_ne (j : String) (a : α) (hk : k ≠ "__proto__") :
    (o.setPrimitive k a).own? j = if j = k then some a else o.own? j := by
  unfold setPrimitive own?
  rw [if_neg fun h => hk h.1]
  simp only
  split
  · next h => rw [h, lookup_assign_self]
  · next h => exact lookup_assign_ne a _ h

theorem get_set_ne_undefined {j : String} (a : α) (h : j = k ∨ o.get j ≠ .undefined) :
    (o.set k a).get j ≠ .undefined := by
  have hproto : "__proto__" ∈ prototypeNames := by decide
  intro hu
  obtain ⟨hown, hname⟩ := get_eq_undefined.1 hu
  rcases h with rfl | h
  · by_cases hj : j = "__proto__"
    · exact hname (hj ▸ hproto)
    · rw [own?_set_of_ne _ _ hj, if_pos rfl] at hown
      cases hown
  · apply h
    refine get_eq_undefined.2 ⟨?_, hname⟩
    by_cases hkp : k = "__proto__"
    · by_cases hin : "__proto__" ∈ o.keys
      · have hne : j ≠ k := fun heq => hname (heq ▸ hkp ▸ hproto)
        unfold set own? at hown
        rw [if_neg fun hno => hno.2 (hkp ▸ hin)] at hown
        simp only [lookup_assign_ne a _ hne] at hown
        exact hown
      · rw [hkp, own?_set_proto _ hin] at hown
        exact hown
    · rw [own?_set_of_ne _ _ hkp] at hown
      split at hown
      · cases hown
      · exact hown

theorem ext_own {o' : PlainObject α} (hown : o.own = o'.own) (hproto : o.proto = o'.proto) :
    o = o' := by
  obtain ⟨own, proto, hn⟩ := o
  cases hown
  cases hproto
  rfl

theorem assign_new (a : α) (h : k ∉ o.keys) : assign k a o.own = o.own ++ [(k, a)] := if_neg h

theorem own_set_new (a : α) (h : k ∉ o.keys) (hp : k ≠ "__proto__") :
    (o.set k a).own = o.own ++ [(k, a)] ∧ (o.set k a).proto = o.proto := by
  unfold set
  rw [if_neg fun hno => hp hno.1]
  exact ⟨assign_new a h, rfl⟩

theorem own_setPrimitive_new (a : α) (h : k ∉ o.keys) (hp : k ≠ "__proto__") :
    (o.setPrimitive k a).own = o.own ++ [(k, a)] ∧ (o.setPrimitive k a).proto = o.proto := by
  unfold setPrimitive
  rw [if_neg fun hno => hp hno.1]
  exact ⟨assign_new a h, rfl⟩

theorem foldlM_rebuild {ε : Type*} {f : PlainObject α → String × α → Except ε (PlainObject α)}
    {fields : List (String × α)}
    (hstep : ∀ o field, field ∈ fields → field.1 ∉ o.keys → ∃ o', f o field = .ok o' ∧
      o'.own = o.own ++ [field] ∧ o'.proto = o.proto) (hnodup : (fields.map Prod.fst).Nodup)
    (hfresh : ∀ field ∈ fields, field.1 ∉ o.keys) :
    ∃ o', fields.foldlM f o = .ok o' ∧ o'.own = o.own ++ fields ∧ o'.proto = o.proto := by
  induction fields generalizing o with
  | nil => exact ⟨o, rfl, (append_nil _).symm, rfl⟩
  | cons field fields ih =>
    obtain ⟨hnot, hrest⟩ := nodup_cons.1 hnodup
    obtain ⟨o₁, hfirst, hown, hproto⟩ := hstep o field (.head _)
      (hfresh field (.head _))
    have hkeys : ∀ other ∈ fields, other.1 ∉ o₁.keys := by
      intro other ho hin
      rw [keys, hown, map_append, mem_append] at hin
      rcases hin with hin | hin
      · exact hfresh other (.tail _ ho) hin
      · rw [map_cons, map_nil, mem_singleton] at hin
        exact hnot (mem_map.2 ⟨other, ho, hin⟩)
    obtain ⟨o₂, hfold, hown₂, hproto₂⟩ :=
      ih (fun o other ho => hstep o other (.tail _ ho)) hrest hkeys
    refine ⟨o₂, ?_, ?_, hproto₂.trans hproto⟩
    · rw [foldlM_cons, hfirst]
      exact hfold
    · rw [hown₂, hown, append_assoc]
      rfl

section Build
variable {β : Type*} (c : β → Prop) [DecidablePred c] (key : β → String) (val : β → α)
variable {l : List β} {o : PlainObject α}

/-- Write the entries of the members that satisfy a condition, in order. -/
def build (l : List β) (o : PlainObject α) : PlainObject α :=
  l.foldl (fun o b => if c b then o.set (key b) (val b) else o) o

variable {c key val}

theorem own?_build (ho : "__proto__" ∉ o.keys) (hn : (l.map key).Nodup) {k : String} :
    (∀ b ∈ l, c b → key b = k → k ≠ "__proto__" → (build c key val l o).own? k = some (val b)) ∧
    ((∀ b ∈ l, c b → key b = k → k = "__proto__") → (build c key val l o).own? k = o.own? k) ∧
    "__proto__" ∉ (build c key val l o).keys := by
  induction l generalizing o with
  | nil =>
    refine ⟨fun b hb => absurd hb (not_mem_nil), fun _ => rfl, ho⟩
  | cons b l ih =>
    obtain ⟨hb, hl⟩ := nodup_cons.1 hn
    have hkeep : "__proto__" ∉ (if c b then o.set (key b) (val b) else o).keys := by
      split
      · exact proto_not_mem_keys_set _ _ ho
      · exact ho
    obtain ⟨h₁, h₂, h₃⟩ := ih hkeep hl
    refine ⟨fun b' hb' hc hk hp => ?_, fun hall => ?_, h₃⟩
    · rcases mem_cons.1 hb' with rfl | hb'
      · have hrest := h₂ fun b'' hb'' _ hk'' =>
          absurd (mem_map.2 ⟨b'', hb'', hk''.trans hk.symm⟩) hb
        refine hrest.trans ?_
        rw [if_pos hc, own?_set_of_ne _ _ (hk ▸ hp), if_pos hk.symm]
      · exact h₁ b' hb' hc hk hp
    · refine (h₂ fun b' hb' => hall b' (.tail _ hb')).trans ?_
      split
      · next hc =>
        by_cases hp : key b = "__proto__"
        · rw [hp, own?_set_proto _ ho]
        · rw [own?_set_of_ne _ _ hp, if_neg]
          rintro rfl
          exact hp (hall b (.head _) hc rfl)
      · rfl

theorem proto_build_eq (h : ∀ b ∈ l, c b → key b ≠ "__proto__") :
    (build c key val l o).proto = o.proto := by
  induction l generalizing o with
  | nil => rfl
  | cons b l ih =>
    have hrest := @ih (if c b then o.set (key b) (val b) else o)
      fun b' hb' => h b' (.tail _ hb')
    refine hrest.trans ?_
    split
    · next hc => exact proto_set_ne _ (h b (.head _) hc)
    · rfl

theorem proto_build_ne_none (ho : "__proto__" ∉ o.keys)
    (h : o.proto ≠ none ∨ ∃ b ∈ l, c b ∧ key b = "__proto__") :
    (build c key val l o).proto ≠ none := by
  induction l generalizing o with
  | nil =>
    rcases h with h | ⟨b, hb, -⟩
    · exact h
    · cases hb
  | cons b l ih =>
    have hkeys : "__proto__" ∉ (if c b then o.set (key b) (val b) else o).keys := by
      split
      · exact proto_not_mem_keys_set _ _ ho
      · exact ho
    have hrest := ih hkeys
    refine hrest ?_
    rcases h with h | ⟨b', hb', hc, hk⟩
    · left
      split
      · by_cases hk : key b = "__proto__"
        · rw [hk, proto_set_proto _ ho]
          exact Option.some_ne_none _
        · rw [proto_set_ne _ hk]
          exact h
      · exact h
    · rcases mem_cons.1 hb' with rfl | hb'
      · left
        rw [if_pos hc, hk, proto_set_proto _ ho]
        exact Option.some_ne_none _
      · exact .inr ⟨b', hb', hc, hk⟩

theorem own?_build_mem (hn : (l.map key).Nodup) {b : β} (hb : b ∈ l) (hc : c b)
    (hname : key b ≠ "__proto__") : (build c key val l empty).own? (key b) = some (val b) :=
  (own?_build not_mem_nil hn).1 b hb hc rfl hname

theorem mem_keys_build (hn : (l.map key).Nodup) {k : String} :
    k ∈ (build c key val l empty).keys ↔ k ≠ "__proto__" ∧ ∃ b ∈ l, c b ∧ key b = k := by
  have hempty : "__proto__" ∉ (empty : PlainObject α).keys := not_mem_nil
  have hbuilt : (∀ b ∈ l, c b → key b = k → k ≠ "__proto__" →
      (build c key val l empty).own? k = some (val b)) ∧
      ((∀ b ∈ l, c b → key b = k → k = "__proto__") →
        (build c key val l empty).own? k = (empty : PlainObject α).own? k) ∧
      "__proto__" ∉ (build c key val l empty).keys := own?_build hempty hn
  obtain ⟨h₁, h₂, h₃⟩ := hbuilt
  constructor
  · intro hk
    have hp : k ≠ "__proto__" := fun h => h₃ (h ▸ hk)
    refine ⟨hp, ?_⟩
    by_contra hno
    have := h₂ fun b hb hc hkey => absurd ⟨b, hb, hc, hkey⟩ hno
    rw [mem_keys_iff, this] at hk
    cases hk
  · rintro ⟨hp, b, hb, hc, hk⟩
    rw [mem_keys_iff, h₁ b hb hc hk hp]
    rfl

end Build

end PlainObject
end General
