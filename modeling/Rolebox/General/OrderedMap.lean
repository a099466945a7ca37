import Rolebox.General.PlainObject

/-! Maps that list their entries in the order the keys were first set. -/

namespace General
open List

/-- A map from texts: a key set again keeps its place. -/
structure OrderedMap (α : Type*) where
  entries : List (String × α)
  keysNodup : (entries.map Prod.fst).Nodup

namespace OrderedMap
variable {α β : Type*}
variable {m : OrderedMap α}

def empty : OrderedMap α := ⟨[], nodup_nil⟩

def keys (m : OrderedMap α) : List String := m.entries.map Prod.fst

def values (m : OrderedMap α) : List α := m.entries.map Prod.snd

def get (m : OrderedMap α) (k : String) : Option α := m.entries.lookup k

def set (m : OrderedMap α) (k : String) (a : α) : OrderedMap α :=
  ⟨assign k a m.entries, assign_keys_nodup m.keysNodup⟩

def map (f : α → β) (m : OrderedMap α) : OrderedMap β :=
  ⟨m.entries.map fun entry => (entry.1, f entry.2), by
    rw [map_map]
    exact m.keysNodup⟩

def ofList (key : β → String) (value : β → α) (l : List β) : OrderedMap α :=
  l.foldl (fun m b => m.set (key b) (value b)) empty

theorem ext_entries {m' : OrderedMap α} (h : m.entries = m'.entries) : m = m' := by
  obtain ⟨entries, hn⟩ := m
  cases h
  rfl

@[simp] theorem get_empty (k : String) : (empty : OrderedMap α).get k = none := rfl

@[simp] theorem entries_empty : (empty : OrderedMap α).entries = [] := rfl

theorem get_set (m : OrderedMap α) (k j : String) (a : α) :
    (m.set k a).get j = if j = k then some a else m.get j := by
  unfold get set
  split
  · next h => rw [h, lookup_assign_self]
  · next h => exact lookup_assign_ne a _ h

theorem get_map (f : α → β) (m : OrderedMap α) (k : String) :
    (m.map f).get k = (m.get k).map f := by
  have hlookup : ∀ entries : List (String × α),
      (entries.map fun entry => (entry.1, f entry.2)).lookup k = (entries.lookup k).map f := by
    intro entries
    induction entries with
    | nil => rfl
    | cons entry entries ih =>
      rw [map_cons, lookup_cons, lookup_cons, ih]
      cases k == entry.1 <;> rfl
  exact hlookup m.entries

theorem get_eq_none {k : String} : m.get k = none ↔ k ∉ m.keys := lookup_eq_none_iff

theorem get_of_mem {entry : String × α} (h : entry ∈ m.entries) :
    m.get entry.1 = some entry.2 := lookup_of_mem m.keysNodup h

theorem mem_of_get {k : String} {a : α} (h : m.get k = some a) :
    (k, a) ∈ m.entries := mem_of_lookup h

theorem foldl_set_entries (key : β → String) (value : β → α) (l : List β) (m : OrderedMap α) :
    (l.foldl (fun m b => m.set (key b) (value b)) m).entries =
      (l.map fun b => (key b, value b)).foldl (fun entries p => assign p.1 p.2 entries)
        m.entries := by
  induction l generalizing m with
  | nil => rfl
  | cons b l ih => exact ih (m.set (key b) (value b))

theorem entries_ofList {key : β → String} {value : β → α} {l : List β} (h : (l.map key).Nodup) :
    (ofList key value l).entries = l.map fun b => (key b, value b) := by
  have hkeys : ((([] : List (String × α)) ++ l.map fun b => (key b, value b)).map
      Prod.fst).Nodup := by
    rw [nil_append, map_map]
    exact h
  exact (foldl_set_entries key value l empty).trans (foldl_assign_eq hkeys)

theorem get_ofList (key : β → String) (value : β → α) (l : List β) (k : String) :
    (ofList key value l).get k = (l.reverse.find? fun b => key b = k).map value := by
  have hfold : ∀ l : List β, ∀ m : OrderedMap α,
      (l.foldl (fun m b => m.set (key b) (value b)) m).get k =
        ((l.reverse.find? fun b => key b = k).map value).or (m.get k) := by
    intro l
    induction l with
    | nil => exact fun _ => rfl
    | cons b l ih =>
      intro m
      rw [foldl_cons, ih, get_set, reverse_cons, find?_append]
      cases l.reverse.find? fun b => key b = k with
      | some _ => rfl
      | none =>
        by_cases hk : key b = k
        · simp [hk]
        · simp [hk, Ne.symm hk]
  exact (hfold l empty).trans (Option.or_none ..)

theorem mem_entries_ofList {key : β → String} {value : β → α} {l : List β} {entry : String × α}
    (h : entry ∈ (ofList key value l).entries) : ∃ b ∈ l, entry = (key b, value b) := by
  have hget := get_of_mem h
  rw [get_ofList] at hget
  obtain ⟨b, hb, hvalue⟩ := Option.map_eq_some_iff.1 hget
  have hkey := find?_some hb
  exact ⟨b, mem_reverse.1 (mem_of_find?_eq_some hb),
    Prod.ext (of_decide_eq_true hkey).symm hvalue.symm⟩

theorem ofList_entries (f : α → β) (m : OrderedMap α) :
    ofList Prod.fst (fun entry => f entry.2) m.entries = m.map f :=
  ext_entries (entries_ofList m.keysNodup)

/-- The record of a map: its entries written to an empty object. -/
def record (m : OrderedMap α) : PlainObject α :=
  m.entries.foldl (fun o entry => o.set entry.1 entry.2) .empty

theorem own?_record (m : OrderedMap α) (k : String) :
    m.record.own? k = if k = "__proto__" then none else m.get k := by
  have hbuild : m.record =
      PlainObject.build (fun _ => True) Prod.fst Prod.snd m.entries .empty := by
    unfold record PlainObject.build
    simp only [if_true]
  obtain ⟨hmem, hout, hproto⟩ := @PlainObject.own?_build _ _ (fun _ => True) _ Prod.fst Prod.snd
    m.entries PlainObject.empty not_mem_nil m.keysNodup k
  rw [hbuild]
  split
  · next hk => exact hout fun _ _ _ _ => hk
  next hk =>
  cases hget : m.get k with
  | some a => exact hmem (k, a) (mem_of_get hget) trivial rfl hk
  | none =>
    refine hout fun entry hentry _ hkey => absurd (mem_map.2 ⟨entry, hentry, hkey⟩) ?_
    exact get_eq_none.1 hget

end OrderedMap
end General
