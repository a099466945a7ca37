import Rolebox.General.JsValue
import Rolebox.General.Reorder

/-! Equality of JSON values, up to the order of keys and the sign of a zero, by a normal form. -/

namespace General.JsValue
open List

mutual

/-- Equal as JSON values. -/
def Same : JsValue → JsValue → Prop
  | .null, .null => True
  | .bool b, .bool b' => b = b'
  | .num x, .num y => x.value = y.value
  | .str s, .str t => s = t
  | .arr items, .arr items' => SameItems items items'
  | .obj fields, .obj fields' =>
    (fields.map Prod.fst).Perm (fields'.map Prod.fst) ∧ SameFields fields fields'
  | .other a, .other b => a = b
  | _, _ => False

def SameItems : List JsValue → List JsValue → Prop
  | [], [] => True
  | item :: items, item' :: items' => Same item item' ∧ SameItems items items'
  | _, _ => False

def SameFields : List (JsText × JsValue) → List (JsText × JsValue) → Prop
  | [], _ => True
  | (key, value) :: fields, fields' =>
    (∃ value', (key, value') ∈ fields' ∧ Same value value') ∧ SameFields fields fields'

end

def sortFields (fields : List (JsText × JsValue)) : List (JsText × JsValue) :=
  fields.insertionSort fun a b => a.1 ≤ b.1

instance : Std.Total fun a b : JsText × JsValue => a.1 ≤ b.1 := ⟨fun a b => le_total a.1 b.1⟩

instance : IsTrans (JsText × JsValue) fun a b => a.1 ≤ b.1 :=
  ⟨fun _ _ _ h h' => le_trans h h'⟩

theorem sortFields_perm (fields : List (JsText × JsValue)) : (sortFields fields).Perm fields :=
  perm_insertionSort _ fields

theorem sortFields_eq_of_perm {fields fields' : List (JsText × JsValue)} (h : fields.Perm fields')
    (hkeys : (fields.map Prod.fst).Nodup) : sortFields fields = sortFields fields' :=
  insertionSort_eq_of_perm h fun _ ha _ hb hab hba =>
    inj_on_of_nodup_map hkeys ha hb (le_antisymm hab hba)

mutual

def sortedKeys : JsValue → JsValue
  | .null => .null
  | .bool b => .bool b
  | .num x => .num x
  | .str s => .str s
  | .arr items => .arr (sortedItems items)
  | .obj fields => .obj (sortFields (sortedFields fields))
  | .other what => .other what

def sortedItems : List JsValue → List JsValue
  | [] => []
  | item :: items => sortedKeys item :: sortedItems items

def sortedFields : List (JsText × JsValue) → List (JsText × JsValue)
  | [] => []
  | (key, value) :: fields => (key, sortedKeys value) :: sortedFields fields

end

def normal (v : JsValue) : JsValue := unsigned (sortedKeys v)

theorem unsignedItems_eq (items : List JsValue) : unsignedItems items = items.map unsigned := by
  induction items with
  | nil => rfl
  | cons item items ih => rw [unsignedItems, ih, map_cons]

theorem unsignedFields_eq (fields : List (JsText × JsValue)) :
    unsignedFields fields = fields.map fun field => (field.1, unsigned field.2) := by
  induction fields with
  | nil => rfl
  | cons field fields ih => rw [unsignedFields, ih, map_cons]

theorem sortedItems_eq (items : List JsValue) : sortedItems items = items.map sortedKeys := by
  induction items with
  | nil => rfl
  | cons item items ih => rw [sortedItems, ih, map_cons]

theorem sortedFields_eq (fields : List (JsText × JsValue)) :
    sortedFields fields = fields.map fun field => (field.1, sortedKeys field.2) := by
  induction fields with
  | nil => rfl
  | cons field fields ih => rw [sortedFields, ih, map_cons]

theorem keyedItems_iff (items : List JsValue) : KeyedItems items ↔ ∀ item ∈ items, Keyed item := by
  induction items with
  | nil => simp [KeyedItems]
  | cons item items ih => rw [KeyedItems, ih, forall_mem_cons]

theorem keyedFields_iff (fields : List (JsText × JsValue)) :
    KeyedFields fields ↔ ∀ field ∈ fields, Keyed field.2 := by
  induction fields with
  | nil => simp [KeyedFields]
  | cons field fields ih => rw [KeyedFields, ih, forall_mem_cons]

theorem jsonFields_iff (fields : List (JsText × JsValue)) :
    JsonFields fields ↔ ∀ field ∈ fields, IsJson field.2 := by
  induction fields with
  | nil => simp [JsonFields]
  | cons field fields ih => rw [JsonFields, ih, forall_mem_cons]

mutual

theorem keyed_sortedKeys (v : JsValue) (h : Keyed v) : Keyed (sortedKeys v) := by
  cases v with
  | arr items => exact keyed_sortedItems items h
  | obj fields =>
    have hperm := sortFields_perm (sortedFields fields)
    have hkeys : (sortedFields fields).map Prod.fst = fields.map Prod.fst := by
      rw [sortedFields_eq, map_map]
      rfl
    constructor
    · rw [(hperm.map Prod.fst).nodup_iff, hkeys]
      exact h.1
    · rw [keyedFields_iff]
      intro field hfield
      exact (keyedFields_iff _).1 (keyed_sortedFields fields h.2) field (hperm.mem_iff.1 hfield)
  | _ => trivial

theorem keyed_sortedItems (items : List JsValue) (h : KeyedItems items) :
    KeyedItems (sortedItems items) := by
  cases items with
  | nil => trivial
  | cons item items => exact ⟨keyed_sortedKeys item h.1, keyed_sortedItems items h.2⟩

theorem keyed_sortedFields (fields : List (JsText × JsValue)) (h : KeyedFields fields) :
    KeyedFields (sortedFields fields) := by
  cases fields with
  | nil => trivial
  | cons field fields => exact ⟨keyed_sortedKeys field.2 h.1, keyed_sortedFields fields h.2⟩

end

mutual

theorem isJson_sortedKeys (v : JsValue) : IsJson (sortedKeys v) ↔ IsJson v := by
  cases v with
  | arr items => exact json_sortedItems items
  | obj fields =>
    have hperm := sortFields_perm (sortedFields fields)
    have hfields : JsonFields (sortFields (sortedFields fields)) ↔
        JsonFields (sortedFields fields) := by
      simp only [jsonFields_iff, hperm.mem_iff]
    exact hfields.trans (json_sortedFields fields)
  | null | bool b | num x | str s | other what => exact Iff.rfl

theorem json_sortedItems (items : List JsValue) : JsonItems (sortedItems items) ↔ JsonItems items := by
  cases items with
  | nil => exact Iff.rfl
  | cons item items => exact and_congr (isJson_sortedKeys item) (json_sortedItems items)

theorem json_sortedFields (fields : List (JsText × JsValue)) :
    JsonFields (sortedFields fields) ↔ JsonFields fields := by
  cases fields with
  | nil => exact Iff.rfl
  | cons field fields => exact and_congr (isJson_sortedKeys field.2) (json_sortedFields fields)

end

mutual

theorem text_unsigned (v : JsValue) : text (unsigned v) = text v := by
  cases v with
  | num x =>
    show x.positiveZero.numberText = x.numberText
    unfold Double.positiveZero
    split
    · next hzero => simp only [Double.numberText, if_pos hzero]
    · rfl
  | arr items => rw [unsigned, text, text, itemsText_unsigned]
  | obj fields => rw [unsigned, text, text, fieldsText_unsigned]
  | null => rfl
  | bool b => rfl
  | str s => rfl
  | other what => rfl

theorem itemsText_unsigned (separated : Bool) (items : List JsValue) :
    itemsText separated (unsignedItems items) = itemsText separated items := by
  cases items with
  | nil => rfl
  | cons item items =>
    rw [unsignedItems, itemsText, itemsText, text_unsigned item, itemsText_unsigned true items]

theorem fieldsText_unsigned (separated : Bool) (fields : List (JsText × JsValue)) :
    fieldsText separated (unsignedFields fields) = fieldsText separated fields := by
  cases fields with
  | nil => rfl
  | cons field fields =>
    rw [unsignedFields, fieldsText, fieldsText, text_unsigned field.2,
      fieldsText_unsigned true fields]

end

theorem normal_arr (items : List JsValue) : normal (.arr items) = .arr (items.map normal) := by
  rw [normal, sortedKeys, unsigned, unsignedItems_eq, sortedItems_eq, map_map]
  rfl

theorem normal_obj (fields : List (JsText × JsValue)) :
    normal (.obj fields) = .obj (sortFields (fields.map fun field => (field.1, normal field.2))) := by
  have hmap := map_insertionSort (fun a b : JsText × JsValue => a.1 ≤ b.1)
    (fun a b : JsText × JsValue => a.1 ≤ b.1) (fun field => (field.1, unsigned field.2))
    (sortedFields fields) fun _ _ _ _ => Iff.rfl
  rw [normal, sortedKeys, unsigned, unsignedFields_eq, sortFields, hmap, sortedFields_eq, map_map]
  rfl

theorem keys_normal (fields : List (JsText × JsValue)) :
    (fields.map fun field => (field.1, normal field.2)).map Prod.fst = fields.map Prod.fst := by
  rw [map_map]
  rfl

/-- Objects have one normal form exactly when each value of one is under its key in the other. -/
theorem sortFields_normal_iff {fields fields' : List (JsText × JsValue)}
    (h : (fields.map Prod.fst).Nodup) :
    sortFields (fields.map fun field => (field.1, normal field.2)) =
        sortFields (fields'.map fun field => (field.1, normal field.2)) ↔
      (fields.map Prod.fst).Perm (fields'.map Prod.fst) ∧
        ∀ field ∈ fields, ∃ value', (field.1, value') ∈ fields' ∧ normal field.2 = normal value' := by
  constructor
  · intro hsort
    have hperm := (sortFields_perm _).symm.trans (hsort ▸ sortFields_perm _)
    constructor
    · have hkeys := hperm.map Prod.fst
      rw [keys_normal, keys_normal] at hkeys
      exact hkeys.symm
    · intro field hfield
      have hmem : (field.1, normal field.2) ∈ fields'.map fun field => (field.1, normal field.2) :=
        hperm.mem_iff.2 (mem_map.2 ⟨field, hfield, rfl⟩)
      obtain ⟨⟨key, value'⟩, hvalue, heq⟩ := mem_map.1 hmem
      obtain ⟨rfl, hnormal⟩ := Prod.mk.inj heq
      exact ⟨value', hvalue, hnormal.symm⟩
  · rintro ⟨hkeys, hvalues⟩
    have hnodup := h
    rw [← keys_normal] at hnodup
    have hlength : fields'.length ≤ fields.length := by
      have hkeysLength := hkeys.length_eq
      rw [length_map, length_map] at hkeysLength
      exact hkeysLength.ge
    have hsubset : (fields.map fun field => (field.1, normal field.2)) ⊆
        fields'.map fun field => (field.1, normal field.2) := by
      intro entry hentry
      obtain ⟨field, hfield, rfl⟩ := mem_map.1 hentry
      obtain ⟨value', hvalue, hnormal⟩ := hvalues field hfield
      exact mem_map.2 ⟨_, hvalue, by rw [hnormal]⟩
    apply sortFields_eq_of_perm _ hnodup
    refine ((Nodup.of_map _ hnodup).subperm hsubset).perm_of_length_le ?_
    rw [length_map, length_map]
    exact hlength

mutual

theorem same_iff_normal (a b : JsValue) (ha : Keyed a) (hb : Keyed b) :
    Same a b ↔ normal a = normal b := by
  cases a with
  | null | bool c | str s | other what => cases b <;> simp [Same, normal, sortedKeys, unsigned]
  | num x =>
    cases b with
    | num y =>
      show x.value = y.value ↔ JsValue.num x.positiveZero = JsValue.num y.positiveZero
      rw [JsValue.num.injEq]
      exact Double.value_eq_iff
    | _ => simp [Same, normal, sortedKeys, unsigned]
  | arr items =>
    cases b with
    | arr items' =>
      rw [normal_arr, normal_arr, JsValue.arr.injEq]
      exact sameItems_iff items items' ha hb
    | _ => simp [Same, normal, sortedKeys, unsigned]
  | obj fields =>
    cases b with
    | obj fields' =>
      rw [normal_obj, normal_obj, JsValue.obj.injEq, sortFields_normal_iff ha.1, Same,
        sameFields_iff fields fields' ha.2 hb.2]
    | _ => simp [Same, normal, sortedKeys, unsigned]

theorem sameItems_iff (items items' : List JsValue) (h : KeyedItems items)
    (h' : KeyedItems items') : SameItems items items' ↔ items.map normal = items'.map normal := by
  cases items with
  | nil => cases items' <;> simp [SameItems]
  | cons item items =>
    cases items' with
    | nil => simp [SameItems]
    | cons item' items' =>
      rw [SameItems, same_iff_normal item item' h.1 h'.1, sameItems_iff items items' h.2 h'.2,
        map_cons, map_cons, List.cons.injEq]

theorem sameFields_iff (fields fields' : List (JsText × JsValue)) (h : KeyedFields fields)
    (h' : KeyedFields fields') :
    SameFields fields fields' ↔
      ∀ field ∈ fields, ∃ value', (field.1, value') ∈ fields' ∧ normal field.2 = normal value' := by
  cases fields with
  | nil => simp [SameFields]
  | cons field fields =>
    have hvalue : (∃ value', (field.1, value') ∈ fields' ∧ Same field.2 value') ↔
        ∃ value', (field.1, value') ∈ fields' ∧ normal field.2 = normal value' := by
      apply exists_congr
      intro value'
      apply and_congr_right
      intro hmem
      exact same_iff_normal field.2 value' h.1 ((keyedFields_iff _).1 h' _ hmem)
    rw [forall_mem_cons, SameFields, hvalue, sameFields_iff fields fields' h.2 h']

end

mutual

theorem normal_unsigned (v : JsValue) : normal (unsigned v) = normal v := by
  cases v with
  | num x =>
    show JsValue.num x.positiveZero.positiveZero = JsValue.num x.positiveZero
    rw [Double.value_eq_iff.1 x.value_positiveZero]
  | arr items => rw [unsigned, normal_arr, normal_arr, map_normal_unsignedItems]
  | obj fields => rw [unsigned, normal_obj, normal_obj, map_normal_unsignedFields]
  | null => rfl
  | bool b => rfl
  | str s => rfl
  | other what => rfl

theorem map_normal_unsignedItems (items : List JsValue) :
    (unsignedItems items).map normal = items.map normal := by
  cases items with
  | nil => rfl
  | cons item items =>
    rw [unsignedItems, map_cons, map_cons, normal_unsigned item, map_normal_unsignedItems items]

theorem map_normal_unsignedFields (fields : List (JsText × JsValue)) :
    ((unsignedFields fields).map fun field => (field.1, normal field.2)) =
      fields.map fun field => (field.1, normal field.2) := by
  cases fields with
  | nil => rfl
  | cons field fields =>
    rw [unsignedFields, map_cons, map_cons, normal_unsigned field.2,
      map_normal_unsignedFields fields]

end

mutual

theorem keyed_unsigned (v : JsValue) (h : Keyed v) : Keyed (unsigned v) := by
  cases v with
  | arr items => exact keyed_unsignedItems items h
  | obj fields =>
    refine ⟨?_, keyed_unsignedFields fields h.2⟩
    rw [keys_unsignedFields]
    exact h.1
  | _ => trivial

theorem keyed_unsignedItems (items : List JsValue) (h : KeyedItems items) :
    KeyedItems (unsignedItems items) := by
  cases items with
  | nil => trivial
  | cons item items => exact ⟨keyed_unsigned item h.1, keyed_unsignedItems items h.2⟩

theorem keyed_unsignedFields (fields : List (JsText × JsValue)) (h : KeyedFields fields) :
    KeyedFields (unsignedFields fields) := by
  cases fields with
  | nil => trivial
  | cons field fields => exact ⟨keyed_unsigned field.2 h.1, keyed_unsignedFields fields h.2⟩

end

theorem same_unsigned {v : JsValue} (h : Keyed v) : Same (unsigned v) v :=
  (same_iff_normal _ _ (keyed_unsigned v h) h).2 (normal_unsigned v)

theorem sameFields_iff_forall (fields fields' : List (JsText × JsValue)) :
    SameFields fields fields' ↔
      ∀ field ∈ fields, ∃ value', (field.1, value') ∈ fields' ∧ Same field.2 value' := by
  induction fields with
  | nil => simp [SameFields]
  | cons field fields ih => rw [SameFields, ih, forall_mem_cons]

theorem text_eq_iff {a b : JsValue} (ha : Keyed a) (hb : Keyed b) (hja : IsJson a)
    (hjb : IsJson b) : text (sortedKeys a) = text (sortedKeys b) ↔ Same a b := by
  rw [same_iff_normal a b ha hb]
  constructor
  · intro htext
    have hparse := parse_text (keyed_sortedKeys a ha) ((isJson_sortedKeys a).2 hja)
    rw [htext, parse_text (keyed_sortedKeys b hb) ((isJson_sortedKeys b).2 hjb)] at hparse
    exact (Option.some.inj hparse).symm
  · intro hnormal
    rw [← text_unsigned (sortedKeys a), ← text_unsigned (sortedKeys b)]
    exact congrArg text hnormal

end General.JsValue
