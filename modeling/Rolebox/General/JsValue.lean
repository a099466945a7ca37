import Rolebox.General.JsText
import Rolebox.General.Keyed
import Rolebox.General.NumberText

/-! JavaScript values as trees, the JSON text of data, and the reading of a JSON text. -/

namespace General
open List

inductive NonJson where
  | undefined
  | notANumber
  | infinity (negative : Bool)
  | bigint
  | symbol
  | function

inductive JsValue where
  | null
  | bool (b : Bool)
  | num (x : Double)
  | str (s : JsText)
  | arr (items : List JsValue)
  | obj (fields : List (JsText × JsValue))
  | other (what : NonJson)

namespace JsValue

mutual

/-- Every object names each of its keys once. -/
def Keyed : JsValue → Prop
  | .null => True
  | .bool _ => True
  | .num _ => True
  | .str _ => True
  | .arr items => KeyedItems items
  | .obj fields => (fields.map Prod.fst).Nodup ∧ KeyedFields fields
  | .other _ => True

def KeyedItems : List JsValue → Prop
  | [] => True
  | item :: items => Keyed item ∧ KeyedItems items

def KeyedFields : List (JsText × JsValue) → Prop
  | [] => True
  | (_, value) :: fields => Keyed value ∧ KeyedFields fields

end

mutual

def IsJson : JsValue → Prop
  | .null => True
  | .bool _ => True
  | .num _ => True
  | .str _ => True
  | .arr items => JsonItems items
  | .obj fields => JsonFields fields
  | .other _ => False

def JsonItems : List JsValue → Prop
  | [] => True
  | item :: items => IsJson item ∧ JsonItems items

def JsonFields : List (JsText × JsValue) → Prop
  | [] => True
  | (_, value) :: fields => IsJson value ∧ JsonFields fields

end

mutual

def unsigned : JsValue → JsValue
  | .null => .null
  | .bool b => .bool b
  | .num x => .num x.positiveZero
  | .str s => .str s
  | .arr items => .arr (unsignedItems items)
  | .obj fields => .obj (unsignedFields fields)
  | .other what => .other what

def unsignedItems : List JsValue → List JsValue
  | [] => []
  | item :: items => unsigned item :: unsignedItems items

def unsignedFields : List (JsText × JsValue) → List (JsText × JsValue)
  | [] => []
  | (key, value) :: fields => (key, unsigned value) :: unsignedFields fields

end

mutual

/-- `JSON.stringify` of JSON data. -/
def text : JsValue → List Char
  | .null => ['n', 'u', 'l', 'l']
  | .bool b => if b then ['t', 'r', 'u', 'e'] else ['f', 'a', 'l', 's', 'e']
  | .num x => x.numberText
  | .str s => JsText.quoted s
  | .arr items => '[' :: (itemsText false items ++ [']'])
  | .obj fields => '\x7b' :: (fieldsText false fields ++ ['\x7d'])
  | .other _ => []

def itemsText (separated : Bool) : List JsValue → List Char
  | [] => []
  | item :: items => (if separated then [','] else []) ++ (text item ++ itemsText true items)

def fieldsText (separated : Bool) : List (JsText × JsValue) → List Char
  | [] => []
  | (key, value) :: fields =>
    (if separated then [','] else []) ++
      (JsText.quoted key ++ (':' :: (text value ++ fieldsText true fields)))

end

def skipSpace (l : List Char) : List Char :=
  l.dropWhile fun c => c = ' ' || c = '\t' || c = '\n' || c = '\r'

def readWord (word : List Char) (value : JsValue) (l : List Char) : Option (JsValue × List Char) :=
  if word.isPrefixOf l then some (value, l.drop word.length) else none

def ofNumber (negative : Bool) (q : ℚ) : JsValue :=
  if h : nearest q < infinityPlace then .num ⟨negative, nearest q, h⟩
  else .other (.infinity negative)

def ownFields (fields : List (JsText × JsValue)) : List (JsText × JsValue) :=
  fields.foldl (fun own field => assign field.1 field.2 own) []

mutual

/-- `JSON.parse` at the start of a text: the value there and what follows. -/
def readValue : Nat → List Char → Option (JsValue × List Char)
  | 0, _ => none
  | fuel + 1, l =>
    match skipSpace l with
    | [] => none
    | c :: rest =>
      if c = '"' then (JsText.readString fuel rest).map fun read => (.str read.1, read.2)
      else if c = '[' then
        match skipSpace rest with
        | ']' :: rest => some (.arr [], rest)
        | rest => (readItems fuel rest).map fun read => (.arr read.1, read.2)
      else if c = '\x7b' then
        match skipSpace rest with
        | '\x7d' :: rest => some (.obj [], rest)
        | rest => (readFields fuel rest).map fun read => (.obj (ownFields read.1), read.2)
      else if c = 'n' then readWord ['u', 'l', 'l'] .null rest
      else if c = 't' then readWord ['r', 'u', 'e'] (.bool true) rest
      else if c = 'f' then readWord ['a', 'l', 's', 'e'] (.bool false) rest
      else (readNumber (c :: rest)).map fun read => (ofNumber read.1.1 read.1.2, read.2)

def readItems : Nat → List Char → Option (List JsValue × List Char)
  | 0, _ => none
  | fuel + 1, l =>
    (readValue fuel l).bind fun item =>
      match skipSpace item.2 with
      | ',' :: rest => (readItems fuel rest).map fun read => (item.1 :: read.1, read.2)
      | ']' :: rest => some ([item.1], rest)
      | _ => none

def readFields : Nat → List Char → Option (List (JsText × JsValue) × List Char)
  | 0, _ => none
  | fuel + 1, l =>
    match skipSpace l with
    | '"' :: rest =>
      (JsText.readString fuel rest).bind fun key =>
        match skipSpace key.2 with
        | ':' :: rest =>
          (readValue fuel rest).bind fun value =>
            match skipSpace value.2 with
            | ',' :: rest =>
              (readFields fuel rest).map fun read => ((key.1, value.1) :: read.1, read.2)
            | '\x7d' :: rest => some ([(key.1, value.1)], rest)
            | _ => none
        | _ => none
    | _ => none

end

def parse (l : List Char) : Option JsValue :=
  (readValue (l.length + 1) l).bind fun read =>
    if skipSpace read.2 = [] then some read.1 else none

section RoundTrip

def Follows (rest : List Char) : Prop := ∀ c ∈ rest.head?, c = ',' ∨ c = ']' ∨ c = '\x7d'

def Starts (c : Char) : Prop := c ∈ ['n', 't', 'f', '"', '[', '\x7b', '-'] ∨ c.isDigit = true

variable {c : Char}

theorem follows_cons (h : c = ',' ∨ c = ']' ∨ c = '\x7d') (rest : List Char) :
    Follows (c :: rest) := by
  intro d hd
  obtain rfl : c = d := Option.some.inj hd
  exact h

theorem Follows.ends {rest : List Char} (h : Follows rest) : Ends rest := by
  intro c hc
  rcases h c hc with rfl | rfl | rfl <;> decide

theorem Starts.plain (h : Starts c) (l : List Char) :
    skipSpace (c :: l) = c :: l ∧ c ≠ ']' ∧ c ≠ '\x7d' := by
  have hplain : ¬ (c = ' ' ∨ c = '\t' ∨ c = '\n' ∨ c = '\r') ∧ c ≠ ']' ∧ c ≠ '\x7d' := by
    rcases h with h | h
    · simp only [mem_cons, not_mem_nil, or_false] at h
      rcases h with rfl | rfl | rfl | rfl | rfl | rfl | rfl <;> decide
    · refine ⟨?_, ?_, ?_⟩
      · rintro (rfl | rfl | rfl | rfl) <;> exact absurd h (by decide)
      · rintro rfl
        exact absurd h (by decide)
      · rintro rfl
        exact absurd h (by decide)
  refine ⟨dropWhile_cons_of_neg ?_, hplain.2⟩
  simpa [and_assoc] using hplain.1

theorem text_head {v : JsValue} (h : IsJson v) : ∃ c l, text v = c :: l ∧ Starts c := by
  cases v with
  | null => exact ⟨'n', _, rfl, .inl (by decide)⟩
  | bool b =>
    cases b with
    | true => exact ⟨'t', _, rfl, .inl (by decide)⟩
    | false => exact ⟨'f', _, rfl, .inl (by decide)⟩
  | num x =>
    obtain ⟨c, l, htext, hc⟩ := numberText_head x
    refine ⟨c, l, htext, ?_⟩
    rcases hc with rfl | hc
    · exact .inl (by decide)
    · exact .inr hc
  | str s => exact ⟨'"', _, rfl, .inl (by decide)⟩
  | arr items => exact ⟨'[', _, rfl, .inl (by decide)⟩
  | obj fields => exact ⟨'\x7b', _, rfl, .inl (by decide)⟩
  | other what => exact h.elim

theorem ofNumber_nearest {x : Double} {q : ℚ} (h : nearest q = x.place) :
    ofNumber x.positiveZero.negative q = .num x.positiveZero := by
  have hfinite := x.finite
  unfold ofNumber
  rw [dif_pos (h ▸ hfinite)]
  congr 1
  rw [Double.mk.injEq]
  exact ⟨rfl, h.trans x.place_positiveZero.symm⟩

variable {fuel : Nat}

theorem readValue_number {l : List Char} (h : c = '-' ∨ c.isDigit = true) :
    readValue (fuel + 1) (c :: l) =
      (readNumber (c :: l)).map fun read => (ofNumber read.1.1 read.1.2, read.2) := by
  have hstarts : Starts c := by
    rcases h with rfl | h
    · exact .inl (by decide)
    · exact .inr h
  have hword : c ≠ '"' ∧ c ≠ '[' ∧ c ≠ '\x7b' ∧ c ≠ 'n' ∧ c ≠ 't' ∧ c ≠ 'f' := by
    refine ⟨?_, ?_, ?_, ?_, ?_, ?_⟩ <;> rintro rfl <;> exact absurd h (by decide)
  obtain ⟨hquote, hbracket, hbrace, hn, ht, hf⟩ := hword
  rw [readValue, (hstarts.plain l).1]
  simp only [if_neg hquote, if_neg hbracket, if_neg hbrace, if_neg hn, if_neg ht, if_neg hf]

theorem ownFields_eq {fields : List (JsText × JsValue)} (h : (fields.map Prod.fst).Nodup) :
    ownFields fields = fields := by
  have hown := @foldl_assign_eq _ _ _ fields [] (by simpa using h)
  rwa [nil_append] at hown

theorem keys_unsignedFields (fields : List (JsText × JsValue)) :
    (unsignedFields fields).map Prod.fst = fields.map Prod.fst := by
  induction fields with
  | nil => rfl
  | cons field fields ih =>
    obtain ⟨key, value⟩ := field
    rw [unsignedFields, map_cons, map_cons, ih]

theorem readValue_items (h : Starts c) (fuel : Nat) (l : List Char) :
    readValue (fuel + 1) ('[' :: c :: l) =
      (readItems fuel (c :: l)).map fun read => (.arr read.1, read.2) := by
  have hread : readValue (fuel + 1) ('[' :: c :: l) =
      match skipSpace (c :: l) with
      | ']' :: rest => some (.arr [], rest)
      | rest => (readItems fuel rest).map fun read => (.arr read.1, read.2) := rfl
  rw [hread, (h.plain l).1]
  split
  · next hclose => exact absurd (List.cons.inj hclose).1 (h.plain l).2.1
  · rfl

theorem readValue_fields (fuel : Nat) (l : List Char) :
    readValue (fuel + 1) ('\x7b' :: '"' :: l) =
      (readFields fuel ('"' :: l)).map fun read => (.obj (ownFields read.1), read.2) := rfl

theorem readItems_next {l rest : List Char} {item : JsValue}
    (h : readValue fuel l = some (item, ',' :: rest)) :
    readItems (fuel + 1) l = (readItems fuel rest).map fun read => (item :: read.1, read.2) := by
  rw [readItems, h]
  rfl

theorem readItems_last {l rest : List Char} {item : JsValue}
    (h : readValue fuel l = some (item, ']' :: rest)) :
    readItems (fuel + 1) l = some ([item], rest) := by
  rw [readItems, h]
  rfl

theorem readFields_next {l rest rest' : List Char} {key : JsText} {value : JsValue}
    (hkey : JsText.readString fuel l = some (key, ':' :: rest))
    (hvalue : readValue fuel rest = some (value, ',' :: rest')) :
    readFields (fuel + 1) ('"' :: l) =
      (readFields fuel rest').map fun read => ((key, value) :: read.1, read.2) := by
  have hcolon : skipSpace (':' :: rest) = ':' :: rest := rfl
  have hcomma : skipSpace (',' :: rest') = ',' :: rest' := rfl
  rw [readFields, show skipSpace ('"' :: l) = '"' :: l from rfl]
  simp only [hkey, Option.bind_some, hcolon, hvalue, hcomma]

theorem readFields_last {l rest rest' : List Char} {key : JsText} {value : JsValue}
    (hkey : JsText.readString fuel l = some (key, ':' :: rest))
    (hvalue : readValue fuel rest = some (value, '\x7d' :: rest')) :
    readFields (fuel + 1) ('"' :: l) = some ([(key, value)], rest') := by
  have hcolon : skipSpace (':' :: rest) = ':' :: rest := rfl
  have hclose : skipSpace ('\x7d' :: rest') = '\x7d' :: rest' := rfl
  rw [readFields, show skipSpace ('"' :: l) = '"' :: l from rfl]
  simp only [hkey, Option.bind_some, hcolon, hvalue, hclose]

mutual

theorem readValue_text (v : JsValue) (hkeyed : Keyed v) (hjson : IsJson v) (rest : List Char)
    (fuel : Nat) (hfuel : (text v).length < fuel) (hrest : Follows rest) :
    readValue fuel (text v ++ rest) = some (unsigned v, rest) := by
  obtain ⟨fuel, rfl⟩ : ∃ k, fuel = k + 1 := ⟨fuel - 1, by omega⟩
  cases v with
  | null => rfl
  | bool b => cases b <;> rfl
  | num x =>
    obtain ⟨c, l, htext, hc⟩ := numberText_head x
    obtain ⟨q, hread, hnearest⟩ := readNumber_numberText x hrest.ends
    rw [htext] at hread
    rw [text, htext, cons_append, readValue_number hc, ← cons_append, hread,
      Option.map_some, ofNumber_nearest hnearest]
    rfl
  | str s =>
    rw [text, JsText.quoted, length_cons, length_append] at hfuel
    have hread := @JsText.readString_escapedAll fuel s rest (by omega)
    rw [text, JsText.quoted, cons_append, append_assoc]
    show (JsText.readString fuel (JsText.escapedAll s ++ '"' :: rest)).map _ = _
    rw [hread]
    rfl
  | arr items =>
    cases items with
    | nil => rfl
    | cons item items =>
      have hitems := readItems_text (item :: items) hkeyed hjson rest fuel (cons_ne_nil _ _)
        (by
          rw [text, length_cons, length_append, length_singleton] at hfuel
          omega)
      obtain ⟨c, l, htext, hc⟩ := text_head hjson.1
      rw [text, cons_append, append_assoc, singleton_append]
      rw [itemsText, if_neg Bool.false_ne_true, nil_append, htext] at hitems ⊢
      rw [cons_append, cons_append] at hitems ⊢
      rw [readValue_items hc, hitems]
      rfl
  | obj fields =>
    cases fields with
    | nil => rfl
    | cons field fields =>
      have hfields := readFields_text (field :: fields) hkeyed.2 hjson rest fuel
        (cons_ne_nil _ _)
        (by
          rw [text, length_cons, length_append, length_singleton] at hfuel
          omega)
      obtain ⟨key, value⟩ := field
      rw [text, cons_append, append_assoc, singleton_append]
      rw [fieldsText, if_neg Bool.false_ne_true, nil_append, JsText.quoted, cons_append,
        cons_append] at hfields ⊢
      rw [readValue_fields, hfields, Option.map_some, ownFields_eq]
      · rfl
      · rw [keys_unsignedFields]
        exact hkeyed.1
  | other what => exact hjson.elim

theorem readItems_text (items : List JsValue) (hkeyed : KeyedItems items)
    (hjson : JsonItems items) (rest : List Char) (fuel : Nat) (hne : items ≠ [])
    (hfuel : (itemsText false items).length + 1 < fuel) :
    readItems fuel (itemsText false items ++ ']' :: rest) = some (unsignedItems items, rest) := by
  obtain ⟨fuel, rfl⟩ : ∃ k, fuel = k + 1 := ⟨fuel - 1, by omega⟩
  cases items with
  | nil => exact absurd rfl hne
  | cons item items =>
    rw [itemsText, if_neg Bool.false_ne_true, nil_append] at hfuel ⊢
    rw [length_append] at hfuel
    rw [append_assoc]
    cases items with
    | nil =>
      have hitem := readValue_text item hkeyed.1 hjson.1 (']' :: rest) fuel (by omega)
        (follows_cons (by decide) _)
      exact readItems_last hitem
    | cons next items =>
      have hcomma : itemsText true (next :: items) = ',' :: itemsText false (next :: items) := rfl
      rw [hcomma, length_cons] at hfuel
      have hitem := readValue_text item hkeyed.1 hjson.1
        (',' :: (itemsText false (next :: items) ++ ']' :: rest)) fuel (by omega)
        (follows_cons (by decide) _)
      have hitems := readItems_text (next :: items) hkeyed.2 hjson.2 rest fuel
        (cons_ne_nil _ _) (by omega)
      rw [hcomma, cons_append, readItems_next hitem, hitems]
      rfl

theorem readFields_text (fields : List (JsText × JsValue)) (hkeyed : KeyedFields fields)
    (hjson : JsonFields fields) (rest : List Char) (fuel : Nat) (hne : fields ≠ [])
    (hfuel : (fieldsText false fields).length + 1 < fuel) :
    readFields fuel (fieldsText false fields ++ '\x7d' :: rest) =
      some (unsignedFields fields, rest) := by
  obtain ⟨fuel, rfl⟩ : ∃ k, fuel = k + 1 := ⟨fuel - 1, by omega⟩
  cases fields with
  | nil => exact absurd rfl hne
  | cons field fields =>
    obtain ⟨key, value⟩ := field
    rw [fieldsText, if_neg Bool.false_ne_true, nil_append, JsText.quoted] at hfuel ⊢
    simp only [length_append, length_cons] at hfuel
    simp only [cons_append, append_assoc, nil_append]
    have hkey : ∀ tail, JsText.readString fuel (JsText.escapedAll key ++ '"' :: tail) =
        some (key, tail) := fun tail => JsText.readString_escapedAll key tail (by omega)
    cases fields with
    | nil =>
      have hvalue := readValue_text value hkeyed.1 hjson.1 ('\x7d' :: rest) fuel (by omega)
        (follows_cons (by decide) _)
      exact readFields_last (hkey _) hvalue
    | cons next fields =>
      have hcomma : fieldsText true (next :: fields) = ',' :: fieldsText false (next :: fields) := rfl
      rw [hcomma, length_cons] at hfuel
      have hvalue := readValue_text value hkeyed.1 hjson.1
        (',' :: (fieldsText false (next :: fields) ++ '\x7d' :: rest)) fuel (by omega)
        (follows_cons (by decide) _)
      have hfields := readFields_text (next :: fields) hkeyed.2 hjson.2 rest fuel
        (cons_ne_nil _ _) (by omega)
      rw [hcomma, cons_append, readFields_next (hkey _) hvalue, hfields]
      rfl

end

theorem parse_text {v : JsValue} (hkeyed : Keyed v) (hjson : IsJson v) :
    parse (text v) = some (unsigned v) := by
  have hread := readValue_text v hkeyed hjson [] ((text v).length + 1) (Nat.lt_succ_self _)
    (nofun)
  rw [append_nil] at hread
  rw [parse, hread]
  rfl

end RoundTrip

end JsValue
end General
