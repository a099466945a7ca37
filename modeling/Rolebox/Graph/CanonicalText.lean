import Rolebox.General.JsEqual
import Rolebox.Graph.ContractDigest

/-! The canonical writer over every JavaScript value, and the values it refuses. -/

namespace Rolebox.Graph.Canonical
open General JsValue List

/-- Why a primitive without JSON text is refused. -/
def unrepresentable (what : NonJson) (path : String) : String :=
  match what with
  | .undefined => "contract-digest: undefined at " ++ path ++
      " is not representable — a digest never silently drops or nulls a value"
  | .notANumber => "contract-digest: NaN at " ++ path ++
      " is not a finite JSON number — the canonical form cannot represent it"
  | .infinity negative => "contract-digest: " ++ (if negative then "-" else "") ++ "Infinity at " ++
      path ++ " is not a finite JSON number — the canonical form cannot represent it"
  | .bigint => "contract-digest: a BigInt at " ++ path ++
      " is not representable — convert it to a string or number first"
  | .symbol => "contract-digest: a symbol at " ++ path ++
      " is not representable — the canonical form has no symbol value"
  | .function => "contract-digest: a function at " ++ path ++
      " is not representable — a contract is data, never executable code"

mutual

def writeCanonical (value : JsValue) (path : String) (depth : Nat) (buffer : CanonicalBuffer) :
    Except String CanonicalBuffer :=
  if CONTRACT_DIGEST_MAX_DEPTH < depth then .error (exceedsDepth path)
  else
    match value with
    | .null => appendCanonical buffer "null" path
    | .str s => appendCanonical buffer (String.ofList (JsText.quoted s)) path
    | .num x => appendCanonical buffer (String.ofList x.numberText) path
    | .bool b => appendCanonical buffer (if b then "true" else "false") path
    | .other what => .error (unrepresentable what path)
    | .arr items => do
      let opened ← appendCanonical buffer "[" path
      let written ← writeCanonicalArray items path depth 0 opened
      appendCanonical written "]" path
    | .obj fields => do
      let opened ← appendCanonical buffer "\x7b" path
      let written ← writeCanonicalObject fields path depth false opened
      appendCanonical written "\x7d" path

def writeCanonicalArray (items : List JsValue) (path : String) (depth index : Nat)
    (buffer : CanonicalBuffer) : Except String CanonicalBuffer :=
  match items with
  | [] => .ok buffer
  | item :: items => do
    let apart ← (if 0 < index then appendCanonical buffer "," path else .ok buffer)
    let written ← writeCanonical item (path ++ "[" ++ toString index ++ "]") (depth + 1) apart
    writeCanonicalArray items path depth (index + 1) written

def writeCanonicalObject (fields : List (JsText × JsValue)) (path : String) (depth : Nat)
    (separated : Bool) (buffer : CanonicalBuffer) : Except String CanonicalBuffer :=
  match fields with
  | [] => .ok buffer
  | (key, value) :: fields => do
    let apart ← (if separated then appendCanonical buffer "," path else .ok buffer)
    let named ← appendCanonical apart (String.ofList (JsText.quoted key) ++ ":") path
    let written ← writeCanonical value
      (path ++ "[" ++ String.ofList (JsText.quoted key) ++ "]") (depth + 1) named
    writeCanonicalObject fields path depth true written

end

def canonicalText (body : JsValue) : Except String String := do
  let buffer ← writeCanonical body.sortedKeys "$" 0 { text := "", length := 0 }
  if CONTRACT_DIGEST_MAX_BYTES < buffer.text.utf8ByteSize then throw (exceedsBytes "$")
  return buffer.text

def contractDigest (sha256 : ByteArray → String) (body : JsValue) : Except String String := do
  let canonical ← canonicalText body
  return sha256 canonical.toByteArray

mutual

def levels : JsValue → Nat
  | .null => 0
  | .bool _ => 0
  | .num _ => 0
  | .str _ => 0
  | .arr items => itemsLevels items
  | .obj fields => fieldsLevels fields
  | .other _ => 0

def itemsLevels : List JsValue → Nat
  | [] => 0
  | item :: items => max (levels item + 1) (itemsLevels items)

def fieldsLevels : List (JsText × JsValue) → Nat
  | [] => 0
  | (_, value) :: fields => max (levels value + 1) (fieldsLevels fields)

end

section Written
open Writes

theorem separatorText (separated : Bool) :
    String.ofList (if separated then [','] else []) = if separated then "," else "" := by
  cases separated <;> rfl

mutual

/-- A value is written exactly when it is JSON data within the bounds, and as its JSON text. -/
theorem writeCanonical_writes (value : JsValue) (path : String) (depth : Nat) :
    Writes (writeCanonical value path depth)
      (IsJson value ∧ depth + levels value ≤ CONTRACT_DIGEST_MAX_DEPTH)
      (String.ofList (text value)) := by
  cases value with
  | null | num x | str s => exact (writeScalar _ path depth).congr (by simp [IsJson, levels])
  | bool b =>
    have htext : String.ofList (text (.bool b)) = if b then "true" else "false" := by
      cases b <;> rfl
    rw [htext]
    exact (writeScalar _ path depth).congr (by simp [IsJson, levels])
  | arr items =>
    have hitems := writeCanonicalArray_writes items path depth 0
    have hwritten := (Writes.append "[" path).bind (hitems.bind (.append "]" path))
    have htext : String.ofList (text (.arr items)) =
        "[" ++ (String.ofList (JsValue.itemsText false items) ++ "]") := by
      rw [text, ← singleton_append, String.ofList_append, String.ofList_append]
    rw [htext]
    refine (hwritten.guarded depth (exceedsDepth path)).congr ?_
    rw [IsJson, levels]
    simp only [true_and, and_true]
    rw [and_left_comm]
    exact and_congr Iff.rfl (by omega)
  | obj fields =>
    have hfields := writeCanonicalObject_writes fields path depth false
    have hwritten := (Writes.append "\x7b" path).bind (hfields.bind (.append "\x7d" path))
    have htext : String.ofList (text (.obj fields)) =
        "\x7b" ++ (String.ofList (JsValue.fieldsText false fields) ++ "\x7d") := by
      rw [text, ← singleton_append, String.ofList_append, String.ofList_append]
    rw [htext]
    refine (hwritten.guarded depth (exceedsDepth path)).congr ?_
    rw [IsJson, levels]
    simp only [true_and, and_true]
    rw [and_left_comm]
    exact and_congr Iff.rfl (by omega)
  | other what =>
    intro buffer written _
    have hrefused : ∀ message, (if CONTRACT_DIGEST_MAX_DEPTH < depth then
        Except.error (exceedsDepth path) else Except.error message) ≠ Except.ok written := by
      intro message h
      split at h <;> cases h
    constructor
    · intro h
      exact absurd h (hrefused _)
    · intro h
      exact h.1.1.elim

theorem writeCanonicalArray_writes (items : List JsValue) (path : String) (depth index : Nat) :
    Writes (writeCanonicalArray items path depth index)
      (JsonItems items ∧
        (itemsLevels items = 0 ∨ depth + itemsLevels items ≤ CONTRACT_DIGEST_MAX_DEPTH))
      (String.ofList (JsValue.itemsText (decide (0 < index)) items)) := by
  cases items with
  | nil => exact Writes.skip.congr (by simp [JsonItems, itemsLevels])
  | cons item items =>
    have hsep : Writes
        (fun buffer => if 0 < index then appendCanonical buffer "," path else .ok buffer) True
        (if decide (0 < index) then "," else "") := by
      simpa only [decide_eq_true_eq] using Writes.separator (decide (0 < index)) path
    have hitem := writeCanonical_writes item (path ++ "[" ++ toString index ++ "]") (depth + 1)
    have hrest := writeCanonicalArray_writes items path depth (index + 1)
    rw [decide_eq_true (Nat.succ_pos index)] at hrest
    rw [JsValue.itemsText, String.ofList_append, String.ofList_append, separatorText]
    refine (hsep.bind (hitem.bind hrest)).congr ?_
    rw [JsonItems, itemsLevels, true_and, and_and_and_comm]
    exact and_congr Iff.rfl (by omega)

theorem writeCanonicalObject_writes (fields : List (JsText × JsValue)) (path : String)
    (depth : Nat) (separated : Bool) :
    Writes (writeCanonicalObject fields path depth separated)
      (JsonFields fields ∧
        (fieldsLevels fields = 0 ∨ depth + fieldsLevels fields ≤ CONTRACT_DIGEST_MAX_DEPTH))
      (String.ofList (JsValue.fieldsText separated fields)) := by
  cases fields with
  | nil => exact Writes.skip.congr (by simp [JsonFields, fieldsLevels])
  | cons field fields =>
    obtain ⟨key, value⟩ := field
    have hsep := Writes.separator separated path
    have hname := Writes.append (String.ofList (JsText.quoted key) ++ ":") path
    have hvalue := writeCanonical_writes value
      (path ++ "[" ++ String.ofList (JsText.quoted key) ++ "]") (depth + 1)
    have hrest := writeCanonicalObject_writes fields path depth true
    have htext : String.ofList (JsValue.fieldsText separated ((key, value) :: fields)) =
        (if separated then "," else "") ++ (String.ofList (JsText.quoted key) ++ ":" ++
          (String.ofList (text value) ++ String.ofList (JsValue.fieldsText true fields))) := by
      rw [JsValue.fieldsText, String.ofList_append, separatorText, String.ofList_append,
        ← singleton_append, String.ofList_append, String.ofList_append,
        show String.ofList [':'] = ":" from rfl]
      simp only [String.append_assoc]
    rw [htext]
    refine (hsep.bind (hname.bind (hvalue.bind hrest))).congr ?_
    rw [JsonFields, fieldsLevels, true_and, true_and, and_and_and_comm]
    exact and_congr Iff.rfl (by omega)

end

end Written

/-- A body within the bounds has as canonical text its JSON text with the keys in order. -/
theorem canonicalText_ok {body : JsValue} {canonical : String} :
    canonicalText body = .ok canonical ↔
      (IsJson body ∧ levels body.sortedKeys ≤ CONTRACT_DIGEST_MAX_DEPTH) ∧
        (String.ofList body.sortedKeys.text).utf8ByteSize ≤ CONTRACT_DIGEST_MAX_BYTES ∧
        canonical = String.ofList body.sortedKeys.text := by
  have hwrites := writeCanonical_writes body.sortedKeys "$" 0 { text := "", length := 0 }
  have htext : ∀ text : String,
      (({ text := "", length := 0 } : CanonicalBuffer).extend text).text = text := by
    intro text
    simp [CanonicalBuffer.extend]
  have hunits := codeUnits_length_le (String.ofList body.sortedKeys.text)
  rw [← isJson_sortedKeys]
  unfold canonicalText
  rw [bind_eq_ok]
  constructor
  · rintro ⟨buffer, hbuffer, hcanonical⟩
    obtain ⟨⟨hjson, hlevels⟩, -, rfl⟩ := (hwrites _ (Nat.zero_le _)).1 hbuffer
    rw [htext] at hcanonical
    split at hcanonical
    · cases hcanonical
    next hsize =>
    exact ⟨⟨hjson, by omega⟩, not_lt.1 hsize, (Except.ok.inj hcanonical).symm⟩
  · rintro ⟨⟨hjson, hlevels⟩, hbytes, rfl⟩
    refine ⟨_, (hwrites _ (Nat.zero_le _)).2 ⟨⟨hjson, by omega⟩, ?_, rfl⟩, ?_⟩
    · simp only [CanonicalBuffer.extend]
      omega
    · rw [htext, if_neg (not_lt.2 hbytes)]
      rfl

mutual

theorem writeCanonical_unsigned (value : JsValue) (path : String) (depth : Nat) :
    writeCanonical value.unsigned path depth = writeCanonical value path depth := by
  funext buffer
  cases value with
  | num x =>
    have htext := text_unsigned (.num x)
    rw [unsigned, text, text] at htext
    rw [unsigned, writeCanonical, writeCanonical, htext]
  | arr items => rw [unsigned, writeCanonical, writeCanonical, writeCanonicalArray_unsigned]
  | obj fields => rw [unsigned, writeCanonical, writeCanonical, writeCanonicalObject_unsigned]
  | null => rfl
  | bool b => rfl
  | str s => rfl
  | other what => rfl

theorem writeCanonicalArray_unsigned (items : List JsValue) (path : String) (depth index : Nat) :
    writeCanonicalArray (unsignedItems items) path depth index =
      writeCanonicalArray items path depth index := by
  funext buffer
  cases items with
  | nil => rfl
  | cons item items =>
    rw [unsignedItems, writeCanonicalArray, writeCanonicalArray, writeCanonical_unsigned item,
      writeCanonicalArray_unsigned items]

theorem writeCanonicalObject_unsigned (fields : List (JsText × JsValue)) (path : String)
    (depth : Nat) (separated : Bool) :
    writeCanonicalObject (unsignedFields fields) path depth separated =
      writeCanonicalObject fields path depth separated := by
  funext buffer
  cases fields with
  | nil => rfl
  | cons field fields =>
    rw [unsignedFields, writeCanonicalObject, writeCanonicalObject, writeCanonical_unsigned field.2,
      writeCanonicalObject_unsigned fields]

end

theorem canonicalText_of_same {a b : JsValue} (ha : Keyed a) (hb : Keyed b) (h : Same a b) :
    canonicalText a = canonicalText b := by
  have hnormal : a.sortedKeys.unsigned = b.sortedKeys.unsigned := (same_iff_normal a b ha hb).1 h
  have hwrite := writeCanonical_unsigned a.sortedKeys "$" 0
  rw [hnormal, writeCanonical_unsigned] at hwrite
  rw [canonicalText, canonicalText, hwrite]

theorem canonicalText_eq_iff {a b : JsValue} (ha : Keyed a) (hb : Keyed b) {s t : String}
    (hs : canonicalText a = .ok s) (ht : canonicalText b = .ok t) : s = t ↔ Same a b := by
  obtain ⟨⟨hja, -⟩, -, rfl⟩ := canonicalText_ok.1 hs
  obtain ⟨⟨hjb, -⟩, -, rfl⟩ := canonicalText_ok.1 ht
  rw [String.ofList_inj]
  exact text_eq_iff ha hb hja hjb

theorem canonicalText_parse {v : JsValue} (hv : Keyed v) {s : String}
    (hs : canonicalText v = .ok s) :
    ∃ read, JsValue.parse v.text = some read ∧ canonicalText read = .ok s := by
  obtain ⟨⟨hjson, -⟩, -⟩ := canonicalText_ok.1 hs
  refine ⟨v.unsigned, parse_text hv hjson, ?_⟩
  rw [canonicalText_of_same (keyed_unsigned v hv) hv (same_unsigned hv), hs]

theorem contractDigest_ok {sha256 : ByteArray → String} {body : JsValue} {digest : String} :
    contractDigest sha256 body = .ok digest ↔
      ∃ canonical, canonicalText body = .ok canonical ∧ digest = sha256 canonical.toByteArray := by
  unfold contractDigest
  rw [bind_eq_ok]
  constructor
  · rintro ⟨canonical, hcanonical, hdigest⟩
    exact ⟨canonical, hcanonical, (Except.ok.inj hdigest).symm⟩
  · rintro ⟨canonical, hcanonical, rfl⟩
    exact ⟨canonical, hcanonical, rfl⟩

end Rolebox.Graph.Canonical
