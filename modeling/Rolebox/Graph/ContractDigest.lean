import Mathlib.Algebra.GroupWithZero.Nat
import Rolebox.Graph.Domain

/-! The canonical text of a contract body, and the digest taken over it. -/

namespace Rolebox.Graph
open General List

def CONTRACT_DIGEST_MAX_BYTES : Nat := 1048576

def CONTRACT_DIGEST_MAX_DEPTH : Nat := 64

structure CanonicalBuffer where
  text : String
  length : Nat

def exceedsBytes (path : String) : String :=
  "contract-digest: canonical body exceeds the " ++ toString CONTRACT_DIGEST_MAX_BYTES ++
    "-byte bound at " ++ path ++ " — a digest is never computed over a truncated body"

def exceedsDepth (path : String) : String :=
  "contract-digest: body nests deeper than " ++ toString CONTRACT_DIGEST_MAX_DEPTH ++
    " containers at " ++ path ++
    " — a digest is never computed over a body the canonical form cannot fully represent"

def appendCanonical (buffer : CanonicalBuffer) (text path : String) :
    Except String CanonicalBuffer :=
  let length := buffer.length + (codeUnits text).length
  if CONTRACT_DIGEST_MAX_BYTES < length then .error (exceedsBytes path)
  else .ok { text := buffer.text ++ text, length := length }

mutual

def sortedKeys : Json → Json
  | .null => .null
  | .bool b => .bool b
  | .num q => .num q
  | .str s => .str s
  | .arr items => .arr (sortedItems items)
  | .obj fields => .obj (sortBy Prod.fst (sortedFields fields))

def sortedItems : List Json → List Json
  | [] => []
  | item :: items => sortedKeys item :: sortedItems items

def sortedFields : List (String × Json) → List (String × Json)
  | [] => []
  | (key, value) :: fields => (key, sortedKeys value) :: sortedFields fields

end

mutual

def writeCanonical (value : Json) (path : String) (depth : Nat) (buffer : CanonicalBuffer) :
    Except String CanonicalBuffer :=
  if CONTRACT_DIGEST_MAX_DEPTH < depth then .error (exceedsDepth path)
  else
    match value with
    | .null => appendCanonical buffer "null" path
    | .bool b => appendCanonical buffer (if b then "true" else "false") path
    | .num q => appendCanonical buffer (numberText q) path
    | .str s => appendCanonical buffer (quote s) path
    | .arr items => do
      let opened ← appendCanonical buffer "[" path
      let written ← writeCanonicalArray items path depth 0 opened
      appendCanonical written "]" path
    | .obj fields => do
      let opened ← appendCanonical buffer "\x7b" path
      let written ← writeCanonicalObject fields path depth false opened
      appendCanonical written "\x7d" path

def writeCanonicalArray (items : List Json) (path : String) (depth index : Nat)
    (buffer : CanonicalBuffer) : Except String CanonicalBuffer :=
  match items with
  | [] => .ok buffer
  | item :: items => do
    let apart ← (if 0 < index then appendCanonical buffer "," path else .ok buffer)
    let written ← writeCanonical item (path ++ "[" ++ toString index ++ "]") (depth + 1) apart
    writeCanonicalArray items path depth (index + 1) written

def writeCanonicalObject (fields : List (String × Json)) (path : String) (depth : Nat)
    (separated : Bool) (buffer : CanonicalBuffer) : Except String CanonicalBuffer :=
  match fields with
  | [] => .ok buffer
  | (key, value) :: fields => do
    let apart ← (if separated then appendCanonical buffer "," path else .ok buffer)
    let named ← appendCanonical apart (quote key ++ ":") path
    let written ← writeCanonical value (path ++ "[" ++ quote key ++ "]") (depth + 1) named
    writeCanonicalObject fields path depth true written

end

mutual

def canonicalText : Json → String
  | .null => "null"
  | .bool b => if b then "true" else "false"
  | .num q => numberText q
  | .str s => quote s
  | .arr items => "[" ++ (itemsText false items ++ "]")
  | .obj fields => "\x7b" ++ (fieldsText false fields ++ "\x7d")

def itemsText (separated : Bool) : List Json → String
  | [] => ""
  | item :: items =>
    (if separated then "," else "") ++ (canonicalText item ++ itemsText true items)

def fieldsText (separated : Bool) : List (String × Json) → String
  | [] => ""
  | (key, value) :: fields =>
    (if separated then "," else "") ++
      (quote key ++ ":" ++ (canonicalText value ++ fieldsText true fields))

end

mutual

def levels : Json → Nat
  | .null => 0
  | .bool _ => 0
  | .num _ => 0
  | .str _ => 0
  | .arr items => itemsLevels items
  | .obj fields => fieldsLevels fields

def itemsLevels : List Json → Nat
  | [] => 0
  | item :: items => max (levels item + 1) (itemsLevels items)

def fieldsLevels : List (String × Json) → Nat
  | [] => 0
  | (_, value) :: fields => max (levels value + 1) (fieldsLevels fields)

end

namespace CanonicalBuffer

def extend (buffer : CanonicalBuffer) (text : String) : CanonicalBuffer :=
  { text := buffer.text ++ text, length := buffer.length + (codeUnits text).length }

theorem codeUnits_append (s t : String) : codeUnits (s ++ t) = codeUnits s ++ codeUnits t := by
  simp [codeUnits]

section

variable (buffer : CanonicalBuffer)

theorem extend_extend (s t : String) : (buffer.extend s).extend t = buffer.extend (s ++ t) := by
  simp only [extend, codeUnits_append, length_append, String.append_assoc, Nat.add_assoc]

theorem extend_empty : buffer.extend "" = buffer := by
  simp [extend, codeUnits]

theorem length_le_extend (s : String) : buffer.length ≤ (buffer.extend s).length :=
  Nat.le_add_right _ _

end

theorem extend_prefix_le {buffer : CanonicalBuffer} {s t : String} {bound : Nat}
    (h : (buffer.extend (s ++ t)).length ≤ bound) : (buffer.extend s).length ≤ bound := by
  rw [← extend_extend] at h
  exact (length_le_extend _ t).trans h

end CanonicalBuffer

section Written
open CanonicalBuffer

def Writes (write : CanonicalBuffer → Except String CanonicalBuffer) (fits : Prop)
    (text : String) : Prop :=
  ∀ buffer written, buffer.length ≤ CONTRACT_DIGEST_MAX_BYTES →
    (write buffer = .ok written ↔
      fits ∧ (buffer.extend text).length ≤ CONTRACT_DIGEST_MAX_BYTES ∧
        written = buffer.extend text)

namespace Writes
variable {f g : CanonicalBuffer → Except String CanonicalBuffer} {P Q : Prop} {s t : String}

theorem append (text path : String) :
    Writes (fun buffer => appendCanonical buffer text path) True text := by
  intro buffer written _
  unfold appendCanonical extend
  dsimp only
  split
  · next h =>
    simp only [reduceCtorEq, false_iff, not_and]
    omega
  · next h => simp only [Except.ok.injEq, not_lt.1 h, true_and, eq_comm]

theorem skip : Writes .ok True "" := by
  intro buffer written hb
  simp only [extend_empty, hb, true_and, Except.ok.injEq, eq_comm]

theorem bind (hf : Writes f P s) (hg : Writes g Q t) :
    Writes (fun buffer => f buffer >>= g) (P ∧ Q) (s ++ t) := by
  intro buffer written hb
  rw [bind_eq_ok]
  constructor
  · rintro ⟨middle, hm, hw⟩
    obtain ⟨hP, hl, rfl⟩ := (hf _ _ hb).1 hm
    obtain ⟨hQ, ht, rfl⟩ := (hg _ _ hl).1 hw
    rw [extend_extend] at ht ⊢
    exact ⟨⟨hP, hQ⟩, ht, rfl⟩
  · rintro ⟨⟨hP, hQ⟩, hl, rfl⟩
    have hs := extend_prefix_le hl
    rw [← extend_extend] at hl ⊢
    exact ⟨_, (hf _ _ hb).2 ⟨hP, hs, rfl⟩, (hg _ _ hs).2 ⟨hQ, hl, rfl⟩⟩

theorem congr (hf : Writes f P s) (hPQ : P ↔ Q) : Writes f Q s := by
  intro buffer written hb
  rw [hf _ _ hb, hPQ]

theorem separator (due : Bool) (path : String) :
    Writes (fun buffer => if due then appendCanonical buffer "," path else .ok buffer) True
      (if due then "," else "") := by
  cases due
  · exact skip
  · exact append "," path

theorem guarded (hf : Writes f P s) (depth : Nat) (text : String) :
    Writes (fun buffer => if CONTRACT_DIGEST_MAX_DEPTH < depth then .error text else f buffer)
      (depth ≤ CONTRACT_DIGEST_MAX_DEPTH ∧ P) s := by
  intro buffer written hb
  dsimp only
  split
  · next h =>
    simp only [reduceCtorEq, false_iff, not_and]
    omega
  · next h => rw [hf _ _ hb, and_iff_right (not_lt.1 h)]

end Writes

theorem writeScalar (text path : String) (depth : Nat) :
    Writes (fun buffer => if CONTRACT_DIGEST_MAX_DEPTH < depth then .error (exceedsDepth path)
        else appendCanonical buffer text path) (depth + 0 ≤ CONTRACT_DIGEST_MAX_DEPTH) text :=
  ((Writes.append text path).guarded depth _).congr (by simp)

mutual

theorem writeCanonical_writes (value : Json) (path : String) (depth : Nat) :
    Writes (writeCanonical value path depth)
      (depth + levels value ≤ CONTRACT_DIGEST_MAX_DEPTH) (canonicalText value) := by
  cases value with
  | null | bool b | num q | str s => exact writeScalar _ path depth
  | arr items =>
    have hitems := writeCanonicalArray_writes items path depth 0
    have hwritten := (Writes.append "[" path).bind (hitems.bind (.append "]" path))
    refine (hwritten.guarded depth (exceedsDepth path)).congr ?_
    rw [levels]
    simp only [true_and, and_true]
    omega
  | obj fields =>
    have hfields := writeCanonicalObject_writes fields path depth false
    have hwritten := (Writes.append "\x7b" path).bind (hfields.bind (.append "\x7d" path))
    refine (hwritten.guarded depth (exceedsDepth path)).congr ?_
    rw [levels]
    simp only [true_and, and_true]
    omega

theorem writeCanonicalArray_writes (items : List Json) (path : String) (depth index : Nat) :
    Writes (writeCanonicalArray items path depth index)
      (itemsLevels items = 0 ∨ depth + itemsLevels items ≤ CONTRACT_DIGEST_MAX_DEPTH)
      (itemsText (decide (0 < index)) items) := by
  cases items with
  | nil => exact Writes.skip.congr (by simp [itemsLevels])
  | cons item items =>
    have hsep : Writes
        (fun buffer => if 0 < index then appendCanonical buffer "," path else .ok buffer) True
        (if decide (0 < index) then "," else "") := by
      simpa only [decide_eq_true_eq] using Writes.separator (decide (0 < index)) path
    have hitem := writeCanonical_writes item (path ++ "[" ++ toString index ++ "]") (depth + 1)
    have hrest := writeCanonicalArray_writes items path depth (index + 1)
    rw [decide_eq_true (Nat.succ_pos index)] at hrest
    refine (hsep.bind (hitem.bind hrest)).congr ?_
    rw [itemsLevels, true_and]
    omega

theorem writeCanonicalObject_writes (fields : List (String × Json)) (path : String)
    (depth : Nat) (separated : Bool) :
    Writes (writeCanonicalObject fields path depth separated)
      (fieldsLevels fields = 0 ∨ depth + fieldsLevels fields ≤ CONTRACT_DIGEST_MAX_DEPTH)
      (fieldsText separated fields) := by
  cases fields with
  | nil => exact Writes.skip.congr (by simp [fieldsLevels])
  | cons field fields =>
    obtain ⟨key, value⟩ := field
    have hsep := Writes.separator separated path
    have hname := Writes.append (quote key ++ ":") path
    have hvalue := writeCanonical_writes value (path ++ "[" ++ quote key ++ "]") (depth + 1)
    have hrest := writeCanonicalObject_writes fields path depth true
    refine (hsep.bind (hname.bind (hvalue.bind hrest))).congr ?_
    rw [fieldsLevels, true_and, true_and]
    omega

end

end Written

theorem codeUnits_length_le (s : String) : (codeUnits s).length ≤ s.utf8ByteSize := by
  have hchars : ∀ l : List Char, (l.flatMap utf16Units).length ≤ (String.ofList l).utf8ByteSize := by
    intro l
    induction l with
    | nil => simp
    | cons c l ih =>
      have hsize : (String.ofList (c :: l)).utf8ByteSize =
          c.utf8Size + (String.ofList l).utf8ByteSize := by
        rw [← singleton_append, String.ofList_append, String.utf8ByteSize_append]
        congr 1
        exact String.utf8ByteSize_singleton
      have hunits : (utf16Units c).length ≤ c.utf8Size := by
        unfold utf16Units
        split
        · exact c.utf8Size_pos
        next hlarge =>
        have hval : 0xffff < c.val := by
          rw [UInt32.lt_iff_toNat_lt]
          change 65535 < c.toNat
          omega
        simp [Char.utf8Size_eq_four_iff.2 hval]
      rw [flatMap_cons, length_append, hsize]
      omega
  simpa [codeUnits] using hchars s.toList

theorem itemsText_size (separated : Bool) (items : List Json) :
    (itemsText separated items).utf8ByteSize =
      (items.map fun item => (canonicalText item).utf8ByteSize + 1).sum -
        if separated then 0 else 1 := by
  induction items generalizing separated with
  | nil => simp [itemsText]
  | cons item items ih =>
    have hrest := ih true
    rw [itemsText, String.utf8ByteSize_append, String.utf8ByteSize_append, hrest, map_cons,
      sum_cons]
    cases separated
    · simp only [Bool.false_eq_true, if_false, if_true, String.utf8ByteSize_empty]
      omega
    · have hcomma : ",".utf8ByteSize = 1 := by decide
      simp only [if_true, hcomma]
      omega

theorem fieldsText_size (separated : Bool) (fields : List (String × Json)) :
    (fieldsText separated fields).utf8ByteSize =
      (fields.map fun field => (quote field.1).utf8ByteSize + ":".utf8ByteSize +
        (canonicalText field.2).utf8ByteSize + 1).sum - if separated then 0 else 1 := by
  induction fields generalizing separated with
  | nil => simp [fieldsText]
  | cons field fields ih =>
    obtain ⟨key, value⟩ := field
    have hrest := ih true
    simp only [fieldsText, String.utf8ByteSize_append, hrest, map_cons, sum_cons]
    cases separated
    · simp only [Bool.false_eq_true, if_false, if_true, String.utf8ByteSize_empty]
      omega
    · have hcomma : ",".utf8ByteSize = 1 := by decide
      simp only [if_true, hcomma]
      omega

theorem itemsLevels_eq (items : List Json) :
    itemsLevels items = (items.map (levels · + 1)).foldr max 0 := by
  induction items with
  | nil => rfl
  | cons item items ih => rw [itemsLevels, ih, map_cons, foldr_cons]

theorem fieldsLevels_eq (fields : List (String × Json)) :
    fieldsLevels fields = (fields.map (levels ·.2 + 1)).foldr max 0 := by
  induction fields with
  | nil => rfl
  | cons field fields ih =>
    obtain ⟨key, value⟩ := field
    rw [fieldsLevels, ih, map_cons, foldr_cons]

structure SameExtent (a b : Json) : Prop where
  levels : levels a = levels b
  bytes : (canonicalText a).utf8ByteSize = (canonicalText b).utf8ByteSize

namespace SameExtent

theorem refl (a : Json) : SameExtent a a := ⟨rfl, rfl⟩

theorem trans {a b c : Json} (h : SameExtent a b) (h' : SameExtent b c) : SameExtent a c :=
  ⟨h.levels.trans h'.levels, h.bytes.trans h'.bytes⟩

theorem symm {a b : Json} (h : SameExtent a b) : SameExtent b a := ⟨h.levels.symm, h.bytes.symm⟩

theorem arr {items items' : List Json} (h : Reordered SameExtent items items') :
    SameExtent (.arr items) (.arr items') := by
  constructor
  · have hlevels : (items.map (Graph.levels · + 1)).Perm (items'.map (Graph.levels · + 1)) :=
      h.map_perm fun a b hab => congrArg (· + 1) hab.levels
    rw [Graph.levels, Graph.levels, itemsLevels_eq, itemsLevels_eq]
    exact hlevels.foldr_eq 0
  · have hbytes : (items.map fun item => (canonicalText item).utf8ByteSize + 1).Perm
        (items'.map fun item => (canonicalText item).utf8ByteSize + 1) :=
      h.map_perm fun a b hab => congrArg (· + 1) hab.bytes
    simp only [canonicalText, String.utf8ByteSize_append, itemsText_size, hbytes.sum_eq]

theorem obj {fields fields' : List (String × Json)}
    (h : Reordered (fun f f' => f.1 = f'.1 ∧ SameExtent f.2 f'.2) fields fields') :
    SameExtent (.obj fields) (.obj fields') := by
  constructor
  · have hlevels : (fields.map (Graph.levels ·.2 + 1)).Perm
        (fields'.map (Graph.levels ·.2 + 1)) :=
      h.map_perm fun a b hab => congrArg (· + 1) hab.2.levels
    rw [Graph.levels, Graph.levels, fieldsLevels_eq, fieldsLevels_eq]
    exact hlevels.foldr_eq 0
  · have hbytes : (fields.map fun field => (quote field.1).utf8ByteSize + ":".utf8ByteSize +
          (canonicalText field.2).utf8ByteSize + 1).Perm
        (fields'.map fun field => (quote field.1).utf8ByteSize + ":".utf8ByteSize +
          (canonicalText field.2).utf8ByteSize + 1) := by
      apply h.map_perm
      rintro ⟨key, value⟩ ⟨key', value'⟩ ⟨hkey, hvalue⟩
      cases hkey
      simp only [hvalue.bytes]
    simp only [canonicalText, String.utf8ByteSize_append, fieldsText_size, hbytes.sum_eq]

mutual

theorem sorted (value : Json) : SameExtent (sortedKeys value) value := by
  cases value with
  | null => exact refl _
  | bool b => exact refl _
  | num q => exact refl _
  | str s => exact refl _
  | arr items => exact arr (.of_forall₂ (sortedAll items))
  | obj fields =>
    have hperm := (sortBy_perm Prod.fst (sortedFields fields)).symm
    have hsorted : SameExtent (.obj (sortedFields fields)) (sortedKeys (.obj fields)) :=
      obj ((Reordered.of_perm hperm).mono fun f _ f' _ hf => hf ▸ ⟨rfl, refl _⟩)
    exact hsorted.symm.trans (obj (.of_forall₂ (sortedEach fields)))

theorem sortedAll (items : List Json) : Forall₂ SameExtent (sortedItems items) items := by
  cases items with
  | nil => exact .nil
  | cons item items => exact .cons (sorted item) (sortedAll items)

theorem sortedEach (fields : List (String × Json)) :
    Forall₂ (fun f f' => f.1 = f'.1 ∧ SameExtent f.2 f'.2) (sortedFields fields) fields := by
  cases fields with
  | nil => exact .nil
  | cons field fields =>
    obtain ⟨key, value⟩ := field
    exact .cons ⟨rfl, sorted value⟩ (sortedEach fields)

end

end SameExtent

def contractDigest (sha256 : String → String) (body : Json) : Except String String := do
  let buffer ← writeCanonical (sortedKeys body) "$" 0 { text := "", length := 0 }
  if CONTRACT_DIGEST_MAX_BYTES < buffer.text.utf8ByteSize then throw (exceedsBytes "$")
  return sha256 buffer.text

theorem contractDigest_ok {sha256 : String → String} {body : Json} {digest : String} :
    contractDigest sha256 body = .ok digest ↔
      levels body ≤ CONTRACT_DIGEST_MAX_DEPTH ∧
        (canonicalText body).utf8ByteSize ≤ CONTRACT_DIGEST_MAX_BYTES ∧
        digest = sha256 (canonicalText (sortedKeys body)) := by
  have hsorted := SameExtent.sorted body
  have hwrites := writeCanonical_writes (sortedKeys body) "$" 0 { text := "", length := 0 }
  have htext : (({ text := "", length := 0 } : CanonicalBuffer).extend
      (canonicalText (sortedKeys body))).text = canonicalText (sortedKeys body) := by
    simp [CanonicalBuffer.extend]
  have hunits := codeUnits_length_le (canonicalText (sortedKeys body))
  unfold contractDigest
  rw [bind_eq_ok]
  constructor
  · rintro ⟨buffer, hbuffer, hdigest⟩
    obtain ⟨hlevels, -, rfl⟩ := (hwrites _ (Nat.zero_le _)).1 hbuffer
    rw [htext] at hdigest
    split at hdigest
    · cases hdigest
    next hsize =>
    refine ⟨?_, ?_, (Except.ok.inj hdigest).symm⟩
    · rw [← hsorted.levels]
      omega
    · rw [← hsorted.bytes]
      omega
  · rintro ⟨hlevels, hbytes, rfl⟩
    rw [← hsorted.levels] at hlevels
    rw [← hsorted.bytes] at hbytes
    refine ⟨_, (hwrites _ (Nat.zero_le _)).2 ⟨by omega, ?_, rfl⟩, ?_⟩
    · simp only [CanonicalBuffer.extend]
      omega
    · rw [htext, if_neg (not_lt.2 hbytes)]
      rfl

theorem SameExtent.digest_isSome {sha256 : String → String} {body body' : Json}
    (h : SameExtent body body') {digest : String} (hd : contractDigest sha256 body = .ok digest) :
    ∃ digest', contractDigest sha256 body' = .ok digest' := by
  obtain ⟨hlevels, hbytes, -⟩ := contractDigest_ok.1 hd
  exact ⟨_, contractDigest_ok.2 ⟨h.levels ▸ hlevels, h.bytes ▸ hbytes, rfl⟩⟩

end Rolebox.Graph
