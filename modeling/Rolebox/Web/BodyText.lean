import Rolebox.General.PlainObject
import Rolebox.Web.BodyReading

/-! Decoding response bytes: charset candidates, and a cut trailing character. -/

namespace Rolebox.Web
open General General.Utf8 List Option
open Hashline (Text isWhitespace trimStart trimEnd startsWithBom stripBom)

/-- A charset label; absent where a name was looked up that every object answers. -/
abbrev Label := Option Text

def isQuote (c : Char) : Bool := c = '"' ∨ c = '\''

def normalizeCharset (label : Text) : Label :=
  let trimmed := trimEnd (trimStart label)
  let unquoted := ((trimmed.dropWhile isQuote).reverse.dropWhile isQuote).reverse
  let stripped := (trimEnd (trimStart unquoted)).map Char.toLower
  if stripped = "gb2312".toList then some "gbk".toList
  else if stripped = "utf8".toList then some "utf-8".toList
  else if String.ofList stripped ∈ prototypeNames then none
  else some stripped

def matchWord (word : String) (l : Text) : Option Text :=
  if (l.take word.length).map Char.toLower = word.toList then some (l.drop word.length) else none

def firstMatch {α : Type*} (here : Text → Option α) : Text → Option α
  | [] => here []
  | c :: l => (here (c :: l)).or (firstMatch here l)

def quotedValue (quote : Char) (l : Text) : Option Text :=
  if quote ∈ l then some (l.takeWhile (· ≠ quote)) else none

def bareValue (l : Text) : Option Text :=
  let value := l.takeWhile fun c => c ≠ ';' ∧ ¬ isWhitespace c
  if value = [] then none else some value

def charsetValue : Text → Option Text
  | '"' :: l => (quotedValue '"' l).or (bareValue ('"' :: l))
  | '\'' :: l => (quotedValue '\'' l).or (bareValue ('\'' :: l))
  | l => bareValue l

def assigned (word : String) (l : Text) : Option Text := do
  let l ← matchWord word l
  match trimStart l with
  | '=' :: l => some (trimStart l)
  | _ => none

def charsetParameter : Text → Option Text
  | ';' :: l => (assigned "charset" (trimStart l)).bind charsetValue
  | _ => none

def charsetFromContentType (contentType : Option Text) : Option Label := do
  let raw ← firstMatch charsetParameter (← contentType)
  let label := normalizeCharset raw
  if label = some [] then none else some label

def isLabelChar (c : Char) : Bool := c.isAlphanum ∨ c = '.' ∨ c = '_' ∨ c = ':' ∨ c = '-'

def labelText (l : Text) : Option Text :=
  if l.takeWhile isLabelChar = [] then none else some (l.takeWhile isLabelChar)

def metaDeclaration (l : Text) : Option Text := do
  let l ← assigned "charset" l
  labelText (trimStart (if l.head?.any isQuote then l.tail else l))

def xmlDeclaration (l : Text) : Option Text := do
  match ← assigned "encoding" l with
  | quote :: l =>
    if isQuote quote ∧ (l.dropWhile isLabelChar).head?.any isQuote then labelText l else none
  | [] => none

def inTag (start : String) (declaration : Text → Option Text) (l : Text) : Option Text := do
  let l ← matchWord start l
  (l.takeWhile (· ≠ '>')).tails.reverse.findSome? declaration

/-- What `new TextDecoder(label)` decodes with; absent where it throws. -/
abbrev TextDecoders := Text → Option (Bytes → Text)

def charsetSniffBytes : Nat := 4096

def sniffCharset (decoders : TextDecoders) (bytes : Bytes) : Option Label :=
  if bytes = [] then none
  else
    let head := ((decoders "latin1".toList).map (· (bytes.take charsetSniffBytes))).getD []
    ((firstMatch (inTag "<meta" metaDeclaration) head).or
      (firstMatch (inTag "<?xml" xmlDeclaration) head)).map normalizeCharset

structure BomInfo where
  charset : Text
  offset : Nat

def detectBom : Bytes → Option BomInfo
  | 0xef :: 0xbb :: 0xbf :: _ => some { charset := "utf-8".toList, offset := 3 }
  | 0xff :: 0xfe :: _ => some { charset := "utf-16le".toList, offset := 2 }
  | 0xfe :: 0xff :: _ => some { charset := "utf-16be".toList, offset := 2 }
  | _ => none

def pickDecoder (decoders : TextDecoders) : List Label → Option ((Bytes → Text) × Text)
  | [] => (decoders "utf-8".toList).map (·, "utf-8".toList)
  | none :: _ => none
  | some candidate :: rest =>
    match normalizeCharset candidate with
    | none => pickDecoder decoders rest
    | some label =>
      match decoders label with
      | some decode => some (decode, label)
      | none => pickDecoder decoders rest

def maxPartialTailBytes : Nat := 3

/-- The bytes from the last one back, the first of them `back` bytes from the end. -/
def partialTailFrom (back : Nat) : Bytes → Nat
  | [] => 0
  | byte :: rest =>
    if byte &&& 0x80 = 0 then 0
    else if byte &&& 0xc0 = 0x80 then partialTailFrom (back + 1) rest
    else
      let needed := if byte ≥ 0xf0 then 4 else if byte ≥ 0xe0 then 3 else if byte ≥ 0xc0 then 2 else 1
      if back < needed then back else 0

/-- Length of an incomplete UTF-8 sequence at the end of `bytes`, or 0. -/
def partialUtf8TailLength (bytes : Bytes) : Nat := partialTailFrom 1 (bytes.reverse.take 4)

/-- Whether the tail of `bytes` really is an incomplete character for `charset`. -/
def hasPartialTrailingChar (bytes : Bytes) (charset : Text) : Bool :=
  if charset = "utf-8".toList then 0 < partialUtf8TailLength bytes
  else if charset = "utf-16le".toList ∨ charset = "utf-16be".toList then bytes.length % 2 = 1
  else bytes.getLast?.any (· ≥ 0x80)

def dropPartial (decode : Bytes → Text) (charset : Text) : Nat → Bytes → Text
  | 0, body => decode body
  | budget + 1, body =>
    if body = [] then decode body
    else if (decode body).getLast? ≠ some replacement then decode body
    else if ¬ hasPartialTrailingChar body charset then decode body
    else dropPartial decode charset budget body.dropLast

def decodeWithoutPartialTail (decode : Bytes → Text) (bytes : Bytes) (charset : Text) : Text :=
  dropPartial decode charset maxPartialTailBytes bytes

structure DecodedText where
  text : Text
  charset : Text

def charsetCandidates (decoders : TextDecoders) (bytes : Bytes) (contentTypeHeader : Option Text) :
    List Label :=
  ((detectBom bytes).map fun bom => some bom.charset).toList ++
    (charsetFromContentType contentTypeHeader).toList ++ (sniffCharset decoders bytes).toList ++
    [some "utf-8".toList]

def decodeText (decoders : TextDecoders) (bytes : Bytes) (contentTypeHeader : Option Text) :
    Option DecodedText := do
  let (decode, charset) ← pickDecoder decoders (charsetCandidates decoders bytes contentTypeHeader)
  let body := bytes.drop (((detectBom bytes).map (·.offset)).getD 0)
  return { text := stripBom (decodeWithoutPartialTail decode body charset), charset }

section PartialTail
variable {part : Bytes} {kept : Text}

theorem forall_byte {P : UInt8 → Prop} (h : ∀ n : Fin 256, P (UInt8.ofFin n)) (b : UInt8) : P b :=
  h b.toFin

theorem high_bit_clear (b : UInt8) : b &&& 0x80 = 0 ↔ b.toNat < 0x80 :=
  forall_byte (P := fun b => b &&& 0x80 = 0 ↔ b.toNat < 0x80) (by decide +kernel) b

theorem continues_iff (b : UInt8) : b &&& 0xc0 = 0x80 ↔ IsTail b := by
  revert b
  unfold IsTail
  exact forall_byte (P := fun b => b &&& 0xc0 = 0x80 ↔ 0x80 ≤ b.toNat ∧ b.toNat < 0xC0)
    (by decide +kernel)

variable {b : UInt8}

theorem needed_eq (h : 0x80 ≤ b.toNat) (htail : ¬ IsTail b) :
    (if b ≥ 0xf0 then 4 else if b ≥ 0xe0 then 3 else if b ≥ 0xc0 then 2 else 1) = Utf8.tails b + 1 := by
  revert b
  unfold IsTail Utf8.tails
  exact fun {b} => forall_byte (P := fun b => 0x80 ≤ b.toNat → ¬ (0x80 ≤ b.toNat ∧ b.toNat < 0xC0) →
    (if b ≥ 0xf0 then 4 else if b ≥ 0xe0 then 3 else if b ≥ 0xc0 then 2 else 1) =
      (if b.toNat < 0x80 then 0 else if b.toNat < 0xE0 then 1 else if b.toNat < 0xF0 then 2 else 3) +
        1) (by decide +kernel) b

theorem partialTailFrom_tail (h : IsTail b) (back : Nat) (rest : Bytes) :
    partialTailFrom back (b :: rest) = partialTailFrom (back + 1) rest := by
  rw [partialTailFrom, if_neg fun hlow => Nat.not_lt.2 h.1 ((high_bit_clear b).1 hlow),
    if_pos ((continues_iff b).2 h)]

theorem partialTailFrom_lead (h : ¬ IsTail b) (back : Nat) (rest : Bytes) :
    partialTailFrom (back + 1) (b :: rest) = if back < Utf8.tails b then back + 1 else 0 := by
  rw [partialTailFrom]
  by_cases hlow : b.toNat < 0x80
  · rw [if_pos ((high_bit_clear b).2 hlow), Utf8.tails, if_pos hlow, if_neg (Nat.not_lt_zero back)]
  rw [if_neg fun hclear => hlow ((high_bit_clear b).1 hclear),
    if_neg fun htail => h ((continues_iff b).1 htail)]
  dsimp only
  rw [needed_eq (by omega) h]
  simp only [Nat.add_lt_add_iff_right]

theorem partialTailFrom_tails {lead : UInt8} {before : Bytes} (hlead : ¬ IsTail lead) (rest : Bytes)
    (back : Nat) (h : ∀ b ∈ rest, IsTail b) :
    partialTailFrom (back + 1) (rest ++ lead :: before) =
      if back + rest.length < Utf8.tails lead then back + rest.length + 1 else 0 := by
  induction rest generalizing back with
  | nil => exact partialTailFrom_lead hlead back before
  | cons b rest ih =>
    rw [forall_mem_cons] at h
    rw [cons_append, partialTailFrom_tail h.1, ih (back + 1) h.2, length_cons,
      Nat.add_assoc back, Nat.add_comm 1]

theorem partialUtf8TailLength_append {lead : UInt8} (hlead : ¬ IsTail lead) {rest : Bytes}
    (h : ∀ b ∈ rest, IsTail b) (hlength : rest.length ≤ Utf8.tails lead) (before : Bytes) :
    partialUtf8TailLength (before ++ lead :: rest) =
      if rest.length < Utf8.tails lead then rest.length + 1 else 0 := by
  have hshort : rest.length ≤ 3 := hlength.trans (tails_le lead)
  have hreverse : (before ++ lead :: rest).reverse.take 4 =
      rest.reverse ++ lead :: before.reverse.take (3 - rest.length) := by
    rw [reverse_append, reverse_cons, append_assoc, take_append,
      take_of_length_le (by rw [length_reverse]; omega), length_reverse,
      singleton_append, show 4 - rest.length = 3 - rest.length + 1 by omega,
      take_succ_cons]
  rw [partialUtf8TailLength, hreverse, partialTailFrom_tails hlead _ 0 (by simpa using h),
    length_reverse, Nat.zero_add]

theorem partialUtf8TailLength_cut (kept : Text) (h : CutChar part) :
    0 < partialUtf8TailLength (encode kept ++ part) := by
  obtain ⟨lead, rest, rfl, hlead, htail, hlength⟩ := h.shape
  rw [partialUtf8TailLength_append hlead htail hlength.le, if_pos hlength]
  omega

theorem partialUtf8TailLength_encode (kept : Text) : partialUtf8TailLength (encode kept) = 0 := by
  rcases eq_nil_or_concat kept with rfl | ⟨front, c, rfl⟩
  · rfl
  obtain ⟨lead, rest, hc, hshape⟩ := shape_encodeChar c
  rw [concat_eq_append, encode_append, encode_cons, encode_nil, append_nil, hc,
    partialUtf8TailLength_append hshape.notTail hshape.tail hshape.length.le,
    if_neg (by rw [hshape.length]; omega)]

end PartialTail

section Dropping
variable {part : Bytes} {kept : Text} {charset : Text} {budget : Nat}

/-- The decoder of UTF-8, which reads a leading byte order mark as none of the text. -/
def utf8Decode (bytes : Bytes) : Text := stripBom (decode bytes)

theorem stripBom_bom (text : Text) : stripBom (Hashline.byteOrderMark :: text) = text := rfl

theorem stripBom_concat (kept : Text) :
    stripBom (kept ++ [replacement]) = stripBom kept ++ [replacement] := by
  cases kept with
  | nil => decide
  | cons c kept =>
    unfold stripBom startsWithBom
    by_cases hc : some c = some Hashline.byteOrderMark <;> simp [hc]

theorem utf8Decode_encode (kept : Text) : utf8Decode (encode kept) = stripBom kept := by
  rw [utf8Decode, decode_encode]

theorem utf8Decode_cut (kept : Text) (h : CutChar part) :
    utf8Decode (encode kept ++ part) = stripBom kept ++ [replacement] := by
  rw [utf8Decode, decode_cut kept h, stripBom_concat]

theorem hasPartialTrailingChar_utf8 (bytes : Bytes) :
    hasPartialTrailingChar bytes "utf-8".toList = decide (0 < partialUtf8TailLength bytes) := by
  rw [hasPartialTrailingChar, if_pos rfl]

theorem dropPartial_cut (hunfinished : ∀ kept part, CutChar part →
      hasPartialTrailingChar (encode kept ++ part) charset = true) (h : part = [] ∨ CutChar part) :
    dropPartial utf8Decode charset budget (encode kept ++ part) =
      if part.length ≤ budget then
        dropPartial utf8Decode charset (budget - part.length) (encode kept)
      else stripBom kept ++ [replacement] := by
  induction part using reverseRecOn generalizing budget with
  | nil => simp
  | append_singleton front b ih =>
    have hcut : CutChar (front ++ [b]) := h.resolve_left (by simp)
    have hdecoded := utf8Decode_cut kept hcut
    rw [length_append, length_singleton]
    cases budget with
    | zero => rw [dropPartial, hdecoded, if_neg (by omega)]
    | succ budget =>
      have hlast : ¬ (stripBom kept ++ [replacement]).getLast? ≠ some replacement := by simp
      have hnil : encode kept ++ (front ++ [b]) ≠ [] := by simp
      have hdrop : (encode kept ++ (front ++ [b])).dropLast = encode kept ++ front := by
        rw [← append_assoc, dropLast_concat]
      rw [dropPartial, if_neg hnil, hdecoded, if_neg hlast, hunfinished kept _ hcut,
        if_neg (by decide), hdrop, ih hcut.front]
      simp only [Nat.add_le_add_iff_right, Nat.add_sub_add_right]

theorem dropPartial_whole (h : kept.getLast? ≠ some replacement) :
    dropPartial utf8Decode charset budget (encode kept) = stripBom kept := by
  have hlast : (stripBom kept).getLast? ≠ some replacement := by
    intro hlast
    unfold stripBom at hlast
    split at hlast
    · cases kept with
      | nil => exact absurd hlast (by simp)
      | cons c kept =>
        rw [tail_cons] at hlast
        rw [getLast?_cons, hlast] at h
        exact h rfl
    · exact h hlast
  cases budget with
  | zero => rw [dropPartial, utf8Decode_encode]
  | succ budget =>
    rw [dropPartial, utf8Decode_encode, if_pos hlast]
    split <;> rfl

theorem dropPartial_utf8 :
    dropPartial utf8Decode "utf-8".toList budget (encode kept) = stripBom kept := by
  by_cases h : kept.getLast? = some replacement
  · cases budget with
    | zero => rw [dropPartial, utf8Decode_encode]
    | succ budget =>
      rw [dropPartial, hasPartialTrailingChar_utf8, partialUtf8TailLength_encode, utf8Decode_encode]
      simp
  · exact dropPartial_whole h

/-- A replacement character at the end is dropped where the budget covers its bytes. -/
theorem dropPartial_replacement (hunfinished : ∀ kept part, CutChar part →
      hasPartialTrailingChar (encode kept ++ part) charset = true)
    (hwhole : ∀ kept, hasPartialTrailingChar (encode (kept ++ [replacement])) charset = true) :
    dropPartial utf8Decode charset budget (encode (kept ++ [replacement])) =
      if 3 ≤ budget then dropPartial utf8Decode charset (budget - 3) (encode kept)
      else stripBom kept ++ [replacement] := by
  have hcut : CutChar [0xEF, 0xBF] := ⟨by decide, replacement, by decide, by decide⟩
  cases budget with
  | zero => rw [dropPartial, utf8Decode_encode, stripBom_concat, if_neg (by omega)]
  | succ budget =>
    have hbytes : encode (kept ++ [replacement]) = encode kept ++ [0xEF, 0xBF, 0xBD] := by
      rw [encode_append]
      rfl
    have hlast : ¬ (stripBom kept ++ [replacement]).getLast? ≠ some replacement := by simp
    have hdrop : (encode (kept ++ [replacement])).dropLast = encode kept ++ [0xEF, 0xBF] := by
      rw [hbytes, dropLast_append_of_ne_nil (by simp)]
      rfl
    rw [dropPartial, if_neg (by rw [hbytes]; simp), utf8Decode_encode, stripBom_concat,
      if_neg hlast, hwhole, if_neg (by decide), hdrop, dropPartial_cut hunfinished (.inr hcut)]
    rw [show ([0xEF, 0xBF] : Bytes).length = 2 from rfl]
    by_cases hbudget : 2 ≤ budget
    · rw [if_pos hbudget, if_pos (by omega)]
      rfl
    · rw [if_neg hbudget, if_neg (by omega)]

end Dropping

section Declared
variable {part : Bytes} {text kept : Text} {label : Text} {n : Nat}

def utf8Labels : List Text :=
  ["unicode-1-1-utf-8", "unicode11utf8", "unicode20utf8", "utf-8", "utf8", "x-unicode20utf8"].map
    String.toList

/-- Under every label of UTF-8 there is its decoder. -/
def FollowsStandard (decoders : TextDecoders) : Prop :=
  ∀ label ∈ utf8Labels, decoders label = some utf8Decode

def DeclaresUtf8 (header : Option Text) (label : Text) : Prop :=
  charsetFromContentType header = some (some label) ∧ label ∈ utf8Labels

theorem first_small {b : UInt8} {rest : Bytes} (h : part = [] ∨ CutChar part)
    (hbytes : encode kept ++ part = b :: rest) : b.toNat < 0xF8 := by
  cases kept with
  | nil =>
    rcases h with rfl | hcut
    · exact absurd hbytes (by simp)
    · rw [encode_nil, nil_append] at hbytes
      subst hbytes
      exact hcut.small
  | cons c kept =>
    obtain ⟨lead, tail, hc, hshape⟩ := shape_encodeChar c
    rw [encode_cons, hc, cons_append, cons_append, List.cons.injEq] at hbytes
    rw [← hbytes.1]
    exact hshape.small

theorem detectBom_text (h : part = [] ∨ CutChar part) :
    detectBom (encode kept ++ part) =
      if startsWithBom kept then some { charset := "utf-8".toList, offset := 3 } else none := by
  obtain ⟨bytes, hbytes⟩ : ∃ bytes, encode kept ++ part = bytes := ⟨_, rfl⟩
  have hsmall : ∀ b rest, bytes = b :: rest → b.toNat < 0xF8 :=
    fun b rest heq => first_small h (hbytes.trans heq)
  have hread : ∀ rest, bytes = 0xef :: 0xbb :: 0xbf :: rest → startsWithBom kept = true := by
    intro rest heq
    have hbom : decode bytes = Hashline.byteOrderMark :: decode rest := by
      rw [heq]
      rfl
    rcases h with rfl | hcut
    · rw [← hbytes, append_nil, decode_encode] at hbom
      simp [startsWithBom, hbom]
    · rw [← hbytes, decode_cut kept hcut] at hbom
      cases kept with
      | nil => exact absurd (List.cons.inj hbom).1 (by decide)
      | cons c kept => simp [startsWithBom, (List.cons.inj hbom).1]
  rw [hbytes]
  unfold detectBom
  split
  · next rest => rw [if_pos (hread rest rfl)]
  · next rest => exact absurd (hsmall _ _ rfl) (by decide)
  · next rest => exact absurd (hsmall _ _ rfl) (by decide)
  next hnone _ _ =>
  refine (if_neg fun hbom => ?_).symm
  cases kept with
  | nil => exact absurd hbom (by decide)
  | cons c kept =>
    simp only [startsWithBom, head?_cons, some.injEq, decide_eq_true_eq] at hbom
    subst hbom
    exact hnone (encode kept ++ part) (hbytes.symm.trans rfl)

theorem normalizeCharset_utf8 (h : label ∈ utf8Labels) :
    ∃ charset ∈ utf8Labels, normalizeCharset label = some charset ∧
      charset ≠ "utf-16le".toList ∧ charset ≠ "utf-16be".toList := by
  revert label
  decide +kernel

theorem hasPartialTrailingChar_other {charset : Text} (h : charset ≠ "utf-8".toList)
    (hle : charset ≠ "utf-16le".toList) (hbe : charset ≠ "utf-16be".toList) {bytes : Bytes}
    {b : UInt8} (hlast : bytes.getLast? = some b) (hhigh : 0x80 ≤ b.toNat) :
    hasPartialTrailingChar bytes charset = true := by
  rw [hasPartialTrailingChar, if_neg h, if_neg (not_or.2 ⟨hle, hbe⟩), hlast, any_some,
    decide_eq_true_iff]
  exact UInt8.le_iff_toNat_le.2 hhigh

theorem getLast?_cut (kept : Text) (h : CutChar part) :
    ∃ b, (encode kept ++ part).getLast? = some b ∧ 0x80 ≤ b.toNat := by
  obtain ⟨front, b, rfl⟩ := (eq_nil_or_concat part).resolve_left h.1
  rw [concat_eq_append] at h ⊢
  exact ⟨b, by rw [← append_assoc, getLast?_concat], h.high b (by simp)⟩

/-- The characters before the cut, without a last replacement character under another name. -/
theorem decoded_text {charset : Text} (hle : charset ≠ "utf-16le".toList)
    (hbe : charset ≠ "utf-16be".toList) (h : part = [] ∨ CutChar part) :
    decodeWithoutPartialTail utf8Decode (encode kept ++ part) charset =
      if charset ≠ "utf-8".toList ∧ part = [] ∧ kept.getLast? = some replacement then
        stripBom kept.dropLast else stripBom kept := by
  unfold decodeWithoutPartialTail maxPartialTailBytes
  have hlength : part.length ≤ 3 := by
    rcases h with rfl | hcut
    · simp
    · exact hcut.length_le
  by_cases hutf8 : charset = "utf-8".toList
  · subst hutf8
    rw [if_neg (by simp), dropPartial_cut (fun kept part hcut => ?_) h, if_pos hlength,
      dropPartial_utf8]
    rw [hasPartialTrailingChar_utf8]
    exact decide_eq_true (partialUtf8TailLength_cut kept hcut)
  have hunfinished : ∀ kept part, CutChar part →
      hasPartialTrailingChar (encode kept ++ part) charset = true := fun kept part hcut => by
    obtain ⟨b, hlast, hhigh⟩ := getLast?_cut kept hcut
    exact hasPartialTrailingChar_other hutf8 hle hbe hlast hhigh
  have hwhole : ∀ kept, hasPartialTrailingChar (encode (kept ++ [replacement])) charset = true := by
    intro kept
    have hlast : (encode (kept ++ [replacement])).getLast? = some 0xBD := by
      rw [encode_append, show encode [replacement] = [0xEF, 0xBF] ++ [0xBD] from rfl,
        ← append_assoc, getLast?_concat]
    exact hasPartialTrailingChar_other hutf8 hle hbe hlast (by decide)
  rcases eq_nil_or_concat kept with rfl | ⟨front, c, rfl⟩
  · rw [dropPartial_cut hunfinished h, if_pos hlength, dropPartial_whole (by simp),
      if_neg fun hall => absurd hall.2.2 (by simp)]
  rw [concat_eq_append, getLast?_concat, dropLast_concat]
  rw [dropPartial_cut hunfinished h, if_pos hlength]
  by_cases hc : c = replacement
  · subst hc
    rw [dropPartial_replacement hunfinished hwhole]
    by_cases hnil : part = []
    · rw [if_pos (by simp [hnil]), if_pos ⟨hutf8, hnil, rfl⟩, hnil]
      exact utf8Decode_encode front
    · have hpos := length_pos_iff.2 hnil
      rw [if_neg (by omega), if_neg fun hall => hnil hall.2.1, stripBom_concat]
  · rw [dropPartial_whole (by simpa using hc), if_neg fun hall => hc (Option.some.inj hall.2.2)]

theorem pickDecoder_utf8 {decoders : TextDecoders} (hstandard : FollowsStandard decoders)
    (h : label ∈ utf8Labels) (rest : List Label) :
    ∃ charset, normalizeCharset label = some charset ∧ charset ≠ "utf-16le".toList ∧
      charset ≠ "utf-16be".toList ∧
      pickDecoder decoders (some label :: rest) = some (utf8Decode, charset) := by
  obtain ⟨charset, hmem, hcharset, hle, hbe⟩ := normalizeCharset_utf8 h
  refine ⟨charset, hcharset, hle, hbe, ?_⟩
  rw [pickDecoder, hcharset]
  dsimp only
  rw [hstandard charset hmem]

theorem decodeText_declared {decoders : TextDecoders} (hstandard : FollowsStandard decoders)
    {header : Option Text} (hheader : DeclaresUtf8 header label) (h : part = [] ∨ CutChar part) :
    (decodeText decoders (encode kept ++ part) header).map (·.text) = some
      (if startsWithBom kept then stripBom (stripBom (stripBom kept))
      else if normalizeCharset label ≠ some "utf-8".toList ∧ part = [] ∧
        kept.getLast? = some replacement then kept.dropLast else kept) := by
  obtain ⟨hdeclared, hlabel⟩ := hheader
  rw [decodeText, charsetCandidates, detectBom_text h, hdeclared]
  by_cases hbom : startsWithBom kept = true
  · -- the byte order mark is skipped before the decoder drops another
    obtain ⟨charset, hcharset, hle, hbe, hpick⟩ :=
      pickDecoder_utf8 hstandard (show "utf-8".toList ∈ utf8Labels by decide)
        ((some label :: ((sniffCharset decoders (encode kept ++ part)).toList ++
          [some "utf-8".toList])))
    obtain rfl : charset = "utf-8".toList :=
      Option.some.inj (hcharset.symm.trans (by decide +kernel))
    obtain ⟨rest, rfl⟩ : ∃ rest, kept = Hashline.byteOrderMark :: rest := by
      cases kept with
      | nil => exact absurd hbom (by decide)
      | cons c rest =>
        simp only [startsWithBom, head?_cons, some.injEq, decide_eq_true_eq] at hbom
        exact ⟨rest, by rw [hbom]⟩
    have hbody : (encode (Hashline.byteOrderMark :: rest) ++ part).drop 3 = encode rest ++ part := rfl
    simp only [hbom, if_true, map_some, toList_some, cons_append, nil_append,
      getD_some, hpick, bind_eq_bind, bind_some, Option.pure_def, hbody,
      decoded_text hle hbe h, stripBom_bom, ne_eq, not_true_eq_false, false_and, if_false]
  · obtain ⟨charset, hcharset, hle, hbe, hpick⟩ := pickDecoder_utf8 hstandard hlabel
      ((sniffCharset decoders (encode kept ++ part)).toList ++ [some "utf-8".toList])
    have hstrip : ∀ text, text <+: kept → stripBom text = text := by
      intro text hbegins
      refine if_neg fun hstart => hbom ?_
      obtain ⟨rest, rfl⟩ := hbegins
      cases text with
      | nil => exact absurd hstart (by decide)
      | cons c text => exact hstart
    have hkept := hstrip kept (prefix_refl kept)
    have hfront := hstrip kept.dropLast (List.dropLast_prefix kept)
    rw [Bool.not_eq_true] at hbom
    simp only [hbom, Bool.false_eq_true, if_false, map_none, toList_none, toList_some,
      cons_append, nil_append, getD_none, drop_zero, hpick,
      bind_eq_bind, bind_some, Option.pure_def, map_some,
      decoded_text hle hbe h, hcharset, ne_eq, some.injEq]
    split <;> simp only [hkept, hfront]

end Declared

section Exact
variable {text kept : Text} {label : Text} {n : Nat}

def ExactRead (response : Response) (maxBytes : Option ℚ) (read : BodyRead) : Prop :=
  read.bytes = response.body.bytes.take (capOf maxBytes) ∧
    (read.truncated = true ↔ capOf maxBytes < response.body.bytes.length)

/-- A stream that ends right at the cap under a declared length above it. -/
def OverdeclaredAtCap (response : Response) (cap : Nat) : Prop :=
  (∃ values failure, response.body = .stream values failure) ∧
    declaredOverCap response cap = true ∧ response.body.bytes.length = cap

/-- A cut right behind a replacement character, under a name the tail is not checked for. -/
structure ReplacementTaken (label text kept : Text) (n : Nat) : Prop where
  noBom : startsWithBom kept = false
  otherName : normalizeCharset label ≠ some "utf-8".toList
  boundary : (encode text).take n = encode kept
  last : kept.getLast? = some replacement

theorem exactRead_iff {response : Response} (hends : response.body.Ends) (maxBytes : Option ℚ) :
    ∃ read, readBodyCapped response maxBytes = .ok read ∧
      (ExactRead response maxBytes read ↔ ¬ OverdeclaredAtCap response (capOf maxBytes)) := by
  obtain ⟨cap, hcap⟩ : ∃ cap, capOf maxBytes = cap := ⟨_, rfl⟩
  cases hbody : response.body with
  | buffer bytes =>
    refine ⟨_, readBodyCapped_buffer hbody maxBytes, iff_of_true ⟨by rw [hbody]; rfl, ?_⟩ ?_⟩
    · rw [hbody, decide_eq_true_iff]
      rfl
    · rintro ⟨⟨values, failure, hstream⟩, -⟩
      exact absurd (hbody.symm.trans hstream) (by simp)
  | stream values failure =>
    obtain rfl : failure = none := by rwa [hbody] at hends
    refine ⟨_, readBodyCapped_stream hbody maxBytes, ?_⟩
    rw [ExactRead, OverdeclaredAtCap, decide_eq_true_iff, hcap]
    refine ⟨?_, fun hnot => ⟨rfl, ?_⟩⟩
    · rintro ⟨-, htruncated⟩ ⟨-, hover, hlength⟩
      exact absurd (htruncated.1 (.inr ⟨hover, hlength.ge⟩)) (by omega)
    · refine ⟨fun hlong => hlong.elim id fun hover => ?_, .inl⟩
      refine lt_of_le_of_ne hover.2 fun heq => hnot ⟨⟨values, none, hbody⟩, hover.1, heq.symm⟩

theorem startsWithBom_iff (text : Text) :
    startsWithBom text = true ↔ ∃ rest, text = Hashline.byteOrderMark :: rest := by
  cases text with
  | nil => exact iff_of_false (by decide) (by simp)
  | cons c text => simp [startsWithBom]

theorem stripBom_eq_self_iff (text : Text) : stripBom text = text ↔ startsWithBom text = false := by
  unfold stripBom
  split
  · next h =>
    obtain ⟨rest, rfl⟩ := (startsWithBom_iff text).1 h
    refine iff_of_false (fun heq => ?_) (by rw [h]; decide)
    exact absurd (congrArg length heq) (by simp)
  · next h => exact iff_of_true rfl (Bool.not_eq_true _ ▸ h)

theorem stripBom_stripBom_eq_self_iff (text : Text) :
    stripBom (stripBom text) = text ↔ startsWithBom text = false := by
  have hlength : ∀ text, (stripBom text).length ≤ text.length := fun text => by
    unfold stripBom
    split <;> simp
  refine ⟨fun h => ?_, fun h => ?_⟩
  · by_contra hbom
    obtain ⟨rest, rfl⟩ := (startsWithBom_iff text).1 (Bool.not_eq_false _ ▸ hbom)
    rw [stripBom_bom] at h
    have hle := hlength rest
    rw [h, length_cons] at hle
    omega
  · rw [(stripBom_eq_self_iff text).2 h, (stripBom_eq_self_iff text).2 h]

theorem decodeText_iff {decoders : TextDecoders} (hstandard : FollowsStandard decoders)
    {header : Option Text} (hheader : DeclaresUtf8 header label) (hkept : LongestFitting n text kept) :
    (decodeText decoders ((encode text).take n) header).map (·.text) = some (stripBom kept) ↔
      ¬ [Hashline.byteOrderMark, Hashline.byteOrderMark] <+: kept ∧
        ¬ ReplacementTaken label text kept n := by
  obtain ⟨part, htake, hpart⟩ := take_encode hkept
  have hboundary : (encode text).take n = encode kept ↔ part = [] := by
    rw [htake, append_right_eq_self]
  rw [htake, decodeText_declared hstandard hheader hpart, some.injEq]
  by_cases hbom : startsWithBom kept = true
  · obtain ⟨rest, rfl⟩ := (startsWithBom_iff kept).1 hbom
    have htwice : [Hashline.byteOrderMark, Hashline.byteOrderMark] <+: Hashline.byteOrderMark :: rest ↔
        startsWithBom rest = true := by
      rw [cons_prefix_cons, startsWithBom_iff]
      constructor
      · rintro ⟨-, rest, rfl⟩
        exact ⟨rest, rfl⟩
      · rintro ⟨rest, rfl⟩
        exact ⟨rfl, rest, rfl⟩
    rw [if_pos hbom, stripBom_bom, stripBom_stripBom_eq_self_iff, htwice, Bool.not_eq_true]
    exact ⟨fun h => ⟨h, fun htaken => absurd (htaken.noBom.symm.trans hbom) (by decide)⟩, And.left⟩
  · have hfirst : ¬ [Hashline.byteOrderMark, Hashline.byteOrderMark] <+: kept := by
      rintro ⟨rest, rfl⟩
      exact hbom rfl
    rw [Bool.not_eq_true] at hbom
    rw [if_neg (by rw [hbom]; decide), (stripBom_eq_self_iff kept).2 hbom]
    split
    · next htaken =>
      refine iff_of_false (fun heq => ?_) fun hnot => hnot.2
        ⟨hbom, htaken.1, hboundary.2 htaken.2.1, htaken.2.2⟩
      have hne : kept ≠ [] := fun hnil => by simp [hnil] at htaken
      have hlength := congrArg length heq
      have hpos := length_pos_iff.2 hne
      rw [length_dropLast] at hlength
      omega
    · next htaken =>
      exact iff_of_true rfl ⟨hfirst, fun h => htaken ⟨h.otherName, hboundary.1 h.boundary, h.last⟩⟩

/-- Reading is exact but for a stream that ends at the cap under a larger declared length, and
decoding but for a second byte order mark or a replacement character at the cut. -/
theorem bodies_read_iff {decoders : TextDecoders} (hstandard : FollowsStandard decoders) :
    (∀ (response : Response) (maxBytes : Option ℚ), response.body.Ends →
      ∃ read, readBodyCapped response maxBytes = .ok read ∧
        (ExactRead response maxBytes read ↔ ¬ OverdeclaredAtCap response (capOf maxBytes))) ∧
    ∀ (text kept label : Text) (header : Option Text) (n : Nat), DeclaresUtf8 header label →
      LongestFitting n text kept →
      ((decodeText decoders ((encode text).take n) header).map (·.text) = some (stripBom kept) ↔
        ¬ [Hashline.byteOrderMark, Hashline.byteOrderMark] <+: kept ∧
          ¬ ReplacementTaken label text kept n) :=
  ⟨fun _ maxBytes hends => exactRead_iff hends maxBytes,
    fun _ _ _ _ _ hheader hkept => decodeText_iff hstandard hheader hkept⟩

def utf8Only : TextDecoders := fun label => if label ∈ utf8Labels then some utf8Decode else none

theorem bodies_read_iff_sample :
    (∃ read, readBodyCapped ⟨none, .stream [some [65], some [66, 67]] none⟩ (some 2) = .ok read ∧
      (ExactRead ⟨none, .stream [some [65], some [66, 67]] none⟩ (some 2) read ↔
        ¬ OverdeclaredAtCap ⟨none, .stream [some [65], some [66, 67]] none⟩ (capOf (some 2)))) ∧
    ((decodeText utf8Only ((encode ['a', 'é']).take 2)
        (some "text/html; charset=utf-8".toList)).map (·.text) = some (stripBom ['a']) ↔
      ¬ [Hashline.byteOrderMark, Hashline.byteOrderMark] <+: ['a'] ∧
        ¬ ReplacementTaken "utf-8".toList ['a', 'é'] ['a'] 2) := by
  have hstandard : FollowsStandard utf8Only := fun label h => if_pos h
  have hheader : DeclaresUtf8 (some "text/html; charset=utf-8".toList) "utf-8".toList := by
    unfold DeclaresUtf8
    decide +kernel
  refine ⟨(bodies_read_iff hstandard).1 _ _ rfl, (bodies_read_iff hstandard).2 _ _ _ _ _ hheader ?_⟩
  refine ⟨by decide, by decide, fun kept' hbegins hfits => ?_⟩
  rcases prefix_cons_iff.1 hbegins with rfl | ⟨tail, rfl, htail⟩
  · simp
  rcases prefix_cons_iff.1 htail with rfl | ⟨rest, rfl, hrest⟩
  · simp
  · rw [prefix_nil.1 hrest] at hfits
    exact absurd hfits (by decide)

/-- A compressed body of two bytes declares the length it was sent with. -/
theorem body_at_cap_reported_truncated :
    ¬ ∃ read, readBodyCapped ⟨some "24".toList, .stream [some [65, 66]] none⟩ (some 2) = .ok read ∧
      ExactRead ⟨some "24".toList, .stream [some [65, 66]] none⟩ (some 2) read := by
  have hread : readBodyCapped ⟨some "24".toList, .stream [some [65, 66]] none⟩ (some 2) =
      .ok ⟨[65, 66], true⟩ := by
    rw [readBodyCapped_stream rfl]
    decide +kernel
  rintro ⟨read, hok, hexact⟩
  rw [hread, Except.ok.injEq] at hok
  subst hok
  exact absurd (hexact.2.1 rfl) (by decide +kernel)

end Exact

end Rolebox.Web
