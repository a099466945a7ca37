import Mathlib.Data.List.Infix

/-! UTF-8: the bytes of a text, and the decoder of any bytes, cut anywhere. -/

namespace General.Utf8
open List

abbrev Bytes := List UInt8

def replacement : Char := Char.ofNat 0xFFFD

abbrev encodeChar (c : Char) : Bytes := String.utf8EncodeChar c

def encode (text : List Char) : Bytes := text.flatMap encodeChar

@[simp] theorem encode_nil : encode [] = [] := rfl

@[simp] theorem encode_cons (c : Char) (text : List Char) :
    encode (c :: text) = encodeChar c ++ encode text := rfl

@[simp] theorem encode_append (text text' : List Char) :
    encode (text ++ text') = encode text ++ encode text' :=
  flatMap_append

/-- A character begun: its bits so far, the bytes to come and the range the next one lies in. -/
structure Pending where
  bits : Nat
  missing : Nat
  lower : Nat
  upper : Nat

def readLead (b : UInt8) : List Char × Option Pending :=
  let n := b.toNat
  if n < 0x80 then ([Char.ofNat n], none)
  else if 0xC2 ≤ n ∧ n < 0xE0 then
    ([], some { bits := n - 0xC0, missing := 1, lower := 0x80, upper := 0xBF })
  else if 0xE0 ≤ n ∧ n < 0xF0 then
    ([], some { bits := n - 0xE0, missing := 2, lower := if n = 0xE0 then 0xA0 else 0x80,
                upper := if n = 0xED then 0x9F else 0xBF })
  else if 0xF0 ≤ n ∧ n < 0xF5 then
    ([], some { bits := n - 0xF0, missing := 3, lower := if n = 0xF0 then 0x90 else 0x80,
                upper := if n = 0xF4 then 0x8F else 0xBF })
  else ([replacement], none)

/-- One byte; one that cannot continue the unfinished character begins the next. -/
def readByte (b : UInt8) : Option Pending → List Char × Option Pending
  | none => readLead b
  | some p =>
    if p.lower ≤ b.toNat ∧ b.toNat ≤ p.upper then
      let bits := p.bits * 64 + (b.toNat - 0x80)
      if p.missing = 1 then ([Char.ofNat bits], none)
      else ([], some { bits, missing := p.missing - 1, lower := 0x80, upper := 0xBF })
    else (replacement :: (readLead b).1, (readLead b).2)

def readBytes : Option Pending → Bytes → List Char × Option Pending
  | pending, [] => ([], pending)
  | pending, b :: bytes =>
    ((readByte b pending).1 ++ (readBytes (readByte b pending).2 bytes).1,
      (readBytes (readByte b pending).2 bytes).2)

def decode (bytes : Bytes) : List Char :=
  (readBytes none bytes).1 ++ if (readBytes none bytes).2.isSome then [replacement] else []

@[simp] theorem readBytes_append (pending : Option Pending) (bytes bytes' : Bytes) :
    readBytes pending (bytes ++ bytes') =
      ((readBytes pending bytes).1 ++ (readBytes (readBytes pending bytes).2 bytes').1,
        (readBytes (readBytes pending bytes).2 bytes').2) := by
  induction bytes generalizing pending with
  | nil => rfl
  | cons b bytes ih => simp [readBytes, ih]

def IsTail (b : UInt8) : Prop := 0x80 ≤ b.toNat ∧ b.toNat < 0xC0

def tails (b : UInt8) : Nat :=
  if b.toNat < 0x80 then 0 else if b.toNat < 0xE0 then 1 else if b.toNat < 0xF0 then 2 else 3

theorem tails_le (b : UInt8) : tails b ≤ 3 := by
  unfold tails
  split
  · omega
  split
  · omega
  split <;> omega

/-- The bytes of a character: a first byte that says how many follow, and these. -/
structure Shape (lead : UInt8) (rest : Bytes) : Prop where
  notTail : ¬ IsTail lead
  small : lead.toNat < 0xF8
  length : rest.length = tails lead
  tail : ∀ b ∈ rest, IsTail b

inductive Reads (c : Char) : Option Pending → Bytes → Prop where
  | last {pending b} (h : readByte b pending = ([c], none)) : Reads c pending [b]
  | more {pending p b rest} (h : readByte b pending = ([], some p)) (hrest : Reads c (some p) rest) :
    Reads c pending (b :: rest)

theorem Reads.readBytes {c : Char} {pending : Option Pending} {bytes : Bytes}
    (h : Reads c pending bytes) : readBytes pending bytes = ([c], none) := by
  induction h with
  | last h => simp [Utf8.readBytes, h]
  | more h _ ih => simp [Utf8.readBytes, h, ih]

theorem Reads.part {c : Char} {pending : Option Pending} {bytes part : Bytes}
    (h : Reads c pending bytes) (hpart : part <+: bytes) (hne : part ≠ bytes) (hnil : part ≠ []) :
    ∃ p, Utf8.readBytes pending part = ([], some p) := by
  induction h generalizing part with
  | last h =>
    obtain ⟨b, part, rfl⟩ := exists_cons_of_ne_nil hnil
    obtain ⟨rfl, hempty⟩ := cons_prefix_cons.1 hpart
    exact absurd (by rw [prefix_nil.1 hempty]) hne
  | @more pending p _ rest h hrest ih =>
    obtain ⟨b, part, rfl⟩ := exists_cons_of_ne_nil hnil
    obtain ⟨rfl, hrestpart⟩ := cons_prefix_cons.1 hpart
    by_cases hend : part = []
    · exact ⟨p, by simp [Utf8.readBytes, h, hend]⟩
    · obtain ⟨q, hq⟩ := ih hrestpart (fun heq => hne (by rw [heq])) hend
      exact ⟨q, by simp [Utf8.readBytes, h, hq]⟩

theorem readByte_tail {p : Pending} {low : Nat} (hlow : low < 64) (hlower : p.lower ≤ 0x80 + low)
    (hupper : 0x80 + low ≤ p.upper) :
    readByte (UInt8.ofNat (low + 0x80)) (some p) =
      if p.missing = 1 then ([Char.ofNat (p.bits * 64 + low)], none)
      else ([], some { bits := p.bits * 64 + low, missing := p.missing - 1,
                       lower := 0x80, upper := 0xBF }) := by
  have hbyte : (UInt8.ofNat (low + 0x80)).toNat = low + 0x80 := by
    rw [UInt8.toNat_ofNat']
    omega
  rw [readByte, hbyte, if_pos ⟨by omega, by omega⟩, Nat.add_sub_cancel]

theorem isTail_ofNat {low : Nat} (h : low < 64) : IsTail (UInt8.ofNat (low + 0x80)) := by
  rw [IsTail, UInt8.toNat_ofNat']
  omega

theorem toNat_lead {n : Nat} (h : n < 256) : (UInt8.ofNat n).toNat = n := by
  rw [UInt8.toNat_ofNat']
  omega

theorem not_surrogate (c : Char) : c.toNat < 0xD800 ∨ 0xDFFF < c.toNat ∧ c.toNat < 0x110000 :=
  c.valid

theorem encodeChar_eq (c : Char) : encodeChar c = if c.toNat ≤ 0x7f then [UInt8.ofNat c.toNat]
    else if c.toNat ≤ 0x7ff then
      [UInt8.ofNat (c.toNat / 64 % 0x20 + 0xc0), UInt8.ofNat (c.toNat % 0x40 + 0x80)]
    else if c.toNat ≤ 0xffff then
      [UInt8.ofNat (c.toNat / 4096 % 0x10 + 0xe0), UInt8.ofNat (c.toNat / 64 % 0x40 + 0x80),
        UInt8.ofNat (c.toNat % 0x40 + 0x80)]
    else
      [UInt8.ofNat (c.toNat / 262144 % 0x08 + 0xf0), UInt8.ofNat (c.toNat / 4096 % 0x40 + 0x80),
        UInt8.ofNat (c.toNat / 64 % 0x40 + 0x80), UInt8.ofNat (c.toNat % 0x40 + 0x80)] := rfl

theorem reads_encodeChar (c : Char) : Reads c none (encodeChar c) := by
  have hvalid := not_surrogate c
  have hchar : Char.ofNat c.toNat = c := Char.ofNat_toNat c
  rw [encodeChar_eq]
  generalize c.toNat = v at hvalid hchar
  split
  · have hlead : (UInt8.ofNat v).toNat = v := toNat_lead (by omega)
    apply Reads.last
    rw [readByte, readLead, hlead]
    simp only [show v < 0x80 by omega, if_true, hchar]
  split
  · have hlead : (UInt8.ofNat (v / 64 % 0x20 + 0xc0)).toNat = v / 64 + 0xc0 := by
      rw [toNat_lead (by omega)]; omega
    have hbits : v / 64 * 64 + v % 0x40 = v := by omega
    refine .more (p := ⟨v / 64, 1, 0x80, 0xBF⟩) ?_ (.last ?_)
    · rw [readByte, readLead, hlead]
      simp only [show ¬ v / 64 + 0xc0 < 0x80 by omega,
        show 0xC2 ≤ v / 64 + 0xc0 ∧ v / 64 + 0xc0 < 0xE0 by omega, if_true, if_false,
        Nat.add_sub_cancel, and_self]
    · rw [readByte_tail (by omega) (by dsimp only; omega) (by dsimp only; omega), if_pos rfl]
      simp only [hbits, hchar]
  split
  · have hlead : (UInt8.ofNat (v / 4096 % 0x10 + 0xe0)).toNat = v / 4096 + 0xe0 := by
      rw [toNat_lead (by omega)]; omega
    have hbits : v / 4096 * 64 + v / 64 % 0x40 = v / 64 := by omega
    have hbits' : v / 64 * 64 + v % 0x40 = v := by omega
    refine .more (p := ⟨v / 4096, 2, if v / 4096 + 0xe0 = 0xE0 then 0xA0 else 0x80,
      if v / 4096 + 0xe0 = 0xED then 0x9F else 0xBF⟩) ?_
      (.more (p := ⟨v / 64, 1, 0x80, 0xBF⟩) ?_ (.last ?_))
    · rw [readByte, readLead, hlead]
      simp only [show ¬ v / 4096 + 0xe0 < 0x80 by omega,
        show ¬ (0xC2 ≤ v / 4096 + 0xe0 ∧ v / 4096 + 0xe0 < 0xE0) by omega,
        show 0xE0 ≤ v / 4096 + 0xe0 ∧ v / 4096 + 0xe0 < 0xF0 by omega, if_true, if_false,
        Nat.add_sub_cancel, and_self]
    · rw [readByte_tail (by omega) (by dsimp only; split <;> omega)
        (by dsimp only; split <;> omega), if_neg (by simp)]
      simp only [hbits]
    · rw [readByte_tail (by omega) (by dsimp only; omega) (by dsimp only; omega), if_pos rfl]
      simp only [hbits', hchar]
  · have hlead : (UInt8.ofNat (v / 262144 % 0x08 + 0xf0)).toNat = v / 262144 + 0xf0 := by
      rw [toNat_lead (by omega)]; omega
    have hbits : v / 262144 * 64 + v / 4096 % 0x40 = v / 4096 := by omega
    have hbits' : v / 4096 * 64 + v / 64 % 0x40 = v / 64 := by omega
    have hbits'' : v / 64 * 64 + v % 0x40 = v := by omega
    refine .more (p := ⟨v / 262144, 3, if v / 262144 + 0xf0 = 0xF0 then 0x90 else 0x80,
      if v / 262144 + 0xf0 = 0xF4 then 0x8F else 0xBF⟩) ?_
      (.more (p := ⟨v / 4096, 2, 0x80, 0xBF⟩) ?_ (.more (p := ⟨v / 64, 1, 0x80, 0xBF⟩) ?_ (.last ?_)))
    · rw [readByte, readLead, hlead]
      simp only [show ¬ v / 262144 + 0xf0 < 0x80 by omega,
        show ¬ (0xC2 ≤ v / 262144 + 0xf0 ∧ v / 262144 + 0xf0 < 0xE0) by omega,
        show ¬ (0xE0 ≤ v / 262144 + 0xf0 ∧ v / 262144 + 0xf0 < 0xF0) by omega,
        show 0xF0 ≤ v / 262144 + 0xf0 ∧ v / 262144 + 0xf0 < 0xF5 by omega, if_true, if_false,
        Nat.add_sub_cancel, and_self]
    · rw [readByte_tail (by omega) (by dsimp only; split <;> omega)
        (by dsimp only; split <;> omega), if_neg (by simp)]
      simp only [hbits]
    · rw [readByte_tail (by omega) (by dsimp only; omega) (by dsimp only; omega), if_neg (by simp)]
      simp only [hbits']
    · rw [readByte_tail (by omega) (by dsimp only; omega) (by dsimp only; omega), if_pos rfl]
      simp only [hbits'', hchar]

theorem shape_encodeChar (c : Char) : ∃ lead rest, encodeChar c = lead :: rest ∧ Shape lead rest := by
  have hvalid := not_surrogate c
  rw [encodeChar_eq]
  generalize c.toNat = v at hvalid
  split
  · refine ⟨_, _, rfl, ?_, ?_, ?_, by simp⟩
    · rw [IsTail, toNat_lead (by omega)]; omega
    · rw [toNat_lead (by omega)]; omega
    · rw [tails, toNat_lead (by omega), if_pos (by omega)]; rfl
  split
  · refine ⟨_, _, rfl, ?_, ?_, ?_, ?_⟩
    · rw [IsTail, toNat_lead (by omega)]; omega
    · rw [toNat_lead (by omega)]; omega
    · rw [tails, toNat_lead (by omega), if_neg (by omega), if_pos (by omega)]; rfl
    · simp only [mem_singleton, forall_eq]
      exact isTail_ofNat (by omega)
  split
  · refine ⟨_, _, rfl, ?_, ?_, ?_, ?_⟩
    · rw [IsTail, toNat_lead (by omega)]; omega
    · rw [toNat_lead (by omega)]; omega
    · rw [tails, toNat_lead (by omega), if_neg (by omega), if_neg (by omega), if_pos (by omega)]; rfl
    · simp only [forall_mem_cons]
      exact ⟨isTail_ofNat (by omega), isTail_ofNat (by omega), by simp⟩
  · refine ⟨_, _, rfl, ?_, ?_, ?_, ?_⟩
    · rw [IsTail, toNat_lead (by omega)]; omega
    · rw [toNat_lead (by omega)]; omega
    · rw [tails, toNat_lead (by omega), if_neg (by omega), if_neg (by omega), if_neg (by omega)]; rfl
    · simp only [forall_mem_cons]
      exact ⟨isTail_ofNat (by omega), isTail_ofNat (by omega), isTail_ofNat (by omega), by simp⟩

section Cuts
variable {text kept : List Char} {part : Bytes} {n : Nat}

def CutChar (part : Bytes) : Prop := part ≠ [] ∧ ∃ c, part <+: encodeChar c ∧ part ≠ encodeChar c

structure LongestFitting (n : Nat) (text kept : List Char) : Prop where
  isPrefix : kept <+: text
  fits : (encode kept).length ≤ n
  longest : ∀ kept', kept' <+: text → (encode kept').length ≤ n → kept'.length ≤ kept.length

theorem readBytes_encode (text : List Char) : readBytes none (encode text) = (text, none) := by
  induction text with
  | nil => rfl
  | cons c text ih => rw [encode_cons, readBytes_append, (reads_encodeChar c).readBytes, ih]; rfl

theorem decode_encode (text : List Char) : decode (encode text) = text := by
  rw [decode, readBytes_encode]
  exact append_nil text

theorem decode_cut (text : List Char) (h : CutChar part) :
    decode (encode text ++ part) = text ++ [replacement] := by
  obtain ⟨hnil, c, hbegins, hne⟩ := h
  obtain ⟨p, hp⟩ := (reads_encodeChar c).part hbegins hne hnil
  rw [decode, readBytes_append, readBytes_encode, hp]
  simp

theorem take_encode (h : LongestFitting n text kept) :
    ∃ part, (encode text).take n = encode kept ++ part ∧ (part = [] ∨ CutChar part) := by
  obtain ⟨rest, rfl⟩ := h.isPrefix
  refine ⟨(encode rest).take (n - (encode kept).length), ?_, ?_⟩
  · rw [encode_append, take_append, take_of_length_le h.fits]
  cases rest with
  | nil => exact .inl (by simp)
  | cons c rest =>
    have hfits := h.fits
    have hover : n < (encode kept).length + (encodeChar c).length := by
      by_contra hroom
      have hlonger := h.longest (kept ++ [c]) ⟨rest, by simp⟩ (by
        rw [encode_append, encode_cons, encode_nil, append_nil, length_append]
        omega)
      rw [length_append, length_singleton] at hlonger
      omega
    have hlt : n - (encode kept).length < (encodeChar c).length := by omega
    rw [encode_cons, take_append_of_le_length hlt.le]
    by_cases hnil : (encodeChar c).take (n - (encode kept).length) = []
    · exact .inl hnil
    refine .inr ⟨hnil, c, take_prefix _ _, fun heq => ?_⟩
    have hlength := congrArg length heq
    rw [length_take] at hlength
    omega

theorem CutChar.shape (h : CutChar part) :
    ∃ lead rest, part = lead :: rest ∧ ¬ IsTail lead ∧ (∀ b ∈ rest, IsTail b) ∧
      rest.length < tails lead := by
  obtain ⟨hnil, c, hbegins, hne⟩ := h
  obtain ⟨lead, rest, hc, hshape⟩ := shape_encodeChar c
  obtain ⟨b, part, rfl⟩ := exists_cons_of_ne_nil hnil
  rw [hc] at hbegins hne
  obtain ⟨rfl, hrest⟩ := cons_prefix_cons.1 hbegins
  refine ⟨b, part, rfl, hshape.notTail, fun x hx => hshape.tail x (hrest.subset hx), ?_⟩
  rw [← hshape.length]
  refine lt_of_le_of_ne hrest.length_le fun heq => hne ?_
  rw [hrest.eq_of_length heq]

theorem CutChar.small {b : UInt8} {rest : Bytes} (h : CutChar (b :: rest)) : b.toNat < 0xF8 := by
  obtain ⟨-, c, hbegins, -⟩ := h
  obtain ⟨lead, tail, hc, hshape⟩ := shape_encodeChar c
  rw [hc] at hbegins
  rw [(cons_prefix_cons.1 hbegins).1]
  exact hshape.small

theorem CutChar.high (h : CutChar part) : ∀ b ∈ part, 0x80 ≤ b.toNat := by
  obtain ⟨lead, rest, rfl, -, htail, hlength⟩ := h.shape
  rw [forall_mem_cons]
  refine ⟨?_, fun b hb => (htail b hb).1⟩
  by_contra hlow
  rw [tails, if_pos (by omega)] at hlength
  omega

theorem CutChar.length_le (h : CutChar part) : part.length ≤ 3 := by
  obtain ⟨lead, rest, rfl, -, -, hlength⟩ := h.shape
  have htails := tails_le lead
  rw [length_cons]
  omega

theorem CutChar.front {front : Bytes} {b : UInt8} (h : CutChar (front ++ [b])) :
    front = [] ∨ CutChar front := by
  obtain ⟨-, c, hbegins, -⟩ := h
  by_cases hnil : front = []
  · exact .inl hnil
  have hfront : front <+: front ++ [b] := prefix_append _ _
  refine .inr ⟨hnil, c, hfront.trans hbegins, fun heq => ?_⟩
  have hlength := hbegins.length_le
  rw [← heq, length_append, length_singleton] at hlength
  omega

end Cuts

end General.Utf8
