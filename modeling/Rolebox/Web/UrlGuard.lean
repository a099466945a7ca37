import Mathlib.Data.Fintype.Basic
import Mathlib.Tactic.FinCases
import Rolebox.General.InternetHost
import Rolebox.General.JsText
import Rolebox.Hashline.Text

/-! The guard of fetched URLs: internal hosts and private addresses are refused. -/

namespace Rolebox.Web.Guard
open General List
open Hashline (Text trimStart trimEnd)

/-- `parseInt(text, base)` for the bases 10 and 16; absent where it is not a number. -/
def parseInt (base : Nat) (text : Text) : Option Int :=
  let body := trimStart text
  let negative := body.head? = some '-'
  let unsigned := if negative ∨ body.head? = some '+' then body.tail else body
  let prefixed := base = 16 ∧ (unsigned.take 2 = ['0', 'x'] ∨ unsigned.take 2 = ['0', 'X'])
  let digits := (if prefixed then unsigned.drop 2 else unsigned).takeWhile (isDigitOf base)
  if digits = [] then none
  else some (if negative then -(digitsNumber base digits : Int) else digitsNumber base digits)

def isIpv4Address (host : Text) : Bool :=
  let parts := host.splitOn '.'
  if parts.length ≠ 4 then false
  else parts.all fun part =>
    match parseInt 10 part with
    | none => false
    | some n => 0 ≤ n ∧ n ≤ 255 ∧ Nat.toDigits 10 n.toNat = part

def padStart (width : Nat) (fill : Char) (text : Text) : Text :=
  replicate (width - text.length) fill ++ text

def normalizeIpv6 (host : Text) : Option Text :=
  let raw :=
    if host.head? = some '[' ∧ host.getLast? = some ']' then host.tail.dropLast else host
  if ¬ [':', ':'] <:+: raw then
    let groups := raw.splitOn ':'
    if groups.length ≠ 8 then none
    else if groups.any (4 < ·.length) then none
    else some ([':'].intercalate (groups.map (padStart 4 '0')))
  else
    match splitDouble ':' raw with
    | [first, second] =>
      let left := if first = [] then [] else first.splitOn ':'
      let right := if second = [] then [] else second.splitOn ':'
      let missing : Int := 8 - left.length - right.length
      if missing < 1 then none
      else
        let all := left ++ replicate missing.toNat "0000".toList ++ right
        if all.length ≠ 8 then none
        else some ([':'].intercalate (all.map (padStart 4 '0')))
    | _ => none

def isPrivateIpv4 (ip : Text) : Bool :=
  let parts := (ip.splitOn '.').map (parseInt 10)
  let part (i : Nat) : Option Int := parts[i]?.join
  if part 0 = some 0 ∧ part 1 = some 0 ∧ part 2 = some 0 ∧ part 3 = some 0 then true
  else if part 0 = some 127 then true
  else if part 0 = some 10 then true
  else if part 0 = some 172 ∧ (part 1).any (16 ≤ ·) ∧ (part 1).any (· ≤ 31) then true
  else if part 0 = some 192 ∧ part 1 = some 168 then true
  else if part 0 = some 169 ∧ part 1 = some 254 then true
  else false

def groupBytes (group : Option Text) : Text × Text :=
  let n := (group.bind (parseInt 16)).getD 0
  (Nat.toDigits 10 ((n >>> (8 : Nat)) % 256).toNat, Nat.toDigits 10 (n % 256).toNat)

def checkNormalizedIpv6 (normalized : Text) : Bool :=
  let groups := normalized.splitOn ':'
  if groups.length ≠ 8 then false
  else if groups.zipIdx.all fun (g, i) => g = if i = 7 then "0001".toList else "0000".toList then
    true
  else if groups[5]? = some "ffff".toList then
    let (b0, b1) := groupBytes groups[6]?
    let (b2, b3) := groupBytes groups[7]?
    isPrivateIpv4 (['.'].intercalate [b0, b1, b2, b3])
  else false

/-- `host.replace(/^\[|\]$/g, "")`. -/
def stripBrackets (host : Text) : Text :=
  let opened := if host.head? = some '[' then host.tail else host
  if opened.getLast? = some ']' then opened.dropLast else opened

/-- `IPV6_RE`. -/
def isIpv6Text (text : Text) : Bool :=
  text ≠ [] ∧ text.all fun c => isDigitOf 16 c ∨ c = ':'

def isPrivateIp (host : Text) : Bool :=
  let raw := stripBrackets host
  if raw = "::1".toList then true
  else if isIpv4Address raw then isPrivateIpv4 raw
  else if ':' ∈ raw ∨ isIpv6Text raw then
    match normalizeIpv6 raw with
    | none => false
    | some normalized => checkNormalizedIpv6 normalized
  else false

/-- What `.` does not match in a pattern. -/
def isLineTerminator (c : Char) : Bool := c.toNat ∈ [0x0A, 0x0D, 0x2028, 0x2029]

def endsInLabel (word text : Text) : Bool :=
  ('.' :: word) <:+ text ∧ ¬ (text.take (text.length - word.length - 1)).any isLineTerminator

def isInternalHostname (host : Text) : Bool :=
  let lower := host.map Char.toLower
  if lower = "localhost".toList then true
  else if ["local".toList, "internal".toList].any fun word =>
    lower = word ∨ endsInLabel word lower then true
  else false

def isSchemeChar (c : Char) : Bool := c.isAlphanum ∨ c = '+' ∨ c = '.' ∨ c = '-'

def protocolOf (trimmed : Text) : Option Text :=
  let scheme := trimmed.takeWhile isSchemeChar
  if scheme.head?.any Char.isAlpha ∧ trimmed[scheme.length]? = some ':' then
    some (scheme.map Char.toLower)
  else none

def internalReason (host : Text) : Text :=
  "Hostname '".toList ++ host ++ "' resolves to an internal or local-only address".toList

def privateReason (host : Text) : Text :=
  "IP address '".toList ++ host ++ "' is a private, loopback, or link-local address".toList

def isHttp (protocol : Text) : Bool := protocol = "http".toList ∨ protocol = "https".toList

/-- Validate a URL; `parse` gives the host of an http(s) URL and nothing for a malformed one. -/
def validateUrl (parse : Text → Option Host) (url : Text) : Except Text Unit :=
  if url = [] then .error "URL must be a non-empty string".toList
  else
    let trimmed := trimEnd (trimStart url)
    if trimmed = [] then .error "URL must be a non-empty string".toList
    else
      match protocolOf trimmed with
      | none => .error "URL is missing a protocol scheme".toList
      | some protocol =>
        if ¬ isHttp protocol then
          .error ("Protocol '".toList ++ protocol ++
            ":' is not allowed. Only http: and https: are permitted".toList)
        else
          match parse trimmed with
          | none => .error "URL is malformed and cannot be parsed".toList
          | some parsed =>
            let host := parsed.text
            if host = [] then .error "URL has no hostname".toList
            else if isInternalHostname host then .error (internalReason host)
            else if isPrivateIp host then .error (privateReason host)
            else .ok ()

/-- 0.0.0.0, a loopback, an RFC 1918 or a link-local address. -/
def Internal4 (a : Ipv4Address) : Prop :=
  (∀ i, (a i).val = 0) ∨ (a 0).val = 127 ∨ (a 0).val = 10 ∨
    (a 0).val = 172 ∧ 16 ≤ (a 1).val ∧ (a 1).val ≤ 31 ∨ (a 0).val = 192 ∧ (a 1).val = 168 ∨
    (a 0).val = 169 ∧ (a 1).val = 254

def embedded (a : Ipv6Address) : Ipv4Address :=
  ![Fin.ofNat 256 (a 6 / 256), Fin.ofNat 256 (a 6), Fin.ofNat 256 (a 7 / 256), Fin.ofNat 256 (a 7)]

def Loopback6 (a : Ipv6Address) : Prop := ∀ i, (a i).val = if i = 7 then 1 else 0

def LinkLocal6 (a : Ipv6Address) : Prop := (a 0).val / 64 = 0xFE80 / 64

def ZeroHead (a : Ipv6Address) : Prop := ∀ i : Fin 8, i < 5 → (a i).val = 0

def InternalTail (a : Ipv6Address) : Prop := (a 5).val = 0xFFFF ∧ Internal4 (embedded a)

def Internal6 (a : Ipv6Address) : Prop :=
  Loopback6 a ∨ (∀ i, (a i).val = 0) ∨ LinkLocal6 a ∨ ZeroHead a ∧ InternalTail a

def InternalName (name : Text) : Prop :=
  name = "localhost".toList ∨ ".local".toList <:+ name ∨ ".internal".toList <:+ name

def DottedInternal (name : Text) : Prop := name.getLast? = some '.' ∧ InternalName name.dropLast

def InternalHost : Host → Prop
  | .domain name => InternalName name.text ∨ DottedInternal name.text
  | .ipv4 address => Internal4 address
  | .ipv6 address => Internal6 address

def IsAddress : Host → Prop
  | .domain _ => False
  | .ipv4 _ => True
  | .ipv6 _ => True

def Recognised : Host → Prop
  | .domain name => ¬ DottedInternal name.text
  | .ipv4 _ => True
  | .ipv6 address =>
    (∃ i, (address i).val ≠ 0) ∧
      (LinkLocal6 address → InternalTail address) ∧
      (InternalTail address → ZeroHead address ∨ LinkLocal6 address)

/-- An accepted URL has no internal host, and a public address is not refused as private. -/
def Guarded (parse : Text → Option Host) (url : Text) : Prop :=
  ∀ host, parse (trimEnd (trimStart url)) = some host →
    (validateUrl parse url = .ok () → ¬ InternalHost host) ∧
      ((protocolOf (trimEnd (trimStart url))).any isHttp → IsAddress host → ¬ InternalHost host →
        validateUrl parse url ≠ .error (privateReason host.text))

section Texts
variable {base : Nat} {c : Char}

section

variable (h : isDigitOf base c = true)
include h

theorem digit_range :
    48 ≤ c.toNat ∧ c.toNat < 58 ∨ 65 ≤ c.toNat ∧ c.toNat < 71 ∨ 97 ≤ c.toNat ∧ c.toNat < 103 := by
  simp only [isDigitOf, Bool.decide_and, Bool.and_eq_true, decide_eq_true_eq] at h
  exact h.1

theorem digit_toLower : ¬ (c.toLower = 't' ∨ c.toLower = 'l') := by
  have hall : ∀ n < 103, (48 ≤ n ∧ n < 58 ∨ 65 ≤ n ∧ n < 71 ∨ 97 ≤ n ∧ n < 103) →
      ¬ ((Char.ofNat n).toLower = 't' ∨ (Char.ofNat n).toLower = 'l') := by decide
  have hrange := digit_range h
  have hc := hall c.toNat (by omega) hrange
  rwa [Char.ofNat_toNat] at hc

theorem not_digit :
    c ≠ '.' ∧ c ≠ ':' ∧ c ≠ '[' ∧ c ≠ ']' ∧ c ≠ '-' ∧ c ≠ '+' ∧ c ≠ 'x' ∧ c ≠ 'X' ∧
      Hashline.isWhitespace c = false := by
  have hrange := digit_range h
  refine ⟨?_, ?_, ?_, ?_, ?_, ?_, ?_, ?_, ?_⟩
  all_goals first
    | (rintro rfl; revert hrange; decide)
    | (simp only [Hashline.isWhitespace]; simp; omega)

end

theorem parseInt_digits {text : Text} (hne : text ≠ []) (h : ∀ c ∈ text, isDigitOf base c = true) :
    parseInt base text = some (digitsNumber base text : Int) := by
  cases text with
  | nil => exact absurd rfl hne
  | cons c text =>
    have hc := not_digit (h c (.head _))
    have hsecond : ∀ d ∈ text.head?, d ≠ 'x' ∧ d ≠ 'X' := by
      intro d hd
      have hdigit := not_digit (h d (.tail _ (mem_of_mem_head? hd)))
      exact ⟨hdigit.2.2.2.2.2.2.1, hdigit.2.2.2.2.2.2.2.1⟩
    have htrim : trimStart (c :: text) = c :: text := by
      simp [trimStart, hc.2.2.2.2.2.2.2.2]
    have hprefixed : ¬ (base = 16 ∧ ((c :: text).take 2 = ['0', 'x'] ∨
        (c :: text).take 2 = ['0', 'X'])) := by
      cases text with
      | nil => simp
      | cons d text =>
        have hd := hsecond d rfl
        simp [hd.1, hd.2]
    have hdigits : (c :: text).takeWhile (isDigitOf base) = c :: text := takeWhile_eq_self_iff.2 h
    unfold parseInt
    simp only [htrim]
    simp only [head?_cons, Option.some.injEq, hc.2.2.2.2.1, hc.2.2.2.2.2.1, or_self, if_false]
    rw [if_neg hprefixed, hdigits, if_neg (cons_ne_nil _ _)]

theorem parseInt_toDigits (hlow : 2 ≤ base) (hbase : base ≤ 16) (n : Nat) :
    parseInt base (Nat.toDigits base n) = some (n : Int) := by
  obtain ⟨hdigits, hnumber⟩ := digitsNumber_toDigits hlow hbase n
  rw [parseInt_digits Nat.toDigits_ne_nil hdigits, hnumber]

theorem parseInt_padStart (n width : Nat) :
    parseInt 16 (padStart width '0' (Nat.toDigits 16 n)) = some (n : Int) := by
  obtain ⟨hdigits, hnumber⟩ := digitsNumber_toDigits (by decide) (le_refl 16) n
  have hall : ∀ c ∈ padStart width '0' (Nat.toDigits 16 n), isDigitOf 16 c = true := by
    intro c hc
    rcases mem_append.1 hc with hfill | hdigit
    · rw [eq_of_mem_replicate hfill]
      decide
    · exact hdigits c hdigit
  have hzeros : ∀ k, (replicate k '0').foldl (fun n c => 16 * n + digitValue c) 0 = 0 := by
    intro k
    induction k with
    | zero => rfl
    | succ k ih => simpa [replicate_succ, digitValue] using ih
  rw [parseInt_digits (by simp [padStart]) hall]
  simp only [padStart, digitsNumber, foldl_append, hzeros]
  exact congrArg _ (congrArg _ hnumber)

end Texts

theorem text4 (a : Ipv4Address) : a.text = ['.'].intercalate
    ([(a 0).val, (a 1).val, (a 2).val, (a 3).val].map (Nat.toDigits 10)) := by
  unfold Ipv4Address.text
  simp [ofFn_succ]

theorem mem_text4 {a : Ipv4Address} {c : Char} (h : c ∈ a.text) :
    c = '.' ∨ isDigitOf 10 c = true := by
  rw [text4] at h
  exact mem_join_digits (by decide) (by decide) h

theorem splitOn_ipv4 (a : Ipv4Address) : a.text.splitOn '.' =
    [(a 0).val, (a 1).val, (a 2).val, (a 3).val].map (Nat.toDigits 10) := by
  have hgroups : Groups '.' ([(a 0).val, (a 1).val, (a 2).val, (a 3).val].map (Nat.toDigits 10)) :=
    groups_toDigits (by decide) (by decide) (by decide) _
  rw [text4]
  exact splitOn_intercalate _ hgroups.free (cons_ne_nil _ _)

theorem isIpv4Address_text (a : Ipv4Address) : isIpv4Address a.text = true := by
  have hpart : ∀ n : Fin 256, (match parseInt 10 (Nat.toDigits 10 n.val) with
      | none => false
      | some m => decide (0 ≤ m ∧ m ≤ 255 ∧ Nat.toDigits 10 m.toNat = Nat.toDigits 10 n.val)) =
        true := by
    intro n
    rw [parseInt_toDigits (by decide) (by decide)]
    have hn := n.isLt
    exact decide_eq_true ⟨by omega, by omega, by simp⟩
  unfold isIpv4Address
  rw [splitOn_ipv4]
  simp only [map_cons, map_nil, length_cons, length_nil, ne_eq,
    not_true_eq_false, if_false, all_cons, all_nil, Bool.and_true, Bool.and_eq_true]
  exact ⟨hpart _, hpart _, hpart _, hpart _⟩

theorem isPrivateIpv4_text (a : Ipv4Address) : isPrivateIpv4 a.text = true ↔ Internal4 a := by
  have hzero : (∀ i, (a i).val = 0) ↔
      (a 0).val = 0 ∧ (a 1).val = 0 ∧ (a 2).val = 0 ∧ (a 3).val = 0 := by
    rw [Fin.forall_fin_succ, Fin.forall_fin_succ, Fin.forall_fin_succ, Fin.forall_fin_one]
    rfl
  unfold isPrivateIpv4 Internal4
  rw [splitOn_ipv4, hzero]
  generalize (a 0).val = n0, (a 1).val = n1, (a 2).val = n2, (a 3).val = n3
  have hread := parseInt_toDigits (show 2 ≤ 10 by decide) (show 10 ≤ 16 by decide)
  simp only [map_cons, map_nil, hread]
  simp
  norm_cast

section Ipv6
variable (a : Ipv6Address)

def fullGroups (pieces : List Nat) : List Text :=
  (pieces.map (Nat.toDigits 16)).map (padStart 4 '0')

theorem length_toDigits {piece : Nat} (h : piece < 65536) : (Nat.toDigits 16 piece).length ≤ 4 :=
  (Nat.length_toDigits_le_iff (by decide) (by decide)).2 h

theorem mem_text6 {c : Char} (h : c ∈ a.text) : c = ':' ∨ isDigitOf 16 c = true := by
  have hpieces : ∀ {pieces}, c ∈ piecesText pieces → c = ':' ∨ isDigitOf 16 c = true :=
    fun hmem => mem_join_digits (by decide) (le_refl 16) hmem
  unfold Ipv6Address.text at h
  split at h
  · exact hpieces h
  rcases mem_append.1 h with hleft | hright
  · exact hpieces hleft
  rcases mem_cons.1 hright with hcolon | hright
  · exact .inl hcolon
  rcases mem_cons.1 hright with hcolon | hright
  · exact .inl hcolon
  · exact hpieces hright

theorem not_mem_text6 {c : Char} (hcolon : c ≠ ':') (hdigit : isDigitOf 16 c = false) :
    c ∉ a.text := by
  intro hmem
  rcases mem_text6 a hmem with hc | hc
  · exact hcolon hc
  · exact absurd (hc.symm.trans hdigit) (by decide)

theorem groups_pieces (pieces : List Nat) : Groups ':' (pieces.map (Nat.toDigits 16)) :=
  groups_toDigits (by decide) (le_refl 16) (by decide) pieces

theorem groups_part (pieces : List Nat) :
    (if piecesText pieces = [] then [] else (piecesText pieces).splitOn ':') =
      pieces.map (Nat.toDigits 16) := by
  cases pieces with
  | nil => rfl
  | cons piece pieces =>
    have hgroups := groups_pieces (piece :: pieces)
    have hsplit : (piecesText (piece :: pieces)).splitOn ':' =
        (piece :: pieces).map (Nat.toDigits 16) :=
      splitOn_intercalate _ hgroups.free (cons_ne_nil _ _)
    have hne : piecesText (piece :: pieces) ≠ [] := by
      intro hnil
      rw [hnil] at hsplit
      have hgroup := hgroups.nonempty [] (hsplit ▸ by simp)
      exact hgroup rfl
    rw [if_neg hne, hsplit]

theorem normalizeIpv6_text :
    normalizeIpv6 a.text = some ([':'].intercalate (fullGroups a.pieces)) := by
  have hbracket : ¬ (a.text.head? = some '[' ∧ a.text.getLast? = some ']') := fun hboth =>
    not_mem_text6 a (by decide) (by decide) (mem_of_mem_head? hboth.1)
  unfold normalizeIpv6
  rw [if_neg hbracket]
  cases hcompress : a.compress with
  | none =>
    have htext : a.text = piecesText a.pieces := by
      unfold Ipv6Address.text
      rw [hcompress]
    have hgroups := groups_pieces a.pieces
    have hsplit : (piecesText a.pieces).splitOn ':' = a.pieces.map (Nat.toDigits 16) := by
      refine splitOn_intercalate _ hgroups.free fun hnil => ?_
      have hlength := congrArg length hnil
      simp at hlength
    have hshort : ((a.pieces.map (Nat.toDigits 16)).any (4 < ·.length)) = false := by
      rw [any_eq_false]
      intro group hgroup
      obtain ⟨piece, hpiece, rfl⟩ := mem_map.1 hgroup
      have hlength := length_toDigits (pieces_lt a piece hpiece)
      simpa using hlength
    have hplain : ¬ [':', ':'] <:+: piecesText a.pieces := hgroups.join.1.no_pair
    rw [htext, if_pos hplain, hsplit]
    simp only [length_map, length_pieces, ne_eq, not_true_eq_false, if_false, hshort]
    rfl
  | some i =>
    have hrun := two_le_zeroRun hcompress
    obtain ⟨n, hn⟩ : ∃ n, zeroRun a.pieces i = n := ⟨_, rfl⟩
    have hpieces := pieces_run a.pieces i
    rw [hn] at hpieces hrun
    generalize hleft : a.pieces.take i = left at hpieces
    generalize hright : a.pieces.drop (i + n) = right at hpieces
    have htext : a.text = piecesText left ++ ':' :: ':' :: piecesText right := by
      unfold Ipv6Address.text
      rw [hcompress]
      simp only [hn, hleft, hright]
    have hlength : left.length + n + right.length = 8 := by
      have hall := congrArg length hpieces
      simp at hall
      omega
    have hinfix : [':', ':'] <:+: piecesText left ++ ':' :: ':' :: piecesText right :=
      ⟨piecesText left, piecesText right, by simp⟩
    obtain ⟨hsingle, -, hlast⟩ := (groups_pieces left).join
    have hsplit : splitDouble ':' (piecesText left ++ ':' :: ':' :: piecesText right) =
        [piecesText left, piecesText right] := by
      have hsecond : splitDouble ':' (piecesText right) = [piecesText right] :=
        splitDouble_single (groups_pieces right).join.1
      rw [← hsecond]
      exact splitDouble_append hsingle hlast
    rw [htext, if_neg (not_not.2 hinfix), hsplit]
    simp only [groups_part, length_map]
    have hmissing : (8 : Int) - left.length - right.length = n := by omega
    rw [hmissing, if_neg (by omega), Int.toNat_natCast]
    rw [if_neg (by simp; omega)]
    have hfull : fullGroups a.pieces =
        (left.map (Nat.toDigits 16) ++ replicate n "0000".toList ++
          right.map (Nat.toDigits 16)).map (padStart 4 '0') := by
      have hzero : padStart 4 '0' ['0'] = padStart 4 '0' ['0', '0', '0', '0'] := by decide
      rw [hpieces]
      simp [fullGroups, hzero]
    rw [hfull]

theorem splitOn_full : ([':'].intercalate (fullGroups a.pieces)).splitOn ':' =
    [(a 0).val, (a 1).val, (a 2).val, (a 3).val, (a 4).val, (a 5).val, (a 6).val, (a 7).val].map
      fun piece => padStart 4 '0' (Nat.toDigits 16 piece) := by
  have hfree : ∀ group ∈ fullGroups a.pieces, ':' ∉ group := by
    intro group hgroup hmem
    obtain ⟨digits, hdigits, rfl⟩ := mem_map.1 hgroup
    rcases mem_append.1 hmem with hfill | hdigit
    · exact absurd (eq_of_mem_replicate hfill) (by decide)
    · exact (groups_pieces a.pieces).free digits hdigits hdigit
  rw [splitOn_intercalate _ hfree (by simp [fullGroups, Ipv6Address.pieces])]
  simp [fullGroups, Ipv6Address.pieces, ofFn_succ]

theorem group_eq_iff (n m : Nat) :
    padStart 4 '0' (Nat.toDigits 16 n) = padStart 4 '0' (Nat.toDigits 16 m) ↔ n = m := by
  refine ⟨fun hgroup => ?_, fun hn => by rw [hn]⟩
  have hnumber := congrArg (parseInt 16) hgroup
  rw [parseInt_padStart, parseInt_padStart] at hnumber
  exact Int.natCast_inj.1 (Option.some.inj hnumber)

theorem groupBytes_group (n : Nat) :
    groupBytes (some (padStart 4 '0' (Nat.toDigits 16 n))) =
      (Nat.toDigits 10 (n / 256 % 256), Nat.toDigits 10 (n % 256)) := by
  have hhigh : (((n : Int) >>> (8 : Nat)) % 256).toNat = n / 256 % 256 := by
    rw [Int.shiftRight_eq_div_pow]
    omega
  have hlow : ((n : Int) % 256).toNat = n % 256 := by omega
  simp only [groupBytes, Option.bind_some, parseInt_padStart, Option.getD_some, hhigh, hlow]

theorem embedded_text : (embedded a).text = ['.'].intercalate
    [Nat.toDigits 10 ((a 6).val / 256 % 256), Nat.toDigits 10 ((a 6).val % 256),
      Nat.toDigits 10 ((a 7).val / 256 % 256), Nat.toDigits 10 ((a 7).val % 256)] := by
  unfold Ipv4Address.text
  simp [ofFn_succ, embedded]

theorem checkNormalizedIpv6_full :
    checkNormalizedIpv6 ([':'].intercalate (fullGroups a.pieces)) = true ↔
      Loopback6 a ∨ InternalTail a := by
  have hzero : ∀ n, padStart 4 '0' (Nat.toDigits 16 n) = ['0', '0', '0', '0'] ↔ n = 0 :=
    fun n => group_eq_iff n 0
  have hone : ∀ n, padStart 4 '0' (Nat.toDigits 16 n) = ['0', '0', '0', '1'] ↔ n = 1 :=
    fun n => group_eq_iff n 1
  have hffff : ∀ n, padStart 4 '0' (Nat.toDigits 16 n) = ['f', 'f', 'f', 'f'] ↔ n = 65535 :=
    fun n => group_eq_iff n 65535
  have hloopback : Loopback6 a ↔ (a 0).val = 0 ∧ (a 1).val = 0 ∧ (a 2).val = 0 ∧ (a 3).val = 0 ∧
      (a 4).val = 0 ∧ (a 5).val = 0 ∧ (a 6).val = 0 ∧ (a 7).val = 1 := by
    constructor
    · intro h
      exact ⟨h 0, h 1, h 2, h 3, h 4, h 5, h 6, h 7⟩
    · rintro ⟨h0, h1, h2, h3, h4, h5, h6, h7⟩ i
      fin_cases i <;> assumption
  unfold checkNormalizedIpv6
  rw [splitOn_full, hloopback]
  simp only [map_cons, map_nil, getElem?_cons_succ, getElem?_cons_zero,
    groupBytes_group, ← embedded_text]
  simp [hzero, hone, hffff, isPrivateIpv4_text, InternalTail]

theorem stripBrackets_wrapped (text : Text) : stripBrackets ('[' :: text ++ [']']) = text := by
  simp [stripBrackets]

theorem stripBrackets_plain {host : Text} (hopen : '[' ∉ host) (hclose : ']' ∉ host) :
    stripBrackets host = host := by
  have hhead : host.head? ≠ some '[' := fun h => hopen (mem_of_mem_head? h)
  have hlast : host.getLast? ≠ some ']' := fun h => hclose (mem_of_mem_getLast? h)
  unfold stripBrackets
  rw [if_neg hhead, if_neg hlast]

theorem isIpv4Address_no_dot {host : Text} (h : '.' ∉ host) : isIpv4Address host = false := by
  have hsplit : host.splitOn '.' = [host] := by
    have hjoin : (List.intercalate ['.'] [host]).splitOn '.' = [host] :=
      splitOn_intercalate '.' (by simpa using h) (cons_ne_nil _ _)
    rwa [intercalate_singleton] at hjoin
  unfold isIpv4Address
  rw [hsplit]
  rfl

theorem isPrivateIp_ipv6 :
    isPrivateIp (Host.ipv6 a).text = true ↔ Loopback6 a ∨ InternalTail a := by
  have hnormal := normalizeIpv6_text a
  have hdigits : isIpv6Text a.text = true := by
    refine decide_eq_true ⟨fun hnil => ?_, ?_⟩
    · rw [hnil] at hnormal
      exact absurd hnormal (by simp [normalizeIpv6])
    · refine all_eq_true.2 fun c hc => decide_eq_true ?_
      exact (mem_text6 a hc).symm
  have hstrip : stripBrackets (Host.ipv6 a).text = a.text := stripBrackets_wrapped a.text
  unfold isPrivateIp
  dsimp only
  rw [hstrip, isIpv4Address_no_dot (not_mem_text6 a (by decide) (by decide)), hdigits, hnormal]
  split
  · next hone =>
    rw [hone] at hnormal
    have hfull : [':'].intercalate (fullGroups a.pieces) =
        "0000:0000:0000:0000:0000:0000:0000:0001".toList := by
      have heval : normalizeIpv6 "::1".toList =
          some "0000:0000:0000:0000:0000:0000:0000:0001".toList := by decide
      exact (Option.mem_unique hnormal heval)
    have hcheck : checkNormalizedIpv6 ([':'].intercalate (fullGroups a.pieces)) = true := by
      rw [hfull]
      decide
    exact iff_of_true rfl ((checkNormalizedIpv6_full a).1 hcheck)
  · simpa using checkNormalizedIpv6_full a

end Ipv6

theorem isInternalHostname_last {host : Text} (h : isInternalHostname host = true) :
    ∃ c ∈ host.getLast?, c.toLower = 't' ∨ c.toLower = 'l' := by
  have hlast : ∀ {word : Text} {d : Char}, word.getLast? = some d →
      word <:+ host.map Char.toLower → ∃ c ∈ host.getLast?, c.toLower = d := by
    intro word d hd hsuffix
    obtain ⟨before, hbefore⟩ := hsuffix
    have hne : word ≠ [] := by
      rintro rfl
      cases hd
    have hend : (host.map Char.toLower).getLast? = some d := by
      rw [← hbefore, getLast?_append_of_ne_nil _ hne, hd]
    rw [getLast?_map] at hend
    exact Option.map_eq_some_iff.1 hend
  unfold isInternalHostname at h
  dsimp only at h
  split at h
  · next hlocalhost =>
    obtain ⟨c, hc, hlower⟩ := @hlast "localhost".toList 't' rfl
      (by rw [hlocalhost])
    exact ⟨c, hc, .inl hlower⟩
  · split at h
    · next hlabel =>
      have hword : ∃ word : Text, word.getLast? = some 'l' ∧ word <:+ host.map Char.toLower := by
        obtain ⟨word, hmem, hword⟩ := any_eq_true.1 hlabel
        have hend : word.getLast? = some 'l' := by
          rcases mem_cons.1 hmem with rfl | hmem
          · rfl
          · rw [mem_singleton.1 hmem]
            rfl
        refine ⟨word, hend, ?_⟩
        rcases of_decide_eq_true hword with hsame | hlabel
        · rw [hsame]
        · have hsuffix : ('.' :: word) <:+ host.map Char.toLower :=
            (of_decide_eq_true hlabel).1
          exact (suffix_cons _ _).trans hsuffix
      obtain ⟨word, hend, hsuffix⟩ := hword
      obtain ⟨c, hc, hlower⟩ := hlast hend hsuffix
      exact ⟨c, hc, .inr hlower⟩
    · cases h

theorem isInternalHostname_name {name : DomainName} (h : InternalName name.text) :
    isInternalHostname name.text = true := by
  have hchar : ∀ c, isDomainChar c = true → c.toLower = c ∧ isLineTerminator c = false := by
    intro c hc
    obtain ⟨hlow, hhigh, hupper, -⟩ := of_decide_eq_true hc
    refine ⟨?_, ?_⟩
    · unfold Char.toLower
      rw [dif_neg]
      exact mt decide_eq_true hupper
    · simp only [isLineTerminator, decide_eq_false_iff_not]
      simp
      omega
  have hlower : name.text.map Char.toLower = name.text :=
    (map_congr_left fun c hc => (hchar c (name.chars c hc)).1).trans (map_id' _)
  have hlines : ∀ n, ¬ (name.text.take n).any isLineTerminator := by
    intro n hany
    obtain ⟨c, hc, hline⟩ := any_eq_true.1 hany
    have hplain := (hchar c (name.chars c (mem_of_mem_take hc))).2
    exact absurd (hline.symm.trans hplain) (by decide)
  unfold isInternalHostname
  dsimp only
  rw [hlower]
  split
  · rfl
  next hlocalhost =>
  rw [if_pos]
  rcases h with hsame | hlocal | hinternal
  · exact absurd hsame hlocalhost
  · refine any_eq_true.2 ⟨"local".toList, by simp, decide_eq_true (.inr ?_)⟩
    exact decide_eq_true ⟨hlocal, hlines _⟩
  · refine any_eq_true.2 ⟨"internal".toList, by simp, decide_eq_true (.inr ?_)⟩
    exact decide_eq_true ⟨hinternal, hlines _⟩

theorem accepted_dotted {name : DomainName} (h : name.text.getLast? = some '.') :
    isInternalHostname name.text = false ∧ isPrivateIp name.text = false := by
  constructor
  · rw [Bool.eq_false_iff]
    intro hinternal
    obtain ⟨c, hc, hlower⟩ := isInternalHostname_last hinternal
    have hdot : c = '.' := Option.mem_unique hc h
    subst hdot
    exact absurd hlower (by decide)
  · have hforbidden : ∀ c ∈ ['[', ']', ':'], isDomainChar c = false := by
      simp only [forall_mem_cons]
      exact ⟨by decide, by decide, by decide, forall_mem_nil _⟩
    have hfree : ∀ c ∈ ['[', ']', ':'], c ∉ name.text := fun c hc hmem =>
      Bool.false_ne_true ((hforbidden c hc).symm.trans (name.chars c hmem))
    have hstrip := stripBrackets_plain (hfree '[' (by simp)) (hfree ']' (by simp))
    have hone : name.text ≠ "::1".toList := by
      intro hsame
      rw [hsame] at h
      exact absurd h (by decide)
    have hdot : '.' ∈ name.text := mem_of_mem_getLast? h
    have hipv6 : isIpv6Text name.text = false := by
      rw [Bool.eq_false_iff]
      intro htext
      have hall := all_eq_true.1 (of_decide_eq_true htext).2 '.' hdot
      exact absurd hall (by decide)
    have hipv4 : isIpv4Address name.text = false := by
      have hsplit : name.text.splitOn '.' = name.text.dropLast.splitOn '.' ++ [[]] := by
        conv_lhs => rw [← dropLast_append_getLast? '.' h]
        exact splitOn_append_separator _
      unfold isIpv4Address
      dsimp only
      rw [hsplit]
      split
      · rfl
      · rw [all_append]
        simp [parseInt, trimStart]
    unfold isPrivateIp
    rw [hstrip, if_neg hone, hipv4, hipv6]
    simp [hfree ':' (by simp)]

section Guarding
variable {parse : Text → Option Host} {url : Text} {host : Host}

theorem isInternalHostname_address (h : IsAddress host) : isInternalHostname host.text = false := by
  rw [Bool.eq_false_iff]
  intro hinternal
  obtain ⟨c, hc, hlower⟩ := isInternalHostname_last hinternal
  cases host with
  | domain name => exact h
  | ipv4 address =>
    have htext : c ∈ address.text := mem_of_mem_getLast? hc
    rcases mem_text4 htext with rfl | hdigit
    · exact absurd hlower (by decide)
    · exact digit_toLower hdigit hlower
  | ipv6 address =>
    have hbracket : c = ']' := by
      have hend : ('[' :: address.text ++ [']']).getLast? = some ']' := getLast?_concat
      exact (Option.mem_unique hc hend)
    subst hbracket
    exact absurd hlower (by decide)

theorem isPrivateIp_ipv4 (a : Ipv4Address) :
    isPrivateIp (Host.ipv4 a).text = true ↔ Internal4 a := by
  have hfree : ∀ {c : Char}, c ≠ '.' → isDigitOf 10 c = false → c ∉ a.text := by
    intro c hdot hdigit hmem
    rcases mem_text4 hmem with hc | hc
    · exact hdot hc
    · exact absurd (hc.symm.trans hdigit) (by decide)
  have hstrip : stripBrackets (Host.ipv4 a).text = a.text :=
    stripBrackets_plain (hfree (by decide) (by decide)) (hfree (by decide) (by decide))
  have hone : a.text ≠ "::1".toList := by
    intro hsame
    have hcolon : ':' ∉ a.text := hfree (by decide) (by decide)
    rw [hsame] at hcolon
    exact hcolon (by decide)
  unfold isPrivateIp
  rw [hstrip, if_neg hone, isIpv4Address_text, if_pos rfl]
  exact isPrivateIpv4_text a

theorem validateUrl_http {protocol : Text} (hprotocol : protocolOf (trimEnd (trimStart url)) =
    some protocol) (hhttp : isHttp protocol = true)
    (hparse : parse (trimEnd (trimStart url)) = some host) :
    validateUrl parse url = if host.text = [] then .error "URL has no hostname".toList
      else if isInternalHostname host.text then .error (internalReason host.text)
      else if isPrivateIp host.text then .error (privateReason host.text) else .ok () := by
  have htrimmed : trimEnd (trimStart url) ≠ [] := by
    intro hnil
    rw [hnil] at hprotocol
    exact absurd hprotocol (by simp [protocolOf])
  have hurl : url ≠ [] := by
    rintro rfl
    exact htrimmed rfl
  unfold validateUrl
  rw [if_neg hurl]
  rw [if_neg htrimmed, hprotocol]
  dsimp only
  rw [if_neg (not_not.2 hhttp), hparse]

theorem http_of_ok (h : validateUrl parse url = .ok ()) :
    (protocolOf (trimEnd (trimStart url))).any isHttp = true := by
  unfold validateUrl at h
  split at h
  · cases h
  dsimp only at h
  split at h
  · cases h
  split at h
  · cases h
  next protocol hprotocol =>
  split at h
  · cases h
  next hhttp =>
  rw [hprotocol]
  simpa using hhttp

theorem address_text_ne_nil (h : IsAddress host) : host.text ≠ [] := by
  cases host with
  | domain name => exact absurd h id
  | ipv4 address =>
    intro hnil
    have hipv4 := isIpv4Address_text address
    rw [show address.text = [] from hnil] at hipv4
    exact absurd hipv4 (by decide)
  | ipv6 address => exact cons_ne_nil _ _

theorem address_guarded {protocol : Text} (hprotocol : protocolOf (trimEnd (trimStart url)) =
    some protocol) (hhttp : isHttp protocol = true)
    (hparse : parse (trimEnd (trimStart url)) = some host) (haddress : IsAddress host) :
    ((validateUrl parse url = .ok () → ¬ InternalHost host) ∧
      (¬ InternalHost host → validateUrl parse url ≠ .error (privateReason host.text))) ↔
      (isPrivateIp host.text = true ↔ InternalHost host) := by
  have hvalidate := validateUrl_http hprotocol hhttp hparse
  rw [if_neg (address_text_ne_nil haddress), isInternalHostname_address haddress] at hvalidate
  simp only [Bool.false_eq_true, if_false] at hvalidate
  rw [hvalidate]
  cases isPrivateIp host.text with
  | false => simp
  | true => simp

theorem recognised6_iff (a : Ipv6Address) :
    (Loopback6 a ∨ InternalTail a ↔ Internal6 a) ↔ Recognised (.ipv6 a) := by
  have hloopback : Loopback6 a → ¬ InternalTail a ∧ ¬ LinkLocal6 a := by
    intro h
    refine ⟨fun htail => ?_, fun hlocal => ?_⟩
    · have hfive : (a 5).val = 0 := h 5
      exact absurd (hfive.symm.trans htail.1) (by decide)
    · have hfirst : (a 0).val = 0 := h 0
      unfold LinkLocal6 at hlocal
      omega
  have hzero : (∀ i, (a i).val = 0) → ¬ Loopback6 a ∧ ¬ InternalTail a := by
    intro h
    refine ⟨fun hloop => ?_, fun htail => ?_⟩
    · exact absurd ((h 7).symm.trans (hloop 7)) (by decide)
    · exact absurd ((h 5).symm.trans htail.1) (by decide)
  have hsome : (∃ i, (a i).val ≠ 0) ↔ ¬ ∀ i, (a i).val = 0 := not_forall.symm
  unfold Recognised Internal6
  dsimp only
  rw [hsome]
  tauto

/-- The guard does its work exactly for the URLs whose host it recognises. -/
theorem guarded_iff : Guarded parse url ↔
    ∀ host, (protocolOf (trimEnd (trimStart url))).any isHttp = true →
      parse (trimEnd (trimStart url)) = some host → Recognised host := by
  refine forall_congr' fun host => ?_
  cases hany : (protocolOf (trimEnd (trimStart url))).any isHttp with
  | false =>
    have hrefused : validateUrl parse url ≠ .ok () := fun hok =>
      absurd ((http_of_ok hok).symm.trans hany) (by decide)
    simp [hrefused]
  | true =>
    simp only [true_implies]
    refine forall_congr' fun hparse => ?_
    obtain ⟨protocol, hprotocol, hhttp⟩ := (Option.any_eq_true _ _).1 hany
    cases host with
    | domain name =>
      have hvalidate := validateUrl_http hprotocol hhttp hparse
      constructor
      · rintro ⟨hok, -⟩ hdotted
        have hinternal : isInternalHostname (Host.domain name).text = false :=
          (accepted_dotted hdotted.1).1
        have hprivate : isPrivateIp (Host.domain name).text = false := (accepted_dotted hdotted.1).2
        have hne : (Host.domain name).text ≠ [] := by
          intro hnil
          have hdot : [].getLast? = some '.' := hnil ▸ hdotted.1
          exact absurd hdot (by decide)
        refine hok ?_ (.inr hdotted)
        rw [hvalidate, if_neg hne, hinternal, hprivate]
        rfl
      · intro hplain
        refine ⟨fun hok hinternal => ?_, fun haddress => absurd haddress id⟩
        rcases hinternal with hname | hdotted
        · rw [hvalidate] at hok
          have hrecognised : isInternalHostname (Host.domain name).text = true :=
            isInternalHostname_name hname
          rw [hrecognised] at hok
          split at hok <;> cases hok
        · exact hplain hdotted
    | ipv4 address =>
      have hguarded := address_guarded hprotocol hhttp hparse trivial
      simp only [IsAddress, true_implies]
      exact iff_of_true (hguarded.2 (isPrivateIp_ipv4 address)) trivial
    | ipv6 address =>
      have hguarded := address_guarded hprotocol hhttp hparse trivial
      simp only [IsAddress, true_implies]
      rw [hguarded, isPrivateIp_ipv6]
      exact recognised6_iff address

end Guarding

def linkLocalAddress : Ipv6Address := ![0xFE80, 0, 0, 0, 0, 0, 0, 1]

/-- A link-local address is accepted. -/
theorem link_local_accepted :
    ¬ Guarded (fun _ => some (.ipv6 linkLocalAddress)) "http://[fe80::1]/".toList := by
  intro h
  have hlocal : InternalHost (.ipv6 linkLocalAddress) := .inr (.inr (.inl rfl))
  exact (h _ rfl).1 (by decide) hlocal

end Rolebox.Web.Guard
