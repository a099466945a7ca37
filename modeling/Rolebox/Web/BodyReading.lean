import Mathlib.Algebra.Order.Floor.Div
import Rolebox.General.JsText
import Rolebox.General.NumberText
import Rolebox.General.Utf8
import Rolebox.Hashline.Text

/-! Reading a response body up to a cap, chunk by chunk. -/

namespace Rolebox.Web
open General List
open Hashline (Text isWhitespace trimStart trimEnd)

abbrev Bytes := Utf8.Bytes

def radixNumber (base : Nat) (digits : Text) : Option ℚ :=
  if digits = [] then none
  else (digits.mapM fun c => (JsText.readHexDigit c).filter (· < base)).map fun values =>
    (values.foldl (fun n digit => n * base + digit) 0 : Nat)

def decimalNumber (l : Text) : Option ℚ :=
  let whole := l.takeWhile Char.isDigit
  let tail := l.dropWhile Char.isDigit
  let (fraction, tail) :=
    match tail with
    | '.' :: rest => (rest.takeWhile Char.isDigit, rest.dropWhile Char.isDigit)
    | _ => ([], tail)
  if whole = [] ∧ fraction = [] then none
  else
    match readExponent tail with
    | some (exponent, []) => some (decimal (whole ++ fraction) (exponent - fraction.length))
    | _ => none

def signedNumber : Text → Option ℚ
  | '-' :: l => (decimalNumber l).map (-·)
  | '+' :: l => decimalNumber l
  | l => decimalNumber l

def finiteDouble (q : ℚ) : Option ℚ :=
  if nearest |q| < infinityPlace then
    some ((if q < 0 then -1 else 1) * (magnitude (nearest |q|) / 2 ^ 1074))
  else none

/-- `Number(text)`, of a text or of none, where it is finite. -/
def number : Option Text → Option ℚ
  | none => some 0
  | some text =>
    match trimEnd (trimStart text) with
    | [] => some 0
    | '0' :: x :: digits =>
      if x = 'x' ∨ x = 'X' then (radixNumber 16 digits).bind finiteDouble
      else if x = 'o' ∨ x = 'O' then (radixNumber 8 digits).bind finiteDouble
      else if x = 'b' ∨ x = 'B' then (radixNumber 2 digits).bind finiteDouble
      else (signedNumber ('0' :: x :: digits)).bind finiteDouble
    | l => (signedNumber l).bind finiteDouble

/-- A response without a stream, or the values of its reader and the error it ends in. -/
inductive ResponseBody where
  | buffer (bytes : Bytes)
  | stream (values : List (Option Bytes)) (failure : Option Text)

structure Response where
  contentLength : Option Text
  body : ResponseBody

def setAt (bytes : Bytes) (offset : Nat) (chunk : Bytes) : Bytes :=
  bytes.take offset ++ chunk ++ bytes.drop (offset + chunk.length)

def joinChunks (chunks : List Bytes) (total : Nat) : Bytes :=
  match chunks with
  | [] => []
  | [chunk] => chunk
  | _ =>
    (chunks.foldl (fun (joined : Bytes × Nat) chunk =>
      (setAt joined.1 joined.2 chunk, joined.2 + chunk.length)) (replicate total 0, 0)).1

abbrev Accepted := List Bytes × Nat × Bool

def readLoop (cap : Nat) (declaredOverCap : Bool) (failure : Option Text) :
    List (Option Bytes) → List Bytes → Nat → Except Text Accepted
  | [], chunks, total =>
    -- a declared length above the cap already proves truncation, so no further chunk is read
    if declaredOverCap ∧ cap ≤ total then .ok (chunks, total, true)
    else
      match failure with
      | some error => .error error
      | none => .ok (chunks, total, false)
  | value :: values, chunks, total =>
    if declaredOverCap ∧ cap ≤ total then .ok (chunks, total, true)
    else
      let chunk := value.getD []
      if chunk = [] then readLoop cap declaredOverCap failure values chunks total
      else if cap ≤ total then .ok (chunks, total, true)
      else if cap - total < chunk.length then
        .ok (chunks ++ [chunk.take (cap - total)], cap, true)
      else readLoop cap declaredOverCap failure values (chunks ++ [chunk]) (total + chunk.length)

def capOf : Option ℚ → Nat
  | some maxBytes => if 0 < maxBytes then ⌊maxBytes⌋.toNat else 0
  | none => 0

def declaredOverCap (response : Response) (cap : Nat) : Bool :=
  (number response.contentLength).any fun declaredLength => decide ((cap : ℚ) < declaredLength)

structure BodyRead where
  bytes : Bytes
  truncated : Bool
  deriving DecidableEq

def readBodyCapped (response : Response) (maxBytes : Option ℚ) : Except Text BodyRead :=
  let cap := capOf maxBytes
  match response.body with
  | .buffer view =>
    if cap < view.length then .ok { bytes := view.take cap, truncated := true }
    else .ok { bytes := view, truncated := false }
  | .stream values failure =>
    (readLoop cap (declaredOverCap response cap) failure values [] 0).map
      fun (chunks, total, truncated) => { bytes := joinChunks chunks total, truncated }

def ResponseBody.bytes : ResponseBody → Bytes
  | .buffer bytes => bytes
  | .stream values _ => values.flatMap (·.getD [])

def ResponseBody.Ends : ResponseBody → Prop
  | .buffer _ => True
  | .stream _ failure => failure = none

theorem foldl_setAt (chunks : List Bytes) (done rest : Bytes)
    (h : rest.length = chunks.flatten.length) :
    (chunks.foldl (fun (joined : Bytes × Nat) chunk =>
      (setAt joined.1 joined.2 chunk, joined.2 + chunk.length)) (done ++ rest, done.length)).1 =
      done ++ chunks.flatten := by
  induction chunks generalizing done rest with
  | nil =>
    rw [flatten_nil, length_nil, length_eq_zero_iff] at h
    simp [h]
  | cons chunk chunks ih =>
    rw [flatten_cons, length_append] at h
    have hset : setAt (done ++ rest) done.length chunk =
        (done ++ chunk) ++ rest.drop chunk.length := by
      rw [setAt, take_left, drop_append, drop_eq_nil_of_le (by omega)]
      simp
    have hnext := ih (done ++ chunk) (rest.drop chunk.length) (by rw [length_drop]; omega)
    rw [length_append] at hnext
    rw [foldl_cons, hset, hnext, flatten_cons, append_assoc]

theorem joinChunks_eq (chunks : List Bytes) :
    joinChunks chunks chunks.flatten.length = chunks.flatten := by
  unfold joinChunks
  split
  · rfl
  · simp
  · exact foldl_setAt chunks [] _ (by simp)

theorem readLoop_ok {cap : Nat} {overCap : Bool} (values : List (Option Bytes))
    (chunks : List Bytes) (hcap : chunks.flatten.length ≤ cap) :
    ∃ accepted, readLoop cap overCap none values chunks chunks.flatten.length =
        .ok (accepted, accepted.flatten.length,
          decide (cap < (chunks.flatten ++ values.flatMap (·.getD [])).length ∨
            overCap = true ∧ cap ≤ (chunks.flatten ++ values.flatMap (·.getD [])).length)) ∧
      accepted.flatten = (chunks.flatten ++ values.flatMap (·.getD [])).take cap := by
  induction values generalizing chunks with
  | nil =>
    rw [flatMap_nil, append_nil]
    refine ⟨chunks, ?_, (take_of_length_le hcap).symm⟩
    rw [readLoop]
    split
    · next h => rw [decide_eq_true (.inr h)]
    · next h => rw [decide_eq_false fun hlong => hlong.elim (fun hlt => by omega) h]
  | cons value values ih =>
    obtain ⟨chunk, hchunk⟩ : ∃ chunk, value.getD [] = chunk := ⟨_, rfl⟩
    rw [readLoop, flatMap_cons, hchunk]
    have hlonger : chunks.flatten.length ≤
        (chunks.flatten ++ (chunk ++ values.flatMap (·.getD []))).length := by simp
    split
    · next h =>
      -- the cap is reached before the declared length
      refine ⟨chunks, by rw [decide_eq_true (.inr ⟨h.1, h.2.trans hlonger⟩)], ?_⟩
      rw [take_left' (le_antisymm hcap h.2)]
    dsimp only
    split
    · next hempty =>
      rw [hempty, nil_append]
      exact ih chunks hcap
    next hne =>
    have hpos : 0 < chunk.length := length_pos_iff.2 hne
    split
    · next hfull =>
      have hlong : cap < (chunks.flatten ++ (chunk ++ values.flatMap (·.getD []))).length := by
        rw [length_append, length_append]
        omega
      exact ⟨chunks, by rw [decide_eq_true (.inl hlong)],
        by rw [take_left' (le_antisymm hcap hfull)]⟩
    next hroom =>
    split
    · next hover =>
      have hlength : (chunks ++ [chunk.take (cap - chunks.flatten.length)]).flatten.length = cap := by
        rw [flatten_append, flatten_singleton, length_append, length_take]
        omega
      have hlong : cap < (chunks.flatten ++ (chunk ++ values.flatMap (·.getD []))).length := by
        rw [length_append, length_append]
        omega
      refine ⟨chunks ++ [chunk.take (cap - chunks.flatten.length)], ?_, ?_⟩
      · rw [hlength, decide_eq_true (.inl hlong)]
      · rw [flatten_append, flatten_singleton, take_append,
          take_of_length_le hcap, take_append_of_le_length hover.le]
    · next hfits =>
      have hflat : (chunks ++ [chunk]).flatten = chunks.flatten ++ chunk := by simp
      have hnext := ih (chunks ++ [chunk]) (by rw [hflat, length_append]; omega)
      rwa [hflat, length_append, append_assoc] at hnext

theorem readBodyCapped_stream {response : Response} {values : List (Option Bytes)}
    (hbody : response.body = .stream values none) (maxBytes : Option ℚ) :
    readBodyCapped response maxBytes = .ok
      { bytes := response.body.bytes.take (capOf maxBytes)
        truncated := decide (capOf maxBytes < response.body.bytes.length ∨
          declaredOverCap response (capOf maxBytes) = true ∧
            capOf maxBytes ≤ response.body.bytes.length) } := by
  obtain ⟨accepted, hloop, hbytes⟩ := @readLoop_ok (capOf maxBytes)
    (declaredOverCap response (capOf maxBytes)) values [] (by simp)
  rw [readBodyCapped, hbody]
  simp only [flatten_nil, length_nil, nil_append] at hloop hbytes
  simp only [hloop, Except.map, joinChunks_eq]
  rw [hbytes, ResponseBody.bytes]

theorem readBodyCapped_buffer {response : Response} {bytes : Bytes}
    (hbody : response.body = .buffer bytes) (maxBytes : Option ℚ) :
    readBodyCapped response maxBytes = .ok
      { bytes := bytes.take (capOf maxBytes)
        truncated := decide (capOf maxBytes < bytes.length) } := by
  rw [readBodyCapped, hbody]
  dsimp only
  split
  · next h => rw [decide_eq_true h]
  · next h => rw [decide_eq_false h, take_of_length_le (by omega)]

end Rolebox.Web
