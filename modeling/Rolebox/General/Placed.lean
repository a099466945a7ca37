import Mathlib.Data.List.Induction
import Mathlib.Algebra.Order.Monoid.Unbundled.WithTop

/-! Changes to a list placed by element numbers, made from the last, or all at once. -/

namespace General
open List

section Changes

/-- A change of a list; its elements are numbered from one. -/
inductive Placed (α : Type*) where
  | replace (first last : Nat) (block : List α)
  | after (number : Nat) (text : List α)
  | before (number : Nat) (text : List α)
  | atEnd (text : List α)
  | atStart (text : List α)
  deriving DecidableEq

variable {α : Type*}

namespace Placed

def make (xs : List α) : Placed α → List α
  | replace first last block =>
    xs.take (first - 1) ++ block ++ xs.drop (first - 1 + (last - first + 1))
  | after number text => xs.take number ++ text ++ xs.drop number
  | before number text => xs.take (number - 1) ++ text ++ xs.drop (number - 1)
  | atEnd text => xs ++ text
  | atStart text => text ++ xs

def Within (length : Nat) : Placed α → Prop
  | replace first last _ => 1 ≤ first ∧ first ≤ last ∧ last ≤ length
  | after number _ => 1 ≤ number ∧ number ≤ length
  | before number _ => 1 ≤ number ∧ number ≤ length
  | atEnd _ => True
  | atStart _ => True

def covers (n : Nat) : Placed α → Bool
  | replace first last _ => first ≤ n && n ≤ last
  | _ => false

def span : Placed α → Option (Nat × Nat)
  | replace first last _ => some (first, last)
  | _ => none

def insertedAt : Placed α → Option Nat
  | after number _ => some number
  | before number _ => some number
  | _ => none

def blockAt (n : Nat) : Placed α → List α
  | replace first _ block => if first = n then block else []
  | _ => []

def afterText (n : Nat) : Placed α → List α
  | after number text => if number = n then text else []
  | _ => []

def beforeText (n : Nat) : Placed α → List α
  | before number text => if number = n then text else []
  | _ => []

def endText : Placed α → List α
  | atEnd text => text
  | _ => []

def startText : Placed α → List α
  | atStart text => text
  | _ => []

end Placed

namespace Placed

/-! A change that writes at a place is placed there. -/

variable {p : Placed α}

theorem eq_replace {n : Nat} (h : p.blockAt n ≠ []) : ∃ last block, p = replace n last block := by
  cases p with
  | replace first last block =>
    by_cases hn : first = n
    · exact ⟨last, block, by rw [hn]⟩
    · exact absurd (if_neg hn) h
  | _ => exact absurd rfl h

theorem eq_after {n : Nat} (h : p.afterText n ≠ []) : ∃ text, p = after n text := by
  cases p with
  | after number text =>
    by_cases hn : number = n
    · exact ⟨text, by rw [hn]⟩
    · exact absurd (if_neg hn) h
  | _ => exact absurd rfl h

theorem eq_before {n : Nat} (h : p.beforeText n ≠ []) : ∃ text, p = before n text := by
  cases p with
  | before number text =>
    by_cases hn : number = n
    · exact ⟨text, by rw [hn]⟩
    · exact absurd (if_neg hn) h
  | _ => exact absurd rfl h

theorem eq_atEnd (h : p.endText ≠ []) : ∃ text, p = atEnd text := by
  cases p with
  | atEnd text => exact ⟨text, rfl⟩
  | _ => exact absurd rfl h

theorem eq_atStart (h : p.startText ≠ []) : ∃ text, p = atStart text := by
  cases p with
  | atStart text => exact ⟨text, rfl⟩
  | _ => exact absurd rfl h

end Placed

/-- What the change writes. -/
def Placed.text : Placed α → List α
  | replace _ _ block => block
  | after _ text => text
  | before _ text => text
  | atEnd text => text
  | atStart text => text

/-- What the changes put at one place; a later one comes in front. -/
def gathered (text : Placed α → List α) (ps : List (Placed α)) : List α :=
  (ps.map text).reverse.flatten

/-- The block of a replace at its first element, nothing at its others. -/
def body (ps : List (Placed α)) (n : Nat) (x : α) : List α :=
  if ps.any (Placed.covers n) then gathered (Placed.blockAt n) ps else [x]

/-- An element with what was put around it; what goes after it follows the first of a block. -/
def cell (ps : List (Placed α)) (n : Nat) (x : α) : List α :=
  gathered (Placed.beforeText n) ps ++ (body ps n x).take 1 ++ gathered (Placed.afterText n) ps ++
    (body ps n x).drop 1

def cells (at' : Nat → α → List α) : Nat → List α → List α
  | _, [] => []
  | n, x :: xs => at' n x ++ cells at' (n + 1) xs

def layout (xs : List α) (ps : List (Placed α)) : List α :=
  gathered Placed.startText ps ++ cells (cell ps) 1 xs ++ (ps.map Placed.endText).flatten

/-- All changes made at once: around each element what is put before it and after it. -/
def simultaneous (xs : List α) (ps : List (Placed α)) : List α :=
  gathered Placed.startText ps ++
    cells (fun n x => gathered (Placed.beforeText n) ps ++ body ps n x ++
      gathered (Placed.afterText n) ps) 1 xs ++
    (ps.map Placed.endText).flatten

end Changes

section Cells

variable {α : Type*}

@[simp] theorem gathered_concat (text : Placed α → List α) (ps : List (Placed α)) (p : Placed α) :
    gathered text (ps ++ [p]) = text p ++ gathered text ps := by
  simp [gathered]

variable {ps : List (Placed α)}

theorem gathered_eq_nil {text : Placed α → List α}
    (h : ∀ p ∈ ps, text p = []) : gathered text ps = [] := by
  simpa [gathered] using h

theorem cells_append (at' : Nat → α → List α) (n : Nat) (xs ys : List α) :
    cells at' n (xs ++ ys) = cells at' n xs ++ cells at' (n + xs.length) ys := by
  induction xs generalizing n with
  | nil => rfl
  | cons x xs ih =>
    rw [cons_append, cells, cells, ih, append_assoc, length_cons, Nat.add_right_comm, Nat.add_assoc]

theorem cells_congr {at₁ at₂ : Nat → α → List α} {n : Nat} {xs : List α}
    (h : ∀ m, n ≤ m → m < n + xs.length → ∀ x, at₁ m x = at₂ m x) :
    cells at₁ n xs = cells at₂ n xs := by
  induction xs generalizing n with
  | nil => rfl
  | cons x xs ih =>
    have hhead : at₁ n x = at₂ n x := h n le_rfl (by simp) x
    have htail : cells at₁ (n + 1) xs = cells at₂ (n + 1) xs := by
      apply ih
      intro m hn hm
      exact h m (by omega) (by rw [length_cons]; omega)
    rw [cells, cells, hhead, htail]

@[simp] theorem cells_one (at' : Nat → α → List α) (n : Nat) (x : α) :
    cells at' n [x] = at' n x := by
  rw [cells, cells, append_nil]

theorem cells_singleton (n : Nat) (xs : List α) : cells (fun _ x => [x]) n xs = xs := by
  induction xs generalizing n with
  | nil => rfl
  | cons x xs ih => rw [cells, ih, singleton_append]

theorem cells_nil (n : Nat) (xs : List α) : cells (fun _ _ => ([] : List α)) n xs = [] := by
  induction xs generalizing n with
  | nil => rfl
  | cons x xs ih => rw [cells, ih, append_nil]

structure Placed.Misses (n : Nat) (p : Placed α) : Prop where
  covers : p.covers n = false
  block : p.blockAt n = []
  after : p.afterText n = []
  before : p.beforeText n = []

theorem Placed.make_after_nil (xs : List α) (n : Nat) : (Placed.after n []).make xs = xs := by
  rw [make, append_nil, take_append_drop]

theorem Placed.make_after_append (front text rest : List α) (x : α) :
    (Placed.after (front.length + 1) text).make (front ++ x :: rest) =
      front ++ x :: (text ++ rest) := by
  have hfront : (front ++ [x]).length = front.length + 1 := by simp
  have htake : (front ++ x :: rest).take (front.length + 1) = front ++ [x] := by
    rw [append_cons, take_left' hfront]
  have hdrop : (front ++ x :: rest).drop (front.length + 1) = rest := by
    rw [append_cons, drop_left' hfront]
  rw [make, htake, hdrop]
  simp

theorem Placed.make_replace_append (front middle rest block : List α) {last : Nat}
    (h : front.length + middle.length = last) (hlast : front.length < last) :
    (Placed.replace (front.length + 1) last block).make (front ++ (middle ++ rest)) =
      front ++ (block ++ rest) := by
  have htake : (front ++ (middle ++ rest)).take (front.length + 1 - 1) = front := take_left' rfl
  have hcount : front.length + 1 - 1 + (last - (front.length + 1) + 1) =
      (front ++ middle).length := by
    rw [length_append]
    omega
  have hdrop : (front ++ (middle ++ rest)).drop (front ++ middle).length = rest := by
    rw [← append_assoc, drop_left]
  rw [make, htake, hcount, hdrop, append_assoc]

theorem body_of_misses {n : Nat} (h : ∀ p ∈ ps, p.covers n = false)
    (x : α) : body ps n x = [x] := by
  have hany : ps.any (Placed.covers n) = false := by simpa using h
  rw [body, hany]
  rfl

theorem body_concat {p : Placed α} {n : Nat} (hcovers : p.covers n = false)
    (hblock : p.blockAt n = []) (x : α) : body (ps ++ [p]) n x = body ps n x := by
  rw [body, body, any_append, any_cons, any_nil, hcovers, gathered_concat, hblock]
  simp

theorem exists_of_body_eq_nil {n : Nat} {x : α} (h : body ps n x = []) :
    ∃ q ∈ ps, q.covers n = true ∧ q.blockAt n = [] := by
  rw [body] at h
  split at h
  · case isTrue hany =>
    obtain ⟨q, hq, hcovers⟩ := any_eq_true.1 hany
    refine ⟨q, hq, hcovers, ?_⟩
    have hall : ∀ p ∈ ps, p.blockAt n = [] := by simpa [gathered] using h
    exact hall q hq
  · exact absurd h (cons_ne_nil x [])

theorem cell_of_misses {n : Nat} (h : ∀ p ∈ ps, p.Misses n) (x : α) : cell ps n x = [x] := by
  rw [cell, body_of_misses fun p hp => (h p hp).covers, gathered_eq_nil fun p hp => (h p hp).before,
    gathered_eq_nil fun p hp => (h p hp).after]
  rfl

theorem cell_concat {p : Placed α} {n : Nat} (h : p.Misses n) (x : α) :
    cell (ps ++ [p]) n x = cell ps n x := by
  rw [cell, cell, body_concat h.covers h.block, gathered_concat, gathered_concat, h.before, h.after]
  rfl

theorem exists_split (xs : List α) (a b : Nat) (h : a + b ≤ xs.length) :
    ∃ front middle back, xs = front ++ (middle ++ back) ∧ front.length = a ∧ middle.length = b := by
  refine ⟨xs.take a, (xs.drop a).take b, (xs.drop a).drop b, ?_, ?_, ?_⟩
  · rw [take_append_drop, take_append_drop]
  · rw [length_take]
    omega
  · rw [length_take, length_drop]
    omega

end Cells

section Order

variable {α : Type*}

namespace Placed

def line : Placed α → WithTop Nat
  | replace first _ _ => (first : WithTop Nat)
  | after number _ => (number : WithTop Nat)
  | before number _ => (number : WithTop Nat)
  | atEnd _ => ⊤
  | atStart _ => ((0 : Nat) : WithTop Nat)

def rank : Placed α → Nat
  | replace _ _ _ => 0
  | after _ _ => 1
  | before _ _ => 2
  | atEnd _ => 1
  | atStart _ => 2

/-- The order of making: from the last element to the first, and at one element replaces first. -/
def Precedes (q p : Placed α) : Prop := p.line < q.line ∨ q.line = p.line ∧ q.rank ≤ p.rank

/-- What a change needs of one made earlier: nothing inside its range or before its last element. -/
def Fits : Placed α → Placed α → Prop
  | replace first _ _, replace _ last' _ => last' < first
  | before number text, replace first last _ => first < number → number ≤ last → text = []
  | after number text, replace first last _ => first < number → number < last → text = []
  | replace first _ block, after number text => first = number → block = [] → text = []
  | _, _ => True

/-- No element is replaced twice. -/
def Apart (q p : Placed α) : Prop := ∀ n, q.covers n = true → p.covers n = false

/-- What `Fits` asks of a text and a range, whichever of the two is made first. -/
def Respects : Placed α → Placed α → Prop
  | before number text, replace first last _ => first < number → number ≤ last → text = []
  | after number text, replace first last _ => first < number → number < last → text = []
  | replace first _ block, after number text => first = number → block = [] → text = []
  | _, _ => True

variable {q p : Placed α}

theorem Apart.symm (h : q.Apart p) : p.Apart q := by
  intro n hp
  by_contra hq
  rw [Bool.not_eq_false] at hq
  rw [h n hq] at hp
  exact nomatch hp

theorem covers_iff {p : Placed α} {n : Nat} :
    p.covers n = true ↔ ∃ s ∈ p.span, s.1 ≤ n ∧ n ≤ s.2 := by
  cases p <;> simp [covers, span]

variable {length : Nat}

theorem Within.span_le {p : Placed α} (h : p.Within length) : ∀ s ∈ p.span, s.1 ≤ s.2 := by
  intro s hs
  cases p with
  | replace first last block =>
    obtain rfl : (first, last) = s := Option.some.inj hs
    exact h.2.1
  | _ => exact nomatch hs

theorem apart_iff (hq : q.Within length) (hp : p.Within length) :
    q.Apart p ↔ ∀ s ∈ q.span, ∀ t ∈ p.span, ¬ (t.1 ≤ s.2 ∧ s.1 ≤ t.2) := by
  constructor
  · rintro hapart s hs t ht ⟨hle, hle'⟩
    have hcovers : q.covers (max s.1 t.1) = true :=
      covers_iff.2 ⟨s, hs, le_max_left _ _, max_le (hq.span_le s hs) hle⟩
    have hcovers' : p.covers (max s.1 t.1) = true :=
      covers_iff.2 ⟨t, ht, le_max_right _ _, max_le hle' (hp.span_le t ht)⟩
    rw [hapart _ hcovers] at hcovers'
    exact nomatch hcovers'
  · intro h n hn
    by_contra hp'
    obtain ⟨s, hs, hs₁, hs₂⟩ := covers_iff.1 hn
    obtain ⟨t, ht, ht₁, ht₂⟩ := covers_iff.1 (by simpa using hp')
    exact h s hs t ht ⟨ht₁.trans hs₂, hs₁.trans ht₂⟩

section

variable (h : q.Precedes p)
include h

theorem Precedes.line_le : p.line ≤ q.line := by
  rcases h with h | ⟨h, -⟩
  · exact h.le
  · exact h.ge

theorem Precedes.misses {n : Nat} (hn : (n : WithTop Nat) < p.line) : q.Misses n := by
  have hline : (n : WithTop Nat) < q.line := hn.trans_le h.line_le
  cases q with
  | replace first last block =>
    have hfirst : n < first := WithTop.coe_lt_coe.1 hline
    have hne : ¬ first = n := by omega
    exact ⟨by simp [covers, hfirst], if_neg hne, rfl, rfl⟩
  | after number text =>
    have hnumber : n < number := WithTop.coe_lt_coe.1 hline
    have hne : ¬ number = n := by omega
    exact ⟨rfl, rfl, if_neg hne, rfl⟩
  | before number text =>
    have hnumber : n < number := WithTop.coe_lt_coe.1 hline
    have hne : ¬ number = n := by omega
    exact ⟨rfl, rfl, rfl, if_neg hne⟩
  | atEnd text => exact ⟨rfl, rfl, rfl, rfl⟩
  | atStart text => exact ⟨rfl, rfl, rfl, rfl⟩

theorem Precedes.startText {n : Nat} (hn : 1 ≤ n) (hp : p.line = n) : q.startText = [] := by
  cases q with
  | atStart text =>
    have hle : (n : WithTop Nat) ≤ ((0 : Nat) : WithTop Nat) := hp ▸ h.line_le
    have hzero : n ≤ 0 := WithTop.coe_le_coe.1 hle
    omega
  | replace first last block => rfl
  | after number text => rfl
  | before number text => rfl
  | atEnd text => rfl

theorem Precedes.fits (hwithin : q.Within length)
    (hapart : q.Apart p) (hrespects : q.Respects p) : q.Fits p := by
  cases q with
  | replace first last block =>
    cases p with
    | replace first' last' block' =>
      have hle : first' ≤ first := WithTop.coe_le_coe.1 h.line_le
      have hcovers : (replace first last block).covers first = true := by
        simp [covers, hwithin.2.1]
      have hnot := hapart first hcovers
      simpa [covers, hle, Fits] using hnot
    | after number text => exact hrespects
    | _ => trivial
  | after number text => cases p <;> exact hrespects
  | before number text => cases p <;> exact hrespects
  | atEnd text => cases p <;> trivial
  | atStart text => cases p <;> trivial

theorem Precedes.rank_le (hline : q.line = p.line) : q.rank ≤ p.rank := by
  rcases h with h | ⟨-, h⟩
  · rw [hline] at h
    exact absurd h (lt_irrefl _)
  · exact h

end

end Placed

theorem layout_split {front : List α} (middle back : List α) {ps : List (Placed α)}
    (hstart : ∀ q ∈ ps, q.startText = []) (hmisses : ∀ q ∈ ps, ∀ n < front.length + 1, q.Misses n) :
    layout (front ++ (middle ++ back)) ps =
      front ++ (cells (cell ps) (front.length + 1) middle ++
        (cells (cell ps) (front.length + 1 + middle.length) back ++
          (ps.map Placed.endText).flatten)) := by
  have hfront : cells (cell ps) 1 front = front := by
    have hcells : cells (cell ps) 1 front = cells (fun _ x => [x]) 1 front := by
      apply cells_congr
      intro n _ hn x
      exact cell_of_misses (fun q hq => hmisses q hq n (by omega)) x
    rw [hcells, cells_singleton]
  rw [layout, gathered_eq_nil hstart, cells_append, cells_append, hfront, Nat.add_comm 1]
  simp only [nil_append, append_assoc]

theorem layout_concat_split {front middle back : List α} {ps : List (Placed α)} {p : Placed α}
    (hstart : ∀ q ∈ ps ++ [p], q.startText = []) (hend : p.endText = [])
    (hmisses : ∀ q ∈ ps ++ [p], ∀ n < front.length + 1, q.Misses n)
    (hback : ∀ n, front.length + 1 + middle.length ≤ n → p.Misses n) :
    layout (front ++ (middle ++ back)) (ps ++ [p]) =
      front ++ (cells (cell (ps ++ [p])) (front.length + 1) middle ++
        (cells (cell ps) (front.length + 1 + middle.length) back ++
          (ps.map Placed.endText).flatten)) := by
  have hcells : cells (cell (ps ++ [p])) (front.length + 1 + middle.length) back =
      cells (cell ps) (front.length + 1 + middle.length) back := by
    apply cells_congr
    intro n hn _ x
    exact cell_concat (hback n hn) x
  rw [layout_split _ _ hstart hmisses, hcells, map_append, map_singleton, hend]
  simp

end Order

section Steps

variable {α : Type*} {xs : List α} {ps : List (Placed α)}

theorem layout_atEnd (text : List α) :
    (Placed.atEnd text).make (layout xs ps) = layout xs (ps ++ [.atEnd text]) := by
  have hcells : cells (cell (ps ++ [.atEnd text])) 1 xs = cells (cell ps) 1 xs :=
    cells_congr fun n _ _ x => cell_concat ⟨rfl, rfl, rfl, rfl⟩ x
  rw [layout, layout, hcells, gathered_concat]
  simp [Placed.make, Placed.startText, Placed.endText]

theorem layout_atStart (text : List α) :
    (Placed.atStart text).make (layout xs ps) = layout xs (ps ++ [.atStart text]) := by
  have hcells : cells (cell (ps ++ [.atStart text])) 1 xs = cells (cell ps) 1 xs :=
    cells_congr fun n _ _ x => cell_concat ⟨rfl, rfl, rfl, rfl⟩ x
  rw [layout, layout, hcells, gathered_concat]
  simp [Placed.make, Placed.startText, Placed.endText]

theorem sides_of_precedes {p : Placed α} {n : Nat} (hline : p.line = ((n + 1 : Nat) : WithTop Nat))
    (h : ∀ q ∈ ps, q.Precedes p) :
    (∀ q ∈ ps ++ [p], q.startText = []) ∧ ∀ q ∈ ps ++ [p], ∀ m < n + 1, q.Misses m := by
  have hself : p.Precedes p := .inr ⟨rfl, le_rfl⟩
  have hall : ∀ q ∈ ps ++ [p], q.Precedes p := by
    intro q hq
    rcases mem_append.1 hq with hq | hq
    · exact h q hq
    · rw [mem_singleton.1 hq]
      exact hself
  refine ⟨fun q hq => (hall q hq).startText (Nat.succ_pos n) hline, fun q hq m hm => ?_⟩
  apply (hall q hq).misses
  rw [hline]
  exact WithTop.coe_lt_coe.2 hm

variable {text : List α}

theorem layout_before {n : Nat} (hn : 1 ≤ n) (hle : n ≤ xs.length)
    (h : ∀ q ∈ ps, q.Precedes (.before n text)) :
    (Placed.before n text).make (layout xs ps) = layout xs (ps ++ [.before n text]) := by
  obtain ⟨front, middle, back, rfl, hfront, hmiddle⟩ := exists_split xs (n - 1) 1 (by omega)
  obtain ⟨x, rfl⟩ := length_eq_one_iff.1 hmiddle
  obtain rfl : n = front.length + 1 := by omega
  obtain ⟨hstart, hmisses⟩ := sides_of_precedes (n := front.length) rfl h
  have hback (m : Nat) (hm : front.length + 1 + [x].length ≤ m) :
      (Placed.before (front.length + 1) text).Misses m :=
    ⟨rfl, rfl, rfl, if_neg (by simp at hm; omega)⟩
  have hcell : cell (ps ++ [.before (front.length + 1) text]) (front.length + 1) x =
      text ++ cell ps (front.length + 1) x := by
    rw [cell, cell, body_concat rfl rfl, gathered_concat, gathered_concat]
    simp [Placed.beforeText, Placed.afterText]
  rw [layout_split _ _ (fun q hq => hstart q (mem_append_left _ hq))
      (fun q hq => hmisses q (mem_append_left _ hq)),
    layout_concat_split hstart rfl hmisses hback]
  simp [Placed.make, cells, hcell]

theorem gathered_before_after {n : Nat}
    (h : ∀ q ∈ ps, q.Precedes (.after n text)) : gathered (Placed.beforeText n) ps = [] := by
  apply gathered_eq_nil
  intro q hq
  by_contra hne
  obtain ⟨given, rfl⟩ := Placed.eq_before hne
  have hrank := (h _ hq).rank_le rfl
  simp [Placed.rank] at hrank

theorem text_eq_nil_of_body {n : Nat} {x : α}
    (h : ∀ q ∈ ps, q.Precedes (.after n text) ∧ q.Fits (.after n text))
    (hbody : body ps n x = []) : text = [] := by
  obtain ⟨q, hq, hcovers, hblock⟩ := exists_of_body_eq_nil hbody
  cases q with
  | replace first last block =>
    have hfirst : first ≤ n := by
      simp only [Placed.covers, Bool.and_eq_true, decide_eq_true_eq] at hcovers
      exact hcovers.1
    have hle : n ≤ first := WithTop.coe_le_coe.1 (h _ hq).1.line_le
    have hsame : first = n := by omega
    exact (h _ hq).2 hsame (by rwa [Placed.blockAt, if_pos hsame] at hblock)
  | after number given | before number given | atEnd given
  | atStart given => exact absurd hcovers (by simp [Placed.covers])

theorem layout_after {n : Nat} (hn : 1 ≤ n) (hle : n ≤ xs.length)
    (h : ∀ q ∈ ps, q.Precedes (.after n text) ∧ q.Fits (.after n text)) :
    (Placed.after n text).make (layout xs ps) = layout xs (ps ++ [.after n text]) := by
  obtain ⟨front, middle, back, rfl, hfront, hmiddle⟩ := exists_split xs (n - 1) 1 (by omega)
  obtain ⟨x, rfl⟩ := length_eq_one_iff.1 hmiddle
  obtain rfl : n = front.length + 1 := by omega
  obtain ⟨hstart, hmisses⟩ := sides_of_precedes (n := front.length) rfl fun q hq => (h q hq).1
  have hback (m : Nat) (hm : front.length + 1 + [x].length ≤ m) :
      (Placed.after (front.length + 1) text).Misses m :=
    ⟨rfl, rfl, if_neg (by simp at hm; omega), rfl⟩
  have hbefore := gathered_before_after fun q hq => (h q hq).1
  have hold : cell ps (front.length + 1) x = (body ps (front.length + 1) x).take 1 ++
      (gathered (Placed.afterText (front.length + 1)) ps ++
        (body ps (front.length + 1) x).drop 1) := by
    rw [cell, hbefore]
    simp
  have hcell : cell (ps ++ [.after (front.length + 1) text]) (front.length + 1) x =
      (body ps (front.length + 1) x).take 1 ++ (text ++
        (gathered (Placed.afterText (front.length + 1)) ps ++
          (body ps (front.length + 1) x).drop 1)) := by
    rw [cell, body_concat rfl rfl, gathered_concat, gathered_concat, hbefore]
    simp [Placed.beforeText, Placed.afterText]
  rw [layout_split _ _ (fun q hq => hstart q (mem_append_left _ hq))
      (fun q hq => hmisses q (mem_append_left _ hq)),
    layout_concat_split hstart rfl hmisses hback, cells_one, cells_one, hcell, hold]
  by_cases hbody : body ps (front.length + 1) x = []
  · rw [text_eq_nil_of_body h hbody, Placed.make_after_nil, nil_append]
  obtain ⟨y, ys, hy⟩ := exists_cons_of_ne_nil hbody
  rw [hy]
  have hmake := Placed.make_after_append front text
    (gathered (Placed.afterText (front.length + 1)) ps ++ (ys ++
      (cells (cell ps) (front.length + 1 + 1) back ++ (ps.map Placed.endText).flatten))) y
  simpa using hmake

/-- Before a replace nothing is at the elements of its range, but after the last of several. -/
theorem Placed.Fits.inside {q : Placed α} {first last n : Nat} {block : List α}
    (hprecedes : q.Precedes (.replace first last block)) (hfits : q.Fits (.replace first last block))
    (hfirst : first ≤ n) (hlast : n ≤ last) :
    q.covers n = false ∧ q.blockAt n = [] ∧ q.beforeText n = [] ∧
      (n < last ∨ n = first → q.afterText n = []) := by
  cases q with
  | replace first' last' block' =>
    have hbelow : last < first' := hfits
    have hne : ¬ first' = n := by omega
    have hgt : n < first' := by omega
    exact ⟨by simp [Placed.covers, hgt], if_neg hne, rfl, fun _ => rfl⟩
  | before number text =>
    refine ⟨rfl, rfl, ?_, fun _ => rfl⟩
    rw [Placed.beforeText]
    split
    · case isTrue hnumber =>
      subst hnumber
      rcases hfirst.eq_or_lt with rfl | hlt
      · have hrank := hprecedes.rank_le rfl
        simp [Placed.rank] at hrank
      · exact hfits hlt hlast
    · rfl
  | after number text =>
    refine ⟨rfl, rfl, rfl, fun hn => ?_⟩
    rw [Placed.afterText]
    split
    · case isTrue hnumber =>
      subst hnumber
      rcases hfirst.eq_or_lt with rfl | hlt
      · have hrank := hprecedes.rank_le rfl
        simp [Placed.rank] at hrank
      · exact hfits hlt (by omega)
    · rfl
  | atEnd text => exact ⟨rfl, rfl, rfl, fun _ => rfl⟩
  | atStart text => exact ⟨rfl, rfl, rfl, fun _ => rfl⟩

variable {first last : Nat}

theorem cells_range {block middle : List α}
    (h : ∀ q ∈ ps, q.Precedes (.replace first last block) ∧ q.Fits (.replace first last block))
    (hmiddle : first + middle.length = last + 1) (hle : first ≤ last) :
    cells (cell ps) first middle = middle ++ gathered (Placed.afterText last) ps := by
  obtain ⟨init, z, rfl⟩ : ∃ init z, middle = init ++ [z] := by
    rcases eq_nil_or_concat middle with rfl | ⟨init, z, hinit⟩
    · simp at hmiddle
      omega
    · exact ⟨init, z, by rw [hinit, concat_eq_append]⟩
  have hlength : first + init.length = last := by
    simp at hmiddle
    omega
  have hinside {q : Placed α} (hq : q ∈ ps) {n : Nat} (hn : first ≤ n) (hn' : n ≤ last) :=
    (h q hq).2.inside (h q hq).1 hn hn'
  have hinit : cells (cell ps) first init = init := by
    have hcells : cells (cell ps) first init = cells (fun _ x => [x]) first init := by
      apply cells_congr
      intro n hn hn' x
      apply cell_of_misses
      intro q hq
      obtain ⟨hcovers, hblock, hbefore, hafter⟩ := hinside hq hn (by omega)
      exact ⟨hcovers, hblock, hafter (.inl (by omega)), hbefore⟩
    rw [hcells, cells_singleton]
  have hlast : cell ps last z = z :: gathered (Placed.afterText last) ps := by
    rw [cell, body_of_misses fun q hq => (hinside hq hle le_rfl).1,
      gathered_eq_nil fun q hq => (hinside hq hle le_rfl).2.2.1]
    simp
  rw [cells_append, cells_one, hinit, hlength, hlast, append_assoc, singleton_append]

theorem cells_replaced {block middle : List α}
    (h : ∀ q ∈ ps, q.Precedes (.replace first last block) ∧ q.Fits (.replace first last block))
    (hmiddle : first + middle.length = last + 1) (hle : first ≤ last) :
    cells (cell (ps ++ [.replace first last block])) first middle =
      block ++ gathered (Placed.afterText last) ps := by
  have hinside {q : Placed α} (hq : q ∈ ps) {n : Nat} (hn : first ≤ n) (hn' : n ≤ last) :=
    (h q hq).2.inside (h q hq).1 hn hn'
  have hbody {n : Nat} (hn : first ≤ n) (hn' : n ≤ last) (x : α) :
      body (ps ++ [.replace first last block]) n x = if first = n then block else [] := by
    have hcovers : (Placed.replace first last block).covers n = true := by
      simp [Placed.covers, hn, hn']
    rw [body, any_append, any_cons, hcovers, gathered_concat,
      gathered_eq_nil fun q hq => (hinside hq hn hn').2.1]
    simp [Placed.blockAt]
  have hcell {n : Nat} (hn : first ≤ n) (hn' : n ≤ last) (x : α) :
      cell (ps ++ [.replace first last block]) n x =
        (if first = n then block else []).take 1 ++ gathered (Placed.afterText n) ps ++
          (if first = n then block else []).drop 1 := by
    rw [cell, hbody hn hn', gathered_concat, gathered_concat,
      gathered_eq_nil fun q hq => (hinside hq hn hn').2.2.1]
    rfl
  have hnone {n : Nat} (hn : first ≤ n) (hn' : n ≤ last) (hat : n < last ∨ n = first) :
      gathered (Placed.afterText n) ps = [] :=
    gathered_eq_nil fun q hq => (hinside hq hn hn').2.2.2 hat
  cases middle with
  | nil =>
    simp at hmiddle
    omega
  | cons x rest =>
    have hfirst : cell (ps ++ [.replace first last block]) first x = block := by
      rw [hcell le_rfl hle, if_pos rfl, hnone le_rfl hle (.inr rfl), append_nil, take_append_drop]
    rw [cells, hfirst]
    congr 1
    rcases eq_nil_or_concat rest with rfl | ⟨init, z, rfl⟩
    · have hsame : last = first := by simpa using hmiddle.symm
      subst hsame
      exact (hnone le_rfl le_rfl (.inr rfl)).symm
    · have hlength : first + 1 + init.length = last := by
        simp at hmiddle
        omega
      have hinit : cells (cell (ps ++ [.replace first last block])) (first + 1) init = [] := by
        have hcells : cells (cell (ps ++ [.replace first last block])) (first + 1) init =
            cells (fun _ _ => []) (first + 1) init := by
          apply cells_congr
          intro n hn hn' x
          rw [hcell (by omega) (by omega), if_neg (by omega), hnone (by omega) (by omega)
            (.inl (by omega))]
          rfl
        rw [hcells, cells_nil]
      rw [concat_eq_append, cells_append, cells_one, hinit, hlength, hcell hle le_rfl,
        if_neg (by omega)]
      simp

theorem layout_replace {block : List α}
    (hwithin : (Placed.replace first last block).Within xs.length)
    (h : ∀ q ∈ ps, q.Precedes (.replace first last block) ∧ q.Fits (.replace first last block)) :
    (Placed.replace first last block).make (layout xs ps) =
      layout xs (ps ++ [.replace first last block]) := by
  obtain ⟨hfirst, hle, hlast⟩ := hwithin
  obtain ⟨front, middle, back, rfl, hfront, hlength⟩ :=
    exists_split xs (first - 1) (last - first + 1) (by omega)
  obtain rfl : first = front.length + 1 := by omega
  obtain ⟨hstart, hmisses⟩ := sides_of_precedes (n := front.length) rfl fun q hq => (h q hq).1
  have hback (m : Nat) (hm : front.length + 1 + middle.length ≤ m) :
      (Placed.replace (front.length + 1) last block).Misses m := by
    have hgt : last < m := by omega
    exact ⟨by simp [Placed.covers, hgt], if_neg (by omega), rfl, rfl⟩
  have hmiddle : front.length + 1 + middle.length = last + 1 := by omega
  -- the elements of the range are still there, and what goes after the last of them
  rw [layout_split _ _ (fun q hq => hstart q (mem_append_left _ hq))
      (fun q hq => hmisses q (mem_append_left _ hq)),
    layout_concat_split hstart rfl hmisses hback, cells_range h hmiddle hle,
    cells_replaced h hmiddle hle, append_assoc, append_assoc]
  exact Placed.make_replace_append front middle _ block (by omega) hle

theorem make_layout {p : Placed α} (hwithin : p.Within xs.length)
    (h : ∀ q ∈ ps, q.Precedes p ∧ q.Fits p) : p.make (layout xs ps) = layout xs (ps ++ [p]) := by
  cases p with
  | replace first last block => exact layout_replace hwithin h
  | after n text => exact layout_after hwithin.1 hwithin.2 h
  | before n text => exact layout_before hwithin.1 hwithin.2 fun q hq => (h q hq).1
  | atEnd text => exact layout_atEnd text
  | atStart text => exact layout_atStart text

@[simp] theorem layout_nil (xs : List α) : layout xs [] = xs := by
  have hcells : cells (cell []) 1 xs = xs := cells_singleton 1 xs
  rw [layout, hcells]
  simp [gathered]

end Steps

section Simultaneous

variable {α : Type*} {xs : List α} {ps : List (Placed α)}

/-- Where nothing goes after a replaced element, the layout is that of all changes at once. -/
theorem layout_eq_simultaneous
    (h : ∀ q ∈ ps, ∀ n, q.covers n = true → ∀ p ∈ ps, p.afterText n = []) :
    layout xs ps = simultaneous xs ps := by
  have hcells : cells (cell ps) 1 xs = cells (fun n x => gathered (Placed.beforeText n) ps ++
      body ps n x ++ gathered (Placed.afterText n) ps) 1 xs := by
    apply cells_congr
    intro n _ _ x
    rw [cell]
    by_cases hany : ps.any (Placed.covers n) = true
    · obtain ⟨q, hq, hcovers⟩ := any_eq_true.1 hany
      rw [gathered_eq_nil (h q hq n hcovers), append_nil, append_nil, append_assoc,
        take_append_drop]
    · have hnone : ps.any (Placed.covers n) = false := by simpa using hany
      rw [body, hnone]
      simp
  rw [layout, hcells, simultaneous]

theorem flatten_perm {ls ls' : List (List α)} (hperm : ls.Perm ls')
    (hone : ls.Pairwise fun a b => a = [] ∨ b = []) : ls.flatten = ls'.flatten := by
  induction hperm with
  | nil => rfl
  | cons a _ ih => rw [flatten_cons, flatten_cons, ih hone.of_cons]
  | swap a b ls =>
    have hab : b = [] ∨ a = [] := (pairwise_cons.1 hone).1 a mem_cons_self
    rcases hab with rfl | rfl <;> simp
  | trans h₁ _ ih₁ ih₂ =>
    rw [ih₁ hone, ih₂ ((h₁.pairwise_iff Or.symm).1 hone)]

theorem gathered_perm {text : Placed α → List α} {qs : List (Placed α)} (hperm : ps.Perm qs)
    (hone : ps.Pairwise fun a b => text a = [] ∨ text b = []) :
    gathered text ps = gathered text qs := by
  apply flatten_perm
  · exact ((reverse_perm _).trans (hperm.map text)).trans (reverse_perm _).symm
  · rw [pairwise_reverse, pairwise_map]
    exact hone.imp Or.symm

/-- At no place do two of the changes write. -/
def Lone (ps : List (Placed α)) : Prop :=
  ps.Pairwise fun a b => (∀ n, a.beforeText n = [] ∨ b.beforeText n = []) ∧
    (∀ n, a.afterText n = [] ∨ b.afterText n = []) ∧ (∀ n, a.blockAt n = [] ∨ b.blockAt n = []) ∧
    (a.startText = [] ∨ b.startText = []) ∧ (a.endText = [] ∨ b.endText = [])

theorem simultaneous_perm {qs : List (Placed α)} (hperm : ps.Perm qs) (h : Lone ps) :
    simultaneous xs ps = simultaneous xs qs := by
  have hany (n : Nat) : ps.any (Placed.covers n) = qs.any (Placed.covers n) := by
    apply Bool.eq_iff_iff.2
    simp only [any_eq_true, hperm.mem_iff]
  have hbody (n : Nat) (x : α) : body ps n x = body qs n x := by
    rw [body, body, hany, gathered_perm hperm (h.imp fun hab => hab.2.2.1 n)]
  have hcells (n : Nat) : gathered (Placed.beforeText n) ps = gathered (Placed.beforeText n) qs ∧
      gathered (Placed.afterText n) ps = gathered (Placed.afterText n) qs :=
    ⟨gathered_perm hperm (h.imp fun hab => hab.1 n),
      gathered_perm hperm (h.imp fun hab => hab.2.1 n)⟩
  have hend : (ps.map Placed.endText).flatten = (qs.map Placed.endText).flatten :=
    flatten_perm (hperm.map _) (pairwise_map.2 (h.imp fun hab => hab.2.2.2.2))
  rw [simultaneous, simultaneous, hend, gathered_perm hperm (h.imp fun hab => hab.2.2.2.1)]
  congr 2
  apply cells_congr
  intro n _ _ x
  rw [hbody, (hcells n).1, (hcells n).2]

end Simultaneous
end General
