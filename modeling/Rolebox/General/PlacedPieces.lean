import Rolebox.General.Placed

/-! A list assembled from pieces, and how the pieces spell out the changed list. -/

namespace General
open List

section Steps

variable {α : Type*} {xs : List α} {ps : List (Placed α)}

/-- A change puts its text between what stays in front of it and what stays behind it. -/
structure PutBetween (xs : List α) (ps : List (Placed α)) (p : Placed α)
    (front gone rest : List α) : Prop where
  old : layout xs ps = front ++ (gone ++ rest)
  new : layout xs (ps ++ [p]) = front ++ (p.text ++ rest)
  range : ∀ first last block, p = .replace first last block →
    front = xs.take (first - 1) ∧ gone = (xs.drop (first - 1)).take (last - first + 1)
  others : p.span = none → gone = []
  before : ∀ n text, p = .before n text → front = xs.take (n - 1)
  after : ∀ n text, p = .after n text → text ≠ [] →
    ∃ x y, x ∈ xs[n - 1]? ∧ front = xs.take (n - 1) ++ [y] ∧ y ∈ (body ps n x).head?
  start : ∀ text, p = .atStart text → front = []
  ending : ∀ text, p = .atEnd text → rest = []

theorem exists_putBetween {p : Placed α} (hwithin : p.Within xs.length)
    (h : ∀ q ∈ ps, q.Precedes p ∧ q.Fits p) :
    ∃ front gone rest, PutBetween xs ps p front gone rest := by
  have hmake := make_layout hwithin h
  cases p with
  | atEnd text =>
    refine ⟨layout xs ps, [], [], ?_, ?_, by simp, fun _ => rfl, by simp, by simp, by simp, fun _ _ => rfl⟩
    · simp
    · rw [← hmake]
      simp [Placed.make, Placed.text]
  | atStart text =>
    exact ⟨[], [], layout xs ps, rfl, hmake.symm, by simp, fun _ => rfl, by simp, by simp, fun _ _ => rfl,
      by simp⟩
  | before n text =>
    obtain ⟨hn, hle⟩ := hwithin
    obtain ⟨front, middle, back, rfl, hfront, hmiddle⟩ := exists_split xs (n - 1) 1 (by omega)
    obtain rfl : n = front.length + 1 := by omega
    obtain ⟨hstart, hmisses⟩ := sides_of_precedes (n := front.length) rfl fun q hq => (h q hq).1
    have hsplit := layout_split middle back
      (fun q hq => hstart q (mem_append_left _ hq))
      (fun q hq => hmisses q (mem_append_left _ hq))
    refine ⟨front, [], _, hsplit, ?_, by simp, fun _ => rfl, ?_, by simp, by simp, by simp⟩
    · rw [← hmake, hsplit, Placed.make, Nat.add_sub_cancel, take_left, drop_left, append_assoc]
      rfl
    · intro m given hsame
      cases hsame
      rw [Nat.add_sub_cancel, take_left]
  | after n text =>
    by_cases htext : text = []
    · refine ⟨layout xs ps, [], [], ?_, ?_, by simp, fun _ => rfl, by simp, ?_, by simp, by simp⟩
      · simp
      · rw [← hmake, htext, Placed.make_after_nil]
        simp [Placed.text]
      · intro m given hsame hne
        cases hsame
        exact absurd htext hne
    · obtain ⟨hn, hle⟩ := hwithin
      obtain ⟨front, middle, back, rfl, hfront, hmiddle⟩ := exists_split xs (n - 1) 1 (by omega)
      obtain ⟨x, rfl⟩ := length_eq_one_iff.1 hmiddle
      obtain rfl : n = front.length + 1 := by omega
      obtain ⟨hstart, hmisses⟩ := sides_of_precedes (n := front.length) rfl fun q hq => (h q hq).1
      have hbody : body ps (front.length + 1) x ≠ [] := fun hnil =>
        htext (text_eq_nil_of_body h hnil)
      obtain ⟨y, ys, hy⟩ := exists_cons_of_ne_nil hbody
      have hsplit := layout_split [x] back
        (fun q hq => hstart q (mem_append_left _ hq))
        (fun q hq => hmisses q (mem_append_left _ hq))
      rw [cells_one, cell, gathered_before_after fun q hq => (h q hq).1, hy] at hsplit
      obtain ⟨rest, hold⟩ : ∃ rest, layout (front ++ ([x] ++ back)) ps = front ++ y :: rest :=
        ⟨gathered (Placed.afterText (front.length + 1)) ps ++ (ys ++
          (cells (cell ps) (front.length + 1 + [x].length) back ++
            (ps.map Placed.endText).flatten)), by rw [hsplit]; simp⟩
      refine ⟨front ++ [y], [], rest, ?_, ?_, by simp, fun _ => rfl, by simp, ?_, by simp, by simp⟩
      · rw [hold, append_assoc]
        rfl
      · rw [← hmake, hold, Placed.make_after_append, append_assoc]
        rfl
      · intro m given hsame _
        cases hsame
        refine ⟨x, y, ?_, ?_, ?_⟩
        · simp
        · rw [Nat.add_sub_cancel, take_left]
        · rw [hy]
          rfl
  | replace first last block =>
    obtain ⟨hfirst, hle, hlast⟩ := hwithin
    obtain ⟨front, middle, back, rfl, hfront, hlength⟩ :=
      exists_split xs (first - 1) (last - first + 1) (by omega)
    obtain rfl : first = front.length + 1 := by omega
    obtain ⟨hstart, hmisses⟩ := sides_of_precedes (n := front.length) rfl fun q hq => (h q hq).1
    have hsplit := layout_split middle back
      (fun q hq => hstart q (mem_append_left _ hq))
      (fun q hq => hmisses q (mem_append_left _ hq))
    rw [cells_range h (by omega) hle, append_assoc] at hsplit
    refine ⟨front, middle, _, hsplit, ?_, ?_, by rintro ⟨⟩, by simp, by simp, by simp, by simp⟩
    · rw [← hmake, hsplit]
      exact Placed.make_replace_append front middle _ block (by omega) hle
    · intro first' last' block' hsame
      cases hsame
      rw [Nat.add_sub_cancel, take_left, drop_left, take_left' (by omega)]
      exact ⟨rfl, rfl⟩

end Steps

section Spelling

variable {α β : Type*} {f : β → List α} {qs : List (Placed β)}

/-- The change that writes what the pieces of another one spell out. -/
def Placed.spell (f : β → List α) : Placed β → Placed α
  | replace first last block => .replace first last (block.flatMap f)
  | after n text => .after n (text.flatMap f)
  | before n text => .before n (text.flatMap f)
  | atEnd text => .atEnd (text.flatMap f)
  | atStart text => .atStart (text.flatMap f)

def Placed.withText (p : Placed α) (text : List β) : Placed β :=
  match p with
  | replace first last _ => .replace first last text
  | after n _ => .after n text
  | before n _ => .before n text
  | atEnd _ => .atEnd text
  | atStart _ => .atStart text

section WithText

variable (p q : Placed α) (text given : List β)

@[simp] theorem withText_text : (p.withText text).text = text := by cases p <;> rfl

@[simp] theorem withText_covers (n : Nat) : (p.withText text).covers n = p.covers n := by
  cases p <;> rfl

theorem withText_within {length : Nat} (h : p.Within length) : (p.withText text).Within length := by
  cases p <;> exact h

theorem withText_precedes (h : q.Precedes p) : (q.withText given).Precedes (p.withText text) := by
  cases p <;> cases q <;> exact h

variable {p q text given}

theorem withText_fits (h : q.Fits p) (hq : q.text = [] ↔ given = []) (hp : p.text = [] ↔ text = []) :
    (q.withText given).Fits (p.withText text) := by
  cases q with
  | replace first last block =>
    cases p with
    | replace first' last' block' => exact h
    | after n text' => exact fun hsame hnil => hp.1 (h hsame (hq.2 hnil))
    | _ => trivial
  | before n text' | after n text' =>
    cases p with
    | replace first last block => exact fun hfirst hlast => hq.1 (h hfirst hlast)
    | _ => trivial
  | atEnd text' => cases p <;> trivial
  | atStart text' => cases p <;> trivial

theorem spell_withText (h : text.flatMap f = p.text) : (p.withText text).spell f = p := by
  cases p with
  | replace first last block => exact congrArg (Placed.replace first last) h
  | after n given => exact congrArg (Placed.after n) h
  | before n given => exact congrArg (Placed.before n) h
  | atEnd given => exact congrArg Placed.atEnd h
  | atStart given => exact congrArg Placed.atStart h

end WithText

theorem gathered_spell {written : Placed α → List α} {pieces : Placed β → List β}
    (h : ∀ q, written (q.spell f) = (pieces q).flatMap f) (qs : List (Placed β)) :
    gathered written (qs.map (Placed.spell f)) = (gathered pieces qs).flatMap f := by
  induction qs using reverseRecOn with
  | nil => rfl
  | append_singleton qs q ih =>
    rw [map_append, map_singleton, gathered_concat, gathered_concat, ih, h, flatMap_append]

theorem spell_blockAt (n : Nat) (q : Placed β) :
    (q.spell f).blockAt n = (q.blockAt n).flatMap f := by
  cases q with
  | replace first last block =>
    by_cases hn : first = n <;> simp [Placed.spell, Placed.blockAt, hn]
  | _ => rfl

theorem spell_afterText (n : Nat) (q : Placed β) :
    (q.spell f).afterText n = (q.afterText n).flatMap f := by
  cases q with
  | after number text => by_cases hn : number = n <;> simp [Placed.spell, Placed.afterText, hn]
  | _ => rfl

theorem spell_beforeText (n : Nat) (q : Placed β) :
    (q.spell f).beforeText n = (q.beforeText n).flatMap f := by
  cases q with
  | before number text => by_cases hn : number = n <;> simp [Placed.spell, Placed.beforeText, hn]
  | _ => rfl

theorem spell_startText (q : Placed β) : (q.spell f).startText = q.startText.flatMap f := by
  cases q <;> rfl

theorem spell_endText (q : Placed β) : (q.spell f).endText = q.endText.flatMap f := by
  cases q <;> rfl

theorem spell_covers (n : Nat) (q : Placed β) : (q.spell f).covers n = q.covers n := by
  cases q <;> rfl

theorem body_spell {x : β} {c : α} (hx : f x = [c]) (n : Nat) :
    body (qs.map (Placed.spell f)) n c = (body qs n x).flatMap f := by
  have hany : (qs.map (Placed.spell f)).any (Placed.covers n) = qs.any (Placed.covers n) := by
    rw [any_map]
    exact congrArg (List.any qs) (funext (spell_covers n))
  rw [body, body, hany, gathered_spell (spell_blockAt n)]
  split
  · rfl
  · rw [flatMap_singleton, hx]

/-- The pieces around an element spell out what the changed list has there. -/
theorem cell_spell {x : β} {c : α} (hx : f x = [c]) (n : Nat)
    (hhead : gathered (Placed.afterText n) qs = [] ∨ ∀ y ∈ (body qs n x).head?, (f y).length = 1) :
    cell (qs.map (Placed.spell f)) n c = (cell qs n x).flatMap f := by
  rw [cell, cell, body_spell hx, gathered_spell (spell_beforeText n),
    gathered_spell (spell_afterText n)]
  rcases hhead with hnil | hone
  · simp only [hnil, flatMap_nil, append_nil, append_assoc, take_append_drop, flatMap_append]
  · cases hbody : body qs n x with
    | nil => simp
    | cons y ys =>
      obtain ⟨c', hc'⟩ := length_eq_one_iff.1 (hone y (by rw [hbody]; rfl))
      simp [hc']

theorem cells_spell {at₁ : Nat → α → List α} {at₂ : Nat → β → List β} {g : β → α} {n : Nat}
    {xs : List β} (h : ∀ m, ∀ x ∈ xs, at₁ m (g x) = (at₂ m x).flatMap f) :
    cells at₁ n (xs.map g) = (cells at₂ n xs).flatMap f := by
  induction xs generalizing n with
  | nil => rfl
  | cons x xs ih =>
    rw [map_cons, cells, cells, flatMap_append, h n x mem_cons_self,
      ih fun m y hy => h m y (.tail _ hy)]

theorem layout_spell {g : β → α} {xs : List β} (hxs : ∀ x ∈ xs, f x = [g x])
    (hhead : ∀ n, ∀ x ∈ xs, gathered (Placed.afterText n) qs = [] ∨
      ∀ y ∈ (body qs n x).head?, (f y).length = 1) :
    layout (xs.map g) (qs.map (Placed.spell f)) = (layout xs qs).flatMap f := by
  have hcells : cells (cell (qs.map (Placed.spell f))) 1 (xs.map g) =
      (cells (cell qs) 1 xs).flatMap f :=
    cells_spell fun n x hx => cell_spell (hxs x hx) n (hhead n x hx)
  have hend : ((qs.map (Placed.spell f)).map Placed.endText).flatten =
      ((qs.map Placed.endText).flatten).flatMap f := by
    rw [map_map, ← flatMap_def, ← flatMap_def, flatMap_assoc]
    exact congrArg (List.flatMap · qs) (funext spell_endText)
  rw [layout, layout, hcells, hend, gathered_spell spell_startText, flatMap_append, flatMap_append]

end Spelling
end General
