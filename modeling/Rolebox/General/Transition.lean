import Mathlib.Logic.Relation

/-! Finite runs of a labelled transition relation and the rules of invariants. -/

namespace General
open List
variable {σ α : Type*}

/-- What stands in a history that grew by one stood there before, or is the new one. -/
theorem getElem?_snoc {l : List α} {a b : α} {n : Nat} (h : (l ++ [a])[n]? = some b) :
    (n < l.length ∧ l[n]? = some b) ∨ n = l.length ∧ a = b := by
  rcases Nat.lt_trichotomy n l.length with hlt | rfl | hgt
  · rw [getElem?_append_left hlt] at h
    exact .inl ⟨hlt, h⟩
  · rw [getElem?_append_right (Nat.le_refl _), Nat.sub_self] at h
    exact .inr ⟨rfl, Option.some.inj h⟩
  · have hbound := (List.getElem?_eq_some_iff.1 h).1
    rw [length_append, length_singleton] at hbound
    exact absurd hbound (Nat.not_lt.2 hgt)

inductive Run (step : σ → α → σ → Prop) : σ → List α → σ → Prop where
  | nil (s : σ) : Run step s [] s
  | cons {s t u : σ} {a : α} {as : List α} :
      step s a t → Run step t as u → Run step s (a :: as) u

namespace Run
variable {step : σ → α → σ → Prop} {s t u : σ} {as bs : List α}
variable {I P : σ → Prop}

theorem append (h : Run step s as t) (h' : Run step t bs u) : Run step s (as ++ bs) u := by
  induction h with
  | nil => exact h'
  | cons hs _ ih => exact .cons hs (ih h')

theorem snoc {a : α} (h : Run step s as t) (hs : step t a u) : Run step s (as ++ [a]) u :=
  h.append (.cons hs (.nil u))

theorem invariant (hstep : ∀ s a t, I s → step s a t → I t) (h : Run step s as t) (hs : I s) :
    I t := by
  induction h with
  | nil => exact hs
  | cons hst _ ih => exact ih (hstep _ _ _ hs hst)

theorem history_invariant {I : List α → σ → Prop}
    (hstep : ∀ as t a u, Run step s as t → I as t → step t a u → I (as ++ [a]) u)
    (h : Run step s as t) (hs : I [] s) : I as t := by
  have hsuffix : ∀ (t : σ) (as : List α) (u : σ), Run step t as u →
      ∀ before, Run step s before t → I before t → I (before ++ as) u := by
    intro t as u hrun
    induction hrun with
    | nil t =>
      intro before _ hbefore
      rwa [append_nil]
    | @cons t m u a as hst _ ih =>
      intro before hreach hbefore
      have hnext := ih (before ++ [a]) (hreach.snoc hst) (hstep _ _ _ _ hreach hbefore hst)
      rwa [append_assoc, singleton_append] at hnext
  exact hsuffix s as t h [] (.nil s) hs

theorem length_le (μ : σ → Nat) (hstep : ∀ s a t, I s → step s a t → I t)
    (hμ : ∀ s a t, I s → step s a t → μ t < μ s) (h : Run step s as t) (hs : I s) :
    as.length + μ t ≤ μ s := by
  induction h with
  | nil => simp
  | cons hst _ ih =>
    have hlt := hμ _ _ _ hs hst
    have hle := ih (hstep _ _ _ hs hst)
    simp only [length_cons]
    omega

theorem mono {step' : σ → α → σ → Prop} (hsub : ∀ s a t, step s a t → step' s a t)
    (h : Run step s as t) : Run step' s as t := by
  induction h with
  | nil => exact .nil _
  | cons hst _ ih => exact .cons (hsub _ _ _ hst) ih

theorem countP_le_one {q : α → Prop} {p : α → Bool} (hI : ∀ s a t, I s → step s a t → I t)
    (hset : ∀ s a t, I s → step s a t → p a → ¬ P s ∧ P t)
    (hkeep : ∀ s a t, I s → step s a t → q a → P s → P t) (h : Run step s as t) (hs : I s)
    (hq : ∀ a ∈ as, q a) : as.countP p ≤ 1 ∧ (P s → as.countP p = 0) := by
  induction h with
  | nil => exact ⟨Nat.zero_le _, fun _ => rfl⟩
  | @cons s t u a as hst _ ih =>
    obtain ⟨hle, hzero⟩ := ih (hI _ _ _ hs hst) fun b hb => hq b (.tail _ hb)
    rw [countP_cons]
    by_cases hp : p a
    · obtain ⟨hno, hyes⟩ := hset _ _ _ hs hst hp
      rw [if_pos hp, hzero hyes]
      exact ⟨Nat.le_refl 1, fun hP => absurd hP hno⟩
    · rw [if_neg hp]
      exact ⟨hle, fun hP => hzero (hkeep _ _ _ hs hst (hq a (.head _)) hP)⟩

theorem arises {q : α → Prop} (hstep : ∀ s a t, step s a t → P t → P s ∨ q a) (h : Run step s as t)
    (hP : P t) : P s ∨ ∃ a ∈ as, q a := by
  induction h with
  | nil => exact .inl hP
  | @cons s t u a as hst _ ih =>
    rcases ih hP with ht | ⟨b, hb, hq⟩
    · exact (hstep _ _ _ hst ht).imp_right fun hq => ⟨a, .head _, hq⟩
    · exact .inr ⟨b, mem_cons_of_mem _ hb, hq⟩

theorem arises_at {q : σ → α → σ → Prop} (hstep : ∀ s a t, step s a t → P t → P s ∨ q s a t)
    (h : Run step s as t) (hP : P t) :
    P s ∨ ∃ before a after u v, as = before ++ a :: after ∧ Run step s before u ∧ step u a v ∧
      q u a v := by
  induction h with
  | nil => exact .inl hP
  | @cons s t _ a as hst _ ih =>
    rcases ih hP with ht | ⟨before, b, after, u, v, rfl, hrun, hb, hq⟩
    · rcases hstep _ _ _ hst ht with hs | hq
      · exact .inl hs
      · exact .inr ⟨[], a, as, s, t, rfl, .nil s, hst, hq⟩
    · exact .inr ⟨a :: before, b, after, u, v, rfl, .cons hst hrun, hb, hq⟩

theorem split (h : Run step s (as ++ bs) u) : ∃ t, Run step s as t ∧ Run step t bs u := by
  induction as generalizing s with
  | nil => exact ⟨s, .nil s, h⟩
  | cons a as ih =>
    cases h with
    | cons hst hrest =>
      obtain ⟨t, hleft, hright⟩ := ih hrest
      exact ⟨t, .cons hst hleft, hright⟩

theorem deterministic {t' : σ} (hstep : ∀ s a t t', step s a t → step s a t' → t = t')
    (h : Run step s as t) (h' : Run step s as t') : t = t' := by
  induction h with
  | nil =>
    cases h'
    rfl
  | cons hst _ ih =>
    cases h' with
    | cons hst' hrest' =>
      obtain rfl := hstep _ _ _ _ hst hst'
      exact ih hrest'

theorem of_foldlM {f : σ → α → Option σ} (h : as.foldlM f s = some t) :
    Run (fun s a t => f s a = some t) s as t := by
  induction as generalizing s with
  | nil =>
    cases h
    exact .nil _
  | cons a as ih =>
    rw [foldlM_cons] at h
    obtain ⟨u, hu, hrest⟩ := Option.bind_eq_some_iff.1 h
    exact .cons hu (ih hrest)

end Run

/-- The states some run reaches from an initial one. -/
def Reachable (init : σ → Prop) (step : σ → α → σ → Prop) (s : σ) : Prop :=
  ∃ s₀ as, init s₀ ∧ Run step s₀ as s

namespace Reachable
variable {init : σ → Prop} {step : σ → α → σ → Prop} {s t : σ}

theorem of_init (h : init s) : Reachable init step s := ⟨s, [], h, .nil s⟩

theorem tail {a : α} (h : Reachable init step s) (hs : step s a t) : Reachable init step t := by
  obtain ⟨s₀, as, hi, hr⟩ := h
  exact ⟨s₀, as ++ [a], hi, hr.snoc hs⟩

theorem invariant {I : σ → Prop} (hinit : ∀ s, init s → I s)
    (hstep : ∀ s a t, I s → step s a t → I t) (h : Reachable init step s) : I s := by
  obtain ⟨s₀, as, hi, hr⟩ := h
  exact hr.invariant hstep (hinit _ hi)

theorem invariant_of_reachable {I : σ → Prop} (hinit : ∀ s, init s → I s)
    (hstep : ∀ s a t, Reachable init step s → I s → step s a t → I t)
    (h : Reachable init step s) : I s := by
  have hboth : Reachable init step s ∧ I s :=
    h.invariant (I := fun s => Reachable init step s ∧ I s)
      (fun s hs => ⟨of_init hs, hinit s hs⟩)
      (fun s a t hs hst => ⟨hs.1.tail hst, hstep s a t hs.1 hs.2 hst⟩)
  exact hboth.2

theorem init_or_step (h : Reachable init step s) :
    init s ∨ ∃ before a, Reachable init step before ∧ step before a s := by
  refine invariant_of_reachable
    (I := fun s => init s ∨ ∃ before a, Reachable init step before ∧ step before a s)
    (fun s hs => .inl hs) ?_ h
  intro before a s hreach _ hst
  exact .inr ⟨before, a, hreach, hst⟩

end Reachable

section Along
variable {f : σ → α → σ} {P Q : σ → α → Prop} {I : σ → Prop}

/-- A property of every step a list of actions takes. -/
def Along (f : σ → α → σ) (P : σ → α → Prop) : σ → List α → Prop
  | _, [] => True
  | s, a :: as => P s a ∧ Along f P (f s a) as

theorem Along.of_invariant (hstep : ∀ s a, I s → P s a → Q s a ∧ I (f s a)) {s : σ} {as : List α}
    (hs : I s) (h : Along f P s as) : Along f Q s as := by
  induction as generalizing s with
  | nil => trivial
  | cons a as ih =>
    obtain ⟨hlaw, hnext⟩ := hstep s a hs h.1
    exact ⟨hlaw, ih hnext h.2⟩

end Along
end General
