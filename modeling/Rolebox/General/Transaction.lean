import Rolebox.General.Transition

/-! Programs over a store that fail without a trace, their rules, and runs of transactions. -/

namespace General
variable {σ ε α β : Type}

/-- A program over a store that fails with an error or answers a value and the next store. -/
abbrev Transaction (σ ε α : Type) := StateT σ (Except ε) α

namespace Transaction
variable {x : Transaction σ ε α} {s s' : σ} {a : α} {u : PUnit}

theorem bind_ok {f : α → Transaction σ ε β} {b : β} :
    (x >>= f) s = .ok (b, s') ↔ ∃ a t, x s = .ok (a, t) ∧ f a t = .ok (b, s') := by
  change (x s >>= fun p => f p.1 p.2) = .ok (b, s') ↔ _
  cases hx : x s with
  | error e =>
    constructor
    · intro h
      cases h
    · rintro ⟨a, t, h, -⟩
      cases h
  | ok p =>
    constructor
    · intro h
      exact ⟨p.1, p.2, rfl, h⟩
    · rintro ⟨a, t, h, hf⟩
      cases h
      exact hf

theorem pure_ok {b : α} : (pure a : Transaction σ ε α) s = .ok (b, s') ↔ b = a ∧ s' = s := by
  change Except.ok (a, s) = .ok (b, s') ↔ _
  rw [Except.ok.injEq, Prod.mk.injEq]
  exact and_congr eq_comm eq_comm

theorem set_ok {t : σ} : (set t : Transaction σ ε PUnit) s = .ok (u, s') ↔ s' = t := by
  change Except.ok (PUnit.unit, t) = .ok (u, s') ↔ _
  rw [Except.ok.injEq, Prod.mk.injEq]
  exact ⟨fun h => h.2.symm, fun h => ⟨rfl, h.symm⟩⟩

theorem modify_ok {f : σ → σ} : (modify f : Transaction σ ε PUnit) s = .ok (u, s') ↔ s' = f s := by
  change Except.ok (PUnit.unit, f s) = .ok (u, s') ↔ _
  rw [Except.ok.injEq, Prod.mk.injEq]
  exact ⟨fun h => h.2.symm, fun h => ⟨rfl, h.symm⟩⟩

/-! A step that answers at once is run in place. -/

theorem get_bind {f : σ → Transaction σ ε β} : ((get : Transaction σ ε σ) >>= f) s = f s s := rfl

theorem set_bind {t : σ} {f : PUnit → Transaction σ ε β} :
    ((set t : Transaction σ ε PUnit) >>= f) s = f PUnit.unit t := rfl

theorem throw_ok {e : ε} : (throw e : Transaction σ ε α) s = .ok (a, s') ↔ False := by
  change Except.error e = .ok (a, s') ↔ _
  simp

theorem ite_ok {c : Prop} [Decidable c] {y : Transaction σ ε α} :
    (if c then x else y) s = .ok (a, s') ↔ (c ∧ x s = .ok (a, s')) ∨ (¬ c ∧ y s = .ok (a, s')) := by
  by_cases hc : c <;> simp [hc]

theorem ofExcept_ok {x : Except ε α} :
    (ofExcept x : Transaction σ ε α) s = .ok (a, s') ↔ x = .ok a ∧ s' = s := by
  cases x with
  | error e =>
    change Except.error e = .ok (a, s') ↔ _
    simp
  | ok b =>
    change Except.ok (b, s) = .ok (a, s') ↔ _
    rw [Except.ok.injEq, Except.ok.injEq, Prod.mk.injEq]
    exact and_congr Iff.rfl eq_comm

theorem forM_check {p : β → Prop} {check : β → Transaction σ ε PUnit}
    (hcheck : ∀ b s s' u, check b s = .ok (u, s') → s' = s ∧ p b) {l : List β}
    (h : l.forM check s = .ok (u, s')) : s' = s ∧ ∀ b ∈ l, p b := by
  induction l generalizing s u with
  | nil => exact ⟨(pure_ok.1 h).2, nofun⟩
  | cons b l ih =>
    obtain ⟨_, t, hb, hl⟩ := bind_ok.1 h
    obtain ⟨rfl, hp⟩ := hcheck b _ _ _ hb
    obtain ⟨rfl, hall⟩ := ih hl
    exact ⟨rfl, List.forall_mem_cons.2 ⟨hp, hall⟩⟩

def mapError {ε' : Type} (g : ε → ε') (x : Transaction σ ε α) : Transaction σ ε' α :=
  fun s => (x s).mapError g

theorem mapError_ok {ε' : Type} {g : ε → ε'} :
    x.mapError g s = .ok (a, s') ↔ x s = .ok (a, s') := by
  unfold mapError
  cases x s with
  | error e => exact ⟨fun h => (by cases h), fun h => (by cases h)⟩
  | ok b => exact ⟨fun h => (by cases h; rfl), fun h => (by cases h; rfl)⟩

/-- Run a transaction: a failure leaves the store as it was. -/
def commit (x : Transaction σ ε α) (s : σ) : Except ε α × σ :=
  match x s with
  | .ok (a, s') => (.ok a, s')
  | .error e => (.error e, s)

theorem commit_ok (h : x s = .ok (a, s')) : x.commit s = (.ok a, s') := by
  unfold commit
  rw [h]

theorem commit_error {e : ε} (h : x s = .error e) : x.commit s = (.error e, s) := by
  unfold commit
  rw [h]

/-- Every successful run of the program relates the store it starts from to the one it leaves. -/
def Moves (R : σ → σ → Prop) (x : Transaction σ ε α) : Prop :=
  ∀ s a s', x s = .ok (a, s') → R s s'

section Rules
variable {R S : σ → σ → Prop} {x : Transaction σ ε α} {f : α → Transaction σ ε β}

theorem Moves.pure [Std.Refl R] (a : α) : Moves R (Pure.pure a : Transaction σ ε α) := by
  intro s b s' h
  rw [(pure_ok.1 h).2]
  exact Std.Refl.refl s

theorem Moves.throw (e : ε) : Moves R (MonadExcept.throw e : Transaction σ ε α) :=
  fun _ _ _ h => (throw_ok.1 h).elim

theorem Moves.modify {g : σ → σ} (h : ∀ s, R s (g s)) :
    Moves R (modify g : Transaction σ ε PUnit) := by
  intro s u s' hs
  rw [modify_ok.1 hs]
  exact h s

theorem Moves.bind [IsTrans σ R] (hx : Moves R x) (hf : ∀ a, Moves R (f a)) :
    Moves R (x >>= f) := by
  intro s b s' h
  obtain ⟨a, t, hxs, hft⟩ := bind_ok.1 h
  exact IsTrans.trans _ _ _ (hx s a t hxs) (hf a t b s' hft)

theorem Moves.ite {c : Prop} [Decidable c] {y : Transaction σ ε α} (hx : c → Moves R x)
    (hy : ¬ c → Moves R y) : Moves R (if c then x else y) := by
  split
  · next h => exact hx h
  · next h => exact hy h

theorem Moves.mapError {ε' : Type} {g : ε → ε'} (h : Moves R x) : Moves R (x.mapError g) :=
  fun s a s' hs => h s a s' (mapError_ok.1 hs)

theorem Moves.mono (h : Moves R x) (hRS : ∀ s t, R s t → S s t) : Moves S x :=
  fun s a s' hs => hRS s s' (h s a s' hs)

end Rules

def Keeping (I : σ → Prop) (s s' : σ) : Prop := I s → I s'

instance (I : σ → Prop) : Std.Refl (Keeping I) := ⟨fun _ h => h⟩

instance (I : σ → Prop) : IsTrans σ (Keeping I) := ⟨fun _ _ _ h h' => h' ∘ h⟩

section Callers
variable {Call Answer : Type}

structure Event (Call ε Answer : Type) where
  call : Call
  answer : Except ε Answer

def Commits (perform : Call → Transaction σ ε Answer) (s : σ) (event : Event Call ε Answer)
    (t : σ) : Prop :=
  (perform event.call).commit s = (event.answer, t)

variable {perform : Call → Transaction σ ε Answer} {s t : σ} {event : Event Call ε Answer}

theorem Commits.cases (h : Commits perform s event t) :
    (t = s ∧ ∃ failure, event.answer = .error failure) ∨
      ∃ answer, event.answer = .ok answer ∧ perform event.call s = .ok (answer, t) := by
  unfold Commits at h
  cases hrun : perform event.call s with
  | error failure =>
    rw [commit_error hrun] at h
    obtain ⟨hanswer, rfl⟩ := Prod.ext_iff.1 h
    exact .inl ⟨rfl, failure, hanswer.symm⟩
  | ok result =>
    rw [commit_ok hrun] at h
    obtain ⟨hanswer, rfl⟩ := Prod.ext_iff.1 h
    exact .inr ⟨result.1, hanswer.symm, rfl⟩

theorem Commits.moves {R : σ → σ → Prop} [Std.Refl R] (h : Commits perform s event t)
    (hmoves : Moves R (perform event.call)) : R s t := by
  obtain ⟨rfl, -⟩ | ⟨answer, -, hrun⟩ := h.cases
  · exact Std.Refl.refl t
  · exact hmoves s answer t hrun

def history (perform : Call → Transaction σ ε Answer) (s : σ) :
    List Call → List (Event Call ε Answer) × σ
  | [] => ([], s)
  | call :: calls =>
    let committed := (perform call).commit s
    let rest := history perform committed.2 calls
    ({ call := call, answer := committed.1 } :: rest.1, rest.2)

theorem history_run (perform : Call → Transaction σ ε Answer) (s : σ) (calls : List Call) :
    Run (Commits perform) s (history perform s calls).1 (history perform s calls).2 := by
  induction calls generalizing s with
  | nil => exact .nil s
  | cons call calls ih => exact .cons rfl (ih _)

end Callers

end Transaction
end General
