import Mathlib.Data.List.Forall2
import Rolebox.General.Interaction

/-! Programs that make calls and may throw, and the rules for what precedes each call. -/

namespace General
open List

abbrev Throwing (I : Interface) (ε α : Type) := ExceptT ε (Program I) α

namespace Throwing
variable {I : Interface} {ε α β : Type}

def lift (x : Except ε α) : Throwing I ε α := ExceptT.mk (pure x)

def ask (c : I.Call) (as : I.Answer c = Except ε α) : Throwing I ε α :=
  ExceptT.mk (Program.call c fun answer => .done (cast as answer))

def recover (p : Throwing I ε α) (handler : ε → Throwing I ε α) : Throwing I ε α :=
  ExceptT.mk (p.run >>= fun
    | .ok a => pure (.ok a)
    | .error e => (handler e).run)

/-- `try … finally`: the cleanup runs in any case, and its own error replaces what came before. -/
def cleaningUp (p : Throwing I ε α) (cleanup : Throwing I ε PUnit) : Throwing I ε α :=
  ExceptT.mk (p.run >>= fun result => cleanup.run >>= fun
    | .ok _ => pure result
    | .error e => pure (.error e))

def forEach (l : List α) (body : α → Throwing I ε PUnit) : Throwing I ε PUnit :=
  match l with
  | [] => pure ⟨⟩
  | a :: l => body a >>= fun _ => forEach l body

def forWhile (l : List α) (body : α → Throwing I ε Bool) : Throwing I ε Bool :=
  match l with
  | [] => pure true
  | a :: l => body a >>= fun goOn => if goOn then forWhile l body else pure false

def forAll (l : List α) (body : α → Throwing I ε β) : Throwing I ε (List β) :=
  match l with
  | [] => pure []
  | a :: l => body a >>= fun b => forAll l body >>= fun bs => pure (b :: bs)

def Extends (N : I.Call → Prop) (h h' : List (Exchange I)) : Prop :=
  ∃ more, h' = h ++ more ∧ ∀ x ∈ more, N x.call

section Extension
variable {N M : I.Call → Prop} {h h' h'' : List (Exchange I)}

theorem Extends.refl (h : List (Exchange I)) : Extends N h h := ⟨[], (append_nil h).symm, nofun⟩

theorem Extends.trans (h₁ : Extends N h h') (h₂ : Extends N h' h'') : Extends N h h'' := by
  obtain ⟨more, rfl, hmore⟩ := h₁
  obtain ⟨rest, rfl, hrest⟩ := h₂
  refine ⟨more ++ rest, append_assoc .., fun x hx => ?_⟩
  exact (mem_append.1 hx).elim (hmore x) (hrest x)

theorem Extends.mem (hext : Extends N h h') {x : Exchange I} (hx : x ∈ h) : x ∈ h' := by
  obtain ⟨more, rfl, -⟩ := hext
  exact mem_append_left _ hx

theorem Extends.mono (hNM : ∀ c, N c → M c) (hext : Extends N h h') : Extends M h h' := by
  obtain ⟨more, rfl, hmore⟩ := hext
  exact ⟨more, rfl, fun x hx => hNM _ (hmore x hx)⟩

theorem Extends.cases (hext : Extends N h h') {x : Exchange I} (hx : x ∈ h') : x ∈ h ∨ N x.call := by
  obtain ⟨more, rfl, hmore⟩ := hext
  exact (mem_append.1 hx).imp_right (hmore x)

end Extension

/-- Every call is of a kind and justified by those before it; a result satisfies `Q`. -/
def Safe (J : List (Exchange I) → I.Call → Prop) (N : I.Call → Prop) (h : List (Exchange I))
    (p : Throwing I ε α) (Q : α → List (Exchange I) → Prop) : Prop :=
  Program.Guarded J (fun h' result => Extends N h h' ∧ ∀ a, result = .ok a → Q a h') h p.run

section Rules
variable {J : List (Exchange I) → I.Call → Prop} {N : I.Call → Prop} {h : List (Exchange I)}
  {p : Throwing I ε α} {Q R : α → List (Exchange I) → Prop} {S : β → List (Exchange I) → Prop}
variable {l : List α}

theorem Safe.pure {a : α} (hQ : Q a h) : Safe J N h (Pure.pure a : Throwing I ε α) Q :=
  ⟨.refl h, fun _ heq => Except.ok.inj heq ▸ hQ⟩

theorem Safe.throw {e : ε} : Safe J N h (throw e : Throwing I ε α) Q := ⟨.refl h, nofun⟩

theorem Safe.lift {x : Except ε α} (hQ : ∀ a, x = .ok a → Q a h) :
    Safe J N h (Throwing.lift x : Throwing I ε α) Q :=
  ⟨.refl h, hQ⟩

theorem Safe.mono (hp : Safe J N h p Q) (hQR : ∀ a h', Extends N h h' → Q a h' → R a h') :
    Safe J N h p R :=
  Program.Guarded.mono hp fun h' _ hpost => ⟨hpost.1, fun a heq => hQR a h' hpost.1 (hpost.2 a heq)⟩

variable {M : I.Call → Prop}

theorem Safe.first {f : α → Throwing I ε β} (hNM : ∀ c, N c → M c) (hp : Safe J N h p Q)
    (hf : ∀ a h', Extends N h h' → Q a h' → Safe J M h' (f a) S) : Safe J M h (p >>= f) S := by
  refine Program.Guarded.bind hp fun h' result hpost => ?_
  have hext := hpost.1.mono hNM
  cases result with
  | error e => exact ⟨hext, nofun⟩
  | ok a =>
    exact Program.Guarded.mono (hf a h' hpost.1 (hpost.2 a rfl))
      fun h'' _ hrest => ⟨hext.trans hrest.1, hrest.2⟩

theorem Safe.bind {f : α → Throwing I ε β} (hp : Safe J N h p Q)
    (hf : ∀ a h', Extends N h h' → Q a h' → Safe J N h' (f a) S) : Safe J N h (p >>= f) S :=
  Safe.first (fun _ => id) hp hf

theorem Safe.ask {c : I.Call} {as : I.Answer c = Except ε α} (hJ : J h c) (hN : N c)
    (hQ : ∀ answer a, cast as answer = .ok a → Q a (h ++ [⟨c, answer⟩])) :
    Safe J N h (Throwing.ask c as) Q :=
  ⟨hJ, fun answer => ⟨⟨[⟨c, answer⟩], rfl, fun x hx => by
    rw [mem_singleton.1 hx]
    exact hN⟩, hQ answer⟩⟩

theorem Safe.ite {c : Prop} [Decidable c] {q : Throwing I ε α} (hp : c → Safe J N h p Q)
    (hq : ¬ c → Safe J N h q Q) : Safe J N h (if c then p else q) Q := by
  split
  · next hc => exact hp hc
  · next hc => exact hq hc

theorem Safe.recover {handler : ε → Throwing I ε α} (hp : Safe J N h p Q)
    (hhandler : ∀ e h', Extends N h h' → Safe J N h' (handler e) Q) :
    Safe J N h (Throwing.recover p handler) Q := by
  refine Program.Guarded.bind hp fun h' result hpost => ?_
  cases result with
  | ok a => exact hpost
  | error e =>
    exact Program.Guarded.mono (hhandler e h' hpost.1)
      fun h'' _ hrest => ⟨hpost.1.trans hrest.1, hrest.2⟩

theorem Safe.cleaningUp {cleanup : Throwing I ε PUnit} (hNM : ∀ c, N c → M c) (hp : Safe J N h p Q)
    (hcleanup : ∀ h', Extends N h h' → Safe J M h' cleanup fun _ _ => True) :
    Safe J M h (Throwing.cleaningUp p cleanup) fun _ _ => True := by
  refine Program.Guarded.bind hp fun h' result hpost => ?_
  refine Program.Guarded.bind (hcleanup h' hpost.1) fun h'' cleaned hrest => ?_
  have hext : Extends M h h'' := (hpost.1.mono hNM).trans hrest.1
  cases cleaned with
  | ok _ => exact ⟨hext, fun _ _ => trivial⟩
  | error e => exact ⟨hext, fun _ _ => trivial⟩

theorem Safe.calls (hNM : ∀ c, N c → M c) (hp : Safe J N h p Q) : Safe J M h p Q :=
  Program.Guarded.mono hp fun _ _ hpost => ⟨hpost.1.mono hNM, hpost.2⟩

theorem Safe.forEach {body : α → Throwing I ε PUnit}
    (hbody : ∀ a ∈ l, ∀ h', Extends N h h' → Safe J N h' (body a) fun _ _ => True) :
    Safe J N h (Throwing.forEach l body) fun _ _ => True := by
  induction l generalizing h with
  | nil => exact Safe.pure trivial
  | cons a l ih =>
    refine Safe.bind (hbody a (.head _) h (.refl h)) fun _ h' hext _ => ?_
    exact ih fun b hb h'' hext' => hbody b (.tail _ hb) h'' (hext.trans hext')

theorem Safe.forWhile {body : α → Throwing I ε Bool}
    (hbody : ∀ a ∈ l, ∀ h', Extends N h h' → Safe J N h' (body a) fun _ _ => True) :
    Safe J N h (Throwing.forWhile l body) fun _ _ => True := by
  induction l generalizing h with
  | nil => exact Safe.pure trivial
  | cons a l ih =>
    refine Safe.bind (hbody a (.head _) h (.refl h)) fun goOn h' hext _ => ?_
    refine Safe.ite (fun _ => ?_) fun _ => Safe.pure trivial
    exact ih fun b hb h'' hext' => hbody b (.tail _ hb) h'' (hext.trans hext')

theorem Safe.forAll {P : List (Exchange I) → Prop} {T : α → β → List (Exchange I) → Prop}
    {body : α → Throwing I ε β} (hP : P h) (hT : ∀ a b h h', Extends N h h' → T a b h → T a b h')
    (hbody : ∀ a ∈ l, ∀ h', Extends N h h' → P h' →
      Safe J N h' (body a) fun b h'' => P h'' ∧ T a b h'') :
    Safe J N h (Throwing.forAll l body) fun bs h' => P h' ∧ Forall₂ (T · · h') l bs := by
  induction l generalizing h with
  | nil => exact Safe.pure ⟨hP, .nil⟩
  | cons a l ih =>
    refine Safe.bind (hbody a (.head _) h (.refl h) hP) fun b h' hext hpost => ?_
    refine Safe.bind (ih hpost.1 fun a' ha' h'' hext' hP' =>
      hbody a' (.tail _ ha') h'' (hext.trans hext') hP') fun bs h'' hext' hrest => ?_
    exact Safe.pure ⟨hrest.1, .cons (hT a b h' h'' hext' hpost.2) hrest.2⟩

end Rules
end Throwing
end General
