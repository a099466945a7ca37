import Mathlib.Data.List.Induction
import Rolebox.General.Transition

/-! Programs that make calls, rules for what precedes each call, and their interleaved runs. -/

namespace General
open List

/-- The calls a program may make and the answers of each. -/
structure Interface where
  Call : Type
  Answer : Call → Type

structure Exchange (I : Interface) where
  call : I.Call
  answer : I.Answer call

inductive Program (I : Interface) (α : Type) where
  | done (result : α)
  | call (c : I.Call) (next : I.Answer c → Program I α)

namespace Program
variable {I : Interface} {α β : Type}

def bind : Program I α → (α → Program I β) → Program I β
  | done result, f => f result
  | call c next, f => call c fun answer => (next answer).bind f

instance : Monad (Program I) where
  pure := done
  bind := bind

def ask (c : I.Call) : Program I (I.Answer c) := call c done

/-- Every call is justified by the exchanges before it, and so is the result. -/
def Guarded (J : List (Exchange I) → I.Call → Prop) (Q : List (Exchange I) → α → Prop) :
    List (Exchange I) → Program I α → Prop
  | h, done result => Q h result
  | h, call c next => J h c ∧ ∀ answer, Guarded J Q (h ++ [⟨c, answer⟩]) (next answer)

section Rules
variable {J : List (Exchange I) → I.Call → Prop} {Q R : List (Exchange I) → α → Prop}
  {h : List (Exchange I)} {p : Program I α}
variable {S : List (Exchange I) → β → Prop}

theorem Guarded.pure {result : α} (hQ : Q h result) :
    Guarded J Q h (Pure.pure result : Program I α) := hQ

theorem Guarded.bind {f : α → Program I β} (hp : Guarded J Q h p)
    (hf : ∀ h result, Q h result → Guarded J S h (f result)) : Guarded J S h (p >>= f) := by
  induction p generalizing h with
  | done result => exact hf h result hp
  | call c next ih => exact ⟨hp.1, fun answer => ih answer (hp.2 answer)⟩

theorem Guarded.ask_bind {c : I.Call} {f : I.Answer c → Program I β} (hJ : J h c)
    (hf : ∀ answer, Guarded J S (h ++ [⟨c, answer⟩]) (f answer)) :
    Guarded J S h (Program.ask c >>= f) :=
  ⟨hJ, hf⟩

theorem Guarded.mono (hp : Guarded J Q h p) (hQR : ∀ h result, Q h result → R h result) :
    Guarded J R h p := by
  induction p generalizing h with
  | done result => exact hQR h result hp
  | call c next ih => exact ⟨hp.1, fun answer => ih answer (hp.2 answer)⟩

theorem Guarded.ite {c : Prop} [Decidable c] {q : Program I α} (hp : c → Guarded J Q h p)
    (hq : ¬ c → Guarded J Q h q) : Guarded J Q h (if c then p else q) := by
  split
  · next hc => exact hp hc
  · next hc => exact hq hc

theorem Guarded.foldlM {f : β → α → Program I β} {l : List α} {b : β} (hb : S h b)
    (hf : ∀ a ∈ l, ∀ h b, S h b → Guarded J S h (f b a)) : Guarded J S h (l.foldlM f b) := by
  induction l generalizing h b with
  | nil => exact hb
  | cons a l ih =>
    rw [foldlM_cons]
    refine Guarded.bind (hf a (.head _) h b hb) fun h' b' hb' => ?_
    exact ih hb' fun a' ha' => hf a' (.tail _ ha')

end Rules

inductive Leads : Program I α → List (Exchange I) → Program I α → Prop where
  | refl (p : Program I α) : Leads p [] p
  | step {c : I.Call} {next : I.Answer c → Program I α} {answer : I.Answer c}
      {h : List (Exchange I)} {q : Program I α} (hrest : Leads (next answer) h q) :
      Leads (.call c next) (⟨c, answer⟩ :: h) q

section Soundness
variable {J : List (Exchange I) → I.Call → Prop} {Q : List (Exchange I) → α → Prop}
  {h h' : List (Exchange I)} {p q : Program I α}

theorem Leads.guarded (hleads : Leads p h' q) (hp : Guarded J Q h p) : Guarded J Q (h ++ h') q := by
  induction hleads generalizing h with
  | refl p =>
    rw [append_nil]
    exact hp
  | @step c next answer h' q _ ih =>
    have hnext := ih (hp.2 answer)
    rwa [append_assoc, singleton_append] at hnext

end Soundness

section Returns

def Returns (p : Program I α) (h : List (Exchange I)) (result : α) : Prop :=
  Leads p h (.done result)

variable {p : Program I α} {h : List (Exchange I)}

theorem returns_pure {a result : α} :
    Returns (Pure.pure a : Program I α) h result ↔ h = [] ∧ a = result := by
  constructor
  · intro hreturns
    cases hreturns
    exact ⟨rfl, rfl⟩
  · rintro ⟨rfl, rfl⟩
    exact .refl _

theorem returns_bind {f : α → Program I β} {result : β} :
    Returns (p >>= f) h result ↔
      ∃ before a after, h = before ++ after ∧ Returns p before a ∧ Returns (f a) after result := by
  constructor
  · intro hreturns
    induction p generalizing h with
    | done a => exact ⟨[], a, h, rfl, .refl _, hreturns⟩
    | call c next ih =>
      cases hreturns with
      | @step _ _ answer rest _ hrest =>
        obtain ⟨before, a, after, rfl, hp, hf⟩ := ih answer hrest
        exact ⟨⟨c, answer⟩ :: before, a, after, rfl, .step hp, hf⟩
  · rintro ⟨before, a, after, rfl, hp, hf⟩
    induction p generalizing before with
    | done b =>
      cases hp
      exact hf
    | call c next ih =>
      cases hp with
      | step hrest => exact .step (ih _ _ hrest)

theorem returns_ask {c : I.Call} {result : I.Answer c} :
    Returns (ask c) h result ↔ h = [⟨c, result⟩] := by
  constructor
  · intro hreturns
    cases hreturns with
    | step hrest =>
      cases hrest
      rfl
  · rintro rfl
    exact .step (.refl _)

theorem returns_ask_bind {c : I.Call} {f : I.Answer c → Program I β} {result : β} :
    Returns (ask c >>= f) h result ↔
      ∃ answer after, h = ⟨c, answer⟩ :: after ∧ Returns (f answer) after result := by
  rw [returns_bind]
  constructor
  · rintro ⟨before, answer, after, rfl, hask, hf⟩
    obtain rfl := returns_ask.1 hask
    exact ⟨answer, after, rfl, hf⟩
  · rintro ⟨answer, after, rfl, hf⟩
    exact ⟨[⟨c, answer⟩], answer, after, rfl, returns_ask.2 rfl, hf⟩

end Returns
end Program

section Parties
variable {I : Interface} {α W : Type}
variable {i : Nat} {x : Exchange I}

/-- One world and what is left of the program of each party. -/
structure Parties (I : Interface) (W α : Type) where
  world : W
  programs : List (Program I α)

/-- The next call of one party is answered by the world. -/
inductive Serves (serve : W → Exchange I → W → Prop) :
    Parties I W α → Nat × Exchange I → Parties I W α → Prop where
  | step {s : Parties I W α} {i : Nat} {c : I.Call} {next : I.Answer c → Program I α}
      {answer : I.Answer c} {w : W} (hparty : s.programs[i]? = some (.call c next))
      (hserve : serve s.world ⟨c, answer⟩ w) :
      Serves serve s (i, ⟨c, answer⟩)
        { world := w, programs := s.programs.set i (next answer) }

def exchangesOf (i : Nat) (trace : List (Nat × Exchange I)) : List (Exchange I) :=
  trace.filterMap fun event => if event.1 = i then some event.2 else none

variable {trace : List (Nat × Exchange I)}

theorem mem_exchangesOf : x ∈ exchangesOf i trace ↔ (i, x) ∈ trace := by
  unfold exchangesOf
  rw [mem_filterMap]
  constructor
  · rintro ⟨⟨j, y⟩, hmem, hsome⟩
    by_cases hi : j = i
    · rw [if_pos hi] at hsome
      cases hsome
      exact hi ▸ hmem
    · rw [if_neg hi] at hsome
      exact nomatch hsome
  · intro hmem
    exact ⟨(i, x), hmem, if_pos rfl⟩

theorem exchangesOf_snoc_self (i : Nat) (trace : List (Nat × Exchange I)) (x : Exchange I) :
    exchangesOf i (trace ++ [(i, x)]) = exchangesOf i trace ++ [x] := by
  simp [exchangesOf, filterMap_append]

theorem exchangesOf_snoc_other {j : Nat} (hne : j ≠ i) (trace : List (Nat × Exchange I))
    (x : Exchange I) : exchangesOf i (trace ++ [(j, x)]) = exchangesOf i trace := by
  simp [exchangesOf, filterMap_append, hne]

theorem exchangesOf_split {first rest : List (Exchange I)}
    (h : exchangesOf i trace = first ++ x :: rest) :
    ∃ before after, trace = before ++ (i, x) :: after ∧ exchangesOf i before = first ∧
      exchangesOf i after = rest := by
  induction trace generalizing first with
  | nil =>
    have hnil : ([] : List (Exchange I)) = first ++ x :: rest := h
    simp at hnil
  | cons event trace ih =>
    obtain ⟨j, y⟩ := event
    by_cases hj : j = i
    · subst hj
      have hcons : exchangesOf j ((j, y) :: trace) = y :: exchangesOf j trace := by
        unfold exchangesOf
        rw [filterMap_cons, if_pos rfl]
      rw [hcons] at h
      cases first with
      | nil =>
        obtain ⟨rfl, hrest⟩ := List.cons.inj h
        exact ⟨[], trace, rfl, rfl, hrest⟩
      | cons z first =>
        obtain ⟨rfl, hrest⟩ := List.cons.inj h
        obtain ⟨before, after, rfl, hbefore, hafter⟩ := ih hrest
        refine ⟨(j, y) :: before, after, rfl, ?_, hafter⟩
        unfold exchangesOf at hbefore ⊢
        rw [filterMap_cons, if_pos rfl, hbefore]
    · have hskip : ∀ l, exchangesOf i ((j, y) :: l) = exchangesOf i l := by
        intro l
        unfold exchangesOf
        rw [filterMap_cons, if_neg hj]
      rw [hskip] at h
      obtain ⟨before, after, rfl, hbefore, hafter⟩ := ih h
      exact ⟨(j, y) :: before, after, rfl, (hskip before).trans hbefore, hafter⟩

theorem exchangesOf_getLast (h : (exchangesOf i trace).getLast? = some x) :
    ∃ before after, trace = before ++ (i, x) :: after ∧ ∀ event ∈ after, event.1 ≠ i := by
  induction trace using reverseRecOn with
  | nil => exact nomatch h
  | append_singleton trace event ih =>
    obtain ⟨j, y⟩ := event
    by_cases hj : j = i
    · subst hj
      rw [exchangesOf_snoc_self, getLast?_append] at h
      obtain rfl : y = x := Option.some.inj h
      exact ⟨trace, [], rfl, nofun⟩
    · rw [exchangesOf_snoc_other hj] at h
      obtain ⟨before, after, rfl, hafter⟩ := ih h
      refine ⟨before, after ++ [(j, y)], by simp, fun event hevent => ?_⟩
      rcases mem_append.1 hevent with hold | hnew
      · exact hafter event hold
      · rw [mem_singleton.1 hnew]
        exact hj

theorem firstExchange_unique {first first' rest rest' : List (Nat × Exchange I)} {x' : Exchange I}
    (h : first ++ (i, x) :: rest = first' ++ (i, x') :: rest')
    (hfirst : ∀ event ∈ first, event.1 ≠ i) (hfirst' : ∀ event ∈ first', event.1 ≠ i) :
    first = first' ∧ x = x' := by
  induction first generalizing first' with
  | nil =>
    cases first' with
    | nil => exact ⟨rfl, (Prod.mk.inj (List.cons.inj h).1).2⟩
    | cons event first' =>
      exact absurd (congrArg Prod.fst (List.cons.inj h).1).symm (hfirst' event (.head _))
  | cons event first ih =>
    cases first' with
    | nil =>
      exact absurd (congrArg Prod.fst (List.cons.inj h).1) (hfirst event (.head _))
    | cons event' first' =>
      obtain ⟨hevent, hrest⟩ := List.cons.inj h
      obtain ⟨rfl, hsame⟩ := ih hrest (fun e he => hfirst e (.tail _ he))
        fun e he => hfirst' e (.tail _ he)
      exact ⟨by rw [hevent], hsame⟩

variable {serve : W → Exchange I → W → Prop} {s t : Parties I W α}
  {trace : List (Nat × Exchange I)}

theorem Serves.party {event : Nat × Exchange I} (h : Serves serve s event t) {p : Program I α}
    (hp : s.programs[i]? = some p) :
    ∃ q, t.programs[i]? = some q ∧ Program.Leads p (exchangesOf i [event]) q := by
  cases h with
  | @step i' c next answer w hparty hserve =>
    by_cases hi : i' = i
    · subst hi
      have hsame : p = .call c next := Option.mem_unique hp hparty
      subst hsame
      refine ⟨next answer, getElem?_set_self (List.getElem?_eq_some_iff.1 hp).1, ?_⟩
      unfold exchangesOf
      rw [filterMap_cons, if_pos rfl]
      exact .step (.refl _)
    · refine ⟨p, (getElem?_set_ne hi).trans hp, ?_⟩
      unfold exchangesOf
      rw [filterMap_cons, if_neg hi]
      exact .refl p

theorem Program.Leads.trans {p q r : Program I α} {h h' : List (Exchange I)}
    (hpq : Program.Leads p h q) (hqr : Program.Leads q h' r) : Program.Leads p (h ++ h') r := by
  induction hpq with
  | refl p => exact hqr
  | step _ ih => exact .step (ih hqr)

section

variable (h : Run (Serves serve) s trace t)
include h

theorem run_leads {p : Program I α} (hp : s.programs[i]? = some p) :
    ∃ q, t.programs[i]? = some q ∧ Program.Leads p (exchangesOf i trace) q := by
  induction h generalizing p with
  | nil s => exact ⟨p, hp, .refl p⟩
  | @cons s m t event trace hstep _ ih =>
    obtain ⟨q, hq, hfirst⟩ := hstep.party hp
    obtain ⟨r, hr, hrest⟩ := ih hq
    refine ⟨r, hr, ?_⟩
    have happend : exchangesOf i (event :: trace) =
        exchangesOf i [event] ++ exchangesOf i trace := by
      unfold exchangesOf
      rw [← filterMap_append, singleton_append]
    rw [happend]
    exact hfirst.trans hrest

/-- A call served in a run is one of its party's program, justified by the party's exchanges. -/
theorem call_guarded {u : Parties I W α} {exchange : Exchange I}
    (hlast : Serves serve t (i, exchange) u) :
    ∃ p, s.programs[i]? = some p ∧
      ∀ (J : List (Exchange I) → I.Call → Prop) (Q : List (Exchange I) → α → Prop),
        Program.Guarded J Q [] p → J (exchangesOf i trace) exchange.call := by
  cases hlast with
  | @step _ c next answer w hparty hserve =>
    have hlength : t.programs.length = s.programs.length :=
      h.invariant (I := fun t => t.programs.length = s.programs.length)
        (fun _ _ _ hlen hst => by
          cases hst with
          | step => exact (length_set ..).trans hlen) rfl
    have hbound : i < s.programs.length := hlength ▸ (List.getElem?_eq_some_iff.1 hparty).1
    have hparty' : s.programs[i]? = some (s.programs.get ⟨i, hbound⟩) := getElem?_eq_getElem hbound
    obtain ⟨q, hq, hleads⟩ := run_leads h hparty'
    have hsame : q = .call c next := Option.mem_unique hq hparty
    subst hsame
    refine ⟨_, hparty', fun J Q hp => ?_⟩
    have hguarded := hleads.guarded hp
    exact hguarded.1

theorem run_serves : Run serve s.world (trace.map (·.2)) t.world := by
  induction h with
  | nil => exact .nil _
  | cons hst _ ih =>
    cases hst with
    | step _ hanswered => exact .cons hanswered ih

end

end Parties
end General
