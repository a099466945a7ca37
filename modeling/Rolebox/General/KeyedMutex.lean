import Mathlib.Data.List.Basic
import Rolebox.General.Transition

/-! First-in first-out locks by key: a request waits until the one before it is settled. -/

namespace General
open List Function
variable {κ τ : Type*}

/-- One request of a lock, the request it waits for and how far it has come. -/
structure Ticket (κ τ : Type*) where
  key : κ
  tag : τ
  prev : Option Nat
  granted : Bool
  released : Bool
  settled : Bool

/-- The last request of each key and every request made, in order. -/
structure Mutexes (κ τ : Type*) where
  tails : κ → Option Nat
  tickets : List (Ticket κ τ)

namespace Mutexes

def empty : Mutexes κ τ := { tails := fun _ => none, tickets := [] }

def passed (m : Mutexes κ τ) (t : Ticket κ τ) : Bool :=
  match t.prev with
  | none => true
  | some i => (m.tickets[i]?).any Ticket.settled

def request [DecidableEq κ] (m : Mutexes κ τ) (key : κ) (tag : τ) : Mutexes κ τ :=
  { tails := Function.update m.tails key (some m.tickets.length)
    tickets := m.tickets ++
      [{ key := key
         tag := tag
         prev := m.tails key
         granted := false
         released := false
         settled := false }] }

def update (m : Mutexes κ τ) (c : Nat → Ticket κ τ → Bool) (f : Ticket κ τ → Ticket κ τ) :
    Mutexes κ τ :=
  { m with tickets := m.tickets.mapIdx fun i t => if c i t then f t else t }

def grant (m : Mutexes κ τ) (i : Nat) : Mutexes κ τ :=
  m.update (fun j _ => j = i) fun t => { t with granted := true }

def release (m : Mutexes κ τ) (owned : τ → Bool) : Mutexes κ τ :=
  m.update (fun _ t => owned t.tag) fun t => { t with released := true }

def settle (m : Mutexes κ τ) (i : Nat) : Mutexes κ τ :=
  m.update (fun j _ => j = i) fun t => { t with settled := true }

def forget [DecidableEq κ] (m : Mutexes κ τ) (key : κ) : Mutexes κ τ :=
  { m with tails := Function.update m.tails key none }

structure Advances (t t' : Ticket κ τ) : Prop where
  key : t'.key = t.key
  tag : t'.tag = t.tag
  prev : t'.prev = t.prev
  granted : t.granted → t'.granted
  released : t.released → t'.released
  settled : t.settled → t'.settled

theorem Advances.refl (t : Ticket κ τ) : Advances t t := ⟨rfl, rfl, rfl, id, id, id⟩

structure Sound (m : Mutexes κ τ) : Prop where
  tail_last : ∀ k u, m.tails k = some u → ∃ t, m.tickets[u]? = some t ∧ t.key = k ∧
    ∀ (i : Nat) t', m.tickets[i]? = some t' → t'.key = k → i ≤ u
  tail_free : ∀ k, m.tails k = none → ∀ (i : Nat) t, m.tickets[i]? = some t → t.key = k → t.released
  prev_last : ∀ (j : Nat) t u, m.tickets[j]? = some t → t.prev = some u → u < j ∧
    ∃ t', m.tickets[u]? = some t' ∧ t'.key = t.key ∧
      ∀ i t'', i < j → m.tickets[i]? = some t'' → t''.key = t.key → i ≤ u
  prev_free : ∀ (j : Nat) t, m.tickets[j]? = some t → t.prev = none →
    ∀ i t', i < j → m.tickets[i]? = some t' → t'.key = t.key → t'.released
  settled : ∀ (i : Nat) t, m.tickets[i]? = some t → t.settled → t.released ∧ m.passed t
  granted : ∀ (i : Nat) t, m.tickets[i]? = some t → t.granted → m.passed t

theorem sound_empty : Sound (empty : Mutexes κ τ) where
  tail_last k u h := nomatch h
  tail_free k h i t ht := by simp [empty] at ht
  prev_last j t u ht := by simp [empty] at ht
  prev_free j t ht := by simp [empty] at ht
  settled i t ht := by simp [empty] at ht
  granted i t ht := by simp [empty] at ht

section Order
variable {m : Mutexes κ τ}

theorem passed_some {t : Ticket κ τ} {u : Nat} (hprev : t.prev = some u) :
    m.passed t = true ↔ ∃ t', m.tickets[u]? = some t' ∧ t'.settled = true := by
  unfold passed
  rw [hprev]
  simp only [Option.any_eq_true]

theorem Sound.earlier_released (h : Sound m) {i j : Nat} {t t' : Ticket κ τ}
    (ht : m.tickets[i]? = some t) (ht' : m.tickets[j]? = some t') (hlt : i < j)
    (hkey : t.key = t'.key) (hpassed : m.passed t' = true) : t.released = true := by
  induction j using Nat.strongRecOn generalizing t' with
  | _ j ih =>
    cases hprev : t'.prev with
    | none => exact h.prev_free j t' ht' hprev i t hlt ht hkey
    | some u =>
      obtain ⟨huj, t'', ht'', hkey'', hlast⟩ := h.prev_last j t' u ht' hprev
      have hle : i ≤ u := hlast i t hlt ht hkey
      obtain ⟨w, hw, hsettled⟩ := (passed_some hprev).1 hpassed
      have hsame : w = t'' := Option.mem_unique hw ht''
      subst hsame
      obtain ⟨hreleased, hpassed''⟩ := h.settled u w hw hsettled
      rcases Nat.lt_or_eq_of_le hle with hiu | rfl
      · exact ih u huj hw hiu (hkey.trans hkey''.symm) hpassed''
      · have heq : w = t := Option.mem_unique hw ht
        rw [← heq]
        exact hreleased

theorem Sound.exclusive (h : Sound m) {i j : Nat} {t t' : Ticket κ τ}
    (ht : m.tickets[i]? = some t) (ht' : m.tickets[j]? = some t') (hkey : t.key = t'.key)
    (hgranted : t.granted = true) (hgranted' : t'.granted = true)
    (hheld : t.released = false) (hheld' : t'.released = false) : i = j := by
  rcases Nat.lt_trichotomy i j with hlt | heq | hlt
  · have hreleased := h.earlier_released ht ht' hlt hkey (h.granted j t' ht' hgranted')
    rw [hheld] at hreleased
    cases hreleased
  · exact heq
  · have hreleased := h.earlier_released ht' ht hlt hkey.symm (h.granted i t ht hgranted)
    rw [hheld'] at hreleased
    cases hreleased

end Order

section Operations
variable {m : Mutexes κ τ}
variable {i : Nat} {t : Ticket κ τ} {c : Nat → Ticket κ τ → Bool} {f : Ticket κ τ → Ticket κ τ}
  {key : κ} {tag : τ}

theorem lt_of_getElem? (ht : m.tickets[i]? = some t) : i < m.tickets.length :=
  (List.getElem?_eq_some_iff.1 ht).1

theorem getElem?_update {t' : Ticket κ τ} :
    (m.update c f).tickets[i]? = some t' ↔
      ∃ t, m.tickets[i]? = some t ∧ (if c i t then f t else t) = t' := by
  unfold update
  rw [getElem?_mapIdx, Option.map_eq_some_iff]

theorem update_advances (hf : ∀ t, Advances t (f t)) (i : Nat) (t : Ticket κ τ) :
    Advances t (if c i t then f t else t) := by
  split
  · exact hf t
  · exact Advances.refl t

theorem passed_update (hf : ∀ t, Advances t (f t)) {t' : Ticket κ τ} (hprev : t'.prev = t.prev)
    (h : m.passed t = true) : (m.update c f).passed t' = true := by
  cases hp : t.prev with
  | none =>
    unfold passed
    rw [hprev, hp]
  | some u =>
    obtain ⟨w, hw, hsettled⟩ := (passed_some hp).1 h
    refine (passed_some (hprev.trans hp)).2 ⟨_, getElem?_update.2 ⟨w, hw, rfl⟩, ?_⟩
    exact (update_advances hf u w).settled hsettled

theorem Sound.update (h : Sound m) (hf : ∀ t, Advances t (f t))
    (hsettle : ∀ i t, m.tickets[i]? = some t → c i t → (f t).settled → (f t).released ∧ m.passed t)
    (hgrant : ∀ i t, m.tickets[i]? = some t → c i t → (f t).granted → m.passed t) :
    Sound (m.update c f) where
  tail_last k u hu := by
    obtain ⟨t, ht, hkey, hlast⟩ := h.tail_last k u hu
    refine ⟨_, getElem?_update.2 ⟨t, ht, rfl⟩, (update_advances hf u t).key.trans hkey, ?_⟩
    intro i t' ht' hkey'
    obtain ⟨w, hw, rfl⟩ := getElem?_update.1 ht'
    exact hlast i w hw ((update_advances hf i w).key.symm.trans hkey')
  tail_free k hk i t ht hkey := by
    obtain ⟨w, hw, rfl⟩ := getElem?_update.1 ht
    have hadv := update_advances (c := c) hf i w
    exact hadv.released (h.tail_free k hk i w hw (hadv.key.symm.trans hkey))
  prev_last j t u ht hprev := by
    obtain ⟨w, hw, rfl⟩ := getElem?_update.1 ht
    have hadv := update_advances (c := c) hf j w
    obtain ⟨hlt, t', ht', hkey', hlast⟩ := h.prev_last j w u hw (hadv.prev.symm.trans hprev)
    refine ⟨hlt, _, getElem?_update.2 ⟨t', ht', rfl⟩, ?_, ?_⟩
    · exact (update_advances hf u t').key.trans (hkey'.trans hadv.key.symm)
    · intro i t'' hi ht'' hkey''
      obtain ⟨v, hv, rfl⟩ := getElem?_update.1 ht''
      exact hlast i v hi hv ((update_advances hf i v).key.symm.trans (hkey''.trans hadv.key))
  prev_free j t ht hprev i t' hi ht' hkey := by
    obtain ⟨w, hw, rfl⟩ := getElem?_update.1 ht
    obtain ⟨v, hv, rfl⟩ := getElem?_update.1 ht'
    have hadv := update_advances (c := c) hf j w
    have hadv' := update_advances (c := c) hf i v
    refine hadv'.released (h.prev_free j w hw (hadv.prev.symm.trans hprev) i v hi hv ?_)
    exact hadv'.key.symm.trans (hkey.trans hadv.key)
  settled i t ht hsettled := by
    obtain ⟨w, hw, rfl⟩ := getElem?_update.1 ht
    by_cases hc : c i w
    · rw [if_pos hc] at hsettled ⊢
      obtain ⟨hreleased, hpassed⟩ := hsettle i w hw hc hsettled
      exact ⟨hreleased, passed_update hf (hf w).prev hpassed⟩
    · rw [if_neg hc] at hsettled ⊢
      obtain ⟨hreleased, hpassed⟩ := h.settled i w hw hsettled
      exact ⟨hreleased, passed_update hf rfl hpassed⟩
  granted i t ht hgranted := by
    obtain ⟨w, hw, rfl⟩ := getElem?_update.1 ht
    by_cases hc : c i w
    · rw [if_pos hc] at hgranted ⊢
      exact passed_update hf (hf w).prev (hgrant i w hw hc hgranted)
    · rw [if_neg hc] at hgranted ⊢
      exact passed_update hf rfl (h.granted i w hw hgranted)

theorem Sound.grant (h : Sound m) (hpassed : ∀ t, m.tickets[i]? = some t → m.passed t) :
    Sound (m.grant i) := by
  refine h.update (fun t => ⟨rfl, rfl, rfl, fun _ => rfl, id, id⟩) ?_ ?_
  · intro j t ht _ hsettled
    exact h.settled j t ht hsettled
  · intro j t ht hj _
    rw [of_decide_eq_true hj] at ht
    exact hpassed t ht

theorem Sound.release (h : Sound m) (owned : τ → Bool) : Sound (m.release owned) := by
  refine h.update (fun t => ⟨rfl, rfl, rfl, id, fun _ => rfl, id⟩) ?_ ?_
  · intro j t ht _ hsettled
    exact ⟨rfl, (h.settled j t ht hsettled).2⟩
  · intro j t ht _ hgranted
    exact h.granted j t ht hgranted

theorem Sound.settle (h : Sound m) (hdone : ∀ t, m.tickets[i]? = some t → t.released ∧ m.passed t) :
    Sound (m.settle i) := by
  refine h.update (fun t => ⟨rfl, rfl, rfl, id, id, fun _ => rfl⟩) ?_ ?_
  · intro j t ht hj _
    rw [of_decide_eq_true hj] at ht
    exact hdone t ht
  · intro j t ht _ hgranted
    exact h.granted j t ht hgranted

variable [DecidableEq κ]

theorem getElem?_request (ht : (m.request key tag).tickets[i]? = some t) :
    (i < m.tickets.length ∧ m.tickets[i]? = some t) ∨
      (i = m.tickets.length ∧ t =
        { key := key, tag := tag, prev := m.tails key, granted := false, released := false,
          settled := false }) := by
  unfold request at ht
  exact (getElem?_snoc ht).imp_right fun ⟨hi, hlast⟩ => ⟨hi, hlast.symm⟩

theorem getElem?_request_old (ht : m.tickets[i]? = some t) :
    (m.request key tag).tickets[i]? = some t := by
  have hlt : i < m.tickets.length := (List.getElem?_eq_some_iff.1 ht).1
  exact (getElem?_append_left hlt).trans ht

theorem passed_request (h : m.passed t = true) : (m.request key tag).passed t = true := by
  cases hp : t.prev with
  | none =>
    unfold passed
    rw [hp]
  | some u =>
    obtain ⟨w, hw, hsettled⟩ := (passed_some hp).1 h
    exact (passed_some hp).2 ⟨w, getElem?_request_old hw, hsettled⟩

theorem Sound.request (h : Sound m) (key : κ) (tag : τ) : Sound (m.request key tag) where
  tail_last k u hu := by
    by_cases hk : k = key
    · subst hk
      have hlast : u = m.tickets.length := by
        have hself := update_self k (some m.tickets.length) m.tails
        exact ((Option.mem_unique hself hu)).symm
      subst hlast
      refine ⟨_, getElem?_append_right (Nat.le_refl _) |>.trans (by rw [Nat.sub_self]; rfl),
        rfl, ?_⟩
      intro i t' ht' _
      rcases getElem?_request ht' with ⟨hlt, -⟩ | ⟨rfl, -⟩
      · exact Nat.le_of_lt hlt
      · exact Nat.le_refl _
    · have hold : m.tails k = some u := (update_of_ne hk _ _).symm.trans hu
      obtain ⟨t, ht, hkey, hlast⟩ := h.tail_last k u hold
      refine ⟨t, getElem?_request_old ht, hkey, ?_⟩
      intro i t' ht' hkey'
      rcases getElem?_request ht' with ⟨-, hi⟩ | ⟨-, rfl⟩
      · exact hlast i t' hi hkey'
      · exact absurd hkey'.symm hk
  tail_free k hk i t ht hkey := by
    by_cases hsame : k = key
    · subst hsame
      have hself := update_self k (some m.tickets.length) m.tails
      exact nomatch hself.symm.trans hk
    · have hold : m.tails k = none := (update_of_ne hsame _ _).symm.trans hk
      rcases getElem?_request ht with ⟨-, hi⟩ | ⟨-, rfl⟩
      · exact h.tail_free k hold i t hi hkey
      · exact absurd hkey.symm hsame
  prev_last j t u ht hprev := by
    rcases getElem?_request ht with ⟨-, hj⟩ | ⟨rfl, rfl⟩
    · obtain ⟨hlt, t', ht', hkey', hlast⟩ := h.prev_last j t u hj hprev
      refine ⟨hlt, t', getElem?_request_old ht', hkey', ?_⟩
      intro i t'' hi ht'' hkey''
      rcases getElem?_request ht'' with ⟨-, hold⟩ | ⟨rfl, -⟩
      · exact hlast i t'' hi hold hkey''
      · exact absurd (lt_of_getElem? hj) (Nat.not_lt.2 (Nat.le_of_lt hi))
    · obtain ⟨t', ht', hkey', hlast⟩ := h.tail_last key u hprev
      refine ⟨lt_of_getElem? ht', t', getElem?_request_old ht', hkey', ?_⟩
      intro i t'' hi ht'' hkey''
      rcases getElem?_request ht'' with ⟨-, hold⟩ | ⟨rfl, -⟩
      · exact hlast i t'' hold hkey''
      · exact absurd hi (Nat.lt_irrefl _)
  prev_free j t ht hprev i t' hi ht' hkey := by
    have hearlier : i < m.tickets.length := by
      rcases getElem?_request ht with ⟨hlt, -⟩ | ⟨rfl, -⟩
      · exact Nat.lt_trans hi hlt
      · exact hi
    rcases getElem?_request ht' with ⟨-, hold⟩ | ⟨rfl, -⟩
    · rcases getElem?_request ht with ⟨-, hj⟩ | ⟨-, rfl⟩
      · exact h.prev_free j t hj hprev i t' hi hold hkey
      · exact h.tail_free key hprev i t' hold hkey
    · exact absurd hearlier (Nat.lt_irrefl _)
  settled i t ht hsettled := by
    rcases getElem?_request ht with ⟨-, hi⟩ | ⟨-, rfl⟩
    · obtain ⟨hreleased, hpassed⟩ := h.settled i t hi hsettled
      exact ⟨hreleased, passed_request hpassed⟩
    · cases hsettled
  granted i t ht hgranted := by
    rcases getElem?_request ht with ⟨-, hi⟩ | ⟨-, rfl⟩
    · exact passed_request (h.granted i t hi hgranted)
    · cases hgranted

theorem Sound.forget (h : Sound m) {u : Nat} (hu : m.tails key = some u)
    (hsettled : ∀ t, m.tickets[u]? = some t → t.settled) : Sound (m.forget key) where
  tail_last k v hv := by
    by_cases hk : k = key
    · subst hk
      have hself := update_self k none m.tails
      exact nomatch hself.symm.trans hv
    · exact h.tail_last k v ((update_of_ne hk _ _).symm.trans hv)
  tail_free k hk i t ht hkey := by
    by_cases hsame : k = key
    · subst hsame
      obtain ⟨w, hw, hkeyw, hlast⟩ := h.tail_last k u hu
      obtain ⟨hreleased, hpassed⟩ := h.settled u w hw (hsettled w hw)
      rcases Nat.lt_or_eq_of_le (hlast i t ht hkey) with hlt | rfl
      · exact h.earlier_released ht hw hlt (hkey.trans hkeyw.symm) hpassed
      · rw [← (Option.mem_unique hw ht)]
        exact hreleased
    · exact h.tail_free k ((update_of_ne hsame _ _).symm.trans hk) i t ht hkey
  prev_last := h.prev_last
  prev_free := h.prev_free
  settled := h.settled
  granted := h.granted

end Operations

end Mutexes
end General
