import Mathlib.Data.Rat.Floor
import Rolebox.General.KeyedMutex

/-! The pacing of requests by origin, of which the oldest is forgotten. -/

namespace Rolebox.Web
open General List Function Option

def MAX_PACED_ORIGINS : Nat := 256

/-- `setTimeout`: a delay is cut to whole milliseconds, and one out of range is a millisecond. -/
def timerDelay (ms : ℚ) : Nat := if 1 ≤ ms ∧ ms ≤ 2147483647 then ⌊ms⌋.toNat else 1

/-- The chains with the origins in order, the sleeping callers with their times, the starts. -/
structure HostGate (Origin : Type*) where
  hostChains : Mutexes Origin Unit
  origins : List Origin
  hostLastStart : Origin → Option Nat
  sleeping : Nat → Option Nat
  starts : List (Origin × Nat)
  clock : Nat

inductive GateEvent (Origin : Type*) where
  | acquire (origin : Origin) (now : Nat)
  | settle (caller : Nat)
  | pass (caller now : Nat) (jitter : ℚ) (stamped : Nat)
  | wake (caller now : Nat)
  | fail (caller : Nat)

namespace HostGate
variable {Origin : Type*}

def opened : HostGate Origin where
  hostChains := .empty
  origins := []
  hostLastStart _ := none
  sleeping _ := none
  starts := []
  clock := 0

variable [DecidableEq Origin]

def evict (s : HostGate Origin) (oldest : Origin) (rest : List Origin) : HostGate Origin :=
  { s with
    hostChains := s.hostChains.forget oldest
    origins := rest
    hostLastStart := update s.hostLastStart oldest none }

def trimPacedOrigins : List Origin → HostGate Origin → HostGate Origin
  | [], s => s
  | oldest :: rest, s =>
    if MAX_PACED_ORIGINS < (oldest :: rest).length then trimPacedOrigins rest (s.evict oldest rest)
    else s

/-- A caller takes its place on the chain of its origin. -/
def enter (s : HostGate Origin) (origin : Origin) (now : Nat) : HostGate Origin :=
  let origins := if origin ∈ s.origins then s.origins else s.origins ++ [origin]
  trimPacedOrigins origins
    { s with
      hostChains := s.hostChains.request origin ()
      origins := origins
      clock := now }

def waitMs (s : HostGate Origin) (minIntervalMs : ℚ) (origin : Origin) (now : Nat) (jitter : ℚ) :
    ℚ :=
  ((s.hostLastStart origin).elim 0 fun last => max 0 (minIntervalMs - ((now : ℚ) - last))) + jitter

def release (s : HostGate Origin) (caller : Nat) : HostGate Origin :=
  { s with
    hostChains := s.hostChains.update (fun i _ => i = caller) fun t => { t with released := true }
    sleeping := update s.sleeping caller none }

def leave (s : HostGate Origin) (caller : Nat) (origin : Origin) (now : Nat) : HostGate Origin :=
  { s.release caller with
    hostLastStart := update s.hostLastStart origin (some now)
    starts := (origin, now) :: s.starts
    clock := now }

/-- The caller before is through: the caller sleeps, or leaves when there is no wait. -/
def pass (s : HostGate Origin) (minIntervalMs : ℚ) (caller : Nat) (origin : Origin) (now : Nat)
    (jitter : ℚ) (stamped : Nat) : HostGate Origin :=
  let passed := { s with hostChains := s.hostChains.grant caller }
  let wait := s.waitMs minIntervalMs origin now jitter
  if 0 < wait then
    { passed with
      sleeping := update s.sleeping caller (some (now + timerDelay wait))
      clock := now }
  else passed.leave caller origin stamped

inductive Step (minIntervalMs : ℚ) :
    HostGate Origin → GateEvent Origin → HostGate Origin → Prop where
  | acquire {s : HostGate Origin} {origin : Origin} {now : Nat} (hclock : s.clock ≤ now) :
      Step minIntervalMs s (.acquire origin now) (s.enter origin now)
  | settle {s : HostGate Origin} {caller : Nat} {t : Ticket Origin Unit}
      (ht : s.hostChains.tickets[caller]? = some t) (hreleased : t.released = true)
      (hpassed : s.hostChains.passed t = true) :
      Step minIntervalMs s (.settle caller)
        { s with hostChains := s.hostChains.settle caller }
  | pass {s : HostGate Origin} {caller now stamped : Nat} {jitter : ℚ} {t : Ticket Origin Unit}
      (ht : s.hostChains.tickets[caller]? = some t) (hwaits : t.granted = false)
      (hpassed : s.hostChains.passed t = true) (hclock : s.clock ≤ now) (hjitter : 0 ≤ jitter)
      (hstamped : now ≤ stamped) :
      Step minIntervalMs s (.pass caller now jitter stamped)
        (s.pass minIntervalMs caller t.key now jitter stamped)
  | wake {s : HostGate Origin} {caller now due : Nat} {t : Ticket Origin Unit}
      (ht : s.hostChains.tickets[caller]? = some t) (hasleep : s.sleeping caller = some due)
      (hdue : due ≤ now) (hclock : s.clock ≤ now) :
      Step minIntervalMs s (.wake caller now) (s.leave caller t.key now)
  | fail {s : HostGate Origin} {caller due : Nat} (hasleep : s.sleeping caller = some due) :
      Step minIntervalMs s (.fail caller) (s.release caller)

/-- Starts of an origin are apart, callers wait for their own origin, few origins are remembered. -/
structure Paced (minIntervalMs : ℚ) (s : HostGate Origin) : Prop where
  apart : s.starts.Pairwise fun later earlier => later.1 = earlier.1 →
    (earlier.2 : ℚ) + minIntervalMs ≤ later.2
  own : ∀ (i : Nat) t u, s.hostChains.tickets[i]? = some t → t.prev = some u →
    ∃ t', s.hostChains.tickets[u]? = some t' ∧ t'.key = t.key
  goesOn : ∀ (i : Nat) t, s.hostChains.tickets[i]? = some t →
    (∀ u ∈ t.prev, ∀ t', s.hostChains.tickets[u]? = some t' → t'.released = true) →
    s.hostChains.passed t = true ∨ ∃ u s', Step minIntervalMs s (.settle u) s' ∧
      s'.hostChains.passed t = true
  remembered : ∃ origins : List Origin, origins.length ≤ MAX_PACED_ORIGINS ∧
    ∀ origin, s.hostChains.tails origin ≠ none ∨ s.hostLastStart origin ≠ none → origin ∈ origins

/-- An origin gives way only when its callers are through and its interval is over. -/
def Spares (minIntervalMs : ℚ) (s : HostGate Origin) : GateEvent Origin → Prop
  | .acquire origin now => origin ∉ s.origins → MAX_PACED_ORIGINS ≤ s.origins.length →
    ∀ oldest ∈ s.origins.head?,
      (∀ u t, s.hostChains.tails oldest = some u → s.hostChains.tickets[u]? = some t →
        t.settled = true) ∧
      ∀ last, s.hostLastStart oldest = some last → (last : ℚ) + minIntervalMs ≤ now
  | .pass caller now jitter _ => ∀ t, s.hostChains.tickets[caller]? = some t →
    s.waitMs minIntervalMs t.key now jitter ≤ 2147483647
  | _ => True

end HostGate

namespace HostGate
variable {Origin : Type*} {s s' : HostGate Origin} {k i now : Nat} {t : Ticket Origin Unit}

structure Inv (k : Nat) (s : HostGate Origin) : Prop where
  sound : s.hostChains.Sound
  granted : ∀ (i : Nat) t, s.hostChains.tickets[i]? = some t → t.released = true → t.granted = true
  listed : ∀ origin, s.hostChains.tails origin ≠ none ∨ s.hostLastStart origin ≠ none →
    origin ∈ s.origins
  bounded : s.origins.length ≤ MAX_PACED_ORIGINS
  asleep : ∀ i due, s.sleeping i = some due → ∃ t, s.hostChains.tickets[i]? = some t ∧
    t.granted = true ∧ t.released = false ∧ ∀ start ∈ s.starts, start.1 = t.key → start.2 + k ≤ due
  started : ∀ start ∈ s.starts,
    (∃ last, s.hostLastStart start.1 = some last ∧ start.2 ≤ last) ∨ start.2 + k ≤ s.clock
  apart : s.starts.Pairwise fun later earlier => later.1 = earlier.1 → earlier.2 + k ≤ later.2

theorem inv_opened : Inv k (opened : HostGate Origin) where
  sound := Mutexes.sound_empty
  granted i t ht := by simp [opened, Mutexes.empty] at ht
  listed origin h := by simp [opened, Mutexes.empty] at h
  bounded := Nat.zero_le _
  asleep i due h := nomatch h
  started start h := nomatch h
  apart := .nil

theorem le_timerDelay {n : Int} {ms : ℚ} (h : (n : ℚ) ≤ ms) (hmax : ms ≤ 2147483647) :
    n ≤ timerDelay ms := by
  rw [timerDelay]
  split
  · exact (Int.le_floor.2 h).trans (Int.self_le_toNat _)
  next hout =>
  have hless : ms < 1 := not_le.1 fun hone => hout ⟨hone, hmax⟩
  have hlt : n < 1 := by exact_mod_cast h.trans_lt hless
  exact hlt.le

variable {origin : Origin}

/-- Who finds no wait, or has slept for it, comes the interval after every start. -/
theorem Inv.waited (h : Inv k s) (hclock : s.clock ≤ now) {jitter : ℚ} (hjitter : 0 ≤ jitter)
    {delay : Nat} (hdelay : ∀ n : Int, (n : ℚ) ≤ s.waitMs k origin now jitter → n ≤ delay) :
    ∀ start ∈ s.starts, start.1 = origin → start.2 + k ≤ now + delay := by
  rintro start hstart rfl
  rcases h.started start hstart with ⟨last, hlast, hle⟩ | hpast
  · have hwait : (((k : Int) - (now - last) : Int) : ℚ) ≤ s.waitMs k start.1 now jitter := by
      rw [waitMs, hlast]
      push_cast
      have hmax := le_max_right 0 ((k : ℚ) - ((now : ℚ) - last))
      exact hmax.trans (le_add_of_nonneg_right hjitter)
    have hneeded := hdelay _ hwait
    omega
  · omega

/-- A change of the tickets that releases none. -/
theorem Inv.tickets (h : Inv k s) {c : Nat → Ticket Origin Unit → Bool}
    {f : Ticket Origin Unit → Ticket Origin Unit} (hf : ∀ t, Mutexes.Advances t (f t))
    (hreleased : ∀ t, (f t).released = t.released) (hsound : (s.hostChains.update c f).Sound) :
    Inv k { s with hostChains := s.hostChains.update c f } where
  sound := hsound
  granted i t ht hdone := by
    obtain ⟨w, hw, rfl⟩ := Mutexes.getElem?_update.1 ht
    refine (Mutexes.update_advances hf i w).granted (h.granted i w hw ?_)
    split at hdone
    · rwa [hreleased] at hdone
    · exact hdone
  listed := h.listed
  bounded := h.bounded
  asleep i due hdue := by
    obtain ⟨w, hw, hgranted, hheld, hstarts⟩ := h.asleep i due hdue
    have hadv := Mutexes.update_advances (c := c) hf i w
    refine ⟨_, Mutexes.getElem?_update.2 ⟨w, hw, rfl⟩, hadv.granted hgranted, ?_, ?_⟩
    · split
      · rw [hreleased, hheld]
      · exact hheld
    · rw [hadv.key]
      exact hstarts
  started := h.started
  apart := h.apart

theorem Inv.at (h : Inv k s) (hclock : s.clock ≤ now) : Inv k { s with clock := now } :=
  { h with started := fun start hstart => (h.started start hstart).imp_right hclock.trans' }

theorem Inv.release (h : Inv k s) (ht : s.hostChains.tickets[i]? = some t)
    (hgranted : t.granted = true) : Inv k (s.release i) where
  sound := by
    refine h.sound.update (fun t => ⟨rfl, rfl, rfl, id, fun _ => rfl, id⟩) ?_ ?_
    · intro j w hw _ hsettled
      exact ⟨rfl, (h.sound.settled j w hw hsettled).2⟩
    · intro j w hw _ hwas
      exact h.sound.granted j w hw hwas
  granted j w hw hdone := by
    obtain ⟨v, hv, rfl⟩ := Mutexes.getElem?_update.1 hw
    by_cases hj : j = i
    · subst hj
      obtain rfl : v = t := Option.some.inj (hv.symm.trans ht)
      simpa using hgranted
    · simp only [hj, decide_false, Bool.false_eq_true, if_false] at hdone ⊢
      exact h.granted j v hv hdone
  listed := h.listed
  bounded := h.bounded
  asleep j due hdue := by
    have hj : j ≠ i := by
      rintro rfl
      have hself : (s.release j).sleeping j = none := update_self ..
      exact nomatch hself.symm.trans hdue
    obtain ⟨w, hw, hrest⟩ := h.asleep j due ((update_of_ne hj _ _).symm.trans hdue)
    refine ⟨w, Mutexes.getElem?_update.2 ⟨w, hw, ?_⟩, hrest⟩
    simp [hj]
  started := h.started
  apart := h.apart

variable [DecidableEq Origin]

theorem Inv.leave (h : Inv k s) (ht : s.hostChains.tickets[i]? = some t)
    (hgranted : t.granted = true) (hheld : t.released = false) (hclock : s.clock ≤ now)
    (hapart : ∀ start ∈ s.starts, start.1 = t.key → start.2 + k ≤ now) :
    Inv k (s.leave i t.key now) where
  sound := (h.release ht hgranted).sound
  granted := (h.release ht hgranted).granted
  listed origin hknown := by
    by_cases hsame : origin = t.key
    · subst hsame
      refine h.listed _ (Or.inl fun hnone => ?_)
      rw [h.sound.tail_free _ hnone i t ht rfl] at hheld
      exact nomatch hheld
    · exact h.listed _ (hknown.imp_right fun hlast hnone =>
        hlast ((update_of_ne hsame _ _).trans hnone))
  bounded := h.bounded
  asleep j due hdue := by
    obtain ⟨w, hw, hwas, hfree, hstarts⟩ := (h.release ht hgranted).asleep j due hdue
    refine ⟨w, hw, hwas, hfree, fun start hstart hkey => ?_⟩
    rcases mem_cons.1 hstart with rfl | hold
    · -- no other caller of the origin is past the gate
      obtain ⟨v, hv, rfl⟩ := Mutexes.getElem?_update.1 hw
      by_cases hj : j = i
      · simp [hj] at hfree
      · simp only [hj, decide_false, Bool.false_eq_true, if_false] at hwas hfree hkey
        exact absurd (h.sound.exclusive hv ht hkey.symm hwas hgranted hfree hheld) hj
    · exact hstarts start hold hkey
  started start hstart := by
    rcases mem_cons.1 hstart with rfl | hold
    · exact Or.inl ⟨now, update_self .., le_rfl⟩
    by_cases hsame : start.1 = t.key
    · exact Or.inr (hapart start hold hsame)
    · rcases h.started start hold with ⟨last, hlast, hle⟩ | hpast
      · exact Or.inl ⟨last, (update_of_ne hsame _ _).trans hlast, hle⟩
      · exact Or.inr (hpast.trans hclock)
  apart := pairwise_cons.2 ⟨fun start hold hsame => hapart start hold hsame.symm, h.apart⟩

theorem Inv.evict (h : Inv k s) {oldest : Origin} {rest : List Origin}
    (hout : s.origins = oldest :: rest)
    (hdone : ∀ u t, s.hostChains.tails oldest = some u → s.hostChains.tickets[u]? = some t →
      t.settled = true) (hpast : ∀ last, s.hostLastStart oldest = some last → last + k ≤ s.clock) :
    Inv k (s.evict oldest rest) where
  sound := by
    cases htail : s.hostChains.tails oldest with
    | none =>
      have hsame : s.hostChains.forget oldest = s.hostChains := by
        rw [Mutexes.forget, update_eq_self_iff.2 htail.symm]
      have hsound := h.sound
      rwa [← hsame] at hsound
    | some u => exact h.sound.forget htail fun t => hdone u t htail
  granted := h.granted
  listed origin hknown := by
    have hne : origin ≠ oldest := by
      rintro rfl
      exact hknown.elim (fun h => h (update_self ..)) fun h => h (update_self ..)
    have hold := h.listed origin (hknown.imp
      (fun h hnone => h ((update_of_ne hne _ _).trans hnone))
      fun h hnone => h ((update_of_ne hne _ _).trans hnone))
    rw [hout] at hold
    exact (mem_cons.1 hold).resolve_left hne
  bounded := by
    have hle := h.bounded
    rw [hout, length_cons] at hle
    exact Nat.le_of_succ_le hle
  asleep := h.asleep
  started start hstart := by
    rcases h.started start hstart with ⟨last, hlast, hle⟩ | hlong
    · by_cases hsame : start.1 = oldest
      · have hgone := hpast last (hsame ▸ hlast)
        exact Or.inr (by change start.2 + k ≤ s.clock; omega)
      · exact Or.inl ⟨last, (update_of_ne hsame _ _).trans hlast, hle⟩
    · exact Or.inr hlong
  apart := h.apart

theorem Inv.request (h : Inv k s) {origins : List Origin}
    (hkept : ∀ o ∈ s.origins, o ∈ origins) (horigin : origin ∈ origins)
    (hlen : origins.length ≤ MAX_PACED_ORIGINS) :
    Inv k { s with hostChains := s.hostChains.request origin (), origins := origins } where
  sound := h.sound.request origin ()
  granted i t ht hdone := by
    rcases Mutexes.getElem?_request ht with ⟨-, hold⟩ | ⟨-, rfl⟩
    · exact h.granted i t hold hdone
    · exact nomatch hdone
  listed o hknown := by
    by_cases hsame : o = origin
    · exact hsame ▸ horigin
    · exact hkept o (h.listed o (hknown.imp_left fun h hnone =>
        h ((update_of_ne hsame _ _).trans hnone)))
  bounded := hlen
  asleep i due hdue := by
    obtain ⟨t, ht, hrest⟩ := h.asleep i due hdue
    exact ⟨t, Mutexes.getElem?_request_old ht, hrest⟩
  started := h.started
  apart := h.apart

theorem trimPacedOrigins_of_le {origins : List Origin}
    (h : origins.length ≤ MAX_PACED_ORIGINS) : trimPacedOrigins origins s = s := by
  cases origins with
  | nil => rfl
  | cons oldest rest => exact if_neg (Nat.not_lt.2 h)

theorem Inv.enter (h : Inv k s) (hclock : s.clock ≤ now)
    (hspares : s.Spares k (.acquire origin now)) : Inv k (s.enter origin now) := by
  unfold HostGate.enter
  by_cases hknown : origin ∈ s.origins
  · rw [if_pos hknown, trimPacedOrigins_of_le h.bounded]
    exact (h.at hclock).request (fun _ => id) hknown h.bounded
  rw [if_neg hknown]
  rcases Nat.lt_or_ge s.origins.length MAX_PACED_ORIGINS with hroom | hfull
  · have hlen : (s.origins ++ [origin]).length ≤ MAX_PACED_ORIGINS := by
      rwa [length_append]
    rw [trimPacedOrigins_of_le hlen]
    exact (h.at hclock).request (fun o => mem_append_left _) (by simp) hlen
  · obtain ⟨oldest, rest, hout⟩ : ∃ oldest rest, s.origins = oldest :: rest := by
      refine exists_cons_of_ne_nil fun hnil => ?_
      rw [hnil] at hfull
      exact absurd hfull (by simp [MAX_PACED_ORIGINS])
    obtain ⟨hdone, hpast⟩ := hspares hknown hfull oldest (by rw [hout]; rfl)
    have hne : origin ≠ oldest := fun hsame => hknown (by simp [hout, hsame])
    have hfits : (rest ++ [origin]).length ≤ MAX_PACED_ORIGINS := by
      simpa [hout] using h.bounded
    have hover : MAX_PACED_ORIGINS < (oldest :: (rest ++ [origin])).length := by
      simpa [hout, Nat.lt_succ_iff] using hfull
    rw [hout, cons_append, trimPacedOrigins, if_pos hover, trimPacedOrigins_of_le hfits]
    -- forgetting one origin and asking for another do not meet
    have hcomm : (s.hostChains.request origin ()).forget oldest =
        (s.hostChains.forget oldest).request origin () := by
      simp only [Mutexes.request, Mutexes.forget, update_of_ne hne]
      rw [update_comm hne]
    unfold HostGate.evict
    rw [hcomm]
    refine ((h.at hclock).evict hout hdone fun last hlast => ?_).request
      (fun o => mem_append_left _) (by simp) hfits
    exact_mod_cast hpast last hlast

theorem Inv.step {e : GateEvent Origin} (h : Inv k s) (hstep : Step k s e s')
    (hspares : s.Spares k e) : Inv k s' := by
  cases hstep with
  | acquire hclock => exact h.enter hclock hspares
  | @settle caller t ht hreleased hpassed =>
    refine h.tickets (fun t => ⟨rfl, rfl, rfl, id, id, fun _ => rfl⟩) (fun _ => rfl)
      (h.sound.settle fun t' ht' => ?_)
    obtain rfl := Option.some.inj (ht.symm.trans ht')
    exact ⟨hreleased, hpassed⟩
  | @pass caller now stamped jitter t ht hwaits hpassed hclock hjitter hstamped =>
    have hgranted := h.tickets (f := fun t => { t with granted := true })
      (fun t => ⟨rfl, rfl, rfl, fun _ => rfl, id, id⟩) (fun _ => rfl) (h.sound.grant fun t' ht' =>
        Option.some.inj (ht.symm.trans ht') ▸ hpassed)
    have hheld : t.released = false := by
      by_contra hdone
      exact absurd (h.granted caller t ht (by simpa using hdone)) (by simp [hwaits])
    have ht' : (s.hostChains.grant caller).tickets[caller]? = some { t with granted := true } :=
      Mutexes.getElem?_update.2 ⟨t, ht, if_pos (decide_eq_true rfl)⟩
    dsimp only [HostGate.pass]
    split
    · have hapart := h.waited hclock hjitter fun n hn => le_timerDelay hn (hspares t ht)
      refine { hgranted.at hclock with asleep := fun j due hdue => ?_ }
      by_cases hj : j = caller
      · subst hj
        change update s.sleeping j _ j = some due at hdue
        rw [update_self] at hdue
        obtain rfl := Option.some.inj hdue
        exact ⟨_, ht', rfl, hheld, hapart⟩
      · exact hgranted.asleep j due ((update_of_ne hj _ _).symm.trans hdue)
    · next hwait =>
      have hapart := h.waited hclock hjitter fun n hn => show n ≤ (0 : Nat) by
        exact_mod_cast hn.trans (not_lt.1 hwait)
      exact hgranted.leave (t := { t with granted := true }) ht' rfl hheld (hclock.trans hstamped)
        fun start hstart hsame => (hapart start hstart hsame).trans hstamped
  | @wake caller now due t ht hasleep hdue hclock =>
    obtain ⟨w, hw, hgranted, hheld, hstarts⟩ := h.asleep caller due hasleep
    obtain rfl := Option.some.inj (ht.symm.trans hw)
    exact h.leave ht hgranted hheld hclock fun start hstart hsame =>
      (hstarts start hstart hsame).trans hdue
  | @fail caller due hasleep =>
    obtain ⟨w, hw, hgranted, -⟩ := h.asleep caller due hasleep
    exact h.release hw hgranted

theorem Inv.paced (h : Inv k s) : s.Paced k where
  apart := h.apart.imp fun hk hsame => by exact_mod_cast hk hsame
  own i t u ht hprev := by
    obtain ⟨-, t', ht', hkey, -⟩ := h.sound.prev_last i t u ht hprev
    exact ⟨t', ht', hkey⟩
  goesOn i t ht hdone := by
    cases hprev : t.prev with
    | none =>
      left
      rw [Mutexes.passed, hprev]
    | some u =>
      obtain ⟨-, w, hw, -⟩ := h.sound.prev_last i t u ht hprev
      have hreleased := hdone u hprev w hw
      have hpassed := h.sound.granted u w hw (h.granted u w hw hreleased)
      refine Or.inr ⟨u, _, .settle hw hreleased hpassed, (Mutexes.passed_some hprev).2 ?_⟩
      exact ⟨_, Mutexes.getElem?_update.2 ⟨w, hw, if_pos (by simp)⟩, rfl⟩
  remembered := ⟨s.origins, h.bounded, h.listed⟩

theorem paced_of_spared {minIntervalMs : ℚ} (hwhole : minIntervalMs = k)
    {events : List (GateEvent Origin)}
    (h : Run (fun s e s' => s.Spares minIntervalMs e ∧ Step minIntervalMs s e s') opened events s) :
    s.Paced minIntervalMs := by
  subst hwhole
  exact (h.invariant (fun _ _ _ hinv hstep => hinv.step hstep.2 hstep.1) inv_opened).paced

def spared (minIntervalMs : ℚ) (s : HostGate Origin) : GateEvent Origin → Bool
  | .acquire origin now => decide (origin ∈ s.origins) ||
      decide (s.origins.length < MAX_PACED_ORIGINS) || s.origins.head?.all fun oldest =>
        ((s.hostChains.tails oldest).bind fun u => s.hostChains.tickets[u]?).all Ticket.settled &&
          (s.hostLastStart oldest).all fun last : Nat => last + minIntervalMs ≤ now
  | .pass caller now jitter _ => s.hostChains.tickets[caller]?.all fun t =>
      s.waitMs minIntervalMs t.key now jitter ≤ 2147483647
  | _ => true

theorem spares_of_spared {minIntervalMs : ℚ} {e : GateEvent Origin}
    (h : spared minIntervalMs s e = true) : s.Spares minIntervalMs e := by
  cases e with
  | acquire origin now =>
    intro hnew hfull oldest holdest
    simp only [spared, hnew, Nat.not_lt.2 hfull, mem_def.1 holdest, decide_false,
      Bool.false_or, all_some, Bool.and_eq_true] at h
    refine ⟨fun u t hu ht => ?_, fun last hlast => ?_⟩
    · have hsettled := h.1
      rwa [hu, bind_some, ht, all_some] at hsettled
    · have hpast := h.2
      rwa [hlast, all_some, decide_eq_true_iff] at hpast
  | pass caller now jitter stamped =>
    intro t ht
    simp only [spared, ht, all_some, decide_eq_true_iff] at h
    exact h
  | _ => trivial

/-- The state an event leads to, where it can happen. -/
def perform (minIntervalMs : ℚ) (s : HostGate Origin) : GateEvent Origin → Option (HostGate Origin)
  | .acquire origin now => if s.clock ≤ now then some (s.enter origin now) else none
  | .settle caller => s.hostChains.tickets[caller]?.bind fun t =>
    if t.released = true ∧ s.hostChains.passed t = true then
      some { s with hostChains := s.hostChains.settle caller }
    else none
  | .pass caller now jitter stamped => s.hostChains.tickets[caller]?.bind fun t =>
    if t.granted = false ∧ s.hostChains.passed t = true ∧ s.clock ≤ now ∧ 0 ≤ jitter ∧
        now ≤ stamped then
      some (s.pass minIntervalMs caller t.key now jitter stamped)
    else none
  | .wake caller now => s.hostChains.tickets[caller]?.bind fun t =>
    (s.sleeping caller).bind fun due =>
    if due ≤ now ∧ s.clock ≤ now then some (s.leave caller t.key now) else none
  | .fail caller => (s.sleeping caller).map fun _ => s.release caller

theorem perform_step {minIntervalMs : ℚ} {e : GateEvent Origin}
    (h : perform minIntervalMs s e = some s') : Step minIntervalMs s e s' := by
  cases e with
  | acquire origin now =>
    obtain ⟨hclock, h⟩ := ite_none_right_eq_some.1 h
    cases h
    exact .acquire hclock
  | settle caller =>
    obtain ⟨t, ht, h⟩ := bind_eq_some_iff.1 h
    obtain ⟨⟨hreleased, hpassed⟩, h⟩ := ite_none_right_eq_some.1 h
    cases h
    exact .settle ht hreleased hpassed
  | pass caller now jitter stamped =>
    obtain ⟨t, ht, h⟩ := bind_eq_some_iff.1 h
    obtain ⟨⟨hwaits, hpassed, hclock, hjitter, hstamped⟩, h⟩ := ite_none_right_eq_some.1 h
    cases h
    exact .pass ht hwaits hpassed hclock hjitter hstamped
  | wake caller now =>
    obtain ⟨t, ht, h⟩ := bind_eq_some_iff.1 h
    obtain ⟨due, hasleep, h⟩ := bind_eq_some_iff.1 h
    obtain ⟨⟨hdue, hclock⟩, h⟩ := ite_none_right_eq_some.1 h
    cases h
    exact .wake ht hasleep hdue hclock
  | fail caller =>
    obtain ⟨due, hasleep, rfl⟩ := map_eq_some_iff.1 h
    exact .fail hasleep

def twoCallers : List (GateEvent Nat) :=
  [.acquire 0 0, .acquire 0 0, .pass 0 0 0 0, .settle 0, .pass 1 10 0 10, .wake 1 1000, .settle 1] ++
    (range' 1 256).map (.acquire · 3000)

/-- A caller sleeps behind another, and their origin is forgotten when both are long through. -/
theorem spared_starts_paced : ∃ s,
    Run (fun s e s' => s.Spares 1000 e ∧ Step 1000 s e s') opened twoCallers s ∧
      s.starts = [(0, 1000), (0, 0)] ∧ s.hostLastStart 0 = none ∧ s.Paced 1000 := by
  have hplay : (twoCallers.foldlM (fun s e =>
      if spared 1000 s e then perform 1000 s e else none) opened).map
        (fun s => (s.starts, s.hostLastStart 0)) = some ([(0, 1000), (0, 0)], none) := by
    decide +kernel
  obtain ⟨s, hfold, hends⟩ := map_eq_some_iff.1 hplay
  obtain ⟨hstarts, hforgotten⟩ := Prod.mk.inj hends
  have hrun := (Run.of_foldlM hfold).mono fun s e s' hstep => by
    obtain ⟨hspared, hstep⟩ := ite_none_right_eq_some.1 hstep
    exact And.intro (spares_of_spared hspared) (perform_step hstep)
  exact ⟨s, hrun, hstarts, hforgotten, paced_of_spared (k := 1000) rfl hrun⟩

def crowded : List (GateEvent Nat) :=
  [.acquire 0 0, .pass 0 0 0 0] ++ (range' 1 256 ++ [0]).map (.acquire · 0) ++ [.pass 257 0 0 0]

/-- An origin that was forgotten starts again at once. -/
theorem forgotten_origin_unpaced : ∃ events s, Run (Step 1000) (opened : HostGate Nat) events s ∧
    ¬ s.Paced 1000 := by
  have hplay : (crowded.foldlM (perform 1000) opened).map HostGate.starts =
      some [(0, 0), (0, 0)] := by
    decide +kernel
  obtain ⟨s, hfold, hstarts⟩ := map_eq_some_iff.1 hplay
  refine ⟨crowded, s, (Run.of_foldlM hfold).mono fun _ _ _ => perform_step, fun h => ?_⟩
  have hapart := h.apart
  rw [hstarts] at hapart
  have hmeet := rel_of_pairwise_cons hapart (mem_singleton_self _) rfl
  exact absurd hmeet (by norm_num)

end HostGate
end Rolebox.Web
