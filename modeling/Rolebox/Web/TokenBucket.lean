import Mathlib.Data.Rat.Floor
import Rolebox.General.Transition

/-! A token bucket whose callers take turns. -/

namespace Rolebox.Web
open General List

structure TokenBucket where
  tokens : ℚ
  lastRefill : ℚ
  maxTokens : ℚ
  refillRatePerMs : ℚ

def TokenBucket.create (ratePerMinute now : ℚ) : TokenBucket where
  maxTokens := ratePerMinute
  tokens := ratePerMinute
  lastRefill := now
  refillRatePerMs := if 0 < ratePerMinute then ratePerMinute / 60000 else 0

namespace TokenBucket
variable (b : TokenBucket)

def refill (now : ℚ) : TokenBucket :=
  { b with
    tokens := min b.maxTokens (b.tokens + (now - b.lastRefill) * b.refillRatePerMs)
    lastRefill := now }

def waitMs : ℤ := ⌈(1 - b.tokens) / b.refillRatePerMs⌉

def spend : TokenBucket := { b with tokens := b.tokens - 1 }

end TokenBucket

/-- A bucket with its callers in the order of the promise chain; the first one may be sleeping. -/
structure Limiter where
  bucket : TokenBucket
  made : Nat
  queue : List Nat
  sleeping : Option ℚ
  clock : ℚ
  completed : List (Nat × ℚ)

inductive LimiterEvent where
  | acquire
  | turn (now : ℚ)

namespace Limiter

def start (ratePerMinute now : ℚ) : Limiter where
  bucket := .create ratePerMinute now
  made := 0
  queue := []
  sleeping := none
  clock := now
  completed := []

/-- The first caller begins, or wakes: it refills and takes a token, or sleeps for one. -/
def turned (w : Limiter) (now : ℚ) (call : Nat) (rest : List Nat) : Limiter :=
  if w.bucket.refillRatePerMs ≤ 0 then
    { w with queue := rest, clock := now, completed := w.completed ++ [(call, now)] }
  else
    let b := w.bucket.refill now
    if b.tokens < 1 then { w with bucket := b, sleeping := some (now + b.waitMs), clock := now }
    else
      { w with
        bucket := b.spend
        queue := rest
        sleeping := none
        clock := now
        completed := w.completed ++ [(call, now)] }

inductive Step : Limiter → LimiterEvent → Limiter → Prop where
  | acquire (w : Limiter) :
      Step w .acquire { w with made := w.made + 1, queue := w.queue ++ [w.made] }
  | turn {w : Limiter} {now : ℚ} {call : Nat} {rest : List Nat} (hqueue : w.queue = call :: rest)
      (hclock : w.clock ≤ now) (hslept : ∀ wake ∈ w.sleeping, wake ≤ now) :
      Step w (.turn now) (w.turned now call rest)

def turns (events : List LimiterEvent) : Nat :=
  events.countP fun event => event matches .turn _

def completedIn (w : Limiter) (a b : ℚ) : Nat :=
  w.completed.countP fun done => a ≤ done.2 ∧ done.2 ≤ b

/-- Calls complete in order after bounded sleeps, and tokens and completions keep their bounds. -/
structure Fair (ratePerMinute : ℚ) (w : Limiter) : Prop where
  finite : ∀ call ∈ w.queue, ∃ n, ∀ events w', Run Step w events w' → n ≤ turns events →
    call ∉ w'.queue
  goesOn : w.queue ≠ [] → ∃ now w', now ≤ w.clock + ⌈60000 / ratePerMinute⌉ ∧ Step w (.turn now) w'
  ordered : w.completed.map Prod.fst ++ w.queue = range w.made
  tokens : 0 ≤ w.bucket.tokens ∧ w.bucket.tokens ≤ ratePerMinute
  period : ∀ a t, 0 ≤ t → (w.completedIn a (a + t) : ℚ) ≤ ratePerMinute + ratePerMinute * t / 60000

end Limiter

namespace Limiter
variable {r : ℚ} {w w' : Limiter} {event : LimiterEvent} {events : List LimiterEvent}

section Invariant
variable {now : ℚ}

/-- `a`'s accounts: what completed since `a` and the tokens left were there at `a` or refilled. -/
structure Accounts (r : ℚ) (w : Limiter) : Prop where
  capacity : w.bucket.maxTokens = r
  rate : w.bucket.refillRatePerMs = r / 60000
  refilled : w.bucket.lastRefill ≤ w.clock
  asleep : ∀ wake ∈ w.sleeping, wake ≤ w.clock + ⌈60000 / r⌉ ∧
    1 ≤ w.bucket.tokens + (wake - w.bucket.lastRefill) * (r / 60000)
  ordered : w.completed.map Prod.fst ++ w.queue = range w.made
  tokens : 0 ≤ w.bucket.tokens ∧ w.bucket.tokens ≤ r
  past : ∀ done ∈ w.completed, done.2 ≤ w.bucket.lastRefill
  since : ∀ a b, a ≤ w.bucket.lastRefill →
    (w.completedIn a b : ℚ) + w.bucket.tokens ≤ r + (w.bucket.lastRefill - a) * (r / 60000)
  period : ∀ a b, a ≤ b → (w.completedIn a b : ℚ) ≤ r + (b - a) * (r / 60000)

theorem Accounts.start (hr : 0 < r) (now : ℚ) : Accounts r (start r now) where
  capacity := rfl
  rate := if_pos hr
  refilled := le_rfl
  asleep wake hwake := nomatch hwake
  ordered := rfl
  tokens := ⟨hr.le, le_rfl⟩
  past done hdone := nomatch hdone
  since a b ha := by
    have hgain : 0 ≤ (now - a) * (r / 60000) := mul_nonneg (sub_nonneg.2 ha) (by positivity)
    simpa [completedIn, Limiter.start, TokenBucket.create] using hgain
  period a b hab := by
    have hgain : 0 ≤ (b - a) * (r / 60000) := mul_nonneg (sub_nonneg.2 hab) (by positivity)
    simp only [completedIn, Limiter.start, countP_nil, Nat.cast_zero]
    linarith

theorem completedIn_eq_zero {a b : ℚ} (h : ∀ done ∈ w.completed, done.2 < a) :
    w.completedIn a b = 0 := by
  refine countP_eq_zero.2 fun done hdone hin => ?_
  have hbefore := h done hdone
  simp only [decide_eq_true_eq] at hin
  linarith [hin.1]

section

variable (h : Accounts r w)
include h

theorem Accounts.refill_le (now : ℚ) : (w.bucket.refill now).tokens ≤ r :=
  (min_le_left ..).trans_eq h.capacity

section

variable (hr : 0 < r)
include hr

theorem Accounts.since_refill (a b : ℚ) (ha : a ≤ now) :
    (w.completedIn a b : ℚ) + (w.bucket.refill now).tokens ≤ r + (now - a) * (r / 60000) := by
  have hgain : 0 ≤ (now - a) * (r / 60000) := mul_nonneg (sub_nonneg.2 ha) (by positivity)
  have hcap := h.refill_le now
  have hmore : (w.bucket.refill now).tokens ≤
      w.bucket.tokens + (now - w.bucket.lastRefill) * (r / 60000) := by
    rw [← h.rate]
    exact min_le_right ..
  rcases le_or_gt a w.bucket.lastRefill with hold | hnew
  · have hsince := h.since a b hold
    have hsplit : (now - a) * (r / 60000) = (w.bucket.lastRefill - a) * (r / 60000) +
        (now - w.bucket.lastRefill) * (r / 60000) := by ring
    linarith
  · rw [completedIn_eq_zero fun done hdone => (h.past done hdone).trans_lt hnew]
    push_cast
    linarith

theorem Accounts.refill_nonneg (hnow : w.clock ≤ now) : 0 ≤ (w.bucket.refill now).tokens := by
  have hpast := h.refilled.trans hnow
  refine le_min (h.capacity ▸ hr.le) (add_nonneg h.tokens.1 (mul_nonneg (by linarith) ?_))
  rw [h.rate]
  positivity

theorem Accounts.sleep (hnow : w.clock ≤ now) :
    Accounts r { w with
      bucket := w.bucket.refill now
      sleeping := some (now + (w.bucket.refill now).waitMs)
      clock := now } where
  capacity := h.capacity
  rate := h.rate
  refilled := le_rfl
  asleep wake hwake := by
    cases hwake
    have hnonneg := h.refill_nonneg hr hnow
    have hrate : (w.bucket.refill now).refillRatePerMs = r / 60000 := h.rate
    have hpos : 0 < r / 60000 := by positivity
    constructor
    · have hwait : (w.bucket.refill now).waitMs ≤ ⌈60000 / r⌉ := by
        refine Int.ceil_le_ceil ?_
        rw [hrate, div_le_iff₀ hpos, show 60000 / r * (r / 60000) = 1 by field_simp]
        linarith
      have hcast : ((w.bucket.refill now).waitMs : ℚ) ≤ ⌈60000 / r⌉ := by exact_mod_cast hwait
      show now + _ ≤ now + _
      linarith
    · have hceil := Int.le_ceil ((1 - (w.bucket.refill now).tokens) / (r / 60000))
      rw [div_le_iff₀ hpos] at hceil
      show 1 ≤ (w.bucket.refill now).tokens +
        (now + ((w.bucket.refill now).waitMs : ℚ) - now) * (r / 60000)
      rw [add_sub_cancel_left, TokenBucket.waitMs, hrate]
      linarith
  ordered := h.ordered
  tokens := ⟨h.refill_nonneg hr hnow, h.refill_le now⟩
  past done hdone := (h.past done hdone).trans (h.refilled.trans hnow)
  since a b ha := h.since_refill hr a b ha
  period := h.period

theorem Accounts.spend (hnow : w.clock ≤ now) {call : Nat}
    {rest : List Nat} (hqueue : w.queue = call :: rest) (hfull : 1 ≤ (w.bucket.refill now).tokens) :
    Accounts r { w with
      bucket := (w.bucket.refill now).spend
      queue := rest
      sleeping := none
      clock := now
      completed := w.completed ++ [(call, now)] } where
  capacity := h.capacity
  rate := h.rate
  refilled := le_rfl
  asleep wake hwake := nomatch hwake
  ordered := by
    have hordered := h.ordered
    rw [hqueue] at hordered
    rw [map_append, append_assoc]
    exact hordered
  tokens := by
    have hcap := h.refill_le now
    show 0 ≤ (w.bucket.refill now).tokens - 1 ∧ (w.bucket.refill now).tokens - 1 ≤ r
    constructor <;> linarith
  past done hdone := by
    rcases mem_append.1 hdone with hold | hnew
    · exact (h.past done hold).trans (h.refilled.trans hnow)
    · rw [mem_singleton.1 hnew]
      exact le_rfl
  since a b ha := by
    have hbefore : a ≤ now := ha
    have hsince := h.since_refill hr a b hbefore
    have hone := countP_le_length (p := fun done : Nat × ℚ => a ≤ done.2 ∧ done.2 ≤ b)
      (l := [(call, now)])
    have hcast : (countP (fun done : Nat × ℚ => decide (a ≤ done.2 ∧ done.2 ≤ b))
        [(call, now)] : ℚ) ≤ 1 := by exact_mod_cast hone
    show ((w.completed ++ [(call, now)]).countP _ : ℚ) + ((w.bucket.refill now).tokens - 1) ≤
      r + (now - a) * (r / 60000)
    rw [countP_append]
    push_cast
    unfold completedIn at hsince
    linarith
  period a b hab := by
    show ((w.completed ++ [(call, now)]).countP _ : ℚ) ≤ _
    rw [countP_append]
    push_cast
    by_cases hin : a ≤ now ∧ now ≤ b
    · have hsince := h.since_refill hr a b hin.1
      have hlate : (now - a) * (r / 60000) ≤ (b - a) * (r / 60000) :=
        mul_le_mul_of_nonneg_right (by linarith) (by positivity)
      unfold completedIn at hsince
      rw [countP_singleton, if_pos (by simpa using hin)]
      push_cast
      linarith
    · have hperiod := h.period a b hab
      unfold completedIn at hperiod
      rw [countP_singleton, if_neg (by simpa using hin)]
      push_cast
      linarith

theorem turned_cases (now : ℚ) (call : Nat) (rest : List Nat) :
    ((w.bucket.refill now).tokens < 1 ∧ w.turned now call rest = { w with
      bucket := w.bucket.refill now
      sleeping := some (now + (w.bucket.refill now).waitMs)
      clock := now }) ∨
    (1 ≤ (w.bucket.refill now).tokens ∧ w.turned now call rest = { w with
      bucket := (w.bucket.refill now).spend
      queue := rest
      sleeping := none
      clock := now
      completed := w.completed ++ [(call, now)] }) := by
  have hrate : ¬ w.bucket.refillRatePerMs ≤ 0 := by
    rw [h.rate, not_le]
    positivity
  unfold turned
  rw [if_neg hrate]
  dsimp only
  split
  · next hempty => exact .inl ⟨hempty, rfl⟩
  · next hfull => exact .inr ⟨not_lt.1 hfull, rfl⟩

theorem Accounts.step (hstep : Step w event w') : Accounts r w' := by
  cases hstep with
  | acquire =>
    refine { h with ordered := ?_ }
    rw [range_succ, ← h.ordered, append_assoc]
  | turn hqueue hclock hslept =>
    obtain ⟨-, hturned⟩ | ⟨hfull, hturned⟩ := turned_cases h hr _ _ _
    · exact hturned ▸ h.sleep hr hclock
    · exact hturned ▸ h.spend hr hclock hqueue hfull

end

end

theorem Accounts.run (hr : 0 < r) (hrun : Run Step w events w') (h : Accounts r w) :
    Accounts r w' :=
  hrun.invariant (fun _ _ _ h hstep => h.step hr hstep) h

end Invariant

def spent (w : Limiter) : Nat := 2 * w.completed.length + if w.sleeping.isSome then 1 else 0

/-- With a token to hold, a caller that wakes completes. -/
theorem Accounts.spent_turn (h : Accounts r w) (hr : 1 ≤ r) {now : ℚ} (call : Nat)
    (rest : List Nat) (hslept : ∀ wake ∈ w.sleeping, wake ≤ now) :
    w.spent + 1 ≤ (w.turned now call rest).spent := by
  have hpos : 0 < r := by linarith
  obtain ⟨hempty, hturned⟩ | ⟨-, hturned⟩ := turned_cases h hpos now call rest
  · have hawake : w.sleeping = none := by
      cases hsleeping : w.sleeping with
      | none => rfl
      | some wake =>
        have henough := (h.asleep wake hsleeping).2
        have hlate := hslept wake hsleeping
        have hgain : (wake - w.bucket.lastRefill) * (r / 60000) ≤
            (now - w.bucket.lastRefill) * (r / 60000) :=
          mul_le_mul_of_nonneg_right (by linarith) (by positivity)
        have hfull : 1 ≤ (w.bucket.refill now).tokens := by
          refine le_min (h.capacity ▸ hr) ?_
          rw [h.rate]
          linarith
        linarith
    rw [hturned]
    simp [spent, hawake]
  · rw [hturned]
    simp only [spent, length_append, length_singleton, Option.isSome_none]
    split <;> omega

theorem Accounts.spent_run (hr : 1 ≤ r) (hrun : Run Step w events w') (h : Accounts r w) :
    w.spent + turns events ≤ w'.spent := by
  have hpos : 0 < r := by linarith
  induction hrun with
  | nil => exact le_rfl
  | cons hstep hrest ih =>
    refine le_trans ?_ (ih (h.step hpos hstep))
    cases hstep with
    | acquire => simp [turns, spent]
    | @turn now call rest hqueue hclock hslept =>
      have hturn := h.spent_turn hr call rest hslept
      simp only [turns, countP_cons, if_true] at hturn ⊢
      omega

section

variable (h : Accounts r w)
include h

theorem Accounts.not_mem_queue {call : Nat} (hdone : call < w.completed.length) :
    call ∉ w.queue := by
  intro hmem
  have hnodup : (w.completed.map Prod.fst ++ w.queue).Nodup := h.ordered ▸ nodup_range
  have hat : (w.completed.map Prod.fst)[call]? = some call := by
    have hlength : call < (w.completed.map Prod.fst).length := by rwa [length_map]
    have hfirst : (w.completed.map Prod.fst ++ w.queue)[call]? =
        (w.completed.map Prod.fst)[call]? := getElem?_append_left hlength
    rw [← hfirst, h.ordered, getElem?_range]
    have htotal := congrArg length h.ordered
    rw [length_append, length_range] at htotal
    omega
  exact (nodup_append.1 hnodup).2.2 call (mem_of_getElem? hat) call hmem rfl

theorem Accounts.goesOn (hr : 0 < r) (hqueue : w.queue ≠ []) :
    ∃ now w', now ≤ w.clock + ⌈60000 / r⌉ ∧ Step w (.turn now) w' := by
  obtain ⟨call, rest, hcons⟩ := exists_cons_of_ne_nil hqueue
  have hwait : (0 : ℚ) ≤ ⌈60000 / r⌉ := by
    exact_mod_cast Int.ceil_nonneg (a := 60000 / r) (by positivity)
  cases hsleeping : w.sleeping with
  | none =>
    exact ⟨w.clock, _, by linarith, .turn hcons le_rfl fun wake hwake =>
      nomatch hsleeping.symm.trans hwake⟩
  | some wake =>
    refine ⟨max w.clock wake, _, max_le (by linarith) (h.asleep wake hsleeping).1,
      .turn hcons (le_max_left ..) fun other hother => ?_⟩
    obtain rfl := Option.mem_unique hsleeping hother
    exact le_max_right ..

theorem Accounts.fair (hr : 1 ≤ r) : Fair r w where
  finite call _ := by
    refine ⟨2 * call + 2, fun events w' hrun hturns => ?_⟩
    have hspent := h.spent_run hr hrun
    refine (h.run (by linarith) hrun).not_mem_queue ?_
    unfold spent at hspent
    split at hspent <;> split at hspent <;> omega
  goesOn hqueue := h.goesOn (by linarith) hqueue
  ordered := h.ordered
  tokens := h.tokens
  period a t ht := by
    have hperiod := h.period a (a + t) (by linarith)
    rw [show r * t / 60000 = (a + t - a) * (r / 60000) by ring]
    exact hperiod

/-- A bucket that holds less than a token leaves every caller in the queue. -/
theorem Accounts.starved (hr : 0 < r) (hless : r < 1) (hstep : Step w event w')
    {call : Nat} (hmem : call ∈ w.queue) : call ∈ w'.queue := by
  cases hstep with
  | acquire => exact mem_append_left _ hmem
  | turn hqueue hclock hslept =>
    obtain ⟨-, hturned⟩ | ⟨hfull, -⟩ := turned_cases h hr _ _ _
    · exact hturned ▸ hmem
    · exact absurd (hfull.trans (h.refill_le _)) (not_le.2 hless)

theorem Accounts.starves (hr : 0 < r) (hless : r < 1) {call : Nat}
    (hmem : call ∈ w.queue) (n : Nat) :
    ∃ events w', Run Step w events w' ∧ n ≤ turns events ∧ call ∈ w'.queue := by
  induction n generalizing w with
  | zero => exact ⟨[], w, .nil w, Nat.zero_le _, hmem⟩
  | succ n ih =>
    obtain ⟨now, t, -, hstep⟩ := h.goesOn hr (ne_nil_of_mem hmem)
    obtain ⟨events, w', hrun, hturns, hqueued⟩ := ih (h.step hr hstep) (h.starved hr hless hstep hmem)
    refine ⟨_ :: events, w', .cons hstep hrun, ?_, hqueued⟩
    simp only [turns, countP_cons, if_true] at hturns ⊢
    omega

end

/-- The bucket is fair in every run exactly when it holds a whole token. -/
theorem fair_iff (hr : 0 < r) :
    (∀ now events w, Run Step (start r now) events w → w.Fair r) ↔ 1 ≤ r := by
  constructor
  · intro hfair
    by_contra hless
    have hone : Run Step (start r 0) [.acquire] _ := .cons (.acquire _) (.nil _)
    obtain ⟨n, hn⟩ := (hfair 0 _ _ hone).finite 0 (mem_singleton.2 rfl)
    obtain ⟨events, w', hrun, hturns, hmem⟩ := ((Accounts.start hr 0).run hr hone).starves hr
      (not_le.1 hless) (mem_singleton.2 rfl) n
    exact hn events w' hrun hturns hmem
  · exact fun hone now events w hrun => ((Accounts.start hr now).run hr hrun).fair hone

theorem fair_iff_two : (start 2 0).Fair 2 :=
  (fair_iff (by norm_num)).2 (by norm_num) 0 [] _ (.nil _)

/-- At half a token a minute the first call never completes. -/
theorem half_not_fair : ¬ ∀ now events w, Run Step (start (1 / 2) now) events w → w.Fair (1 / 2) := by
  intro hfair
  have hpos : (0 : ℚ) < 1 / 2 := by norm_num
  have hone : Run Step (start (1 / 2) 0) [.acquire] _ := .cons (.acquire _) (.nil _)
  obtain ⟨n, hn⟩ := (hfair 0 _ _ hone).finite 0 (mem_singleton.2 rfl)
  obtain ⟨events, w', hrun, hturns, hmem⟩ := ((Accounts.start hpos 0).run hpos hone).starves hpos
    (by norm_num) (mem_singleton.2 rfl) n
  exact hn events w' hrun hturns hmem

end Limiter

end Rolebox.Web
