import Mathlib.Tactic.Linarith
import Rolebox.General.Transition

/-! The throttle of notifications remembers what was allowed since a cutoff. -/

namespace Rolebox.Notifications
open General List Function

section Throttle

abbrev Text := List Char

structure ThrottleOverride where
  windowMs : Option ℚ
  maxPerWindow : Option ℚ

structure ThrottleConfig where
  windowMs : ℚ
  maxPerWindow : ℚ
  perEventType : List (Text × ThrottleOverride)

namespace ThrottleConfig
variable (config : ThrottleConfig) (eventType : Text)

def perEvent : Option ThrottleOverride :=
  (config.perEventType.find? (·.1 = eventType)).map Prod.snd

def effectiveWindowMs : ℚ := (config.perEvent eventType).bind (·.windowMs) |>.getD config.windowMs

def effectiveMaxPerWindow : ℚ :=
  (config.perEvent eventType).bind (·.maxPerWindow) |>.getD
    (if config.maxPerWindow ≤ 0 then 1 else config.maxPerWindow)

def computeMaxWindowMs : ℚ :=
  config.perEventType.foldl (fun longest entry => entry.2.windowMs.elim longest fun windowMs =>
    if windowMs ≠ 0 ∧ windowMs > longest then windowMs else longest) config.windowMs

end ThrottleConfig

/-- The timestamps by key; a key that is not there has none. -/
abbrev Timestamps := Text → List ℚ

def keyOf (sessionID eventType : Text) : Text := sessionID ++ ':' :: eventType

def pruneByWindow (windowMs now : ℚ) (timestamps : Timestamps) : Timestamps :=
  fun key => (timestamps key).filter fun t => now - windowMs ≤ t

def removeSession (sessionID : Text) (timestamps : Timestamps) : Timestamps :=
  fun key => if (sessionID ++ [':']) <+: key then [] else timestamps key

def allow (config : ThrottleConfig) (now : ℚ) (sessionID eventType : Text)
    (timestamps : Timestamps) : Bool × Timestamps :=
  if config.windowMs ≤ 0 then (true, timestamps)
  else
    let timestamps := pruneByWindow config.windowMs now timestamps
    let key := keyOf sessionID eventType
    let currentStamps := timestamps key
    let recentStamps := currentStamps.filter fun t => now - config.effectiveWindowMs eventType ≤ t
    if config.effectiveMaxPerWindow eventType ≤ recentStamps.length then (false, timestamps)
    else if ∃ last ∈ currentStamps.getLast?, now - last < 1000 then (false, timestamps)
    else (true, update timestamps key (currentStamps ++ [now]))

inductive ThrottleCall where
  | allow (now : ℚ) (sessionID eventType : Text)
  | prune (now : ℚ)
  | periodicPrune (now : ℚ)
  | removeSession (sessionID : Text)

structure NotificationThrottle where
  timestamps : Timestamps
  clock : ℚ
  history : List (ThrottleCall × Bool)

variable (config : ThrottleConfig)

def perform (timestamps : Timestamps) : ThrottleCall → Bool × Timestamps
  | .allow now sessionID eventType => allow config now sessionID eventType timestamps
  | .prune now =>
    (true, if config.windowMs ≤ 0 then timestamps else pruneByWindow config.windowMs now timestamps)
  | .periodicPrune now => (true, pruneByWindow config.computeMaxWindowMs now timestamps)
  | .removeSession sessionID => (true, removeSession sessionID timestamps)

def ThrottleCall.time? : ThrottleCall → Option ℚ
  | allow now _ _ | prune now | periodicPrune now => some now
  | removeSession _ => none

def ThrottleCall.Within (asked : Text → Text → Prop) (removed : Text → Prop) : ThrottleCall → Prop
  | allow _ sessionID eventType => asked sessionID eventType
  | removeSession sessionID => removed sessionID
  | _ => True

/-- A call at a time that is not before the clock, about what is asked about or removed. -/
inductive Throttles (asked : Text → Text → Prop) (removed : Text → Prop) :
    NotificationThrottle → ThrottleCall → NotificationThrottle → Prop where
  | call {w : NotificationThrottle} {call : ThrottleCall}
      (hclock : ∀ now ∈ call.time?, w.clock ≤ now) (hwithin : call.Within asked removed) :
      Throttles asked removed w call
        { timestamps := (perform config w.timestamps call).2
          clock := call.time?.getD w.clock
          history := w.history ++ [(call, (perform config w.timestamps call).1)] }

/-- No two pairs asked about share a key, and a removed session's keys are told by its prefix. -/
structure Separate (asked : Text → Text → Prop) (removed : Text → Prop) : Prop where
  keys : ∀ sessionID eventType session type, asked sessionID eventType → asked session type →
    keyOf sessionID eventType = keyOf session type → sessionID = session ∧ eventType = type
  prefixed : ∀ sessionID session type, removed sessionID → asked session type →
    (sessionID ++ [':']) <+: keyOf session type → sessionID = session

def allowedSince (sessionID eventType : Text) (history : List (ThrottleCall × Bool)) : List ℚ :=
  history.foldl (fun allowed event =>
    match event with
    | (.allow now session type, true) =>
      if session = sessionID ∧ type = eventType then allowed ++ [now] else allowed
    | (.removeSession session, _) => if session = sessionID then [] else allowed
    | _ => allowed) []

def countIn (a b : ℚ) (allowed : List ℚ) : Nat := allowed.countP fun t => a ≤ t ∧ t ≤ b

def Limited (config : ThrottleConfig) (now : ℚ) (eventType : Text) (allowed : List ℚ) : Prop :=
  config.effectiveMaxPerWindow eventType ≤
      countIn (now - config.effectiveWindowMs eventType) now allowed ∨
    ∃ t ∈ allowed, now - t < 1000

/-- Since a session was removed its allowed calls keep both limits: the number where the window is
no longer than that of all events and the maximum whole, and the interval where that is a second. -/
structure Throttled (config : ThrottleConfig) (asked : Text → Text → Prop)
    (history : List (ThrottleCall × Bool)) : Prop where
  limit : ∀ sessionID eventType a b, ∀ n : ℤ, asked sessionID eventType →
    config.effectiveWindowMs eventType ≤ config.windowMs →
    config.effectiveMaxPerWindow eventType = n → b - a < config.effectiveWindowMs eventType →
    (countIn a b (allowedSince sessionID eventType history) : ℤ) ≤ max 0 n
  apart : 1000 ≤ config.windowMs → ∀ sessionID eventType, asked sessionID eventType →
    (allowedSince sessionID eventType history).Pairwise fun a b => a + 1000 ≤ b
  refusals : ∀ before now sessionID eventType, asked sessionID eventType →
    before ++ [(.allow now sessionID eventType, false)] <+: history →
    Limited config now eventType (allowedSince sessionID eventType before)

end Throttle

section Keys
variable {sessionID session eventType type : Text}

theorem keyOf_inj (h : ':' ∉ sessionID) (h' : ':' ∉ session)
    (hkey : keyOf sessionID eventType = keyOf session type) :
    sessionID = session ∧ eventType = type := by
  have hsession : ∀ {s e : Text}, ':' ∉ s → (keyOf s e).takeWhile (· ≠ ':') = s := by
    intro s e hs
    rw [keyOf, takeWhile_append_of_pos fun c hc => by
      simpa using fun heq : c = ':' => hs (heq ▸ hc)]
    simp
  have hsame : sessionID = session := by
    rw [← hsession (e := eventType) h, hkey, hsession h']
  subst hsame
  exact ⟨rfl, by simpa [keyOf] using hkey⟩

/-- Session ids without a colon never clash. -/
theorem separate_of_plain {asked : Text → Text → Prop} {removed : Text → Prop}
    (hasked : ∀ sessionID eventType, asked sessionID eventType → ':' ∉ sessionID)
    (hremoved : ∀ sessionID, removed sessionID → ':' ∉ sessionID) : Separate asked removed where
  keys sessionID eventType session type h h' :=
    keyOf_inj (hasked sessionID eventType h) (hasked session type h')
  prefixed := by
    rintro sessionID session type h h' ⟨rest, hrest⟩
    rw [append_assoc] at hrest
    exact (@keyOf_inj sessionID session rest type (hremoved _ h) (hasked _ _ h') hrest).1

variable {asked : Text → Text → Prop} {removed : Text → Prop}

/-- Removing a session forgets its entries and no others. -/
theorem removeSession_keyOf (hseparate : Separate asked removed) (h : removed sessionID)
    (h' : asked session type) (timestamps : Timestamps) :
    removeSession sessionID timestamps (keyOf session type) =
      if sessionID = session then [] else timestamps (keyOf session type) := by
  have hprefixed : (sessionID ++ [':']) <+: keyOf session type ↔ sessionID = session := by
    refine ⟨hseparate.prefixed sessionID session type h h', ?_⟩
    rintro rfl
    exact ⟨type, by simp [keyOf]⟩
  unfold removeSession
  simp only [hprefixed]

end Keys

section Invariant
variable {config : ThrottleConfig} {w w' : NotificationThrottle} {call : ThrottleCall}
  {asked : Text → Text → Prop} {removed : Text → Prop}

theorem windowMs_le_computeMaxWindowMs : config.windowMs ≤ config.computeMaxWindowMs := by
  unfold ThrottleConfig.computeMaxWindowMs
  generalize config.windowMs = longest
  induction config.perEventType generalizing longest with
  | nil => exact le_rfl
  | cons entry entries ih =>
    refine le_trans ?_ (ih _)
    show longest ≤ entry.2.windowMs.elim longest fun windowMs =>
      if windowMs ≠ 0 ∧ windowMs > longest then windowMs else longest
    cases entry.2.windowMs with
    | none => exact le_rfl
    | some windowMs =>
      dsimp only [Option.elim_some]
      split
      · next hlonger => exact hlonger.2.le
      · exact le_rfl

theorem allowedSince_concat (sessionID eventType : Text) (history : List (ThrottleCall × Bool))
    (event : ThrottleCall × Bool) :
    allowedSince sessionID eventType (history ++ [event]) = match event with
      | (.allow now session type, true) =>
        if session = sessionID ∧ type = eventType then
          allowedSince sessionID eventType history ++ [now]
        else allowedSince sessionID eventType history
      | (.removeSession session, _) =>
        if session = sessionID then [] else allowedSince sessionID eventType history
      | _ => allowedSince sessionID eventType history := by
  rw [allowedSince, foldl_append]
  rfl

def Remembers (asked : Text → Text → Prop) (timestamps : Timestamps) (cutoff : ℚ)
    (history : List (ThrottleCall × Bool)) : Prop :=
  ∀ sessionID eventType, asked sessionID eventType → timestamps (keyOf sessionID eventType) =
    (allowedSince sessionID eventType history).filter fun t => cutoff ≤ t

structure ThrottleInv (config : ThrottleConfig) (asked : Text → Text → Prop)
    (w : NotificationThrottle) : Prop where
  remembers : ∃ cutoff, cutoff ≤ w.clock - config.windowMs ∧
    Remembers asked w.timestamps cutoff w.history
  past : ∀ sessionID eventType, ∀ t ∈ allowedSince sessionID eventType w.history, t ≤ w.clock
  sorted : ∀ sessionID eventType, (allowedSince sessionID eventType w.history).Pairwise (· ≤ ·)
  throttled : Throttled config asked w.history

theorem Remembers.prune {timestamps : Timestamps} {cutoff : ℚ}
    {history : List (ThrottleCall × Bool)} (h : Remembers asked timestamps cutoff history)
    (windowMs now : ℚ) :
    Remembers asked (pruneByWindow windowMs now timestamps) (max cutoff (now - windowMs))
      history := by
  intro sessionID eventType hasked
  rw [pruneByWindow, h sessionID eventType hasked, filter_filter]
  refine filter_congr fun t _ => ?_
  rw [Bool.and_comm, ← Bool.decide_and]
  exact decide_eq_decide.2 max_le_iff.symm

/-- The last of the sorted stamps that were kept speaks for all of them. -/
theorem spaced_of_last {allowed : List ℚ} {now windowMs : ℚ} (hsorted : allowed.Pairwise (· ≤ ·))
    (hlast : ∀ last ∈ (allowed.filter fun t => now - windowMs ≤ t).getLast?, 1000 ≤ now - last)
    (htop : 1000 ≤ windowMs) : ∀ t ∈ allowed, t + 1000 ≤ now := by
  intro t ht
  by_cases hin : now - windowMs ≤ t
  · have hmem : t ∈ allowed.filter fun t => now - windowMs ≤ t :=
      mem_filter.2 ⟨ht, decide_eq_true hin⟩
    obtain ⟨init, last, hinit⟩ := (eq_nil_or_concat _).resolve_left (ne_nil_of_mem hmem)
    have hkept := hsorted.filter fun t => decide (now - windowMs ≤ t)
    rw [hinit, concat_eq_append] at hmem hkept hlast
    have hone := hlast last (by rw [getLast?_concat]; rfl)
    rcases mem_append.1 hmem with hbefore | hsame
    · have hle := (pairwise_append.1 hkept).2.2 t hbefore last (mem_singleton_self _)
      linarith
    · rw [mem_singleton.1 hsame]
      linarith
  · linarith [not_le.1 hin]

/-- What the throttle remembers decides for the allowed calls since the session was removed. -/
theorem allow_spec (hpositive : 0 < config.windowMs) {sessionID eventType : Text}
    {timestamps : Timestamps} {cutoff now : ℚ} {allowed : List ℚ}
    (hstamps : timestamps (keyOf sessionID eventType) = allowed.filter fun t => cutoff ≤ t)
    (hcutoff : cutoff ≤ now - config.windowMs) (hpast : ∀ t ∈ allowed, t ≤ now)
    (hsorted : allowed.Pairwise (· ≤ ·)) :
    (allow config now sessionID eventType timestamps =
        (false, pruneByWindow config.windowMs now timestamps) ∧
      Limited config now eventType allowed) ∨
    ((∃ stamps, allow config now sessionID eventType timestamps = (true, update
        (pruneByWindow config.windowMs now timestamps) (keyOf sessionID eventType) stamps) ∧
        stamps = (allowed ++ [now]).filter fun t => now - config.windowMs ≤ t) ∧
      (config.effectiveWindowMs eventType ≤ config.windowMs →
        (countIn (now - config.effectiveWindowMs eventType) now allowed : ℚ) <
          config.effectiveMaxPerWindow eventType) ∧
      (1000 ≤ config.windowMs → ∀ t ∈ allowed, t + 1000 ≤ now)) := by
  have hcurrent : pruneByWindow config.windowMs now timestamps (keyOf sessionID eventType) =
      allowed.filter fun t => now - config.windowMs ≤ t := by
    rw [pruneByWindow, hstamps, filter_filter]
    refine filter_congr fun t _ => ?_
    rw [← Bool.decide_and]
    exact decide_eq_decide.2 ⟨fun h => h.1, fun h => ⟨h, hcutoff.trans h⟩⟩
  -- the stamps that count are the allowed calls of the window that were not pruned
  have hrecent : ((allowed.filter fun t => now - config.windowMs ≤ t).filter fun t =>
      now - config.effectiveWindowMs eventType ≤ t).length ≤
        countIn (now - config.effectiveWindowMs eventType) now allowed := by
    rw [filter_filter, ← countP_eq_length_filter]
    refine countP_mono_left fun t ht hin => ?_
    simp only [Bool.and_eq_true, decide_eq_true_eq] at hin ⊢
    exact ⟨hin.1, hpast t ht⟩
  have hall : config.effectiveWindowMs eventType ≤ config.windowMs →
      countIn (now - config.effectiveWindowMs eventType) now allowed ≤
        ((allowed.filter fun t => now - config.windowMs ≤ t).filter fun t =>
          now - config.effectiveWindowMs eventType ≤ t).length := by
    intro hwindow
    rw [filter_filter, ← countP_eq_length_filter]
    refine countP_mono_left fun t ht hin => ?_
    simp only [Bool.and_eq_true, decide_eq_true_eq] at hin ⊢
    exact ⟨hin.1, by linarith [hin.1]⟩
  unfold allow
  rw [if_neg hpositive.not_ge]
  dsimp only
  rw [hcurrent]
  split
  · next hfull => exact .inl ⟨rfl, .inl (hfull.trans (Nat.cast_le.2 hrecent))⟩
  next hroom =>
  split
  · next hsoon =>
    obtain ⟨last, hmem, hgap⟩ := hsoon
    have hallowed := (mem_filter.1 (mem_of_getLast? hmem)).1
    exact .inl ⟨rfl, .inr ⟨last, hallowed, hgap⟩⟩
  · next hlate =>
    refine .inr ⟨⟨_, rfl, ?_⟩, fun hwindow => ?_, spaced_of_last hsorted fun last hmem => ?_⟩
    · rw [filter_append]
      congr 1
      simp only [filter_cons, filter_nil, decide_eq_true_eq]
      rw [if_pos (by linarith)]
    · exact (Nat.cast_le.2 (hall hwindow)).trans_lt (not_le.1 hroom)
    · by_contra hsoon
      exact hlate ⟨last, hmem, not_le.1 hsoon⟩

/-- The limits are kept when each list stays, is forgotten, or grows by a call within them. -/
theorem Throttled.concat {history : List (ThrottleCall × Bool)} {event : ThrottleCall × Bool}
    (h : Throttled config asked history)
    (hlists : ∀ sessionID eventType,
      allowedSince sessionID eventType (history ++ [event]) =
          allowedSince sessionID eventType history ∨
        allowedSince sessionID eventType (history ++ [event]) = [] ∨
        ∃ now, allowedSince sessionID eventType (history ++ [event]) =
            allowedSince sessionID eventType history ++ [now] ∧
          (∀ t ∈ allowedSince sessionID eventType history, t ≤ now) ∧
          (config.effectiveWindowMs eventType ≤ config.windowMs →
            (countIn (now - config.effectiveWindowMs eventType) now
              (allowedSince sessionID eventType history) : ℚ) <
                config.effectiveMaxPerWindow eventType) ∧
          (1000 ≤ config.windowMs → ∀ t ∈ allowedSince sessionID eventType history, t + 1000 ≤ now))
    (hrefusal : ∀ now sessionID eventType, asked sessionID eventType →
      event = (.allow now sessionID eventType, false) →
      Limited config now eventType (allowedSince sessionID eventType history)) :
    Throttled config asked (history ++ [event]) where
  limit sessionID eventType a b n hasked hwindow hmax hperiod := by
    have hold := h.limit sessionID eventType a b n hasked hwindow hmax hperiod
    obtain hsame | hnone | ⟨now, hgrown, hpast, hroom, -⟩ := hlists sessionID eventType
    · rwa [hsame]
    · rw [hnone]
      exact le_max_left ..
    · rw [hgrown, countIn, countP_append, countP_singleton]
      split
      · next hin =>
        -- a period that holds the new call lies inside its window
        obtain ⟨ha, hb⟩ := of_decide_eq_true hin
        have hless : countIn a b (allowedSince sessionID eventType history) ≤
            countIn (now - config.effectiveWindowMs eventType) now
              (allowedSince sessionID eventType history) := by
          refine countP_mono_left fun t ht htin => ?_
          have htbounds := of_decide_eq_true htin
          exact decide_eq_true ⟨by linarith [htbounds.1], hpast t ht⟩
        have hfew := hroom hwindow
        rw [hmax] at hfew
        have hcount : (countIn (now - config.effectiveWindowMs eventType) now
            (allowedSince sessionID eventType history) : ℤ) < n := by exact_mod_cast hfew
        unfold countIn at hless hcount
        push_cast
        omega
      · exact hold
  apart htop sessionID eventType hasked := by
    have hold := h.apart htop sessionID eventType hasked
    obtain hsame | hnone | ⟨now, hgrown, -, -, hgap⟩ := hlists sessionID eventType
    · rwa [hsame]
    · rw [hnone]
      exact .nil
    · rw [hgrown]
      refine pairwise_append.2 ⟨hold, pairwise_singleton _ _, fun t ht last hlast => ?_⟩
      rw [mem_singleton.1 hlast]
      exact hgap htop t ht
  refusals before now sessionID eventType hasked hbegins := by
    rcases prefix_concat_iff.1 hbegins with hlast | hbefore
    · obtain ⟨rfl, hevent⟩ := append_inj' hlast rfl
      exact hrefusal now sessionID eventType hasked (singleton_inj.1 hevent).symm
    · exact h.refusals before now sessionID eventType hasked hbefore

theorem ThrottleInv.step (hpositive : 0 < config.windowMs) (hseparate : Separate asked removed)
    (h : ThrottleInv config asked w) (hstep : Throttles config asked removed w call w') :
    ThrottleInv config asked w' := by
  obtain ⟨cutoff, hcutoff, hstamps⟩ := h.remembers
  obtain ⟨hclock, hwithin⟩ := hstep
  have hpruned : ∀ {windowMs now : ℚ} {answer : ThrottleCall × Bool}, config.windowMs ≤ windowMs →
      w.clock ≤ now → (∀ s e, allowedSince s e (w.history ++ [answer]) =
        allowedSince s e w.history) → (∀ now s e, asked s e → answer = (.allow now s e, false) →
        Limited config now e (allowedSince s e w.history)) →
      ThrottleInv config asked
        { timestamps := pruneByWindow windowMs now w.timestamps, clock := now
          history := w.history ++ [answer] } := by
    intro windowMs now answer hwindow hnow hsame hrefusal
    refine ⟨⟨max cutoff (now - windowMs), max_le ?_ ?_, ?_⟩, ?_, fun s e => ?_,
      h.throttled.concat (fun s e => .inl (hsame s e)) hrefusal⟩
    · exact hcutoff.trans (sub_le_sub_right hnow _)
    · exact sub_le_sub_left hwindow now
    · exact fun s e hs => (hsame s e).symm ▸ hstamps.prune windowMs now s e hs
    · exact fun s e t ht => (h.past s e t (hsame s e ▸ ht)).trans hnow
    · exact (hsame s e).symm ▸ h.sorted s e
  cases call with
  | prune now =>
    have hnow := hclock now rfl
    simp only [perform, if_neg hpositive.not_ge]
    exact hpruned le_rfl hnow (fun s e => allowedSince_concat s e _ _) nofun
  | periodicPrune now =>
    exact hpruned windowMs_le_computeMaxWindowMs (hclock now rfl)
      (fun s e => allowedSince_concat s e _ _) nofun
  | removeSession sessionID =>
    have hlist : ∀ s e, allowedSince s e (w.history ++ [(.removeSession sessionID,
        (perform config w.timestamps (.removeSession sessionID)).1)]) =
          if sessionID = s then [] else allowedSince s e w.history :=
      fun s e => allowedSince_concat s e _ _
    refine ⟨⟨cutoff, hcutoff, fun s e hs => ?_⟩, fun s e t ht => ?_, fun s e => ?_,
      h.throttled.concat (fun s e => ?_) nofun⟩
    · show removeSession sessionID w.timestamps (keyOf s e) = _
      rw [removeSession_keyOf hseparate hwithin hs, hlist, hstamps s e hs]
      split
      · rfl
      · rfl
    · dsimp only at ht
      rw [hlist] at ht
      split at ht
      · cases ht
      · exact h.past s e t ht
    · dsimp only
      rw [hlist]
      split
      · exact .nil
      · exact h.sorted s e
    · rw [hlist]
      split
      · exact .inr (.inl rfl)
      · exact .inl rfl
  | allow now sessionID eventType =>
    have hnow := hclock now rfl
    have hnear : cutoff ≤ now - config.windowMs := hcutoff.trans (sub_le_sub_right hnow _)
    have hpast : ∀ s e, ∀ t ∈ allowedSince s e w.history, t ≤ now :=
      fun s e t ht => (h.past s e t ht).trans hnow
    obtain ⟨hallow, hreason⟩ | ⟨⟨stamps, hallow, rfl⟩, hroom, hgap⟩ := allow_spec hpositive
      (hstamps sessionID eventType hwithin) hnear (hpast sessionID eventType)
      (h.sorted sessionID eventType)
    · simp only [perform, hallow]
      refine hpruned le_rfl hnow (fun s e => allowedSince_concat s e _ _) fun _ s e _ heq => ?_
      cases heq
      exact hreason
    · simp only [perform, hallow]
      have hlist : ∀ s e,
          allowedSince s e (w.history ++ [(.allow now sessionID eventType, true)]) =
            if sessionID = s ∧ eventType = e then allowedSince s e w.history ++ [now]
            else allowedSince s e w.history :=
        fun s e => allowedSince_concat s e _ _
      refine ⟨⟨now - config.windowMs, le_rfl, fun s e hs => ?_⟩, fun s e t ht => ?_, fun s e => ?_,
        h.throttled.concat (fun s e => ?_) nofun⟩
      · dsimp only
        rw [hlist]
        split
        · next hsame =>
          obtain ⟨rfl, rfl⟩ := hsame
          rw [update_self]
        · next hother =>
          rw [update_of_ne fun heq => hother
              ((hseparate.keys s e _ _ hs hwithin heq).imp .symm .symm),
            hstamps.prune config.windowMs now s e hs, max_eq_right hnear]
      · dsimp only at ht
        rw [hlist] at ht
        split at ht
        · rcases mem_append.1 ht with hold | hnew
          · exact hpast s e t hold
          · exact (mem_singleton.1 hnew).le
        · exact hpast s e t ht
      · dsimp only
        rw [hlist]
        split
        · refine pairwise_append.2 ⟨h.sorted s e, pairwise_singleton _ _, ?_⟩
          intro t ht last hlast
          exact (hpast s e t ht).trans (mem_singleton.1 hlast).ge
        · exact h.sorted s e
      · rw [hlist]
        split
        · next hsame =>
          obtain ⟨rfl, rfl⟩ := hsame
          exact .inr (.inr ⟨now, rfl, hpast sessionID eventType, hroom, hgap⟩)
        · exact .inl rfl

def throttleStart (now : ℚ) : NotificationThrottle where
  timestamps := fun _ => []
  clock := now
  history := []

/-- In every run the calls allowed keep the limits their configuration can promise, a call is refused
only for one of them, and removing a session forgets its entries alone. -/
theorem throttled_of_run (hpositive : 0 < config.windowMs) (hseparate : Separate asked removed)
    {now : ℚ} {calls : List ThrottleCall}
    (hrun : Run (Throttles config asked removed) (throttleStart now) calls w) :
    Throttled config asked w.history ∧ ∀ sessionID session type, removed sessionID →
      asked session type → removeSession sessionID w.timestamps (keyOf session type) =
        if sessionID = session then [] else w.timestamps (keyOf session type) := by
  have hthrottled : Throttled config asked [] :=
    { limit := fun s e a b n _ _ _ _ => le_max_left ..
      apart := fun _ s e _ => List.Pairwise.nil
      refusals := fun before now s e _ hbegins => absurd (prefix_nil.1 hbegins) (by simp) }
  have hstart : ThrottleInv config asked (throttleStart now) :=
    ⟨⟨_, le_rfl, fun s e _ => rfl⟩, fun s e t ht => (not_mem_nil ht).elim,
      fun s e => List.Pairwise.nil, hthrottled⟩
  have hinv := hrun.invariant (fun _ _ _ h hstep => h.step hpositive hseparate hstep) hstart
  exact ⟨hinv.throttled, fun _ _ _ h h' => removeSession_keyOf hseparate h h' _⟩

/-- Three a window of three seconds, but one a minute for one type. -/
def oncePerMinute : ThrottleConfig where
  windowMs := 3000
  maxPerWindow := 3
  perEventType := [(['i'], { windowMs := some 60000, maxPerWindow := some 1 })]

theorem throttled_of_run_removed :
    ∃ w, Run (Throttles oncePerMinute (fun s _ => ':' ∉ s) (':' ∉ ·)) (throttleStart 0)
        [.allow 0 ['s'] ['e'], .allow 500 ['s'] ['e'], .allow 2000 ['s'] ['e'],
          .removeSession ['s'], .allow 2100 ['s'] ['e']] w ∧
      w.history.map Prod.snd = [true, false, true, true, true] ∧
      Throttled oncePerMinute (fun s _ => ':' ∉ s) w.history := by
  have hrun : ∃ w, Run (Throttles oncePerMinute (fun s _ => ':' ∉ s) (':' ∉ ·)) (throttleStart 0)
      [.allow 0 ['s'] ['e'], .allow 500 ['s'] ['e'], .allow 2000 ['s'] ['e'],
        .removeSession ['s'], .allow 2100 ['s'] ['e']] w ∧
      w.history.map Prod.snd = [true, false, true, true, true] := by
    have hplain : ':' ∉ ['s'] := by decide
    refine ⟨_, .cons (.call ?_ hplain) <| .cons (.call ?_ hplain) <| .cons (.call ?_ hplain) <|
      .cons (.call ?_ hplain) <| .cons (.call ?_ hplain) <| .nil _, by decide +kernel⟩
    all_goals rintro _ ⟨rfl⟩
    all_goals norm_num [throttleStart, ThrottleCall.time?]
  obtain ⟨w, hrun, hanswers⟩ := hrun
  refine ⟨w, hrun, hanswers, (throttled_of_run (by norm_num [oncePerMinute]) ?_ hrun).1⟩
  exact separate_of_plain (fun _ _ h => h) fun _ h => h

/-- The stamp of the call allowed first is pruned before its minute is over. -/
theorem allowed_twice_a_minute :
    ∃ w, Run (Throttles oncePerMinute (fun _ _ => True) fun _ => True) (throttleStart 0)
        [.allow 0 ['s'] ['i'], .allow 3001 ['s'] ['i']] w ∧
      (3001 : ℚ) - 0 < oncePerMinute.effectiveWindowMs ['i'] ∧
      ¬ (countIn 0 3001 (allowedSince ['s'] ['i'] w.history) : ℚ) ≤
        oncePerMinute.effectiveMaxPerWindow ['i'] := by
  refine ⟨_, .cons (.call ?_ trivial) <| .cons (.call ?_ trivial) <| .nil _, ?_, ?_⟩
  · rintro _ ⟨rfl⟩
    exact le_rfl
  · rintro _ ⟨rfl⟩
    norm_num [ThrottleCall.time?]
  · decide +kernel
  · decide +kernel

end Invariant

end Rolebox.Notifications
