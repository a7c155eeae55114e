import LoopStorm.Lib.Run
import LoopStorm.Lib.Tickets

/-!
# The limits on resending a verification email

`incrementBucket` of `lib/rate-limit-store.ts` and the counters `emailRateLimit`
of `middleware/email-rate-limit.ts` passes a resend request through, one after the
other: per IP and hour, per address and hour, the cooldown, per address and day.

* `incrementBucket` — a counter of a fixed window, which begins at a multiple of
  its length.
* `checks` — the counters a request with a readable address goes through; the
  other requests of the route are none for an address.
* `Limiter`, `step` — requests for one address side by side, each between two
  counters it waits for, by whatever clocks, with a store that may fail.
* `resend_limits` — **what the fixed windows allow**: one request in each window
  of the cooldown, so no three within its length, and as many as the limits say in
  an hour and in a day.
-/

namespace LoopStorm.Backend.RateLimit

open Tickets

/-! ## The store -/

structure RateLimitResult where
  allowed : Bool
  count : ℕ
  retryAfter : ℕ
  deriving DecidableEq

/-- The second the window of a time begins; the clock is in milliseconds. -/
def windowStart (windowSec nowMs : ℕ) : ℕ := nowMs / 1000 - nowMs / 1000 % windowSec

/-- The counts by key and window; without a row a count is zero. -/
abbrev Buckets : Type := String × ℕ → ℕ

/-- How a statement of the store ends. -/
inductive Outcome where
  | returned
  /-- an error, the statement carried out or not -/
  | failed (applied : Bool)
  deriving DecidableEq

/-- Increment the bucket of a key for the current window. -/
def incrementBucket (buckets : Buckets) (outcome : Outcome) (key : String)
    (windowSec limit nowMs : ℕ) : Buckets × RateLimitResult :=
  let slot := (key, windowStart windowSec nowMs)
  let count := buckets slot + 1
  let incremented := Function.update buckets slot count
  match outcome with
  | .returned =>
    (incremented,
      ⟨count ≤ limit, count, max 1 (windowSec - (nowMs / 1000 - windowStart windowSec nowMs))⟩)
  | .failed applied =>
    (if applied then incremented else buckets, ⟨false, limit + 1, windowSec⟩)

/-! ## The middleware -/

/-- The settings, as the environment's schema admits them. -/
structure Limits where
  emailPerHour : ℕ
  resendPerDay : ℕ
  resendCooldownSeconds : ℕ
  hour : 1 ≤ emailPerHour ∧ emailPerHour ≤ 1000
  day : 1 ≤ resendPerDay ∧ resendPerDay ≤ 1000
  cooldown : 1 ≤ resendCooldownSeconds ∧ resendCooldownSeconds ≤ 3600

/-- A counter a request has to pass. -/
structure Check where
  key : String
  windowSec : ℕ
  limit : ℕ
  deriving DecidableEq

section Checks

variable (l : Limits) (emailHash : String)

/-- Per-IP. -/
def perIp (ip : String) : Check := ⟨"email:resend:ip:" ++ ip, 3600, l.emailPerHour⟩

/-- Per-email hourly. -/
def perHour : Check := ⟨"email:resend:addr:" ++ emailHash, 3600, l.emailPerHour⟩

/-- The cooldown. -/
def cooldown : Check := ⟨"email:resend:cooldown:" ++ emailHash, l.resendCooldownSeconds, 1⟩

/-- The daily cap. -/
def perDay : Check := ⟨"email:resend:daily:" ++ emailHash, 86400, l.resendPerDay⟩

/-- The counters of a resend request, in the order it passes them. -/
def checks (ip : String) : List Check :=
  [perIp l ip, perHour l emailHash, cooldown l emailHash, perDay l emailHash]

end Checks

/-- A counter a request was let through, and when it read the clock for it. -/
structure Cleared where
  check : Check
  nowMs : ℕ
  result : RateLimitResult
  deriving DecidableEq

/-- Where a request is. -/
inductive Request where
  | absent
  /-- before its next counter -/
  | checking (ip : String) (cleared : List Cleared)
  /-- answered with 429 -/
  | refused (retryAfter : ℕ)
  /-- handed on -/
  | passed (cleared : List Cleared)
  deriving DecidableEq

/-- The store, and the resend requests for one address. -/
structure Limiter where
  buckets : Buckets
  requests : ℕ → Request

/-- An empty store, and no request. -/
def Limiter.start : Limiter := ⟨fun _ => 0, fun _ => .absent⟩

/-- What may happen. -/
inductive Event where
  /-- a request comes in -/
  | arrive (r : ℕ) (ip : String)
  /-- a request increments its next counter -/
  | check (r nowMs : ℕ) (outcome : Outcome)
  /-- a request of another kind, or for another address, increments a counter -/
  | other (key : String) (windowSec nowMs : ℕ)

/-- The request after a counter: refused, at the next one, or through. -/
def Request.after (ip : String) (cleared : List Cleared) (rest : List Check)
    (next : Cleared) : Request :=
  if next.result.allowed then
    match rest with
    | [] => .passed (cleared ++ [next])
    | _ :: _ => .checking ip (cleared ++ [next])
  else .refused next.result.retryAfter

theorem Request.after_refused {next : Cleared} (h : next.result.allowed = false) (ip : String)
    (cleared : List Cleared) (rest : List Check) :
    Request.after ip cleared rest next = .refused next.result.retryAfter := by
  unfold Request.after
  rw [if_neg (by rw [h]; exact Bool.false_ne_true)]

theorem Request.after_last {next : Cleared} (h : next.result.allowed = true) (ip : String)
    (cleared : List Cleared) :
    Request.after ip cleared [] next = .passed (cleared ++ [next]) := if_pos h

theorem Request.after_next {next : Cleared} (h : next.result.allowed = true) (ip : String)
    (cleared : List Cleared) (c : Check) (rest : List Check) :
    Request.after ip cleared (c :: rest) next = .checking ip (cleared ++ [next]) := if_pos h

/-- One event; `none` when it cannot happen. -/
def step (l : Limits) (emailHash : String) (s : Limiter) : Event → Option Limiter
  | .arrive r ip =>
    match s.requests r with
    | .absent => some { s with requests := Function.update s.requests r (.checking ip []) }
    | _ => none
  | .check r nowMs outcome =>
    match s.requests r with
    | .checking ip cleared =>
      match (checks l emailHash ip).drop cleared.length with
      | [] => none
      | c :: rest =>
        let (buckets, result) :=
          incrementBucket s.buckets outcome c.key c.windowSec c.limit nowMs
        some ⟨buckets,
          Function.update s.requests r (.after ip cleared rest ⟨c, nowMs, result⟩)⟩
    | _ => none
  | .other key windowSec nowMs =>
    some { s with buckets := (incrementBucket s.buckets .returned key windowSec 0 nowMs).1 }

/-! ## Windows -/

theorem windowStart_eq (windowSec nowMs : ℕ) :
    windowStart windowSec nowMs = windowSec * (nowMs / 1000 / windowSec) := by
  have hdiv := Nat.div_add_mod (nowMs / 1000) windowSec
  unfold windowStart
  omega

/-- Three times in three windows span more than one window's length. -/
theorem lt_of_three_windows {windowSec t₁ t₂ t₃ : ℕ} (hpos : 0 < windowSec) (h₁₂ : t₁ ≤ t₂)
    (h₂₃ : t₂ ≤ t₃) (hne₁₂ : windowStart windowSec t₁ ≠ windowStart windowSec t₂)
    (hne₂₃ : windowStart windowSec t₂ ≠ windowStart windowSec t₃) :
    t₁ + windowSec * 1000 < t₃ := by
  rw [windowStart_eq, windowStart_eq] at hne₁₂ hne₂₃
  have hle₁₂ : t₁ / 1000 / windowSec ≤ t₂ / 1000 / windowSec :=
    Nat.div_le_div_right (Nat.div_le_div_right h₁₂)
  have hle₂₃ : t₂ / 1000 / windowSec ≤ t₃ / 1000 / windowSec :=
    Nat.div_le_div_right (Nat.div_le_div_right h₂₃)
  have hlt₁₂ := lt_of_le_of_ne hle₁₂ fun heq => hne₁₂ (congrArg (windowSec * ·) heq)
  have hlt₂₃ := lt_of_le_of_ne hle₂₃ fun heq => hne₂₃ (congrArg (windowSec * ·) heq)
  have hlast : windowSec * (t₁ / 1000 / windowSec + 2) ≤ t₃ / 1000 :=
    (Nat.mul_le_mul_left _ (by omega)).trans (Nat.mul_div_le _ _)
  have hfirst : t₁ / 1000 < windowSec * (t₁ / 1000 / windowSec + 1) :=
    Nat.lt_mul_div_succ _ hpos
  rw [Nat.mul_add] at hlast hfirst
  omega

/-! ## Tickets -/

/-- The counters a request has been let through. -/
def Request.cleared : Request → List Cleared
  | .checking _ cleared => cleared
  | .passed cleared => cleared
  | .absent => []
  | .refused _ => []

/-- The bucket and the count of a counter a request was let through. -/
def Cleared.ticket (c : Cleared) : Ticket (String × ℕ) :=
  ⟨(c.check.key, windowStart c.check.windowSec c.nowMs), c.result.count⟩

/-- What holds at any time. -/
structure Inv (l : Limits) (emailHash : String) (s : Limiter) : Prop where
  fair : Fair s.buckets fun r => (s.requests r).cleared.map Cleared.ticket
  limits : ∀ r, ∀ c ∈ (s.requests r).cleared, c.result.count ≤ c.check.limit
  checking : ∀ r ip cleared, s.requests r = .checking ip cleared →
    cleared.map Cleared.check = (checks l emailHash ip).take cleared.length
  passed : ∀ r cleared, s.requests r = .passed cleared →
    ∃ ip, cleared.map Cleared.check = checks l emailHash ip

theorem Inv.start (l : Limits) (emailHash : String) : Inv l emailHash .start where
  fair := Fair.none _
  limits _ _ hc := absurd hc List.not_mem_nil
  checking _ _ _ h := by cases h
  passed _ _ h := by cases h

theorem incrementBucket_cases (buckets : Buckets) (outcome : Outcome) (key : String)
    (windowSec limit nowMs : ℕ) :
    let slot := (key, windowStart windowSec nowMs)
    let r := incrementBucket buckets outcome key windowSec limit nowMs
    (r.2.allowed = true ∧ r.1 = Function.update buckets slot (buckets slot + 1) ∧
      r.2.count = buckets slot + 1 ∧ r.2.count ≤ limit) ∨
    (r.2.allowed = false ∧ ∀ k, buckets k ≤ r.1 k) := by
  have hgrow : ∀ slot k, buckets k ≤ Function.update buckets slot (buckets slot + 1) k := by
    intro slot k
    by_cases hk : k = slot
    · rw [hk, Function.update_self]
      exact Nat.le_succ _
    · rw [Function.update_of_ne hk]
  cases outcome with
  | returned =>
    by_cases hle : buckets (key, windowStart windowSec nowMs) + 1 ≤ limit
    · exact Or.inl ⟨decide_eq_true hle, rfl, rfl, hle⟩
    · exact Or.inr ⟨decide_eq_false hle, hgrow _⟩
  | failed applied =>
    refine Or.inr ⟨rfl, fun k => ?_⟩
    cases applied with
    | true => exact hgrow _ k
    | false => exact le_refl _

section Step

variable {l : Limits} {emailHash : String} {s s' : Limiter}

/-- Requests that hold no more than before, and counters that grow. -/
theorem Inv.fair_mono (h : Inv l emailHash s)
    (hbuckets : ∀ k, s.buckets k ≤ s'.buckets k)
    (hcleared : ∀ r, (s'.requests r).cleared ⊆ (s.requests r).cleared) :
    Fair s'.buckets fun r => (s'.requests r).cleared.map Cleared.ticket :=
  h.fair.mono hbuckets fun r => List.map_subset _ (hcleared r)

/-- A request is turned away. -/
theorem Inv.refuse (h : Inv l emailHash s) (r : ℕ) (retryAfter : ℕ) {buckets : Buckets}
    (hbuckets : ∀ k, s.buckets k ≤ buckets k) :
    Inv l emailHash ⟨buckets, Function.update s.requests r (.refused retryAfter)⟩ := by
  have hother : ∀ q, q ≠ r → Function.update s.requests r (.refused retryAfter) q =
      s.requests q := fun q hq => Function.update_of_ne hq _ _
  have hself : Function.update s.requests r (.refused retryAfter) r = .refused retryAfter :=
    Function.update_self _ _ _
  have hcleared : ∀ q, (Function.update s.requests r (.refused retryAfter) q).cleared ⊆
      (s.requests q).cleared := by
    intro q
    by_cases hq : q = r
    · rw [hq, hself]
      exact List.nil_subset _
    · rw [hother q hq]
      exact List.Subset.refl _
  constructor
  case fair => exact h.fair_mono hbuckets hcleared
  case limits => exact fun q c hc => h.limits q c (hcleared q hc)
  case checking =>
    intro q ip cleared hrequest
    by_cases hq : q = r
    · rw [hq] at hrequest
      cases hself.symm.trans hrequest
    · exact h.checking q ip cleared ((hother q hq).symm.trans hrequest)
  case passed =>
    intro q cleared hrequest
    by_cases hq : q = r
    · rw [hq] at hrequest
      cases hself.symm.trans hrequest
    · exact h.passed q cleared ((hother q hq).symm.trans hrequest)

/-- A request is let through one more counter. -/
theorem Inv.clear (h : Inv l emailHash s) {r nowMs : ℕ} {ip : String} {cleared : List Cleared}
    {c : Check} {rest : List Check} {result : RateLimitResult}
    (hrequest : s.requests r = .checking ip cleared)
    (hnext : (checks l emailHash ip).drop cleared.length = c :: rest)
    (hallowed : result.allowed = true)
    (hcount : result.count = s.buckets (c.key, windowStart c.windowSec nowMs) + 1)
    (hlimit : result.count ≤ c.limit) :
    Inv l emailHash
      ⟨Function.update s.buckets (c.key, windowStart c.windowSec nowMs)
          (s.buckets (c.key, windowStart c.windowSec nowMs) + 1),
        Function.update s.requests r (.after ip cleared rest ⟨c, nowMs, result⟩)⟩ := by
  set next : Cleared := ⟨c, nowMs, result⟩ with hnextdef
  have hchecks : (cleared ++ [next]).map Cleared.check ++ rest = checks l emailHash ip := by
    have hsplit := List.take_append_drop cleared.length (checks l emailHash ip)
    rw [hnext, ← h.checking r ip cleared hrequest] at hsplit
    rw [List.map_append, List.append_assoc]
    exact hsplit
  have hafter : (Request.after ip cleared rest next).cleared = cleared ++ [next] := by
    cases rest with
    | nil => rw [Request.after_last hallowed]; rfl
    | cons d rest => rw [Request.after_next hallowed]; rfl
  have hcleared : ∀ q, (Function.update s.requests r (.after ip cleared rest next) q).cleared =
      if q = r then cleared ++ [next] else (s.requests q).cleared := by
    intro q
    by_cases hq : q = r
    · rw [hq, Function.update_self, if_pos rfl, hafter]
    · rw [Function.update_of_ne hq, if_neg hq]
  constructor
  case fair =>
    refine (h.fair.draw r (c.key, windowStart c.windowSec nowMs)).mono (fun k => le_refl _) ?_
    intro q
    dsimp only
    rw [hcleared]
    by_cases hq : q = r
    · have hticket : next.ticket = ⟨(c.key, windowStart c.windowSec nowMs),
          s.buckets (c.key, windowStart c.windowSec nowMs) + 1⟩ := by
        rw [← hcount]
        rfl
      rw [if_pos hq, hq, Function.update_self, hrequest, List.map_append, List.map_singleton,
        hticket]
      exact List.Subset.refl _
    · rw [if_neg hq, Function.update_of_ne hq]
      exact List.Subset.refl _
  case limits =>
    intro q e he
    rw [hcleared] at he
    by_cases hq : q = r
    · rw [if_pos hq] at he
      rcases List.mem_append.1 he with he | he
      · exact h.limits r e (by rwa [hrequest])
      · rw [List.mem_singleton.1 he]
        exact hlimit
    · rw [if_neg hq] at he
      exact h.limits q e he
  case checking =>
    intro q ip' cleared' hq'
    by_cases hq : q = r
    · rw [hq] at hq'
      dsimp only at hq'
      rw [Function.update_self] at hq'
      cases rest with
      | nil => cases (Request.after_last hallowed ip cleared).symm.trans hq'
      | cons d rest =>
        rw [Request.after_next hallowed] at hq'
        obtain ⟨rfl, rfl⟩ := Request.checking.inj hq'
        rw [← hchecks, List.take_left' (List.length_map _)]
    · dsimp only at hq'
      rw [Function.update_of_ne hq] at hq'
      exact h.checking q ip' cleared' hq'
  case passed =>
    intro q cleared' hq'
    by_cases hq : q = r
    · rw [hq] at hq'
      dsimp only at hq'
      rw [Function.update_self] at hq'
      cases rest with
      | nil =>
        rw [Request.after_last hallowed] at hq'
        obtain rfl := Request.passed.inj hq'
        exact ⟨ip, by rw [← hchecks, List.append_nil]⟩
      | cons d rest => cases (Request.after_next hallowed ip cleared d rest).symm.trans hq'
    · dsimp only at hq'
      rw [Function.update_of_ne hq] at hq'
      exact h.passed q cleared' hq'

/-- **One event** keeps the tickets fair. -/
theorem Inv.step {e : Event} (h : Inv l emailHash s)
    (hstep : RateLimit.step l emailHash s e = some s') : Inv l emailHash s' := by
  cases e with
  | arrive r ip =>
    unfold RateLimit.step at hstep
    dsimp only at hstep
    split at hstep
    case h_1 habsent =>
      obtain rfl := Option.some.inj hstep
      have hcleared : ∀ q, (Function.update s.requests r (.checking ip []) q).cleared ⊆
          (s.requests q).cleared := by
        intro q
        by_cases hq : q = r
        · rw [hq, Function.update_self]
          exact List.nil_subset _
        · rw [Function.update_of_ne hq]
          exact List.Subset.refl _
      constructor
      case fair => exact h.fair_mono (fun k => le_refl _) hcleared
      case limits => exact fun q c hc => h.limits q c (hcleared q hc)
      case checking =>
        intro q ip' cleared hrequest
        dsimp only at hrequest
        by_cases hq : q = r
        · rw [hq, Function.update_self] at hrequest
          obtain ⟨-, rfl⟩ := Request.checking.inj hrequest
          rfl
        · rw [Function.update_of_ne hq] at hrequest
          exact h.checking q ip' cleared hrequest
      case passed =>
        intro q cleared hrequest
        dsimp only at hrequest
        by_cases hq : q = r
        · rw [hq, Function.update_self] at hrequest
          cases hrequest
        · rw [Function.update_of_ne hq] at hrequest
          exact h.passed q cleared hrequest
    case h_2 => cases hstep
  | check r nowMs outcome =>
    unfold RateLimit.step at hstep
    dsimp only at hstep
    split at hstep
    case h_1 ip cleared hrequest =>
      split at hstep
      case h_1 => cases hstep
      case h_2 c rest hnext =>
        obtain rfl := Option.some.inj hstep
        rcases incrementBucket_cases s.buckets outcome c.key c.windowSec c.limit nowMs with
          ⟨hallowed, hbuckets, hcount, hlimit⟩ | ⟨hrefused, hgrow⟩
        · rw [hbuckets]
          exact h.clear hrequest hnext hallowed hcount hlimit
        · rw [Request.after_refused hrefused]
          exact h.refuse r _ hgrow
    case h_2 => cases hstep
  | other key windowSec nowMs =>
    obtain rfl := Option.some.inj hstep
    have hgrow : ∀ k, s.buckets k ≤
        (incrementBucket s.buckets .returned key windowSec 0 nowMs).1 k := by
      rcases incrementBucket_cases s.buckets .returned key windowSec 0 nowMs with
        ⟨-, -, hcount, hlimit⟩ | ⟨-, hgrow⟩
      · omega
      · exact hgrow
    exact ⟨h.fair_mono hgrow fun r => List.Subset.refl _, h.limits, h.checking, h.passed⟩

end Step

/-! ## Whole runs -/

/-- A request that was handed on was let through a counter at a time. -/
def PassedAt (s : Limiter) (r : ℕ) (c : Check) (nowMs : ℕ) : Prop :=
  ∃ cleared, s.requests r = .passed cleared ∧ ∃ e ∈ cleared, e.check = c ∧ e.nowMs = nowMs

/-- A counter lets through no more requests in a window than its limit. -/
theorem Inv.card_le {l : Limits} {emailHash : String} {s : Limiter} (h : Inv l emailHash s)
    (c : Check) (window : ℕ) (S : Finset ℕ)
    (hS : ∀ r ∈ S, ∃ t, PassedAt s r c t ∧ windowStart c.windowSec t = window) :
    S.card ≤ c.limit := by
  refine h.fair.card_le (k := (c.key, window)) fun r hr => ?_
  obtain ⟨t, ⟨cleared, hpassed, e, he, rfl, rfl⟩, rfl⟩ := hS r hr
  have hmem : e ∈ (s.requests r).cleared := by
    rw [hpassed]
    exact he
  exact ⟨e.ticket, List.mem_map.2 ⟨e, hmem, rfl⟩, rfl, h.limits r e hmem⟩

/-- **What the fixed windows allow**, in every run of requests for one address,
side by side with any others, by whatever clocks and with whatever failures of
the store.  The requests that are handed on were let through every counter; no two
in one window of the cooldown, so no three within its length; and as many as the
limits say in the window of an hour and of a day. -/
theorem resend_limits (l : Limits) (emailHash : String) (events : List Event) (s : Limiter)
    (h : Run.exec (step l emailHash) .start events = some s) :
    (∀ r cleared, s.requests r = .passed cleared →
      (∃ t, PassedAt s r (perHour l emailHash) t) ∧ (∃ t, PassedAt s r (cooldown l emailHash) t) ∧
        ∃ t, PassedAt s r (perDay l emailHash) t) ∧
    (∀ r r' t t', r ≠ r' → PassedAt s r (cooldown l emailHash) t →
      PassedAt s r' (cooldown l emailHash) t' →
      windowStart l.resendCooldownSeconds t ≠ windowStart l.resendCooldownSeconds t') ∧
    (∀ r₁ r₂ r₃ t₁ t₂ t₃, r₁ ≠ r₂ → r₂ ≠ r₃ → PassedAt s r₁ (cooldown l emailHash) t₁ →
      PassedAt s r₂ (cooldown l emailHash) t₂ → PassedAt s r₃ (cooldown l emailHash) t₃ →
      t₁ ≤ t₂ → t₂ ≤ t₃ → t₁ + l.resendCooldownSeconds * 1000 < t₃) ∧
    (∀ window (S : Finset ℕ), (∀ r ∈ S, ∃ t, PassedAt s r (perHour l emailHash) t ∧
      windowStart 3600 t = window) → S.card ≤ l.emailPerHour) ∧
    ∀ window (S : Finset ℕ), (∀ r ∈ S, ∃ t, PassedAt s r (perDay l emailHash) t ∧
      windowStart 86400 t = window) → S.card ≤ l.resendPerDay := by
  have hinv : Inv l emailHash s :=
    Run.exec_invariant _ (C := fun _ _ => True) (fun _ _ _ hi _ hstep => hi.step hstep)
      (Inv.start l emailHash) (Run.AllEvents.of_mem _ (fun _ _ _ => trivial) _) h
  have hwindows : ∀ r r' t t', r ≠ r' → PassedAt s r (cooldown l emailHash) t →
      PassedAt s r' (cooldown l emailHash) t' →
      windowStart l.resendCooldownSeconds t ≠ windowStart l.resendCooldownSeconds t' := by
    intro r r' t t' hne ht ht' heq
    have hcard := hinv.card_le (cooldown l emailHash)
      (windowStart l.resendCooldownSeconds t) {r, r'} (by
        intro q hq
        rcases Finset.mem_insert.1 hq with rfl | hq
        · exact ⟨t, ht, rfl⟩
        · rw [Finset.mem_singleton.1 hq]
          exact ⟨t', ht', heq.symm⟩)
    rw [Finset.card_pair hne] at hcard
    exact absurd hcard (Nat.not_succ_le_self 1)
  refine ⟨?_, hwindows, ?_, fun w S => hinv.card_le (perHour l emailHash) w S,
    fun w S => hinv.card_le (perDay l emailHash) w S⟩
  · intro r cleared hpassed
    obtain ⟨ip, hchecks⟩ := hinv.passed r cleared hpassed
    have hat : ∀ c ∈ checks l emailHash ip, ∃ t, PassedAt s r c t := by
      intro c hc
      rw [← hchecks] at hc
      obtain ⟨e, he, rfl⟩ := List.mem_map.1 hc
      exact ⟨e.nowMs, cleared, hpassed, e, he, rfl, rfl⟩
    exact ⟨hat _ (by simp [checks]), hat _ (by simp [checks]), hat _ (by simp [checks])⟩
  · intro r₁ r₂ r₃ t₁ t₂ t₃ h₁₂ h₂₃ hp₁ hp₂ hp₃ hle₁₂ hle₂₃
    exact lt_of_three_windows l.cooldown.1 hle₁₂ hle₂₃ (hwindows r₁ r₂ t₁ t₂ h₁₂ hp₁ hp₂)
      (hwindows r₂ r₃ t₂ t₃ h₂₃ hp₂ hp₃)

namespace Sample

/-- The settings as they are by default. -/
def defaults : Limits := ⟨5, 5, 60, by decide, by decide, by decide⟩

/-- A request that is let through all counters at one time. -/
def resend (r nowMs : ℕ) : List Event :=
  .arrive r "192.0.2.1" :: List.replicate 4 (.check r nowMs .returned)

/-- One request at the end of a minute, one at the beginning of the next. -/
def twoResends : List Event := resend 0 59999 ++ resend 1 60000

/-- The counters a request is let through before the first minute is over, or the first
hour, with its number. -/
def clearedAt (number nowMs : ℕ) : List Cleared :=
  [⟨perIp defaults "192.0.2.1", nowMs, ⟨true, number, 3600 - nowMs / 1000⟩⟩,
    ⟨perHour defaults "ada", nowMs, ⟨true, number, 3600 - nowMs / 1000⟩⟩,
    ⟨cooldown defaults "ada", nowMs, ⟨true, 1, 60 - nowMs / 1000 % 60⟩⟩,
    ⟨perDay defaults "ada", nowMs, ⟨true, number, 86400 - nowMs / 1000⟩⟩]

theorem exec_twoResends :
    ∃ s, Run.exec (step defaults "ada") .start twoResends = some s ∧
      s.requests 0 = .passed (clearedAt 1 59999) ∧ s.requests 1 = .passed (clearedAt 2 60000) := by
  have hrun : (Run.exec (step defaults "ada") .start twoResends).map
      (fun s => (s.requests 0, s.requests 1)) =
      some (.passed (clearedAt 1 59999), .passed (clearedAt 2 60000)) := by
    decide +kernel
  obtain ⟨s, hexec, hrequests⟩ := Option.map_eq_some_iff.1 hrun
  exact ⟨s, hexec, Prod.mk.inj hrequests⟩

/-- A request the sample hands on was let through the cooldown. -/
theorem passedAt_of_clearedAt {s : Limiter} {r number nowMs : ℕ}
    (h : s.requests r = .passed (clearedAt number nowMs)) :
    PassedAt s r (cooldown defaults "ada") nowMs :=
  ⟨_, h, ⟨cooldown defaults "ada", nowMs, ⟨true, 1, 60 - nowMs / 1000 % 60⟩⟩,
    by simp [clearedAt], rfl, rfl⟩

/-- The two are in two windows, and the first was let through the cap of the day. -/
theorem resend_limits_twoResends :
    ∃ s, Run.exec (step defaults "ada") .start twoResends = some s ∧
      (∃ t, PassedAt s 0 (perDay defaults "ada") t) ∧
      windowStart 60 59999 ≠ windowStart 60 60000 := by
  obtain ⟨s, hexec, hfirst, hsecond⟩ := exec_twoResends
  obtain ⟨hthrough, hwindows, -⟩ := resend_limits defaults "ada" twoResends s hexec
  exact ⟨s, hexec, (hthrough 0 _ hfirst).2.2, hwindows 0 1 59999 60000 (by decide)
    (passedAt_of_clearedAt hfirst) (passedAt_of_clearedAt hsecond)⟩

/-- **A window ends** between two requests: they are handed on a millisecond apart, with a
cooldown of a minute. -/
theorem not_apart_twoResends :
    ∃ s, Run.exec (step defaults "ada") .start twoResends = some s ∧
      PassedAt s 0 (cooldown defaults "ada") 59999 ∧
      PassedAt s 1 (cooldown defaults "ada") 60000 ∧
      ¬ 59999 + defaults.resendCooldownSeconds * 1000 ≤ 60000 := by
  obtain ⟨s, hexec, hfirst, hsecond⟩ := exec_twoResends
  exact ⟨s, hexec, passedAt_of_clearedAt hfirst, passedAt_of_clearedAt hsecond, by decide⟩

end Sample

end LoopStorm.Backend.RateLimit
