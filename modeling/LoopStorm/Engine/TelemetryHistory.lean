import LoopStorm.Engine.Telemetry
import Mathlib.Data.List.DropRight

/-!
# Telemetry over the history of a run

The counters of `apps/engine/src/telemetry.rs` against the definitions of
`specs/behavioral-telemetry.md`, which are over all the calls of a run.

* `TelemetryState.computeAll`, `TelemetryState.after` — the calls of a run, one
  after the other.
* `fingerprintOf`, `tokenRateDeltaOf` — the specification, over exact sums.
* `Holds`, `holds_after` — the window is the end of the history; the counters are
  its sums modulo `2 ^ 64`.
* `callSeqFingerprint_computeCall` — the fingerprint is the specified one at
  every call.
* `telemetry_follows` — **so is the delta while the sums fit their counters.**
-/

namespace LoopStorm.Engine

variable {F : Type} [Float64 F]

/-- What `compute` is called with. -/
structure TelemetryCall (F : Type) [Float64 F] where
  tool : String
  argsHash : String
  argsRedacted : Option (Value F) := none
  inputTokens : Option UInt64 := none
  outputTokens : Option UInt64 := none
  now : Nat := 0

namespace TelemetryCall

/-- The pair the window keeps. -/
def pair (call : TelemetryCall F) : String × String := (call.tool, call.argsHash)

/-- `has_token_data`. -/
def hasTokenData (call : TelemetryCall F) : Bool :=
  call.inputTokens.isSome || call.outputTokens.isSome

/-- The tokens of a call; an absent count is zero. -/
def tokens (call : TelemetryCall F) : Nat :=
  (call.inputTokens.getD 0).toNat + (call.outputTokens.getD 0).toNat

end TelemetryCall

/-! ## The calls of a run -/

/-- `compute` at a call. -/
def TelemetryState.computeCall [Sha256] (s : TelemetryState) (call : TelemetryCall F) :
    TelemetryFields F × TelemetryState :=
  s.compute call.tool call.argsHash call.argsRedacted call.inputTokens call.outputTokens call.now

/-- The state after some calls. -/
def TelemetryState.after [Sha256] (s : TelemetryState) (calls : List (TelemetryCall F)) :
    TelemetryState :=
  calls.foldl (fun s call => (s.computeCall call).2) s

/-- The fields of each call of a run. -/
def TelemetryState.computeAll [Sha256] (s : TelemetryState) :
    List (TelemetryCall F) → List (TelemetryFields F)
  | [] => []
  | call :: calls => (s.computeCall call).1 :: (s.computeCall call).2.computeAll calls

theorem TelemetryState.getElem?_computeAll [Sha256] (s : TelemetryState)
    (calls : List (TelemetryCall F)) (n : Nat) :
    (s.computeAll calls)[n]? =
      calls[n]?.map (fun call => ((s.after (calls.take n)).computeCall call).1) := by
  induction calls generalizing s n with
  | nil => rfl
  | cons call calls ih =>
    cases n with
    | zero => rfl
    | succ n => exact ih (s.computeCall call).2 n

/-! ## The specification -/

/-- The sum of the tokens of all calls so far. -/
def tokenSum (history : List (TelemetryCall F)) : Nat :=
  ((history.filter TelemetryCall.hasTokenData).map TelemetryCall.tokens).sum

/-- How many calls so far gave token data. -/
def tokenCount (history : List (TelemetryCall F)) : Nat :=
  history.countP TelemetryCall.hasTokenData

/-- The text that is digested: the last calls, one a line. -/
def windowText (pairs : List (String × String)) : String :=
  "\n".intercalate ((pairs.rtake windowSize).map (fun call => call.1 ++ ":" ++ call.2))

/-- `call_seq_fingerprint` of a call after some others: the digest of the last
`windowSize` pairs, or of all when there are fewer. -/
def fingerprintOf [Sha256] (history : List (TelemetryCall F)) (call : TelemetryCall F) : String :=
  sha256Hex (windowText ((history ++ [call]).map TelemetryCall.pair))

/-- `token_rate_delta` of a call after some others: its tokens over the mean of
the earlier calls with token data. -/
def tokenRateDeltaOf (history : List (TelemetryCall F)) (call : TelemetryCall F) : Option F :=
  if call.hasTokenData = false then none
  else if tokenCount history = 0 then some (Float64.ofNat 1)
  else
    let rollingAvg : F :=
      Float64.div (Float64.ofNat (tokenSum history)) (Float64.ofNat (tokenCount history))
    let delta : F :=
      if Float64.isZero rollingAvg then
        if call.tokens = 0 then Float64.ofNat 1 else Float64.ofNat call.tokens
      else Float64.div (Float64.ofNat call.tokens) rollingAvg
    let million : F := Float64.ofNat 1000000
    some (Float64.div (Float64.round (Float64.mul delta million)) million)

/-- The fields of a call are the specified ones. -/
def FollowsSpec [Sha256] (history : List (TelemetryCall F)) (call : TelemetryCall F)
    (fields : TelemetryFields F) : Prop :=
  fields.callSeqFingerprint = fingerprintOf history call ∧
    fields.tokenRateDelta = tokenRateDeltaOf history call

/-- The sums before a call and its own tokens fit 64 bits. -/
def SumsFit (history : List (TelemetryCall F)) (call : TelemetryCall F) : Prop :=
  tokenSum history < 2 ^ 64 ∧ tokenCount history < 2 ^ 64 ∧ call.tokens < 2 ^ 64

/-! ## What the state keeps -/

@[simp] theorem tokenCount_concat (history : List (TelemetryCall F)) (call : TelemetryCall F) :
    tokenCount (history ++ [call]) =
      tokenCount history + if call.hasTokenData then 1 else 0 := by
  rw [tokenCount, List.countP_append, List.countP_singleton]
  rfl

@[simp] theorem tokenSum_concat (history : List (TelemetryCall F)) (call : TelemetryCall F) :
    tokenSum (history ++ [call]) =
      tokenSum history + if call.hasTokenData then call.tokens else 0 := by
  by_cases h : call.hasTokenData = true
  · simp [tokenSum, List.filter_append, h]
  · simp [tokenSum, List.filter_append, h]

/-- One more call and the window is the end of the longer history. -/
theorem pushWindow_rtake (pairs : List (String × String)) (call : String × String) :
    pushWindow (pairs.rtake windowSize) call = (pairs ++ [call]).rtake windowSize := by
  have hconcat : (pairs ++ [call]).rtake windowSize = pairs.rtake 4 ++ [call] :=
    List.rtake_concat_succ pairs 4 call
  rw [hconcat, pushWindow]
  simp only [List.rtake, windowSize, List.length_append, List.length_singleton,
    List.length_drop]
  by_cases h : 5 ≤ pairs.length
  · rw [if_pos (by omega), List.tail_append_of_ne_nil (by
      intro hnil
      have := congrArg List.length hnil
      rw [List.length_drop, List.length_nil] at this
      omega), List.tail_drop]
    congr 2
    omega
  · rw [if_neg (by omega)]
    congr 2
    omega

/-- What the state keeps of the calls so far. -/
structure Holds (s : TelemetryState) (history : List (TelemetryCall F)) : Prop where
  callWindow : s.callWindow = (history.map TelemetryCall.pair).rtake windowSize
  totalTokenSum : s.totalTokenSum = UInt64.ofNat (tokenSum history)
  tokenCallCount : s.tokenCallCount = UInt64.ofNat (tokenCount history)

theorem holds_new : Holds (F := F) TelemetryState.new [] :=
  ⟨rfl, rfl, rfl⟩

/-- The counters after a call, in either of the two branches. -/
theorem TelemetryState.computeTokenRateDelta_counters (s : TelemetryState) (callTokens : UInt64) :
    (s.computeTokenRateDelta callTokens : F × TelemetryState).2.totalTokenSum =
        s.totalTokenSum + callTokens ∧
      (s.computeTokenRateDelta callTokens : F × TelemetryState).2.tokenCallCount =
        s.tokenCallCount + 1 := by
  unfold TelemetryState.computeTokenRateDelta
  by_cases h : s.totalTokenSum = 0 ∧ s.tokenCallCount = 0
  · rw [if_pos h, h.1, h.2]
    exact ⟨(UInt64.zero_add callTokens).symm, rfl⟩
  · rw [if_neg h]
    exact ⟨rfl, rfl⟩

/-- The sum the code forms, modulo `2 ^ 64`. -/
theorem TelemetryCall.ofNat_tokens (call : TelemetryCall F) :
    call.inputTokens.getD 0 + call.outputTokens.getD 0 = UInt64.ofNat call.tokens := by
  rw [TelemetryCall.tokens, UInt64.ofNat_add, UInt64.ofNat_toNat, UInt64.ofNat_toNat]

theorem Holds.computeCall [Sha256] {s : TelemetryState} {history : List (TelemetryCall F)}
    (h : Holds s history) (call : TelemetryCall F) :
    Holds (s.computeCall call).2 (history ++ [call]) := by
  have hwindow : (s.computeCall call).2.callWindow =
      ((history ++ [call]).map TelemetryCall.pair).rtake windowSize := by
    rw [TelemetryState.computeCall, callWindow_compute, h.callWindow, List.map_append,
      List.map_singleton]
    exact pushWindow_rtake _ _
  by_cases htok : call.hasTokenData = true
  · have hstate : (s.computeCall call).2 =
        ((({ s with
            callWindow := pushWindow s.callWindow call.pair
            prevRequestInstant := some call.now } : TelemetryState).computeTokenRateDelta
          (UInt64.ofNat call.tokens) : F × TelemetryState)).2 := by
      rw [TelemetryState.computeCall, TelemetryState.compute, call.ofNat_tokens]
      rw [TelemetryCall.hasTokenData] at htok
      simp only [htok, if_true]
      rfl
    obtain ⟨hsum, hcount⟩ := TelemetryState.computeTokenRateDelta_counters (F := F)
      { s with
        callWindow := pushWindow s.callWindow call.pair
        prevRequestInstant := some call.now } (UInt64.ofNat call.tokens)
    refine ⟨hwindow, ?_, ?_⟩
    · rw [hstate, hsum, h.totalTokenSum, tokenSum_concat, htok, if_pos rfl, UInt64.ofNat_add]
    · rw [hstate, hcount, h.tokenCallCount, tokenCount_concat, htok, if_pos rfl, UInt64.ofNat_add]
      rfl
  · have hstate : (s.computeCall call).2 =
        { s with
          callWindow := pushWindow s.callWindow call.pair
          prevRequestInstant := some call.now } := by
      rw [TelemetryState.computeCall, TelemetryState.compute]
      rw [TelemetryCall.hasTokenData] at htok
      simp only [htok]
      rfl
    refine ⟨hwindow, ?_, ?_⟩
    · rw [hstate, tokenSum_concat, if_neg htok, Nat.add_zero]
      exact h.totalTokenSum
    · rw [hstate, tokenCount_concat, if_neg htok, Nat.add_zero]
      exact h.tokenCallCount

/-- The state after any calls keeps them as `Holds` says. -/
theorem holds_after [Sha256] (calls : List (TelemetryCall F)) :
    Holds (TelemetryState.new.after calls) calls := by
  induction calls using List.reverseRecOn with
  | nil => exact holds_new
  | append_singleton calls call ih =>
    rw [TelemetryState.after, List.foldl_append]
    exact ih.computeCall call

/-! ## Every call of every run -/

theorem callSeqFingerprint_compute [Sha256] (s : TelemetryState) (call : TelemetryCall F) :
    (s.computeCall call).1.callSeqFingerprint =
      computeCallSeqFingerprint (pushWindow s.callWindow call.pair) := by
  rw [TelemetryState.computeCall, TelemetryState.compute]
  rfl

/-- The fingerprint of a call is the specified one, whatever the token counts. -/
theorem callSeqFingerprint_computeCall [Sha256] {s : TelemetryState}
    {history : List (TelemetryCall F)} (h : Holds s history) (call : TelemetryCall F) :
    (s.computeCall call).1.callSeqFingerprint = fingerprintOf history call := by
  rw [callSeqFingerprint_compute, h.callWindow, pushWindow_rtake, fingerprintOf, windowText,
    List.map_append, List.map_singleton]
  rfl

/-- The delta reads the counters only. -/
theorem computeTokenRateDelta_window (s : TelemetryState) (window : List (String × String))
    (prev : Option Nat) (callTokens : UInt64) :
    (({ s with callWindow := window, prevRequestInstant := prev } :
      TelemetryState).computeTokenRateDelta callTokens : F × TelemetryState).1 =
      (s.computeTokenRateDelta callTokens : F × TelemetryState).1 := by
  unfold TelemetryState.computeTokenRateDelta
  by_cases h : s.totalTokenSum = 0 ∧ s.tokenCallCount = 0
  · rw [if_pos h, if_pos h]
  · rw [if_neg h, if_neg h]

theorem tokenRateDelta_computeCall [Sha256] (s : TelemetryState) (call : TelemetryCall F) :
    (s.computeCall call).1.tokenRateDelta =
      if call.hasTokenData then
        some (s.computeTokenRateDelta (UInt64.ofNat call.tokens) : F × TelemetryState).1
      else none := by
  rw [TelemetryState.computeCall, TelemetryState.compute, ← call.ofNat_tokens]
  rw [TelemetryCall.hasTokenData]
  by_cases h : (call.inputTokens.isSome || call.outputTokens.isSome) = true
  · simp only [h, if_true]
    exact congrArg some (computeTokenRateDelta_window s _ _ _)
  · simp only [h]
    rfl

theorem toNat_ofNat_lt {n : Nat} (h : n < 2 ^ 64) : (UInt64.ofNat n).toNat = n :=
  UInt64.toNat_ofNat_of_lt' h

theorem ofNat_eq_zero {n : Nat} (h : n < 2 ^ 64) : UInt64.ofNat n = 0 ↔ n = 0 := by
  constructor
  · intro heq
    rw [← toNat_ofNat_lt h, heq]
    rfl
  · rintro rfl
    rfl

/-- Without token data before it nothing is summed. -/
theorem tokenSum_eq_zero {history : List (TelemetryCall F)} (h : tokenCount history = 0) :
    tokenSum history = 0 := by
  rw [tokenCount, List.countP_eq_zero] at h
  have hnil : history.filter TelemetryCall.hasTokenData = [] := List.filter_eq_nil_iff.2 h
  rw [tokenSum, hnil]
  rfl

/-- While the sums fit, the delta of a call is the specified one. -/
theorem Holds.tokenRateDelta [Sha256] {s : TelemetryState} {history : List (TelemetryCall F)}
    {call : TelemetryCall F} (h : Holds s history) (hfit : SumsFit history call) :
    (s.computeCall call).1.tokenRateDelta = tokenRateDeltaOf history call := by
  obtain ⟨hsum, hcount, htokens⟩ := hfit
  rw [tokenRateDelta_computeCall, tokenRateDeltaOf]
  by_cases htok : call.hasTokenData = true
  · rw [htok, if_pos rfl, if_neg (by decide)]
    by_cases hfirst : tokenCount history = 0
    · have hzero : s.totalTokenSum = 0 ∧ s.tokenCallCount = 0 := by
        rw [h.totalTokenSum, h.tokenCallCount, hfirst, tokenSum_eq_zero hfirst]
        exact ⟨rfl, rfl⟩
      rw [if_pos hfirst, TelemetryState.computeTokenRateDelta, if_pos hzero]
    · have hlater : ¬(s.totalTokenSum = 0 ∧ s.tokenCallCount = 0) := by
        rw [h.tokenCallCount, ofNat_eq_zero hcount]
        exact fun hzero => hfirst hzero.2
      have hpos : (0 : UInt64) < s.tokenCallCount := by
        rw [UInt64.lt_iff_toNat_lt, h.tokenCallCount, toNat_ofNat_lt hcount]
        exact Nat.pos_of_ne_zero hfirst
      rw [if_neg hfirst, TelemetryState.computeTokenRateDelta, if_neg hlater]
      simp only [hpos, if_true, ofNat_eq_zero htokens, toNat_ofNat_lt htokens]
      rw [h.totalTokenSum, toNat_ofNat_lt hsum, h.tokenCallCount, toNat_ofNat_lt hcount]
  · rw [if_neg htok, if_pos (by simpa using htok)]

/-- **Every call of every run has the fields the specification gives it**, as
long as the sums of the tokens before it, and its own, fit 64 bits. -/
theorem telemetry_follows [Sha256] (calls : List (TelemetryCall F)) (n : Nat)
    (call : TelemetryCall F) (hcall : calls[n]? = some call)
    (hfit : SumsFit (calls.take n) call) :
    ∃ fields, (TelemetryState.new.computeAll calls)[n]? = some fields ∧
      FollowsSpec (calls.take n) call fields := by
  have hholds := holds_after (calls.take n)
  refine ⟨_, ?_, callSeqFingerprint_computeCall hholds call, hholds.tokenRateDelta hfit⟩
  rw [TelemetryState.getElem?_computeAll, hcall]
  rfl

namespace Sample

/-- A call that read ten tokens, then one that wrote one more than it read, the
two counts together just over a counter. -/
def spike : List (TelemetryCall ℚ) :=
  [{ tool := "search", argsHash := "a", inputTokens := some 10 },
    { tool := "search", argsHash := "b", inputTokens := some 18446744073709551615,
      outputTokens := some 1 }]

/-- Ten tokens, then twenty: the specified fields. -/
theorem telemetry_follows_steady :
    let calls : List (TelemetryCall ℚ) :=
      [{ tool := "search", argsHash := "a", inputTokens := some 10 },
        { tool := "search", argsHash := "b", outputTokens := some 20 }]
    ∃ fields, (TelemetryState.new.computeAll calls)[1]? = some fields ∧
      FollowsSpec (calls.take 1)
        { tool := "search", argsHash := "b", outputTokens := some 20 } fields := by
  intro calls
  exact telemetry_follows calls 1 _ rfl
    ⟨by decide +kernel, by decide +kernel, by decide +kernel⟩

/-- The second call of `spike` is reported to use no tokens at all. -/
theorem spike_not_followed :
    ¬ ∀ (calls : List (TelemetryCall ℚ)) (n : Nat) (call : TelemetryCall ℚ)
        (fields : TelemetryFields ℚ), calls[n]? = some call →
        (TelemetryState.new.computeAll calls)[n]? = some fields →
        FollowsSpec (calls.take n) call fields := by
  intro h
  obtain ⟨-, hdelta⟩ := h spike 1 _ _ rfl rfl
  revert hdelta
  decide +kernel

end Sample

end LoopStorm.Engine
