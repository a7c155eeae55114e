import LoopStorm.Engine.Decision

/-!
# Behavioral telemetry

`apps/engine/src/telemetry.rs`: the four fields every decision event carries
about the calls of its run so far.  Token counters are `u64` and wrap.

* `TelemetryState.compute` — the fields of a call and the state after it.
* `callWindow_compute`, `length_pushWindow` — a call joins the window of its
  run, which never holds more than `windowSize` calls.
-/

namespace LoopStorm.Engine

/-- The `sha2` and `hex` crates: the digest of some bytes, in hex. -/
class Sha256 where
  hex : List UInt8 → String

/-- `sha256_hex` of a text. -/
def sha256Hex [Sha256] (s : String) : String := Sha256.hex (Text.utf8 s)

namespace Sample

/-- A digest of the right shape. -/
scoped instance : Sha256 := ⟨fun _ => String.ofList (List.replicate 64 '0')⟩

end Sample

/-- Rolling window size of `call_seq_fingerprint`. -/
def windowSize : Nat := 5

/-- Per-run telemetry state. -/
structure TelemetryState where
  /-- The last calls, oldest first. -/
  callWindow : List (String × String)
  prevRequestInstant : Option Nat
  /-- Cumulative token sum across all calls in this run. -/
  totalTokenSum : UInt64
  /-- Count of calls that provided token data. -/
  tokenCallCount : UInt64

/-- Computed telemetry fields for a single call. -/
structure TelemetryFields (F : Type) where
  callSeqFingerprint : String
  interCallMs : UInt64
  tokenRateDelta : Option F
  paramShapeHash : String

/-- `TelemetryState::new`. -/
def TelemetryState.new : TelemetryState := ⟨[], none, 0, 0⟩

/-- The window after one more call. -/
def pushWindow (window : List (String × String)) (call : String × String) :
    List (String × String) :=
  let window := window ++ [call]
  if windowSize < window.length then window.tail else window

/-- Digest of the joined `tool:args_hash` entries in the window. -/
def computeCallSeqFingerprint [Sha256] (window : List (String × String)) : String :=
  sha256Hex ("\n".intercalate (window.map (fun call => call.1 ++ ":" ++ call.2)))

/-- Milliseconds between two instants in nanoseconds, zero if time ran
backwards. -/
def interCallMs (prev : Option Nat) (now : Nat) : UInt64 :=
  match prev with
  | none => 0
  | some prev => UInt64.ofNat ((now - prev) / 1000000)

variable {F : Type} [Float64 F]

/-- The ratio of this call's tokens to the mean of the earlier calls, and the
totals after it. -/
def TelemetryState.computeTokenRateDelta (s : TelemetryState) (callTokens : UInt64) :
    F × TelemetryState :=
  if s.totalTokenSum = 0 ∧ s.tokenCallCount = 0 then
    (Float64.ofNat 1, { s with totalTokenSum := callTokens, tokenCallCount := 1 })
  else
    let rollingAvg : F :=
      if 0 < s.tokenCallCount then
        Float64.div (Float64.ofNat s.totalTokenSum.toNat) (Float64.ofNat s.tokenCallCount.toNat)
      else Float64.zero
    let delta : F :=
      if Float64.isZero rollingAvg then
        if callTokens = 0 then Float64.ofNat 1 else Float64.ofNat callTokens.toNat
      else Float64.div (Float64.ofNat callTokens.toNat) rollingAvg
    let million : F := Float64.ofNat 1000000
    (Float64.div (Float64.round (Float64.mul delta million)) million,
      { s with
        totalTokenSum := s.totalTokenSum + callTokens
        tokenCallCount := s.tokenCallCount + 1 })

/-- Digest of the sorted top-level keys of the arguments, or of the name of
their kind. -/
def computeParamShapeHash [Sha256] (argsRedacted : Option (Value F)) : String :=
  match argsRedacted with
  | none => sha256Hex "null"
  | some (.obj map) =>
    sha256Hex ("\n".intercalate ((map.map (·.1)).insertionSort (· ≤ ·)))
  | some (.arr _) => sha256Hex "array"
  | some (.str _) => sha256Hex "string"
  | some (.num _) => sha256Hex "number"
  | some (.bool _) => sha256Hex "boolean"
  | some .null => sha256Hex "null"

/-- Compute all four telemetry fields for a single call at the instant `now`. -/
def TelemetryState.compute [Sha256] (s : TelemetryState) (tool argsHash : String)
    (argsRedacted : Option (Value F)) (inputTokens outputTokens : Option UInt64) (now : Nat) :
    TelemetryFields F × TelemetryState :=
  let window := pushWindow s.callWindow (tool, argsHash)
  let s' := { s with callWindow := window, prevRequestInstant := some now }
  let (delta, s') :=
    if inputTokens.isSome || outputTokens.isSome then
      let callTokens := inputTokens.getD 0 + outputTokens.getD 0
      let (delta, s') := s'.computeTokenRateDelta callTokens
      (some delta, s')
    else (none, s')
  ({ callSeqFingerprint := computeCallSeqFingerprint window
     interCallMs := interCallMs s.prevRequestInstant now
     tokenRateDelta := delta
     paramShapeHash := computeParamShapeHash argsRedacted }, s')

/-- The window never outgrows its size. -/
theorem length_pushWindow {window : List (String × String)} (h : window.length ≤ windowSize)
    (call : String × String) : (pushWindow window call).length ≤ windowSize := by
  unfold pushWindow
  simp only [List.length_append, List.length_singleton, windowSize] at h ⊢
  split
  · rw [List.length_tail, List.length_append, List.length_singleton]
    omega
  · rw [List.length_append, List.length_singleton]
    omega

theorem callWindow_computeTokenRateDelta (s : TelemetryState) (callTokens : UInt64) :
    (s.computeTokenRateDelta callTokens : F × TelemetryState).2.callWindow = s.callWindow := by
  unfold TelemetryState.computeTokenRateDelta
  split <;> rfl

/-- A call extends the window of its run and nothing else touches it. -/
theorem callWindow_compute [Sha256] (s : TelemetryState) (tool argsHash : String)
    (argsRedacted : Option (Value F)) (inputTokens outputTokens : Option UInt64) (now : Nat) :
    (s.compute tool argsHash argsRedacted inputTokens outputTokens now).2.callWindow =
      pushWindow s.callWindow (tool, argsHash) := by
  unfold TelemetryState.compute
  by_cases h : (inputTokens.isSome || outputTokens.isSome) = true
  · simp only [h, if_true]
    exact callWindow_computeTokenRateDelta _ _
  · simp only [h]
    rfl

end LoopStorm.Engine
