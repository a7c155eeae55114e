import LoopStorm.Engine.Server
import LoopStorm.Shim.Guard

/-!
# A check that sends its request again

`Guard._send` of `_guard.py` and `Guard.send` of `guard.ts`, this time with the
engine that enforces what they send: a request that fails for any reason is sent
once more on a new connection, also when the engine has had it.

* `Language.OneLine` — what either shim writes is one line: `Ts.oneLine`,
  `Py.oneLine`.
* `Exchange`, `Exchange.step` — the checks of one guard, the connections it has
  made, and the engine's server with all its other clients.  A write is cut
  anywhere, a connection breaks at any time, and a request raises at any point
  of its way.  The checks may overlap, as those of the TypeScript guard do.
-/

namespace LoopStorm.Shim

open LoopStorm.Engine hiding DecisionRequest DecisionResponse Phase

/-! ## The lines of a guard -/

section Lines

variable {σ ν : Type}

/-- Every request is written as one line. -/
def Language.OneLine (shim : Language σ ν) : Prop :=
  ∀ r line, shim.toNdjson r = some line → ∃ body, newline ∉ body ∧ line = body ++ [newline]

theorem Ts.printable_quoteUnit {u : UInt16} {c : Char} (h : c ∈ Ts.quoteUnit u) :
    32 ≤ c.toNat := by
  have hhex : ∀ n, n < 16 → 32 ≤ (Json.hexDigit n).toNat := by
    intro n hn
    rw [Json.hexDigit_toNat hn]
    split <;> omega
  have hu : u.toNat < 65536 := u.toNat_lt
  unfold Ts.quoteUnit at h
  split at h
  · simp only [Ts.escapeUnit, List.mem_cons, List.not_mem_nil, or_false] at h
    rcases h with rfl | rfl | rfl | rfl | rfl | rfl
    · decide
    · decide
    · exact hhex _ (by omega)
    · exact hhex _ (by omega)
    · exact hhex _ (by omega)
    · exact hhex _ (by omega)
  · exact Json.printable_escapeChar h

theorem Ts.printable_quoteUnits (s : Ts.Str) : ∀ c ∈ Ts.quoteUnits s, 32 ≤ c.toNat := by
  induction s using Ts.quoteUnits.induct with
  | case1 => exact fun c h => absurd h List.not_mem_nil
  | case2 u => exact fun c h => Ts.printable_quoteUnit h
  | case3 u v us hpair ih =>
    intro c h
    rw [Ts.quoteUnits, if_pos hpair] at h
    rcases List.mem_append.1 h with h | h
    · exact Json.printable_escapeChar h
    · exact ih c h
  | case4 u v us hpair ih =>
    intro c h
    rw [Ts.quoteUnits, if_neg hpair] at h
    rcases List.mem_append.1 h with h | h
    · exact Ts.printable_quoteUnit h
    · exact ih c h

theorem Ts.printable_quote (s : Ts.Str) : ∀ c ∈ Ts.quote s, 32 ≤ c.toNat := by
  intro c h
  rw [Ts.quote, List.mem_cons, List.mem_append, List.mem_singleton] at h
  rcases h with rfl | h | rfl
  · decide
  · exact Ts.printable_quoteUnits s c h
  · decide

/-- A text of printable characters has no newline. -/
theorem newline_notMem_of_printable {cs : List Char} (h : ∀ c ∈ cs, 32 ≤ c.toNat) :
    newline ∉ Text.utf8 (String.ofList cs) :=
  Text.newline_notMem_utf8 fun hmem => absurd (h _ hmem) (by decide)

variable [NumberText ν] [Sha256]

/-- A TypeScript request is one line, if numbers are written as numbers. -/
theorem Ts.oneLine (hnum : ∀ n : ν, Json.IsNumber (NumberText.text n)) :
    (Ts.language (ν := ν)).OneLine := by
  intro r line hline
  obtain rfl := Option.some.inj (show some (Ts.toNdjson r) = some line from hline)
  refine ⟨_, newline_notMem_of_printable (Json.printable_render _ _ Ts.printable_quote ?_ _), rfl⟩
  exact fun n => (hnum n).printable

/-- A Python request is one line, if numbers are written as numbers. -/
theorem Py.oneLine (hnum : ∀ n : ν, Json.IsNumber (NumberText.text n)) :
    (Py.language (ν := ν)).OneLine := by
  intro r line hline
  obtain ⟨ms, -, rfl⟩ := Option.map_eq_some_iff.1 (show Py.toNdjson r = some line from hline)
  refine ⟨_, newline_notMem_of_printable (Json.printable_render _ _ ?_ ?_ _), rfl⟩
  · exact fun _ _ h => Json.printable_quote h
  · exact fun n => (hnum n).printable

end Lines

/-! ## The two parties -/

/-- Which request of a check: the first, or the one after the reconnect. -/
inductive Attempt where
  | first
  | second
  deriving DecidableEq, Repr

/-- Where a check stands. -/
inductive CheckStage where
  | idle
  /-- in `request`, before `ensureConnected` -/
  | requesting (attempt : Attempt)
  | connecting (attempt : Attempt)
  /-- connected, with the line still to be written -/
  | sending (attempt : Attempt)
  /-- reading the reply -/
  | awaiting (attempt : Attempt)
  | reconnecting
  /-- `send` has returned or raised -/
  | settled
  deriving DecidableEq, Repr

/-- The check has not written its request yet. -/
def CheckStage.isUnwritten : CheckStage → Bool
  | .idle | .requesting .first | .connecting .first | .sending .first => true
  | _ => false

/-- The engine's server, and a guard that calls it. -/
structure Exchange (F : Type) [Float64 F] where
  server : Server F
  /-- The connections the guard has made. -/
  opened : Finset Nat
  /-- The one it uses. -/
  socket : Option Nat
  /-- The bytes written to a connection that have not left yet. -/
  queued : Nat → List UInt8
  /-- The number of checks begun. -/
  seq : Nat
  stage : Nat → CheckStage

/-- What may happen. -/
inductive ExchangeEvent (F : Type) [Float64 F] where
  /-- a step of the engine or of another client -/
  | server (event : ServerEvent F)
  /-- the next check begins -/
  | check
  | ensureConnected (i : Nat)
  /-- the socket a check waits for is connected, as connection `k` -/
  | connected (i k : Nat)
  /-- a check hands its line to the socket -/
  | write (i : Nat)
  /-- at most `n` bytes leave -/
  | deliver (k n : Nat)
  /-- a connection breaks, and what has not left is lost -/
  | broken (k : Nat)
  /-- a check has its reply -/
  | reply (i : Nat)
  /-- the request or the reconnect of a check raises, whatever the reason -/
  | raise (i : Nat)
  /-- the guard is closed -/
  | close

/-- The connection a client acts on, when the event is a client's. -/
def clientOf {F : Type} [Float64 F] : ServerEvent F → Option Nat
  | .conn k (.send _) => some k
  | .conn k .hangUp => some k
  | _ => none

section Exchange

variable {F : Type} [Float64 F]

/-- Before the first check. -/
def Exchange.start (ctx : EnforcementContext F) : Exchange F :=
  ⟨.start ctx, ∅, none, fun _ => [], 0, fun _ => .idle⟩

/-- Move a check on. -/
def Exchange.setStage (x : Exchange F) (i : Nat) (stage : CheckStage) : Exchange F :=
  { x with stage := Function.update x.stage i stage }

/-- All the engine may get from a connection of the guard. -/
def Exchange.stream (x : Exchange F) (k : Nat) : List UInt8 :=
  (x.server.conns k).sent ++ x.queued k

/-- A connection is gone. -/
def Exchange.hangUp (x : Exchange F) (k : Nat) : Exchange F :=
  { x with
    server :=
      { x.server with
        conns := Function.update x.server.conns k { x.server.conns k with hungUp := true } }
    queued := Function.update x.queued k [] }

/-- `close`: destroy the socket and forget it. -/
def Exchange.close (x : Exchange F) : Exchange F :=
  match x.socket with
  | none => x
  | some k => { x.hangUp k with socket := none }

theorem Exchange.stage_close (x : Exchange F) : x.close.stage = x.stage := by
  unfold Exchange.close
  split <;> rfl

/-- A new connection, which is the one the guard uses from now on. -/
def Exchange.connect (x : Exchange F) (k : Nat) : Exchange F :=
  { x with
    opened := insert k x.opened
    socket := some k
    queued := Function.update x.queued k [] }

variable {σ ν : Type} [Globset] [TextTools] [Sha256] [RequestReader F]
  (shim : Language σ ν) (g : Guard σ F) (calls : Nat → CheckArgs σ ν)

/-- The guard before its check `i`, counted from 0. -/
def Guard.before (g : Guard σ F) (i : Nat) : Guard σ F :=
  { g with seq := g.seq + i, link := .absent, synced := trivial }

/-- The number of a check. -/
def Guard.number (g : Guard σ F) (i : Nat) : Nat := g.seq + i + 1

/-- The line of a check; `none` when its request cannot be made or written. -/
def Guard.line (i : Nat) : Option (List UInt8) :=
  ((g.before i).request shim (calls i)).bind shim.toNdjson

/-- After the request of an attempt has raised: one reconnect, or the end. -/
def Exchange.raise (x : Exchange F) (i : Nat) : Attempt → Exchange F
  | .first => x.close.setStage i .reconnecting
  | .second => x.setStage i .settled

/-- A step; `none` when it cannot be taken. -/
def Exchange.step (x : Exchange F) : ExchangeEvent F → Option (Exchange F)
  | .server event =>
    if ∃ k ∈ x.opened, clientOf event = some k then none
    else (x.server.step event).map fun server => { x with server := server }
  | .check =>
    let stage :=
      match (g.before x.seq).request shim (calls x.seq) with
      | none => .settled
      | some _ => .requesting .first
    some { x.setStage x.seq stage with seq := x.seq + 1 }
  | .ensureConnected i =>
    match x.stage i with
    | .requesting attempt =>
      some (x.setStage i (if x.socket = none then .connecting attempt else .sending attempt))
    | _ => none
  | .connected i k =>
    if k ∈ x.opened ∨ (x.server.conns k).sent ≠ [] ∨ (x.server.conns k).hungUp then none
    else
      match x.stage i with
      | .connecting attempt => some ((x.connect k).setStage i (.sending attempt))
      | .reconnecting => some ((x.connect k).setStage i (.requesting .second))
      | _ => none
  | .write i =>
    match x.stage i, x.socket, g.line shim calls i with
    | .sending attempt, some k, some line =>
      if line.length > maxMessageSize ∨ (x.server.conns k).hungUp then none
      else
        some { x.setStage i (.awaiting attempt) with
          queued := Function.update x.queued k (x.queued k ++ line) }
    | _, _, _ => none
  | .deliver k n =>
    if k ∈ x.opened then
      (x.server.step (.conn k (.send ((x.queued k).take n)))).map fun server =>
        { x with
          server := server
          queued := Function.update x.queued k ((x.queued k).drop n) }
    else none
  | .broken k => if k ∈ x.opened then some (x.hangUp k) else none
  | .reply i =>
    match x.stage i with
    | .awaiting _ => some (x.setStage i .settled)
    | _ => none
  | .raise i =>
    match x.stage i with
    | .requesting attempt => some (x.raise i attempt)
    | .connecting attempt => some (x.raise i attempt)
    | .sending attempt => some (x.raise i attempt)
    | .awaiting attempt => some (x.raise i attempt)
    | .reconnecting => some (x.setStage i .settled)
    | _ => none
  | .close => some x.close

end Exchange

end LoopStorm.Shim
