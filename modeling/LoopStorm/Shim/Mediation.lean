import LoopStorm.Shim.AtMostOnce
import LoopStorm.Engine.Log

/-!
# From the wrapped function to the audit log

`Guard.wrap` runs a function only when `Guard.check` returns.  Here the whole way
of a check is put together: the request of `_guard.py`, the connection of
`_connection.py` with its buffer, the server, `enforce` and the audit log, with
bytes cut anywhere, timeouts and broken connections at any time, and all the
other clients of the engine.

* `stream_of_step`, `Exchange.Owned` — what is on the connections of a guard are
  the lines of its own checks.
* `mem_responses_of_line` — a line read off a connection is an answer of the
  engine.
* `Gate`, `Gate.step` — the checks with their replies.
* `Exchange.Allowed` — the engine was handed what it read in the line of the
  check and answered allow.
* `runs_only_what_is_allowed` — **complete mediation**: a check that returns was
  allowed by the engine, and the decision is in the audit log; or the guard fails
  open and had no reply.
-/

namespace LoopStorm.Shim

open LoopStorm.Engine hiding DecisionRequest DecisionResponse Phase
open Frames

/-! ## One step of an exchange -/

section Steps

variable {F : Type} [Float64 F]

theorem Exchange.stream_hangUp (x : Exchange F) (k l : Nat) :
    (x.hangUp k).stream l <+: x.stream l := by
  show (Function.update x.server.conns k { x.server.conns k with hungUp := true } l).sent ++
    Function.update x.queued k [] l <+: x.stream l
  by_cases hl : l = k
  · subst hl
    rw [Function.update_self, Function.update_self, List.append_nil]
    exact List.prefix_append _ _
  · rw [Function.update_of_ne hl, Function.update_of_ne hl]
    exact List.prefix_rfl

variable [RequestReader F] [Globset] [TextTools] [Sha256] {σ ν : Type}
  {shim : Language σ ν} {g : Guard σ F} {calls : Nat → CheckArgs σ ν} {x y : Exchange F}

theorem Exchange.stream_deliver {k n : Nat} {server : Server F}
    (hstep : x.server.step (.conn k (.send ((x.queued k).take n))) = some server) (l : Nat) :
    Exchange.stream { x with
      server := server
      queued := Function.update x.queued k ((x.queued k).drop n) } l = x.stream l := by
  rw [Server.step, Option.map_eq_some_iff] at hstep
  obtain ⟨c, hc, rfl⟩ := hstep
  rw [Conn.step] at hc
  split at hc
  · cases hc
  · obtain rfl := Option.some.inj hc
    unfold Exchange.stream
    dsimp only
    by_cases hl : l = k
    · subst hl
      rw [Function.update_self, Function.update_self, List.append_assoc, List.take_append_drop]
    · rw [Function.update_of_ne hl, Function.update_of_ne hl]

/-- What one step can do to the server and to the connections of the guard. -/
structure Exchange.Moves (shim : Language σ ν) (g : Guard σ F) (calls : Nat → CheckArgs σ ν)
    (x y : Exchange F) : Prop where
  /-- The server moves by its own steps. -/
  server : y.server = x.server ∨ ∃ event, x.server.step event = some y.server
  /-- Checks only begin. -/
  seq : x.seq ≤ y.seq
  /-- A connection is cut short if anything, or it is new, or the line of a check
  has been written to it. -/
  stream : ∀ k ∈ y.opened, (k ∈ x.opened ∧ y.stream k <+: x.stream k) ∨ y.stream k = [] ∨
    ∃ i line, g.line shim calls i = some line ∧ x.socket = some k ∧
      (x.server.conns k).hungUp = false ∧ y.stream k = x.stream k ++ line

theorem Exchange.Moves.of_same (hserver : y.server = x.server) (hopened : y.opened = x.opened)
    (hqueued : y.queued = x.queued) (hseq : x.seq ≤ y.seq) : x.Moves shim g calls y where
  server := .inl hserver
  seq := hseq
  stream k hk := by
    refine .inl ⟨hopened ▸ hk, ?_⟩
    rw [Exchange.stream, hserver, hqueued]
    exact List.prefix_rfl

theorem Exchange.Moves.hangUp (k : Nat) : x.Moves shim g calls (x.hangUp k) where
  server := .inr ⟨.conn k .hangUp, rfl⟩
  seq := Nat.le_refl _
  stream l hl := .inl ⟨hl, x.stream_hangUp k l⟩

theorem Exchange.Moves.close : x.Moves shim g calls x.close := by
  unfold Exchange.close
  split
  · exact .of_same rfl rfl rfl (Nat.le_refl _)
  case h_2 k hk =>
    have hgone : x.Moves shim g calls (x.hangUp k) := .hangUp k
    exact ⟨hgone.server, hgone.seq, hgone.stream⟩

theorem Exchange.Moves.connect {k : Nat} (hk : k ∉ x.opened)
    (hsent : (x.server.conns k).sent = []) : x.Moves shim g calls (x.connect k) where
  server := .inl rfl
  seq := Nat.le_refl _
  stream l hl := by
    rcases Finset.mem_insert.1 hl with rfl | hl
    · refine .inr (.inl ?_)
      show (x.server.conns l).sent ++ Function.update x.queued l [] l = []
      rw [hsent, Function.update_self]
      rfl
    · refine .inl ⟨hl, ?_⟩
      show (x.server.conns l).sent ++ Function.update x.queued k [] l <+: x.stream l
      rw [Function.update_of_ne (ne_of_mem_of_not_mem hl hk)]
      exact List.prefix_rfl

/-- Where a check stands makes no difference here. -/
theorem Exchange.Moves.setStage {z : Exchange F} (h : x.Moves shim g calls y) {i : Nat}
    {stage : CheckStage} (hz : z = y.setStage i stage) : x.Moves shim g calls z := by
  subst hz
  exact ⟨h.server, h.seq, h.stream⟩

/-- **One step** of an exchange. -/
theorem Exchange.moves_of_step {event : ExchangeEvent F}
    (hstep : x.step shim g calls event = some y) : x.Moves shim g calls y := by
  cases event with
  | server event =>
    simp only [Exchange.step] at hstep
    split at hstep
    case isTrue => cases hstep
    case isFalse hclient =>
      obtain ⟨server, hserver, rfl⟩ := Option.map_eq_some_iff.1 hstep
      refine ⟨.inr ⟨event, hserver⟩, Nat.le_refl _, fun k hk => .inl ⟨hk, ?_⟩⟩
      have hpeer := peer_of_serverStep hserver fun hevent => hclient ⟨k, hk, hevent⟩
      show (server.conns k).sent ++ x.queued k <+: _
      rw [hpeer.1]
      exact List.prefix_rfl
  | check =>
    obtain rfl := Option.some.inj hstep
    exact .of_same rfl rfl rfl (Nat.le_succ _)
  | ensureConnected i =>
    simp only [Exchange.step] at hstep
    split at hstep
    · obtain rfl := Option.some.inj hstep
      exact .of_same rfl rfl rfl (Nat.le_refl _)
    · cases hstep
  | connected i k =>
    simp only [Exchange.step] at hstep
    split at hstep
    case isTrue => cases hstep
    case isFalse hfresh =>
      rw [not_or, not_or, not_not] at hfresh
      split at hstep
      · obtain rfl := Option.some.inj hstep
        exact (Moves.connect hfresh.1 hfresh.2.1).setStage rfl
      · obtain rfl := Option.some.inj hstep
        exact (Moves.connect hfresh.1 hfresh.2.1).setStage rfl
      · cases hstep
  | write i =>
    simp only [Exchange.step] at hstep
    split at hstep
    case h_1 attempt k line hstage hsocket hline =>
      split at hstep
      case isTrue => cases hstep
      case isFalse hfits =>
        obtain rfl := Option.some.inj hstep
        rw [not_or, Bool.not_eq_true] at hfits
        refine ⟨.inl rfl, Nat.le_refl _, fun l hl => ?_⟩
        by_cases hlk : l = k
        · subst hlk
          refine .inr (.inr ⟨i, line, hline, hsocket, hfits.2, ?_⟩)
          show (x.server.conns l).sent ++ Function.update x.queued l (x.queued l ++ line) l = _
          rw [Function.update_self, ← List.append_assoc]
          rfl
        · refine .inl ⟨hl, ?_⟩
          show (x.server.conns l).sent ++ Function.update x.queued k (x.queued k ++ line) l <+: _
          rw [Function.update_of_ne hlk]
          exact List.prefix_rfl
    case h_2 => cases hstep
  | deliver k n =>
    simp only [Exchange.step] at hstep
    split at hstep
    · obtain ⟨server, hserver, rfl⟩ := Option.map_eq_some_iff.1 hstep
      refine ⟨.inr ⟨_, hserver⟩, Nat.le_refl _, fun l hl => .inl ⟨hl, ?_⟩⟩
      rw [stream_deliver hserver l]
    · cases hstep
  | broken k =>
    simp only [Exchange.step] at hstep
    split at hstep
    · obtain rfl := Option.some.inj hstep
      exact .hangUp k
    · cases hstep
  | reply i =>
    simp only [Exchange.step] at hstep
    split at hstep
    · obtain rfl := Option.some.inj hstep
      exact .of_same rfl rfl rfl (Nat.le_refl _)
    · cases hstep
  | raise i =>
    simp only [Exchange.step] at hstep
    split at hstep
    case h_5 =>
      obtain rfl := Option.some.inj hstep
      exact .of_same rfl rfl rfl (Nat.le_refl _)
    case h_6 => cases hstep
    all_goals
      rename_i attempt hstage
      obtain rfl := Option.some.inj hstep
      cases attempt with
      | first => exact Moves.close.setStage rfl
      | second => exact .of_same rfl rfl rfl (Nat.le_refl _)
  | close =>
    obtain rfl := Option.some.inj hstep
    exact .close

omit [RequestReader F] [Globset] [TextTools] [Sha256] in
theorem Exchange.socket_close (x : Exchange F) : x.close.socket = none := by
  unfold Exchange.close
  split
  case h_1 hnone => exact hnone
  case h_2 => rfl

/-- A guard keeps its connection or closes it, unless it has made a new one. -/
theorem Exchange.socket_of_step {event : ExchangeEvent F}
    (hstep : x.step shim g calls event = some y) (hevent : ∀ i k, event ≠ .connected i k) :
    y.socket = x.socket ∨ y.socket = none := by
  cases event with
  | server event =>
    simp only [Exchange.step] at hstep
    split at hstep
    · cases hstep
    · obtain ⟨server, -, rfl⟩ := Option.map_eq_some_iff.1 hstep
      exact .inl rfl
  | check =>
    obtain rfl := Option.some.inj hstep
    exact .inl rfl
  | connected i k => exact absurd rfl (hevent i k)
  | write i =>
    simp only [Exchange.step] at hstep
    split at hstep
    · split at hstep
      · cases hstep
      · obtain rfl := Option.some.inj hstep
        exact .inl rfl
    · cases hstep
  | deliver k n =>
    simp only [Exchange.step] at hstep
    split at hstep
    · obtain ⟨server, -, rfl⟩ := Option.map_eq_some_iff.1 hstep
      exact .inl rfl
    · cases hstep
  | raise i =>
    simp only [Exchange.step] at hstep
    split at hstep
    case h_5 =>
      obtain rfl := Option.some.inj hstep
      exact .inl rfl
    case h_6 => cases hstep
    all_goals
      rename_i attempt hstage
      obtain rfl := Option.some.inj hstep
      cases attempt with
      | first => exact .inr x.socket_close
      | second => exact .inl rfl
  | close =>
    obtain rfl := Option.some.inj hstep
    exact .inr x.socket_close
  | _ =>
    simp only [Exchange.step] at hstep
    split at hstep
    · obtain rfl := Option.some.inj hstep
      exact .inl rfl
    · cases hstep

/-- A check that goes on after an exception has closed the connection. -/
theorem Exchange.socket_raise {i : Nat} (hstep : x.step shim g calls (.raise i) = some y)
    (hactive : y.stage i ≠ .settled) : y.socket = none := by
  simp only [Exchange.step] at hstep
  split at hstep
  case h_5 =>
    obtain rfl := Option.some.inj hstep
    exact absurd (Function.update_self ..) hactive
  case h_6 => cases hstep
  all_goals
    rename_i attempt hstage
    obtain rfl := Option.some.inj hstep
    cases attempt with
    | first => exact x.socket_close
    | second => exact absurd (Function.update_self ..) hactive

/-! ## What is on the connections -/

/-- The exchange is in order, seen from the checks that have not begun. -/
def Exchange.InOrder (ctx : EnforcementContext F) (g : Guard σ F) (x : Exchange F) : Prop :=
  ∀ i, x.seq ≤ i → x.Inv ctx g i

/-- What the engine will take up on a connection of the guard, it has read in the
line of a check. -/
def Exchange.Owned (shim : Language σ ν) (g : Guard σ F) (calls : Nat → CheckArgs σ ν)
    (x : Exchange F) : Prop :=
  ∀ k ∈ x.opened, ∀ q ∈ carried (F := F) (x.stream k), ∃ i line,
    g.line shim calls i = some line ∧ receive (F := F) line = some (.request q)

variable {ctx : EnforcementContext F}

theorem Exchange.InOrder.step {event : ExchangeEvent F} (hlines : shim.OneLine)
    (hreads : ReadsNumber shim g calls) (h : x.InOrder ctx g)
    (hstep : x.step shim g calls event = some y) : y.InOrder ctx g := by
  intro i hi
  have hinv : x.Inv ctx g i := h i ((moves_of_step hstep).seq.trans hi)
  refine hinv.step hlines hreads ?_ hstep
  cases event with
  | write j =>
    intro hj hsending
    rw [hinv.idle i ((moves_of_step hstep).seq.trans hi)] at hsending
    cases hsending
  | _ => trivial

omit [Globset] [TextTools] [Sha256] in
/-- What a whole stream and one line more carry. -/
theorem mem_carried_line {head line : List UInt8} (hwhole : Whole newline head)
    (hline : ∃ body, newline ∉ body ∧ line = body ++ [newline]) {q : Engine.DecisionRequest F}
    (hq : q ∈ carried (F := F) (head ++ line)) :
    q ∈ carried (F := F) head ∨ receive (F := F) line = some (.request q) := by
  obtain ⟨body, hbody, rfl⟩ := hline
  have hcarried := ((answerable_line (F := F) hwhole hbody).filterMap Message.request?).subset hq
  rw [List.filterMap_append, List.mem_append] at hcarried
  refine hcarried.imp id fun hnew => ?_
  obtain ⟨message, hmessage, hrequest⟩ := List.mem_filterMap.1 hnew
  have hframe := Option.mem_toList.1 hmessage
  cases message with
  | refused refusal => cases hrequest
  | request r =>
    obtain rfl := Option.some.inj hrequest
    unfold frameMessage at hframe
    split at hframe
    · cases hframe
    · rwa [if_pos List.getLast?_concat] at hframe

theorem Exchange.Owned.step {event : ExchangeEvent F} (hlines : shim.OneLine)
    (horder : x.InOrder ctx g) (h : x.Owned shim g calls)
    (hstep : x.step shim g calls event = some y) : y.Owned shim g calls := by
  intro k hk q hq
  rcases (moves_of_step hstep).stream k hk with
    ⟨hk, hcut⟩ | hnew | ⟨i, line, hline, hsocket, hup, hstream⟩
  · exact h k hk q ((carried_mono hcut).subset hq)
  · rw [hnew] at hq
    exact absurd hq List.not_mem_nil
  · have hinv := horder x.seq (Nat.le_refl _)
    have hold : k ∈ x.opened := hinv.socket k hsocket
    have hbody : ∃ body, newline ∉ body ∧ line = body ++ [newline] := by
      obtain ⟨r, -, hr⟩ := Option.bind_eq_some_iff.1 hline
      exact hlines r line hr
    rw [hstream] at hq
    rcases mem_carried_line (hinv.whole k hold hup) hbody hq with hq | hq
    · exact h k hold q hq
    · exact ⟨i, line, hline, hq⟩

end Steps

/-! ## The answers of the engine -/

section Answers

variable {F : Type} [Float64 F]

theorem frames_responses (responses : List (Engine.DecisionResponse F)) :
    frames newline (responses.flatMap writeResponse) = responses.map writeResponse := by
  induction responses with
  | nil => rfl
  | cons r responses ih =>
    rw [List.flatMap_cons, List.map_cons, ← ih, writeResponse, List.append_assoc,
      List.singleton_append]
    exact frames_closed (newline_notMem_responseBytes r) _

/-- A line behind whole lines of the engine is an answer of the engine. -/
theorem mem_responses_of_line {responses : List (Engine.DecisionResponse F)}
    {head line rest : List UInt8} (hwhole : Whole newline head) (hline : newline ∉ line)
    (h : head ++ (line ++ newline :: rest) <+: responses.flatMap writeResponse) :
    ∃ r ∈ responses, line = responseBytes r := by
  obtain ⟨more, hmore⟩ := h
  have hframes := frames_responses responses
  rw [← hmore, List.append_assoc, List.append_assoc, List.cons_append, frames_append hwhole,
    frames_closed hline] at hframes
  have hmem : line ++ [newline] ∈ responses.map writeResponse := by
    rw [← hframes]
    exact List.mem_append_right _ (List.mem_cons_self ..)
  obtain ⟨r, hr, heq⟩ := List.mem_map.1 hmem
  exact ⟨r, hr, (List.append_cancel_right heq).symm⟩

theorem splitLine_eq_some {buffer line rest : List UInt8}
    (h : splitLine buffer = some (line, rest)) :
    newline ∉ line ∧ buffer = line ++ newline :: rest := by
  by_cases hmem : newline ∈ buffer
  · obtain ⟨front, back, rfl, hfront⟩ := List.eq_append_cons_of_mem hmem
    rw [splitLine_append hfront] at h
    obtain ⟨rfl, rfl⟩ := Prod.mk.inj (Option.some.inj h)
    exact ⟨hfront, rfl⟩
  · rw [splitLine_of_notMem hmem] at h
    cases h

theorem exists_of_forall₂ {α β : Type} {R : α → β → Prop} {as : List α} {bs : List β}
    (h : List.Forall₂ R as bs) {b : β} (hb : b ∈ bs) : ∃ a ∈ as, R a b := by
  induction h with
  | nil => exact absurd hb List.not_mem_nil
  | cons hab htail ih =>
    rcases List.mem_cons.1 hb with rfl | hb
    · exact ⟨_, List.mem_cons_self .., hab⟩
    · obtain ⟨a, ha, hR⟩ := ih hb
      exact ⟨a, List.mem_cons_of_mem _ ha, hR⟩

variable [RequestReader F]

theorem output_of_step {c d : Conn F} {event : ConnEvent} (hstep : c.step event = some d) :
    c.output <+: d.output := by
  cases event with
  | send bytes =>
    rw [Conn.step] at hstep
    split at hstep
    · cases hstep
    · obtain rfl := Option.some.inj hstep
      exact List.prefix_rfl
  | hangUp =>
    obtain rfl := Option.some.inj hstep
    exact List.prefix_rfl
  | fill n =>
    obtain ⟨_, _, _, ⟨_, _, rfl⟩ | ⟨_, _, rfl⟩⟩ := Conn.step_fill hstep
    · exact List.prefix_rfl
    · exact List.prefix_rfl
  | scan ts =>
    obtain ⟨accumulated, _, _, rfl⟩ := Conn.step_scan hstep
    unfold Conn.scanned
    split <;> exact List.prefix_rfl
  | respond =>
    rw [Conn.step] at hstep
    split at hstep
    · obtain rfl := Option.some.inj hstep
      exact List.prefix_append _ _
    · cases hstep

variable [Globset] [TextTools] [Sha256]

/-- The server takes nothing back. -/
theorem grows_of_serverStep {s t : Server F} {event : ServerEvent F}
    (hstep : s.step event = some t) :
    s.calls <+: t.calls ∧ ∀ k, (s.conns k).output <+: (t.conns k).output := by
  cases event with
  | conn l event =>
    rw [Server.step, Option.map_eq_some_iff] at hstep
    obtain ⟨c, hc, rfl⟩ := hstep
    refine ⟨List.prefix_rfl, fun k => ?_⟩
    show _ <+: (Function.update s.conns l c k).output
    by_cases hk : k = l
    · subst hk
      rw [Function.update_self]
      exact output_of_step hc
    · rw [Function.update_of_ne hk]
  | enforce l env =>
    rw [Server.step] at hstep
    split at hstep
    case h_2 => cases hstep
    case h_1 request hphase =>
      obtain rfl := Option.some.inj hstep
      refine ⟨List.prefix_append _ _, fun k => ?_⟩
      by_cases hk : k = l
      · subst hk
        rw [Server.conns_afterEnforce_self]
      · rw [Server.conns_afterEnforce_of_ne s hk]

theorem Exchange.Moves.grows {σ ν : Type} {shim : Language σ ν} {g : Guard σ F}
    {calls : Nat → CheckArgs σ ν} {x y : Exchange F} (h : x.Moves shim g calls y) :
    x.server.calls <+: y.server.calls ∧
      ∀ k, (x.server.conns k).output <+: (y.server.conns k).output := by
  rcases h.server with hsame | ⟨event, hstep⟩
  · rw [hsame]
    exact ⟨List.prefix_rfl, fun _ => List.prefix_rfl⟩
  · exact grows_of_serverStep hstep

end Answers

/-! ## The checks and their replies -/

/-- A guard with what it has read of its connection and what its checks have come
to. -/
structure Gate (F : Type) [Float64 F] where
  exchange : Exchange F
  /-- The buffer of the connection. -/
  buffer : List UInt8
  /-- How many bytes of the connection have been read. -/
  taken : Nat
  result : Nat → Option (Except GuardError DecisionResult)

/-- What may happen. -/
inductive GateEvent (F : Type) [Float64 F] where
  /-- a step of the exchange in which no check ends -/
  | exchange (event : ExchangeEvent F)
  /-- the request or the reconnect of a check raises -/
  | raise (i : Nat) (e : Failure)
  /-- a check that waits for a line reads at most `n` bytes -/
  | recv (i n : Nat)
  /-- a check takes a line out of the buffer -/
  | read (i : Nat)

section Gate

variable {F : Type} [Float64 F]

/-- Before the first check. -/
def Gate.start (ctx : EnforcementContext F) : Gate F := ⟨.start ctx, [], 0, fun _ => none⟩

/-- A check returns or raises. -/
def Gate.settle (x : Gate F) (i : Nat) (result : Except GuardError DecisionResult) : Gate F :=
  { x with result := Function.update x.result i (some result) }

variable {σ ν : Type}

/-- What `check` makes of no reply. -/
def Guard.unanswered (g : Guard σ F) (e : Failure) : Except GuardError DecisionResult :=
  if g.failOpen then .ok { decision := .str "allow" } else .error (.engineUnavailable e)

/-- What `check` makes of a reply. -/
def answered [DecidableEq σ] (shim : Language σ ν) (r : DecisionRequest σ ν)
    (response : DecisionResponse) : Except GuardError DecisionResult :=
  if echoes shim r response then handleDecision shim response
  else
    .error (.runTerminated none
      (some (.str "protocol error: seq/run_id mismatch in engine response")))

variable [DecidableEq σ] [Globset] [TextTools] [Sha256] [RequestReader F]
  (shim : Language σ ν) (g : Guard σ F) (calls : Nat → CheckArgs σ ν)

/-- An exception in a check: the first closes the connection, the second ends the
check. -/
def Gate.raise (x : Gate F) (i : Nat) (e : Failure) : Option (Gate F) :=
  (x.exchange.step shim g calls (.raise i)).map fun exchange =>
    if exchange.stage i = .settled then
      { x with exchange := exchange }.settle i (g.unanswered e)
    else { x with exchange := exchange, buffer := [] }

/-- A step; `none` when it cannot be taken. -/
def Gate.step (x : Gate F) : GateEvent F → Option (Gate F)
  | .exchange event =>
    match event with
    | .raise _ => none
    | .reply _ => none
    | .check =>
      (x.exchange.step shim g calls .check).map fun exchange =>
        if exchange.stage x.exchange.seq = .settled then
          { x with exchange := exchange }.settle x.exchange.seq (.error .unhashable)
        else { x with exchange := exchange }
    | .connected i k =>
      (x.exchange.step shim g calls (.connected i k)).map fun exchange =>
        { x with exchange := exchange, buffer := [], taken := 0 }
    | .close =>
      (x.exchange.step shim g calls .close).map fun exchange =>
        { x with exchange := exchange, buffer := [] }
    | event =>
      (x.exchange.step shim g calls event).map fun exchange => { x with exchange := exchange }
  | .raise i e => x.raise shim g calls i e
  | .recv i n =>
    match x.exchange.stage i, x.exchange.socket with
    | .awaiting _, some k =>
      let chunk := ((x.exchange.server.conns k).output.drop x.taken).take n
      if chunk = [] ∨ newline ∈ x.buffer then none
      else
        let y := { x with buffer := x.buffer ++ chunk, taken := x.taken + chunk.length }
        if y.buffer.length > maxMessageSize then
          y.raise shim g calls i (.messageTooLarge y.buffer.length)
        else some y
    | _, _ => none
  | .read i =>
    match x.exchange.stage i, x.exchange.socket, splitLine x.buffer,
      (g.before i).request shim (calls i) with
    | .awaiting _, some _, some (line, rest), some r =>
      let y := { x with buffer := rest }
      match shim.fromJson line with
      | none => y.raise shim g calls i .unreadable
      | some response =>
        (x.exchange.step shim g calls (.reply i)).map fun exchange =>
          { y with exchange := exchange }.settle i (answered shim r response)
    | _, _, _, _ => none

end Gate

/-- A reply that lets a check return. -/
theorem allow_of_answered {F : Type} [Float64 F] {σ ν : Type} [DecidableEq σ] {shim : Language σ ν} {r : DecisionRequest σ ν} {response : Engine.DecisionResponse F}
    {result : DecisionResult} (h : answered shim r (readBack response) = .ok result) :
    response.seq.toNat = r.seq ∧ response.decision = .allow := by
  unfold answered at h
  split at h
  case isFalse => cases h
  case isTrue hechoes =>
    constructor
    · unfold echoes at hechoes
      rw [seq_readBack, runId_readBack] at hechoes
      dsimp only at hechoes
      rw [Bool.and_eq_true, decide_eq_true_eq] at hechoes
      exact Json.natText_injective hechoes.1
    · unfold handleDecision at h
      rw [decision_readBack] at h
      dsimp only at h
      cases hdecision : response.decision with
      | allow => rfl
      | _ =>
        rw [hdecision] at h
        simp [Decision.wire] at h

/-! ## The invariant -/

section Invariant

variable {F : Type} [Float64 F] [RequestReader F] [Globset] [TextTools] [Sha256] {σ ν : Type}
  [DecidableEq σ]

/-- The engine has allowed a check: it was handed what it had read in the line of
the check, and answered allow. -/
def Allowed (ctx : EnforcementContext F) (shim : Language σ ν) (g : Guard σ F)
    (calls : Nat → CheckArgs σ ν) (i : Nat) (s : Server F) : Prop :=
  ∃ k before env after q line, s.calls = before ++ (k, ⟨q, env⟩) :: after ∧
    g.line shim calls i = some line ∧ receive (F := F) line = some (.request q) ∧
    (Run.answer process ctx (before.map Prod.snd) ⟨q, env⟩).decision = .allow

/-- A check that has returned was allowed, or had no reply and the guard fails
open. -/
def Passed (ctx : EnforcementContext F) (shim : Language σ ν) (g : Guard σ F)
    (calls : Nat → CheckArgs σ ν) (i : Nat) (s : Server F) (result : DecisionResult) : Prop :=
  Allowed ctx shim g calls i s ∨ g.failOpen = true ∧ result = { decision := .str "allow" }

/-- The invariant of a gate. -/
structure Gate.Inv (ctx : EnforcementContext F) (shim : Language σ ν) (g : Guard σ F)
    (calls : Nat → CheckArgs σ ν) (x : Gate F) : Prop where
  order : x.exchange.InOrder ctx g
  owned : x.exchange.Owned shim g calls
  /-- What has been read of the connection are whole lines, and the buffer. -/
  reads : ∀ k, x.exchange.socket = some k → ∃ head, Whole newline head ∧
    head ++ x.buffer <+: (x.exchange.server.conns k).output ∧
    (head ++ x.buffer).length = x.taken
  sound : ∀ i result, x.result i = some (.ok result) →
    Passed ctx shim g calls i x.exchange.server result

variable {ctx : EnforcementContext F} {shim : Language σ ν} {g : Guard σ F}
  {calls : Nat → CheckArgs σ ν} {x y : Gate F}

omit [DecidableEq σ] in
theorem Passed.mono {i : Nat} {s t : Server F} {result : DecisionResult}
    (h : Passed ctx shim g calls i s result) (hcalls : s.calls <+: t.calls) :
    Passed ctx shim g calls i t result := by
  refine h.imp (fun hallowed => ?_) id
  obtain ⟨k, before, env, after, q, line, hs, hrest⟩ := hallowed
  obtain ⟨more, hmore⟩ := hcalls
  refine ⟨k, before, env, after ++ more, q, line, ?_, hrest⟩
  rw [← hmore, hs, List.append_assoc, List.cons_append]

omit [DecidableEq σ] in
theorem Gate.inv_start : (Gate.start ctx).Inv ctx shim g calls where
  order i _ := Exchange.inv_start
  owned k hk := by cases hk
  reads k hk := by cases hk
  sound i result h := by cases h

omit [DecidableEq σ] in
/-- An exchange moves on: what has been read stays read. -/
theorem Gate.Inv.exchange {event : ExchangeEvent F} {exchange : Exchange F} (hlines : shim.OneLine)
    (hnumber : ReadsNumber shim g calls) (h : x.Inv ctx shim g calls)
    (hstep : x.exchange.step shim g calls event = some exchange)
    (hevent : ∀ i k, event ≠ .connected i k) :
    Gate.Inv ctx shim g calls { x with exchange := exchange } := by
  have hgrows := (Exchange.moves_of_step hstep).grows
  refine ⟨h.order.step hlines hnumber hstep, h.owned.step hlines h.order hstep, fun k hk => ?_,
    fun i result hi => (h.sound i result hi).mono hgrows.1⟩
  rcases Exchange.socket_of_step hstep hevent with hsame | hnone
  · obtain ⟨head, hwhole, hprefix, hlength⟩ := h.reads k (hsame ▸ hk)
    exact ⟨head, hwhole, hprefix.trans (hgrows.2 k), hlength⟩
  · rw [show exchange.socket = some k from hk] at hnone
    cases hnone

omit [DecidableEq σ] in
/-- The buffer of a connection that is gone or new is empty. -/
theorem Gate.Inv.clear {event : ExchangeEvent F} {exchange : Exchange F} {taken : Nat}
    (hlines : shim.OneLine) (hnumber : ReadsNumber shim g calls) (h : x.Inv ctx shim g calls)
    (hstep : x.exchange.step shim g calls event = some exchange)
    (htaken : ∀ k, exchange.socket = some k → taken = 0) :
    Gate.Inv ctx shim g calls { x with exchange := exchange, buffer := [], taken := taken } := by
  have hgrows := (Exchange.moves_of_step hstep).grows
  refine ⟨h.order.step hlines hnumber hstep, h.owned.step hlines h.order hstep, fun k hk => ?_,
    fun i result hi => (h.sound i result hi).mono hgrows.1⟩
  exact ⟨[], .nil, List.nil_prefix, (htaken k hk).symm⟩

omit [DecidableEq σ] in
/-- A check ends as it may. -/
theorem Gate.Inv.settle {i : Nat} {outcome : Except GuardError DecisionResult}
    (h : x.Inv ctx shim g calls)
    (hpassed : ∀ result, outcome = .ok result →
      Passed ctx shim g calls i x.exchange.server result) :
    (x.settle i outcome).Inv ctx shim g calls := by
  refine ⟨h.order, h.owned, h.reads, fun j result hj => ?_⟩
  change Function.update x.result i (some outcome) j = some (.ok result) at hj
  by_cases hji : j = i
  · subst hji
    rw [Function.update_self] at hj
    exact hpassed result (Option.some.inj hj)
  · rw [Function.update_of_ne hji] at hj
    exact h.sound j result hj

omit [DecidableEq σ] in
theorem Gate.Inv.raise {i : Nat} {e : Failure} (hlines : shim.OneLine)
    (hnumber : ReadsNumber shim g calls) (h : x.Inv ctx shim g calls)
    (hstep : x.raise shim g calls i e = some y) : y.Inv ctx shim g calls := by
  obtain ⟨exchange, hexchange, rfl⟩ := Option.map_eq_some_iff.1 hstep
  split
  case isTrue hsettled =>
    refine (h.exchange hlines hnumber hexchange (fun _ _ hevent => by cases hevent)).settle ?_
    intro result hresult
    unfold Guard.unanswered at hresult
    split at hresult
    case isTrue hopen => exact .inr ⟨hopen, (Except.ok.inj hresult).symm⟩
    case isFalse => cases hresult
  case isFalse hactive =>
    refine h.clear hlines hnumber hexchange fun k hk => ?_
    rw [Exchange.socket_raise hexchange hactive] at hk
    cases hk

/-- A check that takes a line which says allow has been allowed. -/
theorem Gate.Inv.allowed {i k : Nat} {line rest : List UInt8} {r : DecisionRequest σ ν}
    {response : DecisionResponse} {result : DecisionResult} (hnumber : ReadsNumber shim g calls)
    (h : x.Inv ctx shim g calls) (hsocket : x.exchange.socket = some k)
    (hsplit : splitLine x.buffer = some (line, rest))
    (hr : (g.before i).request shim (calls i) = some r)
    (hresponse : shim.fromJson line = some response)
    (hresult : answered shim r response = .ok result) :
    Allowed ctx shim g calls i x.exchange.server := by
  obtain ⟨hline, hbuffer⟩ := splitLine_eq_some hsplit
  obtain ⟨head, hwhole, hprefix, -⟩ := h.reads k hsocket
  have hinv := h.order x.exchange.seq (Nat.le_refl _)
  obtain ⟨messages, responses, hmessages, houtput, hanswers, -⟩ :=
    (hinv.server.conns k).served.answers
  -- the line is one of the answers on this connection
  rw [hbuffer, houtput] at hprefix
  obtain ⟨answer, hanswer, rfl⟩ := mem_responses_of_line hwhole hline hprefix
  rw [shim.reads answer] at hresponse
  obtain rfl := Option.some.inj hresponse
  obtain ⟨hseq, hallow⟩ := allow_of_answered hresult
  obtain ⟨message, hmessage, hbelongs⟩ := exists_of_forall₂ hanswers hanswer
  cases message with
  | refused refusal =>
    -- what is refused is answered with a kill
    obtain ⟨ts, rfl⟩ := hbelongs
    cases hallow
  | request q =>
    obtain ⟨hechoes, before, env, after, hcalls, rfl⟩ := hbelongs
    have hcarried : q ∈ carried (F := F) (x.exchange.stream k) := by
      refine (carried_mono (List.prefix_append _ _)).subset ?_
      exact List.mem_filterMap.2 ⟨_, hmessages.subset hmessage, rfl⟩
    obtain ⟨j, line, hj, hreceive⟩ := h.owned k (hinv.socket k hsocket) q hcarried
    -- the number of the request is that of the check
    have hq : q.seq.toNat = g.number j := hnumber j line q hj hreceive
    have hrseq : r.seq = g.number i := by
      obtain ⟨hash, -, rfl⟩ := Option.map_eq_some_iff.1 hr
      rfl
    rw [hechoes.2, hq, hrseq] at hseq
    obtain rfl : j = i := by
      unfold Guard.number at hseq
      omega
    exact ⟨k, before, env, after, q, line, hcalls, hj, hreceive, hallow⟩

omit [DecidableEq σ] in
/-- A check reads a chunk. -/
theorem Gate.Inv.recv {k n : Nat} (h : x.Inv ctx shim g calls)
    (hsocket : x.exchange.socket = some k) {chunk : List UInt8}
    (hchunk : chunk = ((x.exchange.server.conns k).output.drop x.taken).take n) :
    Gate.Inv ctx shim g calls
      { x with buffer := x.buffer ++ chunk, taken := x.taken + chunk.length } := by
  refine ⟨h.order, h.owned, fun l hl => ?_, h.sound⟩
  obtain rfl : k = l := Option.some.inj (hsocket.symm.trans hl)
  obtain ⟨head, hwhole, ⟨more, hmore⟩, hlength⟩ := h.reads k hsocket
  rw [← hmore, ← hlength, List.drop_left] at hchunk
  refine ⟨head, hwhole, ?_, ?_⟩
  · show head ++ (x.buffer ++ chunk) <+: _
    rw [← hmore, ← List.append_assoc, hchunk]
    exact (List.prefix_append_right_inj _).2 (List.take_prefix _ _)
  · show (head ++ (x.buffer ++ chunk)).length = x.taken + chunk.length
    rw [← List.append_assoc, List.length_append, hlength]

omit [DecidableEq σ] in
/-- A check takes a line out of the buffer. -/
theorem Gate.Inv.consume {line rest : List UInt8} (h : x.Inv ctx shim g calls)
    (hsplit : splitLine x.buffer = some (line, rest)) :
    Gate.Inv ctx shim g calls { x with buffer := rest } := by
  refine ⟨h.order, h.owned, fun k hk => ?_, h.sound⟩
  obtain ⟨-, hbuffer⟩ := splitLine_eq_some hsplit
  obtain ⟨head, hwhole, hprefix, hlength⟩ := h.reads k hk
  have heq : head ++ (line ++ [newline]) ++ rest = head ++ x.buffer := by
    rw [hbuffer, List.append_assoc, List.append_assoc, List.singleton_append]
  refine ⟨head ++ (line ++ [newline]), .append_frame head line, ?_, ?_⟩
  · exact heq ▸ hprefix
  · exact heq ▸ hlength

/-- **What a step of the gate preserves.** -/
theorem Gate.Inv.step {event : GateEvent F} (hlines : shim.OneLine)
    (hnumber : ReadsNumber shim g calls) (h : x.Inv ctx shim g calls)
    (hstep : x.step shim g calls event = some y) : y.Inv ctx shim g calls := by
  cases event with
  | exchange event =>
    cases event with
    | raise i => cases hstep
    | reply i => cases hstep
    | check =>
      simp only [Gate.step] at hstep
      obtain ⟨exchange, hexchange, rfl⟩ := Option.map_eq_some_iff.1 hstep
      have hmoved := h.exchange hlines hnumber hexchange (fun _ _ hevent => by cases hevent)
      split
      · exact hmoved.settle (fun result hresult => by cases hresult)
      · exact hmoved
    | connected i k =>
      obtain ⟨exchange, hexchange, rfl⟩ := Option.map_eq_some_iff.1 hstep
      exact h.clear hlines hnumber hexchange (fun _ _ => rfl)
    | close =>
      simp only [Gate.step] at hstep
      obtain ⟨exchange, hexchange, rfl⟩ := Option.map_eq_some_iff.1 hstep
      refine h.clear hlines hnumber hexchange fun k hk => ?_
      obtain rfl := Option.some.inj hexchange
      rw [Exchange.socket_close] at hk
      cases hk
    | _ =>
      obtain ⟨exchange, hexchange, rfl⟩ := Option.map_eq_some_iff.1 hstep
      exact h.exchange hlines hnumber hexchange (fun _ _ hevent => by cases hevent)
  | raise i e => exact h.raise hlines hnumber hstep
  | recv i n =>
    simp only [Gate.step] at hstep
    split at hstep
    case h_1 attempt k hstage hsocket =>
      split at hstep
      · cases hstep
      · have hread := h.recv (n := n) hsocket rfl
        split at hstep
        · exact hread.raise hlines hnumber hstep
        · obtain rfl := Option.some.inj hstep
          exact hread
    case h_2 => cases hstep
  | read i =>
    simp only [Gate.step] at hstep
    split at hstep
    case h_1 attempt k line rest r hstage hsocket hsplit hr =>
      have hconsumed := h.consume hsplit
      split at hstep
      case h_1 => exact hconsumed.raise hlines hnumber hstep
      case h_2 response hresponse =>
        obtain ⟨exchange, hexchange, rfl⟩ := Option.map_eq_some_iff.1 hstep
        refine (hconsumed.exchange hlines hnumber hexchange
          (fun _ _ hevent => by cases hevent)).settle fun result hresult => ?_
        have hgrows := (Exchange.moves_of_step hexchange).grows
        have hallowed := h.allowed hnumber hsocket hsplit hr hresponse hresult
        exact (Passed.mono (.inl hallowed) hgrows.1 : Passed ctx shim g calls i _ result)
    case h_2 => cases hstep

end Invariant

/-! ## The audit log -/

section Log

variable {F : Type} [Float64 F] [Sha256]

/-- A file only grows. -/
theorem disk_writeEvent (w : AuditWriter) (e : AuditEvent F) (io : WriteIo) :
    w.disk <+: (w.writeEvent e io).2.disk := by
  cases io with
  | ok => exact List.prefix_append _ _
  | failed stage error onDisk => exact List.prefix_append _ _

/-- A write that succeeds puts the line of its event into the file. -/
theorem line_of_writeEvent (w : AuditWriter) (e : AuditEvent F) {io : WriteIo}
    (h : io.succeeds = true) :
    Text.utf8 (w.sealed e).line ++ [newline] <:+: (w.writeEvent e io).2.disk := by
  rw [WriteIo.eq_ok h]
  refine ⟨w.disk ++ w.buf, [], ?_⟩
  show w.disk ++ w.buf ++ (Text.utf8 (w.sealed e).line ++ [newline]) ++ [] =
    w.disk ++ (w.buf ++ Text.utf8 (w.sealed e).line ++ [10])
  simp [newline]

theorem disk_handOver (w : AuditWriter) (es : List (AuditEvent F × WriteIo)) :
    w.disk <+: (w.handOver es).disk := by
  induction es generalizing w with
  | nil => exact List.prefix_rfl
  | cons e es ih => exact (disk_writeEvent w e.1 e.2).trans (ih _)

variable [Globset] [TextTools]

theorem disk_process (ctx : EnforcementContext F) (c : Call F) :
    ctx.auditWriter.disk <+: (process ctx c).1.auditWriter.disk := by
  show _ <+: (enforce c.request c.env ctx).2.auditWriter.disk
  rw [auditWriter_submitted]
  exact disk_handOver _ _

theorem disk_stateAfter_grows (ctx : EnforcementContext F) (cs : List (Call F)) :
    ctx.auditWriter.disk <+: (Run.stateAfter process ctx cs).auditWriter.disk := by
  induction cs generalizing ctx with
  | nil => exact List.prefix_rfl
  | cons c cs ih => exact (disk_process ctx c).trans (ih _)

/-- A file holds the line of the event that records an allowance. -/
structure HoldsAllow (q : Engine.DecisionRequest F) (e : AuditEvent F) (disk : List UInt8) :
    Prop where
  eventType : e.eventType = "policy_decision"
  runId : e.runId = q.runId
  seq : e.seq = q.seq
  tool : e.tool = some q.tool
  argsHash : e.argsHash = some q.argsHash
  decision : e.decision = some "allow"
  line : Text.utf8 e.line ++ [newline] <:+: disk

/-- **No allowance without its record.**  A call of `enforce` that answers allow
has written its decision event. -/
theorem recorded_of_allow {q : Engine.DecisionRequest F} {env : CallEnv F}
    {ctx : EnforcementContext F} (h : (enforce q env ctx).1.decision = .allow) :
    ∃ e, HoldsAllow q e (enforce q env ctx).2.auditWriter.disk := by
  cases hio : env.decisionIo.succeeds with
  | false =>
    obtain ⟨e, he⟩ : ∃ e, (enforce q env ctx).1 = auditFailureResponse q e env.failureTs :=
      enforce_failed hio
    rw [he] at h
    cases h
  | true =>
    rw [enforce_ok hio] at h
    refine ⟨ctx.auditWriter.sealed (decisionEvent q ctx.policy
      (q.argsRedacted.map ctx.redactor.redact) (outcome q env ctx) (telemetry q env ctx).1 env),
      rfl, rfl, rfl, rfl, rfl, ?_, ?_⟩
    · exact congrArg (fun d => some (Decision.wire d)) h
    · rw [auditWriter_submitted]
      exact (line_of_writeEvent _ _ hio).trans (disk_handOver _ _).isInfix

end Log

section Theorem

variable {F : Type} [Float64 F] [RequestReader F] [Globset] [TextTools] [Sha256] {σ ν : Type}
  [DecidableEq σ] {shim : Language σ ν} {g : Guard σ F} {calls : Nat → CheckArgs σ ν}

/-- **Complete mediation.**  Whatever the other clients of the engine do, however
the bytes are cut, whatever is late, lost or sent again: a check that returns, so
that its function runs, was allowed by the engine on what it had read in the line
of this very check, and the audit log holds that decision; or the guard fails
open and `check` has made up the allowance itself. -/
theorem runs_only_what_is_allowed (hlines : shim.OneLine) (hnumber : ReadsNumber shim g calls)
    {ctx : EnforcementContext F} {events : List (GateEvent F)} {x : Gate F}
    (hrun : Run.exec (Gate.step shim g calls) (.start ctx) events = some x)
    {i : Nat} {result : DecisionResult} (hresult : x.result i = some (.ok result)) :
    (∃ line q e, g.line shim calls i = some line ∧
        receive (F := F) line = some (.request q) ∧ q.seq.toNat = g.number i ∧
        HoldsAllow q e x.exchange.server.ctx.auditWriter.disk) ∨
      g.failOpen = true ∧ result = { decision := .str "allow" } := by
  have hinv : x.Inv ctx shim g calls :=
    Run.exec_invariant _ (fun _ _ _ h _ hstep => h.step hlines hnumber hstep) Gate.inv_start
      (.of_mem _ (fun _ _ _ => trivial) _) hrun
  refine (hinv.sound i result hresult).imp (fun hallowed => ?_) id
  obtain ⟨k, before, env, after, q, line, hcalls, hline, hreceive, hallow⟩ := hallowed
  have henforce : (enforce q env (Run.stateAfter process ctx (before.map Prod.snd))).1.decision =
      .allow := hallow
  obtain ⟨e, he⟩ := recorded_of_allow henforce
  refine ⟨line, q, e, hline, hreceive, hnumber i line q hline hreceive, ?_⟩
  have hctx := (hinv.order x.exchange.seq (Nat.le_refl _)).server.ctx_eq
  rw [hcalls, List.map_append, List.map_cons, Run.stateAfter_append, Run.stateAfter] at hctx
  rw [hctx]
  exact { he with line := he.line.trans (disk_stateAfter_grows _ _).isInfix }

end Theorem

namespace Sample

open Engine.Sample

/-- A guard that fails closed. -/
def strictGuard : Guard Py.Str ℚ := { guard Py.lit with failOpen := false }

theorem readsNumber_strict : ReadsNumber (F := ℚ) Py.language strictGuard searches :=
  readsNumber_searches

/-- A check is sent, enforced and answered. -/
def answers : List (ExchangeEvent ℚ) :=
  [.check, .ensureConnected 0, .connected 0 0, .write 0, .deliver 0 8192] ++ enforces 0 ++
    [.server (.conn 0 .respond)]

/-- Its reply comes in two pieces. -/
def allowed : List (GateEvent ℚ) :=
  answers.map .exchange ++ [.recv 0 40, .recv 0 8192, .read 0]

end Sample

open Engine.Sample Sample in
theorem runs_only_what_is_allowed_search :
    ∃ x, Run.exec (Gate.step Py.language strictGuard searches)
        (.start (.new (compiled none none) "audit.jsonl" [])) allowed = some x ∧
      ∃ (q : Engine.DecisionRequest ℚ) (e : AuditEvent ℚ), q.seq.toNat = strictGuard.number 0 ∧
        HoldsAllow q e x.exchange.server.ctx.auditWriter.disk := by
  have hreturns : (Run.exec (Gate.step Py.language strictGuard searches)
      (.start (.new (compiled none none) "audit.jsonl" [])) allowed).map
        (fun x => (x.result 0).any Except.isOk) = some true := by decide +kernel
  obtain ⟨x, hx, hok⟩ := Option.map_eq_some_iff.1 hreturns
  refine ⟨x, hx, ?_⟩
  cases hresult : x.result 0 with
  | none =>
    rw [hresult] at hok
    cases hok
  | some outcome =>
    cases outcome with
    | error e =>
      rw [hresult] at hok
      cases hok
    | ok result =>
      rcases runs_only_what_is_allowed (Py.oneLine Json.isNumber_intText) readsNumber_strict hx
        hresult with ⟨line, q, e, -, -, hseq, he⟩ | ⟨hopen, -⟩
      · exact ⟨q, e, hseq, he⟩
      · cases hopen

end LoopStorm.Shim
