import LoopStorm.Shim.Connection
import LoopStorm.Shim.FailOpen
import LoopStorm.Shim.Retry

/-!
# Overlapping checks of a TypeScript guard

`Guard.check` and `Guard.send` of `guard.ts` over the shared connection, with
any number of checks under way at once.  The only defence against another
check's reply is the echo of the run id and the number.

* `GuardState`, `GuardState.step` — the checks and their connection; a check is
  one call of `request`, and one more after a reconnect when that is rejected.
* `taken` — the lines the listeners of a socket take when a chunk arrives, each
  of which appends it to the one buffer.
* `Framed` — every line that is taken is a line the engine wrote.
* `Echoing` — what the engine answers: a refusal, or the echo of the request.
* `GuardState.Inv` — where replies come from; `Inv.step` is what one step
  preserves.
* `allowed_of_framed` — **soundness**: a check that goes through was allowed, in
  runs whose lines are not mixed up.
* `allows_what_is_denied` — **a denied check goes through** when two listeners
  share a chunk.
-/

namespace LoopStorm.Shim

open LoopStorm.Engine hiding DecisionRequest DecisionResponse Phase

/-! ## The guard and its connection -/

/-- A guard with checks under way. -/
structure GuardState (F : Type) [Float64 F] where
  conn : EngineConnection F
  /-- The number of checks begun. -/
  seq : Nat

/-- What may happen. -/
inductive GuardEvent (F : Type) [Float64 F] where
  /-- the next check begins -/
  | check
  /-- the first request of a check has been rejected: reconnect and send again -/
  | retry (i : Nat)
  | conn (event : EngineConnection.Event F)

/-- The two calls of `request` a check may make. -/
def firstCall (i : Nat) : Nat := 2 * i

/-- The call after the reconnect. -/
def secondCall (i : Nat) : Nat := 2 * i + 1

/-- The check a call of `request` belongs to. -/
def checkOf (j : Nat) : Nat := j / 2

@[simp] theorem checkOf_firstCall (i : Nat) : checkOf (firstCall i) = i := by
  unfold checkOf firstCall
  omega

@[simp] theorem checkOf_secondCall (i : Nat) : checkOf (secondCall i) = i := by
  unfold checkOf secondCall
  omega

/-- What the guard knows of a rejection. -/
def Rejection.failure : Rejection → Failure
  | .engineUnavailable _ => .connectionLost
  | .connectionClosed => .connectionLost
  | .messageTooLarge size => .messageTooLarge size
  | .syntaxError => .unreadable

section Guard

variable {ν F : Type} [NumberText ν] [Float64 F] [Sha256] (g : Guard Ts.Str F)
  (calls : Nat → CheckArgs Ts.Str ν)

/-- The request of a check, counted from 0. -/
def Guard.checkRequest (i : Nat) : Option (DecisionRequest Ts.Str ν) :=
  (g.before i).request Ts.language (calls i)

/-- Before the first check. -/
def GuardState.new : GuardState F := ⟨.new, 0⟩

/-- A step; `none` when it cannot be taken. -/
def GuardState.step (x : GuardState F) : GuardEvent F → Option (GuardState F)
  | .check =>
    if x.conn.crashed then none
    else
      match g.checkRequest calls x.seq with
      | none => some { x with seq := x.seq + 1 }
      | some r =>
        some ⟨x.conn.request (firstCall x.seq) (Ts.toNdjson r), x.seq + 1⟩
  | .retry i =>
    if x.conn.crashed then none
    else
      match x.conn.phase (firstCall i), x.conn.phase (secondCall i), g.checkRequest calls i with
      | .rejected _, .idle, some r =>
        some { x with conn := x.conn.close.request (secondCall i) (Ts.toNdjson r) }
      | _, _, _ => none
  | .conn event => (x.conn.step event).map fun conn => { x with conn := conn }

/-- What becomes of a check, once it is settled. -/
def GuardState.result (x : GuardState F) (i : Nat) : Option (Except GuardError DecisionResult) :=
  match g.checkRequest calls i with
  | none => some (.error .unhashable)
  | some r =>
    match x.conn.phase (firstCall i) with
    | .resolved reply => some (settle Ts.language r reply)
    | .rejected _ =>
      match x.conn.phase (secondCall i) with
      | .resolved reply => some (settle Ts.language r reply)
      | .rejected e =>
        some (if g.failOpen then .ok { decision := .str "allow" }
          else .error (.engineUnavailable e.failure))
      | _ => none
    | _ => none

end Guard

/-! ## The conditions -/

section Conditions

variable {ν F : Type} [NumberText ν] [Float64 F] [Sha256]

/-- The lines that `n` listeners take one after the other, each of which appends
the chunk to the buffer. -/
def taken (chunk : List UInt8) : Nat → List UInt8 → List (List UInt8)
  | 0, _ => []
  | n + 1, buffer =>
    let buffer := buffer ++ chunk
    if buffer.length > maxMessageSize then taken chunk n buffer
    else
      match splitLine buffer with
      | none => taken chunk n buffer
      | some (line, rest) => line :: taken chunk n rest

/-- A line the engine wrote, in answer to whatever request. -/
def EngineConnection.Wrote (c : EngineConnection F) (line : List UInt8) : Prop :=
  ∃ p ∈ c.answers, line = responseBytes p.2

instance (c : EngineConnection F) (line : List UInt8) : Decidable (c.Wrote line) :=
  inferInstanceAs (Decidable (∃ p ∈ c.answers, line = responseBytes p.2))

/-- A line that is taken from the buffer in this step is one the engine wrote. -/
def Framed (x : GuardState F) : GuardEvent F → Prop
  | .conn (.data k n) =>
    ∀ line ∈ taken ((x.conn.socks k).inFlight.take n) (x.conn.socks k).listeners.length
      x.conn.buffer, x.conn.Wrote line
  | .conn (.written _) => ∀ p ∈ splitLine x.conn.buffer, x.conn.Wrote p.1
  | _ => True

instance (x : GuardState F) : ∀ event, Decidable (Framed x event)
  | .conn (.data k n) =>
    inferInstanceAs (Decidable (∀ line ∈ taken ((x.conn.socks k).inFlight.take n)
      (x.conn.socks k).listeners.length x.conn.buffer, x.conn.Wrote line))
  | .conn (.written _) =>
    inferInstanceAs (Decidable (∀ p ∈ splitLine x.conn.buffer, x.conn.Wrote p.1))
  | .check | .retry _ | .conn (.connected _) | .conn (.connectFailed ..) | .conn (.writeFailed ..)
  | .conn (.answer ..) | .conn (.timeout _) | .conn (.error ..) | .conn (.closed _)
  | .conn .close => inferInstanceAs (Decidable True)

/-- The echo of a check's request. -/
def EchoesCheck (g : Guard Ts.Str F) (calls : Nat → CheckArgs Ts.Str ν) (i : Nat)
    (r : Engine.DecisionResponse F) : Prop :=
  ∃ request ∈ g.checkRequest calls i,
    r.seq.toNat = request.seq ∧ Ts.lit r.runId = request.runId

/-- The engine answers a request with its echo, and what it refuses with kill. -/
def Echoing (g : Guard Ts.Str F) (calls : Nat → CheckArgs Ts.Str ν) (x : GuardState F) :
    GuardEvent F → Prop
  | .conn (.answer k r) =>
    ∀ j ∈ (x.conn.socks k).due.head?, r.decision = .kill ∨ EchoesCheck g calls (checkOf j) r
  | _ => True

instance (g : Guard Ts.Str F) (calls : Nat → CheckArgs Ts.Str ν) (x : GuardState F) :
    ∀ event, Decidable (Echoing g calls x event)
  | .conn (.answer k r) =>
    inferInstanceAs (Decidable (∀ j ∈ (x.conn.socks k).due.head?, r.decision = .kill ∨
      ∃ request ∈ g.checkRequest calls (checkOf j),
        r.seq.toNat = request.seq ∧ Ts.lit r.runId = request.runId))
  | .check | .retry _ | .conn (.connected _) | .conn (.connectFailed ..) | .conn (.writeFailed ..)
  | .conn (.written _) | .conn (.data ..) | .conn (.timeout _) | .conn (.error ..)
  | .conn (.closed _) | .conn .close => inferInstanceAs (Decidable True)

end Conditions

/-! ## Where replies come from -/

/-- The call has its line and has not written it yet. -/
def Phase.isActive : Phase → Bool
  | .connecting _ | .writing _ => true
  | _ => false

namespace EngineConnection

variable {F : Type} [Float64 F] {P : DecisionResponse → Prop} {c d e : EngineConnection F}

/-- What most steps leave: the answers, what is due, and the calls that still
are to write; new replies satisfy `P`. -/
structure Keeps (P : DecisionResponse → Prop) (c d : EngineConnection F) : Prop where
  answers : d.answers = c.answers
  due : ∀ k, (d.socks k).due = (c.socks k).due
  active : ∀ j, (d.phase j).isActive = true → (c.phase j).isActive = true
  replies : ∀ j reply, d.phase j = .resolved reply → c.phase j = .resolved reply ∨ P reply

theorem Keeps.of_eq (hanswers : d.answers = c.answers) (hsocks : d.socks = c.socks)
    (hphase : d.phase = c.phase) : Keeps P c d := by
  refine ⟨hanswers, fun k => by rw [hsocks], fun j h => ?_, fun j reply h => .inl ?_⟩
  · rwa [hphase] at h
  · rwa [hphase] at h

theorem Keeps.trans (h : Keeps P c d) (h' : Keeps P d e) : Keeps P c e := by
  refine ⟨h'.answers.trans h.answers, fun k => (h'.due k).trans (h.due k),
    fun j hj => h.active j (h'.active j hj), fun j reply hj => ?_⟩
  rcases h'.replies j reply hj with hj | hP
  · exact h.replies j reply hj
  · exact .inr hP

theorem Keeps.setSock {k : Nat} {s : Sock} (hdue : s.due = (c.socks k).due) :
    Keeps P c (c.setSock k s) := by
  refine ⟨rfl, fun l => ?_, fun _ h => h, fun _ _ h => .inl h⟩
  by_cases hl : l = k
  · subst hl
    rw [socks_setSock, hdue]
  · rw [socks_setSock_of_ne c hl]

theorem Keeps.setPhase {i : Nat} {p : Phase}
    (hactive : p.isActive = true → (c.phase i).isActive = true)
    (hreply : ∀ reply, p = .resolved reply → P reply) : Keeps P c (c.setPhase i p) := by
  refine ⟨rfl, fun _ => rfl, fun j hj => ?_, fun j reply hj => ?_⟩
  · by_cases hji : j = i
    · subst hji
      rw [phase_setPhase] at hj
      exact hactive hj
    · rwa [phase_setPhase_of_ne c hji] at hj
  · by_cases hji : j = i
    · subst hji
      rw [phase_setPhase] at hj
      exact .inr (hreply reply hj)
    · rw [phase_setPhase_of_ne c hji] at hj
      exact .inl hj

/-- A call ends without a reply, or is never settled. -/
theorem Keeps.rejected (i : Nat) (r : Rejection) : Keeps P c (c.setPhase i (.rejected r)) :=
  .setPhase (fun h => by cases h) (fun _ h => by cases h)

theorem Keeps.pending (i : Nat) : Keeps P c (c.setPhase i .pending) :=
  .setPhase (fun h => by cases h) (fun _ h => by cases h)

theorem Keeps.send {i : Nat} (hi : (c.phase i).isActive = true) : Keeps P c (c.send i) := by
  unfold EngineConnection.send
  split
  · exact .rejected i _
  · split
    · exact .setPhase (fun _ => hi) (fun _ h => by cases h)
    · exact .pending i

theorem Keeps.rejectListeners (k : Nat) (r : Rejection) : Keeps P c (c.rejectListeners k r) := by
  refine ⟨rfl, fun l => ?_, fun j hj => ?_, fun j reply hj => ?_⟩
  · have hsock : Keeps P c (c.setSock k { c.socks k with listeners := [] }) := .setSock rfl
    exact hsock.due l
  · change (if j ∈ (c.socks k).listeners then Phase.rejected r else c.phase j).isActive = true at hj
    split at hj
    · cases hj
    · exact hj
  · change (if j ∈ (c.socks k).listeners then Phase.rejected r else c.phase j) = _ at hj
    split at hj
    · cases hj
    · exact .inl hj

theorem Keeps.close : Keeps P c c.close := by
  unfold EngineConnection.close
  split
  · exact .of_eq rfl rfl rfl
  case h_2 k _ =>
    have hsock : Keeps P c (c.setSock k (c.socks k).shut) := .setSock rfl
    exact hsock.trans (.of_eq rfl rfl rfl)

/-- One listener takes a line, or nothing. -/
theorem Keeps.onData (k : Nat) (chunk : List UInt8) (i : Nat)
    (hlines : ∀ line rest, ¬ (c.buffer ++ chunk).length > maxMessageSize →
      splitLine (c.buffer ++ chunk) = some (line, rest) →
        ∀ reply, Ts.fromJson line = some reply → P reply) : Keeps P c (onData k chunk c i) := by
  set b : EngineConnection F := { c with buffer := c.buffer ++ chunk } with hb
  have hbuffer : Keeps P c b := .of_eq rfl rfl rfl
  have hcleanup : Keeps P c (b.cleanup k i) := hbuffer.trans (.setSock rfl)
  unfold EngineConnection.onData
  split
  · exact .of_eq rfl rfl rfl
  · dsimp only
    split
    · exact hcleanup.trans (.rejected i _)
    case isFalse hsmall =>
      split
      · exact hbuffer
      case h_2 line rest hsplit =>
        have htaken : Keeps P c { b.cleanup k i with buffer := rest } :=
          hcleanup.trans (.of_eq rfl rfl rfl)
        split
        case h_1 reply hreply =>
          refine htaken.trans (.setPhase (fun h => by cases h) (fun r hr => ?_))
          cases hr
          exact hlines line rest hsmall hsplit reply hreply
        case h_2 => exact htaken.trans (.trans (.pending i) (.of_eq rfl rfl rfl))

/-- After a crash the other listeners do nothing. -/
theorem foldl_onData_of_crashed (k : Nat) (chunk : List UInt8) (is : List Nat)
    (h : c.crashed = true) : is.foldl (onData k chunk) c = c := by
  induction is with
  | nil => rfl
  | cons i is ih =>
    have hi : EngineConnection.onData k chunk c i = c := if_pos h
    rw [List.foldl_cons, hi, ih]

/-- What a listener leaves in the buffer. -/
theorem buffer_onData (k : Nat) (chunk : List UInt8) (i : Nat) (h : c.crashed = false) :
    (onData k chunk c i).buffer =
      if (c.buffer ++ chunk).length > maxMessageSize then c.buffer ++ chunk
      else ((splitLine (c.buffer ++ chunk)).map Prod.snd).getD (c.buffer ++ chunk) := by
  unfold EngineConnection.onData
  rw [if_neg (by rw [h]; exact Bool.false_ne_true)]
  dsimp only
  split
  · rfl
  · split
    case h_1 hsplit =>
      rw [hsplit]
      rfl
    case h_2 line rest hsplit =>
      rw [hsplit]
      split
      · rfl
      · rfl

/-- The listeners take the lines one after the other. -/
theorem Keeps.foldl_onData (k : Nat) (chunk : List UInt8) (is : List Nat)
    (hlines : ∀ line ∈ taken chunk is.length c.buffer, ∀ reply, Ts.fromJson line = some reply →
      P reply) : Keeps P c (is.foldl (EngineConnection.onData k chunk) c) := by
  induction is generalizing c with
  | nil => exact .of_eq rfl rfl rfl
  | cons i is ih =>
    cases hup : c.crashed with
    | true =>
      rw [foldl_onData_of_crashed k chunk _ hup]
      exact .of_eq rfl rfl rfl
    | false =>
      rw [List.length_cons, taken] at hlines
      have hbuffer := buffer_onData k chunk i hup
      rw [List.foldl_cons]
      by_cases hlarge : (c.buffer ++ chunk).length > maxMessageSize
      · rw [if_pos hlarge] at hlines hbuffer
        refine Keeps.trans (.onData k chunk i fun _ _ hsmall => absurd hlarge hsmall) (ih ?_)
        rwa [hbuffer]
      · rw [if_neg hlarge] at hlines hbuffer
        cases hsplit : splitLine (c.buffer ++ chunk) with
        | none =>
          rw [hsplit] at hlines hbuffer
          refine Keeps.trans (.onData k chunk i fun _ _ _ h => ?_) (ih ?_)
          · rw [hsplit] at h
            cases h
          · rwa [hbuffer]
        | some p =>
          obtain ⟨line, rest⟩ := p
          rw [hsplit] at hlines hbuffer
          refine Keeps.trans (.onData k chunk i fun l r _ h => ?_) (ih ?_)
          · rw [hsplit] at h
            cases h
            exact hlines line (List.mem_cons_self ..)
          · rw [hbuffer]
            exact fun l hl => hlines l (List.mem_cons_of_mem _ hl)

/-- A call takes its reply from the buffer, or listens. -/
theorem Keeps.recvResponse {i : Nat} (hlines : ∀ p ∈ splitLine c.buffer, ∀ reply,
    Ts.fromJson p.1 = some reply → P reply) : Keeps P c (c.recvResponse i) := by
  unfold EngineConnection.recvResponse
  split
  · exact .rejected i _
  case h_2 k _ =>
    split
    case h_1 line rest hsplit =>
      dsimp only
      split
      case h_1 reply hreply =>
        refine Keeps.trans (d := { c with buffer := rest }) (.of_eq rfl rfl rfl)
          (.setPhase (fun h => by cases h) (fun r hr => ?_))
        cases hr
        exact hlines (line, rest) hsplit reply hreply
      case h_2 =>
        exact Keeps.trans (d := { c with buffer := rest }) (.of_eq rfl rfl rfl) (.rejected i _)
    case h_2 =>
      have hlisten : Keeps P c (c.setSock k ((c.socks k).listen i)) := .setSock rfl
      exact hlisten.trans (.setPhase (fun h => by cases h) (fun _ h => by cases h))

end EngineConnection

/-! ## The invariant -/

section Invariant

variable {ν F : Type} [NumberText ν] [Float64 F] [Sha256] {g : Guard Ts.Str F}
  {calls : Nat → CheckArgs Ts.Str ν} {c d : EngineConnection F} {x y : GuardState F} {n : Nat}

/-- Where everything on the connection comes from. -/
structure EngineConnection.Origin (g : Guard Ts.Str F) (calls : Nat → CheckArgs Ts.Str ν)
    (c : EngineConnection F) : Prop where
  /-- A reply is something the engine wrote, for whichever call. -/
  replies : ∀ j reply, c.phase j = .resolved reply → ∃ p ∈ c.answers, reply = readBack p.2
  answers : ∀ p ∈ c.answers, p.2.decision = .kill ∨ EchoesCheck g calls (checkOf p.1) p.2
  /-- A call sends the request of its check. -/
  lines : ∀ j, c.line j ≠ [] →
    ∃ request ∈ g.checkRequest calls (checkOf j), c.line j = Ts.toNdjson request
  active : ∀ j, (c.phase j).isActive = true → c.line j ≠ []
  due : ∀ k, ∀ j ∈ (c.socks k).due, c.line j ≠ []
  answered : ∀ p ∈ c.answers, c.line p.1 ≠ []

open EngineConnection

theorem EngineConnection.Origin.new : Origin g calls .new := by
  refine ⟨?_, ?_, ?_, ?_, ?_, ?_⟩
  · intro j reply h
    cases h
  · intro p hp
    cases hp
  · exact fun j h => absurd rfl h
  · intro j h
    cases h
  · intro k j hj
    cases hj
  · intro p hp
    cases hp

theorem EngineConnection.Origin.of_keeps (h : Origin g calls c)
    (hkeeps : Keeps (fun reply => ∃ p ∈ c.answers, reply = readBack p.2) c d)
    (hline : d.line = c.line) : Origin g calls d := by
  refine ⟨fun j reply hj => ?_, ?_, ?_, fun j hj => ?_, fun k j hj => ?_, ?_⟩
  · rw [hkeeps.answers]
    rcases hkeeps.replies j reply hj with hj | hwrote
    · exact h.replies j reply hj
    · exact hwrote
  · rw [hkeeps.answers]
    exact h.answers
  · rw [hline]
    exact h.lines
  · rw [hline]
    exact h.active j (hkeeps.active j hj)
  · rw [hkeeps.due] at hj
    rw [hline]
    exact h.due k j hj
  · rw [hkeeps.answers, hline]
    exact h.answered

theorem EngineConnection.Origin.setPhase {i : Nat} {p : Phase} (h : Origin g calls c)
    (hi : c.line i ≠ []) (hp : ∀ reply, p ≠ .resolved reply) :
    Origin g calls (c.setPhase i p) := by
  refine ⟨fun j reply hj => ?_, h.answers, h.lines, fun j hj => ?_, h.due, h.answered⟩
  · by_cases hji : j = i
    · subst hji
      rw [phase_setPhase] at hj
      exact absurd hj (hp reply)
    · rw [phase_setPhase_of_ne c hji] at hj
      exact h.replies j reply hj
  · by_cases hji : j = i
    · subst hji
      exact hi
    · rw [phase_setPhase_of_ne c hji] at hj
      exact h.active j hj

omit [Sha256] in
theorem toNdjson_ne_nil (r : DecisionRequest Ts.Str ν) : Ts.toNdjson r ≠ [] := by
  unfold Ts.toNdjson
  simp

/-- A check calls `request` with its request. -/
theorem EngineConnection.Origin.request {i j : Nat} {r : DecisionRequest Ts.Str ν}
    (h : Origin g calls c) (hj : checkOf j = i) (hr : g.checkRequest calls i = some r) :
    Origin g calls (c.request j (Ts.toNdjson r)) := by
  set b : EngineConnection F := { c with line := Function.update c.line j (Ts.toNdjson r) } with hb
  have hself : b.line j = Ts.toNdjson r := Function.update_self ..
  have hother : ∀ l, l ≠ j → b.line l = c.line l := fun l hl => Function.update_of_ne hl ..
  have hne : ∀ l, c.line l ≠ [] → b.line l ≠ [] := by
    intro l hl
    by_cases hlj : l = j
    · rw [hlj, hself]
      exact toNdjson_ne_nil r
    · rwa [hother l hlj]
  have hdj : b.line j ≠ [] := hself ▸ toNdjson_ne_nil r
  have horigin : Origin g calls b := by
    refine ⟨h.replies, h.answers, fun l hl => ?_, fun l hl => hne l (h.active l hl),
      fun k l hl => hne l (h.due k l hl), fun p hp => hne p.1 (h.answered p hp)⟩
    by_cases hlj : l = j
    · subst hlj
      rw [hj]
      exact ⟨r, hr, hself⟩
    · rw [hother l hlj] at hl ⊢
      exact h.lines l hl
  unfold EngineConnection.request
  dsimp only
  split
  · show Origin g calls (b.send j)
    unfold EngineConnection.send
    split
    · exact horigin.setPhase hdj (fun _ h => by cases h)
    · split
      · exact horigin.setPhase hdj (fun _ h => by cases h)
      · exact horigin.setPhase hdj (fun _ h => by cases h)
  · have hconnecting : Origin g calls (b.setPhase j (.connecting b.made)) :=
      horigin.setPhase hdj (fun _ h => by cases h)
    exact hconnecting.of_keeps (d := { b.setPhase j (.connecting b.made) with made := b.made + 1 })
      (.of_eq rfl rfl rfl) rfl

/-- The engine has read the request of a call. -/
theorem EngineConnection.Origin.received {i k : Nat} (h : Origin g calls c)
    (hi : c.line i ≠ []) : Origin g calls (c.setSock k ((c.socks k).received i)) := by
  refine ⟨h.replies, h.answers, h.lines, h.active, fun l j hj => ?_, h.answered⟩
  by_cases hl : l = k
  · subst hl
    rw [socks_setSock] at hj
    rcases List.mem_append.1 hj with hj | hj
    · exact h.due l j hj
    · rw [List.mem_singleton.1 hj]
      exact hi
  · rw [socks_setSock_of_ne c hl] at hj
    exact h.due l j hj

/-- The engine answers the first request due. -/
theorem EngineConnection.Origin.answer {j k : Nat} {due : List Nat} {bytes : List UInt8}
    {r : Engine.DecisionResponse F} (h : Origin g calls c) (hdue : (c.socks k).due = j :: due)
    (hr : r.decision = .kill ∨ EchoesCheck g calls (checkOf j) r) :
    Origin g calls { c.setSock k ((c.socks k).answered due bytes) with
      answers := c.answers ++ [(j, r)] } := by
  have hj : c.line j ≠ [] := h.due k j (hdue ▸ List.mem_cons_self ..)
  refine ⟨fun l reply hl => ?_, fun p hp => ?_, h.lines, h.active, fun l m hm => ?_,
    fun p hp => ?_⟩
  · obtain ⟨p, hp, hreply⟩ := h.replies l reply hl
    exact ⟨p, List.mem_append_left _ hp, hreply⟩
  · rcases List.mem_append.1 hp with hp | hp
    · exact h.answers p hp
    · rw [List.mem_singleton.1 hp]
      exact hr
  · change m ∈ ((c.setSock k ((c.socks k).answered due bytes)).socks l).due at hm
    by_cases hl : l = k
    · subst hl
      rw [socks_setSock] at hm
      refine h.due l m ?_
      rw [hdue]
      exact List.mem_cons_of_mem _ hm
    · rw [socks_setSock_of_ne c hl] at hm
      exact h.due l m hm
  · rcases List.mem_append.1 hp with hp | hp
    · exact h.answered p hp
    · rw [List.mem_singleton.1 hp]
      exact hj

/-- **What an event on the connection preserves.** -/
theorem EngineConnection.Origin.step {event : EngineConnection.Event F} (h : Origin g calls c)
    (hframed : Framed ⟨c, n⟩ (.conn event)) (hecho : Echoing g calls ⟨c, n⟩ (.conn event))
    (hstep : c.step event = some d) : Origin g calls d := by
  have hline := line_step hstep
  -- what the engine wrote is read as the response it is
  have hread : ∀ line, c.Wrote line → ∀ reply, Ts.fromJson line = some reply →
      ∃ p ∈ c.answers, reply = readBack p.2 := by
    rintro line ⟨p, hp, rfl⟩ reply hreply
    rw [(fromJson_responseBytes p.2).1] at hreply
    exact ⟨p, hp, (Option.some.inj hreply).symm⟩
  unfold EngineConnection.step at hstep
  split at hstep
  case isTrue => cases hstep
  case isFalse hup =>
    cases event with
    | connected i =>
      dsimp only at hstep
      split at hstep
      case h_1 k hphase =>
        obtain rfl := Option.some.inj hstep
        set b : EngineConnection F :=
          { c.setSock k (c.socks k).opened with socket := some k, buffer := [] }
        have hopened : Keeps (fun reply => ∃ p ∈ c.answers, reply = readBack p.2) c b :=
          Keeps.trans (d := c.setSock k (c.socks k).opened) (.setSock rfl) (.of_eq rfl rfl rfl)
        have hi : (b.phase i).isActive = true := by
          show (c.phase i).isActive = true
          rw [hphase]
          rfl
        exact h.of_keeps (hopened.trans (.send hi)) hline
      case h_2 => cases hstep
    | connectFailed i message =>
      dsimp only at hstep
      split at hstep
      · obtain rfl := Option.some.inj hstep
        exact h.of_keeps (.rejected i _) hline
      · cases hstep
    | written i =>
      dsimp only at hstep
      split at hstep
      case h_1 k hphase =>
        split at hstep
        · obtain rfl := Option.some.inj hstep
          have hi : c.line i ≠ [] := h.active i (by rw [hphase]; rfl)
          refine (h.received (k := k) hi).of_keeps (.recvResponse fun p hp => ?_) hline
          exact hread p.1 (hframed p hp)
        · cases hstep
      case h_2 => cases hstep
    | writeFailed i message =>
      dsimp only at hstep
      split at hstep
      · obtain rfl := Option.some.inj hstep
        exact h.of_keeps (.rejected i _) hline
      · cases hstep
    | answer k r =>
      dsimp only at hstep
      split at hstep
      case h_1 => cases hstep
      case h_2 j due hdue =>
        obtain rfl := Option.some.inj hstep
        refine h.answer hdue (hecho j ?_)
        show j ∈ (c.socks k).due.head?
        rw [hdue]
        rfl
    | data k m =>
      dsimp only at hstep
      split at hstep
      case isTrue =>
        obtain rfl := Option.some.inj hstep
        refine h.of_keeps ?_ hline
        refine Keeps.trans (d := c.setSock k ((c.socks k).arrived m)) (.setSock rfl)
          (.foldl_onData k _ _ fun line hmem => ?_)
        exact hread line (hframed line hmem)
      case isFalse => cases hstep
    | timeout k =>
      dsimp only at hstep
      split at hstep
      · obtain rfl := Option.some.inj hstep
        exact h.of_keeps (.rejectListeners k _) hline
      · cases hstep
    | error k message =>
      dsimp only at hstep
      split at hstep
      · split at hstep
        · obtain rfl := Option.some.inj hstep
          exact h.of_keeps (.of_eq rfl rfl rfl) hline
        · obtain rfl := Option.some.inj hstep
          exact h.of_keeps (.rejectListeners k _) hline
      · cases hstep
    | closed k =>
      obtain rfl := Option.some.inj hstep
      refine h.of_keeps ?_ hline
      exact Keeps.trans (d := c.setSock k (c.socks k).shut) (.setSock rfl) (.rejectListeners k _)
    | close =>
      obtain rfl := Option.some.inj hstep
      exact h.of_keeps .close hline

omit [Sha256] [NumberText ν] in
theorem line_close (c : EngineConnection F) : c.close.line = c.line := by
  unfold EngineConnection.close
  split <;> rfl

/-- **What a step of the guard preserves.** -/
theorem GuardState.origin_step {event : GuardEvent F} (h : Origin g calls x.conn)
    (hframed : Framed x event) (hecho : Echoing g calls x event)
    (hstep : x.step g calls event = some y) : Origin g calls y.conn := by
  cases event with
  | check =>
    rw [GuardState.step] at hstep
    split at hstep
    case isTrue => cases hstep
    case isFalse =>
      split at hstep
      case h_1 =>
        obtain rfl := Option.some.inj hstep
        exact h
      case h_2 r hr =>
        obtain rfl := Option.some.inj hstep
        exact h.request (checkOf_firstCall _) hr
  | retry i =>
    rw [GuardState.step] at hstep
    split at hstep
    case isTrue => cases hstep
    case isFalse =>
      split at hstep
      case h_1 r _ _ hr =>
        obtain rfl := Option.some.inj hstep
        exact (h.of_keeps .close (line_close _)).request (checkOf_secondCall _) hr
      case h_2 => cases hstep
  | conn event =>
    rw [GuardState.step, Option.map_eq_some_iff] at hstep
    obtain ⟨c, hc, rfl⟩ := hstep
    exact h.step (n := x.seq) hframed hecho hc

end Invariant

/-! ## Soundness -/

section Soundness

variable {ν F : Type} [NumberText ν] [Float64 F] [Sha256] {g : Guard Ts.Str F}
  {calls : Nat → CheckArgs Ts.Str ν}

/-- The engine has answered "allow" to a request of a check. -/
def GuardState.Allowed (g : Guard Ts.Str F) (calls : Nat → CheckArgs Ts.Str ν) (x : GuardState F)
    (i : Nat) : Prop :=
  ∃ request ∈ g.checkRequest calls i, ∃ p ∈ x.conn.answers,
    x.conn.line p.1 = Ts.toNdjson request ∧ p.2.decision = .allow

instance (g : Guard Ts.Str F) (calls : Nat → CheckArgs Ts.Str ν) (x : GuardState F) (i : Nat) :
    Decidable (x.Allowed g calls i) :=
  inferInstanceAs (Decidable (∃ request ∈ g.checkRequest calls i, ∃ p ∈ x.conn.answers,
    x.conn.line p.1 = Ts.toNdjson request ∧ p.2.decision = .allow))

theorem seq_checkRequest {i : Nat} {request : DecisionRequest Ts.Str ν}
    (h : g.checkRequest calls i = some request) : request.seq = g.number i := by
  unfold Guard.checkRequest Guard.request at h
  obtain ⟨hash, -, rfl⟩ := Option.map_eq_some_iff.1 h
  rfl

/-- A check that goes through has had a reply. -/
theorem GuardState.reply_of_ok {x : GuardState F} {i : Nat} {res : DecisionResult}
    (hclosed : g.failOpen = false) (h : x.result g calls i = some (.ok res)) :
    ∃ request j reply, g.checkRequest calls i = some request ∧ x.conn.phase j = .resolved reply ∧
      settle Ts.language request reply = .ok res := by
  unfold GuardState.result at h
  split at h
  case h_1 => cases h
  case h_2 request hrequest =>
    split at h
    case h_1 reply hphase => exact ⟨request, _, reply, hrequest, hphase, Option.some.inj h⟩
    case h_2 =>
      split at h
      case h_1 reply hphase => exact ⟨request, _, reply, hrequest, hphase, Option.some.inj h⟩
      case h_2 =>
        rw [hclosed] at h
        cases h
      case h_3 => cases h
    case h_3 => cases h

/-- **Soundness.**  In a run in which every line that is taken from the buffer is
one the engine wrote, a check goes through only if the engine has answered
"allow" to its own request: a reply to another check does not echo it. -/
theorem allowed_of_framed (hclosed : g.failOpen = false) {events : List (GuardEvent F)} {x : GuardState F}
    (hrun : Run.exec (GuardState.step g calls) .new events = some x)
    (hecho : Run.AllEvents (GuardState.step g calls) (Echoing g calls) .new events)
    (hframed : Run.AllEvents (GuardState.step g calls) Framed .new events) {i : Nat}
    {res : DecisionResult} (hres : x.result g calls i = some (.ok res)) :
    x.Allowed g calls i := by
  have horigin : x.conn.Origin g calls :=
    Run.exec_invariant (GuardState.step g calls)
      (fun _ _ _ h hC hstep => GuardState.origin_step h hC.2 hC.1 hstep)
      EngineConnection.Origin.new (hecho.and _ hframed) hrun
  obtain ⟨request, j, reply, hrequest, hphase, hsettle⟩ := GuardState.reply_of_ok hclosed hres
  obtain ⟨p, hp, rfl⟩ := horigin.replies j reply hphase
  unfold settle at hsettle
  split at hsettle
  case isFalse => cases hsettle
  case isTrue hechoes =>
    have hallow : p.2.decision = .allow := by
      have hdecision := handleDecision_ok Ts.language hsettle
      rw [decision_readBack, Option.some.injEq, Json.str.injEq] at hdecision
      exact Decision.wire_injective hdecision
    simp only [echoes, seq_readBack, runId_readBack, Bool.and_eq_true, decide_eq_true_eq] at hechoes
    have hseq : p.2.seq.toNat = g.number i :=
      (Json.natText_injective hechoes.1).trans (seq_checkRequest hrequest)
    rcases horigin.answers p hp with hkill | ⟨own, hown, hnumber, -⟩
    · rw [hallow] at hkill
      cases hkill
    · -- the number of the reply is that of one check only
      have hcheck : checkOf p.1 = i := by
        rw [seq_checkRequest hown] at hnumber
        unfold Guard.number at hnumber hseq
        omega
      obtain ⟨sent, hsent, hline⟩ := horigin.lines p.1 (horigin.answered p hp)
      rw [hcheck] at hsent
      exact ⟨sent, hsent, p, hp, hline, hallow⟩

end Soundness

/-! ## Two runs -/

namespace Sample

open Engine.Sample

/-- A guard that fails closed. -/
def closedGuard : Guard Ts.Str ℚ := { guard Ts.lit with failOpen := false }

/-- Every check asks for a search. -/
def asks (_ : Nat) : CheckArgs Ts.Str ℤ := Sample.call Ts.lit (Ts.lit "lean")

/-- The answer of the engine to a check of the run. -/
def answerTo (seq : UInt64) (decision : Engine.Decision) : Engine.DecisionResponse ℚ where
  schemaVersion := 1
  runId := "run"
  seq := seq
  decision := decision
  ruleId := none
  reason := none
  cooldownMs := none
  cooldownMessage := none
  approvalId := none
  approvalTimeoutMs := none
  approvalTimeoutAction := none
  budgetRemaining := none
  ts := ""

/-- A check whose reply comes in two chunks. -/
def alone : List (GuardEvent ℚ) :=
  [.check, .conn (.connected 0), .conn (.written 0), .conn (.answer 0 (answerTo 1 .allow)),
    .conn (.data 0 43), .conn (.data 0 28)]

/-- Two checks, of which the second starts to listen in the middle of the reply
to the first; its own reply starts in the same chunk. -/
def overlapping : List (GuardEvent ℚ) :=
  [.check, .conn (.connected 0), .conn (.written 0), .conn (.answer 0 (answerTo 1 .allow)),
    .conn (.data 0 43), .check, .conn (.written 2), .conn (.answer 0 (answerTo 2 .deny)),
    .conn (.data 0 (28 + 43))]

theorem exists_of_isOk {ε α : Type} {o : Option (Except ε α)} (h : o.any Except.isOk = true) :
    ∃ a, o = some (.ok a) := by
  cases o with
  | none => cases h
  | some e =>
    cases e with
    | error e => cases h
    | ok a => exact ⟨a, rfl⟩

end Sample

open Engine.Sample Sample in
theorem allowed_of_framed_alone :
    ∃ x, Run.exec (GuardState.step closedGuard asks) .new alone = some x ∧
      (x.result closedGuard asks 0).any Except.isOk = true ∧ x.Allowed closedGuard asks 0 := by
  have hresult : (Run.exec (GuardState.step closedGuard asks) .new alone).map
      (fun x => (x.result closedGuard asks 0).any Except.isOk) = some true := by decide +kernel
  obtain ⟨x, hx, hok⟩ := Option.map_eq_some_iff.1 hresult
  obtain ⟨res, hres⟩ := exists_of_isOk hok
  exact ⟨x, hx, hok, allowed_of_framed rfl hx (by decide +kernel) (by decide +kernel) hres⟩

open Engine.Sample Sample in
/-- **A denied check goes through.**  The first listener takes its line and
leaves the start of the second reply; the second appends the chunk to that, and
reads its own number in front of the first one's "allow". -/
theorem allows_what_is_denied :
    ¬ ∀ events x, Run.exec (GuardState.step closedGuard asks) .new events = some x →
      Run.AllEvents (GuardState.step closedGuard asks) (Echoing closedGuard asks) .new events →
        ∀ i res, x.result closedGuard asks i = some (.ok res) → x.Allowed closedGuard asks i := by
  intro h
  have hresult : (Run.exec (GuardState.step closedGuard asks) .new overlapping).map
      (fun x => ((x.result closedGuard asks 1).any Except.isOk,
        decide (x.Allowed closedGuard asks 1))) = some (true, false) := by decide +kernel
  obtain ⟨x, hx, hresult⟩ := Option.map_eq_some_iff.1 hresult
  obtain ⟨hok, hnot⟩ := Prod.mk.inj hresult
  obtain ⟨res, hres⟩ := exists_of_isOk hok
  exact of_decide_eq_false hnot (h overlapping x hx (by decide +kernel) 1 res hres)

end LoopStorm.Shim
