import LoopStorm.Mcp.Proxy

/-!
# Which calls the proxy forwards

The proxy takes the reply it is given for the reply to its own request: it does
not look at the run id and the number in it.  So a call is forwarded on the
engine's leave as long as no request is handed over while another reply is
outstanding, and not beyond.

* `Proxy.Undisturbed` — the condition on an event, that of the connection.
* `Proxy.Inv` — what is sent for each call, and the invariant of the connection.
* `forwarded_of_allowed` — **a forwarded call has been allowed** in runs whose
  steps all meet the condition.
* `Proxy.forwarded_of_next_line` — a call that listens alone is forwarded if the
  next line allows, whoever's line it is.
* `forwards_on_late_reply` — a run in which it is another call's.
-/

namespace LoopStorm.Mcp

open LoopStorm.Engine LoopStorm.Shim

namespace Proxy

variable {ν F : Type} [NumberText ν] [Float64 F] [Sha256]

/-- The condition on an event: that of the connection, and none on calls. -/
def Undisturbed (p : Proxy ν F) : Event ν F → Prop
  | .toolsCall _ _ => True
  | .engine e => p.engine.Undisturbed e

/-- The invariant of the connection, and what is sent for each call. -/
structure Inv (p : Proxy ν F) : Prop where
  engine : p.engine.Inv p.seq
  calls : ∀ i call, p.calls i = some call → i ≤ p.seq ∧ call.ctx.seq = i ∧
    ∀ request, call.request = some request → p.engine.line i = Ts.toNdjson request

theorem Inv.new (runId : Ts.Str) : Inv (Proxy.new runId : Proxy ν F) where
  engine := EngineConnection.Inv.new
  calls := by intro i call h; cases h

variable {config : ProxyConfig} {p p' : Proxy ν F}

theorem Inv.toolsCall (h : Inv p) (params : McpToolCallParams ν) (ts : Ts.Str) :
    Inv (p.toolsCall config params ts) := by
  unfold Proxy.toolsCall
  dsimp only
  cases hrequest : (p.nextCall config params ts).request with
  | none =>
    refine ⟨h.engine.mono (Nat.le_succ _), fun i call hi => ?_⟩
    rcases eq_or_ne i (p.seq + 1) with rfl | hne
    · obtain rfl : p.nextCall config params ts = call := by simpa using hi
      exact ⟨le_rfl, rfl, fun request hreq => absurd (hrequest.symm.trans hreq) (by simp)⟩
    · obtain ⟨hle, hrest⟩ := h.calls i call (by simpa [hne] using hi)
      exact ⟨Nat.le_succ_of_le hle, hrest⟩
  | some request =>
    refine ⟨h.engine.request (Nat.lt_succ_self _) _, fun i call hi => ?_⟩
    dsimp only
    rw [EngineConnection.line_request]
    rcases eq_or_ne i (p.seq + 1) with rfl | hne
    · obtain rfl : p.nextCall config params ts = call := by simpa using hi
      refine ⟨le_rfl, rfl, fun other hother => ?_⟩
      obtain rfl : request = other := Option.some.inj (hrequest.symm.trans hother)
      rw [Function.update_self]
    · obtain ⟨hle, hseq, hline⟩ := h.calls i call (by simpa [hne] using hi)
      rw [Function.update_of_ne hne]
      exact ⟨Nat.le_succ_of_le hle, hseq, hline⟩

theorem Inv.step (h : Inv p) {e : Event ν F} (hcond : p.Undisturbed e)
    (hstep : p.step config e = some p') : Inv p' := by
  cases e with
  | toolsCall params ts =>
    rw [Proxy.step] at hstep
    split at hstep
    case isTrue => cases hstep
    case isFalse =>
      cases hstep
      exact h.toolsCall params ts
  | engine e =>
    rw [Proxy.step] at hstep
    obtain ⟨engine, hengine, rfl⟩ := Option.map_eq_some_iff.1 hstep
    refine ⟨h.engine.step hcond hengine, fun i call hcall => ?_⟩
    have hline := EngineConnection.line_step hengine
    dsimp only
    rw [hline]
    exact h.calls i call hcall

/-- A forwarded call has a request, and a reply that is no error. -/
theorem forwarded_inv {i : Nat} {u : Upstream} {name : Ts.Str}
    {arguments : Option (List (Ts.Str × Json Ts.Str ν))}
    (h : p.result config i = some (.forwarded u name arguments)) :
    ∃ call request response, p.calls i = some call ∧ call.request = some request ∧
      p.engine.phase i = .resolved response ∧ decisionResponseToMcpError response = none ∧
      config.findUpstreamForTool call.params.name = some u ∧
      name = u.originalToolName call.params.name ∧ arguments = call.params.arguments := by
  obtain ⟨call, hcall, h⟩ := Option.bind_eq_some_iff.1 h
  cases hrequest : call.request with
  | none => simp [hrequest] at h
  | some request =>
    rw [if_neg (by simp [hrequest])] at h
    cases hphase : p.engine.phase i with
    | resolved response =>
      rw [hphase] at h
      cases herror : decisionResponseToMcpError response with
      | some e => simp [herror] at h
      | none =>
        cases hfind : config.findUpstreamForTool call.params.name with
        | none => simp [herror, hfind] at h
        | some v =>
          simp only [herror, hfind, Option.some.injEq, CallResult.forwarded.injEq] at h
          obtain ⟨rfl, rfl, rfl⟩ := h
          exact ⟨call, request, response, hcall, hrequest, rfl, herror, hfind, rfl, rfl⟩
    | rejected e => cases e <;> simp [hphase] at h
    | idle | connecting k | writing k | waiting k | pending => simp [hphase] at h

end Proxy

section Runs

variable {ν F : Type} [NumberText ν] [Float64 F] [Sha256]

/-- **A forwarded call has been allowed** by the engine on its own request,
which carries its run id, number, tool and arguments, in every run whose steps
all meet the condition. -/
theorem forwarded_of_allowed (config : ProxyConfig) (runId : Ts.Str) (events : List (Event ν F))
    (p : Proxy ν F) (hsteps : Run.AllEvents (Proxy.step config) Proxy.Undisturbed (.new runId) events)
    (hrun : Run.exec (Proxy.step config) (.new runId) events = some p)
    (i : Nat) (u : Upstream) (name : Ts.Str)
    (arguments : Option (List (Ts.Str × Json Ts.Str ν)))
    (hforwarded : p.result config i = some (.forwarded u name arguments)) :
    ∃ call, p.calls i = some call ∧ call.ctx.seq = i ∧
      name = u.originalToolName call.params.name ∧ arguments = call.params.arguments ∧
      p.Allowed i call := by
  have hinv : p.Inv := Run.exec_invariant (Proxy.step config) (fun _ _ _ h => h.step)
    (Proxy.Inv.new runId) hsteps hrun
  obtain ⟨call, request, response, hcall, hrequest, hphase, herror, -, hname, hargs⟩ :=
    Proxy.forwarded_inv hforwarded
  obtain ⟨r, hanswered, rfl⟩ := hinv.engine.replies i response hphase
  obtain ⟨-, hseq, hline⟩ := hinv.calls i call hcall
  exact ⟨call, hcall, hseq, hname, hargs, request, r, hrequest, hline request hrequest, hanswered,
    (decisionResponseToMcpError_readBack r).1 herror⟩

/-- A call that listens alone is forwarded if the next line allows, whoever's
line it is. -/
theorem Proxy.forwarded_of_next_line {config : ProxyConfig} {p : Proxy ν F} {i k : Nat}
    {due : List Nat} {r : Engine.DecisionResponse F} {call : Call ν} {u : Upstream}
    (hcrashed : p.engine.crashed = false) (hbuffer : p.engine.buffer = [])
    (hsock : p.engine.socks k = ⟨true, true, due, writeResponse r, [i]⟩)
    (hlen : (writeResponse r).length ≤ maxMessageSize) (hallow : r.decision = .allow)
    (hcall : p.calls i = some call) (hrequest : call.request.isSome = true)
    (hfind : config.findUpstreamForTool call.params.name = some u) :
    ∃ p', p.step config (.engine (.data k (writeResponse r).length)) = some p' ∧
      p'.engine.answers = p.engine.answers ∧
      p'.result config i =
        some (.forwarded u (u.originalToolName call.params.name) call.params.arguments) := by
  obtain ⟨c, hstep, hphase, hanswers⟩ :=
    EngineConnection.phase_of_next_line hcrashed hbuffer hsock hlen
  obtain ⟨request, hrequest⟩ := Option.isSome_iff_exists.1 hrequest
  refine ⟨{ p with engine := c }, by rw [Proxy.step, hstep]; rfl, hanswers, ?_⟩
  simp [Proxy.result, hcall, hrequest, hphase, hfind,
    (decisionResponseToMcpError_readBack r).2 hallow]

end Runs

namespace Sample

/-- A proxy in front of one server with two tools. -/
def config : ProxyConfig where
  agentName := none
  agentRole := none
  environment := none
  upstreams := [⟨Ts.lit "files", false, [Ts.lit "read", Ts.lit "remove"]⟩]

/-- A call of a tool, without arguments. -/
def params (tool : String) : McpToolCallParams ℤ := ⟨Ts.lit tool, none, none⟩

/-- The engine allows the first call of the run. -/
def allowFirst : Engine.DecisionResponse ℚ where
  schemaVersion := 1
  runId := "run"
  seq := 1
  decision := .allow
  ruleId := none
  reason := none
  cooldownMs := none
  cooldownMessage := none
  approvalId := none
  approvalTimeoutMs := none
  approvalTimeoutAction := none
  budgetRemaining := none
  ts := ""

/-- A call that is answered. -/
def answered : List (Event ℤ ℚ) :=
  [.toolsCall (params "read") (Ts.lit "t"), .engine (.connected 1), .engine (.written 1),
    .engine (.answer 0 allowFirst)]

/-- A call that times out, and another one before the answer to the first. -/
def late : List (Event ℤ ℚ) :=
  [.toolsCall (params "read") (Ts.lit "t"), .engine (.connected 1), .engine (.written 1),
    .engine (.timeout 0), .toolsCall (params "remove") (Ts.lit "t"), .engine (.written 2),
    .engine (.answer 0 allowFirst)]

end Sample

section

open Engine.Sample Sample

/-- The proxy after some of the events. -/
def Sample.after (n : Nat) : Option (Proxy ℤ ℚ) :=
  Run.exec (Proxy.step config) (.new (Ts.lit "run")) (answered.take n)

/-- Whether one of the two numbers a first call may have waits, and the socket
it writes to. -/
def Sample.progress (p : Proxy ℤ ℚ) : Nat × Bool × Bool × Option Nat :=
  (p.seq, (p.engine.phase 0).isWaiting, (p.engine.phase 1).isWaiting,
    match p.engine.phase 1 with
    | .writing k => some k
    | _ => none)

/-- Nobody listens while the first call does not wait. -/
theorem Sample.unheard_of_progress {p : Proxy ℤ ℚ} (h : p.Inv) {k : Option Nat}
    (hprogress : progress p = (1, false, false, k)) : p.engine.Unheard := by
  simp only [progress, Prod.mk.injEq] at hprogress
  obtain ⟨hseq, hzero, hone, -⟩ := hprogress
  refine h.engine.unheard (fun i hi => ?_)
  rw [hseq] at hi
  interval_cases i
  · exact hzero
  · exact hone

/-- Its request is handed over on a connection with nothing on it. -/
theorem Sample.undisturbed_answered (n : Nat) :
    Run.AllEvents (Proxy.step config) Proxy.Undisturbed (.new (Ts.lit "run"))
      (answered ++ [.engine (.data 0 n)]) := by
  have hcalled : (after 1).map progress = some (1, false, false, none) := by decide +kernel
  have hconnected : (after 2).map progress = some (1, false, false, some 0) := by decide +kernel
  have hclear : (after 2).map (fun p => (p.engine.socket, p.engine.socks 0, p.engine.buffer)) =
      some (some 0, ⟨true, false, [], [], []⟩, []) := by
    decide +kernel
  refine ⟨trivial, fun p hp => ?_⟩
  have hinv : p.Inv :=
    (Proxy.Inv.new _).step (e := .toolsCall (params "read") (Ts.lit "t")) trivial hp
  have hafter : after 1 = some p := by simp [after, answered, Run.exec, hp]
  rw [hafter, Option.map_some, Option.some.injEq] at hcalled
  have hunheard := unheard_of_progress hinv hcalled
  refine ⟨hunheard, fun q hq => ?_⟩
  have hinv' : q.Inv := hinv.step (e := .engine (.connected 1)) hunheard hq
  have hafter' : after 2 = some q := by simp [after, answered, Run.exec, hp, hq]
  rw [hafter', Option.map_some, Option.some.injEq] at hconnected
  simp only [hafter', Option.map_some, Option.some.injEq, Prod.mk.injEq] at hclear
  obtain ⟨hsocket, hsock, hbuffer⟩ := hclear
  refine ⟨fun k hk _ => ⟨unheard_of_progress hinv' hconnected, ?_⟩, fun _ _ => ⟨trivial,
    fun _ _ => ⟨trivial, fun _ _ => trivial⟩⟩⟩
  obtain rfl : k = 0 := by simpa [progress, hk] using congrArg (fun x => x.2.2.2) hconnected
  exact ⟨hsocket, by rw [hsock], by rw [hsock], hbuffer⟩

/-- A call that is answered in time is forwarded, and has been allowed. -/
theorem forwarded_of_allowed_first :
    ∃ (p : Proxy ℤ ℚ) (call : Call ℤ), p.calls 1 = some call ∧ call.ctx.seq = 1 ∧
      p.Allowed 1 call := by
  have hengine : (after 4).map (fun p => (p.engine.crashed, p.engine.buffer, p.engine.socks 0)) =
      some (false, [], ⟨true, true, [], writeResponse allowFirst, [1]⟩) := by
    decide +kernel
  have hcalls : (after 4).map (fun p =>
      (p.calls 1).map (fun call => (call.request.isSome, call.params.name))) =
      some (some (true, Ts.lit "read")) := by
    decide +kernel
  obtain ⟨p, hrun, hengine⟩ := Option.map_eq_some_iff.1 hengine
  simp only [hrun, Option.map_some, Option.some.injEq, Prod.mk.injEq] at hengine hcalls
  obtain ⟨hcrashed, hbuffer, hsock⟩ := hengine
  obtain ⟨call, hcall, hrequest, hname⟩ := by
    simpa only [Option.map_eq_some_iff, Prod.mk.injEq] using hcalls
  obtain ⟨p', hstep, -, hresult⟩ := Proxy.forwarded_of_next_line hcrashed hbuffer hsock (by decide +kernel) rfl hcall hrequest
    (show config.findUpstreamForTool call.params.name = some _ by rw [hname]; rfl)
  have hrun' : Run.exec (Proxy.step config) (.new (Ts.lit "run"))
      (answered ++ [.engine (.data 0 (writeResponse allowFirst).length)]) = some p' := by
    have hwhole : Run.exec (Proxy.step config) (.new (Ts.lit "run")) answered = some p := hrun
    rw [Run.exec_concat, hwhole, Option.bind_some, hstep]
  obtain ⟨call', hcall', hseq, -, -, hallowed⟩ := forwarded_of_allowed config (Ts.lit "run") _ p'
    (undisturbed_answered _) hrun' 1 _ _ _ hresult
  exact ⟨p', call', hcall', hseq, hallowed⟩

end

open Engine.Sample Sample in
/-- The first call times out; the answer that allows it arrives late, and the
second call, of another tool, is forwarded on it. -/
theorem forwards_on_late_reply :
    ¬ ∀ (config : ProxyConfig) (runId : Ts.Str) (events : List (Event ℤ ℚ)) (p : Proxy ℤ ℚ),
      Run.exec (Proxy.step config) (.new runId) events = some p →
        ∀ (i : Nat) (u : Upstream) (name : Ts.Str)
          (arguments : Option (List (Ts.Str × Json Ts.Str ℤ))),
          p.result config i = some (.forwarded u name arguments) →
            ∃ call, p.calls i = some call ∧ call.ctx.seq = i ∧
              name = u.originalToolName call.params.name ∧ arguments = call.params.arguments ∧
              p.Allowed i call := by
  intro h
  have hengine : (Run.exec (Proxy.step config) (.new (Ts.lit "run")) late).map (fun p =>
      (p.engine.crashed, p.engine.buffer, p.engine.socks 0)) =
      some (false, [], ⟨true, true, [2], writeResponse allowFirst, [2]⟩) := by
    decide +kernel
  have hcalls : (Run.exec (Proxy.step config) (.new (Ts.lit "run")) late).map (fun p =>
      (p.engine.answers.map Prod.fst,
        (p.calls 2).map (fun call => (call.request.isSome, call.params.name)))) =
      some ([1], some (true, Ts.lit "remove")) := by
    decide +kernel
  obtain ⟨p, hrun, hengine⟩ := Option.map_eq_some_iff.1 hengine
  simp only [hrun, Option.map_some, Option.some.injEq, Prod.mk.injEq] at hengine hcalls
  obtain ⟨hcrashed, hbuffer, hsock⟩ := hengine
  obtain ⟨hanswers, hcall⟩ := hcalls
  obtain ⟨call, hcall, hrequest, hname⟩ := by
    simpa only [Option.map_eq_some_iff, Prod.mk.injEq] using hcall
  obtain ⟨p', hstep, hanswers', hresult⟩ := Proxy.forwarded_of_next_line hcrashed hbuffer hsock (by decide +kernel) rfl hcall hrequest
    (show config.findUpstreamForTool call.params.name = some _ by rw [hname]; rfl)
  have hrun' : Run.exec (Proxy.step config) (.new (Ts.lit "run"))
      (late ++ [.engine (.data 0 (writeResponse allowFirst).length)]) = some p' := by
    rw [Run.exec_concat, hrun, Option.bind_some, hstep]
  obtain ⟨-, -, -, -, -, request, r, -, -, hmem, -⟩ := h _ _ _ _ hrun' 2 _ _ _ hresult
  have hfst := List.mem_map_of_mem (f := Prod.fst) hmem
  rw [hanswers', hanswers] at hfst
  simp at hfst

end LoopStorm.Mcp
