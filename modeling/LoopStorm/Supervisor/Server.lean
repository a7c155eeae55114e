import LoopStorm.Backend.Event
import LoopStorm.Backend.TriggerQueue
import LoopStorm.Lib.Admission
import LoopStorm.Lib.JsonParse

/-!
# The supervisor's server

The HTTP server of `apps/supervisor/src/index.ts` and the dispatcher of
`packages/backend/src/lib/trigger-dispatch.ts` that posts triggers to it.

* `fetch`, `processTrigger`, `drainQueue` — the handler, which starts or queues a
  session, and what happens when a session settles.
* `station` — **refinement**: the server is a station of five places and fifty
  seats, its counter the number of sessions that run.
* `serves_in_order`, `begins_in_turn` — no trigger lost, doubled or overtaken.
* `dispatchTrigger`, `dispatch_answered` — what the backend posts is never
  malformed to the server.
-/

namespace LoopStorm.Supervisor

open LoopStorm.Backend (TriggerMessage numberValue)
open LoopStorm.Shim (ReplyValue)

/-! ## Requests -/

/-- A request, its body as text. -/
structure Request where
  method : String
  pathname : String
  authorization : Option String
  body : String
  deriving DecidableEq

/-- What the handler does with a request. -/
inductive Outcome where
  | responded (status : Nat) (body : ReplyValue)
  /-- an exception leaves the handler -/
  | threw

/-- JavaScript's truth of a value: a number is false when its double is zero. -/
def truthy : ReplyValue → Bool
  | .null => false
  | .bool b => b
  | .num n => decide (1 / 2 ^ 1075 < |numberValue n|)
  | .str s => s ≠ ""
  | .arr _ => true
  | .obj _ => true

/-- The fields a trigger must have. -/
def requiredFields : List String := ["trigger", "trigger_run_id", "tenant_id"]

/-- `body.key`, of anything but `null`. -/
def property (key : String) : ReplyValue → Option ReplyValue
  | .obj ms => Json.lookup key ms
  | _ => none

/-- Every required field is there and true. -/
def complete (body : ReplyValue) : Bool :=
  requiredFields.all fun key => (property key body).any truthy

/-- The body of a trigger request that has the required fields. -/
structure QueuedTrigger where
  body : ReplyValue
  complete_body : complete body = true

/-! ## The server -/

def maxConcurrent : Nat := 5

def maxQueue : Nat := 50

structure Server where
  activeSessions : Nat
  pendingQueue : List QueuedTrigger
  /-- the sessions whose promise has not settled -/
  sessions : List QueuedTrigger

def Server.idle : Server := ⟨0, [], []⟩

/-- `processTrigger`, up to where it waits for the session. -/
def Server.processTrigger (server : Server) (msg : QueuedTrigger) : Server :=
  { server with
    activeSessions := server.activeSessions + 1
    sessions := server.sessions ++ [msg] }

/-- `drainQueue`, with the sessions it starts. -/
def drainQueue (activeSessions : Nat) (sessions : List QueuedTrigger) :
    List QueuedTrigger → Server × List QueuedTrigger
  | [] => (⟨activeSessions, [], sessions⟩, [])
  | next :: pendingQueue =>
    if activeSessions < maxConcurrent then
      let (server, begun) := drainQueue (activeSessions + 1) (sessions ++ [next]) pendingQueue
      (server, next :: begun)
    else (⟨activeSessions, next :: pendingQueue, sessions⟩, [])

/-- The end of `processTrigger`: a session has settled, well or not. -/
def Server.settle (server : Server) (place : Nat) : Server × List QueuedTrigger :=
  drainQueue (server.activeSessions - 1) (server.sessions.eraseIdx place) server.pendingQueue

def errorBody (message : String) : ReplyValue := .obj [("error", .str message)]

def natNum (n : Nat) : ReplyValue := .num (Json.natText n)

/-- The key is no secret to the sender, or there is none. -/
def authorised (internalKey : Option String) (req : Request) : Bool :=
  match internalKey with
  | none => true
  | some key => key = "" || req.authorization = some ("Bearer " ++ key)

/-- What reading a trigger request comes to. -/
inductive Reading where
  | refused (outcome : Outcome)
  | trigger (msg : QueuedTrigger)

/-- The checks of a trigger request. -/
def readTrigger (internalKey : Option String) (req : Request) : Reading :=
  if !authorised internalKey req then .refused (.responded 401 (errorBody "Unauthorized"))
  else
    match Json.parse req.body.toList with
    | none => .refused (.responded 400 (errorBody "Invalid JSON"))
    | some .null => .refused .threw
    | some body =>
      if h : complete body = true then .trigger ⟨body, h⟩
      else .refused (.responded 400
        (errorBody "Missing required fields: trigger, trigger_run_id, tenant_id"))

/-- The counts an answer closes with. -/
def Server.counts (server : Server) : List (String × ReplyValue) :=
  [("active_sessions", natNum server.activeSessions),
    ("queued", natNum server.pendingQueue.length)]

/-- A trigger is refused, started, or waits. -/
def Server.onTrigger (server : Server) (msg : QueuedTrigger) :
    Server × Outcome × List QueuedTrigger :=
  if maxConcurrent ≤ server.activeSessions ∧ maxQueue ≤ server.pendingQueue.length then
    (server, .responded 503 (.obj [("error", .str "Queue full"),
      ("queued", natNum server.pendingQueue.length)]), [])
  else if server.activeSessions < maxConcurrent then
    let server := server.processTrigger msg
    (server, .responded 200 (.obj (("accepted", .bool true) :: server.counts)), [msg])
  else
    let server := { server with pendingQueue := server.pendingQueue ++ [msg] }
    (server, .responded 200 (.obj (("accepted", .bool true) :: server.counts)), [])

def isHealth (req : Request) : Bool := req.pathname = "/api/health" && req.method = "GET"

def isTrigger (req : Request) : Bool := req.pathname = "/api/trigger" && req.method = "POST"

/-- The handler, from where it has the body, with the sessions it starts. -/
def Server.fetch (internalKey : Option String) (server : Server) (req : Request) :
    Server × Outcome × List QueuedTrigger :=
  if isHealth req then
    (server, .responded 200 (.obj (("status", .str "ok") :: server.counts)), [])
  else if isTrigger req then
    match readTrigger internalKey req with
    | .refused outcome => (server, outcome, [])
    | .trigger msg => server.onTrigger msg
  else (server, .responded 404 (errorBody "Not found"), [])

/-! ## Runs -/

inductive Event where
  /-- The body of a request is there. -/
  | request (req : Request)
  /-- The session at a place of the running ones settles. -/
  | settled (place : Nat)

structure Reply where
  outcome : Option Outcome
  begun : List QueuedTrigger
  ended : List QueuedTrigger

def step (internalKey : Option String) (server : Server) : Event → Server × Reply
  | .request req =>
    let (server, outcome, begun) := server.fetch internalKey req
    (server, ⟨some outcome, begun, []⟩)
  | .settled place =>
    match server.sessions[place]? with
    | none => (server, ⟨none, [], []⟩)
    | some msg =>
      let (server, begun) := server.settle place
      (server, ⟨none, begun, [msg]⟩)

/-- The trigger of a request that passes the checks. -/
def triggerOf (internalKey : Option String) (req : Request) : Option QueuedTrigger :=
  if isTrigger req then
    match readTrigger internalKey req with
    | .refused _ => none
    | .trigger msg => some msg
  else none

/-- The trigger a reply has accepted. -/
def acceptedBy (internalKey : Option String) : Event × Reply → List QueuedTrigger
  | (.request req, ⟨some (.responded 200 _), _, _⟩) => (triggerOf internalKey req).toList
  | _ => []

section Runs

variable (internalKey : Option String) (server : Server)

/-- The server after a list of events. -/
def serverAfter (es : List Event) : Server := Run.stateAfter (step internalKey) server es

def replies (es : List Event) : List Reply := Run.outputs (step internalKey) server es

/-- The triggers accepted, in order. -/
def accepted (es : List Event) : List QueuedTrigger :=
  (es.zip (replies internalKey server es)).flatMap (acceptedBy internalKey)

/-- The triggers whose session has begun, in order. -/
def begun (es : List Event) : List QueuedTrigger :=
  (replies internalKey server es).flatMap Reply.begun

/-- The triggers whose session has ended, in order. -/
def ended (es : List Event) : List QueuedTrigger :=
  (replies internalKey server es).flatMap Reply.ended

end Runs

/-! ## The server is a station -/

/-- The server a station of sessions is: its counter counts those that run. -/
def ofStation (t : Admission.Station QueuedTrigger) : Server :=
  ⟨t.running.length, t.waiting, t.running⟩

@[simp] theorem ofStation_activeSessions (t : Admission.Station QueuedTrigger) :
    (ofStation t).activeSessions = t.running.length := rfl

@[simp] theorem ofStation_pendingQueue (t : Admission.Station QueuedTrigger) :
    (ofStation t).pendingQueue = t.waiting := rfl

@[simp] theorem ofStation_sessions (t : Admission.Station QueuedTrigger) :
    (ofStation t).sessions = t.running := rfl

/-- What an event is to the station. -/
def stationEvent (internalKey : Option String) :
    Event → Option (Admission.Event QueuedTrigger)
  | .request req => (triggerOf internalKey req).map .arrive
  | .settled place => some (.finish place)

/-- What a list of events is to the station. -/
def moves (internalKey : Option String) (es : List Event) :
    List (Admission.Event QueuedTrigger) :=
  es.filterMap (stationEvent internalKey)

theorem drainQueue_eq (sessions pendingQueue : List QueuedTrigger) :
    drainQueue sessions.length sessions pendingQueue =
      (ofStation (Admission.fill maxConcurrent sessions pendingQueue).1,
        (Admission.fill maxConcurrent sessions pendingQueue).2) := by
  induction pendingQueue generalizing sessions with
  | nil => rfl
  | cons next pendingQueue ih =>
    rw [drainQueue, Admission.fill]
    split
    · have := ih (sessions ++ [next])
      rw [List.length_append, List.length_singleton] at this
      rw [this]
    · rfl

theorem settle_ofStation {t : Admission.Station QueuedTrigger} {place : Nat} {msg : QueuedTrigger}
    (h : t.running[place]? = some msg) :
    (ofStation t).settle place =
      (ofStation (Admission.fill maxConcurrent (t.running.eraseIdx place) t.waiting).1,
        (Admission.fill maxConcurrent (t.running.eraseIdx place) t.waiting).2) := by
  have hlen := Admission.length_eraseIdx_of_getElem? h
  have hcount : (ofStation t).activeSessions - 1 = (t.running.eraseIdx place).length := by
    rw [ofStation]
    dsimp only
    omega
  rw [Server.settle, hcount]
  exact drainQueue_eq ..

/-- A trigger is admitted as a job arrives, and the answer says whether it was
taken. -/
theorem onTrigger_ofStation (t : Admission.Station QueuedTrigger) (msg : QueuedTrigger) :
    ∃ status body, (ofStation t).onTrigger msg =
        (ofStation (Admission.step maxConcurrent maxQueue t (.arrive msg)).1,
          .responded status body,
          (Admission.step maxConcurrent maxQueue t (.arrive msg)).2.started) ∧
      (Admission.step maxConcurrent maxQueue t (.arrive msg)).2.taken =
        (if status = 200 then [msg] else []) ∧
      (Admission.step maxConcurrent maxQueue t (.arrive msg)).2.ended = [] ∧
      (status = 200 ∨ status = 503) := by
  rcases Admission.arrive_cases maxConcurrent maxQueue t msg with
    ⟨hslots, hroom, heq⟩ | ⟨hlt, heq⟩ | ⟨hge, hroom, heq⟩
  · rw [heq, Server.onTrigger, if_pos ⟨hslots, hroom⟩]
    exact ⟨503, _, rfl, rfl, rfl, Or.inr rfl⟩
  · have hstarts : (ofStation t).activeSessions < maxConcurrent := hlt
    rw [heq, Server.onTrigger, if_neg (fun h => absurd h.1 (Nat.not_le.2 hlt)), if_pos hstarts]
    have hstart : (ofStation t).processTrigger msg =
        ofStation ⟨t.running ++ [msg], t.waiting⟩ := by
      simp [Server.processTrigger, ofStation]
    rw [hstart]
    exact ⟨200, _, rfl, rfl, rfl, Or.inl rfl⟩
  · have hwaits : ¬(ofStation t).activeSessions < maxConcurrent := Nat.not_lt.2 hge
    rw [heq, Server.onTrigger, if_neg (fun h => absurd h.2 (Nat.not_le.2 hroom)), if_neg hwaits]
    exact ⟨200, _, rfl, rfl, rfl, Or.inl rfl⟩

theorem acceptedBy_of_none {internalKey : Option String} {req : Request}
    (h : triggerOf internalKey req = none) (reply : Reply) :
    acceptedBy internalKey (.request req, reply) = [] := by
  unfold acceptedBy
  split
  · next heq =>
    obtain ⟨heq, -⟩ := Prod.mk.inj heq
    cases heq
    rw [h]
    rfl
  · rfl

theorem acceptedBy_responded {internalKey : Option String} {req : Request} {msg : QueuedTrigger}
    (h : triggerOf internalKey req = some msg) (status : Nat) (body : ReplyValue)
    (begun ended : List QueuedTrigger) :
    acceptedBy internalKey (.request req, ⟨some (.responded status body), begun, ended⟩) =
      if status = 200 then [msg] else [] := by
  by_cases h200 : status = 200
  · rw [h200, if_pos rfl, acceptedBy, h]
    rfl
  · rw [if_neg h200]
    unfold acceptedBy
    split
    · next heq =>
      obtain ⟨-, heq⟩ := Prod.mk.inj heq
      cases heq
      exact absurd rfl h200
    · rfl

/-- A session settles as a job ends. -/
theorem step_settled (internalKey : Option String) (t : Admission.Station QueuedTrigger)
    (place : Nat) :
    step internalKey (ofStation t) (.settled place) =
      (ofStation (Admission.step maxConcurrent maxQueue t (.finish place)).1,
        ⟨none, (Admission.step maxConcurrent maxQueue t (.finish place)).2.started,
          (Admission.step maxConcurrent maxQueue t (.finish place)).2.ended⟩) := by
  rw [step, Admission.step, ofStation]
  cases h : t.running[place]? with
  | none => rfl
  | some msg =>
    have := settle_ofStation h
    rw [ofStation] at this
    simp only [this]

/-- **Refinement**, one event: what does not reach the station changes nothing,
and what does moves it. -/
theorem step_ofStation (internalKey : Option String) (t : Admission.Station QueuedTrigger)
    (e : Event) :
    match stationEvent internalKey e with
    | none =>
      ∃ outcome, step internalKey (ofStation t) e = (ofStation t, ⟨outcome, [], []⟩) ∧
        acceptedBy internalKey (e, ⟨outcome, [], []⟩) = []
    | some moved =>
      ∃ outcome, step internalKey (ofStation t) e =
          (ofStation (Admission.step maxConcurrent maxQueue t moved).1,
            ⟨outcome, (Admission.step maxConcurrent maxQueue t moved).2.started,
              (Admission.step maxConcurrent maxQueue t moved).2.ended⟩) ∧
        ∀ begun ended, acceptedBy internalKey (e, ⟨outcome, begun, ended⟩) =
          (Admission.step maxConcurrent maxQueue t moved).2.taken := by
  cases e with
  | settled place =>
    rw [stationEvent]
    refine ⟨none, step_settled internalKey t place, ?_⟩
    · intro _ _
      rw [Admission.step]
      cases t.running[place]? <;> rfl
  | request req =>
    rw [stationEvent, step, Server.fetch]
    by_cases htrigger : isTrigger req = true
    · have hhealth : isHealth req = false := by
        rw [isTrigger, Bool.and_eq_true, decide_eq_true_eq] at htrigger
        rw [isHealth, htrigger.1]
        rfl
      rw [if_neg (by simp [hhealth]), if_pos htrigger]
      cases hread : readTrigger internalKey req with
      | refused outcome =>
        have hnone : triggerOf internalKey req = none := by
          rw [triggerOf, if_pos htrigger, hread]
        rw [hnone]
        exact ⟨some outcome, rfl, acceptedBy_of_none hnone _⟩
      | trigger msg =>
        have hsome : triggerOf internalKey req = some msg := by
          rw [triggerOf, if_pos htrigger, hread]
        obtain ⟨status, body, hanswer, htaken, hended, -⟩ := onTrigger_ofStation t msg
        rw [hsome, Option.map_some]
        refine ⟨some (.responded status body), ?_, ?_⟩
        · simp only [hanswer, hended]
        · intro begun ended
          rw [acceptedBy_responded hsome]
          exact htaken.symm
    · have hnone : triggerOf internalKey req = none := by rw [triggerOf, if_neg htrigger]
      rw [hnone, if_neg htrigger]
      by_cases hhealth : isHealth req = true
      · rw [if_pos hhealth]
        exact ⟨_, rfl, acceptedBy_of_none hnone _⟩
      · rw [if_neg hhealth]
        exact ⟨_, rfl, acceptedBy_of_none hnone _⟩

/-- A run is its first event and the rest. -/
theorem runs_cons {internalKey : Option String} {server next : Server} {e : Event} {reply : Reply}
    (hstep : step internalKey server e = (next, reply)) (es : List Event) :
    serverAfter internalKey server (e :: es) = serverAfter internalKey next es ∧
      accepted internalKey server (e :: es) =
        acceptedBy internalKey (e, reply) ++ accepted internalKey next es ∧
      begun internalKey server (e :: es) = reply.begun ++ begun internalKey next es ∧
      ended internalKey server (e :: es) = reply.ended ++ ended internalKey next es := by
  refine ⟨?_, ?_, ?_, ?_⟩
  · rw [serverAfter, Run.stateAfter, hstep]
    rfl
  · rw [accepted, replies, Run.outputs, hstep]
    rfl
  · rw [begun, replies, Run.outputs, hstep]
    rfl
  · rw [ended, replies, Run.outputs, hstep]
    rfl

/-- **Refinement**, whole runs: the server goes where the station goes, accepting
what it takes in, beginning what it starts and ending what it ends. -/
theorem run_ofStation (internalKey : Option String) (t : Admission.Station QueuedTrigger)
    (es : List Event) :
    serverAfter internalKey (ofStation t) es =
        ofStation (Admission.after maxConcurrent maxQueue t (moves internalKey es)) ∧
      accepted internalKey (ofStation t) es =
        Admission.taken maxConcurrent maxQueue t (moves internalKey es) ∧
      begun internalKey (ofStation t) es =
        Admission.started maxConcurrent maxQueue t (moves internalKey es) ∧
      ended internalKey (ofStation t) es =
        Admission.ended maxConcurrent maxQueue t (moves internalKey es) := by
  induction es generalizing t with
  | nil => exact ⟨rfl, rfl, rfl, rfl⟩
  | cons e es ih =>
    have hone := step_ofStation internalKey t e
    cases hmove : stationEvent internalKey e with
    | none =>
      rw [hmove] at hone
      obtain ⟨outcome, hstep, hacc⟩ := hone
      obtain ⟨hafter, haccs, hbegun, hended⟩ := runs_cons hstep es
      have hmoves : moves internalKey (e :: es) = moves internalKey es :=
        List.filterMap_cons_none hmove
      rw [hmoves, hafter, haccs, hbegun, hended, hacc]
      exact ih t
    | some moved =>
      rw [hmove] at hone
      obtain ⟨outcome, hstep, hacc⟩ := hone
      obtain ⟨hafter, haccs, hbegun, hended⟩ := runs_cons hstep es
      obtain ⟨hafter', htaken, hstarted, hended'⟩ := Admission.runs_cons
        (rfl : Admission.step maxConcurrent maxQueue t moved = _) (moves internalKey es)
      have hmoves : moves internalKey (e :: es) = moved :: moves internalKey es :=
        List.filterMap_cons_some hmove
      obtain ⟨ih1, ih2, ih3, ih4⟩ := ih (Admission.step maxConcurrent maxQueue t moved).1
      rw [hmoves, hafter, haccs, hbegun, hended, hacc, hafter', htaken,
        hstarted, hended', ih1, ih2, ih3, ih4]
      exact ⟨rfl, rfl, rfl, rfl⟩

/-- The server a run from its start leads to is an orderly station. -/
theorem exists_station (internalKey : Option String) (es : List Event) :
    ∃ t, serverAfter internalKey .idle es = ofStation t ∧
      Admission.Orderly maxConcurrent maxQueue t := by
  refine ⟨_, (run_ofStation internalKey .empty es).1, ?_⟩
  exact (Admission.run_spec (Admission.Orderly.empty ..) _).1

/-! ## The sessions -/

/-- What the station has done with the events. -/
theorem idle_run (internalKey : Option String) (es : List Event) :
    begun internalKey .idle es ++ (serverAfter internalKey .idle es).pendingQueue =
        accepted internalKey .idle es ∧
      (ended internalKey .idle es ++ (serverAfter internalKey .idle es).sessions).Perm
        (begun internalKey .idle es) := by
  have hidle : ofStation .empty = .idle := rfl
  obtain ⟨hafter, htaken, hstarted, hended⟩ := run_ofStation internalKey .empty es
  rw [hidle] at hafter htaken hstarted hended
  rw [hafter, htaken, hstarted, hended]
  exact (Admission.run_spec (Admission.Orderly.empty ..) _).2

/-- **First come, first served, and none lost.**  Over any requests and any ends
of sessions, in any order: the counter is the number of sessions that run, at
most five run and at most fifty triggers wait, and one waits only while five run;
the sessions that have begun, then the triggers that wait, are the accepted
triggers in the order they were accepted; and a session that has begun has ended
or still runs. -/
theorem serves_in_order (internalKey : Option String) (es : List Event) :
    let server := serverAfter internalKey .idle es
    server.activeSessions = server.sessions.length ∧ server.activeSessions ≤ 5 ∧
      server.pendingQueue.length ≤ 50 ∧
      (server.pendingQueue ≠ [] → server.activeSessions = 5) ∧
      begun internalKey .idle es ++ server.pendingQueue = accepted internalKey .idle es ∧
      (ended internalKey .idle es ++ server.sessions).Perm (begun internalKey .idle es) := by
  intro server
  obtain ⟨t, hserver, hord⟩ := exists_station internalKey es
  obtain ⟨hfifo, hkept⟩ := idle_run internalKey es
  have hstation : server = ofStation t := hserver
  refine ⟨?_, ?_, ?_, ?_, hfifo, hkept⟩
  · rw [hstation]
    rfl
  · rw [hstation]
    exact hord.running_le
  · rw [hstation]
    exact hord.waiting_le
  · rw [hstation]
    exact hord.full

/-- **No trigger is overtaken.**  A trigger that waits begins just when one session
more has ended than triggers stood ahead of it, whatever requests come in
between. -/
theorem begins_in_turn (internalKey : Option String) (before later : List Event)
    (ahead behind : List QueuedTrigger) (msg : QueuedTrigger)
    (h : (serverAfter internalKey .idle before).pendingQueue = ahead ++ msg :: behind) :
    ahead ++ [msg] <+: begun internalKey (serverAfter internalKey .idle before) later ↔
      ahead.length < (ended internalKey (serverAfter internalKey .idle before) later).length := by
  obtain ⟨t, hserver, hord⟩ := exists_station internalKey before
  obtain ⟨-, -, hstarted, hended⟩ := run_ofStation internalKey t later
  rw [hserver] at h ⊢
  rw [hstarted, hended]
  exact Admission.started_in_turn hord h _

/-! ## The dispatcher -/

/-- What `fetch` makes of a header value: white space at its ends goes, and a
character no header can hold makes it throw. -/
def headerValue (value : String) : Option String :=
  let isSpace := fun c : Char => c = ' ' || c = '\t' || c = '\n' || c = '\r'
  let cs := (value.toList.dropWhile isSpace).rdropWhile isSpace
  if cs.all fun c => c.toNat ≤ 0xFF && c.toNat ≠ 0 && c ≠ '\n' && c ≠ '\r' then
    some (String.ofList cs)
  else none

/-- The environment of the backend. -/
structure DispatchEnv where
  /-- What follows the origin in `LOOPSTORM_SUPERVISOR_URL`, where that is set. -/
  supervisorPath : Option String
  supervisorKey : Option String
  backendUrl : Option String
  apiKey : Option String

/-- The body that is posted. -/
def dispatchBody (env : DispatchEnv) (message : TriggerMessage) : Json String ℚ :=
  .obj [("trigger", .str message.trigger), ("trigger_run_id", .str message.triggerRunId),
    ("tenant_id", .str message.tenantId), ("priority", .num message.priority),
    ("backend_url", .str (env.backendUrl.getD "http://localhost:3001")),
    ("api_key", .str (env.apiKey.getD ""))]

/-- The `Authorization` header, unless it makes `fetch` throw. -/
def DispatchEnv.authorization (env : DispatchEnv) : Option (Option String) :=
  match env.supervisorKey with
  | none => some none
  | some key => if key = "" then some none else (headerValue ("Bearer " ++ key)).map some

/-- `dispatchTriggerDirect`: the request that goes out, if one does. -/
def dispatchTrigger (numberText : ℚ → List Char) (env : DispatchEnv) (message : TriggerMessage) :
    Option Request := do
  let path ← env.supervisorPath
  let authorization ← env.authorization
  return { method := "POST"
           pathname := path ++ "/api/trigger"
           authorization := authorization
           body := String.ofList (Json.render Json.quote numberText (dispatchBody env message)) }

/-- Every text the server asks for is there. -/
structure Told (message : TriggerMessage) : Prop where
  trigger : message.trigger ≠ ""
  triggerRunId : message.triggerRunId ≠ ""
  tenantId : message.tenantId ≠ ""

/-- A queued trigger holds what a message says. -/
def Holds (msg : QueuedTrigger) (message : TriggerMessage) : Prop :=
  property "trigger" msg.body = some (.str message.trigger) ∧
    property "trigger_run_id" msg.body = some (.str message.triggerRunId) ∧
    property "tenant_id" msg.body = some (.str message.tenantId)

section Dispatch

variable {numberText : ℚ → List Char} {env : DispatchEnv} {message : TriggerMessage}

theorem dispatchTrigger_eq_some {req : Request}
    (h : dispatchTrigger numberText env message = some req) :
    ∃ path authorization, env.supervisorPath = some path ∧ env.authorization = some authorization ∧
      req = ⟨"POST", path ++ "/api/trigger", authorization,
        String.ofList (Json.render Json.quote numberText (dispatchBody env message))⟩ := by
  rw [dispatchTrigger, Option.bind_eq_bind, Option.bind_eq_some_iff] at h
  obtain ⟨path, hpath, h⟩ := h
  rw [Option.bind_eq_bind, Option.bind_eq_some_iff] at h
  obtain ⟨authorization, hauth, h⟩ := h
  exact ⟨path, authorization, hpath, hauth, (Option.some.inj h).symm⟩

theorem complete_dispatchBody (h : Told message) :
    complete (Json.mapNum numberText (dispatchBody env message)) = true := by
  simp [complete, requiredFields, property, dispatchBody, Json.mapNum, Json.mapNumM, Json.lookup,
    truthy, h.trigger, h.triggerRunId, h.tenantId]

/-- The trigger a message is to the server. -/
def queued (numberText : ℚ → List Char) (env : DispatchEnv) (h : Told message) : QueuedTrigger :=
  ⟨Json.mapNum numberText (dispatchBody env message), complete_dispatchBody h⟩

theorem holds_queued (h : Told message) : Holds (queued numberText env h) message := by
  simp [Holds, queued, property, dispatchBody, Json.mapNum, Json.mapNumM, Json.lookup]

/-- **What the backend posts is read as it was meant**, if the sender is let in. -/
theorem readTrigger_dispatched (hnumber : ∀ q, Json.IsNumber (numberText q))
    (h : Told message) {req : Request} (hreq : dispatchTrigger numberText env message = some req)
    {internalKey : Option String} (hauth : authorised internalKey req = true) :
    readTrigger internalKey req = .trigger (queued numberText env h) := by
  obtain ⟨path, authorization, -, -, rfl⟩ := dispatchTrigger_eq_some hreq
  rw [readTrigger, if_neg (by simp [hauth])]
  simp only [String.toList_ofList, Json.parse_render numberText hnumber]
  exact dif_pos (complete_dispatchBody h)

/-- The two sides share a key that a header can hold, or none. -/
structure Agreed (env : DispatchEnv) (internalKey : Option String) : Prop where
  origin : env.supervisorPath = some ""
  same : env.supervisorKey = internalKey
  legal : ∀ key ∈ internalKey, key ≠ "" → headerValue ("Bearer " ++ key) = some ("Bearer " ++ key)

variable {internalKey : Option String}

/-- Every message is posted, to the right place and with the right key. -/
theorem Agreed.dispatch (h : Agreed env internalKey) (numberText : ℚ → List Char)
    (message : TriggerMessage) :
    ∃ req, dispatchTrigger numberText env message = some req ∧ isTrigger req = true ∧
      authorised internalKey req = true := by
  obtain ⟨authorization, hauth, hright⟩ : ∃ authorization,
      env.authorization = some authorization ∧
        ∀ key ∈ internalKey, key ≠ "" → authorization = some ("Bearer " ++ key) := by
    rw [DispatchEnv.authorization, h.same]
    cases hkey : internalKey with
    | none => exact ⟨none, rfl, fun _ hmem => absurd hmem (Option.not_mem_none _)⟩
    | some key =>
      by_cases hempty : key = ""
      · refine ⟨none, if_pos hempty, fun other hmem hne => ?_⟩
        obtain rfl := Option.some.inj hmem
        exact absurd hempty hne
      · refine ⟨some ("Bearer " ++ key), ?_, fun other hmem _ => ?_⟩
        · have hlegal := h.legal key hkey hempty
          simp [hempty, hlegal]
        · obtain rfl := Option.some.inj hmem
          rfl
  refine ⟨⟨"POST", "" ++ "/api/trigger", authorization,
    String.ofList (Json.render Json.quote numberText (dispatchBody env message))⟩, ?_, rfl, ?_⟩
  · rw [dispatchTrigger, h.origin, hauth]
    rfl
  · unfold authorised
    split
    · rfl
    · next key =>
      by_cases hempty : key = ""
      · simp [hempty]
      · simp [hright key rfl hempty]

/-- One message posted: the server takes it in, or has no room. -/
theorem step_dispatched (hnumber : ∀ q, Json.IsNumber (numberText q)) (h : Told message)
    (hagreed : Agreed env internalKey) (t : Admission.Station QueuedTrigger) :
    ∃ req u status body begun, dispatchTrigger numberText env message = some req ∧
      step internalKey (ofStation t) (.request req) =
        (ofStation u, ⟨some (.responded status body), begun, []⟩) ∧
      acceptedBy internalKey (.request req, ⟨some (.responded status body), begun, []⟩) =
        (if status = 200 then [queued numberText env h] else []) ∧
      (status = 200 ∨ status = 503) := by
  obtain ⟨req, hreq, htrigger, hauth⟩ := hagreed.dispatch numberText message
  have hread := readTrigger_dispatched hnumber h hreq hauth
  have hhealth : isHealth req = false := by
    rw [isTrigger, Bool.and_eq_true, decide_eq_true_eq] at htrigger
    rw [isHealth, htrigger.1]
    rfl
  obtain ⟨status, body, hanswer, -, -, hstatus⟩ := onTrigger_ofStation t (queued numberText env h)
  have hof : triggerOf internalKey req = some (queued numberText env h) := by
    rw [triggerOf, if_pos htrigger, hread]
  have hstep : step internalKey (ofStation t) (.request req) =
      (ofStation (Admission.step maxConcurrent maxQueue t (.arrive (queued numberText env h))).1,
        ⟨some (.responded status body),
          (Admission.step maxConcurrent maxQueue t (.arrive (queued numberText env h))).2.started,
          []⟩) := by
    rw [step, Server.fetch, if_neg (by simp [hhealth]), if_pos htrigger, hread]
    simp only [hanswer]
  exact ⟨req, _, status, body, _, hreq, hstep, acceptedBy_responded hof status body _ _, hstatus⟩

end Dispatch

/-! ## Both ends -/

/-- A message posted, or a session settled. -/
def delivery (numberText : ℚ → List Char) (env : DispatchEnv) : TriggerMessage ⊕ ℕ → Option Event
  | .inl message => (dispatchTrigger numberText env message).map .request
  | .inr place => some (.settled place)

/-- Messages and ends of sessions, in the order they reach the server. -/
def deliveries (numberText : ℚ → List Char) (env : DispatchEnv) (xs : List (TriggerMessage ⊕ ℕ)) :
    List Event :=
  xs.filterMap (delivery numberText env)

def messages (xs : List (TriggerMessage ⊕ ℕ)) : List TriggerMessage := xs.filterMap Sum.getLeft?

/-- The answer that there is no room. -/
def Reply.isFull (reply : Reply) : Bool :=
  match reply.outcome with
  | some (.responded 503 _) => true
  | _ => false

/-- Every message is taken in, or told that there is no room. -/
theorem accepted_deliveries {numberText : ℚ → List Char} {env : DispatchEnv}
    {internalKey : Option String} (hnumber : ∀ q, Json.IsNumber (numberText q))
    (hagreed : Agreed env internalKey) (t : Admission.Station QueuedTrigger)
    {xs : List (TriggerMessage ⊕ ℕ)} (htold : ∀ message ∈ messages xs, Told message) :
    ∃ kept, kept.Sublist (messages xs) ∧
      List.Forall₂ Holds (accepted internalKey (ofStation t) (deliveries numberText env xs)) kept ∧
      kept.length + (replies internalKey (ofStation t)
        (deliveries numberText env xs)).countP Reply.isFull = (messages xs).length := by
  induction xs generalizing t with
  | nil => exact ⟨[], List.Sublist.refl _, List.Forall₂.nil, rfl⟩
  | cons x xs ih =>
    cases x with
    | inl message =>
      have hmessages : messages (.inl message :: xs) = message :: messages xs := rfl
      rw [hmessages] at htold ⊢
      have hhead : Told message := htold message (List.mem_cons_self ..)
      obtain ⟨req, u, status, body, begun, hreq, hstep, hacc, hstatus⟩ :=
        step_dispatched hnumber hhead hagreed t
      obtain ⟨kept, hsub, hholds, hlen⟩ := ih u fun m hm => htold m (List.mem_cons_of_mem _ hm)
      have hes : deliveries numberText env (.inl message :: xs) =
          .request req :: deliveries numberText env xs := by
        refine List.filterMap_cons_some ?_
        rw [delivery, hreq]
        rfl
      rw [hes, (runs_cons hstep _).2.1, hacc, replies, Run.outputs, hstep]
      rcases hstatus with rfl | rfl
      · refine ⟨message :: kept, hsub.cons_cons _, ?_, ?_⟩
        · exact List.Forall₂.cons (holds_queued hhead) hholds
        · rw [List.countP_cons_of_neg (by simp [Reply.isFull]), List.length_cons, List.length_cons,
            ← hlen]
          exact Nat.succ_add _ _
      · refine ⟨kept, hsub.cons _, hholds, ?_⟩
        rw [List.countP_cons_of_pos (by simp [Reply.isFull]), List.length_cons, ← hlen]
        rfl
    | inr place =>
      have hes : deliveries numberText env (.inr place :: xs) =
          .settled place :: deliveries numberText env xs := rfl
      obtain ⟨kept, hsub, hholds, hlen⟩ :=
        ih (Admission.step maxConcurrent maxQueue t (.finish place)).1 htold
      have hstep := step_settled internalKey t place
      rw [hes, (runs_cons hstep _).2.1, replies, Run.outputs, hstep]
      refine ⟨kept, hsub, hholds, ?_⟩
      rw [List.countP_cons_of_neg (by simp [Reply.isFull])]
      exact hlen

namespace Sample

/-- A trigger of a run. -/
def loopTrigger (runId : String) : TriggerMessage :=
  ⟨"terminated_loop", runId, "t1", 1, "2026-04-05T10:00:00.000Z"⟩

theorem told_loopTrigger {runId : String} (h : runId ≠ "") : Told (loopTrigger runId) where
  trigger := by simp [loopTrigger]
  triggerRunId := h
  tenantId := by simp [loopTrigger]

def wholeText (q : ℚ) : List Char := Json.intText q.num

theorem isNumber_wholeText (q : ℚ) : Json.IsNumber (wholeText q) := Json.isNumber_intText q.num

def dispatchEnv : DispatchEnv := ⟨some "", some "k", none, none⟩

theorem agreed_dispatchEnv : Agreed dispatchEnv (some "k") where
  origin := rfl
  same := rfl
  legal key hkey _ := by
    obtain rfl := Option.some.inj hkey
    decide

/-- Three triggers, and one session that settles. -/
def traffic : List (TriggerMessage ⊕ ℕ) :=
  [.inl (loopTrigger "r1"), .inl (loopTrigger "r2"), .inr 0, .inl (loopTrigger "r3")]

/-- The request a trigger goes out as. -/
def loopRequest : Request :=
  ⟨"POST", "" ++ "/api/trigger", some "Bearer k",
    String.ofList (Json.render Json.quote wholeText (dispatchBody dispatchEnv (loopTrigger "r1")))⟩

def loopQueued : QueuedTrigger :=
  ⟨Json.mapNum wholeText (dispatchBody dispatchEnv (loopTrigger "r1")),
    complete_dispatchBody (told_loopTrigger (by decide))⟩

theorem stationEvent_loopRequest :
    stationEvent (some "k") (.request loopRequest) = some (.arrive loopQueued) := by
  have hread : readTrigger (some "k") loopRequest = .trigger loopQueued :=
    readTrigger_dispatched isNumber_wholeText (told_loopTrigger (by decide))
      (by decide +kernel : dispatchTrigger wholeText dispatchEnv (loopTrigger "r1") = _) (by decide)
  rw [stationEvent, triggerOf, if_pos (by decide), hread]
  rfl

/-- Six triggers leave one waiting. -/
theorem pendingQueue_six :
    (serverAfter (some "k") .idle (List.replicate 6 (.request loopRequest))).pendingQueue =
      [] ++ loopQueued :: [] := by
  have hmoves : moves (some "k") (List.replicate 6 (.request loopRequest)) =
      List.replicate 6 (.arrive loopQueued) := by
    simp only [moves, List.replicate, List.filterMap_cons_some stationEvent_loopRequest,
      List.filterMap_nil]
  have hrun := (run_ofStation (some "k") .empty (List.replicate 6 (.request loopRequest))).1
  rw [hmoves] at hrun
  exact congrArg Server.pendingQueue hrun

theorem begins_in_turn_six :
    [] ++ [loopQueued] <+: begun (some "k")
        (serverAfter (some "k") .idle (List.replicate 6 (.request loopRequest))) [.settled 2] ↔
      0 < (ended (some "k")
        (serverAfter (some "k") .idle (List.replicate 6 (.request loopRequest)))
        [.settled 2]).length :=
  begins_in_turn (some "k") (List.replicate 6 (.request loopRequest)) [.settled 2] [] []
    loopQueued pendingQueue_six

end Sample

end LoopStorm.Supervisor
