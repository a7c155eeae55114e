import LoopStorm.Backend.Event
import LoopStorm.Engine.Telemetry

/-!
# A supervisor session

`SupervisorSession` of `apps/supervisor/src/session.ts`: a language model is
asked again and again, the tools it names are run, and an event tells the
backend of each.

* `World` — whatever answers the session: the model, the handlers of the tools,
  the backend; none of them is assumed to do anything in particular.
* `Session`, `execute` — the session and its loop, with a record of what it did.
* `Did`, `turn_did` — what one turn of the loop can do.
* `execute_trips_iff` — a response ends its session at once, in an error, if
  and only if the tripwire fires on its texts.
* `Keeps`, `Keeps.execute` — what everything that answers a session keeps holds
  after it.
* `tripwire_iff` — **the tripwire**: it holds back a response with the key in
  it exactly in the sessions whose responses have the key in their texts.
-/

namespace LoopStorm.Supervisor

open LoopStorm.Backend (jsLength)
open LoopStorm.Engine (Sha256 sha256Hex)
open LoopStorm.Shim (ReplyValue)

/-! ## Messages -/

/-- A block of the content of a message. -/
inductive ContentBlock where
  | text (text : String)
  | toolUse (id name : String) (input : ReplyValue)
  | toolResult (toolUseId content : String)

/-- The content of a message. -/
inductive Content where
  | text (text : String)
  | blocks (blocks : List ContentBlock)

/-- A message of the conversation. -/
inductive Message where
  | user (content : Content)
  | assistant (content : Content)

/-- Why the model stopped. -/
inductive StopReason where
  | endTurn
  | toolUse
  | maxTokens
  deriving DecidableEq

/-- What the model answers. -/
structure LLMResponse where
  content : List ContentBlock
  stopReason : StopReason
  inputTokens : Nat
  outputTokens : Nat

/-- The texts of a response, one to a line. -/
def LLMResponse.text (response : LLMResponse) : List Char :=
  let texts := response.content.filterMap fun
    | .text text => some text.toList
    | _ => none
  ['\n'].intercalate texts

/-- The calls of tools in a response. -/
def LLMResponse.toolUses (response : LLMResponse) : List (String × String × ReplyValue) :=
  response.content.filterMap fun
    | .toolUse id name input => some (id, name, input)
    | _ => none

mutual
/-- The strings in a value, keys of objects among them. -/
def strings : ReplyValue → List String
  | .null | .bool _ | .num _ => []
  | .str s => [s]
  | .arr xs => stringsL xs
  | .obj ms => stringsM ms

/-- The strings in the elements of an array. -/
def stringsL : List ReplyValue → List String
  | [] => []
  | x :: xs => strings x ++ stringsL xs

/-- The strings in the members of an object. -/
def stringsM : List (String × ReplyValue) → List String
  | [] => []
  | (k, v) :: ms => k :: (strings v ++ stringsM ms)
end

/-- The strings in a block. -/
def ContentBlock.strings : ContentBlock → List String
  | .text s => [s]
  | .toolUse id name input => id :: name :: Supervisor.strings input
  | .toolResult toolUseId content => [toolUseId, content]

/-- A key is in a string of a response. -/
def LLMResponse.Leaks (key : String) (response : LLMResponse) : Prop :=
  ∃ block ∈ response.content, ∃ s ∈ block.strings, key.toList <:+: s.toList

instance (key : String) (response : LLMResponse) : Decidable (response.Leaks key) :=
  inferInstanceAs
    (Decidable (∃ block ∈ response.content, ∃ s ∈ block.strings, key.toList <:+: s.toList))

/-- `checkTripwire`. -/
def checkTripwire (responseText : List Char) : Option String → Bool
  | none => false
  | some internalKey => internalKey ≠ "" && decide (internalKey.toList <:+: responseText)

/-! ## Tools -/

/-- The tools of `TOOL_REGISTRY`. -/
def toolNames : List String :=
  ["read_run_events", "read_agent_baseline", "read_policy_pack", "query_similar_runs",
    "compute_risk_score", "analyze_loop_pattern", "evaluate_recovery_effectiveness",
    "propose_budget_adjustment", "flag_for_review", "escalate_to_human",
    "record_incident_pattern", "update_agent_profile", "record_intervention_outcome"]

/-- The names that any object has, the registry like every other. -/
def objectNames : List String :=
  ["constructor", "hasOwnProperty", "isPrototypeOf", "propertyIsEnumerable", "toLocaleString",
    "toString", "valueOf", "__defineGetter__", "__defineSetter__", "__lookupGetter__",
    "__lookupSetter__", "__proto__"]

/-- `TOOL_REGISTRY[name]` is something. -/
def hasEntry (name : String) : Bool := name ∈ toolNames || name ∈ objectNames

/-- What comes of running a handler. -/
inductive Handled where
  | returned (result : ReplyValue)
  | threw (message : String)

/-- `JSON.stringify` of an error. -/
def errorText (message : String) : List Char :=
  Json.render Json.quote id (.obj [("error", .str message)])

/-- Maximum length of untrusted content. -/
def untrustedContentMaxChars : Nat := 4096

/-- Serialize a tool result, or a note about it when it is too long. -/
def sanitizeToolResult (result : ReplyValue) : List Char :=
  let json := Json.render Json.quote id result
  let length := jsLength (String.ofList json)
  if untrustedContentMaxChars < length then
    Json.render Json.quote id (.obj
      [("_truncated", .bool true),
        ("_original_length", .num (Json.natText length)),
        ("_note", .str ("Result exceeded 4096 chars and was dropped. " ++
          "Re-query with narrower parameters."))])
  else json

/-! ## The session -/

/-- The fields of an event. -/
abbrev Fields : Type := List (String × ReplyValue)

/-- Whatever answers a session, and the state it is in. -/
structure World (σ : Type) where
  /-- the model, or its error -/
  chat : σ → List Message → σ × Option LLMResponse
  /-- the handler of a tool -/
  handle : σ → String → ReplyValue → σ × Handled
  /-- `supervisorTools.emitEvent`: has it accepted the event? -/
  emitEvent : σ → Fields → σ × Bool
  /-- the time -/
  now : σ → String

/-- What a session is started with. -/
structure SessionParams where
  supervisorRunId : String
  /-- the run of its own events -/
  supervisorRunUuid : String
  trigger : String
  triggerRunId : String
  /-- what `buildTriggerMessage` makes of the two -/
  triggerMessage : String
  internalKey : Option String

/-- What a session does to the world. -/
inductive Effect where
  /-- the model has answered -/
  | answered (response : LLMResponse)
  /-- a handler was run -/
  | handled (name : String) (input : ReplyValue)
  /-- an event was sent, and accepted or not -/
  | sent (event : Fields) (accepted : Bool)

/-- `terminationReason`. -/
inductive TerminationReason where
  | endTurn
  | maxTokens
  | budgetExhausted
  | error
  deriving DecidableEq

/-- A session, the world it runs in and the record of what it has done. -/
structure Session (σ : Type) where
  totalInputTokens : Nat
  totalOutputTokens : Nat
  toolCallCount : Nat
  eventSeq : Nat
  lastHash : Option String
  messages : List Message
  world : σ
  record : List Effect

/-- Maximum tool calls per session. -/
def maxToolCalls : Nat := 100

/-- Maximum cost per session in USD. -/
def maxSessionCostUsd : ℚ := 2

variable {σ : Type}

/-- `estimatedCostUsd`. -/
def Session.estimatedCostUsd (s : Session σ) : ℚ :=
  s.totalInputTokens * (27 / 100 / 1000000) + s.totalOutputTokens * (11 / 10 / 1000000)

/-- The budget of a session is used up. -/
def Session.spent (s : Session σ) : Bool := decide (maxSessionCostUsd ≤ s.estimatedCostUsd)

section Execute

variable [Sha256] (w : World σ) (p : SessionParams)

/-- An event without its hashes. -/
def payload (s : Session σ) (eventType : String) (extra : Fields) : Fields :=
  [("schema_version", .num ['1']),
    ("event_type", .str eventType),
    ("run_id", .str p.supervisorRunUuid),
    ("seq", .num (Json.natText (s.eventSeq + 1))),
    ("ts", .str (w.now s.world)),
    ("supervisor_run_id", .str p.supervisorRunId),
    ("agent_name", .str "loopstorm-supervisor")] ++ extra

/-- The hash of an event. -/
def payloadHash (payload : Fields) : String :=
  sha256Hex (String.ofList (Json.render Json.quote id (.obj payload)))

/-- An event as it is sent. -/
def eventOf (s : Session σ) (eventType : String) (extra : Fields) : Fields :=
  payload w p s eventType extra ++
    [("hash", .str (payloadHash (payload w p s eventType extra))),
      ("hash_prev", match s.lastHash with | some h => .str h | none => .null)]

/-- `emitEvent`: a failure is logged and passed over. -/
def emitEvent (s : Session σ) (eventType : String) (extra : Fields) : Session σ :=
  let event := eventOf w p s eventType extra
  let (world, accepted) := w.emitEvent s.world event
  { s with
    eventSeq := s.eventSeq + 1
    lastHash := if accepted then some (payloadHash (payload w p s eventType extra)) else s.lastHash
    world := world
    record := s.record ++ [.sent event accepted] }

/-- The fields every event has beside the common ones. -/
def triggerFields : Fields :=
  [("trigger", .str p.trigger), ("trigger_run_id", .str p.triggerRunId)]

/-- A field of an input, or `null`. -/
def fieldOrNull (input : ReplyValue) (field : String) : ReplyValue :=
  match input with
  | .obj ms => (Json.lookup field ms).getD .null
  | _ => .null

/-- The event of a proposal or an escalation. -/
def specialEvent (name : String) (input : ReplyValue) : Option (String × Fields) :=
  if name = "propose_budget_adjustment" ∨ name = "flag_for_review" then
    some ("supervisor_proposal_created", triggerFields p ++
      [("proposal_type", .str
          (if name = "propose_budget_adjustment" then "budget_adjustment" else "flag_for_review")),
        ("target_agent", fieldOrNull input "target_agent"),
        ("rationale", fieldOrNull input "rationale"),
        ("confidence", fieldOrNull input "confidence"),
        ("status", .str "pending_approval")])
  else if name = "escalate_to_human" then
    some ("supervisor_escalation_created", triggerFields p ++
      [("severity", fieldOrNull input "severity"),
        ("rationale", fieldOrNull input "rationale"),
        ("confidence", fieldOrNull input "confidence"),
        ("recommendation", fieldOrNull input "recommendation"),
        ("timeout_seconds", fieldOrNull input "timeout_seconds"),
        ("timeout_action", fieldOrNull input "timeout_action")])
  else none

/-- Run the handler of a tool; whatever it throws becomes its result. -/
def dispatch (s : Session σ) (name : String) (input : ReplyValue) : Session σ × List Char :=
  if name ∈ toolNames then
    let (world, outcome) := w.handle s.world name input
    ({ s with world := world, record := s.record ++ [.handled name input] },
      match outcome with
      | .returned result => sanitizeToolResult result
      | .threw message => errorText message)
  else if name ∈ objectNames then (s, errorText "entry.handler is not a function")
  else (s, errorText ("Unknown tool: " ++ name))

/-- One call of a tool and its events, unless reading a field of the input
throws. -/
def runTool (s : Session σ) (call : String × String × ReplyValue) :
    Session σ × Option ContentBlock :=
  let (id, name, input) := call
  let (s, resultContent) := dispatch w { s with toolCallCount := s.toolCallCount + 1 } name input
  let s := emitEvent w p s "supervisor_tool_call"
    (triggerFields p ++ [("rationale", .str ("Tool call: " ++ name))])
  let result := ContentBlock.toolResult id (String.ofList resultContent)
  if hasEntry name && !decide ("\"error\"".toList <:+: resultContent) then
    match specialEvent p name input with
    | none => (s, some result)
    | some (eventType, extra) =>
      match input with
      | .null => (s, none)
      | _ => (emitEvent w p s eventType extra, some result)
  else (s, some result)

/-- The calls of a response, until the budget or the number of calls runs out. -/
def runTools (s : Session σ) (results : List ContentBlock) :
    List (String × String × ReplyValue) → Session σ × Option (List ContentBlock)
  | [] => (s, some results)
  | call :: calls =>
    match runTool w p s call with
    | (s, none) => (s, none)
    | (s, some result) =>
      if s.spent || decide (maxToolCalls ≤ s.toolCallCount) then (s, some (results ++ [result]))
      else runTools s (results ++ [result]) calls

/-- A message of the session and the model. -/
def Session.add (s : Session σ) (message : Message) : Session σ :=
  { s with messages := s.messages ++ [message] }

/-- What is done with a response: the reason to stop, or none. -/
def respond (s : Session σ) (response : LLMResponse) : Session σ × Option TerminationReason :=
  if checkTripwire response.text p.internalKey then (s, some .error)
  else
    let spoken := s.add (.assistant (.blocks response.content))
    match response.stopReason with
    | .endTurn => (spoken, some .endTurn)
    | .maxTokens => (spoken, some .maxTokens)
    | .toolUse =>
      match response.toolUses with
      | [] => (spoken, some .endTurn)
      | calls =>
        match runTools w p spoken [] calls with
        | (s, none) => (s, some .error)
        | (s, some results) => (s.add (.user (.blocks results)), none)

/-- One turn of the loop: the reason to stop, or none. -/
def turn (s : Session σ) : Session σ × Option TerminationReason :=
  if s.spent then
    (emitEvent w p s "supervisor_tool_call"
      (triggerFields p ++ [("rationale", .str "Session terminated: budget exhausted")]),
      some .budgetExhausted)
  else
    match w.chat s.world s.messages with
    | (world, none) => ({ s with world := world }, some .error)
    | (world, some response) =>
      respond w p
        { s with
          totalInputTokens := s.totalInputTokens + response.inputTokens
          totalOutputTokens := s.totalOutputTokens + response.outputTokens
          world := world
          record := s.record ++ [.answered response] } response

/-- The reason that is reported. -/
def Session.reported (s : Session σ) (reason : TerminationReason) : TerminationReason :=
  if maxToolCalls ≤ s.toolCallCount ∧ reason = .endTurn then .budgetExhausted else reason

/-- The loop, for a number of turns at most. -/
def loop : Nat → Session σ → Session σ × TerminationReason
  | 0, s => (s, s.reported .endTurn)
  | fuel + 1, s =>
    if s.toolCallCount < maxToolCalls then
      match turn w p s with
      | (s, some reason) => (s, s.reported reason)
      | (s, none) => loop fuel s
    else (s, s.reported .endTurn)

/-- A session that has told the backend of its start. -/
def started (world : σ) : Session σ :=
  emitEvent w p ⟨0, 0, 0, 0, none, [.user (.text p.triggerMessage)], world, []⟩
    "supervisor_run_started" (triggerFields p)

/-- `execute`: every turn that does not end the loop calls a tool. -/
def execute (world : σ) : Session σ × TerminationReason :=
  loop w p maxToolCalls (started w p world)

end Execute

/-! ## Fields -/

/-- The fields of every event. -/
def commonFields : List String :=
  ["schema_version", "event_type", "run_id", "seq", "ts", "supervisor_run_id", "agent_name",
    "hash", "hash_prev"]

/-- Fields that override none of these. -/
def Spare (extra : Fields) : Prop := ∀ m ∈ extra, m.1 ∉ commonFields

theorem spare_rationale (p : SessionParams) (rationale : String) :
    Spare (triggerFields p ++ [("rationale", .str rationale)]) := by
  simp [Spare, triggerFields, commonFields]

theorem spare_specialEvent {p : SessionParams} {name : String} {input : ReplyValue}
    {event : String × Fields} (h : specialEvent p name input = some event) : Spare event.2 := by
  unfold specialEvent at h
  split_ifs at h
  all_goals
    cases h
    simp [Spare, triggerFields, commonFields]

/-! ## Effects -/

/-- No response of the model is among some effects. -/
def Silent (did : List Effect) : Prop := ∀ response, .answered response ∉ did

theorem silent_sent (event : Fields) (accepted : Bool) : Silent [.sent event accepted] := by
  intro response h
  cases List.mem_singleton.1 h

theorem Silent.append {did did' : List Effect} (h : Silent did) (h' : Silent did') :
    Silent (did ++ did') := by
  intro response hmem
  rcases List.mem_append.1 hmem with hmem | hmem
  · exact h response hmem
  · exact h' response hmem

/-- Each response ends the session at once, in an error, if and only if the
tripwire fires on it. -/
def Trips (internalKey : Option String) (reason : TerminationReason) : List Effect → Prop
  | [] => True
  | .answered response :: rest =>
    (checkTripwire response.text internalKey = true ↔ rest = [] ∧ reason = .error) ∧
      Trips internalKey reason rest
  | .handled .. :: rest | .sent .. :: rest => Trips internalKey reason rest

theorem Silent.trips_append {internalKey : Option String} {reason : TerminationReason}
    {did rest : List Effect} (h : Silent did) (hrest : Trips internalKey reason rest) :
    Trips internalKey reason (did ++ rest) := by
  induction did with
  | nil => exact hrest
  | cons effect did ih =>
    have hdid : Silent did := fun response hmem => h response (List.mem_cons_of_mem _ hmem)
    cases effect with
    | answered response => exact absurd List.mem_cons_self (h response)
    | handled name input => exact ih hdid
    | sent event accepted => exact ih hdid

theorem Silent.trips {internalKey : Option String} {reason : TerminationReason}
    {did : List Effect} (h : Silent did) : Trips internalKey reason did := by
  rw [← List.append_nil did]
  exact h.trips_append trivial

theorem Trips.at {internalKey : Option String} {reason : TerminationReason}
    {pre post : List Effect} {response : LLMResponse}
    (h : Trips internalKey reason (pre ++ .answered response :: post)) :
    checkTripwire response.text internalKey = true ↔ post = [] ∧ reason = .error := by
  induction pre with
  | nil => exact h.1
  | cons effect pre ih =>
    cases effect with
    | answered response => exact ih h.2
    | handled name input => exact ih h
    | sent event accepted => exact ih h

/-- What is reported is an error exactly when the loop has ended in one. -/
theorem reported_eq_error {s : Session σ} {reason : TerminationReason} :
    s.reported reason = .error ↔ reason = .error := by
  unfold Session.reported
  split_ifs with h
  · rw [h.2]
    decide
  · exact Iff.rfl

theorem checkTripwire_iff {key : String} (hkey : key ≠ "") (responseText : List Char) :
    checkTripwire responseText (some key) = true ↔ key.toList <:+: responseText := by
  simp [checkTripwire, hkey]

/-- What one turn can do, and what it then stops for. -/
inductive Did (internalKey : Option String) : List Effect → Option TerminationReason → Prop
  /-- the budget is used up -/
  | told (event : Fields) (accepted : Bool) :
    Did internalKey [.sent event accepted] (some .budgetExhausted)
  /-- the model has failed -/
  | failed : Did internalKey [] (some .error)
  /-- the tripwire has fired -/
  | tripped (response : LLMResponse) (fires : checkTripwire response.text internalKey = true) :
    Did internalKey [.answered response] (some .error)
  /-- there was nothing to call -/
  | ended (response : LLMResponse) (quiet : checkTripwire response.text internalKey = false)
      (reason : TerminationReason) (fine : reason ≠ .error) :
    Did internalKey [.answered response] (some reason)
  /-- tools were called -/
  | called (response : LLMResponse) (quiet : checkTripwire response.text internalKey = false)
      (did : List Effect) (silent : Silent did) (some_call : did ≠ [])
      (reason : Option TerminationReason) :
    Did internalKey (.answered response :: did) reason

/-- A turn that ends the loop. -/
theorem Did.trips {internalKey : Option String} {did : List Effect} {reason : TerminationReason}
    {s : Session σ} (h : Did internalKey did (some reason)) :
    Trips internalKey (s.reported reason) did := by
  cases h with
  | told event accepted => exact (silent_sent event accepted).trips
  | failed => trivial
  | tripped response hfires =>
    exact ⟨iff_of_true hfires ⟨rfl, reported_eq_error.2 rfl⟩, trivial⟩
  | ended response hquiet _ hfine =>
    refine ⟨iff_of_false (by simp [hquiet]) ?_, trivial⟩
    rintro ⟨-, herror⟩
    exact hfine (reported_eq_error.1 herror)
  | called response hquiet did hsilent hne =>
    exact ⟨iff_of_false (by simp [hquiet]) (fun h => hne h.1), hsilent.trips⟩

/-- A turn that does not, before what comes after it. -/
theorem Did.trips_append {internalKey : Option String} {did rest : List Effect}
    {reason : TerminationReason} (h : Did internalKey did none)
    (hrest : Trips internalKey reason rest) : Trips internalKey reason (did ++ rest) := by
  cases h with
  | called response hquiet did hsilent hne =>
    refine ⟨iff_of_false (by simp [hquiet]) ?_, hsilent.trips_append hrest⟩
    rintro ⟨hnil, -⟩
    exact hne (List.append_eq_nil_iff.1 hnil).1

/-- A dispatch runs one handler at most. -/
theorem dispatch_does {w : World σ} (s : Session σ) (name : String) (input : ReplyValue) :
    (dispatch w s name input).1.toolCallCount = s.toolCallCount ∧
      ∃ did, (dispatch w s name input).1.record = s.record ++ did ∧ Silent did := by
  unfold dispatch
  split_ifs
  · refine ⟨rfl, [.handled name input], rfl, ?_⟩
    intro response h
    cases List.mem_singleton.1 h
  · exact ⟨rfl, [], (List.append_nil _).symm, fun _ => List.not_mem_nil⟩
  · exact ⟨rfl, [], (List.append_nil _).symm, fun _ => List.not_mem_nil⟩

section Turns

variable [Sha256] {w : World σ} {p : SessionParams}

/-! ## What a turn does -/

@[simp] theorem emitEvent_record (s : Session σ) (eventType : String) (extra : Fields) :
    (emitEvent w p s eventType extra).record =
      s.record ++ [.sent (eventOf w p s eventType extra)
        (w.emitEvent s.world (eventOf w p s eventType extra)).2] :=
  rfl

@[simp] theorem emitEvent_toolCallCount (s : Session σ) (eventType : String) (extra : Fields) :
    (emitEvent w p s eventType extra).toolCallCount = s.toolCallCount :=
  rfl

/-- Whatever was done before, an event is something done. -/
theorem emitEvent_does {s : Session σ} {before did : List Effect}
    (hs : s.record = before ++ did) (hsilent : Silent did) (eventType : String)
    (extra : Fields) :
    ∃ did', (emitEvent w p s eventType extra).record = before ++ did' ∧ Silent did' ∧
      did' ≠ [] := by
  rw [emitEvent_record, hs, List.append_assoc]
  exact ⟨_, rfl, hsilent.append (silent_sent _ _), by simp⟩

/-- A call of a tool counts, and is told to the backend. -/
theorem runTool_does (s : Session σ) (call : String × String × ReplyValue) :
    (runTool w p s call).1.toolCallCount = s.toolCallCount + 1 ∧
      ∃ did, (runTool w p s call).1.record = s.record ++ did ∧ Silent did ∧ did ≠ [] := by
  obtain ⟨id, name, input⟩ := call
  obtain ⟨hcount, did, hdid, hsilent⟩ :=
    dispatch_does (w := w) { s with toolCallCount := s.toolCallCount + 1 } name input
  unfold runTool
  dsimp only
  generalize dispatch w { s with toolCallCount := s.toolCallCount + 1 } name input = d
    at hcount hdid
  have htold := emitEvent_does (w := w) (p := p) hdid hsilent "supervisor_tool_call"
    (triggerFields p ++ [("rationale", .str ("Tool call: " ++ name))])
  split_ifs
  · split
    case h_1 => exact ⟨hcount, htold⟩
    case h_2 eventType extra _ =>
      split
      · exact ⟨hcount, htold⟩
      · obtain ⟨did', hrecord, hsilent', -⟩ := htold
        exact ⟨hcount, emitEvent_does hrecord hsilent' eventType extra⟩
  · exact ⟨hcount, htold⟩

/-- So do the calls of a response, if it has any. -/
theorem runTools_does (s : Session σ) (results : List ContentBlock)
    (calls : List (String × String × ReplyValue)) :
    s.toolCallCount + min calls.length 1 ≤ (runTools w p s results calls).1.toolCallCount ∧
      ∃ did, (runTools w p s results calls).1.record = s.record ++ did ∧ Silent did ∧
        (calls ≠ [] → did ≠ []) := by
  induction calls generalizing s results with
  | nil =>
    exact ⟨Nat.le_refl _, [], (List.append_nil _).symm, fun _ => List.not_mem_nil,
      fun h => absurd rfl h⟩
  | cons call calls ih =>
    obtain ⟨hcount, did, hdid, hsilent, hne⟩ := runTool_does (w := w) (p := p) s call
    unfold runTools
    split
    case h_1 s' heq =>
      rw [heq] at hcount hdid
      dsimp only at hcount hdid
      refine ⟨?_, did, hdid, hsilent, fun _ => hne⟩
      show s.toolCallCount + min (call :: calls).length 1 ≤ s'.toolCallCount
      rw [List.length_cons]
      omega
    case h_2 s' result heq =>
      rw [heq] at hcount hdid
      dsimp only at hcount hdid
      split_ifs
      · refine ⟨?_, did, hdid, hsilent, fun _ => hne⟩
        show s.toolCallCount + min (call :: calls).length 1 ≤ s'.toolCallCount
        rw [List.length_cons]
        omega
      · obtain ⟨hcount', did', hdid', hsilent', -⟩ := ih s' (results ++ [result])
        refine ⟨?_, did ++ did', ?_, hsilent.append hsilent', by simp [hne]⟩
        · rw [List.length_cons]
          omega
        · rw [hdid', hdid, List.append_assoc]

theorem respond_did {s : Session σ} {before : List Effect} {response : LLMResponse}
    (hs : s.record = before ++ [.answered response]) :
    ∃ did, (respond w p s response).1.record = before ++ did ∧
      Did p.internalKey did (respond w p s response).2 := by
  unfold respond
  split
  case isTrue hfires => exact ⟨_, hs, .tripped response hfires⟩
  case isFalse hquiet =>
    rw [Bool.not_eq_true] at hquiet
    dsimp only
    cases response.stopReason with
    | endTurn => exact ⟨_, hs, .ended response hquiet .endTurn (by decide)⟩
    | maxTokens => exact ⟨_, hs, .ended response hquiet .maxTokens (by decide)⟩
    | toolUse =>
      cases hcalls : response.toolUses with
      | nil => exact ⟨_, hs, .ended response hquiet .endTurn (by decide)⟩
      | cons call calls =>
        dsimp only
        obtain ⟨-, did, hdid, hsilent, hne⟩ := runTools_does (w := w) (p := p)
          (s.add (.assistant (.blocks response.content))) [] (call :: calls)
        have hrecord : (runTools w p (s.add (.assistant (.blocks response.content))) []
            (call :: calls)).1.record = before ++ .answered response :: did := by
          rw [hdid, Session.add, hs, List.append_assoc]
          rfl
        have hcalled := Did.called response hquiet did hsilent (hne (List.cons_ne_nil _ _))
        split
        case h_1 s' heq =>
          rw [heq] at hrecord
          exact ⟨_, hrecord, hcalled _⟩
        case h_2 s' results heq =>
          rw [heq] at hrecord
          exact ⟨_, hrecord, hcalled _⟩

/-- A turn does one of these things. -/
theorem turn_did (s : Session σ) :
    ∃ did, (turn w p s).1.record = s.record ++ did ∧ Did p.internalKey did (turn w p s).2 := by
  unfold turn
  split_ifs
  · exact ⟨_, rfl, .told _ _⟩
  · split
    · exact ⟨[], (List.append_nil _).symm, .failed⟩
    · exact respond_did rfl

/-- A turn that does not end the loop has called a tool. -/
theorem turn_counts {s s' : Session σ} (h : turn w p s = (s', none)) :
    s.toolCallCount < s'.toolCallCount := by
  unfold turn at h
  split_ifs at h
  · cases h
  · split at h
    · cases h
    · rename_i world response _
      unfold respond at h
      split_ifs at h
      · cases h
      · dsimp only at h
        cases hreason : response.stopReason with
        | endTurn => rw [hreason] at h; cases h
        | maxTokens => rw [hreason] at h; cases h
        | toolUse =>
          rw [hreason] at h
          dsimp only at h
          split at h
          · cases h
          · rename_i hcalls
            split at h
            · cases h
            · rename_i called results heq
              obtain ⟨hcount, -⟩ := runTools_does (w := w) (p := p) _ [] response.toolUses
              rw [heq, Nat.min_eq_right (List.length_pos_iff.2 hcalls)] at hcount
              cases h
              exact hcount

/-- The loop ends by itself: more turns than calls are left change nothing. -/
theorem loop_fuel {fuel : Nat} {s : Session σ} (h : maxToolCalls ≤ s.toolCallCount + fuel) :
    loop w p (fuel + 1) s = loop w p fuel s := by
  induction fuel generalizing s with
  | zero =>
    have hcount : ¬ s.toolCallCount < maxToolCalls := by omega
    rw [loop, loop]
    exact if_neg hcount
  | succ fuel ih =>
    rw [loop, loop]
    split_ifs
    · split
      · rfl
      · rename_i s' hturn
        have hcount := turn_counts hturn
        exact ih (by omega)
    · rfl

/-! ## What a session does -/

theorem loop_trips (fuel : Nat) (s : Session σ) :
    ∃ did, (loop w p fuel s).1.record = s.record ++ did ∧
      Trips p.internalKey (loop w p fuel s).2 did := by
  induction fuel generalizing s with
  | zero => exact ⟨[], (List.append_nil _).symm, trivial⟩
  | succ fuel ih =>
    rw [loop]
    split_ifs
    · obtain ⟨did, hrecord, hdid⟩ := turn_did (w := w) (p := p) s
      split
      case h_1 s' reason heq =>
        rw [heq] at hrecord hdid
        exact ⟨did, hrecord, hdid.trips⟩
      case h_2 s' heq =>
        rw [heq] at hrecord hdid
        obtain ⟨rest, hrest, htrips⟩ := ih s'
        refine ⟨did ++ rest, ?_, hdid.trips_append htrips⟩
        rw [hrest, hrecord, List.append_assoc]
    · exact ⟨[], (List.append_nil _).symm, trivial⟩

/-- A response ends its session at once, in an error, if and only if the
tripwire fires on its texts. -/
theorem execute_trips_iff {world : σ} {pre post : List Effect} {response : LLMResponse}
    (h : (execute w p world).1.record = pre ++ .answered response :: post) :
    checkTripwire response.text p.internalKey = true ↔
      post = [] ∧ (execute w p world).2 = .error := by
  obtain ⟨did, hrecord, htrips⟩ :=
    loop_trips (w := w) (p := p) maxToolCalls (started w p world)
  have hall : Trips p.internalKey (execute w p world).2 (execute w p world).1.record := by
    rw [execute, hrecord]
    exact (silent_sent _ _).trips_append htrips
  rw [h] at hall
  exact hall.at

/-- Nothing is done with a response that has the key in it: no handler is run
for it, nothing of it is sent, and the session ends in an error. -/
def HoldsBack (key : String) (ended : Session σ × TerminationReason) : Prop :=
  ∀ pre response post, ended.1.record = pre ++ .answered response :: post →
    response.Leaks key → post = [] ∧ ended.2 = .error

/-- **The tripwire.**  A session holds back each response with the key in it if
and only if each that it gets has the key in its texts. -/
theorem tripwire_iff {key : String} (hkey : key ≠ "") (hp : p.internalKey = some key)
    (world : σ) :
    HoldsBack key (execute w p world) ↔
      ∀ response, .answered response ∈ (execute w p world).1.record → response.Leaks key →
        key.toList <:+: response.text := by
  constructor
  · intro h response hmem hleaks
    obtain ⟨pre, post, hrecord⟩ := List.append_of_mem hmem
    have hfires := (execute_trips_iff hrecord).2 (h pre response post hrecord hleaks)
    rwa [hp, checkTripwire_iff hkey] at hfires
  · intro h pre response post hrecord hleaks
    apply (execute_trips_iff hrecord).1
    rw [hp, checkTripwire_iff hkey]
    exact h response (by simp [hrecord]) hleaks

/-! ## The rule of invariants -/

/-- What the model, the handlers and the backend keep, of a world and of what
has been done to it. -/
structure Keeps (w : World σ) (p : SessionParams) (I : σ → List Effect → Prop) : Prop where
  emit : ∀ (s : Session σ) (eventType : String) (extra : Fields), Spare extra →
    I s.world s.record → I (emitEvent w p s eventType extra).world
      (emitEvent w p s eventType extra).record
  handle : ∀ (world : σ) (record : List Effect) (name : String) (input : ReplyValue),
    I world record → I (w.handle world name input).1 (record ++ [.handled name input])
  fail : ∀ (world world' : σ) (record : List Effect) (messages : List Message),
    w.chat world messages = (world', none) → I world record → I world' record
  answer : ∀ (world world' : σ) (record : List Effect) (messages : List Message)
    (response : LLMResponse), w.chat world messages = (world', some response) →
    I world record → I world' (record ++ [.answered response])

section Invariant

variable {I : σ → List Effect → Prop} (hI : Keeps w p I)
include hI

theorem Keeps.dispatch {s : Session σ} (hs : I s.world s.record) (name : String)
    (input : ReplyValue) :
    I (dispatch w s name input).1.world (dispatch w s name input).1.record := by
  unfold Supervisor.dispatch
  split_ifs
  · exact hI.handle _ _ name input hs
  · exact hs
  · exact hs

theorem Keeps.runTool {s : Session σ} (hs : I s.world s.record)
    (call : String × String × ReplyValue) :
    I (runTool w p s call).1.world (runTool w p s call).1.record := by
  obtain ⟨id, name, input⟩ := call
  have hd := hI.dispatch (s := { s with toolCallCount := s.toolCallCount + 1 }) hs name input
  have htold := hI.emit _ "supervisor_tool_call" _
    (spare_rationale p ("Tool call: " ++ name)) hd
  unfold Supervisor.runTool
  dsimp only
  split_ifs
  · split
    case h_1 => exact htold
    case h_2 eventType extra heq =>
      split
      · exact htold
      · exact hI.emit _ _ _ (spare_specialEvent heq) htold
  · exact htold

theorem Keeps.runTools {s : Session σ} (hs : I s.world s.record) (results : List ContentBlock)
    (calls : List (String × String × ReplyValue)) :
    I (runTools w p s results calls).1.world (runTools w p s results calls).1.record := by
  induction calls generalizing s results with
  | nil => exact hs
  | cons call calls ih =>
    have hcall := hI.runTool hs call
    unfold Supervisor.runTools
    split
    case h_1 s' heq =>
      rw [heq] at hcall
      exact hcall
    case h_2 s' result heq =>
      rw [heq] at hcall
      split_ifs
      · exact hcall
      · exact ih hcall _

theorem Keeps.respond {s : Session σ} (hs : I s.world s.record) (response : LLMResponse) :
    I (respond w p s response).1.world (respond w p s response).1.record := by
  unfold Supervisor.respond
  split_ifs
  · exact hs
  · dsimp only
    cases response.stopReason with
    | endTurn => exact hs
    | maxTokens => exact hs
    | toolUse =>
      cases response.toolUses with
      | nil => exact hs
      | cons call calls =>
        have hcalls := hI.runTools (s := s.add (.assistant (.blocks response.content))) hs []
          (call :: calls)
        dsimp only
        split
        case h_1 s' heq =>
          rw [heq] at hcalls
          exact hcalls
        case h_2 s' results heq =>
          rw [heq] at hcalls
          exact hcalls

theorem Keeps.turn {s : Session σ} (hs : I s.world s.record) :
    I (turn w p s).1.world (turn w p s).1.record := by
  unfold Supervisor.turn
  split_ifs
  · exact hI.emit s _ _ (spare_rationale p _) hs
  · split
    case h_1 world heq => exact hI.fail _ _ _ _ heq hs
    case h_2 world response heq =>
      apply hI.respond
      exact hI.answer _ _ _ _ response heq hs

theorem Keeps.loop {s : Session σ} (hs : I s.world s.record) (fuel : Nat) :
    I (loop w p fuel s).1.world (loop w p fuel s).1.record := by
  induction fuel generalizing s with
  | zero => exact hs
  | succ fuel ih =>
    have hturn := hI.turn hs
    unfold Supervisor.loop
    split_ifs
    · split
      case h_1 s' reason heq =>
        rw [heq] at hturn
        exact hturn
      case h_2 s' heq =>
        rw [heq] at hturn
        exact ih hturn
    · exact hs

/-- **Invariant rule.**  What holds before a session and is kept by everything
that answers it holds of the world and the record after it. -/
theorem Keeps.execute {world : σ} (hworld : I world []) :
    I (execute w p world).1.world (execute w p world).1.record :=
  hI.loop (hI.emit ⟨0, 0, 0, 0, none, [.user (.text p.triggerMessage)], world, []⟩ _ _
    (by simp [Spare, triggerFields, commonFields]) hworld) maxToolCalls

end Invariant

end Turns

namespace Sample

open LoopStorm.Engine.Sample

def key : String := "sk-internal-7f3c"

/-- A call of a tool with the key in its input, and not a word. -/
def response : LLMResponse where
  content := [.toolUse "call_0" "read_run_events" (.obj [("run_id", .str key)])]
  stopReason := .toolUse
  inputTokens := 0
  outputTokens := 0

/-- A model that answers once, a handler that finds nothing, a backend that
takes every event. -/
def world : World Bool where
  chat := fun asked _ => (true, if asked then none else some response)
  handle := fun asked _ _ => (asked, .returned (.arr []))
  emitEvent := fun asked _ => (asked, true)
  now := fun _ => "2026-01-31T09:30:00.125Z"

def params : SessionParams where
  supervisorRunId := "sup_0123abcd"
  supervisorRunUuid := "7f3c1d2e-90ab-4cde-8f01-23456789abcd"
  trigger := "budget_exceeded"
  triggerRunId := "1f3c1d2e-90ab-4cde-8f01-23456789abcd"
  triggerMessage := "A trigger has fired."
  internalKey := some key

/-- A response with the key in it that gets past the tripwire. -/
def past : Effect → Bool
  | .answered response =>
    decide (response.Leaks key ∧ checkTripwire response.text params.internalKey = false)
  | _ => false

theorem tripwire_iff_called :
    HoldsBack key (execute world params false) ↔
      ∀ response, .answered response ∈ (execute world params false).1.record →
        response.Leaks key → key.toList <:+: response.text :=
  tripwire_iff (by decide) rfl false

/-- The response has the key in it, and yet the handler is run with it. -/
theorem called_with_key : ¬ HoldsBack key (execute world params false) := by
  intro h
  have hpast : (execute world params false).1.record.any past = true := by decide +kernel
  obtain ⟨effect, hmem, hpast⟩ := List.any_eq_true.1 hpast
  cases effect with
  | answered response =>
    obtain ⟨hleaks, hquiet⟩ := of_decide_eq_true hpast
    obtain ⟨pre, post, hrecord⟩ := List.append_of_mem hmem
    have hfires := (execute_trips_iff hrecord).2 (h pre response post hrecord hleaks)
    exact absurd hfires (Bool.eq_false_iff.1 hquiet)
  | handled name input => cases hpast
  | sent event accepted => cases hpast

end Sample

end LoopStorm.Supervisor
