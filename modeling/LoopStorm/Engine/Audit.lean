import LoopStorm.Engine.Telemetry

/-!
# Audit log writer

`apps/engine/src/audit.rs`: the events, their serialized lines, and the writer
that links each line to the one before it and appends it to a file through a
buffer.

* `AuditEvent.line` — the JSON line of an event, members in struct order.
* `AuditWriter.sealed` — the event with its two hash fields filled in.
* `AuditWriter.writeEvent` — one write, under any behaviour of the file system
  (`WriteIo`).
* `writeEvents` — a sequence of writes that all succeed, and the lines it puts
  in the file (`disk_writeEvents`).
-/

namespace LoopStorm.Engine

/-! ## Events -/

/-- An audit event. -/
structure AuditEvent (F : Type) [Float64 F] where
  schemaVersion : UInt32
  eventType : String
  runId : String
  seq : UInt64
  hash : Option String
  hashPrev : Option String
  ts : String
  tool : Option String
  argsHash : Option String
  argsRedacted : Option (Value F)
  decision : Option String
  ruleId : Option String
  reason : Option String
  agentName : Option String
  agentRole : Option String
  model : Option String
  inputTokens : Option UInt64
  outputTokens : Option UInt64
  estimatedCostUsd : Option F
  environment : Option String
  runStatus : Option String
  dimension : Option String
  loopRule : Option String
  loopAction : Option String
  cooldownMs : Option UInt64
  budget : Option (Value F)
  latencyMs : Option F
  policyPackId : Option String
  callSeqFingerprint : Option String
  interCallMs : Option UInt64
  tokenRateDelta : Option F
  paramShapeHash : Option String

variable {F : Type} [Float64 F]

/-- The members in front of the hash fields. -/
def AuditEvent.headMembers (e : AuditEvent F) : List (String × Value F) :=
  [("schema_version", u64Value e.schemaVersion.toUInt64), ("event_type", .str e.eventType),
    ("run_id", .str e.runId), ("seq", u64Value e.seq)]

/-- The hash fields. -/
def AuditEvent.hashMembers (e : AuditEvent F) : List (String × Value F) :=
  optMember "hash" .str e.hash ++ optMember "hash_prev" .str e.hashPrev

/-- The members after the hash fields. -/
def AuditEvent.tailMembers (e : AuditEvent F) : List (String × Value F) :=
  ("ts", .str e.ts) ::
  (optMember "tool" .str e.tool ++
  optMember "args_hash" .str e.argsHash ++
  optMember "args_redacted" id e.argsRedacted ++
  optMember "decision" .str e.decision ++
  optMember "rule_id" .str e.ruleId ++
  optMember "reason" .str e.reason ++
  optMember "agent_name" .str e.agentName ++
  optMember "agent_role" .str e.agentRole ++
  optMember "model" .str e.model ++
  optMember "input_tokens" u64Value e.inputTokens ++
  optMember "output_tokens" u64Value e.outputTokens ++
  optMember "estimated_cost_usd" f64Value e.estimatedCostUsd ++
  optMember "environment" .str e.environment ++
  optMember "run_status" .str e.runStatus ++
  optMember "dimension" .str e.dimension ++
  optMember "loop_rule" .str e.loopRule ++
  optMember "loop_action" .str e.loopAction ++
  optMember "cooldown_ms" u64Value e.cooldownMs ++
  optMember "budget" id e.budget ++
  optMember "latency_ms" f64Value e.latencyMs ++
  optMember "policy_pack_id" .str e.policyPackId ++
  optMember "call_seq_fingerprint" .str e.callSeqFingerprint ++
  optMember "inter_call_ms" u64Value e.interCallMs ++
  optMember "token_rate_delta" f64Value e.tokenRateDelta ++
  optMember "param_shape_hash" .str e.paramShapeHash)

/-- The members of a serialized event, in struct order. -/
def AuditEvent.members (e : AuditEvent F) : List (String × Value F) :=
  e.headMembers ++ e.hashMembers ++ e.tailMembers

/-- The line of an event, `serde_json::to_string`. -/
def AuditEvent.line (e : AuditEvent F) : String :=
  String.ofList (Value.toText (.obj e.members))

/-- The event without its hash fields. -/
def AuditEvent.unhashed (e : AuditEvent F) : AuditEvent F :=
  { e with hash := none, hashPrev := none }

/-! ## The writer -/

/-- Errors from the audit writer. -/
inductive AuditError where
  | writeFailed (reason : String)
  deriving DecidableEq, Repr

/-- `Display` of an error. -/
def AuditError.text : AuditError → String
  | .writeFailed reason => "audit write failed — run must be killed (ADR-005): " ++ reason

/-- The three operations of a write that can fail. -/
inductive WriteStage where
  | line
  | newline
  | flush
  deriving DecidableEq, Repr

/-- What the file system does during a write: everything succeeds, or a stage
fails with an error after some bytes have gone to the file. -/
inductive WriteIo where
  | ok
  | failed (stage : WriteStage) (error : String) (onDisk : Nat)
  deriving DecidableEq, Repr

/-- The write goes through. -/
def WriteIo.succeeds : WriteIo → Bool
  | .ok => true
  | .failed .. => false

/-- Append-only log writer: the file, the bytes buffered in front of it, and
the state of the chain. -/
structure AuditWriter where
  path : String
  disk : List UInt8
  buf : List UInt8
  /-- Digest of the last line written. -/
  lastHash : String
  /-- Events written.  A file holds fewer than `2 ^ 63` bytes, so the counter
  of the source never wraps. -/
  eventCount : Nat

/-- `AuditWriter::new` on a file that may already hold something. -/
def AuditWriter.new [Sha256] (path : String) (disk : List UInt8) : AuditWriter :=
  { path := path, disk := disk, buf := [], lastHash := Sha256.hex [], eventCount := 0 }

/-- The event as it goes into the log: `hash_prev` from the line before, `hash`
over the event without either field. -/
def AuditWriter.sealed [Sha256] (w : AuditWriter) (e : AuditEvent F) : AuditEvent F :=
  { e with
    hash := some (sha256Hex e.unhashed.line)
    hashPrev := if w.eventCount = 0 then none else some w.lastHash }

/-- The reason given for a failed stage. -/
def WriteStage.reason (stage : WriteStage) (path error : String) : String :=
  match stage with
  | .line => "write to " ++ path ++ ": " ++ error
  | .newline => "write newline to " ++ path ++ ": " ++ error
  | .flush => "flush " ++ path ++ ": " ++ error

/-- The bytes on their way to the file when a stage fails. -/
def WriteStage.pending (stage : WriteStage) (buf line : List UInt8) : List UInt8 :=
  match stage with
  | .line | .newline => buf ++ line
  | .flush => buf ++ line ++ [10]

/-- What stays in the buffer when a stage fails with `onDisk` bytes gone to the
file: a line the buffer had no room for is dropped. -/
def WriteStage.kept (stage : WriteStage) (buf line : List UInt8) (onDisk : Nat) : List UInt8 :=
  match stage with
  | .line => buf.drop onDisk
  | .newline => (buf ++ line).drop onDisk
  | .flush => (buf ++ line ++ [10]).drop onDisk

/-- Write an event to the audit log. -/
def AuditWriter.writeEvent [Sha256] (w : AuditWriter) (e : AuditEvent F) (io : WriteIo) :
    Except AuditError Unit × AuditWriter :=
  let line := (w.sealed e).line
  let bytes := Text.utf8 line
  match io with
  | .ok =>
    (.ok (), { w with
      disk := w.disk ++ (w.buf ++ bytes ++ [10])
      buf := []
      lastHash := sha256Hex line
      eventCount := w.eventCount + 1 })
  | .failed stage error onDisk =>
    (.error (.writeFailed (stage.reason w.path error)), { w with
      disk := w.disk ++ (stage.pending w.buf bytes).take onDisk
      buf := stage.kept w.buf bytes onDisk })

/-! ## Sequences of writes -/

/-- Write events one after the other, every write succeeding. -/
def AuditWriter.writeEvents [Sha256] (w : AuditWriter) : List (AuditEvent F) → AuditWriter
  | [] => w
  | e :: es => AuditWriter.writeEvents (w.writeEvent e .ok).2 es

/-- The events of a sequence of writes as they go into the log. -/
def AuditWriter.sealedAll [Sha256] (w : AuditWriter) : List (AuditEvent F) → List (AuditEvent F)
  | [] => []
  | e :: es => w.sealed e :: AuditWriter.sealedAll (w.writeEvent e .ok).2 es

/-- The bytes of the lines of some events. -/
def logBytes (es : List (AuditEvent F)) : List UInt8 :=
  es.flatMap (fun e => Text.utf8 e.line ++ [10])

@[simp] theorem logBytes_nil : logBytes ([] : List (AuditEvent F)) = [] := rfl

theorem logBytes_cons (e : AuditEvent F) (es : List (AuditEvent F)) :
    logBytes (e :: es) = Text.utf8 e.line ++ [10] ++ logBytes es := rfl

theorem logBytes_append (es ds : List (AuditEvent F)) :
    logBytes (es ++ ds) = logBytes es ++ logBytes ds := List.flatMap_append

section Writes

variable [Sha256] {w : AuditWriter}

@[simp] theorem length_sealedAll (w : AuditWriter) (es : List (AuditEvent F)) :
    (w.sealedAll es).length = es.length := by
  induction es generalizing w with
  | nil => rfl
  | cons e es ih => rw [AuditWriter.sealedAll, List.length_cons, ih, List.length_cons]

theorem writeEvents_append (w : AuditWriter) (es ds : List (AuditEvent F)) :
    w.writeEvents (es ++ ds) = (w.writeEvents es).writeEvents ds := by
  induction es generalizing w with
  | nil => rfl
  | cons e es ih => exact ih _

@[simp] theorem unhashed_sealed (w : AuditWriter) (e : AuditEvent F) :
    (w.sealed e).unhashed = e.unhashed := rfl

/-- Sealing fills in the hash fields and nothing else. -/
theorem map_unhashed_sealedAll (w : AuditWriter) (es : List (AuditEvent F)) :
    (w.sealedAll es).map AuditEvent.unhashed = es.map AuditEvent.unhashed := by
  induction es generalizing w with
  | nil => rfl
  | cons e es ih => rw [AuditWriter.sealedAll, List.map_cons, ih, List.map_cons, unhashed_sealed]

/-- Successful writes put exactly the lines of the sealed events into the file. -/
theorem disk_writeEvents (hbuf : w.buf = []) (es : List (AuditEvent F)) :
    (w.writeEvents es).disk = w.disk ++ logBytes (w.sealedAll es) ∧
      (w.writeEvents es).buf = [] := by
  induction es generalizing w with
  | nil => exact ⟨(List.append_nil _).symm, hbuf⟩
  | cons e es ih =>
    obtain ⟨hdisk, hend⟩ := ih (w := (w.writeEvent e .ok).2) rfl
    refine ⟨?_, hend⟩
    rw [AuditWriter.writeEvents, hdisk, AuditWriter.sealedAll, logBytes_cons]
    simp only [AuditWriter.writeEvent, hbuf, List.nil_append, List.append_assoc]

end Writes

end LoopStorm.Engine
