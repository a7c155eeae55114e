import LoopStorm.Backend.PolicyValidate
import LoopStorm.Lib.GuardedUpdate

/-!
# Updates of a policy pack

`policies.update` of `packages/backend/src/trpc/routers/policies.ts`, in the
transaction `trpc.ts` puts around it: a pack is read, its version compared with
the one the client has read, and updated where the version is still the same.

* `PolicyPack`, `UpdateInput.apply` — a row, and the row an update makes of it.
* `update` — the procedure, with its errors.
* `Replays` — the updates of a pack one after the other, each based on the row
  the one before it returned.
* `updates_serialised` — **no update is lost**: in every run the successful
  updates of a pack replay to the row that is stored.
-/

namespace LoopStorm.Backend

open GuardedUpdate

/-! ## Rows -/

/-- A row of `policy_packs`. -/
structure PolicyPack (ν : Type) where
  id : String
  tenantId : String
  name : String
  description : Option String
  agentRole : Option String
  environment : Option String
  content : List (String × Json String ν)
  schemaVersion : Nat
  isActive : Bool
  version : Nat
  createdBy : Option String
  createdAt : String
  updatedAt : String

/-- The input of `policies.update`; a field that is not given is not updated,
and three of them may be given as `null`. -/
structure UpdateInput (ν : Type) where
  id : String
  version : Nat
  name : Option String
  description : Option (Option String)
  agentRole : Option (Option String)
  environment : Option (Option String)
  content : Option (List (String × Json String ν))
  isActive : Option Bool

variable {ν : Type}

/-- The input schema. -/
def UpdateInput.wellFormed (input : UpdateInput ν) : Bool :=
  isUuid input.id && decide (1 ≤ input.version) &&
    input.name.all (fun s => decide (1 ≤ jsLength s ∧ jsLength s ≤ 255)) &&
    input.description.all (fun o => o.all fun s => decide (jsLength s ≤ 1000)) &&
    input.agentRole.all (fun o => o.all fun s => decide (jsLength s ≤ 255)) &&
    input.environment.all (fun o => o.all fun s => decide (jsLength s ≤ 255))

/-- The row with the update set applied. -/
def UpdateInput.apply (input : UpdateInput ν) (version : Nat) (now : String)
    (row : PolicyPack ν) : PolicyPack ν :=
  { row with
    version := version
    updatedAt := now
    name := input.name.getD row.name
    description := input.description.getD row.description
    agentRole := input.agentRole.getD row.agentRole
    environment := input.environment.getD row.environment
    content := input.content.getD row.content
    isActive := input.isActive.getD row.isActive }

/-! ## The procedure -/

/-- Why an update fails. -/
inductive UpdateError where
  | badInput
  | notFound
  | conflict (yours current : Nat)
  | invalidContent (errors : List PolicyValidationError)
  | modifiedConcurrently
  /-- an exception, or an error of the database -/
  | internal
  deriving DecidableEq

/-- The code of an error. -/
def UpdateError.code : UpdateError → String
  | .badInput | .invalidContent _ => "BAD_REQUEST"
  | .notFound => "NOT_FOUND"
  | .conflict .. | .modifiedConcurrently => "CONFLICT"
  | .internal => "INTERNAL_SERVER_ERROR"

/-- The message of an error of the procedure. -/
def UpdateError.message : UpdateError → Option String
  | .notFound => some "Policy pack not found"
  | .conflict yours current =>
    some ("Policy pack has been modified by another user. Your version: " ++ toString yours ++
      ", current version: " ++ toString current ++ ". Re-fetch and retry.")
  | .invalidContent _ => some "Policy content validation failed"
  | .modifiedConcurrently =>
    some "Policy pack was modified concurrently. Please re-fetch and retry."
  | .badInput | .internal => none

/-- The most an `integer` column holds. -/
def maxInteger : Nat := 2147483647

/-- A call of a tenant, at the time it reads off its clock. -/
structure UpdateCall (ν : Type) where
  tenantId : String
  now : String
  input : UpdateInput ν

/-- The row a call makes of the row it has read. -/
def UpdateCall.apply (call : UpdateCall ν) (row : PolicyPack ν) : PolicyPack ν :=
  call.input.apply (call.input.version + 1) call.now row

variable [JsNumber ν] [Picomatch ν]

/-- The content of a call, if it has any, is a valid policy. -/
def UpdateInput.contentOk (input : UpdateInput ν) : Bool :=
  input.content.all fun content => validatePolicy content = some .valid

/-- Why the content of a call is refused. -/
def UpdateInput.contentError (input : UpdateInput ν) : UpdateError :=
  match input.content.bind validatePolicy with
  | some (.invalid errors) => .invalidContent errors
  | _ => .internal

/-- Update a policy pack with optimistic concurrency control. -/
def update (call : UpdateCall ν) :
    GuardedUpdate.Prog String (PolicyPack ν) UpdateError (PolicyPack ν) :=
  let input := call.input
  if !input.wellFormed then .fail .badInput
  else
    .select (toUuid input.id) (fun row => row.tenantId = call.tenantId) fun
      | none => .fail .notFound
      | some existing =>
        if existing.version ≠ input.version then
          .fail (.conflict input.version existing.version)
        else if !input.contentOk then .fail input.contentError
        else if maxInteger < existing.version + 1 then .fail .internal
        else
          .update (toUuid input.id)
            (fun row => row.tenantId = call.tenantId && row.version = input.version)
            (input.apply (existing.version + 1) call.now)
            fun
            | none => .fail .modifiedConcurrently
            | some updated => .done updated

/-- The table, the calls and the updates made so far. -/
abbrev PolicyStore (ν : Type) : Type :=
  Store String (PolicyPack ν) UpdateError (PolicyPack ν) (UpdateCall ν)

/-- A call that has succeeded, with the row it has returned. -/
abbrev Success (ν : Type) : Type := Commit String (PolicyPack ν) (PolicyPack ν) (UpdateCall ν)

/-- A successful call has updated its own pack, in the version its client had
read. -/
theorem runs_update {call : UpdateCall ν} {ws : List (Write String (PolicyPack ν))}
    {reply : PolicyPack ν} (h : (update call).Runs ws reply) :
    ∃ before, ws = [⟨toUuid call.input.id, before, reply⟩] ∧ before.tenantId = call.tenantId ∧
      before.version = call.input.version ∧ call.input.contentOk = true ∧
      reply = call.apply before := by
  unfold update at h
  dsimp only at h
  split at h
  · cases h
  cases h with
  | select found hfound h =>
    cases found with
    | none => cases h
    | some existing =>
      dsimp only at h
      split at h
      · cases h
      case isFalse hversion =>
        split at h
        · cases h
        case isFalse hcontent =>
          split at h
          · cases h
          cases h with
          | updated row hguard h =>
            cases h
            rw [Bool.and_eq_true, decide_eq_true_eq, decide_eq_true_eq] at hguard
            refine ⟨row, rfl, hguard.1, hguard.2, by simpa using hcontent, ?_⟩
            rw [not_not.1 hversion]
            rfl
          | missed h => cases h

/-! ## Updates one after the other -/

/-- The calls on a pack that have succeeded, in the order they have. -/
def successes (id : String) (history : List (Success ν)) : List (Success ν) :=
  history.filter fun c => toUuid c.call.input.id = id

/-- Updates of a row one after the other: each has been based on the row the one
before it has returned, in the version it has named, and has returned that row
with its fields set. -/
inductive Replays : PolicyPack ν → List (Success ν) → PolicyPack ν → Prop
  | nil (row : PolicyPack ν) : Replays row [] row
  | cons {row last : PolicyPack ν} {c : Success ν} {cs : List (Success ν)}
    (htenant : row.tenantId = c.call.tenantId) (hversion : row.version = c.call.input.version)
    (hcontent : c.call.input.contentOk = true) (hreply : c.reply = c.call.apply row)
    (h : Replays c.reply cs last) : Replays row (c :: cs) last

/-- A field an update can set. -/
inductive PolicyField where
  | name
  | description
  | agentRole
  | environment
  | content
  | isActive
  deriving DecidableEq

/-- The input names the field. -/
def UpdateInput.names (input : UpdateInput ν) : PolicyField → Bool
  | .name => input.name.isSome
  | .description => input.description.isSome
  | .agentRole => input.agentRole.isSome
  | .environment => input.environment.isSome
  | .content => input.content.isSome
  | .isActive => input.isActive.isSome

/-- Two rows have the same in a field. -/
def PolicyPack.SameField (a b : PolicyPack ν) : PolicyField → Prop
  | .name => a.name = b.name
  | .description => a.description = b.description
  | .agentRole => a.agentRole = b.agentRole
  | .environment => a.environment = b.environment
  | .content => a.content = b.content
  | .isActive => a.isActive = b.isActive

/-- Two rows have the same in the columns no update sets. -/
structure PolicyPack.SameColumns (a b : PolicyPack ν) : Prop where
  id : a.id = b.id
  tenantId : a.tenantId = b.tenantId
  schemaVersion : a.schemaVersion = b.schemaVersion
  createdBy : a.createdBy = b.createdBy
  createdAt : a.createdAt = b.createdAt

theorem getD_of_not_given {α : Type} {o : Option α} (h : o.isSome = false) (a : α) :
    o.getD a = a := by
  cases o with
  | none => rfl
  | some b => cases h

omit [JsNumber ν] [Picomatch ν] in
/-- A field an input does not name is left alone. -/
theorem sameField_apply (call : UpdateCall ν) (row : PolicyPack ν) {f : PolicyField}
    (h : call.input.names f = false) : (call.apply row).SameField row f := by
  cases f with
  | name => exact getD_of_not_given h row.name
  | description => exact getD_of_not_given h row.description
  | agentRole => exact getD_of_not_given h row.agentRole
  | environment => exact getD_of_not_given h row.environment
  | content => exact getD_of_not_given h row.content
  | isActive => exact getD_of_not_given h row.isActive

omit [JsNumber ν] [Picomatch ν] in
theorem PolicyPack.SameField.trans {a b c : PolicyPack ν} {f : PolicyField}
    (hab : a.SameField b f) (hbc : b.SameField c f) : a.SameField c f := by
  cases f <;> exact Eq.trans hab hbc

/-- Every update adds one to the version. -/
theorem Replays.version {row last : PolicyPack ν} {cs : List (Success ν)}
    (h : Replays row cs last) : last.version = row.version + cs.length := by
  induction h with
  | nil row => rfl
  | @cons row last c cs htenant hversion hcontent hreply h ih =>
    have hnext : c.reply.version = row.version + 1 := by
      rw [hreply, hversion]
      rfl
    rw [ih, hnext, List.length_cons]
    omega

/-- A field none of the updates names is left alone. -/
theorem Replays.sameField {row last : PolicyPack ν} {cs : List (Success ν)}
    (h : Replays row cs last) {f : PolicyField}
    (hnames : ∀ c ∈ cs, c.call.input.names f = false) : last.SameField row f := by
  induction h with
  | nil row => cases f <;> rfl
  | @cons row last c cs htenant hversion hcontent hreply h ih =>
    have hrest := ih fun d hd => hnames d (List.mem_cons_of_mem _ hd)
    refine hrest.trans ?_
    rw [hreply]
    exact sameField_apply c.call row (hnames c (List.mem_cons_self ..))

/-- The other columns are left alone by all of them. -/
theorem Replays.sameColumns {row last : PolicyPack ν} {cs : List (Success ν)}
    (h : Replays row cs last) : last.SameColumns row := by
  induction h with
  | nil row => exact ⟨rfl, rfl, rfl, rfl, rfl⟩
  | cons htenant hversion hcontent hreply h ih =>
    rw [hreply] at ih
    exact ⟨ih.id, ih.tenantId, ih.schemaVersion, ih.createdBy, ih.createdAt⟩

/-- Writes that follow each other are updates that replay. -/
theorem replays_of_follows {id : String} {history : List (Success ν)} {row : PolicyPack ν}
    (hruns : ∀ c ∈ history, (update c.call).Runs c.writes c.reply)
    (hfollows : Follows id (some row) (history.flatMap (·.writes))) :
    ∃ last, rowAfter id (some row) (history.flatMap (·.writes)) = some last ∧
      Replays row (successes id history) last := by
  induction history generalizing row with
  | nil => exact ⟨row, rfl, .nil row⟩
  | cons c cs ih =>
    have hrest : ∀ d ∈ cs, (update d.call).Runs d.writes d.reply :=
      fun d hd => hruns d (List.mem_cons_of_mem _ hd)
    obtain ⟨before, hws, htenant, hversion, hcontent, hreply⟩ :=
      runs_update (hruns c (List.mem_cons_self ..))
    rw [List.flatMap_cons, hws, List.singleton_append] at hfollows
    obtain ⟨hbefore, hfollows⟩ := hfollows
    rw [List.flatMap_cons, hws, List.singleton_append, rowAfter]
    dsimp only at hbefore hfollows ⊢
    by_cases hid : toUuid c.call.input.id = id
    · rw [if_pos hid] at hfollows ⊢
      obtain rfl := Option.some.inj (hbefore hid)
      obtain ⟨last, hlast, hreplays⟩ := ih hrest hfollows
      refine ⟨last, hlast, ?_⟩
      rw [successes, List.filter_cons_of_pos (by simpa using hid)]
      exact .cons htenant hversion hcontent hreply hreplays
    · rw [if_neg hid] at hfollows ⊢
      obtain ⟨last, hlast, hreplays⟩ := ih hrest hfollows
      refine ⟨last, hlast, ?_⟩
      rw [successes, List.filter_cons_of_neg (by simpa using hid)]
      exact hreplays

/-- **No update is lost.**  In every run of calls side by side, the successful
updates of a pack replay, from the row it had, to the row that is stored; the
version counts them; what none of them names is as it was; and a step that does
not complete a call leaves every stored row alone. -/
theorem updates_serialised {rows : String → Option (PolicyPack ν)} {s : PolicyStore ν}
    {events : List (Event (UpdateCall ν))}
    (hrun : Run.exec (step update) (Store.of rows) events = some s) {id : String}
    {row : PolicyPack ν} (hrow : rows id = some row) :
    ∃ last, (s.table id).committed = some last ∧ Replays row (successes id s.history) last ∧
      last.version = row.version + (successes id s.history).length ∧
      (∀ f, (∀ c ∈ successes id s.history, c.call.input.names f = false) →
        last.SameField row f) ∧
      last.SameColumns row ∧
      ∀ e s', step update s e = some s' →
        (∀ call reply, s'.txs e.tx ≠ .committed call reply) →
        ∀ k, (s'.table k).committed = (s.table k).committed := by
  obtain ⟨hfollows, hcommitted, hruns⟩ := serialised hrun id
  rw [hrow] at hfollows hcommitted
  obtain ⟨last, hlast, hreplays⟩ := replays_of_follows hruns hfollows
  refine ⟨last, hcommitted.trans hlast, hreplays, hreplays.version,
    fun f hf => hreplays.sameField hf, hreplays.sameColumns, fun e s' hstep hnot k => ?_⟩
  exact (committed_of_not_commit hstep hnot k).1

namespace Sample

/-- Integers for numbers. -/
scoped instance : JsNumber ℤ := ⟨fun n => n = 1, fun n => 0 < n⟩

/-- A matcher that takes every pattern for a name. -/
scoped instance : Picomatch ℤ where
  isMatch
    | .str s, name => some (s = name)
    | _, _ => none

def packId : String := "00000000-0000-4000-8000-000000000001"

/-- A pack in its first version. -/
def pack : PolicyPack ℤ :=
  ⟨packId, "a", "pack", none, none, none,
    [("schema_version", .num 1),
      ("rules", .arr [.obj [("name", .str "all"), ("action", .str "allow")]])],
    1, true, 1, none, "", ""⟩

/-- A call of a client that has read the first version. -/
def rename : UpdateCall ℤ :=
  ⟨"a", "", ⟨packId, 1, some "renamed", none, none, none, some pack.content, none⟩⟩

/-- Two such calls, which both read the pack before one of them updates it. -/
def updates : List (Event (UpdateCall ℤ)) :=
  [.start 0 rename, .start 1 rename, .step 0, .step 1, .step 0, .step 0, .step 1, .step 1]

/-- One of the two succeeds. -/
theorem updates_serialised_two :
    ∃ s last, Run.exec (step update) (Store.of fun k => if k = packId then some pack else none)
        updates = some s ∧
      (s.table packId).committed = some last ∧ last.version = 2 ∧
      last.SameField pack .isActive := by
  have hcount : (Run.exec (step update) (Store.of fun k => if k = packId then some pack else none)
      updates).map (fun s => ((successes packId s.history).length,
        (successes packId s.history).all fun c => !c.call.input.names .isActive)) =
        some (1, true) := by
    decide +kernel
  obtain ⟨s, hrun, hsuccesses⟩ := Option.map_eq_some_iff.1 hcount
  obtain ⟨hlength, hnames⟩ := Prod.mk.inj hsuccesses
  obtain ⟨last, hlast, -, hversion, hfields, -⟩ :=
    updates_serialised hrun
      (show (if packId = packId then some pack else none) = some pack from if_pos rfl)
  refine ⟨s, last, hrun, hlast, ?_, hfields .isActive fun c hc => ?_⟩
  · rw [hversion, hlength]
    rfl
  · have hnot := List.all_eq_true.1 hnames c hc
    simpa using hnot

end Sample

end LoopStorm.Backend
