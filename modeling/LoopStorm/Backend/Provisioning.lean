import LoopStorm.Lib.Run

/-!
# Provisioning of tenants

The tenant of a new user: `provisionTenantForUser`, the registration hook and
`ensureTenantId` of `packages/backend/src/auth.ts`, and the session middleware of
`packages/backend/src/trpc/trpc.ts` that calls the last.  Every statement is its
own transaction, and each of them can fail.

* `deriveSlug`, `tenantRow` — the row that is inserted.
* `Place`, `Accounts` — where a call is, and what the tables say of one user.
* `step` — one statement of one call.
* `Kept`, `kept_exec` — every row that was inserted is the user's, or some call
  still has it in hand.
* `one_tenant_iff` — **the user has one tenant exactly when no call inserts one
  while there is one, assigned or in hand.**
-/

namespace LoopStorm.Backend

/-- `String.prototype.trim` and `toLowerCase`. -/
class JsStrings where
  trim : String → String
  toLowerCase : String → String

/-! ## The row -/

/-- The user a tenant is for. -/
structure Registered where
  id : String
  name : String
  email : String

/-- A row of `tenants`. -/
structure TenantRow (ι : Type) where
  id : ι
  name : String
  slug : String
  plan : String
  isActive : Bool
  deriving DecidableEq

/-- Every run of other characters as one hyphen. -/
def hyphenate : List Char → List Char
  | [] => []
  | c :: cs =>
    if c.isLower || c.isDigit then c :: hyphenate cs
    else
      match hyphenate cs with
      | '-' :: rest => '-' :: rest
      | rest => '-' :: rest

/-- Without a hyphen in front and one at the end. -/
def trimHyphens (cs : List Char) : List Char :=
  let cs := if cs.head? = some '-' then cs.tail else cs
  if cs.getLast? = some '-' then cs.dropLast else cs

/-- `(b % 36).toString(36)` -/
def base36 (b : UInt8) : Char := (b.toNat % 36).digitChar

/-- A slug from the local part of an address, with a random suffix. -/
def deriveSlug [JsStrings] (email : String) (random : List UInt8) : String :=
  let address := JsStrings.toLowerCase (String.ofList (email.toList.takeWhile (· != '@')))
  let base := (trimHyphens (hyphenate address.toList)).take 40
  String.ofList (base ++ '-' :: random.map base36)

/-- The tenant row of a user. -/
def tenantRow {ι : Type} [JsStrings] (user : Registered) (id : ι) (random : List UInt8) :
    TenantRow ι :=
  let name := JsStrings.trim user.name
  { id
    name := if name = "" then user.email else name
    slug := deriveSlug user.email random
    plan := "free"
    isActive := true }

/-! ## The calls -/

/-- Who provisions a tenant. -/
inductive EntryPoint where
  /-- `databaseHooks.user.create.after` -/
  | hook
  /-- `ensureTenantId`, for an authenticated request -/
  | request
  deriving DecidableEq

/-- The statement a call is at, or how it has ended. -/
inductive Place (ι : Type) where
  | idle
  /-- `ensureTenantId`: is the tenant set, and the session cache stale? -/
  | looking
  | inserting (entry : EntryPoint)
  | updatingUser (entry : EntryPoint) (tenantId : ι)
  | updatingSessions (entry : EntryPoint) (tenantId : ι)
  /-- `ensureTenantId`: re-read after provision -/
  | rereading
  /-- the middleware has a tenant id, or answers `FORBIDDEN` -/
  | returned (tenantId : Option ι)
  /-- the hook is through -/
  | provisioned
  /-- `provisionTenantForUser` has thrown, with a tenant it has not assigned; the
  hook logs it, the middleware answers `FORBIDDEN` -/
  | failed (entry : EntryPoint) (unassigned : Option ι)
  /-- a read has thrown -/
  | threw

/-- The tenant a call has inserted and not assigned to the user. -/
def Place.inHand {ι : Type} : Place ι → Option ι
  | .updatingUser _ tenantId => some tenantId
  | .failed _ unassigned => unassigned
  | _ => none

/-- What the tables say of one user, and where the calls for the user are. -/
structure Accounts (ι : Type) where
  /-- The tenants inserted for the user, in order. -/
  tenants : List (TenantRow ι)
  /-- What `users.tenant_id` has been set to, the last first. -/
  assigned : List ι
  /-- `tenant_id` of the user's sessions. -/
  sessions : Option ι
  calls : Nat → Place ι
  hooked : Bool

namespace Accounts

variable {ι : Type}

/-- A user who has just been registered. -/
def registered : Accounts ι := ⟨[], [], none, fun _ => .idle, false⟩

/-- `users.tenant_id` -/
def tenantId (s : Accounts ι) : Option ι := s.assigned.head?

/-- A call has moved on. -/
def put (s : Accounts ι) (call : Nat) (place : Place ι) : Accounts ι :=
  { s with calls := Function.update s.calls call place }

end Accounts

/-- What happens next. -/
inductive AccountEvent (ι : Type) where
  /-- the hook fires -/
  | hook (call : Nat)
  /-- a request, with the `tenant_id` of its session -/
  | request (call : Nat) (session : Option ι)
  /-- the insert of a call, with what the database and the generator of random
  bytes give it -/
  | insert (call : Nat) (id : ι) (random : List UInt8)
  /-- the read or update of a call -/
  | statement (call : Nat)
  /-- the statement a call is at fails -/
  | fail (call : Nat)

section Provisioning

variable {ι : Type} [DecidableEq ι] [JsStrings] (user : Registered)

/-- One event; `none` when it cannot happen. -/
def accountStep (s : Accounts ι) : AccountEvent ι → Option (Accounts ι)
  | .hook call =>
    match s.calls call with
    | .idle => if s.hooked then none else some { s.put call (.inserting .hook) with hooked := true }
    | _ => none
  | .request call session =>
    match s.calls call with
    | .idle =>
      match session with
      | none => some (s.put call .looking)
      -- a cached session may be stale, but has been read from the row
      | some t => if t ∈ s.assigned then some (s.put call (.returned (some t))) else none
    | _ => none
  | .insert call id random =>
    match s.calls call with
    | .inserting entry =>
      let row := tenantRow user id random
      -- `tenants` has two unique columns
      if row.id ∈ s.tenants.map (·.id) ∨ row.slug ∈ s.tenants.map (·.slug) then none
      else some { s.put call (.updatingUser entry id) with tenants := s.tenants ++ [row] }
    | _ => none
  | .statement call =>
    match s.calls call with
    | .looking =>
      match s.tenantId with
      | some t => some (s.put call (.returned (some t)))
      | none => some (s.put call (.inserting .request))
    | .updatingUser entry t =>
      some { s.put call (.updatingSessions entry t) with assigned := t :: s.assigned }
    | .updatingSessions entry t =>
      let next := match entry with
        | .hook => .provisioned
        | .request => .rereading
      some { s.put call next with sessions := some t }
    | .rereading => some (s.put call (.returned s.tenantId))
    | _ => none
  | .fail call =>
    match s.calls call with
    | .looking | .rereading => some (s.put call .threw)
    | .inserting entry => some (s.put call (.failed entry none))
    | .updatingUser entry t => some (s.put call (.failed entry (some t)))
    | .updatingSessions entry _ => some (s.put call (.failed entry none))
    | _ => none

/-- One tenant for the user: at most one row, and every call that has a tenant
id has the one the user has. -/
def OneTenant (s : Accounts ι) : Prop :=
  s.tenants.length ≤ 1 ∧ ∀ call t, s.calls call = .returned (some t) → s.tenantId = some t

/-- A tenant is inserted only for a user who has none, while no call has one in
hand. -/
def InsertsAlone (s : Accounts ι) : AccountEvent ι → Prop
  | .insert _ _ _ => s.tenantId = none ∧ ∀ call, (s.calls call).inHand = none
  | _ => True

/-! ## What a step does -/

variable {user} {s s' : Accounts ι}

/-- What an event does to the rows of the user: it moves one call on, and may
insert a row or assign one. -/
inductive AccountMoves (user : Registered) (s s' : Accounts ι) (call : Nat) (place : Place ι) :
    AccountEvent ι → Prop
  | inserted {entry : EntryPoint} (id : ι) (random : List UInt8)
    (hat : s.calls call = .inserting entry) (hplace : place = .updatingUser entry id)
    (htenants : s'.tenants = s.tenants ++ [tenantRow user id random])
    (hassigned : s'.assigned = s.assigned) :
    AccountMoves user s s' call place (.insert call id random)
  | assigned {entry : EntryPoint} {t : ι} (hat : s.calls call = .updatingUser entry t)
    (hplace : place = .updatingSessions entry t) (htenants : s'.tenants = s.tenants)
    (hassigned : s'.assigned = t :: s.assigned) :
    AccountMoves user s s' call place (.statement call)
  | went {e : AccountEvent ι} (he : ∀ c id random, e ≠ .insert c id random)
    (htenants : s'.tenants = s.tenants) (hassigned : s'.assigned = s.assigned)
    (hhand : place.inHand = (s.calls call).inHand)
    (hreturned : ∀ t, place = .returned (some t) → t ∈ s.assigned) :
    AccountMoves user s s' call place e

omit [DecidableEq ι] [JsStrings] in
theorem mem_assigned {t : ι} (h : s.tenantId = some t) : t ∈ s.assigned :=
  List.mem_of_mem_head? h

theorem accountMoves_of_step {e : AccountEvent ι} (h : accountStep user s e = some s') :
    ∃ call place, s'.calls = Function.update s.calls call place ∧
      AccountMoves user s s' call place e := by
  cases e with
  | hook call =>
    unfold accountStep at h
    dsimp only at h
    split at h
    case h_1 hat =>
      split at h
      · cases h
      · cases h
        exact ⟨call, _, rfl, .went (fun _ _ _ => by simp) rfl rfl (by rw [hat]; rfl)
          fun t ht => by cases ht⟩
    case h_2 => cases h
  | request call session =>
    unfold accountStep at h
    dsimp only at h
    split at h
    case h_1 hat =>
      cases session with
      | none =>
        cases h
        exact ⟨call, _, rfl, .went (fun _ _ _ => by simp) rfl rfl (by rw [hat]; rfl)
          fun t ht => by cases ht⟩
      | some t =>
        dsimp only at h
        split at h
        case isTrue ht =>
          cases h
          exact ⟨call, _, rfl, .went (fun _ _ _ => by simp) rfl rfl (by rw [hat]; rfl)
            fun u hu => by cases hu; exact ht⟩
        case isFalse => cases h
    case h_2 => cases h
  | insert call id random =>
    unfold accountStep at h
    dsimp only at h
    split at h
    case h_1 entry hat =>
      split at h
      · cases h
      · cases h
        exact ⟨call, _, rfl, .inserted id random hat rfl rfl rfl⟩
    case h_2 => cases h
  | statement call =>
    unfold accountStep at h
    dsimp only at h
    split at h
    case h_1 hat =>
      split at h
      case h_1 t ht =>
        cases h
        exact ⟨call, _, rfl, .went (fun _ _ _ => by simp) rfl rfl (by rw [hat]; rfl)
          fun u hu => by cases hu; exact mem_assigned ht⟩
      case h_2 =>
        cases h
        exact ⟨call, _, rfl, .went (fun _ _ _ => by simp) rfl rfl (by rw [hat]; rfl)
          fun t ht => by cases ht⟩
    case h_2 entry t hat =>
      cases h
      exact ⟨call, _, rfl, .assigned hat rfl rfl rfl⟩
    case h_3 entry t hat =>
      cases h
      refine ⟨call, _, rfl, .went (fun _ _ _ => by simp) rfl rfl ?_ ?_⟩
      · rw [hat]
        cases entry <;> rfl
      · intro u hu
        cases entry <;> cases hu
    case h_4 hat =>
      cases h
      refine ⟨call, _, rfl, .went (fun _ _ _ => by simp) rfl rfl (by rw [hat]; rfl) fun u hu => ?_⟩
      exact mem_assigned (Place.returned.inj hu)
    case h_5 => cases h
  | fail call =>
    unfold accountStep at h
    dsimp only at h
    split at h
    case h_6 => cases h
    all_goals
      rename_i hat
      cases h
      exact ⟨call, _, rfl, .went (fun _ _ _ => by simp) rfl rfl (by rw [hat]; rfl)
        fun t ht => by cases ht⟩

/-! ## Where the rows are -/

/-- What holds after any events: where the rows are, and whence the ids. -/
structure Kept (s : Accounts ι) : Prop where
  rows : ∀ row ∈ s.tenants, row.id ∈ s.assigned ∨ ∃ call, (s.calls call).inHand = some row.id
  assigned : ∀ t ∈ s.assigned, t ∈ s.tenants.map (·.id)
  inHand : ∀ call t, (s.calls call).inHand = some t → t ∈ s.tenants.map (·.id)
  returned : ∀ call t, s.calls call = .returned (some t) → t ∈ s.assigned

omit [DecidableEq ι] [JsStrings] in
theorem kept_registered : Kept (Accounts.registered : Accounts ι) where
  rows _ h := absurd h List.not_mem_nil
  assigned _ h := absurd h List.not_mem_nil
  inHand _ _ h := by cases h
  returned _ _ h := by cases h

theorem Kept.step {e : AccountEvent ι} (h : Kept s) (hstep : accountStep user s e = some s') :
    Kept s' := by
  obtain ⟨call, place, hcalls, hmoves⟩ := accountMoves_of_step hstep
  have hself : s'.calls call = place := by rw [hcalls, Function.update_self]
  have hother (other : Nat) (hne : other ≠ call) : s'.calls other = s.calls other := by
    rw [hcalls, Function.update_of_ne hne]
  cases hmoves with
  | @inserted entry id random hat hplace htenants hassigned =>
    subst hplace
    refine ⟨?_, ?_, ?_, ?_⟩
    · rw [htenants, hassigned]
      intro row hrow
      rcases List.mem_append.1 hrow with hrow | hrow
      · refine (h.rows row hrow).imp_right ?_
        rintro ⟨other, hhand⟩
        refine ⟨other, ?_⟩
        rw [hother other (by rintro rfl; rw [hat] at hhand; cases hhand)]
        exact hhand
      · rw [List.mem_singleton.1 hrow]
        exact .inr ⟨call, by rw [hself]; rfl⟩
    · rw [htenants, hassigned, List.map_append]
      exact fun t ht => List.mem_append_left _ (h.assigned t ht)
    · rw [htenants, List.map_append]
      intro other t hhand
      by_cases heq : other = call
      · rw [heq, hself] at hhand
        obtain rfl := Option.some.inj hhand
        exact List.mem_append_right _ (List.mem_singleton_self _)
      · rw [hother other heq] at hhand
        exact List.mem_append_left _ (h.inHand other t hhand)
    · rw [hassigned]
      intro other t hreturned
      by_cases heq : other = call
      · rw [heq, hself] at hreturned
        cases hreturned
      · rw [hother other heq] at hreturned
        exact h.returned other t hreturned
  | @assigned entry t hat hplace htenants hassigned =>
    subst hplace
    have ht : t ∈ s.tenants.map (·.id) := h.inHand call t (by rw [hat]; rfl)
    refine ⟨?_, ?_, ?_, ?_⟩
    · rw [htenants, hassigned]
      intro row hrow
      rcases h.rows row hrow with hmem | ⟨other, hhand⟩
      · exact .inl (List.mem_cons_of_mem _ hmem)
      · by_cases heq : other = call
        · rw [heq, hat] at hhand
          obtain rfl := Option.some.inj hhand
          exact .inl (List.mem_cons_self ..)
        · exact .inr ⟨other, by rw [hother other heq]; exact hhand⟩
    · rw [htenants, hassigned]
      intro u hu
      rcases List.mem_cons.1 hu with rfl | hu
      · exact ht
      · exact h.assigned u hu
    · rw [htenants]
      intro other u hhand
      by_cases heq : other = call
      · rw [heq, hself] at hhand
        cases hhand
      · rw [hother other heq] at hhand
        exact h.inHand other u hhand
    · rw [hassigned]
      intro other u hreturned
      by_cases heq : other = call
      · rw [heq, hself] at hreturned
        cases hreturned
      · rw [hother other heq] at hreturned
        exact List.mem_cons_of_mem _ (h.returned other u hreturned)
  | went he htenants hassigned hhand hreturned =>
    have hinHand (other : Nat) : (s'.calls other).inHand = (s.calls other).inHand := by
      by_cases heq : other = call
      · rw [heq, hself, hhand]
      · rw [hother other heq]
    refine ⟨?_, ?_, ?_, ?_⟩
    · rw [htenants, hassigned]
      simpa only [hinHand] using h.rows
    · rw [htenants, hassigned]
      exact h.assigned
    · rw [htenants]
      simpa only [hinHand] using h.inHand
    · rw [hassigned]
      intro other t ht
      by_cases heq : other = call
      · rw [heq, hself] at ht
        exact hreturned t ht
      · rw [hother other heq] at ht
        exact h.returned other t ht

theorem kept_exec {es : List (AccountEvent ι)}
    (hrun : Run.exec (accountStep user) Accounts.registered es = some s) : Kept s :=
  Run.exec_invariant (accountStep user) (C := fun _ _ => True)
    (fun _ _ _ h _ hstep => h.step hstep) kept_registered
    (Run.AllEvents.of_mem _ (fun _ _ _ => trivial) _) hrun

/-! ## One tenant -/

omit [DecidableEq ι] [JsStrings] in
/-- A user without a tenant, and no call with one in hand: none has been
inserted. -/
theorem Kept.tenants_eq_nil_iff (h : Kept s) :
    s.tenants = [] ↔ s.tenantId = none ∧ ∀ call, (s.calls call).inHand = none := by
  constructor
  · intro hnil
    constructor
    · cases htenant : s.tenantId with
      | none => rfl
      | some t =>
        have := h.assigned t (mem_assigned htenant)
        rw [hnil] at this
        cases this
    · intro call
      cases hhand : (s.calls call).inHand with
      | none => rfl
      | some t =>
        have := h.inHand call t hhand
        rw [hnil] at this
        cases this
  · rintro ⟨htenant, hhand⟩
    rw [List.eq_nil_iff_forall_not_mem]
    intro row hrow
    rcases h.rows row hrow with hmem | ⟨call, hcall⟩
    · rw [List.head?_eq_none_iff.1 htenant] at hmem
      cases hmem
    · rw [hhand call] at hcall
      cases hcall

omit [DecidableEq ι] [JsStrings] in
/-- With one row at most there is one id at most. -/
theorem Kept.oneTenant_iff (h : Kept s) : OneTenant s ↔ s.tenants.length ≤ 1 := by
  refine ⟨And.left, fun hlen => ⟨hlen, fun call t hreturned => ?_⟩⟩
  have hmem := h.returned call t hreturned
  cases hassigned : s.assigned with
  | nil =>
    rw [hassigned] at hmem
    cases hmem
  | cons u us =>
    have hu := h.assigned u (by rw [hassigned]; exact List.mem_cons_self ..)
    have ht := h.assigned t hmem
    have heq : u = t := by
      cases hrows : s.tenants with
      | nil =>
        rw [hrows] at ht
        cases ht
      | cons row rows =>
        rw [hrows, List.length_cons] at hlen
        obtain rfl : rows = [] := List.eq_nil_of_length_eq_zero (by omega)
        rw [hrows, List.map_singleton, List.mem_singleton] at hu ht
        rw [hu, ht]
    rw [Accounts.tenantId, hassigned, ← heq]
    rfl

/-- **The user has one tenant exactly when every insert finds the user without
one, and no call with one in hand.** -/
theorem one_tenant_iff {es : List (AccountEvent ι)}
    (hrun : Run.exec (accountStep user) Accounts.registered es = some s) :
    OneTenant s ↔ Run.AllEvents (accountStep user) InsertsAlone Accounts.registered es := by
  rw [(kept_exec hrun).oneTenant_iff]
  induction es using List.reverseRecOn generalizing s with
  | nil =>
    cases hrun
    exact ⟨fun _ => trivial, fun _ => Nat.zero_le 1⟩
  | append_singleton es e ih =>
    rw [Run.exec_concat, Option.bind_eq_some_iff] at hrun
    obtain ⟨u, hu, hstep⟩ := hrun
    have hbefore : (∀ t, Run.exec (accountStep user) Accounts.registered es = some t →
        InsertsAlone t e) ↔ InsertsAlone u e :=
      ⟨fun h => h u hu, fun h t ht => Option.some.inj (hu.symm.trans ht) ▸ h⟩
    rw [Run.allEvents_concat, hbefore, ← ih hu]
    obtain ⟨call, place, -, hmoves⟩ := accountMoves_of_step hstep
    cases hmoves with
    | inserted id random hat hplace htenants hassigned =>
      have halone : InsertsAlone u (.insert call id random) ↔ u.tenants = [] :=
        (kept_exec hu).tenants_eq_nil_iff.symm
      rw [halone, htenants, List.length_append, List.length_singleton,
        ← List.length_eq_zero_iff]
      omega
    | assigned hat hplace htenants hassigned =>
      rw [htenants]
      exact ⟨fun h => ⟨h, trivial⟩, And.left⟩
    | went he htenants hassigned hhand hreturned =>
      rw [htenants]
      refine ⟨fun h => ⟨h, ?_⟩, And.left⟩
      cases e with
      | insert c id random => exact absurd rfl (he c id random)
      | hook | request | statement | fail => trivial

end Provisioning

namespace Sample

scoped instance : JsStrings := ⟨fun s => s, fun s => s⟩

/-- A user. -/
def ada : Registered := ⟨"u1", "Ada", "ada@example.org"⟩

/-- The hook provisions a tenant, and a later request finds it. -/
def hookFirst : List (AccountEvent Nat) :=
  [.hook 0, .insert 0 7 [1, 2, 3, 4], .statement 0, .statement 0, .request 1 none, .statement 1]

/-- What the tables then say. -/
def provisioned : Accounts Nat :=
  (Run.exec (accountStep ada) Accounts.registered hookFirst).get (by decide +kernel)

theorem one_tenant_iff_provisioned :
    OneTenant provisioned ↔
      Run.AllEvents (accountStep ada) InsertsAlone Accounts.registered hookFirst :=
  one_tenant_iff (Option.some_get _).symm

/-- The registration hook has failed; two requests look, and both provision. -/
def bothProvision : List (AccountEvent Nat) :=
  [.hook 0, .fail 0, .request 1 none, .request 2 none, .statement 1, .statement 2,
    .insert 1 7 [1, 2, 3, 4], .insert 2 8 [5, 6, 7, 8],
    .statement 1, .statement 1, .statement 1, .statement 2, .statement 2, .statement 2]

/-- Two tenants are created, and the first request has the one the user does not
have in the end. -/
theorem two_tenants :
    ¬ ∀ (es : List (AccountEvent Nat)) (s : Accounts Nat),
      Run.exec (accountStep ada) Accounts.registered es = some s → OneTenant s := by
  intro h
  have hsome : (Run.exec (accountStep ada) Accounts.registered bothProvision).isSome := by
    decide +kernel
  obtain ⟨s, hs⟩ := Option.isSome_iff_exists.1 hsome
  have hlen : (Run.exec (accountStep ada) Accounts.registered bothProvision).map
      (·.tenants.length) = some 2 := by
    decide +kernel
  rw [hs, Option.map_some, Option.some.injEq] at hlen
  have hle := (h bothProvision s hs).1
  omega

end Sample

end LoopStorm.Backend
