import LoopStorm.Backend.ApiKeys
import LoopStorm.Backend.Review
import LoopStorm.Lib.GrowingTable

/-!
# The life of an API key

`apiKeys.create` and `apiKeys.revoke` of `trpc/routers/api-keys.ts`, any number of
them side by side, with requests authenticated in between.

* `CreateKey`, `RevokeKey` — the two calls; `revokeKey` looks at the row and updates
  it, in one transaction.
* `ApiKeys` — the table with the keys created so far and the calls on it.
* `settles_revokeKey` — a revocation that commits has seen to it that its key is
  revoked, whoever else was at it.
* `row_of_created` — what has become of the row of a key.
* `keys_good_until_revoked` — **a key is good from its creation until it is revoked
  or expires**, for the tenant that created it and nobody else.
-/

namespace LoopStorm.Backend

open GuardedUpdate
open LoopStorm.Engine (Sha256 sha256Hex)

/-! ## The calls -/

/-- The scopes a key can have. -/
def keyScopes : List String := ["ingest", "read", "supervisor"]

/-- A call of `apiKeys.create`: the tenant of the session, the input, the clock, and
what is drawn for the key and its row. -/
structure CreateKey where
  tenantId : String
  name : String
  scopes : List String
  expiresInDays : Option ℤ
  now : ℤ
  randomHex : String
  id : String
  deriving DecidableEq

/-- The input has the form its schema asks for. -/
def CreateKey.valid (c : CreateKey) : Bool :=
  decide (1 ≤ jsLength c.name ∧ jsLength c.name ≤ 255) &&
    (!c.scopes.isEmpty && c.scopes.all fun scope => scope ∈ keyScopes) &&
    c.expiresInDays.all fun days => 1 ≤ days && days ≤ 365

/-- The key, not revoked. -/
def CreateKey.issued (c : CreateKey) : IssuedKey where
  randomHex := c.randomHex
  id := c.id
  tenantId := c.tenantId
  scopes := c.scopes
  expiresAt := c.expiresInDays.map fun days => c.now + days * 24 * 60 * 60 * 1000
  isRevoked := false

/-- The same, revoked or not. -/
def CreateKey.asOf (c : CreateKey) (revoked : Bool) : IssuedKey :=
  { c.issued with isRevoked := revoked }

/-- Who presents the key. -/
def CreateKey.result (c : CreateKey) : ApiKeyAuthResult := ⟨c.tenantId, c.id, c.scopes⟩

/-- A call of `apiKeys.revoke`. -/
structure RevokeKey where
  tenantId : String
  id : String
  deriving DecidableEq

/-- Revoke an API key; the reply is its id. -/
def revokeKey (c : RevokeKey) : GuardedUpdate.Prog String ApiKeyRow TrpcError String :=
  if isUuid c.id then
    .select (toUuid c.id) (fun row => row.tenantId = c.tenantId) fun
      | none => .fail ⟨"NOT_FOUND", some "API key not found"⟩
      | some existing =>
        -- already revoked: nothing is written
        if existing.isRevoked then .done existing.id
        else
          .update (toUuid c.id) (fun row => row.tenantId = c.tenantId)
            (fun row => { row with isRevoked := true }) fun _ => .done c.id
  else .fail badRequest

/-- The call is to revoke the key. -/
def RevokeKey.Revokes (c : RevokeKey) (key : CreateKey) : Prop :=
  isUuid c.id = true ∧ toUuid c.id = key.id ∧ c.tenantId = key.tenantId

/-! ## The table -/

/-- The table, with the keys created and the revocations. -/
abbrev ApiKeys : Type := Growing String ApiKeyRow TrpcError String RevokeKey CreateKey

section Table

variable [Sha256]

/-- The row a key is inserted with, under its id. -/
def CreateKey.inserted (c : CreateKey) : Option (String × ApiKeyRow) :=
  if c.valid then some (c.id, c.issued.row) else none

/-- An event of the table. -/
def apiKeysStep : ApiKeys → Growth RevokeKey CreateKey → Option ApiKeys :=
  grow revokeKey CreateKey.inserted

/-- The rows that are committed. -/
def apiKeyRows (s : ApiKeys) : List ApiKeyRow :=
  s.placed.filterMap fun c => (s.store.table c.id).committed

end Table

/-! ## What a revocation does -/

/-- What can become of a row. -/
def RevokedNext (a b : ApiKeyRow) : Prop := b = { a with isRevoked := true }

/-- A revocation writes the row of its own tenant's key, if any. -/
theorem runs_revokeKey {c : RevokeKey} {ws : List (Write String ApiKeyRow)} {answer : String}
    (h : (revokeKey c).Runs ws answer) :
    isUuid c.id = true ∧ ∀ w ∈ ws, w.key = toUuid c.id ∧ w.before.tenantId = c.tenantId ∧
      RevokedNext w.before w.after := by
  unfold revokeKey at h
  split at h
  case isFalse => cases h
  case isTrue hid =>
    refine ⟨hid, ?_⟩
    cases h with
    | select found hfound h =>
      cases found with
      | none => cases h
      | some existing =>
        dsimp only at h
        split at h
        · cases h
          exact fun w hw => absurd hw List.not_mem_nil
        · cases h with
          | updated row hguard h =>
            cases h
            intro w hw
            rw [List.mem_singleton.1 hw]
            exact ⟨rfl, of_decide_eq_true hguard, rfl⟩
          | missed h =>
            cases h
            exact fun w hw => absurd hw List.not_mem_nil

theorem lawful_revokeKey : Lawful revokeKey RevokedNext :=
  fun _ _ _ h w hw => ((runs_revokeKey h).2 w hw).2.2

/-- The row of the tenant's key, revoked. -/
def RevokedFor (c : RevokeKey) (row : ApiKeyRow) : Prop :=
  row.tenantId = c.tenantId ∧ row.isRevoked = true

theorem stable_revokedFor (c : RevokeKey) (a b : ApiKeyRow) (h : RevokedNext a b)
    (ha : RevokedFor c a) : RevokedFor c b := by
  subst h
  exact ⟨ha.1, rfl⟩

/-- **A revocation that commits has its key revoked**, by itself or by whoever was
there first: rows are never deleted and keep their tenant, so that the update does
not miss. -/
theorem settles_revokeKey (c : RevokeKey) :
    Settles RevokedNext (toUuid c.id) (RevokedFor c) none (revokeKey c) := by
  unfold revokeKey
  split
  case isFalse => trivial
  case isTrue =>
    refine ⟨fun _ now _ => ?_, fun hne => absurd rfl hne⟩
    cases hfound : now.filter fun row => decide (row.tenantId = c.tenantId) with
    | none => trivial
    | some existing =>
      obtain ⟨rfl, htenant⟩ := Option.filter_eq_some_iff.1 hfound
      have hmine : existing.tenantId = c.tenantId := of_decide_eq_true htenant
      dsimp only
      split
      case isTrue hrevoked => exact ⟨existing, rfl, hmine, hrevoked⟩
      case isFalse =>
        refine ⟨fun _ now habove => ⟨fun hmissed => ?_, fun row hnow hguard => ?_⟩,
          fun hne => absurd rfl hne⟩
        · obtain ⟨row, rfl, hrow⟩ := of_above (R := fun row => row.tenantId = c.tenantId)
            (fun a b hab ha => by subst hab; exact ha) habove hmine
          rw [Option.filter_some, if_pos (decide_eq_true hrow)] at hmissed
          cases hmissed
        · exact ⟨_, rfl, of_decide_eq_true hguard, rfl⟩

/-! ## The rows of the keys -/

section Rows

variable [Sha256] {s : ApiKeys} {es : List (Growth RevokeKey CreateKey)}

omit [Sha256] in
/-- What a row is after some moves. -/
theorem eq_of_path {first last : ApiKeyRow} {ws : List (Write String ApiKeyRow)}
    (h : Path RevokedNext first ws last) :
    last = { first with isRevoked := first.isRevoked || !ws.isEmpty } ∧
      ∀ w ∈ ws, w.before.tenantId = first.tenantId := by
  induction h with
  | nil row => exact ⟨by simp, fun w hw => absurd hw List.not_mem_nil⟩
  | @cons w ws last hnext h ih =>
    obtain ⟨hlast, htenant⟩ := ih
    have hafter : w.after = { w.before with isRevoked := true } := hnext
    rw [hafter] at hlast htenant
    refine ⟨by simp [hlast], fun v hv => ?_⟩
    rcases List.mem_cons.1 hv with rfl | hv
    · rfl
    · exact htenant v hv

/-- **The row of a key**: as it was inserted, and revoked when a revocation of it has
been committed. -/
theorem row_of_created (hrun : Run.exec apiKeysStep .empty es = some s) {c : CreateKey}
    (hc : c ∈ s.placed) :
    ∃ revoked, (s.store.table c.id).committed = some (c.asOf revoked).row ∧
      (revoked = true ↔ ∃ d ∈ s.store.history, d.call.Revokes c) := by
  have hinv := inv_grown hrun
  obtain ⟨k, first, hinserted, hfirst⟩ := hinv.rows c hc
  obtain ⟨rfl, rfl⟩ : c.id = k ∧ c.issued.row = first := by
    unfold CreateKey.inserted at hinserted
    split at hinserted
    · exact Prod.mk.inj (Option.some.inj hinserted)
    · cases hinserted
  obtain ⟨last, hlast, hpath⟩ := hinv.path lawful_revokeKey hfirst
  obtain ⟨rfl, htenant⟩ := eq_of_path hpath
  refine ⟨!(writesOf c.id s.store.writes).isEmpty, hlast, ?_⟩
  constructor
  · intro hrevoked
    have hwritten : writesOf c.id s.store.writes ≠ [] := by
      intro hnil
      rw [hnil] at hrevoked
      cases hrevoked
    obtain ⟨w, hw⟩ := List.exists_mem_of_ne_nil _ hwritten
    obtain ⟨hkey, d, hd, hwd⟩ := mem_writesOf.1 hw
    obtain ⟨hid, hwrites⟩ := runs_revokeKey (hinv.store.history d hd)
    obtain ⟨hkey', hbefore, -⟩ := hwrites w hwd
    exact ⟨d, hd, hid, hkey'.symm.trans hkey, hbefore.symm.trans (htenant w hw)⟩
  · rintro ⟨d, hd, hid, hkey, -⟩
    have hsettled : Settled RevokedNext (fun call : RevokeKey => toUuid call.id) RevokedFor
        (fun _ => True) s.store :=
      settled lawful_revokeKey stable_revokedFor (fun call _ => settles_revokeKey call) hrun
    obtain ⟨row, hrow, -, hrevoked⟩ := hsettled.committed d hd trivial
    rw [show toUuid d.call.id = c.id from hkey, hlast] at hrow
    obtain rfl := Option.some.inj hrow
    exact hrevoked

/-- The keys as they stand. -/
def standing (s : ApiKeys) : List IssuedKey :=
  s.placed.map fun c => c.asOf ((s.store.table c.id).committed.any ApiKeyRow.isRevoked)

theorem apiKeyRows_eq (hrun : Run.exec apiKeysStep .empty es = some s) :
    apiKeyRows s = (standing s).map IssuedKey.row := by
  rw [apiKeyRows, standing, List.map_map, ← List.filterMap_eq_map]
  refine List.filterMap_congr fun c hc => ?_
  obtain ⟨revoked, hrow, -⟩ := row_of_created hrun hc
  show _ = some (c.asOf _).row
  rw [hrow]
  rfl

/-! ## Requests -/

omit [Sha256] in
theorem rawKeys_standing (s : ApiKeys) :
    (standing s).map IssuedKey.rawKey = (s.placed.map CreateKey.issued).map IssuedKey.rawKey := by
  rw [standing, List.map_map, List.map_map]
  rfl

/-- Being revoked does not change what a key is. -/
theorem distinct_standing {rawKey : String}
    (h : Distinct (s.placed.map CreateKey.issued) rawKey) : Distinct (standing s) rawKey where
  nodup := by
    rw [rawKeys_standing]
    exact h.nodup
  digest := by
    intro key hkey
    obtain ⟨c, hc, rfl⟩ := List.mem_map.1 hkey
    exact h.digest c.issued (List.mem_map_of_mem hc)

/-- The row of a key is one of those that are committed. -/
theorem mem_apiKeyRows (hrun : Run.exec apiKeysStep .empty es = some s) {row : ApiKeyRow} :
    row ∈ apiKeyRows s ↔ ∃ c ∈ s.placed, ∃ revoked, row = (c.asOf revoked).row ∧
      (revoked = true ↔ ∃ d ∈ s.store.history, d.call.Revokes c) := by
  rw [apiKeyRows, List.mem_filterMap]
  constructor
  · rintro ⟨c, hc, hrow⟩
    obtain ⟨revoked, hcommitted, hrevoked⟩ := row_of_created hrun hc
    exact ⟨c, hc, revoked, Option.some.inj (hrow.symm.trans hcommitted), hrevoked⟩
  · rintro ⟨c, hc, revoked, rfl, hrevoked⟩
    obtain ⟨revoked', hcommitted, hrevoked'⟩ := row_of_created hrun hc
    obtain rfl : revoked = revoked' := Bool.eq_iff_iff.2 (hrevoked.trans hrevoked'.symm)
    exact ⟨c, hc, hcommitted⟩

variable [JsStrings]

/-- **A key is good until it is revoked or expires.**  Keys are created and revoked by
any number of calls side by side.  A request that is let in at any point has
presented a key created before, acts for the tenant that created it with the scopes
it was given, in time, and no revocation of the key by its tenant has been committed.
Conversely such a key is let in, as long as no more than five unrevoked keys begin
like it. -/
theorem keys_good_until_revoked (hrun : Run.exec apiKeysStep .empty es = some s) {rawKey : String}
    {authHeader : Option String} (hkey : presentedKey authHeader = some rawKey)
    (hdistinct : Distinct (s.placed.map CreateKey.issued) rawKey) (order : AnyOrder ApiKeyRow)
    (now : ℤ) :
    (∀ result, authenticateApiKey order (apiKeyRows s) now authHeader = some result →
      ∃ c ∈ s.placed, c.issued.rawKey = rawKey ∧ result = c.result ∧
        c.issued.row.expired now = false ∧ ∀ d ∈ s.store.history, ¬ d.call.Revokes c) ∧
    ∀ c ∈ s.placed, c.issued.rawKey = rawKey → c.issued.row.expired now = false →
      (∀ d ∈ s.store.history, ¬ d.call.Revokes c) →
      (sharing (apiKeyRows s) rawKey).length ≤ 5 →
        authenticateApiKey order (apiKeyRows s) now authHeader = some c.result := by
  constructor
  · intro result hresult
    rw [authenticateApiKey, hkey] at hresult
    dsimp only at hresult
    split at hresult
    case h_1 => cases hresult
    case h_2 row hfind =>
      split at hresult
      case isTrue => cases hresult
      case isFalse hexpired =>
        obtain ⟨hrow, -, hlive⟩ := mem_sharing.1 (mem_of_mem_candidates
          (List.mem_of_find?_eq_some hfind))
        have hhash : row.keyHash = sha256Hex rawKey := of_decide_eq_true
          (List.find?_some (p := fun r : ApiKeyRow => r.keyHash = sha256Hex rawKey) hfind)
        obtain ⟨c, hc, revoked, rfl, hrevoked⟩ := (mem_apiKeyRows hrun).1 hrow
        obtain rfl : revoked = false := hlive
        refine ⟨c, hc, hdistinct.digest _ (List.mem_map_of_mem hc) hhash,
          (Option.some.inj hresult).symm, Bool.eq_false_iff.2 hexpired, fun d hd hd' => ?_⟩
        exact Bool.false_ne_true (hrevoked.2 ⟨d, hd, hd'⟩)
  · intro c hc hraw hexpired hnot hfew
    have hrow : (c.asOf false).row ∈ apiKeyRows s := by
      refine (mem_apiKeyRows hrun).2 ⟨c, hc, false, rfl, ?_⟩
      constructor
      · intro h
        cases h
      · rintro ⟨d, hd, hd'⟩
        exact absurd hd' (hnot d hd)
    have hhash : (c.asOf false).row.keyHash = sha256Hex rawKey := congrArg sha256Hex hraw
    have hmem : (c.asOf false).row ∈ candidates order (apiKeyRows s) rawKey := by
      have hlength := (order.perm (sharing (apiKeyRows s) rawKey)).length_eq
      rw [candidates, List.take_of_length_le (hlength ▸ hfew), (order.perm _).mem_iff]
      exact mem_sharing.2 ⟨hrow, congrArg extractKeyPrefix hraw, rfl⟩
    rw [apiKeyRows_eq hrun] at hmem ⊢
    rw [authenticateApiKey_of_mem (distinct_standing hdistinct) hkey hhash hmem, if_neg]
    · rfl
    · rw [show (c.asOf false).row.expired now = _ from hexpired]
      exact Bool.false_ne_true

end Rows

namespace Sample

/-- A key of one tenant. -/
def ciKey : CreateKey where
  tenantId := "t1"
  name := "ci"
  scopes := ["ingest"]
  expiresInDays := some 30
  now := 0
  randomHex := "a1b20000000000000000000000000001"
  id := proposalId

/-- It is created; its tenant revokes it twice at once. -/
def revokedTwice : List (Growth RevokeKey CreateKey) :=
  [.place ciKey, .call (.start 0 ⟨"t1", proposalId⟩), .call (.start 1 ⟨"t1", proposalId⟩),
    .call (.step 0), .call (.step 1), .call (.step 0), .call (.step 0)]

/-- One revocation is through, the other has found the key in force: the key is not
let in. -/
theorem keys_good_until_revoked_twice :
    ∃ s, Run.exec (@apiKeysStep sixDigests) .empty revokedTwice = some s ∧
      ∀ result, @authenticateApiKey sixDigests _ asStored (apiKeyRows s) 1
        (some "Bearer lsg_a1b20000000000000000000000000001") ≠ some result := by
  have hruns : (Run.exec (@apiKeysStep sixDigests) .empty revokedTwice).map
      (fun s => (s.placed, s.store.history.map fun d => d.call)) =
        some ([ciKey], [⟨"t1", proposalId⟩]) := by
    decide +kernel
  obtain ⟨s, hrun, hs⟩ := Option.map_eq_some_iff.1 hruns
  obtain ⟨hplaced, hhistory⟩ := Prod.mk.inj hs
  have hdistinct : @Distinct sixDigests (s.placed.map CreateKey.issued)
      "lsg_a1b20000000000000000000000000001" := by
    rw [hplaced]
    refine @Distinct.mk sixDigests _ _ (List.nodup_singleton _) fun key hkey _ => ?_
    rw [List.mem_singleton.1 hkey]
    rfl
  refine ⟨s, hrun, fun result hresult => ?_⟩
  obtain ⟨c, hc, -, -, -, hnot⟩ := (@keys_good_until_revoked sixDigests s revokedTwice _ hrun
    "lsg_a1b20000000000000000000000000001" _ (by decide +kernel) hdistinct asStored 1).1 result
    hresult
  obtain ⟨d, hd, hcall⟩ := List.mem_map.1
    (hhistory ▸ List.mem_singleton_self _ : (⟨"t1", proposalId⟩ : RevokeKey) ∈
      s.store.history.map fun d => d.call)
  rw [hplaced] at hc
  obtain rfl := List.mem_singleton.1 hc
  refine hnot d hd ?_
  rw [hcall]
  exact ⟨by decide +kernel, by decide +kernel, rfl⟩

end Sample

end LoopStorm.Backend
