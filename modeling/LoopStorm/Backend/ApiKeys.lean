import LoopStorm.Engine.Telemetry
import LoopStorm.Backend.Provisioning

/-!
# Authentication by API key

`authenticateApiKey` of `middleware/api-key.ts` over the keys `generateApiKey`
of `lib/api-key-gen.ts` has issued.

* `IssuedKey` — a key that was generated, with its row of `api_keys`.
* `candidates` — at most five unrevoked rows with the first eight characters of
  the key, whichever the database returns first.
* `ownVerdict` — what the row of a key alone says of it.
* `authenticateApiKey_iff` — **a key is judged by its own row just when** that row
  is among the candidates; whatever the database returns first, just when no
  more than five live rows share its first characters.
-/

namespace LoopStorm.Backend

open LoopStorm.Engine (Sha256 sha256Hex)

/-! ## Rows -/

/-- A row of `api_keys`; the time in milliseconds. -/
structure ApiKeyRow where
  id : String
  tenantId : String
  keyPrefix : String
  keyHash : String
  scopes : List String
  expiresAt : Option ℤ
  isRevoked : Bool
  deriving DecidableEq

/-- Result of a successful API key authentication. -/
structure ApiKeyAuthResult where
  tenantId : String
  apiKeyId : String
  scopes : List String
  deriving DecidableEq

/-- The first eight characters of a key. -/
def extractKeyPrefix (rawKey : String) : String := String.ofList (rawKey.toList.take 8)

/-- A key as it is generated and stored: 32 random hexadecimal digits, and what
the row says besides. -/
structure IssuedKey where
  randomHex : String
  id : String
  tenantId : String
  scopes : List String
  expiresAt : Option ℤ
  isRevoked : Bool

/-- The full raw key. -/
def IssuedKey.rawKey (key : IssuedKey) : String := "lsg_" ++ key.randomHex

/-- The row of a key: its hash and its first characters. -/
def IssuedKey.row [Sha256] (key : IssuedKey) : ApiKeyRow where
  id := key.id
  tenantId := key.tenantId
  keyPrefix := extractKeyPrefix key.rawKey
  keyHash := sha256Hex key.rawKey
  scopes := key.scopes
  expiresAt := key.expiresAt
  isRevoked := key.isRevoked

/-- A row past its expiry. -/
def ApiKeyRow.expired (row : ApiKeyRow) (now : ℤ) : Bool := row.expiresAt.any fun time => time < now

/-- A row that is neither revoked nor expired. -/
def ApiKeyRow.live (row : ApiKeyRow) (now : ℤ) : Bool := !row.isRevoked && !row.expired now

/-- Who a row authenticates. -/
def ApiKeyRow.result (row : ApiKeyRow) : ApiKeyAuthResult := ⟨row.tenantId, row.id, row.scopes⟩

/-! ## Authentication -/

/-- The order in which the database returns rows nobody has ordered. -/
structure AnyOrder (ρ : Type) where
  sort : List ρ → List ρ
  perm : ∀ rows, (sort rows).Perm rows

/-- The key in an Authorization header. -/
def presentedKey [JsStrings] : Option String → Option String
  | none => none
  | some authHeader =>
    if "Bearer ".toList.isPrefixOf authHeader.toList then
      let rawKey := JsStrings.trim (String.ofList (authHeader.toList.drop 7))
      if rawKey = "" then none else some rawKey
    else none

/-- The unrevoked rows with the first characters of a key. -/
def sharing (rows : List ApiKeyRow) (rawKey : String) : List ApiKeyRow :=
  rows.filter fun r => r.keyPrefix = extractKeyPrefix rawKey && !r.isRevoked

/-- The rows a key is compared with. -/
def candidates (order : AnyOrder ApiKeyRow) (rows : List ApiKeyRow) (rawKey : String) :
    List ApiKeyRow :=
  (order.sort (sharing rows rawKey)).take 5

theorem mem_sharing {rows : List ApiKeyRow} {rawKey : String} {r : ApiKeyRow} :
    r ∈ sharing rows rawKey ↔
      r ∈ rows ∧ r.keyPrefix = extractKeyPrefix rawKey ∧ r.isRevoked = false := by
  simp [sharing]

theorem mem_of_mem_candidates {order : AnyOrder ApiKeyRow} {rows : List ApiKeyRow}
    {rawKey : String} {r : ApiKeyRow} (h : r ∈ candidates order rows rawKey) :
    r ∈ sharing rows rawKey :=
  (order.perm _).mem_iff.1 (List.mem_of_mem_take h)

theorem find?_eq_some_of_unique {ρ : Type} {p : ρ → Bool} {rows : List ρ} {r : ρ} (hr : r ∈ rows)
    (hp : p r = true) (hunique : ∀ s ∈ rows, p s = true → s = r) : rows.find? p = some r := by
  cases hfind : rows.find? p with
  | none => exact absurd hp (List.find?_eq_none.1 hfind r hr)
  | some s => rw [hunique s (List.mem_of_find?_eq_some hfind) (List.find?_some hfind)]

section Authentication

variable [Sha256]

/-- Authenticate a request using its `Authorization: Bearer` header. -/
def authenticateApiKey [JsStrings] (order : AnyOrder ApiKeyRow) (rows : List ApiKeyRow) (now : ℤ)
    (authHeader : Option String) : Option ApiKeyAuthResult :=
  match presentedKey authHeader with
  | none => none
  | some rawKey =>
    match (candidates order rows rawKey).find? fun r => r.keyHash = sha256Hex rawKey with
    | none => none
    | some matchedKey => if matchedKey.expired now then none else some matchedKey.result

/-- What the row of a key says of it: it authenticates when it is neither revoked
nor expired. -/
def ownVerdict (rows : List ApiKeyRow) (rawKey : String) (now : ℤ) : Option ApiKeyAuthResult :=
  (rows.find? fun r => r.keyHash = sha256Hex rawKey && r.live now).map ApiKeyRow.result

/-! ## The row of a key -/

/-- The keys are different, and none has the digest of another key that is
presented. -/
structure Distinct (keys : List IssuedKey) (rawKey : String) : Prop where
  nodup : (keys.map IssuedKey.rawKey).Nodup
  digest : ∀ key ∈ keys, sha256Hex key.rawKey = sha256Hex rawKey → key.rawKey = rawKey

/-- There is one row with the digest of a key, and it has its first characters. -/
theorem Distinct.unique {keys : List IssuedKey} {rawKey : String} (h : Distinct keys rawKey)
    {r s : ApiKeyRow} (hr : r ∈ keys.map IssuedKey.row) (hs : s ∈ keys.map IssuedKey.row)
    (hrhash : r.keyHash = sha256Hex rawKey) (hshash : s.keyHash = sha256Hex rawKey) :
    s = r ∧ r.keyPrefix = extractKeyPrefix rawKey := by
  obtain ⟨a, ha, rfl⟩ := List.mem_map.1 hr
  obtain ⟨b, hb, rfl⟩ := List.mem_map.1 hs
  have haraw := h.digest a ha hrhash
  have hbraw := h.digest b hb hshash
  have hsame : b = a := List.inj_on_of_nodup_map h.nodup hb ha (hbraw.trans haraw.symm)
  exact ⟨by rw [hsame], congrArg extractKeyPrefix haraw⟩

theorem ownVerdict_of_live {keys : List IssuedKey} {rawKey : String} (h : Distinct keys rawKey)
    {now : ℤ} {r : ApiKeyRow} (hr : r ∈ keys.map IssuedKey.row)
    (hhash : r.keyHash = sha256Hex rawKey) (hlive : r.live now = true) :
    ownVerdict (keys.map IssuedKey.row) rawKey now = some r.result := by
  have hfind := find?_eq_some_of_unique (p := fun r => r.keyHash = sha256Hex rawKey && r.live now)
    hr (by rw [hhash, hlive]; simp) fun s hs hp => (h.unique hr hs hhash (by
      rw [Bool.and_eq_true, decide_eq_true_eq] at hp
      exact hp.1)).1
  rw [ownVerdict, hfind, Option.map_some]

theorem ownVerdict_eq_none {rows : List ApiKeyRow} {rawKey : String} {now : ℤ}
    (h : ∀ r ∈ rows, r.keyHash = sha256Hex rawKey → r.live now = false) :
    ownVerdict rows rawKey now = none := by
  rw [ownVerdict, Option.map_eq_none_iff, List.find?_eq_none]
  intro r hr hp
  rw [Bool.and_eq_true, decide_eq_true_eq] at hp
  rw [h r hr hp.1] at hp
  exact Bool.false_ne_true hp.2

/-- A row of another key has no say. -/
theorem ownVerdict_congr {rows rows' : List ApiKeyRow} {rawKey : String} (now : ℤ)
    (h : rows'.filter (fun r => r.keyHash = sha256Hex rawKey) =
      rows.filter fun r => r.keyHash = sha256Hex rawKey) :
    ownVerdict rows' rawKey now = ownVerdict rows rawKey now := by
  have hfind : ∀ xs : List ApiKeyRow,
      xs.find? (fun r => r.keyHash = sha256Hex rawKey && r.live now) =
        (xs.filter fun r => r.keyHash = sha256Hex rawKey).find? fun r => r.live now := by
    intro xs
    simp [List.find?_filter]
  rw [ownVerdict, ownVerdict, hfind, hfind, h]

section Verdict

variable [JsStrings] {keys : List IssuedKey} {rawKey : String} {authHeader : Option String}

/-- A key that is compared with its own row. -/
theorem authenticateApiKey_of_mem (h : Distinct keys rawKey)
    (hkey : presentedKey authHeader = some rawKey) {order : AnyOrder ApiKeyRow} {now : ℤ}
    {r : ApiKeyRow} (hhash : r.keyHash = sha256Hex rawKey)
    (hmem : r ∈ candidates order (keys.map IssuedKey.row) rawKey) :
    authenticateApiKey order (keys.map IssuedKey.row) now authHeader =
      if r.expired now then none else some r.result := by
  have hr := (mem_sharing.1 (mem_of_mem_candidates hmem)).1
  have hfind := find?_eq_some_of_unique (p := fun r => r.keyHash = sha256Hex rawKey) hmem
    (decide_eq_true hhash) fun s hs hp => (h.unique hr (mem_sharing.1
      (mem_of_mem_candidates hs)).1 hhash (of_decide_eq_true hp)).1
  rw [authenticateApiKey, hkey]
  dsimp only
  rw [hfind]

/-- A key that is not. -/
theorem authenticateApiKey_eq_none (hkey : presentedKey authHeader = some rawKey)
    {order : AnyOrder ApiKeyRow} {rows : List ApiKeyRow} {now : ℤ}
    (hnone : ∀ r ∈ candidates order rows rawKey, r.keyHash ≠ sha256Hex rawKey) :
    authenticateApiKey order rows now authHeader = none := by
  have hfind : (candidates order rows rawKey).find? (fun r => r.keyHash = sha256Hex rawKey) =
      none :=
    List.find?_eq_none.2 fun r hr hp => hnone r hr (of_decide_eq_true hp)
  rw [authenticateApiKey, hkey]
  dsimp only
  rw [hfind]

/-- The verdict is the key's own when its live row is a candidate. -/
theorem eq_ownVerdict_iff (h : Distinct keys rawKey)
    (hkey : presentedKey authHeader = some rawKey) (order : AnyOrder ApiKeyRow) (now : ℤ) :
    authenticateApiKey order (keys.map IssuedKey.row) now authHeader =
      ownVerdict (keys.map IssuedKey.row) rawKey now ↔
    ∀ r ∈ keys.map IssuedKey.row, r.keyHash = sha256Hex rawKey → r.live now = true →
      r ∈ candidates order (keys.map IssuedKey.row) rawKey := by
  constructor
  · intro heq r hr hhash hlive
    rw [ownVerdict_of_live h hr hhash hlive] at heq
    by_contra hnot
    rw [authenticateApiKey_eq_none hkey] at heq
    · cases heq
    · intro s hs hshash
      have hsame := (h.unique hr (mem_sharing.1 (mem_of_mem_candidates hs)).1 hhash hshash).1
      exact hnot (hsame ▸ hs)
  · intro hall
    by_cases hlive : ∃ r ∈ keys.map IssuedKey.row, r.keyHash = sha256Hex rawKey ∧ r.live now = true
    · obtain ⟨r, hr, hhash, hlive⟩ := hlive
      have hexpired : r.expired now = false := by
        rw [ApiKeyRow.live, Bool.and_eq_true, Bool.not_eq_true'] at hlive
        simpa using hlive.2
      rw [authenticateApiKey_of_mem h hkey hhash (hall r hr hhash hlive), hexpired,
        ownVerdict_of_live h hr hhash hlive]
      rfl
    · have hdead : ∀ r ∈ keys.map IssuedKey.row, r.keyHash = sha256Hex rawKey →
          r.live now = false :=
        fun r hr hhash => Bool.eq_false_iff.2 fun hl => hlive ⟨r, hr, hhash, hl⟩
      rw [ownVerdict_eq_none hdead]
      by_cases hmem : ∃ r ∈ candidates order (keys.map IssuedKey.row) rawKey,
          r.keyHash = sha256Hex rawKey
      · obtain ⟨r, hr, hhash⟩ := hmem
        obtain ⟨hrow, -, hrevoked⟩ := mem_sharing.1 (mem_of_mem_candidates hr)
        have hexpired : r.expired now = true := by
          have hfalse := hdead r hrow hhash
          rw [ApiKeyRow.live, hrevoked] at hfalse
          simpa using hfalse
        rw [authenticateApiKey_of_mem h hkey hhash hr, hexpired]
        rfl
      · exact authenticateApiKey_eq_none hkey fun r hr hhash => hmem ⟨r, hr, hhash⟩

end Verdict

/-- The order that returns one row last. -/
def AnyOrder.last (r : ApiKeyRow) : AnyOrder ApiKeyRow where
  sort rows := rows.filter (fun s => s ≠ r) ++ rows.filter fun s => s = r
  perm rows := by
    have hsplit := List.filter_append_perm (fun s => decide (s ≠ r)) rows
    simpa using hsplit

/-- A key has one row. -/
theorem Distinct.filter_length_le_one {keys : List IssuedKey} {rawKey : String}
    (h : Distinct keys rawKey) {r : ApiKeyRow} (hhash : r.keyHash = sha256Hex rawKey) :
    ((keys.map IssuedKey.row).filter fun s => s = r).length ≤ 1 := by
  have hpairwise : (keys.map IssuedKey.row).Pairwise fun s t => ¬(s = r ∧ t = r) := by
    refine List.pairwise_map.2 (List.Pairwise.imp_of_mem ?_ (List.pairwise_map.1 h.nodup))
    rintro a b ha hb hne ⟨hra, hrb⟩
    have hraw := h.digest a ha ((congrArg ApiKeyRow.keyHash hra).trans hhash)
    exact hne (hraw.trans (h.digest b hb ((congrArg ApiKeyRow.keyHash hrb).trans hhash)).symm)
  have hfilter := hpairwise.filter fun s => s = r
  cases hrows : (keys.map IssuedKey.row).filter fun s => s = r with
  | nil => exact Nat.zero_le _
  | cons s rest =>
    cases rest with
    | nil => exact le_refl _
    | cons t rest =>
      have hs : ∀ u ∈ s :: t :: rest, u = r := by
        intro u hu
        rw [← hrows] at hu
        exact of_decide_eq_true (List.mem_filter.1 hu).2
      rw [hrows] at hfilter
      have hst := (List.pairwise_cons.1 hfilter).1 t (List.mem_cons_self ..)
      exact absurd ⟨hs s (List.mem_cons_self ..),
        hs t (List.mem_cons_of_mem _ (List.mem_cons_self ..))⟩ hst

/-- A row that comes last is among the first five of no more than five. -/
theorem length_le_of_mem_last {keys : List IssuedKey} {rawKey : String} (h : Distinct keys rawKey)
    {r : ApiKeyRow} (hhash : r.keyHash = sha256Hex rawKey)
    (hmem : r ∈ candidates (.last r) (keys.map IssuedKey.row) rawKey) :
    (sharing (keys.map IssuedKey.row) rawKey).length ≤ 5 := by
  set rows := sharing (keys.map IssuedKey.row) rawKey with hrows
  have hone : (rows.filter fun s => s = r).length ≤ 1 := by
    refine le_trans ?_ (h.filter_length_le_one hhash)
    exact (List.Sublist.filter _ List.filter_sublist).length_le
  have hlength : (rows.filter fun s => s ≠ r).length + (rows.filter fun s => s = r).length =
      rows.length := by
    have hperm := ((AnyOrder.last r).perm rows).length_eq
    rwa [AnyOrder.last, List.length_append] at hperm
  have hothers : (rows.filter fun s => s ≠ r).length < 5 := by
    by_contra hnot
    have hmem' : r ∈ ((rows.filter fun s => s ≠ r) ++ rows.filter fun s => s = r).take 5 := hmem
    rw [List.take_append_of_le_length (not_lt.1 hnot)] at hmem'
    exact of_decide_eq_true (List.mem_filter.1 (List.mem_of_mem_take hmem')).2 rfl
  omega

/-- **A key is judged by its own row just when** that row is among the five it is
compared with, if it is live; and whatever the database returns first, just when
no more than five unrevoked rows, of whatever tenant, begin like it.  The row of
another key has no say in its own verdict. -/
theorem authenticateApiKey_iff [JsStrings] (keys : List IssuedKey) (rawKey : String)
    (authHeader : Option String) (now : ℤ) (h : Distinct keys rawKey)
    (hkey : presentedKey authHeader = some rawKey) :
    (∀ order : AnyOrder ApiKeyRow,
      authenticateApiKey order (keys.map IssuedKey.row) now authHeader =
        ownVerdict (keys.map IssuedKey.row) rawKey now ↔
      ∀ r ∈ keys.map IssuedKey.row, r.keyHash = sha256Hex rawKey → r.live now = true →
        r ∈ candidates order (keys.map IssuedKey.row) rawKey) ∧
    ((∀ order : AnyOrder ApiKeyRow,
      authenticateApiKey order (keys.map IssuedKey.row) now authHeader =
        ownVerdict (keys.map IssuedKey.row) rawKey now) ↔
      ((∃ r ∈ keys.map IssuedKey.row, r.keyHash = sha256Hex rawKey ∧ r.live now = true) →
        (sharing (keys.map IssuedKey.row) rawKey).length ≤ 5)) ∧
    ∀ rows, rows.filter (fun r => r.keyHash = sha256Hex rawKey) =
        (keys.map IssuedKey.row).filter (fun r => r.keyHash = sha256Hex rawKey) →
      ownVerdict rows rawKey now = ownVerdict (keys.map IssuedKey.row) rawKey now := by
  refine ⟨fun order => eq_ownVerdict_iff h hkey order now, ⟨fun hall => ?_, fun hfew order => ?_⟩,
    fun rows hrows => ownVerdict_congr now hrows⟩
  · rintro ⟨r, hr, hhash, hlive⟩
    exact length_le_of_mem_last h hhash
      ((eq_ownVerdict_iff h hkey (.last r) now).1 (hall (.last r)) r hr hhash hlive)
  · refine (eq_ownVerdict_iff h hkey order now).2 fun r hr hhash hlive => ?_
    have hlength := (order.perm (sharing (keys.map IssuedKey.row) rawKey)).length_eq
    have hle := hfew ⟨r, hr, hhash, hlive⟩
    rw [candidates, List.take_of_length_le (hlength ▸ hle), (order.perm _).mem_iff]
    refine mem_sharing.2 ⟨hr, (h.unique hr hr hhash hhash).2, ?_⟩
    rw [ApiKeyRow.live, Bool.and_eq_true, Bool.not_eq_true'] at hlive
    exact hlive.1

end Authentication

namespace Sample

/-- The digests of six keys. -/
@[reducible] def sixDigests : Sha256 where
  hex bytes :=
    match bytes.drop 35 with
    | [49] => "b9088fd13c7e56fee0a46d2526eb1b1e731ee31d1d124724ba58d6f39fac32d7"
    | [50] => "067eba03985e0f8902384233007ae518c4eff3cabaec00be3067e6ae3f8312dc"
    | [51] => "48a3a6ae4ee2b049ee1f90d24a9769433bd7a24a767c4a32884c53c4cd917110"
    | [52] => "e2ad623a485c19901450caa59af497a7bc61605cc8377285fd97bf67358b9f1e"
    | [53] => "9cc5487789ce4cdf8ad15a14e3110dee6a1a3ecb9448e1858a5b4b01f92873ed"
    | [54] => "f6807e255923652af3b1aed1f83c4cb56174092314fa857cf637d3f195c503d8"
    | _ => ""

/-- A live key of a tenant of its own; all begin with `lsg_a1b2`. -/
def issued (digit : String) : IssuedKey where
  randomHex := "a1b2000000000000000000000000000" ++ digit
  id := "k" ++ digit
  tenantId := "t" ++ digit
  scopes := ["ingest"]
  expiresAt := none
  isRevoked := false

def sixKeys : List IssuedKey := ["1", "2", "3", "4", "5", "6"].map issued

/-- The order in which rows are stored. -/
def asStored : AnyOrder ApiKeyRow := ⟨fun rows => rows, fun rows => List.Perm.refl rows⟩

def sixthHeader : Option String := some "Bearer lsg_a1b20000000000000000000000000006"

/-- Revoking the key of another tenant makes the sixth one work. -/
theorem not_ownVerdict_sixKeys :
    @authenticateApiKey sixDigests _ asStored (sixKeys.map (@IssuedKey.row sixDigests)) 0
      sixthHeader = none ∧
    @ownVerdict sixDigests (sixKeys.map (@IssuedKey.row sixDigests))
      "lsg_a1b20000000000000000000000000006" 0 = some ⟨"t6", "k6", ["ingest"]⟩ ∧
    @authenticateApiKey sixDigests _ asStored
      (({ issued "1" with isRevoked := true } :: sixKeys.tail).map (@IssuedKey.row sixDigests)) 0
      sixthHeader = some ⟨"t6", "k6", ["ingest"]⟩ := by
  decide +kernel

theorem authenticateApiKey_twoKeys :
    @authenticateApiKey sixDigests _ asStored ((sixKeys.drop 4).map (@IssuedKey.row sixDigests)) 0
        sixthHeader =
      @ownVerdict sixDigests ((sixKeys.drop 4).map (@IssuedKey.row sixDigests))
        "lsg_a1b20000000000000000000000000006" 0 := by
  have hdistinct : @Distinct sixDigests (sixKeys.drop 4) "lsg_a1b20000000000000000000000000006" :=
    @Distinct.mk sixDigests _ _ (by decide +kernel) (by decide +kernel)
  exact ((@authenticateApiKey_iff sixDigests _ (sixKeys.drop 4) _ sixthHeader 0 hdistinct
    (by decide +kernel)).2.1).2 (fun _ => by decide +kernel) asStored

end Sample

end LoopStorm.Backend
