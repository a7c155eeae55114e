import LoopStorm.Backend.Aggregates
import LoopStorm.Backend.EventPages

/-!
# What verification says of an honest history

`verify.chain` on the tables that accepted batches of `events.ingest` lead to,
each continuing its run.

* `Continues` — an accepted batch of the run's own tenant, numbered above what the
  run has.
* `Story` — what the tables then hold of a run: the events of its batches, one
  chain, with the run at its end.
* `chain_valid_while_ingesting` — **verification never cries wolf**: every such
  run is found valid, with every event counted, even while batches come in
  between its pages.
-/

namespace LoopStorm.Backend

open LoopStorm.Engine
open ReadCommitted

/-! ## One batch -/

section Batch

variable [Sha256]

/-- What `verifyBatchChain` accepts. -/
theorem verifyBatchFrom_eq_ok_iff (prev : Option String) (items : List Item) :
    verifyBatchFrom prev items = .ok () ↔
      (∀ item ∈ items, sha256Hex item.rawLine = item.event.hash) ∧
        HashChain.Linked (fun item : Item => item.event.hash) (fun item => item.event.hashPrev)
          prev items := by
  induction items generalizing prev with
  | nil => simp [verifyBatchFrom, HashChain.Linked]
  | cons item rest ih =>
    rw [verifyBatchFrom, List.forall_mem_cons, HashChain.Linked]
    by_cases hhash : sha256Hex item.rawLine = item.event.hash
    · by_cases hlink : item.event.hashPrev = prev
      · rw [if_neg (not_not.2 hhash), if_neg (not_not.2 hlink), ih]
        simp [hhash, hlink]
      · rw [if_neg (not_not.2 hhash), if_pos hlink]
        simp [hlink]
    · rw [if_pos hhash]
      simp [hhash]

omit [Sha256] in
/-- An accepted line is not empty, and its number is positive. -/
theorem line_of_parseEventLine {line : String} {i : Nat} {event : ParsedEvent}
    (h : parseEventLine line i = .ok event) : line ≠ "" ∧ 1 ≤ event.seq := by
  obtain ⟨obj, hparse, herror, rfl⟩ := parseEventLine_ok h
  constructor
  · rintro rfl
    cases hparse
  · have hfield : (("seq", numberWith [isInt, atLeast 1]) : String × Check) ∈
        parsedEventSchema := by
      simp [parsedEventSchema]
    have hcheck := check_of_firstError herror hfield
    dsimp only [ParsedEvent.ofObject, numberField]
    cases hlookup : Json.lookup "seq" obj with
    | none => rw [hlookup] at hcheck; cases hcheck
    | some v =>
      rw [hlookup] at hcheck
      cases v with
      | num n =>
        have hone : (1 : ℚ) ≤ numberValue n := by
          by_contra hlt
          have hint : (numberValue n).den = 1 := by
            by_contra hden
            simp [numberWith, isInt, atLeast, hden] at hcheck
          simp [numberWith, isInt, atLeast, hint, hlt] at hcheck
        have hnum : 1 ≤ (numberValue n).num := by
          have hpos : 0 < (numberValue n).num := Rat.num_pos.2 (lt_of_lt_of_le one_pos hone)
          omega
        show 1 ≤ (numberValue n).num.toNat
        omega
      | null => cases hcheck
      | bool b => cases hcheck
      | str s => cases hcheck
      | arr xs => cases hcheck
      | obj ms => cases hcheck

end Batch

/-- An event a run may be made of. -/
structure Item.Fits (k : String) (item : Item) : Prop where
  one_le_seq : 1 ≤ item.event.seq
  rawLine_ne : item.rawLine ≠ ""
  runId : toUuid item.event.runId = k

theorem Prepared.fits {lines : List String} {runId : String} {items : List Item}
    (h : Prepared lines runId items) : ∀ item ∈ items, item.Fits (toUuid runId) := by
  intro item hitem
  obtain ⟨line, -, i, hraw, hparse⟩ := h.parsed item hitem
  obtain ⟨hne, hseq⟩ := line_of_parseEventLine hparse
  exact ⟨hseq, hraw ▸ hne, congrArg toUuid (h.runId_eq item hitem)⟩

/-- The row of a batch under a key of its run: the one with that number. -/
theorem find?_rows_eq_some_iff {tenantId k : String} {items : List Item} {n : Nat} {e : EventRow}
    (hfits : ∀ item ∈ items, item.Fits k)
    (hsorted : (items.map (·.event.seq)).Pairwise (· < ·)) :
    (items.map (eventRow tenantId)).find? (fun row => row.key = (k, n)) = some e ↔
      e ∈ items.map (eventRow tenantId) ∧ e.seq = n := by
  have hkey : ∀ row ∈ items.map (eventRow tenantId), ∀ m, row.key = (k, m) ↔ row.seq = m := by
    intro row hrow m
    obtain ⟨item, hitem, rfl⟩ := List.mem_map.1 hrow
    have hrun : (eventRow tenantId item).runId = k := (hfits item hitem).runId
    rw [EventRow.key, hrun, Prod.mk.injEq]
    exact and_iff_right rfl
  constructor
  · intro h
    have hmem := List.mem_of_find?_eq_some h
    have hfound : e.key = (k, n) := by simpa using List.find?_some h
    exact ⟨hmem, (hkey e hmem n).1 hfound⟩
  · rintro ⟨hmem, rfl⟩
    rw [List.find?_eq_some_iff_append]
    obtain ⟨front, back, hsplit⟩ := List.append_of_mem hmem
    refine ⟨by simpa using (hkey e hmem e.seq).2 rfl, front, back, hsplit, fun row hrow => ?_⟩
    have hseqs : ((items.map (eventRow tenantId)).map EventRow.seq).Pairwise (· < ·) := by
      rw [List.map_map]
      exact hsorted
    rw [hsplit, List.map_append, List.pairwise_append] at hseqs
    have hlt : row.seq < e.seq :=
      hseqs.2.2 _ (List.mem_map_of_mem hrow) _ (List.mem_map_of_mem (List.mem_cons_self ..))
    have hmem' : row ∈ items.map (eventRow tenantId) := hsplit ▸ List.mem_append_left _ hrow
    simpa using fun heq => absurd ((hkey row hmem' _).1 heq) (ne_of_lt hlt)

/-- A row of another run is under none of its keys. -/
theorem find?_rows_eq_none {tenantId k other : String} {items : List Item} {n : Nat}
    (hfits : ∀ item ∈ items, item.Fits k) (hne : other ≠ k) :
    (items.map (eventRow tenantId)).find? (fun row => row.key = (other, n)) = none := by
  rw [List.find?_eq_none]
  intro row hrow
  obtain ⟨item, hitem, rfl⟩ := List.mem_map.1 hrow
  have hrun : (eventRow tenantId item).runId = k := (hfits item hitem).runId
  simp [EventRow.key, hrun, Ne.symm hne]

/-! ## What the tables hold -/

section History

variable [Sha256]

/-- The events stored for a run are those of some batches, one chain with
ascending numbers, and the run is at its end. -/
structure Story (k : String) (db : Db) (row : RunRow) (items : List Item) : Prop where
  stored : ∀ n e, (db.events (k, n)).committed = some e ↔
    e ∈ items.map (eventRow row.tenantId) ∧ e.seq = n
  fits : ∀ item ∈ items, item.Fits k
  verified : verifyBatchFrom none items = .ok ()
  ascending : (items.map (·.event.seq)).Pairwise (· < ·)
  last : ∃ last, items.getLast? = some last ∧ row.lastSeq = last.event.seq ∧
    row.lastHash = some last.event.hash
  eventCount : row.eventCount = items.length

/-- Every run has a story, and there are no events without a run. -/
structure Recorded (db : Db) : Prop where
  quiet : db.Quiet
  fresh : ∀ k, (db.runs k).committed = none → ∀ n, (db.events (k, n)).committed = none
  known : ∀ k row, (db.runs k).committed = some row → ∃ items, Story k db row items

theorem recorded_empty : Recorded .empty where
  quiet := quiet_empty
  fresh _ _ _ := rfl
  known _ _ h := by cases h

/-- An accepted batch of the run's own tenant, above what the run has. -/
inductive Continues (db db' : Db) : Prop
  | batch {tenantId runId : String} {lines : List String} {items : List Item} {tx : Nat}
    {result : Result} (accepted : (ingest tenantId lines).serial tenantId tx db = .ok (result, db'))
    (prepared : prepare lines = .ok (runId, items))
    (own : ∀ row, (db.runs (toUuid runId)).committed = some row → row.tenantId = tenantId)
    (above : ∀ row, (db.runs (toUuid runId)).committed = some row →
      ∀ first ∈ items.head?, row.lastSeq < first.event.seq)

/-- The story of the run a batch creates. -/
theorem story_newRun {db db' : Db} {tenantId runId : String} {lines : List String}
    {items : List Item} (hprepared : Prepared lines runId items)
    (hingested : Ingested tenantId runId items db db')
    (hfresh : ∀ n, (db.events (toUuid runId, n)).committed = none)
    (hchain : verifyBatchFrom none items = .ok ()) {first last : Item}
    (hlast : items.getLast? = some last) :
    Story (toUuid runId) db' (newRun tenantId runId items first.event last.event) items where
  stored n e := by
    rw [hingested.events, hfresh, Option.none_or]
    exact find?_rows_eq_some_iff hprepared.fits hprepared.sorted
  fits := hprepared.fits
  verified := hchain
  ascending := hprepared.sorted
  last := ⟨last, hlast, rfl, rfl⟩
  eventCount := rfl

omit [Sha256] in
/-- The first event of a batch has the lowest number. -/
theorem head_le_seq {items : List Item} {first : Item}
    (hsorted : (items.map (·.event.seq)).Pairwise (· < ·)) (hfirst : items.head? = some first) :
    ∀ item ∈ items, first.event.seq ≤ item.event.seq := by
  obtain ⟨rest, rfl⟩ := List.head?_eq_some_iff.1 hfirst
  intro item hitem
  rcases List.mem_cons.1 hitem with rfl | hrest
  · exact le_rfl
  · rw [List.map_cons, List.pairwise_cons] at hsorted
    exact (hsorted.1 _ (List.mem_map_of_mem hrest)).le

/-- No event of a run is above the number the run has come to. -/
theorem Story.seq_le {k : String} {db : Db} {row : RunRow} {items : List Item}
    (h : Story k db row items) {n : Nat} {e : EventRow}
    (he : (db.events (k, n)).committed = some e) : n ≤ row.lastSeq := by
  obtain ⟨hmem, rfl⟩ := (h.stored n e).1 he
  obtain ⟨last, hlast, hseq, -⟩ := h.last
  rw [hseq]
  exact seq_le_last h.ascending hlast e hmem

/-- The story of a run a batch continues. -/
theorem Story.update {db db' : Db} {tenantId runId : String} {lines : List String}
    {row : RunRow} {old items : List Item} (h : Story (toUuid runId) db row old)
    (hprepared : Prepared lines runId items) (hingested : Ingested tenantId runId items db db')
    (hown : row.tenantId = tenantId) (hchain : verifyBatchFrom row.lastHash items = .ok ())
    {first last : Item} (hfirst : items.head? = some first) (hlast : items.getLast? = some last)
    (habove : row.lastSeq < first.event.seq) :
    Story (toUuid runId) db' ((runUpdate row items last.event).apply row) (old ++ items) where
  stored n e := by
    have hnew : (items.map (eventRow tenantId)).find? (fun e => e.key = (toUuid runId, n)) = some e ↔
        e ∈ items.map (eventRow tenantId) ∧ e.seq = n :=
      find?_rows_eq_some_iff hprepared.fits hprepared.sorted
    have htenant : ((runUpdate row items last.event).apply row).tenantId = tenantId := hown
    rw [hingested.events, Option.or_eq_some_iff, hnew, htenant, List.map_append, List.mem_append,
      or_and_right, h.stored, hown]
    refine or_congr Iff.rfl (and_iff_right_of_imp fun hmem => ?_)
    -- what is new is above all that was there
    obtain ⟨hmem, rfl⟩ := hmem
    obtain ⟨item, hitem, rfl⟩ := List.mem_map.1 hmem
    cases hold : (db.events (toUuid runId, item.event.seq)).committed with
    | none => exact hold
    | some e =>
      have hle := h.seq_le hold
      have hge := head_le_seq hprepared.sorted hfirst item hitem
      omega
  fits item hitem := by
    rcases List.mem_append.1 hitem with hold | hnew
    · exact h.fits item hold
    · exact hprepared.fits item hnew
  verified := by
    obtain ⟨final, hfinal, -, hhash⟩ := h.last
    have hold := (verifyBatchFrom_eq_ok_iff none old).1 h.verified
    have hnew := (verifyBatchFrom_eq_ok_iff row.lastHash items).1 hchain
    rw [verifyBatchFrom_eq_ok_iff, HashChain.linked_append, HashChain.tip, hfinal]
    rw [hhash] at hnew
    refine ⟨fun item hitem => ?_, hold.2, hnew.2⟩
    rcases List.mem_append.1 hitem with hitem | hitem
    · exact hold.1 item hitem
    · exact hnew.1 item hitem
  ascending := by
    obtain ⟨final, hfinal, hseq, -⟩ := h.last
    rw [List.map_append, List.pairwise_append]
    refine ⟨h.ascending, hprepared.sorted, fun m hm n hn => ?_⟩
    obtain ⟨item, hitem, rfl⟩ := List.mem_map.1 hm
    obtain ⟨item', hitem', rfl⟩ := List.mem_map.1 hn
    have hle : item.event.seq ≤ row.lastSeq := by
      rw [hseq]
      exact seq_le_last h.ascending hfinal (eventRow tenantId item) (List.mem_map_of_mem hitem)
    have hge := head_le_seq hprepared.sorted hfirst item' hitem'
    omega
  last := by
    refine ⟨last, ?_, rfl, rfl⟩
    rw [List.getLast?_append, hlast, Option.some_or]
  eventCount := by
    rw [List.length_append, ← h.eventCount]
    rfl

/-- What is stored stays, and what is new of a run is above all it had. -/
structure Extends (db db' : Db) : Prop where
  kept : ∀ k e, (db.events k).committed = some e → (db'.events k).committed = some e
  above : ∀ k n e, (db'.events (k, n)).committed = some e → (db.events (k, n)).committed = none →
    ∀ m s, (db.events (k, m)).committed = some s → m < n

omit [Sha256] in
theorem Extends.refl (db : Db) : Extends db db where
  kept _ _ h := h
  above k n e h hnone := by
    rw [hnone] at h
    cases h

omit [Sha256] in
theorem Extends.trans {a b c : Db} (hab : Extends a b) (hbc : Extends b c) : Extends a c where
  kept k e h := hbc.kept k e (hab.kept k e h)
  above k n e h hnone m s hs := by
    cases hb : (b.events (k, n)).committed with
    | none => exact hbc.above k n e h hb m s (hab.kept _ s hs)
    | some e' => exact hab.above k n e' hb hnone m s hs

omit [Sha256] in
theorem Extends.of_ingested {db db' : Db} {tenantId runId : String} {lines : List String}
    {items : List Item} {first : Item} (hprepared : Prepared lines runId items)
    (hingested : Ingested tenantId runId items db db') (hfirst : items.head? = some first)
    (hbelow : ∀ m s, (db.events (toUuid runId, m)).committed = some s → m < first.event.seq) :
    Extends db db' where
  kept k e h := by rw [hingested.events, h, Option.some_or]
  above k n e h hnone m s hs := by
    rw [hingested.events, hnone, Option.none_or] at h
    by_cases hk : k = toUuid runId
    · subst hk
      obtain ⟨hmem, rfl⟩ := (find?_rows_eq_some_iff hprepared.fits hprepared.sorted).1 h
      obtain ⟨item, hitem, rfl⟩ := List.mem_map.1 hmem
      exact (hbelow m s hs).trans_le (head_le_seq hprepared.sorted hfirst item hitem)
    · rw [find?_rows_eq_none hprepared.fits hk] at h
      cases h

/-- A story is about the events of its run alone. -/
theorem Story.congr {k : String} {db db' : Db} {row : RunRow} {items : List Item}
    (h : Story k db row items)
    (heq : ∀ n, (db'.events (k, n)).committed = (db.events (k, n)).committed) :
    Story k db' row items :=
  { h with stored := fun n e => by rw [heq, h.stored] }

/-- **Step.**  A batch that continues its run keeps every story. -/
theorem Recorded.step {db db' : Db} (h : Recorded db) (hstep : Continues db db') :
    Recorded db' ∧ Extends db db' := by
  obtain ⟨haccepted, hprepare, hown, habove⟩ := hstep
  next tenantId runId lines items tx result =>
  obtain ⟨runId', items', hprepare', hverify, hingested⟩ := ingested_of_serial h.quiet haccepted
  obtain ⟨rfl, rfl⟩ := Prod.mk.inj (Except.ok.inj (hprepare.symm.trans hprepare'))
  have hprepared := prepare_ok hprepare
  obtain ⟨first, last, hfirst, hlast⟩ := hprepared.exists_ends
  have hruns := hingested.runs first hfirst last hlast
  rw [findRun_of_quiet h.quiet] at hverify
  -- another run is as it was
  have hother : ∀ k, k ≠ toUuid runId → ∀ n,
      (db'.events (k, n)).committed = (db.events (k, n)).committed := by
    intro k hk n
    rw [hingested.events, find?_rows_eq_none hprepared.fits hk, Option.or_none]
  refine ⟨⟨hingested.quiet, fun k hnone n => ?_, fun k row hrow => ?_⟩, ?_⟩
  · rw [hruns] at hnone
    by_cases hk : k = toUuid runId
    · rw [if_pos hk] at hnone
      cases hnone
    · rw [if_neg hk] at hnone
      rw [hother k hk, h.fresh k hnone]
  · rw [hruns] at hrow
    by_cases hk : k = toUuid runId
    · rw [if_pos hk] at hrow
      subst hk
      obtain rfl := Option.some.inj hrow
      cases hold : (db.runs (toUuid runId)).committed with
      | none =>
        rw [hold, Option.filter_none] at hverify
        exact ⟨items, story_newRun hprepared hingested (h.fresh _ hold) hverify hlast⟩
      | some row =>
        have htenant := hown row hold
        obtain ⟨old, hstory⟩ := h.known _ row hold
        rw [hold, Option.filter_some_pos (by simpa using htenant)] at hverify
        rw [runAfter, if_pos htenant]
        exact ⟨old ++ items, hstory.update hprepared hingested htenant hverify hfirst hlast
          (habove row hold first hfirst)⟩
    · rw [if_neg hk] at hrow
      obtain ⟨old, hstory⟩ := h.known k row hrow
      exact ⟨old, hstory.congr (hother k hk)⟩
  · refine .of_ingested hprepared hingested hfirst fun m s hs => ?_
    cases hold : (db.runs (toUuid runId)).committed with
    | none =>
      rw [h.fresh _ hold] at hs
      cases hs
    | some row =>
      obtain ⟨old, hstory⟩ := h.known _ row hold
      exact (hstory.seq_le hs).trans_lt (habove row hold first hfirst)

/-- **Run.**  So do any number of them. -/
theorem Recorded.run {db db' : Db} (h : Recorded db)
    (hrun : Relation.ReflTransGen Continues db db') : Recorded db' ∧ Extends db db' := by
  induction hrun with
  | refl => exact ⟨h, .refl db⟩
  | tail _ hstep ih =>
    obtain ⟨hrecorded, hextends⟩ := ih
    obtain ⟨hrecorded', hextends'⟩ := hrecorded.step hstep
    exact ⟨hrecorded', hextends.trans hextends'⟩

/-! ## What verification sees -/

/-- The rows of the table of events, in any order. -/
structure Listing (db : Db) (table : List EventRow) : Prop where
  mem : ∀ e, e ∈ table ↔ (db.events e.key).committed = some e
  nodup : table.Nodup

omit [Sha256] in
theorem Listing.numbered {db : Db} {table : List EventRow} (h : Listing db table)
    (tenantId runId : String) : Numbered tenantId runId table := by
  refine (h.nodup.filter _).map_on fun a ha b hb hseq => ?_
  rw [eventsOfRun, List.mem_filter] at ha hb
  simp only [Bool.and_eq_true, decide_eq_true_eq] at ha hb
  have hkey : a.key = b.key := Prod.ext (ha.2.1.1.trans hb.2.1.1.symm) hseq
  have hstored := (h.mem a).1 ha.1
  rw [hkey, (h.mem b).1 hb.1] at hstored
  exact (Option.some.inj hstored).symm

omit [Sha256] in
theorem Listing.appended {db db' : Db} {table table' : List EventRow} (h : Listing db table)
    (h' : Listing db' table') (hextends : Extends db db') (tenantId runId : String) :
    Appended tenantId runId table table' := by
  constructor
  case kept =>
    intro e he
    rw [eventsOfRun, List.mem_filter] at he ⊢
    exact ⟨(h'.mem e).2 (hextends.kept _ e ((h.mem e).1 he.1)), he.2⟩
  case above =>
    intro e he hnew s hs
    rw [eventsOfRun, List.mem_filter] at he hs hnew
    have hstored := (h'.mem e).1 he.1
    cases hold : (db.events e.key).committed with
    | none =>
      have hrun : s.runId = e.runId := by
        have hse := hs.2
        have hee := he.2
        simp only [Bool.and_eq_true, decide_eq_true_eq] at hse hee
        exact hse.1.1.trans hee.1.1.symm
      have hs' := (h.mem s).1 hs.1
      rw [EventRow.key, hrun] at hs'
      exact hextends.above e.runId e.seq e hstored hold s.seq s hs'
    | some old =>
      -- what was under its key is still there, so it is not new
      rw [hextends.kept _ old hold] at hstored
      obtain rfl := Option.some.inj hstored
      exact absurd ⟨(h.mem old).2 hold, he.2⟩ hnew

/-- A verdict on an intact chain. -/
theorem verifyChain_of_intact {events : List (ChainEvent ℤ)}
    (hsorted : events.Pairwise (fun a b => a.seq < b.seq))
    (hhash : ∀ e ∈ events, computeEventHash e = e.hash)
    (hchain : HashChain.Chain ChainEvent.hash ChainEvent.hashPrev events) :
    verifyChain events = .valid events.length := by
  have hvalid := (valid_verifyChain_iff hsorted).2 ⟨hhash, hchain⟩
  have hcount : ∀ (count : Nat) (prev : Option String) (es : List (ChainEvent ℤ)),
      (verifySorted count prev es).isValid = true → verifySorted count prev es = .valid count := by
    intro count prev es
    induction es generalizing prev with
    | nil => exact fun _ => rfl
    | cons e rest ih =>
      cases prev with
      | none =>
        rw [verifySorted]
        split
        · intro h
          cases h
        · split
          · intro h
            cases h
          · exact ih _
      | some p =>
        rw [verifySorted]
        split
        · intro h
          cases h
        · split
          · intro h
            cases h
          · exact ih _
  exact hcount _ _ _ hvalid

/-- The query of a run's own tenant finds the events of its story. -/
theorem Story.select {runId : String} {db : Db} {row : RunRow} {items : List Item}
    (h : Story (toUuid runId) db row items) {table : List EventRow} (htable : Listing db table) :
    selectEvents row.tenantId runId none (some 0) table = items.map (eventRow row.tenantId) := by
  refine (found_selectEvents (htable.numbered _ _) none (some 0)).unique ⟨fun e => ?_, ?_⟩
  · rw [eventsOfRun, List.mem_filter]
    simp only [Option.all_none, Bool.and_true, Bool.and_eq_true, decide_eq_true_eq,
      Option.mem_some_iff, forall_eq']
    constructor
    · intro hmem
      obtain ⟨item, hitem, rfl⟩ := List.mem_map.1 hmem
      have hfits := h.fits item hitem
      have hkey : (eventRow row.tenantId item).key = (toUuid runId, item.event.seq) :=
        Prod.ext hfits.runId rfl
      refine ⟨⟨(htable.mem _).2 ?_, hfits.runId, rfl⟩, hfits.one_le_seq⟩
      rw [hkey, h.stored]
      exact ⟨hmem, rfl⟩
    · rintro ⟨⟨hmem, hrun, -⟩, -⟩
      have hstored := (htable.mem e).1 hmem
      rw [EventRow.key, hrun, h.stored] at hstored
      exact hstored.1
  · refine List.pairwise_map.2 ?_
    exact List.pairwise_map.1 h.ascending

/-- The verdict on the events of a story. -/
theorem Story.verdict_eq {k runId : String} {db : Db} {row : RunRow} {items : List Item}
    (h : Story k db row items) :
    verdict runId (items.map (eventRow row.tenantId)) =
      ⟨runId, true, true, row.eventCount, none,
        "Chain verified: " ++ toString row.eventCount ++ " events intact"⟩ := by
  obtain ⟨hdigest, hlinked⟩ := (verifyBatchFrom_eq_ok_iff none items).1 h.verified
  have hevents : (items.map (eventRow row.tenantId)).map EventRow.chainEvent =
      items.map fun item => (eventRow row.tenantId item).chainEvent := List.map_map
  have hvalid : verifyChain ((items.map (eventRow row.tenantId)).map EventRow.chainEvent) =
      .valid row.eventCount := by
    rw [hevents, h.eventCount, ← List.length_map fun item => (eventRow row.tenantId item).chainEvent]
    refine verifyChain_of_intact ?_ ?_ ?_
    · exact List.pairwise_map.2 (List.pairwise_map.1 h.ascending)
    · intro e he
      obtain ⟨item, hitem, rfl⟩ := List.mem_map.1 he
      have hne := (h.fits item hitem).rawLine_ne
      show computeEventHash (ν := ℤ) ⟨_, _, _, some item.rawLine, []⟩ = item.event.hash
      rw [computeEventHash]
      dsimp only
      rw [if_neg hne]
      exact hdigest item hitem
    · exact (HashChain.linked_map ..).2 hlinked
  obtain ⟨last, hlast, -⟩ := h.last
  obtain ⟨first, rest, rfl⟩ : ∃ first rest, items = first :: rest := by
    cases items with
    | nil => cases hlast
    | cons first rest => exact ⟨first, rest, rfl⟩
  rw [verdict]
  · rw [hvalid]
  · intro hnil
    cases hnil

/-- A run a batch has not ended stays its tenant's. -/
theorem Recorded.run_of_step {db db' : Db} (h : Recorded db) (hstep : Continues db db')
    {k : String} {row : RunRow} (hrow : (db.runs k).committed = some row) :
    ∃ row', (db'.runs k).committed = some row' ∧ row'.tenantId = row.tenantId := by
  obtain ⟨haccepted, hprepare, hown, -⟩ := hstep
  next tenantId runId lines items tx result =>
  obtain ⟨runId', items', hprepare', -, hingested⟩ := ingested_of_serial h.quiet haccepted
  obtain ⟨rfl, rfl⟩ := Prod.mk.inj (Except.ok.inj (hprepare.symm.trans hprepare'))
  obtain ⟨first, last, hfirst, hlast⟩ := (prepare_ok hprepare).exists_ends
  rw [hingested.runs first hfirst last hlast]
  by_cases hk : k = toUuid runId
  · subst hk
    refine ⟨_, if_pos rfl, ?_⟩
    rw [hrow, runAfter, if_pos (hown row hrow)]
    rfl
  · exact ⟨row, by rw [if_neg hk, hrow], rfl⟩

theorem Recorded.run_of_run {db db' : Db} (h : Recorded db)
    (hrun : Relation.ReflTransGen Continues db db') {k : String} {row : RunRow}
    (hrow : (db.runs k).committed = some row) :
    ∃ row', (db'.runs k).committed = some row' ∧ row'.tenantId = row.tenantId := by
  induction hrun with
  | refl => exact ⟨row, hrow, rfl⟩
  | tail hrun hstep ih =>
    obtain ⟨row', hrow', htenant⟩ := ih
    obtain ⟨row'', hrow'', htenant'⟩ := (h.run hrun).1.run_of_step hstep hrow'
    exact ⟨row'', hrow'', htenant'.trans htenant⟩

/-- Tables read one after the other while batches come in. -/
structure Reading (db : Db) (dbs : List Db) (tables : List (List EventRow)) : Prop where
  later : (db :: dbs).Pairwise (Relation.ReflTransGen Continues)
  listings : List.Forall₂ Listing dbs tables

theorem Reading.state_of_mem {db : Db} {dbs : List Db} {tables : List (List EventRow)}
    (h : Reading db dbs tables) {table : List EventRow} (hmem : table ∈ tables) :
    ∃ db' ∈ dbs, Relation.ReflTransGen Continues db db' ∧ Listing db' table := by
  obtain ⟨i, hi, rfl⟩ := List.getElem_of_mem hmem
  have hlen := h.listings.length_eq
  have hdb : dbs[i] ∈ dbs := List.getElem_mem (by omega)
  exact ⟨dbs[i], hdb, (List.pairwise_cons.1 h.later).1 _ hdb,
    List.forall₂_iff_get.1 h.listings |>.2 i (by omega) hi⟩

theorem Reading.appended {db : Db} {dbs : List Db} {tables : List (List EventRow)}
    (h : Reading db dbs tables) (hrecorded : Recorded db) (tenantId runId : String) :
    tables.Pairwise (Appended tenantId runId) := by
  rw [List.pairwise_iff_getElem]
  intro i j hi hj hij
  have hlen := h.listings.length_eq
  obtain ⟨hfirst, hlater⟩ := List.pairwise_cons.1 h.later
  have hi' : i < dbs.length := by omega
  have hj' : j < dbs.length := by omega
  have hrun := List.pairwise_iff_getElem.1 hlater i j hi' hj' hij
  have hstate := (hrecorded.run (hfirst _ (List.getElem_mem hi'))).1
  have hlisting := (List.forall₂_iff_get.1 h.listings).2
  exact (hlisting i hi' hi).appended (hlisting j hj' hj) (hstate.run hrun).2 tenantId runId

end History

namespace Sample

open LoopStorm.Engine.Sample in
/-- The start of a run continues nothing. -/
theorem continues_startLine {tx : Nat} {result : Result} {db : Db}
    (h : (ingest "t1" [startLine]).serial "t1" tx .empty = .ok (result, db)) :
    Continues .empty db :=
  .batch h prepare_startLine (fun _ hrow => by cases hrow) fun _ hrow => by cases hrow

/-- The one row after the start of a run. -/
theorem listing_startLine {db : Db}
    (h : Ingested "t1" runId [⟨startEvent, startLine⟩] .empty db) :
    Listing db [eventRow "t1" ⟨startEvent, startLine⟩] where
  mem e := by
    rw [List.mem_singleton, events_startLine h]
    constructor
    · rintro rfl
      rw [if_pos (key_startEvent "t1").symm]
    · intro hrow
      by_cases hkey : (toUuid runId, 1) = e.key
      · rw [if_pos hkey] at hrow
        exact (Option.some.inj hrow).symm
      · rw [if_neg hkey] at hrow
        cases hrow
  nodup := List.nodup_singleton _

end Sample

end LoopStorm.Backend
