import Mathlib

/-!
# Reading a growing table by its key

A reader fetches a table page by page, each page above the last key it has seen,
while rows are appended.

* `Found`, `IsPage` — what a query above a cursor finds, and a page of it.
* `extraPage`, `shortPage` — the two ways to tell the last page.
* `follow` — the pages from a cursor on, each of the table as it is by then.
* `Grows` — rows are added above all that are there.
* `found_follow` — **the pages together are one query**: they hold the rows of the
  table as the last page saw it, each once and in order.
* `follow_isSome` — the pages end when there are more fetches than rows.
-/

namespace Cursor

variable {ρ κ τ : Type*} [LinearOrder κ] {key : ρ → κ}

/-- What a query above a cursor finds, by ascending key: all rows when there is
no cursor. -/
structure Found (key : ρ → κ) (cursor : Option κ) (table found : List ρ) : Prop where
  mem : ∀ r, r ∈ found ↔ r ∈ table ∧ ∀ c ∈ cursor, c < key r
  ascending : found.Pairwise fun a b => key a < key b

/-- A query has one answer. -/
theorem Found.unique {cursor : Option κ} {table xs ys : List ρ} (hx : Found key cursor table xs)
    (hy : Found key cursor table ys) : xs = ys := by
  have hlt : ∀ {zs : List ρ}, zs.Pairwise (fun a b => key a < key b) → zs.Nodup := fun h =>
    h.imp fun hab heq => (ne_of_lt hab) (congrArg key heq)
  have hperm : xs.Perm ys := (List.perm_ext_iff_of_nodup (hlt hx.ascending) (hlt hy.ascending)).2
    fun r => (hx.mem r).trans (hy.mem r).symm
  refine List.Perm.eq_of_pairwise (fun a b _ _ hab hba => ?_) hx.ascending hy.ascending hperm
  exact absurd hab (lt_asymm hba)

structure Page (ρ κ : Type*) where
  items : List ρ
  next : Option κ

/-- A page of a query: the last one has all that is left, and any other one names
the key of its last row. -/
structure IsPage (key : ρ → κ) (limit : ℕ) (cursor : Option κ) (table : List ρ)
    (page : Page ρ κ) : Prop where
  items : ∃ found, Found key cursor table found ∧ page.items = found.take limit ∧
    (page.next = none → page.items = found)
  next : ∀ c, page.next = some c → ∃ r, page.items.getLast? = some r ∧ key r = c

/-- The rows of the pages from a cursor on, one state of the store for each
fetch. -/
def follow (fetch : Option κ → τ → Page ρ κ) : Option κ → List τ → Option (List ρ)
  | _, [] => none
  | cursor, store :: later =>
    match (fetch cursor store).next with
    | none => some (fetch cursor store).items
    | some c => (follow fetch (some c) later).map ((fetch cursor store).items ++ ·)

/-- A page for which a row more is fetched: it is the last one when there is none. -/
def extraPage (key : ρ → κ) (limit : ℕ) (found : List ρ) : Page ρ κ :=
  let rows := found.take (limit + 1)
  let items := if limit < rows.length then rows.take limit else rows
  ⟨items, if limit < rows.length then items.getLast?.map key else none⟩

/-- A page that is the last one when it is not full. -/
def shortPage (key : ρ → κ) (limit : ℕ) (found : List ρ) : Page ρ κ :=
  let items := found.take limit
  ⟨items, if items.length < limit then none else items.getLast?.map key⟩

section Pages

variable {limit : ℕ} {cursor : Option κ} {table found : List ρ}

omit [LinearOrder κ] in
/-- The cursor a full page names. -/
theorem next_of_map {c : κ} (h : (found.take limit).getLast?.map key = some c) :
    ∃ r, (found.take limit).getLast? = some r ∧ key r = c :=
  Option.map_eq_some_iff.1 h

omit [LinearOrder κ] in
/-- A full page has a last row. -/
theorem getLast?_take_ne_none (hlimit : 0 < limit) (hfull : limit ≤ found.length) :
    (found.take limit).getLast?.map key ≠ none := by
  rw [Ne, Option.map_eq_none_iff, List.getLast?_eq_none_iff]
  intro hnil
  have hlen := congrArg List.length hnil
  rw [List.length_take, List.length_nil] at hlen
  omega

theorem isPage_extraPage (hlimit : 0 < limit) (h : Found key cursor table found) :
    IsPage key limit cursor table (extraPage key limit found) := by
  by_cases hmore : limit < (found.take (limit + 1)).length
  · have hpage : extraPage key limit found =
        ⟨found.take limit, (found.take limit).getLast?.map key⟩ := by
      rw [extraPage]
      simp only [if_pos hmore, List.take_take, min_eq_left (Nat.le_succ limit)]
    rw [hpage]
    have hfull : limit ≤ found.length := by
      rw [List.length_take] at hmore
      omega
    exact ⟨⟨found, h, rfl, fun hnone => absurd hnone (getLast?_take_ne_none hlimit hfull)⟩,
      fun c hc => next_of_map hc⟩
  · have hall : found.length ≤ limit := by
      rw [List.length_take] at hmore
      omega
    have hpage : extraPage key limit found = ⟨found, none⟩ := by
      rw [extraPage]
      simp only [List.take_of_length_le (Nat.le_succ_of_le hall), if_neg (not_lt.2 hall)]
    rw [hpage]
    exact ⟨⟨found, h, (List.take_of_length_le hall).symm, fun _ => rfl⟩, fun c hc => by cases hc⟩

theorem isPage_shortPage (hlimit : 0 < limit) (h : Found key cursor table found) :
    IsPage key limit cursor table (shortPage key limit found) := by
  by_cases hshort : (found.take limit).length < limit
  · have hall : found.length ≤ limit := by
      rw [List.length_take] at hshort
      omega
    rw [shortPage]
    simp only [if_pos hshort]
    exact ⟨⟨found, h, rfl, fun _ => List.take_of_length_le hall⟩, fun c hc => by cases hc⟩
  · have hfull : limit ≤ found.length := by
      rw [List.length_take] at hshort
      omega
    rw [shortPage]
    simp only [if_neg hshort]
    exact ⟨⟨found, h, rfl, fun hnone => absurd hnone (getLast?_take_ne_none hlimit hfull)⟩,
      fun c hc => next_of_map hc⟩

end Pages

/-- The rows that are new are above all rows that were there. -/
structure Grows (key : ρ → κ) (before after : List ρ) : Prop where
  kept : before ⊆ after
  above : ∀ r ∈ after, r ∉ before → ∀ s ∈ before, key s < key r

theorem Grows.refl (key : ρ → κ) (table : List ρ) : Grows key table table where
  kept := List.Subset.refl _
  above _ hr hnew := absurd hr hnew

theorem Grows.trans {s t u : List ρ} (hst : Grows key s t) (htu : Grows key t u) :
    Grows key s u where
  kept := List.Subset.trans hst.kept htu.kept
  above r hr hnew x hx := by
    by_cases ht : r ∈ t
    · exact hst.above r ht hnew x hx
    · exact htu.above r hr ht x (hst.kept hx)

section Page

variable {limit : ℕ} {cursor : Option κ} {table later rest : List ρ} {page : Page ρ κ}

/-- The last row of a page is above the cursor. -/
theorem IsPage.next_spec (h : IsPage key limit cursor table page) {c : κ}
    (hc : page.next = some c) : (∃ r ∈ table, key r = c) ∧ ∀ d ∈ cursor, d < c := by
  obtain ⟨found, hfound, hitems, -⟩ := h.items
  obtain ⟨r, hlast, hkey⟩ := h.next c hc
  have hmem : r ∈ found := List.mem_of_mem_take (hitems ▸ List.mem_of_getLast? hlast)
  obtain ⟨htable, habove⟩ := (hfound.mem r).1 hmem
  exact ⟨⟨r, htable, hkey⟩, hkey ▸ habove⟩

/-- A page that is not the last one has the rows up to its last. -/
theorem IsPage.mem_iff (h : IsPage key limit cursor table page) {c : κ}
    (hc : page.next = some c) (r : ρ) :
    r ∈ page.items ↔ (r ∈ table ∧ ∀ d ∈ cursor, d < key r) ∧ key r ≤ c := by
  obtain ⟨found, hfound, hitems, -⟩ := h.items
  obtain ⟨last, hlast, rfl⟩ := h.next c hc
  have hsorted := hfound.ascending
  rw [← List.take_append_drop limit found, List.pairwise_append, ← hitems] at hsorted
  obtain ⟨hpage, -, hcut⟩ := hsorted
  rw [← hfound.mem]
  constructor
  · intro hr
    refine ⟨List.mem_of_mem_take (hitems ▸ hr), ?_⟩
    obtain ⟨front, hfront⟩ := List.getLast?_eq_some_iff.1 hlast
    rw [hfront] at hr hpage
    rcases List.mem_append.1 hr with hr | hr
    · exact ((List.pairwise_append.1 hpage).2.2 r hr last (List.mem_singleton_self _)).le
    · rw [List.mem_singleton.1 hr]
  · rintro ⟨hr, hle⟩
    rw [← List.take_append_drop limit found, ← hitems] at hr
    rcases List.mem_append.1 hr with hr | hr
    · exact hr
    · exact absurd (hcut last (List.mem_of_getLast? hlast) r hr) (not_lt.2 hle)

/-- A page and what is above its last row, in a table that has grown since. -/
theorem IsPage.append (h : IsPage key limit cursor table page) {c : κ}
    (hc : page.next = some c) (hgrows : Grows key table later)
    (hrest : Found key (some c) later rest) : Found key cursor later (page.items ++ rest) := by
  obtain ⟨⟨last, hlast, hkey⟩, hcursor⟩ := h.next_spec hc
  have hup : ∀ r, key r ≤ c → (r ∈ table ↔ r ∈ later) := by
    intro r hle
    refine ⟨fun hr => hgrows.kept hr, fun hr => ?_⟩
    by_contra hnew
    exact absurd (hgrows.above r hr hnew last hlast) (not_lt.2 (hkey ▸ hle))
  constructor
  case mem =>
    intro r
    rw [List.mem_append, h.mem_iff hc, hrest.mem]
    by_cases hle : key r ≤ c
    · rw [hup r hle]
      simp [hle]
    · have hlt := not_le.1 hle
      have habove : ∀ d ∈ cursor, d < key r := fun d hd => (hcursor d hd).trans hlt
      simp only [hle, hlt, and_false, false_or, Option.mem_some_iff, forall_eq', and_true,
        iff_self_and]
      exact fun _ => habove
  case ascending =>
    have hpage : page.items.Pairwise fun a b => key a < key b := by
      obtain ⟨found, hfound, hitems, -⟩ := h.items
      rw [hitems]
      exact hfound.ascending.sublist (List.take_sublist ..)
    refine List.pairwise_append.2 ⟨hpage, hrest.ascending, fun a ha b hb => ?_⟩
    exact (((h.mem_iff hc a).1 ha).2).trans_lt (((hrest.mem b).1 hb).2 c rfl)

end Page

section Follow

variable {limit : ℕ} {view : τ → List ρ} {fetch : Option κ → τ → Page ρ κ} {cursor : Option κ}
  {stores : List τ}

/-- **The pages together are one query** of the table the last page was of. -/
theorem found_follow
    (hfetch : ∀ cursor, ∀ s ∈ stores, IsPage key limit cursor (view s) (fetch cursor s))
    (hgrows : stores.Pairwise fun s t => Grows key (view s) (view t)) {items : List ρ}
    (h : follow fetch cursor stores = some items) :
    ∃ s ∈ stores, Found key cursor (view s) items := by
  induction stores generalizing cursor items with
  | nil => cases h
  | cons store later ih =>
    have hpage := hfetch cursor store (List.mem_cons_self ..)
    rw [follow] at h
    cases hnext : (fetch cursor store).next with
    | none =>
      rw [hnext] at h
      obtain rfl := Option.some.inj h
      obtain ⟨found, hfound, -, hall⟩ := hpage.items
      rw [hall hnext]
      exact ⟨store, List.mem_cons_self .., hfound⟩
    | some c =>
      rw [hnext] at h
      obtain ⟨rest, hrest, rfl⟩ := Option.map_eq_some_iff.1 h
      obtain ⟨hhead, htail⟩ := List.pairwise_cons.1 hgrows
      obtain ⟨last, hlast, hfound⟩ :=
        ih (fun d t ht => hfetch d t (List.mem_cons_of_mem _ ht)) htail hrest
      exact ⟨last, List.mem_cons_of_mem _ hlast, hpage.append hnext (hhead last hlast) hfound⟩

/-- The pages end when there are more fetches than rows above the cursor. -/
theorem follow_isSome
    (hfetch : ∀ cursor, ∀ s ∈ stores, IsPage key limit cursor (view s) (fetch cursor s))
    {all : List ρ} (hall : ∀ s ∈ stores, view s ⊆ all)
    (hmany : (all.filter fun r => cursor.all fun c => decide (c < key r)).length < stores.length) :
    (follow fetch cursor stores).isSome = true := by
  induction stores generalizing cursor with
  | nil => exact absurd hmany (Nat.not_lt_zero _)
  | cons store later ih =>
    have hpage := hfetch cursor store (List.mem_cons_self ..)
    rw [follow]
    cases hnext : (fetch cursor store).next with
    | none => rfl
    | some c =>
      obtain ⟨⟨last, hlast, hkey⟩, hcursor⟩ := hpage.next_spec hnext
      rw [Option.isSome_map]
      refine ih (fun d t ht => hfetch d t (List.mem_cons_of_mem _ ht))
        (fun t ht => hall t (List.mem_cons_of_mem _ ht)) ?_
      -- the last row of the page is above the old cursor and not above the new one
      have habove : ∀ r, c < key r → cursor.all (fun d => decide (d < key r)) = true := by
        intro r hr
        rw [Option.all_eq_true]
        exact fun d hd => decide_eq_true ((hcursor d hd).trans hr)
      have hnested : (all.filter fun r => decide (c < key r)) =
          (all.filter fun r => cursor.all fun d => decide (d < key r)).filter
            fun r => decide (c < key r) := by
        rw [List.filter_filter]
        refine List.filter_congr fun r _ => ?_
        by_cases hr : c < key r
        · simp [hr, habove r hr]
        · simp [hr]
      have hmem : last ∈ all.filter fun r => cursor.all fun d => decide (d < key r) := by
        refine List.mem_filter.2 ⟨hall store (List.mem_cons_self ..) hlast, ?_⟩
        rw [Option.all_eq_true]
        exact fun d hd => decide_eq_true (hkey ▸ hcursor d hd)
      have hnot : ¬decide (c < key last) = true := by
        rw [hkey, decide_eq_true_eq]
        exact lt_irrefl c
      have hlt := (List.length_filter_lt_length_iff_exists
        (p := fun r => decide (c < key r))).2 ⟨last, hmem, hnot⟩
      rw [← hnested] at hlt
      rw [List.length_cons] at hmany
      simp only [Option.all_some]
      omega

/-- **The pages end** when there are more fetches than rows, though rows are
added. -/
theorem follow_isSome_of_grows
    (hfetch : ∀ cursor, ∀ s ∈ stores, IsPage key limit cursor (view s) (fetch cursor s))
    (hgrows : stores.Pairwise fun s t => Grows key (view s) (view t)) (hne : stores ≠ [])
    (hmany : ∀ s ∈ stores, (view s).length < stores.length) :
    (follow fetch cursor stores).isSome = true := by
  have hall : ∀ s ∈ stores, view s ⊆ view (stores.getLast hne) := by
    intro s hs
    rw [← List.dropLast_append_getLast hne, List.pairwise_append] at hgrows
    rw [← List.dropLast_append_getLast hne] at hs
    rcases List.mem_append.1 hs with hfront | hend
    · exact (hgrows.2.2 s hfront _ (List.mem_singleton_self _)).kept
    · rw [List.mem_singleton.1 hend]
      exact List.Subset.refl _
  refine follow_isSome hfetch hall ?_
  exact (List.length_filter_le _ _).trans_lt (hmany _ (List.getLast_mem hne))

end Follow

end Cursor
