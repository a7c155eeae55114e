import Mathlib

/-!
# Keyset pagination

A listing, newest first, in pages: a page that is not the last one names a
cursor, and the next page has the rows whose key is below it.

* `Order` — how a store orders the rows of a query: rows with one key as it
  likes.
* `page`, `follow` — one page, and all pages from a cursor on. What the cursor
  keeps of a key is `mark`.
* `Clear` — no page ends among keys the cursor cannot tell apart.
* `follow_spec` — the pages end, no row is on two of them, and **every row is on
  one if and only if no boundary is unclear**.
-/

namespace Keyset

variable {ρ κ : Type*} [LinearOrder κ]

/-- How a store orders the rows a query has found. -/
structure Order (key : ρ → κ) where
  sort : Option κ → List ρ → List ρ
  perm : ∀ cursor rows, (sort cursor rows).Perm rows
  sorted : ∀ cursor rows, (sort cursor rows).Pairwise fun a b => key b ≤ key a

/-- The order that keeps rows with one key as they are. -/
def Order.stable (key : ρ → κ) : Order key where
  sort _ rows := rows.insertionSort fun a b => key b ≤ key a
  perm _ rows := List.perm_insertionSort _ rows
  sorted _ rows := by
    have : Std.Total fun a b : ρ => key b ≤ key a := ⟨fun a b => le_total (key b) (key a)⟩
    have : IsTrans ρ fun a b => key b ≤ key a := ⟨fun _ _ _ hab hbc => hbc.trans hab⟩
    exact List.pairwise_insertionSort _ rows

structure Page (ρ κ : Type*) where
  items : List ρ
  nextCursor : Option κ

/-- The rows below a cursor, all of them when there is none. -/
def below (key : ρ → κ) (cursor : Option κ) (rows : List ρ) : List ρ :=
  match cursor with
  | none => rows
  | some c => rows.filter fun r => key r < c

section Pages

variable {key : ρ → κ} (order : Order key) (mark : κ → κ) (limit : ℕ) (rows : List ρ)

/-- One page: a row more is fetched to know whether there is a next one. -/
def page (cursor : Option κ) : Page ρ κ :=
  let found := (order.sort cursor (below key cursor rows)).take (limit + 1)
  let hasMore := limit < found.length
  let items := if hasMore then found.take limit else found
  ⟨items, if hasMore then items.getLast?.map fun r => mark (key r) else none⟩

end Pages

/-- The rows of all pages from a cursor on, within a number of pages. -/
def follow (fetch : Option κ → Page ρ κ) : ℕ → Option κ → Option (List ρ)
  | 0, _ => none
  | fuel + 1, cursor =>
    match (fetch cursor).nextCursor with
    | none => some (fetch cursor).items
    | some c => (follow fetch fuel (some c)).map ((fetch cursor).items ++ ·)

/-- The keys, newest first. -/
def newestFirst (ts : List κ) : List κ := ts.insertionSort (· ≥ ·)

/-- Where a page ends, the next key is below what the cursor keeps of the last. -/
def Clear (mark : κ → κ) (limit : ℕ) (ts : List κ) : Prop :=
  ∀ k a b, ts[(k + 1) * limit - 1]? = some a → ts[(k + 1) * limit]? = some b → b < mark a

/-! ## Boundaries -/

section Boundaries

variable {mark : κ → κ} {limit : ℕ} {ts : List κ}

theorem clear_of_length_le (h : ts.length ≤ limit) : Clear mark limit ts := by
  intro k a b _ hb
  have hlt := (List.getElem?_eq_some_iff.1 hb).1
  have hle : limit ≤ (k + 1) * limit := Nat.le_mul_of_pos_left limit k.succ_pos
  omega

/-- The first boundary, and those of the pages after it. -/
theorem clear_iff_drop (hlimit : 0 < limit) : Clear mark limit ts ↔
    (∀ a b, ts[limit - 1]? = some a → ts[limit]? = some b → b < mark a) ∧
      Clear mark limit (ts.drop limit) := by
  have hindex : ∀ k, limit + ((k + 1) * limit - 1) = (k + 1 + 1) * limit - 1 ∧
      limit + (k + 1) * limit = (k + 1 + 1) * limit := by
    intro k
    have hsucc : (k + 1 + 1) * limit = (k + 1) * limit + limit := Nat.succ_mul _ _
    have hpos : limit ≤ (k + 1) * limit := Nat.le_mul_of_pos_left limit k.succ_pos
    omega
  constructor
  · intro h
    refine ⟨fun a b ha hb => ?_, fun k a b ha hb => ?_⟩
    · refine h 0 a b ?_ ?_
      · rwa [zero_add, one_mul]
      · rwa [zero_add, one_mul]
    · rw [List.getElem?_drop, (hindex k).1] at ha
      rw [List.getElem?_drop, (hindex k).2] at hb
      exact h (k + 1) a b ha hb
  · rintro ⟨hfirst, hrest⟩ k a b ha hb
    cases k with
    | zero =>
      rw [zero_add, one_mul] at ha hb
      exact hfirst a b ha hb
    | succ k =>
      refine hrest k a b ?_ ?_
      · rw [List.getElem?_drop, (hindex k).1]
        exact ha
      · rw [List.getElem?_drop, (hindex k).2]
        exact hb

end Boundaries

/-! ## Pages -/

section Follow

variable {key : ρ → κ} (order : Order key) {mark : κ → κ} {limit : ℕ} {rows : List ρ}

/-- The keys of an ordered list do not depend on how ties are ordered. -/
theorem map_sort (cursor : Option κ) (xs : List ρ) :
    (order.sort cursor xs).map key = newestFirst (xs.map key) := by
  have hsorted : ((order.sort cursor xs).map key).Pairwise (· ≥ ·) :=
    List.pairwise_map.2 (order.sorted cursor xs)
  refine List.Perm.eq_of_pairwise' hsorted (List.pairwise_insertionSort _ _) ?_
  exact ((order.perm cursor xs).map key).trans (List.perm_insertionSort _ _).symm

theorem newestFirst_of_pairwise {xs : List ρ} (h : xs.Pairwise fun a b => key b ≤ key a) :
    newestFirst (xs.map key) = xs.map key :=
  List.Pairwise.insertionSort_eq (List.pairwise_map.2 h)

theorem newestFirst_perm {ts us : List κ} (h : ts.Perm us) : newestFirst ts = newestFirst us :=
  List.Perm.eq_of_pairwise' (List.pairwise_insertionSort _ _) (List.pairwise_insertionSort _ _)
    ((List.perm_insertionSort _ _).trans (h.trans (List.perm_insertionSort _ _).symm))

/-- A last page has all rows. -/
theorem page_of_length_le {cursor : Option κ} (h : (below key cursor rows).length ≤ limit) :
    page order mark limit rows cursor =
      ⟨order.sort cursor (below key cursor rows), none⟩ := by
  have hlength := (order.perm cursor (below key cursor rows)).length_eq
  have hfound : (order.sort cursor (below key cursor rows)).take (limit + 1) =
      order.sort cursor (below key cursor rows) :=
    List.take_of_length_le (by omega)
  unfold page
  dsimp only
  rw [hfound, if_neg (by omega), if_neg (by omega)]

/-- Any other page has `limit` rows, and a cursor. -/
theorem page_of_lt_length (mark : κ → κ) {cursor : Option κ} (hlimit : 0 < limit)
    (h : limit < (below key cursor rows).length) :
    ∃ last, (order.sort cursor (below key cursor rows))[limit - 1]? = some last ∧
      page order mark limit rows cursor =
        ⟨(order.sort cursor (below key cursor rows)).take limit, some (mark (key last))⟩ := by
  have hlength := (order.perm cursor (below key cursor rows)).length_eq
  have hlt : limit - 1 < (order.sort cursor (below key cursor rows)).length := by omega
  refine ⟨_, List.getElem?_eq_getElem hlt, ?_⟩
  have hfound : limit < ((order.sort cursor (below key cursor rows)).take (limit + 1)).length := by
    rw [List.length_take]
    omega
  have htake : ((order.sort cursor (below key cursor rows)).take (limit + 1)).take limit =
      (order.sort cursor (below key cursor rows)).take limit := by
    rw [List.take_take, min_eq_left (Nat.le_succ limit)]
  have hlast : ((order.sort cursor (below key cursor rows)).take limit).getLast? =
      some ((order.sort cursor (below key cursor rows))[limit - 1]) := by
    rw [List.getLast?_eq_getElem?, List.length_take, min_eq_left (by omega),
      List.getElem?_take_of_lt (by omega), List.getElem?_eq_getElem hlt]
  unfold page
  dsimp only
  rw [if_pos hfound, if_pos hfound, htake, hlast, Option.map_some]

/-- What is left below a page's cursor: the rest of the list, as far as it is
below. -/
theorem below_mark_perm (hmark : ∀ k, mark k ≤ k) {cursor : Option κ} {last : ρ}
    (hlast : (order.sort cursor (below key cursor rows))[limit - 1]? = some last) :
    (below key (some (mark (key last))) rows).Perm
      (((order.sort cursor (below key cursor rows)).drop limit).filter
        fun r => key r < mark (key last)) := by
  set sorted := order.sort cursor (below key cursor rows) with hsorted
  have hmem : last ∈ below key cursor rows :=
    (order.perm cursor _).mem_iff.1 (List.mem_of_getElem? hlast)
  -- the rows of the pages before are above the new cursor too
  have hnested : below key (some (mark (key last))) rows =
      (below key cursor rows).filter fun r => key r < mark (key last) := by
    cases cursor with
    | none => rfl
    | some c =>
      have hlt : key last < c := of_decide_eq_true (List.mem_filter.1 hmem).2
      show rows.filter _ = (rows.filter _).filter _
      rw [List.filter_filter]
      refine List.filter_congr fun r _ => ?_
      by_cases hr : key r < mark (key last)
      · have hrc : key r < c := (hr.trans_le (hmark _)).trans hlt
        rw [decide_eq_true hr, decide_eq_true hrc]
        rfl
      · rw [decide_eq_false hr]
        rfl
  have hitems : (sorted.take limit).filter (fun r => key r < mark (key last)) = [] := by
    rw [List.filter_eq_nil_iff]
    intro r hr
    rw [decide_eq_true_eq, not_lt]
    refine (hmark _).trans ?_
    obtain ⟨i, hi⟩ := List.mem_iff_getElem?.1 hr
    have hilt : i < limit := by
      have hlength := (List.getElem?_eq_some_iff.1 hi).1
      rw [List.length_take] at hlength
      omega
    rw [List.getElem?_take_of_lt hilt] at hi
    rcases Nat.lt_or_eq_of_le (Nat.le_sub_one_of_lt hilt) with hlt | heq
    · obtain ⟨hi', rfl⟩ := List.getElem?_eq_some_iff.1 hi
      obtain ⟨hl', rfl⟩ := List.getElem?_eq_some_iff.1 hlast
      exact List.pairwise_iff_getElem.1 (order.sorted cursor _) i (limit - 1) hi' hl' hlt
    · rw [heq, hlast] at hi
      rw [Option.some.inj hi]
  rw [hnested]
  refine ((order.perm cursor _).symm.filter _).trans ?_
  rw [← hsorted]
  conv_lhs => rw [← List.take_append_drop limit sorted, List.filter_append, hitems, List.nil_append]

/-- **Following the cursors** ends, with no row twice, and with every row if and
only if no page ends among keys its cursor cannot tell apart. -/
theorem follow_spec (hmark : ∀ k, mark k ≤ k) (hlimit : 0 < limit) {fuel : ℕ} {cursor : Option κ}
    (hfuel : (below key cursor rows).length < fuel) :
    ∃ items, follow (page order mark limit rows) fuel cursor = some items ∧
      items.Subperm (below key cursor rows) ∧
      (items.Perm (below key cursor rows) ↔
        Clear mark limit (newestFirst ((below key cursor rows).map key))) := by
  induction fuel generalizing cursor with
  | zero => exact absurd hfuel (Nat.not_lt_zero _)
  | succ fuel ih =>
    have hsort := order.perm cursor (below key cursor rows)
    have hkeys := map_sort order cursor (below key cursor rows)
    unfold follow
    by_cases hle : (below key cursor rows).length ≤ limit
    · rw [page_of_length_le order hle]
      refine ⟨_, rfl, hsort.subperm, iff_of_true hsort (clear_of_length_le ?_)⟩
      rwa [← hkeys, List.length_map, hsort.length_eq]
    · have hlt := not_le.1 hle
      obtain ⟨last, hlast, hpage⟩ := page_of_lt_length order mark hlimit hlt
      rw [hpage]
      dsimp only
      have hrest := below_mark_perm order hmark hlast
      set sorted := order.sort cursor (below key cursor rows) with hsorted
      have hlength := hsort.length_eq
      have hshorter : (below key (some (mark (key last))) rows).length < fuel := by
        refine lt_of_le_of_lt (hrest.length_eq.le.trans (List.length_filter_le ..)) ?_
        rw [List.length_drop]
        omega
      obtain ⟨items, hfollow, hsub, hiff⟩ := ih hshorter
      rw [hfollow]
      have hsplit : (sorted.take limit ++ sorted.drop limit).Perm (below key cursor rows) := by
        rw [List.take_append_drop]
        exact hsort
      refine ⟨_, rfl, ?_, ?_⟩
      · refine List.Subperm.trans ?_ hsplit.subperm
        refine (List.subperm_append_left _).2 (hsub.trans (hrest.subperm.trans ?_))
        exact List.filter_sublist.subperm
      · have hperm : (sorted.take limit ++ items).Perm (below key cursor rows) ↔
            items.Perm (sorted.drop limit) :=
          ⟨fun h => (List.perm_append_left_iff _).1 (h.trans hsplit.symm),
            fun h => ((List.perm_append_left_iff _).2 h).trans hsplit⟩
        rw [hperm, ← hkeys, clear_iff_drop hlimit, ← List.map_drop]
        have hordered : (sorted.drop limit).Pairwise fun a b => key b ≤ key a :=
          (order.sorted cursor _).sublist (List.drop_sublist ..)
        by_cases hall : ∀ r ∈ sorted.drop limit, key r < mark (key last)
        · -- the next pages see the rest of the list
          have hfilter : (sorted.drop limit).filter (fun r => key r < mark (key last)) =
              sorted.drop limit :=
            List.filter_eq_self.2 fun r hr => decide_eq_true (hall r hr)
          rw [hfilter] at hrest
          have hsame : items.Perm (sorted.drop limit) ↔
              items.Perm (below key (some (mark (key last))) rows) :=
            ⟨fun h => h.trans hrest.symm, fun h => h.trans hrest⟩
          rw [hsame, hiff, newestFirst_perm (hrest.map key), newestFirst_of_pairwise hordered]
          refine (and_iff_right fun a b ha hb => ?_).symm
          rw [List.getElem?_map, hlast, Option.map_some] at ha
          rw [List.getElem?_map, Option.map_eq_some_iff] at hb
          obtain ⟨r, hr, rfl⟩ := hb
          rw [← Option.some.inj ha]
          refine hall r (List.mem_iff_getElem?.2 ⟨0, ?_⟩)
          rw [List.getElem?_drop]
          exact hr
        · -- a row that is not on this page is not below its cursor either
          refine iff_of_false (fun h => ?_) (fun h => ?_)
          · refine hall fun r hr => ?_
            have hmem := (hsub.trans hrest.subperm).subset (h.mem_iff.2 hr)
            exact of_decide_eq_true (List.mem_filter.1 hmem).2
          · refine hall fun r hr => ?_
            have hnext : limit < sorted.length := by omega
            have hfirst : key sorted[limit] < mark (key last) := by
              refine h.1 (key last) (key sorted[limit]) ?_ ?_
              · rw [List.getElem?_map, hlast, Option.map_some]
              · rw [List.getElem?_map, List.getElem?_eq_getElem hnext, Option.map_some]
            refine lt_of_le_of_lt ?_ hfirst
            rw [List.drop_eq_getElem_cons hnext] at hr hordered
            rcases List.mem_cons.1 hr with rfl | hr
            · exact le_refl _
            · exact (List.pairwise_cons.1 hordered).1 r hr

end Follow

end Keyset
