import LoopStorm.Lib.CheckThenSet

/-!
# Tables that grow

Calls that look at rows and update them, over a table other calls insert rows into.

* `Growing`, `grow` — the table of `GuardedUpdate`, and what has been inserted.
* `firstRow` — the row a key has been inserted with.
* `Growing.Inv`, `inv_grown` — the table with what has been inserted for the rows it
  began with; `Growing.Inv.explained` — every write of a row is due to a call.
* `Settles` — a call that, when it commits, has seen to it that its row has a
  property, told from its program and from what rows can become.
* `settled` — **what a call has settled stays so**: in every run the row of a call
  that has committed has the property.
-/

open ReadCommitted

namespace GuardedUpdate

variable {κ α ε ρ γ β : Type}

/-! ## The machine -/

/-- The table with its calls, and what has been inserted. -/
structure Growing (κ α ε ρ γ β : Type) where
  store : Store κ α ε ρ γ
  placed : List β

/-- A table nothing has been inserted into. -/
def Growing.empty : Growing κ α ε ρ γ β := ⟨.of fun _ => none, []⟩

/-- What happens to it. -/
inductive Growth (γ β : Type) where
  | call (event : Event γ)
  | place (b : β)

/-- A slot without a row. -/
def vacant (c : Cell α) : Bool := c.committed.isNone && c.pending.isNone

section Machine

variable [DecidableEq κ] (prog : γ → Prog κ α ε ρ) (rowOf : β → Option (κ × α))

/-- The table with a row under a key. -/
def Store.insert (s : Store κ α ε ρ γ) (k : κ) (row : α) : Store κ α ε ρ γ :=
  { s with table := Function.update s.table k (.ofRow (some row)) }

/-- One event; a row is inserted under a new key. -/
def grow (s : Growing κ α ε ρ γ β) : Growth γ β → Option (Growing κ α ε ρ γ β)
  | .call event => (step prog s.store event).map fun store => { s with store := store }
  | .place b =>
    (rowOf b).bind fun e =>
      if vacant (s.store.table e.1) then some ⟨s.store.insert e.1 e.2, s.placed ++ [b]⟩ else none

/-- The row a key has been inserted with. -/
def firstRow (placed : List β) (k : κ) : Option α :=
  ((placed.filterMap rowOf).find? fun e => e.1 = k).map Prod.snd

variable {prog rowOf}

theorem firstRow_concat {placed : List β} {b : β} {j k : κ} {row : α}
    (hb : rowOf b = some (j, row)) :
    firstRow rowOf (placed ++ [b]) k =
      (firstRow rowOf placed k).or (if j = k then some row else none) := by
  rw [firstRow, firstRow, List.filterMap_append, List.find?_append, Option.map_or]
  congr 1
  by_cases hj : j = k <;> simp [hb, hj]

/-- What holds of a table that has grown from nothing. -/
structure Growing.Inv (prog : γ → Prog κ α ε ρ) (rowOf : β → Option (κ × α))
    (s : Growing κ α ε ρ γ β) : Prop where
  store : GuardedUpdate.Inv prog (firstRow rowOf s.placed) s.store
  rows : ∀ b ∈ s.placed, ∃ k row, rowOf b = some (k, row) ∧ firstRow rowOf s.placed k = some row

theorem rowAfter_isSome {k : κ} (row : α) (ws : List (Write κ α)) :
    (rowAfter k (some row) ws).isSome = true := by
  induction ws generalizing row with
  | nil => rfl
  | cons w ws ih =>
    rw [rowAfter]
    split
    · exact ih w.after
    · exact ih row

/-- A key without a row has not been inserted. -/
theorem Inv.firstRow_none {rows : κ → Option α} {s : Store κ α ε ρ γ} (h : Inv prog rows s)
    {k : κ} (hk : (s.table k).committed = none) : rows k = none := by
  cases hrow : rows k with
  | none => rfl
  | some row =>
    have hsome := rowAfter_isSome (k := k) row s.writes
    rw [← hrow, ← h.committed k, hk] at hsome
    cases hsome

/-- A row inserted under a new key is one more row the table began with. -/
theorem Inv.insert {rows : κ → Option α} {s : Store κ α ε ρ γ} (h : Inv prog rows s) {k : κ}
    (hvacant : vacant (s.table k) = true) (row : α) :
    Inv prog (Function.update rows k (some row)) (s.insert k row) := by
  obtain ⟨hnone, hpending⟩ := (Bool.and_eq_true _ _).mp hvacant
  rw [Option.isNone_iff_eq_none] at hnone hpending
  have hunwritten : ∀ w ∈ s.writes, w.key ≠ k := by
    have hfollows := h.follows k
    rw [h.firstRow_none hnone] at hfollows
    exact ne_of_follows_none hfollows
  have hown (tx : Nat) : (s.table k).own tx = none := by
    rw [Cell.own, hpending]
    rfl
  have htable (j : κ) : ((s.insert k row).table j).own = (s.table j).own := by
    funext tx
    by_cases hj : j = k
    · subst hj
      show (Function.update s.table j _ j).own tx = _
      rw [Function.update_self, Cell.own_ofRow, hown]
    · show (Function.update s.table k _ j).own tx = _
      rw [Function.update_of_ne hj]
  refine ⟨fun tx => ?_, fun j => ?_, fun j => ?_, h.history⟩
  · refine (h.txs tx).frame (fun j => congrFun (htable j) tx) fun j hj => ?_
    have hne : j ≠ k := by
      rintro rfl
      rw [hown] at hj
      cases hj
    show (Function.update s.table k _ j).committed = _
    rw [Function.update_of_ne hne]
  · by_cases hj : j = k
    · subst hj
      exact follows_of_ne hunwritten
    · rw [Function.update_of_ne hj]
      exact h.follows j
  · show (Function.update s.table k _ j).committed = rowAfter j _ s.writes
    by_cases hj : j = k
    · subst hj
      rw [Function.update_self, Function.update_self, rowAfter_of_ne hunwritten]
      rfl
    · rw [Function.update_of_ne hj, Function.update_of_ne hj]
      exact h.committed j

theorem Growing.Inv.step {s s' : Growing κ α ε ρ γ β} {e : Growth γ β} (h : s.Inv prog rowOf)
    (hstep : grow prog rowOf s e = some s') : s'.Inv prog rowOf := by
  cases e with
  | call event =>
    obtain ⟨store, hstore, rfl⟩ := Option.map_eq_some_iff.1 hstep
    exact ⟨h.store.step hstore, h.rows⟩
  | place b =>
    obtain ⟨⟨k, row⟩, hb, hplace⟩ := Option.bind_eq_some_iff.1 hstep
    dsimp only at hplace
    split at hplace
    case isFalse => cases hplace
    case isTrue hvacant =>
      cases hplace
      have hnone : firstRow rowOf s.placed k = none :=
        h.store.firstRow_none (Option.isNone_iff_eq_none.1 ((Bool.and_eq_true _ _).mp hvacant).1)
      have hrows : firstRow rowOf (s.placed ++ [b]) =
          Function.update (firstRow rowOf s.placed) k (some row) := by
        funext j
        rw [firstRow_concat hb]
        by_cases hj : j = k
        · subst hj
          rw [hnone, if_pos rfl, Function.update_self]
          rfl
        · rw [if_neg (Ne.symm hj), Function.update_of_ne hj, Option.or_none]
      constructor
      · rw [hrows]
        exact h.store.insert hvacant row
      · intro c hc
        rcases List.mem_append.1 hc with hc | hc
        · obtain ⟨j, first, hplaced, hfirst⟩ := h.rows c hc
          refine ⟨j, first, hplaced, ?_⟩
          rw [firstRow_concat hb, hfirst]
          rfl
        · rw [List.mem_singleton.1 hc]
          refine ⟨k, row, hb, ?_⟩
          rw [hrows, Function.update_self]

/-- **The invariant of every run.** -/
theorem inv_grown {s : Growing κ α ε ρ γ β} {es : List (Growth γ β)}
    (hrun : Run.exec (grow prog rowOf) .empty es = some s) : s.Inv prog rowOf :=
  Run.exec_invariant (grow prog rowOf) (C := fun _ _ => True) (fun _ _ _ h _ hstep => h.step hstep)
    ⟨inv_of _, fun _ hb => absurd hb List.not_mem_nil⟩
    (Run.AllEvents.of_mem _ (fun _ _ _ => trivial) _) hrun

variable {Next : α → α → Prop}

/-- The row of a key is what its writes have made of the row it was inserted with. -/
theorem Growing.Inv.path {s : Growing κ α ε ρ γ β} (h : s.Inv prog rowOf)
    (hlawful : Lawful prog Next) {k : κ} {row : α} (hrow : firstRow rowOf s.placed k = some row) :
    ∃ last, (s.store.table k).committed = some last ∧
      Path Next row (writesOf k s.store.writes) last := by
  have hfollows := h.store.follows k
  rw [hrow] at hfollows
  obtain ⟨last, hlast, hpath⟩ := path_of_follows hfollows (h.store.next hlawful)
  refine ⟨last, ?_, hpath⟩
  rw [h.store.committed k, hrow]
  exact hlast

/-- A row that is there has been inserted. -/
theorem Growing.Inv.placed_of_committed {s : Growing κ α ε ρ γ β} (h : s.Inv prog rowOf) {k : κ}
    {row : α} (hrow : (s.store.table k).committed = some row) :
    ∃ b ∈ s.placed, ∃ first, rowOf b = some (k, first) ∧
      firstRow rowOf s.placed k = some first := by
  cases hfirst : firstRow rowOf s.placed k with
  | none =>
    have hfollows := h.store.follows k
    rw [hfirst] at hfollows
    rw [h.store.committed k, hfirst, rowAfter_of_ne (ne_of_follows_none hfollows)] at hrow
    cases hrow
  | some first =>
    obtain ⟨⟨j, r⟩, hfind, rfl⟩ := Option.map_eq_some_iff.1 hfirst
    obtain ⟨b, hb, hplaced⟩ := List.mem_filterMap.1 (List.mem_of_find?_eq_some hfind)
    have hj : decide (j = k) = true := List.find?_some (p := fun e : κ × α => e.1 = k) hfind
    obtain rfl := of_decide_eq_true hj
    exact ⟨b, hb, r, hplaced, rfl⟩

/-- What holds of every write of a call holds, for one that has been committed, of every
write of a row. -/
theorem Growing.Inv.explained {s : Growing κ α ε ρ γ β} (h : s.Inv prog rowOf)
    {Explains : κ → γ → α → α → Prop}
    (hcall : ∀ (call : γ) (ws : List (Write κ α)) (answer : ρ), (prog call).Runs ws answer →
      ∀ w ∈ ws, Explains w.key call w.before w.after) (k : κ) :
    ∀ w ∈ writesOf k s.store.writes,
      ∃ d ∈ s.store.history, Explains k d.call w.before w.after := by
  intro w hw
  obtain ⟨hkey, d, hd, hwd⟩ := mem_writesOf.1 hw
  have hexplains := hcall d.call d.writes _ (h.store.history d hd) w hwd
  rw [hkey] at hexplains
  exact ⟨d, hd, hexplains⟩

end Machine

/-! ## What a call settles -/

section Settles

variable [DecidableEq κ] (Next : α → α → Prop)

/-- A row that is there, and has come from one that is known; nothing is known of a
row nobody has seen. -/
def Above : Option α → Option α → Prop
  | none, _ => True
  | some a, now => ∃ b, now = some b ∧ Relation.ReflTransGen Next a b

/-- Whatever the call sees, if it commits then it knows of a row with the property
under its key. -/
def Settles (k : κ) (Q : α → Prop) : Option α → Prog κ α ε ρ → Prop
  | known, .done _ => ∃ a, known = some a ∧ Q a
  | _, .fail _ => True
  | known, .select j seen next =>
    (j = k → ∀ now, Above Next known now → Settles k Q now (next (now.filter seen))) ∧
      (j ≠ k → ∀ found, Settles k Q known (next found))
  | known, .update j guard set next =>
    (j = k → ∀ now, Above Next known now →
      (now.filter guard = none → Settles k Q now (next none)) ∧
        ∀ row, now = some row → guard row = true →
          Settles k Q (some (set row)) (next (some (set row)))) ∧
      (j ≠ k → ∀ found, Settles k Q known (next found))

variable {Next}

theorem Above.refl (now : Option α) : Above Next now now := by
  cases now with
  | none => trivial
  | some a => exact ⟨a, rfl, .refl⟩

theorem Above.trans {known now then' : Option α} (h : Above Next known now)
    (h' : Above Next now then') : Above Next known then' := by
  cases known with
  | none => trivial
  | some a =>
    obtain ⟨b, rfl, hab⟩ := h
    obtain ⟨c, rfl, hbc⟩ := h'
    exact ⟨c, rfl, hab.trans hbc⟩

omit [DecidableEq κ] in
theorem Path.reaches {row last : α} {ws : List (Write κ α)} (h : Path Next row ws last) :
    Relation.ReflTransGen Next row last := by
  induction h with
  | nil => exact .refl
  | cons hnext h ih => exact .head hnext ih

variable {prog : γ → Prog κ α ε ρ} {rows : κ → Option α} {s s' : Store κ α ε ρ γ}

/-- What is committed of a row only moves on. -/
theorem above_committed (hinv : Inv prog rows s) (hlawful : Lawful prog Next) {e : Event γ}
    (hstep : step prog s e = some s') (k : κ) :
    Above Next (s.table k).committed (s'.table k).committed := by
  cases hrow : (s.table k).committed with
  | none => trivial
  | some row =>
    obtain ⟨ws, last, -, hlast, hpath⟩ := committed_step hinv hlawful hstep hrow
    exact ⟨last, hlast, hpath.reaches⟩

/-- Whatever another call does, what a call reads only moves on. -/
theorem above_read (hinv : Inv prog rows s) (hlawful : Lawful prog Next) {e : Event γ}
    (hstep : step prog s e = some s') {tx : Nat} (hne : tx ≠ e.tx) (k : κ) :
    Above Next ((s.table k).read tx) ((s'.table k).read tx) := by
  have hcommitted := above_committed hinv hlawful hstep k
  have hsame (hown : (s'.table k).own tx = (s.table k).own tx) :
      Above Next ((s.table k).read tx) ((s'.table k).read tx) := by
    cases hrow : (s.table k).own tx with
    | some row =>
      rw [Cell.read_of_own hrow, Cell.read_of_own (hown.trans hrow)]
      exact .refl _
    | none =>
      rw [Cell.read_of_own_none hrow, Cell.read_of_own_none (hown.trans hrow)]
      exact hcommitted
  cases moves_of_step prog hstep with
  | start call htx => exact .refl _
  | selected htx => exact .refl _
  | missed htx hrow => exact .refl _
  | updated htx hread hguard hlock => exact hsame (Table.own_write_of_ne hlock hne k)
  | committed htx => exact hsame (Cell.own_commit_of_ne hne)
  | rolledBack error htx => exact hsame (Cell.own_abort_of_ne hne)

/-! ## Runs -/

variable {key : γ → κ} {Q : γ → α → Prop} {P : γ → Prop}

/-- The calls under way are settling their rows, and those that have committed have. -/
structure Settled (Next : α → α → Prop) (key : γ → κ) (Q : γ → α → Prop) (P : γ → Prop)
    (s : Store κ α ε ρ γ) : Prop where
  running : ∀ tx call ws rest, s.txs tx = .running call ws rest → P call →
    ∃ known, Above Next known ((s.table (key call)).read tx) ∧
      Settles Next (key call) (Q call) known rest
  committed : ∀ c ∈ s.history, P c.call →
    ∃ row, (s.table (key c.call)).committed = some row ∧ Q c.call row

/-- A property of rows that every move keeps is kept by all of them. -/
theorem of_above {R : α → Prop} (hstable : ∀ a b, Next a b → R a → R b) {a : α} {now : Option α}
    (h : Above Next (some a) now) (ha : R a) : ∃ b, now = some b ∧ R b := by
  obtain ⟨b, rfl, hab⟩ := h
  refine ⟨b, rfl, ?_⟩
  induction hab with
  | refl => exact ha
  | tail hab hbc ih => exact hstable _ _ hbc ih

/-- What a call can do next settles its row, if the call does. -/
theorem Settled.step (h : Settled Next key Q P s) (hinv : Inv prog rows s)
    (hlawful : Lawful prog Next) (hstable : ∀ call a b, Next a b → Q call a → Q call b)
    (hsettles : ∀ call, P call → Settles Next (key call) (Q call) none (prog call)) {e : Event γ}
    (hstep : step prog s e = some s') : Settled Next key Q P s' := by
  have hothers : ∀ tx, tx ≠ e.tx → ∀ call ws rest, s.txs tx = .running call ws rest → P call →
      ∃ known, Above Next known ((s'.table (key call)).read tx) ∧
        Settles Next (key call) (Q call) known rest := by
    intro tx hne call ws rest htx hP
    obtain ⟨known, habove, hrest⟩ := h.running tx call ws rest htx hP
    exact ⟨known, habove.trans (above_read hinv hlawful hstep hne _), hrest⟩
  have hcommitted : ∀ c ∈ s.history, P c.call →
      ∃ row, (s'.table (key c.call)).committed = some row ∧ Q c.call row := by
    intro c hc hP
    obtain ⟨row, hrow, hQ⟩ := h.committed c hc hP
    have habove := above_committed hinv hlawful hstep (key c.call)
    rw [hrow] at habove
    exact of_above (hstable c.call) habove hQ
  have hput {tx : Nat} {t : Table κ α} {state : TxState κ α ε ρ γ} (hs' : s' = s.put tx t state)
      (htx : tx = e.tx)
      (hself : ∀ call ws rest, state = .running call ws rest → P call →
        ∃ known, Above Next known ((t (key call)).read tx) ∧
          Settles Next (key call) (Q call) known rest) : Settled Next key Q P s' := by
    subst hs' htx
    refine ⟨fun tx' call ws rest hrunning hP => ?_, hcommitted⟩
    by_cases hne : tx' = e.tx
    · subst hne
      have hstate : Function.update s.txs e.tx state e.tx = .running call ws rest := hrunning
      rw [Function.update_self] at hstate
      exact hself call ws rest hstate hP
    · have hstate : Function.update s.txs e.tx state tx' = .running call ws rest := hrunning
      rw [Function.update_of_ne hne] at hstate
      exact hothers tx' hne call ws rest hstate hP
  cases moves_of_step prog hstep with
  | @start tx call htx =>
    refine hput rfl rfl fun c ws rest hstate hP => ?_
    obtain ⟨rfl, rfl, rfl⟩ := TxState.running.inj hstate
    exact ⟨none, trivial, hsettles call hP⟩
  | @selected tx call ws j seen next htx =>
    refine hput rfl rfl fun c ws' rest hstate hP => ?_
    obtain ⟨rfl, rfl, rfl⟩ := TxState.running.inj hstate
    obtain ⟨known, habove, hmine, hother⟩ := h.running tx _ _ _ htx hP
    by_cases hj : j = key call
    · subst hj
      exact ⟨_, .refl _, hmine rfl _ habove⟩
    · exact ⟨known, habove, hother hj _⟩
  | @missed tx call ws j guard set next htx hrow =>
    refine hput rfl rfl fun c ws' rest hstate hP => ?_
    obtain ⟨rfl, rfl, rfl⟩ := TxState.running.inj hstate
    obtain ⟨known, habove, hmine, hother⟩ := h.running tx _ _ _ htx hP
    by_cases hj : j = key call
    · subst hj
      exact ⟨_, .refl _, (hmine rfl _ habove).1 hrow⟩
    · exact ⟨known, habove, hother hj _⟩
  | @updated tx call ws j guard set next row htx hread hguard hlock =>
    refine hput rfl rfl fun c ws' rest hstate hP => ?_
    obtain ⟨rfl, rfl, rfl⟩ := TxState.running.inj hstate
    obtain ⟨known, habove, hmine, hother⟩ := h.running tx _ _ _ htx hP
    by_cases hj : j = key call
    · subst hj
      refine ⟨some (set row), ?_, (hmine rfl _ habove).2 row hread hguard⟩
      rw [Table.read_write, if_pos rfl]
      exact .refl _
    · refine ⟨known, ?_, hother hj _⟩
      rw [Table.read_write, if_neg (Ne.symm hj)]
      exact habove
  | rolledBack error htx =>
    refine hput rfl rfl fun c ws rest hstate => ?_
    cases hstate
  | @committed tx call ws reply htx =>
    refine ⟨fun tx' c ws' rest hrunning hP => ?_, fun c hc hP => ?_⟩
    · by_cases hne : tx' = tx
      · subst hne
        have hstate : Function.update s.txs tx' (.committed call reply) tx' =
            .running c ws' rest := hrunning
        rw [Function.update_self] at hstate
        cases hstate
      · have hstate : Function.update s.txs tx (.committed call reply) tx' =
            .running c ws' rest := hrunning
        rw [Function.update_of_ne hne] at hstate
        exact hothers tx' hne c ws' rest hstate hP
    · rcases List.mem_append.1 hc with hc | hc
      · exact hcommitted c hc hP
      · rw [List.mem_singleton.1 hc] at hP ⊢
        obtain ⟨known, habove, a, rfl, ha⟩ := h.running tx call ws _ htx hP
        obtain ⟨b, hb, hQ⟩ := of_above (hstable call) habove ha
        refine ⟨b, ?_, hQ⟩
        exact Cell.committed_commit_eq_read.trans hb

/-- A row inserted under a new key disturbs nobody. -/
theorem Settled.insert (h : Settled Next key Q P s) {k : κ} (hvacant : vacant (s.table k) = true)
    (row : α) : Settled Next key Q P (s.insert k row) := by
  obtain ⟨hnone, hpending⟩ := (Bool.and_eq_true _ _).mp hvacant
  rw [Option.isNone_iff_eq_none] at hnone hpending
  have htable {j : κ} (hj : j ≠ k) : (s.insert k row).table j = s.table j :=
    Function.update_of_ne hj ..
  constructor
  · intro tx call ws rest htx hP
    obtain ⟨known, habove, hrest⟩ := h.running tx call ws rest htx hP
    refine ⟨known, ?_, hrest⟩
    by_cases hj : key call = k
    · have hread : (s.table (key call)).read tx = none := by
        rw [hj, Cell.read_of_pending_none hpending, hnone]
      rw [hread] at habove
      cases known with
      | none => trivial
      | some a =>
        obtain ⟨b, hb, -⟩ := habove
        cases hb
    · rwa [htable hj]
  · intro c hc hP
    obtain ⟨r, hr, hQ⟩ := h.committed c hc hP
    refine ⟨r, ?_, hQ⟩
    have hj : key c.call ≠ k := by
      rintro rfl
      rw [hnone] at hr
      cases hr
    rwa [htable hj]

/-- **What a call has settled stays so.**  In every run, of calls side by side and of
rows inserted between them, the row of a call that has committed has the property the
call settles. -/
theorem settled {rowOf : β → Option (κ × α)} (hlawful : Lawful prog Next)
    (hstable : ∀ call a b, Next a b → Q call a → Q call b)
    (hsettles : ∀ call, P call → Settles Next (key call) (Q call) none (prog call))
    {s : Growing κ α ε ρ γ β} {es : List (Growth γ β)}
    (hrun : Run.exec (grow prog rowOf) .empty es = some s) : Settled Next key Q P s.store := by
  have hkept : ∀ (s : Growing κ α ε ρ γ β) e s', s.Inv prog rowOf ∧ Settled Next key Q P s.store →
      True → grow prog rowOf s e = some s' →
        s'.Inv prog rowOf ∧ Settled Next key Q P s'.store := by
    intro s e s' h _ hstep
    refine ⟨h.1.step hstep, ?_⟩
    cases e with
    | call event =>
      obtain ⟨store, hstore, rfl⟩ := Option.map_eq_some_iff.1 hstep
      exact h.2.step h.1.store hlawful hstable hsettles hstore
    | place b =>
      obtain ⟨⟨k, row⟩, hb, hplace⟩ := Option.bind_eq_some_iff.1 hstep
      dsimp only at hplace
      split at hplace
      case isFalse => cases hplace
      case isTrue hvacant =>
        cases hplace
        exact h.2.insert hvacant row
  have hempty : (Growing.empty : Growing κ α ε ρ γ β).Inv prog rowOf ∧
      Settled Next key Q P (Growing.empty : Growing κ α ε ρ γ β).store := by
    refine ⟨⟨inv_of _, fun _ hb => absurd hb List.not_mem_nil⟩, fun tx call ws rest htx => ?_,
      fun _ hc => absurd hc List.not_mem_nil⟩
    cases htx
  exact (Run.exec_invariant (grow prog rowOf) hkept hempty
    (Run.AllEvents.of_mem _ (fun _ _ _ => trivial) _) hrun).2

end Settles

end GuardedUpdate
