import LoopStorm.Lib.GuardedUpdate

/-!
# Calls that move a row on

Rows that only move forward, and calls that check where a row is before they
move it.

* `checkThenSet` — a call that looks at its row, asks whether it is ready, and
  sets it where it still is; `sweep` — a call that sets every row that is due.
* `Path` — the writes of one row, each a permitted move from what the one
  before it has left.
* `path_of_exec` — in every run the writes of a row are a path to the row that
  is committed.
* `one_wins` — **exactly one succeeds**: as soon as a call that began while its
  row was ready has ended, exactly one call has moved the row on.
-/

open ReadCommitted

namespace GuardedUpdate

variable {κ α ε ρ γ : Type}

/-! ## The calls -/

/-- Set a row where it is ready. -/
def setReady (k : κ) (mine ready : α → Bool) (set : α → α) (changed : ε) (reply : α → ρ) :
    Prog κ α ε ρ :=
  .update k (fun row => mine row && ready row) set fun
    | none => .fail changed
    | some updated => .done (reply updated)

/-- Look at a row, ask whether it is ready, and set it where it still is. -/
def checkThenSet (k : κ) (mine ready : α → Bool) (set : α → α) (notFound : ε) (already : α → ε)
    (changed : ε) (reply : α → ρ) : Prog κ α ε ρ :=
  .select k mine fun
    | none => .fail notFound
    | some row => if ready row then setReady k mine ready set changed reply else .fail (already row)

/-- Set the rows of a list that are due, and count them. -/
def sweep (due : α → Bool) (set : α → α) (reply : Nat → ρ) : List κ → Nat → Prog κ α ε ρ
  | [], n => .done (reply n)
  | k :: ks, n =>
    .update k due set fun
      | none => sweep due set reply ks n
      | some _ => sweep due set reply ks (n + 1)

/-- A call that succeeds has set a row that was its own and ready. -/
theorem runs_checkThenSet {k : κ} {mine ready : α → Bool} {set : α → α} {notFound : ε}
    {already : α → ε} {changed : ε} {reply : α → ρ} {ws : List (Write κ α)} {answer : ρ}
    (h : (checkThenSet k mine ready set notFound already changed reply).Runs ws answer) :
    ∃ before, ws = [⟨k, before, set before⟩] ∧ mine before = true ∧ ready before = true ∧
      answer = reply (set before) := by
  cases h with
  | select found hfound h =>
    cases found with
    | none => cases h
    | some row =>
      dsimp only at h
      split at h
      · cases h with
        | updated before hguard h =>
          cases h
          rw [Bool.and_eq_true] at hguard
          exact ⟨before, rfl, hguard.1, hguard.2, rfl⟩
        | missed h => cases h
      · cases h

/-- A sweep sets rows that are due. -/
theorem runs_sweep {due : α → Bool} {set : α → α} {reply : Nat → ρ} {ks : List κ} {n : Nat}
    {ws : List (Write κ α)} {answer : ρ}
    (h : (sweep due set reply ks n : Prog κ α ε ρ).Runs ws answer) :
    ∀ w ∈ ws, due w.before = true ∧ w.after = set w.before := by
  induction ks generalizing n ws with
  | nil =>
    cases h
    exact fun w hw => absurd hw List.not_mem_nil
  | cons k ks ih =>
    cases h with
    | updated row hguard h =>
      intro w hw
      rcases List.mem_cons.1 hw with rfl | hw
      · exact ⟨hguard, rfl⟩
      · exact ih h w hw
    | missed h => exact ih h

/-! ## Paths of a row -/

/-- The writes of a row one after the other, each a permitted move. -/
inductive Path (Next : α → α → Prop) : α → List (Write κ α) → α → Prop
  | nil (row : α) : Path Next row [] row
  | cons {w : Write κ α} {ws : List (Write κ α)} {last : α} (hnext : Next w.before w.after)
    (h : Path Next w.after ws last) : Path Next w.before (w :: ws) last

section Path

variable {Next : α → α → Prop} {rank : α → Nat} {row last : α} {ws : List (Write κ α)}

/-- Moves that only go up leave a row above where it was. -/
theorem Path.rank_le (h : Path Next row ws last) (hrank : ∀ a b, Next a b → rank a < rank b) :
    rank row ≤ rank last := by
  induction h with
  | nil row => exact le_rfl
  | cons hnext h ih => exact (hrank _ _ hnext).le.trans ih

/-- A row above a rank is never again written from it. -/
theorem Path.countP_eq_zero (h : Path Next row ws last)
    (hrank : ∀ a b, Next a b → rank a < rank b) {n : Nat} (hn : n < rank row) :
    ws.countP (fun w => rank w.before = n) = 0 := by
  induction h with
  | nil row => rfl
  | @cons w ws last hnext h ih =>
    have hlt := hrank _ _ hnext
    rw [List.countP_cons, ih (hn.trans hlt), Nat.zero_add, if_neg]
    simp only [decide_eq_true_eq]
    omega

/-- A row is written from a rank at most once. -/
theorem Path.countP_le_one (h : Path Next row ws last)
    (hrank : ∀ a b, Next a b → rank a < rank b) (n : Nat) :
    ws.countP (fun w => rank w.before = n) ≤ 1 := by
  induction h with
  | nil row => exact Nat.zero_le 1
  | @cons w ws last hnext h ih =>
    rw [List.countP_cons]
    by_cases hw : rank w.before = n
    · have hzero := h.countP_eq_zero hrank (hw ▸ hrank _ _ hnext)
      rw [hzero]
      simp [hw]
    · simpa [hw] using ih

/-- A row that has left a rank has been written from it. -/
theorem Path.countP_pos (h : Path Next row ws last) (hlast : rank row < rank last) :
    0 < ws.countP (fun w => rank w.before = rank row) := by
  cases h with
  | nil => exact absurd hlast (lt_irrefl _)
  | cons hnext h => exact List.countP_pos_iff.2 ⟨_, List.mem_cons_self .., by simp⟩

variable [DecidableEq κ]

/-- The writes of a row. -/
def writesOf (k : κ) (ws : List (Write κ α)) : List (Write κ α) := ws.filter fun w => w.key = k

/-- Writes that follow each other are a path of every row. -/
theorem path_of_follows {k : κ} (hfollows : Follows k (some row) ws)
    (hnext : ∀ w ∈ ws, Next w.before w.after) :
    ∃ last, rowAfter k (some row) ws = some last ∧ Path Next row (writesOf k ws) last := by
  induction ws generalizing row with
  | nil => exact ⟨row, rfl, .nil row⟩
  | cons w ws ih =>
    have hrest : ∀ v ∈ ws, Next v.before v.after := fun v hv => hnext v (List.mem_cons_of_mem _ hv)
    obtain ⟨hbefore, hfollows⟩ := hfollows
    by_cases hk : w.key = k
    · rw [if_pos hk] at hfollows
      obtain rfl := Option.some.inj (hbefore hk)
      obtain ⟨last, hlast, hpath⟩ := ih hfollows hrest
      refine ⟨last, ?_, ?_⟩
      · rw [rowAfter, if_pos hk]
        exact hlast
      · rw [writesOf, List.filter_cons_of_pos (by simpa using hk)]
        exact .cons (hnext w (List.mem_cons_self ..)) hpath
    · rw [if_neg hk] at hfollows
      obtain ⟨last, hlast, hpath⟩ := ih hfollows hrest
      refine ⟨last, ?_, ?_⟩
      · rw [rowAfter, if_neg hk]
        exact hlast
      · rw [writesOf, List.filter_cons_of_neg (by simpa using hk)]
        exact hpath

end Path

/-! ## Runs -/

section Runs

variable [DecidableEq κ] {prog : γ → Prog κ α ε ρ} {Next : α → α → Prop}

/-- Every write of every call is a permitted move. -/
def Lawful (prog : γ → Prog κ α ε ρ) (Next : α → α → Prop) : Prop :=
  ∀ call ws reply, (prog call).Runs ws reply → ∀ w ∈ ws, Next w.before w.after

variable {rows : κ → Option α} {s s' : Store κ α ε ρ γ} {k : κ} {row : α}

theorem Inv.next (h : Inv prog rows s) (hlawful : Lawful prog Next) :
    ∀ w ∈ s.writes, Next w.before w.after := by
  intro w hw
  obtain ⟨c, hc, hw⟩ := List.mem_flatMap.1 hw
  exact hlawful c.call c.writes c.reply (h.history c hc) w hw

/-- In every run the writes of a row are a path to the row that is committed. -/
theorem path_of_exec (hlawful : Lawful prog Next) {es : List (Event γ)}
    (hrun : Run.exec (step prog) (Store.of rows) es = some s) (hrow : rows k = some row) :
    ∃ last, (s.table k).committed = some last ∧ Path Next row (writesOf k s.writes) last := by
  have hinv := inv_exec hrun
  have hfollows := hinv.follows k
  rw [hrow] at hfollows
  obtain ⟨last, hlast, hpath⟩ := path_of_follows hfollows (hinv.next hlawful)
  refine ⟨last, ?_, hpath⟩
  rw [hinv.committed k, hrow]
  exact hlast

/-- A row that has been written was there, so that its writes are a path. -/
theorem writesOf_eq_nil_or_path (hlawful : Lawful prog Next) {es : List (Event γ)}
    (hrun : Run.exec (step prog) (Store.of rows) es = some s) (k : κ) :
    writesOf k s.writes = [] ∨ ∃ first last, Path Next first (writesOf k s.writes) last := by
  cases hrow : rows k with
  | some first =>
    obtain ⟨last, -, hpath⟩ := path_of_exec hlawful hrun hrow
    exact .inr ⟨first, last, hpath⟩
  | none =>
    have hfollows := (inv_exec hrun).follows k
    rw [hrow] at hfollows
    refine .inl (List.filter_eq_nil_iff.2 fun w hw => ?_)
    rw [decide_eq_true_eq]
    exact ne_of_follows_none hfollows w hw

/-- The writes of a row are those that calls have committed. -/
theorem mem_writesOf {w : Write κ α} :
    w ∈ writesOf k s.writes ↔ w.key = k ∧ ∃ c ∈ s.history, w ∈ c.writes := by
  rw [writesOf, List.mem_filter, decide_eq_true_eq, Store.writes, List.mem_flatMap, and_comm]

/-- How often writes have moved a row on that was ready. -/
def moved (k : κ) (ready : α → Bool) (ws : List (Write κ α)) : Nat :=
  (writesOf k ws).countP fun w => ready w.before

/-- The call has moved a row on that was ready. -/
def Commit.moves (c : Commit κ α ρ γ) (k : κ) (ready : α → Bool) : Bool :=
  c.writes.any fun w => w.key = k && ready w.before

/-- The calls that have moved a row on that was ready. -/
def winners (k : κ) (ready : α → Bool) (history : List (Commit κ α ρ γ)) :
    List (Commit κ α ρ γ) :=
  history.filter fun c => c.moves k ready

theorem moved_append (ready : α → Bool) (ws vs : List (Write κ α)) :
    moved k ready (ws ++ vs) = moved k ready ws + moved k ready vs := by
  rw [moved, writesOf, List.filter_append, List.countP_append]
  rfl

theorem Commit.moves_iff {c : Commit κ α ρ γ} {ready : α → Bool} :
    c.moves k ready = true ↔ 0 < moved k ready c.writes := by
  rw [Commit.moves, List.any_eq_true, moved, List.countP_pos_iff]
  constructor
  · rintro ⟨w, hw, hready⟩
    rw [Bool.and_eq_true] at hready
    exact ⟨w, List.mem_filter.2 ⟨hw, hready.1⟩, hready.2⟩
  · rintro ⟨w, hw, hready⟩
    obtain ⟨hw, hk⟩ := List.mem_filter.1 hw
    exact ⟨w, hw, (Bool.and_eq_true _ _).mpr ⟨hk, hready⟩⟩

/-- Where one write has moved a row on, one call has. -/
theorem length_winners {ready : α → Bool} {history : List (Commit κ α ρ γ)}
    (h : moved k ready (history.flatMap (·.writes)) ≤ 1) :
    (winners k ready history).length = moved k ready (history.flatMap (·.writes)) := by
  induction history with
  | nil => rfl
  | cons c cs ih =>
    rw [List.flatMap_cons, moved_append] at h ⊢
    have hrest := ih (by omega)
    by_cases hc : c.moves k ready = true
    · have hpos := Commit.moves_iff.1 hc
      rw [winners, List.filter_cons_of_pos (by exact hc), List.length_cons]
      rw [winners] at hrest
      omega
    · have hzero : moved k ready c.writes = 0 := by
        have hnot := mt Commit.moves_iff.2 hc
        omega
      rw [winners, List.filter_cons_of_neg (by exact hc), hzero, Nat.zero_add]
      exact hrest

/-- How a row moves: a rank goes up with every move, and tells whether the row
is ready. -/
structure Ranked (Next : α → α → Prop) (rank : α → Nat) (ready : α → Bool) (n : Nat) : Prop where
  lt : ∀ a b, Next a b → rank a < rank b
  ready : ∀ a, ready a = true ↔ rank a = n

variable {rank : α → Nat} {ready : α → Bool} {n : Nat}

theorem Ranked.moved_eq (h : Ranked Next rank ready n) (ws : List (Write κ α)) :
    moved k ready ws = (writesOf k ws).countP fun w => rank w.before = n := by
  refine List.countP_congr fun w _ => ?_
  rw [h.ready, decide_eq_true_iff]

/-- A row is moved on from where it was ready at most once. -/
theorem moved_le_one (hlawful : Lawful prog Next) (hranked : Ranked Next rank ready n)
    {es : List (Event γ)} (hrun : Run.exec (step prog) (Store.of rows) es = some s)
    (hrow : rows k = some row) : moved k ready s.writes ≤ 1 := by
  obtain ⟨last, -, hpath⟩ := path_of_exec hlawful hrun hrow
  rw [hranked.moved_eq]
  exact hpath.countP_le_one hranked.lt n

/-- What a step commits of a row is a path from what was committed. -/
theorem committed_step (hinv : Inv prog rows s) (hlawful : Lawful prog Next) {e : Event γ}
    (hstep : step prog s e = some s') (hrow : (s.table k).committed = some row) :
    ∃ ws last, s'.writes = s.writes ++ ws ∧ (s'.table k).committed = some last ∧
      Path Next row (writesOf k ws) last := by
  have hsame {t : Table κ α} {tx : Nat} {state : TxState κ α ε ρ γ}
      (h : (t k).committed = (s.table k).committed) :
      ∃ ws last, (s.put tx t state).writes = s.writes ++ ws ∧
        ((s.put tx t state).table k).committed = some last ∧
        Path Next row (writesOf k ws) last :=
    ⟨[], row, (List.append_nil _).symm, h.trans hrow, .nil row⟩
  cases moves_of_step prog hstep with
  | start call htx => exact hsame rfl
  | selected htx => exact hsame rfl
  | missed htx hmiss => exact hsame rfl
  | updated htx hread hguard hlock => exact hsame (Table.committed_write k)
  | rolledBack error htx => exact hsame Cell.committed_abort
  | @committed tx call ws reply htx =>
    have hrunning := hinv.running htx
    have hruns := hrunning.runs [] reply (.done reply)
    rw [List.append_nil] at hruns
    have hfollows := hrunning.follows k
    rw [hrow] at hfollows
    obtain ⟨last, hlast, hpath⟩ := path_of_follows hfollows (hlawful call ws reply hruns)
    refine ⟨ws, last, writes_ended s tx call reply ws, ?_, hpath⟩
    show ((s.table k).commit tx).committed = some last
    rw [Cell.committed_commit_eq_read, hrunning.read, hrow]
    exact hlast

/-! ## Calls on a row that is ready -/

/-- The call has ended, and not because it has been killed. -/
def TxState.Ended (state : TxState κ α ε ρ γ) (call : γ) : Prop :=
  (∃ reply, state = .committed call reply) ∨ ∃ error, state = .rolledBack call (some error)

variable {mine : α → Bool} {set : α → α} {notFound : ε} {already : α → ε} {changed : ε}
  {reply : α → ρ}

/-- Where a call can be as long as its row stays as it was when the call began:
it has not looked, it has found the row ready, or it has set it. -/
def Hopeful (k : κ) (mine ready : α → Bool) (set : α → α) (notFound : ε) (already : α → ε)
    (changed : ε) (reply : α → ρ) (ws : List (Write κ α)) (rest : Prog κ α ε ρ) : Prop :=
  ws = [] ∧ rest = checkThenSet k mine ready set notFound already changed reply ∨
    ws = [] ∧ rest = setReady k mine ready set changed reply ∨
    ∃ before answer, ws = [⟨k, before, set before⟩] ∧ rest = .done answer

/-- As long as the row of a call stays as it was the call has not ended. -/
def Waiting (k : κ) (mine ready : α → Bool) (set : α → α) (notFound : ε) (already : α → ε)
    (changed : ε) (reply : α → ρ) (call : γ) : TxState κ α ε ρ γ → Prop
  | .idle => True
  | .running c ws rest =>
    c = call → Hopeful k mine ready set notFound already changed reply ws rest
  | .committed c _ => c ≠ call
  | .rolledBack c error => error.isSome = true → c ≠ call

/-- A step leaves a call waiting whose row stays as it is. -/
theorem waiting_step (hinv : Inv prog rows s) (hlawful : Lawful prog Next)
    (hranked : Ranked Next rank ready n) {e : Event γ} (hstep : step prog s e = some s') {call : γ}
    (hcall : prog call = checkThenSet k mine ready set notFound already changed reply)
    (hrow : (s.table k).committed = some row) (hrow' : (s'.table k).committed = some row)
    (hmine : mine row = true) (hready : ready row = true) {tx : Nat}
    (h : Waiting k mine ready set notFound already changed reply call (s.txs tx)) :
    Waiting k mine ready set notFound already changed reply call (s'.txs tx) := by
  have hread {other : Nat} {ws : List (Write κ α)} {rest : Prog κ α ε ρ}
      (htx : s.txs other = .running call ws rest) (hws : ws = []) :
      (s.table k).read other = some row := by
    rw [(hinv.running htx).read, hws, hrow]
    rfl
  have hput {other : Nat} {t : Table κ α} {state : TxState κ α ε ρ γ}
      (hself : other = tx →
        Waiting k mine ready set notFound already changed reply call state) :
      Waiting k mine ready set notFound already changed reply call
        ((s.put other t state).txs tx) := by
    show Waiting k mine ready set notFound already changed reply call
      (Function.update s.txs other state tx)
    by_cases hother : tx = other
    · subst hother
      rw [Function.update_self]
      exact hself rfl
    · rw [Function.update_of_ne hother]
      exact h
  cases moves_of_step prog hstep with
  | @start other c hidle =>
    refine hput fun _ hc => .inl ⟨rfl, ?_⟩
    rw [hc, hcall]
  | @selected other c ws key seen next htx =>
    refine hput fun hother hc => ?_
    subst hother hc
    rw [htx] at h
    rcases h rfl with ⟨hws, hrest⟩ | ⟨-, hrest⟩ | ⟨before, answer, -, hrest⟩
    · -- it finds the row it was promised, and ready
      cases hrest
      refine .inr (.inl ⟨hws, ?_⟩)
      rw [hread htx hws, Option.filter_some, if_pos hmine]
      exact if_pos hready
    · cases hrest
    · cases hrest
  | @missed other c ws key guard set' next htx hmiss =>
    refine hput fun hother hc => ?_
    subst hother hc
    rw [htx] at h
    rcases h rfl with ⟨-, hrest⟩ | ⟨hws, hrest⟩ | ⟨before, answer, -, hrest⟩
    · cases hrest
    · -- the row is still there, so that the guard holds
      cases hrest
      rw [hread htx hws, Option.filter_some, if_pos (by rw [hmine, hready]; rfl)] at hmiss
      cases hmiss
    · cases hrest
  | @updated other c ws key guard set' next found htx hfound hguard hlock =>
    refine hput fun hother hc => ?_
    subst hother hc
    rw [htx] at h
    rcases h rfl with ⟨-, hrest⟩ | ⟨hws, hrest⟩ | ⟨before, answer, -, hrest⟩
    · cases hrest
    · cases hrest
      refine .inr (.inr ⟨found, reply (set found), ?_, rfl⟩)
      rw [hws]
      rfl
    · cases hrest
  | @committed other c ws answer htx =>
    refine hput (t := s.table.commit other) fun hother hc => ?_
    subst hother hc
    rw [htx] at h
    rcases h rfl with ⟨-, hrest⟩ | ⟨-, hrest⟩ | ⟨before, answer', hws, -⟩
    · cases hrest
    · cases hrest
    · -- it would have moved the row on
      have hrunning := hinv.running htx
      have hfollows := hrunning.follows k
      have hruns := hrunning.runs [] answer (.done answer)
      rw [List.append_nil] at hruns
      have hnext := hlawful c ws answer hruns
      rw [hws] at hfollows hnext
      rw [hrow] at hfollows
      have hbefore : row = before := Option.some.inj (hfollows.1 rfl)
      have hafter : ((s.table k).commit other).committed = some row := hrow'
      rw [Cell.committed_commit_eq_read, hrunning.read, hrow, hws] at hafter
      simp only [rowAfter, if_pos, Option.some.injEq] at hafter
      have hlt := hranked.lt _ _ (hnext _ (List.mem_singleton_self _))
      dsimp only at hlt
      rw [hafter, ← hbefore] at hlt
      exact absurd hlt (lt_irrefl _)
  | @rolledBack e c ws rest error htx herror =>
    refine hput fun hother hsome hc => ?_
    subst hc
    rw [← hother, htx] at h
    obtain ⟨d, hd⟩ := Option.isSome_iff_exists.1 hsome
    have hfail := herror d hd
    rcases h rfl with ⟨-, hrest⟩ | ⟨-, hrest⟩ | ⟨before, answer, -, hrest⟩
    · rw [hfail] at hrest
      cases hrest
    · rw [hfail] at hrest
      cases hrest
    · rw [hfail] at hrest
      cases hrest

/-- What holds from the moment a row is ready: it is as it was and the call is
waiting, or it has been moved on. -/
def Undecided (k : κ) (rank : α → Nat) (ready : α → Bool) (row : α)
    (Waits : TxState κ α ε ρ γ → Prop) (tx : Nat) (s : Store κ α ε ρ γ) : Prop :=
  ∃ last, (s.table k).committed = some last ∧
    (last = row ∧ Waits (s.txs tx) ∨ rank row < rank last ∧ 0 < moved k ready s.writes)

theorem undecided_step (hinv : Inv prog rows s) (hlawful : Lawful prog Next)
    (hranked : Ranked Next rank ready n) {e : Event γ} (hstep : step prog s e = some s') {call : γ}
    (hcall : prog call = checkThenSet k mine ready set notFound already changed reply)
    (hmine : mine row = true) (hready : ready row = true) {tx : Nat}
    (h : Undecided k rank ready row
      (Waiting k mine ready set notFound already changed reply call) tx s) :
    Undecided k rank ready row
      (Waiting k mine ready set notFound already changed reply call) tx s' := by
  obtain ⟨last, hlast, hcase⟩ := h
  obtain ⟨ws, last', hwrites, hlast', hpath⟩ := committed_step hinv hlawful hstep hlast
  refine ⟨last', hlast', ?_⟩
  rw [hwrites, moved_append]
  rcases hcase with ⟨rfl, hwaits⟩ | ⟨hlt, hmoved⟩
  · by_cases hsame : rank last' = rank last
    · generalize writesOf k ws = vs at hpath
      cases hpath with
      | nil =>
        exact .inl ⟨rfl, waiting_step hinv hlawful hranked hstep hcall hlast hlast' hmine hready
          hwaits⟩
      | cons hnext hrest =>
        have hlt := hranked.lt _ _ hnext
        have hle := hrest.rank_le hranked.lt
        omega
    · have hlt : rank last < rank last' := by
        have hle := hpath.rank_le hranked.lt
        omega
      have hpos := hpath.countP_pos hlt
      rw [(hranked.ready last).1 hready, ← hranked.moved_eq] at hpos
      exact .inr ⟨hlt, by omega⟩
  · have hle := hpath.rank_le hranked.lt
    exact .inr ⟨by omega, by omega⟩

/-- The program checks a row and sets it where it is ready. -/
def Prog.ChecksThenSets (p : Prog κ α ε ρ) (k : κ) (mine ready : α → Bool) : Prop :=
  ∃ set notFound already changed reply,
    p = checkThenSet k mine ready set notFound already changed reply

omit [DecidableEq κ] in
/-- A call that has succeeded has set its row where it was ready. -/
theorem runs_of_checksThenSets {p : Prog κ α ε ρ} (hp : p.ChecksThenSets k mine ready)
    {ws : List (Write κ α)} {answer : ρ} (h : p.Runs ws answer) :
    ∃ before after, ws = [⟨k, before, after⟩] ∧ ready before = true := by
  obtain ⟨set, notFound, already, changed, reply, rfl⟩ := hp
  obtain ⟨before, hws, -, hready, -⟩ := runs_checkThenSet h
  exact ⟨before, set before, hws, hready⟩

/-- **Exactly one succeeds.**  As soon as a call that began while its row was
ready has ended, exactly one call has moved the row on, and no other call like
it has succeeded. -/
theorem one_wins (hlawful : Lawful prog Next) (hranked : Ranked Next rank ready n)
    {es fs : List (Event γ)} (hrun : Run.exec (step prog) (Store.of rows) es = some s) {first : α}
    (hfirst : rows k = some first) (hrow : (s.table k).committed = some row)
    (hready : ready row = true) (hmine : mine row = true) {tx : Nat} (hidle : s.txs tx = .idle)
    (hrest : Run.exec (step prog) s fs = some s') {call : γ}
    (hcall : (prog call).ChecksThenSets k mine ready) (hend : (s'.txs tx).Ended call) :
    ∃ c, winners k ready s'.history = [c] ∧
      ∀ d ∈ s'.history, (prog d.call).ChecksThenSets k mine ready → d = c := by
  obtain ⟨set, notFound, already, changed, reply, hcall⟩ := hcall
  have hall : Run.exec (step prog) (Store.of rows) (es ++ fs) = some s' := by
    rw [Run.exec_append, hrun]
    exact hrest
  have hpreserved : ∀ (t : Store κ α ε ρ γ) (e : Event γ) (t' : Store κ α ε ρ γ),
      Inv prog rows t ∧ Undecided k rank ready row
        (Waiting k mine ready set notFound already changed reply call) tx t → True →
      step prog t e = some t' →
      Inv prog rows t' ∧ Undecided k rank ready row
        (Waiting k mine ready set notFound already changed reply call) tx t' := by
    rintro t e t' ⟨hinv, h⟩ - hstep
    exact ⟨hinv.step hstep, undecided_step hinv hlawful hranked hstep hcall hmine hready h⟩
  have hwaiting : Waiting k mine ready set notFound already changed reply call (s.txs tx) := by
    rw [hidle]
    trivial
  have hmoved : 0 < moved k ready s'.writes := by
    obtain ⟨-, last, -, ⟨-, hwaits⟩ | ⟨-, hmoved⟩⟩ :=
      Run.exec_invariant (step prog) (C := fun _ _ => True) hpreserved
        ⟨inv_exec hrun, row, hrow, .inl ⟨rfl, hwaiting⟩⟩
        (Run.AllEvents.of_mem _ (fun _ _ _ => trivial) _) hrest
    · rcases hend with ⟨answer, hend⟩ | ⟨error, hend⟩
      · rw [hend] at hwaits
        exact absurd rfl hwaits
      · rw [hend] at hwaits
        exact absurd rfl (hwaits rfl)
    · exact hmoved
  have hle := moved_le_one hlawful hranked hall hfirst
  have hone : (winners k ready s'.history).length = 1 := by
    have hlength := length_winners hle
    rw [Store.writes] at hmoved hle
    omega
  obtain ⟨c, hc⟩ := List.length_eq_one_iff.1 hone
  refine ⟨c, hc, fun d hd hchecks => ?_⟩
  obtain ⟨before, after, hws, hbefore⟩ :=
    runs_of_checksThenSets hchecks ((inv_exec hall).history d hd)
  have hmem : d ∈ winners k ready s'.history := by
    refine List.mem_filter.2 ⟨hd, List.any_eq_true.2 ⟨⟨k, before, after⟩, ?_, ?_⟩⟩
    · rw [hws]
      exact List.mem_singleton_self _
    · simp [hbefore]
  rw [hc] at hmem
  exact List.mem_singleton.1 hmem

end Runs

end GuardedUpdate
