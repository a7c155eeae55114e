import LoopStorm.Shim.Connection

/-!
# One reply at a time on the shared connection

Replies carry no mark of the call they belong to: a call takes the next line it
sees, and every call that listens sees every chunk.  The next line is the answer
to its own request as long as a request is handed over only when nothing else is
outstanding.

* `Undisturbed` — the condition on a step: when a request is handed over nobody
  listens, and no reply is due, in flight or in the buffer of the socket it goes
  to; and no socket is replaced while somebody listens.
* `Situation` — nobody waits, or one call does; while it waits, the buffer and
  the bytes in flight are together the answer to it.
* `Inv`, `Inv.request`, `Inv.step` — the invariant of runs whose steps all meet
  the condition.
-/

namespace LoopStorm.Shim.EngineConnection

open LoopStorm.Engine

variable {F : Type} [Float64 F] {c c' : EngineConnection F} {n i k : Nat} {p : Phase}

/-! ## The invariant -/

/-- Nobody listens. -/
def Unheard (c : EngineConnection F) : Prop := ∀ k, (c.socks k).listeners = []

/-- The current socket, with no reply due, in flight or in the buffer. -/
structure Clear (c : EngineConnection F) (k : Nat) : Prop where
  socket : c.socket = some k
  due : (c.socks k).due = []
  inFlight : (c.socks k).inFlight = []
  buffer : c.buffer = []

/-- The condition on a step: a request is handed over, and a socket replaced,
only when nothing is outstanding. -/
def Undisturbed (c : EngineConnection F) : Event F → Prop
  | .connected _ => c.Unheard
  | .written i => ∀ k, c.phase i = .writing k → (c.socks k).isOpen = true → c.Unheard ∧ c.Clear k
  | _ => True

/-- The current socket owes a call its reply, or the reply is on its way. -/
inductive Reply (c : EngineConnection F) (i k : Nat) : Prop where
  | due (socket : c.socket = some k) (due : (c.socks k).due = [i])
      (inFlight : (c.socks k).inFlight = []) (buffer : c.buffer = [])
  | sent (socket : c.socket = some k) (due : (c.socks k).due = []) (r : Engine.DecisionResponse F)
      (answered : (i, r) ∈ c.answers) (buffer : newline ∉ c.buffer)
      (bytes : c.buffer ++ (c.socks k).inFlight = writeResponse r)

theorem Reply.frame (h : c.Reply i k) (hsocket : c'.socket = c.socket)
    (hbuffer : c'.buffer = c.buffer) (hsock : c'.socks k = c.socks k)
    (hanswers : c.answers ⊆ c'.answers) : c'.Reply i k := by
  cases h with
  | due socket due inFlight buffer =>
    exact .due (hsocket.trans socket) (hsock ▸ due) (hsock ▸ inFlight) (hbuffer.trans buffer)
  | sent socket due r answered buffer bytes =>
    exact .sent (hsocket.trans socket) (hsock ▸ due) r (hanswers answered) (hbuffer ▸ buffer)
      (by rw [hbuffer, hsock, bytes])

/-- Who waits for a reply. -/
inductive Situation (c : EngineConnection F) : Prop where
  | idle (calls : ∀ j, (c.phase j).isWaiting = false) (listeners : c.Unheard)
  | waiting (i k : Nat) (phase : c.phase i = .waiting k)
      (calls : ∀ j ≠ i, (c.phase j).isWaiting = false)
      (own : (c.socks k).listeners = [i]) (listeners : ∀ l ≠ k, (c.socks l).listeners = [])
      (reply : (c.socks k).isOpen = true → c.Reply i k)

/-- Every reply is the engine's answer to the call that has it, the calls being
numbered up to `n`. -/
structure Inv (c : EngineConnection F) (n : Nat) : Prop where
  replies : ∀ i reply, c.phase i = .resolved reply → ∃ r, (i, r) ∈ c.answers ∧ reply = readBack r
  fresh : ∀ i, n < i → c.phase i = .idle
  unmade : ∀ k, c.made ≤ k → c.socks k = .new
  connecting : ∀ i k, c.phase i = .connecting k →
    k < c.made ∧ c.socks k = .new ∧ ∀ j, c.phase j = .connecting k → j = i
  situation : c.Situation

theorem Inv.new : Inv (F := F) .new 0 where
  replies := by intro i reply h; cases h
  fresh := by intro i _; rfl
  unmade := by intro k _; rfl
  connecting := by intro i k h; cases h
  situation := .idle (fun _ => rfl) (fun _ => rfl)

/-- A socket somebody listens on has one listener, the only call that waits. -/
theorem Situation.of_listeners (h : Situation c) (hlisten : (c.socks k).listeners ≠ []) :
    ∃ i, c.phase i = .waiting k ∧ (∀ j ≠ i, (c.phase j).isWaiting = false) ∧
      (c.socks k).listeners = [i] ∧ (∀ l ≠ k, (c.socks l).listeners = []) ∧
      ((c.socks k).isOpen = true → c.Reply i k) := by
  cases h with
  | idle calls listeners => exact absurd (listeners k) hlisten
  | waiting i l phase calls own listeners reply =>
    obtain rfl : k = l := by_contra fun hkl => hlisten (listeners k hkl)
    exact ⟨i, phase, calls, own, listeners, reply⟩

/-- Where nobody listens, nobody waits. -/
theorem Situation.calls_of_unheard (h : Situation c) (hlisten : c.Unheard) (j : Nat) :
    (c.phase j).isWaiting = false := by
  cases h with
  | idle calls => exact calls j
  | waiting i k phase calls own =>
    rw [hlisten k] at own
    cases own

/-- Where none of the calls so far waits, nobody listens. -/
theorem Inv.unheard (h : Inv c n) (hcalls : ∀ i ≤ n, (c.phase i).isWaiting = false) :
    c.Unheard := by
  intro k
  by_contra hlisten
  obtain ⟨i, hphase, -⟩ := h.situation.of_listeners hlisten
  have hi : i ≤ n := by
    by_contra hi
    rw [h.fresh i (Nat.lt_of_not_le hi)] at hphase
    cases hphase
  have hwait := hcalls i hi
  rw [hphase] at hwait
  cases hwait

/-! ## Changes that keep it -/

/-- A change of the sockets that keeps the listeners keeps the invariant, where
it keeps what the call that waits relies on. -/
theorem Inv.transfer (h : Inv c n) (hphase : c'.phase = c.phase) (hmade : c'.made = c.made)
    (hanswers : c.answers ⊆ c'.answers)
    (hlisten : ∀ l, (c'.socks l).listeners = (c.socks l).listeners)
    (hnew : ∀ l, c.made ≤ l ∨ (∃ j, c.phase j = .connecting l) →
      c.socks l = .new → c'.socks l = .new)
    (hreply : ∀ i l, (c.socks l).listeners = [i] →
      ((c.socks l).isOpen = true → c.Reply i l) →
        (c'.socks l).isOpen = true → c'.Reply i l) : Inv c' n where
  replies := by
    intro i reply hi
    rw [hphase] at hi
    obtain ⟨r, hr, hreply⟩ := h.replies i reply hi
    exact ⟨r, hanswers hr, hreply⟩
  fresh := hphase ▸ h.fresh
  unmade := by
    intro l hl
    rw [hmade] at hl
    exact hnew l (.inl hl) (h.unmade l hl)
  connecting := by
    intro i k hi
    rw [hphase] at hi ⊢
    obtain ⟨hk, hsock, huniq⟩ := h.connecting i k hi
    exact ⟨hmade ▸ hk, hnew k (.inr ⟨i, hi⟩) hsock, huniq⟩
  situation := by
    cases h.situation with
    | idle calls listeners =>
      exact .idle (hphase ▸ calls) (fun l => (hlisten l).trans (listeners l))
    | waiting i k phase calls own listeners reply =>
      exact .waiting i k (hphase ▸ phase) (hphase ▸ calls) ((hlisten k).trans own)
        (fun l hl => (hlisten l).trans (listeners l hl)) (hreply i k own reply)

/-- A call that does not wait moves on to where it does not wait either. -/
theorem Inv.move (h : Inv c n) (hn : i ≤ n) (hi : (c.phase i).isWaiting = false)
    (hp : p.isWaiting = false) (hresolved : ∀ reply, p ≠ .resolved reply)
    (hconnecting : ∀ k, p = .connecting k →
      k < c.made ∧ c.socks k = .new ∧ ∀ j, c.phase j ≠ .connecting k) :
    Inv (c.setPhase i p) n where
  replies := by
    intro j reply hj
    rcases eq_or_ne j i with rfl | hne
    · rw [phase_setPhase] at hj
      exact absurd hj (hresolved reply)
    · rw [phase_setPhase_of_ne c hne] at hj
      exact h.replies j reply hj
  fresh := by
    intro j hj
    have hne : j ≠ i := by omega
    rw [phase_setPhase_of_ne c hne, h.fresh j hj]
  unmade := h.unmade
  connecting := by
    intro j k hj
    rcases eq_or_ne j i with rfl | hne
    · rw [phase_setPhase] at hj
      obtain ⟨hk, hsock, hnone⟩ := hconnecting k hj
      refine ⟨hk, hsock, fun l hl => by_contra fun hlj => ?_⟩
      rw [phase_setPhase_of_ne c hlj] at hl
      exact hnone l hl
    · rw [phase_setPhase_of_ne c hne] at hj
      obtain ⟨hk, hsock, huniq⟩ := h.connecting j k hj
      refine ⟨hk, hsock, fun l hl => ?_⟩
      rcases eq_or_ne l i with rfl | hli
      · rw [phase_setPhase] at hl
        exact absurd hj ((hconnecting k hl).2.2 j)
      · rw [phase_setPhase_of_ne c hli] at hl
        exact huniq l hl
  situation := by
    cases h.situation with
    | idle calls listeners =>
      refine .idle (fun j => ?_) listeners
      rcases eq_or_ne j i with rfl | hne
      · rw [phase_setPhase, hp]
      · rw [phase_setPhase_of_ne c hne, calls j]
    | waiting l k phase calls own listeners reply =>
      have hli : l ≠ i := by
        rintro rfl
        rw [phase] at hi
        cases hi
      refine .waiting l k ((phase_setPhase_of_ne c hli p).trans phase) (fun j hj => ?_) own
        listeners (fun hopen => (reply hopen).frame rfl rfl rfl (List.Subset.refl _))
      rcases eq_or_ne j i with rfl | hne
      · rw [phase_setPhase, hp]
      · rw [phase_setPhase_of_ne c hne, calls j hj]

/-- The call that waits is over, and nobody listens any more. -/
theorem Inv.over (h : Inv c n) (hi : c.phase i = .waiting k) (hphase : c'.phase = c.phase)
    (hmade : c'.made = c.made) (hanswers : c'.answers = c.answers)
    (hnew : ∀ l, c.socks l = .new → c'.socks l = .new) (hp : p.isWaiting = false)
    (hconnecting : ∀ l, p ≠ .connecting l)
    (hreply : ∀ reply, p = .resolved reply → ∃ r, (i, r) ∈ c.answers ∧ reply = readBack r)
    (calls : ∀ j ≠ i, (c.phase j).isWaiting = false) (listeners : c'.Unheard) :
    Inv (c'.setPhase i p) n where
  replies := by
    intro j reply hj
    rw [answers_setPhase, hanswers]
    rcases eq_or_ne j i with rfl | hne
    · rw [phase_setPhase] at hj
      exact hreply reply hj
    · rw [phase_setPhase_of_ne c' hne, hphase] at hj
      exact h.replies j reply hj
  fresh := by
    intro j hj
    have hne : j ≠ i := by
      rintro rfl
      rw [h.fresh _ hj] at hi
      cases hi
    rw [phase_setPhase_of_ne c' hne, hphase, h.fresh j hj]
  unmade := by
    intro l hl
    rw [made_setPhase, hmade] at hl
    exact hnew l (h.unmade l hl)
  connecting := by
    intro j l hj
    rcases eq_or_ne j i with rfl | hne
    · rw [phase_setPhase] at hj
      exact absurd hj (hconnecting l)
    · rw [phase_setPhase_of_ne c' hne, hphase] at hj
      obtain ⟨hl, hsock, huniq⟩ := h.connecting j l hj
      refine ⟨hmade ▸ hl, hnew l hsock, fun m hm => ?_⟩
      rcases eq_or_ne m i with rfl | hmi
      · rw [phase_setPhase] at hm
        exact absurd hm (hconnecting l)
      · rw [phase_setPhase_of_ne c' hmi, hphase] at hm
        exact huniq m hm
  situation := by
    refine .idle (fun j => ?_) listeners
    rcases eq_or_ne j i with rfl | hne
    · rw [phase_setPhase, hp]
    · rw [phase_setPhase_of_ne c' hne, hphase, calls j hne]

theorem Inv.le_of_phase (h : Inv c n) (hi : c.phase i ≠ .idle) : i ≤ n :=
  Nat.le_of_not_lt fun hn => hi (h.fresh i hn)

theorem Inv.mono (h : Inv c n) {m : Nat} (hm : n ≤ m) : Inv c m :=
  ⟨h.replies, fun i hi => h.fresh i (lt_of_le_of_lt hm hi), h.unmade, h.connecting, h.situation⟩

/-- A change of an open socket leaves new ones as they are. -/
theorem new_of_isOpen (hopen : (c.socks k).isOpen = true) {socks : Nat → Sock}
    (hsocks : ∀ l ≠ k, socks l = c.socks l) (l : Nat) (hl : c.socks l = .new) : socks l = .new := by
  have hlk : l ≠ k := by
    rintro rfl
    rw [hl] at hopen
    cases hopen
  rw [hsocks l hlk, hl]

/-- A socket that changes without its listeners changes nobody's. -/
theorem listeners_setSock {s : Sock} (hs : s.listeners = (c.socks k).listeners) (l : Nat) :
    ((c.setSock k s).socks l).listeners = (c.socks l).listeners := by
  rcases eq_or_ne l k with rfl | hl
  · rw [socks_setSock, hs]
  · rw [socks_setSock_of_ne c hl]

/-! ## Sending -/

/-- What `send` makes of a call. -/
theorem send_eq (c : EngineConnection F) (i : Nat) :
    ∃ p, c.send i = c.setPhase i p ∧ p.isWaiting = false ∧ (∀ reply, p ≠ .resolved reply) ∧
      ∀ k, p ≠ .connecting k := by
  unfold send
  split
  · exact ⟨_, rfl, rfl, by simp, by simp⟩
  · split
    · exact ⟨_, rfl, rfl, by simp, by simp⟩
    · exact ⟨_, rfl, rfl, by simp, by simp⟩

/-- **A call is made**, with a number above all others. -/
theorem Inv.request (h : Inv c n) (hi : n < i) (line : List UInt8) : Inv (c.request i line) i := by
  have hidle : (c.phase i).isWaiting = false := by rw [h.fresh i hi]; rfl
  have hcall : Inv { c with line := Function.update c.line i line } i :=
    (h.mono hi.le).transfer rfl rfl (List.Subset.refl _) (fun _ => rfl) (fun _ _ hl => hl)
      (fun _ _ _ hr ho => (hr ho).frame rfl rfl rfl (List.Subset.refl _))
  unfold EngineConnection.request
  dsimp only
  split
  case h_1 =>
    obtain ⟨p, hsend, hwait, hresolved, hconnecting⟩ :=
      send_eq { c with line := Function.update c.line i line } i
    rw [hsend]
    exact hcall.move le_rfl hidle hwait hresolved (fun k hk => absurd hk (hconnecting k))
  case h_2 =>
    -- the socket is the next one, so no call connects it yet
    have hmade : Inv { c with line := Function.update c.line i line, made := c.made + 1 } i := by
      refine ⟨hcall.replies, hcall.fresh, fun k hk => hcall.unmade k (Nat.le_of_succ_le hk),
        fun j k hj => ?_, ?_⟩
      · obtain ⟨hk, hrest⟩ := hcall.connecting j k hj
        exact ⟨Nat.lt_succ_of_lt hk, hrest⟩
      · cases hcall.situation with
        | idle calls listeners => exact .idle calls listeners
        | waiting j k phase calls own listeners reply =>
          exact .waiting j k phase calls own listeners
            (fun hopen => (reply hopen).frame rfl rfl rfl (List.Subset.refl _))
    refine hmade.move le_rfl hidle rfl (by simp) (fun k hk => ?_)
    cases hk
    refine ⟨Nat.lt_succ_self _, h.unmade _ le_rfl, fun j hj => ?_⟩
    exact absurd (h.connecting j _ hj).1 (lt_irrefl _)

/-- A socket is connected while nobody listens, and its call is sent. -/
theorem Inv.connected (h : Inv c n) (hphase : c.phase i = .connecting k)
    (hunheard : c.Unheard) :
    Inv ({ c.setSock k (c.socks k).opened with socket := some k, buffer := [] }.send i) n := by
  obtain ⟨p, hsend, hwait, hresolved, hconnecting⟩ :=
    send_eq { c.setSock k (c.socks k).opened with socket := some k, buffer := [] } i
  rw [hsend]
  have hmove : Inv (c.setPhase i p) n := by
    refine h.move (h.le_of_phase (by simp [hphase])) ?_ hwait hresolved
      (fun k hk => absurd hk (hconnecting k))
    rw [hphase]
    rfl
  refine hmove.transfer rfl rfl (List.Subset.refl _)
    (listeners_setSock (s := (c.socks k).opened) rfl) ?_ ?_
  · rintro l (hl | ⟨j, hj⟩) hsock
    · have hlk : l ≠ k := ne_of_gt (lt_of_lt_of_le (h.connecting i k hphase).1 hl)
      exact (socks_setSock_of_ne c hlk _).trans hsock
    · have hji : j ≠ i := by
        rintro rfl
        rw [phase_setPhase] at hj
        exact hconnecting l hj
      have hlk : l ≠ k := by
        rintro rfl
        rw [phase_setPhase_of_ne c hji] at hj
        exact hji ((h.connecting i l hphase).2.2 j hj)
      exact (socks_setSock_of_ne c hlk _).trans hsock
  · intro j l own
    rw [socks_setPhase, hunheard l] at own
    cases own

/-! ## Listening -/

/-- On a clear socket a call whose line the engine has read begins to listen. -/
theorem recvResponse_of_clear (hclear : c.Clear k) :
    (c.setSock k ((c.socks k).received i)).recvResponse i =
      (c.setSock k (((c.socks k).received i).listen i)).setPhase i (.waiting k) := by
  unfold recvResponse
  simp [setSock, setPhase, hclear.socket, hclear.buffer, splitLine]

/-- A request is handed over while nothing is outstanding, and its call
listens. -/
theorem Inv.written (h : Inv c n) (hphase : c.phase i = .writing k)
    (hopen : (c.socks k).isOpen = true) (hunheard : c.Unheard) (hclear : c.Clear k) :
    Inv ((c.setSock k ((c.socks k).received i)).recvResponse i) n := by
  rw [recvResponse_of_clear hclear]
  have hne : ∀ {j : Nat} {q : Phase}, q.isWaiting = false → j = i →
      ((c.setSock k (((c.socks k).received i).listen i)).setPhase i (.waiting k)).phase j ≠ q := by
    rintro j q hq rfl hj
    rw [phase_setPhase] at hj
    rw [← hj] at hq
    cases hq
  have hsame : ∀ {j : Nat}, j ≠ i →
      ((c.setSock k (((c.socks k).received i).listen i)).setPhase i (.waiting k)).phase j =
        c.phase j := fun hj => phase_setPhase_of_ne _ hj _
  have hnew := new_of_isOpen hopen fun l hl =>
    socks_setSock_of_ne c hl (((c.socks k).received i).listen i)
  refine ⟨?_, ?_, fun l hl => hnew l (h.unmade l hl), ?_, ?_⟩
  · intro j reply hj
    have hji : j ≠ i := fun hji => hne rfl hji hj
    exact h.replies j reply ((hsame hji).symm.trans hj)
  · intro j hj
    have hji : j ≠ i := by
      rintro rfl
      exact absurd (h.fresh _ hj) (by simp [hphase])
    exact (hsame hji).trans (h.fresh j hj)
  · intro j l hj
    have hji : j ≠ i := fun hji => hne rfl hji hj
    obtain ⟨hl, hsock, huniq⟩ := h.connecting j l ((hsame hji).symm.trans hj)
    refine ⟨hl, hnew l hsock, fun m hm => ?_⟩
    have hmi : m ≠ i := fun hmi => hne rfl hmi hm
    exact huniq m ((hsame hmi).symm.trans hm)
  · refine .waiting i k (phase_setPhase ..) (fun j hj => ?_) ?_ (fun l hl => ?_) (fun _ => ?_)
    · rw [hsame hj, h.situation.calls_of_unheard hunheard]
    · simp [Sock.listen, Sock.received, hunheard k]
    · exact (congrArg Sock.listeners (socks_setSock_of_ne c hl _)).trans (hunheard l)
    · exact .due hclear.socket (by simp [Sock.listen, Sock.received, hclear.due])
        (by simp [Sock.listen, Sock.received, hclear.inFlight]) hclear.buffer

/-! ## The engine answers -/

/-- The engine answers a request. -/
theorem Inv.answer (h : Inv c n) {j : Nat} {due : List Nat} (hdue : (c.socks k).due = j :: due)
    (r : Engine.DecisionResponse F) :
    Inv { c.setSock k ((c.socks k).answered due (writeResponse r)) with
          answers := c.answers ++ [(j, r)] } n := by
  refine h.transfer rfl rfl (List.subset_append_left _ _) (listeners_setSock rfl) ?_ ?_
  · intro l _ hl
    have hlk : l ≠ k := by
      rintro rfl
      rw [hl] at hdue
      cases hdue
    exact (socks_setSock_of_ne c hlk _).trans hl
  · intro i l _ hreply hopen
    rcases eq_or_ne l k with rfl | hlk
    · have hopen' : (c.socks l).isOpen = true := by simpa using hopen
      cases hreply hopen' with
      | due hsocket hj hflight hbuffer =>
        rw [hdue, List.cons.injEq] at hj
        obtain ⟨rfl, rfl⟩ := hj
        refine .sent hsocket ?_ r (by simp) (by simp [hbuffer]) ?_
        · exact congrArg Sock.due (socks_setSock c l _)
        · simp [Sock.answered, hbuffer, hflight, hopen']
      | sent hsocket hnil =>
        rw [hdue] at hnil
        cases hnil
    · have hsame := socks_setSock_of_ne c hlk
      exact (hreply (by simpa [hsame] using hopen)).frame rfl rfl (hsame _)
        (List.subset_append_left _ _)

/-! ## Bytes arrive -/

/-- A call that has stopped listening leaves nobody on the connection. -/
theorem listeners_cleanup (own : (c.socks k).listeners = [i])
    (listeners : ∀ l ≠ k, (c.socks l).listeners = []) (l : Nat) :
    ((c.cleanup k i).socks l).listeners = [] := by
  unfold cleanup
  rcases eq_or_ne l k with rfl | hl
  · simp [Sock.unlisten, own]
  · rw [socks_setSock_of_ne c hl, listeners l hl]

/-- A chunk that ends a reply settles the call, unless the reply is too large. -/
theorem onData_of_line (hcrashed : c.crashed = false) {chunk : List UInt8}
    {r : Engine.DecisionResponse F} (h : c.buffer ++ chunk = writeResponse r) :
    onData k chunk c i =
      if (writeResponse r).length > maxMessageSize then
        ({ c with buffer := writeResponse r }.cleanup k i).setPhase i
          (.rejected (.messageTooLarge (writeResponse r).length))
      else { c.cleanup k i with buffer := [] }.setPhase i (.resolved (readBack r)) := by
  have hsplit : splitLine (writeResponse r) = some (responseBytes r, []) :=
    splitLine_append (newline_notMem_responseBytes r) []
  unfold onData
  rw [if_neg (by simp [hcrashed]), h]
  by_cases hlen : (writeResponse r).length > maxMessageSize
  · simp only [hlen, if_true]
  · simp only [hlen, if_false, hsplit, (fromJson_responseBytes r).1]
    rfl

/-- A chunk that does not end a line is kept, unless the buffer gets too large. -/
theorem onData_of_part (hcrashed : c.crashed = false) {chunk : List UInt8}
    (h : newline ∉ c.buffer ++ chunk) :
    onData k chunk c i =
      if (c.buffer ++ chunk).length > maxMessageSize then
        ({ c with buffer := c.buffer ++ chunk }.cleanup k i).setPhase i
          (.rejected (.messageTooLarge (c.buffer ++ chunk).length))
      else { c with buffer := c.buffer ++ chunk } := by
  unfold onData
  rw [if_neg (by simp [hcrashed])]
  by_cases hlen : (c.buffer ++ chunk).length > maxMessageSize
  · simp only [hlen, if_true]
  · simp only [hlen, if_false, splitLine_of_notMem h]

/-- A call that listens alone takes the next line, whoever's it is. -/
theorem phase_of_next_line {due : List Nat}
    {r : Engine.DecisionResponse F} (hcrashed : c.crashed = false) (hbuffer : c.buffer = [])
    (hsock : c.socks k = ⟨true, true, due, writeResponse r, [i]⟩)
    (hlen : (writeResponse r).length ≤ maxMessageSize) :
    ∃ c', c.step (.data k (writeResponse r).length) = some c' ∧
      c'.phase i = .resolved (readBack r) ∧ c'.answers = c.answers := by
  have hpos : 0 < (writeResponse r).length := by simp [writeResponse]
  have hline : (c.setSock k ((c.socks k).arrived (writeResponse r).length)).buffer ++
      (c.socks k).inFlight.take (writeResponse r).length = writeResponse r := by
    simp [hbuffer, hsock]
  have htake := onData_of_line (i := i) (k := k)
    (c := c.setSock k ((c.socks k).arrived (writeResponse r).length)) hcrashed hline
  rw [if_neg (Nat.not_lt.2 hlen)] at htake
  have hstep : c.step (.data k (writeResponse r).length) =
      some (onData k ((c.socks k).inFlight.take (writeResponse r).length)
        (c.setSock k ((c.socks k).arrived (writeResponse r).length)) i) := by
    rw [step, hcrashed, if_neg Bool.false_ne_true]
    simp [hsock, hpos]
  refine ⟨_, hstep, ?_, ?_⟩
  · rw [htake]
    exact phase_setPhase ..
  · rw [htake]
    rfl

/-- Bytes that arrive when nobody listens are lost. -/
theorem Inv.data_unheard (h : Inv c n) (hopen : (c.socks k).isOpen = true)
    (hlisten : (c.socks k).listeners = []) (m : Nat) :
    Inv (c.setSock k ((c.socks k).arrived m)) n := by
  refine h.transfer rfl rfl (List.Subset.refl _) (listeners_setSock rfl) (fun l _ hl => ?_) ?_
  · exact new_of_isOpen hopen (fun l hl => socks_setSock_of_ne c hl _) l hl
  · intro i l own hreply hopen'
    have hlk : l ≠ k := by
      rintro rfl
      rw [hlisten] at own
      cases own
    have hsame := socks_setSock_of_ne c hlk
    exact (hreply (by simpa [hsame] using hopen')).frame rfl rfl (hsame _) (List.Subset.refl _)

/-- The call that waits takes the bytes of its reply: it goes on listening until
the whole line is there. -/
theorem Inv.data_heard (h : Inv c n) (hcrashed : c.crashed = false)
    (hopen : (c.socks k).isOpen = true) (hphase : c.phase i = .waiting k)
    (calls : ∀ j ≠ i, (c.phase j).isWaiting = false) (own : (c.socks k).listeners = [i])
    (listeners : ∀ l ≠ k, (c.socks l).listeners = []) (reply : c.Reply i k)
    (hflight : (c.socks k).inFlight ≠ []) (m : Nat) :
    Inv (onData k ((c.socks k).inFlight.take m) (c.setSock k ((c.socks k).arrived m)) i) n := by
  cases reply with
  | due _ _ hnil => exact absurd hnil hflight
  | sent hsocket hdue r hanswered hbuffer hbytes =>
    have hlisten : ∀ l, ((c.setSock k ((c.socks k).arrived m)).socks l).listeners =
        (c.socks l).listeners := listeners_setSock rfl
    have hunheard := @listeners_cleanup F _ (c.setSock k ((c.socks k).arrived m)) i k
      ((hlisten k).trans own) (fun l hl => (hlisten l).trans (listeners l hl))
    have hnew := new_of_isOpen hopen fun l hl =>
      (socks_setSock_of_ne (c.setSock k ((c.socks k).arrived m)) hl
        (((c.setSock k ((c.socks k).arrived m)).socks k).unlisten i)).trans
          (socks_setSock_of_ne c hl _)
    have hreject : ∀ (b : List UInt8) (e : Rejection),
        Inv (({ c.setSock k ((c.socks k).arrived m) with buffer := b }.cleanup k i).setPhase i
          (.rejected e)) n := fun b e =>
      h.over hphase rfl rfl rfl hnew rfl (by simp) (by simp) calls hunheard
    have hstream : c.buffer ++ (c.socks k).inFlight.take m ++ (c.socks k).inFlight.drop m =
        writeResponse r := by
      rw [List.append_assoc, List.take_append_drop, hbytes]
    by_cases hleft : (c.socks k).inFlight.drop m = []
    · -- the line is whole
      rw [hleft, List.append_nil] at hstream
      rw [onData_of_line (c := c.setSock k ((c.socks k).arrived m)) hcrashed hstream]
      split
      · exact hreject _ _
      · refine h.over hphase rfl rfl rfl hnew rfl (by simp) ?_ calls hunheard
        rintro reply hp
        cases hp
        exact ⟨r, hanswered, rfl⟩
    · -- more is to come
      have hpart : newline ∉ c.buffer ++ (c.socks k).inFlight.take m :=
        newline_notMem_of_append (newline_notMem_responseBytes r) hstream hleft
      rw [onData_of_part (c := c.setSock k ((c.socks k).arrived m)) hcrashed hpart]
      split
      · exact hreject _ _
      · refine h.transfer rfl rfl (List.Subset.refl _) hlisten (fun l _ hl => ?_) ?_
        · exact new_of_isOpen hopen (fun l hl => socks_setSock_of_ne c hl _) l hl
        · intro j l hj _ _
          obtain rfl : l = k := by
            by_contra hlk
            rw [listeners l hlk] at hj
            cases hj
          obtain rfl : i = j := by simpa [own] using hj
          refine .sent hsocket ?_ r hanswered hpart ?_
          · exact (congrArg Sock.due (socks_setSock c l _)).trans hdue
          · exact (congrArg _ (congrArg Sock.inFlight (socks_setSock c l _))).trans hstream

/-- Bytes arrive. -/
theorem Inv.data (h : Inv c n) (hcrashed : c.crashed = false) (hopen : (c.socks k).isOpen = true)
    (hflight : (c.socks k).inFlight ≠ []) (m : Nat) :
    Inv ((c.socks k).listeners.foldl (EngineConnection.onData k ((c.socks k).inFlight.take m))
      (c.setSock k ((c.socks k).arrived m))) n := by
  by_cases hlisten : (c.socks k).listeners = []
  · rw [hlisten, List.foldl_nil]
    exact h.data_unheard hopen hlisten m
  · obtain ⟨i, hphase, calls, own, listeners, reply⟩ := h.situation.of_listeners hlisten
    rw [own, List.foldl_cons, List.foldl_nil]
    exact h.data_heard hcrashed hopen hphase calls own listeners (reply hopen) hflight m

/-! ## Timeouts, errors and the end of a socket -/

theorem rejectListeners_of_nil (hlisten : (c.socks k).listeners = []) (e : Rejection) :
    c.rejectListeners k e = c := by
  have hsock : { c.socks k with listeners := [] } = c.socks k := by rw [← hlisten]
  simp only [rejectListeners, hsock, setSock, Function.update_eq_self, hlisten, List.not_mem_nil,
    if_false]

theorem rejectListeners_of_singleton (own : (c.socks k).listeners = [i]) (e : Rejection) :
    c.rejectListeners k e =
      (c.setSock k { c.socks k with listeners := [] }).setPhase i (.rejected e) := by
  have hphases : (fun j => if j ∈ (c.socks k).listeners then Phase.rejected e else c.phase j) =
      Function.update c.phase i (.rejected e) := by
    funext j
    simp [own, Function.update_apply]
  simp only [rejectListeners, hphases]
  rfl

/-- The calls that listen on a socket give up. -/
theorem Inv.rejectListeners (h : Inv c n) (k : Nat) (e : Rejection) :
    Inv (c.rejectListeners k e) n := by
  by_cases hlisten : (c.socks k).listeners = []
  · rw [rejectListeners_of_nil hlisten]
    exact h
  · obtain ⟨i, hphase, calls, own, listeners, -⟩ := h.situation.of_listeners hlisten
    rw [rejectListeners_of_singleton own]
    refine h.over hphase rfl rfl rfl (fun l hl => ?_) rfl (by simp) (by simp) calls (fun l => ?_)
    · have hlk : l ≠ k := by
        rintro rfl
        rw [hl] at own
        cases own
      exact (socks_setSock_of_ne c hlk _).trans hl
    · rcases eq_or_ne l k with rfl | hlk
      · simp
      · exact (congrArg Sock.listeners (socks_setSock_of_ne c hlk _)).trans (listeners l hlk)

theorem new_shut {l : Nat} (hl : c.socks l = .new) :
    (c.setSock k (c.socks k).shut).socks l = .new := by
  rcases eq_or_ne l k with rfl | hlk
  · rw [socks_setSock, hl]
    rfl
  · rw [socks_setSock_of_ne c hlk, hl]

/-- The end of a socket. -/
theorem Inv.shut (h : Inv c n) (k : Nat) : Inv (c.setSock k (c.socks k).shut) n := by
  refine h.transfer rfl rfl (List.Subset.refl _) (listeners_setSock rfl) (fun l _ => new_shut) ?_
  intro i l _ hreply hopen
  rcases eq_or_ne l k with rfl | hlk
  · simp [Sock.shut] at hopen
  · have hsame := socks_setSock_of_ne c hlk
    exact (hreply (by simpa [hsame] using hopen)).frame rfl rfl (hsame _) (List.Subset.refl _)

/-- The client forgets its socket. -/
theorem Inv.close (h : Inv c n) : Inv c.close n := by
  unfold EngineConnection.close
  split
  case h_1 => exact h
  case h_2 k hsocket =>
    refine (h.shut k).transfer rfl rfl (List.Subset.refl _) (fun _ => rfl) (fun _ _ hl => hl) ?_
    -- the call that waits was on the socket that is gone
    intro i l _ hreply hopen
    have hcur : c.socket = some l := by
      cases hreply hopen with
      | due socket => exact socket
      | sent socket => exact socket
    rw [hsocket, Option.some.injEq] at hcur
    subst hcur
    simp [Sock.shut] at hopen

/-! ## Any event -/

/-- **Every event keeps the invariant** under the condition. -/
theorem Inv.step (h : Inv c n) {e : Event F} (hcond : c.Undisturbed e)
    (hstep : c.step e = some c') : Inv c' n := by
  unfold EngineConnection.step at hstep
  split at hstep
  case isTrue => cases hstep
  case isFalse hcrashed =>
    cases e with
    | connected i =>
      dsimp only at hstep
      split at hstep
      case h_1 k hphase =>
        cases hstep
        exact h.connected hphase hcond
      case h_2 => cases hstep
    | connectFailed i message =>
      dsimp only at hstep
      split at hstep
      case h_1 k hphase =>
        cases hstep
        exact h.move (h.le_of_phase (by simp [hphase])) (by rw [hphase]; rfl) rfl (by simp)
          (by simp)
      case h_2 => cases hstep
    | written i =>
      dsimp only at hstep
      split at hstep
      case h_1 k hphase =>
        split at hstep
        case isTrue hopen =>
          cases hstep
          obtain ⟨hunheard, hclear⟩ := hcond k hphase hopen
          exact h.written hphase hopen hunheard hclear
        case isFalse => cases hstep
      case h_2 => cases hstep
    | writeFailed i message =>
      dsimp only at hstep
      split at hstep
      case h_1 k hphase =>
        cases hstep
        exact h.move (h.le_of_phase (by simp [hphase])) (by rw [hphase]; rfl) rfl (by simp)
          (by simp)
      case h_2 => cases hstep
    | answer k r =>
      dsimp only at hstep
      split at hstep
      case h_1 => cases hstep
      case h_2 i due hdue =>
        cases hstep
        exact h.answer hdue r
    | data k m =>
      dsimp only at hstep
      split at hstep
      case isTrue hready =>
        cases hstep
        simp only [Bool.and_eq_true, decide_eq_true_eq] at hready
        obtain ⟨⟨⟨hopen, -⟩, hpos⟩, hm⟩ := hready
        exact h.data (by simpa using hcrashed) hopen
          (List.ne_nil_of_length_pos (lt_of_lt_of_le hpos hm)) m
      case isFalse => cases hstep
    | timeout k =>
      dsimp only at hstep
      split at hstep
      case isTrue =>
        cases hstep
        exact h.rejectListeners k _
      case isFalse => cases hstep
    | error k message =>
      dsimp only at hstep
      split at hstep
      case isTrue =>
        split at hstep
        case isTrue =>
          cases hstep
          exact h.transfer rfl rfl (List.Subset.refl _) (fun _ => rfl) (fun _ _ hl => hl)
            (fun _ _ _ hr ho => (hr ho).frame rfl rfl rfl (List.Subset.refl _))
        case isFalse =>
          cases hstep
          exact h.rejectListeners k _
      case isFalse => cases hstep
    | closed k =>
      cases hstep
      exact (h.shut k).rejectListeners k _
    | close =>
      cases hstep
      exact h.close

end LoopStorm.Shim.EngineConnection
