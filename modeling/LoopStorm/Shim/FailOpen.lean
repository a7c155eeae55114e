import LoopStorm.Shim.Guard

/-!
# What a guard that fails open lets through

With an engine that is up and answers every line, a guard should let a call
through only when the engine has allowed it.  The guard cannot tell an engine it
does not reach from a message that is too long: the same `catch` turns both into
an allowance.

* `recvLine_of_le`, `recvLine_of_gt` — the read loop returns the engine's line
  however it is cut, unless it is too long.
* `request_cases` — what an attempt can come to.
* `Sound`, `Covered` — the property, and when the shims have it: `fail_open_iff`.
* `unsendable_ts`, `unsendable_py` — one argument of the agent's can be too long.
-/

namespace LoopStorm.Shim

open LoopStorm.Engine

/-! ## Reading a reply -/

/-- Cutting loses nothing. -/
theorem flatten_cut (ns : List Nat) (bytes : List UInt8) : (cut ns bytes).flatten = bytes := by
  induction ns generalizing bytes with
  | nil => cases bytes <;> simp [cut]
  | cons n ns ih =>
    cases bytes with
    | nil => rfl
    | cons b bytes => rw [cut, List.flatten_cons, ih, List.cons_append, List.take_append_drop]

theorem splitLine_line {line : List UInt8} (h : newline ∉ line) :
    splitLine (line ++ [newline]) = some (line, []) :=
  splitLine_append h []

/-- A line that is not too long is read, in whatever chunks it comes. -/
theorem recvLine_of_le {line : List UInt8} (h : newline ∉ line)
    (hle : (line ++ [newline]).length ≤ maxMessageSize) (chunks : List (List UInt8))
    {buffer : List UInt8} (hall : buffer ++ chunks.flatten = line ++ [newline]) :
    recvLine buffer chunks = .ok line := by
  induction chunks generalizing buffer with
  | nil =>
    rw [List.flatten_nil, List.append_nil] at hall
    rw [recvLine, hall, splitLine_line h]
  | cons chunk chunks ih =>
    rw [List.flatten_cons, ← List.append_assoc] at hall
    by_cases hmem : newline ∈ buffer
    · -- the whole line is there, and the chunks to come are empty
      have hleft : chunk ++ chunks.flatten = [] := by
        by_contra hne
        rw [List.append_assoc] at hall
        exact newline_notMem_of_append h hall hne hmem
      rw [List.append_assoc, hleft, List.append_nil] at hall
      rw [recvLine, hall, splitLine_line h]
    · have hlen : (buffer ++ chunk).length ≤ (line ++ [newline]).length := by
        have hsum := congrArg List.length hall
        rw [List.length_append] at hsum
        exact hsum ▸ Nat.le_add_right _ _
      rw [recvLine, splitLine_of_notMem hmem]
      show (if (buffer ++ chunk).length > maxMessageSize then _ else _) = _
      rw [if_neg (Nat.not_lt.2 (hlen.trans hle))]
      exact ih hall

/-- A line that is too long is not read. -/
theorem recvLine_of_gt {line : List UInt8} (h : newline ∉ line)
    (hgt : (line ++ [newline]).length > maxMessageSize) (chunks : List (List UInt8))
    {buffer : List UInt8} (hbuffer : buffer.length ≤ maxMessageSize)
    (hall : buffer ++ chunks.flatten = line ++ [newline]) :
    ∃ e, recvLine buffer chunks = .error e := by
  have hmem : newline ∉ buffer := by
    refine newline_notMem_of_append h hall ?_
    intro hleft
    rw [hleft, List.append_nil] at hall
    rw [← hall] at hgt
    exact absurd hbuffer (Nat.not_le.2 hgt)
  induction chunks generalizing buffer with
  | nil =>
    rw [recvLine, splitLine_of_notMem hmem]
    exact ⟨_, rfl⟩
  | cons chunk chunks ih =>
    rw [recvLine, splitLine_of_notMem hmem]
    show ∃ e, (if (buffer ++ chunk).length > maxMessageSize then _ else _) = _
    by_cases hlong : (buffer ++ chunk).length > maxMessageSize
    · rw [if_pos hlong]
      exact ⟨_, rfl⟩
    · rw [if_neg hlong]
      rw [List.flatten_cons, ← List.append_assoc] at hall
      refine ih (Nat.not_lt.1 hlong) hall ?_
      refine newline_notMem_of_append h hall ?_
      intro hleft
      rw [hleft, List.append_nil] at hall
      rw [← hall] at hgt
      exact hlong hgt

/-- Behind a part of a line that was too long: the line, once all of it is
there, and else an exception. -/
theorem recvLine_of_part {line buffer : List UInt8} (h : newline ∉ line)
    (hlong : buffer.length > maxMessageSize) (hpart : buffer <+: line ++ [newline])
    (chunks : List (List UInt8)) :
    (newline ∈ buffer ∧ recvLine buffer chunks = .ok line) ∨
      (newline ∉ buffer ∧ ∃ e, recvLine buffer chunks = .error e) := by
  obtain ⟨left, hall⟩ := hpart
  by_cases hmem : newline ∈ buffer
  · refine Or.inl ⟨hmem, ?_⟩
    have hleft : left = [] := by
      by_contra hne
      exact newline_notMem_of_append h hall hne hmem
    rw [hleft, List.append_nil] at hall
    cases chunks with
    | nil => rw [recvLine, hall, splitLine_line h]
    | cons chunk chunks => rw [recvLine, hall, splitLine_line h]
  · refine Or.inr ⟨hmem, ?_⟩
    cases chunks with
    | nil =>
      rw [recvLine, splitLine_of_notMem hmem]
      exact ⟨_, rfl⟩
    | cons chunk chunks =>
      have hgt : (buffer ++ chunk).length > maxMessageSize := by
        rw [List.length_append]
        omega
      rw [recvLine, splitLine_of_notMem hmem]
      show ∃ e, (if (buffer ++ chunk).length > maxMessageSize then _ else _) = _
      rw [if_pos hgt]
      exact ⟨_, rfl⟩

/-! ## One attempt -/

section Attempt

variable {σ ν F : Type} [Float64 F] (shim : Language σ ν)

/-- The engine's line is short enough to be read. -/
def Readable (r : Engine.DecisionResponse F) : Prop :=
  (writeResponse r).length ≤ maxMessageSize

/-- The request has a line, and it is short enough to be sent. -/
def Sendable (r : DecisionRequest σ ν) : Prop :=
  ∃ line, shim.toNdjson r = some line ∧ line.length ≤ maxMessageSize

/-- An attempt on the connection reads a reply: the engine's, or an old one that
is in the buffer to its end. -/
def Link.Replies (link : Link) (answer : Answer F) : Prop :=
  match link with
  | .absent => Readable answer.response
  | .stale => False
  | .connected buffer _ => (buffer = [] ∧ Readable answer.response) ∨ newline ∈ buffer

theorem request_unsendable {r : DecisionRequest σ ν} (h : ¬ Sendable shim r) (link : Link)
    (answer : Answer F) : ∃ e, request shim link r answer = ⟨.error e, []⟩ := by
  unfold request
  cases hline : shim.toNdjson r with
  | none => exact ⟨_, rfl⟩
  | some line =>
    have hlong : line.length > maxMessageSize := by
      by_contra hle
      exact h ⟨line, hline, Nat.not_lt.1 hle⟩
    show ∃ e, (if line.length > maxMessageSize then _ else _) = _
    rw [if_pos hlong]
    exact ⟨_, rfl⟩

/-- The read loop on an empty buffer, with nothing but the answer to come. -/
theorem recvLine_answer (answer : Answer F) :
    (Readable answer.response ∧
      recvLine [] (cut answer.cuts (writeResponse answer.response)) =
        .ok (responseBytes answer.response)) ∨
    (¬ Readable answer.response ∧
      ∃ e, recvLine [] (cut answer.cuts (writeResponse answer.response)) = .error e) := by
  have hline := newline_notMem_responseBytes answer.response
  have hall : [] ++ (cut answer.cuts (writeResponse answer.response)).flatten =
      responseBytes answer.response ++ [newline] := by
    rw [flatten_cut, List.nil_append, writeResponse]
  by_cases hread : Readable answer.response
  · exact Or.inl ⟨hread, recvLine_of_le hline hread _ hall⟩
  · exact Or.inr ⟨hread, recvLine_of_gt hline (Nat.not_le.1 hread) _ (Nat.zero_le _) hall⟩

/-- What becomes of an attempt whose line is sent: the engine has closed the
connection, or answers and is not heard, or a reply is read, which is its answer
or one to an earlier call. -/
theorem request_cases {r : DecisionRequest σ ν} (hsend : Sendable shim r) {link : Link} {seq : Nat}
    (hlink : link.Synced F seq) (answer : Answer F) :
    (link = .stale ∧ ¬ link.Replies answer ∧
      ∃ e, request shim link r answer = ⟨.error e, []⟩) ∨
    (link ≠ .stale ∧ ¬ link.Replies answer ∧
      ∃ e, request shim link r answer = ⟨.error e, [answer.response]⟩) ∨
    (link.Replies answer ∧ ∃ x : Engine.DecisionResponse F,
      (x = answer.response ∨ x.seq.toNat ≤ seq) ∧
        request shim link r answer = ⟨.ok (readBack x), [answer.response]⟩) := by
  obtain ⟨line, hline, hle⟩ := hsend
  have hshort : ¬ line.length > maxMessageSize := Nat.not_lt.2 hle
  cases link with
  | stale =>
    refine Or.inl ⟨rfl, id, .connectionLost, ?_⟩
    simp only [request, hline, if_neg hshort]
  | absent =>
    rcases recvLine_answer answer with ⟨hread, hrecv⟩ | ⟨hread, e, hrecv⟩
    · refine Or.inr (Or.inr ⟨hread, answer.response, Or.inl rfl, ?_⟩)
      simp only [request, hline, if_neg hshort, List.nil_append, hrecv, shim.reads]
    · refine Or.inr (Or.inl ⟨Link.noConfusion, hread, e, ?_⟩)
      simp only [request, hline, if_neg hshort, List.nil_append, hrecv]
  | connected buffer unread =>
    rcases hlink with ⟨rfl, rfl⟩ | ⟨hlong, old, hold, hpart⟩
    · rcases recvLine_answer answer with ⟨hread, hrecv⟩ | ⟨hread, e, hrecv⟩
      · refine Or.inr (Or.inr ⟨Or.inl ⟨rfl, hread⟩, answer.response, Or.inl rfl, ?_⟩)
        simp only [request, hline, if_neg hshort, List.nil_append, hrecv, shim.reads]
      · refine Or.inr (Or.inl ⟨Link.noConfusion, ?_, e, ?_⟩)
        · rintro (⟨-, h⟩ | h)
          · exact hread h
          · exact List.not_mem_nil h
        · simp only [request, hline, if_neg hshort, List.nil_append, hrecv]
    · rcases recvLine_of_part (newline_notMem_responseBytes old) hlong hpart
        (cut answer.cuts (unread ++ writeResponse answer.response)) with
        ⟨hmem, hrecv⟩ | ⟨hmem, e, hrecv⟩
      · refine Or.inr (Or.inr ⟨Or.inr hmem, old, Or.inr hold, ?_⟩)
        simp only [request, hline, if_neg hshort, hrecv, shim.reads]
      · refine Or.inr (Or.inl ⟨Link.noConfusion, ?_, e, ?_⟩)
        · rintro (⟨rfl, -⟩ | h)
          · exact absurd hlong (by decide)
          · exact hmem h
        · simp only [request, hline, if_neg hshort, hrecv]

end Attempt

/-! ## One call -/

section Check

variable {σ ν F : Type} [DecidableEq σ] [Float64 F] (shim : Language σ ν)

/-- The call is let through only if the engine has answered it with "allow". -/
def Outcome.Sound (o : Outcome F) : Prop :=
  ∀ res, o.result = .ok res → res.decision = .str "allow" →
    ∃ r ∈ o.answers, r.decision = .allow

/-- The guard fails closed, or the arguments have no hash, or the request can be
sent and one of its attempts ends with a reply, or the engine has allowed it. -/
def Guard.Covered (g : Guard σ F) (call : CheckArgs σ ν) (first second : Answer F) : Prop :=
  g.failOpen = false ∨ ∀ r, g.request shim call = some r →
    Sendable shim r ∧
      (g.link.Replies first ∨ Readable second.response ∨
        (g.link ≠ .stale ∧ first.response.decision = .allow) ∨
        second.response.decision = .allow)

omit [DecidableEq σ] in
theorem handleDecision_ok {response : DecisionResponse} {res : DecisionResult}
    (h : handleDecision shim response = .ok res) : response.decision = some (.str "allow") := by
  unfold handleDecision at h
  split at h
  case h_1 decision hdecision =>
    split_ifs at h with hallow
    rw [hdecision, hallow]
  case h_2 => nomatch h

/-- What the guard makes of a reply. -/
def settle (r : DecisionRequest σ ν) (response : DecisionResponse) :
    Except GuardError DecisionResult :=
  if echoes shim r response then handleDecision shim response
  else
    .error (.runTerminated none
      (some (.str "protocol error: seq/run_id mismatch in engine response")))

/-- Only the answer to the request gets through. -/
theorem settle_ok {g : Guard σ F} {call : CheckArgs σ ν} {r : DecisionRequest σ ν}
    (hr : g.request shim call = some r) {x y : Engine.DecisionResponse F}
    (hx : x = y ∨ x.seq.toNat ≤ g.seq) {res : DecisionResult}
    (h : settle shim r (readBack x) = .ok res) : y.decision = .allow := by
  unfold settle at h
  split_ifs at h with hecho
  have hallow := handleDecision_ok shim h
  rw [decision_readBack, Option.some.injEq, Json.str.injEq] at hallow
  have hdecision : x.decision = .allow := Decision.wire_injective hallow
  rcases hx with rfl | hold
  · exact hdecision
  · -- an answer to an earlier call does not carry the number of this one
    have hseq : r.seq = g.seq + 1 := by
      unfold Guard.request at hr
      obtain ⟨hash, -, rfl⟩ := Option.map_eq_some_iff.1 hr
      rfl
    simp only [echoes, seq_readBack, runId_readBack, Bool.and_eq_true, decide_eq_true_eq] at hecho
    have hnum := Json.natText_injective hecho.1
    omega

theorem check_of_request {g : Guard σ F} {call : CheckArgs σ ν} {r : DecisionRequest σ ν}
    (hr : g.request shim call = some r) (first second : Answer F) :
    g.check shim call first second =
      { result :=
          match (send shim g.failOpen g.link r first second).reply with
          | .error e => .error (.engineUnavailable e)
          | .ok none => .ok { decision := .str "allow" }
          | .ok (some response) => settle shim r response
        answers := (send shim g.failOpen g.link r first second).answers } := by
  unfold Guard.check
  rw [hr]
  rfl

/-- A guard that fails open lets a call through when both attempts fail. -/
theorem check_of_failures {g : Guard σ F} {call : CheckArgs σ ν} {r : DecisionRequest σ ν}
    (hr : g.request shim call = some r) (hopen : g.failOpen = true) {first second : Answer F}
    {e e' : Failure} {as bs : List (Engine.DecisionResponse F)}
    (hfirst : request shim g.link r first = ⟨.error e, as⟩)
    (hsecond : request shim (.connected [] []) r second = ⟨.error e', bs⟩) :
    g.check shim call first second = ⟨.ok { decision := .str "allow" }, as ++ bs⟩ := by
  rw [check_of_request shim hr, send, hfirst, hsecond, hopen]
  rfl

/-- A guard that fails open lets through what it cannot send. -/
theorem check_of_unsendable {g : Guard σ F} {call : CheckArgs σ ν} {r : DecisionRequest σ ν}
    (hr : g.request shim call = some r) (hopen : g.failOpen = true) (h : ¬ Sendable shim r)
    (first second : Answer F) :
    g.check shim call first second = ⟨.ok { decision := .str "allow" }, []⟩ := by
  obtain ⟨e, hfirst⟩ := request_unsendable shim h g.link first
  obtain ⟨e', hsecond⟩ := request_unsendable shim h (.connected [] []) second
  exact check_of_failures shim hr hopen hfirst hsecond

/-- The connection of a second attempt is a new one. -/
theorem synced_new : (Link.connected [] []).Synced F 0 := Or.inl ⟨rfl, rfl⟩

theorem replies_new (answer : Answer F) :
    (Link.connected [] []).Replies answer ↔ Readable answer.response := by
  constructor
  · rintro (⟨-, h⟩ | h)
    · exact h
    · exact absurd h List.not_mem_nil
  · intro h
    exact Or.inl ⟨rfl, h⟩

/-- Outside the covered cases a call goes through without an "allow". -/
theorem covered_of_sound {g : Guard σ F} {call : CheckArgs σ ν} {first second : Answer F}
    (hsound : (g.check shim call first second).Sound) : g.Covered shim call first second := by
  refine or_iff_not_imp_left.2 ?_
  intro hclosed r hr
  have hopen : g.failOpen = true := by simpa using hclosed
  by_contra hcovered
  by_cases hsend : Sendable shim r
  · have hmissed := not_and.1 hcovered hsend
    simp only [not_or, not_and] at hmissed
    obtain ⟨hreplies, hread, hfirstAllow, hsecondAllow⟩ := hmissed
    have hretry : ∃ e, request shim (.connected [] []) r second =
        ⟨.error e, [second.response]⟩ := by
      rcases request_cases shim hsend synced_new second with ⟨h, -⟩ | ⟨-, -, h⟩ | ⟨h, -⟩
      · exact absurd h Link.noConfusion
      · exact h
      · exact absurd ((replies_new second).1 h) hread
    obtain ⟨e', hretry⟩ := hretry
    rcases request_cases shim hsend g.synced first with
      ⟨-, -, e, hfirst⟩ | ⟨hlink, -, e, hfirst⟩ | ⟨h, -⟩
    · rw [check_of_failures shim hr hopen hfirst hretry] at hsound
      obtain ⟨x, hx, hallow⟩ := hsound _ rfl rfl
      rw [List.nil_append, List.mem_singleton] at hx
      exact hsecondAllow (hx ▸ hallow)
    · rw [check_of_failures shim hr hopen hfirst hretry] at hsound
      obtain ⟨x, hx, hallow⟩ := hsound _ rfl rfl
      rcases List.mem_append.1 hx with hx | hx
      · exact hfirstAllow hlink (List.mem_singleton.1 hx ▸ hallow)
      · exact hsecondAllow (List.mem_singleton.1 hx ▸ hallow)
    · exact hreplies h
  · rw [check_of_unsendable shim hr hopen hsend] at hsound
    obtain ⟨x, hx, -⟩ := hsound _ rfl rfl
    exact absurd hx List.not_mem_nil

/-- Two failures are an allowance only when the guard fails open. -/
theorem failOpen_of_failures {g : Guard σ F} {call : CheckArgs σ ν} {r : DecisionRequest σ ν}
    (hr : g.request shim call = some r) {first second : Answer F} {e e' : Failure}
    {as bs : List (Engine.DecisionResponse F)}
    (hfirst : request shim g.link r first = ⟨.error e, as⟩)
    (hsecond : request shim (.connected [] []) r second = ⟨.error e', bs⟩) {res : DecisionResult}
    (hres : (g.check shim call first second).result = .ok res) : g.failOpen = true := by
  by_contra hclosed
  have hclosed : g.failOpen = false := by simpa using hclosed
  rw [check_of_request shim hr, send, hfirst, hsecond, hclosed] at hres
  exact nomatch hres

/-- In the covered cases a call goes through on the engine's "allow" only. -/
theorem sound_of_covered {g : Guard σ F} {call : CheckArgs σ ν} {first second : Answer F}
    (hcovered : g.Covered shim call first second) : (g.check shim call first second).Sound := by
  intro res hres hallow
  cases hr : g.request shim call with
  | none =>
    unfold Guard.check at hres
    rw [hr] at hres
    exact nomatch hres
  | some r =>
    have hcases : g.failOpen = true → Sendable shim r ∧ (g.link.Replies first ∨
        Readable second.response ∨ (g.link ≠ .stale ∧ first.response.decision = .allow) ∨
        second.response.decision = .allow) := by
      intro hopen
      rcases hcovered with hclosed | hcovered
      · rw [hopen] at hclosed
        exact absurd hclosed (by decide)
      · exact hcovered r hr
    by_cases hsend : Sendable shim r
    · rcases request_cases shim hsend g.synced first with
        ⟨hlink, hreplies, e, hfirst⟩ | ⟨hlink, hreplies, e, hfirst⟩ | ⟨-, x, hx, hfirst⟩
      case inr.inr =>
        rw [check_of_request shim hr, send, hfirst] at hres ⊢
        exact ⟨_, List.mem_singleton_self _, settle_ok shim hr hx hres⟩
      all_goals
        rcases request_cases shim hsend synced_new second with
          ⟨h, -⟩ | ⟨-, hread, e', hsecond⟩ | ⟨-, x, hx, hsecond⟩
        · exact absurd h Link.noConfusion
        · have hopen := failOpen_of_failures shim hr hfirst hsecond hres
          rw [check_of_failures shim hr hopen hfirst hsecond]
          rcases (hcases hopen).2 with h | h | ⟨h, hdecision⟩ | hdecision
          · exact absurd h hreplies
          · exact absurd ((replies_new second).2 h) hread
          · first
            | exact absurd hlink h
            | exact ⟨_, List.mem_append_left _ (List.mem_singleton_self _), hdecision⟩
          · exact ⟨_, List.mem_append_right _ (List.mem_singleton_self _), hdecision⟩
        · rw [check_of_request shim hr, send, hfirst, hsecond] at hres ⊢
          have hx : x = second.response ∨ x.seq.toNat ≤ g.seq :=
            hx.imp id (fun h => h.trans (Nat.zero_le _))
          exact ⟨_, List.mem_append_right _ (List.mem_singleton_self _), settle_ok shim hr hx hres⟩
    · obtain ⟨e, hfirst⟩ := request_unsendable shim hsend g.link first
      obtain ⟨e', hsecond⟩ := request_unsendable shim hsend (.connected [] []) second
      exact absurd (hcases (failOpen_of_failures shim hr hfirst hsecond hres)).1 hsend

end Check

/-- **When a call goes through only on the engine's "allow"**, in either shim.
The guard fails closed, or what it sends and what it is sent is short enough. -/
theorem fail_open_iff {F ν : Type} [Float64 F] [NumberText ν] [Sha256] :
    (∀ (g : Guard Ts.Str F) (call : CheckArgs Ts.Str ν) (first second : Answer F),
      (g.check Ts.language call first second).Sound ↔
        g.Covered Ts.language call first second) ∧
    (∀ (g : Guard Py.Str F) (call : CheckArgs Py.Str ν) (first second : Answer F),
      (g.check Py.language call first second).Sound ↔
        g.Covered Py.language call first second) := by
  constructor
  · intro g call first second
    exact ⟨covered_of_sound Ts.language, sound_of_covered Ts.language⟩
  · intro g call first second
    exact ⟨covered_of_sound Py.language, sound_of_covered Py.language⟩

/-! ## An argument that is too long -/

section Long

variable {σ τ ν μ : Type} {qt : σ → List Char} {nt : ν → List Char}

theorem length_le_joinComma {t : List Char} {ts : List (List Char)} (h : t ∈ ts) :
    t.length ≤ (Json.joinComma ts).length := by
  cases ts with
  | nil => exact absurd h List.not_mem_nil
  | cons u us =>
    rw [Json.joinComma_cons, List.length_append, List.length_flatMap]
    rcases List.mem_cons.1 h with rfl | h
    · exact Nat.le_add_right _ _
    · have hle : (fun v : List Char => (',' :: v).length) t ≤
          (us.map fun v => (',' :: v).length).sum :=
        List.le_sum_of_mem (List.mem_map_of_mem h)
      simp only [List.length_cons] at hle ⊢
      omega

/-- A member's value is no longer than the object. -/
theorem length_member_le {m : σ × Json σ ν} {ms : List (σ × Json σ ν)} (h : m ∈ ms) :
    (Json.render qt nt m.2).length ≤ (Json.render qt nt (.obj ms)).length := by
  have hmem : qt m.1 ++ ':' :: Json.render qt nt m.2 ∈ Json.renderM qt nt ms := by
    rw [Json.renderM_eq_map]
    exact List.mem_map_of_mem h
  have hle := length_le_joinComma hmem
  rw [List.length_append, List.length_cons] at hle
  rw [Json.render, List.length_cons, List.length_append]
  omega

/-- The arguments are a member of the request. -/
theorem args_mem_toDict [NumberText ν] (lit : String → σ) {r : DecisionRequest σ ν}
    {v : Json σ ν} (h : r.argsRedacted = some v) :
    (lit "args_redacted", v) ∈ r.toDict lit := by
  simp [DecisionRequest.toDict, h, member]

end Long

section Text

variable {ν : Type} [NumberText ν]

/-- The arguments of a call that hands over one text. -/
def textArgs {σ : Type} (lit : String → σ) (text : σ) : List (σ × Json σ ν) :=
  [(lit "text", .str text)]

theorem quoteUnits_replicate (n : Nat) :
    Ts.quoteUnits (List.replicate n 0x61) = List.replicate n 'a' := by
  have hunit : Ts.quoteUnit 0x61 = ['a'] := by decide
  induction n with
  | zero => rfl
  | succ n ih =>
    cases n with
    | zero => exact hunit
    | succ n =>
      rw [List.replicate_succ] at ih
      have hlead : (Ts.isLead 0x61 && Ts.isTrail 0x61) = false := by decide
      rw [List.replicate_succ, List.replicate_succ, Ts.quoteUnits, hlead, ih, hunit]
      rfl

theorem encode_replicate (n : Nat) :
    Py.encode (List.replicate n (.scalar 'a')) = some (String.ofList (List.replicate n 'a')) := by
  have hmap : (List.replicate n (Py.CodePoint.scalar 'a')).mapM Py.CodePoint.encode =
      some (List.replicate n 'a') := by
    induction n with
    | zero => rfl
    | succ n ih => rw [List.replicate_succ, List.mapM_cons, ih]; rfl
  rw [Py.encode, hmap]
  rfl

omit [NumberText ν] in
/-- Every member of a dict that is encoded is there. -/
theorem encodeMembers_mem {ms : List (Py.Str × Json Py.Str ν)}
    {ns : List (String × Json String ν)} (h : Py.encodeMembers ms = some ns)
    {m : Py.Str × Json Py.Str ν} (hm : m ∈ ms) : ∃ n ∈ ns, Py.encodeValue m.2 = some n.2 := by
  induction ms generalizing ns with
  | nil => exact absurd hm List.not_mem_nil
  | cons m' ms ih =>
    simp only [Py.encodeMembers, Option.bind_eq_bind, Option.bind_eq_some_iff, Option.pure_def,
      Option.some.injEq] at h
    obtain ⟨k, -, v, hv, rest, hrest, rfl⟩ := h
    rcases List.mem_cons.1 hm with rfl | hm
    · exact ⟨(k, v), List.mem_cons_self .., hv⟩
    · obtain ⟨n, hn, hvalue⟩ := ih hrest hm
      exact ⟨n, List.mem_cons_of_mem _ hn, hvalue⟩

/-- A request with a text of 64 KiB or more cannot be sent from TypeScript. -/
theorem unsendable_ts [Sha256] {r : DecisionRequest Ts.Str ν} {n : Nat} (hn : maxMessageSize ≤ n)
    (h : r.argsRedacted = some (.obj (textArgs Ts.lit (List.replicate n 0x61)))) :
    ¬ Sendable Ts.language r := by
  rintro ⟨line, hline, hle⟩
  obtain rfl : Ts.toNdjson r = line := Option.some.inj hline
  have htext : n ≤ (Json.render Ts.quote NumberText.text
      (.str (List.replicate n 0x61) : Json Ts.Str ν)).length := by
    rw [Json.render, Ts.quote, quoteUnits_replicate, List.length_cons, List.length_append,
      List.length_replicate]
    omega
  have hargs := htext.trans (length_member_le
    (m := (Ts.lit "text", .str (List.replicate n 0x61))) (List.mem_singleton_self _))
  have hobj := hargs.trans (length_member_le (args_mem_toDict Ts.lit h))
  have hbytes := hobj.trans (Text.length_le_utf8 _)
  rw [Ts.toNdjson, Ts.stringify, List.length_append, List.length_singleton] at hle
  omega

/-- Nor from Python. -/
theorem unsendable_py [Sha256] {r : DecisionRequest Py.Str ν} {n : Nat} (hn : maxMessageSize ≤ n)
    (h : r.argsRedacted =
      some (.obj (textArgs Py.lit (List.replicate n (.scalar 'a'))))) :
    ¬ Sendable Py.language r := by
  rintro ⟨line, hline, hle⟩
  obtain ⟨ms, hms, rfl⟩ := Option.map_eq_some_iff.1 (show Py.toNdjson r = some line from hline)
  obtain ⟨m, hm, hvalue⟩ := encodeMembers_mem hms (args_mem_toDict Py.lit h)
  have hencode : Py.encodeValue (ν := ν) (.obj (textArgs Py.lit
      (List.replicate n (.scalar 'a')))) =
        some (.obj [("text", .str (String.ofList (List.replicate n 'a')))]) := by
    simp only [Py.encodeValue, textArgs, Py.encodeMembers, encode_replicate]
    rfl
  rw [hencode] at hvalue
  have htext : n ≤ (Json.render Json.quote NumberText.text
      (.str (String.ofList (List.replicate n 'a')) : Json String ν)).length := by
    have hle := Json.length_le_quote (String.ofList (List.replicate n 'a'))
    rw [String.toList_ofList, List.length_replicate] at hle
    rwa [Json.render]
  have hargs := htext.trans (length_member_le
    (m := ("text", .str (String.ofList (List.replicate n 'a')))) (List.mem_singleton_self _))
  rw [Option.some.inj hvalue] at hargs
  have hobj := hargs.trans (length_member_le hm)
  have hbytes := hobj.trans (Text.length_le_utf8 _)
  rw [List.length_append, List.length_singleton] at hle
  omega

end Text

namespace Sample

/-- A guard that fails open, before its first call. -/
def guard {σ : Type} (lit : String → σ) : Guard σ ℚ where
  failOpen := true
  runId := lit "run"
  agentRole := none
  agentName := none
  environment := none
  model := none
  seq := 0
  link := .absent
  synced := trivial

/-- A call that hands over one text. -/
def call {σ : Type} (lit : String → σ) (text : σ) : CheckArgs σ ℤ where
  toolName := lit "search"
  args := some (textArgs lit text)
  inputTokens := none
  outputTokens := none
  estimatedCostUsd := none
  ts := lit "2026-01-01T00:00:00Z"

/-- The engine denies the call. -/
def denied : Answer ℚ where
  response :=
    { schemaVersion := 1, runId := "run", seq := 1, decision := .deny, ruleId := none
      reason := none, cooldownMs := none, cooldownMessage := none, approvalId := none
      approvalTimeoutMs := none, approvalTimeoutAction := none, budgetRemaining := none
      ts := "2026-01-01T00:00:00Z" }
  cuts := []

end Sample

open Engine.Sample Sample in
/-- A text of 64 KiB is let through by either shim, whatever the engine would
have said. -/
theorem long_text_not_sound :
    ¬ ((guard Ts.lit).check Ts.language
        (Sample.call Ts.lit (List.replicate maxMessageSize 0x61)) denied denied).Sound ∧
      ¬ ((guard Py.lit).check Py.language
        (Sample.call Py.lit (List.replicate maxMessageSize (.scalar 'a'))) denied denied).Sound := by
  constructor
  · generalize htext : List.replicate maxMessageSize (0x61 : UInt16) = text
    have hhash : ∃ hash, Ts.argsHash (.obj (textArgs Ts.lit text) : Json Ts.Str ℤ) = some hash :=
      ⟨_, rfl⟩
    obtain ⟨hash, hhash⟩ := hhash
    have hr : (guard Ts.lit).request Ts.language (Sample.call Ts.lit text) = some _ :=
      congrArg (Option.map _) hhash
    intro hsound
    rw [check_of_unsendable Ts.language hr rfl
      (unsendable_ts (le_refl _) (htext ▸ rfl)) denied denied] at hsound
    obtain ⟨x, hx, -⟩ := hsound _ rfl rfl
    exact absurd hx List.not_mem_nil
  · have hencode := encode_replicate maxMessageSize
    generalize htext : List.replicate maxMessageSize (Py.CodePoint.scalar 'a') = text at hencode ⊢
    have hhash : ∃ hash, Py.argsHash (.obj (textArgs Py.lit text) : Json Py.Str ℤ) = some hash := by
      simp only [Py.argsHash, Py.encodeValue, textArgs, Py.encodeMembers, hencode]
      exact ⟨_, rfl⟩
    obtain ⟨hash, hhash⟩ := hhash
    have hr : (guard Py.lit).request Py.language (Sample.call Py.lit text) = some _ :=
      congrArg (Option.map _) hhash
    intro hsound
    rw [check_of_unsendable Py.language hr rfl
      (unsendable_py (le_refl _) (htext ▸ rfl)) denied denied] at hsound
    obtain ⟨x, hx, -⟩ := hsound _ rfl rfl
    exact absurd hx List.not_mem_nil

end LoopStorm.Shim
