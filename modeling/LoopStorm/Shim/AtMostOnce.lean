import LoopStorm.Engine.LoopWindow
import LoopStorm.Engine.Serving
import LoopStorm.Shim.FailOpen
import LoopStorm.Shim.Retry

/-!
# How often a check is enforced

A check whose reply is lost or late sends its request again, and the engine,
which knows requests by their run only, enforces it again.

* `carried` — the requests on a connection that the engine will take up.
* `Exchange.carriers` — how often the connections of a guard carry the request
  of a check; `carriers_write` says that a write adds one at most.
* `Exchange.Inv` — a request is carried once at most, and not before it has been
  written; `Inv.step` is what one step preserves.
* `addsOnce` — what a call of `enforce` adds to the books.
* `enforced_at_most_once` — **at-most-once accounting**, as long as no check
  writes its request again when the engine has it; `not_enforced_at_most_once`
  is what happens otherwise.
-/

namespace LoopStorm.Shim

open LoopStorm.Engine hiding DecisionRequest DecisionResponse Phase
open Frames

/-! ## What the engine will take up -/

section Carried

variable {F : Type} [Float64 F] [RequestReader F]

/-- The requests on a connection that are enforced sooner or later. -/
def carried (stream : List UInt8) : List (Engine.DecisionRequest F) :=
  (answerable stream).filterMap Message.request?

/-- A request with a number. -/
def hasNumber (n : Nat) (q : Engine.DecisionRequest F) : Bool := q.seq.toNat = n

@[simp] theorem carried_nil : carried (F := F) [] = [] := rfl

theorem carried_mono {stream whole : List UInt8} (h : stream <+: whole) :
    carried (F := F) stream <+: carried whole := by
  obtain ⟨more, rfl⟩ := h
  exact (prefix_answerable stream more).filterMap _

/-- Behind whole lines, a line that can only be read as request `n` adds that
request at most, and once. -/
theorem countP_carried_line {head line : List UInt8} {n : Nat} (hwhole : Whole newline head)
    (hline : ∃ body, newline ∉ body ∧ line = body ++ [newline])
    (hread : ∀ q, receive (F := F) line = some (.request q) → q.seq.toNat = n) (m : Nat) :
    (carried (F := F) (head ++ line)).countP (hasNumber m) ≤
      (carried (F := F) head).countP (hasNumber m) + if n = m then 1 else 0 := by
  obtain ⟨body, hbody, rfl⟩ := hline
  have hcarried := (answerable_line (F := F) hwhole hbody).filterMap Message.request?
  rw [List.filterMap_append] at hcarried
  refine (hcarried.sublist.countP_le).trans ?_
  rw [List.countP_append]
  refine Nat.add_le_add_left ?_ _
  cases hframe : frameMessage (F := F) (body ++ [newline]) with
  | none => exact Nat.zero_le _
  | some message =>
    cases message with
    | refused refusal => exact Nat.zero_le _
    | request q =>
      have hreceive : receive (F := F) (body ++ [newline]) = some (.request q) := by
        unfold frameMessage at hframe
        split at hframe
        · cases hframe
        · rwa [if_pos List.getLast?_concat] at hframe
      have hq := hread q hreceive
      show [q].countP (hasNumber m) ≤ _
      rw [List.countP_singleton, hasNumber, hq]
      simp

end Carried

section Exchange

variable {F : Type} [Float64 F] [RequestReader F] {σ ν : Type}

/-- How often the connections of the guard carry the request of a check. -/
def Exchange.carriers (g : Guard σ F) (i : Nat) (x : Exchange F) : Nat :=
  ∑ k ∈ x.opened, (carried (F := F) (x.stream k)).countP (hasNumber (g.number i))

/-- The engine has not had the request of a check, and will not get it: no
connection of the guard carries it. -/
def Exchange.Unheard (g : Guard σ F) (i : Nat) (x : Exchange F) : Prop :=
  ∀ k ∈ x.opened, ∀ q ∈ carried (F := F) (x.stream k), q.seq.toNat ≠ g.number i

instance (g : Guard σ F) (i : Nat) (x : Exchange F) : Decidable (x.Unheard g i) :=
  inferInstanceAs (Decidable (∀ k ∈ x.opened, ∀ q ∈ carried (F := F) (x.stream k),
    q.seq.toNat ≠ g.number i))

theorem Exchange.carriers_eq_zero {g : Guard σ F} {i : Nat} {x : Exchange F}
    (h : x.Unheard g i) : x.carriers g i = 0 := by
  refine Finset.sum_eq_zero fun k hk => List.countP_eq_zero.2 fun q hq => ?_
  simpa [hasNumber] using h k hk q hq

/-- What is cut short carries no more. -/
theorem Exchange.carriers_le {g : Guard σ F} {i : Nat} {x y : Exchange F}
    (hopened : y.opened = x.opened) (h : ∀ k ∈ x.opened, y.stream k <+: x.stream k) :
    y.carriers g i ≤ x.carriers g i := by
  rw [carriers, carriers, hopened]
  exact Finset.sum_le_sum fun k hk => (carried_mono (h k hk)).sublist.countP_le

/-- A new connection carries nothing. -/
theorem Exchange.carriers_connect {g : Guard σ F} {i k : Nat} {x : Exchange F}
    (hk : k ∉ x.opened) (hsent : (x.server.conns k).sent = []) :
    (x.connect k).carriers g i = x.carriers g i := by
  have hnew : (x.connect k).stream k = [] := by
    show (x.server.conns k).sent ++ Function.update x.queued k [] k = []
    rw [hsent, Function.update_self]
    rfl
  have hold : ∀ l ∈ x.opened, (x.connect k).stream l = x.stream l := by
    intro l hl
    show (x.server.conns l).sent ++ Function.update x.queued k [] l = _
    rw [Function.update_of_ne (ne_of_mem_of_not_mem hl hk)]
    rfl
  rw [carriers, carriers, show (x.connect k).opened = insert k x.opened from rfl,
    Finset.sum_insert hk, hnew, carried_nil, List.countP_nil, Nat.zero_add]
  exact Finset.sum_congr rfl fun l hl => by rw [hold l hl]

/-- A write of a line that can only be read as request `n` adds that request at
most, and once. -/
theorem Exchange.carriers_write {g : Guard σ F} {i n k : Nat} {x y : Exchange F}
    {line : List UInt8} (hopened : y.opened = x.opened) (hwhole : Whole newline (x.stream k))
    (hline : ∃ body, newline ∉ body ∧ line = body ++ [newline])
    (hread : ∀ q, receive (F := F) line = some (.request q) → q.seq.toNat = n)
    (hself : y.stream k = x.stream k ++ line) (hother : ∀ l, l ≠ k → y.stream l = x.stream l) :
    y.carriers g i ≤ x.carriers g i + if n = g.number i then 1 else 0 := by
  have hterm : ∀ l ∈ x.opened, (carried (F := F) (y.stream l)).countP (hasNumber (g.number i)) ≤
      (carried (F := F) (x.stream l)).countP (hasNumber (g.number i)) +
        if l = k then (if n = g.number i then 1 else 0) else 0 := by
    intro l _
    by_cases hl : l = k
    · subst hl
      rw [if_pos rfl, hself]
      exact countP_carried_line hwhole hline hread _
    · rw [if_neg hl, hother l hl]
      exact Nat.le_refl _
  rw [carriers, carriers, hopened]
  refine (Finset.sum_le_sum hterm).trans ?_
  rw [Finset.sum_add_distrib, Finset.sum_ite_eq']
  refine Nat.add_le_add_left ?_ _
  split
  · exact Nat.le_refl _
  · exact Nat.zero_le _

end Exchange

/-! ## The invariant -/

section Invariant

variable {F : Type} [Float64 F] [RequestReader F] [Globset] [TextTools] [Sha256] {σ ν : Type}

/-- The invariant of an exchange, for one check of the guard. -/
structure Exchange.Inv (ctx : EnforcementContext F) (g : Guard σ F) (i : Nat) (x : Exchange F) :
    Prop where
  server : x.server.Inv ctx
  socket : ∀ k, x.socket = some k → k ∈ x.opened
  /-- Only whole lines are written, so the next one starts a frame. -/
  whole : ∀ k ∈ x.opened, (x.server.conns k).hungUp = false → Whole newline (x.stream k)
  idle : ∀ j, x.seq ≤ j → x.stage j = .idle
  unwritten : (x.stage i).isUnwritten = true → x.carriers g i = 0
  once : x.carriers g i ≤ 1

variable {ctx : EnforcementContext F} {g : Guard σ F} {i : Nat} {x y : Exchange F}

theorem Exchange.inv_start : (Exchange.start ctx).Inv ctx g i := by
  refine ⟨Server.inv_start, ?_, ?_, fun _ _ => rfl, fun _ => rfl, Nat.zero_le _⟩
  · intro k h
    cases h
  · intro k hk
    cases hk

/-- What only loses bytes, and only on connections that are gone, keeps it. -/
theorem Exchange.Inv.of_cut (h : x.Inv ctx g i) (hserver : y.server.Inv ctx)
    (hopened : y.opened = x.opened) (hsocket : ∀ k, y.socket = some k → x.socket = some k)
    (hstage : y.stage = x.stage) (hseq : y.seq = x.seq)
    (hcut : ∀ k ∈ x.opened, y.stream k <+: x.stream k)
    (hkept : ∀ k ∈ x.opened, (y.server.conns k).hungUp = false →
      (x.server.conns k).hungUp = false ∧ y.stream k = x.stream k) : y.Inv ctx g i := by
  have hle : y.carriers g i ≤ x.carriers g i := carriers_le hopened hcut
  refine ⟨hserver, fun k hk => ?_, fun k hk hup => ?_, fun j hj => ?_, fun hst => ?_,
    hle.trans h.once⟩
  · rw [hopened]
    exact h.socket k (hsocket k hk)
  · rw [hopened] at hk
    obtain ⟨hup', hstream⟩ := hkept k hk hup
    rw [hstream]
    exact h.whole k hk hup'
  · rw [hstage]
    exact h.idle j (hseq ▸ hj)
  · rw [hstage] at hst
    exact Nat.le_zero.1 (hle.trans (h.unwritten hst).le)

theorem Exchange.Inv.setStage {j : Nat} {stage : CheckStage} (h : x.Inv ctx g i)
    (hactive : x.stage j ≠ .idle)
    (hstage : stage.isUnwritten = true → (x.stage j).isUnwritten = true) :
    (x.setStage j stage).Inv ctx g i := by
  refine ⟨h.server, h.socket, h.whole, fun l hl => ?_, fun hst => ?_, h.once⟩
  · have hne : l ≠ j := by
      rintro rfl
      exact hactive (h.idle l hl)
    show Function.update x.stage j stage l = .idle
    rw [Function.update_of_ne hne]
    exact h.idle l hl
  · refine h.unwritten ?_
    change (Function.update x.stage j stage i).isUnwritten = true at hst
    by_cases hij : i = j
    · subst hij
      rw [Function.update_self] at hst
      exact hstage hst
    · rwa [Function.update_of_ne hij] at hst

theorem Exchange.Inv.hangUp {k : Nat} (h : x.Inv ctx g i) : (x.hangUp k).Inv ctx g i := by
  have hstep : x.server.step (.conn k .hangUp) = some (x.hangUp k).server := rfl
  have hserver := h.server.step hstep
  refine h.of_cut hserver rfl (fun _ hl => hl) rfl rfl (fun l _ => ?_) (fun l _ hup => ?_)
  · show (Function.update x.server.conns k { x.server.conns k with hungUp := true } l).sent ++
      Function.update x.queued k [] l <+: x.stream l
    by_cases hl : l = k
    · subst hl
      rw [Function.update_self, Function.update_self, List.append_nil]
      exact List.prefix_append _ _
    · rw [Function.update_of_ne hl, Function.update_of_ne hl]
      exact List.prefix_rfl
  · change (Function.update x.server.conns k { x.server.conns k with hungUp := true } l).hungUp =
      false at hup
    by_cases hl : l = k
    · subst hl
      rw [Function.update_self] at hup
      cases hup
    · rw [Function.update_of_ne hl] at hup
      refine ⟨hup, ?_⟩
      show (Function.update x.server.conns k { x.server.conns k with hungUp := true } l).sent ++
        Function.update x.queued k [] l = x.stream l
      rw [Function.update_of_ne hl, Function.update_of_ne hl]
      rfl

theorem Exchange.Inv.close (h : x.Inv ctx g i) : x.close.Inv ctx g i := by
  unfold Exchange.close
  split
  · exact h
  case h_2 k hk =>
    have hgone := h.hangUp (k := k)
    refine ⟨hgone.server, fun l hl => ?_, hgone.whole, hgone.idle, hgone.unwritten, hgone.once⟩
    cases hl

theorem Exchange.Inv.connect {k : Nat} (h : x.Inv ctx g i) (hk : k ∉ x.opened)
    (hsent : (x.server.conns k).sent = []) : (x.connect k).Inv ctx g i := by
  have hcarriers : (x.connect k).carriers g i = x.carriers g i := carriers_connect hk hsent
  refine ⟨h.server, fun l hl => ?_, fun l hl hup => ?_, h.idle, fun hst => ?_, ?_⟩
  · obtain rfl := Option.some.inj hl
    exact Finset.mem_insert_self _ _
  · show Whole newline ((x.server.conns l).sent ++ Function.update x.queued k [] l)
    rcases Finset.mem_insert.1 hl with rfl | hl
    · rw [Function.update_self, hsent]
      exact .nil
    · rw [Function.update_of_ne (ne_of_mem_of_not_mem hl hk)]
      exact h.whole l hl hup
  · rw [hcarriers]
    exact h.unwritten hst
  · rw [hcarriers]
    exact h.once

theorem Exchange.Inv.raise {j : Nat} {attempt : Attempt} (h : x.Inv ctx g i)
    (hactive : x.stage j ≠ .idle) : (x.raise j attempt).Inv ctx g i := by
  cases attempt with
  | first =>
    refine h.close.setStage ?_ (fun hst => by cases hst)
    rw [stage_close]
    exact hactive
  | second => exact h.setStage hactive (fun hst => by cases hst)

omit [Globset] [TextTools] [Sha256] in
/-- The steps of a handler leave what its peer has sent. -/
theorem peer_of_step {c d : Conn F} {event : ConnEvent} (hstep : c.step event = some d)
    (h : clientOf (F := F) (.conn 0 event) = none) : d.sent = c.sent ∧ d.hungUp = c.hungUp := by
  cases event with
  | send bytes => cases h
  | hangUp => cases h
  | fill n =>
    obtain ⟨_, _, _, ⟨_, _, rfl⟩ | ⟨_, _, rfl⟩⟩ := Conn.step_fill hstep
    · exact ⟨rfl, rfl⟩
    · exact ⟨rfl, rfl⟩
  | scan ts =>
    obtain ⟨accumulated, _, _, rfl⟩ := Conn.step_scan hstep
    unfold Conn.scanned
    split <;> exact ⟨rfl, rfl⟩
  | respond =>
    rw [Conn.step] at hstep
    split at hstep
    · obtain rfl := Option.some.inj hstep
      exact ⟨rfl, rfl⟩
    · cases hstep

/-- Neither does a step of the server for a connection that no client of it
takes. -/
theorem peer_of_serverStep {s t : Server F} {event : ServerEvent F} {k : Nat}
    (hstep : s.step event = some t) (h : clientOf event ≠ some k) :
    (t.conns k).sent = (s.conns k).sent ∧ (t.conns k).hungUp = (s.conns k).hungUp := by
  cases event with
  | conn l event =>
    rw [Server.step, Option.map_eq_some_iff] at hstep
    obtain ⟨c, hc, rfl⟩ := hstep
    show (Function.update s.conns l c k).sent = _ ∧ (Function.update s.conns l c k).hungUp = _
    by_cases hk : k = l
    · subst hk
      rw [Function.update_self]
      refine peer_of_step hc ?_
      cases event with
      | send bytes => exact absurd rfl h
      | hangUp => exact absurd rfl h
      | fill n => rfl
      | scan ts => rfl
      | respond => rfl
    · rw [Function.update_of_ne hk]
      exact ⟨rfl, rfl⟩
  | enforce l env =>
    rw [Server.step] at hstep
    split at hstep
    case h_1 request hphase =>
      obtain rfl := Option.some.inj hstep
      by_cases hk : k = l
      · subst hk
        rw [Server.conns_afterEnforce_self]
        exact ⟨rfl, rfl⟩
      · rw [Server.conns_afterEnforce_of_ne s hk]
        exact ⟨rfl, rfl⟩
    case h_2 => cases hstep

/-- A step of the engine, or of another client on a connection of its own. -/
theorem Exchange.Inv.serverStep {event : ServerEvent F} {server : Server F}
    (h : x.Inv ctx g i) (hstep : x.server.step event = some server)
    (hclient : ¬ ∃ k ∈ x.opened, clientOf event = some k) :
    Exchange.Inv ctx g i { x with server := server } := by
  have hpeer : ∀ k ∈ x.opened, (server.conns k).sent = (x.server.conns k).sent ∧
      (server.conns k).hungUp = (x.server.conns k).hungUp :=
    fun k hk => peer_of_serverStep hstep fun hevent => hclient ⟨k, hk, hevent⟩
  have hstream : ∀ k ∈ x.opened,
      Exchange.stream { x with server := server } k = x.stream k := by
    intro k hk
    show (server.conns k).sent ++ x.queued k = _
    rw [(hpeer k hk).1]
    rfl
  refine h.of_cut (h.server.step hstep) rfl (fun _ hl => hl) rfl rfl (fun k hk => ?_)
    (fun k hk hup => ⟨?_, hstream k hk⟩)
  · rw [hstream k hk]
  · rw [← (hpeer k hk).2]
    exact hup

theorem Exchange.Inv.deliver {k n : Nat} {server : Server F} (h : x.Inv ctx g i)
    (hstep : x.server.step (.conn k (.send ((x.queued k).take n))) = some server) :
    Exchange.Inv ctx g i { x with
      server := server
      queued := Function.update x.queued k ((x.queued k).drop n) } := by
  have hserver := h.server.step hstep
  rw [Server.step, Option.map_eq_some_iff] at hstep
  obtain ⟨c, hc, rfl⟩ := hstep
  rw [Conn.step] at hc
  split at hc
  case isTrue => cases hc
  case isFalse hup =>
    obtain rfl := Option.some.inj hc
    have hstream : ∀ l, Exchange.stream { x with
        server := { x.server with
          conns := Function.update x.server.conns k { x.server.conns k with
            sent := (x.server.conns k).sent ++ (x.queued k).take n
            unread := (x.server.conns k).unread ++ (x.queued k).take n } }
        queued := Function.update x.queued k ((x.queued k).drop n) } l = x.stream l := by
      intro l
      unfold Exchange.stream
      dsimp only
      by_cases hl : l = k
      · subst hl
        rw [Function.update_self, Function.update_self, List.append_assoc, List.take_append_drop]
      · rw [Function.update_of_ne hl, Function.update_of_ne hl]
    refine h.of_cut hserver rfl (fun _ hl => hl) rfl rfl (fun l _ => ?_)
      (fun l _ hup' => ⟨?_, hstream l⟩)
    · rw [hstream l]
    · change (Function.update x.server.conns k _ l).hungUp = false at hup'
      by_cases hl : l = k
      · subst hl
        exact Bool.not_eq_true _ ▸ hup
      · rwa [Function.update_of_ne hl] at hup'

/-- The next check starts with nothing written. -/
theorem Exchange.Inv.check {stage : CheckStage} (h : x.Inv ctx g i) :
    Exchange.Inv ctx g i { x.setStage x.seq stage with seq := x.seq + 1 } := by
  refine ⟨h.server, h.socket, h.whole, fun j hj => ?_, fun hst => ?_, h.once⟩
  · have hlt : x.seq < j := hj
    show Function.update x.stage x.seq stage j = .idle
    rw [Function.update_of_ne hlt.ne']
    exact h.idle j hlt.le
  · refine h.unwritten ?_
    change (Function.update x.stage x.seq stage i).isUnwritten = true at hst
    by_cases hi : i = x.seq
    · rw [hi, h.idle x.seq (Nat.le_refl _)]
      rfl
    · rwa [Function.update_of_ne hi] at hst

variable {shim : Language σ ν} {calls : Nat → CheckArgs σ ν}

/-- The engine reads in the line of a check the number of the check. -/
def ReadsNumber (shim : Language σ ν) (g : Guard σ F) (calls : Nat → CheckArgs σ ν) : Prop :=
  ∀ i line q, g.line shim calls i = some line → receive (F := F) line = some (.request q) →
    q.seq.toNat = g.number i

/-- A line is written for the first time, or the engine has not had it. -/
theorem Exchange.Inv.write {j k : Nat} {attempt : Attempt} {line : List UInt8}
    (hlines : shim.OneLine) (hreads : ReadsNumber shim g calls) (h : x.Inv ctx g i)
    (hstage : x.stage j = .sending attempt) (hsocket : x.socket = some k)
    (hline : g.line shim calls j = some line) (hup : (x.server.conns k).hungUp = false)
    (hunheard : j = i → attempt = .second → x.Unheard g i) :
    Exchange.Inv ctx g i { x.setStage j (.awaiting attempt) with
      queued := Function.update x.queued k (x.queued k ++ line) } := by
  have hk := h.socket k hsocket
  have hbody : ∃ body, newline ∉ body ∧ line = body ++ [newline] := by
    obtain ⟨r, -, hr⟩ := Option.bind_eq_some_iff.1 hline
    exact hlines r line hr
  set y : Exchange F := { x.setStage j (.awaiting attempt) with
    queued := Function.update x.queued k (x.queued k ++ line) } with hy
  have hself : y.stream k = x.stream k ++ line := by
    show (x.server.conns k).sent ++ Function.update x.queued k (x.queued k ++ line) k = _
    rw [Function.update_self, ← List.append_assoc]
    rfl
  have hother : ∀ l, l ≠ k → y.stream l = x.stream l := by
    intro l hl
    show (x.server.conns l).sent ++ Function.update x.queued k (x.queued k ++ line) l = _
    rw [Function.update_of_ne hl]
    rfl
  have hle : y.carriers g i ≤ x.carriers g i + if g.number j = g.number i then 1 else 0 :=
    carriers_write rfl (h.whole k hk hup) hbody (fun q hq => hreads j line q hline hq) hself hother
  refine ⟨h.server, h.socket, fun l hl hup' => ?_, fun l hl => ?_, fun hst => ?_, ?_⟩
  · by_cases hlk : l = k
    · subst hlk
      obtain ⟨body, -, rfl⟩ := hbody
      rw [hself]
      exact .append_frame _ _
    · rw [hother l hlk]
      exact h.whole l hl hup'
  · have hne : l ≠ j := by
      rintro rfl
      rw [h.idle l hl] at hstage
      cases hstage
    show Function.update x.stage j (.awaiting attempt) l = .idle
    rw [Function.update_of_ne hne]
    exact h.idle l hl
  · change (Function.update x.stage j (.awaiting attempt) i).isUnwritten = true at hst
    by_cases hij : i = j
    · subst hij
      rw [Function.update_self] at hst
      cases hst
    · rw [Function.update_of_ne hij] at hst
      have hnumber : g.number j ≠ g.number i := by
        unfold Guard.number
        omega
      rw [if_neg hnumber, h.unwritten hst] at hle
      exact Nat.le_zero.1 hle
  · by_cases hij : j = i
    · subst hij
      have hnone : x.carriers g j = 0 := by
        cases attempt with
        | first => exact h.unwritten (by rw [hstage]; rfl)
        | second => exact carriers_eq_zero (hunheard rfl rfl)
      rwa [hnone, if_pos rfl] at hle
    · have hnumber : g.number j ≠ g.number i := by
        unfold Guard.number
        omega
      rw [if_neg hnumber] at hle
      exact hle.trans h.once

/-- A check writes its request again only if the engine does not have it. -/
def ResendsUnheard (g : Guard σ F) (i : Nat) (x : Exchange F) : ExchangeEvent F → Prop
  | .write j => j = i → x.stage i = .sending .second → x.Unheard g i
  | _ => True

instance (g : Guard σ F) (i : Nat) (x : Exchange F) :
    ∀ event, Decidable (ResendsUnheard g i x event)
  | .write j =>
    inferInstanceAs (Decidable (j = i → x.stage i = .sending .second → x.Unheard g i))
  | .server _ | .check | .ensureConnected _ | .connected .. | .deliver .. | .broken _ | .reply _
  | .raise _ | .close => inferInstanceAs (Decidable True)

/-- **What a step of the exchange preserves.** -/
theorem Exchange.Inv.step {event : ExchangeEvent F} (hlines : shim.OneLine)
    (hreads : ReadsNumber shim g calls) (h : x.Inv ctx g i) (hC : ResendsUnheard g i x event)
    (hstep : x.step shim g calls event = some y) : y.Inv ctx g i := by
  cases event with
  | server event =>
    simp only [Exchange.step] at hstep
    split at hstep
    case isTrue => cases hstep
    case isFalse hclient =>
      obtain ⟨server, hserver, rfl⟩ := Option.map_eq_some_iff.1 hstep
      exact h.serverStep hserver hclient
  | check =>
    obtain rfl := Option.some.inj hstep
    exact h.check
  | ensureConnected j =>
    simp only [Exchange.step] at hstep
    split at hstep
    case h_1 attempt hstage =>
      obtain rfl := Option.some.inj hstep
      refine h.setStage (by rw [hstage]; exact fun hidle => by cases hidle) (fun hst => ?_)
      rw [hstage]
      cases attempt with
      | first => rfl
      | second => split at hst <;> cases hst
    case h_2 => cases hstep
  | connected j k =>
    simp only [Exchange.step] at hstep
    split at hstep
    case isTrue => cases hstep
    case isFalse hfresh =>
      rw [not_or, not_or, not_not] at hfresh
      obtain ⟨hk, hsent, -⟩ := hfresh
      have hconnect := h.connect hk hsent
      split at hstep
      case h_1 attempt hstage =>
        obtain rfl := Option.some.inj hstep
        have hj : (x.connect k).stage j = .connecting attempt := hstage
        refine hconnect.setStage (by rw [hj]; exact fun hidle => by cases hidle) (fun hst => ?_)
        rw [hj]
        cases attempt with
        | first => rfl
        | second => cases hst
      case h_2 hstage =>
        obtain rfl := Option.some.inj hstep
        have hj : (x.connect k).stage j = .reconnecting := hstage
        exact hconnect.setStage (by rw [hj]; exact fun hidle => by cases hidle)
          (fun hst => by cases hst)
      case h_3 => cases hstep
  | write j =>
    simp only [Exchange.step] at hstep
    split at hstep
    case h_1 attempt k line hstage hsocket hline =>
      split at hstep
      case isTrue => cases hstep
      case isFalse hfits =>
        obtain rfl := Option.some.inj hstep
        rw [not_or, Bool.not_eq_true] at hfits
        refine h.write hlines hreads hstage hsocket hline hfits.2 (fun hij hattempt => ?_)
        subst hij
        subst hattempt
        exact hC rfl hstage
    case h_2 => cases hstep
  | deliver k n =>
    simp only [Exchange.step] at hstep
    split at hstep
    case isTrue hk =>
      obtain ⟨server, hserver, rfl⟩ := Option.map_eq_some_iff.1 hstep
      exact h.deliver hserver
    case isFalse => cases hstep
  | broken k =>
    simp only [Exchange.step] at hstep
    split at hstep
    · obtain rfl := Option.some.inj hstep
      exact h.hangUp
    · cases hstep
  | reply j =>
    simp only [Exchange.step] at hstep
    split at hstep
    case h_1 attempt hstage =>
      obtain rfl := Option.some.inj hstep
      exact h.setStage (by rw [hstage]; exact fun hidle => by cases hidle)
        (fun hst => by cases hst)
    case h_2 => cases hstep
  | raise j =>
    simp only [Exchange.step] at hstep
    split at hstep
    case h_5 hstage =>
      obtain rfl := Option.some.inj hstep
      exact h.setStage (by rw [hstage]; exact fun hidle => by cases hidle)
        (fun hst => by cases hst)
    case h_6 => cases hstep
    all_goals
      rename_i attempt hstage
      obtain rfl := Option.some.inj hstep
      exact h.raise (by rw [hstage]; exact fun hidle => by cases hidle)
  | close =>
    obtain rfl := Option.some.inj hstep
    exact h.close

end Invariant

/-! ## Accounting -/

section Accounting

variable {F : Type} [Float64 F]

/-- The calls of `enforce` that a check has caused. -/
def Exchange.callsOf {σ : Type} (x : Exchange F) (g : Guard σ F) (i : Nat) : List (Call F) :=
  (x.server.calls.filter fun p => decide (p.1 ∈ x.opened) && hasNumber (g.number i) p.2.request).map
    Prod.snd

/-- Elements counted by their tag. -/
theorem countP_mem_eq_sum {β : Type} (s : Finset Nat) (p : β → Bool) (l : List (Nat × β)) :
    l.countP (fun b => decide (b.1 ∈ s) && p b.2) =
      ∑ k ∈ s, ((l.filter fun b => b.1 = k).map Prod.snd).countP p := by
  induction l with
  | nil => simp
  | cons b l ih =>
    have hterm : ∀ k, (((b :: l).filter fun b => b.1 = k).map Prod.snd).countP p =
        ((l.filter fun b => b.1 = k).map Prod.snd).countP p +
          if b.1 = k then (if p b.2 then 1 else 0) else 0 := by
      intro k
      by_cases hk : b.1 = k
      · rw [List.filter_cons_of_pos (by simpa using hk), List.map_cons, List.countP_cons, if_pos hk]
      · rw [List.filter_cons_of_neg (by simpa using hk), if_neg hk, Nat.add_zero]
    simp only [hterm]
    rw [List.countP_cons, ih, Finset.sum_add_distrib, Finset.sum_ite_eq]
    congr 1
    by_cases hb : b.1 ∈ s
    · simp [hb]
    · simp [hb]

/-- What is enforced for a check is carried by the connections of the guard. -/
theorem Exchange.length_callsOf_le {σ : Type} [RequestReader F] [Globset] [TextTools] [Sha256]
    {ctx : EnforcementContext F} {x : Exchange F} (h : x.server.Inv ctx) (g : Guard σ F) (i : Nat) :
    (x.callsOf g i).length ≤ x.carriers g i := by
  rw [callsOf, List.length_map, ← List.countP_eq_length_filter,
    countP_mem_eq_sum x.opened (fun c : Call F => hasNumber (g.number i) c.request) x.server.calls]
  refine Finset.sum_le_sum fun k _ => ?_
  have henforced : enforcedFor x.server.calls k <+: carried (x.stream k) :=
    ((h.conns k).served.requests).trans (carried_mono (List.prefix_append _ _))
  rw [enforcedFor] at henforced
  have hcount := henforced.sublist.countP_le (p := hasNumber (g.number i))
  rw [List.countP_map] at hcount ⊢
  exact hcount

variable [Globset] [TextTools] [Sha256]

/-- What one call of `enforce` adds: a call to the totals of its run, an entry
at most to its window, and the one decision event it submits to the log. -/
structure AddsOnce (ctx : EnforcementContext F) (c : Call F) : Prop where
  budget : ((process ctx c).1.budgetTracker.totals c.request.runId).callCount =
    (ctx.budgetTracker.totals c.request.runId).callCount + 1
  window : ∃ entry, List.Sublist ((process ctx c).1.loopDetector.state c.request.runId).callHistory
    ((ctx.loopDetector.state c.request.runId).callHistory ++ [entry])
  decision : ((submitted c.request c.env ctx).filter fun e => e.1.isDecision).map (·.1.key) =
    [c.request.key]

omit [Globset] [TextTools] [Sha256] in
theorem callHistory_check (d : LoopDetector) (request : Engine.DecisionRequest F)
    (config : LoopDetectionConfig) (now : Nat) :
    ∃ entry, List.Sublist ((d.check request config now).2.state request.runId).callHistory
      ((d.state request.runId).callHistory ++ [entry]) := by
  refine ⟨⟨request.tool, request.argsHash, now⟩, ?_⟩
  unfold LoopDetector.check
  split
  · exact List.sublist_append_left _ _
  · dsimp only
    rw [LoopDetector.state, states_set_self, Option.getD_some, callHistory_runCheck]
    exact List.dropWhile_sublist _

theorem addsOnce (ctx : EnforcementContext F) (c : Call F) : AddsOnce ctx c := by
  refine ⟨?_, ?_, ?_⟩
  · rw [process, totals_enforce]
    rfl
  · rw [process, loopDetector_enforce]
    by_cases htool : c.request.tool = escalateTool
    · rw [evaluate_escalate htool]
      exact ⟨⟨"", "", 0⟩, List.sublist_append_left _ _⟩
    · cases hcap : (budgetPreCheck ctx.policy ctx.budgetTracker c.request.runId).isSome with
      | true =>
        obtain ⟨dimension, current, cap, heq⟩ :=
          evaluate_overCap htool hcap ctx.loopDetector c.env.evaluateTs c.env.checkNow
        rw [heq]
        exact ⟨⟨"", "", 0⟩, List.sublist_append_left _ _⟩
      | false =>
        rw [evaluate_check htool hcap]
        exact callHistory_check ..
  · unfold submitted
    cases (ctx.budgetTracker.record c.request.runId c.request.update
      ctx.policy.policy.budget).1 with
    | softCapWarning dimension current cap =>
      dsimp only
      split <;> rfl
    | ok => rfl
    | hardCapExceeded dimension current cap => rfl

end Accounting

section Theorem

variable {F : Type} [Float64 F] [RequestReader F] [Globset] [TextTools] [Sha256] {σ ν : Type}
  {shim : Language σ ν} {g : Guard σ F} {calls : Nat → CheckArgs σ ν}

/-- **At-most-once accounting.**  In a run in which a check writes its request a
second time only if the engine does not have it from the first, the engine
enforces the check once at most; and a call of `enforce` adds one call to the
budget of its run, one entry at most to its loop window and one decision event
with its number to the log. -/
theorem enforced_at_most_once (hlines : shim.OneLine) (hreads : ReadsNumber shim g calls)
    {ctx : EnforcementContext F} {events : List (ExchangeEvent F)} {x : Exchange F} {i : Nat}
    (hrun : Run.exec (Exchange.step shim g calls) (.start ctx) events = some x)
    (hC : Run.AllEvents (Exchange.step shim g calls) (ResendsUnheard g i) (.start ctx) events) :
    (x.callsOf g i).length ≤ 1 ∧
    x.server.ctx = Run.stateAfter process ctx (x.server.calls.map Prod.snd) ∧
    ∀ before p after, x.server.calls = before ++ p :: after →
      AddsOnce (Run.stateAfter process ctx (before.map Prod.snd)) p.2 := by
  have hinv : x.Inv ctx g i :=
    Run.exec_invariant _ (fun _ _ _ h hC hstep => h.step hlines hreads hC hstep)
      Exchange.inv_start hC hrun
  refine ⟨(Exchange.length_callsOf_le hinv.server g i).trans hinv.once, hinv.server.ctx_eq, ?_⟩
  exact fun before p _ _ => addsOnce _ p.2

end Theorem

/-! ## Two runs -/

namespace Sample

open Engine.Sample

/-- The arguments of the first check; the others hold a text that has no
UTF-8 encoding. -/
def searches (i : Nat) : CheckArgs Py.Str ℤ where
  toolName := if i = 0 then Py.lit "search" else [.surrogate 0]
  args := none
  inputTokens := none
  outputTokens := none
  estimatedCostUsd := none
  ts := Py.lit ""

/-- The request of the first check. -/
def searchText : List Char :=
  "\x7b\"schema_version\":1,\"run_id\":\"run\",\"seq\":1,\"tool\":\"search\",\"args_hash\":\"".toList ++
    List.replicate 64 '0' ++ "\",\"ts\":\"\"\x7d".toList

/-- A reader that knows this request. -/
scoped instance (priority := high) searchReader : RequestReader ℚ :=
  ⟨fun text =>
    if text = searchText then .ok (Engine.Sample.call "run" "search" 1 none 0).request
    else .error "expected value at line 1 column 1"⟩

/-- The handler of a connection reads a request and has it enforced. -/
def enforces (k : Nat) : List (ExchangeEvent ℚ) :=
  [.server (.conn k (.fill 8192)), .server (.conn k (.scan "")),
    .server (.enforce k (Engine.Sample.call "run" "search" 1 none 0).env)]

/-- After a failure: the reconnect, and the request again. -/
def resends : List (ExchangeEvent ℚ) :=
  [.raise 0, .connected 0 1, .ensureConnected 0, .write 0, .deliver 1 8192]

/-- The first connection breaks in the middle of the request. -/
def cutShort : List (ExchangeEvent ℚ) :=
  [.check, .ensureConnected 0, .connected 0 0, .write 0, .deliver 0 40, .broken 0] ++ resends ++
    enforces 1 ++ [.server (.conn 1 .respond), .reply 0]

/-- The reply to the first request does not come in time. -/
def timedOut : List (ExchangeEvent ℚ) :=
  [.check, .ensureConnected 0, .connected 0 0, .write 0, .deliver 0 8192] ++ enforces 0 ++
    resends ++ enforces 1

/-- The later checks cannot be written. -/
theorem line_searches {i : Nat} (hi : i ≠ 0) :
    (guard Py.lit).line Py.language searches i = none := by
  have htool : (searches i).toolName = [.surrogate 0] := if_neg hi
  rw [Guard.line, Guard.request]
  simp [Py.language, Py.toNdjson, DecisionRequest.toDict, Py.encodeMembers, Py.encodeValue, htool,
    Py.encode, Py.CodePoint.encode]

theorem readsNumber_searches : ReadsNumber (F := ℚ) Py.language (guard Py.lit) searches := by
  intro i line q hline hread
  by_cases hi : i = 0
  · subst hi
    have hseq : (((guard Py.lit).line Py.language searches 0).bind fun line =>
        (receive (F := ℚ) line).bind Message.request?).map (fun q => q.seq.toNat) = some 1 := by
      decide +kernel
    rw [hline, Option.bind_some, hread] at hseq
    exact Option.some.inj hseq
  · rw [line_searches hi] at hline
    cases hline

end Sample

open Engine.Sample Sample in
theorem enforced_at_most_once_cutShort :
    ∃ x, Run.exec (Exchange.step Py.language (guard Py.lit) searches)
        (.start (.new (compiled none none) "audit.jsonl" [])) cutShort = some x ∧
      x.callsOf (guard Py.lit) 0 ≠ [] ∧ (x.callsOf (guard Py.lit) 0).length ≤ 1 := by
  have hcalls : (Run.exec (Exchange.step Py.language (guard Py.lit) searches)
      (.start (.new (compiled none none) "audit.jsonl" [])) cutShort).map
        (fun x => (x.callsOf (guard Py.lit) 0).length) = some 1 := by decide +kernel
  obtain ⟨x, hx, hlength⟩ := Option.map_eq_some_iff.1 hcalls
  refine ⟨x, hx, ?_, ?_⟩
  · intro hnil
    rw [hnil] at hlength
    cases hlength
  · exact (enforced_at_most_once (Py.oneLine Json.isNumber_intText) readsNumber_searches hx
      (by decide +kernel)).1

open Engine.Sample Sample in
/-- **A check is enforced twice** when the engine has its request and the reply
is lost. -/
theorem not_enforced_at_most_once :
    ¬ ∀ events x, Run.exec (Exchange.step Py.language (guard Py.lit) searches)
        (.start (.new (compiled none none) "audit.jsonl" [])) events = some x →
      ∀ i, (x.callsOf (guard Py.lit) i).length ≤ 1 := by
  intro h
  have hcalls : (Run.exec (Exchange.step Py.language (guard Py.lit) searches)
      (.start (.new (compiled none none) "audit.jsonl" [])) timedOut).map
        (fun x => (x.callsOf (guard Py.lit) 0).length) = some 2 := by decide +kernel
  obtain ⟨x, hx, hlength⟩ := Option.map_eq_some_iff.1 hcalls
  have hle := h timedOut x hx 0
  omega

end LoopStorm.Shim
