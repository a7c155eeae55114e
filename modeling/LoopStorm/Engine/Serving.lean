import LoopStorm.Engine.Log
import LoopStorm.Engine.Server

/-!
# What a connection is answered

The bytes a peer sends decide what it is answered, however they arrive and
whatever the other connections do.

* `messages` — the lines of a stream that call for an answer: every complete
  line that is not blank, and a line that has outgrown the limit.
* `answerable` — the same up to and including the first that is refused.
* `Conn.Inv` — how far a handler is with its stream; `Conn.Inv.step` is what
  one step preserves, `inv_exec` what a run does.
* `serves` — **the server protocol**: one answer for each answerable message,
  in order; the valid ones are passed to `enforce` once each, and nothing else.
-/

namespace LoopStorm.Engine

open LoopStorm.Shim (newline splitLine writeResponse)
open Frames

variable {F : Type} [Float64 F] [RequestReader F]

/-! ## The messages of a stream -/

/-- What a frame of the stream calls for.  One that exceeds the limit is refused
before its newline has come. -/
def frameMessage (frame : List UInt8) : Option (Message F) :=
  if maxMessageBytes < frame.length then some (.refused .tooLarge)
  else if frame.getLast? = some newline then receive frame
  else none

/-- The messages of a stream. -/
def messages (stream : List UInt8) : List (Message F) :=
  (frames newline stream).filterMap frameMessage

/-- The message closes its connection. -/
def Message.isRefused : Message F → Bool
  | .request _ => false
  | .refused _ => true

/-- The request of a message. -/
def Message.request? : Message F → Option (DecisionRequest F)
  | .request r => some r
  | .refused _ => none

/-- The messages that are answered: all up to the first erroneous one. -/
def answerable (stream : List UInt8) : List (Message F) :=
  upTo Message.isRefused (messages stream)

@[simp] theorem messages_nil : messages (F := F) [] = [] := rfl

theorem messages_append {head : List UInt8} (h : Whole newline head) (tail : List UInt8) :
    messages (F := F) (head ++ tail) = messages head ++ messages tail := by
  rw [messages, frames_append h, List.filterMap_append]
  rfl

/-- The message of a line at the front of a stream is the first. -/
theorem messages_line {line : List UInt8} (h : newline ∉ line) (rest : List UInt8) :
    messages (F := F) (line ++ newline :: rest) =
      (frameMessage (line ++ [newline])).toList ++ messages rest := by
  rw [messages, frames_closed h]
  cases hm : frameMessage (F := F) (line ++ [newline]) with
  | none => rw [List.filterMap_cons_none hm]; rfl
  | some m => rw [List.filterMap_cons_some hm]; rfl

/-- An unterminated fragment within the limit is no message. -/
theorem messages_open {line : List UInt8} (h : newline ∉ line)
    (hlen : line.length ≤ maxMessageBytes) : messages (F := F) line = [] := by
  have hlast : line.getLast? ≠ some newline := fun hl => h (List.mem_of_getLast? hl)
  rw [messages, frames_open h]
  split
  · rfl
  · rw [List.filterMap_cons_none, List.filterMap_nil]
    rw [frameMessage, if_neg (Nat.not_lt.2 hlen), if_neg hlast]

/-- A line over the limit is refused, whatever comes behind it. -/
theorem messages_overrun {line : List UInt8} (h : newline ∉ line)
    (hlen : maxMessageBytes < line.length) (rest : List UInt8) :
    ∃ tail, messages (F := F) (line ++ rest) = .refused .tooLarge :: tail := by
  have hne : line ≠ [] := by
    rintro rfl
    exact absurd hlen (Nat.not_lt_zero _)
  obtain ⟨more, tail, hframes⟩ := frames_overrun h hne rest
  refine ⟨tail.filterMap frameMessage, ?_⟩
  rw [messages, hframes, List.filterMap_cons_some]
  rw [frameMessage, if_pos]
  rw [List.length_append]
  omega

omit [RequestReader F] in
theorem filterMap_request? (rs : List (DecisionRequest F)) :
    (rs.map Message.request).filterMap Message.request? = rs := by
  rw [List.filterMap_map]
  exact List.filterMap_some

/-- Behind valid requests the rest of the stream decides. -/
theorem answerable_append {head : List UInt8} {rs : List (DecisionRequest F)}
    (hwhole : Whole newline head) (h : messages head = rs.map Message.request)
    (tail : List UInt8) :
    answerable (head ++ tail) = rs.map Message.request ++ answerable tail := by
  have hvalid : ∀ m ∈ rs.map (Message.request (F := F)), m.isRefused = false := by
    intro m hm
    obtain ⟨r, -, rfl⟩ := List.mem_map.1 hm
    rfl
  rw [answerable, messages_append hwhole, h, upTo_append hvalid]
  rfl

theorem answerable_of_refused {stream : List UInt8} {refusal : Refusal} {tail : List (Message F)}
    (h : messages stream = .refused refusal :: tail) :
    answerable stream = [Message.refused (F := F) refusal] := by
  rw [answerable, h]
  exact upTo_cons_of_pos rfl tail

/-- What has arrived has the first messages of the whole stream. -/
theorem prefix_messages (stream more : List UInt8) :
    messages (F := F) stream <+: messages (stream ++ more) := by
  obtain ⟨head, line, hwhole, hline, rfl⟩ := exists_whole_append newline stream
  rw [List.append_assoc, messages_append hwhole, messages_append hwhole,
    List.prefix_append_right_inj]
  by_cases hlen : line.length ≤ maxMessageBytes
  · rw [messages_open hline hlen]
    exact List.nil_prefix
  · -- the fragment is refused already, and stays so
    have hlarge := Nat.not_le.1 hlen
    obtain ⟨tail, htail⟩ := messages_overrun (F := F) hline hlarge more
    have hne : line ≠ [] := by
      rintro rfl
      exact absurd hlarge (Nat.not_lt_zero _)
    have hrefused : frameMessage (F := F) line = some (.refused .tooLarge) := by
      rw [frameMessage, if_pos hlarge]
    rw [htail, messages, frames_open hline, if_neg hne, List.filterMap_cons_some hrefused,
      List.filterMap_nil]
    exact List.prefix_append [_] tail

theorem prefix_answerable (stream more : List UInt8) :
    answerable (F := F) stream <+: answerable (stream ++ more) := by
  obtain ⟨tail, htail⟩ := prefix_messages (F := F) stream more
  rw [answerable, answerable, ← htail]
  exact upTo_prefix_append ..

/-- A line behind whole frames adds at most its own message. -/
theorem answerable_line {head line : List UInt8} (hwhole : Whole newline head)
    (hline : newline ∉ line) :
    answerable (F := F) (head ++ (line ++ [newline])) <+:
      answerable head ++ (frameMessage (line ++ [newline])).toList := by
  have hmessages : messages (F := F) (head ++ (line ++ [newline])) =
      messages head ++ (frameMessage (line ++ [newline])).toList := by
    rw [messages_append hwhole, messages_line hline, messages_nil, List.append_nil]
  rw [answerable, hmessages]
  exact prefix_upTo_append ..

/-! ## One turn of the reader -/

/-- A turn of the reader: it finds the newline, or it takes all it has. -/
theorem readLineLimited_cases (accumulated available : List UInt8) :
    (∃ line rest, newline ∉ line ∧ available = line ++ newline :: rest ∧
      readLineLimited accumulated available =
        .inl (if maxMessageBytes < (accumulated ++ (line ++ [newline])).length then .tooLarge
          else .line (accumulated ++ (line ++ [newline])), rest)) ∨
    newline ∉ available ∧ readLineLimited accumulated available =
      if maxMessageBytes < (accumulated ++ available).length then .inl (.tooLarge, [])
      else .inr (accumulated ++ available) := by
  by_cases h : newline ∈ available
  · obtain ⟨line, rest, rfl, hline⟩ := List.eq_append_cons_of_mem h
    refine .inl ⟨line, rest, hline, rfl, ?_⟩
    unfold readLineLimited
    rw [Shim.splitLine_append hline]
    dsimp only
    split <;> rfl
  · refine .inr ⟨h, ?_⟩
    unfold readLineLimited
    rw [Shim.splitLine_of_notMem h]

/-! ## A handler and its stream -/

section Handler

variable (A : Message F → DecisionResponse F → Prop)

/-- How far a handler is: `enforced` are the requests it has passed to
`enforce`, `responses` the answers it has written, and `A` says which answer
belongs to which message. -/
def Conn.Progress (enforced : List (DecisionRequest F)) (responses : List (DecisionResponse F))
    (c : Conn F) : Prop :=
  match c.phase with
  | .reading accumulated =>
    ∃ head, Whole newline head ∧ c.sent = head ++ (accumulated ++ (c.buffered ++ c.unread)) ∧
      messages head = enforced.map Message.request ∧
      newline ∉ accumulated ∧ accumulated.length ≤ maxMessageBytes ∧
      List.Forall₂ A (enforced.map .request) responses
  | .requesting r =>
    ∃ head, Whole newline head ∧ c.sent = head ++ (c.buffered ++ c.unread) ∧
      messages head = (enforced ++ [r]).map Message.request ∧
      List.Forall₂ A (enforced.map .request) responses
  | .responding response false =>
    ∃ head, Whole newline head ∧ c.sent = head ++ (c.buffered ++ c.unread) ∧
      messages head = enforced.map Message.request ∧
      List.Forall₂ A (enforced.map .request) (responses ++ [response])
  | .responding response true =>
    ∃ ms, (∀ more, answerable (c.sent ++ more) = ms) ∧ ms.filterMap Message.request? = enforced ∧
      List.Forall₂ A ms (responses ++ [response])
  | .closed =>
    ∃ ms, (c.hungUp = true ∧ answerable c.sent = ms ∨ ∀ more, answerable (c.sent ++ more) = ms) ∧
      ms.filterMap Message.request? = enforced ∧ List.Forall₂ A ms responses

/-- The invariant of a connection. -/
def Conn.Inv (enforced : List (DecisionRequest F)) (c : Conn F) : Prop :=
  ∃ responses, c.output = responses.flatMap writeResponse ∧ c.Progress A enforced responses

variable {A} {enforced : List (DecisionRequest F)} {c d : Conn F}

theorem Conn.inv_accepted : Conn.Inv A [] (Conn.accepted (F := F)) :=
  ⟨[], rfl, [], .nil, rfl, rfl, List.not_mem_nil, Nat.zero_le _, .nil⟩

/-- A line that is refused settles what is answered, whatever comes behind. -/
theorem Conn.progress_refused {head tail : List UInt8} {responses : List (DecisionResponse F)}
    {refusal : Refusal} {ts : String} (hA : ∀ r ts, A (.refused r) (r.response ts))
    (hwhole : Whole newline head) (hsent : c.sent = head ++ tail)
    (hhead : messages head = enforced.map Message.request)
    (htail : ∀ more, answerable (F := F) (tail ++ more) = [.refused refusal])
    (hanswers : List.Forall₂ A (enforced.map .request) responses)
    (hphase : c.phase = .responding (refusal.response ts) true) :
    c.Progress A enforced responses := by
  unfold Conn.Progress
  rw [hphase]
  refine ⟨enforced.map .request ++ [.refused refusal], ?_, ?_, ?_⟩
  · intro more
    rw [hsent, List.append_assoc, answerable_append hwhole hhead, htail]
  · rw [List.filterMap_append, filterMap_request?]
    exact List.append_nil _
  · exact List.rel_append hanswers (.cons (hA refusal ts) .nil)

/-- What the handler makes of a whole line. -/
theorem Conn.progress_line {head line tail : List UInt8} {responses : List (DecisionResponse F)}
    (ts : String) (hA : ∀ r ts, A (.refused r) (r.response ts)) (hwhole : Whole newline head)
    (hline : newline ∉ line) (hlen : (line ++ [newline]).length ≤ maxMessageBytes)
    (hsent : c.sent = head ++ (line ++ newline :: tail))
    (hhead : messages head = enforced.map Message.request)
    (hanswers : List.Forall₂ A (enforced.map .request) responses)
    (hphase : c.phase = Message.phase ts (receive (line ++ [newline])))
    (hrest : tail = c.buffered ++ c.unread) : c.Progress A enforced responses := by
  have hframe : frameMessage (F := F) (line ++ [newline]) = receive (line ++ [newline]) := by
    rw [frameMessage, if_neg (Nat.not_lt.2 hlen), if_pos List.getLast?_concat]
  have hnext : Whole newline (head ++ (line ++ [newline])) := .append_frame head line
  have hsent' : c.sent = (head ++ (line ++ [newline])) ++ (c.buffered ++ c.unread) := by
    rw [hsent, hrest, List.append_assoc, List.append_assoc]
    rfl
  have hmessages : messages (head ++ (line ++ [newline])) =
      enforced.map Message.request ++ (receive (F := F) (line ++ [newline])).toList := by
    rw [messages_append hwhole, hhead, messages_line hline, hframe, messages_nil, List.append_nil]
  cases hreceive : receive (F := F) (line ++ [newline]) with
  | none =>
    rw [hreceive] at hphase hmessages
    unfold Conn.Progress
    rw [hphase]
    refine ⟨head ++ (line ++ [newline]), hnext, hsent', ?_, List.not_mem_nil, Nat.zero_le _,
      hanswers⟩
    rw [hmessages]
    exact List.append_nil _
  | some m =>
    cases m with
    | request r =>
      rw [hreceive] at hphase hmessages
      unfold Conn.Progress
      rw [hphase]
      refine ⟨head ++ (line ++ [newline]), hnext, hsent', ?_, hanswers⟩
      rw [hmessages, List.map_append]
      rfl
    | refused refusal =>
      rw [hreceive] at hphase
      refine progress_refused hA hwhole hsent hhead ?_ hanswers hphase
      intro more
      refine answerable_of_refused (show _ = _ :: messages (tail ++ more) from ?_)
      rw [List.append_assoc, List.cons_append, messages_line hline, hframe, hreceive]
      rfl

theorem Conn.Inv.send {bytes : List UInt8} (h : c.Inv A enforced)
    (hstep : c.step (.send bytes) = some d) : d.Inv A enforced := by
  obtain ⟨responses, houtput, hprogress⟩ := h
  rw [Conn.step] at hstep
  split at hstep
  case isTrue => cases hstep
  case isFalse hopen =>
    obtain rfl := Option.some.inj hstep
    refine ⟨responses, houtput, ?_⟩
    unfold Conn.Progress at hprogress ⊢
    dsimp only
    -- what is read stays read, what is refused stays refused
    split at hprogress
    · obtain ⟨head, hwhole, hsent, hrest⟩ := hprogress
      exact ⟨head, hwhole, by rw [hsent]; simp only [List.append_assoc], hrest⟩
    · obtain ⟨head, hwhole, hsent, hrest⟩ := hprogress
      exact ⟨head, hwhole, by rw [hsent]; simp only [List.append_assoc], hrest⟩
    · obtain ⟨head, hwhole, hsent, hrest⟩ := hprogress
      exact ⟨head, hwhole, by rw [hsent]; simp only [List.append_assoc], hrest⟩
    · obtain ⟨ms, hstable, hrest⟩ := hprogress
      exact ⟨ms, fun more => by rw [List.append_assoc]; exact hstable _, hrest⟩
    · obtain ⟨ms, hclosed | hstable, hrest⟩ := hprogress
      · exact absurd hclosed.1 hopen
      · exact ⟨ms, .inr fun more => by rw [List.append_assoc]; exact hstable _, hrest⟩

theorem Conn.Inv.hangUp (h : c.Inv A enforced) (hstep : c.step .hangUp = some d) :
    d.Inv A enforced := by
  obtain ⟨responses, houtput, hprogress⟩ := h
  obtain rfl := Option.some.inj hstep
  refine ⟨responses, houtput, ?_⟩
  unfold Conn.Progress at hprogress ⊢
  dsimp only
  split at hprogress
  · exact hprogress
  · exact hprogress
  · exact hprogress
  · exact hprogress
  · obtain ⟨ms, hclosed | hstable, hrest⟩ := hprogress
    · exact ⟨ms, .inl ⟨rfl, hclosed.2⟩, hrest⟩
    · exact ⟨ms, .inr hstable, hrest⟩

/-- A fill moves bytes, or finds that there will be none. -/
theorem Conn.step_fill {n : Nat} (hstep : c.step (.fill n) = some d) :
    ∃ accumulated, c.phase = .reading accumulated ∧ c.buffered = [] ∧
      (c.unread ≠ [] ∧ n ≠ 0 ∧
          d = { c with buffered := c.unread.take n, unread := c.unread.drop n } ∨
        c.unread = [] ∧ c.hungUp = true ∧ d = { c with phase := .closed }) := by
  rw [Conn.step] at hstep
  split at hstep
  case h_1 accumulated hphase =>
    split at hstep
    · cases hstep
    case isFalse hbuffered =>
      refine ⟨accumulated, hphase, not_not.1 hbuffered, ?_⟩
      split at hstep
      case isTrue hunread =>
        split at hstep
        · cases hstep
        case isFalse hn => exact .inl ⟨hunread, hn, (Option.some.inj hstep).symm⟩
      case isFalse hunread =>
        split at hstep
        case isTrue hhung =>
          exact .inr ⟨not_not.1 hunread, hhung, (Option.some.inj hstep).symm⟩
        case isFalse => cases hstep
  case h_2 => cases hstep

theorem Conn.Inv.fill {n : Nat} (h : c.Inv A enforced) (hstep : c.step (.fill n) = some d) :
    d.Inv A enforced := by
  obtain ⟨responses, houtput, hprogress⟩ := h
  obtain ⟨accumulated, hphase, hbuffered, hfill⟩ := step_fill hstep
  unfold Conn.Progress at hprogress
  rw [hphase] at hprogress
  obtain ⟨head, hwhole, hsent, hhead, hacc, hlen, hanswers⟩ := hprogress
  rcases hfill with ⟨_, _, rfl⟩ | ⟨hunread, hhung, rfl⟩
  · refine ⟨responses, houtput, ?_⟩
    unfold Conn.Progress
    dsimp only
    rw [hphase]
    refine ⟨head, hwhole, ?_, hhead, hacc, hlen, hanswers⟩
    rw [hsent, hbuffered, List.nil_append, List.take_append_drop]
  · refine ⟨responses, houtput, enforced.map .request, .inl ⟨hhung, ?_⟩, filterMap_request? _,
      hanswers⟩
    -- the fragment that is left is no message
    rw [hsent, hbuffered, hunread, List.append_nil, List.append_nil,
      answerable_append hwhole hhead, answerable, messages_open hacc hlen]
    exact List.append_nil _

theorem Conn.step_scan {ts : String} (hstep : c.step (.scan ts) = some d) :
    ∃ accumulated, c.phase = .reading accumulated ∧ c.buffered ≠ [] ∧
      d = c.scanned ts (readLineLimited accumulated c.buffered) := by
  rw [Conn.step] at hstep
  split at hstep
  case h_1 accumulated hphase =>
    split at hstep
    case isTrue => cases hstep
    case isFalse hbuffered =>
      exact ⟨accumulated, hphase, hbuffered, (Option.some.inj hstep).symm⟩
  case h_2 => cases hstep

theorem Conn.Inv.scan {ts : String} (hA : ∀ r ts, A (.refused r) (r.response ts))
    (h : c.Inv A enforced) (hstep : c.step (.scan ts) = some d) : d.Inv A enforced := by
  obtain ⟨responses, houtput, hprogress⟩ := h
  obtain ⟨accumulated, hphase, _, rfl⟩ := step_scan hstep
  unfold Conn.Progress at hprogress
  rw [hphase] at hprogress
  obtain ⟨head, hwhole, hsent, hhead, hacc, _, hanswers⟩ := hprogress
  rcases readLineLimited_cases accumulated c.buffered with
    ⟨line, rest, hline, hbuffered, hread⟩ | ⟨hline, hread⟩
  · have hnew : newline ∉ accumulated ++ line := by
      rw [List.mem_append, not_or]
      exact ⟨hacc, hline⟩
    have hsent' : c.sent = head ++ ((accumulated ++ line) ++ newline :: (rest ++ c.unread)) := by
      rw [hsent, hbuffered]
      simp only [List.append_assoc, List.cons_append]
    rw [hread, ← List.append_assoc]
    split
    case isTrue hlarge =>
      refine ⟨responses, houtput, progress_refused hA hwhole hsent' hhead ?_ hanswers rfl⟩
      intro more
      refine answerable_of_refused (show _ = _ :: messages (rest ++ c.unread ++ more) from ?_)
      rw [List.append_assoc, List.cons_append, messages_line hnew, frameMessage, if_pos hlarge]
      rfl
    case isFalse hsmall =>
      exact ⟨responses, houtput, progress_line ts hA hwhole hnew (Nat.not_lt.1 hsmall)
        hsent' hhead hanswers rfl rfl⟩
  · have hnew : newline ∉ accumulated ++ c.buffered := by
      rw [List.mem_append, not_or]
      exact ⟨hacc, hline⟩
    have hsent' : c.sent = head ++ ((accumulated ++ c.buffered) ++ c.unread) := by
      rw [hsent, List.append_assoc]
    rw [hread]
    split
    case isTrue hlarge =>
      -- the fragment has outgrown the limit before its newline came
      refine ⟨responses, houtput, progress_refused hA hwhole hsent' hhead ?_ hanswers rfl⟩
      intro more
      rw [List.append_assoc]
      obtain ⟨tail, htail⟩ := messages_overrun (F := F) hnew hlarge (c.unread ++ more)
      exact answerable_of_refused htail
    case isFalse hsmall =>
      exact ⟨responses, houtput, head, hwhole, hsent', hhead, hnew, Nat.not_lt.1 hsmall, hanswers⟩

theorem Conn.Inv.respond (h : c.Inv A enforced) (hstep : c.step .respond = some d) :
    d.Inv A enforced := by
  obtain ⟨responses, houtput, hprogress⟩ := h
  rw [Conn.step] at hstep
  split at hstep
  case h_1 response last hphase =>
    obtain rfl := Option.some.inj hstep
    refine ⟨responses ++ [response], ?_, ?_⟩
    · rw [houtput, List.flatMap_append, List.flatMap_singleton]
    · unfold Conn.Progress at hprogress
      rw [hphase] at hprogress
      cases last with
      | false =>
        obtain ⟨head, hwhole, hsent, hhead, hanswers⟩ := hprogress
        exact ⟨head, hwhole, hsent, hhead, List.not_mem_nil, Nat.zero_le _, hanswers⟩
      | true =>
        obtain ⟨ms, hstable, hrest⟩ := hprogress
        exact ⟨ms, .inr hstable, hrest⟩
  case h_2 => cases hstep

/-- **What a step of a connection preserves.** -/
theorem Conn.Inv.step {event : ConnEvent} (hA : ∀ r ts, A (.refused r) (r.response ts))
    (h : c.Inv A enforced) (hstep : c.step event = some d) : d.Inv A enforced := by
  cases event with
  | send bytes => exact h.send hstep
  | hangUp => exact h.hangUp hstep
  | fill n => exact h.fill hstep
  | scan ts => exact h.scan hA hstep
  | respond => exact h.respond hstep

theorem Conn.Inv.mono {B : Message F → DecisionResponse F → Prop} (hAB : ∀ m r, A m r → B m r)
    (h : c.Inv A enforced) : c.Inv B enforced := by
  obtain ⟨responses, houtput, hprogress⟩ := h
  refine ⟨responses, houtput, ?_⟩
  unfold Conn.Progress at hprogress ⊢
  split at hprogress
  · obtain ⟨head, hwhole, hsent, hhead, hacc, hlen, hanswers⟩ := hprogress
    exact ⟨head, hwhole, hsent, hhead, hacc, hlen, hanswers.imp hAB⟩
  · obtain ⟨head, hwhole, hsent, hhead, hanswers⟩ := hprogress
    exact ⟨head, hwhole, hsent, hhead, hanswers.imp hAB⟩
  · obtain ⟨head, hwhole, hsent, hhead, hanswers⟩ := hprogress
    exact ⟨head, hwhole, hsent, hhead, hanswers.imp hAB⟩
  · obtain ⟨ms, hstable, hrequests, hanswers⟩ := hprogress
    exact ⟨ms, hstable, hrequests, hanswers.imp hAB⟩
  · obtain ⟨ms, hstable, hrequests, hanswers⟩ := hprogress
    exact ⟨ms, hstable, hrequests, hanswers.imp hAB⟩

/-- A call of `enforce` for the request the handler waits with. -/
theorem Conn.Inv.enforce {request : DecisionRequest F} {response : DecisionResponse F}
    (h : c.Inv A enforced) (hphase : c.phase = .requesting request)
    (hresponse : A (.request request) response) :
    Conn.Inv A (enforced ++ [request]) { c with phase := .responding response false } := by
  obtain ⟨responses, houtput, hprogress⟩ := h
  unfold Conn.Progress at hprogress
  rw [hphase] at hprogress
  obtain ⟨head, hwhole, hsent, hhead, hanswers⟩ := hprogress
  refine ⟨responses, houtput, head, hwhole, hsent, hhead, ?_⟩
  rw [List.map_append]
  exact List.rel_append hanswers (.cons hresponse .nil)

/-- The handler has nothing left to do: it has returned, or it waits for bytes
there are not. -/
def Conn.Settled (c : Conn F) : Prop :=
  c.phase = .closed ∨ (∃ accumulated, c.phase = .reading accumulated) ∧
    c.buffered = [] ∧ c.unread = []

/-- What a connection has been answered, and what was enforced for it. -/
structure Conn.Served (A : Message F → DecisionResponse F → Prop)
    (enforced : List (DecisionRequest F)) (c : Conn F) : Prop where
  /-- The answers written so far belong to the first messages, one each. -/
  answers : ∃ answered responses, answered <+: answerable c.sent ∧
    c.output = responses.flatMap writeResponse ∧ List.Forall₂ A answered responses ∧
    (c.Settled → answered = answerable c.sent)
  /-- The requests passed to `enforce` so far are the first valid ones. -/
  requests : enforced <+: (answerable c.sent).filterMap Message.request?
  all : c.Settled → enforced = (answerable c.sent).filterMap Message.request?

omit [RequestReader F] in
/-- A connection that is neither closed nor reading has something left to do. -/
theorem Conn.not_settled (hclosed : c.phase ≠ .closed)
    (hreading : ∀ accumulated, c.phase ≠ .reading accumulated) : ¬ c.Settled := by
  rintro (h | ⟨⟨accumulated, h⟩, -⟩)
  · exact hclosed h
  · exact hreading accumulated h

theorem Conn.Inv.served (h : c.Inv A enforced) : c.Served A enforced := by
  obtain ⟨responses, houtput, hprogress⟩ := h
  unfold Conn.Progress at hprogress
  split at hprogress
  case h_1 accumulated hphase =>
    obtain ⟨head, hwhole, hsent, hhead, hacc, hlen, hanswers⟩ := hprogress
    have hanswerable := answerable_append hwhole hhead (accumulated ++ (c.buffered ++ c.unread))
    rw [← hsent] at hanswerable
    have hall : c.Settled → enforced.map Message.request = answerable c.sent := by
      rintro (hclosed | ⟨-, hbuffered, hunread⟩)
      · rw [hphase] at hclosed
        cases hclosed
      · rw [hanswerable, hbuffered, hunread, List.append_nil, List.append_nil, answerable,
          messages_open hacc hlen]
        exact (List.append_nil _).symm
    refine ⟨⟨_, responses, ?_, houtput, hanswers, hall⟩, ?_, fun hsettled => ?_⟩
    · rw [hanswerable]
      exact List.prefix_append _ _
    · rw [hanswerable, List.filterMap_append, filterMap_request?]
      exact List.prefix_append _ _
    · rw [← hall hsettled, filterMap_request?]
  case h_2 request hphase =>
    obtain ⟨head, hwhole, hsent, hhead, hanswers⟩ := hprogress
    have hanswerable := answerable_append hwhole hhead (c.buffered ++ c.unread)
    rw [← hsent, List.map_append, List.append_assoc] at hanswerable
    have hbusy : ¬ c.Settled := Conn.not_settled (by simp [hphase]) (by simp [hphase])
    refine ⟨⟨_, responses, ?_, houtput, hanswers, fun h => absurd h hbusy⟩, ?_,
      fun h => absurd h hbusy⟩
    · rw [hanswerable]
      exact List.prefix_append _ _
    · rw [hanswerable, List.filterMap_append, filterMap_request?]
      exact List.prefix_append _ _
  case h_3 response hphase =>
    obtain ⟨head, hwhole, hsent, hhead, hanswers⟩ := hprogress
    have hanswerable := answerable_append hwhole hhead (c.buffered ++ c.unread)
    rw [← hsent] at hanswerable
    have hbusy : ¬ c.Settled := Conn.not_settled (by simp [hphase]) (by simp [hphase])
    refine ⟨⟨_, responses, ?_, houtput, List.forall₂_take_append _ _ _ hanswers,
      fun h => absurd h hbusy⟩, ?_, fun h => absurd h hbusy⟩
    · rw [hanswerable]
      exact (List.take_prefix _ _).trans (List.prefix_append _ _)
    · rw [hanswerable, List.filterMap_append, filterMap_request?]
      exact List.prefix_append _ _
  case h_4 response hphase =>
    obtain ⟨ms, hstable, hrequests, hanswers⟩ := hprogress
    have hanswerable := hstable []
    rw [List.append_nil] at hanswerable
    have hbusy : ¬ c.Settled := Conn.not_settled (by simp [hphase]) (by simp [hphase])
    refine ⟨⟨_, responses, ?_, houtput, List.forall₂_take_append _ _ _ hanswers,
      fun h => absurd h hbusy⟩, ?_, fun h => absurd h hbusy⟩
    · rw [hanswerable]
      exact List.take_prefix _ _
    · rw [hanswerable, hrequests]
  case h_5 =>
    obtain ⟨ms, hms, hrequests, hanswers⟩ := hprogress
    have hanswerable : answerable c.sent = ms := by
      rcases hms with ⟨-, h⟩ | hstable
      · exact h
      · rw [← hstable [], List.append_nil]
    refine ⟨⟨ms, responses, ?_, houtput, hanswers, fun _ => hanswerable.symm⟩, ?_, fun _ => ?_⟩
    · rw [hanswerable]
    · rw [hanswerable, hrequests]
    · rw [hanswerable, hrequests]

/-- The steps a handler has before it at most, were no more bytes to come. -/
def Conn.work (c : Conn F) : Nat :=
  5 * c.unread.length + 4 * c.buffered.length +
    match c.phase with
    | .reading _ => 1
    | .requesting _ => 3
    | .responding _ _ => 2
    | .closed => 0

/-- A turn of the reader leaves less to do. -/
theorem Conn.work_scanned (accumulated : List UInt8) (ts : String) (hbuffered : c.buffered ≠ [])
    (hphase : c.phase = .reading accumulated) :
    (c.scanned ts (readLineLimited accumulated c.buffered)).work < c.work := by
  have hpos := List.length_pos_iff.2 hbuffered
  rcases readLineLimited_cases accumulated c.buffered with
    ⟨line, rest, -, hline, hread⟩ | ⟨-, hread⟩
  · have hlen : rest.length < c.buffered.length := by
      rw [hline, List.length_append, List.length_cons]
      omega
    rw [hread]
    split
    case isTrue =>
      simp only [Conn.scanned, Conn.work, hphase]
      omega
    case isFalse =>
      cases hm : receive (F := F) (accumulated ++ (line ++ [newline])) with
      | none =>
        simp only [Conn.scanned, Conn.work, hphase, hm, Message.phase]
        omega
      | some m =>
        cases m <;> simp only [Conn.scanned, Conn.work, hphase, hm, Message.phase] <;> omega
  · rw [hread]
    split
    · simp only [Conn.scanned, Conn.work, hphase, List.length_nil]
      omega
    · simp only [Conn.scanned, Conn.work, hphase, List.length_nil]
      omega

end Handler

/-! ## The server -/

section Server

variable [Globset] [TextTools] [Sha256] {request : DecisionRequest F} {env : CallEnv F}
  {ctx : EnforcementContext F} {s t : Server F}

omit [RequestReader F] in
/-- Every path through `enforce` echoes the request. -/
theorem echoes_enforce : Echoes request (enforce request env ctx).1 := by
  cases hio : env.decisionIo.succeeds with
  | true =>
    rw [enforce_ok hio]
    exact echoes_outcome
  | false =>
    have hfailed : ∃ e, (enforce request env ctx).1 =
        auditFailureResponse request e env.failureTs := enforce_failed hio
    obtain ⟨e, he⟩ := hfailed
    rw [he]
    exact ⟨rfl, rfl⟩

/-- The answer to a message of a connection: a valid request has the one
`enforce` gave for it, at its place among the calls of all connections. -/
def Answered (ctx : EnforcementContext F) (calls : List (Nat × Call F)) (i : Nat) :
    Message F → DecisionResponse F → Prop
  | .request request, response =>
    Echoes request response ∧
      ∃ before env after, calls = before ++ (i, ⟨request, env⟩) :: after ∧
        response = Run.answer process ctx (before.map Prod.snd) ⟨request, env⟩
  | .refused refusal, response => ∃ ts, response = refusal.response ts

/-- The requests of a connection that were passed to `enforce`, in order. -/
def enforcedFor (calls : List (Nat × Call F)) (i : Nat) : List (DecisionRequest F) :=
  (calls.filter (fun p => p.1 = i)).map (fun p => p.2.request)

omit [RequestReader F] [Globset] [TextTools] [Sha256] in
theorem enforcedFor_concat_self (calls : List (Nat × Call F)) (i : Nat) (c : Call F) :
    enforcedFor (calls ++ [(i, c)]) i = enforcedFor calls i ++ [c.request] := by
  rw [enforcedFor, List.filter_append, List.filter_cons_of_pos (by simp), List.filter_nil,
    List.map_append]
  rfl

omit [RequestReader F] [Globset] [TextTools] [Sha256] in
theorem enforcedFor_concat_of_ne (calls : List (Nat × Call F)) {i j : Nat} (h : j ≠ i)
    (c : Call F) : enforcedFor (calls ++ [(i, c)]) j = enforcedFor calls j := by
  rw [enforcedFor, List.filter_append, List.filter_cons_of_neg (by simp [Ne.symm h]),
    List.filter_nil, List.append_nil]
  rfl

/-- The invariant of the server. -/
structure Server.Inv (ctx : EnforcementContext F) (s : Server F) : Prop where
  ctx_eq : s.ctx = Run.stateAfter process ctx (s.calls.map Prod.snd)
  conns : ∀ i, (s.conns i).Inv (Answered ctx s.calls i) (enforcedFor s.calls i)

omit [RequestReader F] in
theorem Answered.concat {calls : List (Nat × Call F)} {i : Nat} {m : Message F}
    {response : DecisionResponse F} (p : Nat × Call F) (h : Answered ctx calls i m response) :
    Answered ctx (calls ++ [p]) i m response := by
  cases m with
  | request r =>
    obtain ⟨hechoes, before, env, after, hcalls, hresponse⟩ := h
    refine ⟨hechoes, before, env, after ++ [p], ?_, hresponse⟩
    rw [hcalls, List.append_assoc, List.cons_append]
  | refused refusal => exact h

theorem Server.Inv.enforce {i : Nat} (h : s.Inv ctx) (hphase : (s.conns i).phase = .requesting request) :
    (s.afterEnforce i request env).Inv ctx := by
  set c : Call F := ⟨request, env⟩ with hc
  have hanswer : Answered ctx (s.calls ++ [(i, c)]) i (.request request)
      (Engine.enforce request env s.ctx).1 := by
    refine ⟨echoes_enforce, s.calls, env, [], rfl, ?_⟩
    rw [Run.answer, ← h.ctx_eq]
    rfl
  have hconns : ∀ j, Conn.Inv (Answered ctx (s.calls ++ [(i, c)]) j) (enforcedFor s.calls j)
      (s.conns j) := fun j => (h.conns j).mono fun m r hm => hm.concat _
  refine ⟨?_, fun j => ?_⟩
  · show (process s.ctx c).1 = Run.stateAfter process ctx ((s.calls ++ [(i, c)]).map Prod.snd)
    rw [List.map_append, List.map_singleton, Run.stateAfter_concat, ← h.ctx_eq]
  · show Conn.Inv (Answered ctx (s.calls ++ [(i, c)]) j) (enforcedFor (s.calls ++ [(i, c)]) j)
      ((s.afterEnforce i request env).conns j)
    by_cases hj : j = i
    · subst hj
      rw [Server.conns_afterEnforce_self, enforcedFor_concat_self]
      exact (hconns j).enforce hphase hanswer
    · rw [Server.conns_afterEnforce_of_ne s hj, enforcedFor_concat_of_ne _ hj]
      exact hconns j

theorem Server.Inv.step {event : ServerEvent F} (h : s.Inv ctx) (hstep : s.step event = some t) :
    t.Inv ctx := by
  cases event with
  | conn i event =>
    rw [Server.step, Option.map_eq_some_iff] at hstep
    obtain ⟨c, hc, rfl⟩ := hstep
    refine ⟨h.ctx_eq, fun j => ?_⟩
    show Conn.Inv (Answered ctx s.calls j) (enforcedFor s.calls j) (Function.update s.conns i c j)
    by_cases hj : j = i
    · subst hj
      rw [Function.update_self]
      exact (h.conns j).step (fun refusal ts => Exists.intro ts rfl) hc
    · rw [Function.update_of_ne hj]
      exact h.conns j
  | enforce i env =>
    rw [Server.step] at hstep
    split at hstep
    case h_1 request hphase =>
      obtain rfl := Option.some.inj hstep
      exact h.enforce hphase
    case h_2 => cases hstep

theorem Server.inv_start : (Server.start ctx).Inv ctx := ⟨rfl, fun _ => Conn.inv_accepted⟩

/-- **What a run of the server preserves.** -/
theorem Server.inv_exec {events : List (ServerEvent F)}
    (h : Run.exec Server.step (Server.start ctx) events = some s) : s.Inv ctx :=
  Run.exec_invariant Server.step (C := fun _ _ => True) (fun _ _ _ hs _ hstep => hs.step hstep)
    Server.inv_start (Run.AllEvents.of_mem Server.step (fun _ _ _ => trivial) _) h

/-! ## Every handler gets there -/

/-- A step that the handler of a connection takes by itself. -/
def ServerEvent.IsHandler (i : Nat) : ServerEvent F → Prop
  | .conn j (.fill _) => j = i
  | .conn j (.scan _) => j = i
  | .conn j .respond => j = i
  | .enforce j _ => j = i
  | _ => False

/-- What a call meets when nothing goes wrong. -/
def CallEnv.calm : CallEnv F := ⟨0, 0, Float64.zero, "", "", "", "", "", .ok, .ok⟩

/-- A handler that is not settled can take a step, and has less to do then. -/
theorem Server.handler_step (i : Nat) (h : ¬ (s.conns i).Settled) :
    ∃ event t, ServerEvent.IsHandler i event ∧ s.step event = some t ∧
      (t.conns i).work < (s.conns i).work ∧ (t.conns i).sent = (s.conns i).sent := by
  -- a step of the connection alone is a step of the server
  have hlocal : ∀ event c, (s.conns i).step event = some c →
      ServerEvent.IsHandler (F := F) i (.conn i event) → c.work < (s.conns i).work →
      c.sent = (s.conns i).sent →
      ∃ event t, ServerEvent.IsHandler i event ∧ s.step event = some t ∧
        (t.conns i).work < (s.conns i).work ∧ (t.conns i).sent = (s.conns i).sent := by
    intro event c hstep hevent hwork hsent
    refine ⟨.conn i event, { s with conns := Function.update s.conns i c }, hevent, ?_, ?_, ?_⟩
    · rw [Server.step, hstep]
      rfl
    · show (Function.update s.conns i c i).work < _
      rwa [Function.update_self]
    · show (Function.update s.conns i c i).sent = _
      rwa [Function.update_self]
  cases hphase : (s.conns i).phase with
  | reading accumulated =>
    by_cases hbuffered : (s.conns i).buffered = []
    · have hunread : (s.conns i).unread ≠ [] := by
        intro hunread
        exact h (.inr ⟨⟨accumulated, hphase⟩, hbuffered, hunread⟩)
      have hpos := List.length_pos_iff.2 hunread
      refine hlocal (.fill (s.conns i).unread.length)
        { s.conns i with
          buffered := (s.conns i).unread.take (s.conns i).unread.length
          unread := (s.conns i).unread.drop (s.conns i).unread.length } ?_ rfl ?_ rfl
      · simp only [Conn.step, hphase]
        rw [if_neg (not_not.2 hbuffered), if_pos hunread, if_neg hpos.ne']
      · simp only [Conn.work, List.take_length, List.drop_length, hbuffered, List.length_nil]
        omega
    · refine hlocal (.scan "") _ ?_ rfl (Conn.work_scanned accumulated "" hbuffered hphase) ?_
      · simp only [Conn.step, hphase]
        rw [if_neg hbuffered]
      · unfold Conn.scanned
        split <;> rfl
  | requesting request =>
    refine ⟨.enforce i .calm, s.afterEnforce i request .calm, rfl, ?_, ?_, ?_⟩
    · rw [Server.step, hphase]
    · rw [Server.conns_afterEnforce_self]
      simp only [Conn.work, hphase]
      omega
    · rw [Server.conns_afterEnforce_self]
  | responding response last =>
    refine hlocal .respond
      { s.conns i with
        phase := if last then .closed else .reading []
        output := (s.conns i).output ++ writeResponse response } ?_ rfl ?_ rfl
    · simp only [Conn.step, hphase]
    · cases last <;> simp only [Conn.work, hphase] <;> simp
  | closed => exact absurd (.inl hphase) h

/-- A handler left alone with its connection settles. -/
theorem Server.handler_settles (i : Nat) (s : Server F) :
    ∃ events t, (∀ e ∈ events, ServerEvent.IsHandler i e) ∧ Run.exec Server.step s events = some t ∧
      (t.conns i).Settled ∧ (t.conns i).sent = (s.conns i).sent := by
  induction hn : (s.conns i).work using Nat.strong_induction_on generalizing s with
  | h n ih =>
    by_cases hsettled : (s.conns i).Settled
    · exact ⟨[], s, fun _ he => absurd he List.not_mem_nil, rfl, hsettled, rfl⟩
    · obtain ⟨event, u, hevent, hstep, hwork, hsent⟩ := handler_step i hsettled
      obtain ⟨events, t, hevents, hexec, ht, hsent'⟩ := ih _ (hn ▸ hwork) u rfl
      refine ⟨event :: events, t, ?_, ?_, ht, hsent'.trans hsent⟩
      · intro e he
        rcases List.mem_cons.1 he with rfl | he
        · exact hevent
        · exact hevents e he
      · rw [Run.exec, hstep]
        exact hexec

/-- **The server protocol.**  Over any number of connections, any bytes on each
and any order of the steps, the calls of `enforce` make one run of the engine,
and every connection is answered by the bytes sent on it alone: one answer for
each answerable message so far, in order, and each valid request passed to
`enforce` once.  A handler left alone settles, and then it has answered all. -/
theorem serves {events : List (ServerEvent F)}
    (h : Run.exec Server.step (Server.start ctx) events = some s) :
    s.ctx = Run.stateAfter process ctx (s.calls.map Prod.snd) ∧
    ∀ i, (s.conns i).Served (Answered ctx s.calls i) (enforcedFor s.calls i) ∧
      ∃ more t, (∀ e ∈ more, ServerEvent.IsHandler i e) ∧ Run.exec Server.step s more = some t ∧
        (t.conns i).Settled ∧ (t.conns i).sent = (s.conns i).sent := by
  have hinv := Server.inv_exec h
  refine ⟨hinv.ctx_eq, fun i => ⟨(hinv.conns i).served, ?_⟩⟩
  obtain ⟨more, t, hmore, hexec, hsettled, hsent⟩ := Server.handler_settles i s
  exact ⟨more, t, hmore, hexec, hsettled, hsent⟩

end Server

namespace Sample

/-- A request as its text. -/
def requestText : List Char :=
  "\x7b\"schema_version\":1,\"run_id\":\"run\",\"seq\":1,\"tool\":\"search\",\"args_hash\":\"0\",\"ts\":\"\"\x7d".toList

/-- A reader that knows this request. -/
scoped instance : RequestReader ℚ :=
  ⟨fun text =>
    if text = requestText then .ok (call "run" "search" 1 none 0).request
    else .error "expected value at line 1 column 1"⟩

/-- The request as it is sent. -/
def requestLine : List UInt8 := Text.utf8 (String.ofList (requestText ++ ['\n']))

theorem receive_requestLine :
    receive (F := ℚ) requestLine = some (.request (call "run" "search" 1 none 0).request) := by
  have htrim : trimEnd (String.ofList (requestText ++ ['\n'])) = requestText := by
    rw [trimEnd, String.toList_ofList]
    decide +kernel
  have hread : RequestReader.fromStr (F := ℚ) requestText =
      .ok (call "run" "search" 1 none 0).request := if_pos rfl
  have hversion : (call "run" "search" 1 none 0).request.schemaVersion = 1 := rfl
  rw [receive, requestLine, Text.ofUtf8_utf8]
  dsimp only
  rw [htrim, if_neg (by decide), hread]
  dsimp only
  rw [if_neg (not_not.2 hversion)]

/-- The reader fills its buffer with the whole line and finds it. -/
theorem read_requestLine :
    requestLine ≠ [] ∧ requestLine.take 8192 = requestLine ∧ requestLine.drop 8192 = [] ∧
      readLineLimited [] requestLine = .inl (.line requestLine, []) := by
  have hline : requestLine = (requestText ++ ['\n']).flatMap String.utf8EncodeChar :=
    Text.utf8_ofList _
  rw [hline]
  decide +kernel

/-- One request, sent, read, enforced and answered. -/
def served : List (ServerEvent ℚ) :=
  [.conn 0 (.send requestLine), .conn 0 (.fill 8192), .conn 0 (.scan ""),
    .enforce 0 (call "run" "search" 1 none 0).env, .conn 0 .respond]

end Sample

open Sample in
theorem serves_request :
    ∃ s, Run.exec Server.step (Server.start (.new (compiled none none) "audit.jsonl" [])) served =
        some s ∧
      (s.conns 0).Served (Answered (.new (compiled none none) "audit.jsonl" []) s.calls 0)
        (enforcedFor s.calls 0) := by
  obtain ⟨hne, htake, hdrop, hread⟩ := read_requestLine
  obtain ⟨s, hs⟩ : ∃ s, Run.exec Server.step
      (Server.start (.new (compiled none none) "audit.jsonl" [])) served = some s := by
    simp [served, Run.exec, Server.step, Conn.step, Server.start, Conn.accepted, Conn.scanned,
      Message.phase, Server.afterEnforce, hne, htake, hdrop, hread, receive_requestLine]
  exact ⟨s, hs, ((serves hs).2 0).1⟩

end LoopStorm.Engine
