import LoopStorm.Shim.Protocol
import LoopStorm.Lib.Run

/-!
# The shared connection of the IPC client

`EngineConnection` of `connection.ts`, with the event loop around it.  All calls
of `request` share one socket and one buffer; each reads its reply with
listeners of its own, and every chunk of bytes goes to all of them.

* `Phase` — where a call of `request` stands.
* `EngineConnection` — the fields of the class, the sockets it has opened, the
  calls made on it and, for the statements, what the engine has answered.
* `sendRequest`, `recvResponse`, `onData` — the code that runs in one turn.
* `Event`, `step` — what can happen next.  The engine answers the requests of a
  socket in order; bytes arrive in chunks of any size, and timeouts and errors
  come at any time.
-/

namespace LoopStorm.Shim

open LoopStorm.Engine

/-- Why a call of `request` was given up. -/
inductive Rejection where
  | engineUnavailable (message : String)
  | connectionClosed
  | messageTooLarge (size : Nat)
  | syntaxError
  deriving DecidableEq, Repr

/-- Where a call of `request` stands; `k` is the socket it is busy with. -/
inductive Phase where
  | idle
  | connecting (k : Nat)
  | writing (k : Nat)
  | waiting (k : Nat)
  | resolved (reply : DecisionResponse)
  | rejected (e : Rejection)
  /-- The promise is never settled. -/
  | pending

/-- The call listens for its reply. -/
def Phase.isWaiting : Phase → Bool
  | .waiting _ => true
  | _ => false

/-- A socket, from both ends. -/
structure Sock where
  /-- Connected, and neither closed nor destroyed since. -/
  isOpen : Bool
  /-- A data listener has been attached before, so bytes are not held back. -/
  flowing : Bool
  /-- The calls whose requests the engine has read and not answered. -/
  due : List Nat
  /-- Bytes the engine has sent that have not arrived. -/
  inFlight : List UInt8
  /-- The calls listening, in the order they began to. -/
  listeners : List Nat
  deriving DecidableEq

/-- A socket that is not connected yet. -/
def Sock.new : Sock := ⟨false, false, [], [], []⟩

/-- The socket is connected. -/
def Sock.opened (s : Sock) : Sock := { s with isOpen := true }

/-- The engine has read the request of a call. -/
def Sock.received (s : Sock) (i : Nat) : Sock := { s with due := s.due ++ [i] }

/-- A call listens. -/
def Sock.listen (s : Sock) (i : Nat) : Sock :=
  { s with flowing := true, listeners := s.listeners ++ [i] }

/-- A call does not listen any more. -/
def Sock.unlisten (s : Sock) (i : Nat) : Sock :=
  { s with listeners := s.listeners.filter (· ≠ i) }

/-- The engine has answered the first request due, leaving `due`. -/
def Sock.answered (s : Sock) (due : List Nat) (bytes : List UInt8) : Sock :=
  { s with due := due, inFlight := s.inFlight ++ if s.isOpen then bytes else [] }

/-- The first `n` bytes in flight have arrived. -/
def Sock.arrived (s : Sock) (n : Nat) : Sock := { s with inFlight := s.inFlight.drop n }

/-- No more bytes can arrive. -/
def Sock.shut (s : Sock) : Sock := { s with isOpen := false, inFlight := [] }

@[simp] theorem Sock.isOpen_answered (s : Sock) (due : List Nat) (bytes : List UInt8) :
    (s.answered due bytes).isOpen = s.isOpen :=
  rfl

@[simp] theorem Sock.isOpen_arrived (s : Sock) (n : Nat) : (s.arrived n).isOpen = s.isOpen := rfl

/-- The connection and its surroundings. -/
structure EngineConnection (F : Type) [Float64 F] where
  socket : Option Nat
  buffer : List UInt8
  /-- The number of sockets made so far. -/
  made : Nat
  socks : Nat → Sock
  /-- The line each call sends. -/
  line : Nat → List UInt8
  phase : Nat → Phase
  /-- What the engine has answered, and to the request of which call. -/
  answers : List (Nat × Engine.DecisionResponse F)
  /-- An exception nobody caught has ended the process. -/
  crashed : Bool

namespace EngineConnection

variable {F : Type} [Float64 F]

/-- A connection nothing has happened on. -/
def new : EngineConnection F := ⟨none, [], 0, fun _ => .new, fun _ => [], fun _ => .idle, [], false⟩

/-- Move a call on. -/
def setPhase (c : EngineConnection F) (i : Nat) (p : Phase) : EngineConnection F :=
  { c with phase := Function.update c.phase i p }

/-- Change a socket. -/
def setSock (c : EngineConnection F) (k : Nat) (s : Sock) : EngineConnection F :=
  { c with socks := Function.update c.socks k s }

@[simp] theorem phase_setPhase (c : EngineConnection F) (i : Nat) (p : Phase) :
    (c.setPhase i p).phase i = p :=
  Function.update_self ..

theorem phase_setPhase_of_ne (c : EngineConnection F) {i j : Nat} (h : j ≠ i) (p : Phase) :
    (c.setPhase i p).phase j = c.phase j :=
  Function.update_of_ne h ..

@[simp] theorem socks_setSock (c : EngineConnection F) (k : Nat) (s : Sock) :
    (c.setSock k s).socks k = s :=
  Function.update_self ..

theorem socks_setSock_of_ne (c : EngineConnection F) {k l : Nat} (h : l ≠ k) (s : Sock) :
    (c.setSock k s).socks l = c.socks l :=
  Function.update_of_ne h ..

@[simp] theorem socket_setSock (c : EngineConnection F) (k : Nat) (s : Sock) :
    (c.setSock k s).socket = c.socket :=
  rfl

@[simp] theorem buffer_setSock (c : EngineConnection F) (k : Nat) (s : Sock) :
    (c.setSock k s).buffer = c.buffer :=
  rfl

@[simp] theorem made_setSock (c : EngineConnection F) (k : Nat) (s : Sock) :
    (c.setSock k s).made = c.made :=
  rfl

@[simp] theorem phase_setSock (c : EngineConnection F) (k : Nat) (s : Sock) :
    (c.setSock k s).phase = c.phase :=
  rfl

@[simp] theorem answers_setSock (c : EngineConnection F) (k : Nat) (s : Sock) :
    (c.setSock k s).answers = c.answers :=
  rfl

@[simp] theorem crashed_setSock (c : EngineConnection F) (k : Nat) (s : Sock) :
    (c.setSock k s).crashed = c.crashed :=
  rfl

@[simp] theorem socket_setPhase (c : EngineConnection F) (i : Nat) (p : Phase) :
    (c.setPhase i p).socket = c.socket :=
  rfl

@[simp] theorem buffer_setPhase (c : EngineConnection F) (i : Nat) (p : Phase) :
    (c.setPhase i p).buffer = c.buffer :=
  rfl

@[simp] theorem made_setPhase (c : EngineConnection F) (i : Nat) (p : Phase) :
    (c.setPhase i p).made = c.made :=
  rfl

@[simp] theorem socks_setPhase (c : EngineConnection F) (i : Nat) (p : Phase) :
    (c.setPhase i p).socks = c.socks :=
  rfl

@[simp] theorem answers_setPhase (c : EngineConnection F) (i : Nat) (p : Phase) :
    (c.setPhase i p).answers = c.answers :=
  rfl

@[simp] theorem crashed_setPhase (c : EngineConnection F) (i : Nat) (p : Phase) :
    (c.setPhase i p).crashed = c.crashed :=
  rfl

/-! ## The code of one turn -/

/-- `sendRequest` once connected: check the size and hand the line to the
socket. -/
def send (c : EngineConnection F) (i : Nat) : EngineConnection F :=
  if (c.line i).length > maxMessageSize then
    c.setPhase i (.rejected (.messageTooLarge (c.line i).length))
  else
    match c.socket with
    | some k => c.setPhase i (.writing k)
    | none => c.setPhase i .pending

/-- `request`: connect if there is no socket, and send. -/
def request (c : EngineConnection F) (i : Nat) (line : List UInt8) : EngineConnection F :=
  let c := { c with line := Function.update c.line i line }
  match c.socket with
  | some _ => c.send i
  | none => { c.setPhase i (.connecting c.made) with made := c.made + 1 }

/-- `recvResponse`: take a line from the buffer, or start to listen. -/
def recvResponse (c : EngineConnection F) (i : Nat) : EngineConnection F :=
  match c.socket with
  | none => c.setPhase i (.rejected (.engineUnavailable "not connected"))
  | some k =>
    match splitLine c.buffer with
    | some (line, rest) =>
      let c := { c with buffer := rest }
      match Ts.fromJson line with
      | some reply => c.setPhase i (.resolved reply)
      | none => c.setPhase i (.rejected .syntaxError)
    | none =>
      (c.setSock k ((c.socks k).listen i)).setPhase i (.waiting k)

/-- Remove the listeners of a call. -/
def cleanup (c : EngineConnection F) (k i : Nat) : EngineConnection F :=
  c.setSock k ((c.socks k).unlisten i)

/-- The `data` listener of a call, on a chunk.  A line that does not parse
throws out of the listener. -/
def onData (k : Nat) (chunk : List UInt8) (c : EngineConnection F) (i : Nat) :
    EngineConnection F :=
  if c.crashed then c
  else
    let c := { c with buffer := c.buffer ++ chunk }
    if c.buffer.length > maxMessageSize then
      (c.cleanup k i).setPhase i (.rejected (.messageTooLarge c.buffer.length))
    else
      match splitLine c.buffer with
      | none => c
      | some (line, rest) =>
        let c := { c.cleanup k i with buffer := rest }
        match Ts.fromJson line with
        | some reply => c.setPhase i (.resolved reply)
        | none => { c.setPhase i .pending with crashed := true }

/-- The calls that listen on a socket give up. -/
def rejectListeners (c : EngineConnection F) (k : Nat) (e : Rejection) : EngineConnection F :=
  let sock := c.socks k
  { c.setSock k { sock with listeners := [] } with
    phase := fun i => if i ∈ sock.listeners then .rejected e else c.phase i }

/-- `close`: destroy the socket and forget it. -/
def close (c : EngineConnection F) : EngineConnection F :=
  match c.socket with
  | none => c
  | some k =>
    { c.setSock k (c.socks k).shut with
      socket := none
      buffer := [] }

/-! ## What can happen next -/

/-- An event. -/
inductive Event (F : Type) [Float64 F] where
  /-- The socket a call is waiting for is connected. -/
  | connected (i : Nat)
  | connectFailed (i : Nat) (message : String)
  /-- The line of a call has been handed to the kernel whole.  Its callback runs
  in the same turn, so the call listens before anything sent in reply arrives. -/
  | written (i : Nat)
  | writeFailed (i : Nat) (message : String)
  /-- The engine answers the first request due on a socket. -/
  | answer (k : Nat) (r : Engine.DecisionResponse F)
  /-- The next bytes in flight arrive. -/
  | data (k n : Nat)
  | timeout (k : Nat)
  | error (k : Nat) (message : String)
  | closed (k : Nat)
  /-- The client calls `close`. -/
  | close

/-- The connection after an event; `none` when the event cannot happen. -/
def step (c : EngineConnection F) (e : Event F) : Option (EngineConnection F) :=
  if c.crashed then none
  else
    match e with
    | .connected i =>
      match c.phase i with
      | .connecting k =>
        some ({ c.setSock k (c.socks k).opened with
          socket := some k
          buffer := [] }.send i)
      | _ => none
    | .connectFailed i message =>
      match c.phase i with
      | .connecting _ => some (c.setPhase i (.rejected (.engineUnavailable message)))
      | _ => none
    | .written i =>
      match c.phase i with
      | .writing k =>
        if (c.socks k).isOpen then
          some ((c.setSock k ((c.socks k).received i)).recvResponse i)
        else none
      | _ => none
    | .writeFailed i message =>
      match c.phase i with
      | .writing _ => some (c.setPhase i (.rejected (.engineUnavailable message)))
      | _ => none
    | .answer k r =>
      match (c.socks k).due with
      | [] => none
      | i :: due =>
        some { c.setSock k ((c.socks k).answered due (writeResponse r)) with
          answers := c.answers ++ [(i, r)] }
    | .data k n =>
      let sock := c.socks k
      if sock.isOpen && sock.flowing && 0 < n && n ≤ sock.inFlight.length then
        some (sock.listeners.foldl (onData k (sock.inFlight.take n)) (c.setSock k (sock.arrived n)))
      else none
    | .timeout k =>
      if (c.socks k).isOpen then
        some (c.rejectListeners k (.engineUnavailable "socket timeout"))
      else none
    | .error k message =>
      if (c.socks k).isOpen then
        if (c.socks k).listeners = [] then some { c with crashed := true }
        else some (c.rejectListeners k (.engineUnavailable message))
      else none
    | .closed k =>
      some ((c.setSock k (c.socks k).shut).rejectListeners k .connectionClosed)
    | .close => some c.close

/-! ## What no event changes -/

theorem line_send (c : EngineConnection F) (i : Nat) : (c.send i).line = c.line := by
  unfold send
  split
  · rfl
  · split <;> rfl

theorem line_recvResponse (c : EngineConnection F) (i : Nat) :
    (c.recvResponse i).line = c.line := by
  unfold recvResponse
  split
  · rfl
  · split
    · dsimp only
      split <;> rfl
    · rfl

theorem line_onData (k : Nat) (chunk : List UInt8) (c : EngineConnection F) (i : Nat) :
    (onData k chunk c i).line = c.line := by
  unfold onData
  split
  · rfl
  · dsimp only
    split
    · rfl
    · split
      · rfl
      · split <;> rfl

theorem line_foldl_onData (k : Nat) (chunk : List UInt8) (is : List Nat) (c : EngineConnection F) :
    (is.foldl (onData k chunk) c).line = c.line := by
  induction is generalizing c with
  | nil => rfl
  | cons i is ih => rw [List.foldl_cons, ih, line_onData]

/-- The lines of the calls stay as they are. -/
theorem line_step {c c' : EngineConnection F} {e : Event F} (h : c.step e = some c') :
    c'.line = c.line := by
  unfold step at h
  split at h
  case isTrue => cases h
  case isFalse =>
    cases e with
    | connected i =>
      dsimp only at h
      split at h <;> cases h
      exact line_send ..
    | connectFailed i message | writeFailed i message =>
      dsimp only at h
      split at h <;> cases h
      rfl
    | written i =>
      dsimp only at h
      split at h
      · split at h <;> cases h
        exact line_recvResponse ..
      · cases h
    | answer k r | timeout k =>
      dsimp only at h
      split at h <;> cases h
      rfl
    | data k n =>
      dsimp only at h
      split at h <;> cases h
      exact line_foldl_onData ..
    | error k message =>
      dsimp only at h
      split at h
      · split at h <;> cases h <;> rfl
      · cases h
    | closed k =>
      cases h
      rfl
    | close =>
      cases h
      unfold EngineConnection.close
      split <;> rfl

theorem line_request (c : EngineConnection F) (i : Nat) (line : List UInt8) :
    (c.request i line).line = Function.update c.line i line := by
  unfold request
  dsimp only
  split
  · exact line_send ..
  · rfl

end EngineConnection

end LoopStorm.Shim
