import LoopStorm.Backend.Event
import LoopStorm.Lib.Lines
import LoopStorm.Lib.Run

/-!
# The tail-following reader of the exporter

`JsonlReader` of `apps/otel-exporter/src/jsonl-reader.ts`: a process that polls
a growing file, hands its events on, and keeps a cursor in a file of its own.

* `parseLine`, `events` — what a line is worth, and the events of a file.
* `Tail`, `Tail.step` — the file, the cursor file and the process, with any
  number of reads under way, each between two points where it has to wait.
* `Orderly` — no poll during another, no read that ends inside a character, no
  restart before the cursor is saved or inside a line.
* `delivers_once` — **exactly once, in order**: in every orderly run.
-/

namespace LoopStorm.Otel

open LoopStorm.Backend (isJsSpace)
open LoopStorm.Shim (ReplyValue)

/-! ## Lines -/

/-- A parsed audit event: the members of its object. -/
abbrev ParsedEvent : Type := List (String × ReplyValue)

/-- `REQUIRED_EVENT_FIELDS`. -/
def requiredEventFields : List String := ["run_id", "seq", "event_type", "hash", "ts"]

/-- An object has a field, and it is not `null`. -/
def hasField (obj : ParsedEvent) (field : String) : Bool :=
  match Json.lookup field obj with
  | none | some .null => false
  | some _ => true

/-- The event of a line, if it has one. -/
def parseLine (line : List Char) : Option ParsedEvent :=
  match Json.parse line with
  | some (.obj obj) => if requiredEventFields.all (hasField obj) then some obj else none
  | _ => none

/-- What is handed on of a line; an empty one is passed over. -/
def lineEvent (line : List Char) : Option ParsedEvent :=
  let trimmed := line.rdropWhile isJsSpace
  if trimmed = [] then none else parseLine trimmed

/-- The events of a file: its complete lines that are valid events. -/
def events (file : List UInt8) : List ParsedEvent :=
  (Lines.cut 10 file).1.filterMap fun line => lineEvent (Text.decodeLossy none line)

/-! ## The machine -/

/-- Where a call of `readNewBytes` is. -/
inductive Stage where
  /-- not called, or returned -/
  | idle
  /-- waiting for `stat` -/
  | statting
  /-- `stat` has seen a size -/
  | statted (size : Nat)
  /-- waiting for the bytes in between -/
  | reading (start size : Nat)
  /-- waiting for the cursor to be written, the file truncated or not yet; with
  the size it goes on with, after a rotation -/
  | saving (value : Nat) (truncated : Bool) (next : Option Nat)
  deriving DecidableEq

/-- A running exporter. -/
structure Process where
  cursor : Nat
  /-- The start of a line that has not ended. -/
  partialLine : List Char
  reads : Nat → Stage

/-- The file, the cursor file, the process, and all it has handed on. -/
structure Tail where
  file : List UInt8
  /-- The number in the cursor file, if it holds one. -/
  saved : Option Nat
  process : Option Process
  delivered : List ParsedEvent

/-- An empty file nobody has read. -/
def Tail.start : Tail := ⟨[], none, none, []⟩

/-- What may happen to a call of `readNewBytes`. -/
inductive CallEvent where
  /-- it is called -/
  | poll
  /-- `stat` sees the file -/
  | stat
  /-- it goes on with the size -/
  | resume
  /-- the bytes have been read -/
  | read
  /-- `writeFile` truncates the cursor file -/
  | truncate
  /-- `writeFile` has written it -/
  | write
  deriving DecidableEq

/-- What may happen. -/
inductive TailEvent where
  /-- the file grows -/
  | append (bytes : List UInt8)
  /-- the exporter is started and loads its cursor -/
  | launch
  /-- a step of call number `r` -/
  | call (r : Nat) (event : CallEvent)
  /-- the exporter dies -/
  | kill

/-- `loadCursor`: the cursor, and what the cursor file holds then. -/
def loadCursor (saved : Option Nat) (size : Nat) : Nat × Option Nat :=
  match saved with
  | none => (0, none)
  | some value => if value ≤ size then (value, some value) else (0, some 0)

/-- A call moves on. -/
def Process.put (p : Process) (r : Nat) (stage : Stage) : Process :=
  { p with reads := Function.update p.reads r stage }

/-- A call with a size that is not below the cursor. -/
def Process.proceed (p : Process) (r size : Nat) : Process :=
  if size ≤ p.cursor then p.put r .idle else p.put r (.reading p.cursor size)

/-- A call goes on with the size it has seen; below the cursor the file must
have been rotated. -/
def Process.resume (p : Process) (r size : Nat) : Process :=
  if size < p.cursor then
    { p with cursor := 0, partialLine := [] }.put r (.saving 0 false (some size))
  else p.proceed r size

/-- The bytes from the cursor on, as text. -/
def readChunk (file : List UInt8) (start size : Nat) : List Char :=
  Text.decodeLossy none ((file.drop start).take (size - start))

/-- The text read, cut into lines: the last one stays behind. -/
def Process.process (p : Process) (r size : Nat) (chunk : List Char) :
    Process × List ParsedEvent :=
  let lines := Lines.cut '\n' (p.partialLine ++ chunk)
  ({ p with cursor := size, partialLine := lines.2 }.put r (.saving size false none),
    lines.1.filterMap lineEvent)

/-- A call has written the cursor, and returns or goes on. -/
def Process.saved (p : Process) (r : Nat) : Option Nat → Process
  | none => p.put r .idle
  | some size => p.proceed r size

/-- A step of a call. -/
def Tail.callStep (s : Tail) (p : Process) (r : Nat) : CallEvent → Stage → Option Tail
  | .poll, .idle => some { s with process := some (p.put r .statting) }
  | .stat, .statting => some { s with process := some (p.put r (.statted s.file.length)) }
  | .resume, .statted size => some { s with process := some (p.resume r size) }
  | .read, .reading start size =>
    let (p, delivered) := p.process r size (readChunk s.file start size)
    some { s with process := some p, delivered := s.delivered ++ delivered }
  | .truncate, .saving value false next =>
    some { s with saved := none, process := some (p.put r (.saving value true next)) }
  | .write, .saving value true next =>
    some { s with saved := some value, process := some (p.saved r next) }
  | _, _ => none

/-- A step; `none` when it cannot be taken. -/
def Tail.step (s : Tail) : TailEvent → Option Tail
  | .append bytes => some { s with file := s.file ++ bytes }
  | .launch =>
    match s.process with
    | none =>
      let (cursor, saved) := loadCursor s.saved s.file.length
      some { s with saved := saved, process := some ⟨cursor, [], fun _ => .idle⟩ }
    | some _ => none
  | .call r event => s.process.bind fun p => s.callStep p r event (p.reads r)
  | .kill => s.process.map fun _ => { s with process := none }

/-! ## Orderly runs -/

/-- The call is about to write the cursor, or writing it. -/
def Stage.IsSaving : Stage → Prop
  | .saving .. => True
  | _ => False

/-- No poll during another; no read up to the middle of a character; and the
exporter dies only between lines, with its cursor saved. -/
def Orderly (s : Tail) : TailEvent → Prop
  | .call _ .poll => ∀ p ∈ s.process, ∀ r, p.reads r = .idle
  | .call _ .stat => Text.decodeState none s.file = none
  | .kill => ∀ p ∈ s.process, p.partialLine = [] ∧ ∀ r, ¬ (p.reads r).IsSaving
  | _ => True

/-- The text of a file up to a cursor. -/
def textUpTo (file : List UInt8) (cursor : Nat) : List Char :=
  Text.decodeLossy none (file.take cursor)

/-- The process has read up to its cursor: it has handed on the events of the
lines that end there, and keeps the start of the next. -/
structure UpToDate (s : Tail) (p : Process) : Prop where
  bound : p.cursor ≤ s.file.length
  whole : Text.decodeState none (s.file.take p.cursor) = none
  partialLine : p.partialLine = (Lines.cut '\n' (textUpTo s.file p.cursor)).2
  delivered : s.delivered = (Lines.cut '\n' (textUpTo s.file p.cursor)).1.filterMap lineEvent

/-- What holds of the one call under way. -/
def StageOk (s : Tail) (p : Process) : Stage → Prop
  | .idle | .statting => s.saved.getD 0 = p.cursor
  | .statted size =>
    s.saved.getD 0 = p.cursor ∧ p.cursor ≤ size ∧ size ≤ s.file.length ∧
      Text.decodeState none (s.file.take size) = none
  | .reading start size =>
    s.saved.getD 0 = p.cursor ∧ start = p.cursor ∧ p.cursor ≤ size ∧ size ≤ s.file.length ∧
      Text.decodeState none (s.file.take size) = none
  | .saving value _ next => value = p.cursor ∧ next = none

/-- What holds of a process that follows a file. -/
structure Follows (s : Tail) (p : Process) : Prop extends UpToDate s p where
  call : ∃ r, (∀ q, q ≠ r → p.reads q = .idle) ∧ StageOk s p (p.reads r)

/-- What holds while no process is running: one that is started follows. -/
structure Rests (s : Tail) : Prop where
  bound : s.saved.getD 0 ≤ s.file.length
  whole : Text.decodeState none (s.file.take (s.saved.getD 0)) = none
  partialLine : (Lines.cut '\n' (textUpTo s.file (s.saved.getD 0))).2 = []
  delivered : s.delivered =
    (Lines.cut '\n' (textUpTo s.file (s.saved.getD 0))).1.filterMap lineEvent

/-- The invariant of orderly runs. -/
def Tail.Inv (s : Tail) : Prop :=
  match s.process with
  | none => Rests s
  | some p => Follows s p

theorem inv_start : Tail.start.Inv :=
  { bound := Nat.zero_le _, whole := rfl, partialLine := rfl, delivered := rfl }

theorem take_append_of_le {file : List UInt8} {n : Nat} (h : n ≤ file.length)
    (bytes : List UInt8) : (file ++ bytes).take n = file.take n := by
  rw [List.take_append_of_le_length h]

theorem textUpTo_append {file : List UInt8} {n : Nat} (h : n ≤ file.length)
    (bytes : List UInt8) : textUpTo (file ++ bytes) n = textUpTo file n := by
  rw [textUpTo, take_append_of_le h, textUpTo]

/-- A file that grows disturbs no call. -/
theorem StageOk.append {s : Tail} {p : Process} {stage : Stage} (h : StageOk s p stage)
    (bytes : List UInt8) : StageOk { s with file := s.file ++ bytes } p stage := by
  have hlength : s.file.length ≤ (s.file ++ bytes).length := by
    rw [List.length_append]
    exact Nat.le_add_right ..
  cases stage with
  | idle => exact h
  | statting => exact h
  | statted size =>
    obtain ⟨hsaved, hle, hsize, hwhole⟩ := h
    refine ⟨hsaved, hle, hsize.trans hlength, ?_⟩
    dsimp only
    rw [take_append_of_le hsize]
    exact hwhole
  | reading start size =>
    obtain ⟨hsaved, hstart, hle, hsize, hwhole⟩ := h
    refine ⟨hsaved, hstart, hle, hsize.trans hlength, ?_⟩
    dsimp only
    rw [take_append_of_le hsize]
    exact hwhole
  | saving value truncated next => exact h

theorem UpToDate.append {s : Tail} {p : Process} (h : UpToDate s p) (bytes : List UInt8) :
    UpToDate { s with file := s.file ++ bytes } p := by
  constructor
  · dsimp only
    rw [List.length_append]
    exact h.bound.trans (Nat.le_add_right ..)
  · dsimp only
    rw [take_append_of_le h.bound]
    exact h.whole
  · dsimp only
    rw [textUpTo_append h.bound]
    exact h.partialLine
  · dsimp only
    rw [textUpTo_append h.bound]
    exact h.delivered

theorem Rests.append {s : Tail} (h : Rests s) (bytes : List UInt8) :
    Rests { s with file := s.file ++ bytes } := by
  constructor
  · dsimp only
    rw [List.length_append]
    exact h.bound.trans (Nat.le_add_right ..)
  · dsimp only
    rw [take_append_of_le h.bound]
    exact h.whole
  · dsimp only
    rw [textUpTo_append h.bound]
    exact h.partialLine
  · dsimp only
    rw [textUpTo_append h.bound]
    exact h.delivered

/-- A process that is started follows the file from its saved cursor. -/
theorem Rests.launch {s : Tail} (h : Rests s) :
    Follows { s with
        saved := (loadCursor s.saved s.file.length).2
        process := some ⟨(loadCursor s.saved s.file.length).1, [], fun _ => .idle⟩ }
      ⟨(loadCursor s.saved s.file.length).1, [], fun _ => .idle⟩ := by
  have hload : loadCursor s.saved s.file.length = (s.saved.getD 0, s.saved) := by
    cases hsaved : s.saved with
    | none => rfl
    | some value =>
      have hbound := h.bound
      rw [hsaved] at hbound
      exact if_pos hbound
  rw [hload]
  exact { bound := h.bound
          whole := h.whole
          partialLine := h.partialLine.symm
          delivered := h.delivered
          call := ⟨0, fun _ _ => rfl, rfl⟩ }

/-- A process that dies in order leaves its cursor behind. -/
theorem Follows.kill {s : Tail} {p : Process} (h : Follows s p) (hopen : p.partialLine = [])
    (hsaving : ∀ r, ¬ (p.reads r).IsSaving) : Rests { s with process := none } := by
  have hsaved : s.saved.getD 0 = p.cursor := by
    obtain ⟨r, -, hstage⟩ := h.call
    have hnot := hsaving r
    cases hr : p.reads r with
    | saving value truncated next =>
      rw [hr] at hnot
      exact absurd trivial hnot
    | idle => rw [hr] at hstage; exact hstage
    | statting => rw [hr] at hstage; exact hstage
    | statted size => rw [hr] at hstage; exact hstage.1
    | reading start size => rw [hr] at hstage; exact hstage.1
  constructor
  · dsimp only
    rw [hsaved]
    exact h.bound
  · dsimp only
    rw [hsaved]
    exact h.whole
  · dsimp only
    rw [hsaved, ← h.partialLine]
    exact hopen
  · dsimp only
    rw [hsaved]
    exact h.delivered

/-- The text up to a later place, where neither is inside a character. -/
theorem textUpTo_readChunk {file : List UInt8} {start size : Nat} (hle : start ≤ size)
    (hwhole : Text.decodeState none (file.take start) = none) :
    textUpTo file size = textUpTo file start ++ readChunk file start size := by
  have hsplit : file.take size = file.take start ++ (file.drop start).take (size - start) := by
    rw [← List.take_add, Nat.add_sub_cancel' hle]
  rw [textUpTo, hsplit, Text.decode_append hwhole]
  rfl

/-- A call that has read its bytes brings the process up to date. -/
theorem UpToDate.process {s : Tail} {p : Process} (h : UpToDate s p) {r size : Nat}
    (hle : p.cursor ≤ size) (hsize : size ≤ s.file.length)
    (hwhole : Text.decodeState none (s.file.take size) = none) :
    UpToDate { s with
        process := some (p.process r size (readChunk s.file p.cursor size)).1
        delivered := s.delivered ++ (p.process r size (readChunk s.file p.cursor size)).2 }
      (p.process r size (readChunk s.file p.cursor size)).1 := by
  have hcut : Lines.cut '\n' (textUpTo s.file size) =
      ((Lines.cut '\n' (textUpTo s.file p.cursor)).1 ++
          (Lines.cut '\n' (p.partialLine ++ readChunk s.file p.cursor size)).1,
        (Lines.cut '\n' (p.partialLine ++ readChunk s.file p.cursor size)).2) := by
    rw [textUpTo_readChunk hle h.whole, Lines.cut_append, ← h.partialLine]
  constructor
  · exact hsize
  · exact hwhole
  · show _ = (Lines.cut '\n' (textUpTo s.file size)).2
    rw [hcut]
    rfl
  · show _ = (Lines.cut '\n' (textUpTo s.file size)).1.filterMap lineEvent
    rw [hcut, List.filterMap_append, ← h.delivered]
    rfl

/-- The process after a call has moved on, all others being idle. -/
theorem Follows.of_put {s : Tail} {p : Process} {r : Nat} {stage : Stage} (h : UpToDate s p)
    (hothers : ∀ q, q ≠ r → p.reads q = .idle) (hstage : StageOk s p stage) :
    Follows s (p.put r stage) where
  toUpToDate := ⟨h.bound, h.whole, h.partialLine, h.delivered⟩
  call := by
    refine ⟨r, fun q hq => ?_, ?_⟩
    · show Function.update p.reads r stage q = _
      rw [Function.update_of_ne hq]
      exact hothers q hq
    · show StageOk s (p.put r stage) (Function.update p.reads r stage r)
      rw [Function.update_self]
      cases stage <;> exact hstage

/-- A call that is under way is the only one. -/
theorem Follows.others {s : Tail} {p : Process} (h : Follows s p) {r : Nat}
    (hr : p.reads r ≠ .idle) : (∀ q, q ≠ r → p.reads q = .idle) ∧ StageOk s p (p.reads r) := by
  obtain ⟨q, hothers, hstage⟩ := h.call
  by_cases heq : r = q
  · subst heq
    exact ⟨hothers, hstage⟩
  · exact absurd (hothers r heq) hr

/-- With no call under way the saved cursor is the cursor. -/
theorem Follows.saved {s : Tail} {p : Process} (h : Follows s p)
    (hidle : ∀ r, p.reads r = .idle) : s.saved.getD 0 = p.cursor := by
  obtain ⟨r, -, hstage⟩ := h.call
  rw [hidle r] at hstage
  exact hstage

theorem Tail.Inv.call {s t : Tail} {p : Process} (hp : s.process = some p) (h : Follows s p)
    {r : Nat} {event : CallEvent} (horderly : Orderly s (.call r event))
    (hstep : s.callStep p r event (p.reads r) = some t) : t.Inv := by
  cases event with
  | poll =>
    have hidle := horderly p hp
    rw [hidle r] at hstep
    obtain rfl := Option.some.inj hstep
    have hsaved := h.saved hidle
    exact .of_put ⟨h.bound, h.whole, h.partialLine, h.delivered⟩ (fun q _ => hidle q) hsaved
  | stat =>
    cases hr : p.reads r with
    | statting =>
      rw [hr] at hstep
      obtain rfl := Option.some.inj hstep
      obtain ⟨hothers, hstage⟩ := h.others (r := r) (by rw [hr]; exact Stage.noConfusion)
      rw [hr] at hstage
      refine .of_put ⟨h.bound, h.whole, h.partialLine, h.delivered⟩ hothers
        ⟨hstage, h.bound, le_rfl, ?_⟩
      dsimp only
      rw [List.take_length]
      exact horderly
    | idle => rw [hr] at hstep; cases hstep
    | statted size => rw [hr] at hstep; cases hstep
    | reading start size => rw [hr] at hstep; cases hstep
    | saving value truncated next => rw [hr] at hstep; cases hstep
  | resume =>
    cases hr : p.reads r with
    | statted size =>
      rw [hr] at hstep
      obtain rfl := Option.some.inj hstep
      obtain ⟨hothers, hstage⟩ := h.others (r := r) (by rw [hr]; exact Stage.noConfusion)
      rw [hr] at hstage
      obtain ⟨hsaved, hle, hsize, hwhole⟩ := hstage
      rw [Process.resume, if_neg (by omega), Process.proceed]
      split
      · exact .of_put ⟨h.bound, h.whole, h.partialLine, h.delivered⟩ hothers hsaved
      · exact .of_put ⟨h.bound, h.whole, h.partialLine, h.delivered⟩ hothers
          ⟨hsaved, rfl, hle, hsize, hwhole⟩
    | idle => rw [hr] at hstep; cases hstep
    | statting => rw [hr] at hstep; cases hstep
    | reading start size => rw [hr] at hstep; cases hstep
    | saving value truncated next => rw [hr] at hstep; cases hstep
  | read =>
    cases hr : p.reads r with
    | reading start size =>
      rw [hr] at hstep
      obtain rfl := Option.some.inj hstep
      obtain ⟨hothers, hstage⟩ := h.others (r := r) (by rw [hr]; exact Stage.noConfusion)
      rw [hr] at hstage
      obtain ⟨-, rfl, hle, hsize, hwhole⟩ := hstage
      have hnext := h.toUpToDate.process (r := r) hle hsize hwhole
      refine ⟨hnext, r, fun q hq => ?_, ?_⟩
      · show Function.update p.reads r _ q = _
        rw [Function.update_of_ne hq]
        exact hothers q hq
      · show StageOk _ _ (Function.update p.reads r (.saving size false none) r)
        rw [Function.update_self]
        exact ⟨rfl, rfl⟩
    | idle => rw [hr] at hstep; cases hstep
    | statting => rw [hr] at hstep; cases hstep
    | statted size => rw [hr] at hstep; cases hstep
    | saving value truncated next => rw [hr] at hstep; cases hstep
  | truncate =>
    cases hr : p.reads r with
    | saving value truncated next =>
      cases truncated with
      | false =>
        rw [hr] at hstep
        obtain rfl := Option.some.inj hstep
        obtain ⟨hothers, hstage⟩ := h.others (r := r) (by rw [hr]; exact Stage.noConfusion)
        rw [hr] at hstage
        exact .of_put ⟨h.bound, h.whole, h.partialLine, h.delivered⟩ hothers hstage
      | true => rw [hr] at hstep; cases hstep
    | idle => rw [hr] at hstep; cases hstep
    | statting => rw [hr] at hstep; cases hstep
    | statted size => rw [hr] at hstep; cases hstep
    | reading start size => rw [hr] at hstep; cases hstep
  | write =>
    cases hr : p.reads r with
    | saving value truncated next =>
      cases truncated with
      | false => rw [hr] at hstep; cases hstep
      | true =>
        rw [hr] at hstep
        obtain rfl := Option.some.inj hstep
        obtain ⟨hothers, hstage⟩ := h.others (r := r) (by rw [hr]; exact Stage.noConfusion)
        rw [hr] at hstage
        obtain ⟨rfl, rfl⟩ := hstage
        exact .of_put ⟨h.bound, h.whole, h.partialLine, h.delivered⟩ hothers rfl
    | idle => rw [hr] at hstep; cases hstep
    | statting => rw [hr] at hstep; cases hstep
    | statted size => rw [hr] at hstep; cases hstep
    | reading start size => rw [hr] at hstep; cases hstep

theorem Tail.Inv.step {s t : Tail} {event : TailEvent} (h : s.Inv) (horderly : Orderly s event)
    (hstep : s.step event = some t) : t.Inv := by
  unfold Tail.Inv at h
  cases event with
  | append bytes =>
    obtain rfl := Option.some.inj hstep
    unfold Tail.Inv
    cases hp : s.process with
    | none =>
      rw [hp] at h
      have hnext := Rests.append h bytes
      rw [hp] at hnext
      exact hnext
    | some p =>
      rw [hp] at h
      have hnext : Follows { s with file := s.file ++ bytes } p := by
        obtain ⟨r, hothers, hstage⟩ := h.call
        exact ⟨h.toUpToDate.append bytes, r, hothers, hstage.append bytes⟩
      rw [hp] at hnext
      exact hnext
  | launch =>
    cases hp : s.process with
    | none =>
      rw [hp] at h
      rw [Tail.step, hp] at hstep
      obtain rfl := Option.some.inj hstep
      exact h.launch
    | some p => rw [Tail.step, hp] at hstep; cases hstep
  | call r event =>
    rw [Tail.step, Option.bind_eq_some_iff] at hstep
    obtain ⟨p, hp, hcall⟩ := hstep
    rw [hp] at h
    exact Tail.Inv.call hp h horderly hcall
  | kill =>
    rw [Tail.step, Option.map_eq_some_iff] at hstep
    obtain ⟨p, hp, rfl⟩ := hstep
    rw [hp] at h
    obtain ⟨hopen, hsaving⟩ := horderly p hp
    exact h.kill hopen hsaving

/-! ## What is delivered -/

/-- The lines of a text are those of its bytes. -/
theorem events_take (file : List UInt8) (n : Nat) :
    (Lines.cut '\n' (textUpTo file n)).1.filterMap lineEvent = events (file.take n) := by
  rw [textUpTo, Text.cut_decode, events, List.filterMap_map]
  rfl

/-- The events of a file stay when it grows. -/
theorem events_prefix (file : List UInt8) (n : Nat) : events (file.take n) <+: events file :=
  (Lines.cut_prefix (List.take_prefix n file)).filterMap _

/-- What is left of a poll that has seen the size: the bytes are read and the
cursor saved, or there is nothing to read. -/
def pollRest (newBytes : Bool) : List TailEvent :=
  if newBytes then [.call 0 .resume, .call 0 .read, .call 0 .truncate, .call 0 .write]
  else [.call 0 .resume]

/-- A poll that nobody disturbs brings the cursor to the end of the file. -/
theorem exec_poll {s : Tail} {p : Process} (hp : s.process = some p)
    (hidle : ∀ r, p.reads r = .idle) (hbound : p.cursor ≤ s.file.length) :
    ∃ newBytes s₁ s₂ t q, s.step (.call 0 .poll) = some s₁ ∧ s₁.file = s.file ∧
      s₁.step (.call 0 .stat) = some s₂ ∧
      Run.exec Tail.step s₂ (pollRest newBytes) = some t ∧ t.process = some q ∧
      t.file = s.file ∧ q.cursor = s.file.length := by
  refine ⟨decide (p.cursor < s.file.length), ?_⟩
  by_cases hnew : p.cursor < s.file.length
  · have hnot : ¬ s.file.length ≤ p.cursor := by omega
    simp [pollRest, Run.exec, Tail.step, Tail.callStep, hp, hidle, Process.put, Process.resume,
      Process.proceed, Process.process, Process.saved, hnew, hnot, hnew.not_gt]
  · have heq : p.cursor = s.file.length := by omega
    simp [pollRest, Run.exec, Tail.step, Tail.callStep, hp, hidle, Process.put, Process.resume,
      Process.proceed, heq]

theorem orderly_pollRest {newBytes : Bool} {e : TailEvent} (h : e ∈ pollRest newBytes)
    (s : Tail) : Orderly s e := by
  unfold pollRest at h
  split at h
  · simp only [List.mem_cons, List.not_mem_nil, or_false] at h
    rcases h with rfl | rfl | rfl | rfl <;> trivial
  · rw [List.mem_singleton.1 h]
    trivial

/-- **Exactly once, in order.**  In every orderly run what has been handed on is
the events of the file up to the cursor, the first of all its events; and a poll
that nobody disturbs hands on the rest. -/
theorem delivers_once {s : Tail} {es : List TailEvent}
    (hrun : Run.exec Tail.step Tail.start es = some s)
    (horderly : Run.AllEvents Tail.step Orderly Tail.start es) :
    s.delivered <+: events s.file ∧
    (∀ p, s.process = some p → s.delivered = events (s.file.take p.cursor)) ∧
    ∀ p, s.process = some p → (∀ r, p.reads r = .idle) → Text.decodeState none s.file = none →
      ∃ more t, Run.exec Tail.step s more = some t ∧ Run.AllEvents Tail.step Orderly s more ∧
        t.file = s.file ∧ t.delivered = events s.file := by
  have hinv : s.Inv := Run.exec_invariant Tail.step (fun _ _ _ h ho hstep => h.step ho hstep)
    inv_start horderly hrun
  have hfollows : ∀ p, s.process = some p → Follows s p := by
    intro p hp
    unfold Tail.Inv at hinv
    rw [hp] at hinv
    exact hinv
  refine ⟨?_, fun p hp => ?_, fun p hp hidle hwhole => ?_⟩
  · cases hp : s.process with
    | none =>
      have hrests : Rests s := by
        unfold Tail.Inv at hinv
        rw [hp] at hinv
        exact hinv
      rw [hrests.delivered, events_take]
      exact events_prefix ..
    | some p =>
      rw [(hfollows p hp).delivered, events_take]
      exact events_prefix ..
  · rw [(hfollows p hp).delivered, events_take]
  · obtain ⟨newBytes, s₁, s₂, t, q, hpoll, hfile₁, hstat, hrest, hq, hfile, hcursor⟩ :=
      exec_poll hp hidle (hfollows p hp).bound
    have hall : Run.AllEvents Tail.step Orderly s
        (.call 0 .poll :: .call 0 .stat :: pollRest newBytes) := by
      refine .cons Tail.step (fun p' hp' => ?_) hpoll (.cons Tail.step ?_ hstat
        (.of_mem Tail.step (fun e he u => orderly_pollRest he u) s₂))
      · obtain rfl := Option.some.inj (hp.symm.trans hp')
        exact hidle
      · show Text.decodeState none s₁.file = none
        rw [hfile₁]
        exact hwhole
    have hexec : Run.exec Tail.step s (.call 0 .poll :: .call 0 .stat :: pollRest newBytes) =
        some t := by
      rw [Run.exec, hpoll, Option.bind_some, Run.exec, hstat, Option.bind_some, hrest]
    have hlast : t.Inv := Run.exec_invariant Tail.step (fun _ _ _ h ho hstep => h.step ho hstep)
      hinv hall hexec
    unfold Tail.Inv at hlast
    rw [hq] at hlast
    refine ⟨_, t, hexec, hall, hfile, ?_⟩
    have hdelivered : t.delivered = events (t.file.take q.cursor) :=
      hlast.delivered.trans (events_take ..)
    rw [hdelivered, hcursor, hfile, List.take_length]

namespace Sample

/-- The members of an event. -/
def members : List (String × Json String Nat) :=
  [("run_id", .str "r"), ("seq", .num 1), ("event_type", .str "e"), ("hash", .str "h"),
    ("ts", .str "t")]

/-- Its line, as text and in bytes. -/
def text : List Char := Json.render Json.quote Json.natText (.obj members)

def line : List UInt8 := text.map fun c => UInt8.ofNat c.toNat

/-- The event as it is handed on. -/
def event : ParsedEvent := Json.mapNumM Json.natText members

theorem events_line : events (line ++ [10]) = [event] := by
  have hline : 10 ∉ line := by decide +kernel
  have hdecode : Text.decodeLossy none line = text := by decide +kernel
  have htrim : text.rdropWhile isJsSpace = text := by decide +kernel
  have hparse : Json.parse text = some (.obj event) :=
    Json.parse_render Json.natText Json.isNumber_natText (.obj members)
  have hevent : lineEvent text = some event := by
    have hfields : requiredEventFields.all (hasField event) = true := by decide +kernel
    rw [lineEvent, htrim, if_neg (by decide +kernel), parseLine, hparse]
    exact if_pos hfields
  rw [events, Lines.cut_closed hline []]
  simp [hdecode, hevent]

/-- The file is read up to the end of the line, but not of its newline; the
exporter is restarted; and the newline comes. -/
def restarted : List TailEvent :=
  .append line :: .launch :: .call 0 .poll :: .call 0 .stat :: pollRest true ++
    .kill :: .launch :: .append [10] :: .call 0 .poll :: .call 0 .stat :: pollRest true

/-- The event of the line is never handed on. -/
theorem event_lost :
    ∃ t p, Run.exec Tail.step Tail.start restarted = some t ∧ t.process = some p ∧
      t.file = line ++ [10] ∧ p.cursor = t.file.length ∧ p.reads 0 = .idle ∧
      t.delivered = [] ∧ events t.file = [event] := by
  have hcomputed : (Run.exec Tail.step Tail.start restarted).bind (fun t =>
      t.process.map fun p => (t.file, p.cursor, p.reads 0, t.delivered.length)) =
        some (line ++ [10], (line ++ [10]).length, .idle, 0) := by
    decide +kernel
  obtain ⟨t, hrun, hcomputed⟩ := Option.bind_eq_some_iff.1 hcomputed
  obtain ⟨p, hp, hfields⟩ := Option.map_eq_some_iff.1 hcomputed
  simp only [Prod.mk.injEq] at hfields
  obtain ⟨hfile, hcursor, hidle, hdelivered⟩ := hfields
  refine ⟨t, p, hrun, hp, hfile, ?_, hidle, List.length_eq_zero_iff.1 hdelivered, ?_⟩
  · rw [hcursor, hfile]
  · rw [hfile]
    exact events_line

/-- One line, and an exporter nobody disturbs. -/
theorem delivers_once_line :
    ∃ s more t, Run.exec Tail.step Tail.start [.append (line ++ [10]), .launch] = some s ∧
      Run.exec Tail.step s more = some t ∧ t.delivered = [event] := by
  let s : Tail := ⟨line ++ [10], none, some ⟨0, [], fun _ => .idle⟩, []⟩
  have hrun : Run.exec Tail.step Tail.start [.append (line ++ [10]), .launch] = some s := rfl
  have horderly : Run.AllEvents Tail.step Orderly Tail.start [.append (line ++ [10]), .launch] :=
    .of_mem Tail.step (fun e he s => by
      simp only [List.mem_cons, List.not_mem_nil, or_false] at he
      rcases he with rfl | rfl <;> trivial) _
  have hwhole : Text.decodeState none s.file = none := by
    have hnone : (Text.decodeState none (line ++ [10])).isNone = true := by decide +kernel
    exact Option.isNone_iff_eq_none.1 hnone
  obtain ⟨more, t, hmore, -, -, hdelivered⟩ :=
    (delivers_once hrun horderly).2.2 _ rfl (fun _ => rfl) hwhole
  exact ⟨s, more, t, hrun, hmore, hdelivered.trans events_line⟩

end Sample

end LoopStorm.Otel
