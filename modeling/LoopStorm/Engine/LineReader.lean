import LoopStorm.Engine.Serving
import LoopStorm.Lib.Lines

/-!
# The line reader and its chunks

`read_line_limited` of `apps/engine/src/server.rs`, over a buffered reader whose
bytes come in chunks of any length.

* `BufReader` — the buffer, and the chunks that are still to come.
* `BufReader.readLineLimited` — one call, with its loop over the chunks.
* `Calls` — the outcomes of calls repeated until there is no further line.
* `splitOutcomes` — what splitting the stream at its newlines gives.
* `calls_iff` — **the outcomes are those of the stream, wherever its chunks
  end.**
-/

namespace LoopStorm.Engine

open LoopStorm.Shim (newline)

/-! ## The reader -/

/-- What the socket delivers at once: at least one byte. -/
abbrev Chunk : Type := { bytes : List UInt8 // bytes ≠ [] }

/-- A buffered reader. -/
structure BufReader where
  buffer : List UInt8
  /-- What the socket is still to deliver. -/
  chunks : List Chunk

/-- Outcome of reading one line, the end of the stream included. -/
inductive LineOutcome where
  | line (bytes : List UInt8)
  | tooLarge
  | eof
  deriving DecidableEq

namespace BufReader

/-- The bytes that have not been consumed. -/
def stream (reader : BufReader) : List UInt8 :=
  reader.buffer ++ (reader.chunks.map Subtype.val).flatten

/-- An empty buffer is filled with the next chunk, if there is one. -/
def fillBuf (reader : BufReader) : BufReader :=
  match reader.buffer, reader.chunks with
  | [], chunk :: chunks => ⟨chunk.val, chunks⟩
  | _, _ => reader

def consume (reader : BufReader) (n : Nat) : BufReader :=
  { reader with buffer := reader.buffer.drop n }

theorem stream_fillBuf (reader : BufReader) : reader.fillBuf.stream = reader.stream := by
  unfold fillBuf
  split
  case h_1 hbuffer hchunks => simp [stream, hbuffer, hchunks]
  case h_2 => rfl

theorem stream_eq_nil {reader : BufReader} (h : reader.fillBuf.buffer = []) :
    reader.stream = [] := by
  unfold fillBuf at h
  split at h
  case h_1 chunk chunks _ _ => exact absurd h chunk.2
  case h_2 hno =>
    cases hchunks : reader.chunks with
    | nil => simp [stream, h, hchunks]
    | cons chunk chunks => exact absurd hchunks (hno chunk chunks h)

/-- Consuming the start of the buffer consumes the start of the stream. -/
theorem stream_eq_append {reader : BufReader} {front back : List UInt8}
    (h : reader.buffer = front ++ back) :
    reader.stream = front ++ (reader.consume front.length).stream := by
  simp [stream, consume, h]

theorem length_stream_consume {reader : BufReader} (h : reader.buffer ≠ []) :
    (reader.consume reader.buffer.length).stream.length < reader.stream.length := by
  have hpos := List.length_pos_iff.2 h
  rw [stream_eq_append (List.append_nil reader.buffer).symm, List.length_append]
  omega

/-- The loop of `read_line_limited`. -/
def readLoop (maxBytes : Nat) (accumulated : List UInt8) (reader : BufReader) :
    LineOutcome × BufReader :=
  let filled := reader.fillBuf
  if _h : filled.buffer = [] then (.eof, filled)
  else
    match filled.buffer.idxOf? newline with
    | some pos =>
      let consumeLen := pos + 1
      let accumulated := accumulated ++ filled.buffer.take consumeLen
      if maxBytes < accumulated.length then (.tooLarge, filled.consume consumeLen)
      else (.line accumulated, filled.consume consumeLen)
    | none =>
      -- No newline yet: all the buffer is consumed.
      let accumulated := accumulated ++ filled.buffer
      if maxBytes < accumulated.length then (.tooLarge, filled.consume filled.buffer.length)
      else readLoop maxBytes accumulated (filled.consume filled.buffer.length)
termination_by reader.stream.length
decreasing_by
  rw [← stream_fillBuf reader]
  exact length_stream_consume _h

/-- Read bytes until a newline or until `maxBytes` is exceeded. -/
def readLineLimited (reader : BufReader) (maxBytes : Nat) : LineOutcome × BufReader :=
  readLoop maxBytes [] reader

/-! ## One call -/

theorem idxOf?_newline {line rest : List UInt8} (h : newline ∉ line) :
    (line ++ newline :: rest).idxOf? newline = some line.length := by
  induction line with
  | nil => simp [List.idxOf?_cons]
  | cons b line ih =>
    rw [List.mem_cons, not_or] at h
    rw [List.cons_append, List.idxOf?_cons, ih h.2]
    simp [Ne.symm h.1]

/-- Consuming a line up to its newline. -/
theorem position_newline {buffer line rest : List UInt8} (h : newline ∉ line)
    (hbuffer : buffer = line ++ newline :: rest) :
    buffer.idxOf? newline = some line.length ∧ buffer.take (line.length + 1) = line ++ [newline] ∧
      buffer.drop (line.length + 1) = rest := by
  have hsplit : buffer = (line ++ [newline]) ++ rest := by
    rw [hbuffer, List.append_assoc]
    rfl
  refine ⟨?_, ?_, ?_⟩
  · rw [hbuffer, idxOf?_newline h]
  · rw [hsplit, List.take_left' (by simp)]
  · rw [hsplit, List.drop_left' (by simp)]

/-- The loop over one chunk: the newline is there, or all of it is consumed. -/
theorem readLoop_chunk {maxBytes : Nat} {acc : List UInt8} {reader : BufReader}
    (h : reader.fillBuf.buffer ≠ []) :
    (∃ line reader', newline ∉ line ∧ reader.stream = line ++ newline :: reader'.stream ∧
      readLoop maxBytes acc reader =
        (if maxBytes < (acc ++ line ++ [newline]).length then .tooLarge
          else .line (acc ++ line ++ [newline]), reader')) ∨
    ∃ bytes reader', bytes ≠ [] ∧ newline ∉ bytes ∧ reader.stream = bytes ++ reader'.stream ∧
      readLoop maxBytes acc reader =
        if maxBytes < (acc ++ bytes).length then (.tooLarge, reader')
        else readLoop maxBytes (acc ++ bytes) reader' := by
  rw [← stream_fillBuf reader, readLoop]
  generalize reader.fillBuf = filled at h
  dsimp only
  rw [dif_neg h]
  rcases @Lines.open_or_closed _ _ newline filled.buffer with hopen | ⟨line, rest, hbuf, hline⟩
  · refine Or.inr ⟨filled.buffer, filled.consume filled.buffer.length, h, hopen,
      stream_eq_append (List.append_nil filled.buffer).symm, ?_⟩
    rw [List.idxOf?_eq_none_iff.2 hopen]
  · obtain ⟨hfound, htake, -⟩ := position_newline hline hbuf
    have hsplit : filled.buffer = (line ++ [newline]) ++ rest := by
      rw [hbuf, List.append_assoc]
      rfl
    refine Or.inl ⟨line, filled.consume (line.length + 1), hline, ?_, ?_⟩
    · have hstream := stream_eq_append hsplit
      rw [List.length_append, List.length_singleton] at hstream
      rw [hstream, List.append_assoc]
      rfl
    · rw [hfound]
      dsimp only
      rw [htake, ← List.append_assoc]
      split <;> rfl

/-- **One call.**  The bytes of the line read so far and those of the stream give
the outcome, wherever the chunks of the stream end. -/
theorem readLoop_eq {maxBytes : Nat} {acc : List UInt8} {reader : BufReader}
    (hacc : newline ∉ acc) (hlen : acc.length ≤ maxBytes) :
    (∀ line rest, newline ∉ line → acc ++ reader.stream = line ++ newline :: rest →
      ∃ reader', (line.length + 1 ≤ maxBytes → reader'.stream = rest) ∧
        readLoop maxBytes acc reader =
          (if maxBytes < line.length + 1 then .tooLarge else .line (line ++ [newline]), reader')) ∧
    (newline ∉ acc ++ reader.stream →
      ∃ reader', readLoop maxBytes acc reader =
        (if maxBytes < (acc ++ reader.stream).length then .tooLarge else .eof, reader')) := by
  induction hn : reader.stream.length using Nat.strong_induction_on generalizing acc reader with
  | _ n ih =>
  by_cases hbuffer : reader.fillBuf.buffer = []
  · -- The stream is at its end.
    have hstream := stream_eq_nil hbuffer
    have heof : readLoop maxBytes acc reader = (.eof, reader.fillBuf) := by
      rw [readLoop]
      dsimp only
      rw [dif_pos hbuffer]
    rw [hstream, List.append_nil]
    constructor
    · rintro line rest - rfl
      exact absurd (List.mem_append_right _ (List.mem_cons_self ..)) hacc
    · intro _
      exact ⟨reader.fillBuf, by rw [heof, if_neg (Nat.not_lt.2 hlen)]⟩
  · rcases @readLoop_chunk maxBytes acc reader hbuffer with
      ⟨front, reader', hfront, hstream, hcall⟩ | ⟨bytes, reader', hne, hbytes, hstream, hcall⟩
    · -- The newline is in this chunk.
      have hline : newline ∉ acc ++ front := by
        rw [List.mem_append, not_or]
        exact ⟨hacc, hfront⟩
      rw [hstream, ← List.append_assoc]
      constructor
      · intro line rest hnot heq
        have hsplit := congrArg Shim.splitLine heq
        rw [Shim.splitLine_append hline, Shim.splitLine_append hnot] at hsplit
        obtain ⟨rfl, rfl⟩ := Prod.mk.inj (Option.some.inj hsplit)
        refine ⟨reader', fun _ => rfl, ?_⟩
        have hlength : (acc ++ front ++ [newline]).length = (acc ++ front).length + 1 :=
          List.length_append
        rw [hcall, hlength]
      · intro hnot
        exact absurd (List.mem_append_right _ (List.mem_cons_self ..)) hnot
    · -- The chunk is read, and the line goes on in the next one.
      have hread : newline ∉ acc ++ bytes := by
        rw [List.mem_append, not_or]
        exact ⟨hacc, hbytes⟩
      rw [hcall, hstream, ← List.append_assoc]
      by_cases hlong : maxBytes < (acc ++ bytes).length
      · rw [if_pos hlong]
        constructor
        · intro line rest hnot heq
          have hle : (acc ++ bytes).length ≤ line.length := by
            by_contra hlt
            rw [not_le] at hlt
            have hmem : newline ∈ acc ++ bytes := by
              have hget : (acc ++ bytes ++ reader'.stream)[line.length]? = some newline := by
                rw [heq, List.getElem?_append_right (le_refl _), Nat.sub_self]
                rfl
              rw [List.getElem?_append_left hlt] at hget
              exact List.mem_of_getElem? hget
            exact hread hmem
          refine ⟨reader', fun hfits => by omega, ?_⟩
          rw [if_pos (by omega)]
        · intro _
          refine ⟨reader', ?_⟩
          rw [if_pos (by rw [List.length_append]; omega)]
      · rw [if_neg hlong]
        have hpos := List.length_pos_iff.2 hne
        refine ih reader'.stream.length ?_ hread (Nat.not_lt.1 hlong) rfl
        rw [← hn, hstream, List.length_append]
        omega

end BufReader

/-- The reader of a connection takes the turns of this loop, one chunk each. -/
theorem readLoop_eq_turn {acc : List UInt8} {reader : BufReader} (h : reader.buffer ≠ []) :
    BufReader.readLoop maxMessageBytes acc reader =
      match readLineLimited acc reader.buffer with
      | .inl (.line bytes, rest) => (.line bytes, { reader with buffer := rest })
      | .inl (.tooLarge, rest) => (.tooLarge, { reader with buffer := rest })
      | .inr acc' => BufReader.readLoop maxMessageBytes acc' { reader with buffer := [] } := by
  have hfilled : reader.fillBuf = reader := by
    unfold BufReader.fillBuf
    split
    case h_1 hbuffer _ => exact absurd hbuffer h
    case h_2 => rfl
  rw [BufReader.readLoop, hfilled]
  dsimp only
  rw [dif_neg h]
  rcases readLineLimited_cases acc reader.buffer with ⟨line, rest, hline, hbuf, hturn⟩ |
    ⟨hopen, hturn⟩
  · obtain ⟨hfound, htake, hrest⟩ := BufReader.position_newline hline hbuf
    have hdrop : reader.consume (line.length + 1) = { reader with buffer := rest } := by
      rw [BufReader.consume, hrest]
    rw [hturn, hfound]
    dsimp only
    rw [htake, hdrop]
    by_cases hlong : maxMessageBytes < (acc ++ (line ++ [newline])).length
    · rw [if_pos hlong, if_pos hlong]
    · rw [if_neg hlong, if_neg hlong]
  · have hconsume : reader.consume reader.buffer.length = { reader with buffer := [] } := by
      rw [BufReader.consume, List.drop_length]
    rw [hturn, List.idxOf?_eq_none_iff.2 hopen]
    dsimp only
    rw [hconsume]
    by_cases hlong : maxMessageBytes < (acc ++ reader.buffer).length
    · rw [if_pos hlong, if_pos hlong]
    · rw [if_neg hlong, if_neg hlong]

/-! ## Repeated calls -/

/-- The outcomes of repeated calls, up to the first that is no line. -/
inductive Calls (maxBytes : Nat) : BufReader → List LineOutcome → Prop
  | line {reader reader' : BufReader} {bytes : List UInt8} {outcomes : List LineOutcome}
    (call : reader.readLineLimited maxBytes = (.line bytes, reader'))
    (rest : Calls maxBytes reader' outcomes) : Calls maxBytes reader (.line bytes :: outcomes)
  | tooLarge {reader reader' : BufReader}
    (call : reader.readLineLimited maxBytes = (.tooLarge, reader')) :
    Calls maxBytes reader [.tooLarge]
  | eof {reader reader' : BufReader} (call : reader.readLineLimited maxBytes = (.eof, reader')) :
    Calls maxBytes reader [.eof]

/-- The outcomes for the lines of a stream: each with its newline, up to the
first that is too long, and the end behind the open line. -/
def splitOutcomes (maxBytes : Nat) : List (List UInt8) → List UInt8 → List LineOutcome
  | [], last => if maxBytes < last.length then [.tooLarge] else [.eof]
  | line :: lines, last =>
    if maxBytes < (line ++ [newline]).length then [.tooLarge]
    else .line (line ++ [newline]) :: splitOutcomes maxBytes lines last

/-- The outcomes for a stream, cut at its newlines. -/
def streamOutcomes (maxBytes : Nat) (stream : List UInt8) : List LineOutcome :=
  splitOutcomes maxBytes (Lines.cut newline stream).1 (Lines.cut newline stream).2

/-- A reader has one sequence of outcomes at most. -/
theorem Calls.unique {maxBytes : Nat} {reader : BufReader} {outcomes outcomes' : List LineOutcome}
    (h : Calls maxBytes reader outcomes) (h' : Calls maxBytes reader outcomes') :
    outcomes = outcomes' := by
  induction h generalizing outcomes' with
  | line call _ ih =>
    cases h' with
    | line call' rest' =>
      obtain ⟨hline, rfl⟩ := Prod.mk.inj (call.symm.trans call')
      obtain rfl := LineOutcome.line.inj hline
      rw [ih rest']
    | tooLarge call' => cases call.symm.trans call'
    | eof call' => cases call.symm.trans call'
  | tooLarge call =>
    cases h' with
    | line call' rest' => cases call.symm.trans call'
    | tooLarge call' => rfl
    | eof call' => cases call.symm.trans call'
  | eof call =>
    cases h' with
    | line call' rest' => cases call.symm.trans call'
    | tooLarge call' => cases call.symm.trans call'
    | eof call' => rfl

/-- The calls over a reader give the outcomes of its stream. -/
theorem calls_streamOutcomes (maxBytes : Nat) (reader : BufReader) :
    Calls maxBytes reader (streamOutcomes maxBytes reader.stream) := by
  induction hn : reader.stream.length using Nat.strong_induction_on generalizing reader with
  | _ n ih =>
  have hcall := @BufReader.readLoop_eq maxBytes [] reader List.not_mem_nil (Nat.zero_le _)
  rcases @Lines.open_or_closed _ _ newline reader.stream with hopen | ⟨line, rest, hs, hline⟩
  · -- No line is left.
    obtain ⟨reader', hread⟩ := hcall.2 hopen
    rw [streamOutcomes, Lines.cut_open hopen, splitOutcomes]
    rw [List.nil_append] at hread
    by_cases hlong : maxBytes < reader.stream.length
    · rw [if_pos hlong] at hread ⊢
      exact .tooLarge hread
    · rw [if_neg hlong] at hread ⊢
      exact .eof hread
  · obtain ⟨reader', hrest, hread⟩ := hcall.1 line rest hline hs
    rw [streamOutcomes, hs, Lines.cut_closed hline, splitOutcomes, List.length_append,
      List.length_singleton]
    by_cases hlong : maxBytes < line.length + 1
    · rw [if_pos hlong] at hread ⊢
      exact .tooLarge hread
    · rw [if_neg hlong] at hread ⊢
      refine .line hread ?_
      rw [← hrest (Nat.not_lt.1 hlong)]
      refine ih reader'.stream.length ?_ reader' rfl
      rw [← hn, hs, hrest (Nat.not_lt.1 hlong), List.length_append, List.length_cons]
      omega

/-- **Framing does not depend on chunks.**  The outcomes of repeated calls are
those of splitting the stream at its newlines. -/
theorem calls_iff {maxBytes : Nat} {reader : BufReader} {outcomes : List LineOutcome} :
    Calls maxBytes reader outcomes ↔ outcomes = streamOutcomes maxBytes reader.stream := by
  constructor
  · intro h
    exact h.unique (calls_streamOutcomes maxBytes reader)
  · rintro rfl
    exact calls_streamOutcomes maxBytes reader

end LoopStorm.Engine
