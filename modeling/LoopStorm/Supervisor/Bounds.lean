import LoopStorm.Supervisor.Session

/-!
# How far a supervisor session goes

Every call of the model in `SupervisorSession.execute`, with the state of the
session it is made in.

* `asked` — the sessions in which the model is called; `world_watched` says that
  a world that writes down what it is asked sees exactly their histories.
* `Answered` — every call of a tool in a history has its result.
* `Sound`, `turn_sound` — what a turn leaves behind: an answered history, or
  nothing left to spend.
* `execute_bounded` — **the bounds of a session**: it ends, makes 100 calls of
  tools at most, and asks the model only within its budget, before the hundredth
  call, and with an answered history.
-/

namespace LoopStorm.Supervisor

open LoopStorm.Engine (Sha256)
open LoopStorm.Shim (ReplyValue)

/-! ## Histories -/

/-- The call of a tool that a block answers. -/
def ContentBlock.answers : ContentBlock → Option String
  | .toolResult toolUseId _ => some toolUseId
  | _ => none

/-- The calls of tools in a message of the model. -/
def toolUseIds (content : List ContentBlock) : List String :=
  content.filterMap fun
    | .toolUse id _ _ => some id
    | _ => none

/-- Results, one for each of some calls and in their order. -/
def AnswerTo (ids : List String) (results : List ContentBlock) : Prop :=
  results.map ContentBlock.answers = ids.map some

/-- Each message of the model is followed by one of the user with a result for
each call of a tool in it. -/
def Answered : List Message → Prop
  | [] => True
  | .user _ :: ms => Answered ms
  | .assistant (.text _) :: ms => Answered ms
  | .assistant (.blocks content) :: .user (.blocks results) :: ms =>
    AnswerTo (toolUseIds content) results ∧ Answered ms
  | .assistant (.blocks _) :: _ => False

/-- A call has as many results with its id as there are calls with that id: one
where the ids are different. -/
theorem AnswerTo.count {ids : List String} {results : List ContentBlock}
    (h : AnswerTo ids results) (hids : ids.Nodup) {id : String} (hid : id ∈ ids) :
    (results.map ContentBlock.answers).count (some id) = 1 := by
  rw [h, List.count_map_of_injective ids some (Option.some_injective _) id]
  exact List.count_eq_one_of_mem hids hid

theorem AnswerTo.append {ids ids' : List String} {results results' : List ContentBlock}
    (h : AnswerTo ids results) (h' : AnswerTo ids' results') :
    AnswerTo (ids ++ ids') (results ++ results') := by
  rw [AnswerTo, List.map_append, List.map_append, h, h']

/-- A history goes on with a message of the model and what answers it. -/
theorem Answered.append {ms : List Message} (h : Answered ms) {content results : List ContentBlock}
    (hresults : AnswerTo (toolUseIds content) results) :
    Answered (ms ++ [.assistant (.blocks content), .user (.blocks results)]) := by
  fun_induction Answered ms with
  | case1 => exact ⟨hresults, trivial⟩
  | case2 c ms ih => exact ih h
  | case3 c ms ih => exact ih h
  | case4 c r ms ih => exact ⟨h.1, ih h.2⟩
  | case5 => exact h.elim

variable {σ τ : Type}

/-! ## What tools leave alone -/

section Turns

variable [Sha256] {w : World σ} {p : SessionParams}

/-- A part of the session that running tools does not change. -/
structure Framed (w : World σ) (p : SessionParams) (f : Session σ → τ) : Prop where
  count : ∀ (s : Session σ) (n : Nat), f { s with toolCallCount := n } = f s
  dispatch : ∀ (s : Session σ) (name : String) (input : ReplyValue),
    f (dispatch w s name input).1 = f s
  emit : ∀ (s : Session σ) (eventType : String) (extra : Fields),
    f (emitEvent w p s eventType extra) = f s

theorem Framed.runTool {f : Session σ → τ} (h : Framed w p f) (s : Session σ)
    (call : String × String × ReplyValue) : f (runTool w p s call).1 = f s := by
  obtain ⟨id, name, input⟩ := call
  have hcall : f (Supervisor.dispatch w { s with toolCallCount := s.toolCallCount + 1 }
      name input).1 = f s := by
    rw [h.dispatch, h.count]
  unfold Supervisor.runTool
  dsimp only
  split_ifs
  · split
    · rw [h.emit, hcall]
    · split
      · rw [h.emit, hcall]
      · rw [h.emit, h.emit, hcall]
  · rw [h.emit, hcall]

theorem Framed.runTools {f : Session σ → τ} (h : Framed w p f) (s : Session σ)
    (results : List ContentBlock) (calls : List (String × String × ReplyValue)) :
    f (runTools w p s results calls).1 = f s := by
  induction calls generalizing s results with
  | nil => rfl
  | cons call calls ih =>
    have hcall := h.runTool s call
    unfold Supervisor.runTools
    split
    case h_1 s' heq =>
      rw [heq] at hcall
      exact hcall
    case h_2 s' result heq =>
      rw [heq] at hcall
      split_ifs
      · exact hcall
      · rw [ih, hcall]

theorem framed_messages : Framed w p (fun s : Session σ => s.messages) where
  count _ _ := rfl
  dispatch s name input := by
    unfold Supervisor.dispatch
    split_ifs <;> rfl
  emit _ _ _ := rfl

/-! ## Calls and their results -/

/-- A result names the call it is for. -/
theorem runTool_answers {s s' : Session σ} {call : String × String × ReplyValue}
    {result : ContentBlock} (h : runTool w p s call = (s', some result)) :
    result.answers = some call.1 := by
  obtain ⟨id, name, input⟩ := call
  unfold runTool at h
  dsimp only at h
  split_ifs at h
  · split at h
    · cases h
      rfl
    · split at h
      · cases h
      · cases h
        rfl
  · cases h
    rfl

/-- The budget is used up, or the calls. -/
def Session.Exhausted (s : Session σ) : Prop := s.spent = true ∨ maxToolCalls ≤ s.toolCallCount

/-- The results of some calls answer them all, unless nothing is left to spend. -/
theorem runTools_answers {s s' : Session σ} {results results' : List ContentBlock}
    {calls : List (String × String × ReplyValue)} {ids : List String}
    (hresults : AnswerTo ids results)
    (h : runTools w p s results calls = (s', some results')) :
    s'.Exhausted ∨ AnswerTo (ids ++ calls.map (·.1)) results' := by
  induction calls generalizing s results ids with
  | nil =>
    cases h
    rw [List.map_nil, List.append_nil]
    exact Or.inr hresults
  | cons call calls ih =>
    unfold runTools at h
    split at h
    case h_1 => cases h
    case h_2 s₁ result heq =>
      have hone : AnswerTo [call.1] [result] := by
        rw [AnswerTo, List.map_singleton, List.map_singleton, runTool_answers heq]
      split_ifs at h with hstop
      · cases h
        rw [Bool.or_eq_true, decide_eq_true_eq] at hstop
        exact Or.inl hstop
      · rw [List.map_cons, ← List.singleton_append, ← List.append_assoc]
        exact ih (hresults.append hone) h

/-- Calls stop at the limit. -/
theorem runTools_count {s : Session σ} {results : List ContentBlock}
    {calls : List (String × String × ReplyValue)} (h : s.toolCallCount < maxToolCalls) :
    (runTools w p s results calls).1.toolCallCount ≤ maxToolCalls := by
  induction calls generalizing s results with
  | nil => exact h.le
  | cons call calls ih =>
    obtain ⟨hcount, -⟩ := runTool_does (w := w) (p := p) s call
    unfold runTools
    split
    case h_1 s' heq =>
      rw [heq] at hcount
      dsimp only at hcount ⊢
      omega
    case h_2 s' result heq =>
      rw [heq] at hcount
      dsimp only at hcount
      split_ifs with hstop
      · dsimp only
        omega
      · rw [Bool.or_eq_true, decide_eq_true_eq, not_or, not_le] at hstop
        exact ih hstop.2

/-! ## One turn -/

/-- What a turn leaves behind for the next. -/
def Session.Sound (s : Session σ) : Prop := s.Exhausted ∨ Answered s.messages

omit [Sha256] in
theorem toolUseIds_eq (response : LLMResponse) :
    toolUseIds response.content = response.toolUses.map (·.1) := by
  rw [toolUseIds, LLMResponse.toolUses, List.map_filterMap]
  refine List.filterMap_congr fun block _ => ?_
  cases block <;> rfl

theorem respond_sound {s s' : Session σ} {response : LLMResponse} (hs : Answered s.messages)
    (h : respond w p s response = (s', none)) : s'.Sound := by
  unfold respond at h
  split_ifs at h
  · cases h
  · dsimp only at h
    cases hreason : response.stopReason with
    | endTurn => rw [hreason] at h; cases h
    | maxTokens => rw [hreason] at h; cases h
    | toolUse =>
      rw [hreason] at h
      dsimp only at h
      split at h
      · cases h
      · split at h
        · cases h
        · rename_i called results heq
          have hmessages := framed_messages.runTools (w := w) (p := p)
            (s.add (.assistant (.blocks response.content))) [] response.toolUses
          have hanswers := runTools_answers (show AnswerTo [] [] from rfl) heq
          rw [heq] at hmessages
          dsimp only at hmessages
          cases h
          rcases hanswers with hexhausted | hanswers
          · exact Or.inl hexhausted
          · right
            rw [List.nil_append, ← toolUseIds_eq] at hanswers
            show Answered (called.messages ++ _)
            rw [hmessages, Session.add, List.append_assoc]
            exact hs.append hanswers

/-- **What a turn leaves behind** is an answered history, or nothing to spend. -/
theorem turn_sound {s s' : Session σ} (hs : s.Sound) (hcount : s.toolCallCount < maxToolCalls)
    (h : turn w p s = (s', none)) : s'.Sound := by
  unfold turn at h
  split_ifs at h with hspent
  · cases h
  · have hanswered : Answered s.messages := by
      rcases hs with (hspent' | hlimit) | hanswered
      · exact absurd hspent' hspent
      · omega
      · exact hanswered
    split at h
    · cases h
    · refine respond_sound ?_ h
      exact hanswered

theorem respond_count {s : Session σ} {response : LLMResponse}
    (hcount : s.toolCallCount < maxToolCalls) :
    (respond w p s response).1.toolCallCount ≤ maxToolCalls := by
  unfold respond
  split_ifs
  · exact hcount.le
  · dsimp only
    cases response.stopReason with
    | endTurn => exact hcount.le
    | maxTokens => exact hcount.le
    | toolUse =>
      dsimp only
      split
      · exact hcount.le
      · have hcalls : (runTools w p (s.add (.assistant (.blocks response.content))) []
            response.toolUses).1.toolCallCount ≤ maxToolCalls :=
          runTools_count hcount
        split
        case h_1 s' heq =>
          rw [heq] at hcalls
          exact hcalls
        case h_2 s' results heq =>
          rw [heq] at hcalls
          exact hcalls

theorem turn_count {s : Session σ} (hcount : s.toolCallCount < maxToolCalls) :
    (turn w p s).1.toolCallCount ≤ maxToolCalls := by
  unfold turn
  split_ifs
  · exact hcount.le
  · split
    · exact hcount.le
    · apply respond_count
      exact hcount

/-! ## The whole session -/

section Asked

variable (w : World σ) (p : SessionParams)

/-- The sessions in which the loop calls the model, one for each turn that gets
so far. -/
def asked : Nat → Session σ → List (Session σ)
  | 0, _ => []
  | fuel + 1, s =>
    if s.toolCallCount < maxToolCalls ∧ s.spent = false then
      s :: match turn w p s with
        | (_, some _) => []
        | (s', none) => asked fuel s'
    else []

/-- A world that writes down each history the model is given. -/
def World.watched : World (σ × List (List Message)) where
  chat := fun world messages =>
    let (world', response) := w.chat world.1 messages
    ((world', world.2 ++ [messages]), response)
  handle := fun world name input =>
    let (world', outcome) := w.handle world.1 name input
    ((world', world.2), outcome)
  emitEvent := fun world event =>
    let (world', accepted) := w.emitEvent world.1 event
    ((world', world.2), accepted)
  now := fun world => w.now world.1

end Asked

/-- Tools see none of what is written down. -/
theorem framed_watched :
    Framed w.watched p (fun s : Session (σ × List (List Message)) => s.world.2) where
  count _ _ := rfl
  dispatch s name input := by
    unfold Supervisor.dispatch
    split_ifs <;> rfl
  emit _ _ _ := rfl

theorem respond_watched (s : Session (σ × List (List Message))) (response : LLMResponse) :
    (respond w.watched p s response).1.world.2 = s.world.2 := by
  unfold respond
  split_ifs
  · rfl
  · dsimp only
    cases response.stopReason with
    | endTurn => rfl
    | maxTokens => rfl
    | toolUse =>
      dsimp only
      split
      · rfl
      · have hcalls := framed_watched.runTools (w := w.watched) (p := p)
          (s.add (.assistant (.blocks response.content))) [] response.toolUses
        split
        case h_1 s' heq =>
          rw [heq] at hcalls
          exact hcalls
        case h_2 s' results heq =>
          rw [heq] at hcalls
          exact hcalls

/-- A turn gives the model the history of its session, if it has a budget. -/
theorem turn_watched (s : Session (σ × List (List Message))) :
    (turn w.watched p s).1.world.2 =
      s.world.2 ++ if s.spent = false then [s.messages] else [] := by
  unfold turn
  split_ifs with hspent hfresh
  · rw [hspent] at hfresh
    cases hfresh
  · exact (List.append_nil _).symm
  · split
    case h_1 world heq =>
      have hworld := congrArg (fun o => o.1.2) heq
      exact hworld.symm
    case h_2 world response heq =>
      have hworld := congrArg (fun o => o.1.2) heq
      rw [respond_watched]
      exact hworld.symm
  · rename_i hfresh
    exact absurd (Bool.eq_false_iff.2 hspent) hfresh

/-- **A watching world sees the histories of `asked`.** -/
theorem world_watched (fuel : Nat) (s : Session (σ × List (List Message))) :
    (loop w.watched p fuel s).1.world.2 =
      s.world.2 ++ (asked w.watched p fuel s).map Session.messages := by
  induction fuel generalizing s with
  | zero => exact (List.append_nil _).symm
  | succ fuel ih =>
    rw [loop, asked]
    by_cases hcount : s.toolCallCount < maxToolCalls
    · rw [if_pos hcount]
      have hturn := turn_watched (w := w) (p := p) s
      by_cases hspent : s.spent = false
      · rw [if_pos hspent] at hturn
        rw [if_pos ⟨hcount, hspent⟩]
        cases heq : turn w.watched p s with
        | mk s' outcome =>
          rw [heq] at hturn
          cases outcome with
          | some reason => exact hturn
          | none =>
            dsimp only at hturn ⊢
            rw [ih, List.map_cons, hturn, List.append_assoc]
            rfl
      · rw [if_neg fun h => hspent h.2]
        have hended : (turn w.watched p s).2 = some .budgetExhausted := by
          rw [turn, if_pos (by simpa using hspent)]
        rw [if_neg hspent] at hturn
        split
        case h_1 s' reason heq =>
          rw [heq] at hturn
          exact hturn
        case h_2 s' heq =>
          rw [heq] at hended
          cases hended
    · rw [if_neg hcount, if_neg fun h => hcount h.1]
      exact (List.append_nil _).symm

/-- In what state the model is asked. -/
theorem asked_sound {fuel : Nat} {s : Session σ} (hs : s.Sound) :
    ∀ s' ∈ asked w p fuel s,
      s'.toolCallCount < maxToolCalls ∧ s'.estimatedCostUsd < maxSessionCostUsd ∧
        Answered s'.messages := by
  induction fuel generalizing s with
  | zero => exact fun _ h => absurd h List.not_mem_nil
  | succ fuel ih =>
    rw [asked]
    split_ifs with hgo
    · obtain ⟨hcount, hspent⟩ := hgo
      have hcost : s.estimatedCostUsd < maxSessionCostUsd := by
        rw [Session.spent, decide_eq_false_iff_not, not_le] at hspent
        exact hspent
      have hanswered : Answered s.messages := by
        rcases hs with (hspent' | hlimit) | hanswered
        · rw [hspent] at hspent'
          cases hspent'
        · omega
        · exact hanswered
      intro s' hs'
      rcases List.mem_cons.1 hs' with rfl | hs'
      · exact ⟨hcount, hcost, hanswered⟩
      · split at hs'
        · exact absurd hs' List.not_mem_nil
        · rename_i next heq
          exact ih (turn_sound hs hcount heq) s' hs'
    · exact fun _ h => absurd h List.not_mem_nil

theorem loop_count {fuel : Nat} {s : Session σ} (hs : s.toolCallCount ≤ maxToolCalls) :
    (loop w p fuel s).1.toolCallCount ≤ maxToolCalls := by
  induction fuel generalizing s with
  | zero => exact hs
  | succ fuel ih =>
    rw [loop]
    split_ifs with hcount
    · have hturn := turn_count (w := w) (p := p) hcount
      split
      case h_1 s' reason heq =>
        rw [heq] at hturn
        exact hturn
      case h_2 s' heq =>
        rw [heq] at hturn
        exact ih hturn
    · exact hs

/-- More turns than there are calls change nothing. -/
theorem loop_add (extra : Nat) (s : Session σ) :
    loop w p (maxToolCalls + extra) s = loop w p maxToolCalls s := by
  induction extra with
  | zero => rfl
  | succ extra ih => rw [← Nat.add_assoc, loop_fuel (by omega), ih]

/-- **The bounds of a session**, whatever the model and the tools do.  It ends by
itself, after 100 calls of tools at most; the model is asked only while the cost
is below the cap and less than 100 calls were made, and each call of a tool in
the history it is given has its own result in the message after it, the only one
with its id where the calls of a message have different ids. -/
theorem execute_bounded (w : World σ) (p : SessionParams) (world : σ) :
    (∀ fuel, maxToolCalls ≤ fuel → loop w p fuel (started w p world) = execute w p world) ∧
      (execute w p world).1.toolCallCount ≤ maxToolCalls ∧
      (∀ s ∈ asked w p maxToolCalls (started w p world),
        s.toolCallCount < maxToolCalls ∧ s.estimatedCostUsd < maxSessionCostUsd ∧
          Answered s.messages) ∧
      (∀ ids results, AnswerTo ids results → ids.Nodup → ∀ id ∈ ids,
        (results.map ContentBlock.answers).count (some id) = 1) ∧
      (execute w.watched p (world, [])).1.world.2 =
        (asked w.watched p maxToolCalls (started w.watched p (world, []))).map
          Session.messages := by
  refine ⟨fun fuel hfuel => ?_, loop_count (Nat.zero_le _), asked_sound (Or.inr trivial),
    fun _ _ hanswer hids _ hid => hanswer.count hids hid, ?_⟩
  · obtain ⟨extra, rfl⟩ := Nat.exists_eq_add_of_le hfuel
    exact loop_add extra _
  · rw [execute, world_watched]
    rfl

end Turns

namespace Sample

open LoopStorm.Engine.Sample

/-- A model that calls two tools every time it is asked. -/
def restless : World Unit where
  chat := fun _ _ => ((), some
    { content := [.toolUse "call_0" "read_run_events" .null, .toolUse "call_1" "no_such_tool" .null]
      stopReason := .toolUse
      inputTokens := 100000
      outputTokens := 1000 })
  handle := fun _ _ _ => ((), .threw "unreachable")
  emitEvent := fun _ _ => ((), false)
  now := fun _ => "2026-01-31T09:30:00.125Z"

theorem execute_bounded_restless :
    (execute restless params ()).1.toolCallCount ≤ maxToolCalls ∧
      ∀ s ∈ asked restless params maxToolCalls (started restless params ()),
        s.toolCallCount < maxToolCalls ∧ s.estimatedCostUsd < maxSessionCostUsd ∧
          Answered s.messages :=
  ⟨(execute_bounded restless params ()).2.1, (execute_bounded restless params ()).2.2.1⟩

end Sample

end LoopStorm.Supervisor
