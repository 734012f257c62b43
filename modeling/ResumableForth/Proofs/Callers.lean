import ResumableForth.Proofs.Draining

/-! A compiled word and its caller. While the word runs, its caller waits in a frame, with the frames
below untouched and as much room as the running words have taken. Every tick above the caller keeps it
waiting or lets it go on, and so does the unwinding after a failure. So whatever a call comes to, the
caller finds its input, its cursor, its mode, the words around it and the bound as they were. -/
namespace ResumableForth
namespace Machine

section

variable {ν : Type} {caller m m' : Machine ν}

/-- A caller goes on where it was. -/
structure Undisturbed (caller m : Machine ν) : Prop where
  input : m.input = caller.input
  cursor : m.cursor = caller.cursor
  mode : m.mode = caller.mode
  frames : m.frames = caller.frames
  room : m.room = caller.room

theorem Undisturbed.depth (h : Undisturbed caller m) : m.depth = caller.depth :=
  congrArg List.length h.frames

theorem Undisturbed.sameCallers (h : Undisturbed caller m) : SameCallers caller m :=
  ⟨congrArg (reach 0) h.frames, h.room⟩

theorem Undisturbed.calls (h : Undisturbed caller m) : m.calls = caller.calls := by
  rw [Machine.calls, Machine.calls, h.frames]

theorem Undisturbed.depthBound (h : Undisturbed caller m) : m.depthBound = caller.depthBound := by
  rw [Machine.depthBound, Machine.depthBound, h.depth, h.room]

/-- A caller waits in its frame below the words that it has called. -/
def Waits (caller m : Machine ν) : Prop :=
  ∃ inner frame, m.frames = inner ++ frame :: caller.frames ∧ frame.input = caller.input ∧
    frame.cursor = caller.cursor ∧ frame.mode = caller.mode ∧
    m.room + inner.length + 1 = caller.room

namespace Waits

theorem above (h : Waits caller m) : caller.depth < m.depth := by
  obtain ⟨inner, frame, frames, -⟩ := h
  rw [depth, depth, frames, List.length_append, List.length_cons]
  omega

theorem of_enter (name : String) (tokens : List String) (room : caller.room ≠ 0) :
    Waits caller (caller.enter name tokens) := by
  refine ⟨[], ⟨name, 0, caller.input, caller.cursor, caller.mode⟩, rfl, rfl, rfl, rfl, ?_⟩
  show caller.room - 1 + 0 + 1 = caller.room
  omega

theorem of_sameCallers (h : Waits caller m) (same : SameCallers m m') : Waits caller m' := by
  obtain ⟨inner, frame, frames, input, cursor, mode, room⟩ := h
  rw [← same.room] at room
  cases inner with
  | nil =>
    obtain ⟨index, frames'⟩ := same.cons frames
    exact ⟨[], { frame with reached := index }, frames', input, cursor, mode, room⟩
  | cons top inner =>
    obtain ⟨index, frames'⟩ := same.cons frames
    exact ⟨{ top with reached := index } :: inner, frame, frames', input, cursor, mode, room⟩

theorem enter (h : Waits caller m) (name : String) (tokens : List String) (free : m.room ≠ 0) :
    Waits caller (m.enter name tokens) := by
  obtain ⟨inner, frame, frames, input, cursor, mode, room⟩ := h
  refine ⟨⟨name, 0, m.input, m.cursor, m.mode⟩ :: inner, frame, ?_, input, cursor, mode, ?_⟩
  · show _ :: m.frames = _
    rw [frames]
    rfl
  · show m.room - 1 + (inner.length + 1) + 1 = caller.room
    omega

theorem leave (h : Waits caller m) : Waits caller m.leave ∨ Undisturbed caller m.leave := by
  obtain ⟨inner, frame, frames, input, cursor, mode, room⟩ := h
  cases inner with
  | nil =>
    right
    rw [List.nil_append] at frames
    rw [Machine.leave, frames]
    exact ⟨input, cursor, mode, rfl, room⟩
  | cons top inner =>
    left
    rw [List.cons_append] at frames
    rw [Machine.leave, frames]
    refine ⟨inner, frame, rfl, input, cursor, mode, ?_⟩
    show m.room + 1 + inner.length + 1 = caller.room
    rw [List.length_cons] at room
    omega

end Waits

def Called (caller m : Machine ν) : Prop := Waits caller m ∨ Undisturbed caller m

theorem Called.waits (h : Called caller m) (above : caller.depth < m.depth) : Waits caller m := by
  rcases h with waits | back
  · exact waits
  · rw [back.depth] at above
    exact absurd above (Nat.lt_irrefl _)

theorem Called.undisturbed (h : Called caller m) (low : m.depth ≤ caller.depth) :
    Undisturbed caller m := by
  rcases h with waits | back
  · exact absurd waits.above (Nat.not_lt.mpr low)
  · exact back

end

variable {caller m : StandardMachine}

/-- No token that is read above a caller disturbs it. -/
theorem Waits.tick {outcome : Outcome Primitive Unit} (h : Waits caller m)
    (ticked : m.tick Primitive.handler = some outcome) : Called caller outcome.machine := by
  have read : ∀ token, Waits caller (m.read token) := fun token => h.of_sameCallers (.read token m)
  obtain rfl | ⟨token, action, -, asked, rfl⟩ | ⟨token, word, tokens, -, -, -, rfl⟩ := tick_cases ticked
  · have running : m.frames.isEmpty = false := by
      have above := h.above
      cases frames : m.frames with
      | nil => simp [depth, frames] at above
      | cons frame frames => rfl
    simp only [exhaust, running]
    exact h.leave
  · exact .inl ((read token).of_sameCallers (sameCallers_of_act asked))
  · left
    rw [call]
    split
    · exact (read token).of_sameCallers (.record (fun m => .depthReached token m.depthBound) _)
    · rename_i free
      exact (read token).enter token tokens free

theorem keeps_called (caller : StandardMachine) :
    Keeps Primitive.handler caller.depth (Called caller) fun _ => True where
  tick above h ticked := .of_machine ((h.waits above).tick ticked)
  leave above h := (h.waits above).leave

/-- Whatever comes of a call, the caller goes on where it was. -/
theorem undisturbed_of_call {name : String} {tokens : List String} {fuel : Nat}
    {outcome : Outcome Primitive Unit}
    (called : settle Primitive.handler fuel caller.depth (some (caller.call name tokens)) =
      some outcome) : Undisturbed caller outcome.machine := by
  rw [call] at called
  split at called
  · cases called
    exact ⟨rfl, rfl, rfl, rfl, rfl⟩
  · rename_i room
    have entered : Called caller (caller.enter name tokens) := .inl (.of_enter name tokens room)
    have kept := ((keeps_called caller).drain entered called).machine
    exact kept.undisturbed (depth_of_drain called)

theorem undisturbed_of_invoke {name : String} {word : Word Primitive} {tokens : List String}
    {fuel : Nat} {outcome : Outcome Primitive Unit} (found : m.dictionary.find? name = some word)
    (body : word.body = .compiled tokens)
    (invoked : m.invoke Primitive.handler fuel name = some outcome) :
    Undisturbed m outcome.machine := by
  rw [invoke, dispatch, found] at invoked
  simp only [perform, body] at invoked
  exact undisturbed_of_call invoked

theorem undisturbed_of_step {token : String} {word : Word Primitive} {tokens : List String}
    {fuel : Nat} {outcome : Outcome Primitive Unit} (next : m.token? = some token)
    (found : m.dictionary.find? token = some word) (body : word.body = .compiled tokens)
    (runs : m.mode = .execute ∨ (m.mode = .compile ∧ word.immediate = true))
    (stepped : m.step Primitive.handler fuel = some outcome) :
    Undisturbed (m.read token) outcome.machine := by
  have asked : (m.read token).request token = .call token tokens := by
    have found' : (m.read token).dictionary.find? token = some word := found
    have word : word.request token = .call token tokens := by rw [Word.request, body]
    rcases runs with mode | ⟨mode, immediate⟩
    · have mode' : (m.read token).mode = .execute := mode
      rw [request, mode', found']
      exact word
    · have mode' : (m.read token).mode = .compile := mode
      rw [request, mode', found']
      simp only [immediate, if_true]
      exact word
  rw [step, tick_of_token next, asked, ← (SameCallers.read token m).depth] at stepped
  exact undisturbed_of_call stepped

/-- Calling a compiled word never disturbs its caller. However a call comes to its end, the caller's
input, cursor and mode, the words around it with how far they have been read, and the bound on their
number are what they were. So a token of the outermost input that has run a compiled word is read, and
nothing else has happened to the input and the mode. -/
theorem caller_undisturbed {m : StandardMachine} {name : String} {word : Word Primitive}
    {tokens : List String} (found : m.dictionary.find? name = some word)
    (body : word.body = .compiled tokens) (fuel : Nat) :
    (∀ outcome, m.invoke Primitive.handler fuel name = some outcome →
      outcome.machine.input = m.input ∧ outcome.machine.cursor = m.cursor ∧
        outcome.machine.mode = m.mode ∧ outcome.machine.frames = m.frames ∧
        outcome.machine.calls = m.calls ∧ outcome.machine.depthBound = m.depthBound) ∧
      (m.frames = [] → m.token? = some name →
        (m.mode = .execute ∨ (m.mode = .compile ∧ word.immediate = true)) →
        ∀ outcome, m.step Primitive.handler fuel = some outcome →
          outcome.machine.input = m.input ∧ outcome.machine.mode = m.mode ∧
            outcome.machine.cursor = m.cursor + 1 ∧ outcome.machine.frames = [] ∧
            outcome.machine.calls = [] ∧ outcome.machine.depthBound = m.depthBound) := by
  constructor
  · intro outcome invoked
    have back := undisturbed_of_invoke found body invoked
    exact ⟨back.input, back.cursor, back.mode, back.frames, back.calls, back.depthBound⟩
  · intro idle next runs outcome stepped
    have back := undisturbed_of_step next found body runs stepped
    have frames : outcome.machine.frames = [] := by
      rw [back.frames]
      show reach _ m.frames = []
      rw [idle]
      rfl
    have bound : (m.read name).depthBound = m.depthBound := by
      rw [depthBound, depthBound, (SameCallers.read name m).depth]
      rfl
    refine ⟨back.input, back.mode, back.cursor, frames, ?_, back.depthBound.trans bound⟩
    rw [calls, frames]
    rfl

/-- A machine that is about to read an immediate word while compiling: the word closes the definition,
opens another one and calls a word that takes too much from the stack. -/
def troubled : StandardMachine :=
  { start { natives := Primitive.lexicon } with
    dictionary := ⟨Primitive.lexicon, ⟨[("BAD", .compiled true ["1", "DROP", "DROP"]),
      ("WORSE", .compiled true [";", ":", "OTHER", "BAD"]), ("OPEN", .compiled false [])]⟩⟩
    input := ["WORSE", "2"]
    mode := .compile
    openWord := some "OPEN" }

/-- The step fails inside the second word, and so does a call of the first from within another word. -/
theorem caller_undisturbed_troubled :
    (∃ fault next, troubled.step Primitive.handler 9 = some (.error fault next) ∧
      fault.kind = .stackUnderflow ∧ fault.calls.length = 2 ∧ next.openWord = some "OTHER" ∧
      next.input = ["WORSE", "2"] ∧ next.cursor = 1 ∧ next.mode = .compile ∧ next.frames = []) ∧
    ∃ fault next, (troubled.enter "MAIN" []).invoke Primitive.handler 9 "WORSE" =
        some (.error fault next) ∧ fault.calls.length = 3 ∧
      next.frames = [⟨"MAIN", 0, ["WORSE", "2"], 0, .compile⟩] ∧ next.depthBound = 128 := by
  have found : troubled.dictionary.find? "WORSE" =
      some (.compiled true [";", ":", "OTHER", "BAD"]) := rfl
  have steps : ∃ fault next, troubled.step Primitive.handler 9 = some (.error fault next) ∧
      fault.kind = .stackUnderflow ∧ fault.calls.length = 2 ∧ next.openWord = some "OTHER" :=
    ⟨_, _, rfl, rfl, rfl, rfl⟩
  have invokes : ∃ fault next, (troubled.enter "MAIN" []).invoke Primitive.handler 9 "WORSE" =
      some (.error fault next) ∧ fault.calls.length = 3 := ⟨_, _, rfl, rfl⟩
  constructor
  · obtain ⟨fault, next, stepped, kind, calls, opened⟩ := steps
    obtain ⟨input, mode, cursor, frames, -⟩ :=
      (caller_undisturbed found rfl 9).2 rfl rfl (.inr ⟨rfl, rfl⟩) _ stepped
    exact ⟨fault, next, stepped, kind, calls, opened, input, cursor, mode, frames⟩
  · obtain ⟨fault, next, invoked, calls⟩ := invokes
    have inside : (troubled.enter "MAIN" []).dictionary.find? "WORSE" =
      some (.compiled true [";", ":", "OTHER", "BAD"]) := found
    obtain ⟨-, -, -, frames, -, bound⟩ := (caller_undisturbed inside rfl 9).1 _ invoked
    exact ⟨fault, next, invoked, calls, frames, bound⟩

end Machine
end ResumableForth
