import ResumableForth.Proofs.Coherence
import ResumableForth.Proofs.DepthBound
import ResumableForth.Proofs.Failures

/-! The trace of calls. While words are running, each of them has been called by the token in front of its
caller's cursor, and has been read just as far as its frame says. Reading, branching and skipping move a
cursor and the frame together, and a call and a return leave the cursors of the callers where they are;
so a fault that arises in the middle of a step says exactly where the program was. -/
namespace ResumableForth
namespace Machine

/-- The frames of running words above an input that has been read up to a cursor: the innermost word has
been read as far as its frame says, its caller's cursor is behind the token that called it, and the same
holds for the callers. What may be read as the body of a word is given. -/
def Traced (body : String → List String → Prop) : List Frame → List String → Nat → Prop
  | [], _, _ => True
  | frame :: callers, input, cursor =>
    (frame.reached = cursor ∧ cursor ≤ input.length ∧ body frame.word input) ∧
      (∃ index, frame.cursor = index + 1 ∧ frame.input[index]? = some frame.word) ∧
      Traced body callers frame.input frame.cursor

def OnTrack (body : String → List String → Prop) (m : StandardMachine) : Prop :=
  Traced body m.frames m.input m.cursor

namespace OnTrack

variable {body : String → List String → Prop} {m m' : StandardMachine}

theorem of_idle (idle : m.frames = []) : m.OnTrack body := by
  rw [OnTrack, idle]
  trivial

theorem moveTo (h : m.OnTrack body) {index : Nat} (inside : index ≤ m.input.length) :
    (m.moveTo index).OnTrack body := by
  rw [OnTrack] at h ⊢
  show Traced body (reach index m.frames) m.input index
  cases frames : m.frames with
  | nil => trivial
  | cons frame callers =>
    rw [frames] at h
    exact ⟨⟨rfl, inside, h.1.2.2⟩, h.2⟩

theorem change (h : m.OnTrack body) (change : Change m m') : m'.OnTrack body := by
  rcases change.cursor with ⟨frames, cursor⟩ | ⟨index, inside, frames, cursor⟩
  · rw [OnTrack, frames, change.input, cursor]
    exact h
  · rw [OnTrack, frames, change.input, cursor]
    exact h.moveTo inside

theorem read (h : m.OnTrack body) {token : String} (next : m.token? = some token) :
    (m.read token).OnTrack body :=
  h.moveTo (List.getElem?_eq_some_iff.mp next).1

theorem action {α : Type} (h : m.OnTrack body) {action : Action Primitive α}
    (plain : Action.Plain .any (fun _ => True) action) : (Outcome.machine (action m)).OnTrack body :=
  (plain.keeps (fun operation _ _ next kept =>
    operation.meets_of_machine (kept.change (.of_exec operation next))) m h).machine

theorem enter (h : m.OnTrack body) {token : String} (next : m.token? = some token) {tokens : List String}
    (known : body token tokens) : ((m.read token).enter token tokens).OnTrack body :=
  ⟨⟨rfl, Nat.zero_le _, known⟩, ⟨m.cursor, rfl, next⟩, h.read next⟩

theorem leave (h : m.OnTrack body) : m.leave.OnTrack body := by
  cases frames : m.frames with
  | nil =>
    rw [leave_of_idle frames]
    exact h
  | cons frame callers =>
    rw [OnTrack, frames] at h
    simp only [OnTrack, Machine.leave, frames]
    exact h.2.2

theorem unwinding (h : m.OnTrack body) (count : Nat) : (Nat.repeat Machine.leave count m).OnTrack body := by
  induction count with
  | zero => exact h
  | succ count ih => exact ih.leave

/-- A tick keeps the trace, when the word that it calls is known. -/
theorem tick (h : m.OnTrack body)
    (known : ∀ token word tokens, m.dictionary.find? token = some word → word.body = .compiled tokens →
      body token tokens)
    {outcome : Outcome Primitive Unit} (ticked : m.tick Primitive.handler = some outcome) :
    outcome.machine.OnTrack body := by
  obtain rfl | ⟨token, action, next, asked, rfl⟩ | ⟨token, word, tokens, next, found, compiled, rfl⟩ :=
    tick_cases ticked
  · rw [Outcome.machine_ok, exhaust]
    split
    · exact h
    · exact h.leave
  · exact (h.read next).action (plain_of_request Value.closed_true asked)
  · rw [call]
    split
    · exact h.read next
    · exact h.enter next (known token word tokens found compiled)

theorem tickPoint (h : m.OnTrack body)
    (known : ∀ token word tokens, m.dictionary.find? token = some word → word.body = .compiled tokens →
      body token tokens)
    {point : StandardMachine} (passes : TickPoint m point) : point.OnTrack body := by
  cases passes with
  | before => exact h
  | read next => exact h.read next
  | acting next asked passes =>
    obtain ⟨α, first, rest, plain, -, -, rfl⟩ := passes
    exact (h.read next).action plain
  | after ticked => exact h.tick known ticked

end OnTrack

/-- The body that a word has when some tick of a step starts. -/
def BodyDuring (m : StandardMachine) (name : String) (tokens : List String) : Prop :=
  ∃ last word, m.Ticks last ∧ last.dictionary.find? name = some word ∧ word.body = .compiled tokens

/-- The points that a step comes past. -/
def PointOfStep (m point : StandardMachine) : Prop :=
  TickPoint m point ∨
    ∃ next, m.tick Primitive.handler = some (.ok () next) ∧ DrainPoint m.depth next point

theorem Ticks.bodyDuring {m last : StandardMachine} (ticks : m.Ticks last) (token : String)
    (word : Word Primitive) (tokens : List String) (found : last.dictionary.find? token = some word)
    (compiled : word.body = .compiled tokens) : m.BodyDuring token tokens :=
  ⟨last, word, ticks, found, compiled⟩

/-- Every tick of a step starts with a trace of what the step has called. -/
theorem Ticks.onTrack {m last : StandardMachine} (idle : m.frames = []) (ticks : m.Ticks last) :
    last.OnTrack m.BodyDuring :=
  ticks.keeps (OnTrack m.BodyDuring) (.of_idle idle) fun ticks ticked h =>
    h.tick ticks.bodyDuring ticked

theorem PointOfStep.onTrack {m point : StandardMachine} (idle : m.frames = [])
    (passes : m.PointOfStep point) : point.OnTrack m.BodyDuring := by
  rcases passes with reading | ⟨next, ticked, passes⟩
  · exact (OnTrack.of_idle idle).tickPoint Ticks.first.bodyDuring reading
  · cases passes with
    | running reaches above passes =>
      have ticks : m.Ticks _ := .later ticked reaches above
      exact (ticks.onTrack idle).tickPoint ticks.bodyDuring passes
    | ending reaches above failed few =>
      have ticks : m.Ticks _ := .later ticked reaches above
      exact ((ticks.onTrack idle).tick ticks.bodyDuring failed).unwinding _

/-- A fault carries the words that are running; for want of room it arises only where there is none. -/
theorem fault_of_tick {m failed : StandardMachine} {fault : Fault}
    (ticked : m.tick Primitive.handler = some (.error fault failed)) :
    fault.calls = failed.calls ∧ (fault.kind = .callDepthExceeded → failed.room = 0) := by
  have native : fault.IsNative failed →
      fault.calls = failed.calls ∧ (fault.kind = .callDepthExceeded → failed.room = 0) := by
    intro native
    refine ⟨native.calls, fun kind => ?_⟩
    have other := native.kind
    rw [kind] at other
    cases other
  obtain ended | ⟨token, action, next, asked, acted⟩ | ⟨token, word, tokens, -, -, -, called⟩ :=
    tick_cases ticked
  · cases ended
  · obtain ⟨primitive, -, rfl⟩ | rfl | rfl | rfl := action_cases next asked
    · exact native (Action.RaisesNative.primitive primitive _ _ _ acted.symm)
    · cases acted
    · exact native (Action.RaisesNative.edit _ _ _ _ acted.symm)
    · cases acted
      exact ⟨rfl, by rintro ⟨⟩⟩
  · rw [call] at called
    split at called
    · rename_i full
      cases called
      exact ⟨rfl, fun _ => full⟩
    · cases called

/-- What a fault says about the running words is true: the word of each item, innermost first, is the token
in front of the cursor in what its caller was reading, the index of each item is where the cursor is in
what the word reads, and that is the body of the word. -/
structure Faithful (body : String → List String → Prop) (m : StandardMachine) : Prop where
  called : ∀ {k : Nat} {frame : Frame} {item : CallItem}, m.frames[k]? = some frame →
    m.calls[k]? = some item → 0 < frame.cursor ∧ frame.input[frame.cursor - 1]? = some item.word
  waiting : ∀ {k : Nat} {frame : Frame} {item : CallItem}, m.frames[k]? = some frame →
    m.calls[k + 1]? = some item → item.index = frame.cursor
  running : ∀ {item : CallItem}, m.calls[0]? = some item → item.index = m.cursor
  bodies : ∀ {k : Nat} {item : CallItem} {tokens : List String}, m.calls[k]? = some item →
    m.inputs[k]? = some tokens → body item.word tokens ∧ item.index ≤ tokens.length

theorem Traced.level {body : String → List String → Prop} {frames : List Frame} {input : List String}
    {cursor : Nat} (h : Traced body frames input cursor) {k : Nat} {frame : Frame}
    (found : frames[k]? = some frame) :
    (∃ index, frame.cursor = index + 1 ∧ frame.input[index]? = some frame.word) ∧
      (cursor :: frames.map Frame.cursor)[k]? = some frame.reached ∧
      ∃ tokens, (input :: frames.map Frame.input)[k]? = some tokens ∧ body frame.word tokens ∧
        frame.reached ≤ tokens.length := by
  induction frames generalizing input cursor k with
  | nil => simp at found
  | cons first callers ih =>
    obtain ⟨⟨reached, inside, known⟩, called, outer⟩ := h
    cases k with
    | zero =>
      obtain rfl : first = frame := by simpa using found
      rw [reached]
      exact ⟨called, rfl, input, rfl, known, inside⟩
    | succ k => exact ih outer found

theorem OnTrack.faithful {body : String → List String → Prop} {m : StandardMachine}
    (h : m.OnTrack body) : m.Faithful body := by
  have level : ∀ {k : Nat} {item : CallItem}, m.calls[k]? = some item →
      ∃ frame, m.frames[k]? = some frame ∧ item = ⟨frame.word, frame.reached⟩ := by
    intro k item found
    rw [calls, List.getElem?_map, Option.map_eq_some_iff] at found
    obtain ⟨frame, there, same⟩ := found
    exact ⟨frame, there, same.symm⟩
  constructor
  · intro k frame item here found
    obtain ⟨frame', there, rfl⟩ := level found
    obtain rfl : frame = frame' := Option.some.inj (here.symm.trans there)
    obtain ⟨⟨index, cursor, token⟩, -⟩ := Traced.level h here
    rw [cursor]
    exact ⟨Nat.succ_pos index, token⟩
  · intro k frame item here found
    obtain ⟨frame', there, rfl⟩ := level found
    obtain ⟨-, reached, -⟩ := Traced.level h there
    rw [List.getElem?_cons_succ, List.getElem?_map, here] at reached
    exact (Option.some.inj reached).symm
  · intro item found
    obtain ⟨frame, there, rfl⟩ := level found
    obtain ⟨-, reached, -⟩ := Traced.level h there
    exact (Option.some.inj reached).symm
  · intro k item tokens found here
    obtain ⟨frame, there, rfl⟩ := level found
    obtain ⟨-, -, tokens', here', known, inside⟩ := Traced.level h there
    obtain rfl : tokens = tokens' := Option.some.inj (here.symm.trans here')
    exact ⟨known, inside⟩

/-- The trace of calls is true at every point of a step of a machine that runs no word. So a step that fails
has failed at a point where just the words of its fault were running, none at the outermost level and as
many as may when there was no room for one more. -/
theorem step_traces_calls {m : StandardMachine} (idle : m.frames = []) :
    (∀ point, m.PointOfStep point → point.Faithful m.BodyDuring) ∧
    ∀ fuel fault last, m.step Primitive.handler fuel = some (.error fault last) →
      ∃ x failed, m.Ticks x ∧ x.tick Primitive.handler = some (.error fault failed) ∧
        last = failed.unwind 0 ∧ failed.Faithful m.BodyDuring ∧
        fault.calls = failed.calls ∧ fault.calls.length = x.depth ∧
        (fault.kind = .callDepthExceeded → fault.calls.length = m.depthBound) := by
  refine ⟨fun point passes => (passes.onTrack idle).faithful, ?_⟩
  intro fuel fault last stepped
  obtain ⟨x, failed, ticks, ticked, unwound⟩ := exists_tick_of_step_error stepped
  rw [(frames_eq_nil_iff m).mp idle] at unwound
  obtain ⟨carried, full⟩ := fault_of_tick ticked
  have trace := (ticks.onTrack idle).tick ticks.bodyDuring ticked
  have same := sameCallers_of_tick_error ticked
  have bound : failed.depthBound = m.depthBound := by
    have start : x.depthBound = m.depthBound :=
      ticks.keeps (·.depthBound = m.depthBound) rfl fun _ ticked kept =>
        (invariant_depthBound _).tick kept ticked
    rw [same.depthBound, start]
  refine ⟨x, failed, ticks, ticked, unwound, trace.faithful, carried, ?_, ?_⟩
  · rw [carried, length_calls, same.depth]
  · intro kind
    rw [carried, length_calls, ← bound, depthBound, full kind, Nat.add_zero]

/-- A machine in which two words call each other, and no more than two may run. -/
def entangled : StandardMachine :=
  { start { natives := Primitive.lexicon, depthBound := 2 } with
    dictionary := ⟨Primitive.lexicon, ⟨[("OUTER", .compiled false ["1", "INNER"]),
      ("INNER", .compiled false ["DROP", "(", "again", ")", "OUTER", "2"])]⟩⟩
    input := ["7", "OUTER", "8"]
    cursor := 1 }

/-- The third call fails. The fault says that the inner word has been read past its comment and up to the
call, and the outer one to its end. -/
theorem step_traces_calls_entangled :
    ∃ fault last, entangled.step Primitive.handler 10 = some (.error fault last) ∧
      fault.kind = .callDepthExceeded ∧ fault.calls = [⟨"INNER", 5⟩, ⟨"OUTER", 2⟩] ∧
      fault.calls.length = entangled.depthBound ∧
      ∃ failed : StandardMachine, failed.calls = fault.calls ∧ failed.Faithful entangled.BodyDuring := by
  have stepped : ∃ fault last, entangled.step Primitive.handler 10 = some (.error fault last) ∧
      fault.kind = .callDepthExceeded ∧ fault.calls = [⟨"INNER", 5⟩, ⟨"OUTER", 2⟩] :=
    ⟨_, _, rfl, rfl, rfl⟩
  obtain ⟨fault, last, stepped, kind, calls⟩ := stepped
  obtain ⟨x, failed, -, -, -, trace, carried, -, full⟩ :=
    (step_traces_calls (m := entangled) rfl).2 10 fault last stepped
  exact ⟨fault, last, stepped, kind, calls, full kind, failed, carried.symm, trace⟩

end Machine
end ResumableForth
