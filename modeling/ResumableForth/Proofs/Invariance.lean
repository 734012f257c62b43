import ResumableForth.Primitive
import ResumableForth.Proofs.Composition

/-! What a machine does with a token, and what evaluation keeps. A token asks for an action that is put
together from operations, or for the call of a compiled word. So a property of machines that the
operations, the entering and leaving of words and the halt keep is kept by every step, by every run
and by every interpretation, whether they succeed or fail. The callers of the running word are kept by
every action; hence a step of a machine that runs no word ends with no word running. -/
namespace ResumableForth

inductive Request
  | act (action : Action Primitive Unit)
  | call (name : String) (tokens : List String)

def Word.request (name : String) (word : Word Primitive) : Request :=
  match word.body with
  | .native primitive => .act primitive.run
  | .compiled tokens => .call name tokens

namespace Machine

def request (token : String) (m : StandardMachine) : Request :=
  match m.mode, m.dictionary.find? token with
  | .execute, some word => word.request token
  | .execute, none => .act (Action.push (Value.literal token))
  | .compile, some word =>
    if word.immediate then word.request token else .act (Action.compile [token])
  | .compile, none => .act (Action.compile [token])
  | .halt, _ => .act (Action.fail (.readWhileHalted token))

/-- A request is met at once, as far as a called word is entered. -/
def grant (m : StandardMachine) : Request → Outcome Primitive Unit
  | .act action => action m
  | .call name tokens => m.call name tokens

def read {ν : Type} (token : String) (m : Machine ν) : Machine ν :=
  (m.moveTo (m.cursor + 1)).record fun m => .tokenRead token m.mode m.depth

theorem perform_eq_grant (name : String) (word : Word Primitive) (m : StandardMachine) :
    m.perform Primitive.handler name word = some (m.grant (word.request name)) := by
  rw [perform, Word.request]
  cases word.body <;> rfl

theorem obey_eq_grant (token : String) (m : StandardMachine) :
    m.obey Primitive.handler token = some (m.grant (m.request token)) := by
  rw [obey, request]
  cases m.mode with
  | execute =>
    rw [execute]
    cases m.dictionary.find? token with
    | none => rfl
    | some word => exact perform_eq_grant token word m
  | compile =>
    rw [compile]
    cases m.dictionary.find? token with
    | none => rfl
    | some word =>
      by_cases immediate : word.immediate = true
      · simp only [immediate, if_true, perform_eq_grant]
      · simp only [immediate]
        rfl
  | halt => rfl

theorem tick_of_token {token : String} {m : StandardMachine} (next : m.token? = some token) :
    m.tick Primitive.handler = some ((m.read token).grant ((m.read token).request token)) := by
  rw [tick, next]
  exact obey_eq_grant token _

theorem tick_of_end {m : StandardMachine} (next : m.token? = none) :
    m.tick Primitive.handler = some (.ok () m.exhaust) := by
  rw [tick, next]

theorem exists_tick (m : StandardMachine) : ∃ outcome, m.tick Primitive.handler = some outcome := by
  cases next : m.token? with
  | none => exact ⟨_, tick_of_end next⟩
  | some token => exact ⟨_, tick_of_token next⟩

theorem leave_of_idle {ν : Type} {m : Machine ν} (idle : m.frames = []) : m.leave = m := by
  rw [leave, idle]

theorem depth_repeat_leave {ν : Type} (count : Nat) (m : Machine ν) :
    (Nat.repeat leave count m).depth = m.depth - count := by
  induction count with
  | zero => rfl
  | succ count ih =>
    rw [Nat.repeat, depth_leave, ih]
    omega

/-- What ticks above a base keep, and the faults that they raise. -/
structure Keeps {ν : Type} (run : Handler ν) (base : Nat) (state : Machine ν → Prop)
    (raised : Fault → Prop) : Prop where
  tick : ∀ {m outcome}, base < m.depth → state m → m.tick run = some outcome →
    Outcome.Within state raised outcome
  leave : ∀ {m}, base < m.depth → state m → state m.leave

namespace Keeps

variable {ν : Type} {run : Handler ν} {base fuel : Nat} {state : Machine ν → Prop}
  {raised : Fault → Prop} {m : Machine ν} {outcome : Outcome ν Unit}

theorem unwinding (keeps : Keeps run base state raised) (before : state m) {count : Nat}
    (few : count ≤ m.depth - base) : state (Nat.repeat Machine.leave count m) := by
  induction count with
  | zero => exact before
  | succ count ih =>
    have above : base < (Nat.repeat Machine.leave count m).depth := by
      rw [depth_repeat_leave]
      omega
    exact keeps.leave above (ih (Nat.le_of_succ_le few))

theorem drain (keeps : Keeps run base state raised) (before : state m)
    (drained : m.drain run base fuel = some outcome) : Outcome.Within state raised outcome := by
  induction fuel generalizing m with
  | zero =>
    rw [Machine.drain] at drained
    split at drained
    · cases drained
    · cases drained
      exact before
  | succ fuel ih =>
    rw [Machine.drain] at drained
    split at drained
    · rename_i above
      rw [isAbove_iff] at above
      cases ticked : m.tick run with
      | none => simp [ticked] at drained
      | some first =>
        have kept := keeps.tick above before ticked
        cases first with
        | ok _ next =>
          simp only [ticked] at drained
          exact ih kept drained
        | error fault next =>
          simp only [ticked] at drained
          cases drained
          exact ⟨kept.1, keeps.unwinding kept.2 (Nat.le_refl _)⟩
    · cases drained
      exact before

theorem settle (keeps : Keeps run base state raised) {begun : Option (Outcome ν Unit)}
    (first : ∀ {outcome}, begun = some outcome → Outcome.Within state raised outcome)
    (settled : settle run fuel base begun = some outcome) : Outcome.Within state raised outcome := by
  cases begun with
  | none => cases settled
  | some start =>
    have kept := first rfl
    cases start with
    | ok _ next => exact keeps.drain kept settled
    | error fault next =>
      cases settled
      exact kept

end Keeps

/-- What every step keeps is kept by a run. -/
theorem within_of_runToHalt {ν : Type} {run : Handler ν} {state : Machine ν → Prop}
    {raised : Fault → Prop} {fuel : Nat} {m : Machine ν} {outcome : Outcome ν Unit}
    (kept : ∀ {m fuel outcome}, state m → m.step run fuel = some outcome →
      Outcome.Within state raised outcome)
    (before : state m) (halted : m.runToHalt run fuel = some outcome) :
    Outcome.Within state raised outcome := by
  induction fuel generalizing m with
  | zero =>
    rw [Machine.runToHalt] at halted
    split at halted
    · cases halted
      exact before
    · cases halted
  | succ fuel ih =>
    rw [Machine.runToHalt] at halted
    split at halted
    · cases halted
      exact before
    · cases stepped : m.step run fuel with
      | none => simp [stepped] at halted
      | some first =>
        have after := kept before stepped
        cases first with
        | ok _ next =>
          simp only [stepped] at halted
          exact ih after halted
        | error fault next =>
          simp only [stepped] at halted
          cases halted
          exact after

structure Steady {ν : Type} (run : Handler ν) (state : Machine ν → Prop) (raised : Fault → Prop) :
    Prop where
  tick : ∀ {m outcome}, state m → m.tick run = some outcome → Outcome.Within state raised outcome
  dispatch : ∀ {name m outcome}, state m → m.dispatch run name = some outcome →
    Outcome.Within state raised outcome
  leave : ∀ {m}, state m → state m.leave

namespace Steady

variable {ν : Type} {run : Handler ν} {fuel : Nat} {state : Machine ν → Prop}
  {raised : Fault → Prop} {m : Machine ν} {outcome : Outcome ν Unit}

theorem keeps (steady : Steady run state raised) (base : Nat) : Keeps run base state raised :=
  ⟨fun _ => steady.tick, fun _ => steady.leave⟩

theorem step (steady : Steady run state raised) (before : state m)
    (stepped : m.step run fuel = some outcome) : Outcome.Within state raised outcome :=
  (steady.keeps _).settle (steady.tick before) stepped

theorem invoke (steady : Steady run state raised) {name : String} (before : state m)
    (invoked : m.invoke run fuel name = some outcome) : Outcome.Within state raised outcome :=
  (steady.keeps _).settle (steady.dispatch before) invoked

theorem runToHalt (steady : Steady run state raised) (before : state m)
    (halted : m.runToHalt run fuel = some outcome) : Outcome.Within state raised outcome :=
  within_of_runToHalt steady.step before halted

end Steady

/-- A property of machines that evaluation keeps, when only values of a class are on the stack. -/
structure Invariant (good : Value → Prop) (state : StandardMachine → Prop) : Prop where
  closed : Value.Closed good
  operation : ∀ {α : Type} (operation : Op α), operation.Pre good → ∀ m, state m →
    Outcome.Meets (operation.Post good) state (operation.exec m)
  record : ∀ event m, state m → state (m.record event)
  enter : ∀ name tokens word m, m.dictionary.find? name = some word →
    word.body = .compiled tokens → m.room ≠ 0 → state m → state (m.enter name tokens)
  leave : ∀ m, state m → state m.leave
  halt : ∀ m, m.frames = [] → state m → state { m with mode := .halt }

end Machine

theorem Value.Closed.literal {good : Value → Prop} (closed : Value.Closed good) (token : String) :
    good (Value.literal token) := by
  rw [Value.literal]
  split
  · exact closed.int _
  · split
    · rename_i x read
      exact closed.float x (Option.filter_eq_some_iff.mp read).2
    · split
      · exact closed.bool _
      · exact closed.str _

namespace Machine

theorem native_of_word {name : String} {action : Action Primitive Unit} {word : Word Primitive}
    (asked : word.request name = .act action) :
    ∃ primitive : Primitive, word.body = .native primitive ∧ action = primitive.run := by
  rw [Word.request] at asked
  split at asked
  · rename_i primitive body
    cases asked
    exact ⟨primitive, body, rfl⟩
  · cases asked

theorem body_of_word {name other : String} {tokens : List String} {word : Word Primitive}
    (asked : word.request name = .call other tokens) : other = name ∧ word.body = .compiled tokens := by
  rw [Word.request] at asked
  split at asked
  · cases asked
  · rename_i body
    cases asked
    exact ⟨rfl, body⟩

/-- A token that calls no word runs a native word, is pushed or compiled, or is refused. -/
theorem act_of_request {token : String} {m : StandardMachine} {action : Action Primitive Unit}
    (asked : m.request token = .act action) :
    (∃ (word : Word Primitive) (primitive : Primitive), m.dictionary.find? token = some word ∧
      word.body = .native primitive ∧
      (m.mode = .execute ∨ (m.mode = .compile ∧ word.immediate = true)) ∧ action = primitive.run) ∨
      action = Action.push (Value.literal token) ∨ action = Action.compile [token] ∨
      (m.mode = .halt ∧ action = Action.fail (.readWhileHalted token)) := by
  rw [request] at asked
  split at asked
  · rename_i word mode found
    obtain ⟨primitive, body, run⟩ := native_of_word asked
    exact .inl ⟨word, primitive, found, body, .inl mode, run⟩
  · cases asked
    exact .inr (.inl rfl)
  · rename_i word mode found
    split at asked
    · rename_i immediate
      obtain ⟨primitive, body, run⟩ := native_of_word asked
      exact .inl ⟨word, primitive, found, body, .inr ⟨mode, immediate⟩, run⟩
    · cases asked
      exact .inr (.inr (.inl rfl))
  · cases asked
    exact .inr (.inr (.inl rfl))
  · rename_i mode
    cases asked
    exact .inr (.inr (.inr ⟨mode, rfl⟩))

/-- The actions that tokens ask for are put together from operations, and a token that is pushed is of
the class of values that is followed. -/
theorem plain_of_request_stable {good : Value → Prop} (stable : Value.Stable good) {token : String}
    (literal : good (Value.literal token)) {m : StandardMachine} {action : Action Primitive Unit}
    (asked : m.request token = .act action) : Action.Plain .any good action := by
  obtain ⟨word, primitive, -, -, -, rfl⟩ | rfl | rfl | ⟨-, rfl⟩ := act_of_request asked
  · exact .primitive stable primitive
  · exact .push literal trivial
  · exact (Action.Composed.edit _).mono fun _ => trivial
  · exact .fail _ rfl

theorem plain_of_request {good : Value → Prop} (closed : Value.Closed good) {token : String}
    {m : StandardMachine} {action : Action Primitive Unit} (asked : m.request token = .act action) :
    Action.Plain .any good action :=
  plain_of_request_stable closed.stable (closed.literal token) asked

/-- A token that calls a word is its name. The word is a compiled one, and immediate unless the machine
executes. -/
theorem call_of_request {token name : String} {tokens : List String} {m : StandardMachine}
    (asked : m.request token = .call name tokens) :
    name = token ∧ ∃ word, m.dictionary.find? token = some word ∧ word.body = .compiled tokens ∧
      (m.mode = .execute ∨ (m.mode = .compile ∧ word.immediate = true)) := by
  rw [request] at asked
  split at asked
  · rename_i word mode found
    obtain ⟨rfl, body⟩ := body_of_word asked
    exact ⟨rfl, word, found, body, .inl mode⟩
  · cases asked
  · rename_i word mode found
    split at asked
    · rename_i immediate
      obtain ⟨rfl, body⟩ := body_of_word asked
      exact ⟨rfl, word, found, body, .inr ⟨mode, immediate⟩⟩
    · cases asked
  · cases asked
  · cases asked

/-- What a tick can be: the end of the input, an action, or the call of a compiled word. -/
theorem tick_cases {m : StandardMachine} {outcome : Outcome Primitive Unit}
    (ticked : m.tick Primitive.handler = some outcome) :
    outcome = .ok () m.exhaust ∨
      (∃ token action, m.token? = some token ∧ (m.read token).request token = .act action ∧
        outcome = action (m.read token)) ∨
      ∃ token word tokens, m.token? = some token ∧ (m.read token).dictionary.find? token = some word ∧
        word.body = .compiled tokens ∧ outcome = (m.read token).call token tokens := by
  cases next : m.token? with
  | none =>
    rw [tick_of_end next] at ticked
    exact .inl (Option.some.inj ticked).symm
  | some token =>
    rw [tick_of_token next] at ticked
    have granted := (Option.some.inj ticked).symm
    cases asked : (m.read token).request token with
    | act action =>
      rw [asked] at granted
      exact .inr (.inl ⟨token, action, rfl, asked, granted⟩)
    | call name tokens =>
      obtain ⟨rfl, word, found, body, -⟩ := call_of_request asked
      rw [asked] at granted
      exact .inr (.inr ⟨_, word, tokens, rfl, found, body, granted⟩)

theorem dispatch_cases {m : StandardMachine} {name : String} {outcome : Outcome Primitive Unit}
    (dispatched : m.dispatch Primitive.handler name = some outcome) :
    outcome = Action.fail (.unknownWord name) m ∨ (∃ primitive : Primitive, outcome = primitive.run m) ∨
      ∃ word tokens, m.dictionary.find? name = some word ∧ word.body = .compiled tokens ∧
        outcome = m.call name tokens := by
  rw [Machine.dispatch] at dispatched
  split at dispatched
  · rename_i word found
    cases body : word.body with
    | native primitive =>
      simp only [perform, body] at dispatched
      exact .inr (.inl ⟨primitive, (Option.some.inj dispatched).symm⟩)
    | compiled tokens =>
      simp only [perform, body] at dispatched
      exact .inr (.inr ⟨word, tokens, found, body, (Option.some.inj dispatched).symm⟩)
  · exact .inl (Option.some.inj dispatched).symm

end Machine

namespace Machine.Invariant

variable {good : Value → Prop} {state : StandardMachine → Prop} {m : StandardMachine}
  {outcome : Outcome Primitive Unit}

theorem action (inv : Invariant good state) {action : Action Primitive Unit}
    (plain : Action.Plain .any good action) (before : state m) : state (Outcome.machine (action m)) :=
  (plain.keeps (fun operation _ => inv.operation operation) m before).machine

theorem call (inv : Invariant good state) {name : String} {tokens : List String}
    {word : Word Primitive} (found : m.dictionary.find? name = some word)
    (body : word.body = .compiled tokens) (before : state m) :
    state (m.call name tokens).machine := by
  rw [Machine.call]
  split
  · exact inv.record (fun m => .depthReached name m.depthBound) m before
  · rename_i room
    exact inv.enter name tokens word m found body room before

theorem exhaust (inv : Invariant good state) (before : state m) : state m.exhaust := by
  rw [Machine.exhaust]
  split
  · rename_i idle
    exact inv.halt m (List.isEmpty_iff.mp idle) before
  · exact inv.leave m before

theorem read (inv : Invariant good state) {token : String} (next : m.token? = some token)
    (before : state m) : state (m.read token) := by
  have kept := inv.operation .nextToken trivial m before
  simp only [Op.exec, Action.nextToken, next] at kept
  exact inv.record _ _ kept.2

theorem tick (inv : Invariant good state) (before : state m)
    (ticked : m.tick Primitive.handler = some outcome) : state outcome.machine := by
  obtain rfl | ⟨token, action, next, asked, rfl⟩ | ⟨token, word, tokens, next, found, body, rfl⟩ :=
    tick_cases ticked
  · exact inv.exhaust before
  · exact inv.action (plain_of_request inv.closed asked) (inv.read next before)
  · exact inv.call found body (inv.read next before)

theorem dispatch (inv : Invariant good state) (before : state m) {name : String}
    (dispatched : m.dispatch Primitive.handler name = some outcome) : state outcome.machine := by
  obtain rfl | ⟨primitive, rfl⟩ | ⟨word, tokens, found, body, rfl⟩ := dispatch_cases dispatched
  · exact before
  · exact inv.action (.primitive inv.closed.stable primitive) before
  · exact inv.call found body before

theorem steady (inv : Invariant good state) : Steady Primitive.handler state fun _ => True where
  tick before ticked := .of_machine (inv.tick before ticked)
  dispatch before dispatched := .of_machine (inv.dispatch before dispatched)
  leave before := inv.leave _ before

theorem step (inv : Invariant good state) {fuel : Nat} (before : state m)
    (stepped : m.step Primitive.handler fuel = some outcome) : state outcome.machine :=
  (inv.steady.step before stepped).machine

theorem runToHalt (inv : Invariant good state) {fuel : Nat} (before : state m)
    (halted : m.runToHalt Primitive.handler fuel = some outcome) : state outcome.machine :=
  (inv.steady.runToHalt before halted).machine

end Machine.Invariant

namespace Machine

@[simp] theorem reach_reach (index other : Nat) (frames : List Frame) :
    reach index (reach other frames) = reach index frames := by
  cases frames <;> rfl

/-- The same words are running, and only the innermost one may have been read further. As many more
words may run. -/
structure SameCallers {ν : Type} (m m' : Machine ν) : Prop where
  frames : reach 0 m'.frames = reach 0 m.frames
  room : m'.room = m.room

namespace SameCallers

variable {ν : Type} {m m' m'' : Machine ν}

theorem refl (m : Machine ν) : SameCallers m m := ⟨rfl, rfl⟩

theorem trans (first : SameCallers m m') (second : SameCallers m' m'') : SameCallers m m'' :=
  ⟨second.frames.trans first.frames, second.room.trans first.room⟩

theorem depth (same : SameCallers m m') : m'.depth = m.depth := by
  simpa [Machine.depth] using congrArg List.length same.frames

theorem cons {frame : Frame} {callers : List Frame} (same : SameCallers m m')
    (frames : m.frames = frame :: callers) :
    ∃ index, m'.frames = { frame with reached := index } :: callers := by
  have kept := same.frames
  rw [frames] at kept
  cases running : m'.frames with
  | nil => simp [running, reach] at kept
  | cons other callers' =>
    obtain ⟨word, reached, input, cursor, mode⟩ := other
    simp only [running, reach, List.cons.injEq, Frame.mk.injEq] at kept
    obtain ⟨⟨rfl, -, rfl, rfl, rfl⟩, rfl⟩ := kept
    exact ⟨reached, rfl⟩

theorem moveTo (index : Nat) (m : Machine ν) : SameCallers m (m.moveTo index) :=
  ⟨reach_reach 0 index m.frames, rfl⟩

theorem exec {α : Type} (operation : Op α) (m : Machine ν) :
    Outcome.Meets (fun _ => True) (SameCallers m) (operation.exec m) := by
  cases operation with
  | values => exact ⟨trivial, rfl, rfl⟩
  | look => exact ⟨trivial, rfl, rfl⟩
  | push value => exact ⟨trivial, rfl, rfl⟩
  | pop =>
    simp only [Op.exec, Action.pop]
    split
    · exact ⟨rfl, rfl⟩
    · exact ⟨trivial, rfl, rfl⟩
  | pick index =>
    simp only [Op.exec, Action.pick]
    split
    · exact ⟨trivial, rfl, rfl⟩
    · exact ⟨rfl, rfl⟩
  | nextToken =>
    simp only [Op.exec, Action.nextToken]
    split
    · exact ⟨trivial, moveTo _ m⟩
    · exact ⟨trivial, rfl, rfl⟩
  | jump index =>
    simp only [Op.exec, Action.jump]
    split
    · exact ⟨trivial, moveTo _ m⟩
    · exact ⟨rfl, rfl⟩
  | setMode mode running => exact ⟨trivial, rfl, rfl⟩
  | beginDefinition name immediate =>
    simp only [Op.exec, Action.beginDefinition]
    split
    · exact ⟨rfl, rfl⟩
    · exact ⟨trivial, rfl, rfl⟩
  | endDefinition =>
    simp only [Op.exec, Action.endDefinition]
    split
    · exact ⟨rfl, rfl⟩
    · split
      · exact ⟨trivial, rfl, rfl⟩
      · exact ⟨trivial, rfl, rfl⟩
  | here =>
    simp only [Op.exec, Action.here]
    split
    · exact ⟨rfl, rfl⟩
    · split
      · exact ⟨trivial, rfl, rfl⟩
      · exact ⟨rfl, rfl⟩
  | edit change =>
    simp only [Op.exec, Action.editDefinition]
    split
    · exact ⟨rfl, rfl⟩
    · split
      · exact ⟨trivial, rfl, rfl⟩
      · exact ⟨rfl, rfl⟩
  | notePatch index token => exact ⟨trivial, rfl, rfl⟩
  | write text => exact ⟨trivial, rfl, rfl⟩
  | draw span => exact ⟨trivial, rfl, rfl⟩

theorem record (event : Machine ν → Event) (m : Machine ν) : SameCallers m (m.record event) :=
  ⟨rfl, rfl⟩

theorem read (token : String) (m : Machine ν) : SameCallers m (m.read token) :=
  (moveTo (m.cursor + 1) m).trans (record _ _)

end SameCallers

/-- Nothing that is put together from operations touches the callers. -/
theorem sameCallers_of_composed {α : Type} {allowed : Op.Class} {result : α → Prop}
    {action : Action Primitive α} (composed : Action.Composed allowed (fun _ => True) result action)
    (m : StandardMachine) : SameCallers m (Outcome.machine (action m)) := by
  refine (composed.keeps (fun operation _ _ next same => ?_) m (.refl m)).machine
  exact operation.meets_of_machine (same.trans (SameCallers.exec operation next).machine)

theorem sameCallers_of_act {token : String} {m : StandardMachine} {action : Action Primitive Unit}
    (asked : m.request token = .act action) : SameCallers m (Outcome.machine (action m)) :=
  sameCallers_of_composed (plain_of_request Value.closed_true asked) m

/-- A tick that fails has touched no caller. -/
theorem sameCallers_of_tick_error {m next : StandardMachine} {fault : Fault}
    (ticked : m.tick Primitive.handler = some (.error fault next)) : SameCallers m next := by
  obtain ended | ⟨token, action, _, asked, failed⟩ | ⟨token, word, tokens, _, _, _, failed⟩ :=
    tick_cases ticked
  · cases ended
  · have kept := sameCallers_of_act asked
    rw [← failed] at kept
    exact (SameCallers.read token m).trans kept
  · rw [call] at failed
    split at failed
    · cases failed
      exact (SameCallers.read token m).trans (.record _ _)
    · cases failed

theorem sameCallers_of_dispatch_error {m next : StandardMachine} {name : String} {fault : Fault}
    (dispatched : m.dispatch Primitive.handler name = some (.error fault next)) :
    SameCallers m next := by
  obtain failed | ⟨primitive, failed⟩ | ⟨word, tokens, -, -, failed⟩ := dispatch_cases dispatched
  · cases failed
    exact .refl m
  · have kept := sameCallers_of_composed (.primitive Value.closed_true.stable primitive) m
    rw [← failed] at kept
    exact kept
  · rw [call] at failed
    split at failed
    · cases failed
      exact .record _ _
    · cases failed

theorem depth_unwind {ν : Type} (base : Nat) (m : Machine ν) :
    (m.unwind base).depth = min m.depth base := by
  rw [unwind, depth_repeat_leave]
  omega

theorem frames_eq_nil_iff {ν : Type} (m : Machine ν) : m.frames = [] ↔ m.depth = 0 :=
  List.length_eq_zero_iff.symm

theorem SameCallers.idle_iff {ν : Type} {m m' : Machine ν} (same : SameCallers m m') :
    m'.frames = [] ↔ m.frames = [] := by
  rw [frames_eq_nil_iff, frames_eq_nil_iff, same.depth]

theorem depth_of_drain {base fuel : Nat} {m : StandardMachine} {outcome : Outcome Primitive Unit}
    (drained : m.drain Primitive.handler base fuel = some outcome) :
    outcome.machine.depth ≤ base := by
  induction fuel generalizing m with
  | zero =>
    rw [drain] at drained
    split at drained
    · cases drained
    · rename_i low
      cases drained
      simpa [isAbove_iff] using low
  | succ fuel ih =>
    rw [drain] at drained
    split at drained
    · cases ticked : m.tick Primitive.handler with
      | none => simp [ticked] at drained
      | some first =>
        cases first with
        | ok _ next =>
          simp only [ticked] at drained
          exact ih drained
        | error fault next =>
          simp only [ticked] at drained
          cases drained
          change (next.unwind base).depth ≤ base
          rw [depth_unwind]
          exact Nat.min_le_right _ _
    · rename_i low
      cases drained
      simpa [isAbove_iff] using low

theorem depth_of_settle {base fuel : Nat} {begun : Option (Outcome Primitive Unit)}
    {outcome : Outcome Primitive Unit}
    (failed : ∀ {fault next}, begun = some (.error fault next) → next.depth ≤ base)
    (settled : settle Primitive.handler fuel base begun = some outcome) :
    outcome.machine.depth ≤ base := by
  cases begun with
  | none => cases settled
  | some first =>
    cases first with
    | ok _ next => exact depth_of_drain settled
    | error fault next =>
      cases settled
      exact failed rfl

/-- A step leaves no word running that was not running before. -/
theorem depth_of_step {fuel : Nat} {m : StandardMachine} {outcome : Outcome Primitive Unit}
    (stepped : m.step Primitive.handler fuel = some outcome) :
    outcome.machine.depth ≤ m.depth :=
  depth_of_settle (fun ticked => Nat.le_of_eq (sameCallers_of_tick_error ticked).depth) stepped

theorem depth_of_invoke {fuel : Nat} {m : StandardMachine} {name : String}
    {outcome : Outcome Primitive Unit}
    (invoked : m.invoke Primitive.handler fuel name = some outcome) :
    outcome.machine.depth ≤ m.depth :=
  depth_of_settle (fun failed => Nat.le_of_eq (sameCallers_of_dispatch_error failed).depth) invoked

theorem depth_of_runToHalt {fuel : Nat} {m : StandardMachine} {outcome : Outcome Primitive Unit}
    (halted : m.runToHalt Primitive.handler fuel = some outcome) :
    outcome.machine.depth ≤ m.depth := by
  have low : Outcome.Within (fun x => x.depth ≤ m.depth) (fun _ => True) outcome :=
    within_of_runToHalt (fun low stepped => .of_machine (Nat.le_trans (depth_of_step stepped) low))
      (Nat.le_refl m.depth) halted
  exact low.machine

end Machine
end ResumableForth
