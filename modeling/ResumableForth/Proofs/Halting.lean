import ResumableForth.Proofs.Coherence
import ResumableForth.Proofs.Concatenation
import ResumableForth.Proofs.Failures
import ResumableForth.Proofs.Forward

/-! Halting. A machine halts where its outermost input ends, and in no other way. A word that is called by
its name on a halted machine runs all the same, and the halt waits in a frame; but no word that is running
is ever halted, and a word that reads on behind the end of the input finds nothing there. So a machine that
has halted has read everything, and no token is read by a halted machine. -/
namespace ResumableForth

structure Level where
  input : List String
  cursor : Nat
  mode : Mode

def Frame.level (frame : Frame) : Level := ⟨frame.input, frame.cursor, frame.mode⟩

/-- Where a level is halted, nothing is left to read. -/
def Level.Spent (level : Level) : Prop := level.mode = .halt → level.input.length ≤ level.cursor

namespace Machine

def level {ν : Type} (m : Machine ν) : Level := ⟨m.input, m.cursor, m.mode⟩

/-- No level is halted but the outermost one, of which something else is known. -/
def Wakes (outermost : Level → Prop) : Level → List Frame → Prop
  | level, [] => outermost level
  | level, frame :: callers => level.mode ≠ .halt ∧ Wakes outermost frame.level callers

/-- No running word is halted, and the outermost level is as it should be. -/
def Awake (outermost : Level → Prop) (m : StandardMachine) : Prop := Wakes outermost m.level m.frames

theorem Wakes.mono {outermost wider : Level → Prop} (sub : ∀ level, outermost level → wider level)
    {level : Level} {frames : List Frame} (h : Wakes outermost level frames) :
    Wakes wider level frames := by
  induction frames generalizing level with
  | nil => exact sub level h
  | cons frame callers ih => exact ⟨h.1, ih h.2⟩

/-- Only the outermost of the saved modes may be the halt. -/
theorem Wakes.saved {outermost : Level → Prop} {level : Level} {frames : List Frame}
    (h : Wakes outermost level frames) : ∀ frame ∈ frames.dropLast, frame.mode ≠ .halt := by
  induction frames generalizing level with
  | nil => simp
  | cons frame callers ih =>
    cases callers with
    | nil => simp
    | cons caller callers =>
      rw [List.dropLast_cons_cons, List.forall_mem_cons]
      exact ⟨h.2.1, ih h.2⟩

theorem running_of_composed {α : Type} {result : α → Prop} {action : Action Primitive α}
    {m : StandardMachine} (composed : Action.Composed .any (fun _ => True) result action)
    (running : m.mode ≠ .halt) : (Outcome.machine (action m)).mode ≠ .halt := by
  have kept : Outcome.Meets result (fun m => m.mode ≠ .halt) (action m) := by
    refine composed.keeps (fun operation _ _ next running => ?_) m running
    exact operation.meets_of_machine ((Change.of_exec operation next).running running)
  exact kept.machine

theorem kind_ne_of_native {fault : Fault} (native : fault.kind.isNative = true) :
    fault.kind ≠ .invalidMode := by
  intro kind
  rw [kind] at native
  cases native

namespace Awake

variable {outermost : Level → Prop} {m m' : StandardMachine}

theorem of_idle (idle : m.frames = []) (h : outermost m.level) : m.Awake outermost := by
  rw [Awake, idle]
  exact h

theorem outer (h : m.Awake outermost) (idle : m.frames = []) : outermost m.level := by
  rw [Awake, idle] at h
  exact h

theorem running (h : m.Awake outermost) (inside : m.frames ≠ []) : m.mode ≠ .halt := by
  cases frames : m.frames with
  | nil => exact absurd frames inside
  | cons frame callers =>
    rw [Awake, frames] at h
    exact h.1

theorem of_sameCallers (h : m.Awake outermost) (same : SameCallers m m')
    (running : m.mode ≠ .halt → m'.mode ≠ .halt) (outer : m.frames = [] → outermost m'.level) :
    m'.Awake outermost := by
  cases frames : m.frames with
  | nil => exact of_idle (same.idle_iff.mpr frames) (outer frames)
  | cons frame callers =>
    obtain ⟨index, frames'⟩ := same.cons frames
    rw [Awake, frames] at h
    rw [Awake, frames']
    exact ⟨running h.1, h.2⟩

theorem action {α : Type} {result : α → Prop} {action : Action Primitive α} (h : m.Awake outermost)
    (composed : Action.Composed .any (fun _ => True) result action)
    (outer : m.frames = [] → outermost (Outcome.machine (action m)).level) :
    (Outcome.machine (action m)).Awake outermost :=
  h.of_sameCallers (sameCallers_of_composed composed m) (running_of_composed composed) outer

theorem enter (h : m.Awake outermost) (name : String) (tokens : List String) :
    (m.enter name tokens).Awake outermost :=
  ⟨(by decide : Mode.execute ≠ .halt), h⟩

theorem leave (h : m.Awake outermost) : m.leave.Awake outermost := by
  cases frames : m.frames with
  | nil =>
    rw [leave_of_idle frames]
    exact h
  | cons frame callers =>
    rw [Awake, frames] at h
    simp only [Awake, Machine.leave, frames]
    exact h.2

theorem call (h : m.Awake outermost) (name : String) (tokens : List String) :
    Outcome.Within (Awake outermost) (fun fault => fault.kind ≠ .invalidMode) (m.call name tokens) := by
  rw [Machine.call]
  split
  · exact ⟨(by decide : FaultKind.callDepthExceeded ≠ .invalidMode), h⟩
  · exact h.enter name tokens

theorem exhaust (h : m.Awake Level.Spent) (ended : m.token? = none) : m.exhaust.Awake Level.Spent := by
  rw [Machine.exhaust]
  split
  · rename_i idle
    exact of_idle (List.isEmpty_iff.mp idle) fun _ => List.getElem?_eq_none_iff.mp ended
  · exact h.leave

theorem running_of_token (h : m.Awake Level.Spent) {token : String} (next : m.token? = some token) :
    m.mode ≠ .halt := by
  intro halted
  by_cases idle : m.frames = []
  · have spent : m.input.length ≤ m.cursor := h.outer idle halted
    rw [token?, List.getElem?_eq_none spent] at next
    cases next
  · exact h.running idle halted

theorem primitive (h : m.Awake Level.Spent) (word : Primitive) :
    (Outcome.machine (word.run m)).Awake Level.Spent := by
  have plain : Action.Plain .any (fun _ => True) (word.run : Action Primitive Unit) :=
    .primitive Value.closed_true.stable word
  refine h.action plain fun idle halted' => ?_
  by_cases halted : m.mode = .halt
  · have spent : m.input.length ≤ m.cursor := h.outer idle halted
    have forward := Action.cursor_le_of_end word (List.getElem?_eq_none spent)
    show (Outcome.machine (word.run m)).input.length ≤ _
    rw [input_of_composed plain m]
    exact Nat.le_trans spent forward
  · exact absurd halted' (running_of_composed plain halted)

/-- Evaluation keeps running words awake, and reads no token while halted. -/
theorem steady :
    Steady Primitive.handler (Awake Level.Spent) fun fault => fault.kind ≠ .invalidMode where
  tick := by
    intro m outcome h ticked
    cases next : m.token? with
    | none =>
      rw [tick_of_end next] at ticked
      cases ticked
      exact h.exhaust next
    | some token =>
      have running : (m.read token).mode ≠ .halt := h.running_of_token next
      have read : (m.read token).Awake Level.Spent :=
        h.of_sameCallers (.read token m) id fun _ halted => absurd halted running
      rw [tick_of_token next] at ticked
      cases asked : (m.read token).request token with
      | act action =>
        rw [asked] at ticked
        cases ticked
        have plain := plain_of_request Value.closed_true asked
        refine .intro (read.action plain fun _ halted => ?_) ?_
        · exact absurd halted (running_of_composed plain running)
        · intro fault failed acted
          exact kind_ne_of_native (raisesNative_of_request running asked _ _ _ acted).kind
      | call name tokens =>
        rw [asked] at ticked
        cases ticked
        exact read.call name tokens
  dispatch := by
    intro name m outcome h dispatched
    obtain rfl | ⟨word, rfl⟩ | ⟨word, tokens, -, -, rfl⟩ := dispatch_cases dispatched
    · exact ⟨(by decide : FaultKind.unknownWord ≠ .invalidMode), h⟩
    · refine .intro (h.primitive word) ?_
      intro fault failed acted
      exact kind_ne_of_native (Action.RaisesNative.primitive word _ _ _ acted).kind
    · exact h.call name tokens
  leave := leave

/-- Inside a token nothing is said of the outermost input, but no running word is halted. -/
theorem pervasive :
    Pervasive (Awake Level.Spent) (Awake fun _ => True) fun fault => fault.kind ≠ .invalidMode where
  steady := steady
  weaken h := Wakes.mono (fun _ _ => trivial) h
  read next h := of_sameCallers (Wakes.mono (fun _ _ => trivial) h) (.read _ _) id fun _ => trivial
  passes := by
    rintro action m point ⟨α, first, rest, plain, -, -, rfl⟩ h
    exact h.action plain fun _ => trivial

theorem load (idle : m.frames = []) (tokens : List String) : (m.load tokens).Awake Level.Spent :=
  of_idle idle fun halted => absurd halted (Outermost.load idle tokens).running

theorem recover (m : StandardMachine) : m.recover.Awake Level.Spent :=
  of_idle rfl fun _ => Nat.le_refl 0

end Awake

def Command.isDriving : Command → Bool
  | .load _ | .loadText _ | .interpret _ | .step | .runToHalt | .invoke _ | .recover => true
  | _ => false

/-- The machines that a host can come to by commands that make a machine run, whatever their outcome. Among
them are those between the steps of a run, which a host can command one by one. -/
inductive Driven (host : Host Primitive) : StandardMachine → Prop
  | start : Driven host (start host)
  | commanded {m : StandardMachine} {outcome : Outcome Primitive Unit} (command : Command) (fuel : Nat)
    (driving : command.isDriving = true) (before : Driven host m)
    (ran : command.run fuel m = some outcome) : Driven host outcome.machine

theorem Driven.attained {host : Host Primitive} {m : StandardMachine} (h : Driven host m) :
    Attained host m := by
  induction h with
  | start => exact .start
  | commanded command fuel driving before ran ih => exact .commanded command fuel ih ran

/-- No word is running, and a halt means that all has been read. -/
structure Rested (m : StandardMachine) : Prop where
  idle : m.frames = []
  awake : m.Awake Level.Spent

/-- A command that makes a machine run leaves no word running, and reads no token while it is halted. -/
theorem Rested.command {m : StandardMachine} {command : Command} {fuel : Nat}
    {outcome : Outcome Primitive Unit} (h : m.Rested) (driving : command.isDriving = true)
    (ran : command.run fuel m = some outcome) :
    Outcome.Within Rested (fun fault => fault.kind ≠ .invalidMode) outcome := by
  have settled (kept : Outcome.Within (Awake Level.Spent) (fun fault => fault.kind ≠ .invalidMode) outcome)
      (low : outcome.machine.depth ≤ m.depth) :
      Outcome.Within Rested (fun fault => fault.kind ≠ .invalidMode) outcome := by
    rw [(frames_eq_nil_iff m).mp h.idle, Nat.le_zero, ← frames_eq_nil_iff] at low
    cases outcome with
    | ok x next => exact ⟨low, kept⟩
    | error fault next => exact ⟨kept.1, low, kept.2⟩
  cases command with
  | load tokens =>
    cases ran
    exact ⟨h.idle, .load h.idle tokens⟩
  | loadText line =>
    cases ran
    exact ⟨h.idle, .load h.idle (Text.tokens line)⟩
  | interpret source =>
    have low : outcome.machine.depth ≤ (m.loadText source).depth := depth_of_runToHalt ran
    exact settled (Awake.steady.runToHalt (.load h.idle (Text.tokens source)) ran) low
  | step => exact settled (Awake.steady.step h.awake ran) (depth_of_step ran)
  | runToHalt => exact settled (Awake.steady.runToHalt h.awake ran) (depth_of_runToHalt ran)
  | invoke name => exact settled (Awake.steady.invoke h.awake ran) (depth_of_invoke ran)
  | recover =>
    cases ran
    exact ⟨rfl, .recover m⟩
  | _ => cases driving

theorem Driven.rested {host : Host Primitive} {m : StandardMachine} (h : Driven host m) : m.Rested := by
  induction h with
  | start =>
    have running : (Machine.start host).mode ≠ .halt := by
      rintro ⟨⟩
    exact ⟨rfl, .of_idle rfl fun halted => absurd halted running⟩
  | commanded command fuel driving before ran ih => exact (ih.command driving ran).machine

/-- A machine is halted only when all has been read. Between commands a halted machine runs no word and is
at the end of its input. Inside a step, or the call of a word by its name, the running word is not halted
and nor is any word that waits; only the outermost input may be, when a word has been called on a halted
machine. So no command reads a token while halted, and every interpretation that succeeds has read its
source to the end. -/
theorem halted_at_end {host : Host Primitive} {m : StandardMachine} (driven : Driven host m) :
    (m.mode = .halt → m.frames = [] ∧ m.cursor = m.input.length) ∧
      (∀ point, StepPoint m point → (point.frames ≠ [] → point.mode ≠ .halt) ∧
        ∀ frame ∈ point.frames.dropLast, frame.mode ≠ .halt) ∧
      (∀ (command : Command) fuel fault next, command.isDriving = true →
        command.run fuel m = some (.error fault next) → fault.kind ≠ .invalidMode) ∧
      ∀ source fuel next, m.interpret Primitive.handler fuel source = some (.ok () next) →
        next.mode = .halt ∧ next.frames = [] ∧ next.input = Text.tokens source ∧
          next.cursor = next.input.length := by
  have rested := driven.rested
  refine ⟨?_, ?_, ?_, ?_⟩
  · intro halted
    have spent : m.input.length ≤ m.cursor := rested.awake.outer rested.idle halted
    exact ⟨rested.idle, Nat.le_antisymm driven.attained.coherent.inside spent⟩
  · intro point passes
    have awake := Awake.pervasive.stepPoint rested.awake passes
    exact ⟨awake.running, awake.saved⟩
  · intro command fuel fault next driving ran
    exact (rested.command driving ran).1
  · intro source fuel next ran
    obtain ⟨last, -, outer, ended, rfl⟩ :=
      exists_last_of_runToHalt (.load rested.idle (Text.tokens source)) ran
    have spent : last.input.length ≤ last.cursor := List.getElem?_eq_none_iff.mp ended
    have inside : last.cursor ≤ last.input.length := by
      rw [outer.input]
      exact outer.inside
    exact ⟨rfl, outer.idle, outer.input, Nat.le_antisymm inside spent⟩

def resting : StandardMachine :=
  { start narrow with
    dictionary := ⟨Primitive.lexicon, ⟨[("LOSE", .compiled false ["DROP"]),
      ("LOSE2", .compiled false ["1", "LOSE", "LOSE"])]⟩⟩
    input := [":", "LOSE", "DROP", ";", ":", "LOSE2", "1", "LOSE", "LOSE", ";"]
    cursor := 10
    mode := .halt }

/-- The second word has been called by its name, and has called the first one. -/
def losing : StandardMachine :=
  { resting with
    stack := []
    input := ["DROP"]
    mode := .execute
    cursor := 0
    frames := [⟨"LOSE", 0, ["1", "LOSE", "LOSE"], 3, .execute⟩,
      ⟨"LOSE2", 3, [":", "LOSE", "DROP", ";", ":", "LOSE2", "1", "LOSE", "LOSE", ";"], 10, .halt⟩]
    room := 0 }

/-- A word that is called on a halted machine runs, and the word that it calls fails. The halt waits in
the outermost frame meanwhile. -/
theorem halted_at_end_losing :
    Driven narrow resting ∧ resting.mode = .halt ∧ StepPoint resting losing ∧
      losing.frames.map Frame.mode = [.execute, .halt] ∧ losing.mode = .execute ∧
      (∀ frame ∈ losing.frames.dropLast, frame.mode ≠ .halt) ∧
      ∃ fault next, resting.invoke Primitive.handler 7 "LOSE2" = some (.error fault next) ∧
        fault.kind = .stackUnderflow ∧ next.mode = .halt ∧ next.cursor = next.input.length := by
  have loaded : Driven narrow _ := Driven.start.commanded
    (.load [":", "LOSE", "DROP", ";", ":", "LOSE2", "1", "LOSE", "LOSE", ";"]) 0 rfl rfl
  have driven : Driven narrow resting := loaded.commanded .runToHalt 20 rfl rfl
  have called : ∃ next, resting.dispatch Primitive.handler "LOSE2" = some (.ok () next) ∧
      Reaches 0 next losing := by
    refine ⟨_, rfl, .tick (by decide) rfl (.tick (by decide) rfl (.tick (by decide) rfl ?_))⟩
    exact .tick (by decide) rfl (.tick (by decide) rfl (.refl losing))
  obtain ⟨next, dispatched, reaches⟩ := called
  have point : StepPoint resting losing := .called dispatched (.running reaches (by decide) .before)
  have saved := ((halted_at_end driven).2.1 losing point).2
  have failed : ∃ fault next, resting.invoke Primitive.handler 7 "LOSE2" = some (.error fault next) ∧
      fault.kind = .stackUnderflow ∧ next.mode = .halt := ⟨_, _, rfl, rfl, rfl⟩
  obtain ⟨fault, ended, invoked, kind, halted⟩ := failed
  have after : Driven narrow ended := driven.commanded (.invoke "LOSE2") 7 rfl invoked
  exact ⟨driven, rfl, point, rfl, rfl, saved, fault, ended, invoked, kind, halted,
    ((halted_at_end after).1 halted).2⟩

end Machine
end ResumableForth
