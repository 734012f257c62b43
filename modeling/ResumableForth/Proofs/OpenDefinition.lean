import Mathlib.Data.List.Chain
import ResumableForth.Proofs.Callers
import ResumableForth.Proofs.Effects
import ResumableForth.Proofs.Resumption

/-! The mode and the open definition. A native word that compiles or closes a definition changes both
together, but a compiled word gives its caller's mode back whatever it has done to the definition. So a
machine can be left compiling without a definition in one way only: while it compiles, an immediate
compiled word runs and leaves no definition open. Such a state has a persisted form that is refused. -/
namespace ResumableForth
namespace Machine

def Opened {ν : Type} (m : Machine ν) : Prop := m.mode = .compile → m.openWord ≠ none

/-- While compiling, an immediate compiled word is run, and no definition is open afterwards. -/
structure Abandons (m after : StandardMachine) : Prop where
  compiling : m.mode = .compile
  runs : ∃ token word tokens, m.token? = some token ∧ m.dictionary.find? token = some word ∧
    word.body = .compiled tokens ∧ word.immediate = true
  closed : after.openWord = none

section

variable {m : StandardMachine} {outcome : Outcome Primitive Unit} {token : String} {fuel : Nat}

/-- A native word compiles only into an open definition. -/
theorem opened_of_deed {m m' : StandardMachine} (deed : Deed m m'.code) (opened : m.Opened) :
    m'.Opened := by
  generalize code : m'.code = after at deed
  have mode : m'.mode = after.mode := congrArg Code.mode code
  have openWord : m'.openWord = after.openWord := congrArg Code.openWord code
  rw [Opened, mode, openWord]
  cases deed with
  | kept => exact opened
  | opened name immediate idle read => simp
  | closed name was journal noted => simp
  | extended name was tokens given dictionary edited mode compiling => simp [was]
  | patched name was index value held dictionary edited => simp [was]
  | suspended => simp

theorem machine_of_step {action : Action Primitive Unit} (next : m.token? = some token)
    (asked : (m.read token).request token = .act action)
    (stepped : m.step Primitive.handler fuel = some outcome) :
    outcome.machine = Outcome.machine (action (m.read token)) := by
  rw [step_of_act next asked] at stepped
  cases stepped
  rfl

/-- A step that is not the abandoning of a definition keeps one open while compiling. -/
theorem opened_of_step (idle : m.frames = []) (opened : m.Opened)
    (stepped : m.step Primitive.handler fuel = some outcome)
    (kept : ¬ m.Abandons outcome.machine) : outcome.machine.Opened := by
  cases next : m.token? with
  | none =>
    rw [step_of_end idle next] at stepped
    cases stepped
    simp [Opened]
  | some token =>
    cases asked : (m.read token).request token with
    | act action =>
      have read : token ∈ (m.read token).input := List.mem_of_getElem? next
      have before : (m.read token).Opened := opened
      have deed := opened_of_deed (Deed.of_request read asked) before
      rw [machine_of_step next asked stepped]
      exact deed
    | call name tokens =>
      obtain ⟨rfl, word, found, body, runs⟩ := call_of_request asked
      -- the word gives the mode back, so the machine compiles just when it did before the call
      have back := undisturbed_of_step next found body runs stepped
      intro compiling closed
      rw [back.mode] at compiling
      rcases runs with executing | ⟨-, immediate⟩
      · rw [compiling] at executing
        cases executing
      · exact kept ⟨compiling, ⟨_, word, tokens, next, found, body, immediate⟩, closed⟩

theorem not_opened_of_abandons (abandons : m.Abandons outcome.machine)
    (stepped : m.step Primitive.handler fuel = some outcome) : ¬ outcome.machine.Opened := by
  obtain ⟨compiling, ⟨token, word, tokens, next, found, body, immediate⟩, closed⟩ := abandons
  have back := undisturbed_of_step next found body (.inr ⟨compiling, immediate⟩) stepped
  intro opened
  exact opened (back.mode.trans compiling) closed

end

/-- What a program is run by: a text is loaded, one token is evaluated, with whatever outcome, or the
machine recovers. -/
inductive Move (m : StandardMachine) : StandardMachine → Prop
  | load (source : String) (fits : (Text.tokens source).length < 2 ^ 64) : Move m (m.loadText source)
  | step {fuel : Nat} {outcome : Outcome Primitive Unit}
    (stepped : m.step Primitive.handler fuel = some outcome) : Move m outcome.machine
  | recover : Move m m.recover

inductive History (host : Host Primitive) : List StandardMachine → Prop
  | start : History host [start host]
  | next {m after : StandardMachine} {earlier : List StandardMachine}
    (before : History host (m :: earlier)) (move : Move m after) : History host (after :: m :: earlier)

theorem History.runToHalt {host : Host Primitive} {m : StandardMachine} {earlier : List StandardMachine}
    {fuel : Nat} {outcome : Outcome Primitive Unit} (history : History host (m :: earlier))
    (halted : m.runToHalt Primitive.handler fuel = some outcome) :
    ∃ earlier, History host (outcome.machine :: earlier) := by
  have ended : Outcome.Within (fun x => ∃ earlier, History host (x :: earlier)) (fun _ => True) outcome := by
    refine within_of_runToHalt (fun {x fuel outcome} before stepped => .of_machine ?_)
      ⟨earlier, history⟩ halted
    obtain ⟨earlier, history⟩ := before
    exact ⟨x :: earlier, history.next (.step stepped)⟩
  exact ended.machine

/-- Every state that can be brought about ends a history. -/
theorem Reachable.exists_history {host : Host Primitive} {m : StandardMachine}
    (reachable : Reachable host m) : ∃ earlier, History host (m :: earlier) := by
  induction reachable with
  | start => exact ⟨[], .start⟩
  | load source fits before ih =>
    obtain ⟨earlier, history⟩ := ih
    exact ⟨_, history.next (.load source fits)⟩
  | interpreted source fits before ran ih =>
    obtain ⟨earlier, history⟩ := ih
    exact (history.next (.load source fits)).runToHalt ran
  | stepped before ran ih =>
    obtain ⟨earlier, history⟩ := ih
    exact ⟨_, history.next (.step ran)⟩
  | recovered before ih =>
    obtain ⟨earlier, history⟩ := ih
    exact ⟨_, history.next .recover⟩

theorem Move.reachable {host : Host Primitive} {m after : StandardMachine} (move : Move m after)
    (before : Reachable host m) : Reachable host after := by
  cases move with
  | load source fits => exact before.load source fits
  | step stepped => exact before.stepped stepped
  | recover => exact before.recovered

theorem History.reachable {host : Host Primitive} {states : List StandardMachine}
    (history : History host states) : ∀ m ∈ states, Reachable host m := by
  induction history with
  | start =>
    intro m mem
    rw [List.mem_singleton.mp mem]
    exact .start
  | next before move ih =>
    rw [List.forall_mem_cons]
    exact ⟨move.reachable (ih _ List.mem_cons_self), ih⟩

/-- A move keeps a definition open while compiling, unless it abandons one. -/
theorem Move.opened_iff {m after : StandardMachine} (move : Move m after) (idle : m.frames = [])
    (opened : m.Opened) : after.Opened ↔ ¬ m.Abandons after := by
  have kept : after.openWord = m.openWord → ¬ m.Abandons after :=
    fun same abandons => opened abandons.compiling (same.symm.trans abandons.closed)
  cases move with
  | load source fits =>
    have carried : (m.loadText source).Opened := by
      cases current : m.openWord <;> simp [Opened, loadText, Machine.load, current]
    exact iff_of_true carried (kept rfl)
  | step stepped =>
    exact ⟨fun after abandons => not_opened_of_abandons abandons stepped after,
      opened_of_step idle opened stepped⟩
  | recover => exact iff_of_true (by simp [Opened, Machine.recover]) (kept rfl)

theorem History.opened_iff {host : Host Primitive} {states : List StandardMachine}
    (history : History host states) :
    (∀ m ∈ states, m.Opened) ↔ states.IsChain fun after m => ¬ m.Abandons after := by
  induction history with
  | start => simp [Opened, Machine.start]
  | @next m after earlier before move ih =>
    have idle : m.frames = [] := (before.reachable m List.mem_cons_self).sound.2
    rw [List.forall_mem_cons, List.isChain_cons_cons, ih]
    refine and_congr_left fun chain => ?_
    exact move.opened_iff idle (ih.mpr chain m List.mem_cons_self)

/-- A definition is open whenever a machine compiles, for exactly as long as no immediate compiled word
has run while compiling and left no definition open. Every state that a program brings about ends a
history to which this applies, and a state that violates it has a persisted form that is refused. -/
theorem opened_iff_not_abandons (host : Host Primitive) :
    (∀ m, Reachable host m → ∃ earlier, History host (m :: earlier)) ∧
      ∀ states, History host states →
        ((∀ m ∈ states, m.mode = .compile → m.openWord ≠ none) ↔
          states.IsChain fun after m => ¬ m.Abandons after) ∧
        ∀ m ∈ states, ∃ form, m.serialize = .ok form ∧
          (deserialize host form = .error { cause := .compilingNothing } ↔
            (∀ name ∈ m.dictionary.user.names, Text.isToken name = true) ∧
              m.mode = .compile ∧ m.openWord = none) := by
  refine ⟨fun m => Reachable.exists_history, fun states history => ⟨history.opened_iff, ?_⟩⟩
  intro m mem
  obtain ⟨sound, idle⟩ := (history.reachable m mem).sound
  have persistable := sound.persistable idle
  exact ⟨_, serialize_eq persistable, deserialize_unopened_iff host persistable sound.present⟩

/-- A machine with an immediate word that has a lone semicolon for a body, about to call this word inside
the next definition. -/
def closing : StandardMachine :=
  { start standardHost with
    dictionary := ⟨Primitive.lexicon, ⟨[("E", .compiled true [";"])]⟩⟩
    input := [":", "A", "E"] }

def stranded : StandardMachine :=
  { closing with
    dictionary := ⟨Primitive.lexicon, ⟨[("E", .compiled true [";"]), ("A", .compiled false [])]⟩⟩
    cursor := 3
    mode := .compile }

theorem reachable_stranded : Reachable standardHost stranded := by
  have ran : (start standardHost).interpret Primitive.handler 9 ": E IMMEDIATE ] ;_ \" , [ ] ;" =
      some (.ok () { closing with
        input := [":", "E", "IMMEDIATE", "]", ";_", "\"", ",", "[", "]", ";"]
        cursor := 10
        mode := .halt }) := by rfl
  have defined := Reachable.start.interpreted _ (by decide +kernel) ran
  have loaded : Reachable standardHost closing := defined.load ": A E" (by decide +kernel)
  have steps : ∃ next, closing.step Primitive.handler 0 = some (.ok () next) ∧
      next.step Primitive.handler 2 = some (.ok () stranded) := ⟨_, rfl, rfl⟩
  obtain ⟨next, first, second⟩ := steps
  exact (loaded.stepped first).stepped second

theorem compiling_stranded :
    Reachable standardHost stranded ∧ stranded.mode = .compile ∧ stranded.openWord = none ∧
      ∃ form fault, stranded.serialize = .ok form ∧ deserialize standardHost form = .error fault ∧
        fault.message = "Compile mode needs an open definition." := by
  obtain ⟨sound, idle⟩ := reachable_stranded.sound
  have persistable := sound.persistable idle
  have refused := (deserialize_unopened_iff standardHost persistable sound.present).mpr (by decide)
  exact ⟨reachable_stranded, rfl, rfl, _, _, serialize_eq persistable, refused, rfl⟩

/-- Somewhere in the history of this machine a definition has been abandoned. -/
theorem opened_iff_not_abandons_stranded :
    ∃ states, History standardHost states ∧ stranded ∈ states ∧
      ¬ states.IsChain fun after m => ¬ m.Abandons after := by
  obtain ⟨covered, opened⟩ := opened_iff_not_abandons standardHost
  obtain ⟨earlier, history⟩ := covered stranded reachable_stranded
  refine ⟨stranded :: earlier, history, List.mem_cons_self, fun chain => ?_⟩
  exact (opened _ history).1.mpr chain stranded List.mem_cons_self rfl rfl

end Machine
end ResumableForth
