import ResumableForth.Proofs.Halting
import ResumableForth.Proofs.Lockstep
import ResumableForth.Proofs.Naming

/-! Words that are not being defined. A program can change its own code: at any depth and in any mode its
words append to the open definition and overwrite its slots, and a definition may be opened by one word and
closed by another. But a token changes no word except the one whose definition is open before it or after
it, and takes none away. So over a run the words stay in their order, and one that is not open in it stays
as it is. -/
namespace ResumableForth
namespace Machine

section

variable {ν : Type} {m m' : Machine ν}

/-- A machine comes to another without touching a closed word. -/
structure Spares (m m' : Machine ν) : Prop where
  names : m.dictionary.user.names <+: m'.dictionary.user.names
  others : ∀ name, m.openWord ≠ some name → m'.openWord ≠ some name →
    m'.dictionary.user.find? name = m.dictionary.user.find? name
  /-- The word that is being defined stays an immediate one, or another one. -/
  flag : ∀ name word, m.openWord = some name → m.dictionary.user.find? name = some word →
    ∃ after, m'.dictionary.user.find? name = some after ∧ after.immediate = word.immediate

namespace Spares

theorem of_same (same : m'.dictionary = m.dictionary) : Spares m m' where
  names := same ▸ List.prefix_rfl
  others name _ _ := by rw [same]
  flag name word _ found := ⟨word, by rw [same]; exact found, rfl⟩

theorem of_begin {name : String} {word : Word ν} (idle : m.openWord = none)
    (opened : m'.openWord = some name) (defined : m'.dictionary = m.dictionary.define name word) :
    Spares m m' where
  names := by
    rw [defined, Dictionary.user_define, Lexicon.names_insert]
    split
    · exact List.prefix_rfl
    · exact List.prefix_append _ _
  others other _ closed := by
    have apart : other ≠ name := by
      rintro rfl
      exact closed opened
    rw [defined, Dictionary.user_define, Lexicon.find?_insert_of_ne apart]
  flag other word was := by
    rw [idle] at was
    cases was

theorem of_edit {name : String} {change : List String → List String} {dictionary : Dictionary ν}
    (was : m.openWord = some name) (edited : m.dictionary.editBody? name change = some dictionary)
    (now : m'.dictionary = dictionary) : Spares m m' := by
  subst now
  have names := Dictionary.names_editBody? edited
  obtain ⟨word, tokens, found, -, written⟩ := Dictionary.editBody?_eq_some edited
  refine ⟨names ▸ List.prefix_rfl, ?_, ?_⟩
  · intro other closed _
    have apart : other ≠ name := by
      rintro rfl
      exact closed was
    rw [written, Dictionary.user_define, Lexicon.find?_insert_of_ne apart]
  · intro other before opened same
    obtain rfl : name = other := Option.some.inj (was.symm.trans opened)
    obtain rfl : word = before := Option.some.inj (found.symm.trans same)
    refine ⟨{ word with body := .compiled (change tokens) }, ?_, rfl⟩
    rw [written, Dictionary.user_define, Lexicon.find?_insert_self]

/-- Whatever a word does to the code, it spares the closed words. -/
theorem of_deed {code : Code ν} (deed : Deed m code) (dictionary : m'.dictionary = code.dictionary)
    (openWord : m'.openWord = code.openWord) : Spares m m' := by
  cases deed with
  | kept => exact of_same dictionary
  | opened name immediate idle read => exact of_begin idle openWord dictionary
  | closed name was journal noted => exact of_same dictionary
  | extended name was tokens given next edited mode compiling => exact of_edit was edited dictionary
  | patched name was index value held next edited => exact of_edit was edited dictionary
  | suspended => exact of_same dictionary

end Spares

theorem dictionary_leave (m : Machine ν) : m.leave.dictionary = m.dictionary := by
  rw [leave]
  split <;> rfl

theorem openWord_leave (m : Machine ν) : m.leave.openWord = m.openWord := by
  rw [leave]
  split <;> rfl

theorem dictionary_unwind (base : Nat) (m : Machine ν) :
    (m.unwind base).dictionary = m.dictionary ∧ (m.unwind base).openWord = m.openWord := by
  have along : ∀ count, (Nat.repeat leave count m).dictionary = m.dictionary ∧
      (Nat.repeat leave count m).openWord = m.openWord := by
    intro count
    induction count with
    | zero => exact ⟨rfl, rfl⟩
    | succ count ih =>
      rw [Nat.repeat, dictionary_leave, openWord_leave]
      exact ih
  exact along _

end

variable {m next last : StandardMachine} {outcome : Outcome Primitive Unit} {name : String}

theorem dictionary_call (name : String) (tokens : List String) (m : StandardMachine) :
    (m.call name tokens).machine.dictionary = m.dictionary := by
  rw [call]
  split <;> rfl

/-- A token that is evaluated spares the closed words, also when it fails. -/
theorem spares_of_tick (ticked : m.tick Primitive.handler = some outcome) :
    Spares m outcome.machine := by
  obtain rfl | ⟨token, action, next, asked, rfl⟩ | ⟨token, word, tokens, -, -, -, rfl⟩ :=
    tick_cases ticked
  · have same : m.exhaust.dictionary = m.dictionary := by
      rw [exhaust]
      split
      · rfl
      · exact dictionary_leave m
    exact .of_same same
  · have read : token ∈ (m.read token).input := List.mem_of_getElem? next
    have spares : Spares (m.read token) (Outcome.machine (action (m.read token))) :=
      .of_deed (.of_request read asked) rfl rfl
    exact ⟨spares.names, spares.others, spares.flag⟩
  · exact .of_same (dictionary_call token tokens (m.read token))

theorem spares_of_dispatch (dispatched : m.dispatch Primitive.handler name = some outcome) :
    Spares m outcome.machine := by
  obtain rfl | ⟨primitive, rfl⟩ | ⟨word, tokens, -, -, rfl⟩ := dispatch_cases dispatched
  · exact .of_same rfl
  · exact .of_deed (.of_primitive primitive m) rfl rfl
  · exact .of_same (dictionary_call name tokens m)

theorem steady_names (names : List String) :
    Steady Primitive.handler (fun m => names <+: m.dictionary.user.names) fun _ => True where
  tick before ticked := .of_machine (before.trans (spares_of_tick ticked).names)
  dispatch before dispatched := .of_machine (before.trans (spares_of_dispatch dispatched).names)
  leave before := by
    rw [dictionary_leave]
    exact before

/-- The machines that a command comes to between tokens, from its beginning to its end. -/
inductive Stage : StandardMachine → Command → StandardMachine → Prop
  | begun (m : StandardMachine) (command : Command) : Stage m command m
  | ended {m : StandardMachine} {command : Command} {fuel : Nat} {outcome : Outcome Primitive Unit}
    (ran : command.run fuel m = some outcome) : Stage m command outcome.machine
  | stepping {m next x : StandardMachine} (ticked : m.tick Primitive.handler = some (.ok () next))
    (reaches : Reaches m.depth next x) : Stage m .step x
  | calling {m next x : StandardMachine} {name : String}
    (dispatched : m.dispatch Primitive.handler name = some (.ok () next))
    (reaches : Reaches m.depth next x) : Stage m (.invoke name) x
  | running {m next x : StandardMachine} (steps : StepsTo m next) (stage : Stage next .step x) :
    Stage m .runToHalt x
  | interpreting {m x : StandardMachine} {source : String}
    (stage : Stage (m.loadText source) .runToHalt x) : Stage m (.interpret source) x

theorem word_of_reaches {base : Nat} (reaches : Reaches base m last)
    (never : ∀ x, Reaches base m x → x.openWord ≠ some name) :
    last.dictionary.user.find? name = m.dictionary.user.find? name := by
  induction reaches with
  | refl m => rfl
  | tick above ticked later ih =>
    have first := Reaches.single above ticked
    rw [ih fun x reaches => never x (first.trans reaches)]
    exact (spares_of_tick ticked).others name (never _ (.refl _)) (never _ first)

theorem word_of_settle {base fuel : Nat} {begun : Option (Outcome Primitive Unit)}
    (first : ∀ {outcome}, begun = some outcome → Spares m outcome.machine)
    (settled : settle Primitive.handler fuel base begun = some outcome)
    (before : m.openWord ≠ some name) (after : outcome.machine.openWord ≠ some name)
    (never : ∀ next x, begun = some (.ok () next) → Reaches base next x → x.openWord ≠ some name) :
    outcome.machine.dictionary.user.find? name = m.dictionary.user.find? name := by
  cases begun with
  | none => cases settled
  | some start =>
    have spares := first rfl
    cases start with
    | error fault failed =>
      cases settled
      exact spares.others name before after
    | ok _ next =>
      have entered : next.dictionary.user.find? name = m.dictionary.user.find? name :=
        spares.others name before (never next next rfl (.refl next))
      rw [← entered]
      obtain ⟨last, reaches, rfl⟩ | ⟨x, fault, failed, reaches, -, ticked, rfl⟩ := drain_cases settled
      · exact word_of_reaches reaches (never next · rfl)
      · obtain ⟨dictionary, openWord⟩ := dictionary_unwind base failed
        change (failed.unwind base).openWord ≠ some name at after
        change (failed.unwind base).dictionary.user.find? name = _
        rw [openWord] at after
        rw [dictionary, ← word_of_reaches reaches (never next · rfl)]
        exact (spares_of_tick ticked).others name (never next x rfl reaches) after

theorem word_of_step {fuel : Nat} (stepped : m.step Primitive.handler fuel = some outcome)
    (never : ∀ x, Stage m .step x → x.openWord ≠ some name) :
    outcome.machine.dictionary.user.find? name = m.dictionary.user.find? name :=
  word_of_settle spares_of_tick stepped (never m (.begun m _)) (never _ (.ended stepped))
    fun _ x ticked reaches => never x (.stepping ticked reaches)

/-- The machines that a step comes to can be checked by running it. -/
theorem Stage.check {fuel : Nat} {x : StandardMachine} (stage : Stage m .step x)
    (check : StandardMachine → Bool) (ran : m.step Primitive.handler fuel = some outcome)
    (checked : m.checkStep check fuel = true) (ended : check outcome.machine = true) :
    check x = true := by
  cases stage with
  | begun => exact check_of_ticks .first checked
  | ended ran' =>
    obtain rfl := step_unique ran ran'
    exact ended
  | stepping ticked reaches =>
    rcases Nat.lt_or_ge m.depth x.depth with above | low
    · exact check_of_ticks (.later ticked reaches above) checked
    · obtain ⟨fuel', drained⟩ := reaches.exists_drain (drain_of_low low 0)
      obtain rfl := step_unique ran ((step_of_tick ticked fuel').trans drained)
      exact ended

theorem word_of_stepsTo (steps : StepsTo m last)
    (never : ∀ next x, StepsTo m next → Stage next .step x → x.openWord ≠ some name) :
    last.dictionary.user.find? name = m.dictionary.user.find? name := by
  induction steps with
  | refl m => rfl
  | @step m next last fuel running stepped later ih =>
    rw [ih fun y x steps => never y x (.step running stepped steps)]
    exact word_of_step stepped fun x stage => never m x (.refl m) stage

theorem word_of_runToHalt {fuel : Nat} (ran : m.runToHalt Primitive.handler fuel = some outcome)
    (never : ∀ x, Stage m .runToHalt x → x.openWord ≠ some name) :
    outcome.machine.dictionary.user.find? name = m.dictionary.user.find? name := by
  obtain ⟨last, steps, ending⟩ := StepsTo.of_runToHalt ran
  have kept := word_of_stepsTo steps fun next x steps stage => never x (.running steps stage)
  obtain ⟨-, rfl⟩ | ⟨fuel, fault, failed, stepped, rfl⟩ := ending
  · exact kept
  · rw [← kept]
    exact word_of_step stepped fun x stage => never x (.running steps stage)

/-- A token touches no closed word. When it is evaluated, in any frame and mode and whether it succeeds or
fails, only the word is new or different whose definition was open or is open then. The open definition
stays immediate or not, and the words are at most added to. So no command that runs a program removes or
moves a word, and a word that is not open at any time stays as it is. -/
theorem closed_words_kept (m : StandardMachine) :
    (∀ outcome, m.tick Primitive.handler = some outcome →
      (∀ name, outcome.machine.dictionary.user.find? name ≠ m.dictionary.user.find? name →
        m.openWord = some name ∨ outcome.machine.openWord = some name) ∧
      (∀ name word, m.openWord = some name → m.dictionary.user.find? name = some word →
        ∃ after, outcome.machine.dictionary.user.find? name = some after ∧
          after.immediate = word.immediate) ∧
      m.dictionary.user.names <+: outcome.machine.dictionary.user.names) ∧
    ∀ (command : Command) fuel outcome, command.isDriving = true → command.run fuel m = some outcome →
      m.dictionary.user.names <+: outcome.machine.dictionary.user.names ∧
      ∀ name, (∀ x, Stage m command x → x.openWord ≠ some name) →
        outcome.machine.dictionary.user.find? name = m.dictionary.user.find? name := by
  constructor
  · intro outcome ticked
    have spares := spares_of_tick ticked
    refine ⟨?_, spares.flag, spares.names⟩
    intro name differs
    by_cases before : m.openWord = some name
    · exact .inl before
    · by_cases after : outcome.machine.openWord = some name
      · exact .inr after
      · exact absurd (spares.others name before after) differs
  · intro command fuel outcome driving ran
    have steady := steady_names m.dictionary.user.names
    have start : m.dictionary.user.names <+: m.dictionary.user.names := List.prefix_rfl
    cases command with
    | load tokens =>
      cases ran
      exact ⟨start, fun _ _ => rfl⟩
    | loadText line =>
      cases ran
      exact ⟨start, fun _ _ => rfl⟩
    | interpret source =>
      refine ⟨(steady.runToHalt (m := m.loadText source) start ran).machine, fun name never => ?_⟩
      exact word_of_runToHalt (m := m.loadText source) ran fun x stage => never x (.interpreting stage)
    | step => exact ⟨(steady.step start ran).machine, fun name never => word_of_step ran never⟩
    | runToHalt => exact ⟨(steady.runToHalt start ran).machine, fun name never => word_of_runToHalt ran never⟩
    | invoke name =>
      refine ⟨(steady.invoke start ran).machine, fun other never => ?_⟩
      exact word_of_settle spares_of_dispatch ran (never m (.begun m _)) (never _ (.ended ran))
        fun _ x dispatched reaches => never x (.calling dispatched reaches)
    | recover =>
      cases ran
      exact ⟨start, fun _ _ => rfl⟩
    | _ => cases driving

/-- An immediate word is next while another word is being defined. -/
def mending : StandardMachine :=
  { start narrow with
    dictionary := ⟨Primitive.lexicon, ⟨[("MEND", .compiled true ["0", "9", "!"]),
      ("TORN", .compiled false ["1", "DUP"])]⟩⟩
    input := [":", "TORN", "1", "DUP", "MEND"]
    cursor := 4
    mode := .compile
    openWord := some "TORN" }

def patching : StandardMachine :=
  { mending with
    stack := [.int 9, .int 0]
    input := ["0", "9", "!"]
    cursor := 2
    mode := .execute
    frames := [⟨"MEND", 2, [":", "TORN", "1", "DUP", "MEND"], 5, .compile⟩]
    room := 1 }

/-- The open definition is overwritten from inside another word, which stays as it is. -/
theorem closed_words_kept_mending :
    (∃ next, patching.tick Primitive.handler = some (.ok () next) ∧
      next.dictionary.body? "TORN" = some ["9", "DUP"] ∧
      (patching.openWord = some "TORN" ∨ next.openWord = some "TORN") ∧
      patching.dictionary.user.names <+: next.dictionary.user.names) ∧
    ∃ last, mending.step Primitive.handler 5 = some (.ok () last) ∧
      last.dictionary.body? "TORN" = some ["9", "DUP"] ∧
      last.dictionary.user.find? "MEND" = mending.dictionary.user.find? "MEND" := by
  constructor
  · have patched : ∃ next, patching.tick Primitive.handler = some (.ok () next) ∧
        next.dictionary.body? "TORN" = some ["9", "DUP"] := ⟨_, rfl, rfl⟩
    obtain ⟨next, ticked, body⟩ := patched
    obtain ⟨touched, -, names⟩ := (closed_words_kept patching).1 _ ticked
    refine ⟨next, ticked, body, touched "TORN" ?_, names⟩
    intro (same : next.dictionary.user.find? "TORN" = _)
    rw [Dictionary.body?, same] at body
    exact absurd body (by decide)
  · have stepped : ∃ last, mending.step Primitive.handler 5 = some (.ok () last) ∧
        last.dictionary.body? "TORN" = some ["9", "DUP"] ∧ last.openWord = some "TORN" :=
      ⟨_, rfl, rfl, rfl⟩
    obtain ⟨last, ran, body, opened⟩ := stepped
    have never : ∀ x, Stage mending .step x → x.openWord ≠ some "MEND" := by
      intro x stage
      have ended : (last.openWord != some "MEND") = true := by simp [opened]
      simpa using stage.check (·.openWord != some "MEND") ran rfl ended
    exact ⟨last, ran, body, ((closed_words_kept mending).2 .step 5 _ rfl ran).2 "MEND" never⟩

end Machine
end ResumableForth
