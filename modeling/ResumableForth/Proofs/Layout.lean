import ResumableForth.Proofs.ControlFlow

/-! The layout of a compiled definition. The control structures leave the slots that still need a target
on the data stack, between words that are run one by one while the definition is compiled, and above
whatever was on the stack before. However they are nested, the body that they leave in the dictionary is
the layout of the program, token by token, and nothing else has changed. -/
namespace ResumableForth

/-- The names that definitions and control structures are made with. -/
def structuralNames : List String :=
  controlWords.map Prod.fst ++ buildingWords.map fun primitive => primitive.entry.1

theorem mem_structuralNames {name : String} :
    name ∈ structuralNames ↔
      (∃ entry ∈ controlWords, entry.1 = name) ∨ ∃ primitive ∈ buildingWords, primitive.entry.1 = name := by
  rw [structuralNames, List.mem_append, List.mem_map, List.mem_map]

theorem Dictionary.Equipped.of_agree {dictionary base : Dictionary Primitive} (equipped : base.Equipped)
    (agree : ∀ key ∈ structuralNames, dictionary.find? key = base.find? key) : dictionary.Equipped where
  building primitive mem :=
    (agree _ (mem_structuralNames.mpr (.inr ⟨primitive, mem, rfl⟩))).trans (equipped.building primitive mem)
  control entry mem :=
    (agree _ (mem_structuralNames.mpr (.inl ⟨entry, mem, rfl⟩))).trans (equipped.control entry mem)

namespace Machine

variable {m : StandardMachine} {name source : String} {program : Program}

theorem interpret_definition (calm : m.frames = []) (closed : m.openWord = none) (room : m.room ≠ 0)
    (equipped : m.dictionary.Equipped) (fresh : name ∉ structuralNames)
    (plain : program.tokens.head? ≠ some Action.immediateMark)
    (leaves : ∀ token ∈ program.leaves, token ≠ name → m.dictionary.Copies token)
    (read : Text.tokens source = ":" :: name :: (program.tokens ++ [";"]))
    (small : program.size < 2 ^ 63) :
    ∃ fuel after, m.interpret Primitive.handler fuel source = some (.ok () after) ∧
      after.quiet = (m.finished (m.dictionary.define name (.compiled false (program.layout 0)))
        (Text.tokens source)).quiet := by
  have building : ∀ primitive ∈ buildingWords, primitive.entry.1 ≠ name :=
    fun primitive mem same => fresh (mem_structuralNames.mpr (.inr ⟨primitive, mem, same⟩))
  have control : ∀ entry ∈ controlWords, entry.1 ≠ name :=
    fun entry mem same => fresh (mem_structuralNames.mpr (.inl ⟨entry, mem, same⟩))
  have whole : Text.tokens source = (Passage.word name program).tokens := read
  have next : (Text.tokens source).drop 0 = (Passage.word name program).tokens ++ [] := by
    rw [List.drop_zero, List.append_nil, whole]
  have steps := stepsTo_definition (m := { m with input := Text.tokens source }) room equipped building
    control plain leaves small next
  rw [Nat.zero_add, ← whole] at steps
  exact interpret_of_stepsTo calm closed steps

/-- Compilation by the control structures yields the layout of the program. When the bootstrap library has
been run, and the words that definitions are made with have kept their meaning, the definition of a word by
a structured program succeeds wherever no other definition is open, with anything on the stack and with
room for a single call. The tokens of the program may be any that do not name an immediate word, and also
the name that is being defined; the first one is not the mark of an immediate definition. The name is then
bound to a word that is not immediate and whose body is the layout of the program, and nothing else has
changed but what has been read. -/
theorem definition_laid_out {host : Host Primitive} (standard : host.natives = Primitive.lexicon) :
    ∃ fuel ready, (start host).interpret Primitive.handler fuel prelude = some (.ok () ready) ∧
      ready.dictionary = bootstrapped ∧
      ∀ m : StandardMachine,
        (∀ key ∈ structuralNames, m.dictionary.find? key = ready.dictionary.find? key) →
        m.frames = [] → m.openWord = none → m.room ≠ 0 →
      ∀ (program : Program) (name source : String), name ∉ structuralNames →
        program.tokens.head? ≠ some Action.immediateMark →
        (∀ token ∈ program.leaves, token ≠ name → m.dictionary.Copies token) →
        Text.tokens source = ":" :: name :: (program.tokens ++ [";"]) → source.length < 2 ^ 63 →
      ∃ fuel after, m.interpret Primitive.handler fuel source = some (.ok () after) ∧
        after.dictionary.find? name = some (.compiled false (program.layout 0)) ∧
        after = { m with
          dictionary := m.dictionary.define name (.compiled false (program.layout 0))
          input := Text.tokens source
          cursor := (Text.tokens source).length
          mode := .halt
          journal := after.journal } := by
  obtain ⟨fuel, ready, ran, same⟩ := interpret_prelude standard
  have words : ready.dictionary = bootstrapped := congrArg Machine.dictionary same
  refine ⟨fuel, ready, ran, words, ?_⟩
  intro m agree calm closed room program name source fresh plain leaves read short
  rw [words] at agree
  obtain ⟨fuel, after, defined, same⟩ := interpret_definition calm closed room
    (Dictionary.equipped_bootstrapped.of_agree agree) fresh plain leaves read (size_lt read short)
  have after_eq := eq_of_quiet same
  refine ⟨fuel, after, defined, ?_, after_eq⟩
  rw [after_eq]
  exact Dictionary.find?_define_self _ _ _

def nested : Program :=
  .leaf "1" (.whileLoop (.leaf "DUP" .done)
    (.ifElse (.leaf "NEST" .done) (.untilLoop (.leaf "IMMEDIATE" .done) .done) .done)
    (.ifThen (.endless (.leaf "+" .done) .done) .done))

def nestedText : String :=
  ": NEST 1 BEGIN DUP WHILE IF NEST ELSE BEGIN IMMEDIATE UNTIL THEN REPEAT IF BEGIN + AGAIN THEN ;"

def single : StandardMachine :=
  { start { natives := Primitive.lexicon, depthBound := 1 } with
    dictionary := bootstrapped
    stack := [.int 7] }

theorem definition_laid_out_nested :
    ∃ fuel after, single.interpret Primitive.handler fuel nestedText = some (.ok () after) ∧
      after.dictionary.find? "NEST" = some (.compiled false
        ["1", "DUP", "BRANCH?", "14", "BRANCH?", "9", "NEST", "BRANCH", "12", "IMMEDIATE", "BRANCH?", "9",
          "BRANCH", "1", "BRANCH?", "19", "+", "BRANCH", "16"]) ∧
      after.stack = [.int 7] ∧ after.openWord = none ∧ after.mode = .halt := by
  have standard : ({ natives := Primitive.lexicon, depthBound := 1 } : Host Primitive).natives =
      Primitive.lexicon := rfl
  obtain ⟨_, ready, _, words, defines⟩ := definition_laid_out standard
  have agree : ∀ key ∈ structuralNames, single.dictionary.find? key = ready.dictionary.find? key :=
    fun key _ => congrArg (·.find? key) words.symm
  obtain ⟨fuel, after, ran, found, same⟩ :=
    defines single agree rfl rfl (Nat.succ_ne_zero 0) nested "NEST" nestedText (by decide +kernel)
      (by decide) (by decide +kernel) (by decide +kernel) (by decide +kernel)
  have layout : nested.layout 0 = ["1", "DUP", "BRANCH?", "14", "BRANCH?", "9", "NEST", "BRANCH", "12",
      "IMMEDIATE", "BRANCH?", "9", "BRANCH", "1", "BRANCH?", "19", "+", "BRANCH", "16"] := by
    decide +kernel
  rw [layout] at found
  refine ⟨fuel, after, ran, found, ?_⟩
  rw [same]
  exact ⟨rfl, rfl, rfl⟩

end Machine
end ResumableForth
