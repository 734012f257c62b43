import ResumableForth.Proofs.Invariance
import ResumableForth.Proofs.Lexicon
import ResumableForth.Proofs.Splitting

/-! What operations and words do to a machine, said once for all proofs that follow the code a machine
reads and writes. An operation moves the cursor inside the input, switches the mode, opens, edits or
closes a definition, or leaves all of these alone. A native word does at most one such thing to the
words, the open definition and the mode, and the tokens that it writes are tokens of a text, come out
of the input, or are the text of a value that was on the stack. -/
namespace ResumableForth

namespace Machine

section

variable {ν α : Type} {m m' : Machine ν}

/-- Two machines that differ in values, output, chance and journal only. -/
structure Alike (m m' : Machine ν) : Prop where
  dictionary : m'.dictionary = m.dictionary
  input : m'.input = m.input
  cursor : m'.cursor = m.cursor
  mode : m'.mode = m.mode
  openWord : m'.openWord = m.openWord
  frames : m'.frames = m.frames
  room : m'.room = m.room

theorem Alike.refl (m : Machine ν) : Alike m m := ⟨rfl, rfl, rfl, rfl, rfl, rfl, rfl⟩

/-- What an operation can come to, from one machine to another. -/
inductive Change (m m' : Machine ν) : Prop
  | nothing (same : Alike m m')
  | moved (index : Nat) (inside : index ≤ m.input.length) (same : Alike (m.moveTo index) m')
  | switched (mode : Mode) (running : mode ≠ .halt) (same : Alike { m with mode := mode } m')
  | begun (name : String) (immediate : Bool) (idle : m.openWord = none)
    (same : Alike
      { m with
        dictionary := m.dictionary.define name (.compiled immediate [])
        openWord := some name
        mode := .compile } m')
  | ended (name : String) (opened : m.openWord = some name)
    (same : Alike { m with openWord := none, mode := .execute } m')
  | edited (name : String) (opened : m.openWord = some name) (change : List String → List String)
    (dictionary : Dictionary ν) (edited : m.dictionary.editBody? name change = some dictionary)
    (same : Alike { m with dictionary := dictionary } m')

/-- An operation makes one of these changes, also when it fails. -/
theorem Change.of_exec (operation : Op α) (m : Machine ν) :
    Change m (Outcome.machine (operation.exec m)) := by
  cases operation with
  | values => exact .nothing (.refl m)
  | look => exact .nothing (.refl m)
  | push value => exact .nothing ⟨rfl, rfl, rfl, rfl, rfl, rfl, rfl⟩
  | pop =>
    simp only [Op.exec, Action.pop]
    split
    · exact .nothing (.refl m)
    · exact .nothing ⟨rfl, rfl, rfl, rfl, rfl, rfl, rfl⟩
  | pick index =>
    simp only [Op.exec, Action.pick]
    split
    · exact .nothing (.refl m)
    · exact .nothing (.refl m)
  | write text => exact .nothing ⟨rfl, rfl, rfl, rfl, rfl, rfl, rfl⟩
  | nextToken =>
    simp only [Op.exec, Action.nextToken]
    split
    · rename_i token found
      obtain ⟨inside, -⟩ := List.getElem?_eq_some_iff.mp found
      exact .moved (m.cursor + 1) inside (.refl _)
    · exact .nothing (.refl m)
  | jump index =>
    simp only [Op.exec, Action.jump]
    split
    · rename_i inside
      exact .moved index inside (.refl _)
    · exact .nothing (.refl m)
  | setMode mode running => exact .switched mode running (.refl _)
  | beginDefinition name immediate =>
    simp only [Op.exec, Action.beginDefinition]
    split
    · exact .nothing (.refl m)
    · rename_i idle
      exact .begun name immediate idle ⟨rfl, rfl, rfl, rfl, rfl, rfl, rfl⟩
  | endDefinition =>
    simp only [Op.exec, Action.endDefinition]
    split
    · exact .nothing (.refl m)
    · rename_i name opened
      split
      · exact .ended name opened ⟨rfl, rfl, rfl, rfl, rfl, rfl, rfl⟩
      · exact .ended name opened (.refl _)
  | here =>
    simp only [Op.exec, Action.here]
    split
    · exact .nothing (.refl m)
    · split
      · exact .nothing (.refl m)
      · exact .nothing (.refl m)
  | edit change =>
    simp only [Op.exec, Action.editDefinition]
    split
    · exact .nothing (.refl m)
    · rename_i name opened
      split
      · rename_i dictionary edited
        exact .edited name opened change dictionary edited (.refl _)
      · exact .nothing (.refl m)
  | notePatch index token => exact .nothing ⟨rfl, rfl, rfl, rfl, rfl, rfl, rfl⟩
  | draw span =>
    show Change m { m with generator := (m.generator.draw span).2 }
    exact .nothing ⟨rfl, rfl, rfl, rfl, rfl, rfl, rfl⟩

theorem Change.input (change : Change m m') : m'.input = m.input := by
  cases change with
  | nothing same => exact same.input
  | moved index inside same => exact same.input
  | switched mode running same => exact same.input
  | begun name immediate idle same => exact same.input
  | ended name opened same => exact same.input
  | edited name opened change dictionary edited same => exact same.input

/-- An operation leaves the cursor alone, or moves it together with the innermost frame. -/
theorem Change.cursor (change : Change m m') :
    (m'.frames = m.frames ∧ m'.cursor = m.cursor) ∨
      ∃ index, index ≤ m.input.length ∧ m'.frames = reach index m.frames ∧ m'.cursor = index := by
  cases change with
  | moved index inside same => exact .inr ⟨index, inside, same.frames, same.cursor⟩
  | nothing same | switched _ _ same | begun _ _ _ same | ended _ _ same | edited _ _ _ _ _ same =>
    exact .inl ⟨same.frames, same.cursor⟩

theorem Change.running (change : Change m m') (running : m.mode ≠ .halt) : m'.mode ≠ .halt := by
  cases change with
  | nothing same | moved _ _ same | edited _ _ _ _ _ same =>
    rw [same.mode]
    exact running
  | switched mode other same =>
    rw [same.mode]
    exact other
  | begun _ _ _ same | ended _ _ same =>
    rw [same.mode]
    rintro ⟨⟩

def inputs (m : Machine ν) : List (List String) := m.input :: m.frames.map Frame.input

theorem map_input_reach (index : Nat) (frames : List Frame) :
    (reach index frames).map Frame.input = frames.map Frame.input := by
  cases frames <;> rfl

@[simp] theorem inputs_moveTo (index : Nat) (m : Machine ν) : (m.moveTo index).inputs = m.inputs := by
  simp [inputs, moveTo, map_input_reach]

theorem SameCallers.inputs (same : SameCallers m m') (input : m'.input = m.input) :
    m'.inputs = m.inputs := by
  have frames := congrArg (List.map Frame.input) same.frames
  rw [map_input_reach, map_input_reach] at frames
  rw [Machine.inputs, Machine.inputs, input, frames]

theorem values_exec {good : Value → Prop} (operation : Op α) (pre : operation.Pre good)
    (h : ∀ value ∈ m.stack, good value) :
    Outcome.Meets (operation.Post good) (fun m' => ∀ value ∈ m'.stack, good value)
      (operation.exec m) := by
  cases operation with
  | push value => exact ⟨trivial, List.forall_mem_cons.mpr ⟨pre, h⟩⟩
  | pop =>
    cases stack : m.stack with
    | nil =>
      simp only [Op.exec, Action.pop, stack]
      exact h
    | cons value rest =>
      rw [stack] at h
      simp only [Op.exec, Action.pop, stack]
      exact List.forall_mem_cons.mp h
  | pick index =>
    simp only [Op.exec, Action.pick]
    split
    · rename_i value found
      exact ⟨h value (List.mem_of_getElem? found), h⟩
    · exact h
  | values => exact ⟨h, h⟩
  | nextToken =>
    simp only [Op.exec, Action.nextToken]
    split <;> exact ⟨trivial, h⟩
  | jump index =>
    simp only [Op.exec, Action.jump]
    split
    · exact ⟨trivial, h⟩
    · exact h
  | beginDefinition name immediate =>
    simp only [Op.exec, Action.beginDefinition]
    split
    · exact h
    · exact ⟨trivial, h⟩
  | endDefinition =>
    simp only [Op.exec, Action.endDefinition]
    split
    · exact h
    · split <;> exact ⟨trivial, h⟩
  | here =>
    simp only [Op.exec, Action.here]
    split
    · exact h
    · split
      · exact ⟨trivial, h⟩
      · exact h
  | edit change =>
    simp only [Op.exec, Action.editDefinition]
    split
    · exact h
    · split
      · exact ⟨trivial, h⟩
      · exact h
  | write | look | setMode | notePatch | draw => exact ⟨trivial, h⟩

/-- What is put together from operations leaves what is being read alone, and puts no values outside of
a class on the stack that it may put there. -/
theorem inputs_of_composed {good : Value → Prop} {result : α → Prop} {action : Action ν α}
    (composed : Action.Composed .any good result action) (h : ∀ value ∈ m.stack, good value) :
    (Outcome.machine (action m)).inputs = m.inputs ∧
      ∀ value ∈ (Outcome.machine (action m)).stack, good value := by
  have met : Outcome.Meets result
      (fun m' => m'.inputs = m.inputs ∧ ∀ value ∈ m'.stack, good value) (action m) := by
    refine composed.keeps (fun operation _ pre next kept => ?_) m ⟨rfl, h⟩
    have callers := (SameCallers.exec operation next).machine
    have same := (callers.inputs (Change.of_exec operation next).input).trans kept.1
    have values := values_exec operation pre kept.2
    cases executed : operation.exec next with
    | ok x last =>
      rw [executed] at same values
      exact ⟨values.1, same, values.2⟩
    | error fault last =>
      rw [executed] at same values
      exact ⟨same, values⟩
  exact met.machine

theorem input_of_composed {result : α → Prop} {action : Action ν α}
    (composed : Action.Composed .any (fun _ => True) result action) (m : Machine ν) :
    (Outcome.machine (action m)).input = m.input :=
  List.head_eq_of_cons_eq (inputs_of_composed composed fun _ _ => trivial).1

end
end Machine

namespace Action

variable {ν α β : Type} {m m' : Machine ν}

theorem bind_of_ok {first : Action ν α} {next : α → Action ν β} {x : α} (h : first m = .ok x m') :
    (first >>= next) m = next x m' := by
  show EStateM.bind first next m = next x m'
  rw [EStateM.bind, h]

theorem bind_of_error {first : Action ν α} {next : α → Action ν β} {fault : Fault}
    (h : first m = .error fault m') : (first >>= next) m = .error fault m' := by
  show EStateM.bind first next m = .error fault m'
  rw [EStateM.bind, h]

theorem pop_of_nil (empty : m.stack = []) : pop m = fail .emptyStack m := by
  rw [pop, empty]

theorem pop_of_cons {value : Value} {stack : List Value} (top : m.stack = value :: stack) :
    pop m = .ok value { m with stack := stack } := by
  rw [pop, top]

theorem nextToken_of_some {token : String} (next : m.token? = some token) :
    nextToken m = .ok (some token) (m.moveTo (m.cursor + 1)) := by
  rw [nextToken, next]

theorem nextToken_of_none (next : m.token? = none) : nextToken m = .ok none m := by
  rw [nextToken, next]

theorem readUntil_eq {block rest : List String} {closer : String}
    (next : m.input.drop m.cursor = block ++ closer :: rest) (plain : closer ∉ block)
    (missing : Cause) :
    readUntil closer missing m = .ok block (m.moveTo (m.cursor + block.length + 1)) := by
  have taken : (m.input.drop m.cursor).takeWhile (· != closer) = block := by
    have others : ∀ token ∈ block, (token != closer) = true := by
      intro token mem
      exact bne_iff_ne.mpr fun same => plain (same ▸ mem)
    rw [next, List.takeWhile_append_of_pos others, List.takeWhile_cons_of_neg (by simp),
      List.append_nil]
  have stop : m.input[m.cursor + block.length]? = some closer := by
    rw [← List.getElem?_drop, next]
    simp
  have inside : m.cursor + block.length + 1 ≤ m.input.length :=
    (List.getElem?_eq_some_iff.mp stop).1
  change (if m.input[m.cursor + ((m.input.drop m.cursor).takeWhile (· != closer)).length]?.isSome
    then jump (m.cursor + ((m.input.drop m.cursor).takeWhile (· != closer)).length + 1) >>=
      fun _ => pure ((m.input.drop m.cursor).takeWhile (· != closer))
    else fail missing) m = _
  rw [taken, stop]
  apply bind_of_ok
  rw [jump, if_pos inside]

theorem readUntil_of_not_mem {closer : String} (absent : closer ∉ m.input.drop m.cursor)
    (missing : Cause) : readUntil closer missing m = fail missing m := by
  have taken : (m.input.drop m.cursor).takeWhile (· != closer) = m.input.drop m.cursor := by
    have others : ∀ token ∈ m.input.drop m.cursor, (token != closer) = true := by
      intro token mem
      exact bne_iff_ne.mpr fun same => absent (same ▸ mem)
    rw [← List.append_nil (m.input.drop m.cursor), List.takeWhile_append_of_pos others, List.takeWhile_nil]
  have stop : m.input[m.cursor + (m.input.drop m.cursor).length]? = none := by
    rw [List.getElem?_eq_none_iff, List.length_drop]
    omega
  change (if m.input[m.cursor + ((m.input.drop m.cursor).takeWhile (· != closer)).length]?.isSome
    then jump (m.cursor + ((m.input.drop m.cursor).takeWhile (· != closer)).length + 1) >>=
      fun _ => pure ((m.input.drop m.cursor).takeWhile (· != closer))
    else fail missing) m = _
  rw [taken, stop]
  rfl

/-- A block is read out of the input, or the cursor stays. -/
theorem readUntil_cases (closer : String) (missing : Cause) (m : Machine ν) :
    (∃ block rest, m.input.drop m.cursor = block ++ closer :: rest ∧ closer ∉ block ∧
      readUntil closer missing m = .ok block (m.moveTo (m.cursor + block.length + 1))) ∨
    (closer ∉ m.input.drop m.cursor ∧ readUntil closer missing m = fail missing m) := by
  by_cases there : closer ∈ m.input.drop m.cursor
  · obtain ⟨block, rest, next, plain⟩ := List.eq_append_cons_of_mem there
    exact .inl ⟨block, rest, next, plain, readUntil_eq next plain missing⟩
  · exact .inr ⟨there, readUntil_of_not_mem there missing⟩

theorem editDefinition_cases (change : List String → List String) (m : Machine ν) :
    (∃ name dictionary, m.openWord = some name ∧
      m.dictionary.editBody? name change = some dictionary ∧
      editDefinition change m = .ok () { m with dictionary := dictionary }) ∨
    ∃ fault, editDefinition change m = .error fault m := by
  cases opened : m.openWord with
  | none =>
    right
    exact ⟨_, by rw [editDefinition, opened]; rfl⟩
  | some name =>
    cases edited : m.dictionary.editBody? name change with
    | none =>
      right
      exact ⟨_, by simp only [editDefinition, opened, edited]; rfl⟩
    | some dictionary =>
      left
      exact ⟨name, dictionary, rfl, edited, by simp only [editDefinition, opened, edited]⟩

theorem patch_of_slot {index : Nat} {name : String} {body : List String} (opened : m.openWord = some name)
    (found : m.dictionary.body? name = some body) (inside : index < body.length) (token : String) :
    ∃ dictionary, m.dictionary.editBody? name (·.set index token) = some dictionary ∧
      patch index token m =
        .ok () { m.record fun _ => .slotPatched index token with dictionary := dictionary } := by
  obtain ⟨dictionary, edited⟩ := Dictionary.exists_editBody? found (·.set index token)
  have size : here m = .ok body.length m := by
    rw [here, opened]
    simp only [found]
  have noted : (modify (·.record fun _ => .slotPatched index token) : Action ν Unit) m =
      .ok () (m.record fun _ => .slotPatched index token) := rfl
  refine ⟨dictionary, edited, ?_⟩
  rw [patch, bind_of_ok size, if_pos inside, bind_of_ok noted]
  simp only [editDefinition, Machine.record, opened, edited]

theorem patch_of_no_slot {index : Nat}
    (missing : ¬ ∃ name body, m.openWord = some name ∧ m.dictionary.body? name = some body ∧
      index < body.length) (token : String) : ∃ fault, patch index token m = .error fault m := by
  rw [patch]
  cases opened : m.openWord with
  | none =>
    have none : here m = fail .noDefinition m := by rw [here, opened]
    exact ⟨_, bind_of_error none⟩
  | some name =>
    cases found : m.dictionary.body? name with
    | none =>
      have lost : here m = fail (.definitionLost name) m := by
        rw [here, opened]
        simp only [found]
      exact ⟨_, bind_of_error lost⟩
    | some body =>
      have size : here m = .ok body.length m := by
        rw [here, opened]
        simp only [found]
      have outside : ¬ index < body.length :=
        fun inside => missing ⟨name, body, opened, found, inside⟩
      rw [bind_of_ok size, if_neg outside]
      exact ⟨_, rfl⟩

theorem exists_patch_iff (index : Nat) (token : String) (m : Machine ν) :
    (∃ next, patch index token m = .ok () next) ↔
      ∃ name body, m.openWord = some name ∧ m.dictionary.body? name = some body ∧
        index < body.length := by
  constructor
  · rintro ⟨next, done⟩
    apply Classical.byContradiction
    intro missing
    obtain ⟨fault, failed⟩ := patch_of_no_slot missing token
    rw [failed] at done
    cases done
  · rintro ⟨name, body, opened, found, inside⟩
    obtain ⟨dictionary, -, done⟩ := patch_of_slot opened found inside token
    exact ⟨_, done⟩

end Action

/-- What a machine has of code: its words, the definition under construction and the mode, and the
journal, which tells what happened to these. -/
structure Code (ν : Type) where
  dictionary : Dictionary ν
  openWord : Option String
  mode : Mode
  journal : Journal

def Machine.code {ν : Type} (m : Machine ν) : Code ν :=
  ⟨m.dictionary, m.openWord, m.mode, m.journal⟩

/-- What a native word can do to the code of a machine. -/
inductive Deed {ν : Type} (m : Machine ν) : Code ν → Prop
  | kept : Deed m m.code
  | opened (name : String) (immediate : Bool) (idle : m.openWord = none) (read : name ∈ m.input) :
    Deed m ⟨m.dictionary.define name (.compiled immediate []), some name, .compile,
      m.journal.record fun _ => .definitionBegun name immediate⟩
  | closed (name : String) (was : m.openWord = some name) (journal : Journal)
    (noted : journal = m.journal ∨
      ∃ body, journal = m.journal.record fun _ => .definitionEnded name body) :
    Deed m ⟨m.dictionary, none, .execute, journal⟩
  | extended (name : String) (was : m.openWord = some name) (tokens : List String)
    (given : ∀ token ∈ tokens, Text.isToken token = true ∨ token ∈ m.input)
    (dictionary : Dictionary ν)
    (edited : m.dictionary.editBody? name (· ++ tokens) = some dictionary) (mode : Mode)
    (compiling : mode = m.mode ∨ mode = .compile) :
    Deed m ⟨dictionary, m.openWord, mode, m.journal⟩
  | patched (name : String) (was : m.openWord = some name) (index : Nat) (value : Value)
    (held : value ∈ m.stack) (dictionary : Dictionary ν)
    (edited : m.dictionary.editBody? name (·.set index value.canonical) = some dictionary) :
    Deed m ⟨dictionary, m.openWord, m.mode,
      m.journal.record fun _ => .slotPatched index value.canonical⟩
  | suspended : Deed m ⟨m.dictionary, m.openWord, .execute, m.journal⟩

def Primitive.isWriting : Primitive → Bool
  | .colon | .semicolon | .store | .comma | .openBracket | .closeBracket => true
  | _ => false

namespace Action.Composed

variable {ν α : Type} {good : Value → Prop} {result : α → Prop} {word : Primitive}

theorem ofKeeping (stable : Value.Stable good) (h : word.isWriting = false) :
    Plain .keeping good (word.run : Action ν Unit) := by
  cases here : word.isLocal with
  | true => exact (ofLocal stable here).mono Op.Class.keeping_of_onStore
  | false =>
    cases word with
    | rand => exact (random stable).mono And.left
    | here => exact (pushHere stable).mono And.left
    | branch => exact branch.mono And.left
    | branchUnless => exact branchUnless.mono And.left
    | openParen => exact comment.mono And.left
    | colon | semicolon | store | comma | openBracket | closeBracket => cases h
    | _ => cases here

end Action.Composed

namespace Machine

variable {ν α : Type} {m : Machine ν}

theorem code_withGenerator (m : Machine ν) (generator : Generator) :
    { m with generator := generator }.code = m.code := rfl

theorem code_of_keeping (operation : Op α) (keeping : Op.Class.keeping α operation)
    (m : Machine ν) : (Outcome.machine (operation.exec m)).code = m.code := by
  cases operation with
  | setMode | beginDefinition | endDefinition | edit | notePatch => exact keeping.elim
  | draw span => exact code_withGenerator m (m.generator.draw span).2
  | pop =>
    simp only [Op.exec, Action.pop]
    split <;> rfl
  | pick index =>
    simp only [Op.exec, Action.pick]
    split <;> rfl
  | nextToken =>
    simp only [Op.exec, Action.nextToken]
    split <;> rfl
  | jump index =>
    simp only [Op.exec, Action.jump]
    split <;> rfl
  | here =>
    simp only [Op.exec, Action.here]
    split
    · rfl
    · split <;> rfl
  | _ => rfl

/-- What is put together from operations that leave the code alone leaves it alone, too. -/
theorem code_of_composed {result : α → Prop} {action : Action ν α}
    (composed : Action.Composed .keeping (fun _ => True) result action) (m : Machine ν) :
    (Outcome.machine (action m)).code = m.code := by
  have met : Outcome.Meets result (fun m' => m'.code = m.code) (action m) := by
    refine composed.keeps (fun operation keeping _ m' same => ?_) m rfl
    exact operation.meets_of_machine ((code_of_keeping operation keeping m').trans same)
  exact met.machine

end Machine

namespace Deed

open Machine

variable {ν : Type} {m m' : Machine ν}

theorem of_code {code : Code ν} (same : code = m.code) : Deed m code := same ▸ .kept

theorem of_compile {tokens : List String} (same : m'.code = m.code)
    (given : ∀ token ∈ tokens, Text.isToken token = true ∨ token ∈ m.input) :
    Deed m (Outcome.machine (Action.compile tokens m')).code := by
  obtain ⟨dictionary, openWord, mode, journal⟩ := Code.mk.inj same
  rw [Action.compile]
  rcases Action.editDefinition_cases (· ++ tokens) m' with ⟨name, next, was, edited, done⟩ | ⟨_, failed⟩
  · rw [done]
    rw [openWord] at was
    rw [dictionary] at edited
    have deed := Deed.extended name was tokens given next edited m.mode (.inl rfl)
    rw [← openWord, ← mode, ← journal] at deed
    exact deed
  · rw [failed]
    exact .of_code same

theorem of_beginDefinition {name : String} (same : m'.code = m.code) (read : name ∈ m.input)
    (immediate : Bool) :
    Deed m (Outcome.machine (Action.beginDefinition name immediate m')).code := by
  obtain ⟨dictionary, openWord, mode, journal⟩ := Code.mk.inj same
  rw [Action.beginDefinition]
  split
  · exact .of_code same
  · rename_i idle
    rw [openWord] at idle
    have deed := Deed.opened name immediate idle read
    rw [← dictionary, ← journal] at deed
    exact deed

theorem of_beginWord (m : Machine ν) : Deed m (Outcome.machine (Action.beginWord m)).code := by
  rw [Action.beginWord]
  cases next : m.token? with
  | none =>
    rw [Action.bind_of_ok (Action.nextToken_of_none next)]
    exact .kept
  | some name =>
    rw [Action.bind_of_ok (Action.nextToken_of_some next)]
    have read : name ∈ m.input := List.mem_of_getElem? next
    show Deed m (Outcome.machine ((if (m.moveTo (m.cursor + 1)).token? = some Action.immediateMark
      then Action.nextToken >>= fun _ => Action.beginDefinition name true
      else Action.beginDefinition name false) (m.moveTo (m.cursor + 1)))).code
    split
    · rename_i marked
      rw [Action.bind_of_ok (Action.nextToken_of_some marked)]
      have same : ((m.moveTo (m.cursor + 1)).moveTo (m.cursor + 1 + 1)).code = m.code := rfl
      exact of_beginDefinition same read true
    · have same : (m.moveTo (m.cursor + 1)).code = m.code := rfl
      exact of_beginDefinition same read false

theorem of_endDefinition (m : Machine ν) :
    Deed m (Outcome.machine (Action.endDefinition m)).code := by
  rw [Action.endDefinition]
  split
  · exact .kept
  · rename_i name was
    split
    · rename_i body _
      exact .closed name was _ (.inr ⟨body, rfl⟩)
    · exact .closed name was _ (.inl rfl)

theorem of_suspend (m : Machine ν) : Deed m (Outcome.machine (Action.suspend m)).code := by
  show Deed m (Outcome.machine ((if m.mode = .compile then Action.setMode .execute else pure ()) m)).code
  split
  · exact .suspended
  · exact .kept

theorem of_compileValue (m : Machine ν) :
    Deed m (Outcome.machine (Action.compileValue m)).code := by
  rw [Action.compileValue]
  cases stack : m.stack with
  | nil =>
    rw [Action.bind_of_error (Action.pop_of_nil stack)]
    exact .kept
  | cons value rest =>
    rw [Action.bind_of_ok (Action.pop_of_cons stack)]
    cases size : Action.here { m with stack := rest } with
    | error fault failed =>
      rw [Action.bind_of_error size]
      have same := code_of_keeping .here trivial { m with stack := rest }
      rw [Op.exec, size] at same
      exact .of_code same
    | ok count seen =>
      rw [Action.bind_of_ok size]
      have same := code_of_keeping .here trivial { m with stack := rest }
      rw [Op.exec, size] at same
      exact of_compile same fun token mem => .inl (Text.isToken_of_mem_tokens mem)

theorem of_patch {value : Value} (index : Nat) (same : m'.code = m.code) (held : value ∈ m.stack) :
    Deed m (Outcome.machine (Action.patch index value.canonical m')).code := by
  obtain ⟨dictionary, openWord, mode, journal⟩ := Code.mk.inj same
  by_cases slot : ∃ name body, m'.openWord = some name ∧ m'.dictionary.body? name = some body ∧
      index < body.length
  · obtain ⟨name, body, opened, found, inside⟩ := slot
    obtain ⟨next, edited, done⟩ := Action.patch_of_slot opened found inside value.canonical
    rw [done]
    rw [openWord] at opened
    rw [dictionary] at edited
    have deed := Deed.patched name opened index value held next edited
    rw [← openWord, ← mode, ← journal] at deed
    exact deed
  · obtain ⟨fault, failed⟩ := Action.patch_of_no_slot slot value.canonical
    rw [failed]
    exact .of_code same

theorem of_storeValue (m : Machine ν) : Deed m (Outcome.machine (Action.storeValue m)).code := by
  rw [Action.storeValue]
  cases stack : m.stack with
  | nil =>
    rw [Action.bind_of_error (Action.pop_of_nil stack)]
    exact .kept
  | cons value rest =>
    rw [Action.bind_of_ok (Action.pop_of_cons stack)]
    cases rest with
    | nil =>
      have empty : ({ m with stack := [] } : Machine ν).stack = [] := rfl
      rw [Action.bind_of_error (Action.pop_of_nil empty)]
      exact .kept
    | cons slot rest =>
      have top : ({ m with stack := slot :: rest } : Machine ν).stack = slot :: rest := rfl
      rw [Action.bind_of_ok (Action.pop_of_cons top)]
      have held : value ∈ m.stack := by simp [stack]
      cases slot with
      | int index =>
        by_cases negative : index < 0
        · simp only [negative, if_true]
          exact .kept
        · simp only [negative, if_false]
          exact of_patch _ rfl held
      | _ => exact .kept

theorem of_copyBlock (m : Machine ν) : Deed m (Outcome.machine (Action.copyBlock m)).code := by
  rw [Action.copyBlock]
  rcases Action.readUntil_cases "]" .blockOpen m with ⟨block, rest, next, -, read⟩ | ⟨-, missing⟩
  · rw [Action.bind_of_ok read]
    have inside : ∀ token ∈ block, token ∈ m.input := fun token mem =>
      List.mem_of_mem_drop (next ▸ List.mem_append_left _ mem)
    generalize m.cursor + block.length + 1 = stop
    have same : (m.moveTo stop).code = m.code := rfl
    show Deed m (Outcome.machine ((if (m.moveTo stop).mode = .compile
      then Action.compile ("[" :: (block ++ ["]"]))
      else if (m.moveTo stop).openWord.isNone then Action.fail .blockWithoutDefinition
      else Action.compile block >>= fun _ =>
        if (m.moveTo stop).frames.isEmpty then Action.setMode .compile else pure ())
      (m.moveTo stop))).code
    split
    · apply of_compile same
      intro token mem
      simp only [List.mem_cons, List.mem_append, List.not_mem_nil, or_false] at mem
      rcases mem with rfl | copied | rfl
      · exact .inl (by decide)
      · exact .inr (inside token copied)
      · exact .inl (by decide)
    · split
      · exact .kept
      · have given : ∀ token ∈ block, Text.isToken token = true ∨ token ∈ m.input :=
          fun token mem => .inr (inside token mem)
        rw [Action.compile]
        rcases Action.editDefinition_cases (· ++ block) (m.moveTo stop) with
          ⟨name, next, was, edited, done⟩ | ⟨_, failed⟩
        · rw [Action.bind_of_ok done]
          have was' : m.openWord = some name := was
          split
          · exact .extended name was' block given next edited .compile (.inr rfl)
          · exact .extended name was' block given next edited m.mode (.inl rfl)
        · rw [Action.bind_of_error failed]
          exact .kept
  · rw [Action.bind_of_error missing]
    exact .kept

/-- Every native word does one of these things, also when it fails. -/
theorem of_primitive (word : Primitive) (m : Machine ν) :
    Deed m (Outcome.machine (word.run m)).code := by
  cases writing : word.isWriting with
  | false =>
    exact .of_code (code_of_composed (.ofKeeping Value.closed_true.stable writing) m)
  | true =>
    cases word with
    | colon => exact of_beginWord m
    | semicolon => exact of_endDefinition m
    | store => exact of_storeValue m
    | comma => exact of_compileValue m
    | openBracket => exact of_copyBlock m
    | closeBracket => exact of_suspend m
    | _ => cases writing

/-- So does every action that a token asks for, when the token has been read from the input. -/
theorem of_request {token : String} {m : StandardMachine} {action : Action Primitive Unit}
    (read : token ∈ m.input) (asked : m.request token = .act action) :
    Deed m (Outcome.machine (action m)).code := by
  have copied : ∀ other ∈ [token], Text.isToken other = true ∨ other ∈ m.input := by
    intro other mem
    rw [List.mem_singleton.mp mem]
    exact .inr read
  obtain ⟨word, primitive, -, -, -, rfl⟩ | rfl | rfl | ⟨-, rfl⟩ := act_of_request asked
  · exact of_primitive primitive m
  · exact .kept
  · exact of_compile rfl copied
  · exact .kept

end Deed
end ResumableForth
