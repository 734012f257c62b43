import ResumableForth.Proofs.Coherence

/-! What a native word that fails leaves behind. It may have taken operands off the stack, but no more than
its signature lists, and it may have read on in the input. It has not touched the words of the program,
the open definition, the mode, the output or the callers: whatever a native word does to these, it does
last, and when it cannot fail any more. That holds also of the words that write several tokens, when they
write them one by one. -/
namespace ResumableForth

/-- The values that a native word takes, as its signature names them. The values that it only reaches
past are not among them. -/
def Primitive.inputs (word : Primitive) : List String :=
  ((Text.tokens word.entry.2.2).takeWhile (· != "--")).filter (· != "...")

def Primitive.arity : Primitive → Nat
  | .rot => 3
  | .swap | .copyOver | .plus | .times | .slash | .equals | .rand | .store => 2
  | .dup | .drop | .pick | .comma | .branchUnless | .assert | .dot | .quote => 1
  | .isEmpty | .colon | .semicolon | .here | .openBracket | .closeBracket | .branch | .openParen
  | .survey => 0

theorem Primitive.length_inputs (word : Primitive) : word.inputs.length = word.arity := by
  cases word <;> decide +kernel

/-- What a failure leaves of a machine, when up to `budget` values may be gone from the stack. -/
structure Machine.Contained {ν : Type} (budget : Nat) (m m' : Machine ν) : Prop where
  stack : ∃ taken, taken.length ≤ budget ∧ m.stack = taken ++ m'.stack
  dictionary : m'.dictionary = m.dictionary
  openWord : m'.openWord = m.openWord
  mode : m'.mode = m.mode
  output : m'.output = m.output
  input : m'.input = m.input
  room : m'.room = m.room
  generator : m'.generator = m.generator
  journal : m'.journal = m.journal
  /-- Of the callers all is kept, and the innermost word has been read as far as the cursor says. -/
  frames : m'.frames = m.frames ∧ m'.cursor = m.cursor ∨ m'.frames = reach m'.cursor m.frames
  forward : m.cursor ≤ m'.cursor
  inside : m.cursor ≤ m.input.length → m'.cursor ≤ m.input.length

namespace Machine.Contained

variable {ν : Type} {first second : Nat} {m m' m'' : Machine ν}

theorem refl (budget : Nat) (m : Machine ν) : Contained budget m m where
  stack := ⟨[], Nat.zero_le _, rfl⟩
  dictionary := rfl
  openWord := rfl
  mode := rfl
  output := rfl
  input := rfl
  room := rfl
  generator := rfl
  journal := rfl
  frames := .inl ⟨rfl, rfl⟩
  forward := Nat.le_refl _
  inside h := h

theorem trans (one : Contained first m m') (other : Contained second m' m'') :
    Contained (second + first) m m'' where
  stack := by
    obtain ⟨taken, few, split⟩ := one.stack
    obtain ⟨later, fewer, split'⟩ := other.stack
    refine ⟨taken ++ later, ?_, ?_⟩
    · rw [List.length_append]
      omega
    · rw [split, split', List.append_assoc]
  dictionary := other.dictionary.trans one.dictionary
  openWord := other.openWord.trans one.openWord
  mode := other.mode.trans one.mode
  output := other.output.trans one.output
  input := other.input.trans one.input
  room := other.room.trans one.room
  generator := other.generator.trans one.generator
  journal := other.journal.trans one.journal
  frames := by
    rcases one.frames with ⟨frames, cursor⟩ | frames
    · rw [← frames, ← cursor]
      exact other.frames
    · right
      rcases other.frames with ⟨frames', cursor'⟩ | frames'
      · rw [frames', cursor', frames]
      · rw [frames', frames, reach_reach]
  forward := Nat.le_trans one.forward other.forward
  inside h := by
    have inside := other.inside
    rw [one.input] at inside
    exact inside (one.inside h)

theorem depth (h : Contained first m m') : m'.depth = m.depth := by
  rcases h.frames with ⟨frames, -⟩ | frames
  · rw [Machine.depth, Machine.depth, frames]
  · rw [Machine.depth, Machine.depth, frames, length_reach]

theorem withStack {value : Value} {stack : List Value} (top : m.stack = value :: stack) :
    Contained 1 m { m with stack := stack } :=
  { refl 1 m with stack := ⟨[value], Nat.le_refl 1, top⟩ }

theorem moveTo {index : Nat} (forward : m.cursor ≤ index) (inside : index ≤ m.input.length) :
    Contained 0 m (m.moveTo index) :=
  { refl 0 m with
    frames := .inr rfl
    forward := forward
    inside := fun _ => inside }

end Machine.Contained

namespace Action

open Machine (Contained)

variable {ν α β : Type}

/-- The action takes up to `budget` values off the stack and reads on in the input, and does no more,
whether it succeeds or fails. -/
def Takes (budget : Nat) (action : Action ν α) : Prop :=
  ∀ m, Contained budget m (Outcome.machine (action m))

def Sure (action : Action ν α) : Prop := ∀ m, ∃ x m', action m = .ok x m'

/-- When the action fails, it has done no more than take up to `budget` values and read on. -/
def Guarded (budget : Nat) (action : Action ν α) : Prop :=
  ∀ m fault m', action m = .error fault m' → Contained budget m m'

namespace Takes

variable {first second : Nat}

theorem pure (x : α) : Takes 0 (Pure.pure x : Action ν α) := fun m => .refl 0 m

theorem get : Takes 0 (MonadState.get : Action ν (Machine ν)) := fun m => .refl 0 m

theorem fail (cause : Cause) : Takes 0 (Action.fail cause : Action ν α) := fun m => .refl 0 m

theorem bind {head : Action ν α} {tail : α → Action ν β} (before : Takes first head)
    (after : ∀ x, Takes second (tail x)) : Takes (second + first) (head >>= tail) := by
  intro m
  have taken := before m
  cases acted : head m with
  | ok x between =>
    rw [acted] at taken
    rw [bind_of_ok acted]
    exact taken.trans (after x between)
  | error fault between =>
    rw [acted] at taken
    rw [bind_of_error acted]
    exact taken.trans (.refl second between)

theorem ite {condition : Prop} [Decidable condition] {one other : Action ν α}
    (yes : Takes first one) (no : Takes first other) :
    Takes first (if condition then one else other) := by
  split
  · exact yes
  · exact no

theorem pop : Takes 1 (Action.pop : Action ν Value) := by
  intro m
  cases stack : m.stack with
  | nil =>
    rw [pop_of_nil stack]
    exact .refl 1 m
  | cons value rest =>
    rw [pop_of_cons stack]
    exact .withStack stack

theorem pick (index : Nat) : Takes 0 (Action.pick index : Action ν Value) := by
  intro m
  rw [Action.pick]
  split
  · exact .refl 0 m
  · exact .refl 0 m

theorem nextToken : Takes 0 (Action.nextToken : Action ν (Option String)) := by
  intro m
  cases next : m.token? with
  | none =>
    rw [nextToken_of_none next]
    exact .refl 0 m
  | some token =>
    rw [nextToken_of_some next]
    exact .moveTo (Nat.le_succ _) (List.getElem?_eq_some_iff.mp next).1

theorem here : Takes 0 (Action.here : Action ν Nat) := by
  intro m
  rw [Action.here]
  split
  · exact .refl 0 m
  · split
    · exact .refl 0 m
    · exact .refl 0 m

theorem readUntil (closer : String) (missing : Cause) :
    Takes 0 (Action.readUntil closer missing : Action ν (List String)) := by
  intro m
  rcases readUntil_cases closer missing m with ⟨block, rest, next, -, read⟩ | ⟨-, absent⟩
  · rw [read]
    have length := congrArg List.length next
    rw [List.length_drop, List.length_append, List.length_cons] at length
    exact .moveTo (by omega) (by omega)
  · rw [absent]
    exact .refl 0 m

theorem readTarget (word : String) : Takes 0 (Action.readTarget word : Action ν Nat) := by
  refine bind nextToken fun operand => ?_
  cases operand with
  | none => exact fail _
  | some operand =>
    dsimp only
    split
    · exact fail _
    · exact bind get fun _ => ite (pure _) (fail _)

theorem popInt : Takes 1 (Action.popInt : Action ν Int64) := by
  refine bind pop fun value => ?_
  cases value with
  | int n => exact pure n
  | _ => exact fail _

theorem popBool : Takes 1 (Action.popBool : Action ν Bool) := by
  refine bind pop fun value => ?_
  cases value with
  | bool b => exact pure b
  | _ => exact fail _

theorem popOperands (word : String) :
    Takes 2 (Action.popOperands word : Action ν (Value × Value)) :=
  bind pop fun _ => bind pop fun _ => ite (pure _) (fail _)

end Takes

namespace Sure

theorem not_error {action : Action ν α} (h : Sure action) (m : Machine ν) {fault : Fault}
    {m' : Machine ν} : action m ≠ .error fault m' := by
  obtain ⟨x, next, acted⟩ := h m
  rw [acted]
  rintro ⟨⟩

theorem pure (x : α) : Sure (Pure.pure x : Action ν α) := fun m => ⟨x, m, rfl⟩

theorem get : Sure (MonadState.get : Action ν (Machine ν)) := fun m => ⟨m, m, rfl⟩

theorem set (m : Machine ν) : Sure (MonadStateOf.set m : Action ν PUnit) := fun _ => ⟨_, m, rfl⟩

theorem push (value : Value) : Sure (Action.push value : Action ν Unit) := fun _ => ⟨(), _, rfl⟩

theorem write (text : String) : Sure (Action.write text : Action ν Unit) := fun _ => ⟨(), _, rfl⟩

theorem setMode (mode : Mode) : Sure (Action.setMode mode : Action ν Unit) := fun _ => ⟨(), _, rfl⟩

theorem bind {head : Action ν α} {tail : α → Action ν β} (before : Sure head)
    (after : ∀ x, Sure (tail x)) : Sure (head >>= tail) := by
  intro m
  obtain ⟨x, between, acted⟩ := before m
  rw [bind_of_ok acted]
  exact after x between

theorem ite {condition : Prop} [Decidable condition] {one other : Action ν α} (yes : Sure one)
    (no : Sure other) : Sure (if condition then one else other) := by
  split
  · exact yes
  · exact no

end Sure

namespace Guarded

variable {budget : Nat}

theorem sure {action : Action ν α} (h : Sure action) : Guarded budget action :=
  fun m _ _ failed => absurd failed (h.not_error m)

/-- What comes before the first effect may only take and read. -/
theorem after {more : Nat} {head : Action ν α} {tail : α → Action ν β} (before : Takes more head)
    (rest : ∀ x, Guarded budget (tail x)) : Guarded (budget + more) (head >>= tail) := by
  intro m fault m' failed
  have taken := before m
  cases acted : head m with
  | ok x between =>
    rw [acted] at taken
    rw [bind_of_ok acted] at failed
    exact taken.trans (rest x between fault m' failed)
  | error other between =>
    rw [acted] at taken
    rw [bind_of_error acted] at failed
    cases failed
    exact taken.trans (.refl budget _)

/-- Behind the first effect nothing may fail. -/
theorem before {head : Action ν α} {tail : α → Action ν β} (guarded : Guarded budget head)
    (rest : ∀ x, Sure (tail x)) : Guarded budget (head >>= tail) := by
  intro m fault m' failed
  cases acted : head m with
  | ok x between =>
    rw [bind_of_ok acted] at failed
    exact absurd failed ((rest x).not_error between)
  | error other between =>
    rw [bind_of_error acted] at failed
    cases failed
    exact guarded m fault m' acted

theorem ite {condition : Prop} [Decidable condition] {one other : Action ν α}
    (yes : Guarded budget one) (no : Guarded budget other) :
    Guarded budget (if condition then one else other) := by
  split
  · exact yes
  · exact no

theorem of_unchanged {action : Action ν α}
    (h : ∀ m fault m', action m = .error fault m' → m' = m) : Guarded budget action := by
  intro m fault m' failed
  rw [h m fault m' failed]
  exact .refl budget m

theorem fail (cause : Cause) : Guarded budget (Action.fail cause : Action ν α) :=
  of_unchanged (by rintro m fault m' ⟨⟩; rfl)

theorem push (value : Value) : Guarded budget (Action.push value : Action ν Unit) := sure (.push value)

theorem jump (index : Nat) : Guarded budget (Action.jump index : Action ν Unit) := by
  refine of_unchanged fun m fault m' failed => ?_
  rw [Action.jump] at failed
  split at failed <;> cases failed
  rfl

theorem beginDefinition (name : String) (immediate : Bool) :
    Guarded budget (Action.beginDefinition name immediate : Action ν Unit) := by
  refine of_unchanged fun m fault m' failed => ?_
  rw [Action.beginDefinition] at failed
  split at failed <;> cases failed
  rfl

theorem endDefinition : Guarded budget (Action.endDefinition : Action ν Unit) := by
  refine of_unchanged fun m fault m' failed => ?_
  rw [Action.endDefinition] at failed
  split at failed <;> cases failed
  rfl

theorem edit (change : List String → List String) :
    Guarded budget (Action.editDefinition change : Action ν Unit) := by
  refine of_unchanged fun m fault m' failed => ?_
  rcases editDefinition_cases change m with ⟨name, dictionary, -, -, done⟩ | ⟨other, unchanged⟩
  · rw [done] at failed
    cases failed
  · rw [unchanged] at failed
    cases failed
    rfl

theorem patch (index : Nat) (token : String) :
    Guarded budget (Action.patch index token : Action ν Unit) := by
  refine of_unchanged fun m fault m' failed => ?_
  by_cases slot : ∃ name body, m.openWord = some name ∧ m.dictionary.body? name = some body ∧
      index < body.length
  · obtain ⟨name, body, opened, found, inside⟩ := slot
    obtain ⟨dictionary, -, done⟩ := patch_of_slot opened found inside token
    rw [done] at failed
    cases failed
  · obtain ⟨other, unchanged⟩ := patch_of_no_slot slot token
    rw [unchanged] at failed
    cases failed
    rfl

theorem pop {tail : Value → Action ν α} (rest : ∀ value, Guarded budget (tail value)) :
    Guarded (budget + 1) (Action.pop >>= tail) :=
  after .pop rest

theorem popInt {tail : Int64 → Action ν α} (rest : ∀ n, Guarded budget (tail n)) :
    Guarded (budget + 1) (Action.popInt >>= tail) :=
  after .popInt rest

theorem popOperands (word : String) {tail : Value × Value → Action ν α}
    (rest : ∀ operands, Guarded budget (tail operands)) :
    Guarded (budget + 2) (Action.popOperands word >>= tail) :=
  after (.popOperands word) rest

theorem read {head : Action ν α} {tail : α → Action ν β} (before : Takes 0 head)
    (rest : ∀ x, Guarded budget (tail x)) : Guarded budget (head >>= tail) :=
  after before rest

theorem pushInt (word : String) (sum : Option Int64) :
    Guarded budget (Action.pushInt word sum : Action ν Unit) := by
  cases sum with
  | none => exact fail _
  | some n => exact push _

theorem pushFloat (word : String) (sum : Binary64) :
    Guarded budget (Action.pushFloat word sum : Action ν Unit) :=
  ite (push _) (fail _)

theorem add : Guarded 2 (Action.add : Action ν Unit) := by
  refine popOperands "+" fun operands => ?_
  split
  · exact pushInt _ _
  · exact pushFloat _ _
  · exact push _
  · exact fail _

theorem multiply : Guarded 2 (Action.multiply : Action ν Unit) := by
  refine popOperands "*" fun operands => ?_
  split
  · exact pushInt _ _
  · exact pushFloat _ _
  · exact fail _

theorem divide : Guarded 2 (Action.divide : Action ν Unit) := by
  refine popOperands "/" fun operands => ?_
  split
  · exact pushInt _ _
  · exact pushFloat _ _
  · exact fail _

theorem askEqual : Guarded 2 (Action.askEqual : Action ν Unit) := by
  refine pop fun b => pop fun a => ?_
  split
  · exact push _
  · exact fail _

theorem random : Guarded 2 (Action.random : Action ν Unit) := by
  refine popInt fun high => popInt fun low => ite (sure (.bind .get fun m => ?_)) (ite (push _) (fail _))
  exact .bind (.set _) fun _ => .push _

theorem beginWord : Guarded 0 (Action.beginWord : Action ν Unit) := by
  refine read .nextToken fun name => ?_
  cases name with
  | none => exact fail _
  | some name =>
    exact read .get fun _ =>
      ite (read .nextToken fun _ => beginDefinition name true) (beginDefinition name false)

theorem storeValue : Guarded 2 (Action.storeValue : Action ν Unit) := by
  refine pop fun value => pop fun index => ?_
  cases index with
  | int n => exact ite (fail _) (patch _ _)
  | _ => exact fail _

theorem copyBlock : Guarded 0 (Action.copyBlock : Action ν Unit) :=
  read (.readUntil _ _) fun _ => read .get fun _ =>
    ite (edit _) (ite (fail _) (before (edit _) fun _ => .ite (.setMode _) (.pure _)))

theorem branchUnless : Guarded 1 (Action.branchUnless : Action ν Unit) := by
  refine after .popBool fun condition => read (.readTarget _) fun target => ?_
  cases condition with
  | true => exact sure (.pure _)
  | false => exact jump _

/-- A native word that fails has taken no more than its operands. -/
theorem primitive (word : Primitive) : Guarded word.arity (word.run : Action ν Unit) :=
  match word with
  | .dup => pop fun _ => sure (.bind (.push _) fun _ => .push _)
  | .drop => pop fun _ => sure (.pure _)
  | .swap => pop fun _ => pop fun _ => sure (.bind (.push _) fun _ => .push _)
  | .copyOver =>
    pop fun _ => pop fun _ => sure (.bind (.push _) fun _ => .bind (.push _) fun _ => .push _)
  | .rot =>
    pop fun _ => pop fun _ => pop fun _ =>
      sure (.bind (.push _) fun _ => .bind (.push _) fun _ => .push _)
  | .pick => popInt fun _ => ite (fail _) (read (.pick _) fun _ => push _)
  | .isEmpty => read .get fun _ => push _
  | .plus => add
  | .times => multiply
  | .slash => divide
  | .equals => askEqual
  | .rand => random
  | .colon => beginWord
  | .semicolon => endDefinition
  | .here => read .here fun _ => push _
  | .store => storeValue
  | .comma => pop fun _ => read .here fun _ => edit _
  | .openBracket => copyBlock
  | .closeBracket => read .get fun _ => ite (sure (.setMode _)) (sure (.pure _))
  | .branch => read (.readTarget _) fun _ => jump _
  | .branchUnless => branchUnless
  | .openParen => read (.readUntil _ _) fun _ => sure (.pure _)
  | .assert => pop fun _ => ite (sure (.pure _)) (read .get fun _ => fail _)
  | .dot => pop fun _ => sure (.write _)
  | .survey => read .get fun _ => sure (.write _)
  | .quote => pop fun _ => push _

end Guarded

def compileEach : List String → Action ν Unit
  | [] => pure ()
  | token :: tokens => do
    compile [token]
    compileEach tokens

def compileValueEach : Action ν Unit := do
  let value ← pop
  let _ ← here
  compileEach (Text.tokens value.canonical)

def copyBlockEach : Action ν Unit := do
  let block ← readUntil "]" .blockOpen
  let m ← get
  if m.mode = .compile then compileEach ("[" :: (block ++ ["]"]))
  else if m.openWord.isNone then fail .blockWithoutDefinition
  else
    compileEach block
    if m.frames.isEmpty then setMode .compile

end Action

def Primitive.runEach {ν : Type} : Primitive → Action ν Unit
  | .comma => Action.compileValueEach
  | .openBracket => Action.copyBlockEach
  | word => word.run

namespace Machine

variable {m : StandardMachine}

theorem compileEach_of_defined {name : String} (opened : m.openWord = some name)
    (dictionary : Dictionary Primitive) (immediate : Bool) (body tokens : List String) :
    Action.compileEach tokens
        { m with dictionary := dictionary.define name (.compiled immediate body) } =
      .ok () { m with dictionary := dictionary.define name (.compiled immediate (body ++ tokens)) } := by
  induction tokens generalizing body with
  | nil =>
    rw [List.append_nil]
    rfl
  | cons token tokens ih =>
    have appended : Action.compile [token]
        { m with dictionary := dictionary.define name (.compiled immediate body) } =
        .ok () { m with
          dictionary := dictionary.define name (.compiled immediate (body ++ [token])) } := by
      simp only [Action.compile, Action.editDefinition, opened, Dictionary.editBody?_define_compiled]
    rw [Action.compileEach, Action.bind_of_ok appended, ih, List.append_assoc, List.singleton_append]

namespace Coherent

variable {host : Host Primitive}

/-- Tokens can be written one by one, unless there are none and no definition is open. -/
theorem compileEach_eq (h : m.Coherent host) {tokens : List String}
    (some : m.openWord.isSome = true ∨ tokens ≠ []) :
    Action.compileEach tokens m = Action.compile tokens m := by
  cases opened : m.openWord with
  | none =>
    rw [opened] at some
    cases tokens with
    | nil => simp at some
    | cons token tokens =>
      have closed (tokens : List String) : Action.compile tokens m = Action.fail .noDefinition m := by
        simp only [Action.compile, Action.editDefinition, opened]
      rw [closed, Action.compileEach, Action.bind_of_error (closed [token])]
      rfl
  | some name =>
    obtain ⟨body, found⟩ := h.exists_body? opened
    obtain ⟨word, there, compiled⟩ := Option.bind_eq_some_iff.mp found
    obtain ⟨immediate, tokens', rfl⟩ := h.dictionary.word there
    have same : m = { m with
        dictionary := m.dictionary.define name (.compiled immediate tokens') } := by
      rw [Dictionary.define, Lexicon.insert_of_find? there]
    rw [same, compileEach_of_defined opened]
    simp only [Action.compile, Action.editDefinition, opened, Dictionary.editBody?_define_compiled]

theorem compileValueEach_eq (h : m.Coherent host) :
    Action.compileValueEach m = Action.compileValue m := by
  rw [Action.compileValueEach, Action.compileValue]
  cases stack : m.stack with
  | nil => rw [Action.bind_of_error (Action.pop_of_nil stack), Action.bind_of_error (Action.pop_of_nil stack)]
  | cons value rest =>
    rw [Action.bind_of_ok (Action.pop_of_cons stack), Action.bind_of_ok (Action.pop_of_cons stack)]
    cases size : Action.here { m with stack := rest } with
    | error fault failed => rw [Action.bind_of_error size, Action.bind_of_error size]
    | ok count seen =>
      rw [Action.bind_of_ok size, Action.bind_of_ok size]
      rw [Action.here] at size
      split at size
      · cases size
      · rename_i name opened
        split at size <;> cases size
        have popped : ({ m with stack := rest } : StandardMachine).Coherent host := { h with }
        exact popped.compileEach_eq (.inl (by rw [opened]; rfl))

theorem copyBlockEach_eq (h : m.Coherent host) : Action.copyBlockEach m = Action.copyBlock m := by
  rw [Action.copyBlockEach, Action.copyBlock]
  rcases Action.readUntil_cases "]" .blockOpen m with ⟨block, rest, next, -, read⟩ | ⟨-, missing⟩
  · rw [Action.bind_of_ok read, Action.bind_of_ok read]
    have length := congrArg List.length next
    rw [List.length_drop, List.length_append, List.length_cons] at length
    have inside : m.cursor + block.length + 1 ≤ m.input.length := by omega
    have moved := h.moveTo inside
    generalize m.moveTo (m.cursor + block.length + 1) = seen at moved
    have got : (get : Action Primitive StandardMachine) seen = .ok seen seen := rfl
    rw [Action.bind_of_ok got, Action.bind_of_ok got]
    by_cases compiling : seen.mode = .compile
    · rw [if_pos compiling, if_pos compiling]
      exact moved.compileEach_eq (.inr (List.cons_ne_nil _ _))
    · rw [if_neg compiling, if_neg compiling]
      by_cases closed : seen.openWord.isNone = true
      · rw [if_pos closed, if_pos closed]
      · rw [if_neg closed, if_neg closed]
        have opened : seen.openWord.isSome = true := by
          rw [Option.isNone_iff_eq_none] at closed
          exact Option.isSome_iff_ne_none.mpr closed
        show EStateM.bind _ _ seen = EStateM.bind _ _ seen
        rw [EStateM.bind, EStateM.bind, moved.compileEach_eq (.inl opened)]
  · rw [Action.bind_of_error missing, Action.bind_of_error missing]

/-- It makes no difference to a native word whether tokens are written at once or one by one. -/
theorem runEach_eq (h : m.Coherent host) (word : Primitive) : word.runEach m = word.run m := by
  cases word with
  | comma => exact h.compileValueEach_eq
  | openBracket => exact h.copyBlockEach_eq
  | _ => rfl

end Coherent

/-- A native word that fails is contained, whatever the mode and the callers are: at most its inputs are
gone from the top of the stack, the cursor may be further on in the input, and all else is as it was. It
makes no difference whether tokens are written at once or one by one. -/
theorem native_failure_contained {host : Host Primitive} (coherent : m.Coherent host)
    (word : Primitive) :
    Primitive.handler word m = some (word.runEach m) ∧
      ∀ fault m', Primitive.handler word m = some (.error fault m') →
        Contained word.inputs.length m m' ∧ m'.depthBound = m.depthBound ∧
          m'.cursor ≤ m'.input.length := by
  refine ⟨congrArg some (coherent.runEach_eq word).symm, fun fault m' failed => ?_⟩
  have contained := Action.Guarded.primitive word m fault m' (Option.some.inj failed)
  refine ⟨?_, ?_, ?_⟩
  · rw [word.length_inputs]
    exact contained
  · rw [depthBound, depthBound, contained.depth, contained.room]
  · rw [contained.input]
    exact contained.inside coherent.inside

def disturbed : StandardMachine :=
  { start narrow with
    dictionary := ⟨Primitive.lexicon,
      ⟨[("NEST", .compiled true [":", "X", "IMMEDIATE"]), ("A", .compiled false [])]⟩⟩
    stack := [.int 7, .int 0, .bool true]
    input := [":", "X", "IMMEDIATE"]
    cursor := 1
    openWord := some "A"
    output := "so far"
    frames := [⟨"NEST", 1, [":", "A", "NEST"], 3, .compile⟩]
    room := 1 }

theorem coherent_disturbed : disturbed.Coherent narrow where
  inside := by decide
  saved := by decide
  bound := rfl
  natives := rfl
  dictionary := ⟨by
    intro entry mem
    simp only [disturbed, List.mem_cons, List.not_mem_nil, or_false] at mem
    rcases mem with rfl | rfl
    · exact ⟨_, _, rfl⟩
    · exact ⟨_, _, rfl⟩, by decide⟩
  known := by
    rintro _ ⟨⟩
    decide

/-- Another definition cannot be opened: its name and its mark have been read. A slot that is not there
cannot be overwritten: its index and the value are gone. -/
theorem native_failure_contained_disturbed :
    (∃ fault m', Primitive.handler .colon disturbed = some (.error fault m') ∧
      Contained 0 disturbed m' ∧ m'.cursor = 3) ∧
    ∃ fault m', Primitive.handler .store disturbed = some (.error fault m') ∧
      Contained 2 disturbed m' ∧ m'.stack = [.bool true] :=
  ⟨⟨_, _, rfl, ((native_failure_contained coherent_disturbed .colon).2 _ _ rfl).1, rfl⟩,
    ⟨_, _, rfl, ((native_failure_contained coherent_disturbed .store).2 _ _ rfl).1, rfl⟩⟩

end Machine
end ResumableForth
