import ResumableForth.Machine.Basic

/-! The operations that words are made of: on the data stack, on the input, and on the definition
under construction. An action that fails keeps what it has done so far, as a program may go on from
there. -/
namespace ResumableForth

abbrev Outcome (ν α : Type) := EStateM.Result Fault (Machine ν) α

abbrev Action (ν α : Type) := EStateM Fault (Machine ν) α

namespace Action

variable {ν α : Type}

/-- Fails for a cause, with the words that are running. -/
def fail (cause : Cause) : Action ν α := fun m => .error ⟨cause, m.calls⟩ m

def push (value : Value) : Action ν Unit := fun m => .ok () (m.push value)

def pop : Action ν Value := fun m =>
  match m.stack with
  | [] => fail .emptyStack m
  | value :: stack => .ok value { m with stack := stack }

def peek : Action ν Value := fun m =>
  match m.stack with
  | [] => fail .emptyStack m
  | value :: _ => .ok value m

def popInt : Action ν Int64 := do
  match ← pop with
  | .int n => return n
  | other => fail (.expectedInt other)

def popBool : Action ν Bool := do
  match ← pop with
  | .bool b => return b
  | other => fail (.expectedBool other)

/-- Copies the value that lies `index` places below the top. -/
def pick (index : Nat) : Action ν Value := fun m =>
  match m.stack[index]? with
  | some value => .ok value m
  | none => fail (.pickBeyond index m.stack.length) m

def nextToken : Action ν (Option String) := fun m =>
  match m.token? with
  | some token => .ok (some token) (m.moveTo (m.cursor + 1))
  | none => .ok none m

/-- Moves the cursor to a place in the input or just behind it. -/
def jump (index : Nat) : Action ν Unit := fun m =>
  if index ≤ m.input.length then .ok () (m.moveTo index)
  else fail (.cursorOutside index m.input.length) m

def setMode (mode : Mode) : Action ν Unit := fun m => .ok () { m with mode := mode }

/-- The input up to the next occurrence of `closer`, which is read past. -/
def readUntil (closer : String) (missing : Cause) : Action ν (List String) := do
  let m ← get
  let block := (m.input.drop m.cursor).takeWhile (· != closer)
  let stop := m.cursor + block.length
  if m.input[stop]?.isSome then
    jump (stop + 1)
    return block
  else fail missing

def beginDefinition (name : String) (immediate : Bool) : Action ν Unit := fun m =>
  match m.openWord with
  | some current => fail (.definitionOpen name current) m
  | none =>
    .ok () { m.record fun _ => .definitionBegun name immediate with
      dictionary := m.dictionary.define name (.compiled immediate [])
      openWord := some name
      mode := .compile }

def endDefinition : Action ν Unit := fun m =>
  match m.openWord with
  | none => fail .noDefinition m
  | some name =>
    let noted := match m.dictionary.body? name with
      | some body => m.record fun _ => .definitionEnded name body
      | none => m
    .ok () { noted with openWord := none, mode := .execute }

/-- The number of tokens in the open definition. -/
def here : Action ν Nat := fun m =>
  match m.openWord with
  | none => fail .noDefinition m
  | some name =>
    match m.dictionary.body? name with
    | some body => .ok body.length m
    | none => fail (.definitionLost name) m

/-- Edits the token list of the open definition. -/
def editDefinition (edit : List String → List String) : Action ν Unit := fun m =>
  match m.openWord with
  | none => fail .noDefinition m
  | some name =>
    match m.dictionary.editBody? name edit with
    | some dictionary => .ok () { m with dictionary := dictionary }
    | none => fail (.definitionLost name) m

def compile (tokens : List String) : Action ν Unit := editDefinition (· ++ tokens)

def patch (index : Nat) (token : String) : Action ν Unit := do
  let size ← here
  if index < size then
    modify (·.record fun _ => .slotPatched index token)
    editDefinition (·.set index token)
  else fail (.slotOutside index size)

def write (text : String) : Action ν Unit := fun m => .ok () { m with output := m.output ++ text }

end Action
end ResumableForth
