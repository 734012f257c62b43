import ResumableForth.Dictionary
import ResumableForth.Fault

/-! The state of a running program. Everything that later evaluation depends on is here, so a
machine can be put aside between two tokens and taken up again. A call of a compiled word saves what
the caller was reading in a frame; the frames and the bound on their number, the generator and the
journal are the parts that a persisted state leaves out. The journal says what the machine did, event by
event, when someone asked for it; nothing that a program can observe depends on it. -/
namespace ResumableForth

/-- The state of the evaluator: words run and literals are pushed, or tokens go into the open
definition, or the input is exhausted. -/
inductive Mode
  | execute | compile | halt
  deriving DecidableEq

def Mode.name : Mode → String
  | .execute => "Execute"
  | .compile => "Compile"
  | .halt => "Halt"

def Mode.ofName? : String → Option Mode
  | "Execute" => some .execute
  | "Compile" => some .compile
  | "Halt" => some .halt
  | _ => none

@[simp] theorem Mode.ofName?_name (mode : Mode) : Mode.ofName? mode.name = some mode := by
  cases mode <;> rfl

inductive Event
  | tokenRead (token : String) (mode : Mode) (depth : Nat)
  | definitionBegun (word : String) (immediate : Bool)
  | definitionEnded (word : String) (body : List String)
  | slotPatched (index : Nat) (token : String)
  | wordEntered (word : String) (depth : Nat)
  | wordLeft (word : String) (depth : Nat)
  | depthReached (word : String) (bound : Nat)

def Event.line : Event → String
  | .tokenRead token mode depth =>
    "TRACE step token=" ++ token ++ " mode=" ++ mode.name ++ " depth=" ++ Decimal.numeral depth
  | .definitionBegun word immediate =>
    "DEBUG begin definition word=" ++ word ++ " immediate=" ++ (if immediate then "true" else "false")
  | .definitionEnded word body =>
    "DEBUG end definition word=" ++ word ++ " body=" ++ Text.spaced body
  | .slotPatched index token =>
    "DEBUG patch definition index=" ++ Decimal.numeral index ++ " token=" ++ token
  | .wordEntered word depth =>
    "DEBUG enter word word=" ++ word ++ " depth=" ++ Decimal.numeral depth
  | .wordLeft word depth =>
    "DEBUG leave word word=" ++ word ++ " depth=" ++ Decimal.numeral depth
  | .depthReached word bound =>
    "WARN call depth bound reached word=" ++ word ++ " bound=" ++ Decimal.numeral bound

/-- The events so far, latest first; a journal that is closed keeps none. -/
structure Journal where
  opened : Bool := false
  events : List Event := []

namespace Journal

/-- Notes an event, which is not even looked at when the journal is closed. -/
def record (journal : Journal) (event : Unit → Event) : Journal :=
  if journal.opened then { journal with events := event () :: journal.events } else journal

def lines (journal : Journal) : List String := journal.events.reverse.map Event.line

@[simp] theorem record_of_closed {journal : Journal} (h : journal.opened = false)
    (event : Unit → Event) :
    journal.record event = journal := by
  simp [record, h]

end Journal

/-- The numbers that chance gives, one behind the other, and how many of them are used up. -/
structure Generator where
  draws : Nat → UInt64 := fun _ => 0
  used : Nat := 0

def Generator.draw (generator : Generator) (span : Nat) : Nat × Generator :=
  ((generator.draws generator.used).toNat % span, { generator with used := generator.used + 1 })

/-- A running word, how far its body has been read, and what its caller was doing. -/
structure Frame where
  word : String
  reached : Nat
  input : List String
  cursor : Nat
  mode : Mode
  deriving DecidableEq

structure Machine (ν : Type) where
  dictionary : Dictionary ν
  /-- The data stack, top first. -/
  stack : List Value := []
  input : List String := []
  /-- The index of the next token to read. -/
  cursor : Nat := 0
  mode : Mode := .execute
  openWord : Option String := none
  output : String := ""
  /-- The running words, innermost first. -/
  frames : List Frame := []
  /-- How many more words may run inside the innermost one. -/
  room : Nat
  generator : Generator
  journal : Journal

/-- What a machine is given from outside and does not persist. -/
structure Host (ν : Type) where
  natives : Lexicon ν
  depthBound : Nat := 128
  generator : Generator := {}
  journal : Journal := {}

namespace Machine

variable {ν : Type}

/-- A machine with nothing on its stack and nothing to read. At least one word can run. -/
def start (host : Host ν) : Machine ν :=
  { dictionary := .ofNatives host.natives
    room := max host.depthBound 1
    generator := host.generator
    journal := host.journal }

def depth (m : Machine ν) : Nat := m.frames.length

/-- How many words may be running at once. -/
def depthBound (m : Machine ν) : Nat := m.depth + m.room

def calls (m : Machine ν) : List CallItem := m.frames.map fun frame => ⟨frame.word, frame.reached⟩

def record (event : Machine ν → Event) (m : Machine ν) : Machine ν :=
  { m with journal := m.journal.record fun _ => event m }

def push (value : Value) (m : Machine ν) : Machine ν := { m with stack := value :: m.stack }

/-- Notes in the innermost frame how far its word has been read. -/
def reach (index : Nat) : List Frame → List Frame
  | [] => []
  | frame :: frames => { frame with reached := index } :: frames

/-- Moves the cursor, in step with the innermost frame. -/
def moveTo (index : Nat) (m : Machine ν) : Machine ν :=
  { m with cursor := index, frames := reach index m.frames }

def token? (m : Machine ν) : Option String := m.input[m.cursor]?

/-- Replaces the input and rewinds the cursor. A definition that is still open is carried on. -/
def load (tokens : List String) (m : Machine ν) : Machine ν :=
  { m with
    input := tokens
    cursor := 0
    mode := if m.openWord.isSome then .compile else .execute }

def recover (m : Machine ν) : Machine ν :=
  { m with input := [], cursor := 0, mode := .halt, frames := [], room := m.depthBound }

/-- Makes the body of a word the input, with the caller's input saved in a frame. -/
def enter (name : String) (tokens : List String) (m : Machine ν) : Machine ν :=
  { m.record fun m => .wordEntered name (m.depth + 1) with
    input := tokens
    cursor := 0
    mode := .execute
    frames := ⟨name, 0, m.input, m.cursor, m.mode⟩ :: m.frames
    room := m.room - 1 }

/-- Ends the innermost word and puts its caller's input back. -/
def leave (m : Machine ν) : Machine ν :=
  match m.frames with
  | [] => m
  | frame :: frames =>
    { m.record fun _ => .wordLeft frame.word frames.length with
      input := frame.input
      cursor := frame.cursor
      mode := frame.mode
      frames := frames
      room := m.room + 1 }

def isAbove (base : Nat) (m : Machine ν) : Bool := !(m.frames.drop base).isEmpty

def unwind (base : Nat) (m : Machine ν) : Machine ν := Nat.repeat leave (m.depth - base) m

def takeOutput (m : Machine ν) : String × Machine ν := (m.output, { m with output := "" })

@[simp] theorem length_reach (index : Nat) (frames : List Frame) :
    (reach index frames).length = frames.length := by
  cases frames <;> rfl

@[simp] theorem depth_enter (name : String) (tokens : List String) (m : Machine ν) :
    (m.enter name tokens).depth = m.depth + 1 := rfl

@[simp] theorem depth_leave (m : Machine ν) : m.leave.depth = m.depth - 1 := by
  cases h : m.frames <;> simp [leave, depth, h]

@[simp] theorem length_calls (m : Machine ν) : m.calls.length = m.depth := by
  simp [calls, depth]

@[simp] theorem depthBound_leave (m : Machine ν) : m.leave.depthBound = m.depthBound := by
  cases h : m.frames <;> simp [leave, depthBound, depth, record, h]
  omega

@[simp] theorem depthBound_recover (m : Machine ν) : m.recover.depthBound = m.depthBound := by
  simp [recover, depthBound, depth]

theorem depthBound_enter (name : String) (tokens : List String) {m : Machine ν}
    (h : m.room ≠ 0) : (m.enter name tokens).depthBound = m.depthBound := by
  simp [enter, depthBound, depth]
  omega

theorem isAbove_iff (base : Nat) (m : Machine ν) : m.isAbove base = true ↔ base < m.depth := by
  simp [isAbove, depth]

end Machine
end ResumableForth
