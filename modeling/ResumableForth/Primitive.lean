import ResumableForth.Evaluator

/-! The native words of the language: what each one does, and the lexicon that names and describes
them. A word takes its operands off the stack one at a time, so a stack that is too short has lost the
operands that were there. Integers are of 64 bits and never wrap: a result out of range is a fault.
Floating point results have to be finite and are rounded to four decimals. A branch is followed by its
target, an index into the token list that is being read. Between a colon and a semicolon a definition is
open; words add tokens to it, overwrite one of them, or suspend and resume the copying of tokens into
it. -/
namespace ResumableForth
namespace Action

variable {ν : Type}

def duplicate : Action ν Unit := do
  let value ← pop
  push value
  push value

def discard : Action ν Unit := do
  let _ ← pop

def exchange : Action ν Unit := do
  let b ← pop
  let a ← pop
  push b
  push a

def copySecond : Action ν Unit := do
  let b ← pop
  let a ← pop
  push a
  push b
  push a

def rotate : Action ν Unit := do
  let c ← pop
  let b ← pop
  let a ← pop
  push b
  push c
  push a

/-- Copies the value at an index to the top: `... n -- ... value`, where zero names the value that was
under the index. -/
def copyNth : Action ν Unit := do
  let index ← popInt
  if index < 0 then fail (.pickNegative index)
  else
    let value ← pick index.toInt.toNat
    push value

def askEmpty : Action ν Unit := do
  let m ← get
  push (.bool m.stack.isEmpty)

/-- Takes two operands of the same tag, the second one first. -/
def popOperands (word : String) : Action ν (Value × Value) := do
  let b ← pop
  let a ← pop
  if a.tag = b.tag then return (a, b)
  else fail (.operandsDiffer word a.tag b.tag)

/-- An integer result, which has to be in range. -/
def pushInt (word : String) (result : Option Int64) : Action ν Unit :=
  match result with
  | some n => push (.int n)
  | none => fail (.overflow word)

def pushFloat (word : String) (result : Binary64) : Action ν Unit :=
  if result.isFinite then push (.ofFloat result) else fail (.notFinite word)

/-- Division towards zero; there is no quotient by zero. -/
def quotient? (a b : Int64) : Option Int64 :=
  if b.toInt = 0 then none else Decimal.int64? (a.toInt.tdiv b.toInt)

/-- Adds numbers and joins strings: `a b -- result`. -/
def add : Action ν Unit := do
  match ← popOperands "+" with
  | (.int a, .int b) => pushInt "+" (Decimal.int64? (a.toInt + b.toInt))
  | (.float a, .float b) => pushFloat "+" (a.add b)
  | (.str a, .str b) => push (.str (a ++ b))
  | (a, _) => fail (.notApplicable "+" a.tag)

def multiply : Action ν Unit := do
  match ← popOperands "*" with
  | (.int a, .int b) => pushInt "*" (Decimal.int64? (a.toInt * b.toInt))
  | (.float a, .float b) => pushFloat "*" (a.mul b)
  | (a, _) => fail (.notApplicable "*" a.tag)

/-- Divides numbers, integers towards zero: `a b -- result`. -/
def divide : Action ν Unit := do
  match ← popOperands "/" with
  | (.int a, .int b) => pushInt "/" (quotient? a b)
  | (.float a, .float b) => pushFloat "/" (a.div b)
  | (a, _) => fail (.notApplicable "/" a.tag)

def askEqual : Action ν Unit := do
  let b ← pop
  let a ← pop
  match a.looselyEqual? b with
  | some equal => push (.bool equal)
  | none => fail (.incomparable a.tag b.tag)

/-- Draws a number from `min` up to, but not including, `max`: `min max -- n`. Equal bounds give that
number. -/
def random : Action ν Unit := do
  let high ← popInt
  let low ← popInt
  if low < high then
    let m ← get
    let (offset, generator) := m.generator.draw (high.toInt - low.toInt).toNat
    set { m with generator := generator }
    push (.int (Int64.ofInt (low.toInt + offset)))
  else if low = high then push (.int low)
  else fail (.emptyRange low high)

/-- Reads the target of a branch: a place in the input or just behind it. -/
def readTarget (word : String) : Action ν Nat := do
  match ← nextToken with
  | none => fail (.targetMissing word)
  | some operand =>
    match (Decimal.readInt64? operand).filter (0 ≤ ·) with
    | none => fail (.targetInvalid word operand)
    | some n =>
      let target := n.toInt.toNat
      let m ← get
      if target ≤ m.input.length then return target
      else fail (.targetOutside word target m.input.length)

def branch : Action ν Unit := do
  let target ← readTarget "BRANCH"
  jump target

/-- Goes on at the target when the condition is false, and behind it otherwise: `bool -- `. -/
def branchUnless : Action ν Unit := do
  let condition ← popBool
  let target ← readTarget "BRANCH?"
  unless condition do jump target

def comment : Action ν Unit := do
  let _ ← readUntil ")" .commentOpen

def demand : Action ν Unit := do
  let value ← pop
  if value = .bool true then return ()
  else
    let m ← get
    fail (.assertion value m.input)

/-- Behind the name of a new word, this token makes the word immediate. -/
def immediateMark : String := "IMMEDIATE"

def beginWord : Action ν Unit := do
  match ← nextToken with
  | none => fail .nameMissing
  | some name =>
    let m ← get
    if m.token? = some immediateMark then
      let _ ← nextToken
      beginDefinition name true
    else beginDefinition name false

def pushHere : Action ν Unit := do
  let index ← here
  push (.ofCount index)

/-- Overwrites a slot with the text of the value: `index value -- `. -/
def storeValue : Action ν Unit := do
  let value ← pop
  match ← pop with
  | .int index =>
    if index < 0 then fail (.slotNegative index)
    else patch index.toInt.toNat value.canonical
  | other => fail (.slotNotInt other)

/-- Appends the tokens of the value's text: `value -- `. -/
def compileValue : Action ν Unit := do
  let value ← pop
  let _ ← here
  compile (Text.tokens value.canonical)

/-- Copies the tokens up to the next closing bracket into the open definition. While compiling, the
brackets go along, so that the copying happens when the new word runs. At the top level a suspended
definition is resumed. -/
def copyBlock : Action ν Unit := do
  let block ← readUntil "]" .blockOpen
  let m ← get
  if m.mode = .compile then compile ("[" :: (block ++ ["]"]))
  else if m.openWord.isNone then fail .blockWithoutDefinition
  else
    compile block
    if m.frames.isEmpty then setMode .compile

/-- Runs the following tokens instead of compiling them; the definition stays open. -/
def suspend : Action ν Unit := do
  let m ← get
  if m.mode = .compile then setMode .execute

def print : Action ν Unit := do
  let value ← pop
  write (value.canonical ++ "\n")

def surveyed (value : Value) : String := "(" ++ value.tag.name ++ "," ++ value.canonical ++ ")"

def survey : Action ν Unit := do
  let m ← get
  write (Text.spaced (m.stack.reverse.map surveyed) ++ "\n")

def unscored (text : String) : String :=
  String.ofList (text.toList.map fun c => if c = '_' then ' ' else c)

def makeString : Action ν Unit := do
  let value ← pop
  push (.str (unscored value.canonical))

end Action

inductive Primitive
  | dup | drop | swap | copyOver | rot | pick | isEmpty
  | plus | times | slash | equals | rand
  | colon | semicolon | here | store | comma | openBracket | closeBracket
  | branch | branchUnless | openParen | assert
  | dot | survey | quote
  deriving DecidableEq

namespace Primitive

variable {ν : Type}

def run : Primitive → Action ν Unit
  | .dup => Action.duplicate
  | .drop => Action.discard
  | .swap => Action.exchange
  | .copyOver => Action.copySecond
  | .rot => Action.rotate
  | .pick => Action.copyNth
  | .isEmpty => Action.askEmpty
  | .plus => Action.add
  | .times => Action.multiply
  | .slash => Action.divide
  | .equals => Action.askEqual
  | .rand => Action.random
  | .colon => Action.beginWord
  | .semicolon => Action.endDefinition
  | .here => Action.pushHere
  | .store => Action.storeValue
  | .comma => Action.compileValue
  | .openBracket => Action.copyBlock
  | .closeBracket => Action.suspend
  | .branch => Action.branch
  | .branchUnless => Action.branchUnless
  | .openParen => Action.comment
  | .assert => Action.demand
  | .dot => Action.print
  | .survey => Action.survey
  | .quote => Action.makeString

/-- The name, description and stack signature of a native word. -/
def entry : Primitive → String × String × String
  | .dup => ("DUP", "Duplicate the top value on the data stack.", "value -- value value")
  | .drop => ("DROP", "Discard the top value on the data stack.", "value -- ")
  | .swap => ("SWAP", "Swap the top 2 values on the data stack.", "a b -- b a")
  | .copyOver => ("OVER", "Copy the second value to the top of the stack.", "a b -- a b a")
  | .rot => ("ROT", "Rotate the third value to the top of the stack.", "a b c -- b c a")
  | .pick => ("PICK", "Copy the nth value from the top, 0 being the top.", "... n -- ... value")
  | .isEmpty => ("EMPTY?", "Is the data stack empty?", " -- bool")
  | .plus => ("+", "Add two numbers or join two strings.", "a b -- result")
  | .times => ("*", "Multiply two numbers.", "a b -- result")
  | .slash => ("/", "Divide two numbers.", "a b -- result")
  | .equals => ("=", "Are the two values equal?", "a b -- bool")
  | .rand =>
    ("RAND", "A random integer from min up to, but not including, max.", "min max -- n")
  | .colon => (":", "Start a new word definition, : NAME [IMMEDIATE] ... ;", " -- ")
  | .semicolon => (";", "End the current word definition.", " -- ")
  | .here => ("HERE", "The index of the next slot of the open definition.", " -- index")
  | .store => ("!", "Overwrite a slot of the open definition.", "index value -- ")
  | .comma => (",", "Append a value to the open definition.", "value -- ")
  | .openBracket => ("[", "Copy the tokens up to ] into the open definition.", " -- ")
  | .closeBracket =>
    ("]", "Execute the following tokens while the definition stays open.", " -- ")
  | .branch => ("BRANCH", "Jump to the index that follows.", " -- ")
  | .branchUnless =>
    ("BRANCH?", "Jump to the index that follows if the condition is false.", "bool -- ")
  | .openParen => ("(", "Skip a comment up to the closing ).", " -- ")
  | .assert => ("ASSERT", "Fail unless the value is True.", "bool -- ")
  | .dot => (".", "Print the top value of the stack.", "value -- ")
  | .survey => ("SURVEY", "Print the whole stack with the type of each value.", " -- ")
  | .quote =>
    ("\"", "Convert a value to a string, underscores become spaces.", "value -- string")

def isImmediate : Primitive → Bool
  | .semicolon | .openBracket | .closeBracket => true
  | _ => false

def all : List Primitive :=
  [.dup, .drop, .swap, .copyOver, .rot, .pick, .isEmpty, .plus, .times, .slash, .equals, .rand, .colon,
    .semicolon, .here, .store, .comma, .openBracket, .closeBracket, .branch, .branchUnless,
    .openParen, .assert, .dot, .survey, .quote]

def named (embed : Primitive → ν) (primitive : Primitive) : String × Word ν :=
  (primitive.entry.1,
    .native primitive.isImmediate (embed primitive) primitive.entry.2.1 primitive.entry.2.2)

def lexicon : Lexicon Primitive := ⟨all.map (named id)⟩

theorem mem_all (primitive : Primitive) : primitive ∈ all := by cases primitive <;> decide

end Primitive

abbrev StandardMachine := Machine Primitive

/-- The standard words need no fuel of their own. -/
def Primitive.handler : Handler Primitive := fun primitive m => some (primitive.run m)

end ResumableForth
