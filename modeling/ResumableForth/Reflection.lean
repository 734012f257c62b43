import ResumableForth.Evaluator
import ResumableForth.Primitive

/-! Native words that reach into the evaluator: they run a word by its name, take a step, interpret a
text, or look at the running machine. They stand beside the standard words, and each of them is one
operation of the machine. -/
namespace ResumableForth

inductive Reflective
  | standard (primitive : Primitive)
  | invoke | step | source | recover | peek | calls | known | mode

namespace Reflective

def callLine (m : Machine Reflective) : String :=
  Decimal.numeral m.depth ++ " [" ++ ", ".intercalate (m.calls.reverse.map CallItem.text) ++ "]\n"

/-- Takes a value off the stack and goes on with its text. -/
def withText (m : Machine Reflective)
    (next : String → Machine Reflective → Option (Outcome Reflective Unit)) :
    Option (Outcome Reflective Unit) :=
  match Action.pop m with
  | .ok value m => next value.canonical m
  | .error fault m => some (.error fault m)

def copyTop : Action Reflective Unit := do
  let value ← Action.peek
  Action.push value

def writeCalls : Action Reflective Unit := do
  let m ← get
  Action.write (callLine m)

def writeMode : Action Reflective Unit := do
  let m ← get
  Action.write (m.mode.name ++ "\n")

def askKnown : Action Reflective Unit := do
  let value ← Action.pop
  let m ← get
  Action.push (.bool (m.dictionary.contains value.canonical))

/-- How these words run. A word that goes back into the evaluator has less fuel there. -/
def run : Nat → Handler Reflective
  | _, .standard primitive, m => some (primitive.run m)
  | _, .recover, m => some (.ok () m.recover)
  | _, .peek, m => some (copyTop m)
  | _, .calls, m => some (writeCalls m)
  | _, .known, m => some (askKnown m)
  | _, .mode, m => some (writeMode m)
  | 0, _, _ => none
  | fuel + 1, .invoke, m => withText m fun name m => m.invoke (run fuel) fuel name
  | fuel + 1, .step, m => m.step (run fuel) fuel
  | fuel + 1, .source, m => withText m fun text m => m.interpret (run fuel) fuel text

def lexicon : Lexicon Reflective :=
  ⟨Primitive.all.map (Primitive.named .standard) ++
    [("INVOKE", .native false .invoke "Invoke a word by name." "name -- "),
      ("STEP", .native false .step "Step once." " -- "),
      ("SOURCE", .native false .source "Process source." "text -- "),
      ("RECOVER", .native false .recover "Recover." " -- "),
      ("PEEK", .native false .peek "Copy the top." "a -- a a"),
      ("CALLS", .native false .calls "Print the call stack." " -- "),
      ("KNOWN?", .native false .known "Is the name known?" "name -- bool"),
      ("MODE", .native true .mode "Print the mode." " -- ")]⟩

end Reflective
end ResumableForth
