import ResumableForth.Machine.Action

/-! Evaluation of tokens. A compiled word does not run by recursion here: entering it makes its body
the input, and later tokens are read from there until the body is exhausted and the caller's input
comes back. Loops over tokens carry fuel, and `none` says that it did not suffice; how a native
operation runs is given by `run`, which may run out of fuel as well. -/
namespace ResumableForth

/-- How native operations run. -/
abbrev Handler (ν : Type) := ν → Machine ν → Option (Outcome ν Unit)

def textOfBytes (bytes : ByteArray) : Except ReadFailure String :=
  match String.fromUTF8? bytes with
  | some text => .ok text
  | none => .error .notText

def fileText (contents : Except ReadFailure ByteArray) : Except ReadFailure String :=
  contents.bind textOfBytes

namespace Machine

variable {ν : Type}

/-- Enters a compiled word, unless as many words are running as may. -/
def call (name : String) (tokens : List String) (m : Machine ν) : Outcome ν Unit :=
  if m.room = 0 then
    Action.fail (.nestedTooDeep name m.depthBound)
      (m.record fun m => .depthReached name m.depthBound)
  else .ok () (m.enter name tokens)

def perform (run : Handler ν) (name : String) (word : Word ν) (m : Machine ν) :
    Option (Outcome ν Unit) :=
  match word.body with
  | .native operation => run operation m
  | .compiled tokens => some (m.call name tokens)

def dispatch (run : Handler ν) (name : String) (m : Machine ν) : Option (Outcome ν Unit) :=
  match m.dictionary.find? name with
  | some word => m.perform run name word
  | none => some (Action.fail (.unknownWord name) m)

def execute (run : Handler ν) (token : String) (m : Machine ν) : Option (Outcome ν Unit) :=
  match m.dictionary.find? token with
  | some word => m.perform run token word
  | none => some (.ok () (m.push (Value.literal token)))

/-- Puts a token into the open definition, unless it names an immediate word: that is performed. -/
def compile (run : Handler ν) (token : String) (m : Machine ν) : Option (Outcome ν Unit) :=
  match m.dictionary.find? token with
  | some word =>
    if word.immediate then m.perform run token word else some (Action.compile [token] m)
  | none => some (Action.compile [token] m)

def obey (run : Handler ν) (token : String) (m : Machine ν) : Option (Outcome ν Unit) :=
  match m.mode with
  | .execute => m.execute run token
  | .compile => m.compile run token
  | .halt => some (Action.fail (.readWhileHalted token) m)

/-- What happens at the end of the input: the innermost word ends, or the machine halts. -/
def exhaust (m : Machine ν) : Machine ν :=
  if m.frames.isEmpty then { m with mode := .halt } else m.leave

/-- Reads one token and acts on it. -/
def tick (run : Handler ν) (m : Machine ν) : Option (Outcome ν Unit) :=
  match m.token? with
  | none => some (.ok () m.exhaust)
  | some token =>
    let reading := m.moveTo (m.cursor + 1)
    (reading.record fun m => .tokenRead token m.mode m.depth).obey run token

/-- Reads tokens until no more than `base` words are running. After a failure the others end at
once, so that the word at the base sees its own input again. -/
def drain (run : Handler ν) (base : Nat) : Nat → Machine ν → Option (Outcome ν Unit)
  | 0, m => if m.isAbove base then none else some (.ok () m)
  | fuel + 1, m =>
    if m.isAbove base then
      match m.tick run with
      | none => none
      | some (.ok _ next) => drain run base fuel next
      | some (.error fault next) => some (.error fault (next.unwind base))
    else some (.ok () m)

/-- Ends what an outcome has begun: when it succeeded, the words above `base` run to their end. -/
def settle (run : Handler ν) (fuel base : Nat) :
    Option (Outcome ν Unit) → Option (Outcome ν Unit)
  | some (.ok _ m) => m.drain run base fuel
  | other => other

/-- Evaluates one token, with all that it calls. -/
def step (run : Handler ν) (fuel : Nat) (m : Machine ν) : Option (Outcome ν Unit) :=
  settle run fuel m.depth (m.tick run)

def invoke (run : Handler ν) (fuel : Nat) (name : String) (m : Machine ν) :
    Option (Outcome ν Unit) :=
  settle run fuel m.depth (m.dispatch run name)

def runToHalt (run : Handler ν) : Nat → Machine ν → Option (Outcome ν Unit)
  | 0, m => if m.mode = .halt then some (.ok () m) else none
  | fuel + 1, m =>
    if m.mode = .halt then some (.ok () m)
    else
      match m.step run fuel with
      | some (.ok _ next) => runToHalt run fuel next
      | other => other

def loadText (source : String) (m : Machine ν) : Machine ν := m.load (Text.tokens source)

def interpret (run : Handler ν) (fuel : Nat) (source : String) (m : Machine ν) :
    Option (Outcome ν Unit) :=
  (m.loadText source).runToHalt run fuel

def interpretFile (run : Handler ν) (fuel : Nat) (path : String)
    (contents : Except ReadFailure ByteArray) (m : Machine ν) : Option (Outcome ν Unit) :=
  match fileText contents with
  | .ok source => m.interpret run fuel source
  | .error failure => some (.error { cause := .unreadableFile path failure } m)

end Machine
end ResumableForth
