import ResumableForth.CommandLine.Arguments
import ResumableForth.Config
import ResumableForth.Prelude
import ResumableForth.Primitive
import ResumableForth.Text.Cluster
import ResumableForth.Trace

/-! What the command line does, given the arguments, the environment, the files and the standard
input. Everything that is printed is a value here; nothing is printed. A line of an interactive input is
what stands before its end, with every backspace carried out: it takes back the cluster that was typed
before it. -/
namespace ResumableForth
namespace CommandLine

/-- A line as far as it has been typed. -/
structure Typed where
  chars : List Char := []
  /-- How many bytes each cluster takes, latest first, which is kept in one byte. -/
  sizes : List UInt8 := []

namespace Typed

def backspace : Char := '\x08'

/-- Drops characters from a line, latest first, as long as they fit into a number of bytes. -/
def dropBytes : Nat → List Char → List Char
  | _, [] => []
  | size, c :: rest => if c.utf8Size ≤ size then dropBytes (size - c.utf8Size) rest else c :: rest

def byteSize (text : List Char) : Nat := text.foldl (fun size c => size + c.utf8Size) 0

def type (typed : Typed) (cluster : List Char) : Typed :=
  if cluster = [backspace] then
    match typed.sizes with
    | [] => typed
    | size :: sizes => ⟨dropBytes size.toNat typed.chars, sizes⟩
  else ⟨cluster.reverse ++ typed.chars, UInt8.ofNat (byteSize cluster) :: typed.sizes⟩

end Typed

/-- A line as it was meant, after backspaces. -/
def typedLine (line : List Char) : String :=
  String.ofList ((Text.clusters line).foldl Typed.type {}).chars.reverse

def splitLine (bytes : List UInt8) : List UInt8 × List UInt8 :=
  let line := bytes.takeWhile (· ≠ 10)
  let rest := bytes.drop line.length
  (line ++ rest.take 1, rest.drop 1)

def lineText (bytes : List UInt8) : Except ReadFailure String :=
  (textOfBytes ⟨bytes.toArray⟩).map fun text =>
    match text.toList.reverse with
    | '\n' :: '\r' :: line => typedLine line.reverse
    | '\n' :: line => typedLine line.reverse
    | line => typedLine line.reverse

def isQuit (line : String) : Bool := Text.trim line = ":quit"

/-- What the program can see. -/
structure World where
  environment : String → Option String := fun _ => none
  programDirectory : Option String := none
  fileBytes : String → Except ReadFailure ByteArray := fun _ => .error .missing
  stdin : ByteArray := .empty
  generator : Generator := {}

/-- What the program prints, and how it ends. -/
structure Transcript where
  code : UInt32 := 0
  out : String := ""
  err : String := ""

namespace Transcript

def print (transcript : Transcript) (text : String) : Transcript :=
  { transcript with out := transcript.out ++ text }

def printError (transcript : Transcript) (text : String) : Transcript :=
  { transcript with err := transcript.err ++ text }

def failed (transcript : Transcript) (fault : Fault) : Transcript :=
  { transcript.printError ("Error: " ++ fault.report ++ "\n") with code := 1 }

end Transcript

def title : String := "stepforth 0.1.0"

def banner : String := title ++ ", type :quit or press Ctrl+D to exit.\n"

def usage : String := "<usage>"

def Stop.transcript : Stop → Transcript
  | .help => { out := usage ++ "\n" }
  | .version => { out := title ++ "\n" }
  | .badUsage => { code := 2, err := usage }

def config (world : World) (request : Request) : Config :=
  let config := Config.ofEnvironment world.environment world.programDirectory
  match request.depthBound with
  | some bound => config.withDepthBound bound
  | none => config

def host (world : World) (config : Config) : Host Primitive :=
  { natives := Primitive.lexicon, depthBound := config.depthBound, generator := world.generator }

/-- The file that the bootstrap library comes from: the one asked for, else one in the library's
directory, else none, and then the library is the one that is built in. -/
def preludeFile? (world : World) (config : Config) (request : Request) : Option String :=
  request.prelude.or <| config.preludePath.filter fun path => (world.fileBytes path).isOk

/-- Runs the bootstrap library, and forgets what it printed. -/
def loadPrelude (world : World) (config : Config) (request : Request) (fuel : Nat)
    (m : StandardMachine) : Option (Except Fault StandardMachine) :=
  let outcome := match preludeFile? world config request with
    | some path => m.interpretFile Primitive.handler fuel path (world.fileBytes path)
    | none => m.interpret Primitive.handler fuel prelude
  outcome.map fun
    | .ok _ m => .ok m.takeOutput.2
    | .error fault _ => .error fault

def begin (world : World) (config : Config) (request : Request) (fuel : Nat) :
    Option (Except Fault StandardMachine) :=
  let m := Machine.start (host world config)
  if request.skipPrelude then some (.ok m) else loadPrelude world config request fuel m

def withMachine (world : World) (config : Config) (request : Request) (fuel : Nat)
    (next : StandardMachine → Option Transcript) : Option Transcript :=
  match begin world config request fuel with
  | none => none
  | some (.error fault) => some (Transcript.failed {} fault)
  | some (.ok m) => next m

/-- Runs one line; what it printed comes first, then how it went. -/
def respond (fuel : Nat) (line : String) (m : StandardMachine) :
    Option (StandardMachine × Transcript) :=
  (m.interpret Primitive.handler fuel line).map fun outcome =>
    match outcome with
    | .ok _ m => let (text, m) := m.takeOutput; (m, { out := text ++ "ok\n" })
    | .error fault m =>
      let (text, m) := m.takeOutput
      (m.recover, { out := text, err := fault.report ++ "\n" })

/-- Answers lines until there are no more; `lines` bounds their number. -/
def converse (fuel : Nat) : Nat → List UInt8 → StandardMachine → Transcript → Option Transcript
  | 0, _, _, transcript => some transcript
  | lines + 1, bytes, m, transcript =>
    if bytes.isEmpty then some transcript
    else
      let (line, rest) := splitLine bytes
      match lineText line with
      | .error failure => some (transcript.failed { cause := .unreadableLine failure })
      | .ok line =>
        if isQuit line then some transcript
        else
          match respond fuel line m with
          | none => none
          | some (m, answer) =>
            converse fuel lines rest m ((transcript.print answer.out).printError answer.err)

def runScript (world : World) (fuel : Nat) (script : String) (m : StandardMachine) :
    Option Transcript :=
  (m.interpretFile Primitive.handler fuel script (world.fileBytes script)).map fun
    | .ok _ m => { out := m.output }
    | .error fault m => Transcript.failed { out := m.output } fault

def printState (m : StandardMachine) : Transcript :=
  match m.serialize with
  | .ok text => { out := text ++ "\n" }
  | .error fault => Transcript.failed {} fault

def stepState (world : World) (config : Config) (fuel : Nat) (line : Option String) :
    Option Transcript :=
  match textOfBytes world.stdin with
  | .error failure => some (Transcript.failed {} { cause := .unreadableStream failure })
  | .ok text =>
    match Machine.deserialize (host world config) text with
    | .error fault => some (Transcript.failed {} fault)
    | .ok m =>
      let m := match line with
        | some line => m.loadText line
        | none => m
      (m.step Primitive.handler fuel).map fun
        | .ok _ m => printState m
        | .error fault _ => Transcript.failed {} fault

def obey (world : World) (fuel : Nat) (request : Request) : Option Transcript :=
  let config := config world request
  match request.command with
  | .repl =>
    withMachine world config request fuel fun m =>
      let bytes := world.stdin.toList
      converse fuel bytes.length bytes m { out := banner }
  | .run script => withMachine world config request fuel (runScript world fuel script)
  | .init => withMachine world config request fuel fun m => some (printState m)
  | .step line => stepState world config fuel line
  | .words => withMachine world config request fuel fun m => some { out := m.dictionary.listing }

/-- The whole program. -/
def perform (world : World) (fuel : Nat) (arguments : List String) : Option Transcript :=
  match request arguments with
  | .error stop => some stop.transcript
  | .ok request => obey world fuel request

end CommandLine
end ResumableForth
