import ResumableForth.CommandLine.Console

/-! The program: gathers what it can see, lets the library decide, and prints. -/
namespace ResumableForth
namespace Terminal

open CommandLine

/-- More steps than any run can take. -/
def endless : Nat := 1 <<< 62

def readFailure : IO.Error → ReadFailure
  | .noFileOrDirectory .. => .missing
  | .inappropriateType _ code _ => if code = 21 then .directory else .notDirectory
  | failure => .other failure.toString

def fileContents (path : String) : IO (Except ReadFailure ByteArray) := do
  try return .ok (← IO.FS.readBinFile path)
  catch failure => return .error (readFailure failure)

/-- All files that a request may need, read beforehand. -/
def filesFor (request : CommandLine.Request) (config : Config) :
    IO (List (String × Except ReadFailure ByteArray)) := do
  let script := match request.command with
    | .run script => [script]
    | _ => []
  let paths := request.prelude.toList ++ config.preludePath.toList ++ script
  paths.mapM fun path => return (path, ← fileContents path)

def environment : IO (String → Option String) := do
  let bound ← IO.getEnv Config.depthVariable
  let library ← IO.getEnv Config.libraryVariable
  return fun name =>
    if name = Config.depthVariable then bound
    else if name = Config.libraryVariable then library
    else none

def programDirectory : IO (Option String) := do
  let path ← IO.appPath
  return path.parent.map (·.toString)

def display (transcript : Transcript) : IO Unit := do
  IO.print transcript.out
  (← IO.getStdout).flush
  IO.eprint transcript.err

/-- The bytes of the next line, with its line feed; `line` holds the ones read so far, latest
first. -/
partial def lineBytes (stdin : IO.FS.Stream) (line : List UInt8) : IO (List UInt8) := do
  match (← stdin.read 1).toList with
  | [] => return line.reverse
  | byte :: _ =>
    if byte = 10 then return (byte :: line).reverse else lineBytes stdin (byte :: line)

partial def converseLive (m : StandardMachine) : IO UInt32 := do
  let line ← try pure (Except.ok (← lineBytes (← IO.getStdin) []))
    catch failure => pure (.error (readFailure failure))
  match line with
  | .error failure => finish (Transcript.failed {} { cause := .unreadableLine failure })
  | .ok bytes =>
    if bytes.isEmpty then return 0
    match lineText bytes with
    | .error failure => finish (Transcript.failed {} { cause := .unreadableLine failure })
    | .ok line =>
      if isQuit line then return 0
      match respond endless line m with
      | none => return 1
      | some (m, answer) =>
        display answer
        converseLive m
where
  finish (transcript : Transcript) : IO UInt32 := do
    display transcript
    return transcript.code

def converse (world : World) (request : CommandLine.Request) : IO UInt32 := do
  match begin world (config world request) request endless with
  | some (.ok m) =>
    display { out := banner }
    converseLive m
  | some (.error fault) =>
    display (Transcript.failed {} fault)
    return 1
  | none => return 1

/-- Draws that come from a seed: counts at a fixed odd stride, each of them spread over all 64 bits. -/
def drawsFrom (seed : UInt64) (i : Nat) : UInt64 :=
  let z := seed + 0x9E3779B97F4A7C15 * UInt64.ofNat i
  let z := (z ^^^ (z >>> 30)) * 0xBF58476D1CE4E5B9
  let z := (z ^^^ (z >>> 27)) * 0x94D049BB133111EB
  z ^^^ (z >>> 31)

def serve (request : CommandLine.Request) : IO UInt32 := do
  let sight : World :=
    { environment := ← environment
      programDirectory := ← programDirectory
      generator := { draws := drawsFrom (UInt64.ofNat (← IO.rand 0 (UInt64.size - 1))) } }
  let files ← filesFor request (config sight request)
  let world := { sight with
    fileBytes := fun path => (files.lookup path).getD (.error .missing) }
  match request.command with
  | .repl => converse world request
  | .step _ =>
    let world := { world with stdin := ← (← IO.getStdin).readBinToEnd }
    finish (obey world endless request)
  | _ => finish (obey world endless request)
where
  finish : Option Transcript → IO UInt32
    | some transcript => do
      display transcript
      return transcript.code
    | none => return 1

end Terminal
end ResumableForth

def main (arguments : List String) : IO UInt32 := do
  match ResumableForth.CommandLine.request arguments with
  | .ok request => ResumableForth.Terminal.serve request
  | .error stop =>
    ResumableForth.Terminal.display stop.transcript
    return stop.transcript.code
