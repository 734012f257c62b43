import ResumableForth.Evaluator
import ResumableForth.Snapshot

/-! Machines that are put away and taken up again. A snapshot is checked when a machine is built from it, so
that only states that make sense are taken up. A run can be looked at between steps, in memory or through the
persisted form. -/
namespace ResumableForth
namespace Snapshot

variable {ν : Type}

def stackEntry (value : Value) : StackEntry := ⟨value.tag, value.canonical⟩

def wordEntry (entry : String × Word ν) : Except Fault WordEntry :=
  match entry.2.tokens? with
  | some tokens => .ok ⟨entry.1, entry.2.immediate, tokens⟩
  | none => .error { cause := .nativeUserWord entry.1 }

def ofMachine (m : Machine ν) : Except Fault Snapshot := do
  let words ← m.dictionary.user.entries.mapM wordEntry
  return {
    stack := m.stack.reverse.map stackEntry
    words := words
    input := m.input
    cursor := m.cursor
    mode := m.mode
    openWord := m.openWord
    output := m.output }

/-- Reads stack entries, bottom first, onto a stack; `index` is the number of entries before. -/
def readStack (index : Nat) (stack : List Value) : List StackEntry → Except Fault (List Value)
  | [] => .ok stack
  | entry :: entries =>
    if entry.tag = .null then .error { cause := .nullEntry index }
    else
      match Value.ofCanonical? entry.tag entry.text with
      | some value => readStack (index + 1) (value :: stack) entries
      | none => .error { cause := .unreadableEntry index entry.tag entry.text }

/-- Defines words in a lexicon; each name has to be a token and new. -/
def readWords (lexicon : Lexicon ν) : List WordEntry → Except Fault (Lexicon ν)
  | [] => .ok lexicon
  | entry :: entries =>
    if !Text.isToken entry.name then .error { cause := .invalidName entry.name }
    else if lexicon.contains entry.name then .error { cause := .duplicateWord entry.name }
    else readWords (lexicon.insert entry.name (.compiled entry.immediate entry.tokens)) entries

def checkOpen (lexicon : Lexicon ν) (mode : Mode) : Option String → Except Fault Unit
  | some name =>
    if lexicon.contains name then .ok () else .error { cause := .openWordUnknown name }
  | none => if mode = .compile then .error { cause := .compilingNothing } else .ok ()

def restore (host : Host ν) (snapshot : Snapshot) : Except Fault (Machine ν) := do
  let stack ← readStack 0 [] snapshot.stack
  let user ← readWords .empty snapshot.words
  if snapshot.input.length < snapshot.cursor then
    .error { cause := .indexPastEnd snapshot.cursor snapshot.input.length }
  checkOpen user snapshot.mode snapshot.openWord
  return { Machine.start host with
    dictionary := ⟨host.natives, user⟩
    stack := stack
    input := snapshot.input
    cursor := snapshot.cursor
    mode := snapshot.mode
    openWord := snapshot.openWord
    output := snapshot.output }

end Snapshot

namespace Machine

variable {ν : Type}

def serialize (m : Machine ν) : Except Fault String := (Snapshot.ofMachine m).map Snapshot.encode

def deserialize (host : Host ν) (source : String) : Except Fault (Machine ν) :=
  match Snapshot.decode? source with
  | some snapshot => snapshot.restore host
  | none => .error { cause := .malformedState }

/-- The outcome of an attempt that leaves the machine alone when it fails. The journal goes on. -/
def attempted (m : Machine ν) : Outcome ν Unit → Outcome ν Unit
  | .ok _ next => .ok () next
  | .error fault failed => .error fault { m with journal := failed.journal }

/-- One step of a machine that is put away and taken up again, on a host, before it. -/
def persistedStep (host : Host ν) (run : Handler ν) (fuel : Nat) (m : Machine ν) :
    Option (Outcome ν Unit) :=
  let host := { host with generator := m.generator, journal := m.journal }
  match m.serialize.bind (deserialize host) with
  | .error fault => some (.error fault m)
  | .ok resumed => (resumed.step run fuel).map m.attempted

/-- The states after each of at most `count` steps, or up to the halt; `seen` holds the earlier
ones, latest first. -/
def trace (step : Machine ν → Option (Outcome ν Unit)) :
    Nat → List (Machine ν) → Machine ν → Option (Outcome ν (List (Machine ν)))
  | 0, seen, m => some (.ok seen.reverse m)
  | count + 1, seen, m =>
    if m.mode = .halt then some (.ok seen.reverse m)
    else
      match step m with
      | none => none
      | some (.ok _ next) => trace step count (next :: seen) next
      | some (.error fault next) => some (.error fault next)

end Machine
end ResumableForth
