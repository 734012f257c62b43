import ResumableForth.Proofs.Lockstep

/-! Nothing that a machine does depends on its journal. A machine with a closed and empty journal makes
the same steps as the machine itself, so that events can be left out of account where the values, the
words and the input are followed. -/
namespace ResumableForth

/-- The journal is closed, and forgotten. -/
def quietVeil : Veil where
  frames := id
  room := id
  journal _ := {}
  calls _ := rfl
  reach _ _ := rfl
  record _ _ := rfl

namespace Machine

def quiet (m : StandardMachine) : StandardMachine := quietVeil.cover m

theorem quiet_eq (m : StandardMachine) : m.quiet = { m with journal := {} } := rfl

theorem eq_of_quiet {m m' : StandardMachine} (same : m.quiet = m'.quiet) :
    m = { m' with journal := m.journal } := by
  rw [quiet_eq, quiet_eq] at same
  cases m
  cases m'
  simpa using same

theorem quiet_leave (m : StandardMachine) : m.quiet.leave = m.leave.quiet := by
  have frames : m.quiet.frames = m.frames := rfl
  rw [leave, leave, frames]
  cases m.frames <;> rfl

theorem harmless_quiet : Harmless quiet where
  depth _ := rfl
  mode _ := rfl
  leave := quiet_leave
  halt _ := rfl

theorem quiet_call (name : String) (tokens : List String) (m : StandardMachine) :
    m.quiet.call name tokens = Outcome.over quiet (m.call name tokens) := by
  have room : m.quiet.room = m.room := rfl
  rw [call, call, room]
  split <;> rfl

theorem quiet_tick (m : StandardMachine) :
    m.quiet.tick Primitive.handler = (m.tick Primitive.handler).map (Outcome.over quiet) := by
  refine harmless_quiet.tick rfl (fun _ => rfl) (fun _ => rfl) ?_ ?_ (followed_true _)
  · intro token action _ asked _
    exact congrArg some ((plain_of_request Value.closed_true asked).over_cover quietVeil _)
  · intro token name tokens _
    exact congrArg some (quiet_call name tokens _)

theorem quiet_step (fuel : Nat) (m : StandardMachine) :
    m.quiet.step Primitive.handler fuel =
      (m.step Primitive.handler fuel).map (Outcome.over quiet) :=
  harmless_quiet.step (fun last _ _ => quiet_tick last) (followed_true _)

theorem quiet_runToHalt (fuel : Nat) (m : StandardMachine) :
    m.quiet.runToHalt Primitive.handler fuel =
      (m.runToHalt Primitive.handler fuel).map (Outcome.over quiet) :=
  harmless_quiet.runToHalt (fun last fuel _ _ => quiet_step fuel last) (followed_true _)

theorem quiet_interpret (fuel : Nat) (source : String) (m : StandardMachine) :
    m.quiet.interpret Primitive.handler fuel source =
      (m.interpret Primitive.handler fuel source).map (Outcome.over quiet) :=
  quiet_runToHalt fuel (m.loadText source)

end Machine
end ResumableForth
