import ResumableForth.Proofs.Lockstep

/-! The bound on the number of running words. Evaluation keeps the bound, and looks at it only when a word
is called: as many words as may are running, or there is room for one more. So a larger bound makes no
difference to an evaluation that does not fail for want of room. -/
namespace ResumableForth

def roomVeil (extra : Nat) : Veil where
  frames := id
  room := (· + extra)
  journal := id
  calls := Veil.calls_id
  reach := Veil.reach_id
  record := Veil.record_id

namespace Machine

theorem SameCallers.depthBound {ν : Type} {m m' : Machine ν} (same : SameCallers m m') :
    m'.depthBound = m.depthBound := by
  rw [Machine.depthBound, Machine.depthBound, same.depth, same.room]

theorem invariant_depthBound (bound : Nat) :
    Invariant (fun _ => True) fun m : StandardMachine => m.depthBound = bound where
  closed := Value.closed_true
  operation operation _ m h :=
    operation.meets_of_machine ((SameCallers.exec operation m).machine.depthBound.trans h)
  record _ _ h := h
  enter name tokens _ _ _ _ room h := (depthBound_enter name tokens room).trans h
  leave m h := (depthBound_leave m).trans h
  halt _ _ h := h

/-- The machine with another bound. -/
def bounded {ν : Type} (bound : Nat) (m : Machine ν) : Machine ν := { m with room := bound - m.depth }

theorem depthBound_bounded {ν : Type} {bound : Nat} {m : Machine ν} (fits : m.depth ≤ bound) :
    (m.bounded bound).depthBound = bound :=
  Nat.add_sub_cancel' fits

def widen (extra : Nat) (m : StandardMachine) : StandardMachine := (roomVeil extra).cover m

theorem bounded_eq_widen {bound : Nat} {m : StandardMachine} (larger : m.depthBound ≤ bound) :
    m.bounded bound = m.widen (bound - m.depthBound) := by
  have room : bound - m.depth = m.room + (bound - m.depthBound) := by
    rw [depthBound] at larger ⊢
    omega
  rw [bounded, room]
  rfl

section Widening

variable (extra : Nat) (m : StandardMachine)

theorem leave_widen : (m.widen extra).leave = m.leave.widen extra := by
  have frames : (m.widen extra).frames = m.frames := rfl
  rw [leave, leave, frames]
  cases m.frames with
  | nil => rfl
  | cons frame callers => simp [widen, Veil.cover, roomVeil, record, Nat.add_right_comm]

theorem enter_widen {m : StandardMachine} (room : m.room ≠ 0) (name : String) (tokens : List String) :
    (m.widen extra).enter name tokens = (m.enter name tokens).widen extra := by
  have rest : m.room + extra - 1 = m.room - 1 + extra := by omega
  simp [widen, Veil.cover, roomVeil, enter, record, rest, depth]

theorem harmless_widen : Harmless (widen extra) where
  depth _ := rfl
  mode _ := rfl
  leave := leave_widen extra
  halt _ := rfl

theorem call_widen (name : String) (tokens : List String) :
    Carried (widen extra) (fun fault => fault.kind ≠ .callDepthExceeded)
      (some (m.call name tokens)) (some ((m.widen extra).call name tokens)) := by
  intro followed
  by_cases full : m.room = 0
  · simp only [call, full, if_true] at followed
    exact absurd rfl followed
  · have free : (m.widen extra).room ≠ 0 := by
      show m.room + extra ≠ 0
      omega
    simp only [call, full, free, if_false, enter_widen extra full]
    rfl

/-- A tick that does not fail for want of room is the same with more room. -/
theorem tick_widen : Carried (widen extra) (fun fault => fault.kind ≠ .callDepthExceeded)
    (m.tick Primitive.handler) ((m.widen extra).tick Primitive.handler) := by
  refine (harmless_widen extra).tick rfl (fun _ => rfl) (fun _ => rfl) ?_ ?_
  · intro token action _ asked _
    exact congrArg some ((plain_of_request Value.closed_true asked).over_cover (roomVeil extra) _)
  · intro token name tokens
    exact call_widen extra (m.read token) name tokens

theorem step_widen (fuel : Nat) :
    Carried (widen extra) (fun fault => fault.kind ≠ .callDepthExceeded)
      (m.step Primitive.handler fuel) ((m.widen extra).step Primitive.handler fuel) :=
  (harmless_widen extra).step fun last _ => tick_widen extra last

theorem runToHalt_widen (fuel : Nat) :
    Carried (widen extra) (fun fault => fault.kind ≠ .callDepthExceeded)
      (m.runToHalt Primitive.handler fuel) ((m.widen extra).runToHalt Primitive.handler fuel) :=
  (harmless_widen extra).runToHalt fun last fuel _ => step_widen extra last fuel

end Widening

/-- What is carried over to a machine with more room is the same under the larger bound. -/
theorem eq_over_bounded {bound : Nat} {m : StandardMachine} (larger : m.depthBound ≤ bound)
    {outcome : Outcome Primitive Unit} {result : Option (Outcome Primitive Unit)}
    (kept : outcome.machine.depthBound = m.depthBound)
    (roomy : ∀ fault next, outcome = .error fault next → fault.kind ≠ .callDepthExceeded)
    (carried : Carried (widen (bound - m.depthBound)) (fun fault => fault.kind ≠ .callDepthExceeded)
      (some outcome) result) : result = some (Outcome.over (bounded bound) outcome) := by
  have followed : Followed (fun fault => fault.kind ≠ .callDepthExceeded) (some outcome) := by
    cases outcome with
    | ok _ next => trivial
    | error fault next => exact roomy fault next rfl
  rw [carried followed]
  refine congrArg some (Outcome.over_congr ?_)
  rw [bounded_eq_widen (Nat.le_trans (Nat.le_of_eq kept) larger), kept]

/-- Raising the bound on the number of running words changes nothing in an evaluation that fits: a step or
a run of a text that ends, and not for want of room, ends in the same way under every larger bound, with
the same fault if there is one, and in a machine that is the same but for the bound. -/
theorem larger_bound_same_outcome {bound bound' : Nat} (larger : bound ≤ bound') {m : StandardMachine}
    (fits : m.depth ≤ bound) {outcome : Outcome Primitive Unit}
    (roomy : ∀ fault next, outcome = .error fault next → fault.kind ≠ .callDepthExceeded) (fuel : Nat) :
    ((m.bounded bound).step Primitive.handler fuel = some outcome →
      (m.bounded bound').step Primitive.handler fuel = some (Outcome.over (bounded bound') outcome)) ∧
    ∀ source, (m.bounded bound).interpret Primitive.handler fuel source = some outcome →
      (m.bounded bound').interpret Primitive.handler fuel source =
        some (Outcome.over (bounded bound') outcome) := by
  have start : (m.bounded bound).depthBound = bound := depthBound_bounded fits
  have above : (m.bounded bound).depthBound ≤ bound' := Nat.le_trans (Nat.le_of_eq start) larger
  have wider : m.bounded bound' = (m.bounded bound).widen (bound' - (m.bounded bound).depthBound) :=
    bounded_eq_widen (m := m.bounded bound) above
  constructor
  · intro stepped
    have carried := step_widen (bound' - (m.bounded bound).depthBound) (m.bounded bound) fuel
    rw [stepped, ← wider] at carried
    exact eq_over_bounded above ((invariant_depthBound _).step rfl stepped) roomy carried
  · intro source ran
    have carried :=
      runToHalt_widen (bound' - (m.bounded bound).depthBound) ((m.bounded bound).loadText source) fuel
    have ran' : ((m.bounded bound).loadText source).runToHalt Primitive.handler fuel = some outcome := ran
    have loaded : ((m.bounded bound).loadText source).widen (bound' - (m.bounded bound).depthBound) =
        (m.bounded bound').loadText source := by
      rw [wider]
      rfl
    rw [ran', loaded] at carried
    have kept : outcome.machine.depthBound = (m.bounded bound).depthBound :=
      (invariant_depthBound _).runToHalt (m := (m.bounded bound).loadText source) rfl ran'
    exact eq_over_bounded above kept roomy carried

/-- A machine with a word that counts down by calling itself. -/
def descending : StandardMachine :=
  { start { natives := Primitive.lexicon } with
    dictionary := ⟨Primitive.lexicon, ⟨[("DOWN", .compiled false
      ["DUP", "0", "=", "BRANCH?", "7", "BRANCH", "10", "-1", "+", "DOWN"])]⟩⟩
    stack := [.int 2]
    input := ["DOWN"] }

/-- Counting down from two takes three words at once. Two are not enough, and a hundred are no different. -/
theorem larger_bound_same_outcome_descending :
    (∃ fault next, (descending.bounded 2).step Primitive.handler 40 = some (.error fault next) ∧
      fault.kind = .callDepthExceeded) ∧
    ∃ last, (descending.bounded 3).step Primitive.handler 40 = some (.ok () last) ∧
      last.stack = [.int 0] ∧
      (descending.bounded 100).step Primitive.handler 40 = some (.ok () (last.bounded 100)) := by
  have short : ∃ fault next, (descending.bounded 2).step Primitive.handler 40 =
      some (.error fault next) ∧ fault.kind = .callDepthExceeded := ⟨_, _, rfl, rfl⟩
  have ends : ∃ last, (descending.bounded 3).step Primitive.handler 40 = some (.ok () last) ∧
      last.stack = [.int 0] := ⟨_, rfl, rfl⟩
  obtain ⟨last, stepped, stack⟩ := ends
  refine ⟨short, last, stepped, stack, ?_⟩
  exact (larger_bound_same_outcome (by decide) (by decide) (by rintro _ _ ⟨⟩) 40).1 stepped

end Machine
end ResumableForth
