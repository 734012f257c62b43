import ResumableForth.Proofs.Draining

/-! Machines in lockstep. A step is a sequence of ticks, and a run is a sequence of steps. So when a change
of machines goes through every tick, so that the changed machine comes to the changed outcome, it goes
through every step and every run. Only the ticks that happen matter, and failures that are not followed
may come out differently. -/
namespace ResumableForth
namespace Machine

/-- The machines that the ticks of a step start from. -/
inductive Ticks (m : StandardMachine) : StandardMachine → Prop
  | first : Ticks m m
  | later {next last : StandardMachine} (ticked : m.tick Primitive.handler = some (.ok () next))
    (reaches : Reaches m.depth next last) (above : m.depth < last.depth) : Ticks m last

/-- What holds at first and is kept by the ticks of a step holds whenever one of them starts. -/
theorem Ticks.keeps {m last : StandardMachine} (state : StandardMachine → Prop) (start : state m)
    (kept : ∀ {x y}, m.Ticks x → x.tick Primitive.handler = some (.ok () y) → state x → state y)
    (ticks : m.Ticks last) : state last := by
  cases ticks with
  | first => exact start
  | @later next _ ticked reaches above =>
    have along : ∀ {x last}, Reaches m.depth x last → Reaches m.depth next x → state x → state last := by
      intro x last reaches
      induction reaches with
      | refl => exact fun _ h => h
      | @tick x y last above ticked' later ih =>
        intro before h
        exact ih (before.trans (.single above ticked')) (kept (.later ticked before above) ticked' h)
    exact along reaches (.refl next) (kept .first ticked start)

/-- A step that fails has failed in one of its ticks, and then ended the words that it had called. -/
theorem exists_tick_of_step_error {fuel : Nat} {m last : StandardMachine} {fault : Fault}
    (stepped : m.step Primitive.handler fuel = some (.error fault last)) :
    ∃ x failed, m.Ticks x ∧ x.tick Primitive.handler = some (.error fault failed) ∧
      last = failed.unwind m.depth := by
  obtain ⟨outcome, ticked⟩ := exists_tick m
  cases outcome with
  | ok _ next =>
    rw [step_of_tick ticked] at stepped
    obtain ⟨_, -, ended⟩ | ⟨x, _, failed, reaches, above, failing, ended⟩ := drain_cases stepped
    · cases ended
    · cases ended
      exact ⟨x, failed, .later ticked reaches above, failing, rfl⟩
  | error fault next =>
    rw [step_of_fault ticked] at stepped
    cases stepped
    have low : last.depth ≤ m.depth := Nat.le_of_eq (sameCallers_of_tick_error ticked).depth
    exact ⟨m, last, .first, ticked, (unwind_of_le low).symm⟩

theorem exists_drain_of_step {base fuel : Nat} {m back : StandardMachine}
    {ending : Outcome Primitive Unit} (above : base < m.depth)
    (stepped : m.step Primitive.handler fuel = some (.ok () back))
    (drained : ∃ fuel, back.drain Primitive.handler base fuel = some ending) :
    ∃ fuel, m.drain Primitive.handler base fuel = some ending := by
  obtain ⟨fuel', drained⟩ := drained
  obtain ⟨outcome, ticked⟩ := exists_tick m
  cases outcome with
  | error fault failed =>
    rw [step_of_fault ticked] at stepped
    cases stepped
  | ok _ entered =>
    rw [step_of_tick ticked] at stepped
    obtain ⟨last, reaches, ended⟩ | ⟨_, _, _, _, _, _, ended⟩ := drain_cases stepped
    · cases ended
      have onward : Reaches base m back := .tick above ticked (reaches.mono (Nat.le_of_lt above))
      exact onward.exists_drain drained
    · cases ended

theorem exists_drain_of_step_error {base fuel : Nat} {m last : StandardMachine} {fault : Fault}
    (above : base < m.depth) (stepped : m.step Primitive.handler fuel = some (.error fault last)) :
    ∃ fuel, m.drain Primitive.handler base fuel = some (.error fault (last.unwind base)) := by
  obtain ⟨x, failed, ticks, failing, rfl⟩ := exists_tick_of_step_error stepped
  have low : base ≤ m.depth := Nat.le_of_lt above
  rw [unwind_unwind low]
  cases ticks with
  | first => exact ⟨1, drain_of_fault above failing 0⟩
  | later ticked reaches higher =>
    have onward : Reaches base m x := .tick above ticked (reaches.mono low)
    exact onward.exists_drain (drain_of_fault (Nat.lt_trans above higher) failing 0)

def checkAbove (check : StandardMachine → Bool) (base : Nat) : Nat → StandardMachine → Bool
  | 0, m => !m.isAbove base
  | fuel + 1, m =>
    !m.isAbove base || (check m &&
      match m.tick Primitive.handler with
      | some (.ok _ next) => checkAbove check base fuel next
      | _ => true)

theorem check_of_reaches {check : StandardMachine → Bool} {base fuel : Nat} {m last : StandardMachine}
    (reaches : Reaches base m last) (above : base < last.depth)
    (checked : m.checkAbove check base fuel = true) : check last = true := by
  induction reaches generalizing fuel with
  | refl m =>
    cases fuel <;> simp_all [checkAbove, (isAbove_iff base m).mpr above]
  | @tick m next last high ticked later ih =>
    have running : m.isAbove base = true := (isAbove_iff base m).mpr high
    cases fuel with
    | zero => simp [checkAbove, running] at checked
    | succ fuel =>
      simp only [checkAbove, running, ticked, Bool.not_true, Bool.false_or, Bool.and_eq_true] at checked
      exact ih above checked.2

def checkStep (check : StandardMachine → Bool) (fuel : Nat) (m : StandardMachine) : Bool :=
  check m &&
    match m.tick Primitive.handler with
    | some (.ok _ next) => next.checkAbove check m.depth fuel
    | _ => true

theorem check_of_ticks {check : StandardMachine → Bool} {fuel : Nat} {m last : StandardMachine}
    (ticks : m.Ticks last) (checked : m.checkStep check fuel = true) : check last = true := by
  rw [checkStep, Bool.and_eq_true] at checked
  cases ticks with
  | first => exact checked.1
  | later ticked reaches above =>
    rw [ticked] at checked
    exact check_of_reaches reaches above checked.2

def checkRun (check : StandardMachine → Bool) : Nat → StandardMachine → Bool
  | 0, _ => false
  | fuel + 1, m =>
    check m && (decide (m.mode = .halt) ||
      match m.step Primitive.handler fuel with
      | some (.ok _ next) => checkRun check fuel next
      | some (.error _ _) => true
      | none => false)

theorem check_of_stepsTo {check : StandardMachine → Bool} {fuel : Nat} {m last : StandardMachine}
    (steps : StepsTo m last) (checked : m.checkRun check fuel = true) : check last = true := by
  induction steps generalizing fuel with
  | refl m =>
    cases fuel with
    | zero => cases checked
    | succ fuel =>
      rw [checkRun, Bool.and_eq_true] at checked
      exact checked.1
  | @step m next last count running stepped later ih =>
    cases fuel with
    | zero => cases checked
    | succ fuel =>
      rw [checkRun, Bool.and_eq_true, decide_eq_false running, Bool.false_or] at checked
      cases again : m.step Primitive.handler fuel with
      | none => simp [again] at checked
      | some outcome =>
        cases step_unique again stepped
        rw [again] at checked
        exact ih checked.2

/-- The native word that the next tick runs, if it runs one. -/
def native? (m : StandardMachine) : Option Primitive :=
  m.token?.bind fun token => (m.dictionary.find? token).bind fun word =>
    match word.body with
    | .native primitive =>
      if m.mode = .execute ∨ (m.mode = .compile ∧ word.immediate = true) then some primitive else none
    | .compiled _ => none

theorem action_cases {m : StandardMachine} {token : String} {action : Action Primitive Unit}
    (next : m.token? = some token) (asked : (m.read token).request token = .act action) :
    (∃ primitive, m.native? = some primitive ∧ action = primitive.run) ∨
      action = Action.push (Value.literal token) ∨ action = Action.compile [token] ∨
      action = Action.fail (.readWhileHalted token) := by
  obtain ⟨word, primitive, found, body, runs, run⟩ | pushed | compiled | ⟨-, refused⟩ :=
    act_of_request asked
  · have found' : m.dictionary.find? token = some word := found
    have runs' : m.mode = .execute ∨ (m.mode = .compile ∧ word.immediate = true) := runs
    refine .inl ⟨primitive, ?_, run⟩
    simp only [native?, next, Option.bind_some, found', body, runs', if_true]
  · exact .inr (.inl pushed)
  · exact .inr (.inr (.inl compiled))
  · exact .inr (.inr (.inr refused))

def Followed (follow : Fault → Prop) : Option (Outcome Primitive Unit) → Prop
  | some (.error fault _) => follow fault
  | _ => True

theorem followed_true (result : Option (Outcome Primitive Unit)) : Followed (fun _ => True) result := by
  rcases result with _ | _ | _ <;> trivial

/-- A result that is followed is the same on the other side, but for the change. -/
def Carried (change : StandardMachine → StandardMachine) (follow : Fault → Prop)
    (first second : Option (Outcome Primitive Unit)) : Prop :=
  Followed follow first → second = first.map (Outcome.over change)

/-- A change of machines that leaves the running words and the mode in their places. -/
structure Harmless (change : StandardMachine → StandardMachine) : Prop where
  depth : ∀ m, (change m).depth = m.depth
  mode : ∀ m, (change m).mode = m.mode
  leave : ∀ m, (change m).leave = change m.leave
  halt : ∀ m, ({ change m with mode := .halt } : StandardMachine) = change { m with mode := .halt }

namespace Harmless

variable {change : StandardMachine → StandardMachine} {follow : Fault → Prop} {base fuel : Nat}
  {m : StandardMachine}

theorem exhaust (harmless : Harmless change) (m : StandardMachine) :
    (change m).exhaust = change m.exhaust := by
  have idle : (change m).frames = [] ↔ m.frames = [] := by
    rw [frames_eq_nil_iff, frames_eq_nil_iff, harmless.depth]
  rw [Machine.exhaust, Machine.exhaust]
  simp only [List.isEmpty_iff, idle]
  split
  · exact harmless.halt m
  · exact harmless.leave m

/-- A change that is not noticed when a token is read goes through a tick when it goes through actions and
calls. -/
theorem tick (harmless : Harmless change) (next : (change m).token? = m.token?)
    (read : ∀ token, (change m).read token = change (m.read token))
    (request : ∀ token, (change (m.read token)).request token = (m.read token).request token)
    (act : ∀ token action, m.token? = some token → (m.read token).request token = .act action →
      Carried change follow (some (action (m.read token))) (some (action (change (m.read token)))))
    (call : ∀ token name tokens, Carried change follow (some ((m.read token).call name tokens))
      (some ((change (m.read token)).call name tokens))) :
    Carried change follow (m.tick Primitive.handler) ((change m).tick Primitive.handler) := by
  cases here : m.token? with
  | none =>
    rw [here] at next
    rw [tick_of_end here, tick_of_end next, harmless.exhaust]
    intro _
    rfl
  | some token =>
    rw [here] at next
    rw [tick_of_token here, tick_of_token next, read, request]
    cases asked : (m.read token).request token with
    | act action => exact act token action here asked
    | call name tokens => exact call token name tokens

theorem unwind (harmless : Harmless change) (base : Nat) (m : StandardMachine) :
    (change m).unwind base = change (m.unwind base) := by
  rw [Machine.unwind, Machine.unwind, harmless.depth]
  generalize m.depth - base = count
  induction count with
  | zero => rfl
  | succ count ih => rw [Nat.repeat, Nat.repeat, ih, harmless.leave]

theorem drain (harmless : Harmless change)
    (ticks : ∀ last, Reaches base m last → base < last.depth →
      Carried change follow (last.tick Primitive.handler) ((change last).tick Primitive.handler)) :
    Carried change follow (m.drain Primitive.handler base fuel)
      ((change m).drain Primitive.handler base fuel) := by
  intro followed
  induction fuel generalizing m with
  | zero =>
    rcases Nat.lt_or_ge base m.depth with above | low
    · have above' : base < (change m).depth := (harmless.depth m).symm ▸ above
      rw [drain_zero_of_above above, drain_zero_of_above above']
      rfl
    · have low' : (change m).depth ≤ base := (harmless.depth m).symm ▸ low
      rw [drain_of_low low, drain_of_low low']
      rfl
  | succ fuel ih =>
    rcases Nat.lt_or_ge base m.depth with above | low
    · have above' : base < (change m).depth := (harmless.depth m).symm ▸ above
      obtain ⟨outcome, ticked⟩ := exists_tick m
      have carried := ticks m (.refl m) above
      rw [ticked] at carried
      cases outcome with
      | ok _ next =>
        rw [drain_of_tick above ticked] at followed ⊢
        rw [drain_of_tick above' (carried trivial)]
        exact ih (fun last later => ticks last (.tick above ticked later)) followed
      | error fault next =>
        rw [drain_of_fault above ticked] at followed ⊢
        rw [drain_of_fault above' (carried followed), harmless.unwind]
        rfl
    · have low' : (change m).depth ≤ base := (harmless.depth m).symm ▸ low
      rw [drain_of_low low, drain_of_low low']
      rfl

/-- What goes through the ticks of a step goes through the step. -/
theorem step (harmless : Harmless change)
    (ticks : ∀ last, m.Ticks last →
      Carried change follow (last.tick Primitive.handler) ((change last).tick Primitive.handler)) :
    Carried change follow (m.step Primitive.handler fuel)
      ((change m).step Primitive.handler fuel) := by
  intro followed
  obtain ⟨outcome, ticked⟩ := exists_tick m
  have carried := ticks m .first
  rw [ticked] at carried
  cases outcome with
  | ok _ next =>
    rw [step_of_tick ticked] at followed ⊢
    rw [step_of_tick (carried trivial), harmless.depth]
    exact harmless.drain (fun last reaches above => ticks last (.later ticked reaches above)) followed
  | error fault next =>
    rw [step_of_fault ticked] at followed ⊢
    rw [step_of_fault (carried followed)]
    rfl

theorem runToHalt (harmless : Harmless change)
    (steps : ∀ last fuel, StepsTo m last →
      Carried change follow (last.step Primitive.handler fuel)
        ((change last).step Primitive.handler fuel)) :
    Carried change follow (m.runToHalt Primitive.handler fuel)
      ((change m).runToHalt Primitive.handler fuel) := by
  intro followed
  induction fuel generalizing m with
  | zero =>
    rw [Machine.runToHalt, Machine.runToHalt, harmless.mode]
    split <;> rfl
  | succ fuel ih =>
    rw [Machine.runToHalt] at followed ⊢
    rw [Machine.runToHalt, harmless.mode]
    by_cases halted : m.mode = .halt
    · simp only [halted, if_true]
      rfl
    · simp only [halted, if_false] at followed ⊢
      have carried := steps m fuel (.refl m)
      cases stepped : m.step Primitive.handler fuel with
      | none =>
        rw [stepped] at carried
        rw [carried trivial]
        rfl
      | some outcome =>
        rw [stepped] at carried followed
        cases outcome with
        | ok _ next =>
          rw [carried trivial]
          exact ih (fun last fuel later => steps last fuel (.step halted stepped later)) followed
        | error fault next =>
          rw [carried followed]
          rfl

end Harmless
end Machine
end ResumableForth
