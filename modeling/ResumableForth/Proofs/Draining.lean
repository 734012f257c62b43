import ResumableForth.Proofs.Invariance

/-! Runs of ticks above a base. Draining a machine is a sequence of ticks, so what it comes to does
not change when the machine moves along the sequence, and more fuel does not change it either. -/
namespace ResumableForth
namespace Machine

theorem repeat_add {α : Type} (f : α → α) (first second : Nat) (x : α) :
    Nat.repeat f (first + second) x = Nat.repeat f first (Nat.repeat f second x) := by
  induction first with
  | zero => rw [Nat.zero_add]; rfl
  | succ first ih =>
    rw [Nat.succ_add, Nat.repeat, Nat.repeat, ih]

theorem unwind_of_le {ν : Type} {base : Nat} {m : Machine ν} (h : m.depth ≤ base) :
    m.unwind base = m := by
  rw [unwind, Nat.sub_eq_zero_of_le h]
  rfl

theorem unwind_succ_depth {ν : Type} {base : Nat} {m : Machine ν} (h : m.depth = base + 1) :
    m.unwind base = m.leave := by
  rw [unwind, h, Nat.add_sub_cancel_left]
  rfl

theorem unwind_unwind {ν : Type} {low high : Nat} (h : low ≤ high) (m : Machine ν) :
    (m.unwind high).unwind low = m.unwind low := by
  rw [unwind, depth_unwind, unwind, unwind, ← repeat_add]
  congr 1
  omega

variable {base fuel : Nat} {m next : StandardMachine} {outcome : Outcome Primitive Unit}

theorem drain_of_low (h : m.depth ≤ base) (fuel : Nat) :
    m.drain Primitive.handler base fuel = some (.ok () m) := by
  have low : m.isAbove base = false := by
    rw [← Bool.not_eq_true, isAbove_iff]
    exact Nat.not_lt.mpr h
  cases fuel <;> simp [drain, low]

theorem drain_zero_of_above (h : base < m.depth) : m.drain Primitive.handler base 0 = none := by
  rw [drain, if_pos ((isAbove_iff base m).mpr h)]

theorem drain_of_tick (h : base < m.depth) (ticked : m.tick Primitive.handler = some (.ok () next))
    (fuel : Nat) :
    m.drain Primitive.handler base (fuel + 1) = next.drain Primitive.handler base fuel := by
  rw [drain, if_pos ((isAbove_iff base m).mpr h), ticked]

theorem drain_of_fault {fault : Fault} (h : base < m.depth)
    (ticked : m.tick Primitive.handler = some (.error fault next)) (fuel : Nat) :
    m.drain Primitive.handler base (fuel + 1) = some (.error fault (next.unwind base)) := by
  rw [drain, if_pos ((isAbove_iff base m).mpr h), ticked]

theorem drain_of_end (inside : m.depth = base + 1) (next : m.token? = none) :
    m.drain Primitive.handler base 1 = some (.ok () m.leave) := by
  have above : base < m.depth := inside ▸ Nat.lt_succ_self base
  have running : m.frames.isEmpty = false := by
    cases frames : m.frames with
    | nil => simp [depth, frames] at inside
    | cons frame callers => rfl
  have ticked := tick_of_end next
  simp only [exhaust, running] at ticked
  have low : m.leave.depth ≤ base := by
    rw [depth_leave, inside]
    exact Nat.le_refl base
  exact (drain_of_tick above ticked 0).trans (drain_of_low low 0)

/-- More fuel does not change what has ended. -/
theorem drain_add (drained : m.drain Primitive.handler base fuel = some outcome) (more : Nat) :
    m.drain Primitive.handler base (fuel + more) = some outcome := by
  rcases Nat.lt_or_ge base m.depth with above | low
  · induction fuel generalizing m with
    | zero =>
      rw [drain_zero_of_above above] at drained
      cases drained
    | succ fuel ih =>
      obtain ⟨first, ticked⟩ := exists_tick m
      rw [Nat.succ_add]
      cases first with
      | ok _ next =>
        rw [drain_of_tick above ticked] at drained ⊢
        rcases Nat.lt_or_ge base next.depth with above | low
        · exact ih drained above
        · rw [drain_of_low low] at drained ⊢
          exact drained
      | error fault next =>
        rw [drain_of_fault above ticked] at drained ⊢
        exact drained
  · rw [drain_of_low low] at drained ⊢
    exact drained

theorem drain_unique {fuel' : Nat} {outcome' : Outcome Primitive Unit}
    (first : m.drain Primitive.handler base fuel = some outcome)
    (second : m.drain Primitive.handler base fuel' = some outcome') : outcome = outcome' := by
  have left := drain_add first fuel'
  have right := drain_add second fuel
  rw [Nat.add_comm] at right
  exact Option.some.inj (left.symm.trans right)

theorem step_of_tick (ticked : m.tick Primitive.handler = some (.ok () next)) (fuel : Nat) :
    m.step Primitive.handler fuel = next.drain Primitive.handler m.depth fuel := by
  rw [step, ticked]
  rfl

theorem step_of_fault {fault : Fault} (ticked : m.tick Primitive.handler = some (.error fault next))
    (fuel : Nat) : m.step Primitive.handler fuel = some (.error fault next) := by
  rw [step, ticked]
  rfl

theorem step_of_low (ticked : m.tick Primitive.handler = some outcome)
    (low : outcome.machine.depth ≤ m.depth) (fuel : Nat) :
    m.step Primitive.handler fuel = some outcome := by
  cases outcome with
  | ok _ next => exact (step_of_tick ticked fuel).trans (drain_of_low low fuel)
  | error fault next => exact step_of_fault ticked fuel

theorem step_of_act {token : String} {action : Action Primitive Unit} (next : m.token? = some token)
    (asked : (m.read token).request token = .act action) (fuel : Nat) :
    m.step Primitive.handler fuel = some (action (m.read token)) := by
  have ticked := tick_of_token next
  rw [asked] at ticked
  have same := (sameCallers_of_act asked).depth
  rw [(SameCallers.read token m).depth] at same
  exact step_of_low ticked (Nat.le_of_eq same) fuel

theorem step_of_end (idle : m.frames = []) (next : m.token? = none) (fuel : Nat) :
    m.step Primitive.handler fuel = some (.ok () { m with mode := .halt }) := by
  have halts : m.exhaust = { m with mode := .halt } := by simp [exhaust, idle]
  have ticked := tick_of_end next
  rw [halts] at ticked
  have low : ({ m with mode := .halt } : StandardMachine).depth ≤ m.depth := Nat.le_refl _
  exact step_of_low ticked low fuel

theorem step_unique {fuel' : Nat} {outcome' : Outcome Primitive Unit}
    (first : m.step Primitive.handler fuel = some outcome)
    (second : m.step Primitive.handler fuel' = some outcome') : outcome = outcome' := by
  obtain ⟨tick, ticked⟩ := exists_tick m
  cases tick with
  | ok _ next =>
    rw [step_of_tick ticked] at first second
    exact drain_unique first second
  | error fault next =>
    rw [step_of_fault ticked] at first second
    exact Option.some.inj (first.symm.trans second)

theorem step_add (stepped : m.step Primitive.handler fuel = some outcome) (more : Nat) :
    m.step Primitive.handler (fuel + more) = some outcome := by
  obtain ⟨tick, ticked⟩ := exists_tick m
  cases tick with
  | ok _ next =>
    rw [step_of_tick ticked] at stepped ⊢
    exact drain_add stepped more
  | error fault next =>
    rw [step_of_fault ticked] at stepped ⊢
    exact stepped

theorem runToHalt_of_halted (halted : m.mode = .halt) (fuel : Nat) :
    m.runToHalt Primitive.handler fuel = some (.ok () m) := by
  cases fuel <;> simp [runToHalt, halted]

theorem runToHalt_zero (running : m.mode ≠ .halt) : m.runToHalt Primitive.handler 0 = none := by
  rw [runToHalt, if_neg running]

theorem runToHalt_of_step (running : m.mode ≠ .halt)
    (stepped : m.step Primitive.handler fuel = some (.ok () next)) :
    m.runToHalt Primitive.handler (fuel + 1) = next.runToHalt Primitive.handler fuel := by
  rw [runToHalt, if_neg running, stepped]

theorem runToHalt_of_fault {fault : Fault} (running : m.mode ≠ .halt)
    (stepped : m.step Primitive.handler fuel = some (.error fault next)) :
    m.runToHalt Primitive.handler (fuel + 1) = some (.error fault next) := by
  rw [runToHalt, if_neg running, stepped]

theorem runToHalt_of_none (running : m.mode ≠ .halt)
    (stepped : m.step Primitive.handler fuel = none) :
    m.runToHalt Primitive.handler (fuel + 1) = none := by
  rw [runToHalt, if_neg running, stepped]

theorem runToHalt_add (ran : m.runToHalt Primitive.handler fuel = some outcome) (more : Nat) :
    m.runToHalt Primitive.handler (fuel + more) = some outcome := by
  by_cases halted : m.mode = .halt
  · rw [runToHalt_of_halted halted] at ran ⊢
    exact ran
  · induction fuel generalizing m with
    | zero =>
      rw [runToHalt_zero halted] at ran
      cases ran
    | succ fuel ih =>
      rw [Nat.succ_add]
      cases stepped : m.step Primitive.handler fuel with
      | none =>
        rw [runToHalt_of_none halted stepped] at ran
        cases ran
      | some first =>
        have again := step_add stepped more
        cases first with
        | ok _ next =>
          rw [runToHalt_of_step halted stepped] at ran
          rw [runToHalt_of_step halted again]
          by_cases ended : next.mode = .halt
          · rw [runToHalt_of_halted ended] at ran ⊢
            exact ran
          · exact ih ran ended
        | error fault next =>
          rw [runToHalt_of_fault halted stepped] at ran
          rw [runToHalt_of_fault halted again]
          exact ran

/-- One machine comes to another by ticks that start above a base. -/
inductive Reaches (base : Nat) : StandardMachine → StandardMachine → Prop
  | refl (m : StandardMachine) : Reaches base m m
  | tick {m next last : StandardMachine} (above : base < m.depth)
    (ticked : m.tick Primitive.handler = some (.ok () next)) (later : Reaches base next last) :
    Reaches base m last

namespace Reaches

variable {last : StandardMachine}

theorem trans (first : Reaches base m next) (second : Reaches base next last) :
    Reaches base m last := by
  induction first with
  | refl m => exact second
  | tick above ticked later ih => exact .tick above ticked (ih second)

theorem single (above : base < m.depth) (ticked : m.tick Primitive.handler = some (.ok () next)) :
    Reaches base m next :=
  .tick above ticked (.refl next)

theorem mono {low : Nat} (le : low ≤ base) (h : Reaches base m last) : Reaches low m last := by
  induction h with
  | refl m => exact .refl m
  | tick above ticked later ih => exact .tick (Nat.lt_of_le_of_lt le above) ticked ih

/-- Draining goes on from where the ticks have come to. -/
theorem drain (h : Reaches base m last) :
    ∃ count, ∀ fuel, m.drain Primitive.handler base (count + fuel) =
      last.drain Primitive.handler base fuel := by
  induction h with
  | refl m => exact ⟨0, fun fuel => by rw [Nat.zero_add]⟩
  | tick above ticked later ih =>
    obtain ⟨count, same⟩ := ih
    refine ⟨count + 1, fun fuel => ?_⟩
    rw [Nat.add_right_comm, drain_of_tick above ticked, same]

theorem drain_eq_none (h : Reaches base m last)
    (unfinished : last.drain Primitive.handler base fuel = none) :
    m.drain Primitive.handler base fuel = none := by
  obtain ⟨count, same⟩ := h.drain
  cases drained : m.drain Primitive.handler base fuel with
  | none => rfl
  | some outcome =>
    have more := drain_add drained count
    rw [Nat.add_comm, same, unfinished] at more
    cases more

theorem exists_drain (h : Reaches base m last)
    (drained : last.drain Primitive.handler base fuel = some outcome) :
    ∃ fuel, m.drain Primitive.handler base fuel = some outcome := by
  obtain ⟨count, same⟩ := h.drain
  exact ⟨count + fuel, (same fuel).trans drained⟩

end Reaches

/-- Draining that comes to an end has come by ticks to a machine that is low enough, or to a tick that
fails, and then ended the words above the base. -/
theorem drain_cases (drained : m.drain Primitive.handler base fuel = some outcome) :
    (∃ last, Reaches base m last ∧ outcome = .ok () last) ∨
      ∃ x fault failed, Reaches base m x ∧ base < x.depth ∧
        x.tick Primitive.handler = some (.error fault failed) ∧
        outcome = .error fault (failed.unwind base) := by
  rcases Nat.lt_or_ge base m.depth with above | low
  · induction fuel generalizing m with
    | zero =>
      rw [drain_zero_of_above above] at drained
      cases drained
    | succ fuel ih =>
      obtain ⟨first, ticked⟩ := exists_tick m
      cases first with
      | ok _ next =>
        rw [drain_of_tick above ticked] at drained
        rcases Nat.lt_or_ge base next.depth with above' | low
        · obtain ⟨last, reaches, ended⟩ | ⟨x, fault, failed, reaches, rest⟩ := ih drained above'
          · exact .inl ⟨last, .tick above ticked reaches, ended⟩
          · exact .inr ⟨x, fault, failed, .tick above ticked reaches, rest⟩
        · rw [drain_of_low low] at drained
          exact .inl ⟨next, .single above ticked, (Option.some.inj drained).symm⟩
      | error fault next =>
        rw [drain_of_fault above ticked] at drained
        exact .inr ⟨m, fault, next, .refl m, above, ticked, (Option.some.inj drained).symm⟩
  · rw [drain_of_low low] at drained
    exact .inl ⟨m, .refl m, (Option.some.inj drained).symm⟩

/-- One machine comes to another by steps that succeed, before it halts. -/
inductive StepsTo : StandardMachine → StandardMachine → Prop
  | refl (m : StandardMachine) : StepsTo m m
  | step {m next last : StandardMachine} {fuel : Nat} (running : m.mode ≠ .halt)
    (stepped : m.step Primitive.handler fuel = some (.ok () next)) (later : StepsTo next last) :
    StepsTo m last

namespace StepsTo

variable {last : StandardMachine}

theorem trans (first : StepsTo m next) (second : StepsTo next last) : StepsTo m last := by
  induction first with
  | refl m => exact second
  | step running stepped later ih => exact .step running stepped (ih second)

theorem single (running : m.mode ≠ .halt)
    (stepped : m.step Primitive.handler fuel = some (.ok () next)) : StepsTo m next :=
  .step running stepped (.refl next)

theorem of_tick (running : m.mode ≠ .halt)
    (ticked : m.tick Primitive.handler = some (.ok () next)) (low : next.depth ≤ m.depth) :
    StepsTo m next :=
  single running ((step_of_tick ticked 0).trans (drain_of_low low 0))

/-- A tick that enters a word is a step, when the word comes to its end. -/
theorem of_reaches (running : m.mode ≠ .halt)
    (ticked : m.tick Primitive.handler = some (.ok () next))
    (reaches : Reaches m.depth next last) (low : last.depth ≤ m.depth) : StepsTo m last := by
  obtain ⟨fuel, drained⟩ := reaches.exists_drain (drain_of_low low 0)
  exact single running ((step_of_tick ticked fuel).trans drained)

theorem exists_runToHalt_iff (h : StepsTo m last) :
    (∃ fuel, m.runToHalt Primitive.handler fuel = some outcome) ↔
      ∃ fuel, last.runToHalt Primitive.handler fuel = some outcome := by
  induction h with
  | refl m => exact Iff.rfl
  | @step m next last fuel running stepped later ih =>
    rw [← ih]
    constructor
    · rintro ⟨count, ran⟩
      cases count with
      | zero =>
        rw [runToHalt_zero running] at ran
        cases ran
      | succ count =>
        refine ⟨count, ?_⟩
        cases again : m.step Primitive.handler count with
        | none =>
          rw [runToHalt_of_none running again] at ran
          cases ran
        | some first =>
          cases step_unique again stepped
          rw [runToHalt_of_step running again] at ran
          exact ran
    · rintro ⟨count, ran⟩
      refine ⟨fuel + count + 1, ?_⟩
      rw [runToHalt_of_step running (step_add stepped count), Nat.add_comm]
      exact runToHalt_add ran fuel

/-- A run that ends has come by steps to a halt, or to a step that fails. -/
theorem of_runToHalt (ran : m.runToHalt Primitive.handler fuel = some outcome) :
    ∃ last, StepsTo m last ∧ ((last.mode = .halt ∧ outcome = .ok () last) ∨
      ∃ fuel fault failed, last.step Primitive.handler fuel = some (.error fault failed) ∧
        outcome = .error fault failed) := by
  induction fuel generalizing m with
  | zero =>
    by_cases halted : m.mode = .halt
    · rw [runToHalt_of_halted halted] at ran
      exact ⟨m, .refl m, .inl ⟨halted, (Option.some.inj ran).symm⟩⟩
    · rw [runToHalt_zero halted] at ran
      cases ran
  | succ fuel ih =>
    by_cases halted : m.mode = .halt
    · rw [runToHalt_of_halted halted] at ran
      exact ⟨m, .refl m, .inl ⟨halted, (Option.some.inj ran).symm⟩⟩
    · cases stepped : m.step Primitive.handler fuel with
      | none =>
        rw [runToHalt_of_none halted stepped] at ran
        cases ran
      | some first =>
        cases first with
        | ok _ next =>
          rw [runToHalt_of_step halted stepped] at ran
          obtain ⟨last, steps, ending⟩ := ih ran
          exact ⟨last, .step halted stepped steps, ending⟩
        | error fault failed =>
          rw [runToHalt_of_fault halted stepped] at ran
          exact ⟨m, .refl m, .inr ⟨fuel, fault, failed, stepped, (Option.some.inj ran).symm⟩⟩

theorem runToHalt (h : StepsTo m last) (halted : last.mode = .halt) :
    ∃ fuel, m.runToHalt Primitive.handler fuel = some (.ok () last) :=
  h.exists_runToHalt_iff.mpr ⟨0, runToHalt_of_halted halted 0⟩

end StepsTo
end Machine
end ResumableForth
