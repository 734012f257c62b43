import ResumableForth.Proofs.Draining

/-! Calls by recursion. The evaluator here runs a compiled word the way calls are usually explained:
it keeps what the caller was reading, evaluates the body inside to its end, and puts the caller's
input back, also when the body has failed. The machine only holds the names of the running words and
how far they have been read, which faults report. A step of the machine, which enters and leaves words
one tick at a time, comes to the same as this evaluator does. -/
namespace ResumableForth
namespace Machine

/-- The machine inside a word. Nothing of the caller is in it but its name. -/
def within (name : String) (tokens : List String) (m : StandardMachine) : StandardMachine :=
  { m.record fun m => .wordEntered name (m.depth + 1) with
    input := tokens
    cursor := 0
    mode := .execute
    frames := ⟨name, 0, [], 0, .execute⟩ :: m.frames
    room := m.room - 1 }

/-- The machine of a callee, with everything put back that the caller was doing. -/
def backTo (caller : StandardMachine) (name : String) (m : StandardMachine) : StandardMachine :=
  { m.record fun _ => .wordLeft name caller.depth with
    input := caller.input
    cursor := caller.cursor
    mode := caller.mode
    frames := caller.frames
    room := caller.room }

def performBy (body : StandardMachine → Option (Outcome Primitive Unit)) (name : String)
    (word : Word Primitive) (m : StandardMachine) : Option (Outcome Primitive Unit) :=
  match word.body with
  | .native primitive => some (primitive.run m)
  | .compiled tokens =>
    if m.room = 0 then
      some (Action.fail (.nestedTooDeep name m.depthBound)
        (m.record fun m => .depthReached name m.depthBound))
    else (body (m.within name tokens)).map (Outcome.over (m.backTo name))

def obeyBy (body : StandardMachine → Option (Outcome Primitive Unit)) (token : String)
    (m : StandardMachine) : Option (Outcome Primitive Unit) :=
  match m.mode with
  | .execute =>
    match m.dictionary.find? token with
    | some word => performBy body token word m
    | none => some (Action.push (Value.literal token) m)
  | .compile =>
    match m.dictionary.find? token with
    | some word =>
      if word.immediate then performBy body token word m else some (Action.compile [token] m)
    | none => some (Action.compile [token] m)
  | .halt => some (Action.fail (.readWhileHalted token) m)

/-- Evaluates the tokens of a body one after the other, to its end or to the first failure. -/
def evaluateBody : Nat → StandardMachine → Option (Outcome Primitive Unit)
  | 0, _ => none
  | fuel + 1, m =>
    match m.token? with
    | none => some (.ok () m)
    | some token =>
      match obeyBy (evaluateBody fuel) token (m.read token) with
      | some (.ok _ next) => evaluateBody fuel next
      | other => other

def evaluate (fuel : Nat) (m : StandardMachine) : Option (Outcome Primitive Unit) :=
  match m.token? with
  | none => some (.ok () { m with mode := .halt })
  | some token => obeyBy (evaluateBody fuel) token (m.read token)

def grantBy (body : StandardMachine → Option (Outcome Primitive Unit)) (m : StandardMachine) :
    Request → Option (Outcome Primitive Unit)
  | .act action => some (action m)
  | .call name tokens =>
    if m.room = 0 then some (m.call name tokens)
    else (body (m.within name tokens)).map (Outcome.over (m.backTo name))

theorem performBy_eq_grantBy (body : StandardMachine → Option (Outcome Primitive Unit))
    (name : String) (word : Word Primitive) (m : StandardMachine) :
    performBy body name word m = m.grantBy body (word.request name) := by
  rw [performBy, Word.request]
  cases word.body with
  | native primitive => rfl
  | compiled tokens =>
    simp only [grantBy, call]
    split <;> rfl

theorem obeyBy_eq_grantBy (body : StandardMachine → Option (Outcome Primitive Unit))
    (token : String) (m : StandardMachine) :
    obeyBy body token m = m.grantBy body (m.request token) := by
  rw [obeyBy, request]
  cases m.mode with
  | execute =>
    cases m.dictionary.find? token with
    | none => rfl
    | some word => exact performBy_eq_grantBy body token word m
  | compile =>
    cases m.dictionary.find? token with
    | none => rfl
    | some word =>
      by_cases immediate : word.immediate = true
      · simp only [immediate, if_true, performBy_eq_grantBy]
      · simp only [immediate]
        rfl
  | halt => rfl

end Machine

def Frame.bare (frame : Frame) : Frame := ⟨frame.word, frame.reached, [], 0, .execute⟩

def bareVeil : Veil where
  frames := List.map Frame.bare
  room := id
  journal := id
  calls fs := by simp [Function.comp_def, Frame.bare]
  reach index fs := by cases fs <;> rfl
  record _ _ := rfl

namespace Machine

def bare (m : StandardMachine) : StandardMachine := bareVeil.cover m

theorem bare_of_idle {m : StandardMachine} (idle : m.frames = []) : m.bare = m := by
  cases m
  cases idle
  rfl

@[simp] theorem depth_bare (m : StandardMachine) : m.bare.depth = m.depth := List.length_map _

@[simp] theorem token?_bare (m : StandardMachine) : m.bare.token? = m.token? := rfl

@[simp] theorem request_bare (token : String) (m : StandardMachine) :
    m.bare.request token = m.request token := rfl

theorem read_bare (token : String) (m : StandardMachine) :
    m.bare.read token = (m.read token).bare := by
  have moved : m.bare.moveTo (m.cursor + 1) = (m.moveTo (m.cursor + 1)).bare :=
    bareVeil.moveTo_cover _ m
  change (m.bare.moveTo (m.cursor + 1)).record _ = _
  rw [moved, record, depth_bare]
  rfl

theorem bare_enter (name : String) (tokens : List String) (m : StandardMachine) :
    (m.enter name tokens).bare = m.bare.within name tokens := by
  rw [within, record, depth_bare]
  rfl

theorem bare_call_of_full {name : String} {tokens : List String} {m : StandardMachine}
    (full : m.room = 0) : m.bare.call name tokens = Outcome.over bare (m.call name tokens) := by
  have bound : m.bare.depthBound = m.depthBound := by
    rw [depthBound, depth_bare]
    rfl
  have noted : (m.bare.record fun m => .depthReached name m.depthBound) =
      (m.record fun m => .depthReached name m.depthBound).bare := by
    rw [record, bound]
    rfl
  have full' : m.bare.room = 0 := full
  rw [call, call, if_pos full, if_pos full', noted, bound]
  exact bareVeil.fail_cover _ _

theorem leave_of_sameCallers {name : String} {tokens : List String} {m last : StandardMachine}
    (room : m.room ≠ 0) (same : SameCallers (m.enter name tokens) last) :
    last.leave.bare = m.bare.backTo name last.bare ∧ SameCallers m last.leave := by
  have kept : ∃ index, last.frames = ⟨name, index, m.input, m.cursor, m.mode⟩ :: m.frames :=
    same.cons rfl
  have more : last.room + 1 = m.room := by
    have left : last.room = m.room - 1 := same.room
    omega
  obtain ⟨index, frames⟩ := kept
  have left : last.leave =
      { last.record fun _ => .wordLeft name m.depth with
        input := m.input
        cursor := m.cursor
        mode := m.mode
        frames := m.frames
        room := m.room } := by
    rw [leave, frames]
    simp only [more]
    rfl
  rw [left]
  refine ⟨?_, rfl, rfl⟩
  rw [backTo, depth_bare]
  rfl

/-- Starting from one machine, ticks above a base come to what the evaluator says of a machine `m`: to
one with the callers of `m` that looks as the evaluator says, or to a tick that fails, and then
unwinding gives such a machine. -/
def Simulated (base : Nat) (m start : StandardMachine) : Outcome Primitive Unit → Prop
  | .ok _ seen => ∃ last, Reaches base start last ∧ SameCallers m last ∧ last.bare = seen
  | .error fault seen => ∃ last failed, Reaches base start last ∧ base < last.depth ∧
      last.tick Primitive.handler = some (.error fault failed) ∧
      SameCallers m (failed.unwind m.depth) ∧ (failed.unwind m.depth).bare = seen

namespace Simulated

variable {base : Nat} {m start next : StandardMachine} {outcome : Outcome Primitive Unit}

theorem of_reaches (reaches : Reaches base start next) (h : Simulated base m next outcome) :
    Simulated base m start outcome := by
  cases outcome with
  | ok _ seen =>
    obtain ⟨last, later, rest⟩ := h
    exact ⟨last, reaches.trans later, rest⟩
  | error fault seen =>
    obtain ⟨last, failed, later, rest⟩ := h
    exact ⟨last, failed, reaches.trans later, rest⟩

theorem of_sameCallers (same : SameCallers m next) (h : Simulated base next start outcome) :
    Simulated base m start outcome := by
  cases outcome with
  | ok _ seen =>
    obtain ⟨last, reaches, kept, looks⟩ := h
    exact ⟨last, reaches, same.trans kept, looks⟩
  | error fault seen =>
    obtain ⟨last, failed, reaches, above, ticked, kept, looks⟩ := h
    rw [same.depth] at kept looks
    exact ⟨last, failed, reaches, above, ticked, same.trans kept, looks⟩

theorem of_fault {fault : Fault} {failed : StandardMachine} (above : base < m.depth)
    (ticked : m.tick Primitive.handler = some (.error fault failed)) :
    Simulated base m m (.error fault failed.bare) := by
  have same := sameCallers_of_tick_error ticked
  have flat : failed.unwind m.depth = failed := unwind_of_le (Nat.le_of_eq same.depth)
  refine ⟨m, failed, .refl m, above, ticked, ?_, ?_⟩
  · rw [flat]
    exact same
  · rw [flat]

theorem back {name : String} {tokens : List String} (above : base < m.depth + 1)
    (room : m.room ≠ 0) (ended : ∀ seen, outcome = .ok () seen → seen.token? = none)
    (h : Simulated base (m.enter name tokens) (m.enter name tokens) outcome) :
    Simulated base m (m.enter name tokens) (Outcome.over (m.bare.backTo name) outcome) := by
  cases outcome with
  | ok _ seen =>
    obtain ⟨last, reaches, same, rfl⟩ := h
    obtain ⟨looks, kept⟩ := leave_of_sameCallers room same
    have inside : base < last.depth := by
      rw [same.depth]
      exact above
    have ticked : last.tick Primitive.handler = some (.ok () last.leave) := by
      have running : last.frames.isEmpty = false := by
        cases frames : last.frames with
        | nil => simp [depth, frames] at inside
        | cons frame frames => rfl
      have finished : last.token? = none := ended last.bare rfl
      rw [tick_of_end finished, exhaust, running]
      rfl
    exact ⟨last.leave, reaches.trans (.single inside ticked), kept, looks⟩
  | error fault seen =>
    obtain ⟨last, failed, reaches, inside, ticked, same, rfl⟩ := h
    obtain ⟨looks, kept⟩ := leave_of_sameCallers room same
    have left : failed.unwind m.depth = (failed.unwind (m.depth + 1)).leave := by
      rw [← unwind_unwind (Nat.le_succ m.depth) failed]
      exact unwind_succ_depth same.depth
    refine ⟨last, failed, reaches, inside, ticked, ?_, ?_⟩
    · rw [left]
      exact kept
    · rw [left]
      exact looks

end Simulated

/-- The first tick of a token, and what comes of it. -/
def FirstTick (base : Nat) (m : StandardMachine) (outcome : Outcome Primitive Unit) : Prop :=
  (∃ fault failed, m.tick Primitive.handler = some (.error fault failed) ∧
    outcome = .error fault failed.bare) ∨
  ∃ next, m.tick Primitive.handler = some (.ok () next) ∧ Simulated base m next outcome

section Tokens

variable {base fuel : Nat} {m : StandardMachine} {token : String}
  {outcome : Outcome Primitive Unit}

theorem FirstTick.simulated (above : base < m.depth) (h : FirstTick base m outcome) :
    Simulated base m m outcome := by
  rcases h with ⟨fault, failed, ticked, rfl⟩ | ⟨next, ticked, simulated⟩
  · exact .of_fault above ticked
  · exact .of_reaches (.single above ticked) simulated

theorem firstTick_of_act {action : Action Primitive Unit} (more : m.token? = some token)
    (asked : (m.read token).request token = .act action) :
    FirstTick base m (action (m.read token).bare) := by
  have covered : action (m.read token).bare = Outcome.over bare (action (m.read token)) :=
    (plain_of_request Value.closed_true asked).over_cover bareVeil _
  have ticked : m.tick Primitive.handler = some (action (m.read token)) := by
    rw [tick_of_token more, asked]
    rfl
  have same := (SameCallers.read token m).trans (sameCallers_of_act asked)
  rw [covered]
  cases acted : action (m.read token) with
  | ok _ next =>
    rw [acted] at ticked same
    exact .inr ⟨next, ticked, next, .refl next, same, rfl⟩
  | error fault failed =>
    rw [acted] at ticked
    exact .inl ⟨fault, failed, ticked, rfl⟩

theorem evaluateBody_ended {seen : StandardMachine}
    (h : evaluateBody fuel m = some (.ok () seen)) : seen.token? = none := by
  induction fuel generalizing m with
  | zero => cases h
  | succ fuel ih =>
    rw [evaluateBody] at h
    cases more : m.token? with
    | none =>
      rw [more] at h
      cases h
      exact more
    | some token =>
      simp only [more] at h
      cases obeyed : obeyBy (evaluateBody fuel) token (m.read token) with
      | none =>
        rw [obeyed] at h
        cases h
      | some first =>
        rw [obeyed] at h
        cases first with
        | ok _ next => exact ih h
        | error fault next => cases h

/-- A token, when bodies are simulated. A word may be entered only from above the base, or from
the base itself. -/
theorem firstTick_of_obeyBy (above : base ≤ m.depth) (more : m.token? = some token)
    (bodies : ∀ {m : StandardMachine} {outcome : Outcome Primitive Unit}, base < m.depth →
      evaluateBody fuel m.bare = some outcome → Simulated base m m outcome)
    (h : obeyBy (evaluateBody fuel) token (m.read token).bare = some outcome) :
    FirstTick base m outcome := by
  rw [obeyBy_eq_grantBy, request_bare] at h
  cases asked : (m.read token).request token with
  | act action =>
    rw [asked] at h
    cases h
    exact firstTick_of_act more asked
  | call name tokens =>
    have ticked : m.tick Primitive.handler = some ((m.read token).call name tokens) := by
      rw [tick_of_token more, asked]
      rfl
    rw [asked, grantBy] at h
    by_cases full : (m.read token).room = 0
    · have full' : (m.read token).bare.room = 0 := full
      rw [if_pos full', bare_call_of_full full] at h
      cases h
      rw [call, if_pos full] at ticked ⊢
      exact .inl ⟨_, _, ticked, rfl⟩
    · have room : (m.read token).bare.room ≠ 0 := full
      rw [if_neg room, ← bare_enter] at h
      obtain ⟨inner, evaluated, rfl⟩ := Option.map_eq_some_iff.mp h
      rw [call, if_neg full] at ticked
      have same := SameCallers.read token m
      have inside : base < (m.read token).depth + 1 := by
        rw [same.depth]
        exact Nat.lt_succ_of_le above
      have simulated := bodies (m := (m.read token).enter name tokens) inside evaluated
      refine .inr ⟨_, ticked, .of_sameCallers same ?_⟩
      refine simulated.back inside full ?_
      rintro seen rfl
      exact evaluateBody_ended evaluated

theorem entered_of_obeyBy_eq_none (more : m.token? = some token)
    (h : obeyBy (evaluateBody fuel) token (m.read token).bare = none) :
    ∃ name tokens,
      m.tick Primitive.handler = some (.ok () ((m.read token).enter name tokens)) ∧
      evaluateBody fuel ((m.read token).enter name tokens).bare = none := by
  rw [obeyBy_eq_grantBy, request_bare] at h
  cases asked : (m.read token).request token with
  | act action =>
    rw [asked] at h
    cases h
  | call name tokens =>
    rw [asked, grantBy] at h
    by_cases full : (m.read token).bare.room = 0
    · rw [if_pos full] at h
      cases h
    · rw [if_neg full, ← bare_enter, Option.map_eq_none_iff] at h
      have room : (m.read token).room ≠ 0 := full
      refine ⟨name, tokens, ?_, h⟩
      rw [tick_of_token more, asked]
      change some ((m.read token).call name tokens) = _
      rw [call, if_neg room]

/-- Bodies are simulated: by induction on the fuel, as each token leaves the callers alone. -/
theorem simulated_of_evaluateBody (above : base < m.depth)
    (h : evaluateBody fuel m.bare = some outcome) : Simulated base m m outcome := by
  induction fuel generalizing m outcome with
  | zero => cases h
  | succ fuel ih =>
    rw [evaluateBody, token?_bare] at h
    cases more : m.token? with
    | none =>
      rw [more] at h
      cases h
      exact ⟨m, .refl m, .refl m, rfl⟩
    | some token =>
      simp only [more, read_bare] at h
      cases obeyed : obeyBy (evaluateBody fuel) token (m.read token).bare with
      | none =>
        rw [obeyed] at h
        cases h
      | some first =>
        have simulated := (firstTick_of_obeyBy (Nat.le_of_lt above) more ih obeyed).simulated above
        rw [obeyed] at h
        cases first with
        | ok _ seen =>
          obtain ⟨next, reaches, same, rfl⟩ := simulated
          have inside : base < next.depth := by
            rw [same.depth]
            exact above
          exact .of_reaches reaches (.of_sameCallers same (ih inside h))
        | error fault seen =>
          cases h
          exact simulated

theorem drain_eq_none_of_evaluateBody (above : base < m.depth)
    (h : evaluateBody fuel m.bare = none) : m.drain Primitive.handler base fuel = none := by
  induction fuel generalizing m with
  | zero => exact drain_zero_of_above above
  | succ fuel ih =>
    rw [evaluateBody, token?_bare] at h
    cases more : m.token? with
    | none =>
      rw [more] at h
      cases h
    | some token =>
      simp only [more, read_bare] at h
      cases obeyed : obeyBy (evaluateBody fuel) token (m.read token).bare with
      | none =>
        obtain ⟨name, tokens, ticked, unfinished⟩ := entered_of_obeyBy_eq_none more obeyed
        have inside : base < ((m.read token).enter name tokens).depth := by
          rw [depth_enter, (SameCallers.read token m).depth]
          exact Nat.lt_succ_of_lt above
        rw [drain_of_tick above ticked]
        exact ih inside unfinished
      | some first =>
        have tick := firstTick_of_obeyBy (Nat.le_of_lt above) more simulated_of_evaluateBody obeyed
        rw [obeyed] at h
        cases first with
        | ok _ seen =>
          rcases tick with ⟨_, _, _, impossible⟩ | ⟨next, ticked, last, reaches, same, rfl⟩
          · cases impossible
          · have inside : base < last.depth := by
              rw [same.depth]
              exact above
            rw [drain_of_tick above ticked]
            exact reaches.drain_eq_none (ih inside h)
        | error fault seen => cases h

end Tokens

theorem drain_of_simulated {m next : StandardMachine} (idle : m.frames = [])
    {outcome : Outcome Primitive Unit} (h : Simulated 0 m next outcome) :
    ∃ fuel, next.drain Primitive.handler 0 fuel = some outcome := by
  have bottom : m.depth = 0 := (frames_eq_nil_iff m).mp idle
  cases outcome with
  | ok _ seen =>
    obtain ⟨last, reaches, same, rfl⟩ := h
    have flat : last.depth = 0 := same.depth.trans bottom
    rw [bare_of_idle ((frames_eq_nil_iff last).mpr flat)]
    exact reaches.exists_drain (drain_of_low (Nat.le_of_eq flat) 0)
  | error fault seen =>
    obtain ⟨last, failed, reaches, above, ticked, same, rfl⟩ := h
    have flat : (failed.unwind m.depth).frames = [] := by
      rw [frames_eq_nil_iff, same.depth, bottom]
    rw [bare_of_idle flat, bottom]
    exact reaches.exists_drain (drain_of_fault above ticked 0)

theorem read_bare_of_idle {m : StandardMachine} (idle : m.frames = []) (token : String) :
    (m.read token).bare = m.read token := by
  rw [← read_bare, bare_of_idle idle]

/-- What the evaluator ends with, a step ends with. -/
theorem exists_step_of_evaluate {m : StandardMachine} (idle : m.frames = []) {fuel : Nat}
    {outcome : Outcome Primitive Unit} (h : m.evaluate fuel = some outcome) :
    ∃ fuel, m.step Primitive.handler fuel = some outcome := by
  have bottom : m.depth = 0 := (frames_eq_nil_iff m).mp idle
  rw [evaluate] at h
  cases more : m.token? with
  | none =>
    rw [more] at h
    cases h
    have halted : m.exhaust = { m with mode := .halt } := by rw [exhaust, idle]; rfl
    have low : m.exhaust.depth ≤ m.depth := by rw [halted]; exact Nat.le_refl _
    refine ⟨0, ?_⟩
    rw [step_of_tick (tick_of_end more), drain_of_low low, halted]
  | some token =>
    simp only [more] at h
    rw [← read_bare_of_idle idle] at h
    have tick : FirstTick 0 m outcome :=
      firstTick_of_obeyBy (Nat.zero_le _) more simulated_of_evaluateBody h
    rcases tick with ⟨fault, failed, ticked, rfl⟩ | ⟨next, ticked, simulated⟩
    · have flat : failed.frames = [] := by
        rw [frames_eq_nil_iff, (sameCallers_of_tick_error ticked).depth, bottom]
      exact ⟨0, by rw [step_of_fault ticked, bare_of_idle flat]⟩
    · obtain ⟨fuel, drained⟩ := drain_of_simulated idle simulated
      refine ⟨fuel, ?_⟩
      rw [step_of_tick ticked, bottom]
      exact drained

/-- What the evaluator does not end with some fuel, a step does not end with that fuel. -/
theorem step_eq_none_of_evaluate {m : StandardMachine} (idle : m.frames = []) {fuel : Nat}
    (h : m.evaluate fuel = none) : m.step Primitive.handler fuel = none := by
  have bottom : m.depth = 0 := (frames_eq_nil_iff m).mp idle
  rw [evaluate] at h
  cases more : m.token? with
  | none =>
    rw [more] at h
    cases h
  | some token =>
    simp only [more] at h
    rw [← read_bare_of_idle idle] at h
    obtain ⟨name, tokens, ticked, unfinished⟩ := entered_of_obeyBy_eq_none more h
    rw [step_of_tick ticked, bottom]
    exact drain_eq_none_of_evaluateBody (Nat.succ_pos _) unfinished

/-- The explicit frames implement calls by recursion: a step ends exactly when the evaluator ends on
that token, with the same outcome, and so with the same machine and the same fault. -/
theorem step_iff_evaluate {m : StandardMachine} (idle : m.frames = [])
    (outcome : Outcome Primitive Unit) :
    (∃ fuel, m.step Primitive.handler fuel = some outcome) ↔
      ∃ fuel, m.evaluate fuel = some outcome := by
  constructor
  · rintro ⟨fuel, stepped⟩
    cases evaluated : m.evaluate fuel with
    | none =>
      rw [step_eq_none_of_evaluate idle evaluated] at stepped
      cases stepped
    | some other =>
      obtain ⟨fuel', again⟩ := exists_step_of_evaluate idle evaluated
      rw [step_unique stepped again]
      exact ⟨fuel, evaluated⟩
  · rintro ⟨fuel, evaluated⟩
    exact exists_step_of_evaluate idle evaluated

/-- A machine with room for three words, about to call a word that calls itself behind a literal. -/
def falling : StandardMachine :=
  { start { natives := Primitive.lexicon, depthBound := 3 } with
    dictionary := ⟨Primitive.lexicon, ⟨[("FALL", .compiled true ["1", "FALL"])]⟩⟩
    input := ["FALL", "2"] }

/-- The third call inside the first is refused, with the three words running. -/
theorem step_iff_evaluate_falling :
    falling.frames = [] ∧ ∃ last,
      (∃ fuel, falling.evaluate fuel = some (.error ⟨.nestedTooDeep "FALL" 3,
        [⟨"FALL", 2⟩, ⟨"FALL", 2⟩, ⟨"FALL", 2⟩]⟩ last)) ∧
      ∃ fuel, falling.step Primitive.handler fuel = some (.error ⟨.nestedTooDeep "FALL" 3,
        [⟨"FALL", 2⟩, ⟨"FALL", 2⟩, ⟨"FALL", 2⟩]⟩ last) := by
  have evaluated : ∃ last, falling.evaluate 9 = some (.error ⟨.nestedTooDeep "FALL" 3,
      [⟨"FALL", 2⟩, ⟨"FALL", 2⟩, ⟨"FALL", 2⟩]⟩ last) := ⟨_, rfl⟩
  obtain ⟨last, evaluated⟩ := evaluated
  exact ⟨rfl, last, ⟨9, evaluated⟩, (step_iff_evaluate rfl _).mpr ⟨9, evaluated⟩⟩

end Machine
end ResumableForth
