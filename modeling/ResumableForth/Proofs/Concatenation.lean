import ResumableForth.Proofs.Placement

/-! Programs in pieces. A text that is run to its end and then another one come to the same as both in one
text. The run of the first goes alongside the run of both until its last token; what is left then is the
second text, behind the first, and its run goes alongside to the end. The mode has to be the one that a
new input starts with, and what looks beyond the end of the first text or counts from its beginning is
excluded. -/
namespace ResumableForth

namespace Text

theorem tokens_lines (first second : String) :
    tokens (first ++ "\n" ++ second) = tokens first ++ tokens second :=
  tokens_append_gap (by decide) (by decide) first second

end Text

namespace Machine

variable {front back tokens : List String} {m : StandardMachine}

/-- No branch is run at the outermost level. -/
def Straight (m : StandardMachine) : Prop :=
  ∀ last, StepsTo m last → last.native? ≠ some .branch ∧ last.native? ≠ some .branchUnless

theorem Straight.of_check (fuel : Nat) (checked : m.checkRun (fun last => decide
    (last.native? ≠ some .branch ∧ last.native? ≠ some .branchUnless)) fuel = true) : m.Straight :=
  fun _ steps => of_decide_eq_true (check_of_stepsTo steps checked)

theorem Straight.step {next : StandardMachine} {fuel : Nat} (straight : m.Straight)
    (running : m.mode ≠ .halt) (stepped : m.step Primitive.handler fuel = some (.ok () next)) :
    next.Straight :=
  fun last later => straight last (.step running stepped later)

theorem runToHalt_placed (outer : m.Outermost tokens) (straight : m.Straight) (fuel : Nat) :
    Alongside front [] (m.runToHalt Primitive.handler fuel)
      ((m.placed front []).runToHalt Primitive.handler fuel) := by
  have running : (m.placed front []).mode ≠ .halt := (harmless_placed front []).mode m ▸ outer.running
  induction fuel generalizing m with
  | zero =>
    rw [runToHalt_zero outer.running, runToHalt_zero running]
    rfl
  | succ fuel ih =>
    have along : Alongside front [] (m.step Primitive.handler fuel)
        ((m.placed front []).step Primitive.handler fuel) :=
      step_placed outer (fun _ => rfl) (straight m (.refl m)) (fun _ _ => by simp) fuel
    cases stepped : m.step Primitive.handler fuel with
    | none =>
      rw [stepped] at along
      rw [runToHalt_of_none outer.running stepped, runToHalt_of_none running along]
      rfl
    | some outcome =>
      rw [stepped] at along
      cases outcome with
      | ok _ next =>
        rw [runToHalt_of_step outer.running stepped, runToHalt_of_step running along]
        cases token : m.token? with
        | none =>
          rw [step_of_end outer.idle token] at stepped
          cases stepped
          have halted := (harmless_placed front []).mode { m with mode := .halt }
          rw [runToHalt_of_halted rfl, runToHalt_of_halted halted]
          rfl
        | some token =>
          have outer' := outer.step ‹_› stepped
          exact ih outer' (straight.step outer.running stepped)
            ((harmless_placed front []).mode next ▸ outer'.running)
      | error fault next =>
        obtain ⟨fault', kind, calls, failed⟩ := along rfl
        rw [runToHalt_of_fault outer.running stepped, runToHalt_of_fault running failed]
        exact fun _ => ⟨fault', kind, calls, rfl⟩

theorem StepsTo.eq_of_halted {last : StandardMachine} (steps : StepsTo m last) (halted : m.mode = .halt) :
    last = m := by
  cases steps with
  | refl => rfl
  | step running => exact absurd halted running

/-- Until the last token has been evaluated, steps go alongside whatever follows. -/
theorem StepsTo.placed {last : StandardMachine} (steps : StepsTo m last) (outer : m.Outermost tokens)
    (running : last.mode ≠ .halt) (straight : m.Straight)
    (unmarked : ∀ x, StepsTo m x → x.native? = some .colon → x.cursor + 2 = tokens.length →
      back.head? ≠ some Action.immediateMark) :
    StepsTo (m.placed front back) (last.placed front back) := by
  induction steps with
  | refl m => exact .refl _
  | @step m next last fuel running' stepped later ih =>
    cases token : m.token? with
    | none =>
      rw [step_of_end outer.idle token] at stepped
      cases stepped
      rw [later.eq_of_halted rfl] at running
      exact absurd rfl running
    | some token =>
      have along : Alongside front back (m.step Primitive.handler fuel)
          ((m.placed front back).step Primitive.handler fuel) :=
        step_placed outer (by simp [*]) (straight m (.refl m)) (unmarked m (.refl m)) fuel
      rw [stepped] at along
      refine .step ((harmless_placed front back).mode m ▸ running') along ?_
      refine ih (outer.step ‹_› stepped) running (straight.step running' stepped) ?_
      exact fun x later => unmarked x (.step running' stepped later)

/-- A run that succeeds ends when all tokens have been read. -/
theorem exists_last_of_runToHalt {fuel : Nat} {halted : StandardMachine} (outer : m.Outermost tokens)
    (ran : m.runToHalt Primitive.handler fuel = some (.ok () halted)) :
    ∃ last, StepsTo m last ∧ last.Outermost tokens ∧ last.token? = none ∧
      halted = { last with mode := .halt } := by
  induction fuel generalizing m with
  | zero =>
    rw [runToHalt_zero outer.running] at ran
    cases ran
  | succ fuel ih =>
    cases stepped : m.step Primitive.handler fuel with
    | none =>
      rw [runToHalt_of_none outer.running stepped] at ran
      cases ran
    | some outcome =>
      cases outcome with
      | error fault next =>
        rw [runToHalt_of_fault outer.running stepped] at ran
        cases ran
      | ok _ next =>
        rw [runToHalt_of_step outer.running stepped] at ran
        cases token : m.token? with
        | none =>
          rw [step_of_end outer.idle token] at stepped
          cases stepped
          rw [runToHalt_of_halted rfl] at ran
          cases ran
          exact ⟨m, .refl m, outer, token, rfl⟩
        | some token =>
          obtain ⟨last, steps, rest⟩ := ih (outer.step ‹_› stepped) ran
          exact ⟨last, .step outer.running stepped steps, rest⟩

structure SameResult (m m' : StandardMachine) : Prop where
  stack : m'.stack = m.stack
  dictionary : m'.dictionary = m.dictionary
  openWord : m'.openWord = m.openWord
  output : m'.output = m.output
  mode : m'.mode = m.mode

/-- Two outcomes are successes, or failures of one kind with the same words running, and leave the same
behind. -/
inductive SameEnd : Outcome Primitive Unit → Outcome Primitive Unit → Prop
  | ok {m m' : StandardMachine} (same : SameResult m m') : SameEnd (.ok () m) (.ok () m')
  | error {fault fault' : Fault} {m m' : StandardMachine} (kind : fault'.kind = fault.kind)
    (calls : fault'.calls = fault.calls) (same : SameResult m m') :
    SameEnd (.error fault m) (.error fault' m')

theorem sameResult_placed (m : StandardMachine) : SameResult m (m.placed front back) := by
  rw [placed]
  split <;> exact ⟨rfl, rfl, rfl, rfl, rfl⟩

theorem Alongside.sameEnd {outcome : Outcome Primitive Unit} {second : Option (Outcome Primitive Unit)}
    (along : Alongside front [] (some outcome) second) :
    ∃ outcome', second = some outcome' ∧ SameEnd outcome outcome' := by
  cases outcome with
  | ok _ m => exact ⟨_, along, .ok (sameResult_placed m)⟩
  | error fault m =>
    obtain ⟨fault', kind, calls, failed⟩ := along rfl
    exact ⟨_, failed, .error kind calls (sameResult_placed m)⟩

theorem loadText_lines (idle : m.frames = []) (a b : String) :
    m.loadText (a ++ "\n" ++ b) = (m.loadText a).placed [] (Text.tokens b) := by
  have idle' : (m.loadText a).frames = [] := idle
  rw [placed_of_idle idle', loadText, Text.tokens_lines]
  simp [shifted, loadText, load]

theorem placed_of_end {last : StandardMachine} {a : String} (outer : last.Outermost (Text.tokens a))
    (ended : last.token? = none) (settled : last.mode = .compile ↔ last.openWord ≠ none) (b : String) :
    last.placed [] (Text.tokens b) =
      (({ last with mode := .halt } : StandardMachine).loadText b).placed (Text.tokens a) [] := by
  have cursor : last.cursor = (Text.tokens a).length := by
    have beyond : last.input.length ≤ last.cursor := List.getElem?_eq_none_iff.mp ended
    rw [outer.input] at beyond
    exact Nat.le_antisymm outer.inside beyond
  have mode : (if last.openWord.isSome then Mode.compile else .execute) = last.mode := by
    have running := outer.running
    cases opened : last.openWord <;> cases here : last.mode <;> simp_all
  have idle : (({ last with mode := .halt } : StandardMachine).loadText b).frames = [] := outer.idle
  rw [placed_of_idle outer.idle, placed_of_idle idle]
  simp [shifted, loadText, load, outer.input, cursor, mode]

/-- A text that is run to its end and then another one come to the same as both in one text. At the end of
the first text the machine has to compile just when a definition is open, its last word must not be a new
name that the second text marks as immediate, and no branch may be run at the outermost level. Then the
second run ends just when the run of both does, and in the same way. -/
theorem interpret_lines {m first : StandardMachine} {a b : String} {fuel : Nat} (idle : m.frames = [])
    (ran : m.interpret Primitive.handler fuel a = some (.ok () first))
    (settled : ∀ last, StepsTo (m.loadText a) last → last.mode ≠ .halt → last.token? = none →
      (last.mode = .compile ↔ last.openWord ≠ none))
    (unmarked : ∀ last, StepsTo (m.loadText a) last → last.native? = some .colon →
      last.cursor + 2 = (Text.tokens a).length → (Text.tokens b).head? ≠ some Action.immediateMark)
    (straight : (m.loadText a).Straight) (straight' : (first.loadText b).Straight) :
    (∀ fuel outcome, first.interpret Primitive.handler fuel b = some outcome →
      ∃ fuel' outcome', m.interpret Primitive.handler fuel' (a ++ "\n" ++ b) = some outcome' ∧
        SameEnd outcome outcome') ∧
    ∀ fuel outcome', m.interpret Primitive.handler fuel (a ++ "\n" ++ b) = some outcome' →
      ∃ fuel' outcome, first.interpret Primitive.handler fuel' b = some outcome ∧
        SameEnd outcome outcome' := by
  have start : (m.loadText a).Outermost (Text.tokens a) := .load idle _
  obtain ⟨last, steps, outer, ended, halted⟩ := exists_last_of_runToHalt start ran
  have idle' : first.frames = [] := by
    rw [halted]
    exact outer.idle
  have middle : StepsTo (m.loadText (a ++ "\n" ++ b)) ((first.loadText b).placed (Text.tokens a) []) := by
    rw [loadText_lines idle, halted, ← placed_of_end outer ended (settled last steps outer.running ended)]
    exact steps.placed start outer.running straight unmarked
  have along : ∀ fuel, Alongside (Text.tokens a) [] (first.interpret Primitive.handler fuel b)
      (((first.loadText b).placed (Text.tokens a) []).runToHalt Primitive.handler fuel) :=
    runToHalt_placed (.load idle' (Text.tokens b)) straight'
  constructor
  · intro fuel outcome ran
    have both := along fuel
    rw [ran] at both
    obtain ⟨outcome', ran', same⟩ := both.sameEnd
    obtain ⟨fuel', whole⟩ := middle.exists_runToHalt_iff.mpr ⟨fuel, ran'⟩
    exact ⟨fuel', outcome', whole, same⟩
  · intro fuel outcome' whole
    obtain ⟨fuel', ran'⟩ := middle.exists_runToHalt_iff.mp ⟨fuel, whole⟩
    have both := along fuel'
    cases ran : first.interpret Primitive.handler fuel' b with
    | none =>
      rw [ran] at both
      cases ran'.symm.trans both
    | some outcome =>
      rw [ran] at both
      obtain ⟨other, found, same⟩ := both.sameEnd
      cases ran'.symm.trans found
      exact ⟨fuel', outcome, ran, same⟩

def untouched : StandardMachine := start { natives := Primitive.lexicon }

/-- The first line ends behind the name of a new word, and the second goes on from there. It fails in its
last word, and so do both in one text. -/
theorem interpret_lines_twice :
    ∃ first fault last fuel fault' last',
      untouched.interpret Primitive.handler 9 "3 : TWICE" = some (.ok () first) ∧
      first.interpret Primitive.handler 20 "DUP + ; TWICE . TWICE" = some (.error fault last) ∧
      untouched.interpret Primitive.handler fuel ("3 : TWICE" ++ "\n" ++ "DUP + ; TWICE . TWICE") =
        some (.error fault' last') ∧
      fault'.kind = .stackUnderflow ∧ fault'.calls = [⟨"TWICE", 1⟩] ∧ last'.output = "6\n" := by
  have runs : ∃ first, untouched.interpret Primitive.handler 9 "3 : TWICE" = some (.ok () first) ∧
      (first.loadText "DUP + ; TWICE . TWICE").Straight ∧
      ∃ fault last, first.interpret Primitive.handler 20 "DUP + ; TWICE . TWICE" =
          some (.error fault last) ∧
        fault.kind = .stackUnderflow ∧ fault.calls = [⟨"TWICE", 1⟩] ∧ last.output = "6\n" :=
    ⟨_, rfl, .of_check 20 rfl, _, _, rfl, rfl, rfl, rfl⟩
  have settled : (untouched.loadText "3 : TWICE").checkRun (fun last => decide
      (last.mode ≠ .halt → last.token? = none → (last.mode = .compile ↔ last.openWord ≠ none))) 9 =
        true := rfl
  obtain ⟨first, ran, straight, fault, last, second, kind, calls, output⟩ := runs
  have both := interpret_lines rfl ran
    (fun last steps => of_decide_eq_true (check_of_stepsTo steps settled)) (fun _ _ _ _ => by decide)
    (.of_check 9 rfl) straight
  obtain ⟨fuel, outcome', whole, same⟩ := both.1 20 _ second
  cases same with
  | error kind' calls' same =>
    exact ⟨first, fault, last, fuel, _, _, ran, second, whole, kind'.trans kind, calls'.trans calls,
      same.output.trans output⟩

end Machine
end ResumableForth
