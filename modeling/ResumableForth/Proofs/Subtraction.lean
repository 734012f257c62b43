import ResumableForth.Proofs.Callers
import ResumableForth.Proofs.ControlFlow
import ResumableForth.Proofs.Lockstep

/-! Words that call words, and subtraction. A token that works on values and output has one effect, in
whatever word it stands. A compiled word whose tokens have such effects has the effect of one token after
the other, up to the first failure, and needs room for one call more than its tokens do. So the effect of
a word is worked out from its body, and it is the same whether the word is read or called by its name.

The bootstrap library writes subtraction with such words: the second operand is multiplied by minus one
and added to the first. This gives the difference whenever it can be represented, but for the least
integer, which has no opposite. -/
namespace ResumableForth

namespace Machine

def held (m : StandardMachine) : Store × Dictionary Primitive := (⟨m.stack, m.output⟩, m.dictionary)

theorem held_leave (m : StandardMachine) : m.leave.held = m.held := by
  cases frames : m.frames with
  | nil => rw [leave_of_idle frames]
  | cons frame callers =>
    rw [leave, frames]
    rfl

theorem held_unwind (base : Nat) (m : StandardMachine) : (m.unwind base).held = m.held := by
  rw [unwind]
  induction m.depth - base with
  | zero => rfl
  | succ count ih =>
    rw [Nat.repeat, held_leave]
    exact ih

end Machine

namespace Dictionary

open Machine

variable {dictionary : Dictionary Primitive} {room : Nat} {token : String} {store : Store}
  {effect : Effect}

/-- A token has an effect on a store, wherever it is executed with room for so many calls. What is being
read and the words that there are stay as they are. -/
def Acts (dictionary : Dictionary Primitive) (room : Nat) (token : String) (store : Store)
    (effect : Effect) : Prop :=
  ∀ m : StandardMachine, m.held = (store, dictionary) → m.mode = .execute → room ≤ m.room →
    m.token? = some token →
    ∃ fuel outcome, m.step Primitive.handler fuel = some outcome ∧ outcome.effect = effect ∧
      outcome.machine.dictionary = dictionary ∧ Undisturbed (m.read token) outcome.machine

/-- Tokens have an effect one after the other, up to the first failure. -/
inductive ActsAll (dictionary : Dictionary Primitive) (room : Nat) :
    List String → Store → Effect → Prop
  | done (store : Store) : ActsAll dictionary room [] store (.ok () store)
  | next {token : String} {tokens : List String} {store between : Store} {effect : Effect}
    (first : dictionary.Acts room token store (.ok () between))
    (later : ActsAll dictionary room tokens between effect) :
    ActsAll dictionary room (token :: tokens) store effect
  | stop {token : String} {tokens : List String} {store after : Store} {kind : FaultKind}
    (failed : dictionary.Acts room token store (.error kind after)) :
    ActsAll dictionary room (token :: tokens) store (.error kind after)

theorem acts_leaf (natives : ∀ primitive, dictionary.Knows primitive) (leaf : dictionary.Leaf token)
    (room : Nat) (store : Store) :
    dictionary.Acts room token store (Program.leafEffect token store) := by
  rintro m ⟨⟩ mode - next
  have held : m.read token = (m.read token).withStore m.stack m.output := rfl
  have mode' : (m.read token).mode = .execute := mode
  rw [Program.leafEffect]
  cases named : Primitive.localNamed? token with
  | some primitive =>
    obtain ⟨isLocal, rfl⟩ := Primitive.localNamed?_eq_some named
    have found : (m.read primitive.entry.1).dictionary.find? primitive.entry.1 =
        some (primitive.named id).2 := natives primitive
    have asked : (m.read primitive.entry.1).request primitive.entry.1 = .act primitive.run := by
      rw [request, mode', found]
      rfl
    refine ⟨0, _, step_of_act next asked 0, ?_⟩
    have both := (Action.Composed.ofLocal Value.closed_true.stable isLocal).sameEffect
      (start { natives := Primitive.lexicon }) (m.read primitive.entry.1) m.stack m.output
    rw [← held] at both
    change SameEffect _ _ (primitive.run (Store.machine ⟨m.stack, m.output⟩)) _ at both
    change _ = Outcome.effect (primitive.run (Store.machine ⟨m.stack, m.output⟩)) ∧ _
    generalize primitive.run (Store.machine ⟨m.stack, m.output⟩) = alone at both
    generalize primitive.run (m.read primitive.entry.1) = outcome at both
    cases both with
    | ok _ stack output => exact ⟨rfl, rfl, rfl, rfl, rfl, rfl, rfl⟩
    | error fault fault' same stack output =>
      exact ⟨congrArg (EStateM.Result.error · _) same.symm, rfl, rfl, rfl, rfl, rfl, rfl⟩
  | none =>
    have unknown : (m.read token).dictionary.find? token = none := by
      rcases leaf with ⟨primitive, isLocal, same⟩ | ⟨unknown, -⟩
      · exact absurd same (Primitive.entry_ne_of_localNamed? named isLocal)
      · exact unknown
    have asked : (m.read token).request token = .act (Action.push (Value.literal token)) := by
      rw [request, mode', unknown]
    exact ⟨0, _, step_of_act next asked 0, rfl, rfl, rfl, rfl, rfl, rfl, rfl⟩

/-- The rest of a running word is read to its end or to the first failure. The induction is on the tokens
that are left. -/
theorem ActsAll.exists_drain {tokens : List String}
    (acts : dictionary.ActsAll room tokens store effect) {m : StandardMachine} {base : Nat}
    (held : m.held = (store, dictionary)) (mode : m.mode = .execute) (enough : room ≤ m.room)
    (inside : m.depth = base + 1) (rest : m.input.drop m.cursor = tokens) :
    ∃ fuel outcome, m.drain Primitive.handler base fuel = some outcome ∧ outcome.effect = effect ∧
      outcome.machine.dictionary = dictionary := by
  induction acts generalizing m with
  | done store =>
    have next : m.token? = none := List.getElem?_eq_none (List.drop_eq_nil_iff.mp rest)
    obtain ⟨same, words⟩ := Prod.mk.inj ((held_leave m).trans held)
    exact ⟨1, _, drain_of_end inside next, congrArg (EStateM.Result.ok ()) same, words⟩
  | @next token tokens store between effect first later ih =>
    have above : base < m.depth := inside ▸ Nat.lt_succ_self base
    have next : m.token? = some token := getElem?_of_drop rest
    obtain ⟨fuel, outcome, stepped, same, words, back⟩ := first m held mode enough next
    cases outcome with
    | error fault failed => cases same
    | ok _ onward =>
      rw [Outcome.machine_ok] at words back
      have held' : onward.held = (between, dictionary) :=
        Prod.ext (EStateM.Result.ok.inj same).2 words
      have depth : onward.depth = base + 1 := by
        rw [back.depth, (SameCallers.read token m).depth, inside]
      have room' : room ≤ onward.room := by
        rw [back.room]
        exact enough
      have rest' : onward.input.drop onward.cursor = tokens := by
        rw [back.input, back.cursor]
        exact drop_succ_of_drop rest
      obtain ⟨fuel', ending, drained, same⟩ := ih held' (back.mode.trans mode) room' depth rest'
      obtain ⟨fuel, drained⟩ := exists_drain_of_step above stepped ⟨fuel', drained⟩
      exact ⟨fuel, ending, drained, same⟩
  | @stop token tokens store after kind failed =>
    have above : base < m.depth := inside ▸ Nat.lt_succ_self base
    have next : m.token? = some token := getElem?_of_drop rest
    obtain ⟨fuel, outcome, stepped, same, words, -⟩ := failed m held mode enough next
    cases outcome with
    | ok _ onward => cases same
    | error fault last =>
      obtain ⟨fuel, drained⟩ := exists_drain_of_step_error above stepped
      obtain ⟨store', words'⟩ := Prod.mk.inj (held_unwind base last)
      refine ⟨fuel, _, drained, ?_, words'.trans words⟩
      rw [← same]
      exact congrArg (EStateM.Result.error fault.kind) store'

theorem ActsAll.last (acts : dictionary.Acts room token store effect) :
    dictionary.ActsAll room [token] store effect := by
  cases effect with
  | ok _ after => exact .next acts (.done after)
  | error kind after => exact .stop acts

theorem ActsAll.exists_settle {body : List String} (acts : dictionary.ActsAll room body store effect)
    {caller : StandardMachine} (held : caller.held = (store, dictionary))
    (enough : room + 1 ≤ caller.room) (name : String) :
    ∃ fuel outcome, settle Primitive.handler fuel caller.depth (some (caller.call name body)) =
      some outcome ∧ outcome.effect = effect ∧ outcome.machine.dictionary = dictionary := by
  have free : caller.room ≠ 0 := Nat.ne_of_gt (Nat.lt_of_lt_of_le (Nat.succ_pos room) enough)
  rw [call, if_neg free]
  exact acts.exists_drain (m := caller.enter name body) held rfl (Nat.le_sub_one_of_lt enough) rfl rfl

/-- A compiled word has the effect of its body, with room for one call more. -/
theorem acts_compiled {name : String} {immediate : Bool} {body : List String}
    (found : dictionary.find? name = some (.compiled immediate body))
    (acts : dictionary.ActsAll room body store effect) :
    dictionary.Acts (room + 1) name store effect := by
  rintro m held mode enough next
  have held' : (m.read name).held = (store, dictionary) := held
  obtain ⟨fuel, outcome, settled, same, words⟩ := acts.exists_settle held' enough name
  obtain ⟨-, rfl⟩ := Prod.mk.inj held
  have mode' : (m.read name).mode = .execute := mode
  have found' : (m.read name).dictionary.find? name = some (.compiled immediate body) := found
  have stepped : m.step Primitive.handler fuel = some outcome := by
    rw [step, tick_of_token next, request, mode', found', ← (SameCallers.read name m).depth]
    exact settled
  exact ⟨fuel, outcome, stepped, same, words,
    undisturbed_of_step next found rfl (.inl mode) stepped⟩

end Dictionary

def Store.withInt (store : Store) : Option Int64 → Effect
  | some n => .ok () { store with stack := .int n :: store.stack }
  | none => .error .arithmetic store

namespace Program

theorem leafEffect_times (a b : Int64) (store : Store) :
    leafEffect "*" ⟨.int b :: .int a :: store.stack, store.output⟩ =
      store.withInt (Decimal.int64? (a.toInt * b.toInt)) := by
  have named : Primitive.localNamed? "*" = some .times := by decide
  rw [leafEffect, named]
  change Outcome.effect (Action.pushInt "*" (Decimal.int64? (a.toInt * b.toInt)) store.machine) = _
  cases Decimal.int64? (a.toInt * b.toInt) <;> rfl

theorem leafEffect_plus (a b : Int64) (store : Store) :
    leafEffect "+" ⟨.int b :: .int a :: store.stack, store.output⟩ =
      store.withInt (Decimal.int64? (a.toInt + b.toInt)) := by
  have named : Primitive.localNamed? "+" = some .plus := by decide
  rw [leafEffect, named]
  change Outcome.effect (Action.pushInt "+" (Decimal.int64? (a.toInt + b.toInt)) store.machine) = _
  cases Decimal.int64? (a.toInt + b.toInt) <;> rfl

theorem leafEffect_minusOne (store : Store) :
    leafEffect "-1" store = .ok () { store with stack := .int (-1) :: store.stack } := by
  have named : Primitive.localNamed? "-1" = none := by decide
  have literal : Value.literal "-1" = .int (-1) := by decide +kernel
  rw [leafEffect, named, literal]

end Program

/-- What subtraction comes to: the difference, or a failure if the second operand is the least integer or
the difference is out of range. -/
def IsDifference (a b : Int64) (store : Store) : Effect → Prop
  | .ok _ after => b ≠ Int64.minValue ∧
    ∃ d : Int64, d.toInt = a.toInt - b.toInt ∧ after = { store with stack := .int d :: store.stack }
  | .error kind _ => (b = Int64.minValue ∨ ∀ d : Int64, d.toInt ≠ a.toInt - b.toInt) ∧
    kind = .arithmetic

namespace Dictionary

variable {dictionary : Dictionary Primitive}

structure Subtracts (dictionary : Dictionary Primitive) : Prop where
  natives : ∀ primitive, dictionary.Knows primitive
  negate : dictionary.find? "NEGATE" = some (.compiled false ["-1", "*"])
  subtract : dictionary.find? "-" = some (.compiled false ["NEGATE", "+"])
  literal : dictionary.find? "-1" = none

theorem Subtracts.of_extends (extension : dictionary.Extends bootstrapped)
    (literal : dictionary.find? "-1" = none) : dictionary.Subtracts where
  natives primitive := extension _ _ (knows_bootstrapped primitive)
  negate := extension _ _ (by decide +kernel)
  subtract := extension _ _ (by decide +kernel)
  literal := literal

theorem Subtracts.acts_negate (h : dictionary.Subtracts) (b : Int64) (store : Store) :
    dictionary.Acts 1 "NEGATE" { store with stack := .int b :: store.stack }
      (store.withInt (Decimal.int64? (-b.toInt))) := by
  have one : dictionary.Leaf "-1" := .inr ⟨h.literal, by decide⟩
  have times : dictionary.Leaf "*" := .inl ⟨.times, rfl, rfl⟩
  have first := acts_leaf h.natives one 0 { store with stack := .int b :: store.stack }
  have second := acts_leaf h.natives times 0
    { store with stack := .int (-1) :: .int b :: store.stack }
  have opposite : b.toInt * (-1 : Int64).toInt = -b.toInt := Int.mul_neg_one b.toInt
  rw [Program.leafEffect_minusOne] at first
  rw [Program.leafEffect_times, opposite] at second
  exact acts_compiled h.negate (.next first (.last second))

/-- The body of the word negates the second operand and adds it to the first. -/
theorem Subtracts.exists_actsAll (h : dictionary.Subtracts) (a b : Int64) (store : Store) :
    ∃ effect, IsDifference a b store effect ∧
      dictionary.ActsAll 1 ["NEGATE", "+"]
        { store with stack := .int b :: .int a :: store.stack } effect := by
  have negated := h.acts_negate b { store with stack := .int a :: store.stack }
  cases opposite : Decimal.int64? (-b.toInt) with
  | none =>
    rw [opposite] at negated
    have least := (Decimal.int64?_neg_eq_none_iff b).mp opposite
    refine ⟨_, ?_, .stop negated⟩
    exact ⟨.inl least, rfl⟩
  | some n =>
    rw [opposite] at negated
    have notLeast : b ≠ Int64.minValue := by
      rw [Ne, ← Decimal.int64?_neg_eq_none_iff, opposite]
      exact Option.some_ne_none n
    have plus : dictionary.Leaf "+" := .inl ⟨.plus, rfl, rfl⟩
    have added := acts_leaf h.natives plus 1
      { store with stack := .int n :: .int a :: store.stack }
    have sum : a.toInt + n.toInt = a.toInt - b.toInt := by
      rw [Decimal.int64?_eq_some_iff.mp opposite, Int.sub_eq_add_neg]
    rw [Program.leafEffect_plus, sum] at added
    refine ⟨_, ?_, .next negated (.last added)⟩
    cases difference : Decimal.int64? (a.toInt - b.toInt) with
    | none => exact ⟨.inr (Decimal.int64?_eq_none_iff.mp difference), rfl⟩
    | some d => exact ⟨notLeast, d, Decimal.int64?_eq_some_iff.mp difference, rfl⟩

end Dictionary

namespace Machine

/-- Subtraction after the bootstrap library. When none of its words and none of the native words has
another meaning, when minus one is still a literal, and when two more words may run, the word leaves the
difference of two integers, whatever lies beneath them. It fails for arithmetic exactly when the
difference is out of range or the second operand is the least integer. It makes no difference whether the
word is read or called by its name, and in which word that happens. -/
theorem subtraction_but_for_least {host : Host Primitive}
    (standard : host.natives = Primitive.lexicon) :
    ∃ fuel ready, (start host).interpret Primitive.handler fuel prelude = some (.ok () ready) ∧
      ready.dictionary = bootstrapped ∧
      ∀ m : StandardMachine, m.dictionary.Extends ready.dictionary →
        m.dictionary.find? "-1" = none → 2 ≤ m.room →
      ∀ (a b : Int64) (stack : List Value), m.stack = .int b :: .int a :: stack →
        (m.mode = .execute → m.token? = some "-" →
          ∃ fuel outcome, m.step Primitive.handler fuel = some outcome ∧
            IsDifference a b ⟨stack, m.output⟩ outcome.effect) ∧
        ∃ fuel outcome, m.invoke Primitive.handler fuel "-" = some outcome ∧
          IsDifference a b ⟨stack, m.output⟩ outcome.effect := by
  obtain ⟨fuel, ready, ran, same⟩ := interpret_prelude standard
  have words : ready.dictionary = bootstrapped := congrArg Machine.dictionary same
  refine ⟨fuel, ready, ran, words, ?_⟩
  intro m extension literal room a b stack top
  rw [words] at extension
  have subtracts := Dictionary.Subtracts.of_extends extension literal
  obtain ⟨effect, difference, acts⟩ := subtracts.exists_actsAll a b ⟨stack, m.output⟩
  have held : m.held =
      ({ stack := .int b :: .int a :: stack, output := m.output }, m.dictionary) := by
    rw [Machine.held, top]
  constructor
  · intro mode next
    obtain ⟨fuel, outcome, stepped, rfl, -⟩ :=
      Dictionary.acts_compiled subtracts.subtract acts m held mode room next
    exact ⟨fuel, outcome, stepped, difference⟩
  · obtain ⟨fuel, outcome, settled, rfl, -⟩ := acts.exists_settle held room "-"
    refine ⟨fuel, outcome, ?_, difference⟩
    rw [invoke, dispatch, subtracts.subtract]
    exact settled

/-- A machine that is about to subtract, and that may run two words. -/
def subtracting (dictionary : Dictionary Primitive) (a b : Int64) : StandardMachine :=
  { booted dictionary with stack := [.int b, .int a], input := ["-"], room := 2 }

theorem subtraction_but_for_least_reached :
    ∃ fuel outcome,
      (subtracting bootstrapped (-1) Int64.maxValue).step Primitive.handler fuel = some outcome ∧
        outcome.effect = .ok () ⟨[.int Int64.minValue], ""⟩ := by
  have standard : ({ natives := Primitive.lexicon } : Host Primitive).natives = Primitive.lexicon := rfl
  obtain ⟨_, ready, -, words, subtracts⟩ := subtraction_but_for_least standard
  have extension : (subtracting bootstrapped (-1) Int64.maxValue).dictionary.Extends ready.dictionary :=
    fun _ _ found => words ▸ found
  have literal : bootstrapped.find? "-1" = none := by decide +kernel
  obtain ⟨reads, -⟩ := subtracts (subtracting bootstrapped (-1) Int64.maxValue) extension literal
    (Nat.le_refl 2) (-1) Int64.maxValue [] rfl
  obtain ⟨fuel, outcome, stepped, difference⟩ := reads rfl rfl
  refine ⟨fuel, outcome, stepped, ?_⟩
  cases ended : outcome.effect with
  | ok _ after =>
    rw [ended] at difference
    obtain ⟨-, d, exact, rfl⟩ := difference
    obtain rfl : d = Int64.minValue := Int64.toInt_inj.mp (exact.trans (by decide))
    rfl
  | error kind after =>
    rw [ended] at difference
    rcases difference.1 with least | outside
    · exact absurd least (by decide)
    · exact absurd (by decide) (outside Int64.minValue)

/-- The difference of minus one and the least integer can be represented, but subtraction fails. -/
theorem subtraction_fails_for_least :
    (∃ d : Int64, d.toInt = (-1 : Int64).toInt - Int64.minValue.toInt) ∧
      ∃ fault last, (subtracting bootstrapped (-1) Int64.minValue).step Primitive.handler 9 =
        some (.error fault last) ∧ fault.kind = .arithmetic :=
  ⟨⟨Int64.maxValue, by decide⟩, _, _, rfl, rfl⟩

example : ∃ last,
    { subtracting (bootstrapped.define "-1" (.compiled false ["5"])) 10 3 with room := 3 }.step
      Primitive.handler 9 = some (.ok () last) ∧ last.stack = [.int 25] :=
  ⟨_, rfl, rfl⟩

end Machine
end ResumableForth
