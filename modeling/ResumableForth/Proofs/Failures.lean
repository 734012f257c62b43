import ResumableForth.Proofs.Effects

/-! Why native words fail. The fault of a native word carries the words that were running when it failed,
and has to do with values, the input or the open definition. No native word finds a name unknown or the
machine halted, and none fails because too many words are running. -/
namespace ResumableForth

def FaultKind.isNative : FaultKind → Bool
  | .stackUnderflow | .typeMismatch | .assertionFailure | .branchTarget | .unterminatedComment
  | .unterminatedBlock | .arithmetic | .compileState => true
  | .unknownWord | .callDepthExceeded | .invalidMode | .codec | .inputOutput => false

structure Fault.IsNative {ν : Type} (fault : Fault) (m : Machine ν) : Prop where
  kind : fault.kind.isNative = true
  calls : fault.calls = m.calls

namespace Action

variable {ν α β : Type}

/-- No other faults are raised than those of native words. -/
def RaisesNative (action : Action ν α) : Prop :=
  ∀ m fault m', action m = .error fault m' → fault.IsNative m'

namespace RaisesNative

theorem pure (x : α) : RaisesNative (Pure.pure x : Action ν α) := by
  rintro m fault m' ⟨⟩

theorem get : RaisesNative (MonadState.get : Action ν (Machine ν)) := by
  rintro m fault m' ⟨⟩

theorem set (m : Machine ν) : RaisesNative (MonadStateOf.set m : Action ν PUnit) := by
  rintro m fault m' ⟨⟩

theorem fail {cause : Cause} (native : cause.kind.isNative = true) :
    RaisesNative (Action.fail cause : Action ν α) := by
  rintro m fault m' ⟨⟩
  exact ⟨native, rfl⟩

theorem bind {first : Action ν α} {next : α → Action ν β} (head : RaisesNative first)
    (tail : ∀ x, RaisesNative (next x)) : RaisesNative (first >>= next) := by
  intro m fault m' failed
  cases acted : first m with
  | ok x between =>
    rw [bind_of_ok acted] at failed
    exact tail x between fault m' failed
  | error other between =>
    rw [bind_of_error acted] at failed
    cases failed
    exact head m fault m' acted

theorem ite {condition : Prop} [Decidable condition] {first second : Action ν α}
    (yes : RaisesNative first) (no : RaisesNative second) :
    RaisesNative (if condition then first else second) := by
  split
  · exact yes
  · exact no

theorem op (operation : Op α) : RaisesNative (operation.exec : Action ν α) := by
  intro m fault m' failed
  cases operation with
  | pop =>
    simp only [Op.exec, Action.pop] at failed
    split at failed <;> cases failed
    exact ⟨rfl, rfl⟩
  | pick index =>
    simp only [Op.exec, Action.pick] at failed
    split at failed <;> cases failed
    exact ⟨rfl, rfl⟩
  | nextToken =>
    simp only [Op.exec, Action.nextToken] at failed
    split at failed <;> cases failed
  | jump index =>
    simp only [Op.exec, Action.jump] at failed
    split at failed <;> cases failed
    exact ⟨rfl, rfl⟩
  | beginDefinition name immediate =>
    simp only [Op.exec, Action.beginDefinition] at failed
    split at failed <;> cases failed
    exact ⟨rfl, rfl⟩
  | endDefinition =>
    simp only [Op.exec, Action.endDefinition] at failed
    split at failed <;> cases failed
    exact ⟨rfl, rfl⟩
  | here =>
    simp only [Op.exec, Action.here] at failed
    split at failed
    · cases failed
      exact ⟨rfl, rfl⟩
    · split at failed <;> cases failed
      exact ⟨rfl, rfl⟩
  | edit change =>
    simp only [Op.exec, Action.editDefinition] at failed
    split at failed
    · cases failed
      exact ⟨rfl, rfl⟩
    · split at failed <;> cases failed
      exact ⟨rfl, rfl⟩
  | push | write | values | look | setMode | notePatch | draw => cases failed

theorem pop : RaisesNative (Action.pop : Action ν Value) := op .pop

theorem pick (index : Nat) : RaisesNative (Action.pick index : Action ν Value) := op (.pick index)

theorem push (value : Value) : RaisesNative (Action.push value : Action ν Unit) := op (.push value)

theorem write (text : String) : RaisesNative (Action.write text : Action ν Unit) := op (.write text)

theorem nextToken : RaisesNative (Action.nextToken : Action ν (Option String)) := op .nextToken

theorem jump (index : Nat) : RaisesNative (Action.jump index : Action ν Unit) := op (.jump index)

theorem here : RaisesNative (Action.here : Action ν Nat) := op .here

theorem edit (change : List String → List String) :
    RaisesNative (Action.editDefinition change : Action ν Unit) :=
  op (.edit change)

theorem beginDefinition (name : String) (immediate : Bool) :
    RaisesNative (Action.beginDefinition name immediate : Action ν Unit) :=
  op (.beginDefinition name immediate)

theorem setMode (mode : Mode) : RaisesNative (Action.setMode mode : Action ν Unit) := by
  rintro m fault m' ⟨⟩

theorem popInt : RaisesNative (Action.popInt : Action ν Int64) := by
  refine bind pop fun value => ?_
  cases value with
  | int n => exact pure n
  | _ => exact fail rfl

theorem popBool : RaisesNative (Action.popBool : Action ν Bool) := by
  refine bind pop fun value => ?_
  cases value with
  | bool b => exact pure b
  | _ => exact fail rfl

theorem popOperands (word : String) :
    RaisesNative (Action.popOperands word : Action ν (Value × Value)) :=
  bind pop fun _ => bind pop fun _ => ite (pure _) (fail rfl)

theorem pushInt (word : String) (sum : Option Int64) :
    RaisesNative (Action.pushInt word sum : Action ν Unit) := by
  cases sum with
  | none => exact fail rfl
  | some n => exact push _

theorem pushFloat (word : String) (sum : Binary64) :
    RaisesNative (Action.pushFloat word sum : Action ν Unit) :=
  ite (push _) (fail rfl)

theorem patch (index : Nat) (token : String) :
    RaisesNative (Action.patch index token : Action ν Unit) :=
  bind here fun _ => ite (bind (op (.notePatch index token)) fun _ => edit _) (fail rfl)

theorem readUntil (closer : String) {missing : Cause} (native : missing.kind.isNative = true) :
    RaisesNative (Action.readUntil closer missing : Action ν (List String)) :=
  bind get fun _ => ite (bind (jump _) fun _ => pure _) (fail native)

theorem readTarget (word : String) : RaisesNative (Action.readTarget word : Action ν Nat) := by
  refine bind nextToken fun operand => ?_
  cases operand with
  | none => exact fail rfl
  | some operand =>
    dsimp only
    split
    · exact fail rfl
    · exact bind get fun _ => ite (pure _) (fail rfl)

theorem add : RaisesNative (Action.add : Action ν Unit) := by
  refine bind (popOperands "+") fun operands => ?_
  split
  · exact pushInt _ _
  · exact pushFloat _ _
  · exact push _
  · exact fail rfl

theorem multiply : RaisesNative (Action.multiply : Action ν Unit) := by
  refine bind (popOperands "*") fun operands => ?_
  split
  · exact pushInt _ _
  · exact pushFloat _ _
  · exact fail rfl

theorem divide : RaisesNative (Action.divide : Action ν Unit) := by
  refine bind (popOperands "/") fun operands => ?_
  split
  · exact pushInt _ _
  · exact pushFloat _ _
  · exact fail rfl

theorem askEqual : RaisesNative (Action.askEqual : Action ν Unit) := by
  refine bind pop fun b => bind pop fun a => ?_
  split
  · exact push _
  · exact fail rfl

theorem random : RaisesNative (Action.random : Action ν Unit) := by
  refine bind popInt fun high => bind popInt fun low => ite (bind get fun m => ?_) (ite (push _) (fail rfl))
  exact bind (set _) fun _ => push _

theorem beginWord : RaisesNative (Action.beginWord : Action ν Unit) := by
  refine bind nextToken fun name => ?_
  cases name with
  | none => exact fail rfl
  | some name =>
    exact bind get fun _ =>
      ite (bind nextToken fun _ => beginDefinition name true) (beginDefinition name false)

theorem storeValue : RaisesNative (Action.storeValue : Action ν Unit) := by
  refine bind pop fun value => bind pop fun index => ?_
  cases index with
  | int n => exact ite (fail rfl) (patch _ _)
  | _ => exact fail rfl

theorem copyBlock : RaisesNative (Action.copyBlock : Action ν Unit) :=
  bind (readUntil _ rfl) fun _ => bind get fun _ =>
    ite (edit _) (ite (fail rfl) (bind (edit _) fun _ => ite (setMode _) (pure _)))

theorem branchUnless : RaisesNative (Action.branchUnless : Action ν Unit) := by
  refine bind popBool fun condition => bind (readTarget _) fun target => ?_
  cases condition with
  | true => exact pure _
  | false => exact jump _

/-- Native words raise no other faults. -/
theorem primitive (word : Primitive) : RaisesNative (word.run : Action ν Unit) :=
  match word with
  | .dup => bind pop fun _ => bind (push _) fun _ => push _
  | .drop => bind pop fun _ => pure _
  | .swap => bind pop fun _ => bind pop fun _ => bind (push _) fun _ => push _
  | .copyOver => bind pop fun _ => bind pop fun _ => bind (push _) fun _ => bind (push _) fun _ => push _
  | .rot =>
    bind pop fun _ => bind pop fun _ => bind pop fun _ =>
      bind (push _) fun _ => bind (push _) fun _ => push _
  | .pick => bind popInt fun _ => ite (fail rfl) (bind (pick _) fun _ => push _)
  | .isEmpty => bind get fun _ => push _
  | .plus => add
  | .times => multiply
  | .slash => divide
  | .equals => askEqual
  | .rand => random
  | .colon => beginWord
  | .semicolon => op .endDefinition
  | .here => bind here fun _ => push _
  | .store => storeValue
  | .comma => bind pop fun _ => bind here fun _ => edit _
  | .openBracket => copyBlock
  | .closeBracket => bind get fun _ => ite (setMode _) (pure _)
  | .branch => bind (readTarget _) fun _ => jump _
  | .branchUnless => branchUnless
  | .openParen => bind (readUntil _ rfl) fun _ => pure _
  | .assert => bind pop fun _ => ite (pure _) (bind get fun _ => fail rfl)
  | .dot => bind pop fun _ => write _
  | .survey => bind get fun _ => write _
  | .quote => bind pop fun _ => push _

end RaisesNative

end Action

/-- No other faults are raised by a token that calls no word, unless it is read while halted. -/
theorem Machine.raisesNative_of_request {m : StandardMachine} {token : String}
    {action : Action Primitive Unit} (running : m.mode ≠ .halt) (asked : m.request token = .act action) :
    action.RaisesNative := by
  obtain ⟨word, primitive, -, -, -, rfl⟩ | rfl | rfl | ⟨halted, -⟩ := act_of_request asked
  · exact .primitive primitive
  · exact .push _
  · exact .edit _
  · exact absurd halted running

end ResumableForth
