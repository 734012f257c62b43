import ResumableForth.Primitive

/-! What the native words are made of. Each of them is put together from a few operations, by doing
one behind the other and by failing; so a property that every operation has, and that sequences
inherit, is a property of all native words. Three properties of this kind are used elsewhere: that an
invariant is kept, that an action does not depend on the parts of the machine that a veil covers, and,
for words that only deal with values and output, that the effect on these is the same in all machines.

A class of values can be followed on the way: when the operations take values of the class off the
stack, then what the words put there is of the class again. -/
namespace ResumableForth

/-- What a native word can see of a machine besides the values on its stack. -/
structure View where
  input : List String
  cursor : Nat
  mode : Mode
  openWord : Option String
  outermost : Bool

def Machine.view {ν : Type} (m : Machine ν) : View :=
  ⟨m.input, m.cursor, m.mode, m.openWord, m.frames.isEmpty⟩

/-- The operations of the native words, by the type of their result. -/
inductive Op : Type → Type
  | push (value : Value) : Op Unit
  | pop : Op Value
  | pick (index : Nat) : Op Value
  | write (text : String) : Op Unit
  /-- All values on the stack are seen at once. -/
  | values : Op (List Value)
  | look : Op View
  | nextToken : Op (Option String)
  | jump (index : Nat) : Op Unit
  | setMode (mode : Mode) (running : mode ≠ .halt) : Op Unit
  | beginDefinition (name : String) (immediate : Bool) : Op Unit
  | endDefinition : Op Unit
  | here : Op Nat
  | edit (change : List String → List String) : Op Unit
  | notePatch (index : Nat) (token : String) : Op Unit
  | draw (span : Nat) : Op Nat

namespace Op

variable {ν α : Type}

def exec : {α : Type} → Op α → Action ν α
  | _, .push value => Action.push value
  | _, .pop => Action.pop
  | _, .pick index => Action.pick index
  | _, .write text => Action.write text
  | _, .values => fun m => .ok m.stack m
  | _, .look => fun m => .ok m.view m
  | _, .nextToken => Action.nextToken
  | _, .jump index => Action.jump index
  | _, .setMode mode _ => Action.setMode mode
  | _, .beginDefinition name immediate => Action.beginDefinition name immediate
  | _, .endDefinition => Action.endDefinition
  | _, .here => Action.here
  | _, .edit change => Action.editDefinition change
  | _, .notePatch index token => modify (·.record fun _ => .slotPatched index token)
  | _, .draw span => fun m =>
    .ok (m.generator.draw span).1 { m with generator := (m.generator.draw span).2 }

def Pre (good : Value → Prop) : {α : Type} → Op α → Prop
  | _, .push value => good value
  | _, _ => True

def Post (good : Value → Prop) : {α : Type} → Op α → α → Prop
  | _, .pop, value => good value
  | _, .pick _, value => good value
  | _, .values, stack => ∀ value ∈ stack, good value
  | _, _, _ => True

theorem post_true (operation : Op α) (x : α) : operation.Post (fun _ => True) x := by
  cases operation <;> simp [Post]

abbrev Class := (α : Type) → Op α → Prop

namespace Class

def any : Class := fun _ _ => True

def onValues : Class
  | _, .push _ | _, .pop | _, .pick _ | _, .write _ => True
  | _, _ => False

def onStore : Class
  | _, .push _ | _, .pop | _, .pick _ | _, .write _ | _, .values => True
  | _, _ => False

def blind : Class
  | _, .values => False
  | _, _ => True

def deaf : Class
  | _, .look | _, .nextToken | _, .jump _ => False
  | _, _ => True

def inward : Class := fun α operation => blind α operation ∧ deaf α operation

/-- Operations that leave the words, the open definition and the mode alone. -/
def keeping : Class
  | _, .setMode _ _ | _, .beginDefinition _ _ | _, .endDefinition | _, .edit _ | _, .notePatch _ _ => False
  | _, _ => True

def reading : Class := fun α operation => keeping α operation ∧ blind α operation

def aside : Class := fun α operation => keeping α operation ∧ inward α operation

theorem onStore_of_onValues {operation : Op α} (h : onValues α operation) : onStore α operation := by
  cases operation <;> trivial

theorem keeping_of_onStore {operation : Op α} (h : onStore α operation) : keeping α operation := by
  cases operation <;> trivial

theorem blind_of_onValues {operation : Op α} (h : onValues α operation) : blind α operation := by
  cases operation <;> trivial

theorem deaf_of_onStore {operation : Op α} (h : onStore α operation) : deaf α operation := by
  cases operation <;> trivial

theorem aside_of_onValues {operation : Op α} (h : onValues α operation) : aside α operation :=
  ⟨keeping_of_onStore (onStore_of_onValues h), blind_of_onValues h,
    deaf_of_onStore (onStore_of_onValues h)⟩

theorem reading_of_aside {operation : Op α} (h : aside α operation) : reading α operation :=
  ⟨h.1, h.2.1⟩

theorem reading_of_onValues {operation : Op α} (h : onValues α operation) : reading α operation :=
  reading_of_aside (aside_of_onValues h)

end Class
end Op

def Cause.isLoss : Cause → Bool
  | .definitionLost _ => true
  | _ => false

namespace Action

variable {ν α β : Type}

/-- Actions put together from operations of a class, with a property of their result. The cause of a
failure may depend on what is seen, its kind may not. Only an operation finds a definition lost. -/
inductive Composed (allowed : Op.Class) (good : Value → Prop) :
    {α : Type} → (α → Prop) → Action ν α → Prop
  | op {α : Type} {result : α → Prop} (operation : Op α) (member : allowed α operation)
    (pre : operation.Pre good) (post : ∀ x, operation.Post good x → result x) :
    Composed allowed good result operation.exec
  | pure {α : Type} {result : α → Prop} {x : α} (h : result x) :
    Composed allowed good result (pure x)
  | failWith {α : Type} {result : α → Prop} (cause : View → Cause)
    (same : ∀ view view', (cause view).kind = (cause view').kind)
    (found : ∀ view, (cause view).isLoss = false) :
    Composed allowed good result fun m => fail (cause m.view) m
  | bind {α β : Type} {between : α → Prop} {result : β → Prop} {first : Action ν α}
    {next : α → Action ν β} (head : Composed allowed good between first)
    (tail : ∀ x, between x → Composed allowed good result (next x)) :
    Composed allowed good result (first >>= next)

abbrev Plain (allowed : Op.Class) (good : Value → Prop) (action : Action ν α) : Prop :=
  Composed allowed good (fun _ => True) action

namespace Composed

variable {allowed wider : Op.Class} {good : Value → Prop} {result : α → Prop}

theorem mono {action : Action ν α} (h : ∀ {β : Type} {operation : Op β}, allowed β operation →
    wider β operation) (composed : Composed allowed good result action) :
    Composed wider good result action := by
  induction composed with
  | op operation member pre post => exact op operation (h member) pre post
  | pure held => exact pure held
  | failWith cause same found => exact failWith cause same found
  | bind head tail headWider tailWider => exact bind headWider tailWider

theorem fail (cause : Cause) (found : cause.isLoss = false) :
    Composed allowed good result (Action.fail cause : Action ν α) :=
  failWith (fun _ => cause) (fun _ _ => rfl) fun _ => found

theorem look {next : View → Action ν α} (member : allowed _ .look)
    (h : ∀ view, Composed allowed good result (next view)) :
    Composed allowed good result (Op.look.exec >>= next) :=
  bind (op .look member trivial fun _ _ => trivial) fun view (_ : True) => h view

theorem values {next : List Value → Action ν α} (member : allowed _ .values)
    (h : ∀ stack, Composed allowed good result (next stack)) :
    Composed allowed good result (Op.values.exec >>= next) :=
  bind (op .values member trivial fun _ _ => trivial) fun stack (_ : True) => h stack

theorem pop (member : allowed _ .pop) : Composed allowed good good (Action.pop : Action ν Value) :=
  op .pop member trivial fun _ post => post

theorem pick (index : Nat) (member : allowed _ (.pick index)) :
    Composed allowed good good (Action.pick index : Action ν Value) :=
  op (.pick index) member trivial fun _ post => post

theorem push {value : Value} (h : good value) (member : allowed _ (.push value)) :
    Plain allowed good (Action.push value : Action ν Unit) :=
  op (.push value) member h fun _ _ => trivial

theorem write (text : String) (member : allowed _ (.write text)) :
    Plain allowed good (Action.write text : Action ν Unit) :=
  op (.write text) member trivial fun _ _ => trivial

theorem blind {action : Action ν α} (composed : Composed .reading good result action) :
    Composed .blind good result action :=
  composed.mono And.right

theorem nextToken : Plain .reading good (Action.nextToken : Action ν (Option String)) :=
  op .nextToken ⟨trivial, trivial⟩ trivial fun _ _ => trivial

theorem jump (index : Nat) : Plain .reading good (Action.jump index : Action ν Unit) :=
  op (.jump index) ⟨trivial, trivial⟩ trivial fun _ _ => trivial

theorem here : Plain .aside good (Action.here : Action ν Nat) :=
  op .here ⟨trivial, trivial, trivial⟩ trivial fun _ _ => trivial

theorem setMode {mode : Mode} (running : mode ≠ .halt) :
    Plain .inward good (Action.setMode mode : Action ν Unit) :=
  op (.setMode mode running) ⟨trivial, trivial⟩ trivial fun _ _ => trivial

theorem edit (change : List String → List String) :
    Plain .inward good (Action.editDefinition change : Action ν Unit) :=
  op (.edit change) ⟨trivial, trivial⟩ trivial fun _ _ => trivial

end Composed
end Action

/-- The classes of values that the native words do not leave: they hold what a literal and a result
can be. -/
structure Value.Closed (good : Value → Prop) : Prop where
  int : ∀ n, good (.int n)
  bool : ∀ b, good (.bool b)
  str : ∀ text, good (.str text)
  float : ∀ x : Binary64, x.isFinite = true → good (.ofFloat x)

/-- The classes of values that the native words do not leave when they start inside: besides numbers
and truth values, they hold what is made of texts in the class. -/
structure Value.Stable (good : Value → Prop) : Prop where
  int : ∀ n, good (.int n)
  bool : ∀ b, good (.bool b)
  float : ∀ x : Binary64, x.isFinite = true → good (.ofFloat x)
  joined : ∀ a b, good (.str a) → good (.str b) → good (.str (a ++ b))
  unscored : ∀ value, good value → good (.str (Action.unscored value.canonical))

theorem Value.Closed.stable {good : Value → Prop} (closed : Value.Closed good) : Value.Stable good :=
  { closed with
    joined := fun _ _ _ _ => closed.str _
    unscored := fun _ _ => closed.str _ }

theorem Value.closed_true : Value.Closed fun _ => True :=
  ⟨fun _ => trivial, fun _ => trivial, fun _ => trivial, fun _ _ => trivial⟩

namespace Action.Composed

variable {ν : Type} {good : Value → Prop}

theorem duplicate : Plain .onValues good (Action.duplicate : Action ν Unit) :=
  bind (pop trivial) fun _ value => bind (push value trivial) fun _ _ => push value trivial

theorem discard : Plain .onValues good (Action.discard : Action ν Unit) :=
  bind (pop trivial) fun _ _ => pure trivial

theorem exchange : Plain .onValues good (Action.exchange : Action ν Unit) :=
  bind (pop trivial) fun _ b => bind (pop trivial) fun _ a => bind (push b trivial) fun _ _ => push a trivial

theorem copySecond : Plain .onValues good (Action.copySecond : Action ν Unit) :=
  bind (pop trivial) fun _ b => bind (pop trivial) fun _ a =>
    bind (push a trivial) fun _ _ => bind (push b trivial) fun _ _ => push a trivial

theorem rotate : Plain .onValues good (Action.rotate : Action ν Unit) :=
  bind (pop trivial) fun _ c => bind (pop trivial) fun _ b => bind (pop trivial) fun _ a =>
    bind (push b trivial) fun _ _ => bind (push c trivial) fun _ _ => push a trivial

theorem popInt : Plain .onValues good (Action.popInt : Action ν Int64) := by
  refine bind (pop trivial) fun value _ => ?_
  cases value with
  | int n => exact pure trivial
  | _ => exact fail _ rfl

theorem popBool : Plain .onValues good (Action.popBool : Action ν Bool) := by
  refine bind (pop trivial) fun value _ => ?_
  cases value with
  | bool b => exact pure trivial
  | _ => exact fail _ rfl

theorem copyNth : Plain .onValues good (Action.copyNth : Action ν Unit) := by
  refine bind popInt fun index _ => ?_
  by_cases negative : index < 0
  · simp only [negative, if_true]
    exact fail _ rfl
  · simp only [negative, if_false]
    exact bind (pick _ trivial) fun _ value => push value trivial

theorem askEmpty (stable : Value.Stable good) : Plain .onStore good (Action.askEmpty : Action ν Unit) := by
  change Plain .onStore good (Op.values.exec >>= fun stack => Action.push (.bool stack.isEmpty))
  exact values trivial fun _ => push (stable.bool _) trivial

theorem popOperands (word : String) :
    Composed .onValues good (fun operands => good operands.1 ∧ good operands.2)
      (Action.popOperands word : Action ν (Value × Value)) := by
  refine bind (pop trivial) fun b second => bind (pop trivial) fun a first => ?_
  by_cases same : a.tag = b.tag
  · simp only [same, if_true]
    exact pure ⟨first, second⟩
  · simp only [same, if_false]
    exact fail _ rfl

theorem pushInt (stable : Value.Stable good) (word : String) (sum : Option Int64) :
    Plain .onValues good (Action.pushInt word sum : Action ν Unit) := by
  cases sum with
  | none => exact fail _ rfl
  | some n => exact push (stable.int n) trivial

theorem pushFloat (stable : Value.Stable good) (word : String) (sum : Binary64) :
    Plain .onValues good (Action.pushFloat word sum : Action ν Unit) := by
  rw [Action.pushFloat]
  split
  · rename_i finite
    exact push (stable.float _ finite) trivial
  · exact fail _ rfl

theorem add (stable : Value.Stable good) : Plain .onValues good (Action.add : Action ν Unit) := by
  refine bind (popOperands "+") fun operands both => ?_
  split
  · exact pushInt stable _ _
  · exact pushFloat stable _ _
  · exact push (stable.joined _ _ both.1 both.2) trivial
  · exact fail _ rfl

theorem multiply (stable : Value.Stable good) : Plain .onValues good (Action.multiply : Action ν Unit) := by
  refine bind (popOperands "*") fun operands _ => ?_
  split
  · exact pushInt stable _ _
  · exact pushFloat stable _ _
  · exact fail _ rfl

theorem divide (stable : Value.Stable good) : Plain .onValues good (Action.divide : Action ν Unit) := by
  refine bind (popOperands "/") fun operands _ => ?_
  split
  · exact pushInt stable _ _
  · exact pushFloat stable _ _
  · exact fail _ rfl

theorem askEqual (stable : Value.Stable good) : Plain .onValues good (Action.askEqual : Action ν Unit) := by
  refine bind (pop trivial) fun b _ => bind (pop trivial) fun a _ => ?_
  split
  · exact push (stable.bool _) trivial
  · exact fail _ rfl

theorem random (stable : Value.Stable good) : Plain .aside good (Action.random : Action ν Unit) := by
  refine bind (popInt.mono Op.Class.aside_of_onValues) fun high _ =>
    bind (popInt.mono Op.Class.aside_of_onValues) fun low _ => ?_
  split
  · change Plain .aside good ((Op.draw (high.toInt - low.toInt).toNat).exec >>= fun offset =>
      Action.push (.int (Int64.ofInt (low.toInt + offset))))
    exact bind (op (.draw _) ⟨trivial, trivial, trivial⟩ trivial fun _ _ => trivial) fun _ _ =>
      push (stable.int _) ⟨trivial, trivial, trivial⟩
  · split
    · exact push (stable.int _) ⟨trivial, trivial, trivial⟩
    · exact fail _ rfl

theorem beginWord : Plain .blind good (Action.beginWord : Action ν Unit) := by
  refine bind nextToken.blind fun name _ => ?_
  cases name with
  | none => exact fail _ rfl
  | some name =>
    change Plain .blind good (Op.look.exec >>= fun view =>
      if view.input[view.cursor]? = some immediateMark then
        Action.nextToken >>= fun _ => Action.beginDefinition name true
      else Action.beginDefinition name false)
    refine look trivial fun view => ?_
    split
    · exact bind nextToken.blind fun _ _ => op (.beginDefinition name true) trivial trivial fun _ _ => trivial
    · exact op (.beginDefinition name false) trivial trivial fun _ _ => trivial

theorem endDefinition : Plain .inward good (Action.endDefinition : Action ν Unit) :=
  op .endDefinition ⟨trivial, trivial⟩ trivial fun _ _ => trivial

theorem pushHere (stable : Value.Stable good) : Plain .aside good (Action.pushHere : Action ν Unit) :=
  bind here fun _ _ => push (stable.int _) ⟨trivial, trivial, trivial⟩

theorem patch (index : Nat) (token : String) :
    Plain .inward good (Action.patch index token : Action ν Unit) := by
  refine bind (here.mono And.right) fun size _ => ?_
  by_cases inside : index < size
  · simp only [inside, if_true]
    exact bind (op (.notePatch index token) ⟨trivial, trivial⟩ trivial fun _ _ => trivial) fun _ _ => edit _
  · simp only [inside, if_false]
    exact fail _ rfl

theorem storeValue : Plain .inward good (Action.storeValue : Action ν Unit) := by
  refine bind (pop ⟨trivial, trivial⟩) fun value _ => bind (pop ⟨trivial, trivial⟩) fun index _ => ?_
  cases index with
  | int n =>
    by_cases negative : n < 0
    · simp only [negative, if_true]
      exact fail _ rfl
    · simp only [negative, if_false]
      exact patch _ _
  | _ => exact fail _ rfl

theorem compileValue : Plain .inward good (Action.compileValue : Action ν Unit) :=
  bind (pop ⟨trivial, trivial⟩) fun _ _ => bind (here.mono And.right) fun _ _ => edit _

theorem readUntil (closer : String) (missing : Cause) (found : missing.isLoss = false) :
    Plain .reading good (Action.readUntil closer missing : Action ν (List String)) := by
  change Plain .reading good (Op.look.exec >>= fun view =>
    let block := (view.input.drop view.cursor).takeWhile (· != closer)
    if view.input[view.cursor + block.length]?.isSome then
      Action.jump (view.cursor + block.length + 1) >>= fun _ => Pure.pure block
    else Action.fail missing)
  refine look ⟨trivial, trivial⟩ fun view => ?_
  dsimp only
  split
  · exact bind (jump _) fun _ _ => pure trivial
  · exact fail missing found

theorem copyBlock : Plain .blind good (Action.copyBlock : Action ν Unit) := by
  refine bind (readUntil _ _ rfl).blind fun block _ => ?_
  change Plain .blind good (Op.look.exec >>= fun view =>
    if view.mode = .compile then Action.compile ("[" :: (block ++ ["]"]))
    else if view.openWord.isNone then Action.fail .blockWithoutDefinition
    else Action.compile block >>= fun _ =>
      if view.outermost then Action.setMode .compile else Pure.pure ())
  refine look trivial fun view => ?_
  split
  · exact (edit _).mono And.left
  · split
    · exact fail _ rfl
    · refine bind ((edit _).mono And.left) fun _ _ => ?_
      split
      · exact (setMode (by decide)).mono And.left
      · exact pure trivial

theorem suspend : Plain .blind good (Action.suspend : Action ν Unit) := by
  change Plain .blind good (Op.look.exec >>= fun view =>
    if view.mode = .compile then Action.setMode .execute else Pure.pure ())
  refine look trivial fun view => ?_
  split
  · exact (setMode (by decide)).mono And.left
  · exact pure trivial

theorem readTarget (word : String) : Plain .reading good (Action.readTarget word : Action ν Nat) := by
  refine bind nextToken fun operand _ => ?_
  cases operand with
  | none => exact fail _ rfl
  | some operand =>
    dsimp only
    split
    · exact fail _ rfl
    · rename_i n _
      change Plain .reading good (Op.look.exec >>= fun view =>
        if n.toInt.toNat ≤ view.input.length then Pure.pure n.toInt.toNat
        else Action.fail (.targetOutside word n.toInt.toNat view.input.length))
      refine look ⟨trivial, trivial⟩ fun view => ?_
      split
      · exact pure trivial
      · exact fail _ rfl

theorem branch : Plain .reading good (Action.branch : Action ν Unit) :=
  bind (readTarget _) fun _ _ => jump _

theorem branchUnless : Plain .reading good (Action.branchUnless : Action ν Unit) := by
  refine bind (popBool.mono Op.Class.reading_of_onValues) fun condition _ => bind (readTarget _) fun target _ => ?_
  cases condition with
  | true => exact pure trivial
  | false => exact jump _

theorem comment : Plain .reading good (Action.comment : Action ν Unit) :=
  bind (readUntil _ _ rfl) fun _ _ => pure trivial

theorem demand : Plain .onValues good (Action.demand : Action ν Unit) := by
  refine bind (pop trivial) fun value _ => ?_
  by_cases holds : value = .bool true
  · simp only [holds, if_true]
    exact pure trivial
  · simp only [holds, if_false]
    exact failWith (fun view => .assertion value view.input) (fun _ _ => rfl) fun _ => rfl

theorem print : Plain .onValues good (Action.print : Action ν Unit) := bind (pop trivial) fun _ _ => write _ trivial

theorem survey : Plain .onStore good (Action.survey : Action ν Unit) := by
  change Plain .onStore good (Op.values.exec >>= fun stack =>
    Action.write (Text.spaced (stack.reverse.map surveyed) ++ "\n"))
  exact values trivial fun _ => write _ trivial

theorem makeString (stable : Value.Stable good) : Plain .onValues good (Action.makeString : Action ν Unit) :=
  bind (pop trivial) fun value h => push (stable.unscored value h) trivial

end Action.Composed

def Primitive.isLocal : Primitive → Bool
  | .dup | .drop | .swap | .copyOver | .rot | .pick | .isEmpty | .plus | .times | .slash | .equals
  | .assert | .dot | .survey | .quote => true
  | _ => false

/-- The native words that see all values on the stack at once. -/
def Primitive.seesAll : Primitive → Bool
  | .isEmpty | .survey => true
  | _ => false

namespace Action.Composed

variable {ν : Type} {good : Value → Prop} {word : Primitive}

theorem ofValues (stable : Value.Stable good) (h : word.isLocal = true) (single : word.seesAll = false) :
    Plain .onValues good (word.run : Action ν Unit) :=
  match word, h, single with
  | .dup, _, _ => duplicate
  | .drop, _, _ => discard
  | .swap, _, _ => exchange
  | .copyOver, _, _ => copySecond
  | .rot, _, _ => rotate
  | .pick, _, _ => copyNth
  | .plus, _, _ => add stable
  | .times, _, _ => multiply stable
  | .slash, _, _ => divide stable
  | .equals, _, _ => askEqual stable
  | .assert, _, _ => demand
  | .dot, _, _ => print
  | .quote, _, _ => makeString stable

theorem ofLocal (stable : Value.Stable good) (h : word.isLocal = true) :
    Plain .onStore good (word.run : Action ν Unit) := by
  cases all : word.seesAll with
  | false => exact (ofValues stable h all).mono Op.Class.onStore_of_onValues
  | true =>
    match word, all with
    | .isEmpty, _ => exact askEmpty stable
    | .survey, _ => exact survey

theorem ofGlobal (stable : Value.Stable good) (h : word.isLocal = false) :
    Plain .blind good (word.run : Action ν Unit) :=
  match word, h with
  | .rand, _ => ((random stable).mono Op.Class.reading_of_aside).blind
  | .colon, _ => beginWord
  | .semicolon, _ => endDefinition.mono And.left
  | .here, _ => ((pushHere stable).mono Op.Class.reading_of_aside).blind
  | .store, _ => storeValue.mono And.left
  | .comma, _ => compileValue.mono And.left
  | .openBracket, _ => copyBlock
  | .closeBracket, _ => suspend
  | .branch, _ => branch.blind
  | .branchUnless, _ => branchUnless.blind
  | .openParen, _ => comment.blind

theorem ofBlind (stable : Value.Stable good) (single : word.seesAll = false) :
    Plain .blind good (word.run : Action ν Unit) := by
  cases h : word.isLocal with
  | true => exact (ofValues stable h single).mono Op.Class.blind_of_onValues
  | false => exact ofGlobal stable h

/-- Every native word is put together from operations. -/
theorem primitive (stable : Value.Stable good) (word : Primitive) :
    Plain .any good (word.run : Action ν Unit) := by
  cases h : word.isLocal with
  | true => exact (ofLocal stable h).mono fun _ => trivial
  | false => exact (ofGlobal stable h).mono fun _ => trivial

end Action.Composed

/-- An outcome whose machine has a property, and whose result, if there is one, has another. -/
def Outcome.Meets {ν α : Type} (result : α → Prop) (state : Machine ν → Prop) : Outcome ν α → Prop
  | .ok x m => result x ∧ state m
  | .error _ m => state m

def Outcome.machine {ν α : Type} : Outcome ν α → Machine ν
  | .ok _ m => m
  | .error _ m => m

@[simp] theorem Outcome.machine_ok {ν α : Type} (x : α) (m : Machine ν) :
    Outcome.machine (.ok x m) = m := rfl

theorem Outcome.Meets.machine {ν α : Type} {result : α → Prop} {state : Machine ν → Prop}
    {outcome : Outcome ν α} (h : Outcome.Meets result state outcome) : state outcome.machine := by
  cases outcome with
  | ok x m => exact h.2
  | error fault m => exact h

theorem Op.meets_of_machine {ν α : Type} (operation : Op α) {state : Machine ν → Prop}
    {outcome : Outcome ν α} (h : state outcome.machine) :
    Outcome.Meets (operation.Post fun _ => True) state outcome := by
  cases outcome with
  | ok x m => exact ⟨operation.post_true x, h⟩
  | error fault m => exact h

/-- An outcome whose machine is of a kind, and whose fault, if there is one, is of a kind, too. -/
def Outcome.Within {ν α : Type} (state : Machine ν → Prop) (raised : Fault → Prop) :
    Outcome ν α → Prop
  | .ok _ m => state m
  | .error fault m => raised fault ∧ state m

namespace Outcome.Within

variable {ν α : Type} {state : Machine ν → Prop} {raised : Fault → Prop} {outcome : Outcome ν α}

theorem machine (h : Outcome.Within state raised outcome) : state outcome.machine := by
  cases outcome with
  | ok x m => exact h
  | error fault m => exact h.2

theorem intro (h : state outcome.machine)
    (faults : ∀ fault m, outcome = .error fault m → raised fault) :
    Outcome.Within state raised outcome := by
  cases outcome with
  | ok x m => exact h
  | error fault m => exact ⟨faults fault m rfl, h⟩

theorem of_machine (h : state outcome.machine) : Outcome.Within state (fun _ => True) outcome :=
  intro h fun _ _ _ => trivial

end Outcome.Within

def Outcome.over {ν α : Type} (f : Machine ν → Machine ν) : Outcome ν α → Outcome ν α
  | .ok x m => .ok x (f m)
  | .error fault m => .error fault (f m)

theorem Outcome.machine_over {ν α : Type} (f : Machine ν → Machine ν) (outcome : Outcome ν α) :
    Outcome.machine (Outcome.over f outcome) = f outcome.machine := by
  cases outcome <;> rfl

theorem Outcome.over_congr {ν α : Type} {f g : Machine ν → Machine ν} {outcome : Outcome ν α}
    (same : f outcome.machine = g outcome.machine) : Outcome.over f outcome = Outcome.over g outcome := by
  cases outcome with
  | ok x m => exact congrArg (EStateM.Result.ok x) same
  | error fault m => exact congrArg (EStateM.Result.error fault) same

/-- A change of the frames, the room and the journal that no native word notices. -/
structure Veil where
  frames : List Frame → List Frame
  room : Nat → Nat
  journal : Journal → Journal
  calls : ∀ fs, (frames fs).map (fun f => CallItem.mk f.word f.reached) =
    fs.map fun f => ⟨f.word, f.reached⟩
  reach : ∀ index fs, frames (Machine.reach index fs) = Machine.reach index (frames fs)
  record : ∀ (j : Journal) event, journal (j.record event) = (journal j).record event

namespace Veil

theorem calls_id (fs : List Frame) : (id fs).map (fun f => CallItem.mk f.word f.reached) =
    fs.map fun f => ⟨f.word, f.reached⟩ := rfl

theorem reach_id (index : Nat) (fs : List Frame) :
    id (Machine.reach index fs) = Machine.reach index (id fs) := rfl

theorem record_id (j : Journal) (event : Unit → Event) : id (j.record event) = (id j).record event := rfl

variable {ν α : Type} (veil : Veil)

def cover (m : Machine ν) : Machine ν :=
  { m with frames := veil.frames m.frames, room := veil.room m.room, journal := veil.journal m.journal }

theorem isEmpty_frames (fs : List Frame) : (veil.frames fs).isEmpty = fs.isEmpty := by
  have sizes := congrArg List.length (veil.calls fs)
  simp only [List.length_map] at sizes
  cases fs <;> cases h : veil.frames _ <;> simp_all

theorem calls_cover (m : Machine ν) : (veil.cover m).calls = m.calls := veil.calls m.frames

theorem view_cover (m : Machine ν) : (veil.cover m).view = m.view := by
  simp [Machine.view, cover, veil.isEmpty_frames]

theorem moveTo_cover (index : Nat) (m : Machine ν) :
    (veil.cover m).moveTo index = veil.cover (m.moveTo index) := by
  simp [cover, Machine.moveTo, veil.reach]

theorem record_cover (event : Event) (m : Machine ν) :
    (veil.cover m).record (fun _ => event) = veil.cover (m.record fun _ => event) := by
  simp [cover, Machine.record, veil.record]

theorem fail_cover (cause : Cause) (m : Machine ν) :
    (Action.fail cause (veil.cover m) : Outcome ν α) = Outcome.over veil.cover (Action.fail cause m) := by
  simp [Action.fail, Outcome.over, veil.calls_cover]

/-- No operation looks under the veil. -/
theorem exec_cover (operation : Op α) (m : Machine ν) :
    operation.exec (veil.cover m) = Outcome.over veil.cover (operation.exec m) := by
  cases operation with
  | values => rfl
  | look => exact congrArg (fun view => EStateM.Result.ok view (veil.cover m)) (veil.view_cover m)
  | push value => rfl
  | pop =>
    simp only [Op.exec, Action.pop, veil.fail_cover]
    cases h : m.stack <;> simp [cover, h, Outcome.over]
  | pick index =>
    simp only [Op.exec, Action.pick, veil.fail_cover]
    cases h : m.stack[index]? <;> simp [cover, h, Outcome.over]
  | nextToken =>
    simp only [Op.exec, Action.nextToken, veil.moveTo_cover]
    cases h : m.token? <;> simp_all [cover, Machine.token?, Outcome.over]
  | jump index =>
    simp only [Op.exec, Action.jump, veil.moveTo_cover, veil.fail_cover]
    by_cases h : index ≤ m.input.length <;> simp [cover, h, Outcome.over]
  | setMode mode running => rfl
  | beginDefinition name immediate =>
    simp only [Op.exec, Action.beginDefinition, veil.record_cover, veil.fail_cover]
    cases h : m.openWord <;> simp [cover, h, Outcome.over]
  | endDefinition =>
    simp only [Op.exec, Action.endDefinition, veil.record_cover, veil.fail_cover]
    cases h : m.openWord with
    | none => simp [cover, h, Outcome.over]
    | some name =>
      cases body : m.dictionary.body? name <;> simp [cover, h, body, Outcome.over]
  | here =>
    simp only [Op.exec, Action.here, veil.fail_cover]
    cases h : m.openWord with
    | none => simp [cover, h]
    | some name => cases body : m.dictionary.body? name <;> simp [cover, h, body, Outcome.over]
  | edit change =>
    simp only [Op.exec, Action.editDefinition, veil.fail_cover]
    cases h : m.openWord with
    | none => simp [cover, h]
    | some name =>
      cases edited : m.dictionary.editBody? name change <;> simp [cover, h, edited, Outcome.over]
  | notePatch index token => exact congrArg (EStateM.Result.ok ()) (veil.record_cover _ m)
  | write text => rfl
  | draw span => rfl

end Veil

namespace Action.Composed

variable {ν α : Type} {allowed : Op.Class} {good : Value → Prop} {result : α → Prop}
  {action : Action ν α}

/-- What the operations of a class keep is kept by what is put together from them. -/
theorem keeps {state : Machine ν → Prop}
    (operations : ∀ {β : Type} (operation : Op β), allowed β operation → operation.Pre good →
      ∀ m, state m → Outcome.Meets (operation.Post good) state (operation.exec m))
    (composed : Composed allowed good result action) (m : Machine ν) (before : state m) :
    Outcome.Meets result state (action m) := by
  induction composed generalizing m with
  | op operation member pre post =>
    have kept := operations operation member pre m before
    cases h : operation.exec m with
    | ok x next =>
      rw [h] at kept
      exact ⟨post x kept.1, kept.2⟩
    | error fault next =>
      rw [h] at kept
      exact kept
  | pure h => exact ⟨h, before⟩
  | failWith cause same => exact before
  | @bind _ _ _ _ first next head tail headKeeps tailKeeps =>
    have kept := headKeeps m before
    change Outcome.Meets _ state (EStateM.bind first next m)
    rw [EStateM.bind]
    cases h : first m with
    | ok x between =>
      rw [h] at kept
      exact tailKeeps x kept.1 between kept.2
    | error fault between =>
      rw [h] at kept
      exact kept

theorem result_of_ok (composed : Composed allowed (fun _ => True) result action) {m next : Machine ν}
    {x : α} (h : action m = .ok x next) : result x := by
  have met : Outcome.Meets result (fun _ => True) (action m) := by
    exact composed.keeps (fun operation _ _ m _ => operation.meets_of_machine trivial) m trivial
  rw [h] at met
  exact met.1

/-- What is put together from operations raises the faults that these raise, or faults of its own that
are no losses. -/
theorem within {state : Machine ν → Prop} {raised : Fault → Prop}
    (operations : ∀ {β : Type} (operation : Op β) (m : Machine ν), state m →
      Outcome.Within state raised (operation.exec m))
    (own : ∀ fault : Fault, fault.cause.isLoss = false → raised fault)
    (composed : Composed allowed (fun _ => True) result action) (m : Machine ν) (before : state m) :
    Outcome.Within state raised (action m) := by
  induction composed generalizing m with
  | op operation => exact operations operation m before
  | pure h => exact before
  | failWith cause same found => exact ⟨own _ (found m.view), before⟩
  | @bind _ _ _ _ first next head tail headWithin tailWithin =>
    have kept := headWithin m before
    change Outcome.Within state raised (EStateM.bind first next m)
    rw [EStateM.bind]
    cases h : first m with
    | ok x between =>
      rw [h] at kept
      exact tailWithin x (head.result_of_ok h) between kept
    | error fault between =>
      rw [h] at kept
      exact kept

/-- What is put together from operations does not look under a veil. -/
theorem over_cover (veil : Veil) (composed : Composed allowed (fun _ => True) result action)
    (m : Machine ν) : action (veil.cover m) = Outcome.over veil.cover (action m) := by
  induction composed generalizing m with
  | op operation => exact veil.exec_cover operation m
  | pure h => rfl
  | failWith cause same =>
    change Action.fail (cause (veil.cover m).view) (veil.cover m) = _
    rw [veil.view_cover]
    exact veil.fail_cover _ m
  | @bind _ _ _ _ first next head tail headCovers tailCovers =>
    change EStateM.bind first next _ = Outcome.over _ (EStateM.bind first next m)
    rw [EStateM.bind, EStateM.bind, headCovers m]
    cases h : first m with
    | ok x between => exact tailCovers x (head.result_of_ok h) between
    | error fault between => rfl

end Action.Composed

def Machine.withStore {ν : Type} (m : Machine ν) (stack : List Value) (output : String) : Machine ν :=
  { m with stack := stack, output := output }

/-- Outcomes from two machines that have had the same effect on values and output, and none on
anything else. Failures are of one kind. -/
inductive SameEffect {ν α : Type} (m m' : Machine ν) : Outcome ν α → Outcome ν α → Prop
  | ok (x : α) (stack : List Value) (output : String) :
    SameEffect m m' (.ok x (m.withStore stack output)) (.ok x (m'.withStore stack output))
  | error (fault fault' : Fault) (same : fault.kind = fault'.kind) (stack : List Value)
    (output : String) : SameEffect m m' (.error fault (m.withStore stack output))
      (.error fault' (m'.withStore stack output))

theorem SameEffect.fail {ν α : Type} (m m' : Machine ν) (stack : List Value) (output : String)
    {cause cause' : Cause} (same : cause.kind = cause'.kind) :
    SameEffect m m' (Action.fail cause (m.withStore stack output) : Outcome ν α)
      (Action.fail cause' (m'.withStore stack output)) :=
  .error ⟨cause, m.calls⟩ ⟨cause', m'.calls⟩ same stack output

/-- An operation on values and output does the same from machines that agree on these. -/
theorem SameEffect.exec {ν α : Type} (m m' : Machine ν) (stack : List Value) (output : String)
    (operation : Op α) (member : Op.Class.onStore α operation) :
    SameEffect m m' (operation.exec (m.withStore stack output))
      (operation.exec (m'.withStore stack output)) := by
  cases operation with
  | push value => exact .ok () (value :: stack) output
  | pop =>
    cases stack with
    | nil => exact .fail m m' [] output rfl
    | cons value stack => exact .ok value stack output
  | pick index =>
    simp only [Op.exec, Action.pick, Machine.withStore]
    cases stack[index]? with
    | none => exact .fail m m' stack output rfl
    | some value => exact .ok value stack output
  | write text => exact .ok () stack (output ++ text)
  | values => exact .ok stack stack output
  | _ => exact member.elim

/-- What is put together from such operations does the same, too. -/
theorem Action.Composed.sameEffect {ν α : Type} {result : α → Prop} {action : Action ν α}
    (composed : Composed .onStore (fun _ => True) result action) (m m' : Machine ν)
    (stack : List Value) (output : String) :
    SameEffect m m' (action (m.withStore stack output)) (action (m'.withStore stack output)) := by
  induction composed generalizing stack output with
  | op operation member => exact .exec m m' stack output operation member
  | pure h => exact .ok _ stack output
  | failWith cause same => exact .fail m m' stack output (same _ _)
  | @bind _ _ _ _ first next head tail headSame tailSame =>
    have both := headSame stack output
    change SameEffect m m' (EStateM.bind first next _) (EStateM.bind first next _)
    rw [EStateM.bind, EStateM.bind]
    generalize left : first (m.withStore stack output) = outcome at both
    generalize right : first (m'.withStore stack output) = outcome' at both
    cases both with
    | ok x stack output => exact tailSame x (head.result_of_ok left) stack output
    | error fault fault' same stack output => exact .error fault fault' same stack output

end ResumableForth
