import ResumableForth.Proofs.Composition
import ResumableForth.Number.Decimal

/-! Structured programs: how they are written, what they mean, and how they are laid out as tokens with
branches. The meaning is given by recursion over the structure and knows of no token list, of no
cursor and of no branch. -/
namespace ResumableForth

inductive Program
  | done
  | leaf (token : String) (rest : Program)
  | ifThen (yes rest : Program)
  | ifElse (yes no rest : Program)
  | untilLoop (body rest : Program)
  | endless (body rest : Program)
  | whileLoop (test body rest : Program)

namespace Program

def tokens : Program → List String
  | .done => []
  | .leaf token rest => token :: rest.tokens
  | .ifThen yes rest => "IF" :: (yes.tokens ++ "THEN" :: rest.tokens)
  | .ifElse yes no rest => "IF" :: (yes.tokens ++ "ELSE" :: (no.tokens ++ "THEN" :: rest.tokens))
  | .untilLoop body rest => "BEGIN" :: (body.tokens ++ "UNTIL" :: rest.tokens)
  | .endless body rest => "BEGIN" :: (body.tokens ++ "AGAIN" :: rest.tokens)
  | .whileLoop test body rest =>
    "BEGIN" :: (test.tokens ++ "WHILE" :: (body.tokens ++ "REPEAT" :: rest.tokens))

def leaves : Program → List String
  | .done => []
  | .leaf token rest => token :: rest.leaves
  | .ifThen yes rest => yes.leaves ++ rest.leaves
  | .ifElse yes no rest => yes.leaves ++ no.leaves ++ rest.leaves
  | .untilLoop body rest => body.leaves ++ rest.leaves
  | .endless body rest => body.leaves ++ rest.leaves
  | .whileLoop test body rest => test.leaves ++ body.leaves ++ rest.leaves

theorem leaves_subset (program : Program) : program.leaves ⊆ program.tokens := by
  induction program with
  | done => exact fun _ mem => mem
  | _ =>
    intro token mem
    simp only [leaves, tokens, List.mem_cons, List.mem_append] at mem ⊢
    grind

/-- The number of tokens in the layout: two for each branch. -/
def size : Program → Nat
  | .done => 0
  | .leaf _ rest => 1 + rest.size
  | .ifThen yes rest => 2 + yes.size + rest.size
  | .ifElse yes no rest => 2 + yes.size + 2 + no.size + rest.size
  | .untilLoop body rest => body.size + 2 + rest.size
  | .endless body rest => body.size + 2 + rest.size
  | .whileLoop test body rest => test.size + 2 + body.size + 2 + rest.size

def branchUnless (target : Nat) : List String := ["BRANCH?", Decimal.numeral target]

def branch (target : Nat) : List String := ["BRANCH", Decimal.numeral target]

/-- The tokens of a program that stands at an offset, with branches to absolute places. -/
def layout : Program → Nat → List String
  | .done, _ => []
  | .leaf token rest, offset => [token] ++ rest.layout (offset + 1)
  | .ifThen yes rest, offset =>
    branchUnless (offset + 2 + yes.size) ++ yes.layout (offset + 2) ++
      rest.layout (offset + 2 + yes.size)
  | .ifElse yes no rest, offset =>
    branchUnless (offset + 2 + yes.size + 2) ++ yes.layout (offset + 2) ++
      branch (offset + 2 + yes.size + 2 + no.size) ++ no.layout (offset + 2 + yes.size + 2) ++
      rest.layout (offset + 2 + yes.size + 2 + no.size)
  | .untilLoop body rest, offset =>
    body.layout offset ++ branchUnless offset ++ rest.layout (offset + body.size + 2)
  | .endless body rest, offset =>
    body.layout offset ++ branch offset ++ rest.layout (offset + body.size + 2)
  | .whileLoop test body rest, offset =>
    test.layout offset ++ branchUnless (offset + test.size + 2 + body.size + 2) ++
      body.layout (offset + test.size + 2) ++ branch offset ++
      rest.layout (offset + test.size + 2 + body.size + 2)

@[simp] theorem length_branchUnless (target : Nat) : (branchUnless target).length = 2 := rfl

@[simp] theorem length_branch (target : Nat) : (branch target).length = 2 := rfl

@[simp] theorem length_layout (program : Program) (offset : Nat) :
    (program.layout offset).length = program.size := by
  induction program generalizing offset with
  | done => rfl
  | leaf token rest ih =>
    simp only [layout, size, List.length_append, List.length_singleton, ih]
  | ifThen yes rest ihYes ihRest =>
    simp only [layout, size, List.length_append, length_branchUnless, ihYes, ihRest]
  | ifElse yes no rest ihYes ihNo ihRest =>
    simp only [layout, size, List.length_append, length_branchUnless, length_branch, ihYes, ihNo,
      ihRest]
  | untilLoop body rest ihBody ihRest =>
    simp only [layout, size, List.length_append, length_branchUnless, ihBody, ihRest]
  | endless body rest ihBody ihRest =>
    simp only [layout, size, List.length_append, length_branch, ihBody, ihRest]
  | whileLoop test body rest ihTest ihBody ihRest =>
    simp only [layout, size, List.length_append, length_branchUnless, length_branch, ihTest, ihBody,
      ihRest]

end Program

/-- What a structured program works on: the values, top first, and the output. -/
structure Store where
  stack : List Value
  output : String

abbrev Effect := EStateM.Result FaultKind Store Unit

def Outcome.effect : Outcome Primitive Unit → Effect
  | .ok _ m => .ok () ⟨m.stack, m.output⟩
  | .error fault m => .error fault.kind ⟨m.stack, m.output⟩

namespace Store

def machine (store : Store) : Machine Primitive :=
  (Machine.start { natives := Primitive.lexicon }).withStore store.stack store.output

def andThen : Option Effect → (Store → Option Effect) → Option Effect
  | some (.ok _ store), next => next store
  | other, _ => other

def condition (store : Store) (yes no : Store → Option Effect) : Option Effect :=
  match store.stack with
  | [] => some (.error .stackUnderflow store)
  | .bool true :: stack => yes { store with stack := stack }
  | .bool false :: stack => no { store with stack := stack }
  | _ :: stack => some (.error .typeMismatch { store with stack := stack })

/-- Repeats a body until the condition behind it is true. -/
def repeatUntil (body : Store → Option Effect) : Nat → Store → Option Effect
  | 0, _ => none
  | fuel + 1, store =>
    andThen (body store) fun store =>
      store.condition (fun store => some (.ok () store)) (repeatUntil body fuel)

def repeatEndlessly (body : Store → Option Effect) : Nat → Store → Option Effect
  | 0, _ => none
  | fuel + 1, store => andThen (body store) (repeatEndlessly body fuel)

def repeatWhile (test body : Store → Option Effect) : Nat → Store → Option Effect
  | 0, _ => none
  | fuel + 1, store =>
    andThen (test store) fun store =>
      store.condition (fun store => andThen (body store) (repeatWhile test body fuel))
        fun store => some (.ok () store)

end Store

def Primitive.localNamed? (name : String) : Option Primitive :=
  all.find? fun primitive => primitive.isLocal && primitive.entry.1 == name

theorem Primitive.localNamed?_eq_some {name : String} {primitive : Primitive}
    (h : localNamed? name = some primitive) :
    primitive.isLocal = true ∧ primitive.entry.1 = name := by
  simpa using List.find?_some h

theorem Primitive.entry_ne_of_localNamed? {name : String} (h : localNamed? name = none)
    {primitive : Primitive} (isLocal : primitive.isLocal = true) : primitive.entry.1 ≠ name := by
  simpa [isLocal] using List.find?_eq_none.mp h primitive (mem_all primitive)

/-- A token that a structured program may have as a leaf: a word on values and output, or a literal. -/
def Dictionary.Leaf (dictionary : Dictionary Primitive) (token : String) : Prop :=
  (∃ primitive : Primitive, primitive.isLocal = true ∧ primitive.entry.1 = token) ∨
    (dictionary.find? token = none ∧ token ≠ Action.immediateMark)

theorem Primitive.localNamed?_isSome_iff {name : String} :
    (localNamed? name).isSome = true ↔
      ∃ primitive : Primitive, primitive.isLocal = true ∧ primitive.entry.1 = name := by
  constructor
  · intro h
    obtain ⟨primitive, named⟩ := Option.isSome_iff_exists.mp h
    exact ⟨primitive, localNamed?_eq_some named⟩
  · rintro ⟨primitive, isLocal, same⟩
    cases named : localNamed? name with
    | none => exact absurd same (entry_ne_of_localNamed? named isLocal)
    | some _ => rfl

instance (dictionary : Dictionary Primitive) (token : String) : Decidable (dictionary.Leaf token) :=
  decidable_of_iff
    ((Primitive.localNamed? token).isSome = true ∨
      (dictionary.find? token = none ∧ token ≠ Action.immediateMark))
    (or_congr_left Primitive.localNamed?_isSome_iff)

namespace Program

open Store

/-- What a token does that is not part of a control structure: a word on values and output runs, and
any other token is a literal. -/
def leafEffect (token : String) (store : Store) : Effect :=
  match Primitive.localNamed? token with
  | some primitive => Outcome.effect (primitive.run store.machine)
  | none => .ok () { store with stack := Value.literal token :: store.stack }

/-- What a program comes to, unless the fuel for some loop does not suffice. -/
def eval : Program → Nat → Store → Option Effect
  | .done, _, store => some (.ok () store)
  | .leaf token rest, fuel, store => andThen (some (leafEffect token store)) (rest.eval fuel)
  | .ifThen yes rest, fuel, store =>
    andThen (store.condition (yes.eval fuel) fun store => some (.ok () store)) (rest.eval fuel)
  | .ifElse yes no rest, fuel, store =>
    andThen (store.condition (yes.eval fuel) (no.eval fuel)) (rest.eval fuel)
  | .untilLoop body rest, fuel, store =>
    andThen (repeatUntil (body.eval fuel) fuel store) (rest.eval fuel)
  | .endless body rest, fuel, store =>
    andThen (repeatEndlessly (body.eval fuel) fuel store) (rest.eval fuel)
  | .whileLoop test body rest, fuel, store =>
    andThen (repeatWhile (test.eval fuel) (body.eval fuel) fuel store) (rest.eval fuel)

end Program
end ResumableForth
